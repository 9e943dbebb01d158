import Mathlib.Data.List.TakeWhile
import Phrasebook.Proofs.Rows
import Phrasebook.Storage.Store
namespace Phrasebook

namespace Text

theorem trimEnd_nil_iff (text : List Char) : trimEnd text = [] ↔ ∀ c ∈ text, isBlank c = true := by
  rw [trimEnd,List.reverse_eq_nil_iff,List.dropWhile_eq_nil_iff]
  simp

theorem trimStart_blank_iff (text : List Char) :
    (∀ c ∈ trimStart text, isBlank c = true) ↔ ∀ c ∈ text, isBlank c = true := by
  constructor
  · intro blank c member
    rw [← List.takeWhile_append_dropWhile (p := isBlank) (l := text)] at member
    rcases List.mem_append.mp member with member | member
    · exact List.mem_takeWhile_imp member
    · exact blank c member
  · intro blank c member
    exact blank c ((List.dropWhile_sublist isBlank).mem member)

theorem trim_nil_iff (text : List Char) : trim text = [] ↔ ∀ c ∈ text, isBlank c = true := by
  rw [trim,trimEnd_nil_iff,trimStart_blank_iff]

theorem lower_nil_iff (text : List Char) : lower text = [] ↔ text = [] := by
  cases text with
  | nil => exact ⟨fun _ => rfl,fun _ => rfl⟩
  | cons c text =>
    have letters : lowerAt [] c text ≠ [] := by
      unfold lowerAt
      split
      · exact List.cons_ne_nil _ _
      · split <;> exact List.cons_ne_nil _ _
    simp [lower,lowerFrom,letters]

theorem utf8_append (one two : String) : utf8 (one ++ two) = utf8 one ++ utf8 two := by
  simp [utf8,String.toUTF8,ByteArray.data_append]

theorem ofUtf8?_iff : ofUtf8? bytes = some text ↔ bytes = utf8 text := by
  unfold ofUtf8? decodeUtf8 String.fromUTF8? utf8
  constructor
  · intro decoded
    split at decoded
    · cases decoded
      rfl
    · cases decoded
  · rintro rfl
    have valid : (text.toUTF8).IsValidUTF8 := text.isValidUTF8
    exact (dif_pos valid).trans rfl

theorem utf8_inj : utf8 one = utf8 two ↔ one = two := by
  constructor
  · intro same
    have decoded := ofUtf8?_iff.mpr same
    rw [ofUtf8?_iff.mpr rfl] at decoded
    exact Option.some.inj decoded
  · rintro rfl
    rfl

theorem showUtf8_text (text : String) : showUtf8 (utf8 text) = text := by
  rw [showUtf8,ofUtf8?_iff.mpr rfl,Option.getD_some]

end Text

namespace Storage

-- What a message directory holds for a format, told without the order in which
-- its files are looked at.

-- The extension of a name is exactly that of the format, whatever stands before.
def Marked (format : Format) (name : List UInt8) : Prop :=
  ∃ stem, stem ≠ [] ∧ name = stem ++ dot :: Text.utf8 format.extension

def fileName (format : Format) (stem : String) : String := stem ++ "." ++ format.extension

-- A file of the format is called by a stem, a dot and the extension.
def Names (format : Format) (name : List UInt8) (stem : String) : Prop :=
  stem ≠ "" ∧ name = Text.utf8 (fileName format stem)

-- A stem of blanks names no locale.
def Visible (stem : String) : Prop := ∃ c ∈ stem.toList, Text.isBlank c = false

inductive Reads : Format → FileTree → Messages → Prop where
  | properties (decoded : Text.decodeUtf8 content = some text)
      (parsed : Properties.parse text = .ok messages) : Reads .properties (.file content) messages
  | latin (undecoded : Text.decodeUtf8 content = none)
      (parsed : Properties.parse (Text.decodeLatin1 content) = .ok messages) :
      Reads .properties (.file content) messages
  | json (decoded : Text.decodeUtf8 content = some text) (parsed : Json.Value.parse text = .ok value)
      (object : messagesOf? value = some messages) : Reads .json (.file content) messages

-- What a file of the directory is once the system has followed the path to it.
def opened (format : Format) (directory stem : String) (tree : FileTree) : FileTree :=
  tree.reached (join directory (fileName format stem))

-- The directory is listed to its end, and nothing in it keeps it from being loaded.
def Loadable (format : Format) (directory : String) : Place → Prop
  | .directory entries => ∀ entry ∈ entries, Marked format entry.1 →
      ∃ stem messages, Names format entry.1 stem ∧ Visible stem ∧
        Reads format (opened format directory stem entry.2) messages
  | _ => False

-- Files of one locale hold the same messages.
def Agree (format : Format) (entries : List (List UInt8 × FileTree)) : Prop :=
  ∀ one ∈ entries, ∀ two ∈ entries, ∀ stem stem' messages messages',
    Names format one.1 stem → Names format two.1 stem' → Locale.ofString stem = Locale.ofString stem' →
    Reads format one.2 messages → Reads format two.2 messages' → messages = messages'

-- A catalog that holds the messages of every file of the format, and no others.
structure Shows (format : Format) (entries : List (List UInt8 × FileTree)) (locales : List Locale)
    (lookup : String → Locale → Option String) : Prop where
  known : ∀ locale, locale ∈ locales ↔
    ∃ entry ∈ entries, ∃ stem, Names format entry.1 stem ∧ Locale.ofString stem = locale
  held : ∀ entry ∈ entries, ∀ stem messages, Names format entry.1 stem → Reads format entry.2 messages →
    ∀ key, lookup key (Locale.ofString stem) = messages[key]?
  nothing : ∀ locale, locale ∉ locales → ∀ key, lookup key locale = none

inductive Rows (format : Format) (directory : String) :
    List (List UInt8 × FileTree) → List (Locale × Messages) → Prop where
  | nil : Rows format directory [] []
  | other (unmarked : ¬Marked format entry.1) (later : Rows format directory entries rows) :
      Rows format directory (entry :: entries) rows
  | file (named : Names format entry.1 stem) (visible : Visible stem)
      (read : Reads format (opened format directory stem entry.2) messages)
      (later : Rows format directory entries rows) :
      Rows format directory (entry :: entries) ((Locale.ofString stem,messages) :: rows)

theorem locale_visible (stem : String) : (Locale.ofString stem).isEmpty = false ↔ Visible stem := by
  have empty : String.ofList (Locale.normalizeChars stem.toList) = "" ↔
      Locale.normalizeChars stem.toList = [] := by
    rw [← String.toList_inj,String.toList_ofList]
    rfl
  rw [Locale.isEmpty,Locale.ofString,Locale.normalize,Bool.eq_false_iff,ne_eq,String.isEmpty_iff,empty,
    Locale.normalizeChars,List.map_eq_nil_iff,Text.lower_nil_iff,Text.trim_nil_iff,Visible]
  simp

theorem cutName_iff {name stem extension : List UInt8} :
    cutName name = some (stem,extension) ↔
      stem ≠ [] ∧ name = stem ++ dot :: extension ∧ dot ∉ extension := by
  constructor
  · intro cut
    have whole := List.takeWhile_append_dropWhile (p := (· ≠ dot)) (l := name.reverse)
    have stops := List.head?_dropWhile_not (· ≠ dot) name.reverse
    unfold cutName at cut
    split at cut
    · rename_i first before dropped
      split at cut
      · cases cut
      · rename_i filled
        cases cut
        rw [dropped] at whole stops
        obtain rfl : first = dot := by simpa using stops
        have parts := congrArg List.reverse whole
        rw [List.reverse_append,List.reverse_cons,List.reverse_reverse,List.append_assoc] at parts
        refine ⟨?_,parts.symm,?_⟩
        · intro empty
          exact filled (by simpa using empty)
        · rw [List.mem_reverse]
          intro member
          simpa using List.mem_takeWhile_imp member
    · cases cut
  · rintro ⟨filled,rfl,undotted⟩
    have reversed : (stem ++ dot :: extension).reverse = extension.reverse ++ dot :: stem.reverse := by simp
    have front : ∀ byte ∈ extension.reverse, decide (byte ≠ dot) = true := by
      intro byte member
      rw [List.mem_reverse] at member
      exact decide_eq_true fun same => undotted (same ▸ member)
    have nonempty : stem.reverse.isEmpty = false := by simpa using filled
    simp only [cutName,reversed,List.dropWhile_append_of_pos front,List.takeWhile_append_of_pos front]
    simp [nonempty]

theorem extension_undotted (format : Format) : dot ∉ Text.utf8 format.extension := by
  cases format <;> decide +kernel

theorem cutName_marked {format : Format} {stem : List UInt8} :
    cutName name = some (stem,Text.utf8 format.extension) ↔
      stem ≠ [] ∧ name = stem ++ dot :: Text.utf8 format.extension := by
  rw [cutName_iff]
  exact ⟨fun cut => ⟨cut.1,cut.2.1⟩,fun marked => ⟨marked.1,marked.2,extension_undotted format⟩⟩

theorem utf8_nil_iff : Text.utf8 text = [] ↔ text = "" := by
  rw [← Text.utf8_inj]
  rfl

theorem utf8_fileName (format : Format) (stem : String) :
    Text.utf8 (fileName format stem) = Text.utf8 stem ++ dot :: Text.utf8 format.extension := by
  rw [fileName,Text.utf8_append,Text.utf8_append,List.append_assoc]
  rfl

theorem cutName_names {format : Format} :
    cutName name = some (Text.utf8 stem,Text.utf8 format.extension) ↔ Names format name stem := by
  rw [cutName_marked,← utf8_fileName,ne_eq,utf8_nil_iff]
  rfl

theorem names_marked {format : Format} (named : Names format name stem) : Marked format name :=
  ⟨_,cutName_marked.mp (cutName_names.mpr named)⟩

theorem names_unique {format : Format} (one : Names format name stem) (two : Names format name stem') :
    stem = stem' := by
  have cut := cutName_names.mpr one
  rw [cutName_names.mpr two,Option.some.injEq,Prod.mk.injEq] at cut
  exact (Text.utf8_inj.mp cut.1).symm

theorem parseProperties_iff : parseProperties path text = .ok messages ↔ Properties.parse text = .ok messages := by
  unfold parseProperties
  cases Properties.parse text <;> simp

theorem parseJson_iff : parseJson path text = .ok messages ↔
    ∃ value, Json.Value.parse text = .ok value ∧ messagesOf? value = some messages := by
  unfold parseJson
  cases Json.Value.parse text with
  | error fault => simp
  | ok value =>
    simp only [Except.ok.injEq,exists_eq_left']
    cases messagesOf? value <;> simp

theorem readMessages_iff (path : String) : readMessages format path content = .ok messages ↔
    Reads format (.file content) messages := by
  constructor
  · intro read
    unfold readMessages at read
    split at read
    · rename_i decoded
      exact .properties decoded (parseProperties_iff.mp read)
    · rename_i undecoded
      exact .latin undecoded (parseProperties_iff.mp read)
    · rename_i decoded
      obtain ⟨value,parsed,object⟩ := parseJson_iff.mp read
      exact .json decoded parsed object
    · cases read
  · intro reads
    cases reads with
    | properties decoded parsed =>
      simp only [readMessages,decoded]
      exact parseProperties_iff.mpr parsed
    | latin undecoded parsed =>
      simp only [readMessages,undecoded]
      exact parseProperties_iff.mpr parsed
    | json decoded parsed object =>
      simp only [readMessages,decoded]
      exact parseJson_iff.mpr ⟨_,parsed,object⟩

theorem reads_unique (one : Reads format tree messages) (two : Reads format tree messages') :
    messages = messages' := by
  cases tree with
  | file content =>
    have same : readMessages format "" content = .ok messages := (readMessages_iff "").mpr one
    rw [(readMessages_iff "").mpr two] at same
    cases same
    rfl
  | _ => cases one

theorem loadFile_iff : loadFile format catalog file = .ok next ↔
    ∃ messages, Reads format file.entry messages ∧ next = catalog.replace file.locale messages := by
  obtain ⟨locale,path,entry⟩ := file
  cases entry with
  | file content =>
    simp only [loadFile,FileTree.bytes,← readMessages_iff path]
    cases readMessages format path content <;> simp [Except.map,eq_comm]
  | unlisted entries shown reason =>
    cases shown <;>
    · refine ⟨nofun,?_⟩
      rintro ⟨_,⟨⟩,_⟩
  | _ =>
    refine ⟨nofun,?_⟩
    rintro ⟨_,⟨⟩,_⟩

theorem reads_opened (read : Reads format (opened format directory stem tree) messages) :
    Reads format tree messages := by
  unfold opened FileTree.reached at read
  split at read
  · cases read
  · exact read

theorem localeFile_other {format : Format} (unmarked : ¬Marked format entry.1) :
    localeFile format directory entry = .ok none := by
  unfold localeFile
  cases cut : cutName entry.1 with
  | none => rfl
  | some parts =>
    obtain ⟨stem,extension⟩ := parts
    refine if_pos ?_
    intro decoded
    rw [Text.ofUtf8?_iff.mp decoded] at cut
    exact unmarked ⟨stem,cutName_marked.mp cut⟩

theorem localeFile_named (directory : String) (named : Names format entry.1 stem) (visible : Visible stem) :
    localeFile format directory entry = .ok (some ⟨Locale.ofString stem,
      join directory (fileName format stem),opened format directory stem entry.2⟩) := by
  have shown : Text.showUtf8 entry.1 = fileName format stem := by rw [named.2,Text.showUtf8_text]
  have decoded (text : String) : Text.ofUtf8? (Text.utf8 text) = some text := Text.ofUtf8?_iff.mpr rfl
  have kept : (some (Locale.ofString stem)).filter (!·.isEmpty) = some (Locale.ofString stem) :=
    Option.filter_some_pos (by rw [(locale_visible stem).mpr visible]; rfl)
  simp only [localeFile,cutName_names.mpr named,decoded,shown,Option.map_some,kept,ne_eq,not_true_eq_false,
    if_false,opened]

theorem localeFile_unnamed (directory : String) (marked : Marked format entry.1)
    (unnamed : ∀ stem, Names format entry.1 stem → ¬Visible stem) :
    localeFile format directory entry = .error (.invalidFileName (join directory (Text.showUtf8 entry.1))) := by
  obtain ⟨bytes,filled,whole⟩ := marked
  have refused : ((Text.ofUtf8? bytes).map Locale.ofString).filter (!·.isEmpty) = none := by
    rw [Option.filter_eq_none_iff]
    intro locale known
    obtain ⟨stem,decoded,rfl⟩ := Option.map_eq_some_iff.mp known
    obtain rfl := Text.ofUtf8?_iff.mp decoded
    have named : Names format entry.1 stem := cutName_names.mp (cutName_marked.mpr ⟨filled,whole⟩)
    simpa using mt (locale_visible stem).mp (unnamed stem named)
  have decoded : Text.ofUtf8? (Text.utf8 format.extension) = some format.extension := Text.ofUtf8?_iff.mpr rfl
  simp only [localeFile,cutName_marked.mpr ⟨filled,whole⟩,decoded,refused,ne_eq,not_true_eq_false,if_false]

theorem rows_other {format : Format} (unmarked : ¬Marked format entry.1) :
    Rows format directory (entry :: entries) rows ↔ Rows format directory entries rows := by
  refine ⟨?_,.other unmarked⟩
  rintro (_ | ⟨_,later⟩ | ⟨named,_,_,_⟩)
  · exact later
  · exact absurd (names_marked named) unmarked

theorem rows_named (named : Names format entry.1 stem) :
    Rows format directory (entry :: entries) rows ↔ Visible stem ∧
      ∃ messages later, Reads format (opened format directory stem entry.2) messages ∧
        Rows format directory entries later ∧ rows = (Locale.ofString stem,messages) :: later := by
  constructor
  · rintro (_ | ⟨unmarked,_⟩ | ⟨named',visible,read,later⟩)
    · exact absurd (names_marked named) unmarked
    · cases names_unique named named'
      exact ⟨visible,_,_,read,later,rfl⟩
  · rintro ⟨visible,messages,later,read,others,rfl⟩
    exact .file named visible read others

theorem rows_unnamed (marked : Marked format entry.1)
    (unnamed : ∀ stem, Names format entry.1 stem → ¬Visible stem) :
    ¬Rows format directory (entry :: entries) rows := by
  rintro (_ | ⟨unmarked,_⟩ | ⟨named,visible,_,_⟩)
  · exact unmarked marked
  · exact unnamed _ named visible

theorem name_cases (format : Format) (name : List UInt8) :
    ¬Marked format name ∨ (∃ stem, Names format name stem ∧ Visible stem) ∨
      Marked format name ∧ ∀ stem, Names format name stem → ¬Visible stem := by
  by_cases marked : Marked format name
  · by_cases good : ∃ stem, Names format name stem ∧ Visible stem
    · exact .inr (.inl good)
    · exact .inr (.inr ⟨marked,fun stem named visible => good ⟨stem,named,visible⟩⟩)
  · exact .inl marked

theorem mapM_cons_ok {f : α → Except ε β} (here : f item = .ok value) (items : List α) (values : List β) :
    (item :: items).mapM f = .ok values ↔ ∃ later, items.mapM f = .ok later ∧ values = value :: later := by
  rw [List.mapM_cons,here]
  cases items.mapM f with
  | error fault => exact ⟨nofun,nofun⟩
  | ok later => exact ⟨fun same => ⟨later,rfl,by cases same; rfl⟩,by rintro ⟨_,⟨⟩,rfl⟩; rfl⟩

theorem foldlM_cons_ok {f : α → β → Except ε α} (start : α) (item : β) (items : List β) (final : α) :
    (item :: items).foldlM f start = .ok final ↔
      ∃ next, f start item = .ok next ∧ items.foldlM f next = .ok final := by
  rw [List.foldlM_cons]
  cases f start item with
  | error fault => exact ⟨nofun,nofun⟩
  | ok next => exact ⟨fun same => ⟨next,rfl,same⟩,by rintro ⟨_,⟨⟩,same⟩; exact same⟩

-- All names are looked at before any file is read, but whether that goes well
-- can be told entry by entry.
theorem load_rows (directory : String) (entries : List (List UInt8 × FileTree)) (start catalog : Catalog) :
    (∃ files, entries.mapM (localeFile format directory) = .ok files ∧
      (files.filterMap id).foldlM (loadFile format) start = .ok catalog) ↔
    ∃ rows, Rows format directory entries rows ∧ catalog = ⟨rows.foldl addRow start.entries⟩ := by
  induction entries generalizing start with
  | nil =>
    constructor
    · rintro ⟨_,⟨⟩,⟨⟩⟩
      exact ⟨[],.nil,rfl⟩
    · rintro ⟨_,⟨⟩,rfl⟩
      exact ⟨[],rfl,rfl⟩
  | cons entry entries ih =>
    rcases name_cases format entry.1 with unmarked | ⟨stem,named,visible⟩ | ⟨marked,unnamed⟩
    · simp only [mapM_cons_ok (localeFile_other unmarked),rows_other unmarked,← ih start]
      constructor
      · rintro ⟨_,⟨files,mapped,rfl⟩,filled⟩
        exact ⟨files,mapped,filled⟩
      · rintro ⟨files,mapped,filled⟩
        exact ⟨_,⟨files,mapped,rfl⟩,filled⟩
    · simp only [rows_named named,mapM_cons_ok (localeFile_named directory named visible)]
      constructor
      · rintro ⟨_,⟨files,mapped,rfl⟩,filled⟩
        obtain ⟨next,loaded,filled⟩ := (foldlM_cons_ok _ _ _ _).mp filled
        obtain ⟨messages,read,rfl⟩ := loadFile_iff.mp loaded
        obtain ⟨rows,later,rfl⟩ := (ih _).mp ⟨files,mapped,filled⟩
        exact ⟨_,⟨visible,messages,rows,read,later,rfl⟩,rfl⟩
      · rintro ⟨_,⟨_,messages,rows,read,later,rfl⟩,rfl⟩
        obtain ⟨files,mapped,filled⟩ := (ih (start.replace (Locale.ofString stem) messages)).mpr ⟨rows,later,rfl⟩
        have loaded : loadFile format start ⟨Locale.ofString stem,join directory (fileName format stem),
            opened format directory stem entry.2⟩ = .ok _ := loadFile_iff.mpr ⟨messages,read,rfl⟩
        exact ⟨_,⟨files,mapped,rfl⟩,(foldlM_cons_ok _ _ _ _).mpr ⟨_,loaded,filled⟩⟩
    · constructor
      · rintro ⟨files,mapped,_⟩
        rw [List.mapM_cons,localeFile_unnamed directory marked unnamed] at mapped
        cases mapped
      · rintro ⟨_,holds,_⟩
        exact absurd holds (rows_unnamed marked unnamed)

theorem load_iff : load format directory (.directory entries) = .ok catalog ↔
    ∃ rows, Rows format directory entries rows ∧ catalog = ⟨rows.foldl addRow ∅⟩ := by
  refine Iff.trans ?_ (load_rows directory entries Catalog.empty catalog)
  rw [load]
  cases entries.mapM (localeFile format directory) with
  | error fault => exact ⟨nofun,nofun⟩
  | ok files => exact ⟨fun same => ⟨files,rfl,same⟩,by rintro ⟨_,⟨⟩,same⟩; exact same⟩

theorem load_unlisted (format : Format) (directory : String) (entries : List (List UInt8 × FileTree))
    (shown : Nat) (reason : ReadFault) :
    ∃ fault, load format directory (.unlisted entries shown reason) = .error fault := by
  rw [load]
  cases (entries.take shown).mapM (localeFile format directory) with
  | error fault => exact ⟨fault,rfl⟩
  | ok files => exact ⟨_,rfl⟩

theorem loadable_rows : Loadable format directory (.directory entries) ↔
    ∃ rows, Rows format directory entries rows := by
  induction entries with
  | nil => exact ⟨fun _ => ⟨[],.nil⟩,fun _ => nofun⟩
  | cons entry entries ih =>
    have parts : Loadable format directory (.directory (entry :: entries)) ↔
        (Marked format entry.1 → ∃ stem messages, Names format entry.1 stem ∧ Visible stem ∧
          Reads format (opened format directory stem entry.2) messages) ∧
        Loadable format directory (.directory entries) := List.forall_mem_cons
    rw [parts,ih]
    rcases name_cases format entry.1 with unmarked | ⟨stem,named,visible⟩ | ⟨marked,unnamed⟩
    · simp only [rows_other unmarked]
      exact ⟨fun both => both.2,fun rows => ⟨fun marked => absurd marked unmarked,rows⟩⟩
    · simp only [rows_named named]
      constructor
      · rintro ⟨here,rows,later⟩
        obtain ⟨stem',messages,named',_,read⟩ := here (names_marked named)
        cases names_unique named named'
        exact ⟨_,visible,messages,rows,read,later,rfl⟩
      · rintro ⟨_,_,messages,rows,read,later,rfl⟩
        exact ⟨fun _ => ⟨stem,messages,named,visible,read⟩,rows,later⟩
    · constructor
      · rintro ⟨here,_⟩
        obtain ⟨stem,_,named,visible,_⟩ := here marked
        exact absurd visible (unnamed stem named)
      · rintro ⟨_,holds⟩
        exact absurd holds (rows_unnamed marked unnamed)

-- A load goes well exactly when nothing stands against it.
theorem load_succeeds (format : Format) (directory : String) (place : Place) :
    (∃ catalog, load format directory place = .ok catalog) ↔ Loadable format directory place := by
  cases place with
  | directory entries =>
    simp only [load_iff]
    rw [loadable_rows]
    exact ⟨fun ⟨_,rows,holds,_⟩ => ⟨rows,holds⟩,fun ⟨rows,holds⟩ => ⟨_,rows,holds,rfl⟩⟩
  | unlisted entries shown reason =>
    obtain ⟨fault,failed⟩ := load_unlisted format directory entries shown reason
    rw [failed]
    exact ⟨nofun,nofun⟩
  | _ => exact ⟨nofun,nofun⟩

theorem load_directory (loaded : load format directory place = .ok catalog) :
    ∃ entries, place = .directory entries := by
  have loadable := (load_succeeds format directory place).mp ⟨catalog,loaded⟩
  cases place with
  | directory entries => exact ⟨entries,rfl⟩
  | _ => exact loadable.elim

theorem loadable_named (loadable : Loadable format directory (.directory entries)) (listed : entry ∈ entries)
    (named : Names format entry.1 stem) :
    Visible stem ∧ ∃ messages, Reads format (opened format directory stem entry.2) messages := by
  obtain ⟨stem',messages,named',visible,read⟩ := loadable entry listed (names_marked named)
  cases names_unique named named'
  exact ⟨visible,messages,read⟩

theorem rows_member (holds : Rows format directory entries rows) : (locale,messages) ∈ rows ↔
    ∃ entry ∈ entries, ∃ stem, Names format entry.1 stem ∧ Locale.ofString stem = locale ∧
      Reads format entry.2 messages := by
  induction holds with
  | nil => simp
  | other unmarked _ ih =>
    simp only [ih,List.mem_cons,exists_eq_or_imp]
    refine ⟨.inr,?_⟩
    rintro (⟨stem,named,_⟩ | later)
    · exact absurd (names_marked named) unmarked
    · exact later
  | file named visible read _ ih =>
    simp only [ih,List.mem_cons,exists_eq_or_imp]
    refine or_congr_left ?_
    constructor
    · rintro ⟨⟩
      exact ⟨_,named,rfl,reads_opened read⟩
    · rintro ⟨stem',named',rfl,read'⟩
      rw [names_unique named named',reads_unique (reads_opened read) read']

theorem rows_single (holds : Rows format directory entries rows) : SingleValued rows ↔ Agree format entries := by
  constructor
  · intro single one here two there stem stem' messages messages' named named' same read read'
    refine single (Locale.ofString stem) messages messages' ?_ ?_
    · exact (rows_member holds).mpr ⟨one,here,stem,named,rfl,read⟩
    · exact (rows_member holds).mpr ⟨two,there,stem',named',same.symm,read'⟩
  · intro agree locale messages messages' member member'
    obtain ⟨one,here,stem,named,rfl,read⟩ := (rows_member holds).mp member
    obtain ⟨two,there,stem',named',same,read'⟩ := (rows_member holds).mp member'
    exact agree one here two there stem stem' messages messages' named named' same.symm read read'

theorem locales_rows (rows : List (Locale × Messages)) (locale : Locale) :
    locale ∈ Catalog.locales ⟨rows.foldl addRow ∅⟩ ↔ ∃ messages, (locale,messages) ∈ rows := by
  rw [Catalog.locales,Std.ExtTreeMap.mem_keys,Std.ExtTreeMap.mem_iff_isSome_getElem?]
  exact addRows_keys rows locale

theorem load_shows (agree : Agree format entries)
    (loaded : load format directory (.directory entries) = .ok catalog) :
    Shows format entries catalog.locales catalog.get? := by
  obtain ⟨rows,holds,rfl⟩ := load_iff.mp loaded
  have readable := loadable_rows.mpr ⟨rows,holds⟩
  constructor
  · intro locale
    rw [locales_rows]
    constructor
    · rintro ⟨messages,member⟩
      obtain ⟨entry,listed,stem,named,same,_⟩ := (rows_member holds).mp member
      exact ⟨entry,listed,stem,named,same⟩
    · rintro ⟨entry,listed,stem,named,same⟩
      obtain ⟨_,messages,read⟩ := loadable_named readable listed named
      exact ⟨messages,(rows_member holds).mpr ⟨entry,listed,stem,named,same,reads_opened read⟩⟩
  · intro entry listed stem messages named read key
    have member := (rows_member holds).mpr ⟨entry,listed,stem,named,rfl,read⟩
    have found := (addRows_value ((rows_single holds).mpr agree) _ _).mpr member
    simp only [Catalog.get?,found,Option.bind_some]
  · intro locale absent key
    rw [locales_rows,← addRows_keys,Option.not_isSome_iff_eq_none] at absent
    simp only [Catalog.get?,absent,Option.bind_none]

end Storage
end Phrasebook
