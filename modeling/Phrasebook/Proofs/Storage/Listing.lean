import Phrasebook.Proofs.Storage.Loading
namespace Phrasebook.Storage

-- The order in which the entries of a directory are listed is not the program's to
-- choose. Whether a load goes well does not hang on it; what is loaded does, as
-- soon as two files of one locale differ: only the last one listed is kept.

-- Files of one locale hold messages of the same keys.
def SameKeys (format : Format) (entries : List (List UInt8 × FileTree)) : Prop :=
  ∀ one ∈ entries, ∀ two ∈ entries, ∀ stem stem' messages messages' key,
    Names format one.1 stem → Names format two.1 stem' → Locale.ofString stem = Locale.ofString stem' →
    Reads format one.2 messages → Reads format two.2 messages' → key ∈ messages → key ∈ messages'

-- Each key of each file is there under the locale of the file.
def Complete (format : Format) (entries : List (List UInt8 × FileTree)) (catalog : Catalog) : Prop :=
  ∀ entry ∈ entries, ∀ stem messages key, Names format entry.1 stem → Reads format entry.2 messages →
    key ∈ messages → (catalog.get? key (Locale.ofString stem)).isSome

theorem loadable_listed (listed : other.Perm entries) :
    Loadable format directory (.directory other) ↔ Loadable format directory (.directory entries) := by
  simp only [Loadable,listed.mem_iff]

theorem rows_listed (listed : other.Perm entries) (one : Rows format directory other rows)
    (two : Rows format directory entries rows') (row : Locale × Messages) : row ∈ rows ↔ row ∈ rows' := by
  obtain ⟨locale,messages⟩ := row
  simp only [rows_member one,rows_member two,listed.mem_iff]

theorem load_listed (agree : Agree format entries) (listed : other.Perm entries)
    (loaded : load format directory (.directory entries) = .ok catalog) :
    load format directory (.directory other) = .ok catalog := by
  obtain ⟨rows,holds,rfl⟩ := load_iff.mp loaded
  have loadable := loadable_rows.mpr ⟨rows,holds⟩
  obtain ⟨rows',holds'⟩ := loadable_rows.mp ((loadable_listed listed).mpr loadable)
  have single := (rows_single holds).mpr agree
  have same := rows_listed listed holds' holds
  have single' : SingleValued rows' := by
    intro locale messages messages' member member'
    exact single locale messages messages' ((same _).mp member) ((same _).mp member')
  apply load_iff.mpr
  refine ⟨rows',holds',congrArg Catalog.mk ?_⟩
  apply Std.ExtTreeMap.ext_getElem?
  intro locale
  apply Option.ext
  intro messages
  rw [addRows_value single,addRows_value single',same]

theorem rows_last (holds : Rows format directory entries rows) (named : Names format entry.1 stem)
    (visible : Visible stem) (read : Reads format (opened format directory stem entry.2) messages) :
    Rows format directory (entries ++ [entry]) (rows ++ [(Locale.ofString stem,messages)]) := by
  induction holds with
  | nil => exact .file named visible read .nil
  | other unmarked _ ih => exact .other unmarked ih
  | file named' visible' read' _ ih => exact .file named' visible' read' ih

theorem file_shown (loadable : Loadable format directory (.directory entries))
    (member : entry ∈ entries) (named : Names format entry.1 stem) (read : Reads format entry.2 messages) :
    ∃ listed, listed.Perm entries ∧ ∃ catalog, load format directory (.directory listed) = .ok catalog ∧
      catalog.entries[Locale.ofString stem]? = some messages := by
  obtain ⟨visible,messages',read'⟩ := loadable_named loadable member named
  obtain rfl := reads_unique (reads_opened read') read
  obtain ⟨before,after,rfl⟩ := List.append_of_mem member
  have others : Loadable format directory (.directory (before ++ after)) := by
    intro item inside
    apply loadable item
    simp only [List.mem_append,List.mem_cons] at inside ⊢
    exact inside.imp_right .inr
  obtain ⟨rows,holds⟩ := loadable_rows.mp others
  have moved : (before ++ after ++ [entry]).Perm (before ++ entry :: after) := by
    rw [List.append_assoc]
    exact (List.perm_append_singleton entry after).append_left before
  refine ⟨_,moved,_,load_iff.mpr ⟨_,rows_last holds named visible read',rfl⟩,?_⟩
  rw [List.foldl_append]
  exact Std.ExtTreeMap.getElem?_insert_self

theorem locale_shown (loaded : load format directory (.directory entries) = .ok catalog)
    (found : catalog.entries[locale]? = some messages) :
    ∃ entry ∈ entries, ∃ stem, Names format entry.1 stem ∧ Locale.ofString stem = locale ∧
      Reads format entry.2 messages := by
  obtain ⟨rows,holds,rfl⟩ := load_iff.mp loaded
  rw [addRows_last] at found
  exact (rows_member holds).mp (List.mem_reverse.mp (lookup_member found))

theorem locale_known (loaded : load format directory (.directory entries) = .ok catalog)
    (member : entry ∈ entries) (named : Names format entry.1 stem) (read : Reads format entry.2 messages) :
    ∃ shown, catalog.entries[Locale.ofString stem]? = some shown := by
  obtain ⟨rows,holds,rfl⟩ := load_iff.mp loaded
  apply Option.isSome_iff_exists.mp
  apply (addRows_keys rows _).mpr
  exact ⟨messages,(rows_member holds).mpr ⟨entry,member,stem,named,rfl,read⟩⟩

theorem listing_agrees (loadable : Loadable format directory (.directory entries)) :
    (∀ listed, listed.Perm entries →
      load format directory (.directory listed) = load format directory (.directory entries)) ↔
    Agree format entries := by
  constructor
  · intro same one here two there stem stem' messages messages' named named' equal read read'
    obtain ⟨listed,perm,catalog,loaded,shown⟩ := file_shown loadable here named read
    obtain ⟨listed',perm',catalog',loaded',shown'⟩ := file_shown loadable there named' read'
    rw [same listed perm] at loaded
    rw [same listed' perm',loaded] at loaded'
    cases loaded'
    rw [equal,shown'] at shown
    cases shown
    rfl
  · intro agree listed perm
    obtain ⟨catalog,loaded⟩ := (load_succeeds format directory _).mpr loadable
    rw [loaded]
    exact load_listed agree perm loaded

theorem listing_complete (loadable : Loadable format directory (.directory entries)) :
    (∀ listed catalog, listed.Perm entries → load format directory (.directory listed) = .ok catalog →
      Complete format entries catalog) ↔ SameKeys format entries := by
  constructor
  · intro complete one here two there stem stem' messages messages' key named named' equal read read' inside
    obtain ⟨listed,perm,catalog,loaded,shown⟩ := file_shown loadable there named' read'
    have present := complete listed catalog perm loaded one here stem messages key named read inside
    rw [Catalog.get?,equal,shown,Option.bind_some] at present
    exact Std.ExtTreeMap.mem_iff_isSome_getElem?.mpr present
  · intro keys listed catalog perm loaded entry member stem messages key named read inside
    have here : entry ∈ listed := perm.mem_iff.mpr member
    obtain ⟨shown,found⟩ := locale_known loaded here named read
    obtain ⟨other,there,stem',named',same,read'⟩ := locale_shown loaded found
    rw [Catalog.get?,found,Option.bind_some,← Std.ExtTreeMap.mem_iff_isSome_getElem?]
    exact keys entry member other (perm.mem_iff.mp there) stem stem' messages shown key named named' same.symm
      read read' inside

-- All listings of a directory go well or none does, and none that breaks off. They
-- give one catalog exactly when the files of one locale agree, and lose no key
-- exactly when these have the same keys.
theorem load_listing (format : Format) (directory : String) (entries : List (List UInt8 × FileTree)) :
    (∀ listed, listed.Perm entries →
      ((∃ catalog, load format directory (.directory listed) = .ok catalog) ↔
        ∃ catalog, load format directory (.directory entries) = .ok catalog)) ∧
    (∀ listed shown reason, listed.Perm entries →
      ∃ fault, load format directory (.unlisted listed shown reason) = .error fault) ∧
    (Loadable format directory (.directory entries) →
      ((∀ listed, listed.Perm entries →
        load format directory (.directory listed) = load format directory (.directory entries)) ↔
      Agree format entries) ∧
      ((∀ listed catalog, listed.Perm entries → load format directory (.directory listed) = .ok catalog →
        Complete format entries catalog) ↔
      SameKeys format entries)) := by
  refine ⟨?_,?_,?_⟩
  · intro listed perm
    rw [load_succeeds,load_succeeds]
    exact loadable_listed perm
  · intro listed shown reason _
    exact load_unlisted format directory listed shown reason
  · intro loadable
    exact ⟨listing_agrees loadable,listing_complete loadable⟩

def twins : List (List UInt8 × FileTree) :=
  [(Text.utf8 "en-US.json",.file "\x7b\"a\":\"1\"\x7d".toUTF8),
   (Text.utf8 "en_us.json",.file "\x7b\"b\":\"2\"\x7d".toUTF8)]

theorem twins_loaded :
    load .json "lang" (.directory twins) = .ok (Catalog.ofRows [(⟨"en_us"⟩,"b","2")]) ∧
    load .json "lang" (.directory twins.reverse) = .ok (Catalog.ofRows [(⟨"en_us"⟩,"a","1")]) := by
  decide +kernel

theorem twins_loadable : Loadable .json "lang" (.directory twins) :=
  (load_succeeds .json "lang" _).mp ⟨_,twins_loaded.1⟩

theorem twins_differ :
    load .json "lang" (.directory twins.reverse) ≠ load .json "lang" (.directory twins) := by
  rw [twins_loaded.1,twins_loaded.2]
  decide +kernel

theorem load_listing_twins : Loadable .json "lang" (.directory twins) ∧ ¬Agree .json twins ∧
    ((∀ listed catalog, listed.Perm twins → load .json "lang" (.directory listed) = .ok catalog →
      Complete .json twins catalog) ↔ SameKeys .json twins) := by
  obtain ⟨agreement,complete⟩ := (load_listing .json "lang" twins).2.2 twins_loadable
  refine ⟨twins_loadable,?_,complete⟩
  intro agree
  exact twins_differ (agreement.mpr agree _ (List.reverse_perm twins))

-- Whichever is listed last, the key of the other one is lost.
theorem twins_hide_keys : twins.reverse.Perm twins ∧
    load .json "lang" (.directory twins.reverse) ≠ load .json "lang" (.directory twins) ∧
    (∃ catalog, load .json "lang" (.directory twins) = .ok catalog ∧ ¬Complete .json twins catalog) ∧
    ∃ catalog, load .json "lang" (.directory twins.reverse) = .ok catalog ∧
      ¬Complete .json twins catalog := by
  have first : Reads .json (.file "\x7b\"a\":\"1\"\x7d".toUTF8) {("a","1")} :=
    (readMessages_iff "").mp (by decide +kernel)
  have second : Reads .json (.file "\x7b\"b\":\"2\"\x7d".toUTF8) {("b","2")} :=
    (readMessages_iff "").mp (by decide +kernel)
  refine ⟨List.reverse_perm twins,twins_differ,⟨_,twins_loaded.1,?_⟩,⟨_,twins_loaded.2,?_⟩⟩
  · intro complete
    have shown := complete _ (.head _) "en-US" _ "a" ⟨by decide,rfl⟩ first (by decide +kernel)
    revert shown
    decide +kernel
  · intro complete
    have shown := complete _ (.tail _ (.head _)) "en_us" _ "b" ⟨by decide,rfl⟩ second (by decide +kernel)
    revert shown
    decide +kernel

end Phrasebook.Storage
