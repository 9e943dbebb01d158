import Phrasebook.Proofs.LanguageTag.RoundTrip
import Phrasebook.Proofs.Locale.Normalization
import Phrasebook.Tags.Registry
namespace Phrasebook.Locale
open Text LanguageTag
open List (Subperm)

-- Where the locale of a language tag is the one that the tag spells.

def dashed (c : Char) : Char := if c = '_' then '-' else c

def lowercased (spelling : String) : List Char := ((trim spelling.toList).map dashed).map Char.toLower

def spelled (spelling : String) : List Subtag := splitOn '-' (lowercased spelling)

-- Written as the canonical form has it: variants, attributes, keywords, fields and
-- extensions in their order and once only, and no value that is dropped.
def InOrder (spelling : String) : Prop := ∃ tag : LanguageTag.Tag, tag.Canonical ∧ spelled spelling = tag.subtags

def written (tag : LanguageTag.Tag) : String := String.ofList (writeTag tag)

theorem parseTag_iff {spelling : String} : parseTag spelling = .ok locale ↔
    ∃ tag, readTag ((trim spelling.toList).map dashed) = .ok tag ∧ locale = ofString (written tag) := by
  unfold parseTag
  split
  case h_1 empty =>
    rw [empty]
    constructor
    · intro accepted
      cases accepted
    · intro accepted
      obtain ⟨tag,read,_⟩ := accepted
      cases read
  case h_2 =>
    have dashes : (fun c : Char => if c = '_' then '-' else c) = dashed := rfl
    rw [dashes]
    cases readTag ((trim spelling.toList).map dashed) with
    | error fault => simp
    | ok tag => simp [written,eq_comm]

theorem toLower_again (c : Char) : c.toLower.toLower = c.toLower := by
  by_cases ascii : c.toNat < 0x80
  · revert ascii
    apply ascii_all
    decide +kernel
  · rw [toLower_high ascii,toLower_high ascii]

theorem common_lowercased (c : Char) : common (dashed c).toLower = common c := by
  by_cases separator : c = '_'
  · rw [separator]
    rfl
  · have letter : Interchanges (dashed c).toLower c := by
      apply Interchanges.letter
      rw [dashed,if_neg separator]
      exact toLower_again c
    exact interchanges_common letter

theorem normalized_lowercased (spelling : String) :
    normalizeChars (lowercased spelling) = normalizeChars spelling.toList := by
  have same : (lowercased spelling).map common = (trim spelling.toList).map common := by
    simp only [lowercased,List.map_map]
    exact List.map_congr_left fun c _ => common_lowercased c
  have trimmed : normalizeChars (trim spelling.toList) = normalizeChars spelling.toList := by
    unfold normalizeChars
    rw [trim_fixed (trim_trimmed spelling.toList)]
  rw [← normalized_common,same,normalized_common,trimmed]

theorem in_order_accepted (order : InOrder spelling) : parseTag spelling = .ok (ofString spelling) := by
  obtain ⟨tag,canonical,same⟩ := order
  refine parseTag_iff.mpr ⟨tag,readTag_written canonical same,?_⟩
  have text : writeTag tag = lowercased spelling := by
    rw [writeTag,← same,spelled,intercalate_splitOn]
  rw [ofString,ofString,normalize,normalize,written,String.toList_ofList,text,normalized_lowercased]

theorem lowerSimple_separator {c : Char} (other : c ≠ '-' ∧ c ≠ '_') :
    lowerSimple c ≠ '-' ∧ lowerSimple c ≠ '_' := by
  by_cases ascii : c.toNat < 0x80
  · rw [lowerSimple_ascii ascii]
    revert other
    revert ascii
    apply ascii_all
    decide +kernel
  · cases lowerSimple_low ascii with
    | inl kelvin =>
      rw [kelvin]
      decide
    | inr high =>
      constructor <;>
      · intro same
        exact high (same ▸ by decide)

theorem separated_separator {c : Char} : separated c = '_' ↔ c = '-' ∨ c = '_' := by
  unfold separated
  split
  case isTrue hyphen => simp [hyphen]
  case isFalse other => simp [other]

theorem dashed_separator {c : Char} : dashed c = '-' ↔ c = '-' ∨ c = '_' := by
  unfold dashed
  split
  case isTrue underscore => simp [underscore]
  case isFalse other => simp [other]

theorem lowerAt_separators (before : List Char) (c : Char) (after : List Char) :
    ((lowerAt before c after).map separated).count '_' = [dashed c].count '-' := by
  by_cases separator : c = '-' ∨ c = '_'
  · cases separator with
    | inl hyphen => rw [hyphen]; rfl
    | inr underscore => rw [underscore]; rfl
  · have clear : ∀ form ∈ lowerAt before c after, form ≠ '-' ∧ form ≠ '_' :=
      lowerAt_all (by decide) (by decide) (by decide) (by decide) fun _ => lowerSimple_separator (not_or.mp separator)
    have none : ((lowerAt before c after).map separated).count '_' = 0 := by
      rw [List.count_eq_zero,List.mem_map]
      intro found
      obtain ⟨form,member,same⟩ := found
      exact not_or.mpr (clear form member) (separated_separator.mp same)
    rw [none,List.count_singleton,if_neg]
    rw [beq_iff_eq]
    intro same
    exact separator (dashed_separator.mp same)

theorem lowerFrom_separators (before text : List Char) :
    ((lowerFrom before text).map separated).count '_' = (text.map dashed).count '-' := by
  induction text generalizing before with
  | nil => rfl
  | cons c rest ih =>
    rw [lowerFrom,List.map_append,List.count_append,lowerAt_separators,ih,← List.count_append]
    rfl

theorem toLower_separators (text : List Char) : (text.map Char.toLower).count '-' = text.count '-' := by
  induction text with
  | nil => rfl
  | cons c rest ih =>
    have same : c.toLower = '-' ↔ c = '-' := ⟨toLower_hyphen,fun hyphen => by rw [hyphen]; rfl⟩
    simp [List.count_cons,ih,same]

theorem normalized_pieces (spelling : String) :
    (normalizeChars spelling.toList).count '_' + 1 = (spelled spelling).length := by
  rw [spelled,splitOn_length,lowercased,toLower_separators]
  exact congrArg (· + 1) (lowerFrom_separators [] (trim spelling.toList))

theorem lowercased_ascii (ascii : ∀ c ∈ trim spelling.toList, c.toNat < 0x80) :
    lowercased spelling = (normalizeChars spelling.toList).map dashed := by
  have table : ∀ c : Char, c.toNat < 0x80 → (dashed c).toLower = dashed (separated c.toLower) := by
    intro c
    apply ascii_all
    decide +kernel
  have whole : normalizeChars spelling.toList = ((trim spelling.toList).map Char.toLower).map separated :=
    congrArg (List.map separated) (lowerFrom_ascii ascii [])
  rw [whole,lowercased]
  simp only [List.map_map]
  exact List.map_congr_left fun c member => table c (ascii c member)

structure Clear (c : Char) : Prop where
  ascii : c.toNat < 0x80
  filled : isBlank c = false
  dashed : dashed c = c

theorem written_clear {tag : LanguageTag.Tag} (canonical : tag.Canonical) : ∀ c ∈ writeTag tag, Clear c := by
  have table : ∀ c : Char, c.toNat < 0x80 → c.isAlphanum = true → isBlank c = false ∧ dashed c = c := by
    intro c
    apply ascii_all
    decide +kernel
  intro c member
  cases writeTag_chars canonical member with
  | inl hyphen =>
    rw [hyphen]
    exact ⟨by decide,by decide,by decide⟩
  | inr inside =>
    have ascii := alphanumeric_ascii inside.1
    obtain ⟨filled,dashed⟩ := table c ascii inside.1
    exact ⟨ascii,filled,dashed⟩

theorem trim_written {tag : LanguageTag.Tag} (canonical : tag.Canonical) :
    trim (written tag).toList = writeTag tag := by
  rw [written,String.toList_ofList]
  apply trim_fixed
  constructor
  · intro c first
    exact (written_clear canonical c (List.mem_of_mem_head? first)).filled
  · intro c last
    exact (written_clear canonical c (List.mem_of_getLast? last)).filled

theorem lowercased_written {tag : LanguageTag.Tag} (canonical : tag.Canonical)
    (lower : ∀ subtag ∈ tag.subtags, ∀ c ∈ subtag, c.toLower = c) : lowercased (written tag) = writeTag tag := by
  rw [lowercased,trim_written canonical,List.map_map]
  refine (List.map_congr_left ?_).trans (List.map_id _)
  intro c member
  have kept : c.toLower = c := by
    cases writeTag_chars canonical member with
    | inl hyphen => exact hyphen ▸ rfl
    | inr inside =>
      obtain ⟨_,subtag,present,inside⟩ := inside
      exact lower subtag present c inside
  rw [Function.comp,(written_clear canonical c member).dashed,kept]
  rfl

theorem read_lower {text : List Char} (read : readTag text = .ok tag) :
    ∀ subtag ∈ tag.subtags, ∀ c ∈ subtag, c.toLower = c := by
  intro subtag member c inside
  by_cases hyphen : c = '-'
  · rw [hyphen]
    rfl
  · have present := (readTag_reads read).2.subset member
    have char := (mem_splitOn hyphen).mpr ⟨subtag,present,inside⟩
    obtain ⟨d,_,rfl⟩ := List.mem_map.mp char
    exact toLower_again d

theorem spelled_written {text : List Char} (read : readTag text = .ok tag) :
    spelled (written tag) = tag.subtags := by
  have canonical := (readTag_reads read).1
  rw [spelled,lowercased_written canonical (read_lower read),split_writeTag canonical]

theorem accepted_in_order (accepted : parseTag spelling = .ok (ofString spelling)) : InOrder spelling := by
  obtain ⟨tag,read,same⟩ := parseTag_iff.mp accepted
  obtain ⟨canonical,inside⟩ := readTag_reads read
  have normalized : normalizeChars spelling.toList = normalizeChars (written tag).toList :=
    String.ofList_injective (Locale.mk.inj same)
  have pieces : (spelled spelling).length = tag.subtags.length := by
    rw [← normalized_pieces,normalized,normalized_pieces,spelled_written read]
  have reordered := inside.perm_of_length_le pieces.le
  have ascii : ∀ c ∈ trim spelling.toList, c.toNat < 0x80 := by
    intro c member
    by_cases separator : dashed c = '-'
    · rcases dashed_separator.mp separator with rfl | rfl <;> decide
    · have char : (dashed c).toLower ∈ lowercased spelling := List.mem_map_of_mem (List.mem_map_of_mem member)
      obtain ⟨subtag,present,inside⟩ := (mem_splitOn fun hyphen => separator (toLower_hyphen hyphen)).mp char
      have alphanumeric := subtags_alphanumeric canonical subtag (reordered.mem_iff.mpr present)
      have lowAscii := alphanumeric_ascii (List.all_eq_true.mp alphanumeric _ inside)
      by_contra high
      have same : dashed c = c := if_neg fun underscore => separator (dashed_separator.mpr (.inr underscore))
      rw [same,toLower_high high] at lowAscii
      exact high lowAscii
  have ascii' : ∀ c ∈ trim (written tag).toList, c.toNat < 0x80 := by
    rw [trim_written canonical]
    exact fun c member => (written_clear canonical c member).ascii
  refine ⟨tag,canonical,?_⟩
  rw [← spelled_written read,spelled,spelled,lowercased_ascii ascii,lowercased_ascii ascii',normalized]

theorem phrase_looks_up (phrase : Tags.Phrase) (site : Template.Site) (occurrence : Template.Occurrence)
    (key : String)
    (accepted : parseTag spelling = .ok locale) :
    phrase.resolve (Template.Arguments.ofList site [key,spelling]) occurrence =
      .ok (((phrase.catalog.get? key locale).map Template.Tag.markup).getD (.text key)) := by
  have explicit : Tags.Phrase.explicitLocale ⟨[key,spelling],1,site⟩ occurrence = .ok (some locale) := by
    simp [Tags.Phrase.explicitLocale,Template.Arguments.peek,accepted]
  have popped : (Template.Arguments.ofList site [key,spelling]).popOr "No key provided." =
      .ok (key,⟨[key,spelling],1,site⟩) := rfl
  rw [Tags.Phrase.resolve,popped]
  simp only [bind,Except.bind,explicit,Option.some_or,Option.getD_some]
  cases phrase.catalog.get? key locale with
  | some template => rfl
  | none => rfl

theorem get_insert_other {catalog : Catalog} {locale other : Locale} (differs : locale ≠ other)
    (key message key' : String) :
    (catalog.insert other key message).get? key' locale = catalog.get? key' locale := by
  simp [Catalog.insert,Catalog.get?,Std.ExtTreeMap.getElem?_insert,Ne.symm differs]

-- A tag names the locale of its canonical form. That is the locale which the tag spells
-- exactly if it is written in order, and only then a phrase tag with it finds what is
-- stored under it.
theorem parseTag_agrees (spelling : String) :
    (parseTag spelling = .ok (ofString spelling) ↔ InOrder spelling) ∧
    ∀ locale, parseTag spelling = .ok locale →
      (∃ tag, tag.Canonical ∧ Subperm tag.subtags (spelled spelling) ∧ InOrder (written tag) ∧
        locale = ofString (written tag)) ∧
      ∀ (phrase : Tags.Phrase) (site : Template.Site) (occurrence : Template.Occurrence) (key message : String),
        let stored := { phrase with catalog := phrase.catalog.insert (ofString spelling) key message }
        let found := stored.resolve (Template.Arguments.ofList site [key,spelling]) occurrence
        (InOrder spelling → found = .ok (.markup message)) ∧
        (¬InOrder spelling → found = phrase.resolve (Template.Arguments.ofList site [key,spelling]) occurrence) := by
  refine ⟨⟨accepted_in_order,in_order_accepted⟩,?_⟩
  intro locale accepted
  constructor
  · obtain ⟨tag,read,named⟩ := parseTag_iff.mp accepted
    obtain ⟨canonical,inside⟩ := readTag_reads read
    exact ⟨tag,canonical,inside,⟨tag,canonical,spelled_written read⟩,named⟩
  · intro phrase site occurrence key message
    dsimp only
    rw [phrase_looks_up _ site occurrence key accepted,phrase_looks_up phrase site occurrence key accepted]
    constructor
    · intro order
      have same : locale = ofString spelling := Except.ok.inj (accepted.symm.trans (in_order_accepted order))
      simp [same,Catalog.insert,Catalog.get?]
    · intro disorder
      have differs : locale ≠ ofString spelling := by
        intro same
        exact disorder (accepted_in_order (same ▸ accepted))
      rw [get_insert_other differs]

def variantPhrase (catalog : Catalog) : Tags.Phrase := ⟨catalog,ofString "en",none⟩

def variantSite : Template.Site := ⟨"phrase","<phrase:k:de-1996-1901>",0⟩

theorem parseTag_agrees_variants : InOrder "de-1901-1996" ∧ ¬InOrder "de-1996-1901" ∧
    parseTag "de-1996-1901" = .ok ⟨"de_1901_1996"⟩ ∧
    (variantPhrase (Catalog.empty.insert (ofString "de-1996-1901") "k" "m")).resolve
      (Template.Arguments.ofList variantSite ["k","de-1996-1901"]) ⟨variantSite,0⟩ = .ok (.text "k") := by
  have accepted : parseTag "de-1996-1901" = .ok ⟨"de_1901_1996"⟩ := by decide +kernel
  have disorder : ¬InOrder "de-1996-1901" := by
    intro order
    exact absurd ((parseTag_agrees "de-1996-1901").1.mpr order) (by decide +kernel)
  have found := ((parseTag_agrees "de-1996-1901").2 _ accepted).2 (variantPhrase Catalog.empty) variantSite
    ⟨variantSite,0⟩ "k" "m"
  refine ⟨(parseTag_agrees "de-1901-1996").1.mp (by decide +kernel),disorder,accepted,(found.2 disorder).trans ?_⟩
  exact phrase_looks_up (variantPhrase Catalog.empty) variantSite ⟨variantSite,0⟩ "k" accepted

-- The variants are put in order, so the entry stored under the tag is not the one found.
theorem parseTag_reorders : ¬∀ spelling locale, parseTag spelling = .ok locale → locale = ofString spelling := by
  intro claim
  have accepted : parseTag "de-1996-1901" = .ok ⟨"de_1901_1996"⟩ := by decide +kernel
  have spells : ofString "de-1996-1901" = ⟨"de_1996_1901"⟩ := by decide +kernel
  have same := claim _ _ accepted
  rw [spells] at same
  exact absurd same (by decide)

end Phrasebook.Locale
