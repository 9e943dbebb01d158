import Phrasebook.Catalog
import Phrasebook.Proofs.Text.Casing
import Phrasebook.Proofs.Text.Trimming
namespace Phrasebook.Locale
open Text

-- The spellings of a locale that normalization makes one, and what it makes of them.

inductive Interchanges : Char → Char → Prop where
  | letter (same : c.toLower = d.toLower) : Interchanges c d
  | separator (one : c = '-' ∨ c = '_') (two : d = '-' ∨ d = '_') : Interchanges c d

def Respells (text other : String) : Prop :=
  ∃ before body after before' body' after', text.toList = before ++ body ++ after ∧
    other.toList = before' ++ body' ++ after' ∧ List.Forall₂ Interchanges body body' ∧
    Blanks before ∧ Blanks after ∧ Blanks before' ∧ Blanks after'

def separated (c : Char) : Char := if c = '-' then '_' else c

-- The one character that stands for all that may be written in its place.
def common (c : Char) : Char := if c = '-' then '_' else c.toLower

theorem toLower_high {c : Char} (high : ¬c.toNat < 0x80) : c.toLower = c := by
  have notUpper : ¬('A'.toNat ≤ c.toNat ∧ c.toNat ≤ 'Z'.toNat) := by
    simp
    omega
  exact dif_neg (by simpa [UInt32.le_iff_toNat_le] using notUpper)

theorem common_high {c : Char} (high : ¬c.toNat < 0x80) : common c = c := by
  have notHyphen : c ≠ '-' := by
    intro hyphen
    rw [hyphen] at high
    exact high (by decide)
  rw [common,if_neg notHyphen,toLower_high high]

theorem toLower_hyphen {c : Char} (lowered : c.toLower = '-') : c = '-' := by
  by_cases ascii : c.toNat < 0x80
  · revert lowered
    revert ascii
    apply ascii_all
    decide +kernel
  · rw [← toLower_high ascii,lowered]

theorem interchanges_common (interchanges : Interchanges c d) : common c = common d := by
  cases interchanges with
  | letter same =>
    by_cases hyphen : c = '-'
    · rw [hyphen] at same ⊢
      rw [toLower_hyphen same.symm]
    · have hyphen' : d ≠ '-' := by
        intro hyphen'
        rw [hyphen'] at same
        exact hyphen (toLower_hyphen same)
      rw [common,common,if_neg hyphen,if_neg hyphen',same]
  | separator one two =>
    rcases one with rfl | rfl <;> rcases two with rfl | rfl <;> decide

theorem common_ascii {c : Char} (ascii : c.toNat < 0x80) : (common c).toNat < 0x80 := by
  revert ascii
  apply ascii_all
  decide +kernel

structure Unchanged (c : Char) : Prop where
  blank : isBlank (common c) = isBlank c
  ignorable : isCaseIgnorable (common c) = isCaseIgnorable c
  cased : isCased (common c) = isCased c

theorem common_unchanged (c : Char) : Unchanged c := by
  by_cases ascii : c.toNat < 0x80
  · have table : ∀ c : Char, c.toNat < 0x80 → isBlank (common c) = isBlank c ∧
        asciiIgnorable.contains (common c) = asciiIgnorable.contains c ∧
        isWithin [(0x41,0x5A),(0x61,0x7A)] (common c) = isWithin [(0x41,0x5A),(0x61,0x7A)] c := by
      intro c
      apply ascii_all
      decide +kernel
    obtain ⟨blank,ignorable,cased⟩ := table c ascii
    have ascii' := common_ascii ascii
    refine ⟨blank,?_,?_⟩
    · rw [ignorable_ascii ascii,ignorable_ascii ascii',ignorable]
    · rw [cased_ascii ascii,cased_ascii ascii',cased]
  · have same := common_high ascii
    refine ⟨?_,?_,?_⟩ <;> rw [same]

theorem meetsCased_common (text : List Char) : meetsCased (text.map common) = meetsCased text := by
  have test : isCaseIgnorable ∘ common = isCaseIgnorable := funext fun c => (common_unchanged c).ignorable
  unfold meetsCased
  rw [List.dropWhile_map,test]
  cases text.dropWhile isCaseIgnorable with
  | nil => rfl
  | cons c rest => exact (common_unchanged c).cased

theorem lowerAt_common (before : List Char) (c : Char) (after : List Char) :
    (lowerAt (before.map common) (common c) (after.map common)).map separated =
      (lowerAt before c after).map separated := by
  by_cases ascii : c.toNat < 0x80
  · have table : ∀ c : Char, c.toNat < 0x80 → c ≠ 'Σ' ∧ c ≠ 'İ' ∧ common c ≠ 'Σ' ∧ common c ≠ 'İ' ∧
        separated (lowerSimple (common c)) = separated (lowerSimple c) := by
      intro c
      apply ascii_all
      decide +kernel
    obtain ⟨notSigma,notDotted,notSigma',notDotted',same⟩ := table c ascii
    simp [lowerAt,notSigma,notDotted,notSigma',notDotted',same]
  · rw [common_high ascii]
    unfold lowerAt isFinalSigma
    rw [meetsCased_common,meetsCased_common]

theorem lowerFrom_common (before text : List Char) :
    (lowerFrom (before.map common) (text.map common)).map separated = (lowerFrom before text).map separated := by
  induction text generalizing before with
  | nil => rfl
  | cons c rest ih =>
    have later := ih (c :: before)
    simp only [lowerFrom,List.map_cons,List.map_append,lowerAt_common] at later ⊢
    rw [later]

theorem normalized_common (text : List Char) : normalizeChars (text.map common) = normalizeChars text := by
  unfold normalizeChars
  rw [trim_map fun c => (common_unchanged c).blank]
  exact lowerFrom_common [] (trim text)

theorem commons_interchange {one two : List Char} (interchange : List.Forall₂ Interchanges one two) :
    one.map common = two.map common := by
  induction interchange with
  | nil => rfl
  | cons first _ ih => rw [List.map_cons,List.map_cons,interchanges_common first,ih]

theorem normalized_respelled {text other : String} (respells : Respells text other) : normalize other = normalize text := by
  obtain ⟨before,body,after,before',body',after',whole,whole',interchange,front,back,front',back'⟩ := respells
  have inner : normalizeChars body' = normalizeChars body := by
    rw [← normalized_common,← commons_interchange interchange,normalized_common]
  unfold normalizeChars at inner
  unfold normalize normalizeChars
  rw [whole,whole',trim_padded _ front back,trim_padded _ front' back',inner]

structure Normalized (text : List Char) : Prop where
  settled : ∀ c ∈ text, Settled c
  unhyphened : '-' ∉ text
  trimmed : Trimmed text

theorem normalized_fixed {text : List Char} (normalized : Normalized text) : normalizeChars text = text := by
  have kept : ∀ c ∈ text, separated c = c := by
    intro c member
    apply if_neg
    intro hyphen
    rw [hyphen] at member
    exact normalized.unhyphened member
  unfold normalizeChars
  rw [trim_fixed normalized.trimmed,lower_fixed_settled normalized.settled]
  exact (List.map_congr_left kept).trans (List.map_id text)

theorem lowerFrom_first (before : List Char) {text : List Char} (first : ∀ c ∈ text.head?, isBlank c = false) :
    ∀ c ∈ (lowerFrom before text).head?, isBlank c = false := by
  cases text with
  | nil => simp [lowerFrom]
  | cons c rest =>
    obtain ⟨form,more,forms⟩ := lowerAt_cons before c rest
    have filled := lowerAt_filled before rest (first c rfl)
    rw [lowerFrom,forms]
    intro d member
    obtain rfl : form = d := by simpa using member
    apply filled
    rw [forms]
    exact List.mem_cons_self ..

theorem lowerFrom_last (before : List Char) {text : List Char} (last : ∀ c ∈ text.getLast?, isBlank c = false) :
    ∀ c ∈ (lowerFrom before text).getLast?, isBlank c = false := by
  induction text generalizing before with
  | nil => simp [lowerFrom]
  | cons c rest ih =>
    cases rest with
    | nil =>
      rw [lowerFrom,lowerFrom,List.append_nil]
      intro d member
      exact lowerAt_filled before [] (last c rfl) d (List.mem_of_getLast? member)
    | cons next rest =>
      obtain ⟨form,more,forms⟩ := lowerAt_cons (c :: before) next rest
      have filled : lowerFrom (c :: before) (next :: rest) ≠ [] := by
        rw [lowerFrom,forms]
        simp
      rw [lowerFrom,List.getLast?_append_of_ne_nil _ filled]
      apply ih (c :: before)
      rwa [List.getLast?_cons_cons] at last

theorem separated_blank (c : Char) (filled : isBlank c = false) : isBlank (separated c) = false := by
  unfold separated
  split
  · rfl
  · exact filled

theorem normalizeChars_normalized (text : List Char) : Normalized (normalizeChars text) := by
  have trimmed := trim_trimmed text
  constructor
  · intro c member
    obtain ⟨d,inside,rfl⟩ := List.mem_map.mp member
    split
    · exact ⟨by decide +kernel,by decide,by decide⟩
    · exact lower_settled (trim text) d inside
  · intro member
    obtain ⟨d,_,hyphen⟩ := List.mem_map.mp member
    split at hyphen
    · cases hyphen
    · contradiction
  · constructor
    · intro c member
      rw [normalizeChars,List.head?_map] at member
      obtain ⟨d,inside,rfl⟩ := Option.map_eq_some_iff.mp member
      exact separated_blank d (lowerFrom_first [] trimmed.first d inside)
    · intro c member
      rw [normalizeChars,List.getLast?_map] at member
      obtain ⟨d,inside,rfl⟩ := Option.map_eq_some_iff.mp member
      exact separated_blank d (lowerFrom_last [] trimmed.last d inside)

-- What normalization makes of a text is the same for all its spellings and stays as it
-- is. Whatever is stored under one spelling is found under every other.
theorem normalize_canonical (text : String) :
    normalize (normalize text) = normalize text ∧ '-' ∉ (normalize text).toList ∧
      Trimmed (normalize text).toList ∧
      (∃ lowered, Forms [] (trim text.toList) lowered ∧
        (normalize text).toList = lowered.map separated) ∧
      ∀ other, Respells text other → normalize other = normalize text ∧
        ∀ (catalog : Catalog) (key : String),
          catalog.get? key (ofString other) = catalog.get? key (ofString text) ∧
          (∀ message, (catalog.insert (ofString text) key message).get? key (ofString other) = some message) ∧
          ∀ messages, (catalog.replace (ofString text) messages).get? key (ofString other) = messages[key]? := by
  have normalized := normalizeChars_normalized text.toList
  have chars : (normalize text).toList = normalizeChars text.toList := String.toList_ofList
  refine ⟨?_,?_,?_,?_,?_⟩
  · rw [normalize,chars,normalized_fixed normalized]
    rfl
  · rw [chars]
    exact normalized.unhyphened
  · rw [chars]
    exact normalized.trimmed
  · exact ⟨lower (trim text.toList),forms_written [] (trim text.toList),chars⟩
  · intro other respells
    have same := normalized_respelled respells
    have key' : ofString other = ofString text := congrArg Locale.mk same
    refine ⟨same,?_⟩
    intro catalog key
    rw [key']
    exact ⟨rfl,by simp [Catalog.insert,Catalog.get?],by simp [Catalog.replace,Catalog.get?]⟩

theorem normalize_canonical_sigma : Respells " EN-ΑΣ-İ" "en_ΑΣ_İ\u3000" ∧
    normalize "en_ΑΣ_İ\u3000" = normalize " EN-ΑΣ-İ" ∧ normalize " EN-ΑΣ-İ" = "en_ας_i̇" ∧
    (Catalog.empty.insert (ofString " EN-ΑΣ-İ") "k" "m").get? "k" (ofString "en_ΑΣ_İ\u3000") = some "m" := by
  have respells : Respells " EN-ΑΣ-İ" "en_ΑΣ_İ\u3000" := by
    refine ⟨[' '],"EN-ΑΣ-İ".toList,[],[],"en_ΑΣ_İ".toList,['\u3000'],rfl,rfl,?_,?_,?_,?_,?_⟩
    · have letter (c d : Char) (same : c.toLower = d.toLower) : Interchanges c d := .letter same
      exact .cons (letter _ _ rfl) (.cons (letter _ _ rfl) (.cons (.separator (.inl rfl) (.inr rfl))
        (.cons (letter _ _ rfl) (.cons (letter _ _ rfl) (.cons (.separator (.inl rfl) (.inr rfl))
          (.cons (letter _ _ rfl) .nil))))))
    · exact List.forall_mem_singleton.mpr rfl
    · exact List.forall_mem_nil _
    · exact List.forall_mem_nil _
    · exact List.forall_mem_singleton.mpr rfl
  obtain ⟨_,_,_,_,agree⟩ := normalize_canonical " EN-ΑΣ-İ"
  obtain ⟨same,found⟩ := agree _ respells
  exact ⟨respells,same,by decide +kernel,(found Catalog.empty "k").2.1 "m"⟩

end Phrasebook.Locale
