import Mathlib.Data.Char
import Mathlib.Data.List.Flatten
import Mathlib.Data.List.Lex
import Mathlib.Data.List.Perm.Subperm
import Phrasebook.LanguageTag.Reading
import Phrasebook.Proofs.Outcome
namespace Phrasebook.LanguageTag
open Outcome
open scoped List

-- The tags that have one written form, and that reading gives no others.

def Ascending (key : α → Subtag) (items : List α) : Prop := items.Pairwise fun one two => key one < key two

section
variable {key : α → Subtag} {item other : α} {items : List α}

theorem insertBy_mem (member : other ∈ insertBy key item items) : other = item ∨ other ∈ items := by
  induction items with
  | nil => exact .inl (List.mem_singleton.mp member)
  | cons head rest ih =>
    unfold insertBy at member
    split at member
    · exact List.mem_cons.mp member
    · split at member
      · exact .inr member
      · cases List.mem_cons.mp member with
        | inl first => exact .inr (first ▸ List.mem_cons_self)
        | inr later => exact (ih later).imp_right (List.mem_cons_of_mem head)

theorem insertBy_all {property : α → Prop} (new : property item) (each : ∀ other ∈ items, property other) :
    ∀ other ∈ insertBy key item items, property other := by
  intro other member
  cases insertBy_mem member with
  | inl inserted => exact inserted ▸ new
  | inr old => exact each other old

theorem insertBy_ascending (ascending : Ascending key items) : Ascending key (insertBy key item items) := by
  induction items with
  | nil => exact List.pairwise_singleton _ _
  | cons head rest ih =>
    obtain ⟨above,tail⟩ := List.pairwise_cons.mp ascending
    unfold insertBy
    split
    case isTrue before =>
      refine List.pairwise_cons.mpr ⟨?_,ascending⟩
      intro later member
      cases List.mem_cons.mp member with
      | inl first => exact first ▸ before
      | inr inside => exact lt_trans before (above later inside)
    case isFalse notBefore =>
      split
      · exact ascending
      case isFalse differs =>
        refine List.pairwise_cons.mpr ⟨?_,ih tail⟩
        intro later member
        cases insertBy_mem member with
        | inl inserted => exact inserted ▸ lt_of_le_of_ne (not_lt.mp notBefore) (Ne.symm differs)
        | inr inside => exact above later inside

theorem ascending_above (ascending : Ascending key (items ++ item :: rest)) :
    ∀ other ∈ items, key other < key item := by
  intro other member
  exact (List.pairwise_append.mp ascending).2.2 other member item List.mem_cons_self

theorem insertBy_last (above : ∀ other ∈ items, key other < key item) :
    insertBy key item items = items ++ [item] := by
  induction items with
  | nil => rfl
  | cons head rest ih =>
    have before := above head List.mem_cons_self
    rw [insertBy,if_neg (lt_asymm before),if_neg (ne_of_gt before),
      ih fun other member => above other (List.mem_cons_of_mem head member)]
    rfl

theorem insertBy_subperm (key : α → Subtag) (item : α) (items : List α) :
    insertBy key item items <+~ item :: items := by
  induction items with
  | nil => exact List.Subperm.refl _
  | cons head rest ih =>
    unfold insertBy
    split
    · exact List.Subperm.refl _
    · split
      · exact (List.sublist_cons_self item _).subperm
      · exact ((List.subperm_cons head).mpr ih).trans (List.Perm.swap item head rest).subperm

end

theorem subperm_counts {written body : List Subtag} :
    written <+~ body ↔ ∀ subtag, written.count subtag ≤ body.count subtag := by
  constructor
  · intro inside subtag
    exact inside.count_le subtag
  · intro counts
    exact List.subperm_ext_iff.mpr fun subtag _ => counts subtag

theorem insertSorted_moved (subtag : Subtag) (sorted rest : List Subtag) :
    insertSorted subtag sorted ++ rest <+~ sorted ++ subtag :: rest :=
  ((insertBy_subperm id subtag sorted).append (List.Subperm.refl rest)).trans List.perm_middle.symm.subperm

structure LanguageId.Canonical (name : LanguageId) : Prop where
  language : isLanguage name.language = true
  script : ∀ script ∈ name.script, isScript script = true
  region : ∀ region ∈ name.region, isRegion region = true
  variants : ∀ variant ∈ name.variants, isVariant variant = true
  ascending : Ascending id name.variants

structure FieldCanonical (isKey : Subtag → Bool) (field : Field) : Prop where
  key : isKey field.1 = true
  values : ∀ value ∈ field.2, isValue value = true ∧ isTrue value = false

structure FieldsCanonical (isKey : Subtag → Bool) (fields : List Field) : Prop where
  each : ∀ field ∈ fields, FieldCanonical isKey field
  ascending : Ascending Prod.fst fields

theorem FieldsCanonical.nil (isKey : Subtag → Bool) : FieldsCanonical isKey [] := ⟨by simp,List.Pairwise.nil⟩

theorem FieldsCanonical.insert (canonical : FieldsCanonical isKey fields) (new : FieldCanonical isKey field) :
    FieldsCanonical isKey (insertField field fields) :=
  ⟨insertBy_all new canonical.each,insertBy_ascending canonical.ascending⟩

theorem FieldCanonical.opened {isKey : Subtag → Bool} (key : isKey subtag = true) :
    FieldCanonical isKey (subtag,[]) :=
  ⟨key,by simp⟩

theorem FieldCanonical.extended {values : List Subtag} (canonical : FieldCanonical isKey (name,values))
    (valid : isValue subtag = true) :
    FieldCanonical isKey (name,if isTrue subtag then values else values ++ [subtag]) := by
  refine ⟨canonical.key,?_⟩
  intro value member
  split at member
  · exact canonical.values value member
  case isFalse kept =>
    cases List.mem_append.mp member with
    | inl old => exact canonical.values value old
    | inr new =>
      obtain rfl := List.mem_singleton.mp new
      exact ⟨valid,eq_false_of_ne_true kept⟩

structure Keywords.Canonical (extension : Keywords) : Prop where
  attributes : ∀ name ∈ extension.attributes, isValue name = true
  ascending : Ascending id extension.attributes
  keywords : FieldsCanonical isKeywordKey extension.keywords
  filled : extension.attributes ≠ [] ∨ extension.keywords ≠ []

structure Transform.Canonical (extension : Transform) : Prop where
  language : ∀ name ∈ extension.language, name.Canonical
  fields : FieldsCanonical isFieldKey extension.fields
  filled : extension.language ≠ none ∨ extension.fields ≠ []

structure OtherCanonical (other : Field) : Prop where
  singleton : isSingleton other.1 = true
  unreserved : other.1 ∉ [['t'],['u'],['x']]
  subtags : ∀ subtag ∈ other.2, isAlphanumericOf 2 8 subtag = true
  filled : other.2 ≠ []

structure PrivateCanonical (body : List Subtag) : Prop where
  subtags : ∀ subtag ∈ body, isAlphanumericOf 1 8 subtag = true
  filled : body ≠ []

structure Tag.Canonical (tag : Tag) : Prop where
  id : tag.id.Canonical
  transform : ∀ extension ∈ tag.transform, extension.Canonical
  keywords : ∀ extension ∈ tag.keywords, extension.Canonical
  others : ∀ other ∈ tag.others, OtherCanonical other
  ascending : Ascending Prod.fst tag.others
  privateUse : ∀ body ∈ tag.privateUse, PrivateCanonical body

theorem takeOptional_reads {admits : Subtag → Bool} (taken : takeOptional admits body = (found,rest)) :
    (∀ subtag ∈ found, admits subtag = true) ∧ found.toList ++ rest = body := by
  cases body with
  | nil =>
    cases taken
    simp
  | cons subtag more =>
    rw [takeOptional] at taken
    split at taken
    case isTrue admitted =>
      cases taken
      simp [admitted]
    case isFalse =>
      cases taken
      simp

theorem takeVariants_reads {sorted body : List Subtag} (taken : takeVariants sorted body = .ok (variants,rest))
    (valid : ∀ variant ∈ sorted, isVariant variant = true) (ascending : Ascending id sorted) :
    (∀ variant ∈ variants, isVariant variant = true) ∧ Ascending id variants ∧ variants ++ rest <+~ sorted ++ body := by
  induction body generalizing sorted with
  | nil =>
    cases taken
    exact ⟨valid,ascending,List.Subperm.refl _⟩
  | cons subtag more ih =>
    unfold takeVariants at taken
    split at taken
    case isTrue admitted =>
      split at taken
      · cases taken
      · obtain ⟨each,order,inside⟩ := ih taken (insertBy_all admitted valid) (insertBy_ascending ascending)
        exact ⟨each,order,inside.trans (insertSorted_moved subtag sorted more)⟩
    · cases taken
      exact ⟨valid,ascending,List.Subperm.refl _⟩

theorem takeLanguageId_reads (taken : takeLanguageId body = .ok (name,rest)) :
    name.Canonical ∧ name.subtags ++ rest <+~ body := by
  cases body with
  | nil => cases taken
  | cons language body =>
    by_cases admitted : isLanguage language = true
    · rw [takeLanguageId,if_pos admitted] at taken
      cases scriptTaken : takeOptional isScript body with | mk scriptFound afterScript
      cases regionTaken : takeOptional isRegion afterScript with | mk regionFound afterRegion
      rw [scriptTaken] at taken
      simp only [regionTaken] at taken
      obtain ⟨⟨variants,_⟩,variantsTaken,ended⟩ := bind_ok_iff.mp taken
      cases ended
      obtain ⟨script,scripted⟩ := takeOptional_reads scriptTaken
      obtain ⟨region,regional⟩ := takeOptional_reads regionTaken
      obtain ⟨each,order,inside⟩ := takeVariants_reads variantsTaken (by simp) List.Pairwise.nil
      refine ⟨⟨admitted,script,region,each,order⟩,?_⟩
      rw [List.nil_append] at inside
      rw [LanguageId.subtags,List.cons_append,List.subperm_cons,List.append_assoc,List.append_assoc,← scripted,
        List.subperm_append_left]
      rw [← regional,List.subperm_append_left]
      exact inside
    · rw [takeLanguageId,if_neg admitted] at taken
      cases taken

theorem takeAttributes_reads (sorted body : List Subtag) (valid : ∀ name ∈ sorted, isValue name = true)
    (ascending : Ascending id sorted) : (∀ name ∈ (takeAttributes sorted body).1, isValue name = true) ∧
      Ascending id (takeAttributes sorted body).1 ∧
      (takeAttributes sorted body).1 ++ (takeAttributes sorted body).2 <+~ sorted ++ body := by
  induction body generalizing sorted with
  | nil => exact ⟨valid,ascending,List.Subperm.refl _⟩
  | cons subtag more ih =>
    unfold takeAttributes
    split
    case isTrue admitted =>
      obtain ⟨each,order,inside⟩ :=
        ih (insertSorted subtag sorted) (insertBy_all admitted valid) (insertBy_ascending ascending)
      exact ⟨each,order,inside.trans (insertSorted_moved subtag sorted more)⟩
    · exact ⟨valid,ascending,List.Subperm.refl _⟩

theorem insertField_written (write : Field → List Subtag) (field : Field) (fields : List Field) :
    (insertField field fields).flatMap write <+~ write field ++ fields.flatMap write := by
  obtain ⟨_,reordered,fewer⟩ := insertBy_subperm Prod.fst field fields
  exact ⟨_,reordered.flatMap_right write,fewer.flatMap write⟩

theorem close_reads {key : Option Field} {read : List Field} (canonical : FieldsCanonical isKeywordKey read)
    (opened : ∀ field ∈ key, FieldCanonical isKeywordKey field) :
    FieldsCanonical isKeywordKey (readKeywords.close key read) ∧
      (readKeywords.close key read).flatMap Field.subtags <+~ (key.toList ++ read).flatMap Field.subtags := by
  cases key with
  | none => exact ⟨canonical,List.Subperm.refl _⟩
  | some field => exact ⟨canonical.insert (opened field rfl),insertField_written Field.subtags field read⟩

theorem readKeywords_reads {key : Option Field} {body : List Subtag} {read : List Field}
    (taken : readKeywords key body read = .ok keywords) (canonical : FieldsCanonical isKeywordKey read)
    (opened : ∀ field ∈ key, FieldCanonical isKeywordKey field) :
    FieldsCanonical isKeywordKey keywords ∧
      keywords.flatMap Field.subtags <+~ (key.toList ++ read).flatMap Field.subtags ++ body := by
  induction body generalizing key read with
  | nil =>
    cases taken
    rw [List.append_nil]
    exact close_reads canonical opened
  | cons subtag more ih =>
    unfold readKeywords at taken
    split at taken
    · split at taken
      case isTrue isKey =>
        obtain ⟨closed,kept⟩ := close_reads canonical opened
        obtain ⟨later,inside⟩ := ih taken closed (by simpa using FieldCanonical.opened isKey)
        refine ⟨later,?_⟩
        rw [subperm_counts] at inside kept ⊢
        intro one
        have one_inside := inside one
        have one_kept := kept one
        simp [Field.subtags,List.count_cons] at one_inside one_kept ⊢
        omega
      · cases taken
    · split at taken
      · split at taken
        case isTrue valid =>
          obtain ⟨later,inside⟩ := ih taken canonical (by simpa using (opened _ rfl).extended valid)
          refine ⟨later,?_⟩
          rw [subperm_counts] at inside ⊢
          intro one
          have one_inside := inside one
          split at one_inside <;> simp [Field.subtags,List.count_cons] at one_inside ⊢ <;> omega
        · cases taken
      · cases taken

theorem readUnicodeExtension_reads (taken : readUnicodeExtension body = .ok extension) :
    extension.Canonical ∧ extension.subtags <+~ ['u'] :: body := by
  cases attributesTaken : takeAttributes [] body with | mk attributes rest
  have attributesRead := takeAttributes_reads [] body (by simp) List.Pairwise.nil
  rw [attributesTaken] at attributesRead
  obtain ⟨each,order,inside⟩ := attributesRead
  rw [readUnicodeExtension,attributesTaken] at taken
  obtain ⟨keywords,keywordsTaken,ended⟩ := bind_ok_iff.mp taken
  obtain ⟨canonical,within⟩ := readKeywords_reads keywordsTaken (.nil _) (by simp)
  split at ended
  · cases ended
  case isFalse filled =>
    cases ended
    refine ⟨⟨each,order,canonical,?_⟩,?_⟩
    · simp only [Bool.and_eq_true,List.isEmpty_iff] at filled
      exact not_and_or.mp filled
    · rw [Keywords.subtags,List.subperm_cons]
      exact ((List.subperm_append_left attributes).mpr within).trans inside

-- The open field counts as written once it has a value.
def held : Option (Field × Bool) → List Subtag
  | none => []
  | some (field,false) => field.subtags
  | some (field,true) => field.valued

theorem held_extended (name subtag : Subtag) {values : List Subtag} (unvalued : valued = false → values = []) :
    held (some ((name,if isTrue subtag then values else values ++ [subtag]),true)) <+~
      held (some ((name,values),valued)) ++ [subtag] := by
  rw [subperm_counts]
  intro one
  cases valued with
  | false =>
    obtain rfl := unvalued rfl
    by_cases dropped : isTrue subtag = true
    · obtain rfl : subtag = ['t','r','u','e'] := by simpa [isTrue] using dropped
      simp [held,Field.valued,Field.subtags,isTrue,List.count_cons]
    · simp [held,Field.valued,Field.subtags,dropped,List.count_cons]
  | true =>
    cases values with
    | nil => by_cases dropped : isTrue subtag = true <;> simp [held,Field.valued,dropped,List.count_cons]
    | cons first values => by_cases dropped : isTrue subtag = true <;> simp [held,Field.valued,dropped,List.count_cons]

theorem readFields_reads {key : Option (Field × Bool)} {body : List Subtag} {read : List Field}
    (taken : readFields key body read = .ok fields) (canonical : FieldsCanonical isFieldKey read)
    (opened : ∀ field ∈ key, FieldCanonical isFieldKey field.1 ∧ (field.2 = false → field.1.2 = [])) :
    FieldsCanonical isFieldKey fields ∧ fields.flatMap Field.valued <+~ held key ++ read.flatMap Field.valued ++ body := by
  induction body generalizing key read with
  | nil =>
    rw [List.append_nil]
    unfold readFields at taken
    split at taken
    · cases taken
      exact ⟨canonical,List.Subperm.refl _⟩
    · cases taken
    · cases taken
      exact ⟨canonical.insert (opened _ rfl).1,insertField_written Field.valued _ read⟩
  | cons subtag more ih =>
    cases key with
    | none =>
      rw [readFields] at taken
      split at taken
      case isTrue isKey =>
        obtain ⟨later,inside⟩ := ih taken canonical (by simpa using FieldCanonical.opened isKey)
        exact ⟨later,inside.trans List.perm_middle.symm.subperm⟩
      · cases taken
    | some field =>
      obtain ⟨⟨name,values⟩,valued⟩ := field
      obtain ⟨canonicalField,unvalued⟩ := opened _ rfl
      rw [readFields] at taken
      split at taken
      case isTrue valid =>
        obtain ⟨later,inside⟩ := ih taken canonical (by simpa using canonicalField.extended valid)
        have extended := held_extended name subtag unvalued
        refine ⟨later,?_⟩
        rw [subperm_counts] at inside extended ⊢
        intro one
        have one_inside := inside one
        have one_extended := extended one
        simp only [List.count_append,List.count_cons,List.count_nil] at one_inside one_extended ⊢
        omega
      · split at taken
        case isTrue next =>
          obtain ⟨rfl,isKey⟩ := Bool.and_eq_true_iff.mp next
          obtain ⟨later,inside⟩ :=
            ih taken (canonical.insert canonicalField) (by simpa using FieldCanonical.opened isKey)
          have closed := insertField_written Field.valued (name,values) read
          refine ⟨later,?_⟩
          rw [subperm_counts] at inside closed ⊢
          intro one
          have one_inside := inside one
          have one_closed := closed one
          simp only [held,Field.subtags,List.count_append,List.count_cons,List.count_nil] at one_inside one_closed ⊢
          omega
        · cases taken

theorem takeOptionalId_reads (taken : takeOptionalId body = .ok (language,rest)) :
    (∀ name ∈ language, name.Canonical) ∧ (language.map LanguageId.subtags).getD [] ++ rest <+~ body := by
  unfold takeOptionalId at taken
  split at taken
  · obtain ⟨⟨name,_⟩,nameTaken,ended⟩ := bind_ok_iff.mp taken
    cases ended
    obtain ⟨canonical,inside⟩ := takeLanguageId_reads nameTaken
    exact ⟨by simpa using canonical,inside⟩
  · cases taken
    exact ⟨by simp,List.Subperm.refl _⟩

theorem readTransform_reads (taken : readTransform body = .ok extension) :
    extension.Canonical ∧ extension.subtags <+~ ['t'] :: body := by
  obtain ⟨⟨language,rest⟩,languageTaken,taken⟩ := bind_ok_iff.mp taken
  obtain ⟨fields,fieldsTaken,ended⟩ := bind_ok_iff.mp taken
  obtain ⟨valid,inside⟩ := takeOptionalId_reads languageTaken
  obtain ⟨canonical,within⟩ := readFields_reads fieldsTaken (.nil _) (by simp)
  split at ended
  · cases ended
  case isFalse filled =>
    cases ended
    refine ⟨⟨valid,canonical,?_⟩,?_⟩
    · simp only [Bool.and_eq_true,Option.isNone_iff_eq_none,List.isEmpty_iff] at filled
      exact not_and_or.mp filled
    · rw [Transform.subtags,List.subperm_cons]
      exact ((List.subperm_append_left _).mpr within).trans inside

theorem letter_code {c : Char} (letter : c.isAlpha = true) :
    (0x41 ≤ c.toNat ∧ c.toNat ≤ 0x5A) ∨ (0x61 ≤ c.toNat ∧ c.toNat ≤ 0x7A) := by
  cases Bool.or_eq_true_iff.mp letter with
  | inl upper =>
    obtain ⟨low,high⟩ := of_decide_eq_true upper
    have first : 'A'.toNat ≤ c.toNat := UInt32.le_iff_toNat_le.mp low
    have last : c.toNat ≤ 'Z'.toNat := UInt32.le_iff_toNat_le.mp high
    exact .inl ⟨first,last⟩
  | inr lower =>
    obtain ⟨low,high⟩ := Bool.and_eq_true_iff.mp lower
    have first : 'a'.toNat ≤ c.toNat := UInt32.le_iff_toNat_le.mp (of_decide_eq_true low)
    have last : c.toNat ≤ 'z'.toNat := UInt32.le_iff_toNat_le.mp (of_decide_eq_true high)
    exact .inr ⟨first,last⟩

theorem digit_code {c : Char} (digit : c.isDigit = true) : 0x30 ≤ c.toNat ∧ c.toNat ≤ 0x39 :=
  Char.isDigit_iff_toNat.mp digit

theorem alphanumeric_ascii {c : Char} (alphanumeric : c.isAlphanum = true) : c.toNat < 0x80 := by
  cases Bool.or_eq_true_iff.mp alphanumeric with
  | inl letter =>
    have code := letter_code letter
    omega
  | inr digit =>
    have code := digit_code digit
    omega

theorem byteLength_alphanumeric {subtag : Subtag} (alphanumeric : allAlphanumeric subtag = true) :
    Text.byteLength subtag = subtag.length := by
  induction subtag with
  | nil => rfl
  | cons c rest ih =>
    obtain ⟨first,later⟩ := Bool.and_eq_true_iff.mp alphanumeric
    have small : c.utf8Size = 1 := by
      have ascii := alphanumeric_ascii first
      rw [Char.utf8Size_eq_one_iff,UInt32.le_iff_toNat_le]
      exact Nat.le_of_lt_succ ascii
    have tail := ih later
    simp only [Text.byteLength,List.foldr_cons,List.length_cons] at tail ⊢
    omega

theorem readOther_reads (taken : readOther body = .ok kept) :
    (∀ subtag ∈ kept, isAlphanumericOf 2 8 subtag = true) ∧ kept ≠ [] ∧ kept <+~ body := by
  unfold readOther at taken
  split at taken
  case isTrue sized =>
    split at taken
    · cases taken
    case h_2 filled =>
      cases taken
      refine ⟨?_,filled,List.filter_sublist.subperm⟩
      intro subtag member
      obtain ⟨member,alphanumeric⟩ := List.mem_filter.mp member
      have size := List.all_eq_true.mp sized subtag member
      rw [byteLength_alphanumeric alphanumeric] at size
      simpa [isAlphanumericOf,alphanumeric] using size
  · cases taken

theorem readPrivateUse_reads (taken : readPrivateUse body = .ok kept) : PrivateCanonical kept ∧ kept = body := by
  unfold readPrivateUse at taken
  split at taken
  case isTrue valid =>
    cases taken
    obtain ⟨filled,each⟩ := Bool.and_eq_true_iff.mp valid
    refine ⟨⟨List.all_eq_true.mp each,?_⟩,rfl⟩
    simpa using filled
  · cases taken

theorem count_subtags (tag : Tag) (one : Subtag) : tag.subtags.count one =
    tag.id.subtags.count one + (tag.others.flatMap Field.subtags).count one +
      ((tag.transform.map Transform.subtags).getD []).count one +
      ((tag.keywords.map Keywords.subtags).getD []).count one + ((tag.privateUse.map (['x'] :: ·)).getD []).count one := by
  have parted :=
    (List.filter_append_perm (fun other : Field => decide (['t'] < other.1)) tag.others).flatMap_right Field.subtags
  have counts := parted.count_eq one
  rw [List.flatMap_append,List.count_append] at counts
  simp only [Tag.subtags,List.count_append]
  omega

inductive Extends (tag : Tag) : Field → Tag → Prop where
  | keywords (read : readUnicodeExtension body = .ok extension) (first : tag.keywords = none) :
      Extends tag (['u'],body) { tag with keywords := some extension }
  | transform (read : readTransform body = .ok extension) (first : tag.transform = none) :
      Extends tag (['t'],body) { tag with transform := some extension }
  | privateUse (read : readPrivateUse body = .ok kept) : Extends tag (['x'],body) { tag with privateUse := some kept }
  | other {singleton : Subtag} (read : readOther body = .ok kept) (valid : isSingleton singleton = true)
      (unreserved : singleton ∉ [['t'],['u'],['x']]) (first : ∀ other ∈ tag.others, other.1 ≠ singleton) :
      Extends tag (singleton,body) { tag with others := insertField (singleton,kept) tag.others }

theorem fresh_iff {singleton : Subtag} {others : List Field} :
    (others.any fun other => other.1 == singleton) = false ↔ ∀ other ∈ others, other.1 ≠ singleton := by
  simp only [List.any_eq_false,beq_iff_eq,ne_eq]

theorem readExtension_iff : readExtension tag extension = .ok next ↔ Extends tag extension next := by
  obtain ⟨singleton,body⟩ := extension
  constructor
  · intro taken
    dsimp only [readExtension] at taken
    split at taken
    · cases taken
    case isFalse valid =>
      split at taken
      case isTrue unicode =>
        subst unicode
        split at taken
        · cases taken
        case isFalse first =>
          obtain ⟨extension,read,ended⟩ := bind_ok_iff.mp taken
          cases ended
          exact .keywords read (by simpa using first)
      case isFalse notUnicode =>
        split at taken
        case isTrue transform =>
          subst transform
          split at taken
          · cases taken
          case isFalse first =>
            obtain ⟨extension,read,ended⟩ := bind_ok_iff.mp taken
            cases ended
            exact .transform read (by simpa using first)
        case isFalse notTransform =>
          split at taken
          case isTrue privateUse =>
            subst privateUse
            obtain ⟨kept,read,ended⟩ := bind_ok_iff.mp taken
            cases ended
            exact .privateUse read
          case isFalse notPrivate =>
            split at taken
            · cases taken
            case isFalse first =>
              obtain ⟨kept,read,ended⟩ := bind_ok_iff.mp taken
              cases ended
              have unreserved : singleton ∉ [['t'],['u'],['x']] := by simp [notTransform,notUnicode,notPrivate]
              exact .other read (by simpa using valid) unreserved (fresh_iff.mp (eq_false_of_ne_true first))
  · intro extended
    cases extended with
    | keywords read first =>
      simp only [readExtension,first,read]
      rfl
    | transform read first =>
      simp only [readExtension,first,read]
      rfl
    | privateUse read =>
      simp only [readExtension,read]
      rfl
    | other read valid unreserved first =>
      simp only [List.mem_cons,List.not_mem_nil,or_false,not_or] at unreserved
      obtain ⟨notTransform,notUnicode,notPrivate⟩ := unreserved
      simp only [readExtension,valid,notTransform,notUnicode,notPrivate,read,fresh_iff.mpr first]
      rfl

theorem extends_canonical (extended : Extends tag extension next) (canonical : tag.Canonical) :
    next.Canonical := by
  cases extended with
  | keywords read first => exact { canonical with keywords := by simpa using (readUnicodeExtension_reads read).1 }
  | transform read first => exact { canonical with transform := by simpa using (readTransform_reads read).1 }
  | privateUse read => exact { canonical with privateUse := by simpa using (readPrivateUse_reads read).1 }
  | other read valid unreserved first =>
    obtain ⟨each,filled,_⟩ := readOther_reads read
    exact { canonical with
      others := insertBy_all ⟨valid,unreserved,each,filled⟩ canonical.others
      ascending := insertBy_ascending canonical.ascending }

theorem extends_subperm (extended : Extends tag extension next) :
    next.subtags <+~ tag.subtags ++ extension.subtags := by
  rw [subperm_counts]
  intro one
  rw [List.count_append,count_subtags,count_subtags]
  cases extended with
  | keywords read first =>
    have inside := (readUnicodeExtension_reads read).2.count_le one
    simp [Field.subtags] at inside ⊢
    omega
  | transform read first =>
    have inside := (readTransform_reads read).2.count_le one
    simp [Field.subtags] at inside ⊢
    omega
  | privateUse read =>
    have same := (readPrivateUse_reads read).2
    simp [Field.subtags,same]
  | @other _ kept singleton read valid unreserved first =>
    have inside := (readOther_reads read).2.2.count_le one
    have inserted := (insertField_written Field.subtags (singleton,kept) tag.others).count_le one
    simp [Field.subtags,List.count_cons] at inside inserted ⊢
    omega

theorem cut_parts (body : List Subtag) : (cut body).1 ++ (cut body).2.flatMap Field.subtags = body := by
  induction body with
  | nil => rfl
  | cons subtag rest ih =>
    unfold cut
    split
    case isTrue privateUse => simp [Field.subtags]
    · split
      · simpa [Field.subtags] using ih
      · simpa using ih

theorem extensions_read {extensions : List Field} (taken : extensions.foldlM readExtension tag = .ok next)
    (canonical : tag.Canonical) :
    next.Canonical ∧ next.subtags <+~ tag.subtags ++ extensions.flatMap Field.subtags := by
  induction extensions generalizing tag with
  | nil =>
    cases taken
    rw [List.flatMap_nil,List.append_nil]
    exact ⟨canonical,List.Subperm.refl _⟩
  | cons extension rest ih =>
    rw [List.foldlM_cons] at taken
    obtain ⟨middle,first,later⟩ := bind_ok_iff.mp taken
    have extended := readExtension_iff.mp first
    obtain ⟨ended,inside⟩ := ih later (extends_canonical extended canonical)
    refine ⟨ended,inside.trans ?_⟩
    rw [List.flatMap_cons,← List.append_assoc]
    exact (List.subperm_append_right _).mpr (extends_subperm extended)

theorem readTag_reads (taken : readTag text = .ok tag) : tag.Canonical ∧ tag.subtags <+~ subtags text := by
  cases parts : cut (subtags text) with | mk head extensions
  have whole := cut_parts (subtags text)
  rw [parts] at whole
  rw [readTag,parts] at taken
  obtain ⟨⟨name,rest⟩,nameTaken,taken⟩ := bind_ok_iff.mp taken
  dsimp only at taken
  split at taken
  case isTrue ended =>
    obtain rfl := List.isEmpty_iff.mp ended
    obtain ⟨canonical,inside⟩ := takeLanguageId_reads nameTaken
    rw [List.append_nil] at inside
    have started : Tag.Canonical ⟨name,none,none,[],none⟩ :=
      ⟨canonical,by simp,by simp,by simp,List.Pairwise.nil,by simp⟩
    obtain ⟨later,within⟩ := extensions_read taken started
    refine ⟨later,within.trans ?_⟩
    rw [← whole]
    apply (List.subperm_append_right _).mpr
    simpa [Tag.subtags] using inside
  · cases taken

end Phrasebook.LanguageTag
