import Phrasebook.Proofs.LanguageTag.Canonical
import Phrasebook.Proofs.Text.Splitting
namespace Phrasebook.LanguageTag
open Outcome

-- A canonical tag is read back from what it writes.

theorem digit_not_letter {c : Char} (digit : c.isDigit = true) : c.isAlpha = false := by
  rw [Bool.eq_false_iff]
  intro letter
  have code := letter_code letter
  have other := digit_code digit
  omega

theorem language_length (language : isLanguage subtag = true) : subtag.length = 2 ∨ subtag.length = 3 := by
  simp only [isLanguage,Bool.and_eq_true,Bool.or_eq_true,beq_iff_eq] at language
  exact language.1

theorem value_length (value : isValue subtag = true) : 3 ≤ subtag.length := by
  simp only [isValue,isAlphanumericOf,Bool.and_eq_true,decide_eq_true_eq] at value
  exact value.1.1

theorem keywordKey_length (key : isKeywordKey subtag = true) : subtag.length = 2 := by
  unfold isKeywordKey at key
  split at key
  · rfl
  · cases key

theorem fieldKey_length (key : isFieldKey subtag = true) : subtag.length = 2 := by
  unfold isFieldKey at key
  split at key
  · rfl
  · cases key

structure Foreign (subtag : Subtag) : Prop where
  script : isScript subtag = false
  region : isRegion subtag = false
  variant : isVariant subtag = false

theorem fieldKey_foreign (key : isFieldKey subtag = true) : Foreign subtag ∧ isLanguage subtag = false := by
  unfold isFieldKey at key
  split at key
  case h_1 first second =>
    have digit := digit_not_letter (Bool.and_eq_true_iff.mp key).2
    refine ⟨⟨?_,?_,?_⟩,?_⟩ <;>
      simp [isScript,isRegion,isVariant,isLanguage,isAlphanumericOf,allAlpha,allDigits,digit]
  · cases key

theorem region_not_script (region : isRegion subtag = true) : isScript subtag = false := by
  simp [isRegion,isScript] at region ⊢
  intro four
  omega

theorem variant_other (variant : isVariant subtag = true) : isScript subtag = false ∧ isRegion subtag = false := by
  simp only [isVariant,isAlphanumericOf,Bool.or_eq_true,Bool.and_eq_true,decide_eq_true_eq] at variant
  constructor
  · cases subtag with
    | nil => rfl
    | cons first rest =>
      cases variant with
      | inl long =>
        have four : (first :: rest).length ≠ 4 := by omega
        simp only [isScript,beq_eq_false_iff_ne.mpr four,Bool.false_and]
      | inr digit =>
        have letter : first.isAlpha = false := digit_not_letter (by simpa using digit.2)
        simp [isScript,allAlpha,letter]
  · have two : subtag.length ≠ 2 := by omega
    have three : subtag.length ≠ 3 := by omega
    simp [isRegion,two,three]

theorem takeOptional_written {admits : Subtag → Bool} {found : Option Subtag}
    (admitted : ∀ subtag ∈ found, admits subtag = true)
    (ended : ∀ subtag ∈ rest.head?, admits subtag = false) :
    takeOptional admits (found.toList ++ rest) = (found,rest) := by
  cases found with
  | none =>
    cases rest with
    | nil => rfl
    | cons subtag rest => simp [takeOptional,ended subtag rfl]
  | some subtag => simp [takeOptional,admitted subtag rfl]

theorem takeVariants_written {sorted variants rest : List Subtag}
    (each : ∀ variant ∈ variants, isVariant variant = true)
    (ascending : Ascending id (sorted ++ variants)) (ended : ∀ subtag ∈ rest.head?, isVariant subtag = false) :
    takeVariants sorted (variants ++ rest) = .ok (sorted ++ variants,rest) := by
  induction variants generalizing sorted with
  | nil =>
    rw [List.append_nil,List.nil_append]
    cases rest with
    | nil => rfl
    | cons subtag rest => simp [takeVariants,ended subtag rfl]
  | cons variant variants ih =>
    obtain ⟨first,later⟩ := List.forall_mem_cons.mp each
    have above := ascending_above ascending
    have new : variant ∉ sorted := fun member => lt_irrefl _ (above variant member)
    rw [List.cons_append,takeVariants,if_pos first,if_neg new,insertSorted,insertBy_last above]
    rw [List.append_cons sorted variant variants] at ascending ⊢
    exact ih later ascending

theorem takeAttributes_written {sorted attributes rest : List Subtag}
    (each : ∀ name ∈ attributes, isValue name = true)
    (ascending : Ascending id (sorted ++ attributes)) (ended : ∀ subtag ∈ rest.head?, isValue subtag = false) :
    takeAttributes sorted (attributes ++ rest) = (sorted ++ attributes,rest) := by
  induction attributes generalizing sorted with
  | nil =>
    rw [List.append_nil,List.nil_append]
    cases rest with
    | nil => rfl
    | cons subtag rest => simp [takeAttributes,ended subtag rfl]
  | cons name attributes ih =>
    obtain ⟨first,later⟩ := List.forall_mem_cons.mp each
    rw [List.cons_append,takeAttributes,if_pos first,insertSorted,insertBy_last (ascending_above ascending)]
    rw [List.append_cons sorted name attributes] at ascending ⊢
    exact ih later ascending

theorem takeLanguageId_written {name : LanguageId} (canonical : name.Canonical)
    (ended : ∀ subtag ∈ rest.head?, Foreign subtag) :
    takeLanguageId (name.subtags ++ rest) = .ok (name,rest) := by
  have variantsTaken : takeVariants [] (name.variants ++ rest) = .ok (name.variants,rest) :=
    takeVariants_written canonical.variants canonical.ascending fun subtag first => (ended subtag first).variant
  have regionTaken : takeOptional isRegion (name.region.toList ++ (name.variants ++ rest)) =
      (name.region,name.variants ++ rest) := by
    apply takeOptional_written canonical.region
    intro subtag first
    cases variants : name.variants with
    | nil => exact (ended subtag (by simpa [variants] using first)).region
    | cons variant more =>
      obtain rfl : variant = subtag := by simpa [variants] using first
      exact (variant_other (canonical.variants variant (by simp [variants]))).2
  have scriptTaken : takeOptional isScript (name.script.toList ++ (name.region.toList ++ (name.variants ++ rest))) =
      (name.script,name.region.toList ++ (name.variants ++ rest)) := by
    apply takeOptional_written canonical.script
    intro subtag first
    cases region : name.region with
    | some found =>
      obtain rfl : found = subtag := by simpa [region] using first
      exact region_not_script (canonical.region found region)
    | none =>
      cases variants : name.variants with
      | nil => exact (ended subtag (by simpa [region,variants] using first)).script
      | cons variant more =>
        obtain rfl : variant = subtag := by simpa [region,variants] using first
        exact (variant_other (canonical.variants variant (by simp [variants]))).1
  simp only [LanguageId.subtags,List.cons_append,List.append_assoc]
  rw [takeLanguageId,if_pos canonical.language,scriptTaken]
  simp only [regionTaken,variantsTaken]
  rfl

theorem value_longer (value : isValue subtag = true) : subtag.length ≠ 2 := by
  have length := value_length value
  omega

theorem keywordValues_written {before values rest : List Subtag} (name : Subtag) (read : List Field)
    (each : ∀ value ∈ values, isValue value = true ∧ isTrue value = false) :
    readKeywords (some (name,before)) (values ++ rest) read = readKeywords (some (name,before ++ values)) rest read := by
  induction values generalizing before with
  | nil => rw [List.append_nil,List.nil_append]
  | cons value values ih =>
    obtain ⟨⟨valid,kept⟩,later⟩ := List.forall_mem_cons.mp each
    rw [List.cons_append,readKeywords,if_neg (value_longer valid)]
    simp only [valid,kept,if_true]
    rw [List.append_cons before value values]
    exact ih later

theorem keyword_written {key : Option Field} {rest : List Subtag} (read : List Field)
    (isKey : isKeywordKey name = true) :
    readKeywords key (name :: rest) read = readKeywords (some (name,[])) rest (readKeywords.close key read) := by
  conv_lhs => unfold readKeywords
  rw [if_pos (keywordKey_length isKey),if_pos isKey]

theorem readKeywords_written {key : Option Field} {keywords read : List Field}
    (each : ∀ field ∈ keywords, FieldCanonical isKeywordKey field)
    (ascending : Ascending Prod.fst (readKeywords.close key read ++ keywords)) :
    readKeywords key (keywords.flatMap Field.subtags) read = .ok (readKeywords.close key read ++ keywords) := by
  induction keywords generalizing key read with
  | nil =>
    rw [List.append_nil]
    rfl
  | cons field keywords ih =>
    obtain ⟨name,values⟩ := field
    obtain ⟨first,later⟩ := List.forall_mem_cons.mp each
    have closed : readKeywords.close (some (name,values)) (readKeywords.close key read) =
        readKeywords.close key read ++ [(name,values)] := insertBy_last (ascending_above ascending)
    rw [List.append_cons _ (name,values) keywords,← closed] at ascending ⊢
    rw [List.flatMap_cons,Field.subtags,List.cons_append,keyword_written _ first.key,
      keywordValues_written name _ first.values]
    exact ih later ascending

theorem fieldValues_written {before values rest : List Subtag} (name : Subtag) (read : List Field)
    (each : ∀ value ∈ values, isValue value = true ∧ isTrue value = false) :
    readFields (some ((name,before),true)) (values ++ rest) read =
      readFields (some ((name,before ++ values),true)) rest read := by
  induction values generalizing before with
  | nil => rw [List.append_nil,List.nil_append]
  | cons value values ih =>
    obtain ⟨⟨valid,kept⟩,later⟩ := List.forall_mem_cons.mp each
    rw [List.cons_append,readFields]
    simp only [valid,kept,if_true]
    rw [List.append_cons before value values]
    exact ih later

theorem field_written {values rest : List Subtag} (name : Subtag) (read : List Field)
    (each : ∀ value ∈ values, isValue value = true ∧ isTrue value = false) :
    readFields (some ((name,[]),false)) ((Field.valued (name,values)).tail ++ rest) read =
      readFields (some ((name,values),true)) rest read := by
  cases values with
  | nil => rfl
  | cons value values =>
    obtain ⟨⟨valid,kept⟩,later⟩ := List.forall_mem_cons.mp each
    have first : readFields (some ((name,[]),false)) (value :: (values ++ rest)) read =
        readFields (some ((name,[value]),true)) (values ++ rest) read := by
      rw [readFields]
      simp [valid,kept]
    exact first.trans (fieldValues_written name read later)

theorem fieldKey_not_value (key : isFieldKey subtag = true) : isValue subtag = false := by
  apply eq_false_of_ne_true
  intro value
  exact value_longer value (fieldKey_length key)

theorem openFields_written {field : Field} {fields read : List Field}
    (each : ∀ field ∈ fields, FieldCanonical isFieldKey field)
    (ascending : Ascending Prod.fst (insertField field read ++ fields)) :
    readFields (some (field,true)) (fields.flatMap Field.valued) read = .ok (insertField field read ++ fields) := by
  induction fields generalizing field read with
  | nil => rw [List.append_nil,List.flatMap_nil,readFields]
  | cons next fields ih =>
    obtain ⟨name,values⟩ := next
    obtain ⟨first,later⟩ := List.forall_mem_cons.mp each
    have closed : insertField (name,values) (insertField field read) = insertField field read ++ [(name,values)] :=
      insertBy_last (ascending_above ascending)
    have step : readFields (some (field,true)) ((name,values) :: fields |>.flatMap Field.valued) read =
        readFields (some ((name,[]),false)) ((Field.valued (name,values)).tail ++ fields.flatMap Field.valued)
          (insertField field read) := by
      rw [List.flatMap_cons,Field.valued,List.cons_append,readFields]
      simp [fieldKey_not_value first.key,first.key]
    rw [List.append_cons _ (name,values) fields,← closed] at ascending ⊢
    rw [step,field_written name _ first.values]
    exact ih later ascending

theorem readFields_written {fields : List Field} (canonical : FieldsCanonical isFieldKey fields) :
    readFields none (fields.flatMap Field.valued) [] = .ok fields := by
  cases fields with
  | nil => rfl
  | cons field fields =>
    obtain ⟨name,values⟩ := field
    obtain ⟨first,later⟩ := List.forall_mem_cons.mp canonical.each
    have step : readFields none ((name,values) :: fields |>.flatMap Field.valued) [] =
        readFields (some ((name,[]),false)) ((Field.valued (name,values)).tail ++ fields.flatMap Field.valued) [] := by
      rw [List.flatMap_cons,Field.valued,List.cons_append,readFields]
      simp [first.key]
    rw [step,field_written name _ first.values]
    exact openFields_written later canonical.ascending

theorem readUnicodeExtension_written {extension : Keywords} (canonical : extension.Canonical) :
    readUnicodeExtension (extension.attributes ++ extension.keywords.flatMap Field.subtags) = .ok extension := by
  have ended : ∀ subtag ∈ (extension.keywords.flatMap Field.subtags).head?, isValue subtag = false := by
    intro subtag first
    apply eq_false_of_ne_true
    intro value
    cases keywords : extension.keywords with
    | nil => simp [keywords] at first
    | cons field more =>
      obtain rfl : field.1 = subtag := by simpa [keywords,Field.subtags] using first
      have key := (canonical.keywords.each field (by simp [keywords])).key
      exact value_longer value (keywordKey_length key)
  have keywordsTaken : readKeywords none (extension.keywords.flatMap Field.subtags) [] = .ok extension.keywords :=
    readKeywords_written canonical.keywords.each canonical.keywords.ascending
  have attributesTaken : takeAttributes [] (extension.attributes ++ extension.keywords.flatMap Field.subtags) =
      (extension.attributes,extension.keywords.flatMap Field.subtags) :=
    takeAttributes_written canonical.attributes canonical.ascending ended
  rw [readUnicodeExtension,attributesTaken]
  refine bind_ok_iff.mpr ⟨_,keywordsTaken,if_neg ?_⟩
  rw [Bool.and_eq_true,List.isEmpty_iff,List.isEmpty_iff]
  exact not_and_or.mpr canonical.filled

theorem readTransform_written {extension : Transform} (canonical : extension.Canonical) :
    readTransform ((extension.language.map LanguageId.subtags).getD [] ++ extension.fields.flatMap Field.valued) =
      .ok extension := by
  have first (subtag : Subtag) (member : subtag ∈ (extension.fields.flatMap Field.valued).head?) :
      isFieldKey subtag = true := by
    cases fields : extension.fields with
    | nil => simp [fields] at member
    | cons field more =>
      obtain rfl : field.1 = subtag := by simpa [fields,Field.valued] using member
      exact (canonical.fields.each field (by simp [fields])).key
  have languageTaken : takeOptionalId ((extension.language.map LanguageId.subtags).getD [] ++
      extension.fields.flatMap Field.valued) = .ok (extension.language,extension.fields.flatMap Field.valued) := by
    cases language : extension.language with
    | none =>
      have absent : ((extension.fields.flatMap Field.valued).head?.any isLanguage) = false := by
        cases head : (extension.fields.flatMap Field.valued).head? with
        | none => rfl
        | some subtag => exact (fieldKey_foreign (first subtag head)).2
      rw [takeOptionalId]
      simp [absent]
    | some name =>
      have valid := canonical.language name language
      have taken := takeLanguageId_written valid fun subtag member => (fieldKey_foreign (first subtag member)).1
      have present : ((name.subtags ++ extension.fields.flatMap Field.valued).head?.any isLanguage) = true :=
        valid.language
      simp only [Option.map_some,Option.getD_some]
      rw [takeOptionalId,if_pos present,taken]
      rfl
  refine bind_ok_iff.mpr ⟨_,languageTaken,bind_ok_iff.mpr ⟨_,readFields_written canonical.fields,if_neg ?_⟩⟩
  rw [Bool.and_eq_true,Option.isNone_iff_eq_none,List.isEmpty_iff]
  exact not_and_or.mpr canonical.filled

theorem alphanumeric_parts (valid : isAlphanumericOf least most subtag = true) :
    allAlphanumeric subtag = true ∧ least ≤ Text.byteLength subtag ∧ Text.byteLength subtag ≤ most := by
  simp only [isAlphanumericOf,Bool.and_eq_true,decide_eq_true_eq] at valid
  rw [byteLength_alphanumeric valid.2]
  exact ⟨valid.2,valid.1⟩

theorem readOther_written {body : List Subtag} (each : ∀ subtag ∈ body, isAlphanumericOf 2 8 subtag = true)
    (filled : body ≠ []) : readOther body = .ok body := by
  have sized : (body.all fun subtag => 2 ≤ Text.byteLength subtag && Text.byteLength subtag ≤ 8) = true := by
    rw [List.all_eq_true]
    intro subtag member
    simpa using (alphanumeric_parts (each subtag member)).2
  have kept : body.filter allAlphanumeric = body :=
    List.filter_eq_self.mpr fun subtag member => (alphanumeric_parts (each subtag member)).1
  rw [readOther,if_pos sized,kept]
  cases body with
  | nil => contradiction
  | cons subtag rest => rfl

theorem readPrivateUse_written (canonical : PrivateCanonical body) : readPrivateUse body = .ok body := by
  apply if_pos
  rw [Bool.and_eq_true]
  exact ⟨by simpa using canonical.filled,List.all_eq_true.mpr canonical.subtags⟩

structure Long (subtag : Subtag) : Prop where
  alphanumeric : allAlphanumeric subtag = true
  length : 2 ≤ subtag.length

theorem long_uncut (long : Long subtag) : Text.byteLength subtag ≠ 1 := by
  have length := long.length
  rw [byteLength_alphanumeric long.alphanumeric]
  omega

theorem alphanumeric_long (valid : isAlphanumericOf least most subtag = true) (least_long : 2 ≤ least) :
    Long subtag := by
  simp only [isAlphanumericOf,Bool.and_eq_true,decide_eq_true_eq] at valid
  exact ⟨valid.2,Nat.le_trans least_long valid.1.1⟩

theorem alpha_alphanumeric (alpha : allAlpha subtag = true) : allAlphanumeric subtag = true := by
  simp only [allAlpha,allAlphanumeric,List.all_eq_true,Char.isAlphanum] at alpha ⊢
  intro c member
  rw [alpha c member,Bool.true_or]

theorem digits_alphanumeric (digits : allDigits subtag = true) : allAlphanumeric subtag = true := by
  simp only [allDigits,allAlphanumeric,List.all_eq_true,Char.isAlphanum] at digits ⊢
  intro c member
  rw [digits c member,Bool.or_true]

theorem language_long (language : isLanguage subtag = true) : Long subtag := by
  have length := language_length language
  exact ⟨alpha_alphanumeric (Bool.and_eq_true_iff.mp language).2,by omega⟩

theorem script_long (script : isScript subtag = true) : Long subtag := by
  simp only [isScript,Bool.and_eq_true,beq_iff_eq] at script
  exact ⟨alpha_alphanumeric script.2,by omega⟩

theorem region_long (region : isRegion subtag = true) : Long subtag := by
  simp only [isRegion,Bool.or_eq_true,Bool.and_eq_true,beq_iff_eq] at region
  cases region with
  | inl letters => exact ⟨alpha_alphanumeric letters.2,by omega⟩
  | inr digits => exact ⟨digits_alphanumeric digits.2,by omega⟩

theorem variant_long (variant : isVariant subtag = true) : Long subtag := by
  simp only [isVariant,Bool.or_eq_true,Bool.and_eq_true] at variant
  cases variant with
  | inl long => exact alphanumeric_long long (by decide)
  | inr four => exact alphanumeric_long four.1 (by decide)

theorem value_long (value : isValue subtag = true) : Long subtag := alphanumeric_long value (by decide)

theorem keywordKey_long (key : isKeywordKey subtag = true) : Long subtag := by
  refine ⟨?_,(keywordKey_length key).ge⟩
  unfold isKeywordKey at key
  split at key
  · simp_all [allAlphanumeric,Char.isAlphanum]
  · cases key

theorem fieldKey_long (key : isFieldKey subtag = true) : Long subtag := by
  refine ⟨?_,(fieldKey_length key).ge⟩
  unfold isFieldKey at key
  split at key
  · simp_all [allAlphanumeric,Char.isAlphanum]
  · cases key

theorem languageId_long {name : LanguageId} (canonical : name.Canonical) :
    ∀ subtag ∈ name.subtags, Long subtag := by
  intro subtag member
  simp only [LanguageId.subtags,List.mem_cons,List.mem_append,Option.mem_toList] at member
  obtain rfl | (script | region) | variant := member
  · exact language_long canonical.language
  · exact script_long (canonical.script subtag script)
  · exact region_long (canonical.region subtag region)
  · exact variant_long (canonical.variants subtag variant)

theorem keywords_long {extension : Keywords} (canonical : extension.Canonical) :
    ∀ subtag ∈ extension.subtags.tail, Long subtag := by
  intro subtag member
  simp only [Keywords.subtags,List.tail_cons,List.mem_append,List.mem_flatMap] at member
  cases member with
  | inl name => exact value_long (canonical.attributes subtag name)
  | inr keyword =>
    obtain ⟨field,member,inside⟩ := keyword
    have valid := canonical.keywords.each field member
    cases List.mem_cons.mp inside with
    | inl key => exact key ▸ keywordKey_long valid.key
    | inr value => exact value_long (valid.values subtag value).1

theorem transform_long {extension : Transform} (canonical : extension.Canonical) :
    ∀ subtag ∈ extension.subtags.tail, Long subtag := by
  intro subtag member
  simp only [Transform.subtags,List.tail_cons,List.mem_append,List.mem_flatMap] at member
  cases member with
  | inl inside =>
    cases language : extension.language with
    | none => simp [language] at inside
    | some name => exact languageId_long (canonical.language name language) subtag (by simpa [language] using inside)
  | inr written =>
    obtain ⟨field,member,inside⟩ := written
    have valid := canonical.fields.each field member
    cases List.mem_cons.mp inside with
    | inl key => exact key ▸ fieldKey_long valid.key
    | inr value =>
      split at value
      · exact List.mem_singleton.mp value ▸ ⟨rfl,by decide⟩
      · exact value_long (valid.values subtag value).1

theorem cut_long {body : List Subtag} (long : ∀ subtag ∈ body, Long subtag) (rest : List Subtag) :
    cut (body ++ rest) = (body ++ (cut rest).1,(cut rest).2) := by
  induction body with
  | nil => rfl
  | cons subtag body ih =>
    obtain ⟨first,later⟩ := List.forall_mem_cons.mp long
    have notPrivate : subtag ≠ ['x'] := by
      intro same
      have length := first.length
      simp [same] at length
    rw [List.cons_append,cut,if_neg notPrivate,ih later,if_neg (long_uncut first)]
    rfl

structure Piece (extension : Field) : Prop where
  singleton : isSingleton extension.1 = true
  further : extension.1 ≠ ['x']
  long : ∀ subtag ∈ extension.2, Long subtag

theorem cut_written {extensions : List Field} (pieces : ∀ extension ∈ extensions, Piece extension)
    (privateUse : Option (List Subtag)) :
    cut (extensions.flatMap Field.subtags ++ (privateUse.map (['x'] :: ·)).getD []) =
      ([],extensions ++ privateUse.toList.map fun body => (['x'],body)) := by
  induction extensions with
  | nil =>
    cases privateUse with
    | none => rfl
    | some body => rfl
  | cons extension extensions ih =>
    obtain ⟨first,later⟩ := List.forall_mem_cons.mp pieces
    have size : Text.byteLength extension.1 = 1 := by
      have bounds := (alphanumeric_parts first.singleton).2
      omega
    rw [List.flatMap_cons,Field.subtags,List.append_assoc,List.cons_append,cut,if_neg first.further]
    simp only [cut_long first.long,ih later,size,if_true,List.append_nil]
    rfl

def Tag.extensions (tag : Tag) : List Field :=
  tag.others.filter (fun other => !decide (['t'] < other.1)) ++
    (tag.transform.toList.map (fun extension => (['t'],extension.subtags.tail)) ++
      (tag.keywords.toList.map (fun extension => (['u'],extension.subtags.tail)) ++
        tag.others.filter (fun other => decide (['t'] < other.1))))

theorem subtags_extensions (tag : Tag) :
    tag.subtags = tag.id.subtags ++ (tag.extensions.flatMap Field.subtags ++ (tag.privateUse.map (['x'] :: ·)).getD []) := by
  unfold Tag.subtags Tag.extensions
  cases tag.transform <;> cases tag.keywords <;> simp [Field.subtags,Transform.subtags,Keywords.subtags]

theorem other_piece (canonical : OtherCanonical other) : Piece other := by
  refine ⟨canonical.singleton,?_,?_⟩
  · intro same
    exact canonical.unreserved (by simp [same])
  · intro subtag member
    exact alphanumeric_long (canonical.subtags subtag member) (by decide)

theorem extensions_pieces {tag : Tag} (canonical : tag.Canonical) :
    ∀ extension ∈ tag.extensions, Piece extension := by
  intro extension member
  simp only [Tag.extensions,List.mem_append,List.mem_map,List.mem_filter,Option.mem_toList] at member
  obtain ⟨other,_⟩ | ⟨transform,present,rfl⟩ | ⟨keywords,present,rfl⟩ | ⟨other,_⟩ := member
  · exact other_piece (canonical.others extension other)
  · exact ⟨rfl,by simp,transform_long (canonical.transform transform present)⟩
  · exact ⟨rfl,by simp,keywords_long (canonical.keywords keywords present)⟩
  · exact other_piece (canonical.others extension other)

theorem extensions_append {one two : List Field} (first : one.foldlM readExtension tag = .ok middle)
    (second : two.foldlM readExtension middle = .ok next) : (one ++ two).foldlM readExtension tag = .ok next := by
  rw [List.foldlM_append]
  exact bind_ok_iff.mpr ⟨middle,first,second⟩

theorem others_written {others : List Field} {tag : Tag} (each : ∀ other ∈ others, OtherCanonical other)
    (ascending : Ascending Prod.fst (tag.others ++ others)) :
    others.foldlM readExtension tag = .ok { tag with others := tag.others ++ others } := by
  induction others generalizing tag with
  | nil =>
    rw [List.append_nil]
    rfl
  | cons other others ih =>
    obtain ⟨singleton,body⟩ := other
    obtain ⟨first,later⟩ := List.forall_mem_cons.mp each
    have above := ascending_above ascending
    have extended : Extends tag (singleton,body) { tag with others := insertField (singleton,body) tag.others } :=
      .other (readOther_written first.subtags first.filled) first.singleton first.unreserved
        fun other member => ne_of_lt (above other member)
    rw [List.foldlM_cons,readExtension_iff.mpr extended,insertField,insertBy_last above]
    rw [List.append_cons _ (singleton,body) others] at ascending ⊢
    refine ih later ?_
    exact ascending

theorem transform_written {tag : Tag} {extension : Option Transform}
    (canonical : ∀ transform ∈ extension, transform.Canonical)
    (first : tag.transform = none) :
    (extension.toList.map fun transform => (['t'],transform.subtags.tail)).foldlM readExtension tag =
      .ok { tag with transform := extension } := by
  cases extension with
  | none => exact congrArg (fun absent => Except.ok { tag with transform := absent }) first
  | some transform =>
    have extended := Extends.transform (readTransform_written (canonical transform rfl)) first
    exact bind_ok_iff.mpr ⟨_,readExtension_iff.mpr extended,rfl⟩

theorem keywords_written {tag : Tag} {extension : Option Keywords}
    (canonical : ∀ keywords ∈ extension, keywords.Canonical)
    (first : tag.keywords = none) :
    (extension.toList.map fun keywords => (['u'],keywords.subtags.tail)).foldlM readExtension tag =
      .ok { tag with keywords := extension } := by
  cases extension with
  | none => exact congrArg (fun absent => Except.ok { tag with keywords := absent }) first
  | some keywords =>
    have extended := Extends.keywords (readUnicodeExtension_written (canonical keywords rfl)) first
    exact bind_ok_iff.mpr ⟨_,readExtension_iff.mpr extended,rfl⟩

theorem privateUse_written {tag : Tag} {body : Option (List Subtag)}
    (canonical : ∀ kept ∈ body, PrivateCanonical kept)
    (first : tag.privateUse = none) :
    (body.toList.map fun kept => (['x'],kept)).foldlM readExtension tag = .ok { tag with privateUse := body } := by
  cases body with
  | none => exact congrArg (fun absent => Except.ok { tag with privateUse := absent }) first
  | some kept =>
    have extended : Extends tag (['x'],kept) { tag with privateUse := some kept } :=
      .privateUse (readPrivateUse_written (canonical kept rfl))
    exact bind_ok_iff.mpr ⟨_,readExtension_iff.mpr extended,rfl⟩

theorem ascending_halves {fields : List Field} (ascending : Ascending Prod.fst fields) (bound : Subtag) :
    fields.filter (fun field => !decide (bound < field.1)) ++ fields.filter (fun field => decide (bound < field.1)) =
      fields := by
  induction fields with
  | nil => rfl
  | cons field fields ih =>
    obtain ⟨above,later⟩ := List.pairwise_cons.mp ascending
    by_cases beyond : bound < field.1
    · have all : ∀ other ∈ field :: fields, bound < other.1 := by
        intro other member
        cases List.mem_cons.mp member with
        | inl head => exact head ▸ beyond
        | inr tail => exact lt_trans beyond (above other tail)
      rw [List.filter_eq_nil_iff.mpr,List.filter_eq_self.mpr,List.nil_append]
      · intro other member
        simpa using all other member
      · intro other member
        simpa using all other member
    · simpa [beyond] using ih later

theorem extensions_written {tag : Tag} (canonical : tag.Canonical) :
    (tag.extensions ++ tag.privateUse.toList.map fun body => (['x'],body)).foldlM readExtension
      ⟨tag.id,none,none,[],none⟩ = .ok tag := by
  obtain ⟨id,transform,keywords,others,privateUse⟩ := tag
  have halves : others.filter (fun other => !decide (['t'] < other.1)) ++
      others.filter (fun other => decide (['t'] < other.1)) = others := ascending_halves canonical.ascending ['t']
  have each (half : Field → Bool) : ∀ other ∈ others.filter half, OtherCanonical other :=
    fun other member => canonical.others other (List.mem_of_mem_filter member)
  generalize lowEq : others.filter (fun other => !decide (['t'] < other.1)) = low at halves
  generalize highEq : others.filter (fun other => decide (['t'] < other.1)) = high at halves
  have ascending : Ascending Prod.fst (low ++ high) := halves ▸ canonical.ascending
  have lowRead : low.foldlM readExtension ⟨id,none,none,[],none⟩ = .ok ⟨id,none,none,low,none⟩ :=
    others_written (lowEq ▸ each _) (ascending.sublist (List.sublist_append_left low high))
  have transformRead : (transform.toList.map fun extension => (['t'],extension.subtags.tail)).foldlM readExtension
      ⟨id,none,none,low,none⟩ = .ok ⟨id,transform,none,low,none⟩ := transform_written canonical.transform rfl
  have keywordsRead : (keywords.toList.map fun extension => (['u'],extension.subtags.tail)).foldlM readExtension
      ⟨id,transform,none,low,none⟩ = .ok ⟨id,transform,keywords,low,none⟩ :=
    keywords_written canonical.keywords rfl
  have highRead : high.foldlM readExtension ⟨id,transform,keywords,low,none⟩ = .ok ⟨id,transform,keywords,others,none⟩ :=
    halves ▸ others_written (highEq ▸ each _) ascending
  have privateRead : (privateUse.toList.map fun body => (['x'],body)).foldlM readExtension
      ⟨id,transform,keywords,others,none⟩ = .ok ⟨id,transform,keywords,others,privateUse⟩ :=
    privateUse_written canonical.privateUse rfl
  rw [Tag.extensions,lowEq,highEq]
  exact extensions_append (extensions_append lowRead
    (extensions_append transformRead (extensions_append keywordsRead highRead))) privateRead

theorem readTag_written {tag : Tag} (canonical : tag.Canonical) (spelled : subtags text = tag.subtags) :
    readTag text = .ok tag := by
  have pieces : cut (subtags text) =
      (tag.id.subtags,tag.extensions ++ tag.privateUse.toList.map fun body => (['x'],body)) := by
    rw [spelled,subtags_extensions,cut_long (languageId_long canonical.id),cut_written (extensions_pieces canonical),
      List.append_nil]
  have idTaken : takeLanguageId tag.id.subtags = .ok (tag.id,[]) := by
    have taken : takeLanguageId (tag.id.subtags ++ []) = .ok (tag.id,[]) :=
      takeLanguageId_written canonical.id (by simp)
    rwa [List.append_nil] at taken
  rw [readTag,pieces]
  exact bind_ok_iff.mpr ⟨_,idTaken,extensions_written canonical⟩

theorem subtags_alphanumeric {tag : Tag} (canonical : tag.Canonical) :
    ∀ subtag ∈ tag.subtags, allAlphanumeric subtag = true := by
  intro subtag member
  rw [subtags_extensions] at member
  simp only [List.mem_append,List.mem_flatMap] at member
  obtain id | ⟨extension,present,inside⟩ | privateUse := member
  · exact (languageId_long canonical.id subtag id).alphanumeric
  · have piece := extensions_pieces canonical extension present
    cases List.mem_cons.mp inside with
    | inl singleton => exact singleton ▸ (alphanumeric_parts piece.singleton).1
    | inr body => exact (piece.long subtag body).alphanumeric
  · cases body : tag.privateUse with
    | none => simp [body] at privateUse
    | some kept =>
      rw [body,Option.map_some,Option.getD_some,List.mem_cons] at privateUse
      cases privateUse with
      | inl singleton => exact singleton ▸ rfl
      | inr inside => exact (alphanumeric_parts ((canonical.privateUse kept body).subtags subtag inside)).1

theorem split_writeTag {tag : Tag} (canonical : tag.Canonical) :
    Text.splitOn '-' (writeTag tag) = tag.subtags := by
  apply Text.splitOn_intercalate
  · intro subtag member hyphen
    have alphanumeric := subtags_alphanumeric canonical subtag member
    exact absurd (List.all_eq_true.mp alphanumeric '-' hyphen) (by decide)
  · simp [Tag.subtags,LanguageId.subtags]

theorem writeTag_chars {tag : Tag} (canonical : tag.Canonical) (member : c ∈ writeTag tag) :
    c = '-' ∨ c.isAlphanum = true ∧ ∃ subtag ∈ tag.subtags, c ∈ subtag := by
  by_cases hyphen : c = '-'
  · exact .inl hyphen
  · rw [Text.mem_splitOn hyphen,split_writeTag canonical] at member
    obtain ⟨subtag,present,inside⟩ := member
    exact .inr ⟨List.all_eq_true.mp (subtags_alphanumeric canonical subtag present) c inside,subtag,present,inside⟩

end Phrasebook.LanguageTag
