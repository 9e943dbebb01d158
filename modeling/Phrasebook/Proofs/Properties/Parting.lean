import Mathlib.Data.List.Induction
import Phrasebook.Proofs.Properties.Decoding
import Phrasebook.Proofs.Properties.Grouping
namespace Phrasebook.Properties

-- Key and value of an entry, told by what stands around them. The joined text of
-- an entry never ends inside an escape, so it parts in one way and cuts none.

-- The key holds no gap and no separator outside of escapes. With or without a
-- separator behind it, gaps belong neither to the key nor to the value.
inductive Parted : List Char → List Char → List Char → Prop where
  | unmarked (inner : Whole IsInner (fun _ => True) key) (gaps : ∀ c ∈ gap, isGap c = true)
      (apart : gap = [] → value = []) (clear : StartsClear (fun c => isGap c || isSeparator c) value) :
      Parted (key ++ (gap ++ value)) key value
  | marked (inner : Whole IsInner (fun _ => True) key) (before : ∀ c ∈ gap, isGap c = true)
      (separator : isSeparator mark = true) (after : ∀ c ∈ gap', isGap c = true) (clear : StartsClear isGap value) :
      Parted (key ++ (gap ++ mark :: (gap' ++ value))) key value

theorem dropSeparator_unmarked (gaps : ∀ c ∈ gap, isGap c = true)
    (clear : StartsClear (fun c => isGap c || isSeparator c) value) : dropSeparator (gap ++ value) = value := by
  have stops : StartsClear isGap value := fun c first => (Bool.or_eq_false_iff.mp (clear c first)).1
  rw [dropSeparator,dropWhile_front gaps stops]
  cases value with
  | nil => rfl
  | cons c value =>
    have unmarked := (Bool.or_eq_false_iff.mp (clear c rfl)).2
    simp only [unmarked,Bool.false_eq_true,if_false]

theorem splitEntry_parted (parted : Parted text key value) : splitEntry text = (key,value) := by
  cases parted with
  | @unmarked key gap value inner gaps apart clear =>
    have stops : splitKey (gap ++ value) = ([],gap ++ value) := by
      cases gap with
      | nil =>
        rw [apart rfl]
        rfl
      | cons blank gap => exact splitKey_ends (.inl (gaps blank List.mem_cons_self)) _
    rw [splitEntry,splitKey_whole inner,stops]
    simp only [List.append_nil,dropSeparator_unmarked gaps clear]
  | marked inner before separator after clear => exact splitEntry_parts inner before separator after clear

theorem gap_plain (gap : isGap c = true) : c ≠ '\\' := by
  rintro rfl
  cases gap

theorem separator_plain (separator : isSeparator c = true) : c ≠ '\\' := by
  rintro rfl
  cases separator

theorem inner_uncut (inner : Whole IsInner (fun _ => True) key) : Uncut key := by
  induction inner with
  | nil => exact .nil
  | plain inner _ ih => exact .plain inner.1 ih
  | escape _ _ ih => exact .escape trivial ih

theorem key_taken (whole : Uncut text) : ∃ key rest, text = key ++ rest ∧ Whole IsInner (fun _ => True) key ∧
    Uncut rest ∧ ∀ c, rest.head? = some c → isGap c = true ∨ isSeparator c = true := by
  induction whole with
  | nil => exact ⟨[],[],rfl,.nil,.nil,nofun⟩
  | @plain c text literal later ih =>
    by_cases ends : isGap c = true ∨ isSeparator c = true
    · refine ⟨[],c :: text,rfl,.nil,.plain literal later,?_⟩
      rintro _ ⟨⟩
      exact ends
    · obtain ⟨key,rest,rfl,inner,whole,stops⟩ := ih
      obtain ⟨gap,separator⟩ := not_or.mp ends
      exact ⟨c :: key,rest,rfl,.plain ⟨literal,by simpa using gap,by simpa using separator⟩ inner,whole,stops⟩
  | @escape c text _ _ ih =>
    obtain ⟨key,rest,rfl,inner,whole,stops⟩ := ih
    exact ⟨'\\' :: c :: key,rest,rfl,.escape trivial inner,whole,stops⟩

theorem gaps_taken (text : List Char) :
    ∃ gap rest, text = gap ++ rest ∧ (∀ c ∈ gap, isGap c = true) ∧ StartsClear isGap rest := by
  refine ⟨text.takeWhile isGap,text.dropWhile isGap,List.takeWhile_append_dropWhile.symm,
    fun _ => List.mem_takeWhile_imp,?_⟩
  intro c first
  have stops := List.head?_dropWhile_not isGap text
  rw [first] at stops
  simpa using stops

theorem uncut_parted (whole : Uncut text) : ∃ key value, Parted text key value ∧ Uncut key ∧ Uncut value := by
  obtain ⟨key,behind,rfl,inner,whole,stops⟩ := key_taken whole
  obtain ⟨gap,rest,rfl,before,clear⟩ := gaps_taken behind
  have uncut : Uncut rest := uncut_rest whole fun c member => gap_plain (before c member)
  by_cases marked : ∃ mark, rest.head? = some mark ∧ isSeparator mark = true
  · obtain ⟨mark,first,separator⟩ := marked
    obtain ⟨later,rfl⟩ := List.head?_eq_some_iff.mp first
    obtain ⟨gap',value,rfl,after,clear'⟩ := gaps_taken later
    refine ⟨key,value,.marked inner before separator after clear',inner_uncut inner,?_⟩
    exact uncut_rest (uncut_tail uncut (separator_plain separator)) fun c member => gap_plain (after c member)
  · have unmarked : StartsClear (fun c => isGap c || isSeparator c) rest := by
      intro c first
      rw [Bool.or_eq_false_iff,← Bool.not_eq_true (isSeparator c)]
      exact ⟨clear c first,fun separator => marked ⟨c,first,separator⟩⟩
    refine ⟨key,rest,.unmarked inner before ?_ unmarked,inner_uncut inner,uncut⟩
    rintro rfl
    cases rest with
    | nil => rfl
    | cons c rest =>
      obtain ⟨gap,separator⟩ := Bool.or_eq_false_iff.mp (unmarked c rfl)
      rcases stops c rfl with ends | ends <;> simp [gap,separator] at ends

theorem uncut_or_cut (text : List Char) : Uncut text ∨ ∃ front, text = front ++ ['\\'] ∧ Uncut front := by
  induction text using List.reverseRecOn with
  | nil => exact .inl .nil
  | append_singleton text c ih =>
    rcases ih with whole | ⟨front,rfl,whole⟩
    · by_cases backslash : c = '\\'
      · subst backslash
        exact .inr ⟨text,rfl,whole⟩
      · exact .inl (whole_append whole (.plain backslash .nil))
    · rw [List.append_assoc]
      exact .inl (whole_append whole (.escape trivial .nil))

theorem even_uncut (even : trailing text % 2 = 0) : Uncut text := by
  rcases uncut_or_cut text with whole | ⟨front,rfl,whole⟩
  · exact whole
  · have ends := whole_ends id whole
    rw [continues,← trailing,beq_eq_false_iff_ne] at ends
    have odd : Continued (front ++ ['\\']) := continued_backslash (by omega)
    rw [Continued] at odd
    omega

theorem entry_uncut (entry : Entry) : Uncut entry.text := by
  unfold Entry.text
  induction entry.lines with
  | nil => exact .nil
  | cons line _ ih => exact whole_append (even_uncut (contribution_even line)) ih

theorem entry_parted (entry : Entry) : ∃ key value, Parted entry.text key value ∧ Uncut key ∧ Uncut value :=
  uncut_parted (entry_uncut entry)

end Phrasebook.Properties
