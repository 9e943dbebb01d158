import Mathlib.Data.List.Basic
import Phrasebook.Proofs.Text.Splitting
import Phrasebook.Properties.Parse
namespace Phrasebook.Properties

-- How a properties file is cut into lines, and a line into key and value. An
-- escape is never cut, and a line that holds only whole escapes ends there.

-- A text of whole escapes, and of characters that are `Plain` outside of them.
inductive Whole (Plain Escaped : Char → Prop) : List Char → Prop where
  | nil : Whole Plain Escaped []
  | plain (allowed : Plain c) (later : Whole Plain Escaped text) : Whole Plain Escaped (c :: text)
  | escape (allowed : Escaped c) (later : Whole Plain Escaped text) :
      Whole Plain Escaped ('\\' :: c :: text)

section
variable {Plain Escaped : Char → Prop}

theorem whole_append (one : Whole Plain Escaped text) (two : Whole Plain Escaped rest) :
    Whole Plain Escaped (text ++ rest) := by
  induction one with
  | nil => exact two
  | plain allowed _ ih => exact .plain allowed ih
  | escape allowed _ ih => exact .escape allowed ih

theorem whole_plain (allowed : ∀ c ∈ text, Plain c) : Whole Plain Escaped text := by
  induction text with
  | nil => exact .nil
  | cons c text ih =>
    have later : ∀ c ∈ text, Plain c := fun c member => allowed c (List.mem_cons_of_mem _ member)
    exact .plain (allowed c List.mem_cons_self) (ih later)

theorem whole_chars {Wanted : Char → Prop} (plain : ∀ {c}, Plain c → Wanted c)
    (escaped : ∀ {c}, Escaped c → Wanted c) (backslash : Wanted '\\')
    (whole : Whole Plain Escaped text) : ∀ c ∈ text, Wanted c := by
  induction whole with
  | nil => exact nofun
  | plain allowed _ ih => exact List.forall_mem_cons.mpr ⟨plain allowed,ih⟩
  | escape allowed _ ih =>
    exact List.forall_mem_cons.mpr ⟨backslash,List.forall_mem_cons.mpr ⟨escaped allowed,ih⟩⟩

end

def trailing (text : List Char) : Nat := (text.reverse.takeWhile (· == '\\')).length

theorem trailing_append (text rest : List Char) :
    trailing (text ++ rest) =
      if trailing rest = rest.length then rest.length + trailing text else trailing rest := by
  rw [trailing,List.reverse_append,List.takeWhile_append,List.length_reverse]
  unfold trailing
  split <;> simp

theorem whole_ends {Plain Escaped : Char → Prop} (literal : ∀ {c}, Plain c → c ≠ '\\')
    (whole : Whole Plain Escaped text) : continues text = false := by
  have even : trailing text % 2 = 0 := by
    induction whole with
    | nil => rfl
    | @plain c text allowed _ ih =>
      have none : trailing [c] = 0 := by simp [trailing,literal allowed]
      rw [← List.singleton_append,trailing_append,none]
      split <;> omega
    | @escape c text _ _ ih =>
      have pair : trailing ['\\',c] = 0 ∨ trailing ['\\',c] = 2 := by
        by_cases backslash : c = '\\' <;> simp [trailing,backslash]
      have joined : '\\' :: c :: text = ['\\',c] ++ text := rfl
      rw [joined,trailing_append]
      split <;> omega
  rw [continues,← trailing,even]
  rfl

def IsInner (c : Char) : Prop := c ≠ '\\' ∧ isGap c = false ∧ isSeparator c = false

theorem splitKey_plain (inner : IsInner c) (rest : List Char) :
    splitKey (c :: rest) = (c :: (splitKey rest).1,(splitKey rest).2) := by
  obtain ⟨literal,gap,separator⟩ := inner
  rw [splitKey.eq_4] <;> simp [literal,gap,separator]

theorem splitKey_ends (ends : isGap c = true ∨ isSeparator c = true) (rest : List Char) :
    splitKey (c :: rest) = ([],c :: rest) := by
  have literal : c ≠ '\\' := by
    rintro rfl
    simp [isGap,isSeparator] at ends
  rw [splitKey.eq_4]
  · rw [if_pos (by simpa using ends)]
  all_goals simp [literal]

theorem splitKey_whole {Escaped : Char → Prop} (whole : Whole IsInner Escaped key) (rest : List Char) :
    splitKey (key ++ rest) = (key ++ (splitKey rest).1,(splitKey rest).2) := by
  induction whole with
  | nil => rfl
  | plain inner _ ih => rw [List.cons_append,splitKey_plain inner,ih]; rfl
  | escape _ _ ih => rw [List.cons_append,List.cons_append,splitKey,ih]; rfl

-- The first character of a text cannot be taken for one of those before it.
def StartsClear (skipped : Char → Bool) (text : List Char) : Prop :=
  ∀ c, text.head? = some c → skipped c = false

theorem dropWhile_clear {skipped : Char → Bool} (clear : StartsClear skipped text) :
    text.dropWhile skipped = text := by
  cases text with
  | nil => rfl
  | cons c text => exact List.dropWhile_cons_of_neg (by simp [clear c rfl])

theorem dropWhile_front {skipped : Char → Bool} (front : ∀ c ∈ run, skipped c = true)
    (clear : StartsClear skipped text) : (run ++ text).dropWhile skipped = text := by
  rw [List.dropWhile_append_of_pos front,dropWhile_clear clear]

theorem separator_gap (separator : isSeparator c = true) : isGap c = false := by
  simp only [isSeparator,Bool.or_eq_true,beq_iff_eq] at separator
  rcases separator with rfl | rfl <;> rfl

theorem gap_blank (gap : isGap c = true) : Text.isBlank c = true := by
  simp only [isGap,Bool.or_eq_true,beq_iff_eq] at gap
  rcases gap with (rfl | rfl) | rfl <;> rfl

theorem dropSeparator_gaps (before : ∀ c ∈ gap, isGap c = true) (separator : isSeparator c = true)
    (after : ∀ c ∈ gap', isGap c = true) (clear : StartsClear isGap value) :
    dropSeparator (gap ++ c :: (gap' ++ value)) = value := by
  have stops : StartsClear isGap (c :: (gap' ++ value)) := by
    rintro _ ⟨⟩
    exact separator_gap separator
  rw [dropSeparator,dropWhile_front before stops]
  simp only [separator,if_true]
  exact dropWhile_front after clear

theorem splitEntry_parts {Escaped : Char → Prop} (whole : Whole IsInner Escaped key)
    (before : ∀ c ∈ gap, isGap c = true) (separator : isSeparator c = true)
    (after : ∀ c ∈ gap', isGap c = true) (clear : StartsClear isGap value) :
    splitEntry (key ++ (gap ++ c :: (gap' ++ value))) = (key,value) := by
  have stops : splitKey (gap ++ c :: (gap' ++ value)) = ([],gap ++ c :: (gap' ++ value)) := by
    cases gap with
    | nil => exact splitKey_ends (.inr separator) _
    | cons blank gap => exact splitKey_ends (.inl (before blank List.mem_cons_self)) _
  rw [splitEntry,splitKey_whole whole,stops]
  simp only [List.append_nil,dropSeparator_gaps before separator after clear]

theorem physicalLines_single (clean : '\n' ∉ line) (filled : line ≠ []) : physicalLines line = [line] := by
  rw [physicalLines,Text.splitOn_single clean,closeLines,if_neg (by simpa using filled)]

theorem physicalLines_cons (clean : '\n' ∉ line) (rest : List Char) :
    physicalLines (line ++ '\n' :: rest) = stripReturn line :: physicalLines rest := by
  rw [physicalLines,physicalLines,Text.splitOn_append clean]
  cases others : Text.splitOn '\n' rest with
  | nil => exact absurd others (Text.splitOn_ne_nil '\n' rest)
  | cons next others => rfl

theorem stripReturn_plain (plain : line.getLast? ≠ some '\r') : stripReturn line = line :=
  if_neg plain

theorem stripReturn_return (line : List Char) : stripReturn (line ++ ['\r']) = line := by
  simp [stripReturn]

theorem gather_entry (number : Nat) (starts : isSkipped (Text.trimStart line) = false)
    (ends : continues (Text.trimStart line) = false) (rest : List (List Char)) :
    gather number none (line :: rest) =
      ⟨number,Text.trimStart line⟩ :: gather (number + 1) none rest := by
  simp only [gather,starts,ends,Bool.false_eq_true,if_false]

end Phrasebook.Properties
