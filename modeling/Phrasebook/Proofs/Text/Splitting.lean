import Mathlib.Data.List.Basic
import Phrasebook.Text.Basic
namespace Phrasebook.Text

theorem splitOn_single {separator : Char} (clean : separator ∉ piece) :
    splitOn separator piece = [piece] := by
  induction piece with
  | nil => rfl
  | cons c piece ih =>
    obtain ⟨other,clean⟩ := not_or.mp (List.mem_cons.not.mp clean)
    rw [splitOn,if_neg (Ne.symm other),ih clean]

theorem splitOn_append {separator : Char} (clean : separator ∉ piece) (rest : List Char) :
    splitOn separator (piece ++ separator :: rest) = piece :: splitOn separator rest := by
  induction piece with
  | nil => simp [splitOn]
  | cons c piece ih =>
    obtain ⟨other,clean⟩ := not_or.mp (List.mem_cons.not.mp clean)
    rw [List.cons_append,splitOn,if_neg (Ne.symm other),ih clean]

theorem splitOn_ne_nil (separator : Char) (text : List Char) : splitOn separator text ≠ [] := by
  cases text with
  | nil => exact List.cons_ne_nil _ _
  | cons c text =>
    unfold splitOn
    split
    · exact List.cons_ne_nil _ _
    · split <;> exact List.cons_ne_nil _ _

theorem splitOn_library (separator : Char) (text : List Char) :
    splitOn separator text = List.splitOn separator text := by
  induction text with
  | nil => rfl
  | cons c text ih =>
    rw [splitOn,List.splitOn_cons_eq_if_modifyHead,← ih]
    simp only [beq_iff_eq]
    cases parts : splitOn separator text with
    | nil => exact absurd parts (splitOn_ne_nil separator text)
    | cons first others => rfl

theorem intercalate_splitOn (separator : Char) (text : List Char) :
    [separator].intercalate (splitOn separator text) = text := by
  rw [splitOn_library]
  exact List.intercalate_splitOn separator

theorem splitOn_intercalate {separator : Char} {pieces : List (List Char)}
    (clean : ∀ piece ∈ pieces, separator ∉ piece)
    (filled : pieces ≠ []) : splitOn separator ([separator].intercalate pieces) = pieces := by
  rw [splitOn_library]
  exact List.splitOn_intercalate separator clean filled

theorem map_intercalate (view : α → β) (separator : List α) (parts : List (List α)) :
    (separator.intercalate parts).map view = (separator.map view).intercalate (parts.map (List.map view)) := by
  induction parts with
  | nil => rfl
  | cons part later ih =>
    cases later with
    | nil => simp
    | cons next later =>
      rw [List.intercalate_cons_cons,List.map_append,List.map_append,ih]
      simp only [List.map_cons,List.intercalate_cons_cons]

theorem splitOn_length (separator : Char) (text : List Char) :
    (splitOn separator text).length = text.count separator + 1 := by
  induction text with
  | nil => rfl
  | cons c text ih =>
    unfold splitOn
    split
    case isTrue same => simp [same,ih]
    case isFalse other =>
      cases parts : splitOn separator text with
      | nil => exact absurd parts (splitOn_ne_nil separator text)
      | cons first others => simpa [parts,other] using ih

theorem mem_splitOn {separator c : Char} {text : List Char} (other : c ≠ separator) :
    c ∈ text ↔ ∃ piece ∈ splitOn separator text, c ∈ piece := by
  induction text with
  | nil => simp [splitOn]
  | cons d text ih =>
    rw [List.mem_cons,ih,splitOn]
    split
    case isTrue same => simp [same,other]
    case isFalse =>
      cases parts : splitOn separator text with
      | nil => exact absurd parts (splitOn_ne_nil separator text)
      | cons first others => simp [or_assoc]

end Phrasebook.Text
