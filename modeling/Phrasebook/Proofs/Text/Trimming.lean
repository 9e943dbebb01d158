import Mathlib.Data.List.DropRight
import Phrasebook.Text.Basic
namespace Phrasebook.Text

-- A text with nothing blank at its ends is what trimming leaves.

def Blanks (text : List Char) : Prop := ∀ c ∈ text, isBlank c = true

structure Trimmed (text : List Char) : Prop where
  first : ∀ c ∈ text.head?, isBlank c = false
  last : ∀ c ∈ text.getLast?, isBlank c = false

theorem trimEnd_last (text : List Char) : ∀ c ∈ (trimEnd text).getLast?, isBlank c = false := by
  intro c member
  have filled : trimEnd text ≠ [] := by
    intro empty
    rw [empty] at member
    cases member
  rw [List.getLast?_eq_some_getLast filled] at member
  rw [← Option.mem_some.mp member]
  exact Bool.eq_false_iff.mpr (List.rdropWhile_last_not isBlank text filled)

theorem trimStart_first (text : List Char) : ∀ c ∈ (trimStart text).head?, isBlank c = false := by
  intro c member
  have stops := List.head?_dropWhile_not isBlank text
  rw [trimStart] at member
  rw [Option.mem_def.mp member] at stops
  simpa using stops

theorem trimEnd_first {text : List Char} (first : ∀ c ∈ text.head?, isBlank c = false) :
    ∀ c ∈ (trimEnd text).head?, isBlank c = false := by
  intro c member
  obtain ⟨after,whole⟩ := List.rdropWhile_prefix isBlank (l := text)
  apply first
  rw [← whole]
  exact List.mem_head?_append_of_mem_head? member

theorem trim_trimmed (text : List Char) : Trimmed (trim text) :=
  ⟨trimEnd_first (trimStart_first text),trimEnd_last (trimStart text)⟩

theorem trim_fixed (trimmed : Trimmed text) : trim text = text := by
  have start : trimStart text = text := by
    cases text with
    | nil => rfl
    | cons c rest => simp [trimStart,trimmed.first c rfl]
  have ends : text.rdropWhile isBlank = text := by
    rw [List.rdropWhile_eq_self_iff]
    intro filled
    rw [trimmed.last _ (List.getLast?_eq_some_getLast filled)]
    exact Bool.false_ne_true
  rw [trim,start]
  exact ends

theorem trimEnd_padded (text : List Char) {after : List Char} (back : Blanks after) :
    trimEnd (text ++ after) = trimEnd text := by
  have back' : ∀ c ∈ after.reverse, isBlank c = true := fun c member => back c (List.mem_reverse.mp member)
  rw [trimEnd,trimEnd,List.reverse_append,List.dropWhile_append_of_pos back']

theorem trim_padded (text : List Char) {before after : List Char} (front : Blanks before) (back : Blanks after) :
    trim (before ++ text ++ after) = trim text := by
  rw [List.append_assoc,trim,trim,trimStart,trimStart,List.dropWhile_append_of_pos front,List.dropWhile_append]
  split
  · rename_i empty
    rw [List.isEmpty_iff.mp empty,List.dropWhile_eq_nil_iff.mpr back]
  · exact trimEnd_padded _ back

theorem trim_map {view : Char → Char} (same : ∀ c, isBlank (view c) = isBlank c) (text : List Char) :
    trim (text.map view) = (trim text).map view := by
  have test : isBlank ∘ view = isBlank := funext same
  simp only [trim,trimStart,trimEnd,List.dropWhile_map,← List.map_reverse,test]

end Phrasebook.Text
