import Mathlib.Data.List.TakeWhile
import Phrasebook.Proofs.Properties.Lines
namespace Phrasebook.Properties

-- Physical lines grouped into entries, told line by line. The reader joins first
-- and looks at the joined text for more to come; it finds the same entries.

inductive Idle : List Char → Prop where
  | blank (blank : ∀ c ∈ line, Text.isBlank c = true) : Idle line
  | comment (indented : ∀ c ∈ indentation, Text.isBlank c = true) (mark : c = '#' ∨ c = '!') :
      Idle (indentation ++ c :: text)

def Continued (line : List Char) : Prop := trailing line % 2 = 1

instance : DecidablePred Continued := fun _ => inferInstanceAs (Decidable (_ = _))

-- The lines of one entry, with `rest` behind them. Each but the last is continued
-- by the next one, and the last one would be, if there were one.
inductive Chained (rest : List (List Char)) : List (List Char) → Prop where
  | last (ends : Continued line → rest = []) : Chained rest [line]
  | next (goes : Continued line) (later : Chained rest physical) : Chained rest (line :: physical)

structure Entry where
  number : Nat
  lines : List (List Char)

inductive Grouped : Nat → List (List Char) → List Entry → Prop where
  | nil : Grouped number [] []
  | idle (idle : Idle line) (later : Grouped (number + 1) rest entries) : Grouped number (line :: rest) entries
  | entry (starts : ¬Idle first) (chained : Chained rest (first :: others))
      (later : Grouped (number + (first :: others).length) rest entries) :
      Grouped number (first :: others ++ rest) (⟨number,first :: others⟩ :: entries)

-- What a line adds to its entry: neither indentation nor the backslash that only
-- says that the entry goes on.
def contribution (line : List Char) : List Char :=
  if Continued line then (Text.trimStart line).dropLast else Text.trimStart line

def Entry.text (entry : Entry) : List Char := entry.lines.flatMap contribution

def Entry.logical (entry : Entry) : LogicalLine := ⟨entry.number,entry.text⟩

theorem grouped_from (physical : List (List Char)) :
    (∀ number, ∃ entries, Grouped number physical entries) ∧
    ∀ number line, ∃ others rest entries, physical = others ++ rest ∧ Chained rest (line :: others) ∧
      Grouped (number + (line :: others).length) rest entries := by
  induction physical with
  | nil => exact ⟨fun _ => ⟨[],.nil⟩,fun _ _ => ⟨[],[],[],rfl,.last fun _ => rfl,.nil⟩⟩
  | cons next physical ih =>
    have starting : ∀ number, ∃ entries, Grouped number (next :: physical) entries := by
      intro number
      by_cases idle : Idle next
      · obtain ⟨entries,later⟩ := ih.1 (number + 1)
        exact ⟨entries,.idle idle later⟩
      · obtain ⟨others,rest,entries,rfl,chained,later⟩ := ih.2 number next
        exact ⟨_,.entry idle chained later⟩
    refine ⟨starting,?_⟩
    intro number line
    by_cases goes : Continued line
    · obtain ⟨others,rest,entries,rfl,chained,later⟩ := ih.2 (number + 1) next
      refine ⟨next :: others,rest,entries,rfl,.next goes chained,?_⟩
      rwa [List.length_cons,Nat.add_comm (next :: others).length,← Nat.add_assoc]
    · obtain ⟨entries,later⟩ := starting (number + 1)
      exact ⟨[],next :: physical,entries,rfl,.last fun continued => absurd continued goes,later⟩

theorem grouped_exists (content : List Char) : ∃ entries, Grouped 1 (physicalLines content) entries :=
  (grouped_from _).1 1

theorem skipped_iff (line : List Char) : isSkipped (Text.trimStart line) = true ↔ Idle line := by
  constructor
  · intro skipped
    have whole := List.takeWhile_append_dropWhile (p := Text.isBlank) (l := line)
    have indented : ∀ c ∈ line.takeWhile Text.isBlank, Text.isBlank c = true := fun _ => List.mem_takeWhile_imp
    unfold Text.trimStart at skipped
    cases trimmed : line.dropWhile Text.isBlank with
    | nil => exact .blank (List.dropWhile_eq_nil_iff.mp trimmed)
    | cons c text =>
      rw [trimmed] at skipped whole
      rw [← whole]
      exact .comment indented (by simpa [isSkipped] using skipped)
  · intro idle
    cases idle with
    | blank blank =>
      rw [Text.trimStart,List.dropWhile_eq_nil_iff.mpr blank]
      rfl
    | @comment indentation c text indented mark =>
      have visible : StartsClear Text.isBlank (c :: text) := by
        rintro _ ⟨⟩
        rcases mark with rfl | rfl <;> rfl
      rw [Text.trimStart,dropWhile_front indented visible]
      rcases mark with rfl | rfl <;> rfl

instance : DecidablePred Idle := fun line => decidable_of_iff _ (skipped_iff line)

theorem trailing_blank (blank : ∀ c ∈ text, Text.isBlank c = true) : trailing text = 0 := by
  rw [trailing,List.length_eq_zero_iff,List.eq_nil_iff_forall_not_mem]
  intro c member
  have backslash := List.mem_takeWhile_imp member
  obtain rfl := beq_iff_eq.mp backslash
  have inside := List.mem_reverse.mp ((List.takeWhile_sublist _).mem member)
  exact absurd (blank _ inside) (by decide)

theorem trailing_trimStart (line : List Char) : trailing (Text.trimStart line) = trailing line := by
  have whole := List.takeWhile_append_dropWhile (p := Text.isBlank) (l := line)
  have front : trailing (line.takeWhile Text.isBlank) = 0 := trailing_blank fun _ => List.mem_takeWhile_imp
  have joined := trailing_append (line.takeWhile Text.isBlank) (line.dropWhile Text.isBlank)
  rw [whole,front] at joined
  rw [joined,Text.trimStart]
  split <;> omega

theorem trailing_joined (even : trailing text % 2 = 0) (rest : List Char) :
    trailing (text ++ rest) % 2 = trailing rest % 2 := by
  rw [trailing_append]
  split <;> omega

theorem continued_ends (continued : Continued line) : ∃ front, line = front ++ ['\\'] ∧ trailing front % 2 = 0 := by
  rcases List.eq_nil_or_concat line with rfl | ⟨front,c,rfl⟩
  · cases continued
  · rw [List.concat_eq_append,Continued,trailing_append] at continued
    by_cases backslash : c = '\\'
    · subst backslash
      have single : trailing ['\\'] = 1 := rfl
      rw [single,List.length_singleton,if_pos rfl] at continued
      exact ⟨front,List.concat_eq_append,by omega⟩
    · have none : trailing [c] = 0 := by simp [trailing,backslash]
      rw [none,List.length_singleton,if_neg Nat.zero_ne_one] at continued
      cases continued

theorem continued_backslash (even : trailing front % 2 = 0) : Continued (front ++ ['\\']) := by
  rw [Continued,trailing_joined even]
  rfl

theorem continues_joined (even : trailing text % 2 = 0) (line : List Char) :
    continues (text ++ Text.trimStart line) = decide (Continued line) := by
  have same : trailing (text ++ Text.trimStart line) % 2 = trailing line % 2 := by
    rw [trailing_joined even,trailing_trimStart]
  rw [continues,← trailing,same]
  rfl

theorem contribution_joined (continued : Continued line) (text : List Char) :
    (text ++ Text.trimStart line).dropLast = text ++ contribution line := by
  rw [contribution,if_pos continued]
  refine List.dropLast_append_of_ne_nil ?_
  intro empty
  rw [Continued,← trailing_trimStart,empty] at continued
  cases continued

theorem contribution_even (line : List Char) : trailing (contribution line) % 2 = 0 := by
  unfold contribution
  split
  · rename_i continued
    rw [Continued,← trailing_trimStart] at continued
    obtain ⟨front,ended,even⟩ := continued_ends continued
    rw [ended,List.dropLast_concat]
    exact even
  · rename_i stops
    rw [Continued,← trailing_trimStart] at stops
    omega

theorem gather_chained (chained : Chained rest physical) (number : Nat) (entry : LogicalLine)
    (even : trailing entry.text % 2 = 0) :
    gather number (some entry) (physical ++ rest) =
      ⟨entry.number,entry.text ++ physical.flatMap contribution⟩ :: gather (number + physical.length) none rest := by
  induction chained generalizing number entry with
  | @last line ends =>
    rw [List.singleton_append,gather]
    simp only [continues_joined even,decide_eq_true_eq]
    by_cases continued : Continued line
    · rw [if_pos continued,contribution_joined continued,ends continued]
      simp [gather]
    · simp [continued,contribution]
  | @next line physical goes _ ih =>
    rw [List.cons_append,gather]
    simp only [continues_joined even,decide_eq_true_eq,if_pos goes,contribution_joined goes]
    have joined : trailing (entry.text ++ contribution line) % 2 = 0 := by
      rw [trailing_joined even,contribution_even]
    rw [ih (number + 1) ⟨entry.number,_⟩ joined]
    simp [Nat.add_comm,Nat.add_left_comm]

theorem gather_starts (starts : ¬Idle line) (number : Nat) (rest : List (List Char)) :
    gather number none (line :: rest) = gather number (some ⟨number,[]⟩) (line :: rest) := by
  have kept : isSkipped (Text.trimStart line) = false := by
    rw [← Bool.not_eq_true,skipped_iff]
    exact starts
  simp only [gather,kept,Bool.false_eq_true,if_false,List.nil_append]

theorem gather_grouped (grouped : Grouped number physical entries) :
    gather number none physical = entries.map Entry.logical := by
  induction grouped with
  | nil => rfl
  | @idle line number rest entries idle _ ih =>
    rw [gather,if_pos ((skipped_iff line).mpr idle),ih]
  | @entry first rest others number entries starts chained _ ih =>
    rw [List.cons_append,gather_starts starts,← List.cons_append,gather_chained chained number ⟨number,[]⟩ rfl,ih]
    rfl

theorem chained_filled (chained : Chained rest physical) : physical ≠ [] := by
  cases chained <;> exact List.cons_ne_nil _ _

theorem chained_behind (chained : Chained rest physical) (more : rest ≠ []) (rest' : List (List Char)) :
    Chained rest' physical := by
  induction chained with
  | last ends => exact .last fun continued => absurd (ends continued) more
  | next goes _ ih => exact .next goes ih

theorem grouped_entry (starts : ∀ first, physical.head? = some first → ¬Idle first) (chained : Chained rest physical)
    (later : Grouped (number + physical.length) rest entries) :
    Grouped number (physical ++ rest) (⟨number,physical⟩ :: entries) := by
  cases physical with
  | nil => exact absurd rfl (chained_filled chained)
  | cons first others => exact .entry (starts first rfl) chained later

theorem grouped_member (grouped : Grouped number physical entries) (member : entry ∈ entries) :
    ∃ before rest earlier later, physical = before ++ (entry.lines ++ rest) ∧ entries = earlier ++ entry :: later ∧
      entry.number = number + before.length ∧ (∀ first, entry.lines.head? = some first → ¬Idle first) ∧
      Chained rest entry.lines ∧ Grouped (entry.number + entry.lines.length) rest later ∧
      ∀ {physical' entries'}, Grouped entry.number physical' entries' →
        Grouped number (before ++ physical') (earlier ++ entries') := by
  induction grouped with
  | nil => cases member
  | @idle line number rest entries idle _ ih =>
    obtain ⟨before,rest,earlier,later,rfl,rfl,place,starts,chained,behind,instead⟩ := ih member
    refine ⟨line :: before,rest,earlier,later,rfl,rfl,?_,starts,chained,behind,fun other => .idle idle (instead other)⟩
    rw [place,List.length_cons]
    omega
  | @entry first rest others number entries starts chained behind ih =>
    rcases List.mem_cons.mp member with rfl | member
    · exact ⟨[],rest,[],entries,rfl,rfl,rfl,by rintro _ ⟨⟩; exact starts,chained,behind,fun other => other⟩
    · obtain ⟨before,rest,earlier,later,rfl,rfl,place,starts',chained',behind',instead⟩ := ih member
      refine ⟨first :: others ++ before,rest,_ :: earlier,later,(List.append_assoc _ _ _).symm,rfl,?_,starts',chained',
        behind',?_⟩
      · rw [place,List.length_append]
        omega
      · intro physical' entries' other
        have onward := instead other
        rw [List.append_assoc]
        have filled : before ++ (entry.lines ++ rest) ≠ [] := by simp [chained_filled chained']
        exact .entry starts (chained_behind chained filled _) onward

theorem member_bounds (grouped : Grouped number physical entries) (member : entry ∈ entries) :
    entry.number + entry.lines.length ≤ number + physical.length := by
  obtain ⟨before,rest,_,_,rfl,_,place,_⟩ := grouped_member grouped member
  rw [List.length_append,List.length_append]
  omega

end Phrasebook.Properties
