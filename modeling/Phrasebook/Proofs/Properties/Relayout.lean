import Mathlib.Logic.Relation
import Phrasebook.Properties.Parse
import Phrasebook.Proofs.Outcome
import Phrasebook.Proofs.Properties.Grouping
namespace Phrasebook.Properties

-- Ways to lay out a file anew: other line ends, comments and blank lines between
-- the entries, lines folded in two. None of them changes what is read.

inductive Ended : List Char → Prop where
  | nil : Ended []
  | line (clean : '\n' ∉ line) (later : Ended rest) : Ended (line ++ '\n' :: rest)

inductive LineEnd : List Char → Prop where
  | feed : LineEnd ['\n']
  | returned : LineEnd ['\r','\n']

def withReturns : List Char → List Char
  | [] => []
  | '\r' :: '\n' :: rest => '\r' :: '\n' :: withReturns rest
  | '\n' :: rest => '\r' :: '\n' :: withReturns rest
  | c :: rest => c :: withReturns rest

-- The line behind `before` is the first one of an entry.
def StartsEntry (before content : List Char) : Prop :=
  ∃ entries, Grouped 1 (physicalLines content) entries ∧
    ∃ entry ∈ entries, entry.number = (physicalLines before).length + 1

-- The line behind `before` is one of the lines of an entry.
def InEntry (before content : List Char) : Prop :=
  ∃ entries, Grouped 1 (physicalLines content) entries ∧
    ∃ entry ∈ entries, entry.number ≤ (physicalLines before).length + 1 ∧
      (physicalLines before).length + 1 < entry.number + entry.lines.length

inductive Unindented (head : List Char) : List Char → Prop where
  | nothing : Unindented head []
  | visible (visible : Text.isBlank c = false) : Unindented head (c :: rest)
  | feed (whole : head.getLast? ≠ some '\r') : Unindented head ('\n' :: rest)
  | returned : Unindented head ('\r' :: '\n' :: rest)

inductive Relayout : List Char → List Char → Prop where
  | returns (content : List Char) : Relayout content (withReturns content)
  | insert (ended : Ended before) (starts : StartsEntry before (before ++ rest)) (clean : '\n' ∉ line)
      (idle : Idle line) (ends : LineEnd ending) :
      Relayout (before ++ rest) (before ++ (line ++ (ending ++ rest)))
  | fold (ended : Ended before) (clean : '\n' ∉ head) (inside : InEntry before (before ++ (head ++ rest)))
      (even : trailing head % 2 = 0) (unindented : Unindented head rest) (ends : LineEnd ending)
      (blank : ∀ c ∈ gap, Text.isBlank c = true ∧ c ≠ '\n') :
      Relayout (before ++ (head ++ rest)) (before ++ (head ++ '\\' :: (ending ++ (gap ++ rest))))

def SameEntries (physical physical' : List (List Char)) : Prop :=
  ∃ entries entries', Grouped 1 physical entries ∧ Grouped 1 physical' entries' ∧
    entries.map Entry.text = entries'.map Entry.text

theorem sameEntries_self (physical : List (List Char)) : SameEntries physical physical := by
  obtain ⟨entries,grouped⟩ := (grouped_from physical).1 1
  exact ⟨entries,entries,grouped,grouped,rfl⟩

theorem grouped_renumbered (grouped : Grouped number physical entries) (number' : Nat) :
    ∃ entries', Grouped number' physical entries' ∧ entries'.map Entry.text = entries.map Entry.text := by
  induction grouped generalizing number' with
  | nil => exact ⟨[],.nil,rfl⟩
  | idle idle _ ih =>
    obtain ⟨entries',later,same⟩ := ih (number' + 1)
    exact ⟨entries',.idle idle later,same⟩
  | entry starts chained _ ih =>
    obtain ⟨entries',later,same⟩ := ih _
    exact ⟨_,.entry starts chained later,congrArg (_ :: ·) same⟩

theorem insert_same (grouped : Grouped 1 (physical ++ rest) entries) (member : entry ∈ entries)
    (place : entry.number = physical.length + 1) (idle : Idle line) :
    SameEntries (physical ++ rest) (physical ++ line :: rest) := by
  obtain ⟨before,behind,earlier,later,split,listed,place',starts,chained,after,instead⟩ :=
    grouped_member grouped member
  obtain ⟨rfl,rfl⟩ := List.append_inj split (by omega)
  obtain ⟨entries',moved,same⟩ := grouped_renumbered (grouped_entry starts chained after) (entry.number + 1)
  refine ⟨entries,_,grouped,instead (.idle idle moved),?_⟩
  rw [listed,List.map_append,List.map_append,same]

theorem chained_replaced (chained : Chained rest (earlier ++ old)) (filled : old ≠ [])
    (replaced : Chained rest old → Chained rest new) : Chained rest (earlier ++ new) := by
  induction earlier with
  | nil => exact replaced chained
  | cons line earlier ih =>
    cases h : earlier ++ old with
    | nil => exact absurd (List.append_eq_nil_iff.mp h).2 filled
    | cons next others =>
      rw [List.cons_append,h] at chained
      cases chained with
      | next goes later => exact .next goes (ih (h ▸ later))

theorem replace_same (new : List (List Char)) (grouped : Grouped 1 (physical ++ line :: behind) entries)
    (member : entry ∈ entries)
    (first : entry.number ≤ physical.length + 1) (last : physical.length + 1 < entry.number + entry.lines.length)
    (starts : ∃ fresh others, new = fresh :: others ∧ (Idle fresh → Idle line))
    (chained : ∀ {later rest}, behind = later ++ rest → Chained rest (line :: later) → Chained rest (new ++ later))
    (same : new.flatMap contribution = contribution line) :
    SameEntries (physical ++ line :: behind) (physical ++ (new ++ behind)) := by
  obtain ⟨before,rest,earlier,later,split,listed,place,starts',chained',after,instead⟩ :=
    grouped_member grouped member
  have outer : before <+: physical :=
    List.prefix_of_prefix_length_le ⟨_,split.symm⟩ ⟨_,rfl⟩ (by omega)
  obtain ⟨own,rfl⟩ := outer
  rw [List.append_assoc] at split
  have within := List.append_cancel_left split
  have inner : own ++ [line] <+: entry.lines := by
    refine List.prefix_of_prefix_length_le ⟨behind,by simp⟩ ⟨rest,within.symm⟩ ?_
    rw [List.length_append] at last ⊢
    rw [List.length_singleton]
    omega
  obtain ⟨others,whole⟩ := inner
  rw [List.append_assoc,List.singleton_append] at whole
  rw [← whole,List.append_assoc] at within
  obtain rfl : behind = others ++ rest := (List.cons.inj (List.append_cancel_left within)).2
  obtain ⟨fresh,more,rfl,kept⟩ := starts
  have starting : ∀ first, (own ++ (fresh :: more ++ others)).head? = some first → ¬Idle first := by
    rw [← whole] at starts'
    cases own with
    | nil =>
      rintro _ ⟨⟩ idle
      exact starts' line rfl (kept idle)
    | cons => exact starts'
  have linked : Chained rest (own ++ (fresh :: more ++ others)) := by
    rw [← whole] at chained'
    exact chained_replaced chained' (List.cons_ne_nil _ _) (chained rfl)
  obtain ⟨later',moved,texts⟩ := grouped_renumbered after (entry.number + (own ++ (fresh :: more ++ others)).length)
  have regrouped := instead (grouped_entry starting linked moved)
  refine ⟨entries,_,grouped,by simpa using regrouped,?_⟩
  have text : entry.text = (own ++ (fresh :: more ++ others)).flatMap contribution := by
    rw [Entry.text,← whole]
    simp only [List.flatMap_append,List.flatMap_cons,← same]
  rw [listed,List.map_append,List.map_cons,List.map_append,List.map_cons,texts,text]
  rfl

theorem continued_behind (even : trailing front % 2 = 0) (tail : List Char) :
    Continued (front ++ tail) ↔ Continued tail := by
  rw [Continued,Continued,trailing_joined even]

theorem trimStart_append (clear : StartsClear Text.isBlank tail) (head : List Char) :
    Text.trimStart (head ++ tail) = Text.trimStart head ++ tail := by
  rw [Text.trimStart,List.dropWhile_append,← Text.trimStart]
  split
  · rename_i empty
    rw [List.isEmpty_iff.mp empty,dropWhile_clear clear,List.nil_append]
  · rfl

theorem backslash_clear : StartsClear Text.isBlank ['\\'] := by
  rintro _ ⟨⟩
  rfl

theorem contribution_head (even : trailing head % 2 = 0) :
    contribution (head ++ ['\\']) = Text.trimStart head := by
  rw [contribution,if_pos (continued_backslash even),trimStart_append backslash_clear,List.dropLast_concat]

theorem contribution_stops (even : trailing head % 2 = 0) : contribution head = Text.trimStart head := by
  have stops : ¬Continued head := by
    rw [Continued]
    omega
  rw [contribution,if_neg stops]

theorem contribution_fold (even : trailing head % 2 = 0) (blank : ∀ c ∈ gap, Text.isBlank c = true)
    (clear : StartsClear Text.isBlank tail) :
    [head ++ ['\\'],gap ++ tail].flatMap contribution = contribution (head ++ tail) := by
  have evenGap : trailing gap % 2 = 0 := by rw [trailing_blank blank]
  have trimmed : Text.trimStart (gap ++ tail) = tail := dropWhile_front blank clear
  have goes := continued_behind even tail
  rw [List.flatMap_cons,List.flatMap_singleton,contribution_head even]
  unfold contribution
  rw [trimmed,trimStart_append clear]
  by_cases continued : Continued tail
  · have filled : tail ≠ [] := by
      rintro rfl
      cases continued
    rw [if_pos ((continued_behind evenGap tail).mpr continued),if_pos (goes.mpr continued),
      List.dropLast_append_of_ne_nil filled]
  · rw [if_neg ((continued_behind evenGap tail).not.mpr continued),if_neg (goes.not.mpr continued)]

theorem idle_front (idle : Idle (front ++ [last])) (unmarked : last ≠ '#' ∧ last ≠ '!') :
    (∀ c ∈ front ++ [last], Text.isBlank c = true) ∨ ∀ tail, Idle (front ++ tail) := by
  generalize ended : front ++ [last] = line at idle ⊢
  cases idle with
  | blank blank => exact .inl blank
  | @comment indentation c text indented mark =>
    refine .inr fun tail => ?_
    rcases List.eq_nil_or_concat text with rfl | ⟨comment,d,rfl⟩
    · obtain ⟨_,same⟩ := List.append_inj' ended rfl
      obtain rfl : last = c := (List.cons.inj same).1
      rcases mark with mark | mark
      · exact absurd mark unmarked.1
      · exact absurd mark unmarked.2
    · have joined : indentation ++ c :: comment.concat d = (indentation ++ c :: comment) ++ [d] := by simp
      obtain ⟨rfl,_⟩ := List.append_inj' (ended.trans joined) rfl
      rw [List.append_assoc]
      exact .comment indented mark

theorem idle_head (idle : Idle (head ++ ['\\'])) (tail : List Char) : Idle (head ++ tail) := by
  rcases idle_front idle (by decide) with blank | kept
  · exact absurd (blank '\\' (List.mem_append_right _ List.mem_cons_self)) (by decide)
  · exact kept tail

theorem idle_stripped (idle : Idle line) : Idle (stripReturn line) := by
  unfold stripReturn
  split
  · rename_i ended
    obtain ⟨front,rfl⟩ := List.getLast?_eq_some_iff.mp ended
    rw [List.dropLast_concat]
    rcases idle_front idle (by decide) with blank | kept
    · exact .blank fun c member => blank c (List.mem_append_left _ member)
    · simpa using kept []
  · exact idle

theorem fold_same (grouped : Grouped 1 (physical ++ (head ++ tail) :: behind) entries) (member : entry ∈ entries)
    (first : entry.number ≤ physical.length + 1) (last : physical.length + 1 < entry.number + entry.lines.length)
    (even : trailing head % 2 = 0) (blank : ∀ c ∈ gap, Text.isBlank c = true)
    (clear : StartsClear Text.isBlank tail) :
    SameEntries (physical ++ (head ++ tail) :: behind)
      (physical ++ (head ++ ['\\']) :: (gap ++ tail) :: behind) := by
  have evenGap : trailing gap % 2 = 0 := by rw [trailing_blank blank]
  refine replace_same [head ++ ['\\'],gap ++ tail] grouped member first last
    ⟨_,_,rfl,fun idle => idle_head idle tail⟩ ?_ (contribution_fold even blank clear)
  intro later rest _ chained
  refine .next (continued_backslash even) ?_
  have goes : Continued (gap ++ tail) ↔ Continued (head ++ tail) :=
    (continued_behind evenGap tail).trans (continued_behind even tail).symm
  cases chained with
  | last ends => exact .last fun continued => ends (goes.mp continued)
  | next continued later => exact .next (goes.mpr continued) later

theorem fold_last_same (grouped : Grouped 1 (physical ++ [head]) entries) (member : entry ∈ entries)
    (first : entry.number ≤ physical.length + 1) (last : physical.length + 1 < entry.number + entry.lines.length)
    (even : trailing head % 2 = 0) : SameEntries (physical ++ [head]) (physical ++ [head ++ ['\\']]) := by
  refine replace_same [head ++ ['\\']] grouped member first last
    ⟨_,_,rfl,fun idle => by simpa using idle_head idle []⟩ ?_ ?_
  · intro later rest nothing _
    obtain ⟨rfl,rfl⟩ := List.append_eq_nil_iff.mp nothing.symm
    exact .last fun _ => rfl
  · rw [List.flatMap_singleton,contribution_head even,contribution_stops even]

theorem physicalLines_ended (ended : Ended before) (rest : List Char) :
    physicalLines (before ++ rest) = physicalLines before ++ physicalLines rest := by
  induction ended with
  | nil => rfl
  | @line line behind clean _ ih =>
    rw [List.append_assoc,List.cons_append,physicalLines_cons clean,physicalLines_cons clean,ih,List.cons_append]

theorem physicalLines_returned (clean : '\n' ∉ line) (rest : List Char) :
    physicalLines (line ++ '\r' :: '\n' :: rest) = line :: physicalLines rest := by
  have joined : line ++ '\r' :: '\n' :: rest = (line ++ ['\r']) ++ '\n' :: rest := by simp
  rw [joined,physicalLines_cons (by simp [clean]),stripReturn_return]

theorem text_lines (text : List Char) : '\n' ∉ text ∨ ∃ line rest, text = line ++ '\n' :: rest ∧ '\n' ∉ line := by
  by_cases inside : '\n' ∈ text
  · obtain ⟨line,rest,rfl,clean⟩ := List.eq_append_cons_of_mem inside
    exact .inr ⟨line,rest,rfl,clean⟩
  · exact .inl inside

theorem stripReturn_append (filled : tail ≠ []) (head : List Char) :
    stripReturn (head ++ tail) = head ++ stripReturn tail := by
  unfold stripReturn
  rw [List.getLast?_append_of_ne_nil _ filled,List.dropLast_append_of_ne_nil filled]
  split <;> rfl

theorem stripReturn_clean (clean : '\n' ∉ line) : '\n' ∉ stripReturn line := by
  unfold stripReturn
  split
  · exact fun member => clean (List.dropLast_subset _ member)
  · exact clean

theorem withReturns_cons (other : c ≠ '\n') (whole : c = '\r' → rest.head? ≠ some '\n') :
    withReturns (c :: rest) = c :: withReturns rest := by
  rw [withReturns.eq_4]
  · rintro later rfl rfl
    exact whole rfl rfl
  · exact other

theorem withReturns_clean (clean : '\n' ∉ text) : withReturns text = text := by
  induction text with
  | nil => rfl
  | cons c text ih =>
    obtain ⟨other,clean⟩ := not_or.mp (List.mem_cons.not.mp clean)
    rw [withReturns_cons (Ne.symm other) fun _ first => clean (List.mem_of_head? first),ih clean]

theorem withReturns_line (clean : '\n' ∉ line) (rest : List Char) :
    withReturns (line ++ '\n' :: rest) = stripReturn line ++ '\r' :: '\n' :: withReturns rest := by
  induction line with
  | nil => rfl
  | cons c line ih =>
    obtain ⟨other,clean⟩ := not_or.mp (List.mem_cons.not.mp clean)
    cases line with
    | nil =>
      by_cases returned : c = '\r'
      · subst returned
        rfl
      · have plain : stripReturn [c] = [c] := stripReturn_plain (by simpa using returned)
        rw [plain,List.cons_append,withReturns_cons (Ne.symm other) fun same => absurd same returned]
        rfl
    | cons d line =>
      have inner : d ≠ '\n' := fun same => clean (same ▸ List.mem_cons_self)
      have longer : stripReturn (c :: d :: line) = c :: stripReturn (d :: line) :=
        stripReturn_append (List.cons_ne_nil d line) [c]
      rw [List.cons_append,withReturns_cons (Ne.symm other) (by simpa using fun _ => inner),ih clean,longer]
      rfl

theorem withReturns_lines (content : List Char) : physicalLines (withReturns content) = physicalLines content := by
  induction size : content.length using Nat.strongRecOn generalizing content with
  | ind n ih =>
    rcases text_lines content with clean | ⟨line,rest,rfl,clean⟩
    · rw [withReturns_clean clean]
    · have smaller : rest.length < n := by
        rw [← size,List.length_append,List.length_cons]
        omega
      rw [withReturns_line clean,physicalLines_returned (stripReturn_clean clean),physicalLines_cons clean,
        ih rest.length smaller rest rfl]

theorem insert_relayout (ended : Ended before) (starts : StartsEntry before (before ++ rest)) (clean : '\n' ∉ line)
    (idle : Idle line) (ends : LineEnd ending) :
    SameEntries (physicalLines (before ++ rest)) (physicalLines (before ++ (line ++ (ending ++ rest)))) := by
  obtain ⟨entries,grouped,entry,member,place⟩ := starts
  rw [physicalLines_ended ended] at grouped ⊢
  rw [physicalLines_ended ended]
  cases ends with
  | feed =>
    have cut : physicalLines (line ++ (['\n'] ++ rest)) = stripReturn line :: physicalLines rest :=
      physicalLines_cons clean rest
    rw [cut]
    exact insert_same grouped member place (idle_stripped idle)
  | returned =>
    have cut : physicalLines (line ++ (['\r','\n'] ++ rest)) = line :: physicalLines rest :=
      physicalLines_returned clean rest
    rw [cut]
    exact insert_same grouped member place idle

theorem physicalLines_half (clean : '\n' ∉ head) (ends : LineEnd ending) (rest : List Char) :
    physicalLines (head ++ '\\' :: (ending ++ rest)) = (head ++ ['\\']) :: physicalLines rest := by
  have half : '\n' ∉ head ++ ['\\'] := by simp [clean]
  cases ends with
  | feed =>
    have joined : head ++ '\\' :: (['\n'] ++ rest) = (head ++ ['\\']) ++ '\n' :: rest := by simp
    rw [joined,physicalLines_cons half,stripReturn_plain (by simp)]
  | returned =>
    have joined : head ++ '\\' :: (['\r','\n'] ++ rest) = (head ++ ['\\']) ++ '\r' :: '\n' :: rest := by simp
    rw [joined,physicalLines_returned half]

theorem stripReturn_clear (clear : StartsClear Text.isBlank line) : StartsClear Text.isBlank (stripReturn line) := by
  intro c first
  obtain ⟨rest,stripped⟩ : stripReturn line <+: line := by
    unfold stripReturn
    split
    · exact List.dropLast_prefix line
    · exact List.prefix_refl line
  apply clear
  rw [← stripped,List.head?_append,first]
  rfl

theorem halves (unindented : Unindented head (raw ++ '\n' :: after)) (clean : '\n' ∉ raw)
    (blank : ∀ c ∈ gap, Text.isBlank c = true) :
    ∃ tail gap', stripReturn (head ++ raw) = head ++ tail ∧ stripReturn (gap ++ raw) = gap' ++ tail ∧
      (∀ c ∈ gap', Text.isBlank c = true) ∧ StartsClear Text.isBlank tail := by
  cases raw with
  | nil =>
    have whole : head.getLast? ≠ some '\r' := by
      cases unindented with
      | visible visible => cases visible
      | feed whole => exact whole
    refine ⟨[],stripReturn gap,?_,?_,?_,nofun⟩
    · rw [List.append_nil,stripReturn_plain whole]
    · rw [List.append_nil,List.append_nil]
    · intro c member
      unfold stripReturn at member
      split at member
      · exact blank c (List.dropLast_subset _ member)
      · exact blank c member
  | cons c raw =>
    refine ⟨stripReturn (c :: raw),gap,stripReturn_append (List.cons_ne_nil _ _) head,
      stripReturn_append (List.cons_ne_nil _ _) gap,blank,?_⟩
    generalize rest : c :: raw ++ '\n' :: after = text at unindented
    cases unindented with
    | nothing => cases rest
    | visible visible =>
      cases rest
      refine stripReturn_clear ?_
      rintro _ ⟨⟩
      exact visible
    | feed =>
      cases rest
      exact absurd List.mem_cons_self clean
    | returned =>
      cases raw with
      | nil =>
        cases rest
        exact nofun
      | cons d raw =>
        cases rest
        simp at clean

theorem fold_relayout (ended : Ended before) (clean : '\n' ∉ head) (inside : InEntry before (before ++ (head ++ rest)))
    (even : trailing head % 2 = 0) (unindented : Unindented head rest) (ends : LineEnd ending)
    (blank : ∀ c ∈ gap, Text.isBlank c = true ∧ c ≠ '\n') :
    SameEntries (physicalLines (before ++ (head ++ rest)))
      (physicalLines (before ++ (head ++ '\\' :: (ending ++ (gap ++ rest))))) := by
  obtain ⟨entries,grouped,entry,member,first,last⟩ := inside
  rw [physicalLines_ended ended] at grouped ⊢
  rw [physicalLines_ended ended,physicalLines_half clean ends]
  have indented : ∀ c ∈ gap, Text.isBlank c = true := fun c member => (blank c member).1
  have unbroken : '\n' ∉ gap := fun member => (blank _ member).2 rfl
  rcases text_lines rest with final | ⟨raw,after,rfl,broken⟩
  · have filled : head ++ rest ≠ [] := by
      intro empty
      have bound := member_bounds grouped member
      rw [empty] at bound
      have none : physicalLines [] = [] := rfl
      rw [none,List.append_nil] at bound
      omega
    have single : physicalLines (head ++ rest) = [head ++ rest] :=
      physicalLines_single (by simp [clean,final]) filled
    have clear : StartsClear Text.isBlank rest := by
      cases unindented with
      | nothing => exact nofun
      | visible visible =>
        rintro _ ⟨⟩
        exact visible
      | feed => simp at final
      | returned => simp at final
    rw [single] at grouped ⊢
    by_cases more : gap ++ rest = []
    · obtain ⟨rfl,rfl⟩ := List.append_eq_nil_iff.mp more
      rw [List.append_nil] at grouped ⊢
      exact fold_last_same grouped member first last even
    · rw [physicalLines_single (by simp [unbroken,final]) more]
      exact fold_same grouped member first last even indented clear
  · have joined : '\n' ∉ head ++ raw := by simp [clean,broken]
    have behind : '\n' ∉ gap ++ raw := by simp [unbroken,broken]
    obtain ⟨tail,gap',whole,second,indented',clear⟩ := halves unindented broken indented
    rw [← List.append_assoc,physicalLines_cons joined,whole] at grouped ⊢
    rw [← List.append_assoc,physicalLines_cons behind,second]
    exact fold_same grouped member first last even indented' clear

theorem relayout_same (relayout : Relayout content content') :
    SameEntries (physicalLines content) (physicalLines content') := by
  cases relayout with
  | returns =>
    rw [withReturns_lines]
    exact sameEntries_self _
  | insert ended starts clean idle ends => exact insert_relayout ended starts clean idle ends
  | fold ended clean inside even unindented ends blank =>
    exact fold_relayout ended clean inside even unindented ends blank

theorem readEntry_same {one two : LogicalLine} (same : one.text = two.text) :
    (readEntry one).mapError MalformedLine.message = (readEntry two).mapError MalformedLine.message := by
  unfold readEntry
  rw [same]
  obtain ⟨key,value⟩ := splitEntry two.text
  dsimp only
  cases unescape key with
  | error fault => rfl
  | ok key => cases unescape value <;> rfl

theorem readEntries_same {one two : List Entry} (same : one.map Entry.text = two.map Entry.text) :
    ((one.map Entry.logical).mapM readEntry).mapError MalformedLine.message =
      ((two.map Entry.logical).mapM readEntry).mapError MalformedLine.message := by
  induction one generalizing two with
  | nil =>
    rw [List.map_eq_nil_iff.mp same.symm]
  | cons entry one ih =>
    cases two with
    | nil => cases same
    | cons other two =>
      obtain ⟨first,later⟩ := List.cons.inj same
      rw [List.map_cons,List.map_cons,List.mapM_cons,List.mapM_cons]
      exact Outcome.bind_mapError (readEntry_same first) fun _ => Outcome.bind_mapError (ih later) fun _ => rfl

def answer (content : List Char) : Except String Messages :=
  (parse (String.ofList content)).mapError MalformedLine.message

theorem answer_same (same : SameEntries (physicalLines content) (physicalLines content')) :
    answer content = answer content' := by
  obtain ⟨entries,entries',grouped,grouped',texts⟩ := same
  unfold answer parse logicalLines
  rw [String.toList_ofList,String.toList_ofList,gather_grouped grouped,gather_grouped grouped']
  exact Outcome.bind_mapError (readEntries_same texts) fun _ => rfl

theorem parse_relayout (content content' : String)
    (relayout : Relation.ReflTransGen Relayout content.toList content'.toList) :
    (parse content').mapError MalformedLine.message = (parse content).mapError MalformedLine.message := by
  have same : answer content.toList = answer content'.toList := by
    generalize content'.toList = text at relayout
    induction relayout with
    | refl => rfl
    | tail _ step ih => exact ih.trans (answer_same (relayout_same step))
  unfold answer at same
  rw [String.ofList_toList,String.ofList_toList] at same
  exact same.symm

def shortFile : String := "a=\\u00e9\\\\\nb"

def longFile : String := "a=\\u00\\\r\n \te9\\\\\r\n#\\\r\nb"

theorem longFile_relayout : Relation.ReflTransGen Relayout shortFile.toList longFile.toList := by
  have shortLines : Grouped 1 (physicalLines shortFile.toList) [⟨1,["a=\\u00e9\\\\".toList]⟩,⟨2,["b".toList]⟩] := by
    have cut : physicalLines shortFile.toList = ["a=\\u00e9\\\\".toList,"b".toList] := by decide
    have first : Chained ["b".toList] ["a=\\u00e9\\\\".toList] := .last (by decide)
    have second : Chained [] ["b".toList] := .last (by decide)
    rw [cut]
    exact .entry (by decide) first (.entry (by decide) second .nil)
  have foldedLines : Grouped 1 (physicalLines "a=\\u00\\\r\n \te9\\\\\nb".toList)
      [⟨1,["a=\\u00\\".toList," \te9\\\\".toList]⟩,⟨3,["b".toList]⟩] := by
    have cut : physicalLines "a=\\u00\\\r\n \te9\\\\\nb".toList =
        ["a=\\u00\\".toList," \te9\\\\".toList,"b".toList] := by decide
    have first : Chained ["b".toList] ["a=\\u00\\".toList," \te9\\\\".toList] := .next (by decide) (.last (by decide))
    have second : Chained [] ["b".toList] := .last (by decide)
    rw [cut]
    exact .entry (by decide) first (.entry (by decide) second .nil)
  have gap : ∀ c ∈ [' ','\t'], Text.isBlank c = true ∧ c ≠ '\n' :=
    List.forall_mem_cons.mpr ⟨by decide,List.forall_mem_singleton.mpr (by decide)⟩
  have folded : Relayout ([] ++ ("a=\\u00".toList ++ "e9\\\\\nb".toList))
      ([] ++ ("a=\\u00".toList ++ '\\' :: (['\r','\n'] ++ ([' ','\t'] ++ "e9\\\\\nb".toList)))) :=
    .fold .nil (by decide) ⟨_,shortLines,_,List.mem_cons_self,by decide,by decide⟩ (by decide) (.visible (by decide))
      .returned gap
  have ended : Ended ("a=\\u00\\\r".toList ++ '\n' :: (" \te9\\\\".toList ++ '\n' :: [])) :=
    .line (by decide) (.line (by decide) .nil)
  have commented : Relayout ("a=\\u00\\\r\n \te9\\\\\n".toList ++ ['b'])
      ("a=\\u00\\\r\n \te9\\\\\n".toList ++ (['#','\\'] ++ (['\n'] ++ ['b']))) :=
    .insert ended ⟨_,foldedLines,_,List.mem_cons_of_mem _ List.mem_cons_self,by decide⟩ (by decide) (by decide) .feed
  exact .tail (.tail (.single folded) commented) (.returns _)

theorem parse_relayout_folded : Relation.ReflTransGen Relayout shortFile.toList longFile.toList ∧
    (parse longFile).mapError MalformedLine.message = (parse shortFile).mapError MalformedLine.message :=
  ⟨longFile_relayout,parse_relayout shortFile longFile longFile_relayout⟩

end Phrasebook.Properties
