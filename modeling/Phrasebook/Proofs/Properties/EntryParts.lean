import Phrasebook.Proofs.Properties.FaultLines
import Phrasebook.Proofs.Properties.Writing
namespace Phrasebook.Properties

-- The key of a logical line and the separator behind it reach as far as they can,
-- and no part of the line ends inside an escape.

structure Longest (Fits : List Char → Prop) (part text : List Char) : Prop where
  starts : part <+: text
  fits : Fits part
  longest : ∀ other, other <+: text → Fits other → other <+: part

-- Nothing ends the key outside of escapes.
def Unended (text : List Char) : Prop :=
  ∀ front c back, text = front ++ c :: back → Uncut front → isGap c = false ∧ isSeparator c = false

def Separates (text : List Char) : Prop :=
  ∃ before mark after, text = before ++ (mark ++ after) ∧ (∀ c ∈ before, isGap c = true) ∧
    (mark = [] ∨ ∃ c, mark = [c] ∧ isSeparator c = true) ∧ ∀ c ∈ after, isGap c = true

inductive Escape : List Char → Prop where
  | char (c : Char) : Escape ['\\',c]
  | unit (denotes : Denotes digits code) : Escape ('\\' :: 'u' :: digits)

def piecesOr (lone : List Piece) : List Char → List Piece
  | [] => []
  | '\\' :: 'u' :: a :: b :: c :: d :: rest =>
    match Text.hexValue? [a,b,c,d] with
    | some code => .unit code :: piecesOr lone rest
    | none => [.malformed [a,b,c,d]]
  | '\\' :: 'u' :: rest => [.malformed rest]
  | '\\' :: c :: rest => .char (control c) :: piecesOr lone rest
  | ['\\'] => lone
  | c :: rest => .char c :: piecesOr lone rest

theorem piecesOr_nothing (raw : List Char) : piecesOr [] raw = pieces raw := by
  fun_induction pieces raw with
  | case2 a b c d rest code value ih => simp [piecesOr,value,ih]
  | case3 a b c d rest value => simp [piecesOr,value]
  | _ => simp_all [piecesOr]

theorem piecesOr_uncut (lone : List Piece) (whole : Uncut raw) : piecesOr lone raw = pieces raw := by
  fun_induction pieces raw with
  | case2 a b c d rest code value ih =>
    have denotes : Denotes [a,b,c,d] code := ⟨rfl,value⟩
    have behind : Uncut rest := uncut_rest (uncut_escape whole) (denotes_literal denotes)
    simp [piecesOr,value,ih behind]
  | case3 a b c d rest value => simp [piecesOr,value]
  | case5 c rest short long ih => simp [piecesOr,ih (uncut_escape whole)]
  | case6 => cases whole with | plain literal => exact absurd rfl literal
  | case7 c rest _ _ _ _ ih =>
    cases whole with
    | plain _ later => simp_all [piecesOr,ih later]
    | escape => simp_all
  | _ => simp_all [piecesOr]

theorem uncut_behind (whole : Uncut (front ++ back)) (front' : Uncut front) : Uncut back := by
  induction front' with
  | nil => exact whole
  | plain literal _ ih => exact ih (uncut_tail whole literal)
  | escape _ _ ih => exact ih (uncut_escape whole)

theorem inner_unended (inner : Whole IsInner (fun _ => True) key) : Unended key := by
  induction inner with
  | nil =>
    intro front c back split
    simp at split
  | plain first _ ih =>
    intro front c back split whole
    cases front with
    | nil =>
      cases split
      exact first.2
    | cons d front =>
      cases split
      exact ih front c back rfl (uncut_tail whole first.1)
  | escape _ _ ih =>
    intro front c back split whole
    rcases front with _ | ⟨d,_ | ⟨e,front⟩⟩
    · cases split
      exact ⟨rfl,rfl⟩
    · cases split
      cases whole with | plain literal => exact absurd rfl literal
    · cases split
      exact ih front c back rfl (uncut_escape whole)

theorem longest_part {Fits : List Char → Prop} (fits : Fits part)
    (ends : ∀ c back other, rest = c :: (back ++ other) → ¬Fits (part ++ c :: back)) : Longest Fits part (part ++ rest) := by
  refine ⟨List.prefix_append part rest,fits,fun other starts fits' => ?_⟩
  rcases List.prefix_or_prefix_of_prefix starts (List.prefix_append part rest) with inside | ⟨more,rfl⟩
  · exact inside
  · obtain ⟨behind,split⟩ := starts
    rw [List.append_assoc] at split
    cases more with
    | nil => simp
    | cons c back => exact absurd fits' (ends c back behind (List.append_cancel_left split).symm)

theorem key_longest (inner : Whole IsInner (fun _ => True) key)
    (stops : ∀ c, rest.head? = some c → isGap c = true ∨ isSeparator c = true) :
    Longest Unended key (key ++ rest) := by
  refine longest_part (inner_unended inner) fun c back other split unended => ?_
  obtain ⟨gap,separator⟩ := unended key c back rfl (inner_uncut inner)
  simpa [gap,separator] using stops c (by simp [split])

theorem separates_chars (separates : Separates text) :
    (∀ c ∈ text, isGap c = true ∨ isSeparator c = true) ∧ text.countP isSeparator ≤ 1 := by
  have gaps {gap : List Char} (each : ∀ c ∈ gap, isGap c = true) : gap.countP isSeparator = 0 := by
    rw [List.countP_eq_zero]
    intro c member separator
    simpa [separator_gap separator] using each c member
  obtain ⟨front,mark,behind,rfl,before,marked,after⟩ := separates
  rcases marked with rfl | ⟨c,rfl,separator⟩
  · simp [gaps before,gaps after]
    grind
  · simp [gaps before,gaps after,separator]
    grind

theorem parted_longest (parted : Parted text key value) : ∃ separator, text = key ++ (separator ++ value) ∧
    Longest Unended key text ∧ Longest Separates separator (separator ++ value) := by
  cases parted with
  | @unmarked key gap value inner gaps apart clear =>
    refine ⟨gap,rfl,key_longest inner ?_,longest_part ⟨gap,[],[],by simp,gaps,.inl rfl,nofun⟩ ?_⟩
    · intro c first
      cases gap with
      | nil => simp [apart rfl] at first
      | cons blank gap =>
        cases first
        exact .inl (gaps _ List.mem_cons_self)
    · intro c back other split separates
      have unmarked := clear c (by simp [split])
      rcases (separates_chars separates).1 c (by simp) with gap | separator <;> simp_all
  | @marked key gap mark gap' value inner before separator after clear =>
    refine ⟨gap ++ mark :: gap',by simp,key_longest inner ?_,
      longest_part ⟨gap,[mark],gap',by simp,before,.inr ⟨mark,rfl,separator⟩,after⟩ ?_⟩
    · intro c first
      cases gap with
      | nil =>
        cases first
        exact .inr separator
      | cons blank gap =>
        cases first
        exact .inl (before _ List.mem_cons_self)
    · intro c back other split separates
      obtain ⟨chars,once⟩ := separates_chars separates
      have again : isSeparator c = true := by
        rcases chars c (by simp) with gap | separator
        · simp [clear c (by simp [split])] at gap
        · exact separator
      simp [separator,again] at once
      omega

theorem denotes_inner (denotes : Denotes digits code) : ∀ c ∈ digits, IsInner c := by
  obtain ⟨a,b,c,d,rfl⟩ := denotes_four denotes
  have value := denotes.2
  simp only [Text.hexValue?,List.foldlM_cons,List.foldlM_nil] at value
  intro e member
  apply digit_inner
  rw [Option.isSome_iff_ne_none]
  intro none
  simp only [List.mem_cons,List.not_mem_nil,or_false] at member
  rcases member with rfl | rfl | rfl | rfl <;> simp [none] at value

theorem escape_starts (escape : Escape written) : ∃ rest, written = '\\' :: rest := by
  cases escape with
  | char c => exact ⟨[c],rfl⟩
  | unit => exact ⟨_,rfl⟩

theorem escape_unended (escape : Escape written) : Unended written := by
  have lone : ¬Uncut ['\\'] := by
    intro whole
    cases whole with | plain literal => exact absurd rfl literal
  intro front c back split whole
  cases escape with
  | char d =>
    rcases front with _ | ⟨_,_ | ⟨_,front⟩⟩
    · cases split
      exact ⟨rfl,rfl⟩
    · cases split
      exact absurd whole lone
    · simp at split
  | unit denotes =>
    rcases front with _ | ⟨_,_ | ⟨_,front⟩⟩
    · cases split
      exact ⟨rfl,rfl⟩
    · cases split
      exact absurd whole lone
    · simp only [List.cons_append,List.cons.injEq] at split
      obtain ⟨_,_,rfl⟩ := split
      exact (denotes_inner denotes c (by simp)).2

theorem unended_append (unended : Unended front) (whole : Uncut front) (unended' : Unended back) :
    Unended (front ++ back) := by
  intro front' c rest split whole'
  rcases List.append_eq_append_iff.mp split with ⟨inside,rfl,behind⟩ | ⟨inside,rfl,behind⟩
  · exact unended' inside c rest behind (uncut_behind whole' whole)
  · cases inside with
    | nil => exact unended' [] c rest behind.symm .nil
    | cons d inside =>
      cases behind
      exact unended front' c inside rfl whole'

theorem unended_front (unended : Unended key) (starts : front <+: key) : Unended front := by
  obtain ⟨rest,rfl⟩ := starts
  intro front' c back split whole
  exact unended front' c (back ++ rest) (by simp [split]) whole

theorem escape_inside (longest : Longest Unended key text) (split : text = key ++ (separator ++ value))
    (plain : ∀ c ∈ separator, c ≠ '\\') (here : text = front ++ (written ++ back)) (whole : Uncut front)
    (escape : Escape written) : front ++ written <+: key ∨ key ++ separator <+: front := by
  have starts : front <+: text := ⟨written ++ back,here.symm⟩
  rcases List.prefix_or_prefix_of_prefix starts longest.starts with inside | ⟨more,rfl⟩
  · left
    exact longest.longest _ ⟨back,by simp [here]⟩
      (unended_append (unended_front longest.fits inside) whole (escape_unended escape))
  · right
    have behind : separator ++ value = more ++ (written ++ back) := by
      rw [split,List.append_assoc] at here
      exact List.append_cancel_left here
    rcases List.append_eq_append_iff.mp behind with ⟨rest,rfl,_⟩ | ⟨rest,rfl,cut⟩
    · simp
    · cases rest with
      | nil => simp
      | cons d rest =>
        obtain ⟨later,rfl⟩ := escape_starts escape
        simp only [List.cons_append,List.cons.injEq] at cut
        exact absurd cut.1.symm (plain d (by simp))

theorem logical_uncut (content : List Char) : ∀ line ∈ logicalLines content, Uncut line.text := by
  intro line member
  obtain ⟨entries,grouped⟩ := grouped_exists content
  rw [logicalLines,gather_grouped grouped] at member
  obtain ⟨entry,_,rfl⟩ := List.mem_map.mp member
  exact entry_uncut entry

-- Every line that is split comes apart between its escapes, and neither part ends in
-- a lone backslash for the reader to find.
theorem split_whole (content : String) : (∀ raw, piecesOr [] raw = pieces raw) ∧
    ∀ line ∈ logicalLines content.toList, ∃ key separator value, splitEntry line.text = (key,value) ∧
      line.text = key ++ (separator ++ value) ∧
      Longest Unended key line.text ∧ Longest Separates separator (separator ++ value) ∧
      (∀ front written back, line.text = front ++ (written ++ back) → Uncut front → Escape written →
        front ++ written <+: key ∨ key ++ separator <+: front) ∧
      ∀ part ∈ [key,value], Uncut part ∧ continues part = false ∧ ∀ lone, piecesOr lone part = pieces part := by
  refine ⟨piecesOr_nothing,fun line member => ?_⟩
  obtain ⟨key,value,parted,whole,whole'⟩ := uncut_parted (logical_uncut content.toList line member)
  obtain ⟨separator,split,longest,separates⟩ := parted_longest parted
  have plain : ∀ c ∈ separator, c ≠ '\\' := by
    intro c inside
    rcases (separates_chars separates.fits).1 c inside with gap | mark
    · exact gap_plain gap
    · exact separator_plain mark
  refine ⟨key,separator,value,splitEntry_parted parted,split,longest,separates,?_,?_⟩
  · intro front written back here uncut escape
    exact escape_inside longest split plain here uncut escape
  · have ends (part : List Char) (uncut : Uncut part) :
        Uncut part ∧ continues part = false ∧ ∀ lone, piecesOr lone part = pieces part :=
      ⟨uncut,whole_ends id uncut,fun lone => piecesOr_uncut lone uncut⟩
    simp [ends key whole,ends value whole']

theorem split_whole_stopped :
    (⟨1,"k\\ 1 = \\u0041\\\\".toList⟩ : LogicalLine) ∈ logicalLines "k\\ 1 \\\n  = \\u0041\\\\\\".toList ∧
    ∃ key separator value, splitEntry "k\\ 1 = \\u0041\\\\".toList = (key,value) ∧
      "k\\ 1 = \\u0041\\\\".toList = key ++ (separator ++ value) ∧
      ∀ part ∈ [key,value], Uncut part ∧ continues part = false ∧ ∀ lone, piecesOr lone part = pieces part := by
  have member : (⟨1,"k\\ 1 = \\u0041\\\\".toList⟩ : LogicalLine) ∈
      logicalLines "k\\ 1 \\\n  = \\u0041\\\\\\".toList := by decide
  obtain ⟨key,separator,value,split,same,_,_,_,parts⟩ := (split_whole _).2 _ member
  exact ⟨member,key,separator,value,split,same,parts⟩

end Phrasebook.Properties
