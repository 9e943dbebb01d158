import Phrasebook.Proofs.Properties.Lines
import Phrasebook.Proofs.Properties.Spelling
namespace Phrasebook.Properties

-- Escapes are read from left to right, and reading breaks off at a code unit that
-- is not written out or stands alone as one half of a character. A text without a
-- cut-off escape is either decoded whole or breaks somewhere.

def Denotes (digits : List Char) (code : Nat) : Prop :=
  digits.length = 4 ∧ Text.hexValue? digits = some code

inductive Decodes : List Char → List Char → Prop where
  | nil : Decodes [] []
  | plain (literal : c ≠ '\\') (later : Decodes raw text) : Decodes (c :: raw) (c :: text)
  | escape (named : c ≠ 'u') (later : Decodes raw text) : Decodes ('\\' :: c :: raw) (control c :: text)
  | unit (denotes : Denotes digits code) (high : Text.isHighSurrogate code = false)
      (low : Text.isLowSurrogate code = false) (later : Decodes raw text) :
      Decodes ('\\' :: 'u' :: (digits ++ raw)) (Char.ofNat code :: text)
  | pair (denotes : Denotes digits code) (high : Text.isHighSurrogate code = true)
      (denotes' : Denotes digits' code') (low : Text.isLowSurrogate code' = true) (later : Decodes raw text) :
      Decodes ('\\' :: 'u' :: (digits ++ '\\' :: 'u' :: (digits' ++ raw))) (Text.pairedChar code code' :: text)

inductive Breaks : List Char → Prop where
  | malformed (undenoted : ∀ digits later code, raw = digits ++ later → ¬Denotes digits code) :
      Breaks ('\\' :: 'u' :: raw)
  | unpaired (denotes : Denotes digits code) (high : Text.isHighSurrogate code = true)
      (alone : ∀ digits' later code', raw = '\\' :: 'u' :: (digits' ++ later) → Denotes digits' code' →
        Text.isLowSurrogate code' = false) :
      Breaks ('\\' :: 'u' :: (digits ++ raw))
  | lone (denotes : Denotes digits code) (low : Text.isLowSurrogate code = true) :
      Breaks ('\\' :: 'u' :: (digits ++ raw))

def Faulty (raw : List Char) : Prop :=
  ∃ front back text, raw = front ++ back ∧ Decodes front text ∧ Breaks back

theorem denotes_four (denotes : Denotes digits code) : ∃ a b c d, digits = [a,b,c,d] := by
  obtain ⟨four,_⟩ := denotes
  match digits,four with
  | [a,b,c,d],_ => exact ⟨a,b,c,d,rfl⟩

theorem pieces_denoted (denotes : Denotes digits code) (rest : List Char) :
    pieces ('\\' :: 'u' :: (digits ++ rest)) = .unit code :: pieces rest := by
  obtain ⟨a,b,c,d,rfl⟩ := denotes_four denotes
  simp only [List.cons_append,List.nil_append,pieces,denotes.2]

theorem pieces_undenoted (undenoted : ∀ digits later code, raw = digits ++ later → ¬Denotes digits code) :
    ∃ digits, pieces ('\\' :: 'u' :: raw) = [.malformed digits] := by
  match raw with
  | a :: b :: c :: d :: rest =>
    have none : Text.hexValue? [a,b,c,d] = none := by
      cases value : Text.hexValue? [a,b,c,d] with
      | none => rfl
      | some code => exact absurd ⟨rfl,value⟩ (undenoted [a,b,c,d] rest code rfl)
    exact ⟨[a,b,c,d],by simp only [pieces,none]⟩
  | [] | [_] | [_,_] | [_,_,_] => exact ⟨_,rfl⟩

theorem pieces_unit (starts : pieces raw = .unit code :: later) :
    ∃ digits rest, raw = '\\' :: 'u' :: (digits ++ rest) ∧ Denotes digits code := by
  revert starts
  fun_cases pieces raw with
  | case2 a b c d rest other value =>
    rintro ⟨⟩
    exact ⟨[a,b,c,d],rest,rfl,rfl,value⟩
  | _ => simp

theorem low_alone (low : Text.isLowSurrogate code = true) : Text.isHighSurrogate code = false := by
  simp only [Text.isLowSurrogate,Text.isHighSurrogate,Bool.and_eq_true,decide_eq_true_eq,Bool.and_eq_false_iff,
    decide_eq_false_iff_not] at low ⊢
  omega

theorem unescape_append (decodes : Decodes front text) (back : List Char) :
    unescape (front ++ back) = (unescape back).map (text ++ ·) := by
  unfold unescape
  induction decodes with
  | nil =>
    rw [List.nil_append]
    cases decode (pieces back) <;> rfl
  | plain literal _ ih =>
    rw [List.cons_append,pieces_bare literal,decode,ih]
    cases decode (pieces back) <;> rfl
  | escape named _ ih =>
    rw [List.cons_append,List.cons_append,pieces_escaped named,decode,ih]
    cases decode (pieces back) <;> rfl
  | unit denotes high low _ ih =>
    rw [List.cons_append,List.cons_append,List.append_assoc,pieces_denoted denotes,decode_single high low,ih]
    cases decode (pieces back) <;> rfl
  | pair denotes high denotes' low _ ih =>
    rw [List.cons_append,List.cons_append,List.append_assoc,pieces_denoted denotes,List.cons_append,List.cons_append,
      List.append_assoc,pieces_denoted denotes']
    simp only [decode,high,low,if_true,ih]
    cases decode (pieces back) <;> rfl

theorem unescape_decodes (decodes : Decodes raw text) : unescape raw = .ok text := by
  have alone := unescape_append decodes []
  rw [List.append_nil] at alone
  rw [alone]
  exact congrArg Except.ok (List.append_nil text)

theorem unescape_breaks (breaks : Breaks back) : ∃ fault, unescape back = .error fault := by
  unfold unescape
  cases breaks with
  | malformed undenoted =>
    obtain ⟨digits,read⟩ := pieces_undenoted undenoted
    exact ⟨.malformed digits,by rw [read,decode]⟩
  | @unpaired digits code raw denotes high alone =>
    refine ⟨.unpaired code,?_⟩
    rw [pieces_denoted denotes]
    rcases read : pieces raw with _ | ⟨_ | code' | _,later⟩ <;> simp only [decode,high,if_true]
    obtain ⟨digits',rest,spelled,denotes'⟩ := pieces_unit read
    rw [alone digits' rest code' spelled denotes']
    rfl
  | @lone digits code raw denotes low =>
    refine ⟨.invalid code,?_⟩
    rw [pieces_denoted denotes]
    rcases pieces raw with _ | ⟨_ | _ | _,later⟩ <;> simp [decode,low_alone low,low]

theorem unescape_faulty (faulty : Faulty raw) : ∃ fault, unescape raw = .error fault := by
  obtain ⟨front,back,text,rfl,decodes,breaks⟩ := faulty
  obtain ⟨fault,stopped⟩ := unescape_breaks breaks
  exact ⟨fault,by rw [unescape_append decodes,stopped]; rfl⟩

-- No escape is cut off at the end.
def Uncut (text : List Char) : Prop := Whole (· ≠ '\\') (fun _ => True) text

theorem uncut_tail (whole : Uncut (c :: text)) (literal : c ≠ '\\') : Uncut text := by
  cases whole with
  | plain _ later => exact later
  | escape => exact absurd rfl literal

theorem uncut_rest (whole : Uncut (front ++ rest)) (literal : ∀ c ∈ front, c ≠ '\\') : Uncut rest := by
  induction front with
  | nil => exact whole
  | cons c front ih =>
    obtain ⟨first,others⟩ := List.forall_mem_cons.mp literal
    exact ih (uncut_tail whole first) others

theorem uncut_escape (whole : Uncut ('\\' :: c :: text)) : Uncut text := by
  cases whole with
  | plain literal => exact absurd rfl literal
  | escape _ later => exact later

theorem denotes_literal (denotes : Denotes digits code) : ∀ c ∈ digits, c ≠ '\\' := by
  obtain ⟨a,b,c,d,rfl⟩ := denotes_four denotes
  have value := denotes.2
  have none : Text.hexDigit? '\\' = none := rfl
  simp only [Text.hexValue?,List.foldlM_cons,List.foldlM_nil] at value
  rintro _ member rfl
  simp only [List.mem_cons,List.not_mem_nil,or_false] at member
  rcases member with rfl | rfl | rfl | rfl <;> simp [none] at value

theorem decodes_append (one : Decodes front text) (two : Decodes back text') :
    Decodes (front ++ back) (text ++ text') := by
  induction one with
  | nil => exact two
  | plain literal _ ih => exact .plain literal ih
  | escape named _ ih => exact .escape named ih
  | unit denotes high low _ ih =>
    rw [List.cons_append,List.cons_append,List.append_assoc]
    exact .unit denotes high low ih
  | pair denotes high denotes' low _ ih =>
    rw [List.cons_append,List.cons_append,List.append_assoc,List.cons_append,List.cons_append,List.append_assoc]
    exact .pair denotes high denotes' low ih

theorem faulty_append (one : Decodes front text) (faulty : Faulty back) : Faulty (front ++ back) := by
  obtain ⟨inner,rest,text',rfl,decodes,breaks⟩ := faulty
  exact ⟨front ++ inner,rest,text ++ text',(List.append_assoc _ _ _).symm,decodes_append one decodes,breaks⟩

theorem uncut_unit (whole : Uncut raw) : Breaks ('\\' :: 'u' :: raw) ∨ ∃ front rest text,
    '\\' :: 'u' :: raw = front ++ rest ∧ rest.length ≤ raw.length ∧ Decodes front text ∧ Uncut rest := by
  by_cases denoted : ∃ digits later code, raw = digits ++ later ∧ Denotes digits code
  · obtain ⟨digits,later,code,rfl,denotes⟩ := denoted
    have behind : Uncut later := uncut_rest whole (denotes_literal denotes)
    cases high : Text.isHighSurrogate code with
    | true =>
      by_cases paired : ∃ digits' rest code', later = '\\' :: 'u' :: (digits' ++ rest) ∧ Denotes digits' code' ∧
          Text.isLowSurrogate code' = true
      · obtain ⟨digits',rest,code',rfl,denotes',low⟩ := paired
        refine .inr ⟨_,rest,_,?_,?_,.pair denotes high denotes' low .nil,?_⟩
        · simp
        · simp only [List.length_append,List.length_cons]
          omega
        · exact uncut_rest (uncut_escape behind) (denotes_literal denotes')
      · refine .inl (.unpaired denotes high fun digits' rest code' spelled denotes' => ?_)
        rw [← Bool.not_eq_true]
        exact fun low => paired ⟨digits',rest,code',spelled,denotes',low⟩
    | false =>
      cases low : Text.isLowSurrogate code with
      | true => exact .inl (.lone denotes low)
      | false =>
        refine .inr ⟨_,later,_,?_,?_,.unit denotes high low .nil,behind⟩
        · simp
        · rw [List.length_append]
          omega
  · exact .inl (.malformed fun digits later code spelled denotes => denoted ⟨digits,later,code,spelled,denotes⟩)

theorem uncut_step (whole : Uncut (c :: raw)) : Breaks (c :: raw) ∨ ∃ front rest text,
    c :: raw = front ++ rest ∧ rest.length ≤ raw.length ∧ Decodes front text ∧ Uncut rest := by
  cases whole with
  | plain literal later => exact .inr ⟨[c],raw,[c],rfl,Nat.le_refl _,.plain literal .nil,later⟩
  | @escape d raw _ later =>
    by_cases unit : d = 'u'
    · subst unit
      rcases uncut_unit later with breaks | ⟨front,rest,text,split,shorter,step⟩
      · exact .inl breaks
      · exact .inr ⟨front,rest,text,split,Nat.le_succ_of_le shorter,step⟩
    · exact .inr ⟨['\\',d],raw,[control d],rfl,Nat.le_succ _,.escape unit .nil,later⟩

theorem uncut_read (whole : Uncut raw) : (∃ text, Decodes raw text) ∨ Faulty raw := by
  induction size : raw.length using Nat.strongRecOn generalizing raw with
  | ind n ih =>
    cases raw with
    | nil => exact .inl ⟨[],.nil⟩
    | cons c raw =>
      rcases uncut_step whole with breaks | ⟨front,rest,text,split,shorter,decodes,whole'⟩
      · exact .inr ⟨[],c :: raw,[],rfl,.nil,breaks⟩
      · rw [split]
        rcases ih rest.length (by rw [← size,List.length_cons]; omega) whole' rfl with ⟨text',later⟩ | faulty
        · exact .inl ⟨text ++ text',decodes_append decodes later⟩
        · exact .inr (faulty_append decodes faulty)

end Phrasebook.Properties
