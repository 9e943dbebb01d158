import Phrasebook.Proofs.Outcome
import Phrasebook.Proofs.Template.Positions
namespace Phrasebook.Template

-- Tokenizing as a program does it that holds the template as bytes. Every slice is
-- checked, and so is the place where reading goes on behind a tag. No check fails,
-- and the tokens are the same.

inductive Breach where
  -- a slice that is turned round, leaves the text or cuts a character
  | slice
  -- reading goes on before the end of a tag or behind it
  | overrun
  -- the root is not at the bottom of the open spans, or something above it is unnamed
  | unrooted
  -- no span is open that could take the nodes
  | spanless
  -- the insertions go deeper than they may
  | depth
  -- the depth no longer fits into a machine word
  | overflow
  deriving DecidableEq, Repr

def slice (text : String) (first last : Nat) : Except Breach String :=
  if inside : String.Pos.Raw.IsValid text ⟨first⟩ ∧ String.Pos.Raw.IsValid text ⟨last⟩ ∧ first ≤ last then
    .ok (String.extract (⟨⟨first⟩,inside.1⟩ : text.Pos) ⟨⟨last⟩,inside.2.1⟩)
  else .error .slice

def charIndices (index : Nat) : List Char → List (Nat × Char)
  | [] => []
  | c :: rest => (index,c) :: charIndices (index + c.utf8Size) rest

-- The parts of the tag that opens at `start`, and the byte behind it. Bytes are counted
-- from behind the bracket; `parts` are those before the current one, which is `value`,
-- last character first.
def scanBytes (start : Nat) (parts : List (List Char)) (value : List Char) (quote : Option Char) :
    List (Nat × Char) → Option (List (List Char) × Nat)
  | [] => none
  | (index,c) :: rest => match quote with
    | some mark =>
      if c = '\\' then match rest with
        | [] => none
        | (after,next) :: later =>
          if next = mark ∨ next = '\\' then scanBytes start parts (next :: value) quote later
          else scanBytes start parts (c :: value) quote ((after,next) :: later)
      else if c = mark then scanBytes start parts value none rest
      else scanBytes start parts (c :: value) quote rest
    | none =>
      if isQuote c && value.isEmpty && !parts.isEmpty then scanBytes start parts value (some c) rest
      else if c = ':' then scanBytes start (parts ++ [value.reverse]) [] none rest
      else if c = '>' then some (parts ++ [value.reverse],start + 1 + index + 1)
      else if c = '<' ∨ c = '\n' then none
      else scanBytes start parts (c :: value) none rest

def tagToken (written : String) (position : Nat) : List (List Char) → Option Token
  | [] => none
  | head :: arguments =>
    if isTagName (nameOf head) then
      let site : Site := ⟨String.ofList (nameOf head),written,position⟩
      if isClosing head then some (.closing site) else some (.opening site (arguments.map String.ofList))
    else none

def guardedTag (source : String) (start : Nat) : Except Breach (Option (Token × Nat)) := do
  let behind ← slice source (start + 1) source.utf8ByteSize
  match scanBytes start [] [] none (charIndices 0 behind.toList) with
  | none => .ok none
  | some (parts,stop) => do
    let written ← slice source start stop
    return (tagToken written start parts).map (·,stop)

-- All characters that begin before the end of a tag are skipped; the next one, or the
-- end of the template, has to be right there.
def guardedTokens (source : String) (run : List Char) : List (Nat × Char) → Except Breach (List Token)
  | [] => .ok (textToken run)
  | (_,'\\') :: (_,'<') :: rest => guardedTokens source ('<' :: run) rest
  | (_,'\\') :: (_,'\\') :: rest => guardedTokens source ('\\' :: run) rest
  | (start,'<') :: rest => do
    match ← guardedTag source start with
    | none => guardedTokens source ('<' :: run) rest
    | some (token,stop) =>
      let later := rest.dropWhile (·.1 < stop)
      if (later.head?.map (·.1)).getD source.utf8ByteSize = stop then do
        return textToken run ++ token :: (← guardedTokens source [] later)
      else .error .overrun
  | (_,c) :: rest => guardedTokens source (c :: run) rest
termination_by chars => chars.length
decreasing_by
  · exact Nat.lt_succ_of_lt (Nat.lt_succ_self _)
  · exact Nat.lt_succ_of_lt (Nat.lt_succ_self _)
  · exact Nat.lt_succ_self _
  · exact Nat.lt_succ_of_le (List.dropWhile_sublist _).length_le
  · exact Nat.lt_succ_self _

theorem byteLength_cons (c : Char) (text : List Char) :
    Text.byteLength (c :: text) = c.utf8Size + Text.byteLength text := rfl

theorem slice_append (before text after : List Char) :
    slice (String.ofList (before ++ (text ++ after))) (Text.byteLength before)
      (Text.byteLength before + Text.byteLength text) = .ok (String.ofList text) := by
  have first : String.Pos.Raw.IsValid (String.ofList (before ++ (text ++ after))) ⟨Text.byteLength before⟩ := by
    refine String.Pos.Raw.isValid_iff_exists_append.mpr ⟨String.ofList before,String.ofList (text ++ after),?_,?_⟩
    · exact String.ofList_append
    · rw [byteLength_size]
      rfl
  have last : String.Pos.Raw.IsValid (String.ofList (before ++ (text ++ after)))
      ⟨Text.byteLength before + Text.byteLength text⟩ := by
    refine String.Pos.Raw.isValid_iff_exists_append.mpr ⟨String.ofList (before ++ text),String.ofList after,?_,?_⟩
    · simp [← String.ofList_append]
    · rw [← byteLength_append,byteLength_size]
      rfl
  rw [slice,dif_pos ⟨first,last,Nat.le_add_right _ _⟩]
  congr 1
  rw [← String.toByteArray_inj,String.toByteArray_extract]
  simp only [byteLength_size,← String.size_toByteArray,String.ofList_append,String.toByteArray_append]
  exact (ByteArray.extract_append_size_add (i := 0)).trans (ByteArray.extract_append_eq_left rfl)

example : slice "é<b>" 1 2 = .error .slice := by decide

-- The bytes up to the end of the text stay the same from character to character, so
-- that a tag ends where the bytes behind it begin.
theorem bytes_arguments (filled : parts ≠ []) (whole : start + 1 + index + Text.byteLength text = total) :
    scanBytes start parts value quote (charIndices index text) =
      (scanArguments quote value text).map fun (arguments,rest) =>
        (parts ++ arguments,total - Text.byteLength rest) := by
  have behind {c : Char} {later : List Char} {index : Nat}
      (whole : start + 1 + index + Text.byteLength (c :: later) = total) :
      start + 1 + (index + c.utf8Size) + Text.byteLength later = total := by
    simp [byteLength_cons] at whole
    omega
  fun_induction scanArguments quote value text generalizing parts index with
  | case1 quote value => simp [charIndices,scanBytes]
  | case2 value mark => simp [charIndices,scanBytes]
  | case3 value mark next later special ih =>
    simp [charIndices,scanBytes,special]
    exact ih filled (behind (behind whole))
  | case4 value mark next later plain ih =>
    simp [charIndices,scanBytes,plain]
    exact ih filled (behind whole)
  | case5 value later mark notBackslash ih =>
    rw [charIndices,scanBytes.eq_def]
    simp [notBackslash]
    exact ih filled (behind whole)
  | case6 value c later mark notBackslash notMark ih =>
    rw [charIndices,scanBytes.eq_def]
    simp [notBackslash,notMark]
    exact ih filled (behind whole)
  | case7 value c later opens ih =>
    simp [charIndices,scanBytes,opens,filled]
    exact ih filled (behind whole)
  | case8 value later fresh ih =>
    simp [charIndices,scanBytes,fresh]
    rw [ih (by simp) (behind whole)]
    cases scanArguments none [] later <;> simp
  | case9 value later fresh notColon =>
    have last := behind whole
    have narrow : Char.utf8Size '>' = 1 := rfl
    simp [charIndices,scanBytes,fresh]
    omega
  | case10 value c later fresh notColon notEnd stops => simp [charIndices,scanBytes,fresh,notColon,notEnd,stops]
  | case11 value c later fresh notColon notEnd plain ih =>
    simp [charIndices,scanBytes,fresh,notColon,notEnd,plain]
    exact ih filled (behind whole)

theorem parts_cons (plain : isHeadChar c = true) (text : List Char) :
    scanParts (c :: text) =
      (scanParts text).map fun (head,arguments,rest) => (c :: head,arguments,rest) := by
  simp [scanParts,plain]
  split
  · simp
  · simp [Function.comp_def]
  · simp

theorem bytes_parts (whole : start + 1 + index + Text.byteLength text = total) :
    scanBytes start [] value none (charIndices index text) =
      (scanParts text).map fun (head,arguments,rest) =>
        ((value.reverse ++ head) :: arguments,total - Text.byteLength rest) := by
  induction text generalizing value index with
  | nil => simp [charIndices,scanBytes,scanParts]
  | cons c text ih =>
    have behind : start + 1 + (index + c.utf8Size) + Text.byteLength text = total := by
      simp [byteLength_cons] at whole
      omega
    by_cases plain : isHeadChar c = true
    · rw [parts_cons plain]
      simp [isHeadChar] at plain
      simp [charIndices,scanBytes,plain,ih behind,Function.comp_def]
    · simp [isHeadChar] at plain
      by_cases colon : c = ':'
      · subst colon
        simp [charIndices,scanBytes,scanParts,isHeadChar,bytes_arguments _ behind,isQuote,Function.comp_def]
      by_cases last : c = '>'
      · subst last
        have narrow : Char.utf8Size '>' = 1 := rfl
        simp [charIndices,scanBytes,scanParts,isHeadChar,isQuote]
        omega
      · have stops : c = '<' ∨ c = '\n' := or_iff_not_imp_left.mpr (plain colon last)
        rcases stops with rfl | rfl <;> simp [charIndices,scanBytes,scanParts,isHeadChar,isQuote]

theorem slice_behind (before rest : List Char) :
    slice (String.ofList (before ++ '<' :: rest)) (Text.byteLength before + 1)
      (String.ofList (before ++ '<' :: rest)).utf8ByteSize = .ok (String.ofList rest) := by
  have cut := slice_append (before ++ ['<']) rest []
  have one : Text.byteLength ['<'] = 1 := rfl
  have narrow : Char.utf8Size '<' = 1 := rfl
  rw [← byteLength_size]
  simpa [byteLength_append,byteLength_cons,Nat.add_assoc,one,narrow] using cut

theorem guarded_tag (before rest : List Char) :
    guardedTag (String.ofList (before ++ '<' :: rest)) (Text.byteLength before) =
      .ok ((scanTag rest).map fun tag =>
        (tag.token (Text.byteLength before),Text.byteLength before + Text.byteLength tag.source)) := by
  have bytes : scanBytes (Text.byteLength before) [] [] none (charIndices 0 rest) = _ := bytes_parts rfl
  simp only [guardedTag,slice_behind,String.toList_ofList,bytes,bind,Except.bind]
  cases parts : scanParts rest with
  | none => simp [scanTag,parts]
  | some found =>
    obtain ⟨head,arguments,later⟩ := found
    obtain ⟨body,rfl,same⟩ := parts_end parts
    have stop : Text.byteLength before + 1 + Text.byteLength (body ++ later) - Text.byteLength later =
        Text.byteLength before + Text.byteLength ('<' :: body) := by
      have narrow : Char.utf8Size '<' = 1 := rfl
      simp [byteLength_append,byteLength_cons]
      omega
    have written := slice_append before ('<' :: body) later
    rw [List.cons_append] at written
    simp only [Option.map_some,Nat.add_zero,stop,written,List.reverse_nil,List.nil_append]
    by_cases valid : isTagName (nameOf head) = true
    · rw [tag_of_parts parts valid]
      simp [tagToken,valid,Lexeme.token,pure,Except.pure]
      split <;> rfl
    · simp [tagToken,scanTag,parts,valid,pure,Except.pure]

theorem skip_written (written later : List Char) (index : Nat) :
    (charIndices index (written ++ later)).dropWhile (·.1 < index + Text.byteLength written) =
      charIndices (index + Text.byteLength written) later := by
  induction written generalizing index with
  | nil => cases later <;> simp [charIndices,Text.byteLength]
  | cons c written ih =>
    have wide := c.utf8Size_pos
    simp [charIndices,byteLength_cons]
    rw [List.dropWhile_cons_of_pos (by simp; omega)]
    simp [← Nat.add_assoc,ih]

-- A reader stands at the byte of the template where the text still to be read begins.
def Reached (source : String) (position : Nat) (text : List Char) : Prop :=
  ∃ before, source = String.ofList (before ++ text) ∧ position = Text.byteLength before

theorem reached_further (consumed : List Char) (reached : Reached source position (consumed ++ rest)) :
    Reached source (position + Text.byteLength consumed) rest := by
  obtain ⟨before,rfl,rfl⟩ := reached
  exact ⟨before ++ consumed,by simp,(byteLength_append before consumed).symm⟩

theorem reached_size (reached : Reached source position text) :
    source.utf8ByteSize = position + Text.byteLength text := by
  obtain ⟨before,rfl,rfl⟩ := reached
  rw [← byteLength_size,byteLength_append]

theorem resumes (reached : Reached source position text) :
    ((charIndices position text).head?.map (·.1)).getD source.utf8ByteSize = position := by
  cases text with
  | nil => simpa [charIndices,Text.byteLength] using reached_size reached
  | cons c rest => simp [charIndices]

theorem charIndices_head (indices : charIndices index text = (place,c) :: later) :
    ∃ rest, text = c :: rest := by
  cases text with
  | nil => cases indices
  | cons first rest =>
    cases indices
    exact ⟨rest,rfl⟩

theorem guarded_from (reached : Reached source position text) :
    guardedTokens source run (charIndices position text) = .ok (tokensFrom position run text) := by
  fun_induction tokensFrom position run text with
  | case1 position run => simp [charIndices,guardedTokens]
  | case2 position run rest ih =>
    simp only [charIndices,guardedTokens]
    exact ih (reached_further ['\\','<'] reached)
  | case3 position run rest ih =>
    simp only [charIndices,guardedTokens]
    exact ih (reached_further ['\\','\\'] reached)
  | case4 position run rest tag scanned ih =>
    obtain ⟨body,split,written,same⟩ := tag_ends scanned
    have found : guardedTag source position = .ok (some (tag.token position,position + Text.byteLength tag.source)) := by
      obtain ⟨before,rfl,rfl⟩ := reached
      rw [guarded_tag,scanned,Option.map_some]
    have behind : Reached source (position + Text.byteLength tag.source) tag.rest := by
      apply reached_further tag.source
      rwa [written,List.cons_append,← split]
    have skipped : (charIndices (position + Char.utf8Size '<') rest).dropWhile
        (·.1 < position + Text.byteLength tag.source) =
          charIndices (position + Text.byteLength tag.source) tag.rest := by
      simp only [written,split,byteLength_cons,← Nat.add_assoc]
      exact skip_written body tag.rest (position + Char.utf8Size '<')
    simp only [charIndices,guardedTokens,found,bind,Except.bind,skipped,if_pos (resumes behind),ih behind]
    rfl
  | case5 position run rest missing ih =>
    have found : guardedTag source position = .ok none := by
      obtain ⟨before,rfl,rfl⟩ := reached
      rw [guarded_tag,missing,Option.map_none]
    simp only [charIndices,guardedTokens,found,bind,Except.bind]
    exact ih (reached_further ['<'] reached)
  | case6 position run c rest noBracket noBackslash notBracket ih =>
    rw [charIndices,guardedTokens]
    · exact ih (reached_further [c] reached)
    · intro place later indices backslash
      obtain ⟨behind,split⟩ := charIndices_head indices
      exact noBracket behind backslash split
    · intro place later indices backslash
      obtain ⟨behind,split⟩ := charIndices_head indices
      exact noBackslash behind backslash split
    · exact notBracket

def guardedTokenize (template : String) : Except Breach (List Token) :=
  guardedTokens template [] (charIndices 0 template.toList)

theorem guarded_tokenize (template : String) : guardedTokenize template = .ok (tokenize template) :=
  guarded_from ⟨[],by simp,rfl⟩

end Phrasebook.Template
