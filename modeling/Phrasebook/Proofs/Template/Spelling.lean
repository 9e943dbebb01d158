import Mathlib.Data.List.Chain
import Phrasebook.Template.Token
namespace Phrasebook.Template

-- Templates written from their parts. What is written is read back as exactly
-- those parts, whatever text and arguments they hold.

def escape (special : Char) (text : List Char) : List Char :=
  text.flatMap fun c => if c = '\\' ∨ c = special then ['\\',c] else [c]

inductive Mark where
  | single
  | double
  deriving DecidableEq, Repr

def Mark.char : Mark → Char
  | .single => '\''
  | .double => '"'

structure Quoted where
  mark : Mark
  value : String
  deriving DecidableEq, Repr

def Quoted.written (argument : Quoted) : List Char :=
  argument.mark.char :: (escape argument.mark.char argument.value.toList ++ [argument.mark.char])

def writeArguments (arguments : List Quoted) : List Char :=
  arguments.flatMap fun argument => ':' :: argument.written

inductive Piece where
  | text (content : String)
  | opening (name : String) (arguments : List Quoted)
  | closing (name : String)
  deriving DecidableEq, Repr

namespace Piece

def written : Piece → List Char
  | .text content => escape '<' content.toList
  | .opening name arguments => '<' :: (name.toList ++ (writeArguments arguments ++ ['>']))
  | .closing name => '<' :: '/' :: (name.toList ++ ['>'])

def isText : Piece → Bool
  | .text _ => true
  | _ => false

def isValid : Piece → Bool
  | .text content => !content.isEmpty
  | .opening name _ => isTagName name.toList
  | .closing name => isTagName name.toList

def token (position : Nat) (piece : Piece) : Token :=
  match piece with
  | .text content => .text content
  | .opening name arguments =>
    .opening ⟨name,String.ofList piece.written,position⟩ (arguments.map Quoted.value)
  | .closing name => .closing ⟨name,String.ofList piece.written,position⟩

end Piece

def write (pieces : List Piece) : List Char := pieces.flatMap Piece.written

def tokensAt (position : Nat) : List Piece → List Token
  | [] => []
  | piece :: rest => piece.token position ::
      tokensAt (position + (String.ofList piece.written).utf8ByteSize) rest

-- Two texts side by side would be read as one, and an empty one not at all.
structure Writable (pieces : List Piece) : Prop where
  valid : ∀ piece ∈ pieces, piece.isValid = true
  apart : pieces.IsChain fun one two => (one.isText && two.isText) = false

theorem byteLength_append (one two : List Char) :
    Text.byteLength (one ++ two) = Text.byteLength one + Text.byteLength two := by
  induction one with
  | nil => simp [Text.byteLength]
  | cons c rest ih =>
    simp only [Text.byteLength,List.cons_append,List.foldr_cons] at ih ⊢
    omega

theorem byteLength_size (text : List Char) :
    Text.byteLength text = (String.ofList text).utf8ByteSize := by
  induction text with
  | nil => rfl
  | cons c rest ih =>
    rw [String.ofList_cons,String.utf8ByteSize_append,String.utf8ByteSize_singleton,← ih]
    rfl

theorem write_append (one two : List Piece) : write (one ++ two) = write one ++ write two :=
  List.flatMap_append

theorem tokensAt_append (one two : List Piece) (position : Nat) :
    tokensAt position (one ++ two) =
      tokensAt position one ++ tokensAt (position + (String.ofList (write one)).utf8ByteSize) two := by
  induction one generalizing position with
  | nil => rfl
  | cons piece rest ih =>
    have written : write (piece :: rest) = piece.written ++ write rest := rfl
    rw [List.cons_append,tokensAt,tokensAt,ih,List.cons_append,written,String.ofList_append,
      String.utf8ByteSize_append,Nat.add_assoc]

theorem tokens_escaped (special : c = '\\' ∨ c = '<') (position : Nat) (run rest : List Char) :
    tokensFrom position run ('\\' :: c :: rest) = tokensFrom (position + 2) (c :: run) rest := by
  rcases special with rfl | rfl <;> rw [tokensFrom]

theorem tokens_literal (plain : ¬(c = '\\' ∨ c = '<')) (position : Nat) (run rest : List Char) :
    tokensFrom position run (c :: rest) = tokensFrom (position + c.utf8Size) (c :: run) rest := by
  obtain ⟨backslash,bracket⟩ := not_or.mp plain
  rw [tokensFrom]
  · exact fun _ equal => absurd equal backslash
  · exact fun _ equal => absurd equal backslash
  · exact fun equal => absurd equal bracket

theorem tokens_tag {tag : Lexeme} (scanned : scanTag rest = some tag) (position : Nat) (run : List Char) :
    tokensFrom position run ('<' :: rest) = textToken run ++
      tag.token position :: tokensFrom (position + Text.byteLength tag.source) [] tag.rest := by
  rw [tokensFrom]
  split
  · rename_i found same
    rw [scanned] at same
    cases same
    rfl
  · rename_i missing
    rw [scanned] at missing
    cases missing

theorem tokens_text (text : List Char) (position : Nat) (run rest : List Char) :
    tokensFrom position run (escape '<' text ++ rest) =
      tokensFrom (position + Text.byteLength (escape '<' text)) (text.reverse ++ run) rest := by
  induction text generalizing position run with
  | nil => rfl
  | cons c text ih =>
    simp only [escape,List.flatMap_cons,List.append_assoc]
    rw [byteLength_append,← Nat.add_assoc,List.reverse_cons,List.append_assoc]
    by_cases special : c = '\\' ∨ c = '<'
    · have width : Text.byteLength ['\\',c] = 2 := by rcases special with rfl | rfl <;> rfl
      simp only [if_pos special,width,List.cons_append,List.nil_append]
      rw [tokens_escaped special]
      exact ih _ _
    · simp only [if_neg special,List.cons_append,List.nil_append]
      rw [tokens_literal special]
      exact ih _ _

theorem scan_escaped {mark : Char} (special : c = '\\' ∨ c = mark) (value rest : List Char) :
    scanArguments (some mark) value ('\\' :: c :: rest) = scanArguments (some mark) (c :: value) rest := by
  rw [scanArguments.eq_def]
  simp [special.symm]

theorem scan_literal {mark : Char} (plain : ¬(c = '\\' ∨ c = mark)) (value rest : List Char) :
    scanArguments (some mark) value (c :: rest) = scanArguments (some mark) (c :: value) rest := by
  obtain ⟨backslash,quote⟩ := not_or.mp plain
  rw [scanArguments.eq_def]
  simp [backslash,quote]

theorem scan_unquoted {mark : Char} (notBackslash : mark ≠ '\\') (value rest : List Char) :
    scanArguments (some mark) value (mark :: rest) = scanArguments none value rest := by
  rw [scanArguments.eq_def]
  simp [notBackslash]

theorem scan_quoted {mark : Char} (notBackslash : mark ≠ '\\') (text value rest : List Char) :
    scanArguments (some mark) value (escape mark text ++ mark :: rest) =
      scanArguments none (text.reverse ++ value) rest := by
  induction text generalizing value with
  | nil => exact scan_unquoted notBackslash value rest
  | cons c text ih =>
    simp only [escape,List.flatMap_cons,List.append_assoc]
    rw [List.reverse_cons,List.append_assoc]
    by_cases special : c = '\\' ∨ c = mark
    · simp only [if_pos special,List.cons_append,List.nil_append]
      rw [scan_escaped special]
      exact ih _
    · simp only [if_neg special,List.cons_append,List.nil_append]
      rw [scan_literal special]
      exact ih _

theorem scan_argument (argument : Quoted) (rest : List Char) :
    scanArguments none [] (argument.written ++ rest) =
      scanArguments none argument.value.toList.reverse rest := by
  have opens : isQuote argument.mark.char = true := by cases argument.mark <;> rfl
  have notBackslash : argument.mark.char ≠ '\\' := by cases argument.mark <;> decide
  have quoted := scan_quoted notBackslash argument.value.toList [] rest
  simp only [Quoted.written,List.cons_append,List.append_assoc,List.nil_append] at quoted ⊢
  rw [scanArguments,opens]
  simpa using quoted

theorem scan_arguments (argument : Quoted) (others : List Quoted) (rest : List Char) :
    scanArguments none [] (argument.written ++ (writeArguments others ++ '>' :: rest)) =
      some ((argument :: others).map (·.value.toList),rest) := by
  induction others generalizing argument with
  | nil => simp [writeArguments,scan_argument,scanArguments,isQuote]
  | cons next others ih =>
    rw [scan_argument]
    simp only [writeArguments,List.flatMap_cons,List.cons_append,List.append_assoc] at ih ⊢
    simp [scanArguments,isQuote,ih]

theorem scan_parts (head : List Char) (arguments : List Quoted) (rest : List Char)
    (plain : ∀ c ∈ head, isHeadChar c = true) :
    scanParts (head ++ (writeArguments arguments ++ '>' :: rest)) =
      some (head,arguments.map (·.value.toList),rest) := by
  rw [scanParts,List.dropWhile_append_of_pos plain,List.takeWhile_append_of_pos plain]
  cases arguments with
  | nil => simp [writeArguments,isHeadChar]
  | cons argument others =>
    have scanned := scan_arguments argument others rest
    simp only [writeArguments,List.flatMap_cons,List.cons_append,List.append_assoc] at scanned ⊢
    simp [isHeadChar,scanned]

theorem tagName_chars (valid : isTagName name = true) :
    ∀ c ∈ name, isNameMark c = true ∨ isNameChar c = true := by
  have within {rest : List Char} (rested : isName rest = true) : ∀ c ∈ rest, isNameChar c = true := by
    simp only [isName,Bool.and_eq_true,List.all_eq_true] at rested
    exact rested.2
  cases name with
  | nil => simp
  | cons first rest =>
    rw [isTagName] at valid
    split at valid
    · rename_i mark
      intro c member
      rcases List.mem_cons.mp member with rfl | later
      · exact .inl mark
      · exact .inr (within valid c later)
    · exact fun c member => .inr (within valid c member)

theorem isHeadChar_name (valid : isTagName name = true) : ∀ c ∈ name, isHeadChar c = true := by
  intro c member
  rcases tagName_chars valid c member with mark | letter
  · simp only [isNameMark,Bool.or_eq_true,beq_iff_eq] at mark
    rcases mark with (rfl | rfl) | rfl <;> rfl
  · simp only [isHeadChar,Bool.and_eq_true,bne_iff_ne]
    refine ⟨⟨⟨?_,?_⟩,?_⟩,?_⟩ <;> rintro rfl <;> exact absurd letter (by decide)

theorem isLower_code {c : Char} (lower : c.isLower = true) : 'a'.toNat ≤ c.toNat ∧ c.toNat ≤ 'z'.toNat := by
  obtain ⟨low,high⟩ := Bool.and_eq_true_iff.mp lower
  exact ⟨UInt32.le_iff_toNat_le.mp (of_decide_eq_true low),UInt32.le_iff_toNat_le.mp (of_decide_eq_true high)⟩

theorem name_code (valid : isNameMark c = true ∨ isNameChar c = true) :
    c.toNat < 0x80 ∧ ¬('A'.toNat ≤ c.toNat ∧ c.toNat ≤ 'Z'.toNat) := by
  rcases valid with mark | letter
  · simp only [isNameMark,Bool.or_eq_true,beq_iff_eq] at mark
    rcases mark with (rfl | rfl) | rfl <;> decide
  · simp only [isNameChar,Bool.or_eq_true,beq_iff_eq] at letter
    rcases letter with ((lower | digit) | rfl) | rfl
    · obtain ⟨low,high⟩ := isLower_code lower
      simp at low high ⊢
      omega
    · have high := (Char.isDigit_iff_toNat.mp digit).2
      simp at high ⊢
      omega
    · decide
    · decide

theorem lower_name (valid : isNameMark c = true ∨ isNameChar c = true) (before after : List Char) :
    Text.lowerAt before c after = [c] := by
  obtain ⟨ascii,notUpper⟩ := name_code valid
  have notSigma : c ≠ 'Σ' := by rintro rfl; exact absurd ascii (by decide)
  have notDotted : c ≠ 'İ' := by rintro rfl; exact absurd ascii (by decide)
  have fixed : c.toLower = c := dif_neg (by simpa [UInt32.le_iff_toNat_le] using notUpper)
  rw [Text.lowerAt,if_neg notSigma,if_neg notDotted,Text.lowerSimple,if_pos ascii,fixed]

theorem lower_fixed (valid : ∀ c ∈ name, isNameMark c = true ∨ isNameChar c = true) (before : List Char) :
    Text.lowerFrom before name = name := by
  induction name generalizing before with
  | nil => rfl
  | cons c rest ih =>
    rw [Text.lowerFrom,lower_name (valid c (by simp)),ih (fun later member => valid later (by simp [member]))]
    rfl

theorem name_ordinary (valid : isTagName name = true) :
    Text.lower name = name ∧ isClosing name = false := by
  refine ⟨lower_fixed (tagName_chars valid) [],?_⟩
  cases name with
  | nil => rfl
  | cons first rest =>
    rcases tagName_chars valid first (by simp) with mark | letter
    · simp only [isNameMark,Bool.or_eq_true,beq_iff_eq] at mark
      rcases mark with (rfl | rfl) | rfl <;> rfl
    · simp only [isClosing,List.head?_cons,beq_eq_false_iff_ne,ne_eq,Option.some.injEq]
      rintro rfl
      exact absurd letter (by decide)

theorem tag_of_parts (parts : scanParts (body ++ rest) = some (head,arguments,rest))
    (valid : isTagName (nameOf head) = true) :
    scanTag (body ++ rest) = some ⟨isClosing head,nameOf head,arguments,'<' :: body,rest⟩ := by
  have taken : (body ++ rest).take ((body ++ rest).length - rest.length) = body := by
    rw [List.length_append,Nat.add_sub_cancel,List.take_left]
  rw [scanTag,parts]
  simp only [if_pos valid]
  rw [taken]

theorem scan_tag {head rest : List Char} {arguments : List Quoted}
    (plain : ∀ c ∈ head, isHeadChar c = true) (valid : isTagName (nameOf head) = true) :
    scanTag (head ++ (writeArguments arguments ++ '>' :: rest)) =
      some ⟨isClosing head,nameOf head,arguments.map (·.value.toList),
        '<' :: (head ++ (writeArguments arguments ++ ['>'])),rest⟩ := by
  have split : head ++ (writeArguments arguments ++ '>' :: rest) =
      (head ++ (writeArguments arguments ++ ['>'])) ++ rest := by simp
  have parts := scan_parts head arguments rest plain
  rw [split] at parts ⊢
  exact tag_of_parts parts valid

theorem scan_opening (valid : isTagName name.toList = true) (arguments : List Quoted) (rest : List Char) :
    scanTag (name.toList ++ (writeArguments arguments ++ '>' :: rest)) =
      some ⟨false,name.toList,arguments.map (·.value.toList),(Piece.opening name arguments).written,rest⟩ := by
  obtain ⟨lower,opening⟩ := name_ordinary valid
  have named : nameOf name.toList = name.toList := by rw [nameOf,opening]; exact lower
  rw [scan_tag (isHeadChar_name valid) (by rw [named]; exact valid),named,opening]
  rfl

theorem scan_closing (valid : isTagName name.toList = true) (rest : List Char) :
    scanTag ('/' :: (name.toList ++ '>' :: rest)) =
      some ⟨true,name.toList,[],(Piece.closing name).written,rest⟩ := by
  have named : nameOf ('/' :: name.toList) = name.toList := (name_ordinary valid).1
  have plain : ∀ c ∈ '/' :: name.toList, isHeadChar c = true := by
    intro c member
    rcases List.mem_cons.mp member with rfl | later
    · rfl
    · exact isHeadChar_name valid c later
  have scanned := @scan_tag ('/' :: name.toList) rest [] plain (by rw [named]; exact valid)
  rw [named] at scanned
  exact scanned

theorem tokens_piece {piece : Piece} (valid : piece.isValid = true) (tagged : piece.isText = false)
    (position : Nat) (run rest : List Char) :
    tokensFrom position run (piece.written ++ rest) = textToken run ++ piece.token position ::
      tokensFrom (position + (String.ofList piece.written).utf8ByteSize) [] rest := by
  cases piece with
  | text content => cases tagged
  | opening name arguments =>
    simp only [Piece.written,List.cons_append,List.append_assoc,List.nil_append]
    rw [tokens_tag (scan_opening valid arguments rest),byteLength_size]
    simp [Lexeme.token,Piece.token,Piece.written,Function.comp_def]
  | closing name =>
    simp only [Piece.written,List.cons_append,List.append_assoc,List.nil_append]
    rw [tokens_tag (scan_closing valid rest),byteLength_size]
    simp [Lexeme.token,Piece.token,Piece.written]

theorem textToken_reverse {content : String} (filled : content.isEmpty = false) :
    textToken content.toList.reverse = [.text content] := by
  cases backwards : content.toList.reverse with
  | nil =>
    rw [List.reverse_eq_nil_iff,String.toList_eq_nil_iff] at backwards
    rw [backwards] at filled
    cases filled
  | cons c run =>
    rw [textToken,← backwards,List.reverse_reverse,String.ofList_toList]
    exact List.cons_ne_nil c run

-- The run holds the text just written, if there is one; then no text follows.
theorem tokens_written {pieces : List Piece} (writable : Writable pieces) (position : Nat)
    {run : List Char} (ended : run = [] ∨ ∀ piece ∈ pieces.head?, piece.isText = false) :
    tokensFrom position run (write pieces) = textToken run ++ tokensAt position pieces := by
  induction pieces generalizing position run with
  | nil => simp [write,tokensFrom,tokensAt]
  | cons piece rest ih =>
    obtain ⟨valid,apart⟩ := writable
    obtain ⟨neighbour,apart⟩ := List.isChain_cons.mp apart
    have later : Writable rest := ⟨fun other member => valid other (by simp [member]),apart⟩
    rw [write,List.flatMap_cons,← write,tokensAt]
    cases texted : piece.isText with
    | false => rw [tokens_piece (valid piece (by simp)) texted,ih later _ (.inl rfl),textToken,List.nil_append]
    | true =>
      cases piece with
      | opening name arguments => cases texted
      | closing name => cases texted
      | text content =>
        have empty : run = [] := by simpa [Piece.isText] using ended
        have next : ∀ piece ∈ rest.head?, piece.isText = false :=
          fun other member => by simpa [Piece.isText] using neighbour other member
        have filled : content.isEmpty = false := by simpa [Piece.isValid] using valid (.text content) (by simp)
        subst empty
        rw [Piece.written,tokens_text,List.append_nil,ih later _ (.inr next),textToken_reverse filled,
          byteLength_size]
        rfl

-- Reading gives back what was written.
theorem tokenize_write (pieces : List Piece) (writable : Writable pieces) :
    tokenize (String.ofList (write pieces)) = tokensAt 0 pieces := by
  rw [tokenize,String.toList_ofList]
  exact tokens_written writable 0 (.inl rfl)

theorem tokenize_write_quoted :
    let pieces := [.text "é<",.opening "c" [⟨.single,"it's\n>"⟩,⟨.double,""⟩],.closing "c"]
    Writable pieces ∧ String.ofList (write pieces) = "é\\<<c:'it\\'s\n>':\"\"></c>" ∧
      tokenize "é\\<<c:'it\\'s\n>':\"\"></c>" =
        [.text "é<",.opening ⟨"c","<c:'it\\'s\n>':\"\">",4⟩ ["it's\n>",""],.closing ⟨"c","</c>",20⟩] := by
  intro pieces
  have writable : Writable pieces := ⟨by decide,by decide⟩
  have spelled : String.ofList (write pieces) = "é\\<<c:'it\\'s\n>':\"\"></c>" := by decide +kernel
  have located : tokensAt 0 pieces =
      [.text "é<",.opening ⟨"c","<c:'it\\'s\n>':\"\">",4⟩ ["it's\n>",""],.closing ⟨"c","</c>",20⟩] := by
    decide +kernel
  have read := tokenize_write pieces writable
  rw [spelled,located] at read
  exact ⟨writable,spelled,read⟩

end Phrasebook.Template
