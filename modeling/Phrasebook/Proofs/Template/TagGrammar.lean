import Phrasebook.Proofs.Template.Positions
namespace Phrasebook.Template

-- The grammar of tags, stated apart from how they are scanned. The scanner finds a tag
-- exactly where the grammar has one.

-- The pattern [!?#]?[a-z0-9_-]+
def NamePattern (name : List Char) : Prop :=
  ∃ mark letters, name = mark ++ letters ∧ mark ∈ [[],['!'],['?'],['#']] ∧ letters ≠ [] ∧
    ∀ c ∈ letters, ('a' ≤ c ∧ c ≤ 'z') ∨ ('0' ≤ c ∧ c ≤ '9') ∨ c = '_' ∨ c = '-'

def Plain (c : Char) : Prop := c ≠ ':' ∧ c ≠ '>' ∧ c ≠ '<' ∧ c ≠ '\n'

-- A quoted piece from behind its opening quote to its closing one, and what it says.
inductive QuotedPiece (mark : Char) : List Char → List Char → Prop where
  | closing : QuotedPiece mark [mark] []
  | escaped (special : c = '\\' ∨ c = mark) (later : QuotedPiece mark written value) :
      QuotedPiece mark ('\\' :: c :: written) (c :: value)
  | literal (notMark : c ≠ mark) (unescaping : c = '\\' → ∀ next ∈ written.head?, ¬(next = '\\' ∨ next = mark))
      (later : QuotedPiece mark written value) : QuotedPiece mark (c :: written) (c :: value)

-- The rest of an argument of which `before` has been read, and its whole value.
inductive Denotes : (before written value : List Char) → Prop where
  | done : Denotes value [] value
  | quoted (opens : mark = '\'' ∨ mark = '"') (piece : QuotedPiece mark body said)
      (later : Denotes said written value) : Denotes [] (mark :: (body ++ written)) value
  | literal (plain : Plain c) (unopened : before = [] → ¬(c = '\'' ∨ c = '"'))
      (later : Denotes (before ++ [c]) written value) : Denotes before (c :: written) value

structure WrittenArgument where
  written : List Char
  value : List Char

def joinArguments (arguments : List WrittenArgument) : List Char :=
  arguments.flatMap fun argument => ':' :: argument.written

structure TagForm where
  head : List Char
  arguments : List WrittenArgument

namespace TagForm

def written (form : TagForm) : List Char := '<' :: (form.head ++ (joinArguments form.arguments ++ ['>']))

def name (form : TagForm) : List Char :=
  match form.head with
  | '/' :: stem => Text.lower stem
  | stem => Text.lower stem

structure Valid (form : TagForm) : Prop where
  plain : ∀ c ∈ form.head, Plain c
  named : NamePattern form.name
  denotes : ∀ argument ∈ form.arguments, Denotes [] argument.written argument.value

def token (form : TagForm) (position : Nat) : Token :=
  let site := ⟨String.ofList form.name,String.ofList form.written,position⟩
  if form.head.head? = some '/' then .closing site
  else .opening site (form.arguments.map fun argument => String.ofList argument.value)

end TagForm

theorem isHeadChar_iff : isHeadChar c = true ↔ Plain c := by
  simp [isHeadChar,Plain,and_assoc]

theorem isQuote_iff : isQuote c = true ↔ c = '\'' ∨ c = '"' := by
  simp [isQuote]

theorem isNameChar_iff : isNameChar c = true ↔
    ('a' ≤ c ∧ c ≤ 'z') ∨ ('0' ≤ c ∧ c ≤ '9') ∨ c = '_' ∨ c = '-' := by
  have lower : c.isLower = true ↔ 'a' ≤ c ∧ c ≤ 'z' :=
    Bool.and_eq_true_iff.trans (and_congr decide_eq_true_iff decide_eq_true_iff)
  have digit : c.isDigit = true ↔ '0' ≤ c ∧ c ≤ '9' :=
    Bool.and_eq_true_iff.trans (and_congr decide_eq_true_iff decide_eq_true_iff)
  simp only [isNameChar,Bool.or_eq_true,beq_iff_eq,lower,digit,or_assoc]

theorem isName_iff : isName letters = true ↔ letters ≠ [] ∧
    ∀ c ∈ letters, ('a' ≤ c ∧ c ≤ 'z') ∨ ('0' ≤ c ∧ c ≤ '9') ∨ c = '_' ∨ c = '-' := by
  simp [isName,isNameChar_iff]

theorem letter_unmarked (letter : isNameChar c = true) : isNameMark c = false := by
  cases mark : isNameMark c with
  | false => rfl
  | true =>
    simp only [isNameMark,Bool.or_eq_true,beq_iff_eq] at mark
    rcases mark with (rfl | rfl) | rfl <;> cases letter

theorem isTagName_iff : isTagName name = true ↔ NamePattern name := by
  constructor
  · intro valid
    cases name with
    | nil => cases valid
    | cons c rest =>
      rw [isTagName] at valid
      split at valid
      · rename_i mark
        refine ⟨[c],rest,rfl,?_,isName_iff.mp valid⟩
        simpa [isNameMark,or_assoc] using mark
      · exact ⟨[],c :: rest,rfl,by simp,isName_iff.mp valid⟩
  · intro pattern
    obtain ⟨mark,letters,whole,marked,named⟩ := pattern
    have valid : isName letters = true := isName_iff.mpr named
    subst whole
    simp only [List.mem_cons,List.not_mem_nil,or_false] at marked
    rcases marked with rfl | rfl | rfl | rfl
    · cases letters with
      | nil => cases valid
      | cons c rest =>
        have letter := letter_unmarked (isNameChar_iff.mpr (named.2 c (List.mem_cons_self ..)))
        rw [List.nil_append,isTagName,letter]
        exact valid
    all_goals exact valid

theorem nameOf_form (form : TagForm) : nameOf form.head = form.name := by
  cases form with
  | mk head arguments =>
    unfold TagForm.name
    split
    · rename_i stem slashed
      dsimp only at slashed
      subst slashed
      rfl
    · rename_i other
      have opening : isClosing head = false := by
        cases head with
        | nil => rfl
        | cons c stem =>
          by_cases slash : c = '/'
          · exact absurd (congrArg (· :: stem) slash) (other stem)
          · simpa [isClosing] using slash
      rw [nameOf,opening]
      rfl

theorem piece_scanned (piece : QuotedPiece mark body said) (notBackslash : mark ≠ '\\') (value rest : List Char) :
    scanArguments (some mark) value (body ++ rest) = scanArguments none (said.reverse ++ value) rest := by
  induction piece generalizing value with
  | closing => exact scan_unquoted notBackslash value rest
  | escaped special later ih =>
    rw [List.cons_append,List.cons_append,scan_escaped special,ih,List.reverse_cons,List.append_assoc]
    rfl
  | @literal c written said notMark unescaping later ih =>
    have step : scanArguments (some mark) value (c :: (written ++ rest)) =
        scanArguments (some mark) (c :: value) (written ++ rest) := by
      by_cases backslash : c = '\\'
      · cases later with
        | closing => exact absurd (.inr rfl) (unescaping backslash mark rfl)
        | escaped => exact absurd (.inl rfl) (unescaping backslash '\\' rfl)
        | @literal next =>
          have plain := unescaping backslash next rfl
          rw [List.cons_append,scanArguments.eq_def]
          simp [backslash,not_or.mp plain]
      · exact scan_literal (not_or.mpr ⟨backslash,notMark⟩) value _
    rw [List.cons_append,step,ih,List.reverse_cons,List.append_assoc]
    rfl

theorem denoted_scanned (denotes : Denotes before written value) (rest : List Char) :
    scanArguments none before.reverse (written ++ rest) = scanArguments none value.reverse rest := by
  induction denotes with
  | done => rfl
  | @quoted mark body said written value opens piece later ih =>
    have quote : isQuote mark = true := isQuote_iff.mpr opens
    have notBackslash : mark ≠ '\\' := by rcases opens with rfl | rfl <;> decide
    rw [List.cons_append,List.append_assoc,List.reverse_nil,scanArguments,quote]
    have scanned := piece_scanned piece notBackslash [] (written ++ rest)
    rw [List.append_nil,ih] at scanned
    exact scanned
  | @literal c before written value plain unopened later ih =>
    obtain ⟨colon,close,bracket,line⟩ := plain
    have fresh : (isQuote c && before.reverse.isEmpty) = false := by
      cases before with
      | nil => simpa [isQuote] using unopened rfl
      | cons first others => simp
    rw [List.reverse_append] at ih
    rw [List.cons_append,scanArguments,fresh,← ih]
    simp [colon,close,bracket,line]

theorem scan_colon (value rest : List Char) : scanArguments none value (':' :: rest) =
    (scanArguments none [] rest).map fun (arguments,rest) => (value.reverse :: arguments,rest) := by
  rw [scanArguments]
  simp [isQuote]

theorem scan_close (value rest : List Char) :
    scanArguments none value ('>' :: rest) = some ([value.reverse],rest) := by
  rw [scanArguments]
  simp [isQuote]

theorem joinArguments_cons (first : WrittenArgument) (others : List WrittenArgument) (rest : List Char) :
    joinArguments (first :: others) ++ rest = ':' :: (first.written ++ (joinArguments others ++ rest)) := by
  simp [joinArguments]

theorem arguments_scanned (first : WrittenArgument) (others : List WrittenArgument) (rest : List Char)
    (denotes : ∀ argument ∈ first :: others, Denotes [] argument.written argument.value) :
    scanArguments none [] (first.written ++ (joinArguments others ++ '>' :: rest)) =
      some ((first :: others).map WrittenArgument.value,rest) := by
  induction others generalizing first with
  | nil =>
    have scanned := denoted_scanned (denotes first (List.mem_cons_self ..)) ('>' :: rest)
    rwa [scan_close,List.reverse_reverse] at scanned
  | cons next others ih =>
    obtain ⟨here,behind⟩ := List.forall_mem_cons.mp denotes
    have scanned := denoted_scanned here (joinArguments (next :: others) ++ '>' :: rest)
    rw [List.reverse_nil] at scanned
    rw [scanned,joinArguments_cons,scan_colon,ih next behind,List.reverse_reverse]
    rfl

theorem parts_scanned {form : TagForm} (valid : form.Valid) (rest : List Char) :
    scanParts (form.head ++ (joinArguments form.arguments ++ '>' :: rest)) =
      some (form.head,form.arguments.map WrittenArgument.value,rest) := by
  have plain : ∀ c ∈ form.head, isHeadChar c = true := fun c member => isHeadChar_iff.mpr (valid.plain c member)
  rw [scanParts,List.dropWhile_append_of_pos plain,List.takeWhile_append_of_pos plain]
  cases listed : form.arguments with
  | nil => simp [joinArguments,isHeadChar]
  | cons first others =>
    have scanned := arguments_scanned first others rest (listed ▸ valid.denotes)
    rw [joinArguments_cons]
    simp [isHeadChar,scanned]

theorem form_scanned {form : TagForm} (valid : form.Valid) (whole : '<' :: text = form.written ++ rest) :
    scanTag text = some ⟨isClosing form.head,form.name,form.arguments.map WrittenArgument.value,form.written,rest⟩ := by
  have split : form.head ++ (joinArguments form.arguments ++ '>' :: rest) =
      (form.head ++ (joinArguments form.arguments ++ ['>'])) ++ rest := by simp
  have named : isTagName (nameOf form.head) = true := by
    rw [nameOf_form]
    exact isTagName_iff.mpr valid.named
  have parts := parts_scanned valid rest
  have behind : text = (form.head ++ (joinArguments form.arguments ++ ['>'])) ++ rest := (List.cons.inj whole).2
  rw [split] at parts
  rw [behind,tag_of_parts parts named,nameOf_form]
  rfl

-- The rest of the arguments and the end of the tag, where the value so far stands last
-- character first.
def DerivesPlain (value text : List Char) (arguments : List (List Char)) (rest : List Char) : Prop :=
  ∃ written first others, text = written ++ (joinArguments others ++ '>' :: rest) ∧
    Denotes value.reverse written first ∧ (∀ argument ∈ others, Denotes [] argument.written argument.value) ∧
    arguments = first :: others.map WrittenArgument.value

def Derives (quote : Option Char) (value text : List Char) (arguments : List (List Char)) (rest : List Char) : Prop :=
  match quote with
  | none => DerivesPlain value text arguments rest
  | some mark => ∃ body said after, text = body ++ after ∧ QuotedPiece mark body said ∧
      DerivesPlain (said.reverse ++ value) after arguments rest

theorem derives_quoted (derives : Derives (some mark) (c :: value) later arguments rest) (start : List Char)
    (longer : ∀ body said, QuotedPiece mark body said → (∃ after, later = body ++ after) →
      QuotedPiece mark (start ++ body) (c :: said)) :
    Derives (some mark) value (start ++ later) arguments rest := by
  obtain ⟨body,said,after,split,piece,plain⟩ := derives
  refine ⟨start ++ body,c :: said,after,?_,longer body said piece ⟨after,split⟩,?_⟩
  · rw [split,List.append_assoc]
  · rw [List.reverse_cons,List.append_assoc]
    exact plain

theorem derives_backslash (derives : Derives (some mark) ('\\' :: value) (next :: later) arguments rest)
    (notBackslash : mark ≠ '\\') (plain : ¬(next = '\\' ∨ next = mark)) :
    Derives (some mark) value ('\\' :: next :: later) arguments rest := by
  apply derives_quoted derives ['\\']
  intro body said piece present
  obtain ⟨after,split⟩ := present
  apply QuotedPiece.literal (Ne.symm notBackslash) _ piece
  intro _ first leads
  cases body with
  | nil => cases leads
  | cons other body =>
    cases leads
    cases split
    exact plain

theorem derives_opening (opens : mark = '\'' ∨ mark = '"') (derives : Derives (some mark) [] later arguments rest) :
    DerivesPlain [] (mark :: later) arguments rest := by
  obtain ⟨body,said,after,split,piece,written,first,others,ending,denotes,each,values⟩ := derives
  rw [List.append_nil,List.reverse_reverse] at denotes
  refine ⟨mark :: (body ++ written),first,others,?_,.quoted opens piece denotes,each,values⟩
  rw [split,ending,List.cons_append,List.append_assoc]

theorem derives_literal (plain : Plain c) (unopened : value = [] → ¬(c = '\'' ∨ c = '"'))
    (derives : DerivesPlain (c :: value) later arguments rest) : DerivesPlain value (c :: later) arguments rest := by
  obtain ⟨written,first,others,ending,denotes,each,values⟩ := derives
  rw [List.reverse_cons] at denotes
  have unquoted : value.reverse = [] → ¬(c = '\'' ∨ c = '"') := fun empty => unopened (List.reverse_eq_nil_iff.mp empty)
  refine ⟨c :: written,first,others,?_,.literal plain unquoted denotes,each,values⟩
  rw [ending,List.cons_append]

theorem derives_next (value : List Char) (derives : DerivesPlain [] later arguments rest) :
    DerivesPlain value (':' :: later) (value.reverse :: arguments) rest := by
  obtain ⟨written,first,others,ending,denotes,each,values⟩ := derives
  refine ⟨[],value.reverse,⟨written,first⟩ :: others,?_,.done,?_,congrArg _ values⟩
  · rw [ending,joinArguments_cons,List.nil_append]
  · exact List.forall_mem_cons.mpr ⟨denotes,each⟩

-- The induction follows the scanner. In quotes it reads the piece, outside the argument.
theorem scanned_derives (scanned : scanArguments quote value text = some (arguments,rest))
    (quoting : ∀ mark ∈ quote, mark ≠ '\\') : Derives quote value text arguments rest := by
  fun_induction scanArguments quote value text generalizing arguments rest with
  | case1 => cases scanned
  | case2 => cases scanned
  | case3 value mark next later special ih =>
    apply derives_quoted (ih scanned quoting) ['\\',next]
    intro body said piece _
    exact .escaped special.symm piece
  | case4 value mark next later plain ih =>
    apply derives_backslash (ih scanned quoting) (quoting mark rfl)
    exact fun special => plain special.symm
  | case5 value later mark notBackslash ih =>
    exact ⟨[mark],[],later,rfl,.closing,ih scanned (fun _ absent => by cases absent)⟩
  | case6 value c later mark notBackslash notMark ih =>
    apply derives_quoted (ih scanned quoting) [c]
    intro body said piece _
    exact .literal notMark (fun backslash => absurd backslash notBackslash) piece
  | case7 value c later opens ih =>
    obtain ⟨quote,empty⟩ := Bool.and_eq_true_iff.mp opens
    have mark := isQuote_iff.mp quote
    rw [List.isEmpty_iff] at empty
    subst empty
    apply derives_opening mark
    apply ih scanned
    intro _ same backslash
    cases same
    rw [backslash] at quote
    cases quote
  | case8 value later fresh ih =>
    obtain ⟨⟨values,left⟩,found,equal⟩ := Option.map_eq_some_iff.mp scanned
    cases equal
    exact derives_next value (ih found quoting)
  | case9 value later fresh notColon =>
    cases scanned
    exact ⟨[],value.reverse,[],rfl,.done,List.forall_mem_nil _,rfl⟩
  | case10 => cases scanned
  | case11 value c later fresh notColon notEnd plain ih =>
    obtain ⟨bracket,line⟩ := not_or.mp plain
    apply derives_literal ⟨notColon,notEnd,bracket,line⟩ _ (ih scanned quoting)
    intro empty opens
    apply fresh
    rw [isQuote_iff.mpr opens,empty]
    rfl

theorem parts_derived (scanned : scanParts text = some (head,values,rest)) :
    ∃ arguments, text = head ++ (joinArguments arguments ++ '>' :: rest) ∧ (∀ c ∈ head, Plain c) ∧
      (∀ argument ∈ arguments, Denotes [] argument.written argument.value) ∧
      values = arguments.map WrittenArgument.value := by
  have whole : text.takeWhile isHeadChar ++ text.dropWhile isHeadChar = text :=
    List.takeWhile_append_dropWhile
  have plain : ∀ c ∈ text.takeWhile isHeadChar, Plain c :=
    fun c member => isHeadChar_iff.mp (List.all_eq_true.mp List.all_takeWhile c member)
  unfold scanParts at scanned
  split at scanned
  · rename_i after found
    cases scanned
    refine ⟨[],?_,plain,List.forall_mem_nil _,rfl⟩
    rw [← found]
    exact whole.symm
  · rename_i after found
    obtain ⟨⟨values,left⟩,listed,equal⟩ := Option.map_eq_some_iff.mp scanned
    cases equal
    obtain ⟨written,first,others,ending,denotes,each,rfl⟩ := scanned_derives listed (fun _ absent => by cases absent)
    refine ⟨⟨written,first⟩ :: others,?_,plain,List.forall_mem_cons.mpr ⟨denotes,each⟩,rfl⟩
    rw [joinArguments_cons,← ending,← found,whole]
  · cases scanned

def readTag (position : Nat) (text : List Char) : Option (Token × Nat) :=
  (scanTag text).map fun tag => (tag.token position,position + Text.byteLength tag.source)

theorem tag_derived {tag : Lexeme} (scanned : scanTag text = some tag) :
    ∃ form : TagForm, '<' :: text = form.written ++ tag.rest ∧ form.Valid := by
  unfold scanTag at scanned
  split at scanned
  · cases scanned
  · rename_i head values rest parts
    obtain ⟨arguments,ending,plain,denotes,_⟩ := parts_derived parts
    split at scanned
    · rename_i named
      cases scanned
      rw [nameOf_form ⟨head,arguments⟩] at named
      refine ⟨⟨head,arguments⟩,?_,plain,isTagName_iff.mp named,denotes⟩
      rw [ending]
      simp [TagForm.written]
    · cases scanned

theorem form_token (form : TagForm) (position : Nat) (rest : List Char) :
    (Lexeme.mk (isClosing form.head) form.name (form.arguments.map WrittenArgument.value) form.written rest).token
      position = form.token position := by
  unfold Lexeme.token TagForm.token
  by_cases closing : form.head.head? = some '/'
  · simp [isClosing,closing]
  · simp [isClosing,closing,Function.comp_def]

-- A tag is read exactly where the grammar has one, and it is what the grammar makes of
-- it. No two tags begin at one bracket.
theorem tag_follows_grammar (before text : List Char) :
    (∀ token stop, readTag (Text.byteLength before) text = some (token,stop) ↔
      ∃ form : TagForm, ∃ after, before ++ '<' :: text = before ++ form.written ++ after ∧ form.Valid ∧
        token = form.token (Text.byteLength before) ∧ stop = Text.byteLength (before ++ form.written)) ∧
    (∀ one two : TagForm, ∀ after after', one.Valid → two.Valid →
      '<' :: text = one.written ++ after → '<' :: text = two.written ++ after' → one.written = two.written) := by
  constructor
  · intro token stop
    constructor
    · intro read
      obtain ⟨⟨closing,name,values,source,rest⟩,scanned,same⟩ := Option.map_eq_some_iff.mp read
      obtain ⟨form,whole,valid⟩ := tag_derived scanned
      rw [form_scanned valid whole] at scanned
      cases scanned
      cases same
      refine ⟨form,rest,?_,valid,form_token form _ rest,(byteLength_append before form.written).symm⟩
      rw [List.append_assoc,whole]
    · intro ⟨form,after,whole,valid,tokenized,stops⟩
      rw [List.append_assoc] at whole
      rw [readTag,form_scanned valid (List.append_cancel_left whole),Option.map_some,form_token,tokenized,stops,
        byteLength_append]
  · intro one two after after' valid valid' whole whole'
    have scanned := form_scanned valid whole
    rw [form_scanned valid' whole'] at scanned
    exact (congrArg Lexeme.source (Option.some.inj scanned)).symm

example : readTag 0 "\u212a:''\"a>\"'\\:x>".toList =
    some (.opening ⟨"k","<\u212a:''\"a>\"'\\:x>",0⟩ ["a>'\\","x"],16) := by
  cbv

end Phrasebook.Template
