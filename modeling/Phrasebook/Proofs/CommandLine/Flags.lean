import Mathlib.Data.List.TakeWhile
import Phrasebook.CommandLine.Invocation
namespace Phrasebook.CommandLine

-- Command lines from the writer's side: the words that an option and its value may
-- be written as, and what a line of them is read as.

-- A word that no option can be taken for.
def Plain (word : String) : Prop := word.toList.head? ≠ some '-' ∨ word = "-"

inductive Written (level : Level) (opt : Opt) (value : String) : List String → Prop where
  | long (known : level.long? opt.name = some opt) :
      Written level opt value ["--" ++ opt.name ++ "=" ++ value]
  | longApart (known : level.long? opt.name = some opt) (plain : Plain value) :
      Written level opt value ["--" ++ opt.name,value]
  | short (known : level.short? letter = some opt) :
      Written level opt value [String.ofList ['-',letter,'='] ++ value]
  | shortGlued (known : level.short? letter = some opt) (filled : value ≠ "")
      (bare : value.toList.head? ≠ some '=') : Written level opt value [String.ofList ['-',letter] ++ value]
  | shortApart (known : level.short? letter = some opt) (plain : Plain value) :
      Written level opt value [String.ofList ['-',letter],value]

def Free (opt : Opt) (given : Given) : Prop := opt.repeats = true ∨ given.has opt.name = false

-- What has been given, the words that follow, and what has been given after them.
inductive Line (level : Level) : Given → List String → Given → Prop where
  | done : Line level given [] given
  | option (takes : opt.takesValue = true) (written : Written level opt value words)
      (admitted : opt.admits value = true) (free : Free opt given)
      (later : Line level { given with values := given.values ++ [(opt.name,value)] } rest final) :
      Line level given (words ++ rest) final
  | flag (single : opt.takesValue = false) (known : level.long? opt.name = some opt)
      (admitted : opt.admits "" = true) (free : Free opt given)
      (later : Line level { given with values := given.values ++ [(opt.name,"")] } rest final) :
      Line level given (("--" ++ opt.name) :: rest) final
  | positional (plain : Plain word) (other : word ∉ level.subcommands)
      (room : given.positionals.length < level.positionals)
      (later : Line level { given with positionals := given.positionals ++ [word] } rest final) :
      Line level given (word :: rest) final

-- A line may end in words that are positional whatever they look like.
inductive Closing : List String → List String → Prop where
  | nothing : Closing [] []
  | escape (words : List String) : Closing ("--" :: words) words

structure Level.Regular (level : Level) : Prop where
  names : ∀ opt ∈ level.options, opt.name ≠ "" ∧ '=' ∉ opt.name.toList
  letters : ∀ opt ∈ level.options, opt.short ≠ some '-'
  commands : ∀ command ∈ level.subcommands, command.toList.head? ≠ some '-'

theorem top_regular : topLevel.Regular := ⟨by decide,by decide,by decide⟩

theorem levelOf_regular (known : levelOf command = some level) : level.Regular := by
  unfold levelOf at known
  split at known <;> cases known <;> exact ⟨by decide,by decide,by decide⟩

theorem ofString_plain (plain : Plain word) : Argument.ofString word = .plain word := by
  rcases plain with bare | rfl
  · unfold Argument.ofString
    split <;> simp_all
  · rfl

theorem ofString_long (filled : text ≠ []) : Argument.ofString (String.ofList ('-' :: '-' :: text)) =
    .long (splitAssignment text).1 (splitAssignment text).2 := by
  cases text with
  | nil => exact absurd rfl filled
  | cons c text => simp only [Argument.ofString,String.toList_ofList]

theorem splitAssignment_bare {name : List Char} (bare : '=' ∉ name) :
    splitAssignment name = (String.ofList name,none) := by
  have front : ∀ c ∈ name, decide (c ≠ '=') = true := fun c member => decide_eq_true fun same => bare (same ▸ member)
  have dropped : name.dropWhile (· ≠ '=') = [] := List.dropWhile_eq_nil_iff.mpr front
  rw [splitAssignment,dropped]

theorem splitAssignment_value {name : List Char} (bare : '=' ∉ name) (value : List Char) :
    splitAssignment (name ++ '=' :: value) = (String.ofList name,some (String.ofList value)) := by
  have front : ∀ c ∈ name, decide (c ≠ '=') = true := fun c member => decide_eq_true fun same => bare (same ▸ member)
  simp only [splitAssignment,List.dropWhile_append_of_pos front,List.takeWhile_append_of_pos front]
  simp

section Words
variable {level : Level} {opt : Opt}

-- The option that each way of writing names, with the value it brings along.
theorem long_option (regular : level.Regular) (known : level.long? opt.name = some opt) :
    level.option (Argument.ofString ("--" ++ opt.name)) = .ok (opt,none) := by
  obtain ⟨filled,bare⟩ := regular.names opt (List.mem_of_find?_eq_some known)
  have word : "--" ++ opt.name = String.ofList ('-' :: '-' :: opt.name.toList) := by
    simp [← String.toList_inj]
  rw [word,ofString_long (by simpa using filled),splitAssignment_bare bare,String.ofList_toList,Level.option,known]

theorem long_option_value (regular : level.Regular) (known : level.long? opt.name = some opt) (value : String) :
    level.option (Argument.ofString ("--" ++ opt.name ++ "=" ++ value)) = .ok (opt,some value) := by
  obtain ⟨_,bare⟩ := regular.names opt (List.mem_of_find?_eq_some known)
  have word : "--" ++ opt.name ++ "=" ++ value =
      String.ofList ('-' :: '-' :: (opt.name.toList ++ '=' :: value.toList)) := by
    simp [← String.toList_inj]
  rw [word,ofString_long (by simp),splitAssignment_value bare,String.ofList_toList,String.ofList_toList,
    Level.option,known]

theorem short_letter (regular : level.Regular) (known : level.short? letter = some opt) : letter ≠ '-' := by
  rintro rfl
  have named := List.find?_some known
  exact regular.letters opt (List.mem_of_find?_eq_some known) (by simpa using named)

theorem short_option (regular : level.Regular) (known : level.short? letter = some opt) :
    level.option (Argument.ofString (String.ofList ['-',letter])) = .ok (opt,none) := by
  have other := short_letter regular known
  have form : Argument.ofString (String.ofList ['-',letter]) = .short letter none := by simp [Argument.ofString]
  rw [form,Level.option,known]

theorem short_option_value (regular : level.Regular) (known : level.short? letter = some opt) (value : String) :
    level.option (Argument.ofString (String.ofList ['-',letter,'='] ++ value)) = .ok (opt,some value) := by
  have other := short_letter regular known
  have form : Argument.ofString (String.ofList ['-',letter,'='] ++ value) = .short letter (some value) := by
    simp [Argument.ofString]
  rw [form,Level.option,known]

theorem short_option_glued (regular : level.Regular) (known : level.short? letter = some opt) (filled : value ≠ "")
    (bare : value.toList.head? ≠ some '=') :
    level.option (Argument.ofString (String.ofList ['-',letter] ++ value)) = .ok (opt,some value) := by
  have other := short_letter regular known
  obtain ⟨c,text,spelled⟩ := List.exists_cons_of_ne_nil (mt String.toList_eq_nil_iff.mp filled)
  have shown : value = String.ofList (c :: text) := by rw [← spelled,String.ofList_toList]
  subst shown
  have unequal : c ≠ '=' := by simpa using bare
  have form : Argument.ofString (String.ofList ['-',letter] ++ String.ofList (c :: text)) =
      .short letter (some (String.ofList (c :: text))) := by
    simp [Argument.ofString,unequal]
  rw [form,Level.option,known]

theorem not_command (regular : level.Regular) (hyphen : word.toList.head? = some '-') :
    level.subcommands.contains word = false := by
  rw [Bool.eq_false_iff,ne_eq,List.contains_iff_mem]
  exact fun member => regular.commands word member hyphen

-- A word that holds all there is to its option: a value, or nothing for a flag.
theorem read_alone (regular : level.Regular) (hyphen : word.toList.head? = some '-')
    (form : level.option (Argument.ofString word) = .ok (opt,attached)) (fits : opt.takesValue = attached.isSome)
    (accepted : given.accept opt (attached.getD "") = .ok next) (rest : List String) :
    level.read false (.ok given) (word :: rest) = level.read false (.ok next) rest := by
  rw [Level.read,not_command regular hyphen]
  cases argument : Argument.ofString word <;> rw [argument] at form
  · cases form
  · cases attached <;> simp_all [bind,Except.bind]
  · cases attached <;> simp_all [bind,Except.bind]
  · cases form

theorem read_apart (regular : level.Regular) (hyphen : word.toList.head? = some '-')
    (form : level.option (Argument.ofString word) = .ok (opt,none)) (takes : opt.takesValue = true)
    (plain : Plain value) (accepted : given.accept opt value = .ok next) (rest : List String) :
    level.read false (.ok given) (word :: value :: rest) = level.read false (.ok next) rest := by
  rw [Level.read,not_command regular hyphen]
  cases argument : Argument.ofString word <;> rw [argument] at form
  · cases form
  · simp [form,takes,accepted,ofString_plain plain,bind,Except.bind]
  · simp [form,takes,accepted,ofString_plain plain,bind,Except.bind]
  · cases form

theorem accept_free (admitted : opt.admits value = true) (free : Free opt given) :
    given.accept opt value = .ok { given with values := given.values ++ [(opt.name,value)] } := by
  unfold Given.accept
  rcases free with repeats | unused
  · simp [admitted,repeats]
  · simp [admitted,unused]

theorem written_read (regular : level.Regular) (takes : opt.takesValue = true)
    (written : Written level opt value words) (accepted : given.accept opt value = .ok next) (rest : List String) :
    level.read false (.ok given) (words ++ rest) = level.read false (.ok next) rest := by
  cases written with
  | long known => exact read_alone regular (by simp) (long_option_value regular known value) takes accepted rest
  | longApart known plain =>
    exact read_apart regular (by simp) (long_option regular known) takes plain accepted rest
  | short known => exact read_alone regular (by simp) (short_option_value regular known value) takes accepted rest
  | shortGlued known filled bare =>
    exact read_alone regular (by simp) (short_option_glued regular known filled bare) takes accepted rest
  | shortApart known plain =>
    exact read_apart regular (by simp) (short_option regular known) takes plain accepted rest

theorem read_positional (escaped : Bool) (free : escaped = true ∨ Plain word ∧ word ∉ level.subcommands)
    (room : given.positionals.length < level.positionals) (rest : List String) :
    level.read escaped (.ok given) (word :: rest) =
      level.read escaped (.ok { given with positionals := given.positionals ++ [word] }) rest := by
  have accepted : given.acceptPositional level.positionals word =
      .ok { given with positionals := given.positionals ++ [word] } := if_pos room
  rw [Level.read]
  rcases free with rfl | ⟨plain,other⟩
  · simp [accepted,bind,Except.bind]
  · cases escaped <;> simp [accepted,other,ofString_plain plain,bind,Except.bind]

theorem line_read (regular : level.Regular) (line : Line level given words final) (rest : List String) :
    level.read false (.ok given) (words ++ rest) = level.read false (.ok final) rest := by
  induction line with
  | done => rfl
  | option takes written admitted free _ ih =>
    rw [List.append_assoc,written_read regular takes written (accept_free admitted free),ih]
  | flag single known admitted free _ ih =>
    have accepted := accept_free admitted free
    rw [List.cons_append,read_alone regular (by simp) (long_option regular known) single accepted,ih]
  | positional plain other room _ ih =>
    rw [List.cons_append,read_positional false (.inr ⟨plain,other⟩) room,ih]

theorem escaped_read (words : List String) (room : given.positionals.length + words.length ≤ level.positionals) :
    level.read true (.ok given) words = .ok (.ok { given with positionals := given.positionals ++ words },none) := by
  induction words generalizing given with
  | nil => rw [Level.read,List.append_nil]
  | cons word words ih =>
    rw [List.length_cons] at room
    rw [read_positional true (.inl rfl) (by omega),ih (by simp only [List.length_append,List.length_singleton]; omega)]
    simp

theorem closing_read (regular : level.Regular) (closing : Closing tail words)
    (room : given.positionals.length + words.length ≤ level.positionals) :
    level.read false (.ok given) tail = .ok (.ok { given with positionals := given.positionals ++ words },none) := by
  cases closing with
  | nothing => rw [Level.read,List.append_nil]
  | escape words =>
    rw [Level.read,not_command regular rfl]
    exact escaped_read words room

end Words

-- Shared options are read from both sides of the subcommand, and the inner side covers
-- the outer one.
theorem readInvocation_line {outer inner : Given} (above : Line topLevel .none outerWords outer)
    (known : levelOf command = some level) (below : Line level .none innerWords inner)
    (closing : Closing tail words)
    (room : inner.positionals.length + words.length ≤ level.positionals)
    (asked : readRequest command { inner with positionals := inner.positionals ++ words } = .ok request) :
    readInvocation (outerWords ++ command :: (innerWords ++ tail)) =
      .ok ⟨(inner.get? "config").or (outer.get? "config"),(inner.get? "dir").or (outer.get? "dir"),
        ((inner.get? "format").or (outer.get? "format")).bind Storage.Format.ofName?,
        (inner.get? "default-locale").or (outer.get? "default-locale"),request⟩ := by
  have regular := levelOf_regular known
  have offered : topLevel.subcommands.contains command = true := by
    unfold levelOf at known
    split at known <;> first | rfl | cases known
  have first : topLevel.read false (.ok .none) (outerWords ++ command :: (innerWords ++ tail)) =
      .ok (.ok outer,some (command,innerWords ++ tail)) := by
    rw [line_read top_regular above,Level.read,offered]
    rfl
  have second : level.read false (.ok .none) (innerWords ++ tail) =
      .ok (.ok { inner with positionals := inner.positionals ++ words },none) := by
    rw [line_read regular below,closing_read regular closing room]
  simp only [readInvocation,first,known,second,asked,bind,Except.bind]
  rfl

example : readInvocation ["--dir=a","-cc.json","lookup","-d","b","--","-k"] =
    .ok ⟨some "c.json",some "b",none,none,.lookup "-k" none⟩ := by
  decide +kernel

end Phrasebook.CommandLine
