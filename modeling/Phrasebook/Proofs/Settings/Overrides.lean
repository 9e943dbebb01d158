import Mathlib.Data.List.Basic
import Mathlib.Data.Nat.Digits.Defs
import Phrasebook.Proofs.Outcome
import Phrasebook.Settings.Settings
namespace Phrasebook.Settings

-- What a layer of variables does to the settings below it, and which variable it is
-- refused for.

def word (text : String) : String := String.ofList (Text.lower (Text.trim text.toList))

def FormatText (text : String) (format : Storage.Format) : Prop := word text = format.name

inductive FlagText (text : String) : Bool → Prop where
  | on (known : word text ∈ ["1","true","yes","on"]) : FlagText text true
  | off (known : word text ∈ ["0","false","no","off"]) : FlagText text false

def denoted (digits : List Char) : Nat := Nat.ofDigits 10 (digits.reverse.map fun c => c.toNat - '0'.toNat)

def DepthText (text : String) (depth : Nat) : Prop :=
  ∃ digits, (Text.trim text.toList = digits ∨ Text.trim text.toList = '+' :: digits) ∧ digits ≠ [] ∧
    (∀ c ∈ digits, '0' ≤ c ∧ c ≤ '9') ∧ denoted digits < 2 ^ 64 ∧ depth = denoted digits

-- A variable that is set has its value read; one that is not set leaves things as they are.
inductive Takes (reads : String → α → Prop) : Option String → α → α → Prop where
  | kept : Takes reads none before before
  | taken (read : reads text after) : Takes reads (some text) before after

structure Overridden (lookup : String → Option String) (before after : Settings) : Prop where
  format : Takes FormatText (lookup formatVariable) before.format after.format
  includePhraseTag : Takes FlagText (lookup includePhraseTagVariable) before.includePhraseTag after.includePhraseTag
  fallback : Takes FlagText (lookup fallbackVariable) before.fallbackToDefault after.fallbackToDefault
  maxDepth : Takes DepthText (lookup maxDepthVariable) before.maxDepth after.maxDepth
  defaultLocale : after.defaultLocale = (lookup defaultLocaleVariable).getD before.defaultLocale
  directory : after.directory = (lookup directoryVariable).or before.directory

-- The variables that not every text will do for, in the order in which they are read.
def readable : List (String × (String → Prop)) :=
  [(formatVariable,fun text => ∃ format, FormatText text format),
   (includePhraseTagVariable,fun text => ∃ flag, FlagText text flag),
   (fallbackVariable,fun text => ∃ flag, FlagText text flag),
   (maxDepthVariable,fun text => ∃ depth, DepthText text depth)]

-- The first variable with a text that it cannot have.
def Refuses (lookup : String → Option String) : List (String × (String → Prop)) → Fault → Prop
  | [],_ => False
  | (name,valid) :: later,fault =>
    (∃ text, lookup name = some text ∧ ¬valid text ∧ fault = .invalidValue name text) ∨
      (∀ text, lookup name = some text → valid text) ∧ Refuses lookup later fault

theorem format_read (text : String) :
    (Storage.Format.parse text).toOption = Storage.Format.ofName? (word text) := by
  unfold Storage.Format.parse word
  dsimp only
  split
  · rename_i found
    exact found.symm
  · rename_i missing
    exact missing.symm

theorem ofName_iff {name : String} {format : Storage.Format} :
    Storage.Format.ofName? name = some format ↔ name = format.name := by
  unfold Storage.Format.ofName?
  split
  · cases format <;> simp [Storage.Format.name]
  · cases format <;> simp [Storage.Format.name]
  · rename_i notProperties notJson
    cases format with
    | properties => exact ⟨nofun,fun named => absurd named notProperties⟩
    | json => exact ⟨nofun,fun named => absurd named notJson⟩

theorem format_exact (text : String) (format : Storage.Format) :
    (Storage.Format.parse text).toOption = some format ↔ FormatText text format := by
  rw [format_read]
  exact ofName_iff

theorem flag_exact (text : String) (flag : Bool) : parseFlag text = some flag ↔ FlagText text flag := by
  have words : parseFlag text = if ["1","true","yes","on"].contains (word text) then some true
      else if ["0","false","no","off"].contains (word text) then some false else none := rfl
  rw [words]
  constructor
  · intro read
    split at read
    · rename_i on
      cases read
      exact .on (List.contains_iff_mem.mp on)
    · split at read
      · rename_i off
        cases read
        exact .off (List.contains_iff_mem.mp off)
      · cases read
  · intro known
    cases known with
    | on known => rw [if_pos (List.contains_iff_mem.mpr known)]
    | off known =>
      have notOn : ¬["1","true","yes","on"].contains (word text) = true := by
        rw [List.contains_iff_mem]
        intro on
        simp only [List.mem_cons,List.not_mem_nil,or_false] at known on
        rcases known with off | off | off | off <;> rw [off] at on <;> revert on <;> decide
      rw [if_neg notOn,if_pos (List.contains_iff_mem.mpr known)]

theorem decimal_denoted (digits : List Char) : Json.decimal digits = denoted digits := by
  unfold Json.decimal denoted
  rw [Nat.ofDigits_eq_foldr,List.foldr_map,List.foldr_reverse]
  congr 1
  funext value c
  simp [Json.digitValue,Nat.add_comm]

theorem digits_checked {digits : List Char} :
    (digits.isEmpty || !digits.all Char.isDigit) = false ↔ digits ≠ [] ∧ ∀ c ∈ digits, '0' ≤ c ∧ c ≤ '9' := by
  simp [Char.isDigit,Char.le_def]

def unsigned : List Char → List Char
  | '+' :: rest => rest
  | digits => digits

theorem unsigned_written {digits : List Char} (filled : digits ≠ []) (decimal : ∀ c ∈ digits, '0' ≤ c ∧ c ≤ '9') :
    unsigned text = digits ↔ text = digits ∨ text = '+' :: digits := by
  have noSign : ∀ rest, digits ≠ '+' :: rest := by
    intro rest signed
    have digit := decimal '+' (by simp [signed])
    exact absurd digit.1 (by decide)
  constructor
  · intro same
    unfold unsigned at same
    split at same
    · exact .inr (congrArg ('+' :: ·) same)
    · exact .inl same
  · intro written
    rcases written with rfl | rfl
    · unfold unsigned
      split
      · rename_i rest
        exact absurd rfl (noSign rest)
      · rfl
    · rfl

theorem depth_exact (text : String) (depth : Nat) : parseDepth text = some depth ↔ DepthText text depth := by
  have parsed : parseDepth text =
      if (unsigned (Text.trim text.toList)).isEmpty || !(unsigned (Text.trim text.toList)).all Char.isDigit then none
      else if denoted (unsigned (Text.trim text.toList)) < Json.wordLimit then
        some (denoted (unsigned (Text.trim text.toList)))
      else none := by
    rw [← decimal_denoted]
    rfl
  rw [parsed]
  constructor
  · intro read
    split at read
    · cases read
    · rename_i digits
      obtain ⟨filled,decimal⟩ := digits_checked.mp (Bool.eq_false_iff.mpr digits)
      split at read
      · rename_i below
        cases read
        exact ⟨_,(unsigned_written filled decimal).mp rfl,filled,decimal,below,rfl⟩
      · cases read
  · intro written
    obtain ⟨digits,signed,filled,decimal,below,rfl⟩ := written
    rw [(unsigned_written filled decimal).mpr signed,digits_checked.mpr ⟨filled,decimal⟩]
    exact if_pos below

section Variable
variable {name : String} {read : String → Option α} {reads : String → α → Prop} {value : Option String}

theorem override_ok (exact : ∀ text value, read text = some value ↔ reads text value) {before after : α} :
    override name read value before = .ok after ↔ Takes reads value before after := by
  cases value with
  | none =>
    constructor
    · intro kept
      cases kept
      exact .kept
    · intro takes
      cases takes
      rfl
  | some text =>
    rw [override]
    constructor
    · intro taken
      split at taken
      · rename_i value found
        cases taken
        exact .taken ((exact text _).mp found)
      · cases taken
    · intro takes
      cases takes with
      | taken found => rw [(exact text after).mpr found]

theorem override_error (exact : ∀ text value, read text = some value ↔ reads text value) {before : α} :
    override name read value before = .error fault ↔
      ∃ text, value = some text ∧ (¬∃ found, reads text found) ∧ fault = .invalidValue name text := by
  cases value with
  | none => simp [override]
  | some text =>
    rw [override]
    cases found : read text with
    | some value =>
      have known : ∃ found, reads text found := ⟨value,(exact text value).mp found⟩
      simp [known]
    | none =>
      have unknown : ¬∃ value, reads text value := by
        intro known
        obtain ⟨value,known⟩ := known
        rw [(exact text value).mpr known] at found
        cases found
      constructor
      · intro refused
        cases refused
        exact ⟨text,rfl,unknown,rfl⟩
      · intro refused
        obtain ⟨other,same,_,rfl⟩ := refused
        cases same
        rfl

theorem takes_valid (before : α) : (∃ after, Takes reads value before after) ↔
    ∀ text, value = some text → ∃ found, reads text found := by
  cases value with
  | none => exact ⟨fun _ => nofun,fun _ => ⟨before,.kept⟩⟩
  | some text =>
    constructor
    · intro taken other same
      obtain ⟨after,takes⟩ := taken
      cases same
      cases takes with
      | taken found => exact ⟨after,found⟩
    · intro valid
      obtain ⟨found,known⟩ := valid text rfl
      exact ⟨found,.taken known⟩

theorem takes_layers {lower upper : Option String} {before middle after : α} (first : Takes reads lower before middle)
    (second : Takes reads upper middle after) : Takes reads (upper.or lower) before after := by
  cases second with
  | kept => exact first
  | taken found => exact .taken found

theorem refuses_next (exact : ∀ text value, read text = some value ↔ reads text value) {before : α}
    {next : α → Except Fault β} (behind : ∀ after, next after = .error fault ↔ Refuses lookup later fault) :
    (override name read (lookup name) before >>= next) = .error fault ↔
      Refuses lookup ((name,fun text => ∃ value, reads text value) :: later) fault := by
  rw [Outcome.bind_error_iff,override_error exact]
  apply or_congr Iff.rfl
  simp only [override_ok exact,behind]
  rw [← takes_valid before,exists_and_right]

end Variable

theorem overridden_iff {before after : Settings} :
    before.withVariables lookup = .ok after ↔ Overridden lookup before after := by
  unfold withVariables
  simp only [Outcome.bind_ok_iff,override_ok format_exact,override_ok flag_exact,override_ok depth_exact]
  constructor
  · intro ran
    obtain ⟨format,takesFormat,phrases,takesPhrases,fallback,takesFallback,depth,takesDepth,same⟩ := ran
    cases same
    exact ⟨takesFormat,takesPhrases,takesFallback,takesDepth,rfl,rfl⟩
  · intro overridden
    obtain ⟨format,phrases,fallback,depth,locale,directory⟩ := overridden
    refine ⟨_,format,_,phrases,_,fallback,_,depth,?_⟩
    rw [← locale,← directory]
    rfl

theorem overridden_layers {before middle after : Settings} (first : Overridden lower before middle)
    (second : Overridden upper middle after) : Overridden (fun name => (upper name).or (lower name)) before after := by
  refine ⟨takes_layers first.format second.format,takes_layers first.includePhraseTag second.includePhraseTag,
    takes_layers first.fallback second.fallback,takes_layers first.maxDepth second.maxDepth,?_,?_⟩
  · rw [second.defaultLocale,first.defaultLocale]
    cases upper defaultLocaleVariable <;> rfl
  · rw [second.directory,first.directory,Option.or_assoc]

theorem takes_again {reads : String → α → Prop} {before after : α} (takes : Takes reads value before after) :
    Takes reads value after after := by
  cases takes with
  | kept => exact .kept
  | taken read => exact .taken read

theorem overridden_again {before after : Settings} (overridden : Overridden lookup before after) :
    Overridden lookup after after := by
  obtain ⟨format,phrases,fallback,depth,locale,directory⟩ := overridden
  refine ⟨takes_again format,takes_again phrases,takes_again fallback,takes_again depth,?_,?_⟩
  · rw [locale]
    cases lookup defaultLocaleVariable <;> rfl
  · rw [directory]
    cases lookup directoryVariable <;> rfl

theorem withVariables_twice (settings : Settings) (lookup : String → Option String) :
    (settings.withVariables lookup >>= fun once => once.withVariables lookup) = settings.withVariables lookup := by
  cases ran : settings.withVariables lookup with
  | error fault => rfl
  | ok once => exact overridden_iff.mpr (overridden_again (overridden_iff.mp ran))

theorem refuses_iff {settings : Settings} :
    settings.withVariables lookup = .error fault ↔ Refuses lookup readable fault := by
  apply refuses_next format_exact
  intro format
  apply refuses_next flag_exact
  intro includePhraseTag
  apply refuses_next flag_exact
  intro fallback
  apply refuses_next depth_exact
  intro depth
  exact ⟨nofun,False.elim⟩

theorem refuses_some {checks : List (String × (String → Prop))} : (∃ fault, Refuses lookup checks fault) ↔
    ∃ check ∈ checks, ∃ text, lookup check.1 = some text ∧ ¬check.2 text := by
  induction checks with
  | nil => simp [Refuses]
  | cons check later ih =>
    obtain ⟨name,valid⟩ := check
    rw [List.exists_mem_cons_iff,← ih]
    simp only [Refuses]
    constructor
    · intro refuses
      obtain ⟨fault,⟨text,given,invalid,_⟩ | ⟨_,behind⟩⟩ := refuses
      · exact .inl ⟨text,given,invalid⟩
      · exact .inr ⟨fault,behind⟩
    · intro refuses
      by_cases here : ∃ text, lookup name = some text ∧ ¬valid text
      · obtain ⟨text,given,invalid⟩ := here
        exact ⟨.invalidValue name text,.inl ⟨text,given,invalid,rfl⟩⟩
      · rcases refuses with there | ⟨fault,behind⟩
        · exact absurd there here
        · refine ⟨fault,.inr ⟨?_,behind⟩⟩
          intro text given
          apply Classical.byContradiction
          exact fun invalid => here ⟨text,given,invalid⟩

end Phrasebook.Settings
