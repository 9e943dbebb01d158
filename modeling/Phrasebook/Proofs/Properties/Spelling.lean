import Mathlib.Data.List.Forall2
import Phrasebook.Properties.Parse
namespace Phrasebook.Properties

-- The ways to spell a text in a properties file. However it is spelled, it is
-- read back as that text.

-- The UTF-16 form of a character: one code unit, or a surrogate pair.
def codeUnits (c : Char) : List Nat :=
  if c.toNat < 0x10000 then [c.toNat]
  else [0xD800 + (c.toNat - 0x10000) / 0x400,0xDC00 + (c.toNat - 0x10000) % 0x400]

def EitherCase (digit c : Char) : Prop := c = digit ∨ c = digit.toUpper

inductive SpellsUnits : List Nat → List Char → Prop where
  | nil : SpellsUnits [] []
  | cons (digits : List.Forall₂ EitherCase (Text.hexFour code) written) (later : SpellsUnits codes form) :
      SpellsUnits (code :: codes) ('\\' :: 'u' :: (written ++ form))

-- What stands for a character. `Bare` are the characters that may stand for
-- themselves at that place.
inductive Spells (Bare : Char → Prop) : Char → List Char → Prop where
  | bare (allowed : Bare c) : Spells Bare c [c]
  | escaped (ordinary : c ∉ ['n','t','r','f','u','\r','\n']) : Spells Bare c ['\\',c]
  | lineFeed : Spells Bare '\n' ['\\','n']
  | tab : Spells Bare '\t' ['\\','t']
  | carriageReturn : Spells Bare '\r' ['\\','r']
  | formFeed : Spells Bare '\x0c' ['\\','f']
  | units (written : SpellsUnits (codeUnits c) form) : Spells Bare c form

inductive SpellsAll (Bare : Char → Prop) : List Char → List Char → Prop where
  | nil : SpellsAll Bare [] []
  | cons (spelled : Spells Bare c form) (later : SpellsAll Bare text forms) :
      SpellsAll Bare (c :: text) (form ++ forms)

inductive SpellsText (First Later : Char → Prop) : List Char → List Char → Prop where
  | empty : SpellsText First Later [] []
  | starts (spelled : Spells First c form) (later : SpellsAll Later text forms) :
      SpellsText First Later (c :: text) (form ++ forms)

theorem eitherCase_self (digits : List Char) : List.Forall₂ EitherCase digits digits :=
  List.forall₂_same.mpr fun _ _ => .inl rfl

theorem units_spelled (codes : List Nat) : ∃ form, SpellsUnits codes form := by
  induction codes with
  | nil => exact ⟨[],.nil⟩
  | cons code codes ih =>
    obtain ⟨form,spelled⟩ := ih
    exact ⟨_,.cons (eitherCase_self (Text.hexFour code)) spelled⟩

theorem all_spelled (Bare : Char → Prop) (text : List Char) : ∃ form, SpellsAll Bare text form := by
  induction text with
  | nil => exact ⟨[],.nil⟩
  | cons c text ih =>
    obtain ⟨forms,spelled⟩ := ih
    obtain ⟨form,written⟩ := units_spelled (codeUnits c)
    exact ⟨_,.cons (.units written) spelled⟩

theorem text_spelled (First Later : Char → Prop) (text : List Char) :
    ∃ form, SpellsText First Later text form := by
  cases text with
  | nil => exact ⟨[],.empty⟩
  | cons c text =>
    obtain ⟨forms,spelled⟩ := all_spelled Later text
    obtain ⟨form,written⟩ := units_spelled (codeUnits c)
    exact ⟨_,.starts (.units written) spelled⟩

theorem digit_read {n : Nat} (small : n < 16) (written : EitherCase (Text.hexChar n) c) :
    Text.hexDigit? c = some n := by
  have both : ∀ n : Fin 16, Text.hexDigit? (Text.hexChar n) = some n.val ∧
      Text.hexDigit? (Text.hexChar n).toUpper = some n.val := by decide
  rcases written with rfl | rfl
  · exact (both ⟨n,small⟩).1
  · exact (both ⟨n,small⟩).2

theorem digits_read {code : Nat} (small : code < 0x10000)
    (written : List.Forall₂ EitherCase (Text.hexFour code) digits) :
    (∃ a b c d, digits = [a,b,c,d]) ∧ Text.hexValue? digits = some code ∧
      ∀ c ∈ digits, (Text.hexDigit? c).isSome := by
  unfold Text.hexFour at written
  rcases written with _ | ⟨wa,_ | ⟨wb,_ | ⟨wc,_ | ⟨wd,⟨⟩⟩⟩⟩⟩
  have ra := digit_read (Nat.mod_lt _ (by decide)) wa
  have rb := digit_read (Nat.mod_lt _ (by decide)) wb
  have rc := digit_read (Nat.mod_lt _ (by decide)) wc
  have rd := digit_read (Nat.mod_lt _ (by decide)) wd
  refine ⟨⟨_,_,_,_,rfl⟩,?_,?_⟩
  · simp only [Text.hexValue?,List.foldlM_cons,List.foldlM_nil,ra,rb,rc,rd,Option.map_some,
      Option.bind_eq_bind,Option.bind_some,Option.pure_def,Option.some.injEq]
    omega
  · simp [ra,rb,rc,rd]

theorem codeUnits_small (c : Char) : ∀ code ∈ codeUnits c, code < 0x10000 := by
  have bound : c.toNat < 0x110000 := by
    have := c.valid
    simp only [UInt32.isValidChar,Nat.isValidChar] at this
    unfold Char.toNat
    omega
  intro code member
  unfold codeUnits at member
  split at member
  · simp only [List.mem_singleton] at member
    omega
  · simp only [List.mem_cons,List.not_mem_nil,or_false] at member
    omega

theorem pieces_bare (plain : c ≠ '\\') (rest : List Char) :
    pieces (c :: rest) = .char c :: pieces rest := by
  rw [pieces.eq_6] <;> simp [plain]

theorem pieces_escaped (ordinary : c ≠ 'u') (rest : List Char) :
    pieces ('\\' :: c :: rest) = .char (control c) :: pieces rest := by
  rw [pieces.eq_4] <;> simp [ordinary]

theorem pieces_units (spelled : SpellsUnits codes form) (small : ∀ code ∈ codes, code < 0x10000)
    (rest : List Char) : pieces (form ++ rest) = codes.map .unit ++ pieces rest := by
  induction spelled with
  | nil => rfl
  | cons digits later ih =>
    obtain ⟨⟨a,b,c,d,rfl⟩,value,_⟩ := digits_read (small _ List.mem_cons_self) digits
    have onward := ih fun code member => small code (List.mem_cons_of_mem _ member)
    simp only [List.cons_append,List.nil_append,pieces,value,onward,List.map_cons]

theorem decode_single (high : Text.isHighSurrogate code = false) (low : Text.isLowSurrogate code = false)
    (later : List Piece) : decode (.unit code :: later) = (decode later).map (Char.ofNat code :: ·) := by
  rcases later with _ | ⟨_ | _ | _,rest⟩ <;> simp [decode,high,low]

theorem decode_units (c : Char) (later : List Piece) :
    decode ((codeUnits c).map .unit ++ later) = (decode later).map (c :: ·) := by
  have valid : c.toNat < 0xD800 ∨ 0xDFFF < c.toNat ∧ c.toNat < 0x110000 := c.valid
  unfold codeUnits
  split
  · rename_i single
    have notHigh : Text.isHighSurrogate c.toNat = false := by
      simp only [Text.isHighSurrogate,Bool.and_eq_false_iff,decide_eq_false_iff_not]
      omega
    have notLow : Text.isLowSurrogate c.toNat = false := by
      simp only [Text.isLowSurrogate,Bool.and_eq_false_iff,decide_eq_false_iff_not]
      omega
    rw [List.map_singleton,List.singleton_append,decode_single notHigh notLow,Char.ofNat_toNat]
  · rename_i double
    generalize hq : (c.toNat - 0x10000) / 0x400 = q
    generalize hr : (c.toNat - 0x10000) % 0x400 = r
    have isHigh : Text.isHighSurrogate (0xD800 + q) = true := by
      simp only [Text.isHighSurrogate,Bool.and_eq_true,decide_eq_true_eq]
      omega
    have isLow : Text.isLowSurrogate (0xDC00 + r) = true := by
      simp only [Text.isLowSurrogate,Bool.and_eq_true,decide_eq_true_eq]
      omega
    have paired : Text.pairedChar (0xD800 + q) (0xDC00 + r) = c := by
      have same : 0x10000 + (0xD800 + q - 0xD800) * 0x400 + (0xDC00 + r - 0xDC00) = c.toNat := by omega
      rw [Text.pairedChar,same,Char.ofNat_toNat]
    simp only [List.map_cons,List.map_nil,List.cons_append,List.nil_append,decode,isHigh,isLow,
      paired,if_true]

section
variable {Bare : Char → Prop}

theorem unescape_spells (literal : ∀ {c}, Bare c → c ≠ '\\') (spelled : Spells Bare c form)
    (rest : List Char) : unescape (form ++ rest) = (unescape rest).map (c :: ·) := by
  unfold unescape
  cases spelled with
  | bare allowed => rw [List.singleton_append,pieces_bare (literal allowed),decode]
  | escaped ordinary =>
    simp only [List.mem_cons,List.not_mem_nil,or_false,not_or] at ordinary
    have itself : control c = c := by simp [control,ordinary]
    simp only [List.cons_append,List.nil_append]
    rw [pieces_escaped ordinary.2.2.2.2.1,itself,decode]
  | lineFeed => exact congrArg decode (pieces_escaped (by decide) rest)
  | tab => exact congrArg decode (pieces_escaped (by decide) rest)
  | carriageReturn => exact congrArg decode (pieces_escaped (by decide) rest)
  | formFeed => exact congrArg decode (pieces_escaped (by decide) rest)
  | units written => rw [pieces_units written (codeUnits_small c),decode_units]

theorem unescape_all (literal : ∀ {c}, Bare c → c ≠ '\\') (spelled : SpellsAll Bare text form) :
    unescape form = .ok text := by
  induction spelled with
  | nil => rfl
  | cons spelled _ ih => rw [unescape_spells literal spelled,ih]; rfl

theorem unescape_text {First Later : Char → Prop} (first : ∀ {c}, First c → c ≠ '\\')
    (later : ∀ {c}, Later c → c ≠ '\\') (spelled : SpellsText First Later text form) :
    unescape form = .ok text := by
  cases spelled with
  | empty => rfl
  | starts spelled others => rw [unescape_spells first spelled,unescape_all later others]; rfl

end

end Phrasebook.Properties
