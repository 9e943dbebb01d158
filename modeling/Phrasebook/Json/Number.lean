import Phrasebook.Json.Reader
namespace Phrasebook.Json

-- Numbers. Only those that fit an unsigned 64-bit integer keep their value; of
-- the others it is only known that they are numbers.
inductive Number where
  | unsigned (value : Nat)
  | other
  deriving DecidableEq, Repr

structure NumberText where
  negative : Bool
  whole : List Char
  fraction : List Char
  exponent : Option (Bool × List Char)
  deriving DecidableEq, Repr

def takeDigits (text : List Char) : List Char × List Char :=
  (text.takeWhile Char.isDigit,text.dropWhile Char.isDigit)

def someDigits : Reader (List Char) := fun text =>
  match takeDigits text with
  | ([],[]) => .error .truncated
  | ([],_ :: _) => .error .malformed
  | (digits,rest) => .ok (digits,rest)

def wholeDigits : Reader (List Char) := fun text => do
  let (digits,rest) ← someDigits text
  if digits.head? = some '0' ∧ digits.length ≠ 1 then .error .malformed else .ok (digits,rest)

def fractionDigits : Reader (List Char)
  | '.' :: rest => someDigits rest
  | text => .ok ([],text)

def exponentDigits : Reader (Option (Bool × List Char))
  | [] => .ok (none,[])
  | c :: rest =>
    if c = 'e' ∨ c = 'E' then do
      let (negative,rest) := match rest with
        | '-' :: rest => (true,rest)
        | '+' :: rest => (false,rest)
        | rest => (false,rest)
      let (digits,rest) ← someDigits rest
      .ok (some (negative,digits),rest)
    else .ok (none,c :: rest)

def readNumberText : Reader NumberText := fun text => do
  let (negative,text) := match text with
    | '-' :: rest => (true,rest)
    | text => (false,text)
  let (whole,text) ← wholeDigits text
  let (fraction,text) ← fractionDigits text
  let (exponent,text) ← exponentDigits text
  .ok (⟨negative,whole,fraction,exponent⟩,text)

def digitValue (c : Char) : Nat := c.toNat - '0'.toNat

def decimal (digits : List Char) : Nat :=
  digits.foldl (fun value c => 10 * value + digitValue c) 0

def wordLimit : Nat := 18446744073709551616

-- The significand is gathered while it fits a word. Whole digits beyond that
-- raise the exponent, digits of the fraction lower it or are left out.
def gatherWhole (significand : Nat) : List Char → Nat × Int
  | [] => (significand,0)
  | c :: rest =>
    if 10 * significand + digitValue c < wordLimit then
      gatherWhole (10 * significand + digitValue c) rest
    else (significand,(rest.length + 1 : Nat))

def gatherFraction (significand : Nat) (exponent : Int) : List Char → Nat × Int
  | [] => (significand,exponent)
  | c :: rest =>
    if 10 * significand + digitValue c < wordLimit then
      gatherFraction (10 * significand + digitValue c) (exponent - 1) rest
    else (significand,exponent)

-- The nearest number of 53 significant bits, of two the even one.
def roundBits (value : Nat) : Nat :=
  let shift := Nat.log2 value + 1 - 53
  let unit := Nat.pow 2 shift
  let low := value / unit
  let rest := value % unit
  let up := unit < 2 * rest ∨ (2 * rest = unit ∧ low % 2 = 1 ∧ 0 < shift)
  (if up then low + 1 else low) * unit

def overflows (significand : Nat) (exponent : Int) : Bool :=
  significand ≠ 0 && 0 ≤ exponent &&
    (308 < exponent ||
      Nat.pow 2 1024 - Nat.pow 2 970 ≤
        roundBits significand * roundBits (Nat.pow 10 exponent.toNat))

def NumberText.tooLarge (number : NumberText) : Bool :=
  let (whole,extra) := gatherWhole 0 number.whole
  let (significand,exponent) := gatherFraction whole extra number.fraction
  match number.exponent with
  | none => overflows significand exponent
  | some (true,digits) => overflows significand (exponent - decimal digits)
  | some (false,digits) => overflows significand (exponent + decimal digits)

def NumberText.value (number : NumberText) : Number :=
  if number.negative || !number.fraction.isEmpty || number.exponent.isSome then .other
  else if decimal number.whole < wordLimit then .unsigned (decimal number.whole)
  else .other

def readNumber : Reader Number := fun text => do
  let (number,rest) ← readNumberText text
  if number.tooLarge then .error .malformed else .ok (number.value,rest)

-- A number that nobody asked for has no range, and breaking off is no better
-- than any other mistake in it.
def skipNumber (text : List Char) : Except Fault (List Char) :=
  match readNumberText text with
  | .ok (_,rest) => .ok rest
  | .error _ => .error .malformed

end Phrasebook.Json
