namespace Phrasebook.Text

-- The pieces between the separators. There is one more piece than separators,
-- so an empty text has one empty piece.
def splitOn (separator : Char) : List Char → List (List Char)
  | [] => [[]]
  | c :: rest =>
    if c = separator then [] :: splitOn separator rest
    else match splitOn separator rest with
      | [] => [[c]]
      | first :: others => (c :: first) :: others

-- Positions and subtag lengths count the bytes of the UTF-8 form.
def byteLength (text : List Char) : Nat := text.foldr (fun c total => c.utf8Size + total) 0

-- Strict UTF-8: no text when some byte sequence is malformed.
def decodeUtf8 (bytes : ByteArray) : Option String := String.fromUTF8? bytes

def utf8 (text : String) : List UInt8 := text.toUTF8.data.toList

def ofUtf8? (bytes : List UInt8) : Option String := decodeUtf8 ⟨⟨bytes⟩⟩

-- The ranges of the bytes behind the first one of a character. A first byte of
-- no character has none.
def followers (lead : UInt8) : List (UInt8 × UInt8) :=
  let usual := (0x80,0xBF)
  if 0xC2 ≤ lead ∧ lead ≤ 0xDF then [usual]
  else if lead = 0xE0 then [(0xA0,0xBF),usual]
  else if lead = 0xED then [(0x80,0x9F),usual]
  else if 0xE1 ≤ lead ∧ lead ≤ 0xEF then [usual,usual]
  else if lead = 0xF0 then [(0x90,0xBF),usual,usual]
  else if 0xF1 ≤ lead ∧ lead ≤ 0xF3 then [usual,usual,usual]
  else if lead = 0xF4 then [(0x80,0x8F),usual,usual]
  else []

def fitting : List (UInt8 × UInt8) → List UInt8 → Nat
  | range :: ranges,byte :: bytes =>
    if range.1 ≤ byte ∧ byte ≤ range.2 then fitting ranges bytes + 1 else 0
  | _,_ => 0

-- The first number counts the bytes that are already read. As much as could
-- begin a character becomes one U+FFFD when the character does not go on.
def lossyFrom : Nat → List UInt8 → List Char
  | _,[] => []
  | read + 1,_ :: rest => lossyFrom read rest
  | 0,lead :: rest =>
    let count := fitting (followers lead) rest
    ((ofUtf8? (lead :: rest.take count)).getD "\uFFFD").toList ++ lossyFrom count rest

def showUtf8 (bytes : List UInt8) : String :=
  (ofUtf8? bytes).getD (String.ofList (lossyFrom 0 bytes))

def decodeLatin1 (bytes : ByteArray) : String :=
  String.ofList (bytes.toList.map fun byte => Char.ofNat byte.toNat)

-- White space is the Unicode property White_Space. U+FEFF and U+200B do not
-- have it; U+0085, U+00A0 and U+3000 do.
def isBlank (c : Char) : Bool :=
  (0x09 ≤ c.toNat && c.toNat ≤ 0x0D) || c.toNat == 0x20 || c.toNat == 0x85 ||
  c.toNat == 0xA0 || c.toNat == 0x1680 || (0x2000 ≤ c.toNat && c.toNat ≤ 0x200A) ||
  c.toNat == 0x2028 || c.toNat == 0x2029 || c.toNat == 0x202F || c.toNat == 0x205F ||
  c.toNat == 0x3000

def trimStart (text : List Char) : List Char := text.dropWhile isBlank

def trimEnd (text : List Char) : List Char := (text.reverse.dropWhile isBlank).reverse

def trim (text : List Char) : List Char := trimEnd (trimStart text)

def hexDigit? (c : Char) : Option Nat :=
  if '0' ≤ c ∧ c ≤ '9' then some (c.toNat - '0'.toNat)
  else if 'a' ≤ c ∧ c ≤ 'f' then some (c.toNat - 'a'.toNat + 10)
  else if 'A' ≤ c ∧ c ≤ 'F' then some (c.toNat - 'A'.toNat + 10)
  else none

def hexValue? (digits : List Char) : Option Nat :=
  digits.foldlM (fun value c => (hexDigit? c).map (16 * value + ·)) 0

def hexChar (digit : Nat) : Char := Nat.digitChar digit

def hexFour (code : Nat) : List Char :=
  [hexChar (code / 4096 % 16),hexChar (code / 256 % 16),hexChar (code / 16 % 16),hexChar (code % 16)]

def isHighSurrogate (code : Nat) : Bool := 0xD800 ≤ code && code ≤ 0xDBFF

def isLowSurrogate (code : Nat) : Bool := 0xDC00 ≤ code && code ≤ 0xDFFF

def pairedChar (high low : Nat) : Char :=
  Char.ofNat (0x10000 + (high - 0xD800) * 0x400 + (low - 0xDC00))

end Phrasebook.Text
