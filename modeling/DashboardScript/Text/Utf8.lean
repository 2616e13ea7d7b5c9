namespace DashboardScript.Text

-- How many bytes a text takes.
def utf8Length (text : List Char) : Nat := text.foldr (fun c n => c.utf8Size + n) 0

-- The character that stands for bytes that are no text.
def replacement : Char := '\ufffd'

-- How many bytes follow a leading byte, and the bounds of the first of them. The bounds leave out
-- overlong forms, surrogates and code points past the last one.
def Lead : Type := Nat × UInt8 × UInt8

def lead? (b : UInt8) : Option Lead :=
  if 0xc2 ≤ b && b ≤ 0xdf then some (1, 0x80, 0xbf)
  else if b == 0xe0 then some (2, 0xa0, 0xbf)
  else if b == 0xed then some (2, 0x80, 0x9f)
  else if 0xe1 ≤ b && b ≤ 0xef then some (2, 0x80, 0xbf)
  else if b == 0xf0 then some (3, 0x90, 0xbf)
  else if 0xf1 ≤ b && b ≤ 0xf3 then some (3, 0x80, 0xbf)
  else if b == 0xf4 then some (3, 0x80, 0x8f)
  else none

-- Takes the tail bytes of a character. None where one is missing or out of place; the bytes from
-- there on are left in either case.
def tails : (count : Nat) → (low high : UInt8) → (code : Nat) → List UInt8 → Option Nat × List UInt8
  | 0, _, _, code, rest => (some code, rest)
  | _ + 1, _, _, _, [] => (none, [])
  | count + 1, low, high, code, b :: rest =>
    if low ≤ b && b ≤ high then tails count 0x80 0xbf (code * 64 + b.toNat % 64) rest
    else (none, b :: rest)

-- The character that starts with the byte b, and the bytes after it. The longest beginning of a
-- character that breaks off is replaced as one.
def character (b : UInt8) (rest : List UInt8) : Char × List UInt8 :=
  if b < 0x80 then (Char.ofNat b.toNat, rest)
  else
    match lead? b with
    | none => (replacement, rest)
    | some (count, low, high) =>
      match tails count low high (b.toNat % (64 >>> count)) rest with
      | (some code, rest) => (Char.ofNat code, rest)
      | (none, rest) => (replacement, rest)

-- Reads as many characters as there may be bytes.
def charactersOf : (most : Nat) → List UInt8 → List Char
  | 0, _ => []
  | _, [] => []
  | most + 1, b :: rest =>
    let (c, rest) := character b rest
    c :: charactersOf most rest

-- Any bytes as text, with the replacement character for what is not UTF-8.
def ofBytes (bytes : ByteArray) : String :=
  match String.fromUTF8? bytes with
  | some text => text
  | none => String.ofList (charactersOf bytes.size bytes.toList)

end DashboardScript.Text
