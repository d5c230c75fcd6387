/-!
Characters as bytes and back. Encoding is the one of the core library; decoding reads one byte at a
time and keeps at most one unfinished character. A maximal run of bytes that starts a character and
cannot be finished counts as one malformed place, and so does a byte that starts no character.
-/

namespace LintRepair.Text

def utf8 (s : List Char) : List UInt8 := s.flatMap String.utf8EncodeChar

/-- The number of bytes of a text. -/
def utf8Length (s : List Char) : Nat := (utf8 s).length

/-- A character of which some bytes are still owed: the bits read, how many bytes are owed, and
the bounds of the next byte. -/
structure Unfinished where
  bits : Nat
  owed : Nat
  least : UInt8
  greatest : UInt8

/-- The first byte of a character: complete, unfinished or malformed. The bounds on the second
byte keep out overlong forms, surrogates and code points past the last. -/
def firstByte (b : UInt8) : List (Option Char) × Option Unfinished :=
  if b < 0x80 then ([some (Char.ofNat b.toNat)], none)
  else if 0xC2 ≤ b && b ≤ 0xDF then ([], some ⟨b.toNat - 0xC0, 1, 0x80, 0xBF⟩)
  else if b == 0xE0 then ([], some ⟨0, 2, 0xA0, 0xBF⟩)
  else if b == 0xED then ([], some ⟨13, 2, 0x80, 0x9F⟩)
  else if 0xE1 ≤ b && b ≤ 0xEF then ([], some ⟨b.toNat - 0xE0, 2, 0x80, 0xBF⟩)
  else if b == 0xF0 then ([], some ⟨0, 3, 0x90, 0xBF⟩)
  else if 0xF1 ≤ b && b ≤ 0xF3 then ([], some ⟨b.toNat - 0xF0, 3, 0x80, 0xBF⟩)
  else if b == 0xF4 then ([], some ⟨4, 3, 0x80, 0x8F⟩)
  else ([none], none)

/-- One more byte: the places it completes, malformed ones as `none`, and what is left open. A byte
that cannot continue the open character closes it as malformed and starts afresh. -/
def nextByte : Option Unfinished → UInt8 → List (Option Char) × Option Unfinished
  | none, b => firstByte b
  | some u, b =>
    if u.least ≤ b && b ≤ u.greatest then
      let bits := u.bits * 64 + (b.toNat - 0x80)
      if u.owed ≤ 1 then ([some (Char.ofNat bits)], none)
      else ([], some ⟨bits, u.owed - 1, 0x80, 0xBF⟩)
    else
      let (out, open?) := firstByte b
      (none :: out, open?)

/-- The places of a byte sequence, each a character or malformed, from an open character on. -/
def decodePlaces : Option Unfinished → List UInt8 → List (Option Char)
  | none, [] => []
  | some _, [] => [none]
  | open?, b :: bytes =>
    let (out, next) := nextByte open? b
    out ++ decodePlaces next bytes

/-- Decode, if every place is well formed. -/
def decode? (bytes : List UInt8) : Option (List Char) := (decodePlaces none bytes).mapM id

/-- Decode, with U+FFFD for each malformed place. -/
def decodeLossy (bytes : List UInt8) : List Char :=
  (decodePlaces none bytes).map fun place => place.getD '\uFFFD'

/-- The text of a byte array, with U+FFFD for each malformed place. -/
def textLossy (bytes : ByteArray) : String :=
  match String.fromUTF8? bytes with
  | some s => s
  | none => String.ofList (decodeLossy bytes.toList)

end LintRepair.Text
