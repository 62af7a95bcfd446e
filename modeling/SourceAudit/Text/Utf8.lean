/-!
Reading bytes as UTF-8 where not all of them are valid: every longest start of a character that is
not completed, and every byte that begins none, is read as one replacement character.
-/

namespace SourceAudit.Text

/-- U+FFFD. -/
def replacementChar : Char := Char.ofNat 0xFFFD

/-- A character of which some bytes have been read. -/
structure Partial where
  /-- Bits read so far. -/
  value : Nat
  /-- Bytes still to come, at least one. -/
  missing : Nat
  /-- Least and greatest value of the next byte. -/
  low : Nat
  high : Nat
  deriving BEq, DecidableEq, Inhabited

/-- What a byte at the start of a character begins; nothing if it begins no character of several
bytes. The bounds on the second byte leave out overlong forms, surrogates and values that are too
large. -/
def startOf? (b : Nat) : Option Partial :=
  if 0xC2 ≤ b ∧ b ≤ 0xDF then some ⟨b - 0xC0, 1, 0x80, 0xBF⟩
  else if b = 0xE0 then some ⟨0, 2, 0xA0, 0xBF⟩
  else if b = 0xED then some ⟨0xD, 2, 0x80, 0x9F⟩
  else if 0xE1 ≤ b ∧ b ≤ 0xEF then some ⟨b - 0xE0, 2, 0x80, 0xBF⟩
  else if b = 0xF0 then some ⟨0, 3, 0x90, 0xBF⟩
  else if 0xF1 ≤ b ∧ b ≤ 0xF3 then some ⟨b - 0xF0, 3, 0x80, 0xBF⟩
  else if b = 0xF4 then some ⟨4, 3, 0x80, 0x8F⟩
  else none

/-- The characters of the bytes, and whether a character has been begun. -/
def decodeFrom (begun : Option Partial) : List UInt8 → List Char
  | [] => if begun.isSome then [replacementChar] else []
  | byte :: bytes =>
    let b := byte.toNat
    let fresh := fun (_ : Unit) =>
      if b < 0x80 then Char.ofNat b :: decodeFrom none bytes
      else
        match startOf? b with
        | some p => decodeFrom (some p) bytes
        | none => replacementChar :: decodeFrom none bytes
    match begun with
    | none => fresh ()
    | some p =>
      if p.low ≤ b ∧ b ≤ p.high then
        let value := p.value * 64 + (b - 0x80)
        if p.missing ≤ 1 then Char.ofNat value :: decodeFrom none bytes
        else decodeFrom (some ⟨value, p.missing - 1, 0x80, 0xBF⟩) bytes
      else replacementChar :: fresh ()

/-- Reads bytes as UTF-8. -/
def decodeLossy (bytes : List UInt8) : List Char := decodeFrom none bytes

end SourceAudit.Text
