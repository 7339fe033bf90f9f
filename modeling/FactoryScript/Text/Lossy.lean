/-!
# Text of arbitrary bytes

`Text.lossy` shows bytes as text. What is UTF-8 is decoded; every longest run of bytes that starts
like an encoded character and is none is replaced by one U+FFFD.
-/

namespace FactoryScript.Text

/-- What stands for bytes that are no text. -/
def replacement : Char := '\uFFFD'

/-- A character that has been begun: the code point so far, how many bytes are missing, and the
bounds of the next one. -/
structure Partial where
  code : Nat
  missing : Nat
  low : Nat
  high : Nat

/-- What a first byte begins: a character, part of one, or nothing. -/
inductive Lead
  | whole (c : Char)
  | begun (p : Partial)
  | bad

/-- Reads a first byte. The bounds for the second one exclude overlong forms, surrogates and what
is above the last code point. -/
def lead (b : Nat) : Lead :=
  if b < 0x80 then .whole (Char.ofNat b)
  else if 0xC2 ≤ b ∧ b ≤ 0xDF then .begun ⟨b - 0xC0, 1, 0x80, 0xBF⟩
  else if b = 0xE0 then .begun ⟨0, 2, 0xA0, 0xBF⟩
  else if b = 0xED then .begun ⟨0xD, 2, 0x80, 0x9F⟩
  else if 0xE1 ≤ b ∧ b ≤ 0xEF then .begun ⟨b - 0xE0, 2, 0x80, 0xBF⟩
  else if b = 0xF0 then .begun ⟨0, 3, 0x90, 0xBF⟩
  else if b = 0xF4 then .begun ⟨4, 3, 0x80, 0x8F⟩
  else if 0xF1 ≤ b ∧ b ≤ 0xF3 then .begun ⟨b - 0xF0, 3, 0x80, 0xBF⟩
  else .bad

/-- Decodes the bytes that follow a complete character or, if there is one, a begun one. -/
def lossyChars : Option Partial → List UInt8 → List Char
  | none, [] => []
  | some _, [] => [replacement]
  | none, b :: rest =>
    match lead b.toNat with
    | .whole c => c :: lossyChars none rest
    | .begun p => lossyChars (some p) rest
    | .bad => replacement :: lossyChars none rest
  | some p, b :: rest =>
    let n := b.toNat
    if p.low ≤ n ∧ n ≤ p.high then
      let code := p.code * 64 + (n - 0x80)
      if p.missing = 1 then Char.ofNat code :: lossyChars none rest
      else lossyChars (some ⟨code, p.missing - 1, 0x80, 0xBF⟩) rest
    else
      match lead n with
      | .whole c => replacement :: c :: lossyChars none rest
      | .begun p => replacement :: lossyChars (some p) rest
      | .bad => replacement :: replacement :: lossyChars none rest

def lossy (bytes : ByteArray) : String := String.ofList (lossyChars none bytes.toList)

end FactoryScript.Text
