/-!
# Bytes as text

Bytes that are no UTF-8 are still shown. This module provides `Text.ofBytes`: each longest run of bytes that begins
a character's code but does not end it, and each byte that begins none, stands as U+FFFD.
-/

namespace Rulebook

namespace Text

/-- A code that has begun: its bits so far, how many bytes are missing, and the range of the next one. -/
structure PendingCode where
  bits : Nat
  missing : Nat
  low : Nat
  high : Nat

/-- What a byte begins. -/
inductive CodeStart where
  | whole (c : Char)
  | begun (code : PendingCode)
  | nothing

/-- What a byte begins. The range of the second byte keeps out longer codes than needed, surrogates and what is
beyond the last code point. -/
def codeStart (byte : Nat) : CodeStart :=
  if byte < 0x80 then .whole (Char.ofNat byte)
  else if byte < 0xc2 then .nothing
  else if byte < 0xe0 then .begun ⟨byte - 0xc0, 1, 0x80, 0xbf⟩
  else if byte < 0xf0 then
    .begun ⟨byte - 0xe0, 2, if byte = 0xe0 then 0xa0 else 0x80, if byte = 0xed then 0x9f else 0xbf⟩
  else if byte < 0xf5 then
    .begun ⟨byte - 0xf0, 3, if byte = 0xf0 then 0x90 else 0x80, if byte = 0xf4 then 0x8f else 0xbf⟩
  else .nothing

/-- What stands for bytes that are no code. -/
def replacement : Char :=
  '\ufffd'

/-- The characters of bytes, after the beginning of a code or not. -/
def decode : Option PendingCode → List UInt8 → List Char
  | none, [] => []
  | some _, [] => [replacement]
  | none, byte :: rest =>
    match codeStart byte.toNat with
    | .whole c => c :: decode none rest
    | .begun code => decode (some code) rest
    | .nothing => replacement :: decode none rest
  | some code, byte :: rest =>
    let n := byte.toNat
    if code.low ≤ n ∧ n ≤ code.high then
      let bits := 64 * code.bits + (n - 0x80)
      if code.missing ≤ 1 then Char.ofNat bits :: decode none rest
      else decode (some ⟨bits, code.missing - 1, 0x80, 0xbf⟩) rest
    else
      replacement ::
        match codeStart n with
        | .whole c => c :: decode none rest
        | .begun code => decode (some code) rest
        | .nothing => replacement :: decode none rest

/-- The text of bytes. -/
def ofBytes (bytes : ByteArray) : String :=
  String.ofList (decode none bytes.toList)

end Text

end Rulebook
