/-
  This file encodes texts as UTF-8 and decodes bytes back,
  with a replacement character for each maximal part that is
  no UTF-8.

  Key definitions include:
    * `encode`
    * `Decoder`
    * `Decoder.feed`
    * `decode`
    * `decode?`
-/

namespace JqLens.Text.Utf8

------------------------------------------------------------
-- Encoding
------------------------------------------------------------

/- The bytes of a text. -/
def encode (cs : List Char) : List UInt8 :=
  cs.flatMap String.utf8EncodeChar

------------------------------------------------------------
-- The decoder
------------------------------------------------------------

/-
  Where the decoder stands: between characters, or inside one
  that lacks `missing` more bytes, of which the next lies
  between `low` and `high`; `code` is the code point so far.
-/
inductive Pending where
  | none
  | some (missing low high code : Nat)
  deriving DecidableEq, Repr

/- The decoder with its output so far, last character first. -/
structure Decoder where
  pending : Pending := .none
  output : List Char := []
  /- Some part of the input was no UTF-8. -/
  damaged : Bool := false
  deriving DecidableEq, Repr

/- The character that stands for what is no UTF-8. -/
def replacement : Char :=
  '\uFFFD'

namespace Decoder

/- Put out a character. -/
def put (d : Decoder) (c : Char) : Decoder :=
  { d with pending := .none, output := c :: d.output }

/- Put out the replacement character. -/
def replace (d : Decoder) : Decoder :=
  { d.put replacement with damaged := true }

/- Wait for the other bytes of a character. -/
def expect (d : Decoder) (missing low high code : Nat) : Decoder :=
  { d with pending := .some missing low high code }

/- Take a byte between characters. -/
def start (d : Decoder) (byte : Nat) : Decoder :=
  if byte < 0x80 then d.put (Char.ofNat byte)
  else if 0xC2 ≤ byte && byte ≤ 0xDF then d.expect 1 0x80 0xBF (byte - 0xC0)
  else if byte = 0xE0 then d.expect 2 0xA0 0xBF 0
  else if byte = 0xED then d.expect 2 0x80 0x9F 0xD
  else if 0xE1 ≤ byte && byte ≤ 0xEF then d.expect 2 0x80 0xBF (byte - 0xE0)
  else if byte = 0xF0 then d.expect 3 0x90 0xBF 0
  else if 0xF1 ≤ byte && byte ≤ 0xF3 then d.expect 3 0x80 0xBF (byte - 0xF0)
  else if byte = 0xF4 then d.expect 3 0x80 0x8F 4
  else d.replace

/-
  Take a byte. One that cannot go on with the character begun
  makes the part so far a damaged one and starts anew.
-/
def feed (d : Decoder) (byte : UInt8) : Decoder :=
  let byte := byte.toNat
  match d.pending with
  | .none => d.start byte
  | .some missing low high code =>
      if low ≤ byte && byte ≤ high then
        let code := code * 0x40 + (byte - 0x80)
        if missing ≤ 1 then d.put (Char.ofNat code)
        else d.expect (missing - 1) 0x80 0xBF code
      else d.replace.start byte

/- The decoder at the end of its input. -/
def finish (d : Decoder) : Decoder :=
  match d.pending with
  | .none => d
  | .some _ _ _ _ => d.replace

end Decoder

------------------------------------------------------------
-- Decoding
------------------------------------------------------------

/- Decode bytes to the end. -/
def run (bytes : List UInt8) : Decoder :=
  (bytes.foldl Decoder.feed {}).finish

/-
  The text of bytes, with a replacement character for each
  maximal part that is no UTF-8.
-/
def decode (bytes : List UInt8) : List Char :=
  (run bytes).output.reverse

/- The text of bytes that are UTF-8. -/
def decode? (bytes : List UInt8) : Option (List Char) :=
  let d := run bytes
  if d.damaged then none else some d.output.reverse

end JqLens.Text.Utf8
