import JqLens.Text.Utf8
import Mathlib.Data.Char

/-
  This file proves that a text is read back from its bytes: the
  decoder finds no damage in what the encoder writes, and puts
  out the characters in order. The bytes of a character tell how
  many of them there are, and the ranges that the decoder allows
  for the second one are those that occur: the shortest form of
  a code point, and no surrogates.

  Main results:
    * `Utf8.Decoder.feed_char`
    * `Utf8.decode_encode`
-/

namespace JqLens.Text.Utf8

------------------------------------------------------------
-- Single bytes
------------------------------------------------------------

namespace Decoder

/- Between characters a byte starts a new one. -/
theorem feed_start
    {d : Decoder}
    (hPending : d.pending = .none)
    {byte : Nat}
    (hByte : byte < 0x100) :
    d.feed (UInt8.ofNat byte) = d.start byte := by
  rw [feed, hPending, UInt8.toNat_ofNat_of_lt' hByte]

/- A byte of ASCII is a character. -/
theorem start_of_one
    (d : Decoder)
    {byte : Nat}
    (hByte : byte < 0x80) :
    d.start byte = d.put (Char.ofNat byte) := by
  rw [start, if_pos hByte]

/- A byte that starts a character of two. -/
theorem start_of_two
    (d : Decoder)
    {byte : Nat}
    (hLow : 0xC2 ≤ byte)
    (hHigh : byte ≤ 0xDF) :
    d.start byte = d.expect 1 0x80 0xBF (byte - 0xC0) := by
  rw [start, if_neg (by omega), if_pos (by simp [hLow, hHigh])]

/- A byte that starts a character of three. -/
theorem start_of_three
    (d : Decoder)
    {byte : Nat}
    (hLow : 0xE0 ≤ byte)
    (hHigh : byte ≤ 0xEF) :
    d.start byte =
      d.expect 2 (if byte = 0xE0 then 0xA0 else 0x80) (if byte = 0xED then 0x9F else 0xBF)
        (byte - 0xE0) := by
  rw [start, if_neg (by omega), if_neg (by simp; omega)]
  by_cases hFirst : byte = 0xE0
  · subst hFirst
    rfl
  by_cases hSurrogate : byte = 0xED
  · subst hSurrogate
    rfl
  · rw [if_neg hFirst, if_neg hSurrogate, if_neg hFirst, if_neg hSurrogate,
      if_pos (by simp; omega)]

/- A byte that starts a character of four. -/
theorem start_of_four
    (d : Decoder)
    {byte : Nat}
    (hLow : 0xF0 ≤ byte)
    (hHigh : byte ≤ 0xF4) :
    d.start byte =
      d.expect 3 (if byte = 0xF0 then 0x90 else 0x80) (if byte = 0xF4 then 0x8F else 0xBF)
        (byte - 0xF0) := by
  rw [start, if_neg (by omega), if_neg (by simp; omega), if_neg (by omega), if_neg (by omega),
    if_neg (by simp; omega)]
  by_cases hFirst : byte = 0xF0
  · subst hFirst
    rfl
  by_cases hLast : byte = 0xF4
  · subst hLast
    rfl
  · rw [if_neg hFirst, if_pos (by simp; omega), if_neg hFirst, if_neg hLast]

/- A byte within the bounds goes on with a character that lacks more than it. -/
theorem feed_middle
    (d : Decoder)
    (missing code : Nat)
    {low high byte : Nat}
    (hByte : byte < 0x100)
    (hLow : low ≤ byte)
    (hHigh : byte ≤ high) :
    (d.expect (missing + 2) low high code).feed (UInt8.ofNat byte) =
      d.expect (missing + 1) 0x80 0xBF (code * 0x40 + (byte - 0x80)) := by
  rw [feed, UInt8.toNat_ofNat_of_lt' hByte]
  simp [expect, hLow, hHigh]

/- A byte within the bounds ends a character that lacks only it. -/
theorem feed_last
    (d : Decoder)
    (code : Nat)
    {low high byte : Nat}
    (hByte : byte < 0x100)
    (hLow : low ≤ byte)
    (hHigh : byte ≤ high) :
    (d.expect 1 low high code).feed (UInt8.ofNat byte) =
      d.put (Char.ofNat (code * 0x40 + (byte - 0x80))) := by
  rw [feed, UInt8.toNat_ofNat_of_lt' hByte]
  simp [expect, put, hLow, hHigh]

------------------------------------------------------------
-- Characters
------------------------------------------------------------

/- The bytes of a character put it out. -/
theorem feed_char
    {d : Decoder}
    (hPending : d.pending = .none)
    (c : Char) :
    (String.utf8EncodeChar c).foldl feed d = d.put c := by
  have hChar : Char.ofNat c.val.toNat = c := Char.ofNat_toNat c
  have hValid : c.val.toNat < 0xD800 ∨ 0xDFFF < c.val.toNat ∧ c.val.toNat < 0x110000 := c.valid
  unfold String.utf8EncodeChar
  generalize c.val.toNat = code at hChar hValid
  subst hChar
  simp only [apply_ite (List.foldl feed d), List.foldl_cons, List.foldl_nil]
  split
  · rw [feed_start hPending (by omega), start_of_one d (by omega)]
  split
  · rw [feed_start hPending (by omega), start_of_two d (by omega) (by omega),
      feed_last d _ (by omega) (by omega) (by omega)]
    exact congrArg (fun n => d.put (Char.ofNat n)) (by omega)
  split
  · -- The second byte is bounded by the shortest form and by the surrogates.
    rw [feed_start hPending (by omega), start_of_three d (by omega) (by omega),
      feed_middle d _ _ (by omega) (by split <;> omega) (by split <;> omega),
      feed_last d _ (by omega) (by omega) (by omega)]
    exact congrArg (fun n => d.put (Char.ofNat n)) (by omega)
  · -- The second byte is bounded by the shortest form and by the last code point.
    rw [feed_start hPending (by omega), start_of_four d (by omega) (by omega),
      feed_middle d _ _ (by omega) (by split <;> omega) (by split <;> omega),
      feed_middle d _ _ (by omega) (by omega) (by omega),
      feed_last d _ (by omega) (by omega) (by omega)]
    exact congrArg (fun n => d.put (Char.ofNat n)) (by omega)

/- The bytes of a text put it out, character by character. -/
theorem feed_encode
    {d : Decoder}
    (hPending : d.pending = .none)
    (cs : List Char) :
    (encode cs).foldl feed d = { d with output := cs.reverse ++ d.output } := by
  induction cs generalizing d with
  | nil => rfl
  | cons c cs ih =>
      have hNext : (d.put c).pending = .none := rfl
      rw [encode, List.flatMap_cons, List.foldl_append, feed_char hPending]
      refine (ih hNext).trans ?_
      rw [List.reverse_cons, List.append_assoc, put, hPending]
      rfl

end Decoder

------------------------------------------------------------
-- Texts
------------------------------------------------------------

/- A text is read back from its bytes. -/
theorem decode_encode
    (cs : List Char) :
    decode (encode cs) = cs := by
  rw [decode, run, Decoder.feed_encode rfl]
  simp [Decoder.finish]

end JqLens.Text.Utf8
