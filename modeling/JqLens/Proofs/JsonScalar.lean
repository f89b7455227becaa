import JqLens.Json.Basic
import JqLens.Json.Reader
import JqLens.Proofs.TextRun

/-
  This file proves that the reader takes a written string or
  number from the front of a text as it was: every escape stands
  for the character it was made of, and the digits of a number
  below the bound of 64 bits stand for that number.

  Key definitions include:
    * `Reading.isNumeric`
    * `Reading.ofNatural`

  Main results:
    * `Reading.string_quoted`
    * `Reading.numberAt_toDigits`
    * `Reading.ofNatural_of_lt`
-/

namespace JqLens.Reading

------------------------------------------------------------
-- Strings
------------------------------------------------------------

/- The escape of a control character is read back as its number. -/
theorem hexUnit?_hexDigit :
    ∀ n < 0x20,
      hexUnit? '0' '0' (Json.hexDigit (n / 16)) (Json.hexDigit n) = some n := by
  decide

/- A number below those of surrogates stands for a character. -/
theorem Unit16.ofNat_of_lt
    {n : Nat}
    (hLess : n < 0xD800) :
    Unit16.ofNat n = .char (Char.ofNat n) := by
  have hHigh : ¬ (decide (0xD800 ≤ n) && decide (n < 0xDC00)) = true := by
    simp; omega
  have hLow : ¬ (decide (0xDC00 ≤ n) && decide (n < 0xE000)) = true := by
    simp; omega
  rw [Unit16.ofNat, if_neg hHigh, if_neg hLow]

/- A character that needs no escape stands for itself. -/
theorem stringParts_plain
    (done : List Unit16)
    {c : Char}
    (hQuote : c ≠ '"')
    (hBackslash : c ≠ '\\')
    (hControl : ¬ c.toNat < 0x20)
    (rest : List Char) :
    stringParts done (c :: rest) = stringParts (.char c :: done) rest := by
  rw [stringParts]
  · rw [if_neg]
    simp [hBackslash, Nat.not_lt.mp hControl]
  · exact hQuote
  · intro _ _ _ _ _ hEscape
    exact absurd hEscape hBackslash
  · intro _ _ hEscape
    exact absurd hEscape hBackslash

/- The escape of a character that has one of its own. -/
theorem stringParts_named
    (done : List Unit16)
    {c d : Char}
    (hEscaped : escaped? d = some c)
    (rest : List Char) :
    stringParts done ('\\' :: d :: rest) = stringParts (.char c :: done) rest := by
  rw [stringParts, hEscaped]
  rintro _ _ _ _ _ rfl
  cases hEscaped

/- The escape of a control character by its number. -/
theorem stringParts_numbered
    (done : List Unit16)
    {c : Char}
    (hControl : c.toNat < 0x20)
    (rest : List Char) :
    stringParts done
        ('\\' :: 'u' :: '0' :: '0' ::
          Json.hexDigit (c.toNat / 16) :: Json.hexDigit c.toNat :: rest) =
      stringParts (.char c :: done) rest := by
  have hUnit : Unit16.ofNat c.toNat = .char c := by
    rw [Unit16.ofNat_of_lt (by omega), Char.ofNat_toNat]
  rw [stringParts, hexUnit?_hexDigit _ hControl]
  exact congrArg (fun part => stringParts (part :: done) rest) hUnit

/- What a character is written as stands for that character. -/
theorem stringParts_escape
    (done : List Unit16)
    (c : Char)
    (rest : List Char) :
    stringParts done (Json.escape c ++ rest) = stringParts (.char c :: done) rest := by
  have hNamed : ∀ d e : Char, c.toNat = e.toNat → escaped? d = some e →
      stringParts done ('\\' :: d :: rest) = stringParts (.char c :: done) rest := by
    intro d e hSame hEscaped
    rw [← Char.toNat_inj.mp hSame] at hEscaped
    exact stringParts_named done hEscaped rest
  unfold Json.escape
  split
  · next hQuote => exact hNamed '"' '"' (congrArg Char.toNat hQuote) rfl
  next hQuote =>
  split
  · next hBackslash => exact hNamed '\\' '\\' (congrArg Char.toNat hBackslash) rfl
  next hBackslash =>
  split
  · next hCode => exact hNamed 'b' '\x08' hCode rfl
  split
  · next hCode => exact hNamed 't' '\t' hCode rfl
  split
  · next hCode => exact hNamed 'n' '\n' hCode rfl
  split
  · next hCode => exact hNamed 'f' '\x0c' hCode rfl
  split
  · next hCode => exact hNamed 'r' '\r' hCode rfl
  split
  · next hControl => exact stringParts_numbered done hControl rest
  · next hControl => exact stringParts_plain done hQuote hBackslash hControl rest

/- The parts of a written string are its characters. -/
theorem stringParts_quoted
    (done : List Unit16)
    (cs rest : List Char) :
    stringParts done (cs.flatMap Json.escape ++ '"' :: rest) =
      some (done.reverse ++ cs.map .char, rest) := by
  induction cs generalizing done with
  | nil => rw [List.flatMap_nil, List.nil_append, stringParts, List.map_nil, List.append_nil]
  | cons c cs ih =>
      rw [List.flatMap_cons, List.append_assoc, stringParts_escape, ih, List.reverse_cons,
        List.append_assoc]
      rfl

theorem joinParts_chars
    (done cs : List Char) :
    joinParts done (cs.map .char) = some (done.reverse ++ cs) := by
  induction cs generalizing done with
  | nil => rw [List.map_nil, joinParts, List.append_nil]
  | cons c cs ih =>
      rw [List.map_cons, joinParts, ih, List.reverse_cons, List.append_assoc]
      rfl

/- A written string is read behind its opening quote. -/
theorem string_quoted
    (text : String)
    (rest : List Char) :
    string (text.toList.flatMap Json.escape ++ '"' :: rest) = some (some text, rest) := by
  have hParts := joinParts_chars [] text.toList
  rw [List.reverse_nil, List.nil_append] at hParts
  rw [string, stringParts_quoted, Option.map_some, List.reverse_nil, List.nil_append]
  simp only [hParts, Option.map_some, String.ofList_toList]

------------------------------------------------------------
-- Numbers
------------------------------------------------------------

/- A character that may belong to a number that has begun. -/
def isNumeric
    (c : Char) : Bool :=
  c.isDigit || c = '.' || c = 'e' || c = 'E'

/- What the digits of a natural number are read as. -/
def ofNatural
    (n : Nat) : Reading :=
  if isHuge (Nat.toDigits 10 n) [] 0 then unreadable else nat n

theorem digitChar_eq_zero :
    ∀ n < 10, Nat.digitChar n = '0' → n = 0 := by
  decide

/- Only the number zero starts with the digit zero. -/
theorem head?_toDigits
    {n : Nat}
    (hHead : (Nat.toDigits 10 n).head? = some '0') :
    n = 0 := by
  induction n using Nat.strongRecOn with
  | ind n ih =>
      rw [Nat.toDigits_eq_if (by decide)] at hHead
      split at hHead
      · next hLess =>
          rw [List.head?_cons, Option.some.injEq] at hHead
          exact digitChar_eq_zero n hLess hHead
      · next hMore =>
          have hDigits : (Nat.toDigits 10 (n / 10)).head?.isSome = true := by
            rw [List.isSome_head?]
            exact Nat.toDigits_ne_nil
          rw [List.head?_append, Option.or_of_isSome hDigits] at hHead
          have hZero := ih (n / 10) (by omega) hHead
          omega

/- The digits of a number have no leading zeros. -/
theorem not_leadingZero
    (n : Nat) :
    ((Nat.toDigits 10 n).isEmpty ||
      ((Nat.toDigits 10 n).head? = some '0' && 1 < (Nat.toDigits 10 n).length)) = false := by
  have hDigits : (Nat.toDigits 10 n).isEmpty = false := by
    rw [List.isEmpty_eq_false_iff]
    exact Nat.toDigits_ne_nil
  rw [hDigits, Bool.false_or]
  by_cases hHead : (Nat.toDigits 10 n).head? = some '0'
  · rw [head?_toDigits hHead]
    rfl
  · simp [hHead]

/- A natural number is written with a digit first. -/
theorem exists_digit_toDigits
    (n : Nat) :
    ∃ c cs, Nat.toDigits 10 n = c :: cs ∧ c.isDigit = true ∧
      ∀ d : Char, d.isDigit = false → c ≠ d := by
  cases hDigits : Nat.toDigits 10 n with
  | nil => exact absurd hDigits Nat.toDigits_ne_nil
  | cons c cs =>
      have hDigit : c.isDigit = true := by
        apply Nat.isDigit_of_mem_toDigits (b := 10) (n := n) (by decide) (by decide)
        rw [hDigits]
        exact List.mem_cons_self
      refine ⟨c, cs, rfl, hDigit, ?_⟩
      rintro d hNot rfl
      rw [hDigit] at hNot
      cases hNot

/- A digit is no sign. -/
theorem dropMinus_toDigits
    (n : Nat)
    (rest : List Char) :
    dropMinus (Nat.toDigits 10 n ++ rest) = (false, Nat.toDigits 10 n ++ rest) := by
  rcases exists_digit_toDigits n with ⟨c, cs, hDigits, -, hOther⟩
  rw [hDigits, List.cons_append, dropMinus]
  intro _ hMinus
  exact hOther '-' rfl (List.cons_eq_cons.mp hMinus).1

/-
  The digits of a natural number are read as that number, unless
  it is beyond every double.
-/
theorem numberAt_toDigits
    (n : Nat)
    {rest : List Char}
    (hStops : StopsAt isNumeric rest) :
    numberAt (Nat.toDigits 10 n ++ rest) = (ofNatural n, rest) := by
  have hDigit : ∀ c ∈ Nat.toDigits 10 n, c.isDigit = true :=
    fun c hMember => Nat.isDigit_of_mem_toDigits (by decide) (by decide) hMember
  have hRest : StopsAt Char.isDigit rest := by
    intro c hHead
    have hNumeric := hStops c hHead
    simp only [isNumeric, Bool.or_eq_false_iff] at hNumeric
    exact hNumeric.1.1.1
  have hMinus := dropMinus_toDigits n rest
  have hTake := takeWhile_of_stopsAt hDigit hRest
  have hDrop := dropWhile_of_stopsAt hDigit hRest
  have hZero := not_leadingZero n
  have hValue : Text.digitsValue (Nat.toDigits 10 n) = n := Nat.ofDigitChars_ten_toDigits
  have hNone : Text.digitsValue [] = 0 := rfl
  -- Behind the digits comes neither a fraction nor an exponent.
  have hRead : numberAt (Nat.toDigits 10 n ++ rest) =
      if isHuge (Nat.toDigits 10 n) [] 0 then (unreadable, rest) else (nat n, rest) := by
    cases rest with
    | nil =>
        simp only [numberAt, hMinus, hTake, hDrop, hZero, hValue, hNone]
        simp
    | cons c rest =>
        have hNumeric := hStops c rfl
        simp only [isNumeric, Bool.or_eq_false_iff, decide_eq_false_iff_not] at hNumeric
        have hDot : c ≠ '.' := hNumeric.1.1.2
        have hMark : ¬ (c = 'e' ∨ c = 'E') := not_or.mpr ⟨hNumeric.1.2, hNumeric.2⟩
        simp [numberAt, hMinus, hTake, hDrop, hZero, hValue, hNone, hDot, hMark]
  rw [hRead, ofNatural]
  split
  · rfl
  · rfl

/- Leading digits are all taken where their number is below the bound. -/
theorem leadingDigits_of_lt
    {value : Nat}
    {cs : List Char}
    (hLess : Nat.ofDigitChars 10 cs value < UInt64.size) :
    leadingDigits value cs = (Nat.ofDigitChars 10 cs value, []) := by
  induction cs generalizing value with
  | nil => rfl
  | cons c cs ih =>
      rw [Nat.ofDigitChars_cons] at hLess ⊢
      have hNext : 10 * value + Text.digitsValue [c] = 10 * value + (c.toNat - '0'.toNat) := by
        simp [Text.digitsValue]
      have hBound : 10 * value + (c.toNat - '0'.toNat) < UInt64.size := by
        rw [Nat.ofDigitChars_eq_ofDigitChars_zero] at hLess
        have hScaled := Nat.le_mul_of_pos_left (10 * value + (c.toNat - '0'.toNat))
          (Nat.pow_pos (by decide : 0 < 10) (n := cs.length))
        omega
      rw [leadingDigits]
      simp only [hNext]
      rw [if_pos hBound]
      exact ih hLess

/- Rounding to a double at most doubles a number. -/
theorem nearestDouble_le
    {n : Nat}
    (hPositive : 0 < n) :
    Text.nearestDouble n ≤ 2 * n := by
  have hUnit : Nat.pow 2 (n.log2 - 52) ≤ n := by
    calc 2 ^ (n.log2 - 52) ≤ 2 ^ n.log2 := Nat.pow_le_pow_right (by decide) (by omega)
      _ ≤ n := Nat.log2_self_le (by omega)
  have hLow : n / Nat.pow 2 (n.log2 - 52) * Nat.pow 2 (n.log2 - 52) ≤ n :=
    Nat.div_mul_le_self n _
  unfold Text.nearestDouble
  simp only
  split
  · rw [Nat.add_mul, Nat.one_mul]
    omega
  · omega

/- A number of 64 bits is far below the bound of doubles. -/
theorem isHuge_eq_false
    {n : Nat}
    (hLess : n < UInt64.size) :
    isHuge (Nat.toDigits 10 n) [] 0 = false := by
  have hWhole : Nat.ofDigitChars 10 (Nat.toDigits 10 n) 0 = n := Nat.ofDigitChars_ten_toDigits
  have hDigits : leadingDigits 0 (Nat.toDigits 10 n) = (n, []) := by
    have hTaken : leadingDigits 0 (Nat.toDigits 10 n) =
        (Nat.ofDigitChars 10 (Nat.toDigits 10 n) 0, []) :=
      leadingDigits_of_lt (by rwa [hWhole])
    rwa [hWhole] at hTaken
  have hBound : 2 * UInt64.size ≤ Text.doubleBound := by
    decide +kernel
  have hUnit : Text.nearestDouble (Nat.pow 10 0) = 1 := by
    decide
  simp only [isHuge, hDigits, leadingDigits]
  split
  · rfl
  · next hPositive =>
      have hRounded : Text.nearestDouble n ≤ 2 * n := by
        apply nearestDouble_le
        simp at hPositive
        omega
      refine (if_neg (by decide)).trans (decide_eq_false ?_)
      change ¬ Text.doubleBound ≤ Text.nearestDouble n * Text.nearestDouble (Nat.pow 10 0)
      rw [hUnit]
      omega

/- A number of 64 bits is read as itself. -/
theorem ofNatural_of_lt
    {n : Nat}
    (hLess : n < UInt64.size) :
    ofNatural n = nat n := by
  rw [ofNatural, isHuge_eq_false hLess, if_neg Bool.false_ne_true]

end JqLens.Reading
