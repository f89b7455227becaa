import JqLens.Text.Reader

/-
  This file tells which numbers a double can hold, without
  computing with doubles: natural numbers are rounded to doubles
  and compared with the bound beyond which there are none.

  Key definitions include:
    * `nearestDouble`
    * `doubleBound`
    * `exceedsDouble`
-/

namespace JqLens.Text

------------------------------------------------------------
-- Rounding
------------------------------------------------------------

/-
  The double nearest to a natural number, which has 53 leading
  bits and zeros behind them. Halfway between two the one whose
  last bit is zero is taken.
-/
def nearestDouble (n : Nat) : Nat :=
  let unit := Nat.pow 2 (n.log2 - 52)
  let low := n / unit
  let rest := n % unit
  if unit < 2 * rest || (unit = 2 * rest && low % 2 = 1) then (low + 1) * unit
  else low * unit

------------------------------------------------------------
-- Overflow
------------------------------------------------------------

/-
  The least natural number that no double can hold: from here on
  rounding to the nearest double gives infinity.
-/
def doubleBound : Nat :=
  Nat.pow 2 1024 - Nat.pow 2 970

/-
  The decimal number with the given digits and power of ten is
  too large for a double. Far from the bound the number of
  digits settles it.
-/
def exceedsDouble (digits : List Char) (exponent : Int) : Bool :=
  let digits := digits.dropWhile (· = '0')
  let magnitude := digits.length + exponent
  if digits.isEmpty then false
  else if magnitude ≤ 308 then false
  else if 309 < magnitude then true
  else
    let value := digitsValue digits
    if 0 ≤ exponent then doubleBound ≤ value * Nat.pow 10 exponent.toNat
    else doubleBound * Nat.pow 10 (-exponent).toNat ≤ value

end JqLens.Text
