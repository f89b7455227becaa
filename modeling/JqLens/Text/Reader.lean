/-
  This file holds the small readers that several formats share:
  for a character that comes next, for digits and signs, and
  for natural numbers.

  Key definitions include:
    * `after?`
    * `digit?`
    * `value?`
    * `digitsValue`
    * `unsigned?`
-/

namespace JqLens.Text

------------------------------------------------------------
-- Characters
------------------------------------------------------------

/- The text behind a character that comes next. -/
def after? (c : Char) (cs : List Char) : Option (List Char) :=
  if cs.head? = some c then some cs.tail else none

------------------------------------------------------------
-- Digits
------------------------------------------------------------

/- The value of a digit in a notation with a base of at most sixteen. -/
def digit? (base : Nat) (c : Char) : Option Nat :=
  let value :=
    if c.isDigit then c.toNat - 0x30
    else if 'a' ≤ c && c ≤ 'f' then c.toNat - 0x61 + 10
    else if 'A' ≤ c && c ≤ 'F' then c.toNat - 0x41 + 10
    else base
  if value < base then some value else none

/- The value of digits, all of which belong to the notation. -/
def value? (base : Nat) (cs : List Char) : Option Nat :=
  cs.foldlM (fun n c => (digit? base c).map fun d => base * n + d) 0

/- The value of decimal digits. -/
def digitsValue (cs : List Char) : Nat :=
  cs.foldl (fun n c => 10 * n + (c.toNat - 0x30)) 0

------------------------------------------------------------
-- Numbers
------------------------------------------------------------

/- A sign in front of a number: whether it is a minus, and the rest. -/
def sign : List Char → Bool × List Char
  | '-' :: cs => (true, cs)
  | '+' :: cs => (false, cs)
  | cs => (false, cs)

/- The text without a plus sign in front. -/
def dropPlus : List Char → List Char
  | '+' :: cs => cs
  | cs => cs

/-
  The number that a text spells below a bound. A plus sign may
  stand in front; at least one digit and nothing else follows.
-/
def unsigned? (bound : Nat) (cs : List Char) : Option Nat :=
  let digits := dropPlus cs
  if digits.isEmpty || !digits.all Char.isDigit then none
  else if digitsValue digits < bound then some (digitsValue digits)
  else none

end JqLens.Text
