/-
  This file fixes which characters are blank and what follows
  from it: trimming a text and splitting it into words.

  Key definitions include:
    * `isBlank`
    * `trimStart`
    * `trimEnd`
    * `trim`
    * `words`
-/

namespace JqLens.Text

------------------------------------------------------------
-- Blank characters
------------------------------------------------------------

/-
  The code points of the Unicode property `White_Space`, as
  inclusive ranges.
-/
def blankRanges : List (Nat × Nat) :=
  [(0x9, 0xD), (0x20, 0x20), (0x85, 0x85), (0xA0, 0xA0), (0x1680, 0x1680),
    (0x2000, 0x200A), (0x2028, 0x2029), (0x202F, 0x202F), (0x205F, 0x205F),
    (0x3000, 0x3000)]

/- A character is blank when it has the property `White_Space`. -/
def isBlank (c : Char) : Bool :=
  blankRanges.any fun r => r.1 ≤ c.toNat && c.toNat ≤ r.2

------------------------------------------------------------
-- Trimming
------------------------------------------------------------

/- Drop the blanks at the front. -/
def trimStart (cs : List Char) : List Char :=
  cs.dropWhile isBlank

/- Drop the blanks at the back. -/
def trimEnd (cs : List Char) : List Char :=
  (cs.reverse.dropWhile isBlank).reverse

/- Drop the blanks on both sides. -/
def trim (cs : List Char) : List Char :=
  trimEnd (trimStart cs)

------------------------------------------------------------
-- Words
------------------------------------------------------------

/-
  The words of a text whose current word has been read so far
  as `word`, last character first. An empty word is no word.
-/
def wordsFrom (word : List Char) : List Char → List (List Char)
  | [] => if word.isEmpty then [] else [word.reverse]
  | c :: cs =>
      if isBlank c then
        if word.isEmpty then wordsFrom [] cs else word.reverse :: wordsFrom [] cs
      else
        wordsFrom (c :: word) cs

/- The maximal runs of characters that are not blank, in order. -/
def words (cs : List Char) : List (List Char) :=
  wordsFrom [] cs

end JqLens.Text
