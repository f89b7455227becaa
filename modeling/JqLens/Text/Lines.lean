/-
  This file splits a text into lines.

  Key definitions include:
    * `lines`
    * `joinWith`
-/

namespace JqLens.Text

------------------------------------------------------------
-- Lines
------------------------------------------------------------

/-
  The lines of a text whose current line has been read so far
  as `line`, last character first.
-/
def linesFrom (line : List Char) : List Char → List (List Char)
  | [] => if line.isEmpty then [] else [line.reverse]
  | c :: cs =>
      if c = '\n' then
        match line with
        | '\r' :: line => line.reverse :: linesFrom [] cs
        | _ => line.reverse :: linesFrom [] cs
      else
        linesFrom (c :: line) cs

/-
  The lines of a text. A line ends at a line feed, which is not
  part of it, nor is a carriage return directly before that
  line feed. A text that ends with a line feed has no further
  empty line after it.
-/
def lines (cs : List Char) : List (List Char) :=
  linesFrom [] cs

/- The pieces in order with the separator between neighbours. -/
def joinWith
    (separator : List Char) : List (List Char) → List Char
  | [] => []
  | [piece] => piece
  | piece :: pieces => piece ++ separator ++ joinWith separator pieces

theorem joinWith_cons_cons
    (separator piece second : List Char)
    (pieces : List (List Char)) :
    joinWith separator (piece :: second :: pieces) =
      piece ++ separator ++ joinWith separator (second :: pieces) := by
  rw [joinWith]
  simp

end JqLens.Text
