/-
  This file splits a text at a separator character.

  Key definitions include:
    * `split`
    * `splitString`
-/

namespace JqLens.Text

/-
  The pieces of a text between the separators, empty ones
  included. A text without separators is its only piece.
-/
def split (separator : Char) : List Char → List (List Char)
  | [] => [[]]
  | c :: cs =>
      if c = separator then [] :: split separator cs
      else
        match split separator cs with
        | [] => [[c]]
        | piece :: pieces => (c :: piece) :: pieces

/- The pieces of a string between the separators. -/
def splitString (separator : Char) (text : String) : List String :=
  (split separator text.toList).map String.ofList

end JqLens.Text
