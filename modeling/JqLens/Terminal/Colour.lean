import JqLens.Text.Blank
import JqLens.Text.Lines
import JqLens.Token.Basic

/-
  This file colours text for a terminal with the palette of 256
  colours, and decides whether to colour at all.

  Key definitions include:
    * `Colour.enabled`
    * `Colour.paint`
    * `Colour.ofCategory`
    * `Colour.descriptionStart`
    * `Colour.examples`
-/

namespace JqLens.Colour

------------------------------------------------------------
-- Colours
------------------------------------------------------------

/- Titles of sections. -/
def header : Nat :=
  74

/- Commands and literal text. -/
def literal : Nat :=
  250

/- Remarks. -/
def context : Nat :=
  245

/- Errors. -/
def error : Nat :=
  167

/- The colour of tokens of a category. -/
def ofCategory : Category → Nat
  | .access => 110
  | .operator => 180
  | .keyword => 176
  | .builtin => 114
  | .literal => 209
  | .format => 139
  | .string => 150
  | .number => 215
  | .var => 117
  | .field => 153
  | .unknown => error
  | .space => context

------------------------------------------------------------
-- Painting
------------------------------------------------------------

/-
  Colours are on or off as the environment says: one setting
  turns them off, another one turns them on, and without either
  they are for terminals.
-/
def enabled (noColor color : Option String) (terminal : Bool) : Bool :=
  if noColor = some "1" then false
  else if color = some "1" then true
  else terminal

/- What switches a colour on. -/
def start (code : Nat) : List Char :=
  '\x1b' :: "[38;5;".toList ++ Nat.toDigits 10 code ++ ['m']

/- What switches all colours off. -/
def reset : List Char :=
  '\x1b' :: "[0m".toList

/- A text in a colour. -/
def paint (code : Nat) (text : List Char) : List Char :=
  start code ++ text ++ reset

/- A text in a colour if colours are on. -/
def paintIf (on : Bool) (code : Nat) (text : List Char) : List Char :=
  if on then paint code text else text

------------------------------------------------------------
-- Blocks of examples
------------------------------------------------------------

/-
  The position of the description in a line whose characters
  have the given sizes, from the position at which the line is
  read on and that of the run of spaces read last, if the line
  stands inside such a run.
-/
def descriptionFrom
    (size : Char → Nat)
    (position : Nat)
    (run : Option Nat) : List Char → Option Nat
  | [] => none
  | c :: cs =>
      match run with
      | none =>
          descriptionFrom size (position + size c) (if c = ' ' then some position else none) cs
      | some first =>
          if c = ' ' then descriptionFrom size (position + size c) run cs
          else if 2 ≤ position - first then some first
          else descriptionFrom size (position + size c) none cs

/-
  The number of characters in front of the first run of two or
  more spaces that has another character behind it.
-/
def descriptionStart (line : List Char) : Option Nat :=
  descriptionFrom (fun _ => 1) 0 none line

/- The same, counted in bytes. -/
def descriptionByte (line : String) : Option Nat :=
  descriptionFrom Char.utf8Size 0 none line.toList

/- A text has two spaces next to each other. -/
def hasGap : List Char → Bool
  | ' ' :: ' ' :: _ => true
  | _ :: cs => hasGap cs
  | [] => false

/-
  A line of a block of examples: a title ends with a colon and
  has no gap; an example is coloured up to its description.
-/
def exampleLine (line : List Char) : List Char :=
  let body := Text.trimStart line
  let indent := line.takeWhile Text.isBlank
  if body.getLast? = some ':' && !hasGap body then
    indent ++ paint header body
  else
    match descriptionStart body with
    | some position => indent ++ paint literal (body.take position) ++ body.drop position
    | none => line

/-
  Lines one below the other, behind those so far; a line break
  goes only where something stands in front of it.
-/
def stack (above : List Char) : List (List Char) → List Char
  | [] => above
  | line :: lines =>
      stack (if above.isEmpty then line else above ++ '\n' :: line) lines

/- A block of examples, coloured if colours are on. -/
def examples (on : Bool) (text : String) : String :=
  if on then String.ofList (stack [] ((Text.lines text.toList).map exampleLine)) else text

end JqLens.Colour
