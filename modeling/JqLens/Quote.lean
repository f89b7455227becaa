/-
  This file holds the rules for string literals inside a
  filter. A quote opens a literal and the next quote that is
  not escaped closes it; inside a literal a backslash makes
  the following character verbatim; outside one a backslash
  means nothing.

  Key definitions include:
    * `Step`
    * `Cursor`
    * `Cursor.next`
    * `Cursor.step`
    * `Cursor.trace`
    * `span`
    * `literalLength`
-/

namespace JqLens.Quote

------------------------------------------------------------
-- Classification of characters
------------------------------------------------------------

/- What a single character is to a scan for literals. -/
inductive Step where
  /- Ordinary filter code. -/
  | code
  /- The quote that opens a literal. -/
  | opening
  /- A character of a literal's body. -/
  | inside
  /- The quote that closes a literal. -/
  | closing
  deriving DecidableEq, Repr

/- Every character of a literal, its quotes included. -/
def Step.isLiteral : Step → Bool
  | .code => false
  | _ => true

------------------------------------------------------------
-- The cursor
------------------------------------------------------------

/- Where a left-to-right scan stands. -/
inductive Cursor where
  /- Outside every literal. -/
  | outside
  /- Between an opening and a closing quote. -/
  | inside
  /- Inside a literal, directly after a backslash. -/
  | escaped
  deriving DecidableEq, Repr

namespace Cursor

/- The scan is between an opening and a closing quote. -/
def inString : Cursor → Bool
  | outside => false
  | _ => true

/- The cursor after one more character. -/
def next (k : Cursor) (c : Char) : Cursor :=
  match k with
  | outside => if c = '"' then inside else outside
  | inside => if c = '\\' then escaped else if c = '"' then outside else inside
  | escaped => inside

/- The classification of the next character. -/
def step (k : Cursor) (c : Char) : Step :=
  match k with
  | outside => if c = '"' then .opening else .code
  | inside => if c = '"' then .closing else .inside
  | escaped => .inside

/- The cursor after a whole text. -/
def run (k : Cursor) (cs : List Char) : Cursor :=
  cs.foldl next k

/-
  The classification of every character of a text, with the
  cursor after it.
-/
def trace (k : Cursor) : List Char → List (Step × Cursor)
  | [] => []
  | c :: cs => (k.step c, k.next c) :: trace (k.next c) cs

end Cursor

------------------------------------------------------------
-- Literals
------------------------------------------------------------

/-
  Cut a text after the first character that leaves the cursor
  outside every literal; the whole text is the first part when
  there is no such character.
-/
def span (k : Cursor) : List Char → List Char × List Char
  | [] => ([], [])
  | c :: cs =>
      if (k.next c).inString then
        let (body, rest) := span (k.next c) cs
        (c :: body, rest)
      else
        ([c], cs)

/-
  The length of the literal at the start of a text, closing
  quote included. A literal without one takes the whole text; a
  first character that is no quote counts alone.
-/
def literalLength (cs : List Char) : Nat :=
  (span .outside cs).1.length

end JqLens.Quote
