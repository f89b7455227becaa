import JqLens.Quote
import JqLens.Text.Blank
import JqLens.Text.WordChar
import JqLens.Token.Basic

/-
  This file cuts a filter into lexemes. The scan is total and
  loses nothing: every character of the filter lies in exactly
  one lexeme, blanks included, and what cannot be classified is
  a lexeme of a single character.

  Key definitions include:
    * `Access`
    * `Lexeme`
    * `Lexeme.text`
    * `Lexeme.next`
    * `Lexeme.scan`
-/

namespace JqLens

------------------------------------------------------------
-- Character classes
------------------------------------------------------------

namespace Lexeme

/- A letter or underscore of ASCII. -/
def isNameStart (c : Char) : Bool :=
  c.isAlpha || c == '_'

/- A character that may follow the first digit of a number. -/
def isNumberChar (c : Char) : Bool :=
  c.isDigit || ['.', 'e', 'E', '+', '-'].contains c

/-
  The operators of more than one character. None stands behind
  one that it starts with, so the first match is the longest.
-/
def longOperators : List (List Char) :=
  ["?//", "//=", "|=", "+=", "-=", "*=", "/=", "%=", "//", "==", "!=", "<=", ">="].map
    String.toList

/- The separators, brackets and other marks of one character. -/
def structuralOperators : List Char :=
  "|,;()[]\x7b\x7d:?".toList

/- The operators of arithmetic, comparison and assignment. -/
def arithmeticOperators : List Char :=
  "+-*/%<>=".toList

/- The operators of one character. -/
def shortOperators : List Char :=
  structuralOperators ++ arithmeticOperators

/- The longest operator of several characters that a text starts with. -/
def longOperator? (cs : List Char) : Option (List Char) :=
  longOperators.find? fun operator => operator.isPrefixOf cs

end Lexeme

------------------------------------------------------------
-- Path accesses
------------------------------------------------------------

/-
  A path access: a dot with what belongs to it. `suppressed`
  tells that a question mark ends it.
-/
inductive Access where
  /- `.` -/
  | identity
  /- `..` -/
  | recursiveDescent
  /- `.[]` -/
  | iterate (suppressed : Bool)
  /-
    A dot and a bracketed `body`, brackets included; without its
    closing bracket the body is all the rest of the filter.
    `slice` tells that a colon stands directly inside.
  -/
  | bracket (body : List Char) (slice : Bool) (suppressed : Bool)
  /- `.name` -/
  | field (name : List Char) (suppressed : Bool)
  /- `.name[]` -/
  | fieldIterate (name : List Char) (suppressed : Bool)
  deriving DecidableEq, Repr

namespace Access

/- The question mark of an access, where there is one. -/
def mark (suppressed : Bool) : List Char :=
  if suppressed then ['?'] else []

/- The text of an access. -/
def text : Access → List Char
  | identity => ['.']
  | recursiveDescent => ['.', '.']
  | iterate suppressed => '.' :: '[' :: ']' :: mark suppressed
  | bracket body _ suppressed => '.' :: (body ++ mark suppressed)
  | field name suppressed => '.' :: (name ++ mark suppressed)
  | fieldIterate name suppressed => '.' :: (name ++ '[' :: ']' :: mark suppressed)

/- The form of an access. -/
def form : Access → DotForm
  | identity => .identity
  | recursiveDescent => .recursiveDescent
  | iterate suppressed => .iterate suppressed
  | bracket _ slice suppressed => if slice then .slice suppressed else .index suppressed
  | field _ suppressed => .field suppressed
  | fieldIterate _ suppressed => .fieldIterate suppressed

/- What a scan for the closing bracket has found. -/
structure BracketSpan where
  /- The text up to the closing bracket, that bracket included. -/
  body : List Char
  /- A colon stands outside literals and directly inside the brackets. -/
  slice : Bool
  /- The text behind the closing bracket. -/
  rest : List Char

/- Put a character in front of the body. -/
def BracketSpan.push
    (found : BracketSpan)
    (c : Char)
    (colon : Bool) : BracketSpan :=
  { found with body := c :: found.body, slice := colon || found.slice }

/-
  Scan to the bracket that closes the `depth` brackets opened so
  far, over everything that string literals hold. Without one
  the body takes the whole text.
-/
def bracketSpan
    (k : Quote.Cursor)
    (depth : Nat) : List Char → BracketSpan
  | [] => ⟨[], false, []⟩
  | c :: cs =>
      if (k.step c).isLiteral then
        (bracketSpan (k.next c) depth cs).push c false
      else if c = '[' then
        (bracketSpan (k.next c) (depth + 1) cs).push c false
      else if c = ']' then
        if depth ≤ 1 then ⟨[c], false, cs⟩
        else (bracketSpan (k.next c) (depth - 1) cs).push c false
      else
        (bracketSpan (k.next c) depth cs).push c (c = ':' && depth = 1)

/- Take a question mark that comes next. -/
def takeMark : List Char → Bool × List Char
  | '?' :: cs => (true, cs)
  | cs => (false, cs)

/- The access that starts with a dot followed by the given text. -/
def read (cs : List Char) : Access × List Char :=
  match cs with
  | '[' :: ']' :: rest =>
      let (suppressed, rest) := takeMark rest
      (iterate suppressed, rest)
  | '[' :: _ =>
      let found := bracketSpan .outside 0 cs
      let (suppressed, rest) := takeMark found.rest
      (bracket found.body found.slice suppressed, rest)
  | '.' :: rest => (recursiveDescent, rest)
  | c :: _ =>
      if Lexeme.isNameStart c then
        let name := cs.takeWhile Text.isAsciiWord
        match cs.dropWhile Text.isAsciiWord with
        | '[' :: ']' :: rest =>
            let (suppressed, rest) := takeMark rest
            (fieldIterate name suppressed, rest)
        | rest =>
            let (suppressed, rest) := takeMark rest
            (field name suppressed, rest)
      else
        (identity, cs)
  | [] => (identity, [])

end Access

------------------------------------------------------------
-- Lexemes
------------------------------------------------------------

/- A piece of a filter as the scan classifies it. -/
inductive Lexeme where
  /- A run of blanks. -/
  | space (text : List Char)
  /- A string literal, its quotes included. -/
  | literal (text : List Char)
  | number (text : List Char)
  /- A name behind a dollar sign. -/
  | var (name : List Char)
  /- A name behind an at sign. -/
  | format (name : List Char)
  | operator (text : List Char)
  | access (path : Access)
  /- A name on its own. -/
  | word (text : List Char)
  /- A character that belongs to nothing. -/
  | stray (c : Char)
  deriving DecidableEq, Repr

namespace Lexeme

/- The text of a lexeme. -/
def text : Lexeme → List Char
  | space text => text
  | literal text => text
  | number text => text
  | var name => '$' :: name
  | format name => '@' :: name
  | operator text => text
  | access path => path.text
  | word text => text
  | stray c => [c]

/-
  The lexeme at the start of a text, given as its first
  character and the others, with the text behind it.
-/
def next (c : Char) (cs : List Char) : Lexeme × List Char :=
  if Text.isBlank c then
    (space (c :: cs.takeWhile Text.isBlank), cs.dropWhile Text.isBlank)
  else if c = '"' then
    let (body, rest) := Quote.span .inside cs
    (literal (c :: body), rest)
  else if c.isDigit then
    (number (c :: cs.takeWhile isNumberChar), cs.dropWhile isNumberChar)
  else if c = '$' then
    (var (cs.takeWhile Text.isAsciiWord), cs.dropWhile Text.isAsciiWord)
  else if c = '@' then
    (format (cs.takeWhile Text.isAsciiWord), cs.dropWhile Text.isAsciiWord)
  else
    match longOperator? (c :: cs) with
    | some long => (operator long, cs.drop (long.length - 1))
    | none =>
        if c = '.' then
          let (path, rest) := Access.read cs
          (access path, rest)
        else if shortOperators.contains c then
          (operator [c], cs)
        else if isNameStart c then
          (word (c :: cs.takeWhile Text.isAsciiWord), cs.dropWhile Text.isAsciiWord)
        else
          (stray c, cs)

------------------------------------------------------------
-- Lengths
------------------------------------------------------------

/- Dropping a leading run makes no text longer. -/
theorem length_dropWhile_le (p : Char → Bool) (cs : List Char) :
    (cs.dropWhile p).length ≤ cs.length :=
  (List.dropWhile_sublist p).length_le

/- What is behind a literal is no longer than the text. -/
theorem length_span_le (k : Quote.Cursor) (cs : List Char) :
    (Quote.span k cs).2.length ≤ cs.length := by
  induction cs generalizing k with
  | nil => simp [Quote.span]
  | cons c cs ih =>
    unfold Quote.span
    split
    · exact Nat.le_succ_of_le (ih _)
    · exact Nat.le_succ _

/- What is behind a bracketed body is no longer than the text. -/
theorem length_bracketSpan_le (k : Quote.Cursor) (depth : Nat) (cs : List Char) :
    (Access.bracketSpan k depth cs).rest.length ≤ cs.length := by
  induction cs generalizing k depth with
  | nil => simp [Access.bracketSpan]
  | cons c cs ih =>
    unfold Access.bracketSpan
    split
    · exact Nat.le_succ_of_le (ih _ _)
    split
    · exact Nat.le_succ_of_le (ih _ _)
    split
    · split
      · exact Nat.le_succ _
      · exact Nat.le_succ_of_le (ih _ _)
    · exact Nat.le_succ_of_le (ih _ _)

/- What is behind a question mark is no longer than the text. -/
theorem length_takeMark_le (cs : List Char) :
    (Access.takeMark cs).2.length ≤ cs.length := by
  unfold Access.takeMark
  split <;> simp

/- What is behind an access is no longer than the text behind its dot. -/
theorem length_read_le (cs : List Char) :
    (Access.read cs).2.length ≤ cs.length := by
  unfold Access.read
  split
  · next rest =>
    have := length_takeMark_le rest
    simp only [List.length_cons]
    omega
  · next rest _ =>
    exact Nat.le_trans (length_takeMark_le _) (length_bracketSpan_le _ _ _)
  · exact Nat.le_succ _
  · next c rest _ _ _ =>
    have hdrop := length_dropWhile_le Text.isAsciiWord (c :: rest)
    split
    · dsimp only
      split
      · next rest' h =>
        have := length_takeMark_le rest'
        rw [h] at hdrop
        simp only [List.length_cons] at hdrop ⊢
        omega
      · exact Nat.le_trans (length_takeMark_le _) hdrop
    · exact Nat.le_refl _
  · exact Nat.le_refl _

/- What is behind a lexeme is no longer than the text behind its first character. -/
theorem length_next_le (c : Char) (cs : List Char) :
    (next c cs).2.length ≤ cs.length := by
  unfold next
  split
  · exact length_dropWhile_le _ _
  split
  · exact length_span_le _ _
  split
  · exact length_dropWhile_le _ _
  split
  · exact length_dropWhile_le _ _
  split
  · exact length_dropWhile_le _ _
  split
  · exact (List.drop_sublist _ _).length_le
  split
  · exact length_read_le _
  split
  · exact Nat.le_refl _
  split
  · exact length_dropWhile_le _ _
  · exact Nat.le_refl _

------------------------------------------------------------
-- The scan
------------------------------------------------------------

/- The lexemes of a filter, in order. -/
def scan : List Char → List Lexeme
  | [] => []
  | c :: cs => (next c cs).1 :: scan (next c cs).2
termination_by cs => cs.length
decreasing_by
  have := length_next_le c cs
  simp only [List.length_cons]
  omega

end Lexeme

end JqLens
