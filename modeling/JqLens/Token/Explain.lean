import JqLens.Token.Glossary
import JqLens.Token.Lexeme

/-
  This file explains lexemes. A text in the glossary takes its
  entry; any other gets a description made for its kind. A name
  without an entry is the key of an object in its short form
  when more braces have been opened than closed before it.

  Key definitions include:
    * `Lexeme.explain`
    * `Lexeme.depthAfter`
    * `explainAll`
    * `tokenize`
-/

namespace JqLens

------------------------------------------------------------
-- Tokens of fixed meaning
------------------------------------------------------------

/-
  The token of a text after its glossary entry. A text without
  one describes itself and has the given category.
-/
def Token.ofGlossary (text : String) (category : Category) : Token :=
  match Gloss.find? text with
  | some gloss =>
      Token.withDocumentation
        { text, category := gloss.category, description := gloss.description }
        gloss.documentation
  | none => { text, category, description := text }

------------------------------------------------------------
-- Explaining a lexeme
------------------------------------------------------------

/- The token of a path access. -/
def Access.explain (path : Access) : Token :=
  let text := String.ofList path.text
  match path with
  | identity | recursiveDescent | iterate _ =>
      { Token.ofGlossary text .access with form := some path.form }
  | bracket _ true _ =>
      { text
        category := .access
        description := "Array slice: " ++ text
        documentation := some "Slice [start:end], end exclusive. Works on strings too."
        form := some path.form }
  | bracket _ false _ =>
      { text
        category := .access
        description := "Index access: " ++ text
        documentation := some ("Zero-based index, negative values count from the end. " ++
          "A string key looks up an object field.")
        form := some path.form }
  | field name suppressed =>
      let name := String.ofList name
      { text
        category := .field
        description := "Access field \"" ++ name ++ "\" from the input object"
        documentation := some
          (if suppressed then "The ? suppresses the error when the input is not an object."
          else "Fails when the input is not an object; use ." ++ name ++ "? to suppress.")
        form := some path.form }
  | fieldIterate name _ =>
      let name := String.ofList name
      { text
        category := .access
        description := "Access field \"" ++ name ++ "\" then iterate all its elements"
        documentation := some ("Same as ." ++ name ++
          " | .[]: extracts the container and outputs each element.")
        form := some path.form }

namespace Lexeme

/- The token of a string literal. -/
def explainLiteral (text : List Char) : Token :=
  { text := String.ofList text
    category := .string
    description :=
      if (Quote.Cursor.outside.run text).inString then "Unterminated string literal"
      else "String literal"
    documentation := some
      "Supports escapes like \\n and \\t, and interpolation with \\(expr)." }

/- The token of a name behind a dollar sign. -/
def explainVariable (text : String) : Token :=
  match Gloss.find? text with
  | some _ => Token.ofGlossary text .var
  | none =>
      { text
        category := .var
        description := "Variable " ++ text ++ ": bound with \"as " ++ text ++
          "\" or a function parameter"
        documentation := some "Variables are immutable; rebinding creates a new scope." }

/- The token of a name behind an at sign. -/
def explainFormat (text : String) : Token :=
  match Gloss.find? text with
  | some gloss =>
      Token.withDocumentation
        { text, category := .format, description := gloss.description } gloss.documentation
  | none => { text, category := .format, description := "Format: " ++ text }

/-
  The token of a name on its own, with as many braces open
  before it as `depth` says.
-/
def explainWord (depth : Int) (text : String) : Token :=
  match Gloss.find? text with
  | some _ => Token.ofGlossary text .unknown
  | none =>
      if 0 < depth then
        { text
          category := .field
          description := "Object shorthand: outputs the \"" ++ text ++ "\" field as \"" ++
            text ++ "\": ." ++ text
          documentation := some ("\x7b" ++ text ++ "\x7d is equivalent to \x7b\"" ++ text ++
            "\": ." ++ text ++ "\x7d") }
      else
        { text
          category := .unknown
          description := "\"" ++ text ++ "\": user-defined function or unknown builtin" }

/-
  The token of a lexeme, with as many braces open before it as
  `depth` says.
-/
def explain (depth : Int) (lexeme : Lexeme) : Token :=
  let text := String.ofList lexeme.text
  match lexeme with
  | space _ => { text, category := .space, description := "" }
  | literal body => explainLiteral body
  | number _ =>
      { text, category := .number, description := "Number literal: " ++ text }
  | var _ => explainVariable text
  | format _ => explainFormat text
  | operator _ => Token.ofGlossary text .operator
  | access path => path.explain
  | word _ => explainWord depth text
  | stray _ =>
      { text
        category := .unknown
        description := "Unrecognized character '" ++ text ++ "'" }

/-
  How many more braces have been opened than closed after a
  lexeme, from the number before it.
-/
def depthAfter (depth : Int) : Lexeme → Int
  | operator ['\x7b'] => depth + 1
  | operator ['\x7d'] => depth - 1
  | _ => depth

end Lexeme

------------------------------------------------------------
-- Explaining a filter
------------------------------------------------------------

/- The tokens of lexemes in order, from a number of open braces. -/
def explainAll (depth : Int) : List Lexeme → List Token
  | [] => []
  | lexeme :: lexemes =>
      lexeme.explain depth :: explainAll (lexeme.depthAfter depth) lexemes

/- The explained tokens of a filter, whatever it holds. -/
def tokenize (filter : String) : List Token :=
  explainAll 0 (Lexeme.scan filter.toList)

end JqLens
