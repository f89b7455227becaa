/-
  This file defines tokens: the classified pieces of a filter
  with a short explanation each.

  Key definitions include:
    * `Category`
    * `Category.name`
    * `Category.all`
    * `DotForm`
    * `Token`
    * `reconstruct`
-/

namespace JqLens

------------------------------------------------------------
-- Categories
------------------------------------------------------------

/- What kind of thing a token is. -/
inductive Category where
  /- Path access: identity, iteration, indexing, slicing, descent. -/
  | access
  | operator
  | keyword
  | builtin
  /- `null`, `true` and `false`. -/
  | literal
  /- `@base64`, `@csv` and the like. -/
  | format
  | string
  | number
  | var
  /- Field access, or a key of an object in its short form. -/
  | field
  /- Text that is none of the above. -/
  | unknown
  /- A run of blanks. -/
  | space
  deriving DecidableEq, Repr

namespace Category

/- Every category, in the order in which they are declared. -/
def all : List Category :=
  [access, operator, keyword, builtin, literal, format, string, number, var, field,
    unknown, space]

/- The lower-case name of a category. -/
def name : Category → String
  | access => "access"
  | operator => "operator"
  | keyword => "keyword"
  | builtin => "builtin"
  | literal => "literal"
  | format => "format"
  | string => "string"
  | number => "number"
  | var => "variable"
  | field => "field"
  | unknown => "unknown"
  | space => "space"

/- The category of a given name. -/
def ofName? (text : String) : Option Category :=
  all.find? fun category => category.name == text

end Category

------------------------------------------------------------
-- Dot forms
------------------------------------------------------------

/-
  The shape of a token that starts with a dot. `suppressed`
  records a question mark at its end.
-/
inductive DotForm where
  /- `.` -/
  | identity
  /- `..` -/
  | recursiveDescent
  /- `.[]` -/
  | iterate (suppressed : Bool)
  /- `.[0]` or `.["key"]` -/
  | index (suppressed : Bool)
  /- `.[1:3]` -/
  | slice (suppressed : Bool)
  /- `.name` -/
  | field (suppressed : Bool)
  /- `.name[]` -/
  | fieldIterate (suppressed : Bool)
  deriving DecidableEq, Repr

namespace DotForm

/- The name of a form. -/
def kind : DotForm → String
  | identity => "identity"
  | recursiveDescent => "recursiveDescent"
  | iterate _ => "iterate"
  | index _ => "index"
  | slice _ => "slice"
  | field _ => "field"
  | fieldIterate _ => "fieldIterate"

/- The question mark of a form, for those that may have one. -/
def suppressed? : DotForm → Option Bool
  | identity => none
  | recursiveDescent => none
  | iterate suppressed => some suppressed
  | index suppressed => some suppressed
  | slice suppressed => some suppressed
  | field suppressed => some suppressed
  | fieldIterate suppressed => some suppressed

end DotForm

------------------------------------------------------------
-- Tokens
------------------------------------------------------------

/- A classified piece of a filter. -/
structure Token where
  text : String
  category : Category
  description : String
  documentation : Option String := none
  form : Option DotForm := none
  deriving DecidableEq, Repr

namespace Token

/- Attach longer documentation; empty documentation is none. -/
def withDocumentation (token : Token) (documentation : String) : Token :=
  if documentation.isEmpty then token
  else { token with documentation := some documentation }

/- A token that stands for a run of blanks. -/
def isSpace (token : Token) : Bool :=
  token.category == .space

end Token

/- The texts of the tokens, joined in order. -/
def reconstruct (tokens : List Token) : String :=
  String.ofList (tokens.flatMap fun token => token.text.toList)

end JqLens
