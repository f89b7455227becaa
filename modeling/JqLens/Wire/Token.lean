import JqLens.Json.Decode
import JqLens.Pipeline
import JqLens.Token.Basic

/-
  This file fixes how tokens and pipelines are written as JSON
  and read again.

  Key definitions include:
    * `Category.encode`, `Category.decode`
    * `DotForm.encode`, `DotForm.decode`
    * `Token.encode`, `Token.decode`
    * `Stage.encode`, `Stage.decode`
    * `Pipeline.encode`, `Pipeline.decode`
-/

namespace JqLens

------------------------------------------------------------
-- Categories
------------------------------------------------------------

namespace Category

/- A category is written as its name. -/
def encode (category : Category) : Json :=
  .str category.name

/- The category of a name that has been read. -/
def decodeName (name : String) : Except Fault Category :=
  match ofName? name with
  | some category => .ok category
  | none => .error .mismatch

/- A category is its name, or an object of that name and null. -/
def decode : Reading → Except Fault Category
  | .str name => decodeName name
  | .obj [(some name, .null)] true => decodeName name
  | _ => .error .mismatch

end Category

------------------------------------------------------------
-- Dot forms
------------------------------------------------------------

namespace DotForm

/- A form is written with its name and its question mark. -/
def encode (form : DotForm) : Json :=
  match form.suppressed? with
  | none => .obj [("kind", .str form.kind)]
  | some suppressed => .obj [("kind", .str form.kind), ("suppressed", .bool suppressed)]

/- The form of a name that goes without a question mark. -/
def plain? (kind : String) : Option DotForm :=
  match kind with
  | "identity" => some identity
  | "recursiveDescent" => some recursiveDescent
  | _ => none

/- The forms of a name that may have a question mark. -/
def marked? (kind : String) : Option (Bool → DotForm) :=
  match kind with
  | "iterate" => some iterate
  | "index" => some index
  | "slice" => some slice
  | "field" => some field
  | "fieldIterate" => some fieldIterate
  | _ => none

/- The members of a form: its name, and all others kept for later. -/
structure Parts where
  kind : Option String := none
  others : List (Option String × Reading) := []

/- Take a member of a form, inside which there is room for so many levels. -/
def part
    (room : Nat)
    (name : String)
    (value : Reading)
    (parts : Parts) : Except Fault Parts :=
  if name = "kind" then
    return { parts with kind := ← Decode.once Decode.string value parts.kind }
  else if value.keeps room then
    return { parts with others := parts.others ++ [(some name, value)] }
  else .error .malformed

/- The question mark among members that have been kept. -/
def suppressedMember (others : List (Option String × Reading)) : Except Fault Bool := do
  let found ← Decode.members
    (fun name value found =>
      if name = "suppressed" then Decode.once Decode.bool value found else .ok found)
    true none others
  Decode.required found

/- The form of the parts of an object. -/
def ofParts (parts : Parts) : Except Fault DotForm := do
  let kind ← Decode.required parts.kind
  match plain? kind, marked? kind with
  | some form, _ => return form
  | none, some make => return make (← suppressedMember parts.others)
  | none, none => .error .mismatch

/- The form of an array: its name, and its question mark if it may have one. -/
def ofItems : List Reading → Except Fault DotForm
  | [.str kind] => Decode.required (plain? kind)
  | [.str kind, .bool suppressed] => do
      let make ← Decode.required (marked? kind)
      return make suppressed
  | _ => .error .mismatch

/-
  A form is an object with its name anywhere in it, or an array
  that starts with it. `depth` levels are open around it.
-/
def decode (depth : Nat) : Reading → Except Fault DotForm
  | .obj members closed => do
      ofParts (← Decode.members (part (Reading.maxDepth - depth - 1)) closed {} members)
  | .arr items closed =>
      if (Reading.arr items closed).keeps (Reading.maxDepth - depth) then ofItems items
      else .error .malformed
  | other => .error (Decode.wrongKind other)

end DotForm

------------------------------------------------------------
-- Tokens
------------------------------------------------------------

namespace Token

/- A token is written without the parts that it lacks. -/
def encode (token : Token) : Json :=
  .obj
    ([("text", .str token.text), ("category", token.category.encode),
      ("description", .str token.description)] ++
    (token.documentation.map fun text => ("documentation", Json.str text)).toList ++
    (token.form.map fun form => ("form", form.encode)).toList)

/- The members of a token that have been found. -/
structure Parts where
  text : Option String := none
  category : Option Category := none
  description : Option String := none
  documentation : Option (Option String) := none
  form : Option (Option DotForm) := none

/- Take a member of a token around which `depth` levels are open. -/
def part
    (depth : Nat)
    (name : String)
    (value : Reading)
    (parts : Parts) : Except Fault Parts :=
  match name with
  | "text" =>
      return { parts with text := ← Decode.once Decode.string value parts.text }
  | "category" =>
      return { parts with category := ← Decode.once Category.decode value parts.category }
  | "description" =>
      return { parts with
        description := ← Decode.once Decode.string value parts.description }
  | "documentation" =>
      return { parts with
        documentation :=
          ← Decode.once (Decode.optional Decode.string) value parts.documentation }
  | "form" =>
      return { parts with
        form := ← Decode.once (Decode.optional (DotForm.decode depth)) value parts.form }
  | _ => do
      Decode.ignored value
      return parts

/- The token of the members found. -/
def ofParts (parts : Parts) : Except Fault Token :=
  return {
    text := ← Decode.required parts.text
    category := ← Decode.required parts.category
    description := ← Decode.required parts.description
    documentation := parts.documentation.join
    form := parts.form.join }

/- A token is an object, or an array of its parts in order. -/
def decode (depth : Nat) : Reading → Except Fault Token
  | .obj members closed => do
      ofParts (← Decode.members (part (depth + 1)) closed {} members)
  | .arr items closed => do
      let (text, rest) ← Decode.element Decode.string ⟨items, closed⟩
      let (category, rest) ← Decode.element Category.decode rest
      let (description, rest) ← Decode.element Decode.string rest
      let (documentation, rest) ←
        Decode.elementOr none (Decode.optional Decode.string) rest
      let (form, rest) ←
        Decode.elementOr none (Decode.optional (DotForm.decode (depth + 1))) rest
      Decode.noMore rest
      return { text, category, description, documentation, form }
  | other => .error (Decode.wrongKind other)

end Token

------------------------------------------------------------
-- Pipelines
------------------------------------------------------------

namespace Stage

/- A stage is written with its position and its text. -/
def encode (stage : Stage) : Json :=
  .obj [("ordinal", .nat stage.ordinal), ("text", .str stage.text)]

/- The members of a stage that have been found. -/
structure Parts where
  ordinal : Option Nat := none
  text : Option String := none

/- Take a member of a stage. -/
def part
    (name : String)
    (value : Reading)
    (parts : Parts) : Except Fault Parts :=
  match name with
  | "ordinal" =>
      return { parts with ordinal := ← Decode.once Decode.natural value parts.ordinal }
  | "text" =>
      return { parts with text := ← Decode.once Decode.string value parts.text }
  | _ => do
      Decode.ignored value
      return parts

/- A stage is an object, or an array of its parts in order. -/
def decode : Reading → Except Fault Stage
  | .obj members closed => do
      let parts ← Decode.members part closed {} members
      return {
        ordinal := ← Decode.required parts.ordinal
        text := ← Decode.required parts.text }
  | .arr items closed => do
      let (ordinal, rest) ← Decode.element Decode.natural ⟨items, closed⟩
      let (text, rest) ← Decode.element Decode.string rest
      Decode.noMore rest
      return { ordinal, text }
  | other => .error (Decode.wrongKind other)

end Stage

namespace Pipeline

/- A pipeline is written with its stages and cumulative filters. -/
def encode (pipeline : Pipeline) : Json :=
  .obj [("fragments", .arr (pipeline.fragments.map Stage.encode)),
    ("progressive", .arr (pipeline.progressive.map Stage.encode))]

/- The members of a pipeline that have been found. -/
structure Parts where
  fragments : Option (List Stage) := none
  progressive : Option (List Stage) := none

/- Take a member of a pipeline. -/
def part
    (name : String)
    (value : Reading)
    (parts : Parts) : Except Fault Parts :=
  match name with
  | "fragments" =>
      return { parts with
        fragments := ← Decode.once (Decode.listOf Stage.decode) value parts.fragments }
  | "progressive" =>
      return { parts with
        progressive := ← Decode.once (Decode.listOf Stage.decode) value parts.progressive }
  | _ => do
      Decode.ignored value
      return parts

/- A pipeline is an object, or an array of its parts in order. -/
def decode : Reading → Except Fault Pipeline
  | .obj members closed => do
      let parts ← Decode.members part closed {} members
      return {
        fragments := ← Decode.required parts.fragments
        progressive := ← Decode.required parts.progressive }
  | .arr items closed => do
      let (fragments, rest) ← Decode.element (Decode.listOf Stage.decode) ⟨items, closed⟩
      let (progressive, rest) ← Decode.element (Decode.listOf Stage.decode) rest
      Decode.noMore rest
      return { fragments, progressive }
  | other => .error (Decode.wrongKind other)

end Pipeline

end JqLens
