import JqLens.Engine.Steps
import JqLens.Wire.Token

/-
  This file defines the messages that are exchanged with the
  service, how they are written as JSON and how they are read.
  A response is either what was asked for or a single error
  text; expected failures travel as such texts.

  Key definitions include:
    * `Options.encode`, `Options.decode`
    * `EvalRequest`
    * `EvalResponse`
    * `StepsRequest`
    * `StepsResponse`
    * `ExplainRequest`
    * `ExplainResponse`
    * `VersionResponse`
-/

namespace JqLens

------------------------------------------------------------
-- Options
------------------------------------------------------------

namespace Options

/- The members that hold the options. -/
def memberList (options : Options) : List (String × Json) :=
  [("rawOutput", .bool options.rawOutput), ("slurp", .bool options.slurp),
    ("rawInput", .bool options.rawInput), ("nullInput", .bool options.nullInput)]

/- Options are written with every switch. -/
def encode (options : Options) : Json :=
  .obj options.memberList

/- The switches that have been found. -/
structure Parts where
  rawOutput : Option Bool := none
  slurp : Option Bool := none
  rawInput : Option Bool := none
  nullInput : Option Bool := none

/- Take the member of a switch; there is nothing if it is none. -/
def switch?
    (name : String)
    (value : Reading)
    (parts : Parts) : Option (Except Fault Parts) :=
  match name with
  | "rawOutput" => some do
      return { parts with rawOutput := ← Decode.once Decode.bool value parts.rawOutput }
  | "slurp" => some do
      return { parts with slurp := ← Decode.once Decode.bool value parts.slurp }
  | "rawInput" => some do
      return { parts with rawInput := ← Decode.once Decode.bool value parts.rawInput }
  | "nullInput" => some do
      return { parts with nullInput := ← Decode.once Decode.bool value parts.nullInput }
  | _ => none

/- Take a member of options; others than switches are passed over. -/
def part
    (name : String)
    (value : Reading)
    (parts : Parts) : Except Fault Parts :=
  match switch? name value parts with
  | some result => result
  | none => do
      Decode.ignored value
      return parts

/- The options of the switches found; all others are off. -/
def ofParts (parts : Parts) : Options :=
  { rawOutput := parts.rawOutput.getD false
    slurp := parts.slurp.getD false
    rawInput := parts.rawInput.getD false
    nullInput := parts.nullInput.getD false }

/- Options are an object, or an array of the switches in order. -/
def decode : Reading → Except Fault Options
  | .obj members closed => do
      return ofParts (← Decode.members part closed {} members)
  | .arr items closed => do
      let (rawOutput, rest) ← Decode.elementOr false Decode.bool ⟨items, closed⟩
      let (slurp, rest) ← Decode.elementOr false Decode.bool rest
      let (rawInput, rest) ← Decode.elementOr false Decode.bool rest
      let (nullInput, rest) ← Decode.elementOr false Decode.bool rest
      Decode.noMore rest
      return { rawOutput, slurp, rawInput, nullInput }
  | other => .error (Decode.wrongKind other)

end Options

------------------------------------------------------------
-- Requests for one evaluation
------------------------------------------------------------

/- The request for a single evaluation. -/
structure EvalRequest where
  input : Option String := none
  filter : Option String := none
  options : Options := {}
  deriving DecidableEq, Repr

namespace EvalRequest

/- The options stand beside the input and the filter. -/
def encode (request : EvalRequest) : Json :=
  .obj ([("input", .ofOption request.input), ("filter", .ofOption request.filter)] ++
    request.options.memberList)

/- The members of a request: input and filter, and all others kept for later. -/
structure Parts where
  input : Option (Option String) := none
  filter : Option (Option String) := none
  others : List (Option String × Reading) := []

/- Take a member of a request. -/
def part
    (name : String)
    (value : Reading)
    (parts : Parts) : Except Fault Parts :=
  match name with
  | "input" =>
      return { parts with
        input := ← Decode.once (Decode.optional Decode.string) value parts.input }
  | "filter" =>
      return { parts with
        filter := ← Decode.once (Decode.optional Decode.string) value parts.filter }
  | _ =>
      if value.keeps (Reading.maxDepth - 1) then
        return { parts with others := parts.others ++ [(some name, value)] }
      else .error .malformed

/- A request is an object; the options are read when its end is reached. -/
def decode : Reading → Except Fault EvalRequest
  | .obj members closed => do
      let parts ← Decode.members part closed {} members
      let options ← Decode.members Options.part true {} parts.others
      return {
        input := parts.input.join
        filter := parts.filter.join
        options := Options.ofParts options }
  | .arr _ _ => .error .mismatch
  | other => .error (Decode.wrongKind other)

end EvalRequest

------------------------------------------------------------
-- Requests for evaluation by stages
------------------------------------------------------------

/- The request for an evaluation stage by stage. -/
structure StepsRequest where
  input : Option String := none
  filter : Option String := none
  deriving DecidableEq, Repr

namespace StepsRequest

/- A request is written with its input and filter. -/
def encode (request : StepsRequest) : Json :=
  .obj [("input", .ofOption request.input), ("filter", .ofOption request.filter)]

/- The members of a request that have been found. -/
structure Parts where
  input : Option (Option String) := none
  filter : Option (Option String) := none

/- Take a member of a request. -/
def part
    (name : String)
    (value : Reading)
    (parts : Parts) : Except Fault Parts :=
  match name with
  | "input" =>
      return { parts with
        input := ← Decode.once (Decode.optional Decode.string) value parts.input }
  | "filter" =>
      return { parts with
        filter := ← Decode.once (Decode.optional Decode.string) value parts.filter }
  | _ => do
      Decode.ignored value
      return parts

/- A request is an object, or an array of input and filter. -/
def decode : Reading → Except Fault StepsRequest
  | .obj members closed => do
      let parts ← Decode.members part closed {} members
      return { input := parts.input.join, filter := parts.filter.join }
  | .arr items closed => do
      let (input, rest) ←
        Decode.elementOr none (Decode.optional Decode.string) ⟨items, closed⟩
      let (filter, rest) ← Decode.elementOr none (Decode.optional Decode.string) rest
      Decode.noMore rest
      return { input, filter }
  | other => .error (Decode.wrongKind other)

end StepsRequest

------------------------------------------------------------
-- Requests and responses with a single member
------------------------------------------------------------

/- Take the member of a given name; others are passed over. -/
def Decode.onlyMember
    {α : Type}
    (wanted : String)
    (decode : Reading → Except Fault α)
    (name : String)
    (value : Reading)
    (found : Option α) : Except Fault (Option α) :=
  if name = wanted then Decode.once decode value found
  else do
    Decode.ignored value
    return found

/-
  An object with a member of a given name, or an array of its
  value alone. `absent` says what it is worth when it is missing.
-/
def Decode.single
    {α : Type}
    (wanted : String)
    (decode : Reading → Except Fault α)
    (absent : Except Fault α) : Reading → Except Fault α
  | .obj members closed => do
      match ← Decode.members (Decode.onlyMember wanted decode) closed none members with
      | some value => return value
      | none => absent
  | .arr items closed => do
      match ← Decode.element? decode ⟨items, closed⟩ with
      | (some value, rest) => do
          Decode.noMore rest
          return value
      | (none, _) => absent
  | other => .error (Decode.wrongKind other)

/- The request to explain a filter. -/
structure ExplainRequest where
  filter : String := ""
  deriving DecidableEq, Repr

namespace ExplainRequest

/- A request is written with its filter. -/
def encode (request : ExplainRequest) : Json :=
  .obj [("filter", .str request.filter)]

/- Without a filter the empty one is meant. -/
def decode (value : Reading) : Except Fault ExplainRequest := do
  return { filter := ← Decode.single "filter" Decode.string (.ok "") value }

end ExplainRequest

/- The explained tokens of a filter. -/
structure ExplainResponse where
  tokens : List Token
  deriving DecidableEq, Repr

namespace ExplainResponse

/- A response is written with its tokens. -/
def encode (response : ExplainResponse) : Json :=
  .obj [("tokens", .arr (response.tokens.map Token.encode))]

/- The tokens must be there. -/
def decode (value : Reading) : Except Fault ExplainResponse := do
  return {
    tokens :=
      ← Decode.single "tokens" (Decode.listOf (Token.decode 2)) (.error .mismatch) value }

end ExplainResponse

/- The version of the engine. -/
structure VersionResponse where
  version : String
  deriving DecidableEq, Repr

namespace VersionResponse

/- A response is written with its version. -/
def encode (response : VersionResponse) : Json :=
  .obj [("version", .str response.version)]

/- The version must be there. -/
def decode (value : Reading) : Except Fault VersionResponse := do
  return { version := ← Decode.single "version" Decode.string (.error .mismatch) value }

end VersionResponse

------------------------------------------------------------
-- Two shapes
------------------------------------------------------------

/-
  A value of one of two shapes: the first is tried before the
  second, on a text that is kept whole. Both shapes are objects.
-/
def Decode.eitherOf
    {α : Type}
    (first second : Reading → Except Fault α)
    (value : Reading) : Except Fault α :=
  if value.keeps Reading.maxDepth then
    match value with
    | .obj _ _ =>
        match first value with
        | .ok result => .ok result
        | .error _ =>
            match second value with
            | .ok result => .ok result
            | .error _ => .error .mismatch
    | _ => .error .mismatch
  else .error .malformed

/- The text of an object that reports an error. -/
def Decode.errorText (value : Reading) : Except Fault String :=
  Decode.single "error" Decode.string (.error .mismatch) value

------------------------------------------------------------
-- Responses to one evaluation
------------------------------------------------------------

/- The response to a request for a single evaluation. -/
inductive EvalResponse where
  | output (output : String) (stderr : Option String)
  | error (message : String)
  deriving DecidableEq, Repr

namespace EvalResponse

/- A response is written with what was asked for, or with the error. -/
def encode : EvalResponse → Json
  | .output text stderr => .obj [("output", .str text), ("stderr", .ofOption stderr)]
  | .error message => .obj [("error", .str message)]

/- The members of a response that have been found. -/
structure Parts where
  output : Option String := none
  stderr : Option (Option String) := none

/- Take a member of a response. -/
def part
    (name : String)
    (value : Reading)
    (parts : Parts) : Except Fault Parts :=
  match name with
  | "output" =>
      return { parts with output := ← Decode.once Decode.string value parts.output }
  | "stderr" =>
      return { parts with
        stderr := ← Decode.once (Decode.optional Decode.string) value parts.stderr }
  | _ => do
      Decode.ignored value
      return parts

/- The response with an output. -/
def decodeOutput : Reading → Except Fault EvalResponse
  | .obj members closed => do
      let parts ← Decode.members part closed {} members
      return output (← Decode.required parts.output) parts.stderr.join
  | other => .error (Decode.wrongKind other)

/- A response is an output if it can be one, else an error. -/
def decode : Reading → Except Fault EvalResponse :=
  Decode.eitherOf decodeOutput fun value => (Decode.errorText value).map error

end EvalResponse

------------------------------------------------------------
-- Responses to an evaluation by stages
------------------------------------------------------------

namespace StepResult

/- A result is written with all its parts, null where there is none. -/
def encode (result : StepResult) : Json :=
  .obj [("step", .nat result.step), ("fragment", .str result.fragment),
    ("fullFilter", .str result.fullFilter), ("output", .ofOption result.output),
    ("error", .ofOption result.error)]

/- The members of a result that have been found. -/
structure Parts where
  step : Option Nat := none
  fragment : Option String := none
  fullFilter : Option String := none
  output : Option (Option String) := none
  error : Option (Option String) := none

/- Take a member of a result. -/
def part
    (name : String)
    (value : Reading)
    (parts : Parts) : Except Fault Parts :=
  match name with
  | "step" =>
      return { parts with step := ← Decode.once Decode.natural value parts.step }
  | "fragment" =>
      return { parts with fragment := ← Decode.once Decode.string value parts.fragment }
  | "fullFilter" =>
      return { parts with
        fullFilter := ← Decode.once Decode.string value parts.fullFilter }
  | "output" =>
      return { parts with
        output := ← Decode.once (Decode.optional Decode.string) value parts.output }
  | "error" =>
      return { parts with
        error := ← Decode.once (Decode.optional Decode.string) value parts.error }
  | _ => do
      Decode.ignored value
      return parts

/- A result is an object, or an array of all its parts in order. -/
def decode : Reading → Except Fault StepResult
  | .obj members closed => do
      let parts ← Decode.members part closed {} members
      return {
        step := ← Decode.required parts.step
        fragment := ← Decode.required parts.fragment
        fullFilter := ← Decode.required parts.fullFilter
        output := parts.output.join
        error := parts.error.join }
  | .arr items closed => do
      let (step, rest) ← Decode.element Decode.natural ⟨items, closed⟩
      let (fragment, rest) ← Decode.element Decode.string rest
      let (fullFilter, rest) ← Decode.element Decode.string rest
      let (output, rest) ← Decode.element (Decode.optional Decode.string) rest
      let (error, rest) ← Decode.element (Decode.optional Decode.string) rest
      Decode.noMore rest
      return { step, fragment, fullFilter, output, error }
  | other => .error (Decode.wrongKind other)

end StepResult

/- The response to a request for an evaluation stage by stage. -/
inductive StepsResponse where
  | steps (steps : List StepResult) (pipes : List String)
  | error (message : String)
  deriving DecidableEq, Repr

namespace StepsResponse

/- A response is written with what was asked for, or with the error. -/
def encode : StepsResponse → Json
  | .steps results pipes =>
      .obj [("steps", .arr (results.map StepResult.encode)), ("pipes", .arr (pipes.map .str))]
  | .error message => .obj [("error", .str message)]

/- The members of a response that have been found. -/
structure Parts where
  steps : Option (List StepResult) := none
  pipes : Option (List String) := none

/- Take a member of a response. -/
def part
    (name : String)
    (value : Reading)
    (parts : Parts) : Except Fault Parts :=
  match name with
  | "steps" =>
      return { parts with
        steps := ← Decode.once (Decode.listOf StepResult.decode) value parts.steps }
  | "pipes" =>
      return { parts with
        pipes := ← Decode.once (Decode.listOf Decode.string) value parts.pipes }
  | _ => do
      Decode.ignored value
      return parts

/- The response with results. -/
def decodeSteps : Reading → Except Fault StepsResponse
  | .obj members closed => do
      let parts ← Decode.members part closed {} members
      return steps (← Decode.required parts.steps) (← Decode.required parts.pipes)
  | other => .error (Decode.wrongKind other)

/- A response has results if it can have them, else it is an error. -/
def decode : Reading → Except Fault StepsResponse :=
  Decode.eitherOf decodeSteps fun value => (Decode.errorText value).map error

end StepsResponse

end JqLens
