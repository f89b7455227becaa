import JqLens.Token.Explain
import JqLens.Wire.Message

/-
  This file answers requests with an engine. Answering never
  fails: what a filter, the engine or its surroundings make
  impossible becomes the error text of the response.

  Key definitions include:
    * `RequestLimits`
    * `EvalRequest.answer`
    * `StepsRequest.answer`
    * `ExplainRequest.answer`
    * `versionAnswer`
-/

namespace JqLens

------------------------------------------------------------
-- Limits
------------------------------------------------------------

/- The bounds of one request. -/
structure RequestLimits where
  /- The greatest length of a filter in characters. -/
  maxFilterLength : Nat := defaultMaxFilterLength
  /- The bounds of a single evaluation. -/
  single : Limits := .single
  /- The bounds of each stage of a stepwise evaluation. -/
  perStep : Limits := .perStep
  deriving DecidableEq, Repr

------------------------------------------------------------
-- Answers
------------------------------------------------------------

/- The call that a request asks for. -/
def EvalRequest.call (request : EvalRequest) (limits : Limits) : Call :=
  { filter := request.filter.getD ""
    input := inputDocument request.input
    options := request.options
    limits }

/- Answer a request for a single evaluation. -/
def EvalRequest.answer
    (engine : Engine)
    (limits : RequestLimits)
    (request : EvalRequest) : Traced EvalResponse :=
  let run := runSingle engine (request.call limits.single) limits.maxFilterLength
  { result :=
      match run.result with
      | .ok evaluation => .output evaluation.output evaluation.stderr
      | .error error => .error error.message
    calls := run.calls }

/- Answer a request for an evaluation stage by stage. -/
def StepsRequest.answer
    (engine : Engine)
    (limits : RequestLimits)
    (request : StepsRequest) : Traced StepsResponse :=
  let run := runSteps engine (request.filter.getD "") (inputDocument request.input)
    limits.maxFilterLength limits.perStep
  { result :=
      match run.result with
      | .ok outcome => .steps outcome.steps outcome.pipes
      | .error error => .error error.message
    calls := run.calls }

/- Answer a request to explain a filter. -/
def ExplainRequest.answer (request : ExplainRequest) : ExplainResponse :=
  { tokens := tokenize request.filter }

/- The version reported when the engine does not tell one. -/
def unknownVersion : String :=
  "unknown"

/- Answer a request for the version of the engine. -/
def versionAnswer (engine : Engine) : VersionResponse :=
  { version := engine.version.getD unknownVersion }

end JqLens
