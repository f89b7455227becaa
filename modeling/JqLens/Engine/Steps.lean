import JqLens.Engine.Basic
import JqLens.Pipeline

/-
  This file evaluates a filter stage by stage: each cumulative
  filter is evaluated against the same input, and what becomes
  of one stage has no bearing on the others.

  Key definitions include:
    * `StepResult`
    * `StepsOutcome`
    * `stepCall`
    * `stepResult`
    * `runSteps`
-/

namespace JqLens

------------------------------------------------------------
-- Results
------------------------------------------------------------

/- What became of one stage. -/
structure StepResult where
  /- The position of the stage, counted from one. -/
  step : Nat
  /- The text of the stage itself. -/
  fragment : String
  /- The cumulative filter that was evaluated. -/
  fullFilter : String
  output : Option String
  error : Option String
  deriving DecidableEq, Repr

/- The stage has no error. -/
def StepResult.isOk (result : StepResult) : Bool :=
  result.error.isNone

/- The results of all stages with the texts of the stages. -/
structure StepsOutcome where
  steps : List StepResult := []
  pipes : List String := []
  deriving DecidableEq, Repr

------------------------------------------------------------
-- Evaluation by stages
------------------------------------------------------------

/- The call for a cumulative filter. -/
def stepCall
    (input : String)
    (limits : Limits)
    (progressive : Stage) : Call :=
  { filter := progressive.text, input, limits }

/-
  What a stage makes of the outcome of its cumulative filter.
  Blanks at the end of the output are dropped; messages of a
  successful evaluation are reported as an error beside it.
-/
def stepResult
    (fragment progressive : Stage)
    (outcome : Except EvalError Evaluation) : StepResult :=
  let (output, error) :=
    match outcome with
    | .ok evaluation =>
        (some (String.ofList (Text.trimEnd evaluation.output.toList)), evaluation.stderr)
    | .error error => (none, some error.message)
  { step := fragment.ordinal
    fragment := fragment.text
    fullFilter := progressive.text
    output
    error }

/- Evaluate every cumulative filter of a pipeline. -/
def evaluatePipeline
    (engine : Engine)
    (pipeline : Pipeline)
    (input : String)
    (limits : Limits) : List StepResult :=
  List.zipWith
    (fun fragment progressive =>
      stepResult fragment progressive (engine.evaluate (stepCall input limits progressive)))
    pipeline.fragments pipeline.progressive

/- Admit a filter and evaluate it stage by stage. -/
def runSteps
    (engine : Engine)
    (filter : String)
    (input : String)
    (maxFilterLength : Nat)
    (limits : Limits) : Traced (Except EvalError StepsOutcome) :=
  match checkFilter filter maxFilterLength with
  | .error refusal => { result := .error (.refused refusal) }
  | .ok () =>
      let pipeline := decompose filter
      { result := .ok
          { steps := evaluatePipeline engine pipeline input limits
            pipes := pipeline.stageTexts }
        calls := pipeline.progressive.map (stepCall input limits) }

end JqLens
