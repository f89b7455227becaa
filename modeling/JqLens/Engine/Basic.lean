import JqLens.Policy

/-
  This file defines what it means to evaluate a filter: the
  options and limits of a call, its outcome, and an engine as a
  function from calls to outcomes.

  Key definitions include:
    * `Options`
    * `Duration`
    * `Limits`
    * `Call`
    * `Evaluation`
    * `SystemFault`
    * `EvalError`
    * `EvalError.message`
    * `Engine`
    * `Traced`
    * `runSingle`
-/

namespace JqLens

------------------------------------------------------------
-- Options
------------------------------------------------------------

/- The switches of an evaluation. -/
structure Options where
  /- Write strings without quotes. -/
  rawOutput : Bool := false
  /- Collect all inputs in one array. -/
  slurp : Bool := false
  /- Take the input as lines of plain text. -/
  rawInput : Bool := false
  /- Start from null instead of the input. -/
  nullInput : Bool := false
  deriving DecidableEq, Repr

/- The input of an evaluation for which none is given. -/
def defaultInput : String :=
  "\x7b\x7d"

/- The input to evaluate against: an empty one counts as none. -/
def inputDocument (input : Option String) : String :=
  match input with
  | some text => if text.isEmpty then defaultInput else text
  | none => defaultInput

------------------------------------------------------------
-- Limits
------------------------------------------------------------

/- A span of time in nanoseconds. -/
structure Duration where
  nanoseconds : Nat
  deriving DecidableEq, Repr

namespace Duration

/- So many milliseconds. -/
def ofMilliseconds (n : Nat) : Duration :=
  ⟨n * 1000000⟩

/- So many seconds. -/
def ofSeconds (n : Nat) : Duration :=
  ⟨n * 1000000000⟩

/- The number of whole milliseconds. -/
def milliseconds (d : Duration) : Nat :=
  d.nanoseconds / 1000000

/- The number of whole seconds. -/
def seconds (d : Duration) : Nat :=
  d.nanoseconds / 1000000000

/-
  The span as shown: in seconds if no whole milliseconds are
  left over, else in milliseconds.
-/
def text (d : Duration) : String :=
  if d.milliseconds % 1000 = 0 then toString d.seconds ++ "s"
  else toString d.milliseconds ++ "ms"

end Duration

/- The bounds of one evaluation. -/
structure Limits where
  /- How long the evaluation may run. -/
  timeout : Duration := .ofSeconds 5
  /- How many bytes it may write, to each of its two streams. -/
  maxOutputBytes : Nat := 512 * 1024
  deriving DecidableEq, Repr

namespace Limits

/- The bounds of a single evaluation. -/
def single : Limits :=
  {}

/- The bounds of one stage of a stepwise evaluation. -/
def perStep : Limits :=
  { maxOutputBytes := 256 * 1024 }

end Limits

------------------------------------------------------------
-- Outcomes
------------------------------------------------------------

/- What a successful evaluation has written. -/
structure Evaluation where
  output : String
  /- The messages it has written in spite of its success. -/
  stderr : Option String := none
  deriving DecidableEq, Repr

/- Why the system under the engine has failed. -/
inductive SystemFault where
  | notFound
  | argumentTooLong
  | permissionDenied
  | notADirectory
  | isADirectory
  | nameTooLong
  /- A text for the system holds the character that ends texts. -/
  | nulByte
  /- The same for the name of a file. -/
  | nulByteInName
  /- A file holds no text. -/
  | invalidText
  | other (message : String)
  deriving DecidableEq, Repr

/- The text shown for a failure of the system. -/
def SystemFault.message : SystemFault → String
  | notFound => "No such file or directory (os error 2)"
  | argumentTooLong => "Argument list too long (os error 7)"
  | permissionDenied => "Permission denied (os error 13)"
  | notADirectory => "Not a directory (os error 20)"
  | isADirectory => "Is a directory (os error 21)"
  | nameTooLong => "File name too long (os error 36)"
  | nulByte => "nul byte found in provided data"
  | nulByteInName => "file name contained an unexpected NUL byte"
  | invalidText => "stream did not contain valid UTF-8"
  | other message => message

/- Why there is no outcome. -/
inductive EvalError where
  /- The filter is not admitted. -/
  | refused (refusal : Refusal)
  /- The evaluation took longer than the given limit. -/
  | timeout (limit : Duration)
  /- The engine itself reports an error. -/
  | engine (message : String)
  /- The evaluation wrote more bytes than the given limit. -/
  | outputTooLarge (limit : Nat)
  /- The engine could not be started. -/
  | launch (program : String) (fault : SystemFault)
  /- Talking to the engine failed. -/
  | io (fault : SystemFault)
  deriving DecidableEq, Repr

namespace EvalError

/- The text shown for an error. -/
def message : EvalError → String
  | refused refusal => refusal.message
  | timeout limit => "Timeout: query took too long (" ++ limit.text ++ " limit)"
  | engine message => message
  | outputTooLarge limit => "Output too large (max " ++ toString limit ++ " bytes)"
  | launch program fault => "failed to launch " ++ program ++ ": " ++ fault.message
  | io fault => "io error: " ++ fault.message

/- A failure of the surroundings rather than of the filter. -/
def isSystemic : EvalError → Bool
  | launch _ _ => true
  | io _ => true
  | _ => false

/- The evaluation was too slow. -/
def isTimeout : EvalError → Bool
  | timeout _ => true
  | _ => false

end EvalError

------------------------------------------------------------
-- Engines
------------------------------------------------------------

/- What an engine is asked to evaluate. -/
structure Call where
  filter : String
  input : String
  options : Options := {}
  limits : Limits := {}
  deriving DecidableEq, Repr

/- An engine answers every call on its own. -/
structure Engine where
  evaluate : Call → Except EvalError Evaluation
  /- The version of the engine, if it can be told. -/
  version : Option String := none

/- A result with the calls that were made for it, in order. -/
structure Traced (α : Type) where
  result : α
  calls : List Call := []
  deriving Repr

/- Admit a filter and evaluate it once. -/
def runSingle
    (engine : Engine)
    (call : Call)
    (maxFilterLength : Nat) : Traced (Except EvalError Evaluation) :=
  match checkFilter call.filter maxFilterLength with
  | .error refusal => { result := .error (.refused refusal) }
  | .ok () => { result := engine.evaluate call, calls := [call] }

end JqLens
