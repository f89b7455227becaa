import JqLens.Engine.Files

/-
  This file runs a filter through a program. The program sees
  the filter as its last argument behind a double dash, the
  input on its standard input and no environment; what it
  writes is bounded on each of its two streams, and its run in
  time.

  Key definitions include:
    * `arguments`
    * `Behaviour`
    * `Program`
    * `Program.run`
    * `collect`
    * `Finished.evaluation`
    * `programEngine`
-/

namespace JqLens

------------------------------------------------------------
-- Arguments
------------------------------------------------------------

/-
  The arguments for a filter. The double dash keeps the filter
  from being read as a switch.
-/
def arguments (filter : String) (options : Options) : List String :=
  (if options.rawOutput then ["-r"] else []) ++
    (if options.slurp then ["-s"] else []) ++
    (if options.rawInput then ["-R"] else []) ++
    (if options.nullInput then ["-n"] else []) ++
    ["--", filter]

------------------------------------------------------------
-- Programs
------------------------------------------------------------

/- How a run ends. -/
inductive Ending where
  | exit (status : Nat)
  | signal (number : Nat)
  /- The run never ends. -/
  | hang
  deriving DecidableEq, Repr

/- What a program does when it is run. -/
structure Behaviour where
  /- It writes its arguments, each with a line feed. -/
  echoArguments : Bool := false
  /- It writes how many environment variables it sees. -/
  echoEnvironment : Bool := false
  /- It writes its standard input. -/
  echoInput : Bool := false
  /- What it writes after that. -/
  stdout : List UInt8 := []
  /- What it writes to its error stream. -/
  stderr : List UInt8 := []
  ending : Ending := .exit 0
  deriving DecidableEq, Repr

/- A program behaves as its last argument tells. -/
structure Program where
  byLastArgument : List (String × Behaviour) := []
  default : Behaviour := {}
  deriving Repr

/- What a run has written and how it has ended. -/
structure Finished where
  stdout : List UInt8
  stderr : List UInt8
  ending : Ending
  deriving DecidableEq, Repr

/- What the program does for the given arguments. -/
def Program.behaviour (program : Program) (arguments : List String) : Behaviour :=
  (arguments.getLast?.bind fun last => program.byLastArgument.lookup last).getD
    program.default

/-
  Run a program without an environment on arguments and a
  standard input.
-/
def Program.run
    (program : Program)
    (arguments : List String)
    (input : List UInt8) : Finished :=
  let behaviour := program.behaviour arguments
  let bytes (text : String) : List UInt8 := Text.Utf8.encode text.toList
  { stdout :=
      (if behaviour.echoArguments then
        arguments.flatMap fun argument => bytes (argument ++ "\n") else []) ++
      (if behaviour.echoEnvironment then bytes "env:0\n" else []) ++
      (if behaviour.echoInput then input else []) ++
      behaviour.stdout
    stderr := behaviour.stderr
    ending := behaviour.ending }

------------------------------------------------------------
-- The outcome of a run
------------------------------------------------------------

/- The name of a signal. -/
def signalName? (number : Nat) : Option String :=
  ["SIGHUP", "SIGINT", "SIGQUIT", "SIGILL", "SIGTRAP", "SIGABRT", "SIGBUS", "SIGFPE",
    "SIGKILL", "SIGUSR1", "SIGSEGV", "SIGUSR2", "SIGPIPE", "SIGALRM", "SIGTERM",
    "SIGSTKFLT", "SIGCHLD", "SIGCONT", "SIGSTOP", "SIGTSTP", "SIGTTIN", "SIGTTOU",
    "SIGURG", "SIGXCPU", "SIGXFSZ", "SIGVTALRM", "SIGPROF", "SIGWINCH", "SIGIO",
    "SIGPWR", "SIGSYS"][number - 1]?

/- The text shown for the end of a run. -/
def Ending.text : Ending → String
  | exit status => "exit status: " ++ toString status
  | signal number =>
      match signalName? number with
      | some name => "signal: " ++ toString number ++ " (" ++ name ++ ")"
      | none => "signal: " ++ toString number
  | hang => "no end"

/- The text of an error stream without the blanks around it. -/
def messageText (bytes : List UInt8) : List Char :=
  Text.trim (Text.Utf8.decode bytes)

/- The greatest number of bytes that are counted in a stream. -/
def maxCounted : Nat :=
  UInt64.size - 1

/- What comes of reading a stream that may be too long. -/
inductive Collected where
  /- All that was read. -/
  | complete (bytes : List UInt8)
  /- More bytes than the limit. -/
  | tooMany
  /- Nothing yet: the stream has not ended and no more comes. -/
  | waiting
  deriving DecidableEq, Repr

/-
  Read a stream to its end, though no further than one byte
  beyond the limit, which is enough to tell that there are too
  many. `closes` tells whether the stream ends.
-/
def collect
    (limit : Nat)
    (closes : Bool)
    (stream : List UInt8) : Collected :=
  let most := min (limit + 1) maxCounted
  let bytes := stream.take most
  if limit < bytes.length then .tooMany
  else if closes || bytes.length = most then .complete bytes
  else .waiting

/-
  What a run is worth that has ended and whose streams have been
  read. If it has failed, it is described by its messages, or by
  its end if it has none.
-/
def Ending.evaluation
    (ending : Ending)
    (stdout stderr : List UInt8) : Except EvalError Evaluation :=
  let messages := messageText stderr
  if ending = .exit 0 then
    .ok
      { output := String.ofList (Text.Utf8.decode stdout)
        stderr := if messages.isEmpty then none else some (String.ofList messages) }
  else if messages.isEmpty then
    .error (.engine ("jq failed with " ++ ending.text))
  else
    .error (.engine (String.ofList messages))

/-
  What a run is worth. Both streams are read at the same time;
  the first to be too long ends the run, and the streams of a
  run without end do not close before its time is up.
-/
def Finished.evaluation
    (finished : Finished)
    (limits : Limits) : Except EvalError Evaluation :=
  let limit := limits.maxOutputBytes
  let closes := finished.ending != .hang
  match collect limit closes finished.stdout, collect limit closes finished.stderr with
  | .tooMany, _ => .error (.outputTooLarge limit)
  | _, .tooMany => .error (.outputTooLarge limit)
  | .complete stdout, .complete stderr =>
      if closes then finished.ending.evaluation stdout stderr
      else .error (.timeout limits.timeout)
  | _, _ => .error (.timeout limits.timeout)

------------------------------------------------------------
-- Launching
------------------------------------------------------------

/- The longest argument that the system passes on, in bytes. -/
def maxArgument : Nat :=
  131071

/-
  The program at a path, if it can be launched with the given
  arguments. Without an environment a name without a slash
  leads nowhere.
-/
def Layout.launch
    (layout : Layout Program)
    (path : String)
    (arguments : List String) : Except SystemFault Program :=
  if (path :: arguments).any (·.toList.contains '\x00') then .error .nulByte
  else if !path.toList.contains '/' then .error .notFound
  else
    match layout.locate path with
    | .error fault => .error fault
    | .ok .directory => .error .permissionDenied
    | .ok (.file _) => .error .permissionDenied
    | .ok (.program program) =>
        if arguments.any fun argument => maxArgument < argument.utf8ByteSize then
          .error .argumentTooLong
        else .ok program

/- Evaluate a call with the program at a path. -/
def evaluateWith
    (layout : Layout Program)
    (path : String)
    (call : Call) : Except EvalError Evaluation :=
  let arguments := arguments call.filter call.options
  match layout.launch path arguments with
  | .error fault => .error (.launch path fault)
  | .ok program =>
      let input := if call.options.nullInput then [] else Text.Utf8.encode call.input.toList
      (program.run arguments input).evaluation call.limits

/-
  The version that the program at a path tells, whatever its
  exit status is; there is none if it cannot be launched or
  tells nothing but blanks.
-/
def versionOf (layout : Layout Program) (path : String) : Option String :=
  match layout.launch path ["--version"] with
  | .error _ => none
  | .ok program =>
      let text := messageText (program.run ["--version"] []).stdout
      if text.isEmpty then none else some (String.ofList text)

/- The engine that runs the program at a path. -/
def programEngine (layout : Layout Program) (path : String) : Engine :=
  { evaluate := evaluateWith layout path
    version := versionOf layout path }

/- The program that is run unless another is set. -/
def defaultProgram : String :=
  "jq"

end JqLens
