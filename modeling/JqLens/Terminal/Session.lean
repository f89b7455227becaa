import JqLens.Service.Answer
import JqLens.Terminal.Arguments
import JqLens.Terminal.Help
import JqLens.Terminal.Table

/-
  This file carries out commands. A command sees the files and
  programs of its surroundings, the list of directories in which
  programs are looked up, and whether colours are on; it gives
  what is written to the two streams, or an error.

  Key definitions include:
    * `Surroundings`
    * `Written`
    * `CommandError`
    * `Command.perform`
    * `Session.run`
-/

namespace JqLens

------------------------------------------------------------
-- Surroundings and results
------------------------------------------------------------

/- What a command sees besides its arguments. -/
structure Surroundings where
  layout : Layout Program := {}
  searchPath : Option String := none
  color : Bool := false

/- What a command writes. -/
structure Written where
  stdout : String := ""
  stderr : String := ""
  deriving DecidableEq, Repr

/- Why a command fails. -/
inductive CommandError where
  | evaluation (error : EvalError)
  /- The file with the input cannot be read. -/
  | inputFile (path : String) (fault : SystemFault)
  deriving DecidableEq, Repr

/- The text shown for a failure. -/
def CommandError.message : CommandError → String
  | evaluation error => error.message
  | inputFile path fault => "cannot read input file " ++ path ++ ": " ++ fault.message

------------------------------------------------------------
-- Parts of commands
------------------------------------------------------------

/- The input that a source gives; a file goes before a text. -/
def InputSource.read
    (source : InputSource)
    (layout : Layout Program) : Except CommandError String :=
  match source.file with
  | some path =>
      match layout.readText path with
      | .ok text => .ok text
      | .error fault => .error (.inputFile path fault)
  | none => .ok (inputDocument source.input)

/- The engine of a choice, whose program is looked up first. -/
def EngineChoice.engine (choice : EngineChoice) (surroundings : Surroundings) : Engine :=
  programEngine surroundings.layout
    (resolveProgram surroundings.layout choice.program surroundings.searchPath)

/- The bounds of an evaluation that may write so many bytes. -/
def EngineChoice.limits (choice : EngineChoice) (maxOutputBytes : Nat) : Limits :=
  { timeout := .ofMilliseconds choice.timeoutMilliseconds, maxOutputBytes }

/- A JSON document as shown. -/
def document (value : Json) : String :=
  value.indented ++ "\n"

/- The script with which a shell completes the names of commands. -/
def Shell.script (shell : Shell) : String :=
  let names := " ".intercalate (Verb.all.map Verb.name ++ [Command.helpWord])
  match shell with
  | .bash => "complete -W '" ++ names ++ "' lq\n"
  | .elvish =>
      "set edit:completion:arg-completer[lq] = \x7b|@words| put " ++ names ++ " \x7d\n"
  | .fish => "complete -c lq -f -a '" ++ names ++ "'\n"
  | .powershell =>
      "Register-ArgumentCompleter -Native -CommandName lq -ScriptBlock \x7b '" ++ names ++
        "' -split ' ' \x7d\n"
  | .zsh => "#compdef lq\ncompadd " ++ names ++ "\n"

------------------------------------------------------------
-- Commands
------------------------------------------------------------

namespace Command

/- The explained tokens of a filter. -/
def showTokens (color docs : Bool) (output : OutputFormat) (filter : String) : String :=
  let tokens := tokenize filter
  match output with
  | .text => Table.tokens docs color tokens
  | .json => document (ExplainResponse.encode { tokens })

/- The stages of a filter. -/
def showStages (color : Bool) (output : OutputFormat) (filter : String) : String :=
  let pipeline := decompose filter
  match output with
  | .text => Table.pipeline color pipeline
  | .json => document pipeline.encode

/- The results of the stages of a filter. -/
def showSteps (color : Bool) (output : OutputFormat) (outcome : StepsOutcome) : String :=
  match output with
  | .text => Table.steps color outcome.steps
  | .json => document (StepsResponse.steps outcome.steps outcome.pipes).encode

/- An outcome of an evaluation as a result of a command. -/
def ofOutcome {α : Type} : Except EvalError α → Except CommandError α
  | .ok value => .ok value
  | .error error => .error (.evaluation error)

/- Carry out a command. -/
def perform (surroundings : Surroundings) : Command → Except CommandError Written
  | explain filter docs output =>
      .ok { stdout := showTokens surroundings.color docs output filter }
  | split filter output =>
      .ok { stdout := showStages surroundings.color output filter }
  | run filter source options choice => do
      let input ← source.read surroundings.layout
      let outcome := runSingle (choice.engine surroundings)
        { filter, input, options, limits := choice.limits Limits.single.maxOutputBytes }
        defaultMaxFilterLength
      let evaluation ← ofOutcome outcome.result
      return { stdout := evaluation.output, stderr := evaluation.stderr.getD "" }
  | steps filter source choice output => do
      let input ← source.read surroundings.layout
      let outcome := runSteps (choice.engine surroundings) filter input
        defaultMaxFilterLength (choice.limits Limits.perStep.maxOutputBytes)
      let outcome ← ofOutcome outcome.result
      return { stdout := showSteps surroundings.color output outcome }
  | completion shell => .ok { stdout := shell.script }

end Command

------------------------------------------------------------
-- Sessions
------------------------------------------------------------

/- What a run of the whole program shows. -/
structure Session where
  exit : Nat
  written : Written := {}
  deriving DecidableEq, Repr

namespace Session

/- What is shown when the arguments are no command. -/
def ofUsage (color : Bool) (usage : Usage) : Session :=
  match usage with
  | .displayHelp => { exit := usage.exitCode, written := { stdout := Help.page color } }
  | .displayVersion => { exit := usage.exitCode, written := { stdout := versionText } }
  | _ => { exit := usage.exitCode, written := { stderr := Help.page color } }

/- Run the program on its arguments. -/
def run (surroundings : Surroundings) (words : List String) : Session :=
  match Command.parse words with
  | .error usage => ofUsage surroundings.color usage
  | .ok command =>
      match command.perform surroundings with
      | .ok written => { exit := 0, written }
      | .error error =>
          { exit := 1, written := { stderr := "error: " ++ error.message ++ "\n" } }

end Session

end JqLens
