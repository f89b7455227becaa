import JqLens.Engine.Child
import JqLens.Text.Reader

/-
  This file reads the arguments of the command line. The first
  word that is no option names a command; behind it stand the
  options of the command and one value of its own. An option
  that takes a value and has none attached waits for the next
  argument; its value is examined when the next known option or
  value comes, or at the end.

  Key definitions include:
    * `Command`
    * `Usage`
    * `Verb`
    * `Argument`
    * `Scan`
    * `Scan.step`
    * `Command.parse`
-/

namespace JqLens

------------------------------------------------------------
-- Commands
------------------------------------------------------------

/- How structured output is written. -/
inductive OutputFormat where
  | text
  | json
  deriving DecidableEq, Repr

/- A shell that can complete commands. -/
inductive Shell where
  | bash
  | elvish
  | fish
  | powershell
  | zsh
  deriving DecidableEq, Repr

/- Where the input comes from. -/
structure InputSource where
  /- The input itself. -/
  input : Option String := none
  /- The path of a file that holds it. -/
  file : Option String := none
  deriving DecidableEq, Repr

/- Which program evaluates, and for how long it may run. -/
structure EngineChoice where
  program : String := defaultProgram
  timeoutMilliseconds : Nat := 5000
  deriving DecidableEq, Repr

/- What the command line asks for. -/
inductive Command where
  | explain (filter : String) (docs : Bool) (output : OutputFormat)
  | split (filter : String) (output : OutputFormat)
  | run (filter : String) (input : InputSource) (options : Options) (engine : EngineChoice)
  | steps (filter : String) (input : InputSource) (engine : EngineChoice)
      (output : OutputFormat)
  | completion (shell : Shell)
  deriving DecidableEq, Repr

------------------------------------------------------------
-- What stops the reading
------------------------------------------------------------

/- Why the arguments are no command. -/
inductive Usage where
  | displayHelp
  | displayVersion
  | displayHelpOnMissingArgumentOrSubcommand
  | missingRequiredArgument
  | invalidSubcommand
  | unknownArgument
  | invalidValue
  | valueValidation
  | argumentConflict
  | tooManyValues
  deriving DecidableEq, Repr

namespace Usage

/- Only help and version that were asked for count as success. -/
def exitCode : Usage → Nat
  | displayHelp => 0
  | displayVersion => 0
  | _ => 2

end Usage

/- The version of the program, as shown. -/
def versionText : String :=
  "lq 0.1.0\n"

------------------------------------------------------------
-- Verbs and their arguments
------------------------------------------------------------

/- The first word of a command. -/
inductive Verb where
  | explain
  | split
  | run
  | steps
  | completion
  deriving DecidableEq, Repr

/- Something that a command may be given. -/
inductive Argument where
  | help
  | docs
  | output
  | input
  | file
  | rawOutput
  | slurp
  | rawInput
  | nullInput
  | jq
  | timeout
  /- The value without an option: a filter. -/
  | filter
  /- The value without an option: the name of a shell. -/
  | shell
  deriving DecidableEq, Repr

namespace Argument

/- The name of an option behind two dashes. -/
def long? : Argument → Option String
  | help => some "help"
  | docs => some "docs"
  | output => some "output"
  | input => some "input"
  | file => some "file"
  | rawOutput => some "raw-output"
  | slurp => some "slurp"
  | rawInput => some "raw-input"
  | nullInput => some "null-input"
  | jq => some "jq"
  | timeout => some "timeout-ms"
  | filter => none
  | shell => none

/- The letter of an option behind one dash. -/
def short? : Argument → Option Char
  | help => some 'h'
  | output => some 'o'
  | input => some 'i'
  | file => some 'f'
  | rawOutput => some 'r'
  | slurp => some 's'
  | rawInput => some 'R'
  | nullInput => some 'n'
  | _ => none

/- The argument takes a value. -/
def takesValue : Argument → Bool
  | help => false
  | docs => false
  | rawOutput => false
  | slurp => false
  | rawInput => false
  | nullInput => false
  | _ => true

end Argument

namespace Verb

/- Every verb. -/
def all : List Verb :=
  [explain, split, run, steps, completion]

/- The word for a verb. -/
def name : Verb → String
  | explain => "explain"
  | split => "split"
  | run => "run"
  | steps => "steps"
  | completion => "completion"

/- The verb of a word. -/
def ofName? (word : String) : Option Verb :=
  all.find? fun verb => verb.name == word

/- The options of a verb. -/
def options : Verb → List Argument
  | explain => [.help, .docs, .output]
  | split => [.help, .output]
  | run =>
      [.help, .input, .file, .rawOutput, .slurp, .rawInput, .nullInput, .jq, .timeout]
  | steps => [.help, .input, .file, .jq, .timeout, .output]
  | completion => [.help]

/- What the value without an option is. -/
def value : Verb → Argument
  | completion => .shell
  | _ => .filter

/- The option of a verb with a name behind two dashes. -/
def long? (verb : Verb) (name : String) : Option Argument :=
  verb.options.find? fun option => option.long? == some name

/- The option of a verb with a letter behind one dash. -/
def short? (verb : Verb) (letter : Char) : Option Argument :=
  verb.options.find? fun option => option.short? == some letter

end Verb

------------------------------------------------------------
-- Forms of words
------------------------------------------------------------

/- What a word looks like. -/
inductive WordForm where
  /- Two dashes alone. -/
  | escape
  /- A name behind two dashes, with a value behind an equals sign. -/
  | long (name : String) (value : Option String)
  /- Letters behind one dash. -/
  | short (letters : List Char)
  | plain
  deriving DecidableEq, Repr

/- The form of a word. A dash alone is plain. -/
def WordForm.of (word : String) : WordForm :=
  match word.toList with
  | ['-', '-'] => escape
  | '-' :: '-' :: cs =>
      let name := String.ofList (cs.takeWhile (· != '='))
      match cs.dropWhile (· != '=') with
      | _ :: value => long name (some (String.ofList value))
      | [] => long name none
  | '-' :: c :: cs => short (c :: cs)
  | _ => plain

------------------------------------------------------------
-- Values found so far
------------------------------------------------------------

/- The format of a name. -/
def OutputFormat.ofName? (name : String) : Option OutputFormat :=
  match name with
  | "text" => some text
  | "json" => some json
  | _ => none

/- The shell of a name. -/
def Shell.ofName? (name : String) : Option Shell :=
  match name with
  | "bash" => some bash
  | "elvish" => some elvish
  | "fish" => some fish
  | "powershell" => some powershell
  | "zsh" => some zsh
  | _ => none

/- The arguments found so far, with their values. -/
structure Given where
  /- Every argument that has been found. -/
  seen : List Argument := []
  output : OutputFormat := .text
  input : InputSource := {}
  engine : EngineChoice := {}
  filter : String := ""
  shell : Option Shell := none
  deriving Repr

namespace Given

/- A path has at least one character. -/
def path (value : String) : Except Usage String :=
  if value.isEmpty then .error .invalidValue else .ok value

/- The arguments with the value of one more. -/
def store (given : Given) (argument : Argument) (value : String) : Except Usage Given :=
  match argument with
  | .output =>
      match OutputFormat.ofName? value with
      | some output => .ok { given with output }
      | none => .error .invalidValue
  | .input => .ok { given with input := { given.input with input := some value } }
  | .file => do
      let file ← path value
      return { given with input := { given.input with file := some file } }
  | .jq => do
      let program ← path value
      return { given with engine := { given.engine with program } }
  | .timeout =>
      match Text.unsigned? UInt64.size value.toList with
      | some timeoutMilliseconds =>
          .ok { given with engine := { given.engine with timeoutMilliseconds } }
      | none => .error .valueValidation
  | .filter => .ok { given with filter := value }
  | .shell =>
      match Shell.ofName? value with
      | some shell => .ok { given with shell := some shell }
      | none => .error .invalidValue
  | _ => .ok given

/- Take an argument, which may be given only once. -/
def take (given : Given) (argument : Argument) (value : String) : Except Usage Given :=
  if given.seen.contains argument then .error .argumentConflict
  else do
    let given ← given.store argument value
    return { given with seen := argument :: given.seen }

/- An argument has been found. -/
def has (given : Given) (argument : Argument) : Bool :=
  given.seen.contains argument

end Given

------------------------------------------------------------
-- Reading the arguments of a verb
------------------------------------------------------------

/- An argument whose value, if it has come, is not examined yet. -/
structure Pending where
  argument : Argument
  value : Option String := none
  deriving DecidableEq, Repr

/- The state of the reading behind a verb. -/
structure Scan where
  given : Given := {}
  pending : Option Pending := none
  /- Two dashes have come: all that follows is plain. -/
  trailing : Bool := false
  /- The value without an option has come. -/
  valued : Bool := false

namespace Scan

/- Examine the argument that is pending. -/
def resolve (scan : Scan) : Except Usage Scan :=
  match scan.pending with
  | none => .ok scan
  | some { value := none, .. } => .error .invalidValue
  | some { argument, value := some value } => do
      let given ← scan.given.take argument value
      return { scan with given, pending := none }

/- Take an option without a value. -/
def flag (scan : Scan) (option : Argument) : Except Usage Scan := do
  let scan ← scan.resolve
  if option = .help then .error .displayHelp
  else
    let given ← scan.given.take option ""
    return { scan with given }

/- Take an option with the value attached to it, or wait for its value. -/
def valued? (scan : Scan) (option : Argument) : Option String → Except Usage Scan
  | none => do
      let scan ← scan.resolve
      return { scan with pending := some { argument := option } }
  | some value => do
      let scan ← scan.resolve
      let given ← scan.given.take option value
      return { scan with given }

/- Take a name behind two dashes. -/
def long
    (verb : Verb)
    (scan : Scan)
    (name : String)
    (value : Option String) : Except Usage Scan :=
  match verb.long? name with
  | none => .error .unknownArgument
  | some option =>
      if option.takesValue then scan.valued? option value
      else if value.isSome then .error .tooManyValues
      else scan.flag option

/- The value attached to a letter. -/
def attached : List Char → Option String
  | [] => none
  | '=' :: value => some (String.ofList value)
  | value => some (String.ofList value)

/- Take letters behind one dash. -/
def letters (verb : Verb) (scan : Scan) : List Char → Except Usage Scan
  | [] => .ok scan
  | letter :: rest =>
      match verb.short? letter with
      | none => .error .unknownArgument
      | some option =>
          if option.takesValue then scan.valued? option (attached rest)
          else do
            let scan ← scan.flag option
            letters verb scan rest

/- Take the value without an option, of which there is only one. -/
def plain (verb : Verb) (scan : Scan) (word : String) : Except Usage Scan :=
  if scan.valued then .error .unknownArgument
  else do
    let scan ← scan.resolve
    return { scan with
      pending := some { argument := verb.value, value := some word }
      valued := true }

/- The option that waits for its value. -/
def awaiting? (scan : Scan) : Option Argument :=
  match scan.pending with
  | some { argument, value := none } => some argument
  | _ => none

/- Take one word. -/
def step (verb : Verb) (scan : Scan) (word : String) : Except Usage Scan :=
  if scan.trailing then scan.plain verb word
  else
    match WordForm.of word with
    | .escape => .ok { scan with trailing := true }
    | .long name value => scan.long verb name value
    | .short cs => scan.letters verb cs
    | .plain =>
        match scan.awaiting? with
        | some argument =>
            .ok { scan with pending := some { argument, value := some word } }
        | none => scan.plain verb word

/-
  The arguments at the end. Input and file exclude each other,
  and the value without an option must be there.
-/
def finish (verb : Verb) (scan : Scan) : Except Usage Given := do
  let scan ← scan.resolve
  if scan.given.has .input && scan.given.has .file then .error .argumentConflict
  else if !scan.given.has verb.value then .error .missingRequiredArgument
  else return scan.given

end Scan

------------------------------------------------------------
-- Reading commands
------------------------------------------------------------

namespace Command

/- The command of a verb with its arguments. -/
def ofGiven (given : Given) : Verb → Except Usage Command
  | .explain => .ok (explain given.filter (given.has .docs) given.output)
  | .split => .ok (split given.filter given.output)
  | .run =>
      .ok (run given.filter given.input
        { rawOutput := given.has .rawOutput
          slurp := given.has .slurp
          rawInput := given.has .rawInput
          nullInput := given.has .nullInput }
        given.engine)
  | .steps => .ok (steps given.filter given.input given.engine given.output)
  | .completion =>
      match given.shell with
      | some shell => .ok (completion shell)
      | none => .error .missingRequiredArgument

/- The command of a verb with the words behind it. -/
def ofVerb (verb : Verb) (words : List String) : Except Usage Command := do
  let scan ← words.foldlM (Scan.step verb) {}
  let given ← scan.finish verb
  ofGiven given verb

/- The word that asks for help on a command. -/
def helpWord : String :=
  "help"

/- A word names a command or asks for help on one. -/
def isName (word : String) : Bool :=
  word = helpWord || (Verb.ofName? word).isSome

/- What a request for help on commands gives. -/
def helpOn : List String → Usage
  | [] => .displayHelp
  | [word] => if isName word then .displayHelp else .invalidSubcommand
  | _ => .invalidSubcommand

/- What an option in front of a command gives. -/
def frontOption (name : String) (value : Option String) : Usage :=
  if name = "help" || name = "version" then
    if value.isSome then .tooManyValues
    else if name = "help" then .displayHelp
    else .displayVersion
  else .unknownArgument

/- What letters in front of a command give. -/
def frontLetter : List Char → Usage
  | 'h' :: _ => .displayHelp
  | 'V' :: _ => .displayVersion
  | _ => .unknownArgument

/-
  The command that words ask for. Behind two dashes no word can
  name a command any more.
-/
def parse : List String → Except Usage Command
  | [] => .error .displayHelpOnMissingArgumentOrSubcommand
  | word :: words =>
      match Verb.ofName? word with
      | some verb => ofVerb verb words
      | none =>
          if word = helpWord then .error (helpOn words)
          else
            match WordForm.of word with
            | .long name value => .error (frontOption name value)
            | .short cs => .error (frontLetter cs)
            | .plain => .error .invalidSubcommand
            | .escape =>
                match words with
                | [] => .error .displayHelpOnMissingArgumentOrSubcommand
                | word :: _ =>
                    .error (if isName word then .unknownArgument else .invalidSubcommand)

end Command

end JqLens
