import JqLens.Terminal.Session

/-
  This file connects the program to its surroundings: it reads
  the environment and the file that the arguments name, runs
  the program, and writes what it gives.

  Key definitions include:
    * `main`
-/

namespace JqLens

/- The file with the input of a command. -/
def Command.inputFile? : Command → Option String
  | .run _ source _ _ => source.file
  | .steps _ source _ _ => source.file
  | _ => none

/- The files that a command reads, as far as they can be read. -/
def layoutFor (words : List String) : IO (Layout Program) := do
  match Command.parse words with
  | .error _ => return {}
  | .ok command =>
      match command.inputFile? with
      | none => return {}
      | some path =>
          try
            let content ← IO.FS.readBinFile path
            return { entries := [(pathParts path, .file content.toList)] }
          catch _ => return {}

end JqLens

open JqLens in
/- Run the program on its arguments. -/
def main (words : List String) : IO UInt32 := do
  let noColor ← IO.getEnv "NO_COLOR"
  let color ← IO.getEnv "COLOR"
  let searchPath ← IO.getEnv "PATH"
  let stdout ← IO.getStdout
  let stderr ← IO.getStderr
  let surroundings : Surroundings :=
    { layout := ← layoutFor words
      searchPath
      color := Colour.enabled noColor color (← stdout.isTty) }
  let session := Session.run surroundings words
  stdout.putStr session.written.stdout
  stderr.putStr session.written.stderr
  return UInt32.ofNat session.exit
