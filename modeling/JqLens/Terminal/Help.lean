import JqLens.Terminal.Colour

/-
  This file holds the help texts of the command line.

  Key definitions include:
    * `Help.commands`
    * `Help.template`
    * `Help.quickstart`
    * `Help.page`
-/

namespace JqLens.Help

/- A title, always in colour. -/
def header (text : String) : String :=
  String.ofList (Colour.paint Colour.header text.toList)

/- The name of a command, always in colour. -/
def literal (text : String) : String :=
  String.ofList (Colour.paint Colour.literal text.toList)

/- The list of the commands. -/
def commands : String :=
  header "Learning:" ++ "\n" ++
    "  " ++ literal "explain" ++ "     Annotate every token of a filter\n" ++
    "  " ++ literal "split" ++ "       Show the pipeline stages of a filter\n\n" ++
    header "Evaluation:" ++ "\n" ++
    "  " ++ literal "run" ++ "         Evaluate a filter with jq\n" ++
    "  " ++ literal "steps" ++ "       Evaluate a pipeline stage by stage\n\n" ++
    header "Setup:" ++ "\n" ++
    "  " ++ literal "completion" ++ "  Generate shell completions\n"

/- The layout of the help page, with names in braces for its parts. -/
def template : String :=
  "\x7babout-with-newline\x7d\n\x7busage-heading\x7d \x7busage\x7d\n\n\x7bbefore-help\x7d" ++
    header "Options:" ++ "\n\x7boptions\x7d\x7bafter-help\x7d"

/- Examples to start with. -/
def quickstart (color : Bool) : String :=
  Colour.examples color
    ("Get started:\n" ++
      "  lq explain '.users[] | .name'      What each piece means\n" ++
      "  lq split '.a | map(.b) | length'   Where the pipeline breaks\n" ++
      "  lq steps '.[] | .id' -i '[\x7b\"id\":1\x7d]'  Watch data flow through it")

/- What the program is for. -/
def about : String :=
  "Learn jq by taking filters apart"

/- The help page. -/
def page (color : Bool) : String :=
  about ++ "\n\nUsage: lq <COMMAND>\n\n" ++ commands ++ "\n" ++ quickstart color ++ "\n"

end JqLens.Help
