import JqLens.Engine.Steps
import JqLens.Pipeline
import JqLens.Terminal.Colour
import JqLens.Token.Basic

/-
  This file lays out tokens, pipelines and the results of stages
  as plain text for a terminal, with or without colours.

  Key definitions include:
    * `Table.wrap`
    * `Table.tokens`
    * `Table.pipeline`
    * `Table.steps`
-/

namespace JqLens.Table

------------------------------------------------------------
-- Wrapping
------------------------------------------------------------

/-
  Fill lines with words, behind what the current line holds. A
  word goes to the next line where it does not fit.
-/
def fill (width : Nat) (line : List Char) : List (List Char) → List (List Char)
  | [] => [line]
  | word :: words =>
      if line.length + 1 + word.length ≤ width then
        fill width (line ++ ' ' :: word) words
      else
        line :: fill width word words

/- The lines that hold the given words in order. -/
def fillLines (width : Nat) : List (List Char) → List (List Char)
  | [] => []
  | word :: words => fill width word words

/-
  Wrap a text of one line between its words. A text that has
  several lines or fits into the width stays as it is.
-/
def wrap (width : Nat) (content : List Char) : List Char :=
  if content.contains '\n' || content.length ≤ width then content
  else Text.joinWith ['\n'] (fillLines width (Text.words content))

------------------------------------------------------------
-- Cells
------------------------------------------------------------

/- A character of a cell, in which line breaks and tabs are escaped. -/
def cellChar (c : Char) : List Char :=
  if c = '\n' then ['\\', 'n']
  else if c = '\t' then ['\\', 't']
  else [c]

/- The text of a token in a single cell. -/
def cell (text : String) : List Char :=
  text.toList.flatMap cellChar

/- A text with spaces behind it up to a width. -/
def pad (width : Nat) (text : List Char) : List Char :=
  text ++ List.replicate (width - text.length) ' '

------------------------------------------------------------
-- Tokens
------------------------------------------------------------

/- The width of documentation without its indent. -/
def documentationWidth : Nat :=
  72

/- The width of the column of categories. -/
def categoryWidth : Nat :=
  9

/- What stands between two columns. -/
def gap : List Char :=
  [' ', ' ']

/- The width of the column of texts. -/
def textWidth (tokens : List Token) : Nat :=
  tokens.foldl (fun width token => max width (cell token.text).length) 0

/- The row of a token: its text, its category and its description. -/
def row (color : Bool) (width : Nat) (token : Token) : List Char :=
  Colour.paintIf color Colour.literal (pad width (cell token.text)) ++ gap ++
    Colour.paintIf color (Colour.ofCategory token.category)
      (pad categoryWidth token.category.name.toList) ++ gap ++
    token.description.toList ++ ['\n']

/- The documentation of a token, indented under its description. -/
def documentation (color : Bool) (width : Nat) (token : Token) : List Char :=
  match token.documentation with
  | none => []
  | some text =>
      (Text.lines (wrap documentationWidth text.toList)).flatMap fun line =>
        List.replicate (width + 2 + categoryWidth + 2) ' ' ++
          Colour.paintIf color Colour.context line ++ ['\n']

/-
  A row for each token that is not blank, each followed by its
  documentation if that is wanted.
-/
def tokens (docs color : Bool) (tokens : List Token) : String :=
  let visible := tokens.filter fun token => !token.isSpace
  let width := textWidth visible
  String.ofList (visible.flatMap fun token =>
    row color width token ++ if docs then documentation color width token else [])

------------------------------------------------------------
-- Pipelines
------------------------------------------------------------

/- What is shown where there are no stages. -/
def noStages : String :=
  "No stages.\n"

/- The title of a section, on a line of its own. -/
def title (color : Bool) (text : String) : List Char :=
  Colour.paintIf color Colour.header text.toList ++ ['\n']

/- A stage with its position. -/
def stageRow (stage : Stage) : List Char :=
  gap ++ (toString stage.ordinal).toList ++ gap ++ stage.text.toList ++ ['\n']

/- The stages of a pipeline, and the cumulative filters below them. -/
def pipeline (color : Bool) (pipeline : Pipeline) : String :=
  if pipeline.isEmpty then noStages
  else
    String.ofList
      (title color "Stages:" ++ pipeline.fragments.flatMap stageRow ++ ['\n'] ++
        title color "Progressive filters:" ++ pipeline.progressive.flatMap stageRow)

------------------------------------------------------------
-- Results of stages
------------------------------------------------------------

/- The output of a stage, indented; empty output is remarked. -/
def stepOutput (color : Bool) (output : String) : List Char :=
  if output.isEmpty then
    "    ".toList ++ Colour.paintIf color Colour.context "(no output)".toList ++ ['\n']
  else
    (Text.lines output.toList).flatMap fun line => "    ".toList ++ line ++ ['\n']

/- The error of a stage. -/
def stepError (color : Bool) (error : String) : List Char :=
  gap ++ Colour.paintIf color Colour.error "error".toList ++ "   ".toList ++
    error.toList ++ ['\n']

/- A stage with its cumulative filter, its output and its error. -/
def step (color : Bool) (result : StepResult) : List Char :=
  Colour.paintIf color Colour.header ("Step " ++ toString result.step).toList ++ gap ++
    Colour.paintIf color Colour.literal result.fragment.toList ++ ['\n'] ++
    gap ++ Colour.paintIf color Colour.context "filter".toList ++ gap ++
    result.fullFilter.toList ++ ['\n'] ++
    (result.output.map (stepOutput color)).getD [] ++
    (result.error.map (stepError color)).getD []

/- The results of all stages. -/
def steps (color : Bool) (results : List StepResult) : String :=
  if results.isEmpty then noStages
  else String.ofList (results.flatMap (step color))

end JqLens.Table
