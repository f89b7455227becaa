import JqLens.Quote
import JqLens.Text.Blank

/-
  This file splits a filter into its top-level pipeline stages
  and builds the cumulative filters that lead up to each stage.

  A pipe separates two stages when it stands outside every
  bracket and string literal and is not the first half of the
  update operator. Brackets that do not match are no error: the
  numbers of open brackets may become negative or stay positive.

  Key definitions include:
    * `Depths`
    * `pieces`
    * `splitStages`
    * `cumulative`
    * `Pipeline`
    * `decompose`
-/

namespace JqLens

------------------------------------------------------------
-- Open brackets
------------------------------------------------------------

/- How many more brackets of each kind have been opened than closed. -/
structure Depths where
  round : Int := 0
  square : Int := 0
  curly : Int := 0
  deriving DecidableEq, Repr

namespace Depths

/- The numbers after one more character of filter code. -/
def after (d : Depths) (c : Char) : Depths :=
  match c with
  | '(' => { d with round := d.round + 1 }
  | ')' => { d with round := d.round - 1 }
  | '[' => { d with square := d.square + 1 }
  | ']' => { d with square := d.square - 1 }
  | '\x7b' => { d with curly := d.curly + 1 }
  | '\x7d' => { d with curly := d.curly - 1 }
  | _ => d

/- As many brackets of each kind have been opened as closed. -/
def balanced (d : Depths) : Bool :=
  d.round == 0 && d.square == 0 && d.curly == 0

end Depths

------------------------------------------------------------
-- Stages
------------------------------------------------------------

/-
  Cut a text at its stage boundaries, from a state of the scan.
  The piece read so far is `piece`, last character first.
-/
def pieces
    (k : Quote.Cursor)
    (d : Depths)
    (piece : List Char) : List Char → List (List Char)
  | [] => [piece.reverse]
  | c :: cs =>
      if (k.step c).isLiteral then
        pieces (k.next c) d (c :: piece) cs
      else if c = '|' then
        match cs with
        | '=' :: cs => pieces (k.next c) d ('=' :: '|' :: piece) cs
        | cs =>
            if d.balanced then piece.reverse :: pieces (k.next c) d [] cs
            else pieces (k.next c) d (c :: piece) cs
      else
        pieces (k.next c) (d.after c) (c :: piece) cs

/- The stages of a filter, trimmed; those without text are dropped. -/
def stages (filter : List Char) : List (List Char) :=
  ((pieces .outside {} [] filter).map Text.trim).filter fun stage => !stage.isEmpty

/- The texts of the stages of a filter. -/
def splitStages (filter : String) : List String :=
  (stages filter.toList).map String.ofList

------------------------------------------------------------
-- Cumulative filters
------------------------------------------------------------

/- What stands between two stages that are joined again. -/
def stageSeparator : String :=
  " | "

/- The cumulative filters behind the stages joined so far. -/
def cumulativeFrom (joined : String) : List String → List String
  | [] => []
  | stage :: rest =>
      let joined := joined ++ stageSeparator ++ stage
      joined :: cumulativeFrom joined rest

/-
  For each stage the filter of all stages up to it, joined with
  the separator.
-/
def cumulative : List String → List String
  | [] => []
  | stage :: rest => stage :: cumulativeFrom stage rest

------------------------------------------------------------
-- Pipelines
------------------------------------------------------------

/- A text with its position in a pipeline, counted from one. -/
structure Stage where
  ordinal : Nat
  text : String
  deriving DecidableEq, Repr

/- Number texts from one. -/
def Stage.number (texts : List String) : List Stage :=
  (texts.zipIdx 1).map fun (text, ordinal) => { ordinal, text }

/- The stages of a filter with the cumulative filter of each. -/
structure Pipeline where
  fragments : List Stage := []
  progressive : List Stage := []
  deriving DecidableEq, Repr

namespace Pipeline

/- The number of stages. -/
def length (pipeline : Pipeline) : Nat :=
  pipeline.fragments.length

/- A pipeline without stages. -/
def isEmpty (pipeline : Pipeline) : Bool :=
  pipeline.fragments.isEmpty

/- The texts of the stages. -/
def stageTexts (pipeline : Pipeline) : List String :=
  pipeline.fragments.map (·.text)

end Pipeline

/- The pipeline of a filter. -/
def decompose (filter : String) : Pipeline :=
  let texts := splitStages filter
  { fragments := Stage.number texts
    progressive := Stage.number (cumulative texts) }

end JqLens
