import JqLens.Proofs.Wrapping

/-
  This file says that colours are presentation only. Colours are
  switched on and off by sequences that start with an escape
  character; where no text has such a character of its own, a
  coloured table without these sequences is the table in plain.

  Key definitions include:
    * `Colour.switchLength`
    * `Colour.erase`
    * `Colour.Plain`
    * `Colour.Shows`

  Main results:
    * `Colour.erase_start`, `Colour.erase_reset`
    * `Colour.shows_paint`
    * `Table.shows_tokens`, `Table.shows_pipeline`, `Table.shows_steps`
    * `Table.erase_coloured`
-/

namespace JqLens

------------------------------------------------------------
-- Erasing colours
------------------------------------------------------------

namespace Colour

/- What stands in front of the number of a colour. -/
def startFront : List Char :=
  '\x1b' :: "[38;5;".toList

/-
  The length of the sequence at the front of a text that
  switches a colour on or off; it is zero if there is none.
-/
def switchLength (cs : List Char) : Nat :=
  if reset.isPrefixOf cs then reset.length
  else if startFront.isPrefixOf cs then
    let digits := (cs.drop startFront.length).takeWhile Char.isDigit
    let length := startFront.length + digits.length
    if !digits.isEmpty && (cs.drop length).head? = some 'm' then length + 1 else 0
  else 0

/- Erase the sequences of a text, of which some characters are yet to be skipped. -/
def eraseFrom : Nat → List Char → List Char
  | _, [] => []
  | skipped + 1, _ :: cs => eraseFrom skipped cs
  | 0, c :: cs =>
      match switchLength (c :: cs) with
      | 0 => c :: eraseFrom 0 cs
      | skipped + 1 => eraseFrom skipped cs

/- A text without the sequences that switch colours on and off. -/
def erase (cs : List Char) : List Char :=
  eraseFrom 0 cs

theorem eraseFrom_eq_drop
    (skipped : Nat)
    (cs : List Char) :
    eraseFrom skipped cs = erase (cs.drop skipped) := by
  induction skipped generalizing cs with
  | zero => rfl
  | succ skipped ih =>
      cases cs with
      | nil => rfl
      | cons c cs => exact ih cs

/- A sequence at the front of a text is erased. -/
theorem erase_of_switchLength
    {cs : List Char}
    {length : Nat}
    (hLength : switchLength cs = length + 1) :
    erase cs = erase (cs.drop (length + 1)) := by
  cases cs with
  | nil => rfl
  | cons c cs =>
      rw [erase, eraseFrom, hLength, List.drop_succ_cons]
      exact eraseFrom_eq_drop length cs

/- Only an escape character starts a sequence. -/
theorem switchLength_cons
    {c : Char}
    (hPlain : c ≠ '\x1b')
    (cs : List Char) :
    switchLength (c :: cs) = 0 := by
  have hEscape : ('\x1b' == c) = false := beq_eq_false_iff_ne.mpr (Ne.symm hPlain)
  simp [switchLength, reset, startFront, List.isPrefixOf_cons_cons, hEscape]

theorem erase_cons
    {c : Char}
    (hPlain : c ≠ '\x1b')
    (cs : List Char) :
    erase (c :: cs) = c :: erase cs := by
  rw [erase, eraseFrom, switchLength_cons hPlain, erase]

/- What switches colours off is erased. -/
theorem erase_reset
    (rest : List Char) :
    erase (reset ++ rest) = erase rest := by
  have hReset : reset.isPrefixOf (reset ++ rest) = true :=
    List.isPrefixOf_iff_prefix.mpr (List.prefix_append reset rest)
  have hLength : switchLength (reset ++ rest) = 3 + 1 := by
    rw [switchLength, if_pos hReset]
    rfl
  exact erase_of_switchLength hLength

/- What switches a colour on is erased. -/
theorem erase_start
    (code : Nat)
    (rest : List Char) :
    erase (start code ++ rest) = erase rest := by
  let digits := Nat.toDigits 10 code
  have hShape : start code ++ rest = startFront ++ (digits ++ 'm' :: rest) := by
    simp [start, startFront, digits]
  have hReset : reset.isPrefixOf (startFront ++ (digits ++ 'm' :: rest)) = false := by
    simp [reset, startFront, List.isPrefixOf_cons_cons]
  have hFront : startFront.isPrefixOf (startFront ++ (digits ++ 'm' :: rest)) = true :=
    List.isPrefixOf_iff_prefix.mpr (List.prefix_append _ _)
  have hDigits : (digits ++ 'm' :: rest).takeWhile Char.isDigit = digits := by
    rw [List.takeWhile_append_of_pos]
    · simp
    · intro c hMember
      exact Nat.isDigit_of_mem_toDigits (by decide) (by decide) hMember
  have hSome : digits.isEmpty = false := by
    simp [digits, Nat.toDigits_ne_nil]
  have hLength : switchLength (startFront ++ (digits ++ 'm' :: rest)) =
      startFront.length + digits.length + 1 := by
    simp [switchLength, hReset, hFront, hDigits, hSome, ← List.drop_drop]
  rw [hShape, erase_of_switchLength hLength, Nat.add_assoc, ← List.drop_drop, List.drop_left,
    ← List.drop_drop, List.drop_left]
  rfl

------------------------------------------------------------
-- Texts without escape characters
------------------------------------------------------------

/- A text has no escape character. -/
def Plain (text : List Char) : Prop :=
  '\x1b' ∉ text

instance (text : List Char) : Decidable (Plain text) := by
  unfold Plain
  infer_instance

theorem Plain.append
    {front behind : List Char}
    (hFront : Plain front)
    (hBehind : Plain behind) :
    Plain (front ++ behind) := by
  rw [Plain, List.mem_append]
  exact not_or.mpr ⟨hFront, hBehind⟩

theorem Plain.of_append
    {front behind : List Char}
    (hPlain : Plain (front ++ behind)) :
    Plain front ∧ Plain behind := by
  rw [Plain, List.mem_append] at hPlain
  exact not_or.mp hPlain

/- A text of characters that another one holds, or that are no escape characters. -/
theorem Plain.of_mem
    {text found : List Char}
    (hPlain : Plain text)
    (hFound : ∀ c ∈ found, c ∈ text ∨ c ≠ '\x1b') :
    Plain found := by
  intro hMember
  rcases hFound _ hMember with hInside | hOther
  · exact hPlain hInside
  · exact hOther rfl

theorem plain_spaces
    (n : Nat) :
    Plain (List.replicate n ' ') := by
  intro hMember
  exact absurd (List.eq_of_mem_replicate hMember) (by decide)

theorem plain_number
    (n : Nat) :
    Plain (toString n).toList := by
  intro hMember
  rw [Nat.toString_eq_ofList_toDigits, String.toList_ofList] at hMember
  exact absurd (Nat.isDigit_of_mem_toDigits (by decide) (by decide) hMember) (by decide)

------------------------------------------------------------
-- Coloured texts and what they show
------------------------------------------------------------

/- Without its sequences, a coloured text is the other one, whatever follows. -/
def Shows
    (coloured text : List Char) : Prop :=
  ∀ rest, erase (coloured ++ rest) = text ++ erase rest

theorem Shows.erase_eq
    {coloured text : List Char}
    (hShows : Shows coloured text) :
    erase coloured = text := by
  have hEnd := hShows []
  rwa [List.append_nil, erase, erase, eraseFrom, List.append_nil] at hEnd

theorem Shows.append
    {front behind frontText behindText : List Char}
    (hFront : Shows front frontText)
    (hBehind : Shows behind behindText) :
    Shows (front ++ behind) (frontText ++ behindText) := by
  intro rest
  rw [List.append_assoc, hFront, hBehind, List.append_assoc]

/- Pieces one after the other show what each of them shows. -/
theorem shows_flatMap
    {α : Type}
    {items : List α}
    {coloured text : α → List Char}
    (hItems : ∀ item ∈ items, Shows (coloured item) (text item)) :
    Shows (items.flatMap coloured) (items.flatMap text) := by
  induction items with
  | nil => exact fun _ => rfl
  | cons item items ih =>
      rw [List.forall_mem_cons] at hItems
      exact hItems.1.append (ih hItems.2)

theorem Plain.shows
    {text : List Char}
    (hPlain : Plain text) :
    Shows text text := by
  intro rest
  induction text with
  | nil => rfl
  | cons c text ih =>
      rw [Plain, List.mem_cons, not_or] at hPlain
      rw [List.cons_append, erase_cons (Ne.symm hPlain.1), ih hPlain.2, List.cons_append]

/- A painted text shows the text. -/
theorem shows_paint
    (code : Nat)
    {text : List Char}
    (hPlain : Plain text) :
    Shows (paint code text) text := by
  intro rest
  rw [paint, List.append_assoc, List.append_assoc, erase_start, hPlain.shows, erase_reset]

theorem shows_paintIf
    (code : Nat)
    {text : List Char}
    (hPlain : Plain text) :
    Shows (paintIf true code text) (paintIf false code text) :=
  shows_paint code hPlain

end Colour

open Colour (Plain Shows erase shows_paintIf shows_flatMap)

------------------------------------------------------------
-- Texts of what is shown
------------------------------------------------------------

/- The texts of a token that a table may show. -/
def Token.texts (token : Token) : List String :=
  token.text :: token.description :: token.documentation.toList

/- The texts of all stages of a pipeline and of its cumulative filters. -/
def Pipeline.texts (pipeline : Pipeline) : List String :=
  (pipeline.fragments ++ pipeline.progressive).map Stage.text

/- The texts of the result of a stage. -/
def StepResult.texts (result : StepResult) : List String :=
  result.fragment :: result.fullFilter :: (result.output.toList ++ result.error.toList)

namespace Table

------------------------------------------------------------
-- Tokens
------------------------------------------------------------

theorem plain_gap :
    Plain gap := by
  decide

theorem plain_break :
    Plain ['\n'] := by
  decide

theorem plain_pad
    {text : List Char}
    (hPlain : Plain text)
    (width : Nat) :
    Plain (pad width text) :=
  hPlain.append (Colour.plain_spaces _)

theorem plain_cell
    {text : String}
    (hPlain : Plain text.toList) :
    Plain (cell text) := by
  apply hPlain.of_mem
  intro c hMember
  rcases List.mem_flatMap.mp hMember with ⟨d, hInside, hChar⟩
  unfold cellChar at hChar
  split at hChar
  · right
    rintro rfl
    simp at hChar
  split at hChar
  · right
    rintro rfl
    simp at hChar
  · rw [List.mem_singleton.mp hChar]
    exact .inl hInside

theorem plain_wrap
    {content : List Char}
    (hPlain : Plain content)
    (width : Nat) :
    Plain (wrap width content) := by
  apply hPlain.of_mem
  intro c hMember
  rcases mem_of_mem_wrap hMember with hInside | rfl | rfl
  · exact .inl hInside
  · exact .inr (by decide)
  · exact .inr (by decide)

theorem plain_lines
    {text line : List Char}
    (hPlain : Plain text)
    (hLine : line ∈ Text.lines text) :
    Plain line :=
  hPlain.of_mem fun _ hMember => .inl (Text.mem_of_mem_lines hLine hMember)

theorem shows_row
    {width : Nat}
    {token : Token}
    (hText : Plain token.text.toList)
    (hDescription : Plain token.description.toList) :
    Shows (row true width token) (row false width token) := by
  have hName : Plain token.category.name.toList := by
    cases token.category with
    | _ => decide
  have hFirst := (shows_paintIf Colour.literal (plain_pad (plain_cell hText) width)).append
    plain_gap.shows
  have hSecond := (hFirst.append (shows_paintIf (Colour.ofCategory token.category)
    (plain_pad hName categoryWidth))).append plain_gap.shows
  exact (hSecond.append hDescription.shows).append plain_break.shows

theorem shows_documentation
    {width : Nat}
    {token : Token}
    (hPlain : ∀ text ∈ token.documentation, Plain text.toList) :
    Shows (documentation true width token) (documentation false width token) := by
  unfold documentation
  cases hText : token.documentation with
  | none => exact fun _ => rfl
  | some text =>
      apply shows_flatMap
      intro line hLine
      have hInside := plain_lines (plain_wrap (hPlain text hText) _) hLine
      exact ((Colour.plain_spaces _).shows.append (shows_paintIf _ hInside)).append
        plain_break.shows

/- A table of tokens in colours shows the same table in plain. -/
theorem shows_tokens
    {shown : List Token}
    (docs : Bool)
    (hPlain : ∀ token ∈ shown, ∀ text ∈ token.texts, Plain text.toList) :
    Shows (tokens docs true shown).toList (tokens docs false shown).toList := by
  simp only [tokens, String.toList_ofList]
  apply shows_flatMap
  intro token hToken
  have hTexts := hPlain token (List.mem_of_mem_filter hToken)
  rw [Token.texts, List.forall_mem_cons, List.forall_mem_cons] at hTexts
  refine (shows_row hTexts.1 hTexts.2.1).append ?_
  cases docs with
  | false => exact fun _ => rfl
  | true =>
      apply shows_documentation
      intro text hText
      exact hTexts.2.2 text (Option.mem_toList.mpr hText)

------------------------------------------------------------
-- Pipelines
------------------------------------------------------------

theorem shows_title
    {text : String}
    (hPlain : Plain text.toList) :
    Shows (title true text) (title false text) := by
  exact (shows_paintIf _ hPlain).append plain_break.shows

theorem shows_stageRow
    {stage : Stage}
    (hPlain : Plain stage.text.toList) :
    Shows (stageRow stage) (stageRow stage) := by
  have hRow := (((plain_gap.append (Colour.plain_number stage.ordinal)).append plain_gap).append
    hPlain).append plain_break
  exact hRow.shows

/- A pipeline in colours shows the same pipeline in plain. -/
theorem shows_pipeline
    {shown : Pipeline}
    (hPlain : ∀ text ∈ shown.texts, Plain text.toList) :
    Shows (pipeline true shown).toList (pipeline false shown).toList := by
  have hRows : ∀ stages ⊆ shown.fragments ++ shown.progressive,
      Shows (stages.flatMap stageRow) (stages.flatMap stageRow) := by
    intro stages hStages
    apply shows_flatMap
    intro stage hStage
    exact shows_stageRow (hPlain _ (List.mem_map_of_mem (hStages hStage)))
  unfold pipeline
  split
  · have hNone : Plain noStages.toList := by
      decide
    exact hNone.shows
  · simp only [String.toList_ofList]
    have hTitle : Plain "Stages:".toList := by
      decide
    have hSecondTitle : Plain "Progressive filters:".toList := by
      decide
    have hStages := (shows_title hTitle).append
      (hRows shown.fragments (List.subset_append_left _ _))
    have hFilters := (hStages.append plain_break.shows).append (shows_title hSecondTitle)
    exact hFilters.append (hRows shown.progressive (List.subset_append_right _ _))

------------------------------------------------------------
-- Results of stages
------------------------------------------------------------

theorem shows_stepOutput
    {output : String}
    (hPlain : Plain output.toList) :
    Shows (stepOutput true output) (stepOutput false output) := by
  have hIndent : Plain "    ".toList := by
    decide
  unfold stepOutput
  split
  · exact (hIndent.shows.append (shows_paintIf _ (by decide))).append plain_break.shows
  · apply shows_flatMap
    intro line hLine
    exact ((hIndent.append (plain_lines hPlain hLine)).append plain_break).shows

theorem shows_stepError
    {error : String}
    (hPlain : Plain error.toList) :
    Shows (stepError true error) (stepError false error) := by
  have hWord : Plain "error".toList := by
    decide
  have hBlanks : Plain "   ".toList := by
    decide
  have hFront := (plain_gap.shows.append (shows_paintIf Colour.error hWord)).append hBlanks.shows
  exact (hFront.append hPlain.shows).append plain_break.shows

/- What an optional text is shown as, in colours and in plain. -/
theorem shows_option
    {text : Option String}
    {coloured plain : String → List Char}
    (hText : ∀ found ∈ text, Shows (coloured found) (plain found)) :
    Shows ((text.map coloured).getD []) ((text.map plain).getD []) := by
  cases text with
  | none => exact fun _ => rfl
  | some found => exact hText found rfl

theorem shows_step
    {result : StepResult}
    (hPlain : ∀ text ∈ result.texts, Plain text.toList) :
    Shows (step true result) (step false result) := by
  simp only [StepResult.texts, List.forall_mem_cons, List.forall_mem_append,
    Option.mem_toList] at hPlain
  rcases hPlain with ⟨hFragment, hFilter, hOutput, hError⟩
  have hTitle : Plain ("Step " ++ toString result.step).toList := by
    rw [String.toList_append]
    exact Colour.Plain.append (by decide) (Colour.plain_number _)
  have hWord : Plain "filter".toList := by
    decide
  have hOutput := shows_option fun text hText => shows_stepOutput (hOutput text hText)
  have hError := shows_option fun text hText => shows_stepError (hError text hText)
  have hFirst := (((shows_paintIf Colour.header hTitle).append plain_gap.shows).append
    (shows_paintIf Colour.literal hFragment)).append plain_break.shows
  have hSecond := ((((hFirst.append plain_gap.shows).append
    (shows_paintIf Colour.context hWord)).append plain_gap.shows).append
      hFilter.shows).append plain_break.shows
  exact (hSecond.append hOutput).append hError

/- Results of stages in colours show the same results in plain. -/
theorem shows_steps
    {results : List StepResult}
    (hPlain : ∀ result ∈ results, ∀ text ∈ result.texts, Plain text.toList) :
    Shows (steps true results).toList (steps false results).toList := by
  unfold steps
  split
  · have hNone : Plain noStages.toList := by
      decide
    exact hNone.shows
  · simp only [String.toList_ofList]
    exact shows_flatMap fun result hResult => shows_step (hPlain result hResult)

------------------------------------------------------------
-- Presentation only
------------------------------------------------------------

/-
  Where no text has an escape character, a table in colours is
  the same table in plain once the sequences that switch colours
  are erased. So it is for tokens, with and without their
  documentation, for pipelines and for the results of stages.
-/
theorem erase_coloured :
    (∀ (docs : Bool) (shown : List Token),
      (∀ token ∈ shown, ∀ text ∈ token.texts, Plain text.toList) →
        erase (tokens docs true shown).toList = (tokens docs false shown).toList) ∧
      (∀ shown : Pipeline,
        (∀ text ∈ shown.texts, Plain text.toList) →
          erase (pipeline true shown).toList = (pipeline false shown).toList) ∧
      (∀ results : List StepResult,
        (∀ result ∈ results, ∀ text ∈ result.texts, Plain text.toList) →
          erase (steps true results).toList = (steps false results).toList) := by
  refine ⟨?_, ?_, ?_⟩
  · intro docs shown hPlain
    exact (shows_tokens docs hPlain).erase_eq
  · intro shown hPlain
    exact (shows_pipeline hPlain).erase_eq
  · intro results hPlain
    exact (shows_steps hPlain).erase_eq

/- Documentation that is wrapped, a stage with a line break, and results of all kinds. -/
theorem erase_coloured_severalLines :
    let token : Token :=
      { text := "\"a\tb\""
        category := .string
        description := "String literal"
        documentation := some
          "Text between quotes; a backslash takes the next character as it is, a quote too." }
    let stage : Stage := ⟨1, "[.a,\n.b]"⟩
    let results : List StepResult :=
      [⟨1, ".a", ".a", some "1\n\"[38;5;74m\"", none⟩, ⟨2, ".b", ".a | .b", some "", some "none"⟩]
    (∀ text ∈ token.texts, Plain text.toList) ∧
      (∀ text ∈ (Pipeline.mk [stage] [stage]).texts, Plain text.toList) ∧
      (∀ result ∈ results, ∀ text ∈ result.texts, Plain text.toList) ∧
      tokens true true [token] ≠ tokens true false [token] ∧
      erase (tokens true true [token]).toList = (tokens true false [token]).toList ∧
      erase (pipeline true ⟨[stage], [stage]⟩).toList =
        (pipeline false ⟨[stage], [stage]⟩).toList ∧
      erase (steps true results).toList = (steps false results).toList := by
  intro token stage results
  have hToken : ∀ text ∈ token.texts, Plain text.toList := by
    decide
  have hStages : ∀ text ∈ (Pipeline.mk [stage] [stage]).texts, Plain text.toList := by
    decide
  have hResults : ∀ result ∈ results, ∀ text ∈ result.texts, Plain text.toList := by
    decide
  have hDiffers : tokens true true [token] ≠ tokens true false [token] := by
    decide +kernel
  rcases erase_coloured with ⟨hTokens, hPipeline, hSteps⟩
  exact ⟨hToken, hStages, hResults, hDiffers,
    hTokens true [token] (List.forall_mem_singleton.mpr hToken), hPipeline _ hStages,
    hSteps results hResults⟩

end Table

end JqLens
