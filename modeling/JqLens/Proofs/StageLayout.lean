import JqLens.Proofs.Cumulative
import JqLens.Proofs.QuoteAgreement
import JqLens.Proofs.StageTokens

/-
  This file says what the stages of a filter are by positions
  alone. Whether a pipe is a stage boundary is a matter of the
  text in front of it and of the character behind it. The
  stages are what stands between boundaries, without the blanks
  around it; and a filter is its stages with gaps around them
  that hold blanks and boundaries, so that nothing is lost. A
  pipe where nothing is open therefore joins the stages on both
  sides of it.

  Key definitions include:
    * `isBoundaryAt`
    * `Spot`, `spots`
    * `cutStages`
    * `Row`, `IsLayout`

  Main results:
    * `spots_eq`
    * `stages_eq_cutStages`
    * `cutStages_boundary`
    * `IsLayout.cutStages_eq`
    * `exists_layout`
    * `splitStages_eq_iff_layout`
    * `splitStages_append_pipe`
-/

namespace JqLens

open Quote (Cursor)

------------------------------------------------------------
-- Boundaries by position
------------------------------------------------------------

/-
  At a position of a filter there is a stage boundary: a pipe
  outside every literal that no equals sign follows directly,
  and in front of it, outside literals, there are as many
  opening as closing brackets of each kind.
-/
def isBoundaryAt
    (filter : String)
    (n : Nat) : Bool :=
  filter.toList[n]? == some '|' && !literalAt filter n &&
    filter.toList[n + 1]? != some '=' && matched (filter.toList.take n)

/- A character of a filter, and whether it is a stage boundary. -/
structure Spot where
  char : Char
  isBoundary : Bool
  deriving DecidableEq, Repr

/- Every character of a filter in order. -/
def spots (filter : String) : List Spot :=
  filter.toList.mapIdx fun n c => ⟨c, isBoundaryAt filter n⟩

namespace Spot

/- A blank or a stage boundary. -/
def isFiller (spot : Spot) : Bool :=
  Text.isBlank spot.char || spot.isBoundary

/- The text of characters in a row. -/
def spell (row : List Spot) : List Char :=
  row.map char

@[simp] theorem spell_cons
    (spot : Spot)
    (row : List Spot) :
    spell (spot :: row) = spot.char :: spell row := rfl

@[simp] theorem spell_append
    (front back : List Spot) :
    spell (front ++ back) = spell front ++ spell back :=
  List.map_append

end Spot

/-
  What stands between the boundaries in a row of characters,
  trimmed, as far as it has text.
-/
def cutStages (row : List Spot) : List (List Char) :=
  ((row.splitOnP Spot.isBoundary).map fun piece => Text.trim (Spot.spell piece)).filter
    fun stage => !stage.isEmpty

------------------------------------------------------------
-- Positions and places
------------------------------------------------------------

/- The character behind a text is part of a literal as the cursor finds it there. -/
theorem literalAt_length
    {filter : String}
    {before behind : List Char}
    {c : Char}
    (hFilter : filter.toList = before ++ c :: behind) :
    literalAt filter before.length = ((Cursor.outside.run before).step c).isLiteral := by
  have hFound : ((Cursor.outside.run before).trace (c :: behind))[0]? =
      some ((Cursor.outside.run before).step c, (Cursor.outside.run before).next c) := rfl
  rw [literalAt, hFilter, Cursor.trace_append,
    List.getElem?_append_right (Cursor.length_trace _ _).le, Cursor.length_trace, Nat.sub_self,
    hFound, Option.any_some]

namespace Place

/- Every character of a text, with what the search finds it to be. -/
def spots (p : Place) : List Char → List Spot
  | [] => []
  | c :: cs => ⟨c, c == '|' && p.isBoundary cs⟩ :: spots (p.next c) cs

/- A position is a boundary if the search finds one there. -/
theorem isBoundaryAt_length
    {filter : String}
    {before behind : List Char}
    {c : Char}
    (hFilter : filter.toList = before ++ c :: behind) :
    isBoundaryAt filter before.length = (c == '|' && (run {} before).isBoundary behind) := by
  have hHere : filter.toList[before.length]? = some c := by
    rw [hFilter, List.getElem?_append_right le_rfl, Nat.sub_self, List.getElem?_cons_zero]
  have hBehind : filter.toList[before.length + 1]? = behind.head? := by
    rw [hFilter, List.getElem?_append_right (Nat.le_add_right _ _), Nat.add_sub_cancel_left,
      List.getElem?_cons_succ, List.head?_eq_getElem?]
  have hFront : filter.toList.take before.length = before := by
    rw [hFilter, List.take_left]
  rw [isBoundaryAt, hHere, hBehind, hFront, literalAt_length hFilter, matched_eq]
  by_cases hPipe : c = '|'
  · subst hPipe
    have hCursor : (run {} before).cursor = Cursor.outside.run before :=
      congrArg Place.cursor (run_eq {} before)
    rw [isBoundary, hCursor]
    cases Cursor.outside.run before <;> simp [Cursor.step, Quote.Step.isLiteral]
  · have hNone : (c == '|') = false := beq_eq_false_iff_ne.mpr hPipe
    have hOther : (some c == some '|') = false := by simpa using hPipe
    rw [hNone, hOther]
    rfl

theorem mapIdx_eq_spots
    {filter : String}
    {before cs : List Char}
    (hFilter : filter.toList = before ++ cs) :
    (cs.mapIdx fun n c => Spot.mk c (isBoundaryAt filter (before.length + n))) =
      (run {} before).spots cs := by
  induction cs generalizing before with
  | nil => rfl
  | cons c cs ih =>
      have hOnward : filter.toList = (before ++ [c]) ++ cs := by
        rw [hFilter, List.append_assoc, List.singleton_append]
      have hOthers := ih hOnward
      rw [run_append, run_cons, run_nil, List.length_append, List.length_singleton] at hOthers
      rw [List.mapIdx_cons, spots, ← hOthers, Nat.add_zero, isBoundaryAt_length hFilter]
      simp only [Nat.add_assoc, Nat.add_comm 1]

end Place

/- The search finds the boundaries that there are by position. -/
theorem spots_eq
    (filter : String) :
    spots filter = Place.spots {} filter.toList := by
  have hWhole : filter.toList = [] ++ filter.toList := rfl
  have hSpots := Place.mapIdx_eq_spots hWhole
  simp only [List.length_nil, Nat.zero_add] at hSpots
  exact hSpots

theorem Place.spell_spots
    (p : Place)
    (cs : List Char) :
    Spot.spell (p.spots cs) = cs := by
  induction cs generalizing p with
  | nil => rfl
  | cons c cs ih => exact congrArg (c :: ·) (ih (p.next c))

/- Cutting a row of characters at its boundaries cuts its text. -/
theorem Place.map_spell_splitOnP
    (p : Place)
    (cs : List Char) :
    ((p.spots cs).splitOnP Spot.isBoundary).map Spot.spell = p.cut cs := by
  induction cs generalizing p with
  | nil => rfl
  | cons c cs ih =>
      rw [spots, List.splitOnP_cons_eq_if_modifyHead, cut, ← ih]
      split
      · rfl
      · rcases ((p.next c).spots cs).splitOnP Spot.isBoundary with _ | ⟨piece, pieces⟩
        · rfl
        · rfl

/- The stages of a filter are what stands between its boundaries. -/
theorem stages_eq_cutStages
    (filter : String) :
    stages filter.toList = cutStages (spots filter) := by
  rw [stages_eq, cutStages, spots_eq, ← Place.map_spell_splitOnP, List.map_map]
  rfl

------------------------------------------------------------
-- Layouts
------------------------------------------------------------

/- A stage with the gap behind it. -/
structure Row where
  stage : List Spot
  gap : List Spot

/- The text of the stage. -/
def Row.text (row : Row) : List Char :=
  Spot.spell row.stage

/- A stage has text and is trimmed. -/
def Row.IsTrimmed (row : Row) : Prop :=
  row.text ≠ [] ∧ Text.trim row.text = row.text

/-
  A row of characters is a gap, followed by stages with a gap
  behind each. Gaps hold blanks and boundaries only, and stages
  no boundary. Between two stages there is a boundary.
-/
structure IsLayout
    (row : List Spot)
    (lead : List Spot)
    (rows : List Row) : Prop where
  text : row = lead ++ rows.flatMap fun part => part.stage ++ part.gap
  lead : ∀ spot ∈ lead, spot.isFiller = true
  gap : ∀ part ∈ rows, ∀ spot ∈ part.gap, spot.isFiller = true
  stage : ∀ part ∈ rows, ∀ spot ∈ part.stage, spot.isBoundary = false
  inner : ∀ part ∈ rows.dropLast, ∃ spot ∈ part.gap, spot.isBoundary = true

------------------------------------------------------------
-- Stages of a layout
------------------------------------------------------------

/- A boundary parts the stages in front of it from those behind. -/
theorem cutStages_boundary
    {spot : Spot}
    (hBoundary : spot.isBoundary = true)
    (front back : List Spot) :
    cutStages (front ++ spot :: back) = cutStages front ++ cutStages back := by
  unfold cutStages
  rw [List.splitOnP_append_cons _ _ hBoundary, List.map_append, List.filter_append]

/- A blank or a boundary in front makes no stage and changes none. -/
theorem cutStages_cons_filler
    {spot : Spot}
    (hFiller : spot.isFiller = true)
    (row : List Spot) :
    cutStages (spot :: row) = cutStages row := by
  cases hBoundary : spot.isBoundary with
  | true => exact cutStages_boundary hBoundary [] row
  | false =>
      rw [Spot.isFiller, hBoundary, Bool.or_false] at hFiller
      unfold cutStages
      rw [List.splitOnP_cons_eq_if_modifyHead, hBoundary]
      rcases hPieces : row.splitOnP Spot.isBoundary with _ | ⟨piece, pieces⟩
      · exact absurd hPieces (List.splitOnP_ne_nil _ _)
      · rw [if_neg Bool.false_ne_true, List.modifyHead_cons, List.map_cons, List.map_cons,
          Spot.spell_cons, Text.trim_cons_blank hFiller]

theorem cutStages_append_fillers
    {gap : List Spot}
    (hFillers : ∀ spot ∈ gap, spot.isFiller = true)
    (row : List Spot) :
    cutStages (gap ++ row) = cutStages row := by
  induction gap with
  | nil => rfl
  | cons spot gap ih =>
      rw [List.forall_mem_cons] at hFillers
      rw [List.cons_append, cutStages_cons_filler hFillers.1, ih hFillers.2]

/- A row without boundaries is at most one stage. -/
theorem cutStages_of_uncut
    {row : List Spot}
    (hUncut : ∀ spot ∈ row, spot.isBoundary = false) :
    cutStages row =
      [Text.trim (Spot.spell row)].filter fun stage => !stage.isEmpty := by
  rw [cutStages, List.splitOnP_eq_singleton hUncut]
  rfl

/- A filler that is no boundary is a blank. -/
theorem isBlank_of_mem_spell
    {gap : List Spot}
    (hFillers : ∀ spot ∈ gap, spot.isFiller = true)
    (hUncut : ∀ spot ∈ gap, spot.isBoundary = false) :
    ∀ c ∈ Spot.spell gap, Text.isBlank c = true := by
  intro c hMember
  rcases List.mem_map.mp hMember with ⟨spot, hSpot, rfl⟩
  have hFiller := hFillers spot hSpot
  rwa [Spot.isFiller, hUncut spot hSpot, Bool.or_false] at hFiller

/- A stage with blanks behind it is the stage. -/
theorem Row.cutStages_append_blanks
    {part : Row}
    {blanks : List Spot}
    (hTrimmed : part.IsTrimmed)
    (hStage : ∀ spot ∈ part.stage, spot.isBoundary = false)
    (hFillers : ∀ spot ∈ blanks, spot.isFiller = true)
    (hUncut : ∀ spot ∈ blanks, spot.isBoundary = false) :
    cutStages (part.stage ++ blanks) = [part.text] := by
  have hBlanks := isBlank_of_mem_spell hFillers hUncut
  have hTrim : Text.trim (part.text ++ Spot.spell blanks) = Text.trim part.text :=
    Text.trim_append_blanks (List.forall_mem_nil _) hBlanks part.text
  rw [cutStages_of_uncut (List.forall_mem_append.mpr ⟨hStage, hUncut⟩), Spot.spell_append,
    ← Row.text, hTrim, hTrimmed.2, List.filter_cons_of_pos (by simpa using hTrimmed.1),
    List.filter_nil]

/-
  A stage with its gap in front of other characters comes before
  their stages, if the gap has a boundary or nothing follows.
-/
theorem Row.cutStages_append
    {part : Row}
    {row : List Spot}
    (hTrimmed : part.IsTrimmed)
    (hStage : ∀ spot ∈ part.stage, spot.isBoundary = false)
    (hGap : ∀ spot ∈ part.gap, spot.isFiller = true)
    (hInner : row ≠ [] → ∃ spot ∈ part.gap, spot.isBoundary = true) :
    cutStages (part.stage ++ part.gap ++ row) = part.text :: cutStages row := by
  cases hFound : part.gap.find? Spot.isBoundary with
  | none =>
      have hUncut : ∀ spot ∈ part.gap, spot.isBoundary = false := by
        intro spot hMember
        exact Bool.eq_false_iff.mpr (List.find?_eq_none.mp hFound spot hMember)
      have hLast : row = [] := by
        by_contra hSome
        rcases hInner hSome with ⟨spot, hMember, hBoundary⟩
        rw [hUncut spot hMember] at hBoundary
        exact Bool.noConfusion hBoundary
      rw [hLast, List.append_nil, part.cutStages_append_blanks hTrimmed hStage hGap hUncut]
      rfl
  | some boundary =>
      rcases List.find?_eq_some_iff_append.mp hFound with
        ⟨hBoundary, blanks, others, hParts, hFirst⟩
      have hUncut : ∀ spot ∈ blanks, spot.isBoundary = false := by
        intro spot hMember
        exact (Bool.not_eq_true' _).mp (hFirst spot hMember)
      rw [hParts, List.forall_mem_append, List.forall_mem_cons] at hGap
      rcases hGap with ⟨hBlanks, -, hOthers⟩
      have hText : part.stage ++ part.gap ++ row =
          (part.stage ++ blanks) ++ boundary :: (others ++ row) := by
        rw [hParts]
        simp only [List.append_assoc, List.cons_append]
      rw [hText, cutStages_boundary hBoundary,
        part.cutStages_append_blanks hTrimmed hStage hBlanks hUncut,
        cutStages_append_fillers hOthers]
      rfl

/- What holds of all members but the last, by the first one and the others. -/
theorem forall_mem_dropLast_cons
    {α : Type}
    {p : α → Prop}
    {x : α}
    {xs : List α} :
    (∀ y ∈ (x :: xs).dropLast, p y) ↔ (xs ≠ [] → p x) ∧ ∀ y ∈ xs.dropLast, p y := by
  cases xs with
  | nil => simp
  | cons y ys => simp

/- Stages with gaps between them are what cutting finds. -/
theorem cutStages_flatMap
    {rows : List Row}
    (hTrimmed : ∀ part ∈ rows, part.IsTrimmed)
    (hGap : ∀ part ∈ rows, ∀ spot ∈ part.gap, spot.isFiller = true)
    (hStage : ∀ part ∈ rows, ∀ spot ∈ part.stage, spot.isBoundary = false)
    (hInner : ∀ part ∈ rows.dropLast, ∃ spot ∈ part.gap, spot.isBoundary = true) :
    cutStages (rows.flatMap fun part => part.stage ++ part.gap) = rows.map Row.text := by
  induction rows with
  | nil => rfl
  | cons part rows ih =>
      rw [List.forall_mem_cons] at hTrimmed hGap hStage
      rw [forall_mem_dropLast_cons] at hInner
      have hFirst : (rows.flatMap fun part => part.stage ++ part.gap) ≠ [] →
          ∃ spot ∈ part.gap, spot.isBoundary = true := by
        intro hSome
        apply hInner.1
        rintro rfl
        exact hSome rfl
      rw [List.flatMap_cons, part.cutStages_append hTrimmed.1 hStage.1 hGap.1 hFirst,
        ih hTrimmed.2 hGap.2 hStage.2 hInner.2, List.map_cons]

/- The stages of a layout are what cutting finds, and so there are no others. -/
theorem IsLayout.cutStages_eq
    {row lead : List Spot}
    {rows : List Row}
    (hLayout : IsLayout row lead rows)
    (hTrimmed : ∀ part ∈ rows, part.IsTrimmed) :
    cutStages row = rows.map Row.text := by
  rw [hLayout.text, cutStages_append_fillers hLayout.lead,
    cutStages_flatMap hTrimmed hLayout.gap hLayout.stage hLayout.inner]

------------------------------------------------------------
-- Existence of a layout
------------------------------------------------------------

namespace IsLayout

variable {row lead : List Spot}
variable {rows : List Row}
variable {spot : Spot}

/- A blank or a boundary in front belongs to the leading gap. -/
theorem cons_filler
    (hLayout : IsLayout row lead rows)
    (hFiller : spot.isFiller = true) :
    IsLayout (spot :: row) (spot :: lead) rows where
  text := by rw [hLayout.text, List.cons_append]
  lead := List.forall_mem_cons.mpr ⟨hFiller, hLayout.lead⟩
  gap := hLayout.gap
  stage := hLayout.stage
  inner := hLayout.inner

/- Another character in front is a stage of its own where the leading gap ends one. -/
theorem cons_stage
    (hLayout : IsLayout row lead rows)
    (hUncut : spot.isBoundary = false)
    (hEnd : rows ≠ [] → ∃ other ∈ lead, other.isBoundary = true) :
    IsLayout (spot :: row) [] (⟨[spot], lead⟩ :: rows) where
  text := by rw [hLayout.text, List.flatMap_cons]; rfl
  lead := List.forall_mem_nil _
  gap := List.forall_mem_cons.mpr ⟨hLayout.lead, hLayout.gap⟩
  stage := List.forall_mem_cons.mpr ⟨List.forall_mem_singleton.mpr hUncut, hLayout.stage⟩
  inner := forall_mem_dropLast_cons.mpr ⟨hEnd, hLayout.inner⟩

/- Where the leading gap holds blanks only, the first stage begins in front of it. -/
theorem cons_extend
    {part : Row}
    (hLayout : IsLayout row lead (part :: rows))
    (hUncut : spot.isBoundary = false)
    (hLead : ∀ other ∈ lead, other.isBoundary = false) :
    IsLayout (spot :: row) [] (⟨spot :: (lead ++ part.stage), part.gap⟩ :: rows) where
  text := by
    rw [hLayout.text, List.flatMap_cons, List.flatMap_cons]
    simp only [List.append_assoc, List.cons_append, List.nil_append]
  lead := List.forall_mem_nil _
  gap := List.forall_mem_cons.mpr (List.forall_mem_cons.mp hLayout.gap)
  stage := by
    have hStages := List.forall_mem_cons.mp hLayout.stage
    refine List.forall_mem_cons.mpr ⟨?_, hStages.2⟩
    exact List.forall_mem_cons.mpr ⟨hUncut, List.forall_mem_append.mpr ⟨hLead, hStages.1⟩⟩
  inner := forall_mem_dropLast_cons.mpr (forall_mem_dropLast_cons.mp hLayout.inner)

end IsLayout

/- A character that is no blank, on its own or in front of a stage, begins a trimmed one. -/
theorem Row.isTrimmed_singleton
    {spot : Spot}
    (hBlank : Text.isBlank spot.char = false)
    (gap : List Spot) :
    Row.IsTrimmed ⟨[spot], gap⟩ := by
  refine ⟨List.cons_ne_nil _ _, Text.trim_eq_self ?_ ?_⟩
  · rintro c ⟨rfl⟩
    exact hBlank
  · rintro c ⟨rfl⟩
    exact hBlank

theorem Row.IsTrimmed.extend
    {part : Row}
    {spot : Spot}
    (hTrimmed : part.IsTrimmed)
    (hBlank : Text.isBlank spot.char = false)
    (lead gap : List Spot) :
    Row.IsTrimmed ⟨spot :: (lead ++ part.stage), gap⟩ := by
  have hText : Row.text ⟨spot :: (lead ++ part.stage), gap⟩ =
      (spot.char :: Spot.spell lead) ++ part.text := by
    rw [Row.text, Spot.spell_cons, Spot.spell_append]
    rfl
  refine ⟨List.cons_ne_nil _ _, ?_⟩
  rw [hText]
  apply Text.trim_eq_self
  · rintro c ⟨rfl⟩
    exact hBlank
  · intro c hLast
    rw [List.getLast?_append_of_ne_nil _ hTrimmed.1, ← hTrimmed.2] at hLast
    exact Text.isBlank_getLast_trim hLast

/- Every row of characters is made of trimmed stages with gaps around them. -/
theorem exists_layout
    (row : List Spot) :
    ∃ lead rows, IsLayout row lead rows ∧ ∀ part ∈ rows, part.IsTrimmed := by
  induction row with
  | nil =>
      have hNone : IsLayout [] [] [] :=
        ⟨rfl, List.forall_mem_nil _, List.forall_mem_nil _, List.forall_mem_nil _,
          List.forall_mem_nil _⟩
      exact ⟨[], [], hNone, List.forall_mem_nil _⟩
  | cons spot row ih =>
      rcases ih with ⟨lead, rows, hLayout, hTrimmed⟩
      by_cases hFiller : spot.isFiller = true
      · exact ⟨spot :: lead, rows, hLayout.cons_filler hFiller, hTrimmed⟩
      rw [Bool.not_eq_true, Spot.isFiller, Bool.or_eq_false_iff] at hFiller
      rcases hFiller with ⟨hBlank, hUncut⟩
      by_cases hEnd : rows ≠ [] → ∃ other ∈ lead, other.isBoundary = true
      · exact ⟨[], _, hLayout.cons_stage hUncut hEnd,
          List.forall_mem_cons.mpr ⟨Row.isTrimmed_singleton hBlank lead, hTrimmed⟩⟩
      · -- The first stage is not cut off from the character, so it begins with it.
        rw [Classical.not_imp, not_exists] at hEnd
        rcases List.exists_cons_of_ne_nil hEnd.1 with ⟨part, others, rfl⟩
        have hLead : ∀ other ∈ lead, other.isBoundary = false := by
          intro other hMember
          exact Bool.eq_false_iff.mpr fun hBoundary => hEnd.2 other ⟨hMember, hBoundary⟩
        rw [List.forall_mem_cons] at hTrimmed
        exact ⟨[], _, hLayout.cons_extend hUncut hLead,
          List.forall_mem_cons.mpr ⟨hTrimmed.1.extend hBlank lead part.gap, hTrimmed.2⟩⟩

------------------------------------------------------------
-- Stages of a filter
------------------------------------------------------------

/- Stages are trimmed and not empty if their texts are. -/
theorem forall_isTrimmed_iff
    {stages : List String}
    {rows : List Row}
    (hStages : stages.map String.toList = rows.map Row.text) :
    (∀ part ∈ rows, part.IsTrimmed) ↔
      ∀ stage ∈ stages, stage ≠ "" ∧ Text.trim stage.toList = stage.toList := by
  have hTexts : (∀ part ∈ rows, part.IsTrimmed) ↔
      ∀ text ∈ rows.map Row.text, text ≠ [] ∧ Text.trim text = text := by
    rw [List.forall_mem_map]
    rfl
  rw [hTexts, ← hStages, List.forall_mem_map]
  simp only [ne_eq, String.toList_eq_nil_iff]

/-
  The stages of a filter, whatever it holds, are what stands
  between its boundaries, trimmed, as far as it has text. They
  are the only texts, trimmed and not empty, that make up the
  filter with gaps around them, where the gaps hold blanks and
  boundaries only, those between two stages at least one
  boundary, and the stages none.
-/
theorem splitStages_eq_iff_layout
    (filter : String) :
    splitStages filter = (cutStages (spots filter)).map String.ofList ∧
      Spot.spell (spots filter) = filter.toList ∧
      ∀ stages : List String,
        stages = splitStages filter ↔
          (∀ stage ∈ stages, stage ≠ "" ∧ Text.trim stage.toList = stage.toList) ∧
            ∃ lead rows,
              IsLayout (spots filter) lead rows ∧
                stages.map String.toList = rows.map Row.text := by
  have hCut : splitStages filter = (cutStages (spots filter)).map String.ofList := by
    rw [splitStages, stages_eq_cutStages]
  have hText : Spot.spell (spots filter) = filter.toList := by
    rw [spots_eq, Place.spell_spots]
  refine ⟨hCut, hText, fun stages => ⟨?_, ?_⟩⟩
  · rintro rfl
    rcases exists_layout (spots filter) with ⟨lead, rows, hLayout, hTrimmed⟩
    have hStages : (splitStages filter).map String.toList = rows.map Row.text := by
      rw [hCut, hLayout.cutStages_eq hTrimmed, List.map_map]
      simp [Function.comp_def]
    exact ⟨(forall_isTrimmed_iff hStages).mp hTrimmed, lead, rows, hLayout, hStages⟩
  · rintro ⟨hTrimmed, lead, rows, hLayout, hStages⟩
    rw [hCut, hLayout.cutStages_eq ((forall_isTrimmed_iff hStages).mpr hTrimmed), ← hStages,
      List.map_map]
    simp [Function.comp_def]

/-
  Pipes in an update operator, in a literal and in brackets are
  no boundaries, while the first bracket is closed before it is
  opened.
-/
example :
    (spots ")(|.a |= \"|\" | (.b|.c)").filterMap
        (fun spot => if spot.char = '|' then some spot.isBoundary else none) =
      [true, false, false, true, false] := by
  decide +kernel

------------------------------------------------------------
-- Pipes between filters
------------------------------------------------------------

/- What is found in a text does not depend on what is behind it, but for an equals sign. -/
theorem Place.spots_append
    {rest : List Char}
    (hRest : rest.head? ≠ some '=')
    (p : Place)
    (cs : List Char) :
    p.spots (cs ++ rest) = p.spots cs ++ (p.run cs).spots rest := by
  induction cs generalizing p with
  | nil => rfl
  | cons c cs ih =>
      rw [List.cons_append, spots, spots, isBoundary_append hRest, ih, run_cons,
        List.cons_append]

/-
  Filters joined by a pipe have the stages of both, one filter
  after the other, if in the first one no literal is left open
  and all brackets are matched in number, and the second one
  does not turn the pipe into an update operator. Otherwise they
  may hold anything.
-/
theorem splitStages_append_pipe
    (left right : String)
    (hMatched : matched left.toList = true)
    (hClosed : (Cursor.outside.run left.toList).inString = false)
    (hUpdate : right.toList.head? ≠ some '=') :
    splitStages (left ++ "|" ++ right) = splitStages left ++ splitStages right := by
  have hBack : Place.run {} left.toList = {} := by
    rw [Place.matched_eq, Depths.balanced_iff, Place.run_eq] at hMatched
    rw [Cursor.inString_eq_false_iff] at hClosed
    rw [Place.run_eq, Place.mk.injEq]
    exact ⟨hClosed, hMatched⟩
  have hText : (left ++ "|" ++ right).toList = left.toList ++ '|' :: right.toList := by
    simp
  have hPipe : ('|' :: right.toList).head? ≠ some '=' := by
    simp
  -- The search starts again behind the pipe, which is a boundary.
  have hSpots : spots (left ++ "|" ++ right) = spots left ++ ⟨'|', true⟩ :: spots right := by
    rw [spots_eq, spots_eq, spots_eq, hText, Place.spots_append hPipe, hBack, Place.spots,
      Place.isBoundary_iff.mpr ⟨rfl, hUpdate⟩]
    rfl
  rw [splitStages, splitStages, splitStages, stages_eq_cutStages, stages_eq_cutStages,
    stages_eq_cutStages, hSpots, cutStages_boundary rfl, List.map_append]

/-
  The first filter closes a bracket before it opens one and ends
  with an update operator, and the second one leaves a brace and
  a literal open.
-/
theorem splitStages_append_pipe_openEnds :
    matched ")(|.a || \"|\\\"|\" |=".toList = true ∧
      (Cursor.outside.run ")(|.a || \"|\\\"|\" |=".toList).inString = false ∧
      " .b | \x7b.c| \"| [".toList.head? ≠ some '=' ∧
      splitStages ")(|.a || \"|\\\"|\" |=" = [")(", ".a", "\"|\\\"|\" |="] ∧
      splitStages " .b | \x7b.c| \"| [" = [".b", "\x7b.c| \"| ["] ∧
      splitStages (")(|.a || \"|\\\"|\" |=" ++ "|" ++ " .b | \x7b.c| \"| [") =
        splitStages ")(|.a || \"|\\\"|\" |=" ++ splitStages " .b | \x7b.c| \"| [" :=
  ⟨by decide, by decide, by decide, by decide +kernel, by decide +kernel,
    splitStages_append_pipe _ _ (by decide) (by decide) (by decide)⟩

end JqLens
