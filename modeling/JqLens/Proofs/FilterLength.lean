import Mathlib.Algebra.Group.Action.Defs
import Mathlib.Algebra.Order.BigOperators.Group.List
import Mathlib.Algebra.Order.Ring.Nat
import JqLens.Proofs.Admission
import JqLens.Proofs.Steps

/-
  This file bounds the length of what is evaluated stage by
  stage. The cap is a matter of the filter that is submitted:
  a cumulative filter is built anew, with a blank on both sides
  of each pipe, and may be longer than the filter itself.

  It grows by two characters at most for each of its pipes, so
  that it stays shorter than two filters of full length. There
  are filters that come up to this bound, whatever the cap.

  Key definitions include:
    * `crowded`

  Main results:
    * `sum_stages_le`
    * `length_of_cumulative_le`
    * `runSteps_length`
-/

namespace JqLens

------------------------------------------------------------
-- Lengths of joined pieces
------------------------------------------------------------

/- With a separator more, there are as many separators as pieces. -/
theorem length_joinWith_add
    (separator : List Char)
    {pieces : List (List Char)}
    (hSome : pieces ≠ []) :
    (Text.joinWith separator pieces).length + separator.length =
      (pieces.map fun piece => piece.length + separator.length).sum := by
  induction pieces with
  | nil => exact absurd rfl hSome
  | cons first pieces ih =>
      cases pieces with
      | nil => simp [Text.joinWith]
      | cons second pieces =>
          have hTail := ih (List.cons_ne_nil second pieces)
          rw [Text.joinWith_cons_cons, List.map_cons, List.sum_cons, ← hTail,
            List.length_append, List.length_append]
          omega

/- Trimming pieces and dropping empty ones makes them shorter and fewer. -/
theorem sum_trimmed_le
    (pieces : List (List Char)) :
    (((pieces.map Text.trim).filter fun stage => !stage.isEmpty).map
        fun stage => stage.length + 1).sum ≤
      (pieces.map fun piece => piece.length + 1).sum := by
  induction pieces with
  | nil => exact le_rfl
  | cons piece pieces ih =>
      have hTrim := Text.length_trim_le piece
      rw [List.map_cons, List.filter_cons, List.map_cons, List.sum_cons]
      split
      · rw [List.map_cons, List.sum_cons]
        omega
      · omega

/- The stages of a filter, with a pipe behind each, have room in it and one more pipe. -/
theorem sum_stages_le
    (filter : List Char) :
    ((stages filter).map fun stage => stage.length + 1).sum ≤ filter.length + 1 := by
  have hPieces := length_joinWith_add ['|'] (Place.cut_ne_nil {} filter)
  rw [Place.joinWith_cut] at hPieces
  calc ((stages filter).map fun stage => stage.length + 1).sum
      ≤ ((Place.cut {} filter).map fun piece => piece.length + 1).sum := by
        rw [stages_eq]
        exact sum_trimmed_le _
    _ = filter.length + 1 := hPieces.symm

/- Stages are not empty, so that there is one for two characters at most. -/
theorem length_stages_le
    (filter : List Char) :
    2 * (stages filter).length ≤ filter.length + 1 := by
  have hEach : ∀ size ∈ (stages filter).map (fun stage => stage.length + 1), 2 ≤ size := by
    intro size hSize
    rcases List.mem_map.mp hSize with ⟨stage, hStage, rfl⟩
    have hLength := List.length_pos_iff.mpr (trim_of_mem_stages hStage).1
    omega
  have hSum := List.card_nsmul_le_sum _ 2 hEach
  rw [List.length_map, smul_eq_mul] at hSum
  have hStages := sum_stages_le filter
  omega

------------------------------------------------------------
-- Lengths of cumulative filters
------------------------------------------------------------

/- A cumulative filter has a separator for each of its stages but one. -/
theorem length_of_cumulative
    {filter text : String}
    {k : Nat}
    (hText : (cumulative (splitStages filter))[k]? = some text) :
    text.length + 3 =
      (((stages filter.toList).take (k + 1)).map fun stage => stage.length + 3).sum := by
  have hFront := map_toList_take_splitStages filter (k + 1)
  have hSome : (stages filter.toList).take (k + 1) ≠ [] := by
    have hBound := (List.getElem?_eq_some_iff.mp hText).1
    rw [← hFront, ne_eq, List.map_eq_nil_iff, List.take_eq_nil_iff]
    rintro (hZero | hNone)
    · omega
    · rw [hNone] at hBound
      exact absurd hBound (Nat.not_lt_zero k)
  have hJoin := length_joinWith_add stageSeparator.toList hSome
  rwa [← hFront, ← toList_cumulative hText, hFront, String.length_toList] at hJoin

/-
  Each pipe of a cumulative filter may be two characters longer
  than it was, and there are less than half as many pipes as
  characters.
-/
theorem length_of_cumulative_le
    {filter text : String}
    {k : Nat}
    (hText : (cumulative (splitStages filter))[k]? = some text) :
    text.length ≤ filter.length + 2 * k ∧ text.length < 2 * filter.length := by
  have hBound : k + 1 ≤ (stages filter.toList).length := by
    have hLess := (List.getElem?_eq_some_iff.mp hText).1
    rwa [length_cumulative, splitStages, List.length_map] at hLess
  have hLength := length_of_cumulative hText
  -- In the filter each stage has one more character to itself, here it has three.
  have hWide : (((stages filter.toList).take (k + 1)).map fun stage => stage.length + 3).sum =
      (((stages filter.toList).take (k + 1)).map fun stage => stage.length + 1).sum +
        (k + 1) * 2 := by
    have hEach : (fun stage : List Char => stage.length + 3) =
        fun stage => (stage.length + 1) + 2 := rfl
    rw [hEach, List.sum_map_add, List.map_const', List.sum_replicate, List.length_take,
      Nat.min_eq_left hBound, smul_eq_mul]
  have hNarrow : (((stages filter.toList).take (k + 1)).map fun stage => stage.length + 1).sum ≤
      ((stages filter.toList).map fun stage => stage.length + 1).sum :=
    ((List.take_sublist (k + 1) _).map _).sum_le_sum fun _ _ => Nat.zero_le _
  have hAll := sum_stages_le filter.toList
  have hFew := length_stages_le filter.toList
  rw [String.length_toList] at hAll hFew
  omega

------------------------------------------------------------
-- Crowded filters
------------------------------------------------------------

/- The characters of one identity more than there are pipes, without blanks. -/
def crowdedChars : Nat → List Char
  | 0 => ['.']
  | n + 1 => '.' :: '|' :: crowdedChars n

/- The filter of as many stages as its characters have room for. -/
def crowded
    (n : Nat) : String :=
  String.ofList (crowdedChars n)

theorem length_crowdedChars
    (n : Nat) :
    (crowdedChars n).length = 2 * n + 1 := by
  induction n with
  | zero => rfl
  | succ n ih =>
      rw [crowdedChars, List.length_cons, List.length_cons, ih]
      omega

theorem cut_crowdedChars
    (n : Nat) :
    Place.cut {} (crowdedChars n) = List.replicate (n + 1) ['.'] := by
  induction n with
  | zero => decide
  | succ n ih =>
      have hHead : (crowdedChars n).head? ≠ some '=' := by
        cases n <;> simp [crowdedChars]
      have hBoundary : Place.isBoundary {} (crowdedChars n) = true :=
        Place.isBoundary_iff.mpr ⟨rfl, hHead⟩
      have hDot : Place.next {} '.' = {} := by
        decide
      have hPipe : Place.next {} '|' = {} := by
        decide
      rw [crowdedChars, Place.cut_cons_of_uncut (fun h => absurd h (by decide)), hDot,
        Place.cut_boundary hBoundary, hPipe, ih, List.modifyHead_cons, ← List.replicate_succ]

theorem stages_crowdedChars
    (n : Nat) :
    stages (crowdedChars n) = List.replicate (n + 1) ['.'] := by
  have hTrim : Text.trim ['.'] = ['.'] := by
    decide
  rw [stages_eq, cut_crowdedChars, List.map_replicate, hTrim, List.filter_replicate]
  rfl

/- No construct of the deny list is made of dots and pipes. -/
theorem checkFilter_crowded
    (n : Nat) :
    checkFilter (crowded n) (2 * n + 1) = .ok () := by
  -- A text of nothing but separators is hit where the empty text is: nowhere.
  have hSeparators : ∀ m, ∀ c ∈ crowdedChars m, DenyList.isSeparator c = true := by
    intro m
    induction m with
    | zero =>
        intro c hMember
        rw [List.mem_singleton.mp hMember]
        decide
    | succ m ih =>
        intro c hMember
        rcases List.mem_cons.mp hMember with rfl | hTail
        · decide
        · rcases List.mem_cons.mp hTail with rfl | hRest
          · decide
          · exact ih c hRest
  have hNone : blockedConstruct (crowded n) = none := by
    rw [← Option.not_isSome_iff_eq_none, isSome_blockedConstruct_iff, crowded,
      String.toList_ofList, ← List.append_nil (crowdedChars n),
      DenyList.hits_separators_append (hSeparators n)]
    exact id
  have hLength : (crowded n).length = 2 * n + 1 := by
    rw [crowded, String.length_ofList, length_crowdedChars]
  have hSome : (crowded n).isEmpty = false := by
    rw [Bool.eq_false_iff, ne_eq, String.isEmpty_iff]
    intro hEmpty
    rw [hEmpty, String.length_empty] at hLength
    omega
  rw [checkFilter, hSome, hLength, hNone]
  simp

/- The last cumulative filter has two characters more for each pipe. -/
theorem length_cumulative_crowded
    {n : Nat}
    {text : String}
    (hText : (cumulative (splitStages (crowded n)))[n]? = some text) :
    text.length = 4 * n + 1 := by
  have hLength := length_of_cumulative hText
  rw [crowded, String.toList_ofList, stages_crowdedChars, List.take_replicate, Nat.min_self,
    List.map_replicate, List.sum_replicate, smul_eq_mul, List.length_singleton] at hLength
  omega

------------------------------------------------------------
-- Evaluation by stages
------------------------------------------------------------

/- The text of the call for a stage is its cumulative filter. -/
theorem getElem?_calls_runSteps
    {engine : Engine}
    {filter input : String}
    {max : Nat}
    {limits : Limits}
    {k : Nat}
    {call : Call}
    (hCall : (runSteps engine filter input max limits).calls[k]? = some call) :
    checkFilter filter max = .ok () ∧
      (cumulative (splitStages filter))[k]? = some call.filter := by
  cases hCheck : checkFilter filter max with
  | error refusal =>
      rw [runSteps_of_refused engine hCheck] at hCall
      cases hCall
  | ok admitted =>
      rw [runSteps_of_admitted engine hCheck, List.getElem?_map, Option.map_eq_some_iff] at hCall
      rcases hCall with ⟨progressive, hProgressive, rfl⟩
      exact ⟨rfl, getElem?_progressive hProgressive⟩

/-
  What is evaluated for a stage is at most two characters longer
  for each stage in front of it than the filter, which is within
  the cap, and shorter than two such filters. For every cap of
  an odd number there is a filter that comes up to this.
-/
theorem runSteps_length :
    (∀ (engine : Engine) (filter input : String) (max : Nat) (limits : Limits) (k : Nat)
        (call : Call),
      (runSteps engine filter input max limits).calls[k]? = some call →
        filter.length ≤ max ∧
          call.filter.length ≤ filter.length + 2 * k ∧
          call.filter.length < 2 * filter.length) ∧
    (∀ (engine : Engine) (input : String) (limits : Limits) (n : Nat),
      ∃ call,
        (runSteps engine (crowded n) input (2 * n + 1) limits).calls[n]? = some call ∧
          call.filter.length = (2 * n + 1) + 2 * n ∧
          call.filter.length + 1 = 2 * (2 * n + 1)) := by
  refine ⟨?_, ?_⟩
  · intro engine filter input max limits k call hCall
    rcases getElem?_calls_runSteps hCall with ⟨hAdmitted, hText⟩
    exact ⟨length_of_checkFilter hAdmitted, length_of_cumulative_le hText⟩
  · intro engine input limits n
    have hCall : ∃ call, (runSteps engine (crowded n) input (2 * n + 1) limits).calls[n]? =
        some call := by
      rw [runSteps_of_admitted engine (checkFilter_crowded n)]
      refine ⟨_, List.getElem?_eq_getElem ?_⟩
      rw [List.length_map, length_progressive, decompose, Stage.length_number, splitStages,
        List.length_map, crowded, String.toList_ofList, stages_crowdedChars,
        List.length_replicate]
      exact Nat.lt_succ_self n
    rcases hCall with ⟨call, hCall⟩
    have hLength := length_cumulative_crowded (getElem?_calls_runSteps hCall).2
    exact ⟨call, hCall, by omega, by omega⟩

/- Two stages without blanks, under a cap that they just meet. -/
theorem runSteps_length_twoStages :
    (runSteps echoing ".|." "1" 3 .perStep).calls[1]? =
        some { filter := ". | .", input := "1", limits := .perStep } ∧
      ".|.".length ≤ 3 ∧
      ". | .".length ≤ ".|.".length + 2 * 1 ∧
      ". | .".length < 2 * ".|.".length := by
  have hCall : (runSteps echoing ".|." "1" 3 .perStep).calls[1]? =
      some { filter := ". | .", input := "1", limits := .perStep } := by
    decide +kernel
  exact ⟨hCall, runSteps_length.1 echoing ".|." "1" 3 .perStep 1 _ hCall⟩

/- The cap does not bound what is evaluated. -/
theorem runSteps_exceeds_cap :
    ¬ ∀ (engine : Engine) (filter input : String) (max : Nat) (limits : Limits),
      ∀ call ∈ (runSteps engine filter input max limits).calls, call.filter.length ≤ max := by
  intro hCap
  have hCall : { filter := ". | .", input := "1", limits := .perStep } ∈
      (runSteps echoing ".|." "1" 3 .perStep).calls := by
    decide +kernel
  have hLong := hCap echoing ".|." "1" 3 .perStep _ hCall
  exact absurd hLong (by decide +kernel)

end JqLens
