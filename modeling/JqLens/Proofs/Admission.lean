import JqLens.Service.Answer
import JqLens.Proofs.DenyList
import JqLens.Proofs.Stage

/-
  This file proves that looking for refused constructs in a
  filter as a whole is enough. What is evaluated stage by stage
  are other texts than the one that was looked at: stages are
  trimmed, joined again with another separator, and dropped if
  they are empty. None of this makes a construct or hides one,
  so that no engine is ever asked to evaluate one.

  Key definitions include:
    * `Engine.AgreesOnAdmitted`

  Main results:
    * `isSome_blockedConstruct_iff_stage`
    * `isSome_blockedConstruct_cumulative`
    * `denyList_covers_evaluation`
-/

namespace JqLens

open DenyList (Hits)

------------------------------------------------------------
-- Stages
------------------------------------------------------------

theorem isSome_blockedConstruct_iff
    (filter : String) :
    (blockedConstruct filter).isSome = true ↔ Hits none filter.toList := by
  rw [blockedConstruct, Option.isSome_map]
  exact DenyList.search_isSome_iff none filter.toList

/- A text is hit where one of the pieces is that pipes separate. -/
theorem hits_iff_cut
    (filter : List Char) :
    Hits none filter ↔ ∃ piece ∈ Place.cut {} filter, Hits none piece := by
  have hSeparators : ['|'].all DenyList.isSeparator = true := by
    decide
  have hJoin := DenyList.hits_joinWith (List.cons_ne_nil '|' []) hSeparators
    (Place.cut {} filter)
  rwa [Place.joinWith_cut] at hJoin

/- A text is hit where one of its stages is. -/
theorem hits_iff_stage
    (filter : List Char) :
    Hits none filter ↔ ∃ stage ∈ stages filter, Hits none stage := by
  rw [hits_iff_cut, stages_eq]
  constructor
  · rintro ⟨piece, hPiece, hHits⟩
    have hTrimmed := (DenyList.hits_trim piece).mpr hHits
    refine ⟨Text.trim piece, ?_, hTrimmed⟩
    refine List.mem_filter.mpr ⟨List.mem_map_of_mem hPiece, ?_⟩
    -- A stage that is hit is not empty.
    cases hText : Text.trim piece with
    | nil =>
        rw [hText] at hTrimmed
        exact absurd hTrimmed id
    | cons c cs => rfl
  · rintro ⟨stage, hStage, hHits⟩
    rcases List.mem_map.mp (List.mem_filter.mp hStage).1 with ⟨piece, hPiece, rfl⟩
    exact ⟨piece, hPiece, (DenyList.hits_trim piece).mp hHits⟩

/- A filter holds a refused construct if one of its stages does. -/
theorem isSome_blockedConstruct_iff_stage
    (filter : String) :
    (blockedConstruct filter).isSome = true ↔
      ∃ stage ∈ splitStages filter, (blockedConstruct stage).isSome = true := by
  rw [isSome_blockedConstruct_iff, hits_iff_stage, splitStages]
  simp only [List.mem_map, exists_exists_and_eq_and, isSome_blockedConstruct_iff,
    String.toList_ofList]

/- A cumulative filter holds a refused construct if one of its stages does. -/
theorem isSome_blockedConstruct_cumulative
    {text : String}
    {stages : List String}
    {k : Nat}
    (hText : (cumulative stages)[k]? = some text) :
    (blockedConstruct text).isSome = true ↔
      ∃ stage ∈ stages.take (k + 1), (blockedConstruct stage).isSome = true := by
  have hSeparators : stageSeparator.toList.all DenyList.isSeparator = true := by
    decide
  rw [isSome_blockedConstruct_iff, toList_cumulative hText,
    DenyList.hits_joinWith (by decide) hSeparators]
  simp only [List.mem_map, exists_exists_and_eq_and, isSome_blockedConstruct_iff]

/- The pipeline of a filter without refused constructs has none either. -/
theorem blockedConstruct_progressive
    {filter : String}
    (hFilter : blockedConstruct filter = none)
    {progressive : Stage}
    (hMember : progressive ∈ (decompose filter).progressive) :
    blockedConstruct progressive.text = none := by
  rcases List.mem_iff_getElem?.mp hMember with ⟨k, hProgressive⟩
  rw [← Option.not_isSome_iff_eq_none,
    isSome_blockedConstruct_cumulative (getElem?_progressive hProgressive)]
  rintro ⟨stage, hStage, hBlocked⟩
  have hSome := (isSome_blockedConstruct_iff_stage filter).mpr
    ⟨stage, List.mem_of_mem_take hStage, hBlocked⟩
  rw [hFilter] at hSome
  exact absurd hSome (by simp)

------------------------------------------------------------
-- Evaluation
------------------------------------------------------------

/- Two engines answer alike whatever holds no refused construct. -/
def Engine.AgreesOnAdmitted (engine other : Engine) : Prop :=
  ∀ call, blockedConstruct call.filter = none →
    engine.evaluate call = other.evaluate call

/- An admitted filter holds no refused construct. -/
theorem blockedConstruct_of_checkFilter
    {filter : String}
    {max : Nat}
    (hAdmitted : checkFilter filter max = .ok ()) :
    blockedConstruct filter = none := by
  unfold checkFilter at hAdmitted
  split at hAdmitted
  · simp at hAdmitted
  split at hAdmitted
  · simp at hAdmitted
  split at hAdmitted
  · simp at hAdmitted
  · next hNone => exact hNone

/- An admitted filter has no more characters than the maximum. -/
theorem length_of_checkFilter
    {filter : String}
    {max : Nat}
    (hAdmitted : checkFilter filter max = .ok ()) :
    filter.length ≤ max := by
  by_contra hLong
  unfold checkFilter at hAdmitted
  split at hAdmitted
  · cases hAdmitted
  · rw [if_pos (Nat.lt_of_not_le hLong)] at hAdmitted
    cases hAdmitted

theorem blockedConstruct_of_mem_runSingle
    {engine : Engine}
    {call asked : Call}
    {max : Nat}
    (hAsked : asked ∈ (runSingle engine call max).calls) :
    blockedConstruct asked.filter = none := by
  unfold runSingle at hAsked
  split at hAsked
  · simp at hAsked
  · next hAdmitted =>
      rw [List.mem_singleton.mp hAsked]
      exact blockedConstruct_of_checkFilter hAdmitted

theorem blockedConstruct_of_mem_runSteps
    {engine : Engine}
    {filter input : String}
    {max : Nat}
    {limits : Limits}
    {asked : Call}
    (hAsked : asked ∈ (runSteps engine filter input max limits).calls) :
    blockedConstruct asked.filter = none := by
  unfold runSteps at hAsked
  split at hAsked
  · simp at hAsked
  · next hAdmitted =>
      rcases List.mem_map.mp hAsked with ⟨progressive, hMember, rfl⟩
      exact blockedConstruct_progressive (blockedConstruct_of_checkFilter hAdmitted) hMember

/- Of an engine only matters what it makes of admitted filters. -/
theorem runSingle_congr
    {engine other : Engine}
    (hAgrees : engine.AgreesOnAdmitted other)
    (call : Call)
    (max : Nat) :
    runSingle engine call max = runSingle other call max := by
  unfold runSingle
  split
  · rfl
  · next hAdmitted =>
      rw [hAgrees call (blockedConstruct_of_checkFilter hAdmitted)]

theorem evaluatePipeline_congr
    {engine other : Engine}
    (hAgrees : engine.AgreesOnAdmitted other)
    {pipeline : Pipeline}
    (hPipeline : ∀ progressive ∈ pipeline.progressive,
      blockedConstruct progressive.text = none)
    (input : String)
    (limits : Limits) :
    evaluatePipeline engine pipeline input limits =
      evaluatePipeline other pipeline input limits := by
  unfold evaluatePipeline
  rw [← List.map_uncurry_zip_eq_zipWith, ← List.map_uncurry_zip_eq_zipWith]
  apply List.map_congr_left
  rintro ⟨fragment, progressive⟩ hMember
  have hAdmitted := hPipeline progressive (List.of_mem_zip hMember).2
  exact congrArg (stepResult fragment progressive) (hAgrees _ hAdmitted)

theorem runSteps_congr
    {engine other : Engine}
    (hAgrees : engine.AgreesOnAdmitted other)
    (filter input : String)
    (max : Nat)
    (limits : Limits) :
    runSteps engine filter input max limits = runSteps other filter input max limits := by
  unfold runSteps
  split
  · rfl
  · next hAdmitted =>
      have hFilter := blockedConstruct_of_checkFilter hAdmitted
      have hSteps := evaluatePipeline_congr hAgrees
        (fun _ hMember => blockedConstruct_progressive hFilter hMember) input limits
      simp only [hSteps]

/-
  The deny list, applied to a filter as a whole, covers all that
  is evaluated for it: a filter is refused if one of its stages
  would be, a cumulative filter if one of the stages up to its
  own would be, and no request makes an engine evaluate what
  would be refused, or lets the response depend on it.
-/
theorem denyList_covers_evaluation :
    (∀ filter : String,
      (blockedConstruct filter).isSome = true ↔
        ∃ stage ∈ splitStages filter, (blockedConstruct stage).isSome = true) ∧
    (∀ (filter : String) (k : Nat) (progressive : Stage),
      (decompose filter).progressive[k]? = some progressive →
        ((blockedConstruct progressive.text).isSome = true ↔
          ∃ stage ∈ (splitStages filter).take (k + 1),
            (blockedConstruct stage).isSome = true)) ∧
    (∀ (engine : Engine) (limits : RequestLimits) (request : EvalRequest),
      ∀ call ∈ (request.answer engine limits).calls,
        blockedConstruct call.filter = none) ∧
    (∀ (engine : Engine) (limits : RequestLimits) (request : StepsRequest),
      ∀ call ∈ (request.answer engine limits).calls,
        blockedConstruct call.filter = none) ∧
    (∀ (engine other : Engine) (limits : RequestLimits),
      engine.AgreesOnAdmitted other →
        (∀ request : EvalRequest,
          (request.answer engine limits).result = (request.answer other limits).result) ∧
        (∀ request : StepsRequest,
          (request.answer engine limits).result =
            (request.answer other limits).result)) := by
  refine ⟨isSome_blockedConstruct_iff_stage, ?_, ?_, ?_, ?_⟩
  · intro filter k progressive hProgressive
    exact isSome_blockedConstruct_cumulative (getElem?_progressive hProgressive)
  · intro engine limits request call hCall
    exact blockedConstruct_of_mem_runSingle hCall
  · intro engine limits request call hCall
    exact blockedConstruct_of_mem_runSteps hCall
  · intro engine other limits hAgrees
    refine ⟨?_, ?_⟩
    · intro request
      simp only [EvalRequest.answer, runSingle_congr hAgrees]
    · intro request
      simp only [StepsRequest.answer, runSteps_congr hAgrees]

/-
  A cumulative filter of three stages, the last of which is
  refused for a word behind a line feed, and a request for two
  stages.
-/
theorem denyList_covers_evaluation_of_stages :
    (decompose ".a| path(1)|\nenv |.b").progressive[2]? =
        some ⟨3, ".a | path(1) | env"⟩ ∧
      ((blockedConstruct ".a | path(1) | env").isSome = true ↔
        ∃ stage ∈ (splitStages ".a| path(1)|\nenv |.b").take 3,
          (blockedConstruct stage).isSome = true) ∧
      (∀ call ∈ (StepsRequest.answer
          { evaluate := fun call => .ok { output := call.input } } {}
          { filter := some ".a|.envs " }).calls,
        blockedConstruct call.filter = none) ∧
      ({ filter := ".a | .envs", input := "\x7b\x7d", limits := .perStep } : Call) ∈
        (StepsRequest.answer
          { evaluate := fun call => .ok { output := call.input } } {}
          { filter := some ".a|.envs " }).calls := by
  have hProgressive : (decompose ".a| path(1)|\nenv |.b").progressive[2]? =
      some ⟨3, ".a | path(1) | env"⟩ := by
    decide +kernel
  rcases denyList_covers_evaluation with ⟨-, hCumulative, -, hSteps, -⟩
  exact ⟨hProgressive, hCumulative _ 2 _ hProgressive, hSteps _ _ _, by decide +kernel⟩

end JqLens
