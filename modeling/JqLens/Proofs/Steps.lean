import JqLens.Engine.Steps
import JqLens.Proofs.Cumulative

/-
  This file proves what an evaluation stage by stage may depend
  on. Only admission can fail as a whole. Behind it, an engine
  is asked once for every cumulative filter, in the order of the
  stages, and what is reported for a stage depends on nothing
  but the answer to its own cumulative filter.

  The calls of an evaluation are listed beside its result. That
  the list is the true one is shown by asking an engine in a
  monad, where an outcome can be had in no other way, and by
  letting the engine record what it is asked.

  Key definitions include:
    * `askStage`
    * `askSteps`
    * `Engine.recorded`
    * `echoing`
    * `slowExceptSecond`

  Main results:
    * `run_askSteps`
    * `stage_of_getElem?_evaluatePipeline`
    * `getElem?_evaluatePipeline_congr`
    * `runSteps_stages_independent`
-/

namespace JqLens

------------------------------------------------------------
-- Asking
------------------------------------------------------------

section Asking

variable {m : Type → Type} [Monad m]

/- Ask for the outcome of a cumulative filter. -/
def askStage
    (ask : Call → m (Except EvalError Evaluation))
    (input : String)
    (limits : Limits)
    (stage : Stage × Stage) : m StepResult := do
  let outcome ← ask (stepCall input limits stage.2)
  return stepResult stage.1 stage.2 outcome

/-
  Admit a filter and evaluate it stage by stage, where all
  outcomes have to be asked for.
-/
def askSteps
    (ask : Call → m (Except EvalError Evaluation))
    (filter : String)
    (input : String)
    (maxFilterLength : Nat)
    (limits : Limits) : m (Except EvalError StepsOutcome) := do
  match checkFilter filter maxFilterLength with
  | .error refusal => return .error (.refused refusal)
  | .ok () =>
      let pipeline := decompose filter
      let steps ← (pipeline.fragments.zip pipeline.progressive).mapM
        (askStage ask input limits)
      return .ok { steps, pipes := pipeline.stageTexts }

end Asking

/- An engine that records the calls it is asked for. -/
def Engine.recorded
    (engine : Engine)
    (call : Call) : StateM (List Call) (Except EvalError Evaluation) := do
  modify fun asked => asked ++ [call]
  return engine.evaluate call

/- Asking for several outcomes records one call for each, in order. -/
theorem run_mapM_askStage
    (engine : Engine)
    (input : String)
    (limits : Limits)
    (stages : List (Stage × Stage))
    (asked : List Call) :
    (stages.mapM (askStage engine.recorded input limits)).run asked =
      (stages.map fun stage =>
          stepResult stage.1 stage.2 (engine.evaluate (stepCall input limits stage.2)),
        asked ++ stages.map fun stage => stepCall input limits stage.2) := by
  induction stages generalizing asked with
  | nil =>
      rw [List.mapM_nil, List.map_nil, List.map_nil, List.append_nil]
      rfl
  | cons stage stages ih =>
      have hTail := ih (asked ++ [stepCall input limits stage.2])
      rw [List.append_assoc, List.singleton_append] at hTail
      rw [List.mapM_cons]
      exact congrArg
        (Prod.map
          (stepResult stage.1 stage.2
            (engine.evaluate (stepCall input limits stage.2)) :: ·) id)
        hTail

------------------------------------------------------------
-- Stages
------------------------------------------------------------

/- A stage is numbered by its position. -/
theorem Stage.eq_of_getElem?_number
    {texts : List String}
    {k : Nat}
    {stage : Stage}
    (hStage : (Stage.number texts)[k]? = some stage) :
    stage = ⟨k + 1, stage.text⟩ := by
  rw [Stage.getElem?_number, Option.map_eq_some_iff] at hStage
  rcases hStage with ⟨text, -, rfl⟩
  rfl

/- Where there is a stage, there is a cumulative filter. -/
theorem exists_of_lt_length
    {filter : String}
    {k : Nat}
    (hBound : k < (decompose filter).fragments.length) :
    ∃ fragment progressive,
      (decompose filter).fragments[k]? = some fragment ∧
        (decompose filter).progressive[k]? = some progressive := by
  have hProgressive : k < (decompose filter).progressive.length := by
    rwa [length_progressive]
  exact ⟨_, _, List.getElem?_eq_getElem hBound, List.getElem?_eq_getElem hProgressive⟩

/- What is reported for a stage is made of the answer to its own cumulative filter. -/
theorem getElem?_evaluatePipeline
    (engine : Engine)
    {pipeline : Pipeline}
    {fragment progressive : Stage}
    {k : Nat}
    (hFragment : pipeline.fragments[k]? = some fragment)
    (hProgressive : pipeline.progressive[k]? = some progressive)
    (input : String)
    (limits : Limits) :
    (evaluatePipeline engine pipeline input limits)[k]? =
      some (stepResult fragment progressive
        (engine.evaluate (stepCall input limits progressive))) := by
  rw [evaluatePipeline, List.getElem?_zipWith, hFragment, hProgressive]

theorem length_evaluatePipeline
    (engine : Engine)
    (filter : String)
    (input : String)
    (limits : Limits) :
    (evaluatePipeline engine (decompose filter) input limits).length =
      (decompose filter).fragments.length := by
  rw [evaluatePipeline, List.length_zipWith, length_progressive, Nat.min_self]

/- A step carries the position, the text and the cumulative filter of its stage. -/
theorem stage_of_getElem?_evaluatePipeline
    {engine : Engine}
    {filter input : String}
    {limits : Limits}
    {k : Nat}
    {step : StepResult}
    (hStep : (evaluatePipeline engine (decompose filter) input limits)[k]? = some step) :
    step.step = k + 1 ∧
      (decompose filter).fragments[k]? = some ⟨k + 1, step.fragment⟩ ∧
      (decompose filter).progressive[k]? = some ⟨k + 1, step.fullFilter⟩ := by
  have hBound := (List.getElem?_eq_some_iff.mp hStep).1
  rw [length_evaluatePipeline] at hBound
  rcases exists_of_lt_length hBound with ⟨fragment, progressive, hFragment, hProgressive⟩
  rw [getElem?_evaluatePipeline engine hFragment hProgressive, Option.some.injEq] at hStep
  have hOrdinal := Stage.eq_of_getElem?_number hFragment
  rw [← hStep, hFragment, hProgressive]
  refine ⟨congrArg Stage.ordinal hOrdinal, congrArg some hOrdinal, ?_⟩
  exact congrArg some (Stage.eq_of_getElem?_number hProgressive)

/- Engines that agree on a cumulative filter give the same step for its stage. -/
theorem getElem?_evaluatePipeline_congr
    {engine other : Engine}
    {filter input : String}
    {limits : Limits}
    {k : Nat}
    {progressive : Stage}
    (hProgressive : (decompose filter).progressive[k]? = some progressive)
    (hAgree : engine.evaluate (stepCall input limits progressive) =
      other.evaluate (stepCall input limits progressive)) :
    (∃ step, (evaluatePipeline engine (decompose filter) input limits)[k]? = some step) ∧
      (evaluatePipeline engine (decompose filter) input limits)[k]? =
        (evaluatePipeline other (decompose filter) input limits)[k]? := by
  have hBound := (List.getElem?_eq_some_iff.mp hProgressive).1
  rw [length_progressive] at hBound
  rcases exists_of_lt_length hBound with ⟨fragment, -, hFragment, -⟩
  rw [getElem?_evaluatePipeline engine hFragment hProgressive,
    getElem?_evaluatePipeline other hFragment hProgressive, hAgree]
  exact ⟨⟨_, rfl⟩, rfl⟩

------------------------------------------------------------
-- Evaluation by stages
------------------------------------------------------------

theorem runSteps_of_refused
    (engine : Engine)
    {filter : String}
    {max : Nat}
    {refusal : Refusal}
    (hRefused : checkFilter filter max = .error refusal)
    (input : String)
    (limits : Limits) :
    runSteps engine filter input max limits =
      { result := .error (.refused refusal), calls := [] } := by
  rw [runSteps, hRefused]

theorem runSteps_of_admitted
    (engine : Engine)
    {filter : String}
    {max : Nat}
    (hAdmitted : checkFilter filter max = .ok ())
    (input : String)
    (limits : Limits) :
    runSteps engine filter input max limits =
      { result := .ok
          { steps := evaluatePipeline engine (decompose filter) input limits
            pipes := (decompose filter).stageTexts }
        calls := (decompose filter).progressive.map (stepCall input limits) } := by
  rw [runSteps, hAdmitted]

/-
  The calls of an evaluation are the ones that an engine records
  while it is asked, and the result is the one it is asked for.
-/
theorem run_askSteps
    (engine : Engine)
    (filter : String)
    (input : String)
    (max : Nat)
    (limits : Limits) :
    (askSteps engine.recorded filter input max limits).run [] =
      ((runSteps engine filter input max limits).result,
        (runSteps engine filter input max limits).calls) := by
  cases hCheck : checkFilter filter max with
  | error refusal =>
      rw [runSteps_of_refused engine hCheck, askSteps, hCheck]
      rfl
  | ok admitted =>
      have hCalls : ((decompose filter).fragments.zip (decompose filter).progressive).map
            (fun stage => stepCall input limits stage.2) =
          (decompose filter).progressive.map (stepCall input limits) := by
        rw [← Function.comp_def, ← List.map_map, List.map_snd_zip]
        exact (length_progressive filter).le
      have hSteps := run_mapM_askStage engine input limits
        ((decompose filter).fragments.zip (decompose filter).progressive) []
      rw [hCalls, List.nil_append] at hSteps
      rw [runSteps_of_admitted engine hCheck, askSteps, hCheck]
      simp only [StateT.run_bind, hSteps]
      rw [evaluatePipeline, ← List.map_uncurry_zip_eq_zipWith]
      rfl

/-
  An evaluation stage by stage is refused as a whole, without a
  call, or gives one step and one text for each stage. The
  engine is asked once for each cumulative filter, in order and
  always with the same input and limits and without options.
  Whatever becomes of the other stages, a step is the same for
  engines that give the same answer to its cumulative filter.
-/
theorem runSteps_stages_independent :
    (∀ (engine : Engine) (filter input : String) (max : Nat) (limits : Limits),
      (askSteps engine.recorded filter input max limits).run [] =
          ((runSteps engine filter input max limits).result,
            (runSteps engine filter input max limits).calls) ∧
        (∀ refusal, checkFilter filter max = .error refusal →
          (runSteps engine filter input max limits).result =
              .error (.refused refusal) ∧
            (runSteps engine filter input max limits).calls = []) ∧
        (checkFilter filter max = .ok () →
          ∃ outcome,
            (runSteps engine filter input max limits).result = .ok outcome ∧
              (runSteps engine filter input max limits).calls =
                ((decompose filter).progressive.map fun progressive =>
                  { filter := progressive.text
                    input
                    options :=
                      { rawOutput := false
                        slurp := false
                        rawInput := false
                        nullInput := false }
                    limits }) ∧
              outcome.steps.length = (decompose filter).fragments.length ∧
              outcome.pipes.length = (decompose filter).fragments.length ∧
              (∀ k step, outcome.steps[k]? = some step →
                step.step = k + 1 ∧
                  (decompose filter).fragments[k]? = some ⟨k + 1, step.fragment⟩ ∧
                  (decompose filter).progressive[k]? = some ⟨k + 1, step.fullFilter⟩ ∧
                  outcome.pipes[k]? = some step.fragment))) ∧
    (∀ (engine other : Engine) (filter input : String) (max : Nat) (limits : Limits)
        (k : Nat) (progressive : Stage) (outcome different : StepsOutcome),
      (decompose filter).progressive[k]? = some progressive →
      engine.evaluate { filter := progressive.text, input, limits } =
        other.evaluate { filter := progressive.text, input, limits } →
      (runSteps engine filter input max limits).result = .ok outcome →
      (runSteps other filter input max limits).result = .ok different →
      (∃ step, outcome.steps[k]? = some step) ∧
        outcome.steps[k]? = different.steps[k]?) := by
  refine ⟨?_, ?_⟩
  · intro engine filter input max limits
    refine ⟨run_askSteps engine filter input max limits, ?_, ?_⟩
    · intro refusal hRefused
      rw [runSteps_of_refused engine hRefused]
      exact ⟨rfl, rfl⟩
    · intro hAdmitted
      rw [runSteps_of_admitted engine hAdmitted]
      have hLength := length_evaluatePipeline engine filter input limits
      refine ⟨_, rfl, rfl, hLength, List.length_map _, ?_⟩
      intro k step hStep
      rcases stage_of_getElem?_evaluatePipeline hStep with ⟨hOrdinal, hFragment, hProgressive⟩
      refine ⟨hOrdinal, hFragment, hProgressive, ?_⟩
      rw [Pipeline.stageTexts, List.getElem?_map, hFragment]
      rfl
  · intro engine other filter input max limits k progressive outcome different hProgressive
      hAgree hOutcome hDifferent
    cases hCheck : checkFilter filter max with
    | error refusal =>
        rw [runSteps_of_refused engine hCheck] at hOutcome
        cases hOutcome
    | ok admitted =>
        rw [runSteps_of_admitted engine hCheck, Except.ok.injEq] at hOutcome
        rw [runSteps_of_admitted other hCheck, Except.ok.injEq] at hDifferent
        rw [← hOutcome, ← hDifferent]
        exact getElem?_evaluatePipeline_congr hProgressive hAgree

/- An engine that answers every filter with its text. -/
def echoing : Engine :=
  { evaluate := fun call => .ok { output := call.filter } }

/- An engine that does so for one filter and is too slow for all others. -/
def slowExceptSecond : Engine :=
  { evaluate := fun call =>
      if call.filter = ".a | .b" then .ok { output := call.filter }
      else .error (.timeout call.limits.timeout) }

theorem runSteps_stages_independent_slow :
    (checkFilter ".a|env" 2000 = .error (.blocked "env") ∧
      (runSteps echoing ".a|env" "1" 2000 .perStep).calls = []) ∧
    (checkFilter ".a|.b||.c" 2000 = .ok () ∧
      ∃ outcome,
        (runSteps slowExceptSecond ".a|.b||.c" "1" 2000 .perStep).result = .ok outcome ∧
          outcome.steps[2]? =
            some ⟨3, ".c", ".a | .b | .c", none,
              some "Timeout: query took too long (5s limit)"⟩ ∧
          outcome.pipes[2]? = some ".c") ∧
    ∃ outcome different,
      (runSteps echoing ".a|.b||.c" "1" 2000 .perStep).result = .ok outcome ∧
        (runSteps slowExceptSecond ".a|.b||.c" "1" 2000 .perStep).result = .ok different ∧
        outcome ≠ different ∧
        outcome.steps[1]? = different.steps[1]? := by
  rcases runSteps_stages_independent with ⟨hStages, hIndependent⟩
  have hRefused : checkFilter ".a|env" 2000 = .error (.blocked "env") := by
    decide +kernel
  have hAdmitted : checkFilter ".a|.b||.c" 2000 = .ok () := by
    decide +kernel
  have hSecond : (decompose ".a|.b||.c").progressive[1]? = some ⟨2, ".a | .b"⟩ := by
    decide +kernel
  have hEchoing : (runSteps echoing ".a|.b||.c" "1" 2000 .perStep).result =
      .ok
        { steps :=
            [⟨1, ".a", ".a", some ".a", none⟩,
              ⟨2, ".b", ".a | .b", some ".a | .b", none⟩,
              ⟨3, ".c", ".a | .b | .c", some ".a | .b | .c", none⟩]
          pipes := [".a", ".b", ".c"] } := by
    decide +kernel
  have hSlow : (runSteps slowExceptSecond ".a|.b||.c" "1" 2000 .perStep).result =
      .ok
        { steps :=
            [⟨1, ".a", ".a", none, some "Timeout: query took too long (5s limit)"⟩,
              ⟨2, ".b", ".a | .b", some ".a | .b", none⟩,
              ⟨3, ".c", ".a | .b | .c", none,
                some "Timeout: query took too long (5s limit)"⟩]
          pipes := [".a", ".b", ".c"] } := by
    decide +kernel
  refine ⟨⟨hRefused, ?_⟩, ⟨hAdmitted, ?_⟩, ?_⟩
  · exact ((hStages echoing ".a|env" "1" 2000 .perStep).2.1 _ hRefused).2
  · rcases (hStages slowExceptSecond ".a|.b||.c" "1" 2000 .perStep).2.2 hAdmitted with
      ⟨outcome, hOutcome, -, -, -, hPaired⟩
    have hStep : outcome.steps[2]? =
        some ⟨3, ".c", ".a | .b | .c", none,
          some "Timeout: query took too long (5s limit)"⟩ := by
      rw [hSlow, Except.ok.injEq] at hOutcome
      rw [← hOutcome]
      rfl
    exact ⟨outcome, hOutcome, hStep, (hPaired 2 _ hStep).2.2.2⟩
  · have hSame := hIndependent echoing slowExceptSecond ".a|.b||.c" "1" 2000 .perStep 1 _ _ _
      hSecond rfl hEchoing hSlow
    exact ⟨_, _, hEchoing, hSlow, by decide, hSame.2⟩

end JqLens
