import JqLens.Engine.Child
import JqLens.Proofs.Blank
import JqLens.Proofs.Utf8

/-
  This file proves what a run of a program is worth. Whatever
  the program writes and however it ends, exactly one of four
  things comes of it, in this order: a stream beyond the bound
  is too much output, even of a run that fails or has no end; a
  run without end is a timeout; a run that ends well is a
  success with all of its output; and any other run is an error
  of the program, with a message that is never blank.

  A stream is read up to one byte beyond the bound, so the proof
  first tells what comes of reading a stream that fits and of
  one that does not.

  Key definitions include:
    * `Finished.Fits`
    * `Call.document`

  Main results:
    * `Finished.evaluation_of_not_fits`
    * `Finished.evaluation_of_hang`
    * `Finished.evaluation_of_ends`
    * `Finished.evaluation_cases`
    * `evaluateWith_outcome`
-/

namespace JqLens

------------------------------------------------------------
-- Reading a stream
------------------------------------------------------------

/- A stream within the bound that ends is read as a whole. -/
theorem collect_of_fits
    {limit : Nat}
    {stream : List UInt8}
    (hFits : stream.length ≤ limit)
    (hCounted : stream.length < UInt64.size) :
    collect limit true stream = .complete stream := by
  have hMost : stream.length ≤ maxCounted := Nat.le_sub_one_of_lt hCounted
  have hTake : stream.take (min (limit + 1) maxCounted) = stream :=
    List.take_of_length_le (by omega)
  simp only [collect, hTake]
  rw [if_neg (by omega), Bool.true_or, if_pos rfl]

/- A stream within the bound is not too long, whether it ends or not. -/
theorem collect_ne_tooMany
    {limit : Nat}
    {stream : List UInt8}
    (hFits : stream.length ≤ limit)
    (closes : Bool) :
    collect limit closes stream ≠ .tooMany := by
  have hRead := (List.take_sublist (min (limit + 1) maxCounted) stream).length_le
  simp only [collect]
  rw [if_neg (by omega)]
  split
  · exact Collected.noConfusion
  · exact Collected.noConfusion

/-
  A stream beyond the bound is found to be too long. The count
  does not saturate before the byte that tells.
-/
theorem collect_of_exceeds
    {limit : Nat}
    {stream : List UInt8}
    (hExceeds : limit < stream.length)
    (hCounted : stream.length < UInt64.size)
    (closes : Bool) :
    collect limit closes stream = .tooMany := by
  have hMost : stream.length ≤ maxCounted := Nat.le_sub_one_of_lt hCounted
  have hRead : limit < (stream.take (min (limit + 1) maxCounted)).length := by
    rw [List.length_take]
    omega
  simp only [collect]
  rw [if_pos hRead]

------------------------------------------------------------
-- Finished runs
------------------------------------------------------------

namespace Finished

/- Both streams are within the bound. -/
def Fits (finished : Finished) (limits : Limits) : Prop :=
  finished.stdout.length ≤ limits.maxOutputBytes ∧
    finished.stderr.length ≤ limits.maxOutputBytes

instance
    (finished : Finished)
    (limits : Limits) :
    Decidable (finished.Fits limits) := by
  unfold Fits
  infer_instance

/- Both streams are short enough for their bytes to be counted. -/
def Counted (finished : Finished) : Prop :=
  finished.stdout.length < UInt64.size ∧ finished.stderr.length < UInt64.size

/- A stream beyond the bound is too much, however the run ends. -/
theorem evaluation_of_not_fits
    {finished : Finished}
    {limits : Limits}
    (hCounted : finished.Counted)
    (hFits : ¬finished.Fits limits) :
    finished.evaluation limits = .error (.outputTooLarge limits.maxOutputBytes) := by
  rcases Classical.not_and_iff_not_or_not.mp hFits with hStdout | hStderr
  · have hTooMany :=
      collect_of_exceeds (Nat.lt_of_not_le hStdout) hCounted.1 (finished.ending != .hang)
    simp only [evaluation, hTooMany]
  · have hTooMany :=
      collect_of_exceeds (Nat.lt_of_not_le hStderr) hCounted.2 (finished.ending != .hang)
    simp only [evaluation, hTooMany]
    cases collect limits.maxOutputBytes (finished.ending != .hang) finished.stdout with
    | complete stdout => rfl
    | tooMany => rfl
    | waiting => rfl

/- A run without end is a timeout if both streams are within the bound. -/
theorem evaluation_of_hang
    {finished : Finished}
    {limits : Limits}
    (hFits : finished.Fits limits)
    (hHang : finished.ending = .hang) :
    finished.evaluation limits = .error (.timeout limits.timeout) := by
  have hStdout := collect_ne_tooMany hFits.1 (finished.ending != .hang)
  have hStderr := collect_ne_tooMany hFits.2 (finished.ending != .hang)
  rw [hHang] at hStdout hStderr
  simp only [evaluation, hHang]
  generalize collect _ _ finished.stdout = stdout at hStdout ⊢
  generalize collect _ _ finished.stderr = stderr at hStderr ⊢
  cases stdout with
  | tooMany => exact absurd rfl hStdout
  | complete stdout =>
      cases stderr with
      | tooMany => exact absurd rfl hStderr
      | complete stderr => rfl
      | waiting => rfl
  | waiting =>
      cases stderr with
      | tooMany => exact absurd rfl hStderr
      | complete stderr => rfl
      | waiting => rfl

/- A run that ends within the bound is judged by its end, with all it has written. -/
theorem evaluation_of_ends
    {finished : Finished}
    {limits : Limits}
    (hCounted : finished.Counted)
    (hFits : finished.Fits limits)
    (hEnds : finished.ending ≠ .hang) :
    finished.evaluation limits =
      finished.ending.evaluation finished.stdout finished.stderr := by
  have hCloses : (finished.ending != .hang) = true := bne_iff_ne.mpr hEnds
  simp only [evaluation, hCloses, collect_of_fits hFits.1 hCounted.1,
    collect_of_fits hFits.2 hCounted.2, if_true]

end Finished

------------------------------------------------------------
-- Runs that have ended
------------------------------------------------------------

/- A success has all of the output, and the messages unless they are blank. -/
theorem Ending.evaluation_of_success
    (stdout stderr : List UInt8) :
    ∃ evaluation,
      (exit 0).evaluation stdout stderr = .ok evaluation ∧
        evaluation.output.toList = Text.Utf8.decode stdout ∧
        ∀ message,
          evaluation.stderr = some message ↔
            (∃ c ∈ Text.Utf8.decode stderr, Text.isBlank c = false) ∧
              message.toList = messageText stderr := by
  simp only [evaluation, if_true, List.isEmpty_iff]
  refine ⟨_, rfl, String.toList_ofList, ?_⟩
  intro message
  rw [← Text.trim_ne_nil_iff, ← messageText]
  split
  · next hBlank => exact iff_of_false (fun hNone => by cases hNone) (fun hSome => hSome.1 hBlank)
  · next hMessage =>
      rw [and_iff_right hMessage, Option.some_inj, ← String.toList_inj, String.toList_ofList]
      exact eq_comm

/- A failure has the messages, or its end if they are blank; so it tells something. -/
theorem Ending.evaluation_of_failure
    {ending : Ending}
    (hFailure : ending ≠ .exit 0)
    (stdout stderr : List UInt8) :
    ∃ message,
      ending.evaluation stdout stderr = .error (.engine message) ∧
        message =
          (if messageText stderr = [] then "jq failed with " ++ ending.text
          else String.ofList (messageText stderr)) ∧
        ∃ c ∈ message.toList, Text.isBlank c = false := by
  simp only [evaluation, if_neg hFailure, List.isEmpty_iff]
  split
  · refine ⟨_, rfl, rfl, 'j', ?_, by decide⟩
    rw [String.toList_append]
    exact List.mem_append_left _ (by decide)
  · next hMessage =>
      refine ⟨_, rfl, rfl, ?_⟩
      rw [String.toList_ofList, ← Text.trim_ne_nil_iff, messageText, Text.trim_trim]
      exact hMessage

------------------------------------------------------------
-- Outcomes
------------------------------------------------------------

namespace Finished

/- The ways in which a run can come out. -/
theorem evaluation_cases
    {finished : Finished}
    (hCounted : finished.Counted)
    (limits : Limits) :
    (¬finished.Fits limits ∧
        finished.evaluation limits = .error (.outputTooLarge limits.maxOutputBytes)) ∨
      (finished.Fits limits ∧
        finished.ending = .hang ∧
        finished.evaluation limits = .error (.timeout limits.timeout)) ∨
      (finished.Fits limits ∧
        finished.ending = .exit 0 ∧
        ∃ evaluation, finished.evaluation limits = .ok evaluation) ∨
      (finished.Fits limits ∧
        finished.ending ≠ .hang ∧
        finished.ending ≠ .exit 0 ∧
        ∃ message, finished.evaluation limits = .error (.engine message)) := by
  by_cases hFits : finished.Fits limits
  · by_cases hHang : finished.ending = .hang
    · exact .inr (.inl ⟨hFits, hHang, evaluation_of_hang hFits hHang⟩)
    · rw [evaluation_of_ends hCounted hFits hHang]
      by_cases hSuccess : finished.ending = .exit 0
      · rw [hSuccess]
        rcases Ending.evaluation_of_success finished.stdout finished.stderr with
          ⟨evaluation, hEvaluation, -⟩
        exact .inr (.inr (.inl ⟨hFits, rfl, evaluation, hEvaluation⟩))
      · rcases Ending.evaluation_of_failure hSuccess finished.stdout finished.stderr with
          ⟨message, hEvaluation, -⟩
        exact .inr (.inr (.inr ⟨hFits, hHang, hSuccess, message, hEvaluation⟩))
  · exact .inl ⟨hFits, evaluation_of_not_fits hCounted hFits⟩

/- Success needs both streams within the bound and a run that ends well, and no more. -/
theorem evaluation_ok_iff
    {finished : Finished}
    {limits : Limits}
    (hCounted : finished.Counted) :
    (∃ evaluation, finished.evaluation limits = .ok evaluation) ↔
      finished.Fits limits ∧ finished.ending = .exit 0 := by
  rcases evaluation_cases hCounted limits with
    ⟨hFits, hResult⟩ | ⟨-, hHang, hResult⟩ | ⟨hFits, hSuccess, hResult⟩ |
      ⟨-, -, hFailure, message, hResult⟩
  · exact iff_of_false (by simp [hResult]) (fun hBoth => hFits hBoth.1)
  · exact iff_of_false (by simp [hResult]) (by simp [hHang])
  · exact iff_of_true hResult ⟨hFits, hSuccess⟩
  · exact iff_of_false (by simp [hResult]) (fun hBoth => hFailure hBoth.2)

/- No failure of a run is one of the surroundings. -/
theorem isSystemic_of_evaluation
    {finished : Finished}
    {limits : Limits}
    (hCounted : finished.Counted)
    {failure : EvalError}
    (hFailure : finished.evaluation limits = .error failure) :
    failure.isSystemic = false := by
  rcases evaluation_cases hCounted limits with
    ⟨-, hResult⟩ | ⟨-, -, hResult⟩ | ⟨-, -, evaluation, hResult⟩ | ⟨-, -, -, message, hResult⟩
  all_goals
    rw [hResult] at hFailure
    cases hFailure
  · rfl
  · rfl
  · rfl

/- What a success shows is all that the run has written. -/
theorem evaluation_of_ok
    {finished : Finished}
    {limits : Limits}
    (hCounted : finished.Counted)
    {evaluation : Evaluation}
    (hResult : finished.evaluation limits = .ok evaluation) :
    evaluation.output.toList = Text.Utf8.decode finished.stdout ∧
      ∀ message,
        evaluation.stderr = some message ↔
          (∃ c ∈ Text.Utf8.decode finished.stderr, Text.isBlank c = false) ∧
            message.toList = messageText finished.stderr := by
  rcases (evaluation_ok_iff hCounted).mp ⟨evaluation, hResult⟩ with ⟨hFits, hSuccess⟩
  rw [evaluation_of_ends hCounted hFits (by simp [hSuccess]), hSuccess] at hResult
  rcases Ending.evaluation_of_success finished.stdout finished.stderr with ⟨shown, hShown, hAll⟩
  rw [hShown, Except.ok.injEq] at hResult
  rwa [hResult] at hAll

end Finished

------------------------------------------------------------
-- Evaluations
------------------------------------------------------------

/- What a program finds on its standard input. -/
def Call.document (call : Call) : List UInt8 :=
  if call.options.nullInput then [] else Text.Utf8.encode call.input.toList

/- A launched program is judged by what its run has written. -/
theorem evaluateWith_of_launch
    {layout : Layout Program}
    {path : String}
    {program : Program}
    {call : Call}
    (hLaunch : layout.launch path (arguments call.filter call.options) = .ok program) :
    evaluateWith layout path call =
      (program.run (arguments call.filter call.options) call.document).evaluation call.limits := by
  simp only [evaluateWith, hLaunch, Call.document]

/- Without an input the document makes no difference. -/
theorem evaluateWith_of_nullInput
    (layout : Layout Program)
    (path : String)
    {call : Call}
    (hNull : call.options.nullInput = true)
    (input : String) :
    evaluateWith layout path { call with input } = evaluateWith layout path call := by
  simp only [evaluateWith, hNull, if_true]

/-
  The outcome of running a program that could be launched, for
  every program, filter, input and bounds. The conditions are
  checked in this order: the length of both streams, the end of
  the run, its status.
-/
theorem evaluateWith_outcome
    {layout : Layout Program}
    {path : String}
    {program : Program}
    {call : Call}
    {finished : Finished}
    (hLaunch : layout.launch path (arguments call.filter call.options) = .ok program)
    (hRun : program.run (arguments call.filter call.options) call.document = finished)
    (hStdout : finished.stdout.length < UInt64.size)
    (hStderr : finished.stderr.length < UInt64.size) :
    ((∃ evaluation, evaluateWith layout path call = .ok evaluation) ↔
        finished.Fits call.limits ∧ finished.ending = .exit 0) ∧
      (∀ evaluation, evaluateWith layout path call = .ok evaluation →
        evaluation.output.toList = Text.Utf8.decode finished.stdout ∧
          (∀ text : String,
            finished.stdout = Text.Utf8.encode text.toList → evaluation.output = text) ∧
          ∀ message,
            evaluation.stderr = some message ↔
              (∃ c ∈ Text.Utf8.decode finished.stderr, Text.isBlank c = false) ∧
                message.toList = Text.trim (Text.Utf8.decode finished.stderr)) ∧
      (¬finished.Fits call.limits →
        evaluateWith layout path call =
          .error (.outputTooLarge call.limits.maxOutputBytes)) ∧
      (finished.Fits call.limits →
        finished.ending = .hang →
        evaluateWith layout path call = .error (.timeout call.limits.timeout)) ∧
      (finished.Fits call.limits →
        finished.ending ≠ .hang →
        finished.ending ≠ .exit 0 →
        ∃ message,
          evaluateWith layout path call = .error (.engine message) ∧
            message =
              (if Text.trim (Text.Utf8.decode finished.stderr) = [] then
                "jq failed with " ++ finished.ending.text
              else String.ofList (Text.trim (Text.Utf8.decode finished.stderr))) ∧
            ∃ c ∈ message.toList, Text.isBlank c = false) ∧
      (∀ failure, evaluateWith layout path call = .error failure →
        failure.isSystemic = false) ∧
      (call.options.nullInput = true →
        ∀ input, evaluateWith layout path { call with input } =
          evaluateWith layout path call) := by
  have hCounted : finished.Counted := ⟨hStdout, hStderr⟩
  have hNull := @evaluateWith_of_nullInput layout path call
  have hResult := evaluateWith_of_launch hLaunch
  rw [hRun] at hResult
  rw [hResult] at hNull ⊢
  refine ⟨Finished.evaluation_ok_iff hCounted, ?_, Finished.evaluation_of_not_fits hCounted,
    Finished.evaluation_of_hang, ?_, fun _ => Finished.isSystemic_of_evaluation hCounted, hNull⟩
  · intro evaluation hOk
    rcases Finished.evaluation_of_ok hCounted hOk with ⟨hOutput, hMessages⟩
    refine ⟨hOutput, ?_, hMessages⟩
    intro text hText
    rw [← String.toList_inj, hOutput, hText, Text.Utf8.decode_encode]
  · intro hFits hEnds hFailure
    rw [Finished.evaluation_of_ends hCounted hFits hEnds]
    exact Ending.evaluation_of_failure hFailure finished.stdout finished.stderr

/- A program that repeats its input and adds a letter; for one filter it is killed. -/
def repeating : Program :=
  { byLastArgument := [("error", { stderr := [10], ending := .signal 9 })]
    default := { echoInput := true, stdout := [0xC3, 0xA9], stderr := [32, 119, 10] } }

/- It stands in the working directory. -/
def repeatingLayout : Layout Program :=
  { entries := [(["jq"], .program repeating)] }

theorem evaluateWith_outcome_repeating :
    (∃ evaluation,
      evaluateWith repeatingLayout "./jq" { filter := ".", input := "x" } = .ok evaluation ∧
        evaluation.output = "xé" ∧ evaluation.stderr = some "w") ∧
      evaluateWith repeatingLayout "./jq"
          { filter := ".", input := "x", limits := { maxOutputBytes := 2 } } =
        .error (.outputTooLarge 2) ∧
      evaluateWith repeatingLayout "./jq" { filter := "error", input := "x" } =
        .error (.engine "jq failed with signal: 9 (SIGKILL)") := by
  have hLaunch : repeatingLayout.launch "./jq" (arguments "." {}) = .ok repeating := by
    rfl
  have hRun : repeating.run (arguments "." {}) (Call.document { filter := ".", input := "x" }) =
      { stdout := [120, 0xC3, 0xA9], stderr := [32, 119, 10], ending := .exit 0 } := by
    decide +kernel
  have hDot := fun limits => @evaluateWith_outcome repeatingLayout "./jq" repeating
    { filter := ".", input := "x", limits } _ hLaunch hRun (by decide) (by decide)
  have hError := @evaluateWith_outcome repeatingLayout "./jq" repeating
    { filter := "error", input := "x" }
    { stdout := [], stderr := [10], ending := .signal 9 } (by rfl)
    (by decide +kernel) (by decide) (by decide)
  refine ⟨?_, (hDot { maxOutputBytes := 2 }).2.2.1 (by decide), ?_⟩
  · rcases hDot {} with ⟨hOk, hShown, -⟩
    rcases hOk.mpr (by decide) with ⟨evaluation, hEvaluation⟩
    rcases hShown evaluation hEvaluation with ⟨-, hText, hMessage⟩
    refine ⟨evaluation, hEvaluation, hText "xé" (by decide +kernel), ?_⟩
    exact (hMessage "w").mpr ⟨⟨'w', by decide, by decide⟩, by decide⟩
  · rcases hError with ⟨-, -, -, -, hFailure, -⟩
    rcases hFailure (by decide) (by decide) (by decide) with ⟨message, hResult, hMessage, -⟩
    rw [hResult, hMessage]
    decide +kernel

end JqLens
