import JqLens.Proofs.JsonLayout
import JqLens.Terminal.Session

/-
  This file proves that whatever goes over the wire is read as
  what it was. A type of the wire is a row of its own: its
  values, how they are written and read, and which of them can
  be told apart, since numbers are read with 64 bits only.

  That the layout does not matter has been said for all values
  of JSON. What is left is the agreement of writing and reading
  on trees, member by member.

  Key definitions include:
    * `Decode.fromText`
    * `WireType`
    * `WireType.all`

  Main results:
    * `fromText_layout`
    * `wire_roundTrip`
-/

namespace JqLens

open Reading (ofJson ofItems ofMembers)

------------------------------------------------------------
-- Texts
------------------------------------------------------------

/- The value that a text holds, if it is JSON of its shape. -/
def Decode.fromText
    {α : Type}
    (decode : Reading → Except Fault α)
    (text : String) : Except Fault α :=
  match Reading.parse? text with
  | some tree => decode tree
  | none => .error .malformed

/- How values are written: to the service, and by commands with the end of the line. -/
def layouts : List (Json → String) :=
  [Json.compact, Json.indented, document]

/- Every layout is read as the tree of its value. -/
theorem fromText_layout
    {α : Type}
    (decode : Reading → Except Fault α)
    (value : Json)
    {layout : Json → String}
    (hLayout : layout ∈ layouts) :
    Decode.fromText decode (layout value) = decode (ofJson value) := by
  have hTree : Reading.parse? (layout value) = some (ofJson value) := by
    have hCompact := Json.spells_compact value
    have hIndented := Json.spells_indented 0 value
    simp only [layouts, List.mem_cons, List.not_mem_nil, or_false] at hLayout
    rcases hLayout with rfl | rfl | rfl
    · have hParse := Reading.parse?_of_spells hCompact Json.isBlank_nil
      rwa [List.append_nil] at hParse
    · have hParse := Reading.parse?_of_spells hIndented Json.isBlank_nil
      rwa [List.append_nil] at hParse
    · have hParse := Reading.parse?_of_spells hIndented (Json.isBlank_newline 0)
      rwa [String.ofList_append] at hParse
  rw [Decode.fromText, hTree]

------------------------------------------------------------
-- Parts of values
------------------------------------------------------------

namespace Decode

/- An optional text is read as it was. -/
@[simp]
theorem optional_ofOption
    (text : Option String) :
    optional string (ofJson (.ofOption text)) = .ok text := by
  cases text with
  | none => rfl
  | some text => rfl

/- A number below the bound is read as it was. -/
theorem natural_ofNatural
    {n : Nat}
    (hLess : n < UInt64.size) :
    natural (Reading.ofNatural n) = .ok n := by
  rw [Reading.ofNatural_of_lt hLess, natural, if_pos hLess]

/- Items that are read as they were make an array that is read as it was. -/
theorem listOf_ofJson
    {α : Type}
    {encode : α → Json}
    {decode : Reading → Except Fault α}
    {values : List α}
    (hItems : ∀ value ∈ values, decode (ofJson (encode value)) = .ok value) :
    listOf decode (ofJson (.arr (values.map encode))) = .ok values := by
  have hValues : items decode (ofItems (values.map encode)) = .ok values := by
    induction values with
    | nil => rfl
    | cons value values ih =>
        have hFirst := hItems value List.mem_cons_self
        have hRest := ih fun other hOther => hItems other (List.mem_cons_of_mem _ hOther)
        rw [List.map_cons, ofItems, items, hFirst, hRest]
        rfl
  rw [ofJson, listOf, hValues]
  rfl

end Decode

------------------------------------------------------------
-- Tokens and pipelines
------------------------------------------------------------

theorem Category.decode_ofJson
    (category : Category) :
    decode (ofJson category.encode) = .ok category := by
  cases category <;> decide

@[simp]
theorem Reading.keeps_bool
    (room : Nat)
    (value : Bool) :
    (Reading.bool value).keeps room = true := by
  cases room with
  | zero => rfl
  | succ room => rfl

/- The depth around a form does not matter, since it is flat. -/
theorem DotForm.decode_ofJson
    (depth : Nat)
    (form : DotForm) :
    decode depth (ofJson form.encode) = .ok form := by
  cases form with
  | identity => rfl
  | recursiveDescent => rfl
  | _ suppressed =>
      simp only [encode, suppressed?, kind, ofJson, ofMembers, decode, Decode.members, part,
        Reading.keeps_bool]
      rfl

theorem DotForm.optional_ofJson
    (depth : Nat)
    (form : DotForm) :
    Decode.optional (decode depth) (ofJson form.encode) = .ok (some form) := by
  have hObject : ∃ members, ofJson form.encode = .obj members true := by
    unfold encode
    split
    · exact ⟨_, rfl⟩
    · exact ⟨_, rfl⟩
  rcases hObject with ⟨members, hObject⟩
  have hForm := decode_ofJson depth form
  rw [hObject] at hForm ⊢
  rw [Decode.optional, hForm]
  · rfl
  · exact fun h => by cases h

/- A token is read as it was, with or without the parts that it may lack. -/
theorem Token.decode_ofJson
    (depth : Nat)
    (token : Token) :
    decode depth (ofJson token.encode) = .ok token := by
  rcases token with ⟨text, category, description, documentation, form⟩
  have hCategory := Category.decode_ofJson category
  have hForm := DotForm.optional_ofJson (depth + 1)
  rcases documentation with _ | documentation
  all_goals rcases form with _ | form
  all_goals
    simp only [encode, Option.map, Option.toList, List.cons_append, List.nil_append, ofJson,
      ofMembers, decode, Decode.members, part, Decode.once, hCategory, hForm]
    rfl

/- The position is a number of 64 bits. -/
def Stage.Fits
    (stage : Stage) : Prop :=
  stage.ordinal < UInt64.size

theorem Stage.decode_ofJson
    {stage : Stage}
    (hFits : stage.Fits) :
    decode (ofJson stage.encode) = .ok stage := by
  have hOrdinal := Decode.natural_ofNatural hFits
  simp only [encode, ofJson, ofMembers, decode, Decode.members, part, Decode.once, hOrdinal]
  rfl

/- All positions are numbers of 64 bits. -/
def Pipeline.Fits
    (pipeline : Pipeline) : Prop :=
  (∀ stage ∈ pipeline.fragments, stage.Fits) ∧ ∀ stage ∈ pipeline.progressive, stage.Fits

theorem Pipeline.decode_ofJson
    {pipeline : Pipeline}
    (hFits : pipeline.Fits) :
    decode (ofJson pipeline.encode) = .ok pipeline := by
  rcases hFits with ⟨hFragments, hProgressive⟩
  have hFirst := Decode.listOf_ofJson fun stage hStage =>
    Stage.decode_ofJson (hFragments stage hStage)
  have hSecond := Decode.listOf_ofJson fun stage hStage =>
    Stage.decode_ofJson (hProgressive stage hStage)
  rw [ofJson] at hFirst hSecond
  simp only [encode, ofJson, ofMembers, decode, Decode.members, part, Decode.once, hFirst, hSecond]
  rfl

------------------------------------------------------------
-- Requests
------------------------------------------------------------

theorem Options.decode_ofJson
    (options : Options) :
    decode (ofJson options.encode) = .ok options := by
  rfl

/- The switches beside the input and the filter are kept, and read at the end. -/
theorem EvalRequest.decode_ofJson
    (request : EvalRequest) :
    decode (ofJson request.encode) = .ok request := by
  rcases request with ⟨input, filter, options⟩
  have hInput := Decode.optional_ofOption input
  have hFilter := Decode.optional_ofOption filter
  simp only [encode, Options.memberList, List.cons_append, List.nil_append, ofJson, ofMembers,
    decode, Decode.members, part, Decode.once, hInput, hFilter, Reading.keeps_bool]
  cases input <;> cases filter <;> rfl

theorem StepsRequest.decode_ofJson
    (request : StepsRequest) :
    decode (ofJson request.encode) = .ok request := by
  rcases request with ⟨input, filter⟩
  have hInput := Decode.optional_ofOption input
  have hFilter := Decode.optional_ofOption filter
  simp only [encode, ofJson, ofMembers, decode, Decode.members, part, Decode.once, hInput, hFilter]
  rfl

theorem ExplainRequest.decode_ofJson
    (request : ExplainRequest) :
    decode (ofJson request.encode) = .ok request := by
  rfl

------------------------------------------------------------
-- Responses
------------------------------------------------------------

theorem VersionResponse.decode_ofJson
    (response : VersionResponse) :
    decode (ofJson response.encode) = .ok response := by
  rfl

theorem ExplainResponse.decode_ofJson
    (response : ExplainResponse) :
    decode (ofJson response.encode) = .ok response := by
  have hTokens : Decode.listOf (Token.decode 2)
      (ofJson (.arr (response.tokens.map Token.encode))) = .ok response.tokens :=
    Decode.listOf_ofJson fun token _ => Token.decode_ofJson 2 token
  rw [ofJson] at hTokens
  simp only [encode, ofJson, ofMembers, decode, Decode.single, Decode.members, Decode.onlyMember,
    Decode.once, hTokens]
  rfl

/- The position is a number of 64 bits. -/
def StepResult.Fits
    (result : StepResult) : Prop :=
  result.step < UInt64.size

theorem StepResult.decode_ofJson
    {result : StepResult}
    (hFits : result.Fits) :
    decode (ofJson result.encode) = .ok result := by
  have hStep := Decode.natural_ofNatural hFits
  have hOutput := Decode.optional_ofOption result.output
  have hError := Decode.optional_ofOption result.error
  simp only [encode, ofJson, ofMembers, decode, Decode.members, part, Decode.once, hStep, hOutput,
    hError]
  rfl

------------------------------------------------------------
-- Responses of two shapes
------------------------------------------------------------

namespace Decode

/- An object of the first shape is read as such. -/
theorem eitherOf_first
    {α : Type}
    {first : Reading → Except Fault α}
    (second : Reading → Except Fault α)
    {members : List (Option String × Reading)}
    {result : α}
    (hKeeps : (Reading.obj members true).keeps Reading.maxDepth = true)
    (hFirst : first (.obj members true) = .ok result) :
    eitherOf first second (.obj members true) = .ok result := by
  simp only [eitherOf, if_pos hKeeps, hFirst]

/- An object that is not of the first shape is read as one of the second. -/
theorem eitherOf_second
    {α : Type}
    {first second : Reading → Except Fault α}
    {members : List (Option String × Reading)}
    {result : α}
    {fault : Fault}
    (hKeeps : (Reading.obj members true).keeps Reading.maxDepth = true)
    (hFirst : first (.obj members true) = .error fault)
    (hSecond : second (.obj members true) = .ok result) :
    eitherOf first second (.obj members true) = .ok result := by
  simp only [eitherOf, if_pos hKeeps, hFirst, hSecond]

end Decode

/- What reports an error has no output. -/
theorem EvalResponse.decodeOutput_error
    (message : String) :
    decodeOutput (ofJson (error message).encode) = .error .mismatch :=
  rfl

/- What has an output reports no error. -/
theorem EvalResponse.errorText_output
    (text : String)
    (stderr : Option String) :
    Decode.errorText (ofJson (output text stderr).encode) = .error .mismatch := by
  cases stderr with
  | none => rfl
  | some stderr => rfl

theorem EvalResponse.decode_ofJson
    (response : EvalResponse) :
    decode (ofJson response.encode) = .ok response := by
  cases response with
  | error message =>
      exact Decode.eitherOf_second rfl (decodeOutput_error message) rfl
  | output text stderr =>
      apply Decode.eitherOf_first
      · cases stderr <;> rfl
      · cases stderr <;> rfl

theorem StepsResponse.decodeSteps_error
    (message : String) :
    decodeSteps (ofJson (error message).encode) = .error .mismatch :=
  rfl

theorem StepsResponse.errorText_steps
    (results : List StepResult)
    (pipes : List String) :
    Decode.errorText (ofJson (steps results pipes).encode) = .error .mismatch := by
  simp only [encode, ofJson]
  rfl

/- Items that may be kept make an array that may be kept. -/
theorem Reading.keeps_items
    {room : Nat}
    {items : List Json}
    (hItems : ∀ item ∈ items, (ofJson item).keeps room = true) :
    (ofJson (.arr items)).keeps (room + 1) = true := by
  rw [ofJson, keeps, Bool.true_and, ofItems_eq_map, List.all_map, List.all_eq_true]
  exact hItems

theorem StepResult.keeps_ofJson
    {result : StepResult}
    (hFits : result.Fits)
    (room : Nat) :
    (ofJson result.encode).keeps (room + 2) = true := by
  rcases result with ⟨step, fragment, fullFilter, output, error⟩
  have hStep := Reading.ofNatural_of_lt hFits
  simp only [encode, ofJson, ofMembers, hStep]
  cases output <;> cases error <;> rfl

/- All positions are numbers of 64 bits. -/
def StepsResponse.Fits : StepsResponse → Prop
  | steps results _ => ∀ result ∈ results, result.Fits
  | error _ => True

theorem StepsResponse.decode_ofJson
    {response : StepsResponse}
    (hFits : response.Fits) :
    decode (ofJson response.encode) = .ok response := by
  cases response with
  | error message =>
      exact Decode.eitherOf_second rfl (decodeSteps_error message) rfl
  | steps results pipes =>
      have hResults := Decode.listOf_ofJson fun result hResult =>
        StepResult.decode_ofJson (hFits result hResult)
      have hPipes : Decode.listOf Decode.string (ofJson (.arr (pipes.map .str))) = .ok pipes :=
        Decode.listOf_ofJson fun _ _ => rfl
      have hKeepResults : (ofJson (.arr (results.map StepResult.encode))).keeps 126 = true := by
        apply Reading.keeps_items
        intro item hItem
        rcases List.mem_map.mp hItem with ⟨result, hResult, rfl⟩
        exact StepResult.keeps_ofJson (hFits result hResult) 123
      have hKeepPipes : (ofJson (.arr (pipes.map .str))).keeps 126 = true := by
        apply Reading.keeps_items
        intro item hItem
        rcases List.mem_map.mp hItem with ⟨pipe, _, rfl⟩
        rfl
      -- The text is kept for a second look, so its depth matters although it is read at the first.
      apply Decode.eitherOf_first
      · rw [Reading.maxDepth, Reading.keeps]
        simp [ofMembers, hKeepResults, hKeepPipes]
      · rw [ofJson] at hResults hPipes
        simp only [ofJson, ofMembers, decodeSteps, Decode.members, part, Decode.once, hResults,
          hPipes]
        rfl

------------------------------------------------------------
-- Types of the wire
------------------------------------------------------------

/-
  A type whose values go over the wire: how they are written
  and read, and which of them have numbers that can be read.
-/
structure WireType where
  Value : Type
  encode : Value → Json
  decode : Reading → Except Fault Value
  Fits : Value → Prop := fun _ => True

/- The types whose values go over the wire. -/
def WireType.all : List WireType :=
  [{ Value := Options, encode := Options.encode, decode := Options.decode },
    { Value := EvalRequest, encode := EvalRequest.encode, decode := EvalRequest.decode },
    { Value := EvalResponse, encode := EvalResponse.encode, decode := EvalResponse.decode },
    { Value := StepsRequest, encode := StepsRequest.encode, decode := StepsRequest.decode },
    { Value := StepsResponse, encode := StepsResponse.encode, decode := StepsResponse.decode,
      Fits := StepsResponse.Fits },
    { Value := StepResult, encode := StepResult.encode, decode := StepResult.decode,
      Fits := StepResult.Fits },
    { Value := ExplainRequest, encode := ExplainRequest.encode, decode := ExplainRequest.decode },
    { Value := ExplainResponse, encode := ExplainResponse.encode,
      decode := ExplainResponse.decode },
    { Value := VersionResponse, encode := VersionResponse.encode,
      decode := VersionResponse.decode },
    { Value := Token, encode := Token.encode, decode := Token.decode 0 },
    { Value := DotForm, encode := DotForm.encode, decode := DotForm.decode 0 },
    { Value := Category, encode := Category.encode, decode := Category.decode },
    { Value := Pipeline, encode := Pipeline.encode, decode := Pipeline.decode,
      Fits := Pipeline.Fits }]

theorem WireType.decode_ofJson
    {type : WireType}
    (hType : type ∈ all)
    {value : type.Value}
    (hFits : type.Fits value) :
    type.decode (ofJson (type.encode value)) = .ok value := by
  simp only [all, List.mem_cons, List.not_mem_nil, or_false] at hType
  rcases hType with rfl | rfl | rfl | rfl | rfl | rfl | rfl | rfl | rfl | rfl | rfl | rfl | rfl
  · exact Options.decode_ofJson value
  · exact EvalRequest.decode_ofJson value
  · exact EvalResponse.decode_ofJson value
  · exact StepsRequest.decode_ofJson value
  · exact StepsResponse.decode_ofJson hFits
  · exact StepResult.decode_ofJson hFits
  · exact ExplainRequest.decode_ofJson value
  · exact ExplainResponse.decode_ofJson value
  · exact VersionResponse.decode_ofJson value
  · exact Token.decode_ofJson 0 value
  · exact DotForm.decode_ofJson 0 value
  · exact Category.decode_ofJson value
  · exact Pipeline.decode_ofJson hFits

/-
  Every value of the wire is read as it was, from its text in
  any layout. What reports an error is never read as what was
  asked for, and the other way round.
-/
theorem wire_roundTrip
    {layout : Json → String}
    (hLayout : layout ∈ layouts) :
    (∀ type ∈ WireType.all, ∀ value : type.Value, type.Fits value →
      Decode.fromText type.decode (layout (type.encode value)) = .ok value) ∧
    (∀ message,
      Decode.fromText EvalResponse.decodeOutput (layout (EvalResponse.error message).encode) =
        .error .mismatch ∧
      Decode.fromText StepsResponse.decodeSteps (layout (StepsResponse.error message).encode) =
        .error .mismatch) ∧
    (∀ text stderr,
      Decode.fromText Decode.errorText (layout (EvalResponse.output text stderr).encode) =
        .error .mismatch) ∧
    ∀ results pipes,
      Decode.fromText Decode.errorText (layout (StepsResponse.steps results pipes).encode) =
        .error .mismatch := by
  simp only [fromText_layout _ _ hLayout]
  refine ⟨?_, ?_, ?_, ?_⟩
  · intro type hType value hFits
    exact WireType.decode_ofJson hType hFits
  · intro message
    exact ⟨EvalResponse.decodeOutput_error message, StepsResponse.decodeSteps_error message⟩
  · exact EvalResponse.errorText_output
  · exact StepsResponse.errorText_steps

/- The greatest position, and texts with escapes and a character beyond sixteen bits. -/
theorem wire_roundTrip_greatest :
    Json.indented ∈ layouts ∧
    (StepResult.mk (UInt64.size - 1) "\"\\" "\n\x01" (some "😀") none).Fits ∧
    Decode.fromText StepResult.decode (Json.indented
      (StepResult.mk (UInt64.size - 1) "\"\\" "\n\x01" (some "😀") none).encode) =
        .ok (StepResult.mk (UInt64.size - 1) "\"\\" "\n\x01" (some "😀") none) := by
  have hLayout : Json.indented ∈ layouts := List.mem_cons_of_mem _ List.mem_cons_self
  have hFits : (StepResult.mk (UInt64.size - 1) "\"\\" "\n\x01" (some "😀") none).Fits := by
    show UInt64.size - 1 < UInt64.size
    decide
  have hType : WireType.mk StepResult StepResult.encode StepResult.decode StepResult.Fits ∈
      WireType.all := by
    simp [WireType.all]
  exact ⟨hLayout, hFits, (wire_roundTrip hLayout).1 _ hType _ hFits⟩

end JqLens
