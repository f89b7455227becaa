import JqLens.Proofs.BracketExtent
import JqLens.Proofs.Nesting

/-
  This file says which bracketed accesses are slices. The scan
  looks for a colon in front of which no square bracket is open
  but that of the access itself; round and curly brackets do not
  count for it. So a body whose colons outside all brackets tell
  what it is gets that form, but so does one whose colon stands
  in an object or in parentheses.

  Key definitions include:
    * `Access.ColonWithin`

  Main results:
    * `Access.slice_bracketSpan_iff`
    * `Access.bracketSpan_of_wellNested`
    * `Access.slice_iff_colonWithin`
    * `tokenize_slice_iff`
-/

namespace JqLens

open Quote (Cursor)

namespace Access

------------------------------------------------------------
-- Colons
------------------------------------------------------------

/- A text has a colon outside literals in front of which certain brackets are open. -/
def ColonWithin
    (opened : List Bracket)
    (text : List Char) : Prop :=
  ∃ front behind,
    text = front ++ ':' :: behind ∧
      Cursor.outside.run front = .outside ∧ openBrackets front = some opened

instance
    (opened : List Bracket)
    (text : List Char) :
    Decidable (ColonWithin opened text) :=
  decidable_of_iff
    (∃ front ∈ text.inits,
      (text.drop front.length).head? = some ':' ∧
        Cursor.outside.run front = .outside ∧ openBrackets front = some opened) (by
      simp only [List.mem_inits]
      constructor
      · rintro ⟨front, ⟨rest, rfl⟩, hColon, hRun, hOpen⟩
        rw [List.drop_left] at hColon
        rcases List.head?_eq_some_iff.mp hColon with ⟨behind, rfl⟩
        exact ⟨front, behind, rfl, hRun, hOpen⟩
      · rintro ⟨front, behind, rfl, hRun, hOpen⟩
        refine ⟨front, List.prefix_append _ _, ?_, hRun, hOpen⟩
        simp)

/- A colon is the mark of a slice if it stands directly inside the brackets. -/
theorem bracketStep_colon_iff
    {k : Cursor}
    {depth deeper : Nat}
    {c : Char}
    {colon : Bool}
    (hStep : bracketStep k depth c = some (deeper, colon)) :
    colon = true ↔ c = ':' ∧ k = .outside ∧ depth = 1 := by
  unfold bracketStep at hStep
  split at hStep
  · next hLiteral =>
      obtain rfl : false = colon := congrArg Prod.snd (Option.some.inj hStep)
      constructor
      · simp
      · rintro ⟨rfl, rfl, -⟩
        simp [Cursor.step, Quote.Step.isLiteral] at hLiteral
  next hCode =>
  rw [Bool.not_eq_true, Cursor.isLiteral_step_eq_false_iff] at hCode
  split at hStep
  · next hOpen =>
      obtain rfl : false = colon := congrArg Prod.snd (Option.some.inj hStep)
      simp [hOpen]
  split at hStep
  · next hClose =>
      split at hStep
      · simp at hStep
      · obtain rfl : false = colon := congrArg Prod.snd (Option.some.inj hStep)
        simp [hClose]
  · obtain rfl := congrArg Prod.snd (Option.some.inj hStep)
    simp [hCode.1]

/- The scan finds a slice exactly if it reads a colon directly inside the brackets. -/
theorem slice_bracketSpan_iff
    {k : Cursor}
    {depth : Nat}
    {cs : List Char} :
    (bracketSpan k depth cs).slice = true ↔
      ∃ front behind,
        (bracketSpan k depth cs).body = front ++ ':' :: behind ∧
          k.run front = .outside ∧ depthBehind k depth front = some 1 := by
  induction cs generalizing k depth with
  | nil => simp [bracketSpan]
  | cons c cs ih =>
      cases hStep : bracketStep k depth c with
      | none =>
          rw [bracketSpan_of_closes hStep, eq_of_bracketStep hStep]
          simp [List.singleton_eq_append_iff]
      | some onward =>
          rcases onward with ⟨deeper, colon⟩
          rw [bracketSpan_of_continues hStep]
          simp only [BracketSpan.push, Bool.or_eq_true, bracketStep_colon_iff hStep, ih]
          constructor
          · rintro (⟨rfl, rfl, rfl⟩ | ⟨front, behind, hBody, hRun, hDepth⟩)
            · exact ⟨[], _, rfl, rfl, rfl⟩
            · refine ⟨c :: front, behind, by rw [hBody, List.cons_append], hRun, ?_⟩
              exact depthBehind_cons_eq_some_iff.mpr ⟨deeper, colon, hStep, hDepth⟩
          · rintro ⟨front, behind, hBody, hRun, hDepth⟩
            cases front with
            | nil =>
                left
                exact ⟨(List.cons.inj hBody).1, hRun, Option.some.inj hDepth⟩
            | cons d front =>
                right
                obtain ⟨rfl, hTail⟩ := List.cons.inj hBody
                rcases depthBehind_cons_eq_some_iff.mp hDepth with ⟨next, seen, hNext, hFront⟩
                rw [hStep] at hNext
                obtain ⟨rfl, rfl⟩ := Prod.mk.inj (Option.some.inj hNext)
                exact ⟨front, behind, hTail, hRun, hFront⟩

------------------------------------------------------------
-- Properly nested bodies
------------------------------------------------------------

/- A properly nested body is closed by the bracket behind it. -/
theorem isBracketed_of_wellNested
    {body : List Char}
    (hNested : WellNested body) :
    IsBracketed ('[' :: (body ++ [']'])) := by
  refine ⟨body, rfl, ?_, ?_⟩
  · apply staysOpen_cons
    intro front hPrefix
    have hOrder := hNested.opensFirst front hPrefix
    omega
  · have hCount := count_nestAll hNested.2 .square
    simp only [List.count_nil, Bracket.opening, Bracket.closing] at hCount
    have hNext : Cursor.outside.next '[' = .outside := rfl
    rw [Cursor.code_cons_of_code rfl, hNext, Cursor.code_append, hNested.1,
      Cursor.code_cons_of_code rfl, Cursor.code_nil]
    simp
    omega

theorem bracketSpan_of_wellNested
    {body : List Char}
    (hNested : WellNested body)
    (rest : List Char) :
    let found := bracketSpan .outside 0 ('[' :: (body ++ ']' :: rest))
    found.body = '[' :: (body ++ [']']) ∧ found.rest = rest := by
  rcases extent?_of_bracketed (isBracketed_of_wellNested hNested) rest with
    ⟨p, hLength, hExtent⟩
  have hText : '[' :: (body ++ [']']) ++ rest = '[' :: (body ++ ']' :: rest) := by
    simp
  have hSpan := bracketSpan_of_extent? (body ++ ']' :: rest)
  rw [hText] at hExtent
  simp only [hExtent, ← hLength] at hSpan
  rw [← hText, List.take_left, List.drop_left] at hSpan
  rw [← hText]
  exact hSpan

/-
  Around a colon of a properly nested body no square bracket is
  open exactly if the scan has counted only that of the access.
-/
theorem depthBehind_eq_one_iff
    {front behind : List Char}
    {opened : List Bracket}
    (hNested : WellNested (front ++ behind))
    (hOpen : openBrackets front = some opened) :
    depthBehind .outside 0 ('[' :: front) = some 1 ↔ .square ∉ opened := by
  have hSpan := (bracketSpan_of_wellNested hNested []).1
  have hBody : (bracketSpan .outside 0 ('[' :: (front ++ behind ++ [']']))).body =
      '[' :: front ++ (behind ++ [']']) := by
    rw [hSpan]
    simp
  rcases exists_depthBehind hBody (by simp) with ⟨depth, hDepth⟩
  have hCounted : depthBehind .outside 1 front = some depth := hDepth
  have hDepths := (depthBehind_eq_count le_rfl hCounted).2
  have hCount := count_nestAll hOpen .square
  simp only [List.count_nil, Bracket.opening, Bracket.closing] at hCount
  rw [hDepth, Option.some.injEq, ← List.count_eq_zero]
  omega

/-
  The scan takes a properly nested body for a slice exactly if
  it has a colon around which no square bracket is open.
-/
theorem slice_iff_colonWithin
    {body : List Char}
    (hNested : WellNested body)
    (rest : List Char) :
    (bracketSpan .outside 0 ('[' :: (body ++ ']' :: rest))).slice = true ↔
      ∃ opened, ColonWithin opened body ∧ .square ∉ opened := by
  rw [slice_bracketSpan_iff, (bracketSpan_of_wellNested hNested rest).1]
  constructor
  · rintro ⟨front, behind, hBody, hRun, hDepth⟩
    cases front with
    | nil => simp at hBody
    | cons c front =>
        obtain ⟨rfl, hTail⟩ := List.cons.inj hBody
        have hColon : ':' ∉ [']'] := by
          decide
        rcases exists_tail_of_not_mem hColon hTail with ⟨tail, rfl⟩
        rcases Closes.exists_openBrackets hNested with ⟨opened, hOpen⟩
        refine ⟨opened, ⟨front, tail, rfl, hRun, hOpen⟩, ?_⟩
        exact (depthBehind_eq_one_iff hNested hOpen).mp hDepth
  · rintro ⟨opened, ⟨front, behind, rfl, hRun, hOpen⟩, hSquare⟩
    refine ⟨'[' :: front, behind ++ [']'], by simp, hRun, ?_⟩
    exact (depthBehind_eq_one_iff hNested hOpen).mpr hSquare

/- What is read at a properly nested body that is not empty. -/
theorem read_wellNested
    {body : List Char}
    (hNested : WellNested body)
    (hSome : body ≠ [])
    (rest : List Char) :
    (read ('[' :: (body ++ ']' :: rest))).1 =
      bracket ('[' :: (body ++ [']']))
        (bracketSpan .outside 0 ('[' :: (body ++ ']' :: rest))).slice
        (rest.head? == some '?') := by
  have hHead : (body ++ ']' :: rest).head? ≠ some ']' := by
    rcases List.exists_cons_of_ne_nil hSome with ⟨c, tail, rfl⟩
    intro hClose
    obtain rfl : c = ']' := Option.some.inj hClose
    have hOrder := hNested.opensFirst [']'] ⟨tail, rfl⟩
    exact absurd hOrder (by decide)
  rcases bracketSpan_of_wellNested hNested rest with ⟨hBody, hRest⟩
  rw [read_bracket hHead]
  simp only [hBody, hRest, takeMark_fst]

------------------------------------------------------------
-- Forms
------------------------------------------------------------

theorem form_bracket_eq_slice_iff
    {body : List Char}
    {slice suppressed : Bool} :
    (bracket body slice suppressed).form = .slice suppressed ↔ slice = true := by
  cases slice with
  | false => simp [form]
  | true => simp [form]

theorem form_bracket_eq_index_iff
    {body : List Char}
    {slice suppressed : Bool} :
    (bracket body slice suppressed).form = .index suppressed ↔ ¬ slice = true := by
  cases slice with
  | false => simp [form]
  | true => simp [form]

end Access

/-
  A bracketed access with a properly nested body that is not
  empty is a slice exactly if the body has a colon outside
  literals around which no square bracket is open, and an index
  otherwise. So it is a slice exactly if it has a colon outside
  all brackets, provided that no colon stands in round or curly
  brackets only.
-/
theorem tokenize_slice_iff
    (body rest : List Char)
    (hNested : WellNested body)
    (hSome : body ≠ []) :
    let suppressed := rest.head? == some '?'
    ∃ token others,
      tokenize (String.ofList ('.' :: '[' :: (body ++ ']' :: rest))) = token :: others ∧
        (token.form = some (.slice suppressed) ↔
          ∃ opened, Access.ColonWithin opened body ∧ .square ∉ opened) ∧
        (token.form = some (.index suppressed) ↔
          ¬ ∃ opened, Access.ColonWithin opened body ∧ .square ∉ opened) ∧
        ((∀ opened, Access.ColonWithin opened body → opened = [] ∨ .square ∈ opened) →
          (token.form = some (.slice suppressed) ↔ Access.ColonWithin [] body)) := by
  intro suppressed
  refine ⟨_, _, tokenize_dot _, ?_⟩
  rw [Access.form_explain, Access.read_wellNested hNested hSome rest]
  have hSlice := Access.slice_iff_colonWithin hNested rest
  refine ⟨?_, ?_, fun hDirect => ?_⟩
  · rw [Option.some.injEq, Access.form_bracket_eq_slice_iff, hSlice]
  · rw [Option.some.injEq, Access.form_bracket_eq_index_iff, hSlice]
  · rw [Option.some.injEq, Access.form_bracket_eq_slice_iff, hSlice]
    constructor
    · rintro ⟨opened, hWithin, hSquare⟩
      rcases hDirect opened hWithin with rfl | hInside
      · exact hWithin
      · exact absurd hInside hSquare
    · intro hWithin
      exact ⟨[], hWithin, List.not_mem_nil⟩

/- A colon in a literal, one in an object and in brackets, and one outside all of them. -/
theorem tokenize_slice_iff_nestedColons :
    let body := ".a[\":\"]:\x7bb:[1:2]\x7d".toList
    WellNested body ∧ body ≠ [] ∧
      ∃ token others,
        tokenize (String.ofList ('.' :: '[' :: (body ++ ']' :: ['?']))) = token :: others ∧
          token.form = some (.slice true) := by
  intro body
  have hNested : WellNested body := by
    decide
  have hSome : body ≠ [] := by
    decide
  have hColon : Access.ColonWithin [] body := by
    decide
  rcases tokenize_slice_iff body ['?'] hNested hSome with ⟨token, others, hTokens, hSlice, -⟩
  exact ⟨hNested, hSome, token, others, hTokens, hSlice.mpr ⟨[], hColon, List.not_mem_nil⟩⟩

/- The key of an object makes a slice of an access that has no colon outside all brackets. -/
theorem tokenize_objectKey_slice :
    let body := "\x7ba:1\x7d.a".toList
    WellNested body ∧ body ≠ [] ∧ ¬ Access.ColonWithin [] body ∧
      ∃ token,
        tokenize (String.ofList ('.' :: '[' :: (body ++ [']']))) = [token] ∧
          token.form = some (.slice false) := by
  refine ⟨by decide, by decide, by decide, ?_⟩
  let path := Access.bracket "[\x7ba:1\x7d.a]".toList true false
  refine ⟨path.explain, ?_, rfl⟩
  decide +kernel

end JqLens
