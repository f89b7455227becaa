import JqLens.Proofs.LexicalGrammar

/-
  This file says how far a bracketed access reaches: to the
  first position at which all square brackets are closed that
  were opened behind the dot, or to the end of the filter if
  there is none. The scan counts open brackets with a natural
  number, which is the full count in front of every character,
  so that no bracket is ever closed that was not opened.

  Key definitions include:
    * `Access.openSquares`
    * `Access.closesAt`
    * `Access.extent?`
    * `Access.depthBehind`

  Main results:
    * `Access.extent?_of_bracketed`, `Access.extent?_of_unclosed`
    * `Access.bracketSpan_of_extent?`
    * `Access.exists_depthBehind`, `Access.bracketSpan_append`
    * `Access.depthBehind_eq_openSquares`
    * `Access.read_open`
    * `tokenize_bracketed`
-/

namespace JqLens

open Quote (Cursor)

namespace Access

------------------------------------------------------------
-- The extent of a bracketed access
------------------------------------------------------------

/- How many more square brackets a text opens than it closes outside literals. -/
def openSquares (text : List Char) : Int :=
  ((Cursor.outside.code text).count '[' : Int) - (Cursor.outside.code text).count ']'

/-
  At a position of a text a square bracket is closed outside
  literals, and behind it no square bracket is open.
-/
def closesAt
    (text : List Char)
    (p : Nat) : Bool :=
  text[p]? == some ']' && Cursor.outside.run (text.take p) == .outside &&
    openSquares (text.take (p + 1)) == 0

/- The first position of a text behind which no square bracket is open. -/
def extent? (text : List Char) : Option Nat :=
  (List.range text.length).find? (closesAt text)

theorem extent?_eq_some_iff
    {text : List Char}
    {p : Nat} :
    extent? text = some p ↔
      closesAt text p = true ∧ ∀ q < p, closesAt text q = false := by
  simp only [extent?, List.find?_range_eq_some, List.mem_range, Bool.not_eq_true']
  constructor
  · rintro ⟨hCloses, -, hFirst⟩
    exact ⟨hCloses, hFirst⟩
  · rintro ⟨hCloses, hFirst⟩
    refine ⟨hCloses, ?_, hFirst⟩
    by_contra hOutside
    have hNone : text[p]? = none := List.getElem?_eq_none (Nat.le_of_not_lt hOutside)
    simp [closesAt, hNone] at hCloses

theorem extent?_eq_none_iff
    {text : List Char} :
    extent? text = none ↔ ∀ p, closesAt text p = false := by
  simp only [extent?, List.find?_eq_none, List.mem_range, Bool.not_eq_true]
  constructor
  · intro hNone p
    by_cases hInside : p < text.length
    · exact hNone p hInside
    · have hBehind : text[p]? = none := List.getElem?_eq_none (Nat.le_of_not_lt hInside)
      simp [closesAt, hBehind]
  · intro hNone p _
    exact hNone p

/- While a text stays open, no position closes it. -/
theorem closesAt_eq_false
    {text : List Char}
    {p : Nat}
    (hInside : p < text.length)
    (hOpen : StaysOpen (text.take (p + 1))) :
    closesAt text p = false := by
  have hSome : text.take (p + 1) ≠ [] := by
    apply List.ne_nil_of_length_pos
    simp
    omega
  have hCount := hOpen _ List.prefix_rfl hSome
  have hPositive : openSquares (text.take (p + 1)) ≠ 0 := by
    unfold openSquares
    omega
  simp [closesAt, hPositive]

/- What stays open does so up to any position. -/
theorem StaysOpen.shorten
    {text front : List Char}
    (hOpen : StaysOpen text)
    (hPrefix : front <+: text) :
    StaysOpen front :=
  fun _ hFront => hOpen _ (hFront.trans hPrefix)

/- A text that is closed reaches to its closing bracket, whatever is behind it. -/
theorem extent?_of_bracketed
    {body : List Char}
    (hBody : IsBracketed body)
    (rest : List Char) :
    ∃ p, body.length = p + 1 ∧ extent? (body ++ rest) = some p := by
  rcases hBody with ⟨inner, rfl, hOpen, hCount⟩
  have hLess := hOpen _ List.prefix_rfl (List.cons_ne_nil _ _)
  have hRun : Cursor.outside.run ('[' :: inner) = .outside := by
    -- Inside a literal the last bracket would close nothing.
    by_contra hInside
    have hLiteral : ((Cursor.outside.run ('[' :: inner)).step ']').isLiteral = true := by
      rw [← Bool.not_eq_false, Cursor.isLiteral_step_eq_false_iff]
      exact fun hOutside => hInside hOutside.1
    rw [← List.cons_append, Cursor.code_append, Cursor.code_cons_of_literal hLiteral,
      Cursor.code_nil, List.append_nil] at hCount
    omega
  refine ⟨inner.length + 1, by simp, extent?_eq_some_iff.mpr ⟨?_, ?_⟩⟩
  · have hTake : ('[' :: (inner ++ [']']) ++ rest).take (inner.length + 1 + 1) =
        '[' :: (inner ++ [']']) :=
      List.take_left' (by simp)
    have hBalance : openSquares ('[' :: (inner ++ [']'])) = 0 := by
      unfold openSquares
      omega
    unfold closesAt
    rw [hTake, hBalance]
    simpa using hRun
  · intro q hBefore
    apply closesAt_eq_false
    · simp
      omega
    · apply hOpen.shorten
      have hFront : ('[' :: (inner ++ [']']) ++ rest).take (q + 1) = '[' :: inner.take q := by
        simp [List.take_append_of_le_length, Nat.le_of_lt_succ hBefore]
      rw [hFront, List.cons_prefix_cons]
      exact ⟨rfl, List.take_prefix q inner⟩

/- A text that is not closed has no such position. -/
theorem extent?_of_unclosed
    {text : List Char}
    (hText : IsUnclosed text) :
    extent? text = none := by
  rw [extent?_eq_none_iff]
  intro p
  by_cases hInside : p < text.length
  · exact closesAt_eq_false hInside (hText.2.shorten (List.take_prefix _ _))
  · have hBehind : text[p]? = none := List.getElem?_eq_none (Nat.le_of_not_lt hInside)
    simp [closesAt, hBehind]

/- The scan for the closing bracket stops where the text is closed for the first time. -/
theorem bracketSpan_of_extent?
    (inner : List Char) :
    let text := '[' :: inner
    let found := bracketSpan .outside 0 text
    match extent? text with
    | some p => found.body = text.take (p + 1) ∧ found.rest = text.drop (p + 1)
    | none => found.body = text ∧ found.rest = [] := by
  have hWhole := body_append_rest .outside 0 ('[' :: inner)
  have hEnds := bracketed_or_unclosed inner
  dsimp only at hEnds ⊢
  generalize bracketSpan .outside 0 ('[' :: inner) = found at hWhole hEnds ⊢
  rw [← hWhole]
  rcases hEnds with hClosed | ⟨hRest, hOpen⟩
  · rcases extent?_of_bracketed hClosed found.rest with ⟨p, hLength, hExtent⟩
    simp only [hExtent, ← hLength, List.take_left, List.drop_left, and_self]
  · simp only [hRest, List.append_nil, extent?_of_unclosed hOpen, and_self]

------------------------------------------------------------
-- The count of open brackets
------------------------------------------------------------

/-
  The number of open brackets that the scan has counted when it
  has read a text, or none when it has stopped before.
-/
def depthBehind
    (k : Cursor)
    (depth : Nat) : List Char → Option Nat
  | [] => some depth
  | c :: cs =>
      match bracketStep k depth c with
      | none => none
      | some (deeper, _) => depthBehind (k.next c) deeper cs

theorem depthBehind_cons_eq_some_iff
    {k : Cursor}
    {depth final : Nat}
    {c : Char}
    {cs : List Char} :
    depthBehind k depth (c :: cs) = some final ↔
      ∃ deeper colon, bracketStep k depth c = some (deeper, colon) ∧
        depthBehind (k.next c) deeper cs = some final := by
  rw [depthBehind]
  cases hStep : bracketStep k depth c with
  | none => simp
  | some onward =>
      rcases onward with ⟨next, seen⟩
      simp

/- As long as some of a body is still to be read, the scan has not stopped. -/
theorem exists_depthBehind
    {k : Cursor}
    {depth : Nat}
    {cs front behind : List Char}
    (hBody : (bracketSpan k depth cs).body = front ++ behind)
    (hBehind : behind ≠ []) :
    ∃ deeper, depthBehind k depth front = some deeper := by
  induction front generalizing k depth cs with
  | nil => exact ⟨depth, rfl⟩
  | cons d front ih =>
      cases cs with
      | nil => simp [bracketSpan] at hBody
      | cons c cs =>
          unfold depthBehind
          cases hStep : bracketStep k depth c with
          | none =>
              rw [bracketSpan_of_closes hStep] at hBody
              simp [hBehind] at hBody
          | some onward =>
              rcases onward with ⟨next, colon⟩
              rw [bracketSpan_of_continues hStep] at hBody
              simp only [BracketSpan.push, List.cons_append, List.cons.injEq] at hBody
              rcases hBody with ⟨rfl, hTail⟩
              rw [hStep]
              exact ih hTail

/-
  The scan goes on behind a text it has read with the number of
  brackets that it has counted there.
-/
theorem bracketSpan_append
    {k : Cursor}
    {depth deeper : Nat}
    {front : List Char}
    (hDepth : depthBehind k depth front = some deeper)
    (behind : List Char) :
    let found := bracketSpan (k.run front) deeper behind
    (bracketSpan k depth (front ++ behind)).body = front ++ found.body ∧
      (bracketSpan k depth (front ++ behind)).rest = found.rest := by
  induction front generalizing k depth with
  | nil =>
      obtain rfl : depth = deeper := Option.some.inj hDepth
      simp
  | cons c front ih =>
      rcases depthBehind_cons_eq_some_iff.mp hDepth with ⟨next, colon, hStep, hFront⟩
      rw [List.cons_append, bracketSpan_of_continues hStep]
      simp [BracketSpan.push, ih hFront]

/-
  From inside a bracket on the scan counts at least one open
  bracket, and exactly those that the text opens and does not
  close.
-/
theorem depthBehind_eq_count
    {k : Cursor}
    {depth deeper : Nat}
    {front : List Char}
    (hOpen : 1 ≤ depth)
    (hDepth : depthBehind k depth front = some deeper) :
    1 ≤ deeper ∧
      deeper + (k.code front).count ']' = depth + (k.code front).count '[' := by
  induction front generalizing k depth with
  | nil =>
      obtain rfl : depth = deeper := Option.some.inj hDepth
      simpa using hOpen
  | cons c front ih =>
      rcases depthBehind_cons_eq_some_iff.mp hDepth with ⟨next, colon, hStep, hFront⟩
      rcases count_of_continues hOpen hStep with ⟨hNext, hCount⟩
      rcases ih hNext hFront with ⟨hDeeper, hCounts⟩
      have hCode := Cursor.code_append k [c] front
      rw [List.singleton_append, Cursor.run_cons, Cursor.run_nil] at hCode
      simp only [hCode, List.count_append]
      exact ⟨hDeeper, by omega⟩

/-
  The scan counts all brackets that are open, and behind the
  opening bracket there is at least one.
-/
theorem depthBehind_eq_openSquares
    {inner front behind : List Char}
    {depth : Nat}
    (hText : '[' :: inner = front ++ behind)
    (hDepth : depthBehind .outside 0 front = some depth) :
    (depth : Int) = openSquares front ∧ (front ≠ [] → 1 ≤ depth) := by
  rcases front with _ | ⟨c, front⟩
  · obtain rfl : 0 = depth := Option.some.inj hDepth
    simp [openSquares]
  · obtain rfl : '[' = c := List.head_eq_of_cons_eq hText
    have hFront : depthBehind .outside 1 front = some depth := hDepth
    rcases depthBehind_eq_count le_rfl hFront with ⟨hOpen, hCount⟩
    have hNext : Cursor.outside.next '[' = .outside := rfl
    rw [openSquares, Cursor.code_cons_of_code rfl, hNext, List.count_cons_self,
      List.count_cons_of_ne (by decide)]
    constructor
    · omega
    · exact fun _ => hOpen

------------------------------------------------------------
-- The first token
------------------------------------------------------------

/- The forms that start with a dot and a bracket. -/
def bracketedForms (suppressed : Bool) : List DotForm :=
  [.iterate suppressed, .index suppressed, .slice suppressed]

/- A question mark is taken exactly if it comes next. -/
theorem takeMark_fst
    (cs : List Char) :
    (takeMark cs).1 = (cs.head? == some '?') := by
  unfold takeMark
  split
  · rfl
  · next hHead =>
      cases cs with
      | nil => rfl
      | cons c cs =>
          have hQuestion : c ≠ '?' := by
            rintro rfl
            exact hHead cs rfl
          simp [hQuestion]

/-
  Whether it iterates or not, an access that starts with a
  bracket takes what the scan for the closing bracket finds, and
  a question mark behind it.
-/
theorem read_open
    (inner : List Char) :
    let found := bracketSpan .outside 0 ('[' :: inner)
    let taken := takeMark found.rest
    (read ('[' :: inner)).1.text = '.' :: (found.body ++ mark taken.1) ∧
      (read ('[' :: inner)).1.form ∈ bracketedForms taken.1 ∧
      (read ('[' :: inner)).2 = taken.2 := by
  by_cases hHead : inner.head? = some ']'
  · rcases List.head?_eq_some_iff.mp hHead with ⟨rest, rfl⟩
    simp only [read]
    exact ⟨rfl, List.mem_cons_self, rfl⟩
  · rw [read_bracket hHead]
    refine ⟨rfl, ?_, rfl⟩
    unfold form bracketedForms
    dsimp only
    split
    · simp
    · simp

end Access

/- The lexeme that starts with a dot is a path access. -/
theorem Lexeme.next_dot
    (cs : List Char) :
    next '.' cs = (access (Access.read cs).1, (Access.read cs).2) := by
  have hNone : longOperator? ('.' :: cs) = none :=
    longOperator?_eq_none (by decide) cs
  rw [next_of_isMark (by decide), hNone]
  rfl

theorem tokenize_dot
    (cs : List Char) :
    tokenize (String.ofList ('.' :: cs)) =
      (Access.read cs).1.explain :: explainAll 0 (Lexeme.scan (Access.read cs).2) := by
  rw [tokenize, String.toList_ofList, Lexeme.scan_cons, Lexeme.next_dot]
  rfl

/-
  The first token of a filter that starts with a dot and a
  bracket reaches to the first position where all brackets are
  closed, and takes a question mark behind it; it is suppressed
  exactly if there is one. Without such a position it is the
  whole filter, and not suppressed. Wherever the scan takes one
  off the number of brackets that it has counted, because a
  bracket is closed, that number is the full count of those that
  are open, and not zero.
-/
theorem tokenize_bracketed
    (inner : List Char) :
    let text := '[' :: inner
    (∃ token others,
      tokenize (String.ofList ('.' :: text)) = token :: others ∧
        match Access.extent? text with
        | some p =>
            let suppressed := text[p + 1]? == some '?'
            token.text.toList = '.' :: (text.take (p + 1) ++ Access.mark suppressed) ∧
              ∃ form ∈ Access.bracketedForms suppressed, token.form = some form
        | none =>
            token.text.toList = '.' :: text ∧ others = [] ∧
              ∃ form ∈ Access.bracketedForms false, token.form = some form) ∧
      ∀ front behind,
        (Access.bracketSpan .outside 0 text).body = front ++ ']' :: behind →
          Cursor.outside.run front = .outside →
            ∃ depth,
              Access.depthBehind .outside 0 front = some depth ∧
                (∀ rest, (Access.bracketSpan .outside 0 (front ++ rest)).body =
                  front ++ (Access.bracketSpan .outside depth rest).body) ∧
                (depth : Int) = Access.openSquares front ∧ 1 ≤ depth := by
  intro text
  constructor
  · refine ⟨_, _, tokenize_dot text, ?_⟩
    rcases Access.read_open inner with ⟨hText, hForm, hRest⟩
    have hSpan := Access.bracketSpan_of_extent? inner
    rw [Access.text_explain, String.toList_ofList, Access.form_explain, hText, hRest]
    dsimp only at hSpan
    cases hExtent : Access.extent? text with
    | some p =>
        rw [hExtent] at hSpan
        rcases hSpan with ⟨hBody, hBehind⟩
        rw [Access.takeMark_fst, hBehind, List.head?_drop] at hForm ⊢
        rw [hBody]
        exact ⟨rfl, _, hForm, rfl⟩
    | none =>
        rw [hExtent] at hSpan
        rcases hSpan with ⟨hBody, hBehind⟩
        rw [hBehind] at hForm ⊢
        refine ⟨by simp [hBody, Access.takeMark, Access.mark, text], ?_, _, hForm, rfl⟩
        simp [Access.takeMark, explainAll]
  · intro front behind hBody hRun
    rcases Access.exists_depthBehind hBody (List.cons_ne_nil _ _) with ⟨depth, hDepth⟩
    have hText := Access.body_append_rest .outside 0 text
    rw [hBody, List.append_assoc] at hText
    rcases Access.depthBehind_eq_openSquares hText.symm hDepth with ⟨hCount, hOpen⟩
    refine ⟨depth, hDepth, fun rest => ?_, hCount, hOpen ?_⟩
    · have hScan := Access.bracketSpan_append hDepth rest
      rw [hRun] at hScan
      exact hScan.1
    · rintro rfl
      exact absurd (List.head_eq_of_cons_eq hText) (by decide)

end JqLens
