import JqLens.Proofs.Rescan
import JqLens.Proofs.StageTokens

/-
  This file is about filters whose brackets are properly nested.
  The open brackets form a stack: a bracket that is closed has
  to be the one that was opened last. Reading a lexeme leads
  from one stack to another, and a bracketed access, which is a
  lexeme with brackets in it, leaves the stack as it was.

  Key definitions include:
    * `Bracket`
    * `nest`
    * `nestAll`
    * `openBrackets`
    * `Closes`
    * `WellNested`

  Main results:
    * `nest_cases`
    * `count_nestAll`
    * `openBrackets_eq_nil_iff`
    * `WellNested.opensFirst`
    * `Access.nestAll_body`
    * `Lexeme.Fits.nest`
-/

namespace JqLens

open Quote (Cursor)

------------------------------------------------------------
-- Brackets
------------------------------------------------------------

/- The kinds of brackets of a filter. -/
inductive Bracket where
  | round
  | square
  | curly
  deriving DecidableEq, Repr

namespace Bracket

def opening : Bracket → Char
  | round => '('
  | square => '['
  | curly => '\x7b'

def closing : Bracket → Char
  | round => ')'
  | square => ']'
  | curly => '\x7d'

/- The bracket that a character opens. -/
def openedBy? : Char → Option Bracket
  | '(' => some round
  | '[' => some square
  | '\x7b' => some curly
  | _ => none

/- The bracket that a character closes. -/
def closedBy? : Char → Option Bracket
  | ')' => some round
  | ']' => some square
  | '\x7d' => some curly
  | _ => none

theorem openedBy?_eq_some_iff
    {c : Char}
    {b : Bracket} :
    openedBy? c = some b ↔ c = b.opening := by
  constructor
  · intro hOpens
    unfold openedBy? at hOpens
    split at hOpens
    · exact Option.some.inj hOpens ▸ rfl
    · exact Option.some.inj hOpens ▸ rfl
    · exact Option.some.inj hOpens ▸ rfl
    · exact absurd hOpens (by simp)
  · rintro rfl
    cases b <;> rfl

theorem closedBy?_eq_some_iff
    {c : Char}
    {b : Bracket} :
    closedBy? c = some b ↔ c = b.closing := by
  constructor
  · intro hCloses
    unfold closedBy? at hCloses
    split at hCloses
    · exact Option.some.inj hCloses ▸ rfl
    · exact Option.some.inj hCloses ▸ rfl
    · exact Option.some.inj hCloses ▸ rfl
    · exact absurd hCloses (by simp)
  · rintro rfl
    cases b <;> rfl

theorem opening_inj
    {b other : Bracket} :
    b.opening = other.opening ↔ b = other := by
  cases b <;> cases other <;> decide

theorem closing_inj
    {b other : Bracket} :
    b.closing = other.closing ↔ b = other := by
  cases b <;> cases other <;> decide

theorem opening_ne_closing
    (b other : Bracket) :
    b.opening ≠ other.closing := by
  cases b <;> cases other <;> decide

end Bracket

------------------------------------------------------------
-- Open brackets
------------------------------------------------------------

/-
  The brackets that are open after one more character of filter
  code, the innermost first. A bracket that is closed must be
  the innermost; otherwise there is no answer.
-/
def nest
    (opened : List Bracket)
    (c : Char) : Option (List Bracket) :=
  match Bracket.openedBy? c with
  | some b => some (b :: opened)
  | none =>
      match Bracket.closedBy? c with
      | some b => if opened.head? = some b then some opened.tail else none
      | none => some opened

/- The brackets that are open after a text of filter code. -/
def nestAll
    (opened : List Bracket) : List Char → Option (List Bracket)
  | [] => some opened
  | c :: cs => (nest opened c).bind fun opened => nestAll opened cs

/- The brackets that a text leaves open outside string literals. -/
def openBrackets (cs : List Char) : Option (List Bracket) :=
  nestAll [] (Cursor.outside.code cs)

/- All that a character can do to the open brackets. -/
theorem nest_cases
    {opened inner : List Bracket}
    {c : Char}
    (hNest : nest opened c = some inner) :
    (∃ b : Bracket, c = b.opening ∧ inner = b :: opened) ∨
      (∃ b : Bracket, c = b.closing ∧ opened = b :: inner) ∨
      ((∀ b : Bracket, c ≠ b.opening ∧ c ≠ b.closing) ∧ inner = opened) := by
  unfold nest at hNest
  split at hNest
  · next b hOpens =>
      left
      exact ⟨b, Bracket.openedBy?_eq_some_iff.mp hOpens, (Option.some.inj hNest).symm⟩
  next hNoOpening =>
  right
  split at hNest
  · next b hCloses =>
      left
      split at hNest
      · next hHead =>
          rcases List.head?_eq_some_iff.mp hHead with ⟨others, rfl⟩
          rw [List.tail_cons, Option.some.injEq] at hNest
          exact ⟨b, Bracket.closedBy?_eq_some_iff.mp hCloses, by rw [hNest]⟩
      · exact absurd hNest (by simp)
  · next hNoClosing =>
      right
      refine ⟨fun b => ⟨?_, ?_⟩, (Option.some.inj hNest).symm⟩
      · intro hOpening
        rw [Bracket.openedBy?_eq_some_iff.mpr hOpening] at hNoOpening
        exact absurd hNoOpening (by simp)
      · intro hClosing
        rw [Bracket.closedBy?_eq_some_iff.mpr hClosing] at hNoClosing
        exact absurd hNoClosing (by simp)

theorem nestAll_cons_eq_some_iff
    {opened final : List Bracket}
    {c : Char}
    {cs : List Char} :
    nestAll opened (c :: cs) = some final ↔
      ∃ inner, nest opened c = some inner ∧ nestAll inner cs = some final :=
  Option.bind_eq_some_iff

theorem nestAll_append_eq_some_iff
    {opened final : List Bracket}
    {as bs : List Char} :
    nestAll opened (as ++ bs) = some final ↔
      ∃ inner, nestAll opened as = some inner ∧ nestAll inner bs = some final := by
  induction as generalizing opened with
  | nil => simp [nestAll]
  | cons c as ih =>
      rw [List.cons_append, nestAll_cons_eq_some_iff]
      simp only [ih, nestAll_cons_eq_some_iff]
      constructor
      · rintro ⟨next, hNext, inner, hAs, hBs⟩
        exact ⟨inner, ⟨next, hNext, hAs⟩, hBs⟩
      · rintro ⟨inner, ⟨next, hNext, hAs⟩, hBs⟩
        exact ⟨next, hNext, inner, hAs, hBs⟩

/- Each kind of bracket is open as often as it was opened and not closed. -/
theorem count_nest
    {opened inner : List Bracket}
    {c : Char}
    (hNest : nest opened c = some inner)
    (b : Bracket) :
    inner.count b + [c].count b.closing = opened.count b + [c].count b.opening := by
  rcases nest_cases hNest with ⟨other, rfl, rfl⟩ | ⟨other, rfl, rfl⟩ | ⟨hPlain, rfl⟩
  · simp [List.count_cons, Bracket.opening_inj, Bracket.opening_ne_closing]
  · simp [List.count_cons, Bracket.closing_inj, (Bracket.opening_ne_closing _ _).symm]
  · simp [hPlain b]

theorem count_nestAll
    {opened final : List Bracket}
    {code : List Char}
    (hNest : nestAll opened code = some final)
    (b : Bracket) :
    final.count b + code.count b.closing = opened.count b + code.count b.opening := by
  induction code generalizing opened with
  | nil =>
      rw [nestAll, Option.some.injEq] at hNest
      rw [hNest]
      rfl
  | cons c code ih =>
      rcases nestAll_cons_eq_some_iff.mp hNest with ⟨inner, hFirst, hOthers⟩
      have hStep := count_nest hFirst b
      have hRest := ih hOthers
      rw [List.count_cons (l := code), List.count_cons (l := code)]
      simp only [List.count_singleton] at hStep
      omega

------------------------------------------------------------
-- Properly nested texts
------------------------------------------------------------

/-
  A text closes the brackets that are open in front of it, in
  order, and any others that it opens itself, and closes every
  string literal that it opens.
-/
def Closes
    (opened : List Bracket)
    (cs : List Char) : Prop :=
  Cursor.outside.run cs = .outside ∧ nestAll opened (Cursor.outside.code cs) = some []

instance
    (opened : List Bracket)
    (cs : List Char) :
    Decidable (Closes opened cs) := by
  unfold Closes
  infer_instance

/-
  The brackets of a text are properly nested and closed outside
  string literals, and its string literals are closed.
-/
def WellNested (cs : List Char) : Prop :=
  Closes [] cs

instance
    (cs : List Char) :
    Decidable (WellNested cs) := by
  unfold WellNested
  infer_instance

/- What is in front in a properly nested text leaves certain brackets open. -/
theorem Closes.exists_openBrackets
    {front back : List Char}
    (hCloses : Closes [] (front ++ back)) :
    ∃ opened, openBrackets front = some opened := by
  rcases hCloses with ⟨-, hNest⟩
  rw [Cursor.code_append, nestAll_append_eq_some_iff] at hNest
  rcases hNest with ⟨opened, hFront, -⟩
  exact ⟨opened, hFront⟩

/- No bracket is open exactly if all brackets are matched in number. -/
theorem openBrackets_eq_nil_iff
    {cs : List Char}
    {opened : List Bracket}
    (hOpen : openBrackets cs = some opened) :
    opened = [] ↔ matched cs = true := by
  have hCount := count_nestAll hOpen
  simp only [List.count_nil, Nat.zero_add] at hCount
  have hRound := hCount .round
  have hSquare := hCount .square
  have hCurly := hCount .curly
  simp only [Bracket.opening, Bracket.closing] at hRound hSquare hCurly
  simp only [matched, Bool.and_eq_true, beq_iff_eq]
  constructor
  · rintro rfl
    simp only [List.count_nil, Nat.zero_add] at hRound hSquare hCurly
    exact ⟨⟨hRound.symm, hSquare.symm⟩, hCurly.symm⟩
  · rintro ⟨⟨hRounds, hSquares⟩, hCurlies⟩
    rw [List.eq_nil_iff_forall_not_mem]
    intro b hMember
    have hPositive := List.count_pos_iff.mpr hMember
    cases b with
    | round => omega
    | square => omega
    | curly => omega

/- Where brackets are properly nested, none is closed before it is opened. -/
theorem WellNested.opensFirst
    {cs : List Char}
    (hNested : WellNested cs) :
    OpensFirst cs := by
  rintro front ⟨back, rfl⟩
  rcases hNested.exists_openBrackets with ⟨opened, hOpen⟩
  have hCount := count_nestAll hOpen .square
  simp only [List.count_nil, Bracket.opening, Bracket.closing] at hCount
  omega

------------------------------------------------------------
-- Bracketed accesses
------------------------------------------------------------

namespace Access

/-
  A character of code inside a bracketed access, of which
  `inner` are the open brackets: it closes the access, or the
  scan goes on with as many square brackets as are open then.
-/
theorem bracketStep_of_nest
    {inner base next : List Bracket}
    {c : Char}
    (hLast : inner.getLast? = some .square)
    (hCode : (Cursor.outside.step c).isLiteral = false)
    (hNest : nest (inner ++ base) c = some next) :
    (bracketStep .outside (inner.count .square) c = none ∧ c = ']' ∧ next = base) ∨
      ∃ deeper colon,
        bracketStep .outside (inner.count .square) c = some (deeper.count .square, colon) ∧
          deeper.getLast? = some .square ∧
          next = deeper ++ base := by
  have hSome : inner ≠ [] := by
    rintro rfl
    simp at hLast
  rcases nest_cases hNest with ⟨b, rfl, rfl⟩ | ⟨b, rfl, hOpen⟩ | ⟨hPlain, rfl⟩
  · right
    refine ⟨b :: inner, false, ?_, ?_, rfl⟩
    · cases b with
      | round => rfl
      | square => rw [List.count_cons_self]; rfl
      | curly => rfl
    · rw [List.getLast?_cons, hLast, Option.getD_some]
  · rcases List.exists_cons_of_ne_nil hSome with ⟨innermost, others, rfl⟩
    rw [List.cons_append, List.cons.injEq] at hOpen
    rcases hOpen with ⟨rfl, rfl⟩
    by_cases hOthers : others = []
    · left
      subst hOthers
      obtain rfl : innermost = .square := by simpa using hLast
      exact ⟨rfl, rfl, rfl⟩
    · have hOuter : others.getLast? = some .square := by
        rwa [List.getLast?_cons_of_ne_nil hOthers] at hLast
      have hPositive : 0 < others.count .square :=
        List.count_pos_iff.mpr (List.mem_of_getLast? hOuter)
      right
      refine ⟨others, false, ?_, hOuter, rfl⟩
      cases innermost with
      | round => rfl
      | square =>
          have hDeep : ¬ others.count .square + 1 ≤ 1 := by omega
          rw [List.count_cons_self]
          exact if_neg hDeep
      | curly => rfl
  · right
    have hOpening := (hPlain .square).1
    have hClosing := (hPlain .square).2
    simp only [Bracket.opening, Bracket.closing] at hOpening hClosing
    have hStep : bracketStep .outside (inner.count .square) c =
        some (inner.count .square, c = ':' && inner.count .square = 1) := by
      simp [bracketStep, hCode, hOpening, hClosing]
    exact ⟨inner, _, hStep, hLast, rfl⟩

/-
  In a text that closes all brackets, a bracketed access closes
  those that were opened in it, `inner`, and no others, and ends
  with a bracket.
-/
theorem nestAll_body
    {inner base : List Bracket}
    {k : Cursor}
    {cs : List Char}
    (hLast : inner.getLast? = some .square)
    (hNest : nestAll (inner ++ base) (k.code cs) = some []) :
    nestAll (inner ++ base) (k.code (bracketSpan k (inner.count .square) cs).body) = some base ∧
      (bracketSpan k (inner.count .square) cs).body.getLast? = some ']' := by
  induction cs generalizing k inner with
  | nil =>
      rw [Cursor.code_nil, nestAll, Option.some.injEq, List.append_eq_nil_iff] at hNest
      rw [hNest.1] at hLast
      simp at hLast
  | cons c cs ih =>
      cases hStep : (k.step c).isLiteral with
      | true =>
          have hGoes : bracketStep k (inner.count .square) c = some (inner.count .square, false) :=
            if_pos hStep
          rw [Cursor.code_cons_of_literal hStep] at hNest
          rcases ih hLast hNest with ⟨hBody, hEnd⟩
          rw [bracketSpan_of_continues hGoes, BracketSpan.push, Cursor.code_cons_of_literal hStep,
            List.getLast?_cons, hEnd]
          exact ⟨hBody, rfl⟩
      | false =>
          obtain rfl : k = .outside := ((Cursor.isLiteral_step_eq_false_iff k c).mp hStep).1
          rw [Cursor.code_cons_of_code hStep] at hNest
          rcases nestAll_cons_eq_some_iff.mp hNest with ⟨next, hFirst, hOthers⟩
          rcases bracketStep_of_nest hLast hStep hFirst with
            ⟨hCloses, rfl, rfl⟩ | ⟨deeper, colon, hGoes, hDeeper, rfl⟩
          · rw [bracketSpan_of_closes hCloses, Cursor.code_cons_of_code hStep]
            exact ⟨nestAll_cons_eq_some_iff.mpr ⟨next, hFirst, rfl⟩, rfl⟩
          · rcases ih hDeeper hOthers with ⟨hBody, hEnd⟩
            rw [bracketSpan_of_continues hGoes, BracketSpan.push, Cursor.code_cons_of_code hStep,
              List.getLast?_cons, hEnd]
            exact ⟨nestAll_cons_eq_some_iff.mpr ⟨_, hFirst, hBody⟩, rfl⟩

/- A bracketed access leaves the open brackets as they are. -/
theorem nestAll_bracket
    {body rest : List Char}
    {slice suppressed : Bool}
    {opened : List Bracket}
    (hFits : (bracket body slice suppressed).Fits rest)
    (hNest : nestAll opened
      (Cursor.outside.code ((bracket body slice suppressed).text ++ rest)) = some []) :
    nestAll opened (Cursor.outside.code (bracket body slice suppressed).text) = some opened ∧
      body.getLast? = some ']' := by
  rcases hFits with ⟨inner, -, hSpan, -⟩
  rw [bracketSpan_open, BracketSpan.push, BracketSpan.mk.injEq] at hSpan
  rcases hSpan with ⟨rfl, rfl, hRest⟩
  have hWhole := body_append_rest .outside 1 inner
  rw [hRest] at hWhole
  rw [text, List.cons_append, List.append_assoc, List.cons_append, hWhole] at hNest
  have hInner : nestAll ([.square] ++ opened) (Cursor.outside.code inner) = some [] := hNest
  rcases nestAll_body rfl hInner with ⟨hBody, hEnd⟩
  have hText : nestAll ([.square] ++ opened) (Cursor.outside.code
      ((bracketSpan .outside 1 inner).body ++ mark suppressed)) = some opened := by
    rw [Cursor.code_append, nestAll_append_eq_some_iff]
    refine ⟨opened, hBody, ?_⟩
    cases suppressed with
    | false => rfl
    | true =>
        have hRun := (run_body .outside 1 inner).resolve_right (by simp [hRest, mark])
        rw [hRun]
        rfl
  refine ⟨hText, ?_⟩
  rw [List.getLast?_cons]
  exact congrArg (fun last => some (last.getD '[')) hEnd

end Access

------------------------------------------------------------
-- Lexemes
------------------------------------------------------------

namespace Lexeme

/- Only the braces themselves change the number of open braces. -/
theorem depthAfter_operator
    {text : List Char}
    (hOpening : text ≠ ['\x7b'])
    (hClosing : text ≠ ['\x7d'])
    (depth : Int) :
    (operator text).depthAfter depth = depth := by
  unfold depthAfter
  split
  · next hText => exact absurd (operator.inj hText) hOpening
  · next hText => exact absurd (operator.inj hText) hClosing
  · rfl

/-
  The braces that are counted from lexeme to lexeme are the open
  ones, though those inside an access are not lexemes.
-/
theorem Fits.count_curly
    {lexeme : Lexeme}
    {rest : List Char}
    {opened inner : List Bracket}
    (hFits : lexeme.Fits rest)
    (hWhole : nestAll opened (Cursor.outside.code (lexeme.text ++ rest)) = some [])
    (hText : nestAll opened (Cursor.outside.code lexeme.text) = some inner) :
    (inner.count .curly : Int) = lexeme.depthAfter (opened.count .curly) := by
  have hCount := count_nestAll hText .curly
  -- Without braces among its code a lexeme leaves their number as it is.
  have hNone : '\x7b' ∉ lexeme.text → '\x7d' ∉ lexeme.text →
      inner.count .curly = opened.count .curly := by
    intro hOpening hClosing
    have hSublist := Cursor.outside.code_sublist lexeme.text
    have hNoOpening := List.count_eq_zero.mpr fun hMember => hOpening (hSublist.mem hMember)
    have hNoClosing := List.count_eq_zero.mpr fun hMember => hClosing (hSublist.mem hMember)
    simp only [Bracket.opening, Bracket.closing, hNoOpening, hNoClosing] at hCount
    omega
  cases hPlain : lexeme.isPlain with
  | true =>
      have hSame := hNone (not_mem_text hFits hPlain (by decide))
        (not_mem_text hFits hPlain (by decide))
      cases lexeme with
      | operator text => exact Bool.noConfusion hPlain
      | _ => exact congrArg _ hSame
  | false =>
      match lexeme, hPlain with
      | literal text, _ =>
          rw [Lexeme.text, hFits.code_literal, nestAll, Option.some.injEq] at hText
          rw [hText]
          rfl
      | operator text, _ =>
          by_cases hOpening : text = ['\x7b']
          · subst hOpening
            have hOpened : inner.count .curly + 0 = opened.count .curly + 1 := hCount
            simp only [depthAfter]
            omega
          by_cases hClosing : text = ['\x7d']
          · subst hClosing
            have hClosed : inner.count .curly + 1 = opened.count .curly + 0 := hCount
            simp only [depthAfter]
            omega
          rw [depthAfter_operator hOpening hClosing]
          apply congrArg
          rcases hFits with hLong | ⟨-, c, -, rfl⟩
          · have hBraces : ∀ long ∈ longOperators, '\x7b' ∉ long ∧ '\x7d' ∉ long := by
              decide
            have hBrace := hBraces text (mem_of_longOperator? hLong).1
            exact hNone hBrace.1 hBrace.2
          · apply hNone
            · simpa [Lexeme.text, eq_comm] using hOpening
            · simpa [Lexeme.text, eq_comm] using hClosing
      | access (.bracket body slice suppressed), _ =>
          rw [Lexeme.text, (Access.nestAll_bracket hFits hWhole).1, Option.some.injEq] at hText
          rw [hText]
          rfl
      | stray c, _ =>
          have hShort : c ∉ shortOperators := hFits.2.2.2.2
          apply congrArg
          apply hNone
          · intro hMember
            rw [← List.mem_singleton.mp hMember] at hShort
            exact hShort (by decide)
          · intro hMember
            rw [← List.mem_singleton.mp hMember] at hShort
            exact hShort (by decide)

/-
  In a properly nested text a lexeme leads from the brackets
  that are open in front of it to those open behind it.
-/
theorem Fits.nest
    {lexeme : Lexeme}
    {rest : List Char}
    {opened : List Bracket}
    (hFits : lexeme.Fits rest)
    (hCloses : Closes opened (lexeme.text ++ rest)) :
    ∃ inner,
      nestAll opened (Cursor.outside.code lexeme.text) = some inner ∧
        Cursor.outside.run lexeme.text = .outside ∧
        Closes inner rest ∧
        (inner.count .curly : Int) = lexeme.depthAfter (opened.count .curly) := by
  rcases hCloses with ⟨hRun, hNest⟩
  have hOutside : Cursor.outside.run lexeme.text = .outside := by
    rcases run_text hFits with hText | hRest
    · exact hText
    · rwa [hRest, List.append_nil] at hRun
  have hParts := hNest
  rw [Cursor.code_append, nestAll_append_eq_some_iff, hOutside] at hParts
  rcases hParts with ⟨inner, hText, hOthers⟩
  rw [Cursor.run_append, hOutside] at hRun
  exact ⟨inner, hText, hOutside, ⟨hRun, hOthers⟩, hFits.count_curly hNest hText⟩

end Lexeme

end JqLens
