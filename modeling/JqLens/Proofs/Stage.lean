import JqLens.Pipeline
import JqLens.Text.Lines
import JqLens.Proofs.Blank
import JqLens.Proofs.Quote

/-
  This file develops the theory of stage boundaries. The search
  for them keeps a cursor and the numbers of open brackets; both
  depend only on the text behind it, so that whether a pipe is a
  boundary is a matter of the text around it. Cutting a text at
  its boundaries is then defined one character at a time, and
  shown to be what the search does.

  Key definitions include:
    * `Place`
    * `Place.isBoundary`
    * `Place.cut`
    * `Place.Uncut`

  Main results:
    * `Depths.afterAll_eq`
    * `pieces_eq_cut`
    * `Place.joinWith_cut`
    * `Place.cut_append`
    * `stages_eq_singleton_iff`
    * `toList_cumulative`
-/

namespace JqLens

open Quote (Cursor)

------------------------------------------------------------
-- Numbers of open brackets
------------------------------------------------------------

namespace Depths

/- The numbers after a text of filter code. -/
def afterAll
    (d : Depths)
    (code : List Char) : Depths :=
  code.foldl after d

@[simp] theorem afterAll_nil
    (d : Depths) :
    d.afterAll [] = d := rfl

@[simp] theorem afterAll_cons
    (d : Depths)
    (c : Char)
    (code : List Char) :
    d.afterAll (c :: code) = (d.after c).afterAll code := rfl

/- The numbers count what is opened and closed in the text. -/
theorem afterAll_eq
    (d : Depths)
    (code : List Char) :
    d.afterAll code =
      { round := d.round + code.count '(' - code.count ')'
        square := d.square + code.count '[' - code.count ']'
        curly := d.curly + code.count '\x7b' - code.count '\x7d' } := by
  induction code generalizing d with
  | nil => simp
  | cons c code ih =>
      rw [afterAll_cons, ih, Depths.mk.injEq]
      simp only [List.count_cons, beq_iff_eq]
      unfold after
      split
      all_goals
        simp_all
        try omega

theorem square_afterAll
    (d : Depths)
    (code : List Char) :
    (d.afterAll code).square = d.square + code.count '[' - code.count ']' := by
  rw [afterAll_eq]

/- From the start of a filter, all brackets of a text are matched in number. -/
theorem balanced_afterAll
    (code : List Char) :
    (Depths.afterAll {} code).balanced = true ↔
      code.count '(' = code.count ')' ∧
        code.count '[' = code.count ']' ∧
        code.count '\x7b' = code.count '\x7d' := by
  rw [afterAll_eq]
  simp only [balanced, Bool.and_eq_true, beq_iff_eq]
  omega

end Depths

------------------------------------------------------------
-- First pieces
------------------------------------------------------------

theorem modifyHead_nil_append
    (pieces : List (List Char)) :
    pieces.modifyHead ([] ++ ·) = pieces := by
  cases pieces <;> rfl

/- A character read goes to the end of the piece read so far. -/
theorem modifyHead_push
    (piece : List Char)
    (c : Char)
    (pieces : List (List Char)) :
    (pieces.modifyHead (c :: ·)).modifyHead (piece.reverse ++ ·) =
      pieces.modifyHead ((c :: piece).reverse ++ ·) := by
  cases pieces <;> simp

------------------------------------------------------------
-- Places
------------------------------------------------------------

/- Where the search for stage boundaries stands. -/
structure Place where
  cursor : Cursor := .outside
  depths : Depths := {}
  deriving DecidableEq, Repr

namespace Place

/- The place after one more character. -/
def next
    (p : Place)
    (c : Char) : Place :=
  { cursor := p.cursor.next c
    depths := if (p.cursor.step c).isLiteral then p.depths else p.depths.after c }

theorem next_of_literal
    {p : Place}
    {c : Char}
    (hLiteral : (p.cursor.step c).isLiteral = true) :
    p.next c = ⟨p.cursor.next c, p.depths⟩ := by
  simp [next, hLiteral]

theorem next_of_code
    {p : Place}
    {c : Char}
    (hCode : (p.cursor.step c).isLiteral = false) :
    p.next c = ⟨p.cursor.next c, p.depths.after c⟩ := by
  simp [next, hCode]

/- The place after a whole text. -/
def run
    (p : Place)
    (cs : List Char) : Place :=
  cs.foldl next p

@[simp] theorem run_nil
    (p : Place) :
    p.run [] = p := rfl

@[simp] theorem run_cons
    (p : Place)
    (c : Char)
    (cs : List Char) :
    p.run (c :: cs) = (p.next c).run cs := rfl

@[simp] theorem run_append
    (p : Place)
    (as bs : List Char) :
    p.run (as ++ bs) = (p.run as).run bs :=
  List.foldl_append

/- A place is the cursor after the text and the brackets of its code. -/
theorem run_eq
    (p : Place)
    (cs : List Char) :
    p.run cs =
      { cursor := p.cursor.run cs
        depths := p.depths.afterAll (p.cursor.code cs) } := by
  induction cs generalizing p with
  | nil => rfl
  | cons c cs ih =>
      rw [run_cons, ih]
      cases hStep : (p.cursor.step c).isLiteral with
      | true => simp [next, hStep, Cursor.code_cons_of_literal hStep]
      | false => simp [next, hStep, Cursor.code_cons_of_code hStep]

end Place

------------------------------------------------------------
-- Boundaries
------------------------------------------------------------

namespace Place

/-
  A pipe that comes next, with `behind` behind it, is a stage
  boundary: it is filter code outside all brackets and no first
  half of the update operator.
-/
def isBoundary
    (p : Place)
    (behind : List Char) : Bool :=
  p.cursor == .outside && behind.head? != some '=' && p.depths.balanced

/- Cut a text at its stage boundaries. -/
def cut
    (p : Place) : List Char → List (List Char)
  | [] => [[]]
  | c :: cs =>
      if c == '|' && p.isBoundary cs then [] :: cut (p.next c) cs
      else (cut (p.next c) cs).modifyHead (c :: ·)

/- No pipe of a text with `rest` behind it is a stage boundary. -/
def Uncut
    (p : Place)
    (rest cs : List Char) : Prop :=
  ∀ before behind, cs = before ++ '|' :: behind →
    (p.run before).isBoundary (behind ++ rest) = false

/- A pipe inside a literal is no boundary. -/
theorem isBoundary_of_literal
    {p : Place}
    (hLiteral : (p.cursor.step '|').isLiteral = true)
    (behind : List Char) :
    p.isBoundary behind = false := by
  have hInside : p.cursor ≠ .outside := by
    intro hOutside
    rw [hOutside] at hLiteral
    exact absurd hLiteral (by decide)
  simp [isBoundary, hInside]

theorem cut_boundary
    {p : Place}
    {behind : List Char}
    (hBoundary : p.isBoundary behind = true) :
    p.cut ('|' :: behind) = [] :: (p.next '|').cut behind := by
  simp [cut, hBoundary]

theorem cut_cons_of_uncut
    {p : Place}
    {c : Char}
    {cs : List Char}
    (hUncut : c = '|' → p.isBoundary cs = false) :
    p.cut (c :: cs) = ((p.next c).cut cs).modifyHead (c :: ·) := by
  by_cases hPipe : c = '|'
  · simp [cut, hUncut hPipe]
  · simp [cut, hPipe]

/- There is always a piece, though it may be empty. -/
theorem cut_ne_nil
    (p : Place)
    (cs : List Char) :
    p.cut cs ≠ [] := by
  induction cs generalizing p with
  | nil => simp [cut]
  | cons c cs ih =>
      unfold cut
      split
      · simp
      · simpa using ih _

theorem uncut_cons_iff
    {p : Place}
    {rest cs : List Char}
    {c : Char} :
    p.Uncut rest (c :: cs) ↔
      (c = '|' → p.isBoundary (cs ++ rest) = false) ∧
        (p.next c).Uncut rest cs := by
  constructor
  · intro hUncut
    refine ⟨?_, ?_⟩
    · rintro rfl
      exact hUncut [] cs rfl
    · intro before behind hEqual
      exact hUncut (c :: before) behind (by rw [hEqual]; rfl)
  · rintro ⟨hHead, hTail⟩ before behind hEqual
    rcases before with _ | ⟨d, before⟩
    · rw [List.nil_append, List.cons.injEq] at hEqual
      rw [← hEqual.2]
      exact hHead hEqual.1
    · rw [List.cons_append, List.cons.injEq] at hEqual
      rw [← hEqual.1]
      exact hTail before behind hEqual.2

/- A text without boundaries belongs to the first piece as a whole. -/
theorem cut_append
    {p : Place}
    {cs rest : List Char}
    (hUncut : p.Uncut rest cs) :
    p.cut (cs ++ rest) = ((p.run cs).cut rest).modifyHead (cs ++ ·) := by
  induction cs generalizing p with
  | nil => exact (modifyHead_nil_append _).symm
  | cons c cs ih =>
      rw [uncut_cons_iff] at hUncut
      rw [List.cons_append, cut_cons_of_uncut hUncut.1, ih hUncut.2,
        List.modifyHead_modifyHead]
      rfl

/- A text in whose code there is no pipe has no boundaries. -/
theorem uncut_of_not_mem_code
    {p : Place}
    {cs : List Char}
    (hPipe : '|' ∉ p.cursor.code cs)
    (rest : List Char) :
    p.Uncut rest cs := by
  intro before behind hEqual
  rw [← Bool.not_eq_true]
  intro hBoundary
  simp only [isBoundary, Bool.and_eq_true, beq_iff_eq] at hBoundary
  apply hPipe
  rw [hEqual, Cursor.code_append, List.mem_append]
  right
  rw [run_eq] at hBoundary
  have hOutside : p.cursor.run before = .outside := hBoundary.1.1
  rw [hOutside, Cursor.code_cons_of_code rfl]
  exact List.mem_cons_self

/- A text without pipes has no boundaries. -/
theorem uncut_of_not_mem
    {p : Place}
    {cs : List Char}
    (hPipe : '|' ∉ cs)
    (rest : List Char) :
    p.Uncut rest cs :=
  uncut_of_not_mem_code (fun hMember => hPipe ((p.cursor.code_sublist cs).mem hMember)) rest

/- A text that is its only piece has no boundaries. -/
theorem uncut_of_cut
    {p : Place}
    {cs : List Char}
    (hCut : p.cut cs = [cs]) :
    p.Uncut [] cs := by
  induction cs generalizing p with
  | nil =>
      intro before behind hEqual
      simp at hEqual
  | cons c cs ih =>
      rw [uncut_cons_iff, List.append_nil]
      unfold cut at hCut
      split at hCut
      · simp at hCut
      · next hUncut =>
          refine ⟨?_, ih ?_⟩
          · rintro rfl
            simpa using hUncut
          · rcases hTail : (p.next c).cut cs with _ | ⟨piece, pieces⟩
            · exact absurd hTail (cut_ne_nil _ _)
            · rw [hTail] at hCut
              simpa using hCut

/- The pieces with pipes between them are the text. -/
theorem joinWith_cut
    (p : Place)
    (cs : List Char) :
    Text.joinWith ['|'] (p.cut cs) = cs := by
  induction cs generalizing p with
  | nil => rfl
  | cons c cs ih =>
      have hJoin := ih (p.next c)
      rcases hCut : (p.next c).cut cs with _ | ⟨piece, pieces⟩
      · exact absurd hCut (cut_ne_nil _ _)
      rw [hCut] at hJoin
      unfold cut
      split
      · next hBoundary =>
          simp only [Bool.and_eq_true, beq_iff_eq] at hBoundary
          rw [hCut, Text.joinWith_cons_cons, hJoin, hBoundary.1]
          rfl
      · rw [hCut, List.modifyHead_cons]
        cases pieces with
        | nil =>
            rw [Text.joinWith] at hJoin ⊢
            rw [hJoin]
        | cons second pieces =>
            rw [Text.joinWith_cons_cons] at hJoin ⊢
            rw [← hJoin]
            rfl

end Place

------------------------------------------------------------
-- The search
------------------------------------------------------------

theorem pieces_of_literal
    {k : Cursor}
    {c : Char}
    (hLiteral : (k.step c).isLiteral = true)
    (d : Depths)
    (piece cs : List Char) :
    pieces k d piece (c :: cs) = pieces (k.next c) d (c :: piece) cs := by
  rw [pieces.eq_def]
  exact if_pos hLiteral

theorem pieces_of_code
    {k : Cursor}
    {c : Char}
    (hCode : (k.step c).isLiteral = false)
    (hPipe : c ≠ '|')
    (d : Depths)
    (piece cs : List Char) :
    pieces k d piece (c :: cs) = pieces (k.next c) (d.after c) (c :: piece) cs := by
  have hInside : ¬ (k.step c).isLiteral = true := by simp [hCode]
  rw [pieces.eq_def]
  exact (if_neg hInside).trans (if_neg hPipe)

theorem pieces_update
    (d : Depths)
    (piece cs : List Char) :
    pieces .outside d piece ('|' :: '=' :: cs) =
      pieces .outside d ('=' :: '|' :: piece) cs := by
  rw [pieces]
  rfl

theorem pieces_pipe
    {cs : List Char}
    (hUpdate : cs.head? ≠ some '=')
    (d : Depths)
    (piece : List Char) :
    pieces .outside d piece ('|' :: cs) =
      if d.balanced then piece.reverse :: pieces .outside d [] cs
      else pieces .outside d ('|' :: piece) cs := by
  rw [pieces.eq_def]
  refine Eq.trans (if_neg (by decide)) (Eq.trans (if_pos rfl) ?_)
  split
  · simp at hUpdate
  · rfl

/-
  The search for boundaries cuts a text at them. The second
  half of an update operator changes neither the cursor nor the
  number of open brackets, so that it may be skipped.
-/
theorem pieces_eq_cut
    (k : Cursor)
    (d : Depths)
    (piece : List Char) : (cs : List Char) →
    pieces k d piece cs =
      ((Place.mk k d).cut cs).modifyHead (piece.reverse ++ ·)
  | [] => by simp [pieces, Place.cut]
  | c :: cs => by
      cases hStep : (k.step c).isLiteral with
      | true =>
          have hUncut : c = '|' → (Place.mk k d).isBoundary cs = false := by
            rintro rfl
            exact Place.isBoundary_of_literal hStep cs
          rw [pieces_of_literal hStep, pieces_eq_cut, Place.cut_cons_of_uncut hUncut,
            Place.next_of_literal hStep, modifyHead_push]
      | false =>
          rcases (Cursor.isLiteral_step_eq_false_iff k c).mp hStep with ⟨rfl, -⟩
          by_cases hPipe : c = '|'
          · subst hPipe
            by_cases hUpdate : cs.head? = some '='
            · -- The search skips the second half, the cut takes it on its own.
              rcases List.head?_eq_some_iff.mp hUpdate with ⟨cs, rfl⟩
              have hUncut : '|' = '|' →
                  (Place.mk .outside d).isBoundary ('=' :: cs) = false := by
                intro _
                simp [Place.isBoundary]
              rw [pieces_update, pieces_eq_cut, Place.cut_cons_of_uncut hUncut,
                Place.next_of_code rfl, Place.cut_cons_of_uncut (by simp),
                Place.next_of_code rfl, modifyHead_push, modifyHead_push]
              rfl
            · rw [pieces_pipe hUpdate]
              cases hBalanced : d.balanced with
              | true =>
                  have hBoundary : (Place.mk .outside d).isBoundary cs = true := by
                    simp [Place.isBoundary, hBalanced, hUpdate]
                  rw [if_pos rfl, pieces_eq_cut, Place.cut_boundary hBoundary,
                    List.modifyHead_cons, List.append_nil, Place.next_of_code rfl,
                    List.reverse_nil, modifyHead_nil_append]
                  rfl
              | false =>
                  have hUncut : '|' = '|' →
                      (Place.mk .outside d).isBoundary cs = false := by
                    intro _
                    simp [Place.isBoundary, hBalanced]
                  rw [if_neg Bool.false_ne_true, pieces_eq_cut,
                    Place.cut_cons_of_uncut hUncut, Place.next_of_code rfl, modifyHead_push]
                  rfl
          · have hUncut : c = '|' → (Place.mk .outside d).isBoundary cs = false :=
              fun hEqual => absurd hEqual hPipe
            rw [pieces_of_code hStep hPipe, pieces_eq_cut, Place.cut_cons_of_uncut hUncut,
              Place.next_of_code hStep, modifyHead_push]
  termination_by cs => cs.length

/- The stages of a filter are its pieces, trimmed, as far as they have text. -/
theorem stages_eq
    (filter : List Char) :
    stages filter =
      ((Place.cut {} filter).map Text.trim).filter fun stage => !stage.isEmpty := by
  have hPieces := pieces_eq_cut .outside {} [] filter
  rw [List.reverse_nil, modifyHead_nil_append] at hPieces
  rw [stages, hPieces]

/- Among several, a piece is shorter than all of them joined. -/
theorem length_lt_joinWith
    {separator piece : List Char}
    {pieces : List (List Char)}
    (hSeparator : separator ≠ [])
    (hMember : piece ∈ pieces)
    (hSeveral : pieces ≠ [piece]) :
    piece.length < (Text.joinWith separator pieces).length := by
  have hPositive : 0 < separator.length := List.length_pos_iff.mpr hSeparator
  induction pieces with
  | nil => simp at hMember
  | cons first pieces ih =>
      rcases pieces with _ | ⟨second, pieces⟩
      · rw [List.mem_singleton] at hMember
        exact absurd (by rw [hMember]) hSeveral
      · rw [Text.joinWith_cons_cons, List.length_append, List.length_append]
        rcases List.mem_cons.mp hMember with hFirst | hTail
        · rw [hFirst]
          omega
        · by_cases hOnly : second :: pieces = [piece]
          · rw [hOnly, Text.joinWith]
            omega
          · have hShorter := ih hTail hOnly
            omega

/- Cutting and trimming leave a trimmed filter whole exactly if it has no boundaries. -/
theorem stages_eq_singleton_iff
    {filter : List Char}
    (hText : filter ≠ [])
    (hTrim : Text.trim filter = filter) :
    stages filter = [filter] ↔ Place.Uncut {} [] filter := by
  rw [stages_eq]
  constructor
  · intro hStages
    have hStage := List.mem_singleton_self filter
    rw [← hStages] at hStage
    have hMember := (List.mem_filter.mp hStage).1
    rcases List.mem_map.mp hMember with ⟨piece, hPiece, hFilter⟩
    -- The piece has the whole filter in it, so there is no room for another.
    have hOnly : Place.cut {} filter = [piece] := by
      by_contra hSeveral
      have hShorter := length_lt_joinWith (List.cons_ne_nil '|' []) hPiece hSeveral
      have hLonger := Text.length_trim_le piece
      rw [Place.joinWith_cut] at hShorter
      rw [hFilter] at hLonger
      omega
    have hJoin := Place.joinWith_cut {} filter
    rw [hOnly, Text.joinWith] at hJoin
    rw [hJoin] at hOnly
    exact Place.uncut_of_cut hOnly
  · intro hUncut
    have hCut := Place.cut_append hUncut
    rw [List.append_nil] at hCut
    rw [hCut]
    simp [Place.cut, hTrim, hText]

------------------------------------------------------------
-- Cumulative filters
------------------------------------------------------------

/- Joining two neighbours first makes no difference. -/
theorem joinWith_append
    (separator piece second : List Char)
    (pieces : List (List Char)) :
    Text.joinWith separator ((piece ++ separator ++ second) :: pieces) =
      Text.joinWith separator (piece :: second :: pieces) := by
  cases pieces with
  | nil => rw [Text.joinWith_cons_cons, Text.joinWith, Text.joinWith]
  | cons third pieces =>
      simp only [Text.joinWith_cons_cons, List.append_assoc]

/- A cumulative filter joins the stages so far with the ones up to its own. -/
theorem toList_cumulativeFrom
    {joined text : String}
    {stages : List String}
    {k : Nat}
    (hText : (cumulativeFrom joined stages)[k]? = some text) :
    text.toList =
      Text.joinWith stageSeparator.toList
        (joined.toList :: (stages.take (k + 1)).map String.toList) := by
  induction stages generalizing joined k with
  | nil => simp [cumulativeFrom] at hText
  | cons stage stages ih =>
      rw [cumulativeFrom] at hText
      cases k with
      | zero =>
          rw [List.getElem?_cons_zero, Option.some.injEq] at hText
          rw [← hText]
          simp [Text.joinWith]
      | succ k =>
          rw [List.getElem?_cons_succ] at hText
          rw [ih hText, String.toList_append, String.toList_append, joinWith_append]
          rfl

/- A cumulative filter joins the stages up to its own. -/
theorem toList_cumulative
    {text : String}
    {stages : List String}
    {k : Nat}
    (hText : (cumulative stages)[k]? = some text) :
    text.toList =
      Text.joinWith stageSeparator.toList ((stages.take (k + 1)).map String.toList) := by
  cases stages with
  | nil => simp [cumulative] at hText
  | cons stage stages =>
      rw [cumulative] at hText
      cases k with
      | zero =>
          rw [List.getElem?_cons_zero, Option.some.injEq] at hText
          rw [← hText]
          rfl
      | succ k =>
          rw [List.getElem?_cons_succ] at hText
          exact toList_cumulativeFrom hText

/- Numbering texts keeps them and their order. -/
theorem map_text_number
    (texts : List String) :
    (Stage.number texts).map Stage.text = texts := by
  rw [Stage.number, List.map_map]
  exact List.zipIdx_map_fst 1 texts

/- The text of a numbered cumulative filter. -/
theorem getElem?_progressive
    {filter : String}
    {progressive : Stage}
    {k : Nat}
    (hProgressive : (decompose filter).progressive[k]? = some progressive) :
    (cumulative (splitStages filter))[k]? = some progressive.text := by
  rw [← map_text_number (cumulative (splitStages filter)), List.getElem?_map]
  exact congrArg (Option.map Stage.text) hProgressive

end JqLens
