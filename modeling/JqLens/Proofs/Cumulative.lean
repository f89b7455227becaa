import JqLens.Proofs.Stage

/-
  This file proves that splitting undoes joining: a cumulative
  filter has the stages that it was joined from, so that its
  pipeline is the front part of the pipeline of the whole
  filter.

  Joining changes a filter around every boundary. Blanks are
  lost, other blanks come in, and empty stages disappear. What
  makes up for it is that at a boundary the search stands where
  it started: outside every literal, with all brackets matched
  in number. Only the last stage may leave a literal or a
  bracket open, and nothing is joined behind it.

  Key definitions include:
    * `Place.marks`
    * `Place.Parted`
    * `openLiteral`

  Main results:
    * `Place.parted_cut`
    * `parted_stages`
    * `stages_joinWith`
    * `splitStages_cumulative`
    * `decompose_progressive`
-/

namespace JqLens

open Quote (Cursor)

------------------------------------------------------------
-- Boundaries
------------------------------------------------------------

/- All brackets are matched in number where the search starts to count. -/
theorem Depths.balanced_iff
    (d : Depths) :
    d.balanced = true ↔ d = {} := by
  rcases d with ⟨round, square, curly⟩
  simp only [balanced, Bool.and_eq_true, beq_iff_eq, Depths.mk.injEq, and_assoc]

namespace Place

/- A boundary lies where the search could have started. -/
theorem isBoundary_iff
    {p : Place}
    {behind : List Char} :
    p.isBoundary behind = true ↔ p = {} ∧ behind.head? ≠ some '=' := by
  rcases p with ⟨cursor, depths⟩
  simp only [isBoundary, Bool.and_eq_true, beq_iff_eq, bne_iff_ne, Depths.balanced_iff,
    Place.mk.injEq]
  exact and_right_comm

/- Only the second half of an update operator matters behind a text. -/
theorem isBoundary_append
    {rest : List Char}
    (hRest : rest.head? ≠ some '=')
    (p : Place)
    (behind : List Char) :
    p.isBoundary (behind ++ rest) = p.isBoundary behind := by
  rw [Bool.eq_iff_iff, isBoundary_iff, isBoundary_iff]
  cases behind with
  | nil => simp [hRest]
  | cons c behind => simp

theorem uncut_append_iff
    {p : Place}
    {rest as bs : List Char} :
    p.Uncut rest (as ++ bs) ↔ p.Uncut (bs ++ rest) as ∧ (p.run as).Uncut rest bs := by
  induction as generalizing p with
  | nil =>
      exact (and_iff_right (uncut_of_not_mem List.not_mem_nil (bs ++ rest))).symm
  | cons c as ih =>
      rw [List.cons_append, uncut_cons_iff, uncut_cons_iff, ih, run_cons, and_assoc,
        List.append_assoc]

/- What stands behind a text makes no boundary in it, unless it is an equals sign. -/
theorem uncut_iff_of_head
    {p : Place}
    {rest cs : List Char}
    (hRest : rest.head? ≠ some '=') :
    p.Uncut rest cs ↔ p.Uncut [] cs := by
  unfold Uncut
  simp only [isBoundary_append hRest, List.append_nil]

------------------------------------------------------------
-- Blanks
------------------------------------------------------------

/- The characters that mean something to the search for boundaries. -/
def marks : List Char :=
  ['"', '\\', '(', ')', '[', ']', '\x7b', '\x7d', '|', '=']

/- A blank means nothing to the search. -/
theorem not_mem_marks
    {c : Char}
    (hBlank : Text.isBlank c = true) :
    c ∉ marks := by
  have hNone : marks.any Text.isBlank = false := by
    decide
  intro hMember
  exact List.any_eq_false.mp hNone c hMember hBlank

theorem ne_of_isBlank
    {c mark : Char}
    (hBlank : Text.isBlank c = true)
    (hMark : mark ∈ marks) :
    c ≠ mark := by
  rintro rfl
  exact not_mem_marks hBlank hMark

end Place

/- A blank opens and closes no bracket. -/
theorem Depths.after_blank
    {c : Char}
    (hBlank : Text.isBlank c = true)
    (d : Depths) :
    d.after c = d := by
  have hNone := Place.not_mem_marks hBlank
  unfold after
  split
  case h_7 => rfl
  all_goals exact absurd (by decide) hNone

namespace Place

/- Outside every literal a blank changes nothing. -/
theorem next_blank
    {p : Place}
    {c : Char}
    (hOutside : p.cursor = .outside)
    (hBlank : Text.isBlank c = true) :
    p.next c = p := by
  have hQuote : c ≠ '"' := ne_of_isBlank hBlank (by decide)
  rcases p with ⟨cursor, depths⟩
  subst hOutside
  have hCode : (Cursor.outside.step c).isLiteral = false :=
    (Cursor.isLiteral_step_eq_false_iff .outside c).mpr ⟨rfl, hQuote⟩
  rw [next_of_code hCode, Depths.after_blank hBlank, Cursor.next_outside hQuote]

/- A blank does not lead out of a literal. -/
theorem cursor_of_next_blank
    {p : Place}
    {c : Char}
    (hBlank : Text.isBlank c = true)
    (hOutside : (p.next c).cursor = .outside) :
    p.cursor = .outside := by
  have hQuote : c ≠ '"' := ne_of_isBlank hBlank (by decide)
  rw [← Cursor.inString_eq_false_iff] at hOutside ⊢
  rw [← Bool.not_eq_true] at hOutside ⊢
  exact fun hIn => hOutside (Cursor.inString_next hIn hQuote)

/- Blanks from outside every literal lead nowhere. -/
theorem run_blanks
    {p : Place}
    {blanks : List Char}
    (hOutside : p.cursor = .outside)
    (hBlanks : ∀ c ∈ blanks, Text.isBlank c = true) :
    p.run blanks = p := by
  induction blanks with
  | nil => rfl
  | cons c blanks ih =>
      rw [run_cons, next_blank hOutside (hBlanks c List.mem_cons_self)]
      exact ih fun d hMember => hBlanks d (List.mem_cons_of_mem c hMember)

/- Where blanks end outside every literal, they started there. -/
theorem cursor_of_run_blanks
    {p : Place}
    {blanks : List Char}
    (hBlanks : ∀ c ∈ blanks, Text.isBlank c = true)
    (hOutside : (p.run blanks).cursor = .outside) :
    p.cursor = .outside := by
  induction blanks generalizing p with
  | nil => exact hOutside
  | cons c blanks ih =>
      have hNext := ih (fun d hMember => hBlanks d (List.mem_cons_of_mem c hMember)) hOutside
      exact cursor_of_next_blank (hBlanks c List.mem_cons_self) hNext

theorem head?_ne_of_blanks
    {blanks rest : List Char}
    (hBlanks : ∀ c ∈ blanks, Text.isBlank c = true)
    (hRest : rest.head? ≠ some '=') :
    (blanks ++ rest).head? ≠ some '=' := by
  cases blanks with
  | nil => exact hRest
  | cons c blanks =>
      intro hHead
      rw [List.cons_append, List.head?_cons, Option.some.injEq] at hHead
      exact ne_of_isBlank (hBlanks c List.mem_cons_self) (by decide) hHead

/- A piece without boundaries has none when it is trimmed. -/
theorem uncut_trim
    {piece : List Char}
    (hUncut : Place.Uncut {} [] piece) :
    Place.Uncut {} [] (Text.trim piece) := by
  rcases Text.exists_blanks_trim piece with ⟨lead, trail, hLead, hTrail, hEqual⟩
  rw [hEqual, uncut_append_iff, run_blanks rfl hLead, uncut_append_iff] at hUncut
  exact (uncut_iff_of_head (head?_ne_of_blanks hTrail (by simp))).mp hUncut.2.1

/- A piece that leads back to the start does so when it is trimmed. -/
theorem run_trim
    {piece : List Char}
    (hBack : Place.run {} piece = {}) :
    Place.run {} (Text.trim piece) = {} := by
  rcases Text.exists_blanks_trim piece with ⟨lead, trail, hLead, hTrail, hEqual⟩
  rw [hEqual, run_append, run_blanks rfl hLead, run_append] at hBack
  have hOutside := cursor_of_run_blanks hTrail (congrArg Place.cursor hBack)
  rw [← run_blanks hOutside hTrail]
  exact hBack

------------------------------------------------------------
-- Pieces
------------------------------------------------------------

/-
  Texts that could stand between boundaries, the first one read
  from the place: none has a boundary in it, and each but the
  last leads back to the start of a search.
-/
def Parted
    (p : Place) : List (List Char) → Prop
  | [] => True
  | piece :: pieces =>
      p.Uncut [] piece ∧ (pieces ≠ [] → p.run piece = {}) ∧ Parted {} pieces

/- The first piece starts with an equals sign if the text does. -/
theorem head?_first_of_cut
    {p : Place}
    {cs first : List Char}
    {others : List (List Char)}
    (hCut : p.cut cs = first :: others)
    (hHead : cs.head? = some '=') :
    first.head? = some '=' := by
  rcases List.head?_eq_some_iff.mp hHead with ⟨cs, rfl⟩
  rcases hTail : (p.next '=').cut cs with _ | ⟨piece, pieces⟩
  · exact absurd hTail (cut_ne_nil _ _)
  · rw [cut_cons_of_uncut (by simp), hTail, List.modifyHead_cons, List.cons.injEq] at hCut
    rw [← hCut.1]
    rfl

/- Cutting a text leaves pieces that could stand between boundaries. -/
theorem parted_cut
    (p : Place)
    (cs : List Char) :
    p.Parted (p.cut cs) := by
  have hNone : ∀ q : Place, q.Uncut [] [] :=
    fun q => uncut_of_not_mem List.not_mem_nil []
  induction cs generalizing p with
  | nil => exact ⟨hNone p, fun hSome => absurd rfl hSome, trivial⟩
  | cons c cs ih =>
      have hTail := ih (p.next c)
      unfold cut
      split
      · next hBoundary =>
          rw [Bool.and_eq_true, beq_iff_eq, isBoundary_iff] at hBoundary
          rcases hBoundary with ⟨rfl, rfl, -⟩
          exact ⟨hNone _, fun _ => rfl, hTail⟩
      · next hUncut =>
          rcases hCut : (p.next c).cut cs with _ | ⟨first, others⟩
          · exact absurd hCut (cut_ne_nil _ _)
          rw [hCut] at hTail
          rcases hTail with ⟨hFirst, hBack, hOthers⟩
          rw [List.modifyHead_cons]
          refine ⟨?_, hBack, hOthers⟩
          rw [uncut_cons_iff, List.append_nil]
          refine ⟨?_, hFirst⟩
          rintro rfl
          rw [beq_self_eq_true, Bool.true_and, isBoundary_iff] at hUncut
          rw [← Bool.not_eq_true, isBoundary_iff]
          rintro ⟨hStart, hHead⟩
          exact hUncut ⟨hStart, fun hUpdate => hHead (head?_first_of_cut hCut hUpdate)⟩

/- Pieces may be left out. -/
theorem Parted.sublist
    {pieces kept : List (List Char)}
    (hParted : Place.Parted {} pieces)
    (hSublist : kept.Sublist pieces) :
    Place.Parted {} kept := by
  induction hSublist with
  | slnil => trivial
  | cons piece _ ih => exact ih hParted.2.2
  | cons_cons piece hTail ih =>
      refine ⟨hParted.1, ?_, ih hParted.2.2⟩
      intro hSome
      apply hParted.2.1
      rintro rfl
      exact hSome (List.sublist_nil.mp hTail)

/- Pieces may be trimmed. -/
theorem Parted.map_trim
    {pieces : List (List Char)}
    (hParted : Place.Parted {} pieces) :
    Place.Parted {} (pieces.map Text.trim) := by
  induction pieces with
  | nil => trivial
  | cons piece pieces ih =>
      refine ⟨uncut_trim hParted.1, ?_, ih hParted.2.2⟩
      intro hSome
      apply run_trim
      apply hParted.2.1
      rintro rfl
      exact hSome rfl

end Place

------------------------------------------------------------
-- Stages
------------------------------------------------------------

/- The stages of a filter could stand between boundaries. -/
theorem parted_stages
    (filter : List Char) :
    Place.Parted {} (stages filter) := by
  rw [stages_eq]
  exact (Place.parted_cut {} filter).map_trim.sublist List.filter_sublist

/- A stage has text and is trimmed. -/
theorem trim_of_mem_stages
    {filter stage : List Char}
    (hStage : stage ∈ stages filter) :
    stage ≠ [] ∧ Text.trim stage = stage := by
  rw [stages_eq, List.mem_filter, List.mem_map] at hStage
  rcases hStage with ⟨⟨piece, -, rfl⟩, hText⟩
  refine ⟨?_, Text.trim_trim piece⟩
  simpa using hText

/- A blank in front of a filter makes no stage and changes none. -/
theorem stages_cons_blank
    {c : Char}
    (hBlank : Text.isBlank c = true)
    (filter : List Char) :
    stages (c :: filter) = stages filter := by
  have hUncut : c = '|' → Place.isBoundary {} filter = false :=
    fun hPipe => absurd hPipe (Place.ne_of_isBlank hBlank (by decide))
  rw [stages_eq, stages_eq, Place.cut_cons_of_uncut hUncut, Place.next_blank rfl hBlank]
  rcases hCut : Place.cut {} filter with _ | ⟨first, others⟩
  · exact absurd hCut (Place.cut_ne_nil _ _)
  · rw [List.modifyHead_cons, List.map_cons, List.map_cons, Text.trim_cons_blank hBlank]

/- The separator joins a stage to the stages behind it. -/
theorem stages_append_separator
    {stage : List Char}
    (hUncut : Place.Uncut {} [] stage)
    (hBack : Place.run {} stage = {})
    (hText : stage ≠ [])
    (hTrim : Text.trim stage = stage)
    (rest : List Char) :
    stages (stage ++ stageSeparator.toList ++ rest) = stage :: stages rest := by
  have hSpace : Text.isBlank ' ' = true := by
    decide
  have hSeparator : stage ++ stageSeparator.toList ++ rest =
      (stage ++ [' ']) ++ '|' :: ' ' :: rest := by
    simp [stageSeparator]
  have hFront : Place.Uncut {} ('|' :: ' ' :: rest) (stage ++ [' ']) := by
    rw [Place.uncut_iff_of_head (by simp), Place.uncut_append_iff]
    refine ⟨(Place.uncut_iff_of_head (by simp)).mpr hUncut, ?_⟩
    exact Place.uncut_of_not_mem (by decide) []
  have hStart : Place.run {} (stage ++ [' ']) = {} := by
    rw [Place.run_append, hBack]
    exact Place.next_blank rfl hSpace
  have hBoundary : Place.isBoundary {} (' ' :: rest) = true :=
    Place.isBoundary_iff.mpr ⟨rfl, by simp⟩
  have hPipe : Place.next {} '|' = {} := by
    decide
  rw [hSeparator, stages_eq, Place.cut_append hFront, hStart, Place.cut_boundary hBoundary,
    hPipe, List.modifyHead_cons, List.append_nil, List.map_cons,
    Text.trim_concat_blank hSpace, hTrim,
    List.filter_cons_of_pos (by simpa using hText), ← stages_eq,
    stages_cons_blank hSpace]

/- Splitting undoes joining. -/
theorem stages_joinWith
    {pieces : List (List Char)}
    (hParted : Place.Parted {} pieces)
    (hTrimmed : ∀ piece ∈ pieces, piece ≠ [] ∧ Text.trim piece = piece) :
    stages (Text.joinWith stageSeparator.toList pieces) = pieces := by
  induction pieces with
  | nil => rfl
  | cons piece pieces ih =>
      have hPiece := hTrimmed piece List.mem_cons_self
      rcases pieces with _ | ⟨second, pieces⟩
      · rw [Text.joinWith]
        exact (stages_eq_singleton_iff hPiece.1 hPiece.2).mpr hParted.1
      · have hOthers := ih hParted.2.2
          fun other hMember => hTrimmed other (List.mem_cons_of_mem piece hMember)
        have hBack := hParted.2.1 (List.cons_ne_nil second pieces)
        rw [Text.joinWith_cons_cons,
          stages_append_separator hParted.1 hBack hPiece.1 hPiece.2, hOthers]

/- The characters of the first stages of a filter. -/
theorem map_toList_take_splitStages
    (filter : String)
    (k : Nat) :
    ((splitStages filter).take k).map String.toList = (stages filter.toList).take k := by
  rw [splitStages, List.map_take, List.map_map]
  simp [Function.comp_def]

/- The stages of a cumulative filter are the ones that it was joined from. -/
theorem splitStages_cumulative
    {filter text : String}
    {k : Nat}
    (hText : (cumulative (splitStages filter))[k]? = some text) :
    splitStages text = (splitStages filter).take (k + 1) := by
  have hJoin := toList_cumulative hText
  have hParted := (parted_stages filter.toList).sublist (List.take_sublist (k + 1) _)
  rw [map_toList_take_splitStages] at hJoin
  rw [splitStages, hJoin, stages_joinWith hParted, splitStages, List.map_take]
  intro stage hStage
  exact trim_of_mem_stages (List.mem_of_mem_take hStage)

------------------------------------------------------------
-- Pipelines
------------------------------------------------------------

theorem take_cumulativeFrom
    (joined : String)
    (stages : List String)
    (k : Nat) :
    (cumulativeFrom joined stages).take k = cumulativeFrom joined (stages.take k) := by
  induction stages generalizing joined k with
  | nil => simp [cumulativeFrom]
  | cons stage stages ih =>
      cases k with
      | zero => rfl
      | succ k => simp only [cumulativeFrom, List.take_succ_cons, ih]

/- The first cumulative filters are those of the first stages. -/
theorem take_cumulative
    (stages : List String)
    (k : Nat) :
    (cumulative stages).take k = cumulative (stages.take k) := by
  cases stages with
  | nil => simp [cumulative]
  | cons stage stages =>
      cases k with
      | zero => rfl
      | succ k => simp only [cumulative, List.take_succ_cons, take_cumulativeFrom]

theorem length_cumulativeFrom
    (joined : String)
    (stages : List String) :
    (cumulativeFrom joined stages).length = stages.length := by
  induction stages generalizing joined with
  | nil => rfl
  | cons stage stages ih => rw [cumulativeFrom, List.length_cons, ih, List.length_cons]

/- There are as many cumulative filters as stages. -/
theorem length_cumulative
    (stages : List String) :
    (cumulative stages).length = stages.length := by
  cases stages with
  | nil => rfl
  | cons stage stages => rw [cumulative, List.length_cons, length_cumulativeFrom, List.length_cons]

namespace Stage

/- A numbered text has its position as its number, counted from one. -/
theorem getElem?_number
    (texts : List String)
    (k : Nat) :
    (number texts)[k]? = texts[k]?.map fun text => ⟨k + 1, text⟩ := by
  rw [number, List.getElem?_map, List.getElem?_zipIdx, Option.map_map]
  simp [Function.comp_def, Nat.add_comm]

theorem length_number
    (texts : List String) :
    (number texts).length = texts.length := by
  rw [number, List.length_map, List.length_zipIdx]

/- The numbers of the first texts do not depend on the others. -/
theorem take_number
    (texts : List String)
    (k : Nat) :
    (number texts).take k = number (texts.take k) := by
  apply List.ext_getElem?
  intro i
  rw [getElem?_number, List.getElem?_take, List.getElem?_take, getElem?_number]
  split
  · rfl
  · rfl

end Stage

/- A filter has as many cumulative filters as stages. -/
theorem length_progressive
    (filter : String) :
    (decompose filter).progressive.length = (decompose filter).fragments.length := by
  simp only [decompose, Stage.length_number, length_cumulative]

/- The pipeline of a cumulative filter is the front part of the whole one. -/
theorem decompose_cumulative
    {filter text : String}
    {k : Nat}
    (hText : (cumulative (splitStages filter))[k]? = some text) :
    decompose text =
      { fragments := (decompose filter).fragments.take (k + 1)
        progressive := (decompose filter).progressive.take (k + 1) } := by
  simp only [decompose, splitStages_cumulative hText, Stage.take_number, take_cumulative]

/-
  A cumulative filter is taken apart into what it was joined
  from: its stages and its own cumulative filters are the first
  ones of the whole filter, up to its own. So the last
  cumulative filter, which joins all stages, has the pipeline of
  the filter itself.
-/
theorem decompose_progressive
    (filter : String) :
    (decompose filter).progressive.length = (decompose filter).fragments.length ∧
    (∀ k, 1 ≤ k → k ≤ (decompose filter).fragments.length →
      ∃ progressive,
        (decompose filter).progressive[k - 1]? = some progressive ∧
          (decompose progressive.text).fragments = (decompose filter).fragments.take k ∧
          (decompose progressive.text).progressive =
            (decompose filter).progressive.take k) ∧
    (∀ progressive,
      (decompose filter).progressive.getLast? = some progressive →
        decompose progressive.text = decompose filter) := by
  have hLength := length_progressive filter
  -- Every position up to the number of stages has a cumulative filter.
  have hTake : ∀ k, 1 ≤ k → k ≤ (decompose filter).fragments.length →
      ∃ progressive,
        (decompose filter).progressive[k - 1]? = some progressive ∧
          decompose progressive.text =
            { fragments := (decompose filter).fragments.take k
              progressive := (decompose filter).progressive.take k } := by
    intro k hFirst hLast
    have hBound : k - 1 < (decompose filter).progressive.length := by omega
    have hProgressive := List.getElem?_eq_getElem hBound
    refine ⟨_, hProgressive, ?_⟩
    rw [decompose_cumulative (getElem?_progressive hProgressive), Nat.sub_add_cancel hFirst]
  refine ⟨hLength, ?_, ?_⟩
  · intro k hFirst hLast
    rcases hTake k hFirst hLast with ⟨progressive, hProgressive, hEqual⟩
    exact ⟨progressive, hProgressive, congrArg Pipeline.fragments hEqual,
      congrArg Pipeline.progressive hEqual⟩
  · intro progressive hEnd
    rw [List.getLast?_eq_getElem?] at hEnd
    have hSome := (List.getElem?_eq_some_iff.mp hEnd).1
    rcases hTake (decompose filter).fragments.length (by omega) le_rfl with
      ⟨last, hProgressive, hEqual⟩
    rw [← hLength, hEnd, Option.some.injEq] at hProgressive
    rw [hProgressive, hEqual, List.take_length, ← hLength, List.take_length]

/-
  Four stages between blanks and empty ones: the second starts
  with an equals sign, the third has pipes in brackets, in a
  literal and in an update operator, and the last is a literal
  without end that loses the blank behind its backslash.
-/
def openLiteral : String :=
  "  .a|\t= .b ||  [.c|\"|\"] |= 1|\"x| \\  "

theorem decompose_progressive_openLiteral :
    (decompose openLiteral).fragments.length = 4 ∧
      (∃ progressive,
        (decompose openLiteral).progressive[2 - 1]? = some progressive ∧
          (decompose progressive.text).fragments = [⟨1, ".a"⟩, ⟨2, "= .b"⟩] ∧
          (decompose progressive.text).progressive = [⟨1, ".a"⟩, ⟨2, ".a | = .b"⟩]) ∧
      (∃ progressive,
        (decompose openLiteral).progressive.getLast? = some progressive ∧
          progressive.text = ".a | = .b | [.c|\"|\"] |= 1 | \"x| \\" ∧
          decompose progressive.text = decompose openLiteral) := by
  rcases decompose_progressive openLiteral with ⟨-, hTake, hWhole⟩
  have hFour : (decompose openLiteral).fragments.length = 4 := by
    decide +kernel
  have hFragments : (decompose openLiteral).fragments.take 2 =
      [⟨1, ".a"⟩, ⟨2, "= .b"⟩] := by
    decide +kernel
  have hProgressive : (decompose openLiteral).progressive.take 2 =
      [⟨1, ".a"⟩, ⟨2, ".a | = .b"⟩] := by
    decide +kernel
  have hLast : (decompose openLiteral).progressive.getLast? =
      some ⟨4, ".a | = .b | [.c|\"|\"] |= 1 | \"x| \\"⟩ := by
    decide +kernel
  rcases hTake 2 (by decide) (by omega) with ⟨second, hSecond, hFirst, hCumulative⟩
  exact ⟨hFour, ⟨second, hSecond, hFirst.trans hFragments, hCumulative.trans hProgressive⟩,
    ⟨_, hLast, rfl, hWhole _ hLast⟩⟩

end JqLens
