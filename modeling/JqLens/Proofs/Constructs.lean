import JqLens.Proofs.Admission
import JqLens.Proofs.TextRun

/-
  This file says what the deny list refuses, and what it shows
  of it. A filter is refused exactly if it holds the environment
  variable somewhere, or a refused word that stands on its own;
  looking for calls of the path function never changes that.
  What is shown is the longest construct at the first place of
  the filter where there is one.

  Key definitions include:
    * `DenyList.StandsAlone`
    * `DenyList.plainSearch`
    * `DenyList.IsPathCall`
    * `DenyList.Matches`
    * `DenyList.FindsLongest`

  Main results:
    * `DenyList.hits_none_iff`
    * `DenyList.plainSearch_isSome_iff`
    * `DenyList.findsLongest_matchAt`
    * `DenyList.exists_first_match`
    * `blockedConstruct_exact`
-/

namespace JqLens

namespace DenyList

------------------------------------------------------------
-- Words on their own
------------------------------------------------------------

/- A word occurs in a text with no character of a word on either side of it. -/
def StandsAlone
    (word cs : List Char) : Prop :=
  ∃ front behind,
    cs = front ++ (word ++ behind) ∧
      inWord front.getLast? = false ∧
      inWord behind.head? = false

/- The last character of a text with one more in front. -/
theorem getLast?_cons_or
    (c : Char)
    (cs : List Char)
    (before : Option Char) :
    (c :: cs).getLast?.or before = cs.getLast?.or (some c) := by
  rw [List.getLast?_cons, Option.some_or, Option.or_some]

/- A text is hit where a construct starts. -/
theorem hits_iff_starts
    (before : Option Char)
    (cs : List Char) :
    Hits before cs ↔
      ∃ front behind, cs = front ++ behind ∧ Starts (front.getLast?.or before) behind := by
  induction cs generalizing before with
  | nil =>
      refine iff_of_false id ?_
      rintro ⟨front, behind, hText, hStarts⟩
      rw [(List.append_eq_nil_iff.mp hText.symm).2] at hStarts
      exact not_starts_nil _ hStarts
  | cons c cs ih =>
      rw [hits_cons, ih]
      constructor
      · rintro (hHere | ⟨front, behind, rfl, hStarts⟩)
        · exact ⟨[], c :: cs, rfl, hHere⟩
        · exact ⟨c :: front, behind, rfl, by rwa [getLast?_cons_or]⟩
      · rintro ⟨_ | ⟨d, front⟩, behind, hText, hStarts⟩
        · rw [hText]
          exact Or.inl hStarts
        · rw [List.cons_append, List.cons.injEq] at hText
          rcases hText with ⟨rfl, rfl⟩
          rw [getLast?_cons_or] at hStarts
          exact Or.inr ⟨front, behind, rfl, hStarts⟩

/-
  A text is hit exactly if it holds the environment variable or
  a refused word on its own.
-/
theorem hits_none_iff
    (cs : List Char) :
    Hits none cs ↔ environment <:+: cs ∨ ∃ word ∈ words, StandsAlone word cs := by
  rw [hits_iff_starts]
  simp only [Option.or_none]
  constructor
  · rintro ⟨front, behind, rfl, hPrefix | ⟨word, hWord, ⟨rest, rfl⟩, hBefore, hAfter⟩⟩
    · exact Or.inl (hPrefix.isInfix.trans (List.suffix_append front behind).isInfix)
    · rw [List.drop_left] at hAfter
      exact Or.inr ⟨word, hWord, front, rest, rfl, hBefore, hAfter⟩
  · rintro (⟨front, rest, rfl⟩ | ⟨word, hWord, front, rest, rfl, hBefore, hAfter⟩)
    · rw [List.append_assoc]
      exact ⟨front, _, rfl, Or.inl (List.prefix_append environment rest)⟩
    · refine ⟨front, _, rfl, Or.inr ⟨word, hWord, List.prefix_append word rest, hBefore, ?_⟩⟩
      rwa [List.drop_left]

------------------------------------------------------------
-- The search without path calls
------------------------------------------------------------

/-
  The construct that starts a text, where calls of the path
  function are none.
-/
def plainMatchAt
    (before : Option Char)
    (cs : List Char) : Option (List Char) :=
  let bounded :=
    if boundary before cs.head? then words.findSome? fun word => wordAt word cs else none
  bounded.or ((dropPrefix? environment cs).map fun _ => environment)

/- The first construct in a text, where calls of the path function are none. -/
def plainSearch (before : Option Char) : List Char → Option (List Char)
  | [] => none
  | c :: cs =>
      match plainMatchAt before (c :: cs) with
      | some found => some found
      | none => plainSearch (some c) cs

/- A refused word is found where a text starts with it and it ends there. -/
theorem findSome?_wordAt_isSome_iff
    (cs : List Char) :
    (words.findSome? fun word => wordAt word cs).isSome = true ↔
      ∃ word ∈ words, word <+: cs ∧ inWord (cs.drop word.length).head? = false := by
  rw [List.findSome?_isSome_iff]
  exact exists_congr fun word =>
    and_congr_right fun hWord => wordAt_isSome_iff (inWord_getLast?_word hWord)

/- Without path calls a match is found exactly where a construct starts. -/
theorem plainMatchAt_isSome_iff
    (before : Option Char)
    (cs : List Char) :
    (plainMatchAt before cs).isSome = true ↔ Starts before cs := by
  have hEnvironment : ((dropPrefix? environment cs).map fun _ => environment).isSome = true ↔
      environment <+: cs := by
    simp only [Option.isSome_map, Option.isSome_iff_exists, dropPrefix?_eq_some_iff]
    exact exists_congr fun rest => eq_comm
  rw [plainMatchAt, Option.isSome_or, Bool.or_eq_true, hEnvironment, or_comm, Starts]
  refine or_congr Iff.rfl ?_
  constructor
  · intro hBounded
    split at hBounded
    · next hBoundary =>
        rcases (findSome?_wordAt_isSome_iff cs).mp hBounded with ⟨word, hWord, hPrefix, hAfter⟩
        rw [boundary, inWord_head?_of_prefix hWord hPrefix] at hBoundary
        exact ⟨word, hWord, hPrefix, by simpa using hBoundary, hAfter⟩
    · simp at hBounded
  · rintro ⟨word, hWord, hPrefix, hBefore, hAfter⟩
    have hBoundary : boundary before cs.head? = true := by
      rw [boundary, hBefore, inWord_head?_of_prefix hWord hPrefix]
      rfl
    rw [if_pos hBoundary, findSome?_wordAt_isSome_iff]
    exact ⟨word, hWord, hPrefix, hAfter⟩

/- Without path calls something is found in the same texts. -/
theorem plainSearch_isSome_iff
    (before : Option Char)
    (cs : List Char) :
    (plainSearch before cs).isSome = true ↔ Hits before cs := by
  induction cs generalizing before with
  | nil => simp [plainSearch, Hits]
  | cons c cs ih =>
      have hHere := plainMatchAt_isSome_iff before (c :: cs)
      rw [plainSearch, hits_cons, ← hHere, ← ih]
      cases plainMatchAt before (c :: cs) with
      | some found => simp
      | none => simp

------------------------------------------------------------
-- Matches
------------------------------------------------------------

/-
  A call of the path function whose arguments go on, on the same
  line, up to an environment variable.
-/
def IsPathCall
    (text : List Char) : Prop :=
  ∃ blanks inner,
    (∀ c ∈ blanks, Text.isBlank c = true) ∧
      '\n' ∉ inner ∧
      text = pathWord ++ (blanks ++ '(' :: (inner ++ environment))

/-
  A text is a construct between the character `before` it and
  the text `behind` it: it is the environment variable, or it is
  a refused word or path call with a boundary on both sides.
-/
def Matches
    (before : Option Char)
    (text behind : List Char) : Prop :=
  text = environment ∨
    (text ∈ words ∨ IsPathCall text) ∧
      boundary before text.head? = true ∧
      boundary text.getLast? behind.head? = true

/- A text starts with another one, behind which no word goes on. -/
def StopsBehind
    (text cs : List Char) : Prop :=
  ∃ behind, cs = text ++ behind ∧ inWord behind.head? = false

theorem stopsBehind_cons_iff
    {c d : Char}
    {text cs : List Char} :
    StopsBehind (c :: text) (d :: cs) ↔ c = d ∧ StopsBehind text cs := by
  simp only [StopsBehind, List.cons_append, List.cons.injEq, eq_comm (a := d), and_assoc,
    exists_and_left]

/- Behind a character of a word there is a boundary where the word ends. -/
theorem boundary_iff_of_inWord
    {before : Option Char}
    (hBefore : inWord before = true)
    (after : Option Char) :
    boundary before after = true ↔ inWord after = false := by
  rw [boundary, hBefore]
  cases inWord after <;> simp

/-
  A search for texts of a kind finds the longest one of them,
  and nothing only if there are none.
-/
def FindsLongest
    (kind : List Char → Prop) : Option (List Char) → Prop
  | some text => kind text ∧ ∀ other, kind other → other.length ≤ text.length
  | none => ∀ other, ¬ kind other

/- Two kinds that exclude each other may be searched for one after the other. -/
theorem FindsLongest.or
    {kind second : List Char → Prop}
    {found other : Option (List Char)}
    (hFound : FindsLongest kind found)
    (hOther : FindsLongest second other)
    (hApart : ∀ text beyond, kind text → ¬ second beyond) :
    FindsLongest (fun text => kind text ∨ second text) (found.or other) := by
  cases found with
  | some text =>
      refine ⟨Or.inl hFound.1, ?_⟩
      rintro beyond (hKind | hSecond)
      · exact hFound.2 beyond hKind
      · exact absurd hSecond (hApart text beyond hFound.1)
  | none =>
      cases other with
      | some text =>
          refine ⟨Or.inr hOther.1, ?_⟩
          rintro beyond (hKind | hSecond)
          · exact absurd hKind (hFound beyond)
          · exact hOther.2 beyond hSecond
      | none =>
          rintro beyond (hKind | hSecond)
          · exact hFound beyond hKind
          · exact hOther beyond hSecond

------------------------------------------------------------
-- The alternatives of the deny list
------------------------------------------------------------

/- A word that is found is the given one. -/
theorem wordAt_eq_some_iff
    {word cs text : List Char}
    (hLast : inWord word.getLast? = true) :
    wordAt word cs = some text ↔ text = word ∧ StopsBehind word cs := by
  unfold wordAt StopsBehind
  cases hDrop : dropPrefix? word cs with
  | none =>
      refine iff_of_false (by simp) ?_
      rintro ⟨-, behind, hText, -⟩
      rw [dropPrefix?_eq_some_iff.mpr hText] at hDrop
      exact absurd hDrop (by simp)
  | some rest =>
      rw [dropPrefix?_eq_some_iff] at hDrop
      simp only [hDrop, List.append_cancel_left_eq, exists_eq_left',
        boundary_iff_of_inWord hLast, Option.ite_none_right_eq_some, Option.some.injEq,
        eq_comm (a := word), and_comm]

/- Of two refused words that a text starts with and stops behind, one is the other. -/
theorem word_unique
    {word other cs : List Char}
    (hWord : word ∈ words)
    (hOther : other ∈ words)
    (hStops : StopsBehind word cs)
    (hOtherStops : StopsBehind other cs) :
    word = other := by
  rcases hStops with ⟨behind, hText, hBehind⟩
  rcases hOtherStops with ⟨beyond, hOtherText, hBeyond⟩
  -- What the longer one has more would be a character of a word.
  have hNoMore : ∀ {more short long rest : List Char}, long ∈ words → long = short ++ more →
      inWord (more ++ rest).head? = false → long = short := by
    intro more short long rest hLong hSplit hHead
    rcases more with _ | ⟨c, more⟩
    · rw [hSplit, List.append_nil]
    · have hChar := (word_shape long hLong).2 c (by simp [hSplit])
      rw [List.cons_append, List.head?_cons, inWord, hChar] at hHead
      exact Bool.noConfusion hHead
  rcases List.append_eq_append_iff.mp (hText.symm.trans hOtherText) with
    ⟨more, hLong, hRest⟩ | ⟨more, hLong, hRest⟩
  · exact (hNoMore hOther hLong (hRest ▸ hBehind)).symm
  · exact hNoMore hWord hLong (hRest ▸ hBeyond)

/- The refused word at the start of a text. -/
theorem findsLongest_words
    (cs : List Char) :
    FindsLongest (fun text => text ∈ words ∧ StopsBehind text cs)
      (words.findSome? fun word => wordAt word cs) := by
  cases hFound : words.findSome? fun word => wordAt word cs with
  | none =>
      rw [List.findSome?_eq_none_iff] at hFound
      rintro word ⟨hWord, hStops⟩
      have hSome := (wordAt_eq_some_iff (inWord_getLast?_word hWord)).mpr ⟨rfl, hStops⟩
      rw [hFound word hWord] at hSome
      exact absurd hSome (by simp)
  | some text =>
      rcases List.exists_of_findSome?_eq_some hFound with ⟨word, hWord, hText⟩
      rw [wordAt_eq_some_iff (inWord_getLast?_word hWord)] at hText
      rcases hText with ⟨rfl, hStops⟩
      refine ⟨⟨hWord, hStops⟩, ?_⟩
      rintro other ⟨hOther, hOtherStops⟩
      rw [word_unique hOther hWord hOtherStops hStops]

/- The environment variable at the start of a text. -/
theorem findsLongest_environment
    (cs : List Char) :
    FindsLongest (fun text => text = environment ∧ environment <+: cs)
      ((dropPrefix? environment cs).map fun _ => environment) := by
  cases hDrop : dropPrefix? environment cs with
  | none =>
      rintro text ⟨-, rest, hText⟩
      rw [dropPrefix?_eq_some_iff.mpr hText.symm] at hDrop
      exact absurd hDrop (by simp)
  | some rest =>
      rw [dropPrefix?_eq_some_iff] at hDrop
      refine ⟨⟨rfl, rest, hDrop.symm⟩, ?_⟩
      rintro other ⟨rfl, -⟩
      exact Nat.le_refl _

/- A text on one line up to an environment variable that ends there. -/
def ReachesEnvironment
    (cs text : List Char) : Prop :=
  ∃ inner, '\n' ∉ inner ∧ text = inner ++ environment ∧ StopsBehind text cs

/- Such a text is the environment variable, or goes on behind its first character. -/
theorem reachesEnvironment_cons_iff
    {c : Char}
    {cs text : List Char} :
    ReachesEnvironment (c :: cs) text ↔
      text = environment ∧ StopsBehind environment (c :: cs) ∨
        c ≠ '\n' ∧ ∃ others, text = c :: others ∧ ReachesEnvironment cs others := by
  constructor
  · rintro ⟨_ | ⟨d, inner⟩, hLine, rfl, hStops⟩
    · exact Or.inl ⟨rfl, hStops⟩
    · rw [List.cons_append, stopsBehind_cons_iff] at hStops
      rcases hStops with ⟨rfl, hStops⟩
      rw [List.mem_cons, not_or] at hLine
      exact Or.inr ⟨Ne.symm hLine.1, _, rfl, inner, hLine.2, rfl, hStops⟩
  · rintro (⟨rfl, hStops⟩ | ⟨hNot, others, rfl, inner, hLine, rfl, hStops⟩)
    · exact ⟨[], List.not_mem_nil, rfl, hStops⟩
    · refine ⟨c :: inner, ?_, rfl, stopsBehind_cons_iff.mpr ⟨rfl, hStops⟩⟩
      rw [List.mem_cons, not_or]
      exact ⟨Ne.symm hNot, hLine⟩

/- The search along a line finds its last environment variable. -/
theorem findsLongest_throughEnvironment
    (cs : List Char) :
    FindsLongest (ReachesEnvironment cs) (throughEnvironment cs) := by
  induction cs with
  | nil =>
      rintro text ⟨inner, -, rfl, behind, hText, -⟩
      simp [environment] at hText
  | cons c cs ih =>
      rw [throughEnvironment]
      split
      · next hLine =>
          intro text hReaches
          rcases reachesEnvironment_cons_iff.mp hReaches with ⟨-, behind, hText, -⟩ | ⟨hNot, -⟩
          · rw [hLine] at hText
            exact absurd (List.head_eq_of_cons_eq hText) (by decide)
          · exact hNot hLine
      · next hLine =>
          cases hThrough : throughEnvironment cs with
          | some found =>
              rw [hThrough] at ih
              refine ⟨reachesEnvironment_cons_iff.mpr (Or.inr ⟨hLine, found, rfl, ih.1⟩), ?_⟩
              intro other hReaches
              rcases reachesEnvironment_cons_iff.mp hReaches with ⟨rfl, -⟩ | ⟨-, others, rfl, hIn⟩
              · rcases ih.1 with ⟨inner, -, rfl, -⟩
                rw [List.length_cons, List.length_append]
                omega
              · exact Nat.succ_le_succ (ih.2 others hIn)
          | none =>
              rw [hThrough] at ih
              have hKind : ∀ text, ReachesEnvironment (c :: cs) text ↔
                  text = environment ∧ StopsBehind environment (c :: cs) := by
                intro text
                rw [reachesEnvironment_cons_iff]
                apply or_iff_left
                rintro ⟨-, others, -, hIn⟩
                exact ih others hIn
              cases hWord : wordAt environment (c :: cs) with
              | some found =>
                  rw [wordAt_eq_some_iff (by decide)] at hWord
                  refine ⟨(hKind found).mpr hWord, ?_⟩
                  intro other hReaches
                  rw [((hKind other).mp hReaches).1, hWord.1]
              | none =>
                  intro text hReaches
                  have hSome := (wordAt_eq_some_iff (by decide)).mpr ((hKind text).mp hReaches)
                  rw [hWord] at hSome
                  exact absurd hSome (by simp)

/- A parenthesis ends a run of blanks. -/
theorem stopsAt_parenthesis
    (rest : List Char) :
    StopsAt Text.isBlank ('(' :: rest) := by
  intro c hHead
  rw [← Option.some.inj hHead]
  decide

/- The path calls of a text that starts like one are those up to its environment variables. -/
theorem isPathCall_iff
    {blanks : List Char}
    (hBlanks : ∀ c ∈ blanks, Text.isBlank c = true)
    (inner text : List Char) :
    IsPathCall text ∧ StopsBehind text (pathWord ++ (blanks ++ '(' :: inner)) ↔
      ∃ found, text = pathWord ++ blanks ++ '(' :: found ∧ ReachesEnvironment inner found := by
  constructor
  · rintro ⟨⟨others, arguments, hOthers, hLine, rfl⟩, behind, hText, hBehind⟩
    rw [List.append_assoc, List.append_cancel_left_eq, List.append_assoc] at hText
    -- Both runs of blanks end at the parenthesis.
    have hSame : blanks = others := by
      rw [← takeWhile_of_stopsAt hBlanks (stopsAt_parenthesis inner), hText]
      exact takeWhile_of_stopsAt hOthers (stopsAt_parenthesis _)
    subst hSame
    rw [List.append_cancel_left_eq, List.cons_append, List.cons.injEq] at hText
    refine ⟨arguments ++ environment, by simp, arguments, hLine, rfl, behind, hText.2, hBehind⟩
  · rintro ⟨found, rfl, arguments, hLine, rfl, behind, rfl, hBehind⟩
    exact ⟨⟨blanks, arguments, hBlanks, hLine, by simp⟩, behind, by simp, hBehind⟩

/- The path call at the start of a text, up to the last environment variable of its line. -/
theorem findsLongest_pathCallAt
    (cs : List Char) :
    FindsLongest (fun text => IsPathCall text ∧ StopsBehind text cs) (pathCallAt cs) := by
  unfold pathCallAt
  cases hDrop : dropPrefix? pathWord cs with
  | none =>
      rintro text ⟨⟨blanks, inner, -, -, rfl⟩, behind, hText, -⟩
      rw [List.append_assoc] at hText
      rw [dropPrefix?_eq_some_iff.mpr hText] at hDrop
      exact absurd hDrop (by simp)
  | some rest =>
      rw [dropPrefix?_eq_some_iff] at hDrop
      subst hDrop
      dsimp only
      split
      · next inner hInner =>
          have hRest := List.takeWhile_append_dropWhile (p := Text.isBlank) (l := rest)
          rw [hInner] at hRest
          have hKind := isPathCall_iff (all_takeWhile Text.isBlank rest) inner
          rw [hRest] at hKind
          have hThrough := findsLongest_throughEnvironment inner
          cases hFound : throughEnvironment inner with
          | none =>
              rw [hFound] at hThrough
              intro text hText
              rcases (hKind text).mp hText with ⟨found, -, hReaches⟩
              exact hThrough found hReaches
          | some found =>
              rw [hFound] at hThrough
              refine ⟨(hKind _).mpr ⟨found, rfl, hThrough.1⟩, ?_⟩
              intro other hOther
              rcases (hKind other).mp hOther with ⟨shorter, rfl, hReaches⟩
              have hLength := hThrough.2 shorter hReaches
              simp only [List.length_append, List.length_cons]
              omega
      · next hInner =>
          rintro text ⟨⟨blanks, arguments, hBlanks, -, rfl⟩, behind, hText, -⟩
          rw [List.append_assoc, List.append_cancel_left_eq, List.append_assoc] at hText
          apply hInner (arguments ++ environment ++ behind)
          rw [hText]
          exact dropWhile_of_stopsAt hBlanks (stopsAt_parenthesis _)

theorem IsPathCall.head?_eq
    {text : List Char}
    (hCall : IsPathCall text) :
    text.head? = some 'p' := by
  rcases hCall with ⟨blanks, inner, -, -, rfl⟩
  rfl

theorem IsPathCall.suffix
    {text : List Char}
    (hCall : IsPathCall text) :
    environment <:+ text := by
  rcases hCall with ⟨blanks, inner, -, -, rfl⟩
  refine ⟨pathWord ++ (blanks ++ '(' :: inner), ?_⟩
  simp

theorem IsPathCall.inWord_getLast?
    {text : List Char}
    (hCall : IsPathCall text) :
    inWord text.getLast? = true := by
  rcases hCall.suffix with ⟨front, rfl⟩
  rw [List.getLast?_append]
  rfl

------------------------------------------------------------
-- The first match
------------------------------------------------------------

/- A construct other than the environment variable starts with a letter of its own. -/
theorem head?_of_bounded
    {text cs : List Char}
    (hText : text ∈ words ∨ IsPathCall text)
    (hStops : StopsBehind text cs) :
    cs.head? = text.head? ∧ cs.head? ≠ some '$' := by
  have hHeads : ∀ word ∈ words, word.head?.isSome = true ∧ word.head? ≠ some '$' := by
    decide
  have hHead : text.head?.isSome = true ∧ text.head? ≠ some '$' := by
    rcases hText with hWord | hCall
    · exact hHeads text hWord
    · rw [hCall.head?_eq]
      decide
  rcases hStops with ⟨behind, rfl, -⟩
  rw [List.head?_append, Option.or_of_isSome hHead.1]
  exact ⟨rfl, hHead.2⟩

/- A construct that starts a text stops behind itself, or is the environment variable. -/
theorem exists_matches_iff
    {before : Option Char}
    {text cs : List Char} :
    (∃ behind, cs = text ++ behind ∧ Matches before text behind) ↔
      (boundary before cs.head? = true ∧
        (text ∈ words ∧ StopsBehind text cs ∨ IsPathCall text ∧ StopsBehind text cs)) ∨
      text = environment ∧ environment <+: cs := by
  rw [← or_and_right]
  have hLast : text ∈ words ∨ IsPathCall text → inWord text.getLast? = true := by
    rintro (hWord | hCall)
    · exact inWord_getLast?_word hWord
    · exact hCall.inWord_getLast?
  constructor
  · rintro ⟨behind, hText, rfl | ⟨hKind, hBefore, hAfter⟩⟩
    · exact Or.inr ⟨rfl, behind, hText.symm⟩
    · rw [boundary_iff_of_inWord (hLast hKind)] at hAfter
      have hStops : StopsBehind text cs := ⟨behind, hText, hAfter⟩
      rw [← (head?_of_bounded hKind hStops).1] at hBefore
      exact Or.inl ⟨hBefore, hKind, hStops⟩
  · rintro (⟨hBefore, hKind, hStops⟩ | ⟨rfl, behind, hText⟩)
    · rw [(head?_of_bounded hKind hStops).1] at hBefore
      rcases hStops with ⟨behind, hText, hAfter⟩
      rw [← boundary_iff_of_inWord (hLast hKind)] at hAfter
      exact ⟨behind, hText, Or.inr ⟨hKind, hBefore, hAfter⟩⟩
    · exact ⟨behind, hText.symm, Or.inl rfl⟩

/- The construct that is found at the start of a text is the longest one there. -/
theorem findsLongest_matchAt
    (before : Option Char)
    (cs : List Char) :
    FindsLongest (fun text => ∃ behind, cs = text ++ behind ∧ Matches before text behind)
      (matchAt before cs) := by
  have hHeads : ∀ word ∈ words, word.head? ≠ some 'p' := by
    decide
  simp only [exists_matches_iff]
  apply FindsLongest.or
  · split
    · next hBoundary =>
        simp only [hBoundary, true_and]
        apply (findsLongest_words cs).or (findsLongest_pathCallAt cs)
        rintro word call ⟨hWord, hStops⟩ ⟨hCall, hCallStops⟩
        apply hHeads word hWord
        rw [← (head?_of_bounded (Or.inl hWord) hStops).1, ← hCall.head?_eq]
        exact (head?_of_bounded (Or.inr hCall) hCallStops).1
    · next hBoundary => exact fun _ hBounded => hBoundary hBounded.1
  · exact findsLongest_environment cs
  · rintro text beyond ⟨-, hKind⟩ ⟨-, rest, rfl⟩
    rw [← or_and_right] at hKind
    exact (head?_of_bounded hKind.1 hKind.2).2 rfl

/-
  What the search finds is a construct of the text; any other
  starts further on, or at the same place and is no longer.
-/
theorem exists_first_match
    {before : Option Char}
    {cs text : List Char}
    (hFound : search before cs = some text) :
    ∃ front behind,
      cs = front ++ (text ++ behind) ∧
        Matches (front.getLast?.or before) text behind ∧
        ∀ start other beyond, cs = start ++ (other ++ beyond) →
          Matches (start.getLast?.or before) other beyond →
            front.length < start.length ∨
              front.length = start.length ∧ other.length ≤ text.length := by
  induction cs generalizing before with
  | nil => simp [search] at hFound
  | cons c cs ih =>
      have hLongest := findsLongest_matchAt before (c :: cs)
      rw [search] at hFound
      cases hMatch : matchAt before (c :: cs) with
      | some found =>
          rw [hMatch] at hFound hLongest
          rw [← Option.some.inj hFound]
          rcases hLongest with ⟨⟨behind, hText, hHere⟩, hOthers⟩
          refine ⟨[], behind, hText, hHere, ?_⟩
          rintro (_ | ⟨d, start⟩) other beyond hOther hMatches
          · exact Or.inr ⟨rfl, hOthers other ⟨beyond, hOther, hMatches⟩⟩
          · exact Or.inl (Nat.succ_pos _)
      | none =>
          rw [hMatch] at hFound hLongest
          rcases ih hFound with ⟨front, behind, rfl, hThere, hOthers⟩
          refine ⟨c :: front, behind, rfl, by rwa [getLast?_cons_or], ?_⟩
          rintro (_ | ⟨d, start⟩) other beyond hOther hMatches
          · exact absurd ⟨beyond, hOther, hMatches⟩ (hLongest other)
          · rw [List.cons_append, List.cons.injEq] at hOther
            rcases hOther with ⟨rfl, hOther⟩
            rw [getLast?_cons_or] at hMatches
            simp only [List.length_cons, Nat.add_lt_add_iff_right, Nat.add_right_cancel_iff]
            exact hOthers start other beyond hOther hMatches

end DenyList

------------------------------------------------------------
-- What is refused and what is shown of it
------------------------------------------------------------

open DenyList in
/-
  What the deny list refuses: a filter with the environment
  variable anywhere in it, or with a refused word that has no
  character of a word next to it. Calls of the path function
  need not be looked for. What is shown is a construct of the
  filter, as the deny list describes it: a refused word, the
  environment variable, or a text from the word for paths to the
  environment variable. No construct starts before it, and none
  that starts with it is longer.
-/
theorem blockedConstruct_exact
    (filter : String) :
    ((blockedConstruct filter).isSome = true ↔
      environment <:+: filter.toList ∨ ∃ word ∈ words, StandsAlone word filter.toList) ∧
    (blockedConstruct filter).isSome = (plainSearch none filter.toList).isSome ∧
    (∀ construct, blockedConstruct filter = some construct →
      (construct.toList ∈ words ∨ construct.toList = environment ∨
        pathWord <+: construct.toList ∧ environment <:+ construct.toList) ∧
      ∃ front behind,
        filter.toList = front ++ (construct.toList ++ behind) ∧
          Matches front.getLast? construct.toList behind ∧
          ∀ start other beyond, filter.toList = start ++ (other ++ beyond) →
            Matches start.getLast? other beyond →
              front.length < start.length ∨
                front.length = start.length ∧ other.length ≤ construct.toList.length) := by
  refine ⟨?_, ?_, ?_⟩
  · rw [isSome_blockedConstruct_iff, hits_none_iff]
  · rw [Bool.eq_iff_iff, isSome_blockedConstruct_iff, plainSearch_isSome_iff]
  · intro construct hConstruct
    rcases Option.map_eq_some_iff.mp hConstruct with ⟨text, hFound, rfl⟩
    rw [String.toList_ofList]
    rcases exists_first_match hFound with ⟨front, behind, hText, hMatches, hOthers⟩
    simp only [Option.or_none] at hMatches hOthers
    refine ⟨?_, front, behind, hText, hMatches, hOthers⟩
    rcases hMatches with hEnvironment | ⟨hWord | hCall, -, -⟩
    · exact Or.inr (Or.inl hEnvironment)
    · exact Or.inl hWord
    · have hSuffix := hCall.suffix
      rcases hCall with ⟨blanks, inner, -, -, rfl⟩
      exact Or.inr (Or.inr ⟨List.prefix_append pathWord _, hSuffix⟩)

open DenyList in
/-
  A path call with two environment variables on its line, of
  which the last one counts, in front of a third one that is
  glued to a word and a fourth on the next line.
-/
theorem blockedConstruct_exact_pathCall :
    blockedConstruct "paths|path (1;$ENV)+$ENV.a,$ENVs\n$ENV" = some "path (1;$ENV)+$ENV" ∧
      ∃ front behind,
        "paths|path (1;$ENV)+$ENV.a,$ENVs\n$ENV".toList =
            front ++ ("path (1;$ENV)+$ENV".toList ++ behind) ∧
          Matches front.getLast? "path (1;$ENV)+$ENV".toList behind ∧
          ∀ start other beyond,
            "paths|path (1;$ENV)+$ENV.a,$ENVs\n$ENV".toList = start ++ (other ++ beyond) →
              Matches start.getLast? other beyond →
                front.length < start.length ∨
                  front.length = start.length ∧
                    other.length ≤ "path (1;$ENV)+$ENV".toList.length := by
  have hShown : blockedConstruct "paths|path (1;$ENV)+$ENV.a,$ENVs\n$ENV" =
      some "path (1;$ENV)+$ENV" := by
    decide +kernel
  rcases blockedConstruct_exact "paths|path (1;$ENV)+$ENV.a,$ENVs\n$ENV" with ⟨-, -, hExact⟩
  exact ⟨hShown, (hExact _ hShown).2⟩

end JqLens
