import Mathlib.Data.List.Chain
import JqLens.Proofs.Split
import JqLens.Terminal.Table

/-
  This file says that texts are wrapped greedily between their
  words: a wrapped text has the words of the text, a line that
  holds several of them is no wider than allowed, and a line
  ends only where the next word would not fit any more. What is
  wrapped stays as it is when it is wrapped again.

  Key definitions include:
    * `Text.Unbroken`
    * `Table.IsLine`
    * `Table.Overflows`
    * `Table.IsFilled`

  Main results:
    * `Text.words_append_blank`
    * `Table.isFilled_fill`
    * `Table.wrap_greedy`
-/

namespace JqLens

------------------------------------------------------------
-- Words
------------------------------------------------------------

namespace Text

/- Some characters of which none is blank. -/
def Unbroken (word : List Char) : Prop :=
  word ≠ [] ∧ ∀ c ∈ word, isBlank c = false

/- A blank ends the word read so far. -/
theorem wordsFrom_cons_of_blank
    {c : Char}
    (hBlank : isBlank c = true)
    (word cs : List Char) :
    wordsFrom word (c :: cs) = wordsFrom word [] ++ words cs := by
  simp only [wordsFrom, if_pos hBlank, words]
  split
  · rfl
  · rfl

/- Any other character goes to it. -/
theorem wordsFrom_cons_of_solid
    {c : Char}
    (hSolid : isBlank c = false)
    (word cs : List Char) :
    wordsFrom word (c :: cs) = wordsFrom (c :: word) cs := by
  simp [wordsFrom, hSolid]

theorem wordsFrom_append_blank
    {c : Char}
    (hBlank : isBlank c = true)
    (word front back : List Char) :
    wordsFrom word (front ++ c :: back) = wordsFrom word front ++ words back := by
  induction front generalizing word with
  | nil => exact wordsFrom_cons_of_blank hBlank word back
  | cons d front ih =>
      rw [List.cons_append]
      cases hFirst : isBlank d with
      | true =>
          rw [wordsFrom_cons_of_blank hFirst, wordsFrom_cons_of_blank hFirst, List.append_assoc]
          exact congrArg (wordsFrom word [] ++ ·) (ih [])
      | false => rw [wordsFrom_cons_of_solid hFirst, wordsFrom_cons_of_solid hFirst, ih]

/- A blank parts the words in front of it from those behind it. -/
theorem words_append_blank
    {c : Char}
    (hBlank : isBlank c = true)
    (front back : List Char) :
    words (front ++ c :: back) = words front ++ words back :=
  wordsFrom_append_blank hBlank [] front back

theorem wordsFrom_of_solid
    {cs : List Char}
    (hSolid : ∀ c ∈ cs, isBlank c = false)
    (word : List Char) :
    wordsFrom word cs = wordsFrom (cs.reverse ++ word) [] := by
  induction cs generalizing word with
  | nil => rfl
  | cons c cs ih =>
      rw [List.forall_mem_cons] at hSolid
      rw [wordsFrom_cons_of_solid hSolid.1, ih hSolid.2, List.reverse_cons, List.append_assoc,
        List.singleton_append]

/- A text without blanks is its only word. -/
theorem Unbroken.words_eq
    {word : List Char}
    (hWord : Unbroken word) :
    words word = [word] := by
  have hSome : (word.reverse).isEmpty = false := by
    simpa using hWord.1
  rw [words, wordsFrom_of_solid hWord.2, List.append_nil, wordsFrom, hSome, List.reverse_reverse]
  rfl

/- At the end of a text the word read so far is its last one. -/
theorem eq_of_mem_wordsFrom_nil
    {word found : List Char}
    (hFound : found ∈ wordsFrom word []) :
    word ≠ [] ∧ found = word.reverse := by
  rw [wordsFrom] at hFound
  split at hFound
  · simp at hFound
  · next hSome => exact ⟨by simpa using hSome, List.mem_singleton.mp hFound⟩

theorem unbroken_of_mem_wordsFrom_nil
    {word found : List Char}
    (hWord : ∀ c ∈ word, isBlank c = false)
    (hFound : found ∈ wordsFrom word []) :
    Unbroken found := by
  rcases eq_of_mem_wordsFrom_nil hFound with ⟨hSome, rfl⟩
  exact ⟨by simpa using hSome, fun c hChar => hWord c (List.mem_reverse.mp hChar)⟩

theorem unbroken_of_mem_wordsFrom
    {word found cs : List Char}
    (hWord : ∀ c ∈ word, isBlank c = false)
    (hFound : found ∈ wordsFrom word cs) :
    Unbroken found := by
  induction cs generalizing word with
  | nil => exact unbroken_of_mem_wordsFrom_nil hWord hFound
  | cons c cs ih =>
      cases hFirst : isBlank c with
      | true =>
          rw [wordsFrom_cons_of_blank hFirst] at hFound
          rcases List.mem_append.mp hFound with hHere | hBehind
          · exact unbroken_of_mem_wordsFrom_nil hWord hHere
          · exact ih (List.forall_mem_nil _) hBehind
      | false =>
          rw [wordsFrom_cons_of_solid hFirst] at hFound
          exact ih (List.forall_mem_cons.mpr ⟨hFirst, hWord⟩) hFound

/- The words of a text hold no blanks. -/
theorem unbroken_of_mem_words
    {word cs : List Char}
    (hWord : word ∈ words cs) :
    Unbroken word :=
  unbroken_of_mem_wordsFrom (List.forall_mem_nil _) hWord

theorem mem_of_mem_wordsFrom
    {word found cs : List Char}
    {c : Char}
    (hFound : found ∈ wordsFrom word cs)
    (hChar : c ∈ found) :
    c ∈ word ∨ c ∈ cs := by
  have hRead : ∀ read : List Char, found ∈ wordsFrom read [] → c ∈ read := by
    intro read hMember
    rw [(eq_of_mem_wordsFrom_nil hMember).2] at hChar
    exact List.mem_reverse.mp hChar
  induction cs generalizing word with
  | nil => exact .inl (hRead word hFound)
  | cons d cs ih =>
      cases hFirst : isBlank d with
      | true =>
          rw [wordsFrom_cons_of_blank hFirst] at hFound
          rcases List.mem_append.mp hFound with hHere | hBehind
          · exact .inl (hRead word hHere)
          · exact .inr (List.mem_cons_of_mem d ((ih hBehind).resolve_left List.not_mem_nil))
      | false =>
          rw [wordsFrom_cons_of_solid hFirst] at hFound
          rw [List.mem_cons, or_left_comm, ← or_assoc, ← List.mem_cons]
          exact ih hFound

/- A word holds only characters of its text. -/
theorem mem_of_mem_words
    {word cs : List Char}
    {c : Char}
    (hWord : word ∈ words cs)
    (hChar : c ∈ word) :
    c ∈ cs :=
  (mem_of_mem_wordsFrom hWord hChar).resolve_left List.not_mem_nil

end Text

open Text (Unbroken words words_append_blank joinWith)

------------------------------------------------------------
-- Lines
------------------------------------------------------------

namespace Table

/-
  A line of a wrapped text: its words have a single space
  between them, and it is no wider than allowed unless it is a
  word.
-/
structure IsLine
    (width : Nat)
    (line : List Char) : Prop where
  spaced : line = joinWith [' '] (words line)
  fits : line.length ≤ width ∨ words line = [line]

/- The first word of the next line does not fit on a line, with a space. -/
def Overflows
    (width : Nat)
    (line next : List Char) : Prop :=
  ∃ word ∈ (words next).head?, width < line.length + 1 + word.length

/- Lines that take as many words as they can, one after the other. -/
structure IsFilled
    (width : Nat)
    (lines : List (List Char)) : Prop where
  isLine : ∀ line ∈ lines, IsLine width line
  full : List.IsChain (Overflows width) lines

/- A word is a line, however long it is. -/
theorem isLine_of_unbroken
    {word : List Char}
    (hWord : Unbroken word)
    (width : Nat) :
    IsLine width word := by
  constructor
  · rw [hWord.words_eq]
    rfl
  · exact .inr hWord.words_eq

/- A further word goes to the words of a line. -/
theorem words_append_word
    {word : List Char}
    (hWord : Unbroken word)
    (line : List Char) :
    words (line ++ ' ' :: word) = words line ++ [word] := by
  rw [words_append_blank (by decide), hWord.words_eq]

/- A line that has words can take a word that fits. -/
theorem IsLine.append_word
    {width : Nat}
    {line word : List Char}
    (hLine : IsLine width line)
    (hSome : words line ≠ [])
    (hWord : Unbroken word)
    (hFits : line.length + 1 + word.length ≤ width) :
    IsLine width (line ++ ' ' :: word) := by
  constructor
  · rw [words_append_word hWord, Text.joinWith_concat hSome, ← hLine.spaced]
    simp
  · left
    simp only [List.length_append, List.length_cons]
    omega

------------------------------------------------------------
-- Filling
------------------------------------------------------------

section Fill

variable {width : Nat} {line : List Char} {rest : List (List Char)}

/- The lines have the words of the line so far, and then the others. -/
theorem flatMap_words_fill
    (hRest : ∀ word ∈ rest, Unbroken word) :
    (fill width line rest).flatMap words = words line ++ rest := by
  induction rest generalizing line with
  | nil => simp [fill]
  | cons word rest ih =>
      rw [List.forall_mem_cons] at hRest
      rw [fill]
      split
      · rw [ih hRest.2, words_append_word hRest.1, List.append_assoc, List.singleton_append]
      · rw [List.flatMap_cons, ih hRest.2, hRest.1.words_eq, List.singleton_append]

/- The first line starts with the first word of the line so far. -/
theorem head?_words_fill
    (hSome : words line ≠ [])
    (hRest : ∀ word ∈ rest, Unbroken word) :
    ∀ first ∈ (fill width line rest).head?, (words first).head? = (words line).head? := by
  induction rest generalizing line with
  | nil =>
      intro first hFirst
      rw [fill, List.head?_cons, Option.mem_some_iff] at hFirst
      rw [hFirst]
  | cons word rest ih =>
      rw [List.forall_mem_cons] at hRest
      rw [fill]
      split
      · intro first hFirst
        have hLonger : words (line ++ ' ' :: word) ≠ [] := by
          simp [words_append_word hRest.1]
        rw [ih hLonger hRest.2 first hFirst, words_append_word hRest.1,
          List.head?_append_of_ne_nil _ hSome]
      · intro first hFirst
        rw [List.head?_cons, Option.mem_some_iff] at hFirst
        rw [hFirst]

/- The lines take as many words as they can if the line so far does. -/
theorem isFilled_fill
    (hLine : IsLine width line)
    (hSome : words line ≠ [])
    (hRest : ∀ word ∈ rest, Unbroken word) :
    IsFilled width (fill width line rest) := by
  induction rest generalizing line with
  | nil =>
      refine ⟨?_, List.isChain_singleton line⟩
      intro found hFound
      rw [List.mem_singleton.mp hFound]
      exact hLine
  | cons word rest ih =>
      rw [List.forall_mem_cons] at hRest
      rw [fill]
      split
      · next hFits =>
          refine ih (hLine.append_word hSome hRest.1 hFits) ?_ hRest.2
          simp [words_append_word hRest.1]
      · next hFits =>
          have hWord : words word ≠ [] := by
            simp [hRest.1.words_eq]
          have hBelow := ih (isLine_of_unbroken hRest.1 width) hWord hRest.2
          refine ⟨List.forall_mem_cons.mpr ⟨hLine, hBelow.isLine⟩, ?_⟩
          rw [List.isChain_cons]
          refine ⟨?_, hBelow.full⟩
          intro next hNext
          refine ⟨word, ?_, by omega⟩
          rw [head?_words_fill hWord hRest.2 next hNext, hRest.1.words_eq]
          rfl

end Fill

/- The lines made of the words of a text. -/
theorem fillLines_words
    (width : Nat)
    (content : List Char) :
    (fillLines width (words content)).flatMap words = words content ∧
      IsFilled width (fillLines width (words content)) := by
  have hWords : ∀ word ∈ words content, Unbroken word :=
    fun _ hWord => Text.unbroken_of_mem_words hWord
  cases hRow : words content with
  | nil => exact ⟨rfl, List.forall_mem_nil _, List.isChain_nil⟩
  | cons word rest =>
      rw [hRow, List.forall_mem_cons] at hWords
      have hFirst := hWords.1.words_eq
      constructor
      · rw [fillLines, flatMap_words_fill hWords.2, hFirst, List.singleton_append]
      · exact isFilled_fill (isLine_of_unbroken hWords.1 width) (by simp [hFirst]) hWords.2

------------------------------------------------------------
-- Lines one below the other
------------------------------------------------------------

/- The words of lines are those of the text that they make. -/
theorem words_joinWith
    (lines : List (List Char)) :
    words (joinWith ['\n'] lines) = lines.flatMap words := by
  induction lines with
  | nil => rfl
  | cons line lines ih =>
      cases lines with
      | nil => simp [joinWith]
      | cons second lines =>
          rw [Text.joinWith_cons_cons, List.append_assoc, List.singleton_append,
            words_append_blank (by decide), ih]
          rfl

/- A line has no line breaks. -/
theorem IsLine.newline_not_mem
    {width : Nat}
    {line : List Char}
    (hLine : IsLine width line) :
    '\n' ∉ line := by
  intro hMember
  rw [hLine.spaced] at hMember
  rcases Text.mem_of_mem_joinWith hMember with hSpace | ⟨word, hWord, hInside⟩
  · simp at hSpace
  · have hSolid := (Text.unbroken_of_mem_words hWord).2 _ hInside
    exact absurd hSolid (by decide)

theorem wrap_of_kept
    {width : Nat}
    {content : List Char}
    (hKept : '\n' ∈ content ∨ content.length ≤ width) :
    wrap width content = content := by
  rw [wrap, if_pos (by simpa using hKept)]

theorem wrap_of_long
    {width : Nat}
    {content : List Char}
    (hLine : '\n' ∉ content)
    (hLong : width < content.length) :
    wrap width content = joinWith ['\n'] (fillLines width (words content)) := by
  rw [wrap, if_neg (by simp [hLine, hLong])]

/- The lines of a wrapped text take as many words as they can. -/
theorem isFilled_wrap
    {width : Nat}
    {content : List Char}
    (hLine : '\n' ∉ content)
    (hLong : width < content.length) :
    IsFilled width (Text.split '\n' (wrap width content)) := by
  have hFilled := (fillLines_words width content).2
  rw [wrap_of_long hLine hLong, Text.split_eq_splitOn]
  by_cases hNone : fillLines width (words content) = []
  · rw [hNone]
    refine ⟨?_, List.isChain_singleton _⟩
    intro line hMember
    rw [List.mem_singleton.mp hMember]
    exact ⟨rfl, .inl (Nat.zero_le width)⟩
  · rw [Text.joinWith_eq_intercalate,
      List.splitOn_intercalate _ (fun line hMember => (hFilled.isLine line hMember).newline_not_mem)
        hNone]
    exact hFilled

/- A wrapped text holds only characters of the text, spaces and line breaks. -/
theorem mem_of_mem_wrap
    {width : Nat}
    {content : List Char}
    {c : Char}
    (hChar : c ∈ wrap width content) :
    c ∈ content ∨ c = ' ' ∨ c = '\n' := by
  by_cases hKept : '\n' ∈ content ∨ content.length ≤ width
  · rw [wrap_of_kept hKept] at hChar
    exact .inl hChar
  · rw [not_or, not_le] at hKept
    rcases fillLines_words width content with ⟨hWords, hFilled⟩
    rw [wrap_of_long hKept.1 hKept.2] at hChar
    rcases Text.mem_of_mem_joinWith hChar with hBreak | ⟨line, hLine, hInside⟩
    · exact .inr (.inr (List.mem_singleton.mp hBreak))
    rw [(hFilled.isLine line hLine).spaced] at hInside
    rcases Text.mem_of_mem_joinWith hInside with hSpace | ⟨word, hWord, hInside⟩
    · exact .inr (.inl (List.mem_singleton.mp hSpace))
    · have hMember : word ∈ words content := by
        rw [← hWords]
        exact List.mem_flatMap.mpr ⟨line, hLine, hWord⟩
      exact .inl (Text.mem_of_mem_words hMember hInside)

/- A single line stays as it is. -/
theorem IsLine.wrap_eq
    {width : Nat}
    {line : List Char}
    (hLine : IsLine width line) :
    wrap width line = line := by
  by_cases hShort : line.length ≤ width
  · exact wrap_of_kept (.inr hShort)
  · have hWord := hLine.fits.resolve_left hShort
    rw [wrap_of_long hLine.newline_not_mem (by omega), hWord]
    rfl

/- Wrapping again changes nothing. -/
theorem wrap_wrap
    (width : Nat)
    (content : List Char) :
    wrap width (wrap width content) = wrap width content := by
  by_cases hKept : '\n' ∈ content ∨ content.length ≤ width
  · rw [wrap_of_kept hKept, wrap_of_kept hKept]
  · rw [not_or, not_le] at hKept
    have hFilled := isFilled_wrap hKept.1 hKept.2
    by_cases hBreak : '\n' ∈ wrap width content
    · exact wrap_of_kept (.inl hBreak)
    · -- Without a line break the wrapped text is its only line.
      rw [Text.split_eq_splitOn, List.splitOn_eq_singleton hBreak] at hFilled
      exact (hFilled.isLine _ List.mem_cons_self).wrap_eq

/-
  A text of one line that is too wide is wrapped greedily: its
  words stay the same, with single spaces or line breaks between
  them; a line is no wider than allowed unless it is a single
  word; and no line could also take the first word of the next.
  Wrapping any text again changes nothing.
-/
theorem wrap_greedy
    (width : Nat)
    (content : List Char) :
    ('\n' ∉ content → width < content.length →
      words (wrap width content) = words content ∧
        IsFilled width (Text.split '\n' (wrap width content))) ∧
      wrap width (wrap width content) = wrap width content := by
  refine ⟨fun hLine hLong => ⟨?_, isFilled_wrap hLine hLong⟩, wrap_wrap width content⟩
  rw [wrap_of_long hLine hLong, words_joinWith, (fillLines_words width content).1]

/- Blanks of several kinds, a word that is too wide, and words that fill a line. -/
theorem wrap_greedy_wideWord :
    let content := " ab\tc  defghij\u00a0k l mn ".toList
    '\n' ∉ content ∧ 5 < content.length ∧
      wrap 5 content = "ab c\ndefghij\nk l\nmn".toList ∧
      words (wrap 5 content) = words content ∧
      IsFilled 5 (Text.split '\n' (wrap 5 content)) ∧
      wrap 5 (wrap 5 content) = wrap 5 content := by
  intro content
  have hLine : '\n' ∉ content := by
    decide
  have hLong : 5 < content.length := by
    decide
  rcases wrap_greedy 5 content with ⟨hGreedy, hAgain⟩
  rcases hGreedy hLine hLong with ⟨hWords, hFilled⟩
  exact ⟨hLine, hLong, by decide, hWords, hFilled, hAgain⟩

end Table

end JqLens
