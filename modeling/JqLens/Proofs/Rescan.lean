import JqLens.Proofs.Blank
import JqLens.Proofs.Lossless

/-
  This file proves that lexemes can be scanned again. A lexeme
  that is complete in front of a text is what the scan reads
  there, and it stays complete when the text behind it is cut
  short. So any lexemes in a row are the lexemes of their texts,
  wherever the row is cut out.

  Key definitions include:
    * `Access.bracketStep`
    * `Lexeme.isMark`
    * `Lexeme.Fitting`

  Main results:
    * `Access.read_of_fits`
    * `Lexeme.Fits.shorten`
    * `Lexeme.next_of_fits`
    * `Lexeme.scan_flatMap_text`
    * `Lexeme.fitting_append`
-/

namespace JqLens

------------------------------------------------------------
-- Texts in front of others
------------------------------------------------------------

/- What a shorter text starts with, the longer one starts with. -/
theorem head?_of_shorter
    {α : Type}
    {shorter rest : List α}
    (hPrefix : shorter <+: rest) :
    ∀ c ∈ shorter.head?, c ∈ rest.head? := by
  rcases hPrefix with ⟨behind, rfl⟩
  intro c hHead
  rw [Option.mem_def] at hHead ⊢
  rw [List.head?_append, hHead, Option.some_or]

theorem StopsAt.shorten
    {p : Char → Bool}
    {shorter rest : List Char}
    (hStops : StopsAt p rest)
    (hPrefix : shorter <+: rest) :
    StopsAt p shorter :=
  fun c hHead => hStops c (head?_of_shorter hPrefix c hHead)

------------------------------------------------------------
-- Path accesses
------------------------------------------------------------

namespace Access

theorem MarkFits.shorten
    {suppressed : Bool}
    {shorter rest : List Char}
    (hMark : MarkFits suppressed rest)
    (hPrefix : shorter <+: rest) :
    MarkFits suppressed shorter :=
  fun hNone hHead => hMark hNone (head?_of_shorter hPrefix _ hHead)

theorem NameFits.shorten
    {name shorter rest : List Char}
    (hName : NameFits name rest)
    (hPrefix : shorter <+: rest) :
    NameFits name shorter :=
  ⟨hName.1, hName.2.1, hName.2.2.shorten hPrefix⟩

/-
  What a character does to the scan for the closing bracket: it
  is the bracket itself, or the scan goes on with a number of
  open brackets, having seen the mark of a slice or not.
-/
def bracketStep
    (k : Quote.Cursor)
    (depth : Nat)
    (c : Char) : Option (Nat × Bool) :=
  if (k.step c).isLiteral then some (depth, false)
  else if c = '[' then some (depth + 1, false)
  else if c = ']' then
    if depth ≤ 1 then none
    else some (depth - 1, false)
  else some (depth, c = ':' && depth = 1)

theorem bracketSpan_cons
    (k : Quote.Cursor)
    (depth : Nat)
    (c : Char)
    (cs : List Char) :
    bracketSpan k depth (c :: cs) =
      match bracketStep k depth c with
      | none => ⟨[c], false, cs⟩
      | some (deeper, colon) => (bracketSpan (k.next c) deeper cs).push c colon := by
  rw [bracketSpan, bracketStep]
  split
  · rfl
  split
  · rfl
  split
  · split
    · rfl
    · rfl
  · rfl

theorem bracketSpan_of_closes
    {k : Quote.Cursor}
    {depth : Nat}
    {c : Char}
    (hStep : bracketStep k depth c = none)
    (cs : List Char) :
    bracketSpan k depth (c :: cs) = ⟨[c], false, cs⟩ := by
  rw [bracketSpan_cons, hStep]

theorem bracketSpan_of_continues
    {k : Quote.Cursor}
    {depth deeper : Nat}
    {c : Char}
    {colon : Bool}
    (hStep : bracketStep k depth c = some (deeper, colon))
    (cs : List Char) :
    bracketSpan k depth (c :: cs) = (bracketSpan (k.next c) deeper cs).push c colon := by
  rw [bracketSpan_cons, hStep]

/- A body ends where it does whatever is left of what is behind it. -/
theorem bracketSpan_of_shorter
    {k : Quote.Cursor}
    {depth : Nat}
    {cs shorter : List Char}
    (hPrefix : shorter <+: (bracketSpan k depth cs).rest) :
    bracketSpan k depth ((bracketSpan k depth cs).body ++ shorter) =
      { bracketSpan k depth cs with rest := shorter } := by
  induction cs generalizing k depth with
  | nil =>
      rw [List.prefix_nil.mp hPrefix]
      rfl
  | cons c cs ih =>
      cases hStep : bracketStep k depth c with
      | none =>
          rw [bracketSpan_of_closes hStep, List.singleton_append, bracketSpan_of_closes hStep]
      | some onward =>
          rw [bracketSpan_of_continues hStep] at hPrefix ⊢
          rw [BracketSpan.push, List.cons_append, bracketSpan_of_continues hStep, ih hPrefix]
          rfl

/- Behind the opening bracket the scan looks for its own closing one. -/
theorem bracketSpan_open
    (inner : List Char) :
    bracketSpan .outside 0 ('[' :: inner) = (bracketSpan .outside 1 inner).push '[' false :=
  bracketSpan_of_continues rfl inner

/- A question mark is taken exactly if it belongs to the access. -/
theorem takeMark_of_fits
    {suppressed : Bool}
    {rest : List Char}
    (hMark : MarkFits suppressed rest) :
    takeMark (mark suppressed ++ rest) = (suppressed, rest) := by
  cases suppressed with
  | true => rfl
  | false =>
      rcases rest with _ | ⟨c, rest⟩
      · rfl
      · have hQuestion : c ≠ '?' := fun hEqual => hMark rfl (congrArg some hEqual)
        unfold takeMark
        split
        · next hHead =>
            simp only [mark, if_neg Bool.false_ne_true, List.nil_append, List.cons.injEq] at hHead
            exact absurd hHead.1 hQuestion
        · rfl

/-
  An access that is complete in front of a text is complete in
  front of any text that this one starts with.
-/
theorem Fits.shorten
    {path : Access}
    {shorter rest : List Char}
    (hFits : path.Fits rest)
    (hPrefix : shorter <+: rest) :
    path.Fits shorter := by
  have hMarked : ∀ suppressed, mark suppressed ++ shorter <+: mark suppressed ++ rest :=
    fun suppressed => (List.prefix_append_right_inj _).mpr hPrefix
  cases path with
  | identity => exact StopsAt.shorten hFits hPrefix
  | recursiveDescent => trivial
  | iterate suppressed => exact MarkFits.shorten hFits hPrefix
  | bracket body slice suppressed =>
      rcases hFits with ⟨inner, hHead, hSpan, hMark⟩
      have hWhole := body_append_rest .outside 1 inner
      rw [bracketSpan_open, BracketSpan.push, BracketSpan.mk.injEq] at hSpan
      rcases hSpan with ⟨rfl, rfl, hRest⟩
      have hAgain := bracketSpan_of_shorter (hRest ▸ hMarked suppressed)
      refine ⟨(bracketSpan .outside 1 inner).body ++ (mark suppressed ++ shorter), ?_, ?_,
        hMark.shorten hPrefix⟩
      · intro hClose
        apply hHead
        rw [← hWhole, hRest]
        exact head?_of_shorter ((List.prefix_append_right_inj _).mpr (hMarked suppressed)) _ hClose
      · rw [bracketSpan_open, hAgain]
        rfl
  | field name suppressed =>
      rcases hFits with ⟨hName, hBrackets, hMark⟩
      refine ⟨hName.shorten (hMarked suppressed), ?_, hMark.shorten hPrefix⟩
      exact fun hOpen => hBrackets (hOpen.trans (hMarked suppressed))
  | fieldIterate name suppressed =>
      rcases hFits with ⟨hName, hMark⟩
      refine ⟨hName.shorten ?_, hMark.shorten hPrefix⟩
      exact (List.prefix_append_right_inj ['[', ']']).mpr (hMarked suppressed)

/- What is read at the opening bracket of a body. -/
theorem read_bracket
    {inner : List Char}
    (hHead : inner.head? ≠ some ']') :
    read ('[' :: inner) =
      let found := bracketSpan .outside 0 ('[' :: inner)
      let (suppressed, rest) := takeMark found.rest
      (bracket found.body found.slice suppressed, rest) := by
  rw [read]
  rintro rest rfl
  exact hHead rfl

/- What is read at the start of a name. -/
theorem read_name
    {c : Char}
    (hStart : Lexeme.isNameStart c = true)
    (cs : List Char) :
    read (c :: cs) =
      match (c :: cs).dropWhile Text.isAsciiWord with
      | '[' :: ']' :: rest =>
          let (suppressed, rest) := takeMark rest
          (fieldIterate ((c :: cs).takeWhile Text.isAsciiWord) suppressed, rest)
      | rest =>
          let (suppressed, rest) := takeMark rest
          (field ((c :: cs).takeWhile Text.isAsciiWord) suppressed, rest) := by
  have hOpen : c ≠ '[' := by
    rintro rfl
    exact absurd hStart (by decide)
  have hDot : c ≠ '.' := by
    rintro rfl
    exact absurd hStart (by decide)
  rw [read]
  · exact if_pos hStart
  · exact fun _ hEqual => absurd hEqual hOpen
  · exact hOpen
  · exact hDot

/- Nothing more is read where no access goes on. -/
theorem read_nothing
    {cs : List Char}
    (hStops : StopsAt (fun c => c == '[' || c == '.' || Lexeme.isNameStart c) cs) :
    read cs = (identity, cs) := by
  rcases cs with _ | ⟨c, cs⟩
  · rfl
  · have hStop := hStops c rfl
    simp only [Bool.or_eq_false_iff, beq_eq_false_iff_ne] at hStop
    rcases hStop with ⟨⟨hOpen, hDot⟩, hStart⟩
    rw [read]
    · exact if_neg (Bool.eq_false_iff.mp hStart)
    · exact fun _ hEqual => absurd hEqual hOpen
    · exact hOpen
    · exact hDot

/- An access that is complete in front of a text is read there. -/
theorem read_of_fits
    {path : Access}
    {cs rest : List Char}
    (hFits : path.Fits rest)
    (hText : path.text ++ rest = '.' :: cs) :
    read cs = (path, rest) := by
  -- What a name is read with, whatever is behind it.
  have hNamed : ∀ name behind, NameFits name behind →
      ∃ c tail, name ++ behind = c :: tail ∧ Lexeme.isNameStart c = true ∧
        (c :: tail).takeWhile Text.isAsciiWord = name ∧
        (c :: tail).dropWhile Text.isAsciiWord = behind := by
    rintro (_ | ⟨c, name⟩) behind ⟨hStart, hWord, hStops⟩
    · simp at hStart
    · exact ⟨c, name ++ behind, rfl, by simpa using hStart,
        takeWhile_of_stopsAt hWord hStops, dropWhile_of_stopsAt hWord hStops⟩
  cases path with
  | identity =>
      rw [← List.tail_eq_of_cons_eq hText]
      exact read_nothing hFits
  | recursiveDescent =>
      rw [← List.tail_eq_of_cons_eq hText]
      rfl
  | iterate suppressed =>
      rw [← List.tail_eq_of_cons_eq hText]
      exact congrArg (fun taken => (iterate taken.1, taken.2)) (takeMark_of_fits hFits)
  | bracket body slice suppressed =>
      rcases hFits with ⟨inner, hHead, hSpan, hMark⟩
      have hWhole := body_append_rest .outside 0 ('[' :: inner)
      rw [hSpan] at hWhole
      have hRest : body ++ mark suppressed ++ rest = cs := List.tail_eq_of_cons_eq hText
      rw [← hRest, List.append_assoc, hWhole, read_bracket hHead, hSpan]
      simp only [takeMark_of_fits hMark]
  | field name suppressed =>
      rcases hFits with ⟨hName, hBrackets, hMark⟩
      rcases hNamed _ _ hName with ⟨c, tail, hWhole, hStart, hTake, hDrop⟩
      have hRest : name ++ mark suppressed ++ rest = cs := List.tail_eq_of_cons_eq hText
      rw [← hRest, List.append_assoc, hWhole, read_name hStart, hTake, hDrop]
      split
      · next behind hOpen =>
          rw [hOpen] at hBrackets
          exact absurd ⟨behind, rfl⟩ hBrackets
      · simp only [takeMark_of_fits hMark]
  | fieldIterate name suppressed =>
      rcases hFits with ⟨hName, hMark⟩
      rcases hNamed _ _ hName with ⟨c, tail, hWhole, hStart, hTake, hDrop⟩
      have hRest : name ++ '[' :: ']' :: mark suppressed ++ rest = cs :=
        List.tail_eq_of_cons_eq hText
      rw [← hRest, List.append_assoc, List.cons_append, List.cons_append, hWhole,
        read_name hStart, hTake, hDrop]
      simp only [takeMark_of_fits hMark]

end Access

------------------------------------------------------------
-- Lexemes in front of shorter texts
------------------------------------------------------------

namespace Lexeme

/- A shorter text starts with the same long operator, or with none. -/
theorem longOperator?_of_shorter
    {cs shorter : List Char}
    (hPrefix : shorter <+: cs)
    (hLong : ∀ long, longOperator? cs = some long → long <+: shorter) :
    longOperator? shorter = longOperator? cs := by
  have hMono : ∀ long : List Char,
      long.isPrefixOf shorter = true → long.isPrefixOf cs = true := by
    intro long hFront
    rw [List.isPrefixOf_iff_prefix] at hFront ⊢
    exact hFront.trans hPrefix
  cases hFound : longOperator? cs with
  | none =>
      rw [longOperator?, List.find?_eq_none] at hFound ⊢
      exact fun long hMember hFront => hFound long hMember (hMono long hFront)
  | some long =>
      have hFront := hLong long hFound
      rw [longOperator?, List.find?_eq_some_iff_append] at hFound ⊢
      rcases hFound with ⟨-, before, behind, hList, hNone⟩
      refine ⟨List.isPrefixOf_iff_prefix.mpr hFront, before, behind, hList, ?_⟩
      intro other hMember
      have hOther := hNone other hMember
      rw [Bool.not_eq_true', ← Bool.not_eq_true] at hOther ⊢
      exact fun hShorter => hOther (hMono other hShorter)

/-
  A lexeme that is complete in front of a text is complete in
  front of any text that this one starts with.
-/
theorem Fits.shorten
    {lexeme : Lexeme}
    {shorter rest : List Char}
    (hFits : lexeme.Fits rest)
    (hPrefix : shorter <+: rest) :
    lexeme.Fits shorter := by
  have hText : ∀ text : List Char, text ++ shorter <+: text ++ rest :=
    fun text => (List.prefix_append_right_inj text).mpr hPrefix
  cases lexeme with
  | space text => exact ⟨hFits.1, hFits.2.1, hFits.2.2.shorten hPrefix⟩
  | literal text =>
      rcases hFits with ⟨body, hBody, hSpan⟩
      have hShorter : shorter <+: (Quote.span .inside (body ++ rest)).2 := by
        rw [hSpan]
        exact hPrefix
      have hAgain := Quote.span_of_shorter hShorter
      rw [hSpan] at hAgain
      exact ⟨body, hBody, hAgain⟩
  | number text =>
      rcases hFits with ⟨c, digits, hDigits, hFirst, hOthers, hStops⟩
      exact ⟨c, digits, hDigits, hFirst, hOthers, hStops.shorten hPrefix⟩
  | var name => exact ⟨hFits.1, hFits.2.shorten hPrefix⟩
  | format name => exact ⟨hFits.1, hFits.2.shorten hPrefix⟩
  | operator text =>
      have hSame : longOperator? (text ++ shorter) = longOperator? (text ++ rest) := by
        apply longOperator?_of_shorter (hText text)
        intro long hLong
        rcases hFits with hSelf | ⟨hNone, -⟩
        · rw [hSelf, Option.some.injEq] at hLong
          rw [← hLong]
          exact List.prefix_append text shorter
        · rw [hNone] at hLong
          exact absurd hLong (by simp)
      rw [Fits, hSame]
      exact hFits
  | access path => exact Access.Fits.shorten hFits hPrefix
  | word text => exact Access.NameFits.shorten hFits hPrefix
  | stray c =>
      rcases hFits with ⟨hBlank, hSign, hWord, hLong, hShort⟩
      refine ⟨hBlank, hSign, hWord, ?_, hShort⟩
      exact (longOperator?_of_shorter (hText [c]) (by simp [hLong])).trans hLong

/- Every lexeme that is complete takes up some text. -/
theorem Fits.text_ne_nil
    {lexeme : Lexeme}
    {rest : List Char}
    (hFits : lexeme.Fits rest) :
    lexeme.text ≠ [] := by
  cases lexeme with
  | space text => exact hFits.1
  | literal text =>
      rcases hFits with ⟨body, hBody, -⟩
      rw [Lexeme.text, hBody]
      exact List.cons_ne_nil _ _
  | number text =>
      rcases hFits with ⟨c, digits, hDigits, -⟩
      rw [Lexeme.text, hDigits]
      exact List.cons_ne_nil _ _
  | var name => exact List.cons_ne_nil _ _
  | format name => exact List.cons_ne_nil _ _
  | operator text =>
      rcases hFits with hLong | ⟨-, c, -, hText⟩
      · have hNone : [] ∉ longOperators := by
          decide
        rintro (rfl : text = [])
        exact hNone (mem_of_longOperator? hLong).1
      · rw [Lexeme.text, hText]
        exact List.cons_ne_nil _ _
  | access path => cases path <;> exact List.cons_ne_nil _ _
  | word text =>
      rintro (rfl : text = [])
      simp [Fits, Access.NameFits] at hFits
  | stray c => exact List.cons_ne_nil _ _

------------------------------------------------------------
-- The lexeme at the start of a text
------------------------------------------------------------

/-
  A character that starts no run of blanks, literal, number,
  variable or format.
-/
def isMark (c : Char) : Bool :=
  !(Text.isBlank c || c.isDigit || ['"', '$', '@'].contains c)

/- The lexeme that such a character starts. -/
theorem next_of_isMark
    {c : Char}
    (hMark : isMark c = true)
    (cs : List Char) :
    next c cs =
      match longOperator? (c :: cs) with
      | some long => (operator long, cs.drop (long.length - 1))
      | none =>
          if c = '.' then
            let (path, rest) := Access.read cs
            (access path, rest)
          else if shortOperators.contains c then
            (operator [c], cs)
          else if isNameStart c then
            (word (c :: cs.takeWhile Text.isAsciiWord), cs.dropWhile Text.isAsciiWord)
          else
            (stray c, cs) := by
  simp only [isMark, Bool.not_eq_true', Bool.or_eq_false_iff, List.contains_eq_mem,
    decide_eq_false_iff_not, List.mem_cons, not_or] at hMark
  rcases hMark with ⟨⟨hBlank, hDigit⟩, hQuote, hDollar, hAt, -⟩
  rw [next, if_neg (by simp [hBlank]), if_neg hQuote, if_neg (by simp [hDigit]),
    if_neg hDollar]
  exact if_neg hAt

/- No long operator starts with a character that none has at its front. -/
theorem longOperator?_eq_none
    {c : Char}
    (hHead : ∀ long ∈ longOperators, long.head? ≠ some c)
    (cs : List Char) :
    longOperator? (c :: cs) = none := by
  rw [longOperator?, List.find?_eq_none]
  intro long hMember hFront
  rw [List.isPrefixOf_iff_prefix, List.prefix_cons_iff] at hFront
  rcases hFront with rfl | ⟨others, rfl, -⟩
  · exact absurd hMember (by decide)
  · exact hHead _ hMember rfl

theorem isDigit_of_isNameStart
    {c : Char}
    (hStart : isNameStart c = true) :
    c.isDigit = false := by
  rw [isNameStart, Bool.or_eq_true, beq_iff_eq] at hStart
  rcases hStart with hLetter | rfl
  · rw [← Bool.not_eq_true]
    intro hDigit
    have hNine : c.val ≤ '9'.val := of_decide_eq_true (Bool.and_eq_true_iff.mp hDigit).2
    rcases Bool.or_eq_true_iff.mp hLetter with hUpper | hLower
    · have hFirst : 'A'.val ≤ c.val := (of_decide_eq_true hUpper).1
      exact absurd (UInt32.le_trans hFirst hNine) (by decide)
    · have hFirst : 'a'.val ≤ c.val := of_decide_eq_true (Bool.and_eq_true_iff.mp hLower).1
      exact absurd (UInt32.le_trans hFirst hNine) (by decide)
  · decide

/- A character of a word is none that no word has. -/
theorem ne_of_isAsciiWord
    {c other : Char}
    (hWord : Text.isAsciiWord c = true)
    (hOther : Text.isAsciiWord other = false) :
    c ≠ other := by
  rintro rfl
  rw [hWord] at hOther
  exact Bool.noConfusion hOther

theorem isMark_of_isNameStart
    {c : Char}
    (hStart : isNameStart c = true) :
    isMark c = true := by
  have hWord := isAsciiWord_of_isNameStart hStart
  have hBlank := Text.isBlank_of_isAsciiWord hWord
  have hDigit := isDigit_of_isNameStart hStart
  have hQuote : c ≠ '"' := ne_of_isAsciiWord hWord (by decide)
  have hDollar : c ≠ '$' := ne_of_isAsciiWord hWord (by decide)
  have hAt : c ≠ '@' := ne_of_isAsciiWord hWord (by decide)
  simp [isMark, hBlank, hDigit, hQuote, hDollar, hAt]

/- Every long operator starts with a mark that is neither a dot nor in a name. -/
theorem head?_of_mem_longOperators
    {long : List Char}
    (hMember : long ∈ longOperators) :
    ∃ c, long.head? = some c ∧ isMark c = true ∧ c ≠ '.' ∧ Text.isAsciiWord c = false := by
  have hAll : (longOperators.all fun long => long.head?.any fun c =>
      isMark c && c != '.' && !Text.isAsciiWord c) = true := by
    decide
  have hHead := List.all_eq_true.mp hAll long hMember
  simpa [Option.any_eq_true, and_assoc] using hHead

/- So is every short operator. -/
theorem isMark_of_mem_shortOperators
    {c : Char}
    (hMember : c ∈ shortOperators) :
    isMark c = true ∧ c ≠ '.' ∧ Text.isAsciiWord c = false := by
  have hAll : (shortOperators.all fun c =>
      isMark c && c != '.' && !Text.isAsciiWord c) = true := by
    decide
  have hShort := List.all_eq_true.mp hAll c hMember
  simpa [and_assoc] using hShort

/- What starts like a name is a name on its own. -/
theorem next_of_isNameStart
    {c : Char}
    (hStart : isNameStart c = true)
    (cs : List Char) :
    next c cs = (word (c :: cs.takeWhile Text.isAsciiWord), cs.dropWhile Text.isAsciiWord) := by
  have hWord := isAsciiWord_of_isNameStart hStart
  have hDot : c ≠ '.' := ne_of_isAsciiWord hWord (by decide)
  have hLong : longOperator? (c :: cs) = none := by
    apply longOperator?_eq_none
    intro long hMember hHead
    rcases head?_of_mem_longOperators hMember with ⟨d, hFirst, -, -, hOther⟩
    rw [hHead, Option.some.injEq] at hFirst
    exact ne_of_isAsciiWord hWord hOther hFirst
  have hShort : c ∉ shortOperators := by
    intro hMember
    exact ne_of_isAsciiWord hWord (isMark_of_mem_shortOperators hMember).2.2 rfl
  rw [next_of_isMark (isMark_of_isNameStart hStart), hLong]
  simp only [if_neg hDot, List.contains_eq_mem, hShort, decide_false, Bool.false_eq_true,
    if_false, hStart, if_true]

/- A lexeme that is complete in front of a text is the next one there. -/
theorem next_of_fits
    {lexeme : Lexeme}
    {c : Char}
    {cs rest : List Char}
    (hFits : lexeme.Fits rest)
    (hText : lexeme.text ++ rest = c :: cs) :
    next c cs = (lexeme, rest) := by
  cases lexeme with
  | space text =>
      rcases hFits with ⟨hSome, hBlanks, hStops⟩
      rcases text with _ | ⟨d, text⟩
      · exact absurd rfl hSome
      rw [Lexeme.text, List.cons_append, List.cons.injEq] at hText
      rcases hText with ⟨rfl, rfl⟩
      rw [List.forall_mem_cons] at hBlanks
      rw [next, if_pos hBlanks.1, takeWhile_of_stopsAt hBlanks.2 hStops,
        dropWhile_of_stopsAt hBlanks.2 hStops]
  | literal text =>
      rcases hFits with ⟨body, rfl, hSpan⟩
      rw [Lexeme.text, List.cons_append, List.cons.injEq] at hText
      rcases hText with ⟨rfl, rfl⟩
      rw [next, if_neg (by decide), if_pos rfl]
      simp only [hSpan]
  | number text =>
      rcases hFits with ⟨d, digits, rfl, hDigit, hDigits, hStops⟩
      rw [Lexeme.text, List.cons_append, List.cons.injEq] at hText
      rcases hText with ⟨rfl, rfl⟩
      have hBlank : Text.isBlank d = false :=
        Text.isBlank_of_isAsciiWord (by simp [Text.isAsciiWord, Char.isAlphanum, hDigit])
      have hQuote : d ≠ '"' := by
        rintro rfl
        exact absurd hDigit (by decide)
      rw [next, if_neg (by simp [hBlank]), if_neg hQuote, if_pos hDigit,
        takeWhile_of_stopsAt hDigits hStops, dropWhile_of_stopsAt hDigits hStops]
  | var name =>
      rw [Lexeme.text, List.cons_append, List.cons.injEq] at hText
      rcases hText with ⟨rfl, rfl⟩
      rw [next, if_neg (by decide), if_neg (by decide), if_neg (by decide), if_pos rfl,
        takeWhile_of_stopsAt hFits.1 hFits.2, dropWhile_of_stopsAt hFits.1 hFits.2]
  | format name =>
      rw [Lexeme.text, List.cons_append, List.cons.injEq] at hText
      rcases hText with ⟨rfl, rfl⟩
      rw [next, if_neg (by decide), if_neg (by decide), if_neg (by decide),
        if_neg (by decide), if_pos rfl,
        takeWhile_of_stopsAt hFits.1 hFits.2, dropWhile_of_stopsAt hFits.1 hFits.2]
  | operator text =>
      rw [Lexeme.text] at hText
      rcases hFits with hLong | ⟨hLong, d, hShort, rfl⟩
      · rcases mem_of_longOperator? hLong with ⟨hMember, -⟩
        rcases head?_of_mem_longOperators hMember with ⟨d, hHead, hMark, -⟩
        rw [hText] at hLong
        have hDrop := longOperator?_append_drop hLong
        have hFirst : d = c := by
          rcases List.head?_eq_some_iff.mp hHead with ⟨others, rfl⟩
          exact (List.cons.inj hText).1
        rw [← hText, List.append_cancel_left_eq] at hDrop
        rw [next_of_isMark (hFirst ▸ hMark), hLong]
        exact congrArg (Prod.mk _) hDrop
      · rcases isMark_of_mem_shortOperators hShort with ⟨hMark, hDot, -⟩
        rw [List.singleton_append] at hText hLong
        rcases List.cons.inj hText with ⟨rfl, rfl⟩
        rw [next_of_isMark hMark, hLong]
        simp only [if_neg hDot, List.contains_eq_mem, hShort, decide_true, if_true]
  | access path =>
      have hDot : c = '.' := by
        cases path <;> exact (List.cons.inj hText).1.symm
      subst hDot
      rw [next_of_isMark (by decide), longOperator?_eq_none (by decide), if_pos rfl]
      simp only [Access.read_of_fits hFits hText]
  | word text =>
      rcases hFits with ⟨hStart, hWord, hStops⟩
      rcases text with _ | ⟨d, text⟩
      · simp at hStart
      rw [Lexeme.text, List.cons_append, List.cons.injEq] at hText
      rcases hText with ⟨rfl, rfl⟩
      rw [List.forall_mem_cons] at hWord
      rw [List.head?_cons, Option.any_some] at hStart
      rw [next_of_isNameStart hStart, takeWhile_of_stopsAt hWord.2 hStops,
        dropWhile_of_stopsAt hWord.2 hStops]
  | stray d =>
      rcases hFits with ⟨hBlank, hSign, hWord, hLong, hShort⟩
      rw [Lexeme.text, List.singleton_append, List.cons.injEq] at hText
      rcases hText with ⟨rfl, rfl⟩
      simp only [List.mem_cons, not_or] at hSign
      rcases hSign with ⟨hQuote, hDollar, hAt, hDot, -⟩
      simp only [Text.isAsciiWord, Char.isAlphanum, Bool.or_eq_false_iff] at hWord
      have hMark : isMark d = true := by
        simp [isMark, hBlank, hWord.1.2, hQuote, hDollar, hAt]
      have hStart : isNameStart d = false := by
        simp [isNameStart, hWord]
      rw [next_of_isMark hMark, hLong]
      simp [hDot, hShort, hStart]

/- A lexeme that is complete in front of a text is the next one behind its first character. -/
theorem Fits.exists_next
    {lexeme : Lexeme}
    {c : Char}
    {rest : List Char}
    (hFits : lexeme.Fits rest)
    (hHead : lexeme.text.head? = some c) :
    ∃ cs, next c cs = (lexeme, rest) := by
  rcases List.head?_eq_some_iff.mp hHead with ⟨cs, hText⟩
  have hFront : lexeme.text ++ rest = c :: (cs ++ rest) := by
    rw [hText, List.cons_append]
  exact ⟨_, next_of_fits hFits hFront⟩

------------------------------------------------------------
-- Runs of lexemes
------------------------------------------------------------

/- Each lexeme is complete in front of the texts of the others behind it. -/
def Fitting : List Lexeme → Prop
  | [] => True
  | lexeme :: lexemes => lexeme.Fits (lexemes.flatMap text) ∧ Fitting lexemes

theorem fitting_scan
    (cs : List Char) :
    Fitting (scan cs) := by
  induction cs using scan.induct with
  | case1 =>
      rw [scan_nil]
      trivial
  | case2 c cs ih =>
      rw [scan_cons, Fitting, flatMap_text_scan]
      exact ⟨next_fits c cs, ih⟩

/- Scanning the texts of lexemes that fit gives the lexemes back. -/
theorem scan_flatMap_text
    {lexemes : List Lexeme}
    (hFitting : Fitting lexemes) :
    scan (lexemes.flatMap text) = lexemes := by
  induction lexemes with
  | nil => exact scan_nil
  | cons lexeme lexemes ih =>
      rw [List.flatMap_cons]
      rcases hText : lexeme.text with _ | ⟨c, cs⟩
      · exact absurd hText hFitting.1.text_ne_nil
      · have hFront : lexeme.text ++ lexemes.flatMap text = c :: (cs ++ lexemes.flatMap text) :=
          congrArg (· ++ lexemes.flatMap text) hText
        rw [List.cons_append, scan_cons, next_of_fits hFitting.1 hFront, ih hFitting.2]

/- Lexemes that fit may be cut anywhere. -/
theorem fitting_append
    {front back : List Lexeme}
    (hFitting : Fitting (front ++ back)) :
    Fitting front ∧ Fitting back := by
  induction front with
  | nil => exact ⟨trivial, hFitting⟩
  | cons lexeme front ih =>
      rw [List.cons_append] at hFitting
      rcases hFitting with ⟨hFits, hOthers⟩
      rcases ih hOthers with ⟨hFront, hBack⟩
      refine ⟨⟨hFits.shorten ?_, hFront⟩, hBack⟩
      rw [List.flatMap_append]
      exact List.prefix_append _ _

theorem Fitting.take
    {lexemes : List Lexeme}
    (hFitting : Fitting lexemes)
    (n : Nat) :
    Fitting (lexemes.take n) := by
  rw [← List.take_append_drop n lexemes] at hFitting
  exact (fitting_append hFitting).1

theorem Fitting.drop
    {lexemes : List Lexeme}
    (hFitting : Fitting lexemes)
    (n : Nat) :
    Fitting (lexemes.drop n) := by
  rw [← List.take_append_drop n lexemes] at hFitting
  exact (fitting_append hFitting).2

/- Lexemes that fit have some text, if there are any. -/
theorem Fitting.eq_nil
    {lexemes : List Lexeme}
    (hFitting : Fitting lexemes)
    (hEmpty : lexemes.flatMap text = []) :
    lexemes = [] := by
  cases lexemes with
  | nil => rfl
  | cons lexeme lexemes =>
      rw [List.flatMap_cons, List.append_eq_nil_iff] at hEmpty
      exact absurd hEmpty.1 hFitting.1.text_ne_nil

/- The last character of lexemes that fit is that of the last lexeme. -/
theorem Fitting.getLast?_flatMap
    {front : List Lexeme}
    {last : Lexeme}
    (hFitting : Fitting (front ++ [last])) :
    ((front ++ [last]).flatMap text).getLast? = last.text.getLast? := by
  rw [List.flatMap_append, List.flatMap_singleton, List.getLast?_append]
  exact Option.or_of_isSome
    (List.getLast?_isSome.mpr (fitting_append hFitting).2.1.text_ne_nil)

/- A lexeme of lexemes that fit is complete in front of something. -/
theorem Fitting.exists_fits
    {lexemes : List Lexeme}
    (hFitting : Fitting lexemes)
    {lexeme : Lexeme}
    (hMember : lexeme ∈ lexemes) :
    ∃ rest, lexeme.Fits rest := by
  induction lexemes with
  | nil => exact absurd hMember List.not_mem_nil
  | cons first lexemes ih =>
      rcases List.mem_cons.mp hMember with rfl | hOther
      · exact ⟨_, hFitting.1⟩
      · exact ih hFitting.2 hOther

end Lexeme

end JqLens
