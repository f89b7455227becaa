import JqLens.Policy
import JqLens.Text.Lines
import JqLens.Proofs.Blank
import Mathlib.Data.List.Infix

/-
  This file develops the theory of the deny list. Whether a text
  holds a refused construct is a matter of where refused words
  and the environment variable start in it; characters that
  belong to no word and start no construct separate texts from
  each other, so that joining, cutting and trimming texts at
  such characters neither makes a construct nor hides one.

  Key definitions include:
    * `DenyList.Starts`
    * `DenyList.Hits`
    * `DenyList.isSeparator`

  Main results:
    * `DenyList.search_isSome_iff`
    * `DenyList.hits_append_separator`
    * `DenyList.hits_joinWith`
    * `DenyList.hits_trim`
-/

namespace JqLens.DenyList

------------------------------------------------------------
-- Words
------------------------------------------------------------

/- A refused word is not empty and consists of word characters. -/
theorem word_shape :
    ∀ word ∈ words,
      word ≠ [] ∧ (∀ c ∈ word, Text.isWord c = true) := by
  have hWords : ∀ word ∈ words, word ≠ [] ∧ word.all Text.isWord = true := by
    decide
  intro word hMember
  rcases hWords word hMember with ⟨hSome, hAll⟩
  exact ⟨hSome, List.all_eq_true.mp hAll⟩

/- A text that starts with a refused word starts with a word character. -/
theorem inWord_head?_of_prefix
    {word cs : List Char}
    (hWord : word ∈ words)
    (hPrefix : word <+: cs) :
    inWord cs.head? = true := by
  rcases hPrefix with ⟨rest, rfl⟩
  rcases word with _ | ⟨c, word⟩
  · exact absurd rfl (word_shape _ hWord).1
  · exact (word_shape _ hWord).2 c List.mem_cons_self

theorem inWord_getLast?_word
    {word : List Char}
    (hWord : word ∈ words) :
    inWord word.getLast? = true := by
  revert word
  decide

/- What is behind a prefix is the text without it. -/
theorem dropPrefix?_eq_some_iff
    {start cs rest : List Char} :
    dropPrefix? start cs = some rest ↔ cs = start ++ rest := by
  unfold dropPrefix?
  split
  · next hPrefix =>
      rcases List.isPrefixOf_iff_prefix.mp hPrefix with ⟨behind, rfl⟩
      rw [List.drop_left, Option.some.injEq, List.append_cancel_left_eq]
  · next hPrefix =>
      constructor
      · intro hNone
        exact absurd hNone (by simp)
      · rintro rfl
        exact absurd (List.isPrefixOf_iff_prefix.mpr (List.prefix_append start rest)) hPrefix

/-
  A word that ends with a word character is found where a text
  starts with it and no word character follows.
-/
theorem wordAt_isSome_iff
    {word cs : List Char}
    (hLast : inWord word.getLast? = true) :
    (wordAt word cs).isSome = true ↔
      word <+: cs ∧ inWord (cs.drop word.length).head? = false := by
  unfold wordAt
  split
  · next rest hDrop =>
      rw [dropPrefix?_eq_some_iff] at hDrop
      rw [hDrop, List.drop_left, boundary, hLast]
      cases inWord rest.head? <;> simp
  · next hDrop =>
      constructor
      · intro hNone
        exact absurd hNone (by simp)
      · rintro ⟨⟨rest, hRest⟩, -⟩
        rw [dropPrefix?_eq_some_iff.mpr hRest.symm] at hDrop
        exact absurd hDrop (by simp)

------------------------------------------------------------
-- Constructs
------------------------------------------------------------

/-
  A text whose preceding character is `before` starts with the
  environment variable, or with a refused word that stands on
  its own.
-/
def Starts
    (before : Option Char)
    (cs : List Char) : Prop :=
  environment <+: cs ∨
    ∃ word ∈ words,
      word <+: cs ∧
        inWord before = false ∧
        inWord (cs.drop word.length).head? = false

/- A construct starts somewhere in a text. -/
def Hits
    (before : Option Char) : List Char → Prop
  | [] => False
  | c :: cs => Starts before (c :: cs) ∨ Hits (some c) cs

theorem hits_cons
    (before : Option Char)
    (c : Char)
    (cs : List Char) :
    Hits before (c :: cs) ↔ Starts before (c :: cs) ∨ Hits (some c) cs :=
  Iff.rfl

/- A text that holds the environment variable is hit. -/
theorem hits_of_environment
    {cs : List Char}
    (hInfix : environment <:+: cs)
    (before : Option Char) :
    Hits before cs := by
  induction cs generalizing before with
  | nil => exact absurd (List.eq_nil_of_infix_nil hInfix) (by decide)
  | cons c cs ih =>
      rcases List.infix_cons_iff.mp hInfix with hPrefix | hInfix
      · exact Or.inl (Or.inl hPrefix)
      · exact Or.inr (ih hInfix (some c))

/- A text through an environment variable holds it. -/
theorem infix_of_throughEnvironment
    {cs : List Char}
    (hFound : (throughEnvironment cs).isSome = true) :
    environment <:+: cs := by
  induction cs with
  | nil => simp [throughEnvironment] at hFound
  | cons c cs ih =>
      unfold throughEnvironment at hFound
      split at hFound
      · simp at hFound
      split at hFound
      · next found hLater =>
          exact List.infix_cons (ih (by rw [hLater]; rfl))
      · exact ((wordAt_isSome_iff (by decide)).mp hFound).1.isInfix

/- A call of the path function is refused only with the environment variable in it. -/
theorem infix_of_pathCallAt
    {cs : List Char}
    (hFound : (pathCallAt cs).isSome = true) :
    environment <:+: cs := by
  unfold pathCallAt at hFound
  split at hFound
  · simp at hFound
  · next rest hDrop =>
      rw [dropPrefix?_eq_some_iff] at hDrop
      split at hFound
      · next inner hOpen =>
          rw [Option.isSome_map] at hFound
          have hInner := infix_of_throughEnvironment hFound
          have hSuffix : '(' :: inner <:+ rest := hOpen ▸ List.dropWhile_suffix _
          rw [hDrop]
          exact ((hInner.trans (List.suffix_cons '(' inner).isInfix).trans
            hSuffix.isInfix).trans (List.suffix_append pathWord rest).isInfix
      · simp at hFound

/- Where a construct starts the match is not empty. -/
theorem matchAt_isSome_of_starts
    {before : Option Char}
    {cs : List Char}
    (hStarts : Starts before cs) :
    (matchAt before cs).isSome = true := by
  unfold matchAt
  rw [Option.isSome_or, Bool.or_eq_true]
  rcases hStarts with ⟨rest, hPrefix⟩ | ⟨word, hWord, hPrefix, hBefore, hAfter⟩
  · right
    rw [dropPrefix?_eq_some_iff.mpr hPrefix.symm]
    rfl
  · left
    have hHead := inWord_head?_of_prefix hWord hPrefix
    have hFound : (words.findSome? fun word => wordAt word cs).isSome = true := by
      rw [List.findSome?_isSome_iff]
      refine ⟨word, hWord, ?_⟩
      exact (wordAt_isSome_iff (inWord_getLast?_word hWord)).mpr ⟨hPrefix, hAfter⟩
    rw [boundary, hBefore, hHead, if_pos (by decide), Option.isSome_or, hFound]
    rfl

/- A match means that the text is hit, there or further on. -/
theorem hits_of_matchAt
    {before : Option Char}
    {c : Char}
    {cs : List Char}
    (hMatch : (matchAt before (c :: cs)).isSome = true) :
    Hits before (c :: cs) := by
  unfold matchAt at hMatch
  rw [Option.isSome_or, Bool.or_eq_true] at hMatch
  rcases hMatch with hBounded | hEnvironment
  · split at hBounded
    · next hBoundary =>
        rw [Option.isSome_or, Bool.or_eq_true] at hBounded
        rcases hBounded with hWords | hPath
        · rw [List.findSome?_isSome_iff] at hWords
          rcases hWords with ⟨word, hWord, hFound⟩
          rcases (wordAt_isSome_iff (inWord_getLast?_word hWord)).mp hFound with
            ⟨hPrefix, hAfter⟩
          have hHead := inWord_head?_of_prefix hWord hPrefix
          have hBefore : inWord before = false := by
            rw [boundary, hHead] at hBoundary
            simpa using hBoundary
          exact Or.inl (Or.inr ⟨word, hWord, hPrefix, hBefore, hAfter⟩)
        · exact hits_of_environment (infix_of_pathCallAt hPath) before
    · simp at hBounded
  · rw [Option.isSome_map] at hEnvironment
    rcases Option.isSome_iff_exists.mp hEnvironment with ⟨rest, hDrop⟩
    rw [dropPrefix?_eq_some_iff] at hDrop
    exact Or.inl (Or.inl ⟨rest, hDrop.symm⟩)

/- The search finds something exactly in the texts that are hit. -/
theorem search_isSome_iff
    (before : Option Char)
    (cs : List Char) :
    (search before cs).isSome = true ↔ Hits before cs := by
  induction cs generalizing before with
  | nil => simp [search, Hits]
  | cons c cs ih =>
      unfold search
      split
      · next found hMatch =>
          have hHits : Hits before (c :: cs) :=
            hits_of_matchAt (by rw [hMatch]; rfl)
          simp [hHits]
      · next hNone =>
          have hNotHere : ¬ Starts before (c :: cs) := by
            intro hStarts
            have hMatch := matchAt_isSome_of_starts hStarts
            rw [hNone] at hMatch
            exact absurd hMatch (by simp)
          rw [ih, Hits]
          exact (or_iff_right hNotHere).symm

------------------------------------------------------------
-- Separators
------------------------------------------------------------

/- A character that belongs to no word and starts no construct. -/
def isSeparator (c : Char) : Bool :=
  !Text.isWord c && c != '$'

theorem isSeparator_of_isBlank
    {c : Char}
    (hBlank : Text.isBlank c = true) :
    isSeparator c = true := by
  have hDollar : c ≠ '$' := by
    rintro rfl
    exact absurd hBlank (by decide)
  simp [isSeparator, Text.isWord_of_isBlank hBlank, hDollar]

/- No construct holds a separator. -/
theorem separator_not_mem_word
    {c : Char}
    {word : List Char}
    (hSeparator : isSeparator c = true)
    (hWord : word ∈ words) :
    c ∉ word := by
  intro hMember
  have hChar := (word_shape word hWord).2 c hMember
  simp [isSeparator, hChar] at hSeparator

theorem separator_not_mem_environment
    {c : Char}
    (hSeparator : isSeparator c = true) :
    c ∉ environment := by
  have hNone : environment.any isSeparator = false := by
    decide
  intro hMember
  exact List.any_eq_false.mp hNone c hMember hSeparator

/- A text without a character is a prefix only of what stands in front of it. -/
theorem prefix_append_cons_iff
    {c : Char}
    {word : List Char}
    (hNot : c ∉ word)
    (as bs : List Char) :
    word <+: as ++ c :: bs ↔ word <+: as := by
  induction as generalizing word with
  | nil =>
      rcases word with _ | ⟨d, word⟩
      · simp
      · rw [List.nil_append, List.cons_prefix_cons, List.prefix_nil]
        have hOther : d ≠ c := fun hEqual => hNot (hEqual ▸ List.mem_cons_self)
        simp [hOther]
  | cons a as ih =>
      rcases word with _ | ⟨d, word⟩
      · simp
      · rw [List.cons_append, List.cons_prefix_cons, List.cons_prefix_cons,
          ih (fun hMember => hNot (List.mem_cons_of_mem d hMember))]

/- Whether a construct starts a text is settled in front of a separator. -/
theorem starts_append_separator
    {c : Char}
    (hSeparator : isSeparator c = true)
    (before : Option Char)
    (as bs : List Char) :
    Starts before (as ++ c :: bs) ↔ Starts before as := by
  have hNoWord : inWord (some c) = false := by
    rw [isSeparator, Bool.and_eq_true, Bool.not_eq_true'] at hSeparator
    exact hSeparator.1
  have hAfter : ∀ word : List Char, word <+: as →
      inWord ((as ++ c :: bs).drop word.length).head? =
        inWord (as.drop word.length).head? := by
    intro word hPrefix
    rw [List.drop_append_of_le_length hPrefix.length_le]
    rcases as.drop word.length with _ | ⟨d, rest⟩
    · exact hNoWord
    · rfl
  unfold Starts
  rw [prefix_append_cons_iff (separator_not_mem_environment hSeparator)]
  apply or_congr Iff.rfl
  constructor
  · rintro ⟨word, hWord, hPrefix, hBefore, hBehind⟩
    rw [prefix_append_cons_iff (separator_not_mem_word hSeparator hWord)] at hPrefix
    exact ⟨word, hWord, hPrefix, hBefore, hAfter word hPrefix ▸ hBehind⟩
  · rintro ⟨word, hWord, hPrefix, hBefore, hBehind⟩
    refine ⟨word, hWord, ?_, hBefore, (hAfter word hPrefix).trans hBehind⟩
    exact (prefix_append_cons_iff (separator_not_mem_word hSeparator hWord) as bs).mpr hPrefix

theorem not_starts_nil
    (before : Option Char) :
    ¬ Starts before [] := by
  rintro (hPrefix | ⟨word, hWord, hPrefix, -⟩)
  · exact absurd (List.prefix_nil.mp hPrefix) (by decide)
  · exact (word_shape word hWord).1 (List.prefix_nil.mp hPrefix)

/- Of the preceding character only matters whether it belongs to a word. -/
theorem hits_congr
    {before other : Option Char}
    (hSame : inWord before = inWord other)
    (cs : List Char) :
    Hits before cs ↔ Hits other cs := by
  cases cs with
  | nil => exact Iff.rfl
  | cons c cs =>
      unfold Hits Starts
      rw [hSame]

/-
  A separator separates: what is hit around it is hit in front
  of it or behind it.
-/
theorem hits_append_separator
    {c : Char}
    (hSeparator : isSeparator c = true)
    (before : Option Char)
    (as bs : List Char) :
    Hits before (as ++ c :: bs) ↔ Hits before as ∨ Hits none bs := by
  induction as generalizing before with
  | nil =>
      have hNotHere : ¬ Starts before ([] ++ c :: bs) := by
        rw [starts_append_separator hSeparator]
        exact not_starts_nil before
      have hNoWord : inWord (some c) = inWord none := by
        rw [isSeparator, Bool.and_eq_true, Bool.not_eq_true'] at hSeparator
        exact hSeparator.1
      rw [List.nil_append] at hNotHere ⊢
      rw [hits_cons, or_iff_right hNotHere, hits_congr hNoWord]
      exact (or_iff_right id).symm
  | cons a as ih =>
      rw [List.cons_append, hits_cons, hits_cons, ih, ← List.cons_append,
        starts_append_separator hSeparator, or_assoc]

/- Separators in front of a text change nothing. -/
theorem hits_separators_append
    {separators : List Char}
    (hSeparators : ∀ c ∈ separators, isSeparator c = true)
    (cs : List Char) :
    Hits none (separators ++ cs) ↔ Hits none cs := by
  induction separators with
  | nil => exact Iff.rfl
  | cons c separators ih =>
      have hSplit := hits_append_separator (hSeparators c List.mem_cons_self) none []
        (separators ++ cs)
      rw [List.nil_append] at hSplit
      rw [List.cons_append, hSplit,
        ih (fun d hMember => hSeparators d (List.mem_cons_of_mem c hMember))]
      exact or_iff_right id

/- Separators between two texts separate them. -/
theorem hits_append_separators
    {separators : List Char}
    (hSome : separators ≠ [])
    (hSeparators : ∀ c ∈ separators, isSeparator c = true)
    (as bs : List Char) :
    Hits none (as ++ (separators ++ bs)) ↔ Hits none as ∨ Hits none bs := by
  cases separators with
  | nil => exact absurd rfl hSome
  | cons c separators =>
      have hOthers : ∀ d ∈ separators, isSeparator d = true :=
        fun d hMember => hSeparators d (List.mem_cons_of_mem c hMember)
      rw [List.cons_append, hits_append_separator (hSeparators c List.mem_cons_self),
        hits_separators_append hOthers]

/- Texts joined by separators are hit where one of them is. -/
theorem hits_joinWith
    {separators : List Char}
    (hSome : separators ≠ [])
    (hSeparators : separators.all isSeparator = true)
    (pieces : List (List Char)) :
    Hits none (Text.joinWith separators pieces) ↔
      ∃ piece ∈ pieces, Hits none piece := by
  induction pieces with
  | nil => simp [Text.joinWith, Hits]
  | cons piece pieces ih =>
      cases pieces with
      | nil => simp [Text.joinWith]
      | cons second pieces =>
          rw [Text.joinWith_cons_cons, List.append_assoc,
            hits_append_separators hSome (List.all_eq_true.mp hSeparators), ih]
          simp only [List.exists_mem_cons_iff]

/- Trimming changes nothing. -/
theorem hits_trim
    (cs : List Char) :
    Hits none (Text.trim cs) ↔ Hits none cs := by
  rcases Text.exists_blanks_trim cs with ⟨lead, trail, hLead, hTrail, hEqual⟩
  have hFront := hits_separators_append
    (fun c hMember => isSeparator_of_isBlank (hLead c hMember)) (Text.trim cs ++ trail)
  have hBack : Hits none (Text.trim cs ++ trail) ↔ Hits none (Text.trim cs) := by
    rcases trail with _ | ⟨c, trail⟩
    · rw [List.append_nil]
    · have hSeparators : ∀ d ∈ c :: trail, isSeparator d = true :=
        fun d hMember => isSeparator_of_isBlank (hTrail d hMember)
      have hSplit := hits_append_separators (by simp) hSeparators (Text.trim cs) []
      rw [List.append_nil] at hSplit
      rw [hSplit]
      exact or_iff_left id
  calc
    Hits none (Text.trim cs) ↔ Hits none (Text.trim cs ++ trail) := hBack.symm
    _ ↔ Hits none (lead ++ (Text.trim cs ++ trail)) := hFront.symm
    _ ↔ Hits none cs := by rw [← hEqual]

end JqLens.DenyList
