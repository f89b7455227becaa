import JqLens.Text.Blank
import JqLens.Text.WordChar
import Mathlib.Data.List.DropRight
import Mathlib.Data.List.TakeWhile

/-
  This file develops the theory of blanks: what trimming takes
  away, which texts it leaves alone, and that a blank belongs to
  no word.

  Main results:
    * `exists_blanks_trim`
    * `trim_eq_self`
    * `trim_trim`
    * `trim_append_blanks`
    * `trim_ne_nil_iff`
    * `isWord_of_isBlank`
    * `isBlank_of_isAsciiWord`
-/

namespace JqLens.Text

------------------------------------------------------------
-- Trimming
------------------------------------------------------------

/- Trimming at the front takes blanks away. -/
theorem exists_blanks_trimStart
    (cs : List Char) :
    ∃ lead, (∀ c ∈ lead, isBlank c = true) ∧ cs = lead ++ trimStart cs :=
  ⟨cs.takeWhile isBlank,
    fun _ hMember => List.mem_takeWhile_imp hMember,
    List.takeWhile_append_dropWhile.symm⟩

/- Trimming at the back takes blanks away. -/
theorem exists_blanks_trimEnd
    (cs : List Char) :
    ∃ trail, (∀ c ∈ trail, isBlank c = true) ∧ cs = trimEnd cs ++ trail := by
  rcases exists_blanks_trimStart cs.reverse with ⟨lead, hLead, hEqual⟩
  refine ⟨lead.reverse, ?_, ?_⟩
  · intro c hMember
    exact hLead c (List.mem_reverse.mp hMember)
  · have hReverse := congrArg List.reverse hEqual
    rw [List.reverse_reverse, List.reverse_append] at hReverse
    exact hReverse

/- Trimming takes blanks away on both sides, and nothing else. -/
theorem exists_blanks_trim
    (cs : List Char) :
    ∃ lead trail,
      (∀ c ∈ lead, isBlank c = true) ∧
        (∀ c ∈ trail, isBlank c = true) ∧
        cs = lead ++ (trim cs ++ trail) := by
  rcases exists_blanks_trimStart cs with ⟨lead, hLead, hStart⟩
  rcases exists_blanks_trimEnd (trimStart cs) with ⟨trail, hTrail, hEnd⟩
  refine ⟨lead, trail, hLead, hTrail, ?_⟩
  calc
    cs = lead ++ trimStart cs := hStart
    _ = lead ++ (trim cs ++ trail) := congrArg (lead ++ ·) hEnd

theorem length_trim_le
    (cs : List Char) :
    (trim cs).length ≤ cs.length := by
  rcases exists_blanks_trim cs with ⟨lead, trail, -, -, hEqual⟩
  have hLength := congrArg List.length hEqual
  simp only [List.length_append] at hLength
  omega

/- A text that neither starts nor ends with a blank is left as it is. -/
theorem trim_eq_self
    {cs : List Char}
    (hHead : ∀ c ∈ cs.head?, isBlank c = false)
    (hLast : ∀ c ∈ cs.getLast?, isBlank c = false) :
    trim cs = cs := by
  have hKept : ∀ ds : List Char,
      (∀ c ∈ ds.head?, isBlank c = false) → ds.dropWhile isBlank = ds := by
    intro ds hFirst
    cases ds with
    | nil => rfl
    | cons d ds => simp [hFirst d rfl]
  have hStart : trimStart cs = cs := hKept cs hHead
  rw [trim, hStart, trimEnd, hKept cs.reverse, List.reverse_reverse]
  rw [List.head?_reverse]
  exact hLast

/- What is left of a text does not start with a blank. -/
theorem isBlank_head_trim
    {cs : List Char}
    {c : Char}
    (hHead : (trim cs).head? = some c) :
    isBlank c = false := by
  rcases exists_blanks_trimEnd (trimStart cs) with ⟨trail, -, hEqual⟩
  have hStart : (trimStart cs).head? = some c := by
    rw [hEqual, List.head?_append]
    exact congrArg (Option.or · _) hHead
  have hFirst := List.head?_dropWhile_not isBlank cs
  rw [← trimStart, hStart] at hFirst
  exact hFirst

/- What is left of a text does not end with a blank. -/
theorem isBlank_getLast_trim
    {cs : List Char}
    {c : Char}
    (hLast : (trim cs).getLast? = some c) :
    isBlank c = false := by
  have hFirst := List.head?_dropWhile_not isBlank (trimStart cs).reverse
  rw [trim, trimEnd, List.getLast?_reverse] at hLast
  rw [hLast] at hFirst
  exact hFirst

/- Trimming again takes nothing away. -/
theorem trim_trim
    (cs : List Char) :
    trim (trim cs) = trim cs :=
  trim_eq_self (fun _ hHead => isBlank_head_trim hHead)
    (fun _ hLast => isBlank_getLast_trim hLast)

/- A further blank at the front makes no difference. -/
theorem trim_cons_blank
    {c : Char}
    (hBlank : isBlank c = true)
    (cs : List Char) :
    trim (c :: cs) = trim cs := by
  rw [trim, trim, trimStart, List.dropWhile_cons_of_pos hBlank, trimStart]

/- A further blank at the back makes no difference. -/
theorem trim_concat_blank
    {c : Char}
    (hBlank : isBlank c = true)
    (cs : List Char) :
    trim (cs ++ [c]) = trim cs := by
  rw [trim, trim, trimStart, trimStart, List.dropWhile_append]
  split
  · next hNone =>
      rw [List.isEmpty_iff.mp hNone, List.dropWhile_cons_of_pos hBlank, List.dropWhile_nil]
  · exact List.rdropWhile_concat_pos isBlank (cs.dropWhile isBlank) c hBlank

/- Further blanks on both sides make no difference. -/
theorem trim_append_blanks
    {lead trail : List Char}
    (hLead : ∀ c ∈ lead, isBlank c = true)
    (hTrail : ∀ c ∈ trail, isBlank c = true)
    (cs : List Char) :
    trim (lead ++ (cs ++ trail)) = trim cs := by
  have hBack : trim (cs ++ trail) = trim cs := by
    induction trail using List.reverseRecOn with
    | nil => rw [List.append_nil]
    | append_singleton trail c ih =>
        rw [List.forall_mem_append] at hTrail
        rw [← List.append_assoc, trim_concat_blank (hTrail.2 c List.mem_cons_self), ih hTrail.1]
  induction lead with
  | nil => exact hBack
  | cons c lead ih =>
      rw [List.forall_mem_cons] at hLead
      rw [List.cons_append, trim_cons_blank hLead.1, ih hLead.2]

/- Nothing is left of blanks alone. -/
theorem trim_eq_nil_iff
    {cs : List Char} :
    trim cs = [] ↔ ∀ c ∈ cs, isBlank c = true := by
  constructor
  · intro hNone
    rcases exists_blanks_trim cs with ⟨lead, trail, hLead, hTrail, hEqual⟩
    rw [hNone, List.nil_append] at hEqual
    rw [hEqual, List.forall_mem_append]
    exact ⟨hLead, hTrail⟩
  · intro hBlanks
    have hTrim := trim_append_blanks hBlanks (List.forall_mem_nil _) []
    rwa [List.append_nil, List.append_nil] at hTrim

/- Something is left of a text as soon as it holds more than blanks. -/
theorem trim_ne_nil_iff
    {cs : List Char} :
    trim cs ≠ [] ↔ ∃ c ∈ cs, isBlank c = false := by
  rw [ne_eq, trim_eq_nil_iff]
  simp only [not_forall, exists_prop, Bool.not_eq_true]

------------------------------------------------------------
-- Blanks and words
------------------------------------------------------------

/- Every code point of a blank. -/
def blankCodes : List Nat :=
  blankRanges.flatMap fun r => List.range' r.1 (r.2 - r.1 + 1)

theorem mem_blankCodes
    {c : Char}
    (hBlank : isBlank c = true) :
    c.toNat ∈ blankCodes := by
  rcases List.any_eq_true.mp hBlank with ⟨range, hRange, hInside⟩
  simp only [Bool.and_eq_true, decide_eq_true_eq] at hInside
  refine List.mem_flatMap.mpr ⟨range, hRange, ?_⟩
  rw [List.mem_range'_1]
  omega

/- A blank belongs to no word. -/
theorem isWord_of_isBlank
    {c : Char}
    (hBlank : isBlank c = true) :
    isWord c = false := by
  have hCodes : ∀ code ∈ blankCodes, isWord (Char.ofNat code) = false := by
    decide +kernel
  have hWord := hCodes c.toNat (mem_blankCodes hBlank)
  rwa [Char.ofNat_toNat] at hWord

/- A character of a word of ASCII is no blank. -/
theorem isBlank_of_isAsciiWord
    {c : Char}
    (hWord : isAsciiWord c = true) :
    isBlank c = false := by
  have hCodes : ∀ code ∈ blankCodes, isAsciiWord (Char.ofNat code) = false := by
    decide
  rw [← Bool.not_eq_true]
  intro hBlank
  have hNone := hCodes c.toNat (mem_blankCodes hBlank)
  rw [Char.ofNat_toNat, hWord] at hNone
  exact Bool.noConfusion hNone

end JqLens.Text
