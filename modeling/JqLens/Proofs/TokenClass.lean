import JqLens.Proofs.Explain
import JqLens.Proofs.Rescan

/-
  This file says which category and which form a token has. Both
  depend on the class of its lexeme: the glossary has entries
  for many texts, but each has a category of the class that its
  first character leads to.

  Key definitions include:
    * `DotForm.category`
    * `Category.named`, `Category.ofHead`
    * `Lexeme.categories`
    * `Lexeme.form?`
    * `Token.isBracketed`

  Main results:
    * `Gloss.category_mem_ofHead`
    * `Lexeme.Fits.category_mem`
    * `Lexeme.form_explain`
-/

namespace JqLens

------------------------------------------------------------
-- Categories
------------------------------------------------------------

/- The category of a token of a form. -/
def DotForm.category : DotForm → Category
  | field _ => .field
  | _ => .access

namespace Category

/- The categories of names. -/
def named : List Category :=
  [keyword, builtin, literal, field, unknown]

/- The categories of entries of the glossary that start with a character. -/
def ofHead (c : Char) : List Category :=
  if c = '.' then [access]
  else if c = '$' then [var]
  else if c = '@' then [format]
  else if Lexeme.isNameStart c then [keyword, builtin, literal]
  else [operator]

end Category

/- The first character of an entry tells its category. -/
theorem Gloss.category_mem_ofHead
    {text : String}
    {gloss : Gloss}
    {c : Char}
    (hGloss : find? text = some gloss)
    (hHead : text.toList.head? = some c) :
    gloss.category ∈ Category.ofHead c := by
  have hEntries : (glossary.all fun entry =>
      entry.1.toList.head?.all fun c => entry.2.category ∈ Category.ofHead c) = true := by
    decide +kernel
  have hFirst := List.all_eq_true.mp hEntries _ (mem_glossary hGloss)
  simpa only [hHead, Option.all_some, decide_eq_true_eq] using hFirst

@[simp] theorem Token.form_withDocumentation
    (token : Token)
    (documentation : String) :
    (token.withDocumentation documentation).form = token.form := by
  unfold Token.withDocumentation
  split
  · rfl
  · rfl

theorem Token.form_ofGlossary
    (text : String)
    (category : Category) :
    (Token.ofGlossary text category).form = none := by
  unfold Token.ofGlossary
  split
  · exact Token.form_withDocumentation _ _
  · rfl

/- A token of fixed meaning has the category that its first character tells, or the given one. -/
theorem Token.category_ofGlossary
    {text : List Char}
    {c : Char}
    (hHead : text.head? = some c)
    (category : Category) :
    (Token.ofGlossary (String.ofList text) category).category ∈ category :: Category.ofHead c := by
  unfold Token.ofGlossary
  split
  · next gloss hGloss =>
      rw [Token.category_withDocumentation]
      apply List.mem_cons_of_mem
      exact Gloss.category_mem_ofHead hGloss (by rwa [String.toList_ofList])
  · exact List.mem_cons_self

namespace Access

theorem category_explain
    (path : Access) :
    path.explain.category = path.form.category := by
  have hFixed : ∀ text : List Char, text.head? = some '.' →
      (Token.ofGlossary (String.ofList text) .access).category = .access := by
    intro text hHead
    simpa [Category.ofHead] using Token.category_ofGlossary hHead .access
  cases path with
  | identity => exact hFixed _ rfl
  | recursiveDescent => exact hFixed _ rfl
  | iterate suppressed => exact hFixed _ rfl
  | bracket body slice suppressed => cases slice <;> rfl
  | field name suppressed => rfl
  | fieldIterate name suppressed => rfl

theorem form_explain
    (path : Access) :
    path.explain.form = some path.form := by
  cases path with
  | bracket body slice suppressed => cases slice <;> rfl
  | _ => rfl

end Access

namespace Lexeme

/- The categories that a lexeme may be explained with. -/
def categories : Lexeme → List Category
  | space _ => [.space]
  | literal _ => [.string]
  | number _ => [.number]
  | var _ => [.var]
  | format _ => [.format]
  | operator _ => [.operator]
  | access path => [path.form.category]
  | word _ => Category.named
  | stray _ => [.unknown]

/- The form of a lexeme, if it is a path access. -/
def form? : Lexeme → Option DotForm
  | access path => some path.form
  | _ => none

/- The entries that start like an operator are operators. -/
theorem ofHead_of_isMark
    {c : Char}
    (hMark : isMark c = true)
    (hDot : c ≠ '.')
    (hWord : Text.isAsciiWord c = false) :
    Category.ofHead c = [.operator] := by
  have hStart : isNameStart c = false := by
    rw [← Bool.not_eq_true]
    intro hStart
    rw [isAsciiWord_of_isNameStart hStart] at hWord
    exact Bool.noConfusion hWord
  have hDollar : c ≠ '$' := by
    rintro rfl
    exact absurd hMark (by decide)
  have hAt : c ≠ '@' := by
    rintro rfl
    exact absurd hMark (by decide)
  simp [Category.ofHead, hDot, hDollar, hAt, hStart]

/- The entries that start like a name are names. -/
theorem mem_named_of_ofHead
    {c : Char}
    {category : Category}
    (hStart : isNameStart c = true)
    (hCategory : category ∈ Category.ofHead c) :
    category ∈ Category.named := by
  have hWord := isAsciiWord_of_isNameStart hStart
  have hDot : c ≠ '.' := ne_of_isAsciiWord hWord (by decide)
  have hDollar : c ≠ '$' := ne_of_isAsciiWord hWord (by decide)
  have hAt : c ≠ '@' := ne_of_isAsciiWord hWord (by decide)
  rw [Category.ofHead, if_neg hDot, if_neg hDollar, if_neg hAt, if_pos hStart] at hCategory
  have hAll : ∀ known ∈ [Category.keyword, .builtin, .literal], known ∈ Category.named := by
    decide
  exact hAll category hCategory

/- The first character of a complete operator is a mark. -/
theorem Fits.head?_operator
    {text rest : List Char}
    (hFits : (operator text).Fits rest) :
    ∃ c, text.head? = some c ∧ isMark c = true ∧ c ≠ '.' ∧ Text.isAsciiWord c = false := by
  rcases hFits with hLong | ⟨-, c, hShort, rfl⟩
  · exact head?_of_mem_longOperators (mem_of_longOperator? hLong).1
  · exact ⟨c, rfl, isMark_of_mem_shortOperators hShort⟩

/- A lexeme is explained with a category of its class, whatever the glossary says. -/
theorem Fits.category_mem
    {lexeme : Lexeme}
    {rest : List Char}
    (hFits : lexeme.Fits rest)
    (depth : Int) :
    (lexeme.explain depth).category ∈ lexeme.categories := by
  cases lexeme with
  | space text => exact List.mem_singleton_self _
  | literal text => exact List.mem_singleton_self _
  | number text => exact List.mem_singleton_self _
  | var name =>
      simp only [explain, explainVariable, categories, Lexeme.text]
      split
      · have hHead : ('$' :: name).head? = some '$' := rfl
        simpa [Category.ofHead] using Token.category_ofGlossary hHead .var
      · exact List.mem_singleton_self _
  | format name =>
      simp only [explain, explainFormat, categories]
      split
      · rw [Token.category_withDocumentation]
        exact List.mem_singleton_self _
      · exact List.mem_singleton_self _
  | operator text =>
      rcases hFits.head?_operator with ⟨c, hHead, hMark, hDot, hWord⟩
      have hCategory := Token.category_ofGlossary hHead .operator
      rw [ofHead_of_isMark hMark hDot hWord] at hCategory
      have hOwn : (Token.ofGlossary (String.ofList text) .operator).category = .operator := by
        simpa using hCategory
      exact List.mem_singleton.mpr hOwn
  | access path => exact List.mem_singleton.mpr path.category_explain
  | word text =>
      rcases Option.any_eq_true _ _ |>.mp hFits.1 with ⟨c, hHead, hStart⟩
      simp only [explain, explainWord, categories, Lexeme.text]
      split
      · rcases List.mem_cons.mp (Token.category_ofGlossary hHead .unknown) with hOwn | hEntry
        · rw [hOwn]
          decide
        · exact mem_named_of_ofHead hStart hEntry
      · have hKey : Category.field ∈ Category.named := by
          decide
        have hUnknown : Category.unknown ∈ Category.named := by
          decide
        split
        · exact hKey
        · exact hUnknown
  | stray c => exact List.mem_singleton_self _

/- Path accesses are explained with their form, and nothing else has one. -/
theorem form_explain
    (depth : Int)
    (lexeme : Lexeme) :
    (lexeme.explain depth).form = lexeme.form? := by
  cases lexeme with
  | var name =>
      simp only [explain, explainVariable]
      split
      · exact Token.form_ofGlossary _ _
      · rfl
  | format name =>
      simp only [explain, explainFormat]
      split
      · exact Token.form_withDocumentation _ _
      · rfl
  | operator text => exact Token.form_ofGlossary _ _
  | access path => exact path.form_explain
  | word text =>
      simp only [explain, explainWord]
      split
      · exact Token.form_ofGlossary _ _
      · split <;> rfl
  | _ => rfl

/- A bracketed access with something in its brackets. -/
def isBracketed : Lexeme → Bool
  | access (.bracket _ _ _) => true
  | _ => false

end Lexeme

/- A bracketed access with something in its brackets. -/
def Token.isBracketed (token : Token) : Bool :=
  match token.form with
  | some (.index _) => true
  | some (.slice _) => true
  | _ => false

theorem Lexeme.isBracketed_explain
    (depth : Int)
    (lexeme : Lexeme) :
    (lexeme.explain depth).isBracketed = lexeme.isBracketed := by
  unfold Token.isBracketed
  rw [form_explain]
  cases lexeme with
  | access path =>
      cases path with
      | bracket body slice suppressed =>
          cases slice with
          | false => rfl
          | true => rfl
      | _ => rfl
  | _ => rfl

end JqLens
