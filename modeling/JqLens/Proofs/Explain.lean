import JqLens.Proofs.Lossless

/-
  This file develops the theory of explained lexemes: what is
  known about the category of a token from the class of its
  lexeme, and how the lexemes of a row are explained, one after
  the other, with the braces that are open in front of each.

  Key definitions include:
    * `Category.inGlossary`
    * `Lexeme.isSpace`
    * `Lexeme.isLiteral`
    * `Lexeme.depthAfterAll`

  Main results:
    * `Lexeme.eq_literal_of_category`
    * `Lexeme.isSpace_explain`
    * `explainAll_append`
    * `filter_explainAll`
-/

namespace JqLens

------------------------------------------------------------
-- Categories
------------------------------------------------------------

/- The categories that a text of fixed meaning may have. -/
def Category.inGlossary : Category → Bool
  | string => false
  | space => false
  | _ => true

/- What the glossary has found for a text is one of its entries. -/
theorem Gloss.mem_glossary
    {text : String}
    {gloss : Gloss}
    (hGloss : find? text = some gloss) :
    (text, gloss) ∈ glossary := by
  rcases List.lookup_eq_some_iff.mp hGloss with ⟨before, behind, hEntry, -⟩
  rw [hEntry]
  exact List.mem_append_right before List.mem_cons_self

/- No entry of the glossary is a string literal or a run of blanks. -/
theorem Gloss.inGlossary_of_find?
    {text : String}
    {gloss : Gloss}
    (hGloss : find? text = some gloss) :
    gloss.category.inGlossary = true := by
  have hEntries : (glossary.all fun entry => entry.2.category.inGlossary) = true := by
    decide
  exact List.all_eq_true.mp hEntries _ (mem_glossary hGloss)

@[simp] theorem Token.category_withDocumentation
    (token : Token)
    (documentation : String) :
    (token.withDocumentation documentation).category = token.category := by
  unfold Token.withDocumentation
  split
  · rfl
  · rfl

theorem Token.inGlossary_ofGlossary
    (text : String)
    {category : Category}
    (hCategory : category.inGlossary = true) :
    (Token.ofGlossary text category).category.inGlossary = true := by
  unfold Token.ofGlossary
  split
  · next gloss hGloss =>
      rw [Token.category_withDocumentation]
      exact Gloss.inGlossary_of_find? hGloss
  · exact hCategory

theorem Access.inGlossary_explain
    (path : Access) :
    path.explain.category.inGlossary = true := by
  cases path with
  | identity => exact Token.inGlossary_ofGlossary _ rfl
  | recursiveDescent => exact Token.inGlossary_ofGlossary _ rfl
  | iterate suppressed => exact Token.inGlossary_ofGlossary _ rfl
  | bracket body slice suppressed => cases slice <;> rfl
  | field name suppressed => rfl
  | fieldIterate name suppressed => rfl

namespace Lexeme

/- A run of blanks. -/
def isSpace : Lexeme → Bool
  | space _ => true
  | _ => false

/- A string literal. -/
def isLiteral : Lexeme → Bool
  | literal _ => true
  | _ => false

/- Any other lexeme has a category of the glossary, with an entry or without one. -/
theorem inGlossary_explain
    {lexeme : Lexeme}
    (hSpace : lexeme.isSpace = false)
    (hLiteral : lexeme.isLiteral = false)
    (depth : Int) :
    (lexeme.explain depth).category.inGlossary = true := by
  match lexeme, hSpace, hLiteral with
  | number text, _, _ => rfl
  | var name, _, _ =>
      simp only [explain, explainVariable]
      split
      · exact Token.inGlossary_ofGlossary _ rfl
      · rfl
  | format name, _, _ =>
      simp only [explain, explainFormat]
      split
      · rw [Token.category_withDocumentation]
        rfl
      · rfl
  | operator text, _, _ => exact Token.inGlossary_ofGlossary _ rfl
  | access path, _, _ => exact path.inGlossary_explain
  | word text, _, _ =>
      simp only [explain, explainWord]
      split
      · exact Token.inGlossary_ofGlossary _ rfl
      · split <;> rfl
  | stray c, _, _ => rfl

/- Only a string literal is explained as a string. -/
theorem eq_literal_of_category
    {lexeme : Lexeme}
    {depth : Int}
    (hString : (lexeme.explain depth).category = .string) :
    ∃ text, lexeme = literal text := by
  cases lexeme with
  | literal text => exact ⟨text, rfl⟩
  | space text => nomatch hString
  | _ =>
      have hMeaning := congrArg Category.inGlossary hString
      rw [inGlossary_explain rfl rfl] at hMeaning
      exact Bool.noConfusion hMeaning

/- Only a run of blanks is explained as one. -/
theorem isSpace_explain
    (depth : Int)
    (lexeme : Lexeme) :
    (lexeme.explain depth).isSpace = lexeme.isSpace := by
  cases lexeme with
  | space text => rfl
  | literal text => rfl
  | _ =>
      apply Bool.eq_false_iff.mpr
      intro hSpace
      have hMeaning := congrArg Category.inGlossary (beq_iff_eq.mp hSpace)
      rw [inGlossary_explain rfl rfl] at hMeaning
      exact Bool.noConfusion hMeaning

end Lexeme

------------------------------------------------------------
-- Lexemes in a row
------------------------------------------------------------

/- How many more braces have been opened than closed after lexemes. -/
def Lexeme.depthAfterAll
    (depth : Int)
    (lexemes : List Lexeme) : Int :=
  lexemes.foldl depthAfter depth

/- Lexemes behind others are explained with the braces that these leave open. -/
theorem explainAll_append
    (depth : Int)
    (front back : List Lexeme) :
    explainAll depth (front ++ back) =
      explainAll depth front ++ explainAll (Lexeme.depthAfterAll depth front) back := by
  induction front generalizing depth with
  | nil => rfl
  | cons lexeme front ih =>
      rw [List.cons_append, explainAll, explainAll, List.cons_append, ih]
      rfl

theorem explainAll_take
    (depth : Int)
    (lexemes : List Lexeme)
    (n : Nat) :
    (explainAll depth lexemes).take n = explainAll depth (lexemes.take n) := by
  induction lexemes generalizing depth n with
  | nil => rw [List.take_nil, explainAll, List.take_nil]
  | cons lexeme lexemes ih =>
      cases n with
      | zero => rfl
      | succ n => rw [explainAll, List.take_succ_cons, List.take_succ_cons, ih, explainAll]

theorem explainAll_drop
    (depth : Int)
    (lexemes : List Lexeme)
    (n : Nat) :
    (explainAll depth lexemes).drop n =
      explainAll (Lexeme.depthAfterAll depth (lexemes.take n)) (lexemes.drop n) := by
  induction lexemes generalizing depth n with
  | nil => rw [List.take_nil, List.drop_nil, explainAll, List.drop_nil, explainAll]
  | cons lexeme lexemes ih =>
      cases n with
      | zero => rfl
      | succ n =>
          rw [explainAll, List.drop_succ_cons, List.drop_succ_cons, ih, List.take_succ_cons]
          rfl

/- A token among others explains a lexeme among others. -/
theorem exists_lexeme_of_explainAll
    {depth : Int}
    {lexemes : List Lexeme}
    {before behind : List Token}
    {token : Token}
    (hTokens : explainAll depth lexemes = before ++ token :: behind) :
    ∃ front lexeme back,
      lexemes = front ++ lexeme :: back ∧
        before = explainAll depth front ∧
        token = lexeme.explain (Lexeme.depthAfterAll depth front) ∧
        behind = explainAll (Lexeme.depthAfterAll depth (front ++ [lexeme])) back := by
  induction before generalizing depth lexemes with
  | nil =>
      cases lexemes with
      | nil => exact absurd hTokens (List.cons_ne_nil _ _).symm
      | cons lexeme lexemes =>
          rw [explainAll, List.nil_append, List.cons.injEq] at hTokens
          exact ⟨[], lexeme, lexemes, rfl, rfl, hTokens.1.symm, hTokens.2.symm⟩
  | cons first before ih =>
      cases lexemes with
      | nil => exact absurd hTokens (List.cons_ne_nil _ _).symm
      | cons lexeme lexemes =>
          rw [explainAll, List.cons_append, List.cons.injEq] at hTokens
          rcases ih hTokens.2 with ⟨front, other, back, rfl, rfl, rfl, rfl⟩
          exact ⟨lexeme :: front, other, back, rfl, by rw [explainAll, hTokens.1], rfl, rfl⟩

theorem toList_reconstruct_explainAll
    (depth : Int)
    (lexemes : List Lexeme) :
    (reconstruct (explainAll depth lexemes)).toList = lexemes.flatMap Lexeme.text := by
  rw [reconstruct, String.toList_ofList, flatMap_text_explainAll]

/- Runs of blanks open no braces, so that they may be left out before or after. -/
theorem filter_explainAll
    (depth : Int)
    (lexemes : List Lexeme) :
    (explainAll depth lexemes).filter (fun token => !token.isSpace) =
      explainAll depth (lexemes.filter fun lexeme => !lexeme.isSpace) := by
  induction lexemes generalizing depth with
  | nil => rfl
  | cons lexeme lexemes ih =>
      rw [explainAll, List.filter_cons, List.filter_cons, Lexeme.isSpace_explain, ih]
      cases lexeme with
      | space text => rfl
      | _ => rfl

end JqLens
