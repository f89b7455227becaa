import JqLens.Token.Explain
import JqLens.Proofs.Lexeme

/-
  This file proves that explaining a filter loses nothing: the
  tokens of a filter spell the filter, whatever it holds, and
  every token takes up some of it.

  Main results:
    * `Lexeme.flatMap_text_scan`
    * `Lexeme.text_explain`
    * `flatMap_text_tokenize`
    * `tokenize_lossless`
-/

namespace JqLens

------------------------------------------------------------
-- The scan
------------------------------------------------------------

namespace Lexeme

@[simp] theorem scan_nil :
    scan [] = [] := by
  rw [scan]

theorem scan_cons
    (c : Char)
    (cs : List Char) :
    scan (c :: cs) = (next c cs).1 :: scan (next c cs).2 := by
  rw [scan]

/- Every lexeme takes up some of the text. -/
theorem text_next_ne_nil
    (c : Char)
    (cs : List Char) :
    (next c cs).1.text ≠ [] := by
  intro hEmpty
  have hAppend := next_append c cs
  have hShorter := length_next_le c cs
  rw [hEmpty, List.nil_append] at hAppend
  rw [hAppend, List.length_cons] at hShorter
  omega

/- The lexemes of a text spell the text. -/
theorem flatMap_text_scan
    (cs : List Char) :
    (scan cs).flatMap text = cs := by
  induction cs using scan.induct with
  | case1 => simp
  | case2 c cs ih =>
      rw [scan_cons, List.flatMap_cons, ih]
      exact next_append c cs

/- No lexeme of a text is empty. -/
theorem text_ne_nil_of_mem_scan
    {cs : List Char}
    {lexeme : Lexeme}
    (hMember : lexeme ∈ scan cs) :
    lexeme.text ≠ [] := by
  induction cs using scan.induct with
  | case1 => simp at hMember
  | case2 c cs ih =>
      rw [scan_cons] at hMember
      rcases List.mem_cons.mp hMember with rfl | hMember
      · exact text_next_ne_nil c cs
      · exact ih hMember

/- There are no more lexemes than characters. -/
theorem length_scan_le
    (cs : List Char) :
    (scan cs).length ≤ cs.length := by
  induction cs using scan.induct with
  | case1 => simp
  | case2 c cs ih =>
      have hShorter := length_next_le c cs
      rw [scan_cons, List.length_cons, List.length_cons]
      omega

end Lexeme

------------------------------------------------------------
-- The texts of tokens
------------------------------------------------------------

@[simp] theorem Token.text_withDocumentation
    (token : Token)
    (documentation : String) :
    (token.withDocumentation documentation).text = token.text := by
  unfold Token.withDocumentation
  split <;> rfl

@[simp] theorem Token.text_ofGlossary
    (text : String)
    (category : Category) :
    (Token.ofGlossary text category).text = text := by
  unfold Token.ofGlossary
  split
  · exact Token.text_withDocumentation _ _
  · rfl

/- A path access is explained under its own text. -/
theorem Access.text_explain
    (path : Access) :
    path.explain.text = String.ofList path.text := by
  cases path with
  | identity => exact Token.text_ofGlossary _ _
  | recursiveDescent => exact Token.text_ofGlossary _ _
  | iterate suppressed => exact Token.text_ofGlossary _ _
  | bracket body slice suppressed => cases slice <;> rfl
  | field name suppressed => rfl
  | fieldIterate name suppressed => rfl

namespace Lexeme

/- A lexeme is explained under its own text. -/
theorem text_explain
    (depth : Int)
    (lexeme : Lexeme) :
    (lexeme.explain depth).text = String.ofList lexeme.text := by
  cases lexeme with
  | space text => rfl
  | literal text => rfl
  | number text => rfl
  | var name =>
      simp only [explain, explainVariable]
      split
      · exact Token.text_ofGlossary _ _
      · rfl
  | format name =>
      simp only [explain, explainFormat]
      split
      · exact Token.text_withDocumentation _ _
      · rfl
  | operator text => exact Token.text_ofGlossary _ _
  | access path => exact path.text_explain
  | word text =>
      simp only [explain, explainWord]
      split
      · exact Token.text_ofGlossary _ _
      · split <;> rfl
  | stray c => rfl

end Lexeme

/- The tokens of lexemes have the texts of the lexemes, in order. -/
theorem map_text_explainAll
    (depth : Int)
    (lexemes : List Lexeme) :
    (explainAll depth lexemes).map Token.text =
      lexemes.map fun lexeme => String.ofList lexeme.text := by
  induction lexemes generalizing depth with
  | nil => rfl
  | cons lexeme lexemes ih =>
      rw [explainAll, List.map_cons, List.map_cons,
        Lexeme.text_explain, ih]

/- The texts of the tokens of lexemes spell what the lexemes spell. -/
theorem flatMap_text_explainAll
    (depth : Int)
    (lexemes : List Lexeme) :
    (explainAll depth lexemes).flatMap (fun token => token.text.toList) =
      lexemes.flatMap Lexeme.text := by
  have hTexts := congrArg (fun texts => texts.flatMap String.toList)
    (map_text_explainAll depth lexemes)
  simpa [List.flatMap_map] using hTexts

------------------------------------------------------------
-- Tokens of a filter
------------------------------------------------------------

/-
  The tokens of a filter, whatever it holds, spell the filter;
  none of them is empty, and so there are no more of them than
  characters.
-/
theorem tokenize_lossless
    (filter : String) :
    reconstruct (tokenize filter) = filter ∧
      (∀ token ∈ tokenize filter, token.text ≠ "") ∧
      (tokenize filter).length ≤ filter.length := by
  have hTexts := map_text_explainAll 0 (Lexeme.scan filter.toList)
  refine ⟨?_, ?_, ?_⟩
  · rw [reconstruct, tokenize, flatMap_text_explainAll,
      Lexeme.flatMap_text_scan, String.ofList_toList]
  · intro token hMember
    have hText : token.text ∈
        (Lexeme.scan filter.toList).map fun lexeme => String.ofList lexeme.text := by
      rw [← hTexts]
      exact List.mem_map_of_mem hMember
    rcases List.mem_map.mp hText with ⟨lexeme, hLexeme, hEqual⟩
    rw [← hEqual, ne_eq, String.ofList_eq_empty_iff]
    exact Lexeme.text_ne_nil_of_mem_scan hLexeme
  · have hLength := congrArg List.length hTexts
    rw [List.length_map, List.length_map] at hLength
    rw [tokenize, hLength, ← String.length_toList]
    exact Lexeme.length_scan_le filter.toList

end JqLens
