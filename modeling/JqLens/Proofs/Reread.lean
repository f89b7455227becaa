import JqLens.Proofs.Explain
import JqLens.Proofs.Rescan

/-
  This file proves that tokens can be read again: the texts of
  any tokens of a filter in a row, joined, give these tokens
  once more. The only thing that is lost is how many braces were
  open in front of them, which decides whether a name without an
  entry is a key of an object in its short form.

  Key definitions include:
    * `Token.shorthand`
    * `Token.unknownName`
    * `Token.Reread`

  Main results:
    * `Lexeme.Fits.reread_explain`
    * `tokenize_reconstruct`
    * `tokenize_extract`
-/

namespace JqLens

------------------------------------------------------------
-- Names without an entry
------------------------------------------------------------

/- A name without an entry as the key of an object in its short form. -/
def Token.shorthand (name : String) : Token :=
  { text := name
    category := .field
    description := "Object shorthand: outputs the \"" ++ name ++ "\" field as \"" ++ name ++
      "\": ." ++ name
    documentation := some ("\x7b" ++ name ++ "\x7d is equivalent to \x7b\"" ++ name ++ "\": ." ++
      name ++ "\x7d") }

/- A name without an entry outside every object. -/
def Token.unknownName (name : String) : Token :=
  { text := name
    category := .unknown
    description := "\"" ++ name ++ "\": user-defined function or unknown builtin" }

/- A letter or underscore with letters, digits and underscores behind it. -/
def IsName (name : List Char) : Prop :=
  name.head?.any Lexeme.isNameStart = true ∧ ∀ c ∈ name, Text.isAsciiWord c = true

instance
    (name : List Char) :
    Decidable (IsName name) :=
  decidable_of_iff
    (name.head?.any Lexeme.isNameStart = true ∧ name.all Text.isAsciiWord = true)
    (and_congr_right fun _ => List.all_eq_true)

/-
  What may become of a token when it is read again elsewhere: a
  name without an entry is a key in one place and unknown in
  another, and every other token is the same.
-/
inductive Token.Reread : Token → Token → Prop where
  | same (token : Token) : Reread token token
  | unknown
      (name : String)
      (hName : IsName name.toList)
      (hEntry : Gloss.find? name = none) :
      Reread (shorthand name) (unknownName name)
  | shorthand
      (name : String)
      (hName : IsName name.toList)
      (hEntry : Gloss.find? name = none) :
      Reread (unknownName name) (shorthand name)

/- The number of open braces decides what a name without an entry is. -/
theorem Lexeme.explainWord_of_none
    {name : String}
    (hEntry : Gloss.find? name = none)
    (depth : Int) :
    explainWord depth name =
      if 0 < depth then Token.shorthand name else Token.unknownName name := by
  rw [explainWord, hEntry]
  rfl

/- Wherever a lexeme is explained, its token is the same up to that. -/
theorem Lexeme.Fits.reread_explain
    {lexeme : Lexeme}
    {rest : List Char}
    (hFits : lexeme.Fits rest)
    (depth other : Int) :
    Token.Reread (lexeme.explain depth) (lexeme.explain other) := by
  cases lexeme with
  | word text =>
      have hName : IsName (String.ofList text).toList := by
        rw [String.toList_ofList]
        exact ⟨hFits.1, hFits.2.1⟩
      cases hEntry : Gloss.find? (String.ofList text) with
      | some gloss =>
          have hSame : ∀ d,
              (word text).explain d = Token.ofGlossary (String.ofList text) .unknown := by
            intro d
            simp only [explain, explainWord, Lexeme.text, hEntry]
          rw [hSame, hSame]
          exact .same _
      | none =>
          simp only [explain, Lexeme.text, explainWord_of_none hEntry]
          split
          · split
            · exact .same _
            · exact .unknown _ hName hEntry
          · split
            · exact .shorthand _ hName hEntry
            · exact .same _
  | _ => exact .same _

------------------------------------------------------------
-- Runs of tokens
------------------------------------------------------------

/- Lexemes that fit are explained again from their texts. -/
theorem tokenize_reconstruct
    {lexemes : List Lexeme}
    (hFitting : Lexeme.Fitting lexemes)
    (depth : Int) :
    tokenize (reconstruct (explainAll depth lexemes)) = explainAll 0 lexemes := by
  rw [tokenize, toList_reconstruct_explainAll, Lexeme.scan_flatMap_text hFitting]

theorem reread_explainAll
    {lexemes : List Lexeme}
    (hFitting : Lexeme.Fitting lexemes)
    (depth other : Int) :
    List.Forall₂ Token.Reread (explainAll depth lexemes) (explainAll other lexemes) := by
  induction lexemes generalizing depth other with
  | nil => exact .nil
  | cons lexeme lexemes ih =>
      exact .cons (hFitting.1.reread_explain depth other) (ih hFitting.2 _ _)

/-
  Tokens in a row are read again from their texts: these give
  tokens of the same texts, each the same as before, but that a
  name without an entry may turn from a key of an object into an
  unknown name or back. Tokens from the start of a filter on are
  all the same as before.
-/
theorem tokenize_extract
    (filter : String)
    (i j : Nat) :
    let row := (tokenize filter).extract i j
    (tokenize (reconstruct row)).map Token.text = row.map Token.text ∧
      List.Forall₂ Token.Reread row (tokenize (reconstruct row)) ∧
      (i = 0 → tokenize (reconstruct row) = row) := by
  have hFitting := ((Lexeme.fitting_scan filter.toList).drop i).take (j - i)
  rw [List.extract_eq_take_drop, tokenize, explainAll_drop, explainAll_take]
  intro row
  have hRow : tokenize (reconstruct row) = explainAll 0 _ := tokenize_reconstruct hFitting _
  rw [hRow]
  refine ⟨?_, reread_explainAll hFitting _ 0, ?_⟩
  · rw [map_text_explainAll, map_text_explainAll]
  · rintro rfl
    rfl

end JqLens
