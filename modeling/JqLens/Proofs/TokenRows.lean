import Mathlib.Data.List.Forall2
import JqLens.Proofs.TokenClass
import JqLens.Terminal.Table

/-
  This file says what the table of the tokens of a filter looks
  like. Each token that is not blank has a row of three fields,
  which start at the same columns in all rows. A row is a single
  line unless its token is a bracketed access with line breaks
  in it: the first field escapes them, but the description
  repeats the text as it is.

  Key definitions include:
    * `Table.Fills`
    * `Table.IsRow`
    * `Text.OneLine`
    * `Token.repeatedBreaks`

  Main results:
    * `Table.isRow_line`
    * `Lexeme.Fits.oneLine_description`
    * `Lexeme.Fits.count_description`
    * `tokenize_rows`
-/

namespace JqLens

------------------------------------------------------------
-- Fields of a row
------------------------------------------------------------

namespace Table

/- A text with spaces behind it, at least two, takes a field of a width. -/
def Fills
    (width : Nat)
    (text field : List Char) : Prop :=
  field.length = width ∧
    ∃ spaces, 2 ≤ spaces ∧ field = text ++ List.replicate spaces ' '

/-
  A row shows a token: first its text, with line breaks and tabs
  escaped, then its category from a column on, and then its
  description to the end of the row.
-/
structure IsRow
    (column : Nat)
    (token : Token)
    (row : List Char) : Prop where
  text : Fills column (cell token.text) (row.take column)
  category :
    Fills (categoryWidth + 2) token.category.name.toList
      ((row.drop column).take (categoryWidth + 2))
  description : row.drop (column + (categoryWidth + 2)) = token.description.toList

/- A padded text takes a field with the gap behind it. -/
theorem fills_pad
    {width : Nat}
    {text : List Char}
    (hFits : text.length ≤ width) :
    Fills (width + 2) text (pad width text ++ gap) := by
  unfold Fills pad gap
  constructor
  · simp only [List.length_append, List.length_replicate, List.length_cons, List.length_nil]
    omega
  · refine ⟨width - text.length + 2, by omega, ?_⟩
    rw [List.append_assoc, List.replicate_add]
    rfl

/- The row of a token without colours and without its line break. -/
def line
    (width : Nat)
    (token : Token) : List Char :=
  (pad width (cell token.text) ++ gap) ++
    ((pad categoryWidth token.category.name.toList ++ gap) ++ token.description.toList)

theorem row_eq_line
    (width : Nat)
    (token : Token) :
    row false width token = line width token ++ ['\n'] := by
  simp [row, line, Colour.paintIf]

/- The name of every category is shorter than its column. -/
theorem length_name_le
    (category : Category) :
    category.name.toList.length ≤ categoryWidth := by
  cases category with
  | _ => decide

/- A line that is wide enough for the text of its token shows it. -/
theorem isRow_line
    {width : Nat}
    {token : Token}
    (hFits : (cell token.text).length ≤ width) :
    IsRow (width + 2) token (line width token) := by
  have hText := fills_pad hFits
  have hCategory := fills_pad (length_name_le token.category)
  unfold line
  constructor
  · rwa [List.take_left' hText.1]
  · rwa [List.drop_left' hText.1, List.take_left' hCategory.1]
  · rw [← List.drop_drop, List.drop_left' hText.1, List.drop_left' hCategory.1]

/- The column of texts is wide enough for each of them. -/
theorem length_cell_le_textWidth
    {tokens : List Token}
    {token : Token}
    (hMember : token ∈ tokens) :
    (cell token.text).length ≤ textWidth tokens := by
  have hFold : ∀ start,
      start ≤ tokens.foldl (fun width token => max width (cell token.text).length) start ∧
        ∀ token ∈ tokens, (cell token.text).length ≤
          tokens.foldl (fun width token => max width (cell token.text).length) start := by
    clear hMember
    induction tokens with
    | nil => simp
    | cons first tokens ih =>
        intro start
        have hRest := ih (max start (cell first.text).length)
        rw [List.foldl_cons, List.forall_mem_cons]
        have hFirst := hRest.1
        rw [Nat.max_le] at hFirst
        exact ⟨hFirst.1, hFirst.2, hRest.2⟩
  exact (hFold 0).2 token hMember

/- A table without documentation and colours has a line for each token that is not blank. -/
theorem tokens_eq_lines
    (tokens : List Token) :
    let visible := tokens.filter fun token => !token.isSpace
    Table.tokens false false tokens =
      String.ofList
        ((visible.map (line (textWidth visible))).flatMap fun row => row ++ ['\n']) := by
  simp [Table.tokens, row_eq_line, List.flatMap_map]

------------------------------------------------------------
-- Line breaks of a row
------------------------------------------------------------

/- The text of a token has no line breaks once it is escaped. -/
theorem newline_not_mem_cell
    (text : String) :
    '\n' ∉ cell text := by
  unfold cell
  rw [List.mem_flatMap]
  rintro ⟨c, -, hMember⟩
  unfold cellChar at hMember
  split at hMember
  · simp at hMember
  split at hMember
  · simp at hMember
  · next hOther _ => exact hOther (List.mem_singleton.mp hMember).symm

/- All line breaks in the line of a token are those of its description. -/
theorem count_line
    (width : Nat)
    (token : Token) :
    (line width token).count '\n' = token.description.toList.count '\n' := by
  have hText := List.count_eq_zero.mpr (newline_not_mem_cell token.text)
  have hName : token.category.name.toList.count '\n' = 0 := by
    cases token.category with
    | _ => decide
  simp [line, pad, gap, List.count_replicate, hText, hName]

end Table

------------------------------------------------------------
-- Line breaks of a description
------------------------------------------------------------

/- A text has no line breaks. -/
def Text.OneLine (text : String) : Prop :=
  '\n' ∉ text.toList

/- A literal is the text of its characters, which are compared one by one. -/
theorem Text.oneLine_ofList
    {cs : List Char}
    (hNone : cs.contains '\n' = false) :
    OneLine (String.ofList cs) := by
  unfold OneLine
  rw [String.toList_ofList]
  simpa using hNone

theorem Text.OneLine.append
    {front behind : String}
    (hFront : OneLine front)
    (hBehind : OneLine behind) :
    OneLine (front ++ behind) := by
  unfold OneLine at *
  rw [String.toList_append, List.mem_append]
  exact not_or.mpr ⟨hFront, hBehind⟩

open Text (OneLine oneLine_ofList)

/- No entry of the glossary is described with line breaks. -/
theorem Gloss.oneLine_description
    {text : String}
    {gloss : Gloss}
    (hGloss : find? text = some gloss) :
    OneLine gloss.description := by
  -- Each literal is taken apart on its own: to decide over the whole glossary
  -- would decode every description from its bytes.
  have hEntries : ∀ entry ∈ glossary, OneLine entry.2.description := by
    simp only [glossary, accessEntries, structureEntries, comparisonEntries,
      arithmeticEntries, assignmentEntries, logicEntries, controlEntries, literalEntries,
      coreEntries, conversionEntries, stringEntries, arrayEntries, objectEntries,
      formatEntries, variableEntries, List.forall_mem_append, List.forall_mem_cons]
    and_intros
    all_goals first
      | exact Text.oneLine_ofList rfl
      | exact List.forall_mem_nil _
  exact hEntries _ (mem_glossary hGloss)

@[simp] theorem Token.description_withDocumentation
    (token : Token)
    (documentation : String) :
    (token.withDocumentation documentation).description = token.description := by
  unfold Token.withDocumentation
  split
  · rfl
  · rfl

/- A token of fixed meaning is described in one line if its text has one. -/
theorem Token.oneLine_ofGlossary
    {text : String}
    (hText : OneLine text)
    (category : Category) :
    OneLine (Token.ofGlossary text category).description := by
  unfold Token.ofGlossary
  split
  · next gloss hGloss =>
      rw [Token.description_withDocumentation]
      exact Gloss.oneLine_description hGloss
  · exact hText

/- A path access without a line break is described in one line. -/
theorem Access.oneLine_description
    {path : Access}
    (hText : OneLine (String.ofList path.text)) :
    OneLine path.explain.description := by
  have hInfix : ∀ name : List Char, name <:+: path.text → OneLine (String.ofList name) := by
    intro name hName hMember
    unfold OneLine at hText
    rw [String.toList_ofList] at hMember hText
    exact hText (hName.subset hMember)
  cases path with
  | bracket body slice suppressed =>
      cases slice with
      | false => exact Text.OneLine.append (oneLine_ofList rfl) hText
      | true => exact Text.OneLine.append (oneLine_ofList rfl) hText
  | field name suppressed =>
      have hName := hInfix name ⟨['.'], Access.mark suppressed, by simp [Access.text]⟩
      exact .append (.append (oneLine_ofList rfl) hName) (oneLine_ofList rfl)
  | fieldIterate name suppressed =>
      have hName := hInfix name
        ⟨['.'], '[' :: ']' :: Access.mark suppressed, by simp [Access.text]⟩
      exact .append (.append (oneLine_ofList rfl) hName) (oneLine_ofList rfl)
  | _ => exact Token.oneLine_ofGlossary hText .access

namespace Lexeme

/- Only blanks, string literals and bracketed accesses may hold line breaks. -/
theorem Fits.oneLine_text
    {lexeme : Lexeme}
    {rest : List Char}
    (hFits : lexeme.Fits rest)
    (hSpace : lexeme.isSpace = false)
    (hLiteral : lexeme.isLiteral = false)
    (hBracketed : lexeme.isBracketed = false) :
    OneLine (String.ofList lexeme.text) := by
  unfold OneLine
  rw [String.toList_ofList]
  cases hPlain : lexeme.isPlain with
  | true =>
      apply not_mem_text_of_strange hFits hPlain
      · decide
      · rintro text rfl
        simp [isSpace] at hSpace
  | false =>
      cases lexeme with
      | literal text => simp [isLiteral] at hLiteral
      | operator text =>
          rcases hFits with hLong | ⟨-, c, hShort, rfl⟩
          · have hNone : ∀ long ∈ longOperators, '\n' ∉ long := by
              decide
            exact hNone _ (mem_of_longOperator? hLong).1
          · have hNone : '\n' ∉ shortOperators := by
              decide
            intro hMember
            rw [← List.mem_singleton.mp hMember] at hShort
            exact hNone hShort
      | access path =>
          cases path with
          | bracket body slice suppressed => simp [isBracketed] at hBracketed
          | _ => simp [isPlain] at hPlain
      | stray c =>
          have hBlank := hFits.1
          intro hMember
          rw [← List.mem_singleton.mp hMember] at hBlank
          exact absurd hBlank (by decide)
      | _ => simp [isPlain] at hPlain

/- Whatever is no bracketed access is described in one line. -/
theorem Fits.oneLine_description
    {lexeme : Lexeme}
    {rest : List Char}
    (hFits : lexeme.Fits rest)
    (hBracketed : lexeme.isBracketed = false)
    (depth : Int) :
    OneLine (lexeme.explain depth).description := by
  have hText := hFits.oneLine_text
  cases lexeme with
  | space text => exact List.not_mem_nil
  | literal text =>
      simp only [explain, explainLiteral]
      split
      · exact oneLine_ofList rfl
      · exact oneLine_ofList rfl
  | number text => exact .append (oneLine_ofList rfl) (hText rfl rfl rfl)
  | var name =>
      have hName := hText rfl rfl rfl
      simp only [explain, explainVariable]
      split
      · exact Token.oneLine_ofGlossary hName _
      · refine .append (.append (.append (.append ?_ hName) ?_) hName) ?_
        all_goals exact oneLine_ofList rfl
  | format name =>
      simp only [explain, explainFormat]
      split
      · next gloss hGloss =>
          rw [Token.description_withDocumentation]
          exact Gloss.oneLine_description hGloss
      · exact .append (oneLine_ofList rfl) (hText rfl rfl rfl)
  | operator text => exact Token.oneLine_ofGlossary (hText rfl rfl rfl) _
  | access path => exact Access.oneLine_description (hText rfl rfl hBracketed)
  | word text =>
      have hName := hText rfl rfl rfl
      simp only [explain, explainWord]
      split
      · exact Token.oneLine_ofGlossary hName _
      split
      · refine .append (.append (.append (.append (.append ?_ hName) ?_) hName) ?_) hName
        all_goals exact oneLine_ofList rfl
      · exact .append (.append (oneLine_ofList rfl) hName) (oneLine_ofList rfl)
  | stray c =>
      exact .append (.append (oneLine_ofList rfl) (hText rfl rfl rfl)) (oneLine_ofList rfl)

end Lexeme

/- How many line breaks the description of a token repeats from its text. -/
def Token.repeatedBreaks (token : Token) : Nat :=
  if token.isBracketed then token.text.toList.count '\n' else 0

/- A description has only those line breaks that it repeats. -/
theorem Lexeme.Fits.count_description
    {lexeme : Lexeme}
    {rest : List Char}
    (hFits : lexeme.Fits rest)
    (depth : Int) :
    (lexeme.explain depth).description.toList.count '\n' =
      (lexeme.explain depth).repeatedBreaks := by
  unfold Token.repeatedBreaks
  rw [isBracketed_explain, text_explain]
  cases hBracketed : lexeme.isBracketed with
  | false => exact List.count_eq_zero.mpr (hFits.oneLine_description hBracketed depth)
  | true =>
      match lexeme, hBracketed with
      | access (.bracket body false suppressed), _ =>
          simp [explain, Access.explain, String.toList_append, text]
      | access (.bracket body true suppressed), _ =>
          simp [explain, Access.explain, String.toList_append, text]

------------------------------------------------------------
-- The table of a filter
------------------------------------------------------------

/- Each token of a filter explains a lexeme that is complete where it stands. -/
theorem exists_fits_of_mem_tokenize
    {filter : String}
    {token : Token}
    (hToken : token ∈ tokenize filter) :
    ∃ depth lexeme rest, Lexeme.Fits rest lexeme ∧ token = lexeme.explain depth := by
  rcases List.mem_iff_append.mp hToken with ⟨before, behind, hTokens⟩
  rcases exists_lexeme_of_explainAll hTokens with ⟨front, lexeme, back, hScan, -, hExplain, -⟩
  have hLexeme : lexeme ∈ Lexeme.scan filter.toList := by
    rw [hScan]
    exact List.mem_append_right front List.mem_cons_self
  rcases (Lexeme.fitting_scan filter.toList).exists_fits hLexeme with ⟨rest, hFits⟩
  exact ⟨_, lexeme, rest, hFits, hExplain⟩

/-
  The table of a filter has a row for each token that is not
  blank, in order, with a line break behind it. The rows show
  their tokens in the same columns. A row is a single line, but
  for the line breaks that the description of a bracketed access
  repeats.
-/
theorem tokenize_rows
    (filter : String) :
    ∃ column rows,
      Table.tokens false false (tokenize filter) =
          String.ofList (rows.flatMap fun row => row ++ ['\n']) ∧
        List.Forall₂
          (fun token row => Table.IsRow column token row ∧
            row.count '\n' = token.repeatedBreaks)
          ((tokenize filter).filter fun token => !token.isSpace) rows := by
  let visible := (tokenize filter).filter fun token => !token.isSpace
  refine ⟨Table.textWidth visible + 2, _, Table.tokens_eq_lines _, ?_⟩
  rw [List.forall₂_map_right_iff, List.forall₂_same]
  intro token hMember
  constructor
  · apply Table.isRow_line
    exact Table.length_cell_le_textWidth hMember
  · rcases exists_fits_of_mem_tokenize (List.mem_of_mem_filter hMember) with
      ⟨depth, lexeme, rest, hFits, rfl⟩
    rw [Table.count_line]
    exact hFits.count_description depth

/- Lines that are joined have a line break each, if they have none themselves. -/
theorem Table.count_lines
    {rows : List (List Char)}
    (hLines : ∀ row ∈ rows, '\n' ∉ row) :
    (rows.flatMap fun row => row ++ ['\n']).count '\n' = rows.length := by
  induction rows with
  | nil => rfl
  | cons row rows ih =>
      rw [List.forall_mem_cons] at hLines
      have hRow := List.count_eq_zero.mpr hLines.1
      simp [List.count_append, hRow, ih hLines.2]

/- An index with a line break in its brackets has a row of two lines. -/
theorem tokenize_rows_brokenIndex :
    let tokens := tokenize ".[\n0]"
    (∃ token, tokens = [token] ∧ token.isSpace = false) ∧
      Table.tokens false false tokens = ".[\\n0]  access     Index access: .[\n0]\n" ∧
      ¬ ∃ rows : List (List Char),
        rows.length = (tokens.filter fun token => !token.isSpace).length ∧
          (∀ row ∈ rows, '\n' ∉ row) ∧
          Table.tokens false false tokens =
            String.ofList (rows.flatMap fun row => row ++ ['\n']) := by
  intro tokens
  have hTable :
      Table.tokens false false tokens = ".[\\n0]  access     Index access: .[\n0]\n" := by
    decide +kernel
  have hVisible : (tokens.filter fun token => !token.isSpace).length = 1 := by
    decide +kernel
  let path := Access.bracket "[\n0]".toList false false
  refine ⟨⟨path.explain, ?_, rfl⟩, hTable, ?_⟩
  · decide +kernel
  · rintro ⟨rows, hLength, hLines, hRows⟩
    have hCount := Table.count_lines hLines
    rw [hTable] at hRows
    have hText := congrArg (fun text => text.toList.count '\n') hRows
    simp only [String.toList_ofList, hCount, hLength, hVisible] at hText
    exact absurd hText (by decide)

end JqLens
