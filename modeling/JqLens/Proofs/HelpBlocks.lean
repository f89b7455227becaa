import Mathlib.Order.Bounds.Basic
import JqLens.Proofs.Colouring
import JqLens.Proofs.Stage

/-
  This file says that the colours of a block of examples only
  add sequences to it, and where a line of it is cut. The search
  for the description keeps the first run of spaces that may
  still be its gap; whatever sizes characters have, it finds the
  extent of the text in front of the first gap. So a line is cut
  between two of its characters also where positions are counted
  in bytes.

  Key definitions include:
    * `Colour.GapAt`
    * `Colour.extent`
    * `Text.cutAt?`
    * `Colour.slicedLine?`

  Main results:
    * `Colour.descriptionFrom_eq`
    * `Colour.slicedLine?_eq`
    * `Colour.shows_exampleLine`
    * `Colour.examples_onlyEscapes`
-/

namespace JqLens

namespace Colour

------------------------------------------------------------
-- Gaps
------------------------------------------------------------

/-
  At a position of a line a run of two or more spaces begins
  that another character follows.
-/
def GapAt
    (line : List Char)
    (n : Nat) : Prop :=
  (line.take n).getLast? ≠ some ' ' ∧
    ∃ spaces c rest, 2 ≤ spaces ∧ c ≠ ' ' ∧ line.drop n = List.replicate spaces ' ' ++ c :: rest

/- The first position at which a gap begins. -/
def FirstGapAt
    (line : List Char)
    (n : Nat) : Prop :=
  IsLeast (fun m => GapAt line m) n

/- The size of a text as the sum of those of its characters. -/
def extent (size : Char → Nat) : List Char → Nat
  | [] => 0
  | c :: cs => size c + extent size cs

/-
  What is known of a line behind what has been read of it: spaces
  have been read from a position on, in front of which there is
  none, and no gap begins in front of it.
-/
structure ReadTo
    (read rest : List Char)
    (first : Nat) : Prop where
  le : first ≤ read.length
  spaces : read.drop first = List.replicate (read.length - first) ' '
  solid : (read.take first).getLast? ≠ some ' '
  least : ∀ n, GapAt (read ++ rest) n → first ≤ n

/- The spaces at the front of a text end at its first other character. -/
theorem length_takeWhile_spaces
    {c : Char}
    (hOther : c ≠ ' ')
    (n : Nat)
    (cs : List Char) :
    ((List.replicate n ' ' ++ c :: cs).takeWhile (· == ' ')).length = n := by
  rw [List.takeWhile_append_of_pos (by simp), List.takeWhile_cons_of_neg (by simpa using hOther)]
  simp

/- Two runs of spaces at the front of the same text are as long as each other. -/
theorem spaces_eq
    {m n : Nat}
    {c d : Char}
    {cs ds : List Char}
    (hFirst : c ≠ ' ')
    (hSecond : d ≠ ' ')
    (hEqual : List.replicate m ' ' ++ c :: cs = List.replicate n ' ' ++ d :: ds) :
    m = n := by
  rw [← length_takeWhile_spaces hFirst m cs, hEqual, length_takeWhile_spaces hSecond n ds]

namespace ReadTo

variable {read rest : List Char} {first : Nat} {c : Char}

/- From where the run of spaces begins, only spaces have been read. -/
theorem drop_eq
    (hRead : ReadTo read rest first)
    {n : Nat}
    (hFirst : first ≤ n)
    (hLength : n ≤ read.length) :
    (read ++ rest).drop n = List.replicate (read.length - n) ' ' ++ rest := by
  have hDrop : read.drop n = (read.drop first).drop (n - first) := by
    rw [List.drop_drop, Nat.add_sub_cancel' hFirst]
  rw [List.drop_append_of_le_length hLength, hDrop, hRead.spaces, List.drop_replicate]
  congr 2
  omega

/- Nothing has been read. -/
theorem start
    (line : List Char) :
    ReadTo [] line 0 :=
  ⟨le_rfl, rfl, by simp, fun n _ => Nat.zero_le n⟩

/- A further space goes to the run. -/
theorem space
    (hRead : ReadTo read (' ' :: rest) first) :
    ReadTo (read ++ [' ']) rest first := by
  have hLe := hRead.le
  constructor
  · rw [List.length_append]
    omega
  · rw [List.drop_append_of_le_length hLe, hRead.spaces, List.length_append,
      List.length_singleton, Nat.sub_add_comm hLe, List.replicate_succ']
  · rw [List.take_append_of_le_length hLe]
    exact hRead.solid
  · intro n hGap
    rw [List.append_assoc] at hGap
    exact hRead.least n hGap

/- Behind fewer than two spaces another character ends the run. -/
theorem other
    (hRead : ReadTo read (c :: rest) first)
    (hOther : c ≠ ' ')
    (hShort : read.length - first < 2) :
    ReadTo (read ++ [c]) rest (read.length + 1) := by
  have hLength : (read ++ [c]).length = read.length + 1 := by
    simp
  refine ⟨hLength.ge, ?_, ?_, ?_⟩
  · rw [hLength, Nat.sub_self, ← hLength, List.drop_length]
    rfl
  · rw [← hLength, List.take_length, List.getLast?_concat]
    exact fun hSpace => hOther (Option.some.inj hSpace)
  · intro n hGap
    rw [List.append_assoc, List.singleton_append] at hGap
    have hFirst := hRead.least n hGap
    by_contra hBefore
    rcases hGap with ⟨-, spaces, d, behind, hTwo, hSecond, hDrop⟩
    rw [hRead.drop_eq hFirst (by omega)] at hDrop
    have hSpaces := spaces_eq hOther hSecond hDrop
    omega

/- Behind two or more spaces another character ends the first gap. -/
theorem firstGapAt
    (hRead : ReadTo read (c :: rest) first)
    (hOther : c ≠ ' ')
    (hLong : 2 ≤ read.length - first) :
    FirstGapAt (read ++ c :: rest) first := by
  refine ⟨⟨?_, _, c, rest, hLong, hOther, hRead.drop_eq le_rfl hRead.le⟩, hRead.least⟩
  rw [List.take_append_of_le_length hRead.le]
  exact hRead.solid

/- A run of spaces at the end of a line is no gap. -/
theorem not_gapAt
    (hRead : ReadTo read [] first)
    (n : Nat) :
    ¬ GapAt (read ++ []) n := by
  intro hGap
  have hFirst := hRead.least n hGap
  rcases hGap with ⟨-, spaces, c, behind, -, hOther, hDrop⟩
  have hMember : c ∈ (read ++ []).drop n := by
    rw [hDrop]
    exact List.mem_append_right _ List.mem_cons_self
  by_cases hLength : n ≤ read.length
  · rw [hRead.drop_eq hFirst hLength, List.append_nil] at hMember
    exact hOther (List.eq_of_mem_replicate hMember)
  · rw [List.append_nil, List.drop_of_length_le (by omega)] at hMember
    simp at hMember

end ReadTo

------------------------------------------------------------
-- The search for the description
------------------------------------------------------------

section Search

variable {size : Char → Nat}

theorem extent_append
    (size : Char → Nat)
    (front back : List Char) :
    extent size (front ++ back) = extent size front + extent size back := by
  induction front with
  | nil => exact (Nat.zero_add _).symm
  | cons c front ih => rw [List.cons_append, extent, ih, extent, Nat.add_assoc]

theorem extent_concat
    (cs : List Char)
    (c : Char) :
    extent size (cs ++ [c]) = extent size cs + size c := by
  rw [extent_append, extent, extent, Nat.add_zero]

/- A text of characters of size one is as large as it is long. -/
theorem extent_eq_length
    {cs : List Char}
    (hOne : ∀ c ∈ cs, size c = 1) :
    extent size cs = cs.length := by
  induction cs with
  | nil => rfl
  | cons c cs ih =>
      rw [List.forall_mem_cons] at hOne
      rw [extent, hOne.1, ih hOne.2, List.length_cons, Nat.add_comm]

/- The run of spaces that has been read is as large as it is long. -/
theorem ReadTo.extent_sub
    {read rest : List Char}
    {first : Nat}
    (hSpace : size ' ' = 1)
    (hRead : ReadTo read rest first) :
    extent size read - extent size (read.take first) = read.length - first := by
  have hRun : extent size (read.drop first) = read.length - first := by
    rw [hRead.spaces, extent_eq_length, List.length_replicate]
    intro c hMember
    rw [List.eq_of_mem_replicate hMember, hSpace]
  have hSplit := extent_append size (read.take first) (read.drop first)
  rw [List.take_append_drop] at hSplit
  omega

/- What the search keeps of a run of spaces that begins at a position. -/
def openRun
    (size : Char → Nat)
    (read : List Char)
    (first : Nat) : Option Nat :=
  if first = read.length then none else some (extent size (read.take first))

theorem descriptionFrom_none
    (size : Char → Nat)
    (position : Nat)
    (c : Char)
    (cs : List Char) :
    descriptionFrom size position none (c :: cs) =
      descriptionFrom size (position + size c) (if c = ' ' then some position else none) cs := rfl

theorem descriptionFrom_some
    (size : Char → Nat)
    (position first : Nat)
    (c : Char)
    (cs : List Char) :
    descriptionFrom size position (some first) (c :: cs) =
      if c = ' ' then descriptionFrom size (position + size c) (some first) cs
      else if 2 ≤ position - first then some first
      else descriptionFrom size (position + size c) none cs := rfl

/- A further space goes to the run that is kept, or starts one. -/
theorem descriptionFrom_space
    {read rest : List Char}
    {first : Nat}
    (hRead : ReadTo read (' ' :: rest) first) :
    descriptionFrom size (extent size read) (openRun size read first) (' ' :: rest) =
      descriptionFrom size (extent size (read ++ [' '])) (openRun size (read ++ [' ']) first)
        rest := by
  have hLe := hRead.le
  have hNext : openRun size (read ++ [' ']) first = some (extent size (read.take first)) := by
    rw [openRun, List.take_append_of_le_length hLe, List.length_append, List.length_singleton,
      if_neg (by omega)]
  rw [hNext, extent_concat]
  by_cases hNone : first = read.length
  · rw [openRun, if_pos hNone, descriptionFrom_none, if_pos rfl, hNone, List.take_length]
  · rw [openRun, if_neg hNone, descriptionFrom_some, if_pos rfl]

/- Another character ends a run that is too short for a gap. -/
theorem descriptionFrom_other
    {read rest : List Char}
    {first : Nat}
    {c : Char}
    (hSpace : size ' ' = 1)
    (hRead : ReadTo read (c :: rest) first)
    (hOther : c ≠ ' ')
    (hShort : read.length - first < 2) :
    descriptionFrom size (extent size read) (openRun size read first) (c :: rest) =
      descriptionFrom size (extent size (read ++ [c]))
        (openRun size (read ++ [c]) (read.length + 1)) rest := by
  have hNext : openRun size (read ++ [c]) (read.length + 1) = none := by
    rw [openRun, if_pos (by simp)]
  rw [hNext, extent_concat]
  by_cases hNone : first = read.length
  · rw [openRun, if_pos hNone, descriptionFrom_none, if_neg hOther]
  · rw [openRun, if_neg hNone, descriptionFrom_some, if_neg hOther, hRead.extent_sub hSpace,
      if_neg (by omega)]

/- Another character behind a gap ends the search. -/
theorem descriptionFrom_gap
    {read rest : List Char}
    {first : Nat}
    {c : Char}
    (hSpace : size ' ' = 1)
    (hRead : ReadTo read (c :: rest) first)
    (hOther : c ≠ ' ')
    (hLong : 2 ≤ read.length - first) :
    descriptionFrom size (extent size read) (openRun size read first) (c :: rest) =
      some (extent size (read.take first)) := by
  rw [openRun, if_neg (by omega), descriptionFrom_some, if_neg hOther, hRead.extent_sub hSpace,
    if_pos hLong]

/-
  What is to be found in a line: the extent of the text in front
  of its first gap, or nothing if it has no gap.
-/
def Finds
    (size : Char → Nat)
    (line : List Char)
    (found : Option Nat) : Prop :=
  (found = none ∧ ∀ n, ¬ GapAt line n) ∨
    ∃ n, FirstGapAt line n ∧ found = some (extent size (line.take n))

theorem finds_descriptionFrom
    {read rest : List Char}
    {first : Nat}
    (hSpace : size ' ' = 1)
    (hRead : ReadTo read rest first) :
    Finds size (read ++ rest)
      (descriptionFrom size (extent size read) (openRun size read first) rest) := by
  induction rest generalizing read first with
  | nil => exact .inl ⟨rfl, hRead.not_gapAt⟩
  | cons c rest ih =>
      have hLine : read ++ c :: rest = (read ++ [c]) ++ rest := by
        simp
      by_cases hFirst : c = ' '
      · subst hFirst
        rw [descriptionFrom_space hRead, hLine]
        exact ih hRead.space
      by_cases hShort : read.length - first < 2
      · rw [descriptionFrom_other hSpace hRead hFirst hShort, hLine]
        exact ih (hRead.other hFirst hShort)
      · have hLong : 2 ≤ read.length - first := not_lt.mp hShort
        refine .inr ⟨first, hRead.firstGapAt hFirst hLong, ?_⟩
        rw [descriptionFrom_gap hSpace hRead hFirst hLong,
          List.take_append_of_le_length hRead.le]

/- The search from the start of a line. -/
theorem finds_of_start
    {size : Char → Nat}
    (hSpace : size ' ' = 1)
    (line : List Char) :
    Finds size line (descriptionFrom size 0 none line) :=
  finds_descriptionFrom hSpace (ReadTo.start line)

end Search

theorem utf8ByteSize_eq_extent
    (cs : List Char) :
    (String.ofList cs).utf8ByteSize = extent Char.utf8Size cs := by
  induction cs with
  | nil => rfl
  | cons c cs ih =>
      rw [← List.singleton_append, String.ofList_append, String.utf8ByteSize_append, ih,
        extent_append]
      simp [extent]

/- A gap begins within its line. -/
theorem GapAt.lt_length
    {line : List Char}
    {n : Nat}
    (hGap : GapAt line n) :
    n < line.length := by
  rcases hGap with ⟨-, spaces, c, rest, -, -, hDrop⟩
  by_contra hBehind
  rw [List.drop_of_length_le (by omega)] at hDrop
  simp at hDrop

/-
  The description of a line is found behind the same characters
  whether they are counted as such or in bytes.
-/
theorem description_cases
    (line : String) :
    (descriptionStart line.toList = none ∧ descriptionByte line = none ∧
        ∀ n, ¬ GapAt line.toList n) ∨
      ∃ n, FirstGapAt line.toList n ∧ descriptionStart line.toList = some n ∧
        descriptionByte line = some (String.ofList (line.toList.take n)).utf8ByteSize := by
  have hOne : Finds (fun _ => 1) line.toList (descriptionStart line.toList) :=
    finds_of_start rfl line.toList
  have hBytes : Finds Char.utf8Size line.toList (descriptionByte line) :=
    finds_of_start rfl line.toList
  rcases hOne with hStart | hStart
  · rcases hBytes with hByte | hByte
    · exact .inl ⟨hStart.1, hByte.1, hStart.2⟩
    · rcases hByte with ⟨n, hGap, -⟩
      exact absurd hGap.1 (hStart.2 n)
  · rcases hStart with ⟨n, hGap, hStart⟩
    rcases hBytes with hByte | hByte
    · exact absurd hGap.1 (hByte.2 n)
    · rcases hByte with ⟨m, hSame, hByte⟩
      have hEqual : m = n := hSame.unique hGap
      have hLength : min n line.toList.length = n := min_eq_left hGap.1.lt_length.le
      subst hEqual
      refine .inr ⟨m, hGap, hStart.trans ?_, ?_⟩
      · rw [extent_eq_length fun _ _ => rfl, List.length_take, hLength]
      · rw [utf8ByteSize_eq_extent]
        exact hByte

end Colour

------------------------------------------------------------
-- Slices of a line
------------------------------------------------------------

/-
  The slices of a text in front of a byte and from it on. There
  are none if the byte lies within a character or behind the
  text.
-/
def Text.cutAt?
    (text : String)
    (offset : Nat) : Option (String × String) :=
  if hValid : String.Pos.Raw.IsValid text ⟨offset⟩ then
    let position : text.Pos := ⟨⟨offset⟩, hValid⟩
    some ((text.sliceTo position).copy, (text.sliceFrom position).copy)
  else none

/- A text is cut where the first of two texts ends. -/
theorem Text.cutAt?_append
    (front back : String) :
    cutAt? (front ++ back) front.utf8ByteSize = some (front, back) := by
  have hValid : String.Pos.Raw.IsValid (front ++ back) ⟨front.utf8ByteSize⟩ :=
    String.Pos.Raw.isValid_iff_exists_append.mpr ⟨front, back, rfl, rfl⟩
  let position : (front ++ back).Pos := ⟨⟨front.utf8ByteSize⟩, hValid⟩
  have hSplits : position.Splits front back := ⟨rfl, rfl⟩
  rcases position.splits.eq hSplits with ⟨hFront, hBack⟩
  rw [cutAt?, dif_pos hValid]
  exact congrArg some (Prod.ext hFront hBack)

/- The slices of a list of characters that is cut behind some of them. -/
theorem Text.cutAt?_take
    (n : Nat)
    (cs : List Char) :
    cutAt? (String.ofList cs) (String.ofList (cs.take n)).utf8ByteSize =
      some (String.ofList (cs.take n), String.ofList (cs.drop n)) := by
  have hCut := cutAt?_append (String.ofList (cs.take n)) (String.ofList (cs.drop n))
  rwa [← String.ofList_append, List.take_append_drop] at hCut

/- A line is cut behind its indent, which is as much as its body lacks. -/
theorem Text.cutAt?_indent
    (line : String) :
    let body := String.ofList (trimStart line.toList)
    cutAt? line (line.utf8ByteSize - body.utf8ByteSize) =
      some (String.ofList (line.toList.takeWhile isBlank), body) := by
  intro body
  have hLine : String.ofList (line.toList.takeWhile isBlank) ++ body = line := by
    rw [← String.ofList_append]
    refine (congrArg String.ofList ?_).trans String.ofList_toList
    exact List.takeWhile_append_dropWhile
  have hCut := cutAt?_append (String.ofList (line.toList.takeWhile isBlank)) body
  have hSize := congrArg String.utf8ByteSize hLine
  rw [String.utf8ByteSize_append] at hSize
  rw [hLine] at hCut
  rwa [← hSize, Nat.add_sub_cancel_right]

namespace Colour

/-
  The line of a block of examples made of slices, which are cut
  by bytes: the indent at the bytes that the body lacks, and the
  body at its description.
-/
def slicedLine? (line : String) : Option (List Char) :=
  let body := String.ofList (Text.trimStart line.toList)
  (Text.cutAt? line (line.utf8ByteSize - body.utf8ByteSize)).bind fun (indent, _) =>
    if body.toList.getLast? = some ':' && !hasGap body.toList then
      some (indent.toList ++ paint header body.toList)
    else
      match descriptionByte body with
      | some offset =>
          (Text.cutAt? body offset).map fun (command, description) =>
            indent.toList ++ paint literal command.toList ++ description.toList
      | none => some line.toList

/- No slice of a line falls within a character, and the slices make its coloured form. -/
theorem slicedLine?_eq
    (line : String) :
    slicedLine? line = some (exampleLine line.toList) := by
  simp only [slicedLine?, exampleLine, Text.cutAt?_indent, Option.bind_some, String.toList_ofList]
  generalize Text.trimStart line.toList = body
  split
  · rfl
  · rcases description_cases (String.ofList body) with ⟨hStart, hByte, -⟩ | ⟨n, -, hStart, hByte⟩
    · rw [String.toList_ofList] at hStart
      simp only [hStart, hByte]
    · rw [String.toList_ofList] at hStart hByte
      simp only [hStart, hByte, Text.cutAt?_take, Option.map_some, String.toList_ofList]

------------------------------------------------------------
-- Blocks of examples
------------------------------------------------------------

/- A coloured line shows the line. -/
theorem shows_exampleLine
    {line : List Char}
    (hPlain : Plain line) :
    Shows (exampleLine line) line := by
  have hLine : line.takeWhile Text.isBlank ++ Text.trimStart line = line :=
    List.takeWhile_append_dropWhile
  have hParts : Plain (line.takeWhile Text.isBlank) ∧ Plain (Text.trimStart line) := by
    rw [← hLine] at hPlain
    exact hPlain.of_append
  rw [exampleLine]
  generalize Text.trimStart line = body at hLine hParts
  generalize line.takeWhile Text.isBlank = indent at hLine hParts
  subst hLine
  split
  · exact hParts.1.shows.append (shows_paint header hParts.2)
  split
  · next position _ =>
      have hBody : body.take position ++ body.drop position = body :=
        List.take_append_drop position body
      have hPieces : Plain (body.take position) ∧ Plain (body.drop position) := by
        rw [← hBody] at hParts
        exact hParts.2.of_append
      have hShows := (shows_paint literal hPieces.1).append hPieces.2.shows
      rw [hBody] at hShows
      rw [List.append_assoc]
      exact hParts.1.shows.append hShows
  · exact hPlain.shows

/- Only an empty line is left empty. -/
theorem isEmpty_exampleLine
    {line : List Char}
    (hPlain : Plain line) :
    (exampleLine line).isEmpty = line.isEmpty := by
  cases line with
  | nil => rfl
  | cons c line =>
      have hShown := (shows_exampleLine hPlain).erase_eq
      have hSome : exampleLine (c :: line) ≠ [] := by
        intro hNone
        rw [hNone] at hShown
        exact List.cons_ne_nil c line hShown.symm
      simpa using hSome

theorem stack_of_ne_nil
    {above : List Char}
    (hSome : above ≠ [])
    (lines : List (List Char)) :
    stack above lines = Text.joinWith ['\n'] (above :: lines) := by
  induction lines generalizing above with
  | nil => rfl
  | cons line lines ih =>
      have hAbove : above.isEmpty = false := by
        simpa using hSome
      rw [stack, hAbove, ← joinWith_append]
      exact (ih (by simp)).trans (by simp)

/- Lines one below the other, without the empty lines at the top. -/
theorem stack_nil
    (lines : List (List Char)) :
    stack [] lines = Text.joinWith ['\n'] (lines.dropWhile List.isEmpty) := by
  induction lines with
  | nil => rfl
  | cons line lines ih =>
      rw [stack, List.isEmpty_nil, if_pos rfl]
      cases line with
      | nil => exact ih
      | cons c line => exact stack_of_ne_nil (List.cons_ne_nil c line) lines

/- Lines one below the other show what each of them shows. -/
theorem shows_joinWith
    {lines : List (List Char)}
    {coloured : List Char → List Char}
    (hLines : ∀ line ∈ lines, Shows (coloured line) line) :
    Shows (Text.joinWith ['\n'] (lines.map coloured)) (Text.joinWith ['\n'] lines) := by
  induction lines with
  | nil => exact fun _ => rfl
  | cons line lines ih =>
      rw [List.forall_mem_cons] at hLines
      cases lines with
      | nil => exact hLines.1
      | cons second lines =>
          rw [List.map_cons, List.map_cons, Text.joinWith_cons_cons, Text.joinWith_cons_cons]
          exact (hLines.1.append Table.plain_break.shows).append (ih hLines.2)

/- Without its empty lines at the top a text lacks the line breaks at its front. -/
theorem joinWith_dropWhile_splitOn
    (cs : List Char) :
    Text.joinWith ['\n'] ((cs.splitOn '\n').dropWhile List.isEmpty) =
      cs.dropWhile (· == '\n') := by
  induction cs with
  | nil => rfl
  | cons c cs ih =>
      by_cases hBreak : c = '\n'
      · subst hBreak
        rw [List.splitOn_cons_eq_if_modifyHead]
        simpa using ih
      · have hPieces :
            ((c :: cs).splitOn '\n').dropWhile List.isEmpty = (c :: cs).splitOn '\n' := by
          rw [List.splitOn_cons_eq_if_modifyHead, if_neg (by simpa using hBreak)]
          cases cs.splitOn '\n' with
          | nil => rfl
          | cons piece pieces => rfl
        rw [hPieces, Text.joinWith_eq_intercalate, List.intercalate_splitOn,
          List.dropWhile_cons_of_neg (by simpa using hBreak)]

/- The coloured lines at the top that are empty are those that were empty before. -/
theorem dropWhile_map_exampleLine
    {lines : List (List Char)}
    (hPlain : ∀ line ∈ lines, Plain line) :
    (lines.map exampleLine).dropWhile List.isEmpty =
      (lines.dropWhile List.isEmpty).map exampleLine := by
  induction lines with
  | nil => rfl
  | cons line lines ih =>
      rw [List.forall_mem_cons] at hPlain
      rw [List.map_cons, List.dropWhile_cons, List.dropWhile_cons, isEmpty_exampleLine hPlain.1,
        ih hPlain.2]
      split
      · rfl
      · rfl

/- A block in colours shows the text without the line breaks at its front. -/
theorem shows_examples
    {text : String}
    (hPlain : Plain text.toList)
    (hReturn : '\r' ∉ text.toList)
    (hLast : text.toList.getLast? ≠ some '\n') :
    Shows (examples true text).toList (text.toList.dropWhile (· == '\n')) := by
  have hLines : ∀ line ∈ Text.lines text.toList, Plain line :=
    fun _ hLine => Table.plain_lines hPlain hLine
  have hText : Text.joinWith ['\n'] ((Text.lines text.toList).dropWhile List.isEmpty) =
      text.toList.dropWhile (· == '\n') := by
    by_cases hNone : text.toList = []
    · rw [hNone]
      rfl
    · rw [Text.lines_eq_splitOn hNone hReturn hLast, joinWith_dropWhile_splitOn]
  rw [examples, if_pos rfl, String.toList_ofList, stack_nil, dropWhile_map_exampleLine hLines,
    ← hText]
  apply shows_joinWith
  intro line hLine
  exact shows_exampleLine (hLines line (List.dropWhile_suffix _ |>.subset hLine))

/-
  A block of examples in colours, where the text has neither
  escape characters nor carriage returns and does not end with a
  line break. Its colours only add sequences, except that the
  line breaks in front of the first line with text are lost; so
  without the sequences it is the text exactly if that does not
  start with a line break. No slice of a line falls within a
  character: the description of a line is looked for and found
  where the first run of two or more spaces begins that another
  character follows.
-/
theorem examples_onlyEscapes
    (text : String)
    (hPlain : Plain text.toList)
    (hReturn : '\r' ∉ text.toList)
    (hLast : text.toList.getLast? ≠ some '\n') :
    erase (examples true text).toList = text.toList.dropWhile (· == '\n') ∧
      (erase (examples true text).toList = text.toList ↔ text.toList.head? ≠ some '\n') ∧
      ∀ line : String,
        slicedLine? line = some (exampleLine line.toList) ∧
          ((descriptionByte line = none ∧ ∀ n, ¬ GapAt line.toList n) ∨
            ∃ n, FirstGapAt line.toList n ∧
              descriptionByte line = some (String.ofList (line.toList.take n)).utf8ByteSize) := by
  have hShown := (shows_examples hPlain hReturn hLast).erase_eq
  refine ⟨hShown, ?_, fun line => ⟨slicedLine?_eq line, ?_⟩⟩
  · rw [hShown, List.dropWhile_eq_self_iff]
    cases text.toList with
    | nil => simp
    | cons c cs => simp
  · rcases description_cases line with ⟨-, hByte, hNone⟩ | ⟨n, hGap, -, hByte⟩
    · exact .inl ⟨hByte, hNone⟩
    · exact .inr ⟨n, hGap, hByte⟩

/- A title, indented examples with wide characters and a wide indent, and an empty line. -/
theorem examples_onlyEscapes_wideCharacters :
    let text := "Größe:\n\n  日本 x  語\n\u3000é ü"
    let line := "日本 x  語"
    Plain text.toList ∧ '\r' ∉ text.toList ∧ text.toList.getLast? ≠ some '\n' ∧
      examples true text ≠ text ∧
      erase (examples true text).toList = text.toList ∧
      descriptionByte line = some 8 ∧
      slicedLine? line = some (exampleLine line.toList) := by
  intro text line
  have hPlain : Plain text.toList := by
    decide
  have hReturn : '\r' ∉ text.toList := by
    decide
  have hLast : text.toList.getLast? ≠ some '\n' := by
    decide
  have hFront : text.toList.head? ≠ some '\n' := by
    decide
  have hDiffers : examples true text ≠ text := by
    decide +kernel
  rcases examples_onlyEscapes text hPlain hReturn hLast with ⟨-, hShown, hSlices⟩
  exact ⟨hPlain, hReturn, hLast, hDiffers, hShown.mpr hFront, by decide, (hSlices line).1⟩

/- The line break in front of the first line with text is lost. -/
theorem examples_leadingBreak :
    let text := "\nx"
    Plain text.toList ∧ '\r' ∉ text.toList ∧ text.toList.getLast? ≠ some '\n' ∧
      erase (examples true text).toList ≠ text.toList := by
  decide +kernel

end Colour

end JqLens
