import JqLens.Proofs.JsonScalar

/-
  This file proves that the text of a value is read as that
  value, however it is laid out: blanks may stand between any
  two parts of it. Both written layouts are of this kind, so
  that whoever reads them cannot tell them apart.

  The reader keeps the open arrays and objects on a stack and
  goes on as long as there are characters. What it does with the
  text of a part is said for every stack and every text behind.

  Key definitions include:
    * `Reading.ofJson`
    * `Json.Spells`
    * `Reading.Advances`

  Main results:
    * `Json.spells_compact`
    * `Json.spells_indented`
    * `Reading.advances_value`
    * `Reading.parse?_of_spells`
-/

namespace JqLens

------------------------------------------------------------
-- Layouts
------------------------------------------------------------

/- Nothing but blanks. -/
def Reading.IsBlank
    (cs : List Char) : Prop :=
  ∀ c ∈ cs, Reading.isSpace c = true

namespace Json

open Reading (IsBlank)

mutual

/- A text spells a value, with blanks between its parts. -/
inductive Spells : Json → List Char → Prop where
  | null :
      Spells .null "null".toList
  | true :
      Spells (.bool .true) "true".toList
  | false :
      Spells (.bool .false) "false".toList
  | nat (value : Nat) :
      Spells (.nat value) (Nat.toDigits 10 value)
  | str (value : String) :
      Spells (.str value) (quoted value)
  | noItems {blanks : List Char} :
      IsBlank blanks →
      Spells (.arr []) ('[' :: (blanks ++ [']']))
  | items {item : Json} {items : List Json} {blanks text tail : List Char} :
      IsBlank blanks → Spells item text → SpellsItems items tail →
      Spells (.arr (item :: items)) ('[' :: (blanks ++ (text ++ tail)))
  | noMembers {blanks : List Char} :
      IsBlank blanks →
      Spells (.obj []) ('\x7b' :: (blanks ++ ['\x7d']))
  | members {member : String × Json} {members : List (String × Json)}
      {blanks text tail : List Char} :
      IsBlank blanks → SpellsMember member text → SpellsMembers members tail →
      Spells (.obj (member :: members)) ('\x7b' :: (blanks ++ (text ++ tail)))

/- A text spells the items behind the first one, and the closing bracket. -/
inductive SpellsItems : List Json → List Char → Prop where
  | close {blanks : List Char} :
      IsBlank blanks →
      SpellsItems [] (blanks ++ [']'])
  | next {item : Json} {items : List Json} {before blanks text tail : List Char} :
      IsBlank before → IsBlank blanks → Spells item text → SpellsItems items tail →
      SpellsItems (item :: items) (before ++ ',' :: (blanks ++ (text ++ tail)))

/- A text spells a name and its value. -/
inductive SpellsMember : String × Json → List Char → Prop where
  | mk {name : String} {value : Json} {before blanks text : List Char} :
      IsBlank before → IsBlank blanks → Spells value text →
      SpellsMember (name, value) (quoted name ++ (before ++ ':' :: (blanks ++ text)))

/- A text spells the members behind the first one, and the closing brace. -/
inductive SpellsMembers : List (String × Json) → List Char → Prop where
  | close {blanks : List Char} :
      IsBlank blanks →
      SpellsMembers [] (blanks ++ ['\x7d'])
  | next {member : String × Json} {members : List (String × Json)}
      {before blanks text tail : List Char} :
      IsBlank before → IsBlank blanks → SpellsMember member text →
      SpellsMembers members tail →
      SpellsMembers (member :: members) (before ++ ',' :: (blanks ++ (text ++ tail)))

end

theorem isBlank_nil : IsBlank [] := by
  intro c hMember
  cases hMember

theorem isBlank_space : IsBlank [' '] := by
  intro c hMember
  rw [List.mem_singleton.mp hMember]
  rfl

theorem isBlank_newline
    (level : Nat) :
    IsBlank (newline level) := by
  intro c hMember
  rcases List.mem_cons.mp hMember with rfl | hSpace
  · rfl
  · rw [List.eq_of_mem_replicate hSpace]
    rfl

mutual

/- The compact layout spells its value. -/
theorem spells_compact : ∀ value : Json, Spells value (compactChars value)
  | .null => .null
  | .bool .true => .true
  | .bool .false => .false
  | .nat value => .nat value
  | .str value => .str value
  | .arr [] => .noItems isBlank_nil
  | .arr (item :: items) =>
      .items isBlank_nil (spells_compact item) (spells_compactItems items)
  | .obj [] => .noMembers isBlank_nil
  | .obj (member :: members) =>
      .members isBlank_nil (spells_compactMember member) (spells_compactMembers members)

theorem spells_compactItems : ∀ items : List Json, SpellsItems items (compactItems items)
  | [] => .close isBlank_nil
  | item :: items =>
      .next isBlank_nil isBlank_nil (spells_compact item) (spells_compactItems items)

theorem spells_compactMember :
    ∀ member : String × Json, SpellsMember member (compactMember member)
  | (_, value) => .mk isBlank_nil isBlank_nil (spells_compact value)

theorem spells_compactMembers :
    ∀ members : List (String × Json), SpellsMembers members (compactMembers members)
  | [] => .close isBlank_nil
  | member :: members =>
      .next isBlank_nil isBlank_nil (spells_compactMember member)
        (spells_compactMembers members)

end

mutual

/- The indented layout spells its value, on every level. -/
theorem spells_indented : ∀ (level : Nat) (value : Json), Spells value (indentedChars level value)
  | _, .null => .null
  | _, .bool .true => .true
  | _, .bool .false => .false
  | _, .nat value => .nat value
  | _, .str value => .str value
  | _, .arr [] => .noItems isBlank_nil
  | level, .arr (item :: items) => by
      rw [indentedChars, List.append_assoc]
      exact .items (isBlank_newline (level + 1)) (spells_indented (level + 1) item)
        (spells_indentedItems level items)
  | _, .obj [] => .noMembers isBlank_nil
  | level, .obj (member :: members) => by
      rw [indentedChars, List.append_assoc]
      exact .members (isBlank_newline (level + 1)) (spells_indentedMember (level + 1) member)
        (spells_indentedMembers level members)

theorem spells_indentedItems :
    ∀ (level : Nat) (items : List Json), SpellsItems items (indentedItems level items)
  | level, [] => .close (isBlank_newline level)
  | level, item :: items => by
      rw [indentedItems, List.append_assoc]
      exact .next isBlank_nil (isBlank_newline (level + 1)) (spells_indented (level + 1) item)
        (spells_indentedItems level items)

theorem spells_indentedMember :
    ∀ (level : Nat) (member : String × Json), SpellsMember member (indentedMember level member)
  | level, (_, value) =>
      @SpellsMember.mk _ _ [] [' '] _ isBlank_nil isBlank_space (spells_indented level value)

theorem spells_indentedMembers :
    ∀ (level : Nat) (members : List (String × Json)),
      SpellsMembers members (indentedMembers level members)
  | level, [] => .close (isBlank_newline level)
  | level, member :: members => by
      rw [indentedMembers, List.append_assoc]
      exact .next isBlank_nil (isBlank_newline (level + 1))
        (spells_indentedMember (level + 1) member) (spells_indentedMembers level members)

end

end Json

namespace Reading

------------------------------------------------------------
-- Trees of values
------------------------------------------------------------

mutual

/- The tree that the text of a value is read as. -/
def ofJson : Json → Reading
  | .null => null
  | .bool value => bool value
  | .nat value => ofNatural value
  | .str value => str value
  | .arr items => arr (ofItems items) true
  | .obj members => obj (ofMembers members) true

/- The trees of the items of an array. -/
def ofItems : List Json → List Reading
  | [] => []
  | item :: items => ofJson item :: ofItems items

/- The trees of the members of an object. -/
def ofMembers : List (String × Json) → List (Option String × Reading)
  | [] => []
  | (name, value) :: members => (some name, ofJson value) :: ofMembers members

end

theorem ofItems_eq_map
    (items : List Json) :
    ofItems items = items.map ofJson := by
  induction items with
  | nil => rfl
  | cons item items ih => rw [ofItems, ih, List.map_cons]

------------------------------------------------------------
-- Steps of the reader
------------------------------------------------------------

/- Where the reader stands: what is open, what comes next, and the text ahead. -/
structure State where
  frames : List Frame
  mode : Mode
  text : List Char

/-
  The reader comes from one state to another, in no more steps
  than the characters that it takes.
-/
def Advances
    (s t : State) : Prop :=
  ∃ steps, steps + t.text.length ≤ s.text.length ∧
    ∀ fuel, run (steps + fuel) s.frames s.mode s.text = run fuel t.frames t.mode t.text

theorem Advances.trans
    {s t u : State}
    (hFirst : Advances s t)
    (hSecond : Advances t u) :
    Advances s u := by
  rcases hFirst with ⟨first, hTaken, hRun⟩
  rcases hSecond with ⟨second, hTakenBehind, hRunBehind⟩
  refine ⟨first + second, by omega, ?_⟩
  intro fuel
  rw [Nat.add_assoc, hRun, hRunBehind]

instance : Trans Advances Advances Advances where
  trans := Advances.trans

/- Blanks are passed over. -/
theorem advances_blanks
    (frames : List Frame)
    (mode : Mode)
    {blanks : List Char}
    (hBlanks : IsBlank blanks)
    (cs : List Char) :
    Advances ⟨frames, mode, blanks ++ cs⟩ ⟨frames, mode, cs⟩ := by
  refine ⟨0, by simp, ?_⟩
  intro fuel
  rw [Nat.zero_add]
  cases fuel with
  | zero => rfl
  | succ fuel =>
      have hSkip : skip (blanks ++ cs) = skip cs := List.dropWhile_append_of_pos hBlanks
      simp only [run, hSkip]

theorem skip_blanks
    {blanks : List Char}
    (hBlanks : IsBlank blanks)
    {c : Char}
    (hSpace : isSpace c = false)
    (cs : List Char) :
    skip (blanks ++ c :: cs) = c :: cs := by
  rw [skip, List.dropWhile_append_of_pos hBlanks]
  exact List.dropWhile_cons_of_neg (Bool.eq_false_iff.mp hSpace)

/- One step of the reader takes a character at least. -/
theorem advances_step
    {frames framesBehind : List Frame}
    {mode modeBehind : Mode}
    {c : Char}
    {cs rest : List Char}
    (hSpace : isSpace c = false)
    (hStep : step frames mode (c :: cs) = .more framesBehind modeBehind rest)
    (hShorter : rest.length ≤ cs.length) :
    Advances ⟨frames, mode, c :: cs⟩ ⟨framesBehind, modeBehind, rest⟩ := by
  refine ⟨1, by simp; omega, ?_⟩
  intro fuel
  have hSkip : skip (c :: cs) = c :: cs :=
    List.dropWhile_cons_of_neg (Bool.eq_false_iff.mp hSpace)
  rw [Nat.add_comm, run, hSkip, hStep]

/- A reader that comes to the end of its text has read its first value. -/
theorem first_of_advances
    {cs : List Char}
    {value : Reading}
    (hAdvances : Advances ⟨[], .value, cs⟩ ⟨[], .after value, []⟩) :
    first cs = (value, []) := by
  rcases hAdvances with ⟨steps, hTaken, hRun⟩
  have hFuel : cs.length + 1 = steps + ((cs.length - steps) + 1) := by
    have hSteps : steps + 0 ≤ cs.length := hTaken
    omega
  rw [first, hFuel, hRun]
  rfl

------------------------------------------------------------
-- Reading scalars
------------------------------------------------------------

theorem isNumeric_of_isSpace
    {c : Char}
    (hSpace : isSpace c = true) :
    isNumeric c = false := by
  simp only [isSpace, Bool.or_eq_true, decide_eq_true_eq] at hSpace
  rcases hSpace with ((rfl | rfl) | rfl) | rfl
  all_goals rfl

/- No number goes on over blanks and a character that is not part of numbers. -/
theorem stopsAt_blanks
    {blanks : List Char}
    (hBlanks : IsBlank blanks)
    {c : Char}
    (hNumeric : isNumeric c = false)
    (rest : List Char) :
    StopsAt isNumeric (blanks ++ c :: rest) := by
  intro d hHead
  cases blanks with
  | nil =>
      rw [List.nil_append, List.head?_cons, Option.mem_some_iff] at hHead
      rwa [← hHead]
  | cons blank blanks =>
      rw [List.cons_append, List.head?_cons, Option.mem_some_iff] at hHead
      rw [← hHead]
      exact isNumeric_of_isSpace (hBlanks blank List.mem_cons_self)

/- A scalar is read in one step. -/
theorem advances_scalar
    (frames : List Frame)
    {value : Reading}
    {c : Char}
    {cs rest : List Char}
    (hSpace : isSpace c = false)
    (hBracket : c ≠ '[')
    (hBrace : c ≠ '\x7b')
    (hScalar : scalar c cs = (value, rest))
    (hValue : value ≠ broken)
    (hShorter : rest.length ≤ cs.length) :
    Advances ⟨frames, .value, c :: cs⟩ ⟨frames, .after value, rest⟩ := by
  apply advances_step hSpace _ hShorter
  rw [step, stepValue, if_neg hBracket, if_neg hBrace, hScalar, Progress.behind]
  intro hBroken
  exact absurd hBroken hValue

/- A word is read as its value. -/
theorem advances_word
    (frames : List Frame)
    {value : Reading}
    {c : Char}
    (cs : List Char)
    (hSpace : isSpace c = false)
    (hBracket : c ≠ '[')
    (hBrace : c ≠ '\x7b')
    (hWord : ∀ text, scalar c text = word (c :: cs) value (c :: text))
    (hValue : value ≠ broken)
    (rest : List Char) :
    Advances ⟨frames, .value, c :: cs ++ rest⟩ ⟨frames, .after value, rest⟩ := by
  have hScalar : scalar c (cs ++ rest) = (value, rest) := by
    rw [hWord, ← List.cons_append, word, if_pos (by simp), List.drop_left]
  exact advances_scalar frames hSpace hBracket hBrace hScalar hValue (by simp)

theorem advances_nat
    (frames : List Frame)
    (n : Nat)
    {rest : List Char}
    (hStops : StopsAt isNumeric rest) :
    Advances ⟨frames, .value, Nat.toDigits 10 n ++ rest⟩
      ⟨frames, .after (ofNatural n), rest⟩ := by
  rcases exists_digit_toDigits n with ⟨c, cs, hDigits, hDigit, hOther⟩
  have hNumber := numberAt_toDigits n hStops
  have hValue : ofNatural n ≠ broken := by
    unfold ofNatural
    split
    · exact fun h => by cases h
    · exact fun h => by cases h
  rw [hDigits, List.cons_append] at hNumber
  have hScalar : scalar c (cs ++ rest) = (ofNatural n, rest) := by
    rw [scalar, if_neg (hOther _ rfl), if_neg (hOther _ rfl), if_neg (hOther _ rfl),
      if_neg (hOther _ rfl), hDigit, Bool.or_true, if_pos rfl, hNumber]
  rw [hDigits]
  refine advances_scalar frames ?_ (hOther _ rfl) (hOther _ rfl) hScalar hValue (by simp)
  simp [isSpace, hOther]

theorem advances_str
    (frames : List Frame)
    (value : String)
    (rest : List Char) :
    Advances ⟨frames, .value, Json.quoted value ++ rest⟩ ⟨frames, .after (str value), rest⟩ := by
  have hScalar : scalar '"' (value.toList.flatMap Json.escape ++ '"' :: rest) =
      (str value, rest) := by
    rw [scalar, if_pos rfl, string_quoted]
  have hText : Json.quoted value ++ rest =
      '"' :: (value.toList.flatMap Json.escape ++ '"' :: rest) := by
    simp [Json.quoted]
  rw [hText]
  exact advances_scalar frames rfl (by decide) (by decide) hScalar (fun h => by cases h)
    (by simp; omega)

------------------------------------------------------------
-- Reading brackets
------------------------------------------------------------

theorem advances_noItems
    (frames : List Frame)
    {blanks : List Char}
    (hBlanks : IsBlank blanks)
    (rest : List Char) :
    Advances ⟨frames, .value, '[' :: (blanks ++ ']' :: rest)⟩
      ⟨frames, .after (arr [] true), rest⟩ := by
  apply advances_step rfl _ (by simp; omega)
  rw [step, stepValue, if_pos rfl, skip_blanks hBlanks rfl]
  rfl

theorem advances_noMembers
    (frames : List Frame)
    {blanks : List Char}
    (hBlanks : IsBlank blanks)
    (rest : List Char) :
    Advances ⟨frames, .value, '\x7b' :: (blanks ++ '\x7d' :: rest)⟩
      ⟨frames, .after (obj [] true), rest⟩ := by
  apply advances_step rfl _ (by simp; omega)
  rw [step, stepValue, if_neg (by decide), if_pos rfl, skip_blanks hBlanks rfl]
  rfl

/- An array opens in front of its first item. -/
theorem advances_bracket
    (frames : List Frame)
    {blanks : List Char}
    (hBlanks : IsBlank blanks)
    {c : Char}
    (hSpace : isSpace c = false)
    (hBracket : c ≠ ']')
    (cs : List Char) :
    Advances ⟨frames, .value, '[' :: (blanks ++ c :: cs)⟩
      ⟨.array [] :: frames, .value, c :: cs⟩ := by
  apply advances_step rfl _ (by simp)
  rw [step, stepValue, if_pos rfl, skip_blanks hBlanks hSpace]
  split
  · next hHead => exact absurd (List.cons_eq_cons.mp hHead).1 hBracket
  · rfl

/- An object opens in front of its first name. -/
theorem advances_brace
    (frames : List Frame)
    {blanks : List Char}
    (hBlanks : IsBlank blanks)
    (cs : List Char) :
    Advances ⟨frames, .value, '\x7b' :: (blanks ++ '"' :: cs)⟩
      ⟨frames, .name [], '"' :: cs⟩ := by
  apply advances_step rfl _ (by simp)
  rw [step, stepValue, if_neg (by decide), if_pos rfl, skip_blanks hBlanks rfl]
  rfl

/- A comma behind an item leads to the next one. -/
theorem advances_itemComma
    (frames : List Frame)
    (done : List Reading)
    (value : Reading)
    {before blanks : List Char}
    (hBefore : IsBlank before)
    (hBlanks : IsBlank blanks)
    (cs : List Char) :
    Advances ⟨.array done :: frames, .after value, before ++ ',' :: (blanks ++ cs)⟩
      ⟨.array (value :: done) :: frames, .value, cs⟩ :=
  calc Advances _ ⟨.array done :: frames, .after value, ',' :: (blanks ++ cs)⟩ :=
        advances_blanks _ _ hBefore _
    Advances _ ⟨.array (value :: done) :: frames, .value, blanks ++ cs⟩ :=
        advances_step rfl rfl le_rfl
    Advances _ _ := advances_blanks _ _ hBlanks cs

theorem advances_closeItems
    (frames : List Frame)
    (done : List Reading)
    (value : Reading)
    {blanks : List Char}
    (hBlanks : IsBlank blanks)
    (rest : List Char) :
    Advances ⟨.array done :: frames, .after value, blanks ++ ']' :: rest⟩
      ⟨frames, .after (arr (done.reverse ++ [value]) true), rest⟩ := by
  rw [← List.reverse_cons]
  calc Advances _ ⟨.array done :: frames, .after value, ']' :: rest⟩ :=
        advances_blanks _ _ hBlanks _
    Advances _ _ := advances_step rfl rfl le_rfl

/- A comma behind a member leads to the next name. -/
theorem advances_memberComma
    (frames : List Frame)
    (done : List (Option String × Reading))
    (name : Option String)
    (value : Reading)
    {before blanks : List Char}
    (hBefore : IsBlank before)
    (hBlanks : IsBlank blanks)
    (cs : List Char) :
    Advances ⟨.object done name :: frames, .after value, before ++ ',' :: (blanks ++ cs)⟩
      ⟨frames, .name ((name, value) :: done), cs⟩ :=
  calc Advances _ ⟨.object done name :: frames, .after value, ',' :: (blanks ++ cs)⟩ :=
        advances_blanks _ _ hBefore _
    Advances _ ⟨frames, .name ((name, value) :: done), blanks ++ cs⟩ :=
        advances_step rfl rfl le_rfl
    Advances _ _ := advances_blanks _ _ hBlanks cs

theorem advances_closeMembers
    (frames : List Frame)
    (done : List (Option String × Reading))
    (name : Option String)
    (value : Reading)
    {blanks : List Char}
    (hBlanks : IsBlank blanks)
    (rest : List Char) :
    Advances ⟨.object done name :: frames, .after value, blanks ++ '\x7d' :: rest⟩
      ⟨frames, .after (obj (done.reverse ++ [(name, value)]) true), rest⟩ := by
  rw [← List.reverse_cons]
  calc Advances _ ⟨.object done name :: frames, .after value, '\x7d' :: rest⟩ :=
        advances_blanks _ _ hBlanks _
    Advances _ _ := advances_step rfl rfl le_rfl

/- A name and its colon lead to the value of the name. -/
theorem advances_name
    (frames : List Frame)
    (done : List (Option String × Reading))
    (name : String)
    {before blanks : List Char}
    (hBefore : IsBlank before)
    (hBlanks : IsBlank blanks)
    (cs : List Char) :
    Advances ⟨frames, .name done, Json.quoted name ++ (before ++ ':' :: (blanks ++ cs))⟩
      ⟨.object done (some name) :: frames, .value, cs⟩ := by
  have hText : Json.quoted name ++ (before ++ ':' :: (blanks ++ cs)) =
      '"' :: (name.toList.flatMap Json.escape ++
        '"' :: (before ++ ':' :: (blanks ++ cs))) := by
    simp [Json.quoted]
  have hStep : step frames (.name done)
      ('"' :: (name.toList.flatMap Json.escape ++ '"' :: (before ++ ':' :: (blanks ++ cs)))) =
        .more (.object done (some name) :: frames) .value (blanks ++ cs) := by
    simp only [step, stepName, if_pos, string_quoted, skip_blanks hBefore (c := ':') rfl]
  rw [hText]
  calc Advances _ ⟨.object done (some name) :: frames, .value, blanks ++ cs⟩ :=
        advances_step rfl hStep (by simp; omega)
    Advances _ _ := advances_blanks _ _ hBlanks cs

------------------------------------------------------------
-- Reading values
------------------------------------------------------------

/- A text that spells a value starts with neither a blank nor a closing bracket. -/
theorem head_spells
    {value : Json}
    {text : List Char}
    (hSpells : Json.Spells value text) :
    ∃ c cs, text = c :: cs ∧ isSpace c = false ∧ c ≠ ']' := by
  cases hSpells with
  | null => exact ⟨'n', _, rfl, rfl, by decide⟩
  | true => exact ⟨'t', _, rfl, rfl, by decide⟩
  | false => exact ⟨'f', _, rfl, rfl, by decide⟩
  | nat n =>
      rcases exists_digit_toDigits n with ⟨c, cs, hDigits, _, hOther⟩
      refine ⟨c, cs, hDigits, ?_, hOther _ rfl⟩
      simp [isSpace, hOther]
  | str value => exact ⟨'"', _, rfl, rfl, by decide⟩
  | noItems hBlanks => exact ⟨'[', _, rfl, rfl, by decide⟩
  | items hBlanks hItem hItems => exact ⟨'[', _, rfl, rfl, by decide⟩
  | noMembers hBlanks => exact ⟨'\x7b', _, rfl, rfl, by decide⟩
  | members hBlanks hMember hMembers => exact ⟨'\x7b', _, rfl, rfl, by decide⟩

theorem head_spellsMember
    {member : String × Json}
    {text : List Char}
    (hSpells : Json.SpellsMember member text) :
    ∃ cs, text = '"' :: cs := by
  cases hSpells with
  | mk hBefore hBlanks hValue => exact ⟨_, rfl⟩

/- No number goes on into the items behind it. -/
theorem stopsAt_items
    {items : List Json}
    {tail : List Char}
    (hItems : Json.SpellsItems items tail)
    (rest : List Char) :
    StopsAt isNumeric (tail ++ rest) := by
  cases hItems with
  | close hBlanks =>
      rw [List.append_assoc]
      exact stopsAt_blanks hBlanks rfl rest
  | next hBefore hBlanks hItem hItems =>
      rw [List.append_assoc]
      exact stopsAt_blanks hBefore rfl _

theorem stopsAt_members
    {members : List (String × Json)}
    {tail : List Char}
    (hMembers : Json.SpellsMembers members tail)
    (rest : List Char) :
    StopsAt isNumeric (tail ++ rest) := by
  cases hMembers with
  | close hBlanks =>
      rw [List.append_assoc]
      exact stopsAt_blanks hBlanks rfl rest
  | next hBefore hBlanks hMember hMembers =>
      rw [List.append_assoc]
      exact stopsAt_blanks hBefore rfl _

mutual

/- What spells a value is read as the tree of that value. -/
theorem advances_value
    (frames : List Frame)
    {value : Json}
    {text rest : List Char}
    (hSpells : Json.Spells value text)
    (hStops : StopsAt isNumeric rest) :
    Advances ⟨frames, .value, text ++ rest⟩ ⟨frames, .after (ofJson value), rest⟩ := by
  cases hSpells with
  | null =>
      exact advances_word frames "ull".toList rfl (by decide) (by decide)
        (fun _ => rfl) (fun h => by cases h) rest
  | true =>
      exact advances_word frames "rue".toList rfl (by decide) (by decide)
        (fun _ => rfl) (fun h => by cases h) rest
  | false =>
      exact advances_word frames "alse".toList rfl (by decide) (by decide)
        (fun _ => rfl) (fun h => by cases h) rest
  | nat n => exact advances_nat frames n hStops
  | str value => exact advances_str frames value rest
  | noItems hBlanks =>
      rw [List.cons_append, List.append_assoc]
      exact advances_noItems frames hBlanks rest
  | @items item items blanks text tail hBlanks hItem hItems =>
      -- The first item does not look like the end of the array, so a frame is opened for it.
      rcases head_spells hItem with ⟨c, cs, rfl, hSpace, hBracket⟩
      rw [List.cons_append, List.append_assoc, List.append_assoc]
      calc Advances _ ⟨.array [] :: frames, .value, c :: cs ++ (tail ++ rest)⟩ :=
            advances_bracket frames hBlanks hSpace hBracket _
        Advances _ ⟨.array [] :: frames, .after (ofJson item), tail ++ rest⟩ :=
            advances_value _ hItem (stopsAt_items hItems rest)
        Advances _ _ := advances_items frames [] (ofJson item) hItems rest
  | noMembers hBlanks =>
      rw [List.cons_append, List.append_assoc]
      exact advances_noMembers frames hBlanks rest
  | @members member members blanks text tail hBlanks hMember hMembers =>
      rcases head_spellsMember hMember with ⟨cs, rfl⟩
      rw [List.cons_append, List.append_assoc, List.append_assoc]
      calc Advances _ ⟨frames, .name [], '"' :: cs ++ (tail ++ rest)⟩ :=
            advances_brace frames hBlanks _
        Advances _ ⟨.object [] (some member.1) :: frames, .after (ofJson member.2),
            tail ++ rest⟩ :=
            advances_member frames [] hMember (stopsAt_members hMembers rest)
        Advances _ _ := advances_members frames [] (some member.1) (ofJson member.2) hMembers rest

/- What spells the items behind a value completes the array. -/
theorem advances_items
    (frames : List Frame)
    (done : List Reading)
    (value : Reading)
    {items : List Json}
    {tail : List Char}
    (hItems : Json.SpellsItems items tail)
    (rest : List Char) :
    Advances ⟨.array done :: frames, .after value, tail ++ rest⟩
      ⟨frames, .after (arr (done.reverse ++ value :: ofItems items) true), rest⟩ := by
  cases hItems with
  | close hBlanks =>
      rw [List.append_assoc]
      exact advances_closeItems frames done value hBlanks rest
  | @next item items before blanks text tail hBefore hBlanks hItem hItems =>
      have hTail := advances_items frames (value :: done) (ofJson item) hItems rest
      rw [List.reverse_cons, List.append_assoc] at hTail
      rw [List.append_assoc, List.cons_append, List.append_assoc, List.append_assoc]
      calc Advances _ ⟨.array (value :: done) :: frames, .value, text ++ (tail ++ rest)⟩ :=
            advances_itemComma frames done value hBefore hBlanks _
        Advances _ ⟨.array (value :: done) :: frames, .after (ofJson item), tail ++ rest⟩ :=
            advances_value _ hItem (stopsAt_items hItems rest)
        Advances _ _ := hTail

/- What spells a name and a value is read as that name and the tree of the value. -/
theorem advances_member
    (frames : List Frame)
    (done : List (Option String × Reading))
    {member : String × Json}
    {text rest : List Char}
    (hMember : Json.SpellsMember member text)
    (hStops : StopsAt isNumeric rest) :
    Advances ⟨frames, .name done, text ++ rest⟩
      ⟨.object done (some member.1) :: frames, .after (ofJson member.2), rest⟩ := by
  cases hMember with
  | @mk name value before blanks text hBefore hBlanks hValue =>
      rw [List.append_assoc, List.append_assoc, List.cons_append, List.append_assoc]
      calc Advances _ ⟨.object done (some name) :: frames, .value, text ++ rest⟩ :=
            advances_name frames done name hBefore hBlanks _
        Advances _ _ := advances_value _ hValue hStops

/- What spells the members behind a value completes the object. -/
theorem advances_members
    (frames : List Frame)
    (done : List (Option String × Reading))
    (name : Option String)
    (value : Reading)
    {members : List (String × Json)}
    {tail : List Char}
    (hMembers : Json.SpellsMembers members tail)
    (rest : List Char) :
    Advances ⟨.object done name :: frames, .after value, tail ++ rest⟩
      ⟨frames, .after (obj (done.reverse ++ (name, value) :: ofMembers members) true), rest⟩ := by
  cases hMembers with
  | close hBlanks =>
      rw [List.append_assoc]
      exact advances_closeMembers frames done name value hBlanks rest
  | @next member members before blanks text tail hBefore hBlanks hMember hMembers =>
      have hTail := advances_members frames ((name, value) :: done) (some member.1)
        (ofJson member.2) hMembers rest
      rw [List.reverse_cons, List.append_assoc] at hTail
      rw [List.append_assoc, List.cons_append, List.append_assoc, List.append_assoc]
      calc Advances _ ⟨frames, .name ((name, value) :: done), text ++ (tail ++ rest)⟩ :=
            advances_memberComma frames done name value hBefore hBlanks _
        Advances _ ⟨.object ((name, value) :: done) (some member.1) :: frames,
            .after (ofJson member.2), tail ++ rest⟩ :=
            advances_member frames _ hMember (stopsAt_members hMembers rest)
        Advances _ _ := hTail

end

/- A text that spells a value, with blanks behind it, is read as the tree of that value. -/
theorem parse?_of_spells
    {value : Json}
    {text blanks : List Char}
    (hSpells : Json.Spells value text)
    (hBlanks : IsBlank blanks) :
    parse? (String.ofList (text ++ blanks)) = some (ofJson value) := by
  have hStops : StopsAt isNumeric blanks := by
    intro c hHead
    exact isNumeric_of_isSpace (hBlanks c (List.mem_of_head? hHead))
  have hEnd : Advances ⟨[], .value, text ++ blanks⟩ ⟨[], .after (ofJson value), []⟩ :=
    calc Advances _ ⟨[], .after (ofJson value), blanks ++ []⟩ := by
          rw [List.append_nil]
          exact advances_value [] hSpells hStops
      Advances _ _ := advances_blanks _ _ hBlanks []
  rw [parse?, String.toList_ofList, first_of_advances hEnd]

end Reading

end JqLens
