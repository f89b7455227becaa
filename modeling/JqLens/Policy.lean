import JqLens.Text.Blank
import JqLens.Text.WordChar

/-
  This file decides whether a filter may be evaluated at all.
  Empty and over-long filters are refused, and so are filters
  with a construct that could reveal the host: the environment,
  the error stream, or further inputs.

  Key definitions include:
    * `DenyList.matchAt`
    * `blockedConstruct`
    * `Refusal`
    * `Refusal.message`
    * `checkFilter`
-/

namespace JqLens

------------------------------------------------------------
-- The deny list
------------------------------------------------------------

namespace DenyList

/- The words that are refused, in the order in which they are tried. -/
def words : List (List Char) :=
  ["env", "debug", "stderr", "input", "inputs", "input_filename"].map String.toList

/- The variable that holds the environment. -/
def environment : List Char :=
  "$ENV".toList

/- The word that is refused together with the environment behind it. -/
def pathWord : List Char :=
  "path".toList

/- A character, or an end of the text, belongs to a word. -/
def inWord : Option Char → Bool
  | some c => Text.isWord c
  | none => false

/- The text behind what it starts with. -/
def dropPrefix? (start cs : List Char) : Option (List Char) :=
  if start.isPrefixOf cs then some (cs.drop start.length) else none

/-
  A word boundary lies between two characters: exactly one of
  them belongs to a word.
-/
def boundary (before after : Option Char) : Bool :=
  inWord before != inWord after

/-
  The given word, if the text starts with it and a boundary
  follows.
-/
def wordAt (word cs : List Char) : Option (List Char) :=
  match dropPrefix? word cs with
  | some rest => if boundary word.getLast? rest.head? then some word else none
  | none => none

/-
  The longest part of the first line of a text that ends with
  the environment variable and a boundary behind it.
-/
def throughEnvironment : List Char → Option (List Char)
  | [] => none
  | c :: cs =>
      if c = '\n' then none
      else
        match throughEnvironment cs with
        | some found => some (c :: found)
        | none => wordAt environment (c :: cs)

/-
  The word for paths, an opening parenthesis after blanks, and
  all up to the last environment variable of that line.
-/
def pathCallAt (cs : List Char) : Option (List Char) :=
  match dropPrefix? pathWord cs with
  | none => none
  | some rest =>
      match rest.dropWhile Text.isBlank with
      | '(' :: inner =>
          (throughEnvironment inner).map fun found =>
            pathWord ++ rest.takeWhile Text.isBlank ++ '(' :: found
      | _ => none

/-
  The construct that starts a text whose preceding character is
  `before`. Words and path calls need a boundary in front, the
  environment variable alone does not.
-/
def matchAt
    (before : Option Char)
    (cs : List Char) : Option (List Char) :=
  let bounded :=
    if boundary before cs.head? then
      (words.findSome? fun word => wordAt word cs).or (pathCallAt cs)
    else none
  bounded.or ((dropPrefix? environment cs).map fun _ => environment)

/- The first construct in a text whose preceding character is `before`. -/
def search (before : Option Char) : List Char → Option (List Char)
  | [] => none
  | c :: cs =>
      match matchAt before (c :: cs) with
      | some found => some found
      | none => search (some c) cs

end DenyList

/- The first refused construct of a filter. -/
def blockedConstruct (filter : String) : Option String :=
  (DenyList.search none filter.toList).map String.ofList

------------------------------------------------------------
-- Admission
------------------------------------------------------------

/- Why a filter is refused. -/
inductive Refusal where
  | emptyFilter
  /- The filter has more characters than the given maximum. -/
  | filterTooLong (max : Nat)
  /- The filter holds the given construct. -/
  | blocked (construct : String)
  deriving DecidableEq, Repr

namespace Refusal

/- The text shown for a refusal. -/
def message : Refusal → String
  | emptyFilter => "No filter provided"
  | filterTooLong max => "Filter too long (max " ++ toString max ++ " chars)"
  | blocked _ => "Blocked: env/debug/input builtins are disabled for security"

end Refusal

/- The maximum length of a filter in characters, unless another is set. -/
def defaultMaxFilterLength : Nat :=
  2000

/- Refuse an empty filter, one that is too long, and one on the deny list. -/
def checkFilter (filter : String) (max : Nat) : Except Refusal Unit :=
  if filter.isEmpty then .error .emptyFilter
  else if max < filter.length then .error (.filterTooLong max)
  else
    match blockedConstruct filter with
    | some construct => .error (.blocked construct)
    | none => .ok ()

end JqLens
