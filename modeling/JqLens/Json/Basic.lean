/-
  This file defines the JSON values that are written and their
  two layouts: the compact one without blanks and the indented
  one with two blanks a level.

  Key definitions include:
    * `Json`
    * `Json.escape`
    * `Json.quoted`
    * `Json.compact`
    * `Json.indented`
-/

namespace JqLens

------------------------------------------------------------
-- Values
------------------------------------------------------------

/- A JSON value. Members of an object keep their order. -/
inductive Json where
  | null
  | bool (value : Bool)
  | nat (value : Nat)
  | str (value : String)
  | arr (items : List Json)
  | obj (members : List (String × Json))
  deriving Inhabited

namespace Json

/- The text of an optional value, or null. -/
def ofOption (text : Option String) : Json :=
  match text with
  | some text => str text
  | none => null

------------------------------------------------------------
-- Strings
------------------------------------------------------------

/- A hexadecimal digit in lower case. -/
def hexDigit (n : Nat) : Char :=
  Nat.digitChar (n % 16)

/-
  A character inside a string. Only quotes, backslashes and
  control characters are escaped.
-/
def escape (c : Char) : List Char :=
  if c = '"' then ['\\', '"']
  else if c = '\\' then ['\\', '\\']
  else if c.toNat = 0x8 then ['\\', 'b']
  else if c.toNat = 0x9 then ['\\', 't']
  else if c.toNat = 0xA then ['\\', 'n']
  else if c.toNat = 0xC then ['\\', 'f']
  else if c.toNat = 0xD then ['\\', 'r']
  else if c.toNat < 0x20 then
    ['\\', 'u', '0', '0', hexDigit (c.toNat / 16), hexDigit c.toNat]
  else [c]

/- A string between quotes. -/
def quoted (text : String) : List Char :=
  '"' :: (text.toList.flatMap escape ++ ['"'])

------------------------------------------------------------
-- The compact layout
------------------------------------------------------------

mutual

/- The characters of a value without any blanks. -/
def compactChars : Json → List Char
  | null => "null".toList
  | bool true => "true".toList
  | bool false => "false".toList
  | nat value => Nat.toDigits 10 value
  | str value => quoted value
  | arr [] => "[]".toList
  | arr (item :: items) => '[' :: (compactChars item ++ compactItems items)
  | obj [] => "\x7b\x7d".toList
  | obj (member :: members) => '\x7b' :: (compactMember member ++ compactMembers members)

/- The items behind the first one, and the closing bracket. -/
def compactItems : List Json → List Char
  | [] => [']']
  | item :: items => ',' :: (compactChars item ++ compactItems items)

/- A name and its value. -/
def compactMember : String × Json → List Char
  | (name, value) => quoted name ++ ':' :: compactChars value

/- The members behind the first one, and the closing brace. -/
def compactMembers : List (String × Json) → List Char
  | [] => ['\x7d']
  | member :: members => ',' :: (compactMember member ++ compactMembers members)

end

/- A value without any blanks. -/
def compact (value : Json) : String :=
  String.ofList (compactChars value)

------------------------------------------------------------
-- The indented layout
------------------------------------------------------------

/- The start of a line at a level of nesting. -/
def newline (level : Nat) : List Char :=
  '\n' :: List.replicate (2 * level) ' '

mutual

/- The characters of a value whose lines are indented from a level on. -/
def indentedChars (level : Nat) : Json → List Char
  | null => "null".toList
  | bool true => "true".toList
  | bool false => "false".toList
  | nat value => Nat.toDigits 10 value
  | str value => quoted value
  | arr [] => "[]".toList
  | arr (item :: items) =>
      '[' :: (newline (level + 1) ++ indentedChars (level + 1) item ++
        indentedItems level items)
  | obj [] => "\x7b\x7d".toList
  | obj (member :: members) =>
      '\x7b' :: (newline (level + 1) ++ indentedMember (level + 1) member ++
        indentedMembers level members)

/- The items behind the first one, and the closing bracket on its level. -/
def indentedItems (level : Nat) : List Json → List Char
  | [] => newline level ++ [']']
  | item :: items =>
      ',' :: (newline (level + 1) ++ indentedChars (level + 1) item ++
        indentedItems level items)

/- A name and its value. -/
def indentedMember (level : Nat) : String × Json → List Char
  | (name, value) => quoted name ++ ':' :: ' ' :: indentedChars level value

/- The members behind the first one, and the closing brace on its level. -/
def indentedMembers (level : Nat) : List (String × Json) → List Char
  | [] => newline level ++ ['\x7d']
  | member :: members =>
      ',' :: (newline (level + 1) ++ indentedMember (level + 1) member ++
        indentedMembers level members)

end

/- A value with two blanks a level; empty brackets stay closed. -/
def indented (value : Json) : String :=
  String.ofList (indentedChars 0 value)

end Json

end JqLens
