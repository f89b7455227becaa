/-
  This file reads the type of the content of a message and
  decides whether it is JSON.

  Key definitions include:
    * `MediaType`
    * `MediaType.ofText?`
    * `MediaType.isJson`
-/

namespace JqLens

/- A type of content, in lower case. -/
structure MediaType where
  /- The general type. -/
  type : List Char
  /- The special type, without its suffix. -/
  subtype : List Char
  /- What stands behind the last plus sign. -/
  suffix : Option (List Char)
  deriving DecidableEq, Repr

namespace MediaType

/- A character of a name. -/
def isToken (c : Char) : Bool :=
  c.isAlphanum || "!#$%&'*+-.^_\x60|~".toList.contains c

/- A character that may stand between quotes. -/
def isQuotable (c : Char) : Bool :=
  0x20 ≤ c.toNat && c.toNat < 0x7F

/-
  The text behind a value in quotes and behind its opening
  quote. The value is not empty: a quote closes it unless it
  stands at its start.
-/
def afterQuoted? (cs : List Char) : Option (List Char) :=
  match cs with
  | [] => none
  | first :: cs =>
      match cs.dropWhile fun c => isQuotable c && c != '"' with
      | '"' :: rest => if isQuotable first then some rest else none
      | _ => none

/- The text behind the value of a parameter. -/
def afterValue? (cs : List Char) : Option (List Char) :=
  match cs with
  | '"' :: cs =>
      match (afterQuoted? cs).map fun rest => rest.dropWhile (· = ' ') with
      | some [] => some []
      | some (';' :: rest) => some rest
      | _ => none
  | cs =>
      match cs.dropWhile isToken with
      | [] => some []
      | ';' :: rest => if (cs.takeWhile isToken).isEmpty then none else some rest
      | _ => none

/-
  The text holds parameters only, separated by semicolons; each
  takes a step of the `fuel`.
-/
def areParameters : Nat → List Char → Bool
  | 0, _ => false
  | fuel + 1, cs =>
      match cs.dropWhile (· = ' ') with
      | [] => true
      | cs =>
          match cs.dropWhile isToken with
          | '=' :: rest =>
              if (cs.takeWhile isToken).isEmpty then false
              else
                match afterValue? rest with
                | some rest => areParameters fuel rest
                | none => false
          | _ => false

/- Cut a special type before its last plus sign, unless it starts there. -/
def splitSuffix (cs : List Char) : List Char × Option (List Char) :=
  let suffix := cs.reverse.takeWhile (· != '+')
  let subtype := (cs.reverse.drop (suffix.length + 1)).reverse
  if suffix.length = cs.length || subtype.isEmpty then (cs, none)
  else (subtype, some suffix.reverse)

/- The type of content that a text spells. -/
def ofText? (text : String) : Option MediaType :=
  let cs := text.toList.map Char.toLower
  let type := cs.takeWhile isToken
  match cs.dropWhile isToken with
  | '/' :: cs =>
      let name := cs.takeWhile isToken
      let rest := cs.dropWhile isToken
      let sound :=
        match rest with
        | [] => true
        | c :: rest => c = ';' && areParameters (rest.length + 1) rest
      if type.isEmpty || (name.isEmpty && !rest.isEmpty) || !sound then none
      else
        let (subtype, suffix) := splitSuffix name
        some { type, subtype, suffix }
  | _ => none

/- The content is JSON, or of a type that is built on it. -/
def isJson (media : MediaType) : Bool :=
  media.type = "application".toList &&
    (media.subtype = "json".toList || media.suffix = some "json".toList)

end MediaType

end JqLens
