import JqLens.Text.Double
import JqLens.Text.Reader

/-
  This file reads the configuration language TOML. A document
  is a table; whatever breaks a rule of the language makes the
  whole document unreadable.

  Key definitions include:
    * `Toml`
    * `Toml.isReadable`
    * `Toml.Table.insert`
    * `Toml.value?`
    * `Toml.parse?`
-/

namespace JqLens

------------------------------------------------------------
-- Values
------------------------------------------------------------

/- How a table has come about, which decides how it may grow. -/
inductive Toml.Origin where
  /- By a header of its own, or as one of an array of tables. -/
  | header
  /- By a header of a table inside it. -/
  | implied
  /- By a key with dots. -/
  | dotted
  /- Between braces; it never grows. -/
  | inline
  deriving DecidableEq, Repr

/- A value. Dates and times, and numbers with fractions, have no value here. -/
inductive Toml where
  | string (value : String)
  | integer (value : Int)
  | float
  /-
    A word that is built like a number but spells none, or one
    too large to be held. It is refused by whoever looks at it.
  -/
  | unreadable
  | bool (value : Bool)
  | moment
  | array (items : List Toml)
  | table (origin : Toml.Origin) (members : List (String × Toml))
  /- The tables of an array of tables, the last one first. -/
  | tables (tables : List (List (String × Toml)))

namespace Toml

/- The members of a table in order. -/
abbrev Table := List (String × Toml)

mutual

/- A value can be passed over: nothing in it is unreadable. -/
def isReadable : Toml → Bool
  | unreadable => false
  | array items => areReadable items
  | table _ members => haveReadable members
  | tables elements => areReadableTables elements
  | _ => true

/- Values can be passed over. -/
def areReadable : List Toml → Bool
  | [] => true
  | item :: items => isReadable item && areReadable items

/- Members have values that can be passed over. -/
def haveReadable : List (String × Toml) → Bool
  | [] => true
  | (_, value) :: members => isReadable value && haveReadable members

/- Tables have values that can be passed over. -/
def areReadableTables : List (List (String × Toml)) → Bool
  | [] => true
  | members :: rest => haveReadable members && areReadableTables rest

end

------------------------------------------------------------
-- Tables that grow
------------------------------------------------------------

namespace Table

/- Put a value in the place of a member, or behind all members. -/
def put (name : String) (value : Toml) : Table → Table
  | [] => [(name, value)]
  | (other, old) :: members =>
      if other = name then (name, value) :: members
      else (other, old) :: put name value members

/-
  Put a value under a key whose first parts lead through
  tables; no member may be there already. The table that takes
  the value must have come about by a key with dots. On the way
  to it a table may also be implied by a header, or be the last
  one of an array of tables.
-/
def insert (table : Table) (path : List String) (last : String) (value : Toml) :
    Option Table :=
  match path with
  | [] => if (table.lookup last).isSome then none else some (table.put last value)
  | name :: path =>
      match table.lookup name with
      | none => do
          return table.put name (.table .dotted (← insert [] path last value))
      | some (.table .dotted inner) => do
          return table.put name (.table .dotted (← insert inner path last value))
      | some (.table .implied inner) =>
          if path.isEmpty then none
          else do
            return table.put name (.table .implied (← insert inner path last value))
      | some (.tables (inner :: earlier)) =>
          if path.isEmpty then none
          else do
            return table.put name (.tables ((← insert inner path last value) :: earlier))
      | some _ => none

/-
  Change the table that the parts of a header lead to. Tables
  on the way are made where they are missing; of an array of
  tables the last one is taken.
-/
def modify
    (change : Table → Option Table)
    (table : Table) : List String → Option Table
  | [] => change table
  | name :: path =>
      match table.lookup name with
      | none => do
          return table.put name (.table .implied (← modify change [] path))
      | some (.table .inline _) => none
      | some (.table origin inner) => do
          return table.put name (.table origin (← modify change inner path))
      | some (.tables (inner :: earlier)) => do
          return table.put name (.tables ((← modify change inner path) :: earlier))
      | some _ => none

/- Open a table under its own header, which it may have only once. -/
def openTable (name : String) (table : Table) : Option Table :=
  match table.lookup name with
  | none => some (table.put name (.table .header []))
  | some (.table .implied inner) => some (table.put name (.table .header inner))
  | some _ => none

/- Open a further table of an array of tables. -/
def openElement (name : String) (table : Table) : Option Table :=
  match table.lookup name with
  | none => some (table.put name (.tables [[]]))
  | some (.tables earlier) => some (table.put name (.tables ([] :: earlier)))
  | some _ => none

end Table

------------------------------------------------------------
-- Blanks, comments and ends of lines
------------------------------------------------------------

/- A blank inside a line. -/
def isBlank (c : Char) : Bool :=
  c = ' ' || c = '\t'

/- The text behind blanks. -/
def skipBlanks (cs : List Char) : List Char :=
  cs.dropWhile isBlank

/- A control character, which only escapes may spell; a tab is none. -/
def isControl (c : Char) : Bool :=
  (c.toNat < 0x20 && c != '\t') || c.toNat = 0x7F

/- The text behind the end of a line. -/
def newline? : List Char → Option (List Char)
  | '\n' :: cs => some cs
  | '\r' :: '\n' :: cs => some cs
  | _ => none

/- The text behind a comment that comes next; its line is not ended. -/
def skipComment : List Char → List Char
  | '#' :: cs => cs.dropWhile fun c => !isControl c
  | cs => cs

/-
  The text behind the rest of a line, in which only blanks and a
  comment may stand.
-/
def lineEnd? (cs : List Char) : Option (List Char) :=
  match skipComment (skipBlanks cs) with
  | [] => some []
  | cs => newline? cs

/-
  The text behind blanks, comments and ends of lines, found in
  at most `fuel` steps.
-/
def skipLines : Nat → List Char → List Char
  | 0, cs => cs
  | fuel + 1, cs =>
      let cs := skipComment (skipBlanks cs)
      match newline? cs with
      | some cs => skipLines fuel cs
      | none => cs

------------------------------------------------------------
-- Strings
------------------------------------------------------------

/- The character whose code is spelled by so many hexadecimal digits. -/
def codeChar? (length : Nat) (cs : List Char) : Option (Char × List Char) := do
  let digits := cs.take length
  if digits.length < length then none
  else
    let code ← Text.value? 16 digits
    if code.isValidChar then some (Char.ofNat code, cs.drop length) else none

/- The character that the text behind a backslash spells. -/
def escape? : List Char → Option (Char × List Char)
  | 'b' :: cs => some ('\x08', cs)
  | 't' :: cs => some ('\t', cs)
  | 'n' :: cs => some ('\n', cs)
  | 'f' :: cs => some ('\x0c', cs)
  | 'r' :: cs => some ('\r', cs)
  | 'e' :: cs => some ('\x1b', cs)
  | '"' :: cs => some ('"', cs)
  | '\\' :: cs => some ('\\', cs)
  | 'x' :: cs => codeChar? 2 cs
  | 'u' :: cs => codeChar? 4 cs
  | 'U' :: cs => codeChar? 8 cs
  | _ => none

/-
  The string behind an opening double quote, on one line. Every
  character takes a step of the `fuel`.
-/
def basic? : Nat → List Char → Option (List Char × List Char)
  | 0, _ => none
  | _, [] => none
  | fuel + 1, c :: cs =>
      if c = '"' then some ([], cs)
      else if c = '\\' then do
        let (c, cs) ← escape? cs
        let (body, rest) ← basic? fuel cs
        return (c :: body, rest)
      else if isControl c then none
      else do
        let (body, rest) ← basic? fuel cs
        return (c :: body, rest)

/- The string behind an opening single quote, on one line. -/
def literal? : List Char → Option (List Char × List Char)
  | [] => none
  | c :: cs =>
      if c = '\'' then some ([], cs)
      else if isControl c then none
      else do
        let (body, rest) ← literal? cs
        return (c :: body, rest)

/- The text behind an end of a line that comes first. -/
def dropNewline (cs : List Char) : List Char :=
  (newline? cs).getD cs

/-
  The quotes in front of a text, of which the last three close a
  string of several lines; up to two more belong to the string.
-/
def closing? (quote : Char) (cs : List Char) : Option (List Char × List Char) :=
  let count := (cs.takeWhile (· = quote)).length
  if count < 3 then none
  else
    let extra := min (count - 3) 2
    some (List.replicate extra quote, cs.drop (extra + 3))

/- The text behind blanks and ends of lines, found in at most `fuel` steps. -/
def skipEmptyLines : Nat → List Char → List Char
  | 0, cs => cs
  | fuel + 1, cs =>
      match newline? (skipBlanks cs) with
      | some cs => skipEmptyLines fuel cs
      | none => skipBlanks cs

/- The text behind a backslash that ends a line: blanks and lines are skipped. -/
def continued? (cs : List Char) : Option (List Char) :=
  (newline? (skipBlanks cs)).map fun cs => skipEmptyLines (cs.length + 1) cs

/-
  The string of several lines behind its opening quotes. A
  backslash has a meaning only between double quotes.
-/
def multiline? (quote : Char) : Nat → List Char → Option (List Char × List Char)
  | 0, _ => none
  | _, [] => none
  | fuel + 1, c :: cs =>
      match closing? quote (c :: cs) with
      | some result => some result
      | none =>
          if c = '\\' && quote = '"' then
            match continued? cs with
            | some cs => multiline? quote fuel cs
            | none => do
                let (c, cs) ← escape? cs
                let (body, rest) ← multiline? quote fuel cs
                return (c :: body, rest)
          else
            match newline? (c :: cs) with
            | some rest => do
                let (body, after) ← multiline? quote fuel rest
                return ((c :: cs).take ((c :: cs).length - rest.length) ++ body, after)
            | none =>
                if isControl c then none
                else do
                  let (body, rest) ← multiline? quote fuel cs
                  return (c :: body, rest)

/- The string at the start of a text. -/
def string? (cs : List Char) : Option (List Char × List Char) :=
  match cs with
  | '"' :: '"' :: '"' :: cs => multiline? '"' (cs.length + 1) (dropNewline cs)
  | '\'' :: '\'' :: '\'' :: cs => multiline? '\'' (cs.length + 1) (dropNewline cs)
  | '"' :: cs => basic? (cs.length + 1) cs
  | '\'' :: cs => literal? cs
  | _ => none

------------------------------------------------------------
-- Keys
------------------------------------------------------------

/- A character of a key without quotes. -/
def isKeyChar (c : Char) : Bool :=
  c.isAlphanum || c = '_' || c = '-'

/- One part of a key. -/
def keyPart? (cs : List Char) : Option (String × List Char) :=
  match cs with
  | '"' :: cs => (basic? (cs.length + 1) cs).map fun (name, rest) => (String.ofList name, rest)
  | '\'' :: cs => (literal? cs).map fun (name, rest) => (String.ofList name, rest)
  | _ =>
      let name := cs.takeWhile isKeyChar
      if name.isEmpty then none
      else some (String.ofList name, cs.dropWhile isKeyChar)

/-
  How many arrays and tables between braces may stand inside
  each other, and how many parts may lead to the last one of a
  key.
-/
def maxDepth : Nat := 80

/-
  The parts of a key, the last one apart, with the text behind
  the key and behind blanks. Every part takes a step of the
  `fuel`.
-/
def keyParts? : Nat → List Char → Option ((List String × String) × List Char)
  | 0, _ => none
  | fuel + 1, cs => do
      let (name, cs) ← keyPart? (skipBlanks cs)
      match skipBlanks cs with
      | '.' :: cs =>
          let ((path, last), rest) ← keyParts? fuel cs
          return ((name :: path, last), rest)
      | cs => return (([], name), cs)

/-
  A key: its leading parts and its last part, with the text
  behind it and behind blanks.
-/
def key? (cs : List Char) : Option ((List String × String) × List Char) := do
  let ((path, last), rest) ← keyParts? (cs.length + 1) cs
  if path.length ≤ maxDepth then some ((path, last), rest) else none

------------------------------------------------------------
-- Numbers, dates and times
------------------------------------------------------------

/- A digit of the greatest base. -/
def isHexDigit (c : Char) : Bool :=
  (Text.digit? 16 c).isSome

/-
  Every underscore in a number stands between two digits. The
  first character may be a sign in the place of a digit.
-/
def keepsApart (isDigit : Char → Bool) (cs : List Char) : Bool :=
  cs.head? != some '_' && cs.getLast? != some '_' &&
    ((cs.zip cs.tail).all fun (before, after) => before != '_' || isDigit after) &&
    ((cs.tail.zip cs.tail.tail).all fun (before, after) => after != '_' || isDigit before)

/- A number without its underscores. -/
def joined (cs : List Char) : List Char :=
  cs.filter (· != '_')

/-
  A word without its sign is built like a decimal whole number:
  digits without a leading zero. Behind an underscore only the
  marks of other numbers are left out.
-/
def isWhole (cs : List Char) : Bool :=
  let rest := cs.dropWhile Char.isDigit
  cs = ['0'] ||
    (!cs.isEmpty && cs.head? != some '0' &&
      (rest.isEmpty ||
        (rest.head? = some '_' && !rest.any fun c => ['.', 'e', 'E', ' '].contains c)))

/- The digits of a whole number in a base, which may be none. -/
def based? (base : Nat) (cs : List Char) : Option (Nat × List Char) :=
  let isDigit (c : Char) : Bool := c = '_' || (Text.digit? base c).isSome
  if cs.all isDigit && keepsApart isHexDigit cs then some (base, joined cs) else none

/-
  The base and the characters of a word that is built like a
  whole number. Only a decimal number has a sign.
-/
def whole? (word : List Char) : Option (Nat × List Char) :=
  match word with
  | '0' :: 'x' :: cs => based? 16 cs
  | '0' :: 'o' :: cs => based? 8 cs
  | '0' :: 'b' :: cs => based? 2 cs
  | _ =>
      if isWhole (Text.sign word).2 && keepsApart isHexDigit word then
        some (10, joined word)
      else none

/- Whole numbers have at most 128 bits. -/
def inRange (value : Int) : Bool :=
  -Int.pow 2 127 ≤ value && value < Int.pow 2 128

/- The whole number that characters spell in a base. -/
def integer? (base : Nat) (cs : List Char) : Option Int := do
  let (negative, digits) := Text.sign cs
  let size ← Text.value? base digits
  let value : Int := if negative then -size else size
  if !digits.isEmpty && inRange value then some value else none

/-
  The digits and the power of ten of a number without a sign
  and underscores that has a fraction, an exponent, or both.
-/
def decimal? (cs : List Char) : Option (List Char × Int) :=
  let isMark (c : Char) : Bool := c = 'e' || c = 'E'
  let mantissa := cs.takeWhile fun c => !isMark c
  let exponent := cs.dropWhile fun c => !isMark c
  let whole := mantissa.takeWhile (· != '.')
  let fraction := mantissa.dropWhile (· != '.')
  let (negative, power) := Text.sign exponent.tail
  let areDigits (cs : List Char) : Bool := !cs.isEmpty && cs.all Char.isDigit
  if areDigits whole && (fraction.isEmpty || areDigits fraction.tail) &&
      (exponent.isEmpty || areDigits power) && !(fraction.isEmpty && exponent.isEmpty) then
    let size : Int := Text.digitsValue power
    some (whole ++ fraction.tail,
      (if negative then -size else size) - fraction.tail.length)
  else none

/- The whole part of a number has no leading zero. -/
def hasLeadingZero (cs : List Char) : Bool :=
  cs.head? = some '0' &&
    1 < (joined (cs.takeWhile fun c => c = '_' || c.isDigit)).length

/-
  The value of a word that is built like a number with a
  fraction or an exponent, or spells none at all.
-/
def float? (word : List Char) : Option Toml :=
  let cs := (Text.sign word).2
  if cs = "inf".toList || cs = "nan".toList then some float
  else if hasLeadingZero cs || !keepsApart Char.isDigit word then none
  else
    (decimal? (joined cs)).map fun (digits, power) =>
      if Text.exceedsDouble digits power then unreadable else float

/- A number of exactly so many digits, between two bounds. -/
def fixed? (length low high : Nat) (cs : List Char) : Option (Nat × List Char) :=
  let digits := cs.take length
  let value := Text.digitsValue digits
  if digits.length = length && digits.all Char.isDigit && low ≤ value && value ≤ high then
    some (value, cs.drop length)
  else none

/- The number of days of a month. -/
def daysOf (year month : Nat) : Nat :=
  if month = 2 then
    if year % 4 = 0 && (year % 100 != 0 || year % 400 = 0) then 29 else 28
  else if [4, 6, 9, 11].contains month then 30
  else 31

/- The text behind a date. -/
def date? (cs : List Char) : Option (List Char) := do
  let (year, cs) ← fixed? 4 0 9999 cs
  let (month, cs) ← fixed? 2 1 12 (← Text.after? '-' cs)
  let (_, cs) ← fixed? 2 1 (daysOf year month) (← Text.after? '-' cs)
  return cs

/- The text behind a time of day. -/
def time? (cs : List Char) : Option (List Char) := do
  let (_, cs) ← fixed? 2 0 23 cs
  let (_, cs) ← fixed? 2 0 59 (← Text.after? ':' cs)
  match cs with
  | ':' :: cs =>
      let (_, cs) ← fixed? 2 0 60 cs
      match cs with
      | '.' :: cs =>
          if (cs.takeWhile Char.isDigit).isEmpty then none
          else some (cs.dropWhile Char.isDigit)
      | _ => some cs
  | _ => some cs

/- The text behind the distance from universal time, if there is one. -/
def offset? (cs : List Char) : Option (List Char) :=
  match cs with
  | [] => some []
  | c :: cs =>
      if c = 'Z' || c = 'z' then some cs
      else if c = '+' || c = '-' then do
        let (_, cs) ← fixed? 2 0 23 cs
        let (_, cs) ← fixed? 2 0 59 (← Text.after? ':' cs)
        return cs
      else none

/- A word spells a date, a time, or both. -/
def isMoment (word : List Char) : Bool :=
  match date? word with
  | some [] => true
  | some (c :: cs) =>
      (c = 'T' || c = 't' || c = ' ') && ((time? cs).bind offset?) = some []
  | none => time? word = some []

/- A character of a word that spells a scalar: no blank, mark or quote. -/
def isScalarChar (c : Char) : Bool :=
  !"=,[]\x7b\x7d#'\" \t\r\n".toList.contains c

/-
  The word that spells a scalar, with the text behind it. A
  blank may stand between a date and a time.
-/
def scalarWord (cs : List Char) : List Char × List Char :=
  let word := cs.takeWhile isScalarChar
  let rest := cs.dropWhile isScalarChar
  match date? word, rest with
  | some [], ' ' :: c :: tail =>
      if c.isDigit then
        let tail := c :: tail
        (word ++ ' ' :: tail.takeWhile isScalarChar, tail.dropWhile isScalarChar)
      else (word, rest)
  | _, _ => (word, rest)

/- The scalar that a word spells. -/
def scalar? (word : List Char) : Option Toml :=
  if word = "true".toList then some (bool true)
  else if word = "false".toList then some (bool false)
  else if isMoment word then some moment
  else
    match whole? word with
    | some (base, cs) =>
        match integer? base cs with
        | some value => some (integer value)
        | none => some unreadable
    | none => float? word

------------------------------------------------------------
-- Values
------------------------------------------------------------

mutual

/-
  The value at the start of a text, with the text behind it,
  inside so many arrays and tables between braces. Every call
  takes a step of the `fuel`, and each step goes with a character
  of the text.
-/
def value? : Nat → Nat → List Char → Option (Toml × List Char)
  | 0, _, _ => none
  | fuel + 1, depth, cs =>
      match cs with
      | '"' :: _ => (string? cs).map fun (text, rest) => (string (String.ofList text), rest)
      | '\'' :: _ => (string? cs).map fun (text, rest) => (string (String.ofList text), rest)
      | '[' :: cs =>
          if depth < maxDepth then do
            let (items, rest) ← items? fuel (depth + 1) cs
            return (array items, rest)
          else none
      | '\x7b' :: cs =>
          if depth < maxDepth then do
            let (members, rest) ← members? fuel (depth + 1) [] cs
            return (table .inline members, rest)
          else none
      | _ => do
          let (word, rest) := scalarWord cs
          let value ← scalar? word
          return (value, rest)

/- The items of an array up to its closing bracket. -/
def items? : Nat → Nat → List Char → Option (List Toml × List Char)
  | 0, _, _ => none
  | fuel + 1, depth, cs =>
      match skipLines (cs.length + 1) cs with
      | ']' :: rest => some ([], rest)
      | cs => do
          let (item, cs) ← value? fuel depth cs
          match skipLines (cs.length + 1) cs with
          | ',' :: cs => do
              let (items, rest) ← items? fuel depth cs
              return (item :: items, rest)
          | ']' :: rest => return ([item], rest)
          | _ => none

/- The members of a table between braces, behind those read so far. -/
def members? : Nat → Nat → Table → List Char → Option (Table × List Char)
  | 0, _, _, _ => none
  | fuel + 1, depth, members, cs =>
      match skipLines (cs.length + 1) cs with
      | '\x7d' :: rest => some (members, rest)
      | cs => do
          let ((path, last), cs) ← key? cs
          let cs ← Text.after? '=' (skipLines (cs.length + 1) cs)
          let (value, cs) ← value? fuel depth (skipLines (cs.length + 1) cs)
          let members ← members.insert path last value
          match skipLines (cs.length + 1) cs with
          | ',' :: cs => members? fuel depth members cs
          | '\x7d' :: rest => return (members, rest)
          | _ => none

end

------------------------------------------------------------
-- Documents
------------------------------------------------------------

/- A document as far as it has been read. -/
structure Document where
  root : Table := []
  /- The parts that lead to the table which the next lines fill. -/
  current : List String := []

/- Take a header, with the text behind it. -/
def Document.header?
    (document : Document)
    (cs : List Char) : Option (Document × List Char) :=
  match cs with
  | '[' :: cs => do
      let ((path, last), cs) ← key? cs
      let cs ← lineEnd? (← Text.after? ']' (← Text.after? ']' cs))
      let root ← document.root.modify (Table.openElement last) path
      return ({ root, current := path ++ [last] }, cs)
  | _ => do
      let ((path, last), cs) ← key? cs
      let cs ← lineEnd? (← Text.after? ']' cs)
      let root ← document.root.modify (Table.openTable last) path
      return ({ root, current := path ++ [last] }, cs)

/- Take a member of the current table, with the text behind it. -/
def Document.member?
    (document : Document)
    (cs : List Char) : Option (Document × List Char) := do
  let ((path, last), cs) ← key? cs
  let cs ← Text.after? '=' cs
  let (value, cs) ← value? (cs.length + 1) 0 (skipBlanks cs)
  let cs ← lineEnd? cs
  let root ← document.root.modify (fun table => table.insert path last value)
    document.current
  return ({ document with root }, cs)

/- Take the remaining lines; each takes a step of the `fuel`. -/
def Document.lines? : Nat → Document → List Char → Option Document
  | 0, _, _ => none
  | fuel + 1, document, cs =>
      match skipLines (cs.length + 1) cs with
      | [] => some document
      | '[' :: cs => do
          let (document, cs) ← document.header? cs
          document.lines? fuel cs
      | cs => do
          let (document, cs) ← document.member? cs
          document.lines? fuel cs

/- The text without a byte order mark in front. -/
def dropMark : List Char → List Char
  | '\uFEFF' :: cs => cs
  | cs => cs

/- The members of a document. -/
def parse? (text : String) : Option Table :=
  let cs := dropMark text.toList
  (Document.lines? (cs.length + 1) {} cs).map (·.root)

end Toml

end JqLens
