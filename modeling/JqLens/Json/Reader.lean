import JqLens.Text.Double
import JqLens.Text.Reader

/-
  This file reads JSON text into a tree. Reading never fails:
  where the text stops being JSON the tree is broken, and the
  arrays and objects around that place stay open. Who looks at
  the tree decides how far it has to be sound.

  Key definitions include:
    * `Reading`
    * `Reading.Frame`
    * `Reading.run`
    * `Reading.first`
    * `Reading.parse?`
-/

namespace JqLens

------------------------------------------------------------
-- Trees
------------------------------------------------------------

/- JSON text as it has been read. -/
inductive Reading where
  | null
  | bool (value : Bool)
  /- A number without sign, fraction and exponent. -/
  | nat (value : Nat)
  /- Any other number. -/
  | number
  | str (value : String)
  /- The items of an array; `closed` tells that its bracket was found. -/
  | arr (items : List Reading) (closed : Bool)
  /-
    The members of an object. A name that cannot be read is
    `none`; `closed` tells that the closing brace was found.
  -/
  | obj (members : List (Option String × Reading)) (closed : Bool)
  /-
    Text that has the form of a value and may be passed over but
    has no meaning: a string with half a surrogate pair, or a
    number beyond every double.
  -/
  | unreadable
  /- The place where the text stops being JSON. -/
  | broken

namespace Reading

------------------------------------------------------------
-- Blanks and words
------------------------------------------------------------

/- The blanks that may stand between the parts of JSON text. -/
def isSpace (c : Char) : Bool :=
  c = ' ' || c = '\n' || c = '\t' || c = '\r'

/- The text behind leading blanks. -/
def skip (cs : List Char) : List Char :=
  cs.dropWhile isSpace

/- The given value, if the text starts with the given word. -/
def word
    (expected : List Char)
    (value : Reading)
    (cs : List Char) : Reading × List Char :=
  if expected.isPrefixOf cs then (value, cs.drop expected.length) else (broken, [])

------------------------------------------------------------
-- Strings
------------------------------------------------------------

/- The value of four hexadecimal digits. -/
def hexUnit? (a b c d : Char) : Option Nat :=
  Text.value? 16 [a, b, c, d]

/- The character behind a backslash, for escapes of one character. -/
def escaped? (c : Char) : Option Char :=
  match c with
  | '"' => some '"'
  | '\\' => some '\\'
  | '/' => some '/'
  | 'b' => some '\x08'
  | 'f' => some '\x0c'
  | 'n' => some '\n'
  | 'r' => some '\r'
  | 't' => some '\t'
  | _ => none

/- A part of a string: a character, or half a surrogate pair. -/
inductive Unit16 where
  | char (c : Char)
  | high (value : Nat)
  | low (value : Nat)
  deriving DecidableEq, Repr

/- The part that a unit of sixteen bits stands for. -/
def Unit16.ofNat (value : Nat) : Unit16 :=
  if 0xD800 ≤ value && value < 0xDC00 then high value
  else if 0xDC00 ≤ value && value < 0xE000 then low value
  else char (Char.ofNat value)

/- The character of a surrogate pair. -/
def pairChar (high low : Nat) : Char :=
  Char.ofNat (0x10000 + (high - 0xD800) * 0x400 + (low - 0xDC00))

/-
  The parts of a string behind its opening quote, and the text
  behind its closing quote. There is no string if an escape is
  unknown, a control character stands in it or its end is
  missing. `done` holds the parts so far, last part first.
-/
def stringParts (done : List Unit16) : List Char → Option (List Unit16 × List Char)
  | '"' :: cs => some (done.reverse, cs)
  | '\\' :: 'u' :: a :: b :: c :: d :: cs =>
      match hexUnit? a b c d with
      | some value => stringParts (Unit16.ofNat value :: done) cs
      | none => none
  | '\\' :: c :: cs =>
      match escaped? c with
      | some c => stringParts (.char c :: done) cs
      | none => none
  | c :: cs => if c.toNat < 0x20 || c = '\\' then none else stringParts (.char c :: done) cs
  | [] => none

/-
  The characters of the parts; there are none if half a
  surrogate pair stands alone. `done` holds the characters so
  far, last character first.
-/
def joinParts (done : List Char) : List Unit16 → Option (List Char)
  | [] => some done.reverse
  | .char c :: parts => joinParts (c :: done) parts
  | .high high :: .low low :: parts => joinParts (pairChar high low :: done) parts
  | _ => none

/-
  The string behind an opening quote, with the text behind it.
  The string is `none` if it cannot be read; there is nothing at
  all if the text is no string.
-/
def string (cs : List Char) : Option (Option String × List Char) :=
  (stringParts [] cs).map fun (parts, rest) =>
    ((joinParts [] parts).map String.ofList, rest)

------------------------------------------------------------
-- Numbers
------------------------------------------------------------

/-
  The leading digits of a number as far as they fit into 64
  bits, behind the value of those before; with them the digits
  that are left over.
-/
def leadingDigits : Nat → List Char → Nat × List Char
  | value, [] => (value, [])
  | value, c :: cs =>
      let next := 10 * value + Text.digitsValue [c]
      if next < UInt64.size then leadingDigits next cs else (value, c :: cs)

/-
  A number is beyond every double. Its leading digits and the
  power of ten behind them are rounded to doubles each, and so
  is their product; all further digits only raise the power.
-/
def isHuge (whole fraction : List Char) (power : Int) : Bool :=
  let (value, wholeLeft) := leadingDigits 0 whole
  let (value, fractionLeft) := leadingDigits value fraction
  let power := power + wholeLeft.length + fractionLeft.length - fraction.length
  if value = 0 || power < 0 then false
  else if 308 < power then true
  else
    Text.doubleBound ≤ Text.nearestDouble value * Text.nearestDouble (Nat.pow 10 power.toNat)

/- The text behind a minus sign that comes first. -/
def dropMinus : List Char → Bool × List Char
  | '-' :: cs => (true, cs)
  | cs => (false, cs)

/-
  The number at the start of a text, with the text behind it.
  A whole part has no leading zeros; a dot and an exponent mark
  need digits behind them.
-/
def numberAt (cs : List Char) : Reading × List Char :=
  let (negative, cs) := dropMinus cs
  let whole := cs.takeWhile Char.isDigit
  let rest := cs.dropWhile Char.isDigit
  if whole.isEmpty || (whole.head? = some '0' && 1 < whole.length) then (broken, [])
  else
    let (dotted, fraction, rest) :=
      match rest with
      | '.' :: rest => (true, rest.takeWhile Char.isDigit, rest.dropWhile Char.isDigit)
      | rest => (false, [], rest)
    if dotted && fraction.isEmpty then (broken, [])
    else
      let (raised, negativeExponent, power, rest) :=
        match rest with
        | c :: tail =>
            if c = 'e' || c = 'E' then
              let (negativeExponent, tail) := Text.sign tail
              (true, negativeExponent, tail.takeWhile Char.isDigit,
                tail.dropWhile Char.isDigit)
            else (false, false, [], rest)
        | [] => (false, false, [], [])
      if raised && power.isEmpty then (broken, [])
      else
        let size : Int := Text.digitsValue power
        let power := if negativeExponent then -size else size
        if isHuge whole fraction power then (unreadable, rest)
        else if negative || dotted || raised then (number, rest)
        else (nat (Text.digitsValue whole), rest)

------------------------------------------------------------
-- Scalars
------------------------------------------------------------

/-
  The value at the start of a text that is neither an array nor
  an object, with the text behind it.
-/
def scalar (c : Char) (cs : List Char) : Reading × List Char :=
  if c = '"' then
    match string cs with
    | some (some value, rest) => (str value, rest)
    | some (none, rest) => (unreadable, rest)
    | none => (broken, [])
  else if c = 'n' then word "null".toList null (c :: cs)
  else if c = 't' then word "true".toList (bool true) (c :: cs)
  else if c = 'f' then word "false".toList (bool false) (c :: cs)
  else if c = '-' || c.isDigit then numberAt (c :: cs)
  else (broken, [])

------------------------------------------------------------
-- Open arrays and objects
------------------------------------------------------------

/- An array or object around the place that is being read. -/
inductive Frame where
  /- The items before that place, last item first. -/
  | array (items : List Reading)
  /- The members before that place, last one first, and the name at it. -/
  | object (members : List (Option String × Reading)) (name : Option String)

/- An array or object with a last value in it, closed or not. -/
def Frame.close (value : Reading) (closed : Bool) : Frame → Reading
  | .array items => arr (value :: items).reverse closed
  | .object members name => obj ((name, value) :: members).reverse closed

/- The tree when the text breaks off inside the given frames. -/
def unfinished (value : Reading) (frames : List Frame) : Reading :=
  frames.foldl (fun value frame => frame.close value false) value

/- What the reader looks for next. -/
inductive Mode where
  /- A value. -/
  | value
  /- The name of a member, behind those that are read already. -/
  | name (members : List (Option String × Reading))
  /- A comma or closing bracket behind the given value. -/
  | after (value : Reading)

/-
  One step of the reader behind blanks: either the tree is
  complete, or the reader goes on.
-/
inductive Progress where
  | done (tree : Reading) (rest : List Char)
  | more (frames : List Frame) (mode : Mode) (rest : List Char)

/- Go on behind a value, unless the text breaks off in it. -/
def Progress.behind (frames : List Frame) : Reading × List Char → Progress
  | (broken, _) => done (unfinished broken frames) []
  | (value, rest) => more frames (.after value) rest

/- Read a value, which starts with the given character. -/
def stepValue
    (frames : List Frame)
    (c : Char)
    (cs : List Char) : Progress :=
  if c = '[' then
    match skip cs with
    | ']' :: rest => .more frames (.after (arr [] true)) rest
    | rest => .more (.array [] :: frames) .value rest
  else if c = '\x7b' then
    match skip cs with
    | '\x7d' :: rest => .more frames (.after (obj [] true)) rest
    | rest => .more frames (.name []) rest
  else
    .behind frames (scalar c cs)

/- The text breaks off where a name is looked for. -/
def Progress.nameless
    (frames : List Frame)
    (members : List (Option String × Reading)) : Progress :=
  done (unfinished (obj members.reverse false) frames) []

/- Read a name, which starts with the given character, and its colon. -/
def stepName
    (frames : List Frame)
    (members : List (Option String × Reading))
    (c : Char)
    (cs : List Char) : Progress :=
  if c = '"' then
    match string cs with
    | some (name, rest) =>
        match skip rest with
        | ':' :: rest => .more (.object members name :: frames) .value rest
        | _ => .done (unfinished broken (.object members name :: frames)) []
    | none => .nameless frames members
  else .nameless frames members

/- Go on behind a value with the given character. -/
def stepAfter
    (value : Reading)
    (c : Char)
    (cs : List Char) : List Frame → Progress
  | [] => .done value (c :: cs)
  | .array items :: frames =>
      if c = ',' then .more (.array (value :: items) :: frames) .value cs
      else if c = ']' then
        .more frames (.after ((Frame.array items).close value true)) cs
      else .done (unfinished value (.array items :: frames)) []
  | .object members name :: frames =>
      if c = ',' then .more frames (.name ((name, value) :: members)) cs
      else if c = '\x7d' then
        .more frames (.after ((Frame.object members name).close value true)) cs
      else .done (unfinished value (.object members name :: frames)) []

/- One step of the reader on a text without leading blanks. -/
def step
    (frames : List Frame) : Mode → List Char → Progress
  | .value, c :: cs => stepValue frames c cs
  | .value, [] => .done (unfinished broken frames) []
  | .name members, c :: cs => stepName frames members c cs
  | .name members, [] => .nameless frames members
  | .after value, c :: cs => stepAfter value c cs frames
  | .after value, [] => .done (unfinished value frames) []

------------------------------------------------------------
-- Reading a text
------------------------------------------------------------

/-
  Read on from a state. Every step takes a character, so a text
  of `fuel` characters is read to its end in as many steps and
  one more.
-/
def run : Nat → List Frame → Mode → List Char → Reading × List Char
  | 0, frames, _, _ => (unfinished broken frames, [])
  | fuel + 1, frames, mode, cs =>
      match step frames mode (skip cs) with
      | .done tree rest => (tree, rest)
      | .more frames mode rest => run fuel frames mode rest

/-
  The first value of a text, with the text behind it and behind
  its blanks.
-/
def first (cs : List Char) : Reading × List Char :=
  run (cs.length + 1) [] .value cs

/-
  The value of a text that holds one value and nothing else but
  blanks.
-/
def parse? (text : String) : Option Reading :=
  match first text.toList with
  | (tree, []) => some tree
  | (_, _ :: _) => none

end Reading

end JqLens
