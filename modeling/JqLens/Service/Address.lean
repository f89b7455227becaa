import JqLens.Text.Reader

/-
  This file reads and writes network addresses: internet
  addresses of both kinds, and the same with a port.

  Key definitions include:
    * `Ip`
    * `Ip.ofText?`
    * `Ip.text`
    * `SocketAddress`
    * `SocketAddress.ofText?`
    * `SocketAddress.text`
-/

namespace JqLens

------------------------------------------------------------
-- Types
------------------------------------------------------------

/- An internet address. -/
inductive Ip where
  /- Four parts of eight bits. -/
  | v4 (a b c d : Nat)
  /- Eight groups of sixteen bits. -/
  | v6 (groups : List Nat)
  deriving DecidableEq, Repr

/-
  An internet address with a port. Only an address of groups
  may have a scope other than zero.
-/
structure SocketAddress where
  ip : Ip
  scope : Nat := 0
  port : Nat
  deriving DecidableEq, Repr

------------------------------------------------------------
-- Reading numbers
------------------------------------------------------------

/-
  The number at the start of a text, below a bound and of at
  most so many digits, with the text behind it.
-/
def numberBelow?
    (base bound maxDigits : Nat)
    (cs : List Char) : Option (Nat × List Char) :=
  let digits := cs.takeWhile fun c => (Text.digit? base c).isSome
  let value := (Text.value? base digits).getD 0
  if digits.isEmpty || maxDigits < digits.length || bound ≤ value then none
  else some (value, cs.drop digits.length)

------------------------------------------------------------
-- Reading addresses
------------------------------------------------------------

namespace Ip

/- One of the four parts: without leading zeros. -/
def part? (cs : List Char) : Option (Nat × List Char) := do
  let (value, rest) ← numberBelow? 10 256 3 cs
  if cs.head? = some '0' && (cs.drop 1).length ≠ rest.length then none
  else some (value, rest)

/- Four parts with dots between them. -/
def v4? (cs : List Char) : Option ((Nat × Nat × Nat × Nat) × List Char) := do
  let (a, cs) ← part? cs
  let (b, cs) ← part? (← Text.after? '.' cs)
  let (c, cs) ← part? (← Text.after? '.' cs)
  let (d, cs) ← part? (← Text.after? '.' cs)
  return ((a, b, c, d), cs)

/- The text behind the colon in front of any group but the first. -/
def separator? (first : Bool) (cs : List Char) : Option (List Char) :=
  if first then some cs else Text.after? ':' cs

/- What a run of groups has given. -/
structure Groups where
  groups : List Nat
  /- The run ends with four parts in the place of its last two groups. -/
  dotted : Bool
  rest : List Char

/-
  As many groups as come next, at most so many. The last two
  may be written as four parts.
-/
def groups (first : Bool) : Nat → List Char → Groups
  | 0, cs => ⟨[], false, cs⟩
  | limit + 1, cs =>
      let four := if limit = 0 then none else (separator? first cs).bind v4?
      match four with
      | some ((a, b, c, d), rest) => ⟨[a * 256 + b, c * 256 + d], true, rest⟩
      | none =>
          match (separator? first cs).bind (numberBelow? 16 65536 4) with
          | none => ⟨[], false, cs⟩
          | some (group, rest) =>
              let others := groups false limit rest
              { others with groups := group :: others.groups }

/-
  Eight groups with colons between them. Two colons stand for
  as many groups of zero as are missing, at least one.
-/
def v6? (cs : List Char) : Option (List Nat × List Char) :=
  let head := groups true 8 cs
  if head.groups.length = 8 then some (head.groups, head.rest)
  else if head.dotted then none
  else do
    let cs ← Text.after? ':' (← Text.after? ':' head.rest)
    let tail := groups true (7 - head.groups.length) cs
    let missing := 8 - head.groups.length - tail.groups.length
    return (head.groups ++ List.replicate missing 0 ++ tail.groups, tail.rest)

/- The address that a text spells. -/
def ofText? (text : String) : Option Ip :=
  match v4? text.toList with
  | some ((a, b, c, d), []) => some (v4 a b c d)
  | _ =>
      match v6? text.toList with
      | some (groups, []) => some (v6 groups)
      | _ => none

------------------------------------------------------------
-- Writing addresses
------------------------------------------------------------

/- Four parts with dots between them. -/
def dotted (a b c d : Nat) : String :=
  toString a ++ "." ++ toString b ++ "." ++ toString c ++ "." ++ toString d

/- Groups in hexadecimal with colons between them. -/
def colons (groups : List Nat) : String :=
  String.intercalate ":" (groups.map fun group => String.ofList (Nat.toDigits 16 group))

/- The length of the run of zeros at the start of a list. -/
def zeros (groups : List Nat) : Nat :=
  (groups.takeWhile (· = 0)).length

/- The length of the longest run of zeros. -/
def longestRun : List Nat → Nat
  | [] => 0
  | group :: groups => max (zeros (group :: groups)) (longestRun groups)

/- The number of groups before the first run of so many zeros. -/
def beforeRun (length : Nat) : List Nat → Nat
  | [] => 0
  | group :: groups =>
      if zeros (group :: groups) = length then 0 else beforeRun length groups + 1

/-
  Eight groups. The first of the longest runs of zeros is left
  out if it has at least two; an address of four parts that is
  embedded behind a group of ones is written with dots.
-/
def groupsText (groups : List Nat) : String :=
  match groups with
  | [0, 0, 0, 0, 0, 0xFFFF, ab, cd] =>
      "::ffff:" ++ dotted (ab / 256) (ab % 256) (cd / 256) (cd % 256)
  | _ =>
      let length := longestRun groups
      if length ≤ 1 then colons groups
      else
        let before := beforeRun length groups
        colons (groups.take before) ++ "::" ++ colons (groups.drop (before + length))

/- The text of an address. -/
def text : Ip → String
  | v4 a b c d => dotted a b c d
  | v6 groups => groupsText groups

end Ip

------------------------------------------------------------
-- Addresses with a port
------------------------------------------------------------

namespace SocketAddress

/- A port behind a colon, at the end of a text. -/
def port? (cs : List Char) : Option Nat := do
  let digits ← Text.after? ':' cs
  let (port, rest) ← numberBelow? 10 65536 digits.length digits
  if rest.isEmpty then some port else none

/- A scope behind a percent sign, if there is one. -/
def scope? (cs : List Char) : Option (Nat × List Char) :=
  match cs with
  | '%' :: digits => numberBelow? 10 UInt32.size digits.length digits
  | _ => some (0, cs)

/- An address of groups stands in brackets, with its scope. -/
def v6? (cs : List Char) : Option SocketAddress := do
  let (groups, cs) ← Ip.v6? (← Text.after? '[' cs)
  let (scope, cs) ← scope? cs
  let port ← port? (← Text.after? ']' cs)
  return { ip := .v6 groups, scope, port }

/- An address of four parts stands alone. -/
def v4? (cs : List Char) : Option SocketAddress := do
  let ((a, b, c, d), cs) ← Ip.v4? cs
  let port ← port? cs
  return { ip := .v4 a b c d, port }

/- The address that a text spells. -/
def ofText? (text : String) : Option SocketAddress :=
  (v4? text.toList).or (v6? text.toList)

/- The text of an address. -/
def text (address : SocketAddress) : String :=
  match address.ip with
  | .v4 _ _ _ _ => address.ip.text ++ ":" ++ toString address.port
  | .v6 _ =>
      "[" ++ address.ip.text ++
        (if address.scope = 0 then "" else "%" ++ toString address.scope) ++
        "]:" ++ toString address.port

end SocketAddress

end JqLens
