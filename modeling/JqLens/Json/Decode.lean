import JqLens.Json.Basic
import JqLens.Json.Reader

/-
  This file turns trees that have been read into values of a
  wanted type. The parts of a tree are looked at in the order
  of the text, and the first fault is the answer. A fault is
  either in the text, which is no JSON, or in its shape.

  Key definitions include:
    * `Fault`
    * `Decode.string`
    * `Decode.natural`
    * `Decode.listOf`
    * `Decode.optional`
    * `Decode.members`
    * `Decode.once`
    * `Decode.element`
    * `Reading.keeps`
-/

namespace JqLens

------------------------------------------------------------
-- Faults
------------------------------------------------------------

/- Why a text is refused. -/
inductive Fault where
  /- The text is not JSON, or cannot be read. -/
  | malformed
  /- The text is JSON of another shape. -/
  | mismatch
  deriving DecidableEq, Repr

------------------------------------------------------------
-- Sound trees
------------------------------------------------------------

namespace Reading

/- A value that can be passed over: the text goes on behind it. -/
def isWhole : Reading → Bool
  | broken => false
  | arr _ closed => closed
  | obj _ closed => closed
  | _ => true

/-
  A value that can be kept whole for a second look, inside of
  which there is room for so many levels of arrays and objects.
-/
def keeps : Nat → Reading → Bool
  | _, broken => false
  | _, unreadable => false
  | 0, arr _ _ => false
  | 0, obj _ _ => false
  | room + 1, arr items closed => closed && items.all (keeps room)
  | room + 1, obj members closed =>
      closed && members.all fun member => member.1.isSome && keeps room member.2
  | _, null => true
  | _, bool _ => true
  | _, nat _ => true
  | _, number => true
  | _, str _ => true

/- How many levels of arrays and objects a kept text may have. -/
def maxDepth : Nat :=
  127

end Reading

namespace Decode

------------------------------------------------------------
-- Scalars
------------------------------------------------------------

/- A value of another kind; text that cannot be read is malformed. -/
def wrongKind : Reading → Fault
  | .broken => .malformed
  | .unreadable => .malformed
  | _ => .mismatch

/- A string. -/
def string : Reading → Except Fault String
  | .str value => .ok value
  | other => .error (wrongKind other)

/- A truth value. -/
def bool : Reading → Except Fault Bool
  | .bool value => .ok value
  | other => .error (wrongKind other)

/- A natural number of 64 bits. -/
def natural : Reading → Except Fault Nat
  | .nat value => if value < UInt64.size then .ok value else .error .mismatch
  | other => .error (wrongKind other)

/- Null, or a value. -/
def optional {α : Type} (decode : Reading → Except Fault α) :
    Reading → Except Fault (Option α)
  | .null => .ok none
  | other => (decode other).map some

/- A value that nobody asks for. -/
def ignored (value : Reading) : Except Fault Unit :=
  if value.isWhole then .ok () else .error .malformed

------------------------------------------------------------
-- Arrays
------------------------------------------------------------

/- The values of items in order. -/
def items {α : Type} (decode : Reading → Except Fault α) :
    List Reading → Except Fault (List α)
  | [] => .ok []
  | item :: rest => do
      let value ← decode item
      let values ← items decode rest
      return value :: values

/- What an array that ends here is worth. -/
def finished {α : Type} (closed : Bool) (value : α) : Except Fault α :=
  if closed then .ok value else .error .malformed

/- An array of values. -/
def listOf {α : Type} (decode : Reading → Except Fault α) :
    Reading → Except Fault (List α)
  | .arr values closed => do
      let values ← items decode values
      finished closed values
  | other => .error (wrongKind other)

/- The items of an array that are still to be read. -/
structure Items where
  items : List Reading
  closed : Bool

/-
  The next item of an array with the items behind it; there is
  none at the end of the array.
-/
def element?
    {α : Type}
    (decode : Reading → Except Fault α)
    (rest : Items) : Except Fault (Option α × Items) :=
  match rest.items with
  | item :: items => do
      let value ← decode item
      return (some value, { rest with items })
  | [] => finished rest.closed (none, rest)

/- The next item of an array, which must not end here. -/
def element
    {α : Type}
    (decode : Reading → Except Fault α)
    (rest : Items) : Except Fault (α × Items) := do
  match ← element? decode rest with
  | (some value, rest) => return (value, rest)
  | (none, _) => .error .mismatch

/- The next item of an array, with a default at its end. -/
def elementOr
    {α : Type}
    (default : α)
    (decode : Reading → Except Fault α)
    (rest : Items) : Except Fault (α × Items) := do
  let (value, rest) ← element? decode rest
  return (value.getD default, rest)

/- The end of an array, behind which nothing may be left. -/
def noMore (rest : Items) : Except Fault Unit :=
  match rest.items with
  | [] => finished rest.closed ()
  | _ :: _ => .error .malformed

------------------------------------------------------------
-- Objects
------------------------------------------------------------

/-
  Go through the members of an object in order, with a state
  that each of them changes. A name that cannot be read is a
  fault of the text, and so is a missing closing brace.
-/
def members
    {σ : Type}
    (member : String → Reading → σ → Except Fault σ)
    (closed : Bool)
    (state : σ) : List (Option String × Reading) → Except Fault σ
  | [] => finished closed state
  | (none, _) :: _ => .error .malformed
  | (some name, value) :: rest => do
      let state ← member name value state
      members member closed state rest

/-
  The value of a member that may occur once: a second one is
  refused before it is looked at.
-/
def once
    {α : Type}
    (decode : Reading → Except Fault α)
    (value : Reading) : Option α → Except Fault (Option α)
  | some _ => .error .mismatch
  | none => (decode value).map some

/- The value of a member that must occur. -/
def required {α : Type} : Option α → Except Fault α
  | some value => .ok value
  | none => .error .mismatch

end Decode

end JqLens
