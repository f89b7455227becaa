/-
  This file finds the path in the target of a request. A target
  is a path with a query, or a whole address with a scheme and
  an authority in front of the path; any other target has no
  path.

  Key definitions include:
    * `afterScheme?`
    * `Target.path`
-/

namespace JqLens.Target

/- A character of a scheme. -/
def isSchemeChar (c : Char) : Bool :=
  c.isAlphanum || ['+', '-', '.', '~'].contains c

/- A character that ends an authority. -/
def endsAuthority (c : Char) : Bool :=
  c = '/' || c = '?' || c = '#'

/- A character that ends a path. -/
def endsPath (c : Char) : Bool :=
  c = '?' || c = '#'

/- The text behind a scheme and the slashes that follow it. -/
def afterScheme? (cs : List Char) : Option (List Char) :=
  match cs.dropWhile isSchemeChar with
  | ':' :: '/' :: '/' :: rest => some rest
  | _ => none

/-
  The path of a target. Where an authority has no path behind
  it, the path is that of the root.
-/
def path (target : String) : String :=
  let cs := target.toList
  match cs with
  | '/' :: _ => String.ofList (cs.takeWhile fun c => !endsPath c)
  | _ =>
      match afterScheme? cs with
      | some rest =>
          let path := (rest.dropWhile fun c => !endsAuthority c).takeWhile fun c => !endsPath c
          if path.isEmpty then "/" else String.ofList path
      | none => ""

end JqLens.Target
