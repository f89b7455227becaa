import JqLens.Engine.Basic
import JqLens.Text.Split
import JqLens.Text.Utf8

/-
  This file models the files that a run can see: a working
  directory with files, directories and programs in it. It says
  what a path leads to, and how a program is looked up along a
  list of directories.

  Key definitions include:
    * `Layout`
    * `Layout.locate`
    * `Layout.isFile`
    * `Layout.readText`
    * `components`
    * `lookUp`, `resolveProgram`
-/

namespace JqLens

------------------------------------------------------------
-- Layouts
------------------------------------------------------------

/- What a path leads to; programs behave as `π` tells. -/
inductive Node (π : Type) where
  | directory
  | file (content : List UInt8)
  | program (behaviour : π)

/-
  The nodes below a working directory, each with the names that
  lead to it. Directories on the way to a node need no entry.
-/
structure Layout (π : Type) where
  entries : List (List String × Node π) := []

/- The parts of a path between its slashes. -/
def pathParts (path : String) : List String :=
  Text.splitString '/' path

namespace Layout

variable {π : Type}

/- The longest name of a node, in bytes. -/
def maxName : Nat :=
  255

/- The longest path, in bytes. -/
def maxPath : Nat :=
  4095

/- The node with the given names, read from the working directory. -/
def node? (layout : Layout π) (names : List String) : Option (Node π) :=
  if names.isEmpty then some .directory
  else
    match layout.entries.find? fun entry => entry.1 == names with
    | some entry => some entry.2
    | none =>
        if layout.entries.any fun entry => names.isPrefixOf entry.1 then some .directory
        else none

/-
  Where a walk along a path stands: at the node with the given
  names, or at a directory above the working directory.
-/
inductive Place where
  | inside (names : List String)
  | above
  deriving DecidableEq, Repr

/- The node at a place. -/
def nodeAt (layout : Layout π) : Place → Option (Node π)
  | .inside names => layout.node? names
  | .above => some .directory

/- Walk along the parts of a path from a place. -/
def walk
    (layout : Layout π)
    (place : Place) : List String → Except SystemFault (Node π)
  | [] =>
      match layout.nodeAt place with
      | some node => .ok node
      | none => .error .notFound
  | part :: parts =>
      match layout.nodeAt place with
      | none => .error .notFound
      | some (.file _) => .error .notADirectory
      | some (.program _) => .error .notADirectory
      | some .directory =>
          if maxName < part.utf8ByteSize then .error .nameTooLong
          else if part = "" || part = "." then layout.walk place parts
          else
            match place with
            | .above => if part = ".." then layout.walk .above parts else .error .notFound
            | .inside names =>
                if part = ".." then
                  layout.walk (if names.isEmpty then .above else .inside names.dropLast) parts
                else
                  layout.walk (.inside (names ++ [part])) parts

/- What a path leads to. -/
def locate (layout : Layout π) (path : String) : Except SystemFault (Node π) :=
  if path.isEmpty then .error .notFound
  else if maxPath < path.utf8ByteSize then .error .nameTooLong
  else if path.toList.head? = some '/' then layout.walk .above (pathParts path)
  else layout.walk (.inside []) (pathParts path)

/- A path leads to a regular file. -/
def isFile (layout : Layout π) (path : String) : Bool :=
  match layout.locate path with
  | .ok (.file _) => true
  | .ok (.program _) => true
  | _ => false

/- The text of the file that a path leads to. -/
def readText (layout : Layout π) (path : String) : Except SystemFault String :=
  if path.toList.contains '\x00' then .error .nulByteInName
  else
    match layout.locate path with
    | .error fault => .error fault
    | .ok .directory => .error .isADirectory
    | .ok (.program _) => .ok ""
    | .ok (.file content) =>
        match Text.Utf8.decode? content with
        | some text => .ok (String.ofList text)
        | none => .error .invalidText

end Layout

------------------------------------------------------------
-- Components of paths
------------------------------------------------------------

/- What a path is made of once it is normalised. -/
inductive Component where
  /- The top of all directories, at the front of an absolute path. -/
  | root
  /- The directory that a relative path starts from. -/
  | current
  | parent
  | name (text : String)
  deriving DecidableEq, Repr

/- The component of a part of a path; empty parts and single dots have none. -/
def Component.ofPart? (part : String) : Option Component :=
  if part = "" || part = "." then none
  else if part = ".." then some .parent
  else some (.name part)

/- A path starts at the top of all directories. -/
def isAbsolute (path : String) : Bool :=
  path.toList.head? = some '/'

/-
  The components of a path. Slashes that repeat or end a path go,
  and so do single dots, except at the front of a relative path.
-/
def components (path : String) : List Component :=
  (if isAbsolute path then [.root]
    else if (pathParts path).head? = some "." then [.current]
    else []) ++ (pathParts path).filterMap Component.ofPart?

------------------------------------------------------------
-- Looking up programs
------------------------------------------------------------

/-
  A path as seen from a directory. An empty directory stands for
  the working directory; an absolute path stays as it is.
-/
def joinPath (directory path : String) : String :=
  if isAbsolute path then path
  else if directory.isEmpty || directory.toList.getLast? = some '/' then directory ++ path
  else directory ++ "/" ++ path

/-
  Look a program up along a list of directories with colons
  between them, on a system that tells which paths lead to
  regular files. Only a relative path of a single component is
  looked up; where nothing is found, the path stays as it is.
-/
def lookUp
    (isFile : String → Bool)
    (program : String)
    (searchPath : Option String) : String :=
  if (components program).length ≠ 1 || isAbsolute program then program
  else
    match searchPath with
    | none => program
    | some searchPath =>
        (((Text.splitString ':' searchPath).map fun directory => joinPath directory program).find?
          isFile).getD program

/- Look a program up among the files of a layout. -/
def resolveProgram
    {π : Type}
    (layout : Layout π)
    (program : String)
    (searchPath : Option String) : String :=
  lookUp layout.isFile program searchPath

end JqLens
