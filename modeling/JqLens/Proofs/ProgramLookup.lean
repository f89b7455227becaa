import JqLens.Engine.Files
import JqLens.Proofs.Split

/-
  This file says how a program is looked up. Whether its path is
  a name is decided by the number of its components, which takes
  a path for a name if slashes and single dots follow the name.
  No such path leads to a regular file, so that the lookup comes
  out as if the text of the path were searched for a slash.

  Key definitions include:
    * `EndsAtDirectory`
    * `FoundFirst`
    * `Resolves`

  Main results:
    * `endsAtDirectory_iff`
    * `length_components_of_name`
    * `endsAtDirectory_of_components`
    * `Layout.isFile_of_endsAtDirectory`
    * `resolves_lookUp`
-/

namespace JqLens

------------------------------------------------------------
-- Specification
------------------------------------------------------------

/- A path ends with a slash, or with a single dot behind a slash. -/
def EndsAtDirectory (path : String) : Prop :=
  ['/'] <:+ path.toList ∨ ['/', '.'] <:+ path.toList

/- The path of a program below the first entry of a list that has a regular file there. -/
def FoundFirst
    (isFile : String → Bool)
    (program : String)
    (entries : List String)
    (result : String) : Prop :=
  ∃ before entry behind, entries = before ++ entry :: behind ∧
    (∀ earlier ∈ before, isFile (joinPath earlier program) = false) ∧
    isFile (joinPath entry program) = true ∧ result = joinPath entry program

/-
  What a program is resolved to. It stays as it is without a list
  of directories, if its path is empty or has a slash, and if no
  entry of the list has a regular file of its name; otherwise it
  is the path of the program below the first entry that has one.
-/
structure Resolves
    (isFile : String → Bool)
    (program : String)
    (searchPath : Option String)
    (result : String) : Prop where
  noList : searchPath = none → result = program
  noName : program = "" ∨ '/' ∈ program.toList → result = program
  name : ∀ list ∈ searchPath, program ≠ "" → '/' ∉ program.toList →
    FoundFirst isFile program (Text.splitString ':' list) result ∨
      ((∀ entry ∈ Text.splitString ':' list, isFile (joinPath entry program) = false) ∧
        result = program)

------------------------------------------------------------
-- Parts of paths
------------------------------------------------------------

/- A path is its parts with slashes between them. -/
theorem pathParts_eq
    (path : String) :
    pathParts path = (path.toList.splitOn '/').map String.ofList := by
  rw [pathParts, Text.splitString, Text.split_eq_splitOn]

/- Without a slash a path is its only part. -/
theorem pathParts_of_name
    {path : String}
    (hName : '/' ∉ path.toList) :
    pathParts path = [path] := by
  rw [pathParts_eq, List.splitOn_eq_singleton hName, List.map_singleton, String.ofList_toList]

theorem isAbsolute_of_name
    {path : String}
    (hName : '/' ∉ path.toList) :
    isAbsolute path = false := by
  rw [isAbsolute, decide_eq_false_iff_not]
  exact fun hHead => hName (List.mem_of_head? hHead)

/-
  A path that ends at a directory has several parts, of which
  the last is empty or a single dot.
-/
theorem endsAtDirectory_iff
    {path : String} :
    EndsAtDirectory path ↔
      ∃ parts last, pathParts path = parts ++ [last] ∧ parts ≠ [] ∧ (last = "" ∨ last = ".") := by
  have hFront : ∀ front : List Char, (front.splitOn '/').map String.ofList ≠ [] := by
    intro front hNone
    exact List.splitOn_ne_nil _ _ (List.map_eq_nil_iff.mp hNone)
  constructor
  · rintro (⟨front, hPath⟩ | ⟨front, hPath⟩)
    · refine ⟨(front.splitOn '/').map String.ofList, "", ?_, hFront front, .inl rfl⟩
      rw [pathParts_eq, ← hPath, List.splitOn_append_cons_self, List.map_append]
      rfl
    · refine ⟨(front.splitOn '/').map String.ofList, ".", ?_, hFront front, .inr rfl⟩
      rw [pathParts_eq, ← hPath, List.splitOn_append_cons_self, List.map_append]
      rfl
  · rintro ⟨parts, last, hParts, hSome, hLast⟩
    have hSplit : path.toList.splitOn '/' = parts.map String.toList ++ [last.toList] := by
      have hTexts := congrArg (List.map String.toList) hParts
      simpa [pathParts_eq] using hTexts
    have hText : path.toList =
        Text.joinWith ['/'] (parts.map String.toList) ++ ['/'] ++ last.toList := by
      rw [← Text.joinWith_concat (by simpa using hSome), ← hSplit, Text.joinWith_eq_intercalate,
        List.intercalate_splitOn]
    rcases hLast with rfl | rfl
    · rw [String.toList_empty, List.append_nil] at hText
      exact .inl ⟨_, hText.symm⟩
    · rw [List.append_assoc] at hText
      exact .inr ⟨_, hText.symm⟩

/- Seen from a directory such a path is another such path. -/
theorem EndsAtDirectory.joinPath
    {path : String}
    (hEnds : EndsAtDirectory path)
    (directory : String) :
    EndsAtDirectory (joinPath directory path) := by
  have hSuffix : path.toList <:+ (JqLens.joinPath directory path).toList := by
    unfold JqLens.joinPath
    split
    · exact List.suffix_rfl
    split
    · rw [String.toList_append]
      exact List.suffix_append _ _
    · rw [String.toList_append]
      exact List.suffix_append _ _
  rcases hEnds with hSlash | hDot
  · exact .inl (hSlash.trans hSuffix)
  · exact .inr (hDot.trans hSuffix)

------------------------------------------------------------
-- Components
------------------------------------------------------------

theorem Component.ofPart?_eq_none_iff
    {part : String} :
    ofPart? part = none ↔ part = "" ∨ part = "." := by
  unfold ofPart?
  split
  · next hNone => simpa using hNone
  · next hSome =>
      have hPart : ¬ (part = "" ∨ part = ".") := by
        simpa using hSome
      split
      · simp [hPart]
      · simp [hPart]

/- Of the parts of a relative path the first counts as a component, and all others that have one. -/
theorem length_components
    {path first : String}
    {rest : List String}
    (hRelative : isAbsolute path = false)
    (hParts : pathParts path = first :: rest)
    (hFirst : first ≠ "") :
    (components path).length = 1 + (rest.filterMap Component.ofPart?).length := by
  rw [components, hRelative, hParts, List.head?_cons, List.filterMap_cons]
  by_cases hDot : first = "."
  · subst hDot
    simp [Component.ofPart?, Nat.add_comm]
  · cases hComponent : Component.ofPart? first with
    | none =>
        rw [Component.ofPart?_eq_none_iff] at hComponent
        exact absurd hComponent (not_or.mpr ⟨hFirst, hDot⟩)
    | some component => simp [hDot, Nat.add_comm]

/- A path without slashes has a single component. -/
theorem length_components_of_name
    {path : String}
    (hSome : path ≠ "")
    (hName : '/' ∉ path.toList) :
    (components path).length = 1 :=
  length_components (isAbsolute_of_name hName) (pathParts_of_name hName) hSome

/- Among other relative paths only those that end at a directory have a single component. -/
theorem endsAtDirectory_of_components
    {path : String}
    (hRelative : isAbsolute path = false)
    (hSlash : '/' ∈ path.toList)
    (hOne : (components path).length = 1) :
    EndsAtDirectory path := by
  rcases List.eq_append_cons_of_mem hSlash with ⟨front, back, hPath, hFront⟩
  have hParts : pathParts path = String.ofList front :: (back.splitOn '/').map String.ofList := by
    rw [pathParts_eq, hPath, List.splitOn_append_cons_self_of_not_mem hFront, List.map_cons]
  have hSome : String.ofList front ≠ "" := by
    intro hNone
    rw [isAbsolute, hPath, String.ofList_eq_empty_iff.mp hNone] at hRelative
    simp at hRelative
  rw [length_components hRelative hParts hSome] at hOne
  have hNone : ∀ part ∈ (back.splitOn '/').map String.ofList, Component.ofPart? part = none := by
    rw [← List.filterMap_eq_nil_iff]
    exact List.eq_nil_of_length_eq_zero (by omega)
  -- The part behind the last slash is none of the components.
  rcases List.eq_nil_or_concat ((back.splitOn '/').map String.ofList) with
    hEmpty | ⟨others, last, hLast⟩
  · exact absurd (List.map_eq_nil_iff.mp hEmpty) (List.splitOn_ne_nil _ _)
  rw [List.concat_eq_append] at hLast
  rw [hLast] at hParts hNone
  have hEnd := Component.ofPart?_eq_none_iff.mp (hNone last (by simp))
  exact endsAtDirectory_iff.mpr ⟨_, last, hParts, List.cons_ne_nil _ _, hEnd⟩

------------------------------------------------------------
-- Walks
------------------------------------------------------------

namespace Layout

variable {π : Type} {layout : Layout π}

/- A further part of a path needs a directory to stand in. -/
theorem nodeAt_of_walk_cons
    {part : String}
    {parts : List String}
    {place : Place}
    {node : Node π}
    (hWalk : layout.walk place (part :: parts) = .ok node) :
    layout.nodeAt place = some .directory := by
  cases hNode : layout.nodeAt place with
  | none => simp [walk, hNode] at hWalk
  | some found =>
      cases found with
      | directory => rfl
      | file content => simp [walk, hNode] at hWalk
      | program behaviour => simp [walk, hNode] at hWalk

/- A walk along the parts of such a path ends at a directory, if it gets to their end. -/
theorem walk_concat
    {last : String}
    {place : Place}
    {parts : List String}
    {node : Node π}
    (hLast : last = "" ∨ last = ".")
    (hWalk : layout.walk place (parts ++ [last]) = .ok node) :
    node = .directory := by
  induction parts generalizing place with
  | nil =>
      have hNode := nodeAt_of_walk_cons hWalk
      have hStays : (last = "" || last = ".") = true := by
        simpa using hLast
      simp only [List.nil_append, walk, hNode, hStays, if_true] at hWalk
      split at hWalk
      · cases hWalk
      · exact (Except.ok.inj hWalk).symm
  | cons part parts ih =>
      have hNode := nodeAt_of_walk_cons hWalk
      simp only [List.cons_append, walk, hNode] at hWalk
      split at hWalk
      · cases hWalk
      split at hWalk
      · exact ih hWalk
      cases place with
      | above =>
          simp only at hWalk
          split at hWalk
          · exact ih hWalk
          · cases hWalk
      | inside names =>
          simp only at hWalk
          split at hWalk
          · exact ih hWalk
          · exact ih hWalk

/- No path that ends at a directory leads to a regular file of a layout. -/
theorem isFile_of_endsAtDirectory
    {path : String}
    (layout : Layout π)
    (hEnds : EndsAtDirectory path) :
    layout.isFile path = false := by
  rcases endsAtDirectory_iff.mp hEnds with ⟨parts, last, hParts, -, hLast⟩
  have hNode : ∀ node, layout.locate path = .ok node → node = .directory := by
    intro node hLocate
    rw [locate, hParts] at hLocate
    split at hLocate
    · cases hLocate
    split at hLocate
    · cases hLocate
    split at hLocate
    · exact walk_concat hLast hLocate
    · exact walk_concat hLast hLocate
  unfold isFile
  split
  · next content hFile => cases hNode _ hFile
  · next behaviour hProgram => cases hNode _ hProgram
  · rfl

end Layout

------------------------------------------------------------
-- The lookup
------------------------------------------------------------

/- A path with a slash, or an empty one, is not looked up, or it is not found. -/
theorem lookUp_of_noName
    {isFile : String → Bool}
    {program : String}
    (hSystem : ∀ path, EndsAtDirectory path → isFile path = false)
    (hNoName : program = "" ∨ '/' ∈ program.toList)
    (searchPath : Option String) :
    lookUp isFile program searchPath = program := by
  unfold lookUp
  split
  · rfl
  · next hLookedUp =>
      simp only [Bool.or_eq_true, decide_eq_true_eq, not_or,
        Classical.not_not, Bool.not_eq_true] at hLookedUp
      rcases hNoName with rfl | hSlash
      · exact absurd hLookedUp.1 (by decide)
      have hEnds := endsAtDirectory_of_components hLookedUp.2 hSlash hLookedUp.1
      cases searchPath with
      | none => rfl
      | some list =>
          simp only
          rw [List.find?_eq_none.mpr, Option.getD_none]
          intro path hPath
          rcases List.mem_map.mp hPath with ⟨entry, -, rfl⟩
          rw [hSystem _ (hEnds.joinPath entry)]
          exact Bool.false_ne_true

/- A name is looked up entry by entry. -/
theorem lookUp_of_name
    {program : String}
    (isFile : String → Bool)
    (hSome : program ≠ "")
    (hName : '/' ∉ program.toList)
    (list : String) :
    lookUp isFile program (some list) =
      (((Text.splitString ':' list).find? fun entry => isFile (joinPath entry program)).map
        fun entry => joinPath entry program).getD program := by
  rw [lookUp, length_components_of_name hSome hName, isAbsolute_of_name hName]
  simp only [List.find?_map]
  rfl

/- The lookup does what it is to do where no path that ends at a directory is a regular file. -/
theorem resolves_lookUp
    {isFile : String → Bool}
    (hSystem : ∀ path, EndsAtDirectory path → isFile path = false)
    (program : String)
    (searchPath : Option String) :
    Resolves isFile program searchPath (lookUp isFile program searchPath) := by
  constructor
  · rintro rfl
    unfold lookUp
    split
    · rfl
    · rfl
  · intro hNoName
    exact lookUp_of_noName hSystem hNoName searchPath
  · intro list hList hSome hName
    rw [Option.mem_def.mp hList, lookUp_of_name isFile hSome hName]
    cases hFound : (Text.splitString ':' list).find? fun entry =>
        isFile (joinPath entry program) with
    | none =>
        refine .inr ⟨fun entry hEntry => ?_, rfl⟩
        exact Bool.eq_false_iff.mpr (List.find?_eq_none.mp hFound entry hEntry)
    | some entry =>
        rcases List.find?_eq_some_iff_append.mp hFound with
          ⟨hFile, before, behind, hEntries, hBefore⟩
        refine .inl ⟨before, entry, behind, hEntries, fun earlier hMember => ?_, hFile, rfl⟩
        simpa using hBefore earlier hMember

/- Seen from the working directory a path is itself. -/
theorem joinPath_empty
    (path : String) :
    joinPath "" path = path := by
  unfold joinPath
  split
  · rfl
  · rw [if_pos (by decide), String.empty_append]

theorem Layout.isFile_iff
    {π : Type}
    {layout : Layout π}
    {path : String} :
    layout.isFile path = true ↔ ∃ node, layout.locate path = .ok node ∧ node ≠ .directory := by
  unfold isFile
  cases layout.locate path with
  | error fault => simp
  | ok node =>
      cases node with
      | directory => simp
      | file content => simp
      | program behaviour => simp

/-
  A program is resolved to its path below the first entry of the
  list that has a regular file there, and left as it is if its
  path has a slash or is empty, and where there is no list or
  none of its entries has one. An empty entry stands for the
  working directory. So it is on every system in which no path
  that ends with a slash, or with a dot behind a slash, leads to
  a regular file, and outright among the files of every layout,
  where directories are no regular files.
-/
theorem resolveProgram_firstEntry :
    (∀ isFile : String → Bool,
      (∀ path, EndsAtDirectory path → isFile path = false) →
        ∀ program searchPath,
          Resolves isFile program searchPath (lookUp isFile program searchPath)) ∧
      (∀ {π : Type} (layout : Layout π) (program : String) (searchPath : Option String),
        Resolves layout.isFile program searchPath
          (resolveProgram layout program searchPath)) ∧
      (∀ {π : Type} (layout : Layout π) (path : String),
        layout.isFile path = true ↔ ∃ node, layout.locate path = .ok node ∧ node ≠ .directory) ∧
      ∀ program, joinPath "" program = program := by
  refine ⟨?_, ?_, fun _ _ => Layout.isFile_iff, joinPath_empty⟩
  · intro isFile hSystem program searchPath
    exact resolves_lookUp hSystem program searchPath
  · intro π layout program searchPath
    exact resolves_lookUp (fun _ hEnds => layout.isFile_of_endsAtDirectory hEnds) program searchPath

/- A directory of the name is skipped, and a slash behind the name leaves it as it is. -/
theorem resolveProgram_firstEntry_skippedDirectory :
    let layout : Layout Unit :=
      { entries := [(["a", "jq"], .directory), (["b", "jq"], .file []), (["jq"], .program ())] }
    (∀ path, EndsAtDirectory path → layout.isFile path = false) ∧
      lookUp layout.isFile "jq" (some "a:b/::") = "b/jq" ∧
      Resolves layout.isFile "jq" (some "a:b/::") "b/jq" ∧
      lookUp layout.isFile "jq/." (some "a:b/::") = "jq/." ∧
      Resolves layout.isFile "jq/." (some "a:b/::") "jq/." := by
  intro layout
  have hSystem : ∀ path, EndsAtDirectory path → layout.isFile path = false :=
    fun _ hEnds => layout.isFile_of_endsAtDirectory hEnds
  have hFound : lookUp layout.isFile "jq" (some "a:b/::") = "b/jq" := by
    decide +kernel
  have hKept : lookUp layout.isFile "jq/." (some "a:b/::") = "jq/." := by
    decide +kernel
  have hResolves := resolveProgram_firstEntry.1 layout.isFile hSystem
  have hFirst := hResolves "jq" (some "a:b/::")
  have hSecond := hResolves "jq/." (some "a:b/::")
  rw [hFound] at hFirst
  rw [hKept] at hSecond
  exact ⟨hSystem, hFound, hFirst, hKept, hSecond⟩

end JqLens
