import CardFilter.FilePath

/-!
# File trees

A file tree holds files and directories under a root. Paths are followed step by step: a single dot
stays, two dots go up, and every directory on the way must be there. Symbolic links are left out: a
path leads where its segments say and nowhere else.
-/

namespace CardFilter

open FilePath (Segment isIdle upward)

/-- What a place in a file tree holds: a file or a directory, and never a symbolic link to one. -/
inductive FileNode
  /-- A file with its content. -/
  | file (content : String)
  /-- A file whose bytes are no text. -/
  | binary (bytes : List UInt8)
  /-- A directory. -/
  | directory
  deriving DecidableEq, Repr

/-- **A file tree**: its files and directories, each at its steps from the root. A directory above
one of them is there without being listed. -/
structure FileTree where
  /-- The files and the listed directories. -/
  nodes : List (List Segment × FileNode)
  deriving Repr

namespace FileTree

/-- There is nothing but the root. -/
def empty : FileTree := ⟨[]⟩

/-- The places that segments lead through, from a place that is not among them. -/
def placesAlong (place : List Segment) : List Segment → List (List Segment)
  | [] => []
  | s :: rest =>
    let next :=
      if isIdle s then place else if s = upward then place.dropLast else place ++ [s]
    next :: placesAlong next rest

/-- The tree with what an absolute path names, and with the directories on the way. -/
def insert (tree : FileTree) (path : FilePath) (node : FileNode) : FileTree :=
  let places := placesAlong [] path.segments
  match places.getLast? with
  | none => tree
  | some place =>
    ⟨(place, node) :: tree.nodes.filter (fun (p, _) => p != place)
      ++ places.dropLast.map fun p => (p, .directory)⟩

/-- What the place holds, if it is there. -/
def node? (tree : FileTree) (place : List Segment) : Option FileNode :=
  match tree.nodes.lookup place with
  | some node => some node
  | none =>
    if place.isEmpty || tree.nodes.any fun (p, _) => place.isPrefixOf p then some .directory
    else none

/-- Where the segments of a path lead from a place, if they can be followed. -/
def follow? (tree : FileTree) (place : List Segment) :
    List Segment → Option (List Segment)
  | [] => some place
  | s :: rest =>
    if tree.node? place = some .directory then
      if isIdle s then tree.follow? place rest
      else if s = upward then tree.follow? place.dropLast rest
      else if (tree.node? (place ++ [s])).isSome then tree.follow? (place ++ [s]) rest
      else none
    else none

/-- What an absolute path names. -/
def at? (tree : FileTree) (path : FilePath) : Option FileNode :=
  if path.isAbsolute then (tree.follow? [] path.segments).bind tree.node? else none

/-- The path names a file. -/
def isFile (tree : FileTree) (path : FilePath) : Bool :=
  match tree.at? path with
  | some (.file _) | some (.binary _) => true
  | _ => false

/-- The path names something. -/
def contains (tree : FileTree) (path : FilePath) : Bool :=
  (tree.at? path).isSome

/-- The content of the file that the path names; there is none where the bytes are no text. -/
def read? (tree : FileTree) (path : FilePath) : Option String :=
  match tree.at? path with
  | some (.file content) => some content
  | _ => none

/-- The tree with a file put at a place, instead of what was there. -/
def put (tree : FileTree) (place : List Segment) (content : String) : FileTree :=
  ⟨(place, .file content) :: tree.nodes.filter fun (p, _) => p != place⟩

/-- **Writes a file**, unless the path names a directory or lies in none. -/
def write? (tree : FileTree) (path : FilePath) (content : String) : Option FileTree :=
  match tree.at? path with
  | some .directory => none
  | some _ => (tree.follow? [] path.segments).map fun place => tree.put place content
  | none =>
    match path.isAbsolute, path.segments.getLast? with
    | true, some name =>
      (tree.follow? [] path.segments.dropLast).bind fun place =>
        if tree.node? place = some .directory && !isIdle name && name != upward then
          some (tree.put (place ++ [name]) content)
        else none
    | _, _ => none

/-- The files of a later tree that this one does not hold, or holds with another content. -/
def changes (before after : FileTree) : List (FilePath × String) :=
  after.nodes.filterMap fun (place, node) =>
    match node with
    | .file content =>
      if before.node? place = some node then none
      else some (FilePath.ofSegments ([] :: place), content)
    | .binary _ | .directory => none

end FileTree

end CardFilter
