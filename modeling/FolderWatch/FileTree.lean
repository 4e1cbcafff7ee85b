import FolderWatch.DirectoryView

/-!
A file system held in memory: files, directories, links and pipes at their locations. Paths are
walked component by component; a link is replaced by its target, up to a limit.
-/

namespace FolderWatch

abbrev Location := List (List UInt8)

inductive FileContent where
  | bytes (content : List UInt8)
  | zeros (count : Nat)
  deriving Repr

namespace FileContent

def length : FileContent → Nat
  | bytes content => content.length
  | zeros count => count

def toBytes : FileContent → List UInt8
  | bytes content => content
  | zeros count => List.replicate count 0

end FileContent

inductive Node where
  | file (content : FileContent) (modified : Instant)
  | directory
  | link (target : Path)
  | pipe
  deriving Repr

/-- Every node but the root. -/
structure FileTree where
  nodes : List (Location × Node) := []
  deriving Repr, Inhabited

namespace FileTree

def longestPath : Nat := 4096
def longestName : Nat := 255
def mostLinks : Nat := 40

def node? (tree : FileTree) (location : Location) : Option Node :=
  if location = [] then some .directory else tree.nodes.lookup location

def isDirectoryAt (tree : FileTree) (location : Location) : Bool :=
  match tree.node? location with
  | some .directory => true
  | _ => false

/-- Walks segments from a location, with a number of links that may still be followed. -/
def walk (tree : FileTree) (links : Nat) (here : Location) (segments : List (List UInt8)) :
    Except AccessError Location :=
  match segments with
  | [] => .ok here
  | segment :: rest =>
      if !tree.isDirectoryAt here then .error .notDirectory
      else if segment = [] ∨ segment = [Path.dot] then tree.walk links here rest
      else if segment = [Path.dot, Path.dot] then tree.walk links here.dropLast rest
      else if longestName < segment.length then .error .nameTooLong
      else match tree.node? (here ++ [segment]) with
        | none => .error .missing
        | some (.link target) =>
            match links with
            | 0 => .error .linkLoop
            | links + 1 =>
                tree.walk links (if target.isAbsolute then [] else here)
                  (Path.segments target.bytes ++ rest)
        | some _ => tree.walk links (here ++ [segment]) rest
termination_by (links, segments.length)

def segmentsFrom (workingDirectory path : Path) : List (List UInt8) :=
  if path.isAbsolute then Path.segments path.bytes
  else Path.segments workingDirectory.bytes ++ Path.segments path.bytes

def resolve (tree : FileTree) (workingDirectory path : Path) : Except AccessError Location :=
  if 0 ∈ path.bytes then .error .nulByte
  else if path.bytes = [] then .error .missing
  else if longestPath ≤ path.bytes.length then .error .nameTooLong
  else tree.walk mostLinks [] (segmentsFrom workingDirectory path)

/-- Where the entry that a path names is, whether it is there or not; a link is not followed. -/
def locate (tree : FileTree) (workingDirectory path : Path) : Except AccessError Location := do
  let segments := (segmentsFrom workingDirectory path).filter fun segment =>
    segment ≠ [] ∧ segment ≠ [Path.dot]
  let parent ← tree.walk mostLinks [] segments.dropLast
  return parent ++ segments.getLast?.toList

def metadata : Node → Metadata
  | .file content modified => .file (UInt64.ofNat content.length) modified
  | .directory => .directory
  | _ => .other

/-- Names of the entries of a directory, the greatest first. -/
def names (tree : FileTree) (location : Location) : List (List UInt8) :=
  let inside := tree.nodes.filterMap fun (place, _) =>
    if place.dropLast = location then place.getLast? else none
  inside.mergeSort fun left right => (compare right left).isLE

def view (tree : FileTree) (workingDirectory : Path) : DirectoryView where
  lookup path := do
    let location ← tree.resolve workingDirectory path
    match tree.node? location with
    | some node => return metadata node
    | none => throw .missing
  list path := do
    let location ← tree.resolve workingDirectory path
    if tree.isDirectoryAt location then return (tree.names location).map .entry
    else throw .notDirectory

def read? (tree : FileTree) (workingDirectory path : Path) : Option (List UInt8) :=
  match tree.resolve workingDirectory path with
  | .error _ => none
  | .ok location =>
      match tree.node? location with
      | some (.file content _) => some content.toBytes
      | _ => none

def put (tree : FileTree) (location : Location) (node : Node) : FileTree :=
  ⟨tree.nodes.filter (fun (place, _) => place ≠ location) ++ [(location, node)]⟩

def removeAt (tree : FileTree) (location : Location) : FileTree :=
  ⟨tree.nodes.filter fun (place, _) => !location.isPrefixOf place⟩

def moveTo (tree : FileTree) (source target : Location) : FileTree :=
  let cleared := if source = target then tree else tree.removeAt target
  ⟨cleared.nodes.map fun (place, node) =>
    if source.isPrefixOf place then (target ++ place.drop source.length, node) else (place, node)⟩

def makeDirectories (tree : FileTree) (workingDirectory path : Path) : FileTree :=
  let segments := segmentsFrom workingDirectory path
  (List.range segments.length).foldl (fun tree count =>
    let partway := segments.take (count + 1)
    match tree.walk mostLinks [] partway, tree.walk mostLinks [] partway.dropLast with
    | .error .missing, .ok parent => tree.put (parent ++ partway.getLast?.toList) .directory
    | _, _ => tree) tree

inductive Edit where
  | write (path : Path) (content : FileContent) (modified : Instant)
  | touch (path : Path) (modified : Instant)
  | remove (path : Path)
  | makeDirectory (path : Path)
  | removeDirectory (path : Path)
  | rename (source target : Path)
  | link (target path : Path)
  | pipe (path : Path)
  deriving Repr

def putAt (tree : FileTree) (workingDirectory path : Path) (node : Node) : FileTree :=
  match tree.locate workingDirectory path with
  | .ok location => tree.put location node
  | .error _ => tree

/-- An edit whose path does not lead anywhere leaves the tree as it is. -/
def apply (tree : FileTree) (workingDirectory : Path) : Edit → FileTree
  | .write path content modified => tree.putAt workingDirectory path (.file content modified)
  | .touch path modified =>
      match tree.resolve workingDirectory path with
      | .error _ => tree
      | .ok location =>
          match tree.node? location with
          | some (.file content _) => tree.put location (.file content modified)
          | _ => tree
  | .remove path | .removeDirectory path =>
      match tree.locate workingDirectory path with
      | .ok location => tree.removeAt location
      | .error _ => tree
  | .makeDirectory path => tree.makeDirectories workingDirectory path
  | .rename source target =>
      match tree.locate workingDirectory source, tree.locate workingDirectory target with
      | .ok source, .ok target => tree.moveTo source target
      | _, _ => tree
  | .link target path => tree.putAt workingDirectory path (.link target)
  | .pipe path => tree.putAt workingDirectory path .pipe

end FileTree

end FolderWatch
