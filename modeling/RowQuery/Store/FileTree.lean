import RowQuery.DataError
import RowQuery.NameMap
import RowQuery.Store.Path
import RowQuery.Text.Bytes

/-!
A store of files below a root directory. Paths are walked name by name: a point stays, two points go
to the parent, also out of the root, and both need a directory to stand in, as does a path that ends
in a slash. Files are reached by one path only, so that the names from the top of the tree stand for
the file itself.
-/

namespace RowQuery

-- sums start from the numeral, whatever else is imported
attribute [local instance (high)] Zero.ofOfNat0

inductive FileNode
  | file : Bytes → FileNode
  | directory : List (String × FileNode) → FileNode

abbrev FileEntries := List (String × FileNode)

/-- The tree from the top of the system, in which the root of the store is a directory. -/
structure FileTree where
  top : FileEntries := [("/", .directory [("/", .directory [])])]

namespace FileEntries

def set (name : String) (node : FileNode) : FileEntries → FileEntries
  | [] => [(name, node)]
  | (n, old) :: rest => if n = name then (name, node) :: rest else (n, old) :: set name node rest

def put (node : FileNode) : List String → FileEntries → FileEntries
  | [], entries => entries
  | [name], entries => entries.set name node
  | name :: rest, entries =>
    match entries.lookup name with
    | some (.directory inner) => entries.set name (.directory (put node rest inner))
    | _ => entries

end FileEntries

namespace FileNode

mutual

def files : FileNode → List (List String)
  | file _ => [[]]
  | directory entries => filesOf entries

def filesOf : List (String × FileNode) → List (List String)
  | [] => []
  | (name, node) :: rest => node.files.map (name :: ·) ++ filesOf rest

end

end FileNode

namespace FileTree

def longestName : Nat := 255

/-- Longer paths are refused, counted in bytes below the root, whose own path takes the rest of what
a system allows. -/
def longestPath : Nat := 4040

/-- The names that lead to the root of the store. No path spells them, since a slash ends a name. -/
def base : List String := ["/", "/"]

def node? (t : FileTree) : List String → Option FileNode :=
  go (.directory t.top)
where
  go : FileNode → List String → Option FileNode
    | node, [] => some node
    | .directory entries, name :: rest => (entries.lookup name).bind fun node => go node rest
    | .file _, _ :: _ => none

def set (t : FileTree) (place : List String) (node : FileNode) : FileTree := ⟨t.top.put node place⟩

/-- A directory: its entries, and the directories around it with the names that lead inwards, the
innermost first. -/
structure Standing where
  entries : FileEntries
  outer : List (String × FileEntries) := []

namespace Standing

def place (s : Standing) : List String := (s.outer.map (·.1)).reverse

def placeOf (s : Standing) (name : String) : List String := s.place ++ [name]

def enter (s : Standing) (name : String) : Standing :=
  match s.entries.lookup name with
  | some (.directory inner) => ⟨inner, (name, s.entries) :: s.outer⟩
  | _ => s

end Standing

inductive Reached
  | file : List String → Bytes → Reached
  | directory : Standing → Reached
  | missing : Reached
  | refused : Reached

def walkFrom (s : Standing) : List String → Reached
  | [] => .directory s
  | "" :: rest => walkFrom s rest
  | "." :: rest => walkFrom s rest
  | ".." :: rest =>
    match s.outer with
    | [] => walkFrom s rest
    | (_, entries) :: outer => walkFrom ⟨entries, outer⟩ rest
  | name :: rest =>
    if longestName < name.utf8ByteSize then .refused
    else match s.entries.lookup name, rest with
      | some (.directory inner), rest => walkFrom ⟨inner, (name, s.entries) :: s.outer⟩ rest
      | some (.file content), [] => .file (s.placeOf name) content
      | some (.file _), _ => .refused
      | none, _ => .missing

def root (t : FileTree) : Standing := base.foldl Standing.enter { entries := t.top }

/-- Paths that no system takes: a null character ends a path, and too long ones are refused. -/
def isImpossible (path : List String) : Bool :=
  longestPath + 1 < (path.map fun name => name.utf8ByteSize + 1).sum
    || path.any fun name => name.toList.contains '\x00'

def walk (t : FileTree) (path : List String) : Reached :=
  if isImpossible path then .refused else walkFrom t.root path

def isDirectory (t : FileTree) (path : List String) : Bool :=
  match t.walk path with
  | .directory _ => true
  | _ => false

def steps (path : List String) : List String := path.filter fun name => name != "" && name != "."

inductive Made
  | made : FileTree → Made
  | missingParent : Made
  | refused : Made

def splitLast (path : List String) : List String × String :=
  let path := (path.reverse.dropWhile (· == "")).reverse
  (path.dropLast, path.getLastD "")

def makeOne (t : FileTree) (path : List String) : Made :=
  if isImpossible path then .refused
  else
    let (parent, name) := splitLast path
    match walkFrom t.root parent with
    | .directory s =>
      if name = "" ∨ name = "." ∨ name = ".." then .refused
      else if longestName < name.utf8ByteSize then .refused
      else if (s.entries.lookup name).isSome then .refused
      else .made (t.set (s.placeOf name) (.directory []))
    | .missing => .missingParent
    | _ => .refused

/-- Makes a directory after its missing parents, each of them given by all its names. Parents stay
where the last step fails. -/
def makeAll (t : FileTree) (path : List String) : Nat → FileTree × Bool
  | 0 => (t, false)
  | depth + 1 =>
    match t.makeOne path with
    | .made t => (t, true)
    | .refused => (t, t.isDirectory path)
    | .missingParent =>
      match makeAll t (steps path).dropLast depth with
      | (t, false) => (t, false)
      | (t, true) =>
        match t.makeOne path with
        | .made t => (t, true)
        | _ => (t, t.isDirectory path)

def makeDirectories (t : FileTree) (path : List String) : FileTree × Bool :=
  t.makeAll path (path.length + 1)

def names (path : String) : List String := Path.pieces (Path.dropSlashes path)

def objectExists (t : FileTree) (path : String) : Bool :=
  match t.walk (names path) with
  | .file _ _ => true
  | _ => false

def containerExists (t : FileTree) (path : String) : Bool := t.isDirectory (names path)

def createContainer (t : FileTree) (path : String) : FileTree × Except DataError Unit :=
  match t.makeDirectories (names path) with
  | (t, true) => (t, .ok ())
  | (t, false) => (t, .error .store)

def read (t : FileTree) (path : String) : Except DataError Bytes :=
  match t.walk (names path) with
  | .file _ content => .ok content
  | _ => .error (.notFound path)

/-- The paths of the files below a directory, spelled through the path it was given by. -/
def list (t : FileTree) (container : String) : List String :=
  match t.walk (names container) with
  | .directory s =>
    let spelled := steps (names container)
    ((FileNode.filesOf s.entries).map fun names => "/".intercalate (spelled ++ names)).mergeSort
        fun a b =>
      a ≤ b
  | _ => []

structure Writer where
  place : List String
  offset : Nat := 0
  buffer : Bytes := []

def Writer.capacity : Nat := 8192

def openWriter (t : FileTree) (path : String) : FileTree × Except DataError Writer :=
  let path := names path
  match t.makeDirectories (steps path).dropLast with
  | (t, false) => (t, .error .store)
  | (t, true) =>
    let name := path.getLastD ""
    if isImpossible path || name == "" || name == "." || name == ".." || longestName
        < name.utf8ByteSize then
      (t, .error .store)
    else match t.walk path.dropLast with
      | .directory s =>
        match s.entries.lookup name with
        | some (.directory _) => (t, .error .store)
        | _ => (t.set (s.placeOf name) (.file []), .ok { place := s.placeOf name })
      | _ => (t, .error .store)

/-- Writes at an offset; a gap before it is filled with zeros. -/
def overwriteAt (content : Bytes) (offset : Nat) (more : Bytes) : Bytes :=
  content.take offset ++ List.replicate (offset - content.length) 0 ++ more
    ++ content.drop (offset + more.length)

def writeThrough (t : FileTree) (w : Writer) (content : Bytes) : FileTree × Writer :=
  match content, t.node? w.place with
  | [], _ => (t, w)
  | content, some (.file old) =>
    (t.set w.place (.file (overwriteAt old w.offset content)),
      { w with offset := w.offset + content.length })
  | _, _ => (t, w)

def flush (t : FileTree) (w : Writer) : FileTree × Writer :=
  let (t, w) := t.writeThrough w w.buffer
  (t, { w with buffer := [] })

/-- Holds what fits; what does not fit goes to the file after what was held. -/
def write (t : FileTree) (w : Writer) (content : Bytes) : FileTree × Writer :=
  let (t, w) := if Writer.capacity < w.buffer.length + content.length then t.flush w else (t, w)
  if Writer.capacity ≤ content.length then t.writeThrough w content
  else (t, { w with buffer := w.buffer ++ content })

end FileTree

end RowQuery
