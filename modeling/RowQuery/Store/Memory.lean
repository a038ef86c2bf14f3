import RowQuery.DataError
import RowQuery.NameMap
import RowQuery.Store.Path
import RowQuery.Text.Bytes

/-!
A store in memory: objects under their paths, which carry no slashes at their ends. A container
exists because it was created or because an object lies below it. What a writer holds becomes the
whole object when the writer commits it.
-/

namespace RowQuery

structure MemoryStore where
  objects : NameMap Bytes := .empty
  containers : NameMap Unit := .empty
  deriving Inhabited

namespace MemoryStore

def insert (s : MemoryStore) (path : String) (content : Bytes) : MemoryStore :=
  { s with objects := s.objects.insert (Path.trimSlashes path) content }

def bytes? (s : MemoryStore) (path : String) : Option Bytes :=
  s.objects.get? (Path.trimSlashes path)

theorem bytes?_insert (s : MemoryStore) (path other : String) (content : Bytes) :
    (s.insert path content).bytes? other =
      if Path.trimSlashes other = Path.trimSlashes path then some content else s.bytes? other :=
  s.objects.get?_insert _ _ _

def size (s : MemoryStore) : Nat := s.objects.size

def objectExists (s : MemoryStore) (path : String) : Bool := (s.bytes? path).isSome

def containerExists (s : MemoryStore) (path : String) : Bool :=
  let key := Path.trimSlashes path
  s.containers.contains key || s.objects.names.any fun name => Path.isBelow key name

def createContainer (s : MemoryStore) (path : String) : MemoryStore :=
  { s with containers := s.containers.insert (Path.trimSlashes path) () }

def read (s : MemoryStore) (path : String) : Except DataError Bytes :=
  match s.bytes? path with
  | some content => .ok content
  | none => .error (.notFound path)

/-- The paths of the objects below a container, in order; every object is below the root. -/
def list (s : MemoryStore) (container : String) : List String :=
  let key := Path.trimSlashes container
  s.objects.names.filter fun name => key.isEmpty || Path.isBelow key name

structure Writer where
  key : String
  buffer : Bytes := []

def Writer.write (w : Writer) (content : Bytes) : Writer := { w with buffer := w.buffer ++ content }

/-- The object is there, and empty, as soon as a writer is opened on it. -/
def openWriter (s : MemoryStore) (path : String) : MemoryStore × Writer :=
  (s.insert path [], { key := Path.trimSlashes path })

def commit (s : MemoryStore) (w : Writer) : MemoryStore :=
  { s with objects := s.objects.insert w.key w.buffer }

end MemoryStore

end RowQuery
