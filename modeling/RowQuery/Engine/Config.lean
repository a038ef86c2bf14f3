import RowQuery.DataError
import RowQuery.Document.Shape
import RowQuery.Json.Reader
import RowQuery.Number.Numeral
import RowQuery.Text.Blank

/-!
The configuration of an engine: how wide it runs, where it keeps persisted rows, and which store it
uses.
-/

namespace RowQuery

inductive Tier
  | memory | disk
  deriving DecidableEq, Inhabited

def Tier.name : Tier → String
  | memory => "memory"
  | disk => "disk"

structure UnknownTier where
  text : String
  deriving DecidableEq

def UnknownTier.message (e : UnknownTier) : String :=
  s!"Invalid configuration: unknown persist tier '{e.text}'"

def Tier.ofText (text : String) : Except UnknownTier Tier :=
  match (Text.trim text).toLower with
  | "memory" | "mem" => .ok memory
  | "disk" | "durable" => .ok disk
  | other => .error ⟨other⟩

def Tier.ofDocument? (d : Document) : Option Tier := do
  [memory, disk][← d.choice? false ["memory", "disk"]]?

structure EngineConfig where
  maxParallelTasks : Nat := 4
  defaultParallelism : Nat := 4
  tier : Tier := .memory
  persistDir : String := "_flowsql/persist"
  storageUri : Option String := none
  storageRoot : String := "."
  deriving DecidableEq, Inhabited

structure StorageConfig where
  uri : Option String
  root : String
  deriving DecidableEq

def beforeSeparator : List Char → List Char
  | [] => []
  | c :: cs => if "://".toList.isPrefixOf (c :: cs) then [] else c :: beforeSeparator cs

def uriScheme? (uri : String) : Option String :=
  let scheme := Text.trim (String.ofList (beforeSeparator uri.toList))
  if scheme.isEmpty then none else some scheme

def filePath? (uri : String) : Option String :=
  ("file://".toList.isPrefixOf? uri.toList).map fun
    | '/' :: cs => String.ofList ('/' :: cs)
    | cs => String.ofList ('/' :: cs)

namespace EngineConfig

/-- A count in the environment is at least one; one that cannot be read is passed over. -/
def countOr (default : Nat) (text : Option String) : Nat :=
  match text.bind fun s => Numeral.count? s.toList with
  | some n => max n 1
  | none => default

def ofEnvironment (env : String → Option String) : EngineConfig :=
  let usual : EngineConfig := {}
  { maxParallelTasks := countOr usual.maxParallelTasks (env "FLOWSQL_MAX_PARALLEL_TASKS")
    defaultParallelism := countOr usual.defaultParallelism (env "FLOWSQL_DEFAULT_PARALLELISM")
    tier := ((env "FLOWSQL_PERSIST_TIER").bind fun s => (Tier.ofText s).toOption).getD usual.tier
    persistDir := (env "FLOWSQL_PERSIST_DIR").getD usual.persistDir
    storageUri := env "FLOWSQL_STORAGE_URI"
    storageRoot := (env "FLOWSQL_STORAGE_ROOT").getD usual.storageRoot }

/-- A file location that does not begin with `file://` falls back on the configured root. -/
def storage (config : EngineConfig) : StorageConfig where
  uri := config.storageUri
  root := match config.storageUri with
    | none => config.storageRoot
    | some uri => match uriScheme? uri with
      | none => config.storageRoot
      | some "file" => (filePath? uri).getD config.storageRoot
      | some _ => String.ofList (Text.dropEndWhile (· = '/') uri.toList)

def toJson (config : EngineConfig) : Json :=
  .obj [("max_parallel_tasks", .int config.maxParallelTasks),
    ("default_parallelism", .int config.defaultParallelism),
    ("persist_tier", .str config.tier.name),
    ("persist_dir", .str config.persistDir),
    ("storage_uri", config.storageUri.elim .null .str),
    ("storage_root", .str config.storageRoot)]

def fieldNames : List String :=
  ["max_parallel_tasks", "default_parallelism", "persist_tier", "persist_dir", "storage_uri",
    "storage_root"]

open Document (required optional) in
def ofDocument? (d : Document) : Option EngineConfig := do
  let fields ← d.fields? fieldNames
  return {
    maxParallelTasks := ← required Document.count? fields[0]?.join
    defaultParallelism := ← required Document.count? fields[1]?.join
    tier := ← required Tier.ofDocument? fields[2]?.join
    persistDir := ← required Document.text? fields[3]?.join
    storageUri := ← optional Document.text? fields[4]?.join
    storageRoot := ← required Document.text? fields[5]?.join }

def ofText? (text : String) : Option EngineConfig := do
  ofDocument? (.ofJson (← Json.parseFields? fieldNames text))

end EngineConfig

inductive StoreChoice
  | memory
  | files (root : String)
  deriving DecidableEq

namespace StorageConfig

def scheme? (config : StorageConfig) : Option String := config.uri.bind uriScheme?

def toJson (config : StorageConfig) : Json :=
  .obj [("uri", config.uri.elim .null .str), ("root", .str config.root)]

def choose (config : StorageConfig) : Except DataError StoreChoice :=
  match config.scheme? with
  | some "memory" => .ok .memory
  | some "file" => .ok (.files config.root)
  | none => .ok (.files config.root)
  | some other => .error (.unsupportedScheme other)

end StorageConfig

end RowQuery
