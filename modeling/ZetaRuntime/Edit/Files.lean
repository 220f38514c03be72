import ZetaRuntime.Edit.Texts
import ZetaRuntime.Json
import ZetaRuntime.Library.Utf8

/-!
# The files that tools edit

The tools that edit files read and write through the operating system. The model is a disk that maps
paths to files and directories: a path is in normal form, there are no links, and no one else
changes anything, so that an operation fails only if the disk says so. A file holds bytes, which may
or may not be a text.

The patches that the tools record go to fresh files in a directory for temporary files, if it takes
them. They are kept apart here, so that what happens to the files of a project is what happens to
`Disk.node`.
-/

namespace Zeta.Edit

open Outcome

/-- What a tool reports instead of a result. -/
structure ToolError where
  code : String
  message : String
  deriving DecidableEq, Repr

/-- How an operation of a tool fails: with a report, or with an index that is out of bounds. -/
inductive Failure where
  | reported (error : ToolError)
  | panic
  deriving DecidableEq, Repr

/-- A parameter that should be a text. -/
def stringParam (params : Map) (name : String) : Text :=
  match Map.get params name with
  | some (.string s) => s.toList
  | _ => []

/-! ### Paths -/

/-- A path in normal form: the names from the root. -/
abbrev Path := List Text

def Path.display (path : Path) : Text := if path = [] then ['/'] else path.flatMap ('/' :: ·)

def Path.parent (path : Path) : Option Path := if path = [] then none else some path.dropLast

/-- The names in a path as it is written. -/
def components (path : Text) :
    List Text := (Lines.split '/' path).filter fun name => name ≠ [] ∧ name ≠ ['.']

/-- Going along names, where two dots lead back. -/
def Path.follow (path : Path) (names : List Text) : Path :=
  names.foldl (fun path name => if name = ['.', '.'] then path.dropLast else path ++ [name]) path

/-- The path that is meant from a directory. -/
def resolvePath (path : Text) (base : Path) : Path :=
  if path.head? = some '/' then Path.follow [] (components path) else base.follow (components path)

/-! ### The disk -/

/-- What is at a path. -/
inductive Node where
  | file (bytes : List UInt8)
  | directory
  deriving DecidableEq, Repr

/-- Why the operating system refuses. -/
inductive IoError where
  | notFound
  | notADirectory
  | isADirectory
  | other (text : String)
  deriving DecidableEq, Repr

def IoError.text : IoError → String
  | .notFound => "No such file or directory (os error 2)"
  | .notADirectory => "Not a directory (os error 20)"
  | .isADirectory => "Is a directory (os error 21)"
  | .other text => text

/-- The files, and the patches that were recorded. -/
structure Disk where
  node : Path → Option Node
  artifacts : List Text
  /-- Why no patch can be recorded, if none can. -/
  artifactError : Option IoError

namespace Disk

def IsDir (disk : Disk) (path : Path) : Prop := disk.node path = some .directory

instance (disk : Disk) (path : Path) : Decidable (disk.IsDir path) :=
  inferInstanceAs (Decidable (_ = some Node.directory))

/-- The directory that a path is in exists. -/
def HasParent (disk : Disk) (path : Path) : Prop := ∃ parent ∈ path.parent, disk.IsDir parent

instance (disk : Disk) (path : Path) : Decidable (disk.HasParent path) :=
  match h : path.parent with
  | none => isFalse fun ⟨_, hp, _⟩ => by rw [h] at hp; cases hp
  | some parent =>
    decidable_of_iff (disk.IsDir parent)
      ⟨fun hd => ⟨parent, h, hd⟩, fun ⟨_, hp, hd⟩ => (Option.some.inj (h.symm.trans hp)) ▸ hd⟩

/-- Why there is nothing at a path. -/
def missing (disk : Disk) (path : Path) : IoError :=
  if path.inits.any fun above => (disk.node above).any (· ≠ .directory) then .notADirectory
  else .notFound

def read (disk : Disk) (path : Path) : Except IoError (List UInt8) :=
  match disk.node path with
  | some (.file bytes) => .ok bytes
  | some .directory => .error .isADirectory
  | none => .error (disk.missing path)

/-- The disk with a file at a path. -/
def put (disk : Disk) (path : Path) (bytes : List UInt8) : Disk :=
  { disk with node := Function.update disk.node path (some (.file bytes)) }

/-- A file is made if there is none, in a directory that exists. -/
def write (disk : Disk) (path : Path) (bytes : List UInt8) : Except IoError Disk :=
  match disk.node path with
  | some (.file _) => .ok (disk.put path bytes)
  | some .directory => .error .isADirectory
  | none => if disk.HasParent path then .ok (disk.put path bytes) else .error (disk.missing path)

/-- The disk with one more patch. -/
def record (disk : Disk) (patch : Text) :
    Disk := { disk with artifacts := disk.artifacts ++ [patch] }

/-- A patch goes to a file of its own. -/
def writeArtifact (disk : Disk) (patch : Text) : Except IoError Disk :=
  match disk.artifactError with
  | some error => .error error
  | none => .ok (disk.record patch)

theorem read_ok_iff {disk : Disk} {path : Path} {bytes : List UInt8} :
    disk.read path = .ok bytes ↔ disk.node path = some (.file bytes) := by
  unfold read
  split <;> simp_all

end Disk

/-- The text of a file. -/
def readUtf8 (disk : Disk) (path : Path) : Except ToolError Text := do
  let bytes ← (disk.read path).mapError fun error => ⟨"read-failed", error.text⟩
  require ((Utf8.decode bytes).map String.toList)
    ⟨"not-utf8", "file is not valid UTF-8; editing it would corrupt its bytes"⟩

/-- A path holds a text. -/
def Disk.Holds (disk : Disk) (path : Path) (text : Text) : Prop :=
  ∃ bytes, disk.node path = some (.file bytes) ∧ (Utf8.decode bytes).map String.toList = some text

theorem readUtf8_ok_iff {disk : Disk} {path : Path} {text : Text} :
    readUtf8 disk path = .ok text ↔ disk.Holds path text := by
  simp only [readUtf8, bind_ok_iff, mapError_ok_iff, require_ok_iff, Disk.read_ok_iff, Disk.Holds]

theorem Disk.holds_put (disk : Disk) (path : Path) (text : Text) :
    (disk.put path (Utf8.encode text)).Holds path text := by
  refine ⟨Utf8.encode text, Function.update_self _ _ _, ?_⟩
  rw [Utf8.decode_encode, Option.map_some, String.toList_ofList]

/-- A file that is there can be written. -/
theorem Disk.Holds.write {disk : Disk} {path : Path} {text : Text} (h : disk.Holds path text)
    (bytes : List UInt8) : disk.write path bytes = .ok (disk.put path bytes) := by
  obtain ⟨old, hnode, -⟩ := h
  rw [Disk.write, hnode]

namespace Sample

/-- A disk with one text. -/
def disk (name content : String) : Disk where
  node path :=
    if path = [name.toList] then some (.file (Utf8.encode content.toList))
    else if path = [] then some .directory
    else none
  artifacts := []
  artifactError := none

theorem disk_holds (name content : String) :
    (disk name content).Holds [name.toList] content.toList := by
  refine ⟨Utf8.encode content.toList, if_pos rfl, ?_⟩
  rw [Utf8.decode_encode, Option.map_some, String.toList_ofList]

end Sample

end Zeta.Edit
