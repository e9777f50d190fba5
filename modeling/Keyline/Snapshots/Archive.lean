import Keyline.Timestamps
import Keyline.Failure
import Keyline.Files.Tree
import Keyline.Files.Walk
import Keyline.Snapshots.Document

/-!
# The archive of snapshots

Snapshots of a store are kept as files of one directory, named by timestamps. Names sort in byte
order, the last one is the newest, and a store is restored from the newest alone. A snapshot is
written under a temporary name and renamed when it is complete, so an incomplete one is never
listed.
-/
namespace Keyline

/-- The snapshots in `dir`, none newer than `last` as far as this archive knows. -/
structure Archive where
  dir : Path
  last : Nat
  deriving Repr, DecidableEq

namespace Archive

/-- Whether `name` is that of a snapshot in `dir`, a directory at `d`. -/
def isSnapshot (t : FileTree) (dir : Path) (d : Place) (name : String) : Bool :=
  (dir.child name).fault?.isNone && t.isFile (d ++ [name]) && (Snapshots.timestamp? name).isSome

def nameOrder (a b : String) : Bool := decide (Utf8.encode a ≤ Utf8.encode b)

/-- Names of the snapshots in a directory, oldest first; none if the path leads nowhere. -/
def namesIn (t : FileTree) (dir : Path) : Except Failure (List String) :=
  match t.lookup dir with
  | .error _ => .ok []
  | .ok d =>
    match t.list d with
    | .error f => .error (.io f.message)
    | .ok names => .ok ((names.filter (isSnapshot t dir d)).mergeSort nameOrder)

def names (t : FileTree) (a : Archive) : Except Failure (List String) := namesIn t a.dir

def paths (t : FileTree) (a : Archive) : Except Failure (List Path) :=
  (a.names t).map fun ns => ns.map a.dir.child

def newest (t : FileTree) (a : Archive) : Except Failure (Option Path) :=
  (a.names t).map fun ns => ns.getLast?.map a.dir.child

/-- Opens the archive of a directory; new snapshots will be named after the newest one there. -/
def attach (t : FileTree) (dir : Path) : Except Failure Archive :=
  (namesIn t dir).map fun ns => ⟨dir, (ns.getLast?.bind Snapshots.timestamp?).getD 0⟩

/-- The store of the newest snapshot, or the empty store if there is none. -/
def restore (t : FileTree) (a : Archive) : Except Failure Store :=
  match a.names t with
  | .error e => .error e
  | .ok ns =>
    match ns.getLast? with
    | none => .ok ∅
    | some name =>
      match (t.lookup a.dir).bind fun d => t.read (d ++ [name]) with
      | .error f => .error (.snapshot (f.during "read" (a.dir.child name).text))
      | .ok bs =>
        match Snapshots.decode bs with
        | .error p =>
          .error (.serialization
            ("invalid snapshot " ++ (a.dir.child name).text ++ ": " ++ p.message))
        | .ok s => .ok s

/-- The steps of writing `bs` at a temporary place and moving it to another. -/
def steps (temporary place : Place) (bs : Bytes) : List FileAction :=
  [.create temporary, .extend temporary bs, .rename temporary place]

/-- Puts `bs` into a directory as the snapshot of a timestamp; gives the fault if there is one. -/
def store (dir : Path) (timestamp : Nat) (bs : Bytes) (t : FileTree) : Option Fault × FileTree :=
  match t.entry dir (Snapshots.temporaryName timestamp) with
  | .error f => (some f, t)
  | .ok temporary =>
    match t.entry dir (Snapshots.fileName timestamp) with
    | .error f => (some f, t)
    | .ok place => FileAction.runAll (steps temporary place bs) t

/-- Writes a snapshot of the store; gives its path and the archive that knows of it. -/
def write (a : Archive) (now : Nat) (s : Store) (t : FileTree) :
    Except Failure (Path × Archive) × FileTree :=
  match t.makeDirectories a.dir with
  | (.error f, t) => (.error (.snapshot (f.during "create" a.dir.text)), t)
  | (.ok _, t) =>
    let timestamp := nextTimestamp now a.last
    let path := a.dir.child (Snapshots.fileName timestamp)
    match store a.dir timestamp (Snapshots.encode s) t with
    | (some f, t) => (.error (.snapshot (f.during "write" path.text)), t)
    | (none, t) => (.ok (path, { a with last := timestamp }), t)

end Archive
end Keyline
