import Keyline.AppendLog
import Keyline.Config.Document
import Keyline.Query.Parse
import Keyline.Snapshots.Archive

/-!
# Databases

A database is a store with an archive of its snapshots and, if it is asked for, a log of its
changes. A command changes the store first and is then recorded, so a command that could not be
recorded has been applied. The log plays no part in restoring the store.
-/
namespace Keyline

structure Database where
  config : Config
  store : Store
  archive : Archive
  log : Option AppendLog
  /-- Changes since the store was restored or last saved. -/
  unsaved : Nat
  deriving DecidableEq

namespace Database

/-- Opens the database that a configuration describes, at clock reading `now`. -/
def start (c : Config) (now : Nat) (t : FileTree) : Except Failure Database × FileTree :=
  match t.makeDirectories c.dataDir with
  | (.error f, t) => (.error (.io f.message), t)
  | (.ok _, t) =>
    match Archive.attach t c.snapshotDir with
    | .error e => (.error e, t)
    | .ok archive =>
      match archive.restore t with
      | .error e => (.error e, t)
      | .ok store =>
        if c.logEnabled then
          match AppendLog.start c.logDir c.rotationThreshold now t with
          | (.error e, t) => (.error e, t)
          | (.ok log, t) => (.ok ⟨c, store, archive, some log, 0⟩, t)
        else (.ok ⟨c, store, archive, none, 0⟩, t)

structure Handled where
  result : Except Failure Reply
  database : Database
  files : FileTree

/-- Records a command that has been applied. -/
def record (db : Database) (now : Nat) (raw : String) (reply : Reply) (t : FileTree) : Handled :=
  match db.log with
  | none => ⟨.ok reply, db, t⟩
  | some log =>
    match log.record now raw t with
    | .ok (log, t) => ⟨.ok reply, { db with log := some log }, t⟩
    | .error e => ⟨.error e, db, t⟩

def handle (db : Database) (now : Nat) (raw : String) (t : FileTree) : Handled :=
  match Query.parse raw with
  | .error e => ⟨.ok (.error e.message), db, t⟩
  | .ok q =>
    let (reply, store) := db.store.apply q
    if q.mutates then
      record { db with store, unsaved := db.unsaved + 1 } now raw reply t
    else ⟨.ok reply, { db with store }, t⟩

/-- Saves the store if it changed since it was last saved; gives the path of the snapshot. -/
def tick (db : Database) (now : Nat) (t : FileTree) :
    Except Failure (Option Path × Database) × FileTree :=
  if db.unsaved = 0 then (.ok (none, db), t)
  else
    match db.archive.write now db.store t with
    | (.ok (path, archive), t) => (.ok (some path, { db with archive, unsaved := 0 }), t)
    | (.error e, t) => (.error e, t)

end Database
end Keyline
