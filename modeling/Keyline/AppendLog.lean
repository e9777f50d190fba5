import Keyline.Timestamps
import Keyline.Failure
import Keyline.Files.Walk

/-!
# The append log

Changes of the store are recorded, one line each, in files named by timestamps. When the file in
use holds more entries than the threshold the next entry goes to a new file. The log is never read
back.
-/
namespace Keyline

/-- A log whose file in use is named by `timestamp`. -/
structure AppendLog where
  dir : Path
  threshold : Nat
  timestamp : Nat
  file : OpenFile
  entries : Nat
  deriving Repr, DecidableEq

namespace AppendLog

def fileName (timestamp : Nat) : String := toString timestamp ++ ".kvslog"

def path (log : AppendLog) : Path := log.dir.child (fileName log.timestamp)

/-- Opens the file of a timestamp, which counts as holding no entry. -/
def openFile (dir : Path) (threshold timestamp : Nat) (t : FileTree) :
    Except Failure (AppendLog × FileTree) :=
  match (t.entry dir (fileName timestamp)).bind t.openAppend with
  | .ok (file, t') => .ok (⟨dir, threshold, timestamp, file, 0⟩, t')
  | .error f => .error (.appendLog (f.during "open" (dir.child (fileName timestamp)).text))

/-- Starts a log in a directory, which is made if it is not there. -/
def start (dir : Path) (threshold now : Nat) (t : FileTree) :
    Except Failure AppendLog × FileTree :=
  match t.makeDirectories dir with
  | (.error f, t') => (.error (.appendLog (f.during "create" dir.text)), t')
  | (.ok _, t') =>
    match openFile dir threshold (nextTimestamp now 0) t' with
    | .ok (log, t'') => (.ok log, t'')
    | .error e => (.error e, t')

def rotate (log : AppendLog) (now : Nat) (t : FileTree) : Except Failure (AppendLog × FileTree) :=
  openFile log.dir log.threshold (nextTimestamp now log.timestamp) t

def line (raw : String) : Bytes := Utf8.encode (raw ++ "\n")

def put (log : AppendLog) (raw : String) (t : FileTree) : AppendLog × FileTree :=
  ({ log with entries := log.entries + 1 }, t.append log.file (line raw))

/-- Records a command, in a new file if the one in use holds more than the threshold. -/
def record (log : AppendLog) (now : Nat) (raw : String) (t : FileTree) :
    Except Failure (AppendLog × FileTree) :=
  if log.threshold < log.entries then
    match log.rotate now t with
    | .ok (log', t') => .ok (log'.put raw t')
    | .error e => .error e
  else .ok (log.put raw t)

end AppendLog
end Keyline
