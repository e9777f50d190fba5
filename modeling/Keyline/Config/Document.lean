import Keyline.Failure
import Keyline.Files.Walk
import Keyline.Json.Problem

/-!
# Configuration

Settings of a server have the values given here unless something else is asked for. A configuration
document is a JSON object with a member for each setting that differs from its default, or a list of
the settings in their fixed order. `null` leaves a setting as it is. A member must be known, may
occur once, and must have a value of its type.
-/
namespace Keyline

/-- Times are in milliseconds. -/
structure Config where
  dataDir : Path := ⟨"./relaykv_data"⟩
  logEnabled : Bool := true
  rotationThreshold : Nat := 5
  snapshotsEnabled : Bool := true
  snapshotInterval : Nat := 10000
  listenAddress : String := "127.0.0.1:7878"
  maxConnections : Nat := 1024
  connectAttempts : Nat := 5
  retryDelay : Nat := 1000
  deriving Repr, DecidableEq, Inhabited

namespace Config

def snapshotDir (c : Config) : Path := c.dataDir.child "snapshots"

def logDir (c : Config) : Path := c.dataDir.child "logs"

/-- How often a snapshot is due, unless snapshots are off. -/
def tickInterval (c : Config) : Option Nat :=
  if c.snapshotsEnabled then some c.snapshotInterval else none

open Json (Token Problem)

inductive Field
  | dataDir | logEnabled | rotationThreshold | snapshotsEnabled | snapshotInterval
  | listenAddress | maxConnections | connectAttempts | retryDelay
  deriving Repr, DecidableEq

namespace Field

def name : Field → String
  | dataDir => "data_dir"
  | logEnabled => "append_log_enabled"
  | rotationThreshold => "log_rotation_threshold"
  | snapshotsEnabled => "snapshot_enabled"
  | snapshotInterval => "snapshot_interval_ms"
  | listenAddress => "listen_addr"
  | maxConnections => "max_connections"
  | connectAttempts => "connect_attempts"
  | retryDelay => "connect_retry_delay_ms"

/-- The order of the settings in a list. -/
def all : List Field :=
  [dataDir, logEnabled, rotationThreshold, snapshotsEnabled, snapshotInterval, listenAddress,
    maxConnections, connectAttempts, retryDelay]

def ofName? (n : String) : Option Field := all.find? (·.name = n)

@[simp] theorem ofName?_name (f : Field) : ofName? f.name = some f := by cases f <;> decide

end Field

/-- The settings that a document makes. -/
structure Overlay where
  dataDir : Option Path := none
  logEnabled : Option Bool := none
  rotationThreshold : Option Nat := none
  snapshotsEnabled : Option Bool := none
  snapshotInterval : Option Nat := none
  listenAddress : Option String := none
  maxConnections : Option Nat := none
  connectAttempts : Option Nat := none
  retryDelay : Option Nat := none
  deriving Repr, DecidableEq

namespace Overlay

def apply (o : Overlay) (c : Config) : Config where
  dataDir := o.dataDir.getD c.dataDir
  logEnabled := o.logEnabled.getD c.logEnabled
  rotationThreshold := o.rotationThreshold.getD c.rotationThreshold
  snapshotsEnabled := o.snapshotsEnabled.getD c.snapshotsEnabled
  snapshotInterval := o.snapshotInterval.getD c.snapshotInterval
  listenAddress := o.listenAddress.getD c.listenAddress
  maxConnections := o.maxConnections.getD c.maxConnections
  connectAttempts := o.connectAttempts.getD c.connectAttempts
  retryDelay := o.retryDelay.getD c.retryDelay

def text (wanted : String) : Token → Except Problem String
  | .string s => .ok s
  | t => .error (.atToken wanted t)

def flag : Token → Except Problem Bool
  | .bool b => .ok b
  | t => .error (.atToken "a boolean" t)

/-- Reads a number of the given width in bits. -/
def count (bits : Nat) (wanted : String) : Token → Except Problem Nat
  | .integer n =>
    if 0 ≤ n ∧ n < Nat.pow 2 bits then .ok n.toNat else .error (.outOfRange n wanted)
  | t => .error (.atToken wanted t)

/-- Reads a value that may be left out by writing `null`. -/
def optional {α : Type} (read : Token → Except Problem α) : Token → Except Problem (Option α)
  | .null => .ok none
  | t => (read t).map some

def assign (o : Overlay) : Field → Token → Except Problem Overlay
  | .dataDir, t =>
    (optional (text "path string") t).map fun v => { o with dataDir := v.map Path.mk }
  | .logEnabled, t => (optional flag t).map fun v => { o with logEnabled := v }
  | .rotationThreshold, t =>
    (optional (count 64 "usize") t).map fun v => { o with rotationThreshold := v }
  | .snapshotsEnabled, t => (optional flag t).map fun v => { o with snapshotsEnabled := v }
  | .snapshotInterval, t =>
    (optional (count 64 "u64") t).map fun v => { o with snapshotInterval := v }
  | .listenAddress, t =>
    (optional (text "a string") t).map fun v => { o with listenAddress := v }
  | .maxConnections, t =>
    (optional (count 64 "usize") t).map fun v => { o with maxConnections := v }
  | .connectAttempts, t =>
    (optional (count 32 "u32") t).map fun v => { o with connectAttempts := v }
  | .retryDelay, t => (optional (count 64 "u64") t).map fun v => { o with retryDelay := v }

/-- The field that a member names, if it was not named before. -/
def fieldOf (seen : List Field) (name : String) : Except Problem Field :=
  match Field.ofName? name with
  | none => .error (.unknownField name (Field.all.map Field.name))
  | some f => if f ∈ seen then .error (.duplicateField name) else .ok f

/-- Reads members up to the end of the document; at least one must come. -/
def readMembers (seen : List Field) (o : Overlay) : List Token → Except Problem Overlay
  | .string name :: ts =>
    match fieldOf seen name with
    | .error p => .error p
    | .ok f =>
      match ts with
      | .colon :: t :: ts =>
        match o.assign f t with
        | .error p => .error p
        | .ok o =>
          match ts with
          | [.endObject] => .ok o
          | .comma :: ts => readMembers (f :: seen) o ts
          | _ => .error .malformed
      | _ => .error .malformed
  | _ => .error .malformed

/-- Reads the values of `fields` up to the end of the document; at least one must come. -/
def readItems (o : Overlay) : List Field → List Token → Except Problem Overlay
  | f :: fields, t :: ts =>
    match o.assign f t with
    | .error p => .error p
    | .ok o =>
      match ts with
      | [.endList] => .ok o
      | .comma :: ts => readItems o fields ts
      | _ => .error .malformed
  | _, _ => .error .malformed

def read : List Token → Except Problem Overlay
  | [.beginObject, .endObject] | [.beginList, .endList] => .ok {}
  | .beginObject :: ts => readMembers [] {} ts
  | .beginList :: ts => readItems {} Field.all ts
  | t :: _ => .error (.atToken "struct FileConfig" t)
  | [] => .error .malformed

end Overlay

/-- The defaults overlaid with the document at `path`; a missing document changes nothing. -/
def ofFile (t : FileTree) (path : Path) : Except Failure Config :=
  match t.readPath path with
  | .error .absent => .ok {}
  | .error f => .error (.configuration (f.during "read" path.text))
  | .ok bs =>
    match Utf8.decode? bs with
    | none => .error (.configuration (Fault.notText.during "read" path.text))
    | some s =>
      match Overlay.read (Token.scan s.toList) with
      | .error p =>
        .error (.configuration ("invalid config file " ++ path.text ++ ": " ++ p.message))
      | .ok o => .ok (o.apply {})

end Config
end Keyline
