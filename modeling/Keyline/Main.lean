import Keyline.Disk
import Keyline.Hub
import Keyline.Server
import Std.Time.DateTime.Timestamp

/-!
# The program

A server with one client, who sits at the standard streams: commands are read from standard input
and responses written to standard output, one line each. What the server reports goes to standard
error. The listen address is checked and nothing is bound to it.
-/
namespace Keyline.Program

/-- Milliseconds since 1970. -/
def now : IO Nat := return (← Std.Time.Timestamp.now).toMillisecondsSinceUnixEpoch.toInt.toNat

/-- The files that a server with these options needs. -/
def files (o : ServerOptions) : IO FileTree := do
  let base : Path := ⟨toString (← IO.currentDir)⟩
  let t ← Disk.survey .empty base
  let t := { t with base := base.names }
  let t ← match o.document with
    | none => pure t
    | some document => Disk.fetch t document
  match o.config t with
  | .error _ => return t
  | .ok c =>
    let t ← Disk.survey t c.dataDir
    let t ← Disk.survey t c.snapshotDir
    let t ← Disk.survey t c.logDir
    match (Archive.attach t c.snapshotDir).bind (·.newest t) with
    | .ok (some newest) => Disk.fetch t newest
    | _ => return t

/-- The next line of a stream with its line feed; nothing at the end of the stream. -/
def readLine (input : IO.FS.Stream) : IO Bytes := do
  let mut line : Bytes := []
  repeat
    match (← input.read 1).toList with
    | [b] =>
      line := b :: line
      if b = Wire.lineFeed then break
    | _ => break
  return line.reverse

/-- Shows the client and the operator what is new for them. -/
def flush (h : Hub) : IO Hub := do
  let output ← IO.getStdout
  output.write ⟨(h.unread 0).toArray⟩
  output.flush
  h.reports.forM IO.eprintln
  return { h.leaveUnread 0 [] with reports := [] }

/-- Lets something happen at the hub, and saves what came of it before it is shown. -/
def advance (h : Hub) (act : Nat → Hub → Hub) : IO Hub := do
  let after := act (← now) h
  Disk.save h.worker after.worker
  flush after

/-- Serves the client until its input ends, and makes snapshots as they are due. -/
def serve (h : Hub) : IO Unit := do
  let input ← IO.getStdin
  let interval := h.worker.database.config.tickInterval
  let mut hub ← flush h
  let mut due := (← IO.monoMsNow) + interval.getD 0
  let mut line ← IO.asTask (readLine input)
  repeat
    if ← IO.hasFinished line then
      let bytes ← IO.ofExcept line.get
      if bytes = [] then break
      hub ← advance hub fun now h => h.receive now 0 bytes
      line ← IO.asTask (readLine input)
    else if interval.isSome && due ≤ (← IO.monoMsNow) then
      hub ← advance hub fun now h => h.tick now
      due := (← IO.monoMsNow) + interval.getD 0
    else
      IO.sleep 1
  discard (advance hub fun now h => h.finish now 0)

def start (o : ServerOptions) : IO UInt32 := do
  let t ← files o
  match Server.start o (fun _ => true) (← now) t with
  | (.error text, t') =>
    (t'.nodes.map Prod.fst).reverse.forM (Disk.put t t')
    IO.eprintln text
    return 1
  | (.ok s, t') =>
    (t'.nodes.map Prod.fst).reverse.forM (Disk.put t t')
    let hub : Hub :=
      { worker := ⟨s.database, t'⟩, admission := { limit := s.config.maxConnections } }
    serve (hub.arrive {})
    return 0

end Keyline.Program

def main (args : List String) : IO UInt32 := do
  match Keyline.ServerOptions.read args (← IO.getEnv "RELAYKV_CONFIG") with
  | .error .help =>
    IO.println Keyline.ServerOptions.helpText
    return 0
  | .error .version =>
    IO.print Keyline.ServerOptions.versionText
    return 0
  | .error e =>
    IO.eprintln ("error: " ++ e.message)
    return 2
  | .ok o => Keyline.Program.start o
