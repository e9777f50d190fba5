import Keyline.CommandLine.Grammar
import Keyline.Config.Document

/-!
# The command line of the server

Options of the server override the configuration document, which overrides the defaults.
-/
namespace Keyline

structure ServerOptions where
  document : Option Path := none
  dataDir : Option Path := none
  listen : Option String := none
  maxConnections : Option Nat := none
  snapshotInterval : Option Nat := none
  noSnapshots : Bool := false
  noAppendLog : Bool := false
  deriving Repr, DecidableEq

namespace ServerOptions

open CommandLine

inductive Id
  | document | dataDir | listen | maxConnections | snapshotInterval | noSnapshots | noAppendLog
  | help | version
  deriving Repr, DecidableEq

def versionText : String := "relaykv-server 0.1.0\n"

/-- A path may not be empty. -/
def pathFault (s : String) : Option UsageError := if s = "" then some .invalidValue else none

def count? : String → Option Nat := unsigned? UInt64.size

def specs : List (Spec Id) :=
  [⟨.document, "config", some 'c', .value, pathFault⟩,
    ⟨.dataDir, "data-dir", some 'd', .value, pathFault⟩,
    ⟨.listen, "listen", some 'l', .value, fun _ => none⟩,
    ⟨.maxConnections, "max-connections", some 'm', .value, faultUnless count?⟩,
    ⟨.snapshotInterval, "snapshot-interval-ms", none, .value, faultUnless count?⟩,
    ⟨.noSnapshots, "no-snapshots", none, .switch, fun _ => none⟩,
    ⟨.noAppendLog, "no-append-log", none, .switch, fun _ => none⟩,
    ⟨.help, "help", some 'h', .ask .help, fun _ => none⟩,
    ⟨.version, "version", some 'V', .ask .version, fun _ => none⟩]

def helpText : String := "\n".intercalate ("Options:" :: specs.map Spec.usage)

/-- Reads the arguments; `environment` names a document where no argument does. -/
def read (args : List String) (environment : Option String) :
    Except UsageError ServerOptions :=
  match CommandLine.read specs args with
  | .error e => .error e
  | .ok given =>
    match (valueOf .document given).or environment with
    | some "" => .error .invalidValue
    | document => .ok {
        document := document.map Path.mk
        dataDir := (valueOf .dataDir given).map Path.mk
        listen := valueOf .listen given
        maxConnections := (valueOf .maxConnections given).bind count?
        snapshotInterval := (valueOf .snapshotInterval given).bind count?
        noSnapshots := (valueOf .noSnapshots given).isSome
        noAppendLog := (valueOf .noAppendLog given).isSome }

def override (o : ServerOptions) (c : Config) : Config :=
  { c with
    dataDir := o.dataDir.getD c.dataDir
    listenAddress := o.listen.getD c.listenAddress
    maxConnections := o.maxConnections.getD c.maxConnections
    snapshotInterval := o.snapshotInterval.getD c.snapshotInterval
    snapshotsEnabled := c.snapshotsEnabled && !o.noSnapshots
    logEnabled := c.logEnabled && !o.noAppendLog }

/-- The configuration that the options and the document they name ask for. -/
def config (o : ServerOptions) (t : FileTree) : Except Failure Config :=
  match o.document with
  | none => .ok (o.override {})
  | some path => (Config.ofFile t path).map o.override

end ServerOptions
end Keyline
