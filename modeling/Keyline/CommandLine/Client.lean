import Keyline.CommandLine.Grammar

/-!
# The command line of the client

A client sends one command that is given as an option, or the lines of its standard input.
-/
namespace Keyline

structure ClientOptions where
  server : String := "127.0.0.1:7878"
  attempts : Nat := 5
  retryDelay : Nat := 1000
  command : Option String := none
  deriving Repr, DecidableEq

namespace ClientOptions

open CommandLine

inductive Id
  | server | attempts | retryDelay | command | help
  deriving Repr, DecidableEq

/-- A 32-bit number; zero may have a minus sign. -/
def attempts? (s : String) : Option Nat :=
  match s.toList with
  | '-' :: ds => if ds ≠ [] ∧ ds.all (· = '0') then some 0 else none
  | _ => unsigned? UInt32.size s

def delay? : String → Option Nat := unsigned? UInt64.size

def specs : List (Spec Id) :=
  [⟨.server, "server", some 's', .value, fun _ => none⟩,
    ⟨.attempts, "attempts", none, .value, faultUnless attempts?⟩,
    ⟨.retryDelay, "retry-delay-ms", none, .value, faultUnless delay?⟩,
    ⟨.command, "command", some 'c', .value, fun _ => none⟩,
    ⟨.help, "help", some 'h', .ask .help, fun _ => none⟩]

def read (args : List String) : Except UsageError ClientOptions :=
  (CommandLine.read specs args).map fun given => {
    server := (valueOf .server given).getD "127.0.0.1:7878"
    attempts := ((valueOf .attempts given).bind attempts?).getD 5
    retryDelay := ((valueOf .retryDelay given).bind delay?).getD 1000
    command := valueOf .command given }

end ClientOptions
end Keyline
