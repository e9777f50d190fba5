import Keyline.Query.Parse
import Keyline.Query.Basic

/-!
# Failures

Everything that can go wrong outside a query itself, with the text that reports it.
-/
namespace Keyline

inductive Failure
  | io (detail : String)
  | rejected (reason : Rejection)
  | appendLog (detail : String)
  | snapshot (detail : String)
  | serialization (detail : String)
  | network (detail : String)
  | unreachable (address : String) (attempts : Nat)
  | configuration (detail : String)
  | stopped
  | signal (detail : String)
  deriving Repr, DecidableEq

instance decidableEqExcept {ε α : Type} [DecidableEq ε] [DecidableEq α] :
    DecidableEq (Except ε α)
  | .error e, .error e' => decidable_of_iff (e = e') (Except.error.injEq e e').symm.to_iff
  | .ok a, .ok a' => decidable_of_iff (a = a') (Except.ok.injEq a a').symm.to_iff
  | .error _, .ok _ => isFalse nofun
  | .ok _, .error _ => isFalse nofun

namespace Failure

def message : Failure → String
  | io detail => "IO error: " ++ detail
  | rejected reason => reason.message
  | appendLog detail => "Append log write failed: " ++ detail
  | snapshot detail => "Snapshot failed: " ++ detail
  | serialization detail => "Serialization error: " ++ detail
  | network detail => "Network error: " ++ detail
  | unreachable address attempts =>
    "Could not reach " ++ address ++ " after " ++ toString attempts ++ " attempts"
  | configuration detail => "Configuration error: " ++ detail
  | stopped => "Command runtime has stopped"
  | signal detail => "Signal handler error: " ++ detail

def reply (f : Failure) : Reply := .error f.message

end Failure
end Keyline
