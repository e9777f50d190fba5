/-!
# Timestamps

Files are named by clock readings in milliseconds. Within a sequence of files a name never
repeats, even if the clock stands still or steps back. A snapshot file is named by a timestamp
below 2^64 in decimal digits, followed by a fixed ending.

A timestamp is any natural number here. On a machine it is a word of 64 bits, and the greatest of
these has no next one. A directory can hold a snapshot of that name; what comes after it is left
out.
-/
namespace Keyline

/-- The timestamp after `last` at clock reading `now`. -/
def nextTimestamp (now last : Nat) : Nat := max now (last + 1)

theorem lt_nextTimestamp (now last : Nat) : last < nextTimestamp now last :=
  Nat.lt_of_lt_of_le (Nat.lt_succ_self _) (Nat.le_max_right _ _)

namespace Snapshots

def ending : String := "-snapshot.json"

def fileName (timestamp : Nat) : String := toString timestamp ++ ending

/-- The name under which a snapshot is written before it is complete. -/
def temporaryName (timestamp : Nat) : String := fileName timestamp ++ ".tmp"

def beforeEnding (last cs : List Char) : Option (List Char) :=
  if last.isSuffixOf cs then some (cs.take (cs.length - last.length)) else none

/-- The timestamp in a name; leading zeros are allowed. -/
def timestamp? (name : String) : Option Nat :=
  match beforeEnding ending.toList name.toList with
  | none => none
  | some ds =>
    if ds ≠ [] ∧ ds.all Char.isDigit then
      let t := Nat.ofDigitChars 10 ds 0
      if t < UInt64.size then some t else none
    else none

end Snapshots
end Keyline
