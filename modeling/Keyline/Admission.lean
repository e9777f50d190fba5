import Keyline.Query.Basic
import Keyline.Wire

/-!
# Admission of connections

A server serves a bounded number of connections at a time. A connection that comes while all
places are taken is told so and sent away.
-/
namespace Keyline

/-- What happens to a connection that arrives: whether it can be used at all, whether it can be
set up, and whether a handler for it can be started. -/
structure Arrival where
  usable : Bool := true
  prepared : Bool := true
  started : Bool := true
  deriving Repr, DecidableEq

inductive Verdict
  | served
  | busy
  /-- Given up without a word. -/
  | dropped
  deriving Repr, DecidableEq

/-- How many connections are served, and how many may be. -/
structure Admission where
  limit : Nat
  active : Nat := 0
  deriving Repr, DecidableEq

namespace Admission

/-- What a connection that finds no place is sent. -/
def busyLine : Bytes := Wire.frame (Reply.error "server busy").text

def isFull (a : Admission) : Bool := a.limit ≤ a.active

def enter (a : Admission) : Admission := { a with active := a.active + 1 }

def leave (a : Admission) : Admission := { a with active := a.active - 1 }

/-- Starts the handler of a connection that has a place; one that cannot be started keeps none. -/
def start (a : Admission) (c : Arrival) : Verdict × Admission :=
  if c.started then (.served, a) else (.dropped, a.leave)

def arrive (a : Admission) (c : Arrival) : Verdict × Admission :=
  if !c.usable then (.dropped, a)
  else if a.isFull then (.busy, a)
  else if !c.prepared then (.dropped, a)
  else a.enter.start c

end Admission
end Keyline
