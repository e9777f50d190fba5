import Keyline.Client
import Keyline.Hub

/-!
# Links

A link is one client's use of a connection to a hub: it sends a command, and reads the response
before it sends the next one. Between requests the server may make snapshots.
-/
namespace Keyline

/-- A client at connection `number` of a hub. -/
structure Link where
  hub : Hub
  number : Nat

namespace Link

def connect (h : Hub) : Link := ⟨h.arrive {}, h.connections.length⟩

/-- Sends a command at clock reading `now` and reads its response. -/
def request (l : Link) (now : Nat) (command : String) : Except Failure String × Link :=
  match Client.request command with
  | .error e => (.error e, l)
  | .ok line =>
    let hub := l.hub.receive now l.number line
    match Client.response (hub.unread l.number) with
    | .error e => (.error e, { l with hub })
    | .ok (text, rest) => (.ok text, { l with hub := hub.leaveUnread l.number rest })

/-- What happens while a client has a server for itself. -/
inductive Happening
  | request (now : Nat) (command : String)
  | tick (now : Nat)

def commands (hs : List Happening) : List String :=
  hs.filterMap fun
    | .request _ command => some command
    | .tick _ => none

/-- Lets things happen one after another, with the outcomes of the requests. -/
def use (l : Link) : List Happening → List (Except Failure String) × Link
  | [] => ([], l)
  | .tick now :: hs => use { l with hub := l.hub.tick now } hs
  | .request now command :: hs =>
    let more := (l.request now command).2.use hs
    ((l.request now command).1 :: more.1, more.2)

theorem reports_request (l : Link) (now : Nat) (command : String) :
    l.hub.reports <+: (l.request now command).2.hub.reports := by
  rw [request]
  split
  · exact List.prefix_refl _
  · dsimp only
    split <;> exact l.hub.reports_receive now l.number _

theorem reports_use (l : Link) (hs : List Happening) :
    l.hub.reports <+: (l.use hs).2.hub.reports := by
  induction hs generalizing l with
  | nil => exact List.prefix_refl _
  | cons h hs ih =>
    cases h with
    | tick now =>
      exact (l.hub.reports_dispatch (.tick now)).trans (ih { l with hub := l.hub.tick now })
    | request now command => exact (l.reports_request now command).trans (ih _)

end Link
end Keyline
