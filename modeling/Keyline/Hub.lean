import Keyline.Admission
import Keyline.Session

/-!
# Hubs

A hub joins the connections of a server to its worker. Connections are numbered in the order of
their arrival. What a served client sends is cut into lines as it comes, and every whole line goes
to the worker; the reply is kept until the client reads it. When a client has sent all it will
send, the bytes behind its last line feed are a line too, and its place is free again.
-/
namespace Keyline

structure Connection where
  served : Bool
  /-- Whether its client may send more. -/
  sending : Bool
  /-- The start of a line that is not complete. -/
  pending : Bytes := []
  /-- What was sent to the client and is not read. -/
  unread : Bytes := []
  deriving Repr, DecidableEq

def Connection.ofVerdict : Verdict → Connection
  | .served => { served := true, sending := true }
  | .busy => { served := false, sending := false, unread := Admission.busyLine }
  | .dropped => { served := false, sending := false }

structure Hub where
  worker : Worker
  admission : Admission
  /-- In the order of arrival. -/
  connections : List Connection := []
  /-- What was reported to the operator, in order. -/
  reports : List String := []

namespace Hub

/-- A connection arrives; its number is that of the connections before it. -/
def arrive (h : Hub) (c : Arrival) : Hub :=
  let (verdict, admission) := h.admission.arrive c
  { h with admission, connections := h.connections ++ [.ofVerdict verdict] }

def deliver (h : Hub) : Output Nat → Hub
  | .reply i text =>
    { h with
      connections := h.connections.modify i fun c =>
        { c with unread := c.unread ++ Wire.frame text } }
  | .report text => { h with reports := h.reports ++ [text] }

theorem foldl_deliver_reports (h : Hub) (reports : List String) :
    (reports.map .report).foldl deliver h = { h with reports := h.reports ++ reports } := by
  induction reports generalizing h with
  | nil => simp
  | cons text reports ih =>
    rw [List.map_cons, List.foldl_cons, ih, deliver]
    simp

def dispatch (h : Hub) (e : Event Nat) : Hub :=
  let (worker, outputs) := h.worker.step e
  outputs.foldl deliver { h with worker }

def tick (h : Hub) (now : Nat) : Hub := h.dispatch (.tick now)

/-- Sends the lines of a stream to the worker in the name of connection `i`. -/
def submit (h : Hub) (now i : Nat) (stream : Bytes) : Hub :=
  (Session.messages i stream).foldl (fun h m => h.dispatch (.message now m)) h

/-- The connection `i` if it is served and may bring more. -/
def live? (h : Hub) (i : Nat) : Option Connection :=
  h.connections[i]?.filter fun c => c.served && c.sending

def receive (h : Hub) (now i : Nat) (bytes : Bytes) : Hub :=
  match h.live? i with
  | none => h
  | some c =>
    let (whole, rest) := Wire.whole (c.pending ++ bytes)
    submit
      { h with connections := h.connections.modify i fun c => { c with pending := rest } }
      now i whole

/-- The client of connection `i` has sent all it will send. -/
def finish (h : Hub) (now i : Nat) : Hub :=
  match h.live? i with
  | none => h
  | some c =>
    submit
      { h with
        admission := h.admission.leave
        connections := h.connections.modify i fun c =>
          { c with sending := false, pending := [] } }
      now i c.pending

def unread (h : Hub) (i : Nat) : Bytes := (h.connections[i]?.map Connection.unread).getD []

def leaveUnread (h : Hub) (i : Nat) (rest : Bytes) : Hub :=
  { h with connections := h.connections.modify i fun c => { c with unread := rest } }

theorem reports_foldl {α : Type} {f : Hub → α → Hub} (hf : ∀ h a, h.reports <+: (f h a).reports)
    (h : Hub) (as : List α) : h.reports <+: (as.foldl f h).reports := by
  induction as generalizing h with
  | nil => exact List.prefix_refl _
  | cons a as ih => exact (hf h a).trans (ih (f h a))

theorem reports_dispatch (h : Hub) (e : Event Nat) : h.reports <+: (h.dispatch e).reports := by
  apply reports_foldl (h := { h with worker := (h.worker.step e).1 })
  intro h o
  cases o with
  | reply i text => exact List.prefix_refl _
  | report text => exact List.prefix_append _ _

theorem reports_submit {h h' : Hub} (same : h'.reports = h.reports) (now i : Nat)
    (stream : Bytes) : h.reports <+: (h'.submit now i stream).reports := by
  rw [← same]
  exact reports_foldl (fun h m => h.reports_dispatch (.message now m)) h' _

theorem reports_receive (h : Hub) (now i : Nat) (bytes : Bytes) :
    h.reports <+: (h.receive now i bytes).reports := by
  rw [receive]
  split
  · exact List.prefix_refl _
  · split
    refine reports_submit ?_ now i _
    rfl

end Hub
end Keyline
