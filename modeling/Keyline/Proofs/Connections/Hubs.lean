import Keyline.Hub
import Keyline.Proofs.Connections.Answers

/-!
# What comes to a hub

Each thing that may come to a hub changes at most one connection, and the worker as handling lines
one after another does. A client whose side is closed stays so.
-/
namespace Keyline

inductive Input
  | arrive (c : Arrival)
  | receive (now i : Nat) (bytes : Bytes)
  | finish (now i : Nat)
  /-- The client of connection `i` reads `n` bytes, or all there are. -/
  | read (i n : Nat)
  | tick (now : Nat)

namespace Hub

/-- Connection `i`; one that has not arrived is taken to have a place. -/
def connection (h : Hub) (i : Nat) : Connection :=
  h.connections[i]?.getD { served := true, sending := true }

def meet (h : Hub) : Input → Hub
  | .arrive c => h.arrive c
  | .receive now i bytes => h.receive now i bytes
  | .finish now i => h.finish now i
  | .read i n => h.leaveUnread i ((h.unread i).drop n)
  | .tick now => h.tick now

def run (h : Hub) (xs : List Input) : Hub := xs.foldl meet h

/-- What a hub takes from client `i`. -/
def taken (h : Hub) (i : Nat) : Input → Bytes
  | .receive _ j bytes => if j = i ∧ (h.live? i).isSome then bytes else []
  | _ => []

/-- What client `i` reads. -/
def given (h : Hub) (i : Nat) : Input → Bytes
  | .read j n => if j = i then (h.unread i).take n else []
  | _ => []

def allTaken (h : Hub) (i : Nat) : List Input → Bytes
  | [] => []
  | x :: xs => h.taken i x ++ (h.meet x).allTaken i xs

def allGiven (h : Hub) (i : Nat) : List Input → Bytes
  | [] => []
  | x :: xs => h.given i x ++ (h.meet x).allGiven i xs

theorem connection_eq {h : Hub} {i : Nat} {c : Connection} (found : h.connections[i]? = some c) :
    h.connection i = c := by
  rw [connection, found]
  rfl

theorem connection_modify {h h' : Hub} {i : Nat} {g : Connection → Connection} {c : Connection}
    (change : h'.connections = h.connections.modify i g) (found : h.connections[i]? = some c) :
    h'.connection i = g c := by
  apply connection_eq
  rw [change, List.getElem?_modify, found]
  simp

theorem connection_modify_other {h h' : Hub} {i j : Nat} {g : Connection → Connection}
    (change : h'.connections = h.connections.modify i g) (hj : j ≠ i) :
    h'.connection j = h.connection j := by
  rw [connection, connection, change, List.getElem?_modify]
  simp [Ne.symm hj]

theorem dispatch_line (h : Hub) (now i : Nat) (line : Bytes) :
    (h.dispatch (.message now (Session.message i line))).worker =
        (h.worker.answerLine now line).1 ∧
      (h.dispatch (.message now (Session.message i line))).connections =
        h.connections.modify i fun c =>
          { c with unread := c.unread ++ Wire.frame (h.worker.answerLine now line).2 } := by
  obtain ⟨reports, hstep⟩ := h.worker.step_line now i line
  rw [dispatch, hstep]
  dsimp only
  rw [List.foldl_append, foldl_deliver_reports]
  exact ⟨rfl, rfl⟩

theorem submit_eq (h : Hub) (now i : Nat) (stream : Bytes) :
    let done := h.worker.talk ((Wire.lines stream).map (Turn.line now i))
    (h.submit now i stream).worker = done.1 ∧
      (h.submit now i stream).connections = h.connections.modify i fun c =>
        { c with unread := c.unread ++ Session.written (done.2.map Answer.text) } := by
  rw [submit, Session.messages]
  induction Wire.lines stream generalizing h with
  | nil =>
    refine ⟨rfl, ?_⟩
    simp only [Worker.talk, Session.written, List.map_nil, List.flatMap_nil, List.append_nil]
    exact (List.modify_id _ _).symm
  | cons line ls ih =>
    obtain ⟨hw, hc⟩ := h.dispatch_line now i line
    obtain ⟨hworker, hconnections⟩ := ih (h.dispatch (.message now (Session.message i line)))
    rw [hw] at hworker hconnections
    refine ⟨hworker, ?_⟩
    rw [List.map_cons, List.foldl_cons, hconnections, hc, List.modify_modify_eq]
    simp [Worker.talk, Session.written, Function.comp_def]

theorem live?_eq_some {h : Hub} {i : Nat} {c : Connection} (live : h.live? i = some c) :
    h.connections[i]? = some c ∧ c.served = true ∧ c.sending = true := by
  obtain ⟨found, hc⟩ := Option.filter_eq_some_iff.1 live
  rw [Bool.and_eq_true] at hc
  exact ⟨found, hc⟩

theorem receive_eq {h : Hub} {i : Nat} {c : Connection} (live : h.live? i = some c) (now : Nat)
    (bytes : Bytes) :
    let stream := c.pending ++ bytes
    let done := h.worker.talk ((Wire.lines (Wire.whole stream).1).map (Turn.line now i))
    (h.receive now i bytes).worker = done.1 ∧
      (h.receive now i bytes).connections = h.connections.modify i fun c =>
        { c with
          pending := (Wire.whole stream).2
          unread := c.unread ++ Session.written (done.2.map Answer.text) } := by
  intro stream done
  rw [receive, live]
  dsimp only
  obtain ⟨hworker, hconnections⟩ := submit_eq
    { h with connections := h.connections.modify i fun c =>
      { c with pending := (Wire.whole stream).2 } } now i (Wire.whole stream).1
  refine ⟨hworker, ?_⟩
  rw [hconnections, List.modify_modify_eq]
  rfl

theorem finish_eq {h : Hub} {i : Nat} {c : Connection} (live : h.live? i = some c) (now : Nat) :
    let done := h.worker.talk ((Wire.lines c.pending).map (Turn.line now i))
    (h.finish now i).worker = done.1 ∧
      (h.finish now i).connections = h.connections.modify i fun c =>
        { c with
          sending := false
          pending := []
          unread := c.unread ++ Session.written (done.2.map Answer.text) } := by
  intro done
  rw [finish, live]
  dsimp only
  obtain ⟨hworker, hconnections⟩ := submit_eq
    { h with
      admission := h.admission.leave
      connections := h.connections.modify i fun c =>
        { c with sending := false, pending := [] } } now i c.pending
  refine ⟨hworker, ?_⟩
  rw [hconnections, List.modify_modify_eq]
  rfl

theorem tick_eq (h : Hub) (now : Nat) :
    (h.tick now).worker = (h.worker.tick now : Worker × List (Output Nat)).1 ∧
      (h.tick now).connections = h.connections := by
  obtain ⟨reports, houtputs⟩ := h.worker.outputs_tick Nat now
  have hstep : h.worker.step (.tick now) = ((h.worker.tick now).1, reports.map .report) :=
    Prod.ext rfl houtputs
  rw [tick, dispatch, hstep]
  dsimp only
  rw [foldl_deliver_reports]
  exact ⟨rfl, rfl⟩

theorem connection_arrive {h : Hub} {a : Arrival} {i : Nat}
    (served : ((h.arrive a).connection i).served = true) :
    (h.arrive a).connection i = h.connection i := by
  have hc : (h.arrive a).connections =
      h.connections ++ [.ofVerdict (h.admission.arrive a).1] := rfl
  rw [connection, hc] at served ⊢
  rcases Nat.lt_trichotomy i h.connections.length with hi | rfl | hi
  · rw [List.getElem?_append_left hi, connection]
  · rw [List.getElem?_concat_length] at served ⊢
    rw [connection, List.getElem?_eq_none (Nat.le_refl _)]
    cases hv : (h.admission.arrive a).1 with
    | served => rfl
    | busy =>
      rw [hv] at served
      cases served
    | dropped =>
      rw [hv] at served
      cases served
  · have hlength :
        (h.connections ++ [Connection.ofVerdict (h.admission.arrive a).1]).length ≤ i := by
      rw [List.length_append]
      exact hi
    rw [connection, List.getElem?_eq_none hlength, List.getElem?_eq_none (Nat.le_of_lt hi)]

/-- Client `i` came and will send no more. -/
def Ended (h : Hub) (i : Nat) : Prop := ∃ c, h.connections[i]? = some c ∧ c.sending = false

theorem Ended.modify {h h' : Hub} {i j : Nat} {g : Connection → Connection} (ended : h.Ended i)
    (change : h'.connections = h.connections.modify j g)
    (keeps : ∀ c, c.sending = false → (g c).sending = false) : h'.Ended i := by
  obtain ⟨c, found, hc⟩ := ended
  rw [Ended, change, List.getElem?_modify, found]
  refine ⟨_, rfl, ?_⟩
  dsimp only
  split
  · exact keeps c hc
  · exact hc

theorem Ended.meet {h : Hub} {i : Nat} (ended : h.Ended i) (x : Input) : (h.meet x).Ended i := by
  cases x with
  | arrive a =>
    obtain ⟨c, found, hc⟩ := ended
    refine ⟨c, ?_, hc⟩
    change (h.connections ++ [Connection.ofVerdict (h.admission.arrive a).1])[i]? = some c
    rw [List.getElem?_append_left (List.getElem?_eq_some_iff.1 found).1, found]
  | receive now j bytes =>
    cases live : h.live? j with
    | none =>
      rw [Hub.meet, receive, live]
      exact ended
    | some c => exact ended.modify (receive_eq live now bytes).2 fun _ hc => hc
  | finish now j =>
    cases live : h.live? j with
    | none =>
      rw [Hub.meet, finish, live]
      exact ended
    | some c => exact ended.modify (finish_eq live now).2 fun _ _ => rfl
  | read j n => exact ended.modify rfl fun _ hc => hc
  | tick now =>
    rw [Ended, Hub.meet, (h.tick_eq now).2]
    exact ended

theorem Ended.live? {h : Hub} {i : Nat} (ended : h.Ended i) : h.live? i = none := by
  obtain ⟨c, found, hc⟩ := ended
  rw [Hub.live?, found]
  simp [hc]

theorem Ended.allTaken {h : Hub} {i : Nat} (ended : h.Ended i) (xs : List Input) :
    h.allTaken i xs = [] := by
  induction xs generalizing h with
  | nil => rfl
  | cons x xs ih =>
    rw [Hub.allTaken, ih (ended.meet x), List.append_nil]
    cases x with
    | receive now j bytes => simp [taken, ended.live?]
    | _ => rfl

theorem ended_finish {h : Hub} {i : Nat} {c : Connection} (live : h.live? i = some c) (now : Nat) :
    (h.finish now i).Ended i := by
  rw [Ended, (finish_eq live now).2, List.getElem?_modify, (live?_eq_some live).1]
  exact ⟨_, rfl, by simp⟩

end Hub

end Keyline
