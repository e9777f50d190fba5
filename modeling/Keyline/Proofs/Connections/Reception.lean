import Mathlib.Logic.Relation
import Keyline.Admission
import Keyline.Proofs.Connections.Exchange

/-!
# Reception of connections

One acceptor takes connections, one after the other, and starts a handler for each that finds a
place. The handlers work beside it and end when they will, so places become free between any two
things that the acceptor does. A place is taken before the handler is started and is given up by
the handler at its end, or by the acceptor if the handler cannot be started.
-/
namespace Keyline

namespace Admission

theorem arrive_eq_served_iff {a : Admission} {c : Arrival} : (a.arrive c).1 = .served ↔
    (c.usable = true ∧ c.prepared = true ∧ c.started = true) ∧ a.active < a.limit := by
  grind [arrive, isFull, start]

theorem arrive_eq_busy_iff {a : Admission} {c : Arrival} : (a.arrive c).1 = .busy ↔
    c.usable = true ∧ a.limit ≤ a.active := by
  grind [arrive, isFull, start]

theorem busyLine_eq : busyLine = Utf8.encode "ERR server busy\n" := by decide +kernel

end Admission

/-- A connection that the acceptor deals with, and how many handlers were at work when it looked for
a place. -/
structure Dispatch where
  arrival : Arrival
  found : Nat
  deriving Repr, DecidableEq

/-- How far the acceptor is with a connection. -/
inductive Stage
  | free
  /-- All places are taken, and the client is not told yet. -/
  | refusing (d : Dispatch)
  /-- There was a place. -/
  | admitted (d : Dispatch)
  /-- The place is taken, and the handler is not started yet. -/
  | entered (d : Dispatch)
  deriving Repr, DecidableEq

/-- Connections are numbered in the order in which they are decided on. -/
structure Reception where
  exchange : Exchange Nat
  admission : Admission
  stage : Stage := .free
  decided : List (Dispatch × Verdict) := []
  /-- The handlers that ended, and how. -/
  ended : List (Nat × Except Failure Unit) := []

namespace Reception

/-- A reception with `m` places, to which connection `i` is going to send the stream `i`. -/
def opened (m : Nat) (w : Worker) (streams : Nat → Bytes) : Reception :=
  { exchange := .opened w streams, admission := { limit := m } }

def verdict? (r : Reception) (i : Nat) : Option Verdict := r.decided[i]?.map Prod.snd

/-- The handlers that were started and have not ended. -/
def handlers (r : Reception) : List Nat :=
  (List.range r.decided.length).filter fun i =>
    r.verdict? i = some .served ∧ i ∉ r.ended.map Prod.fst

/-- The acceptor is done with a connection. -/
def settle (r : Reception) (d : Dispatch) (v : Verdict) : Reception :=
  { r with stage := .free, decided := r.decided ++ [(d, v)] }

def accept (r : Reception) (c : Arrival) : Reception :=
  let d : Dispatch := ⟨c, r.handlers.length⟩
  if !c.usable then r.settle d .dropped
  else if r.admission.isFull then { r with stage := .refusing d }
  else { r with stage := .admitted d }

/-- Writes to a connection that has no handler. -/
def tell (r : Reception) (i : Nat) (bytes : Bytes) : Reception :=
  let p := r.exchange.ports i
  { r with exchange := r.exchange.setPort i { p with written := p.written ++ bytes } }

def proceed (r : Reception) : Reception :=
  match r.stage with
  | .free => r
  | .refusing d => (r.tell r.decided.length Admission.busyLine).settle d .busy
  | .admitted d =>
    if d.arrival.prepared then { r with admission := r.admission.enter, stage := .entered d }
    else r.settle d .dropped
  | .entered d =>
    let (verdict, admission) := r.admission.start d.arrival
    { r with admission }.settle d verdict

def finish (r : Reception) (i : Nat) (result : Except Failure Unit) : Reception :=
  { r with admission := r.admission.leave, ended := r.ended ++ [(i, result)] }

end Reception

theorem Exchange.mem_entered_of_step {e f : Exchange Nat} (step : Exchange.Step e f) {i : Nat}
    {line : Bytes} (h : .line i line ∈ f.entered) : .line i line ∈ e.entered ∨
      (f.ports i).arrived.length < (e.ports i).arrived.length := by
  cases step with
  | line j read rest reading next =>
    rcases List.mem_append.1 h with h | h
    · exact .inl h
    · cases List.mem_singleton.1 h
      refine .inr ?_
      rw [enter, setPort_same]
      exact Port.length_lt_of_next? next
  | stop =>
    rcases List.mem_append.1 h with h | h
    · exact .inl h
    · cases List.mem_singleton.1 h
  | arrive => exact .inl h
  | close => exact .inl h
  | refused => exact .inl h
  | receive => exact .inl h
  | tick => exact .inl h
  | write => exact .inl h

/-- Nothing was read from a port and nothing was written to it. -/
structure Port.Unattended (p q : Port) : Prop where
  arrived : p.arrived <+: q.arrived
  reading : q.reading = p.reading
  written : q.written = p.written

namespace Reception

/-- What the acceptor does, the end of a handler, and what handlers, clients and worker do in the
exchange. There a connection is read and written by its handler only. -/
inductive Step : Reception → Reception → Prop
  | accept (r : Reception) (c : Arrival) (free : r.stage = .free) : Step r (r.accept c)
  | proceed (r : Reception) : Step r r.proceed
  | finish (r : Reception) (i : Nat) (result : Except Failure Unit) (working : i ∈ r.handlers) :
    Step r (r.finish i result)
  | exchange (r : Reception) (e : Exchange Nat) (step : Exchange.Step r.exchange e)
      (unattended : ∀ i ∉ r.handlers, (r.exchange.ports i).Unattended (e.ports i)) :
    Step r { r with exchange := e }

def Reaches : Reception → Reception → Prop := Relation.ReflTransGen Step

section Handlers
variable {r : Reception} {i : Nat}

theorem lt_of_verdict? {v : Verdict} (h : r.verdict? i = some v) : i < r.decided.length := by
  rw [verdict?, Option.map_eq_some_iff] at h
  obtain ⟨_, h, -⟩ := h
  exact (List.getElem?_eq_some_iff.1 h).1

theorem mem_handlers_iff :
    i ∈ r.handlers ↔ r.verdict? i = some .served ∧ i ∉ r.ended.map Prod.fst := by
  rw [handlers, List.mem_filter, List.mem_range, decide_eq_true_eq]
  exact ⟨And.right, fun h => ⟨lt_of_verdict? h.1, h⟩⟩

theorem nodup_handlers (r : Reception) : r.handlers.Nodup := List.nodup_range.filter _

theorem verdict?_settle (r : Reception) (d : Dispatch) (v : Verdict) (i : Nat) :
    (r.settle d v).verdict? i = if i = r.decided.length then some v else r.verdict? i := by
  rw [verdict?, settle, verdict?]
  dsimp only
  split
  · next h => simp [h]
  · next h =>
    rcases Nat.lt_or_gt_of_ne h with h | h
    · rw [List.getElem?_append_left h]
    · rw [List.getElem?_eq_none (by simp; omega), List.getElem?_eq_none (by omega)]

theorem verdict?_next (r : Reception) : r.verdict? r.decided.length = none := by
  rw [verdict?, List.getElem?_eq_none (Nat.le_refl _)]
  rfl

theorem handlers_settle (d : Dispatch) (v : Verdict)
    (ended : ∀ i ∈ r.ended.map Prod.fst, i < r.decided.length) :
    (r.settle d v).handlers = r.handlers ++ if v = .served then [r.decided.length] else [] := by
  have fresh : r.decided.length ∉ r.ended.map Prod.fst := fun h => Nat.lt_irrefl _ (ended _ h)
  have hlength : (r.settle d v).decided.length = r.decided.length + 1 := List.length_append
  rw [handlers, hlength, List.range_succ, List.filter_append]
  congr 1
  · apply List.filter_congr
    intro i hi
    rw [verdict?_settle, if_neg (Nat.ne_of_lt (List.mem_range.1 hi))]
    rfl
  · have hended : (r.settle d v).ended = r.ended := rfl
    simp [List.filter_cons, verdict?_settle, hended, fresh]

theorem length_handlers_finish (result : Except Failure Unit) (working : i ∈ r.handlers) :
    (r.finish i result).handlers.length + 1 = r.handlers.length := by
  have h : (r.finish i result).handlers = r.handlers.erase i := by
    rw [r.nodup_handlers.erase_eq_filter, handlers, handlers, List.filter_filter]
    apply List.filter_congr
    intro j _
    have hverdict : (r.finish i result).verdict? j = r.verdict? j := rfl
    have hended : (r.finish i result).ended.map Prod.fst = r.ended.map Prod.fst ++ [i] :=
      List.map_append
    rw [hverdict, hended]
    grind
  rw [h, List.length_erase_of_mem working]
  have := List.length_pos_of_mem working
  omega

end Handlers

end Reception

/-- What becomes of a connection that finds `found` of `m` places taken. -/
def Dispatch.verdict (m : Nat) (d : Dispatch) : Verdict :=
  (Admission.arrive ⟨m, d.found⟩ d.arrival).1

/-- How many places the connection takes from then on. -/
def Verdict.places (v : Verdict) : Nat := if v = .served then 1 else 0

/-- What the acceptor writes to the connection. -/
def Verdict.told : Verdict → Bytes
  | .busy => Admission.busyLine
  | .served | .dropped => []

namespace Stage

/-- How many places the connection in hand has taken. -/
def taken : Stage → Nat
  | .entered _ => 1
  | _ => 0

/-- How many places there are for the connection in hand, taken or not. -/
def kept : Stage → Nat
  | .admitted _ | .entered _ => 1
  | _ => 0

theorem taken_le_kept (s : Stage) : s.taken ≤ s.kept := by
  cases s with
  | free => exact Nat.le_refl 0
  | refusing d => exact Nat.le_refl 0
  | admitted d => exact Nat.zero_le 1
  | entered d => exact Nat.le_refl 1

/-- What is left to do for the connection in hand leads to its verdict. -/
def Foresees (m : Nat) : Stage → Prop
  | .free => True
  | .refusing d => d.verdict m = .busy
  | .admitted d => d.verdict m =
    if d.arrival.prepared ∧ d.arrival.started then .served else .dropped
  | .entered d => d.verdict m = if d.arrival.started then .served else .dropped

end Stage

namespace Reception
variable {m : Nat} {r s : Reception}

/-- The places that are taken are those of the handlers at work and of the connection in hand. -/
structure Counted (m : Nat) (r : Reception) : Prop where
  limit : r.admission.limit = m
  active : r.admission.active = r.handlers.length + r.stage.taken
  /-- A place that was found stays, since handlers can only end before it is taken. -/
  room : r.handlers.length + r.stage.kept ≤ m
  foreseen : r.stage.Foresees m
  verdicts : ∀ x ∈ r.decided, x.1.verdict m = x.2
  ended : ∀ i ∈ r.ended.map Prod.fst, r.verdict? i = some .served

theorem counted_opened (m : Nat) (w : Worker) (streams : Nat → Bytes) :
    Counted m (opened m w streams) :=
  ⟨rfl, rfl, Nat.zero_le m, trivial, by simp [opened], by simp [opened]⟩

theorem Counted.admission_eq (h : Counted m r) (free : r.stage = .free) :
    r.admission = ⟨m, r.handlers.length⟩ := by
  have hactive : r.admission.active = r.handlers.length := by
    rw [h.active, free]
    rfl
  rw [← hactive, ← h.limit]

theorem Counted.verdict (h : Counted m r) (free : r.stage = .free) (c : Arrival) :
    (⟨c, r.handlers.length⟩ : Dispatch).verdict m = (r.admission.arrive c).1 := by
  rw [h.admission_eq free, Dispatch.verdict]

theorem Counted.settle (h : Counted m r) {a : Admission} {d : Dispatch} {v : Verdict}
    (limit : a.limit = m) (active : a.active = r.handlers.length + v.places)
    (room : r.handlers.length + v.places ≤ m) (verdict : d.verdict m = v) :
    Counted m ({ r with admission := a }.settle d v) := by
  have hended : ∀ i ∈ r.ended.map Prod.fst, i < r.decided.length :=
    fun i hi => lt_of_verdict? (h.ended i hi)
  have hhandlers : ({ r with admission := a }.settle d v).handlers.length =
      r.handlers.length + v.places := by
    rw [handlers_settle (r := { r with admission := a }) d v hended, List.length_append,
      Verdict.places]
    split <;> rfl
  refine ⟨limit, ?_, ?_, trivial, ?_, ?_⟩
  · rw [hhandlers]
    exact active
  · rw [hhandlers]
    exact room
  · intro x hx
    rcases List.mem_append.1 hx with hx | hx
    · exact h.verdicts x hx
    · rw [List.mem_singleton.1 hx]
      exact verdict
  · intro i hi
    rw [verdict?_settle, if_neg (Nat.ne_of_lt (hended i hi))]
    exact h.ended i hi

theorem Counted.accept (h : Counted m r) (free : r.stage = .free) (c : Arrival) :
    Counted m (r.accept c) := by
  have hverdict := h.verdict free c
  have hadmission := h.admission_eq free
  have hroom := h.room
  rw [Admission.arrive] at hverdict
  rw [Reception.accept]
  split
  · next usable =>
    rw [if_pos usable] at hverdict
    exact h.settle h.limit (by rw [hadmission]; rfl) (Nat.le_of_add_right_le hroom) hverdict
  · next usable =>
    rw [if_neg usable] at hverdict
    split
    · next full =>
      rw [if_pos full] at hverdict
      exact ⟨h.limit, by rw [hadmission]; rfl, Nat.le_of_add_right_le hroom, hverdict, h.verdicts,
        h.ended⟩
    · next full =>
      rw [if_neg full] at hverdict
      have hlt : r.handlers.length < m := by simpa [Admission.isFull, hadmission] using full
      refine ⟨h.limit, by rw [hadmission]; rfl, hlt, ?_, h.verdicts, h.ended⟩
      rw [Stage.Foresees, hverdict, Admission.start]
      cases c.prepared <;> cases c.started <;> rfl

theorem Counted.proceed (h : Counted m r) : Counted m r.proceed := by
  obtain ⟨hlimit, hactive, hroom, hforeseen, hverdicts, hended⟩ := id h
  rw [Reception.proceed]
  split
  · exact h
  · next d hstage =>
    rw [hstage] at hactive hroom hforeseen
    obtain ⟨limit, active, room, foreseen, verdicts, ended⟩ :=
      h.settle (v := .busy) hlimit hactive (Nat.le_of_add_right_le hroom) hforeseen
    exact ⟨limit, active, room, foreseen, verdicts, ended⟩
  · next d hstage =>
    rw [hstage] at hactive hroom hforeseen
    rw [Stage.Foresees] at hforeseen
    split
    · next prepared =>
      refine ⟨hlimit, congrArg (· + 1) hactive, hroom, ?_, hverdicts, hended⟩
      simpa [Stage.Foresees, prepared] using hforeseen
    · next prepared =>
      simp only [prepared, Bool.false_eq_true, false_and, if_false] at hforeseen
      exact h.settle hlimit hactive (Nat.le_of_add_right_le hroom) hforeseen
  · next d hstage =>
    rw [hstage] at hactive hroom hforeseen
    rw [Stage.Foresees] at hforeseen
    rw [Admission.start]
    by_cases started : d.arrival.started = true
    · rw [if_pos started] at hforeseen ⊢
      exact h.settle hlimit hactive hroom hforeseen
    · rw [if_neg started] at hforeseen ⊢
      exact h.settle hlimit (congrArg (· - 1) hactive) (Nat.le_of_add_right_le hroom) hforeseen

theorem Counted.finish (h : Counted m r) {i : Nat} (result : Except Failure Unit)
    (working : i ∈ r.handlers) : Counted m (r.finish i result) := by
  have hhandlers := length_handlers_finish result working
  refine ⟨h.limit, ?_, ?_, h.foreseen, h.verdicts, ?_⟩
  · -- The handler was one of those counted, so there is a place to give up.
    change r.admission.active - 1 = _ + r.stage.taken
    rw [h.active, ← hhandlers]
    omega
  · have := h.room
    change _ + r.stage.kept ≤ m
    omega
  · intro j hj
    rw [Reception.finish, List.map_append, List.mem_append] at hj
    rcases hj with hj | hj
    · exact h.ended j hj
    · rw [List.mem_singleton.1 hj]
      exact (mem_handlers_iff.1 working).1

theorem counted_of_step (step : Step r s) (h : Counted m r) : Counted m s := by
  cases step with
  | accept c free => exact h.accept free c
  | proceed => exact h.proceed
  | finish i result working => exact h.finish result working
  | exchange e step unattended =>
    exact ⟨h.limit, h.active, h.room, h.foreseen, h.verdicts, h.ended⟩

theorem counted_of_reaches (reached : Reaches r s) (h : Counted m r) : Counted m s := by
  induction reached with
  | refl => exact h
  | tail _ step ih => exact counted_of_step step ih

/-- A connection that is not served takes no part in the exchange. -/
structure Apart (r : Reception) : Prop where
  written : ∀ i, r.verdict? i ≠ some .served →
    (r.exchange.ports i).written = (r.verdict? i).elim [] Verdict.told
  entered : ∀ i line, .line i line ∈ r.exchange.entered → r.verdict? i = some .served

theorem apart_opened (m : Nat) (w : Worker) (streams : Nat → Bytes) :
    Apart (opened m w streams) := by
  refine ⟨fun i _ => rfl, fun i line h => ?_⟩
  exact absurd h List.not_mem_nil

theorem Apart.written_next (h : Apart r) :
    (r.exchange.ports r.decided.length).written = [] := by
  rw [h.written _ (by simp [verdict?_next]), verdict?_next]
  rfl

theorem Apart.settle (h : Apart r) {e : Exchange Nat} {d : Dispatch} {v : Verdict}
    (others : ∀ i, i ≠ r.decided.length → (e.ports i).written = (r.exchange.ports i).written)
    (own : (e.ports r.decided.length).written = v.told)
    (entered : e.entered = r.exchange.entered) :
    Apart ({ r with exchange := e }.settle d v) := by
  have hverdict := verdict?_settle { r with exchange := e } d v
  refine ⟨fun i hi => ?_, fun i line hl => ?_⟩
  · rw [hverdict] at hi ⊢
    by_cases hnext : i = r.decided.length
    · rw [if_pos hnext, hnext]
      exact own
    · rw [if_neg hnext] at hi ⊢
      exact (others i hnext).trans (h.written i hi)
  · have hserved := h.entered i line (entered ▸ hl)
    rw [hverdict, if_neg (Nat.ne_of_lt (lt_of_verdict? hserved))]
    exact hserved

theorem Apart.pass (h : Apart r) (d : Dispatch) {v : Verdict} (silent : v.told = []) :
    Apart (r.settle d v) := by
  refine h.settle (fun _ _ => rfl) ?_ rfl
  rw [h.written_next, silent]

theorem Apart.accept (h : Apart r) (c : Arrival) : Apart (r.accept c) := by
  rw [Reception.accept]
  split
  · exact h.pass _ rfl
  · split
    · exact ⟨h.written, h.entered⟩
    · exact ⟨h.written, h.entered⟩

theorem Apart.proceed (h : Apart r) : Apart r.proceed := by
  rw [Reception.proceed]
  split
  · exact h
  · refine h.settle ?_ ?_ rfl
    · intro i hi
      rw [Exchange.setPort_other hi]
    · rw [Exchange.setPort_same, h.written_next]
      rfl
  · split
    · exact ⟨h.written, h.entered⟩
    · exact h.pass _ rfl
  · next d hstage =>
    have h' (a : Admission) : Apart { r with admission := a } := ⟨h.written, h.entered⟩
    rw [Admission.start]
    by_cases started : d.arrival.started = true
    · rw [if_pos started]
      exact (h' _).pass d rfl
    · rw [if_neg started]
      exact (h' _).pass d rfl

theorem Apart.exchange (h : Apart r) {e : Exchange Nat} (step : Exchange.Step r.exchange e)
    (unattended : ∀ i ∉ r.handlers, (r.exchange.ports i).Unattended (e.ports i)) :
    Apart { r with exchange := e } := by
  have idle (i : Nat) (hi : r.verdict? i ≠ some .served) : i ∉ r.handlers :=
    fun hw => hi (mem_handlers_iff.1 hw).1
  refine ⟨fun i hi => ?_, fun i line hl => ?_⟩
  · exact (unattended i (idle i hi)).written.trans (h.written i hi)
  · rcases Exchange.mem_entered_of_step step hl with hl | hlt
    · exact h.entered i line hl
    · -- Something was read, which is not so where no handler is at work.
      by_cases hi : r.verdict? i = some .served
      · exact hi
      · exact absurd (unattended i (idle i hi)).arrived.length_le (Nat.not_le.2 hlt)

theorem apart_of_step (step : Step r s) (h : Apart r) : Apart s := by
  cases step with
  | accept c free => exact h.accept c
  | proceed => exact h.proceed
  | finish i result working => exact ⟨h.written, h.entered⟩
  | exchange e step unattended => exact h.exchange step unattended

theorem apart_of_reaches (reached : Reaches r s) (h : Apart r) : Apart s := by
  induction reached with
  | refl => exact h
  | tail _ step ih => exact apart_of_step step ih

/-- If nothing comes in between, the acceptor does what `Admission.arrive` does. -/
theorem proceed_accept (r : Reception) (c : Arrival) :
    let s := (r.accept c).proceed.proceed
    s.stage = .free ∧ s.admission = (r.admission.arrive c).2 ∧
      s.decided = r.decided ++ [(⟨c, r.handlers.length⟩, (r.admission.arrive c).1)] := by
  obtain ⟨usable, prepared, started⟩ := c
  cases usable <;> cases prepared <;> cases started <;> cases full : r.admission.isFull <;>
    simp [accept, proceed, settle, tell, Admission.arrive, Admission.start, full]

theorem exists_settled (free : r.stage = .free) (c : Arrival) :
    ∃ s, Reaches r s ∧ s.stage = .free ∧ s.admission = (r.admission.arrive c).2 ∧
      s.decided = r.decided ++ [(⟨c, r.handlers.length⟩, (r.admission.arrive c).1)] :=
  ⟨_, .tail (.tail (.single (.accept r c free)) (.proceed _)) (.proceed _), proceed_accept r c⟩

/-- As many connections as there are places left can be served at a time. -/
theorem Counted.exists_served (h : Counted m r) (free : r.stage = .free) {k : Nat}
    (room : r.handlers.length + k ≤ m) :
    ∃ s, Reaches r s ∧ s.handlers.length = r.handlers.length + k ∧
      s.decided = r.decided ++
        (List.range' r.handlers.length k).map fun n => (⟨{}, n⟩, .served) := by
  induction k generalizing r with
  | zero => exact ⟨r, .refl, rfl, (List.append_nil _).symm⟩
  | succ k ih =>
    obtain ⟨s, reached, hfree, hadmission, hdecided⟩ := exists_settled free {}
    have hs := counted_of_reaches reached h
    have harrive : r.admission.arrive {} = (.served, ⟨m, r.handlers.length + 1⟩) := by
      have hlt : ¬ m ≤ r.handlers.length := by omega
      rw [h.admission_eq free]
      simp [Admission.arrive, Admission.isFull, Admission.enter, Admission.start, hlt]
    rw [harrive, hs.admission_eq hfree] at hadmission
    rw [harrive] at hdecided
    have hhandlers : s.handlers.length = r.handlers.length + 1 :=
      congrArg Admission.active hadmission
    obtain ⟨t, reached', hlength, hdecided'⟩ := ih hs hfree (by omega)
    refine ⟨t, reached.trans reached', by omega, ?_⟩
    rw [hdecided', hdecided, hhandlers, List.range'_succ, List.map_cons, List.append_assoc,
      List.singleton_append]

theorem Counted.active_eq (h : Counted m r) (started : ∀ d, r.stage ≠ .entered d) :
    r.admission.active = r.handlers.length := by
  have hactive := h.active
  cases hstage : r.stage with
  | entered d => exact absurd hstage (started d)
  | _ =>
    rw [hstage] at hactive
    exact hactive

theorem Counted.active_of_entered (h : Counted m r) {d : Dispatch}
    (entered : r.stage = .entered d) : r.admission.active = r.handlers.length + 1 := by
  rw [h.active, entered]
  rfl

theorem Counted.active_le (h : Counted m r) : r.admission.active ≤ m := by
  have hactive := h.active
  have hroom := h.room
  have := r.stage.taken_le_kept
  omega

theorem Counted.verdict_of_decided (h : Counted m r) {i : Nat} {d : Dispatch} {v : Verdict}
    (hi : r.decided[i]? = some (d, v)) :
    (v = .served ↔ (d.arrival.usable = true ∧ d.arrival.prepared = true ∧
      d.arrival.started = true) ∧ d.found < m) ∧
      (v = .busy ↔ d.arrival.usable = true ∧ m ≤ d.found) := by
  have verdict : (Admission.arrive ⟨m, d.found⟩ d.arrival).1 = v :=
    h.verdicts (d, v) (List.mem_of_getElem? hi)
  rw [← verdict]
  exact ⟨Admission.arrive_eq_served_iff, Admission.arrive_eq_busy_iff⟩

theorem Apart.unserved (h : Apart r) {i : Nat} {d : Dispatch} {v : Verdict}
    (hi : r.decided[i]? = some (d, v)) (hv : v ≠ .served) :
    (∀ line, .line i line ∉ r.exchange.entered) ∧ (r.exchange.ports i).written =
      if v = .busy then Utf8.encode "ERR server busy\n" else [] := by
  have hverdict : r.verdict? i = some v := by rw [verdict?, hi, Option.map_some]
  have hserved : r.verdict? i ≠ some .served := by
    rw [hverdict, Ne, Option.some_inj]
    exact hv
  refine ⟨fun line hl => hserved (h.entered i line hl), ?_⟩
  rw [h.written i hserved, hverdict, ← Admission.busyLine_eq]
  cases v <;> rfl

theorem Counted.all_places_free (h : Counted m r) (free : r.stage = .free)
    (ended : r.handlers = []) : r.admission.active = 0 ∧ ∃ s, Reaches r s ∧ s.handlers.length = m ∧
      s.decided = r.decided ++ (List.range m).map fun n => (⟨{}, n⟩, .served) := by
  have none : r.handlers.length = 0 := by rw [ended, List.length_nil]
  obtain ⟨s, reached, hlength, hdecided⟩ := h.exists_served free (k := m) (by omega)
  rw [none] at hlength hdecided
  refine ⟨?_, s, reached, by omega, ?_⟩
  · rw [h.active_eq (by simp [free]), none]
  · rw [hdecided, List.range_eq_range']

/-- The places that are taken are those of the handlers at work, and of one that is being started. A
connection that can be used and whose handler can be started is served just if there is a place; one
that finds none is told so, and nothing that its client sends reaches the worker. -/
theorem places_are_counted {w : Worker} {streams : Nat → Bytes}
    (reached : Reaches (opened m w streams) r) :
    ((∀ d, r.stage ≠ .entered d) → r.admission.active = r.handlers.length) ∧
    (∀ d, r.stage = .entered d → r.admission.active = r.handlers.length + 1) ∧
    r.admission.active ≤ m ∧
    (∀ i d v, r.decided[i]? = some (d, v) →
      (v = .served ↔ (d.arrival.usable = true ∧ d.arrival.prepared = true ∧
        d.arrival.started = true) ∧ d.found < m) ∧
      (v = .busy ↔ d.arrival.usable = true ∧ m ≤ d.found) ∧
      (v ≠ .served → (∀ line, .line i line ∉ r.exchange.entered) ∧
        (r.exchange.ports i).written =
          if v = .busy then Utf8.encode "ERR server busy\n" else [])) ∧
    (r.stage = .free →
      (∀ c, ∃ s v, Reaches r s ∧ s.decided = r.decided ++ [(⟨c, r.handlers.length⟩, v)]) ∧
      (r.handlers = [] → r.admission.active = 0 ∧ ∃ s, Reaches r s ∧ s.handlers.length = m ∧
        s.decided = r.decided ++ (List.range m).map fun n => (⟨{}, n⟩, .served))) := by
  have counted := counted_of_reaches reached (counted_opened m w streams)
  have apart := apart_of_reaches reached (apart_opened m w streams)
  refine ⟨counted.active_eq, fun d => counted.active_of_entered, counted.active_le, ?_, ?_⟩
  · intro i d v hi
    obtain ⟨served, busy⟩ := counted.verdict_of_decided hi
    exact ⟨served, busy, apart.unserved hi⟩
  · intro free
    refine ⟨fun c => ?_, counted.all_places_free free⟩
    obtain ⟨s, reached', -, -, hdecided⟩ := exists_settled free c
    exact ⟨s, _, reached', hdecided⟩

/-- A place is taken before its handler is started. The only handler that was started has ended, and
a place is taken still, for a connection whose handler is yet to be started. -/
theorem place_taken_without_handler :
    let w : Worker := ⟨⟨{}, ∅, ⟨⟨""⟩, 0⟩, none, 0⟩, .empty⟩
    ∃ r, Reaches (opened 2 w fun _ => []) r ∧ r.ended.map Prod.fst = [0] ∧ r.handlers = [] ∧
      r.admission.active = 1 := by
  intro w
  let r₁ := (((opened 2 w fun _ => []).accept {}).proceed).proceed
  let r₂ := (r₁.accept {}).proceed
  have reached : Reaches (opened 2 w fun _ => []) (r₂.finish 0 (.ok ())) :=
    .tail (.tail (.tail (.tail (.tail (.single (.accept _ {} rfl)) (.proceed _)) (.proceed _))
      (.accept r₁ {} (by decide +kernel))) (.proceed _))
      (.finish r₂ 0 (.ok ()) (by decide +kernel))
  exact ⟨_, reached, by decide +kernel, by decide +kernel, by decide +kernel⟩

/-- The one handler fails before the client that comes meanwhile is told that there is no place, and
the handler of a third connection cannot be started. -/
theorem place_comes_back :
    let streams : Nat → Bytes := fun i => if i = 1 then Utf8.encode "set b 2\n" else []
    let w : Worker := ⟨⟨{}, ∅, ⟨⟨""⟩, 0⟩, none, 0⟩, .empty⟩
    ∃ r, Reaches (opened 1 w streams) r ∧
      r.decided = [(⟨{}, 0⟩, .served), (⟨{}, 1⟩, .busy), (⟨{ started := false }, 0⟩, .dropped)] ∧
      (r.exchange.ports 1).arrived = Utf8.encode "set b 2\n" ∧
      (∀ line, .line 1 line ∉ r.exchange.entered) ∧
      (r.exchange.ports 1).written = Utf8.encode "ERR server busy\n" ∧ r.admission.active = 0 ∧
      ∃ s, Reaches r s ∧ s.handlers.length = 1 := by
  intro streams w
  let r₁ := (((opened 1 w streams).accept {}).proceed).proceed
  let e := r₁.exchange.setPort 1 { r₁.exchange.ports 1 with
    arrived := (r₁.exchange.ports 1).arrived ++ Utf8.encode "set b 2\n", unsent := [] }
  let r₂ : Reception := { r₁ with exchange := e }
  let r₃ := r₂.accept {}
  let r₄ := r₃.finish 0 (.error .stopped)
  let r₅ := r₄.proceed
  let r₆ := ((r₅.accept { started := false }).proceed).proceed
  have unattended (i : Nat) (_ : i ∉ r₁.handlers) :
      (r₁.exchange.ports i).Unattended (e.ports i) := by
    by_cases hi : i = 1
    · rw [hi, Exchange.setPort_same]
      exact ⟨List.prefix_append _ _, rfl, rfl⟩
    · rw [Exchange.setPort_other hi]
      exact ⟨List.prefix_refl _, rfl, rfl⟩
  have reached : Reaches (opened 1 w streams) r₆ :=
    .tail (.tail (.tail (.tail (.tail (.tail (.tail (.tail (.tail (.single
      (.accept _ {} rfl)) (.proceed _)) (.proceed _))
      (.exchange r₁ e (.arrive r₁.exchange 1 _ [] (by decide +kernel)) unattended))
      (.accept r₂ {} (by decide +kernel)))
      (.finish r₃ 0 (.error .stopped) (by decide +kernel)))
      (.proceed r₄))
      (.accept r₅ { started := false } (by decide +kernel))) (.proceed _)) (.proceed _)
  obtain ⟨-, -, -, decided, free⟩ := places_are_counted reached
  obtain ⟨-, -, refused⟩ := decided 1 ⟨{}, 1⟩ .busy (by decide +kernel)
  obtain ⟨silent, told⟩ := refused (by decide)
  obtain ⟨-, ended⟩ := free (by decide +kernel)
  obtain ⟨active, s, reached', hlength, -⟩ := ended (by decide +kernel)
  exact ⟨r₆, reached, by decide +kernel, by decide +kernel, silent, told, active, s, reached',
    hlength⟩

end Reception
end Keyline
