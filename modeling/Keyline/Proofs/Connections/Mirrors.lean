import Keyline.Proofs.Connections.Hubs

/-!
# Hubs and exchanges

A hub deals with what a client sends as soon as it comes. This is one of the orders in which an
exchange may go on: whatever comes to a hub, there is an exchange whose worker does the same and
whose ports write what the clients of the hub read or still find there. So each client of a hub is
answered as a client of an exchange is.
-/
namespace Keyline

namespace Exchange
variable {ι : Type} [DecidableEq ι]

/-- Nothing waits, neither for the worker nor to be written to client `i`. -/
structure Quiet (e : Exchange ι) (i : ι) : Prop where
  running : e.running = true
  queue : e.queue = []
  waiting : (e.ports i).waiting = []

/-- Lines of client `i` were read up to `rest`, and `out` was written for them. -/
structure Served (i : ι) (rest out : Bytes) (e f : Exchange ι) : Prop where
  reached : Reaches e f
  quiet : f.Quiet i
  others : ∀ j, j ≠ i → f.ports j = e.ports j
  unsent : (f.ports i).unsent = (e.ports i).unsent
  arrived : (f.ports i).arrived = rest
  reading : (f.ports i).reading = true
  written : (f.ports i).written = (e.ports i).written ++ out

theorem Served.trans {i : ι} {rest rest' out out' : Bytes} {e f g : Exchange ι}
    (h : Served i rest out e f) (h' : Served i rest' out' f g) :
    Served i rest' (out ++ out') e g := by
  refine ⟨h.reached.trans h'.reached, h'.quiet, fun j hj => ?_, ?_, h'.arrived, h'.reading, ?_⟩
  · rw [h'.others j hj, h.others j hj]
  · rw [h'.unsent, h.unsent]
  · rw [h'.written, h.written, List.append_assoc]

/-- A line that can be read is answered at once. -/
theorem exists_served {e : Exchange ι} {i : ι} (quiet : e.Quiet i)
    (reading : (e.ports i).reading = true) {line rest : Bytes}
    (next : (e.ports i).next? = some (line, rest)) (now : Nat) :
    ∃ f, Served i rest (Wire.frame (e.worker.answerLine now line).2) e f ∧
      f.worker = (e.worker.answerLine now line).1 := by
  let text := (e.worker.answerLine now line).2
  let p : Port := { e.ports i with arrived := rest }
  let e₁ := (e.setPort i p).enter (.line i line)
  have hqueue : e₁.queue = [Session.message i line] := by
    change e.queue ++ [Session.message i line] = _
    rw [quiet.queue]
    rfl
  let e₂ := e₁.receive now (Session.message i line) []
  obtain ⟨hworker, hrunning, hports⟩ := e₁.receive_line now i line []
  have hi : e₂.ports i = p.answer [text] := by
    rw [hports, if_pos rfl]
    exact congrArg (·.answer [text]) (setPort_same e i p)
  have hwaiting : (e₂.ports i).waiting = [text] := by
    rw [hi]
    exact congrArg (· ++ [text]) quiet.waiting
  let f := e₂.setPort i ((e₂.ports i).write text [])
  have hf : f.ports i = (p.answer [text]).write text [] := by
    rw [← hi]
    exact setPort_same e₂ i _
  have reached : Reaches e f :=
    .step (.step (.step .start (.line e i line rest reading next))
      (.receive e₁ now _ [] quiet.running hqueue)) (.write e₂ i text [] hwaiting)
  refine ⟨f, ⟨reached, ⟨hrunning, rfl, ?_⟩, fun j hj => ?_, ?_, ?_, ?_, ?_⟩, hworker⟩
  · rw [hf]
    rfl
  · have hj₁ : e₁.ports j = e.ports j := setPort_other hj p
    rw [setPort_other hj, hports, if_neg (Ne.symm hj), Port.answer_nil, hj₁]
  · rw [hf]
    rfl
  · rw [hf]
    rfl
  · rw [hf]
    exact reading
  · rw [hf]
    rfl

theorem exists_served_lines {e : Exchange ι} {i : ι} {ls : List Bytes} {rest : Bytes}
    (quiet : e.Quiet i) (reading : (e.ports i).reading = true)
    (free : ∀ l ∈ ls, Wire.lineFeed ∉ l)
    (arrived : (e.ports i).arrived = ls.flatMap (· ++ [Wire.lineFeed]) ++ rest) (now : Nat) :
    let done := e.worker.talk (ls.map (Turn.line now i))
    ∃ f, Served i rest (Session.written (done.2.map Answer.text)) e f ∧ f.worker = done.1 := by
  induction ls generalizing e with
  | nil =>
    exact ⟨e, ⟨.start, quiet, fun _ _ => rfl, rfl, arrived, reading, (List.append_nil _).symm⟩, rfl⟩
  | cons l ls ih =>
    obtain ⟨hl, hls⟩ := List.forall_mem_cons.1 free
    rw [List.flatMap_cons, List.append_assoc, List.append_assoc, List.singleton_append] at arrived
    have next : (e.ports i).next? =
        some (l, ls.flatMap (· ++ [Wire.lineFeed]) ++ rest) := by
      rw [Port.next?, arrived, Wire.cut_append hl]
    obtain ⟨f, served, hworker⟩ := exists_served quiet reading next now
    obtain ⟨g, served', hworker'⟩ := ih served.quiet served.reading hls served.arrived
    rw [hworker] at served' hworker'
    exact ⟨g, served.trans served', hworker'⟩

theorem exists_served_rest {e : Exchange ι} {i : ι} (quiet : e.Quiet i)
    (reading : (e.ports i).reading = true) (sent : (e.ports i).unsent = [])
    (rest : Wire.lineFeed ∉ (e.ports i).arrived) (now : Nat) :
    let done := e.worker.talk ((Wire.lines (e.ports i).arrived).map (Turn.line now i))
    ∃ f, Served i [] (Session.written (done.2.map Answer.text)) e f ∧ f.worker = done.1 := by
  by_cases h0 : (e.ports i).arrived = []
  · rw [h0]
    exact ⟨e, ⟨.start, quiet, fun _ _ => rfl, rfl, h0, reading, (List.append_nil _).symm⟩, rfl⟩
  · obtain ⟨line, after, next⟩ := Port.exists_next? sent h0
    obtain ⟨-, hs | ⟨hs, -, rfl, -⟩⟩ := Port.next?_eq_some next
    · rw [hs] at rest
      exact absurd (List.mem_append_right _ List.mem_cons_self) rest
    · obtain ⟨f, served, hworker⟩ := exists_served quiet reading next now
      rw [Wire.lines_rest rest h0, hs]
      refine ⟨f, ?_, hworker⟩
      rw [← List.append_nil (Wire.frame _)] at served
      exact served

end Exchange

/-- The port of a client stands where its connection does, when the client has read `got`. -/
structure Port.Mirrors (p : Port) (got : Bytes) (c : Connection) : Prop where
  arrived : p.arrived = c.pending
  reading : p.reading = c.sending
  waiting : p.waiting = []
  written : p.written = got ++ c.unread
  started : Wire.lineFeed ∉ c.pending

namespace Exchange

/-- An exchange stands where a hub does. -/
structure Mirrors (e : Exchange Nat) (got : Nat → Bytes) (h : Hub) : Prop where
  worker : e.worker = h.worker
  running : e.running = true
  queue : e.queue = []
  ports : ∀ i, (h.connection i).served = true → (e.ports i).Mirrors (got i) (h.connection i)

variable {e f : Exchange Nat} {got got' : Nat → Bytes} {h h' : Hub} {i : Nat} {c : Connection}

theorem Mirrors.update (m : e.Mirrors got h) (found : h.connections[i]? = some c)
    {g : Connection → Connection} (change : h'.connections = h.connections.modify i g)
    (worker : f.worker = h'.worker) (running : f.running = true) (queue : f.queue = [])
    (others : ∀ j, j ≠ i → f.ports j = e.ports j ∧ got' j = got j)
    (port : (g c).served = true → (f.ports i).Mirrors (got' i) (g c)) : f.Mirrors got' h' := by
  refine ⟨worker, running, queue, fun j hj => ?_⟩
  by_cases hi : j = i
  · subst hi
    rw [Hub.connection_modify change found] at hj ⊢
    exact port hj
  · rw [Hub.connection_modify_other change hi] at hj ⊢
    rw [(others j hi).1, (others j hi).2]
    exact m.ports j hj

theorem Mirrors.quiet (m : e.Mirrors got h) (served : (h.connection i).served = true) :
    e.Quiet i := ⟨m.running, m.queue, (m.ports i served).waiting⟩

theorem Mirrors.receive (m : e.Mirrors got h) (live : h.live? i = some c) {bytes rest : Bytes}
    (unsent : (e.ports i).unsent = bytes ++ rest) (now : Nat) :
    ∃ f, Reaches e f ∧ f.Mirrors got (h.receive now i bytes) ∧ (f.ports i).unsent = rest ∧
      ∀ j, j ≠ i → (f.ports j).unsent = (e.ports j).unsent := by
  obtain ⟨found, hserved, hsending⟩ := Hub.live?_eq_some live
  have hc := Hub.connection_eq found
  have served : (h.connection i).served = true := by rw [hc, hserved]
  have port := m.ports i served
  rw [hc] at port
  let p : Port := { e.ports i with arrived := (e.ports i).arrived ++ bytes, unsent := rest }
  let e₁ := e.setPort i p
  have hp : e₁.ports i = p := setPort_same e i p
  obtain ⟨ls, hls, free⟩ := Wire.exists_whole (c.pending ++ bytes)
  have arrived : (e₁.ports i).arrived =
      ls.flatMap (· ++ [Wire.lineFeed]) ++ (Wire.whole (c.pending ++ bytes)).2 := by
    rw [hp, ← hls, Wire.whole_append, ← port.arrived]
  have quiet : e₁.Quiet i := by
    refine ⟨m.running, m.queue, ?_⟩
    rw [hp]
    exact port.waiting
  have reading : (e₁.ports i).reading = true := by
    rw [hp]
    exact port.reading.trans hsending
  obtain ⟨f, hf, hworker⟩ := exists_served_lines quiet reading free arrived now
  obtain ⟨hworker', hconnections⟩ := Hub.receive_eq live now bytes
  have hw : e₁.worker = h.worker := m.worker
  rw [← Wire.lines_flatMap free, ← hls, hw] at hf hworker
  refine ⟨f, .trans (.step .start (.arrive e i bytes rest unsent)) hf.reached, ?_, ?_, ?_⟩
  · refine m.update found hconnections (hworker.trans hworker'.symm) hf.quiet.running
      hf.quiet.queue (fun j hj => ⟨?_, rfl⟩) fun _ => ?_
    · rw [hf.others j hj]
      exact setPort_other hj p
    · refine ⟨hf.arrived, hf.reading.trans hsending.symm, hf.quiet.waiting, ?_,
        Wire.lineFeed_not_mem_whole _⟩
      rw [hf.written, hp, ← List.append_assoc, ← port.written]
  · rw [hf.unsent, hp]
  · intro j hj
    rw [hf.others j hj]
    exact congrArg Port.unsent (setPort_other hj p)

theorem Mirrors.finish (m : e.Mirrors got h) (live : h.live? i = some c)
    (sent : (e.ports i).unsent = []) (now : Nat) :
    ∃ f, Reaches e f ∧ f.Mirrors got (h.finish now i) ∧
      ∀ j, (f.ports j).unsent = (e.ports j).unsent := by
  obtain ⟨found, hserved, hsending⟩ := Hub.live?_eq_some live
  have hc := Hub.connection_eq found
  have served : (h.connection i).served = true := by rw [hc, hserved]
  have port := m.ports i served
  rw [hc] at port
  have started : Wire.lineFeed ∉ (e.ports i).arrived := by
    rw [port.arrived]
    exact port.started
  obtain ⟨f, hf, hworker⟩ :=
    exists_served_rest (m.quiet served) (port.reading.trans hsending) sent started now
  obtain ⟨hworker', hconnections⟩ := Hub.finish_eq live now
  rw [port.arrived, m.worker] at hf hworker
  let p : Port := { f.ports i with reading := false }
  have hp : (f.setPort i p).ports i = p := setPort_same f i p
  have hsent : (f.ports i).unsent = [] := hf.unsent.trans sent
  refine ⟨f.setPort i p, hf.reached.step (.close f i hf.reading hsent hf.arrived), ?_, ?_⟩
  · refine m.update found hconnections (hworker.trans hworker'.symm) hf.quiet.running
      hf.quiet.queue (fun j hj => ⟨?_, rfl⟩) fun _ => ?_
    · rw [setPort_other hj, hf.others j hj]
    · rw [hp]
      refine ⟨hf.arrived, rfl, hf.quiet.waiting, ?_, List.not_mem_nil⟩
      rw [← List.append_assoc, ← port.written]
      exact hf.written
  · intro j
    by_cases hj : j = i
    · rw [hj, hp]
      exact hf.unsent
    · rw [setPort_other hj, hf.others j hj]

theorem Mirrors.tick (m : e.Mirrors got h) (now : Nat) :
    Mirrors { e with worker := (e.worker.tick now : Worker × List (Output Nat)).1 } got
      (h.tick now) := by
  obtain ⟨hworker, hconnections⟩ := h.tick_eq now
  have hc (j : Nat) : (h.tick now).connection j = h.connection j := by
    rw [Hub.connection, hconnections, ← Hub.connection]
  refine ⟨?_, m.running, m.queue, fun j hj => ?_⟩
  · rw [hworker, m.worker]
  · rw [hc] at hj ⊢
    exact m.ports j hj

theorem Mirrors.read (m : e.Mirrors got h) (i n : Nat) :
    e.Mirrors (fun j => got j ++ h.given j (.read i n)) (h.meet (.read i n)) := by
  have others (j : Nat) (hj : j ≠ i) : got j ++ h.given j (.read i n) = got j := by
    rw [Hub.given, if_neg (Ne.symm hj), List.append_nil]
  cases found : h.connections[i]? with
  | some c =>
    refine m.update found rfl m.worker m.running m.queue (fun j hj => ⟨rfl, others j hj⟩) ?_
    intro served
    have port := m.ports i
    rw [Hub.connection_eq found] at port
    have hunread : h.unread i = c.unread := by
      rw [Hub.unread, found]
      rfl
    obtain ⟨arrived, reading, waiting, written, started⟩ := port served
    refine ⟨arrived, reading, waiting, ?_, started⟩
    rw [Hub.given, if_pos rfl, hunread, List.append_assoc, List.take_append_drop, written]
  | none =>
    have hi := List.getElem?_eq_none_iff.1 found
    have hunread : h.unread i = [] := by
      rw [Hub.unread, found]
      rfl
    have hgiven (j : Nat) : h.given j (.read i n) = [] := by
      rw [Hub.given]
      split
      · next hj => rw [← hj, hunread, List.take_nil]
      · rfl
    have hconnections : (h.meet (.read i n)).connections = h.connections :=
      List.modify_eq_self hi
    refine ⟨m.worker, m.running, m.queue, fun j hj => ?_⟩
    rw [Hub.connection, hconnections, ← Hub.connection] at hj ⊢
    rw [hgiven, List.append_nil]
    exact m.ports j hj

theorem Mirrors.arrive (m : e.Mirrors got h) (a : Arrival) : e.Mirrors got (h.arrive a) := by
  refine ⟨m.worker, m.running, m.queue, fun j hj => ?_⟩
  have hc := Hub.connection_arrive hj
  rw [hc] at hj ⊢
  exact m.ports j hj

/-- Whatever comes to a hub, an exchange can go on in the same way. -/
theorem Mirrors.exists_meet (m : e.Mirrors got h) (x : Input) {more : Nat → Bytes}
    (unsent : ∀ i, (e.ports i).unsent = h.taken i x ++ more i)
    (ended : ∀ i, (h.meet x).Ended i → more i = []) :
    ∃ f, Reaches e f ∧ f.Mirrors (fun i => got i ++ h.given i x) (h.meet x) ∧
      ∀ i, (f.ports i).unsent = more i := by
  have same (hx : ∀ i, h.given i x = []) : (fun i => got i ++ h.given i x) = got :=
    funext fun i => by rw [hx, List.append_nil]
  cases x with
  | arrive a =>
    rw [same fun _ => rfl]
    exact ⟨e, .start, m.arrive a, unsent⟩
  | receive now i bytes =>
    rw [same fun _ => rfl]
    cases live : h.live? i with
    | none =>
      have hmeet : h.meet (.receive now i bytes) = h := by rw [Hub.meet, Hub.receive, live]
      rw [hmeet]
      refine ⟨e, .start, m, fun j => ?_⟩
      rw [unsent, Hub.taken, if_neg, List.nil_append]
      rintro ⟨rfl, hlive⟩
      rw [live] at hlive
      cases hlive
    | some c =>
      have hi : (e.ports i).unsent = bytes ++ more i := by
        rw [unsent, Hub.taken, live]
        simp
      obtain ⟨f, reached, m', hsent, others⟩ := m.receive live hi now
      refine ⟨f, reached, m', fun j => ?_⟩
      by_cases hj : j = i
      · rw [hj, hsent]
      · rw [others j hj, unsent, Hub.taken, if_neg fun h => hj h.1.symm, List.nil_append]
  | finish now i =>
    rw [same fun _ => rfl]
    cases live : h.live? i with
    | none =>
      have hmeet : h.meet (.finish now i) = h := by rw [Hub.meet, Hub.finish, live]
      rw [hmeet]
      exact ⟨e, .start, m, unsent⟩
    | some c =>
      have hi : (e.ports i).unsent = [] :=
        (unsent i).trans (ended i (Hub.ended_finish live now))
      obtain ⟨f, reached, m', same'⟩ := m.finish live hi now
      exact ⟨f, reached, m', fun j => (same' j).trans (unsent j)⟩
  | read i n => exact ⟨e, .start, m.read i n, unsent⟩
  | tick now =>
    rw [same fun _ => rfl]
    exact ⟨_, .step .start (.tick e now m.running), m.tick now, unsent⟩

theorem Mirrors.exists_run (m : e.Mirrors got h) (xs : List Input)
    (unsent : ∀ i, (e.ports i).unsent = h.allTaken i xs) :
    ∃ f, Reaches e f ∧ f.Mirrors (fun i => got i ++ h.allGiven i xs) (h.run xs) ∧
      ∀ i, (f.ports i).unsent = [] := by
  induction xs generalizing e got h with
  | nil =>
    refine ⟨e, .start, ?_, unsent⟩
    simpa [Hub.allGiven, Hub.run] using m
  | cons x xs ih =>
    obtain ⟨f, reached, m', unsent'⟩ := m.exists_meet x unsent fun i ended => ended.allTaken xs
    obtain ⟨g, reached', m'', unsent''⟩ := ih m' unsent'
    refine ⟨g, reached.trans reached', ?_, unsent''⟩
    simpa [Hub.allGiven, Hub.run] using m''

/-- An exchange before anything happens stands where a hub does before anyone connects. -/
theorem mirrors_opened (fresh : h.connections = []) (streams : Nat → Bytes) :
    (opened h.worker streams).Mirrors (fun _ => []) h := by
  refine ⟨rfl, rfl, rfl, fun i _ => ?_⟩
  rw [Hub.connection, fresh]
  exact ⟨rfl, rfl, rfl, rfl, List.not_mem_nil⟩

end Exchange

/-- Whatever came to a hub, each client that it serves has read, or can read, one answer for each of
its lines, in their order; only a line whose end is still to come has none. The answers are those of
handling the lines of all clients one after another, with ticks between them. -/
theorem Hub.answers_lines {h : Hub} (fresh : h.connections = []) (xs : List Input) :
    ∃ turns : List (Turn Nat), (h.run xs).worker = (h.worker.talk turns).1 ∧
      ∀ i c, (h.run xs).connections[i]? = some c → c.served = true →
        let answers := Exchange.answersTo i (h.worker.talk turns).2
        h.allGiven i xs ++ c.unread = Session.written (answers.map Answer.text) ∧
        answers.map Answer.line ++ (if c.sending then Wire.lines c.pending else []) =
          Wire.lines (h.allTaken i xs) ∧
        Wire.lineFeed ∉ c.pending := by
  obtain ⟨e, reached, m, sent⟩ :=
    (Exchange.mirrors_opened fresh fun i => h.allTaken i xs).exists_run xs fun _ => rfl
  obtain ⟨turns, tracks⟩ := Exchange.tracks_of_reaches reached
  refine ⟨turns, m.worker.symm.trans tracks.worker, fun i c found served => ?_⟩
  have port := m.ports i
  rw [Hub.connection_eq found] at port
  obtain ⟨arrived, reading, waiting, written, started⟩ := port served
  have reads := Exchange.reads_of_reaches reached i
  have answered : some i ∉ e.queue.map Message.sender? := by
    rw [m.queue]
    exact List.not_mem_nil
  refine ⟨?_, ?_, started⟩
  · have balanced := Exchange.balanced_of_reaches reached i
    rw [Exchange.Balanced, waiting, written, tracks.replies] at balanced
    rw [← balanced]
    exact (List.append_nil _).symm
  · rw [tracks.all answered m.running]
    cases hsending : c.sending with
    | true =>
      rw [if_pos rfl, ← arrived, ← reads.left (reading.trans hsending), sent, List.append_nil]
    | false =>
      rw [if_neg Bool.false_ne_true, List.append_nil, reads.all (reading.trans hsending) m.running]

end Keyline
