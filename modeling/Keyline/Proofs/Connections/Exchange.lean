import Keyline.Proofs.Wire.Lines
import Keyline.Session

/-!
# Exchanges

Any number of clients use one worker at a time. Each has a port, which reads the lines of its client
as they arrive, puts a message for each into the queue of the worker, and writes what the worker
replies. Bytes arrive in pieces, and all this happens in any order.
-/
namespace Keyline

/-- One client's side of an exchange. -/
structure Port where
  /-- What the client has still to send; it closes its side behind the last of it. -/
  unsent : Bytes
  /-- What arrived and was not read. -/
  arrived : Bytes := []
  /-- Whether the port goes on reading. -/
  reading : Bool := true
  /-- What the worker replied, from the beginning. -/
  replies : List String := []
  /-- Those of the replies that are not written. -/
  waiting : List String := []
  written : Bytes := []

namespace Port

/-- The next line that can be read, with what is behind it. Bytes without a line feed are a line
when no more of them can come. -/
def next? (p : Port) : Option (Bytes × Bytes) :=
  match Wire.cut p.arrived with
  | (line, some rest) => some (line, rest)
  | (line, none) => if p.unsent = [] ∧ line ≠ [] then some (line, []) else none

def answer (p : Port) (texts : List String) : Port :=
  { p with replies := p.replies ++ texts, waiting := p.waiting ++ texts }

theorem answer_nil (p : Port) : p.answer [] = p := by simp [answer]

def write (p : Port) (text : String) (rest : List String) : Port :=
  { p with waiting := rest, written := p.written ++ Wire.frame text }

theorem next?_eq_some {p : Port} {line rest : Bytes} (h : p.next? = some (line, rest)) :
    Wire.lineFeed ∉ line ∧ (p.arrived = line ++ Wire.lineFeed :: rest ∨
      p.arrived = line ∧ line ≠ [] ∧ rest = [] ∧ p.unsent = []) := by
  obtain ⟨hline, hcut⟩ := Wire.cut_spec p.arrived
  rw [next?] at h
  split at h
  · next l r heq =>
    cases h
    rw [heq] at hline hcut
    obtain ⟨hn, -⟩ | ⟨r', hr, hs⟩ := hcut
    · cases hn
    · cases hr
      exact ⟨hline, .inl hs⟩
  · next l heq =>
    split at h
    · next hl =>
      cases h
      rw [heq] at hline hcut
      obtain ⟨-, hs⟩ | ⟨r', hr, -⟩ := hcut
      · exact ⟨hline, .inr ⟨hs, hl.2, rfl, hl.1⟩⟩
      · cases hr
    · cases h

theorem lines_of_next? {p : Port} {line rest : Bytes} (h : p.next? = some (line, rest)) :
    Wire.lines (p.arrived ++ p.unsent) = line :: Wire.lines (rest ++ p.unsent) := by
  obtain ⟨hline, ha | ⟨ha, h0, rfl, hu⟩⟩ := next?_eq_some h
  · rw [ha, List.append_assoc, List.cons_append, Wire.lines_append hline]
  · rw [ha, hu, List.append_nil, Wire.lines_rest hline h0]
    rfl

theorem length_lt_of_next? {p : Port} {line rest : Bytes} (h : p.next? = some (line, rest)) :
    rest.length < p.arrived.length := by
  obtain ⟨-, ha | ⟨ha, h0, rfl, -⟩⟩ := next?_eq_some h
  · rw [ha, List.length_append, List.length_cons]
    omega
  · rw [ha]
    exact List.length_pos_iff.2 h0

theorem exists_next? {p : Port} (sent : p.unsent = []) (h : p.arrived ≠ []) :
    ∃ line rest, p.next? = some (line, rest) := by
  rw [next?]
  split
  · exact ⟨_, _, rfl⟩
  · next l heq =>
    obtain ⟨-, ⟨-, hs⟩ | ⟨r, hr, -⟩⟩ := Wire.cut_spec p.arrived
    · rw [heq] at hs
      rw [hs] at h
      exact ⟨l, [], if_pos ⟨sent, h⟩⟩
    · rw [heq] at hr
      cases hr

end Port

/-- What enters the queue of a worker: a line with its client, or what stops the worker. -/
inductive Entry (ι : Type)
  | line (i : ι) (line : Bytes)
  | stop
  deriving DecidableEq

def Entry.message {ι : Type} : Entry ι → Message ι
  | line i l => Session.message i l
  | stop => .stop

def Message.sender? {δ : Type} : Message δ → Option δ
  | command _ sender => some sender
  | ready _ sender => some sender
  | stop => none

/-- A worker with its queue and its clients. -/
structure Exchange (ι : Type) where
  worker : Worker
  running : Bool := true
  queue : List (Message ι) := []
  /-- Everything that was ever put into the queue. -/
  entered : List (Entry ι) := []
  ports : ι → Port

namespace Exchange
variable {ι : Type} [DecidableEq ι]

/-- An exchange before anything happens, where each client is going to send its stream. -/
def opened (w : Worker) (streams : ι → Bytes) : Exchange ι :=
  { worker := w, ports := fun i => { unsent := streams i } }

def setPort (e : Exchange ι) (i : ι) (p : Port) : Exchange ι :=
  { e with ports := fun j => if j = i then p else e.ports j }

omit [DecidableEq ι] in
def enter (e : Exchange ι) (x : Entry ι) : Exchange ι :=
  { e with queue := e.queue ++ [x.message], entered := e.entered ++ [x] }

/-- The worker takes `m` out of the queue and deals with it; a stop ends it. -/
def receive (e : Exchange ι) (now : Nat) (m : Message ι) (rest : List (Message ι)) : Exchange ι :=
  { e with
    worker := (e.worker.step (.message now m)).1
    running := decide (m ≠ .stop)
    queue := rest
    ports := fun i =>
      (e.ports i).answer (Session.replies i (e.worker.step (.message now m)).2) }

inductive Step : Exchange ι → Exchange ι → Prop
  | arrive (e : Exchange ι) (i : ι) (bytes rest : Bytes)
      (next : (e.ports i).unsent = bytes ++ rest) :
    Step e (e.setPort i
      { e.ports i with arrived := (e.ports i).arrived ++ bytes, unsent := rest })
  | line (e : Exchange ι) (i : ι) (line rest : Bytes) (reading : (e.ports i).reading = true)
      (next : (e.ports i).next? = some (line, rest)) :
    Step e ((e.setPort i { e.ports i with arrived := rest }).enter (.line i line))
  /-- The client closed its side and everything was read. -/
  | close (e : Exchange ι) (i : ι) (reading : (e.ports i).reading = true)
      (sent : (e.ports i).unsent = []) (read : (e.ports i).arrived = []) :
    Step e (e.setPort i { e.ports i with reading := false })
  /-- A message that finds no worker is the last. -/
  | refused (e : Exchange ι) (i : ι) (line rest : Bytes) (ended : e.running = false)
      (reading : (e.ports i).reading = true) (next : (e.ports i).next? = some (line, rest)) :
    Step e (e.setPort i { e.ports i with arrived := rest, reading := false })
  | stop (e : Exchange ι) : Step e (e.enter .stop)
  | receive (e : Exchange ι) (now : Nat) (m : Message ι) (rest : List (Message ι))
      (running : e.running = true) (next : e.queue = m :: rest) : Step e (e.receive now m rest)
  | tick (e : Exchange ι) (now : Nat) (running : e.running = true) :
    Step e { e with worker := (e.worker.tick now : Worker × List (Output ι)).1 }
  | write (e : Exchange ι) (i : ι) (text : String) (rest : List String)
      (next : (e.ports i).waiting = text :: rest) :
    Step e (e.setPort i ((e.ports i).write text rest))

inductive Reaches (e : Exchange ι) : Exchange ι → Prop
  | start : Reaches e e
  | step {f g : Exchange ι} (reached : Reaches e f) (step : Step f g) : Reaches e g

theorem Reaches.trans {e f g : Exchange ι} (h : Reaches e f) (h' : Reaches f g) :
    Reaches e g := by
  induction h' with
  | start => exact h
  | step _ last ih => exact ih.step last

theorem setPort_same (e : Exchange ι) (i : ι) (p : Port) : (e.setPort i p).ports i = p :=
  if_pos rfl

theorem setPort_other {e : Exchange ι} {i j : ι} (h : j ≠ i) (p : Port) :
    (e.setPort i p).ports j = e.ports j := if_neg h

theorem forall_setPort {P : ι → Port → Prop} {e : Exchange ι} (h : ∀ j, P j (e.ports j)) {i : ι}
    {p : Port} (hp : P i p) (j : ι) : P j ((e.setPort i p).ports j) := by
  rw [setPort]
  dsimp only
  split
  · next hj =>
    subst hj
    exact hp
  · exact h j

/-- What was written and what waits are together what was replied, each reply a line. -/
def Balanced (p : Port) : Prop :=
  p.written ++ Session.written p.waiting = Session.written p.replies

theorem Balanced.isPrefix {p : Port} (h : Balanced p) : p.written <+: Session.written p.replies :=
  ⟨_, h⟩

theorem balanced_of_step {e f : Exchange ι} (h : ∀ i, Balanced (e.ports i)) (step : Step e f) :
    ∀ i, Balanced (f.ports i) := by
  have hport {i : ι} {p : Port} (hp : Balanced p) (j : ι) : Balanced ((e.setPort i p).ports j) :=
    forall_setPort (P := fun _ => Balanced) h hp j
  cases step with
  | arrive i bytes rest next =>
    apply hport
    exact h i
  | line i line rest reading next =>
    apply hport
    exact h i
  | close i reading sent read =>
    apply hport
    exact h i
  | refused i line rest ended reading next =>
    apply hport
    exact h i
  | stop => exact h
  | receive now m rest running next =>
    intro i
    have hi := h i
    simp only [Balanced, Session.written] at hi
    simp only [receive, Balanced, Port.answer, Session.written, List.flatMap_append,
      ← List.append_assoc, hi]
  | tick now running => exact h
  | write i text rest next =>
    apply hport
    have hi := h i
    rw [Balanced, next, Session.written, List.flatMap_cons, ← List.append_assoc] at hi
    exact hi

theorem balanced_of_reaches {w : Worker} {streams : ι → Bytes} {e : Exchange ι}
    (reached : Reaches (opened w streams) e) : ∀ i, Balanced (e.ports i) := by
  induction reached with
  | start => exact fun i => rfl
  | step reached step ih => exact balanced_of_step ih step

/-- The client closed its side, and every reply that it will get was written. -/
structure Done (e : Exchange ι) (i : ι) : Prop where
  closed : (e.ports i).reading = false
  answered : e.running = true → some i ∉ e.queue.map Message.sender?
  written : (e.ports i).waiting = []

/-- Everything a client still sends arrives. -/
theorem exists_arrived (e : Exchange ι) (i : ι) :
    ∃ f, Reaches e f ∧ (f.ports i).unsent = [] ∧ f.entered = e.entered := by
  refine ⟨_, .step .start (.arrive e i (e.ports i).unsent [] (List.append_nil _).symm), ?_, rfl⟩
  rw [setPort_same]

theorem exists_closed {e : Exchange ι} {i : ι} (sent : (e.ports i).unsent = []) :
    ∃ f, Reaches e f ∧ (f.ports i).reading = false ∧ (.stop ∈ f.entered → .stop ∈ e.entered) := by
  induction hn : (e.ports i).arrived.length using Nat.strongRecOn generalizing e with
  | ind n ih =>
    cases reading : (e.ports i).reading with
    | false => exact ⟨e, .start, reading, id⟩
    | true =>
      by_cases h0 : (e.ports i).arrived = []
      · refine ⟨_, .step .start (.close e i reading sent h0), ?_, id⟩
        rw [setPort_same]
      · obtain ⟨line, rest, next⟩ := Port.exists_next? sent h0
        let f := (e.setPort i { e.ports i with arrived := rest }).enter (.line i line)
        have hport : f.ports i = { e.ports i with arrived := rest } := setPort_same e i _
        have hrest : (f.ports i).arrived.length < n := by
          rw [hport, ← hn]
          exact Port.length_lt_of_next? next
        have hsent : (f.ports i).unsent = [] := by
          rw [hport]
          exact sent
        obtain ⟨g, reached, closed, hstop⟩ := ih _ hrest hsent rfl
        refine ⟨g, .trans (.step .start (.line e i line rest reading next)) reached, closed, ?_⟩
        intro h
        have hf : .stop ∈ e.entered ++ [.line i line] := hstop h
        simpa using hf

/-- The worker deals with its queue, up to a stop. -/
theorem exists_idle (e : Exchange ι) :
    ∃ f, Reaches e f ∧ (f.running = true → f.queue = []) ∧
      (∀ i, (f.ports i).reading = (e.ports i).reading) ∧ f.entered = e.entered := by
  induction hq : e.queue generalizing e with
  | nil => exact ⟨e, .start, fun _ => hq, fun _ => rfl, rfl⟩
  | cons m rest ih =>
    cases running : e.running with
    | false =>
      refine ⟨e, .start, fun h => ?_, fun _ => rfl, rfl⟩
      rw [running] at h
      cases h
    | true =>
      obtain ⟨f, reached, idle, same, entered⟩ := ih (e.receive 0 m rest) rfl
      exact ⟨f, .trans (.step .start (.receive e 0 m rest running hq)) reached, idle, same, entered⟩

theorem exists_written (e : Exchange ι) (i : ι) :
    ∃ f, Reaches e f ∧ (f.ports i).waiting = [] ∧ (f.ports i).reading = (e.ports i).reading ∧
      f.running = e.running ∧ f.queue = e.queue ∧ f.entered = e.entered := by
  induction hw : (e.ports i).waiting generalizing e with
  | nil => exact ⟨e, .start, hw, rfl, rfl, rfl, rfl⟩
  | cons text rest ih =>
    let f := e.setPort i ((e.ports i).write text rest)
    have hport : f.ports i = (e.ports i).write text rest := setPort_same e i _
    obtain ⟨g, reached, waiting, reading, hr, hq, he⟩ := ih f (by rw [hport]; rfl)
    refine ⟨g, .trans (.step .start (.write e i text rest hw)) reached, waiting, ?_, hr, hq, he⟩
    rw [reading, hport]
    rfl

/-- Each client can be given all that it will get, and nobody need stop the worker for it. -/
theorem exists_done (e : Exchange ι) (i : ι) :
    ∃ f, Reaches e f ∧ f.Done i ∧ (.stop ∈ f.entered → .stop ∈ e.entered) := by
  obtain ⟨f₁, reached₁, sent, entered₁⟩ := exists_arrived e i
  obtain ⟨f₂, reached₂, closed, stop₂⟩ := exists_closed sent
  obtain ⟨f₃, reached₃, idle, same, entered₃⟩ := exists_idle f₂
  obtain ⟨f₄, reached₄, written, reading, running, queue, entered₄⟩ := exists_written f₃ i
  refine ⟨f₄, ((reached₁.trans reached₂).trans reached₃).trans reached₄, ⟨?_, ?_, written⟩, ?_⟩
  · rw [reading, same, closed]
  · intro h
    rw [queue, idle (running ▸ h)]
    exact List.not_mem_nil
  · intro h
    rw [entered₄, entered₃] at h
    exact entered₁ ▸ stop₂ h

end Exchange
end Keyline
