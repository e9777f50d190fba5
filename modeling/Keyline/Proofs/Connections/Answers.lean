import Keyline.Proofs.Connections.Exchange
import Keyline.Proofs.Runs.Erasure

/-!
# Lines and their answers

Each client of an exchange is written one answer for each of its lines, in their order. The answers
are those of handling the lines of all clients one after another, in the order in which they entered
the queue of the worker; a line that is no text keeps its place among them and does nothing. If the
worker is stopped, the first lines of each client were answered.
-/
namespace Keyline

theorem Session.sender?_message {δ : Type} (sender : δ) (line : Bytes) :
    (message sender line).sender? = some sender := by
  rw [message]
  split <;> rfl

theorem Session.message_ne_stop {δ : Type} (sender : δ) (line : Bytes) :
    message sender line ≠ .stop := by
  intro h
  have hs := sender?_message sender line
  rw [h] at hs
  cases hs

theorem Session.replies_reports {δ : Type} [DecidableEq δ] (i j : δ) (reports : List String)
    (text : String) : replies j (reports.map .report ++ [.reply i text]) =
      if i = j then [text] else [] := by
  have hreports : replies j (reports.map .report) = [] := by
    rw [replies, List.filterMap_map]
    exact List.filterMap_eq_nil_iff.2 fun _ _ => rfl
  rw [replies, List.filterMap_append, ← replies, hreports, List.nil_append, List.filterMap_cons]
  split <;> simp_all

/-- What a worker meets, with the reading of the clock. -/
inductive Turn (ι : Type)
  | line (now : Nat) (i : ι) (line : Bytes)
  | tick (now : Nat)

/-- A line of a client with its answer. -/
structure Answer (ι : Type) where
  client : ι
  line : Bytes
  text : String

def Answer.entry {ι : Type} (a : Answer ι) : Entry ι := .line a.client a.line

namespace Worker

/-- Handles the command in a line. A line that is no text is turned down and changes nothing. -/
def answerLine (w : Worker) (now : Nat) (line : Bytes) : Worker × String :=
  match Utf8.decode? (Wire.trim line) with
  | some raw =>
    (w.handled now raw, (Reply.ofResult (w.database.handle now raw w.files).result).text)
  | none => (w, "ERR Command is not valid UTF-8.")

variable {ι : Type}

/-- Takes turns one after another, with the answers to the lines among them. -/
def talk (w : Worker) : List (Turn ι) → Worker × List (Answer ι)
  | [] => (w, [])
  | .tick now :: turns => (w.tick now : Worker × List (Output ι)).1.talk turns
  | .line now i line :: turns =>
    let more := (w.answerLine now line).1.talk turns
    (more.1, ⟨i, line, (w.answerLine now line).2⟩ :: more.2)

theorem talk_append (w : Worker) (turns more : List (Turn ι)) : w.talk (turns ++ more) =
    (((w.talk turns).1.talk more).1, (w.talk turns).2 ++ ((w.talk turns).1.talk more).2) := by
  induction turns generalizing w with
  | nil => rfl
  | cons turn turns ih =>
    cases turn with
    | tick now => exact ih _
    | line now i line =>
      rw [List.cons_append, talk, talk]
      dsimp only
      rw [ih, List.cons_append]

theorem talk_tick (w : Worker) (turns : List (Turn ι)) (now : Nat) :
    w.talk (turns ++ [.tick now]) =
      (((w.talk turns).1.tick now : Worker × List (Output ι)).1, (w.talk turns).2) := by
  rw [talk_append, talk, talk, List.append_nil]

theorem talk_line (w : Worker) (turns : List (Turn ι)) (now : Nat) (i : ι) (line : Bytes) :
    w.talk (turns ++ [.line now i line]) =
      (((w.talk turns).1.answerLine now line).1,
        (w.talk turns).2 ++ [⟨i, line, ((w.talk turns).1.answerLine now line).2⟩]) := by
  rw [talk_append, talk, talk]

/-- The message of a line leads to its answer, behind the report of a failure if there is one. -/
theorem step_line (w : Worker) (now : Nat) (i : ι) (line : Bytes) :
    ∃ reports : List String, w.step (.message now (Session.message i line)) =
      ((w.answerLine now line).1,
        reports.map .report ++ [.reply i (w.answerLine now line).2]) := by
  rw [Session.message, answerLine]
  cases Utf8.decode? (Wire.trim line) with
  | none => exact ⟨[], rfl⟩
  | some raw =>
    obtain ⟨reports, hr, -⟩ := w.command_eq now raw i
    exact ⟨reports, hr⟩

end Worker

namespace Exchange
variable {ι : Type} [DecidableEq ι]

def linesOf (i : ι) (entered : List (Entry ι)) : List Bytes :=
  entered.filterMap fun
    | .line j line => if j = i then some line else none
    | .stop => none

def answersTo (i : ι) (answers : List (Answer ι)) : List (Answer ι) :=
  answers.filter fun a => a.client = i

/-- What entered the queue before the first stop. -/
def beforeStop (entered : List (Entry ι)) : List (Entry ι) := entered.takeWhile (· ≠ .stop)

/-- How much of a stream was read, where `lines` were put into the queue. -/
structure Reads (stream : Bytes) (running : Bool) (lines : List Bytes) (p : Port) : Prop where
  within : lines <+: Wire.lines stream
  left : p.reading = true → lines ++ Wire.lines (p.arrived ++ p.unsent) = Wire.lines stream
  all : p.reading = false → running = true → lines = Wire.lines stream

theorem linesOf_enter (i j : ι) (entered : List (Entry ι)) (line : Bytes) :
    linesOf i (entered ++ [.line j line]) =
      linesOf i entered ++ if j = i then [line] else [] := by
  rw [linesOf, List.filterMap_append, List.filterMap_cons]
  split <;> simp_all [linesOf]

theorem linesOf_stop (i : ι) (entered : List (Entry ι)) :
    linesOf i (entered ++ [.stop]) = linesOf i entered := by
  simp [linesOf]

theorem reads_of_step {streams : ι → Bytes} {e f : Exchange ι}
    (h : ∀ i, Reads (streams i) e.running (linesOf i e.entered) (e.ports i)) (step : Step e f) :
    ∀ i, Reads (streams i) f.running (linesOf i f.entered) (f.ports i) := by
  cases step with
  | arrive j bytes rest next =>
    refine forall_setPort (P := fun i => Reads (streams i) e.running (linesOf i e.entered)) h ?_
    refine ⟨(h j).within, fun hr => ?_, (h j).all⟩
    rw [← (h j).left hr, next, List.append_assoc]
  | line j line rest reading next =>
    have hj := (h j).left reading
    rw [Port.lines_of_next? next, List.append_cons] at hj
    intro i
    rw [enter, setPort]
    dsimp only
    rw [linesOf_enter]
    by_cases hi : i = j
    · subst hi
      rw [if_pos rfl, if_pos rfl]
      refine ⟨⟨_, hj⟩, fun _ => hj, fun hr => ?_⟩
      rw [reading] at hr
      cases hr
    · rw [if_neg hi, if_neg (Ne.symm hi), List.append_nil]
      exact h i
  | close j reading sent read =>
    refine forall_setPort (P := fun i => Reads (streams i) e.running (linesOf i e.entered)) h ?_
    have hj := (h j).left reading
    rw [read, sent, List.append_nil] at hj
    refine ⟨(h j).within, fun hr => absurd hr Bool.false_ne_true, fun _ _ => ?_⟩
    rw [← hj]
    exact (List.append_nil _).symm
  | refused j line rest ended reading next =>
    refine forall_setPort (P := fun i => Reads (streams i) e.running (linesOf i e.entered)) h ?_
    refine ⟨(h j).within, fun hr => absurd hr Bool.false_ne_true, fun _ hr => ?_⟩
    rw [ended] at hr
    cases hr
  | stop =>
    intro i
    rw [enter, linesOf_stop]
    exact h i
  | receive now m rest running next =>
    intro i
    exact ⟨(h i).within, (h i).left, fun hr _ => (h i).all hr running⟩
  | tick now running => exact h
  | write j text rest next =>
    refine forall_setPort (P := fun i => Reads (streams i) e.running (linesOf i e.entered)) h ?_
    exact ⟨(h j).within, (h j).left, (h j).all⟩

theorem reads_of_reaches {w : Worker} {streams : ι → Bytes} {e : Exchange ι}
    (reached : Reaches (opened w streams) e) :
    ∀ i, Reads (streams i) e.running (linesOf i e.entered) (e.ports i) := by
  induction reached with
  | start => exact fun i => ⟨List.nil_prefix, fun _ => rfl, nofun⟩
  | step reached step ih => exact reads_of_step ih step

/-- How far the queue was dealt with: what was answered and what is still in the queue make up
everything that entered, but for the stop if it was dealt with. -/
inductive Progress (e : Exchange ι) (answered : List (Entry ι)) : Prop
  | serving (pending : List (Entry ι)) (running : e.running = true)
      (order : answered ++ pending = e.entered) (queue : e.queue = pending.map Entry.message)
  | stopped (pending : List (Entry ι)) (running : e.running = false)
      (order : answered ++ .stop :: pending = e.entered)

omit [DecidableEq ι] in
theorem Progress.congr {e f : Exchange ι} {answered : List (Entry ι)} (h : e.Progress answered)
    (hr : f.running = e.running) (he : f.entered = e.entered) (hq : f.queue = e.queue) :
    f.Progress answered := by
  cases h with
  | serving pending running order queue =>
    exact .serving pending (hr.trans running) (order.trans he.symm) (hq.trans queue)
  | stopped pending running order => exact .stopped pending (hr.trans running) (order.trans he.symm)

omit [DecidableEq ι] in
theorem Progress.enter {e : Exchange ι} {answered : List (Entry ι)} (h : e.Progress answered)
    (x : Entry ι) : (e.enter x).Progress answered := by
  cases h with
  | serving pending running order queue =>
    refine .serving (pending ++ [x]) running ?_ ?_
    · rw [← List.append_assoc, order]
      rfl
    · rw [List.map_append, ← queue]
      rfl
  | stopped pending running order =>
    refine .stopped (pending ++ [x]) running ?_
    rw [← List.cons_append, ← List.append_assoc, order]
    rfl

/-- What holds at every moment, where `turns` were taken. -/
structure Tracks (w : Worker) (e : Exchange ι) (turns : List (Turn ι)) : Prop where
  worker : e.worker = (w.talk turns).1
  progress : e.Progress ((w.talk turns).2.map Answer.entry)
  replies : ∀ i, (e.ports i).replies = (answersTo i (w.talk turns).2).map Answer.text

/-- The worker that takes a line answers it to its client, and nothing to anybody else. -/
theorem receive_line (e : Exchange ι) (now : Nat) (i : ι) (line : Bytes)
    (rest : List (Message ι)) :
    (e.receive now (Session.message i line) rest).worker = (e.worker.answerLine now line).1 ∧
    (e.receive now (Session.message i line) rest).running = true ∧
    ∀ j, (e.receive now (Session.message i line) rest).ports j =
      (e.ports j).answer (if i = j then [(e.worker.answerLine now line).2] else []) := by
  obtain ⟨reports, hstep⟩ := e.worker.step_line now i line
  refine ⟨congrArg Prod.fst hstep, decide_eq_true (Session.message_ne_stop i line), fun j => ?_⟩
  rw [receive]
  dsimp only
  rw [hstep, Session.replies_reports]

theorem tracks_receive {w : Worker} {e : Exchange ι} {turns : List (Turn ι)}
    (h : Tracks w e turns) (now : Nat) {m : Message ι} {rest : List (Message ι)}
    (running : e.running = true) (next : e.queue = m :: rest) :
    ∃ turns', Tracks w (e.receive now m rest) turns' := by
  obtain ⟨pending, -, order, queue⟩ | ⟨-, stopped⟩ := h.progress
  · rw [next] at queue
    obtain ⟨x, pending, rfl, rfl, rfl⟩ := List.map_eq_cons_iff.1 queue.symm
    cases x with
    | stop =>
      refine ⟨turns, h.worker, .stopped pending rfl order, fun i => ?_⟩
      rw [← h.replies i]
      exact List.append_nil _
    | line i line =>
      obtain ⟨worker, running', ports⟩ := e.receive_line now i line (pending.map Entry.message)
      refine ⟨turns ++ [.line now i line], ?_, .serving pending running' ?_ rfl, fun j => ?_⟩
      · rw [Worker.talk_line, ← h.worker]
        exact worker
      · rw [Worker.talk_line, List.map_append, List.append_assoc]
        exact order
      · rw [Worker.talk_line, Entry.message, ports, Port.answer, h.replies, answersTo, answersTo,
          List.filter_append, List.map_append, ← h.worker]
        by_cases hj : i = j
        · simp [hj]
        · simp [hj]
  · rw [running] at stopped
    cases stopped

theorem tracks_of_step {w : Worker} {e f : Exchange ι} {turns : List (Turn ι)}
    (h : Tracks w e turns) (step : Step e f) : ∃ turns', Tracks w f turns' := by
  have hport {i : ι} {p : Port} (hp : p.replies = (e.ports i).replies) :
      Tracks w (e.setPort i p) turns := by
    refine ⟨h.worker, h.progress.congr rfl rfl rfl, ?_⟩
    refine forall_setPort
      (P := fun i p => p.replies = (answersTo i (w.talk turns).2).map Answer.text) h.replies ?_
    exact hp.trans (h.replies i)
  cases step with
  | arrive i bytes rest next => exact ⟨turns, hport rfl⟩
  | line i line rest reading next =>
    have hi : Tracks w (e.setPort i { e.ports i with arrived := rest }) turns := hport rfl
    exact ⟨turns, hi.worker, hi.progress.enter _, hi.replies⟩
  | close i reading sent read => exact ⟨turns, hport rfl⟩
  | refused i line rest ended reading next => exact ⟨turns, hport rfl⟩
  | stop => exact ⟨turns, h.worker, h.progress.enter _, h.replies⟩
  | receive now m rest running next => exact tracks_receive h now running next
  | tick now running =>
    refine ⟨turns ++ [.tick now], ?_, ?_, ?_⟩
    · rw [Worker.talk_tick, ← h.worker]
    · rw [Worker.talk_tick]
      exact h.progress.congr rfl rfl rfl
    · rw [Worker.talk_tick]
      exact h.replies
  | write i text rest next => exact ⟨turns, hport rfl⟩

theorem tracks_of_reaches {w : Worker} {streams : ι → Bytes} {e : Exchange ι}
    (reached : Reaches (opened w streams) e) : ∃ turns, Tracks w e turns := by
  induction reached with
  | start => exact ⟨[], rfl, .serving [] rfl rfl rfl, fun i => rfl⟩
  | step reached step ih =>
    obtain ⟨turns, h⟩ := ih
    exact tracks_of_step h step

theorem beforeStop_append (answers : List (Answer ι)) (more : List (Entry ι)) :
    beforeStop (answers.map Answer.entry ++ more) =
      answers.map Answer.entry ++ beforeStop more := by
  apply List.takeWhile_append_of_pos
  intro x hx
  obtain ⟨a, -, rfl⟩ := List.mem_map.1 hx
  rfl

theorem linesOf_answers (i : ι) (answers : List (Answer ι)) :
    linesOf i (answers.map Answer.entry) = (answersTo i answers).map Answer.line := by
  induction answers with
  | nil => rfl
  | cons a answers ih =>
    rw [answersTo] at ih
    rw [List.map_cons, linesOf, List.filterMap_cons, ← linesOf, ih, answersTo, List.filter_cons,
      Answer.entry]
    by_cases h : a.client = i
    · simp [h]
    · simp [h]

theorem linesOf_append (i : ι) (xs ys : List (Entry ι)) :
    linesOf i (xs ++ ys) = linesOf i xs ++ linesOf i ys := List.filterMap_append

theorem linesOf_eq_nil {i : ι} {pending : List (Entry ι)}
    (h : some i ∉ (pending.map Entry.message).map Message.sender?) : linesOf i pending = [] := by
  rw [linesOf, List.filterMap_eq_nil_iff]
  intro x hx
  cases x with
  | stop => rfl
  | line j line =>
    refine if_neg ?_
    rintro rfl
    rw [List.map_map] at h
    exact h (List.mem_map.2 ⟨_, hx, Session.sender?_message j line⟩)

theorem Tracks.answered {w : Worker} {e : Exchange ι} {turns : List (Turn ι)}
    (h : Tracks w e turns) : (w.talk turns).2.map Answer.entry <+: beforeStop e.entered ∧
      (e.running = false → .stop ∈ e.entered ∧
        (w.talk turns).2.map Answer.entry = beforeStop e.entered) := by
  obtain ⟨pending, running, order, -⟩ | ⟨pending, -, order⟩ := h.progress
  · rw [← order, beforeStop_append]
    refine ⟨List.prefix_append _ _, fun ended => ?_⟩
    rw [running] at ended
    cases ended
  · have hstop : beforeStop (.stop :: pending) = [] := rfl
    rw [← order, beforeStop_append, hstop, List.append_nil]
    exact ⟨List.prefix_refl _, fun _ => ⟨List.mem_append_right _ List.mem_cons_self, rfl⟩⟩

/-- The lines of a client that were answered are the first that were read. -/
theorem Tracks.lines {w : Worker} {e : Exchange ι} {turns : List (Turn ι)} (h : Tracks w e turns)
    (i : ι) : (answersTo i (w.talk turns).2).map Answer.line <+: linesOf i e.entered := by
  rw [← linesOf_answers]
  obtain ⟨pending, -, order, -⟩ | ⟨pending, -, order⟩ := h.progress
  · rw [← order, linesOf_append]
    exact List.prefix_append _ _
  · rw [← order, linesOf_append]
    exact List.prefix_append _ _

theorem Tracks.all {w : Worker} {e : Exchange ι} {turns : List (Turn ι)} (h : Tracks w e turns)
    {i : ι} (answered : some i ∉ e.queue.map Message.sender?) (running : e.running = true) :
    (answersTo i (w.talk turns).2).map Answer.line = linesOf i e.entered := by
  rw [← linesOf_answers]
  obtain ⟨pending, -, order, queue⟩ | ⟨-, stopped⟩ := h.progress
  · rw [queue] at answered
    rw [← order, linesOf_append, linesOf_eq_nil answered, List.append_nil]
  · rw [running] at stopped
    cases stopped

omit [DecidableEq ι] in
theorem written_text (answers : List (Answer ι)) : Session.written (answers.map Answer.text) =
    answers.flatMap fun a => Utf8.encode a.text ++ [10] := by
  rw [Session.written, List.flatMap_map]
  rfl

/-- At every moment the worker is where it comes to by handling lines one after another, in the
order in which they entered the queue, with ticks between them; it takes none behind a stop, and all
before it. Each client was written answers to the first of its lines, one each, in their order; once
it is done these are all the answers to it, and unless the worker was stopped they answer all its
lines. Every client can become done. -/
theorem written_answers_lines {w : Worker} {streams : ι → Bytes} {e : Exchange ι}
    (reached : Reaches (opened w streams) e) :
    (∃ turns : List (Turn ι), e.worker = (w.talk turns).1 ∧
      (w.talk turns).2.map Answer.entry <+: beforeStop e.entered ∧
      (e.running = false → .stop ∈ e.entered ∧
        (w.talk turns).2.map Answer.entry = beforeStop e.entered) ∧
      ∀ i, linesOf i e.entered <+: Wire.lines (streams i) ∧
        (answersTo i (w.talk turns).2).map Answer.line <+: Wire.lines (streams i) ∧
        (e.ports i).written <+:
          (answersTo i (w.talk turns).2).flatMap (fun a => Utf8.encode a.text ++ [10]) ∧
        (e.Done i →
          (e.ports i).written =
            (answersTo i (w.talk turns).2).flatMap (fun a => Utf8.encode a.text ++ [10]) ∧
          (e.running = true →
            (answersTo i (w.talk turns).2).map Answer.line = Wire.lines (streams i)))) ∧
      ∀ i, ∃ f, Reaches e f ∧ f.Done i ∧ (.stop ∈ f.entered → .stop ∈ e.entered) := by
  obtain ⟨turns, h⟩ := tracks_of_reaches reached
  have reads := reads_of_reaches reached
  have balanced := balanced_of_reaches reached
  refine ⟨⟨turns, h.worker, h.answered.1, h.answered.2, fun i => ⟨(reads i).within, ?_, ?_, ?_⟩⟩,
    e.exists_done⟩
  · exact (h.lines i).trans (reads i).within
  · rw [← written_text, ← h.replies]
    exact (balanced i).isPrefix
  · intro done
    refine ⟨?_, fun running => ?_⟩
    · have hb := balanced i
      rw [Balanced, done.written] at hb
      rw [← written_text, ← h.replies, ← hb]
      exact (List.append_nil _).symm
    · rw [h.all (done.answered running) running, (reads i).all done.closed running]

/-- One client sets a value, sends a line that is no text, and reads the value back in a line that
does not end; another reads the value in between, and a snapshot is made. -/
theorem written_answers_two_clients :
    let c : Config := { dataDir := ⟨"/d"⟩ }
    let set : Bytes := [115, 101, 116, 32, 107, 32, 118, 13]
    let get : Bytes := [103, 101, 116, 32, 107]
    let streams (i : Bool) : Bytes := if i then get ++ [10] else set ++ [10, 0xff, 10] ++ get
    ∃ (db : Database) (t : FileTree) (e : Exchange Bool),
      Database.start c 1600000000000 .empty = (.ok db, t) ∧
      Reaches (opened ⟨db, t⟩ streams) e ∧ e.Done false ∧ e.Done true ∧
      (e.ports false).written = [79, 75, 32, 49, 10] ++
        Utf8.encode "ERR Command is not valid UTF-8.\n" ++ [79, 75, 32, 118, 10] ∧
      (e.ports true).written = [79, 75, 32, 118, 10] ∧
      ∃ turns : List (Turn Bool),
        (∀ i, (e.ports i).written =
          (answersTo i (Worker.talk ⟨db, t⟩ turns).2).flatMap fun a =>
            Utf8.encode a.text ++ [10]) ∧
        (answersTo false (Worker.talk ⟨db, t⟩ turns).2).map Answer.line = [set, [0xff], get] ∧
        (answersTo true (Worker.talk ⟨db, t⟩ turns).2).map Answer.line = [get] := by
  intro c set get streams
  let db : Database := ⟨c, ∅, ⟨⟨"/d/snapshots"⟩, 0⟩, some ⟨⟨"/d/logs"⟩, 5, 1600000000000,
    ⟨["d", "logs", "1600000000000.kvslog"], 0⟩, 0⟩, 0⟩
  let t := (Database.start c 1600000000000 .empty).2
  have start : Database.start c 1600000000000 .empty = (.ok db, t) :=
    Prod.ext (by decide +kernel) rfl
  let read (e : Exchange Bool) (i : Bool) (line rest : Bytes) : Exchange Bool :=
    (e.setPort i { e.ports i with arrived := rest }).enter (.line i line)
  let e₀ : Exchange Bool := opened ⟨db, t⟩ streams
  let e₁ := e₀.setPort false { e₀.ports false with arrived := streams false, unsent := [] }
  let e₂ := e₁.setPort true { e₁.ports true with arrived := streams true, unsent := [] }
  let e₃ := read (read e₂ false set ([0xff, Wire.lineFeed] ++ get)) true get []
  let e₄ := e₃.receive 1600000000001 (.command "set k v" false) [.command "get k" true]
  let e₅ := { e₄ with
    worker := (e₄.worker.tick 1600000000002 : Worker × List (Output Bool)).1 }
  let e₆ := read (read e₅ false [0xff] get) false get []
  have reached₁ : Reaches e₀ e₂ :=
    .step (.step .start (.arrive e₀ false (streams false) [] (by decide +kernel)))
      (.arrive e₁ true (streams true) [] (by decide +kernel))
  have reached₃ : Reaches e₀ e₃ :=
    .step (.step reached₁ (.line e₂ false _ _ rfl (by decide +kernel)))
      (.line _ true get [] rfl (by decide +kernel))
  have reached₄ : Reaches e₀ e₅ :=
    .step (.step reached₃ (.receive e₃ _ _ _ rfl (by decide +kernel))) (.tick e₄ _ rfl)
  have reached₆ : Reaches e₀ e₆ :=
    .step (.step reached₄ (.line e₅ false _ _ rfl (by decide +kernel)))
      (.line _ false _ _ rfl (by decide +kernel))
  let close (e : Exchange Bool) (i : Bool) := e.setPort i { e.ports i with reading := false }
  let e₇ := close (close e₆ false) true
  have reached₇ : Reaches e₀ e₇ :=
    .step (.step reached₆ (.close e₆ false rfl (by decide +kernel) (by decide +kernel)))
      (.close _ true rfl (by decide +kernel) (by decide +kernel))
  let notText : Message Bool := .ready Session.notText.text false
  let e₈ := e₇.receive 1600000000003 (.command "get k" true) [notText, .command "get k" false]
  let e₉ := (e₈.receive 1600000000003 notText [.command "get k" false]).receive 1600000000002
    (.command "get k" false) []
  have reached₉ : Reaches e₀ e₉ :=
    .step (.step (.step reached₇ (.receive e₇ _ _ _ rfl (by decide +kernel)))
      (.receive e₈ _ _ _ rfl (by decide +kernel))) (.receive _ _ _ _ rfl (by decide +kernel))
  let write (e : Exchange Bool) (i : Bool) (text : String) (rest : List String) :=
    e.setPort i ((e.ports i).write text rest)
  let ready : String := "ERR Command is not valid UTF-8."
  let f₁ := write e₉ false "OK 1" [ready, "OK v"]
  let f₂ := write f₁ false ready ["OK v"]
  let f₃ := write (write f₂ true "OK v" []) false "OK v" []
  have reached : Reaches e₀ f₃ :=
    .step (.step (.step (.step reached₉ (.write e₉ false _ _ (by decide +kernel)))
      (.write f₁ false _ _ (by decide +kernel))) (.write f₂ true _ _ (by decide +kernel)))
      (.write _ false _ _ (by decide +kernel))
  have empty : f₃.queue = [] := rfl
  have closed (i : Bool) : (f₃.ports i).reading = false := by
    revert i
    decide +kernel
  have waiting (i : Bool) : (f₃.ports i).waiting = [] := by
    revert i
    decide +kernel
  have done (i : Bool) : f₃.Done i :=
    ⟨closed i, fun _ => by simp [empty], waiting i⟩
  have running : f₃.running = true := by decide +kernel
  obtain ⟨⟨turns, -, -, -, hturns⟩, -⟩ := written_answers_lines reached
  have answered (i : Bool) := (hturns i).2.2.2 (done i)
  refine ⟨db, t, f₃, start, reached, done false, done true, by decide +kernel, by decide +kernel,
    turns, fun i => (answered i).1, ?_, ?_⟩
  · rw [(answered false).2 running]
    decide +kernel
  · rw [(answered true).2 running]
    decide +kernel

end Exchange
end Keyline
