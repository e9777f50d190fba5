import Keyline.Proofs.Runs.Erasure

/-!
# A worker that serves many

Any number of senders put messages into the queue of one worker while it takes messages out, makes
snapshots when they are due and sends replies, and while destinations of replies go away. Whatever
the order of all this, the replies are those of handling the commands one after another, as they
entered the queue, up to the message that stops the worker.
-/
namespace Keyline

namespace Worker
variable {δ : Type}

/-- What a message is answered with; a command is handled and nothing else is done. -/
def answer (w : Worker) (now : Nat) : Message δ → Worker × List (δ × String)
  | .command raw d =>
    (w.handled now raw, [(d, match (w.database.handle now raw w.files).result with
      | .ok reply => reply.text
      | .error e => "ERR " ++ e.message)])
  | .ready text d => (w, [(d, text)])
  | .stop => (w, [])

/-- Answers messages one after another, each at its reading of the clock. -/
def serial (w : Worker) : List (Nat × Message δ) → Worker × List (δ × String)
  | [] => (w, [])
  | turn :: turns =>
    let first := w.answer turn.1 turn.2
    let more := first.1.serial turns
    (more.1, first.2 ++ more.2)

theorem serial_append (w : Worker) (turns : List (Nat × Message δ)) (now : Nat)
    (m : Message δ) : w.serial (turns ++ [(now, m)]) =
      (((w.serial turns).1.answer now m).1,
        (w.serial turns).2 ++ ((w.serial turns).1.answer now m).2) := by
  induction turns generalizing w with
  | nil => simp [serial]
  | cons turn turns ih =>
    rw [List.cons_append, serial, serial]
    dsimp only
    rw [ih, List.append_assoc]

/-- The replies among outputs, with their destinations. -/
def replies (out : List (Output δ)) : List (δ × String) :=
  out.filterMap fun
    | .reply d text => some (d, text)
    | .report _ => none

theorem step_message (w : Worker) (now : Nat) (m : Message δ) :
    (w.step (.message now m)).1 = (w.answer now m).1 ∧
      replies (w.step (.message now m)).2 = (w.answer now m).2 := by
  cases m with
  | stop => exact ⟨rfl, rfl⟩
  | ready text d => exact ⟨rfl, rfl⟩
  | command raw d =>
    have hstep : w.step (.message now (.command raw d)) = w.command now raw d := rfl
    rw [hstep, command, answer, handled]
    dsimp only
    split
    · next h =>
      rw [h]
      exact ⟨rfl, rfl⟩
    · next h =>
      rw [h]
      exact ⟨rfl, rfl⟩

theorem alike_answer {v w : Worker} (a : Alike v w) (now : Nat) (m : Message δ) :
    (w.answer now m).2 = (v.answer now m).2 ∧ Alike (v.answer now m).1 (w.answer now m).1 := by
  cases m with
  | stop => exact ⟨rfl, a⟩
  | ready text d => exact ⟨rfl, a⟩
  | command raw d =>
    obtain ⟨hr, ha⟩ := alike_handled a now raw
    rw [answer]
    dsimp only
    rw [hr]
    exact ⟨rfl, ha⟩

end Worker

/-- A worker with its queue, those who send to it and those whom it answers. -/
structure Service (σ δ : Type) where
  worker : Worker
  running : Bool
  /-- What each sender has still to send. -/
  unsent : σ → List (Message δ)
  /-- Everything that was ever put into the queue, with its sender. -/
  entered : List (σ × Message δ)
  queue : List (Message δ)
  /-- Destinations that went away; what is sent to them is lost. -/
  gone : δ → Bool
  received : δ → List String

namespace Service
variable {σ δ : Type} [DecidableEq σ] [DecidableEq δ]

def idle (w : Worker) (scripts : σ → List (Message δ)) : Service σ δ :=
  ⟨w, true, scripts, [], [], fun _ => false, fun _ => []⟩

/-- The replies to one destination. -/
def textsTo (d : δ) (replies : List (δ × String)) : List String :=
  replies.filterMap fun r => if r.1 = d then some r.2 else none

/-- Sender `i` puts `m` into the queue. -/
def send (s : Service σ δ) (i : σ) (m : Message δ) (rest : List (Message δ)) : Service σ δ :=
  { s with
    unsent := fun j => if j = i then rest else s.unsent j
    entered := s.entered ++ [(i, m)]
    queue := s.queue ++ [m] }

/-- The worker takes `m` out of the queue and deals with it; a stop ends it. -/
def receive (s : Service σ δ) (now : Nat) (m : Message δ) (rest : List (Message δ)) :
    Service σ δ :=
  { s with
    worker := (s.worker.step (.message now m)).1
    running := decide (m ≠ .stop)
    queue := rest
    received := fun d =>
      if s.gone d then s.received d
      else s.received d ++ textsTo d (Worker.replies (s.worker.step (.message now m)).2) }

inductive Step : Service σ δ → Service σ δ → Prop
  | send (s : Service σ δ) (i : σ) (m : Message δ) (rest : List (Message δ))
      (next : s.unsent i = m :: rest) : Step s (s.send i m rest)
  | receive (s : Service σ δ) (now : Nat) (m : Message δ) (rest : List (Message δ))
      (running : s.running = true) (next : s.queue = m :: rest) : Step s (s.receive now m rest)
  | tick (s : Service σ δ) (now : Nat) (running : s.running = true) :
    Step s { s with worker := (s.worker.tick now : Worker × List (Output δ)).1 }
  | leave (s : Service σ δ) (d : δ) : Step s { s with gone := fun e => decide (e = d) || s.gone e }
  /-- The queue is empty and nobody is left who could send. -/
  | hangUp (s : Service σ δ) (running : s.running = true) (empty : s.queue = [])
      (sent : ∀ i, s.unsent i = []) : Step s { s with running := false }

inductive Reaches (s : Service σ δ) : Service σ δ → Prop
  | start : Reaches s s
  | step {t u : Service σ δ} (reached : Reaches s t) (step : Step t u) : Reaches s u

def sentBy (i : σ) (entered : List (σ × Message δ)) : List (Message δ) :=
  (entered.filter fun e => e.1 = i).map Prod.snd

/-- The messages before the first that stops the worker. -/
def beforeStop (ms : List (Message δ)) : List (Message δ) := ms.takeWhile (· ≠ .stop)

/-- How far the queue was dealt with: the turns that were taken and what was not taken yet make up
everything that entered, but for the stop if that was taken. -/
inductive Progress (s : Service σ δ) (taken : List (Message δ)) : Prop
  | serving (running : s.running = true) (order : taken ++ s.queue = s.entered.map Prod.snd)
  | stopped (running : s.running = false)
      (order : taken ++ .stop :: s.queue = s.entered.map Prod.snd)
  | deserted (running : s.running = false) (order : taken = s.entered.map Prod.snd)
      (sent : ∀ i, s.unsent i = [])

omit [DecidableEq σ] [DecidableEq δ] in
theorem Progress.congr {s t : Service σ δ} {taken : List (Message δ)} (h : s.Progress taken)
    (hr : t.running = s.running) (hq : t.queue = s.queue) (he : t.entered = s.entered)
    (hu : t.unsent = s.unsent) : t.Progress taken := by
  cases h with
  | serving running order => exact .serving (hr.trans running) (by rw [hq, he, order])
  | stopped running order => exact .stopped (hr.trans running) (by rw [hq, he, order])
  | deserted running order sent =>
    exact .deserted (hr.trans running) (by rw [he, order]) (by rw [hu]; exact sent)

omit [DecidableEq σ] [DecidableEq δ] in
theorem Progress.order_of_running {s : Service σ δ} {taken : List (Message δ)}
    (h : s.Progress taken) (running : s.running = true) :
    taken ++ s.queue = s.entered.map Prod.snd := by
  cases h with
  | serving _ order => exact order
  | stopped idle =>
    rw [running] at idle
    simp at idle
  | deserted idle =>
    rw [running] at idle
    simp at idle

/-- What holds at every moment, where `turns` were taken. -/
structure Serves (w : Worker) (scripts : σ → List (Message δ)) (s : Service σ δ)
    (turns : List (Nat × Message δ)) : Prop where
  sent : ∀ i, sentBy i s.entered ++ s.unsent i = scripts i
  progress : s.Progress (turns.map Prod.snd)
  unstopped : .stop ∉ turns.map Prod.snd
  alike : Worker.Alike (w.serial turns).1 s.worker
  received : ∀ d, s.received d <+: textsTo d (w.serial turns).2
  present : ∀ d, s.gone d = false → s.received d = textsTo d (w.serial turns).2

omit [DecidableEq δ] in
theorem sentBy_append (i : σ) (entered : List (σ × Message δ)) (j : σ) (m : Message δ) :
    sentBy i (entered ++ [(j, m)]) = sentBy i entered ++ if j = i then [m] else [] := by
  unfold sentBy
  rw [List.filter_append, List.map_append]
  by_cases h : j = i
  · simp [h]
  · simp [h]

theorem textsTo_eq (d : δ) (replies : List (δ × String)) :
    textsTo d replies = (replies.filter fun r => r.1 = d).map Prod.snd := by
  induction replies with
  | nil => rfl
  | cons r replies ih =>
    rw [textsTo, List.filterMap_cons, ← textsTo, ih, List.filter_cons]
    by_cases h : r.1 = d
    · simp [h]
    · simp [h]

theorem textsTo_append (d : δ) (xs ys : List (δ × String)) :
    textsTo d (xs ++ ys) = textsTo d xs ++ textsTo d ys := List.filterMap_append

theorem serves_send {w : Worker} {scripts : σ → List (Message δ)} {s : Service σ δ}
    {turns : List (Nat × Message δ)} (h : Serves w scripts s turns) {i : σ} {m : Message δ}
    {rest : List (Message δ)} (next : s.unsent i = m :: rest) :
    Serves w scripts (s.send i m rest) turns := by
  refine ⟨fun j => ?_, ?_, h.unstopped, h.alike, h.received, h.present⟩
  · have hj := h.sent j
    rw [send]
    dsimp only
    rw [sentBy_append]
    by_cases e : i = j
    · subst e
      rw [next] at hj
      simpa using hj
    · simpa [e, Ne.symm e] using hj
  · cases h.progress with
    | serving running order =>
      refine .serving running ?_
      rw [send, List.map_append, ← order]
      simp
    | stopped running order =>
      refine .stopped running ?_
      rw [send, List.map_append, ← order]
      simp
    | deserted running order sent =>
      rw [sent i] at next
      simp at next

omit [DecidableEq σ] in
theorem worker_receive (s : Service σ δ) (now : Nat) (m : Message δ) (rest : List (Message δ)) :
    (s.receive now m rest).worker = (s.worker.answer now m).1 :=
  (s.worker.step_message now m).1

omit [DecidableEq σ] in
theorem received_receive (s : Service σ δ) (now : Nat) (m : Message δ)
    (rest : List (Message δ)) (d : δ) : (s.receive now m rest).received d =
      if s.gone d then s.received d
      else s.received d ++ textsTo d (s.worker.answer now m).2 := by
  rw [← (s.worker.step_message now m).2]
  rfl

theorem serves_turn {w : Worker} {scripts : σ → List (Message δ)} {s : Service σ δ}
    {turns : List (Nat × Message δ)} (h : Serves w scripts s turns) {now : Nat} {m : Message δ}
    {rest : List (Message δ)} (hm : m ≠ .stop)
    (order : turns.map Prod.snd ++ m :: rest = s.entered.map Prod.snd) :
    Serves w scripts (s.receive now m rest) (turns ++ [(now, m)]) := by
  obtain ⟨hout, halike⟩ := Worker.alike_answer h.alike now m
  refine ⟨h.sent, .serving (decide_eq_true hm) ?_, ?_, ?_, fun d => ?_, fun d hd => ?_⟩
  · rw [List.map_append, List.append_assoc]
    exact order
  · rw [List.map_append, List.mem_append]
    simp [h.unstopped, Ne.symm hm]
  · rw [Worker.serial_append, worker_receive]
    exact halike
  · rw [Worker.serial_append, received_receive, hout, textsTo_append]
    split
    · exact (h.received d).trans (List.prefix_append _ _)
    · next hd =>
      have hp := h.present d (Bool.eq_false_iff.2 hd)
      exact hp ▸ List.prefix_refl _
  · have hd' : s.gone d = false := hd
    rw [Worker.serial_append, received_receive, hout, textsTo_append, h.present d hd', hd']
    rfl

theorem serves_stop {w : Worker} {scripts : σ → List (Message δ)} {s : Service σ δ}
    {turns : List (Nat × Message δ)} (h : Serves w scripts s turns) {now : Nat}
    {rest : List (Message δ)}
    (order : turns.map Prod.snd ++ .stop :: rest = s.entered.map Prod.snd) :
    Serves w scripts (s.receive now .stop rest) turns := by
  have hsame (d : δ) : (s.receive now .stop rest).received d = s.received d := by
    rw [received_receive]
    simp [Worker.answer, textsTo]
  refine ⟨h.sent, .stopped rfl order, h.unstopped, h.alike, fun d => ?_, fun d hd => ?_⟩
  · rw [hsame]
    exact h.received d
  · rw [hsame]
    exact h.present d hd

theorem serves_of_step {w : Worker} {scripts : σ → List (Message δ)} {s t : Service σ δ}
    {turns : List (Nat × Message δ)} (h : Serves w scripts s turns) (step : Step s t) :
    ∃ turns', Serves w scripts t turns' := by
  cases step with
  | send i m rest next => exact ⟨turns, serves_send h next⟩
  | receive now m rest running next =>
    have order := h.progress.order_of_running running
    rw [next] at order
    by_cases hm : m = .stop
    · subst hm
      exact ⟨turns, serves_stop h order⟩
    · exact ⟨_, serves_turn h hm order⟩
  | tick now running =>
    exact ⟨turns, h.sent, h.progress.congr rfl rfl rfl rfl, h.unstopped,
      Worker.alike_tick h.alike now, h.received, h.present⟩
  | leave d =>
    refine ⟨turns, h.sent, h.progress.congr rfl rfl rfl rfl, h.unstopped, h.alike, h.received,
      fun e he => h.present e ?_⟩
    simp only [Bool.or_eq_false_iff] at he
    exact he.2
  | hangUp running empty sent =>
    have order := h.progress.order_of_running running
    rw [empty, List.append_nil] at order
    exact ⟨turns, h.sent, .deserted rfl order sent, h.unstopped, h.alike, h.received, h.present⟩

theorem serves_of_reaches {w : Worker} {scripts : σ → List (Message δ)} {s : Service σ δ}
    (settled : w.Settled) (reached : Reaches (idle w scripts) s) :
    ∃ turns, Serves w scripts s turns := by
  induction reached with
  | start =>
    refine ⟨[], fun i => rfl, .serving rfl rfl, by simp, settled.alike, fun d => ?_, fun d _ => rfl⟩
    exact List.prefix_refl _
  | step reached step ih =>
    obtain ⟨turns, h⟩ := ih
    exact serves_of_step h step

omit [DecidableEq σ] in
theorem beforeStop_append {taken : List (Message δ)} (h : .stop ∉ taken)
    (ms : List (Message δ)) : beforeStop (taken ++ ms) = taken ++ beforeStop ms := by
  rw [beforeStop]
  apply List.takeWhile_append_of_pos
  intro m hm
  apply decide_eq_true
  rintro rfl
  exact h hm

/-- Nothing behind a stop is taken. -/
theorem Serves.taken_prefix {w : Worker} {scripts : σ → List (Message δ)} {s : Service σ δ}
    {turns : List (Nat × Message δ)} (h : Serves w scripts s turns) :
    turns.map Prod.snd <+: beforeStop (s.entered.map Prod.snd) := by
  have hpre (ms : List (Message δ)) :
      turns.map Prod.snd <+: beforeStop (turns.map Prod.snd ++ ms) := by
    rw [beforeStop_append h.unstopped]
    exact List.prefix_append _ _
  cases h.progress with
  | serving _ order => exact order ▸ hpre _
  | stopped _ order => exact order ▸ hpre _
  | deserted _ order =>
    rw [← order]
    simpa using hpre []

theorem Serves.taken_all {w : Worker} {scripts : σ → List (Message δ)} {s : Service σ δ}
    {turns : List (Nat × Message δ)} (h : Serves w scripts s turns) (ended : s.running = false) :
    turns.map Prod.snd = beforeStop (s.entered.map Prod.snd) ∧
      (.stop ∈ s.entered.map Prod.snd ∨ ∀ i, s.unsent i = []) := by
  cases h.progress with
  | serving running =>
    rw [ended] at running
    simp at running
  | stopped _ order =>
    rw [← order, beforeStop_append h.unstopped]
    refine ⟨by simp [beforeStop], .inl ?_⟩
    exact List.mem_append_right _ List.mem_cons_self
  | deserted _ order sent =>
    have := beforeStop_append h.unstopped []
    rw [List.append_nil] at this
    rw [← order, this]
    exact ⟨by simp [beforeStop], .inr sent⟩

theorem Reaches.head {s t u : Service σ δ} (step : Step s t) (reached : Reaches t u) :
    Reaches s u := by
  induction reached with
  | start => exact .step .start step
  | step _ last ih => exact .step ih last

/-- A service that was told to stop, or that nobody will send to any more, comes to its end. -/
theorem ends {w : Worker} {scripts : σ → List (Message δ)} {s : Service σ δ}
    {turns : List (Nat × Message δ)} (h : Serves w scripts s turns)
    (last : .stop ∈ s.entered.map Prod.snd ∨ ∀ i, s.unsent i = []) :
    ∃ t, Reaches s t ∧ t.running = false ∧ t.entered = s.entered := by
  induction hn : s.queue.length generalizing s turns with
  | zero =>
    have empty := List.length_eq_zero_iff.1 hn
    cases h.progress with
    | stopped running => exact ⟨s, .start, running, rfl⟩
    | deserted running => exact ⟨s, .start, running, rfl⟩
    | serving running order =>
      rw [empty, List.append_nil] at order
      rcases last with hstop | sent
      · rw [← order] at hstop
        exact absurd hstop h.unstopped
      · exact ⟨_, .step .start (.hangUp s running empty sent), rfl, rfl⟩
  | succ n ih =>
    cases h.progress with
    | stopped running => exact ⟨s, .start, running, rfl⟩
    | deserted running => exact ⟨s, .start, running, rfl⟩
    | serving running order =>
      obtain ⟨m, rest, next⟩ := List.exists_cons_of_length_eq_add_one hn
      have step : Step s (s.receive 0 m rest) := .receive s 0 m rest running next
      obtain ⟨turns', h'⟩ := serves_of_step h step
      have hlength : rest.length = n := by
        rw [next] at hn
        simpa using hn
      obtain ⟨t, reached, done, entered⟩ := ih h' last hlength
      exact ⟨t, .head step reached, done, entered⟩

/-- The replies that a service gives are those of one serial run. It takes the messages in the order
in which they entered the queue, which is that of each sender, and none behind a stop; when it has
ended it took all. Who is still there receives exactly the answers of this run, and who has gone
away received the first of them; ticks leave no trace in the store or in the log. -/
theorem replies_are_serial {c : Config} {now : Nat} {db : Database} {t t' : FileTree}
    {ds : List Database.Deed} {w : Worker} {scripts : σ → List (Message δ)} {s : Service σ δ}
    (start : Database.start c now t = (.ok db, t'))
    (used : Database.Run FileTree.Keeps ⟨db, t'⟩ ds w) (reached : Reaches (idle w scripts) s) :
    (∀ i, sentBy i s.entered ++ s.unsent i = scripts i) ∧
      (∃ turns : List (Nat × Message δ),
        turns.map Prod.snd <+: beforeStop (s.entered.map Prod.snd) ∧
        (s.running = false → turns.map Prod.snd = beforeStop (s.entered.map Prod.snd) ∧
          (.stop ∈ s.entered.map Prod.snd ∨ ∀ i, s.unsent i = [])) ∧
        (∀ d, s.received d <+: ((w.serial turns).2.filter fun r => r.1 = d).map Prod.snd ∧
          (s.gone d = false →
            s.received d = ((w.serial turns).2.filter fun r => r.1 = d).map Prod.snd)) ∧
        s.worker.database.store = (w.serial turns).1.database.store ∧
        s.worker.database.log = (w.serial turns).1.database.log) ∧
      ((.stop ∈ s.entered.map Prod.snd ∨ ∀ i, s.unsent i = []) →
        ∃ u, Reaches s u ∧ u.running = false ∧ u.entered = s.entered) := by
  have settled := Worker.settled_of_run (Worker.settled_of_start start) used
  obtain ⟨turns, h⟩ := serves_of_reaches settled reached
  refine ⟨h.sent, ⟨turns, h.taken_prefix, h.taken_all, fun d => ?_, h.alike.store, h.alike.log⟩,
    ends h⟩
  rw [← textsTo_eq]
  exact ⟨h.received d, h.present d⟩

/-- One client sets a value and another reads it and stops the service; between them a snapshot is
made. -/
theorem replies_to_two_clients :
    let c : Config := { dataDir := ⟨"/d"⟩ }
    let set : Message Bool := .command "set k v" false
    let get : Message Bool := .command "get k" true
    let scripts (i : Bool) : List (Message Bool) := if i then [get, .stop] else [set]
    ∃ (db : Database) (t : FileTree) (s : Service Bool Bool),
      Database.start c 1600000000000 .empty = (.ok db, t) ∧
      Database.Run FileTree.Keeps ⟨db, t⟩ [] ⟨db, t⟩ ∧ Reaches (idle ⟨db, t⟩ scripts) s ∧
      s.running = false ∧ s.received false = ["OK 1"] ∧ s.received true = ["OK v"] ∧
      ∃ turns : List (Nat × Message Bool), turns.map Prod.snd = [set, get] ∧
        ∀ d, s.received d =
          ((Worker.serial ⟨db, t⟩ turns).2.filter fun r => r.1 = d).map Prod.snd := by
  intro c set get scripts
  let db : Database := ⟨c, ∅, ⟨⟨"/d/snapshots"⟩, 0⟩, some ⟨⟨"/d/logs"⟩, 5, 1600000000000,
    ⟨["d", "logs", "1600000000000.kvslog"], 0⟩, 0⟩, 0⟩
  let t := (Database.start c 1600000000000 .empty).2
  have start : Database.start c 1600000000000 .empty = (.ok db, t) :=
    Prod.ext (by decide +kernel) rfl
  have used : Database.Run FileTree.Keeps ⟨db, t⟩ [] ⟨db, t⟩ := .start _
  let s₀ : Service Bool Bool := idle ⟨db, t⟩ scripts
  let s₂ := (s₀.send false set []).send true get [.stop]
  let s₃ := s₂.receive 1600000000001 set [get]
  let s₄ : Service Bool Bool :=
    { s₃ with worker := (s₃.worker.tick 1600000000002 : Worker × List (Output Bool)).1 }
  let s₅ := s₄.send true .stop []
  let s₆ := s₅.receive 1600000000001 get [.stop]
  let s₇ := s₆.receive 1600000000003 .stop []
  have reached : Reaches s₀ s₇ := by
    apply Reaches.step (t := s₆)
    · apply Reaches.step (t := s₅)
      · apply Reaches.step (t := s₄)
        · apply Reaches.step (t := s₃)
          · exact .step (.step (.step .start (.send s₀ false set [] rfl))
              (.send _ true get [.stop] rfl)) (.receive s₂ _ set [get] rfl rfl)
          · exact .tick s₃ 1600000000002 rfl
        · exact .send s₄ true .stop [] rfl
      · exact .receive s₅ _ get [.stop] rfl rfl
    · exact .receive s₆ _ .stop [] rfl rfl
  obtain ⟨-, ⟨turns, -, hall, hreceived, -⟩, -⟩ := replies_are_serial start used reached
  exact ⟨db, t, s₇, start, used, reached, rfl, by decide +kernel, by decide +kernel, turns,
    (hall rfl).1, fun d => (hreceived d).2 rfl⟩

end Service
end Keyline
