import Keyline.Proofs.Connections.Exchange
import Keyline.Proofs.Runs.OneLine
import Keyline.Proofs.Runs.Stores

/-!
# One reply, one line

Servers are opened over one data directory, one at a time, and serve any number of clients. What a
client sends is cut into lines, so no line feed comes into a command, none into the store, and none
through a snapshot into a store that is restored. Hence no reply holds one, and what is written to a
client has as many line feeds as replies.
-/
namespace Keyline

open FileTree

def Message.OneLine {δ : Type} : Message δ → Prop
  | command raw _ => Keyline.OneLine raw
  | ready reply _ => Keyline.OneLine reply
  | stop => True

theorem Session.oneLine_message {δ : Type} (sender : δ) {line : Bytes}
    (h : Wire.lineFeed ∉ line) : (message sender line).OneLine := by
  rw [message]
  split
  · next hraw => exact Utf8.not_mem_of_decode? hraw (Wire.not_mem_trim h)
  · exact (by decide : Keyline.OneLine notText.text)

theorem Session.mem_of_mem_replies {δ : Type} [DecidableEq δ] {i : δ} {out : List (Output δ)}
    {text : String} (h : text ∈ replies i out) : .reply i text ∈ out := by
  obtain ⟨o, ho, hi⟩ := List.mem_filterMap.1 h
  cases o with
  | report text => cases hi
  | reply j text =>
    dsimp only at hi
    split at hi
    · next hj =>
      cases hi
      exact hj ▸ ho
    · cases hi

theorem Session.count_written {texts : List String} (h : ∀ text ∈ texts, OneLine text) :
    (written texts).count Wire.lineFeed = texts.length := by
  induction texts with
  | nil => rfl
  | cons text texts ih =>
    have htexts := ih fun t ht => h t (List.mem_cons_of_mem text ht)
    rw [written] at htexts
    rw [written, List.flatMap_cons, List.count_append, htexts,
      Wire.count_frame (h text List.mem_cons_self), List.length_cons, Nat.add_comm]

/-- The snapshots of a data directory, at `d`, hold texts of one line only. -/
structure Tidy (dir : Path) (d : Place) (t : FileTree) : Prop where
  place : t.placeOf (Site.archive dir) = d
  plain : ∀ m g bs s, Archive.isSnapshot t (Site.archive dir) d m = true →
    t.node? (d ++ [m]) = some (.file g bs) → Snapshots.decode bs = .ok s → s.Plain

theorem tidy_iff {dir : Path} {d : Place} {t : FileTree} :
    Tidy dir d t ↔ Archived Store.Plain dir d t :=
  ⟨fun h => ⟨h.place, h.plain⟩, fun h => ⟨h.place, h.stores⟩⟩

theorem Tidy.congr {dir : Path} {d : Place} {t t' : FileTree} (h : Tidy dir d t)
    (same : Archive.SameSnapshots d t t') : Tidy dir d t' :=
  tidy_iff.2 ((tidy_iff.1 h).congr same)

structure Worker.Clean (dir : Path) (d : Place) (w : Worker) : Prop where
  sound : w.database.Sound w.files
  there : w.database.config.dataDir = dir
  store : w.database.store.Plain
  tidy : Tidy dir d w.files

namespace Worker
variable {dir : Path} {d : Place} {w : Worker}

theorem clean_iff : w.Clean dir d ↔ w.Confined Store.Plain dir d :=
  ⟨fun h => ⟨h.sound, h.there, h.store, tidy_iff.1 h.tidy⟩,
    fun h => ⟨h.sound, h.there, h.store, tidy_iff.2 h.archived⟩⟩

theorem clean_of_start {c : Config} {now : Nat} {db : Database} {t t' : FileTree}
    (start : Database.start c now t = (.ok db, t')) (there : c.dataDir = dir)
    (h : Tidy dir d t) : Clean dir d ⟨db, t'⟩ :=
  clean_iff.2 (confined_of_start (Store.all_empty _ _) start there (tidy_iff.1 h))

theorem Clean.congr {t' : FileTree} (h : w.Clean dir d)
    (same : Archive.SameSnapshots d w.files t') : Clean dir d ⟨w.database, t'⟩ :=
  clean_iff.2 ((clean_iff.1 h).congr same)

theorem Clean.tick (h : w.Clean dir d) (δ : Type) (now : Nat) :
    (w.tick now : Worker × List (Output δ)).1.Clean dir d :=
  clean_iff.2 ((clean_iff.1 h).tick δ now)

theorem Clean.handled (h : w.Clean dir d) (hdir : OneLine dir.text) (now : Nat) {raw : String}
    (hraw : OneLine raw) : (w.handled now raw).Clean dir d ∧
      OneLine (Reply.ofResult (w.database.handle now raw w.files).result).text := by
  have handling := w.database.handling now raw w.files
  obtain ⟨plain, answer⟩ := handling.oneLine h.sound (h.there ▸ hdir) h.store hraw
  rw [handling.respond.1] at plain
  exact ⟨clean_iff.2 ((clean_iff.1 h).handled now plain), answer⟩

theorem Clean.message (h : w.Clean dir d) (hdir : OneLine dir.text) {δ : Type} (now : Nat)
    {m : Message δ} (hm : m.OneLine) : (w.step (.message now m)).1.Clean dir d ∧
      ∀ i text, .reply i text ∈ (w.step (.message now m)).2 → OneLine text := by
  cases m with
  | stop => exact ⟨h, nofun⟩
  | ready reply sender =>
    refine ⟨h, fun i text ht => ?_⟩
    cases List.mem_singleton.1 ht
    exact hm
  | command raw sender =>
    obtain ⟨clean, answer⟩ := h.handled hdir now hm
    obtain ⟨reports, hr, -⟩ := w.command_eq now raw sender
    have hstep : w.step (.message now (.command raw sender)) = w.command now raw sender := rfl
    rw [hstep, hr]
    refine ⟨clean, fun i text ht => ?_⟩
    rcases List.mem_append.1 ht with hreport | hreply
    · simp at hreport
    · cases List.mem_singleton.1 hreply
      exact answer

end Worker

structure Port.OneLine (p : Port) : Prop where
  replies : ∀ text ∈ p.replies, Keyline.OneLine text
  waiting : ∀ text ∈ p.waiting, Keyline.OneLine text

theorem Port.OneLine.answer {p : Port} (h : p.OneLine) {texts : List String}
    (ht : ∀ text ∈ texts, Keyline.OneLine text) : (p.answer texts).OneLine :=
  ⟨List.forall_mem_append.2 ⟨h.replies, ht⟩, List.forall_mem_append.2 ⟨h.waiting, ht⟩⟩

namespace Exchange
variable {ι : Type} [DecidableEq ι]

/-- No text that the worker keeps, that waits in its queue or that goes to a client holds a line
feed. -/
structure Clean (dir : Path) (d : Place) (e : Exchange ι) : Prop where
  worker : e.worker.Clean dir d
  queue : ∀ m ∈ e.queue, m.OneLine
  ports : ∀ i, (e.ports i).OneLine
  balanced : ∀ i, Balanced (e.ports i)

theorem clean_of_step {dir : Path} {d : Place} (hdir : OneLine dir.text) {e f : Exchange ι}
    (h : e.Clean dir d) (step : Step e f) : f.Clean dir d := by
  have balanced := balanced_of_step h.balanced step
  have hport {i : ι} {p : Port} (hp : p.OneLine) (j : ι) : ((e.setPort i p).ports j).OneLine :=
    forall_setPort (P := fun _ => Port.OneLine) h.ports hp j
  have hqueue {m : Message ι} (hm : m.OneLine) : ∀ m' ∈ e.queue ++ [m], m'.OneLine :=
    List.forall_mem_append.2 ⟨h.queue, fun m' hm' => List.mem_singleton.1 hm' ▸ hm⟩
  cases step with
  | arrive i bytes rest next =>
    have hi := h.ports i
    exact ⟨h.worker, h.queue, hport ⟨hi.replies, hi.waiting⟩, balanced⟩
  | line i line rest reading next =>
    have hi := h.ports i
    have hm := Session.oneLine_message i (Port.next?_eq_some next).1
    exact ⟨h.worker, hqueue hm, hport ⟨hi.replies, hi.waiting⟩, balanced⟩
  | close i reading sent read =>
    have hi := h.ports i
    exact ⟨h.worker, h.queue, hport ⟨hi.replies, hi.waiting⟩, balanced⟩
  | refused i line rest ended reading next =>
    have hi := h.ports i
    exact ⟨h.worker, h.queue, hport ⟨hi.replies, hi.waiting⟩, balanced⟩
  | stop => exact ⟨h.worker, hqueue trivial, h.ports, balanced⟩
  | receive now m rest running next =>
    have hq := h.queue
    rw [next, List.forall_mem_cons] at hq
    obtain ⟨clean, replies⟩ := h.worker.message hdir now hq.1
    refine ⟨clean, hq.2, fun i => (h.ports i).answer fun text ht => ?_, balanced⟩
    exact replies i text (Session.mem_of_mem_replies ht)
  | tick now running => exact ⟨h.worker.tick ι now, h.queue, h.ports, balanced⟩
  | write i text rest next =>
    have hi := h.ports i
    have hw := hi.waiting
    rw [next, List.forall_mem_cons] at hw
    exact ⟨h.worker, h.queue, hport ⟨hi.replies, hw.2⟩, balanced⟩

omit [DecidableEq ι] in
theorem Clean.count {dir : Path} {d : Place} {e : Exchange ι} (h : e.Clean dir d) (i : ι) :
    (e.ports i).written.count Wire.lineFeed + (e.ports i).waiting.length =
      (e.ports i).replies.length := by
  have hi := h.ports i
  have hb := congrArg (List.count Wire.lineFeed) (h.balanced i)
  rwa [List.count_append, Session.count_written hi.waiting, Session.count_written hi.replies] at hb

end Exchange

/-- A data directory with the exchange of the server that is open over it, if one is. -/
inductive Station (ι : Type)
  | closed (files : FileTree)
  | serving (e : Exchange ι)

namespace Station
variable {ι : Type} [DecidableEq ι]

/-- One step at the data directory `dir`, where others change files as `outside` allows. -/
inductive Step (dir : Path) (outside : FileTree → FileTree → Prop) :
    Station ι → Station ι → Prop
  | opened (c : Config) (now : Nat) (t t' : FileTree) (db : Database) (streams : ι → Bytes)
      (there : c.dataDir = dir) (start : Database.start c now t = (.ok db, t')) :
    Step dir outside (.closed t) (.serving (.opened ⟨db, t'⟩ streams))
  | refused (c : Config) (now : Nat) (t t' : FileTree) (e : Failure) (there : c.dataDir = dir)
      (start : Database.start c now t = (.error e, t')) :
    Step dir outside (.closed t) (.closed t')
  | exchange (e f : Exchange ι) (step : Exchange.Step e f) :
    Step dir outside (.serving e) (.serving f)
  /-- The server is gone, whether or not its worker was stopped. -/
  | ended (e : Exchange ι) : Step dir outside (.serving e) (.closed e.worker.files)
  | others (t t' : FileTree) (changed : outside t t') : Step dir outside (.closed t) (.closed t')
  | disturbed (e : Exchange ι) (t' : FileTree) (changed : outside e.worker.files t') :
    Step dir outside (.serving e) (.serving { e with worker := ⟨e.worker.database, t'⟩ })

inductive Reaches (dir : Path) (outside : FileTree → FileTree → Prop) (v : Station ι) :
    Station ι → Prop
  | start : Reaches dir outside v v
  | step {u w : Station ι} (reached : Reaches dir outside v u) (step : Step dir outside u w) :
    Reaches dir outside v w

def Clean (dir : Path) (d : Place) : Station ι → Prop
  | closed t => Tidy dir d t
  | serving e => e.Clean dir d

theorem clean_of_step {dir : Path} {d : Place} (hdir : OneLine dir.text) {v w : Station ι}
    (h : v.Clean dir d) (step : Step dir (Archive.SameSnapshots d) v w) : w.Clean dir d := by
  cases step with
  | opened c now t t' db streams there start =>
    exact ⟨Worker.clean_of_start start there h, nofun, fun i => ⟨nofun, nofun⟩, fun i => rfl⟩
  | refused c now t t' e there start => exact h.congr (Database.start_error start).sameFiles
  | exchange e f step => exact Exchange.clean_of_step hdir h step
  | ended e => exact h.worker.tidy
  | others t t' changed => exact h.congr changed
  | disturbed e t' changed => exact ⟨h.worker.congr changed, h.queue, h.ports, h.balanced⟩

theorem clean_of_reaches {dir : Path} {d : Place} (hdir : OneLine dir.text) {v w : Station ι}
    (h : v.Clean dir d) (reached : Reaches dir (Archive.SameSnapshots d) v w) :
    w.Clean dir d := by
  induction reached with
  | start => exact h
  | step reached step ih => exact clean_of_step hdir ih step

/-- Where servers are opened over a directory that held no snapshots, no key and no value of a store
ever holds a line feed, and no reply does; so a client is written as many line feeds as replies. -/
theorem replies_are_lines {dir : Path} {t : FileTree} {e : Exchange ι}
    (hdir : OneLine dir.text)
    (empty : ∀ m, Archive.isSnapshot t (Site.archive dir) (t.placeOf (Site.archive dir)) m = false)
    (reached : Reaches dir (Archive.SameSnapshots (t.placeOf (Site.archive dir))) (.closed t)
      (.serving e)) :
    (∀ k v, e.worker.database.store.get? k = some v → OneLine k ∧ OneLine v) ∧
      ∀ i, (∀ text ∈ (e.ports i).replies, OneLine text) ∧
        (e.ports i).written.count Wire.lineFeed + (e.ports i).waiting.length =
          (e.ports i).replies.length := by
  have tidy : Tidy dir (t.placeOf (Site.archive dir)) t := tidy_iff.2 (.of_bare empty)
  have clean : e.Clean dir _ := clean_of_reaches (v := .closed t) hdir tidy reached
  exact ⟨clean.worker.store, fun i => ⟨(clean.ports i).replies, clean.count i⟩⟩

/-- A value is set and saved, and a server that is opened later gives it back. -/
theorem restored_reply_is_line :
    let c : Config := { dataDir := ⟨"/d"⟩ }
    let d := FileTree.empty.placeOf (Site.archive c.dataDir)
    ∃ e : Exchange Unit, OneLine c.dataDir.text ∧
      (∀ m, Archive.isSnapshot .empty (Site.archive c.dataDir) d m = false) ∧
      Reaches c.dataDir (Archive.SameSnapshots d) (.closed .empty) (.serving e) ∧
      (e.ports ()).replies = ["OK v\r w"] ∧ (e.ports ()).written = Wire.frame "OK v\r w" ∧
      (e.ports ()).written.count Wire.lineFeed = 1 := by
  intro c d
  let outside := Archive.SameSnapshots d
  have hdir : OneLine c.dataDir.text := by decide
  have empty := Archive.isSnapshot_empty (Site.archive c.dataDir) d
  let db₁ : Database := ⟨c, ∅, ⟨⟨"/d/snapshots"⟩, 0⟩, some ⟨⟨"/d/logs"⟩, 5, 1600000000000,
    ⟨["d", "logs", "1600000000000.kvslog"], 0⟩, 0⟩, 0⟩
  let t₁ := (Database.start c 1600000000000 .empty).2
  have start₁ : Database.start c 1600000000000 .empty = (.ok db₁, t₁) :=
    Prod.ext (by decide +kernel) rfl
  let set : String := "set k \"v\r w\""
  let e₁ : Exchange Unit := .opened ⟨db₁, t₁⟩ fun _ => Wire.frame set
  let e₂ := e₁.setPort () { e₁.ports () with arrived := Wire.frame set, unsent := [] }
  let e₃ := (e₂.setPort () { e₂.ports () with arrived := [] }).enter (.line () (Utf8.encode set))
  let e₄ := e₃.receive 1600000000001 (.command set ()) []
  let e₅ : Exchange Unit := { e₄ with
    worker := (e₄.worker.tick 1600000000002 : Worker × List (Output Unit)).1 }
  have reached₅ : Reaches c.dataDir outside (.closed .empty) (.serving e₅) :=
    .step (.step (.step (.step (.step .start
      (.opened c 1600000000000 .empty t₁ db₁ (fun _ => Wire.frame set) rfl start₁))
      (.exchange e₁ e₂ (.arrive e₁ () (Wire.frame set) [] (by decide +kernel))))
      (.exchange e₂ e₃ (.line e₂ () (Utf8.encode set) [] rfl (by decide +kernel))))
      (.exchange e₃ e₄ (.receive e₃ _ _ _ rfl (by decide +kernel))))
      (.exchange e₄ e₅ (.tick e₄ _ (by decide +kernel)))
  let db₆ : Database := ⟨c, .ofList [("k", "v\r w")], ⟨⟨"/d/snapshots"⟩, 1600000000002⟩, some
    ⟨⟨"/d/logs"⟩, 5, 1600000000003, ⟨["d", "logs", "1600000000003.kvslog"], 0⟩, 0⟩, 0⟩
  let t₆ := (Database.start c 1600000000003 e₅.worker.files).2
  have start₆ : Database.start c 1600000000003 e₅.worker.files = (.ok db₆, t₆) :=
    Prod.ext (by decide +kernel) rfl
  let get : String := "get k"
  let e₆ : Exchange Unit := .opened ⟨db₆, t₆⟩ fun _ => Wire.frame get
  let e₇ := e₆.setPort () { e₆.ports () with arrived := Wire.frame get, unsent := [] }
  let e₈ := (e₇.setPort () { e₇.ports () with arrived := [] }).enter (.line () (Utf8.encode get))
  let e₉ := e₈.receive 1600000000004 (.command get ()) []
  let e := e₉.setPort () ((e₉.ports ()).write "OK v\r w" [])
  have reached : Reaches c.dataDir outside (.closed .empty) (.serving e) :=
    .step (.step (.step (.step (.step (.step reached₅ (.ended e₅))
      (.opened c 1600000000003 e₅.worker.files t₆ db₆ (fun _ => Wire.frame get) rfl start₆))
      (.exchange e₆ e₇ (.arrive e₆ () (Wire.frame get) [] (by decide +kernel))))
      (.exchange e₇ e₈ (.line e₇ () (Utf8.encode get) [] rfl (by decide +kernel))))
      (.exchange e₈ e₉ (.receive e₈ _ _ _ rfl (by decide +kernel))))
      (.exchange e₉ e (.write e₉ () _ _ (by decide +kernel)))
  have replies : (e.ports ()).replies = ["OK v\r w"] := by decide +kernel
  have waiting : (e.ports ()).waiting = [] := by decide +kernel
  obtain ⟨-, hports⟩ := replies_are_lines hdir empty reached
  have count := (hports ()).2
  rw [replies, waiting] at count
  exact ⟨e, hdir, empty, reached, replies, by decide +kernel, count⟩

end Station
end Keyline
