import Keyline.Link
import Keyline.Proofs.Connections.Hubs
import Keyline.Proofs.Runs.OneLine
import Keyline.Proofs.Runs.Responses
import Keyline.Proofs.Wire.Lines
import Keyline.Server

/-!
# Requests

A client that has a server for itself reads as responses what a database over the same data
directory answers that handles the commands directly. On the way a command and a response lose a
carriage return at the end, and nothing else.
-/
namespace Keyline

namespace Database

/-- Handles commands one after another, each at its reading of the clock. -/
def handleAll (db : Database) (t : FileTree) : List (Nat × String) → List (Except Failure Reply)
  | [] => []
  | (now, raw) :: rest =>
    (db.handle now raw t).result ::
      (db.handle now raw t).database.handleAll (db.handle now raw t).files rest

theorem handleAll_eq {db : Database} {t : FileTree} {cs : List (Nat × String)}
    (unfailed : ∀ e, .error e ∉ db.handleAll t cs) :
    db.handleAll t cs = (db.store.respondAll (cs.map Prod.snd)).map .ok := by
  induction cs generalizing db t with
  | nil => rfl
  | cons c cs ih =>
    obtain ⟨now, raw⟩ := c
    obtain ⟨hstore, hreply⟩ := (db.handling now raw t).respond
    rw [handleAll] at unfailed ⊢
    have hrest := ih fun e he => unfailed e (List.mem_cons_of_mem _ he)
    cases hr : (db.handle now raw t).result with
    | error e =>
      rw [hr] at unfailed
      exact absurd List.mem_cons_self (unfailed e)
    | ok reply =>
      rw [hrest, hstore, hreply reply hr]
      rfl

/-- What a start restores depends on the data directory alone. -/
theorem store_of_start {c c' : Config} {now now' : Nat} {db db' : Database} {t u u' : FileTree}
    (h : start c now t = (.ok db, u)) (h' : start c' now' t = (.ok db', u'))
    (there : c'.dataDir = c.dataDir) : db'.store = db.store := by
  obtain ⟨q, t₁, hm, ha, hr, -⟩ := start_ok h
  obtain ⟨q', t₁', hm', ha', hr', -⟩ := start_ok h'
  rw [there, hm] at hm'
  cases hm'
  rw [Config.snapshotDir, there, ← Config.snapshotDir, ha] at ha'
  rw [← Except.ok.inj ha', hr] at hr'
  exact (Except.ok.inj hr').symm

end Database

theorem Session.messages_frame {δ : Type} (sender : δ) {command : String}
    (h : OneLine command) :
    messages sender (Wire.frame command) = [.command (chomp command) sender] := by
  have hd : Utf8.decode? (Utf8.encode (chomp command)) = some (chomp command) :=
    Utf8.decode?_eq_some_iff.2 rfl
  rw [messages, Wire.frame, Wire.lines_append (Utf8.lineFeed_not_mem_encode h), Wire.lines,
    List.map_singleton, message, Wire.trim_encode, hd]

namespace Hub

/-- The client has read everything and nothing of a line has come. -/
def Idle (h : Hub) (i : Nat) : Prop := h.connections[i]? = some { served := true, sending := true }

theorem receive_frame {h : Hub} {i : Nat} (idle : h.Idle i) (now : Nat) {command : String}
    (hc : OneLine command) :
    let r := (h.worker.database.handle now (chomp command) h.worker.files).result
    (h.receive now i (Wire.frame command)).worker = h.worker.handled now (chomp command) ∧
    (h.receive now i (Wire.frame command)).connections[i]? = some
      { served := true, sending := true, unread := Wire.frame (Reply.ofResult r).text } ∧
    ∃ reports, (h.receive now i (Wire.frame command)).reports = h.reports ++ reports ∧
      (reports = [] → ∃ reply, r = .ok reply) := by
  intro r
  obtain ⟨reports, hcommand, hreports⟩ := h.worker.command_eq now (chomp command) i
  have hstep : h.worker.step (.message now (.command (chomp command) i)) =
      h.worker.command now (chomp command) i := rfl
  have hlive : h.live? i = some { served := true, sending := true } := by
    rw [live?, idle]
    rfl
  rw [receive, hlive]
  simp only [List.nil_append, Wire.whole_frame, submit, Session.messages_frame i hc,
    List.foldl_cons, List.foldl_nil, dispatch, hstep, hcommand, List.foldl_append,
    foldl_deliver_reports, deliver]
  refine ⟨trivial, ?_, reports, rfl, hreports⟩
  rw [Idle] at idle
  simp [idle, r]

end Hub

namespace Link

/-- A command whose response is one line is answered, and the connection is idle again. -/
theorem request_idle {l : Link} (idle : l.hub.Idle l.number) (now : Nat) {command : String}
    (hc : OneLine command) :
    let r := (l.hub.worker.database.handle now (chomp command) l.hub.worker.files).result
    ∃ reports, (l.request now command).2.hub.reports = l.hub.reports ++ reports ∧
      (reports = [] → ∃ reply, r = .ok reply) ∧
      (l.request now command).2.hub.worker = l.hub.worker.handled now (chomp command) ∧
      (OneLine (Reply.ofResult r).text →
        (l.request now command).1 = .ok (chomp (Reply.ofResult r).text) ∧
        (l.request now command).2.hub.Idle (l.request now command).2.number) := by
  intro r
  obtain ⟨hworker, hconnection, reports, hreports, hfail⟩ := Hub.receive_frame idle now hc
  have hunread : (l.hub.receive now l.number (Wire.frame command)).unread l.number =
      Wire.frame (Reply.ofResult r).text := by
    rw [Hub.unread, hconnection]
    rfl
  rw [request, Client.request_eq hc]
  dsimp only
  rw [hunread]
  refine ⟨reports, ?_, hfail, ?_, fun ht => ?_⟩
  · split <;> exact hreports
  · split <;> exact hworker
  · have hresponse := Client.response_frame ht []
    rw [List.append_nil] at hresponse
    rw [hresponse]
    refine ⟨rfl, ?_⟩
    simp [Hub.Idle, Hub.leaveUnread, hconnection]

theorem use_eq {l : Link} {hs : List Happening} (idle : l.hub.Idle l.number)
    (plain : l.hub.worker.database.store.All (fun _ => True) OneLine)
    (lines : ∀ command ∈ commands hs, OneLine command)
    (undisturbed : (l.use hs).2.hub.reports = []) :
    (l.use hs).1 = (l.hub.worker.database.store.respondAll ((commands hs).map chomp)).map
      fun reply => .ok (chomp reply.text) := by
  induction hs generalizing l with
  | nil => rfl
  | cons h hs ih =>
    cases h with
    | tick now =>
      obtain ⟨hworker, hconnections⟩ := l.hub.tick_eq now
      have hstore : (l.hub.tick now).worker.database.store = l.hub.worker.database.store := by
        rw [hworker]
        exact l.hub.worker.store_tick Nat now
      have idle' : (l.hub.tick now).Idle l.number := by
        rw [Hub.Idle, hconnections]
        exact idle
      have hrest := ih (l := { l with hub := l.hub.tick now }) idle' (hstore ▸ plain) lines
        undisturbed
      rw [use, hrest, hstore]
      rfl
    | request now command =>
      obtain ⟨hc, more⟩ := List.forall_mem_cons.1 lines
      obtain ⟨reports, hreports, hfail, hworker, hresponse⟩ := request_idle idle now hc
      have handling := l.hub.worker.database.handling now (chomp command) l.hub.worker.files
      obtain ⟨hstore, hreply⟩ := handling.respond
      have plain' := plain.respond fun k v parsed =>
        ⟨trivial, (Query.oneLine_of_parse parsed (not_mem_chomp hc)).2⟩
      have oneLine := plain.oneLine_respond (chomp command)
      have hnone : (l.request now command).2.hub.reports = [] := by
        have h := (l.request now command).2.reports_use hs
        rw [use] at undisturbed
        rw [undisturbed] at h
        exact List.prefix_nil.1 h
      rw [hreports] at hnone
      obtain ⟨reply, hr⟩ := hfail (List.append_eq_nil_iff.1 hnone).2
      rw [hr, hreply reply hr] at hresponse
      obtain ⟨hfirst, idle'⟩ := hresponse oneLine
      have hstore' : (l.request now command).2.hub.worker.database.store =
          (l.hub.worker.database.store.respond (chomp command)).2 := by
        rw [hworker]
        exact hstore
      have hrest := ih idle' (hstore' ▸ plain') more undisturbed
      rw [use, hrest, hstore', hfirst]
      rfl

end Link

theorem Server.start_ok {o : ServerOptions} {isFree : Address → Bool} {now : Nat}
    {s : Listening} {t t' : FileTree} (h : start o isFree now t = (.ok s, t')) :
    Database.start s.config now t = (.ok s.database, t') := by
  rw [start] at h
  split at h
  · simp at h
  · split at h
    · simp at h
    · next hs =>
      split at h
      · simp at h
      · cases h
        exact hs

theorem Server.start_eq {o : ServerOptions} {isFree : Address → Bool} {now : Nat} {c : Config}
    {db : Database} {address : Address} {t t' : FileTree} (config : o.config t = .ok c)
    (opened : Database.start c now t = (.ok db, t')) (bound : bind c isFree = .ok address) :
    start o isFree now t = (.ok ⟨c, db, address⟩, t') := by
  rw [start, config]
  dsimp only
  rw [opened]
  dsimp only
  rw [bound]

/-- A server that listens, before anyone connects. -/
def Server.Listening.hub (s : Listening) (t : FileTree) : Hub :=
  { worker := ⟨s.database, t⟩, admission := { limit := s.config.maxConnections } }

namespace Link

theorem connect_idle {s : Server.Listening} (t : FileTree) (places : 0 < s.config.maxConnections) :
    (connect (s.hub t)).hub.Idle (connect (s.hub t)).number := by
  have harrive : (s.hub t).admission.arrive {} =
      (.served, { limit := s.config.maxConnections, active := 1 }) := by
    simp [Server.Listening.hub, Admission.arrive, Admission.isFull, Admission.enter,
      Admission.start, Nat.ne_of_gt places]
  rw [connect, Hub.arrive, harrive]
  rfl

/-- As long as nothing fails to be kept, and no value holds a line feed in the beginning, the
responses that a client reads are those of a database over the same data directory that handles the
commands directly, where a command and a response lose a carriage return at the end. -/
theorem responses_are_direct {o : ServerOptions} {isFree : Address → Bool} {now now' : Nat}
    {s : Server.Listening} {c : Config} {db : Database} {t t₁ t₂ : FileTree}
    (start : Server.start o isFree now t = (.ok s, t₁)) (places : 0 < s.config.maxConnections)
    (opened : Database.start c now' t = (.ok db, t₂)) (there : c.dataDir = s.config.dataDir)
    (values : ∀ k v, db.store.get? k = some v → '\n' ∉ v.toList) {hs : List Happening}
    (lines : ∀ command ∈ commands hs, '\n' ∉ command.toList)
    (kept : ((connect (s.hub t₁)).use hs).2.hub.reports = []) {cs : List (Nat × String)}
    (direct : cs.map Prod.snd = (commands hs).map chomp)
    (kept' : ∀ e, .error e ∉ db.handleAll t₂ cs) :
    ((connect (s.hub t₁)).use hs).1 =
      (db.handleAll t₂ cs).map fun r => .ok (chomp (Reply.ofResult r).text) := by
  have hstore : db.store = s.database.store :=
    Database.store_of_start (Server.start_ok start) opened there
  have plain : s.database.store.All (fun _ => True) OneLine := by
    intro k v h
    rw [← hstore] at h
    exact ⟨trivial, values k v h⟩
  rw [use_eq (connect_idle t₁ places) plain lines kept, Database.handleAll_eq kept', direct,
    hstore, List.map_map]
  rfl

/-- A carriage return behind a command gets lost, and what was saved makes no difference. -/
theorem responses_are_direct_of_two_commands :
    let o : ServerOptions := { dataDir := some ⟨"/d"⟩ }
    let c : Config := { dataDir := ⟨"/d"⟩, logEnabled := false }
    let hs : List Happening :=
      [.request 1600000000001 "set k v\r", .tick 1600000000002, .request 1600000000003 "get k"]
    let cs := [(5, "set k v"), (4, "get k")]
    ∃ s t₁ db t₂, Server.start o (fun _ => true) 1600000000000 .empty = (.ok s, t₁) ∧
      0 < s.config.maxConnections ∧ Database.start c 1500000000000 .empty = (.ok db, t₂) ∧
      c.dataDir = s.config.dataDir ∧
      (∀ k v, db.store.get? k = some v → '\n' ∉ v.toList) ∧
      (∀ command ∈ commands hs, '\n' ∉ command.toList) ∧
      ((connect (s.hub t₁)).use hs).2.hub.reports = [] ∧
      cs.map Prod.snd = (commands hs).map chomp ∧ (∀ e, .error e ∉ db.handleAll t₂ cs) ∧
      ((connect (s.hub t₁)).use hs).1 = [.ok "OK 1", .ok "OK v"] := by
  intro o c hs cs
  let c₁ : Config := { dataDir := ⟨"/d"⟩ }
  let db₁ : Database := ⟨c₁, ∅, ⟨⟨"/d/snapshots"⟩, 0⟩, some ⟨⟨"/d/logs"⟩, 5, 1600000000000,
    ⟨["d", "logs", "1600000000000.kvslog"], 0⟩, 0⟩, 0⟩
  let t₁ := (Database.start c₁ 1600000000000 .empty).2
  let db₂ : Database := ⟨c, ∅, ⟨⟨"/d/snapshots"⟩, 0⟩, none, 0⟩
  let t₂ := (Database.start c 1500000000000 .empty).2
  let s : Server.Listening := ⟨c₁, db₁, ⟨"127.0.0.1", 7878⟩⟩
  have start : Server.start o (fun _ => true) 1600000000000 .empty = (.ok s, t₁) :=
    Server.start_eq rfl (Prod.ext (by decide +kernel) rfl) (by decide +kernel)
  have opened : Database.start c 1500000000000 .empty = (.ok db₂, t₂) :=
    Prod.ext (by decide +kernel) rfl
  have lines : ∀ command ∈ commands hs, '\n' ∉ command.toList := by decide
  have kept : ((connect (s.hub t₁)).use hs).2.hub.reports = [] := by decide +kernel
  have direct : cs.map Prod.snd = (commands hs).map chomp := by decide +kernel
  have replies : db₂.handleAll t₂ cs = [.ok (.changed true), .ok (.value "v")] := by
    decide +kernel
  have kept' : ∀ e, .error e ∉ db₂.handleAll t₂ cs := by
    intro e
    simp [replies]
  refine ⟨s, t₁, db₂, t₂, start, by decide, opened, rfl, nofun, lines, kept, direct, kept', ?_⟩
  rw [responses_are_direct start (by decide) opened rfl nofun lines kept direct kept', replies]
  decide +kernel

/-- Whether responses are always, to the letter, those of a database that handles the same commands
directly, over given files. -/
def Transparent (t : FileTree) (hs : List Happening) : Prop :=
  ∀ (o : ServerOptions) (isFree : Address → Bool) (now now' : Nat) (s : Server.Listening)
    (c : Config) (db : Database) (t₁ t₂ : FileTree) (cs : List (Nat × String)),
    Server.start o isFree now t = (.ok s, t₁) → 0 < s.config.maxConnections →
    Database.start c now' t = (.ok db, t₂) → c.dataDir = s.config.dataDir →
    (∀ command ∈ commands hs, '\n' ∉ command.toList) →
    ((connect (s.hub t₁)).use hs).2.hub.reports = [] → cs.map Prod.snd = commands hs →
    (∀ e, .error e ∉ db.handleAll t₂ cs) →
    ((connect (s.hub t₁)).use hs).1 = (db.handleAll t₂ cs).map fun r => .ok (Reply.ofResult r).text

def snapshotOnly (text : String) : FileTree :=
  ((FileTree.empty.insert ["d"] .directory).insert ["d", "snapshots"] .directory).insert
    ["d", "snapshots", "1-snapshot.json"] (.file 0 (Utf8.encode text))

theorem not_transparent {t t₁ : FileTree} {hs : List Happening} {db : Database}
    (cs : List (Nat × String)) (replies : List Reply) (responses : List (Except Failure String))
    (opened : Database.start { dataDir := ⟨"/d"⟩ } 1600000000000 t = (.ok db, t₁))
    (lines : ∀ command ∈ commands hs, '\n' ∉ command.toList)
    (kept : ((connect (Server.Listening.hub ⟨{ dataDir := ⟨"/d"⟩ }, db, ⟨"127.0.0.1", 7878⟩⟩
      t₁)).use hs).2.hub.reports = [])
    (same : cs.map Prod.snd = commands hs) (direct : db.handleAll t₁ cs = replies.map .ok)
    (read : ((connect (Server.Listening.hub ⟨{ dataDir := ⟨"/d"⟩ }, db, ⟨"127.0.0.1", 7878⟩⟩
      t₁)).use hs).1 = responses)
    (differ : responses ≠ replies.map fun reply => .ok reply.text) : ¬ Transparent t hs := by
  intro h
  have start : Server.start { dataDir := some ⟨"/d"⟩ } (fun _ => true) 1600000000000 t =
      (.ok ⟨{ dataDir := ⟨"/d"⟩ }, db, ⟨"127.0.0.1", 7878⟩⟩, t₁) :=
    Server.start_eq rfl opened (by decide +kernel)
  have hresponses := h _ _ _ _ _ _ db t₁ t₁ cs start (show 0 < 1024 by decide) opened rfl lines
    kept same (by simp [direct])
  rw [read, direct, List.map_map] at hresponses
  exact differ hresponses

/-- A carriage return behind a command or a value gets lost, and a response whose value holds a line
feed is read as two. -/
theorem not_transparent_of_line_ends :
    let n := 1600000000000
    let get : Happening := .request n "get k"
    ¬ Transparent .empty [.request n "set k v", .request n "get k\r"] ∧
      ¬ Transparent (snapshotOnly "[[\"k\",\"v\\r\"]]") [get] ∧
      ¬ Transparent (snapshotOnly "[[\"k\",\"v\\nw\"]]") [get, get] := by
  intro n get
  let opened (s : Store) (last : Nat) : Database := ⟨{ dataDir := ⟨"/d"⟩ }, s,
    ⟨⟨"/d/snapshots"⟩, last⟩, some ⟨⟨"/d/logs"⟩, 5, n,
    ⟨["d", "logs", "1600000000000.kvslog"], 0⟩, 0⟩, 0⟩
  refine ⟨?_, ?_, ?_⟩
  · have start : Database.start { dataDir := ⟨"/d"⟩ } n .empty = (.ok (opened ∅ 0), _) :=
      Prod.ext (by decide +kernel) rfl
    exact not_transparent [(n, "set k v"), (n, "get k\r")]
      [.changed true, .error Rejection.argumentCount.message] [.ok "OK 1", .ok "OK v"] start
      (by decide) (by decide +kernel) rfl (by decide +kernel) (by decide +kernel) (by decide)
  · have start : Database.start { dataDir := ⟨"/d"⟩ } n (snapshotOnly "[[\"k\",\"v\\r\"]]") =
        (.ok (opened (.ofList [("k", "v\r")]) 1), _) := Prod.ext (by decide +kernel) rfl
    exact not_transparent [(n, "get k")] [.value "v\r"] [.ok "OK v"] start (by decide)
      (by decide +kernel) rfl (by decide +kernel) (by decide +kernel) (by decide)
  · have start : Database.start { dataDir := ⟨"/d"⟩ } n (snapshotOnly "[[\"k\",\"v\\nw\"]]") =
        (.ok (opened (.ofList [("k", "v\nw")]) 1), _) := Prod.ext (by decide +kernel) rfl
    exact not_transparent [(n, "get k"), (n, "get k")] [.value "v\nw", .value "v\nw"]
      [.ok "OK v", .ok "w"] start (by decide) (by decide +kernel) rfl (by decide +kernel)
      (by decide +kernel) (by decide)

end Link

end Keyline
