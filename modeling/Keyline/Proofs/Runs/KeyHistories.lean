import Keyline.Proofs.Runs.Responses

/-!
# The history of a key

What a database answers to a command for a key depends on the last accepted command that set or
removed this key, or, as long as there was none, on what the store held in the beginning. Ticks,
commands for other keys, and texts that are no commands do not matter, and neither does it whether
the commands before could be recorded.
-/
namespace Keyline

namespace Query

/-- The text that answers a query for a key that has this value, if it has one. -/
def answer : Query → Option String → String
  | get _, some v => "OK " ++ v
  | get _, none => "-OK"
  | set _ _, none => "OK 1"
  | set _ _, some _ => "OK 0"
  | delete _, some _ => "OK 1"
  | delete _, none => "OK 0"

theorem text_reply (q : Query) (o : Option String) : (q.reply o).text = q.answer o := by
  cases q <;> cases o <;> rfl

end Query

namespace Database

/-- What a deed gives the key `k`, if anything, whether or not it was recorded: a value, or none
where it removes the key. -/
def Deed.given? (k : String) : Deed → Option (Option String)
  | handled raw _ => (Query.parse raw).toOption.bind (Query.given? k)
  | _ => none

/-- What the last of the deeds that gave the key anything gave it; if there was none, what the
store held. -/
def held (s : Store) (k : String) (ds : List Deed) : Option String :=
  (ds.reverse.findSome? (Deed.given? k)).getD (s.get? k)

@[simp] theorem held_nil (s : Store) (k : String) : held s k [] = s.get? k := rfl

@[simp] theorem held_concat (s : Store) (k : String) (ds : List Deed) (d : Deed) :
    held s k (ds ++ [d]) = (d.given? k).getD (held s k ds) := by
  rw [held, List.reverse_append, List.reverse_singleton, List.singleton_append,
    List.findSome?_cons]
  cases d.given? k <;> rfl

theorem get?_of_step {outside : FileTree → FileTree → Prop} {v w : Worker} {d : Deed}
    (step : Step outside v d w) (k : String) :
    w.database.store.get? k = (d.given? k).getD (v.database.store.get? k) := by
  cases step with
  | handled db t now raw =>
    rw [(db.handling now raw t).respond.1]
    exact db.store.get?_respond raw k
  | saved db db' t t' now path tick =>
    have h := db.ticking now t
    rw [tick] at h
    cases h
    rfl
  | idle db db' t t' now tick =>
    have h := db.ticking now t
    rw [tick] at h
    cases h
    rfl
  | failed => rfl
  | others => rfl

/-- Deeds one after another, where a line may also get lost on its way to an open file. Of a change
whose line is lost nothing is known but that it was applied. -/
inductive LossyRun (outside : FileTree → FileTree → Prop) : Worker → List Deed → Worker → Prop
  | start (w : Worker) : LossyRun outside w [] w
  | step {u v w : Worker} {ds : List Deed} {d : Deed} (run : LossyRun outside u ds v)
      (step : Step outside v d w) : LossyRun outside u (ds ++ [d]) w
  | lost {u v w : Worker} {ds : List Deed} (raw : String) (q : Query) (e : Failure)
      (run : LossyRun outside u ds v) (parsed : Query.parse raw = .ok q)
      (mutates : q.mutates = true) (logged : v.database.log.isSome = true)
      (applied : w.database.store = (v.database.store.apply q).2) :
    LossyRun outside u (ds ++ [.handled raw (.error e)]) w

theorem eq_or_exists_of_concat {α : Type} {xs ys zs : List α} {x y : α}
    (h : xs ++ [x] = ys ++ y :: zs) : (xs = ys ∧ x = y) ∨ ∃ zs', xs = ys ++ y :: zs' := by
  rcases List.eq_nil_or_concat zs with rfl | ⟨zs', z, rfl⟩
  · obtain ⟨hxs, hx⟩ := List.append_inj' h rfl
    exact .inl ⟨hxs, List.singleton_inj.1 hx⟩
  · rw [List.concat_eq_append, ← List.cons_append, ← List.append_assoc] at h
    exact .inr ⟨zs', (List.append_inj' h rfl).1⟩

section Run
variable {outside : FileTree → FileTree → Prop} {v w : Worker} {ds : List Deed}

/-- The store holds for each key what its history says. -/
theorem get?_of_run (run : LossyRun outside v ds w) (k : String) :
    w.database.store.get? k = held v.database.store k ds := by
  induction run with
  | start => rfl
  | step run step ih => rw [held_concat, get?_of_step step, ih]
  | lost raw q e run parsed mutates logged applied ih =>
    rw [held_concat, applied, ← Store.respond_of_parse parsed, Store.get?_respond, ih]
    rfl

theorem exists_before (run : LossyRun outside v ds w) {before after : List Deed} {raw : String}
    {reply : Reply} (split : ds = before ++ .handled raw (.ok reply) :: after) :
    ∃ u : Worker, LossyRun outside v before u ∧ reply = (u.database.store.respond raw).1 := by
  induction run generalizing after with
  | start => simp at split
  | @step u w ds d run step ih =>
    rcases eq_or_exists_of_concat split with ⟨rfl, hd⟩ | ⟨earlier, hds⟩
    · refine ⟨u, run, ?_⟩
      cases step with
      | handled db t now raw' =>
        obtain ⟨rfl, hr⟩ := Deed.handled.inj hd
        exact (db.handling now raw' t).respond.2 reply hr
      | saved | idle | failed | others => cases hd
    · exact ih hds
  | lost raw' q e run parsed mutates logged applied ih =>
    rcases eq_or_exists_of_concat split with ⟨-, hd⟩ | ⟨earlier, hds⟩
    · simp at hd
    · exact ih hds

/-- Each command that is accepted and does not fail is answered as the history of its key says. -/
theorem answer_follows_history {before after : List Deed} {raw : String} {reply : Reply}
    {q : Query} (run : LossyRun outside v (before ++ .handled raw (.ok reply) :: after) w)
    (parsed : Query.parse raw = .ok q) :
    reply.text = q.answer (held v.database.store q.key before) := by
  obtain ⟨u, earlier, rfl⟩ := exists_before run rfl
  rw [Store.respond_of_parse parsed, Store.apply_fst, Query.text_reply, get?_of_run earlier]

end Run

/-- A directory stands where the next file of the log would be, so a value is set but not recorded;
it is read all the same. -/
theorem answer_follows_unrecorded_change :
    let c : Config := { dataDir := ⟨"/d"⟩, rotationThreshold := 0 }
    let n := 1600000000000
    ∃ t db t' before e w, Database.start c n t = (.ok db, t') ∧
      .handled "set k w" (.error e) ∈ before ∧
      LossyRun (fun _ _ => False) ⟨db, t'⟩ (before ++ [.handled "get k" (.ok (.value "w"))]) w ∧
      Query.parse "get k" = .ok (.get "k") ∧
      Reply.text (.value "w") = Query.answer (.get "k") (held db.store "k" before) := by
  intro c n
  let t₀ := ((FileTree.empty.insert ["d"] .directory).insert ["d", "logs"] .directory).insert
    ["d", "logs", "1600000000001.kvslog"] .directory
  let db : Database := ⟨c, ∅, ⟨⟨"/d/snapshots"⟩, 0⟩, some ⟨⟨"/d/logs"⟩, 0, 1600000000000,
    ⟨["d", "logs", "1600000000000.kvslog"], 0⟩, 0⟩, 0⟩
  let t₁ := (Database.start c n t₀).2
  let h₂ := db.handle n "set k v" t₁
  let h₃ := h₂.database.handle n "set k w" h₂.files
  let e : Failure :=
    .appendLog ("cannot open /d/logs/1600000000001.kvslog: " ++ Fault.isDirectory.message)
  let before : List Deed := [.handled "set k v" h₂.result, .handled "set k w" h₃.result]
  have start : Database.start c n t₀ = (.ok db, t₁) := Prod.ext (by decide +kernel) rfl
  have failed : h₃.result = .error e := by decide +kernel
  have answered : (h₃.database.handle n "get k" h₃.files).result = .ok (.value "w") := by
    decide +kernel
  have run₃ : LossyRun (fun _ _ => False) ⟨db, t₁⟩ before ⟨h₃.database, h₃.files⟩ :=
    .step (.step (.start _) (.handled db t₁ n "set k v")) (.handled h₂.database h₂.files n "set k w")
  have run := LossyRun.step run₃ (.handled h₃.database h₃.files n "get k")
  rw [answered] at run
  have parsed : Query.parse "get k" = .ok (.get "k") := by decide +kernel
  have mem : .handled "set k w" (.error e) ∈ before := by
    rw [← failed]
    simp [before]
  have followed := answer_follows_history run parsed
  exact ⟨t₀, db, t₁, before, e, _, start, mem, run, parsed, followed⟩

end Database
end Keyline
