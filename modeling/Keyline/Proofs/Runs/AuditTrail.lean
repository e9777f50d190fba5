import Keyline.Proofs.Logs.Volumes
import Keyline.Proofs.Runs.Acknowledged
import Keyline.Proofs.Runs.Responses

/-!
# The log as an audit trail

Nothing reads a log back, but what it holds is enough to repeat the history of a store. Each of its
lines describes a change; these changes, made one after another from the store that a database
started with, give the replies that were given and end at the store that it has.
-/
namespace Keyline

/-- The change of a store that a line describes. -/
def Query.change? (line : Bytes) : Option Query :=
  (Utf8.decode? line).bind fun raw => (Query.parse raw).toOption.filter Query.mutates

theorem Query.change?_encode {raw : String} {q : Query} (parsed : Query.parse raw = .ok q)
    (mutates : q.mutates = true) : change? (Utf8.encode raw) = some q := by
  simp [change?, parsed, mutates, Except.toOption]

namespace Store

def applyAll (s : Store) : List Query → List Reply × Store
  | [] => ([], s)
  | q :: qs =>
    let more := (s.apply q).2.applyAll qs
    ((s.apply q).1 :: more.1, more.2)

theorem applyAll_append (s : Store) (qs rs : List Query) :
    s.applyAll (qs ++ rs) =
      ((s.applyAll qs).1 ++ ((s.applyAll qs).2.applyAll rs).1,
        ((s.applyAll qs).2.applyAll rs).2) := by
  induction qs generalizing s with
  | nil => rfl
  | cons q qs ih => simp [applyAll, ih]

end Store

namespace Database

/-- The reply to a command that changes the store. -/
def changeReply? : Deed → Option Reply
  | .handled raw (.ok reply) =>
    if (logged? (.handled raw (.ok reply))).isSome then some reply else none
  | _ => none

def changeReplies (ds : List Deed) : List Reply := ds.filterMap changeReply?

theorem changeReplies_append (ds : List Deed) (d : Deed) :
    changeReplies (ds ++ [d]) = changeReplies ds ++ (changeReply? d).toList := by
  unfold changeReplies
  rw [List.filterMap_append]
  cases h : changeReply? d with
  | none => simp [h]
  | some reply => simp [h]

/-- `lines` describe what leads from the store `s` to `s'`, with these replies. -/
def Retraces (lines : List Bytes) (s : Store) (replies : List Reply) (s' : Store) : Prop :=
  ∃ qs : List Query, lines.map Query.change? = qs.map some ∧ s.applyAll qs = (replies, s')

theorem Retraces.append {xs ys : List Bytes} {s s' s'' : Store} {rs rs' : List Reply}
    (h : Retraces xs s rs s') (h' : Retraces ys s' rs' s'') :
    Retraces (xs ++ ys) s (rs ++ rs') s'' := by
  obtain ⟨qs, hq, ha⟩ := h
  obtain ⟨qs', hq', ha'⟩ := h'
  refine ⟨qs ++ qs', ?_, ?_⟩
  · rw [List.map_append, List.map_append, hq, hq']
  · rw [Store.applyAll_append, ha]
    dsimp only
    rw [ha']

theorem retraces_of_handling {db db' : Database} {now : Nat} {raw : String}
    {r : Except Failure Reply} {t t' : FileTree} (h : Handling db now raw t r db' t')
    (unfailed : ∀ e, r ≠ .error e) :
    Retraces ((logged? (.handled raw r)).toList.map Utf8.encode) db.store
      (changeReply? (.handled raw r)).toList db'.store := by
  have change {q : Query} (parsed : Query.parse raw = .ok q) (mutates : q.mutates = true) :
      Retraces [Utf8.encode raw] db.store [(db.store.apply q).1] (db.store.apply q).2 :=
    ⟨[q], by simp [Query.change?_encode parsed mutates], rfl⟩
  cases h with
  | rejected e parsed =>
    simp only [changeReply?, logged?, parsed]
    exact ⟨[], rfl, rfl⟩
  | read q parsed mutates =>
    simp only [changeReply?, logged?, parsed, mutates, Store.apply_of_not_mutates mutates]
    exact ⟨[], rfl, rfl⟩
  | unlogged q parsed mutates logged =>
    simpa [changeReply?, logged?, parsed, mutates] using change parsed mutates
  | recorded q log log' t' parsed mutates logged record =>
    simpa [changeReply?, logged?, parsed, mutates] using change parsed mutates
  | unrecorded q log e parsed mutates logged record => exact absurd rfl (unfailed e)

theorem retraces_of_step {outside : FileTree → FileTree → Prop} {v w : Worker} {d : Deed}
    (step : Step outside v d w) (unfailed : ∀ raw e, d ≠ .handled raw (.error e)) :
    Retraces ((logged? d).toList.map Utf8.encode) v.database.store (changeReply? d).toList
      w.database.store := by
  have same {s s' : Store} (h : s' = s) : Retraces [] s [] s' := ⟨[], rfl, by rw [h]; rfl⟩
  cases step with
  | handled db t now raw =>
    apply retraces_of_handling (db.handling now raw t)
    intro e he
    exact unfailed raw e (by rw [he])
  | saved db db' t t' now path tick =>
    have h := db.ticking now t
    rw [tick] at h
    cases h
    exact same rfl
  | idle db db' t t' now tick =>
    have h := db.ticking now t
    rw [tick] at h
    cases h
    exact same rfl
  | failed => exact same rfl
  | others => exact same rfl

/-- What is logged in a run retraces it. -/
theorem retraces_of_run {outside : FileTree → FileTree → Prop} {v w : Worker} {ds : List Deed}
    (run : Run outside v ds w) (unfailed : ∀ raw e, .handled raw (.error e) ∉ ds) :
    Retraces ((acknowledged ds).map Utf8.encode) v.database.store (changeReplies ds)
      w.database.store := by
  induction run with
  | start => exact ⟨[], rfl, rfl⟩
  | step run step ih =>
    rw [acknowledged_append, changeReplies_append, List.map_append]
    refine (ih ?_).append (retraces_of_step step ?_)
    · intro raw e he
      exact unfailed raw e (List.mem_append_left _ he)
    · rintro raw e rfl
      exact unfailed raw e (by simp)

theorem exists_handled_of_mem_acknowledged {ds : List Deed} {raw : String}
    (h : raw ∈ acknowledged ds) : ∃ r, Deed.handled raw r ∈ ds := by
  obtain ⟨d, hd, hl⟩ := List.mem_filterMap.1 h
  unfold logged? at hl
  split at hl
  · split at hl
    · split at hl
      · cases hl
        exact ⟨_, hd⟩
      · simp at hl
    · simp at hl
  · simp at hl

/-- The lines of the log files, read in the order of their timestamps, retrace a run in which no
command failed: they describe the changes that lead from the store in the beginning to the one in
the end, and the replies that were given. -/
theorem log_retraces_run {c : Config} {now : Nat} {db : Database} {t t' : FileTree}
    {ds : List Deed} {w : Worker} (enabled : c.logEnabled = true)
    (empty : ∀ n g bs,
      t.node? (t.placeOf c.logDir ++ [AppendLog.fileName n]) ≠ some (.file g bs))
    (start : Database.start c now t = (.ok db, t'))
    (run : Run (AppendLog.SameLogs (t.placeOf c.logDir)) ⟨db, t'⟩ ds w)
    (unfailed : ∀ raw e, .handled raw (.error e) ∉ ds)
    (plain : ∀ raw r, .handled raw r ∈ ds → '\n' ∉ raw.toList) :
    (∃ files, AppendLog.Chronicle w.files (t.placeOf c.logDir) files) ∧
      ∀ files, AppendLog.Chronicle w.files (t.placeOf c.logDir) files →
        Retraces (AppendLog.linesOf files) db.store (changeReplies ds) w.database.store := by
  obtain ⟨hc, hplace, hsound, log, full, current, hlog, hcon, hes⟩ :=
    recorded_of_run run (recorded_of_start start enabled empty)
  rw [List.nil_append] at hes
  have hdir : log.dir = c.logDir := by rw [(hsound.log log hlog).1, hc]
  have hd : w.files.placeOf log.dir = t.placeOf c.logDir := by rw [hdir, hplace]
  refine ⟨⟨_, hd ▸ hcon.chronicle⟩, fun files hfiles => ?_⟩
  rw [← hd] at hfiles
  rw [hcon.linesOf_eq _ hfiles, hes]
  · exact retraces_of_run run unfailed
  · intro raw hraw
    rw [hes] at hraw
    obtain ⟨r, hr⟩ := exists_handled_of_mem_acknowledged hraw
    exact plain raw r hr

/-- A value is set, read and removed in one millisecond, one entry to a volume. -/
theorem log_retraces_set_and_delete :
    let c : Config := { dataDir := ⟨"/d"⟩, rotationThreshold := 0 }
    let d := FileTree.empty.placeOf c.logDir
    ∃ db t ds w, c.logEnabled = true ∧
      (∀ n g bs, FileTree.empty.node? (d ++ [AppendLog.fileName n]) ≠ some (.file g bs)) ∧
      Database.start c 1600000000000 .empty = (.ok db, t) ∧
      Run (AppendLog.SameLogs d) ⟨db, t⟩ ds w ∧
      (∀ raw e, .handled raw (.error e) ∉ ds) ∧ (∀ raw r, .handled raw r ∈ ds → '\n' ∉ raw.toList) ∧
      ∃ files, AppendLog.Chronicle w.files d files ∧
        Retraces (AppendLog.linesOf files) db.store [.changed true, .changed true]
          w.database.store := by
  intro c d
  let db₁ : Database := ⟨c, ∅, ⟨⟨"/d/snapshots"⟩, 0⟩, some ⟨⟨"/d/logs"⟩, 0, 1600000000000,
    ⟨["d", "logs", "1600000000000.kvslog"], 0⟩, 0⟩, 0⟩
  let t₁ := (Database.start c 1600000000000 .empty).2
  let h₂ := db₁.handle 1600000000000 "set k v\r" t₁
  let h₃ := h₂.database.handle 1600000000000 "get k" h₂.files
  let h₄ := h₃.database.handle 1600000000000 "delete k" h₃.files
  have empty (n : Nat) (g : Nat) (bs : Bytes) :
      FileTree.empty.node? (d ++ [AppendLog.fileName n]) ≠ some (.file g bs) := by
    simp [FileTree.node?, FileTree.empty, FileTree.find?]
  have start : Database.start c 1600000000000 .empty = (.ok db₁, t₁) :=
    Prod.ext (by decide +kernel) rfl
  have hr₂ : h₂.result = .ok (.changed true) := by decide +kernel
  have hr₃ : h₃.result = .ok (.value "v\r") := by decide +kernel
  have hr₄ : h₄.result = .ok (.changed true) := by decide +kernel
  let ds : List Deed := [.handled "set k v\r" h₂.result, .handled "get k" h₃.result,
    .handled "delete k" h₄.result]
  have run : Run (AppendLog.SameLogs d) ⟨db₁, t₁⟩ ds ⟨h₄.database, h₄.files⟩ :=
    .step (.step (.step (.start _) (.handled db₁ t₁ 1600000000000 "set k v\r"))
      (.handled h₂.database h₂.files 1600000000000 "get k"))
      (.handled h₃.database h₃.files 1600000000000 "delete k")
  have unfailed : ∀ raw e, .handled raw (.error e) ∉ ds := by simp [ds, hr₂, hr₃, hr₄]
  have plain : ∀ raw r, .handled raw r ∈ ds → '\n' ∉ raw.toList := by
    intro raw r h
    simp only [ds, List.mem_cons, Deed.handled.injEq, List.not_mem_nil, or_false] at h
    rcases h with ⟨rfl, -⟩ | ⟨rfl, -⟩ | ⟨rfl, -⟩ <;> decide
  obtain ⟨⟨files, hfiles⟩, hall⟩ := log_retraces_run rfl empty start run unfailed plain
  have replies : changeReplies ds = [.changed true, .changed true] := by
    simp only [ds, hr₂, hr₃, hr₄]
    decide +kernel
  exact ⟨db₁, t₁, ds, _, rfl, empty, start, run, unfailed, plain, files, hfiles,
    replies ▸ hall files hfiles⟩

end Database
end Keyline
