import Keyline.Proofs.Runs.Acknowledged

/-!
# Commands that fail

A command fails only where a change is due for a new file of the log and that file cannot be opened.
Then the store has changed and the change is counted, but the log is the one it was and so are all
files. Nothing makes up for this before a change is recorded again: until then every change is due
for a new file, the first that can be opened.
-/
namespace Keyline

open FileTree

namespace AppendLog

/-- The entries `es` are those that the log counts, and the file in use ends with them. -/
def EndsWith (log : AppendLog) (t : FileTree) (es : List String) : Prop :=
  es.length = log.entries ∧ ∃ old, t.node? log.file.place =
    some (.file log.file.generation (old ++ es.flatMap line))

theorem endsWith_of_opened {dir : Path} {threshold timestamp : Nat} {log : AppendLog}
    {t t' : FileTree} (o : Opened dir threshold timestamp log t t') : log.EndsWith t' [] := by
  refine ⟨by rw [o.fresh]; rfl, t.contentAt log.file.place, ?_⟩
  rw [o.node?, if_pos rfl]
  simp

theorem EndsWith.put {log : AppendLog} {t : FileTree} {es : List String} (raw : String)
    (h : log.EndsWith t es) : (log.put raw t).1.EndsWith (log.put raw t).2 (es ++ [raw]) := by
  obtain ⟨hlength, old, hfile⟩ := h
  refine ⟨by simp [AppendLog.put, hlength], old, ?_⟩
  have hnode := append_open (line raw) hfile log.file.place
  rw [if_pos rfl] at hnode
  simpa [AppendLog.put] using hnode

theorem settings_of_record {log log' : AppendLog} {now : Nat} {raw : String} {t t' : FileTree}
    (h : log.record now raw t = .ok (log', t')) :
    log'.dir = log.dir ∧ log'.threshold = log.threshold := by
  rcases record_eq_ok_iff.1 h with ⟨-, hput⟩ | ⟨-, log₁, t₁, hrotate, hput⟩
  · cases hput
    exact ⟨rfl, rfl⟩
  · have o := opened_of_openFile hrotate
    cases hput
    constructor
    · change log₁.dir = log.dir
      rw [o.fresh]
    · change log₁.threshold = log.threshold
      rw [o.fresh]

theorem rotate_eq_error_iff {log : AppendLog} {now : Nat} {t : FileTree} {e : Failure} :
    log.rotate now t = .error e ↔
      ∃ f, (t.entry log.dir (fileName (nextTimestamp now log.timestamp))).bind t.openAppend =
          .error f ∧
        e = .appendLog (f.during "open"
          (log.dir.child (fileName (nextTimestamp now log.timestamp))).text) := by
  rw [rotate, openFile]
  split
  · next h => simp [h]
  · next f h => simp [h, eq_comm]

end AppendLog

namespace Database

/-- The entries in the file in use are the last that were recorded. -/
def InUse (log : AppendLog) (t : FileTree) (es : List String) : Prop :=
  ∃ last, last <:+ es ∧ log.EndsWith t last

theorem lasting_inUse : Lasting InUse := by
  refine ⟨?_, ?_⟩
  · rintro log t t' es placed same ⟨last, hlast, hlength, old, hfile⟩
    refine ⟨last, hlast, hlength, old, ?_⟩
    rw [placed] at hfile ⊢
    exact (same.file_iff _ ⟨_, rfl⟩ _ _).2 hfile
  · rintro log log' now raw t t' es record ⟨last, ⟨before, rfl⟩, h⟩
    rcases AppendLog.record_eq_ok_iff.1 record with ⟨-, hput⟩ | ⟨-, log₁, t₁, hrotate, hput⟩
    · have h' := h.put raw
      rw [hput] at h'
      exact ⟨last ++ [raw], ⟨before, by simp⟩, h'⟩
    · -- The new file has this entry only; those before it are counted no more.
      have h' := (AppendLog.endsWith_of_opened (AppendLog.opened_of_openFile hrotate)).put raw
      rw [hput] at h'
      exact ⟨[raw], List.suffix_append _ _, h'⟩

/-- A database has the configuration `c`, and a log of that configuration if it asks for one. -/
structure Configured (c : Config) (db : Database) : Prop where
  config : db.config = c
  logged : db.log.isSome = c.logEnabled
  log : ∀ log, db.log = some log → log.dir = c.logDir ∧ log.threshold = c.rotationThreshold

theorem configured_of_start {c : Config} {now : Nat} {db : Database} {t t' : FileTree}
    (start : Database.start c now t = (.ok db, t')) : Configured c db := by
  have sound := sound_of_start start
  obtain ⟨-, -, -, -, -, rfl, -⟩ := start_ok start
  refine ⟨rfl, sound.logged, fun log hlog => ?_⟩
  obtain ⟨hdir, hthreshold, -⟩ := sound.log log hlog
  exact ⟨hdir, hthreshold⟩

theorem Configured.handled {c : Config} {db db' : Database} {now : Nat} {raw : String}
    {t t' : FileTree} {r : Except Failure Reply} (h : Configured c db)
    (handling : Handling db now raw t r db' t') : Configured c db' := by
  cases handling with
  | rejected => exact h
  | read => exact ⟨h.config, h.logged, h.log⟩
  | unlogged => exact ⟨h.config, h.logged, h.log⟩
  | unrecorded => exact ⟨h.config, h.logged, h.log⟩
  | recorded q log log' _ _ _ logged record =>
    obtain ⟨hdir, hthreshold⟩ := h.log log logged
    obtain ⟨hdir', hthreshold'⟩ := AppendLog.settings_of_record record
    refine ⟨h.config, ?_, ?_⟩
    · rw [← h.logged, logged]
      rfl
    · rintro _ ⟨⟩
      exact ⟨hdir'.trans hdir, hthreshold'.trans hthreshold⟩

theorem Configured.ticked {c : Config} {db db' : Database} {now : Nat} {t t' : FileTree}
    {path : Option Path} (h : Configured c db)
    (ticking : Ticking db now t (.ok (path, db')) t') : Configured c db' := by
  cases ticking with
  | idle => exact h
  | saved => exact ⟨h.config, h.logged, h.log⟩

theorem Handling.log_eq {db db' : Database} {now : Nat} {raw : String} {t t' : FileTree}
    {r : Except Failure Reply} (h : Handling db now raw t r db' t')
    (unlogged : logged? (.handled raw r) = none) : db'.log = db.log := by
  cases h with
  | rejected => rfl
  | read => rfl
  | unlogged => rfl
  | unrecorded => rfl
  | recorded q log log' t' parsed mutates => simp [logged?, parsed, mutates] at unlogged

section Run
variable {outside : FileTree → FileTree → Prop} {c : Config} {v w : Worker}

theorem configured_of_step {d : Deed} (step : Step outside v d w)
    (h : Configured c v.database) : Configured c w.database := by
  cases step with
  | handled db t now raw => exact h.handled (db.handling now raw t)
  | saved db db' t t' now path tick =>
    have ht := db.ticking now t
    rw [tick] at ht
    exact h.ticked ht
  | idle db db' t t' now tick =>
    have ht := db.ticking now t
    rw [tick] at ht
    exact h.ticked ht
  | failed => exact h
  | others => exact h

theorem configured_of_run {ds : List Deed} (run : Run outside v ds w)
    (h : Configured c v.database) : Configured c w.database := by
  induction run with
  | start => exact h
  | step run step ih => exact configured_of_step step ih

theorem log_of_step {d : Deed} (step : Step outside v d w) (unlogged : logged? d = none) :
    w.database.log = v.database.log := by
  cases step with
  | handled db t now raw => exact (db.handling now raw t).log_eq unlogged
  | saved db db' t t' now path tick =>
    have ht := db.ticking now t
    rw [tick] at ht
    cases ht
    rfl
  | idle db db' t t' now tick =>
    have ht := db.ticking now t
    rw [tick] at ht
    cases ht
    rfl
  | failed => rfl
  | others => rfl

/-- The log stays as it is until a change is recorded. -/
theorem log_of_run {ds : List Deed} (run : Run outside v ds w) (none : acknowledged ds = []) :
    w.database.log = v.database.log := by
  induction run with
  | start => rfl
  | step run step ih =>
    rw [acknowledged_append, List.append_eq_nil_iff, Option.toList_eq_nil_iff] at none
    rw [log_of_step step none.2, ih none.1]

theorem Run.imp {P Q : FileTree → FileTree → Prop} {ds : List Deed} (run : Run P v ds w)
    (h : ∀ t u, P t u → Q t u) : Run Q v ds w := by
  induction run with
  | start => exact .start _
  | step _ step ih => exact .step ih (step.imp (h _ _))

end Run

theorem inUse_of_start {c : Config} {now : Nat} {db : Database} {t t' : FileTree}
    (start : Database.start c now t = (.ok db, t')) (enabled : c.logEnabled = true) :
    Logging InUse c (t.placeOf c.logDir) ⟨db, t'⟩ [] := by
  have hb := (changesIn_of_start start).base
  have sound := sound_of_start start
  obtain ⟨p, t₁, -, -, -, hc, -, ⟨hno, -⟩ | ⟨-, log, hlog, hstart⟩⟩ := start_ok start
  · rw [enabled] at hno
    simp at hno
  · obtain ⟨t₂, -, o⟩ := AppendLog.start_ok hstart
    exact ⟨hc, placeOf_of_base hb c.logDir, sound, log, hlog, [], List.suffix_refl _,
      AppendLog.endsWith_of_opened o⟩

section Handle
variable {db : Database} {log : AppendLog} {now : Nat} {raw : String} {q : Query} {t : FileTree}

/-- What a change leads to if it goes to a new file of the log, or fails since that cannot be
opened. -/
def turn (db : Database) (raw : String) (q : Query) (t : FileTree) :
    Except Failure (AppendLog × FileTree) → Handled
  | .ok (next, t') =>
    ⟨.ok (db.store.apply q).1, { db with
      store := (db.store.apply q).2
      unsaved := db.unsaved + 1
      log := some (next.put raw t').1 }, (next.put raw t').2⟩
  | .error e =>
    ⟨.error e, { db with store := (db.store.apply q).2, unsaved := db.unsaved + 1 }, t⟩

/-- Whatever the next change is, it goes to a new file of `log`. -/
def Turning (db : Database) (log : AppendLog) : Prop :=
  ∀ now raw q t, Query.parse raw = .ok q → q.mutates = true →
    db.handle now raw t = db.turn raw q t (log.rotate now t)

theorem turning_of_full (logged : db.log = some log) (full : log.threshold < log.entries) :
    db.Turning log := by
  intro now raw q t parsed mutates
  have hrecord : log.record now raw t =
      (log.rotate now t).map fun next => next.1.put raw next.2 := by
    rw [AppendLog.record, if_pos full]
    rcases log.rotate now t with e | ⟨next, t'⟩
    · rfl
    · rfl
  rcases hrotate : log.rotate now t with e | ⟨next, t'⟩
  · rw [hrotate] at hrecord
    exact handle_unrecorded parsed mutates logged hrecord
  · rw [hrotate] at hrecord
    exact handle_recorded parsed mutates logged hrecord

/-- A command fails exactly if it is a change that is due for a new file which cannot be opened. -/
theorem result_eq_error_iff {e : Failure} : (db.handle now raw t).result = .error e ↔
    ∃ q log, Query.parse raw = .ok q ∧ q.mutates = true ∧ db.log = some log ∧
      log.threshold < log.entries ∧ log.rotate now t = .error e := by
  constructor
  · intro h
    have handling := db.handling now raw t
    rw [h] at handling
    generalize (db.handle now raw t).database = db', (db.handle now raw t).files = t' at handling
    cases handling with
    | unrecorded q log _ parsed mutates logged record =>
      refine ⟨q, log, parsed, mutates, logged, ?_⟩
      rw [AppendLog.record] at record
      split at record
      · next full =>
        refine ⟨full, ?_⟩
        split at record
        · cases record
        · next hrotate =>
          cases record
          exact hrotate
      · cases record
  · rintro ⟨q, log, parsed, mutates, logged, full, hrotate⟩
    rw [turning_of_full logged full now raw q t parsed mutates, hrotate]
    rfl

/-- The same by the configuration, with the text of the failure. -/
theorem Configured.result_eq_error_iff {c : Config} {e : Failure} (h : Configured c db) :
    (db.handle now raw t).result = .error e ↔
      ∃ q log f, Query.parse raw = .ok q ∧ q.mutates = true ∧ c.logEnabled = true ∧
        db.log = some log ∧ c.rotationThreshold < log.entries ∧
        (t.entry c.logDir (AppendLog.fileName (nextTimestamp now log.timestamp))).bind
          t.openAppend = .error f ∧
        e = .appendLog (f.during "open"
          (c.logDir.child (AppendLog.fileName (nextTimestamp now log.timestamp))).text) := by
  obtain ⟨-, hlogged, hlog⟩ := h
  rw [Database.result_eq_error_iff]
  constructor
  · rintro ⟨q, log, parsed, mutates, logged, full, hrotate⟩
    obtain ⟨hdir, hthreshold⟩ := hlog log logged
    obtain ⟨f, hf, he⟩ := AppendLog.rotate_eq_error_iff.1 hrotate
    rw [hdir] at hf he
    rw [hthreshold] at full
    rw [logged] at hlogged
    exact ⟨q, log, f, parsed, mutates, hlogged.symm, logged, full, hf, he⟩
  · rintro ⟨q, log, f, parsed, mutates, -, logged, full, hf, he⟩
    obtain ⟨hdir, hthreshold⟩ := hlog log logged
    rw [← hdir] at hf he
    rw [← hthreshold] at full
    exact ⟨q, log, parsed, mutates, logged, full, AppendLog.rotate_eq_error_iff.2 ⟨f, hf, he⟩⟩

/-- A change that fails is applied and counted, and the log stays full. -/
theorem handle_of_error {e : Failure} (failed : (db.handle now raw t).result = .error e)
    (parsed : Query.parse raw = .ok q) (logged : db.log = some log) :
    db.handle now raw t = ⟨.error e, { db with
      store := (db.store.apply q).2, unsaved := db.unsaved + 1 }, t⟩ ∧
      log.threshold < log.entries := by
  obtain ⟨q', log', parsed', mutates, logged', full, hrotate⟩ :=
    Database.result_eq_error_iff.1 failed
  rw [parsed] at parsed'
  cases parsed'
  rw [logged] at logged'
  cases logged'
  refine ⟨?_, full⟩
  rw [turning_of_full logged full now raw q t parsed mutates, hrotate]
  rfl

end Handle

theorem endsWith_of_run {outside : FileTree → FileTree → Prop} {c : Config} {now : Nat}
    {db : Database} {t t' : FileTree} {ds : List Deed} {w : Worker}
    (start : Database.start c now t = (.ok db, t')) (run : Run outside ⟨db, t'⟩ ds w)
    (alone : ∀ u v, outside u v → AppendLog.SameLogs (t.placeOf c.logDir) u v) {log : AppendLog}
    (logged : w.database.log = some log) :
    ∃ es, es <:+ acknowledged ds ∧ log.EndsWith w.files es := by
  have hlogged := (configured_of_run run (configured_of_start start)).logged
  rw [logged] at hlogged
  have inUse := logging_of_run lasting_inUse (run.imp alone) (inUse_of_start start hlogged.symm)
  obtain ⟨log', logged', es, hes, h⟩ := inUse.log
  rw [logged] at logged'
  cases logged'
  exact ⟨es, hes, h⟩

/-- A command fails only where the next file of the log cannot be opened. It is applied and counted
then, nothing else is different, and until a change is recorded every one is due for a new file. A
text that is no command does not fail and does nothing. -/
theorem failure_is_confined {outside : FileTree → FileTree → Prop} {c : Config} {now₀ : Nat}
    {db₀ : Database} {t₀ t₁ : FileTree} {ds : List Deed} {w : Worker}
    (start : Database.start c now₀ t₀ = (.ok db₀, t₁)) (run : Run outside ⟨db₀, t₁⟩ ds w)
    (now : Nat) (raw : String) (t : FileTree) :
    (∀ e, (w.database.handle now raw t).result = .error e ↔
      ∃ q log f, Query.parse raw = .ok q ∧ q.mutates = true ∧ c.logEnabled = true ∧
        w.database.log = some log ∧ c.rotationThreshold < log.entries ∧
        (t.entry c.logDir (AppendLog.fileName (nextTimestamp now log.timestamp))).bind
          t.openAppend = .error f ∧
        e = .appendLog (f.during "open"
          (c.logDir.child (AppendLog.fileName (nextTimestamp now log.timestamp))).text)) ∧
    (∀ e q log, (w.database.handle now raw t).result = .error e → Query.parse raw = .ok q →
      w.database.log = some log →
      w.database.handle now raw t = ⟨.error e, { w.database with
        store := (w.database.store.apply q).2, unsaved := w.database.unsaved + 1 }, t⟩ ∧
      ∀ outside' ds' w', Run outside' ⟨(w.database.handle now raw t).database, t⟩ ds' w' →
        acknowledged ds' = [] → w'.database.Turning log) ∧
    (∀ e, Query.parse raw = .error e →
      w.database.handle now raw t = ⟨.ok (.error e.message), w.database, t⟩) ∧
    (∀ log, w.database.log = some log →
      (∀ u v, outside u v → AppendLog.SameLogs (t₀.placeOf c.logDir) u v) →
      ∃ es, es <:+ acknowledged ds ∧ log.EndsWith w.files es) := by
  have configured := configured_of_run run (configured_of_start start)
  refine ⟨fun e => configured.result_eq_error_iff, ?_, fun e => handle_rejected, ?_⟩
  · intro e q log failed parsed logged
    obtain ⟨handled, full⟩ := handle_of_error failed parsed logged
    refine ⟨handled, fun outside' ds' w' run' none => turning_of_full ?_ full⟩
    rw [log_of_run run' none, handled]
    exact logged
  · intro log logged alone
    exact endsWith_of_run start run alone logged

/-- A directory stands where the second file of the log would be. A change fails, and the next one
in the same way. -/
theorem two_changes_fail_alike :
    let c : Config := { dataDir := ⟨"/d"⟩, rotationThreshold := 0 }
    ∃ db t ds w u log e,
      Database.start c 1600000000000 .empty = (.ok db, t) ∧ Run (fun _ _ => False) ⟨db, t⟩ ds w ∧
      ds.length = 1 ∧ w.database.log = some log ∧ log.EndsWith w.files ["set a 1"] ∧
      w.database.handle 1600000000000 "set b 2" u =
        ⟨.error e, { w.database with
          store := ⟨[("a", "1"), ("b", "2")], by decide⟩, unsaved := 2 }, u⟩ ∧
      ((w.database.handle 1600000000000 "set b 2" u).database.handle 1600000000000 "set c 3"
        u).result = .error e := by
  intro c
  let log₁ : AppendLog :=
    ⟨⟨"/d/logs"⟩, 0, 1600000000000, ⟨["d", "logs", "1600000000000.kvslog"], 0⟩, 0⟩
  let db₁ : Database := ⟨c, ∅, ⟨⟨"/d/snapshots"⟩, 0⟩, some log₁, 0⟩
  let t₁ := (Database.start c 1600000000000 .empty).2
  let h₂ := db₁.handle 1600000000000 "set a 1" t₁
  let log₂ : AppendLog := { log₁ with entries := 1 }
  let u := h₂.files.insert ["d", "logs", "1600000000001.kvslog"] .directory
  let e₃ : Failure := .appendLog (Fault.isDirectory.during "open" "/d/logs/1600000000001.kvslog")
  have start₁ : Database.start c 1600000000000 .empty = (.ok db₁, t₁) :=
    Prod.ext (by decide +kernel) rfl
  have run : Run (fun _ _ => False) ⟨db₁, t₁⟩ [.handled "set a 1" h₂.result]
      ⟨h₂.database, h₂.files⟩ :=
    .step (.start _) (.handled db₁ t₁ 1600000000000 "set a 1")
  have logged : h₂.database.log = some log₂ := by decide +kernel
  have parsed : Query.parse "set b 2" = .ok (.set "b" "2") := by decide +kernel
  obtain ⟨fails, confined, -, inUse⟩ := failure_is_confined start₁ run 1600000000000 "set b 2" u
  have failed : (h₂.database.handle 1600000000000 "set b 2" u).result = .error e₃ :=
    (fails e₃).2 ⟨.set "b" "2", log₂, .isDirectory, parsed, rfl, rfl, logged, by decide,
      by decide +kernel, by decide +kernel⟩
  obtain ⟨handled, turning⟩ := confined e₃ (.set "b" "2") log₂ failed parsed logged
  have again := turning (fun _ _ => False) [] _ (.start _) rfl 1600000000000 "set c 3"
    (.set "c" "3") u (by decide +kernel) rfl
  obtain ⟨es, hes, inUse⟩ := inUse log₂ logged (fun _ _ => False.elim)
  have acknowledged : acknowledged [.handled "set a 1" h₂.result] = ["set a 1"] := by
    decide +kernel
  rw [acknowledged] at hes
  have hes' : es = ["set a 1"] := hes.eq_of_length inUse.1
  rw [hes'] at inUse
  refine ⟨db₁, t₁, _, ⟨h₂.database, h₂.files⟩, u, log₂, e₃, start₁, run, rfl, logged, inUse, ?_, ?_⟩
  · have store : (h₂.database.store.apply (.set "b" "2")).2 =
        ⟨[("a", "1"), ("b", "2")], by decide⟩ := by decide +kernel
    have unsaved : h₂.database.unsaved + 1 = 2 := by decide +kernel
    rw [handled, store, unsaved]
  · rw [again]
    decide +kernel

end Database
end Keyline
