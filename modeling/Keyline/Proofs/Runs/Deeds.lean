import Keyline.Proofs.Logs.Recording
import Keyline.Proofs.Snapshots.Writing
import Keyline.Worker

/-!
# What a database does

The cases of starting a database, of handling a command and of a tick, and what each leaves alone:
a command writes files of the log directory only, a tick those of the snapshot directory only. A
database in use does these deeds in any order while others change files too.
-/
namespace Keyline

open FileTree

namespace Config

theorem placeOf_snapshotDir (c : Config) (t : FileTree) :
    t.placeOf c.snapshotDir = t.placeOf c.dataDir ++ ["snapshots"] :=
  placeOf_child (by decide) (by decide) (by decide)

theorem placeOf_logDir (c : Config) (t : FileTree) :
    t.placeOf c.logDir = t.placeOf c.dataDir ++ ["logs"] :=
  placeOf_child (by decide) (by decide) (by decide)

theorem logDir_ne_snapshotDir (c : Config) (t : FileTree) :
    t.placeOf c.logDir ≠ t.placeOf c.snapshotDir := by
  rw [placeOf_logDir, placeOf_snapshotDir]
  simp

end Config

/-- What a command is answered with, whether or not it was recorded. -/
def Reply.ofResult : Except Failure Reply → Reply
  | .ok reply => reply
  | .error e => e.reply

namespace Database

/-- The parts of a database belong to its configuration. -/
structure Sound (db : Database) (t : FileTree) : Prop where
  archive : db.archive.dir = db.config.snapshotDir
  logged : db.log.isSome = db.config.logEnabled
  log : ∀ log, db.log = some log → log.dir = db.config.logDir ∧
    log.threshold = db.config.rotationThreshold ∧ log.Placed t

theorem Sound.congr {db : Database} {t t' : FileTree} (h : db.Sound t) (hb : t'.base = t.base) :
    db.Sound t' := by
  refine ⟨h.archive, h.logged, fun log hl => ?_⟩
  rw [AppendLog.Placed, placeOf_of_base hb]
  exact h.log log hl

theorem start_ok {c : Config} {now : Nat} {db : Database} {t t' : FileTree}
    (h : start c now t = (.ok db, t')) :
    ∃ q t₁, t.makeDirectories c.dataDir = (.ok q, t₁) ∧
      Archive.attach t₁ c.snapshotDir = .ok db.archive ∧ db.archive.restore t₁ = .ok db.store ∧
      db.config = c ∧ db.unsaved = 0 ∧
      ((c.logEnabled = false ∧ db.log = none ∧ t' = t₁) ∨
        (c.logEnabled = true ∧ ∃ log, db.log = some log ∧
          AppendLog.start c.logDir c.rotationThreshold now t₁ = (.ok log, t'))) := by
  rw [start] at h
  split at h
  · simp at h
  · next q t₁ hm =>
    split at h
    · simp at h
    · next a ha =>
      split at h
      · simp at h
      · next s hs =>
        split at h
        · next hl =>
          split at h
          · simp at h
          · next log t₂ hlog =>
            cases h
            exact ⟨q, t₁, hm, ha, hs, rfl, rfl, .inr ⟨hl, log, rfl, hlog⟩⟩
        · next hl =>
          cases h
          exact ⟨q, _, hm, ha, hs, rfl, rfl, .inl ⟨Bool.eq_false_iff.2 hl, rfl, rfl⟩⟩

/-- The store that a start takes from the snapshots, once the data directory is made. -/
def savedStore (c : Config) (t : FileTree) : Except Failure Store :=
  match t.makeDirectories c.dataDir with
  | (.error f, _) => .error (.io f.message)
  | (.ok _, t) => (Archive.attach t c.snapshotDir).bind fun a => a.restore t

theorem exists_of_savedStore {c : Config} {s : Store} {t : FileTree}
    (h : savedStore c t = .ok s) : ∃ q t₁ a, t.makeDirectories c.dataDir = (.ok q, t₁) ∧
      Archive.attach t₁ c.snapshotDir = .ok a ∧ a.restore t₁ = .ok s := by
  rw [savedStore] at h
  split at h
  · simp at h
  · next q t₁ hm =>
    cases ha : Archive.attach t₁ c.snapshotDir with
    | error e => simp [ha, Except.bind] at h
    | ok a =>
      rw [ha] at h
      exact ⟨q, t₁, a, hm, ha, h⟩

theorem savedStore_of_start {c : Config} {now : Nat} {db : Database} {t t' : FileTree}
    (h : start c now t = (.ok db, t')) : savedStore c t = .ok db.store := by
  obtain ⟨q, t₁, hm, ha, hs, -⟩ := start_ok h
  rw [savedStore, hm]
  dsimp only
  rw [ha]
  exact hs

theorem start_of_savedStore_error {c : Config} {e : Failure} {t : FileTree}
    (h : savedStore c t = .error e) (now : Nat) :
    start c now t = (.error e, (t.makeDirectories c.dataDir).2) := by
  rw [savedStore] at h
  rw [start]
  generalize t.makeDirectories c.dataDir = made at h ⊢
  obtain ⟨f | q, t₁⟩ := made
  · cases h
    rfl
  · dsimp only at h ⊢
    cases ha : Archive.attach t₁ c.snapshotDir with
    | error e' =>
      rw [ha] at h
      cases h
      rfl
    | ok a =>
      rw [ha] at h
      dsimp only [Except.bind] at h ⊢
      rw [h]

theorem start_error {c : Config} {now : Nat} {e : Failure} {t t' : FileTree}
    (h : start c now t = (.error e, t')) : Grows t t' := by
  have g := grows_makeDirectories t c.dataDir
  rw [start] at h
  split at h
  · next hm =>
    rw [hm] at g
    cases h
    exact g
  · next q t₁ hm =>
    rw [hm] at g
    split at h
    · cases h
      exact g
    · split at h
      · cases h
        exact g
      · split at h
        · split at h
          · next hlog =>
            cases h
            exact g.trans (AppendLog.start_error hlog)
          · simp at h
        · simp at h

theorem sound_of_start {c : Config} {now : Nat} {db : Database} {t t' : FileTree}
    (h : start c now t = (.ok db, t')) : db.Sound t' := by
  obtain ⟨q, t₁, -, ha, -, rfl, -, ⟨hl, hn, -⟩ | ⟨hl, log, hs, hstart⟩⟩ := start_ok h
  · refine ⟨Archive.dir_of_attach ha, ?_, ?_⟩
    · rw [hn, hl]
      rfl
    · intro log hlog
      rw [hn] at hlog
      simp at hlog
  · refine ⟨Archive.dir_of_attach ha, ?_, ?_⟩
    · rw [hs, hl]
      rfl
    · intro log' hlog
      rw [hs] at hlog
      cases hlog
      obtain ⟨t₂, -, o⟩ := AppendLog.start_ok hstart
      refine ⟨?_, ?_, o.placed⟩
      · rw [o.fresh]
      · rw [o.fresh]

theorem changesIn_of_start {c : Config} {now : Nat} {db : Database} {t t' : FileTree}
    (h : start c now t = (.ok db, t')) : ChangesIn (t.placeOf c.logDir) t t' := by
  obtain ⟨q, t₁, hm, -, -, rfl, -, hlog⟩ := start_ok h
  have g := grows_makeDirectories t db.config.dataDir
  rw [hm] at g
  rcases hlog with ⟨-, -, rfl⟩ | ⟨-, log, -, hstart⟩
  · exact g.changesIn _
  · obtain ⟨t₂, g', o⟩ := AppendLog.start_ok hstart
    have hc := o.changesIn
    rw [placeOf_of_base (g.trans g').base] at hc
    exact ((g.trans g').changesIn _).trans hc

inductive Handling (db : Database) (now : Nat) (raw : String) (t : FileTree) :
    Except Failure Reply → Database → FileTree → Prop
  | rejected (e : Rejection) (parsed : Query.parse raw = .error e) :
    Handling db now raw t (.ok (.error e.message)) db t
  | read (q : Query) (parsed : Query.parse raw = .ok q) (mutates : q.mutates = false) :
    Handling db now raw t (.ok (db.store.apply q).1) { db with store := (db.store.apply q).2 } t
  | unlogged (q : Query) (parsed : Query.parse raw = .ok q) (mutates : q.mutates = true)
      (logged : db.log = none) :
    Handling db now raw t (.ok (db.store.apply q).1)
      { db with store := (db.store.apply q).2, unsaved := db.unsaved + 1 } t
  | recorded (q : Query) (log log' : AppendLog) (t' : FileTree)
      (parsed : Query.parse raw = .ok q) (mutates : q.mutates = true) (logged : db.log = some log)
      (record : log.record now raw t = .ok (log', t')) :
    Handling db now raw t (.ok (db.store.apply q).1)
      { db with store := (db.store.apply q).2, unsaved := db.unsaved + 1, log := some log' } t'
  | unrecorded (q : Query) (log : AppendLog) (e : Failure)
      (parsed : Query.parse raw = .ok q) (mutates : q.mutates = true) (logged : db.log = some log)
      (record : log.record now raw t = .error e) :
    Handling db now raw t (.error e)
      { db with store := (db.store.apply q).2, unsaved := db.unsaved + 1 } t

section Handle
variable {db : Database} {now : Nat} {raw : String} {t : FileTree} {q : Query}

theorem handle_rejected {e : Rejection} (parsed : Query.parse raw = .error e) :
    db.handle now raw t = ⟨.ok (.error e.message), db, t⟩ := by
  rw [handle, parsed]

theorem handle_read (parsed : Query.parse raw = .ok q) (mutates : q.mutates = false) :
    db.handle now raw t =
      ⟨.ok (db.store.apply q).1, { db with store := (db.store.apply q).2 }, t⟩ := by
  simp [handle, parsed, mutates]

theorem handle_unlogged (parsed : Query.parse raw = .ok q) (mutates : q.mutates = true)
    (logged : db.log = none) : db.handle now raw t = ⟨.ok (db.store.apply q).1,
      { db with store := (db.store.apply q).2, unsaved := db.unsaved + 1 }, t⟩ := by
  simp [handle, record, parsed, mutates, logged]

theorem handle_recorded {log log' : AppendLog} {t' : FileTree} (parsed : Query.parse raw = .ok q)
    (mutates : q.mutates = true) (logged : db.log = some log)
    (record : log.record now raw t = .ok (log', t')) :
    db.handle now raw t = ⟨.ok (db.store.apply q).1, { db with
      store := (db.store.apply q).2, unsaved := db.unsaved + 1, log := some log' }, t'⟩ := by
  simp [handle, Database.record, parsed, mutates, logged, record]

theorem handle_unrecorded {log : AppendLog} {e : Failure} (parsed : Query.parse raw = .ok q)
    (mutates : q.mutates = true) (logged : db.log = some log)
    (record : log.record now raw t = .error e) : db.handle now raw t = ⟨.error e,
      { db with store := (db.store.apply q).2, unsaved := db.unsaved + 1 }, t⟩ := by
  simp [handle, Database.record, parsed, mutates, logged, record]

end Handle

theorem handling (db : Database) (now : Nat) (raw : String) (t : FileTree) :
    Handling db now raw t (db.handle now raw t).result (db.handle now raw t).database
      (db.handle now raw t).files := by
  cases parsed : Query.parse raw with
  | error e =>
    rw [handle_rejected parsed]
    exact .rejected e parsed
  | ok q =>
    cases mutates : q.mutates with
    | false =>
      rw [handle_read parsed mutates]
      exact .read q parsed mutates
    | true =>
      cases logged : db.log with
      | none =>
        rw [handle_unlogged parsed mutates logged]
        exact .unlogged q parsed mutates logged
      | some log =>
        cases record : log.record now raw t with
        | error e =>
          rw [handle_unrecorded parsed mutates logged record]
          exact .unrecorded q log e parsed mutates logged record
        | ok lt =>
          rw [handle_recorded parsed mutates logged record]
          exact .recorded q log lt.1 lt.2 parsed mutates logged record

inductive Ticking (db : Database) (now : Nat) (t : FileTree) :
    Except Failure (Option Path × Database) → FileTree → Prop
  | idle (unsaved : db.unsaved = 0) : Ticking db now t (.ok (none, db)) t
  | saved (path : Path) (archive : Archive) (t' : FileTree) (unsaved : db.unsaved ≠ 0)
      (write : db.archive.write now db.store t = (.ok (path, archive), t')) :
    Ticking db now t (.ok (some path, { db with archive, unsaved := 0 })) t'
  | failed (e : Failure) (t' : FileTree) (unsaved : db.unsaved ≠ 0)
      (write : db.archive.write now db.store t = (.error e, t')) :
    Ticking db now t (.error e) t'

theorem ticking (db : Database) (now : Nat) (t : FileTree) :
    Ticking db now t (db.tick now t).1 (db.tick now t).2 := by
  rw [tick]
  split
  · next h => exact .idle h
  · next h =>
    rcases hw : db.archive.write now db.store t with ⟨e | ⟨path, archive⟩, t'⟩
    · exact .failed e t' h hw
    · exact .saved path archive t' h hw

section Step
variable {db db' : Database} {now : Nat} {raw : String} {t t' : FileTree}

theorem Handling.keeps {r : Except Failure Reply} (h : Handling db now raw t r db' t') :
    Keeps t t' := by
  cases h with
  | rejected => exact .refl _
  | read => exact .refl _
  | unlogged => exact .refl _
  | unrecorded => exact .refl _
  | recorded q log log' _ _ _ _ record => exact AppendLog.keeps_of_record record

theorem Handling.changesIn {r : Except Failure Reply} (h : Handling db now raw t r db' t')
    (s : db.Sound t) : ChangesIn (t.placeOf db.config.logDir) t t' := by
  cases h with
  | rejected => exact .refl _ _
  | read => exact .refl _ _
  | unlogged => exact .refl _ _
  | unrecorded => exact .refl _ _
  | recorded q log log' _ _ _ logged record =>
    obtain ⟨hdir, -, hp⟩ := s.log log logged
    rw [← hdir]
    exact (AppendLog.changesIn_of_record record hp).2.2.2

theorem Handling.sound {r : Except Failure Reply} (h : Handling db now raw t r db' t')
    (s : db.Sound t) : db'.Sound t' ∧ db'.config = db.config ∧ db'.archive = db.archive := by
  cases h with
  | rejected => exact ⟨s, rfl, rfl⟩
  | read => exact ⟨⟨s.archive, s.logged, s.log⟩, rfl, rfl⟩
  | unlogged => exact ⟨⟨s.archive, s.logged, s.log⟩, rfl, rfl⟩
  | unrecorded => exact ⟨⟨s.archive, s.logged, s.log⟩, rfl, rfl⟩
  | recorded q log log' _ _ _ logged record =>
    obtain ⟨hdir, hth, hp⟩ := s.log log logged
    obtain ⟨hdir', hth', hp', -⟩ := AppendLog.changesIn_of_record record hp
    refine ⟨⟨s.archive, ?_, ?_⟩, rfl, rfl⟩
    · rw [← s.logged, logged]
      rfl
    · rintro _ ⟨⟩
      exact ⟨hdir'.trans hdir, hth'.trans hth, hp'⟩

theorem Ticking.keeps {r : Except Failure (Option Path × Database)} (h : Ticking db now t r t') :
    Keeps t t' := by
  have hw := Archive.keeps_of_write db.archive now db.store t
  cases h with
  | idle => exact .refl _
  | saved path archive t' unsaved write =>
    rw [write] at hw
    exact hw
  | failed e t' unsaved write =>
    rw [write] at hw
    exact hw

/-- A tick changes files of the archive only. -/
theorem Ticking.changesIn {r : Except Failure (Option Path × Database)}
    (h : Ticking db now t r t') (s : db.Sound t) :
    ChangesIn (t.placeOf db.config.snapshotDir) t t' := by
  have hw := Archive.changesIn_of_write db.archive now db.store t
  rw [s.archive] at hw
  cases h with
  | idle => exact .refl _ _
  | saved path archive t' unsaved write =>
    rw [write] at hw
    exact hw
  | failed e t' unsaved write =>
    rw [write] at hw
    exact hw

theorem Ticking.sound {path : Option Path} (h : Ticking db now t (.ok (path, db')) t')
    (s : db.Sound t) : db'.Sound t' ∧ db'.config = db.config ∧ db'.log = db.log ∧
      db'.store = db.store := by
  have hc := h.changesIn s
  cases h with
  | idle => exact ⟨s, rfl, rfl, rfl⟩
  | saved path archive _ unsaved write =>
    obtain ⟨-, rfl, -⟩ := Archive.write_ok write
    have s' := s.congr hc.base
    exact ⟨⟨s'.archive, s'.logged, s'.log⟩, rfl, rfl, rfl⟩

end Step

/-- What happens while a database is in use. -/
inductive Deed
  | handled (raw : String) (result : Except Failure Reply)
  /-- A tick that wrote the store as the snapshot of a timestamp. -/
  | saved (timestamp : Nat) (s : Store)
  /-- A tick with nothing to save. -/
  | idle
  | failed (e : Failure)
  /-- Others changed files. -/
  | others

/-- One deed, where others change files as `outside` allows. -/
inductive Step (outside : FileTree → FileTree → Prop) : Worker → Deed → Worker → Prop
  | handled (db : Database) (t : FileTree) (now : Nat) (raw : String) :
    Step outside ⟨db, t⟩ (.handled raw (db.handle now raw t).result)
      ⟨(db.handle now raw t).database, (db.handle now raw t).files⟩
  | saved (db db' : Database) (t t' : FileTree) (now : Nat) (path : Path)
      (tick : db.tick now t = (.ok (some path, db'), t')) :
    Step outside ⟨db, t⟩ (.saved (nextTimestamp now db.archive.last) db.store) ⟨db', t'⟩
  | idle (db db' : Database) (t t' : FileTree) (now : Nat)
      (tick : db.tick now t = (.ok (none, db'), t')) : Step outside ⟨db, t⟩ .idle ⟨db', t'⟩
  | failed (db : Database) (t t' : FileTree) (now : Nat) (e : Failure)
      (tick : db.tick now t = (.error e, t')) : Step outside ⟨db, t⟩ (.failed e) ⟨db, t'⟩
  | others (db : Database) (t t' : FileTree) (changed : outside t t') :
    Step outside ⟨db, t⟩ .others ⟨db, t'⟩

theorem Step.imp {P Q : FileTree → FileTree → Prop} {v w : Worker} {d : Deed}
    (step : Step P v d w) (h : P v.files w.files → Q v.files w.files) : Step Q v d w := by
  cases step with
  | handled db t now raw => exact .handled db t now raw
  | saved db db' t t' now path tick => exact .saved db db' t t' now path tick
  | idle db db' t t' now tick => exact .idle db db' t t' now tick
  | failed db t t' now e tick => exact .failed db t t' now e tick
  | others db t t' changed => exact .others db t t' (h changed)

inductive Run (outside : FileTree → FileTree → Prop) : Worker → List Deed → Worker → Prop
  | start (w : Worker) : Run outside w [] w
  | step {u v w : Worker} {ds : List Deed} {d : Deed} (run : Run outside u ds v)
      (step : Step outside v d w) : Run outside u (ds ++ [d]) w

end Database
end Keyline
