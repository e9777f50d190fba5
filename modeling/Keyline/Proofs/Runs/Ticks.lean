import Keyline.Proofs.Runs.Erasure
import Mathlib.Data.List.Forall2

/-!
# Ticks do not disturb commands

Two workers start alike and handle the same commands at the same clock readings, each with ticks of
its own in between, which save or fail. All results are the same, and after each command the workers
differ in nothing but the snapshot directory and what is known of it. Also without a log this is so:
once a database is open its data directory is there, so a tick makes no directory but that of the
snapshots.
-/
namespace Keyline

open FileTree

theorem forall₂_of_common {α β γ : Type} {R : α → β → Prop} {S : α → γ → Prop} {T : β → γ → Prop}
    (h : ∀ a b c, R a b → S a c → T b c) {as : List α} {bs : List β} {cs : List γ}
    (hR : List.Forall₂ R as bs) (hS : List.Forall₂ S as cs) : List.Forall₂ T bs cs := by
  induction hR generalizing cs with
  | nil =>
    cases hS
    exact .nil
  | cons hab _ ih =>
    cases hS with
    | cons hac hacs => exact .cons (h _ _ _ hab hac) (ih hacs)

theorem Database.Handling.files_of_unlogged {db db' : Database} {now : Nat} {raw : String}
    {t t' : FileTree} {r : Except Failure Reply} (h : Handling db now raw t r db' t')
    (unlogged : db.log = none) : t' = t := by
  cases h with
  | rejected => rfl
  | read => rfl
  | unlogged => rfl
  | unrecorded => rfl
  | recorded q log log' _ parsed mutates logged =>
    rw [unlogged] at logged
    simp at logged

namespace Worker

inductive Call
  | handle (now : Nat) (raw : String)
  | tick (now : Nat)
  deriving DecidableEq

def Call.isHandle : Call → Bool
  | handle _ _ => true
  | tick _ => false

def ticked (w : Worker) (now : Nat) : Worker := (w.tick now : Worker × List (Output Empty)).1

def call (w : Worker) : Call → Worker
  | .handle now raw => w.handled now raw
  | .tick now => w.ticked now

def after (w : Worker) (cs : List Call) : Worker := cs.foldl call w

/-- The result of each command, with the worker as it is then. -/
def course (w : Worker) : List Call → List (Except Failure Reply × Worker)
  | [] => []
  | .handle now raw :: cs =>
    ((w.database.handle now raw w.files).result, w.handled now raw) ::
      (w.handled now raw).course cs
  | .tick now :: cs => (w.ticked now).course cs

/-- Nothing is different but the snapshot directory, what the archive knows of it, and the count of
changes that are not saved. -/
structure SameButSaved (v w : Worker) : Prop where
  config : w.database.config = v.database.config
  store : w.database.store = v.database.store
  log : w.database.log = v.database.log
  archive : w.database.archive.dir = v.database.archive.dir
  files : SameOutside (v.files.placeOf v.database.config.snapshotDir) v.files w.files
  logFiles : ∀ n, w.files.node? (v.files.placeOf v.database.config.logDir ++ [n]) =
    v.files.node? (v.files.placeOf v.database.config.logDir ++ [n])

/-- The second worker had ticks where the first had none. -/
structure Ahead (v w : Worker) : Prop where
  alike : Alike v w
  home : w.files.Home w.database.config.dataDir
  files : SameOutside (v.files.placeOf v.database.config.snapshotDir) v.files w.files

section Ahead
variable {v w : Worker}

theorem ahead_of_start {c : Config} {now : Nat} {db : Database} {t t' : FileTree}
    (start : Database.start c now t = (.ok db, t')) : Ahead ⟨db, t'⟩ ⟨db, t'⟩ := by
  refine ⟨(settled_of_start start).alike, ?_, .refl _ _⟩
  obtain ⟨q, t₁, made, -, -, rfl, -, log⟩ := Database.start_ok start
  have home := home_of_makeDirectories made
  rcases log with ⟨-, -, rfl⟩ | ⟨-, log, -, started⟩
  · exact home
  · obtain ⟨t₂, g, o⟩ := AppendLog.start_ok started
    exact (g.keeps.trans o.keeps).home home

theorem isSome_log_handled (h : w.Settled) (now : Nat) (raw : String) :
    (w.handled now raw).database.log.isSome = w.database.log.isSome := by
  obtain ⟨sound, config, -⟩ := (w.database.handling now raw w.files).sound h.sound
  have logged := sound.logged
  rw [config, ← h.sound.logged] at logged
  exact logged

theorem Ahead.handled (a : Ahead v w) (now : Nat) (raw : String) :
    (w.database.handle now raw w.files).result = (v.database.handle now raw v.files).result ∧
      Ahead (v.handled now raw) (w.handled now raw) := by
  obtain ⟨result, alike⟩ := alike_handled a.alike now raw
  have handlingv := v.database.handling now raw v.files
  have handlingw := w.database.handling now raw w.files
  refine ⟨result, alike, ?_, ?_⟩
  · have config := (handlingw.sound a.alike.right.sound).2.1
    rw [Worker.handled, config]
    exact handlingw.keeps.home a.home
  · cases hlog : v.database.log with
    | some log =>
      apply alike.files
      rw [isSome_log_handled a.alike.left, hlog]
      rfl
    | none =>
      have hlog' : w.database.log = none := a.alike.log.trans hlog
      have config : (v.handled now raw).database.config = v.database.config :=
        (handlingv.sound a.alike.left.sound).2.1
      have hv : (v.handled now raw).files = v.files := handlingv.files_of_unlogged hlog
      have hw : (w.handled now raw).files = w.files := handlingw.files_of_unlogged hlog'
      rw [hv, hw, config]
      exact a.files

theorem Ahead.ticked (a : Ahead v w) (now : Nat) : Ahead v (w.ticked now) := by
  have ticking := w.database.ticking now w.files
  have same := ticking.sameOutside a.alike.right.sound a.home
  rw [a.alike.config, placeOf_of_base a.files.base] at same
  have files : (w.ticked now).files = (w.database.tick now w.files).2 := by
    rw [Worker.ticked, tick]
    split <;> next h => rw [h]
  have config : (w.ticked now).database.config = w.database.config :=
    (alike_tick (δ := Empty) a.alike now).config.trans a.alike.config.symm
  refine ⟨alike_tick a.alike now, ?_, ?_⟩
  · rw [files, config]
    exact ticking.keeps.home a.home
  · rw [files]
    exact a.files.trans same

theorem Ahead.same {u : Worker} (a : Ahead u v) (b : Ahead u w) : SameButSaved v w := by
  have config : w.database.config = v.database.config := b.alike.config.trans a.alike.config.symm
  have files : SameOutside (v.files.placeOf v.database.config.snapshotDir) v.files w.files := by
    rw [a.alike.config, placeOf_of_base a.files.base]
    exact a.files.symm.trans b.files
  refine ⟨config, b.alike.store.trans a.alike.store.symm, b.alike.log.trans a.alike.log.symm, ?_,
    files, fun n => ?_⟩
  · rw [b.alike.right.sound.archive, a.alike.right.sound.archive, config]
  · apply files.node?
    exact logs_apart _ _ n

end Ahead

/-- The commands of a list of calls lead the same way with the ticks as without. -/
theorem Ahead.course {v w : Worker} (a : Ahead v w) (cs : List Call) :
    List.Forall₂ (fun x y => y.1 = x.1 ∧ Ahead x.2 y.2) (v.course (cs.filter Call.isHandle))
      (w.course cs) ∧ Ahead (v.after (cs.filter Call.isHandle)) (w.after cs) := by
  induction cs generalizing v w with
  | nil => exact ⟨.nil, a⟩
  | cons c cs ih =>
    cases c with
    | handle now raw =>
      obtain ⟨result, a'⟩ := a.handled now raw
      obtain ⟨course, after⟩ := ih a'
      exact ⟨.cons ⟨result, a'⟩ course, after⟩
    | tick now => exact ih (a.ticked now)

/-- Ticks change no result and no state but what is saved. -/
theorem ticks_disturb_nothing {c : Config} {now : Nat} {db : Database} {t t' : FileTree}
    (start : Database.start c now t = (.ok db, t')) (cs ds : List Call)
    (commands : ds.filter Call.isHandle = cs.filter Call.isHandle) :
    List.Forall₂ (fun x y => y.1 = x.1 ∧ SameButSaved x.2 y.2)
      (course ⟨db, t'⟩ cs) (course ⟨db, t'⟩ ds) ∧
    SameButSaved (after ⟨db, t'⟩ cs) (after ⟨db, t'⟩ ds) := by
  obtain ⟨course, last⟩ := (ahead_of_start start).course cs
  obtain ⟨course', last'⟩ := (ahead_of_start start).course ds
  rw [commands] at course' last'
  refine ⟨forall₂_of_common ?_ course course', last.same last'⟩
  rintro x y z ⟨hy, ay⟩ ⟨hz, az⟩
  exact ⟨hz.trans hy.symm, ay.same az⟩

/-- Between two commands a tick fails and one saves; the first run has no tick. -/
theorem ticks_disturb_nothing_between_two_commands :
    let c : Config := { dataDir := ⟨"/d"⟩ }
    let cs : List Call := [.handle 1600000000000 "set k v", .handle 1700000000002 "get k"]
    let ds : List Call := [.handle 1600000000000 "set k v", .tick 1700000000000,
      .tick 1700000000001, .handle 1700000000002 "get k"]
    ∃ t db t', Database.start c 1600000000000 t = (.ok db, t') ∧
      ds.filter Call.isHandle = cs.filter Call.isHandle ∧
      (after ⟨db, t'⟩ cs).database.unsaved = 1 ∧ (after ⟨db, t'⟩ ds).database.unsaved = 0 ∧
      List.Forall₂ (fun x y => y.1 = x.1 ∧ SameButSaved x.2 y.2)
        (course ⟨db, t'⟩ cs) (course ⟨db, t'⟩ ds) ∧
      SameButSaved (after ⟨db, t'⟩ cs) (after ⟨db, t'⟩ ds) := by
  intro c cs ds
  let t₀ := (((FileTree.empty.insert ["d"] .directory).insert ["d", "snapshots"] .directory).insert
    ["d", "snapshots", "1700000000000-snapshot.json.tmp"] .directory)
  let db : Database := ⟨c, ∅, ⟨⟨"/d/snapshots"⟩, 0⟩, some ⟨⟨"/d/logs"⟩, 5, 1600000000000,
    ⟨["d", "logs", "1600000000000.kvslog"], 0⟩, 0⟩, 0⟩
  let t₁ := (t₀.insert ["d", "logs"] .directory).insert ["d", "logs", "1600000000000.kvslog"]
    (.file 0 [])
  have start : Database.start c 1600000000000 t₀ = (.ok db, t₁) := by decide +kernel
  have commands : ds.filter Call.isHandle = cs.filter Call.isHandle := by decide
  exact ⟨t₀, db, t₁, start, commands, by decide +kernel, by decide +kernel,
    ticks_disturb_nothing start cs ds commands⟩

end Worker
end Keyline
