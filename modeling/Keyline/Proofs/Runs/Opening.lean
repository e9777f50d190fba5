import Keyline.Proofs.Files.Additions
import Keyline.Proofs.Runs.Deeds

/-!
# Opening a database adds and takes nothing away

A start goes through three stages: the data directory is made, the store is restored from its
snapshots, and a log is started if one is asked for. What each stage may add is said here, and that
all else stays as it was, wherever the start fails. The directories that are made on the way to the
data directory may lie below it, since its path may go into a directory and out again.
-/
namespace Keyline

open FileTree

/-- What starting a log adds at most: its directory at `d`, and one empty file in it if the log was
started. -/
inductive AppendLog.New (d : Place) (now : Nat) (started : Prop) : Place → Node → Prop
  | directory : New d now started d .directory
  | file (g : Nat) (done : started) :
    New d now started (d ++ [fileName (nextTimestamp now 0)]) (.file g [])

theorem AppendLog.New.imp {d : Place} {now : Nat} {P Q : Prop} {p : Place} {n : Node}
    (h : AppendLog.New d now P p n) (pq : P → Q) : AppendLog.New d now Q p n := by
  cases h with
  | directory => exact .directory
  | file g done => exact .file g (pq done)

theorem AppendLog.adds_start {dir : Path} {t : FileTree} (threshold now : Nat)
    (made : Adds (fun p n => n = .directory ∧ p = t.placeOf dir) t (t.makeDirectories dir).2) :
    Adds (New (t.placeOf dir) now (∃ log, (start dir threshold now t).1 = .ok log)) t
      (start dir threshold now t).2 := by
  have g := grows_makeDirectories t dir
  rw [start]
  cases hm : t.makeDirectories dir with
  | mk r t₁ =>
    rw [hm] at made g
    have first (started : Prop) : Adds (New (t.placeOf dir) now started) t t₁ :=
      made.imp fun p n h => h.1 ▸ h.2 ▸ New.directory
    cases r with
    | error f => exact first _
    | ok q =>
      dsimp only
      rw [openFile]
      cases he : t₁.entry dir (fileName (nextTimestamp now 0)) with
      | error f => exact first _
      | ok p =>
        obtain ⟨-, d, hd, rfl⟩ := entry_eq_ok_iff.1 he
        obtain rfl := (eq_placeOf_of_directory hd).trans (placeOf_of_base g.base dir)
        simp only [Except.bind]
        cases ho : t₁.openAppend (t.placeOf dir ++ [fileName (nextTimestamp now 0)]) with
        | error f => exact first _
        | ok ft =>
          refine (first _).trans ((adds_openAppend (node?_of_directory hd) ho).imp ?_)
          rintro p n ⟨rfl, g, rfl⟩
          exact .file g ⟨_, rfl⟩

namespace Database

/-- The path of the data directory leads through `p`. -/
def Passes (c : Config) (t : FileTree) (p : Place) : Prop :=
  OnWay (t.origin c.dataDir) c.dataDir.names p

/-- What a start adds at most. -/
inductive New (c : Config) (now : Nat) (t : FileTree) : Place → Node → Prop
  | way {p : Place} (passed : Passes c t p) : New c now t p .directory
  | log {p : Place} {n : Node} (enabled : c.logEnabled = true)
    (restored : ∃ s, savedStore c t = .ok s)
    (new : AppendLog.New (t.placeOf c.logDir) now (∃ db, (start c now t).1 = .ok db) p n) :
    New c now t p n

theorem adds_makeDirectories_logDir {c : Config} {t t₁ : FileTree} {q : Place}
    (h : t.makeDirectories c.dataDir = (.ok q, t₁)) :
    Adds (fun p n => n = .directory ∧ p = t₁.placeOf c.logDir) t₁
      (t₁.makeDirectories c.logDir).2 := by
  obtain ⟨-, hw, hd⟩ := directory_of_makeDirectories h
  have place : t₁.placeOf c.logDir = q ++ ["logs"] := by
    rw [Config.placeOf_logDir, eq_foldl_climb_of_walk hw]
    rfl
  rw [place]
  exact adds_makeDirectories_child (by decide) (by decide) (by decide) (by decide) hw
    fun hn => node?_of_directory (hd hn)

theorem adds_start (c : Config) (now : Nat) (t : FileTree) :
    Adds (New c now t) t (start c now t).2 := by
  have g := grows_makeDirectories t c.dataDir
  have made : Adds (New c now t) t (t.makeDirectories c.dataDir).2 :=
    (adds_makeDirectories t c.dataDir).imp fun p n h => h.1 ▸ .way h.2
  cases hs : savedStore c t with
  | error e =>
    rw [start_of_savedStore_error hs]
    exact made
  | ok s =>
    obtain ⟨q, t₁, a, hm, ha, hr⟩ := exists_of_savedStore hs
    rw [hm] at made g
    cases hl : c.logEnabled with
    | false => simpa [start, hm, ha, hr, hl] using made
    | true =>
      have log := AppendLog.adds_start c.rotationThreshold now (adds_makeDirectories_logDir hm)
      rw [placeOf_of_base g.base] at log
      refine made.trans ?_
      cases hlog : AppendLog.start c.logDir c.rotationThreshold now t₁ with
      | mk r t₂ =>
        have files : (start c now t).2 = t₂ := by
          cases r <;> simp [start, hm, ha, hr, hl, hlog]
        rw [hlog] at log
        rw [files]
        refine log.imp fun p n new => .log hl ⟨s, hs⟩ (new.imp ?_)
        rintro ⟨l, rfl⟩
        exact ⟨⟨c, s, a, some l, 0⟩, by simp [start, hm, ha, hr, hl, hlog]⟩

section New
variable {c : Config} {now : Nat} {t : FileTree} {p : Place} {n : Node}

/-- Only a path with double dots passes below its own end. -/
theorem Passes.dots {name : String} (h : Passes c t p)
    (below : t.placeOf c.dataDir ++ [name] <+: p) : ".." ∈ c.dataDir.names :=
  Classical.byContradiction fun straight => by
    have longer := (below.trans (OnWay.isPrefix h straight)).length_le
    rw [List.length_append, List.length_singleton, placeOf] at longer
    omega

/-- In the snapshot directory only the way to the data directory makes anything. -/
theorem New.passes (h : New c now t p n) (below : t.placeOf c.snapshotDir <+: p) :
    Passes c t p ∧ n = .directory := by
  have apart (more : Place) : ¬ t.placeOf c.snapshotDir <+: t.placeOf c.logDir ++ more := by
    rw [Config.placeOf_snapshotDir, Config.placeOf_logDir, List.append_assoc,
      List.prefix_append_right_inj]
    simp
  cases h with
  | way passed => exact ⟨passed, rfl⟩
  | log _ _ new =>
    cases new with
    | directory => exact absurd (by simpa using below) (apart [])
    | file => exact absurd below (apart _)

theorem new_of_start (vacant : t.node? p = none) (there : (start c now t).2.node? p = some n) :
    New c now t p n := by
  rcases (adds_start c now t).node? p with same | ⟨-, m, hm, h⟩
  · simp [same, vacant] at there
  · rw [there] at hm
    cases hm
    exact h

theorem snapshots_of_start (below : t.placeOf c.snapshotDir <+: p) :
    (start c now t).2.node? p = t.node? p ∨
      (start c now t).2.node? p = some .directory ∧ Passes c t p ∧ ".." ∈ c.dataDir.names := by
  rcases (adds_start c now t).node? p with same | ⟨-, n, there, h⟩
  · exact .inl same
  · obtain ⟨passed, rfl⟩ := h.passes below
    exact .inr ⟨there, passed, passed.dots (Config.placeOf_snapshotDir c t ▸ below)⟩

theorem file_of_start {g : Nat} {bs : Bytes} (vacant : t.node? p = none)
    (there : (start c now t).2.node? p = some (.file g bs)) :
    c.logEnabled = true ∧ (∃ db, (start c now t).1 = .ok db) ∧ bs = [] ∧
      p = t.placeOf c.logDir ++ [AppendLog.fileName (nextTimestamp now 0)] := by
  cases new_of_start vacant there with
  | log enabled _ new =>
    cases new with
    | file _ started => exact ⟨enabled, started, rfl, rfl⟩

theorem directory_of_failed_start {e : Failure} (failed : (start c now t).1 = .error e)
    (vacant : t.node? p = none) (there : (start c now t).2.node? p = some n) :
    n = .directory ∧ (Passes c t p ∨
      p = t.placeOf c.logDir ∧ c.logEnabled = true ∧ ∃ s, savedStore c t = .ok s) := by
  cases new_of_start vacant there with
  | way passed => exact ⟨rfl, .inl passed⟩
  | log enabled restored new =>
    cases new with
    | directory => exact ⟨rfl, .inr ⟨rfl, enabled, restored⟩⟩
    | file _ started =>
      obtain ⟨db, ok⟩ := started
      simp [failed] at ok

theorem logDir_of_unrestored {e : Failure} (unrestored : savedStore c t = .error e) :
    (start c now t).2.node? (t.placeOf c.logDir) = t.node? (t.placeOf c.logDir) ∨
      Passes c t (t.placeOf c.logDir) ∧ ".." ∈ c.dataDir.names := by
  rcases (adds_start c now t).node? (t.placeOf c.logDir) with same | ⟨-, n, -, h⟩
  · exact .inl same
  · cases h with
    | way passed =>
      have below : t.placeOf c.dataDir ++ ["logs"] <+: t.placeOf c.logDir :=
        ⟨[], by rw [Config.placeOf_logDir, List.append_nil]⟩
      exact .inr ⟨passed, passed.dots below⟩
    | log _ restored =>
      obtain ⟨s, hs⟩ := restored
      simp [unrestored] at hs

end New

/-- Opening changes and removes nothing that is there. In the snapshot directory nothing is made but
what the path of the data directory passes, and no file is made but an empty one for the log that
was started. A start that fails made directories only, and none for the log if it did not come to
have a store. -/
theorem start_only_adds (c : Config) (now : Nat) (t : FileTree) :
    (∀ p n, t.node? p = some n → (start c now t).2.node? p = some n) ∧
    (∀ p, t.placeOf c.snapshotDir <+: p → (start c now t).2.node? p = t.node? p ∨
      (start c now t).2.node? p = some .directory ∧ Passes c t p ∧ ".." ∈ c.dataDir.names) ∧
    (∀ p g bs, t.node? p = none → (start c now t).2.node? p = some (.file g bs) →
      c.logEnabled = true ∧ (∃ db, (start c now t).1 = .ok db) ∧ bs = [] ∧
        p = t.placeOf c.logDir ++ [AppendLog.fileName (nextTimestamp now 0)]) ∧
    (∀ e, (start c now t).1 = .error e → ∀ p n, t.node? p = none →
      (start c now t).2.node? p = some n → n = .directory ∧ (Passes c t p ∨
        p = t.placeOf c.logDir ∧ c.logEnabled = true ∧ ∃ s, savedStore c t = .ok s)) ∧
    (∀ e, savedStore c t = .error e → (start c now t).1 = .error e ∧
      ((start c now t).2.node? (t.placeOf c.logDir) = t.node? (t.placeOf c.logDir) ∨
        Passes c t (t.placeOf c.logDir) ∧ ".." ∈ c.dataDir.names)) := by
  refine ⟨?kept, ?snapshots, ?files, ?failed, ?unrestored⟩
  case kept => exact fun p n => (adds_start c now t).keep
  case snapshots => exact fun p => snapshots_of_start
  case files => exact fun p g bs => file_of_start
  case failed => exact fun e failed p n => directory_of_failed_start failed
  case unrestored =>
    intro e unrestored
    exact ⟨by rw [start_of_savedStore_error unrestored], logDir_of_unrestored unrestored⟩

/-- A path through the directory of the log makes it though the snapshots cannot be read, and one
through the directory of the snapshots makes a directory there. -/
theorem start_makes_what_it_passes :
    let d := FileTree.empty.insert ["d"] .directory
    let blocked := d.insert ["d", "snapshots"] (.file 0 [])
    let shelf := d.insert ["d", "snapshots"] .directory
    let logs : Config := { dataDir := ⟨"/d/logs/.."⟩ }
    let below : Config := { dataDir := ⟨"/d/snapshots/y/../.."⟩ }
    (blocked.placeOf logs.logDir = ["d", "logs"] ∧ blocked.node? ["d", "logs"] = none ∧
      (blocked.makeDirectories logs.dataDir).1 = .ok ["d"] ∧
      savedStore logs blocked = .error (.io Fault.notDirectory.message) ∧
      (start logs 0 blocked).1 = .error (.io Fault.notDirectory.message) ∧
      (start logs 0 blocked).2.node? ["d", "logs"] = some .directory) ∧
    shelf.placeOf below.snapshotDir = ["d", "snapshots"] ∧
      shelf.node? ["d", "snapshots", "y"] = none ∧
      (start below 0 shelf).2.node? ["d", "snapshots", "y"] = some .directory := by
  decide +kernel

end Database
end Keyline
