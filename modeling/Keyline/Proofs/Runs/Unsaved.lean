import Keyline.Proofs.Runs.AuditTrail
import Keyline.Proofs.Runs.Recovery
import Keyline.Proofs.Snapshots.Reach

/-!
# No change goes unsaved unnoticed

The counter of a database says how many changes were made since it was opened or last saved,
whether or not they could be recorded and however many ticks failed in between. While it stands at
zero nothing is lost if the database ends: a tick has nothing to do, and whoever opens the archive
restores the store that the database has.
-/
namespace Keyline

open FileTree

/-- Whatever writes into the log directory leaves the archive alone. -/
theorem Config.spared_of_logging {c : Config} {t t' : FileTree} (keeps : Keeps t t')
    (changes : ChangesIn (t.placeOf c.logDir) t t') : Archive.Spared c.snapshotDir t t' := by
  apply Archive.spared_of_changesIn keeps changes (c.logDir_ne_snapshotDir t)
  intro n
  simp [c.placeOf_snapshotDir, c.placeOf_logDir]

namespace Database

def changes (raw : String) : Bool :=
  match Query.parse raw with
  | .ok q => q.mutates
  | .error _ => false

namespace Deed

def isSaved : Deed → Bool
  | saved _ _ => true
  | _ => false

/-- Whether the deed is an accepted command that changes the store. -/
def isChange : Deed → Bool
  | handled raw _ => changes raw
  | _ => false

end Deed

/-- The deeds since the store was last saved, the latest first. -/
def recent (ds : List Deed) : List Deed := ds.reverse.takeWhile fun d => !d.isSaved

@[simp] theorem recent_concat (ds : List Deed) (d : Deed) :
    recent (ds ++ [d]) = if d.isSaved then [] else d :: recent ds := by
  cases h : d.isSaved <;> simp [recent, h]

/-- Only a change moves the counter, and only a change makes another store. -/
theorem Handling.counted {db db' : Database} {now : Nat} {raw : String} {t t' : FileTree}
    {r : Except Failure Reply} (h : Handling db now raw t r db' t') :
    (changes raw = true ∧ db'.unsaved = db.unsaved + 1) ∨
      (changes raw = false ∧ db'.unsaved = db.unsaved ∧ db'.store = db.store) := by
  unfold changes
  cases h with
  | rejected e parsed => simp [parsed]
  | read q parsed mutates => simp [parsed, mutates, Store.apply_of_not_mutates mutates]
  | unlogged q parsed mutates => simp [parsed, mutates]
  | recorded q log log' t' parsed mutates => simp [parsed, mutates]
  | unrecorded q log e parsed mutates => simp [parsed, mutates]

/-- What holds after every deed: the counter is that of the recent changes, and at zero the store
is the one that the archive, which is in sight, holds. -/
structure Counted (c : Config) (d : Place) (ds : List Deed) (w : Worker) : Prop where
  unsaved : w.database.unsaved = (recent ds).countP Deed.isChange
  holds : ∃ s, Site.Kept c.dataDir d ⟨some w.database, w.files⟩ (some s) ∧
    (w.database.unsaved = 0 → w.database.store = s)
  sight : Archive.InSight w.files c.snapshotDir
  free : Archive.Free w.files c.snapshotDir

theorem sight_of_start {c : Config} {now : Nat} {db : Database} {t t' : FileTree}
    (start : Database.start c now t = (.ok db, t')) :
    Archive.InSight t' c.snapshotDir ∧ Archive.Free t' c.snapshotDir := by
  obtain ⟨q, t₁, made, attach, -, -, -, log⟩ := start_ok start
  obtain ⟨-, hw, -⟩ := directory_of_makeDirectories made
  obtain ⟨sight, free⟩ := Archive.inSight_of_attach (by decide) (by decide) (by decide) (by decide)
    hw attach
  have spared : Archive.Spared c.snapshotDir t₁ t' := by
    rcases log with ⟨-, -, rfl⟩ | ⟨-, log, -, started⟩
    · exact .refl _ _
    · obtain ⟨t₂, g, o⟩ := AppendLog.start_ok started
      apply Config.spared_of_logging (g.keeps.trans o.keeps)
      rw [← placeOf_of_base g.base]
      exact (g.changesIn _).trans o.changesIn
  exact ⟨spared.inSight sight, spared.free free⟩

theorem counted_of_start {c : Config} {now : Nat} {db : Database} {t t' : FileTree}
    (start : Database.start c now t = (.ok db, t'))
    (even : Archive.Even t c.snapshotDir (t.placeOf c.snapshotDir)) :
    Counted c (t.placeOf c.snapshotDir) [] ⟨db, t'⟩ := by
  obtain ⟨sight, free⟩ := sight_of_start start
  have kept : Site.Kept c.dataDir (t.placeOf c.snapshotDir) ⟨none, t⟩ none :=
    ⟨rfl, even, nofun, nofun⟩
  obtain ⟨-, -, -, -, -, -, unsaved, -⟩ := start_ok start
  refine ⟨unsaved, ⟨db.store, ?_, fun _ => rfl⟩, sight, free⟩
  exact Site.kept_of_step (.opened c now t t' db rfl start) trivial kept

theorem sight_of_step {c : Config} {v w : Worker} {d : Deed}
    (step : Step (Archive.Spared c.snapshotDir) v d w) (sound : v.database.Sound v.files)
    (there : v.database.config.dataDir = c.dataDir)
    (sight : Archive.InSight v.files c.snapshotDir) (free : Archive.Free v.files c.snapshotDir) :
    Archive.InSight w.files c.snapshotDir ∧ Archive.Free w.files c.snapshotDir := by
  have hdir : v.database.config.snapshotDir = c.snapshotDir := by
    rw [Config.snapshotDir, there, Config.snapshotDir]
  have harchive : v.database.archive.dir = c.snapshotDir := sound.archive.trans hdir
  have spared (h : Archive.Spared c.snapshotDir v.files w.files) :
      Archive.InSight w.files c.snapshotDir ∧ Archive.Free w.files c.snapshotDir :=
    ⟨h.inSight sight, h.free free⟩
  cases step with
  | handled db t now raw =>
    have h := db.handling now raw t
    apply spared
    rw [← hdir]
    exact Config.spared_of_logging h.keeps (h.changesIn sound)
  | saved db db' t t' now path tick =>
    have h := db.ticking now t
    rw [tick] at h
    cases h with
    | saved _ a _ _ write =>
      obtain ⟨-, -, e, written⟩ := Archive.write_ok write
      have hd := written.keeps.directory_eq written.directory
      rw [harchive] at hd
      exact ⟨Archive.inSight_of_directory hd, Archive.free_of_directory hd⟩
  | idle db db' t t' now tick =>
    have h := db.ticking now t
    rw [tick] at h
    cases h
    exact ⟨sight, free⟩
  | failed db t t' now e tick =>
    have h := db.ticking now t
    rw [tick] at h
    cases h with
    | failed _ _ _ write =>
      apply spared
      rw [← harchive]
      exact Archive.spared_of_write_error write
  | others db t t' changed => exact spared changed

theorem counted_of_step {c : Config} {p : Place} {ds : List Deed} {v w : Worker} {d : Deed}
    (step : Step (Archive.Spared c.snapshotDir) v d w) (timely : Site.Timely (.deed d))
    (h : Counted c p ds v) : Counted c p (ds ++ [d]) w := by
  obtain ⟨s, kept, store⟩ := h.holds
  obtain ⟨sound, there, -⟩ := kept.database v.database rfl
  have kept' := Site.kept_of_deed (step.imp fun o => kept.place ▸ o.snapshots) timely kept
  obtain ⟨sight, free⟩ := sight_of_step step sound there h.sight h.free
  have unsaved := h.unsaved
  cases step with
  | handled db t now raw =>
    refine ⟨?_, ⟨s, kept', ?_⟩, sight, free⟩
    · rcases (db.handling now raw t).counted with ⟨hc, hu⟩ | ⟨hc, hu, -⟩
      · simpa [Deed.isSaved, Deed.isChange, hc, hu] using unsaved
      · simpa [Deed.isSaved, Deed.isChange, hc, hu] using unsaved
    · intro h0
      rcases (db.handling now raw t).counted with ⟨-, hu⟩ | ⟨-, hu, hs⟩
      · simp [hu] at h0
      · exact hs.trans (store (hu ▸ h0))
  | saved db db' t t' now path tick =>
    have ht := db.ticking now t
    rw [tick] at ht
    cases ht
    exact ⟨by simp [Deed.isSaved], ⟨_, kept', fun _ => rfl⟩, sight, free⟩
  | idle db db' t t' now tick =>
    have ht := db.ticking now t
    rw [tick] at ht
    cases ht
    exact ⟨by simpa [Deed.isSaved, Deed.isChange] using unsaved, ⟨s, kept', store⟩, sight, free⟩
  | failed db t t' now e tick =>
    exact ⟨by simpa [Deed.isSaved, Deed.isChange] using unsaved, ⟨s, kept', store⟩, sight, free⟩
  | others db t t' changed =>
    exact ⟨by simpa [Deed.isSaved, Deed.isChange] using unsaved, ⟨s, kept', store⟩, sight, free⟩

theorem counted_of_run {c : Config} {p : Place} {v w : Worker} {ds : List Deed}
    (run : Run (Archive.Spared c.snapshotDir) v ds w) (timely : ∀ d ∈ ds, Site.Timely (.deed d))
    (h : Counted c p [] v) : Counted c p ds w := by
  induction run with
  | start => exact h
  | step run step ih =>
    obtain ⟨earlier, last⟩ := List.forall_mem_append.1 timely
    exact counted_of_step step (last _ (List.mem_singleton_self _)) (ih earlier)

/-- The counter of a database is the number of changes since it was opened or last saved. While it
stands at zero, ticks do nothing and the archive restores the store of the database. -/
theorem unsaved_counts_changes {c : Config} {now : Nat} {db : Database} {t t' : FileTree}
    {ds : List Deed} {w : Worker} (start : Database.start c now t = (.ok db, t'))
    (even : Archive.Even t c.snapshotDir (t.placeOf c.snapshotDir))
    (run : Run (Archive.Spared c.snapshotDir) ⟨db, t'⟩ ds w)
    (timely : ∀ d ∈ ds, Site.Timely (.deed d)) :
    w.database.unsaved = (recent ds).countP Deed.isChange ∧
      (w.database.unsaved = 0 →
        (∀ n, w.database.tick n w.files = (.ok (none, w.database), w.files)) ∧
        ∃ a, Archive.attach w.files c.snapshotDir = .ok a ∧
          a.restore w.files = .ok w.database.store) := by
  have h := counted_of_run run timely (counted_of_start start even)
  refine ⟨h.unsaved, fun h0 => ⟨fun n => by simp [tick, h0], ?_⟩⟩
  obtain ⟨s, kept, store⟩ := h.holds
  have named : c.snapshotDir.text ≠ "" := by
    intro e
    have last : c.snapshotDir.names = c.dataDir.names ++ ["snapshots"] :=
      Path.names_child (by decide)
    rw [Path.names, e] at last
    simp [Path.pieces] at last
  apply Archive.exists_attach h.sight h.free named
  rw [store h0]
  have holds := kept.holds s rfl
  rwa [← kept.place] at holds

/-- A first tick fails because a directory stands where it would write; the change is saved by the
next one. -/
theorem unsaved_counts_past_failed_tick :
    let c : Config := { dataDir := ⟨"/d"⟩ }
    ∃ t db t' ds w, Database.start c 1600000000000 t = (.ok db, t') ∧
      Archive.Even t c.snapshotDir (t.placeOf c.snapshotDir) ∧
      Run (Archive.Spared c.snapshotDir) ⟨db, t'⟩ ds w ∧ (∀ d ∈ ds, Site.Timely (.deed d)) ∧
      ds.length = 3 ∧ w.database.unsaved = 0 ∧
      ∃ a, Archive.attach w.files c.snapshotDir = .ok a ∧
        a.restore w.files = .ok w.database.store := by
  intro c
  let t₀ := (((FileTree.empty.insert ["d"] .directory).insert ["d", "snapshots"] .directory).insert
    ["d", "snapshots", "1700000000000-snapshot.json.tmp"] .directory)
  have directories : ∀ e ∈ t₀.nodes, e.2 = .directory := by decide +kernel
  have even : Archive.Even t₀ c.snapshotDir (t₀.placeOf c.snapshotDir) := by
    intro ds hds
    obtain ⟨-, ⟨g, bs, hn⟩, -⟩ := Archive.isSnapshot_iff.1 hds
    have := directories _ ((mem_nodes_iff (by simp)).2 hn)
    simp at this
  let db₁ : Database := ⟨c, ∅, ⟨⟨"/d/snapshots"⟩, 0⟩, some ⟨⟨"/d/logs"⟩, 5, 1600000000000,
    ⟨["d", "logs", "1600000000000.kvslog"], 0⟩, 0⟩, 0⟩
  let t₁ := (Database.start c 1600000000000 t₀).2
  let h₂ := db₁.handle 1600000000000 "set k v" t₁
  let e₃ : Failure := .snapshot ("cannot write /d/snapshots/1700000000000-snapshot.json: " ++
    Fault.isDirectory.message)
  let t₃ := (h₂.database.tick 1700000000000 h₂.files).2
  let db₄ : Database :=
    { h₂.database with archive := ⟨⟨"/d/snapshots"⟩, 1700000000001⟩, unsaved := 0 }
  let t₄ := (h₂.database.tick 1700000000001 t₃).2
  have start₁ : Database.start c 1600000000000 t₀ = (.ok db₁, t₁) :=
    Prod.ext (by decide +kernel) rfl
  have tick₃ : h₂.database.tick 1700000000000 h₂.files = (.error e₃, t₃) :=
    Prod.ext (by decide +kernel) rfl
  have tick₄ : h₂.database.tick 1700000000001 t₃ =
      (.ok (some ⟨"/d/snapshots/1700000000001-snapshot.json"⟩, db₄), t₄) :=
    Prod.ext (by decide +kernel) rfl
  let ds : List Deed :=
    [.handled "set k v" h₂.result, .failed e₃, .saved 1700000000001 h₂.database.store]
  have run : Run (Archive.Spared c.snapshotDir) ⟨db₁, t₁⟩ ds ⟨db₄, t₄⟩ :=
    .step (.step (.step (.start _) (.handled db₁ t₁ 1600000000000 "set k v"))
      (.failed h₂.database h₂.files t₃ 1700000000000 e₃ tick₃))
      (.saved h₂.database db₄ t₃ t₄ 1700000000001 _ tick₄)
  have timely : ∀ d ∈ ds, Site.Timely (.deed d) := by simp [ds, Site.Timely]
  exact ⟨t₀, db₁, t₁, ds, ⟨db₄, t₄⟩, start₁, even, run, timely, rfl, rfl,
    ((unsaved_counts_changes start₁ even run timely).2 rfl).2⟩

end Database
end Keyline
