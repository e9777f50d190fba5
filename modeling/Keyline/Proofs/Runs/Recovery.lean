import Keyline.Proofs.Runs.Deeds
import Keyline.Proofs.Snapshots.Keeping

/-!
# Recovery

Databases are opened over one data directory, one at a time, and each ends at any moment. A tick
that saves the store makes it the one that every later start restores; before the first such tick
all starts restore what the first one did. Nothing else matters, not what was done since the last
tick and not what the log holds.
-/
namespace Keyline

open FileTree

/-- A data directory with the database that is open over it, if one is. -/
structure Site where
  database : Option Database
  files : FileTree

namespace Site

inductive Event
  /-- A database was opened; it started with this store. -/
  | opened (s : Store)
  | refused (e : Failure)
  | deed (d : Database.Deed)
  /-- The database was closed, or is gone without having been closed. -/
  | ended

/-- One event at the data directory `dir`, where others change files as `outside` allows. -/
inductive Step (dir : Path) (outside : FileTree → FileTree → Prop) : Site → Event → Site → Prop
  | opened (c : Config) (now : Nat) (t t' : FileTree) (db : Database) (there : c.dataDir = dir)
      (start : Database.start c now t = (.ok db, t')) :
    Step dir outside ⟨none, t⟩ (.opened db.store) ⟨some db, t'⟩
  | refused (c : Config) (now : Nat) (t t' : FileTree) (e : Failure) (there : c.dataDir = dir)
      (start : Database.start c now t = (.error e, t')) :
    Step dir outside ⟨none, t⟩ (.refused e) ⟨none, t'⟩
  | deed (v w : Worker) (d : Database.Deed) (step : Database.Step outside v d w) :
    Step dir outside ⟨some v.database, v.files⟩ (.deed d) ⟨some w.database, w.files⟩
  | ended (db : Database) (t : FileTree) : Step dir outside ⟨some db, t⟩ .ended ⟨none, t⟩
  | others (t t' : FileTree) (changed : outside t t') :
    Step dir outside ⟨none, t⟩ (.deed .others) ⟨none, t'⟩

inductive Run (dir : Path) (outside : FileTree → FileTree → Prop) :
    Site → List Event → Site → Prop
  | start (v : Site) : Run dir outside v [] v
  | step {u v w : Site} {es : List Event} {e : Event} (run : Run dir outside u es v)
      (step : Step dir outside v e w) : Run dir outside u (es ++ [e]) w

/-- The store that is due after an event: what was saved last, or else what was restored first. -/
def note (s : Option Store) : Event → Option Store
  | .opened first => some (s.getD first)
  | .deed (.saved _ saved) => some saved
  | _ => s

/-- The store with which a database is due to start. -/
def due (es : List Event) : Option Store := es.foldl note none

theorem due_append (es : List Event) (e : Event) : due (es ++ [e]) = note (due es) e := by
  rw [due, List.foldl_append]
  rfl

theorem due_unsaved {es : List Event} {s : Store}
    (h : ∀ e ∈ es, ∀ n r, e ≠ .deed (.saved n r)) : es.foldl note (some s) = some s := by
  induction es with
  | nil => rfl
  | cons e es ih =>
    have hes := ih fun e' he' => h e' (List.mem_cons_of_mem e he')
    rw [List.foldl_cons]
    cases e with
    | opened | refused | ended => exact hes
    | deed d =>
      cases d with
      | handled | idle | failed | others => exact hes
      | saved n r => exact absurd rfl (h _ List.mem_cons_self n r)

/-- What was saved is due until something else is saved. -/
theorem due_of_saved {es fs : List Event} {n : Nat} {s : Store}
    (h : ∀ e ∈ fs, ∀ m r, e ≠ .deed (.saved m r)) :
    due (es ++ .deed (.saved n s) :: fs) = some s := by
  rw [due, List.foldl_append, List.foldl_cons]
  exact due_unsaved h

/-- As long as nothing is saved, what the first start restored is due. -/
theorem due_of_opened {es fs : List Event} {s : Store} (first : ∀ e ∈ es, ∀ r, e ≠ .opened r)
    (h : ∀ e ∈ es ++ fs, ∀ m r, e ≠ .deed (.saved m r)) :
    due (es ++ .opened s :: fs) = some s := by
  have hes : due es = none := by
    induction es with
    | nil => rfl
    | cons e es ih =>
      have hnext := ih (fun e' he' => first e' (List.mem_cons_of_mem e he'))
        fun e' he' => h e' (List.mem_cons_of_mem e he')
      cases e with
      | opened r => exact absurd rfl (first _ List.mem_cons_self r)
      | refused | ended => exact hnext
      | deed d =>
        cases d with
        | handled | idle | failed | others => exact hnext
        | saved n r => exact absurd rfl (h _ List.mem_cons_self n r)
  rw [due] at hes ⊢
  rw [List.foldl_append, hes, List.foldl_cons]
  apply due_unsaved
  intro e he
  exact h e (List.mem_append_right es he)

/-- Timestamps of snapshots that are written have thirteen digits. -/
def Timely : Event → Prop
  | .deed (.saved n _) => 10 ^ 12 ≤ n ∧ n < 10 ^ 13
  | _ => True

def archive (dir : Path) : Path := dir.child "snapshots"

/-- What holds at every moment: the archive holds what is due, and an open database knows of no
newer snapshot than there is. -/
structure Kept (dir : Path) (d : Place) (v : Site) (s : Option Store) : Prop where
  place : v.files.placeOf (archive dir) = d
  even : Archive.Even v.files (archive dir) d
  holds : ∀ r, s = some r → Archive.Holds v.files (archive dir) d r
  database : ∀ db, v.database = some db → db.Sound v.files ∧ db.config.dataDir = dir ∧
    Archive.UpTo db.archive.last v.files (archive dir) d

theorem Kept.congr {dir : Path} {d : Place} {t t' : FileTree} {db : Option Database}
    {s : Option Store} (k : Kept dir d ⟨db, t⟩ s) (h : Archive.SameSnapshots d t t') :
    Kept dir d ⟨db, t'⟩ s := by
  refine ⟨?_, h.even k.even, fun r hr => h.holds (k.holds r hr), fun b hb => ?_⟩
  · rw [placeOf_of_base h.base]
    exact k.place
  · obtain ⟨hs, hdir, hu⟩ := k.database b hb
    exact ⟨hs.congr h.base, hdir, h.upTo hu⟩

theorem sameSnapshots_of_logging {c : Config} {dir : Path} {t t' : FileTree}
    (there : c.dataDir = dir) (h : ChangesIn (t.placeOf c.logDir) t t') :
    Archive.SameSnapshots (t.placeOf (archive dir)) t t' := by
  apply h.sameFiles
  subst there
  exact c.logDir_ne_snapshotDir t

theorem restored_of_start {c : Config} {now : Nat} {db : Database} {t t' : FileTree}
    (h : Database.start c now t = (.ok db, t'))
    (even : Archive.Even t (archive c.dataDir) (t.placeOf (archive c.dataDir))) :
    Archive.Holds t (archive c.dataDir) (t.placeOf (archive c.dataDir)) db.store ∧
      Archive.UpTo db.archive.last t (archive c.dataDir) (t.placeOf (archive c.dataDir)) ∧
      ∀ s, Archive.Holds t (archive c.dataDir) (t.placeOf (archive c.dataDir)) s →
        db.store = s := by
  obtain ⟨q, t₁, hm, ha, hr, -⟩ := Database.start_ok h
  have g := grows_makeDirectories t c.dataDir
  rw [hm] at g
  have hsame : Archive.SameSnapshots (t.placeOf (archive c.dataDir)) t t₁ := g.sameFiles
  obtain ⟨-, hw, -⟩ := directory_of_makeDirectories hm
  have hdir := Archive.dir_of_attach ha
  obtain ⟨ns, hns, -⟩ := Archive.attach_eq_ok_iff.1 ha
  have hplace : t.placeOf (archive c.dataDir) = q ++ ["snapshots"] := by
    rw [← placeOf_of_base g.base, archive, placeOf_child (by decide) (by decide) (by decide),
      placeOf, ← eq_foldl_climb_of_walk hw]
  have hlisted (m : String) : m ∈ ns ↔ Archive.isSnapshot t₁ (archive c.dataDir)
      (t.placeOf (archive c.dataDir)) m = true := by
    rw [hplace]
    exact Archive.mem_namesIn_iff (by decide) (by decide) (by decide) (by decide) hw hns m
  have hrestore (s : Store) : db.archive.restore t₁ = .ok s ↔
      Archive.Holds t₁ (archive c.dataDir) (t.placeOf (archive c.dataDir)) s := by
    have hdir' : archive c.dataDir = db.archive.dir := hdir.symm
    rw [hdir'] at hlisted ⊢
    rw [← hdir] at hns
    exact Archive.restore_eq_ok_iff_holds hns hlisted (placeOf_of_base g.base _).symm
  have hback : Archive.SameSnapshots (t.placeOf (archive c.dataDir)) t₁ t := hsame.symm
  refine ⟨hback.holds ((hrestore _).1 hr),
    hback.upTo (Archive.upTo_of_attach ha hns hlisted (hsame.even even)), fun s hs => ?_⟩
  rw [(hrestore s).2 (hsame.holds hs)] at hr
  cases hr
  rfl

theorem kept_of_saved {dir : Path} {d : Place} {db db' : Database} {now : Nat} {t t' : FileTree}
    {path : Path} {s : Option Store} (tick : db.tick now t = (.ok (some path, db'), t'))
    (timely : Timely (.deed (.saved (nextTimestamp now db.archive.last) db.store)))
    (k : Kept dir d ⟨some db, t⟩ s) : Kept dir d ⟨some db', t'⟩ (some db.store) := by
  obtain ⟨sound, there, up⟩ := k.database db rfl
  have h := db.ticking now t
  rw [tick] at h
  have h' := h.sound sound
  cases h with
  | saved _ a _ _ write =>
    obtain ⟨-, rfl, e, w⟩ := Archive.write_ok write
    rw [sound.archive, Config.snapshotDir, there] at w
    obtain rfl : e = d := by rw [Archive.place_of_made w.directory, ← k.place]; rfl
    have hmade : Archive.SameSnapshots e t (db.archive.made t) :=
      (Archive.grows_made db.archive t).sameFiles
    obtain ⟨hlow, hhigh⟩ := timely
    obtain ⟨hholds, heven, hup⟩ := Archive.holds_of_written w hlow hhigh (hmade.even k.even)
      fun ds hds => Nat.lt_of_le_of_lt (hmade.upTo up ds hds) (lt_nextTimestamp _ _)
    refine ⟨?_, heven, ?_, ?_⟩
    · rw [← k.place]
      exact placeOf_of_base (w.base.trans hmade.base) _
    · rintro _ ⟨⟩
      exact hholds
    · rintro _ ⟨⟩
      exact ⟨h'.1, there, hup⟩

theorem kept_of_deed {dir : Path} {d : Place} {v w : Worker} {deed : Database.Deed}
    {s : Option Store} (step : Database.Step (Archive.SameSnapshots d) v deed w)
    (timely : Timely (.deed deed)) (k : Kept dir d ⟨some v.database, v.files⟩ s) :
    Kept dir d ⟨some w.database, w.files⟩ (note s (.deed deed)) := by
  obtain ⟨sound, there, up⟩ := k.database v.database rfl
  cases step with
  | handled db t now raw =>
    have h := db.handling now raw t
    have hsame := sameSnapshots_of_logging there (h.changesIn sound)
    rw [k.place] at hsame
    have k' := k.congr hsame
    obtain ⟨sound', hc, ha⟩ := h.sound sound
    refine ⟨k'.place, k'.even, k'.holds, ?_⟩
    rintro _ ⟨⟩
    refine ⟨sound', ?_, ?_⟩
    · rw [hc]
      exact there
    · rw [ha]
      exact hsame.upTo up
  | idle db db' t t' now tick =>
    have h := db.ticking now t
    rw [tick] at h
    cases h
    exact k
  | failed db t t' now e tick =>
    have h := db.ticking now t
    rw [tick] at h
    cases h with
    | failed _ _ _ write =>
      have hsame := Archive.sameSnapshots_of_write_error write
      rw [sound.archive, Config.snapshotDir, there] at hsame
      exact k.congr (k.place ▸ hsame)
  | others db t t' changed => exact k.congr changed
  | saved db db' t t' now path tick => exact kept_of_saved tick timely k

/-- Every event keeps the archive with what is due. -/
theorem kept_of_step {dir : Path} {d : Place} {v w : Site} {e : Event} {s : Option Store}
    (step : Step dir (Archive.SameSnapshots d) v e w) (timely : Timely e)
    (k : Kept dir d v s) : Kept dir d w (note s e) := by
  cases step with
  | opened c now t t' db there start =>
    subst there
    obtain ⟨hholds, hup, huniq⟩ := restored_of_start start (k.place ▸ k.even)
    rw [k.place] at hholds hup huniq
    have hsame := sameSnapshots_of_logging rfl (Database.changesIn_of_start start)
    rw [k.place] at hsame
    have k' := k.congr hsame
    refine ⟨k'.place, k'.even, fun r hr => ?_, ?_⟩
    · apply hsame.holds
      cases s with
      | none =>
        cases hr
        exact hholds
      | some first =>
        cases hr
        exact k.holds _ rfl
    · rintro _ ⟨⟩
      obtain ⟨-, -, -, -, -, hc, -⟩ := Database.start_ok start
      exact ⟨Database.sound_of_start start, by rw [hc], hsame.upTo hup⟩
  | refused c now t t' err there start =>
    exact k.congr (Database.start_error start).sameFiles
  | ended db t => exact ⟨k.place, k.even, k.holds, fun b hb => by simp at hb⟩
  | others t t' changed => exact k.congr changed
  | deed v w deed step => exact kept_of_deed step timely k

theorem kept_of_run {dir : Path} {d : Place} {v w : Site} {es : List Event}
    (run : Run dir (Archive.SameSnapshots d) v es w) (timely : ∀ e ∈ es, Timely e)
    (k : Kept dir d v none) : Kept dir d w (due es) := by
  induction run with
  | start => exact k
  | step run step ih =>
    rw [due_append]
    apply kept_of_step step
    · apply timely
      simp
    · apply ih
      intro e he
      apply timely
      simp [he]

/-- Every start restores what is due. -/
theorem start_restores_due {dir : Path} {t t' t'' : FileTree} {es : List Event} {c : Config}
    {now : Nat} {db : Database}
    (even : Archive.Even t (archive dir) (t.placeOf (archive dir)))
    (run : Run dir (Archive.SameSnapshots (t.placeOf (archive dir))) ⟨none, t⟩ es ⟨none, t'⟩)
    (timely : ∀ e ∈ es, Timely e) (there : c.dataDir = dir)
    (start : Database.start c now t' = (.ok db, t'')) : ∀ s, due es = some s → db.store = s := by
  have k := kept_of_run run timely ⟨rfl, even, fun r hr => by simp at hr, fun b hb => by simp at hb⟩
  intro s hs
  subst there
  obtain ⟨-, -, huniq⟩ := restored_of_start start (k.place ▸ k.even)
  apply huniq
  rw [k.place]
  exact k.holds s hs

/-- A database that was opened in an empty tree, saved a value and then set another is opened
again. -/
theorem start_restores_saved_value :
    let c : Config := { dataDir := ⟨"/d"⟩ }
    let s : Store := .ofList [("k", "v")]
    ∃ es t t' db,
      Archive.Even .empty (archive c.dataDir) (FileTree.empty.placeOf (archive c.dataDir)) ∧
      Run c.dataDir (Archive.SameSnapshots (FileTree.empty.placeOf (archive c.dataDir)))
        ⟨none, .empty⟩ es ⟨none, t⟩ ∧ (∀ e ∈ es, Timely e) ∧
      Database.start c 1700000000001 t = (.ok db, t') ∧ due es = some s ∧ db.store = s := by
  intro c s
  have even : Archive.Even .empty (archive c.dataDir)
      (FileTree.empty.placeOf (archive c.dataDir)) := by
    intro ds hds
    rw [Archive.isSnapshot_empty] at hds
    cases hds
  let outside := Archive.SameSnapshots (FileTree.empty.placeOf (archive c.dataDir))
  let db₁ : Database := ⟨c, ∅, ⟨⟨"/d/snapshots"⟩, 0⟩, some ⟨⟨"/d/logs"⟩, 5, 1600000000000,
    ⟨["d", "logs", "1600000000000.kvslog"], 0⟩, 0⟩, 0⟩
  let t₁ := (Database.start c 1600000000000 .empty).2
  let h₂ := db₁.handle 1600000000000 "set k v" t₁
  let db₃ : Database :=
    { h₂.database with archive := ⟨⟨"/d/snapshots"⟩, 1700000000000⟩, unsaved := 0 }
  let t₃ := (h₂.database.tick 1700000000000 h₂.files).2
  let h₄ := db₃.handle 1700000000000 "set k w" t₃
  have start₁ : Database.start c 1600000000000 .empty = (.ok db₁, t₁) :=
    Prod.ext (by decide +kernel) rfl
  have tick₃ : h₂.database.tick 1700000000000 h₂.files =
      (.ok (some ⟨"/d/snapshots/1700000000000-snapshot.json"⟩, db₃), t₃) :=
    Prod.ext (by decide +kernel) rfl
  have fifth : (Database.start c 1700000000001 h₄.files).1.isOk = true := by decide +kernel
  let es : List Event := [.opened db₁.store, .deed (.handled "set k v" h₂.result),
    .deed (.saved 1700000000000 h₂.database.store), .deed (.handled "set k w" h₄.result), .ended]
  have run : Run c.dataDir outside ⟨none, .empty⟩ es ⟨none, h₄.files⟩ :=
    .step (.step (.step (.step (.step (.start _)
      (.opened c 1600000000000 .empty t₁ db₁ rfl start₁))
      (.deed ⟨db₁, t₁⟩ ⟨h₂.database, h₂.files⟩ _ (.handled db₁ t₁ 1600000000000 "set k v")))
      (.deed ⟨h₂.database, h₂.files⟩ ⟨db₃, t₃⟩ _ (.saved _ _ _ _ 1700000000000 _ tick₃)))
      (.deed ⟨db₃, t₃⟩ ⟨h₄.database, h₄.files⟩ _ (.handled db₃ t₃ 1700000000000 "set k w")))
      (.ended h₄.database h₄.files)
  have timely : ∀ e ∈ es, Timely e := by simp [es, Timely]
  cases h₅ : Database.start c 1700000000001 h₄.files with
  | mk r t₅ =>
    cases r with
    | error e => simp [h₅, Except.isOk, Except.toBool] at fifth
    | ok db₅ =>
      have saved : due es = some s := by decide +kernel
      exact ⟨es, h₄.files, t₅, db₅, even, run, timely, h₅, saved,
        start_restores_due even run timely rfl h₅ s saved⟩

end Site
end Keyline
