import Keyline.Proofs.Runs.Erasure
import Keyline.Proofs.Runs.Recovery
import Keyline.Proofs.Runs.Responses

/-!
# What holds of every store

Where a data directory held no snapshots in the beginning, each store of a database over it is
empty, or came about by a command, or was restored from a snapshot of such a store. So whatever
holds of the empty store and is kept by commands holds of all stores, those in snapshots included,
however often databases are opened and closed.
-/
namespace Keyline

open FileTree

variable {P : Store → Prop} {dir : Path} {d : Place}

/-- The snapshots of a data directory, at `d`, are of stores with this property. -/
structure Archived (P : Store → Prop) (dir : Path) (d : Place) (t : FileTree) : Prop where
  place : t.placeOf (Site.archive dir) = d
  stores : ∀ m g bs s, Archive.isSnapshot t (Site.archive dir) d m = true →
    t.node? (d ++ [m]) = some (.file g bs) → Snapshots.decode bs = .ok s → P s

namespace Archived
variable {t t' : FileTree}

theorem of_bare
    (bare : ∀ m, Archive.isSnapshot t (Site.archive dir) (t.placeOf (Site.archive dir)) m = false) :
    Archived P dir (t.placeOf (Site.archive dir)) t := by
  refine ⟨rfl, fun m g bs s hm => ?_⟩
  rw [bare m] at hm
  cases hm

theorem congr (h : Archived P dir d t) (same : Archive.SameSnapshots d t t') :
    Archived P dir d t' := by
  refine ⟨?_, fun m g bs s hm hb hs => ?_⟩
  · rw [placeOf_of_base same.base]
    exact h.place
  · have ht := (Archive.isSnapshot_iff.1 hm).2.2
    exact h.stores m g bs s (same.isSnapshot_iff.1 hm) ((same.file_iff m ht g bs).1 hb) hs

theorem restored (h : Archived P dir d t) (empty : P ∅) {a : Archive} {s : Store}
    (ha : a.dir = Site.archive dir) (restore : a.restore t = .ok s) : P s := by
  obtain ⟨ns, hns, ⟨-, rfl⟩ | ⟨m, e, bs, hl, he, hr, hs⟩⟩ := Archive.restore_eq_ok_iff.1 restore
  · exact empty
  · obtain ⟨g, hg⟩ := read_eq_ok_iff.1 hr
    obtain rfl : e = d := by rw [eq_placeOf_of_lookup he, ha, h.place]
    obtain ⟨-, ⟨f, -, rfl⟩ | ⟨e', he', -, hm⟩⟩ := Archive.namesIn_cases hns
    · cases hl
    · rw [he] at he'
      cases he'
      rw [ha] at hm
      exact h.stores m g bs s ((hm m).1 (List.mem_of_getLast? hl)) hg hs

theorem saved (h : Archived P dir d t) {a a' : Archive} {now : Nat} {s : Store} {path : Path}
    (ha : a.dir = Site.archive dir) (hs : P s)
    (write : a.write now s t = (.ok (path, a'), t')) : Archived P dir d t' := by
  obtain ⟨-, -, e, w⟩ := Archive.write_ok write
  rw [ha] at w
  have hmade : Archive.SameSnapshots d t (a.made t) := (Archive.grows_made a t).sameFiles
  have hm := h.congr hmade
  obtain rfl : e = d := by rw [Archive.place_of_made w.directory, h.place]
  refine ⟨?_, fun m g bs r hsnap hb hr => ?_⟩
  · rw [placeOf_of_base w.base]
    exact hm.place
  · by_cases hname : m = Snapshots.fileName (nextTimestamp now a.last)
    · subst hname
      obtain ⟨g', hg⟩ := w.file
      rw [hg] at hb
      cases hb
      rw [Snapshots.decode_encode] at hr
      cases hr
      exact hs
    · have ht := Archive.isSnapshot_iff.1 hsnap
      have hother := w.other hname ht.2.2
      rw [hother] at hb
      exact hm.stores m g bs r (Archive.isSnapshot_iff.2 ⟨ht.1, ⟨g, bs, hb⟩, ht.2.2⟩) hb hr

end Archived

/-- A worker over a data directory all of whose stores have this property. -/
structure Worker.Confined (P : Store → Prop) (dir : Path) (d : Place) (w : Worker) : Prop where
  sound : w.database.Sound w.files
  there : w.database.config.dataDir = dir
  store : P w.database.store
  archived : Archived P dir d w.files

namespace Worker
variable {w : Worker}

theorem confined_of_start {c : Config} {now : Nat} {db : Database} {t t' : FileTree}
    (empty : P ∅) (start : Database.start c now t = (.ok db, t')) (there : c.dataDir = dir)
    (h : Archived P dir d t) : Confined P dir d ⟨db, t'⟩ := by
  subst there
  obtain ⟨q, t₁, hm, ha, hr, hc, -⟩ := Database.start_ok start
  have g := grows_makeDirectories t c.dataDir
  rw [hm] at g
  have hsame := Site.sameSnapshots_of_logging rfl (Database.changesIn_of_start start)
  rw [h.place] at hsame
  refine ⟨Database.sound_of_start start, by rw [hc], ?_, h.congr hsame⟩
  exact (h.congr g.sameFiles).restored empty (Archive.dir_of_attach ha) hr

theorem Confined.congr {t' : FileTree} (h : w.Confined P dir d)
    (same : Archive.SameSnapshots d w.files t') : Confined P dir d ⟨w.database, t'⟩ :=
  ⟨h.sound.congr same.base, h.there, h.store, h.archived.congr same⟩

theorem Confined.archive (h : w.Confined P dir d) :
    w.database.archive.dir = Site.archive dir := by
  rw [h.sound.archive, Config.snapshotDir, h.there]
  rfl

theorem Confined.handled (h : w.Confined P dir d) (now : Nat) {raw : String}
    (next : P (w.database.store.respond raw).2) : (w.handled now raw).Confined P dir d := by
  have handling := w.database.handling now raw w.files
  obtain ⟨sound, hc, -⟩ := handling.sound h.sound
  have same := Site.sameSnapshots_of_logging h.there (handling.changesIn h.sound)
  rw [h.archived.place] at same
  rw [← handling.respond.1] at next
  exact ⟨sound, (congrArg Config.dataDir hc).trans h.there, next, h.archived.congr same⟩

theorem Confined.ticked {db db' : Database} {now : Nat} {t t' : FileTree} {path : Option Path}
    (h : Confined P dir d ⟨db, t⟩) (tick : db.tick now t = (.ok (path, db'), t')) :
    Confined P dir d ⟨db', t'⟩ := by
  have ticking := db.ticking now t
  rw [tick] at ticking
  obtain ⟨sound, hc, -, hstore⟩ := ticking.sound h.sound
  refine ⟨sound, (congrArg Config.dataDir hc).trans h.there, hstore ▸ h.store, ?_⟩
  cases ticking with
  | idle => exact h.archived
  | saved path archive _ unsaved write => exact h.archived.saved h.archive h.store write

theorem Confined.unticked {db : Database} {now : Nat} {t t' : FileTree} {e : Failure}
    (h : Confined P dir d ⟨db, t⟩) (tick : db.tick now t = (.error e, t')) :
    Confined P dir d ⟨db, t'⟩ := by
  have ticking := db.ticking now t
  rw [tick] at ticking
  cases ticking with
  | failed _ _ unsaved write =>
    have same := Archive.sameSnapshots_of_write_error write
    rw [h.archive, h.archived.place] at same
    exact h.congr same

theorem Confined.tick (h : w.Confined P dir d) (δ : Type) (now : Nat) :
    (w.tick now : Worker × List (Output δ)).1.Confined P dir d := by
  rw [Worker.tick]
  split
  · next ht => exact h.ticked ht
  · next ht => exact h.unticked ht

end Worker

namespace Site

/-- All stores at a data directory have this property. -/
def Confined (P : Store → Prop) (dir : Path) (d : Place) : Site → Prop
  | ⟨none, t⟩ => Archived P dir d t
  | ⟨some db, t⟩ => Worker.Confined P dir d ⟨db, t⟩

section Invariant
variable (empty : P ∅) (respond : ∀ s raw, P s → P (s.respond raw).2)
include respond

theorem confined_of_deed {v w : Worker} {deed : Database.Deed}
    (step : Database.Step (Archive.SameSnapshots d) v deed w) (h : v.Confined P dir d) :
    w.Confined P dir d := by
  cases step with
  | handled db t now raw => exact h.handled now (respond _ raw h.store)
  | saved db db' t t' now path tick => exact h.ticked tick
  | idle db db' t t' now tick => exact h.ticked tick
  | failed db t t' now e tick => exact h.unticked tick
  | others db t t' changed => exact h.congr changed

include empty

theorem confined_of_step {v w : Site} {e : Event}
    (step : Step dir (Archive.SameSnapshots d) v e w) (h : v.Confined P dir d) :
    w.Confined P dir d := by
  cases step with
  | opened c now t t' db there start => exact Worker.confined_of_start empty start there h
  | refused c now t t' e there start => exact h.congr (Database.start_error start).sameFiles
  | deed v w deed step => exact confined_of_deed respond step h
  | ended db t => exact h.archived
  | others t t' changed => exact h.congr changed

theorem confined_of_run {v w : Site} {es : List Event}
    (run : Run dir (Archive.SameSnapshots d) v es w) (h : v.Confined P dir d) :
    w.Confined P dir d := by
  induction run with
  | start => exact h
  | step run step ih => exact confined_of_step empty respond step ih

/-- What holds of the empty store and is kept by commands holds of every store over a directory
that held no snapshots. -/
theorem store_of_run {t t' : FileTree} {es : List Event} {db : Database}
    (bare : ∀ m, Archive.isSnapshot t (archive dir) (t.placeOf (archive dir)) m = false)
    (run : Run dir (Archive.SameSnapshots (t.placeOf (archive dir))) ⟨none, t⟩ es ⟨some db, t'⟩) :
    P db.store := by
  have start : Confined P dir (t.placeOf (archive dir)) ⟨none, t⟩ := Archived.of_bare bare
  have h : Worker.Confined P dir _ ⟨db, t'⟩ := confined_of_run empty respond run start
  exact h.store

end Invariant
end Site
end Keyline
