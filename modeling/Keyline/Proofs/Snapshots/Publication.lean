import Keyline.Proofs.Snapshots.Lasting
import Keyline.Worker

/-!
# A snapshot is seen when it is complete

A write makes directories one by one, then begins a temporary file, fills it, and renames it in the
end. At every point before that, and after a write that failed, readers of the directory see what
they saw before. One thing can come between: where the path led nowhere, for want of a directory in
front of double dots, it leads somewhere as soon as that directory is made.
-/
namespace Keyline

/-- The files at some point of making the directory that `names` lead to. -/
inductive FileTree.Making (p : Place) : FileTree → List String → FileTree → Prop
  | start (t : FileTree) (names : List String) : Making p t names t
  | above {t t₁ u : FileTree} {names : List String}
      (absent : t.ensure p names = (.error .absent, t₁))
      (making : Making p t₁ (Path.above names) u) : Making p t names u
  | done (t : FileTree) (names : List String) : Making p t names (t.makeFrom p names).2

open FileTree Snapshots

theorem FileTree.Making.grows {p : Place} {t u : FileTree} {names : List String}
    (h : Making p t names u) : Grows t u := by
  induction h with
  | start t names => exact Grows.refl t
  | @above t _ _ names absent _ ih =>
    have g := grows_ensure t p names
    rw [absent] at g
    exact g.trans ih
  | done t names => exact grows_makeFrom t p names

namespace Archive

/-- The files at some point of a write before the snapshot has its name. -/
inductive Pending (a : Archive) (now : Nat) (s : Store) (t : FileTree) : FileTree → Prop
  | making {u : FileTree} (making : Making (t.origin a.dir) t a.dir.names u) : Pending a now s t u
  | created {u : FileTree} {p : Place}
      (place : (a.made t).entry a.dir (temporaryName (nextTimestamp now a.last)) = .ok p)
      (created : (a.made t).create p = .ok u) : Pending a now s t u
  | writing {u : FileTree} {p : Place} (k : Nat)
      (place : (a.made t).entry a.dir (temporaryName (nextTimestamp now a.last)) = .ok p)
      (created : (a.made t).create p = .ok u) :
    Pending a now s t (u.extend p ((Snapshots.encode s).take k))

section Pending
variable {a : Archive} {now : Nat} {s : Store} {t u : FileTree}

theorem pending_made (a : Archive) (now : Nat) (s : Store) (t : FileTree) :
    Pending a now s t (a.made t) := by
  rw [made, makeDirectories]
  split
  · exact .making (.start _ _)
  · exact .making (.done _ _)

theorem begun_of_create {p : Place} {n : Nat}
    (place : (a.made t).entry a.dir (temporaryName n) = .ok p)
    (created : (a.made t).create p = .ok u) :
    ∃ d, p = d ++ [temporaryName n] ∧ (∃ g, u.node? p = some (.file g [])) ∧
      Begun a.dir n d (a.made t) u := by
  obtain ⟨-, d, hd, rfl⟩ := entry_eq_ok_iff.1 place
  have vacant : (a.made t).node? (d ++ [temporaryName n]) ≠ some .directory := by
    intro h
    rw [create, h] at created
    simp at created
  obtain ⟨g, v, hv, base, removals, node⟩ := create_child (node?_of_directory hd) vacant
  rw [hv] at created
  cases created
  exact ⟨d, rfl, ⟨g, by rw [node, if_pos rfl]⟩, hd, vacant, base, removals, g, [], node⟩

theorem Pending.unfinished (h : Pending a now s t u) :
    a.Unfinished (nextTimestamp now a.last) t u := by
  cases h with
  | making making => exact .inl making.grows
  | created place created =>
    obtain ⟨d, -, -, begun⟩ := begun_of_create place created
    exact .inr ⟨d, begun⟩
  | writing k place created =>
    obtain ⟨d, rfl, ⟨g, file⟩, begun⟩ := begun_of_create place created
    obtain ⟨base, removals, node⟩ := extend_file ((Snapshots.encode s).take k) file
    obtain ⟨_, _, before⟩ := begun.node?
    refine .inr ⟨d, begun.directory, begun.temporary, base.trans begun.base,
      removals.trans begun.removals, g, (Snapshots.encode s).take k, fun q => ?_⟩
    rw [node, List.nil_append]
    split
    · rfl
    · next other => rw [before, if_neg other]

/-- What storing comes to, step by step. -/
theorem store_steps (dir : Path) (n : Nat) (bs : Bytes) (t : FileTree) :
    (∃ f u, store dir n bs t = (some f, u) ∧ (u = t ∨ ∃ p v,
      t.entry dir (temporaryName n) = .ok p ∧ t.create p = .ok v ∧ u = v.extend p bs)) ∨
    ∃ p q v t', store dir n bs t = (none, t') ∧ t.entry dir (temporaryName n) = .ok p ∧
      t.entry dir (fileName n) = .ok q ∧ t.create p = .ok v ∧
      (v.extend p bs).rename p q = .ok t' := by
  rw [store]
  cases place : t.entry dir (temporaryName n) with
  | error f => exact .inl ⟨f, t, rfl, .inl rfl⟩
  | ok p =>
    cases target : t.entry dir (fileName n) with
    | error f => exact .inl ⟨f, t, rfl, .inl rfl⟩
    | ok q =>
      cases created : t.create p with
      | error f =>
        refine .inl ⟨f, t, ?_, .inl rfl⟩
        simp [steps, FileAction.runAll, FileAction.run, created]
      | ok v =>
        cases renamed : (v.extend p bs).rename p q with
        | error f =>
          refine .inl ⟨f, v.extend p bs, ?_, .inr ⟨p, v, rfl, created, rfl⟩⟩
          simp [steps, FileAction.runAll, FileAction.run, created, renamed]
        | ok t' =>
          refine .inr ⟨p, q, v, t', ?_, rfl, rfl, created, renamed⟩
          simp [steps, FileAction.runAll, FileAction.run, created, renamed]

theorem Pending.complete {p : Place}
    (place : (a.made t).entry a.dir (temporaryName (nextTimestamp now a.last)) = .ok p)
    (created : (a.made t).create p = .ok u) :
    Pending a now s t (u.extend p (Snapshots.encode s)) := by
  have h := Pending.writing (s := s) (Snapshots.encode s).length place created
  rwa [List.take_length] at h

/-- A write that fails stops at such a point, and one that succeeds renames the file from there. -/
theorem write_cases (a : Archive) (now : Nat) (s : Store) (t : FileTree) :
    (∃ e u, a.write now s t = (.error e, u) ∧ Pending a now s t u) ∨
    ∃ r u p q t', a.write now s t = (.ok r, t') ∧ Pending a now s t u ∧
      (a.made t).entry a.dir (temporaryName (nextTimestamp now a.last)) = .ok p ∧
      (a.made t).entry a.dir (fileName (nextTimestamp now a.last)) = .ok q ∧
      u.rename p q = .ok t' := by
  have making := pending_made a now s t
  rw [write]
  cases hm : t.makeDirectories a.dir with
  | mk r v =>
    have hv : a.made t = v := by rw [made, hm]
    rw [hv] at making
    cases r with
    | error f => exact .inl ⟨_, v, rfl, making⟩
    | ok d =>
      dsimp only
      rcases store_steps a.dir (nextTimestamp now a.last) (Snapshots.encode s) v with
        ⟨f, u, stored, rfl | ⟨p, w, place, created, rfl⟩⟩ |
        ⟨p, q, w, t', stored, place, target, created, renamed⟩
      · rw [stored]
        exact .inl ⟨_, _, rfl, making⟩
      · rw [stored]
        exact .inl ⟨_, _, rfl, .complete (hv ▸ place) (hv ▸ created)⟩
      · rw [stored, hv]
        exact .inr ⟨_, _, p, q, t', rfl, .complete (hv ▸ place) (hv ▸ created), place, target,
          renamed⟩

end Pending

/-- Archives of `dir`, open or opened now, give the same in `u` as in `t`. -/
structure SameReading (dir : Path) (t u : FileTree) : Prop where
  attach : attach u dir = attach t dir
  paths : ∀ a : Archive, a.dir = dir → a.paths u = a.paths t
  newest : ∀ a : Archive, a.dir = dir → a.newest u = a.newest t
  restore : ∀ a : Archive, a.dir = dir → a.restore u = a.restore t
  listed : ∀ m bs, Listed u dir m bs ↔ Listed t dir m bs

/-- There is something to read where a path would lead: a file, or a directory of snapshots. -/
def Occupied (t : FileTree) (dir : Path) : Prop :=
  t.isFile (t.placeOf dir) = true ∨ ∃ m, isSnapshot t dir (t.placeOf dir) m = true

theorem Occupied.node {t : FileTree} {dir : Path} (h : Occupied t dir) :
    t.isFile (t.placeOf dir) = true ∨ t.node? (t.placeOf dir) = some .directory := by
  rcases h with file | ⟨m, hm⟩
  · exact .inl file
  · obtain ⟨-, ⟨g, bs, hn⟩, -⟩ := isSnapshot_iff.1 hm
    exact .inr (node?_of_child hn)

/-- A path that goes up again led nowhere, and now leads to what there was to read. -/
structure Surfaced (dir : Path) (t u : FileTree) : Prop where
  dots : ".." ∈ dir.names
  nowhere : ∃ f, t.lookup dir = .error f
  place : u.lookup dir = .ok (t.placeOf dir)
  occupied : Occupied t dir

section Reading
variable {dir : Path} {t u : FileTree} {d : Place} {f : Fault}

theorem Spared.lookup_eq (h : Spared dir t u) (k : Keeps t u) (hl : t.lookup dir = .ok d) :
    u.lookup dir = .ok d := by
  obtain ⟨named, hf, slash⟩ := lookup_eq_ok_iff.1 hl
  obtain ⟨fits, walk⟩ := follow_eq_ok_iff.1 hf
  have there : (u.node? d).isSome := by
    rcases file_or_directory_of_lookup hl with file | directory
    · obtain rfl := eq_placeOf_of_lookup hl
      obtain ⟨g, bs, hn⟩ := isFile_iff.1 (h.isFile_eq.trans file)
      simp [hn]
    · simp [k.directory d directory]
  refine lookup_eq_ok_iff.2 ⟨named, follow_eq_ok_iff.2 ⟨fits, ?_⟩, fun e => k.directory d (slash e)⟩
  rw [origin_of_base k.base]
  exact k.walk_of_isSome walk there

/-- Only a path with double dots can have led nowhere though there was something to read. -/
theorem Spared.surfaced (h : Spared dir t u) (hl : t.lookup dir = .error f)
    (hl' : u.lookup dir = .ok d) (occupied : Occupied t dir) : Surfaced dir t u := by
  obtain rfl : d = t.placeOf dir := (eq_placeOf_of_lookup hl').trans h.placeOf_eq
  refine ⟨Classical.byContradiction fun straight => ?_, ⟨f, hl⟩, hl', occupied⟩
  obtain ⟨named, hf, slash⟩ := lookup_eq_ok_iff.1 hl'
  obtain ⟨fits, walk⟩ := follow_eq_ok_iff.1 hf
  rw [origin_of_base h.snapshots.base] at walk
  have directory (hu : u.node? (t.placeOf dir) = some .directory) :
      t.node? (t.placeOf dir) = some .directory := by
    refine occupied.node.resolve_left fun file => ?_
    obtain ⟨g, bs, hn⟩ := isFile_iff.1 (h.isFile_eq.trans file)
    simp [hn] at hu
  have there : (t.node? (t.placeOf dir)).isSome := by
    rcases occupied.node with file | directory
    · obtain ⟨g, bs, hn⟩ := isFile_iff.1 file
      simp [hn]
    · simp [directory]
  rw [lookup_eq_ok_iff.2 ⟨named, follow_eq_ok_iff.2
    ⟨fits, walk_of_straight straight walk there directory⟩, fun e => directory (slash e)⟩] at hl
  simp at hl

theorem Spared.namesIn_eq (h : Spared dir t u) (k : Keeps t u) (deep : ¬ Surfaced dir t u) :
    namesIn u dir = namesIn t dir := by
  cases hl : t.lookup dir with
  | ok d =>
    have hl' := h.lookup_eq k hl
    obtain rfl := eq_placeOf_of_lookup hl
    rcases file_or_directory_of_lookup hl with file | directory
    · rw [namesIn_of_file hl file, namesIn_of_file hl' (h.isFile_eq.trans file)]
    · obtain ⟨ns, hns, hm, -⟩ := exists_namesIn hl directory
      obtain ⟨ms, hms, hm', -⟩ := exists_namesIn hl' (k.directory _ directory)
      rw [hns]
      refine namesIn_unique hms (namesIn_cases hns).1 (nodup_of_namesIn hns) fun m => ?_
      rw [hm, hm', h.snapshots.isSnapshot_iff]
  | error f =>
    rw [namesIn_of_absent hl]
    cases hl' : u.lookup dir with
    | error f => exact namesIn_of_absent hl'
    | ok d =>
      have vacant : ¬ Occupied t dir := fun o => deep (h.surfaced hl hl' o)
      rw [Occupied, not_or] at vacant
      obtain rfl : d = t.placeOf dir := (eq_placeOf_of_lookup hl').trans h.placeOf_eq
      rcases file_or_directory_of_lookup hl' with file | directory
      · exact absurd (h.isFile_eq.symm.trans file) vacant.1
      · obtain ⟨ms, hms, hm, -⟩ := exists_namesIn hl' directory
        have none : ms = [] := List.eq_nil_iff_forall_not_mem.2 fun m hmem =>
          vacant.2 ⟨m, h.snapshots.isSnapshot_iff.1 ((hm m).1 hmem)⟩
        rw [hms, none]

theorem Spared.found (h : Spared dir t u) (k : Keeps t u) {ns : List String} {m : String}
    (hns : namesIn t dir = .ok ns) (hm : m ∈ ns) :
    ∃ d, t.lookup dir = .ok d ∧ u.lookup dir = .ok d ∧ u.read (d ++ [m]) = t.read (d ++ [m]) := by
  obtain ⟨-, ⟨f, -, rfl⟩ | ⟨d, hl, -, hmem⟩⟩ := namesIn_cases hns
  · simp at hm
  · obtain rfl := eq_placeOf_of_lookup hl
    obtain ⟨-, ⟨g, bs, hn⟩, ht⟩ := isSnapshot_iff.1 ((hmem m).1 hm)
    have hu := (h.snapshots.file_iff m ht g bs).2 hn
    refine ⟨_, hl, h.lookup_eq k hl, ?_⟩
    rw [FileTree.read, FileTree.read, hn, hu]

theorem Spared.listed (h : Spared dir t u) (k : Keeps t u) {m : String} {bs : Bytes}
    (listed : Listed t dir m bs) : Listed u dir m bs := by
  obtain ⟨ns, d, hns, hm, hl, hr⟩ := listed
  obtain ⟨e, he, he', read⟩ := h.found k hns hm
  rw [hl] at he
  cases he
  have deep : ¬ Surfaced dir t u := fun surfaced => by
    obtain ⟨f, hf⟩ := surfaced.nowhere
    rw [hl] at hf
    simp at hf
  exact ⟨ns, d, (h.namesIn_eq k deep).trans hns, hm, he', read.trans hr⟩

theorem Spared.sameReading (h : Spared dir t u) (k : Keeps t u) (deep : ¬ Surfaced dir t u) :
    SameReading dir t u := by
  have same := h.namesIn_eq k deep
  refine ⟨?_, ?_, ?_, ?_, fun m bs => ⟨?_, ?_⟩⟩
  · rw [attach, attach, same]
  · rintro a rfl
    rw [paths, paths, names, names, same]
  · rintro a rfl
    rw [newest, newest, names, names, same]
  · rintro a rfl
    rw [restore, restore, names, names, same]
    cases hns : namesIn t a.dir with
    | error e => rfl
    | ok ns =>
      dsimp only
      cases hlast : ns.getLast? with
      | none => rfl
      | some m =>
        obtain ⟨d, hl, hl', read⟩ := h.found k hns (List.mem_of_getLast? hlast)
        dsimp only
        rw [hl, hl']
        dsimp only [Except.bind]
        rw [read]
  · rintro ⟨ns, d, hns, hm, hl, hr⟩
    rw [same] at hns
    obtain ⟨e, he, he', read⟩ := h.found k hns hm
    rw [hl] at he'
    cases he'
    exact ⟨ns, d, hns, hm, he, read ▸ hr⟩
  · exact h.listed k

theorem SameReading.not_surfaced (h : Spared dir t u) (same : SameReading dir t u) :
    ¬ Surfaced dir t u := by
  rintro ⟨-, ⟨f, hl⟩, hl', occupied⟩
  have nothing : namesIn u dir = .ok [] := by
    have paths := same.paths ⟨dir, 0⟩ rfl
    rw [Archive.paths, Archive.paths, Archive.names, Archive.names, namesIn_of_absent hl] at paths
    cases hns : namesIn u dir with
    | error e => simp [hns, Except.map] at paths
    | ok ns => simpa [hns, Except.map] using paths
  rcases occupied with file | ⟨m, hm⟩
  · rw [namesIn_of_file hl' (h.isFile_eq.trans file)] at nothing
    simp at nothing
  · have hm' := h.snapshots.isSnapshot_iff.2 hm
    obtain ⟨-, ⟨g, bs, hn⟩, -⟩ := isSnapshot_iff.1 hm'
    obtain ⟨ns, hns, hmem, -⟩ := exists_namesIn hl' (node?_of_child hn)
    rw [nothing] at hns
    cases hns
    simpa using (hmem m).2 hm'

end Reading

theorem database_tick_of_write_error {δ : Type} {w : Worker} {now : Nat} {e : Failure}
    {u : FileTree} (h : w.database.archive.write now w.database.store w.files = (.error e, u)) :
    (w.tick now : Worker × List (Output δ)).1.database = w.database := by
  rw [Worker.tick, Database.tick]
  split
  · next saved =>
    split at saved
    · cases saved
      rfl
    · simp [h] at saved
  · rfl

/-- Until a snapshot has its name, and wherever writing it fails, archives of the directory give what
they gave before, unless something surfaced; and what any snapshot holds is the same even then. A
write either fails at such a point or goes on from one by renaming the file, and a database that
could not save still has the archive it had. -/
theorem unpublished_unread (a : Archive) (now : Nat) (s : Store) (t : FileTree) :
    (∀ u, Pending a now s t u →
      (SameReading a.dir t u ↔ ¬ Surfaced a.dir t u) ∧
      ∀ m bs, (Stands u a.dir m bs ↔ Stands t a.dir m bs) ∧
        (Listed t a.dir m bs → Listed u a.dir m bs)) ∧
    ((∃ e u, a.write now s t = (.error e, u) ∧ Pending a now s t u) ∨
      ∃ r u p q t', a.write now s t = (.ok r, t') ∧ Pending a now s t u ∧
        (a.made t).entry a.dir (temporaryName (nextTimestamp now a.last)) = .ok p ∧
        (a.made t).entry a.dir (fileName (nextTimestamp now a.last)) = .ok q ∧
        u.rename p q = .ok t') ∧
    ∀ (δ : Type) (w : Worker) e u, w.database.archive = a → w.database.store = s → w.files = t →
      a.write now s t = (.error e, u) →
        (w.tick now : Worker × List (Output δ)).1.database = w.database := by
  refine ⟨fun u pending => ?_, write_cases a now s t, ?_⟩
  · have spared := pending.unfinished.spared
    have keeps := pending.unfinished.keeps
    refine ⟨⟨fun same => same.not_surfaced spared, spared.sameReading keeps⟩, fun m bs => ?_⟩
    have back : SameSnapshots (u.placeOf a.dir) u t := spared.placeOf_eq ▸ spared.snapshots.symm
    exact ⟨⟨back.stands, spared.snapshots.stands⟩, spared.listed keeps⟩
  · rintro δ w e u rfl rfl rfl failed
    exact database_tick_of_write_error failed

/-- Three bytes of a new snapshot beside an old one. -/
theorem unread_after_three_bytes :
    let t := holding "1600000000000-snapshot.json" (Utf8.encode "[[\"k\",\"old\"]]")
    let a : Archive := ⟨⟨"/s"⟩, 1600000000000⟩
    let s : Store := .ofList [("k", "new")]
    ∃ u, Pending a 1700000000000 s t u ∧
      u.read ["s", "1700000000000-snapshot.json.tmp"] = .ok (Utf8.encode "[[\"") ∧
      a.paths u = .ok [⟨"/s/1600000000000-snapshot.json"⟩] ∧
      a.restore u = .ok (.ofList [("k", "old")]) := by
  intro t a s
  have directory : (a.made t).node? ["s"] = some .directory := by decide +kernel
  have place : (a.made t).entry a.dir (temporaryName (nextTimestamp 1700000000000 a.last)) =
      .ok (["s"] ++ ["1700000000000-snapshot.json.tmp"]) := by decide +kernel
  obtain ⟨g, v, created, -, -, node⟩ := create_child (n := "1700000000000-snapshot.json.tmp")
    directory (by decide +kernel)
  have file := (node _).trans (if_pos rfl)
  obtain ⟨-, -, node'⟩ := extend_file ((Snapshots.encode s).take 3) file
  have pending : Pending a 1700000000000 s t _ := .writing 3 place created
  have deep : ¬ Surfaced a.dir t
      (v.extend (["s"] ++ ["1700000000000-snapshot.json.tmp"]) ((Snapshots.encode s).take 3)) := by
    rintro ⟨-, ⟨f, nowhere⟩, -, -⟩
    rw [show t.lookup a.dir = .ok ["s"] by decide +kernel] at nowhere
    simp at nowhere
  have same := ((unpublished_unread a 1700000000000 s t).1 _ pending).1.2 deep
  refine ⟨_, pending, read_eq_ok_iff.2 ⟨g, (node' _).trans ((if_pos rfl).trans ?_)⟩, ?_, ?_⟩
  · rw [show [] ++ (Snapshots.encode s).take 3 = Utf8.encode "[[\"" by decide +kernel]
  · rw [same.paths a rfl]
    decide +kernel
  · rw [same.restore a rfl]
    decide +kernel

/-- A write that fails makes the directory that was missing in front of double dots, and the archive
shows a snapshot that it did not show before. -/
theorem surfaced_by_failed_write :
    let t := (holding "5000000000000-snapshot.json" (Utf8.encode "[[\"k\",\"old\"]]")).insert
      ["s", "5000000000001-snapshot.json.tmp"] .directory
    let a : Archive := ⟨⟨"/x/../s"⟩, 5000000000000⟩
    let s : Store := .ofList [("k", "new")]
    let u := (a.write 1700000000000 s t).2
    (a.write 1700000000000 s t).1 = .error (.snapshot
        "cannot write /x/../s/5000000000001-snapshot.json: Is a directory (os error 21)") ∧
      a.paths t = .ok [] ∧ a.restore t = .ok ∅ ∧
      a.paths u = .ok [⟨"/x/../s/5000000000000-snapshot.json"⟩] ∧
      a.restore u = .ok (.ofList [("k", "old")]) := by
  decide +kernel

end Archive
end Keyline
