import Keyline.Proofs.Snapshots.Reach

/-!
# Snapshots last

Archives are opened over one directory, one after another, and write snapshots by clocks that may
stand still or step back. As long as the archive is in sight and names have thirteen digits, what
was listed once is listed for ever with what it held, and a write puts one new name behind all
others. Out of sight this fails: the first write makes the directory that was missing on the way,
and then older snapshots come up, with timestamps that the archive does not know of.
-/
namespace Keyline

open FileTree Snapshots

namespace Archive

/-- The list shows a snapshot, and so it reads. -/
def Listed (t : FileTree) (dir : Path) (m : String) (bs : Bytes) : Prop :=
  ∃ ns d, namesIn t dir = .ok ns ∧ m ∈ ns ∧ t.lookup dir = .ok d ∧ t.read (d ++ [m]) = .ok bs

/-- There is a snapshot, whether or not the path leads to it. -/
def Stands (t : FileTree) (dir : Path) (m : String) (bs : Bytes) : Prop :=
  isSnapshot t dir (t.placeOf dir) m = true ∧ t.read (t.placeOf dir ++ [m]) = .ok bs

section Stands
variable {dir : Path} {t t' : FileTree} {m : String} {bs : Bytes}

theorem InSight.listed_iff (h : InSight t dir) (named : dir.text ≠ "") :
    Listed t dir m bs ↔ Stands t dir m bs := by
  constructor
  · rintro ⟨ns, d, hns, hm, hl, hr⟩
    obtain rfl := eq_placeOf_of_lookup hl
    exact ⟨(h.mem_iff named hns m).1 hm, hr⟩
  · rintro ⟨hm, hr⟩
    have hd := h m hm
    have hl := lookup_of_directory named hd
    obtain ⟨ns, hns, hmem, -⟩ := exists_namesIn hl (node?_of_directory hd)
    exact ⟨ns, _, hns, (hmem m).2 hm, hl, hr⟩

theorem Listed.named (h : Listed t dir m bs) : dir.text ≠ "" := by
  obtain ⟨_, _, -, -, hl, -⟩ := h
  exact text_ne_of_lookup hl

theorem SameSnapshots.stands (h : SameSnapshots (t.placeOf dir) t t') (s : Stands t dir m bs) :
    Stands t' dir m bs := by
  obtain ⟨hm, hr⟩ := s
  obtain ⟨g, hg⟩ := read_eq_ok_iff.1 hr
  rw [Stands, placeOf_of_base h.base]
  refine ⟨h.isSnapshot_iff.2 hm, read_eq_ok_iff.2 ⟨g, ?_⟩⟩
  exact (h.file_iff m (Archive.isSnapshot_iff.1 hm).2.2 g bs).2 hg

theorem InSight.even (h : InSight t dir) (named : dir.text ≠ "")
    (listed : ∀ ns, namesIn t dir = .ok ns → ∀ ds, nameOf ds ∈ ns → ds.length = 13) :
    Even t dir (t.placeOf dir) := by
  intro ds hds
  have hd := h _ hds
  obtain ⟨ns, hns, hmem, -⟩ := exists_namesIn (lookup_of_directory named hd)
    (node?_of_directory hd)
  exact listed ns hns ds ((hmem _).2 hds)

end Stands
end Archive

/-- A directory of snapshots with the archive that is open over it, if one is. -/
structure Shelf where
  archive : Option Archive
  files : FileTree

namespace Shelf

inductive Event
  | opened
  | refused (e : Failure)
  | written (timestamp : Nat) (s : Store)
  | failed (e : Failure)
  /-- Others changed files. -/
  | others

/-- One event at the directory of `dir`; an archive that is opened takes the place of the last. -/
inductive Step (dir : Path) : Shelf → Event → Shelf → Prop
  | opened (before : Option Archive) (t : FileTree) (a : Archive)
      (attach : Archive.attach t dir = .ok a) : Step dir ⟨before, t⟩ .opened ⟨some a, t⟩
  | refused (before : Option Archive) (t : FileTree) (e : Failure)
      (attach : Archive.attach t dir = .error e) : Step dir ⟨before, t⟩ (.refused e) ⟨none, t⟩
  | written (a a' : Archive) (t t' : FileTree) (now : Nat) (s : Store) (path : Path)
      (write : a.write now s t = (.ok (path, a'), t')) :
    Step dir ⟨some a, t⟩ (.written (nextTimestamp now a.last) s) ⟨some a', t'⟩
  | failed (a : Archive) (t t' : FileTree) (now : Nat) (s : Store) (e : Failure)
      (write : a.write now s t = (.error e, t')) : Step dir ⟨some a, t⟩ (.failed e) ⟨some a, t'⟩
  | others (archive : Option Archive) (t t' : FileTree) (changed : Archive.Spared dir t t') :
    Step dir ⟨archive, t⟩ .others ⟨archive, t'⟩

inductive Run (dir : Path) : Shelf → List Event → Shelf → Prop
  | start (v : Shelf) : Run dir v [] v
  | step {u v w : Shelf} {es : List Event} {e : Event} (run : Run dir u es v)
      (step : Step dir v e w) : Run dir u (es ++ [e]) w

/-- Timestamps of snapshots that are written have thirteen digits. -/
def Timely : Event → Prop
  | .written n _ => 10 ^ 12 ≤ n ∧ n < 10 ^ 13
  | _ => True

/-- What holds at every moment: an open archive knows of no newer snapshot than there is. -/
structure Kept (dir : Path) (v : Shelf) : Prop where
  sight : Archive.InSight v.files dir
  even : Archive.Even v.files dir (v.files.placeOf dir)
  archive : ∀ a, v.archive = some a →
    a.dir = dir ∧ Archive.UpTo a.last v.files dir (v.files.placeOf dir)

section Step
variable {dir : Path} {v w : Shelf} {e : Event}

theorem Kept.spared {archive : Option Archive} {t t' : FileTree} (k : Kept dir ⟨archive, t⟩)
    (h : Archive.Spared dir t t') : Kept dir ⟨archive, t'⟩ := by
  refine ⟨h.inSight k.sight, ?_, fun a ha => ⟨(k.archive a ha).1, ?_⟩⟩
  · dsimp only
    rw [h.placeOf_eq]
    exact h.snapshots.even k.even
  · dsimp only
    rw [h.placeOf_eq]
    exact h.snapshots.upTo (k.archive a ha).2

/-- A snapshot is written where its path leads, with a later timestamp than all that are there. -/
theorem Kept.written {a a' : Archive} {t t' : FileTree} {now : Nat} {s : Store} {path : Path}
    (k : Kept dir ⟨some a, t⟩) (write : a.write now s t = (.ok (path, a'), t')) :
    a' = ⟨dir, nextTimestamp now a.last⟩ ∧
      Archive.Written dir (nextTimestamp now a.last) (encode s) (t.placeOf dir) (a.made t) t' ∧
      ∀ ds, Archive.isSnapshot t dir (t.placeOf dir) (nameOf ds) = true →
        number ds < nextTimestamp now a.last := by
  obtain ⟨rfl, up⟩ := k.archive a rfl
  obtain ⟨-, rfl, d, written⟩ := Archive.write_ok write
  obtain rfl := Archive.place_of_made written.directory
  exact ⟨rfl, written, fun ds hds => Nat.lt_of_le_of_lt (up ds hds) (lt_nextTimestamp _ _)⟩

theorem kept_of_step (named : dir.text ≠ "") (step : Step dir v e w) (timely : Timely e)
    (k : Kept dir v) : Kept dir w := by
  cases step with
  | opened before t a attach =>
    obtain ⟨ns, hns, -⟩ := Archive.attach_eq_ok_iff.1 attach
    refine ⟨k.sight, k.even, ?_⟩
    rintro _ ⟨⟩
    exact ⟨Archive.dir_of_attach attach,
      Archive.upTo_of_attach attach hns (k.sight.mem_iff named hns) k.even⟩
  | refused before t e attach => exact ⟨k.sight, k.even, nofun⟩
  | written a a' t t' now s path write =>
    obtain ⟨rfl, written, later⟩ := k.written write
    have hd := written.keeps.directory_eq written.directory
    have made := fun m => Archive.isSnapshot_made a t dir (t.placeOf dir) m
    obtain ⟨-, even, up⟩ := Archive.holds_of_written written timely.1 timely.2
      (fun ds hds => k.even ds (made _ ▸ hds)) fun ds hds => later ds (made _ ▸ hds)
    rw [eq_placeOf_of_directory hd] at even up
    refine ⟨Archive.inSight_of_directory hd, even, ?_⟩
    rintro _ ⟨⟩
    exact ⟨rfl, up⟩
  | failed a t t' now s e write =>
    obtain ⟨rfl, -⟩ := k.archive a rfl
    exact k.spared (Archive.spared_of_write_error write)
  | others archive t t' changed => exact k.spared changed

theorem stands_of_step (step : Step dir v e w) (timely : Timely e) (k : Kept dir v) {m : String}
    {bs : Bytes} (h : Archive.Stands v.files dir m bs) : Archive.Stands w.files dir m bs := by
  cases step with
  | opened before t a attach => exact h
  | refused before t e attach => exact h
  | written a a' t t' now s path write =>
    obtain ⟨-, written, later⟩ := k.written write
    have made : Archive.SameSnapshots (t.placeOf dir) t (a.made t) :=
      (Archive.grows_made a t).sameFiles
    have hplace := (placeOf_of_base made.base dir).symm
    obtain ⟨hm, hr⟩ := made.stands h
    rw [← hplace] at hm hr
    have other : m ≠ fileName (nextTimestamp now a.last) := by
      rintro rfl
      rw [fileName_eq_nameOf] at hm
      have := later _ (made.isSnapshot_iff.1 hm)
      rw [number_toDigits] at this
      exact Nat.lt_irrefl _ this
    have bound : nextTimestamp now a.last < 2 ^ 64 := Nat.lt_trans timely.2 (by decide)
    rw [Archive.Stands, placeOf_of_base written.base, ← hplace]
    refine ⟨(written.isSnapshot_iff bound).2 (.inr hm), ?_⟩
    unfold FileTree.read
    rw [written.other other (Archive.isSnapshot_iff.1 hm).2.2]
    exact hr
  | failed a t t' now s e write =>
    obtain ⟨rfl, -⟩ := k.archive a rfl
    exact (Archive.spared_of_write_error write).snapshots.stands h
  | others archive t t' changed => exact changed.snapshots.stands h

/-- A write puts one new name behind those that were listed. -/
theorem listed_of_written (named : dir.text ≠ "") {n : Nat} {s : Store}
    (step : Step dir v (.written n s) w) (timely : Timely (.written n s)) (k : Kept dir v) :
    ∃ ns, Archive.namesIn v.files dir = .ok ns ∧ fileName n ∉ ns ∧
      Archive.namesIn w.files dir = .ok (ns ++ [fileName n]) ∧
      Archive.Listed w.files dir (fileName n) (encode s) := by
  have k' := kept_of_step named step timely k
  cases step with
  | written a a' t t' now s path write =>
    obtain ⟨-, written, later⟩ := k.written write
    have bound : nextTimestamp now a.last < 2 ^ 64 := Nat.lt_trans timely.2 (by decide)
    have free : Archive.Free t dir := fun _ => by
      rw [← (Archive.grows_made a t).isFile_eq]
      unfold FileTree.isFile
      rw [node?_of_directory written.directory]
    obtain ⟨ns, hns⟩ := free.exists_names
    have hmem := k.sight.mem_iff named hns
    have hd := written.keeps.directory_eq written.directory
    obtain ⟨ns', hns', hmem', -⟩ := Archive.exists_namesIn (Archive.lookup_of_directory named hd)
      (node?_of_directory hd)
    have before : ∀ m ∈ ns, Text.Before m (fileName (nextTimestamp now a.last)) := by
      intro m hm
      have hm' := (hmem m).1 hm
      obtain ⟨ds, rfl, digits, -⟩ := Archive.exists_digits hm'
      rw [fileName_eq_nameOf,
        before_nameOf_iff_of_length digits (fun _ hc => isDigit_toDigits hc), number_toDigits]
      · exact later ds hm'
      · rw [Archive.length_toDigits_of_thirteen timely.1 timely.2]
        exact k.even ds hm'
    have fresh : fileName (nextTimestamp now a.last) ∉ ns :=
      fun h => Text.Before.irrefl _ (before _ h)
    refine ⟨ns, hns, fresh, ?_, (k'.sight.listed_iff named).2 ?_⟩
    · refine Archive.namesIn_concat hns hns' (fun m => ?_) before
      rw [hmem', written.isSnapshot_iff bound, Archive.isSnapshot_made, hmem]
    · obtain ⟨g, hg⟩ := written.file
      rw [Archive.Stands, ← eq_placeOf_of_directory hd]
      exact ⟨(written.isSnapshot_iff bound).2 (.inl rfl), read_eq_ok_iff.2 ⟨g, hg⟩⟩

end Step

section Run
variable {dir : Path} {u v w : Shelf} {es fs : List Event}

theorem kept_of_run (named : dir.text ≠ "") (run : Run dir u es v) (timely : ∀ e ∈ es, Timely e)
    (k : Kept dir u) : Kept dir v := by
  induction run with
  | start => exact k
  | step run step ih =>
    obtain ⟨earlier, last⟩ := List.forall_mem_append.1 timely
    exact kept_of_step named step (List.forall_mem_singleton.1 last) (ih earlier)

theorem stands_of_run (named : dir.text ≠ "") (run : Run dir u es v)
    (timely : ∀ e ∈ es, Timely e) (k : Kept dir u) {m : String} {bs : Bytes}
    (h : Archive.Stands u.files dir m bs) : Archive.Stands v.files dir m bs := by
  induction run with
  | start => exact h
  | step run step ih =>
    obtain ⟨earlier, last⟩ := List.forall_mem_append.1 timely
    have kept := kept_of_run named run earlier k
    exact stands_of_step step (List.forall_mem_singleton.1 last) kept (ih earlier)

/-- What is listed once is listed for ever, with what it holds, and a write puts one new name behind
all others, if only the path leads to the snapshots there are at the start. An empty path lists
nothing. -/
theorem snapshots_last {t : FileTree} (sight : Archive.InSight t dir)
    (thirteen : ∀ ns, Archive.namesIn t dir = .ok ns → ∀ ds, nameOf ds ∈ ns → ds.length = 13)
    (run : Run dir ⟨none, t⟩ es v) (later : Run dir v fs w)
    (timely : ∀ e ∈ es ++ fs, Timely e) :
    (∀ m bs, Archive.Listed v.files dir m bs → Archive.Listed w.files dir m bs) ∧
    (dir.text ≠ "" → ∀ n s z, Step dir v (.written n s) z → Timely (.written n s) →
      ∃ ns, Archive.namesIn v.files dir = .ok ns ∧ fileName n ∉ ns ∧
        Archive.namesIn z.files dir = .ok (ns ++ [fileName n]) ∧
        Archive.Listed z.files dir (fileName n) (encode s)) := by
  obtain ⟨timely, timely'⟩ := List.forall_mem_append.1 timely
  have kept (named : dir.text ≠ "") : Kept dir v :=
    kept_of_run named run timely ⟨sight, sight.even named thirteen, nofun⟩
  constructor
  · intro m bs h
    have named := h.named
    have kept' := kept_of_run named later timely' (kept named)
    rw [kept'.sight.listed_iff named]
    exact stands_of_run named later timely' (kept named) (((kept named).sight.listed_iff named).1 h)
  · intro named n s z step timely
    exact listed_of_written named step timely (kept named)

/-- Two archives in turn; the clock of the second is behind. -/
theorem snapshots_last_by_clock_behind :
    let t := Archive.holding "1600000000000-snapshot.json" (Utf8.encode "[]")
    let dir : Path := ⟨"/s"⟩
    let s : Store := .ofList [("k", "v")]
    ∃ es v fs w, Archive.InSight t dir ∧
      (∀ ns, Archive.namesIn t dir = .ok ns → ∀ ds, nameOf ds ∈ ns → ds.length = 13) ∧
      Run dir ⟨none, t⟩ es v ∧ Run dir v fs w ∧ (∀ e ∈ es ++ fs, Timely e) ∧
      Archive.Listed v.files dir "1700000000000-snapshot.json" (encode s) ∧
      Archive.Listed w.files dir "1700000000000-snapshot.json" (encode s) := by
  intro t dir s
  have sight : Archive.InSight t dir :=
    Archive.inSight_of_directory (d := ["s"]) (by decide +kernel)
  have listed : Archive.namesIn t dir = .ok ["1600000000000-snapshot.json"] := by decide +kernel
  have thirteen : ∀ ns, Archive.namesIn t dir = .ok ns →
      ∀ ds, nameOf ds ∈ ns → ds.length = 13 := by
    intro ns hns ds hds
    rw [listed] at hns
    cases hns
    have h := congrArg String.length (List.mem_singleton.1 hds)
    rw [nameOf, String.length_ofList, List.length_append] at h
    exact Nat.add_right_cancel (m := 14) h
  let a₁ : Archive := ⟨dir, 1600000000000⟩
  let a₂ : Archive := ⟨dir, 1700000000000⟩
  let a₃ : Archive := ⟨dir, 1700000000001⟩
  let t₁ := t.insert ["s", "1700000000000-snapshot.json"] (.file 0 (encode s))
  let t₂ := t₁.insert ["s", "1700000000001-snapshot.json"] (.file 0 (encode ∅))
  have attach₁ : Archive.attach t dir = .ok a₁ := by decide +kernel
  have write₁ : a₁.write 1700000000000 s t =
      (.ok (⟨"/s/1700000000000-snapshot.json"⟩, a₂), t₁) := by decide +kernel
  have held₁ : t₁.list ["s"] =
      .ok ["1700000000000-snapshot.json", "1600000000000-snapshot.json"] := by decide +kernel
  have names₁ : Archive.namesIn t₁ dir =
      .ok ["1600000000000-snapshot.json", "1700000000000-snapshot.json"] :=
    Archive.namesIn_of_perm (by decide +kernel) held₁ (by decide +kernel) (by decide +kernel)
  have attach₂ : Archive.attach t₁ dir = .ok a₂ :=
    Archive.attach_eq_ok_iff.2 ⟨_, names₁, by decide +kernel⟩
  have write₂ : a₂.write 1650000000000 ∅ t₁ =
      (.ok (⟨"/s/1700000000001-snapshot.json"⟩, a₃), t₂) := by decide +kernel
  let es : List Event := [.opened, .written 1700000000000 s]
  let fs : List Event := [.opened, .written 1700000000001 ∅]
  have run : Run dir ⟨none, t⟩ es ⟨some a₂, t₁⟩ :=
    .step (.step (.start _) (.opened none t a₁ attach₁))
      (.written a₁ a₂ t t₁ 1700000000000 s _ write₁)
  have later : Run dir ⟨some a₂, t₁⟩ fs ⟨some a₃, t₂⟩ :=
    .step (.step (.start _) (.opened (some a₂) t₁ a₂ attach₂))
      (.written a₂ a₃ t₁ t₂ 1650000000000 ∅ _ write₂)
  have timely : ∀ e ∈ es ++ fs, Timely e := by simp [es, fs, Timely]
  have first : Archive.Listed t₁ dir "1700000000000-snapshot.json" (encode s) :=
    ⟨_, ["s"], names₁, by decide, by decide +kernel, by decide +kernel⟩
  exact ⟨es, _, fs, _, sight, thirteen, run, later, timely, first,
    (snapshots_last sight thirteen run later timely).1 _ _ first⟩

/-- The path leads through a directory that the first write makes. An older snapshot comes up with
the new one, and where the clock stands still the second write takes its place. -/
theorem not_lasting_out_of_sight :
    let t := Archive.holding "1700000000001-snapshot.json" (Utf8.encode "[[\"k\",\"old\"]]")
    let dir : Path := ⟨"/x/../s"⟩
    let s : Store := .ofList [("k", "new")]
    let e : Event := .written 1700000000000 s
    let f : Event := .written 1700000000001 s
    ∃ u v w, Run dir ⟨none, t⟩ [.opened] u ∧ Step dir u e v ∧ Step dir v f w ∧
      Timely e ∧ Timely f ∧ Archive.namesIn u.files dir = .ok [] ∧
      Archive.namesIn v.files dir =
        .ok ["1700000000000-snapshot.json", "1700000000001-snapshot.json"] ∧
      Archive.Listed v.files dir "1700000000001-snapshot.json"
        (Utf8.encode "[[\"k\",\"old\"]]") ∧
      ¬ Archive.Listed w.files dir "1700000000001-snapshot.json"
        (Utf8.encode "[[\"k\",\"old\"]]") := by
  intro t dir s e f
  let a₁ : Archive := ⟨dir, 0⟩
  let a₂ : Archive := ⟨dir, 1700000000000⟩
  let a₃ : Archive := ⟨dir, 1700000000001⟩
  let t₁ := (t.insert ["x"] .directory).insert ["s", "1700000000000-snapshot.json"]
    (.file 0 (encode s))
  let t₂ := t₁.insert ["s", "1700000000001-snapshot.json"] (.file 0 (encode s))
  have attach₁ : Archive.attach t dir = .ok a₁ := by decide +kernel
  have write₁ : a₁.write 1700000000000 s t =
      (.ok (⟨"/x/../s/1700000000000-snapshot.json"⟩, a₂), t₁) := by decide +kernel
  have write₂ : a₂.write 1700000000000 s t₁ =
      (.ok (⟨"/x/../s/1700000000001-snapshot.json"⟩, a₃), t₂) := by decide +kernel
  have held₁ : t₁.list ["s"] =
      .ok ["1700000000000-snapshot.json", "1700000000001-snapshot.json"] := by decide +kernel
  have names₁ : Archive.namesIn t₁ dir =
      .ok ["1700000000000-snapshot.json", "1700000000001-snapshot.json"] :=
    Archive.namesIn_of_perm (by decide +kernel) held₁ (by decide +kernel) (by decide +kernel)
  have read₂ : t₂.read (t₂.placeOf dir ++ ["1700000000001-snapshot.json"]) ≠
      .ok (Utf8.encode "[[\"k\",\"old\"]]") := by decide +kernel
  refine ⟨⟨some a₁, t⟩, ⟨some a₂, t₁⟩, ⟨some a₃, t₂⟩, .step (.start _) (.opened none t a₁ attach₁),
    .written a₁ a₂ t t₁ 1700000000000 s _ write₁, .written a₂ a₃ t₁ t₂ 1700000000000 s _ write₂,
    by simp [e, Timely], by simp [f, Timely], by decide +kernel, names₁,
    ⟨_, ["s"], names₁, by decide, by decide +kernel, by decide +kernel⟩, ?_⟩
  rintro ⟨ns, d, -, -, hl, hr⟩
  obtain rfl := eq_placeOf_of_lookup hl
  exact read₂ hr

end Run

end Shelf
end Keyline
