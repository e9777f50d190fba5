import Keyline.Proofs.Snapshots.Keeping

/-!
# Archives in sight

A path that leads nowhere yet lists nothing, also where snapshots stand at the place it would lead
to. An archive is in sight if that is not so: its path leads to its directory as soon as there is a
snapshot. Then the list holds all snapshots there are, and whatever leaves snapshots and path alone
leaves the archive in sight.
-/
namespace Keyline

namespace FileTree

theorem isSome_node?_of_lookup {t : FileTree} {p : Path} {d : Place} (h : t.lookup p = .ok d) :
    (t.node? d).isSome := by
  obtain ⟨h0, hfollow, -⟩ := lookup_eq_ok_iff.1 h
  obtain ⟨-, hw⟩ := follow_eq_ok_iff.1 hfollow
  cases hn : p.names with
  | nil =>
    rw [hn, origin, if_pos (Path.isAbsolute_of_names h0 hn)] at hw
    cases hw
    simp
  | cons n ns =>
    rw [hn, walk] at hw
    cases hs : t.step (t.origin p) n with
    | error f => simp [hs] at hw
    | ok q =>
      rw [hs] at hw
      exact isSome_node?_of_walk (isSome_node?_of_step hs) hw

theorem file_or_directory_of_lookup {t : FileTree} {p : Path} {d : Place}
    (h : t.lookup p = .ok d) : t.isFile d = true ∨ t.node? d = some .directory := by
  obtain ⟨n, hn⟩ := Option.isSome_iff_exists.1 (isSome_node?_of_lookup h)
  cases n with
  | directory => exact .inr hn
  | file g bs => exact .inl (isFile_iff.2 ⟨g, bs, hn⟩)

theorem directory_of_lookup {t : FileTree} {p : Path} {d : Place} (h : t.lookup p = .ok d)
    (hd : t.node? d = some .directory) : t.directory p = .ok d := by
  obtain ⟨-, hfollow, -⟩ := lookup_eq_ok_iff.1 h
  obtain ⟨hf, hw⟩ := follow_eq_ok_iff.1 hfollow
  exact directory_eq_ok_iff.2 ⟨hf, hw, hd⟩

end FileTree

namespace Archive

open FileTree Snapshots

/-- A path leads to its snapshots, if there are any. -/
def InSight (t : FileTree) (dir : Path) : Prop :=
  ∀ m, isSnapshot t dir (t.placeOf dir) m = true → t.directory dir = .ok (t.placeOf dir)

/-- The path of an archive leads to no file. -/
def Free (t : FileTree) (dir : Path) : Prop :=
  dir.fault? = none → t.isFile (t.placeOf dir) = false

/-- An archive is left alone: its snapshots stay as they are, and its path leads where it did. -/
structure Spared (dir : Path) (t t' : FileTree) : Prop where
  snapshots : SameSnapshots (t.placeOf dir) t t'
  isFile_eq : t'.isFile (t.placeOf dir) = t.isFile (t.placeOf dir)
  directory : ∀ d, t.directory dir = .ok d → t'.directory dir = .ok d

section Spared
variable {dir : Path} {t t' : FileTree}

theorem Spared.refl (dir : Path) (t : FileTree) : Spared dir t t :=
  ⟨⟨rfl, fun _ _ _ _ => Iff.rfl⟩, rfl, fun _ h => h⟩

theorem Spared.placeOf_eq (h : Spared dir t t') : t'.placeOf dir = t.placeOf dir :=
  placeOf_of_base h.snapshots.base dir

theorem Spared.inSight (h : Spared dir t t') (s : InSight t dir) : InSight t' dir := by
  intro m hm
  rw [h.placeOf_eq] at hm ⊢
  exact h.directory _ (s m (h.snapshots.isSnapshot_iff.1 hm))

theorem Spared.free (h : Spared dir t t') (s : Free t dir) : Free t' dir := by
  intro hf
  rw [h.placeOf_eq, h.isFile_eq]
  exact s hf

theorem spared_of_changesIn {e : Place} (keeps : Keeps t t') (changes : ChangesIn e t t')
    (hne : e ≠ t.placeOf dir) (hup : ∀ n, t.placeOf dir ≠ e ++ [n]) : Spared dir t t' := by
  refine ⟨changes.sameFiles hne, ?_, fun d => keeps.directory_eq⟩
  rw [Bool.eq_iff_iff, isFile_iff, isFile_iff]
  simp only [changes.file_iff _ hup]

/-- A write leaves the archive alone until the snapshot has its name. -/
theorem Unfinished.spared {a : Archive} {n : Nat} (h : a.Unfinished n t t') :
    Spared a.dir t t' := by
  refine ⟨h.sameSnapshots, ?_, fun d => h.keeps.directory_eq⟩
  rcases h with g | ⟨d, b⟩
  · exact g.isFile_eq _
  · obtain ⟨g, bs, hb⟩ := b.node?
    obtain rfl := place_of_made b.directory
    rw [← (grows_made a t).isFile_eq]
    unfold FileTree.isFile
    rw [hb, if_neg (by simp)]

theorem spared_of_write_error {a : Archive} {now : Nat} {s : Store} {e : Failure}
    (h : a.write now s t = (.error e, t')) : Spared a.dir t t' :=
  (unfinished_of_write_error h).spared

end Spared

section Listed
variable {t : FileTree} {dir : Path} {ns : List String}

theorem inSight_of_directory {d : Place} (h : t.directory dir = .ok d) : InSight t dir := by
  intro m _
  rw [← eq_placeOf_of_directory h]
  exact h

theorem free_of_directory {d : Place} (h : t.directory dir = .ok d) : Free t dir := by
  intro _
  unfold FileTree.isFile
  rw [← eq_placeOf_of_directory h, node?_of_directory h]

theorem InSight.mem_iff (h : InSight t dir) (hp : dir.text ≠ "") (hns : namesIn t dir = .ok ns)
    (m : String) : m ∈ ns ↔ isSnapshot t dir (t.placeOf dir) m = true := by
  obtain ⟨-, ⟨f, hl, rfl⟩ | ⟨d, hl, -, hm⟩⟩ := namesIn_cases hns
  · simp only [List.not_mem_nil, false_iff]
    intro hm
    rw [lookup_of_directory hp (h m hm)] at hl
    simp at hl
  · rw [hm, eq_placeOf_of_lookup hl]

/-- A list can be made wherever the path leads to no file. -/
theorem Free.exists_names (h : Free t dir) : ∃ ns, namesIn t dir = .ok ns := by
  cases hl : t.lookup dir with
  | error f => exact ⟨[], namesIn_of_absent hl⟩
  | ok d =>
    have hfault := (follow_eq_ok_iff.1 (lookup_eq_ok_iff.1 hl).2.1).1
    have hfile := h hfault
    rw [← eq_placeOf_of_lookup hl] at hfile
    rcases file_or_directory_of_lookup hl with file | hd
    · simp [hfile] at file
    · obtain ⟨ns, hns, -⟩ := exists_namesIn hl hd
      exact ⟨ns, hns⟩

/-- An archive in sight can be opened and restores the store it holds. -/
theorem exists_attach {s : Store} (sight : InSight t dir) (free : Free t dir)
    (hp : dir.text ≠ "") (holds : Holds t dir (t.placeOf dir) s) :
    ∃ a, attach t dir = .ok a ∧ a.restore t = .ok s := by
  obtain ⟨ns, hns⟩ := free.exists_names
  obtain ⟨a, ha⟩ : ∃ a, attach t dir = .ok a := ⟨_, attach_eq_ok_iff.2 ⟨ns, hns, rfl⟩⟩
  have hdir := dir_of_attach ha
  subst hdir
  exact ⟨a, ha, (restore_eq_ok_iff_holds hns (sight.mem_iff hp hns) rfl).2 holds⟩

theorem inSight_of_attach {p : Path} {d : Place} {n : String} {a : Archive} (hn : Path.IsName n)
    (h0 : n ≠ ".") (h1 : n ≠ "..") (h2 : n.utf8ByteSize ≤ nameLimit)
    (hw : t.walk (t.origin p) p.names = .ok d) (opened : attach t (p.child n) = .ok a) :
    InSight t (p.child n) ∧ Free t (p.child n) := by
  have hplace : t.placeOf (p.child n) = d ++ [n] := by
    rw [placeOf_child hn h0 h1, placeOf, ← eq_foldl_climb_of_walk hw]
  unfold InSight Free
  rw [hplace]
  constructor
  · intro m hm
    obtain ⟨hf, ⟨g, bs, hb⟩, ht⟩ := isSnapshot_iff.1 hm
    have hd := node?_of_child hb
    have hf' := Path.fault?_of_child (isName_of_timestamp? ht) hf
    exact directory_of_lookup (lookup_child hn h0 h1 h2 hw hf' (by simp [hd])) hd
  · intro hf
    rw [← Bool.not_eq_true, isFile_iff]
    rintro ⟨g, bs, hb⟩
    have hl := lookup_child hn h0 h1 h2 hw hf (by rw [hb]; rfl)
    rw [node?_of_attach opened hl] at hb
    simp at hb

end Listed

end Archive
end Keyline
