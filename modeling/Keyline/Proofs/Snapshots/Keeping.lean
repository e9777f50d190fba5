import Keyline.Proofs.Snapshots.Succession

/-!
# What an archive keeps

An archive holds a store if that is what the newest snapshot reads as; with nothing listed it holds
the empty store. Opening a database over it restores this store. Where all names have thirteen
digits, a snapshot of a later timestamp becomes the newest, and everything else leaves the archive
with the store it held.
-/
namespace Keyline.Archive

open FileTree Snapshots

abbrev SameSnapshots (d : Place) (t t' : FileTree) : Prop :=
  SameFiles (fun m => (timestamp? m).isSome) d t t'

theorem SameSnapshots.isSnapshot_iff {dir : Path} {d : Place} {t t' : FileTree}
    (h : SameSnapshots d t t') {m : String} :
    isSnapshot t' dir d m = true ↔ isSnapshot t dir d m = true := by
  rw [Archive.isSnapshot_iff, Archive.isSnapshot_iff]
  constructor
  · rintro ⟨hf, ⟨g, bs, hb⟩, hm⟩
    exact ⟨hf, ⟨g, bs, (h.file_iff m hm g bs).1 hb⟩, hm⟩
  · rintro ⟨hf, ⟨g, bs, hb⟩, hm⟩
    exact ⟨hf, ⟨g, bs, (h.file_iff m hm g bs).2 hb⟩, hm⟩

theorem Unfinished.sameSnapshots {a : Archive} {n : Nat} {t u : FileTree}
    (h : a.Unfinished n t u) : SameSnapshots (t.placeOf a.dir) t u := by
  rcases h with g | ⟨d, b⟩
  · exact g.sameFiles
  · obtain rfl := place_of_made b.directory
    have g : SameSnapshots (t.placeOf a.dir) t (a.made t) := (grows_made a t).sameFiles
    refine g.trans ⟨b.base, fun m hm g bs => ?_⟩
    rw [b.other hm]

theorem sameSnapshots_of_write_error {a : Archive} {now : Nat} {s : Store} {t t' : FileTree}
    {e : Failure} (h : a.write now s t = (.error e, t')) :
    SameSnapshots (t.placeOf a.dir) t t' := (unfinished_of_write_error h).sameSnapshots

/-- What the archive holds: the store of the newest snapshot, if there is one. -/
def Holds (t : FileTree) (dir : Path) (d : Place) (s : Store) : Prop :=
  ((∀ m, isSnapshot t dir d m = false) ∧ s = ∅) ∨
    ∃ m g bs, IsNewest t dir d m ∧ t.node? (d ++ [m]) = some (.file g bs) ∧ decode bs = .ok s

theorem SameSnapshots.isNewest_iff {dir : Path} {d : Place} {t t' : FileTree}
    (h : SameSnapshots d t t') {m : String} : IsNewest t' dir d m ↔ IsNewest t dir d m := by
  unfold IsNewest
  simp only [h.isSnapshot_iff]

theorem SameSnapshots.holds {dir : Path} {d : Place} {t t' : FileTree} {s : Store}
    (h : SameSnapshots d t t') (hs : Holds t dir d s) : Holds t' dir d s := by
  rcases hs with ⟨hn, rfl⟩ | ⟨m, g, bs, hm, hb, hd⟩
  · refine .inl ⟨fun m => ?_, rfl⟩
    rw [← Bool.not_eq_true, h.isSnapshot_iff, hn m]
    simp
  · have ht := (Archive.isSnapshot_iff.1 hm.1).2.2
    exact .inr ⟨m, g, bs, h.isNewest_iff.2 hm, (h.file_iff m ht g bs).2 hb, hd⟩

theorem mem_namesIn_iff {t : FileTree} {p : Path} {d : Place} {n : String} {ns : List String}
    (hn : Path.IsName n) (h0 : n ≠ ".") (h1 : n ≠ "..") (h2 : n.utf8ByteSize ≤ nameLimit)
    (hw : t.walk (t.origin p) p.names = .ok d) (hns : namesIn t (p.child n) = .ok ns)
    (m : String) : m ∈ ns ↔ isSnapshot t (p.child n) (d ++ [n]) m = true := by
  obtain ⟨-, ⟨f, hl, rfl⟩ | ⟨e, hl, hd, hm⟩⟩ := namesIn_cases hns
  · simp only [List.not_mem_nil, false_iff]
    intro hm
    obtain ⟨hf, ⟨g, bs, hb⟩, ht⟩ := isSnapshot_iff.1 hm
    have hd := node?_of_child hb
    have hf' := Path.fault?_of_child (isName_of_timestamp? ht) hf
    rw [lookup_child hn h0 h1 h2 hw hf' (by simp [hd])] at hl
    simp at hl
  · have he := eq_placeOf_of_lookup hl
    rw [placeOf_child hn h0 h1, placeOf, ← eq_foldl_climb_of_walk hw] at he
    rw [hm, he]

theorem restore_eq_ok_iff_holds {t : FileTree} {a : Archive} {d : Place} {ns : List String}
    (hns : namesIn t a.dir = .ok ns) (hm : ∀ m, m ∈ ns ↔ isSnapshot t a.dir d m = true)
    (hd : d = t.placeOf a.dir) {s : Store} : a.restore t = .ok s ↔ Holds t a.dir d s := by
  have hlast (m : String) : ns.getLast? = some m ↔ IsNewest t a.dir d m := by
    rw [getLast?_eq_some_iff_of_sorted (namesIn_cases hns).1, hm]
    simp only [hm, IsNewest]
  rw [restore_eq_ok_iff]
  constructor
  · rintro ⟨ns', hns', h⟩
    rw [hns] at hns'
    cases hns'
    rcases h with ⟨rfl, rfl⟩ | ⟨m, e, bs, hl, he, hr, hdec⟩
    · refine .inl ⟨fun m => ?_, rfl⟩
      rw [← Bool.not_eq_true, ← hm]
      simp
    · obtain ⟨g, hg⟩ := read_eq_ok_iff.1 hr
      rw [eq_placeOf_of_lookup he, ← hd] at hg
      exact .inr ⟨m, g, bs, (hlast m).1 hl, hg, hdec⟩
  · rintro (⟨hno, rfl⟩ | ⟨m, g, bs, hnew, hg, hdec⟩)
    · refine ⟨ns, hns, .inl ⟨?_, rfl⟩⟩
      rw [List.eq_nil_iff_forall_not_mem]
      intro m hmem
      rw [hm, hno] at hmem
      simp at hmem
    · have hmem := (hm m).2 hnew.1
      obtain ⟨-, ⟨f, -, rfl⟩ | ⟨e, he, -, -⟩⟩ := namesIn_cases hns
      · simp at hmem
      · obtain rfl : e = d := by rw [hd, eq_placeOf_of_lookup he]
        exact ⟨ns, hns, .inr ⟨m, e, bs, (hlast m).2 hnew, he, read_eq_ok_iff.2 ⟨g, hg⟩, hdec⟩⟩

/-- No snapshot at the place has a timestamp above `n`. -/
def UpTo (n : Nat) (t : FileTree) (dir : Path) (d : Place) : Prop :=
  ∀ ds, isSnapshot t dir d (nameOf ds) = true → number ds ≤ n

/-- The names of snapshots at the place have thirteen digits. -/
def Even (t : FileTree) (dir : Path) (d : Place) : Prop :=
  ∀ ds, isSnapshot t dir d (nameOf ds) = true → ds.length = 13

theorem SameSnapshots.upTo {dir : Path} {d : Place} {t t' : FileTree} {n : Nat}
    (h : SameSnapshots d t t') (hu : UpTo n t dir d) : UpTo n t' dir d :=
  fun ds hds => hu ds (h.isSnapshot_iff.1 hds)

theorem SameSnapshots.even {dir : Path} {d : Place} {t t' : FileTree}
    (h : SameSnapshots d t t') (he : Even t dir d) : Even t' dir d :=
  fun ds hds => he ds (h.isSnapshot_iff.1 hds)

/-- Among names of one length the newest has the greatest timestamp, which an archive takes up. -/
theorem upTo_of_attach {t : FileTree} {dir : Path} {d : Place} {a : Archive} {ns : List String}
    (opened : attach t dir = .ok a) (hns : namesIn t dir = .ok ns)
    (hm : ∀ m, m ∈ ns ↔ isSnapshot t dir d m = true) (even : Even t dir d) :
    UpTo a.last t dir d := by
  intro ds hds
  have hmem := (hm _).2 hds
  obtain ⟨ns', hns', rfl⟩ := attach_eq_ok_iff.1 opened
  rw [hns] at hns'
  cases hns'
  cases hl : ns.getLast? with
  | none =>
    rw [List.getLast?_eq_none_iff] at hl
    simp [hl] at hmem
  | some m =>
    obtain ⟨hin, hmax⟩ := (getLast?_eq_some_iff_of_sorted (namesIn_cases hns).1).1 hl
    obtain ⟨es, rfl, hes, ht⟩ := exists_digits ((hm m).1 hin)
    obtain ⟨fs, hf, hfs, -⟩ := exists_digits hds
    obtain rfl := nameOf_injective hf
    simp only [Option.bind_some, ht, Option.getD_some]
    rcases hmax _ hmem with he | hb
    · obtain rfl := nameOf_injective he
      exact Nat.le_refl _
    · rw [before_nameOf_iff_of_length hfs hes] at hb
      · exact Nat.le_of_lt hb
      · rw [even _ hds, even _ ((hm _).1 hin)]

theorem length_toDigits_of_thirteen {n : Nat} (h : 10 ^ 12 ≤ n) (h' : n < 10 ^ 13) :
    (Nat.toDigits 10 n).length = 13 := by
  have h1 := (Nat.length_toDigits_le_iff (b := 10) (n := n) (k := 13) (by decide) (by decide)).2 h'
  have h2 := (Nat.length_toDigits_le_iff (b := 10) (n := n) (k := 12) (by decide) (by decide))
  omega

/-- A snapshot of a later timestamp becomes the newest; the archive holds its store. -/
theorem holds_of_written {dir : Path} {n : Nat} {s : Store} {d : Place} {t t' : FileTree}
    (w : Written dir n (Snapshots.encode s) d t t') (h : 10 ^ 12 ≤ n) (h' : n < 10 ^ 13)
    (even : Even t dir d) (later : ∀ ds, isSnapshot t dir d (nameOf ds) = true → number ds < n) :
    Holds t' dir d s ∧ Even t' dir d ∧ UpTo n t' dir d := by
  have hn : n < 2 ^ 64 := Nat.lt_trans h' (by decide)
  have hlength := length_toDigits_of_thirteen h h'
  have hnew : IsNewest t' dir d (fileName n) := by
    rw [isNewest_written_iff w hn]
    intro ds hds
    rw [comesBehind_iff_of_lt (later ds hds), hlength, even ds hds]
    have := later ds hds
    omega
  obtain ⟨g, hg⟩ := w.file
  refine ⟨.inr ⟨_, g, _, hnew, hg, decode_encode s⟩, fun ds hds => ?_, fun ds hds => ?_⟩
  · rcases (w.isSnapshot_iff hn).1 hds with he | hds
    · rw [fileName_eq_nameOf] at he
      rw [nameOf_injective he, hlength]
    · exact even ds hds
  · rcases (w.isSnapshot_iff hn).1 hds with he | hds
    · rw [fileName_eq_nameOf] at he
      exact Nat.le_of_eq (by rw [nameOf_injective he, number_toDigits])
    · exact Nat.le_of_lt (later ds hds)

end Keyline.Archive
