import Keyline.Proofs.Files.Frames
import Keyline.Proofs.Snapshots.Listing

/-!
# What writing a snapshot changes

A snapshot that was written stands complete under its own name and its temporary name is free again;
everything else is as it was, but for directories that were missing. A write that failed leaves at
most such directories and a file under the temporary name, which no list shows.
-/
namespace Keyline.Archive

open FileTree Snapshots

theorem temporaryName_ne_fileName (m n : Nat) : temporaryName m ≠ fileName n := by
  intro h
  have := congrArg (fun s => s.toList.getLast?) h
  simp [temporaryName, fileName, ending] at this

theorem timestamp?_temporaryName (n : Nat) : timestamp? (temporaryName n) = none := by
  cases h : timestamp? (temporaryName n) with
  | none => rfl
  | some m =>
    obtain ⟨ds, hds, -⟩ := timestamp?_eq_some_iff.1 h
    have := congrArg (fun s => s.toList.getLast?) hds
    simp [temporaryName, nameOf, fileName, ending] at this

/-- What the actions of a write leave behind: the fault, and what stands at each place. -/
theorem runAll_steps {t : FileTree} {d : Place} {m n : String} (bs : Bytes) (hmn : m ≠ n)
    (hd : t.node? d = some .directory) :
    (t.node? (d ++ [m]) = some .directory ∧
      FileAction.runAll (steps (d ++ [m]) (d ++ [n]) bs) t = (some .isDirectory, t)) ∨
    t.node? (d ++ [m]) ≠ some .directory ∧
      ∃ g t', t'.base = t.base ∧ t'.removals = t.removals ∧
      ((t.node? (d ++ [n]) = some .directory ∧
        FileAction.runAll (steps (d ++ [m]) (d ++ [n]) bs) t = (some .isDirectory, t') ∧
        ∀ q, t'.node? q = if d ++ [m] = q then some (.file g bs) else t.node? q) ∨
      (t.node? (d ++ [n]) ≠ some .directory ∧
        FileAction.runAll (steps (d ++ [m]) (d ++ [n]) bs) t = (none, t') ∧
        ∀ q, t'.node? q = if d ++ [n] = q then some (.file g bs)
          else if d ++ [m] = q then none else t.node? q)) := by
  have hne : d ++ [m] ≠ d ++ [n] := by simpa using hmn
  by_cases hm : t.node? (d ++ [m]) = some .directory
  · refine .inl ⟨hm, ?_⟩
    have hc : t.create (d ++ [m]) = .error .isDirectory := by
      rw [create, hm]
    simp [steps, FileAction.runAll, FileAction.run, hc]
  · obtain ⟨g, t₁, hc, hb₁, hr₁, hn₁⟩ := create_child hd hm
    have hm₁ : t₁.node? (d ++ [m]) = some (.file g []) := by rw [hn₁, if_pos rfl]
    obtain ⟨hb₂, hr₂, hn₂⟩ := extend_file bs hm₁
    rw [List.nil_append] at hn₂
    have hm₂ : (t₁.extend (d ++ [m]) bs).node? (d ++ [m]) = some (.file g bs) := by
      rw [hn₂, if_pos rfl]
    have hq₂ (q : Place) (hq : d ++ [m] ≠ q) :
        (t₁.extend (d ++ [m]) bs).node? q = t.node? q := by
      rw [hn₂, if_neg hq, hn₁, if_neg hq]
    have hrun : FileAction.runAll (steps (d ++ [m]) (d ++ [n]) bs) t =
        FileAction.runAll [.rename (d ++ [m]) (d ++ [n])] (t₁.extend (d ++ [m]) bs) := by
      simp [steps, FileAction.runAll, FileAction.run, hc]
    refine .inr ⟨hm, g, ?_⟩
    by_cases hn : t.node? (d ++ [n]) = some .directory
    · refine ⟨_, hb₂.trans hb₁, hr₂.trans hr₁, .inl ⟨hn, ?_, fun q => ?_⟩⟩
      · rw [hrun, FileAction.runAll, FileAction.run, rename_onto_directory hm₂]
        rw [hq₂ _ hne, hn]
      · split
        · next e => rw [← e, hm₂]
        · next e => exact hq₂ q e
    · have hd₂ : (t₁.extend (d ++ [m]) bs).node? d = some .directory := by
        rw [hq₂ d (by simp), hd]
      obtain ⟨t₃, hr, hb₃, hr₃, hn₃⟩ := rename_child hd₂ hm₂ (by rwa [hq₂ _ hne]) hmn
      refine ⟨t₃, (hb₃.trans hb₂).trans hb₁, (hr₃.trans hr₂).trans hr₁,
        .inr ⟨hn, ?_, fun q => ?_⟩⟩
      · rw [hrun, FileAction.runAll, FileAction.run, hr]
        rfl
      · rw [hn₃]
        split
        · rfl
        · split
          · rfl
          · next e => exact hq₂ q e

/-- A written snapshot, from the files once the directory was made to the files in the end. -/
structure Written (dir : Path) (n : Nat) (bs : Bytes) (d : Place) (t t' : FileTree) : Prop where
  directory : t.directory dir = .ok d
  fault? : (dir.child (fileName n)).fault? = none
  vacant : t.node? (d ++ [fileName n]) ≠ some .directory
  temporary : t.node? (d ++ [temporaryName n]) ≠ some .directory
  base : t'.base = t.base
  removals : t'.removals = t.removals
  node? : ∃ g, ∀ q, t'.node? q = if d ++ [fileName n] = q then some (.file g bs)
    else if d ++ [temporaryName n] = q then none else t.node? q

/-- A snapshot that was begun and not moved to its name. -/
structure Begun (dir : Path) (n : Nat) (d : Place) (t t' : FileTree) : Prop where
  directory : t.directory dir = .ok d
  temporary : t.node? (d ++ [temporaryName n]) ≠ some .directory
  base : t'.base = t.base
  removals : t'.removals = t.removals
  node? : ∃ g bs, ∀ q, t'.node? q =
    if d ++ [temporaryName n] = q then some (.file g bs) else t.node? q

theorem store_cases (dir : Path) (n : Nat) (bs : Bytes) (t : FileTree) :
    (∃ d t', store dir n bs t = (none, t') ∧ Written dir n bs d t t') ∨
    ∃ f t', store dir n bs t = (some f, t') ∧ (t' = t ∨ ∃ d, Begun dir n d t t') := by
  rw [store]
  cases ht : t.entry dir (temporaryName n) with
  | error f => exact .inr ⟨f, t, rfl, .inl rfl⟩
  | ok temporary =>
    cases hp : t.entry dir (fileName n) with
    | error f => exact .inr ⟨f, t, rfl, .inl rfl⟩
    | ok place =>
      obtain ⟨-, d, hd, rfl⟩ := entry_eq_ok_iff.1 ht
      obtain ⟨hf, d', hd', rfl⟩ := entry_eq_ok_iff.1 hp
      rw [hd] at hd'
      cases hd'
      dsimp only
      rcases runAll_steps bs (temporaryName_ne_fileName n n) (node?_of_directory hd) with
        ⟨-, hr⟩ | ⟨hm, g, t', hb, hrm, ⟨-, hr, hn⟩ | ⟨hn, hr, hq⟩⟩
      · exact .inr ⟨_, _, hr, .inl rfl⟩
      · exact .inr ⟨_, _, hr, .inr ⟨d, hd, hm, hb, hrm, g, bs, hn⟩⟩
      · exact .inl ⟨d, t', hr, hd, hf, hn, hm, hb, hrm, g, hq⟩

section Written
variable {dir : Path} {n : Nat} {bs : Bytes} {d : Place} {t t' : FileTree}

theorem Written.keeps (w : Written dir n bs d t t') : Keeps t t' := by
  obtain ⟨g, hg⟩ := w.node?
  refine ⟨w.base, fun q hq => ?_⟩
  rw [hg, if_neg, if_neg]
  · exact hq
  · rintro rfl
    exact w.temporary hq
  · rintro rfl
    exact w.vacant hq

theorem Written.file (w : Written dir n bs d t t') :
    ∃ g, t'.node? (d ++ [fileName n]) = some (.file g bs) := by
  obtain ⟨g, hg⟩ := w.node?
  exact ⟨g, by rw [hg, if_pos rfl]⟩

theorem Written.other (w : Written dir n bs d t t') {m : String} (hm : m ≠ fileName n)
    (ht : (timestamp? m).isSome) : t'.node? (d ++ [m]) = t.node? (d ++ [m]) := by
  obtain ⟨g, hg⟩ := w.node?
  have h1 : d ++ [fileName n] ≠ d ++ [m] := by simpa using Ne.symm hm
  have h2 : d ++ [temporaryName n] ≠ d ++ [m] := by
    intro e
    have e' : temporaryName n = m := by simpa using e
    rw [← e', timestamp?_temporaryName] at ht
    simp at ht
  rw [hg, if_neg h1, if_neg h2]

theorem Written.isSnapshot_iff (w : Written dir n bs d t t') (hn : n < 2 ^ 64) {m : String} :
    isSnapshot t' dir d m = true ↔ m = fileName n ∨ isSnapshot t dir d m = true := by
  by_cases hm : m = fileName n
  · obtain ⟨g, hg⟩ := w.file
    subst hm
    rw [Archive.isSnapshot_iff, timestamp?_fileName hn]
    simp [w.fault?, hg]
  · rw [Archive.isSnapshot_iff, Archive.isSnapshot_iff]
    constructor
    · rintro ⟨hf, hb, ht⟩
      rw [w.other hm ht] at hb
      exact .inr ⟨hf, hb, ht⟩
    · rintro (he | ⟨hf, hb, ht⟩)
      · exact absurd he hm
      · rw [← w.other hm ht] at hb
        exact ⟨hf, hb, ht⟩

theorem Begun.keeps (b : Begun dir n d t t') : Keeps t t' := by
  obtain ⟨g, bs, hg⟩ := b.node?
  refine ⟨b.base, fun q hq => ?_⟩
  rw [hg, if_neg]
  · exact hq
  · rintro rfl
    exact b.temporary hq

theorem Begun.other (b : Begun dir n d t t') {p : Place} {m : String}
    (ht : (timestamp? m).isSome) : t'.node? (p ++ [m]) = t.node? (p ++ [m]) := by
  obtain ⟨g, bs, hg⟩ := b.node?
  rw [hg, if_neg]
  intro e
  have e' : temporaryName n = m := (List.append_singleton_inj.1 e).2
  rw [← e', timestamp?_temporaryName] at ht
  simp at ht

end Written

/-- The files once the directory of an archive was made. -/
def made (a : Archive) (t : FileTree) : FileTree := (t.makeDirectories a.dir).2

theorem grows_made (a : Archive) (t : FileTree) : Grows t (a.made t) :=
  grows_makeDirectories t a.dir

theorem write_ok {a a' : Archive} {now : Nat} {s : Store} {t t' : FileTree} {path : Path}
    (h : a.write now s t = (.ok (path, a'), t')) :
    path = a.dir.child (fileName (nextTimestamp now a.last)) ∧
      a' = { a with last := nextTimestamp now a.last } ∧
      ∃ d, Written a.dir (nextTimestamp now a.last) (Snapshots.encode s) d (a.made t) t' := by
  rw [write] at h
  rw [made]
  split at h
  · simp at h
  · next q t₁ hm =>
    rw [hm]
    rcases store_cases a.dir (nextTimestamp now a.last) (Snapshots.encode s) t₁ with
      ⟨d, t₂, hs, hw⟩ | ⟨f, t₂, hs, -⟩
    · dsimp only at h
      rw [hs] at h
      cases h
      exact ⟨rfl, rfl, d, hw⟩
    · dsimp only at h
      rw [hs] at h
      simp at h

theorem write_error {a : Archive} {now : Nat} {s : Store} {t t' : FileTree} {e : Failure}
    (h : a.write now s t = (.error e, t')) :
    t' = a.made t ∨ ∃ d, Begun a.dir (nextTimestamp now a.last) d (a.made t) t' := by
  rw [write] at h
  rw [made]
  split at h
  · next hm =>
    rw [hm]
    cases h
    exact .inl rfl
  · next q t₁ hm =>
    rw [hm]
    rcases store_cases a.dir (nextTimestamp now a.last) (Snapshots.encode s) t₁ with
      ⟨d, t₂, hs, -⟩ | ⟨f, t₂, hs, hb⟩
    · dsimp only at h
      rw [hs] at h
      simp at h
    · dsimp only at h
      rw [hs] at h
      cases h
      exact hb

/-- What a write leaves as long as the snapshot does not have its name: directories that were
missing, and then at most a file under the temporary name. -/
def Unfinished (a : Archive) (n : Nat) (t u : FileTree) : Prop :=
  Grows t u ∨ ∃ d, Begun a.dir n d (a.made t) u

theorem unfinished_of_write_error {a : Archive} {now : Nat} {s : Store} {t t' : FileTree}
    {e : Failure} (h : a.write now s t = (.error e, t')) :
    a.Unfinished (nextTimestamp now a.last) t t' := by
  rcases write_error h with rfl | begun
  · exact .inl (grows_made a t)
  · exact .inr begun

theorem Unfinished.keeps {a : Archive} {n : Nat} {t u : FileTree} (h : a.Unfinished n t u) :
    Keeps t u := by
  rcases h with g | ⟨d, b⟩
  · exact g.keeps
  · exact (grows_made a t).keeps.trans b.keeps

theorem Written.changesIn {dir : Path} {n : Nat} {bs : Bytes} {d : Place} {t t' : FileTree}
    (w : Written dir n bs d t t') : ChangesIn d t t' := by
  obtain ⟨g, hg⟩ := w.node?
  apply changesIn_of_node? w.base
  intro p hp
  rw [hg, if_neg (Ne.symm (hp _)), if_neg (Ne.symm (hp _))]

theorem Begun.changesIn {dir : Path} {n : Nat} {d : Place} {t t' : FileTree}
    (b : Begun dir n d t t') : ChangesIn d t t' := by
  obtain ⟨g, bs, hg⟩ := b.node?
  apply changesIn_of_node? b.base
  intro p hp
  rw [hg, if_neg (Ne.symm (hp _))]

theorem place_of_made {a : Archive} {t : FileTree} {dir : Path} {d : Place}
    (h : (a.made t).directory dir = .ok d) : d = t.placeOf dir := by
  rw [← placeOf_of_base (grows_made a t).base]
  exact eq_placeOf_of_directory h

theorem changesIn_of_write (a : Archive) (now : Nat) (s : Store) (t : FileTree) :
    ChangesIn (t.placeOf a.dir) t (a.write now s t).2 := by
  have g := (grows_made a t).changesIn (t.placeOf a.dir)
  rcases hw : a.write now s t with ⟨e | ⟨path, a'⟩, t'⟩
  · rcases write_error hw with rfl | ⟨d, b⟩
    · exact g
    · obtain rfl := place_of_made b.directory
      exact g.trans b.changesIn
  · obtain ⟨-, -, d, w⟩ := write_ok hw
    obtain rfl := place_of_made w.directory
    exact g.trans w.changesIn

theorem keeps_of_write (a : Archive) (now : Nat) (s : Store) (t : FileTree) :
    Keeps t (a.write now s t).2 := by
  rcases hw : a.write now s t with ⟨e | ⟨path, a'⟩, t'⟩
  · exact (unfinished_of_write_error hw).keeps
  · obtain ⟨-, -, d, w⟩ := write_ok hw
    exact (grows_made a t).keeps.trans w.keeps

end Keyline.Archive
