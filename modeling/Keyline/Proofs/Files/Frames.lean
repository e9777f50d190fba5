import Keyline.Proofs.Files.Contents

/-!
# Files that stay the same

An operation that writes into one directory leaves the files of all others alone, though it may make
directories that were missing. Files of two directories with different names never meet.
-/
namespace Keyline.FileTree

/-- Only files directly in `d` are different. -/
structure ChangesIn (d : Place) (t t' : FileTree) : Prop where
  base : t'.base = t.base
  file_iff : ∀ p, (∀ n, p ≠ d ++ [n]) → ∀ g bs,
    t'.node? p = some (.file g bs) ↔ t.node? p = some (.file g bs)

theorem ChangesIn.refl (d : Place) (t : FileTree) : ChangesIn d t t := ⟨rfl, fun _ _ _ _ => Iff.rfl⟩

theorem ChangesIn.trans {d : Place} {t u v : FileTree} (h : ChangesIn d t u)
    (h' : ChangesIn d u v) : ChangesIn d t v := by
  refine ⟨h'.base.trans h.base, fun p hp g bs => ?_⟩
  rw [h'.file_iff p hp, h.file_iff p hp]

theorem Grows.changesIn {t t' : FileTree} (h : Grows t t') (d : Place) : ChangesIn d t t' :=
  ⟨h.base, fun _ _ _ _ => h.file_iff⟩

/-- What is said place by place is enough. -/
theorem changesIn_of_node? {d : Place} {t t' : FileTree} (hb : t'.base = t.base)
    (h : ∀ p, (∀ n, p ≠ d ++ [n]) → t'.node? p = t.node? p) : ChangesIn d t t' := by
  refine ⟨hb, fun p hp g bs => ?_⟩
  rw [h p hp]

theorem changesIn_append {d : Place} {n : String} {t : FileTree} {f : OpenFile} (bs : Bytes)
    (h : f.place = d ++ [n]) : ChangesIn d t (t.append f bs) := by
  obtain ⟨hb, -, hn⟩ := append_frame t f bs
  apply changesIn_of_node? hb
  intro p hp
  apply hn
  rw [h]
  exact Ne.symm (hp n)

theorem ChangesIn.file_iff_of_ne {d e : Place} {t t' : FileTree} (h : ChangesIn d t t')
    (hde : d ≠ e) (n : String) (g : Nat) (bs : Bytes) :
    t'.node? (e ++ [n]) = some (.file g bs) ↔ t.node? (e ++ [n]) = some (.file g bs) := by
  apply h.file_iff
  intro m hm
  exact hde (List.append_singleton_inj.1 hm).1.symm

/-- The files of a directory whose names are of one kind are the same. -/
structure SameFiles (kind : String → Prop) (d : Place) (t t' : FileTree) : Prop where
  base : t'.base = t.base
  file_iff : ∀ n, kind n → ∀ g bs,
    t'.node? (d ++ [n]) = some (.file g bs) ↔ t.node? (d ++ [n]) = some (.file g bs)

section SameFiles
variable {kind : String → Prop} {d e : Place} {t t' u : FileTree}

theorem SameFiles.symm (h : SameFiles kind d t t') : SameFiles kind d t' t :=
  ⟨h.base.symm, fun n hn g bs => (h.file_iff n hn g bs).symm⟩

theorem SameFiles.trans (h : SameFiles kind d t t') (h' : SameFiles kind d t' u) :
    SameFiles kind d t u := by
  refine ⟨h'.base.trans h.base, fun n hn g bs => ?_⟩
  rw [h'.file_iff n hn, h.file_iff n hn]

theorem ChangesIn.sameFiles (h : ChangesIn d t t') (hde : d ≠ e) : SameFiles kind e t t' :=
  ⟨h.base, fun n _ => h.file_iff_of_ne hde n⟩

theorem Grows.sameFiles (h : Grows t t') : SameFiles kind d t t' :=
  ⟨h.base, fun _ _ _ _ => h.file_iff⟩

end SameFiles

/-- Nothing but `d` and what is below it may be different. -/
structure SameOutside (d : Place) (t t' : FileTree) : Prop where
  base : t'.base = t.base
  removals : t'.removals = t.removals
  node? : ∀ p, ¬ d <+: p → t'.node? p = t.node? p

section SameOutside
variable {d : Place} {t t' u : FileTree}

theorem SameOutside.refl (d : Place) (t : FileTree) : SameOutside d t t :=
  ⟨rfl, rfl, fun _ _ => rfl⟩

theorem SameOutside.trans (h : SameOutside d t t') (h' : SameOutside d t' u) :
    SameOutside d t u := by
  refine ⟨h'.base.trans h.base, h'.removals.trans h.removals, fun p hp => ?_⟩
  rw [h'.node? p hp, h.node? p hp]

theorem SameOutside.symm (h : SameOutside d t t') : SameOutside d t' t :=
  ⟨h.base.symm, h.removals.symm, fun p hp => (h.node? p hp).symm⟩

theorem keeps_append (t : FileTree) (f : OpenFile) (bs : Bytes) : Keeps t (t.append f bs) := by
  rw [append]
  split
  · next g old h =>
    split
    · apply keeps_insert
      rw [h]
      simp
    · exact Keeps.refl t
  · exact Keeps.refl t

theorem SameOutside.append (h : SameOutside d t u) {f : OpenFile} (hf : ¬ d <+: f.place)
    (bs : Bytes) : SameOutside d (t.append f bs) (u.append f bs) := by
  obtain ⟨hb, hr, hn⟩ := append_frame t f bs
  obtain ⟨hb', hr', hn'⟩ := append_frame u f bs
  refine ⟨?_, ?_, fun p hp => ?_⟩
  · rw [hb, hb', h.base]
  · rw [hr, hr', h.removals]
  · by_cases he : f.place = p
    · have hs := h.node? f.place hf
      unfold FileTree.append
      rw [hs]
      cases hu : t.node? f.place with
      | none => exact h.node? p hp
      | some n =>
        cases n with
        | directory => exact h.node? p hp
        | file g old =>
          dsimp only
          split
          · rw [node?_insert_over hu, node?_insert_over (hs.trans hu), if_pos he, if_pos he]
          · exact h.node? p hp
    · rw [hn p he, hn' p he, h.node? p hp]

end SameOutside

end Keyline.FileTree
