import Keyline.Files.Tree
import Keyline.Proofs.Files.Growth

/-!
# Changing files

What a change of one file leaves at every place. Writing a file takes away no directory and touches
no other place; moving a file empties the place it comes from and fills the one it goes to.
-/
namespace Keyline.FileTree

theorem fits_file {t : FileTree} {d : Place} {n : String} {g : Nat} {bs : Bytes}
    (hd : t.node? d = some .directory) (hn : t.node? (d ++ [n]) ≠ some .directory) :
    t.Fits (d ++ [n]) (.file g bs) :=
  ⟨by simp, by simpa using hd, fun h => absurd h hn⟩

theorem node?_insert_child {t : FileTree} {d : Place} {n : String} {g : Nat} {bs : Bytes}
    (hd : t.node? d = some .directory) (hn : t.node? (d ++ [n]) ≠ some .directory) (q : Place) :
    (t.insert (d ++ [n]) (.file g bs)).node? q =
      if d ++ [n] = q then some (.file g bs) else t.node? q :=
  node?_insert (fits_file hd hn) q

/-- A file's content may be exchanged where the file stands. -/
theorem node?_insert_over {t : FileTree} {p : Place} {g g' : Nat} {bs bs' : Bytes}
    (h : t.node? p = some (.file g bs)) (q : Place) :
    (t.insert p (.file g' bs')).node? q =
      if p = q then some (.file g' bs') else t.node? q := by
  apply node?_insert
  refine ⟨?_, node?_dropLast h, ?_⟩
  · rintro rfl
    simp at h
  · rw [h]
    simp

theorem keeps_insert {t : FileTree} {p : Place} {n : Node} (h : t.node? p ≠ some .directory) :
    Keeps t (t.insert p n) := by
  refine ⟨insert_base _ _ _, fun q hq => ?_⟩
  by_cases hf : t.Fits p n
  · rw [node?_insert hf, if_neg]
    · exact hq
    · rintro rfl
      exact h hq
  · rw [insert, dif_neg hf]
    exact hq

theorem node?_below_file {t : FileTree} {p q : Place} {g : Nat} {bs : Bytes}
    (h : t.node? p = some (.file g bs)) (hpq : p <+: q) (hne : p ≠ q) : t.node? q = none := by
  induction hk : q.length generalizing q with
  | zero =>
    rw [List.length_eq_zero_iff] at hk
    subst hk
    exact absurd (List.prefix_nil.1 hpq) hne
  | succ k ih =>
    rcases List.eq_nil_or_concat q with rfl | ⟨r, n, rfl⟩
    · simp at hk
    · rw [List.concat_eq_append] at hpq hne hk ⊢
      have hpr : p <+: r := by
        rcases List.prefix_concat_iff.1 hpq with e | hr
        · exact absurd e hne
        · exact hr
      cases hq : t.node? (r ++ [n]) with
      | none => rfl
      | some m =>
        have hr := node?_dropLast hq
        rw [List.dropLast_concat] at hr
        by_cases e : p = r
        · rw [← e, h] at hr
          simp at hr
        · rw [ih hpr e (by simpa using hk)] at hr
          simp at hr

theorem node?_prune_file {t : FileTree} {p : Place} {g : Nat} {bs : Bytes}
    (h : t.node? p = some (.file g bs)) (q : Place) :
    (t.prune p).node? q = if p = q then none else t.node? q := by
  have hp : p ≠ [] := by
    rintro rfl
    simp at h
  rw [node?_prune hp]
  by_cases e : p = q
  · subst e
    simp
  · rw [if_neg e]
    split
    · next hpq => exact (node?_below_file h hpq e).symm
    · rfl

theorem isDirectory_iff {t : FileTree} {p : Place} :
    t.isDirectory p = true ↔ t.node? p = some .directory := decide_eq_true_iff

theorem isFile_iff {t : FileTree} {p : Place} :
    t.isFile p = true ↔ ∃ g bs, t.node? p = some (.file g bs) := by
  rw [isFile]
  split
  · next g bs h => simp [h]
  · next h =>
    simp only [Bool.false_eq_true, false_iff, not_exists]
    exact h

theorem read_eq_ok_iff {t : FileTree} {p : Place} {bs : Bytes} :
    t.read p = .ok bs ↔ ∃ g, t.node? p = some (.file g bs) := by
  rw [read]
  split
  · next h => simp [h]
  · next g cs h => simp [h]
  · next h => simp [h]

theorem create_child {t : FileTree} {d : Place} {n : String} (hd : t.node? d = some .directory)
    (hn : t.node? (d ++ [n]) ≠ some .directory) : ∃ g t', t.create (d ++ [n]) = .ok t' ∧
      t'.base = t.base ∧ t'.removals = t.removals ∧
      ∀ q, t'.node? q = if d ++ [n] = q then some (.file g []) else t.node? q := by
  rw [create]
  split
  · next h => exact absurd h hn
  · next g bs h =>
    exact ⟨g, _, rfl, insert_base _ _ _, insert_removals _ _ _, node?_insert_child hd hn⟩
  · next h =>
    exact ⟨t.removals, _, rfl, insert_base _ _ _, insert_removals _ _ _, node?_insert_child hd hn⟩

theorem extend_file {t : FileTree} {p : Place} {g : Nat} {old : Bytes} (bs : Bytes)
    (h : t.node? p = some (.file g old)) :
    (t.extend p bs).base = t.base ∧ (t.extend p bs).removals = t.removals ∧
      ∀ q, (t.extend p bs).node? q =
        if p = q then some (.file g (old ++ bs)) else t.node? q := by
  rw [extend, h]
  exact ⟨insert_base _ _ _, insert_removals _ _ _, node?_insert_over h⟩

theorem rename_child {t : FileTree} {d : Place} {m n : String} {g : Nat} {bs : Bytes}
    (hd : t.node? d = some .directory) (hm : t.node? (d ++ [m]) = some (.file g bs))
    (hn : t.node? (d ++ [n]) ≠ some .directory) (hmn : m ≠ n) :
    ∃ t', t.rename (d ++ [m]) (d ++ [n]) = .ok t' ∧ t'.base = t.base ∧
      t'.removals = t.removals ∧ ∀ q, t'.node? q =
        if d ++ [n] = q then some (.file g bs) else if d ++ [m] = q then none else t.node? q := by
  have hd' : (t.prune (d ++ [m])).node? d = some .directory := by
    rw [node?_prune_file hm, if_neg (by simp), hd]
  have hn' : (t.prune (d ++ [m])).node? (d ++ [n]) ≠ some .directory := by
    rw [node?_prune_file hm, if_neg (by simpa using hmn)]
    exact hn
  refine ⟨(t.prune (d ++ [m])).insert (d ++ [n]) (.file g bs), ?_, insert_base _ _ _,
    insert_removals _ _ _, fun q => ?_⟩
  · rw [rename, hm]
    dsimp only
    rw [if_neg (by rwa [isDirectory_iff])]
  · rw [node?_insert_child hd' hn', node?_prune_file hm]

theorem rename_onto_directory {t : FileTree} {p q : Place} {g : Nat} {bs : Bytes}
    (hp : t.node? p = some (.file g bs)) (hq : t.node? q = some .directory) :
    t.rename p q = .error .isDirectory := by
  rw [rename, hp]
  dsimp only
  rw [if_pos (isDirectory_iff.2 hq)]

/-- What the file at a place holds; nothing where no file is. -/
def contentAt (t : FileTree) (p : Place) : Bytes :=
  match t.node? p with
  | some (.file _ bs) => bs
  | _ => []

theorem contentAt_file {t : FileTree} {p : Place} {g : Nat} {bs : Bytes}
    (h : t.node? p = some (.file g bs)) : t.contentAt p = bs := by
  rw [contentAt, h]

theorem Grows.contentAt_eq {t t' : FileTree} (g : Grows t t') (p : Place) :
    t'.contentAt p = t.contentAt p := by
  unfold contentAt
  rcases g.node? p with h | ⟨h, h'⟩
  · rw [h]
  · rw [h, h']

theorem openAppend_child {t : FileTree} {d : Place} {n : String}
    (hd : t.node? d = some .directory) (hn : t.node? (d ++ [n]) ≠ some .directory) :
    ∃ f t', t.openAppend (d ++ [n]) = .ok (f, t') ∧ f.place = d ++ [n] ∧ t'.base = t.base ∧
      t'.removals = t.removals ∧ ∀ q, t'.node? q =
        if d ++ [n] = q then some (.file f.generation (t.contentAt q)) else t.node? q := by
  rw [openAppend]
  split
  · next h => exact absurd h hn
  · next g bs h =>
    refine ⟨_, _, rfl, rfl, rfl, rfl, fun q => ?_⟩
    split
    · next e => rw [← e, contentAt_file h, h]
    · rfl
  · next h =>
    refine ⟨_, _, rfl, rfl, insert_base _ _ _, insert_removals _ _ _, fun q => ?_⟩
    rw [node?_insert_child hd hn]
    split
    · next e => simp [← e, contentAt, h]
    · rfl

theorem append_open {t : FileTree} {f : OpenFile} {old : Bytes} (bs : Bytes)
    (h : t.node? f.place = some (.file f.generation old)) (q : Place) :
    (t.append f bs).node? q =
      if f.place = q then some (.file f.generation (old ++ bs)) else t.node? q := by
  rw [append, h]
  dsimp only
  rw [if_pos rfl]
  exact node?_insert_over h q

theorem append_frame (t : FileTree) (f : OpenFile) (bs : Bytes) :
    (t.append f bs).base = t.base ∧ (t.append f bs).removals = t.removals ∧
      ∀ q, f.place ≠ q → (t.append f bs).node? q = t.node? q := by
  rw [append]
  split
  · next g old h =>
    split
    · refine ⟨insert_base _ _ _, insert_removals _ _ _, fun q hq => ?_⟩
      rw [node?_insert_over h, if_neg hq]
    · exact ⟨rfl, rfl, fun _ _ => rfl⟩
  · exact ⟨rfl, rfl, fun _ _ => rfl⟩

end Keyline.FileTree
