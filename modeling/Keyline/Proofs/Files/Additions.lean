import Keyline.Proofs.Files.Growth

/-!
# What is added to a tree

An operation that only adds leaves every node as it was, and what is new is of a kind that can be
said. Making a directory adds directories that its path goes through, opening a file for appending
adds at most that file, which is empty. A path without double dots goes through nothing but the
directories above the place where it leads.
-/
namespace Keyline.FileTree

/-- Nothing of `t` is different in `t'`, and what is new is `new` to be there. -/
structure Adds (new : Place → Node → Prop) (t t' : FileTree) : Prop where
  base : t'.base = t.base
  removals : t'.removals = t.removals
  node? : ∀ p, t'.node? p = t.node? p ∨ (t.node? p = none ∧ ∃ n, t'.node? p = some n ∧ new p n)

section Adds
variable {new new' : Place → Node → Prop} {t u v : FileTree}

theorem Adds.refl (new : Place → Node → Prop) (t : FileTree) : Adds new t t :=
  ⟨rfl, rfl, fun _ => .inl rfl⟩

theorem Adds.trans (h : Adds new t u) (h' : Adds new u v) : Adds new t v := by
  refine ⟨h'.base.trans h.base, h'.removals.trans h.removals, fun p => ?_⟩
  rcases h'.node? p with same | ⟨vacant, n, hn, hp⟩
  · rw [same]
    exact h.node? p
  · rcases h.node? p with same | ⟨_, m, hm, _⟩
    · exact .inr ⟨same ▸ vacant, n, hn, hp⟩
    · simp [vacant] at hm

theorem Adds.imp (h : Adds new t u) (weaker : ∀ p n, new p n → new' p n) : Adds new' t u := by
  refine ⟨h.base, h.removals, fun p => ?_⟩
  rcases h.node? p with same | ⟨vacant, n, hn, hp⟩
  · exact .inl same
  · exact .inr ⟨vacant, n, hn, weaker p n hp⟩

theorem Adds.keep (h : Adds new t u) {p : Place} {n : Node} (hn : t.node? p = some n) :
    u.node? p = some n := by
  rcases h.node? p with same | ⟨vacant, -⟩
  · rw [same, hn]
  · simp [vacant] at hn

end Adds

/-- `q` is one of the places that `names` lead through from `p`. -/
def OnWay (p : Place) (names : List String) (q : Place) : Prop :=
  ∃ ns, ns <+: names ∧ q = ns.foldl climb p

theorem onWay_end (p : Place) (names : List String) : OnWay p names (names.foldl climb p) :=
  ⟨names, List.prefix_refl _, rfl⟩

theorem OnWay.of_isPrefix {p q : Place} {ns names : List String} (h : OnWay p ns q)
    (hp : ns <+: names) : OnWay p names q := by
  obtain ⟨ms, hm, rfl⟩ := h
  exact ⟨ms, hm.trans hp, rfl⟩

/-- Without double dots a path goes straight down. -/
theorem OnWay.isPrefix {p q : Place} {names : List String} (h : OnWay p names q)
    (straight : ".." ∉ names) : q <+: names.foldl climb p := by
  obtain ⟨ns, ⟨ms, rfl⟩, rfl⟩ := h
  rw [List.foldl_append]
  exact isPrefix_foldl_climb (fun hm => straight (List.mem_append_right ns hm)) _

/-- What is put where nothing was is all that is new. -/
theorem adds_insert {new : Place → Node → Prop} {t : FileTree} {d : Place} {name : String}
    {n : Node} (hd : t.node? d = some .directory) (vacant : t.node? (d ++ [name]) = none)
    (hn : new (d ++ [name]) n) : Adds new t (t.insert (d ++ [name]) n) := by
  have fits : t.Fits (d ++ [name]) n := ⟨by simp, by simpa using hd, fun h => by simp [vacant] at h⟩
  refine ⟨insert_base _ _ _, insert_removals _ _ _, fun q => ?_⟩
  rw [node?_insert fits]
  split
  · next e => exact .inr ⟨e ▸ vacant, n, rfl, e ▸ hn⟩
  · exact .inl rfl

theorem adds_ensure (t : FileTree) (p : Place) (names : List String) :
    Adds (fun q n => n = .directory ∧ q = names.foldl climb p) t (t.ensure p names).2 := by
  rw [ensure]
  split
  · next q t' h =>
    obtain ⟨hs, vacant, rfl⟩ := makeDirectory_eq_ok_iff.1 h
    obtain ⟨ns, m, d, rfl, hw, hd, h0, h1, -, rfl⟩ := slot_eq_ok_iff.1 hs
    refine adds_insert hd vacant ⟨rfl, ?_⟩
    rw [List.foldl_append, List.foldl_cons, List.foldl_nil, ← eq_foldl_climb_of_walk hw, climb,
      if_neg h0, if_neg h1]
  · split
    · split <;> exact Adds.refl _ t
    · exact Adds.refl _ t
  · exact Adds.refl _ t

/-- Making a directory adds directories that its names lead through. -/
theorem adds_makeFrom (t : FileTree) (p : Place) (names : List String) :
    Adds (fun q n => n = .directory ∧ OnWay p names q) t (t.makeFrom p names).2 := by
  have one (t : FileTree) (names : List String) :
      Adds (fun q n => n = .directory ∧ OnWay p names q) t (t.ensure p names).2 :=
    (adds_ensure t p names).imp fun q n h => ⟨h.1, h.2 ▸ onWay_end p names⟩
  fun_induction makeFrom t p names with
  | case1 => exact Adds.refl _ _
  | case2 t names hne t₁ he q t₂ hm ih =>
    have first := one t names
    rw [he] at first
    rw [hm] at ih
    have up : Path.above names ++ names.drop (Path.above names).length = names :=
      List.prefix_iff_eq_append.1 (Path.isPrefix_above names)
    have last := (adds_ensure t₂ q (names.drop (Path.above names).length)).imp fun r n h =>
      show n = .directory ∧ OnWay p names r by
        refine ⟨h.1, names, List.prefix_refl _, ?_⟩
        rw [h.2, eq_foldl_climb_of_walk (walk_of_makeFrom hm).1, ← List.foldl_append, up]
    refine (first.trans ?_).trans last
    exact ih.imp fun r n h => ⟨h.1, h.2.of_isPrefix (Path.isPrefix_above names)⟩
  | case3 t names hne t₁ he _ ih =>
    have first := one t names
    rw [he] at first
    exact first.trans (ih.imp fun r n h => ⟨h.1, h.2.of_isPrefix (Path.isPrefix_above names)⟩)
  | case4 t names _ _ => exact one t names

theorem adds_makeDirectories (t : FileTree) (p : Path) :
    Adds (fun q n => n = .directory ∧ OnWay (t.origin p) p.names q) t
      (t.makeDirectories p).2 := by
  rw [makeDirectories]
  split
  · exact Adds.refl _ t
  · exact adds_makeFrom t _ _

/-- Below a directory that was made, or where relative paths start, one directory is made at
most. -/
theorem adds_makeDirectories_child {t : FileTree} {p : Path} {d : Place} {n : String}
    (hn : Path.IsName n) (h0 : n ≠ ".") (h1 : n ≠ "..") (h2 : n.utf8ByteSize ≤ nameLimit)
    (hw : t.walk (t.origin p) p.names = .ok d) (hd : p.names ≠ [] → t.node? d = some .directory) :
    Adds (fun q m => m = .directory ∧ q = d ++ [n]) t (t.makeDirectories (p.child n)).2 := by
  cases hb : t.barrier d with
  | none =>
    have there := barrier_eq_none_iff.1 hb
    rcases makeDirectories_child hn h0 h1 h2 hw there with same | ⟨vacant, made⟩
    · rw [same]
      exact Adds.refl _ t
    · rw [made]
      exact adds_insert there vacant ⟨rfl, rfl⟩
  | some f =>
    -- only where relative paths start there may be no directory
    have hnames : p.names = [] := Classical.byContradiction fun h => by
      rw [barrier_eq_none_iff.2 (hd h)] at hb
      simp at hb
    rw [hnames] at hw
    cases hw
    rw [makeDirectories]
    split
    · exact Adds.refl _ t
    · rw [origin_child hn, Path.names_child hn, hnames, List.nil_append]
      obtain ⟨f', same⟩ := makeFrom_of_barrier (n := n) hb
      rw [same]
      exact Adds.refl _ t

theorem adds_openAppend {t t' : FileTree} {d : Place} {n : String} {f : OpenFile}
    (hd : t.node? d = some .directory) (h : t.openAppend (d ++ [n]) = .ok (f, t')) :
    Adds (fun q m => q = d ++ [n] ∧ ∃ g, m = .file g []) t t' := by
  rw [openAppend] at h
  split at h
  · simp at h
  · cases h
    exact Adds.refl _ t
  · next vacant =>
    cases h
    exact adds_insert hd vacant ⟨rfl, _, rfl⟩

end Keyline.FileTree
