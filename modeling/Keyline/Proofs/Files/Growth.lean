import Keyline.Proofs.Files.Places

/-!
# Making directories

Making a directory adds directories where nothing was and changes nothing else. A path that led to a
directory leads there as long as no directory is taken away; if a directory was made, its path leads
to it. Where the directory above is there, nothing but the directory itself is made.
-/
namespace Keyline.FileTree

/-- Every directory of `t` is one of `t'`. -/
structure Keeps (t t' : FileTree) : Prop where
  base : t'.base = t.base
  directory : ∀ p, t.node? p = some .directory → t'.node? p = some .directory

theorem Keeps.refl (t : FileTree) : Keeps t t := ⟨rfl, fun _ h => h⟩

theorem Keeps.trans {t u v : FileTree} (h : Keeps t u) (h' : Keeps u v) : Keeps t v :=
  ⟨h'.base.trans h.base, fun p hp => h'.directory p (h.directory p hp)⟩

theorem step_eq_ok_iff {t : FileTree} {p q : Place} {name : String} :
    t.step p name = .ok q ↔ t.node? p = some .directory ∧ q = climb p name ∧
      (name ≠ "." → name ≠ ".." → name.utf8ByteSize ≤ nameLimit ∧ (t.node? q).isSome) := by
  rw [step, climb, ← barrier_eq_none_iff]
  cases t.barrier p with
  | some f => simp
  | none =>
    dsimp only
    split
    · next h0 =>
      simp only [h0, Except.ok.injEq, ne_eq, not_true_eq_false, false_implies, and_true, true_and]
      exact eq_comm
    · split
      · next h1 =>
        simp only [h1, Except.ok.injEq, ne_eq, not_true_eq_false, false_implies, implies_true,
          and_true, true_and]
        exact eq_comm
      · next h0 h1 =>
        split
        · next h2 => simp [h0, h1, Nat.not_le.2 h2]
        · next h2 =>
          split
          · next h3 =>
            simp only [Except.ok.injEq, true_and]
            constructor
            · rintro rfl
              exact ⟨rfl, fun _ _ => ⟨Nat.not_lt.1 h2, h3⟩⟩
            · exact fun h => h.1.symm
          · next h3 =>
            simp only [reduceCtorEq, true_and, false_iff, not_and]
            rintro rfl h
            exact h3 (h h0 h1).2

theorem node?_of_step {t : FileTree} {p q : Place} {name : String} (h : t.step p name = .ok q) :
    t.node? p = some .directory := (step_eq_ok_iff.1 h).1

theorem Keeps.walk_of_isSome {t t' : FileTree} (k : Keeps t t') {p q : Place}
    {names : List String} (h : t.walk p names = .ok q) (hq : (t'.node? q).isSome) :
    t'.walk p names = .ok q := by
  induction names generalizing p with
  | nil => exact h
  | cons n ns ih =>
    rw [FileTree.walk] at h ⊢
    cases hs : t.step p n with
    | error f => simp [hs] at h
    | ok r =>
      rw [hs] at h
      have hr : (t'.node? r).isSome := by
        cases ns with
        | nil =>
          cases h
          exact hq
        | cons m ms =>
          simp only [FileTree.walk] at h
          cases hm : t.step r m with
          | error f => simp [hm] at h
          | ok s => simp [k.directory r (node?_of_step hm)]
      obtain ⟨hp, hc, hn⟩ := step_eq_ok_iff.1 hs
      rw [step_eq_ok_iff.2 ⟨k.directory p hp, hc, fun h0 h1 => ⟨(hn h0 h1).1, hr⟩⟩]
      exact ih h

theorem Keeps.walk {t t' : FileTree} (k : Keeps t t') {p q : Place} {names : List String}
    (h : t.walk p names = .ok q) (hq : t.node? q = some .directory) :
    t'.walk p names = .ok q :=
  k.walk_of_isSome h (by simp [k.directory q hq])

theorem node?_of_isPrefix {t : FileTree} {p q : Place} (hq : (t.node? q).isSome) (h : p <+: q)
    (hne : p ≠ q) : t.node? p = some .directory := by
  obtain ⟨r, rfl⟩ := h
  induction r generalizing p with
  | nil => simp at hne
  | cons n ns ih =>
    have hn : (t.node? (p ++ [n])).isSome := by
      cases ns with
      | nil => exact hq
      | cons m ms => simp [@ih (p ++ [n]) (by simpa using hq) (by simp)]
    obtain ⟨node, hnode⟩ := Option.isSome_iff_exists.1 hn
    exact node?_of_child hnode

/-- A way without double dots is open whenever what it leads to is there. -/
theorem walk_of_straight {t u : FileTree} {p q : Place} {names : List String}
    (straight : ".." ∉ names) (h : u.walk p names = .ok q) (hq : (t.node? q).isSome)
    (hd : u.node? q = some .directory → t.node? q = some .directory) :
    t.walk p names = .ok q := by
  induction names generalizing p with
  | nil => exact h
  | cons n ns ih =>
    have above := isPrefix_foldl_climb straight p
    rw [← eq_foldl_climb_of_walk h] at above
    rw [List.mem_cons, not_or] at straight
    rw [FileTree.walk] at h ⊢
    cases hs : u.step p n with
    | error f => simp [hs] at h
    | ok r =>
      rw [hs] at h
      obtain ⟨hp, hc, hn⟩ := step_eq_ok_iff.1 hs
      have hr : (t.node? r).isSome := by
        have above := isPrefix_foldl_climb straight.2 r
        rw [← eq_foldl_climb_of_walk h] at above
        by_cases e : r = q
        · rwa [e]
        · simp [node?_of_isPrefix hq above e]
      have hp' : t.node? p = some .directory := by
        by_cases e : p = q
        · exact e ▸ hd (e ▸ hp)
        · exact node?_of_isPrefix hq above e
      rw [step_eq_ok_iff.2 ⟨hp', hc, fun h0 h1 => ⟨(hn h0 h1).1, hr⟩⟩]
      exact ih straight.2 h

theorem directory_eq_ok_iff {t : FileTree} {p : Path} {d : Place} :
    t.directory p = .ok d ↔
      p.fault? = none ∧ t.walk (t.origin p) p.names = .ok d ∧ t.node? d = some .directory := by
  rw [directory, follow]
  cases p.fault? with
  | some f => simp
  | none =>
    cases t.walk (t.origin p) p.names with
    | error f => simp
    | ok q =>
      dsimp only
      cases hb : t.barrier q with
      | some f =>
        have : t.node? q ≠ some .directory := fun e => by
          rw [barrier_eq_none_iff.2 e] at hb
          simp at hb
        simp only [reduceCtorEq, true_and, Except.ok.injEq, false_iff, not_and]
        rintro rfl
        exact this
      | none =>
        have := barrier_eq_none_iff.1 hb
        simp only [Except.ok.injEq, true_and]
        constructor
        · rintro rfl
          exact ⟨rfl, this⟩
        · exact fun h => h.1

theorem follow_eq_ok_iff {t : FileTree} {p : Path} {q : Place} :
    t.follow p = .ok q ↔ p.fault? = none ∧ t.walk (t.origin p) p.names = .ok q := by
  rw [follow]
  cases p.fault? <;> simp

theorem lookup_eq_ok_iff {t : FileTree} {p : Path} {q : Place} :
    t.lookup p = .ok q ↔ p.text ≠ "" ∧ t.follow p = .ok q ∧
      (p.endsInSlash = true → t.node? q = some .directory) := by
  rw [lookup]
  split
  · next h => simp [h]
  · next h =>
    rw [and_iff_right h]
    cases hf : t.follow p with
    | error f => simp
    | ok r =>
      dsimp only
      have hd : t.isDirectory r = true ↔ t.node? r = some .directory := decide_eq_true_iff
      split
      · next hs =>
        rw [Bool.and_eq_true, Bool.not_eq_true'] at hs
        simp only [reduceCtorEq, Except.ok.injEq, false_iff, not_and]
        rintro rfl hdir
        rw [hd.2 (hdir hs.1)] at hs
        simp at hs
      · next hs =>
        simp only [Except.ok.injEq, iff_self_and]
        rintro rfl he
        exact hd.1 (by simpa [he] using hs)

theorem lookup_child {t : FileTree} {p : Path} {d : Place} {n : String}
    (hn : Path.IsName n) (h0 : n ≠ ".") (h1 : n ≠ "..") (h2 : n.utf8ByteSize ≤ nameLimit)
    (hw : t.walk (t.origin p) p.names = .ok d) (hf : (p.child n).fault? = none)
    (hd : (t.node? (d ++ [n])).isSome) : t.lookup (p.child n) = .ok (d ++ [n]) := by
  have hup : t.node? d = some .directory := by
    obtain ⟨m, hm⟩ := Option.isSome_iff_exists.1 hd
    exact node?_of_child hm
  have htext : (p.child n).text ≠ "" := by
    intro h
    have := Path.names_child (p := p) hn
    rw [Path.names, h] at this
    simp [Path.pieces] at this
  have hfollow : t.follow (p.child n) = .ok (d ++ [n]) := by
    rw [follow, hf, origin_child hn, Path.names_child hn, walk_append, hw]
    simp only [Except.bind, walk, step]
    rw [barrier_eq_none_iff.2 hup]
    simp [h0, h1, hd, Nat.not_lt.2 h2]
  refine lookup_eq_ok_iff.2 ⟨htext, hfollow, fun h => ?_⟩
  rw [Path.endsInSlash_child hn] at h
  simp at h

theorem origin_of_base {t t' : FileTree} (h : t'.base = t.base) (p : Path) :
    t'.origin p = t.origin p := by
  unfold origin
  rw [h]

theorem Keeps.directory_eq {t t' : FileTree} (k : Keeps t t') {p : Path} {d : Place}
    (h : t.directory p = .ok d) : t'.directory p = .ok d := by
  obtain ⟨hf, hw, hd⟩ := directory_eq_ok_iff.1 h
  refine directory_eq_ok_iff.2 ⟨hf, ?_, k.directory d hd⟩
  rw [origin_of_base k.base]
  exact k.walk hw hd

/-- Nothing of `t` is different in `t'`, and what is new are directories. -/
structure Grows (t t' : FileTree) : Prop where
  base : t'.base = t.base
  removals : t'.removals = t.removals
  node? : ∀ p, t'.node? p = t.node? p ∨ (t.node? p = none ∧ t'.node? p = some .directory)

theorem Grows.refl (t : FileTree) : Grows t t := ⟨rfl, rfl, fun _ => .inl rfl⟩

theorem Grows.trans {t u v : FileTree} (h : Grows t u) (h' : Grows u v) : Grows t v := by
  refine ⟨h'.base.trans h.base, h'.removals.trans h.removals, fun p => ?_⟩
  rcases h'.node? p with h1 | ⟨h1, h2⟩
  · rw [h1]
    exact h.node? p
  · rcases h.node? p with h3 | ⟨_, h3⟩
    · exact .inr ⟨h3 ▸ h1, h2⟩
    · simp [h1] at h3

theorem Grows.keeps {t t' : FileTree} (g : Grows t t') : Keeps t t' :=
  ⟨g.base, fun p hp => by rcases g.node? p with h | ⟨h, _⟩ <;> simp_all⟩

theorem Grows.file_iff {t t' : FileTree} (g : Grows t t') {p : Place} {n : Nat} {bs : Bytes} :
    t'.node? p = some (.file n bs) ↔ t.node? p = some (.file n bs) := by
  rcases g.node? p with h | ⟨h, h'⟩
  · rw [h]
  · simp [h, h']

theorem Grows.isFile_eq {t t' : FileTree} (g : Grows t t') (p : Place) :
    t'.isFile p = t.isFile p := by
  unfold isFile
  rcases g.node? p with h | ⟨h, h'⟩
  · rw [h]
  · rw [h, h']

theorem insert_base (t : FileTree) (p : Place) (n : Node) : (t.insert p n).base = t.base := by
  rw [insert]
  split <;> rfl

theorem insert_removals (t : FileTree) (p : Place) (n : Node) :
    (t.insert p n).removals = t.removals := by
  rw [insert]
  split <;> rfl

theorem fits_directory {t : FileTree} {d : Place} {n : String}
    (hd : t.node? d = some .directory) : t.Fits (d ++ [n]) .directory :=
  ⟨by simp, by simpa using hd, fun _ => rfl⟩

theorem grows_insert {t : FileTree} {d : Place} {n : String} (hd : t.node? d = some .directory)
    (hn : t.node? (d ++ [n]) = none) : Grows t (t.insert (d ++ [n]) .directory) := by
  refine ⟨insert_base _ _ _, insert_removals _ _ _, fun p => ?_⟩
  rw [node?_insert (fits_directory hd)]
  by_cases h : d ++ [n] = p
  · subst h
    exact .inr ⟨hn, by simp⟩
  · simp [h]

theorem slot_eq_ok_iff {t : FileTree} {p q : Place} {names : List String} :
    t.slot p names = .ok q ↔ ∃ ns n d, names = ns ++ [n] ∧ t.walk p ns = .ok d ∧
      t.node? d = some .directory ∧ n ≠ "." ∧ n ≠ ".." ∧ n.utf8ByteSize ≤ nameLimit ∧
      q = d ++ [n] := by
  rcases List.eq_nil_or_concat names with rfl | ⟨ns, n, rfl⟩
  · simp [slot]
  · rw [slot, List.concat_eq_append, List.getLast?_concat, List.dropLast_concat]
    dsimp only
    constructor
    · intro h
      cases hw : t.walk p ns with
      | error f => simp [hw] at h
      | ok d =>
        rw [hw] at h
        dsimp only at h
        cases hb : t.barrier d with
        | some f => simp [hb] at h
        | none =>
          rw [hb] at h
          dsimp only at h
          split at h
          · simp at h
          · next h0 =>
            split at h
            · simp at h
            · next h1 =>
              rw [not_or] at h0
              cases h
              exact ⟨ns, n, d, rfl, hw, barrier_eq_none_iff.1 hb, h0.1, h0.2, by omega, rfl⟩
    · rintro ⟨ms, m, d, he, hw, hd, h0, h1, h2, rfl⟩
      obtain ⟨rfl, rfl⟩ := List.append_singleton_inj.1 he
      rw [hw]
      dsimp only
      rw [barrier_eq_none_iff.2 hd]
      dsimp only
      rw [if_neg (not_or.2 ⟨h0, h1⟩), if_neg (by omega)]

theorem makeDirectory_eq_ok_iff {t t' : FileTree} {p q : Place} {names : List String} :
    t.makeDirectory p names = .ok (q, t') ↔
      t.slot p names = .ok q ∧ t.node? q = none ∧ t' = t.insert q .directory := by
  rw [makeDirectory]
  cases t.slot p names with
  | error f => simp
  | ok r =>
    dsimp only
    split
    · next h =>
      simp only [reduceCtorEq, Except.ok.injEq, false_iff, not_and]
      rintro rfl h0
      simp [h0] at h
    · next h =>
      rw [Option.not_isSome_iff_eq_none] at h
      simp only [Except.ok.injEq, Prod.mk.injEq]
      constructor
      · rintro ⟨rfl, rfl⟩
        exact ⟨rfl, h, rfl⟩
      · rintro ⟨rfl, -, rfl⟩
        exact ⟨rfl, rfl⟩

theorem grows_makeDirectory {t t' : FileTree} {p q : Place} {names : List String}
    (h : t.makeDirectory p names = .ok (q, t')) : Grows t t' := by
  obtain ⟨hs, hn, rfl⟩ := makeDirectory_eq_ok_iff.1 h
  obtain ⟨ns, n, d, -, -, hd, -, -, -, rfl⟩ := slot_eq_ok_iff.1 hs
  exact grows_insert hd hn

theorem walk_of_makeDirectory {t t' : FileTree} {p q : Place} {names : List String}
    (h : t.makeDirectory p names = .ok (q, t')) :
    t'.walk p names = .ok q ∧ t'.node? q = some .directory := by
  have g := grows_makeDirectory h
  obtain ⟨hs, hn, rfl⟩ := makeDirectory_eq_ok_iff.1 h
  obtain ⟨ns, n, d, rfl, hw, hd, h0, h1, h2, rfl⟩ := slot_eq_ok_iff.1 hs
  have hq : (t.insert (d ++ [n]) .directory).node? (d ++ [n]) = some .directory := by
    rw [node?_insert (fits_directory hd), if_pos rfl]
  refine ⟨?_, hq⟩
  rw [walk_append, g.keeps.walk hw hd]
  simp only [Except.bind, FileTree.walk, FileTree.step]
  rw [barrier_eq_none_iff.2 (g.keeps.directory d hd)]
  simp [h0, h1, hq, Nat.not_lt.2 h2]

theorem grows_ensure (t : FileTree) (p : Place) (names : List String) :
    Grows t (t.ensure p names).2 := by
  rw [ensure]
  split
  · next h => exact grows_makeDirectory h
  · split
    · split <;> exact Grows.refl t
    · exact Grows.refl t
  · exact Grows.refl t

theorem walk_of_ensure {t t' : FileTree} {p q : Place} {names : List String}
    (h : t.ensure p names = (.ok q, t')) :
    t'.walk p names = .ok q ∧ t'.node? q = some .directory := by
  rw [ensure] at h
  split at h
  · next hm =>
    cases h
    exact walk_of_makeDirectory hm
  · split at h
    · next hw =>
      split at h
      · next hd =>
        cases h
        exact ⟨hw, of_decide_eq_true hd⟩
      · simp at h
    · simp at h
  · simp at h

theorem grows_makeFrom (t : FileTree) (p : Place) (names : List String) :
    Grows t (t.makeFrom p names).2 := by
  fun_induction makeFrom t p names with
  | case1 => exact Grows.refl _
  | case2 t names hne t₁ he q t₂ hm ih =>
    have g1 := grows_ensure t p names
    rw [he] at g1
    rw [hm] at ih
    exact (g1.trans ih).trans (grows_ensure _ _ _)
  | case3 t names hne t₁ he _ ih =>
    have g1 := grows_ensure t p names
    rw [he] at g1
    exact g1.trans ih
  | case4 t names _ _ => exact grows_ensure _ _ _

theorem walk_of_makeFrom {t t' : FileTree} {p q : Place} {names : List String}
    (h : t.makeFrom p names = (.ok q, t')) :
    t'.walk p names = .ok q ∧ (names ≠ [] → t'.node? q = some .directory) := by
  fun_induction makeFrom t p names generalizing q t' with
  | case1 =>
    cases h
    exact ⟨rfl, fun h => absurd rfl h⟩
  | case2 t names hne t₁ he r t₂ hm ih =>
    obtain ⟨hw, hd⟩ := walk_of_ensure h
    refine ⟨?_, fun _ => hd⟩
    have g : Grows t₂ t' := by
      have := grows_ensure t₂ r (names.drop (Path.above names).length)
      rwa [h] at this
    obtain ⟨hw', hd'⟩ := ih hm
    have hn : Path.above names ++ names.drop (Path.above names).length = names :=
      (List.prefix_iff_eq_append.1 (Path.isPrefix_above names))
    have ha : t'.walk p (Path.above names) = .ok r := by
      by_cases h0 : Path.above names = []
      · rw [h0] at hw' ⊢
        exact hw'
      · exact g.keeps.walk hw' (hd' h0)
    calc t'.walk p names
        = t'.walk p (Path.above names ++ names.drop (Path.above names).length) := by rw [hn]
      _ = .ok q := by
        rw [walk_append, ha]
        exact hw
  | case3 t names hne t₁ he hr ih => exact absurd h (hr _ _)
  | case4 t names _ hr => exact ⟨(walk_of_ensure h).1, fun _ => (walk_of_ensure h).2⟩

theorem grows_makeDirectories (t : FileTree) (p : Path) : Grows t (t.makeDirectories p).2 := by
  rw [makeDirectories]
  split
  · exact Grows.refl t
  · exact grows_makeFrom _ _ _

/-- A path whose directory was made leads to it; only an empty path is not followed at all. -/
theorem directory_of_makeDirectories {t t' : FileTree} {p : Path} {q : Place}
    (h : t.makeDirectories p = (.ok q, t')) :
    p.fault? = none ∧ t'.walk (t'.origin p) p.names = .ok q ∧
      (p.names ≠ [] → t'.directory p = .ok q) := by
  have g := grows_makeDirectories t p
  rw [h] at g
  rw [makeDirectories] at h
  split at h
  · simp at h
  · next hf =>
    obtain ⟨hw, hd⟩ := walk_of_makeFrom h
    rw [← origin_of_base g.base] at hw
    exact ⟨hf, hw, fun hn => directory_eq_ok_iff.2 ⟨hf, hw, hd hn⟩⟩

theorem ensure_of_absent {t : FileTree} {p q : Place} {names : List String}
    (hs : t.slot p names = .ok q) (hq : t.node? q = none) :
    t.ensure p names = (.ok q, t.insert q .directory) := by
  rw [ensure, makeDirectory_eq_ok_iff.2 ⟨hs, hq, rfl⟩]

theorem ensure_of_present {t : FileTree} {p q : Place} {names : List String} {n : Node}
    (hs : t.slot p names = .ok q) (hq : t.node? q = some n) :
    ∃ r, t.ensure p names = (r, t) ∧ r ≠ .error .absent := by
  have hm : t.makeDirectory p names = .error .occupied := by
    rw [makeDirectory, hs]
    simp [hq]
  rw [ensure, hm]
  cases t.walk p names with
  | error f => exact ⟨_, rfl, by simp⟩
  | ok r => by_cases hr : t.isDirectory r <;> simp [hr]

theorem makeFrom_of_ensure {t t' : FileTree} {p : Place} {names : List String}
    {r : Except Fault Place} (hn : names ≠ []) (h : t.ensure p names = (r, t'))
    (hr : r ≠ .error .absent) : t.makeFrom p names = (r, t') := by
  rw [makeFrom, dif_neg hn, h]
  split
  · next he =>
    cases he
    exact absurd rfl hr
  · rfl

/-- In a directory nothing is made but the directory that is asked for. -/
theorem makeDirectories_child {t : FileTree} {p : Path} {d : Place} {n : String}
    (hn : Path.IsName n) (h0 : n ≠ ".") (h1 : n ≠ "..") (h2 : n.utf8ByteSize ≤ nameLimit)
    (hw : t.walk (t.origin p) p.names = .ok d) (hd : t.node? d = some .directory) :
    (t.makeDirectories (p.child n)).2 = t ∨
      (t.node? (d ++ [n]) = none ∧
        (t.makeDirectories (p.child n)).2 = t.insert (d ++ [n]) .directory) := by
  have hs : t.slot (t.origin p) (p.names ++ [n]) = .ok (d ++ [n]) :=
    slot_eq_ok_iff.2 ⟨_, _, d, rfl, hw, hd, h0, h1, h2, rfl⟩
  rw [makeDirectories]
  split
  · exact .inl rfl
  · rw [origin_child hn, Path.names_child hn]
    cases hq : t.node? (d ++ [n]) with
    | none =>
      rw [makeFrom_of_ensure (by simp) (ensure_of_absent hs hq) (by simp)]
      exact .inr ⟨rfl, rfl⟩
    | some node =>
      obtain ⟨r, he, hr⟩ := ensure_of_present hs hq
      rw [makeFrom_of_ensure (by simp) he hr]
      exact .inl rfl

/-- Below what is no directory nothing is made. -/
theorem makeFrom_of_barrier {t : FileTree} {p : Place} {n : String} {f : Fault}
    (h : t.barrier p = some f) : ∃ f', t.makeFrom p [n] = (.error f', t) := by
  have hm : t.makeDirectory p [n] = .error f := by simp [makeDirectory, slot, walk, h]
  have hf : f = .absent ∨ f = .notDirectory := by
    unfold barrier at h
    split at h
    · simp at h
    · exact .inr (Option.some.inj h).symm
    · exact .inl (Option.some.inj h).symm
  have ha : Path.above [n] = [] := by by_cases hn : n = "." <;> simp [Path.above, hn]
  rcases hf with rfl | rfl
  · -- the directory above is tried next, which is where the names start
    have he : t.ensure p [n] = (.error .absent, t) := by rw [ensure, hm]
    refine ⟨.absent, ?_⟩
    rw [makeFrom, dif_neg (by simp), he]
    dsimp only
    rw [ha, makeFrom, dif_pos rfl]
    exact he
  · have he : t.ensure p [n] = (.error .notDirectory, t) := by rw [ensure, hm]
    exact ⟨.notDirectory, makeFrom_of_ensure (by simp) he (by simp)⟩

end Keyline.FileTree
