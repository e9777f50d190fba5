import Keyline.Proofs.Files.Contents
import Keyline.Proofs.Snapshots.Names
import Keyline.Snapshots.Archive

/-!
# What an archive lists

The list of an archive holds exactly the snapshots at the place where its path leads, in the byte
order of their names. The last of the list is the snapshot whose name comes behind all others, and
restoring reads that one alone.
-/
namespace Keyline.Archive

open FileTree Snapshots

theorem isSnapshot_iff {t : FileTree} {dir : Path} {d : Place} {n : String} :
    isSnapshot t dir d n = true ↔ (dir.child n).fault? = none ∧
      (∃ g bs, t.node? (d ++ [n]) = some (.file g bs)) ∧ (Snapshots.timestamp? n).isSome := by
  rw [isSnapshot, Bool.and_eq_true, Bool.and_eq_true, isFile_iff, Option.isNone_iff_eq_none,
    and_assoc]

theorem isSnapshot_empty (dir : Path) (d : Place) (n : String) :
    isSnapshot .empty dir d n = false := by
  rw [← Bool.not_eq_true, isSnapshot_iff]
  rintro ⟨-, ⟨g, bs, hn⟩, -⟩
  simp [node?, empty, find?] at hn

theorem isName_of_timestamp? {m : String} (h : (timestamp? m).isSome) : Path.IsName m := by
  obtain ⟨n, hn⟩ := Option.isSome_iff_exists.1 h
  obtain ⟨ds, rfl, -, hd, -, -⟩ := timestamp?_eq_some_iff.1 hn
  exact isName_nameOf hd

theorem exists_digits {t : FileTree} {dir : Path} {d : Place} {m : String}
    (h : isSnapshot t dir d m = true) : ∃ ds, m = nameOf ds ∧ (∀ c ∈ ds, c.isDigit = true) ∧
      timestamp? m = some (number ds) := by
  obtain ⟨n, hn⟩ := Option.isSome_iff_exists.1 (isSnapshot_iff.1 h).2.2
  obtain ⟨ds, hds, -, hd, rfl, -⟩ := timestamp?_eq_some_iff.1 hn
  exact ⟨ds, hds, hd, hn⟩

theorem isSnapshot_congr {t t' : FileTree} {dir : Path} {d : Place} {n : String}
    (h : t'.isFile (d ++ [n]) = t.isFile (d ++ [n])) :
    isSnapshot t' dir d n = isSnapshot t dir d n := by
  unfold isSnapshot
  rw [h]

theorem mem_list_iff {t : FileTree} {p : Place} {ns : List String} (h : t.list p = .ok ns)
    {n : String} : n ∈ ns ↔ (t.node? (p ++ [n])).isSome := by
  have hp : p ++ [n] ≠ [] := by simp
  rw [list] at h
  split at h
  · cases h
    rw [List.mem_filterMap, Option.isSome_iff_exists]
    constructor
    · rintro ⟨e, he, hn⟩
      split at hn
      · next hd =>
        obtain ⟨q, hq⟩ := List.getLast?_eq_some_iff.1 hn
        rw [hq, List.dropLast_concat] at hd
        rw [hd] at hq
        exact ⟨e.2, (mem_nodes_iff hp).1 (hq ▸ he)⟩
      · simp at hn
    · rintro ⟨node, hn⟩
      exact ⟨_, (mem_nodes_iff hp).2 hn, by simp⟩
  · simp at h
  · simp at h

theorem nameOrder_iff {m n : String} : nameOrder m n = true ↔ ¬ Text.Before n m := by
  rw [nameOrder, Text.Before, decide_eq_true_eq, List.not_lt]

theorem nameOrder_trans (l m n : String) (h : nameOrder l m = true) (h' : nameOrder m n = true) :
    nameOrder l n = true := by
  rw [nameOrder, decide_eq_true_eq] at *
  exact List.le_trans h h'

theorem nameOrder_total (m n : String) : (nameOrder m n || nameOrder n m) = true := by
  rw [Bool.or_eq_true, nameOrder_iff, nameOrder_iff]
  by_cases h : Text.Before n m
  · exact .inr h.asymm
  · exact .inl h

theorem getLast?_eq_some_iff_of_sorted {ns : List String} {m : String}
    (h : ns.Pairwise fun a b => nameOrder a b = true) :
    ns.getLast? = some m ↔ m ∈ ns ∧ ∀ n ∈ ns, n = m ∨ Text.Before n m := by
  have hlast {l : String} (hl : ns.getLast? = some l) : ∀ n ∈ ns, n = l ∨ Text.Before n l := by
    obtain ⟨ms, rfl⟩ := List.getLast?_eq_some_iff.1 hl
    intro n hn
    rcases List.mem_append.1 hn with hn | hn
    · have hnl := nameOrder_iff.1 ((List.pairwise_append.1 h).2.2 n hn l List.mem_cons_self)
      rcases Text.before_or_eq_or_before n l with hb | rfl | hb
      · exact .inr hb
      · exact .inl rfl
      · exact absurd hb hnl
    · exact .inl (List.mem_singleton.1 hn)
  constructor
  · intro hm
    exact ⟨List.mem_of_getLast? hm, hlast hm⟩
  · rintro ⟨hm, hmax⟩
    cases hl : ns.getLast? with
    | none =>
      rw [List.getLast?_eq_none_iff] at hl
      simp [hl] at hm
    | some l =>
      rcases hmax l (List.mem_of_getLast? hl) with rfl | hb
      · rfl
      · rcases hlast hl m hm with rfl | hb'
        · rfl
        · exact absurd hb hb'.asymm

theorem namesIn_cases {t : FileTree} {dir : Path} {ns : List String}
    (h : namesIn t dir = .ok ns) : (ns.Pairwise fun a b => nameOrder a b = true) ∧
      ((∃ f, t.lookup dir = .error f ∧ ns = []) ∨ ∃ d, t.lookup dir = .ok d ∧
        t.node? d = some .directory ∧ ∀ n, n ∈ ns ↔ isSnapshot t dir d n = true) := by
  rw [namesIn] at h
  split at h
  · next f hf =>
    cases h
    exact ⟨List.Pairwise.nil, .inl ⟨f, hf, rfl⟩⟩
  · next d hd =>
    split at h
    · simp at h
    · next ms hm =>
      cases h
      refine ⟨List.pairwise_mergeSort nameOrder_trans nameOrder_total _, .inr ⟨d, hd, ?_, ?_⟩⟩
      · rw [list] at hm
        split at hm
        · assumption
        · simp at hm
        · simp at hm
      · intro n
        rw [List.mem_mergeSort, List.mem_filter, mem_list_iff hm, and_iff_right_iff_imp]
        intro hn
        obtain ⟨-, ⟨g, bs, hf⟩, -⟩ := isSnapshot_iff.1 hn
        simp [hf]

theorem nodup_of_list {t : FileTree} {p : Place} {ns : List String} (h : t.list p = .ok ns) :
    ns.Nodup := by
  rw [list] at h
  split at h
  · cases h
    rw [List.Nodup, List.pairwise_filterMap]
    apply (List.pairwise_map.1 t.nodup).imp
    intro e f hne m hm n hn hmn
    simp only [Option.ite_none_right_eq_some] at hm hn
    apply hne
    obtain ⟨q, hq⟩ := List.getLast?_eq_some_iff.1 hm.2
    obtain ⟨r, hr⟩ := List.getLast?_eq_some_iff.1 hn.2
    have hqp := hm.1
    have hrp := hn.1
    rw [hq, List.dropLast_concat] at hqp
    rw [hr, List.dropLast_concat] at hrp
    rw [hq, hr, hqp, hrp, hmn]
  · simp at h
  · simp at h

theorem nodup_of_namesIn {t : FileTree} {dir : Path} {ns : List String}
    (h : namesIn t dir = .ok ns) : ns.Nodup := by
  rw [namesIn] at h
  split at h
  · cases h
    exact List.nodup_nil
  · split at h
    · simp at h
    · next ms hm =>
      cases h
      rw [(List.mergeSort_perm _ _).nodup_iff]
      exact (nodup_of_list hm).filter _

theorem namesIn_unique {t : FileTree} {dir : Path} {ms ns : List String}
    (h : namesIn t dir = .ok ns) (order : ms.Pairwise fun a b => nameOrder a b = true)
    (once : ms.Nodup) (hm : ∀ m, m ∈ ns ↔ m ∈ ms) : namesIn t dir = .ok ms := by
  have perm : ns.Perm ms := (List.perm_ext_iff_of_nodup (nodup_of_namesIn h) once).2 hm
  rw [h, perm.eq_of_pairwise (fun a b _ _ hab hba => ?_) (namesIn_cases h).1 order]
  exact Text.eq_of_not_before (nameOrder_iff.1 hba) (nameOrder_iff.1 hab)

/-- One name more, behind all that were listed before. -/
theorem namesIn_concat {t u : FileTree} {dir : Path} {ms ns : List String} {name : String}
    (hm : namesIn t dir = .ok ms) (hn : namesIn u dir = .ok ns)
    (more : ∀ m, m ∈ ns ↔ m = name ∨ m ∈ ms) (before : ∀ m ∈ ms, Text.Before m name) :
    namesIn u dir = .ok (ms ++ [name]) := by
  apply namesIn_unique hn
  · rw [List.pairwise_append]
    refine ⟨(namesIn_cases hm).1, List.pairwise_singleton _ _, fun m hms l hl => ?_⟩
    rw [List.mem_singleton.1 hl, nameOrder_iff]
    exact (before m hms).asymm
  · rw [List.nodup_append]
    refine ⟨nodup_of_namesIn hm, by simp, fun m hms l hl e => ?_⟩
    obtain rfl := List.mem_singleton.1 hl
    exact (before m hms).ne e
  · intro m
    rw [more, List.mem_append, List.mem_singleton, or_comm]

/-- A directory that is there lists its snapshots in order, however it holds them. -/
theorem namesIn_of_perm {t : FileTree} {dir : Path} {d : Place} {ls ms : List String}
    (hl : t.lookup dir = .ok d) (hd : t.list d = .ok ls)
    (perm : (ls.filter (isSnapshot t dir d)).Perm ms)
    (order : ms.Pairwise fun a b => nameOrder a b = true) : namesIn t dir = .ok ms := by
  obtain ⟨ns, hns⟩ : ∃ ns, namesIn t dir = .ok ns := by
    rw [namesIn, hl]
    dsimp only
    rw [hd]
    exact ⟨_, rfl⟩
  have once : ms.Nodup := perm.nodup_iff.1 ((nodup_of_list hd).filter _)
  apply namesIn_unique hns order once
  intro m
  rw [← perm.mem_iff, List.mem_filter, mem_list_iff hd]
  obtain ⟨-, ⟨f, hf, -⟩ | ⟨e, he, -, hm⟩⟩ := namesIn_cases hns
  · rw [hl] at hf
    simp at hf
  · rw [hl] at he
    cases he
    rw [hm, iff_and_self]
    intro hs
    obtain ⟨-, ⟨g, bs, hb⟩, -⟩ := isSnapshot_iff.1 hs
    simp [hb]

def IsNewest (t : FileTree) (dir : Path) (d : Place) (name : String) : Prop :=
  isSnapshot t dir d name = true ∧
    ∀ n, isSnapshot t dir d n = true → n = name ∨ Text.Before n name

theorem text_ne_of_lookup {t : FileTree} {p : Path} {d : Place} (h : t.lookup p = .ok d) :
    p.text ≠ "" := (lookup_eq_ok_iff.1 h).1

theorem lookup_of_directory {t : FileTree} {p : Path} {d : Place} (hp : p.text ≠ "")
    (h : t.directory p = .ok d) : t.lookup p = .ok d := by
  obtain ⟨hf, hw, hd⟩ := directory_eq_ok_iff.1 h
  exact lookup_eq_ok_iff.2 ⟨hp, follow_eq_ok_iff.2 ⟨hf, hw⟩, fun _ => hd⟩

theorem namesIn_of_absent {t : FileTree} {dir : Path} {f : Fault} (h : t.lookup dir = .error f) :
    namesIn t dir = .ok [] := by
  rw [namesIn, h]

theorem namesIn_of_file {t : FileTree} {dir : Path} {d : Place} (hl : t.lookup dir = .ok d)
    (file : t.isFile d = true) : namesIn t dir = .error (.io Fault.notDirectory.message) := by
  obtain ⟨g, bs, hn⟩ := isFile_iff.1 file
  simp [namesIn, hl, list, hn]

theorem exists_namesIn {t : FileTree} {dir : Path} {d : Place} (hl : t.lookup dir = .ok d)
    (hd : t.node? d = some .directory) : ∃ ns, namesIn t dir = .ok ns ∧
      (∀ n, n ∈ ns ↔ isSnapshot t dir d n = true) ∧
      ∀ m, ns.getLast? = some m ↔ IsNewest t dir d m := by
  obtain ⟨ns, hns⟩ : ∃ ns, namesIn t dir = .ok ns := by
    rw [namesIn, hl]
    dsimp only
    rw [list, hd]
    exact ⟨_, rfl⟩
  obtain ⟨hs, ⟨f, hf, -⟩ | ⟨d', hd', -, hm⟩⟩ := namesIn_cases hns
  · rw [hl] at hf
    simp at hf
  · rw [hl] at hd'
    cases hd'
    refine ⟨ns, hns, hm, fun m => ?_⟩
    rw [getLast?_eq_some_iff_of_sorted hs, hm]
    simp only [hm, IsNewest]

theorem exists_isNewest {t : FileTree} {dir : Path} {d : Place} {n : String}
    (hl : t.lookup dir = .ok d) (hd : t.node? d = some .directory)
    (hn : isSnapshot t dir d n = true) : ∃ m, IsNewest t dir d m := by
  obtain ⟨ns, -, hm, hlast⟩ := exists_namesIn hl hd
  cases h : ns.getLast? with
  | none =>
    rw [List.getLast?_eq_none_iff] at h
    have := (hm n).2 hn
    simp [h] at this
  | some m => exact ⟨m, (hlast m).1 h⟩

theorem attach_eq_ok_iff {t : FileTree} {dir : Path} {a : Archive} :
    attach t dir = .ok a ↔ ∃ ns, namesIn t dir = .ok ns ∧
      a = ⟨dir, (ns.getLast?.bind Snapshots.timestamp?).getD 0⟩ := by
  rw [attach]
  cases namesIn t dir <;> simp [Except.map, eq_comm]

theorem dir_of_attach {t : FileTree} {dir : Path} {a : Archive} (h : attach t dir = .ok a) :
    a.dir = dir := by
  obtain ⟨ns, -, rfl⟩ := attach_eq_ok_iff.1 h
  rfl

theorem node?_of_attach {t : FileTree} {dir : Path} {a : Archive} {d : Place}
    (h : attach t dir = .ok a) (hl : t.lookup dir = .ok d) : t.node? d = some .directory := by
  obtain ⟨ns, hns, -⟩ := attach_eq_ok_iff.1 h
  obtain ⟨-, ⟨f, hf, -⟩ | ⟨d', hd', hdir, -⟩⟩ := namesIn_cases hns
  · rw [hl] at hf
    simp at hf
  · rw [hl] at hd'
    cases hd'
    exact hdir

theorem last_of_attach {t : FileTree} {dir : Path} {a : Archive} {d : Place} {ds : List Char}
    (h : attach t dir = .ok a) (hl : t.lookup dir = .ok d) (hd : t.node? d = some .directory)
    (hm : IsNewest t dir d (nameOf ds)) : a.last = number ds := by
  obtain ⟨ns, hns, -, hlast⟩ := exists_namesIn hl hd
  obtain ⟨ns', hns', rfl⟩ := attach_eq_ok_iff.1 h
  rw [hns] at hns'
  cases hns'
  obtain ⟨es, he, -, ht⟩ := exists_digits hm.1
  obtain rfl := nameOf_injective he
  simp [(hlast _).2 hm, ht]

theorem newest_eq {t : FileTree} {a : Archive} {d : Place} {m : String}
    (hl : t.lookup a.dir = .ok d) (hd : t.node? d = some .directory)
    (hm : IsNewest t a.dir d m) : a.newest t = .ok (some (a.dir.child m)) := by
  obtain ⟨ns, hns, -, hlast⟩ := exists_namesIn hl hd
  rw [newest, names, hns]
  simp [Except.map, (hlast m).2 hm]

/-- What is restored depends on the newest snapshot alone. -/
theorem restore_congr {t t' : FileTree} {a b : Archive} {d : Place} {m : String}
    (hab : b.dir = a.dir) (hl : t.lookup a.dir = .ok d) (hd : t.node? d = some .directory)
    (hm : IsNewest t a.dir d m) (hl' : t'.lookup a.dir = .ok d)
    (hd' : t'.node? d = some .directory) (hm' : IsNewest t' a.dir d m)
    (hn : t'.node? (d ++ [m]) = t.node? (d ++ [m])) : b.restore t' = a.restore t := by
  obtain ⟨ns, hns, -, hlast⟩ := exists_namesIn hl hd
  obtain ⟨ns', hns', -, hlast'⟩ := exists_namesIn hl' hd'
  have hr : t'.read (d ++ [m]) = t.read (d ++ [m]) := by
    unfold FileTree.read
    rw [hn]
  unfold restore names
  rw [hab, hns, hns']
  dsimp only
  rw [(hlast m).2 hm, (hlast' m).2 hm', hl, hl']
  dsimp only [Except.bind]
  rw [hr]

theorem restore_eq_ok_iff {t : FileTree} {a : Archive} {s : Store} :
    a.restore t = .ok s ↔ ∃ ns, namesIn t a.dir = .ok ns ∧
      ((ns = [] ∧ s = ∅) ∨ ∃ m d bs, ns.getLast? = some m ∧ t.lookup a.dir = .ok d ∧
        t.read (d ++ [m]) = .ok bs ∧ Snapshots.decode bs = .ok s) := by
  rw [restore, names]
  cases namesIn t a.dir with
  | error e => simp
  | ok ns =>
    dsimp only
    cases hl : ns.getLast? with
    | none =>
      rw [List.getLast?_eq_none_iff] at hl
      simp [hl, eq_comm]
    | some m =>
      have hne : ns ≠ [] := by
        rintro rfl
        simp at hl
      cases hd : t.lookup a.dir with
      | error f => simp [hne, Except.bind]
      | ok d =>
        cases hr : t.read (d ++ [m]) with
        | error f => simp [hl, hr, hne, Except.bind]
        | ok bs => cases hb : Snapshots.decode bs <;> simp [hl, hr, hb, hne, Except.bind]

end Keyline.Archive
