import Keyline.Proofs.Snapshots.RoundTrip
import Keyline.Proofs.Snapshots.Writing

/-!
# When a new snapshot is found

A new snapshot is found from then on if its name comes behind all others. Names are compared digit
by digit, timestamps as numbers, and a new timestamp is only known to exceed the one of the name
that came last. So a short name with a large first digit keeps every longer one from being found.
The exact condition is that the newest timestamp, filled up with zeros to the length of the new one,
does not exceed it; with equally many digits that is always so.
-/
namespace Keyline.Archive

open FileTree Snapshots

/-- From now on `path` is found to hold the newest snapshot, and `s` is restored. -/
structure Found (t : FileTree) (a : Archive) (path : Path) (s : Store) : Prop where
  last : ∃ ps, a.paths t = .ok ps ∧ ps.getLast? = some path
  newest : a.newest t = .ok (some path)
  restored : ∃ b, attach t a.dir = .ok b ∧ b.restore t = .ok s

/-- The digits of `n` do not come before `ds`: filled up to one length they stand for no smaller
number, and where that is the same they are no fewer. -/
def ComesBehind (n : Nat) (ds : List Char) : Prop :=
  padded ds (Nat.toDigits 10 n).length ≤ padded (Nat.toDigits 10 n) ds.length ∧
    (padded ds (Nat.toDigits 10 n).length = padded (Nat.toDigits 10 n) ds.length →
      ds.length ≤ (Nat.toDigits 10 n).length)

theorem padded_self_length (ds : List Char) (l : Nat) (h : l ≤ ds.length) :
    padded ds l = number ds := by
  rw [padded, Nat.sub_eq_zero_of_le h, Nat.pow_zero, Nat.mul_one]

theorem eq_of_number_eq {ds es : List Char} (hd : ∀ c ∈ ds, c.isDigit = true)
    (he : ∀ c ∈ es, c.isDigit = true) (hl : ds.length = es.length)
    (hn : number ds = number es) : ds = es := by
  apply nameOf_injective
  apply Text.eq_of_not_before
  · rw [before_nameOf_iff_of_length hd he hl]
    omega
  · rw [before_nameOf_iff_of_length he hd hl.symm]
    omega

theorem comesBehind_iff {n : Nat} {ds : List Char} (hd : ∀ c ∈ ds, c.isDigit = true) :
    ComesBehind n ds ↔ nameOf ds = fileName n ∨ Text.Before (nameOf ds) (fileName n) := by
  have he : ∀ c ∈ Nat.toDigits 10 n, c.isDigit = true := fun _ hc => isDigit_toDigits hc
  rw [fileName_eq_nameOf, before_nameOf_iff hd he]
  rw [ComesBehind]
  constructor
  · rintro ⟨hle, hlen⟩
    rcases Nat.lt_or_eq_of_le hle with hlt | heq
    · exact .inr (.inl hlt)
    · rcases Nat.lt_or_eq_of_le (hlen heq) with hk | hk
      · exact .inr (.inr ⟨heq, hk⟩)
      · left
        rw [padded_self_length _ _ (Nat.le_of_eq hk.symm),
          padded_self_length _ _ (Nat.le_of_eq hk)] at heq
        rw [eq_of_number_eq hd he hk heq]
  · rintro (heq | hlt | ⟨heq, hk⟩)
    · rw [nameOf_injective heq]
      exact ⟨Nat.le_refl _, fun _ => Nat.le_refl _⟩
    · exact ⟨Nat.le_of_lt hlt, fun e => absurd e (Nat.ne_of_lt hlt)⟩
    · exact ⟨Nat.le_of_eq heq, fun _ => Nat.le_of_lt hk⟩

/-- A later timestamp comes behind if zeros do not lift the earlier one above it. -/
theorem comesBehind_iff_of_lt {n : Nat} {ds : List Char} (h : number ds < n) :
    ComesBehind n ds ↔
      number ds * 10 ^ ((Nat.toDigits 10 n).length - ds.length) ≤ n := by
  rw [ComesBehind]
  rcases Nat.le_total ds.length (Nat.toDigits 10 n).length with hk | hk
  · rw [padded_self_length _ _ hk, number_toDigits]
    exact ⟨fun h => h.1, fun h => ⟨h, fun _ => hk⟩⟩
  · have hn : n ≤ padded (Nat.toDigits 10 n) ds.length := by
      rw [padded, number_toDigits]
      exact Nat.le_mul_of_pos_right n (Nat.pow_pos (by decide))
    rw [padded_self_length _ _ hk, Nat.sub_eq_zero_of_le hk]
    constructor <;> omega

/-- The snapshot that was written is the newest if its name comes behind all that were there. -/
theorem isNewest_written_iff {dir : Path} {n : Nat} {bs : Bytes} {d : Place} {t t' : FileTree}
    (w : Written dir n bs d t t') (hn : n < 2 ^ 64) :
    IsNewest t' dir d (fileName n) ↔
      ∀ ds, isSnapshot t dir d (nameOf ds) = true → ComesBehind n ds := by
  constructor
  · intro h ds hds
    obtain ⟨es, he, hes, -⟩ := exists_digits hds
    rw [nameOf_injective he, comesBehind_iff hes, ← nameOf_injective he]
    exact h.2 _ ((w.isSnapshot_iff hn).2 (.inr hds))
  · intro h
    refine ⟨(w.isSnapshot_iff hn).2 (.inl rfl), fun m hm => ?_⟩
    rcases (w.isSnapshot_iff hn).1 hm with rfl | hm
    · exact .inl rfl
    · obtain ⟨ds, rfl, hds, -⟩ := exists_digits hm
      exact (comesBehind_iff hds).1 (h ds hm)

theorem isNewest_of_not_comesBehind {dir : Path} {n : Nat} {bs : Bytes} {d : Place}
    {t t' : FileTree} {ds : List Char} (w : Written dir n bs d t t') (hn : n < 2 ^ 64)
    (hm : IsNewest t dir d (nameOf ds)) (hb : ¬ ComesBehind n ds) :
    IsNewest t' dir d (nameOf ds) ∧
      t'.node? (d ++ [nameOf ds]) = t.node? (d ++ [nameOf ds]) := by
  obtain ⟨es, he, hes, -⟩ := exists_digits hm.1
  obtain rfl := nameOf_injective he
  rw [comesBehind_iff hes, not_or] at hb
  have hlater : Text.Before (fileName n) (nameOf ds) := by
    rcases Text.before_or_eq_or_before (nameOf ds) (fileName n) with h | h | h
    · exact absurd h hb.2
    · exact absurd h hb.1
    · exact h
  refine ⟨⟨(w.isSnapshot_iff hn).2 (.inr hm.1), fun m hm' => ?_⟩,
    w.other hb.1 (isSnapshot_iff.1 hm.1).2.2⟩
  rcases (w.isSnapshot_iff hn).1 hm' with rfl | hm'
  · exact .inr hlater
  · exact hm.2 m hm'

/-- The snapshot that was written is found if and only if it is the newest in its directory. -/
theorem found_iff_isNewest {dir : Path} {n : Nat} {s : Store} {d : Place} {t t' : FileTree}
    (w : Written dir n (Snapshots.encode s) d t t') (hn : n < 2 ^ 64) (hp : dir.text ≠ "") :
    Found t' ⟨dir, n⟩ (dir.child (fileName n)) s ↔ IsNewest t' dir d (fileName n) := by
  have hd := w.keeps.directory_eq w.directory
  have hl := lookup_of_directory hp hd
  have hdir := node?_of_directory hd
  obtain ⟨ns, hns, hm, hlast⟩ := exists_namesIn hl hdir
  have hpaths : paths t' ⟨dir, n⟩ = .ok (ns.map dir.child) := by
    rw [paths, names, hns]
    rfl
  constructor
  · intro h
    obtain ⟨ps, hps, hlp⟩ := h.last
    rw [hpaths] at hps
    cases hps
    rw [List.getLast?_map, Option.map_eq_some_iff] at hlp
    obtain ⟨m, hml, hmc⟩ := hlp
    have hmn := (hlast m).1 hml
    have hname := isName_of_timestamp? (isSnapshot_iff.1 hmn.1).2.2
    have hname' : Path.IsName (fileName n) :=
      isName_of_timestamp? (by simp [timestamp?_fileName hn])
    rwa [Path.child_injective hname hname' hmc] at hmn
  · intro h
    obtain ⟨g, hg⟩ := w.file
    refine ⟨⟨_, hpaths, ?_⟩, newest_eq hl hdir h, _, attach_eq_ok_iff.2 ⟨ns, hns, rfl⟩, ?_⟩
    · rw [List.getLast?_map, (hlast _).2 h]
      rfl
    · exact restore_eq_ok_iff.2 ⟨ns, hns, .inr ⟨_, d, _, (hlast _).2 h, hl,
        read_eq_ok_iff.2 ⟨g, hg⟩, decode_encode s⟩⟩

theorem not_found_of_empty {t : FileTree} {a : Archive} {path : Path} {s : Store}
    (hp : a.dir.text = "") : ¬ Found t a path s := by
  intro h
  obtain ⟨ps, hps, hl⟩ := h.last
  have hns : namesIn t a.dir = .ok [] := by
    rw [namesIn, lookup, if_pos hp]
  rw [paths, names, hns] at hps
  cases hps
  simp at hl

theorem comesBehind_of_newest {t : FileTree} {dir : Path} {d : Place} {n : Nat} {ds : List Char}
    (hm : IsNewest t dir d (nameOf ds)) (h : ComesBehind n ds) :
    ∀ es, isSnapshot t dir d (nameOf es) = true → ComesBehind n es := by
  have digits {es : List Char} (h : isSnapshot t dir d (nameOf es) = true) :
      ∀ c ∈ es, c.isDigit = true := by
    obtain ⟨fs, hf, hd, -⟩ := exists_digits h
    rwa [nameOf_injective hf]
  intro es hes
  rcases hm.2 _ hes with e | hb
  · rwa [nameOf_injective e]
  · rw [comesBehind_iff (digits hes)]
    rcases (comesBehind_iff (digits hm.1)).1 h with e | hb'
    · exact .inr (e ▸ hb)
    · exact .inr (hb.trans hb')

/-- It is enough to come behind the newest, whose timestamp the new one exceeds. -/
theorem behind_all_iff {t : FileTree} {dir : Path} {a : Archive} {d : Place} {n : Nat}
    (opened : attach t dir = .ok a) (place : t.lookup dir = .ok d) (later : a.last < n) :
    (∀ ds, isSnapshot t dir d (nameOf ds) = true → ComesBehind n ds) ↔
      ∀ ds, IsNewest t dir d (nameOf ds) →
        number ds * 10 ^ ((Nat.toDigits 10 n).length - ds.length) ≤ n := by
  have hdir := node?_of_attach opened place
  have hnew (ds : List Char) (hds : IsNewest t dir d (nameOf ds)) :
      ComesBehind n ds ↔ number ds * 10 ^ ((Nat.toDigits 10 n).length - ds.length) ≤ n := by
    apply comesBehind_iff_of_lt
    rwa [← last_of_attach opened place hdir hds]
  constructor
  · intro h ds hds
    exact (hnew ds hds).1 (h ds hds.1)
  · intro h ds hds
    obtain ⟨m, hm⟩ := exists_isNewest place hdir hds
    obtain ⟨es, rfl, -⟩ := exists_digits hm.1
    exact comesBehind_of_newest hm ((hnew es hm).2 (h es hm)) ds hds

section AfterWrite
variable {t t' : FileTree} {dir path : Path} {a a' : Archive} {now : Nat} {s : Store}

theorem isSnapshot_made (a : Archive) (t : FileTree) (dir : Path) (d : Place) (m : String) :
    isSnapshot (a.made t) dir d m = isSnapshot t dir d m :=
  isSnapshot_congr ((grows_made a t).isFile_eq _)

theorem found_iff_behind_all (opened : attach t dir = .ok a)
    (written : a.write now s t = (.ok (path, a'), t'))
    (bound : nextTimestamp now a.last < 2 ^ 64) :
    Found t' a' path s ↔ dir.text ≠ "" ∧
      ∀ ds, isSnapshot t dir (t.placeOf dir) (nameOf ds) = true →
        ComesBehind (nextTimestamp now a.last) ds := by
  obtain ⟨rfl, rfl, d, w⟩ := write_ok written
  rw [dir_of_attach opened] at w ⊢
  rw [← place_of_made w.directory]
  by_cases hp : dir.text = ""
  · simp [hp, not_found_of_empty (a := ⟨dir, nextTimestamp now a.last⟩) hp]
  · rw [found_iff_isNewest w bound hp, isNewest_written_iff w bound]
    simp only [isSnapshot_made, ne_eq, hp, not_false_eq_true, true_and]

theorem unchanged_of_not_behind {d : Place} {ds : List Char} (opened : attach t dir = .ok a)
    (written : a.write now s t = (.ok (path, a'), t'))
    (bound : nextTimestamp now a.last < 2 ^ 64) (place : t.lookup dir = .ok d)
    (newest : IsNewest t dir d (nameOf ds))
    (behind : ¬ ComesBehind (nextTimestamp now a.last) ds) :
    a'.newest t' = a.newest t ∧ ∃ b, attach t' dir = .ok b ∧ b.restore t' = a.restore t := by
  obtain ⟨-, rfl, d', w⟩ := write_ok written
  have hp := text_ne_of_lookup place
  have hd := node?_of_attach opened place
  have hdirs := dir_of_attach opened
  subst hdirs
  obtain rfl : d' = d := by rw [place_of_made w.directory, eq_placeOf_of_lookup place]
  have hmade : IsNewest (a.made t) a.dir d' (nameOf ds) := by
    simpa only [IsNewest, isSnapshot_made] using newest
  obtain ⟨newest', hsame⟩ := isNewest_of_not_comesBehind w bound hmade behind
  have hk := w.keeps.directory_eq w.directory
  have place' := lookup_of_directory hp hk
  have hd' := node?_of_directory hk
  have hnode : t'.node? (d' ++ [nameOf ds]) = t.node? (d' ++ [nameOf ds]) := by
    obtain ⟨-, ⟨g, bs, hg⟩, -⟩ := isSnapshot_iff.1 newest.1
    rw [hsame, (grows_made a t).file_iff.2 hg, hg]
  obtain ⟨ns, hns, -⟩ := exists_namesIn place' hd'
  refine ⟨?_, _, attach_eq_ok_iff.2 ⟨ns, hns, rfl⟩, ?_⟩
  · rw [newest_eq place hd newest]
    exact newest_eq (a := ⟨a.dir, nextTimestamp now a.last⟩) place' hd' newest'
  · exact restore_congr rfl place hd newest place' hd' newest' hnode

/-- Exactly when a new snapshot is found. An empty path is never listed, and where nothing was
listed every snapshot is found; else the newest timestamp, filled up with zeros, must not exceed
the new one. A snapshot that is not found leaves what is found as it was. -/
theorem found_after_write_iff (opened : attach t dir = .ok a)
    (written : a.write now s t = (.ok (path, a'), t'))
    (bound : nextTimestamp now a.last < 2 ^ 64) :
    (Found t' a' path s ↔ dir.text ≠ "" ∧
      ∀ ds, isSnapshot t dir (t.placeOf dir) (nameOf ds) = true →
        ComesBehind (nextTimestamp now a.last) ds) ∧
    ∀ d, t.lookup dir = .ok d →
      (Found t' a' path s ↔ ∀ ds, IsNewest t dir d (nameOf ds) →
        number ds * 10 ^ ((Nat.toDigits 10 (nextTimestamp now a.last)).length - ds.length) ≤
          nextTimestamp now a.last) ∧
      (¬ Found t' a' path s → a'.newest t' = a.newest t ∧
        ∃ b, attach t' dir = .ok b ∧ b.restore t' = a.restore t) := by
  have hfound := found_iff_behind_all opened written bound
  refine ⟨hfound, fun d place => ?_⟩
  have hp := text_ne_of_lookup place
  rw [← eq_placeOf_of_lookup place] at hfound
  have hall := behind_all_iff opened place (lt_nextTimestamp now a.last)
  rw [hfound, and_iff_right hp]
  refine ⟨hall, fun hno => ?_⟩
  rw [hall] at hno
  simp only [Classical.not_forall] at hno
  obtain ⟨ds, newest, hlt⟩ := hno
  apply unchanged_of_not_behind opened written bound place newest
  rwa [comesBehind_iff_of_lt]
  rw [← last_of_attach opened place (node?_of_attach opened place) newest]
  exact lt_nextTimestamp now a.last

end AfterWrite

/-- A directory `/s` that holds one file. -/
def holding (name : String) (bs : Bytes) : FileTree :=
  (empty.insert ["s"] .directory).insert ["s", name] (.file 0 bs)

theorem found_after_thirteen_digits :
    let t := holding "1600000000000-snapshot.json" (Utf8.encode "[]")
    let a : Archive := ⟨⟨"/s"⟩, 1600000000000⟩
    let s : Store := .ofList [("k", "new")]
    let a' : Archive := ⟨⟨"/s"⟩, 1700000000000⟩
    let path : Path := ⟨"/s/1700000000000-snapshot.json"⟩
    attach t ⟨"/s"⟩ = .ok a ∧
      ∃ t', a.write 1700000000000 s t = (.ok (path, a'), t') ∧
        nextTimestamp 1700000000000 a.last < 2 ^ 64 ∧ Found t' a' path s := by
  intro t a s a' path
  have opened : attach t ⟨"/s"⟩ = .ok a := by decide +kernel
  have written : (a.write 1700000000000 s t).1 = .ok (path, a') :=
    by decide +kernel
  have bound : nextTimestamp 1700000000000 a.last < 2 ^ 64 := by decide
  have place : t.lookup ⟨"/s"⟩ = .ok ["s"] := by decide +kernel
  refine ⟨opened, _, Prod.ext written rfl, bound, ?_⟩
  refine ((found_after_write_iff opened (Prod.ext written rfl) bound).2 ["s"] place).1.2 ?_
  intro ds hds
  have hlast : 1600000000000 = number ds :=
    last_of_attach opened place (node?_of_attach opened place) hds
  have hlong : 13 ≤ ds.length := by
    obtain ⟨es, he, hes, -⟩ := exists_digits hds.1
    obtain rfl := nameOf_injective he
    have hlt := number_lt hes
    apply Nat.le_of_not_lt
    intro hshort
    have := Nat.pow_le_pow_right (show 0 < 10 by decide) (show ds.length ≤ 12 by omega)
    omega
  have hlength : (Nat.toDigits 10 (nextTimestamp 1700000000000 a.last)).length = 13 := by decide
  rw [hlength, Nat.sub_eq_zero_of_le hlong, ← hlast]
  decide

/-- Here the new snapshot is listed first, and the old one is restored from then on. -/
theorem not_found_after_one_digit :
    let t := holding "9-snapshot.json" (Utf8.encode "[[\"k\",\"old\"]]")
    let a : Archive := ⟨⟨"/s"⟩, 9⟩
    let s : Store := .ofList [("k", "new")]
    let a' : Archive := ⟨⟨"/s"⟩, 1700000000000⟩
    let path : Path := ⟨"/s/1700000000000-snapshot.json"⟩
    attach t ⟨"/s"⟩ = .ok a ∧
      ∃ t', a.write 1700000000000 s t = (.ok (path, a'), t') ∧
        nextTimestamp 1700000000000 a.last < 2 ^ 64 ∧ ¬ Found t' a' path s ∧
        a'.newest t' = .ok (some ⟨"/s/9-snapshot.json"⟩) ∧
        ∃ b, attach t' ⟨"/s"⟩ = .ok b ∧ b.restore t' = .ok (.ofList [("k", "old")]) := by
  intro t a s a' path
  have opened : attach t ⟨"/s"⟩ = .ok a := by decide +kernel
  have written : a.write 1700000000000 s t = (.ok (path, a'), (a.write 1700000000000 s t).2) :=
    Prod.ext (by decide +kernel) rfl
  have bound : nextTimestamp 1700000000000 a.last < 2 ^ 64 := by decide
  have place : t.lookup ⟨"/s"⟩ = .ok ["s"] := by decide +kernel
  have listed : namesIn t ⟨"/s"⟩ = .ok ["9-snapshot.json"] := by decide +kernel
  have newest : IsNewest t ⟨"/s"⟩ ["s"] (nameOf ['9']) := by
    obtain ⟨ns, hns, -, hlast⟩ := exists_namesIn place (node?_of_attach opened place)
    rw [listed] at hns
    cases hns
    exact (hlast _).1 (by decide)
  have behind : ¬ ComesBehind (nextTimestamp 1700000000000 a.last) ['9'] := by
    rw [ComesBehind]
    decide +kernel
  obtain ⟨hnewest, b, hb, hrestore⟩ :=
    unchanged_of_not_behind opened written bound place newest behind
  refine ⟨opened, _, written, bound, ?_, ?_, b, hb, ?_⟩
  · rw [found_iff_behind_all opened written bound, ← eq_placeOf_of_lookup place]
    exact fun h => behind (h.2 _ newest.1)
  · rw [hnewest]
    decide +kernel
  · rw [hrestore]
    decide +kernel

end Keyline.Archive
