import Keyline.Proofs.Runs.Deeds
import Keyline.Proofs.Snapshots.Reach

/-!
# The one file that a store is restored from

Of all files in a directory that have the name of a snapshot, the one whose name is the last in byte
order is selected. What is restored depends on its bytes alone: the pairs of a document, of which
the last of each key counts, or an error if it is no document. Without such a file the empty store is
restored. A selected file whose path is too long to be followed is passed over, though, as if it
were not there.
-/
namespace Keyline

namespace Snapshots

open Json (Token)

theorem readMore_eq_ok_iff {ts : List Token} {ps : List (String × String)} :
    readMore ts = .ok ps ↔ ts = moreTokens ps ++ [.endList] := by
  refine ⟨fun h => ?_, fun h => h ▸ readMore_moreTokens ps⟩
  fun_induction readMore ts generalizing ps with
  | case1 =>
    cases h
    rfl
  | case2 k v ts qs hq ih =>
    cases h
    rw [ih hq]
    simp [moreTokens, pairTokens]
  | case3 => simp at h
  | case4 => simp at h
  | case5 => simp at h

theorem readPairs_eq_ok_iff {ts : List Token} {ps : List (String × String)} :
    readPairs ts = .ok ps ↔ ts = documentTokens ps := by
  refine ⟨fun h => ?_, fun h => h ▸ readPairs_documentTokens ps⟩
  fun_cases readPairs ts with
  | case1 =>
    cases h
    rfl
  | case3 k v ts qs hq =>
    rw [readPairs, hq] at h
    cases h
    rw [readMore_eq_ok_iff.1 hq]
    simp [documentTokens, pairTokens]
  | _ => simp_all [readPairs]

/-- One digit or more, of a number below 2^64, and the ending. -/
def Named (m : String) : Prop :=
  ∃ ds, m = nameOf ds ∧ ds ≠ [] ∧ (∀ c ∈ ds, c.isDigit = true) ∧ number ds < 2 ^ 64

theorem named_iff {m : String} : Named m ↔ (timestamp? m).isSome := by
  simp only [Named, Option.isSome_iff_exists, timestamp?_eq_some_iff]
  constructor
  · rintro ⟨ds, hm, h0, hd, hlt⟩
    exact ⟨_, ds, hm, h0, hd, rfl, hlt⟩
  · rintro ⟨n, ds, hm, h0, hd, rfl, hlt⟩
    exact ⟨ds, hm, h0, hd, hlt⟩

end Snapshots

namespace Archive

open FileTree Snapshots Json

/-- Of all files at `d` with the name of a snapshot, `m` has the last name, and it holds `bs`. -/
structure Selected (t : FileTree) (d : Place) (m : String) (bs : Bytes) : Prop where
  name : Named m
  file : t.read (d ++ [m]) = .ok bs
  last : ∀ n, Named n → t.isFile (d ++ [n]) = true → n = m ∨ Text.Before n m

/-- `r` is what `bs` stands for: the pairs of a document, the last of each key, or an error. -/
structure Reads (bs : Bytes) (r : Except Failure Store) : Prop where
  document : ∀ ps, Token.ofBytes bs = documentTokens ps →
    ∃ s, r = .ok s ∧ ∀ k, s.get? k = Pairs.get? k ps.reverse
  otherwise : (∀ ps, Token.ofBytes bs ≠ documentTokens ps) →
    ∃ report, r = .error (.serialization report)

/-- What is restored from a file at `p` that holds `bs`. -/
def reading (p : Path) (bs : Bytes) : Except Failure Store :=
  match Snapshots.decode bs with
  | .error e => .error (.serialization ("invalid snapshot " ++ p.text ++ ": " ++ e.message))
  | .ok s => .ok s

theorem reads_reading (p : Path) (bs : Bytes) : Reads bs (reading p bs) := by
  rw [reading, decode]
  cases hr : readPairs (Token.ofBytes bs) with
  | error e =>
    refine ⟨fun ps h => ?_, fun _ => ⟨_, rfl⟩⟩
    rw [readPairs_eq_ok_iff.2 h] at hr
    simp at hr
  | ok ps =>
    have tokens := readPairs_eq_ok_iff.1 hr
    refine ⟨fun qs h => ?_, fun no => absurd tokens (no ps)⟩
    rw [readPairs_eq_ok_iff.2 h] at hr
    cases hr
    exact ⟨_, rfl, Store.get?_ofList ps⟩

theorem exists_last {ns : List String} (h : ns ≠ []) :
    ∃ m ∈ ns, ∀ n ∈ ns, n = m ∨ Text.Before n m := by
  induction ns with
  | nil => exact absurd rfl h
  | cons a ns ih =>
    by_cases hns : ns = []
    · exact ⟨a, List.mem_cons_self, by simp [hns]⟩
    · obtain ⟨m, hm, hlast⟩ := ih hns
      rcases Text.before_or_eq_or_before a m with hb | rfl | hb
      · refine ⟨m, List.mem_cons_of_mem _ hm, fun n hn => ?_⟩
        rcases List.mem_cons.1 hn with rfl | hn
        · exact .inr hb
        · exact hlast n hn
      · refine ⟨a, List.mem_cons_self, fun n hn => ?_⟩
        rcases List.mem_cons.1 hn with rfl | hn
        · exact .inl rfl
        · exact hlast n hn
      · refine ⟨a, List.mem_cons_self, fun n hn => ?_⟩
        rcases List.mem_cons.1 hn with rfl | hn
        · exact .inl rfl
        · rcases hlast n hn with rfl | hn'
          · exact .inr hb
          · exact .inr (hn'.trans hb)

section Selected
variable {t u : FileTree} {d : Place} {m n : String} {bs : Bytes}

theorem exists_selected (hd : t.node? d = some .directory) (name : Named n)
    (file : t.isFile (d ++ [n]) = true) : ∃ m bs, Selected t d m bs := by
  obtain ⟨ns, hns⟩ : ∃ ns, t.list d = .ok ns := by
    rw [list, hd]
    exact ⟨_, rfl⟩
  have mem (l : String) : l ∈ ns.filter (fun l => t.isFile (d ++ [l]) && (timestamp? l).isSome) ↔
      t.isFile (d ++ [l]) = true ∧ Named l := by
    rw [List.mem_filter, mem_list_iff hns, Bool.and_eq_true, ← named_iff, and_iff_right_iff_imp]
    intro h
    obtain ⟨g, bs, hf⟩ := isFile_iff.1 h.1
    simp [hf]
  obtain ⟨m, hm, hlast⟩ := exists_last (List.ne_nil_of_mem ((mem n).2 ⟨file, name⟩))
  obtain ⟨hfile, hname⟩ := (mem m).1 hm
  obtain ⟨g, bs, hf⟩ := isFile_iff.1 hfile
  exact ⟨m, bs, hname, read_eq_ok_iff.2 ⟨g, hf⟩, fun n hn hn' => hlast n ((mem n).2 ⟨hn', hn⟩)⟩

theorem selected_of_list {ns : List String} (list : t.list d = .ok ns)
    (name : (timestamp? m).isSome) (file : t.read (d ++ [m]) = .ok bs)
    (last : ∀ n ∈ ns, (timestamp? n).isSome → t.isFile (d ++ [n]) = true →
      n = m ∨ Text.Before n m) : Selected t d m bs := by
  refine ⟨named_iff.2 name, file, fun n hn hf => last n ?_ (named_iff.1 hn) hf⟩
  obtain ⟨g, bs, hb⟩ := isFile_iff.1 hf
  rw [mem_list_iff list, hb]
  rfl

theorem Selected.isNewest {dir : Path} (h : Selected t d m bs)
    (fits : (dir.child m).fault? = none) : IsNewest t dir d m := by
  obtain ⟨g, hg⟩ := read_eq_ok_iff.1 h.file
  refine ⟨isSnapshot_iff.2 ⟨fits, ⟨g, bs, hg⟩, named_iff.1 h.name⟩, fun n hn => ?_⟩
  obtain ⟨-, file, name⟩ := isSnapshot_iff.1 hn
  exact h.last n (named_iff.2 name) (isFile_iff.2 file)

theorem Selected.congr (g : Grows t u) : Selected u d m bs ↔ Selected t d m bs := by
  have file : u.read (d ++ [m]) = .ok bs ↔ t.read (d ++ [m]) = .ok bs := by
    simp only [read_eq_ok_iff, g.file_iff]
  constructor
  · exact fun h => ⟨h.name, file.1 h.file, fun n hn hf => h.last n hn (g.isFile_eq _ ▸ hf)⟩
  · exact fun h => ⟨h.name, file.2 h.file, fun n hn hf => h.last n hn (g.isFile_eq _ ▸ hf)⟩

end Selected

section Restore
variable {a : Archive} {t : FileTree} {d : Place} {m : String} {bs : Bytes}

theorem restore_of_absent {f : Fault} (h : t.lookup a.dir = .error f) : a.restore t = .ok ∅ := by
  rw [restore, names, namesIn_of_absent h]
  rfl

theorem restore_of_unselected (hl : t.lookup a.dir = .ok d) (hd : t.node? d = some .directory)
    (none : ∀ m bs, ¬ Selected t d m bs) : a.restore t = .ok ∅ := by
  obtain ⟨ns, hns, hm, -⟩ := exists_namesIn hl hd
  refine restore_eq_ok_iff.2 ⟨ns, hns, .inl ⟨List.eq_nil_iff_forall_not_mem.2 fun n hn => ?_, rfl⟩⟩
  obtain ⟨-, file, name⟩ := isSnapshot_iff.1 ((hm n).1 hn)
  obtain ⟨m, bs, h⟩ := exists_selected hd (named_iff.2 name) (isFile_iff.2 file)
  exact none m bs h

theorem restore_of_selected (hl : t.lookup a.dir = .ok d) (hd : t.node? d = some .directory)
    (h : Selected t d m bs) (fits : (a.dir.child m).fault? = none) :
    a.restore t = reading (a.dir.child m) bs := by
  obtain ⟨ns, hns, -, hlast⟩ := exists_namesIn hl hd
  rw [restore, names, hns]
  dsimp only
  rw [(hlast m).2 (h.isNewest fits), hl]
  dsimp only [Except.bind]
  rw [h.file]
  rfl

theorem newest_of_selected (hl : t.lookup a.dir = .ok d) (hd : t.node? d = some .directory)
    (h : Selected t d m bs) :
    a.newest t = .ok (some (a.dir.child m)) ↔ (a.dir.child m).fault? = none := by
  refine ⟨fun hn => ?_, fun fits => newest_eq hl hd (h.isNewest fits)⟩
  obtain ⟨ns, hns, hmem, -⟩ := exists_namesIn hl hd
  rw [newest, names, hns] at hn
  simp only [Except.map, Except.ok.injEq, Option.map_eq_some_iff] at hn
  obtain ⟨l, hlast, he⟩ := hn
  rw [← he]
  exact (isSnapshot_iff.1 ((hmem l).1 (List.mem_of_getLast? hlast))).1

end Restore

theorem node?_holding (name : String) (bs : Bytes) :
    (holding name bs).node? ["s"] = some .directory ∧
      ∀ n, (holding name bs).node? ["s", n] = if name = n then some (.file 0 bs) else none := by
  have top : (empty.insert ["s"] .directory).node? ["s"] = some .directory := by decide
  have vacant (n : String) : (empty.insert ["s"] .directory).node? ["s", n] = none := by
    rw [node?_insert (by decide)]
    simp [node?, empty, find?]
  have fits : (empty.insert ["s"] .directory).Fits ["s", name] (.file 0 bs) :=
    ⟨by simp, top, fun h => by simp [vacant] at h⟩
  rw [holding]
  refine ⟨by rw [node?_insert fits]; simp [top], fun n => ?_⟩
  rw [node?_insert fits, vacant]
  simp

/-- A file that is alone is selected, and passed over if its path is too long. -/
theorem passed_over_of_long_path {a : Archive} {m : String} {bs : Bytes}
    (place : (holding m bs).lookup a.dir = .ok ["s"]) (name : Named m)
    (long : (a.dir.child m).fault? ≠ none) : Selected (holding m bs) ["s"] m bs ∧
      a.newest (holding m bs) = .ok none ∧ a.restore (holding m bs) = .ok ∅ := by
  obtain ⟨directory, files⟩ := node?_holding m bs
  have only (n : String) (h : (holding m bs).isFile ["s", n] = true) : n = m := by
    obtain ⟨g, cs, hn⟩ := isFile_iff.1 h
    rw [files] at hn
    split at hn
    · next e => exact e.symm
    · simp at hn
  have selected : Selected (holding m bs) ["s"] m bs :=
    ⟨name, read_eq_ok_iff.2 ⟨0, (files m).trans (if_pos rfl)⟩, fun n _ h => .inl (only n h)⟩
  have listed : namesIn (holding m bs) a.dir = .ok [] := by
    obtain ⟨ns, hns, hm, -⟩ := exists_namesIn place directory
    have none : ns = [] := List.eq_nil_iff_forall_not_mem.2 fun n hn => by
      obtain ⟨fits, hf, -⟩ := isSnapshot_iff.1 ((hm n).1 hn)
      exact long (only n (isFile_iff.2 hf) ▸ fits)
    rw [hns, none]
  refine ⟨selected, ?_, ?_⟩
  · rw [newest, names, listed]
    rfl
  · rw [restore, names, listed]
    rfl

end Archive

/-! A directory has paths of any length, for slashes add nothing to a path but its length. -/

theorem utf8ByteSize_eq_length (s : String) : s.utf8ByteSize = (Utf8.encode s).length := by
  obtain ⟨cs, rfl⟩ : ∃ cs, s = String.ofList cs := ⟨s.toList, String.ofList_toList.symm⟩
  rw [Utf8.encode, String.toList_ofList]
  induction cs with
  | nil => rfl
  | cons c cs ih =>
    have split : String.ofList (c :: cs) = String.singleton c ++ String.ofList cs :=
      String.toList_inj.1 (by simp)
    rw [split, String.utf8ByteSize_append, String.utf8ByteSize_singleton, ih, Utf8.encodeChars,
      Utf8.encodeChars, List.flatMap_cons, List.length_append, String.length_utf8EncodeChar]

def slashes (n : Nat) : Path := ⟨String.ofList ('/' :: 's' :: List.replicate n '/')⟩

theorem utf8ByteSize_slashes (n : Nat) : (slashes n).text.utf8ByteSize = n + 2 := by
  have more (n : Nat) : (Utf8.encodeChars (List.replicate n '/')).length = n := by
    induction n with
    | zero => rfl
    | succ n ih =>
      rw [List.replicate_succ, Utf8.encodeChars, List.flatMap_cons, List.length_append,
        ← Utf8.encodeChars, ih]
      exact Nat.add_comm 1 n
  rw [utf8ByteSize_eq_length, slashes, Utf8.encode, String.toList_ofList, Utf8.encodeChars,
    List.flatMap_cons, List.flatMap_cons, List.length_append, List.length_append,
    ← Utf8.encodeChars, more]
  change 1 + (1 + n) = n + 2
  omega

theorem names_slashes (n : Nat) : (slashes n).names = ["s"] := by
  have pieces (n : Nat) : Path.pieces (List.replicate n '/') = List.replicate (n + 1) [] := by
    induction n with
    | zero => rfl
    | succ n ih =>
      rw [List.replicate_succ, Path.pieces, if_pos rfl, ih]
      rfl
  rw [Path.names, slashes, String.toList_ofList, Path.pieces, if_pos rfl, Path.pieces,
    if_neg (by decide), pieces]
  simp [List.replicate_succ]

theorem lookup_slashes {t : FileTree} {n : Nat} (h : n + 2 ≤ Path.limit)
    (hd : t.node? ["s"] = some .directory) : t.lookup (slashes n) = .ok ["s"] := by
  have fits : (slashes n).fault? = none := by
    rw [Path.fault?, utf8ByteSize_slashes, if_neg, if_neg (by omega)]
    simp [slashes]
  have walk : t.walk (t.origin (slashes n)) (slashes n).names = .ok ["s"] := by
    have top : t.origin (slashes n) = [] := by
      rw [FileTree.origin, if_pos]
      simp [Path.isAbsolute, slashes]
    have short : ¬ FileTree.nameLimit < "s".utf8ByteSize := by decide
    rw [names_slashes, top]
    simp [FileTree.walk, FileTree.step, FileTree.barrier, hd, short]
  refine FileTree.lookup_eq_ok_iff.2 ⟨fun e => ?_, FileTree.follow_eq_ok_iff.2 ⟨fits, walk⟩,
    fun _ => hd⟩
  have := congrArg String.toList e
  simp [slashes] at this

theorem fault?_slashes_child {n : Nat} {m : String} (hm : Path.IsName m)
    (h : Path.limit < n + 3 + m.utf8ByteSize) : ((slashes (n + 1)).child m).fault? ≠ none := by
  have ends : (slashes (n + 1)).endsInSlash = true := by
    rw [Path.endsInSlash, slashes, String.toList_ofList, decide_eq_true_iff, List.replicate_succ',
      ← List.cons_append, ← List.cons_append, List.getLast?_concat]
  have text : ((slashes (n + 1)).child m).text = (slashes (n + 1)).text ++ m := by
    apply String.toList_inj.1
    rw [Path.text_child hm, if_pos (.inr ends), String.toList_append]
  have long : Path.limit < ((slashes (n + 1)).child m).text.utf8ByteSize := by
    rw [text, String.utf8ByteSize_append, utf8ByteSize_slashes]
    omega
  rw [Path.fault?, if_pos long]
  split <;> simp

namespace Database

open FileTree Archive Snapshots

section SavedStore
variable {c : Config} {t u : FileTree} {q : Place} {m : String} {bs : Bytes}

/-- Where the path of the snapshots leads to no file, a start comes to restoring. -/
theorem savedStore_eq (made : t.makeDirectories c.dataDir = (.ok q, u))
    (free : t.isFile (t.placeOf c.snapshotDir) = false) :
    ∃ a, attach u c.snapshotDir = .ok a ∧ savedStore c t = a.restore u := by
  have g := grows_makeDirectories t c.dataDir
  rw [made] at g
  have free' : Free u c.snapshotDir := fun _ => by
    rw [placeOf_of_base g.base, g.isFile_eq, free]
  obtain ⟨ns, hns⟩ := free'.exists_names
  have opened : attach u c.snapshotDir = .ok _ := attach_eq_ok_iff.2 ⟨ns, hns, rfl⟩
  refine ⟨_, opened, ?_⟩
  rw [savedStore, made]
  dsimp only
  rw [opened]
  rfl

theorem lookup_snapshotDir (made : t.makeDirectories c.dataDir = (.ok q, u))
    (h : Selected u (u.placeOf c.snapshotDir) m bs)
    (fits : (c.snapshotDir.child m).fault? = none) :
    u.lookup c.snapshotDir = .ok (u.placeOf c.snapshotDir) ∧
      u.node? (u.placeOf c.snapshotDir) = some .directory := by
  obtain ⟨-, hw, -⟩ := directory_of_makeDirectories made
  obtain ⟨g, hg⟩ := read_eq_ok_iff.1 h.file
  have hd := node?_of_child hg
  have place : u.placeOf c.snapshotDir = q ++ ["snapshots"] := by
    rw [Config.placeOf_snapshotDir, eq_foldl_climb_of_walk hw]
    rfl
  refine ⟨?_, hd⟩
  rw [place] at hd ⊢
  exact lookup_child (by decide) (by decide) (by decide) (by decide) hw
    (Path.fault?_of_child (isName_of_timestamp? (Snapshots.named_iff.1 h.name)) fits) (by simp [hd])

theorem savedStore_of_unselected (made : t.makeDirectories c.dataDir = (.ok q, u))
    (free : t.isFile (t.placeOf c.snapshotDir) = false)
    (none : ∀ m bs, ¬ Selected t (t.placeOf c.snapshotDir) m bs) : savedStore c t = .ok ∅ := by
  have g := grows_makeDirectories t c.dataDir
  rw [made] at g
  obtain ⟨a, opened, saved⟩ := savedStore_eq made free
  have dir := dir_of_attach opened
  rw [saved]
  cases hl : u.lookup c.snapshotDir with
  | error f => exact restore_of_absent (dir ▸ hl)
  | ok d =>
    have hd := node?_of_attach opened hl
    obtain rfl := (eq_placeOf_of_lookup hl).trans (placeOf_of_base g.base _)
    exact restore_of_unselected (by rw [dir, hl]) hd fun m bs h =>
      none m bs ((Selected.congr g).1 h)

theorem savedStore_of_selected (made : t.makeDirectories c.dataDir = (.ok q, u))
    (free : t.isFile (t.placeOf c.snapshotDir) = false)
    (h : Selected t (t.placeOf c.snapshotDir) m bs)
    (fits : (c.snapshotDir.child m).fault? = none) :
    savedStore c t = reading (c.snapshotDir.child m) bs := by
  have g := grows_makeDirectories t c.dataDir
  rw [made] at g
  obtain ⟨a, opened, saved⟩ := savedStore_eq made free
  have dir := dir_of_attach opened
  rw [← placeOf_of_base g.base] at h
  have h' := (Selected.congr g).2 h
  obtain ⟨hl, hd⟩ := lookup_snapshotDir made h' fits
  rw [saved, ← dir]
  exact restore_of_selected (by rw [dir]; exact hl) hd h' (by rw [dir]; exact fits)

end SavedStore

/-- What is restored comes of the selected file alone, if its path is not too long: exactly then is
it the newest snapshot, and then nothing else in the directory matters. The same holds of what a
start takes from the snapshots, and a start that can take nothing fails. -/
theorem restores_selected_file (a : Archive) (t : FileTree) :
    (∀ p bs, Reads bs (reading p bs)) ∧
    (∀ f, t.lookup a.dir = .error f → a.restore t = .ok ∅) ∧
    (∀ d, t.lookup a.dir = .ok d → t.node? d = some .directory →
      ((∀ m bs, ¬ Selected t d m bs) → a.restore t = .ok ∅) ∧
      ∀ m bs, Selected t d m bs →
        (a.newest t = .ok (some (a.dir.child m)) ↔ (a.dir.child m).fault? = none) ∧
        ((a.dir.child m).fault? = none → a.restore t = reading (a.dir.child m) bs ∧
          ∀ t' d', t'.lookup a.dir = .ok d' → t'.node? d' = some .directory →
            Selected t' d' m bs → a.restore t' = a.restore t)) ∧
    ∀ c q u, c.snapshotDir = a.dir → t.makeDirectories c.dataDir = (.ok q, u) →
      t.isFile (t.placeOf a.dir) = false →
      ((∀ m bs, ¬ Selected t (t.placeOf a.dir) m bs) → savedStore c t = .ok ∅) ∧
      (∀ m bs, Selected t (t.placeOf a.dir) m bs → (a.dir.child m).fault? = none →
        savedStore c t = reading (a.dir.child m) bs) ∧
      ∀ now, (∀ db t', start c now t = (.ok db, t') → savedStore c t = .ok db.store) ∧
        ∀ e, savedStore c t = .error e → (start c now t).1 = .error e := by
  refine ⟨reads_reading, fun f => restore_of_absent, fun d hl hd => ⟨?none, ?some⟩, ?start⟩
  case none => exact restore_of_unselected hl hd
  case some =>
    intro m bs h
    refine ⟨newest_of_selected hl hd h, fun fits => ?_⟩
    have restored := restore_of_selected hl hd h fits
    refine ⟨restored, fun t' d' hl' hd' h' => ?_⟩
    rw [restored, restore_of_selected hl' hd' h' fits]
  case start =>
    intro c q u hc made free
    rw [← hc] at free ⊢
    exact ⟨savedStore_of_unselected made free, fun m bs => savedStore_of_selected made free,
      fun now => ⟨fun db t' => savedStore_of_start, fun e failed => by
        rw [start_of_savedStore_error failed]⟩⟩

theorem restores_selected_file_among_others :
    let a : Archive := ⟨⟨"/s"⟩, 4⟩
    let bs := Utf8.encode "[[\"k\",\"1\"],[\"k\",\"2\"]]"
    let t := ((((holding "4-snapshot.json" bs).insert ["s", "9-snapshot.json"] .directory).insert
      ["s", "10-snapshot.json"] (.file 0 (Utf8.encode "["))).insert
      ["s", "5-snapshot.json.tmp"] (.file 0 [])).insert ["s", "x-snapshot.json"] (.file 0 [])
    t.lookup a.dir = .ok ["s"] ∧ t.node? ["s"] = some .directory ∧
      Selected t ["s"] "4-snapshot.json" bs ∧
      (a.dir.child "4-snapshot.json").fault? = none ∧
      a.newest t = .ok (some ⟨"/s/4-snapshot.json"⟩) ∧
      a.restore t = .ok (.ofList [("k", "2")]) := by
  intro a bs t
  have place : t.lookup a.dir = .ok ["s"] := by decide +kernel
  have directory : t.node? ["s"] = some .directory := by decide +kernel
  have listed : t.list ["s"] = .ok ["x-snapshot.json", "5-snapshot.json.tmp", "10-snapshot.json",
      "9-snapshot.json", "4-snapshot.json"] := by decide +kernel
  have selected : Selected t ["s"] "4-snapshot.json" bs :=
    selected_of_list listed (by decide +kernel) (by decide +kernel) (by decide +kernel)
  have fits : (a.dir.child "4-snapshot.json").fault? = none := by decide +kernel
  obtain ⟨-, -, restored, -⟩ := restores_selected_file a t
  obtain ⟨newest, restored⟩ := (restored ["s"] place directory).2 _ _ selected
  refine ⟨place, directory, selected, fits, (newest.2 fits).trans (by decide +kernel), ?_⟩
  rw [(restored fits).1]
  decide +kernel

/-- The selected file is the only one, and it is passed over: its path is too long, though that of
the directory is not. -/
theorem not_restored_over_long_path :
    let a : Archive := ⟨slashes 3900, 0⟩
    let m := nameOf (List.replicate 240 '0' ++ ['1'])
    let bs := Utf8.encode "[[\"k\",\"new\"]]"
    let t := holding m bs
    t.lookup a.dir = .ok ["s"] ∧ t.node? ["s"] = some .directory ∧ Selected t ["s"] m bs ∧
      Json.Token.ofBytes bs = documentTokens [("k", "new")] ∧ a.newest t = .ok none ∧
      a.restore t = .ok ∅ := by
  intro a m bs t
  have directory := (node?_holding m bs).1
  have place : t.lookup a.dir = .ok ["s"] := lookup_slashes (by decide) directory
  have digits : ∀ c ∈ List.replicate 240 '0' ++ ['1'], c.isDigit = true := by
    intro c hc
    rcases List.mem_append.1 hc with hc | hc
    · rw [List.eq_of_mem_replicate hc]
      rfl
    · rw [List.mem_singleton.1 hc]
      rfl
  have name : Named m :=
    ⟨_, rfl, List.append_ne_nil_of_right_ne_nil _ (by simp), digits, by decide +kernel⟩
  have long : (a.dir.child m).fault? ≠ none :=
    fault?_slashes_child (isName_of_timestamp? (named_iff.1 name)) (by decide +kernel)
  obtain ⟨selected, newest, restored⟩ := passed_over_of_long_path place name long
  exact ⟨place, directory, selected, by decide +kernel, newest, restored⟩

end Database
end Keyline
