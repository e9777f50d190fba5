import Keyline.Proofs.Runs.AuditTrail
import Keyline.Proofs.Snapshots.RoundTrip
import Keyline.Proofs.Snapshots.Writing

/-!
# What a snapshot file holds

Whether a snapshot can be written, and where, depends on the files alone and never on the store: no
key and no value is too strange. The file that is written then holds a document from which the pairs
of the store are read in their order, and which is restored as this store.

A document shows what a store holds and nothing of how it came to hold it. Stores that give every
key the same value have one document, whatever queries led to them and from whichever stores, and
this document has each key once, in byte order.
-/
namespace Keyline.Archive

open FileTree Snapshots

theorem fault_of_steps {t : FileTree} {d : Place} {m n : String} (bs : Bytes) (hmn : m ≠ n)
    (hd : t.node? d = some .directory) :
    (FileAction.runAll (steps (d ++ [m]) (d ++ [n]) bs) t).1 =
      if t.node? (d ++ [m]) = some .directory ∨ t.node? (d ++ [n]) = some .directory then
        some .isDirectory
      else none := by
  rcases runAll_steps bs hmn hd with ⟨hm, hr⟩ | ⟨hm, g, u, -, -, ⟨hn, hr, -⟩ | ⟨hn, hr, -⟩⟩
  · rw [hr, if_pos (.inl hm)]
  · rw [hr, if_pos (.inr hn)]
  · rw [hr, if_neg (not_or.2 ⟨hm, hn⟩)]

theorem fault_of_store (dir : Path) (n : Nat) (bs cs : Bytes) (t : FileTree) :
    (store dir n bs t).1 = (store dir n cs t).1 := by
  unfold store
  cases ht : t.entry dir (temporaryName n) with
  | error f => rfl
  | ok temporary =>
    cases hp : t.entry dir (fileName n) with
    | error f => rfl
    | ok place =>
      obtain ⟨-, d, hd, rfl⟩ := entry_eq_ok_iff.1 ht
      obtain ⟨-, d', hd', rfl⟩ := entry_eq_ok_iff.1 hp
      rw [hd] at hd'
      cases hd'
      have hdir := node?_of_directory hd
      have hne := temporaryName_ne_fileName n n
      exact (fault_of_steps bs hne hdir).trans (fault_of_steps cs hne hdir).symm

/-- What comes of a write does not depend on the store. -/
theorem fst_write (a : Archive) (now : Nat) (r s : Store) (t : FileTree) :
    (a.write now r t).1 = (a.write now s t).1 := by
  unfold write
  rcases t.makeDirectories a.dir with ⟨f | p, u⟩
  · rfl
  · have hf := fault_of_store a.dir (nextTimestamp now a.last) (Snapshots.encode r)
      (Snapshots.encode s) u
    dsimp only
    generalize store a.dir (nextTimestamp now a.last) (Snapshots.encode r) u = x at hf ⊢
    generalize store a.dir (nextTimestamp now a.last) (Snapshots.encode s) u = y at hf ⊢
    obtain ⟨f, v⟩ := x
    obtain ⟨_, w⟩ := y
    obtain rfl : f = _ := hf
    cases f with
    | none => rfl
    | some f => rfl

theorem fileName_ne_dots (n : Nat) : fileName n ≠ "." ∧ fileName n ≠ ".." := by
  have hlast : (fileName n).toList.getLast? = some 'n' := by simp [fileName, ending]
  constructor
  · intro h
    rw [h] at hlast
    simp at hlast
  · intro h
    rw [h] at hlast
    simp at hlast

theorem read_of_write {a a' : Archive} {now : Nat} {s : Store} {t t' : FileTree} {path : Path}
    (h : a.write now s t = (.ok (path, a'), t')) :
    t'.read (t'.placeOf path) = .ok (Snapshots.encode s) := by
  obtain ⟨rfl, -, d, w⟩ := write_ok h
  obtain ⟨g, hg⟩ := w.file
  have hd : d = t'.placeOf a.dir := by
    rw [placeOf_of_base w.base]
    exact eq_placeOf_of_directory w.directory
  obtain ⟨hdot, hdots⟩ := fileName_ne_dots (nextTimestamp now a.last)
  rw [placeOf_child (isName_fileName _) hdot hdots, ← hd, read_eq_ok_iff]
  exact ⟨g, hg⟩

/-- Every store can be written where any can, and the file that comes of it reads as this store: its
pairs one after another, each as it was. -/
theorem written_store_reads_back (a : Archive) (now : Nat) (s : Store) (t : FileTree) :
    (a.write now s t).1 = (a.write now ∅ t).1 ∧
    ∀ path a' t', a.write now s t = (.ok (path, a'), t') →
      ∃ bs, t'.read (t'.placeOf path) = .ok bs ∧
        readPairs (Json.Token.ofBytes bs) = .ok s.pairs ∧ decode bs = .ok s := by
  refine ⟨a.fst_write now s ∅ t, fun path a' t' h => ⟨_, read_of_write h, ?_, decode_encode s⟩⟩
  rw [ofBytes_encode, readPairs_scan_text]

/-- An empty key, blanks, and characters that are escaped or look as if they were. -/
theorem strange_store_reads_back :
    let a : Archive := ⟨⟨"/s"⟩, 0⟩
    let s : Store := .ofList [("", "\"\\"), ("a b", "\n\u0001\u007f"), ("\\u0041", "é😀")]
    let path : Path := ⟨"/s/1700000000000-snapshot.json"⟩
    ∃ t', a.write 1700000000000 s .empty = (.ok (path, ⟨⟨"/s"⟩, 1700000000000⟩), t') ∧
      ∃ bs, t'.read (t'.placeOf path) = .ok bs ∧
        readPairs (Json.Token.ofBytes bs) = .ok s.pairs ∧ decode bs = .ok s := by
  intro a s path
  have written : (a.write 1700000000000 s .empty).1 =
      .ok (path, ⟨⟨"/s"⟩, 1700000000000⟩) := by decide +kernel
  exact ⟨_, Prod.ext written rfl,
    (written_store_reads_back a 1700000000000 s .empty).2 _ _ _ (Prod.ext written rfl)⟩

/-- `bs` is the document of pairs in increasing order of their keys, and these are the values that
`s` has. -/
structure Documents (s : Store) (ps : List (String × String)) (bs : Bytes) : Prop where
  bytes : bs = Utf8.encodeChars (text ps)
  read : readPairs (Json.Token.ofBytes bs) = .ok ps
  increasing : ps.Pairwise fun p q => Text.Before p.1 q.1
  once : (ps.map Prod.fst).Nodup
  mem_iff : ∀ k v, (k, v) ∈ ps ↔ s.get? k = some v

theorem documents_encode (s : Store) : Documents s s.pairs (encode s) where
  bytes := rfl
  read := by rw [ofBytes_encode, readPairs_scan_text]
  increasing := s.ordered
  once := s.nodup_keys
  mem_iff _ _ := Store.mem_pairs_iff

/-- Two histories that leave every key with the same value are saved alike: a write does the same
for both, and every file that is written for either holds one and the same document. -/
theorem saved_alike {r s : Store} {qs rs : List Query}
    (same : ∀ k, (r.applyAll qs).2.get? k = (s.applyAll rs).2.get? k) :
    (∀ (a : Archive) (now : Nat) (t : FileTree),
      a.write now (r.applyAll qs).2 t = a.write now (s.applyAll rs).2 t) ∧
    ∃ ps bs, Documents (r.applyAll qs).2 ps bs ∧
      ∀ store, store = (r.applyAll qs).2 ∨ store = (s.applyAll rs).2 →
        ∀ (a a' : Archive) (now : Nat) (t t' : FileTree) (path : Path),
          a.write now store t = (.ok (path, a'), t') → t'.read (t'.placeOf path) = .ok bs := by
  have equal : (r.applyAll qs).2 = (s.applyAll rs).2 := Store.ext same
  refine ⟨fun a now t => by rw [equal], _, _, documents_encode _, ?_⟩
  rintro store (rfl | rfl) a a' now t t' path written
  · exact read_of_write written
  · rw [equal]
    exact read_of_write written

/-- Pairs with a key twice and a key that was set and deleted again, and the same pairs set one by
one the other way round. -/
theorem saved_alike_in_any_order :
    let r : Store := .ofList [("b", "1"), ("a", "0"), ("b", "2")]
    let qs : List Query := [.set "c" "3", .delete "c"]
    let rs : List Query := [.set "b" "2", .get "a", .set "a" "0"]
    let a : Archive := ⟨⟨"/s"⟩, 0⟩
    let path : Path := ⟨"/s/1700000000000-snapshot.json"⟩
    (∀ k, (r.applyAll qs).2.get? k = ((∅ : Store).applyAll rs).2.get? k) ∧
      ∃ t', a.write 1700000000000 (r.applyAll qs).2 .empty =
          (.ok (path, ⟨⟨"/s"⟩, 1700000000000⟩), t') ∧
        a.write 1700000000000 ((∅ : Store).applyAll rs).2 .empty =
          (.ok (path, ⟨⟨"/s"⟩, 1700000000000⟩), t') ∧
        t'.read (t'.placeOf path) = .ok (Utf8.encode "[[\"a\",\"0\"],[\"b\",\"2\"]]") := by
  intro r qs rs a path
  have same (k : String) :
      (r.applyAll qs).2.get? k = ((∅ : Store).applyAll rs).2.get? k := by
    rw [show (r.applyAll qs).2 = ((∅ : Store).applyAll rs).2 by decide +kernel]
  have written : (a.write 1700000000000 (r.applyAll qs).2 .empty).1 =
      .ok (path, ⟨⟨"/s"⟩, 1700000000000⟩) := by decide +kernel
  refine ⟨same, _, Prod.ext written rfl, ?_, by decide +kernel⟩
  rw [← (saved_alike same).1]
  exact Prod.ext written rfl

end Keyline.Archive
