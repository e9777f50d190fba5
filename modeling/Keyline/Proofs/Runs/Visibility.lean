import Keyline.Proofs.Query.Keys
import Keyline.Proofs.Runs.KeyHistories
import Keyline.Proofs.Runs.OneLine
import Keyline.Proofs.Runs.Stores

/-!
# What can be read

What a store holds was set by a command, even if it was saved and restored since, and every key that
a command names can be asked for. The answer tells whether the key has a value, and which. So two
databases that answer every `get` alike hold the same.
-/
namespace Keyline

namespace Query

theorem eq_of_answer_get {k : String} {a b : Option String}
    (h : (get k).answer a = (get k).answer b) : a = b := by
  have apart (v : String) : "OK " ++ v ≠ "-OK" := by
    intro h
    have := congrArg String.toList h
    simp at this
  cases a with
  | none =>
    cases b with
    | none => rfl
    | some w => exact absurd h.symm (apart w)
  | some v =>
    cases b with
    | none => exact absurd h (apart v)
    | some w => exact congrArg some ((String.append_right_inj _).1 h)

end Query

namespace Store

abbrev Askable (s : Store) : Prop := s.All (fun k => Query.IsKey k.toList) fun _ => True

theorem Askable.respond {s : Store} (h : s.Askable) (raw : String) : (s.respond raw).2.Askable :=
  All.respond h fun _ _ parsed => ⟨Query.isKey_of_parse parsed, trivial⟩

theorem Askable.get?_eq_none {s : Store} (h : s.Askable) {k : String}
    (hk : ¬ Query.IsKey k.toList) : s.get? k = none := by
  rw [Option.eq_none_iff_forall_not_mem]
  intro v hv
  exact hk (h k v hv).1

theorem text_get (s : Store) {k : String} (hk : Query.IsKey k.toList) :
    (s.respond ("get " ++ k)).1.text = (Query.get k).answer (s.get? k) := by
  rw [respond_of_parse (Query.parse_get hk), apply_fst, Query.text_reply]
  rfl

/-- Stores whose keys can all be asked for are told apart by what they answer. -/
theorem Askable.ext {s t : Store} (hs : s.Askable) (ht : t.Askable)
    (same : ∀ k, (s.respond ("get " ++ k)).1.text = (t.respond ("get " ++ k)).1.text) :
    s = t := by
  ext1 k
  by_cases hk : Query.IsKey k.toList
  · apply Query.eq_of_answer_get
    rw [← text_get s hk, ← text_get t hk]
    exact same k
  · rw [hs.get?_eq_none hk, ht.get?_eq_none hk]

end Store

theorem Database.result_get (db : Database) (now : Nat) (k : String) (t : FileTree) :
    (db.handle now ("get " ++ k) t).result = .ok (db.store.respond ("get " ++ k)).1 := by
  by_cases hk : Query.IsKey k.toList
  · have parsed := Query.parse_get hk
    rw [handle_read parsed rfl, Store.respond_of_parse parsed]
  · obtain ⟨e, parsed⟩ := Query.parse_get_of_not_isKey hk
    rw [handle_rejected parsed, Store.respond_of_rejected parsed]

namespace Worker

/-- Databases were opened, one after another, over a directory that held no snapshots, and this one
is open now. -/
def FromScratch (w : Worker) : Prop :=
  ∃ dir t es,
    (∀ m, Archive.isSnapshot t (Site.archive dir) (t.placeOf (Site.archive dir)) m = false) ∧
      Site.Run dir (Archive.SameSnapshots (t.placeOf (Site.archive dir))) ⟨none, t⟩ es
        ⟨some w.database, w.files⟩

theorem FromScratch.askable {w : Worker} (h : w.FromScratch) : w.database.store.Askable := by
  obtain ⟨dir, t, es, bare, run⟩ := h
  exact Site.store_of_run (Store.all_empty _ _) (fun s raw hs => Store.Askable.respond hs raw)
    bare run

/-- Nothing is out of reach: if two databases give the same answers whatever is asked for, their
stores are equal. -/
theorem eq_of_same_answers {v w : Worker} (hv : v.FromScratch) (hw : w.FromScratch) {n m : Nat}
    (same : ∀ k, (Reply.ofResult (v.database.handle n ("get " ++ k) v.files).result).text =
      (Reply.ofResult (w.database.handle m ("get " ++ k) w.files).result).text) :
    v.database.store = w.database.store := by
  apply hv.askable.ext hw.askable
  intro k
  have h := same k
  rwa [Database.result_get, Database.result_get] at h

/-- One database was asked to set a value, the other was opened once that value was saved. -/
theorem eq_of_same_answers_of_restored :
    let n := 1600000000000
    ∃ v w : Worker, v.FromScratch ∧ w.FromScratch ∧
      (∀ k, (Reply.ofResult (v.database.handle n ("get " ++ k) v.files).result).text =
        (Reply.ofResult (w.database.handle n ("get " ++ k) w.files).result).text) ∧
      v.database.store.pairs = [("k", "v")] ∧ v.database.store = w.database.store := by
  intro n
  let c : Config := { dataDir := ⟨"/d"⟩ }
  let outside := Archive.SameSnapshots (FileTree.empty.placeOf (Site.archive c.dataDir))
  have bare := Archive.isSnapshot_empty (Site.archive c.dataDir)
    (FileTree.empty.placeOf (Site.archive c.dataDir))
  let db₁ : Database := ⟨c, ∅, ⟨⟨"/d/snapshots"⟩, 0⟩, some ⟨⟨"/d/logs"⟩, 5, n,
    ⟨["d", "logs", "1600000000000.kvslog"], 0⟩, 0⟩, 0⟩
  let t₁ := (Database.start c n .empty).2
  have start₁ : Database.start c n .empty = (.ok db₁, t₁) := Prod.ext (by decide +kernel) rfl
  let h₂ := db₁.handle n "set k v" t₁
  let db₃ : Database := { h₂.database with archive := ⟨⟨"/d/snapshots"⟩, n⟩, unsaved := 0 }
  let t₃ := (h₂.database.tick n h₂.files).2
  have tick₃ : h₂.database.tick n h₂.files =
      (.ok (some ⟨"/d/snapshots/1600000000000-snapshot.json"⟩, db₃), t₃) :=
    Prod.ext (by decide +kernel) rfl
  let db₅ : Database := ⟨c, .ofList [("k", "v")], ⟨⟨"/d/snapshots"⟩, n⟩, some ⟨⟨"/d/logs"⟩, 5, n + 1,
    ⟨["d", "logs", "1600000000001.kvslog"], 0⟩, 0⟩, 0⟩
  let t₅ := (Database.start c (n + 1) t₃).2
  have start₅ : Database.start c (n + 1) t₃ = (.ok db₅, t₅) := Prod.ext (by decide +kernel) rfl
  have run₂ : Site.Run c.dataDir outside ⟨none, .empty⟩
      [.opened db₁.store, .deed (.handled "set k v" h₂.result)] ⟨some h₂.database, h₂.files⟩ :=
    .step (.step (.start _) (.opened c n .empty t₁ db₁ rfl start₁))
      (.deed ⟨db₁, t₁⟩ ⟨h₂.database, h₂.files⟩ _ (.handled db₁ t₁ n "set k v"))
  have run₅ := Site.Run.step (.step (.step run₂
    (.deed ⟨h₂.database, h₂.files⟩ ⟨db₃, t₃⟩ _ (.saved h₂.database db₃ h₂.files t₃ n _ tick₃)))
    (.ended db₃ t₃)) (.opened c (n + 1) t₃ t₅ db₅ rfl start₅)
  have hv : FromScratch ⟨h₂.database, h₂.files⟩ := ⟨c.dataDir, .empty, _, bare, run₂⟩
  have hw : FromScratch ⟨db₅, t₅⟩ := ⟨c.dataDir, .empty, _, bare, run₅⟩
  have same (k : String) :
      (Reply.ofResult (h₂.database.handle n ("get " ++ k) h₂.files).result).text =
        (Reply.ofResult (db₅.handle n ("get " ++ k) t₅).result).text := by
    have hstore : h₂.database.store = db₅.store := by decide +kernel
    rw [Database.result_get, Database.result_get, hstore]
  have pairs : h₂.database.store.pairs = [("k", "v")] := by decide +kernel
  exact ⟨_, _, hv, hw, same, pairs, eq_of_same_answers hv hw same⟩

end Worker
end Keyline
