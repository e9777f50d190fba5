import Keyline.Proofs.Query.Keys
import Keyline.Proofs.Runs.Responses

/-!
# Texts of one line

Nothing escapes the line feeds in a reply, so a reply is one line only if the texts that it is made
of are. What is read of a command of one line is of one line; what a store gives back was put into
it; and where something fails its report names a path. So a database with texts of one line answers
commands of one line with one line, and keeps such texts only.
-/
namespace Keyline

def OneLine (s : String) : Prop := '\n' ∉ s.toList

instance : DecidablePred OneLine := fun s => inferInstanceAs (Decidable ('\n' ∉ s.toList))

theorem OneLine.append {s t : String} (hs : OneLine s) (ht : OneLine t) : OneLine (s ++ t) := by
  rw [OneLine, String.toList_append, List.mem_append, not_or]
  exact ⟨hs, ht⟩

theorem oneLine_ofList {cs : List Char} (h : '\n' ∉ cs) : OneLine (String.ofList cs) := by
  rw [OneLine, String.toList_ofList]
  exact h

theorem oneLine_toString (n : Nat) : OneLine (toString n) := by
  rw [OneLine, Nat.toString_eq_ofList_toDigits, String.toList_ofList]
  intro h
  exact absurd (Nat.isDigit_of_mem_toDigits (by decide) (by decide) h) (by decide)

theorem Path.oneLine_child {p : Path} {name : String} (hp : OneLine p.text) (hn : OneLine name) :
    OneLine (p.child name).text := by
  rw [child]
  split
  · exact hn
  · split
    · exact hp.append hn
    · exact (hp.append (by decide +kernel)).append hn

theorem Fault.oneLine_during (f : Fault) {act path : String} (ha : OneLine act)
    (hp : OneLine path) : OneLine (f.during act path) := by
  have hf : OneLine f.message := by cases f <;> decide +kernel
  exact (((OneLine.append (by decide +kernel) ha).append (by decide +kernel)).append hp |>.append
    (by decide +kernel)).append hf

theorem AppendLog.oneLine_of_record {log : AppendLog} {now : Nat} {raw : String} {t : FileTree}
    {e : Failure} (h : log.record now raw t = .error e) (hdir : OneLine log.dir.text) :
    OneLine e.message := by
  rw [record] at h
  split at h
  · split at h
    · cases h
    · next he =>
      cases h
      rw [rotate, openFile] at he
      split at he
      · cases he
      · next f _ =>
        cases he
        have hname : OneLine (fileName (nextTimestamp now log.timestamp)) :=
          (oneLine_toString _).append (by decide +kernel)
        exact OneLine.append (by decide +kernel) (f.oneLine_during (by decide +kernel)
          (Path.oneLine_child hdir hname))
  · cases h

namespace Query

theorem oneLine_of_isKey {k : String} (h : IsKey k.toList) : OneLine k := by
  intro hn
  have := h.2 _ hn
  simp at this

theorem oneLine_of_value? {cs : List Char} {v : String} (h : value? cs = some v)
    (hcs : '\n' ∉ cs) : OneLine v := by
  unfold value? at h
  split at h
  · split at h
    · cases h
      apply oneLine_ofList
      intro hn
      exact hcs (List.mem_cons_of_mem _ (List.dropLast_subset _ hn))
    · cases h
  · split at h
    · cases h
    · cases h
      exact oneLine_ofList hcs

theorem not_mem_of_cut {c : Char} {cs w r : List Char} (h : cut cs = (w, some r)) (hc : c ∉ cs) :
    c ∉ r := by
  obtain ⟨rfl, -⟩ := cut_eq_some_iff.1 h
  simp at hc
  exact hc.2.2

theorem oneLine_of_parse {raw k v : String} (h : parse raw = .ok (.set k v)) (hraw : OneLine raw) :
    OneLine k ∧ OneLine v := by
  refine ⟨oneLine_of_isKey (isKey_of_parse h), ?_⟩
  obtain ⟨verb, rest, hverb, hq⟩ := parse_eq_ok_iff.1 h
  obtain ⟨cs, r, rfl, hcut, hv⟩ := cut_of_arguments?_set hq
  exact oneLine_of_value? hv (not_mem_of_cut hcut (not_mem_of_cut hverb hraw))

end Query

theorem Rejection.oneLine (e : Rejection) : OneLine (Reply.error e.message).text := by
  cases e <;> decide +kernel

theorem Reply.oneLine_changed (b : Bool) : OneLine (changed b).text := by cases b <;> decide +kernel

namespace Store

def All (keys values : String → Prop) (s : Store) : Prop :=
  ∀ k v, s.get? k = some v → keys k ∧ values v

theorem all_empty (keys values : String → Prop) : (∅ : Store).All keys values := by
  intro k v h
  simp at h

theorem All.apply {keys values : String → Prop} {s : Store} (h : s.All keys values) {q : Query}
    (hq : ∀ k v, q = .set k v → keys k ∧ values v) : (s.apply q).2.All keys values := by
  intro j v hj
  cases q with
  | get k =>
    rw [Store.apply] at hj
    split at hj <;> exact h j v hj
  | delete k =>
    rw [Store.apply, get?_erase] at hj
    split at hj
    · cases hj
    · exact h j v hj
  | set k w =>
    rw [Store.apply, get?_insert] at hj
    split at hj
    · next e =>
      cases hj
      exact e ▸ hq k v rfl
    · exact h j v hj

theorem All.oneLine {keys : String → Prop} {s : Store} (h : s.All keys OneLine) (q : Query) :
    OneLine (s.apply q).1.text := by
  cases q with
  | get k =>
    rw [Store.apply]
    split
    · next v hv => exact OneLine.append (by decide +kernel) (h k v hv).2
    · exact (by decide +kernel : OneLine Reply.notFound.text)
  | delete k => exact Reply.oneLine_changed _
  | set k v => exact Reply.oneLine_changed _

/-- What is in a store after a command was there before, or is what the command sets. -/
theorem All.respond {keys values : String → Prop} {s : Store} (h : s.All keys values) {raw : String}
    (given : ∀ k v, Query.parse raw = .ok (.set k v) → keys k ∧ values v) :
    (s.respond raw).2.All keys values := by
  cases parsed : Query.parse raw with
  | error e =>
    rw [respond_of_rejected parsed]
    exact h
  | ok q =>
    rw [respond_of_parse parsed]
    exact h.apply fun k v hq => given k v (hq ▸ parsed)

theorem All.oneLine_respond {keys : String → Prop} {s : Store} (h : s.All keys OneLine)
    (raw : String) : OneLine (s.respond raw).1.text := by
  cases parsed : Query.parse raw with
  | error e =>
    rw [respond_of_rejected parsed]
    exact e.oneLine
  | ok q =>
    rw [respond_of_parse parsed]
    exact h.oneLine q

abbrev Plain (s : Store) : Prop := s.All OneLine OneLine

end Store

theorem Database.Handling.oneLine {db db' : Database} {now : Nat} {raw : String}
    {t t' : FileTree} {r : Except Failure Reply} (h : Handling db now raw t r db' t')
    (sound : db.Sound t) (dir : OneLine db.config.dataDir.text) (plain : db.store.Plain)
    (hraw : OneLine raw) : db'.store.Plain ∧ OneLine (Reply.ofResult r).text := by
  obtain ⟨hstore, hreply⟩ := h.respond
  have next := plain.respond fun k v parsed => Query.oneLine_of_parse parsed hraw
  refine ⟨hstore ▸ next, ?_⟩
  cases r with
  | ok reply =>
    rw [Reply.ofResult, hreply reply rfl]
    exact plain.oneLine_respond raw
  | error e =>
    cases h with
    | unrecorded q log e parsed mutates logged record =>
      refine OneLine.append (by decide +kernel) ?_
      apply AppendLog.oneLine_of_record record
      rw [(sound.log log logged).1]
      exact Path.oneLine_child dir (by decide +kernel)

end Keyline
