import Keyline.Proofs.Runs.Responses
import Keyline.Proofs.Runs.Service

/-!
# Clients with keys of their own

Commands for different keys do not touch each other: what a store holds for some keys, and what it
answers about them, does not depend on commands for others. So if no key is named by two clients of
a worker, each of them gets the replies that it would get alone, and the store ends the same,
whatever the order in which their commands meet in the queue.
-/
namespace Keyline

namespace Query

def keyOf? (raw : String) : Option String := (parse raw).toOption.map key

theorem keyOf?_of_parse {raw : String} {q : Query} (h : parse raw = .ok q) :
    keyOf? raw = some q.key := by
  simp [keyOf?, h, Except.toOption]

end Query

namespace Store

/-- The same is held for these keys. -/
def AgreeOn (keys : String → Prop) (s t : Store) : Prop := ∀ k, keys k → s.get? k = t.get? k

section Agree
variable {keys : String → Prop} {s t : Store} {raw : String}

/-- Stores that agree on the key of a command answer it alike and go on to agree. -/
theorem AgreeOn.respond (h : AgreeOn keys s t) (own : ∀ k, Query.keyOf? raw = some k → keys k) :
    (s.respond raw).1 = (t.respond raw).1 ∧
      AgreeOn keys (s.respond raw).2 (t.respond raw).2 := by
  refine ⟨?_, fun k hk => by rw [get?_respond, get?_respond, h k hk]⟩
  cases parsed : Query.parse raw with
  | error e => rw [respond_of_rejected parsed, respond_of_rejected parsed]
  | ok q =>
    rw [respond_of_parse parsed, respond_of_parse parsed, apply_fst, apply_fst,
      h q.key (own q.key (Query.keyOf?_of_parse parsed))]

theorem agreeOn_respond (s : Store) (foreign : ∀ k, Query.keyOf? raw = some k → ¬ keys k) :
    AgreeOn keys (s.respond raw).2 s := by
  intro k hk
  cases parsed : Query.parse raw with
  | error e => rw [respond_of_rejected parsed]
  | ok q =>
    have hne : q.key ≠ k := by
      rintro rfl
      exact foreign q.key (Query.keyOf?_of_parse parsed) hk
    rw [respond_of_parse parsed, get?_apply, Query.given?_of_ne hne]
    rfl

end Agree

variable {ι : Type}

/-- Answers commands of several clients one after another, with the store after them. -/
def serve (s : Store) : List (ι × String) → List (ι × Reply) × Store
  | [] => ([], s)
  | c :: cs =>
    let more := (s.respond c.2).2.serve cs
    ((c.1, (s.respond c.2).1) :: more.1, more.2)

/-- Where some clients alone name certain keys, and no others, they are answered as they would be
without the rest, and these keys end as they would. -/
theorem AgreeOn.serve {keys : String → Prop} {s t : Store} (h : AgreeOn keys s t)
    (mine : ι → Bool) {cs : List (ι × String)}
    (own : ∀ c ∈ cs, ∀ k, Query.keyOf? c.2 = some k → (mine c.1 = true ↔ keys k)) :
    (s.serve cs).1.filter (fun r => mine r.1) = (t.serve (cs.filter fun c => mine c.1)).1 ∧
      AgreeOn keys (s.serve cs).2 (t.serve (cs.filter fun c => mine c.1)).2 := by
  induction cs generalizing s t with
  | nil => exact ⟨rfl, h⟩
  | cons c cs ih =>
    obtain ⟨first, rest⟩ := List.forall_mem_cons.1 own
    cases hc : mine c.1 with
    | true =>
      obtain ⟨reply, h'⟩ := h.respond fun k hk => (first k hk).1 hc
      obtain ⟨replies, agree⟩ := ih h' rest
      simp only [Store.serve, List.filter_cons, hc, if_true]
      exact ⟨by rw [replies, reply], agree⟩
    | false =>
      have h' : AgreeOn keys (s.respond c.2).2 t := by
        intro k hk
        have foreign (j : String) (hj : Query.keyOf? c.2 = some j) : ¬ keys j := by
          rw [← first j hj, hc]
          exact Bool.false_ne_true
        rw [agreeOn_respond s foreign k hk, h k hk]
      obtain ⟨replies, agree⟩ := ih h' rest
      simp only [Store.serve, List.filter_cons, hc]
      exact ⟨replies, agree⟩

theorem serve_of_one (s : Store) (i : ι) (raws : List String) :
    (s.serve (raws.map (Prod.mk i))).1 = (s.respondAll raws).map (Prod.mk i) := by
  induction raws generalizing s with
  | nil => rfl
  | cons raw raws ih => exact congrArg _ (ih _)

end Store

namespace Worker
variable {ι : Type}

/-- A tick or a command; no stop, and no reply that was decided elsewhere. -/
def isRoutine : Event ι → Bool
  | .tick _ | .message _ (.command _ _) => true
  | .message _ (.ready _ _) | .message _ .stop => false

def requests (es : List (Event ι)) : List (ι × String) :=
  es.filterMap fun
    | .message _ (.command raw i) => some (i, raw)
    | _ => none

/-- Nothing fails to be kept. -/
def Undisturbed (w : Worker) (es : List (Event ι)) : Prop := ∀ text, .report text ∉ (w.run es).2

theorem replies_reports (reports : List String) :
    replies (reports.map .report : List (Output ι)) = [] := by
  simp [replies]

theorem replies_append (out more : List (Output ι)) :
    replies (out ++ more) = replies out ++ replies more := List.filterMap_append

theorem run_cons (w : Worker) {e : Event ι} (routine : isRoutine e = true) (es : List (Event ι)) :
    w.run (e :: es) = (((w.step e).1.run es).1, (w.step e).2 ++ ((w.step e).1.run es).2) := by
  cases e with
  | tick now => rfl
  | message now m =>
    cases m with
    | command raw i => rfl
    | ready reply i => simp [isRoutine] at routine
    | stop => simp [isRoutine] at routine

theorem command_eq_respond {w : Worker} {now : Nat} {raw : String} {i : ι}
    (unfailed : ∀ text, .report text ∉ (w.command now raw i).2) :
    (w.command now raw i).2 = [.reply i (w.database.store.respond raw).1.text] ∧
      (w.command now raw i).1.database.store = (w.database.store.respond raw).2 := by
  obtain ⟨reports, hcommand, kept⟩ := w.command_eq now raw i
  rw [hcommand] at unfailed ⊢
  obtain rfl : reports = [] := by
    rw [List.eq_nil_iff_forall_not_mem]
    intro text ht
    exact unfailed text (by simp [ht])
  obtain ⟨reply, hr⟩ := kept rfl
  obtain ⟨hstore, hreply⟩ := (w.database.handling now raw w.files).respond
  refine ⟨?_, hstore⟩
  rw [hr, ← hreply reply hr]
  rfl

/-- Where nothing fails, the replies and the store are those of the commands alone. -/
theorem run_eq_serve {w : Worker} {es : List (Event ι)} (routine : ∀ e ∈ es, isRoutine e = true)
    (undisturbed : w.Undisturbed es) :
    replies (w.run es).2 =
        (w.database.store.serve (requests es)).1.map (fun r => (r.1, r.2.text)) ∧
      (w.run es).1.database.store = (w.database.store.serve (requests es)).2 := by
  induction es generalizing w with
  | nil => exact ⟨rfl, rfl⟩
  | cons e es ih =>
    obtain ⟨first, later⟩ := List.forall_mem_cons.1 routine
    rw [Undisturbed, run_cons w first] at undisturbed
    obtain ⟨replies', store⟩ := ih later fun text h => undisturbed text (List.mem_append_right _ h)
    rw [run_cons w first, replies_append, replies', store]
    cases e with
    | tick now =>
      obtain ⟨reports, hout⟩ := w.outputs_tick ι now
      have hstep : w.step (.tick now : Event ι) = w.tick now := rfl
      rw [hstep, hout, replies_reports, w.store_tick ι now]
      exact ⟨rfl, rfl⟩
    | message now m =>
      cases m with
      | ready reply i => simp [isRoutine] at first
      | stop => simp [isRoutine] at first
      | command raw i =>
        have unfailed : ∀ text, .report text ∉ (w.command now raw i).2 :=
          fun text h => undisturbed text (List.mem_append_left _ h)
        have hstep : w.step (.message now (.command raw i)) = w.command now raw i := rfl
        obtain ⟨out, next⟩ := command_eq_respond unfailed
        rw [hstep, out, next]
        exact ⟨rfl, rfl⟩

variable [DecidableEq ι]

def streamOf (i : ι) (cs : List (ι × String)) : List String :=
  (cs.filter fun c => c.1 = i).map Prod.snd

/-- The events are ticks and the commands of these streams, each stream in its order. -/
structure Interleaves (streams : ι → List String) (es : List (Event ι)) : Prop where
  routine : ∀ e ∈ es, isRoutine e = true
  order : ∀ i, streamOf i (requests es) = streams i

def received (w : Worker) (es : List (Event ι)) (i : ι) : List String :=
  Service.textsTo i (replies (w.run es).2)

theorem textsTo_map (i : ι) (rs : List (ι × Reply)) :
    Service.textsTo i (rs.map fun r => (r.1, r.2.text)) =
      (rs.filter fun r => r.1 = i).map fun r => r.2.text := by
  induction rs with
  | nil => rfl
  | cons r rs ih =>
    rw [Service.textsTo] at ih
    by_cases h : r.1 = i <;> simp [Service.textsTo, h, ih]

theorem filter_eq_of_streamOf {i : ι} {cs : List (ι × String)} {raws : List String}
    (h : streamOf i cs = raws) : cs.filter (fun c => c.1 = i) = raws.map (Prod.mk i) := by
  subst h
  have same : ∀ c ∈ cs.filter (fun c => c.1 = i), (Prod.mk i ∘ Prod.snd) c = c := by
    intro c hc
    rw [List.mem_filter, decide_eq_true_iff] at hc
    exact Prod.ext hc.2.symm rfl
  rw [streamOf, List.map_map, List.map_congr_left same, List.map_id'']
  exact fun c => rfl

/-- No two of the streams name the same key. -/
def NoSharedKey (streams : ι → List String) : Prop :=
  ∀ i j k, k ∈ (streams i).filterMap Query.keyOf? → k ∈ (streams j).filterMap Query.keyOf? → i = j

section Interleaves
variable {streams : ι → List String} {es : List (Event ι)}

theorem Interleaves.mem (h : Interleaves streams es) {c : ι × String} (hc : c ∈ requests es) :
    c.2 ∈ streams c.1 := by
  rw [← h.order c.1, streamOf, List.mem_map]
  exact ⟨c, by simpa using hc, rfl⟩

theorem serve_of_interleaves (apart : NoSharedKey streams) (h : Interleaves streams es)
    (s : Store) (i : ι) :
    (s.serve (requests es)).1.filter (fun r => r.1 = i) =
        (s.respondAll (streams i)).map (Prod.mk i) ∧
      Store.AgreeOn (fun k => k ∈ (streams i).filterMap Query.keyOf?) (s.serve (requests es)).2
        (s.serve ((streams i).map (Prod.mk i))).2 := by
  have agree : Store.AgreeOn (fun k => k ∈ (streams i).filterMap Query.keyOf?) s s :=
    fun k hk => rfl
  have own : ∀ c ∈ requests es, ∀ k, Query.keyOf? c.2 = some k →
      (decide (c.1 = i) = true ↔ k ∈ (streams i).filterMap Query.keyOf?) := by
    intro c hc k hk
    have named : k ∈ (streams c.1).filterMap Query.keyOf? := List.mem_filterMap.2 ⟨_, h.mem hc, hk⟩
    rw [decide_eq_true_iff]
    constructor
    · rintro rfl
      exact named
    · exact apart _ _ k named
  have served := agree.serve (fun j => decide (j = i)) own
  rw [filter_eq_of_streamOf (h.order i), Store.serve_of_one] at served
  exact served

theorem get?_serve_of_unnamed (h : Interleaves streams es) (s : Store) {k : String}
    (unnamed : ∀ i, k ∉ (streams i).filterMap Query.keyOf?) :
    (s.serve (requests es)).2.get? k = s.get? k := by
  have agree : Store.AgreeOn (fun j => j = k) s s := fun j hj => rfl
  have own : ∀ c ∈ requests es, ∀ j, Query.keyOf? c.2 = some j → (false = true ↔ j = k) := by
    intro c hc j hj
    have hne : j ≠ k := by
      rintro rfl
      exact unnamed c.1 (List.mem_filterMap.2 ⟨_, h.mem hc, hj⟩)
    simp [hne]
  have served := (agree.serve (fun _ => false) own).2 k rfl
  rwa [List.filter_eq_nil_iff.2 fun c hc => Bool.false_ne_true] at served

theorem serve_snd_congr (apart : NoSharedKey streams) {fs : List (Event ι)}
    (he : Interleaves streams es) (hf : Interleaves streams fs) (s : Store) :
    (s.serve (requests fs)).2 = (s.serve (requests es)).2 := by
  ext k
  by_cases named : ∃ i, k ∈ (streams i).filterMap Query.keyOf?
  · obtain ⟨i, hi⟩ := named
    rw [(serve_of_interleaves apart hf s i).2 k hi, (serve_of_interleaves apart he s i).2 k hi]
  · rw [not_exists] at named
    rw [get?_serve_of_unnamed hf s named, get?_serve_of_unnamed he s named]

theorem received_eq (apart : NoSharedKey streams) (h : Interleaves streams es) {w : Worker}
    (undisturbed : w.Undisturbed es) (i : ι) :
    w.received es i = (w.database.store.respondAll (streams i)).map Reply.text := by
  have own := (serve_of_interleaves apart h w.database.store i).1
  rw [received, (run_eq_serve h.routine undisturbed).1, textsTo_map, own, List.map_map]
  rfl

end Interleaves

/-- Where no key is named by two clients and nothing fails to be kept, each client receives the same
in every order in which the commands of all may come, and what it receives where it is alone; and
the store ends the same. -/
theorem clients_apart_do_not_interfere {w : Worker} {streams : ι → List String}
    (apart : NoSharedKey streams) {es fs : List (Event ι)} (he : Interleaves streams es)
    (hf : Interleaves streams fs) (kept : w.Undisturbed es) (kept' : w.Undisturbed fs) :
    (∀ i, w.received fs i = w.received es i) ∧
      (∀ i gs, Interleaves (fun j => if j = i then streams j else []) gs → w.Undisturbed gs →
        w.received gs i = w.received es i) ∧
      (w.run fs).1.database.store = (w.run es).1.database.store := by
  refine ⟨fun i => ?_, fun i gs hg kept'' => ?_, ?_⟩
  · rw [received_eq apart hf kept', received_eq apart he kept]
  · have alone : NoSharedKey fun j => if j = i then streams j else [] := by
      intro j j' k hj hj'
      have named {j : ι} (h : k ∈ (if j = i then streams j else []).filterMap Query.keyOf?) :
          k ∈ (streams j).filterMap Query.keyOf? := by
        split at h
        · exact h
        · simp at h
      exact apart j j' k (named hj) (named hj')
    rw [received_eq alone hg kept'', received_eq apart he kept, if_pos rfl]
  · rw [(run_eq_serve hf.routine kept').2, (run_eq_serve he.routine kept).2]
    exact serve_snd_congr apart he hf _

/-- One client sets and reads a key, another deletes a key and sends a text that is no command. -/
theorem clients_apart_do_not_interfere_of_two :
    let c : Config := { dataDir := ⟨"/d"⟩ }
    let n := 1600000000000
    let streams (i : Bool) := if i then ["delete k", "put k"] else ["set j v", "get j"]
    let ask (i : Bool) (raw : String) : Event Bool := .message n (.command raw i)
    let es := [ask false "set j v", .tick n, ask true "delete k", ask true "put k",
      ask false "get j"]
    let fs := [ask true "delete k", ask false "set j v", ask false "get j", ask true "put k"]
    let alone := [ask false "set j v", ask false "get j"]
    ∃ db t, Database.start c n .empty = (.ok db, t) ∧ NoSharedKey streams ∧
      Interleaves streams es ∧ Interleaves streams fs ∧ Undisturbed ⟨db, t⟩ es ∧
      Undisturbed ⟨db, t⟩ fs ∧ received ⟨db, t⟩ es false = ["OK 1", "OK v"] ∧
      (∀ i, received ⟨db, t⟩ fs i = received ⟨db, t⟩ es i) ∧
      received ⟨db, t⟩ alone false = received ⟨db, t⟩ es false ∧
      (run ⟨db, t⟩ fs).1.database.store = (run ⟨db, t⟩ es).1.database.store := by
  intro c n streams ask es fs alone
  let db : Database := ⟨c, ∅, ⟨⟨"/d/snapshots"⟩, 0⟩, some ⟨⟨"/d/logs"⟩, 5, 1600000000000,
    ⟨["d", "logs", "1600000000000.kvslog"], 0⟩, 0⟩, 0⟩
  let t := (Database.start c n .empty).2
  have start : Database.start c n .empty = (.ok db, t) := Prod.ext (by decide +kernel) rfl
  have named : (streams false).filterMap Query.keyOf? = ["j", "j"] ∧
      (streams true).filterMap Query.keyOf? = ["k"] := by decide +kernel
  have apart : NoSharedKey streams := by
    intro i j k hi hj
    cases i <;> cases j <;> simp_all
  have he : Interleaves streams es :=
    ⟨by decide +kernel, fun i => by cases i <;> decide +kernel⟩
  have hf : Interleaves streams fs :=
    ⟨by decide +kernel, fun i => by cases i <;> decide +kernel⟩
  have ha : Interleaves (fun i => if i = false then streams i else []) alone :=
    ⟨by decide +kernel, fun i => by cases i <;> decide +kernel⟩
  have outE : (run ⟨db, t⟩ es).2 = [.reply false "OK 1", .reply true "OK 0",
      .reply true ("ERR " ++ Rejection.unknownCommand.message), .reply false "OK v"] := by
    decide +kernel
  have outF : (run ⟨db, t⟩ fs).2 = [.reply true "OK 0", .reply false "OK 1",
      .reply false "OK v", .reply true ("ERR " ++ Rejection.unknownCommand.message)] := by
    decide +kernel
  have outA : (run ⟨db, t⟩ alone).2 = [.reply false "OK 1", .reply false "OK v"] := by
    decide +kernel
  have ke : Undisturbed ⟨db, t⟩ es := by
    rw [Undisturbed, outE]
    simp
  have kf : Undisturbed ⟨db, t⟩ fs := by
    rw [Undisturbed, outF]
    simp
  have ka : Undisturbed ⟨db, t⟩ alone := by
    rw [Undisturbed, outA]
    simp
  obtain ⟨texts, single, store⟩ := clients_apart_do_not_interfere apart he hf ke kf
  refine ⟨db, t, start, apart, he, hf, ke, kf, ?_, texts, single false alone ha ka, store⟩
  rw [received, outE]
  rfl

end Worker
end Keyline
