import Keyline.Proofs.Runs.Deeds

/-!
# What a store responds

What a store answers to a query depends on what it holds for the key that the query names, and
nothing else in it is changed. Handling a command leaves a database with the store that the command
leads to, whether or not it could be recorded, and its reply is that of the store unless it could
not.
-/
namespace Keyline

namespace Query

/-- The reply to a query for a key that has this value, if it has one. -/
def reply : Query → Option String → Reply
  | get _, some v => .value v
  | get _, none => .notFound
  | delete _, o => .changed o.isSome
  | set _ _, o => .changed o.isNone

/-- What a query gives the key `k`, if anything: a value, or none where it removes the key. -/
def given? (k : String) : Query → Option (Option String)
  | get _ => none
  | delete j => if j = k then some none else none
  | set j v => if j = k then some (some v) else none

theorem given?_of_ne {k : String} {q : Query} (h : q.key ≠ k) : q.given? k = none := by
  cases q with
  | get j => rfl
  | delete j => exact if_neg h
  | set j v => exact if_neg h

end Query

namespace Store

theorem apply_fst (s : Store) (q : Query) : (s.apply q).1 = q.reply (s.get? q.key) := by
  cases q with
  | get k =>
    rw [apply, Query.key]
    cases s.get? k <;> rfl
  | delete k => rfl
  | set k v => rfl

theorem get?_apply (s : Store) (q : Query) (k : String) :
    (s.apply q).2.get? k = (q.given? k).getD (s.get? k) := by
  cases q with
  | get j =>
    rw [apply]
    cases s.get? j <;> rfl
  | delete j => by_cases h : j = k <;> simp [apply, Query.given?, h]
  | set j v => by_cases h : j = k <;> simp [apply, Query.given?, h]

theorem apply_of_not_mutates {q : Query} (h : q.mutates = false) (s : Store) :
    (s.apply q).2 = s := by
  cases q with
  | get k =>
    rw [apply]
    split <;> rfl
  | delete k => simp [Query.mutates] at h
  | set k v => simp [Query.mutates] at h

def respond (s : Store) (raw : String) : Reply × Store :=
  match Query.parse raw with
  | .error e => (.error e.message, s)
  | .ok q => s.apply q

def respondAll (s : Store) : List String → List Reply
  | [] => []
  | raw :: rest => (s.respond raw).1 :: (s.respond raw).2.respondAll rest

theorem respond_of_parse {raw : String} {q : Query} (parsed : Query.parse raw = .ok q)
    (s : Store) : s.respond raw = s.apply q := by
  rw [respond, parsed]

theorem respond_of_rejected {raw : String} {e : Rejection} (rejected : Query.parse raw = .error e)
    (s : Store) : s.respond raw = (.error e.message, s) := by
  rw [respond, rejected]

theorem get?_respond (s : Store) (raw k : String) : (s.respond raw).2.get? k =
    ((Query.parse raw).toOption.bind (Query.given? k)).getD (s.get? k) := by
  cases parsed : Query.parse raw with
  | error e => simp [respond_of_rejected parsed, Except.toOption]
  | ok q => simp [respond_of_parse parsed, get?_apply, Except.toOption]

end Store

theorem Database.Handling.respond {db db' : Database} {now : Nat} {raw : String}
    {t t' : FileTree} {r : Except Failure Reply} (h : Handling db now raw t r db' t') :
    db'.store = (db.store.respond raw).2 ∧ ∀ reply, r = .ok reply →
      reply = (db.store.respond raw).1 := by
  cases h with
  | rejected e parsed =>
    rw [Store.respond_of_rejected parsed]
    exact ⟨rfl, by rintro _ ⟨⟩; rfl⟩
  | read q parsed mutates =>
    rw [Store.respond_of_parse parsed]
    exact ⟨rfl, by rintro _ ⟨⟩; rfl⟩
  | unlogged q parsed mutates logged =>
    rw [Store.respond_of_parse parsed]
    exact ⟨rfl, by rintro _ ⟨⟩; rfl⟩
  | recorded q log log' t' parsed mutates logged record =>
    rw [Store.respond_of_parse parsed]
    exact ⟨rfl, by rintro _ ⟨⟩; rfl⟩
  | unrecorded q log e parsed mutates logged record =>
    rw [Store.respond_of_parse parsed]
    exact ⟨rfl, nofun⟩

end Keyline
