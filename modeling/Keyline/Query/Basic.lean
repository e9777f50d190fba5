/-!
# Queries and replies

What a client may ask of a store: to read a key, to remove it, or to give it a value. And what it is
told, with the text on the wire.
-/
namespace Keyline

inductive Verb
  | get | delete | set
  deriving Repr, DecidableEq

namespace Verb

def word : Verb → String
  | get => "get"
  | delete => "delete"
  | set => "set"

def all : List Verb := [get, delete, set]

/-- Case matters. -/
def ofWord? (w : String) : Option Verb := all.find? (·.word = w)

@[simp] theorem ofWord?_word (v : Verb) : ofWord? v.word = some v := by cases v <;> decide

theorem ofWord?_eq_some_iff {w : String} {v : Verb} : ofWord? w = some v ↔ w = v.word := by
  constructor
  · intro h
    have := List.find?_some h
    exact (of_decide_eq_true this).symm
  · rintro rfl
    exact ofWord?_word v

end Verb

inductive Query
  | get (key : String)
  | delete (key : String)
  | set (key value : String)
  deriving Repr, DecidableEq

namespace Query

def verb : Query → Verb
  | get _ => .get
  | delete _ => .delete
  | set _ _ => .set

def key : Query → String
  | get k | delete k | set k _ => k

/-- Removing counts even where the key is absent. -/
def mutates : Query → Bool
  | get _ => false
  | delete _ | set _ _ => true

end Query

inductive Reply
  /-- The key has this value. -/
  | value (v : String)
  | notFound
  /-- Whether the set of keys changed: a new key was set, or a present one was removed. -/
  | changed (b : Bool)
  | error (message : String)
  deriving Repr, DecidableEq

namespace Reply

def text : Reply → String
  | value v => "OK " ++ v
  | notFound => "-OK"
  | changed true => "OK 1"
  | changed false => "OK 0"
  | error message => "ERR " ++ message

def isError : Reply → Bool
  | error _ => true
  | _ => false

end Reply
end Keyline
