import Mathlib.Algebra.Group.Int.Defs
import Mathlib.Algebra.Group.Nat.Defs
import Keyline.Config.Document

/-!
# What the members of a document say

A configuration document is read member by member. It is taken over exactly if every member names
a field that no member before it names and has a value that this field may have; then each field
has the value that its member gives it, in whatever order the members come. The first member that
is not so ends the reading, whatever follows.
-/
namespace Keyline

namespace Json

/-- What a document may hold. -/
inductive Value
  | null
  | bool (b : Bool)
  | integer (n : Int)
  /-- A number that is no 64-bit integer, as its text. -/
  | real (text : String)
  /-- A number too large for binary64, which is no token. -/
  | excess
  | string (s : String)
  | list (vs : List Value)
  | object (ms : List (String × Value))

namespace Value

mutual

def tokens : Value → List Token
  | null => [.null]
  | bool b => [.bool b]
  | integer n => [.integer n]
  | real text => [.real text]
  | excess => [.bad]
  | string s => [.string s]
  | list vs => .beginList :: itemTokens vs ++ [.endList]
  | object ms => .beginObject :: memberTokens ms ++ [.endObject]

def itemTokens : List Value → List Token
  | [] => []
  | [v] => v.tokens
  | v :: vs => v.tokens ++ .comma :: itemTokens vs

def memberTokens : List (String × Value) → List Token
  | [] => []
  | [(name, v)] => .string name :: .colon :: v.tokens
  | (name, v) :: ms => .string name :: .colon :: v.tokens ++ .comma :: memberTokens ms

end

/-- The first token of a value. A reader of settings looks no further. -/
def head : Value → Token
  | null => .null
  | bool b => .bool b
  | integer n => .integer n
  | real text => .real text
  | excess => .bad
  | string s => .string s
  | list _ => .beginList
  | object _ => .beginObject

def text? : Value → Option String
  | string s => some s
  | _ => none

def flag? : Value → Option Bool
  | bool b => some b
  | _ => none

def count? : Value → Option Nat
  | integer n => n.toNat?
  | _ => none

theorem exists_tokens (v : Value) : ∃ ts, v.tokens = v.head :: ts := by
  cases v with
  | list vs => exact ⟨itemTokens vs ++ [.endList], by rw [tokens, head, List.cons_append]⟩
  | object ms => exact ⟨memberTokens ms ++ [.endObject], by rw [tokens, head, List.cons_append]⟩
  | _ => exact ⟨[], by rw [tokens, head]⟩

theorem memberTokens_singleton (name : String) (v : Value) :
    memberTokens [(name, v)] = .string name :: .colon :: v.tokens := by
  rw [memberTokens]

theorem memberTokens_cons (name : String) (v : Value) {ms : List (String × Value)} (h : ms ≠ []) :
    memberTokens ((name, v) :: ms) =
      .string name :: .colon :: v.tokens ++ .comma :: memberTokens ms := by
  rw [memberTokens]
  exact h

end Value
end Json

namespace Config

open Json (Token Problem Value)
open Json.Value (memberTokens memberTokens_singleton memberTokens_cons)

inductive Kind
  | text
  | flag
  /-- A number of so many bits. -/
  | count (bits : Nat)

def Kind.Admits : Kind → Value → Prop
  | text, .string _ => True
  | flag, .bool _ => True
  | count bits, .integer n => 0 ≤ n ∧ n < 2 ^ bits
  | _, _ => False

namespace Field

def kind : Field → Kind
  | dataDir | listenAddress => .text
  | logEnabled | snapshotsEnabled => .flag
  | rotationThreshold | snapshotInterval | maxConnections | retryDelay => .count 64
  | connectAttempts => .count 32

/-- Whether a document may give a field this value; `null` leaves the field as it is. -/
def Takes (f : Field) (v : Value) : Prop := v = .null ∨ f.kind.Admits v

theorem tokens_of_takes {f : Field} {v : Value} (h : f.Takes v) : v.tokens = [v.head] := by
  cases v with
  | list vs | object ms =>
    rcases h with h | h
    · cases h
    · cases f <;> exact False.elim h
  | _ => rw [Value.tokens, Value.head]

theorem ofName?_eq_some_iff {name : String} {f : Field} :
    ofName? name = some f ↔ f.name = name := by
  constructor
  · intro h
    have named := List.find?_some h
    exact of_decide_eq_true named
  · rintro rfl
    exact ofName?_name f

theorem name_injective {f g : Field} (h : f.name = g.name) : f = g := by
  have := ofName?_name f
  rw [h, ofName?_name] at this
  exact (Option.some.inj this).symm

end Field

namespace Overlay

section Readers
variable {α β : Type} {read : Token → Except Problem α} {wanted : String} {bits : Nat} {v : Value}

theorem map_optional_error (h : v ≠ .null) (error : ∃ p, read v.head = .error p)
    (put : Option α → β) : ∃ p, (optional read v.head).map put = .error p := by
  obtain ⟨p, hp⟩ := error
  have refused : optional read v.head = .error p := by
    cases v with
    | null => exact absurd rfl h
    | _ => exact (congrArg (Except.map some) hp :)
  exact ⟨p, by rw [refused]; rfl⟩

theorem admits_text (h : Kind.text.Admits v) : ∃ s, v = .string s := by
  cases v with
  | string s => exact ⟨s, rfl⟩
  | _ => exact False.elim h

theorem admits_flag (h : Kind.flag.Admits v) : ∃ b, v = .bool b := by
  cases v with
  | bool b => exact ⟨b, rfl⟩
  | _ => exact False.elim h

theorem admits_count (h : (Kind.count bits).Admits v) :
    ∃ n : Nat, v = .integer n ∧ n < 2 ^ bits := by
  cases v with
  | integer n =>
    obtain ⟨m, rfl⟩ := Int.eq_ofNat_of_zero_le h.1
    exact ⟨m, rfl, by exact_mod_cast h.2⟩
  | _ => exact False.elim h

theorem map_count_ok {n : Nat} (h : n < 2 ^ bits) (put : Option Nat → β) :
    (optional (count bits wanted) (.integer n)).map put = .ok (put (some n)) := by
  have inRange : count bits wanted (.integer n) = .ok n :=
    if_pos ⟨Int.natCast_nonneg n, by exact_mod_cast h⟩
  rw [optional, inRange]
  · rfl
  · nofun

theorem text_error (h : ¬ Kind.text.Admits v) : ∃ p, text wanted v.head = .error p := by
  cases v with
  | string s => exact absurd trivial h
  | _ => exact ⟨_, rfl⟩

theorem flag_error (h : ¬ Kind.flag.Admits v) : ∃ p, flag v.head = .error p := by
  cases v with
  | bool b => exact absurd trivial h
  | _ => exact ⟨_, rfl⟩

theorem count_error (h : ¬ (Kind.count bits).Admits v) :
    ∃ p, count bits wanted v.head = .error p := by
  cases v with
  | integer n => exact ⟨.outOfRange n wanted, if_neg (by exact_mod_cast h)⟩
  | _ => exact ⟨_, rfl⟩

end Readers

/-- The value that an overlay has for a field, `null` if none. -/
def value (o : Overlay) : Field → Value
  | .dataDir => o.dataDir.elim .null fun p => .string p.text
  | .logEnabled => o.logEnabled.elim .null .bool
  | .rotationThreshold => o.rotationThreshold.elim .null fun n => .integer n
  | .snapshotsEnabled => o.snapshotsEnabled.elim .null .bool
  | .snapshotInterval => o.snapshotInterval.elim .null fun n => .integer n
  | .listenAddress => o.listenAddress.elim .null .string
  | .maxConnections => o.maxConnections.elim .null fun n => .integer n
  | .connectAttempts => o.connectAttempts.elim .null fun n => .integer n
  | .retryDelay => o.retryDelay.elim .null fun n => .integer n

theorem assign_of_takes (o : Overlay) {f : Field} {v : Value} (h : f.Takes v) :
    ∃ o', o.assign f v.head = .ok o' ∧ ∀ g, o'.value g = if f = g then v else o.value g := by
  rcases h with rfl | h
  · cases f <;> exact ⟨_, rfl, fun g => by cases g <;> rfl⟩
  · cases f with
    | dataDir | listenAddress =>
      obtain ⟨s, rfl⟩ := admits_text h
      exact ⟨_, rfl, fun g => by cases g <;> rfl⟩
    | logEnabled | snapshotsEnabled =>
      obtain ⟨b, rfl⟩ := admits_flag h
      exact ⟨_, rfl, fun g => by cases g <;> rfl⟩
    | rotationThreshold | snapshotInterval | maxConnections | connectAttempts | retryDelay =>
      obtain ⟨n, rfl, hn⟩ := admits_count h
      rw [Value.head, assign]
      exact ⟨_, map_count_ok hn _, fun g => by cases g <;> rfl⟩

theorem assign_of_not_takes (o : Overlay) {f : Field} {v : Value} (h : ¬ f.Takes v) :
    ∃ p, o.assign f v.head = .error p := by
  obtain ⟨null, admits⟩ := not_or.1 h
  cases f with
  | dataDir | listenAddress => exact map_optional_error null (text_error admits) _
  | logEnabled | snapshotsEnabled => exact map_optional_error null (flag_error admits) _
  | rotationThreshold | snapshotInterval | maxConnections | connectAttempts | retryDelay =>
    exact map_optional_error null (count_error admits) _

theorem fieldOf_eq_ok_iff {seen : List Field} {name : String} {f : Field} :
    fieldOf seen name = .ok f ↔ f.name = name ∧ f ∉ seen := by
  rw [fieldOf, ← Field.ofName?_eq_some_iff]
  cases Field.ofName? name with
  | none => simp
  | some g =>
    dsimp only
    split
    · next h =>
      simp only [reduceCtorEq, Option.some.injEq, false_iff, not_and, Decidable.not_not]
      rintro rfl
      exact h
    · next h =>
      simp only [Except.ok.injEq, Option.some.injEq, iff_self_and]
      rintro rfl
      exact h

end Overlay

/-- Members that may stand in one document: each names a field and has a value that this field may
have, and no two name the same. -/
structure Proper (ms : List (String × Value)) : Prop where
  known : ∀ m ∈ ms, ∃ f : Field, f.name = m.1 ∧ f.Takes m.2
  once : (ms.map Prod.fst).Nodup

/-- What members say of a field; one that they do not mention is as good as `null`. -/
def said (f : Field) (ms : List (String × Value)) : Value := (ms.lookup f.name).getD .null

theorem lookup_cons_field (f g : Field) (v : Value) (ms : List (String × Value)) :
    List.lookup g.name ((f.name, v) :: ms) = if f = g then some v else ms.lookup g.name := by
  rw [List.lookup_cons]
  by_cases same : f = g
  · simp [same]
  · have other : (g.name == f.name) = false :=
      beq_false_of_ne fun e => same (Field.name_injective e).symm
    rw [other, if_neg same]

theorem lookup_eq_none {name : String} {ms : List (String × Value)} (h : name ∉ ms.map Prod.fst) :
    ms.lookup name = none := by
  rw [List.lookup_eq_none_iff]
  intro m hm
  exact bne_iff_ne.2 fun e => h (e ▸ List.mem_map_of_mem hm)

/-- Members that may come after those of the fields `seen`. -/
def Follows (seen : List Field) : List (String × Value) → Prop
  | [] => True
  | (name, v) :: ms =>
    ∃ f : Field, f.name = name ∧ f ∉ seen ∧ f.Takes v ∧ Follows (f :: seen) ms

theorem follows_iff {seen : List Field} {ms : List (String × Value)} :
    Follows seen ms ↔ Proper ms ∧ ∀ f ∈ seen, f.name ∉ ms.map Prod.fst := by
  induction ms generalizing seen with
  | nil => simp [Follows, Proper.mk]
  | cons m ms ih =>
    obtain ⟨name, v⟩ := m
    rw [Follows]
    constructor
    · rintro ⟨f, rfl, fresh, takes, follows⟩
      obtain ⟨proper, others⟩ := ih.1 follows
      refine ⟨⟨?_, ?_⟩, ?_⟩
      · rintro m hm
        rcases List.mem_cons.1 hm with rfl | hm
        · exact ⟨f, rfl, takes⟩
        · exact proper.known m hm
      · exact List.nodup_cons.2 ⟨others f List.mem_cons_self, proper.once⟩
      · intro g hg hname
        rcases List.mem_cons.1 hname with same | hname
        · exact fresh (Field.name_injective same ▸ hg)
        · exact others g (List.mem_cons_of_mem f hg) hname
    · rintro ⟨⟨known, once⟩, others⟩
      obtain ⟨f, rfl, takes⟩ := known _ List.mem_cons_self
      obtain ⟨fresh, once⟩ := List.nodup_cons.1 once
      refine ⟨f, rfl, fun hf => others f hf List.mem_cons_self, takes, ih.2 ⟨⟨?_, once⟩, ?_⟩⟩
      · exact fun m hm => known m (List.mem_cons_of_mem _ hm)
      · intro g hg hname
        rcases List.mem_cons.1 hg with rfl | hg
        · exact fresh hname
        · exact others g hg (List.mem_cons_of_mem _ hname)

namespace Overlay

section Reading
variable {seen : List Field} {o o' : Overlay} {f : Field} {name : String} {v : Value}

theorem readMembers_cons (field : fieldOf seen name = .ok f)
    (value : o.assign f v.head = .ok o') (alone : v.tokens = [v.head]) :
    readMembers seen o (.string name :: .colon :: v.tokens ++ [.endObject]) = .ok o' ∧
      ∀ ts, readMembers seen o (.string name :: .colon :: v.tokens ++ .comma :: ts) =
        readMembers (f :: seen) o' ts := by
  rw [alone]
  constructor
  · rw [List.cons_append, List.cons_append, List.singleton_append, readMembers, field]
    simp only [value]
  · intro ts
    rw [List.cons_append, List.cons_append, List.singleton_append, readMembers, field]
    simp only [value]

theorem readMembers_of_error {p : Problem} (ts : List Token)
    (h : fieldOf seen name = .error p ∨ ∃ f, fieldOf seen name = .ok f ∧
      o.assign f v.head = .error p) :
    readMembers seen o (.string name :: .colon :: v.tokens ++ ts) = .error p := by
  obtain ⟨us, hus⟩ := v.exists_tokens
  rw [hus, List.cons_append, List.cons_append, List.cons_append, readMembers]
  rcases h with field | ⟨f, field, value⟩
  · rw [field]
  · rw [field]
    simp only [value]

end Reading

/-- Members that may come are read to their end, and each gives its field its value. -/
theorem readMembers_of_follows {seen : List Field} {o : Overlay} {ms : List (String × Value)}
    (nonempty : ms ≠ []) (h : Follows seen ms) :
    ∃ o', readMembers seen o (memberTokens ms ++ [.endObject]) = .ok o' ∧
      ∀ g : Field, o'.value g = (ms.lookup g.name).getD (o.value g) := by
  induction ms generalizing seen o with
  | nil => exact absurd rfl nonempty
  | cons m ms ih =>
    obtain ⟨name, v⟩ := m
    obtain ⟨f, rfl, fresh, takes, follows⟩ := h
    obtain ⟨o₁, assigned, now⟩ := assign_of_takes o takes
    have field := fieldOf_eq_ok_iff.2 ⟨rfl, fresh⟩
    obtain ⟨last, more⟩ := readMembers_cons field assigned (Field.tokens_of_takes takes)
    by_cases rest : ms = []
    · subst rest
      refine ⟨o₁, by rw [memberTokens_singleton]; exact last, fun g => ?_⟩
      rw [now, lookup_cons_field]
      split <;> rfl
    · obtain ⟨o₂, read, later⟩ := ih rest follows (o := o₁)
      refine ⟨o₂, ?_, fun g => ?_⟩
      · rw [memberTokens_cons _ _ rest, List.append_assoc]
        exact (more _).trans read
      · rw [later, now, lookup_cons_field]
        split
        · next same =>
          subst same
          rw [lookup_eq_none ((follows_iff.1 follows).2 f List.mem_cons_self)]
          rfl
        · rfl

theorem readMembers_of_not_follows {seen : List Field} {o : Overlay} {ms : List (String × Value)}
    (h : ¬ Follows seen ms) (ts : List Token) :
    ∃ p, readMembers seen o (memberTokens ms ++ ts) = .error p := by
  induction ms generalizing seen o with
  | nil => exact absurd trivial h
  | cons m ms ih =>
    obtain ⟨name, v⟩ := m
    -- the tokens of a member come first, whether or not it is the last one
    obtain ⟨us, hus, more⟩ : ∃ us, memberTokens ((name, v) :: ms) ++ ts =
        .string name :: .colon :: v.tokens ++ us ∧
          (ms ≠ [] → us = .comma :: (memberTokens ms ++ ts)) := by
      by_cases rest : ms = []
      · exact ⟨ts, by rw [rest, memberTokens_singleton], fun h => absurd rest h⟩
      · exact ⟨_, by rw [memberTokens_cons _ _ rest, List.append_assoc]; rfl, fun _ => rfl⟩
    rw [hus]
    cases field : fieldOf seen name with
    | error p => exact ⟨p, readMembers_of_error us (.inl field)⟩
    | ok f =>
      obtain ⟨rfl, fresh⟩ := fieldOf_eq_ok_iff.1 field
      by_cases takes : f.Takes v
      · obtain ⟨o₁, assigned, -⟩ := assign_of_takes o takes
        have refused : ¬ Follows (f :: seen) ms := fun follows =>
          h ⟨f, rfl, fresh, takes, follows⟩
        have rest : ms ≠ [] := by
          rintro rfl
          exact refused trivial
        obtain ⟨p, hp⟩ := ih refused (o := o₁)
        have next := (readMembers_cons field assigned (Field.tokens_of_takes takes)).2
        exact ⟨p, by rw [more rest, next, hp]⟩
      · obtain ⟨p, value⟩ := assign_of_not_takes o takes
        exact ⟨p, readMembers_of_error us (.inr ⟨f, field, value⟩)⟩

theorem read_members {ms : List (String × Value)} (h : ms ≠ []) (ts : List Token) :
    read (.beginObject :: memberTokens ms ++ ts) = readMembers [] {} (memberTokens ms ++ ts) := by
  cases ms with
  | nil => exact absurd rfl h
  | cons m ms =>
    obtain ⟨name, v⟩ := m
    by_cases rest : ms = []
    · subst rest
      rw [memberTokens_singleton]
      rfl
    · rw [memberTokens_cons _ _ rest]
      rfl

def ofMembers (ms : List (String × Value)) : Overlay where
  dataDir := (said .dataDir ms).text?.map Path.mk
  logEnabled := (said .logEnabled ms).flag?
  rotationThreshold := (said .rotationThreshold ms).count?
  snapshotsEnabled := (said .snapshotsEnabled ms).flag?
  snapshotInterval := (said .snapshotInterval ms).count?
  listenAddress := (said .listenAddress ms).text?
  maxConnections := (said .maxConnections ms).count?
  connectAttempts := (said .connectAttempts ms).count?
  retryDelay := (said .retryDelay ms).count?

theorem eq_ofMembers {o : Overlay} {ms : List (String × Value)} (h : ∀ f, o.value f = said f ms) :
    o = ofMembers ms := by
  unfold ofMembers
  simp only [← h]
  obtain ⟨dataDir, logEnabled, threshold, snapshotsEnabled, interval, listenAddress, connections,
    attempts, delay⟩ := o
  congr
  · cases dataDir <;> rfl
  · cases logEnabled <;> rfl
  · cases threshold <;> rfl
  · cases snapshotsEnabled <;> rfl
  · cases interval <;> rfl
  · cases listenAddress <;> rfl
  · cases connections <;> rfl
  · cases attempts <;> rfl
  · cases delay <;> rfl

theorem read_object {ms : List (String × Value)} (h : Proper ms) :
    read (Value.object ms).tokens = .ok (ofMembers ms) := by
  rw [Value.tokens]
  by_cases nonempty : ms = []
  · subst nonempty
    rfl
  · have follows : Follows [] ms := follows_iff.2 ⟨h, nofun⟩
    obtain ⟨o, read, gives⟩ := readMembers_of_follows nonempty follows (o := {})
    have same (f : Field) : o.value f = said f ms := by
      rw [gives, said]
      cases f <;> rfl
    rw [← eq_ofMembers same]
    exact (read_members nonempty _).trans read

theorem read_improper {ms : List (String × Value)} (h : ¬ Proper ms) (ts : List Token) :
    ∃ p, read (.beginObject :: memberTokens ms ++ ts) = .error p := by
  have nonempty : ms ≠ [] := by
    rintro rfl
    exact h ⟨nofun, List.nodup_nil⟩
  have refused : ¬ Follows [] ms := fun follows => h (follows_iff.1 follows).1
  obtain ⟨p, hp⟩ := readMembers_of_not_follows refused ts (o := {})
  exact ⟨p, (read_members nonempty ts).trans hp⟩

end Overlay
end Config
end Keyline
