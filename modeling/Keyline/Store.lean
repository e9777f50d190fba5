import Keyline.Query.Basic
import Keyline.Text.Utf8

/-!
# The store

Keys and their values, listed in the byte order of the keys, each key once. Two stores that give
every key the same value are equal.
-/
namespace Keyline

namespace Pairs

/-- Keys come in strictly increasing byte order. -/
abbrev Ordered (ps : List (String × String)) : Prop :=
  ps.Pairwise fun p q => Text.Before p.1 q.1

def get? (k : String) : List (String × String) → Option String
  | [] => none
  | p :: ps => if p.1 = k then some p.2 else get? k ps

def insert (k v : String) : List (String × String) → List (String × String)
  | [] => [(k, v)]
  | p :: ps =>
    if Text.Before k p.1 then (k, v) :: p :: ps
    else if p.1 = k then (k, v) :: ps
    else p :: insert k v ps

def erase (k : String) (ps : List (String × String)) : List (String × String) :=
  ps.filter fun p => p.1 ≠ k

theorem mem_insert {k v : String} {ps : List (String × String)} {q : String × String}
    (h : q ∈ insert k v ps) : q = (k, v) ∨ q ∈ ps := by
  induction ps with
  | nil => exact .inl (by simpa [insert] using h)
  | cons p ps ih =>
    unfold insert at h
    split at h
    · simpa using h
    · split at h
      · rcases List.mem_cons.1 h with h | h
        · exact .inl h
        · exact .inr (List.mem_cons_of_mem _ h)
      · rcases List.mem_cons.1 h with h | h
        · exact .inr (h ▸ List.mem_cons_self)
        · exact (ih h).imp_right (List.mem_cons_of_mem _)

theorem Ordered.insert {ps : List (String × String)} (h : Ordered ps) (k v : String) :
    Ordered (insert k v ps) := by
  induction ps with
  | nil => simp [Pairs.insert]
  | cons p ps ih =>
    obtain ⟨hp, hps⟩ := List.pairwise_cons.1 h
    unfold Pairs.insert
    split
    · next hk =>
      refine List.pairwise_cons.2 ⟨fun q hq => ?_, h⟩
      rcases List.mem_cons.1 hq with rfl | hq
      · exact hk
      · exact hk.trans (hp q hq)
    · next hk =>
      split
      · next he =>
        subst he
        exact List.pairwise_cons.2 ⟨fun q hq => hp q hq, hps⟩
      · next hne =>
        refine List.pairwise_cons.2 ⟨fun q hq => ?_, ih hps⟩
        rcases mem_insert hq with rfl | hq
        · exact ((Text.before_or_eq_or_before p.1 k).resolve_right fun h' =>
            h'.elim hne hk)
        · exact hp q hq

theorem Ordered.erase {ps : List (String × String)} (h : Ordered ps) (k : String) :
    Ordered (erase k ps) := h.filter _

theorem get?_eq_none_of_before {ps : List (String × String)} {k : String}
    (h : ∀ p ∈ ps, Text.Before k p.1) : get? k ps = none := by
  induction ps with
  | nil => rfl
  | cons p ps ih =>
    rw [get?, if_neg (h p List.mem_cons_self).ne.symm]
    exact ih fun q hq => h q (List.mem_cons_of_mem _ hq)

theorem get?_insert (ps : List (String × String)) (k v j : String) :
    get? j (insert k v ps) = if k = j then some v else get? j ps := by
  induction ps with
  | nil => simp [insert, get?]
  | cons p ps ih =>
    unfold insert
    split
    · simp [get?]
    · split
      · next he =>
        subst he
        simp only [get?]
        split <;> rfl
      · next hne =>
        simp only [get?, ih]
        grind

theorem get?_erase (ps : List (String × String)) (k j : String) :
    get? j (erase k ps) = if k = j then none else get? j ps := by
  induction ps with
  | nil => simp [erase, get?]
  | cons p ps ih =>
    simp only [erase] at ih ⊢
    by_cases h : p.1 = k
    · simp only [List.filter_cons, h, ne_eq, not_true, decide_false, Bool.false_eq_true, if_false,
        ih, get?]
      grind
    · simp only [List.filter_cons, h, ne_eq, not_false_eq_true, decide_true, if_true, get?, ih]
      grind

theorem get?_append (k : String) (ps qs : List (String × String)) :
    get? k (ps ++ qs) = (get? k ps).or (get? k qs) := by
  induction ps with
  | nil => rfl
  | cons p ps ih =>
    rw [List.cons_append, get?, get?, ih]
    split <;> rfl

theorem Ordered.get?_eq_some_iff {ps : List (String × String)} (h : Ordered ps)
    {k v : String} : get? k ps = some v ↔ (k, v) ∈ ps := by
  induction ps with
  | nil => simp [get?]
  | cons p ps ih =>
    obtain ⟨hp, hps⟩ := List.pairwise_cons.1 h
    rw [get?, List.mem_cons]
    split
    · next hk =>
      -- the key comes only once
      have later : (k, v) ∉ ps := fun hm => (hp _ hm).ne hk
      simp [later, Prod.ext_iff, hk, eq_comm]
    · next hk => simp [ih hps, Prod.ext_iff, Ne.symm hk]

theorem Ordered.ext {ps qs : List (String × String)} (hp : Ordered ps) (hq : Ordered qs)
    (h : ∀ k, get? k ps = get? k qs) : ps = qs := by
  induction ps generalizing qs with
  | nil =>
    cases qs with
    | nil => rfl
    | cons q qs => simpa [get?] using h q.1
  | cons p ps ih =>
    cases qs with
    | nil => simpa [get?] using h p.1
    | cons q qs =>
      obtain ⟨hp1, hp2⟩ := List.pairwise_cons.1 hp
      obtain ⟨hq1, hq2⟩ := List.pairwise_cons.1 hq
      have hkey : p.1 = q.1 := by
        rcases Text.before_or_eq_or_before p.1 q.1 with hb | he | hb
        · have h1 := h p.1
          have h2 : get? p.1 (q :: qs) = none := get?_eq_none_of_before fun r hr => by
            rcases List.mem_cons.1 hr with rfl | hr
            · exact hb
            · exact hb.trans (hq1 r hr)
          rw [h2] at h1
          simp [get?] at h1
        · exact he
        · have h1 := h q.1
          have h2 : get? q.1 (p :: ps) = none := get?_eq_none_of_before fun r hr => by
            rcases List.mem_cons.1 hr with rfl | hr
            · exact hb
            · exact hb.trans (hp1 r hr)
          rw [h2] at h1
          simp [get?] at h1
      have hval : p.2 = q.2 := by simpa [get?, hkey] using h p.1
      have hpq : p = q := Prod.ext hkey hval
      subst hpq
      congr 1
      refine ih hp2 hq2 fun k => ?_
      by_cases hk : p.1 = k
      · subst hk
        rw [get?_eq_none_of_before hp1, get?_eq_none_of_before hq1]
      · simpa [get?, hk] using h k

end Pairs

structure Store where
  pairs : List (String × String) := []
  ordered : Pairs.Ordered pairs := by exact List.Pairwise.nil

namespace Store

instance : DecidableEq Store := fun s t =>
  if h : s.pairs = t.pairs then isTrue (by cases s; cases t; cases h; rfl)
  else isFalse fun e => h (congrArg pairs e)

def empty : Store := {}

instance : EmptyCollection Store := ⟨empty⟩

instance : Inhabited Store := ⟨empty⟩

def get? (s : Store) (k : String) : Option String := Pairs.get? k s.pairs

def size (s : Store) : Nat := s.pairs.length

def isEmpty (s : Store) : Bool := s.pairs.isEmpty

def insert (s : Store) (k v : String) : Store := ⟨Pairs.insert k v s.pairs, s.ordered.insert k v⟩

def erase (s : Store) (k : String) : Store := ⟨Pairs.erase k s.pairs, s.ordered.erase k⟩

/-- The last pair of a key wins. -/
def ofList (ps : List (String × String)) : Store :=
  ps.foldl (fun (s : Store) p => s.insert p.1 p.2) ∅

def apply (s : Store) : Query → Reply × Store
  | .get k =>
    match s.get? k with
    | some v => (.value v, s)
    | none => (.notFound, s)
  | .delete k => (.changed (s.get? k).isSome, s.erase k)
  | .set k v => (.changed (s.get? k).isNone, s.insert k v)

@[ext] theorem ext {s t : Store} (h : ∀ k, s.get? k = t.get? k) : s = t := by
  cases s with
  | mk ps hp =>
    cases t with
    | mk qs hq =>
      have : ps = qs := Pairs.Ordered.ext hp hq h
      subst this
      rfl

@[simp] theorem get?_empty (k : String) : (∅ : Store).get? k = none := rfl

@[simp] theorem get?_insert (s : Store) (k v j : String) :
    (s.insert k v).get? j = if k = j then some v else s.get? j := Pairs.get?_insert _ _ _ _

@[simp] theorem get?_erase (s : Store) (k j : String) :
    (s.erase k).get? j = if k = j then none else s.get? j := Pairs.get?_erase _ _ _

theorem mem_pairs_iff {s : Store} {k v : String} : (k, v) ∈ s.pairs ↔ s.get? k = some v :=
  s.ordered.get?_eq_some_iff.symm

theorem nodup_keys (s : Store) : (s.pairs.map Prod.fst).Nodup :=
  List.pairwise_map.2 (s.ordered.imp Text.Before.ne)

/-- Of the pairs of a key the last one counts. -/
theorem get?_ofList (ps : List (String × String)) (k : String) :
    (ofList ps).get? k = Pairs.get? k ps.reverse := by
  have more (s : Store) : (ps.foldl (fun (s : Store) p => s.insert p.1 p.2) s).get? k =
      (Pairs.get? k ps.reverse).or (s.get? k) := by
    induction ps generalizing s with
    | nil => rfl
    | cons p ps ih =>
      rw [List.foldl_cons, ih, get?_insert, List.reverse_cons, Pairs.get?_append, Option.or_assoc,
        Pairs.get?, Pairs.get?]
      split <;> rfl
  rw [ofList, more, get?_empty, Option.or_none]

end Store
end Keyline
