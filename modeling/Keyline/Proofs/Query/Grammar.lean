import Keyline.Proofs.Query.Keys

/-!
# The grammar of queries

Every text is read in one way. One that spells a query is read as this query, and each of the others
is rejected for the first of three reasons that holds of it: that it is empty, that it does not
start with a verb, or that what is behind the verb does not fit.
-/
namespace Keyline.Query

/-- What stands before the first space of a text, all of it if there is none. -/
def firstWord (line : String) : String := String.ofList (line.toList.takeWhile (· ≠ ' '))

/-- A value is written as it is, or between quotes. -/
def SpellsValue (w v : String) : Prop :=
  ' ' ∉ w.toList ∧ w.toList.head? ≠ some '"' ∧ v = w ∨ w = "\"" ++ v ++ "\""

/-- How a query is written. -/
def Spells (line : String) : Query → Prop
  | .get k => IsKey k.toList ∧ line = "get " ++ k
  | .delete k => IsKey k.toList ∧ line = "delete " ++ k
  | .set k v => IsKey k.toList ∧ ∃ w, line = "set " ++ k ++ " " ++ w ∧ SpellsValue w v

theorem cut_fst (cs : List Char) : (cut cs).1 = cs.takeWhile (· ≠ ' ') := by
  induction cs with
  | nil => rfl
  | cons c cs ih =>
    rw [cut, List.takeWhile_cons]
    by_cases h : c = ' '
    · simp [h]
    · simp [h, ih]

theorem firstWord_eq (line : String) : firstWord line = String.ofList (cut line.toList).1 := by
  rw [firstWord, cut_fst]

theorem cut_eq_word_iff {line : String} {v : Verb} {cs : List Char} :
    cut line.toList = (v.word.toList, some cs) ↔ line = v.word ++ " " ++ String.ofList cs := by
  have hspace : ' ' ∉ v.word.toList := by cases v <;> decide
  rw [cut_eq_some_iff, and_iff_left hspace, ← String.toList_inj]
  simp

theorem value?_eq_some_iff {cs : List Char} {v : String} :
    value? cs = some v ↔ SpellsValue (String.ofList cs) v := by
  have hquoted (ds : List Char) : String.ofList ('"' :: ds) = "\"" ++ v ++ "\"" ↔
      ds = v.toList ++ ['"'] := by
    rw [← String.toList_inj]
    simp
  rw [SpellsValue, String.toList_ofList]
  unfold value?
  split
  · next ds =>
    rw [hquoted]
    by_cases hlast : ds.getLast? = some '"'
    · obtain ⟨es, rfl⟩ := List.getLast?_eq_some_iff.1 hlast
      rw [if_pos hlast, List.dropLast_concat, Option.some.injEq, ← String.toList_inj]
      simp
    · rw [if_neg hlast]
      have hne : ds ≠ v.toList ++ ['"'] := by
        rintro rfl
        exact hlast List.getLast?_concat
      simp [hne]
  · next hhead =>
    have hhead' : cs.head? ≠ some '"' := by
      intro h
      obtain ⟨ds, rfl⟩ := List.head?_eq_some_iff.1 h
      exact hhead ds rfl
    have hne : String.ofList cs ≠ "\"" ++ v ++ "\"" := by
      intro h
      have h' := congrArg String.toList h
      rw [String.toList_ofList] at h'
      rw [h'] at hhead'
      simp at hhead'
    by_cases hspace : ' ' ∈ cs
    · simp [hspace, hne]
    · simp [hspace, hhead', hne, eq_comm]

theorem map_key?_eq_some_iff {f : String → Query} (hf : ∀ j k, f j = f k → j = k)
    {cs : List Char} {k : String} :
    (key? cs).map f = some (f k) ↔ IsKey k.toList ∧ cs = k.toList := by
  rw [Option.map_eq_some_iff]
  constructor
  · rintro ⟨j, hj, he⟩
    obtain rfl := hf j k he
    obtain ⟨hkey, rfl⟩ := key?_eq_some_iff.1 hj
    exact ⟨hkey, rfl⟩
  · rintro ⟨hkey, rfl⟩
    exact ⟨k, key?_eq_some_iff.2 ⟨hkey, rfl⟩, rfl⟩

theorem arguments?_set_iff {cs : List Char} {k v : String} :
    arguments? .set (some cs) = some (.set k v) ↔
      IsKey k.toList ∧ ∃ w, cs = k.toList ++ ' ' :: w ∧ SpellsValue (String.ofList w) v := by
  constructor
  · intro h
    obtain ⟨_, w, ⟨rfl⟩, hcut, hv⟩ := cut_of_arguments?_set h
    exact ⟨isKey_of_arguments? h, w, (cut_eq_some_iff.1 hcut).1, value?_eq_some_iff.1 hv⟩
  · rintro ⟨hk, w, rfl, hv⟩
    have hspace : ' ' ∉ k.toList := fun h => by simpa using hk.2 _ h
    have hcut : cut (k.toList ++ ' ' :: w) = (k.toList, some w) := cut_eq_some_iff.2 ⟨rfl, hspace⟩
    simp only [arguments?, hcut, key?_eq_some_iff.2 ⟨hk, rfl⟩, value?_eq_some_iff.2 hv]

theorem word_append_inj {w s : String} {cs : List Char} :
    w ++ " " ++ String.ofList cs = w ++ " " ++ s ↔ cs = s.toList := by
  simp [← String.toList_inj]

/-- What is behind a verb is read as a query exactly if it spells the query with the verb. -/
theorem arguments?_eq_some_iff {cs : List Char} {q : Query} :
    arguments? q.verb (some cs) = some q ↔
      Spells (q.verb.word ++ " " ++ String.ofList cs) q := by
  cases q with
  | get k =>
    change (key? cs).map get = some (get k) ↔
      IsKey k.toList ∧ "get" ++ " " ++ _ = "get" ++ " " ++ k
    rw [word_append_inj]
    exact map_key?_eq_some_iff fun _ _ => get.inj
  | delete k =>
    change (key? cs).map delete = some (delete k) ↔
      IsKey k.toList ∧ "delete" ++ " " ++ _ = "delete" ++ " " ++ k
    rw [word_append_inj]
    exact map_key?_eq_some_iff fun _ _ => delete.inj
  | set k v =>
    change arguments? .set (some cs) = some (.set k v) ↔
      IsKey k.toList ∧ ∃ w, "set" ++ " " ++ _ = "set" ++ " " ++ k ++ " " ++ w ∧ SpellsValue w v
    rw [arguments?_set_iff]
    refine and_congr_right fun _ => ?_
    constructor
    · rintro ⟨w, rfl, hv⟩
      refine ⟨_, ?_, hv⟩
      simp [← String.toList_inj]
    · rintro ⟨w, hline, hv⟩
      refine ⟨w.toList, ?_, by rwa [String.ofList_toList]⟩
      simpa [← String.toList_inj] using hline

theorem arguments?_verb {v : Verb} {rest : Option (List Char)} {q : Query}
    (h : arguments? v rest = some q) : q.verb = v ∧ ∃ cs, rest = some cs := by
  cases v with
  | get =>
    cases rest with
    | none => cases h
    | some cs =>
      obtain ⟨k, -, rfl⟩ := Option.map_eq_some_iff.1 h
      exact ⟨rfl, cs, rfl⟩
  | delete =>
    cases rest with
    | none => cases h
    | some cs =>
      obtain ⟨k, -, rfl⟩ := Option.map_eq_some_iff.1 h
      exact ⟨rfl, cs, rfl⟩
  | set =>
    cases rest with
    | none => cases h
    | some cs =>
      rw [arguments?] at h
      split at h
      · split at h
        · cases h
          exact ⟨rfl, cs, rfl⟩
        · cases h
      · cases h

theorem Spells.line_eq {line : String} {q : Query} (h : Spells line q) :
    ∃ s, line = q.verb.word ++ " " ++ s := by
  cases q with
  | get k => exact ⟨k, h.2⟩
  | delete k => exact ⟨k, h.2⟩
  | set k v =>
    obtain ⟨-, w, rfl, -⟩ := h
    exact ⟨k ++ " " ++ w, by simp [← String.toList_inj, verb, Verb.word]⟩

theorem parse_eq_ok_iff_spells {line : String} {q : Query} :
    parse line = .ok q ↔ Spells line q := by
  rw [parse_eq_ok_iff]
  constructor
  · rintro ⟨v, rest, hcut, hq⟩
    obtain ⟨rfl, cs, rfl⟩ := arguments?_verb hq
    rw [cut_eq_word_iff.1 hcut]
    exact arguments?_eq_some_iff.1 hq
  · intro h
    obtain ⟨s, hline⟩ := h.line_eq
    rw [← String.ofList_toList (s := s)] at hline
    refine ⟨q.verb, _, cut_eq_word_iff.2 hline, arguments?_eq_some_iff.2 ?_⟩
    rwa [← hline]

theorem ofWord?_eq_none_iff {w : String} :
    Verb.ofWord? w = none ↔ w ∉ ["get", "delete", "set"] := by
  rw [Verb.ofWord?, List.find?_eq_none]
  simp [Verb.all, Verb.word, eq_comm]

theorem parse_of_unknown {line : String} (h : line ≠ "")
    (hw : firstWord line ∉ ["get", "delete", "set"]) : parse line = .error .unknownCommand := by
  rw [firstWord_eq, ← ofWord?_eq_none_iff] at hw
  rw [parse, if_neg h, hw]

theorem parse_of_known {line : String} (h : line ≠ "")
    (hw : firstWord line ∈ ["get", "delete", "set"]) :
    (∃ q, parse line = .ok q) ∨ parse line = .error .argumentCount := by
  rw [firstWord_eq, ← Decidable.not_not (p := _ ∈ _), ← ofWord?_eq_none_iff] at hw
  obtain ⟨v, hv⟩ := Option.ne_none_iff_exists'.1 hw
  rw [parse, if_neg h, hv]
  dsimp only
  cases arguments? v (cut line.toList).2 with
  | none => exact .inr rfl
  | some q => exact .inl ⟨q, rfl⟩

/-- Every text is read as the query that it spells, and those that spell none are rejected: the
empty one, those that do not start with a verb, and all others. -/
theorem parse_follows_grammar (line : String) :
    (parse line = .error .noCommand ↔ line = "") ∧
    (parse line = .error .unknownCommand ↔
      line ≠ "" ∧ firstWord line ∉ ["get", "delete", "set"]) ∧
    (∀ q, parse line = .ok q ↔ Spells line q) ∧
    (parse line = .error .argumentCount ↔
      line ≠ "" ∧ firstWord line ∈ ["get", "delete", "set"] ∧ ∀ q, ¬ Spells line q) := by
  have hok (q : Query) : parse line = .ok q ↔ Spells line q := parse_eq_ok_iff_spells
  -- What is read is one thing only, so to know it in each case settles all four.
  by_cases h : line = ""
  · subst h
    have hnone : parse "" = .error .noCommand := rfl
    simp only [← hok, hnone]
    simp
  · by_cases hw : firstWord line ∈ ["get", "delete", "set"]
    · rcases parse_of_known h hw with ⟨q, hq⟩ | hargument
      · simp only [← hok, hq, hw]
        simp [h]
      · simp only [← hok, hargument, hw]
        simp [h]
    · simp only [← hok, parse_of_unknown h hw, hw]
      simp [h]

/-- One quote does not stand for two. -/
example : parse "set k \"" = .error .argumentCount := by rfl

end Keyline.Query
