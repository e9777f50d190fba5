import Keyline.Proofs.Query.Keys

/-!
# Queries by tokens

The tokens of a line are the texts between its spaces. The first is the verb and the next the key;
all behind these are the value, joined again by spaces. A value of several tokens must be quoted.
This way of reading needs the whole line cut up before anything is looked at, and comes to the same.
-/
namespace Keyline.Query

/-- Takes off the quotes of a text that starts with one. -/
def unquote? : List Char → Option String
  | '"' :: cs => if cs.getLast? = some '"' then some (String.ofList cs.dropLast) else none
  | cs => some (String.ofList cs)

def valueOf? : List (List Char) → Option String
  | [] => none
  | [token] => unquote? token
  | first :: second :: rest =>
    if first.head? = some '"' ∧ ((second :: rest).getLast (by simp)).getLast? = some '"' then
      unquote? ([' '].intercalate (first :: second :: rest))
    else none

def argumentsOf? : Verb → List (List Char) → Option Query
  | .get, [key] => (key? key).map .get
  | .delete, [key] => (key? key).map .delete
  | .set, key :: token :: tokens =>
    match key? key, valueOf? (token :: tokens) with
    | some k, some v => some (.set k v)
    | _, _ => none
  | _, _ => none

def parseTokens (line : String) : Except Rejection Query :=
  if line = "" then .error .noCommand
  else
    match line.toList.splitOn ' ' with
    | [] => .error .noCommand
    | word :: tokens =>
      match Verb.ofWord? (String.ofList word) with
      | none => .error .unknownCommand
      | some v =>
        match argumentsOf? v tokens with
        | none => .error .argumentCount
        | some q => .ok q

/-- The tokens behind the first one. -/
def tokensBehind : Option (List Char) → List (List Char)
  | none => []
  | some cs => cs.splitOn ' '

theorem splitOn_eq (cs : List Char) :
    cs.splitOn ' ' = (cut cs).1 :: tokensBehind (cut cs).2 := by
  cases h : cut cs with
  | mk w rest =>
    cases rest with
    | none =>
      obtain ⟨rfl, hw⟩ := cut_eq_none_iff.1 h
      exact List.splitOn_eq_singleton hw
    | some r =>
      obtain ⟨rfl, hw⟩ := cut_eq_some_iff.1 h
      rw [List.splitOn_eq_splitOnP, List.splitOnP_append_cons _ _ (by simp),
        ← List.splitOn_eq_splitOnP, ← List.splitOn_eq_splitOnP, List.splitOn_eq_singleton hw]
      rfl

/-- Tokens put together end as the last of them does, unless with a space. -/
theorem getLast?_intercalate {c : Char} (hc : c ≠ ' ') {ts : List (List Char)} (h : ts ≠ []) :
    ([' '].intercalate ts).getLast? = some c ↔ (ts.getLast h).getLast? = some c := by
  induction ts with
  | nil => exact absurd rfl h
  | cons t ts ih =>
    cases ts with
    | nil => simp
    | cons u ts =>
      rw [List.getLast_cons (by simp), ← ih (by simp),
        List.intercalate_cons_of_ne_nil (by simp), List.append_assoc, List.getLast?_append,
        List.singleton_append]
      cases [' '].intercalate (u :: ts) with
      | nil => simp [hc.symm]
      | cons d ds => simp [List.getLast?_cons]

/-- A single token is a value as it is, or between quotes. -/
theorem value?_of_not_mem {cs : List Char} (h : ' ' ∉ cs) : value? cs = unquote? cs := by
  cases cs with
  | nil => rfl
  | cons c cs =>
    by_cases hc : c = '"'
    · subst hc
      rfl
    · simp [value?, unquote?, hc, h]

/-- A value with spaces starts and ends with quotes. -/
theorem value?_of_mem {cs : List Char} (h : ' ' ∈ cs) :
    value? cs =
      if cs.head? = some '"' ∧ cs.getLast? = some '"' then unquote? cs else none := by
  unfold value? unquote?
  split
  · next ds =>
    have hlast : ('"' :: ds).getLast? = ds.getLast? := by
      cases ds with
      | nil => simp at h
      | cons d ds => simp [List.getLast?_cons]
    by_cases hq : ds.getLast? = some '"' <;> simp [hlast, hq]
  · next hhead =>
    have hne : cs.head? ≠ some '"' := by
      intro hq
      obtain ⟨ds, rfl⟩ := List.head?_eq_some_iff.1 hq
      exact hhead ds rfl
    simp [h, hne]

theorem value?_eq_valueOf? (cs : List Char) : value? cs = valueOf? (cs.splitOn ' ') := by
  have hjoin : [' '].intercalate (cs.splitOn ' ') = cs := List.intercalate_splitOn ' '
  cases hcut : cut cs with
  | mk w rest =>
    cases rest with
    | none =>
      rw [splitOn_eq, hcut]
      obtain ⟨rfl, hw⟩ := cut_eq_none_iff.1 hcut
      exact value?_of_not_mem hw
    | some r =>
      obtain ⟨hcs, -⟩ := cut_eq_some_iff.1 hcut
      rw [splitOn_eq, hcut] at hjoin ⊢
      dsimp only [tokensBehind] at hjoin ⊢
      obtain ⟨u, ts, hr⟩ := List.exists_cons_of_ne_nil (List.splitOn_ne_nil ' ' r)
      rw [hr] at hjoin ⊢
      have hlast := getLast?_intercalate (c := '"') (by decide) (List.cons_ne_nil w (u :: ts))
      rw [hjoin, List.getLast_cons (by simp)] at hlast
      have hhead : w.head? = some '"' ↔ cs.head? = some '"' := by
        subst hcs
        cases w <;> simp
      rw [value?_of_mem (by simp [hcs]), valueOf?, hjoin]
      simp only [hlast, hhead]

theorem key?_of_mem {cs : List Char} (h : ' ' ∈ cs) : key? cs = none := by
  rw [key?, if_neg]
  rintro ⟨-, hblank⟩
  simpa using hblank _ h

theorem arguments?_eq_argumentsOf? (v : Verb) (rest : Option (List Char)) :
    arguments? v rest = argumentsOf? v (tokensBehind rest) := by
  cases rest with
  | none => cases v <;> rfl
  | some cs =>
    rw [tokensBehind, splitOn_eq]
    cases hcut : cut cs with
    | mk k behind =>
      cases behind with
      | none =>
        obtain ⟨rfl, -⟩ := cut_eq_none_iff.1 hcut
        cases v with
        | get => rfl
        | delete => rfl
        | set => rw [arguments?, hcut]; rfl
      | some r =>
        have hspace : ' ' ∈ cs := by
          rw [(cut_eq_some_iff.1 hcut).1]
          simp
        obtain ⟨t, ts, hr⟩ := List.exists_cons_of_ne_nil (List.splitOn_ne_nil ' ' r)
        dsimp only [tokensBehind]
        cases v with
        | get => rw [arguments?, key?_of_mem hspace, hr]; rfl
        | delete => rw [arguments?, key?_of_mem hspace, hr]; rfl
        | set =>
          have hvalue := value?_eq_valueOf? r
          rw [hr] at hvalue
          cases hk : key? k with
          | none => simp only [arguments?, argumentsOf?, hcut, hr, hk]
          | some key =>
            cases hv : valueOf? (t :: ts) with
            | none => simp only [arguments?, argumentsOf?, hcut, hr, hk, hvalue, hv]
            | some w => simp only [arguments?, argumentsOf?, hcut, hr, hk, hvalue, hv]

/-- To read a line by its tokens comes to the same. -/
theorem parse_eq_parseTokens (line : String) : parse line = parseTokens line := by
  rw [parse, parseTokens, splitOn_eq]
  cases hv : Verb.ofWord? (String.ofList (cut line.toList).1) with
  | none => simp only [hv]
  | some v =>
    cases hq : argumentsOf? v (tokensBehind (cut line.toList).2) with
    | none => simp only [hv, arguments?_eq_argumentsOf?, hq]
    | some q => simp only [hv, arguments?_eq_argumentsOf?, hq]

end Keyline.Query
