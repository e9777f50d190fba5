import Keyline.Query.Parse

/-!
# What a command names

A text is a command if the word before its first space is a verb and what is behind it can be read
for this verb. So whatever command a text is, it names a key; and every key can be asked for.
-/
namespace Keyline.Query

theorem key?_eq_some_iff {cs : List Char} {k : String} :
    key? cs = some k ↔ IsKey cs ∧ cs = k.toList := by
  rw [key?]
  split
  · next h =>
    rw [Option.some.injEq]
    constructor
    · rintro rfl
      exact ⟨h, String.toList_ofList.symm⟩
    · rintro ⟨-, rfl⟩
      exact String.ofList_toList
  · next h => simp [h]

theorem parse_eq_ok_iff {raw : String} {q : Query} : parse raw = .ok q ↔
    ∃ v rest, cut raw.toList = (v.word.toList, rest) ∧ arguments? v rest = some q := by
  constructor
  · intro h
    rw [parse] at h
    split at h
    · cases h
    · split at h
      · cases h
      · next v hv =>
        split at h
        · cases h
        · next hq =>
          cases h
          rw [Verb.ofWord?_eq_some_iff] at hv
          exact ⟨v, _, Prod.ext (by rw [← hv, String.toList_ofList]) rfl, hq⟩
  · rintro ⟨v, rest, hcut, hq⟩
    have hne : raw ≠ "" := by
      rintro rfl
      cases v <;> simp [cut, Verb.word] at hcut
    rw [parse, if_neg hne, hcut]
    dsimp only
    rw [String.ofList_toList, Verb.ofWord?_word]
    dsimp only
    rw [hq]

theorem isKey_of_arguments? {v : Verb} {rest : Option (List Char)} {q : Query}
    (h : arguments? v rest = some q) : IsKey q.key.toList := by
  unfold arguments? at h
  split at h
  · obtain ⟨k, hk, rfl⟩ := Option.map_eq_some_iff.1 h
    obtain ⟨hkey, rfl⟩ := key?_eq_some_iff.1 hk
    exact hkey
  · obtain ⟨k, hk, rfl⟩ := Option.map_eq_some_iff.1 h
    obtain ⟨hkey, rfl⟩ := key?_eq_some_iff.1 hk
    exact hkey
  · split at h
    · split at h
      · next hk hv =>
        cases h
        obtain ⟨hkey, rfl⟩ := key?_eq_some_iff.1 hk
        exact hkey
      · cases h
    · cases h
  · cases h

theorem cut_of_arguments?_set {v : Verb} {rest : Option (List Char)} {k w : String}
    (h : arguments? v rest = some (.set k w)) :
    ∃ cs r, rest = some cs ∧ cut cs = (k.toList, some r) ∧ value? r = some w := by
  unfold arguments? at h
  split at h
  · simp at h
  · simp at h
  · next cs =>
    split at h
    · next r hcut =>
      split at h
      · next hk hv =>
        cases h
        obtain ⟨-, rfl⟩ := key?_eq_some_iff.1 hk
        exact ⟨cs, r, rfl, hcut, hv⟩
      · cases h
    · cases h
  · cases h

/-- Whatever command a text is, what it names is a key. -/
theorem isKey_of_parse {raw : String} {q : Query} (h : parse raw = .ok q) :
    IsKey q.key.toList := by
  obtain ⟨v, rest, -, hq⟩ := parse_eq_ok_iff.1 h
  exact isKey_of_arguments? hq

/-- Every key can be asked for. -/
theorem parse_get {k : String} (h : IsKey k.toList) : parse ("get " ++ k) = .ok (.get k) := by
  rw [parse_eq_ok_iff]
  refine ⟨.get, some k.toList, ?_, ?_⟩
  · rw [cut_eq_some_iff, String.toList_append]
    exact ⟨rfl, by decide⟩
  · rw [arguments?, key?_eq_some_iff.2 ⟨h, rfl⟩]
    rfl

theorem parse_get_of_not_isKey {k : String} (h : ¬ IsKey k.toList) :
    ∃ e, parse ("get " ++ k) = .error e := by
  cases parsed : parse ("get " ++ k) with
  | error e => exact ⟨e, rfl⟩
  | ok q =>
    obtain ⟨v, rest, hcut, hq⟩ := parse_eq_ok_iff.1 parsed
    have hget : cut ("get " ++ k).toList = (Verb.get.word.toList, some k.toList) := by
      rw [cut_eq_some_iff, String.toList_append]
      exact ⟨rfl, by decide⟩
    rw [hget, Prod.mk.injEq] at hcut
    obtain ⟨hword, rfl⟩ := hcut
    obtain rfl : v = .get := by cases v <;> simp [Verb.word] at hword ⊢
    obtain ⟨j, hj, -⟩ := Option.map_eq_some_iff.1 hq
    exact absurd (key?_eq_some_iff.1 hj).1 h

end Keyline.Query
