import Keyline.Failure

/-!
# Retrying

An operation that may fail is tried a bounded number of times, with a pause after each failure but
the last. At least one try is made. What comes of it hangs on the first try that succeeds.
-/
namespace Keyline.Retry

/-- The outcome of all tries, with the number of tries and of pauses. -/
structure Outcome (α : Type) where
  result : Except Failure α
  calls : Nat
  pauses : Nat

def bound (attempts : Nat) : Nat := max attempts 1

/-- Makes up to `left` more tries after `calls` ones and `pauses` between them; `op` gives the
outcome of each. -/
def go {α : Type} (address : String) (op : Nat → Option α) (limit calls pauses : Nat) :
    Nat → Outcome α
  | 0 => ⟨.error (.unreachable address limit), calls, pauses⟩
  | left + 1 =>
    match op calls with
    | some a => ⟨.ok a, calls + 1, pauses⟩
    | none =>
      go address op limit (calls + 1) (if calls + 1 < limit then pauses + 1 else pauses) left

/-- Tries `op` on `address`; the outcome of the try after `i` others is `op i`. -/
def run {α : Type} (address : String) (attempts : Nat) (op : Nat → Option α) : Outcome α :=
  go address op (bound attempts) 0 0 (bound attempts)

section
variable {α : Type} (address : String) {op : Nat → Option α} {limit calls : Nat}

theorem go_of_success {a : α} (success : op calls = some a) (pauses left : Nat) :
    go address op limit calls pauses (left + 1) = ⟨.ok a, calls + 1, pauses⟩ := by
  rw [go, success]

theorem go_of_failure (failure : op calls = none) (more : calls + 1 < limit)
    (pauses left : Nat) : go address op limit calls pauses (left + 1) =
      go address op limit (calls + 1) (pauses + 1) left := by
  rw [go, failure]
  dsimp only
  rw [if_pos more]

theorem go_of_last_failure (failure : op calls = none) (last : calls + 1 = limit)
    (pauses : Nat) : go address op limit calls pauses 1 =
      ⟨.error (.unreachable address limit), limit, pauses⟩ := by
  rw [go, failure]
  dsimp only
  rw [if_neg (by omega), go, last]

/-- Tries that fail, with a pause after each, lead to the next one as long as one is left. -/
theorem go_of_failures (failures : ∀ i < calls, op i = none) (left : Nat)
    (room : calls + (left + 1) = limit) :
    go address op limit 0 0 limit = go address op limit calls calls (left + 1) := by
  induction calls generalizing left with
  | zero => rw [← room, Nat.zero_add]
  | succ n ih =>
    have earlier (i : Nat) (hi : i < n) : op i = none := failures i (Nat.lt_succ_of_lt hi)
    rw [ih earlier (left + 1) (by omega), go_of_failure address (failures n (Nat.lt_succ_self n))
      (by omega)]

end

theorem bound_pos (attempts : Nat) : 0 < bound attempts := Nat.le_max_right _ _

/-- Of the first `n` tries the one at position `j`, counted from 1, is the first to succeed, and
it gives `a`. -/
structure FirstSuccess {α : Type} (op : Nat → Option α) (n j : Nat) (a : α) : Prop where
  pos : 0 < j
  le : j ≤ n
  gives : op (j - 1) = some a
  before : ∀ i < j - 1, op i = none

theorem exists_firstSuccess {α : Type} {op : Nat → Option α} {n : Nat}
    (h : ∃ i < n, (op i).isSome) : ∃ j a, FirstSuccess op n j a := by
  induction n with
  | zero => simp at h
  | succ n ih =>
    by_cases earlier : ∃ i < n, (op i).isSome
    · obtain ⟨j, a, first⟩ := ih earlier
      exact ⟨j, a, first.pos, Nat.le_succ_of_le first.le, first.gives, first.before⟩
    · obtain ⟨i, hi, success⟩ := h
      obtain ⟨a, ha⟩ := Option.isSome_iff_exists.1 success
      have failures (k : Nat) (hk : k < n) : op k = none :=
        Option.not_isSome_iff_eq_none.1 fun hs => earlier ⟨k, hk, hs⟩
      have last : i = n := by
        rcases Nat.lt_succ_iff_lt_or_eq.1 hi with hlt | heq
        · exact absurd ⟨i, hlt, success⟩ earlier
        · exact heq
      subst last
      exact ⟨i + 1, a, Nat.succ_pos i, Nat.le_refl _, ha, failures⟩

theorem FirstSuccess.run_eq {α : Type} {op : Nat → Option α} {attempts j : Nat} {a : α}
    (first : FirstSuccess op (bound attempts) j a) (address : String) :
    run address attempts op = ⟨.ok a, j, j - 1⟩ := by
  obtain ⟨pos, le, gives, before⟩ := first
  have reached := go_of_failures address before (bound attempts - j)
    (show _ = bound attempts by omega)
  rw [run, reached, go_of_success address gives, Nat.sub_add_cancel pos]

theorem run_of_failures {α : Type} {op : Nat → Option α} {attempts : Nat}
    (failures : ∀ i < bound attempts, op i = none) (address : String) :
    run address attempts op =
      ⟨.error (.unreachable address (bound attempts)), bound attempts, bound attempts - 1⟩ := by
  have succ : bound attempts - 1 + 1 = bound attempts := Nat.sub_add_cancel (bound_pos attempts)
  have earlier (i : Nat) (hi : i < bound attempts - 1) : op i = none := failures i (by omega)
  have last : op (bound attempts - 1) = none := failures _ (by omega)
  rw [run, go_of_failures address earlier 0 succ, go_of_last_failure address last succ]

end Keyline.Retry
