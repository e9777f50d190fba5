import Mathlib.Algebra.Group.Nat.Defs
import Keyline.Server

/-!
# How often an operation is tried

Tries end at the first one that succeeds, or with the last one that may be made. There is a pause
between any two of them and nowhere else, so there is always one pause less than there are tries. A
server that cannot bind its address says how often it tried.
-/
namespace Keyline

namespace Retry

/-- Of as many tries as may be made, and of one at least, the first to succeed ends them; one is the
first if any succeeds, and if none does the failure says how many they were. -/
theorem run_ends_at_first_success {α : Type} (address : String) (attempts : Nat)
    (op : Nat → Option α) :
    (∀ j a, FirstSuccess op (max attempts 1) j a →
      run address attempts op = ⟨.ok a, j, j - 1⟩) ∧
    ((∃ i < max attempts 1, (op i).isSome) → ∃ j a, FirstSuccess op (max attempts 1) j a) ∧
    ((∀ i < max attempts 1, op i = none) → run address attempts op =
      ⟨.error (.unreachable address (max attempts 1)), max attempts 1, max attempts 1 - 1⟩) := by
  refine ⟨?_, exists_firstSuccess, ?_⟩
  · intro j a first
    exact first.run_eq address
  · intro failures
    exact run_of_failures failures address

/-- The third try of the most that can be asked for, and the one that is made where none is. -/
theorem run_ends_at_third_of_most :
    let op : Nat → Option Nat := fun i => if i < 2 then none else some (10 * (i + 1))
    (∃ i < max (2 ^ 32 - 1) 1, (op i).isSome) ∧ FirstSuccess op (max (2 ^ 32 - 1) 1) 3 30 ∧
      run "h:1" (2 ^ 32 - 1) op = ⟨.ok 30, 3, 2⟩ ∧
      (∀ i < max 0 1, op i = none) ∧
      run "h:1" 0 op = ⟨.error (.unreachable "h:1" 1), 1, 0⟩ := by
  intro op
  have first : FirstSuccess op (max (2 ^ 32 - 1) 1) 3 30 :=
    ⟨by decide, by decide, rfl, fun i hi => if_pos hi⟩
  have failures (i : Nat) (hi : i < max 0 1) : op i = none := if_pos (by omega)
  have ends := run_ends_at_first_success "h:1" (2 ^ 32 - 1) op
  exact ⟨⟨2, by decide, rfl⟩, first, ends.1 3 30 first, failures,
    (run_ends_at_first_success "h:1" 0 op).2.2 failures⟩

end Retry

/-- A server binds the address that its configuration names if this is one and free; otherwise it
reports how often it tried. -/
theorem Server.bind_eq (c : Config) (isFree : Address → Bool) :
    Server.bind c isFree = match (Address.ofText? c.listenAddress).filter isFree with
      | some address => .ok address
      | none => .error (.unreachable c.listenAddress (max c.connectAttempts 1)) := by
  unfold Server.bind
  split
  · next address h =>
    have first : Retry.FirstSuccess (fun _ => (Address.ofText? c.listenAddress).filter isFree)
        (Retry.bound c.connectAttempts) 1 address :=
      ⟨Nat.one_pos, Retry.bound_pos _, h, fun i hi => absurd hi (Nat.not_lt_zero i)⟩
    rw [first.run_eq]
  · next h => rw [Retry.run_of_failures (fun _ _ => h)]; rfl

end Keyline
