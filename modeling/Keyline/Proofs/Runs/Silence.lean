import Mathlib.Data.List.Forall2
import Keyline.Proofs.Runs.Responses
import Keyline.Proofs.Runs.Ticks

/-!
# Silent calls

A command that reads, or that is none, leaves everything as it was: the database with its store, its
counter and its log, and all files. So of two courses that differ only in such calls nobody can
tell, by the outcomes of the other calls or by what they leave behind, which one was taken.
-/
namespace Keyline.Worker

inductive Outcome
  | replied (result : Except Failure Reply)
  /-- The path of the snapshot, if there was anything to save. -/
  | ticked (result : Except Failure (Option Path))
  deriving DecidableEq

def outcome (w : Worker) : Call → Outcome
  | .handle now raw => .replied (w.database.handle now raw w.files).result
  | .tick now => .ticked ((w.database.tick now w.files).1.map Prod.fst)

/-- The outcome of each call, with the worker as it is then. -/
def trace (w : Worker) : List Call → List (Outcome × Worker)
  | [] => []
  | c :: cs => (w.outcome c, w.call c) :: (w.call c).trace cs

/-- A command that reads, or a text that is no command. -/
def Call.isSilent : Call → Bool
  | handle _ raw =>
    match Query.parse raw with
    | .ok (.get _) | .error _ => true
    | .ok _ => false
  | tick _ => false

/-- The entries of a list at whose places the marks say `true`. -/
def kept {α : Type} : List Bool → List α → List α
  | true :: marks, a :: as => a :: kept marks as
  | false :: marks, _ :: as => kept marks as
  | _, _ => []

theorem call_of_silent (w : Worker) {c : Call} (silent : c.isSilent = true) : w.call c = w := by
  cases c with
  | tick now => simp [Call.isSilent] at silent
  | handle now raw =>
    rw [Call.isSilent] at silent
    rw [call, handled]
    cases parsed : Query.parse raw with
    | error e => rw [Database.handle_rejected parsed]
    | ok q =>
      cases q with
      | get k =>
        have read : (Query.get k).mutates = false := rfl
        rw [Database.handle_read parsed read, Store.apply_of_not_mutates read]
      | delete k => simp [parsed] at silent
      | set k v => simp [parsed] at silent

/-- If only silent calls are left out, each other call has the outcome that it had and leaves the
same worker, with the same files; so does the whole course. -/
theorem silent_calls_leave_no_trace (w : Worker) {cs : List Call} {marks : List Bool}
    (silent : List.Forall₂ (fun c stays => stays = false → c.isSilent = true) cs marks) :
    w.trace (kept marks cs) = kept marks (w.trace cs) ∧
      w.after (kept marks cs) = w.after cs := by
  induction silent generalizing w with
  | nil => exact ⟨rfl, rfl⟩
  | @cons c stays cs marks leaving _ ih =>
    obtain ⟨trace, after⟩ := ih (w.call c)
    cases stays with
    | true => exact ⟨congrArg _ trace, after⟩
    | false =>
      have same : w.call c = w := w.call_of_silent (leaving rfl)
      refine ⟨Eq.trans ?_ trace, Eq.trans ?_ after⟩
      · rw [same]
        rfl
      · rw [same]
        rfl

/-- A value is set and set again, in a new file of the log, and saved; in between it is read, and a
text that is no command comes. -/
theorem silent_calls_leave_no_trace_around_rotation :
    let c : Config := { dataDir := ⟨"/d"⟩, rotationThreshold := 0 }
    let n := 1600000000000
    let cs : List Call := [.handle n "set k v", .handle n "get k", .handle n "put k",
      .handle n "set k w", .tick n, .handle n "get k"]
    let marks := [true, false, false, true, true, true]
    ∃ db t, Database.start c n .empty = (.ok db, t) ∧
      List.Forall₂ (fun c stays => stays = false → c.isSilent = true) cs marks ∧
      (trace ⟨db, t⟩ (kept marks cs)).map Prod.fst = [.replied (.ok (.changed true)),
        .replied (.ok (.changed false)),
        .ticked (.ok (some ⟨"/d/snapshots/1600000000000-snapshot.json"⟩)),
        .replied (.ok (.value "w"))] ∧
      trace ⟨db, t⟩ (kept marks cs) = kept marks (trace ⟨db, t⟩ cs) ∧
      after ⟨db, t⟩ (kept marks cs) = after ⟨db, t⟩ cs := by
  intro c n cs marks
  let db : Database := ⟨c, ∅, ⟨⟨"/d/snapshots"⟩, 0⟩, some ⟨⟨"/d/logs"⟩, 0, 1600000000000,
    ⟨["d", "logs", "1600000000000.kvslog"], 0⟩, 0⟩, 0⟩
  let t := (Database.start c n .empty).2
  have start : Database.start c n .empty = (.ok db, t) := Prod.ext (by decide +kernel) rfl
  have silent : List.Forall₂ (fun c stays => stays = false → c.isSilent = true) cs marks := by
    simp only [cs, marks, List.forall₂_cons, List.forall₂_nil_left_iff]
    decide +kernel
  exact ⟨db, t, start, silent, by decide +kernel, silent_calls_leave_no_trace _ silent⟩

end Keyline.Worker
