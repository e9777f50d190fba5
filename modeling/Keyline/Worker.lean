import Keyline.Database
import Keyline.Text.Quoted

/-!
# The worker

One worker owns the database. Messages wait for it in a queue and are dealt with in the order in
which they came; between them the clock may make a snapshot due. Each command and each ready reply
leads to one reply to its sender, up to the message that stops the worker.
-/
namespace Keyline

/-- A message with the destination `δ` of its reply. -/
inductive Message (δ : Type)
  | command (raw : String) (sender : δ)
  /-- A reply that was decided elsewhere and keeps its place in the queue. -/
  | ready (reply : String) (sender : δ)
  | stop
  deriving Repr, DecidableEq

/-- What the worker meets, with the reading of the clock. -/
inductive Event (δ : Type)
  | message (now : Nat) (m : Message δ)
  | tick (now : Nat)
  deriving Repr, DecidableEq

inductive Output (δ : Type)
  | reply (sender : δ) (text : String)
  /-- A failure that is reported to the operator. -/
  | report (text : String)
  deriving Repr, DecidableEq

structure Worker where
  database : Database
  files : FileTree

namespace Worker
variable {δ : Type}

def command (w : Worker) (now : Nat) (raw : String) (sender : δ) : Worker × List (Output δ) :=
  match w.database.handle now raw w.files with
  | ⟨.ok reply, db, t⟩ => (⟨db, t⟩, [.reply sender reply.text])
  | ⟨.error e, db, t⟩ =>
    (⟨db, t⟩,
      [.report (Text.logged ("Command " ++ Text.quoted raw ++ " failed: " ++ e.message)),
        .reply sender e.reply.text])

def tick (w : Worker) (now : Nat) : Worker × List (Output δ) :=
  match w.database.tick now w.files with
  | (.ok (_, db), t) => (⟨db, t⟩, [])
  | (.error e, t) => (⟨w.database, t⟩, [.report (Text.logged ("Snapshot failed: " ++ e.message))])

/-- Deals with one event; nothing comes of a stop here, `run` ends at it. -/
def step (w : Worker) : Event δ → Worker × List (Output δ)
  | .message now (.command raw sender) => w.command now raw sender
  | .message _ (.ready reply sender) => (w, [.reply sender reply])
  | .message _ .stop => (w, [])
  | .tick now => w.tick now

/-- Deals with events in order, up to a stop. -/
def run (w : Worker) : List (Event δ) → Worker × List (Output δ)
  | [] => (w, [])
  | .message _ .stop :: _ => (w, [])
  | e :: es =>
    let (w, out) := w.step e
    let (w, more) := w.run es
    (w, out ++ more)

end Worker
end Keyline
