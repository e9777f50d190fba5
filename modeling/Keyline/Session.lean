import Keyline.Wire
import Keyline.Worker

/-!
# Sessions

A session turns the lines of one client into messages for the worker and writes the replies back,
a line each, in the order in which they come. A line that is no text gets a ready reply, which
waits its turn behind the commands before it.
-/
namespace Keyline.Session
variable {δ : Type}

def notText : Reply := .error "Command is not valid UTF-8."

def message (sender : δ) (line : Bytes) : Message δ :=
  match Utf8.decode? (Wire.trim line) with
  | some raw => .command raw sender
  | none => .ready notText.text sender

def messages (sender : δ) (stream : Bytes) : List (Message δ) :=
  (Wire.lines stream).map (message sender)

/-- The replies among the worker's outputs that go to one sender. -/
def replies [DecidableEq δ] (sender : δ) (outputs : List (Output δ)) : List String :=
  outputs.filterMap fun
    | .reply s text => if s = sender then some text else none
    | .report _ => none

/-- How a session ends once its client is done: it fails if a message found no worker. -/
def ending (messages : List (Message δ)) (isRunning : Bool) : Except Failure Unit :=
  if isRunning ∨ messages = [] then .ok () else .error .stopped

def written (replies : List String) : Bytes := replies.flatMap Wire.frame

end Keyline.Session
