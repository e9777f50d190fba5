import Keyline.Failure
import Keyline.Wire

/-!
# The client's side

A command is sent as one line and answered by one line.
-/
namespace Keyline.Client

/-- The bytes of a command, which must not hold a line feed. -/
def request (command : String) : Except Failure Bytes :=
  if '\n' ∈ command.toList then .error (.network "a command must fit on one line")
  else .ok (Wire.frame command)

theorem request_eq {command : String} (h : '\n' ∉ command.toList) :
    request command = .ok (Wire.frame command) := if_neg h

/-- The next response in a stream, and the stream behind it. -/
def response (stream : Bytes) : Except Failure (String × Bytes) :=
  if stream = [] then .error (.network "server closed the connection")
  else
    .ok (String.ofList (Utf8.decodeLossy (Wire.trim (Wire.cut stream).1)),
      (Wire.cut stream).2.getD [])

end Keyline.Client
