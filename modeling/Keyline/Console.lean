import Keyline.Client
import Keyline.CommandLine.Client
import Keyline.Files.Path

/-!
# The client's console

The client sends the command it was given, or the lines of its standard input, prints the
responses, and ends at the first failure.
-/
namespace Keyline.Console

structure Transcript where
  output : List String
  errors : List String
  exit : Nat
  deriving Repr, DecidableEq

section
variable {σ : Type}

/-- The commands on standard input. Only a line that ends in a line feed is trimmed. -/
def commands (input : Bytes) : List (Option String) :=
  let lines := Wire.lines input
  if input.getLast? = some Wire.lineFeed then lines.map fun l => Utf8.decode? (Wire.trim l)
  else
    (lines.dropLast.map fun l => Utf8.decode? (Wire.trim l)) ++
      lines.getLast?.toList.map Utf8.decode?

/-- Sends commands one after the other over a connection with state `σ`. A line that is no text
ends the client. -/
def exchangeAll (exchange : σ → String → Except Failure String × σ) (s : σ) :
    List (Option String) → Transcript × σ
  | [] => (⟨[], [], 0⟩, s)
  | none :: _ => (⟨[], [Fault.notText.message], 1⟩, s)
  | some command :: rest =>
    match exchange s command with
    | (.error e, s) => (⟨[], [e.message], 1⟩, s)
    | (.ok response, s) =>
      let (t, s) := exchangeAll exchange s rest
      ({ t with output := response :: t.output }, s)

/-- What the client says before it connects. -/
def greeting (o : ClientOptions) : String := "Connecting to " ++ o.server ++ "..."

/-- Everything that a client prints that could not connect. -/
def unconnected (o : ClientOptions) (e : Failure) : Transcript := ⟨[], [greeting o, e.message], 1⟩

/-- Everything that a connected client prints, and the connection after it. -/
def run (o : ClientOptions) (input : Bytes)
    (exchange : σ → String → Except Failure String × σ) (s : σ) : Transcript × σ :=
  let (invitation, commands) := match o.command with
    | some command => ([], [some command])
    | none => (["Enter your commands..."], commands input)
  let (t, s) := exchangeAll exchange s commands
  ({ t with errors := greeting o :: invitation ++ t.errors }, s)

end
end Keyline.Console
