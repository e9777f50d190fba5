/-!
# Command lines

Arguments are read from left to right and the first fault ends the reading. An option is given by
its long name, `--name value` or `--name=value`, or by its letter, `-n value`, `-nvalue` or
`-n=value`; letters of options without a value may be joined. Each option is given at most once,
and nothing but options is accepted. A value given apart does not start with a dash.

An option with its value in the same argument is judged at once. One whose value is given apart
stays pending, and its faults show only where the next option is taken or the arguments end: an
argument that is no option, or an option with a value that it cannot have, is the first fault.
-/
namespace Keyline.CommandLine

/-- Why arguments are refused; asking for help or for the version ends the reading too. -/
inductive UsageError
  | unknownArgument
  | invalidValue
  | valueValidation
  | tooManyValues
  | argumentConflict
  | help
  | version
  deriving Repr, DecidableEq

def UsageError.message : UsageError → String
  | unknownArgument => "there is no such argument"
  | invalidValue => "an option has no value"
  | valueValidation => "the value of an option is not valid"
  | tooManyValues => "an option that takes no value has one"
  | argumentConflict => "an option is given twice"
  | help => "help was asked for"
  | version => "the version was asked for"

/-- What an option does: take a value, switch something on, or ask for a text. -/
inductive Kind
  | value
  | switch
  | ask (e : UsageError)
  deriving Repr, DecidableEq

structure Spec (ι : Type) where
  id : ι
  name : String
  letter : Option Char
  kind : Kind
  /-- The fault of a value, if it is not acceptable. -/
  fault : String → Option UsageError := fun _ => none

section
variable {ι : Type} [DecidableEq ι]

def Spec.usage (s : Spec ι) : String :=
  let letter := match s.letter with
    | some c => "  -" ++ c.toString ++ ", --"
    | none => "      --"
  letter ++ s.name ++ (if s.kind = .value then " <VALUE>" else "")

/-- Options read so far with their values; a switch has the value `""`. -/
abbrev Given (ι : Type) := List (ι × String)

/-- The option read last, with the value given apart from it, if there is one yet. -/
abbrev Pending (ι : Type) := Option (Spec ι × Option String)

def take (s : Spec ι) (v : String) (given : Given ι) : Except UsageError (Given ι) :=
  if s.id ∈ given.map Prod.fst then .error .argumentConflict
  else
    match s.fault v with
    | some e => .error e
    | none => .ok (given ++ [(s.id, v)])

/-- Takes the pending option, which must have its value. -/
def settle (pending : Pending ι) (given : Given ι) : Except UsageError (Given ι) :=
  match pending with
  | none => .ok given
  | some (_, none) => .error .invalidValue
  | some (s, some v) => take s v given

/-- Takes the pending option and then one with its value. -/
def takeNext (s : Spec ι) (v : String) (pending : Pending ι) (given : Given ι) :
    Except UsageError (Given ι) :=
  match settle pending given with
  | .error e => .error e
  | .ok given => take s v given

/-- Takes the pending option and then one that stands without a value. -/
def takeBare (s : Spec ι) (pending : Pending ι) (given : Given ι) :
    Except UsageError (Given ι) :=
  match settle pending given with
  | .error e => .error e
  | .ok given =>
    match s.kind with
    | .ask e => .error e
    | _ => take s "" given

/-- Takes the pending option; another one is pending after it. -/
def suspend (s : Spec ι) (pending : Pending ι) (given : Given ι) :
    Except UsageError (Pending ι × Given ι) :=
  (settle pending given).map (some (s, none), ·)

/-- Reads joined letters; an option at their end may wait for its value. -/
def readLetters (specs : List (Spec ι)) (pending : Pending ι) (given : Given ι) :
    List Char → Except UsageError (Pending ι × Given ι)
  | [] => .ok (pending, given)
  | c :: cs =>
    match specs.find? (·.letter = some c) with
    | none => .error .unknownArgument
    | some s =>
      match s.kind, cs with
      | .value, [] => suspend s pending given
      | .value, '=' :: v => (takeNext s (String.ofList v) pending given).map (none, ·)
      | .value, v => (takeNext s (String.ofList v) pending given).map (none, ·)
      | _, _ =>
        match takeBare s pending given with
        | .error e => .error e
        | .ok given => readLetters specs none given cs

def splitValue : List Char → List Char × Option (List Char)
  | [] => ([], none)
  | '=' :: cs => ([], some cs)
  | c :: cs => (c :: (splitValue cs).1, (splitValue cs).2)

/-- Reads a long name, with what follows an equals sign. -/
def readName (specs : List (Spec ι)) (pending : Pending ι) (given : Given ι) (cs : List Char) :
    Except UsageError (Pending ι × Given ι) :=
  match specs.find? (·.name.toList = (splitValue cs).1), (splitValue cs).2 with
  | none, _ => .error .unknownArgument
  | some s, some v =>
    if s.kind = .value then (takeNext s (String.ofList v) pending given).map (none, ·)
    else .error .tooManyValues
  | some s, none =>
    if s.kind = .value then suspend s pending given
    else (takeBare s pending given).map (none, ·)

def readArgument (specs : List (Spec ι)) (pending : Pending ι) (given : Given ι) (arg : String) :
    Except UsageError (Pending ι × Given ι) :=
  match arg.toList with
  | '-' :: '-' :: name => readName specs pending given name
  | '-' :: c :: cs => readLetters specs pending given (c :: cs)
  | _ =>
    match pending with
    | some (s, none) => .ok (some (s, some arg), given)
    | _ => .error .unknownArgument

/-- Reads arguments; nothing may follow two dashes. -/
def readAll (specs : List (Spec ι)) (pending : Pending ι) (given : Given ι) :
    List String → Except UsageError (Given ι)
  | [] => settle pending given
  | "--" :: args => if args = [] then settle pending given else .error .unknownArgument
  | arg :: args =>
    match readArgument specs pending given arg with
    | .error e => .error e
    | .ok (pending, given) => readAll specs pending given args

def read (specs : List (Spec ι)) (args : List String) : Except UsageError (Given ι) :=
  readAll specs none [] args

def valueOf (id : ι) (given : Given ι) : Option String :=
  (given.find? (·.1 = id)).map Prod.snd

end

/-- Reads a number without a sign or with a plus sign, below the bound. -/
def unsigned? (bound : Nat) (s : String) : Option Nat :=
  let ds := match s.toList with
    | '+' :: ds => ds
    | ds => ds
  if ds ≠ [] ∧ ds.all Char.isDigit ∧ Nat.ofDigitChars 10 ds 0 < bound then
    some (Nat.ofDigitChars 10 ds 0)
  else none

def faultUnless {α : Type} (read : String → Option α) (s : String) : Option UsageError :=
  if (read s).isSome then none else some .valueValidation

end Keyline.CommandLine
