import Keyline.Query.Basic

/-!
# Reading a query

A line is a verb, a space, a key, and for `set` another space and a value. A key is not empty and
holds no blank. A value that starts with a double quote ends with another one, and both are taken
off; any other value holds no space.
-/
namespace Keyline

namespace Text

/-- The characters with the Unicode property `White_Space`. -/
def blanks : List Char :=
  ['\u0009', '\u000A', '\u000B', '\u000C', '\u000D', '\u0020', '\u0085', '\u00A0', '\u1680',
   '\u2000', '\u2001', '\u2002', '\u2003', '\u2004', '\u2005', '\u2006', '\u2007', '\u2008',
   '\u2009', '\u200A', '\u2028', '\u2029', '\u202F', '\u205F', '\u3000']

def isBlank (c : Char) : Bool := blanks.contains c

@[simp] theorem isBlank_space : isBlank ' ' = true := by decide

@[simp] theorem isBlank_newline : isBlank '\n' = true := by decide

end Text

/-- Why a line is no query. -/
inductive Rejection
  | noCommand
  | unknownCommand
  | argumentCount
  deriving Repr, DecidableEq

def Rejection.message : Rejection → String
  | noCommand => "No command was provided."
  | unknownCommand => "Invalid command. Must be one of get, delete, set."
  | argumentCount =>
    "Invalid number of arguments. Maybe you forgot to add the second double quote?"

namespace Query

/-- The text before the first space, and the text behind it if there is one. -/
def cut : List Char → List Char × Option (List Char)
  | [] => ([], none)
  | c :: cs => if c = ' ' then ([], some cs) else (c :: (cut cs).1, (cut cs).2)

def IsKey (cs : List Char) : Prop := cs ≠ [] ∧ ∀ c ∈ cs, Text.isBlank c = false

instance : DecidablePred IsKey := fun cs =>
  @instDecidableAnd _ _ inferInstance (List.decidableBAll (fun c => Text.isBlank c = false) cs)

def key? (cs : List Char) : Option String := if IsKey cs then some (String.ofList cs) else none

/-- Takes off the quotes of a quoted value. -/
def value? : List Char → Option String
  | '"' :: cs => if cs.getLast? = some '"' then some (String.ofList cs.dropLast) else none
  | cs => if ' ' ∈ cs then none else some (String.ofList cs)

/-- Reads what follows the verb, `none` where nothing follows. -/
def arguments? : Verb → Option (List Char) → Option Query
  | .get, some cs => (key? cs).map .get
  | .delete, some cs => (key? cs).map .delete
  | .set, some cs =>
    match cut cs with
    | (k, some v) =>
      match key? k, value? v with
      | some k, some v => some (.set k v)
      | _, _ => none
    | (_, none) => none
  | _, none => none

def parse (line : String) : Except Rejection Query :=
  if line = "" then .error .noCommand
  else
    match Verb.ofWord? (String.ofList (cut line.toList).1) with
    | none => .error .unknownCommand
    | some v =>
      match arguments? v (cut line.toList).2 with
      | none => .error .argumentCount
      | some q => .ok q

theorem cut_eq_none_iff {cs w : List Char} : cut cs = (w, none) ↔ cs = w ∧ ' ' ∉ w := by
  induction cs generalizing w with
  | nil => simp [cut, eq_comm]; rintro rfl; simp
  | cons c cs ih =>
    by_cases h : c = ' '
    · simp [cut, h]
      rintro rfl
      simp
    · cases w with
      | nil => simp [cut, h]
      | cons d w =>
        have := @ih w
        simp only [cut, h, if_false, Prod.mk.injEq, List.cons.injEq, List.mem_cons] at this ⊢
        grind

theorem cut_eq_some_iff {cs w r : List Char} :
    cut cs = (w, some r) ↔ cs = w ++ ' ' :: r ∧ ' ' ∉ w := by
  induction cs generalizing w with
  | nil => simp [cut]
  | cons c cs ih =>
    by_cases h : c = ' '
    · cases w <;> simp [cut, h]
      grind
    · cases w with
      | nil => simp [cut, h]
      | cons d w =>
        have := @ih w
        simp only [cut, h, if_false, Prod.mk.injEq, List.cons.injEq, List.cons_append,
          List.mem_cons] at this ⊢
        grind

end Query
end Keyline
