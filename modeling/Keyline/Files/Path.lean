/-!
# Paths and faults

A path keeps the text it was given, for messages. Its names are followed one after another, from
the top of the file tree or from where relative paths start; which place they lead to depends on
the files. An operation on files that fails is reported with its path.
-/
namespace Keyline

inductive Fault
  | absent
  | occupied
  | notDirectory
  | isDirectory
  | nameTooLong
  /-- A path with a NUL names nothing. -/
  | nulByte
  | notText
  deriving Repr, DecidableEq

namespace Fault

def message : Fault → String
  | absent => "No such file or directory (os error 2)"
  | occupied => "File exists (os error 17)"
  | notDirectory => "Not a directory (os error 20)"
  | isDirectory => "Is a directory (os error 21)"
  | nameTooLong => "File name too long (os error 36)"
  | nulByte => "file name contained an unexpected NUL byte"
  | notText => "stream did not contain valid UTF-8"

/-- Report of a fault met on doing `act` to `path`. -/
def during (f : Fault) (act path : String) : String :=
  "cannot " ++ act ++ " " ++ path ++ ": " ++ f.message

end Fault

/-- Names from the top of the tree down; the top itself is the empty place. -/
abbrev Place := List String

structure Path where
  text : String
  deriving Repr, DecidableEq, Inhabited

namespace Path

def pieces : List Char → List (List Char)
  | [] => [[]]
  | c :: cs =>
    if c = '/' then [] :: pieces cs
    else match pieces cs with
      | w :: ws => (c :: w) :: ws
      | [] => [[c]]

def isAbsolute (p : Path) : Bool := p.text.toList.head? = some '/'

/-- Whether a path can only stand for a directory, by its last slash. -/
def endsInSlash (p : Path) : Bool := p.text.toList.getLast? = some '/'

/-- The names in a path; empty ones lead nowhere. -/
def names (p : Path) : List String :=
  ((pieces p.text.toList).map String.ofList).filter (· ≠ "")

/-- The longest path, in bytes. -/
def limit : Nat := 4095

/-- The fault of a path that cannot be followed, whatever files there are. -/
def fault? (p : Path) : Option Fault :=
  if '\x00' ∈ p.text.toList then some .nulByte
  else if limit < p.text.utf8ByteSize then some .nameTooLong
  else none

/-- A path below another; nothing is resolved and no slash is doubled. -/
def child (p : Path) (name : String) : Path :=
  if name.toList.head? = some '/' then ⟨name⟩
  else if p.text = "" || p.endsInSlash then ⟨p.text ++ name⟩
  else ⟨p.text ++ "/" ++ name⟩

/-- The names of the directory above that of `names`. A single dot after a name adds nothing to
it, but two dots count as a name. -/
def above (names : List String) : List String :=
  (((names.reverse.dropWhile (· = ".")).drop 1).dropWhile (· = ".")).reverse

theorem isPrefix_above (names : List String) : above names <+: names := by
  have h := (List.dropWhile_suffix fun n => decide (n = ".")).trans
    ((List.drop_suffix 1 _).trans
      (List.dropWhile_suffix (fun n => decide (n = ".")) (l := names.reverse)))
  simpa [above] using List.reverse_prefix.2 h

theorem length_above_lt {names : List String} (h : names ≠ []) :
    (above names).length < names.length := by
  have h0 := List.length_pos_iff.2 h
  have h1 := (List.dropWhile_sublist (fun n => decide (n = ".")) (l := names.reverse)).length_le
  have h2 := (List.dropWhile_sublist (fun n => decide (n = "."))
    (l := (names.reverse.dropWhile fun n => decide (n = ".")).drop 1)).length_le
  simp only [List.length_reverse, List.length_drop] at h1 h2
  simp only [above, List.length_reverse]
  omega

end Path
end Keyline
