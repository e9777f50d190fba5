import Keyline.Json.Problem
import Keyline.Store

/-!
# Snapshot documents

A snapshot lists the pairs of a store as a JSON list of two-element lists, without blanks and in
the order of the keys. Reading a document gives its pairs, or the first problem in it.
-/
namespace Keyline.Snapshots

open Json (Token Problem)

def quote (s : String) : List Char := '"' :: Json.Text.escape s.toList ++ ['"']

def pairText (p : String × String) : List Char :=
  '[' :: quote p.1 ++ ',' :: quote p.2 ++ [']']

def commaSeparated : List (List Char) → List Char
  | [] => []
  | [e] => e
  | e :: es => e ++ ',' :: commaSeparated es

def text (ps : List (String × String)) : List Char :=
  '[' :: commaSeparated (ps.map pairText) ++ [']']

def encode (s : Store) : Bytes := Utf8.encodeChars (text s.pairs)

/-- What is wrong with tokens that do not start with a pair. -/
def pairProblem : List Token → Problem
  | .beginList :: .endList :: _ => .wrongLength 0 "a tuple of size 2"
  | .beginList :: .string _ :: .endList :: _ => .wrongLength 1 "a tuple of size 2"
  | .beginList :: .string _ :: .comma :: .string _ :: _ => .malformed
  | .beginList :: .string _ :: .comma :: t :: _ => .atToken "a string" t
  | .beginList :: .string _ :: _ => .malformed
  | .beginList :: t :: _ => .atToken "a string" t
  | [.beginList] => .malformed
  | t :: _ => .atToken "a tuple of size 2" t
  | [] => .malformed

/-- Reads what follows a pair in the list. -/
def readMore : List Token → Except Problem (List (String × String))
  | [.endList] => .ok []
  | .comma :: .beginList :: .string k :: .comma :: .string v :: .endList :: ts =>
    match readMore ts with
    | .ok ps => .ok ((k, v) :: ps)
    | .error e => .error e
  | .comma :: ts => .error (pairProblem ts)
  | _ => .error .malformed

def readPairs : List Token → Except Problem (List (String × String))
  | [.beginList, .endList] => .ok []
  | .beginList :: .endList :: _ => .error .malformed
  | .beginList :: .beginList :: .string k :: .comma :: .string v :: .endList :: ts =>
    match readMore ts with
    | .ok ps => .ok ((k, v) :: ps)
    | .error e => .error e
  | .beginList :: ts => .error (pairProblem ts)
  | t :: _ => .error (.atToken "a sequence" t)
  | [] => .error .malformed

/-- Reads the store of a snapshot; the last pair of a key wins. -/
def decode (bs : Bytes) : Except Problem Store :=
  match readPairs (Token.ofBytes bs) with
  | .ok ps => .ok (.ofList ps)
  | .error e => .error e

end Keyline.Snapshots
