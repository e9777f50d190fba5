import Keyline.Json.Token
import Keyline.Text.Quoted

/-!
# Problems of a document

What a reader of a JSON document may find wrong with it, and how it is reported. A document that
is no JSON at all is only called that.
-/
namespace Keyline.Json

/-- A value that a reader met where it wanted another one. -/
inductive Found
  | null
  | bool (b : Bool)
  | integer (n : Int)
  | real (text : String)
  | string (s : String)
  | sequence
  | map
  deriving Repr, DecidableEq

def Found.text : Found → String
  | null => "null"
  | bool true => "boolean `true`"
  | bool false => "boolean `false`"
  | integer n => "integer `" ++ toString n ++ "`"
  | real text => "floating point `" ++ text ++ "`"
  | string s => "string " ++ Keyline.Text.quoted s
  | sequence => "sequence"
  | map => "map"

/-- The value that starts with a token, if one does. -/
def Token.found? : Token → Option Found
  | .null => some .null
  | .bool b => some (.bool b)
  | .integer n => some (.integer n)
  | .real text => some (.real text)
  | .string s => some (.string s)
  | .beginList => some .sequence
  | .beginObject => some .map
  | _ => none

inductive Problem
  | malformed
  | wrongType (found : Found) (wanted : String)
  | outOfRange (n : Int) (wanted : String)
  | wrongLength (n : Nat) (wanted : String)
  | unknownField (name : String) (known : List String)
  | duplicateField (name : String)
  deriving Repr, DecidableEq

namespace Problem

def message : Problem → String
  | malformed => "<syntax>"
  | wrongType found wanted => "invalid type: " ++ found.text ++ ", expected " ++ wanted
  | outOfRange n wanted => "invalid value: integer `" ++ toString n ++ "`, expected " ++ wanted
  | wrongLength n wanted => "invalid length " ++ toString n ++ ", expected " ++ wanted
  | unknownField name known =>
    "unknown field `" ++ name ++ "`, expected one of " ++
      ", ".intercalate (known.map fun k => "`" ++ k ++ "`")
  | duplicateField name => "duplicate field `" ++ name ++ "`"

/-- The problem of a token where `wanted` should start. -/
def atToken (wanted : String) (t : Token) : Problem :=
  match t.found? with
  | some found => .wrongType found wanted
  | none => .malformed

end Problem
end Keyline.Json
