import ArchLint.Toml.Datetime

/-!
# TOML values
-/

namespace ArchLint.Toml

inductive Value where
  | string (s : String)
  | integer (n : Int)
  | float (x : Float)
  | boolean (b : Bool)
  | datetime (d : Datetime)
  | array (items : List Value)
  | table (entries : List (String × Value))
  deriving Inhabited

namespace Value

def asString? : Value → Option String
  | .string s => some s
  | _ => none

def asBool? : Value → Option Bool
  | .boolean b => some b
  | _ => none

def asArray? : Value → Option (List Value)
  | .array items => some items
  | _ => none

def toText? : Value → Option String
  | .string s => some s
  | .datetime d => some d.text
  | _ => none

def toInteger? : Value → Option Int
  | .integer n => some n
  | _ => none

def toFloat? : Value → Option Float
  | .float x => some x
  | .integer n => some (Float.ofInt n)
  | _ => none

def toTexts? : Value → Option (List String)
  | .array items => items.mapM toText?
  | _ => none

end Value

end ArchLint.Toml
