/-!
# JSON values

Of numbers only those that count something are told apart.
-/

namespace ArchLint

inductive Json where
  | null
  | bool (b : Bool)
  | number (n : Nat)
  | otherNumber
  | string (s : String)
  /-- A string, or an object with a key, that holds half a surrogate pair. -/
  | unreadable
  | array (items : List Json)
  | object (members : List (String × Json))
  deriving Inhabited

end ArchLint
