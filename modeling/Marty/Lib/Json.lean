import Mathlib.Data.Rat.Defs

/-! JSON values as `json.loads` builds them: a dictionary is the list of its entries in
insertion order. -/

namespace Lib

inductive Json : Type
  | null : Json
  | bool : Bool → Json
  | int : Int → Json
  | float : ℚ → Json
  | str : String → Json
  | arr : List Json → Json
  | obj : List (String × Json) → Json

namespace Json

/-- `data.get(key)` where `data` is a dictionary; anything else has no entries. -/
def get? (key : String) : Json → Option Json
  | .obj entries => entries.lookup key
  | _ => none

def asStr : Json → Option String
  | .str s => some s
  | _ => none

/-- The value used as a condition. -/
def truthy : Json → Bool
  | .null => false
  | .bool b => b
  | .int n => n ≠ 0
  | .float x => x ≠ 0
  | .str s => s ≠ ""
  | .arr values => !values.isEmpty
  | .obj entries => !entries.isEmpty

/-- `data.get(key)` kept only when it is a string. -/
def getStr? (key : String) (j : Json) : Option String := (j.get? key).bind asStr

end Json

end Lib
