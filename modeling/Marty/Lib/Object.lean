import Mathlib.Data.Rat.Defs
import Marty.Lib.Dict

/-! Values as JSON has them, in dictionaries whose keys need not be texts. -/

namespace Lib.Python

/-- A key of a dictionary.  `True`, `1` and `1.0` are one key. -/
inductive Key
  | none
  | number (x : ℚ)
  | str (s : String)
  deriving DecidableEq

inductive Object : Type
  | none : Object
  | bool : Bool → Object
  | int : Int → Object
  | float : ℚ → Object
  | str : String → Object
  | list : List Object → Object
  | dict : List (Key × Object) → Object

abbrev Entries := List (Key × Object)

def Key.object : Key → Object
  | .none => .none
  | .number x => if x.den = 1 then .int x.num else .float x
  | .str s => .str s

namespace Object

/-- The key that a value is; a list or a dictionary cannot be hashed. -/
def key? : Object → Option Key
  | .none => some .none
  | .bool b => some (.number (if b then 1 else 0))
  | .int n => some (.number n)
  | .float x => some (.number x)
  | .str s => some (.str s)
  | .list _ | .dict _ => Option.none

/-- What an iteration over the value gives, if there is one. -/
def items : Object → Option (List Object)
  | .str s => some (s.toList.map fun c => .str (String.singleton c))
  | .list values => some values
  | .dict entries => some (entries.map (·.1.object))
  | _ => Option.none

def pair? (item : Object) : Option (Key × Object) :=
  match item.items with
  | some [key, value] => key.key?.map (·, value)
  | _ => Option.none

/-- `dict(value)`, of a dictionary or of pairs. -/
def toDict : Object → Option Entries
  | .dict entries => some entries
  | value => value.items.bind fun items => (items.mapM pair?).map (Dict.updated [])

end Object

end Lib.Python
