import Marty.Lib.Json

/-! `repr` of the values that `json.loads` builds. -/

namespace Lib.Repr

/-- `str.isprintable` of one character, and `repr` of a `float`. -/
structure Format where
  printable : Char → Bool
  float : ℚ → String

/-- The last `width` hexadecimal digits of a number. -/
def hex : Nat → Nat → List Char
  | 0, _ => []
  | width + 1, n => hex width (n / 16) ++ [Nat.digitChar (n % 16)]

def apostrophe : Char := Char.ofNat 0x27

def quotationMark : Char := Char.ofNat 0x22

def backslash : Char := Char.ofNat 0x5c

def escapeChar (fmt : Format) (quote c : Char) : List Char :=
  if c = quote ∨ c = backslash then [backslash, c]
  else if c = '\n' then [backslash, 'n']
  else if c = '\r' then [backslash, 'r']
  else if c = '\t' then [backslash, 't']
  else if fmt.printable c then [c]
  else if c.toNat < 0x100 then backslash :: 'x' :: hex 2 c.toNat
  else if c.toNat < 0x10000 then backslash :: 'u' :: hex 4 c.toNat
  else backslash :: 'U' :: hex 8 c.toNat

/-- A string stands in apostrophes, unless it has one and no quotation mark. -/
def reprStr (fmt : Format) (s : String) : String :=
  let quote :=
    if apostrophe ∈ s.toList ∧ quotationMark ∉ s.toList then quotationMark else apostrophe
  String.ofList (quote :: (s.toList.flatMap (escapeChar fmt quote) ++ [quote]))

mutual

def repr (fmt : Format) : Json → String
  | .null => "None"
  | .bool b => if b then "True" else "False"
  | .int n => toString n
  | .float x => fmt.float x
  | .str s => reprStr fmt s
  | .arr values => "[" ++ ", ".intercalate (reprs fmt values) ++ "]"
  | .obj entries => "\x7b" ++ ", ".intercalate (reprEntries fmt entries) ++ "\x7d"

def reprs (fmt : Format) : List Json → List String
  | [] => []
  | value :: values => repr fmt value :: reprs fmt values

def reprEntries (fmt : Format) : List (String × Json) → List String
  | [] => []
  | (key, value) :: entries =>
    (reprStr fmt key ++ ": " ++ repr fmt value) :: reprEntries fmt entries

end

/-- `str` of a list of pairs. -/
def strItems (fmt : Format) (items : List (String × Json)) : String :=
  let strItem (item : String × Json) : String :=
    "(" ++ reprStr fmt item.1 ++ ", " ++ repr fmt item.2 ++ ")"
  "[" ++ ", ".intercalate (items.map strItem) ++ "]"

def ascii : Format where
  printable := fun c => 0x20 ≤ c.toNat && c.toNat < 0x7f
  float := fun x => toString x.num

example : strItems ascii [("a", .str "it's"), ("b", .arr [.int 1, .obj [("c", .null)]])] =
    "[('a', \"it's\"), ('b', [1, \x7b'c': None\x7d])]" := by
  decide +kernel

end Lib.Repr
