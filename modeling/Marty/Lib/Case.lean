import Mathlib.Data.List.Nodup
import Marty.Lib.Dict
import Marty.Lib.Text

/-! Keys in snake case and in camel case, and dictionaries whose keys are converted. -/

universe u

namespace Lib.Case

variable {β : Type u}

/-- `str.title()` of an ASCII text: after a character that is no letter a letter is in upper case,
and in lower case after a letter. -/
def titleFrom : Bool → List Char → List Char
  | _, [] => []
  | afterLetter, c :: text =>
    (if afterLetter then c.toLower else c.toUpper) :: titleFrom c.isAlpha text

/-- `"".join` of the first component and the titles of the others. -/
def camelCase (s : String) : String :=
  match s.toList.splitOn '_' with
  | [] => ""
  | first :: components => String.ofList (first ++ components.flatMap (titleFrom false))

/-- `re.sub(r"(?<!^)(?=[A-Z])", "_", s).lower()` -/
def camelToSnake (s : String) : String :=
  match s.toList with
  | [] => ""
  | first :: text =>
    Text.lower (String.ofList (first :: text.flatMap fun c =>
      if c.isUpper then ['_', c] else [c]))

/-- `{f(key): value for key, value in d.items()}` -/
def mapKeys (f : String → String) (d : List (String × β)) : List (String × β) :=
  Dict.updated [] (d.map fun e => (f e.1, e.2))

def snakeToCamelDict (d : List (String × β)) : List (String × β) := mapKeys camelCase d

def camelToSnakeDict (d : List (String × β)) : List (String × β) := mapKeys camelToSnake d

theorem mapKeys_of_nodup {f : String → String} {d : List (String × β)}
    (h : (d.map fun e => f e.1).Nodup) : mapKeys f d = d.map fun e => (f e.1, e.2) := by
  rw [mapKeys, Dict.updated_eq_append]
  · exact List.nil_append _
  · rw [List.nil_append, List.map_map]
    exact h

/-- Keys that come back from camel case. -/
def Restored (d : List (String × β)) : Prop :=
  (d.map (·.1)).Nodup ∧ ∀ key ∈ d.map (·.1), camelToSnake (camelCase key) = key

theorem camelToSnakeDict_snakeToCamelDict {d : List (String × β)} (h : Restored d) :
    camelToSnakeDict (snakeToCamelDict d) = d := by
  obtain ⟨hnodup, hrestored⟩ := h
  have hback : (d.map fun e => (camelToSnake (camelCase e.1), e.2)) = d := by
    calc
      (d.map fun e => (camelToSnake (camelCase e.1), e.2)) = d.map id :=
        List.map_congr_left fun e he => by
          rw [hrestored e.1 (List.mem_map_of_mem he)]
          rfl
      _ = d := List.map_id d
  have hcamel : (d.map fun e => camelCase e.1).Nodup := by
    have hkeys : ((d.map (·.1)).map camelCase).Nodup := by
      refine hnodup.map_on fun key hkey key' hkey' heq => ?_
      rw [← hrestored key hkey, heq, hrestored key' hkey']
    rwa [List.map_map] at hkeys
  have hsnake : ((snakeToCamelDict d).map fun e => camelToSnake e.1).Nodup := by
    rw [snakeToCamelDict, mapKeys_of_nodup hcamel, List.map_map]
    have hkeys := congrArg (List.map Prod.fst) hback
    rw [List.map_map] at hkeys
    exact hkeys ▸ hnodup
  rw [camelToSnakeDict, mapKeys_of_nodup hsnake, snakeToCamelDict, mapKeys_of_nodup hcamel,
    List.map_map]
  exact hback

example : camelCase "date_of_birth" = "dateOfBirth" := by decide +kernel

example : camelToSnake "vdsNcBarcode" = "vds_nc_barcode" := by decide +kernel

end Lib.Case
