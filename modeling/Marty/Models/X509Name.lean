import Marty.Lib.Dict
import Marty.Lib.Fields
import Marty.Lib.Strip

/-! `X509Name`: a distinguished name is written with commas between its parts, and nothing is
escaped. -/

namespace Marty.Models

open Lib Lib.Fields

structure X509Name where
  country : String
  organization : String
  organizationalUnit : Option String := none
  commonName : Option String := none
  stateOrProvince : Option String := none
  locality : Option String := none
  email : Option String := none
  deriving DecidableEq

namespace X509Name

variable (n : X509Name)

def fields : List (String × Option String) := [
  ("C", some n.country), ("O", some n.organization), ("OU", n.organizationalUnit),
  ("CN", n.commonName), ("ST", n.stateOrProvince), ("L", n.locality), ("E", n.email)]

/-- The fields that are written, those that are not empty. -/
def components : List (String × String) :=
  entries (n.fields.map fun field => (field.1, Text.truthy field.2))

def part (component : String × String) : String := component.1 ++ "=" ++ component.2

def toString : String := ", ".intercalate (n.components.map part)

def fromDict (data : List (String × String)) : X509Name where
  country := (data.lookup "C").getD ""
  organization := (data.lookup "O").getD ""
  organizationalUnit := data.lookup "OU"
  commonName := data.lookup "CN"
  stateOrProvince := data.lookup "ST"
  locality := data.lookup "L"
  email := data.lookup "E"

/-- A part with an equals sign. -/
def readPart (part : List Char) : Option (String × String) :=
  if '=' ∈ part then
    let (key, value) := Text.partition '=' (Text.strip (String.ofList part))
    some (Text.strip key, Text.strip value)
  else none

def fromString (nameString : String) : X509Name :=
  fromDict (Dict.updated [] ((nameString.toList.splitOn ',').filterMap readPart))

/-- No field is empty, and none has a space at an end. -/
structure Regular : Prop where
  nonEmpty : ∀ field ∈ n.fields, field.2 ≠ some ""
  strip : ∀ field ∈ n.fields, ∀ value ∈ field.2, Text.strip value = value

def NoComma : Prop := ∀ field ∈ n.fields, ∀ value ∈ field.2, ',' ∉ value.toList

variable {n}

def labels : List String := ["C", "O", "OU", "CN", "ST", "L", "E"]

theorem Regular.components_eq (h : n.Regular) : n.components = entries n.fields := by
  have hfields : n.fields.map (fun field => (field.1, Text.truthy field.2)) = n.fields := by
    calc
      n.fields.map (fun field => (field.1, Text.truthy field.2)) = n.fields.map id := by
        apply List.map_congr_left
        intro field hfield
        rw [truthy_eq (h.nonEmpty field hfield)]
        rfl
      _ = n.fields := List.map_id _
  rw [components, hfields]

theorem nodup_keys : ((entries n.fields).map (·.1)).Nodup := by
  apply List.Nodup.sublist (keys_entries_sublist _)
  change labels.Nodup
  decide

theorem mem_labels {field : String × Option String} (h : field ∈ n.fields) : field.1 ∈ labels :=
  List.mem_map_of_mem (f := (·.1)) h

/-- A label is a text without spaces that has none of the separators. -/
theorem labels_plain : ∀ label ∈ labels, label.toList.head?.all (!Text.isSpace ·) = true ∧
    label ≠ "" ∧ '=' ∉ label.toList ∧ ',' ∉ label.toList ∧ Text.strip label = label := by
  decide +kernel

theorem part_toList (label value : String) :
    (part (label, value)).toList = label.toList ++ '=' :: value.toList := by
  simp [part]

theorem readPart_space (text : List Char) : readPart (' ' :: text) = readPart text := by
  rw [readPart, readPart, Text.strip_space rfl]
  simp

/-- What a part that is written is read as. -/
theorem readPart_part {label value : String} (hlabel : label ∈ labels)
    (hstrip : Text.strip value = value) (hvalue : value ≠ "") :
    readPart (part (label, value)).toList = some (label, value) := by
  obtain ⟨hstart, hne, hequals, -, hlabelStrip⟩ := labels_plain label hlabel
  have hpart : Text.strip (String.ofList (part (label, value)).toList) =
      String.ofList (label.toList ++ '=' :: value.toList) := by
    rw [part_toList]
    cases htext : label.toList with
    | nil => exact absurd (String.toList_eq_nil_iff.mp htext) hne
    | cons c text =>
      have hc : Text.isSpace c = false := by simpa [htext] using hstart
      simpa using Text.strip_append hc (text ++ ['=']) hstrip hvalue
  have hmem : '=' ∈ (part (label, value)).toList := by
    simp [part_toList]
  rw [readPart, if_pos hmem, hpart, Text.partition_append hequals]
  simp [hlabelStrip, hstrip]

theorem notMem_part {label value : String} (hlabel : label ∈ labels) (hvalue : ',' ∉ value.toList) :
    ',' ∉ (part (label, value)).toList := by
  obtain ⟨-, -, -, hcomma, -⟩ := labels_plain label hlabel
  rw [part_toList]
  simp [hcomma, hvalue]

/-- A component without a comma is read back, and is not split. -/
theorem readPart_component (h : n.Regular) (hcomma : n.NoComma) {component : String × String}
    (hmem : component ∈ entries n.fields) :
    readPart (part component).toList = some component ∧ ',' ∉ (part component).toList := by
  obtain ⟨label, value⟩ := component
  have hfield : (label, some value) ∈ n.fields := mem_entries.mp hmem
  have hlabel : label ∈ labels := mem_labels hfield
  have hvalue : value ≠ "" := fun hempty => h.nonEmpty _ hfield (congrArg some hempty)
  exact ⟨readPart_part hlabel (h.strip _ hfield value rfl) hvalue,
    notMem_part hlabel (hcomma _ hfield value rfl)⟩

theorem filterMap_readPart_space {components : List (String × String)}
    (hread : ∀ component ∈ components, readPart (part component).toList = some component) :
    (components.map fun component => ' ' :: (part component).toList).filterMap readPart =
      components := by
  rw [List.filterMap_map]
  calc
    components.filterMap (readPart ∘ fun component => ' ' :: (part component).toList) =
        components.filterMap some := by
      apply List.filterMap_congr
      intro component hcomponent
      exact (readPart_space _).trans (hread component hcomponent)
    _ = components := List.filterMap_some

/-- The parts of components without a comma are read back one by one. -/
theorem filterMap_readPart_intercalate {components : List (String × String)}
    (hne : components ≠ [])
    (hread : ∀ component ∈ components, readPart (part component).toList = some component)
    (hcomma : ∀ component ∈ components, ',' ∉ (part component).toList) :
    (([',', ' '].intercalate (components.map fun component => (part component).toList)).splitOn
      ',').filterMap readPart = components := by
  cases components with
  | nil => exact absurd rfl hne
  | cons first rest =>
    obtain ⟨hfirst, hrest⟩ := List.forall_mem_cons.mp hread
    have hcommas : ∀ text ∈ (first :: rest).map fun component => (part component).toList,
        ',' ∉ text := List.forall_mem_map.mpr hcomma
    rw [List.map_cons] at hcommas ⊢
    rw [Text.splitOn_intercalate_space (by decide) hcommas, List.map_map,
      List.filterMap_cons_some hfirst]
    exact congrArg (first :: ·) (filterMap_readPart_space hrest)

theorem filterMap_readPart (h : n.Regular) (hcomma : n.NoComma) :
    (n.toString.toList.splitOn ',').filterMap readPart = entries n.fields := by
  have htext : n.toString.toList =
      [',', ' '].intercalate ((entries n.fields).map fun component => (part component).toList) := by
    rw [toString, h.components_eq, String.toList_intercalate, List.map_map]
    rfl
  rw [htext]
  apply filterMap_readPart_intercalate
  · exact List.cons_ne_nil _ _
  · exact fun component hmem => (readPart_component h hcomma hmem).1
  · exact fun component hmem => (readPart_component h hcomma hmem).2

theorem fromDict_entries (n : X509Name) : fromDict (entries n.fields) = n := by
  simp [fromDict, fields, lookup_entries_cons, lookup_entries_nil]

theorem mem_fromDict {data : List (String × String)} {field : String × Option String}
    {value : String}
    (hfield : field ∈ (fromDict data).fields) (hvalue : value ∈ field.2) :
    value = "" ∨ ∃ key, (key, value) ∈ data := by
  have hlookup : value = "" ∨ ∃ key, data.lookup key = some value := by
    have hgetD : ∀ key, some ((data.lookup key).getD "") = some value →
        value = "" ∨ ∃ key, data.lookup key = some value := by
      intro key hsome
      cases hkey : data.lookup key with
      | none => simp_all
      | some found => exact Or.inr ⟨key, by simp_all⟩
    simp only [fields, fromDict, List.mem_cons, List.not_mem_nil, or_false] at hfield
    obtain rfl | rfl | rfl | rfl | rfl | rfl | rfl := hfield
    · exact hgetD _ hvalue
    · exact hgetD _ hvalue
    all_goals exact Or.inr ⟨_, hvalue⟩
  exact hlookup.imp_right fun ⟨key, hkey⟩ => ⟨key, Dict.mem_of_lookup hkey⟩

theorem readPart_eq_some {text : List Char} {component : String × String}
    (h : readPart text = some component) : ∀ c ∈ component.2.toList, c ∈ text := by
  rw [readPart] at h
  split at h
  case isTrue =>
    obtain rfl := Option.some.inj h
    intro c hc
    have hafter := Text.mem_of_mem_strip hc
    simp only [String.toList_ofList] at hafter
    have hdrop := (List.dropWhile_sublist _).subset ((List.drop_sublist _ _).subset hafter)
    simpa using Text.mem_of_mem_strip hdrop
  case isFalse => cases h

/-- No value that is read has a comma. -/
theorem noComma_fromString (s : String) : (fromString s).NoComma := by
  intro field hfield value hvalue
  obtain rfl | ⟨key, hmem⟩ := mem_fromDict hfield hvalue
  · simp
  · obtain hmem | hmem := Dict.mem_updated hmem
    · obtain ⟨text, htext, hread⟩ := List.mem_filterMap.mp hmem
      intro hcomma
      exact Text.notMem_of_mem_splitOn htext (readPart_eq_some hread _ hcomma)
    · cases hmem

/-- A name is read back from its text exactly when no field has a comma. -/
theorem name_read_back_iff (n : X509Name) (h : n.Regular) :
    fromString n.toString = n ↔ n.NoComma := by
  constructor
  · intro heq
    rw [← heq]
    exact noComma_fromString _
  · intro hcomma
    rw [fromString, filterMap_readPart h hcomma,
      Dict.updated_eq_append (by simpa using nodup_keys)]
    exact fromDict_entries n

def issuer (organization : String) : X509Name where
  country := "UT"
  organization := organization
  commonName := some "UT CSCA 01"

theorem regular_issuer {organization : String} (hne : organization ≠ "")
    (hstrip : Text.strip organization = organization) : (issuer organization).Regular where
  nonEmpty := by simp [fields, issuer, hne]
  strip := by
    have hcountry : Text.strip "UT" = "UT" := by decide +kernel
    have hname : Text.strip "UT CSCA 01" = "UT CSCA 01" := by decide +kernel
    simp [fields, issuer, hstrip, hcountry, hname]

theorem ministry_read_back :
    fromString (issuer "Ministry of the Interior").toString = issuer "Ministry of the Interior" :=
  (name_read_back_iff _ (regular_issuer (by decide) (by decide +kernel))).mpr
    (by simp [NoComma, fields, issuer])

/-- What follows the comma is no part with an equals sign, and is lost. -/
theorem organization_cut :
    (issuer "Acme, Inc.").Regular ∧
      fromString (issuer "Acme, Inc.").toString = issuer "Acme" ∧
      fromString (issuer "Acme, Inc.").toString ≠ issuer "Acme, Inc." := by
  refine ⟨regular_issuer (by decide) (by decide +kernel), ?_, ?_⟩
  · decide +kernel
  · decide +kernel

end X509Name

end Marty.Models
