import Marty.Lib.JsonText

/-! The migrations of the holder binding of a presentation policy: from a legacy word to a JSON
object, and from that to its canonical form and back.  A step that raises has no result. -/

namespace Marty.Migrations.HolderBinding

open Lib Lib.JsonText

variable {F : Type} (floats : FloatText F)

abbrev Entries (F : Type) : Type := List (String × Value F)

def notRequired : Entries F := [("required", .bool false)]

def asDict : Value F → Entries F
  | .obj entries => entries
  | .str value =>
    match loads floats value with
    | some (.obj parsed) => parsed
    | some _ => notRequired
    | none => [("required", .bool (value ≠ "NONE")), ("binding_methods", .arr [.str value])]
  | _ => notRequired

/-- `bool(data.get("required", False))` -/
def isRequired (data : Entries F) : Bool :=
  (data.lookup "required").any (Value.truthy floats)

/-- What `for` goes over. -/
def iterate : Value F → Option (List (Value F))
  | .arr values => some values
  | .str s => some (s.toList.map fun c => .str (String.singleton c))
  | .obj entries => some (entries.map fun entry => .str entry.1)
  | _ => none

/-- `data.get("binding_methods", [])`, as `for` goes over it. -/
def methodsOf (data : Entries F) : Option (List (Value F)) :=
  iterate ((data.lookup "binding_methods").getD (.arr []))

def renames : List (String × String) :=
  [("NONCE", "SESSION_BINDING"), ("BIOMETRIC", "DEVICE_KEY")]

def bindingMethods : List String := ["CREDENTIAL_KEY", "DEVICE_KEY", "SESSION_BINDING"]

def rename (method : String) : String := (renames.lookup method).getD method

/-- One step of the loop: a value that cannot be hashed is no key to look up. -/
def addMethod (methods : List String) : Value F → Option (List String)
  | .arr _ => none
  | .obj _ => none
  | .str method =>
    let mapped := rename method
    some (if mapped ∈ bindingMethods ∧ mapped ∉ methods then methods ++ [mapped] else methods)
  | _ => some methods

def defaultProfiles : Value F := .arr [.str "OID4VP_VERIFIABLE_PRESENTATION"]

def defaultFreshness : Value F :=
  .obj [("challenge_required", .bool true), ("audience_binding_required", .bool true),
    ("replay_detection_required", .bool true)]

/-- `data.get(key) or default` -/
def getOr (data : Entries F) (key : String) (default : Value F) : Value F :=
  ((data.lookup key).filter (Value.truthy floats)).getD default

def requiredBinding (methods : List String) (proofProfiles proofFreshness : Value F) : Value F :=
  .obj [("required", .bool true), ("binding_methods", .arr (methods.map .str)),
    ("proof_profiles", proofProfiles), ("proof_freshness", proofFreshness)]

def canonical (value : Value F) : Option (Value F) :=
  let old := asDict floats value
  if isRequired floats old then do
    let methods ← (← methodsOf old).foldlM addMethod []
    let methods := if methods = [] then ["DEVICE_KEY"] else methods
    some (requiredBinding methods (getOr floats old "proof_profiles" defaultProfiles)
      (getOr floats old "proof_freshness" defaultFreshness))
  else some (.obj notRequired)

def restore : Value F → Value F
  | .str method => .str (if method = "SESSION_BINDING" then "NONCE" else method)
  | method => method

def isStr (s : String) : Value F → Bool
  | .str s' => s' == s
  | _ => false

/-- The configuration that the downgrade writes. -/
def legacy (value : Value F) : Option (Value F) := do
  let current := asDict floats value
  let methods := (← methodsOf current).map restore
  some (.obj [("required", .bool (isRequired floats current)), ("binding_methods", .arr methods),
    ("nonce_required", .bool (methods.any (isStr "NONCE")))])

/-- The rows with what is written to them; all are left alone when one of them raises. -/
def rewrite {Id : Type} (change : Value F → Option (Value F)) (rows : List (Id × Value F)) :
    Option (List (Id × String)) :=
  rows.mapM fun row => (change row.2).map fun value => (row.1, dumps floats value)

def upgrade {Id : Type} (rows : List (Id × Value F)) : Option (List (Id × String)) :=
  rewrite floats (canonical floats) rows

def downgrade {Id : Type} (rows : List (Id × Value F)) : Option (List (Id × String)) :=
  rewrite floats (legacy floats) rows

/-- What the migration before wrote for the column of words. -/
def convert : Value F → Value F
  | .str word =>
    if word = "NONE" then
      .obj [("required", .bool false), ("binding_methods", .arr []),
        ("nonce_required", .bool false)]
    else
      .obj [("required", .bool true), ("binding_methods", .arr [.str word]),
        ("nonce_required", .bool (word == "NONCE"))]
  | .obj entries => .obj entries
  | _ => .obj [("required", .bool false), ("binding_methods", .arr [.str "NONCE"]),
      ("nonce_required", .bool false)]

/-- What a text of the column is read as: the text, or what the driver decodes it to. -/
inductive ReadBack (text : String) : Value F → Prop
  | text : ReadBack text (.str text)
  | decoded {value : Value F} : loads floats text = some value → ReadBack text value

variable {floats}

/-! The loop over the methods. -/

/-- What the loop may have collected. -/
structure Methods (methods : List String) : Prop where
  nodup : methods.Nodup
  known : ∀ method ∈ methods, method ∈ bindingMethods

theorem Methods.snoc {methods : List String} (hm : Methods methods) {method : String}
    (hknown : method ∈ bindingMethods) (hnew : method ∉ methods) :
    Methods (methods ++ [method]) where
  nodup := by
    refine List.nodup_append.mpr ⟨hm.nodup, by simp, fun a ha b hb => ?_⟩
    obtain rfl := List.mem_singleton.mp hb
    rintro rfl
    exact hnew ha
  known := by
    intro m hmem
    rcases List.mem_append.mp hmem with hmem | hmem
    · exact hm.known m hmem
    · obtain rfl := List.mem_singleton.mp hmem
      exact hknown

theorem addMethod_methods {methods methods' : List String} {value : Value F}
    (h : addMethod methods value = some methods') (hm : Methods methods) : Methods methods' := by
  cases value with
  | arr _ => cases h
  | obj _ => cases h
  | str method =>
    simp only [addMethod, Option.some.injEq] at h
    subst h
    split_ifs with hadd
    · exact hm.snoc hadd.1 hadd.2
    · exact hm
  | null => exact Option.some.inj h ▸ hm
  | bool _ => exact Option.some.inj h ▸ hm
  | int _ => exact Option.some.inj h ▸ hm
  | float _ => exact Option.some.inj h ▸ hm

theorem foldlM_methods {values : List (Value F)} {methods methods' : List String}
    (h : values.foldlM addMethod methods = some methods') (hm : Methods methods) :
    Methods methods' := by
  induction values generalizing methods with
  | nil => exact Option.some.inj h ▸ hm
  | cons value values ih =>
    rw [List.foldlM_cons] at h
    obtain ⟨next, hnext, hrest⟩ := Option.bind_eq_some_iff.mp h
    exact ih hrest (addMethod_methods hnext hm)

theorem foldlM_strs (words methods : List String) :
    ∃ methods', (words.map (.str : String → Value F)).foldlM addMethod methods = some methods' := by
  induction words generalizing methods with
  | nil => exact ⟨methods, rfl⟩
  | cons word words ih => exact ih _

/-- Words that are renamed to distinct known methods are collected as these. -/
theorem foldlM_rename {f : String → String} (hf : ∀ m ∈ bindingMethods, rename (f m) = m)
    {collected methods : List String} (h : Methods (collected ++ methods)) :
    (methods.map fun m => (.str (f m) : Value F)).foldlM addMethod collected =
      some (collected ++ methods) := by
  induction methods generalizing collected with
  | nil => simp
  | cons method methods ih =>
    have hknown : method ∈ bindingMethods := h.known method (by simp)
    have hnew : method ∉ collected := by
      intro hmem
      exact (List.nodup_append.mp h.nodup).2.2 _ hmem _ List.mem_cons_self rfl
    have hstep :
        addMethod collected (.str (f method) : Value F) = some (collected ++ [method]) := by
      simp [addMethod, hf method hknown, hknown, hnew]
    rw [List.append_cons] at h
    rw [List.map_cons, List.foldlM_cons, hstep, List.append_cons collected method methods]
    exact ih h

theorem rename_known : ∀ m ∈ bindingMethods, rename m = m := by
  decide

/-! The canonical form. -/

inductive Canonical (floats : FloatText F) : Value F → Prop
  | notRequired : Canonical floats (.obj notRequired)
  | required {methods : List String} {proofProfiles proofFreshness : Value F} :
      methods ≠ [] → Methods methods → proofProfiles.truthy floats = true →
      proofFreshness.truthy floats = true →
      Canonical floats (requiredBinding methods proofProfiles proofFreshness)

theorem getOr_truthy {data : Entries F} {key : String} {default : Value F}
    (h : default.truthy floats = true) : (getOr floats data key default).truthy floats = true := by
  unfold getOr
  cases hvalue : (data.lookup key).filter (Value.truthy floats) with
  | none => exact h
  | some value => exact (Option.filter_eq_some_iff.mp hvalue).2

theorem canonical_canonical {value result : Value F} (h : canonical floats value = some result) :
    Canonical floats result := by
  simp only [canonical] at h
  split_ifs at h
  · simp only [Option.bind_eq_bind, Option.bind_eq_some_iff] at h
    obtain ⟨values, -, methods, hmethods, h⟩ := h
    obtain rfl := Option.some.inj h
    have hm := foldlM_methods hmethods ⟨List.nodup_nil, fun _ h => nomatch h⟩
    refine .required ?_ ?_ (getOr_truthy rfl) (getOr_truthy rfl)
    · split_ifs with hempty
      · simp
      · exact hempty
    · split_ifs
      · exact ⟨by simp, by decide⟩
      · exact hm
  · obtain rfl := Option.some.inj h
    exact .notRequired

section required

variable {methods : List String} {proofProfiles proofFreshness : Value F}

/-- The result for a dictionary that requires a binding and whose methods have been collected. -/
theorem canonical_of_collected {value : Value F} {data : Entries F} {values : List (Value F)}
    (hdata : asDict floats value = data) (hrequired : isRequired floats data = true)
    (hvalues : methodsOf data = some values)
    (hcollected : values.foldlM addMethod [] = some methods) (hne : methods ≠ []) :
    canonical floats value = some (requiredBinding methods
      (getOr floats data "proof_profiles" defaultProfiles)
      (getOr floats data "proof_freshness" defaultFreshness)) := by
  simp only [canonical, hdata, if_pos hrequired, hvalues, Option.bind_eq_bind, Option.bind_some,
    hcollected, if_neg hne]

theorem getOr_eq {data : Entries F} {key : String} {default value : Value F}
    (hlookup : data.lookup key = some value) (h : value.truthy floats = true) :
    getOr floats data key default = value := by
  rw [getOr, hlookup, Option.filter_some, if_pos h]
  rfl

end required

/-- A canonical value is left alone. -/
theorem canonical_of_canonical {value : Value F} (h : Canonical floats value) :
    canonical floats value = some value := by
  cases h with
  | notRequired => rfl
  | required hne hm hprofiles hfreshness =>
    have hcollected := foldlM_rename (F := F) (f := id) rename_known
      (show Methods ([] ++ _) from hm)
    refine (canonical_of_collected rfl rfl rfl hcollected hne).trans ?_
    rw [getOr_eq rfl hprofiles, getOr_eq rfl hfreshness, List.nil_append]

/-! The text of a column. -/

theorem Canonical.exists_obj {value : Value F} (h : Canonical floats value) :
    ∃ entries, value = .obj entries := by
  cases h with
  | notRequired => exact ⟨_, rfl⟩
  | required _ _ _ _ => exact ⟨_, rfl⟩

theorem asDict_readBack {entries : Entries F} {value : Value F}
    (hwell : (Value.obj entries).WellFormed)
    (h : ReadBack floats (dumps floats (.obj entries)) value) : asDict floats value = entries := by
  cases h with
  | text => simp only [asDict, loads_dumps hwell]
  | decoded h =>
    rw [loads_dumps hwell] at h
    obtain rfl := Option.some.inj h
    rfl

theorem canonical_congr {value value' : Value F} (h : asDict floats value = asDict floats value') :
    canonical floats value = canonical floats value' := by
  simp only [canonical, h]

theorem asDict_wellFormed {value : Value F} (h : value.WellFormed) :
    ∀ entry ∈ asDict floats value, entry.2.WellFormed := by
  cases value with
  | obj entries => exact Value.wellFormedEntries_iff.mp h.2
  | str s =>
    simp only [asDict]
    split
    · rename_i parsed hparsed
      exact Value.wellFormedEntries_iff.mp (loads_wellFormed hparsed).2
    · simp [notRequired, Value.WellFormed]
    · simp [Value.WellFormed, Value.WellFormeds]
  | _ => simp [asDict, notRequired, Value.WellFormed]

theorem getOr_wellFormed {data : Entries F} {key : String} {default : Value F}
    (hdata : ∀ entry ∈ data, entry.2.WellFormed) (hdefault : default.WellFormed) :
    (getOr floats data key default).WellFormed := by
  unfold getOr
  cases hvalue : (data.lookup key).filter (Value.truthy floats) with
  | none => exact hdefault
  | some value =>
    exact hdata (key, value) (Dict.mem_of_lookup (Option.filter_eq_some_iff.mp hvalue).1)

theorem wellFormeds_strs (f : String → String) (words : List String) :
    Value.WellFormeds (words.map fun word => (.str (f word) : Value F)) := by
  refine Value.wellFormeds_iff.mpr fun value hvalue => ?_
  obtain ⟨word, -, rfl⟩ := List.mem_map.mp hvalue
  exact trivial

theorem canonical_wellFormed {value result : Value F} (hwell : value.WellFormed)
    (h : canonical floats value = some result) : result.WellFormed := by
  have hdata : ∀ entry ∈ asDict floats value, entry.2.WellFormed := asDict_wellFormed hwell
  simp only [canonical] at h
  split_ifs at h
  · simp only [Option.bind_eq_bind, Option.bind_eq_some_iff] at h
    obtain ⟨values, -, methods, -, h⟩ := h
    obtain rfl := Option.some.inj h
    refine ⟨by simp, trivial, wellFormeds_strs id _, ?_, ?_, trivial⟩
    · exact getOr_wellFormed hdata ⟨trivial, trivial⟩
    · exact getOr_wellFormed hdata ⟨by simp, trivial, trivial, trivial, trivial⟩
  · obtain rfl := Option.some.inj h
    exact ⟨by simp [notRequired], trivial, trivial⟩

/-! Migrating again, and back. -/

/-- The methods are absent or a list of words. -/
def MethodsListed (floats : FloatText F) (value : Value F) : Prop :=
  ∀ methods ∈ (asDict floats value).lookup "binding_methods",
    ∃ words : List String, methods = .arr (words.map .str)

theorem MethodsListed.methodsOf {value : Value F} (h : MethodsListed floats value) :
    ∃ words : List String, methodsOf (asDict floats value) = some (words.map .str) := by
  unfold HolderBinding.methodsOf
  cases hlookup : (asDict floats value).lookup "binding_methods" with
  | none => exact ⟨[], rfl⟩
  | some methods =>
    obtain ⟨words, rfl⟩ := h methods hlookup
    exact ⟨words, rfl⟩

theorem exists_canonical {value : Value F} (h : MethodsListed floats value) :
    ∃ result, canonical floats value = some result := by
  obtain ⟨words, hwords⟩ := h.methodsOf
  obtain ⟨methods, hmethods⟩ := foldlM_strs (F := F) words []
  simp only [canonical, hwords, Option.bind_eq_bind, Option.bind_some, hmethods]
  split_ifs <;> exact ⟨_, rfl⟩

/-- Read as a value or from its text, a canonical value is left alone. -/
theorem canonical_readBack {value value' : Value F} (hwell : value.WellFormed)
    (h : Canonical floats value) (hread : ReadBack floats (dumps floats value) value') :
    canonical floats value' = some value := by
  obtain ⟨entries, rfl⟩ := h.exists_obj
  rw [canonical_congr ((asDict_readBack hwell hread).trans rfl : _ = asDict floats (.obj entries))]
  exact canonical_of_canonical h

theorem rewrite_cons {Id : Type} {change : Value F → Option (Value F)} {id : Id} {value : Value F}
    {rows : List (Id × Value F)} {texts : List (Id × String)} :
    rewrite floats change ((id, value) :: rows) = some texts ↔
      ∃ result rest, change value = some result ∧ rewrite floats change rows = some rest ∧
        texts = (id, dumps floats result) :: rest := by
  simp only [rewrite, List.mapM_cons, Option.bind_eq_bind, Option.bind_eq_some_iff,
    Option.map_eq_some_iff, Option.pure_def, Option.some.injEq]
  constructor
  · rintro ⟨_, ⟨result, hresult, rfl⟩, rest, hrest, rfl⟩
    exact ⟨result, rest, hresult, hrest, rfl⟩
  · rintro ⟨result, rest, hresult, hrest, rfl⟩
    exact ⟨_, ⟨result, hresult, rfl⟩, rest, hrest, rfl⟩

/-- A table that has been upgraded is upgraded to what it holds. -/
theorem upgrade_again {Id : Type} {rows rows' : List (Id × Value F)} {texts : List (Id × String)}
    (hwell : ∀ row ∈ rows, row.2.WellFormed) (h : upgrade floats rows = some texts)
    (hread : List.Forall₂ (fun text row => row.1 = text.1 ∧ ReadBack floats text.2 row.2)
      texts rows') : upgrade floats rows' = some texts := by
  induction rows generalizing rows' texts with
  | nil =>
    obtain rfl : texts = [] := (Option.some.inj h).symm
    cases hread
    rfl
  | cons row rows ih =>
    obtain ⟨id, value⟩ := row
    obtain ⟨hvalue, hrows⟩ := List.forall_mem_cons.mp hwell
    obtain ⟨result, rest, hresult, hrest, rfl⟩ := rewrite_cons.mp h
    cases hread with
    | @cons _ row' _ _ hrow hread =>
      obtain ⟨id', value'⟩ := row'
      obtain ⟨rfl, hvalue'⟩ := hrow
      refine rewrite_cons.mpr ⟨result, rest, ?_, ih hrows hrest hread, rfl⟩
      exact canonical_readBack (canonical_wellFormed hvalue hresult) (canonical_canonical hresult)
        hvalue'

/-- The two agree on what the binding is. -/
def SameBinding (value value' : Value F) : Prop :=
  value'.get? "required" = value.get? "required" ∧
    value'.get? "binding_methods" = value.get? "binding_methods"

theorem rename_restored :
    ∀ m ∈ bindingMethods, rename (if m = "SESSION_BINDING" then "NONCE" else m) = m := by
  decide

theorem map_restore (words : List String) :
    (words.map (.str : String → Value F)).map restore =
      words.map fun m => .str (if m = "SESSION_BINDING" then "NONCE" else m) := by
  rw [List.map_map]
  rfl

/-- What the downgrade writes for a canonical value is migrated to the same binding. -/
theorem legacy_canonical {value : Value F} (h : Canonical floats value) :
    ∃ old, legacy floats value = some (.obj old) ∧ (Value.obj old).WellFormed ∧
      ∃ result, canonical floats (.obj old) = some result ∧ SameBinding value result := by
  cases h with
  | notRequired =>
    refine ⟨_, rfl, ⟨by simp, trivial, trivial, trivial, trivial⟩, _, rfl, rfl, rfl⟩
  | @required methods proofProfiles proofFreshness hne hm hprofiles hfreshness =>
    have hcollected := foldlM_rename (F := F) rename_restored (show Methods ([] ++ _) from hm)
    rw [← map_restore, List.nil_append] at hcollected
    refine ⟨_, rfl, ⟨by simp, trivial, ?_, trivial, trivial⟩, _,
      canonical_of_collected rfl rfl rfl hcollected hne, rfl, rfl⟩
    rw [map_restore]
    exact wellFormeds_strs _ _

/-- Migration is stable: a value that has been migrated is left alone, read back from its text
too, and the way back and forth keeps its binding. -/
theorem migration_stable (floats : FloatText F) :
    (∀ value : Value F, value.WellFormed → MethodsListed floats value →
      ∃ result, canonical floats value = some result ∧ canonical floats result = some result ∧
        ∀ value', ReadBack floats (dumps floats result) value' →
          canonical floats value' = some result) ∧
    ∀ value stored result : Value F, value.WellFormed → canonical floats value = some result →
      (stored = result ∨ ReadBack floats (dumps floats result) stored) →
      ∃ old, legacy floats stored = some old ∧
        ∀ stored', (stored' = old ∨ ReadBack floats (dumps floats old) stored') →
          ∃ result', canonical floats stored' = some result' ∧ SameBinding result result' := by
  refine ⟨fun value hwell hlisted => ?_, fun value stored result hwell h hstored => ?_⟩
  · obtain ⟨result, h⟩ := exists_canonical hlisted
    have hcanonical := canonical_canonical h
    exact ⟨result, h, canonical_of_canonical hcanonical, fun value' hread =>
      canonical_readBack (canonical_wellFormed hwell h) hcanonical hread⟩
  · have hcanonical := canonical_canonical h
    obtain ⟨old, hold, hwellOld, result', hresult', hsame⟩ := legacy_canonical hcanonical
    have hlegacy : legacy floats stored = some (.obj old) := by
      rcases hstored with rfl | hread
      · exact hold
      · obtain ⟨entries, rfl⟩ := hcanonical.exists_obj
        have hdata := asDict_readBack (canonical_wellFormed hwell h) hread
        simp only [legacy, hdata]
        exact hold
    refine ⟨_, hlegacy, fun stored' hstored' => ⟨result', ?_, hsame⟩⟩
    rcases hstored' with rfl | hread
    · exact hresult'
    · rw [← hresult']
      exact canonical_congr (asDict_readBack hwellOld hread)

def nonceBinding : Value Written :=
  .obj [("required", .int 1), ("binding_methods", .arr [.str "NONCE", .str "BIOMETRIC"])]

theorem nonceBinding_stable : ∃ result, canonical written nonceBinding = some result ∧
    canonical written result = some result ∧
    ∀ value', ReadBack written (dumps written result) value' →
      canonical written value' = some result := by
  refine (migration_stable written).1 nonceBinding ⟨by decide, trivial, ⟨trivial, trivial, trivial⟩,
    trivial⟩ ?_
  rintro methods ⟨⟩
  exact ⟨["NONCE", "BIOMETRIC"], rfl⟩

/-! Which bindings are lost. -/

/-- A dictionary that requires a binding and lists its methods. -/
def Requiring (floats : FloatText F) (data : Entries F) : Prop :=
  isRequired floats data = true ∧
    ∃ words : List String, data.lookup "binding_methods" = some (.arr (words.map .str))

/-- The stored values that ask for a binding: a dictionary, its text, or any other text but the
word for none. -/
inductive Binding (floats : FloatText F) : Value F → Prop
  | dict {data : Entries F} : Requiring floats data → Binding floats (.obj data)
  | text {s : String} {data : Entries F} :
      loads floats s = some (.obj data) → Requiring floats data → Binding floats (.str s)
  | word {s : String} : s ≠ "NONE" → loads floats s ≠ some (.str "NONE") →
      (∀ data, loads floats s ≠ some (.obj data)) → Binding floats (.str s)

/-- A binding is required, by one of the known methods. -/
def Requires (result : Option (Value F)) : Prop :=
  ∃ value methods, result = some value ∧ value.get? "required" = some (.bool true) ∧
    value.get? "binding_methods" = some (.arr (methods.map .str)) ∧ methods ≠ [] ∧
    methods.Nodup ∧ ∀ method ∈ methods, method ∈ bindingMethods

/-- A text that decodes, but not to a dictionary. -/
def Misread (floats : FloatText F) (value : Value F) : Prop :=
  ∃ s parsed, value = .str s ∧ loads floats s = some parsed ∧ ∀ data, parsed ≠ .obj data

theorem canonical_required {value result : Value F} (h : canonical floats value = some result) :
    result.get? "required" = some (.bool (isRequired floats (asDict floats value))) := by
  simp only [canonical] at h
  split_ifs at h with hrequired
  · simp only [Option.bind_eq_bind, Option.bind_eq_some_iff] at h
    obtain ⟨values, -, methods, -, h⟩ := h
    obtain rfl := Option.some.inj h
    rw [hrequired]
    rfl
  · obtain rfl := Option.some.inj h
    rw [Bool.eq_false_iff.mpr hrequired]
    rfl

theorem Canonical.requires {value : Value F} (h : Canonical floats value)
    (hrequired : value.get? "required" = some (.bool true)) : Requires (some value) := by
  cases h with
  | notRequired => cases hrequired
  | required hne hm _ _ => exact ⟨_, _, rfl, rfl, rfl, hne, hm.nodup, hm.known⟩

theorem requires_iff {value : Value F} (hlisted : MethodsListed floats value) :
    Requires (canonical floats value) ↔ isRequired floats (asDict floats value) = true := by
  obtain ⟨result, h⟩ := exists_canonical hlisted
  have hrequired := canonical_required h
  rw [h]
  constructor
  · rintro ⟨_, _, ⟨⟩, htrue, -⟩
    rw [hrequired] at htrue
    exact Value.bool.inj (Option.some.inj htrue)
  · intro htrue
    rw [htrue] at hrequired
    exact (canonical_canonical h).requires hrequired

theorem Requiring.listed {value : Value F} (h : Requiring floats (asDict floats value)) :
    MethodsListed floats value := by
  obtain ⟨-, words, hwords⟩ := h
  intro methods hmethods
  exact ⟨words, Option.some.inj (hmethods.symm.trans hwords)⟩

theorem Requiring.requires {value : Value F} (h : Requiring floats (asDict floats value)) :
    Requires (canonical floats value) :=
  (requires_iff h.listed).mpr h.1

theorem asDict_word {s : String} (hs : s ≠ "NONE") (hloads : loads floats s = none) :
    Requiring floats (asDict floats (.str s)) := by
  simp only [asDict, hloads]
  exact ⟨by simp [isRequired, Value.truthy, hs], [s], rfl⟩

theorem Misread.canonical_eq {value : Value F} (h : Misread floats value) :
    canonical floats value = some (.obj notRequired) := by
  obtain ⟨s, parsed, rfl, hloads, hparsed⟩ := h
  have hdata : asDict floats (.str s) = notRequired := by
    cases parsed with
    | obj data => exact absurd rfl (hparsed data)
    | _ => simp only [asDict, hloads]
  exact (canonical_congr (hdata.trans rfl : _ = asDict floats (.obj notRequired))).trans rfl

/-- A binding that is asked for is kept, unless it is a text that decodes to something else than a
dictionary. -/
theorem requires_iff_not_misread {value : Value F} (h : Binding floats value) :
    Requires (canonical floats value) ↔ ¬ Misread floats value := by
  constructor
  · rintro ⟨result, _, hresult, hrequired, -⟩ hmisread
    rw [hmisread.canonical_eq] at hresult
    cases hresult
    cases hrequired
  · intro hmisread
    cases h with
    | dict hdata => exact Requiring.requires hdata
    | @text s data hloads hdata =>
      refine Requiring.requires ?_
      simp only [asDict, hloads]
      exact hdata
    | @word s hs _ hdict =>
      refine Requiring.requires (asDict_word hs ?_)
      by_contra hsome
      obtain ⟨parsed, hparsed⟩ := Option.ne_none_iff_exists'.mp hsome
      exact hmisread ⟨s, parsed, rfl, hparsed, fun data heq => hdict data (heq ▸ hparsed)⟩

theorem convert_str (floats : FloatText F) (s : String) : ∃ data,
    (convert (.str s) : Value F) = .obj data ∧ (Value.obj data).WellFormed ∧
      (isRequired floats data = true ↔ s ≠ "NONE") ∧
      ∃ words : List String, data.lookup "binding_methods" = some (.arr (words.map .str)) := by
  by_cases hs : s = "NONE"
  · exact ⟨_, if_pos hs, ⟨by simp, trivial, trivial, trivial, trivial⟩,
      by simp [isRequired, Value.truthy, hs], [], rfl⟩
  · exact ⟨_, if_neg hs, ⟨by simp, trivial, ⟨trivial, trivial⟩, trivial, trivial⟩,
      by simp [isRequired, Value.truthy, hs], [s], rfl⟩

/-- Through the migration before it, a word asks for a binding unless it is the word for none. -/
theorem convert_required (s : String) {stored : Value F}
    (h : stored = convert (.str s) ∨ ReadBack floats (dumps floats (convert (.str s))) stored) :
    ∃ result, canonical floats stored = some result ∧
      (result.get? "required" = some (.bool true) ↔ s ≠ "NONE") := by
  obtain ⟨data, hconvert, hwell, hrequired, words, hwords⟩ := convert_str floats s
  rw [hconvert] at h
  have hdata : asDict floats stored = data := by
    rcases h with rfl | hread
    · rfl
    · exact asDict_readBack hwell hread
  have hlisted : MethodsListed floats stored := fun methods hmethods => by
    rw [hdata] at hmethods
    exact ⟨words, Option.some.inj (hmethods.symm.trans hwords)⟩
  obtain ⟨result, hresult⟩ := exists_canonical hlisted
  refine ⟨result, hresult, ?_⟩
  rw [canonical_required hresult, hdata, ← hrequired]
  constructor
  · intro htrue
    exact Value.bool.inj (Option.some.inj htrue)
  · intro htrue
    rw [htrue]

/-- Of the bindings that are asked for, exactly the texts of other JSON values are lost; the words
that the migration before it converted are all kept. -/
theorem binding_kept_iff (floats : FloatText F) :
    (∀ value : Value F, Binding floats value →
      (Requires (canonical floats value) ↔ ¬ Misread floats value)) ∧
    ∀ (s : String) (stored : Value F),
      (stored = convert (.str s) ∨ ReadBack floats (dumps floats (convert (.str s))) stored) →
      ∃ result, canonical floats stored = some result ∧
        (result.get? "required" = some (.bool true) ↔ s ≠ "NONE") :=
  ⟨fun _ h => requires_iff_not_misread h, fun s _ h => convert_required s h⟩

/-- A legacy word of the column, as JSON text. -/
def deviceKeyText : Value Written := .str (dumps written (.str "DEVICE_KEY"))

theorem deviceKeyText_loads :
    loads written (dumps written (.str "DEVICE_KEY")) = some (.str "DEVICE_KEY") :=
  loads_dumps trivial

/-- A word as JSON text is a binding that is lost. -/
theorem deviceKey_lost : Binding written deviceKeyText ∧
    canonical written deviceKeyText = some (.obj notRequired) ∧
    ¬ Requires (canonical written deviceKeyText) := by
  have hcanonical : canonical written deviceKeyText = some (.obj notRequired) := by
    simp only [canonical, deviceKeyText, asDict, deviceKeyText_loads]
    rfl
  refine ⟨.word (by decide +kernel) ?_ fun data => ?_, hcanonical, ?_⟩
  · simp [deviceKeyText_loads]
  · simp [deviceKeyText_loads]
  · rw [hcanonical]
    rintro ⟨_, _, ⟨⟩, ⟨⟩, -⟩

theorem nonceBinding_kept : Requires (canonical written nonceBinding) := by
  refine ((binding_kept_iff written).1 nonceBinding (.dict ⟨by decide, ?_⟩)).mpr ?_
  · exact ⟨["NONCE", "BIOMETRIC"], rfl⟩
  · rintro ⟨_, _, ⟨⟩, -⟩

end Marty.Migrations.HolderBinding
