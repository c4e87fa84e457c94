import Marty.Lib.Memory
import Marty.Lib.Text

/-! `ConfigurationManager`: dictionaries merged as objects, of which only the new ones are written,
and the configuration of a service from its files and its overrides.  The depth of a recursion is
its fuel; what the fields of a `ServiceConfig` take from the environment is left out. -/

universe u v

namespace Marty.Config.Manager

open Lib Lib.Memory

variable {K : Type u} {V : Type v} [DecidableEq K]

/-- One turn of the loop of `_merge_configs`, over the merge of nested dictionaries. -/
def mergeEntry (merge : Heap K V → Nat → Nat → Option (Heap K V × Nat)) (result : Nat)
    (heap : Heap K V) (entry : K × Value V) : Option (Heap K V) := do
  let cell ← heap[result]?
  match cell.lookup entry.1, entry.2 with
  | some (.dict old), .dict new => do
    let (heap, merged) ← merge heap old new
    let cell ← heap[result]?
    return heap.set result (Dict.set entry.1 (.dict merged) cell)
  | _, value => return heap.set result (Dict.set entry.1 value cell)

/-- `_merge_configs`: the heap afterwards, and the address of the result. -/
def mergeConfigs : Nat → Heap K V → Nat → Nat → Option (Heap K V × Nat)
  | 0, _, _, _ => none
  | fuel + 1, heap, base, override => do
    let baseCell ← heap[base]?
    let overrideCell ← heap[override]?
    let result := heap.length
    let heap ← overrideCell.foldlM (mergeEntry (mergeConfigs fuel) result) (heap ++ [baseCell])
    return (heap, result)

/-- A merge that gives the merged tree, in dictionaries of its own and of its arguments, and writes
to none that was there. -/
def Merges (merge : Heap K V → Nat → Nat → Option (Heap K V × Nat)) (o : Nested K V) : Prop :=
  ∀ ⦃P : Nat → Prop⦄ ⦃heap : Heap K V⦄ ⦃base override : Nat⦄ ⦃d : Nested K V⦄,
    Represents P heap (.dict base) (.node d) → Represents P heap (.dict override) (.node o) →
    ∃ heap' result, merge heap base override = some (heap', result) ∧ Extends heap heap' ∧
      heap.length ≤ result ∧
      Represents (fun a => P a ∨ heap.length ≤ a) heap' (.dict result) (.node (KeyTree.merge d o))

/-- Addresses of the arguments, and those after that of the result. -/
def Beside (P : Nat → Prop) (result : Nat) (a : Nat) : Prop := P a ∧ a < result ∨ result < a

/-- The result so far, which nothing below it refers to. -/
def Building (P : Nat → Prop) (heap₀ heap : Heap K V) (d : Nested K V) : Prop :=
  Extends heap₀ heap ∧ ∃ cell, heap[heap₀.length]? = some cell ∧
    Holds (Beside P heap₀.length) heap cell d

section

variable {P : Nat → Prop} {heap₀ heap : Heap K V} {d : Nested K V}

theorem Represents.beside {value : Value V} {t : KeyTree K V} (h : Represents P heap₀ value t)
    (hextends : Extends heap₀ heap) : Represents (Beside P heap₀.length) heap value t :=
  h.frame fun a hin ha => ⟨.inl ⟨hin, ha⟩, hextends a ha⟩

/-- Writing an entry of the result. -/
theorem Building.set (h : Building P heap₀ heap d) {cell : List (K × Value V)}
    (hcell : heap[heap₀.length]? = some cell) (key : K) {value : Value V} {t : KeyTree K V}
    (hvalue : Represents (Beside P heap₀.length) heap value t) :
    Building P heap₀ (heap.set heap₀.length (Dict.set key value cell)) (Dict.set key t d) := by
  obtain ⟨hextends, cell', hcell', hholds⟩ := h
  obtain rfl := Option.some.inj (hcell.symm.trans hcell')
  obtain ⟨hlength, -⟩ := List.getElem?_eq_some_iff.mp hcell
  refine ⟨hextends.set _ (Nat.le_refl _) _, _, List.getElem?_set_self hlength, ?_⟩
  refine (hholds.set key hvalue).frame fun a hin _ => ⟨hin, ?_⟩
  have hne : heap₀.length ≠ a := by
    rcases hin with ⟨-, hlt⟩ | hlt
    · exact Nat.ne_of_gt hlt
    · exact Nat.ne_of_lt hlt
  exact List.getElem?_set_ne hne

variable {merge : Heap K V → Nat → Nat → Option (Heap K V × Nat)} {result : Nat}

theorem mergeEntry_replace {cell : List (K × Value V)} (hcell : heap[result]? = some cell)
    {key : K} {value : Value V}
    (h : ∀ old new, cell.lookup key = some (.dict old) → value ≠ .dict new) :
    mergeEntry merge result heap (key, value) =
      some (heap.set result (Dict.set key value cell)) := by
  rw [mergeEntry, hcell]
  change (match cell.lookup key, value with
    | some (.dict old), .dict new => _
    | _, value => _) = _
  split
  · rename_i old new hold
    exact absurd rfl (h old new hold)
  · rfl

theorem mergeEntry_merge {cell cell' : List (K × Value V)} {heap' : Heap K V}
    (hcell : heap[result]? = some cell) {key : K} {old new merged : Nat}
    (hold : cell.lookup key = some (.dict old)) (hmerge : merge heap old new = some (heap', merged))
    (hcell' : heap'[result]? = some cell') :
    mergeEntry merge result heap (key, .dict new) =
      some (heap'.set result (Dict.set key (.dict merged) cell')) := by
  rw [mergeEntry, hcell]
  simp only [Option.bind_eq_bind, Option.bind_some, hold, hmerge, hcell']
  rfl

/-- One entry of the override. -/
theorem mergeEntry_building (key : K) {value : Value V} {t : KeyTree K V}
    (hmerge : ∀ o, t = .node o → Merges merge o) (hentry : Represents P heap₀ value t)
    (h : Building P heap₀ heap d) :
    ∃ heap', mergeEntry merge heap₀.length heap (key, value) = some heap' ∧
      Building P heap₀ heap' (Dict.set key (KeyTree.mergeValue (d.lookup key) t) d) := by
  obtain ⟨hextends, cell, hcell, hholds⟩ := h
  have hvalue := Represents.beside hentry hextends
  have hbuilding : Building P heap₀ heap d := ⟨hextends, cell, hcell, hholds⟩
  by_cases hboth : ∃ old new, cell.lookup key = some (.dict old) ∧ value = .dict new
  · -- both are dictionaries
    obtain ⟨old, new, hold, rfl⟩ := hboth
    obtain ⟨t', hlookup, hold'⟩ := hholds.exists_lookup hold
    cases hold' with
    | @dict _ _ base hin hread hkeys hdistinct hvalues =>
      cases hvalue with
      | @dict _ _ o hin' hread' hkeys' hdistinct' hvalues' =>
        obtain ⟨heap', merged, hrun, hextends', hle, hmerged⟩ := hmerge o rfl
          (.dict hin hread hkeys hdistinct hvalues) (.dict hin' hread' hkeys' hdistinct' hvalues')
        obtain ⟨hlength, -⟩ := List.getElem?_eq_some_iff.mp hcell
        have hcell' : heap'[heap₀.length]? = some cell := (hextends' _ hlength).trans hcell
        have hbuilding' : Building P heap₀ heap' d := by
          refine ⟨hextends.trans hextends', cell, hcell', hholds.frame fun a hin ha => ?_⟩
          exact ⟨hin, hextends' a ha⟩
        refine ⟨_, mergeEntry_merge hcell hold hrun hcell', ?_⟩
        rw [hlookup, KeyTree.mergeValue_node]
        refine hbuilding'.set hcell' key (hmerged.frame fun a hin _ => ⟨?_, rfl⟩)
        rcases hin with hin | hnew
        · exact hin
        · exact .inr (Nat.lt_of_lt_of_le hlength hnew)
  · have hreplace : KeyTree.mergeValue (d.lookup key) t = t := by
      cases hvalue with
      | other v => exact KeyTree.mergeValue_of_leaf _ v
      | @dict new _ o hin hread hkeys hdistinct hvalues =>
        cases hlookup : cell.lookup key with
        | none => rw [hholds.lookup_eq_none hlookup, KeyTree.mergeValue_none]
        | some old =>
          obtain ⟨t', ht', hrep⟩ := hholds.exists_lookup hlookup
          cases hrep with
          | other v => rw [ht', KeyTree.mergeValue_leaf]
          | @dict old => exact absurd ⟨old, new, hlookup, rfl⟩ hboth
    refine ⟨_, mergeEntry_replace hcell fun old new hold hnew => hboth ⟨old, new, hold, hnew⟩, ?_⟩
    rw [hreplace]
    exact hbuilding.set hcell key hvalue

/-- The entries of the override, one after the other. -/
theorem foldlM_mergeEntry {entries : List (K × Value V)} {o : Nested K V}
    (hentries : List.Forall₂ (fun e e' => e.1 = e'.1 ∧ Represents P heap₀ e.2 e'.2) entries o)
    (hmerge : ∀ e ∈ o, ∀ o', e.2 = .node o' → Merges merge o') (h : Building P heap₀ heap d) :
    ∃ heap', entries.foldlM (mergeEntry merge heap₀.length) heap = some heap' ∧
      Building P heap₀ heap' (KeyTree.merge d o) := by
  induction hentries generalizing heap d with
  | nil => exact ⟨heap, rfl, by rwa [KeyTree.merge]⟩
  | @cons e e' entries o hentry _ ih =>
    obtain ⟨key, value⟩ := e
    obtain ⟨key', t⟩ := e'
    obtain ⟨rfl, hrep⟩ := hentry
    obtain ⟨heap', hrun, hbuilding⟩ :=
      mergeEntry_building key (hmerge _ List.mem_cons_self) hrep h
    obtain ⟨heap'', hrest, hbuilding'⟩ :=
      ih (fun e he => hmerge e (List.mem_cons_of_mem _ he)) hbuilding
    refine ⟨heap'', ?_, ?_⟩
    · rw [List.foldlM_cons, hrun]
      exact hrest
    · rw [KeyTree.merge]
      exact hbuilding'

end

/-- With enough fuel for the override. -/
theorem mergeConfigs_merges {fuel : Nat} {o : Nested K V} (h : KeyTree.Within fuel (.node o)) :
    Merges (mergeConfigs fuel) o := by
  induction fuel generalizing o with
  | zero => exact h.elim
  | succ fuel ih =>
    intro P heap base override d hbase hoverride
    obtain ⟨hbaseIn, baseCell, hbaseCell, hbaseHolds⟩ := represents_dict_iff.mp hbase
    obtain ⟨-, overrideCell, hoverrideCell, hoverrideHolds⟩ := represents_dict_iff.mp hoverride
    have hcopy : Building P heap (heap ++ [baseCell]) d := by
      refine ⟨.append heap baseCell, baseCell, List.getElem?_concat_length, ?_⟩
      exact hbaseHolds.frame fun a hin ha => ⟨.inl ⟨hin, ha⟩, Extends.append heap baseCell a ha⟩
    have hmerge : ∀ e ∈ o, ∀ o', e.2 = .node o' → Merges (mergeConfigs fuel) o' := by
      intro e he o' ho'
      have hwithin := h e he
      rw [ho'] at hwithin
      exact ih hwithin
    obtain ⟨heap', hrun, hextends, cell, hcell, hholds⟩ :=
      foldlM_mergeEntry hoverrideHolds.forall₂ hmerge hcopy
    refine ⟨heap', heap.length, ?_, hextends, Nat.le_refl _, ?_⟩
    · rw [mergeConfigs, hbaseCell, hoverrideCell]
      simp only [Option.bind_eq_bind, Option.bind_some, hrun]
      rfl
    · refine represents_dict_iff.mpr ⟨.inr (Nat.le_refl _), cell, hcell, ?_⟩
      refine hholds.frame fun a hin _ => ⟨?_, rfl⟩
      rcases hin with ⟨hin, -⟩ | hlt
      · exact .inl hin
      · exact .inr (Nat.le_of_lt hlt)

theorem extends_mergeEntry {merge : Heap K V → Nat → Nat → Option (Heap K V × Nat)}
    (hmerge : ∀ {heap : Heap K V} {old new : Nat} {heap' : Heap K V} {merged : Nat},
      merge heap old new = some (heap', merged) → Extends heap heap')
    {heap₀ heap heap' : Heap K V} {e : K × Value V} (h : Extends heap₀ heap)
    (hrun : mergeEntry merge heap₀.length heap e = some heap') : Extends heap₀ heap' := by
  obtain ⟨cell, -, hrun⟩ := Option.bind_eq_some_iff.mp hrun
  dsimp only at hrun
  split at hrun
  · obtain ⟨⟨heap₁, merged⟩, hmerged, hrun⟩ := Option.bind_eq_some_iff.mp hrun
    obtain ⟨cell', -, hrun⟩ := Option.bind_eq_some_iff.mp hrun
    cases hrun
    exact (h.trans (hmerge hmerged)).set _ (Nat.le_refl _) _
  · cases hrun
    exact h.set _ (Nat.le_refl _) _

/-- Whatever is merged, no dictionary that was there is written. -/
theorem extends_mergeConfigs {fuel : Nat} {heap heap' : Heap K V} {base override result : Nat}
    (h : mergeConfigs fuel heap base override = some (heap', result)) : Extends heap heap' := by
  induction fuel generalizing heap heap' base override result with
  | zero => cases h
  | succ fuel ih =>
    obtain ⟨baseCell, -, h⟩ := Option.bind_eq_some_iff.mp h
    obtain ⟨overrideCell, -, h⟩ := Option.bind_eq_some_iff.mp h
    obtain ⟨final, hfold, h⟩ := Option.bind_eq_some_iff.mp h
    cases h
    have hloop : ∀ (entries : List (K × Value V)) (heap₁ : Heap K V), Extends heap heap₁ →
        entries.foldlM (mergeEntry (mergeConfigs fuel) heap.length) heap₁ = some heap' →
        Extends heap heap' := by
      intro entries
      induction entries with
      | nil =>
        intro heap₁ hextends hrun
        cases hrun
        exact hextends
      | cons e entries ihEntries =>
        intro heap₁ hextends hrun
        obtain ⟨heap₂, hentry, hrest⟩ := Option.bind_eq_some_iff.mp hrun
        exact ihEntries heap₂ (extends_mergeEntry ih hextends hentry) hrest
    exact hloop overrideCell _ (.append heap baseCell) hfold

/-- What the nested dictionary `override` over `base` holds, path by path. -/
structure LaidOver (base override merged : Nested K V) : Prop where
  value : ∀ path v, (KeyTree.node override).follow path = some (.leaf v) →
    (KeyTree.node merged).follow path = some (.leaf v)
  both : ∀ path d o, (KeyTree.node base).follow path = some (.node d) →
    (KeyTree.node override).follow path = some (.node o) →
    (KeyTree.node merged).follow path = some (.node (KeyTree.merge d o))
  replaced : ∀ path o, (KeyTree.node override).follow path = some (.node o) →
    (∀ d, (KeyTree.node base).follow path ≠ some (.node d)) →
    (KeyTree.node merged).follow path = some (.node o)
  kept : ∀ path, (KeyTree.node override).follow path = none →
    (∀ before after u, path = before ++ after → after ≠ [] →
      (KeyTree.node override).follow before = some u →
      (∃ o, u = .node o) ∧ ∃ d, (KeyTree.node base).follow before = some (.node d)) →
    (KeyTree.node merged).follow path = (KeyTree.node base).follow path

theorem laidOver_merge {base override : Nested K V} (h : KeyTree.Distinct (.node override)) :
    LaidOver base override (KeyTree.merge base override) := by
  have hover : ∀ path u, (KeyTree.node override).follow path = some u →
      (KeyTree.node (KeyTree.merge base override)).follow path =
        some (KeyTree.mergeValue ((KeyTree.node base).follow path) u) := by
    intro path u hu
    rw [← KeyTree.mergeValue_node]
    exact KeyTree.follow_mergeValue h (some (.node base)) hu
  refine ⟨fun path v hv => ?_, fun path d o hd ho => ?_, fun path o ho hbase => ?_,
    fun path hnone hprefix => ?_⟩
  · rw [hover path _ hv, KeyTree.mergeValue_of_leaf]
  · rw [hover path _ ho, hd, KeyTree.mergeValue_node]
  · rw [hover path _ ho]
    match hold : (KeyTree.node base).follow path with
    | none => rw [KeyTree.mergeValue_none]
    | some (.leaf v) => rw [KeyTree.mergeValue_leaf]
    | some (.node d) => exact absurd hold (hbase d)
  · rw [← KeyTree.mergeValue_node]
    exact KeyTree.follow_mergeValue_of_untouched h (some (.node base)) ⟨hnone, hprefix⟩

/-- Any dictionaries. -/
abbrev Holding (heap : Heap K V) (address : Nat) (d : Nested K V) : Prop :=
  Represents (fun _ => True) heap (.dict address) (.node d)

theorem Holding.distinct {heap : Heap K V} {address : Nat} {d : Nested K V}
    (h : Holding heap address d) : KeyTree.Distinct (.node d) := Represents.distinct h

theorem exists_mergeConfigs {o : Nested K V} (ho : KeyTree.Distinct (.node o)) :
    ∃ enough, ∀ fuel ≥ enough, ∀ {heap : Heap K V} {base override : Nat} {d : Nested K V},
      Holding heap base d → Holding heap override o →
      ∃ heap' result, mergeConfigs fuel heap base override = some (heap', result) ∧
        Extends heap heap' ∧ heap.length ≤ result ∧ Holding heap' result (KeyTree.merge d o) := by
  obtain ⟨enough, hwithin⟩ := KeyTree.exists_within ho
  refine ⟨enough, fun fuel hfuel heap base override d hbase hoverride => ?_⟩
  obtain ⟨heap', result, hrun, hextends, hnew, hmerged⟩ :=
    mergeConfigs_merges (hwithin.mono hfuel) hbase hoverride
  exact ⟨heap', result, hrun, hextends, hnew, hmerged.frame fun a _ _ => ⟨trivial, rfl⟩⟩

/-- The files of the configuration directory, each a dictionary, empty or one that cannot be read,
and `yaml.safe_load`, which makes the dictionary of a file anew. -/
structure ConfigDir (K : Type u) (V : Type v) [DecidableEq K] where
  isFile : String → Bool
  safeLoad : String → Heap K V → Option (Heap K V × Option Nat)
  contents : String → Nested K V
  contents_of_not_isFile : ∀ filename, isFile filename = false → contents filename = []
  contents_of_raised : ∀ filename heap, safeLoad filename heap = none → contents filename = []
  contents_of_empty : ∀ filename heap heap', safeLoad filename heap = some (heap', none) →
    contents filename = []
  holding_contents : ∀ filename heap heap' address,
    safeLoad filename heap = some (heap', some address) →
      Holding heap' address (contents filename)
  extends_safeLoad : ∀ filename heap heap' found, safeLoad filename heap = some (heap', found) →
    Extends heap heap'

theorem ConfigDir.distinct_contents (dir : ConfigDir K V) (filename : String) :
    KeyTree.Distinct (.node (dir.contents filename)) := by
  have hempty : KeyTree.Distinct (.node ([] : Nested K V)) := .node List.nodup_nil (by simp)
  cases hload : dir.safeLoad filename [] with
  | none =>
    rw [dir.contents_of_raised filename [] hload]
    exact hempty
  | some loaded =>
    obtain ⟨heap, found⟩ := loaded
    cases found with
    | none =>
      rw [dir.contents_of_empty filename [] heap hload]
      exact hempty
    | some address => exact (dir.holding_contents filename [] heap address hload).distinct

structure ConfigurationManager (K : Type u) (V : Type v) where
  heap : Heap K V
  cache : List (String × Nat)

namespace ConfigurationManager

/-- A new empty dictionary. -/
def allocate (m : ConfigurationManager K V) : ConfigurationManager K V × Nat :=
  ({ m with heap := m.heap ++ [[]] }, m.heap.length)

def loadConfigFile (dir : ConfigDir K V) (m : ConfigurationManager K V) (filename : String) :
    ConfigurationManager K V × Nat :=
  match m.cache.lookup filename with
  | some address => (m, address)
  | none =>
    if dir.isFile filename then
      match dir.safeLoad filename m.heap with
      | none => m.allocate
      | some (heap, found) =>
        let (m, address) := match found with
          | some address => ({ m with heap }, address)
          | none => { m with heap }.allocate
        ({ m with cache := Dict.set filename address m.cache }, address)
    else m.allocate

/-- `config_overrides`, when there are any. -/
def applyOverrides (fuel : Nat) (m : ConfigurationManager K V) (merged : Nat) :
    Option Nat → Option (ConfigurationManager K V × Nat)
  | none => some (m, merged)
  | some overrides => do
    let cell ← m.heap[overrides]?
    if cell.isEmpty then return (m, merged)
    let (heap, merged) ← mergeConfigs fuel m.heap merged overrides
    return ({ m with heap }, merged)

/-- The environment asked for, else the variable `ENV` of the process. -/
def chosenEnvironment (environment processEnv : Option String) : String :=
  (Text.truthy environment).getD (processEnv.getD "development")

/-- The environment and the configuration that the `ServiceConfig` is made of. -/
def loadServiceConfig (fuel : Nat) (dir : ConfigDir K V) (m : ConfigurationManager K V)
    (serviceName : String) (environment processEnv : Option String) (configOverrides : Option Nat) :
    Option (ConfigurationManager K V × String × Nat) := do
  let env := chosenEnvironment environment processEnv
  let (m, baseConfig) := m.loadConfigFile dir (env ++ ".yaml")
  let (m, serviceConfig) :=
    if dir.isFile (serviceName ++ ".yaml") then m.loadConfigFile dir (serviceName ++ ".yaml")
    else m.allocate
  let (heap, mergedConfig) ← mergeConfigs fuel m.heap baseConfig serviceConfig
  let (m, mergedConfig) ← applyOverrides fuel { m with heap } mergedConfig configOverrides
  return (m, env, mergedConfig)

/-- What is cached is what the files hold. -/
def Coherent (dir : ConfigDir K V) (m : ConfigurationManager K V) : Prop :=
  ∀ filename address, m.cache.lookup filename = some address →
    Holding m.heap address (dir.contents filename)

theorem coherent_new (dir : ConfigDir K V) (heap : Heap K V) : Coherent dir ⟨heap, []⟩ := by
  intro filename address h
  cases h

section

variable {dir : ConfigDir K V} {m : ConfigurationManager K V}

theorem Coherent.extends (h : Coherent dir m) {heap : Heap K V} (hextends : Extends m.heap heap) :
    Coherent dir { m with heap } :=
  fun filename address hlookup => (h filename address hlookup).extends hextends

theorem Coherent.cached (h : Coherent dir m) {filename : String} {address : Nat}
    (haddress : Holding m.heap address (dir.contents filename)) :
    Coherent dir { m with cache := Dict.set filename address m.cache } := by
  intro filename' address' hlookup
  by_cases heq : filename' = filename
  · subst heq
    rw [Dict.lookup_set_self] at hlookup
    cases hlookup
    exact haddress
  · rw [Dict.lookup_set_of_ne heq] at hlookup
    exact h filename' address' hlookup

theorem holding_allocate (m : ConfigurationManager K V) :
    Holding m.allocate.1.heap m.allocate.2 [] :=
  represents_dict_iff.mpr ⟨trivial, [], List.getElem?_concat_length,
    ⟨rfl, List.nodup_nil, fun _ _ _ h => by cases h⟩⟩

/-- A manager that has gained the dictionary, and changed none. -/
def Gained (dir : ConfigDir K V) (m m' : ConfigurationManager K V) (address : Nat)
    (d : Nested K V) : Prop :=
  Extends m.heap m'.heap ∧ Coherent dir m' ∧ Holding m'.heap address d

theorem gained_allocate (h : Coherent dir m) : Gained dir m m.allocate.1 m.allocate.2 [] :=
  ⟨.append m.heap [], h.extends (.append m.heap []), holding_allocate m⟩

theorem gained_loadConfigFile (h : Coherent dir m) (filename : String) :
    Gained dir m (m.loadConfigFile dir filename).1 (m.loadConfigFile dir filename).2
      (dir.contents filename) := by
  rw [loadConfigFile]
  cases hcached : m.cache.lookup filename with
  | some address => exact ⟨.refl m.heap, h, h filename address hcached⟩
  | none =>
    by_cases hfile : dir.isFile filename = true
    · rw [if_pos hfile]
      cases hload : dir.safeLoad filename m.heap with
      | none =>
        rw [dir.contents_of_raised filename m.heap hload]
        exact gained_allocate h
      | some loaded =>
        obtain ⟨heap, found⟩ := loaded
        have hextends := dir.extends_safeLoad filename m.heap heap found hload
        cases found with
        | none =>
          rw [dir.contents_of_empty filename m.heap heap hload]
          obtain ⟨hextends', hcoherent, hholding⟩ := gained_allocate (h.extends hextends)
          refine ⟨hextends.trans hextends', hcoherent.cached ?_, hholding⟩
          rw [dir.contents_of_empty filename m.heap heap hload]
          exact hholding
        | some address =>
          have hholding := dir.holding_contents filename m.heap heap address hload
          exact ⟨hextends, (h.extends hextends).cached hholding, hholding⟩
    · rw [if_neg hfile, dir.contents_of_not_isFile filename (Bool.eq_false_of_not_eq_true hfile)]
      exact gained_allocate h

/-- The dictionary of the overrides, empty without any. -/
def Overrides (m : ConfigurationManager K V) : Option Nat → Nested K V → Prop
  | none, o => o = []
  | some address, o => Holding m.heap address o

theorem exists_applyOverrides (dir : ConfigDir K V) {o : Nested K V}
    (ho : KeyTree.Distinct (.node o)) :
    ∃ enough, ∀ fuel ≥ enough, ∀ {m : ConfigurationManager K V} {merged : Nat} {d : Nested K V}
      {overrides : Option Nat}, Coherent dir m → Holding m.heap merged d →
      Overrides m overrides o →
      ∃ m' result, applyOverrides fuel m merged overrides = some (m', result) ∧
        Gained dir m m' result (KeyTree.merge d o) := by
  obtain ⟨enough, hmerge⟩ := exists_mergeConfigs (V := V) ho
  refine ⟨enough, fun fuel hfuel m merged d overrides hm hmerged hoverrides => ?_⟩
  have hnone : o = [] → Gained dir m m merged (KeyTree.merge d o) := by
    rintro rfl
    rw [KeyTree.merge]
    exact ⟨.refl m.heap, hm, hmerged⟩
  cases overrides with
  | none => exact ⟨m, merged, rfl, hnone hoverrides⟩
  | some address =>
    obtain ⟨-, cell, hcell, hholds⟩ := represents_dict_iff.mp hoverrides
    rw [applyOverrides, hcell]
    cases cell with
    | nil =>
      have hempty : o = [] := List.map_eq_nil_iff.mp hholds.keys.symm
      exact ⟨m, merged, rfl, hnone hempty⟩
    | cons e cell =>
      obtain ⟨heap, result, hrun, hextends, -, hresult⟩ := hmerge fuel hfuel hmerged hoverrides
      refine ⟨{ m with heap }, result, ?_, hextends, hm.extends hextends, hresult⟩
      simp only [Option.bind_eq_bind, Option.bind_some, hrun]
      rfl

theorem gained_serviceConfig (h : Coherent dir m) (filename : String) :
    Gained dir m
      (if dir.isFile filename then m.loadConfigFile dir filename else m.allocate).1
      (if dir.isFile filename then m.loadConfigFile dir filename else m.allocate).2
      (dir.contents filename) := by
  by_cases hfile : dir.isFile filename = true
  · rw [if_pos hfile]
    exact gained_loadConfigFile h filename
  · rw [if_neg hfile, dir.contents_of_not_isFile filename (Bool.eq_false_of_not_eq_true hfile)]
    exact gained_allocate h

theorem Overrides.extends {m' : ConfigurationManager K V} {overrides : Option Nat} {o : Nested K V}
    (h : Overrides m overrides o) (hextends : Extends m.heap m'.heap) :
    Overrides m' overrides o := by
  cases overrides with
  | none => exact h
  | some address => exact Represents.extends h hextends

/-- The overrides over the file of the service over that of the environment. -/
theorem exists_loadServiceConfig (dir : ConfigDir K V) {o : Nested K V}
    (ho : KeyTree.Distinct (.node o)) (serviceName : String)
    (environment processEnv : Option String) :
    ∃ enough, ∀ fuel ≥ enough, ∀ {m : ConfigurationManager K V} {overrides : Option Nat},
      Coherent dir m → Overrides m overrides o →
      ∃ m' result,
        loadServiceConfig fuel dir m serviceName environment processEnv overrides =
          some (m', chosenEnvironment environment processEnv, result) ∧
        Gained dir m m' result (KeyTree.merge (KeyTree.merge
          (dir.contents (chosenEnvironment environment processEnv ++ ".yaml"))
          (dir.contents (serviceName ++ ".yaml"))) o) := by
  obtain ⟨enough, hmerge⟩ :=
    exists_mergeConfigs (V := V) (dir.distinct_contents (serviceName ++ ".yaml"))
  obtain ⟨enough', happly⟩ := exists_applyOverrides dir ho
  refine ⟨max enough enough', fun fuel hfuel m overrides hm hoverrides => ?_⟩
  have hbase := gained_loadConfigFile hm (chosenEnvironment environment processEnv ++ ".yaml")
  obtain ⟨hextends₁, hcoherent₁, hholding₁⟩ := hbase
  have hservice := gained_serviceConfig hcoherent₁ (serviceName ++ ".yaml")
  obtain ⟨hextends₂, hcoherent₂, hholding₂⟩ := hservice
  obtain ⟨heap, merged, hrun, hextends₃, -, hmerged⟩ :=
    hmerge fuel (by omega) (hholding₁.extends hextends₂) hholding₂
  have hextends := (hextends₁.trans hextends₂).trans hextends₃
  obtain ⟨m', result, happlied, hextends₄, hcoherent, hresult⟩ :=
    happly fuel (by omega) (hcoherent₂.extends hextends₃) hmerged (hoverrides.extends hextends)
  refine ⟨m', result, ?_, hextends.trans hextends₄, hcoherent, hresult⟩
  rw [loadServiceConfig]
  simp only [Option.bind_eq_bind, hrun, Option.bind_some, happlied]
  rfl

theorem extends_applyOverrides {fuel merged result : Nat} {m' : ConfigurationManager K V}
    {overrides : Option Nat} (h : applyOverrides fuel m merged overrides = some (m', result)) :
    m'.cache = m.cache ∧ Extends m.heap m'.heap := by
  cases overrides with
  | none =>
    cases h
    exact ⟨rfl, .refl m.heap⟩
  | some address =>
    obtain ⟨cell, -, h⟩ := Option.bind_eq_some_iff.mp h
    dsimp only at h
    split at h
    · cases h
      exact ⟨rfl, .refl m.heap⟩
    · obtain ⟨⟨heap, merged'⟩, hmerged, h⟩ := Option.bind_eq_some_iff.mp h
      cases h
      exact ⟨rfl, extends_mergeConfigs hmerged⟩

/-- A load keeps the cache true to the files, whatever its overrides. -/
theorem coherent_loadServiceConfig (hm : Coherent dir m) {fuel result : Nat}
    {serviceName env : String} {environment processEnv : Option String} {overrides : Option Nat}
    {m' : ConfigurationManager K V}
    (h : loadServiceConfig fuel dir m serviceName environment processEnv overrides =
      some (m', env, result)) : Coherent dir m' := by
  obtain ⟨⟨heap, merged⟩, hmerged, h⟩ := Option.bind_eq_some_iff.mp h
  obtain ⟨⟨m'', merged'⟩, happlied, h⟩ := Option.bind_eq_some_iff.mp h
  cases h
  have hbase := gained_loadConfigFile hm (chosenEnvironment environment processEnv ++ ".yaml")
  have hservice := gained_serviceConfig hbase.2.1 (serviceName ++ ".yaml")
  obtain ⟨hcache, hextends⟩ := extends_applyOverrides happlied
  intro filename address hlookup
  rw [hcache] at hlookup
  exact (hservice.2.1.extends (extends_mergeConfigs hmerged) filename address hlookup).extends
    hextends

/-- Managers that have loaded any configurations, while any other dictionaries were made. -/
inductive Reachable (dir : ConfigDir K V) : ConfigurationManager K V → Prop
  | start (heap : Heap K V) : Reachable dir ⟨heap, []⟩
  | load {m m' : ConfigurationManager K V} {fuel result : Nat} {serviceName env : String}
      {environment processEnv : Option String} {overrides : Option Nat} (hm : Reachable dir m)
      (h : loadServiceConfig fuel dir m serviceName environment processEnv overrides =
        some (m', env, result)) : Reachable dir m'
  | other {m : ConfigurationManager K V} {heap : Heap K V} (hm : Reachable dir m)
      (h : Extends m.heap heap) : Reachable dir { m with heap }

theorem Reachable.coherent (h : Reachable dir m) : Coherent dir m := by
  induction h with
  | start heap => exact coherent_new dir heap
  | load _ h ih => exact coherent_loadServiceConfig ih h
  | other _ h ih => exact ih.extends h

theorem Overrides.distinct {overrides : Option Nat} {o : Nested K V}
    (h : Overrides m overrides o) : KeyTree.Distinct (.node o) := by
  cases overrides with
  | none =>
    rw [show o = [] from h]
    exact .node List.nodup_nil (by simp)
  | some address => exact Represents.distinct h

end

end ConfigurationManager

open ConfigurationManager

/-- A base at 0 and an override at 2, each with its `hosts`. -/
def twoConfigs : Heap String Nat := [
  [("hosts", .dict 1), ("cache_ttl_seconds", .other 3600)],
  [("csca", .other 1), ("pkd", .other 2)],
  [("hosts", .dict 3)],
  [("pkd", .other 5)]]

def baseTree : Nested String Nat := [
  ("hosts", .node [("csca", .leaf 1), ("pkd", .leaf 2)]), ("cache_ttl_seconds", .leaf 3600)]

def overrideTree : Nested String Nat := [("hosts", .node [("pkd", .leaf 5)])]

theorem holding_baseTree : Holding twoConfigs 0 baseTree := by
  have hhosts : Holding twoConfigs 1 [("csca", .leaf 1), ("pkd", .leaf 2)] :=
    represents_dict_iff.mpr ⟨trivial, _, rfl,
      .of_forall₂ (by decide) (.cons ⟨rfl, .other 1⟩ (.cons ⟨rfl, .other 2⟩ .nil))⟩
  exact represents_dict_iff.mpr ⟨trivial, _, rfl,
    .of_forall₂ (by decide) (.cons ⟨rfl, hhosts⟩ (.cons ⟨rfl, .other 3600⟩ .nil))⟩

theorem holding_overrideTree : Holding twoConfigs 2 overrideTree := by
  have hhosts : Holding twoConfigs 3 [("pkd", .leaf 5)] :=
    represents_dict_iff.mpr ⟨trivial, _, rfl,
      .of_forall₂ (by decide) (.cons ⟨rfl, .other 5⟩ .nil)⟩
  exact represents_dict_iff.mpr ⟨trivial, _, rfl,
    .of_forall₂ (by decide) (.cons ⟨rfl, hhosts⟩ .nil)⟩

/-- One file, of the development environment. -/
def developmentDir : ConfigDir String Nat where
  isFile filename := filename = "development.yaml"
  safeLoad filename heap :=
    if filename = "development.yaml" then
      some (heap ++ [[("metrics_port", .other 8080)]], some heap.length)
    else none
  contents filename :=
    if filename = "development.yaml" then [("metrics_port", .leaf 8080)] else []
  contents_of_not_isFile := by
    intro filename h
    exact if_neg (of_decide_eq_false h)
  contents_of_raised := by
    intro filename heap h
    split at h
    · cases h
    · rename_i hne
      exact if_neg hne
  contents_of_empty := by
    intro filename heap heap' h
    split at h
    · cases h
    · cases h
  holding_contents := by
    intro filename heap heap' address h
    split at h
    · rename_i heq
      cases h
      rw [if_pos heq]
      exact represents_dict_iff.mpr ⟨trivial, _, List.getElem?_concat_length,
        .of_forall₂ (List.nodup_singleton _) (.cons ⟨rfl, .other 8080⟩ .nil)⟩
    · cases h
  extends_safeLoad := by
    intro filename heap heap' found h
    split at h
    · cases h
      exact .append heap _
    · cases h

end Marty.Config.Manager
