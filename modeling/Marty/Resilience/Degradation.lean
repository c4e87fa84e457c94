import Mathlib.Data.List.Sort
import Mathlib.Data.Rat.Defs
import Mathlib.Data.String.Basic
import Mathlib.Order.SetNotation
import Marty.Lib.Dict
import Marty.Lib.Run

/-! `GracefulDegradationManager` on one feature.  Between two steps of a call other calls may take
theirs: a call waits for its primary operation, and after a failure for each provider in turn. -/

universe u v

namespace Marty.Resilience.Degradation

open Lib Lib.Run

inductive DegradationLevel
  | none | minimal | partly | significant | emergency
  deriving DecidableEq

structure DegradationConfig where
  level : DegradationLevel := .none
  enabledFeatures : List String := []
  disabledFeatures : List String := []

def DegradationConfig.isFeatureEnabled (c : DegradationConfig) (feature : String) : Bool :=
  if feature ∈ c.disabledFeatures then false
  else if c.enabledFeatures ≠ [] then feature ∈ c.enabledFeatures
  else c.level = .none ∨ c.level = .minimal

/-- The arguments of a call; `F` are the floats and `O` all other objects. -/
inductive Value (F O : Type u) : Type u
  | none : Value F O
  | bool : Bool → Value F O
  | int : Int → Value F O
  | float : F → Value F O
  | str : String → Value F O
  | tuple : List (Value F O) → Value F O
  | dict : List (String × Value F O) → Value F O
  | other : O → Value F O

abbrev Context (F O : Type u) := List (String × Value F O)

variable {F O : Type u} {α : Type v}

/-- How a string, a number or a truth value is formatted; `text` does it for a float. -/
def Value.text? (text : F → String) : Value F O → Option String
  | .str s => some s
  | .int n => some (toString n)
  | .float x => some (text x)
  | .bool b => some (if b then "True" else "False")
  | .none | .tuple _ | .dict _ | .other _ => Option.none

def generateCacheKey (text : F → String) (context : Context F O) : String :=
  let keys := (context.map (·.1)).insertionSort (· ≤ ·)
  "|".intercalate (keys.filterMap fun key =>
    ((context.lookup key).bind (·.text? text)).map fun value => key ++ ":" ++ value)

/-- A result is `none` where the source has `None`. -/
inductive Provider (α : Type v) : Type v
  | cached (cacheTtl : Int) (cache : List (String × (Option α × ℚ)))
  | default (value : Option α)
  | backup (available : Bool)

namespace Provider

def entries : Provider α → List (String × (Option α × ℚ))
  | .cached _ cache => cache
  | _ => []

def isCached : Provider α → Bool
  | .cached _ _ => true
  | _ => false

def isAvailable (now : ℚ) : Provider α → Bool
  | .cached cacheTtl cache => cache.any fun entry => now - entry.2.2 < cacheTtl
  | .default _ => true
  | .backup available => available

/-- What the provider returns, `none` when it raises; `answer` is what the backup service does. -/
def getFallback (cacheKey : String) (now : ℚ) (answer : Option (Option α)) :
    Provider α → Option (Option α) × Provider α
  | .cached cacheTtl cache =>
    let value := ((cache.lookup cacheKey).filter fun entry => now - entry.2 < cacheTtl).bind (·.1)
    (some value, .cached cacheTtl cache)
  | .default value => (some value, .default value)
  | .backup available => (answer, .backup (available && answer.isSome))

end Provider

/-- The first cache takes the response. -/
def cacheSuccessfulResponse (cacheKey : String) (response : Option α) (now : ℚ) :
    List (Provider α) → List (Provider α)
  | [] => []
  | .cached cacheTtl cache :: providers =>
    .cached cacheTtl (Dict.set cacheKey (response, now) cache) :: providers
  | provider :: providers => provider :: cacheSuccessfulResponse cacheKey response now providers

inductive Stage
  | primary
  | fallback (provider : Nat)

structure Call (F O : Type u) where
  context : Context F O
  stage : Stage

/-- `returned` are the values of the primary operation, `cached` the answers out of a cache, each
with the context of its call. -/
structure State (F O : Type u) (α : Type v) where
  config : DegradationConfig := {}
  health : Option Bool := none
  providers : Option (List (Provider α)) := none
  calls : List (Call F O) := []
  returned : List (Context F O × Option α) := []
  cached : List (Context F O × α) := []

/-- What `CachedResponseProvider` and its siblings are made with. -/
inductive NewProvider (α : Type v) : Type v
  | cached (cacheTtl : Int)
  | default (value : Option α)
  | backup

def NewProvider.provider : NewProvider α → Provider α
  | .cached cacheTtl => .cached cacheTtl []
  | .default value => .default value
  | .backup => .backup true

inductive Label (F O : Type u) (α : Type v)
  | setDegradationLevel (level : DegradationLevel)
  | setFeatureHealth (healthy : Bool)
  | addFallbackProvider (provider : NewProvider α)
  | executeWithFallback (context : Option (Context F O))
  | decorated (fallbackValue : Option α) (args : List (Value F O)) (kwargs : Context F O)
  /-- The primary operation returns, or raises or times out. -/
  | finish (i : Nat) (result : Option (Option α)) (now : ℚ)
  /-- The next provider is asked whether it is available, and then for its value. -/
  | consult (i : Nat) (now later : ℚ) (answer : Option (Option α))
  | cancel (i : Nat)

namespace State

variable (s : State F O α)

def addFallbackProvider (provider : NewProvider α) : State F O α :=
  { s with providers := some (s.providers.getD [] ++ [provider.provider]) }

def execute (feature : String) (context : Context F O) : State F O α :=
  if s.config.isFeatureEnabled feature && s.health.getD true then
    { s with calls := s.calls ++ [⟨context, .primary⟩] }
  else { s with calls := s.calls ++ [⟨context, .fallback 0⟩] }

def finish (text : F → String) (i : Nat) (context : Context F O) (now : ℚ) :
    Option (Option α) → State F O α
  | some response =>
    { s with
      providers := s.providers.map
        (cacheSuccessfulResponse (generateCacheKey text context) response now)
      calls := s.calls.eraseIdx i
      returned := s.returned ++ [(context, response)] }
  | none => { s with health := some false, calls := s.calls.set i ⟨context, .fallback 0⟩ }

/-- Provider `k` has returned or raised. -/
def answered (i k : Nat) (context : Context F O) (isCached : Bool) :
    Option (Option α) × Provider α → State F O α
  | (some (some value), provider) =>
    { s with
      providers := s.providers.map (List.set · k provider)
      calls := s.calls.eraseIdx i
      cached := if isCached then s.cached ++ [(context, value)] else s.cached }
  | (_, provider) =>
    { s with
      providers := s.providers.map (List.set · k provider)
      calls := s.calls.set i ⟨context, .fallback (k + 1)⟩ }

/-- The loop of `_get_fallback_response` at its provider `k`; it ends in a `TransientError`. -/
def consult (text : F → String) (i k : Nat) (context : Context F O) (now later : ℚ)
    (answer : Option (Option α)) : State F O α :=
  match (s.providers.getD [])[k]? with
  | none => { s with calls := s.calls.eraseIdx i }
  | some provider =>
    if provider.isAvailable now then
      s.answered i k context provider.isCached
        (provider.getFallback (generateCacheKey text context) later answer)
    else { s with calls := s.calls.set i ⟨context, .fallback (k + 1)⟩ }

end State

/-- The context the decorator makes of the arguments. -/
def wrap (args : List (Value F O)) (kwargs : Context F O) : Context F O :=
  [("args", .tuple args), ("kwargs", .dict kwargs)]

def step (text : F → String) (feature : String) (s : State F O α) :
    Label F O α → Option (State F O α)
  | .setDegradationLevel level => some { s with config := { s.config with level := level } }
  | .setFeatureHealth healthy => some { s with health := some healthy }
  | .addFallbackProvider provider => some (s.addFallbackProvider provider)
  | .executeWithFallback context => some (s.execute feature (context.getD []))
  | .decorated fallbackValue args kwargs =>
    let s := if fallbackValue.isSome && s.providers.isNone then
      s.addFallbackProvider (.default fallbackValue) else s
    some (s.execute feature (wrap args kwargs))
  | .finish i result now =>
    match s.calls[i]? with
    | some ⟨context, .primary⟩ => some (s.finish text i context now result)
    | _ => none
  | .consult i now later answer =>
    match s.calls[i]? with
    | some ⟨context, .fallback k⟩ => some (s.consult text i k context now later answer)
    | _ => none
  | .cancel i => if i < s.calls.length then some { s with calls := s.calls.eraseIdx i } else none

end Marty.Resilience.Degradation
