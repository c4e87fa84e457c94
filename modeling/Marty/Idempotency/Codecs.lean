import Marty.Idempotency.Redis
import Marty.Lib.Exceptions
import Marty.Lib.Fields
import Marty.Lib.Integer

/-! The texts under which `IdempotencyMiddleware` keeps a response and a lock in Redis, and what it
makes of any text that it finds there. -/

universe u

namespace Marty.Idempotency.Codecs

open Lib Lib.Base64 Lib.JsonText Lib.Exceptions
open Redis (LockPayload)

/-- What the decoders can meet, each of it an `Exception`; the errors of `json`, of `base64` and of
a decoding are `ValueError`s. -/
inductive Raised
  | keyError | typeError | valueError | overflowError
  deriving DecidableEq

variable {F : Type}

/-- The texts of floats, the digits of all scripts, `int` of a float, and what `repr` takes from
the interpreter. -/
structure Builtins (F : Type) where
  floats : FloatText F
  decimals : Integer.Decimals
  trunc : F → Except Raised Int
  floatRepr : F → String
  format : Repr.Format

variable (b : Builtins F)

/-- The result, or an exception in its place. -/
def orRaise {α : Type u} (e : Raised) : Option α → Except Raised α
  | some a => .ok a
  | none => .error e

/-- `int(value)` -/
def int : Value F → Except Raised Int
  | .bool x => .ok (if x then 1 else 0)
  | .int n => .ok n
  | .float x => b.trunc x
  | .str s => orRaise .valueError (Integer.int b.decimals s)
  | .null | .arr _ | .obj _ => .error .typeError

mutual

/-- An integer may be too long to be written. -/
def repr : Value F → Option String
  | .null => some "None"
  | .bool x => some (if x then "True" else "False")
  | .int n => Integer.str n
  | .float x => some (b.floatRepr x)
  | .str s => some (Repr.reprStr b.format s)
  | .arr values => (reprItems values).map fun items => "[" ++ ", ".intercalate items ++ "]"
  | .obj entries =>
    (reprEntries entries).map fun items => "\x7b" ++ ", ".intercalate items ++ "\x7d"

def reprItems : List (Value F) → Option (List String)
  | [] => some []
  | value :: values => do
    let item ← repr value
    let items ← reprItems values
    some (item :: items)

def reprEntries : List (String × Value F) → Option (List String)
  | [] => some []
  | (key, value) :: entries => do
    let item ← repr value
    let items ← reprEntries entries
    some ((Repr.reprStr b.format key ++ ": " ++ item) :: items)

end

/-- `str(value)` -/
def str : Value F → Except Raised String
  | .str s => .ok s
  | value => orRaise .valueError (repr b value)

/-- `data[key]` -/
def getItem (key : String) : Value F → Except Raised (Value F)
  | .obj entries => orRaise .keyError (entries.lookup key)
  | _ => .error .typeError

/-- `data.get(key)` -/
def get (key : String) (data : Value F) : Value F := (data.get? key).getD .null

/-- `first or second` -/
def either (first second : Value F) : Value F := if first.truthy b.floats then first else second

/-- A cached response as it is read: of the two values that are not converted, the content type can
be anything and the headers any dictionary. -/
structure CachedResponse (F : Type) where
  statusCode : Int
  body : Bytes
  contentType : Value F
  requestHash : String
  headers : List (String × Value F)

/-- What Redis gives; anything but a text is ignored. -/
inductive Payload
  | text (s : String)
  | bytes (data : ByteArray)
  | other

/-- The text of a payload, unless it is empty; bytes are decoded before anything is caught. -/
def Payload.content : Payload → Except Raised (Option String)
  | .text s => .ok (if s = "" then none else some s)
  | .bytes data => do
    let s ← orRaise .valueError (String.fromUTF8? data)
    .ok (if s = "" then none else some s)
  | .other => .ok none

/-- `except Exception` -/
def caught (_ : Raised) : Bool := true

def serialiseLock (requestHash token : String) : String :=
  dumpsWith b.floats .compact (.obj [("request_hash", .str requestHash), ("token", .str token)])

/-- The lock that a text says; there is none unless it is a dictionary. -/
def readLock (s : String) : Except Raised (Option LockPayload) := do
  let data ← orRaise .valueError (loads b.floats s)
  match data with
  | .obj _ =>
    let requestHash ←
      str b (either b (either b (get "request_hash" data) (get "body_hash" data)) (.str ""))
    let token ← str b (either b (get "token" data) (.str ""))
    .ok (some ⟨requestHash, token⟩)
  | _ => .ok none

/-- `none` is the empty dictionary. -/
def deserialiseLock (payload : Payload) : Except Raised (Option LockPayload) := do
  match ← payload.content with
  | none => .ok none
  | some s => handle caught (fun _ => some ⟨s, ""⟩) (readLock b s)

def serialiseCached (cached : CachedResponse F) : String :=
  dumpsWith b.floats .compact (.obj [
    ("status_code", .int cached.statusCode),
    ("body", .str (b64encode cached.body)),
    ("content_type", cached.contentType),
    ("request_hash", .str cached.requestHash),
    ("headers", .obj cached.headers)])

/-- `base64.b64decode(value)` -/
def decodeBody : Value F → Except Raised Bytes
  | .str s => orRaise .valueError (b64decode s)
  | _ => .error .typeError

def readCached (s : String) : Except Raised (CachedResponse F) := do
  let data ← orRaise .valueError (loads b.floats s)
  let statusCode ← getItem "status_code" data >>= int b
  let body ← getItem "body" data >>= decodeBody
  let requestHash ← str b (either b (get "request_hash" data) (get "body_hash" data))
  .ok {
    statusCode := statusCode
    body := body
    contentType := get "content_type" data
    requestHash := requestHash
    headers := match get "headers" data with
      | .obj headers => headers
      | _ => [] }

def deserialiseCached (payload : Payload) : Except Raised (Option (CachedResponse F)) := do
  match ← payload.content with
  | none => .ok none
  | some s => handle caught (fun _ => none) ((readCached b s).map some)

/-! A payload that carries a text is read as the text. -/

/-- The text itself, or its bytes. -/
def Payload.Carries (s : String) : Payload → Prop
  | .text s' => s' = s
  | .bytes data => data = s.toUTF8
  | .other => False

theorem Payload.Carries.content {payload : Payload} {s : String} (h : payload.Carries s)
    (hne : s ≠ "") : payload.content = .ok (some s) := by
  cases payload with
  | text s' =>
    obtain rfl := h
    rw [Payload.content, if_neg hne]
  | bytes data =>
    obtain rfl := h
    rw [Payload.content, Fields.fromUTF8?_toUTF8, orRaise, ok_bind, if_neg hne]
  | other => cases h

variable {b}

/-- What is written is not empty, since it is read. -/
theorem dumpsWith_ne_empty (spacing : Spacing) {value : Value F} (h : value.WellFormed) :
    dumpsWith b.floats spacing value ≠ "" := by
  intro hempty
  have hloads := loads_dumpsWith b.floats spacing h
  rw [hempty] at hloads
  cases hloads

@[simp] theorem either_empty (value : Value F) : either b (.str "") value = value := rfl

theorem either_str {s : String} (h : s ≠ "") (value : Value F) :
    either b (.str s) value = .str s := by
  rw [either, if_pos (by simpa [Value.truthy] using h)]

/-! Locks. -/

section locks

variable (requestHash token : String)

theorem lock_wellFormed : (.obj [("request_hash", .str requestHash), ("token", .str token)] :
    Value F).WellFormed := by
  simp [Value.WellFormed, Value.WellFormedEntries]

/-- An empty text stays empty through its defaults. -/
theorem either_self (s : String) : either b (.str s) (.str "") = .str s := by
  by_cases h : s = ""
  · rw [h, either_empty]
  · exact either_str h _

theorem either_null (s : String) :
    either b (either b (.str s) .null) (.str "") = .str s := by
  by_cases h : s = ""
  · rw [h]
    rfl
  · rw [either_str h, either_self]

theorem readLock_serialiseLock :
    readLock b (serialiseLock b requestHash token) = .ok (some ⟨requestHash, token⟩) := by
  rw [readLock, serialiseLock,
    loads_dumpsWith b.floats .compact (lock_wellFormed requestHash token), orRaise, ok_bind]
  simp [get, Value.get?, List.lookup_cons, either_null, either_self, str]

theorem deserialiseLock_serialiseLock {payload : Payload}
    (h : payload.Carries (serialiseLock b requestHash token)) :
    deserialiseLock b payload = .ok (some ⟨requestHash, token⟩) := by
  rw [deserialiseLock, h.content (dumpsWith_ne_empty _ (lock_wellFormed _ _)), ok_bind]
  show handle _ _ (readLock b _) = _
  rw [readLock_serialiseLock]
  rfl

end locks

/-! Responses. -/

/-- The hash as it comes back: an empty one counts as missing. -/
def CachedResponse.restored (cached : CachedResponse F) : CachedResponse F :=
  { cached with requestHash := if cached.requestHash = "" then "None" else cached.requestHash }

variable {cached : CachedResponse F}

theorem cached_wellFormed (hcontent : cached.contentType.WellFormed)
    (hheaders : (.obj cached.headers : Value F).WellFormed) : (.obj [
      ("status_code", .int cached.statusCode),
      ("body", .str (b64encode cached.body)),
      ("content_type", cached.contentType),
      ("request_hash", .str cached.requestHash),
      ("headers", .obj cached.headers)] : Value F).WellFormed := by
  simp only [Value.WellFormed, Value.WellFormedEntries] at hheaders ⊢
  refine ⟨?_, trivial, trivial, hcontent, trivial, hheaders, trivial⟩
  simp

theorem readCached_serialiseCached (hcontent : cached.contentType.WellFormed)
    (hheaders : (.obj cached.headers : Value F).WellFormed) :
    readCached b (serialiseCached b cached) = .ok cached.restored := by
  have hhash : str b (either b (.str cached.requestHash) .null) =
      .ok (if cached.requestHash = "" then "None" else cached.requestHash) := by
    by_cases h : cached.requestHash = ""
    · rw [h]
      rfl
    · rw [either_str h, if_neg h, str]
  rw [readCached, serialiseCached,
    loads_dumpsWith b.floats .compact (cached_wellFormed hcontent hheaders), orRaise, ok_bind]
  simp [getItem, get, Value.get?, List.lookup_cons, hhash, orRaise, int, decodeBody,
    b64decode_b64encode, CachedResponse.restored]

theorem deserialiseCached_eq (hcontent : cached.contentType.WellFormed)
    (hheaders : (.obj cached.headers : Value F).WellFormed) {payload : Payload}
    (h : payload.Carries (serialiseCached b cached)) :
    deserialiseCached b payload = .ok (some cached.restored) := by
  rw [deserialiseCached, h.content (dumpsWith_ne_empty _ (cached_wellFormed hcontent hheaders)),
    ok_bind]
  show handle _ _ ((readCached b _).map some) = _
  rw [readCached_serialiseCached hcontent hheaders]
  rfl

/-! The records of `Redis`, whose content type is a text or absent and whose headers are texts. -/

/-- A response of which the parts have the types that the middleware gives them. -/
def CachedResponse.ofRecord (cached : Redis.CachedResponse) : CachedResponse F where
  statusCode := cached.statusCode
  body := cached.body
  contentType := cached.contentType.elim .null .str
  requestHash := cached.requestHash
  headers := cached.headers.map fun header => (header.1, .str header.2)

theorem contentType_wellFormed (contentType : Option String) :
    (contentType.elim .null .str : Value F).WellFormed := by
  cases contentType with
  | none => trivial
  | some contentType => trivial

theorem headers_wellFormed {headers : List (String × String)} (h : (headers.map (·.1)).Nodup) :
    (.obj (headers.map fun header => (header.1, .str header.2)) : Value F).WellFormed := by
  have hentries : ∀ headers : List (String × String), Value.WellFormedEntries
      (headers.map fun header => (header.1, (.str header.2 : Value F))) := by
    intro headers
    induction headers with
    | nil => trivial
    | cons header headers ih => exact ⟨trivial, ih⟩
  refine ⟨?_, hentries headers⟩
  rwa [List.map_map]

section records

variable {record : Redis.CachedResponse} (hdict : (record.headers.map (·.1)).Nodup)
  {payload : Payload} (h : payload.Carries (serialiseCached b (.ofRecord record)))

include hdict h

theorem deserialiseCached_ofRecord :
    deserialiseCached b payload = .ok (some (CachedResponse.ofRecord record).restored) :=
  deserialiseCached_eq (contentType_wellFormed _) (headers_wellFormed hdict) h

/-- The codecs between records are those between texts, whatever the hash. -/
theorem deserialiseCached_refines : deserialiseCached b payload =
    .ok ((Redis.deserialiseCached (Redis.serialiseCached record)).map .ofRecord) := by
  rw [deserialiseCached_ofRecord hdict h, Redis.deserialiseCached, Redis.serialiseCached,
    b64decode_b64encode, Option.map_some, Option.map_some]
  rfl

end records

theorem handle_caught {α : Type} {recover : Raised → α} (r : Except Raised α) :
    ∃ a, handle caught recover r = .ok a := by
  cases r with
  | ok a => exact ⟨a, rfl⟩
  | error e => exact ⟨recover e, rfl⟩

/-- Whatever the text, what it raises is caught. -/
theorem deserialiseCached_text (b : Builtins F) (s : String) :
    ∃ cached, deserialiseCached b (.text s) = .ok cached := by
  rw [deserialiseCached, Payload.content, ok_bind]
  by_cases h : s = ""
  · rw [if_pos h]
    exact ⟨none, rfl⟩
  · rw [if_neg h]
    exact handle_caught _

theorem deserialiseLock_text (b : Builtins F) (s : String) :
    ∃ lock, deserialiseLock b (.text s) = .ok lock := by
  rw [deserialiseLock, Payload.content, ok_bind]
  by_cases h : s = ""
  · rw [if_pos h]
    exact ⟨none, rfl⟩
  · rw [if_neg h]
    exact handle_caught _

/-- A response and a lock come back from their texts as they were, and no text is an error. -/
theorem codecs_inverse (b : Builtins F) :
    (∀ record : Redis.CachedResponse, record.requestHash ≠ "" →
      (record.headers.map (·.1)).Nodup → ∀ payload : Payload,
      payload.Carries (serialiseCached b (.ofRecord record)) →
      deserialiseCached b payload = .ok (some (.ofRecord record))) ∧
    (∀ requestHash token : String, requestHash ≠ "" → token ≠ "" →
      deserialiseLock b (.text (serialiseLock b requestHash token)) =
        .ok (some ⟨requestHash, token⟩)) ∧
    ∀ s : String, (∃ cached, deserialiseCached b (.text s) = .ok cached) ∧
      ∃ lock, deserialiseLock b (.text s) = .ok lock := by
  refine ⟨fun record hhash hdict payload h => ?_, fun requestHash token _ _ => ?_, fun s => ?_⟩
  · rw [deserialiseCached_ofRecord hdict h, CachedResponse.restored]
    exact congrArg (fun hash => Except.ok (some { CachedResponse.ofRecord record with
      requestHash := hash })) (if_neg hhash)
  · exact deserialiseLock_serialiseLock requestHash token rfl
  · exact ⟨deserialiseCached_text b s, deserialiseLock_text b s⟩

/-- Floats as they are written, with the digits of ASCII. -/
def sample : Builtins Written where
  floats := written
  decimals := ⟨fun c => if c.isDigit then some (c.toNat - '0'.toNat) else none,
    Integer.value_digitChar⟩
  trunc := fun _ => .error .overflowError
  floatRepr := fun x => String.ofList x.repr
  format := Repr.ascii

theorem codecs_inverse_lock :
    deserialiseLock sample (.text (serialiseLock sample "3f2a" "t1")) = .ok (some ⟨"3f2a", "t1"⟩) :=
  (codecs_inverse sample).2.1 "3f2a" "t1" (by decide) (by decide)

example : serialiseCached sample ⟨201, "ok".toUTF8.toList, .str "text/plain", "3f2a", []⟩ =
    "\x7b\"status_code\":201,\"body\":\"b2s=\",\"content_type\":\"text/plain\"," ++
      "\"request_hash\":\"3f2a\",\"headers\":\x7b\x7d\x7d" := by
  decide +kernel

end Marty.Idempotency.Codecs
