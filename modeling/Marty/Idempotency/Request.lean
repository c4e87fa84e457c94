import Mathlib.Data.List.Nodup
import Marty.Lib.Base64
import Marty.Lib.Text

/-! What `IdempotencyMiddleware` makes of a request: the key under which it is known and the hash
by which it is told from others.  SHA-256 is a parameter; it gives the hexadecimal digest. -/

namespace Marty.Idempotency

open Lib.Base64 Lib.Text

def idempotencyMethods : List String := ["POST", "PUT", "PATCH"]

/-- A request with its body.  Path and query are those of `request.url`, where the URL parser has
removed every newline. -/
structure Request where
  method : String
  path : String
  query : String := ""
  body : Bytes := []
  /-- `request.state.user_id`. -/
  userId : Option String := none
  xUserId : Option String := none
  idempotencyKey : Option String := none
  path_clean : '\n' ∉ path.toList
  deriving DecidableEq

namespace Request

/-- Who makes the request: the user, the name in `X-User-ID`, or nobody in particular. -/
def identity (request : Request) : String :=
  (firstTruthy [request.userId, request.xUserId]).getD "anonymous"

def cacheNamespace (request : Request) (idemKey : String) : String :=
  request.identity ++ ":" ++ idemKey

/-- The namespaced key of a request that is not just passed on. -/
def cacheKey (request : Request) : Option String :=
  if request.method ∈ idempotencyMethods then
    (truthy request.idempotencyKey).map request.cacheNamespace
  else none

variable (sha256 : Bytes → String)

def bodyHash (body : Bytes) : String := sha256 body

def requestHash (request : Request) : String :=
  let target := upper request.method ++ "\n" ++ request.path ++ "\n" ++ request.query ++ "\n" ++
    bodyHash sha256 request.body
  sha256 (encode target)

/-- The two requests have the same method, path, query and body. -/
structure Same (r r' : Request) : Prop where
  method : r.method = r'.method
  path : r.path = r'.path
  query : r.query = r'.query
  body : r.body = r'.body

theorem upper_method {method : String} (h : method ∈ idempotencyMethods) :
    upper method = method := by
  have hall : ∀ m ∈ idempotencyMethods, upper m = m := by decide
  exact hall method h

theorem newline_notMem_method {method : String} (h : method ∈ idempotencyMethods) :
    '\n' ∉ method.toList := by
  have hall : ∀ m ∈ idempotencyMethods, '\n' ∉ m.toList := by decide
  exact hall method h

theorem method_of_cacheKey {r : Request} {key : String} (h : r.cacheKey = some key) :
    r.method ∈ idempotencyMethods := by
  by_contra hmethod
  simp [cacheKey, hmethod] at h

/-- Where SHA-256 has no collision, the hash tells requests apart. -/
theorem same_of_requestHash_eq {sha256 : Bytes → String} (hinj : Function.Injective sha256)
    (hhex : ∀ data, '\n' ∉ (sha256 data).toList) {r r' : Request}
    (hr : r.method ∈ idempotencyMethods) (hr' : r'.method ∈ idempotencyMethods)
    (h : r.requestHash sha256 = r'.requestHash sha256) : Same r r' := by
  have htarget := congrArg String.toList (encode_injective (hinj h))
  simp only [upper_method hr, upper_method hr', bodyHash, String.toList_append] at htarget
  have hnewline : "\n".toList = ['\n'] := rfl
  simp only [hnewline, List.append_assoc, List.cons_append, List.nil_append] at htarget
  obtain ⟨hmethod, hrest⟩ :=
    join_inj (newline_notMem_method hr) (newline_notMem_method hr') htarget
  obtain ⟨hpath, hrest⟩ := join_inj r.path_clean r'.path_clean hrest
  -- The digest is what stands behind the last newline, so the ends are compared in reverse.
  have hreverse := congrArg List.reverse hrest
  simp only [List.reverse_append, List.reverse_cons, List.append_assoc, List.cons_append,
    List.nil_append] at hreverse
  obtain ⟨hbody, hquery⟩ := join_inj (by simpa using hhex r.body) (by simpa using hhex r'.body)
    hreverse
  exact ⟨String.toList_injective hmethod, String.toList_injective hpath,
    String.toList_injective (List.reverse_injective hquery),
    hinj (String.toList_injective (List.reverse_injective hbody))⟩

end Request

section digests

/-- A character for a byte, none of them in ASCII. -/
def byteChar (b : UInt8) : Char := Char.ofNat (b.toNat + 256)

theorem byteChar_toNat (b : UInt8) : (byteChar b).toNat = b.toNat + 256 := by
  have hb := b.toNat_lt
  have hvalid : (b.toNat + 256).isValidChar := .inl (by omega)
  unfold byteChar Char.ofNat
  rw [dif_pos hvalid]
  rfl

theorem byteChar_injective : Function.Injective byteChar := by
  intro a b h
  have h := congrArg Char.toNat h
  rw [byteChar_toNat, byteChar_toNat] at h
  exact UInt8.toNat_inj.mp (by omega)

/-- The digests of a table, and for all other data a text that is no digest. -/
def digestOf (known : List (Bytes × String)) (data : Bytes) : String :=
  (known.lookup data).getD (String.ofList ('x' :: data.map byteChar))

variable {known : List (Bytes × String)}

theorem mem_of_lookup {data : Bytes} {digest : String} (h : known.lookup data = some digest) :
    (data, digest) ∈ known := by
  obtain ⟨l, r, rfl, -⟩ := List.lookup_eq_some_iff.mp h
  simp

theorem digestOf_injective (hnodup : (known.map (·.2)).Nodup)
    (hdigest : ∀ p ∈ known, p.2.toList.head? ≠ some 'x') :
    Function.Injective (digestOf known) := by
  intro a b h
  unfold digestOf at h
  cases ha : known.lookup a with
  | none =>
    cases hb : known.lookup b with
    | none =>
      simp only [ha, hb, Option.getD_none, String.ofList_inj, List.cons.injEq, true_and] at h
      exact List.map_injective_iff.mpr byteChar_injective h
    | some digest =>
      simp only [ha, hb, Option.getD_none, Option.getD_some] at h
      exact absurd (by simp [← h]) (hdigest _ (mem_of_lookup hb))
  | some digest =>
    cases hb : known.lookup b with
    | none =>
      simp only [ha, hb, Option.getD_none, Option.getD_some] at h
      exact absurd (by simp [h]) (hdigest _ (mem_of_lookup ha))
    | some digest' =>
      simp only [ha, hb, Option.getD_some] at h
      have hpair := List.inj_on_of_nodup_map hnodup (mem_of_lookup ha) (mem_of_lookup hb) h
      exact (Prod.mk.inj hpair).1

theorem notMem_digestOf {c : Char} (hascii : c.toNat < 256) (hc : c ≠ 'x')
    (hdigest : ∀ p ∈ known, c ∉ p.2.toList) (data : Bytes) :
    c ∉ (digestOf known data).toList := by
  unfold digestOf
  cases h : known.lookup data with
  | none =>
    simp only [Option.getD_none, String.toList_ofList, List.mem_cons, List.mem_map, not_or,
      not_exists, not_and]
    refine ⟨hc, fun b _ hb => ?_⟩
    have hnat := byteChar_toNat b
    rw [hb] at hnat
    omega
  | some digest => exact hdigest _ (mem_of_lookup h)

/-- `POST /v1/credentials`, with neither query nor body. -/
def createRequest (userId xUserId : Option String) (idempotencyKey : String) : Request where
  method := "POST"
  path := "/v1/credentials"
  userId := userId
  xUserId := xUserId
  idempotencyKey := some idempotencyKey
  path_clean := by decide

/-- The digests of the empty body, of such a request, and of two namespaced keys. -/
def digests : List (Bytes × String) :=
  [([], "e3b0c44298fc1c149afbf4c8996fb92427ae41e4649b934ca495991b7852b855"),
    (encode ("POST\n/v1/credentials\n\n" ++
        "e3b0c44298fc1c149afbf4c8996fb92427ae41e4649b934ca495991b7852b855"),
      "8c171b843abb1a9bf01386012d21bd5787defa69ab758258f37c9dc710f3524e"),
    (encode "alice:k", "16e66713e89316b015e24eaf74e76145c1e0d2d036ae3c4607d21cadb10fe85b"),
    (encode "bob:k", "b02cc89ad922f9d4ce7f4f92bf4478399f1d694dba6473ae51a3bbba8fd1b990")]

theorem digests_injective : Function.Injective (digestOf digests) :=
  digestOf_injective (by decide +kernel) (by decide +kernel)

end digests

end Marty.Idempotency
