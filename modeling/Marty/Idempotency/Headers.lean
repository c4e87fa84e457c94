import Mathlib.Data.List.Perm.Basic
import Marty.Idempotency.Provenance

/-! Which headers of a response come through the middlewares.  Both collect the response and build
it anew from a dictionary of its headers; `ETagMiddleware` is modelled here. -/

namespace Marty.Idempotency.Headers

open Lib Lib.Base64 Lib.Run Lib.Text Redis

abbrev Header : Type := String × String

/-! The response class of the framework. -/

def lowerName (h : Header) : Header := (lower h.1, h.2)

/-- What a `Response` is sent with: the headers it is given, under names in lower case, and the
ones that it adds where none of that name is given. -/
structure Framework where
  extra : Response → List Header
  extra_new : ∀ r, ∀ h ∈ extra r, h.1 ∉ (r.headers.map lowerName).map (·.1)

def Framework.raw (framework : Framework) (r : Response) : List Header :=
  r.headers.map lowerName ++ framework.extra r

/-! `ETagMiddleware`. -/

structure Request where
  method : String
  headers : List Header := []

/-- `headers.get(name)`; the names are in lower case. -/
def header (headers : List Header) (name : String) : Option String := headers.lookup name

def authRequestHeaders : List String := ["authorization", "cookie"]

def disableCacheControlTokens : List String := ["no-store", "no-cache", "private"]

def isAuthenticatedRequest (request : Request) : Bool :=
  authRequestHeaders.any fun name => (truthy (header request.headers name)).isSome

def cacheControlDisablesEtag (r : Response) : Bool :=
  let cacheControl := lower ((header r.headers "cache-control").getD "")
  disableCacheControlTokens.any fun token => contains token cacheControl

inductive Answer
  /-- The response of `call_next` as it is. -/
  | passed (r : Response)
  | notModified (etag : String)
  | tagged (r : Response)
  deriving DecidableEq

def etagOf (sha256Hex : Bytes → String) (body : Bytes) : String :=
  "W/\"" ++ String.ofList ((sha256Hex body).toList.take 16) ++ "\""

def tagged (etag : String) (r : Response) : Response where
  statusCode := r.statusCode
  body := r.body
  mediaType := r.mediaType
  headers := Dict.set "ETag" etag (headerDict r.headers)

/-- `dispatch`, for the response that `call_next` returns. -/
def dispatch (sha256Hex : Bytes → String) (request : Request) (r : Response) : Answer :=
  if request.method ≠ "GET" ∨ isAuthenticatedRequest request = true then .passed r
  else if ¬ r.success then .passed r
  else if cacheControlDisablesEtag r then .passed r
  else
    let etag := etagOf sha256Hex r.body
    if truthy (header request.headers "if-none-match") = some etag then .notModified etag
    else .tagged (tagged etag r)

/-- The conditions under which `dispatch` leaves a 2xx response alone. -/
def Skips (request : Request) (r : Response) : Prop :=
  request.method ≠ "GET" ∨ isAuthenticatedRequest request = true ∨ cacheControlDisablesEtag r = true

/-! What `dict(response.headers)` keeps. -/

def names (headers : List Header) : List String := headers.map (·.1)

/-- The names are in lower case, as they come from an application. -/
def Lowered (headers : List Header) : Prop := ∀ h ∈ headers, lower h.1 = h.1

/-- The header `h` is found as often as before, apart from the headers that are added. -/
def Survive (added downstream returned : List Header) : Prop :=
  ∀ h ∈ downstream, returned.count h = downstream.count h + added.count h

section dict

variable {headers : List Header}

theorem headerDict_sublist (headers : List Header) : (headerDict headers).Sublist headers := by
  induction headers with
  | nil => exact List.Sublist.slnil
  | cons h headers ih => exact (List.filter_sublist.trans ih).cons_cons h

theorem names_headerDict_nodup (headers : List Header) : (names (headerDict headers)).Nodup := by
  induction headers with
  | nil => exact List.nodup_nil
  | cons h headers ih =>
    refine List.nodup_cons.mpr ⟨?_, ih.sublist (List.filter_sublist.map _)⟩
    intro hmem
    obtain ⟨h', hh', heq⟩ := List.mem_map.mp hmem
    exact of_decide_eq_true (List.mem_filter.mp hh').2 heq

theorem mem_names_headerDict {name : String} (h : name ∈ names headers) :
    name ∈ names (headerDict headers) := by
  induction headers with
  | nil => exact h
  | cons first headers ih =>
    by_cases hfirst : name = first.1
    · exact List.mem_cons.mpr (.inl hfirst)
    · refine List.mem_cons_of_mem _ ?_
      obtain ⟨h', hh', rfl⟩ := List.mem_map.mp (ih ((List.mem_cons.mp h).resolve_left hfirst))
      exact List.mem_map_of_mem (List.mem_filter.mpr ⟨hh', decide_eq_true hfirst⟩)

theorem headerDict_eq_self (h : (names headers).Nodup) : headerDict headers = headers := by
  induction headers with
  | nil => rfl
  | cons first headers ih =>
    obtain ⟨hfirst, hrest⟩ := List.nodup_cons.mp h
    rw [headerDict, ih hrest, List.filter_eq_self.mpr]
    intro h' hh'
    exact decide_eq_true fun heq => hfirst (List.mem_map.mpr ⟨h', hh', heq⟩)

/-- The dictionary keeps every header as often as it was there only if no name is repeated. -/
theorem count_headerDict_iff :
    (∀ h ∈ headers, (headerDict headers).count h = headers.count h) ↔ (names headers).Nodup := by
  constructor
  · intro hcount
    have hperm : (headerDict headers).Perm headers := by
      refine List.perm_iff_count.mpr fun h => ?_
      by_cases hmem : h ∈ headers
      · exact hcount h hmem
      · have hnot : h ∉ headerDict headers := fun hd => hmem ((headerDict_sublist headers).mem hd)
        rw [List.count_eq_zero_of_not_mem hmem, List.count_eq_zero_of_not_mem hnot]
    exact (hperm.map _).nodup_iff.mp (names_headerDict_nodup headers)
  · intro hnodup h _
    rw [headerDict_eq_self hnodup]

end dict

variable (framework : Framework) {r r' : Response}

/-- A response built from the dictionary of the headers, with `added` after them. -/
theorem survive_raw_iff (added : List Header) (hlower : Lowered r.headers)
    (hheaders : r'.headers = headerDict r.headers ++ added) :
    Survive (added.map lowerName) r.headers (framework.raw r') ↔ (names r.headers).Nodup := by
  have hdict : (headerDict r.headers).map lowerName = headerDict r.headers := by
    refine (List.map_congr_left fun h hh => ?_).trans (List.map_id _)
    exact Prod.ext (hlower h ((headerDict_sublist r.headers).mem hh)) rfl
  have hcount (h : Header) (hh : h ∈ r.headers) : (framework.raw r').count h =
      (headerDict r.headers).count h + (added.map lowerName).count h := by
    have hraw : r'.headers.map lowerName = headerDict r.headers ++ added.map lowerName := by
      rw [hheaders, List.map_append, hdict]
    have hextra : h ∉ framework.extra r' := by
      intro hmem
      refine framework.extra_new r' h hmem ?_
      rw [hraw, List.map_append]
      exact List.mem_append_left _ (mem_names_headerDict (List.mem_map_of_mem hh))
    rw [Framework.raw, hraw, List.count_append, List.count_append,
      List.count_eq_zero_of_not_mem hextra, Nat.add_zero]
  rw [← count_headerDict_iff]
  refine forall₂_congr fun h hh => ?_
  rw [hcount h hh, Nat.add_right_cancel_iff]

/-- A name with a capital is none of those in lower case. -/
theorem set_headerDict (key : String) (hkey : lower key ≠ key) (value : String)
    (hlower : Lowered r.headers) :
    Dict.set key value (headerDict r.headers) = headerDict r.headers ++ [(key, value)] := by
  refine Dict.set_of_notMem value fun hmem => ?_
  obtain ⟨h, hh, rfl⟩ := List.mem_map.mp hmem
  exact hkey (hlower h ((headerDict_sublist r.headers).mem hh))

/-! Every path of the two middlewares. -/

def replayed : Header := lowerName (replayHeader, "true")

/-- What the result of a request keeps of the 2xx response that it comes from. -/
def Keeps (succeeded : Response → Prop) (called : Option Called) : Result → Prop
  | .executed r' => ∀ r, called = some (.returned r) → r.success = true → Lowered r.headers →
      (Survive [] r.headers (framework.raw r') ↔ (names r.headers).Nodup)
  | .replay r' => ∃ r, succeeded r ∧ (Lowered r.headers →
      (Survive [replayed] r.headers (framework.raw r') ↔ (names r.headers).Nodup))
  | .error _ | .raised => True

theorem keeps_of_sound {R succeeded : Response → Prop} {called : Option Called} {result : Result}
    (h : Provenance.Sound R called result)
    (hR : ∀ r', R r' → ∃ r, succeeded r ∧ r' = Exclusive.replayOf r) :
    Keeps framework succeeded called result := by
  cases result with
  | executed r' =>
    obtain ⟨r, hcalled, hreturn⟩ := h
    intro r₁ hr₁ hsuccess hlower
    obtain rfl : r = r₁ := Called.returned.inj (Option.some.inj (hcalled.symm.trans hr₁))
    obtain rfl := hreturn hsuccess
    exact survive_raw_iff framework [] hlower (List.append_nil _).symm
  | replay r' =>
    obtain ⟨r, hr, rfl⟩ := hR r' h
    refine ⟨r, hr, fun hlower => ?_⟩
    exact survive_raw_iff framework [(replayHeader, "true")] hlower
      (set_headerDict replayHeader (by decide) "true" hlower)
  | error | raised => trivial

def etagHeader (etag : String) : Header := lowerName ("ETag", etag)

/-- What the answer of `ETagMiddleware` keeps of the response; a 304 is another matter. -/
def EtagKeeps (sha256Hex : Bytes → String) (r : Response) : Answer → Prop
  | .passed r' => Survive [] r.headers r'.headers
  | .tagged r' => Survive [etagHeader (etagOf sha256Hex r.body)] r.headers (framework.raw r')
  | .notModified _ => True

theorem survive_self (headers : List Header) : Survive [] headers headers := fun _ _ => rfl

theorem dispatch_cases (sha256Hex : Bytes → String) (request : Request)
    (hsuccess : r.success = true) :
    (Skips request r ∧ dispatch sha256Hex request r = .passed r) ∨
    (¬ Skips request r ∧ (dispatch sha256Hex request r = .notModified (etagOf sha256Hex r.body) ∨
      dispatch sha256Hex request r = .tagged (tagged (etagOf sha256Hex r.body) r))) := by
  by_cases h : request.method ≠ "GET" ∨ isAuthenticatedRequest request = true
  · exact .inl ⟨h.imp_right .inl, if_pos h⟩
  rw [dispatch, if_neg h, if_neg (not_not.mpr hsuccess)]
  by_cases hcontrol : cacheControlDisablesEtag r = true
  · exact .inl ⟨.inr (.inr hcontrol), if_pos hcontrol⟩
  rw [if_neg hcontrol]
  refine .inr ⟨fun hskips => ?_, ?_⟩
  · rcases hskips with hget | hauth | hdisables
    · exact h (.inl hget)
    · exact h (.inr hauth)
    · exact hcontrol hdisables
  · dsimp only
    split
    · exact .inl rfl
    · exact .inr rfl

theorem etagKeeps_iff (sha256Hex : Bytes → String) (request : Request) (hsuccess : r.success = true)
    (hlower : Lowered r.headers)
    (hmodified : ∀ etag, dispatch sha256Hex request r ≠ .notModified etag) :
    EtagKeeps framework sha256Hex r (dispatch sha256Hex request r) ↔
      Skips request r ∨ (names r.headers).Nodup := by
  rcases dispatch_cases sha256Hex request hsuccess with ⟨hskips, heq⟩ | ⟨hskips, heq | heq⟩
  · rw [heq]
    exact iff_of_true (survive_self r.headers) (.inl hskips)
  · exact absurd heq (hmodified _)
  · rw [heq, or_iff_right hskips]
    let etag := etagOf sha256Hex r.body
    have hheaders : (tagged etag r).headers = headerDict r.headers ++ [("ETag", etag)] :=
      set_headerDict "ETag" (by decide) etag hlower
    exact survive_raw_iff framework [("ETag", etag)] hlower hheaders

/-- Headers survive where no name is repeated, in every run of both storage paths, on the first
execution and on a replay, and through `ETagMiddleware` also where it leaves the response alone. -/
theorem headers_survive_iff (framework : Framework) (sha256 sha256Hex : Bytes → String) (ttl : Int)
    (start : Memory.Time) :
    (∀ {ls result} {i : Nat} {s : Redis.System} {t : Redis.Thread}, run Redis.step {} ls = some s →
      s.threads[i]? = some t → t.phase = .done result →
      Keeps framework (fun r => ∃ (j : Nat) (u : Redis.Thread),
        s.threads[j]? = some u ∧ Exclusive.Succeeded u r) t.called result) ∧
    (∀ {ls result} {i : Nat} {s : Memory.System} {t : Memory.Thread},
      run (Memory.step sha256 ttl) { lastEviction := start } ls = some s →
      s.threads[i]? = some t → t.request.cacheKey ≠ none → t.phase = .done result →
      Keeps framework (fun r => ∃ (j : Nat) (u : Memory.Thread),
        s.threads[j]? = some u ∧ Once.Succeeded u r) t.called result) ∧
    ∀ {request r}, r.success = true → Lowered r.headers →
      (∀ etag, dispatch sha256Hex request r ≠ .notModified etag) →
      (EtagKeeps framework sha256Hex r (dispatch sha256Hex request r) ↔
        Skips request r ∨ (names r.headers).Nodup) := by
  refine ⟨?_, ?_, etagKeeps_iff framework sha256Hex _⟩
  · intro ls result i s t hr ht hdone
    have hsound : Provenance.Redis.Carries _ t (.done result) :=
      hdone ▸ (Provenance.Redis.inv_of_run hr).thread ht
    refine keeps_of_sound framework hsound ?_
    rintro _ ⟨j, u, r, hj, hsucceeded, rfl⟩
    exact ⟨r, ⟨j, u, hj, hsucceeded⟩, rfl⟩
  · intro ls result i s t hr ht hkey hdone
    have hsound : Provenance.Memory.Carries _ t (.done result) :=
      hdone ▸ (Provenance.Memory.inv_of_run hr).thread ht
    refine keeps_of_sound framework (hsound hkey) ?_
    rintro _ ⟨j, u, r, hj, hsucceeded, rfl⟩
    exact ⟨r, ⟨j, u, hj, hsucceeded⟩, rfl⟩

/-- The headers that Starlette adds: the length of the body and its type. -/
def starletteExtra (r : Response) : List Header :=
  let given := names (r.headers.map lowerName)
  let length :=
    if "content-length" ∈ given ∨ r.statusCode < 200 ∨ r.statusCode = 204 ∨ r.statusCode = 304 then
      []
    else [("content-length", toString r.body.length)]
  let type :=
    if "content-type" ∈ given then []
    else (r.mediaType.map fun mediaType => ("content-type", mediaType)).toList
  length ++ type

def starlette : Framework where
  extra := starletteExtra
  extra_new := by
    intro r h hh
    simp only [starletteExtra, List.mem_append] at hh
    rcases hh with hh | hh
    · split at hh
      case isTrue => cases hh
      case isFalse hgiven =>
        obtain rfl := List.mem_singleton.mp hh
        exact fun hmem => hgiven (.inl hmem)
    · split at hh
      case isTrue => cases hh
      case isFalse hgiven =>
        obtain ⟨mediaType, -, rfl⟩ : ∃ mediaType, r.mediaType = some mediaType ∧
            ("content-type", mediaType) = h := by simpa using hh
        exact hgiven

/-- A response that sets two cookies. -/
def twoCookies : Response where
  statusCode := 201
  body := [1]
  headers := [("set-cookie", "session=1"), ("set-cookie", "csrf=2")]

def cookieRun : List Label :=
  [.arrive "h", .readData 0, .tryLock 0 "t", .callNext 0 (.returned twoCookies), .collect 0 true,
    .writeData 0, .stopRenewal 0, .release 0, .arrive "h", .readData 1]

def firstAnswer : Response := Provenance.returnOf twoCookies

def replayedAnswer : Response := Exclusive.replayOf twoCookies

/-- The second cookie is lost on the first execution, on the replay and with an ETag. -/
theorem second_cookie_lost :
    (∃ s t u, run Redis.step {} cookieRun = some s ∧ s.threads[0]? = some t ∧
      s.threads[1]? = some u ∧ t.called = some (.returned twoCookies) ∧
      t.phase = .done (.executed firstAnswer) ∧ u.phase = .done (.replay replayedAnswer)) ∧
    ¬ Survive [] twoCookies.headers (starlette.raw firstAnswer) ∧
    ¬ Survive [replayed] twoCookies.headers (starlette.raw replayedAnswer) ∧
    ¬ EtagKeeps starlette (fun _ => "") twoCookies
      (dispatch (fun _ => "") { method := "GET" } twoCookies) := by
  have hcookie : ("set-cookie", "csrf=2") ∈ twoCookies.headers := by decide
  refine ⟨⟨_, _, _, rfl, rfl, rfl, rfl, rfl, rfl⟩, ?_, ?_, ?_⟩
  · intro h
    exact absurd (h _ hcookie) (by decide +kernel)
  · intro h
    exact absurd (h _ hcookie) (by decide +kernel)
  · have hdispatch : dispatch (fun _ => "") { method := "GET" } twoCookies =
        .tagged (tagged (etagOf (fun _ => "") twoCookies.body) twoCookies) := by decide +kernel
    rw [hdispatch]
    intro h
    exact absurd (h _ hcookie) (by decide +kernel)

end Marty.Idempotency.Headers
