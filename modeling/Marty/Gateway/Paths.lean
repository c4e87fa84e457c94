import Marty.Gateway.Actions

/-! How the path patterns of the gateway read a path whose segments are known. -/

namespace Marty.Gateway.Paths

open Lib.Regex Actions

/-- A non-empty run of characters other than the slash. -/
def IsSegment (x : List Char) : Prop := x ≠ [] ∧ ∀ c ∈ x, notSlash c = true

instance (x : List Char) : Decidable (IsSegment x) :=
  decidable_of_iff (x ≠ [] ∧ x.all notSlash = true) (by simp [IsSegment])

/-- What may follow a complete segment: the end of the path or a slash. -/
def EndsSegment (u : List Char) : Prop := ∀ c ∈ u.head?, notSlash c = false

theorem endsSegment_nil : EndsSegment [] := by simp [EndsSegment]

theorem endsSegment_slash (u : List Char) : EndsSegment ('/' :: u) := by
  simp [EndsSegment, notSlash]

theorem EndsSegment.cases {u : List Char} (h : EndsSegment u) : u = [] ∨ ∃ v, u = '/' :: v := by
  cases u with
  | nil => exact .inl rfl
  | cons c v =>
    have hc : c = '/' := by simpa [notSlash] using h c (by simp)
    exact .inr ⟨v, by rw [hc]⟩

theorem takeWhile_segment {x u : List Char} (hx : ∀ c ∈ x, notSlash c = true)
    (hu : EndsSegment u) : (x ++ u).takeWhile notSlash = x := by
  rw [List.takeWhile_append_of_pos hx]
  rcases hu.cases with rfl | ⟨v, rfl⟩
  · simp
  · simp [notSlash]

/-- A path is cut into a segment and the rest in one way only. -/
theorem segment_unique {x y u v : List Char} (hx : ∀ c ∈ x, notSlash c = true)
    (hy : ∀ c ∈ y, notSlash c = true) (hu : EndsSegment u) (hv : EndsSegment v)
    (h : x ++ u = y ++ v) : x = y ∧ u = v := by
  have hxy : x = y := by rw [← takeWhile_segment hx hu, h, takeWhile_segment hy hv]
  subst hxy
  exact ⟨rfl, List.append_cancel_left h⟩

theorem topLevel_unique {w x y u v : List Char} (hx : ∀ c ∈ x, notSlash c = true)
    (hy : IsSegment y) (h : w ++ (x ++ '/' :: u) = w ++ (y ++ '/' :: v)) : x = y :=
  (segment_unique hx hy.2 (endsSegment_slash u) (endsSegment_slash v)
    (List.append_cancel_left h)).1

theorem consumes_seg {t u : List Char} : seg.Consumes t u ↔ IsSegment t := Re.consumes_many1

theorem first_seg {x u : List Char} (hx : IsSegment x) (hu : EndsSegment u) :
    seg.First (x ++ u) ⟨x, [], u⟩ := Re.First.many1 hx.1 hx.2 hu

/-- The first success of `(?:/|$)` where a segment ends. -/
theorem first_slashOrEnd {u : List Char} (hu : EndsSegment u) :
    ∃ m, slashOrEnd.First u m ∧ m.groups = [] := by
  rcases hu.cases with rfl | ⟨v, rfl⟩
  · exact ⟨⟨[], [], []⟩, rfl, rfl⟩
  · exact ⟨⟨['/'], [], v⟩, (Re.First.lits ['/'] v).altLeft _, rfl⟩

/-- Where `(?:/|$)` matches, a segment before it can be extended to end there. -/
theorem consumes_slashOrEnd {t u : List Char} (h : slashOrEnd.Consumes t u) :
    EndsSegment (t ++ u) ∨ t ++ u = ['\n'] := by
  rcases h with h | ⟨rfl, rfl | rfl⟩
  · obtain rfl : t = ['/'] := by simpa using h
    exact .inl (endsSegment_slash u)
  · exact .inl endsSegment_nil
  · exact .inr rfl

/-! The organization a path names. -/

/-- The grammar of `_UUID_RE`: thirty-six lower-case hexadecimal digits and hyphens. -/
def IsUuid (x : List Char) : Prop := x.length = 36 ∧ ∀ c ∈ x, uuidChar c = true

instance (x : List Char) : Decidable (IsUuid x) :=
  decidable_of_iff (x.length = 36 ∧ x.all uuidChar = true) (by simp [IsUuid])

theorem notSlash_of_uuidChar {c : Char} (h : uuidChar c = true) : notSlash c = true := by
  by_contra hc
  obtain rfl : c = '/' := by simpa [notSlash] using hc
  exact absurd h (by decide)

theorem orgPath_consumes {t u : List Char} (h : orgPathRe.Consumes t u) :
    ∃ x y, t ++ u = "/v1/organizations/".toList ++ (x ++ y) ∧ IsUuid x ∧
      (EndsSegment y ∨ y = ['\n']) := by
  obtain ⟨_, _, rfl, h₁, x, _, rfl, hx, y, _, rfl, hy, rfl⟩ := h
  rw [Re.consumes_lit] at h₁
  refine ⟨x, y ++ u, by simp [h₁], Re.consumes_times.mp hx, ?_⟩
  simpa using consumes_slashOrEnd hy

theorem first_uuidRe {x u : List Char} (hx : IsUuid x) :
    uuidRe.First (x ++ u) ⟨x, [(1, x)], u⟩ := (Re.First.times hx.1 hx.2).group 1

theorem extractOrgId_uuid {path : String} {x u : List Char} (hx : IsUuid x) (hu : EndsSegment u)
    (hp : path.toList = "/v1/organizations/".toList ++ (x ++ u)) :
    extractOrgId path = some (String.ofList x) := by
  obtain ⟨m, hm, -⟩ := first_slashOrEnd hu
  have horg := (Re.First.lit "/v1/organizations/" (x ++ u)).catCons
    ((first_uuidRe hx).catCons (hm.catCons (.catNil _)))
  have hpre := (Re.First.lit "/v1/organizations/" (x ++ u)).catCons
    ((first_uuidRe hx).catCons (.catNil _))
  rw [← hp] at horg hpre
  rw [extractOrgId, orgPathRe, horg.matchStart, hpre.matchStart]
  simp [Match.append, Match.group]

theorem extractOrgId_not_uuid {path : String} {x u : List Char}
    (hx : ∀ c ∈ x, notSlash c = true) (hn : ¬ IsUuid x)
    (hp : path.toList = "/v1/organizations/".toList ++ (x ++ '/' :: u)) :
    extractOrgId path = none := by
  have h : orgPathRe.matchStart path = none := by
    rw [Re.matchStart_eq_none]
    intro t v htv hc
    obtain ⟨x', y, he, hx', hy⟩ := orgPath_consumes hc
    have hseg : ∀ c ∈ x', notSlash c = true := fun c hc => notSlash_of_uuidChar (hx'.2 c hc)
    have he : x' ++ y = x ++ '/' :: u := by
      rw [← htv, hp] at he
      exact (List.append_cancel_left he).symm
    rcases hy with hy | rfl
    · have := (segment_unique hseg hx hy (endsSegment_slash u) he).1
      exact hn (this ▸ hx')
    · -- the newline that `$` tolerates cannot stand before a slash
      have hmem : '/' ∈ x' ++ ['\n'] := by rw [he]; simp
      rcases List.mem_append.mp hmem with hm | hm
      · exact absurd (hseg _ hm) (by decide)
      · simp at hm
  rw [extractOrgId, h]

theorem extractOrgId_other {path : String} {x u : List Char} (hx : ∀ c ∈ x, notSlash c = true)
    (hn : x ≠ "organizations".toList) (hp : path.toList = "/v1/".toList ++ (x ++ '/' :: u)) :
    extractOrgId path = none := by
  have h : orgPathRe.matchStart path = none := by
    rw [Re.matchStart_eq_none]
    intro t v htv hc
    obtain ⟨x', y, he, -⟩ := orgPath_consumes hc
    rw [← htv, hp] at he
    have he : "/v1/".toList ++ (x ++ '/' :: u) =
        "/v1/".toList ++ ("organizations".toList ++ '/' :: (x' ++ y)) := by
      simpa using he
    exact hn (topLevel_unique hx (by decide) he)
  rw [extractOrgId, h]

/-! The resource a path names. -/

theorem topLevelResource_match {path : String} {x y u : List Char} (hx : IsSegment x)
    (hy : IsSegment y) (hu : EndsSegment u)
    (hp : path.toList = "/v1/".toList ++ (x ++ '/' :: (y ++ u))) :
    ∃ m, topLevelResourceRe.matchStart path = some m ∧ m.group 1 = String.ofList x ∧
      m.group 2 = String.ofList y := by
  obtain ⟨m, hm, -⟩ := first_slashOrEnd hu
  have h := (Re.First.lit "/v1/" _).catCons
    (((first_seg hx (endsSegment_slash (y ++ u))).group 1).catCons
      ((Re.First.lit "/" (y ++ u)).catCons (((first_seg hy hu).group 2).catCons
        (hm.catCons (.catNil _)))))
  rw [← hp] at h
  exact ⟨_, h.matchStart, by simp [Match.append, Match.group],
    by simp [Match.append, Match.group, List.lookup_cons]⟩

theorem flowResource_none {path : String} {x u : List Char} (hx : ∀ c ∈ x, notSlash c = true)
    (hn : x ≠ "flows".toList) (hp : path.toList = "/v1/".toList ++ (x ++ '/' :: u)) :
    flowResourceRe.matchStart path = none := by
  rw [Re.matchStart_eq_none]
  rintro t v htv ⟨t₁, t₂, rfl, h₁, -⟩
  rw [Re.consumes_lit] at h₁
  subst h₁
  rw [hp] at htv
  have he : "/v1/".toList ++ (x ++ '/' :: u) =
      "/v1/".toList ++ ("flows".toList ++ '/' :: (t₂ ++ v)) := by
    simpa using htv
  exact hn (topLevel_unique hx (by decide) he)

/-- The two kinds of Canvas resource that `resolve_resource_lookup` knows. -/
def canvasKinds : List String := ["platforms", "program-bindings"]

/-- A path below `/v1/integrations/canvas/{kind}/{id}`. -/
def NamesCanvas (path : List Char) (kind : String) : Prop :=
  ∃ x u, IsSegment x ∧ EndsSegment u ∧
    path = ("/v1/integrations/canvas/" ++ kind ++ "/").toList ++ (x ++ u)

def canvasRe (kind : String) : Re :=
  .cat [.lit ("/v1/integrations/canvas/" ++ kind ++ "/"), .group 1 seg, slashOrEnd]

theorem canvasPlatformResourceRe_eq : canvasPlatformResourceRe = canvasRe "platforms" :=
  congrArg (fun w => Re.cat [.lit w, .group 1 seg, slashOrEnd]) (by decide)

theorem canvasBindingResourceRe_eq : canvasBindingResourceRe = canvasRe "program-bindings" :=
  congrArg (fun w => Re.cat [.lit w, .group 1 seg, slashOrEnd]) (by decide)

theorem canvasRe_isSome {kind path : String} :
    ((canvasRe kind).matchStart path).isSome ↔ NamesCanvas path.toList kind := by
  constructor
  · intro h
    by_contra hn
    rw [Option.isSome_iff_ne_none] at h
    refine h (Re.matchStart_eq_none.mpr ?_)
    rintro t u htu ⟨_, _, rfl, h₁, x, _, rfl, hx, y, _, rfl, hy, rfl⟩
    rw [Re.consumes_lit] at h₁
    have hx : IsSegment x := consumes_seg.mp hx
    rcases consumes_slashOrEnd hy with hy | hy
    · exact hn ⟨x, y ++ u, hx, by simpa using hy, by simpa [h₁] using htu⟩
    · -- a newline before the end belongs to the segment
      refine hn ⟨x ++ ['\n'], [], ⟨by simp, ?_⟩, endsSegment_nil, ?_⟩
      · intro c hc
        rcases List.mem_append.mp hc with hc | hc
        · exact hx.2 c hc
        · obtain rfl := List.mem_singleton.mp hc
          decide
      · have hyu : y ++ u = ['\n'] := by simpa using hy
        simpa [h₁, hyu] using htu
  · rintro ⟨x, u, hx, hu, hp⟩
    obtain ⟨m, hm, -⟩ := first_slashOrEnd hu
    have h := (Re.First.lit ("/v1/integrations/canvas/" ++ kind ++ "/") _).catCons
      (((first_seg hx hu).group 1).catCons (hm.catCons (.catNil _)))
    rw [← hp] at h
    rw [canvasRe, h.matchStart]
    rfl

theorem NamesCanvas.integrations {path x u : List Char} {kind : String}
    (h : NamesCanvas path kind) (hx : ∀ c ∈ x, notSlash c = true)
    (hp : path = "/v1/".toList ++ (x ++ '/' :: u)) : x = "integrations".toList := by
  obtain ⟨y, v, -, -, he⟩ := h
  rw [hp] at he
  have he : "/v1/".toList ++ (x ++ '/' :: u) = "/v1/".toList ++ ("integrations".toList ++ '/' ::
      ("canvas/".toList ++ (kind.toList ++ '/' :: (y ++ v)))) := by
    simpa using he
  exact topLevel_unique hx (by decide) he

theorem canvasRe_none {kind path : String} (h : ¬ NamesCanvas path.toList kind) :
    (canvasRe kind).matchStart path = none := by
  rw [← Option.not_isSome_iff_eq_none, canvasRe_isSome]
  exact h

/-- Outside the flow and Canvas routes, the lookup table decides. -/
theorem resolveResourceLookup_table {path : String} {x y u : List Char} (hx : IsSegment x)
    (hy : IsSegment y) (hu : EndsSegment u)
    (hp : path.toList = "/v1/".toList ++ (x ++ '/' :: (y ++ u))) (hflows : x ≠ "flows".toList)
    (hcanvas : ∀ kind ∈ canvasKinds, ¬ NamesCanvas path.toList kind)
    (hn : resourceLookupMap.lookup (String.ofList x) = none) :
    resolveResourceLookup path = none := by
  have h₁ := canvasRe_none (hcanvas "platforms" (by decide))
  have h₂ := canvasRe_none (hcanvas "program-bindings" (by decide))
  have h₃ := flowResource_none hx.2 hflows hp
  obtain ⟨m, h₄, hm, -⟩ := topLevelResource_match hx hy hu hp
  simp only [resolveResourceLookup, canvasPlatformResourceRe_eq, canvasBindingResourceRe_eq, h₁, h₂,
    h₃, h₄, hm, hn]

theorem resolveResourceLookup_ne_none {path : String} {x y u : List Char} {l : ResourceLookup}
    (hx : IsSegment x) (hy : IsSegment y) (hu : EndsSegment u)
    (hp : path.toList = "/v1/".toList ++ (x ++ '/' :: (y ++ u)))
    (hl : resourceLookupMap.lookup (String.ofList x) = some l)
    (hr : String.ofList y ∉ l.reservedSegments) : resolveResourceLookup path ≠ none := by
  obtain ⟨m, hm, hm₁, hm₂⟩ := topLevelResource_match hx hy hu hp
  unfold resolveResourceLookup
  split
  · simp
  · split
    · simp
    · split
      · simp
      · simp [hm, hm₁, hm₂, hl, hr]

theorem resolveResourceLookup_canvas {path kind : String} (hk : kind ∈ canvasKinds)
    (h : NamesCanvas path.toList kind) : resolveResourceLookup path ≠ none := by
  have hs := canvasRe_isSome.mpr h
  obtain ⟨m, hm⟩ := Option.isSome_iff_exists.mp hs
  rw [resolveResourceLookup, canvasPlatformResourceRe_eq, canvasBindingResourceRe_eq]
  split
  · simp
  · rename_i h₁
    split
    · simp
    · rename_i h₂
      rcases List.mem_pair.mp hk with rfl | rfl
      · exact absurd (h₁.symm.trans hm) (by simp)
      · exact absurd (h₂.symm.trans hm) (by simp)

end Marty.Gateway.Paths
