import Mathlib.Data.List.Basic

/-! Regular expressions under the backtracking semantics of an anchored match.  A
pattern runs against the front of a string and lists its successes in the order in
which a greedy, left-to-right matcher tries them; a match is the first of them. -/

namespace Lib.Regex

inductive Re : Type
  | eps : Re
  | cls : (Char → Bool) → Re
  | seq : Re → Re → Re
  | alt : Re → Re → Re
  | many : (Char → Bool) → Re
  | eos : Re
  | group : Nat → Re → Re

/-- One success: the text consumed, the numbered groups and what is left. -/
structure Match where
  text : List Char
  groups : List (Nat × List Char)
  rest : List Char

def Match.append (m n : Match) : Match :=
  ⟨m.text ++ n.text, m.groups ++ n.groups, n.rest⟩

/-- The splits of a string at the front of which every character meets `p`, longest first. -/
def manyRun (p : Char → Bool) : List Char → List (List Char × List Char)
  | [] => [([], [])]
  | c :: s =>
    if p c then (manyRun p s).map (fun m => (c :: m.1, m.2)) ++ [([], c :: s)]
    else [([], c :: s)]

/-- `eos` is the `$` of a pattern without the multi-line flag: it also holds just
before a newline that ends the string. -/
def Re.run : Re → List Char → List Match
  | .eps, s => [⟨[], [], s⟩]
  | .cls _, [] => []
  | .cls p, c :: s => if p c then [⟨[c], [], s⟩] else []
  | .seq a b, s => (a.run s).flatMap fun m => (b.run m.rest).map m.append
  | .alt a b, s => a.run s ++ b.run s
  | .many p, s => (manyRun p s).map fun m => ⟨m.1, [], m.2⟩
  | .eos, s => if s = [] ∨ s = ['\n'] then [⟨[], [], s⟩] else []
  | .group n a, s => (a.run s).map fun m => { m with groups := (n, m.text) :: m.groups }

def Re.lits : List Char → Re
  | [] => .eps
  | c :: w => .seq (.cls (· == c)) (lits w)

def Re.lit (w : String) : Re := lits w.toList

def Re.cat : List Re → Re
  | [] => .eps
  | r :: rs => .seq r (cat rs)

def Re.many1 (p : Char → Bool) : Re := .seq (.cls p) (.many p)

def Re.times (p : Char → Bool) : Nat → Re
  | 0 => .eps
  | n + 1 => .seq (.cls p) (times p n)

def Re.opt (r : Re) : Re := .alt r .eps

def Re.oneOf : Re → List Re → Re
  | r, [] => r
  | r, r' :: rs => .alt r (oneOf r' rs)

/-- The match at the start of the string, as `re.match` returns it. -/
def Re.matchStart (r : Re) (s : String) : Option Match := (r.run s.toList).head?

def Re.test (r : Re) (s : String) : Bool := (r.matchStart s).isSome

def Match.group (m : Match) (n : Nat) : String :=
  String.ofList ((m.groups.lookup n).getD [])

/-- What a pattern consumes: `r.Consumes t u` when `r` can take `t` off the front of
`t ++ u`. -/
def Re.Consumes : Re → List Char → List Char → Prop
  | .eps, t, _ => t = []
  | .cls p, t, _ => ∃ c, p c = true ∧ t = [c]
  | .seq a b, t, u => ∃ t₁ t₂, t = t₁ ++ t₂ ∧ a.Consumes t₁ (t₂ ++ u) ∧ b.Consumes t₂ u
  | .alt a b, t, u => a.Consumes t u ∨ b.Consumes t u
  | .many p, t, _ => ∀ c ∈ t, p c = true
  | .eos, t, u => t = [] ∧ (u = [] ∨ u = ['\n'])
  | .group _ a, t, u => a.Consumes t u

theorem mem_manyRun {p : Char → Bool} {s : List Char} {m : List Char × List Char} :
    m ∈ manyRun p s ↔ s = m.1 ++ m.2 ∧ ∀ c ∈ m.1, p c = true := by
  induction s generalizing m with
  | nil =>
    obtain ⟨t, u⟩ := m
    simp only [manyRun, List.mem_singleton, Prod.mk.injEq]
    constructor
    · rintro ⟨rfl, rfl⟩
      simp
    · rintro ⟨h, -⟩
      simpa [eq_comm] using h
  | cons c s ih =>
    obtain ⟨t, u⟩ := m
    by_cases hc : p c = true
    · simp only [manyRun, hc, if_true, List.mem_append, List.mem_map, List.mem_singleton]
      constructor
      · rintro (⟨⟨t', u'⟩, hm, h⟩ | h)
        · obtain ⟨rfl, rfl⟩ := Prod.mk.injEq .. ▸ h
          obtain ⟨rfl, hp⟩ := ih.mp hm
          simpa [hc] using hp
        · obtain ⟨rfl, rfl⟩ := Prod.mk.injEq .. ▸ h
          simp
      · rintro ⟨h, hp⟩
        cases t with
        | nil => exact .inr (by simpa [eq_comm] using h)
        | cons d t =>
          obtain ⟨rfl, hs⟩ : c = d ∧ s = t ++ u := by simpa using h
          refine .inl ⟨(t, u), ih.mpr ⟨hs, fun x hx => hp x (List.mem_cons_of_mem _ hx)⟩, rfl⟩
    · simp only [manyRun, hc, if_false, List.mem_singleton, Prod.mk.injEq, Bool.false_eq_true]
      constructor
      · rintro ⟨rfl, rfl⟩
        simp
      · rintro ⟨h, hp⟩
        cases t with
        | nil => simpa [eq_comm] using h
        | cons d t =>
          obtain ⟨rfl, -⟩ : c = d ∧ s = t ++ u := by simpa using h
          exact absurd (hp c (by simp)) hc

/-- A success splits the string into what it consumed and what it left. -/
theorem Re.run_sound {r : Re} {s : List Char} {m : Match} (h : m ∈ r.run s) :
    s = m.text ++ m.rest ∧ r.Consumes m.text m.rest := by
  induction r generalizing s m with
  | eps => simp only [Re.run, List.mem_singleton] at h; subst h; simp [Re.Consumes]
  | cls p =>
    cases s with
    | nil => simp [Re.run] at h
    | cons c s =>
      simp only [Re.run] at h
      split at h
      · rename_i hc
        obtain rfl := List.mem_singleton.mp h
        exact ⟨rfl, c, hc, rfl⟩
      · simp at h
  | seq a b iha ihb =>
    simp only [Re.run, List.mem_flatMap, List.mem_map] at h
    obtain ⟨m₁, h₁, m₂, h₂, rfl⟩ := h
    obtain ⟨rfl, hc₁⟩ := iha h₁
    obtain ⟨hr, hc₂⟩ := ihb h₂
    rw [hr] at hc₁ ⊢
    exact ⟨by simp [Match.append], m₁.text, m₂.text, rfl, hc₁, hc₂⟩
  | alt a b iha ihb =>
    rcases List.mem_append.mp h with h | h
    · exact ⟨(iha h).1, .inl (iha h).2⟩
    · exact ⟨(ihb h).1, .inr (ihb h).2⟩
  | many p =>
    simp only [Re.run, List.mem_map] at h
    obtain ⟨m', hm, rfl⟩ := h
    exact mem_manyRun.mp hm
  | eos =>
    simp only [Re.run] at h
    split at h
    · rename_i hs
      obtain rfl := List.mem_singleton.mp h
      exact ⟨rfl, rfl, hs⟩
    · simp at h
  | group n a ih =>
    simp only [Re.run, List.mem_map] at h
    obtain ⟨m', hm, rfl⟩ := h
    exact ih (m := m') hm

/-- Every way to consume is among the successes. -/
theorem Re.run_complete {r : Re} {t u : List Char} (h : r.Consumes t u) :
    ∃ m ∈ r.run (t ++ u), m.text = t ∧ m.rest = u := by
  induction r generalizing t u with
  | eps =>
    obtain rfl : t = [] := h
    exact ⟨⟨[], [], u⟩, by simp [Re.run], rfl, rfl⟩
  | cls p =>
    obtain ⟨c, hc, rfl⟩ := h
    exact ⟨⟨[c], [], u⟩, by simp [Re.run, hc], rfl, rfl⟩
  | seq a b iha ihb =>
    obtain ⟨t₁, t₂, rfl, h₁, h₂⟩ := h
    obtain ⟨m₁, hm₁, rfl, hr₁⟩ := iha h₁
    obtain ⟨m₂, hm₂, rfl, rfl⟩ := ihb h₂
    refine ⟨m₁.append m₂, ?_, rfl, rfl⟩
    simp only [Re.run, List.mem_flatMap, List.mem_map]
    exact ⟨m₁, by simpa using hm₁, m₂, hr₁ ▸ hm₂, rfl⟩
  | alt a b iha ihb =>
    rcases h with h | h
    · obtain ⟨m, hm, he⟩ := iha h
      exact ⟨m, List.mem_append_left _ hm, he⟩
    · obtain ⟨m, hm, he⟩ := ihb h
      exact ⟨m, List.mem_append_right _ hm, he⟩
  | many p =>
    refine ⟨⟨t, [], u⟩, ?_, rfl, rfl⟩
    simp only [Re.run, List.mem_map]
    exact ⟨(t, u), mem_manyRun.mpr ⟨rfl, h⟩, rfl⟩
  | eos =>
    obtain ⟨rfl, hu⟩ := h
    exact ⟨⟨[], [], u⟩, by simp [Re.run, hu], rfl, rfl⟩
  | group n a ih =>
    obtain ⟨m, hm, rfl, rfl⟩ := ih h
    exact ⟨_, List.mem_map.mpr ⟨m, hm, rfl⟩, rfl, rfl⟩

theorem Re.run_ne_nil_iff {r : Re} {s : List Char} :
    r.run s ≠ [] ↔ ∃ t u, s = t ++ u ∧ r.Consumes t u := by
  constructor
  · intro h
    obtain ⟨m, hm⟩ := List.exists_mem_of_ne_nil _ h
    exact ⟨m.text, m.rest, Re.run_sound hm⟩
  · rintro ⟨t, u, rfl, h⟩
    obtain ⟨m, hm, -⟩ := Re.run_complete h
    exact List.ne_nil_of_mem hm

@[simp] theorem Re.consumes_lits {w t u : List Char} : (Re.lits w).Consumes t u ↔ t = w := by
  induction w generalizing t with
  | nil => rfl
  | cons c w ih =>
    simp only [Re.lits, Re.Consumes, beq_iff_eq, ih]
    constructor
    · rintro ⟨_, _, rfl, ⟨_, rfl, rfl⟩, rfl⟩
      rfl
    · rintro rfl
      exact ⟨[c], w, rfl, ⟨c, rfl, rfl⟩, rfl⟩

@[simp] theorem Re.consumes_lit {w : String} {t u : List Char} :
    (Re.lit w).Consumes t u ↔ t = w.toList := Re.consumes_lits

theorem Re.consumes_many1 {p : Char → Bool} {t u : List Char} :
    (Re.many1 p).Consumes t u ↔ t ≠ [] ∧ ∀ c ∈ t, p c = true := by
  simp only [Re.many1, Re.Consumes]
  constructor
  · rintro ⟨_, t, rfl, ⟨c, hc, rfl⟩, ht⟩
    simpa [hc] using ht
  · rintro ⟨hne, ht⟩
    cases t with
    | nil => exact absurd rfl hne
    | cons c t =>
      exact ⟨[c], t, rfl, ⟨c, ht c (by simp), rfl⟩, fun d hd => ht d (List.mem_cons_of_mem _ hd)⟩

theorem Re.consumes_times {p : Char → Bool} {n : Nat} {t u : List Char} :
    (Re.times p n).Consumes t u ↔ t.length = n ∧ ∀ c ∈ t, p c = true := by
  induction n generalizing t with
  | zero => simp +contextual [Re.times, Re.Consumes]
  | succ n ih =>
    simp only [Re.times, Re.Consumes, ih]
    constructor
    · rintro ⟨_, t, rfl, ⟨c, hc, rfl⟩, hn, ht⟩
      simpa [hc, hn] using ht
    · rintro ⟨hn, ht⟩
      cases t with
      | nil => simp at hn
      | cons c t =>
        refine ⟨[c], t, rfl, ⟨c, ht c (by simp), rfl⟩, by simpa using hn, ?_⟩
        exact fun d hd => ht d (List.mem_cons_of_mem _ hd)

theorem Re.matchStart_eq_none {r : Re} {s : String} :
    r.matchStart s = none ↔ ∀ t u, s.toList = t ++ u → ¬ r.Consumes t u := by
  rw [Re.matchStart, List.head?_eq_none_iff, ← not_ne_iff, Re.run_ne_nil_iff]
  push Not
  rfl

/-- `m` is the success that `re.match` reports. -/
def Re.First (r : Re) (s : List Char) (m : Match) : Prop := (r.run s).head? = some m

theorem Re.First.matchStart {r : Re} {s : String} {m : Match} (h : r.First s.toList m) :
    r.matchStart s = some m := h

theorem Re.First.seq {a b : Re} {s : List Char} {m n : Match} (ha : a.First s m)
    (hb : b.First m.rest n) : (Re.seq a b).First s (m.append n) := by
  obtain ⟨ms, hms⟩ := List.head?_eq_some_iff.mp ha
  obtain ⟨ns, hns⟩ := List.head?_eq_some_iff.mp hb
  simp [Re.First, Re.run, hms, hns]

theorem Re.First.catNil (s : List Char) : (Re.cat []).First s ⟨[], [], s⟩ := rfl

theorem Re.First.catCons {r : Re} {rs : List Re} {s : List Char} {m n : Match}
    (h : r.First s m) (hs : (Re.cat rs).First m.rest n) :
    (Re.cat (r :: rs)).First s (m.append n) := h.seq hs

theorem Re.First.lits (w s : List Char) : (Re.lits w).First (w ++ s) ⟨w, [], s⟩ := by
  induction w with
  | nil => rfl
  | cons c w ih =>
    have hc : (Re.cls (· == c)).First (c :: (w ++ s)) ⟨[c], [], w ++ s⟩ := by
      simp [Re.First, Re.run]
    exact hc.seq ih

theorem Re.First.lit (w : String) (s : List Char) :
    (Re.lit w).First (w.toList ++ s) ⟨w.toList, [], s⟩ := Re.First.lits _ _

theorem Re.First.many {p : Char → Bool} {t u : List Char} (ht : ∀ c ∈ t, p c = true)
    (hu : ∀ c ∈ u.head?, p c = false) : (Re.many p).First (t ++ u) ⟨t, [], u⟩ := by
  have h : (manyRun p (t ++ u)).head? = some (t, u) := by
    induction t with
    | nil =>
      cases u with
      | nil => rfl
      | cons c u => simp [manyRun, hu c (by simp)]
    | cons c t ih =>
      have ih := ih fun d hd => ht d (List.mem_cons_of_mem _ hd)
      obtain ⟨ms, hms⟩ := List.head?_eq_some_iff.mp ih
      simp [manyRun, ht c (by simp), hms]
  simp [Re.First, Re.run, h]

theorem Re.First.cls {p : Char → Bool} {c : Char} (hc : p c = true) (s : List Char) :
    (Re.cls p).First (c :: s) ⟨[c], [], s⟩ := by
  simp [Re.First, Re.run, hc]

theorem Re.First.many1 {p : Char → Bool} {t u : List Char} (hne : t ≠ [])
    (ht : ∀ c ∈ t, p c = true) (hu : ∀ c ∈ u.head?, p c = false) :
    (Re.many1 p).First (t ++ u) ⟨t, [], u⟩ := by
  cases t with
  | nil => exact absurd rfl hne
  | cons c t =>
    exact (Re.First.cls (ht c (by simp)) _).seq
      (Re.First.many (fun d hd => ht d (List.mem_cons_of_mem _ hd)) hu)

theorem Re.First.times {p : Char → Bool} {n : Nat} {t u : List Char} (hn : t.length = n)
    (ht : ∀ c ∈ t, p c = true) : (Re.times p n).First (t ++ u) ⟨t, [], u⟩ := by
  induction t generalizing n with
  | nil => subst hn; rfl
  | cons c t ih =>
    subst hn
    exact (Re.First.cls (ht c (by simp)) _).seq
      (ih rfl fun d hd => ht d (List.mem_cons_of_mem _ hd))

theorem Re.First.group {a : Re} {s : List Char} {m : Match} (n : Nat) (h : a.First s m) :
    (Re.group n a).First s { m with groups := (n, m.text) :: m.groups } := by
  have h : (a.run s).head? = some m := h
  simp [Re.First, Re.run, h]

theorem Re.First.altLeft {a : Re} {s : List Char} {m : Match} (h : a.First s m) (b : Re) :
    (Re.alt a b).First s m := by
  obtain ⟨ms, hms⟩ := List.head?_eq_some_iff.mp h
  simp [Re.First, Re.run, hms]

end Lib.Regex
