import Marty.Lib.Regex
import Marty.Lib.Text

/-! Patterns of paths.  A path is cut into cells at its slashes; a sketch says of each cell what a
pattern can have there, so that two patterns whose sketches do not meet match no common path. -/

namespace Lib.Route

open Lib.Regex

/-- What a pattern takes at one place.  `fixed` stands for a cell of a given length whose characters
meet a given predicate. -/
inductive Token
  | lit (w : String)
  | seg
  | fixed (group : Nat)
  | rest
  deriving DecidableEq

inductive Piece
  | one (token : Token)
  | opt (token : Token)
  | opts (tokens : List Token)
  | oneOf (w : String) (ws : List String)
  | group (n : Nat) (w : String) (ws : List String)
  deriving DecidableEq

section patterns

variable (p : Char → Bool) (n : Nat)

def Token.re : Token → Re
  | .lit w => .lit w
  | .seg => .many1 (· != '/')
  | .fixed group => .group group (.times p n)
  | .rest => .many (· != '\n')

def Piece.re : Piece → Re
  | .one token => token.re p n
  | .opt token => .opt (token.re p n)
  | .opts tokens => .opt (.cat (tokens.map (Token.re p n)))
  | .oneOf w ws => .oneOf (.lit w) (ws.map .lit)
  | .group k w ws => .group k (.oneOf (.lit w) (ws.map .lit))

/-- The pattern of a route ends with `$`. -/
def routeRe (route : List Piece) : Re := .cat (route.map (Piece.re p n) ++ [.eos])

end patterns

/-- The ways to go through a piece, or a route. -/
def Piece.ways : Piece → List (List Token)
  | .one token => [[token]]
  | .opt token => [[token], []]
  | .opts tokens => [tokens, []]
  | .oneOf w ws | .group _ w ws => (w :: ws).map fun w => [.lit w]

def ways : List Piece → List (List Token)
  | [] => [[]]
  | piece :: route => piece.ways.flatMap fun tokens => (ways route).map (tokens ++ ·)

def NoSlash (s : List Char) : Prop := ∀ c ∈ s, c ≠ '/'

instance (s : List Char) : Decidable (NoSlash s) := inferInstanceAs (Decidable (∀ c ∈ s, _))

section meaning

variable (p : Char → Bool) (n : Nat)

def Token.Takes : Token → List Char → Prop
  | .lit w, s => s = w.toList
  | .seg, s => s ≠ [] ∧ NoSlash s
  | .fixed _, s => s.length = n ∧ ∀ c ∈ s, p c = true
  | .rest, s => ∀ c ∈ s, c ≠ '\n'

def Takes : List Token → List Char → Prop
  | [], s => s = []
  | token :: tokens, s => ∃ t u, s = t ++ u ∧ token.Takes p n t ∧ Takes tokens u

end meaning

variable {p : Char → Bool} {n : Nat} {route route' : List Piece} {s t u : List Char}

theorem Token.consumes {token : Token} : (token.re p n).Consumes t u ↔ token.Takes p n t := by
  cases token with
  | lit w => exact Re.consumes_lit
  | seg => simp [Token.re, Token.Takes, Re.consumes_many1, NoSlash]
  | fixed group => exact Re.consumes_times
  | rest => simp [Token.re, Token.Takes, Re.Consumes]

theorem consumes_tokens {tokens : List Token} :
    (Re.cat (tokens.map (Token.re p n))).Consumes t u ↔ Takes p n tokens t := by
  induction tokens generalizing t with
  | nil => exact Iff.rfl
  | cons token tokens ih =>
    simp only [List.map_cons, Re.cat, Re.Consumes, Token.consumes, ih, Takes]

theorem consumes_oneOf {w : String} {ws : List String} :
    (Re.oneOf (.lit w) (ws.map .lit)).Consumes t u ↔ ∃ v ∈ w :: ws, t = v.toList := by
  induction ws generalizing w with
  | nil => simp [Re.oneOf]
  | cons v ws ih => simp [Re.oneOf, Re.Consumes, ih]

theorem Piece.consumes {piece : Piece} :
    (piece.re p n).Consumes t u ↔ ∃ tokens ∈ piece.ways, Takes p n tokens t := by
  cases piece with
  | one token => simp [Piece.re, Piece.ways, Takes, Token.consumes]
  | opt token => simp [Piece.re, Piece.ways, Takes, Token.consumes, Re.opt, Re.Consumes]
  | opts tokens => simp [Piece.re, Piece.ways, Takes, consumes_tokens, Re.opt, Re.Consumes]
  | oneOf w ws => simp [Piece.re, Piece.ways, Takes, Token.Takes, consumes_oneOf]
  | group k w ws => simp [Piece.re, Piece.ways, Takes, Token.Takes, Re.Consumes, consumes_oneOf]

theorem takes_append {tokens tokens' : List Token} :
    Takes p n (tokens ++ tokens') s ↔
      ∃ t u, s = t ++ u ∧ Takes p n tokens t ∧ Takes p n tokens' u := by
  induction tokens generalizing s with
  | nil => simp [Takes]
  | cons token tokens ih =>
    simp only [List.cons_append, Takes, ih]
    constructor
    · rintro ⟨x, _, rfl, hx, y, z, rfl, hy, hz⟩
      exact ⟨x ++ y, z, (List.append_assoc ..).symm, ⟨x, y, rfl, hx, hy⟩, hz⟩
    · rintro ⟨_, z, rfl, ⟨x, y, rfl, hx, hy⟩, hz⟩
      exact ⟨x, y ++ z, List.append_assoc .., hx, y, z, rfl, hy, hz⟩

/-- What `$` leaves. -/
def AtEnd (u : List Char) : Prop := u = [] ∨ u = ['\n']

theorem consumes_routeRe :
    (routeRe p n route).Consumes t u ↔ AtEnd u ∧ ∃ tokens ∈ ways route, Takes p n tokens t := by
  rw [routeRe]
  induction route generalizing t with
  | nil => simp [Re.cat, Re.Consumes, ways, Takes, AtEnd, and_comm]
  | cons piece route ih =>
    simp only [List.map_cons, List.cons_append, Re.cat, Re.Consumes, Piece.consumes, ih, ways,
      List.mem_flatMap, List.mem_map]
    constructor
    · rintro ⟨x, y, rfl, ⟨tokens, htokens, hx⟩, hu, tokens', htokens', hy⟩
      exact ⟨hu, _, ⟨tokens, htokens, tokens', htokens', rfl⟩, takes_append.mpr ⟨x, y, rfl, hx, hy⟩⟩
    · rintro ⟨hu, _, ⟨tokens, htokens, tokens', htokens', rfl⟩, h⟩
      obtain ⟨x, y, rfl, hx, hy⟩ := takes_append.mp h
      exact ⟨x, y, rfl, ⟨tokens, htokens, hx⟩, hu, tokens', htokens', hy⟩

theorem test_iff_consumes {r : Re} {path : String} :
    r.test path = true ↔ ∃ t u, path.toList = t ++ u ∧ r.Consumes t u := by
  rw [Re.test, Option.isSome_iff_ne_none, Ne, Re.matchStart_eq_none]
  push Not
  rfl

theorem test_iff {path : String} : (routeRe p n route).test path = true ↔
    ∃ tokens ∈ ways route, ∃ t u, path.toList = t ++ u ∧ Takes p n tokens t ∧ AtEnd u := by
  rw [test_iff_consumes]
  simp only [consumes_routeRe]
  constructor
  · rintro ⟨t, u, h, hu, tokens, htokens, ht⟩
    exact ⟨tokens, htokens, t, u, h, ht, hu⟩
  · rintro ⟨tokens, htokens, t, u, h, ht, hu⟩
    exact ⟨t, u, h, hu, tokens, htokens, ht⟩

/-! Sketches. -/

inductive Cell
  | lit (w : List Char)
  | any
  | fixed
  deriving DecidableEq

/-- `last` is the cell after which the path ends; after `anything` nothing is known. -/
inductive Sketch
  | last (cell : Cell)
  | slash (cell : Cell) (rest : Sketch)
  | anything
  deriving DecidableEq

/-- A cell with one more character. -/
def Cell.push (c : Char) : Cell → Cell
  | .lit w => .lit (w ++ [c])
  | .any | .fixed => .any

/-- Go on with a text in an unfinished cell. -/
def cutLit (k : Cell → Sketch) : List Char → Cell → Sketch
  | [], cell => k cell
  | c :: w, cell => if c = '/' then .slash cell (cutLit k w (.lit [])) else cutLit k w (cell.push c)

def cut : List Token → Cell → Sketch
  | [], cell => .last cell
  | .lit w :: tokens, cell => cutLit (cut tokens) w.toList cell
  | .seg :: tokens, _ => cut tokens .any
  | .fixed _ :: tokens, cell => if cell = .lit [] then cut tokens .fixed else .anything
  | .rest :: _, _ => .anything

def sketches (route : List Piece) : List Sketch :=
  (ways route).map fun tokens => cut tokens (.lit [])

section fits

variable (p : Char → Bool) (n : Nat)

def Cell.Holds : Cell → List Char → Prop
  | .lit w, s => s = w
  | .any, s => s ≠ []
  | .fixed, s => s.length = n ∧ ∀ c ∈ s, p c = true

/-- A newline may stand at the end. -/
def Sketch.Fits : Sketch → List Char → Prop
  | .last cell, s => NoSlash s ∧ ∃ t u, s = t ++ u ∧ AtEnd u ∧ cell.Holds p n t
  | .slash cell rest, s => ∃ t u, s = t ++ '/' :: u ∧ NoSlash t ∧ cell.Holds p n t ∧ rest.Fits u
  | .anything, _ => True

end fits

variable {cell : Cell} {k : Cell → Sketch}

theorem NoSlash.append (hs : NoSlash s) (ht : NoSlash t) : NoSlash (s ++ t) :=
  fun c hc => (List.mem_append.mp hc).elim (hs c) (ht c)

theorem noSlash_atEnd (h : AtEnd u) : NoSlash u := by
  rcases h with rfl | rfl
  · simp [NoSlash]
  · simp [NoSlash]

theorem Cell.holds_push {c : Char} (h : cell.Holds p n s) : (cell.push c).Holds p n (s ++ [c]) := by
  cases cell with
  | lit w => exact congrArg (· ++ [c]) h
  | any => exact List.append_ne_nil_of_right_ne_nil s (List.cons_ne_nil c [])
  | fixed => exact List.append_ne_nil_of_right_ne_nil s (List.cons_ne_nil c [])

theorem cutLit_fits {w : List Char} (hs : NoSlash s) (hcell : cell.Holds p n s)
    (hk : ∀ cell s, NoSlash s → cell.Holds p n s → (k cell).Fits p n (s ++ t)) :
    (cutLit k w cell).Fits p n (s ++ (w ++ t)) := by
  induction w generalizing cell s with
  | nil => exact hk cell s hs hcell
  | cons c w ih =>
    unfold cutLit
    split
    case isTrue hc =>
      exact ⟨s, w ++ t, by rw [hc]; rfl, hs, hcell, ih (s := []) (by simp [NoSlash]) rfl⟩
    case isFalse hc =>
      have hpush := ih (hs.append (by simpa [NoSlash] using hc)) (Cell.holds_push hcell)
      rwa [List.append_assoc] at hpush

/-- What the tokens take fits their sketch. -/
theorem cut_fits {tokens : List Token} (hslash : p '/' = false) (hs : NoSlash s)
    (hcell : cell.Holds p n s) (ht : Takes p n tokens t) (hu : AtEnd u) :
    (cut tokens cell).Fits p n (s ++ (t ++ u)) := by
  induction tokens generalizing cell s t with
  | nil =>
    obtain rfl : t = [] := ht
    exact ⟨hs.append (noSlash_atEnd hu), s, u, rfl, hu, hcell⟩
  | cons token tokens ih =>
    obtain ⟨x, y, rfl, hx, hy⟩ := ht
    cases token with
    | lit w =>
      obtain rfl : x = w.toList := hx
      rw [List.append_assoc]
      exact cutLit_fits hs hcell fun cell s hs hcell => ih hs hcell hy
    | seg =>
      have hany : Cell.any.Holds p n (s ++ x) := List.append_ne_nil_of_right_ne_nil s hx.1
      have hrest := ih (hs.append hx.2) hany hy
      rwa [List.append_assoc, ← List.append_assoc x] at hrest
    | fixed group =>
      unfold cut
      split
      case isFalse => trivial
      case isTrue hlit =>
        subst hlit
        obtain rfl : s = [] := hcell
        have hx' : NoSlash x := by
          rintro c hc rfl
          exact absurd (hslash.symm.trans (hx.2 _ hc)) (by decide)
        have hfixed : Cell.fixed.Holds p n x := hx
        have hrest := ih hx' hfixed hy
        rwa [List.nil_append, List.append_assoc]
    | rest => trivial

theorem exists_fits {path : String} (hslash : p '/' = false)
    (h : (routeRe p n route).test path = true) : ∃ k ∈ sketches route, k.Fits p n path.toList := by
  obtain ⟨tokens, htokens, t, u, hpath, ht, hu⟩ := test_iff.mp h
  refine ⟨_, List.mem_map_of_mem htokens, ?_⟩
  rw [hpath]
  exact cut_fits (s := []) hslash (by simp [NoSlash]) rfl ht hu

/-! Two sketches of one path. -/

section meets

variable (p : Char → Bool) (n : Nat)

/-- Two cells may have the same text. -/
def Cell.meets : Cell → Cell → Bool
  | .lit w, .lit v => w = v
  | .lit w, .fixed | .fixed, .lit w => w.length = n && w.all p
  | _, _ => true

/-- Two last cells may, where a newline may follow each. -/
def Cell.meetsLast : Cell → Cell → Bool
  | .lit w, .lit v => w = v || w = v ++ ['\n'] || v = w ++ ['\n']
  | _, _ => true

def Sketch.meets : Sketch → Sketch → Bool
  | .anything, _ | _, .anything => true
  | .last cell, .last cell' => cell.meetsLast cell'
  | .slash cell k, .slash cell' k' => cell.meets p n cell' && k.meets k'
  | .last _, .slash _ _ | .slash _ _, .last _ => false

/-- Two routes may match a common path. -/
def meet (route route' : List Piece) : Bool :=
  (sketches route).any fun k => (sketches route').any (k.meets p n)

end meets

theorem slash_unique (hs : NoSlash s) (ht : NoSlash t) {u v : List Char}
    (h : s ++ '/' :: u = t ++ '/' :: v) : s = t ∧ u = v := by
  rcases Text.join_eq_iff.mp h with h | ⟨w, rfl, -⟩ | ⟨w, rfl, -⟩
  · exact h
  · exact absurd rfl (ht '/' (by simp))
  · exact absurd rfl (hs '/' (by simp))

theorem Cell.meets_of_holds {cell' : Cell} (h : cell.Holds p n s) (h' : cell'.Holds p n s) :
    cell.meets p n cell' = true := by
  cases cell <;> cases cell' <;> simp_all [Cell.Holds, Cell.meets]

theorem Cell.meetsLast_of_holds {cell' : Cell} {u' t' : List Char} (hu : AtEnd u) (hu' : AtEnd u')
    (h : cell.Holds p n t) (h' : cell'.Holds p n t') (heq : t ++ u = t' ++ u') :
    cell.meetsLast cell' = true := by
  cases cell with
  | lit w =>
    cases cell' with
    | lit v =>
      obtain rfl : t = w := h
      obtain rfl : t' = v := h'
      rcases hu with rfl | rfl <;> rcases hu' with rfl | rfl <;> simp_all [Cell.meetsLast]
    | any | fixed => rfl
  | any | fixed => rfl

theorem Sketch.meets_of_fits {k k' : Sketch} (h : k.Fits p n s) (h' : k'.Fits p n s) :
    k.meets p n k' = true := by
  induction k generalizing k' s with
  | anything => rfl
  | last cell =>
    cases k' with
    | anything => rfl
    | last cell' =>
      obtain ⟨-, t, u, rfl, hu, hcell⟩ := h
      obtain ⟨-, t', u', heq, hu', hcell'⟩ := h'
      exact Cell.meetsLast_of_holds hu hu' hcell hcell' heq
    | slash cell' k' =>
      obtain ⟨t, u, rfl, -⟩ := h'
      exact absurd rfl (h.1 '/' (by simp))
  | slash cell k ih =>
    obtain ⟨t, u, rfl, ht, hcell, hk⟩ := h
    cases k' with
    | anything => rfl
    | last cell' => exact absurd rfl (h'.1 '/' (by simp))
    | slash cell' k' =>
      obtain ⟨t', u', heq, ht', hcell', hk'⟩ := h'
      obtain ⟨rfl, rfl⟩ := slash_unique ht ht' heq
      simp [Sketch.meets, Cell.meets_of_holds hcell hcell', ih hk hk']

theorem meet_of_test {path : String} (hslash : p '/' = false)
    (h : (routeRe p n route).test path = true) (h' : (routeRe p n route').test path = true) :
    meet p n route route' = true := by
  obtain ⟨k, hk, hfits⟩ := exists_fits hslash h
  obtain ⟨k', hk', hfits'⟩ := exists_fits hslash h'
  have hmeets := Sketch.meets_of_fits hfits hfits'
  exact List.any_eq_true.mpr ⟨k, hk, List.any_eq_true.mpr ⟨k', hk', hmeets⟩⟩

/-! A slash at the end. -/

/-- The last cell of a path that fits is not empty. -/
def Sketch.solid (n : Nat) : Sketch → Bool
  | .last (.lit w) => w ≠ []
  | .last .any => true
  | .last .fixed => n ≠ 0
  | .slash _ k => k.solid n
  | .anything => false

theorem Sketch.not_fits_of_solid {k : Sketch} (hsolid : k.solid n = true) :
    ¬ k.Fits p n [] ∧ ∀ s, ¬ k.Fits p n (s ++ ['/']) := by
  induction k with
  | anything => cases hsolid
  | last cell =>
    refine ⟨?_, fun s h => absurd rfl (h.1 '/' (by simp))⟩
    rintro ⟨-, t, u, h, -, hcell⟩
    obtain ⟨rfl, rfl⟩ := List.append_eq_nil_iff.mp h.symm
    cases cell <;> simp_all [Sketch.solid, Cell.Holds]
  | slash cell k ih =>
    obtain ⟨hnil, hslash⟩ := ih hsolid
    refine ⟨?_, ?_⟩
    · rintro ⟨t, u, h, -⟩
      simp at h
    · rintro s ⟨t, u, h, ht, -, hk⟩
      rcases List.eq_nil_or_concat u with rfl | ⟨u, c, rfl⟩
      · exact hnil hk
      · have hlast : s ++ ['/'] = (t ++ '/' :: u) ++ [c] := by
          simpa using h
        obtain rfl := List.singleton_inj.mp (List.append_inj' hlast rfl).2
        exact hslash u (by simpa using hk)

theorem not_test_slash {path : String} (hslash : p '/' = false)
    (hsolid : (sketches route).all (Sketch.solid n) = true) :
    (routeRe p n route).test (path ++ "/") = false := by
  rw [Bool.eq_false_iff]
  intro h
  obtain ⟨k, hk, hfits⟩ := exists_fits hslash h
  rw [String.toList_append] at hfits
  exact (Sketch.not_fits_of_solid (List.all_eq_true.mp hsolid k hk)).2 _ hfits

end Lib.Route
