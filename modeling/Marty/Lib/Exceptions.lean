import Mathlib.Data.List.Forall2

/-! Exceptions, of which some are caught.  A computation escapes with one that is not. -/

universe u v

namespace Lib.Exceptions

variable {ε : Type u} {α β : Type v}

section results

variable {r : Except ε α} {f : α → Except ε β} {xs : List α} {ys : List β}

@[simp] theorem ok_bind (a : α) (f : α → Except ε β) : (.ok a >>= f) = f a := rfl

@[simp] theorem error_bind (e : ε) (f : α → Except ε β) : (.error e >>= f) = .error e := rfl

@[simp] theorem pure_eq_ok (a : α) : (pure a : Except ε α) = .ok a := rfl

theorem bind_eq_ok {b : β} : (r >>= f) = .ok b ↔ ∃ a, r = .ok a ∧ f a = .ok b := by
  cases r with
  | error e => simp
  | ok a => simp

theorem mapM_eq_ok : xs.mapM f = .ok ys ↔ List.Forall₂ (fun x y => f x = .ok y) xs ys := by
  induction xs generalizing ys with
  | nil =>
    rw [List.mapM_nil, List.forall₂_nil_left_iff, pure_eq_ok, Except.ok.injEq]
    exact eq_comm
  | cons x xs ih =>
    simp only [List.mapM_cons, bind_eq_ok, ih, List.forall₂_cons_left_iff, pure_eq_ok,
      Except.ok.injEq]
    constructor
    · rintro ⟨y, hy, ys', hys, rfl⟩
      exact ⟨y, ys', hy, hys, rfl⟩
    · rintro ⟨y, ys', hy, hys, rfl⟩
      exact ⟨y, hy, ys', hys, rfl⟩

/-- Every element has its result. -/
theorem exists_of_mem_left {x : α} (h : xs.mapM f = .ok ys) (hx : x ∈ xs) :
    ∃ y ∈ ys, f x = .ok y := by
  rw [mapM_eq_ok] at h
  induction h with
  | nil => cases hx
  | cons hy _ ih =>
    cases hx with
    | head => exact ⟨_, List.mem_cons_self, hy⟩
    | tail _ hx =>
      obtain ⟨y, hmem, hy⟩ := ih hx
      exact ⟨y, List.mem_cons_of_mem _ hmem, hy⟩

/-- Every result is that of an element. -/
theorem exists_of_mem_right {y : β} (h : xs.mapM f = .ok ys) (hy : y ∈ ys) :
    ∃ x ∈ xs, f x = .ok y := by
  rw [mapM_eq_ok] at h
  induction h with
  | nil => cases hy
  | cons hx _ ih =>
    cases hy with
    | head => exact ⟨_, List.mem_cons_self, hx⟩
    | tail _ hy =>
      obtain ⟨x, hmem, hx⟩ := ih hy
      exact ⟨x, List.mem_cons_of_mem _ hmem, hx⟩

theorem exists_mapM_eq_ok : (∃ ys, xs.mapM f = .ok ys) ↔ ∀ x ∈ xs, ∃ y, f x = .ok y := by
  induction xs with
  | nil => exact iff_of_true ⟨[], rfl⟩ (by simp)
  | cons x xs ih =>
    rw [List.mapM_cons, List.forall_mem_cons, ← ih]
    simp only [bind_eq_ok, pure_eq_ok, Except.ok.injEq]
    constructor
    · rintro ⟨_, y, hy, ys, hys, -⟩
      exact ⟨⟨y, hy⟩, ys, hys⟩
    · rintro ⟨⟨y, hy⟩, ys, hys⟩
      exact ⟨_, y, hy, ys, hys, rfl⟩

theorem forM_eq_ok {g : α → Except ε PUnit} :
    xs.forM g = .ok ⟨⟩ ↔ ∀ x ∈ xs, g x = .ok ⟨⟩ := by
  induction xs with
  | nil => exact iff_of_true rfl (by simp)
  | cons x xs ih =>
    rw [List.forM, bind_eq_ok, List.forall_mem_cons, ← ih]
    constructor
    · rintro ⟨_, hx, h⟩
      exact ⟨hx, h⟩
    · rintro ⟨hx, h⟩
      exact ⟨_, hx, h⟩

theorem exists_error : (∃ e, r = .error e) ↔ ¬ ∃ a, r = .ok a := by
  cases r <;> simp

theorem anyM_eq_false {p : α → Except ε Bool} {xs : List α} :
    xs.anyM p = .ok false ↔ ∀ x ∈ xs, p x = .ok false := by
  induction xs with
  | nil => simp
  | cons x xs ih =>
    rw [List.anyM, bind_eq_ok, List.forall_mem_cons, ← ih]
    constructor
    · rintro ⟨b, hb, h⟩
      cases b with
      | true => cases h
      | false => exact ⟨hb, h⟩
    · rintro ⟨hb, h⟩
      exact ⟨false, hb, h⟩

end results

/-- `try: ... except caught as e: ...` -/
def handle (caught : ε → Bool) (recover : ε → α) : Except ε α → Except ε α
  | .ok a => .ok a
  | .error e => if caught e then .ok (recover e) else .error e

/-- An exception that is not caught is raised. -/
def Escapes (caught : ε → Bool) (r : Except ε α) : Prop := ∃ e, r = .error e ∧ caught e = false

section escapes

variable {caught : ε → Bool} {r : Except ε α} {f : α → Except ε β} {xs : List α}

@[simp] theorem escapes_ok (a : α) : ¬ Escapes caught (.ok a) := by
  rintro ⟨e, h, -⟩
  cases h

@[simp] theorem escapes_error (e : ε) :
    Escapes caught (.error e : Except ε α) ↔ caught e = false := by
  constructor
  · rintro ⟨e', h, hcaught⟩
    cases h
    exact hcaught
  · exact fun h => ⟨e, rfl, h⟩

theorem Escapes.mono {caught' : ε → Bool} (h : Escapes caught' r)
    (hsub : ∀ e, caught e = true → caught' e = true) : Escapes caught r := by
  obtain ⟨e, he, hescapes⟩ := h
  refine ⟨e, he, Bool.eq_false_iff.mpr fun hcaught => ?_⟩
  rw [hsub e hcaught] at hescapes
  cases hescapes

theorem escapes_bind :
    Escapes caught (r >>= f) ↔ Escapes caught r ∨ ∃ a, r = .ok a ∧ Escapes caught (f a) := by
  cases r with
  | error e => simp
  | ok a => simp

/-- The first element at which an exception is raised raises one that is not caught. -/
def FirstEscapes (caught : ε → Bool) (f : α → Except ε β) (xs : List α) : Prop :=
  ∃ pre x post, xs = pre ++ x :: post ∧ (∀ y ∈ pre, ∃ z, f y = .ok z) ∧ Escapes caught (f x)

theorem escapes_mapM : Escapes caught (xs.mapM f) ↔ FirstEscapes caught f xs := by
  induction xs with
  | nil =>
    refine iff_of_false (escapes_ok _) ?_
    rintro ⟨pre, x, post, h, -⟩
    exact List.append_ne_nil_of_right_ne_nil pre (List.cons_ne_nil x post) h.symm
  | cons x xs ih =>
    simp only [List.mapM_cons, escapes_bind, pure_eq_ok, escapes_ok, and_false, exists_false,
      or_false, ih]
    constructor
    · rintro (hx | ⟨z, hz, pre, y, post, rfl, hpre, hy⟩)
      · exact ⟨[], x, xs, rfl, by simp, hx⟩
      · refine ⟨x :: pre, y, post, rfl, ?_, hy⟩
        exact List.forall_mem_cons.mpr ⟨⟨z, hz⟩, hpre⟩
    · rintro ⟨pre, y, post, h, hpre, hy⟩
      cases pre with
      | nil =>
        obtain ⟨rfl, -⟩ := List.cons.inj h
        exact .inl hy
      | cons x' pre =>
        obtain ⟨rfl, rfl⟩ := List.cons.inj h
        obtain ⟨hx, hpre⟩ := List.forall_mem_cons.mp hpre
        obtain ⟨z, hz⟩ := hx
        exact .inr ⟨z, hz, pre, y, post, rfl, hpre, hy⟩

theorem not_escapes_mapM (h : ∀ x ∈ xs, ¬ Escapes caught (f x)) : ¬ Escapes caught (xs.mapM f) := by
  rw [escapes_mapM]
  rintro ⟨pre, x, post, rfl, -, hx⟩
  exact h x (List.mem_append_right pre List.mem_cons_self) hx

theorem not_escapes_anyM {p : α → Except ε Bool} (h : ∀ x ∈ xs, ¬ Escapes caught (p x)) :
    ¬ Escapes caught (xs.anyM p) := by
  induction xs with
  | nil => exact escapes_ok false
  | cons x xs ih =>
    obtain ⟨hx, hxs⟩ := List.forall_mem_cons.mp h
    rw [List.anyM, escapes_bind, not_or]
    refine ⟨hx, ?_⟩
    rintro ⟨b, -, hb⟩
    cases b with
    | true => exact escapes_ok true hb
    | false => exact ih hxs hb

theorem not_escapes_forM {g : α → Except ε PUnit} (h : ∀ x ∈ xs, ¬ Escapes caught (g x)) :
    ¬ Escapes caught (xs.forM g) := by
  induction xs with
  | nil => exact escapes_ok _
  | cons x xs ih =>
    obtain ⟨hx, hxs⟩ := List.forall_mem_cons.mp h
    rw [List.forM, escapes_bind, not_or]
    exact ⟨hx, fun ⟨_, _, hrest⟩ => ih hxs hrest⟩

/-- What is left after the handler is what it does not catch. -/
theorem handle_eq_error {recover : ε → α} {e : ε} :
    handle caught recover r = .error e ↔ r = .error e ∧ caught e = false := by
  cases r with
  | ok a => simp [handle]
  | error e' =>
    rw [handle, Except.error.injEq]
    by_cases h : caught e' = true
    · rw [if_pos h]
      refine iff_of_false (fun h => nomatch h) ?_
      rintro ⟨rfl, hcaught⟩
      rw [h] at hcaught
      cases hcaught
    · rw [if_neg h, Except.error.injEq]
      rw [Bool.not_eq_true] at h
      exact ⟨fun heq => ⟨heq, heq ▸ h⟩, And.left⟩

theorem handle_eq_ok {recover : ε → α} {a : α} (hrecover : ∀ e, recover e ≠ a) :
    handle caught recover r = .ok a ↔ r = .ok a := by
  cases r with
  | ok a' => rfl
  | error e =>
    rw [handle]
    refine iff_of_false ?_ (fun h => nomatch h)
    split
    · exact fun h => hrecover e (Except.ok.inj h)
    · exact fun h => nomatch h

theorem handle_escapes {recover : ε → α} :
    (∃ e, handle caught recover r = .error e) ↔ Escapes caught r := by
  simp only [handle_eq_error, Escapes]

/-- Where nothing is caught, every exception escapes. -/
theorem escapes_false : Escapes (fun _ => false) r ↔ ∃ e, r = .error e := by
  simp [Escapes]

theorem escapes_unless {b : Bool} {a : α} :
    Escapes caught (if !b then .ok a else r) ↔ b = true ∧ Escapes caught r := by
  cases b <;> simp

theorem escapes_when {p : Prop} [Decidable p] {a : α} :
    Escapes caught (if p then r else .ok a) ↔ p ∧ Escapes caught r := by
  by_cases h : p
  · rw [if_pos h, and_iff_right h]
  · rw [if_neg h]
    exact iff_of_false (escapes_ok a) fun hp => h hp.1

end escapes

end Lib.Exceptions
