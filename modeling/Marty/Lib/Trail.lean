import Marty.Lib.Table

/-! Records that each keep a trail of what was done to them.  A key is drawn once, so that a record
with the key of an earlier one is that record at a later time. -/

universe u v w

namespace Lib.Trail

variable {α : Type u} {κ : Type v} {β : Type w} {key : α → κ} {trail : α → List β}
  {changed : α → α → Prop} {added : α → Prop} {issued : List κ} {rows rows' rows'' : List α}

/-- What an operation does to the records: it drops some, changes one in place, or adds one. -/
inductive Change [DecidableEq κ] (key : α → κ) (changed : α → α → Prop) (added : α → Prop)
    (rows : List α) : List α → Prop
  | keep : Change key changed added rows rows
  | drop (p : α → Bool) : Change key changed added rows (rows.filter p)
  | modify (k : κ) (f : α → α) : (∀ a ∈ rows, changed a (f a)) →
    Change key changed added rows (Table.modify key k f rows)
  | add (a : α) : added a → Change key changed added rows (rows ++ [a])

/-- The keys of the records have been drawn, each of them once. -/
structure Drawn (key : α → κ) (issued : List κ) (rows : List α) : Prop where
  mem : ∀ a ∈ rows, key a ∈ issued
  nodup : (rows.map key).Nodup

theorem Drawn.notMem {k : κ} (h : Drawn key issued rows) (hk : k ∉ issued) : k ∉ rows.map key := by
  rintro hmem
  obtain ⟨a, ha, rfl⟩ := List.mem_map.mp hmem
  exact hk (h.mem a ha)

/-- The trail of a record begins with the trail that it had. -/
def Grows (key : α → κ) (trail : α → List β) (rows rows' : List α) : Prop :=
  ∀ a ∈ rows, ∀ b ∈ rows', key b = key a → trail a <+: trail b

theorem Grows.refl (hnodup : (rows.map key).Nodup) : Grows key trail rows rows := by
  intro a ha b hb hkey
  obtain rfl := List.inj_on_of_nodup_map hnodup hb ha hkey
  exact List.prefix_rfl

section change

variable [DecidableEq κ] (h : Change key changed added rows rows')
include h

theorem Change.mem {b : α} (hb : b ∈ rows') :
    b ∈ rows ∨ (∃ a ∈ rows, changed a b) ∨ added b := by
  cases h with
  | keep => exact .inl hb
  | drop p => exact .inl (List.mem_of_mem_filter hb)
  | modify k f hf =>
    obtain ⟨a, ha, -, rfl⟩ | ⟨hb, -⟩ := Table.mem_modify.mp hb
    · exact .inr (.inl ⟨a, ha, hf a ha⟩)
    · exact .inl hb
  | add a ha =>
    obtain hb | hb := List.mem_append.mp hb
    · exact .inl hb
    · exact .inr (.inr (List.mem_singleton.mp hb ▸ ha))

/-- What changes keep and new records have, all records have. -/
theorem Change.forall {P : α → Prop} (hchanged : ∀ a b, changed a b → P a → P b)
    (hadded : ∀ a, added a → P a) (hrows : ∀ a ∈ rows, P a) : ∀ b ∈ rows', P b := by
  intro b hb
  obtain hb | ⟨a, ha, hab⟩ | hb := h.mem hb
  · exact hrows b hb
  · exact hchanged a b hab (hrows a ha)
  · exact hadded b hb

theorem Change.nodup_map {γ : Type*} {g : α → γ} (hchanged : ∀ a b, changed a b → g b = g a)
    (hadded : ∀ a, added a → g a ∉ rows.map g) (hnodup : (rows.map g).Nodup) :
    (rows'.map g).Nodup := by
  cases h with
  | keep => exact hnodup
  | drop p => exact hnodup.sublist (List.filter_sublist.map g)
  | modify k f hf =>
    rwa [Table.map_modify fun a ha _ => hchanged a (f a) (hf a ha)]
  | add a ha => exact Table.nodup_append_singleton hnodup (hadded a ha)

theorem Change.drawn {fresh : List κ} (hchanged : ∀ a b, changed a b → key b = key a)
    (hadded : ∀ a, added a → key a ∈ fresh) (hfresh : ∀ k ∈ fresh, k ∉ issued)
    (hdrawn : Drawn key issued rows) : Drawn key (fresh ++ issued) rows' where
  mem := by
    refine h.forall (fun a b hab ha => ?_) (fun a ha => ?_) fun a ha => ?_
    · rwa [hchanged a b hab]
    · exact List.mem_append_left _ (hadded a ha)
    · exact List.mem_append_right _ (hdrawn.mem a ha)
  nodup :=
    h.nodup_map hchanged (fun a ha => hdrawn.notMem (hfresh _ (hadded a ha))) hdrawn.nodup

/-- The records there were at an earlier time grow on. -/
theorem Change.grows {earlier : List α}
    (hchanged : ∀ a b, changed a b → key b = key a ∧ trail a <+: trail b)
    (hadded : ∀ a, added a → key a ∉ issued) (hissued : ∀ a ∈ earlier, key a ∈ issued)
    (hgrows : Grows key trail earlier rows) : Grows key trail earlier rows' := by
  intro a ha c hc hkey
  obtain hc | ⟨b, hb, hbc⟩ | hc := h.mem hc
  · exact hgrows a ha c hc hkey
  · obtain ⟨hbkey, hprefix⟩ := hchanged b c hbc
    exact (hgrows a ha b hb (hbkey.symm.trans hkey)).trans hprefix
  · exact absurd (hkey ▸ hissued a ha) (hadded c hc)

end change

/-- The steps of the trail lead from one status to the other. -/
def Leads (source target : β → κ) : κ → List β → κ → Prop
  | k, [], k' => k = k'
  | k, b :: bs, k' => source b = k ∧ Leads source target (target b) bs k'

theorem Leads.concat {source target : β → κ} {k k' : κ} {bs : List β} {b : β}
    (h : Leads source target k bs k') (hb : source b = k') :
    Leads source target k (bs ++ [b]) (target b) := by
  induction bs generalizing k with
  | nil => exact ⟨hb.trans h.symm, rfl⟩
  | cons a bs ih => exact ⟨h.1, ih h.2⟩

end Lib.Trail
