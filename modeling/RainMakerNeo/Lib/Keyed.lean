import Mathlib.Algebra.GroupWithZero.Nat
import Mathlib.Data.List.Nodup
import Mathlib.Algebra.Order.Group.Nat

/-!
# `RainMakerNeo.Lib.Keyed`: lists whose entries have distinct keys

A linked list that a program changes through pointers is a list of entries with a key each, the
address. `modifyKey` writes through a pointer and `eraseKey` unlinks an entry. While the keys are
distinct, both touch one place only (`exists_split`), so a count over the list changes by what
happens at that place.
-/

set_option autoImplicit false

namespace RainMakerNeo.Lib

variable {α β κ : Type*} [DecidableEq κ]

/-- Write `f` into the entries with the key `k`. -/
def modifyKey (key : α → κ) (k : κ) (f : α → α) (l : List α) : List α :=
  l.map fun x => if key x = k then f x else x

/-- Unlink the entries with the key `k`. -/
def eraseKey (key : α → κ) (k : κ) (l : List α) : List α :=
  l.filter fun x => key x ≠ k

variable {key : α → κ} {k : κ} {f : α → α} {l : List α} {x y : α}

theorem mem_modifyKey :
    y ∈ modifyKey key k f l ↔ ∃ x ∈ l, (if key x = k then f x else x) = y := List.mem_map

theorem mem_modifyKey_of_ne (hx : x ∈ l) (hk : key x ≠ k) : x ∈ modifyKey key k f l :=
  mem_modifyKey.mpr ⟨x, hx, if_neg hk⟩

theorem mem_modifyKey_self (hx : x ∈ l) (hk : key x = k) : f x ∈ modifyKey key k f l :=
  mem_modifyKey.mpr ⟨x, hx, if_pos hk⟩

theorem mem_eraseKey : x ∈ eraseKey key k l ↔ x ∈ l ∧ key x ≠ k := by
  rw [eraseKey, List.mem_filter, decide_eq_true_eq]

/-- A field that `f` does not write is the same all along the list. -/
theorem map_modifyKey (g : α → β) (hg : ∀ x, g (f x) = g x) :
    (modifyKey key k f l).map g = l.map g := by
  rw [modifyKey, List.map_map]
  refine List.map_congr_left fun x _ => ?_
  rw [Function.comp_apply]
  split
  · exact hg x
  · rfl

/-- Two writes through one pointer are one write. -/
theorem modifyKey_modifyKey (g : α → α) (hf : ∀ x, key (f x) = key x) :
    modifyKey key k g (modifyKey key k f l) = modifyKey key k (fun x => g (f x)) l := by
  rw [modifyKey, modifyKey, modifyKey, List.map_map]
  refine List.map_congr_left fun x _ => ?_
  rw [Function.comp_apply]
  by_cases hx : key x = k
  · rw [if_pos hx, if_pos hx, if_pos ((hf x).trans hx)]
  · rw [if_neg hx, if_neg hx, if_neg hx]

theorem modifyKey_of_forall_ne (h : ∀ x ∈ l, key x ≠ k) : modifyKey key k f l = l := by
  rw [modifyKey]
  conv_rhs => rw [← List.map_id l]
  exact List.map_congr_left fun x hx => if_neg (h x hx)

theorem eraseKey_of_forall_ne (h : ∀ x ∈ l, key x ≠ k) : eraseKey key k l = l := by
  rw [eraseKey, List.filter_eq_self]
  intro x hx
  exact decide_eq_true (h x hx)

omit [DecidableEq κ] in
/-- With distinct keys, equal keys are equal entries. -/
theorem eq_of_key_eq (h : (l.map key).Nodup) (hx : x ∈ l) (hy : y ∈ l) (hk : key x = key y) :
    x = y :=
  List.inj_on_of_nodup_map h hx hy hk

/-- With distinct keys, a write and an unlink happen at one place of the list. -/
theorem exists_split (h : (l.map key).Nodup) (hx : x ∈ l) :
    ∃ l₁ l₂, l = l₁ ++ x :: l₂ ∧ eraseKey key (key x) l = l₁ ++ l₂ ∧
      ∀ f, modifyKey key (key x) f l = l₁ ++ f x :: l₂ := by
  obtain ⟨l₁, l₂, rfl⟩ := List.append_of_mem hx
  rw [List.map_append, List.map_cons, List.nodup_middle, List.nodup_cons, List.mem_append] at h
  have h₁ : ∀ y ∈ l₁, key y ≠ key x :=
    fun y hy he => h.1 (.inl (he ▸ List.mem_map_of_mem hy))
  have h₂ : ∀ y ∈ l₂, key y ≠ key x :=
    fun y hy he => h.1 (.inr (he ▸ List.mem_map_of_mem hy))
  refine ⟨l₁, l₂, rfl, ?_, fun f => ?_⟩
  · have e₁ := eraseKey_of_forall_ne h₁
    have e₂ := eraseKey_of_forall_ne h₂
    rw [eraseKey] at e₁ e₂ ⊢
    rw [List.filter_append, List.filter_cons, if_neg (by simp), e₁, e₂]
  · have e₁ := modifyKey_of_forall_ne (f := f) h₁
    have e₂ := modifyKey_of_forall_ne (f := f) h₂
    rw [modifyKey] at e₁ e₂ ⊢
    rw [List.map_append, List.map_cons, if_pos rfl, e₁, e₂]

/-- A write changes a count by what it does to the one entry. -/
theorem countP_modifyKey (p : α → Bool) (h : (l.map key).Nodup) (hx : x ∈ l) :
    (modifyKey key (key x) f l).countP p + (if p x then 1 else 0)
      = l.countP p + if p (f x) then 1 else 0 := by
  obtain ⟨l₁, l₂, hl, -, hmod⟩ := exists_split h hx
  rw [hmod f, hl, List.countP_append, List.countP_append, List.countP_cons, List.countP_cons]
  omega

/-- An unlink takes the one entry out of a count. -/
theorem countP_eraseKey (p : α → Bool) (h : (l.map key).Nodup) (hx : x ∈ l) :
    (eraseKey key (key x) l).countP p + (if p x then 1 else 0) = l.countP p := by
  obtain ⟨l₁, l₂, hl, herase, -⟩ := exists_split h hx
  rw [herase, hl, List.countP_append, List.countP_append, List.countP_cons]
  omega

/-- A write changes a sum by what it does to the one entry. -/
theorem sum_map_modifyKey (g : α → Nat) (h : (l.map key).Nodup) (hx : x ∈ l) :
    ((modifyKey key (key x) f l).map g).sum + g x = (l.map g).sum + g (f x) := by
  obtain ⟨l₁, l₂, hl, -, hmod⟩ := exists_split h hx
  rw [hmod f, hl, List.map_append, List.map_append, List.sum_append, List.sum_append,
    List.map_cons, List.map_cons, List.sum_cons, List.sum_cons]
  omega

/-- An unlink takes the one entry out of a sum. -/
theorem sum_map_eraseKey (g : α → Nat) (h : (l.map key).Nodup) (hx : x ∈ l) :
    ((eraseKey key (key x) l).map g).sum + g x = (l.map g).sum := by
  obtain ⟨l₁, l₂, hl, herase, -⟩ := exists_split h hx
  rw [herase, hl, List.map_append, List.map_append, List.sum_append, List.sum_append,
    List.map_cons, List.sum_cons]
  omega

/-- An unlink keeps the keys distinct. -/
theorem nodup_eraseKey (g : α → β) (h : (l.map g).Nodup) : ((eraseKey key k l).map g).Nodup :=
  (List.Sublist.map g List.filter_sublist).nodup h

end RainMakerNeo.Lib
