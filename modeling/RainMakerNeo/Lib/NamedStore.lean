import Mathlib.Logic.Function.Basic

/-!
# `RainMakerNeo.Lib.NamedStore`: a store of named tables

A store holds tables under names, and a table holds entries under keys. An operation that works
under one name (`WorksAt`) reads and changes only the table of that name. Two stores with the same
table under a name then go on with the same table under it (`foldl_congr`), and the operations under
other names can be left out (`foldl_filter`).
-/

set_option autoImplicit false

namespace RainMakerNeo.Lib

/-- Tables under names. A name without a table has `none`. -/
abbrev NamedStore (ν κ β : Type*) := ν → Option (κ → Option β)

namespace NamedStore

variable {ν κ β : Type*} [DecidableEq ν] [DecidableEq κ]

/-- The entry at `k` under the name `n`. -/
def get (s : NamedStore ν κ β) (n : ν) (k : κ) : Option β := (s n).bind fun t => t k

/-- The table under a name, where a missing one is empty. -/
def table (s : NamedStore ν κ β) (n : ν) : κ → Option β := (s n).getD fun _ => none

/-- Make sure that there is a table under the name `n`. -/
def create (s : NamedStore ν κ β) (n : ν) : NamedStore ν κ β :=
  Function.update s n (some (s.table n))

/-- Write an entry. -/
def set (s : NamedStore ν κ β) (n : ν) (k : κ) (b : β) : NamedStore ν κ β :=
  Function.update s n (some (Function.update (s.table n) k (some b)))

/-- Remove an entry. -/
def erase (s : NamedStore ν κ β) (n : ν) (k : κ) : NamedStore ν κ β :=
  Function.update s n ((s n).map fun t => Function.update t k none)

/-- Remove the entries under the name `n` and keep the empty table. -/
def eraseAll (s : NamedStore ν κ β) (n : ν) : NamedStore ν κ β :=
  Function.update s n ((s n).map fun _ _ => none)

variable {s s' : NamedStore ν κ β} {n m : ν} {k l : κ} {b c : β}

omit [DecidableEq ν] [DecidableEq κ] in
/-- `get` reads one table only. -/
theorem get_congr (h : s n = s' n) : s.get n k = s'.get n k := by
  rw [get, get, h]

omit [DecidableEq ν] [DecidableEq κ] in
theorem table_eq_get : s.table n k = s.get n k := by
  unfold table get
  cases s n <;> rfl

omit [DecidableEq κ] in
@[simp] theorem get_create : (s.create n).get m k = s.get m k := by
  by_cases hm : m = n
  · subst hm
    rw [get, create, Function.update_self, Option.bind_some, table_eq_get]
  · exact get_congr (Function.update_of_ne hm _ _)

@[simp] theorem get_set_self : (s.set n k b).get n k = some b := by
  rw [get, set, Function.update_self, Option.bind_some, Function.update_self]

@[simp] theorem get_set_of_ne (hl : l ≠ k) : (s.set n k b).get n l = s.get n l := by
  rw [get, set, Function.update_self, Option.bind_some, Function.update_of_ne hl, table_eq_get]

/-- An entry after a write is the new one or an old one. -/
theorem get_set_eq_some (h : (s.set n k b).get m l = some c) :
    m = n ∧ l = k ∧ c = b ∨ s.get m l = some c := by
  by_cases hm : m = n
  · subst hm
    by_cases hl : l = k
    · subst hl
      rw [get_set_self] at h
      exact .inl ⟨rfl, rfl, (Option.some.inj h).symm⟩
    · rw [get_set_of_ne hl] at h
      exact .inr h
  · have hother : (s.set n k b).get m l = s.get m l := get_congr (Function.update_of_ne hm _ _)
    exact .inr (hother.symm.trans h)

/-- An entry after a removal is an old one. -/
theorem get_of_get_erase (h : (s.erase n k).get m l = some c) : s.get m l = some c := by
  by_cases hm : m = n
  · subst hm
    rw [get, erase, Function.update_self] at h
    rw [get]
    cases hs : s m with
    | none =>
      rw [hs] at h
      cases h
    | some t =>
      rw [hs, Option.map_some, Option.bind_some] at h
      rw [Option.bind_some]
      by_cases hl : l = k
      · subst hl
        rw [Function.update_self] at h
        cases h
      · rwa [Function.update_of_ne hl] at h
  · have hother : (s.erase n k).get m l = s.get m l := get_congr (Function.update_of_ne hm _ _)
    exact hother.symm.trans h

omit [DecidableEq κ] in
/-- Removing all entries under a name leaves those under the other names. -/
theorem get_eraseAll : (s.eraseAll n).get m k = if m = n then none else s.get m k := by
  by_cases hm : m = n
  · subst hm
    rw [if_pos rfl, get, eraseAll, Function.update_self]
    cases s m <;> rfl
  · rw [if_neg hm]
    exact get_congr (Function.update_of_ne hm _ _)

omit [DecidableEq κ] in
@[simp] theorem get_eraseAll_self : (s.eraseAll n).get n k = none := by
  rw [get_eraseAll, if_pos rfl]

/-- An operation that reads and changes nothing but the table under `n`. -/
structure WorksAt (n : ν) (f : NamedStore ν κ β → NamedStore ν κ β) : Prop where
  frame : ∀ s m, m ≠ n → f s m = s m
  reads : ∀ s s', s n = s' n → f s n = f s' n

namespace WorksAt

variable {f g : NamedStore ν κ β → NamedStore ν κ β}

omit [DecidableEq ν] [DecidableEq κ] in
theorem id : WorksAt n fun s : NamedStore ν κ β => s :=
  ⟨fun _ _ _ => rfl, fun _ _ h => h⟩

omit [DecidableEq ν] [DecidableEq κ] in
theorem comp (hg : WorksAt n g) (hf : WorksAt n f) : WorksAt n fun s => g (f s) where
  frame s m hm := (hg.frame (f s) m hm).trans (hf.frame s m hm)
  reads s s' h := hg.reads (f s) (f s') (hf.reads s s' h)

omit [DecidableEq κ] in
theorem create : WorksAt n fun s : NamedStore ν κ β => s.create n where
  frame _ _ hm := Function.update_of_ne hm _ _
  reads s s' h := by
    simp only [NamedStore.create, Function.update_self, table, h]

theorem set : WorksAt n fun s : NamedStore ν κ β => s.set n k b where
  frame _ _ hm := Function.update_of_ne hm _ _
  reads s s' h := by
    simp only [NamedStore.set, Function.update_self, table, h]

omit [DecidableEq κ] in
theorem eraseAll : WorksAt n fun s : NamedStore ν κ β => s.eraseAll n where
  frame _ _ hm := Function.update_of_ne hm _ _
  reads s s' h := by
    simp only [NamedStore.eraseAll, Function.update_self, h]

omit [DecidableEq ν] [DecidableEq κ] in
/-- Stores that have the same table under a name still have the same one under it. -/
theorem congr (hf : WorksAt n f) (h : s m = s' m) : f s m = f s' m := by
  by_cases hm : m = n
  · subst hm
    exact hf.reads s s' h
  · rw [hf.frame s m hm, hf.frame s' m hm, h]

end WorksAt

section Runs

variable {α : Type*} {name : α → ν} {step : NamedStore ν κ β → α → NamedStore ν κ β}

omit [DecidableEq ν] [DecidableEq κ] in
/-- A run keeps the agreement of two stores on a table. -/
theorem foldl_congr (hstep : ∀ a, WorksAt (name a) fun s => step s a) (as : List α)
    (h : s m = s' m) : as.foldl step s m = as.foldl step s' m := by
  induction as generalizing s s' with
  | nil => exact h
  | cons a as ih => exact ih ((hstep a).congr h)

omit [DecidableEq κ] in
/-- The operations under other names do not matter to the table under `m`. -/
theorem foldl_filter (hstep : ∀ a, WorksAt (name a) fun s => step s a) (as : List α) :
    as.foldl step s m = (as.filter fun a => name a = m).foldl step s m := by
  induction as generalizing s with
  | nil => rfl
  | cons a as ih =>
    by_cases ha : name a = m
    · rw [List.filter_cons_of_pos (by simpa using ha)]
      exact ih
    · rw [List.filter_cons_of_neg (by simpa using ha)]
      -- the first operation leaves the table alone, and what follows only looks at the table
      show as.foldl step (step s a) m = _
      rw [← ih (s := s)]
      exact foldl_congr hstep as ((hstep a).frame s m (Ne.symm ha))

end Runs

end NamedStore

end RainMakerNeo.Lib
