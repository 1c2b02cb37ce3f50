import Mathlib.Data.List.Dedup
import Mathlib.Order.Basic

/-!
# `RainMakerNeo.Lib.Runs`: the runs of equal keys in a list

A loop over a list that is sorted by a key can treat each run of equal keys as one group. `runs`
cuts the list where the key changes, as such a loop does. `groups` collects the elements of each key
from the whole list. `runs_eq_groups` says that the two agree on a list that the key sorts.
-/

set_option autoImplicit false

namespace RainMakerNeo.Lib

variable {α κ : Type*} [DecidableEq κ] (key : α → κ)

/-- An element joins the first run where the keys agree, else it starts a run. -/
def addToRuns (x : α) : List (κ × List α) → List (κ × List α)
  | (k, xs) :: rest => if k = key x then (k, x :: xs) :: rest else (key x, [x]) :: (k, xs) :: rest
  | [] => [(key x, [x])]

/-- The runs of equal keys. -/
def runs : List α → List (κ × List α)
  | [] => []
  | x :: l => addToRuns key x (runs l)

/-- The elements of each key. -/
def groups (l : List α) : List (κ × List α) :=
  (l.map key).dedup.map fun k => (k, l.filter fun x => key x = k)

variable {key}

/-- The first run of a list starts with its first element. -/
theorem runs_cons (key : α → κ) (x : α) (l : List α) :
    ∃ xs rest, runs key (x :: l) = (key x, x :: xs) :: rest := by
  rw [runs]
  cases runs key l with
  | nil => exact ⟨[], [], rfl⟩
  | cons run rest =>
    obtain ⟨k, xs⟩ := run
    rw [addToRuns]
    split
    · next h =>
      rw [h]
      exact ⟨xs, rest, rfl⟩
    · exact ⟨[], (k, xs) :: rest, rfl⟩

variable {x : α} {l : List α}

/-- An element with another key is in no group of the keys. -/
theorem map_group_cons {ks : List κ} (h : key x ∉ ks) (l : List α) :
    (ks.map fun k => (k, (x :: l).filter fun y => key y = k)) =
      ks.map fun k => (k, l.filter fun y => key y = k) := by
  refine List.map_congr_left ?_
  intro k hk
  have hne : key x ≠ k := fun heq => h (heq ▸ hk)
  rw [List.filter_cons_of_neg (by simpa using hne)]

/-- An element with the key of the first group joins that group. -/
theorem groups_cons_of_mem {xs : List α} {rest : List (κ × List α)} (hx : key x ∈ l.map key)
    (h : groups key l = (key x, xs) :: rest) : groups key (x :: l) = (key x, x :: xs) :: rest := by
  have hnodup := List.nodup_dedup (l.map key)
  rw [groups] at h
  rw [groups, List.map_cons, List.dedup_cons_of_mem hx]
  cases hks : (l.map key).dedup with
  | nil =>
    rw [hks] at h
    cases h
  | cons k ks =>
    rw [hks] at h hnodup
    rw [List.map_cons] at h ⊢
    obtain ⟨hhead, hrest⟩ := List.cons.inj h
    obtain ⟨rfl, hxs⟩ := Prod.mk.inj hhead
    rw [map_group_cons (List.nodup_cons.mp hnodup).1, hrest,
      List.filter_cons_of_pos (by simp), hxs]

/-- An element with a new key is a group of its own. -/
theorem groups_cons_of_notMem (hx : key x ∉ l.map key) :
    groups key (x :: l) = (key x, [x]) :: groups key l := by
  have hnone : l.filter (fun y => key y = key x) = [] := by
    rw [List.filter_eq_nil_iff]
    intro y hy heq
    rw [decide_eq_true_eq] at heq
    exact hx (heq ▸ List.mem_map_of_mem hy)
  rw [groups, List.map_cons, List.dedup_cons_of_notMem hx, List.map_cons,
    map_group_cons (by rw [List.mem_dedup]; exact hx), List.filter_cons_of_pos (by simp), hnone]
  rfl

/-- In a sorted list the elements of each key stand together. -/
theorem runs_eq_groups [PartialOrder κ] (h : l.Pairwise fun a b => key b ≤ key a) :
    runs key l = groups key l := by
  induction l with
  | nil => rfl
  | cons x l ih =>
    obtain ⟨hx, hl⟩ := List.pairwise_cons.mp h
    rw [runs]
    cases l with
    | nil =>
      have hnone : key x ∉ ([] : List α).map key := List.not_mem_nil
      exact (groups_cons_of_notMem hnone).symm
    | cons y l =>
      obtain ⟨ys, rest, hruns⟩ := runs_cons key y l
      have hgroups := (ih hl).symm.trans hruns
      rw [hruns, addToRuns]
      split
      · next hkey =>
        rw [hkey] at hgroups ⊢
        refine (groups_cons_of_mem ?_ hgroups).symm
        rw [← hkey]
        exact List.mem_map_of_mem List.mem_cons_self
      · next hkey =>
        rw [← hgroups]
        refine (groups_cons_of_notMem ?_).symm
        intro hmem
        obtain ⟨z, hz, heq⟩ := List.mem_map.mp hmem
        -- The key of `y` is between two equal keys.
        have hle : key x ≤ key y := by
          rw [← heq]
          rcases List.mem_cons.mp hz with rfl | hz
          · exact le_refl _
          · exact (List.pairwise_cons.mp hl).1 z hz
        exact hkey (le_antisymm (hx y List.mem_cons_self) hle)

/-- The runs of a sorted list have different keys, and the keys are those of the elements. -/
theorem runs_keys [PartialOrder κ] (h : l.Pairwise fun a b => key b ≤ key a) :
    (runs key l).map Prod.fst = (l.map key).dedup := by
  rw [runs_eq_groups h, groups, List.map_map]
  exact List.map_id _

theorem addToRuns_of_notMem {rs : List (κ × List α)} (h : key x ∉ rs.map Prod.fst) :
    addToRuns key x rs = (key x, [x]) :: rs := by
  cases rs with
  | nil => rfl
  | cons run rest =>
    rw [addToRuns, if_neg]
    intro heq
    exact h (List.mem_map.mpr ⟨run, List.mem_cons_self, heq⟩)

/-- The runs with the elements that satisfy a predicate. A run without such an element goes. -/
def selectRuns (p : α → Bool) (rs : List (κ × List α)) : List (κ × List α) :=
  (rs.map fun r => (r.1, r.2.filter p)).filter fun r => !r.2.isEmpty

omit [DecidableEq κ] in
theorem selectRuns_cons (p : α → Bool) (k : κ) (xs : List α) (rs : List (κ × List α)) :
    selectRuns p ((k, xs) :: rs) =
      if xs.filter p = [] then selectRuns p rs else (k, xs.filter p) :: selectRuns p rs := by
  rw [selectRuns, List.map_cons, List.filter_cons]
  by_cases h : xs.filter p = []
  · rw [if_pos h, h, if_neg (by simp)]
    rfl
  · rw [if_neg h, if_pos (by simpa using h)]
    rfl

omit [DecidableEq κ] in
theorem selectRuns_keys (p : α → Bool) (rs : List (κ × List α)) :
    (selectRuns p rs).map Prod.fst ⊆ rs.map Prod.fst := by
  intro k hk
  obtain ⟨r, hr, rfl⟩ := List.mem_map.mp hk
  obtain ⟨r', hr', rfl⟩ := List.mem_map.mp (List.mem_filter.mp hr).1
  exact List.mem_map.mpr ⟨r', hr', rfl⟩

/-- The runs of a part of a sorted list are the parts of its runs. -/
theorem runs_filter [PartialOrder κ] (h : l.Pairwise fun a b => key b ≤ key a) (p : α → Bool) :
    runs key (l.filter p) = selectRuns p (runs key l) := by
  induction l with
  | nil => rfl
  | cons x l ih =>
    have hl := (List.pairwise_cons.mp h).2
    have hnodup : ((runs key (x :: l)).map Prod.fst).Nodup := by
      rw [runs_keys h]
      exact List.nodup_dedup _
    rw [runs] at hnodup ⊢
    cases hpx : p x with
    | false =>
      rw [List.filter_cons_of_neg (by rw [hpx]; exact Bool.false_ne_true), ih hl]
      have hsingle : [x].filter p = [] := by rw [List.filter_singleton, hpx]; rfl
      cases hruns : runs key l with
      | nil => rw [addToRuns, selectRuns_cons, if_pos hsingle]
      | cons run rest =>
        obtain ⟨k, xs⟩ := run
        rw [addToRuns]
        split
        · rw [selectRuns_cons, selectRuns_cons,
            List.filter_cons_of_neg (by rw [hpx]; exact Bool.false_ne_true)]
        · rw [selectRuns_cons (k := key x), if_pos hsingle]
    | true =>
      rw [List.filter_cons_of_pos hpx, runs, ih hl]
      have hsingle : [x].filter p = [x] := by rw [List.filter_singleton, hpx]; rfl
      cases hruns : runs key l with
      | nil =>
        rw [addToRuns, selectRuns_cons, hsingle, if_neg (List.cons_ne_nil x [])]
        rfl
      | cons run rest =>
        obtain ⟨k, xs⟩ := run
        rw [hruns, addToRuns] at hnodup
        rw [addToRuns]
        split at hnodup
        · next hkey =>
          rw [if_pos hkey, selectRuns_cons, selectRuns_cons, List.filter_cons_of_pos hpx,
            if_neg (List.cons_ne_nil x _)]
          have hfresh : key x ∉ (selectRuns p rest).map Prod.fst := by
            intro hmem
            rw [← hkey] at hmem
            exact (List.nodup_cons.mp hnodup).1 (selectRuns_keys p rest hmem)
          split
          · next hnone => rw [addToRuns_of_notMem hfresh, hnone, hkey]
          · rw [addToRuns, if_pos hkey]
        · next hkey =>
          have hfresh : key x ∉ (selectRuns p ((k, xs) :: rest)).map Prod.fst :=
            fun hmem => (List.nodup_cons.mp hnodup).1 (selectRuns_keys p _ hmem)
          rw [if_neg hkey, addToRuns_of_notMem hfresh, selectRuns_cons (k := key x), hsingle,
            if_neg (List.cons_ne_nil x [])]

end RainMakerNeo.Lib
