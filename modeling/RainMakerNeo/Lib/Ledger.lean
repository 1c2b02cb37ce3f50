import Mathlib.Data.List.Nodup
import Mathlib.Data.List.Perm.Basic

/-!
# `RainMakerNeo.Lib.Ledger`: owners and what they own

A program that hands memory from one owner to the next must not lose it and must not have it twice.
`held` lists the owners, and `owns` says which resources an owner has. `OneOwner` says that each
live resource is owned once and that nothing else is owned.

The order of the owners does not matter (`OneOwner.perm`), so a hand-over from one place to another
keeps the owners. An allocation puts an owner of new resources on the list (`OneOwner.add`), and a
release takes an owner with all its resources off it (`OneOwner.remove`).
-/

set_option autoImplicit false

namespace RainMakerNeo.Lib

variable {π ρ : Type*}

/-- Each live resource is owned once, and nothing else is owned. -/
structure OneOwner (owns : π → List ρ) (live : ρ → Prop) (held : List π) : Prop where
  nodup : (held.flatMap owns).Nodup
  mem_iff : ∀ r, r ∈ held.flatMap owns ↔ live r

namespace OneOwner

variable {owns owns' : π → List ρ} {live live' : ρ → Prop} {held held' : List π} {p q : π} {r : ρ}

theorem perm (h : OneOwner owns live held) (hp : held.Perm held') : OneOwner owns live held' where
  nodup := (hp.flatMap_right owns).nodup_iff.mp h.nodup
  mem_iff := by
    intro r
    rw [← (hp.flatMap_right owns).mem_iff]
    exact h.mem_iff r

/-- What an owner has is live. -/
theorem live_of_mem (h : OneOwner owns live held) (hp : p ∈ held) (hr : r ∈ owns p) : live r :=
  (h.mem_iff r).mp (List.mem_flatMap.mpr ⟨p, hp, hr⟩)

/-- Two owners share nothing. -/
theorem disjoint (h : OneOwner owns live (p :: held)) (hq : q ∈ held) (hr : r ∈ owns p) :
    r ∉ owns q := by
  intro hrq
  have hnodup := h.nodup
  rw [List.flatMap_cons, List.nodup_append] at hnodup
  exact hnodup.2.2 r hr r (List.mem_flatMap.mpr ⟨q, hq, hrq⟩) rfl

/-- An owner has nothing twice. -/
theorem nodup_owns (h : OneOwner owns live (p :: held)) : (owns p).Nodup := by
  have hnodup := h.nodup
  rw [List.flatMap_cons, List.nodup_append] at hnodup
  exact hnodup.1

/-- A new owner brings new resources. -/
theorem add (h : OneOwner owns live held) (hframe : ∀ q ∈ held, owns' q = owns q)
    (hnodup : (owns' p).Nodup) (hnew : ∀ r ∈ owns' p, ¬live r)
    (hlive : ∀ r, live' r ↔ r ∈ owns' p ∨ live r) : OneOwner owns' live' (p :: held) := by
  have hheld : held.flatMap owns' = held.flatMap owns := List.flatMap_congr hframe
  constructor
  · rw [List.flatMap_cons, hheld, List.nodup_append]
    refine ⟨hnodup, h.nodup, ?_⟩
    rintro r hr _ hmem rfl
    exact hnew r hr ((h.mem_iff r).mp hmem)
  · intro r
    rw [List.flatMap_cons, hheld, List.mem_append, h.mem_iff, hlive]

/-- An owner that goes takes its resources along. -/
theorem remove (h : OneOwner owns live (p :: held)) (hframe : ∀ q ∈ held, owns' q = owns q)
    (hlive : ∀ r, live' r ↔ live r ∧ r ∉ owns p) : OneOwner owns' live' held := by
  have hheld : held.flatMap owns' = held.flatMap owns := List.flatMap_congr hframe
  have hnodup := h.nodup
  rw [List.flatMap_cons, List.nodup_append] at hnodup
  constructor
  · rw [hheld]
    exact hnodup.2.1
  · intro r
    rw [hheld, hlive, ← h.mem_iff, List.flatMap_cons, List.mem_append]
    constructor
    · intro hr
      exact ⟨.inr hr, fun hp => hnodup.2.2 r hp r hr rfl⟩
    · rintro ⟨hp | hr, hnot⟩
      · exact absurd hp hnot
      · exact hr

/-- A live resource is counted once. -/
theorem count_eq_one [DecidableEq ρ] (h : OneOwner owns live held) (hr : live r) :
    (held.flatMap owns).count r = 1 :=
  List.count_eq_one_of_mem h.nodup ((h.mem_iff r).mpr hr)

/-- What is not live is not counted. -/
theorem count_eq_zero [DecidableEq ρ] (h : OneOwner owns live held) (hr : ¬live r) :
    (held.flatMap owns).count r = 0 :=
  List.count_eq_zero_of_not_mem fun hmem => hr ((h.mem_iff r).mp hmem)

end OneOwner

end RainMakerNeo.Lib
