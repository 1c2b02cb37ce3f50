import Mathlib.Logic.Relation

/-!
# `RainMakerNeo.Lib.Loop`: a loop that may not end

The body of a loop goes on with a new state, or the loop returns. `none` is an access outside of a
block. `Returns` says that the loop returns after some rounds, so it is also the statement that the
loop ends.

`Returns.of_steps` and `Returns.after_steps` pass over the first rounds, and `not_returns_of_inv` is
the rule for a loop that runs on for ever.
-/

set_option autoImplicit false

namespace RainMakerNeo.Lib

/-- How a round ends. -/
inductive Next (σ ρ : Type*)
  | goOn (s : σ)
  | returned (r : ρ)

section
variable {σ ρ : Type*} (body : σ → Option (Next σ ρ))

/-- The loop returns. -/
inductive Returns : σ → ρ → Prop
  | stop {s : σ} {r : ρ} (h : body s = some (.returned r)) : Returns s r
  | step {s t : σ} {r : ρ} (h : body s = some (.goOn t)) (ht : Returns t r) : Returns s r

/-- Rounds lead from one state to the other. -/
def Steps : σ → σ → Prop := Relation.ReflTransGen fun s t => body s = some (.goOn t)

variable {body} {s t u : σ} {r : ρ}

theorem Steps.refl (s : σ) : Steps body s s := Relation.ReflTransGen.refl

theorem Steps.head (h : body s = some (.goOn t)) (ht : Steps body t u) : Steps body s u :=
  Relation.ReflTransGen.head h ht

theorem Returns.of_steps (hs : Steps body s t) (ht : Returns body t r) : Returns body s r := by
  induction hs using Relation.ReflTransGen.head_induction_on with
  | refl => exact ht
  | head h _ ih => exact .step h ih

theorem Returns.after_step (h : body s = some (.goOn t)) (hr : Returns body s r) :
    Returns body t r := by
  cases hr with
  | stop hs => simp [h] at hs
  | step hs ht =>
    rw [h] at hs
    cases hs
    exact ht

theorem Returns.after_steps (hs : Steps body s t) (hr : Returns body s r) :
    Returns body t r := by
  induction hs using Relation.ReflTransGen.head_induction_on with
  | refl => exact hr
  | head h _ ih => exact ih (hr.after_step h)

/-- A loop whose body goes on from every state of an invariant does not return. -/
theorem not_returns_of_inv (inv : σ → Prop)
    (hinv : ∀ s, inv s → ∃ t, body s = some (.goOn t) ∧ inv t) (hs : inv s) :
    ¬ Returns body s r := by
  intro hr
  induction hr with
  | stop h =>
    obtain ⟨t, ht, -⟩ := hinv _ hs
    simp [h] at ht
  | step h _ ih =>
    obtain ⟨t, ht, hinvt⟩ := hinv _ hs
    rw [h] at ht
    cases ht
    exact ih hinvt

end

end RainMakerNeo.Lib
