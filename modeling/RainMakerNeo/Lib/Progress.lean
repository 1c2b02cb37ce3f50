import RainMakerNeo.Lib.Run

/-!
# `RainMakerNeo.Lib.Progress`: what some of the parties can still bring about

`Leads` says that the actions of some parties alone, written `own`, lead from one state to
another. It is `Reach` from that one state. A promise about the future of a state is a statement
about all the states that it leads to, or about one of them.

`Leads.of_rank` is the progress rule. The parties reach the goal when from each state short of it
one of them has a step that lowers a rank.
-/

set_option autoImplicit false

namespace RainMakerNeo.Lib

variable {σ α : Type*} {step : σ → α → Option σ} {own : α → Prop}

/-- Steps whose actions are all in `own` lead from `s` to `t`. -/
def Leads (step : σ → α → Option σ) (own : α → Prop) (s t : σ) : Prop :=
  Reach (fun x => x = s) step (fun _ a => own a) t

namespace Leads

variable {s t u : σ} {a : α}

theorem refl (s : σ) : Leads step own s s := .start rfl

theorem snoc (h : Leads step own s t) (ha : own a) (hstep : step t a = some u) :
    Leads step own s u :=
  Reach.next h ha hstep

theorem cons (ha : own a) (hstep : step s a = some t) (h : Leads step own t u) :
    Leads step own s u := by
  induction h with
  | start h =>
    subst h
    exact (refl s).snoc ha hstep
  | next _ hb hu ih => exact ih.snoc hb hu

/-- One step. -/
theorem single (ha : own a) (hstep : step s a = some t) : Leads step own s t :=
  (refl s).snoc ha hstep

/-- A list of their actions that runs through leads from its start to its end. -/
theorem exec (as : List α) (hown : ∀ a ∈ as, own a) (h : Lib.exec step s as = some t) :
    Leads step own s t := by
  induction as generalizing s with
  | nil =>
    obtain rfl : s = t := by simpa [Lib.exec] using h
    exact refl s
  | cons a as ih =>
    rw [Lib.exec] at h
    obtain ⟨u, hu, h⟩ := Option.bind_eq_some_iff.mp h
    have htail := ih (fun b hb => hown b (List.mem_cons_of_mem a hb)) h
    exact htail.cons (hown a List.mem_cons_self) hu

/-- The invariant rule for the steps of these parties. -/
theorem inv (inv : σ → Prop) (hinv : ∀ s a t, inv s → own a → step s a = some t → inv t)
    (h : Leads step own s t) (hs : inv s) : inv t := by
  induction h with
  | start h => exact h ▸ hs
  | next _ ha hstep ih => exact hinv _ _ _ ih ha hstep

/-- The progress rule: as long as the goal is not met, one of the parties has a step that lowers
the rank and keeps the invariant. -/
theorem of_rank (rank : σ → Nat) (inv goal : σ → Prop)
    (hstep : ∀ s, inv s → ¬ goal s →
      ∃ a t, own a ∧ step s a = some t ∧ inv t ∧ rank t < rank s)
    (hs : inv s) : ∃ t, Leads step own s t ∧ inv t ∧ goal t := by
  induction hn : rank s using Nat.strongRecOn generalizing s with
  | ind n ih =>
    by_cases hgoal : goal s
    · exact ⟨s, refl s, hs, hgoal⟩
    · obtain ⟨a, t, ha, ht, hinv, hlt⟩ := hstep s hs hgoal
      obtain ⟨u, hu, hinvu, hgoalu⟩ := ih (rank t) (hn ▸ hlt) hinv rfl
      exact ⟨u, hu.cons ha ht, hinvu, hgoalu⟩

end Leads

end RainMakerNeo.Lib
