import Mathlib.Data.List.Induction
import Mathlib.Order.Basic

/-!
# `RainMakerNeo.Lib.LastBest`: the last of the best elements

A scan looks at one element after the other and keeps the best one so far. Some elements have no
grade, and it passes these over. An element that is as good as the one that is kept replaces it.
`lastBest_eq_some` says which element is kept in the end, and `lastBest_eq_none` when there is none.
-/

set_option autoImplicit false

namespace RainMakerNeo.Lib

variable {α β : Type*} [LT β]

/-! ### The scan -/

section
variable [DecidableLT β]

/-- One step of the scan, with the element that is kept and its grade. -/
def better (grade : α → Option β) (best : Option (α × β)) (x : α) :
    Option (α × β) :=
  match grade x, best with
  | none, best => best
  | some b, none => some (x, b)
  | some b, some kept => if b < kept.2 then some kept else some (x, b)

/-- What the scan keeps. -/
def lastBest (grade : α → Option β) (l : List α) : Option (α × β) :=
  l.foldl (better grade) none

variable {grade : α → Option β}

theorem lastBest_push (l : List α) (x : α) :
    lastBest grade (l ++ [x]) = better grade (lastBest grade l) x := by
  rw [lastBest, List.foldl_append]
  rfl

theorem better_of_none {best : Option (α × β)} {x : α} (hx : grade x = none) :
    better grade best x = best := by
  simp only [better, hx]

/-- Without a grade in the list, nothing is kept. -/
theorem lastBest_eq_none {l : List α} (h : lastBest grade l = none) : ∀ x ∈ l, grade x = none := by
  induction l using List.reverseRecOn with
  | nil => simp
  | append_singleton l x ih =>
    rw [lastBest_push, better.eq_def] at h
    split at h
    · rename_i hx
      intro y hy
      rcases List.mem_append.mp hy with hy | hy
      · exact ih h y hy
      · rw [List.mem_singleton.mp hy]
        exact hx
    · cases h
    · split at h <;> cases h

end

/-! ### What it keeps -/

variable [LE β]

/-- No element of the list is better than `a`, and those after it are worse. -/
structure LastBest (grade : α → Option β) (l : List α) (a : α) (b : β) : Prop where
  graded : grade a = some b
  split : ∃ before after, l = before ++ a :: after ∧
    (∀ x ∈ before, ∀ c, grade x = some c → c ≤ b) ∧ ∀ x ∈ after, ∀ c, grade x = some c → c < b

namespace LastBest

variable {grade : α → Option β} {l : List α} {a : α} {b : β}

theorem mem (h : LastBest grade l a b) : a ∈ l := by
  obtain ⟨before, after, rfl, -⟩ := h.split
  simp

/-- No grade of the list is greater. -/
theorem le [Std.IsLinearOrder β] [Std.LawfulOrderLT β] (h : LastBest grade l a b) {x : α}
    (hx : x ∈ l) {c : β} (hc : grade x = some c) : c ≤ b := by
  obtain ⟨before, after, rfl, hbefore, hafter⟩ := h.split
  rcases List.mem_append.mp hx with hx | hx
  · exact hbefore x hx c hc
  · rcases List.mem_cons.mp hx with rfl | hx
    · rw [Option.some.inj (h.graded.symm.trans hc)]
      exact Std.le_refl c
    · exact Std.le_of_lt (hafter x hx c hc)

/-- An element that is worse, or has no grade, comes after it. -/
theorem push (h : LastBest grade l a b) {x : α} (hx : ∀ c, grade x = some c → c < b) :
    LastBest grade (l ++ [x]) a b where
  graded := h.graded
  split := by
    obtain ⟨before, after, rfl, hbefore, hafter⟩ := h.split
    refine ⟨before, after ++ [x], by simp, hbefore, ?_⟩
    intro y hy c hc
    rcases List.mem_append.mp hy with hy | hy
    · exact hafter y hy c hc
    · rw [List.mem_singleton.mp hy] at hc
      exact hx c hc

/-- An element that nothing before it exceeds. -/
theorem last {x : α} {c : β} (hx : grade x = some c)
    (hle : ∀ y ∈ l, ∀ d, grade y = some d → d ≤ c) : LastBest grade (l ++ [x]) x c where
  graded := hx
  split := ⟨l, [], rfl, hle, nofun⟩

end LastBest

/-- What is kept is the last of the best. -/
theorem lastBest_eq_some [DecidableLT β] [Std.IsLinearOrder β] [Std.LawfulOrderLT β]
    {grade : α → Option β} {l : List α} {a : α} {b : β} (h : lastBest grade l = some (a, b)) :
    LastBest grade l a b := by
  induction l using List.reverseRecOn generalizing a b with
  | nil => cases h
  | append_singleton l x ih =>
    rw [lastBest_push, better.eq_def] at h
    split at h
    · rename_i hx
      exact (ih h).push fun c hc => by rw [hx] at hc; cases hc
    · rename_i c hx hnone
      cases h
      refine .last hx fun y hy d hd => ?_
      rw [lastBest_eq_none hnone y hy] at hd
      cases hd
    · rename_i c kept hx hkept
      have hbest := ih hkept
      split at h
      · rename_i hlt
        cases h
        refine hbest.push fun d hd => ?_
        rw [hx] at hd
        exact Option.some.inj hd ▸ hlt
      · rename_i hnot
        cases h
        exact .last hx fun y hy d hd => Std.le_trans (hbest.le hy hd) (Std.not_lt.mp hnot)

end RainMakerNeo.Lib
