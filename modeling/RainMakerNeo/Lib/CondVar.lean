import Mathlib.Data.List.Perm.Basic

/-!
# `RainMakerNeo.Lib.CondVar`: a condition variable of a monitor

A monitor is a mutex with the state behind it. A caller that cannot go on sleeps on a condition
variable, and that gives the mutex back. A `signal` wakes one sleeper, a `broadcast` all of them,
and a `wake` without either is a spurious one. A woken caller still has to take the mutex again:
until then it is among the `woken`, and another caller can come first.

`Covered` is the invariant of a `signal` for each unit that becomes free. As long as someone
sleeps, there is a woken caller for each free unit. So no wake-up is lost: when no caller is left
among the woken, a sleeper means that there is no unit. The rules say what each operation does to
`Covered`. A caller must not take a wake-up and leave the unit; `Covered` has no rule for that.
-/

set_option autoImplicit false

namespace RainMakerNeo.Lib

/-- The callers that sleep, and those that were woken and have not got the mutex back. -/
structure CondVar (ω : Type*) where
  asleep : List ω := []
  woken : List ω := []
  deriving DecidableEq

namespace CondVar

variable {ω : Type*} {c : CondVar ω} {w x : ω} {n m : Nat}

/-- Everyone who waits. -/
def callers (c : CondVar ω) : List ω := c.asleep ++ c.woken

/-- A caller goes to sleep. -/
def sleep (c : CondVar ω) (w : ω) : CondVar ω := { c with asleep := c.asleep ++ [w] }

/-- `signal`. The system picks who wakes. -/
def signal (c : CondVar ω) (pick : Nat) : CondVar ω :=
  match c.asleep[pick % c.asleep.length]? with
  | some w => {
      asleep := c.asleep.eraseIdx (pick % c.asleep.length)
      woken := c.woken ++ [w] }
  | none => c

/-- `broadcast`. -/
def broadcast (c : CondVar ω) : CondVar ω where
  asleep := []
  woken := c.woken ++ c.asleep

variable [DecidableEq ω]

/-- A sleeper wakes without a signal. -/
def wake (c : CondVar ω) (w : ω) : CondVar ω where
  asleep := c.asleep.erase w
  woken := c.woken ++ [w]

/-- A sleeper does not wait any longer. -/
def leave (c : CondVar ω) (w : ω) : CondVar ω := { c with asleep := c.asleep.erase w }

/-- A woken caller has the mutex back. -/
def resume (c : CondVar ω) (w : ω) : CondVar ω := { c with woken := c.woken.erase w }

/-! ### Who waits -/

omit [DecidableEq ω] in
theorem callers_sleep (c : CondVar ω) (w : ω) : (c.sleep w).callers.Perm (w :: c.callers) := by
  show ((c.asleep ++ [w]) ++ c.woken).Perm (w :: (c.asleep ++ c.woken))
  rw [List.append_assoc]
  exact List.perm_middle

omit [DecidableEq ω] in
/-- A `signal` wakes a sleeper when there is one. -/
theorem signal_cases (c : CondVar ω) (pick : Nat) :
    c.asleep = [] ∧ c.signal pick = c ∨
      ∃ front w back, c.asleep = front ++ w :: back ∧
        c.signal pick = ⟨front ++ back, c.woken ++ [w]⟩ := by
  by_cases hnil : c.asleep = []
  · refine .inl ⟨hnil, ?_⟩
    simp [signal, hnil]
  · have hpos : 0 < c.asleep.length := List.length_pos_iff.mpr hnil
    have hlt := Nat.mod_lt pick hpos
    refine .inr ⟨c.asleep.take (pick % c.asleep.length), c.asleep[pick % c.asleep.length],
      c.asleep.drop (pick % c.asleep.length + 1), ?_, ?_⟩
    · rw [← List.drop_eq_getElem_cons hlt, List.take_append_drop]
    · simp only [signal, List.getElem?_eq_getElem hlt, List.eraseIdx_eq_take_drop_succ]

omit [DecidableEq ω] in
theorem callers_signal (c : CondVar ω) (pick : Nat) : (c.signal pick).callers.Perm c.callers := by
  rcases c.signal_cases pick with ⟨-, hsame⟩ | ⟨front, w, back, hsplit, hsignal⟩
  · rw [hsame]
  · rw [hsignal, callers, callers, hsplit]
    show ((front ++ back) ++ (c.woken ++ [w])).Perm ((front ++ w :: back) ++ c.woken)
    rw [← List.append_assoc]
    exact (List.perm_append_singleton _ _).trans (List.perm_middle.symm.append_right c.woken)

theorem callers_wake (hw : w ∈ c.asleep) : (c.wake w).callers.Perm c.callers := by
  show (c.asleep.erase w ++ (c.woken ++ [w])).Perm (c.asleep ++ c.woken)
  rw [← List.append_assoc]
  exact (List.perm_append_singleton _ _).trans ((List.perm_cons_erase hw).symm.append_right _)

theorem mem_of_mem_leave (hx : x ∈ (c.leave w).callers) : x ∈ c.callers := by
  rcases List.mem_append.mp hx with hx | hx
  · exact List.mem_append_left _ (List.mem_of_mem_erase hx)
  · exact List.mem_append_right _ hx

theorem mem_of_mem_resume (hx : x ∈ (c.resume w).callers) : x ∈ c.callers := by
  rcases List.mem_append.mp hx with hx | hx
  · exact List.mem_append_left _ hx
  · exact List.mem_append_right _ (List.mem_of_mem_erase hx)

omit [DecidableEq ω] in
theorem mem_of_mem_signal {pick : Nat} (hx : x ∈ (c.signal pick).callers) : x ∈ c.callers :=
  (c.callers_signal pick).mem_iff.mp hx

omit [DecidableEq ω] in
theorem mem_of_mem_sleep (hx : x ∈ (c.sleep w).callers) : x = w ∨ x ∈ c.callers :=
  List.mem_cons.mp ((c.callers_sleep w).mem_iff.mp hx)

/-! ### No lost wake-up -/

omit [DecidableEq ω]

/-- While someone sleeps, there is a woken caller for each of the `n` free units. -/
def Covered (c : CondVar ω) (n : Nat) : Prop := c.asleep ≠ [] → n ≤ c.woken.length

/-- Nobody waits. -/
theorem covered_of_nil (h : c.asleep = []) (n : Nat) : c.Covered n := fun hne => absurd h hne

/-- No unit is free. -/
theorem covered_zero (c : CondVar ω) : c.Covered 0 := fun _ => Nat.zero_le _

variable (h : c.Covered n)
include h

theorem Covered.mono (hle : m ≤ n) : c.Covered m :=
  fun hne => Nat.le_trans hle (h hne)

/-- With nobody on the way, a sleeper means that no unit is free. -/
theorem Covered.at_rest (hrest : c.woken = []) (hsleep : c.asleep ≠ []) : n = 0 := by
  have hle := h hsleep
  rw [hrest] at hle
  exact Nat.le_zero.mp hle

/-- One unit more, and a `signal` for it. -/
theorem Covered.signal (pick : Nat) : (c.signal pick).Covered (n + 1) := by
  intro hne
  rcases c.signal_cases pick with ⟨hnil, hsame⟩ | ⟨front, w, back, hsplit, hsignal⟩
  · rw [hsame] at hne
    exact absurd hnil hne
  · have hle := h (by rw [hsplit]; simp)
    rw [hsignal, List.length_append]
    exact Nat.succ_le_succ hle

variable [DecidableEq ω]

theorem Covered.wake (w : ω) : (c.wake w).Covered n := by
  intro hne
  have hle := h fun hnil => hne (by simp [CondVar.wake, hnil])
  show n ≤ (c.woken ++ [w]).length
  rw [List.length_append]
  exact Nat.le_succ_of_le hle

theorem Covered.leave (w : ω) : (c.leave w).Covered n :=
  fun hne => h fun hnil => hne (by simp [CondVar.leave, hnil])

/-- A woken caller takes a unit, if there is still one. -/
theorem Covered.resume (hw : w ∈ c.woken) : (c.resume w).Covered (n - 1) := by
  intro hne
  have hle := h hne
  show n - 1 ≤ (c.woken.erase w).length
  rw [List.length_erase_of_mem hw]
  omega

end CondVar

end RainMakerNeo.Lib
