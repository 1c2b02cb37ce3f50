import Mathlib.Data.List.Perm.Subperm
import Mathlib.Data.List.Nodup

/-!
# `RainMakerNeo.Lib.Requests`: requests of several attempts and their answers

An attempt issues requests, and each request gets at most one answer, in any order and at any time.
An answer of an earlier attempt can come while a later one is under way. A request is a number, that
of its attempt, and a topic.

Where each request is issued once, the successful answers of an attempt are counted by at most as
many as it has issued, and the counts are equal exactly when each request has its answer
(`allAcked_iff`).
-/

set_option autoImplicit false

namespace RainMakerNeo.Lib

/-- The requests so far, those without an answer, and those with a successful one. -/
structure Requests (ι : Type*) where
  issued : List (Nat × ι) := []
  waiting : List (Nat × ι) := []
  acked : List (Nat × ι) := []
  deriving DecidableEq, Repr

namespace Requests

variable {ι : Type*} {r : Requests ι} {x : Nat × ι} {n : Nat}

/-- A new request. -/
def issue (r : Requests ι) (x : Nat × ι) : Requests ι :=
  { r with issued := x :: r.issued, waiting := x :: r.waiting }

/-- The answer to a request. -/
def settle [DecidableEq ι] (r : Requests ι) (x : Nat × ι) (ok : Bool) : Requests ι :=
  { r with waiting := r.waiting.erase x, acked := if ok then x :: r.acked else r.acked }

/-- The requests of an attempt. -/
def issuedOf (r : Requests ι) (n : Nat) : List (Nat × ι) := r.issued.filter fun x => x.1 = n

/-- The requests of an attempt with a successful answer. -/
def ackedOf (r : Requests ι) (n : Nat) : List (Nat × ι) := r.acked.filter fun x => x.1 = n

/-- Each request of the attempt has a successful answer. -/
def AllAcked (r : Requests ι) (n : Nat) : Prop := ∀ x ∈ r.issued, x.1 = n → x ∈ r.acked

/-- Each request was issued once and has at most one answer. -/
structure Sound (r : Requests ι) : Prop where
  issued : r.issued.Nodup
  answers : (r.waiting ++ r.acked).Nodup
  subset : r.waiting ++ r.acked ⊆ r.issued

theorem mem_issuedOf : x ∈ r.issuedOf n ↔ x ∈ r.issued ∧ x.1 = n := by
  rw [issuedOf, List.mem_filter, decide_eq_true_eq]

theorem mem_ackedOf : x ∈ r.ackedOf n ↔ x ∈ r.acked ∧ x.1 = n := by
  rw [ackedOf, List.mem_filter, decide_eq_true_eq]

theorem Sound.empty : Sound ({} : Requests ι) :=
  ⟨List.nodup_nil, List.nodup_nil, List.Subset.refl _⟩

section
variable (h : r.Sound)
include h

/-- A request that was not issued before. -/
theorem Sound.issue (hx : x ∉ r.issued) : (r.issue x).Sound := by
  refine ⟨List.nodup_cons.mpr ⟨hx, h.issued⟩, ?_, ?_⟩
  · show (x :: (r.waiting ++ r.acked)).Nodup
    exact List.nodup_cons.mpr ⟨fun hmem => hx (h.subset hmem), h.answers⟩
  · show x :: (r.waiting ++ r.acked) ⊆ x :: r.issued
    exact List.cons_subset_cons x h.subset

/-- An answer to a request that has none. -/
theorem Sound.settle [DecidableEq ι] (hx : x ∈ r.waiting) (ok : Bool) : (r.settle x ok).Sound := by
  have hperm : (x :: r.waiting.erase x ++ r.acked).Perm (r.waiting ++ r.acked) :=
    (List.perm_cons_erase hx).symm.append_right r.acked
  have hnodup := hperm.nodup_iff.mpr h.answers
  have hsubset : x :: r.waiting.erase x ++ r.acked ⊆ r.issued :=
    fun y hy => h.subset (hperm.mem_iff.mp hy)
  cases ok with
  | false =>
    refine ⟨h.issued, ?_, ?_⟩
    · exact (List.nodup_cons.mp hnodup).2
    · exact fun y hy => hsubset (List.mem_cons_of_mem x hy)
  | true =>
    have hmiddle : (r.waiting.erase x ++ x :: r.acked).Perm (x :: r.waiting.erase x ++ r.acked) :=
      List.perm_middle
    refine ⟨h.issued, hmiddle.nodup_iff.mpr hnodup, ?_⟩
    exact fun y hy => hsubset (hmiddle.mem_iff.mp hy)

theorem Sound.nodup_ackedOf : (r.ackedOf n).Nodup :=
  (List.nodup_append.mp h.answers).2.1.filter _

theorem Sound.ackedOf_subset : r.ackedOf n ⊆ r.issuedOf n := by
  intro x hx
  rw [mem_ackedOf] at hx
  rw [mem_issuedOf]
  exact ⟨h.subset (List.mem_append_right _ hx.1), hx.2⟩

/-- An attempt has at most as many successful answers as requests. -/
theorem Sound.length_ackedOf_le : (r.ackedOf n).length ≤ (r.issuedOf n).length :=
  (List.subperm_of_subset h.nodup_ackedOf h.ackedOf_subset).length_le

/-- Each request of the attempt has a successful answer exactly when there are as many of these as
requests. -/
theorem Sound.allAcked_iff : r.AllAcked n ↔ (r.issuedOf n).length ≤ (r.ackedOf n).length := by
  constructor
  · intro hall
    refine (List.subperm_of_subset (h.issued.filter _) ?_).length_le
    intro x hx
    obtain ⟨hx, hn⟩ := mem_issuedOf.mp hx
    exact mem_ackedOf.mpr ⟨hall x hx hn, hn⟩
  · intro hle x hx hn
    have hperm := (List.subperm_of_subset h.nodup_ackedOf h.ackedOf_subset).perm_of_length_le hle
    exact (mem_ackedOf.mp (hperm.mem_iff.mpr (mem_issuedOf.mpr ⟨hx, hn⟩))).1

end

@[simp]
theorem issuedOf_issue : (r.issue x).issuedOf n =
    if x.1 = n then x :: r.issuedOf n else r.issuedOf n := by
  rw [issuedOf, issue, List.filter_cons]
  simp only [decide_eq_true_eq]
  rfl

@[simp]
theorem ackedOf_issue : (r.issue x).ackedOf n = r.ackedOf n := rfl

@[simp]
theorem issuedOf_settle [DecidableEq ι] (ok : Bool) :
    (r.settle x ok).issuedOf n = r.issuedOf n := rfl

@[simp]
theorem ackedOf_settle [DecidableEq ι] (ok : Bool) : (r.settle x ok).ackedOf n =
    if ok = true ∧ x.1 = n then x :: r.ackedOf n else r.ackedOf n := by
  rw [ackedOf, settle]
  cases ok with
  | false => simp [ackedOf]
  | true =>
    simp only [if_true, List.filter_cons, decide_eq_true_eq, true_and]
    rfl

/-- Answers do not take back other answers. -/
theorem AllAcked.settle [DecidableEq ι] (h : r.AllAcked n) (ok : Bool) :
    (r.settle x ok).AllAcked n := by
  intro y hy hn
  have hmem := h y hy hn
  rw [Requests.settle]
  cases ok with
  | false => exact hmem
  | true => exact List.mem_cons_of_mem x hmem

/-- A request of another attempt does not matter. -/
theorem AllAcked.issue (h : r.AllAcked n) (hx : x.1 ≠ n) : (r.issue x).AllAcked n := by
  intro y hy hn
  rcases List.mem_cons.mp hy with rfl | hy
  · exact absurd hn hx
  · exact h y hy hn

end Requests

end RainMakerNeo.Lib
