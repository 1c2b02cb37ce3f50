import Mathlib.Data.List.Infix
import Mathlib.Tactic.Common

/-!
# `RainMakerNeo.Lib.TokenBucket`: token buckets and the traffic that they let through

A bucket holds at most `cap` tokens. A take removes one token and is refused from an empty bucket,
and a refill adds `amount` tokens. `refusals_eq_zero_iff` says which traffic is never refused: the
one that never takes more, from the start or in a stretch of its own, than the level and the
refills allow.
-/

set_option autoImplicit false

namespace RainMakerNeo.Lib.TokenBucket

/-- What happens to a bucket. -/
inductive Event
  | take | refill
  deriving DecidableEq

open Event

variable (cap amount : Nat)

/-- The level after an event. -/
def next (level : Nat) : Event → Nat
  | take => level - 1
  | refill => min cap (level + amount)

/-- The level after a list of events. -/
def level (start : Nat) (events : List Event) : Nat := events.foldl (next cap amount) start

/-- The takes that find the bucket empty. -/
def refusals (start : Nat) : List Event → Nat
  | [] => 0
  | event :: events =>
    (if event = take ∧ start = 0 then 1 else 0) + refusals (next cap amount start event) events

/-- The traffic keeps to the bucket, from the start on and in each stretch. -/
structure Conforms (start : Nat) (events : List Event) : Prop where
  fromStart : ∀ front, front <+: events → front.count take ≤ start + amount * front.count refill
  inside : ∀ stretch, stretch <:+: events →
    stretch.count take ≤ cap + amount * stretch.count refill

variable {cap amount}

theorem level_append (start : Nat) (events events' : List Event) :
    level cap amount start (events ++ events') =
      level cap amount (level cap amount start events) events' :=
  List.foldl_append

theorem refusals_append (start : Nat) (events events' : List Event) :
    refusals cap amount start (events ++ events') = refusals cap amount start events +
      refusals cap amount (level cap amount start events) events' := by
  induction events generalizing start with
  | nil => rw [List.nil_append, refusals, Nat.zero_add]; rfl
  | cons event events ih =>
    rw [List.cons_append, refusals, refusals, ih, Nat.add_assoc]
    rfl

variable {start : Nat}

theorem next_le (h : start ≤ cap) (event : Event) : next cap amount start event ≤ cap := by
  cases event with
  | take => exact (Nat.sub_le _ _).trans h
  | refill => exact Nat.min_le_left _ _

theorem level_le (h : start ≤ cap) (events : List Event) : level cap amount start events ≤ cap := by
  induction events generalizing start with
  | nil => exact h
  | cons event events ih => exact ih (next_le h event)

theorem conforms_nil (start : Nat) : Conforms cap amount start [] := by
  constructor
  · intro front hfront
    simp [List.prefix_nil.mp hfront]
  · intro stretch hstretch
    simp [List.infix_nil.mp hstretch]

/-- A take needs a token. -/
theorem conforms_take {events : List Event} (h : start ≤ cap) :
    Conforms cap amount start (take :: events) ↔
      0 < start ∧ Conforms cap amount (start - 1) events := by
  constructor
  · intro hall
    have hfirst := hall.fromStart [take] (List.prefix_append [take] events)
    have hone : 1 ≤ start := by simpa using hfirst
    have hpos : 0 < start := hone
    refine ⟨hpos, ?_, ?_⟩
    · intro front hfront
      have hcons := hall.fromStart (take :: front) (by simpa using hfront)
      simp only [List.count_cons_self, List.count_cons_of_ne (show take ≠ refill by decide)] at hcons
      omega
    · intro stretch hstretch
      exact hall.inside stretch (List.infix_cons hstretch)
  · rintro ⟨hpos, hrest⟩
    have hfront : ∀ front, front <+: take :: events →
        front.count take ≤ start + amount * front.count refill := by
      intro front hfront
      rcases List.prefix_cons_iff.mp hfront with rfl | ⟨front', rfl, hfront'⟩
      · simp
      · have htail := hrest.fromStart front' hfront'
        simp only [List.count_cons_self, List.count_cons_of_ne (show take ≠ refill by decide)]
        omega
    refine ⟨hfront, ?_⟩
    intro stretch hstretch
    rcases List.infix_cons_iff.mp hstretch with hpre | hinf
    · exact (hfront stretch hpre).trans (Nat.add_le_add_right h _)
    · exact hrest.inside stretch hinf

/-- A refill that would pass the cap starts a new stretch. -/
theorem conforms_refill {events : List Event} (h : start ≤ cap) :
    Conforms cap amount start (refill :: events) ↔
      Conforms cap amount (min cap (start + amount)) events := by
  have hcount : ∀ front : List Event, (refill :: front).count take = front.count take := fun _ =>
    List.count_cons_of_ne (by decide)
  constructor
  · intro hall
    refine ⟨?_, fun stretch hstretch => hall.inside stretch (List.infix_cons hstretch)⟩
    intro front hfront
    have hcons := hall.fromStart (refill :: front) (by simpa using hfront)
    have hstretch := hall.inside front (List.infix_cons hfront.isInfix)
    rw [hcount, List.count_cons_self, Nat.mul_succ] at hcons
    rcases Nat.le_total cap (start + amount) with hle | hle
    · rwa [Nat.min_eq_left hle]
    · rw [Nat.min_eq_right hle]
      omega
  · intro hrest
    have hfront : ∀ front, front <+: refill :: events →
        front.count take ≤ start + amount * front.count refill := by
      intro front hfront
      rcases List.prefix_cons_iff.mp hfront with rfl | ⟨front', rfl, hfront'⟩
      · simp
      · have htail := hrest.fromStart front' hfront'
        have hmin := Nat.min_le_right cap (start + amount)
        rw [hcount, List.count_cons_self, Nat.mul_succ]
        omega
    refine ⟨hfront, ?_⟩
    intro stretch hstretch
    rcases List.infix_cons_iff.mp hstretch with hpre | hinf
    · exact (hfront stretch hpre).trans (Nat.add_le_add_right h _)
    · exact hrest.inside stretch hinf

/-- **A bucket refuses nothing if and only if the traffic keeps to it.** -/
theorem refusals_eq_zero_iff (h : start ≤ cap) (events : List Event) :
    refusals cap amount start events = 0 ↔ Conforms cap amount start events := by
  induction events generalizing start with
  | nil => exact ⟨fun _ => conforms_nil start, fun _ => rfl⟩
  | cons event events ih =>
    rw [refusals, Nat.add_eq_zero_iff, ih (next_le h event)]
    cases event with
    | take =>
      rw [conforms_take h]
      simp only [true_and, next, ite_eq_right_iff, Nat.one_ne_zero, imp_false]
      rw [Nat.pos_iff_ne_zero]
    | refill =>
      rw [conforms_refill h]
      simp [next]

end RainMakerNeo.Lib.TokenBucket
