import Mathlib.Algebra.Group.Nat.Defs
import RainMakerNeo.Lib.Requests
import RainMakerNeo.Lib.Run

/-!
# `RainMakerNeo.State.SubscriptionGate`: when the node listens to its parameters

`__state_subscribe_work_fn` subscribes to the parameter topic of the node and to the control topics
of its group. It stores how many acknowledgements it waits for, and each acknowledgement takes one
off. The one that finds a one sets `SUBSCRIBED_TO_STATE_CHANGES`, when it is a successful one.
`esp_rmaker_state_stop_listening` does the same with the unsubscribes and a counter of its own, so
both are one definition with the kind as a parameter.

An acknowledgement carries neither its topic nor its attempt, and a failed one is counted like a
successful one. `honest_of_clean` gives the condition under which the bit is honest nevertheless:
the last count is made when only successful acknowledgements of the same attempt were counted.
`failed_or_late_signals` has runs that break it.
-/

set_option autoImplicit false

namespace RainMakerNeo.State.Subscription

open RainMakerNeo.Lib

/-! ### The model -/

/-- Which of the two counters. -/
inductive Kind
  /-- `__pending_state_subscribe_count` of `__state_subscribe_work_fn`. -/
  | subscribe
  /-- `__pending_state_unsub_count` of `esp_rmaker_state_stop_listening`. -/
  | unsubscribe
  deriving DecidableEq, Repr

/-- The build. -/
structure Config where
  /-- `CONFIG_ESP_RMAKER_NEO_BRIDGE_ENABLE`. -/
  bridge : Bool
  /-- `RMAKER_CLOUD_GROUP_INFO_SUBGROUP_MAX_COUNT`. -/
  maxSubgroups : Nat
  fits : maxSubgroups + 2 < 2 ^ 32

/-- How many topics there are: that of the node, and in a group the broadcast topic and either one
wildcard or one topic for each subgroup. -/
def Config.pending (cfg : Config) : Option Nat → Nat
  | none => 1
  | some subgroups => 1 + if cfg.bridge then 2 else 1 + min subgroups cfg.maxSubgroups

/-- Where the function that subscribes is. -/
inductive Issuer
  | idle
  /-- Before the store of the counter. -/
  | store
  /-- Before the request for a topic. -/
  | issue (topic : Nat)
  deriving DecidableEq, Repr

/-- Where `__mqtt_on_complete_event_handler` is. -/
inductive Handler
  | idle
  /-- Before the subtraction. -/
  | decrement (sub : Nat × Nat) (ok : Bool)
  /-- Before `esp_rmaker_core_subscribed_to_params`, after a subtraction in `attempt`. -/
  | signal (attempt : Nat)
  deriving DecidableEq, Repr

/-- The counter, the bit and the flag, the two tasks, and the history. The fields from `attempt` on
do not exist in the code. -/
structure Gate where
  /-- An `atomic_uint`. -/
  count : Nat := 0
  /-- `SUBSCRIBED_TO_STATE_CHANGES`, or `UNSUBSCRIBED_FROM_STATE_CHANGES` for the other kind. -/
  bit : Bool := false
  /-- `ESP_RMAKER_SUB_PARAMS` is set, or it is not set for the other kind. -/
  flag : Bool := false
  issuer : Issuer := .idle
  handler : Handler := .idle
  /-- The number of the latest attempt. -/
  attempt : Nat := 0
  /-- How many topics the latest attempt has. -/
  planned : Nat := 0
  subs : Requests Nat := {}
  /-- A failed or a late acknowledgement was counted since the counter was stored. -/
  tainted : Bool := false
  /-- An acknowledgement has set the bit and the flag since the latest attempt began. -/
  signalled : Bool := false
  deriving DecidableEq, Repr

/-- What happens next. -/
inductive Action
  /-- An attempt begins, in a group with this many subgroups or in none. -/
  | start (group : Option Nat)
  /-- The function goes on. A topic is built or not, and its request is issued or not. -/
  | issuer (built issued : Bool)
  | ack (sub : Nat × Nat) (ok : Bool)
  | handler
  /-- The other kind sets its bit, which clears this one. -/
  | opposite
  deriving DecidableEq, Repr

/-- What `atomic_fetch_sub` of one leaves. -/
def fetchSub (count : Nat) : Nat := if count = 0 then 2 ^ 32 - 1 else count - 1

namespace Gate

/-- The bit is cleared. -/
def start (cfg : Config) (s : Gate) (group : Option Nat) : Gate :=
  { s with
    bit := false, issuer := .store, attempt := s.attempt + 1, planned := cfg.pending group
    tainted := true, signalled := false }

/-- The next topic, or the wait for the bit. -/
def after (s : Gate) (topic : Nat) : Issuer :=
  if topic + 1 < s.planned then .issue (topic + 1) else .idle

/-- A topic that is not built or not requested. A subscribe ends the attempt. An unsubscribe goes
on, except without the topic of the node. -/
def failed (kind : Kind) (s : Gate) (topic : Nat) (built : Bool) : Issuer :=
  match kind with
  | .subscribe => .idle
  | .unsubscribe => if topic = 0 ∧ ¬built then .idle else s.after topic

/-- The next step of the function. -/
def issuerStep (kind : Kind) (s : Gate) (built issued : Bool) : Issuer → Gate
  | .idle => s
  | .store => { s with count := s.planned % 2 ^ 32, issuer := .issue 0, tainted := false }
  | .issue topic =>
    if built && issued then
      { s with subs := s.subs.issue (s.attempt, topic), issuer := s.after topic }
    else { s with issuer := s.failed kind topic built }

/-- `esp_rmaker_core_subscribed_to_params`, or `esp_rmaker_core_unsubscribed_from_params`. -/
def signal (s : Gate) : Gate := { s with bit := true, flag := true, signalled := true }

/-- The next step of `__mqtt_on_complete_event_handler`. -/
def handlerStep (s : Gate) : Handler → Gate
  | .idle => s
  | .decrement sub ok =>
    { s with
      count := fetchSub s.count
      handler := if ok = true ∧ s.count = 1 then .signal s.attempt else .idle
      tainted := s.tainted || !ok || sub.1 != s.attempt }
  | .signal _ => { s.signal with handler := .idle }

end Gate

/-- Subscriptions are compared by both of their numbers. -/
local instance lawfulSub : LawfulBEq (Nat × Nat) := inferInstance

/-- The next step of one of the tasks. -/
def step (cfg : Config) (kind : Kind) (s : Gate) : Action → Option Gate
  | .start group => if s.issuer = .idle then some (s.start cfg group) else none
  | .issuer built issued =>
    if s.issuer = .idle then none else some (s.issuerStep kind built issued s.issuer)
  | .ack sub ok =>
    if s.handler = .idle ∧ sub ∈ s.subs.waiting then
      some { s with subs := s.subs.settle sub ok, handler := .decrement sub ok }
    else none
  | .handler => if s.handler = .idle then none else some (s.handlerStep s.handler)
  | .opposite => some { s with bit := false, flag := false }

/-- Before the first attempt. -/
def Initial (s : Gate) : Prop := s = {}

/-! ### The statement -/

/-- Each topic of the latest attempt was acknowledged successfully. -/
def Gate.AllTopics (s : Gate) : Prop := ∀ topic < s.planned, (s.attempt, topic) ∈ s.subs.acked

/-- The bit is set, and it and the flag are set by an acknowledgement, only when each topic of the
latest attempt was acknowledged. -/
structure Honest (s : Gate) : Prop where
  bit : s.bit = true → s.AllTopics
  signalled : s.signalled = true → s.AllTopics

/-- The handler is about to set the bit after counting successful acknowledgements of the latest
attempt only. -/
def Handler.Clean (s : Gate) : Handler → Prop
  | .decrement sub ok =>
    ok = true → s.count = 1 → s.tainted = false ∧ sub.1 = s.attempt
  | .signal attempt => attempt = s.attempt
  | .idle => True

instance (s : Gate) : ∀ h : Handler, Decidable (h.Clean s)
  | .decrement sub ok =>
    inferInstanceAs (Decidable (ok = true → s.count = 1 → s.tainted = false ∧ sub.1 = s.attempt))
  | .signal attempt => inferInstanceAs (Decidable (attempt = s.attempt))
  | .idle => inferInstanceAs (Decidable True)

/-- The last count of an attempt is a clean one. -/
def CountsClean (s : Gate) : Action → Prop
  | .handler => s.handler.Clean s
  | _ => True

instance (s : Gate) : ∀ a, Decidable (CountsClean s a)
  | .handler => inferInstanceAs (Decidable (s.handler.Clean s))
  | .start _ | .issuer _ _ | .ack _ _ | .opposite => inferInstanceAs (Decidable True)

/-! ### The counter -/

/-- The number of topics is positive and fits into the counter. -/
theorem Config.pending_bounds (cfg : Config) (group : Option Nat) :
    0 < cfg.pending group ∧ cfg.pending group < 2 ^ 32 := by
  have hfits := cfg.fits
  cases group with
  | none =>
    rw [Config.pending]
    omega
  | some subgroups =>
    rw [Config.pending]
    split <;> omega

/-- The requests of the latest attempt. -/
def Gate.own (s : Gate) : List (Nat × Nat) := s.subs.issuedOf s.attempt

/-- The acknowledged requests of the latest attempt. -/
def Gate.ownAcked (s : Gate) : List (Nat × Nat) := s.subs.ackedOf s.attempt

/-- A successful acknowledgement of the attempt that is not counted yet. -/
def Handler.uncounted (attempt : Nat) : Handler → Nat
  | .decrement sub true => if sub.1 = attempt then 1 else 0
  | _ => 0

/-- What the latest attempt has requested, at each place of the function. -/
def Gate.Fits (s : Gate) : Issuer → Prop
  | .idle => True
  | .store => s.own = [] ∧ s.tainted = true ∧ 0 < s.planned
  | .issue topic => topic < s.planned ∧ ∀ x ∈ s.own, x.2 < topic

/-- What the handler holds. -/
def Gate.Holds (s : Gate) : Handler → Prop
  | .idle => True
  | .decrement sub ok => ok = true → sub ∈ s.subs.acked
  | .signal n => n ≤ s.attempt ∧ (n = s.attempt → s.AllTopics)

/-- The invariant of the counter. -/
structure Inv (s : Gate) : Prop where
  sound : s.subs.Sound
  past : ∀ x ∈ s.subs.issued, x.1 ≤ s.attempt
  topics : ∀ x ∈ s.own, x.2 < s.planned
  bounded : s.planned < 2 ^ 32
  fits : s.Fits s.issuer
  holds : s.Holds s.handler
  counted : s.tainted = false →
    s.count + s.ownAcked.length = s.planned + s.handler.uncounted s.attempt
  bit : s.bit = true → s.signalled = true
  signalled : s.signalled = true → s.AllTopics

variable {s : Gate}

section
variable (h : Inv s)
include h

theorem Inv.honest : Honest s :=
  ⟨fun hbit => h.signalled (h.bit hbit), h.signalled⟩

/-- An acknowledged request of the latest attempt is one of its topics. -/
theorem Inv.ownAcked_subset :
    s.ownAcked ⊆ (List.range s.planned).map fun topic => (s.attempt, topic) := by
  intro x hx
  have hown := h.sound.ackedOf_subset hx
  rw [List.mem_map]
  exact ⟨x.2, List.mem_range.mpr (h.topics x hown),
    Prod.ext (Requests.mem_issuedOf.mp hown).2.symm rfl⟩

/-- There are at most as many acknowledged topics as topics. -/
theorem Inv.length_ownAcked_le : s.ownAcked.length ≤ s.planned := by
  have hsubperm := List.subperm_of_subset h.sound.nodup_ackedOf h.ownAcked_subset
  have hle := hsubperm.length_le
  rw [List.length_map, List.length_range] at hle
  exact hle

/-- As many acknowledged topics as there are topics are all of them. -/
theorem Inv.allTopics (hall : s.planned ≤ s.ownAcked.length) : s.AllTopics := by
  have hperm := (List.subperm_of_subset h.sound.nodup_ackedOf h.ownAcked_subset).perm_of_length_le
    (by rw [List.length_map, List.length_range]; exact hall)
  intro topic htopic
  have hmem := hperm.mem_iff.mpr
    (List.mem_map_of_mem (f := fun topic => (s.attempt, topic)) (List.mem_range.mpr htopic))
  exact (Requests.mem_ackedOf.mp hmem).1

/-! ### One step -/

/-- The parts that the invariant reads, where the requests stay. -/
theorem Inv.congr {t : Gate} (hsubs : t.subs = s.subs) (hattempt : t.attempt = s.attempt)
    (hplanned : t.planned = s.planned) (hfits : t.Fits t.issuer) (hholds : s.Holds t.handler)
    (hcounted : t.tainted = false →
      t.count + s.ownAcked.length = s.planned + t.handler.uncounted s.attempt)
    (hbit : t.bit = true → t.signalled = true) (hsignalled : t.signalled = true → s.AllTopics) :
    Inv t := by
  have hall : t.AllTopics ↔ s.AllTopics := by
    rw [Gate.AllTopics, Gate.AllTopics, hsubs, hattempt, hplanned]
  have hown : t.own = s.own := by rw [Gate.own, Gate.own, hsubs, hattempt]
  refine ⟨by rw [hsubs]; exact h.sound, ?_, ?_, by rw [hplanned]; exact h.bounded, hfits, ?_, ?_,
    hbit, fun hs => hall.mpr (hsignalled hs)⟩
  · rw [hsubs, hattempt]
    exact h.past
  · rw [hown, hplanned]
    exact h.topics
  · cases hplace : t.handler with
    | idle => exact trivial
    | decrement sub ok =>
      rw [hplace] at hholds
      show ok = true → sub ∈ t.subs.acked
      rw [hsubs]
      exact hholds
    | signal n =>
      rw [hplace] at hholds
      show n ≤ t.attempt ∧ (n = t.attempt → t.AllTopics)
      rw [hattempt, hall]
      exact hholds
  · rw [Gate.ownAcked, hsubs, hattempt, hplanned]
    exact hcounted

/-- An acknowledgement of the latest attempt answers one of its requests. -/
theorem Inv.uncounted_eq_zero (hnone : s.own = []) : s.handler.uncounted s.attempt = 0 := by
  have hholds := h.holds
  cases hhandler : s.handler with
  | idle => rfl
  | signal n => rfl
  | decrement sub ok =>
    rw [hhandler] at hholds
    cases ok with
    | false => rfl
    | true =>
      refine if_neg fun heq => ?_
      have hmem : sub ∈ s.own := Requests.mem_issuedOf.mpr
        ⟨h.sound.subset (List.mem_append_right _ (hholds rfl)), heq⟩
      rw [hnone] at hmem
      cases hmem

/-- A new attempt. -/
theorem Inv.start (cfg : Config) (group : Option Nat) : Inv (s.start cfg group) := by
  have hnone : s.subs.issuedOf (s.attempt + 1) = [] := by
    rw [List.eq_nil_iff_forall_not_mem]
    intro x hx
    obtain ⟨hx, heq⟩ := Requests.mem_issuedOf.mp hx
    have hle := h.past x hx
    omega
  have hbounds := cfg.pending_bounds group
  refine ⟨h.sound, fun x hx => Nat.le_succ_of_le (h.past x hx), ?_, hbounds.2,
    ⟨hnone, rfl, hbounds.1⟩, ?_, (fun ht => nomatch ht), (fun hb => nomatch hb),
    fun hs => nomatch hs⟩
  · intro x hx
    have hx : x ∈ s.subs.issuedOf (s.attempt + 1) := hx
    rw [hnone] at hx
    cases hx
  · have hholds := h.holds
    show Gate.Holds _ s.handler
    cases hhandler : s.handler with
    | idle => exact trivial
    | decrement sub ok =>
      rw [hhandler] at hholds
      exact hholds
    | signal n =>
      rw [hhandler] at hholds
      refine ⟨Nat.le_succ_of_le hholds.1, fun heq => ?_⟩
      have heq : n = s.attempt + 1 := heq
      have hle := hholds.1
      omega

end

/-- The topic after an index. -/
theorem fits_after {topic : Nat} (hown : ∀ x ∈ s.own, x.2 ≤ topic) : s.Fits (s.after topic) := by
  rw [Gate.after]
  split
  · next hlt => exact ⟨hlt, fun x hx => Nat.lt_succ_of_le (hown x hx)⟩
  · exact trivial

/-- The steps of the function. -/
theorem Inv.issuerStep (h : Inv s) (kind : Kind) (built issued : Bool) :
    Inv (s.issuerStep kind built issued s.issuer) := by
  have hfits := h.fits
  cases hissuer : s.issuer with
  | idle => exact h
  | store =>
    rw [hissuer] at hfits
    obtain ⟨hnone, -, hpos⟩ := hfits
    have hacked : s.ownAcked.length = 0 := by
      have hle := h.sound.length_ackedOf_le (n := s.attempt)
      rw [show s.subs.issuedOf s.attempt = [] from hnone] at hle
      exact Nat.le_zero.mp hle
    have hzero := h.uncounted_eq_zero hnone
    refine h.congr rfl rfl rfl ⟨hpos, ?_⟩ h.holds ?_ h.bit h.signalled
    · intro x hx
      have hx : x ∈ s.own := hx
      rw [hnone] at hx
      cases hx
    · intro _
      show s.planned % 2 ^ 32 + s.ownAcked.length = _
      show _ = s.planned + s.handler.uncounted s.attempt
      rw [Nat.mod_eq_of_lt h.bounded, hacked, hzero]
  | issue topic =>
    rw [hissuer] at hfits
    obtain ⟨hlt, hbelow⟩ := hfits
    have hle : ∀ x ∈ s.own, x.2 ≤ topic := fun x hx => Nat.le_of_lt (hbelow x hx)
    rw [Gate.issuerStep]
    split
    · have hnew : (s.attempt, topic) ∉ s.subs.issued := by
        intro hmem
        have hless := hbelow _ (Requests.mem_issuedOf.mpr ⟨hmem, rfl⟩)
        exact Nat.lt_irrefl _ hless
      have hadded : (s.subs.issue (s.attempt, topic)).issuedOf s.attempt =
          (s.attempt, topic) :: s.own := by
        rw [Requests.issuedOf_issue, if_pos rfl]
        rfl
      have hown : ∀ x ∈ (s.subs.issue (s.attempt, topic)).issuedOf s.attempt, x.2 ≤ topic := by
        intro x hx
        rw [hadded] at hx
        rcases List.mem_cons.mp hx with rfl | hx
        · exact Nat.le_refl _
        · exact hle x hx
      refine ⟨h.sound.issue hnew, ?_, ?_, h.bounded, ?_, ?_, h.counted, h.bit, h.signalled⟩
      · intro x hx
        rcases List.mem_cons.mp hx with rfl | hx
        · exact Nat.le_refl _
        · exact h.past x hx
      · exact fun x hx => Nat.lt_of_le_of_lt (hown x hx) hlt
      · exact fits_after (s := { s with
          subs := s.subs.issue (s.attempt, topic), issuer := s.after topic }) hown
      · have hholds := h.holds
        show Gate.Holds _ s.handler
        cases hhandler : s.handler
        all_goals
          rw [hhandler] at hholds
          exact hholds
    · refine h.congr rfl rfl rfl ?_ h.holds h.counted h.bit h.signalled
      have hafter : s.Fits (s.failed kind topic built) := by
        unfold Gate.failed
        split
        · exact trivial
        · split
          · exact trivial
          · exact fits_after hle
      cases hplace : s.failed kind topic built with
      | idle => exact trivial
      | store =>
        rw [hplace] at hafter
        exact hafter
      | issue next =>
        rw [hplace] at hafter
        exact hafter

/-- An acknowledgement arrives. -/
theorem Inv.ack (h : Inv s) (hidle : s.handler = .idle) {sub : Nat × Nat}
    (hsub : sub ∈ s.subs.waiting) (ok : Bool) :
    Inv { s with subs := s.subs.settle sub ok, handler := .decrement sub ok } := by
  have hcounted := h.counted
  rw [hidle] at hcounted
  have hall : s.AllTopics → Gate.AllTopics
      { s with subs := s.subs.settle sub ok, handler := .decrement sub ok } := by
    intro hall topic htopic
    have hmem := hall topic htopic
    cases ok with
    | false => exact hmem
    | true => exact List.mem_cons_of_mem _ hmem
  refine ⟨h.sound.settle hsub ok, h.past, h.topics, h.bounded, ?_, ?_, ?_, h.bit,
    fun hs => hall (h.signalled hs)⟩
  · have hfits := h.fits
    show Gate.Fits _ s.issuer
    cases hissuer : s.issuer
    all_goals
      rw [hissuer] at hfits
      exact hfits
  · intro hok
    rw [hok]
    exact List.mem_cons_self
  · intro hclean
    have hcount : s.count + s.ownAcked.length = s.planned + 0 := hcounted hclean
    show s.count + ((s.subs.settle sub ok).ackedOf s.attempt).length =
      s.planned + Handler.uncounted s.attempt (.decrement sub ok)
    rw [Requests.ackedOf_settle]
    cases ok with
    | false => exact hcount
    | true =>
      simp only [true_and, Handler.uncounted]
      simp only [Gate.ownAcked] at hcount
      split
      · rw [List.length_cons]
        omega
      · exact hcount

/-- An acknowledgement is counted. -/
theorem Inv.decrement (h : Inv s) {sub : Nat × Nat} {ok : Bool}
    (hhandler : s.handler = .decrement sub ok)
    (hclean : ok = true → s.count = 1 → s.tainted = false ∧ sub.1 = s.attempt) :
    Inv (s.handlerStep (.decrement sub ok)) := by
  have hcounted := h.counted
  have hholds := h.holds
  have hbounded := h.bounded
  rw [hhandler] at hcounted hholds
  refine h.congr rfl rfl rfl ?_ ?_ ?_ h.bit h.signalled
  · have hfits := h.fits
    show Gate.Fits _ s.issuer
    cases hissuer : s.issuer with
    | idle => exact trivial
    | issue topic =>
      rw [hissuer] at hfits
      exact ⟨hfits.1, hfits.2⟩
    | store =>
      rw [hissuer] at hfits
      refine ⟨hfits.1, ?_, hfits.2.2⟩
      show (s.tainted || !ok || sub.1 != s.attempt) = true
      rw [hfits.2.1]
      rfl
  · show s.Holds (if ok = true ∧ s.count = 1 then .signal s.attempt else .idle)
    split
    · next hlast =>
      refine ⟨Nat.le_refl _, fun _ => ?_⟩
      obtain ⟨htaint, hattempt⟩ := hclean hlast.1 hlast.2
      have hcount := hcounted htaint
      rw [hlast.1] at hcount
      simp only [Handler.uncounted, if_pos hattempt] at hcount
      exact h.allTopics (by omega)
    · exact trivial
  · intro hnew
    have hparts : (s.tainted || !ok || sub.1 != s.attempt) = false := hnew
    simp only [Bool.or_eq_false_iff, Bool.not_eq_false', bne_eq_false_iff_eq] at hparts
    obtain ⟨⟨htaint, rfl⟩, hattempt⟩ := hparts
    have hcount := hcounted htaint
    simp only [Handler.uncounted, if_pos hattempt] at hcount
    have hsigned : Handler.uncounted s.attempt
        (if true = true ∧ s.count = 1 then .signal s.attempt else .idle) = 0 := by
      split <;> rfl
    -- The acknowledgement is one of the planned ones, so the counter is not zero.
    have hle := h.length_ownAcked_le
    show fetchSub s.count + s.ownAcked.length = s.planned + Handler.uncounted s.attempt
      (if true = true ∧ s.count = 1 then .signal s.attempt else .idle)
    rw [hsigned, fetchSub, if_neg (by omega)]
    omega

/-- The handler sets the bit. -/
theorem Inv.signal (h : Inv s) {n : Nat} (hhandler : s.handler = .signal n) (hn : n = s.attempt) :
    Inv (s.handlerStep (.signal n)) := by
  have hholds := h.holds
  have hcounted := h.counted
  rw [hhandler] at hholds hcounted
  refine ⟨h.sound, h.past, h.topics, h.bounded, ?_, trivial, hcounted, fun _ => rfl,
    fun _ => hholds.2 hn⟩
  have hfits := h.fits
  show Gate.Fits _ s.issuer
  cases hissuer : s.issuer
  all_goals
    rw [hissuer] at hfits
    exact hfits

/-- Each step keeps the invariant, where the last count of an attempt is a clean one. -/
theorem Inv.step {cfg : Config} {kind : Kind} {t : Gate} {a : Action} (h : Inv s)
    (hg : CountsClean s a) (ht : step cfg kind s a = some t) : Inv t := by
  cases a with
  | start group =>
    rw [Subscription.step] at ht
    split at ht
    · obtain rfl := Option.some.inj ht
      exact h.start cfg group
    · cases ht
  | issuer built issued =>
    rw [Subscription.step] at ht
    split at ht
    · cases ht
    · obtain rfl := Option.some.inj ht
      exact h.issuerStep kind built issued
  | ack sub ok =>
    rw [Subscription.step] at ht
    split at ht
    · next hsub =>
      obtain rfl := Option.some.inj ht
      exact h.ack hsub.1 hsub.2 ok
    · cases ht
  | handler =>
    rw [Subscription.step] at ht
    split at ht
    · cases ht
    · obtain rfl := Option.some.inj ht
      have hclean : s.handler.Clean s := hg
      cases hhandler : s.handler with
      | idle => exact h
      | decrement sub ok =>
        rw [hhandler] at hclean
        exact h.decrement hhandler hclean
      | signal n =>
        rw [hhandler] at hclean
        exact h.signal hhandler hclean
  | opposite =>
    obtain rfl := Option.some.inj ht
    refine h.congr rfl rfl rfl ?_ h.holds h.counted (fun hb => nomatch hb) h.signalled
    have hfits := h.fits
    show Gate.Fits _ s.issuer
    cases hissuer : s.issuer
    all_goals
      rw [hissuer] at hfits
      exact hfits

/-! ### Every run -/

theorem Inv.initial (h : Initial s) : Inv s := by
  subst h
  exact ⟨Requests.Sound.empty, (fun x hx => nomatch hx), (fun x hx => nomatch hx), by decide, trivial,
    trivial, (fun _ => rfl), (fun hb => nomatch hb), fun hs => nomatch hs⟩

/-- **The subscription gate.** While the last count of each attempt is a clean one, the bit and the
flag are set only when each topic of the latest attempt was acknowledged successfully. -/
theorem honest_of_clean {cfg : Config} {kind : Kind}
    (h : Reach Initial (step cfg kind) CountsClean s) : Honest s :=
  (h.inv Inv (fun _ h => Inv.initial h) fun _ _ _ hi hg ht => hi.step hg ht).honest

/-- Three subgroups at most, and no bridge. -/
def nodeConfig : Config := { bridge := false, maxSubgroups := 3, fits := by decide }

/-- A failed attempt, and a second one that is acknowledged. -/
def retried : List Action :=
  [.start (some 0), .issuer true true, .issuer true true, .issuer true true, .ack (1, 0) true,
    .handler, .ack (1, 1) false, .handler, .start (some 0), .issuer true true, .issuer true true,
    .issuer true true, .ack (2, 1) true, .handler, .ack (2, 0) true, .handler, .handler]

theorem retried_honest :
    ∃ s, exec (step nodeConfig .subscribe) {} retried = some s ∧ s.bit = true ∧ Honest s := by
  have hrun : Reach Initial (step nodeConfig .subscribe) CountsClean _ :=
    Reach.exec retried (.start rfl) (by decide +kernel) rfl
  exact ⟨_, rfl, rfl, honest_of_clean hrun⟩

/-- The first acknowledgement is a failed one, and the second one is successful. -/
def failedAck : List Action :=
  [.start (some 0), .issuer true true, .issuer true true, .issuer true true, .ack (1, 0) false,
    .handler, .ack (1, 1) true, .handler, .handler]

/-- The acknowledgement of an earlier attempt makes up for one of the latest attempt. -/
def lateAck : List Action :=
  [.start (some 0), .issuer true true, .issuer true true, .issuer true true, .start (some 0),
    .issuer true true, .issuer true true, .issuer true true, .ack (1, 0) true, .handler,
    .ack (2, 1) true, .handler, .handler]

/-- The bit is set without the topic of the node. -/
def SignalsWithout (kind : Kind) : Prop :=
  ∃ s, Reach Initial (step nodeConfig kind) (fun _ _ => True) s ∧ s.bit = true ∧ s.flag = true ∧
    0 < s.planned ∧ (s.attempt, 0) ∉ s.subs.acked

/-- The bit is set after a failed acknowledgement, and after a late one. The unsubscribes are
counted in the same way. -/
theorem failed_or_late_signals :
    (SignalsWithout .subscribe ∧ SignalsWithout .unsubscribe) ∧
      ∃ s, Reach Initial (step nodeConfig .subscribe) (fun _ _ => True) s ∧ s.bit = true ∧
        2 = s.attempt ∧ ¬s.AllTopics := by
  refine ⟨⟨?_, ?_⟩, ?_⟩
  · exact ⟨_, Reach.exec_true failedAck (.start rfl) rfl, rfl, rfl, by decide +kernel,
      by decide +kernel⟩
  · exact ⟨_, Reach.exec_true failedAck (.start rfl) rfl, rfl, rfl, by decide +kernel,
      by decide +kernel⟩
  · refine ⟨_, Reach.exec_true lateAck (.start rfl) rfl, rfl, rfl, fun hall => ?_⟩
    have hmem := hall 0 (by decide +kernel)
    revert hmem
    decide +kernel

end RainMakerNeo.State.Subscription
