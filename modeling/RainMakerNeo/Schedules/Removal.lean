import Mathlib.Data.List.Induction
import Mathlib.Data.List.Nodup
import RainMakerNeo.Schedules.Service

/-!
# `RainMakerNeo.Schedules.Removal`: which schedule a removal takes

The fire task and the arm-time prune both look a schedule up by its cloud id and remove the
first one that carries it. The id names the intended instance only as long as no other instance
with the same id comes first in the list. `removals_exact` states this condition, both as the
exact condition of one step and as a condition on the steps of a run.

The invariant `Numbered` carries the ghost numbers: they are fresh, unique in each list, and a
queued copy has the one-shot flag of the instance that it was copied from. `rescheduleFrom`
walks the list downwards, so its lemmas are by induction on the part of the list that is still
ahead, from its end.
-/

set_option autoImplicit false

namespace RainMakerNeo.Schedules

open RainMakerNeo.Lib (Reach)

variable {Coord : Type} [Inhabited Coord]

/-! ### The handle numbers -/

/-- What stays fixed about a handle while it is live. -/
def Handle.tag (h : Handle Coord) : Nat × Bool := (h.inst, h.schedule.oneShot)

/-- Numbers are below the next one and unique in each list. A flag per number agrees with the
live handles and with the queued copies. -/
structure Numbered (s : Service Coord) : Prop where
  below : ∀ key, ∀ t ∈ (s.handles key).map Handle.tag, t.1 < s.nextInst
  nodup : ∀ key, (((s.handles key).map Handle.tag).map Prod.fst).Nodup
  flags : ∃ oneShot : Nat → Bool,
    (∀ key, ∀ t ∈ (s.handles key).map Handle.tag, oneShot t.1 = t.2) ∧
      ∀ copy, .fire copy ∈ s.queue → copy.inst < s.nextInst ∧ oneShot copy.inst = copy.oneShot

theorem numbered_initial : Numbered (Service.initial : Service Coord) := by
  refine ⟨?_, ?_, fun _ => false, ?_, ?_⟩ <;> simp [Service.initial]

variable {s : Service Coord} {hs : List (Handle Coord)} {clock : Clock Coord} {h : Handle Coord}
  {P : Platform Coord}

/-- Dropping handles and changing armed instants keeps the numbering. -/
theorem Numbered.setHandles (h : Numbered s) (key : NodeKey)
    (hsub : (hs.map Handle.tag).Sublist ((s.handles key).map Handle.tag)) :
    Numbered (s.setHandles key hs) := by
  obtain ⟨oneShot, hflags, hcopies⟩ := h.flags
  refine ⟨?_, ?_, oneShot, ?_, hcopies⟩
  · intro k t ht
    by_cases hk : k = key
    · subst hk
      exact h.below k t (hsub.subset (by simpa [Service.setHandles] using ht))
    · exact h.below k t (by simpa [Service.setHandles, hk] using ht)
  · intro k
    by_cases hk : k = key
    · subst hk
      simpa [Service.setHandles] using (h.nodup k).sublist (hsub.map Prod.fst)
    · simpa [Service.setHandles, hk] using h.nodup k
  · intro k t ht
    by_cases hk : k = key
    · subst hk
      exact hflags k t (hsub.subset (by simpa [Service.setHandles] using ht))
    · exact hflags k t (by simpa [Service.setHandles, hk] using ht)

variable {t : Service Coord} {armed : Schedule Coord}

/-- A service that differs in the history and the rest of the queue only keeps the numbering. -/
theorem Numbered.congr (h : Numbered s) (hh : t.handles = s.handles)
    (hn : t.nextInst = s.nextInst) (hq : ∀ copy, .fire copy ∈ t.queue → .fire copy ∈ s.queue) :
    Numbered t := by
  obtain ⟨oneShot, hflags, hcopies⟩ := h.flags
  refine ⟨?_, ?_, oneShot, ?_, ?_⟩
  · rw [hh, hn]
    exact h.below
  · rw [hh]
    exact h.nodup
  · rw [hh]
    exact hflags
  · rw [hn]
    exact fun copy hc => hcopies copy (hq copy hc)

/-- Removing by id keeps the order of the other handles. -/
theorem removeByCloudId_sublist (hs : List (Handle Coord)) (id : List Char) :
    (removeByCloudId hs id).Sublist hs := by
  unfold removeByCloudId
  split
  · exact List.Sublist.refl hs
  · exact List.eraseP_sublist

/-- A re-arm keeps the number and the flag of a handle. -/
theorem tag_armed (P : Platform Coord) (ha : armOrDefer P clock h.schedule = some armed) :
    ({ h with schedule := armed } : Handle Coord).tag = h.tag ∧
      armed.cloudId = h.schedule.cloudId := by
  unfold armOrDefer at ha
  split at ha
  · simp at ha
  · split at ha
    · obtain rfl := Option.some.inj ha
      exact ⟨rfl, rfl⟩
    · obtain rfl := Option.some.inj ha
      exact ⟨rfl, rfl⟩

/-- Replacing a handle by its re-armed form keeps the tags of the list. -/
theorem map_tag_set {i : Nat} {h' : Handle Coord} (hi : hs[i]? = some h) (htag : h'.tag = h.tag) :
    (hs.set i h').map Handle.tag = hs.map Handle.tag := by
  obtain ⟨hlt, rfl⟩ := List.getElem?_eq_some_iff.mp hi
  rw [List.map_set, htag, ← List.getElem_map Handle.tag (h := by simpa using hlt),
    List.set_getElem_self]

section RescheduleLoop

variable (P : Platform Coord) (clock : Clock Coord) {i : Nat} {hs : List (Handle Coord)}
  {h : Handle Coord} {armed : Schedule Coord}

theorem rescheduleFrom_of_none (hi : hs[i]? = none) :
    rescheduleFrom P clock (i + 1) hs = rescheduleFrom P clock i hs := by
  rw [rescheduleFrom, hi]

theorem rescheduleFrom_of_deferred (hi : hs[i]? = some h)
    (ha : armOrDefer P clock h.schedule = none) :
    rescheduleFrom P clock (i + 1) hs = rescheduleFrom P clock i hs := by
  rw [rescheduleFrom, hi]
  simp only [ha]

theorem rescheduleFrom_of_armed (hi : hs[i]? = some h)
    (ha : armOrDefer P clock h.schedule = some armed)
    (hspent : scheduleIsSpent clock armed = false) :
    rescheduleFrom P clock (i + 1) hs =
      rescheduleFrom P clock i (hs.set i { h with schedule := armed }) := by
  rw [rescheduleFrom, hi]
  simp only [ha, hspent, Bool.false_eq_true, if_false]

theorem rescheduleFrom_of_spent (hi : hs[i]? = some h)
    (ha : armOrDefer P clock h.schedule = some armed)
    (hspent : scheduleIsSpent clock armed = true) :
    rescheduleFrom P clock (i + 1) hs =
      ((rescheduleFrom P clock i
          (removeByCloudId (hs.set i { h with schedule := armed }) armed.cloudId)).1,
        (rescheduleFrom P clock i
          (removeByCloudId (hs.set i { h with schedule := armed }) armed.cloudId)).2 ++
            removalOf (hs.set i { h with schedule := armed }) armed.cloudId (.spent h.inst)) := by
  rw [rescheduleFrom, hi]
  simp only [ha, hspent, if_true]

end RescheduleLoop

/-- A visit keeps or drops handles, and never adds one. -/
theorem rescheduleFrom_sublist (P : Platform Coord) (clock : Clock Coord) (i : Nat)
    (hs : List (Handle Coord)) :
    ((rescheduleFrom P clock i hs).1.map Handle.tag).Sublist (hs.map Handle.tag) := by
  induction i generalizing hs with
  | zero => exact List.Sublist.refl _
  | succ i ih =>
    cases hi : hs[i]? with
    | none =>
      rw [rescheduleFrom_of_none P clock hi]
      exact ih hs
    | some h =>
      cases ha : armOrDefer P clock h.schedule with
      | none =>
        rw [rescheduleFrom_of_deferred P clock hi ha]
        exact ih hs
      | some armed =>
        have hset := map_tag_set hi (tag_armed P ha).1
        cases hspent : scheduleIsSpent clock armed with
        | false =>
          rw [rescheduleFrom_of_armed P clock hi ha hspent, ← hset]
          exact ih _
        | true =>
          rw [rescheduleFrom_of_spent P clock hi ha hspent, ← hset]
          exact (ih _).trans ((removeByCloudId_sublist _ _).map _)

/-- New handles get fresh numbers, one each. -/
theorem number_tags (next : Nat) (built : List (Schedule Coord)) :
    (∀ h ∈ number next built, next ≤ h.inst ∧ h.inst < next + built.length) ∧
      ((number next built).map Handle.inst).Nodup := by
  induction built generalizing next with
  | nil => simp [number]
  | cons schedule rest ih =>
    obtain ⟨hrange, hnodup⟩ := ih (next + 1)
    constructor
    · intro h hh
      rcases List.mem_cons.mp hh with rfl | hh
      · simp
      · have := hrange h hh
        simp only [List.length_cons]
        omega
    · rw [number, List.map_cons, List.nodup_cons]
      refine ⟨?_, hnodup⟩
      rintro hmem
      obtain ⟨h, hh, heq⟩ := List.mem_map.mp hmem
      have := (hrange h hh).1
      simp only at heq
      omega

/-- In a list with unique numbers, the search for a number finds the handle that has it. -/
theorem find?_inst (hnodup : (hs.map Handle.inst).Nodup) (hh : h ∈ hs) :
    hs.find? (fun g => g.inst == h.inst) = some h := by
  induction hs with
  | nil => simp at hh
  | cons g hs ih =>
    rw [List.map_cons, List.nodup_cons] at hnodup
    rcases List.mem_cons.mp hh with rfl | hh
    · simp
    · have hne : g.inst ≠ h.inst := fun heq => hnodup.1 (heq ▸ List.mem_map_of_mem hh)
      rw [List.find?_cons_of_neg (by simpa using hne)]
      exact ih hnodup.2 hh

/-- Installing a new list keeps the numbering. -/
theorem Numbered.install (P : Platform Coord) (h : Numbered s) (owner : Owner)
    (data : Option (List (Option (ScheduleObject Coord)))) (clock : Clock Coord) :
    Numbered (s.install P owner data clock) := by
  unfold Service.install
  cases hkey : ownerNodeKey P owner with
  | none => exact h
  | some key =>
    simp only
    generalize (buildScheduleDetails P clock owner _ data).1 = built
    obtain ⟨hrange, hnodup⟩ := number_tags s.nextInst built
    obtain ⟨oneShot, hflags, hcopies⟩ := h.flags
    -- The flags of the new numbers come from the new handles.
    let flag : Nat → Bool := fun n =>
      if n < s.nextInst then oneShot n
      else (((number s.nextInst built).find? fun g => g.inst == n).map
        (·.schedule.oneShot)).getD false
    refine ⟨?_, ?_, flag, ?_, ?_⟩
    · intro k t ht
      by_cases hk : k = key
      · subst hk
        obtain ⟨g, hg, rfl⟩ := List.mem_map.mp
          (by simpa [Service.setHandles] using ht : t ∈ (number s.nextInst built).map Handle.tag)
        exact (hrange g hg).2
      · have := h.below k t (by simpa [Service.setHandles, hk] using ht)
        simp only
        omega
    · intro k
      by_cases hk : k = key
      · subst hk
        simpa [Service.setHandles, Function.comp_def, Handle.tag] using hnodup
      · simpa [Service.setHandles, hk] using h.nodup k
    · intro k t ht
      by_cases hk : k = key
      · subst hk
        obtain ⟨g, hg, rfl⟩ := List.mem_map.mp
          (by simpa [Service.setHandles] using ht : t ∈ (number s.nextInst built).map Handle.tag)
        have hge : ¬g.inst < s.nextInst := Nat.not_lt.mpr (hrange g hg).1
        simp only [flag, Handle.tag, if_neg hge, find?_inst hnodup hg, Option.map_some,
          Option.getD_some]
      · have ht' : t ∈ (s.handles k).map Handle.tag := by simpa [Service.setHandles, hk] using ht
        simp only [flag, if_pos (h.below k t ht'), hflags k t ht']
    · intro copy hc
      obtain ⟨hlt, hflag⟩ := hcopies copy hc
      exact ⟨Nat.lt_add_right _ hlt, by simp only [flag, if_pos hlt, hflag]⟩

/-- The fire task drops at most one handle. -/
theorem Numbered.runFire (h : Numbered s) (copy : FireCopy) (doWork : Bool) :
    Numbered (s.runFire copy doWork) := by
  unfold Service.runFire
  split
  · exact (h.setHandles copy.nodeKey ((removeByCloudId_sublist _ _).map _)).congr rfl rfl
      fun _ hc => hc
  · exact h

/-- A queued copy carries the number and the flag of a live handle. -/
theorem Numbered.enqueue (h : Numbered s) {key : NodeKey} {g : Handle Coord}
    (hg : g ∈ s.handles key) : Numbered { s with queue := s.queue ++ [.fire g.fireCopy] } := by
  obtain ⟨oneShot, hflags, hcopies⟩ := h.flags
  have htag : g.tag ∈ (s.handles key).map Handle.tag := List.mem_map_of_mem hg
  refine ⟨h.below, h.nodup, oneShot, hflags, fun copy hc => ?_⟩
  rcases List.mem_append.mp hc with hc | hc
  · exact hcopies copy hc
  · obtain rfl : copy = g.fireCopy := by simpa using hc
    exact ⟨h.below key _ htag, hflags key _ htag⟩

/-- Every critical section keeps the numbering. -/
theorem Numbered.step (h : Numbered s) {a : Action Coord} (ht : step P s a = some t) :
    Numbered t := by
  cases a with
  | trigger key inst queued =>
    obtain ⟨g, hg, rfl⟩ := Option.map_eq_some_iff.mp ht
    cases queued with
    | false => exact h
    | true => exact h.enqueue (List.mem_of_find?_eq_some hg)
  | timestamp key inst ts =>
    obtain ⟨g, -, rfl⟩ := Option.map_eq_some_iff.mp ht
    refine h.setHandles key ?_
    have hmap : ((s.handles key).map (Handle.timestamp inst ts)).map Handle.tag =
        (s.handles key).map Handle.tag := by
      rw [List.map_map]
      refine List.map_congr_left fun g _ => ?_
      simp only [Function.comp_apply, Handle.timestamp]
      split <;> rfl
    rw [hmap]
  | receive owner data =>
    obtain rfl := Option.some.inj ht
    exact h.congr rfl rfl fun copy hc => by simpa using hc
  | work doWork clock =>
    cases hq : s.queue with
    | nil => simp [Schedules.step, hq] at ht
    | cons task queue =>
      have hrest : Numbered { s with queue := queue } :=
        h.congr rfl rfl fun copy hc => hq ▸ List.mem_cons_of_mem _ hc
      cases task with
      | fire copy =>
        simp only [Schedules.step, hq, Option.some.injEq] at ht
        exact ht ▸ hrest.runFire copy doWork
      | update owner data =>
        simp only [Schedules.step, hq, Option.some.injEq] at ht
        exact ht ▸ hrest.install P owner data clock
  | visit key clock =>
    obtain rfl := Option.some.inj ht
    exact (h.setHandles key (rescheduleFrom_sublist P clock _ _)).congr rfl rfl fun _ hc => hc
  | reload owner data clock =>
    obtain rfl := Option.some.inj ht
    exact h.install P owner data clock
  | unload key =>
    obtain rfl := Option.some.inj ht
    exact h.setHandles key (List.nil_sublist _)
  | register key present =>
    obtain rfl := Option.some.inj ht
    exact h.congr rfl rfl fun _ hc => hc

/-! ### The condition on a step -/

/-- A removal took the instance that it was meant for, and a fire took a one-shot. -/
def Removal.Exact (r : Removal Coord) : Prop :=
  r.removed.inst = r.cause.inst ∧
    ∀ inst, r.cause = .fired inst → r.removed.schedule.oneShot = true

/-- The first schedule of the list under the id is the given instance, or no schedule has the
id. -/
def FirstIs (hs : List (Handle Coord)) (id : List Char) (inst : Nat) : Prop :=
  ∀ h ∈ firstWithId hs id, h.inst = inst

/-- The re-arm of the handle finds no occurrence left, and the handle has an id to look up. -/
def Spends (P : Platform Coord) (clock : Clock Coord) (h : Handle Coord) : Prop :=
  h.schedule.cloudId ≠ [] ∧ (armOrDefer P clock h.schedule).any (scheduleIsSpent clock) = true

/-- A deferred arm spends nothing. -/
theorem not_spends_of_deferred (ha : armOrDefer P clock h.schedule = none) : ¬Spends P clock h := by
  rintro ⟨-, hs⟩
  rw [ha] at hs
  cases hs

theorem spends_iff_of_armed (ha : armOrDefer P clock h.schedule = some armed) :
    Spends P clock h ↔ h.schedule.cloudId ≠ [] ∧ scheduleIsSpent clock armed = true := by
  rw [Spends, ha, Option.any_some]

/-- No spent handle of the list comes after a handle with its id. -/
def SpentFirst (P : Platform Coord) (clock : Clock Coord) (hs : List (Handle Coord)) : Prop :=
  hs.Pairwise fun g h => Spends P clock h → g.schedule.cloudId ≠ h.schedule.cloudId

/-- The condition on a step. When the worker runs a fire task, the first schedule under its id
is the instance that fired, or there is none. When a visit re-arms a list, no handle that turns
out spent comes after another one with its id. -/
def RemovesOwn (P : Platform Coord) (s : Service Coord) : Action Coord → Prop
  | .work doWork _ => match s.queue with
    | .fire copy :: _ =>
      doWork = true → s.registered copy.nodeKey = true → copy.oneShot = true →
        FirstIs (s.handles copy.nodeKey) copy.cloudId copy.inst
    | _ => True
  | .visit key clock => SpentFirst P clock (s.handles key)
  | _ => True

instance (hs : List (Handle Coord)) (id : List Char) (inst : Nat) :
    Decidable (FirstIs hs id inst) :=
  decidable_of_iff ((firstWithId hs id).all (·.inst == inst) = true) (by
    rw [FirstIs]
    cases firstWithId hs id <;> simp)

instance (P : Platform Coord) (clock : Clock Coord) (h : Handle Coord) :
    Decidable (Spends P clock h) := inferInstanceAs (Decidable (_ ∧ _))

instance (P : Platform Coord) (clock : Clock Coord) (hs : List (Handle Coord)) :
    Decidable (SpentFirst P clock hs) := inferInstanceAs (Decidable (List.Pairwise _ _))

instance (P : Platform Coord) (s : Service Coord) :
    ∀ a : Action Coord, Decidable (RemovesOwn P s a)
  | .work doWork clock => match hq : s.queue with
    | [] => .isTrue (by simp [RemovesOwn, hq])
    | .fire copy :: _ => decidable_of_iff
        (doWork = true → s.registered copy.nodeKey = true → copy.oneShot = true →
          FirstIs (s.handles copy.nodeKey) copy.cloudId copy.inst) (by simp [RemovesOwn, hq])
    | .update _ _ :: _ => .isTrue (by simp [RemovesOwn, hq])
  | .visit key clock => inferInstanceAs (Decidable (SpentFirst P clock (s.handles key)))
  | .trigger _ _ _ | .timestamp _ _ _ | .receive _ _ | .reload _ _ _ | .unload _
  | .register _ _ => .isTrue trivial

section LookUp

variable {pre post : List (Handle Coord)} {h : Handle Coord} {id : List Char}

/-- The look-up passes over handles with other ids. -/
theorem firstWithId_append (hpre : ∀ g ∈ pre, g.schedule.cloudId ≠ id)
    (hid : h.schedule.cloudId = id) (hne : id ≠ []) :
    firstWithId (pre ++ h :: post) id = some h := by
  have hnone : pre.find? (fun g => g.schedule.cloudId == id) = none := by
    rw [List.find?_eq_none]
    intro g hg
    simpa using hpre g hg
  rw [firstWithId, if_neg hne, List.find?_append, hnone, Option.none_or,
    List.find?_cons_of_pos (by simpa using hid)]

/-- The removal passes over handles with other ids. -/
theorem removeByCloudId_append (hpre : ∀ g ∈ pre, g.schedule.cloudId ≠ id)
    (hid : h.schedule.cloudId = id) (hne : id ≠ []) :
    removeByCloudId (pre ++ h :: post) id = pre ++ post := by
  rw [removeByCloudId, if_neg hne,
    List.eraseP_append_right _ (fun g hg => by simpa using hpre g hg),
    List.eraseP_cons_of_pos (by simpa using hid)]

/-- The look-up stops at an earlier handle that has the id. -/
theorem firstWithId_mem_of_mem (hne : id ≠ []) {g : Handle Coord} (hg : g ∈ pre)
    (hid : g.schedule.cloudId = id) : ∃ g' ∈ pre, firstWithId (pre ++ post) id = some g' := by
  obtain ⟨g', hg'⟩ := Option.isSome_iff_exists.mp
    (List.find?_isSome.mpr ⟨g, hg, by simpa using hid⟩ :
      (pre.find? fun g => g.schedule.cloudId == id).isSome = true)
  refine ⟨g', List.mem_of_find?_eq_some hg', ?_⟩
  rw [firstWithId, if_neg hne, List.find?_append, hg', Option.some_or]

end LookUp

/-- A handle at the end of the list is the last one to be first under its id. -/
theorem spentFirst_append_singleton (P : Platform Coord) (clock : Clock Coord)
    (pre : List (Handle Coord)) (h : Handle Coord) :
    SpentFirst P clock (pre ++ [h]) ↔ SpentFirst P clock pre ∧
      (Spends P clock h → ∀ g ∈ pre, g.schedule.cloudId ≠ h.schedule.cloudId) := by
  rw [SpentFirst, List.pairwise_append]
  constructor
  · rintro ⟨hpre, -, hlast⟩
    exact ⟨hpre, fun hs g hg => hlast g hg h List.mem_cons_self hs⟩
  · rintro ⟨hpre, hlast⟩
    refine ⟨hpre, List.pairwise_singleton _ _, fun g hg h' hh' hs => ?_⟩
    obtain rfl := List.mem_singleton.mp hh'
    exact hlast hs g hg

/-- A visit takes the right instances exactly when no spent handle comes after another one with
its id. The induction is on the part of the list that the loop has not reached. -/
theorem rescheduleFrom_exact_iff (P : Platform Coord) (clock : Clock Coord)
    (pre post : List (Handle Coord)) (hnodup : ((pre ++ post).map Handle.inst).Nodup) :
    (∀ r ∈ (rescheduleFrom P clock pre.length (pre ++ post)).2, r.Exact) ↔
      SpentFirst P clock pre := by
  induction pre using List.reverseRecOn generalizing post with
  | nil => simp [rescheduleFrom, SpentFirst]
  | append_singleton pre h ih =>
    rw [spentFirst_append_singleton, List.append_assoc, List.length_append]
    have hi : (pre ++ ([h] ++ post))[pre.length]? = some h := by simp
    have hset (g : Handle Coord) : (pre ++ ([h] ++ post)).set pre.length g = pre ++ g :: post := by
      simp
    have hinst (g : Handle Coord) (hg : g.inst = h.inst) :
        ((pre ++ g :: post).map Handle.inst).Nodup := by simpa [hg] using hnodup
    cases ha : armOrDefer P clock h.schedule with
    | none =>
      have hspends := not_spends_of_deferred ha
      rw [List.length_singleton, rescheduleFrom_of_deferred P clock hi ha]
      simp only [hspends, false_implies, and_true]
      exact ih (h :: post) (hinst h rfl)
    | some armed =>
      cases hspent : scheduleIsSpent clock armed with
      | false =>
        have hspends : ¬Spends P clock h := by simp [spends_iff_of_armed ha, hspent]
        rw [List.length_singleton, rescheduleFrom_of_armed P clock hi ha hspent, hset]
        simp only [hspends, false_implies, and_true]
        exact ih (_ :: post) (hinst _ rfl)
      | true =>
        have hid := (tag_armed P ha).2
        rw [List.length_singleton, rescheduleFrom_of_spent P clock hi ha hspent, hset, hid]
        by_cases hne : h.schedule.cloudId = []
        · have hspends : ¬Spends P clock h := fun hs => hs.1 hne
          simp only [hspends, false_implies, and_true, hne, removeByCloudId, removalOf,
            firstWithId, if_true, Option.map_none, Option.toList_none, List.append_nil]
          exact ih (_ :: post) (hinst _ rfl)
        · have hspends := (spends_iff_of_armed ha).mpr ⟨hne, hspent⟩
          simp only [hspends, true_implies, List.mem_append]
          by_cases hclash : ∃ g ∈ pre, g.schedule.cloudId = h.schedule.cloudId
          · obtain ⟨g, hg, hgid⟩ := hclash
            obtain ⟨g', hg', hfirst⟩ : ∃ g' ∈ pre,
                firstWithId (pre ++ { h with schedule := armed } :: post) h.schedule.cloudId =
                  some g' :=
              firstWithId_mem_of_mem hne hg hgid
            refine iff_of_false (fun hexact => ?_) fun hpre => hpre.2 g hg hgid
            have hinst' : g'.inst = h.inst :=
              (hexact ⟨g', .spent h.inst⟩ (.inr (by simp [removalOf, hfirst]))).1
            have hdis := List.disjoint_of_nodup_append
              (by simpa only [List.append_assoc, List.map_append] using hnodup :
                (pre.map Handle.inst ++ ([h] ++ post).map Handle.inst).Nodup)
            exact hdis (List.mem_map_of_mem hg') (by simp [hinst'])
          · push Not at hclash
            rw [removeByCloudId_append hclash hid hne, removalOf,
              firstWithId_append hclash hid hne]
            have hrest : ((pre ++ post).map Handle.inst).Nodup := by
              refine hnodup.sublist ?_
              simp
            rw [← ih post hrest]
            simp only [Option.map_some, Option.toList_some, List.mem_singleton]
            constructor
            · exact fun hexact => ⟨fun r hr => hexact r (.inl hr), hclash⟩
            · rintro ⟨hexact, -⟩ r (hr | rfl)
              · exact hexact r hr
              · exact ⟨rfl, fun inst hinst => by simp at hinst⟩

/-! ### The history of a run -/

/-- Every removal of the history took the instance that it was meant for. -/
def Service.AllExact (s : Service Coord) : Prop := ∀ r ∈ s.removals, r.Exact

/-- A live handle with the number of a queued copy has the flag of the copy. -/
theorem Numbered.flag_eq (h : Numbered s) {copy : FireCopy} (hc : .fire copy ∈ s.queue)
    {key : NodeKey} {g : Handle Coord} (hg : g ∈ s.handles key) (hinst : g.inst = copy.inst) :
    g.schedule.oneShot = copy.oneShot := by
  obtain ⟨oneShot, hflags, hcopies⟩ := h.flags
  have hflag : oneShot g.inst = g.schedule.oneShot := hflags key g.tag (List.mem_map_of_mem hg)
  rw [← hflag, hinst, (hcopies copy hc).2]

/-- What the look-up finds is in the list. -/
theorem mem_of_firstWithId {id : List Char} (hh : h ∈ firstWithId hs id) : h ∈ hs := by
  unfold firstWithId at hh
  split at hh
  · simp at hh
  · exact List.mem_of_find?_eq_some hh

/-- A fire task takes the right instance exactly when that one is first under its id, or no
schedule has the id. -/
theorem runFire_allExact_iff {copy : FireCopy} (hexact : s.AllExact)
    (hflag : ∀ g ∈ s.handles copy.nodeKey, g.inst = copy.inst → g.schedule.oneShot = copy.oneShot)
    (doWork : Bool) :
    (s.runFire copy doWork).AllExact ↔
      (doWork = true → s.registered copy.nodeKey = true → copy.oneShot = true →
        FirstIs (s.handles copy.nodeKey) copy.cloudId copy.inst) := by
  unfold Service.runFire
  by_cases hrun : (doWork && s.registered copy.nodeKey && copy.oneShot) = true
  · rw [if_pos hrun]
    simp only [Bool.and_eq_true] at hrun
    obtain ⟨⟨hwork, hreg⟩, hone⟩ := hrun
    simp only [hwork, hreg, hone, true_implies, Service.AllExact, List.mem_append]
    constructor
    · intro h g hg
      have hr := h ⟨g, .fired copy.inst⟩ (.inl (by
        rw [removalOf, Option.mem_def.mp hg]
        simp))
      exact hr.1
    · rintro hfirst r (hr | hr)
      · obtain ⟨g, hg, rfl⟩ := Option.map_eq_some_iff.mp (Option.mem_toList.mp hr)
        have hinst := hfirst g hg
        exact ⟨hinst, fun _ _ => (hflag g (mem_of_firstWithId hg) hinst).trans hone⟩
      · exact hexact r hr
  · rw [if_neg hrun]
    refine iff_of_true hexact fun hwork hreg hone => ?_
    simp [hwork, hreg, hone] at hrun

/-- An install leaves the history alone. -/
theorem install_removals (P : Platform Coord) (s : Service Coord) (owner : Owner)
    (data : Option (List (Option (ScheduleObject Coord)))) (clock : Clock Coord) :
    (s.install P owner data clock).removals = s.removals := by
  unfold Service.install
  cases ownerNodeKey P owner <;> rfl

/-- **One step.** From a numbered state whose history is exact, a step leaves the history exact
exactly when the step meets the condition. -/
theorem step_allExact_iff (hnum : Numbered s) (hexact : s.AllExact) {a : Action Coord}
    (ht : step P s a = some t) : t.AllExact ↔ RemovesOwn P s a := by
  -- Only the fire task and the visit write the history.
  have hkeep (heq : t.removals = s.removals) : t.AllExact := by
    rw [Service.AllExact, heq]
    exact hexact
  cases a with
  | trigger key inst queued =>
    obtain ⟨g, -, rfl⟩ := Option.map_eq_some_iff.mp ht
    exact iff_of_true (hkeep (by cases queued <;> rfl)) trivial
  | timestamp key inst ts =>
    obtain ⟨g, -, rfl⟩ := Option.map_eq_some_iff.mp ht
    exact iff_of_true (hkeep rfl) trivial
  | receive owner data =>
    obtain rfl := Option.some.inj ht
    exact iff_of_true (hkeep rfl) trivial
  | work doWork clock =>
    cases hq : s.queue with
    | nil => simp [step, hq] at ht
    | cons task queue =>
      cases task with
      | fire copy =>
        simp only [step, hq, Option.some.injEq] at ht
        have hc : .fire copy ∈ s.queue := hq ▸ List.mem_cons_self
        simp only [RemovesOwn, hq, ← ht]
        exact runFire_allExact_iff (s := { s with queue := queue }) hexact
          (fun g hg => hnum.flag_eq hc hg) doWork
      | update owner data =>
        simp only [step, hq, Option.some.injEq] at ht
        simp only [RemovesOwn, hq]
        exact iff_of_true (hkeep (ht ▸ install_removals P _ owner data clock)) trivial
  | visit key clock =>
    obtain rfl := Option.some.inj ht
    have hnodup : ((s.handles key).map Handle.inst).Nodup := by
      simpa [Function.comp_def, Handle.tag] using hnum.nodup key
    rw [RemovesOwn, ← rescheduleFrom_exact_iff P clock (s.handles key) [] (by simpa using hnodup)]
    simp only [Service.AllExact, Service.reschedule, List.mem_append, List.append_nil]
    constructor
    · exact fun h r hr => h r (.inl hr)
    · rintro h r (hr | hr)
      · exact h r hr
      · exact hexact r hr
  | reload owner data clock =>
    obtain rfl := Option.some.inj ht
    exact iff_of_true (hkeep (install_removals P s owner data clock)) trivial
  | unload key =>
    obtain rfl := Option.some.inj ht
    exact iff_of_true (hkeep rfl) trivial
  | register key present =>
    obtain rfl := Option.some.inj ht
    exact iff_of_true (hkeep rfl) trivial

/-- **Stale fires and repeated ids.** In every run whose steps all meet the condition, every
removal takes the very instance that fired or was found spent, and a fire never takes a
repeating schedule. In any run, the first step that breaks the condition is the first that
removes another instance. -/
theorem removals_exact (P : Platform Coord) :
    (∀ s, Reach (· = Service.initial) (step P) (RemovesOwn P) s → s.AllExact) ∧
      ∀ s a t, Reach (· = Service.initial) (step P) (fun _ _ => True) s → s.AllExact →
        step P s a = some t → (t.AllExact ↔ RemovesOwn P s a) := by
  have hnum (s : Service Coord)
      (hs : Reach (· = Service.initial) (step P) (fun _ _ => True) s) : Numbered s :=
    hs.inv Numbered (fun s h => h ▸ numbered_initial) fun s a t h _ ht => h.step ht
  refine ⟨fun s hs => ?_, fun s a t hs hexact ht => step_allExact_iff (hnum s hs) hexact ht⟩
  refine (hs.inv (fun s => Numbered s ∧ s.AllExact) ?_ ?_).2
  · rintro s rfl
    exact ⟨numbered_initial, by simp [Service.AllExact, Service.initial]⟩
  · rintro s a t ⟨hn, hexact⟩ hg ht
    exact ⟨hn.step ht, (step_allExact_iff hn hexact ht).mpr hg⟩

/-! ### A stale fire -/

/-- A one-shot that fires ten seconds after it arrives, under the id of the daily schedule. -/
def inTenSeconds : ScheduleObject Int where
  id := some ['d']
  triggers := some [some [(.rsec, .int 10)]]
  action := some ['{', '}']

/-- The one-shot is installed. An update that reuses its id for a daily schedule is queued, and
then the one-shot fires, before the worker has run the update. -/
def staleFire : List (Action Int) :=
  [.receive selfOwner (some [some inTenSeconds]), .work true (clockArming 1000 1010),
    .receive selfOwner (some [some daily]), .trigger [] 0 true,
    .work true (clockArming 1010 2000), .work true (clockArming 1010 2000)]

/-- The stale fire of instance `0` removes the daily schedule, instance `1`. -/
theorem staleFire_removes_daily :
    ∃ s, Reach (· = Service.initial) (step degreePlatform) (fun _ _ => True) s ∧
      ∃ r ∈ s.removals, r.cause = .fired 0 ∧ r.removed.inst = 1 ∧
        r.removed.schedule.oneShot = false := by
  refine ⟨_, Reach.exec staleFire (.start rfl) rfl rfl, _, List.mem_cons_self, ?_⟩
  exact ⟨rfl, rfl, rfl⟩

/-- Without the update in between, the fire removes the instance that fired. -/
theorem firedInTime_exact :
    ∃ s, Reach (· = Service.initial) (step degreePlatform) (RemovesOwn degreePlatform) s ∧
      s.removals.map (fun r => (r.removed.inst, r.cause)) = [(0, .fired 0)] ∧ s.AllExact := by
  have hrun : Reach (· = Service.initial) (step degreePlatform) (RemovesOwn degreePlatform) _ :=
    Reach.exec [.receive selfOwner (some [some inTenSeconds]), .work true (clockArming 1000 1010),
      .trigger [] 0 true, .work true (clockArming 1010 2000)] (.start rfl) (by decide) rfl
  exact ⟨_, hrun, rfl, (removals_exact degreePlatform).1 _ hrun⟩

end RainMakerNeo.Schedules
