import RainMakerNeo.Schedules.Persistence
import RainMakerNeo.Schedules.Removal

/-!
# `RainMakerNeo.Schedules.OneShot`: a one-shot fires at most once

A one-shot that fired must not fire again after a reboot, even when the write that removed it is
lost. The service relies on the `ts` in flash: it is the instant that the one-shot was armed for,
and a replay skips an entry whose `ts` is behind a synced clock.

The `ts` gets lost at three places. `arm_all` arms a deferred one-shot in RAM and does not write.
A replay with an unsynced clock builds the one-shot without its `ts`, defers the arm, and writes
the entry back bare. A solar one-shot without a day arm reads back as a daily schedule. Beyond
these, a re-arm can set the timer of a one-shot again that has fired and still waits in the work
queue, and a `ts` beyond the `int` range reads back as no `ts`.

`KeepsTs` excludes these steps, one condition for each kind of event. Under it every reachable
state satisfies `Inv`, an invariant in two halves. `LiveOk` is about RAM, and `StoredOk` is about
flash and its agreement with RAM. A write makes `StoredOk` out of `LiveOk`
(`LiveOk.storedOk_serialize`), so each event is checked for `LiveOk` before the write, and for
`StoredOk` only if the write is lost.
-/

set_option autoImplicit false

namespace RainMakerNeo.Schedules.Persistence

open RainMakerNeo.Lib (FitsInt Reach exec)

variable {Coord : Type} [Inhabited Coord]

/-! ### What a build does to one entry -/

variable {P : Platform Coord} {s : NodeState Coord} {enable : Enable Coord} {r : Schedule Coord}
  {armed : List (Nat × Int64)} {clock : Clock Coord} {owner : Owner} {nodeKey : NodeKey}
  {live : List (Handle Coord)}

/-- An arm happens when the clock is ready, and it sets the armed instant only. -/
theorem armOrDefer_eq_some {armed : Schedule Coord}
    (h : armOrDefer P (s.clock enable) r = some armed) :
    s.armsNow P = true ∧ ∃ ts : UInt32, armed = { r with nextFireTs := Int64.ofNat ts.toNat } ∧
      (ts = 0 ∨ enable r.trigger r.validity = some ts) := by
  unfold armOrDefer at h
  split at h
  · cases h
  · rename_i hdefer
    have hnow : s.armsNow P = true := by
      rw [NodeState.armsNow, Bool.not_eq_true']
      exact (Bool.not_eq_true _).mp hdefer
    refine ⟨hnow, ?_⟩
    split at h
    · rename_i ts hts
      exact ⟨ts, (Option.some.inj h).symm, .inr hts⟩
    · exact ⟨0, (Option.some.inj h).symm, .inl rfl⟩

/-- A deferred arm means that the clock is not ready. -/
theorem armOrDefer_eq_none (h : armOrDefer P (s.clock enable) r = none) : s.armsNow P = false := by
  unfold armOrDefer at h
  split at h
  · rename_i hdefer
    rw [NodeState.armsNow, Bool.not_eq_false']
    exact hdefer
  · split at h <;> cases h

/-- A new schedule keeps what was read. Its armed instant is set if the clock is ready. -/
theorem armNew_eq_some {new : Schedule Coord} (h : armNew P (s.clock enable) r = some new)
    (hr : r.nextFireTs = 0) :
    ∃ ts : UInt32, new = { r with nextFireTs := Int64.ofNat ts.toNat } ∧
      (ts = 0 ∨ s.armsNow P = true ∧ enable r.trigger r.validity = some ts) := by
  unfold armNew at h
  split at h
  · rename_i armed harm
    split at h
    · cases h
    · obtain ⟨hnow, ts, hts, hen⟩ := armOrDefer_eq_some harm
      refine ⟨ts, (Option.some.inj h).symm.trans hts, ?_⟩
      cases hen with
      | inl h0 => exact .inl h0
      | inr hen => exact .inr ⟨hnow, hen⟩
  · refine ⟨0, (Option.some.inj h).symm.trans ?_, .inl rfl⟩
    show r = { r with nextFireTs := 0 }
    rw [← hr]

variable {object : ScheduleObject Coord} {t : NodeState Coord}

/-- A schedule that was just read is not armed. -/
theorem nextFireTs_of_readSchedule (h : readSchedule P clock owner nodeKey object = some r) :
    r.nextFireTs = 0 := by
  simp only [readSchedule, Option.bind_eq_bind, Option.bind_eq_some_iff,
    Option.guard_eq_some'] at h
  obtain ⟨-, -, id, -, -, -, name, -, t, -, -, -, action, -, h⟩ := h
  obtain rfl := (Option.some.inj h).symm
  rfl

/-- A handle of a build comes from an entry that was read. -/
theorem mem_build {entries : List (Entry Coord)} {h : Handle Coord}
    (hh : h ∈ build P clock owner nodeKey entries) :
    ∃ e ∈ entries, ∃ r, readSchedule P clock owner nodeKey e.object = some r ∧
      armNew P clock r = some h.schedule ∧ h.inst = e.number := by
  obtain ⟨e, he, hbuilt⟩ := List.mem_filterMap.mp hh
  obtain ⟨new, hnew, rfl⟩ := Option.map_eq_some_iff.mp hbuilt
  obtain ⟨r, hread, harm⟩ := Option.bind_eq_some_iff.mp hnew
  exact ⟨e, he, r, hread, harm, rfl⟩

/-- A build keeps the order of the entries. -/
theorem build_sublist (P : Platform Coord) (clock : Clock Coord) (owner : Owner)
    (nodeKey : NodeKey) (entries : List (Entry Coord)) :
    ((build P clock owner nodeKey entries).map Handle.inst).Sublist
      (entries.map Entry.number) := by
  induction entries with
  | nil => exact List.Sublist.refl _
  | cons e rest ih =>
    rw [build, List.filterMap_cons]
    cases buildSchedule P clock owner nodeKey e.object with
    | none => exact ih.cons _
    | some schedule => exact ih.cons_cons _

omit [Inhabited Coord] in
/-- The numbers of a payload are those from `next` on. -/
theorem map_number_numberEntries (next : Nat) (objects : List (ScheduleObject Coord)) :
    (numberEntries next objects).map Entry.number = List.range' next objects.length := by
  rw [numberEntries, List.map_map]
  exact List.zipIdx_map_snd next objects

/-! ### What a replay reads back -/

/-- The replayed trigger of a trigger with a day arm has it too. -/
theorem not_lacksDayArm_restored (P : Platform Coord) (h : ¬r.trigger.LacksDayArm) :
    ¬(restored P r).trigger.LacksDayArm := by
  have htrigger : (restored P r).trigger = replayTrigger P r := if_neg h
  rw [htrigger]
  unfold Trigger.LacksDayArm at h ⊢
  cases htype : r.trigger.type <;> simp_all [replayTrigger]

/-- A one-shot with a day arm reads back as a one-shot. -/
theorem oneShot_restored (h : Installed P owner r) (harm : ¬r.trigger.LacksDayArm) :
    (restored P r).oneShot = r.oneShot := by
  show triggerIsOneShot P (restoredTrigger P r) = r.oneShot
  rw [restoredTrigger, if_neg harm, triggerIsOneShot_replayTrigger, h.oneShot]

/-- The `ts` of a written entry is the `ts` field of the schedule. -/
theorem armedTs_emitSchedule (h : Installed P owner r) :
    armedTs P (emitSchedule P r) = reportedTs (storedTs r) := by
  have hparse : parseTrigger P (emitSchedule P r).triggers =
      some (restoredTrigger P r, reportedTs (storedTs r)) := by
    simpa [parseTrigger, emitSchedule] using parseTriggerObject_emit P r h.shape
  rw [armedTs, hparse]
  rfl

/-- What was read from an entry did not come due by the `ts` of the entry. -/
theorem notDue_of_readSchedule (h : readSchedule P clock owner nodeKey object = some r) :
    cameDue clock r.oneShot (armedTs P object) = false := by
  simp only [readSchedule, Option.bind_eq_bind, Option.bind_eq_some_iff,
    Option.guard_eq_some'] at h
  obtain ⟨-, -, id, -, -, -, name, -, ⟨t, ts⟩, htrigger, -, hdue, action, -, h⟩ := h
  obtain rfl := (Option.some.inj h).symm
  rw [armedTs, htrigger]
  exact hdue

/-! ### What a re-arm does to the list -/

/-- `g` is the handle `h` after a visit of the list `hs`: the arm was deferred, or it set the
armed instant. A handle without an occurrence left only survives if another one has its id. -/
def ReArmed (P : Platform Coord) (clock : Clock Coord) (hs : List (Handle Coord))
    (h g : Handle Coord) : Prop :=
  (armOrDefer P clock h.schedule = none ∧ g = h) ∨
    ∃ armed, armOrDefer P clock h.schedule = some armed ∧ g = { h with schedule := armed } ∧
      (Spends P clock h →
        ∃ h' ∈ hs, h'.inst ≠ h.inst ∧ h'.schedule.cloudId = h.schedule.cloudId)

/-- A second arm at the same clock changes nothing. -/
theorem armOrDefer_armed {armed : Schedule Coord} (h : armOrDefer P clock r = some armed) :
    armOrDefer P clock armed = some armed := by
  unfold armOrDefer at h ⊢
  split at h
  · cases h
  · rename_i hdefer
    rw [if_neg hdefer]
    split at h
    · rename_i ts hts
      obtain rfl := Option.some.inj h
      simp only [hts]
    · rename_i hts
      obtain rfl := Option.some.inj h
      simp only [hts]

/-- Handles with the same numbers and ids may be added to the list. -/
theorem ReArmed.mono {hs hs' : List (Handle Coord)} {h g : Handle Coord}
    (harm : ReArmed P clock hs h g)
    (hsub : ∀ k ∈ hs, ∃ k' ∈ hs', k'.inst = k.inst ∧ k'.schedule.cloudId = k.schedule.cloudId) :
    ReArmed P clock hs' h g := by
  refine harm.imp_right ?_
  rintro ⟨armed, ha, hg, hother⟩
  refine ⟨armed, ha, hg, ?_⟩
  intro hspend
  obtain ⟨k, hk, hne, hid⟩ := hother hspend
  obtain ⟨k', hk', hinst, hid'⟩ := hsub k hk
  exact ⟨k', hk', hinst ▸ hne, hid'.trans hid⟩

/-- A removal takes an earlier handle with the id, if there is one. -/
theorem removeByCloudId_of_mem {pre : List (Handle Coord)} {id : List Char} (hne : id ≠ [])
    {k : Handle Coord} (hk : k ∈ pre) (hid : k.schedule.cloudId = id) :
    ∃ pre', pre'.Sublist pre ∧ pre'.length + 1 = pre.length ∧
      ∀ post, removeByCloudId (pre ++ post) id = pre' ++ post := by
  have hany : (pre.any fun g => g.schedule.cloudId == id) = true :=
    List.any_eq_true.mpr ⟨k, hk, by simpa using hid⟩
  have hpos : 0 < pre.length := List.length_pos_of_mem hk
  refine ⟨pre.eraseP fun g => g.schedule.cloudId == id, List.eraseP_sublist, ?_, ?_⟩
  · rw [List.length_eraseP, if_pos hany]
    omega
  · intro post
    rw [removeByCloudId, if_neg hne, List.eraseP_append, if_pos hany]

/-- The visit passes on what it did to the part of the list that is still ahead. Removing an
earlier handle shifts the list by one, and the loop then meets the handle that it just armed a
second time, so the induction is on the length. -/
theorem mem_rescheduleFrom (P : Platform Coord) (clock : Clock Coord) (n : Nat) :
    ∀ pre post : List (Handle Coord), pre.length = n → (pre.map Handle.inst).Nodup →
      ∀ g ∈ (rescheduleFrom P clock n (pre ++ post)).1,
        g ∈ post ∨ ∃ h ∈ pre, ReArmed P clock pre h g := by
  induction n with
  | zero =>
    intro pre post hlen _ g hg
    obtain rfl := List.length_eq_zero_iff.mp hlen
    exact .inl hg
  | succ n ih =>
    intro pre post hlen hnodup g hg
    have hnil : pre ≠ [] := List.ne_nil_of_length_eq_add_one hlen
    obtain ⟨pre, h, rfl⟩ : ∃ pre' h, pre = pre' ++ [h] :=
      ⟨pre.dropLast, pre.getLast hnil, (List.dropLast_concat_getLast hnil).symm⟩
    have hn : pre.length = n := by simpa using hlen
    rw [List.map_append, List.nodup_append] at hnodup
    obtain ⟨hpre, -, hdis⟩ := hnodup
    rw [List.append_assoc] at hg
    have hi : (pre ++ ([h] ++ post))[n]? = some h := by simp [← hn]
    have hset (g : Handle Coord) : (pre ++ ([h] ++ post)).set n g = pre ++ g :: post := by
      simp [← hn]
    -- What holds of a handle ahead of `h` stays true when `h` is put back.
    have hlift : (∃ h' ∈ pre, ReArmed P clock pre h' g) →
        ∃ h' ∈ pre ++ [h], ReArmed P clock (pre ++ [h]) h' g := by
      rintro ⟨h', hh', harm⟩
      refine ⟨h', List.mem_append_left _ hh', harm.mono ?_⟩
      exact fun k hk => ⟨k, List.mem_append_left _ hk, rfl, rfl⟩
    -- `h` itself, put back behind the part that is still ahead.
    have hback (h₁ : Handle Coord) (h₁_eq : ReArmed P clock (pre ++ [h]) h h₁)
        (hg₁ : g ∈ (rescheduleFrom P clock n (pre ++ h₁ :: post)).1) :
        g ∈ post ∨ ∃ h' ∈ pre ++ [h], ReArmed P clock (pre ++ [h]) h' g := by
      cases ih pre (h₁ :: post) hn hpre g hg₁ with
      | inl hmem =>
        cases List.mem_cons.mp hmem with
        | inl heq => exact .inr ⟨h, by simp, heq ▸ h₁_eq⟩
        | inr hpost => exact .inl hpost
      | inr hpre => exact .inr (hlift hpre)
    cases ha : armOrDefer P clock h.schedule with
    | none =>
      rw [rescheduleFrom_of_deferred P clock hi ha] at hg
      exact hback h (.inl ⟨ha, rfl⟩) hg
    | some armed =>
      have hid := (tag_armed P ha).2
      cases hspent : scheduleIsSpent clock armed with
      | false =>
        rw [rescheduleFrom_of_armed P clock hi ha hspent, hset] at hg
        refine hback _ (.inr ⟨armed, ha, rfl, fun hs => ?_⟩) hg
        simp [spends_iff_of_armed ha, hspent] at hs
      | true =>
        rw [rescheduleFrom_of_spent P clock hi ha hspent, hset] at hg
        simp only [hid] at hg
        by_cases hne : h.schedule.cloudId = []
        · rw [removeByCloudId, if_pos hne] at hg
          exact hback _ (.inr ⟨armed, ha, rfl, fun hs => absurd hne hs.1⟩) hg
        · by_cases hclash : ∃ k ∈ pre, k.schedule.cloudId = h.schedule.cloudId
          · -- An earlier handle with the id goes, and the loop arms `h` once more.
            obtain ⟨k, hk, hkid⟩ := hclash
            have hother : ∃ h' ∈ pre ++ [h], h'.inst ≠ h.inst ∧
                h'.schedule.cloudId = h.schedule.cloudId :=
              ⟨k, List.mem_append_left _ hk,
                hdis _ (List.mem_map_of_mem hk) _ (by simp), hkid⟩
            obtain ⟨pre', hsub, hlen', hremove⟩ := removeByCloudId_of_mem hne hk hkid
            rw [hremove, List.append_cons] at hg
            have hlen'' : (pre' ++ [{ h with schedule := armed }]).length = n := by
              rw [List.length_append, List.length_singleton]
              omega
            have hnodup' : ((pre' ++ [{ h with schedule := armed }]).map Handle.inst).Nodup := by
              rw [List.map_append, List.nodup_append]
              refine ⟨hpre.sublist (hsub.map _), by simp, fun a hmem b hb => ?_⟩
              exact hdis a ((hsub.map _).subset hmem) b (by simpa using hb)
            cases ih _ post hlen'' hnodup' g hg with
            | inl hpost => exact .inl hpost
            | inr hrest =>
              obtain ⟨h', hh', harm⟩ := hrest
              have harm' : ReArmed P clock (pre ++ [h]) h' g := by
                refine harm.mono fun k' hk' => ?_
                cases List.mem_append.mp hk' with
                | inl hmem => exact ⟨k', List.mem_append_left _ (hsub.subset hmem), rfl, rfl⟩
                | inr hmem =>
                  obtain rfl := List.mem_singleton.mp hmem
                  exact ⟨h, by simp, rfl, hid.symm⟩
              cases List.mem_append.mp hh' with
              | inl hmem => exact .inr ⟨h', List.mem_append_left _ (hsub.subset hmem), harm'⟩
              | inr hmem =>
                obtain rfl := List.mem_singleton.mp hmem
                refine .inr ⟨h, by simp, .inr ⟨armed, ha, ?_, fun _ => hother⟩⟩
                cases harm with
                | inl hdefer => exact hdefer.2
                | inr hagain =>
                  obtain ⟨armed', ha', hg', -⟩ := hagain
                  obtain rfl := Option.some.inj ((armOrDefer_armed ha).symm.trans ha')
                  exact hg'
          · push Not at hclash
            rw [removeByCloudId_append hclash hid hne] at hg
            cases ih pre post hn hpre g hg with
            | inl hpost => exact .inl hpost
            | inr hrest => exact .inr (hlift hrest)

/-- A visit that meets a handle without an occurrence left removes a handle. -/
theorem rescheduleFrom_removes (P : Platform Coord) (clock : Clock Coord)
    (pre post : List (Handle Coord)) (hspent : ∃ g ∈ pre, Spends P clock g) :
    (rescheduleFrom P clock pre.length (pre ++ post)).2 ≠ [] := by
  induction pre using List.reverseRecOn generalizing post with
  | nil => simp at hspent
  | append_singleton pre h ih =>
    rw [List.append_assoc, List.length_append, List.length_singleton]
    have hi : (pre ++ ([h] ++ post))[pre.length]? = some h := by simp
    have hset (g : Handle Coord) :
        (pre ++ ([h] ++ post)).set pre.length g = pre ++ g :: post := by simp
    have hrest (hh : ¬Spends P clock h) : ∃ g ∈ pre, Spends P clock g := by
      obtain ⟨g, hg, hs⟩ := hspent
      cases List.mem_append.mp hg with
      | inl hmem => exact ⟨g, hmem, hs⟩
      | inr hmem => exact absurd (List.mem_singleton.mp hmem ▸ hs) hh
    cases ha : armOrDefer P clock h.schedule with
    | none =>
      rw [rescheduleFrom_of_deferred P clock hi ha]
      exact ih _ (hrest (not_spends_of_deferred ha))
    | some armed =>
      cases hsp : scheduleIsSpent clock armed with
      | false =>
        have hh : ¬Spends P clock h := by simp [spends_iff_of_armed ha, hsp]
        rw [rescheduleFrom_of_armed P clock hi ha hsp, hset]
        exact ih _ (hrest hh)
      | true =>
        have hid := (tag_armed P ha).2
        rw [rescheduleFrom_of_spent P clock hi ha hsp, hset, hid]
        by_cases hne : h.schedule.cloudId = []
        · have hh : ¬Spends P clock h := fun hs => hs.1 hne
          rw [removeByCloudId, if_pos hne]
          exact fun hnil => ih _ (hrest hh) (List.append_eq_nil_iff.mp hnil).1
        · -- The id is on the list, so the look-up finds a handle.
          intro hnil
          have hnone : (firstWithId (pre ++ { h with schedule := armed } :: post)
              h.schedule.cloudId) = none := by
            simpa [removalOf] using (List.append_eq_nil_iff.mp hnil).2
          rw [firstWithId, if_neg hne, List.find?_eq_none] at hnone
          exact hnone { h with schedule := armed } (by simp) (by simpa using hid)

/-! ### The condition on the events -/

/-- An accepted one-shot has a day arm if it is solar, and it is armed for an instant that an
`int` holds. -/
def AcceptKeepsTs (P : Platform Coord) (s : NodeState Coord) (enable : Enable Coord)
    (r : Schedule Coord) : Prop :=
  ¬r.trigger.LacksDayArm ∧ (s.armsNow P = true →
    ∀ ts ∈ enable r.trigger r.validity, FitsInt (Int64.ofNat ts.toNat))

/-- An install meets the condition for each one-shot of the payload. -/
def InstallKeepsTs (P : Platform Coord) (owner : Owner) (s : NodeState Coord)
    (data : Option (List (Option (ScheduleObject Coord)))) (enable : Enable Coord) : Prop :=
  ∀ nodeKey ∈ ownerNodeKey P owner, ∀ payload ∈ data, ∀ object ∈ visitedEntries P payload,
    ∀ r ∈ readSchedule P (s.clock enable) owner nodeKey object, r.oneShot = true →
      AcceptKeepsTs P s enable r

/-- The re-arm removes the handle: it has no occurrence left, and no other one has its id. -/
def Leaves (P : Platform Coord) (s : NodeState Coord) (enable : Enable Coord)
    (h : Handle Coord) : Prop :=
  Spends P (s.clock enable) h ∧
    ∀ g ∈ s.live, g.schedule.cloudId = h.schedule.cloudId → g.inst = h.inst

/-- The re-arm meets the handle before it fired and arms it. The instant is the one in flash, or
the visit removes some handle and writes. -/
def RearmKeepsTs (P : Platform Coord) (s : NodeState Coord) (enable : Enable Coord)
    (written : Bool) (h : Handle Coord) : Prop :=
  h.inst ∉ s.fired ∧
    ∃ ts ∈ enable h.schedule.trigger h.schedule.validity, ts ≠ 0 ∧
      FitsInt (Int64.ofNat ts.toNat) ∧
      ((written = true ∧ ∃ g ∈ s.live, Spends P (s.clock enable) g) ∨
        ∀ e ∈ s.entries, e.number = h.inst → armedTs P e.object = Int64.ofNat ts.toNat)

/-- A re-arm meets the condition for each live one-shot, once the clock is ready. -/
def VisitKeepsTs (P : Platform Coord) (s : NodeState Coord) (enable : Enable Coord)
    (written : Bool) : Prop :=
  s.armsNow P = true → ∀ h ∈ s.live, h.schedule.oneShot = true →
    Leaves P s enable h ∨ RearmKeepsTs P s enable written h

/-- A replay of a one-shot from its entry needs a synced clock if the entry has a `ts`. The
instant that it arms the one-shot for is the one in flash, or the write of the replay lands. -/
def EntryKeepsTs (P : Platform Coord) (s : NodeState Coord) (enable : Enable Coord)
    (written : Bool) (e : Entry Coord) (r : Schedule Coord) : Prop :=
  (armedTs P e.object ≠ 0 → s.synced = true) ∧ (s.armsNow P = true →
    ∀ ts ∈ enable r.trigger r.validity, ts ≠ 0 → FitsInt (Int64.ofNat ts.toNat) ∧
      (written = true ∨ armedTs P e.object = Int64.ofNat ts.toNat))

/-- A replay meets the condition for each one-shot that it reads. -/
def ReplayKeepsTs (P : Platform Coord) (owner : Owner) (s : NodeState Coord)
    (enable : Enable Coord) (written : Bool) : Prop :=
  ∀ nodeKey ∈ ownerNodeKey P owner, ∀ e ∈ s.entries.take P.maxSchedulesPerNode,
    ∀ r ∈ readSchedule P (s.clock enable) owner nodeKey e.object, r.oneShot = true →
      EntryKeepsTs P s enable written e r

/-- The condition on an event: no one-shot that it arms or replays loses its `ts`. -/
def KeepsTs (P : Platform Coord) (owner : Owner) (s : NodeState Coord) : Event Coord → Prop
  | .work _ _ enable _ => match s.queue with
    | .update owner data :: _ => InstallKeepsTs P owner s data enable
    | _ => True
  | .armAll enable written => VisitKeepsTs P { s with timeReady := true } enable written
  | .timezone enable written => VisitKeepsTs P s enable written
  | .reload enable written => ReplayKeepsTs P owner s enable written
  | _ => True

/-! ### The invariant -/

/-- A live one-shot: it is kept as a one-shot, and its armed instant fits an `int`. -/
structure KeptOnce (r : Schedule Coord) : Prop where
  oneShot : r.oneShot = true
  dayArm : ¬r.trigger.LacksDayArm
  ts : ∃ ts : UInt32, r.nextFireTs = Int64.ofNat ts.toNat
  fits : FitsInt r.nextFireTs

/-- The invariant of what is in RAM. A one-shot that fired and is still live has an instant that
has passed, and its timer is not set. -/
structure LiveOk (P : Platform Coord) (owner : Owner) (s : NodeState Coord) : Prop where
  below : ∀ h ∈ s.live, h.inst < s.next
  installed : ∀ h ∈ s.live, Installed P owner h.schedule
  nodup : (s.live.map Handle.inst).Nodup
  oneShots : ∀ h ∈ s.live, h.inst ∈ s.oneShots → KeptOnce h.schedule
  armed : ∀ h ∈ s.live, h.inst ∈ s.oneShots →
    s.armed.lookup h.inst = if h.schedule.nextFireTs = 0 then none else some h.schedule.nextFireTs
  armedBelow : ∀ p ∈ s.armed, p.1 < s.next ∧ p.2 ≠ 0
  fired : ∀ h ∈ s.live, h.inst ∈ s.oneShots → h.inst ∈ s.fired →
    h.schedule.nextFireTs ≠ 0 ∧ h.schedule.nextFireTs ≤ s.now ∧ h.inst ∈ s.wentOff
  updates : ∀ o data, .update o data ∈ s.queue → o = owner
  firedBelow : ∀ n ∈ s.fired, n < s.next
  oneShotsBelow : ∀ n ∈ s.oneShots, n < s.next
  once : ∀ n ∈ s.oneShots, s.fired.count n ≤ 1

/-- The invariant of what is in flash. The entry of a one-shot that was armed has the instant,
and the entry of a one-shot that fired has an instant that has passed. -/
structure StoredOk (P : Platform Coord) (owner : Owner) (s : NodeState Coord) : Prop where
  below : ∀ e ∈ s.entries, e.number < s.next
  nodup : (s.entries.map Entry.number).Nodup
  written : ∀ e ∈ s.entries, ∃ r, Installed P owner r ∧ e.object = emitSchedule P r ∧
    (e.number ∈ s.oneShots → r.oneShot = true ∧ ¬r.trigger.LacksDayArm)
  armed : ∀ e ∈ s.entries, e.number ∈ s.oneShots → ∀ ts ∈ s.armed.lookup e.number,
    armedTs P e.object = ts
  fired : ∀ e ∈ s.entries, e.number ∈ s.oneShots → e.number ∈ s.fired →
    armedTs P e.object ≠ 0 ∧ armedTs P e.object ≤ s.now

/-- The two halves. -/
structure Inv (P : Platform Coord) (owner : Owner) (s : NodeState Coord) : Prop where
  live : LiveOk P owner s
  stored : StoredOk P owner s

/-! ### The armed instants -/

/-- In a list with unique numbers, a number belongs to one handle. -/
theorem eq_of_inst_eq (hnodup : (live.map Handle.inst).Nodup) {g h : Handle Coord} (hg : g ∈ live)
    (hh : h ∈ live) (hinst : g.inst = h.inst) : g = h :=
  List.inj_on_of_nodup_map hnodup hg hh hinst

omit [Inhabited Coord] in
/-- What a look-up finds is in the list. -/
theorem mem_of_lookup {n : Nat} {ts : Int64} (h : ts ∈ armed.lookup n) : (n, ts) ∈ armed := by
  obtain ⟨l₁, l₂, rfl, -⟩ := List.lookup_eq_some_iff.mp h
  simp

theorem mem_stamps {p : Nat × Int64} (hp : p ∈ stamps live) :
    ∃ h ∈ live, h.schedule.nextFireTs ≠ 0 ∧ p = (h.inst, h.schedule.nextFireTs) := by
  obtain ⟨h, hh, rfl⟩ := List.mem_map.mp hp
  obtain ⟨hlive, hne⟩ := List.mem_filter.mp hh
  exact ⟨h, hlive, by simpa using hne, rfl⟩

/-- A look-up after new stamps finds the instant of a handle, or what it found before. -/
theorem lookup_stamps_cases {n : Nat} {ts : Int64} (hts : ts ∈ (stamps live ++ armed).lookup n) :
    (∃ h ∈ live, h.inst = n ∧ h.schedule.nextFireTs ≠ 0 ∧ h.schedule.nextFireTs = ts) ∨
      ts ∈ armed.lookup n := by
  rw [List.lookup_append] at hts
  cases hnew : (stamps live).lookup n with
  | none =>
    rw [hnew, Option.none_or] at hts
    exact .inr hts
  | some ts' =>
    rw [hnew, Option.some_or] at hts
    obtain ⟨h, hh, hne, heq⟩ := mem_stamps (mem_of_lookup hnew)
    obtain ⟨rfl, rfl⟩ := Prod.mk.inj heq
    exact .inl ⟨h, hh, rfl, hne, Option.some.inj hts⟩

/-- The look-up of a handle that was stamped finds its instant. -/
theorem lookup_stamps (hnodup : (live.map Handle.inst).Nodup) {h : Handle Coord} (hh : h ∈ live) :
    (stamps live ++ armed).lookup h.inst =
      if h.schedule.nextFireTs = 0 then armed.lookup h.inst
      else some h.schedule.nextFireTs := by
  cases hts : (stamps live).lookup h.inst with
  | none =>
    rw [List.lookup_append, hts, Option.none_or]
    split
    · rfl
    · rename_i hne
      rw [List.lookup_eq_none_iff] at hts
      have hp : (h.inst, h.schedule.nextFireTs) ∈ stamps live :=
        List.mem_map.mpr ⟨h, List.mem_filter.mpr ⟨hh, by simpa using hne⟩, rfl⟩
      have := hts _ hp
      simp at this
  | some ts =>
    obtain ⟨g, hg, hne, heq⟩ := mem_stamps (mem_of_lookup hts)
    obtain ⟨hinst, rfl⟩ := Prod.mk.inj heq
    obtain rfl := eq_of_inst_eq hnodup hh hg hinst
    rw [List.lookup_append, hts, Option.some_or, if_neg hne]

/-- The stamps of handles below `next` stay below it. -/
theorem armedBelow_stamps {next : Nat} (hlive : ∀ h ∈ live, h.inst < next)
    (harmed : ∀ p ∈ armed, p.1 < next ∧ p.2 ≠ 0) :
    ∀ p ∈ stamps live ++ armed, p.1 < next ∧ p.2 ≠ 0 := by
  intro p hp
  cases List.mem_append.mp hp with
  | inl hp =>
    obtain ⟨h, hh, hne, rfl⟩ := mem_stamps hp
    exact ⟨hlive h hh, hne⟩
  | inr hp => exact harmed p hp

/-! ### Writes -/

/-- The `ts` that is written for a one-shot is its armed instant. -/
theorem KeptOnce.armedTs_emit (h : KeptOnce r) (hr : Installed P owner r) :
    armedTs P (emitSchedule P r) = r.nextFireTs := by
  have hts := (reportedTs_storedTs_iff h.ts).mpr fun _ => h.fits
  rw [armedTs_emitSchedule hr, hts, if_pos h.oneShot]

/-- A written entry comes from a live handle. -/
theorem mem_serialize {e : Entry Coord} (he : e ∈ serialize P live) :
    ∃ h ∈ live, e.number = h.inst ∧ e.object = emitSchedule P h.schedule := by
  obtain ⟨h, hh, rfl⟩ := List.mem_map.mp he
  exact ⟨h, List.mem_of_mem_filter hh, rfl, rfl⟩

/-- The numbers in flash are in the order of the handles. -/
theorem serialize_sublist (P : Platform Coord) (live : List (Handle Coord)) :
    ((serialize P live).map Entry.number).Sublist (live.map Handle.inst) := by
  rw [serialize, List.map_map]
  exact List.filter_sublist.map _

/-- **A write.** After the flash took the live handles it agrees with them. -/
theorem LiveOk.storedOk_serialize (h : LiveOk P owner s) (hs : s.entries = serialize P s.live) :
    StoredOk P owner s := by
  refine ⟨?_, ?_, ?_, ?_, ?_⟩
  · intro e he
    obtain ⟨g, hg, hnum, -⟩ := mem_serialize (hs ▸ he)
    exact hnum ▸ h.below g hg
  · rw [hs]
    exact h.nodup.sublist (serialize_sublist P s.live)
  · intro e he
    obtain ⟨g, hg, hnum, hobj⟩ := mem_serialize (hs ▸ he)
    refine ⟨g.schedule, h.installed g hg, hobj, fun hone => ?_⟩
    have hkept := h.oneShots g hg (hnum ▸ hone)
    exact ⟨hkept.oneShot, hkept.dayArm⟩
  · intro e he hone ts hts
    obtain ⟨g, hg, hnum, hobj⟩ := mem_serialize (hs ▸ he)
    rw [hnum] at hone hts
    rw [hobj, (h.oneShots g hg hone).armedTs_emit (h.installed g hg)]
    rw [h.armed g hg hone] at hts
    split at hts
    · cases hts
    · exact Option.some.inj hts
  · intro e he hone hfired
    obtain ⟨g, hg, hnum, hobj⟩ := mem_serialize (hs ▸ he)
    rw [hnum] at hone hfired
    rw [hobj, (h.oneShots g hg hone).armedTs_emit (h.installed g hg)]
    obtain ⟨hne, hle, -⟩ := h.fired g hg hone hfired
    exact ⟨hne, hle⟩

/-- A write changes the flash only. -/
theorem LiveOk.persist (h : LiveOk P owner s) (written : Bool) :
    LiveOk P owner (s.persist P written) := by
  cases written with
  | false => exact h
  | true =>
    exact ⟨h.below, h.installed, h.nodup, h.oneShots, h.armed, h.armedBelow, h.fired, h.updates,
      h.firedBelow, h.oneShotsBelow, h.once⟩

/-- A write that lands restores the agreement. One that is lost needs it beforehand. -/
theorem LiveOk.inv_persist (h : LiveOk P owner s) (written : Bool)
    (hlost : written = false → StoredOk P owner s) : Inv P owner (s.persist P written) := by
  refine ⟨h.persist written, ?_⟩
  cases written with
  | false => exact hlost rfl
  | true => exact (h.persist true).storedOk_serialize rfl

/-! ### Events that only take away -/

/-- `t` has no more live handles and fires than `s`, and time did not run back. -/
structure Shrinks (owner : Owner) (s t : NodeState Coord) : Prop where
  live : t.live.Sublist s.live
  stored : t.stored = s.stored
  next : t.next = s.next
  oneShots : t.oneShots = s.oneShots
  armed : t.armed = s.armed
  now : s.now ≤ t.now
  wentOff : ∀ h ∈ t.live, h.inst ∈ s.wentOff → h.inst ∈ t.wentOff
  fired : ∀ n, t.fired.count n ≤ s.fired.count n
  updates : ∀ o data, .update o data ∈ t.queue → .update o data ∈ s.queue ∨ o = owner

theorem Shrinks.refl (owner : Owner) (s : NodeState Coord) : Shrinks owner s s where
  live := List.Sublist.refl _
  stored := rfl
  next := rfl
  oneShots := rfl
  armed := rfl
  now := Int64.le_refl _
  wentOff := fun _ _ hoff => hoff
  fired := fun _ => Nat.le_refl _
  updates := fun _ _ ho => .inl ho

/-- The handles are dropped. -/
theorem Shrinks.drop (owner : Owner) (s : NodeState Coord) :
    Shrinks owner s { s with live := [], wentOff := [] } :=
  { Shrinks.refl owner s with
    live := List.nil_sublist _
    wentOff := fun _ hmem => absurd hmem List.not_mem_nil }

theorem Shrinks.mem_fired (h : Shrinks owner s t) {n : Nat} (hn : n ∈ t.fired) : n ∈ s.fired :=
  List.count_pos_iff.mp (Nat.lt_of_lt_of_le (List.count_pos_iff.mpr hn) (h.fired n))

theorem LiveOk.shrink (hs : LiveOk P owner s) (h : Shrinks owner s t) : LiveOk P owner t := by
  have hmem {g : Handle Coord} (hg : g ∈ t.live) : g ∈ s.live := h.live.subset hg
  refine ⟨?_, ?_, ?_, ?_, ?_, ?_, ?_, ?_, ?_, ?_, ?_⟩
  · intro g hg
    rw [h.next]
    exact hs.below g (hmem hg)
  · exact fun g hg => hs.installed g (hmem hg)
  · exact hs.nodup.sublist (h.live.map _)
  · intro g hg hone
    exact hs.oneShots g (hmem hg) (h.oneShots ▸ hone)
  · intro g hg hone
    rw [h.armed]
    exact hs.armed g (hmem hg) (h.oneShots ▸ hone)
  · rw [h.armed, h.next]
    exact hs.armedBelow
  · intro g hg hone hfired
    obtain ⟨hne, hle, hoff⟩ := hs.fired g (hmem hg) (h.oneShots ▸ hone) (h.mem_fired hfired)
    exact ⟨hne, Int64.le_trans hle h.now, h.wentOff g hg hoff⟩
  · intro o data ho
    cases h.updates o data ho with
    | inl hold => exact hs.updates o data hold
    | inr heq => exact heq
  · intro n hn
    rw [h.next]
    exact hs.firedBelow n (h.mem_fired hn)
  · intro n hn
    rw [h.next]
    exact hs.oneShotsBelow n (h.oneShots ▸ hn)
  · intro n hn
    exact (h.fired n).trans (hs.once n (h.oneShots ▸ hn))

theorem StoredOk.shrink (hs : StoredOk P owner s) (h : Shrinks owner s t) : StoredOk P owner t := by
  have hentries : t.entries = s.entries := by rw [NodeState.entries, h.stored, NodeState.entries]
  refine ⟨?_, ?_, ?_, ?_, ?_⟩
  · rw [hentries, h.next]
    exact hs.below
  · rw [hentries]
    exact hs.nodup
  · rw [hentries, h.oneShots]
    exact hs.written
  · rw [hentries, h.oneShots, h.armed]
    exact hs.armed
  · rw [hentries, h.oneShots]
    intro e he hone hfired
    obtain ⟨hne, hle⟩ := hs.fired e he hone (h.mem_fired hfired)
    exact ⟨hne, Int64.le_trans hle h.now⟩

theorem Inv.shrink (hs : Inv P owner s) (h : Shrinks owner s t) : Inv P owner t :=
  ⟨hs.live.shrink h, hs.stored.shrink h⟩

/-! ### The fire task -/

omit [Inhabited Coord] in
/-- Running the first fire of the queue moves it to the history. -/
theorem count_fired_cons (queue : List (Task Coord)) (copy : FireCopy) (ran : List Nat)
    (n : Nat) :
    (queuedFires queue ++ copy.inst :: ran).count n =
      (queuedFires (.fire copy :: queue) ++ ran).count n := by
  show _ = (copy.inst :: queuedFires queue ++ ran).count n
  simp only [List.count_append, List.count_cons, List.cons_append]
  omega

section Worker

variable {P : Platform Coord} {owner : Owner} {s : NodeState Coord} {queue : List (Task Coord)}

/-- The fire task moves its number from the queue to the history, and drops at most one
handle. -/
theorem Inv.runFire (h : Inv P owner s) {copy : FireCopy} (hq : s.queue = .fire copy :: queue)
    (doWork resolved written : Bool) :
    Inv P owner (({ s with queue }).runFire P copy doWork resolved written) := by
  have hupdates : ∀ o data, .update o data ∈ queue → .update o data ∈ s.queue ∨ o = owner := by
    intro o data ho
    exact .inl (hq ▸ List.mem_cons_of_mem _ ho)
  -- The state after the action, with a part of the handles.
  have hran (live : List (Handle Coord)) (hlive : live.Sublist s.live) :
      Inv P owner { s with queue, ran := copy.inst :: s.ran, live } := by
    refine h.shrink { Shrinks.refl owner s with
      live := hlive
      wentOff := fun _ _ hoff => hoff
      fired := ?_
      updates := hupdates }
    intro n
    rw [NodeState.fired, NodeState.fired, hq]
    exact Nat.le_of_eq (count_fired_cons queue copy s.ran n)
  unfold NodeState.runFire
  split
  · dsimp only
    split
    · have ht := hran _ (removeByCloudId_sublist s.live copy.cloudId)
      exact ht.live.inv_persist written fun _ => ht.stored
    · exact hran s.live (List.Sublist.refl _)
  · refine h.shrink { Shrinks.refl owner s with fired := ?_, updates := hupdates }
    intro n
    show (queuedFires queue ++ s.ran).count n ≤ (queuedFires s.queue ++ s.ran).count n
    rw [hq]
    exact List.count_le_count_cons

/-! ### The install -/

variable {nodeKey : NodeKey} {enable : Enable Coord}

/-- A handle of an install has a fresh number, and it comes from an object of the payload. -/
theorem mem_build_numberEntries {clock : Clock Coord} {next : Nat}
    {objects : List (ScheduleObject Coord)} {h : Handle Coord}
    (hh : h ∈ build P clock owner nodeKey (numberEntries next objects)) :
    next ≤ h.inst ∧ h.inst < next + objects.length ∧ ∃ object ∈ objects, ∃ r,
      readSchedule P clock owner nodeKey object = some r ∧
        armNew P clock r = some h.schedule := by
  obtain ⟨e, he, r, hread, harm, hinst⟩ := mem_build hh
  have hnum : e.number ∈ List.range' next objects.length :=
    map_number_numberEntries next objects ▸ List.mem_map_of_mem he
  have hobj : e.object ∈ objects := by
    have := List.mem_map_of_mem (f := Entry.object) he
    rwa [map_object_numberEntries] at this
  rw [List.mem_range'_1] at hnum
  exact ⟨hinst ▸ hnum.1, hinst ▸ hnum.2, e.object, hobj, r, hread, harm⟩

/-- A new handle that was accepted as a one-shot is kept as one. -/
theorem keptOnce_of_armNew {r new : Schedule Coord}
    (hnew : armNew P (s.clock enable) r = some new) (hr : r.nextFireTs = 0)
    (hone : r.oneShot = true) (harm : ¬r.trigger.LacksDayArm)
    (hfits : s.armsNow P = true → ∀ ts ∈ enable r.trigger r.validity, ts ≠ 0 →
      FitsInt (Int64.ofNat ts.toNat)) : KeptOnce new := by
  obtain ⟨ts, rfl, hts⟩ := armNew_eq_some hnew hr
  refine ⟨hone, harm, ⟨ts, rfl⟩, ?_⟩
  show FitsInt (Int64.ofNat ts.toNat)
  by_cases h0 : ts = 0
  · rw [h0]
    decide
  · cases hts with
    | inl h => exact absurd h h0
    | inr h => exact hfits h.1 ts h.2 h0

/-- What was read stays installed when it is armed. -/
theorem installed_of_armNew {object : ScheduleObject Coord} {r new : Schedule Coord}
    (hkey : ownerNodeKey P owner = some nodeKey)
    (hread : readSchedule P (s.clock enable) owner nodeKey object = some r)
    (hnew : armNew P (s.clock enable) r = some new) : Installed P owner new := by
  obtain ⟨ts, hts, -⟩ := armNew_eq_some hnew (nextFireTs_of_readSchedule hread)
  exact (installed_of_readSchedule hkey hread).armed ⟨ts, hts⟩

section Install

variable {enable : Enable Coord} {nodeKey : NodeKey} {accepted : List (ScheduleObject Coord)}
  {live : List (Handle Coord)}

theorem nodup_build_numberEntries (clock : Clock Coord) (next : Nat)
    (objects : List (ScheduleObject Coord)) :
    ((build P clock owner nodeKey (numberEntries next objects)).map Handle.inst).Nodup := by
  refine List.Nodup.sublist (build_sublist P clock owner nodeKey _) ?_
  rw [map_number_numberEntries]
  exact List.nodup_range'

/-- A new number is not an old one-shot. -/
theorem LiveOk.oneShot_of_new (h : LiveOk P owner s)
    (hlive : build P (s.clock enable) owner nodeKey (numberEntries s.next accepted) = live)
    {g : Handle Coord} (hg : g ∈ live) (hone : g.inst ∈ oneShotsOf live ++ s.oneShots) :
    g.schedule.oneShot = true := by
  cases List.mem_append.mp hone with
  | inl hone =>
    have hnodup : (live.map Handle.inst).Nodup := hlive ▸ nodup_build_numberEntries _ _ _
    obtain ⟨g', hg', heq⟩ := List.mem_map.mp hone
    obtain ⟨hg', hflag⟩ := List.mem_filter.mp hg'
    rw [← eq_of_inst_eq hnodup hg' hg heq]
    exact hflag
  | inr hone =>
    have hge := (mem_build_numberEntries (hlive ▸ hg)).1
    exact absurd (h.oneShotsBelow _ hone) (Nat.not_lt.mpr hge)

/-- What was in flash or in the history stays an old number. -/
theorem mem_oneShots_of_lt
    (hlive : build P (s.clock enable) owner nodeKey (numberEntries s.next accepted) = live)
    {n : Nat} (hn : n < s.next) (hone : n ∈ oneShotsOf live ++ s.oneShots) : n ∈ s.oneShots := by
  cases List.mem_append.mp hone with
  | inl hone =>
    obtain ⟨g, hg, rfl⟩ := List.mem_map.mp hone
    have hge := (mem_build_numberEntries (hlive ▸ List.mem_of_mem_filter hg)).1
    exact absurd hn (Nat.not_lt.mpr hge)
  | inr hone => exact hone

/-- The handles of an install never fired. -/
theorem LiveOk.install (h : LiveOk P owner s) (hkey : ownerNodeKey P owner = some nodeKey)
    (hlive : build P (s.clock enable) owner nodeKey (numberEntries s.next accepted) = live)
    (hkeeps : ∀ object ∈ accepted, ∀ r ∈ readSchedule P (s.clock enable) owner nodeKey object,
      r.oneShot = true → AcceptKeepsTs P s enable r) :
    LiveOk P owner { s with
      live
      wentOff := []
      next := s.next + accepted.length
      oneShots := oneShotsOf live ++ s.oneShots
      armed := stamps live ++ s.armed } := by
  have hmem {g : Handle Coord} (hg : g ∈ live) := mem_build_numberEntries (hlive ▸ hg)
  have hnodup : (live.map Handle.inst).Nodup := hlive ▸ nodup_build_numberEntries _ _ _
  have hbelow : ∀ p ∈ s.armed, p.1 < s.next + accepted.length ∧ p.2 ≠ 0 := by
    intro p hp
    obtain ⟨hlt, hne⟩ := h.armedBelow p hp
    exact ⟨Nat.lt_add_right _ hlt, hne⟩
  refine ⟨fun g hg => (hmem hg).2.1, ?_, hnodup, ?_, ?_,
    armedBelow_stamps (fun g hg => (hmem hg).2.1) hbelow, ?_, h.updates,
    fun n hn => Nat.lt_add_right _ (h.firedBelow n hn), ?_, ?_⟩
  · intro g hg
    obtain ⟨-, -, object, -, r, hread, harm⟩ := hmem hg
    exact installed_of_armNew hkey hread harm
  · intro g hg hone
    obtain ⟨-, -, object, hobj, r, hread, harm⟩ := hmem hg
    have hflag : r.oneShot = true := by
      obtain ⟨ts, hts, -⟩ := armNew_eq_some harm (nextFireTs_of_readSchedule hread)
      have := h.oneShot_of_new hlive hg hone
      rwa [hts] at this
    obtain ⟨hday, hfits⟩ := hkeeps object hobj r hread hflag
    exact keptOnce_of_armNew harm (nextFireTs_of_readSchedule hread) hflag hday
      fun hnow ts hts _ => hfits hnow ts hts
  · intro g hg _
    have hnone : s.armed.lookup g.inst = none := by
      rw [List.lookup_eq_none_iff]
      intro p hp
      have := (h.armedBelow p hp).1
      have := (hmem hg).1
      simp
      omega
    rw [lookup_stamps hnodup hg, hnone]
  · intro g hg _ hfired
    exact absurd (h.firedBelow _ hfired) (Nat.not_lt.mpr (hmem hg).1)
  · intro n hn
    cases List.mem_append.mp hn with
    | inl hn =>
      obtain ⟨g, hg, rfl⟩ := List.mem_map.mp hn
      exact (hmem (List.mem_of_mem_filter hg)).2.1
    | inr hn => exact Nat.lt_add_right _ (h.oneShotsBelow n hn)
  · intro n hn
    show s.fired.count n ≤ 1
    by_cases hlt : n < s.next
    · exact h.once n (mem_oneShots_of_lt hlive hlt hn)
    · have hfresh : n ∉ s.fired := fun hfired => hlt (h.firedBelow _ hfired)
      rw [List.count_eq_zero_of_not_mem hfresh]
      exact Nat.zero_le 1

/-- They are not in flash yet. -/
theorem StoredOk.install (h : StoredOk P owner s)
    (hlive : build P (s.clock enable) owner nodeKey (numberEntries s.next accepted) = live) :
    StoredOk P owner { s with
      live
      wentOff := []
      next := s.next + accepted.length
      oneShots := oneShotsOf live ++ s.oneShots
      armed := stamps live ++ s.armed } := by
  have hold {e : Entry Coord} (he : e ∈ s.entries) (hone : e.number ∈ oneShotsOf live ++ s.oneShots) :
      e.number ∈ s.oneShots := mem_oneShots_of_lt hlive (h.below e he) hone
  refine ⟨fun e he => Nat.lt_add_right _ (h.below e he), h.nodup, ?_, ?_, ?_⟩
  · intro e he
    obtain ⟨r, hr, hobj, hkept⟩ := h.written e he
    exact ⟨r, hr, hobj, fun hone => hkept (hold he hone)⟩
  · intro e he hone ts hts
    cases lookup_stamps_cases hts with
    | inl hnew =>
      obtain ⟨g, hg, heq, -, -⟩ := hnew
      have hge := (mem_build_numberEntries (hlive ▸ hg)).1
      exact absurd (h.below e he) (Nat.not_lt.mpr (heq ▸ hge))
    | inr hts => exact h.armed e he (hold he hone) ts hts
  · exact fun e he hone hfired => h.fired e he (hold he hone) hfired

end Install

/-- An install starts afresh: its numbers never fired and are not in flash yet. -/
theorem Inv.install [DecidableEq Coord] (h : Inv P owner s)
    {data : Option (List (Option (ScheduleObject Coord)))}
    (hkeeps : InstallKeepsTs P owner s data enable) (written : Bool) :
    Inv P owner (s.install P owner data enable written) := by
  unfold NodeState.install
  cases hkey : ownerNodeKey P owner with
  | none => exact h
  | some nodeKey =>
    cases data with
    | none => exact h.shrink (.drop owner s)
    | some payload =>
      dsimp only
      refine LiveOk.inv_persist ?_ written fun _ => h.stored.install rfl
      exact h.live.install hkey rfl (hkeeps nodeKey hkey payload rfl)

/-! ### The replay -/

/-- What a replay makes of the entry of a one-shot that did not come due. -/
theorem read_written {r₀ r : Schedule Coord} (hkey : ownerNodeKey P owner = some nodeKey)
    (hr₀ : Installed P owner r₀)
    (hread : readSchedule P (s.clock enable) owner nodeKey (emitSchedule P r₀) = some r) :
    r = restored P r₀ := by
  obtain rfl : r₀.nodeKey = nodeKey := Option.some.inj (hr₀.nodeKey.symm.trans hkey)
  rw [readSchedule_emitSchedule P _ hr₀] at hread
  split at hread
  · cases hread
  · exact (Option.some.inj hread).symm

/-- A replay that leaves the text alone keeps every entry with its number. -/
theorem serialize_eq_of_objects {clock : Clock Coord} {n : Nat} {stored : List (Entry Coord)}
    (htext : (serialize P (build P clock owner nodeKey (stored.take n))).map Entry.object =
      stored.map Entry.object) :
    serialize P (build P clock owner nodeKey (stored.take n)) = stored := by
  have hsub : ((serialize P (build P clock owner nodeKey (stored.take n))).map
      Entry.number).Sublist (stored.map Entry.number) :=
    (serialize_sublist P _).trans ((build_sublist P clock owner nodeKey _).trans
      ((List.take_sublist n stored).map _))
  have hlen := congrArg List.length htext
  simp only [List.length_map] at hlen
  have hnum := hsub.eq_of_length (by simpa using hlen)
  refine List.ext_getElem hlen fun i hi hi' => ?_
  have hnum_i := List.getElem_of_eq hnum (i := i) (by simpa using hi)
  have hobj_i := List.getElem_of_eq htext (i := i) (by simpa using hi)
  rw [List.getElem_map, List.getElem_map] at hnum_i hobj_i
  cases hleft : (serialize P (build P clock owner nodeKey (stored.take n)))[i]
  cases hright : stored[i]
  rw [hleft, hright] at hnum_i hobj_i
  subst hnum_i hobj_i
  rfl

/-- The entry of a one-shot reads back as a one-shot. -/
theorem StoredOk.read_oneShot (h : StoredOk P owner s)
    (hkey : ownerNodeKey P owner = some nodeKey) {e : Entry Coord} {r : Schedule Coord}
    (he : e ∈ s.entries) (hone : e.number ∈ s.oneShots)
    (hr : readSchedule P (s.clock enable) owner nodeKey e.object = some r) :
    r.oneShot = true ∧ ¬r.trigger.LacksDayArm := by
  obtain ⟨r₀, hr₀, hobj, hkept⟩ := h.written e he
  obtain ⟨hflag, harm⟩ := hkept hone
  rw [hobj] at hr
  rw [read_written hkey hr₀ hr]
  exact ⟨(oneShot_restored hr₀ harm).trans hflag, not_lacksDayArm_restored P harm⟩

/-- Under a synced clock a new schedule is armed. -/
theorem armed_of_synced {r new : Schedule Coord} (hnew : armNew P (s.clock enable) r = some new)
    (hsync : s.synced = true) : new.nextFireTs ≠ 0 := by
  unfold armNew at hnew
  split at hnew
  · split at hnew
    · cases hnew
    · rename_i hspent
      obtain rfl := Option.some.inj hnew
      simpa [scheduleIsSpent, NodeState.clock, hsync] using hspent
  · rename_i hdefer
    have hnow := armOrDefer_eq_none hdefer
    simp [NodeState.armsNow, hsync] at hnow

section Reload

variable {enable : Enable Coord} {written : Bool} {nodeKey : NodeKey} {stored : List (Entry Coord)}
  {live : List (Handle Coord)}

/-- A replayed handle comes from an entry in flash. -/
theorem mem_replayed (hentries : s.entries = stored)
    (hlive : build P (s.clock enable) owner nodeKey (stored.take P.maxSchedulesPerNode) = live)
    {g : Handle Coord} (hg : g ∈ live) :
    ∃ e ∈ s.entries, e ∈ s.entries.take P.maxSchedulesPerNode ∧ ∃ r,
      readSchedule P (s.clock enable) owner nodeKey e.object = some r ∧
        armNew P (s.clock enable) r = some g.schedule ∧ g.inst = e.number := by
  obtain ⟨e, he, hr⟩ := mem_build (hlive ▸ hg)
  rw [hentries]
  exact ⟨e, List.mem_of_mem_take he, he, hr⟩

/-- The one-shots of a replay did not fire. -/
theorem Inv.liveOk_reload (h : Inv P owner s) (hkey : ownerNodeKey P owner = some nodeKey)
    (hkeeps : ReplayKeepsTs P owner s enable written) (hentries : s.entries = stored)
    (hlive : build P (s.clock enable) owner nodeKey (stored.take P.maxSchedulesPerNode) = live) :
    LiveOk P owner { s with live, wentOff := [], armed := stamps live ++ s.armed } := by
  have hmem {g : Handle Coord} (hg : g ∈ live) := mem_replayed hentries hlive hg
  have hnodup : (live.map Handle.inst).Nodup := by
    rw [← hlive]
    refine h.stored.nodup.sublist ?_
    rw [hentries]
    exact (build_sublist P _ owner nodeKey _).trans ((List.take_sublist _ stored).map _)
  have hbelow : ∀ g ∈ live, g.inst < s.next := by
    intro g hg
    obtain ⟨e, he, -, -, -, -, hnum⟩ := hmem hg
    exact hnum ▸ h.stored.below e he
  refine ⟨hbelow, ?_, hnodup, ?_, ?_, armedBelow_stamps hbelow h.live.armedBelow, ?_,
    h.live.updates, h.live.firedBelow, h.live.oneShotsBelow, h.live.once⟩
  · intro g hg
    obtain ⟨e, -, -, r, hr, harm, -⟩ := hmem hg
    exact installed_of_armNew hkey hr harm
  · intro g hg hone
    obtain ⟨e, he, htake, r, hr, harm, hnum⟩ := hmem hg
    obtain ⟨hflag, hday⟩ := h.stored.read_oneShot hkey he (hnum ▸ hone) hr
    exact keptOnce_of_armNew harm (nextFireTs_of_readSchedule hr) hflag hday
      fun hnow ts hts h0 => ((hkeeps nodeKey hkey e htake r hr hflag).2 hnow ts hts h0).1
  · intro g hg hone
    rw [lookup_stamps hnodup hg]
    split
    · -- It is not armed, so the clock is not synced and the entry has no instant.
      rename_i h0
      obtain ⟨e, he, htake, r, hr, harm, hnum⟩ := hmem hg
      obtain ⟨hflag, -⟩ := h.stored.read_oneShot hkey he (hnum ▸ hone) hr
      rw [Option.eq_none_iff_forall_not_mem]
      intro ts hts
      have hne := (h.live.armedBelow _ (mem_of_lookup hts)).2
      rw [hnum] at hts hone
      rw [← h.stored.armed e he hone ts hts] at hne
      exact armed_of_synced harm ((hkeeps nodeKey hkey e htake r hr hflag).1 hne) h0
    · rfl
  · -- A one-shot that fired came due, so the build skipped it.
    intro g hg hone hfired
    obtain ⟨e, he, htake, r, hr, -, hnum⟩ := hmem hg
    obtain ⟨hflag, -⟩ := h.stored.read_oneShot hkey he (hnum ▸ hone) hr
    obtain ⟨hne, hle⟩ := h.stored.fired e he (hnum ▸ hone) (hnum ▸ hfired)
    have hsync := (hkeeps nodeKey hkey e htake r hr hflag).1 hne
    have hdue := notDue_of_readSchedule hr
    simp [cameDue, NodeState.clock, hflag, hne, hsync, hle] at hdue

/-- Also when the write of a replay is lost, its instants are those in flash. -/
theorem Inv.storedOk_reload (h : Inv P owner s) (hkey : ownerNodeKey P owner = some nodeKey)
    (hkeeps : ReplayKeepsTs P owner s enable written) (hentries : s.entries = stored)
    (hlive : build P (s.clock enable) owner nodeKey (stored.take P.maxSchedulesPerNode) = live)
    (hlost : written = false) :
    StoredOk P owner { s with live, wentOff := [], armed := stamps live ++ s.armed } := by
  refine ⟨h.stored.below, h.stored.nodup, h.stored.written, ?_, h.stored.fired⟩
  intro e' he' hone ts' hts'
  cases lookup_stamps_cases hts' with
  | inr hold => exact h.stored.armed e' he' hone ts' hold
  | inl hnew =>
    obtain ⟨g, hg, hinst, hne, rfl⟩ := hnew
    obtain ⟨e, he, htake, r, hr, harm, hnum⟩ := mem_replayed hentries hlive hg
    obtain rfl : e' = e :=
      List.inj_on_of_nodup_map h.stored.nodup he' he (hinst.symm.trans hnum)
    obtain ⟨hflag, -⟩ := h.stored.read_oneShot hkey he hone hr
    obtain ⟨ts, hts, hen⟩ := armNew_eq_some harm (nextFireTs_of_readSchedule hr)
    rw [hts] at hne ⊢
    have h0 : ts ≠ 0 := fun h0 => hne (by rw [h0]; rfl)
    cases hen with
    | inl hzero => exact absurd hzero h0
    | inr hen =>
      cases ((hkeeps nodeKey hkey e' htake r hr hflag).2 hen.1 ts hen.2 h0).2 with
      | inl hw =>
        rw [hlost] at hw
        cases hw
      | inr hsame => exact hsame

/-- A replay rebuilds one-shots that did not fire, for the instant in flash. -/
theorem Inv.reload [DecidableEq Coord] (h : Inv P owner s)
    (hkeeps : ReplayKeepsTs P owner s enable written) :
    Inv P owner (s.reload P owner enable written) := by
  unfold NodeState.reload
  split
  case h_2 => exact h
  case h_1 stored nodeKey hstored hkey =>
    have hentries : s.entries = stored := by rw [NodeState.entries, hstored, Option.getD_some]
    have hok := h.liveOk_reload hkey hkeeps hentries rfl
    dsimp only
    split
    · rename_i htext
      refine ⟨hok, hok.storedOk_serialize ?_⟩
      rw [← serialize_eq_of_objects htext] at hentries
      exact hentries
    · exact hok.inv_persist written (h.storedOk_reload hkey hkeeps hentries rfl)

end Reload

/-! ### The re-arm -/

section Visit

variable {enable : Enable Coord} {written : Bool} {live : List (Handle Coord)}

/-- A visit keeps the number of a handle, and all but its armed instant. -/
theorem ReArmed.frame {hs : List (Handle Coord)} {k g : Handle Coord}
    (h : ReArmed P (s.clock enable) hs k g) : g.inst = k.inst ∧
      (g = k ∨ ∃ ts : UInt32,
        g.schedule = { k.schedule with nextFireTs := Int64.ofNat ts.toNat }) := by
  cases h with
  | inl hdefer =>
    obtain rfl := hdefer.2
    exact ⟨rfl, .inl rfl⟩
  | inr harm =>
    obtain ⟨armed, ha, rfl, -⟩ := harm
    obtain ⟨-, ts, hts, -⟩ := armOrDefer_eq_some ha
    exact ⟨rfl, .inr ⟨ts, hts⟩⟩

/-- A one-shot that a visit arms anew did not fire. Its instant is the one in flash, or the visit
writes. -/
structure ArmedAnew (P : Platform Coord) (s : NodeState Coord) (enable : Enable Coord)
    (written : Bool) (k g : Handle Coord) (ts : UInt32) : Prop where
  inst : g.inst = k.inst
  fresh : k.inst ∉ s.fired
  ne_zero : ts ≠ 0
  schedule : g.schedule = { k.schedule with nextFireTs := Int64.ofNat ts.toNat }
  fits : FitsInt (Int64.ofNat ts.toNat)
  stored : (written = true ∧ ∃ g ∈ s.live, Spends P (s.clock enable) g) ∨
    ∀ e ∈ s.entries, e.number = k.inst → armedTs P e.object = Int64.ofNat ts.toNat

/-- What a visit leaves of the live handles. The arm of a one-shot was deferred, or it is armed
anew. -/
structure Visited (P : Platform Coord) (s : NodeState Coord) (enable : Enable Coord)
    (written : Bool) (live : List (Handle Coord)) : Prop where
  nodup : (live.map Handle.inst).Nodup
  frame : ∀ g ∈ live, ∃ k ∈ s.live, g.inst = k.inst ∧
    (g = k ∨ ∃ ts : UInt32, g.schedule = { k.schedule with nextFireTs := Int64.ofNat ts.toNat })
  oneShots : ∀ g ∈ live, g.inst ∈ s.oneShots →
    (s.armsNow P = false ∧ g ∈ s.live) ∨ ∃ k ∈ s.live, ∃ ts, ArmedAnew P s enable written k g ts

/-- The condition says what a one-shot is armed for. -/
theorem LiveOk.armedAnew (h : LiveOk P owner s) (hkeeps : VisitKeepsTs P s enable written)
    {k g : Handle Coord} (hk : k ∈ s.live) (hone : g.inst ∈ s.oneShots)
    (harm : ReArmed P (s.clock enable) s.live k g) :
    (s.armsNow P = false ∧ g ∈ s.live) ∨ ∃ k ∈ s.live, ∃ ts, ArmedAnew P s enable written k g ts := by
  cases harm with
  | inl hdefer =>
    obtain ⟨hdefer, rfl⟩ := hdefer
    exact .inl ⟨armOrDefer_eq_none hdefer, hk⟩
  | inr harm =>
    obtain ⟨armed, ha, rfl, hclash⟩ := harm
    obtain ⟨hnow, ts, hts, hen⟩ := armOrDefer_eq_some ha
    cases hkeeps hnow k hk (h.oneShots k hk hone).oneShot with
    | inl hleaves =>
      obtain ⟨k', hk', hne, hid⟩ := hclash hleaves.1
      exact absurd (hleaves.2 k' hk' hid) hne
    | inr harmed =>
      obtain ⟨hfresh, ts', hen', h0, hfits, hsame⟩ := harmed
      have hts' : armed = { k.schedule with nextFireTs := Int64.ofNat ts'.toNat } := by
        have hnow' := hnow
        rw [NodeState.armsNow, Bool.not_eq_true'] at hnow'
        have harmed := ha
        rw [armOrDefer, if_neg (by rw [Bool.not_eq_true]; exact hnow')] at harmed
        rw [show (s.clock enable).enable k.schedule.trigger k.schedule.validity = some ts'
          from hen'] at harmed
        exact (Option.some.inj harmed).symm
      exact .inr ⟨k, hk, ts', rfl, hfresh, h0, hts', hfits, hsame⟩

theorem LiveOk.visited (h : LiveOk P owner s) (hkeeps : VisitKeepsTs P s enable written) :
    Visited P s enable written (rescheduleFrom P (s.clock enable) s.live.length s.live).1 := by
  have hmem {g : Handle Coord}
      (hg : g ∈ (rescheduleFrom P (s.clock enable) s.live.length s.live).1) :
      ∃ k ∈ s.live, ReArmed P (s.clock enable) s.live k g := by
    have hg' : g ∈ (rescheduleFrom P (s.clock enable) s.live.length (s.live ++ [])).1 := by
      rw [List.append_nil]
      exact hg
    cases mem_rescheduleFrom P (s.clock enable) s.live.length s.live [] rfl h.nodup g hg' with
    | inl hnil => cases hnil
    | inr hk => exact hk
  refine ⟨?_, ?_, ?_⟩
  · have hsub := (rescheduleFrom_sublist P (s.clock enable) s.live.length s.live).map Prod.fst
    rw [List.map_map, List.map_map] at hsub
    exact h.nodup.sublist hsub
  · intro g hg
    obtain ⟨k, hk, harm⟩ := hmem hg
    exact ⟨k, hk, harm.frame⟩
  · intro g hg hone
    obtain ⟨k, hk, harm⟩ := hmem hg
    exact h.armedAnew hkeeps hk hone harm

/-- The live one-shots of a visit did not fire, or they were not touched. -/
theorem LiveOk.visit (h : LiveOk P owner s) (hv : Visited P s enable written live) :
    LiveOk P owner { s with
      live
      wentOff := if s.armsNow P then [] else s.wentOff
      armed := stamps live ++ s.armed } := by
  have hbelow : ∀ g ∈ live, g.inst < s.next := by
    intro g hg
    obtain ⟨k, hk, hinst, -⟩ := hv.frame g hg
    exact hinst ▸ h.below k hk
  refine ⟨hbelow, ?_, hv.nodup, ?_, ?_, armedBelow_stamps hbelow h.armedBelow, ?_, h.updates,
    h.firedBelow, h.oneShotsBelow, h.once⟩
  · intro g hg
    obtain ⟨k, hk, -, hsame⟩ := hv.frame g hg
    cases hsame with
    | inl heq => exact heq ▸ h.installed k hk
    | inr harm => exact (h.installed k hk).armed harm
  · intro g hg hone
    cases hv.oneShots g hg hone with
    | inl hdefer => exact h.oneShots g hdefer.2 hone
    | inr hanew =>
      obtain ⟨k, hk, ts, harmed⟩ := hanew
      have hkept := h.oneShots k hk (harmed.inst ▸ hone)
      rw [harmed.schedule]
      exact ⟨hkept.oneShot, hkept.dayArm, ⟨ts, rfl⟩, harmed.fits⟩
  · intro g hg hone
    rw [lookup_stamps hv.nodup hg]
    split
    · rename_i hzero
      cases hv.oneShots g hg hone with
      | inl hdefer => rw [h.armed g hdefer.2 hone, if_pos hzero]
      | inr hanew =>
        obtain ⟨k, -, ts, harmed⟩ := hanew
        rw [harmed.schedule] at hzero
        exact absurd hzero (ofNat_toNat_ne_zero harmed.ne_zero)
    · rfl
  · intro g hg hone hfired
    cases hv.oneShots g hg hone with
    | inl hdefer =>
      obtain ⟨hdefer, hk⟩ := hdefer
      show _ ∧ _ ∧ g.inst ∈ if s.armsNow P then [] else s.wentOff
      rw [hdefer, if_neg (by decide)]
      exact h.fired g hk hone hfired
    | inr hanew =>
      obtain ⟨k, -, ts, harmed⟩ := hanew
      exact absurd (harmed.inst ▸ hfired) harmed.fresh

/-- Unless the visit wrote, the instants are those in flash. -/
theorem Inv.storedOk_visit (h : Inv P owner s) (hv : Visited P s enable written live)
    (hw : ¬(written = true ∧ ∃ g ∈ s.live, Spends P (s.clock enable) g)) :
    StoredOk P owner { s with
      live
      wentOff := if s.armsNow P then [] else s.wentOff
      armed := stamps live ++ s.armed } := by
  refine ⟨h.stored.below, h.stored.nodup, h.stored.written, ?_, h.stored.fired⟩
  intro e he hone ts hts
  cases lookup_stamps_cases hts with
  | inr hold => exact h.stored.armed e he hone ts hold
  | inl hnew =>
    obtain ⟨g, hg, hinst, hne, rfl⟩ := hnew
    cases hv.oneShots g hg (hinst ▸ hone) with
    | inl hdefer =>
      refine h.stored.armed e he hone _ ?_
      rw [← hinst, h.live.armed g hdefer.2 (hinst ▸ hone), if_neg hne]
      rfl
    | inr hanew =>
      obtain ⟨k, -, ts, harmed⟩ := hanew
      rw [harmed.schedule]
      cases harmed.stored with
      | inl hwrote => exact absurd hwrote hw
      | inr hsame => exact hsame e he (hinst.symm.trans harmed.inst)

/-- A visit arms one-shots that did not fire, for the instant in flash. -/
theorem Inv.visit (h : Inv P owner s) (hkeeps : VisitKeepsTs P s enable written) :
    Inv P owner (s.visit P enable written) := by
  have hv := h.live.visited hkeeps
  have hok := h.live.visit hv
  unfold NodeState.visit
  dsimp only
  split
  · rename_i hempty
    refine ⟨hok, h.storedOk_visit hv fun hwrote => ?_⟩
    have hremoves := rescheduleFrom_removes P (s.clock enable) s.live [] hwrote.2
    rw [List.append_nil] at hremoves
    exact hremoves (List.isEmpty_iff.mp hempty)
  · refine hok.inv_persist written fun hlost => h.storedOk_visit hv fun hwrote => ?_
    rw [hlost] at hwrote
    exact absurd hwrote.1 (by decide)

end Visit

/-! ### The timer -/

omit [Inhabited Coord] in
/-- A queued copy adds its number to the fires. -/
theorem count_fired_append (queue : List (Task Coord)) (copy : FireCopy) (ran : List Nat)
    (n : Nat) :
    (queuedFires (queue ++ [.fire copy]) ++ ran).count n =
      (queuedFires queue ++ ran).count n + if copy.inst = n then 1 else 0 := by
  have hone : queuedFires [(.fire copy : Task Coord)] = [copy.inst] := rfl
  rw [queuedFires, List.filterMap_append, ← queuedFires, ← queuedFires, hone]
  simp only [List.count_append, List.count_singleton, beq_iff_eq]
  omega

/-- The first handle with a number is live and has the number. -/
theorem mem_of_find?_inst {inst : Nat} {h : Handle Coord}
    (hfind : s.live.find? (fun g => g.inst == inst) = some h) : h ∈ s.live ∧ h.inst = inst :=
  ⟨List.mem_of_find?_eq_some hfind, by simpa using List.find?_some hfind⟩

/-- A timer that goes off is one of a one-shot that did not fire yet. -/
theorem Inv.trigger (h : Inv P owner s) {k : Handle Coord} (hk : k ∈ s.live)
    (hdue : s.due k = true) (queued : Bool) :
    Inv P owner { s with
      wentOff := k.inst :: s.wentOff
      queue := if queued then s.queue ++ [.fire k.fireCopy] else s.queue } := by
  simp only [NodeState.due, Bool.and_eq_true, bne_iff_ne, ne_eq, decide_eq_true_eq,
    Bool.not_eq_true', List.contains_eq_mem, decide_eq_false_iff_not] at hdue
  obtain ⟨⟨hne, hle⟩, hoff⟩ := hdue
  cases queued with
  | false =>
    exact h.shrink { Shrinks.refl owner s with wentOff := fun _ _ hg => List.mem_cons_of_mem _ hg }
  | true =>
    have hcount (n : Nat) : (queuedFires (s.queue ++ [.fire k.fireCopy]) ++ s.ran).count n =
        s.fired.count n + if k.inst = n then 1 else 0 := count_fired_append _ _ _ n
    have hmem {n : Nat} (hn : n ∈ queuedFires (s.queue ++ [.fire k.fireCopy]) ++ s.ran) :
        n = k.inst ∨ n ∈ s.fired := by
      have hpos := List.count_pos_iff.mpr hn
      rw [hcount] at hpos
      by_cases hkn : k.inst = n
      · exact .inl hkn.symm
      · rw [if_neg hkn] at hpos
        exact .inr (List.count_pos_iff.mp hpos)
    refine ⟨⟨h.live.below, h.live.installed, h.live.nodup, h.live.oneShots, h.live.armed,
      h.live.armedBelow, ?_, ?_, ?_, h.live.oneShotsBelow, ?_⟩, ⟨h.stored.below, h.stored.nodup,
      h.stored.written, h.stored.armed, ?_⟩⟩
    · intro g hg hone hfired
      cases hmem hfired with
      | inl heq =>
        obtain rfl := eq_of_inst_eq h.live.nodup hg hk heq
        exact ⟨hne, hle, List.mem_cons_self⟩
      | inr hfired =>
        obtain ⟨hne', hle', hoff'⟩ := h.live.fired g hg hone hfired
        exact ⟨hne', hle', List.mem_cons_of_mem _ hoff'⟩
    · intro o data ho
      cases List.mem_append.mp ho with
      | inl ho => exact h.live.updates o data ho
      | inr ho => simp at ho
    · intro n hn
      cases hmem hn with
      | inl heq => exact heq ▸ h.live.below k hk
      | inr hn => exact h.live.firedBelow n hn
    · intro n hn
      show (queuedFires (s.queue ++ [.fire k.fireCopy]) ++ s.ran).count n ≤ 1
      rw [hcount]
      by_cases hkn : k.inst = n
      · have hfresh : n ∉ s.fired := by
          intro hfired
          rw [← hkn] at hn hfired
          exact hoff (h.live.fired k hk hn hfired).2.2
        rw [List.count_eq_zero_of_not_mem hfresh, if_pos hkn]
      · rw [if_neg hkn]
        exact h.live.once n hn
    · intro e he hone hfired
      cases hmem hfired with
      | inl heq =>
        have hts : k.schedule.nextFireTs ∈ s.armed.lookup e.number := by
          rw [heq, h.live.armed k hk (heq ▸ hone), if_neg hne]
          rfl
        rw [h.stored.armed e he hone _ hts]
        exact ⟨hne, hle⟩
      | inr hfired => exact h.stored.fired e he hone hfired

/-- A repeating handle that re-arms itself is not one of the one-shots. -/
theorem Inv.timestamp (h : Inv P owner s) {k : Handle Coord} (hk : k ∈ s.live)
    (hflag : k.schedule.oneShot = false) (ts : UInt32) :
    Inv P owner { s with
      live := s.live.map (Handle.timestamp k.inst ts)
      wentOff := s.wentOff.filter (· ≠ k.inst) } := by
  have hnot : k.inst ∉ s.oneShots := by
    intro hone
    rw [(h.live.oneShots k hk hone).oneShot] at hflag
    cases hflag
  have hinst (g : Handle Coord) : (g.timestamp k.inst ts).inst = g.inst := by
    unfold Handle.timestamp
    split <;> rfl
  -- A one-shot is left alone.
  have hsame {g : Handle Coord} (hone : (g.timestamp k.inst ts).inst ∈ s.oneShots) :
      g.inst ≠ k.inst ∧ g.timestamp k.inst ts = g := by
    rw [hinst] at hone
    have hne : g.inst ≠ k.inst := fun heq => hnot (heq ▸ hone)
    exact ⟨hne, if_neg hne⟩
  refine ⟨⟨?_, ?_, ?_, ?_, ?_, h.live.armedBelow, ?_, h.live.updates, h.live.firedBelow,
    h.live.oneShotsBelow, h.live.once⟩, ⟨h.stored.below, h.stored.nodup, h.stored.written,
    h.stored.armed, h.stored.fired⟩⟩
  · intro g' hg'
    obtain ⟨g, hg, rfl⟩ := List.mem_map.mp hg'
    rw [hinst]
    exact h.live.below g hg
  · intro g' hg'
    obtain ⟨g, hg, rfl⟩ := List.mem_map.mp hg'
    unfold Handle.timestamp
    split
    · exact (h.live.installed g hg).armed ⟨ts, rfl⟩
    · exact h.live.installed g hg
  · show ((s.live.map (Handle.timestamp k.inst ts)).map Handle.inst).Nodup
    have hmap : Handle.inst ∘ Handle.timestamp k.inst ts = Handle.inst := funext hinst
    rw [List.map_map, hmap]
    exact h.live.nodup
  · intro g' hg' hone
    obtain ⟨g, hg, rfl⟩ := List.mem_map.mp hg'
    obtain ⟨-, heq⟩ := hsame hone
    rw [heq] at hone ⊢
    exact h.live.oneShots g hg hone
  · intro g' hg' hone
    obtain ⟨g, hg, rfl⟩ := List.mem_map.mp hg'
    obtain ⟨-, heq⟩ := hsame hone
    rw [heq] at hone ⊢
    exact h.live.armed g hg hone
  · intro g' hg' hone hfired
    obtain ⟨g, hg, rfl⟩ := List.mem_map.mp hg'
    obtain ⟨hne, heq⟩ := hsame hone
    rw [heq] at hone hfired ⊢
    obtain ⟨hts, hle, hoff⟩ := h.live.fired g hg hone hfired
    exact ⟨hts, hle, List.mem_filter.mpr ⟨hoff, by simpa using hne⟩⟩

end Worker

/-! ### Every event -/

/-- **One event.** An event that meets the condition keeps the invariant. -/
theorem Inv.step [DecidableEq Coord] (h : Inv P owner s) {a : Event Coord}
    (hkeeps : KeepsTs P owner s a) (ht : step P owner s a = some t) : Inv P owner t := by
  cases a with
  | receive data =>
    obtain rfl := Option.some.inj ht
    refine h.shrink { Shrinks.refl owner s with fired := fun n => Nat.le_of_eq ?_, updates := ?_ }
    · show (queuedFires (s.queue ++ [.update owner data]) ++ s.ran).count n =
        (queuedFires s.queue ++ s.ran).count n
      have hnone : queuedFires [(.update owner data : Task Coord)] = [] := rfl
      rw [queuedFires, List.filterMap_append, ← queuedFires, ← queuedFires, hnone,
        List.append_nil]
    · intro o d ho
      cases List.mem_append.mp ho with
      | inl ho => exact .inl ho
      | inr ho =>
        obtain ⟨rfl, -⟩ := Task.update.inj (List.mem_singleton.mp ho)
        exact .inr rfl
  | work doWork resolved enable written =>
    cases hq : s.queue with
    | nil => simp [Persistence.step, hq] at ht
    | cons task queue =>
      cases task with
      | fire copy =>
        simp only [Persistence.step, hq, Option.some.injEq] at ht
        exact ht ▸ h.runFire hq doWork resolved written
      | update o data =>
        simp only [Persistence.step, hq, Option.some.injEq] at ht
        simp only [KeepsTs, hq] at hkeeps
        obtain rfl := h.live.updates o data (hq ▸ List.mem_cons_self)
        have hrest : Inv P o { s with queue } := by
          refine h.shrink { Shrinks.refl o s with
            fired := fun n => Nat.le_of_eq ?_
            updates := fun _ _ ho => ?_ }
          · show (queuedFires queue ++ s.ran).count n = (queuedFires s.queue ++ s.ran).count n
            rw [hq]
            rfl
          · exact .inl (hq ▸ List.mem_cons_of_mem _ ho)
        exact ht ▸ hrest.install hkeeps written
  | sync =>
    obtain rfl := Option.some.inj ht
    exact h.shrink { Shrinks.refl owner s with }
  | armAll enable written =>
    rw [Persistence.step] at ht
    split at ht
    · obtain rfl := Option.some.inj ht
      have hready : Inv P owner { s with timeReady := true } :=
        h.shrink { Shrinks.refl owner s with }
      exact hready.visit hkeeps
    · cases ht
  | timezone enable written =>
    obtain rfl := Option.some.inj ht
    exact h.visit hkeeps
  | trigger inst queued =>
    obtain ⟨k, hfind, hk⟩ := Option.bind_eq_some_iff.mp ht
    obtain ⟨hmem, rfl⟩ := mem_of_find?_inst hfind
    split at hk
    · rename_i hdue
      obtain rfl := Option.some.inj hk
      exact h.trigger hmem hdue queued
    · cases hk
  | timestamp inst ts =>
    obtain ⟨k, hfind, hk⟩ := Option.bind_eq_some_iff.mp ht
    obtain ⟨hmem, rfl⟩ := mem_of_find?_inst hfind
    split at hk
    · cases hk
    · rename_i hflag
      obtain rfl := Option.some.inj hk
      exact h.timestamp hmem (by simpa using hflag) ts
  | tick now =>
    rw [Persistence.step] at ht
    split at ht
    · rename_i hle
      obtain rfl := Option.some.inj ht
      exact h.shrink { Shrinks.refl owner s with now := hle }
    · cases ht
  | reload enable written =>
    obtain rfl := Option.some.inj ht
    exact h.reload hkeeps
  | unload | deinit =>
    obtain rfl := Option.some.inj ht
    exact h.shrink { Shrinks.drop owner s with }
  | reboot synced =>
    obtain rfl := Option.some.inj ht
    refine h.shrink { Shrinks.drop owner s with
      fired := fun n => ?_
      updates := fun _ _ ho => by cases ho }
    show s.ran.count n ≤ (queuedFires s.queue ++ s.ran).count n
    rw [List.count_append]
    exact Nat.le_add_left _ _

/-- A node that never got schedules satisfies the invariant. -/
theorem inv_initial (P : Platform Coord) (owner : Owner) :
    Inv P owner ({} : NodeState Coord) := by
  constructor
  · refine ⟨?_, ?_, ?_, ?_, ?_, ?_, ?_, ?_, ?_, ?_, ?_⟩ <;> simp [NodeState.fired, queuedFires]
  · refine ⟨?_, ?_, ?_, ?_, ?_⟩ <;> simp [NodeState.entries]

/-! ### At most once -/

/-- The action of every one-shot ran at most once. -/
def NodeState.AtMostOnce (s : NodeState Coord) : Prop := ∀ n ∈ s.oneShots, s.ran.count n ≤ 1

/-- The entry of every one-shot that was armed has the instant that it was armed for. -/
def NodeState.Stamped (P : Platform Coord) (s : NodeState Coord) : Prop :=
  ∀ e ∈ s.entries, e.number ∈ s.oneShots → ∀ ts ∈ s.armed.lookup e.number,
    armedTs P e.object = ts

/-- A replay under a synced clock builds no one-shot whose instant has passed. -/
def NodeState.PrunesPast (P : Platform Coord) (owner : Owner) (s : NodeState Coord) : Prop :=
  ∀ e ∈ s.entries, e.number ∈ s.oneShots → ∀ ts ∈ s.armed.lookup e.number,
    s.synced = true → ts ≤ s.now → ∀ enable, ∀ nodeKey ∈ ownerNodeKey P owner,
      buildSchedule P (s.clock enable) owner nodeKey e.object = none

/-- The invariant has the three properties. -/
theorem Inv.prunesPast (h : Inv P owner s) : s.PrunesPast P owner := by
  intro e he hone ts hts hsync hle enable nodeKey hkey
  have hne := (h.live.armedBelow _ (mem_of_lookup hts)).2
  rw [buildSchedule]
  cases hr : readSchedule P (s.clock enable) owner nodeKey e.object with
  | none => rfl
  | some r =>
    obtain ⟨hflag, -⟩ := h.stored.read_oneShot hkey he hone hr
    have hdue := notDue_of_readSchedule hr
    rw [h.stored.armed e he hone ts hts] at hdue
    simp [cameDue, NodeState.clock, hflag, hne, hsync, hle] at hdue

/-- **A one-shot fires at most once.** In every run whose events all meet the condition, in every
state: no one-shot ran twice, the entry of each one that was armed has the instant in flash, and
a replay prunes those whose instant has passed. -/
theorem fires_once [DecidableEq Coord] (P : Platform Coord) (owner : Owner)
    (hs : Reach (· = {}) (step P owner) (KeepsTs P owner) s) :
    s.AtMostOnce ∧ s.Stamped P ∧ s.PrunesPast P owner := by
  have h : Inv P owner s :=
    hs.inv (Inv P owner) (by rintro s rfl; exact inv_initial P owner)
      fun _ _ _ hi hg ht => hi.step hg ht
  refine ⟨fun n hn => ?_, h.stored.armed, h.prunesPast⟩
  have honce := h.live.once n hn
  rw [NodeState.fired, List.count_append] at honce
  omega

instance (P : Platform Coord) (s : NodeState Coord) (enable : Enable Coord)
    (r : Schedule Coord) : Decidable (AcceptKeepsTs P s enable r) := by
  unfold AcceptKeepsTs
  -- The instance for a finite type would run through every timestamp.
  haveI : Decidable (∀ ts ∈ enable r.trigger r.validity, FitsInt (Int64.ofNat ts.toNat)) :=
    Option.decidableForallMem _
  infer_instance

instance (P : Platform Coord) (owner : Owner) (s : NodeState Coord)
    (data : Option (List (Option (ScheduleObject Coord)))) (enable : Enable Coord) :
    Decidable (InstallKeepsTs P owner s data enable) := by
  unfold InstallKeepsTs
  infer_instance

instance (P : Platform Coord) (s : NodeState Coord) (enable : Enable Coord) (h : Handle Coord) :
    Decidable (Leaves P s enable h) := by
  unfold Leaves
  infer_instance

instance (P : Platform Coord) (s : NodeState Coord) (enable : Enable Coord) (written : Bool)
    (h : Handle Coord) : Decidable (RearmKeepsTs P s enable written h) := by
  unfold RearmKeepsTs
  haveI : Decidable (∃ ts ∈ enable h.schedule.trigger h.schedule.validity, ts ≠ 0 ∧
      FitsInt (Int64.ofNat ts.toNat) ∧
      ((written = true ∧ ∃ g ∈ s.live, Spends P (s.clock enable) g) ∨
        ∀ e ∈ s.entries, e.number = h.inst → armedTs P e.object = Int64.ofNat ts.toNat)) :=
    Option.decidableExistsMem _
  infer_instance

instance (P : Platform Coord) (s : NodeState Coord) (enable : Enable Coord) (written : Bool) :
    Decidable (VisitKeepsTs P s enable written) := by
  unfold VisitKeepsTs
  infer_instance

instance (P : Platform Coord) (s : NodeState Coord) (enable : Enable Coord) (written : Bool)
    (e : Entry Coord) (r : Schedule Coord) : Decidable (EntryKeepsTs P s enable written e r) := by
  unfold EntryKeepsTs
  haveI : Decidable (∀ ts ∈ enable r.trigger r.validity, ts ≠ 0 →
      FitsInt (Int64.ofNat ts.toNat) ∧
        (written = true ∨ armedTs P e.object = Int64.ofNat ts.toNat)) :=
    Option.decidableForallMem _
  infer_instance

instance (P : Platform Coord) (owner : Owner) (s : NodeState Coord) (enable : Enable Coord)
    (written : Bool) : Decidable (ReplayKeepsTs P owner s enable written) := by
  unfold ReplayKeepsTs
  infer_instance

instance (P : Platform Coord) (owner : Owner) (s : NodeState Coord) :
    ∀ a : Event Coord, Decidable (KeepsTs P owner s a)
  | .work _ _ enable _ => match hq : s.queue with
    | .update o data :: _ => decidable_of_iff (InstallKeepsTs P o s data enable)
        (by simp [KeepsTs, hq])
    | [] => .isTrue (by simp [KeepsTs, hq])
    | .fire _ :: _ => .isTrue (by simp [KeepsTs, hq])
  | .armAll enable written =>
    inferInstanceAs (Decidable (VisitKeepsTs P { s with timeReady := true } enable written))
  | .timezone enable written => inferInstanceAs (Decidable (VisitKeepsTs P s enable written))
  | .reload enable written =>
    inferInstanceAs (Decidable (ReplayKeepsTs P owner s enable written))
  | .receive _ | .sync | .trigger _ _ | .timestamp _ _ | .tick _ | .unload | .deinit
  | .reboot _ => .isTrue trivial

/-! ### Two one-shots that fire twice -/

/-- `esp_schedule` arms every trigger for `ts`. -/
def armsAt (ts : UInt32) : Enable Int := fun _ _ => some ts

/-- A weekday trigger that fires once, at eight o'clock. -/
def eightOnce : ScheduleObject Int where
  id := some ['e']
  triggers := some [some [(.d, .int 0), (.m, .int 480)]]
  action := some ['{', '}']

/-- The one-shot arrives before the clock is synced and is armed later, in RAM. It fires, the
write that removes it is lost, and the device reboots with its clock. The replay finds no `ts`. -/
def armedLate : List (Event Int) :=
  [.receive (some [some inTenSeconds]), .work true true (armsAt 0) true, .sync, .tick 1000,
    .armAll (armsAt 1010) true, .tick 1010, .trigger 0 true, .work true true (armsAt 0) false,
    .reboot true, .reload (armsAt 1020) true, .tick 1020, .trigger 0 true,
    .work true true (armsAt 0) true]

/-- The one-shot is armed and written in time. It fires, the write that removes it is lost, and
the device reboots without a synced clock. The replay drops the `ts`, and `arm_all` arms it. -/
def replayedEarly : List (Event Int) :=
  [.sync, .tick 1000, .receive (some [some eightOnce]), .work true true (armsAt 1010) true,
    .tick 1010, .trigger 0 true, .work true true (armsAt 0) false, .reboot false,
    .reload (armsAt 0) true, .sync, .armAll (armsAt 2000) true, .tick 2000, .trigger 0 true,
    .work true true (armsAt 0) true]

/-- Both one-shots run twice. -/
theorem oneShots_fire_twice :
    (∃ s, Reach (· = {}) (step degreePlatform selfOwner) (fun _ _ => True) s ∧
      exec (step degreePlatform selfOwner) {} armedLate = some s ∧ 0 ∈ s.oneShots ∧
      s.ran = [0, 0]) ∧
    ∃ s, Reach (· = {}) (step degreePlatform selfOwner) (fun _ _ => True) s ∧
      exec (step degreePlatform selfOwner) {} replayedEarly = some s ∧ 0 ∈ s.oneShots ∧
      s.ran = [0, 0] := by
  constructor
  · exact ⟨_, Reach.exec armedLate (.start rfl) (by decide +kernel) rfl, rfl,
      List.mem_cons_self, rfl⟩
  · exact ⟨_, Reach.exec replayedEarly (.start rfl) (by decide +kernel) rfl, rfl,
      List.mem_cons_self, rfl⟩

/-- With the clock synced at the receipt and at the replay, the lost write does no harm. -/
theorem armedInTime_once :
    ∃ s, Reach (· = {}) (step degreePlatform selfOwner) (KeepsTs degreePlatform selfOwner) s ∧
      0 ∈ s.oneShots ∧ s.ran = [0] ∧ s.live = [] ∧ s.AtMostOnce := by
  have hrun : Reach (· = {}) (step degreePlatform selfOwner)
      (KeepsTs degreePlatform selfOwner) _ :=
    Reach.exec [.sync, .tick 1000, .receive (some [some inTenSeconds]),
      .work true true (armsAt 1010) true, .tick 1010, .trigger 0 true,
      .work true true (armsAt 0) false, .reboot true, .reload (armsAt 1020) true]
      (.start rfl) (by decide +kernel) rfl
  exact ⟨_, hrun, List.mem_cons_self, rfl, rfl, (fires_once degreePlatform selfOwner hrun).1⟩

end RainMakerNeo.Schedules.Persistence
