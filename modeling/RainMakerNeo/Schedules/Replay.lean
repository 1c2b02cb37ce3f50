import RainMakerNeo.Schedules.Update

/-!
# `RainMakerNeo.Schedules.Replay`: a replay that writes nothing

At boot a node builds its schedules from the details in flash, and it writes the details again when
they came out different. A boot that changes nothing must not cost a flash write, so the details
that the serializer writes must come out the same. `replays_stable` states when they do, for any
number of replays.

A replay normalises three kinds of entry, and only the second replay is stable for them. A one-shot
that was stored before it was armed gets its `ts` (`replay_stamps` is such a node). A solar trigger
without a day arm becomes an every-day trigger. A validity window whose ends are both stored as `0`
is left out.

Two things come from outside the repository. `esp_schedule` arms a one-shot with a stored `ts` for
that instant, and a float that is printed, read and printed again has the same digits.
-/

set_option autoImplicit false

namespace RainMakerNeo.Schedules.Update

open RainMakerNeo.Lib (FitsInt toInt64_toInt32_iff)

variable {Coord : Type} [Inhabited Coord]

/-! ### The replay -/

/-- One replay: the clock at that boot, and what the environment answers. -/
structure Replay (Coord : Type) [Inhabited Coord] where
  clock : Clock Coord
  env : UpdateEnv := {}

/-- The stored details as a text. It has the two brackets at least. -/
def storedText (data : List (Option (ScheduleObject Coord))) : DetailsText Coord where
  length := data.length + 2
  json := some data

/-- `__reload_for_node`. The second component says whether it wrote to flash. -/
def reloadForNode [DecidableEq Coord] (P : Platform Coord) (owner : Owner) (r : Replay Coord)
    (n : NodeDetails Coord) : NodeDetails Coord × Bool :=
  match n.stored with
  | none => (n, false)
  | some data => match buildDetails P r.clock owner r.env n.live (storedText data) with
    | (live, some _) =>
      ({ n with live, schedVer := if r.env.voided then -1 else n.schedVer }, false)
    | (live, none) =>
      let rebuilt := serializeNodeSchedules P live
      if r.env.serialized && decide (rebuilt ≠ data) then
        ({ n with live, stored := if r.env.written then some rebuilt else n.stored }, true)
      else ({ n with live }, false)

/-- Replays one after the other. The second component counts the flash writes. -/
def replays [DecidableEq Coord] (P : Platform Coord) (owner : Owner) (n : NodeDetails Coord) :
    List (Replay Coord) → NodeDetails Coord × Nat
  | [] => (n, 0)
  | r :: rs =>
    let t := reloadForNode P owner r n
    let rest := replays P owner t.1 rs
    (rest.1, rest.2 + if t.2 then 1 else 0)

/-! ### What is replayed -/

/-- The schedules of a node as the serializer finds them: installed by some build, no more than
the limit, with the instants that timestamp callbacks have set, at an owner with a routing token. -/
structure Serializable (P : Platform Coord) (owner : Owner) (live : List (Schedule Coord)) :
    Prop where
  installed : ∀ s ∈ live, Installed P owner s
  stamped : ∀ s ∈ live, ∃ ts : UInt32, s.nextFireTs = Int64.ofNat ts.toNat
  length : live.length ≤ P.maxSchedulesPerNode
  key : (ownerNodeKey P owner).isSome = true

variable {P : Platform Coord} {clock : Clock Coord} {s : Schedule Coord} {owner : Owner}
  {live : List (Schedule Coord)}

variable {s' : Schedule Coord}

/-- A new schedule is armed for an instant that a callback reported, or for none. -/
theorem armNew_stamped (hs : s.nextFireTs = 0) (h : armNew P clock s = some s') :
    ∃ ts : UInt32, s'.nextFireTs = Int64.ofNat ts.toNat := by
  rw [armNew, armOrDefer] at h
  -- A deferred schedule keeps the instant 0 it was read with; an armed one has the callback's.
  by_cases hdefer : (P.decoupledFlow && !clock.timeReady && !clock.synced) = true
  · rw [if_pos hdefer] at h
    obtain rfl := Option.some.inj h
    exact ⟨0, hs⟩
  · rw [if_neg hdefer] at h
    cases henable : clock.enable s.trigger s.validity with
    | none =>
      rw [henable] at h
      dsimp only at h
      split at h
      · exact absurd h (by nofun)
      · obtain rfl := Option.some.inj h
        exact ⟨0, rfl⟩
    | some ts =>
      rw [henable] at h
      dsimp only at h
      split at h
      · exact absurd h (by nofun)
      · obtain rfl := Option.some.inj h
        exact ⟨ts, rfl⟩

/-- A schedule that was read is not armed yet. -/
theorem readSchedule_nextFireTs {nodeKey : List Char} {obj : ScheduleObject Coord}
    (h : readSchedule P clock owner nodeKey obj = some s) : s.nextFireTs = 0 := by
  simp only [readSchedule, Option.bind_eq_bind, Option.bind_eq_some_iff,
    Option.guard_eq_some'] at h
  obtain ⟨-, -, id, -, -, -, name, -, q, -, -, -, action, -, h⟩ := h
  rw [← Option.some.inj h]

/-- What a build installs can be serialized. So the texts that updates and replays write are those
of such schedules. -/
theorem Serializable.of_buildDetails {env : UpdateEnv} {old : List (Schedule Coord)}
    {data : DetailsText Coord} (h : buildDetails P clock owner env old data = (live, none)) :
    Serializable P owner live := by
  rw [buildDetails] at h
  split at h
  · exact absurd h (by simp)
  · cases hkey : ownerNodeKey P owner with
    | none =>
      rw [hkey] at h
      exact absurd h (by simp)
    | some nodeKey =>
      rw [hkey] at h
      cases hjson : data.json with
      | none =>
        rw [hjson] at h
        exact absurd h (by simp)
      | some payload =>
        rw [hjson] at h
        obtain rfl := congrArg Prod.fst h
        dsimp only
        rw [outcomes_schedules]
        -- The usable entries are built one by one, so every schedule comes from some entry.
        have hfrom : ∀ s ∈ (usableEntries P clock owner nodeKey env payload).filterMap
            (buildSchedule P clock owner nodeKey), ∃ obj,
              buildSchedule P clock owner nodeKey obj = some s := by
          intro s hs
          obtain ⟨obj, -, hobj⟩ := List.mem_filterMap.mp hs
          exact ⟨obj, hobj⟩
        refine ⟨?_, ?_, ?_, by rw [hkey]; rfl⟩
        · intro s hs
          obtain ⟨obj, hobj⟩ := hfrom s hs
          exact installed_of_buildSchedule hkey hobj
        · intro s hs
          obtain ⟨obj, hobj⟩ := hfrom s hs
          obtain ⟨r, hr, harm⟩ := Option.bind_eq_some_iff.mp hobj
          exact armNew_stamped (readSchedule_nextFireTs hr) harm
        -- The loop visits no more entries than the node may have schedules.
        · refine (List.length_filterMap_le _ _).trans ?_
          rw [usableEntries, List.length_map]
          refine (List.length_filter_le _ _).trans ?_
          rw [List.length_zipIdx, visitedEntries, List.length_take]
          exact Nat.min_le_left _ _

/-- The entry that is written for a schedule comes out of a replay as it is: a one-shot carries a
positive `ts`, a solar trigger carries a day arm, and a validity window carries an end. -/
structure Recorded (s : Schedule Coord) : Prop where
  ts : s.oneShot = true → ∃ ts, storedTs s = some ts ∧ 0 < ts
  dayArm : ¬s.trigger.LacksDayArm
  window : restoredValidity s.validity = {} → s.validity = {}

/-- A replay with a synchronised clock that prunes nothing, and in which `esp_schedule` arms the
one-shots with a stored `ts` for that instant. -/
structure Undisturbed (P : Platform Coord) (owner : Owner) (live : List (Schedule Coord))
    (r : Replay Coord) : Prop where
  synced : r.clock.synced = true
  kept : (buildDetails P r.clock owner r.env []
    (storedText (serializeNodeSchedules P live))).1.length = live.length
  rearms : ∀ s ∈ live, ∀ ts, storedTs s = some ts → 0 < ts →
    ∀ u, r.clock.enable (restoredTrigger P s) (restoredValidity s.validity) = some u →
      Int64.ofNat u.toNat = ts

/-! ### One schedule -/

/-- With a synced clock, a new schedule that is kept is armed for an instant. -/
theorem armNew_eq_some (hsynced : clock.synced = true) (h : armNew P clock s = some s') :
    ∃ u : UInt32, u ≠ 0 ∧ clock.enable s.trigger s.validity = some u ∧
      s' = { s with nextFireTs := Int64.ofNat u.toNat } := by
  have harms : ¬(P.decoupledFlow && !clock.timeReady && !clock.synced) = true := by
    simp [hsynced]
  rw [armNew, armOrDefer, if_neg harms] at h
  cases henable : clock.enable s.trigger s.validity with
  | none =>
    rw [henable] at h
    simp [scheduleIsSpent, hsynced] at h
  | some u =>
    rw [henable] at h
    dsimp only at h
    split at h
    · exact absurd h (by simp)
    · rename_i hspent
      obtain rfl := Option.some.inj h
      refine ⟨u, ?_, rfl, rfl⟩
      intro hzero
      simp [scheduleIsSpent, hsynced, hzero] at hspent

omit [Inhabited Coord] in
/-- The window that is read back is written as before. -/
theorem emitValidity_restored {v : Validity} (h : restoredValidity v = {} → v = {}) :
    (emitValidity (restoredValidity v) : Option (Object Coord)) = emitValidity v := by
  have hcast : ∀ x : Int64, x.toInt32.toInt64.toInt32 = x.toInt32 := fun x => by simp
  rw [emitValidity, emitValidity]
  by_cases hv : v.startTime ≠ 0 ∨ v.endTime ≠ 0
  -- The ends are stored as `int`. Both may become 0 by the cast, and then the window is dropped.
  · have hr : (restoredValidity v).startTime ≠ 0 ∨ (restoredValidity v).endTime ≠ 0 := by
      by_contra hnone
      rw [not_or, not_not, not_not] at hnone
      have hempty : restoredValidity v = {} := (Validity.mk.injEq _ _ _ _).mpr hnone
      rw [h hempty] at hv
      simp at hv
    rw [if_pos hv, if_pos hr, restoredValidity, hcast, hcast]
  · have hr : ¬((restoredValidity v).startTime ≠ 0 ∨ (restoredValidity v).endTime ≠ 0) := by
      rw [not_or, not_not, not_not] at hv ⊢
      rw [restoredValidity, hv.1, hv.2]
      decide
    rw [if_neg hv, if_neg hr]

/-- The trigger that is read back is written as before. -/
theorem emitTriggerType_restored (hprint : ∀ c, P.printFloat (reread P c) = P.printFloat c)
    (harm : ¬s.trigger.LacksDayArm) :
    emitTriggerType P (restoredTrigger P s) = emitTriggerType P s.trigger := by
  rw [restoredTrigger, if_neg harm, replayTrigger]
  cases htype : s.trigger.type <;>
    simp [emitTriggerType, htype, setFloat, hprint, minutesSinceMidnight]

/-- The entry of a recorded schedule comes out of a replay as it is. -/
theorem emitSchedule_rebuilt (hprint : ∀ c, P.printFloat (reread P c) = P.printFloat c)
    (hinst : Installed P owner s) (hrec : Recorded s) {ts : Int64}
    (hts : s.oneShot = true → storedTs s = some ts) :
    emitSchedule P { restored P s with nextFireTs := ts } = emitSchedule P s := by
  -- Only a trigger without a day arm would come back with another arm.
  have hone : (restored P s).oneShot = s.oneShot := by
    rw [restored, restoredTrigger, if_neg hrec.dayArm, triggerIsOneShot_replayTrigger,
      hinst.oneShot]
  have hemitTs : emitTs { restored P s with nextFireTs := ts } = emitTs s := by
    cases hos : s.oneShot with
    | false => simp [emitTs, hone, hos]
    | true =>
      -- The instant that is read back is the stored one, so its cast to `int` is the same.
      obtain ⟨ts₀, hstored, hpos⟩ := hrec.ts hos
      obtain rfl : ts₀ = ts := Option.some.inj (hstored.symm.trans (hts hos))
      have hne : ts₀ ≠ 0 := by
        rintro rfl
        exact absurd hpos Int64.lt_irrefl
      by_cases hzero : s.nextFireTs = 0
      · simp [storedTs, emitTs, hos, hzero] at hstored
      · have hcast : ts₀ = s.nextFireTs.toInt32.toInt64 := by
          simp [storedTs, emitTs, hos, hzero] at hstored
          exact hstored.symm
        simp [emitTs, hone, hos, hzero, hne]
        simp [hcast]
  rw [emitSchedule, emitSchedule, hemitTs]
  show ScheduleObject.mk (some true) (some s.cloudId)
      (some [some (emitTriggerType P (restoredTrigger P s) ++ emitTs s)])
      (emitValidity (restoredValidity s.validity)) _ = _
  rw [emitTriggerType_restored hprint hrec.dayArm, emitValidity_restored hrec.window]
  rfl

/-- A schedule that an undisturbed replay builds again is written as before. -/
theorem emitSchedule_buildSchedule (hprint : ∀ c, P.printFloat (reread P c) = P.printFloat c)
    (hinst : Installed P owner s) (hrec : Recorded s) (hsynced : clock.synced = true)
    (hrearms : ∀ ts, storedTs s = some ts → 0 < ts →
      ∀ u, clock.enable (restoredTrigger P s) (restoredValidity s.validity) = some u →
        Int64.ofNat u.toNat = ts)
    (hbuild : buildSchedule P clock owner s.nodeKey (emitSchedule P s) = some s') :
    emitSchedule P s' = emitSchedule P s := by
  rw [buildSchedule_emitSchedule P clock hinst] at hbuild
  split at hbuild
  · exact absurd hbuild (by nofun)
  · obtain ⟨u, -, henable, rfl⟩ := armNew_eq_some hsynced hbuild
    refine emitSchedule_rebuilt hprint hinst hrec ?_
    intro hos
    obtain ⟨ts, hstored, hpos⟩ := hrec.ts hos
    rw [hstored, hrearms ts hstored hpos u henable]

/-! ### The whole text -/

/-- A filter map that keeps every element and only changes what `g` does not see. -/
theorem map_filterMap_of_forall {α β γ : Type*} {f : α → Option β} {g : β → γ} {h : α → γ}
    {l : List α} (hl : ∀ a ∈ l, ∃ b, f a = some b ∧ g b = h a) :
    (l.filterMap f).map g = l.map h := by
  induction l with
  | nil => rfl
  | cons a l ih =>
    obtain ⟨b, hb, hg⟩ := hl a List.mem_cons_self
    rw [List.filterMap_cons_some hb, List.map_cons, List.map_cons, hg,
      ih fun x hx => hl x (List.mem_cons_of_mem a hx)]

/-- The serializer skips no installed schedule. -/
theorem serializeNodeSchedules_installed (hinst : ∀ s ∈ live, Installed P owner s) :
    serializeNodeSchedules P live = (live.map (emitSchedule P)).map some := by
  rw [serializeNodeSchedules, List.filter_eq_self.mpr, List.map_map]
  · rfl
  intro s hs
  exact decide_eq_true (hinst s hs).cloudId.1

/-- An undisturbed replay of recorded schedules writes the same text. -/
theorem serialize_rebuilt (hprint : ∀ c, P.printFloat (reread P c) = P.printFloat c)
    (hlive : Serializable P owner live) (hrec : ∀ s ∈ live, Recorded s) {r : Replay Coord}
    (hr : Undisturbed P owner live r) (old : List (Schedule Coord)) :
    ∃ rebuilt, buildDetails P r.clock owner r.env old
        (storedText (serializeNodeSchedules P live)) = (rebuilt, none) ∧
      serializeNodeSchedules P rebuilt = serializeNodeSchedules P live := by
  obtain ⟨nodeKey, hkey⟩ := Option.isSome_iff_exists.mp hlive.key
  have hvisited := visitedEntries_serialize hlive.installed hlive.length
  have hbuild : ∀ old, buildDetails P r.clock owner r.env old
      (storedText (serializeNodeSchedules P live)) =
        ((outcomes P r.clock owner nodeKey r.env (serializeNodeSchedules P live)).filterMap
          Outcome.schedule, none) := by
    intro old
    have hlength : (storedText (serializeNodeSchedules P live)).length ≠ 0 := Nat.succ_ne_zero _
    rw [buildDetails, if_neg hlength, hkey]
    rfl
  refine ⟨_, hbuild old, ?_⟩
  have hkept := hr.kept
  rw [hbuild] at hkept
  rw [outcomes, hvisited, List.filterMap_map] at hkept ⊢
  -- The replay prunes nothing, so every entry is built, and it did not fail on the way.
  have hall : ∀ q ∈ (live.map (emitSchedule P)).zipIdx, ∃ s ∈ live, q.1 = emitSchedule P s ∧
      ∃ s', (Outcome.schedule ∘ fun q : ScheduleObject Coord × Nat =>
        buildEntry P r.clock owner nodeKey (r.env.entry q.2) q.1) q = some s' ∧
          buildSchedule P r.clock owner nodeKey q.1 = some s' := by
    intro q hq
    obtain ⟨s, hs, hemit⟩ := List.mem_map.mp (List.fst_mem_of_mem_zipIdx hq)
    have hsome := List.filterMap_length_eq_length.mp (by
      rw [hkept, List.length_zipIdx, List.length_map]) q hq
    obtain ⟨s', hs'⟩ := Option.isSome_iff_exists.mp hsome
    refine ⟨s, hs, hemit.symm, s', hs', ?_⟩
    rcases buildEntry_cases P r.clock owner nodeKey (r.env.entry q.2) q.1 with h | ⟨-, hfails⟩
    · exact h.symm.trans hs'
    · exact absurd ((Outcome.schedule_of_fails hfails).symm.trans hs') (by simp)
  have hinst : ∀ s' ∈ (live.map (emitSchedule P)).zipIdx.filterMap (Outcome.schedule ∘
      fun q : ScheduleObject Coord × Nat =>
        buildEntry P r.clock owner nodeKey (r.env.entry q.2) q.1), Installed P owner s' := by
    intro s' hs'
    obtain ⟨q, hq, hsome⟩ := List.mem_filterMap.mp hs'
    obtain ⟨s, -, -, s'', hs'', hsched⟩ := hall q hq
    obtain rfl := Option.some.inj (hs''.symm.trans hsome)
    exact installed_of_buildSchedule hkey hsched
  rw [serializeNodeSchedules_installed hinst, serializeNodeSchedules_installed hlive.installed]
  have hmap := map_filterMap_of_forall (l := (live.map (emitSchedule P)).zipIdx)
    (f := Outcome.schedule ∘ fun q : ScheduleObject Coord × Nat =>
      buildEntry P r.clock owner nodeKey (r.env.entry q.2) q.1)
    (g := emitSchedule P) (h := Prod.fst) ?_
  · rw [List.zipIdx_map_fst] at hmap
    rw [hmap]
  · intro q hq
    obtain ⟨s, hs, hemit, s', hs', hsched⟩ := hall q hq
    refine ⟨s', hs', ?_⟩
    -- The schedules of the node were built under the key that the owner still has.
    have hnode : s.nodeKey = nodeKey :=
      Option.some.inj ((hlive.installed s hs).nodeKey.symm.trans hkey)
    rw [hemit] at hsched ⊢
    rw [← hnode] at hsched
    exact emitSchedule_buildSchedule hprint (hlive.installed s hs) (hrec s hs) hr.synced
      (hr.rearms s hs) hsched

/-- An undisturbed replay of recorded schedules leaves the stored details and writes nothing. -/
theorem reloadForNode_stable [DecidableEq Coord]
    (hprint : ∀ c, P.printFloat (reread P c) = P.printFloat c) (hlive : Serializable P owner live)
    (hrec : ∀ s ∈ live, Recorded s) {r : Replay Coord} (hr : Undisturbed P owner live r)
    {n : NodeDetails Coord} (hn : n.stored = some (serializeNodeSchedules P live)) :
    (reloadForNode P owner r n).1.stored = n.stored ∧ (reloadForNode P owner r n).2 = false := by
  obtain ⟨rebuilt, hbuild, hsame⟩ := serialize_rebuilt hprint hlive hrec hr n.live
  have hunchanged : ¬(r.env.serialized && decide (serializeNodeSchedules P rebuilt ≠
      serializeNodeSchedules P live)) = true := by
    simp [hsame]
  rw [reloadForNode, hn]
  dsimp only
  rw [hbuild]
  dsimp only
  rw [if_neg hunchanged]
  exact ⟨rfl, rfl⟩

/-- **The replays change nothing.** Take the details text of any live schedules whose entries are
recorded. Any number of undisturbed replays leaves the text in flash as it is and writes nothing. -/
theorem replays_stable [DecidableEq Coord] (P : Platform Coord)
    (hprint : ∀ c, P.printFloat (reread P c) = P.printFloat c) (owner : Owner)
    (live : List (Schedule Coord)) (hlive : Serializable P owner live)
    (hrec : ∀ s ∈ live, Recorded s) (rs : List (Replay Coord))
    (hrs : ∀ r ∈ rs, Undisturbed P owner live r) (n : NodeDetails Coord)
    (hn : n.stored = some (serializeNodeSchedules P live)) :
    (replays P owner n rs).1.stored = n.stored ∧ (replays P owner n rs).2 = 0 := by
  -- The text in flash is the invariant: each replay leaves it, whatever it does to the handles.
  induction rs generalizing n with
  | nil => exact ⟨rfl, rfl⟩
  | cons r rs ih =>
    obtain ⟨hstored, hquiet⟩ :=
      reloadForNode_stable hprint hlive hrec (hrs r List.mem_cons_self) hn
    obtain ⟨hrest, hcount⟩ := ih (fun r' hr' => hrs r' (List.mem_cons_of_mem r hr'))
      (reloadForNode P owner r n).1 (hstored.trans hn)
    rw [replays]
    dsimp only
    rw [hquiet, hcount]
    exact ⟨hrest.trans hstored, rfl⟩

/-! ### A one-shot before and after it is armed -/

/-- A schedule that fires once at eight o'clock. -/
def onceAtEight : DetailsText Int where
  length := 2
  json := some [some { id := some ['o'], triggers := some [some [(.d, .int 0), (.m, .int 480)]],
                       action := some ['{', '}'] }]

/-- A clock that is not synced yet. -/
def unsyncedClock : Clock Int where
  synced := false
  timeReady := false
  now := 0
  enable _ _ := none

/-- What an install leaves live. -/
def installedAt (clock : Clock Int) : List (Schedule Int) :=
  (buildDetails degreePlatform clock selfOwner {} [] onceAtEight).1

theorem serializable_installedAt (clock : Clock Int) :
    Serializable degreePlatform selfOwner (installedAt clock) := by
  have hbuild : buildDetails degreePlatform clock selfOwner {} [] onceAtEight =
    (installedAt clock, none) := rfl
  exact .of_buildDetails hbuild

/-- An armed one-shot survives two boots without a flash write. -/
theorem replays_stable_armed :
    (replays degreePlatform selfOwner
        { stored := some (serializeNodeSchedules degreePlatform
            (installedAt (clockArming 1000 2000))) }
        [⟨clockArming 1500 2000, {}⟩, ⟨clockArming 1600 2000, {}⟩]).2 = 0 := by
  refine (replays_stable degreePlatform (fun _ => rfl) selfOwner _
    (serializable_installedAt (clockArming 1000 2000)) ?_ _ ?_ _ rfl).2
  · intro s hs
    obtain rfl := List.mem_singleton.mp hs
    exact ⟨fun _ => ⟨2000, by decide, by decide⟩, by decide, fun _ => rfl⟩
  · have hboot : ∀ now, now = 1500 ∨ now = 1600 →
        Undisturbed degreePlatform selfOwner (installedAt (clockArming 1000 2000))
          ⟨clockArming now 2000, {}⟩ := by
      intro now hnow
      refine ⟨rfl, ?_, ?_⟩
      · rcases hnow with rfl | rfl
        · decide
        · decide
      · intro s hs ts hts _ u hu
        obtain rfl := List.mem_singleton.mp hs
        obtain rfl : (2000 : UInt32) = u := Option.some.inj hu
        obtain rfl : (2000 : Int64) = ts := Option.some.inj hts
        rfl
    intro r hr
    rcases List.mem_cons.mp hr with rfl | hr
    · exact hboot 1500 (.inl rfl)
    · obtain rfl := List.mem_singleton.mp hr
      exact hboot 1600 (.inr rfl)

/-- A one-shot that was stored before it was armed gets its `ts` from the replay, which writes. -/
theorem replay_stamps :
    ¬ ∀ (owner : Owner) (live : List (Schedule Int)) (r : Replay Int) (n : NodeDetails Int),
      Serializable degreePlatform owner live → Undisturbed degreePlatform owner live r →
        n.stored = some (serializeNodeSchedules degreePlatform live) →
          (reloadForNode degreePlatform owner r n).1.stored = n.stored ∧
            (reloadForNode degreePlatform owner r n).2 = false := by
  intro h
  have hr : Undisturbed degreePlatform selfOwner (installedAt unsyncedClock)
      ⟨clockArming 1000 2000, {}⟩ := by
    refine ⟨rfl, by decide, ?_⟩
    intro s hs ts hts
    obtain rfl := List.mem_singleton.mp hs
    exact absurd hts (by nofun)
  have hquiet := (h selfOwner (installedAt unsyncedClock) ⟨clockArming 1000 2000, {}⟩
    { stored := some (serializeNodeSchedules degreePlatform (installedAt unsyncedClock)) }
    (serializable_installedAt unsyncedClock) hr rfl).2
  exact absurd hquiet (by decide)

end RainMakerNeo.Schedules.Update
