import RainMakerNeo.Schedules.RoundTrip

/-!
# `RainMakerNeo.Schedules.Update`: an update with entries that cannot be built

A details payload is the whole set of schedules of a node. `buildDetails` first checks the payload
and the owner key, then releases the old handles, and then reads the payload entry by entry. Each
entry can fail on its own: no usable id, an unknown trigger, no action, or an allocation or a
create that fails. The loop skips such an entry and goes on. `updateDetailsTask` stores what the
build installed, and it stores nothing when the build returned an error.

`update_skips_failures` states what an update leaves in RAM and in flash, for every payload and
every failure. An update is not all or nothing: `failed_entry_replaces` has an entry that fails,
and the old schedules are gone from both.

`Details` has the build without failures of the allocator and of `esp_schedule`. `buildEntry_cases`
compares each entry with that build.
-/

set_option autoImplicit false

namespace RainMakerNeo.Schedules.Update

variable {Coord : Type} [Inhabited Coord]

/-! ### One entry -/

/-- What the allocator and `esp_schedule` answer while one entry is built. -/
structure EntryEnv where
  privAllocated : Bool := true
  actionAllocated : Bool := true
  /-- `esp_schedule_create` gives a handle. -/
  created : Bool := true
  /-- The handle array of the node grows. -/
  appended : Bool := true
  deriving DecidableEq, Repr

/-- How one round of the build loop ends. -/
inductive Outcome (Coord : Type) [Inhabited Coord]
  | disabled
  /-- The id is missing, empty, no string or too long. -/
  | badId
  | noName
  | badTrigger
  | cameDue
  | noPriv
  | badAction
  | notCreated
  | spent
  | notAppended
  | installed (s : Schedule Coord)
  deriving DecidableEq, Repr

/-- The entry could not be built. A disabled entry and one that cannot fire any more are left out
without a failure. -/
def Outcome.fails : Outcome Coord → Bool
  | .badId | .noName | .badTrigger | .noPriv | .badAction | .notCreated | .notAppended => true
  | .disabled | .cameDue | .spent | .installed _ => false

/-- The schedule that the node takes. -/
def Outcome.schedule : Outcome Coord → Option (Schedule Coord)
  | .installed s => some s
  | _ => none

/-- The id of an entry, when the parser can copy it. -/
def cloudIdOf (P : Platform Coord) (obj : ScheduleObject Coord) : Option (List Char) :=
  obj.id.bind fun id => if id ≠ [] ∧ id.length ≤ P.maxScheduleNameLen then some id else none

/-- One round of the build loop, with every place where it gives the entry up. -/
def buildEntry (P : Platform Coord) (clock : Clock Coord) (owner : Owner) (nodeKey : List Char)
    (env : EntryEnv) (obj : ScheduleObject Coord) : Outcome Coord :=
  if obj.enabled.getD true = false then .disabled
  else match cloudIdOf P obj with
  | none => .badId
  | some id => match P.deriveScheduleName owner.localId id with
    | none => .noName
    | some name => match parseTrigger P obj.triggers with
      | none => .badTrigger
      | some (trigger, persistedTs) =>
        let oneShot := triggerIsOneShot P trigger
        if Schedules.cameDue clock oneShot persistedTs then .cameDue
        else if env.privAllocated = false then .noPriv
        else match if env.actionAllocated then parseAction obj.action else none with
        | none => .badAction
        | some action =>
          if env.created = false then .notCreated
          else match armNew P clock
              { name, trigger, validity := parseValidity obj.validity, action, nodeKey,
                cloudId := id, oneShot } with
          | none => .spent
          | some s => if env.appended then .installed s else .notAppended

/-! ### The update -/

/-- The details text of an update. `json` is `none` where the parser does not start. -/
structure DetailsText (Coord : Type) where
  length : Nat
  json : Option (List (Option (ScheduleObject Coord)))
  deriving DecidableEq, Repr

/-- Why a build as a whole returns an error. -/
inductive BuildError
  | invalidArg
  | noOwnerKey
  | unparsable
  deriving DecidableEq, Repr

/-- What the environment answers during an update. `entry i` is for the entry at index `i`. -/
structure UpdateEnv where
  entry : Nat → EntryEnv := fun _ => {}
  /-- The two passes of the serializer succeed, with the buffer between them. -/
  serialized : Bool := true
  /-- The flash takes the text. -/
  written : Bool := true
  /-- The flash takes the version that voids the details. The code does not look at the answer. -/
  voided : Bool := true

/-- How the rounds of the build loop end. -/
def outcomes (P : Platform Coord) (clock : Clock Coord) (owner : Owner) (nodeKey : List Char)
    (env : UpdateEnv) (payload : List (Option (ScheduleObject Coord))) : List (Outcome Coord) :=
  (visitedEntries P payload).zipIdx.map fun q =>
    buildEntry P clock owner nodeKey (env.entry q.2) q.1

/-- `__build_schedule_details_for_node_locked`: the handle list afterwards, and the error. -/
def buildDetails (P : Platform Coord) (clock : Clock Coord) (owner : Owner) (env : UpdateEnv)
    (old : List (Schedule Coord)) (data : DetailsText Coord) :
    List (Schedule Coord) × Option BuildError :=
  if data.length = 0 then (old, some .invalidArg)
  else match ownerNodeKey P owner with
  | none => (old, some .noOwnerKey)
  | some nodeKey =>
    -- The old handles are released here, before the parser starts.
    match data.json with
    | none => ([], some .unparsable)
    | some payload =>
      ((outcomes P clock owner nodeKey env payload).filterMap Outcome.schedule, none)

/-- The schedules of a node: the handles, the details in flash and the version of the details. -/
structure NodeDetails (Coord : Type) [Inhabited Coord] where
  live : List (Schedule Coord) := []
  stored : Option (List (Option (ScheduleObject Coord))) := none
  schedVer : Int := -1
  deriving DecidableEq, Repr

/-- `__update_details_work_queue_task`. When the installed details cannot be stored, the version
is voided. -/
def updateDetailsTask (P : Platform Coord) (clock : Clock Coord) (owner : Owner)
    (env : UpdateEnv) (n : NodeDetails Coord) (data : DetailsText Coord) : NodeDetails Coord :=
  match buildDetails P clock owner env n.live data with
  | (live, some _) => { n with live }
  | (live, none) =>
    if env.serialized && env.written then
      { n with live, stored := some (serializeNodeSchedules P live) }
    else { n with live, schedVer := if env.voided then -1 else n.schedVer }

/-- The build fails at some point: as a whole, or at one of the entries. -/
def FailsSomewhere (P : Platform Coord) (clock : Clock Coord) (owner : Owner) (env : UpdateEnv)
    (data : DetailsText Coord) : Prop :=
  (buildDetails P clock owner env [] data).2 ≠ none ∨
    ∃ nodeKey payload, ownerNodeKey P owner = some nodeKey ∧ data.json = some payload ∧
      ∃ outcome ∈ outcomes P clock owner nodeKey env payload, outcome.fails = true

/-! ### The entries on their own -/

omit [Inhabited Coord] in
/-- The id that the build without failures reads. -/
theorem cloudIdOf_eq_some {P : Platform Coord} {obj : ScheduleObject Coord} {id : List Char} :
    cloudIdOf P obj = some id ↔
      obj.id = some id ∧ id ≠ [] ∧ id.length ≤ P.maxScheduleNameLen := by
  rw [cloudIdOf, Option.bind_eq_some_iff]
  constructor
  · rintro ⟨id', hid, hif⟩
    split at hif
    · rename_i hcond
      obtain rfl := Option.some.inj hif
      exact ⟨hid, hcond⟩
    · exact absurd hif (by nofun)
  · rintro ⟨hid, hcond⟩
    exact ⟨id, hid, if_pos hcond⟩

section Entry

variable {P : Platform Coord} {clock : Clock Coord} {owner : Owner} {nodeKey : List Char}
  {obj : ScheduleObject Coord}

/-- A disabled entry is not read. -/
theorem readSchedule_of_disabled (h : obj.enabled.getD true = false) :
    readSchedule P clock owner nodeKey obj = none := by
  simp [readSchedule, h, guard]

/-- An entry without a usable id is not read. -/
theorem readSchedule_of_badId (h : cloudIdOf P obj = none) :
    readSchedule P clock owner nodeKey obj = none := by
  cases hid : obj.id with
  | none => simp [readSchedule, hid]
  | some id =>
    have hcond : ¬(id ≠ [] ∧ id.length ≤ P.maxScheduleNameLen) := by
      intro hcond
      exact absurd (cloudIdOf_eq_some.mpr ⟨hid, hcond⟩) (by rw [h]; simp)
    simp [readSchedule, hid, guard, hcond]

/-- What is read of an enabled entry with a usable id. -/
theorem readSchedule_of_id {id : List Char} (henabled : obj.enabled.getD true ≠ false)
    (h : cloudIdOf P obj = some id) :
    readSchedule P clock owner nodeKey obj =
      (P.deriveScheduleName owner.localId id).bind fun name =>
        (parseTrigger P obj.triggers).bind fun q =>
          if Schedules.cameDue clock (triggerIsOneShot P q.1) q.2 then none
          else (parseAction obj.action).map fun action =>
            { name, trigger := q.1, validity := parseValidity obj.validity, action, nodeKey,
              cloudId := id, oneShot := triggerIsOneShot P q.1 } := by
  obtain ⟨hid, hne, hlen⟩ := cloudIdOf_eq_some.mp h
  rw [ne_eq, Bool.not_eq_false] at henabled
  -- The cases follow the order of the parser: name, trigger, due date, action.
  cases hname : P.deriveScheduleName owner.localId id with
  | none => simp [readSchedule, guard, henabled, hid, hne, hlen, hname]
  | some name =>
    cases hq : parseTrigger P obj.triggers with
    | none => simp [readSchedule, guard, henabled, hid, hq]
    | some q =>
      obtain ⟨trigger, persistedTs⟩ := q
      by_cases hdue : Schedules.cameDue clock (triggerIsOneShot P trigger) persistedTs = true
      · simp [readSchedule, guard, henabled, hid, hq, hdue]
      · rw [Bool.not_eq_true] at hdue
        simp [readSchedule, guard, henabled, hid, hne, hlen, hname, hq, hdue, Option.map_eq_bind]

end Entry

/-- An entry ends as it does when every allocation and every call is served, or one of them was
not, and the entry fails. -/
theorem buildEntry_cases (P : Platform Coord) (clock : Clock Coord) (owner : Owner)
    (nodeKey : List Char) (env : EntryEnv) (obj : ScheduleObject Coord) :
    (buildEntry P clock owner nodeKey env obj).schedule =
        buildSchedule P clock owner nodeKey obj ∨
      env ≠ {} ∧ (buildEntry P clock owner nodeKey env obj).fails = true := by
  rw [buildSchedule]
  -- Each place where the environment can refuse lies between two places where the entry itself can
  -- fail. The cases follow the loop body from the top.
  by_cases henabled : obj.enabled.getD true = false
  · rw [readSchedule_of_disabled henabled, buildEntry, if_pos henabled]
    exact .inl rfl
  cases hid : cloudIdOf P obj with
  | none =>
    rw [buildEntry, if_neg henabled, hid, readSchedule_of_badId hid]
    exact .inl rfl
  | some id =>
    rw [readSchedule_of_id henabled hid, buildEntry, if_neg henabled, hid]
    dsimp only
    cases P.deriveScheduleName owner.localId id with
    | none => exact .inl rfl
    | some name =>
      cases parseTrigger P obj.triggers with
      | none => exact .inl rfl
      | some q =>
        obtain ⟨trigger, persistedTs⟩ := q
        rw [Option.bind_some, Option.bind_some]
        dsimp only
        by_cases hdue : Schedules.cameDue clock (triggerIsOneShot P trigger) persistedTs = true
        · rw [if_pos hdue, if_pos hdue]
          exact .inl rfl
        rw [if_neg hdue, if_neg hdue]
        by_cases hpriv : env.privAllocated = false
        · rw [if_pos hpriv]
          exact .inr ⟨fun h => absurd hpriv (by rw [h]; decide), rfl⟩
        rw [if_neg hpriv]
        by_cases haction : env.actionAllocated = true
        · rw [if_pos haction]
          cases parseAction obj.action with
          | none => exact .inl rfl
          | some action =>
            dsimp only
            by_cases hcreated : env.created = false
            · rw [if_pos hcreated]
              exact .inr ⟨fun h => absurd hcreated (by rw [h]; decide), rfl⟩
            rw [if_neg hcreated, Option.map_some, Option.bind_some]
            cases armNew P clock _ with
            | none => exact .inl rfl
            | some armed =>
              dsimp only
              by_cases happended : env.appended = true
              · rw [if_pos happended]
                exact .inl rfl
              · rw [if_neg happended]
                exact .inr ⟨fun h => happended (by rw [h]), rfl⟩
        · rw [if_neg haction]
          exact .inr ⟨fun h => haction (by rw [h]), rfl⟩

/-- With every allocation and every call served, an entry is built as `Details` has it. -/
theorem buildEntry_served (P : Platform Coord) (clock : Clock Coord) (owner : Owner)
    (nodeKey : List Char) (obj : ScheduleObject Coord) :
    (buildEntry P clock owner nodeKey {} obj).schedule =
      buildSchedule P clock owner nodeKey obj := by
  rcases buildEntry_cases P clock owner nodeKey {} obj with h | ⟨h, -⟩
  · exact h
  · exact absurd rfl h

/-- A failed entry gives no schedule. -/
theorem Outcome.schedule_of_fails {o : Outcome Coord} (h : o.fails = true) : o.schedule = none := by
  cases o with
  | installed s => exact absurd h Bool.false_ne_true
  | _ => rfl

/-! ### The whole update -/

/-- Without failures of the allocator and of `esp_schedule`, the build is the one of `Details`. -/
theorem buildDetails_served (P : Platform Coord) (clock : Clock Coord) (owner : Owner)
    (old : List (Schedule Coord)) (data : DetailsText Coord) (hlength : data.length ≠ 0) :
    (buildDetails P clock owner {} old data).1 =
        (buildScheduleDetails P clock owner old data.json).1 ∧
      ((buildDetails P clock owner {} old data).2 = none ↔
        (buildScheduleDetails P clock owner old data.json).2 = true) := by
  rw [buildDetails, if_neg hlength, buildScheduleDetails]
  cases ownerNodeKey P owner with
  | none => exact ⟨rfl, by simp⟩
  | some nodeKey =>
    cases data.json with
    | none => exact ⟨rfl, by simp⟩
    | some payload =>
      refine ⟨?_, by simp⟩
      show (outcomes P clock owner nodeKey {} payload).filterMap Outcome.schedule =
        (visitedEntries P payload).filterMap (buildSchedule P clock owner nodeKey)
      have hall : (fun q : ScheduleObject Coord × Nat =>
          (buildEntry P clock owner nodeKey {} q.1).schedule) =
            buildSchedule P clock owner nodeKey ∘ Prod.fst :=
        funext fun q => buildEntry_served P clock owner nodeKey q.1
      rw [outcomes, List.filterMap_map]
      show (visitedEntries P payload).zipIdx.filterMap (fun q =>
        (buildEntry P clock owner nodeKey {} q.1).schedule) = _
      -- With no failures the index of an entry no longer matters.
      rw [hall, ← List.filterMap_map, List.zipIdx_map_fst]

/-- The entries that do not fail, in the order of the payload. -/
def usableEntries (P : Platform Coord) (clock : Clock Coord) (owner : Owner)
    (nodeKey : List Char) (env : UpdateEnv) (payload : List (Option (ScheduleObject Coord))) :
    List (ScheduleObject Coord) :=
  ((visitedEntries P payload).zipIdx.filter fun q =>
    !(buildEntry P clock owner nodeKey (env.entry q.2) q.1).fails).map Prod.fst

/-- The build loop builds the usable entries as if the others were not in the payload. -/
theorem outcomes_schedules (P : Platform Coord) (clock : Clock Coord) (owner : Owner)
    (nodeKey : List Char) (env : UpdateEnv) (payload : List (Option (ScheduleObject Coord))) :
    (outcomes P clock owner nodeKey env payload).filterMap Outcome.schedule =
      (usableEntries P clock owner nodeKey env payload).filterMap
        (buildSchedule P clock owner nodeKey) := by
  rw [outcomes, usableEntries, List.filterMap_map, List.filterMap_map, List.filterMap_filter]
  refine List.filterMap_congr ?_
  intro q hq
  show (buildEntry P clock owner nodeKey (env.entry q.2) q.1).schedule = _
  by_cases hfails : (buildEntry P clock owner nodeKey (env.entry q.2) q.1).fails = true
  · rw [Outcome.schedule_of_fails hfails, hfails]
    rfl
  -- An entry that does not fail is built as if everything had been served.
  · rcases buildEntry_cases P clock owner nodeKey (env.entry q.2) q.1 with h | ⟨-, h⟩
    · rw [Bool.not_eq_true] at hfails
      rw [h, hfails]
      rfl
    · exact absurd h hfails

/-- What an update leaves. A build that returns an error leaves the details in flash and their
version, and before the release of the old handles it leaves the handles too. Otherwise the node
has the schedules of the usable entries, and the flash has them too or its version is voided, where
it takes that. -/
structure SkipsFailures (P : Platform Coord) (clock : Clock Coord) (owner : Owner)
    (env : UpdateEnv) (n : NodeDetails Coord) (data : DetailsText Coord) : Prop where
  error : ∀ e, (buildDetails P clock owner env n.live data).2 = some e →
    (updateDetailsTask P clock owner env n data).stored = n.stored ∧
      (updateDetailsTask P clock owner env n data).schedVer = n.schedVer ∧
      (e ≠ .unparsable → updateDetailsTask P clock owner env n data = n)
  ok : (buildDetails P clock owner env n.live data).2 = none →
    ∃ nodeKey payload, ownerNodeKey P owner = some nodeKey ∧ data.json = some payload ∧
      (updateDetailsTask P clock owner env n data).live =
        (usableEntries P clock owner nodeKey env payload).filterMap
          (buildSchedule P clock owner nodeKey)
  stored : (buildDetails P clock owner env n.live data).2 = none →
    (updateDetailsTask P clock owner env n data).stored =
        some (serializeNodeSchedules P (updateDetailsTask P clock owner env n data).live) ∧
      (updateDetailsTask P clock owner env n data).schedVer = n.schedVer ∨
    (updateDetailsTask P clock owner env n data).stored = n.stored ∧
      (updateDetailsTask P clock owner env n data).schedVer =
        if env.voided then -1 else n.schedVer

/-- For every payload and every failure, an entry that cannot be built is left out alone, and a
build that returns an error stores nothing. -/
theorem update_skips_failures (P : Platform Coord) (clock : Clock Coord) (owner : Owner)
    (env : UpdateEnv) (n : NodeDetails Coord) (data : DetailsText Coord) :
    SkipsFailures P clock owner env n data where
  error := by
    intro e he
    have hbuild : ∀ live, buildDetails P clock owner env n.live data = (live, some e) →
        updateDetailsTask P clock owner env n data = { n with live } := by
      intro live h
      rw [updateDetailsTask, h]
    have htask := hbuild _ (Prod.ext rfl he)
    refine ⟨by rw [htask], by rw [htask], ?_⟩
    intro hparsed
    -- The two early returns come before the release.
    have hold : (buildDetails P clock owner env n.live data).1 = n.live := by
      rw [buildDetails] at he ⊢
      split
      · rfl
      · rename_i hlength
        rw [if_neg hlength] at he
        cases hkey : ownerNodeKey P owner with
        | none => rfl
        | some nodeKey =>
          rw [hkey] at he
          cases hjson : data.json with
          | none =>
            rw [hjson] at he
            exact absurd (Option.some.inj he).symm hparsed
          | some payload =>
            rw [hjson] at he
            exact absurd he (by nofun)
    exact htask.trans (congrArg (fun live => { n with live }) hold)
  ok := by
    intro hnone
    -- Whether the flash takes the text or not, the handles are those of the build.
    have hlive : (updateDetailsTask P clock owner env n data).live =
        (buildDetails P clock owner env n.live data).1 := by
      rw [updateDetailsTask, show buildDetails P clock owner env n.live data =
        (_, none) from Prod.ext rfl hnone]
      dsimp only
      split <;> rfl
    rw [hlive]
    rw [buildDetails] at hnone ⊢
    by_cases hlength : data.length = 0
    · rw [if_pos hlength] at hnone
      exact absurd hnone (by nofun)
    rw [if_neg hlength] at hnone ⊢
    cases hkey : ownerNodeKey P owner with
    | none =>
      rw [hkey] at hnone
      exact absurd hnone (by nofun)
    | some nodeKey =>
      rw [hkey] at hnone
      cases hjson : data.json with
      | none =>
        rw [hjson] at hnone
        exact absurd hnone (by nofun)
      | some payload =>
        exact ⟨nodeKey, payload, rfl, rfl,
          outcomes_schedules P clock owner nodeKey env payload⟩
  stored := by
    intro hnone
    rw [updateDetailsTask, show buildDetails P clock owner env n.live data =
      (_, none) from Prod.ext rfl hnone]
    dsimp only
    split
    · exact .inl ⟨rfl, rfl⟩
    · exact .inr ⟨rfl, rfl⟩

/-! ### An update with a bad entry -/

/-- The node after the daily schedule was installed and stored. -/
def withDaily : NodeDetails Int :=
  updateDetailsTask degreePlatform (clockArming 1000 2000) selfOwner {} {}
    { length := 2, json := some [some daily] }

/-- A schedule for Mondays, and one with a trigger that has no known arm. -/
def mondayAndUnknown : DetailsText Int where
  length := 2
  json := some [
    some { id := some ['m'], triggers := some [some [(.d, .int 1), (.m, .int 480)]],
           action := some ['{', '}'] },
    some { id := some ['u'], triggers := some [some []], action := some ['{', '}'] }]

/-- The entry with the unknown trigger is left out, and the other one is installed and stored. -/
theorem update_skips_failures_unknown :
    (updateDetailsTask degreePlatform (clockArming 1000 2000) selfOwner {} withDaily
        mondayAndUnknown).live.map Schedule.cloudId = [['m']] ∧
      (∃ nodeKey payload, ownerNodeKey degreePlatform selfOwner = some nodeKey ∧
        mondayAndUnknown.json = some payload ∧
        (updateDetailsTask degreePlatform (clockArming 1000 2000) selfOwner {} withDaily
          mondayAndUnknown).live =
            (usableEntries degreePlatform (clockArming 1000 2000) selfOwner nodeKey {}
              payload).filterMap
                (buildSchedule degreePlatform (clockArming 1000 2000) selfOwner nodeKey)) := by
  refine ⟨by decide, ?_⟩
  exact (update_skips_failures degreePlatform (clockArming 1000 2000) selfOwner {} withDaily
    mondayAndUnknown).ok (by decide)

/-- A failure does not keep the old schedules: with one entry that fails, the daily schedule is
gone from RAM and from flash. -/
theorem failed_entry_replaces :
    ¬ ∀ (env : UpdateEnv) (n : NodeDetails Int) (data : DetailsText Int),
      FailsSomewhere degreePlatform (clockArming 1000 2000) selfOwner env data →
        (updateDetailsTask degreePlatform (clockArming 1000 2000) selfOwner env n data).live =
            n.live ∧
          (updateDetailsTask degreePlatform (clockArming 1000 2000) selfOwner env n data).stored =
            n.stored := by
  intro h
  have hfails : FailsSomewhere degreePlatform (clockArming 1000 2000) selfOwner {}
      mondayAndUnknown :=
    .inr ⟨[], _, rfl, rfl, .badTrigger, by decide, rfl⟩
  exact absurd (h {} withDaily mondayAndUnknown hfails).1 (by decide)

end RainMakerNeo.Schedules.Update
