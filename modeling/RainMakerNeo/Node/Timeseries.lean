import RainMakerNeo.State.ReportDelivery

/-!
# `RainMakerNeo.Node.Timeseries`: from a marked update to a published point

A report takes the time-series parameters out of the pending list of a node and pushes a point for
each of them into the timeseries queue. The publish task peeks at the queue, publishes the point at
its front and removes it. The publish timer queues the task.

The points are pushed between the two shadow publishes and the reset of the list, whether the
publishes succeed or not. A list whose publish has failed is reported again, and pushes its points
again. A timer that expires while the runtime gate is closed is not armed again when the gate opens
(`duplicated_and_stalled`). `handedOver_of_careful` says what the steps have to meet for each entry
to give one point, with its own value and time, and for the queue never to stall.

The report task and the publish task both run on the work queue, one after the other. The publish
task is two steps, with a change of the gate or an expiry possible between them. An update is two
steps too, the write of the value and the mark.
-/

set_option autoImplicit false

namespace RainMakerNeo.Node.Timeseries

open RainMakerNeo.Lib RainMakerNeo.State

/-! ### The model -/

/-- The flags of the parameters and the constants. -/
structure Config where
  /-- `PROP_FLAG_TIME_SERIES`. -/
  timeSeries : UpdateId → Bool
  /-- `PROP_FLAG_TS_CUMULATIVE`. -/
  cumulative : UpdateId → Bool
  /-- `OSAL_TIMESYNC_REF_TIME`. -/
  refTime : Nat
  /-- `__TIMESERIES_QUEUE_LENGTH`. -/
  queueLength : Nat

/-- `data_model_timeseries_enabled_for_update_id`. -/
def Config.enabled (cfg : Config) (u : UpdateId) : Bool := cfg.timeSeries u || cfg.cumulative u

/-- `osal_timesync_epoch_ms_is_valid`. -/
def Config.epochMsIsValid (cfg : Config) (epochMs : Nat) : Bool := epochMs / 1000 > cfg.refTime

/-- The update that a pending entry records. This does not exist in the code. -/
structure Update where
  node : Nat
  updateId : UpdateId
  val : Val
  timestampMs : Nat
  number : Nat
  deriving DecidableEq, Repr

/-- `__timeseries_data_t`. -/
structure Point where
  /-- `topic_ctx`. -/
  node : Nat
  updateId : UpdateId
  val : Val
  timestampMs : Nat
  isCumulative : Bool
  /-- The update of the entry. This does not exist in the code. -/
  origin : Update
  deriving DecidableEq, Repr

/-- Why a point was removed from the queue. -/
inductive Removal
  | accepted
  /-- The topic or the payload cannot be built. -/
  | unconvertible
  deriving DecidableEq, Repr

/-- The parameters, the pending lists and the queue. The fields from `underway` on are history. -/
structure TsState where
  val : Nat → UpdateId → Val
  pending : Nat → List UpdateInfo := fun _ => []
  /-- `__timeseries_queue`. -/
  queue : List Point := []
  /-- `esp_rmaker_should_do_work`. -/
  gate : Bool := false
  /-- The publish timer is armed. -/
  armed : Bool := false
  /-- The publish tasks on the work queue. -/
  queued : Nat := 0
  /-- The publish task before it schedules the next one, and whether its publish has failed. -/
  running : Option Bool := none
  /-- The updates whose value is written and that are not marked yet. -/
  underway : List (Nat × UpdateId × Val) := []
  /-- What the entry of a parameter records. -/
  recorded : Nat → UpdateId → Update
  next : Nat := 0
  /-- Every point that was pushed, the first one first. -/
  pushed : List Point := []
  /-- Every point that was removed, the first one first. -/
  removed : List (Point × Removal) := []

/-- The answers while a point is pushed: the value of the parameter, its path, the timezone, the
copy of the value, and `esp_rmaker_backoff_fire`. -/
structure PushEnv where
  read : Bool := true
  path : Bool := true
  timezone : Bool := true
  copied : Bool := true
  fired : Bool := true
  deriving DecidableEq, Repr

/-- The value has a type that a point can have. -/
def supported : Val → Bool
  | .object _ | .array _ => false
  | _ => true

namespace TsState

/-- `timeseries_push_data_new` gets as far as the queue, and the queue has room. -/
def takes (cfg : Config) (s : TsState) (v : Val) (env : PushEnv) : Bool :=
  env.path && env.timezone && env.copied && supported v
    && decide (s.queue.length < cfg.queueLength)

/-- `timeseries_push_data_new`. -/
def pushDataNew (cfg : Config) (s : TsState) (p : Point) (env : PushEnv) : TsState :=
  if s.takes cfg p.val env then
    { s with queue := s.queue ++ [p], pushed := s.pushed ++ [p], armed := s.armed || env.fired }
  else s

/-- The point of an entry, with the value that the parameter has now. -/
def pointOf (cfg : Config) (s : TsState) (n : Nat) (u : UpdateId) (timestampMs : Nat) : Point where
  node := n
  updateId := u
  val := s.val n u
  timestampMs := timestampMs
  isCumulative := cfg.cumulative u
  origin := s.recorded n u

/-- The loop of `__publish_node_locked` over the pending list. -/
def pushEntries (cfg : Config) (n : Nat) (env : UpdateId → PushEnv) :
    List UpdateInfo → TsState → TsState
  | [], s => s
  | .flag _ _ _ :: rest, s => pushEntries cfg n env rest s
  | .param u timestampMs :: rest, s =>
    if cfg.enabled u && (env u).read && cfg.epochMsIsValid timestampMs then
      pushEntries cfg n env rest (s.pushDataNew cfg (s.pointOf cfg n u timestampMs) (env u))
    else pushEntries cfg n env rest s

/-- A new pending list of a node. -/
def setPending (s : TsState) (n : Nat) (l : List UpdateInfo) : TsState :=
  { s with pending := Function.update s.pending n l }

/-- `__publish_node_locked`: the shadow publishes, the points, and the reset of the list if both
publishes were accepted. -/
def publishNode (cfg : Config) (s : TsState) (n : Nat) (env : VisitEnv)
    (points : UpdateId → PushEnv) : TsState :=
  if (s.pending n).isEmpty || !env.built then s
  else
    let ctxFailed := !(env.named && (!env.hasIndexed || env.indexed))
    let s' := pushEntries cfg n points (s.pending n) s
    if ctxFailed then s' else s'.setPending n []

/-- An insert into the pending list, with the update that the entry records from now on. -/
def insert (s : TsState) (n : Nat) (u : UpdateId) (v : Val) (timestampMs : Nat)
    (allocated : Bool) : TsState :=
  let r := insertParam u timestampMs allocated (s.pending n)
  let s := s.setPending n r.1
  if r.2 = .noMem then s
  else { s with
    recorded := Function.update s.recorded n (Function.update (s.recorded n) u
      { node := n, updateId := u, val := v, timestampMs := timestampMs, number := s.next })
    next := s.next + 1 }

/-- How the publish of the point at the front ends. `failed` is a payload that cannot be allocated,
or a publish that is refused. -/
inductive Attempt
  | accepted
  | unconvertible
  | failed
  deriving DecidableEq, Repr

/-- `__timeseries_publish_task` up to the removal of the point. -/
def publishTask (s : TsState) (attempt : Attempt) : TsState :=
  let s := { s with queued := s.queued - 1 }
  if s.gate = false then s
  else
    match s.queue with
    | [] => s
    | p :: rest =>
      match attempt with
      | .accepted =>
        { s with queue := rest, removed := s.removed ++ [(p, .accepted)], running := some false }
      | .unconvertible =>
        { s with queue := rest, removed := s.removed ++ [(p, .unconvertible)],
                 running := some false }
      | .failed => { s with running := some true }

/-- The rest of `__timeseries_publish_task`. `fired` is what `esp_rmaker_backoff_retry` or
`esp_rmaker_backoff_fire` answers. -/
def scheduleNext (s : TsState) (failed fired : Bool) : TsState :=
  let s := { s with running := none }
  if failed then if s.gate then { s with armed := s.armed || fired } else s
  else if s.queue.isEmpty || !s.gate then s
  else { s with armed := fired }

/-- `__timeseries_publish_scheduler_task`. -/
def publishSchedulerTask (s : TsState) (added : Bool) : TsState :=
  { s with armed := false, queued := s.queued + if s.gate && added then 1 else 0 }

end TsState

open TsState

/-- What happens next, and what the environment answers inside it. -/
inductive TsAction
  /-- `esp_rmaker_param_update` writes the value. -/
  | write (n : Nat) (u : UpdateId) (v : Val)
  /-- `esp_rmaker_state_mark_for_update` for a value that was written. `created` is whether the
  update id can be allocated. -/
  | mark (n : Nat) (u : UpdateId) (v : Val) (timestampMs : Nat) (created allocated : Bool)
  /-- A full report puts the parameter into the list. -/
  | stage (n : Nat) (u : UpdateId) (timestampMs : Nat) (allocated : Bool)
  /-- The report task visits a node. -/
  | visit (n : Nat) (env : VisitEnv) (points : UpdateId → PushEnv)
  /-- The work queue starts a publish task. -/
  | publish (attempt : Attempt)
  /-- The publish task ends. -/
  | finish (fired : Bool)
  /-- The publish timer expires. -/
  | expire (added : Bool)
  | setGate (active : Bool)
  /-- `timeseries_stop`. -/
  | stop

/-- The next step. -/
def tsStep (cfg : Config) (s : TsState) : TsAction → Option TsState
  | .write n u v =>
    some { s with val := Function.update s.val n (Function.update (s.val n) u v)
                  underway := (n, u, v) :: s.underway }
  | .mark n u v timestampMs created allocated =>
    if (n, u, v) ∈ s.underway then
      let s := { s with underway := s.underway.erase (n, u, v) }
      some (if created then s.insert n u v timestampMs allocated else s)
    else none
  | .stage n u timestampMs allocated => some (s.insert n u (s.val n u) timestampMs allocated)
  | .visit n env points =>
    if s.running.isNone then some (s.publishNode cfg n env points) else none
  | .publish attempt =>
    if 0 < s.queued ∧ s.running.isNone then some (s.publishTask attempt) else none
  | .finish fired => s.running.map fun failed => s.scheduleNext failed fired
  | .expire added => if s.armed then some (s.publishSchedulerTask added) else none
  | .setGate active => some { s with gate := active }
  | .stop => some { s with armed := false }

/-- Nothing is pending and nothing is queued. -/
def TsInitial (s : TsState) : Prop :=
  (∀ n, s.pending n = []) ∧ s.queue = [] ∧ s.running = none ∧ s.underway = [] ∧ s.pushed = []
    ∧ s.removed = []

/-- A publish task is queued or under way. -/
def TsState.tasked (s : TsState) : Bool := 0 < s.queued || s.running.isSome

/-- **Hand-over.** Each update that an entry records gives at most one point, with its value and
its time. The points are removed in the order in which they were pushed, each one after its publish
was accepted or if it cannot be converted. While the gate is open, a queue with a point has a timer
that is armed, or a task that is queued or under way. -/
structure HandedOver (s : TsState) : Prop where
  once : (s.pushed.map Point.origin).Nodup
  own : ∀ p ∈ s.pushed, p.val = p.origin.val ∧ p.timestampMs = p.origin.timestampMs
    ∧ p.node = p.origin.node ∧ p.updateId = p.origin.updateId
  order : s.removed.map Prod.fst ++ s.queue = s.pushed
  live : s.queue ≠ [] → s.gate = true → s.armed = true ∨ s.tasked = true

/-- No update of the parameter is between its write and its mark. -/
def TsState.settled (s : TsState) (n : Nat) (u : UpdateId) : Prop :=
  ∀ e ∈ s.underway, (e.1, e.2.1) ≠ (n, u)

/-- The entry gives a point. -/
def TsState.contributes (cfg : Config) (s : TsState) (n : Nat) (env : UpdateId → PushEnv) :
    UpdateInfo → Bool
  | .param u timestampMs =>
    cfg.enabled u && (env u).read && cfg.epochMsIsValid timestampMs
      && s.takes cfg (s.val n u) (env u)
  | .flag _ _ _ => false

/-- The steps that hand the updates over. -/
def TsCareful (cfg : Config) (s : TsState) : TsAction → Prop
  -- no other update of the parameter is between its write and its mark
  | .write n u _ => s.settled n u
  -- a mark that gets no update id leaves no older entry behind
  | .mark n u _ _ created _ => created = true ∨ u ∉ updateIds (s.pending n)
  | .stage _ _ _ _ => True
  -- no update of a pending parameter is between its write and its mark, the shadow publishes
  -- succeed if the list gives a point, and the timer can be armed for the points
  | .visit n env points =>
    (∀ u ∈ updateIds (s.pending n), s.settled n u)
      ∧ ((env.named && (!env.hasIndexed || env.indexed)) = true
        ∨ ∀ e ∈ s.pending n, s.contributes cfg n points e = false)
      ∧ (s.gate = true → s.armed = true ∨ s.tasked = true
        ∨ ∀ u ∈ updateIds (s.pending n), (points u).fired = true)
  | .publish _ => True
  -- the timer can be armed for the next point
  | .finish fired => s.queue ≠ [] → s.gate = true →
    fired = true ∨ 0 < s.queued ∨ s.running = some true ∧ s.armed = true
  -- the work queue takes the task
  | .expire added => s.queue ≠ [] → s.gate = true → added = true ∨ s.tasked = true
  -- the gate is opened with no point that waits for a timer
  | .setGate active => s.queue ≠ [] → active = true → s.armed = true ∨ s.tasked = true
  | .stop => s.queue ≠ [] → s.gate = true → s.tasked = true

/-! ### The pending list -/

section

variable {u v : UpdateId} {t t' : Nat} {allocated : Bool} {l : List UpdateInfo}

theorem mem_updateIds : u ∈ updateIds l ↔ ∃ t, .param u t ∈ l := by
  induction l with
  | nil => simp [updateIds]
  | cons e rest ih =>
    cases e with
    | param w t' => simp [updateIds, ih, exists_or]
    | flag flags payload t' => simp [updateIds, ih]

/-- The update ids of a sorted list are distinct. -/
theorem nodup_updateIds (h : Sorted l) : (updateIds l).Nodup := by
  refine h.imp ?_
  intro a b hbefore heq
  rw [heq, UpdateId.Before] at hbefore
  omega

/-- The parameter entries of a list that a parameter was inserted into. -/
theorem param_mem_insertParam (hl : Sorted l) (h : (insertParam u t allocated l).2 ≠ .noMem) :
    .param v t' ∈ (insertParam u t allocated l).1
      ↔ v = u ∧ t' = t ∨ v ≠ u ∧ .param v t' ∈ l := by
  induction l with
  | nil =>
    rw [insertParam] at h ⊢
    split at h
    · next hallocated => simp [if_pos hallocated]
    · exact absurd rfl h
  | cons e rest ih =>
    cases e with
    | flag flags payload t'' =>
      have hrest := ih hl h
      show UpdateInfo.param v t' ∈ _ :: (insertParam u t allocated rest).1 ↔ _
      simp [hrest]
    | param w t'' =>
      obtain ⟨hw, hrest⟩ := List.pairwise_cons.mp hl
      -- an entry of the rest has an update id of the rest
      have hmem : UpdateInfo.param v t' ∈ rest → w.Before v :=
        fun hmem => hw v (mem_updateIds.mpr ⟨t', hmem⟩)
      rw [insertParam] at h ⊢
      split
      · next hzero =>
        obtain rfl := compare_eq_zero.mp hzero
        have hne : UpdateInfo.param v t' ∈ rest → v ≠ u := by
          intro hin heq
          have hbefore := hmem hin
          rw [heq, UpdateId.Before] at hbefore
          omega
        simp only [List.mem_cons, UpdateInfo.param.injEq]
        grind
      · next hzero =>
        rw [if_neg hzero] at h
        split
        · next hpos =>
          rw [if_pos hpos] at h
          have hbefore := compare_pos.mp hpos
          split
          · have hne : UpdateInfo.param v t' ∈ .param w t'' :: rest → v ≠ u := by
              intro hin heq
              have hafter : u.Before v := by
                rcases List.mem_cons.mp hin with heq' | hin
                · rw [UpdateInfo.param.injEq] at heq'
                  rw [heq'.1]
                  exact hbefore
                · exact hbefore.trans (hmem hin)
              rw [heq, UpdateId.Before] at hafter
              omega
            rw [List.mem_cons, UpdateInfo.param.injEq]
            exact or_congr_right ⟨fun hin => ⟨hne hin, hin⟩, And.right⟩
          · next hfull =>
            rw [if_neg hfull] at h
            exact absurd rfl h
        · next hpos =>
          rw [if_neg hpos] at h
          have hne : w ≠ u := fun heq => hzero (compare_eq_zero.mpr heq.symm)
          have hkept := ih hrest h
          show UpdateInfo.param v t' ∈ _ :: (insertParam u t allocated rest).1 ↔ _
          rw [List.mem_cons, List.mem_cons, hkept, UpdateInfo.param.injEq]
          have hother : v = w ∧ t' = t'' → v ≠ u := fun heq => heq.1 ▸ hne
          grind

/-- Only a new entry asks the allocator. -/
theorem not_mem_of_noMem (hl : Sorted l) (h : (insertParam u t allocated l).2 = .noMem) :
    u ∉ updateIds l := by
  induction l with
  | nil => exact List.not_mem_nil
  | cons e rest ih =>
    cases e with
    | flag flags payload t' => exact ih hl h
    | param w t' =>
      obtain ⟨hw, hrest⟩ := List.pairwise_cons.mp hl
      rw [insertParam] at h
      split at h
      · cases h
      · next hzero =>
        have hne : u ≠ w := fun heq => hzero (compare_eq_zero.mpr heq)
        split at h
        · next hpos =>
          intro hmem
          have hbefore := (compare_pos.mp hpos).trans
            (hw u ((List.mem_cons.mp hmem).resolve_left hne))
          rw [UpdateId.Before] at hbefore
          omega
        · intro hmem
          exact ih hrest h ((List.mem_cons.mp hmem).resolve_left hne)

end

/-! ### What a report pushes -/

section

variable {cfg : Config} {s : TsState} {n : Nat} {env : UpdateId → PushEnv}

/-- The points that the loop over a list has pushed: what they are, that they follow the list, and
what the loop did to the timer. -/
structure Pushed (cfg : Config) (s : TsState) (n : Nat) (env : UpdateId → PushEnv)
    (l : List UpdateInfo) (points : List Point) (armed : Bool) : Prop where
  entry : ∀ p ∈ points, ∃ u t, .param u t ∈ l ∧ p = s.pointOf cfg n u t
  follows : (points.map Point.updateId).Sublist (updateIds l)
  kept : s.armed = true → armed = true
  fired : points ≠ [] → (∀ u ∈ updateIds l, (env u).fired = true) → armed = true
  none : (∀ e ∈ l, s.contributes cfg n env e = false) → points = []

/-- The loop leaves everything but the queue and the timer alone. -/
theorem pushEntries_eq (cfg : Config) (s : TsState) (n : Nat) (env : UpdateId → PushEnv)
    (l : List UpdateInfo) : ∃ points armed,
    pushEntries cfg n env l s
      = { s with queue := s.queue ++ points, pushed := s.pushed ++ points, armed := armed }
    ∧ Pushed cfg s n env l points armed := by
  induction l generalizing s with
  | nil =>
    refine ⟨[], s.armed, ?_, (fun p hp => nomatch hp), .slnil, id, fun h => absurd rfl h, ?_⟩
    · simp [pushEntries]
    · exact fun _ => rfl
  | cons e rest ih =>
    -- an entry that gives no point leaves the rest of the loop
    have skip : pushEntries cfg n env (e :: rest) s = pushEntries cfg n env rest s →
        ∃ points armed, pushEntries cfg n env (e :: rest) s
          = { s with queue := s.queue ++ points, pushed := s.pushed ++ points, armed := armed }
          ∧ Pushed cfg s n env (e :: rest) points armed := by
      intro hskip
      obtain ⟨points, armed, heq, hpushed⟩ := ih (s := s)
      have hsub : (updateIds rest).Sublist (updateIds (e :: rest)) := by
        cases e with
        | param u t => exact List.sublist_cons_self u _
        | flag flags payload t => exact .refl _
      refine ⟨points, armed, hskip.trans heq, ?_, hpushed.follows.trans hsub, hpushed.kept, ?_, ?_⟩
      · intro p hp
        obtain ⟨u, t, hmem, hpoint⟩ := hpushed.entry p hp
        exact ⟨u, t, List.mem_cons_of_mem e hmem, hpoint⟩
      · exact fun hne hfired => hpushed.fired hne fun u hu => hfired u (hsub.subset hu)
      · exact fun hnone => hpushed.none fun e' he' => hnone e' (List.mem_cons_of_mem e he')
    cases e with
    | flag flags payload t => exact skip rfl
    | param u t =>
      by_cases htried : (cfg.enabled u && (env u).read && cfg.epochMsIsValid t) = true
      · by_cases htaken : s.takes cfg (s.val n u) (env u) = true
        · -- the point of the entry goes to the end of the queue
          let p := s.pointOf cfg n u t
          let s' : TsState := { s with
            queue := s.queue ++ [p], pushed := s.pushed ++ [p], armed := s.armed || (env u).fired }
          obtain ⟨points, armed, heq, hpushed⟩ := ih (s := s')
          have hentry : pushEntries cfg n env (.param u t :: rest) s
              = pushEntries cfg n env rest s' := by
            rw [pushEntries, if_pos htried]
            refine congrArg _ ?_
            exact if_pos htaken
          refine ⟨p :: points, armed, ?_, ?_, ?_, ?_, ?_, ?_⟩
          · rw [hentry, heq]
            simp [s']
          · intro q hq
            rcases List.mem_cons.mp hq with rfl | hq
            · exact ⟨u, t, List.mem_cons_self, rfl⟩
            · obtain ⟨w, t', hmem, hpoint⟩ := hpushed.entry q hq
              exact ⟨w, t', List.mem_cons_of_mem _ hmem, hpoint⟩
          · exact hpushed.follows.cons_cons u
          · exact fun harmed => hpushed.kept (by simp [s', harmed])
          · intro _ hfired
            exact hpushed.kept (by simp [s', hfired u List.mem_cons_self])
          · intro hnone
            have hgives := hnone (.param u t) List.mem_cons_self
            rw [contributes, htried, htaken] at hgives
            cases hgives
        · refine skip ?_
          rw [pushEntries, if_pos htried]
          refine congrArg _ ?_
          exact if_neg htaken
      · refine skip ?_
        rw [pushEntries, if_neg htried]

end

/-! ### The invariant -/

/-- The record of an entry. It has given no point yet. -/
structure Records (next : Nat) (pushed : List Point) (n : Nat) (u : UpdateId) (timestampMs : Nat)
    (r : Update) : Prop where
  node : r.node = n
  updateId : r.updateId = u
  time : r.timestampMs = timestampMs
  number : r.number < next
  fresh : r ∉ pushed.map Point.origin

/-- What every entry of a parameter records, and what the history says about the points. -/
structure TsInv (s : TsState) : Prop extends HandedOver s where
  sorted : ∀ n, Sorted (s.pending n)
  entry : ∀ n u t, .param u t ∈ s.pending n →
    Records s.next s.pushed n u t (s.recorded n u)
  current : ∀ n, ∀ u ∈ updateIds (s.pending n), s.settled n u →
    s.val n u = (s.recorded n u).val
  written : ∀ e ∈ s.underway, s.val e.1 e.2.1 = e.2.2
  number : ∀ p ∈ s.pushed, p.origin.number < s.next

theorem Records.later {next next' n t : Nat} {pushed : List Point} {u : UpdateId} {r : Update}
    (h : Records next pushed n u t r) (hle : next ≤ next') : Records next' pushed n u t r :=
  ⟨h.node, h.updateId, h.time, h.number.trans_le hle, h.fresh⟩

namespace TsInv

variable {cfg : Config} {s : TsState}

theorem initial (h : TsInitial s) : TsInv s := by
  obtain ⟨hpending, hqueue, hrunning, hunderway, hpushed, hremoved⟩ := h
  constructor
  · constructor <;> simp [hqueue, hpushed, hremoved]
  · intro n
    rw [hpending]
    exact .nil
  all_goals simp [hpending, hunderway, hpushed, updateIds]

/-- An insert starts a new record, whose value is the value of the parameter. Updates of this
parameter may have ended. -/
theorem insert (h : TsInv s) (n : Nat) (u : UpdateId) (t : Nat) (allocated : Bool)
    {underway : List (Nat × UpdateId × Val)} (hsub : underway ⊆ s.underway)
    (hother : ∀ m w, (m, w) ≠ (n, u) → { s with underway := underway }.settled m w →
      s.settled m w) :
    TsInv ({ s with underway := underway }.insert n u (s.val n u) t allocated) := by
  have hwritten : ∀ e ∈ underway, s.val e.1 e.2.1 = e.2.2 := fun e he => h.written e (hsub he)
  have hne : ∀ {m w}, ¬(m = n ∧ w = u) → (m, w) ≠ (n, u) :=
    fun hnot heq => hnot (Prod.mk.inj heq)
  rw [TsState.insert]
  split
  · next hfull =>
    -- the list is the old one, and the parameter is not in it
    have hsame : { s with underway := underway }.setPending n
        (insertParam u t allocated (s.pending n)).1 = { s with underway := underway } := by
      rw [insertParam_noMem hfull, TsState.setPending, Function.update_eq_self]
    have hu := not_mem_of_noMem (h.sorted n) hfull
    rw [hsame]
    refine ⟨⟨h.once, h.own, h.order, h.live⟩, h.sorted, h.entry, ?_, hwritten, h.number⟩
    intro m w hw hquiet
    refine h.current m w hw (hother m w (hne ?_) hquiet)
    rintro ⟨rfl, rfl⟩
    exact hu hw
  · next hok =>
    constructor
    · exact ⟨h.once, h.own, h.order, h.live⟩
    · intro m
      show Sorted (Function.update s.pending n _ m)
      by_cases hm : m = n
      · rw [hm, Function.update_self]
        exact insertParam_sorted (h.sorted n)
      · rw [Function.update_of_ne hm]
        exact h.sorted m
    · intro m w t' hmem
      have hfresh : ∀ r : Update, r.number = s.next → r ∉ s.pushed.map Point.origin := by
        intro r hr hin
        obtain ⟨p, hp, rfl⟩ := List.mem_map.mp hin
        have hlt := h.number p hp
        omega
      change UpdateInfo.param w t' ∈ Function.update s.pending n _ m at hmem
      show Records (s.next + 1) s.pushed m w t' (Function.update s.recorded n _ m w)
      by_cases hm : m = n
      · subst hm
        rw [Function.update_self, param_mem_insertParam (h.sorted m) hok] at hmem
        rw [Function.update_self]
        rcases hmem with ⟨rfl, rfl⟩ | ⟨hne, hmem⟩
        · rw [Function.update_self]
          exact ⟨rfl, rfl, rfl, Nat.lt_succ_self _, hfresh _ rfl⟩
        · rw [Function.update_of_ne hne]
          exact (h.entry m w t' hmem).later (Nat.le_succ _)
      · rw [Function.update_of_ne hm] at hmem ⊢
        exact (h.entry m w t' hmem).later (Nat.le_succ _)
    · intro m w hmem hsettled
      change w ∈ updateIds (Function.update s.pending n _ m) at hmem
      show s.val m w = (Function.update s.recorded n _ m w).val
      by_cases hm : m = n
      · subst hm
        rw [Function.update_self] at hmem ⊢
        by_cases hw : w = u
        · rw [hw, Function.update_self]
        · rw [Function.update_of_ne hw]
          have hin := (mem_updateIds_insertParam hmem).resolve_left hw
          exact h.current m w hin (hother m w (hne fun heq => hw heq.2) hsettled)
      · rw [Function.update_of_ne hm] at hmem ⊢
        exact h.current m w hmem (hother m w (hne fun heq => hm heq.1) hsettled)
    · exact hwritten
    · exact fun p hp => (h.number p hp).trans (Nat.lt_succ_self _)

section

variable {n : Nat} {points : UpdateId → PushEnv} {ps : List Point} {armed : Bool}

/-- What a new point says about the entry it comes from. -/
theorem origin (h : TsInv s) (hsettled : ∀ u ∈ updateIds (s.pending n), s.settled n u)
    (hps : Pushed cfg s n points (s.pending n) ps armed) (p : Point) (hp : p ∈ ps) :
    ∃ u t, p = s.pointOf cfg n u t ∧ Records s.next s.pushed n u t p.origin
      ∧ p.val = p.origin.val := by
  obtain ⟨u, t, hmem, rfl⟩ := hps.entry p hp
  have hu := mem_updateIds.mpr ⟨t, hmem⟩
  exact ⟨u, t, rfl, h.entry n u t hmem, h.current n u hu (hsettled u hu)⟩

/-- The new points have distinct records, and no older point has one of these. -/
theorem once_pushed (h : TsInv s) (hsettled : ∀ u ∈ updateIds (s.pending n), s.settled n u)
    (hps : Pushed cfg s n points (s.pending n) ps armed) :
    ((s.pushed ++ ps).map Point.origin).Nodup := by
  have hids : ps.map (fun p => p.origin.updateId) = ps.map Point.updateId := by
    refine List.map_congr_left ?_
    intro p hp
    obtain ⟨u, t, hpoint, hrecords, -⟩ := h.origin hsettled hps p hp
    rw [hrecords.updateId, hpoint]
    rfl
  rw [List.map_append, List.nodup_append']
  refine ⟨h.once, ?_, ?_⟩
  · refine List.Nodup.of_map Update.updateId ?_
    rw [List.map_map]
    show (ps.map fun p => p.origin.updateId).Nodup
    rw [hids]
    exact hps.follows.nodup (nodup_updateIds (h.sorted n))
  · intro r hold hnew
    obtain ⟨p, hp, rfl⟩ := List.mem_map.mp hnew
    obtain ⟨u, t, -, hrecords, -⟩ := h.origin hsettled hps p hp
    exact hrecords.fresh hold

theorem number_pushed (h : TsInv s) (hsettled : ∀ u ∈ updateIds (s.pending n), s.settled n u)
    (hps : Pushed cfg s n points (s.pending n) ps armed) :
    ∀ p ∈ s.pushed ++ ps, p.origin.number < s.next := by
  intro p hp
  rcases List.mem_append.mp hp with hp | hp
  · exact h.number p hp
  · obtain ⟨u, t, -, hrecords, -⟩ := h.origin hsettled hps p hp
    exact hrecords.number

/-- A record of another node gives none of the new points. -/
theorem entry_pushed (h : TsInv s) (hsettled : ∀ u ∈ updateIds (s.pending n), s.settled n u)
    (hps : Pushed cfg s n points (s.pending n) ps armed) {m : Nat} (hm : m ≠ n) {u : UpdateId}
    {t : Nat} (hmem : .param u t ∈ s.pending m) :
    Records s.next (s.pushed ++ ps) m u t (s.recorded m u) := by
  have hrecords := h.entry m u t hmem
  refine ⟨hrecords.node, hrecords.updateId, hrecords.time, hrecords.number, ?_⟩
  rw [List.map_append, List.mem_append, not_or]
  refine ⟨hrecords.fresh, ?_⟩
  intro hin
  obtain ⟨p, hp, heq⟩ := List.mem_map.mp hin
  obtain ⟨w, t', -, hnew, -⟩ := h.origin hsettled hps p hp
  rw [heq] at hnew
  exact hm (hrecords.node.symm.trans hnew.node)

theorem handedOver_pushed (h : TsInv s) (hsettled : ∀ u ∈ updateIds (s.pending n), s.settled n u)
    (hps : Pushed cfg s n points (s.pending n) ps armed)
    (hfired : s.gate = true → s.armed = true ∨ s.tasked = true
      ∨ ∀ u ∈ updateIds (s.pending n), (points u).fired = true) :
    HandedOver
      { s with queue := s.queue ++ ps, pushed := s.pushed ++ ps, armed := armed } := by
  refine ⟨h.once_pushed hsettled hps, ?_, ?_, ?_⟩
  · intro p hp
    rcases List.mem_append.mp hp with hp | hp
    · exact h.own p hp
    · obtain ⟨u, t, hpoint, hrecords, hval⟩ := h.origin hsettled hps p hp
      rw [hrecords.node, hrecords.updateId, hrecords.time]
      exact ⟨hval, by rw [hpoint]; rfl, by rw [hpoint]; rfl, by rw [hpoint]; rfl⟩
  · show _ ++ (s.queue ++ ps) = s.pushed ++ ps
    rw [← List.append_assoc, h.order]
  · intro hne hgate
    show armed = true ∨ s.tasked = true
    rcases hfired hgate with harmed | htasked | hfired
    · exact .inl (hps.kept harmed)
    · exact .inr htasked
    · by_cases hnone : ps = []
      · subst hnone
        change s.queue ++ [] ≠ [] at hne
        rw [List.append_nil] at hne
        exact (h.live hne hgate).imp hps.kept id
      · exact .inl (hps.fired hnone hfired)

end

variable (h : TsInv s)
include h

/-- A report that a careful step makes. -/
theorem publishNode {n : Nat} {env : VisitEnv} {points : UpdateId → PushEnv}
    (hguard : TsCareful cfg s (.visit n env points)) : TsInv (s.publishNode cfg n env points) := by
  obtain ⟨hsettled, hpublished, hfired⟩ := hguard
  rw [TsState.publishNode]
  split
  · exact h
  · obtain ⟨ps, armed, heq, hps⟩ := pushEntries_eq cfg s n points (s.pending n)
    have hhanded := h.handedOver_pushed hsettled hps hfired
    have hnumber := h.number_pushed hsettled hps
    rw [heq]
    dsimp only
    split
    · next hfailed =>
      -- the list stays, so it has given no point
      have hnone : ps = [] := by
        refine hps.none (hpublished.resolve_left ?_)
        intro hok
        rw [hok] at hfailed
        cases hfailed
      subst hnone
      refine ⟨hhanded, h.sorted, ?_, h.current, h.written, hnumber⟩
      intro m u t hmem
      show Records s.next (s.pushed ++ []) m u t (s.recorded m u)
      rw [List.append_nil]
      exact h.entry m u t hmem
    · -- the list is empty now
      have hpending : ∀ m w t', .param w t' ∈ Function.update s.pending n [] m →
          m ≠ n ∧ .param w t' ∈ s.pending m := by
        intro m w t' hmem
        by_cases hm : m = n
        · rw [hm, Function.update_self] at hmem
          cases hmem
        · rw [Function.update_of_ne hm] at hmem
          exact ⟨hm, hmem⟩
      refine ⟨⟨hhanded.once, hhanded.own, hhanded.order, hhanded.live⟩, ?_, ?_, ?_, h.written,
        hnumber⟩
      · intro m
        show Sorted (Function.update s.pending n [] m)
        by_cases hm : m = n
        · rw [hm, Function.update_self]
          exact .nil
        · rw [Function.update_of_ne hm]
          exact h.sorted m
      · intro m w t' hmem
        obtain ⟨hm, hmem⟩ := hpending m w t' hmem
        exact h.entry_pushed hsettled hps hm hmem
      · intro m w hw hsettled'
        obtain ⟨t', hmem⟩ := mem_updateIds.mp hw
        exact h.current m w (mem_updateIds.mpr ⟨t', (hpending m w t' hmem).2⟩) hsettled'

theorem write {n : Nat} {u : UpdateId} (v : Val) (hsettled : s.settled n u) :
    TsInv { s with val := Function.update s.val n (Function.update (s.val n) u v)
                   underway := (n, u, v) :: s.underway } := by
  -- another parameter keeps its value
  have hval : ∀ m w, (m, w) ≠ (n, u) →
      Function.update s.val n (Function.update (s.val n) u v) m w = s.val m w := by
    intro m w hne
    by_cases hm : m = n
    · subst hm
      rw [Function.update_self, Function.update_of_ne]
      exact fun hw => hne (hw ▸ rfl)
    · rw [Function.update_of_ne hm]
  refine ⟨⟨h.once, h.own, h.order, h.live⟩, h.sorted, h.entry, ?_, ?_, h.number⟩
  · intro m w hw hquiet
    obtain ⟨hne, hquiet⟩ := List.forall_mem_cons.mp hquiet
    show Function.update s.val n _ m w = _
    rw [hval m w (Ne.symm hne)]
    exact h.current m w hw hquiet
  · refine List.forall_mem_cons.mpr ⟨?_, ?_⟩
    · show Function.update s.val n _ n u = v
      rw [Function.update_self, Function.update_self]
    · intro e he
      show Function.update s.val n _ e.1 e.2.1 = e.2.2
      rw [hval e.1 e.2.1 (hsettled e he)]
      exact h.written e he

/-- A mark ends the update. The value of the parameter is still the one that was written. -/
theorem mark {n : Nat} {u : UpdateId} {v : Val} {t : Nat} {created allocated : Bool}
    (hunderway : (n, u, v) ∈ s.underway) (hcreated : created = true ∨ u ∉ updateIds (s.pending n)) :
    TsInv (if created then
        { s with underway := s.underway.erase (n, u, v) }.insert n u v t allocated
      else { s with underway := s.underway.erase (n, u, v) }) := by
  have hval : s.val n u = v := h.written (n, u, v) hunderway
  -- the update of another parameter is still under way
  have hother : ∀ m w, (m, w) ≠ (n, u) → { s with
      underway := s.underway.erase (n, u, v) }.settled m w → s.settled m w := by
    intro m w hne hquiet e he heq
    refine hquiet e ((List.mem_erase_of_ne ?_).mpr he) heq
    intro he'
    rw [he'] at heq
    exact hne heq.symm
  have hsub : s.underway.erase (n, u, v) ⊆ s.underway := List.erase_subset
  cases created with
  | true =>
    have hinsert := h.insert n u t allocated hsub hother
    rw [hval] at hinsert
    exact hinsert
  | false =>
    have hu := hcreated.resolve_left Bool.false_ne_true
    refine ⟨⟨h.once, h.own, h.order, h.live⟩, h.sorted, h.entry, ?_,
      fun e he => h.written e (hsub he), h.number⟩
    intro m w hw hquiet
    refine h.current m w hw (hother m w ?_ hquiet)
    intro heq
    obtain ⟨rfl, rfl⟩ := Prod.mk.inj heq
    exact hu hw

/-- The publish task takes the front of the queue, or leaves the queue as it is. -/
theorem publishTask (attempt : Attempt) : TsInv (s.publishTask attempt) := by
  rw [TsState.publishTask]
  dsimp only
  split
  · next hgate =>
    refine ⟨⟨h.once, h.own, h.order, ?_⟩, h.sorted, h.entry, h.current, h.written, h.number⟩
    intro _ hopen
    exact absurd (hgate.symm.trans hopen) Bool.false_ne_true
  · split
    · next hempty =>
      refine ⟨⟨h.once, h.own, h.order, ?_⟩, h.sorted, h.entry, h.current, h.written, h.number⟩
      exact fun hne => absurd hempty hne
    · next p rest hqueue =>
      have horder : s.removed.map Prod.fst ++ p :: rest = s.pushed := hqueue ▸ h.order
      have hlive : ∀ failed, { s with queued := s.queued - 1, running := some failed }.tasked
          = true := by
        intro failed
        simp [tasked]
      -- the point goes from the queue to the points that were removed
      have hremoved : ∀ removal, (s.removed ++ [(p, removal)]).map Prod.fst ++ rest
          = s.pushed := by
        intro removal
        rw [← horder]
        simp
      cases attempt with
      | accepted =>
        exact ⟨⟨h.once, h.own, hremoved _, fun _ _ => .inr (hlive _)⟩, h.sorted, h.entry,
          h.current, h.written, h.number⟩
      | unconvertible =>
        exact ⟨⟨h.once, h.own, hremoved _, fun _ _ => .inr (hlive _)⟩, h.sorted, h.entry,
          h.current, h.written, h.number⟩
      | failed =>
        exact ⟨⟨h.once, h.own, h.order, fun _ _ => .inr (hlive _)⟩, h.sorted, h.entry,
          h.current, h.written, h.number⟩

/-- Steps that change only the gate, the timer and the tasks. -/
theorem schedule {gate armed : Bool} {queued : Nat} {running : Option Bool}
    (hlive : s.queue ≠ [] → gate = true → armed = true ∨ 0 < queued ∨ running.isSome = true) :
    TsInv { s with gate := gate, armed := armed, queued := queued, running := running } := by
  refine ⟨⟨h.once, h.own, h.order, ?_⟩, h.sorted, h.entry, h.current, h.written, h.number⟩
  intro hne hgate
  refine (hlive hne hgate).imp id fun htasked => ?_
  rw [tasked, Bool.or_eq_true, decide_eq_true_eq]
  exact htasked

theorem scheduleNext {failed fired : Bool} (hrunning : s.running = some failed)
    (hguard : TsCareful cfg s (.finish fired)) : TsInv (s.scheduleNext failed fired) := by
  rw [TsState.scheduleNext]
  dsimp only
  cases failed with
  | true =>
    rw [if_pos rfl]
    split
    · next hgate =>
      refine h.schedule ?_
      intro hne _
      rcases hguard hne hgate with hfired | hqueued | ⟨-, harmed⟩
      · exact .inl (by rw [hfired, Bool.or_true])
      · exact .inr (.inl hqueued)
      · exact .inl (by rw [harmed, Bool.true_or])
    · next hgate => exact h.schedule fun _ hopen => absurd hopen hgate
  | false =>
    rw [if_neg Bool.false_ne_true]
    split
    · next hidle =>
      refine h.schedule ?_
      intro hne hgate
      rw [hgate, Bool.not_true, Bool.or_false, List.isEmpty_iff] at hidle
      exact absurd hidle hne
    · refine h.schedule ?_
      intro hne hgate
      rcases hguard hne hgate with hfired | hqueued | ⟨hfailed, -⟩
      · exact .inl hfired
      · exact .inr (.inl hqueued)
      · rw [hrunning] at hfailed
        cases hfailed

theorem step {a : TsAction} (hguard : TsCareful cfg s a) {t : TsState}
    (hstep : tsStep cfg s a = some t) : TsInv t := by
  have htasked : s.tasked = true → 0 < s.queued ∨ s.running.isSome = true := by
    intro htasked
    rw [tasked, Bool.or_eq_true, decide_eq_true_eq] at htasked
    exact htasked
  cases a with
  | write n u v =>
    obtain rfl := Option.some.inj hstep
    exact h.write v hguard
  | mark n u v t created allocated =>
    rw [tsStep] at hstep
    split at hstep
    · next hunderway =>
      obtain rfl := Option.some.inj hstep
      exact h.mark hunderway hguard
    · cases hstep
  | stage n u t allocated =>
    obtain rfl := Option.some.inj hstep
    exact h.insert n u t allocated (List.Subset.refl _) fun _ _ _ hquiet => hquiet
  | visit n env points =>
    rw [tsStep] at hstep
    split at hstep
    · obtain rfl := Option.some.inj hstep
      exact h.publishNode hguard
    · cases hstep
  | publish attempt =>
    rw [tsStep] at hstep
    split at hstep
    · obtain rfl := Option.some.inj hstep
      exact h.publishTask attempt
    · cases hstep
  | finish fired =>
    obtain ⟨failed, hrunning, rfl⟩ := Option.map_eq_some_iff.mp hstep
    exact h.scheduleNext hrunning hguard
  | expire added =>
    rw [tsStep] at hstep
    split at hstep
    · obtain rfl := Option.some.inj hstep
      refine h.schedule ?_
      intro hne hgate
      rw [hgate, Bool.true_and]
      rcases hguard hne hgate with hadded | hrest
      · rw [if_pos hadded]
        exact .inr (.inl (Nat.succ_pos _))
      · exact .inr ((htasked hrest).imp (fun hpos => Nat.add_pos_left hpos _) id)
    · cases hstep
  | setGate active =>
    obtain rfl := Option.some.inj hstep
    exact h.schedule fun hne hopen => (hguard hne hopen).imp id htasked
  | stop =>
    obtain rfl := Option.some.inj hstep
    exact h.schedule fun hne hgate => .inr (htasked (hguard hne hgate))

end TsInv

/-- **Timeseries hand-over.** Runs of careful steps hand the updates over. -/
theorem handedOver_of_careful {cfg : Config} {s : TsState}
    (hs : Reach TsInitial (tsStep cfg) (TsCareful cfg) s) : HandedOver s :=
  (hs.inv TsInv (fun _ => TsInv.initial) fun _ _ _ h hguard hstep =>
    h.step hguard hstep).toHandedOver

/-! ### Four short runs -/

instance (cfg : Config) (s : TsState) (a : TsAction) : Decidable (TsCareful cfg s a) := by
  unfold TsCareful settled
  cases a <;> infer_instance

/-- Every parameter is a time series. The queue holds two points. -/
def sampleTimeseries : Config where
  timeSeries _ := true
  cumulative _ := false
  refTime := 1735689600
  queueLength := 2

/-- The runtime gate is open. -/
def sampleStart : TsState where
  val _ _ := .integer 0
  gate := true
  recorded n u :=
    { node := n, updateId := u, val := .integer 0, timestampMs := 0, number := 0 }

/-- A parameter is updated and marked. -/
def markedUpdate : List TsAction :=
  [.write 0 ⟨9, 1⟩ (.integer 5), .mark 0 ⟨9, 1⟩ (.integer 5) 1735689601000 true true]

theorem sampleStart_initial : TsInitial sampleStart :=
  ⟨fun _ => rfl, rfl, rfl, rfl, rfl, rfl⟩

/-- The first publish of the point fails, and the second one is accepted. -/
theorem retried_handedOver : ∃ s,
    exec (tsStep sampleTimeseries) sampleStart (markedUpdate ++
        [.visit 0 {} fun _ => {}, .expire true, .publish .failed, .finish true, .expire true,
          .publish .accepted, .finish true]) = some s
      ∧ s.removed.length = 1 ∧ HandedOver s := by
  have hrun : Reach TsInitial (tsStep sampleTimeseries) (TsCareful sampleTimeseries) _ :=
    Reach.exec (markedUpdate ++
        [.visit 0 {} fun _ => {}, .expire true, .publish .failed, .finish true, .expire true,
          .publish .accepted, .finish true])
      (.start sampleStart_initial) (by decide +kernel) rfl
  exact ⟨_, rfl, rfl, handedOver_of_careful hrun⟩

/-- The named publish of a report fails, and the next report pushes the point once more. In the
second run the timer expires while the gate is closed, and nothing is armed when it opens. In the
third run the value is written again before the report, so the point has the new value and the
time of the old one. -/
theorem duplicated_and_stalled :
    (∃ s, Reach TsInitial (tsStep sampleTimeseries) (fun _ _ => True) s
      ∧ exec (tsStep sampleTimeseries) sampleStart (markedUpdate ++
          [.visit 0 { named := false } fun _ => {}, .visit 0 {} fun _ => {}]) = some s
      ∧ ¬(s.pushed.map Point.origin).Nodup)
    ∧ (∃ s, Reach TsInitial (tsStep sampleTimeseries) (fun _ _ => True) s
      ∧ exec (tsStep sampleTimeseries) sampleStart (markedUpdate ++
          [.visit 0 {} fun _ => {}, .setGate false, .expire true, .setGate true]) = some s
      ∧ s.queue ≠ [] ∧ s.gate = true ∧ s.armed = false ∧ s.tasked = false)
    ∧ ∃ s, Reach TsInitial (tsStep sampleTimeseries) (fun _ _ => True) s
      ∧ exec (tsStep sampleTimeseries) sampleStart (markedUpdate ++
          [.write 0 ⟨9, 1⟩ (.integer 6), .visit 0 {} fun _ => {}]) = some s
      ∧ ¬∀ p ∈ s.pushed, p.val = p.origin.val := by
  refine ⟨⟨_, ?_, rfl, ?_⟩, ⟨_, ?_, rfl, ?_⟩, ⟨_, ?_, rfl, ?_⟩⟩
  · exact Reach.exec_true (markedUpdate ++
      [.visit 0 { named := false } fun _ => {}, .visit 0 {} fun _ => {}])
      (.start sampleStart_initial) rfl
  · decide +kernel
  · exact Reach.exec_true (markedUpdate ++
      [.visit 0 {} fun _ => {}, .setGate false, .expire true, .setGate true])
      (.start sampleStart_initial) rfl
  · decide +kernel
  · exact Reach.exec_true (markedUpdate ++
      [.write 0 ⟨9, 1⟩ (.integer 6), .visit 0 {} fun _ => {}])
      (.start sampleStart_initial) rfl
  · decide +kernel

end RainMakerNeo.Node.Timeseries
