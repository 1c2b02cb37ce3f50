import Mathlib.Logic.Function.Basic
import RainMakerNeo.State.ShadowPayload

/-!
# `RainMakerNeo.State.ReportDelivery`: no update is lost between its mark and its acknowledgement

An update is marked in the pending list of its node, and the report timer is armed. The timer queues
the report task. The task visits the nodes, publishes what each one has pending and empties its list
when the publish is accepted. The acknowledgement comes later. A payload that is refused is repaired
by a full report, which stages everything again, but for the self node only.

Marks, expiries and acknowledgements come at any time between the visits of a task, so a task is a
sequence of steps. `noLostUpdate` says what the steps have to meet for every update to stay pending,
in flight or acknowledged. `refused_and_stranded` shows two ways in which the code loses one.
-/

set_option autoImplicit false

namespace RainMakerNeo.State

open RainMakerNeo.Lib

/-! ### What an entry tells -/

/-- A field of a named shadow. -/
inductive Item
  | param (u : UpdateId) (val : Val)
  | online (value : Bool)
  | ncfgVer (hash : List UInt8)
  deriving DecidableEq, Repr

/-- The flag of the synthetic entry that tells the field. -/
def Item.flag : Item → Option Nat
  | .param _ _ => none
  | .online _ => some flagOnline
  | .ncfgVer _ => some flagNcfgVer

/-- The fields of an entry, with the values of the parameters. -/
def UpdateInfo.items (val : UpdateId → Val) : UpdateInfo → List Item
  | .param u _ => [.param u (val u)]
  | .flag flags payload _ =>
    (if flags &&& flagOnline ≠ 0 then [.online payload.onlineValue] else []) ++
      (if flags &&& flagNcfgVer ≠ 0 then [.ncfgVer payload.ncfgVerHash] else [])

/-- The fields that a list tells. -/
def items (val : UpdateId → Val) (l : List UpdateInfo) : List Item :=
  l.flatMap (UpdateInfo.items val)

section

variable {val : UpdateId → Val} {l : List UpdateInfo}

variable {u : UpdateId} {allocated : Bool} {item : Item} {flags : Nat} {payload : FlagPayload}

theorem param_mem_items {v : Val} : .param u v ∈ items val l ↔ u ∈ updateIds l ∧ v = val u := by
  induction l with
  | nil => exact iff_of_false List.not_mem_nil fun h => nomatch h.1
  | cons e rest ih =>
    rw [items, List.flatMap_cons, List.mem_append]
    rw [items] at ih
    rw [ih]
    cases e with
    | param w t =>
      rw [UpdateInfo.items, updateIds, List.mem_singleton, List.mem_cons, Item.param.injEq]
      constructor
      · intro h
        rcases h with ⟨rfl, rfl⟩ | ⟨hmem, rfl⟩
        · exact ⟨.inl rfl, rfl⟩
        · exact ⟨.inr hmem, rfl⟩
      · intro h
        obtain ⟨h | h, rfl⟩ := h
        · exact .inl ⟨h, h ▸ rfl⟩
        · exact .inr ⟨h, rfl⟩
    | flag flags payload t =>
      rw [updateIds]
      refine or_iff_right ?_
      rw [UpdateInfo.items, List.mem_append]
      split <;> split <;> simp

/-- A parameter that was inserted, or that was there before, is in the list. -/
theorem mem_insertParam {t : Nat} (h : (insertParam u t allocated l).2 ≠ .noMem ∨ u ∈ updateIds l) :
    u ∈ updateIds (insertParam u t allocated l).1 := by
  induction l with
  | nil =>
    rw [insertParam] at h ⊢
    split
    · exact List.mem_singleton_self u
    · next hfull =>
      rw [if_neg hfull] at h
      exact absurd rfl (h.resolve_right List.not_mem_nil)
  | cons e rest ih =>
    cases e with
    | flag flags payload t' => exact ih h
    | param v t' =>
      rw [insertParam] at h ⊢
      split
      · exact List.mem_cons_self
      · next hne =>
        rw [if_neg hne] at h
        split
        · next hpos =>
          rw [if_pos hpos] at h
          split
          · exact List.mem_cons_self
          · next hfull =>
            rw [if_neg hfull] at h
            exact h.resolve_left fun hok => hok rfl
        · next hpos =>
          rw [if_neg hpos] at h
          refine List.mem_cons_of_mem v (ih (h.imp id fun hmem => ?_))
          refine (List.mem_cons.mp hmem).resolve_left fun heq => hne ?_
          exact compare_eq_zero.mpr heq

/-- An insert of a parameter keeps what the list tells. -/
theorem items_insertParam {t : Nat} (h : item ∈ items val l) :
    item ∈ items val (insertParam u t allocated l).1 := by
  induction l with
  | nil => cases h
  | cons e rest ih =>
    rw [items, List.flatMap_cons, List.mem_append] at h
    cases e with
    | flag flags payload t' =>
      show item ∈ List.flatMap _ (_ :: (insertParam u t allocated rest).1)
      rw [List.flatMap_cons, List.mem_append]
      exact h.imp id ih
    | param v t' =>
      have hkept : item ∈ items val (.param v t' :: rest) := by
        rw [items, List.flatMap_cons, List.mem_append]
        exact h
      rw [insertParam]
      split
      · next hzero =>
        obtain rfl := compare_eq_zero.mp hzero
        exact hkept
      · split
        · split
          · rw [items, List.flatMap_cons, List.mem_append]
            exact .inr hkept
          · exact hkept
        · show item ∈ List.flatMap _ (_ :: (insertParam u t allocated rest).1)
          rw [List.flatMap_cons, List.mem_append]
          exact h.imp id ih

/-- An insert of a synthetic entry keeps what the other entries tell. -/
theorem items_insertFlag {t : Nat} (hflags : flags = flagOnline ∨ flags = flagNcfgVer)
    (hitem : item.flag ≠ some flags) (h : item ∈ items val l) :
    item ∈ items val (insertFlag flags payload t allocated l).1 := by
  induction l with
  | nil => cases h
  | cons e rest ih =>
    rw [items, List.flatMap_cons, List.mem_append] at h
    cases e with
    | param v t' =>
      show item ∈ List.flatMap _ (_ :: (insertFlag flags payload t allocated rest).1)
      rw [List.flatMap_cons, List.mem_append]
      exact h.imp id ih
    | flag flags' payload' t' =>
      rw [insertFlag]
      split
      · next heq =>
        rw [items, List.flatMap_cons, List.mem_append]
        refine h.imp (fun hmem => absurd ?_ hitem) id
        -- The entry with these flags tells the field of these flags only.
        subst heq
        rcases hflags with rfl | rfl
        · obtain rfl := List.mem_singleton.mp hmem
          rfl
        · obtain rfl := List.mem_singleton.mp hmem
          rfl
      · show item ∈ List.flatMap _ (_ :: (insertFlag flags payload t allocated rest).1)
        rw [List.flatMap_cons, List.mem_append]
        exact h.imp id ih

/-- The field of a synthetic entry. -/
def flagItem (flags : Nat) (payload : FlagPayload) : Item :=
  if flags = flagOnline then .online payload.onlineValue else .ncfgVer payload.ncfgVerHash

/-- A synthetic entry that has been inserted tells its payload. -/
theorem mem_insertFlag {t : Nat} (hflags : flags = flagOnline ∨ flags = flagNcfgVer)
    (h : (insertFlag flags payload t allocated l).2 ≠ .noMem) :
    flagItem flags payload ∈ items val (insertFlag flags payload t allocated l).1 := by
  induction l with
  | nil =>
    rw [insertFlag] at h ⊢
    split at h
    · next hallocated =>
      rw [if_pos hallocated]
      rcases hflags with rfl | rfl <;> exact List.mem_singleton_self _
    · exact absurd rfl h
  | cons e rest ih =>
    cases e with
    | param v t' => exact List.mem_cons_of_mem _ (ih h)
    | flag flags' payload' t' =>
      rw [insertFlag] at h ⊢
      split
      · next heq =>
        subst heq
        rcases hflags with rfl | rfl <;> exact List.mem_cons_self
      · next hne =>
        rw [if_neg hne] at h
        show _ ∈ List.flatMap _ (_ :: (insertFlag flags payload t allocated rest).1)
        rw [List.flatMap_cons, List.mem_append]
        exact .inr (ih h)

theorem insertParam_ne_noMem (u : UpdateId) (t : Nat) (l : List UpdateInfo) :
    (insertParam u t true l).2 ≠ .noMem := by
  induction l with
  | nil =>
    intro h
    cases h
  | cons e rest ih =>
    cases e with
    | flag flags payload t' => exact ih
    | param v t' =>
      rw [insertParam]
      split
      · simp
      · split
        · simp
        · exact ih

/-- A parameter that could not be inserted leaves the list alone. -/
theorem insertParam_noMem {t : Nat} (h : (insertParam u t allocated l).2 = .noMem) :
    (insertParam u t allocated l).1 = l := by
  induction l with
  | nil =>
    rw [insertParam] at h ⊢
    split at h
    · cases h
    · next hfull => rw [if_neg hfull]
  | cons e rest ih =>
    cases e with
    | flag flags payload t' => exact congrArg (_ :: ·) (ih h)
    | param v t' =>
      rw [insertParam] at h ⊢
      split
      · next hzero =>
        rw [if_pos hzero] at h
        cases h
      · next hzero =>
        rw [if_neg hzero] at h
        split
        · next hpos =>
          rw [if_pos hpos] at h
          split at h
          · cases h
          · next hfull => rw [if_neg hfull]
        · next hpos =>
          rw [if_neg hpos] at h
          exact congrArg (_ :: ·) (ih h)

theorem insertFlag_ne_noMem (flags : Nat) (payload : FlagPayload) (t : Nat) (l : List UpdateInfo) :
    (insertFlag flags payload t true l).2 ≠ .noMem := by
  induction l with
  | nil =>
    intro h
    cases h
  | cons e rest ih =>
    cases e with
    | param v t' => exact ih
    | flag flags' payload' t' =>
      rw [insertFlag]
      split
      · simp
      · exact ih

/-- A synthetic entry that could not be inserted leaves the list alone. -/
theorem insertFlag_noMem {t : Nat} (h : (insertFlag flags payload t allocated l).2 = .noMem) :
    (insertFlag flags payload t allocated l).1 = l := by
  induction l with
  | nil =>
    rw [insertFlag] at h ⊢
    split at h
    · cases h
    · next hfull => rw [if_neg hfull]
  | cons e rest ih =>
    cases e with
    | param v t' => exact congrArg (_ :: ·) (ih h)
    | flag flags' payload' t' =>
      rw [insertFlag] at h ⊢
      split
      · next heq =>
        rw [if_pos heq] at h
        cases h
      · next hne =>
        rw [if_neg hne] at h
        exact congrArg (_ :: ·) (ih h)

/-- What a synthetic entry tells does not depend on the parameters. -/
theorem flag_mem_items (hitem : item.flag ≠ none) (val' : UpdateId → Val) (h : item ∈ items val l) :
    item ∈ items val' l := by
  obtain ⟨e, he, hmem⟩ := List.mem_flatMap.mp h
  refine List.mem_flatMap.mpr ⟨e, he, ?_⟩
  cases e with
  | param u t =>
    obtain rfl := List.mem_singleton.mp hmem
    exact absurd rfl hitem
  | flag flags payload t => exact hmem

end

/-! ### The reports -/

/-- The bridge children, and the parameters of each node (`data_model_state_update_id_get_all`). -/
structure ReportConfig where
  children : List Nat := []
  params : Nat → List UpdateId

/-- The self node. -/
def selfNode : Nat := 0

/-- The nodes. -/
def ReportConfig.nodes (cfg : ReportConfig) : List Nat := selfNode :: cfg.children

/-- `__state_report_task` while it visits the nodes. -/
structure RunningReport where
  remaining : List Nat
  failedAnyPublish : Bool := false
  deriving DecidableEq, Repr

/-- The pending lists, the timer and the tasks. `marked`, `online`, `ncfgVer` and `acked` are
history: the parameters that were marked, the last synthetic values that were marked, and the
payloads that were acknowledged with success. -/
structure ReportState where
  val : Nat → UpdateId → Val
  marked : Nat → List UpdateId := fun _ => []
  online : Nat → Option Bool := fun _ => none
  ncfgVer : Nat → Option (List UInt8) := fun _ => none
  pending : Nat → List UpdateInfo := fun _ => []
  /-- The named payloads that were published and not yet acknowledged, with their nodes. -/
  inFlight : List (Nat × List Item) := []
  acked : List (Nat × List Item) := []
  timer : Bool := false
  queued : Nat := 0
  running : Option RunningReport := none
  stopped : Bool := false

/-- The answers inside a mark: the allocation of a new entry and `esp_rmaker_backoff_fire`. -/
structure MarkEnv where
  timestampMs : Nat := 0
  allocated : Bool := true
  fired : Bool := true
  deriving DecidableEq, Repr

/-- The answers inside a full report. `online` and `ncfgVer` are the values that it reads for the
node, `none` where there is none. -/
structure FullEnv where
  listed : Bool := true
  online : Option Bool := none
  onlineEnv : MarkEnv := {}
  ncfgVer : Option (List UInt8) := none
  ncfgVerEnv : MarkEnv := {}
  timestampMs : Nat := 0
  allocated : Nat → Bool := fun _ => true
  fired : Bool := true

/-- The answers while a node is published. `built` covers both passes and the allocations. -/
structure VisitEnv where
  built : Bool := true
  named : Bool := true
  hasIndexed : Bool := false
  indexed : Bool := true
  deriving DecidableEq, Repr

namespace ReportState

/-- A new pending list of a node. -/
def setPending (s : ReportState) (n : Nat) (l : List UpdateInfo) : ReportState :=
  { s with pending := Function.update s.pending n l }

/-- `esp_rmaker_backoff_fire`. -/
def fire (s : ReportState) (fired : Bool) : ReportState := { s with timer := s.timer || fired }

/-- `esp_rmaker_state_mark_for_update`, after the parameter took the value. -/
def markForUpdate (s : ReportState) (n : Nat) (u : UpdateId) (v : Val) (env : MarkEnv) :
    ReportState :=
  let r := insertParam u env.timestampMs env.allocated (s.pending n)
  let s := { s.setPending n r.1 with
    val := Function.update s.val n (Function.update (s.val n) u v) }
  if r.2 = .noMem then s
  else { s with marked := Function.update s.marked n (u :: s.marked n) }.fire env.fired

/-- The history of a synthetic value. -/
def note (s : ReportState) (n : Nat) : Item → ReportState
  | .param _ _ => s
  | .online b => { s with online := Function.update s.online n (some b) }
  | .ncfgVer hash => { s with ncfgVer := Function.update s.ncfgVer n (some hash) }

/-- `__insert_into_node_locked_full` for a synthetic entry, and whether it is in the list. -/
def insertSynthetic (s : ReportState) (n flags : Nat) (payload : FlagPayload) (env : MarkEnv) :
    Bool × ReportState :=
  let r := insertFlag flags payload env.timestampMs env.allocated (s.pending n)
  if r.2 = .noMem then (false, s.setPending n r.1)
  else (true, (s.setPending n r.1).note n (flagItem flags payload))

/-- `esp_rmaker_state_mark_for_update_online_for_node` and
`esp_rmaker_state_mark_for_update_ncfg_ver_for_node`. -/
def markSynthetic (s : ReportState) (n flags : Nat) (payload : FlagPayload) (env : MarkEnv) :
    ReportState :=
  let r := s.insertSynthetic n flags payload env
  if r.1 then r.2.fire env.fired else r.2

/-- A synthetic value of a full report. For a child it is marked, with a report of its own. -/
def stage (s : ReportState) (n flags : Nat) (payload : FlagPayload) (env : MarkEnv) : ReportState :=
  if n = selfNode then (s.insertSynthetic n flags payload env).2
  else s.markSynthetic n flags payload env

/-- The synthetic values of a full report. -/
def stageSynthetics (s : ReportState) (n : Nat) (env : FullEnv) : ReportState :=
  let s :=
    match env.online with
    | none => s
    | some b => s.stage n flagOnline { onlineValue := b } env.onlineEnv
  match env.ncfgVer with
  | none => s
  | some hash => s.stage n flagNcfgVer { ncfgVerHash := hash } env.ncfgVerEnv

/-- The loop of `__populate_full_state_for_node` from the parameter with the index `i` on. -/
def insertAll (env : FullEnv) : Nat → List UpdateId → List UpdateInfo → Bool × List UpdateInfo
  | _, [], l => (true, l)
  | i, u :: us, l =>
    let r := insertParam u env.timestampMs (env.allocated i) l
    if r.2 = .noMem then (false, r.1) else insertAll env (i + 1) us r.1

/-- `__populate_full_state_for_node`. -/
def populateFullState (cfg : ReportConfig) (s : ReportState) (n : Nat) (env : FullEnv) :
    Bool × ReportState :=
  if !env.listed then (false, s)
  else
    let s := s.stageSynthetics n env
    let r := insertAll env 0 (cfg.params n) (s.pending n)
    (r.1, s.setPending n r.2)

/-- `esp_rmaker_state_schedule_report_for_node`. -/
def scheduleReport (cfg : ReportConfig) (s : ReportState) (n : Nat) (reportAll : Bool)
    (env : FullEnv) : ReportState :=
  let r := if reportAll then s.populateFullState cfg n env else (true, s)
  if r.1 then r.2.fire env.fired else r.2

/-- `__state_report_scheduler_task`. -/
def queueReport (s : ReportState) (added : Bool) : ReportState :=
  { s with timer := false, queued := s.queued + if added then 1 else 0 }

/-- `esp_rmaker_state_report`. -/
def report (cfg : ReportConfig) (s : ReportState) (reportAll : Bool) (env : FullEnv)
    (added : Bool) : ReportState :=
  let r := if reportAll then s.populateFullState cfg selfNode env else (true, s)
  if r.1 then r.2.queueReport added else r.2

/-- `__publish_node_locked`, and whether a publish failed. -/
def publishNode (s : ReportState) (n : Nat) (env : VisitEnv) : Bool × ReportState :=
  if (s.pending n).isEmpty || !env.built then (false, s)
  else
    let published :=
      if env.named then
        { s with inFlight := s.inFlight ++ [(n, items (s.val n) (s.pending n))] }
      else s
    if env.named && (!env.hasIndexed || env.indexed) then (false, published.setPending n [])
    else (true, published)

end ReportState

/-- What happens next, and what the environment answers inside it. -/
inductive ReportAction
  | markForUpdate (n : Nat) (u : UpdateId) (v : Val) (env : MarkEnv)
  | markOnline (n : Nat) (value : Bool) (env : MarkEnv)
  | markNcfgVer (n : Nat) (hash : List UInt8) (env : MarkEnv)
  /-- `esp_rmaker_state_schedule_report_for_node`. A refused indexed payload schedules one too. -/
  | schedule (n : Nat) (reportAll : Bool) (env : FullEnv)
  /-- `esp_rmaker_state_report`. -/
  | report (reportAll : Bool) (env : FullEnv) (added : Bool)
  /-- The report timer expires. -/
  | expire (added : Bool)
  /-- The work queue starts a report task. `ready` tells which children are visited. -/
  | begin (ready : Nat → Bool)
  /-- The task visits its next node. -/
  | visit (env : VisitEnv)
  /-- The task ends. -/
  | finish (retried : Bool)
  /-- A named payload is acknowledged. -/
  | ack (i : Nat) (success : Bool) (env : FullEnv)
  /-- `esp_rmaker_state_stop_reporting`. -/
  | stop
  | resume

/-- The next step. -/
def reportStep (cfg : ReportConfig) (s : ReportState) : ReportAction → Option ReportState
  | .markForUpdate n u v env =>
    if n ∈ cfg.nodes ∧ u ∈ cfg.params n then some (s.markForUpdate n u v env) else none
  | .markOnline n value env =>
    if n ∈ cfg.nodes then some (s.markSynthetic n flagOnline { onlineValue := value } env) else none
  | .markNcfgVer n hash env =>
    if n ∈ cfg.nodes then some (s.markSynthetic n flagNcfgVer { ncfgVerHash := hash } env) else none
  | .schedule n reportAll env =>
    if n ∈ cfg.nodes then some (s.scheduleReport cfg n reportAll env) else none
  | .report reportAll env added => some (s.report cfg reportAll env added)
  | .expire added => if s.timer then some (s.queueReport added) else none
  | .begin ready =>
    if 0 < s.queued ∧ s.running.isNone then
      -- While reporting is stopped, the task returns at once.
      let running := if s.stopped then none else some ⟨selfNode :: cfg.children.filter ready, false⟩
      some { s with queued := s.queued - 1, running }
    else none
  | .visit env =>
    match s.running with
    | some ⟨n :: rest, failed⟩ =>
      let r := s.publishNode n env
      some { r.2 with running := some ⟨rest, failed || r.1⟩ }
    | _ => none
  | .finish retried =>
    match s.running with
    | some ⟨[], failed⟩ =>
      let s := { s with running := none }
      some (if failed then s.fire retried else { s with timer := false })
    | _ => none
  | .ack i success env =>
    match s.inFlight[i]? with
    | none => none
    | some payload =>
      let s := { s with inFlight := s.inFlight.eraseIdx i }
      some (if success then { s with acked := payload :: s.acked }
        else s.scheduleReport cfg selfNode true env)
  | .stop => some { s with timer := false, stopped := true }
  | .resume => if s.stopped then some { s with stopped := false } else none

/-- Nothing was marked. -/
def InitialReport (s : ReportState) : Prop := ∃ val, s = { val }

/-! ### What must not be lost -/

/-- A payload of the node in the list carries the field. -/
def carries (l : List (Nat × List Item)) (n : Nat) (item : Item) : Bool :=
  l.any fun payload => payload.1 = n ∧ item ∈ payload.2

namespace ReportState

variable {cfg : ReportConfig} {s : ReportState}

/-- The field has been marked, with the value that is current. -/
def Current (s : ReportState) (n : Nat) : Item → Prop
  | .param u v => u ∈ s.marked n ∧ s.val n u = v
  | .online b => s.online n = some b
  | .ncfgVer hash => s.ncfgVer n = some hash

instance (n : Nat) : ∀ item, Decidable (s.Current n item)
  | .param _ _ => inferInstanceAs (Decidable (_ ∧ _))
  | .online b => inferInstanceAs (Decidable (s.online n = some b))
  | .ncfgVer hash => inferInstanceAs (Decidable (s.ncfgVer n = some hash))

/-- The field is in the pending list of its node. -/
def Listed (s : ReportState) (n : Nat) (item : Item) : Prop := item ∈ items (s.val n) (s.pending n)

instance (n : Nat) (item : Item) : Decidable (s.Listed n item) :=
  inferInstanceAs (Decidable (item ∈ _))

/-- The report timer is armed, or a report task is queued or runs. -/
def active (s : ReportState) : Bool := s.timer || 0 < s.queued || s.running.isSome

/-- A report is on its way, or reporting is stopped. -/
def served (s : ReportState) : Bool := s.stopped || s.active

/-- The same without the timer. -/
def tasked (s : ReportState) : Bool := s.stopped || 0 < s.queued || s.running.isSome

/-- No node has a pending update. -/
def nonePending (cfg : ReportConfig) (s : ReportState) : Bool :=
  cfg.nodes.all fun n => (s.pending n).isEmpty

end ReportState

/-- Each current value of a marked field was acknowledged, or it is in flight, or it is pending and
a report is on its way. -/
def NoLostUpdate (s : ReportState) : Prop :=
  ∀ n item, s.Current n item → carries s.acked n item = true ∨ carries s.inFlight n item = true ∨
    (s.Listed n item ∧ s.active = true)

/-! ### The condition -/

/-- The full report has room for the parameters of the node. -/
def FullEnv.Stages (env : FullEnv) (cfg : ReportConfig) (n : Nat) : Prop :=
  env.listed = true ∧ ∀ i < (cfg.params n).length, env.allocated i = true

/-- The full report of the node tells the field again. -/
def FullEnv.Restages (env : FullEnv) (cfg : ReportConfig) (n : Nat) : Item → Prop
  | .param u _ => env.Stages cfg n ∧ u ∈ cfg.params n
  | .online _ => env.listed = true ∧ env.online.isSome = true ∧ env.onlineEnv.allocated = true
  | .ncfgVer _ => env.listed = true ∧ env.ncfgVer.isSome = true ∧ env.ncfgVerEnv.allocated = true

/-- A full report that is staged is scheduled, or a report is on its way. -/
def FullEnv.Scheduled (env : FullEnv) (cfg : ReportConfig) (s : ReportState) (n : Nat) : Prop :=
  s.served = true ∨ env.listed = false ∨ (env.Stages cfg n ∧ env.fired = true)

/-- What a step needs in order not to lose an update. -/
def Repairs (cfg : ReportConfig) (s : ReportState) : ReportAction → Prop
  | .markForUpdate n u _ env =>
    (env.allocated = true ∨ u ∈ updateIds (s.pending n) ∨ u ∉ s.marked n) ∧
      (s.served = true ∨ env.fired = true)
  | .markOnline _ _ env => s.served = true ∨ env.fired = true
  | .markNcfgVer _ _ env => s.served = true ∨ env.fired = true
  | .schedule n reportAll env => reportAll = true → env.Scheduled cfg s n
  | .report reportAll env added =>
    (reportAll = true → s.served = true ∨ env.listed = false ∨ env.Stages cfg selfNode) ∧
      (added = true ∨ s.tasked = true ∨ (reportAll = true ∧ env.listed = false) ∨
        (reportAll = false ∧ s.nonePending cfg = true))
  | .expire added => added = true ∨ s.tasked = true ∨ s.nonePending cfg = true
  | .finish retried =>
    (s.stopped = true ∨ 0 < s.queued) ∨ s.nonePending cfg = true ∨
      (s.running.any RunningReport.failedAnyPublish = true ∧ (s.timer = true ∨ retried = true))
  | .ack i success env =>
    success = true ∨
      (env.Scheduled cfg s selfNode ∧ ∀ payload ∈ s.inFlight[i]?, ∀ item ∈ payload.2,
        s.Current payload.1 item → s.Listed payload.1 item ∨
          carries s.acked payload.1 item = true ∨
            carries (s.inFlight.eraseIdx i) payload.1 item = true ∨
              (payload.1 = selfNode ∧ env.Restages cfg selfNode item))
  | .resume => s.active = true ∨ s.nonePending cfg = true
  | _ => True

instance (env : FullEnv) (cfg : ReportConfig) (n : Nat) : Decidable (env.Stages cfg n) :=
  inferInstanceAs (Decidable (_ ∧ ∀ i < _, _))

instance (env : FullEnv) (cfg : ReportConfig) (n : Nat) :
    ∀ item, Decidable (env.Restages cfg n item)
  | .param u _ => inferInstanceAs (Decidable (_ ∧ u ∈ cfg.params n))
  | .online _ => inferInstanceAs (Decidable (_ ∧ _ ∧ _))
  | .ncfgVer _ => inferInstanceAs (Decidable (_ ∧ _ ∧ _))

instance (env : FullEnv) (cfg : ReportConfig) (s : ReportState) (n : Nat) :
    Decidable (env.Scheduled cfg s n) :=
  inferInstanceAs (Decidable (_ ∨ _ ∨ _))

instance (cfg : ReportConfig) (s : ReportState) : ∀ a, Decidable (Repairs cfg s a)
  | .markForUpdate _ _ _ _ => inferInstanceAs (Decidable (_ ∧ _))
  | .markOnline _ _ _ => inferInstanceAs (Decidable (_ ∨ _))
  | .markNcfgVer _ _ _ => inferInstanceAs (Decidable (_ ∨ _))
  | .schedule n reportAll env =>
    inferInstanceAs (Decidable (reportAll = true → env.Scheduled cfg s n))
  | .report _ _ _ => inferInstanceAs (Decidable (_ ∧ _))
  | .expire _ => inferInstanceAs (Decidable (_ ∨ _))
  | .begin _ => inferInstanceAs (Decidable True)
  | .visit _ => inferInstanceAs (Decidable True)
  | .finish _ => inferInstanceAs (Decidable (_ ∨ _))
  | .ack i success env =>
    inferInstanceAs (Decidable (success = true ∨
      (env.Scheduled cfg s selfNode ∧ ∀ payload ∈ s.inFlight[i]?, ∀ item ∈ payload.2,
        s.Current payload.1 item → s.Listed payload.1 item ∨
          carries s.acked payload.1 item = true ∨
            carries (s.inFlight.eraseIdx i) payload.1 item = true ∨
              (payload.1 = selfNode ∧ env.Restages cfg selfNode item))))
  | .stop => inferInstanceAs (Decidable True)
  | .resume => inferInstanceAs (Decidable (_ ∨ _))

/-! ### What a step keeps -/

variable {n : Nat} {env : FullEnv}

theorem carries_iff {l : List (Nat × List Item)} {item : Item} :
    carries l n item = true ↔ ∃ payload ∈ l, payload.1 = n ∧ item ∈ payload.2 := by
  rw [carries, List.any_eq_true]
  simp only [decide_eq_true_eq]

theorem carries_append {l l' : List (Nat × List Item)} {item : Item} :
    carries (l ++ l') n item = (carries l n item || carries l' n item) := List.any_append

namespace ReportState

variable {cfg : ReportConfig} {s t : ReportState}

/-- Each current field was acknowledged, or it is in flight or pending, or `P` holds of it. -/
def ToldOr (P : Nat → Item → Prop) (s : ReportState) : Prop :=
  ∀ n item, s.Current n item → carries s.acked n item = true ∨ carries s.inFlight n item = true ∨
    s.Listed n item ∨ P n item

/-- The fields that a new list of a node does not touch. -/
structure Restaged (n : Nat) (s t : ReportState) : Prop where
  val : t.val = s.val
  marked : t.marked = s.marked
  inFlight : t.inFlight = s.inFlight
  acked : t.acked = s.acked
  served : s.served = true → t.served = true
  tasked : t.tasked = s.tasked
  stopped : t.stopped = s.stopped
  others : ∀ m, m ≠ n → t.pending m = s.pending m

theorem Restaged.refl (n : Nat) (s : ReportState) : Restaged n s s :=
  ⟨rfl, rfl, rfl, rfl, id, rfl, rfl, fun _ _ => rfl⟩

variable {n flags i : Nat} {P : Nat → Item → Prop} {l : List UpdateInfo} {env : FullEnv}

theorem Restaged.trans {u : ReportState} (h : Restaged n s t) (h' : Restaged n t u) :
    Restaged n s u where
  val := h'.val.trans h.val
  marked := h'.marked.trans h.marked
  inFlight := h'.inFlight.trans h.inFlight
  acked := h'.acked.trans h.acked
  served hs := h'.served (h.served hs)
  tasked := h'.tasked.trans h.tasked
  stopped := h'.stopped.trans h.stopped
  others m hm := (h'.others m hm).trans (h.others m hm)

theorem restaged_setPending (s : ReportState) (n : Nat) (l : List UpdateInfo) :
    Restaged n s (s.setPending n l) := by
  refine ⟨rfl, rfl, rfl, rfl, id, rfl, rfl, ?_⟩
  intro m hm
  exact Function.update_of_ne hm l s.pending

theorem served_fire (s : ReportState) (fired : Bool) (h : s.served = true ∨ fired = true) :
    (s.fire fired).served = true := by
  show (s.stopped || (s.timer || fired || decide (0 < s.queued) || s.running.isSome)) = true
  rcases h with h | rfl
  · rw [served, active] at h
    cases fired with
    | true => simp
    | false => rwa [Bool.or_false]
  · simp

theorem restaged_fire (n : Nat) (s : ReportState) (fired : Bool) : Restaged n s (s.fire fired) :=
  ⟨rfl, rfl, rfl, rfl, fun h => s.served_fire fired (.inl h), rfl, rfl, fun _ _ => rfl⟩

theorem restaged_note (n : Nat) (s : ReportState) (item : Item) : Restaged n s (s.note n item) := by
  cases item <;> exact ⟨rfl, rfl, rfl, rfl, id, rfl, rfl, fun _ _ => rfl⟩

theorem restaged_insertSynthetic (s : ReportState) (n flags : Nat) (payload : FlagPayload)
    (env : MarkEnv) : Restaged n s (s.insertSynthetic n flags payload env).2 := by
  rw [insertSynthetic]
  split
  · exact restaged_setPending s n _
  · exact (restaged_setPending s n _).trans (restaged_note n _ _)

theorem restaged_markSynthetic (s : ReportState) (n flags : Nat) (payload : FlagPayload)
    (env : MarkEnv) : Restaged n s (s.markSynthetic n flags payload env) := by
  rw [markSynthetic]
  split
  · exact (restaged_insertSynthetic s n flags payload env).trans (restaged_fire n _ _)
  · exact restaged_insertSynthetic s n flags payload env

theorem restaged_stage (s : ReportState) (n flags : Nat) (payload : FlagPayload) (env : MarkEnv) :
    Restaged n s (s.stage n flags payload env) := by
  rw [stage]
  split
  · exact restaged_insertSynthetic s n flags payload env
  · exact restaged_markSynthetic s n flags payload env

theorem restaged_stageSynthetics (s : ReportState) (n : Nat) (env : FullEnv) :
    Restaged n s (s.stageSynthetics n env) := by
  rw [stageSynthetics]
  cases env.online with
  | none =>
    cases env.ncfgVer with
    | none => exact .refl n s
    | some hash => exact restaged_stage s n _ _ _
  | some b =>
    cases env.ncfgVer with
    | none => exact restaged_stage s n _ _ _
    | some hash => exact (restaged_stage s n _ _ _).trans (restaged_stage _ n _ _ _)

theorem restaged_populateFullState (cfg : ReportConfig) (s : ReportState) (n : Nat) (env : FullEnv) :
    Restaged n s (s.populateFullState cfg n env).2 := by
  rw [populateFullState]
  split
  · exact .refl n s
  · exact (restaged_stageSynthetics s n env).trans (restaged_setPending _ n _)

/-! ### What stays told -/

/-- A list that tells at least as much. -/
theorem ToldOr.setPending (h : ToldOr P s)
    (hl : ∀ item, s.Listed n item → item ∈ items (s.val n) l) : ToldOr P (s.setPending n l) := by
  intro m item hcurrent
  refine (h m item (by cases item <;> exact hcurrent)).imp id (Or.imp id (Or.imp ?_ id))
  intro hlisted
  show item ∈ items (s.val m) (Function.update s.pending n l m)
  by_cases hm : m = n
  · subst hm
    rw [Function.update_self]
    exact hl item hlisted
  · rw [Function.update_of_ne hm]
    exact hlisted

theorem ToldOr.fire (h : ToldOr P s) (fired : Bool) : ToldOr P (s.fire fired) :=
  fun n item hcurrent => h n item (by cases item <;> exact hcurrent)

@[simp] theorem pending_note (s : ReportState) (n : Nat) (item : Item) :
    (s.note n item).pending = s.pending := by cases item <;> rfl

/-- After a synthetic value is noted, it is current, and of the others those that it does not
replace. -/
theorem current_note {m : Nat} {new item : Item} (hnew : new.flag ≠ none)
    (h : (s.note n new).Current m item) :
    (m = n ∧ item = new) ∨ (s.Current m item ∧ ¬(m = n ∧ item.flag = new.flag)) := by
  by_cases hm : m = n
  · subst hm
    cases new with
    | param u v => exact absurd rfl hnew
    | online b =>
      cases item with
      | online b' =>
        have hupdate : Function.update s.online m (some b) m = some b' := h
        rw [Function.update_self] at hupdate
        exact .inl ⟨rfl, congrArg Item.online (Option.some.inj hupdate).symm⟩
      | param u v => exact .inr ⟨h, nofun⟩
      | ncfgVer hash => exact .inr ⟨h, fun heq => nomatch heq.2⟩
    | ncfgVer hash =>
      cases item with
      | ncfgVer hash' =>
        have hupdate : Function.update s.ncfgVer m (some hash) m = some hash' := h
        rw [Function.update_self] at hupdate
        exact .inl ⟨rfl, congrArg Item.ncfgVer (Option.some.inj hupdate).symm⟩
      | param u v => exact .inr ⟨h, nofun⟩
      | online b => exact .inr ⟨h, fun heq => nomatch heq.2⟩
  · refine .inr ⟨?_, fun heq => hm heq.1⟩
    cases new with
    | param u v => exact h
    | online b =>
      cases item with
      | online b' =>
        have hupdate : Function.update s.online n (some b) m = some b' := h
        rwa [Function.update_of_ne hm] at hupdate
      | param u v => exact h
      | ncfgVer hash => exact h
    | ncfgVer hash =>
      cases item with
      | ncfgVer hash' =>
        have hupdate : Function.update s.ncfgVer n (some hash) m = some hash' := h
        rwa [Function.update_of_ne hm] at hupdate
      | param u v => exact h
      | online b => exact h

/-- The flags of a synthetic entry. -/
def Synthetic (flags : Nat) : Prop := flags = flagOnline ∨ flags = flagNcfgVer

theorem flag_flagItem (hflags : Synthetic flags) (payload : FlagPayload) :
    (flagItem flags payload).flag = some flags := by
  rcases hflags with rfl | rfl <;> rfl

section
variable (h : ToldOr P s)
include h

theorem ToldOr.mono {Q : Nat → Item → Prop} (hPQ : ∀ n item, P n item → Q n item) : ToldOr Q s :=
  fun n item hcurrent => (h n item hcurrent).imp id (Or.imp id (Or.imp id (hPQ n item)))

/-- A synthetic entry takes the place of the one before it only, and its value is pending. -/
theorem ToldOr.insertSynthetic (n : Nat) (hflags : Synthetic flags) (payload : FlagPayload)
    (env : MarkEnv) :
    ToldOr (fun m item => P m item ∧ ¬(env.allocated = true ∧ m = n ∧ item.flag = some flags))
      (s.insertSynthetic n flags payload env).2 := by
  rw [ReportState.insertSynthetic]
  split
  · next hfull =>
    have hallocated : env.allocated ≠ true := by
      intro hallocated
      rw [hallocated] at hfull
      exact insertFlag_ne_noMem flags payload _ _ hfull
    rw [insertFlag_noMem hfull]
    exact (h.setPending fun item hlisted => hlisted).mono
      fun m item hP => ⟨hP, fun hdrop => hallocated hdrop.1⟩
  · next hinserted =>
    have hflag := flag_flagItem hflags payload
    have hrestaged := (restaged_setPending s n
      (insertFlag flags payload env.timestampMs env.allocated (s.pending n)).1).trans
        (restaged_note n _ (flagItem flags payload))
    intro m item hcurrent
    rcases current_note (by rw [hflag]; exact Option.some_ne_none flags) hcurrent with
      ⟨rfl, rfl⟩ | ⟨hold, hother⟩
    · refine .inr (.inr (.inl ?_))
      rw [Listed, pending_note, hrestaged.val]
      show _ ∈ items _ (Function.update s.pending m _ m)
      rw [Function.update_self]
      exact mem_insertFlag hflags hinserted
    · rw [hrestaged.acked, hrestaged.inFlight]
      rw [hflag] at hother
      refine (h m item (by cases item <;> exact hold)).imp id (Or.imp id (Or.imp ?_ ?_))
      · intro hlisted
        rw [Listed, hrestaged.val, pending_note]
        show _ ∈ items _ (Function.update s.pending n _ m)
        by_cases hm : m = n
        · subst hm
          rw [Function.update_self]
          exact items_insertFlag hflags (fun heq => hother ⟨rfl, heq⟩) hlisted
        · rw [Function.update_of_ne hm]
          exact hlisted
      · exact fun hP => ⟨hP, fun hdrop => hother hdrop.2⟩

theorem ToldOr.markSynthetic (n : Nat) (hflags : Synthetic flags) (payload : FlagPayload)
    (env : MarkEnv) :
    ToldOr (fun m item => P m item ∧ ¬(env.allocated = true ∧ m = n ∧ item.flag = some flags))
      (s.markSynthetic n flags payload env) := by
  rw [ReportState.markSynthetic]
  split
  · exact (h.insertSynthetic n hflags payload env).fire env.fired
  · exact h.insertSynthetic n hflags payload env

theorem ToldOr.stage (n : Nat) (hflags : Synthetic flags) (payload : FlagPayload) (env : MarkEnv) :
    ToldOr (fun m item => P m item ∧ ¬(env.allocated = true ∧ m = n ∧ item.flag = some flags))
      (s.stage n flags payload env) := by
  rw [ReportState.stage]
  split
  · exact h.insertSynthetic n hflags payload env
  · exact h.markSynthetic n hflags payload env

/-- After the synthetic values of a full report, those that it has read are pending. -/
theorem ToldOr.stageSynthetics (n : Nat) (env : FullEnv) :
    ToldOr (fun m item => P m item ∧
        ¬(env.online.isSome = true ∧ env.onlineEnv.allocated = true ∧ m = n ∧
          item.flag = some flagOnline) ∧
        ¬(env.ncfgVer.isSome = true ∧ env.ncfgVerEnv.allocated = true ∧ m = n ∧
          item.flag = some flagNcfgVer)) (s.stageSynthetics n env) := by
  rw [ReportState.stageSynthetics]
  cases env.online with
  | none =>
    cases env.ncfgVer with
    | none => exact h.mono fun m item hP => ⟨hP, nofun, nofun⟩
    | some hash =>
      exact (h.stage n (.inr rfl) _ _).mono fun m item hP => ⟨hP.1, nofun, fun hdrop => hP.2 hdrop.2⟩
  | some b =>
    cases env.ncfgVer with
    | none =>
      exact (h.stage n (.inl rfl) _ _).mono fun m item hP => ⟨hP.1, fun hdrop => hP.2 hdrop.2, nofun⟩
    | some hash =>
      exact ((h.stage n (.inl rfl) _ _).stage n (.inr rfl) _ _).mono fun m item hP =>
        ⟨hP.1.1, fun hdrop => hP.1.2 hdrop.2, fun hdrop => hP.2 hdrop.2⟩

end

/-- The loop of a full report keeps what the list tells. -/
theorem items_insertAll {val : UpdateId → Val} {us : List UpdateId} {item : Item}
    (h : item ∈ items val l) : item ∈ items val (insertAll env i us l).2 := by
  induction us generalizing i l with
  | nil => exact h
  | cons u us ih =>
    rw [insertAll]
    split
    · exact items_insertParam h
    · exact ih (items_insertParam h)

/-- With room for its entries, the loop stages each parameter. -/
theorem insertAll_stages {us : List UpdateId} (h : ∀ j < us.length, env.allocated (i + j) = true) :
    (insertAll env i us l).1 = true ∧ ∀ u ∈ us, u ∈ updateIds (insertAll env i us l).2 := by
  induction us generalizing i l with
  | nil => exact ⟨rfl, nofun⟩
  | cons u us ih =>
    have hallocated : env.allocated i = true := h 0 (Nat.succ_pos _)
    have hrest : ∀ j < us.length, env.allocated (i + 1 + j) = true := by
      intro j hj
      rw [Nat.add_assoc, Nat.add_comm 1 j]
      exact h (j + 1) (Nat.succ_lt_succ hj)
    rw [insertAll, hallocated, if_neg (insertParam_ne_noMem u _ l)]
    obtain ⟨hok, hstaged⟩ := ih hrest
    refine ⟨hok, List.forall_mem_cons.mpr ⟨?_, hstaged⟩⟩
    have hmem : u ∈ updateIds (insertParam u env.timestampMs true l).1 :=
      mem_insertParam (.inl (insertParam_ne_noMem u _ l))
    have hitem : Item.param u .invalid ∈ items (fun _ => .invalid)
        (insertParam u env.timestampMs true l).1 := param_mem_items.mpr ⟨hmem, rfl⟩
    exact (param_mem_items.mp (items_insertAll hitem)).1

/-- The end of a full report. -/
theorem ToldOr.fireIf {r : Bool × ReportState} (h : ToldOr P r.2) (fired : Bool) :
    ToldOr P (if r.1 then r.2.fire fired else r.2) := by
  split
  · exact h.fire fired
  · exact h

/-- A full report keeps what is told. -/
theorem ToldOr.populateFullState (h : ToldOr P s) (n : Nat) (env : FullEnv) :
    ToldOr P (s.populateFullState cfg n env).2 := by
  rw [ReportState.populateFullState]
  split
  · exact h
  · exact ((h.stageSynthetics n env).mono fun m item hP => hP.1).setPending
      fun item hlisted => items_insertAll hlisted

/-- A full report tells the fields that it restages. -/
theorem ToldOr.restage (h : ToldOr (fun m item => m = n ∧ env.Restages cfg n item) s) :
    ToldOr (fun _ _ => False) (s.populateFullState cfg n env).2 := by
  rw [ReportState.populateFullState]
  split
  · next hlisted =>
    rw [Bool.not_eq_true'] at hlisted
    refine h.mono ?_
    rintro m item ⟨-, hrestages⟩
    cases item with
    | param u v => exact absurd (hlisted.symm.trans hrestages.1.1) nofun
    | online b => exact absurd (hlisted.symm.trans hrestages.1) nofun
    | ncfgVer hash => exact absurd (hlisted.symm.trans hrestages.1) nofun
  · have hrestaged := restaged_stageSynthetics s n env
    have hstaged := (h.stageSynthetics n env).setPending (n := n)
      (l := (insertAll env 0 (cfg.params n) ((s.stageSynthetics n env).pending n)).2)
      fun item hlisted => items_insertAll hlisted
    intro m item hcurrent
    refine (hstaged m item hcurrent).imp id (Or.imp id fun hor => .inl (hor.elim id ?_))
    rintro ⟨⟨rfl, hrestages⟩, honline, hncfg⟩
    cases item with
    | param u v =>
      obtain ⟨⟨-, hroom⟩, hmem⟩ := hrestages
      have hin := (insertAll_stages (l := (s.stageSynthetics m env).pending m)
        (fun j hj => (Nat.zero_add j).symm ▸ hroom j hj)).2 u hmem
      show Item.param u v ∈ items _ (Function.update (s.stageSynthetics m env).pending m _ m)
      rw [Function.update_self]
      exact param_mem_items.mpr ⟨hin, hcurrent.2.symm⟩
    | online b => exact absurd ⟨hrestages.2.1, hrestages.2.2, rfl, rfl⟩ honline
    | ncfgVer hash => exact absurd ⟨hrestages.2.1, hrestages.2.2, rfl, rfl⟩ hncfg

/-- A mark of a parameter with the value `v`. -/
theorem ToldOr.markForUpdate (h : ToldOr P s) {u : UpdateId} (v : Val) {env : MarkEnv}
    (hroom : env.allocated = true ∨ u ∈ updateIds (s.pending n) ∨ u ∉ s.marked n) :
    ToldOr P (s.markForUpdate n u v env) := by
  let r := insertParam u env.timestampMs env.allocated (s.pending n)
  -- The parameter itself is pending where it is a marked one.
  have hnew : ∀ marked : List UpdateId, (r.2 = .noMem → marked = s.marked n) → u ∈ marked →
      u ∈ updateIds r.1 := by
    intro marked hmarked hmem
    by_cases hfull : r.2 = .noMem
    · refine mem_insertParam (.inr ?_)
      rw [hmarked hfull] at hmem
      rcases hroom with hallocated | hlisted | hunmarked
      · refine absurd hfull ?_
        show (insertParam u env.timestampMs env.allocated (s.pending n)).2 ≠ .noMem
        rw [hallocated]
        exact insertParam_ne_noMem u _ _
      · exact hlisted
      · exact absurd hmem hunmarked
    · exact mem_insertParam (.inl hfull)
  -- The other fields keep their values and their entries.
  have hold : ∀ m item, s.Current m item → (∀ x, m = n → item ≠ .param u x) →
      carries s.acked m item = true ∨ carries s.inFlight m item = true ∨
        item ∈ items (Function.update s.val n (Function.update (s.val n) u v) m)
          (Function.update s.pending n r.1 m) ∨ P m item := by
    intro m item hcurrent hother
    refine (h m item hcurrent).imp id (Or.imp id (Or.imp ?_ id))
    intro hlisted
    by_cases hm : m = n
    · subst hm
      rw [Function.update_self, Function.update_self]
      have hin : item ∈ items (s.val m) r.1 := items_insertParam hlisted
      cases item with
      | param w x =>
        have hw : w ≠ u := fun hw => hother x rfl (hw ▸ rfl)
        obtain ⟨hmem, hx⟩ := param_mem_items.mp hin
        exact param_mem_items.mpr ⟨hmem, hx.trans (Function.update_of_ne hw v (s.val m)).symm⟩
      | online b => exact flag_mem_items (show (Item.online b).flag ≠ none from nofun) _ hin
      | ncfgVer hash => exact flag_mem_items (show (Item.ncfgVer hash).flag ≠ none from nofun) _ hin
    · rw [Function.update_of_ne hm, Function.update_of_ne hm]
      exact hlisted
  have hall : ∀ marked : Nat → List UpdateId, (r.2 = .noMem → marked n = s.marked n) →
      (∀ m w, w ∈ marked m → w ∈ s.marked m ∨ (m = n ∧ w = u)) →
        ToldOr P { s.setPending n r.1 with
          val := Function.update s.val n (Function.update (s.val n) u v)
          marked } := by
    intro marked hkept hmarked m item hcurrent
    by_cases hitem : m = n ∧ ∃ x, item = .param u x
    · obtain ⟨rfl, x, rfl⟩ := hitem
      refine .inr (.inr (.inl (param_mem_items.mpr ⟨?_, hcurrent.2.symm⟩)))
      show u ∈ updateIds (Function.update s.pending m r.1 m)
      rw [Function.update_self]
      exact hnew (marked m) hkept hcurrent.1
    · refine hold m item ?_ fun x hm heq => hitem ⟨hm, x, heq⟩
      cases item with
      | param w x =>
        have hne : ¬(m = n ∧ w = u) := fun heq => hitem ⟨heq.1, x, heq.2 ▸ rfl⟩
        refine ⟨(hmarked m w hcurrent.1).resolve_right hne, hcurrent.2 ▸ ?_⟩
        show s.val m w = Function.update s.val n (Function.update (s.val n) u v) m w
        by_cases hm : m = n
        · subst hm
          rw [Function.update_self, Function.update_of_ne fun hw => hne ⟨rfl, hw⟩]
        · rw [Function.update_of_ne hm]
      | online b => exact hcurrent
      | ncfgVer hash => exact hcurrent
  rw [ReportState.markForUpdate]
  split
  · exact hall s.marked (fun _ => rfl) fun m w hmem => .inl hmem
  · next hok =>
    refine (hall (Function.update s.marked n (u :: s.marked n)) (fun hfull => absurd hfull hok)
      ?_).fire env.fired
    intro m w hmem
    by_cases hm : m = n
    · subst hm
      rw [Function.update_self] at hmem
      rcases List.mem_cons.mp hmem with hw | hmem
      · exact .inr ⟨rfl, hw⟩
      · exact .inl hmem
    · rw [Function.update_of_ne hm] at hmem
      exact .inl hmem

/-- A publish empties the list of its node, or it leaves the lists alone. -/
theorem pending_publishNode (s : ReportState) (n : Nat) (env : VisitEnv) :
    (s.publishNode n env).2.pending = s.pending ∨
      (s.publishNode n env).2.pending = Function.update s.pending n [] := by
  rw [ReportState.publishNode]
  split
  · exact .inl rfl
  · cases env.named with
    | false => exact .inl rfl
    | true =>
      cases (!env.hasIndexed || env.indexed) with
      | true => exact .inr rfl
      | false => exact .inl rfl

/-- A published list is in flight. -/
theorem ToldOr.publishNode (h : ToldOr P s) (n : Nat) (env : VisitEnv) :
    ToldOr P (s.publishNode n env).2 := by
  rw [ReportState.publishNode]
  split
  · exact h
  · cases hnamed : env.named with
    | false => exact h
    | true =>
      have hpublished : ∀ l : List UpdateInfo, (∀ m item, s.Listed m item →
          m = n ∨ item ∈ items (s.val m) (Function.update s.pending n l m)) →
            ToldOr P { s.setPending n l with
              inFlight := s.inFlight ++ [(n, items (s.val n) (s.pending n))] } := by
        intro l hl m item hcurrent
        show _ ∨ carries (s.inFlight ++ _) m item = true ∨ _
        rw [carries_append, Bool.or_eq_true]
        rcases h m item (by cases item <;> exact hcurrent) with hacked | hflight | hlisted | hP
        · exact .inl hacked
        · exact .inr (.inl (.inl hflight))
        · rcases hl m item hlisted with rfl | hkept
          · exact .inr (.inl (.inr (carries_iff.mpr ⟨_, List.mem_singleton_self _, rfl, hlisted⟩)))
          · exact .inr (.inr (.inl hkept))
        · exact .inr (.inr (.inr hP))
      simp only [if_true, Bool.true_and]
      split
      · exact hpublished [] fun m item hlisted => by
          by_cases hm : m = n
          · exact .inl hm
          · rw [Function.update_of_ne hm]
            exact .inr hlisted
      · have hsame := hpublished (s.pending n) fun m item hlisted => .inr (by
          rw [Function.update_eq_self]
          exact hlisted)
        rw [ReportState.setPending, Function.update_eq_self] at hsame
        exact hsame

theorem mem_eraseIdx_or {α : Type*} {l : List α} {x y : α} (hx : l[i]? = some x) (hy : y ∈ l) :
    y = x ∨ y ∈ l.eraseIdx i := by
  induction l generalizing i with
  | nil => cases hy
  | cons z l ih =>
    cases i with
    | zero =>
      obtain rfl := Option.some.inj hx
      exact List.mem_cons.mp hy
    | succ i =>
      rw [List.eraseIdx_cons_succ, List.mem_cons]
      rcases List.mem_cons.mp hy with rfl | hy
      · exact .inr (.inl rfl)
      · exact (ih hx hy).imp id .inr

/-- A payload that leaves the list takes at most its own fields with it. -/
theorem carries_eraseIdx {l : List (Nat × List Item)} {payload : Nat × List Item}
    (hi : l[i]? = some payload) {item : Item} (h : carries l n item = true) :
    (payload.1 = n ∧ item ∈ payload.2) ∨ carries (l.eraseIdx i) n item = true := by
  obtain ⟨other, hmem, hcarries⟩ := carries_iff.mp h
  rcases mem_eraseIdx_or hi hmem with rfl | hmem
  · exact .inl hcarries
  · exact .inr (carries_iff.mpr ⟨other, hmem, hcarries⟩)

/-! ### What moves the pending updates on -/

/-- No node has a pending update, or a report is on its way. -/
def Served (s : ReportState) : Prop := s.served = true ∨ ∀ n, s.pending n = []

/-- The pending updates are those of the nodes. -/
def InNodes (cfg : ReportConfig) (s : ReportState) : Prop :=
  ∀ n, s.pending n ≠ [] → n ∈ cfg.nodes

theorem pending_of_nonePending (h : InNodes cfg s) (hnone : s.nonePending cfg = true) (n : Nat) :
    s.pending n = [] := by
  by_contra hne
  exact hne (List.isEmpty_iff.mp (List.all_eq_true.mp hnone n (h n hne)))

theorem served_of_tasked (h : s.tasked = true) : s.served = true := by
  rw [tasked] at h
  rw [served, active]
  simp only [Bool.or_eq_true] at h ⊢
  tauto

theorem served_of_active (h : s.active = true) : s.served = true := by
  rw [served, h, Bool.or_true]

theorem InNodes.of_restaged (h : InNodes cfg s) (ht : Restaged n s t) (hn : n ∈ cfg.nodes) :
    InNodes cfg t := by
  intro m hm
  by_cases heq : m = n
  · exact heq ▸ hn
  · exact h m (ht.others m heq ▸ hm)

/-- A list that takes the place of an equal one. -/
theorem setPending_self (s : ReportState) (h : l = s.pending n) : s.setPending n l = s := by
  rw [h, setPending, Function.update_eq_self]

theorem Served.markForUpdate (h : Served s) {u : UpdateId} {v : Val} {env : MarkEnv}
    (hfired : s.served = true ∨ env.fired = true) : Served (s.markForUpdate n u v env) := by
  rw [ReportState.markForUpdate]
  split
  · next hfull =>
    rw [insertParam_noMem hfull, setPending_self s rfl]
    exact h
  · exact .inl (served_fire _ env.fired hfired)

theorem Served.markSynthetic (h : Served s) {payload : FlagPayload} {env : MarkEnv}
    (hfired : s.served = true ∨ env.fired = true) :
    Served (s.markSynthetic n flags payload env) := by
  have hrestaged := restaged_insertSynthetic s n flags payload env
  rw [ReportState.markSynthetic]
  split
  · exact .inl (served_fire _ env.fired (hfired.imp hrestaged.served id))
  · next hfull =>
    rw [ReportState.insertSynthetic] at hfull ⊢
    split
    · next hnoMem =>
      rw [insertFlag_noMem hnoMem, setPending_self s rfl]
      exact h
    · next hok => exact absurd (if_neg hok ▸ rfl) hfull

/-- A full report with room for its entries is staged. -/
theorem populateFullState_ok (h : env.Stages cfg n) : (s.populateFullState cfg n env).1 = true := by
  rw [ReportState.populateFullState, h.1]
  exact (insertAll_stages fun j hj => (Nat.zero_add j).symm ▸ h.2 j hj).1

/-- A full report that could not list the parameters does nothing. -/
theorem populateFullState_unlisted (h : env.listed = false) :
    s.populateFullState cfg n env = (false, s) := by
  rw [ReportState.populateFullState, h]
  rfl

theorem Served.scheduleReport (h : Served s) {reportAll : Bool}
    (hscheduled : reportAll = true → env.Scheduled cfg s n) :
    Served (s.scheduleReport cfg n reportAll env) := by
  rw [ReportState.scheduleReport]
  cases reportAll with
  | false => exact h.imp (fun hs => served_fire s env.fired (.inl hs)) id
  | true =>
    have hrestaged := restaged_populateFullState cfg s n env
    simp only [if_true]
    rcases hscheduled rfl with hs | hunlisted | ⟨hstages, hfired⟩
    · split
      · exact .inl (served_fire _ env.fired (.inl (hrestaged.served hs)))
      · exact .inl (hrestaged.served hs)
    · rw [populateFullState_unlisted hunlisted]
      exact h
    · rw [if_pos (populateFullState_ok hstages)]
      exact .inl (served_fire _ env.fired (.inr hfired))

/-- The timer is replaced by a task. -/
theorem Served.queueReport {added : Bool}
    (h : added = true ∨ s.tasked = true ∨ ∀ n, s.pending n = []) :
    Served (s.queueReport added) := by
  rcases h with rfl | htasked | hnone
  · refine .inl (served_of_active ?_)
    show (false || decide (0 < s.queued + 1) || s.running.isSome) = true
    rw [decide_eq_true (Nat.succ_pos _)]
    rfl
  · refine .inl (served_of_tasked ?_)
    rw [tasked] at htasked ⊢
    simp only [Bool.or_eq_true, decide_eq_true_eq] at htasked ⊢
    refine htasked.imp (Or.imp id fun hqueued => ?_) id
    exact Nat.lt_of_lt_of_le hqueued (Nat.le_add_right _ _)
  · exact .inr hnone

theorem Served.report (h : Served s) (hnodes : InNodes cfg s) {reportAll added : Bool}
    (hguard : Repairs cfg s (.report reportAll env added)) :
    Served (s.report cfg reportAll env added) := by
  obtain ⟨hstaged, hadded⟩ := hguard
  rw [ReportState.report]
  cases reportAll with
  | false =>
    refine Served.queueReport (hadded.imp id (Or.imp id ?_))
    intro hnone
    rcases hnone with ⟨hall, -⟩ | ⟨-, hnone⟩
    · cases hall
    · exact pending_of_nonePending hnodes hnone
  | true =>
    have hrestaged := restaged_populateFullState cfg s selfNode env
    simp only [if_true]
    split
    · next hok =>
      refine Served.queueReport ?_
      rcases hadded with hadded | htasked | ⟨-, hunlisted⟩ | ⟨hall, -⟩
      · exact .inl hadded
      · exact .inr (.inl (hrestaged.tasked.trans htasked))
      · rw [populateFullState_unlisted hunlisted] at hok
        cases hok
      · cases hall
    · next hfailed =>
      rcases hstaged rfl with hs | hunlisted | hstages
      · exact .inl (hrestaged.served hs)
      · rw [populateFullState_unlisted hunlisted]
        exact h
      · exact absurd (populateFullState_ok hstages) hfailed

end ReportState

open ReportState

/-! ### Every run -/

/-- What every state keeps while nothing is lost. -/
structure Kept (cfg : ReportConfig) (s : ReportState) : Prop where
  told : ToldOr (fun _ _ => False) s
  nodes : InNodes cfg s
  served : Served s

variable {cfg : ReportConfig} {s t : ReportState}

theorem Kept.markForUpdate (h : Kept cfg s) {u : UpdateId} {v : Val} {env : MarkEnv}
    (hn : n ∈ cfg.nodes) (hguard : Repairs cfg s (.markForUpdate n u v env)) :
    Kept cfg (s.markForUpdate n u v env) := by
  refine ⟨h.told.markForUpdate v hguard.1, ?_, h.served.markForUpdate hguard.2⟩
  have hothers : ∀ m, m ≠ n → (s.markForUpdate n u v env).pending m = s.pending m := by
    intro m hm
    rw [ReportState.markForUpdate]
    split <;> exact Function.update_of_ne hm _ s.pending
  intro m hm
  by_cases heq : m = n
  · exact heq ▸ hn
  · exact h.nodes m (hothers m heq ▸ hm)

theorem Kept.markSynthetic (h : Kept cfg s) {flags : Nat} (hflags : Synthetic flags)
    {payload : FlagPayload} {env : MarkEnv} (hn : n ∈ cfg.nodes)
    (hfired : s.served = true ∨ env.fired = true) :
    Kept cfg (s.markSynthetic n flags payload env) where
  told := (h.told.markSynthetic n hflags payload env).mono fun _ _ hP => hP.1
  nodes := h.nodes.of_restaged (restaged_markSynthetic s n flags payload env) hn
  served := h.served.markSynthetic hfired

theorem restaged_scheduleReport (cfg : ReportConfig) (s : ReportState) (n : Nat) (reportAll : Bool)
    (env : FullEnv) : Restaged n s (s.scheduleReport cfg n reportAll env) := by
  have hrestaged := restaged_populateFullState cfg s n env
  rw [ReportState.scheduleReport]
  cases reportAll with
  | false => exact restaged_fire n s env.fired
  | true =>
    simp only [if_true]
    split
    · exact hrestaged.trans (restaged_fire n _ env.fired)
    · exact hrestaged

section
variable (h : Kept cfg s)
include h

theorem Kept.scheduleReport {reportAll : Bool} (hn : n ∈ cfg.nodes)
    (hscheduled : reportAll = true → env.Scheduled cfg s n) :
    Kept cfg (s.scheduleReport cfg n reportAll env) where
  told := by
    rw [ReportState.scheduleReport]
    cases reportAll with
    | false => exact h.told.fire env.fired
    | true => exact (h.told.populateFullState n env).fireIf env.fired
  nodes := h.nodes.of_restaged (restaged_scheduleReport cfg s n reportAll env) hn
  served := h.served.scheduleReport hscheduled

theorem Kept.report {reportAll added : Bool}
    (hguard : Repairs cfg s (.report reportAll env added)) :
    Kept cfg (s.report cfg reportAll env added) := by
  refine ⟨?_, ?_, h.served.report h.nodes hguard⟩
  · rw [ReportState.report]
    cases reportAll with
    | false => exact fun n item hcurrent => h.told n item (by cases item <;> exact hcurrent)
    | true =>
      have htold : ToldOr (fun _ _ => False) (s.populateFullState cfg selfNode env).2 :=
        h.told.populateFullState selfNode env
      simp only [if_true]
      split
      · exact fun n item hcurrent => htold n item (by cases item <;> exact hcurrent)
      · exact htold
  · rw [ReportState.report]
    cases reportAll with
    | false => exact h.nodes
    | true =>
      have hnodes := h.nodes.of_restaged (restaged_populateFullState cfg s selfNode env)
        (List.mem_cons_self)
      simp only [if_true]
      split
      · exact hnodes
      · exact hnodes

/-- A visit takes the list of one node. -/
theorem Kept.visit {rest : List Nat} {failed : Bool} (env : VisitEnv) :
    Kept cfg { (s.publishNode n env).2 with
      running := some ⟨rest, failed || (s.publishNode n env).1⟩ } := by
  refine ⟨?_, ?_, ?_⟩
  · exact fun m item hcurrent => h.told.publishNode n env m item (by cases item <;> exact hcurrent)
  · intro m hm
    refine h.nodes m fun hnone => hm ?_
    show (s.publishNode n env).2.pending m = []
    rcases pending_publishNode s n env with hpending | hpending
    · rw [hpending]
      exact hnone
    · rw [hpending]
      by_cases heq : m = n
      · rw [heq, Function.update_self]
      · rw [Function.update_of_ne heq]
        exact hnone
  · exact .inl (served_of_active (Bool.or_true _))

theorem Kept.finish {failed retried : Bool} (hrunning : s.running = some ⟨[], failed⟩)
    (hguard : Repairs cfg s (.finish retried)) :
    Kept cfg (if failed then { s with running := none }.fire retried
      else { s with running := none, timer := false }) := by
  have htold : ∀ timer : Bool, ToldOr (fun _ _ => False) { s with running := none, timer } :=
    fun timer n item hcurrent => h.told n item (by cases item <;> exact hcurrent)
  have hserved : (s.stopped = true ∨ 0 < s.queued) ∨ (∀ n, s.pending n = []) ∨
      (failed = true ∧ (s.timer = true ∨ retried = true)) := by
    refine hguard.imp id (Or.imp (pending_of_nonePending h.nodes) fun hretry => ?_)
    rw [hrunning] at hretry
    exact hretry
  -- A report that is queued already, or reporting that is stopped, does not need the timer.
  have hqueued : ∀ timer : Bool, s.stopped = true ∨ 0 < s.queued →
      Served { s with running := none, timer } := by
    intro timer hor
    refine .inl (served_of_tasked ?_)
    show (s.stopped || decide (0 < s.queued) || false) = true
    rw [Bool.or_false, Bool.or_eq_true, decide_eq_true_eq]
    exact hor
  cases failed with
  | true =>
    refine ⟨htold (s.timer || retried), h.nodes, ?_⟩
    rcases hserved with hor | hnone | ⟨-, harmed⟩
    · exact hqueued (s.timer || retried) hor
    · exact .inr hnone
    · refine .inl (served_of_active ?_)
      show (s.timer || retried || decide (0 < s.queued) || false) = true
      rw [Bool.or_eq_true_iff.mpr harmed]
      rfl
  | false =>
    refine ⟨htold false, h.nodes, ?_⟩
    rcases hserved with hor | hnone | ⟨hfailed, -⟩
    · exact hqueued false hor
    · exact .inr hnone
    · cases hfailed

theorem Kept.ack {i : Nat} {success : Bool} {payload : Nat × List Item}
    (hi : s.inFlight[i]? = some payload) (hguard : Repairs cfg s (.ack i success env)) :
    Kept cfg (if success then
        { s with inFlight := s.inFlight.eraseIdx i, acked := payload :: s.acked }
      else { s with inFlight := s.inFlight.eraseIdx i }.scheduleReport cfg selfNode true env) := by
  cases success with
  | true =>
    refine ⟨?_, h.nodes, h.served⟩
    intro n item hcurrent
    show carries (payload :: s.acked) n item = true ∨
      carries (s.inFlight.eraseIdx i) n item = true ∨ s.Listed n item ∨ False
    rcases h.told n item (by cases item <;> exact hcurrent) with hacked | hflight | hlisted
    · refine .inl ?_
      rw [show payload :: s.acked = [payload] ++ s.acked from rfl, carries_append, hacked,
        Bool.or_true]
    · rcases carries_eraseIdx hi hflight with ⟨hn, hmem⟩ | hflight
      · exact .inl (carries_iff.mpr ⟨payload, List.mem_cons_self, hn, hmem⟩)
      · exact .inr (.inl hflight)
    · exact .inr (.inr hlisted)
  | false =>
    obtain ⟨hscheduled, hrepaired⟩ := hguard.resolve_left Bool.false_ne_true
    let e := { s with inFlight := s.inFlight.eraseIdx i }
    -- What only the refused payload carried is restaged.
    have htold : ToldOr (fun n item => n = selfNode ∧ env.Restages cfg selfNode item) e := by
      intro n item hcurrent
      have hs : s.Current n item := by cases item <;> exact hcurrent
      rcases h.told n item hs with hacked | hflight | hlisted | hfalse
      · exact .inl hacked
      · rcases carries_eraseIdx hi hflight with ⟨rfl, hmem⟩ | hflight
        · rcases hrepaired payload hi item hmem hs with hlisted | hacked | hflight | hrestages
          · exact .inr (.inr (.inl hlisted))
          · exact .inl hacked
          · exact .inr (.inl hflight)
          · exact .inr (.inr (.inr hrestages))
        · exact .inr (.inl hflight)
      · exact .inr (.inr (.inl hlisted))
      · exact hfalse.elim
    refine ⟨htold.restage.fireIf env.fired, ?_, ?_⟩
    · have hnodes : InNodes cfg e := h.nodes
      exact hnodes.of_restaged (restaged_scheduleReport cfg e selfNode true env)
        List.mem_cons_self
    · have hserved : Served e := h.served
      exact hserved.scheduleReport fun _ => hscheduled

/-- **One step.** -/
theorem Kept.step {a : ReportAction} (hguard : Repairs cfg s a) (ht : reportStep cfg s a = some t) :
    Kept cfg t := by
  cases a with
  | markForUpdate n u v env =>
    rw [reportStep] at ht
    split at ht
    · next hn =>
      obtain rfl := Option.some.inj ht
      exact h.markForUpdate hn.1 hguard
    · cases ht
  | markOnline n value env =>
    rw [reportStep] at ht
    split at ht
    · next hn =>
      obtain rfl := Option.some.inj ht
      exact h.markSynthetic (.inl rfl) hn hguard
    · cases ht
  | markNcfgVer n hash env =>
    rw [reportStep] at ht
    split at ht
    · next hn =>
      obtain rfl := Option.some.inj ht
      exact h.markSynthetic (.inr rfl) hn hguard
    · cases ht
  | schedule n reportAll env =>
    rw [reportStep] at ht
    split at ht
    · next hn =>
      obtain rfl := Option.some.inj ht
      exact h.scheduleReport hn hguard
    · cases ht
  | report reportAll env added =>
    obtain rfl := Option.some.inj ht
    exact h.report hguard
  | expire added =>
    rw [reportStep] at ht
    split at ht
    · obtain rfl := Option.some.inj ht
      refine ⟨fun n item hcurrent => h.told n item (by cases item <;> exact hcurrent), h.nodes, ?_⟩
      exact Served.queueReport (hguard.imp id (Or.imp id (pending_of_nonePending h.nodes)))
    · cases ht
  | begin ready =>
    rw [reportStep] at ht
    split at ht
    · obtain rfl := Option.some.inj ht
      refine ⟨fun n item hcurrent => h.told n item (by cases item <;> exact hcurrent), h.nodes, ?_⟩
      refine .inl (served_of_tasked ?_)
      rw [tasked]
      cases hstopped : s.stopped with
      | true => rfl
      | false => exact Bool.or_true _
    · cases ht
  | visit env =>
    rw [reportStep] at ht
    split at ht
    · obtain rfl := Option.some.inj ht
      exact h.visit env
    · cases ht
  | finish retried =>
    rw [reportStep] at ht
    split at ht
    · next failed hrunning =>
      obtain rfl := Option.some.inj ht
      exact h.finish hrunning hguard
    · cases ht
  | ack i success env =>
    rw [reportStep] at ht
    split at ht
    · cases ht
    · next payload hi =>
      obtain rfl := Option.some.inj ht
      exact h.ack hi hguard
  | stop =>
    obtain rfl := Option.some.inj ht
    refine ⟨fun n item hcurrent => h.told n item (by cases item <;> exact hcurrent), h.nodes, ?_⟩
    exact .inl rfl
  | resume =>
    rw [reportStep] at ht
    split at ht
    · obtain rfl := Option.some.inj ht
      refine ⟨fun n item hcurrent => h.told n item (by cases item <;> exact hcurrent), h.nodes, ?_⟩
      rcases hguard with hactive | hnone
      · exact .inl hactive
      · exact .inr (pending_of_nonePending h.nodes hnone)
    · cases ht

end

/-- **No lost update.** In every run whose steps meet the condition, each current value of a marked
field was acknowledged, or it is in flight, or it is pending and a report is on its way. -/
theorem noLostUpdate (hs : Reach InitialReport (reportStep cfg) (Repairs cfg) s)
    (hrunning : s.stopped = false) : NoLostUpdate s := by
  have hkept : Kept cfg s := hs.inv (Kept cfg)
    (by
      rintro _ ⟨val, rfl⟩
      refine ⟨?_, fun n hn => absurd rfl hn, .inr fun n => rfl⟩
      intro n item hcurrent
      cases item with
      | param u v => exact absurd hcurrent.1 List.not_mem_nil
      | online b => cases hcurrent
      | ncfgVer hash => cases hcurrent)
    (fun _ _ _ h hguard ht => h.step hguard ht)
  intro n item hcurrent
  rcases hkept.told n item hcurrent with hacked | hflight | hlisted | hfalse
  · exact .inl hacked
  · exact .inr (.inl hflight)
  · refine .inr (.inr ⟨hlisted, ?_⟩)
    rcases hkept.served with hserved | hnone
    · rwa [ReportState.served, hrunning] at hserved
    · rw [Listed, hnone n] at hlisted
      cases hlisted
  · exact hfalse.elim

/-! ### Three short runs -/

/-- A bridge with one child, and a parameter in each. -/
def sampleReports : ReportConfig where
  children := [1]
  params n := [⟨9, n⟩]

/-- The parameter of the child is marked and published. -/
def publishedRun : List ReportAction :=
  [.markForUpdate 1 ⟨9, 1⟩ (.integer 5) {}, .expire true, .begin fun _ => true, .visit {}, .visit {},
    .finish true]

/-- The payload is refused after the parameter was marked again. -/
theorem remarked_noLostUpdate : ∃ s,
    Reach InitialReport (reportStep sampleReports) (Repairs sampleReports) s ∧
      exec (reportStep sampleReports) { val := fun _ _ => .integer 0 }
          (publishedRun ++ [.markForUpdate 1 ⟨9, 1⟩ (.integer 6) {}, .ack 0 false {}]) = some s ∧
        s.stopped = false ∧ NoLostUpdate s := by
  have hrun : Reach InitialReport (reportStep sampleReports) (Repairs sampleReports) _ :=
    Reach.exec (publishedRun ++ [.markForUpdate 1 ⟨9, 1⟩ (.integer 6) {}, .ack 0 false {}])
      (.start ⟨fun _ _ => .integer 0, rfl⟩) (by decide +kernel) rfl
  exact ⟨_, hrun, rfl, rfl, noLostUpdate hrun rfl⟩

/-- A field that is current and nowhere to be found is lost. -/
theorem lost_of_current {s : ReportState} (n : Nat) (item : Item) (hcurrent : s.Current n item)
    (hlost : ¬(carries s.acked n item = true ∨ carries s.inFlight n item = true ∨
      (s.Listed n item ∧ s.active = true))) : ¬NoLostUpdate s :=
  fun h => hlost (h n item hcurrent)

/-- The payload of the child is refused. The full report that repairs it is the one of the self
node, so the value of the child is lost. In the second run the parameter of the self node is marked
again while the task visits the child. The end of the task cancels the timer that the mark has
armed. -/
theorem refused_and_stranded :
    (∃ s, Reach InitialReport (reportStep sampleReports) (fun _ _ => True) s ∧
      exec (reportStep sampleReports) { val := fun _ _ => .integer 0 }
          (publishedRun ++ [.ack 0 false {}]) = some s ∧
        s.stopped = false ∧ ¬NoLostUpdate s) ∧
    ∃ s, Reach InitialReport (reportStep sampleReports) (fun _ _ => True) s ∧
      exec (reportStep sampleReports) { val := fun _ _ => .integer 0 }
          [.markForUpdate 0 ⟨9, 0⟩ (.integer 5) {}, .expire true, .begin fun _ => true, .visit {},
            .markForUpdate 0 ⟨9, 0⟩ (.integer 6) {}, .visit {}, .finish true] = some s ∧
        s.stopped = false ∧ ¬NoLostUpdate s := by
  refine ⟨?_, ?_⟩
  · have hrun : Reach InitialReport (reportStep sampleReports) (fun _ _ => True) _ :=
      Reach.exec (publishedRun ++ [.ack 0 false {}]) (.start ⟨fun _ _ => .integer 0, rfl⟩)
        (by decide +kernel) rfl
    exact ⟨_, hrun, rfl, rfl,
      lost_of_current 1 (.param ⟨9, 1⟩ (.integer 5)) (by decide +kernel) (by decide +kernel)⟩
  · have hrun : Reach InitialReport (reportStep sampleReports) (fun _ _ => True) _ :=
      Reach.exec
        [.markForUpdate 0 ⟨9, 0⟩ (.integer 5) {}, .expire true, .begin fun _ => true, .visit {},
          .markForUpdate 0 ⟨9, 0⟩ (.integer 6) {}, .visit {}, .finish true]
        (.start ⟨fun _ _ => .integer 0, rfl⟩) (by decide +kernel) rfl
    exact ⟨_, hrun, rfl, rfl,
      lost_of_current 0 (.param ⟨9, 0⟩ (.integer 6)) (by decide +kernel) (by decide +kernel)⟩

end RainMakerNeo.State
