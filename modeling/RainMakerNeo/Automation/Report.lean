import Mathlib.Data.List.Infix
import RainMakerNeo.Automation.Compare
import RainMakerNeo.Lib.Run

/-!
# `RainMakerNeo.Automation.Report`: what the cloud is told about the triggers

A trigger has two flags. `MET` is the last comparison of its parameter with the expected value, and
`CHANGED` says that the cloud has not been told about it. `updateIdCheckAndFire` sets `CHANGED`, and
the visit of the report task clears it when the publish of the payload is accepted. Both run under
the lock of the node, and so does the replacement of the triggers.

The JSON generator is a parameter. `JsonGenerator.Lawful` says of it that the pass without a buffer
measures what the pass with the buffer writes. The calls that it accepts are the payload.

`Trigger.reported` is history: the value in the last payload that was sent with the trigger.
`reports_step` says what each step of each run does to the flags and to this value.
-/

set_option autoImplicit false

namespace RainMakerNeo.Automation

open RainMakerNeo.Lib (Reach)
open RainMakerNeo.State (Val UpdateId compare_eq_zero)

/-! ### The triggers of a node -/

/-- `esp_rmaker_automation_trigger_t`. `changed` and `met` are its flags. `reported` is history: the
value in the last payload that was sent with the trigger. No function reads it. -/
structure Trigger where
  id : List Char
  changed : Bool := false
  met : Bool := false
  updateId : UpdateId
  compareOp : CompareOp
  expectedVal : Val
  reported : Option Bool := none
  deriving DecidableEq, Repr

/-- `RMAKER_TRIGGER_MAX_COUNT`. -/
def triggerMaxCount : Nat := 128

/-- The answers while a list is built. `allocated` is for the allocations of one entry. -/
structure InstallEnv where
  /-- `data_model_path_to_update_id_for_node`. -/
  resolve : List Char → Option UpdateId
  listAllocated : Bool := true
  allocated : Nat → Bool := fun _ => true

/-- `__parse_trigger_from_entry_locked`. `types` has the type of each parameter. -/
def parseTriggerFromEntry (types : Nat → ValType) (resolve : List Char → Option UpdateId)
    (allocated : Bool) (e : Entry) : Option Trigger :=
  if e.id.isEmpty then none
  else if !allocated then none
  else
    match resolve (dupN e.path) with
    | none => none
    | some updateId =>
      let expected := types updateId.param
      if expected = .invalid then none
      else
        match opToCompare e.opCode expected with
        | none => none
        | some compareOp =>
          (coerceValue e expected allocated).map fun expectedVal =>
            { id := dupN e.id, updateId, compareOp, expectedVal }

/-- The loop of `__build_trigger_details_from_binary_locked`, for at most `n` entries. -/
def buildLoop (types : Nat → ValType) (env : InstallEnv) :
    Nat → Iter → List Trigger → Option (List Trigger)
  | 0, _, added => some added
  | n + 1, it, added =>
    match it.next with
    | .error err => if err = .fail then none else some added
    | .ok (entry, it) =>
      -- Disabled triggers are not installed.
      if !entry.enabled then buildLoop types env n it added
      else
        match parseTriggerFromEntry types env.resolve (env.allocated n) entry with
        | none => none
        | some trigger => buildLoop types env n it (added ++ [trigger])

/-- `__build_trigger_details_from_binary_locked`. A failure leaves the list of the node intact. -/
def buildTriggerDetails (types : Nat → ValType) (env : InstallEnv) (blob : List UInt8)
    (list : List Trigger) : Bool × List Trigger :=
  match iterBegin blob with
  | .error _ => (false, list)
  | .ok (it, count) =>
    if triggerMaxCount < count then (false, list)
    else if count = 0 then (true, [])
    else if !env.listAllocated then (false, list)
    else
      match buildLoop types env (count + 1) it [] with
      | none => (false, list)
      | some added => (true, added)

/-! ### An update -/

/-- The loop of `esp_rmaker_automation_service_update_id_check_and_fire`. A comparison that is
refused ends it. -/
def updateIdCheckAndFire (updateId : UpdateId) (val : Val) : List Trigger → Bool × List Trigger
  | [] => (true, [])
  | trigger :: rest =>
    if trigger.updateId.compare updateId ≠ 0 then
      let (ok, rest) := updateIdCheckAndFire updateId val rest
      (ok, trigger :: rest)
    else
      match valCompare val trigger.expectedVal trigger.compareOp with
      | none => (false, trigger :: rest)
      | some met =>
        let (ok, rest) := updateIdCheckAndFire updateId val rest
        (ok, { trigger with met, changed := true } :: rest)

/-! ### The payload -/

/-- A call of the JSON generator. -/
inductive GenCall
  | startObject
  | endObject
  | pushObject (name : List Char)
  | popObject
  | pushArray (name : List Char)
  | popArray
  | setString (name value : List Char)
  | setBool (name : List Char) (value : Bool)
  deriving DecidableEq, Repr

/-- The JSON generator. -/
structure JsonGenerator (σ : Type) where
  /-- `json_gen_str_start`. Without a buffer the calls are only measured. -/
  start : Option Nat → σ
  /-- The call, and whether it returns 0. -/
  call : σ → GenCall → Bool × σ
  /-- `json_gen_str_end`: the size of the text with its terminator. -/
  size : σ → Nat

/-- The generator, and the calls that it has accepted. -/
structure Writer (σ : Type) where
  gen : σ
  written : List GenCall := []

section

variable {σ : Type} (J : JsonGenerator σ)

/-- A call. -/
def Writer.call (w : Writer σ) (c : GenCall) : Bool × Writer σ :=
  let (ok, gen) := J.call w.gen c
  (ok, { gen, written := if ok then w.written ++ [c] else w.written })

/-- The loop of `__trigger_state_report_payload_fn`. A trigger whose object cannot be started is
skipped. -/
def writeTriggers : List Trigger → Writer σ → Bool × Writer σ
  | [], w => (true, w)
  | trigger :: rest, w =>
    if trigger.changed then
      let started := w.call J .startObject
      if started.1 then
        let id := started.2.call J (.setString "id".toList trigger.id)
        if id.1 then
          let value := id.2.call J (.setBool "value".toList trigger.met)
          if value.1 then writeTriggers rest (value.2.call J .endObject).2
          else (false, value.2)
        else (false, id.2)
      else writeTriggers rest started.2
    else writeTriggers rest w

/-- `__trigger_state_report_payload_fn`. -/
def triggerStateReportPayload (list : List Trigger) (w : Writer σ) : Bool × Writer σ :=
  if list.isEmpty then (true, w)
  else if !list.any Trigger.changed then (false, w)
  else
    let automation := w.call J (.pushObject "automation".toList)
    if automation.1 then
      let trigger := automation.2.call J (.pushArray "trigger".toList)
      if trigger.1 then
        let reported := writeTriggers J list trigger.2
        (reported.1, ((reported.2.call J .popArray).2.call J .popObject).2)
      else (false, (trigger.2.call J .popObject).2)
    else (false, automation.2)

/-- `__notify_make_json_payload`. -/
def notifyMakeJsonPayload (list : List Trigger) (buffer : Option Nat) : Bool × Writer σ :=
  let object := Writer.call J { gen := J.start buffer } .startObject
  if object.1 then
    let notify := object.2.call J (.pushObject "notify".toList)
    if notify.1 then
      let payload := triggerStateReportPayload J list notify.2
      if payload.1 then
        let popped := payload.2.call J .popObject
        if popped.1 then popped.2.call J .endObject
        else popped
      else payload
    else notify
  else object

/-- `RMAKER_NOTIFY_PAYLOAD_MIN_SIZE`. -/
def notifyPayloadMinSize : Nat := 14

/-- The answers while a notification is sent. -/
structure VisitEnv where
  allocated : Bool := true
  topicBuilt : Bool := true
  published : Bool := true
  deriving DecidableEq, Repr

/-- `esp_rmaker_notify_send_for_node`: the payload, when its publish is accepted. -/
def notifySend (list : List Trigger) (env : VisitEnv) : Option (List GenCall) :=
  let sizing := notifyMakeJsonPayload J list none
  if !sizing.1 then none
  else if J.size sizing.2.gen ≤ notifyPayloadMinSize then none
  else if !env.allocated then none
  else
    let payload := notifyMakeJsonPayload J list (some (J.size sizing.2.gen))
    if payload.1 && env.topicBuilt && env.published then some payload.2.written else none

/-- The object of a trigger in a payload. -/
def triggerObject (id : List Char) (value : Bool) : List GenCall :=
  [.startObject, .setString "id".toList id, .setBool "value".toList value, .endObject]

/-- The flag is cleared. The history takes the value from the payload. -/
def Trigger.clear (payload : List GenCall) (trigger : Trigger) : Trigger :=
  { trigger with
    changed := false
    reported :=
      if triggerObject trigger.id trigger.met <:+: payload then some trigger.met
      else trigger.reported }

/-- The triggers of a node. `sent` is history: the payloads, the last one first. -/
structure NodeAutomation where
  list : List Trigger := []
  sent : List (List GenCall) := []

/-- `__trigger_report_visitor`. -/
def triggerReportVisitor (s : NodeAutomation) (env : VisitEnv) : NodeAutomation :=
  if s.list.any Trigger.changed then
    match notifySend J s.list env with
    | none => s
    | some payload => { list := s.list.map (Trigger.clear payload), sent := payload :: s.sent }
  else s

/-! ### The steps -/

/-- What happens to the triggers of a node. -/
inductive Action
  /-- A parameter has the value. -/
  | update (updateId : UpdateId) (val : Val)
  /-- `__build_trigger_details_from_binary_locked`, for new details or after a boot. -/
  | install (env : InstallEnv) (blob : List UInt8)
  /-- `esp_rmaker_automation_drop_node`. -/
  | drop
  /-- The report task visits the node. -/
  | visit (env : VisitEnv)

/-- The action replaces the triggers. -/
def Action.replaces : Action → Bool
  | .install _ _ => true
  | .drop => true
  | _ => false

/-- The next step. -/
def step (types : Nat → ValType) (s : NodeAutomation) : Action → Option NodeAutomation
  | .update updateId val => some { s with list := (updateIdCheckAndFire updateId val s.list).2 }
  | .install env blob => some { s with list := (buildTriggerDetails types env blob s.list).2 }
  | .drop => some { s with list := [] }
  | .visit env => some (triggerReportVisitor J s env)

end

/-- No triggers. -/
def Initial (s : NodeAutomation) : Prop := s = {}

/-! ### The payload is whole -/

section

variable {σ : Type} {J : JsonGenerator σ}

/-- The generator after the calls. -/
def JsonGenerator.run (J : JsonGenerator σ) (gen : σ) (calls : List GenCall) : σ :=
  calls.foldl (fun gen c => (J.call gen c).2) gen

/-- Each of the calls returns 0. -/
def JsonGenerator.Accepts (J : JsonGenerator σ) : σ → List GenCall → Prop
  | _, [] => True
  | gen, c :: calls => (J.call gen c).1 = true ∧ J.Accepts (J.call gen c).2 calls

/-- What the payload relies on. Without a buffer each call returns 0, and a buffer of the size that
was measured takes the same calls. -/
structure JsonGenerator.Lawful (J : JsonGenerator σ) : Prop where
  measured : ∀ calls, J.Accepts (J.start none) calls
  fits : ∀ calls, J.Accepts (J.start (some (J.size (J.run (J.start none) calls)))) calls

/-- The writer after calls that were accepted. -/
def Writer.push (J : JsonGenerator σ) (w : Writer σ) (calls : List GenCall) : Writer σ :=
  { gen := J.run w.gen calls, written := w.written ++ calls }

theorem Writer.push_push (w : Writer σ) (a b : List GenCall) :
    (w.push J a).push J b = w.push J (a ++ b) := by
  rw [push, push, push, JsonGenerator.run, JsonGenerator.run, JsonGenerator.run,
    ← List.foldl_append, List.append_assoc]

theorem accepts_append {gen : σ} {a b : List GenCall} :
    J.Accepts gen (a ++ b) ↔ J.Accepts gen a ∧ J.Accepts (J.run gen a) b := by
  induction a generalizing gen with
  | nil => exact (iff_of_eq (true_and _)).symm
  | cons c a ih =>
    rw [List.cons_append, JsonGenerator.Accepts, JsonGenerator.Accepts, ih, and_assoc]
    rfl

/-- An accepted call. -/
theorem Writer.call_of_accepts {w : Writer σ} {c : GenCall} {calls : List GenCall}
    (h : J.Accepts w.gen (c :: calls)) :
    w.call J c = (true, w.push J [c]) ∧ J.Accepts (w.push J [c]).gen calls := by
  refine ⟨?_, h.2⟩
  show ((J.call w.gen c).1, Writer.mk (J.call w.gen c).2 (if (J.call w.gen c).1 then _ else _)) = _
  rw [h.1]
  rfl

/-- The objects of the changed triggers. -/
def reportCalls : List Trigger → List GenCall
  | [] => []
  | trigger :: rest =>
    (if trigger.changed then triggerObject trigger.id trigger.met else []) ++ reportCalls rest

variable {list : List Trigger}

/-- The loop writes the object of each changed trigger. -/
theorem writeTriggers_of_accepts {w : Writer σ} (h : J.Accepts w.gen (reportCalls list)) :
    writeTriggers J list w = (true, w.push J (reportCalls list)) := by
  induction list generalizing w with
  | nil =>
    rw [writeTriggers, reportCalls, Writer.push, List.append_nil]
    rfl
  | cons trigger rest ih =>
    rw [reportCalls] at h ⊢
    rw [writeTriggers]
    cases hchanged : trigger.changed with
    | false =>
      rw [hchanged] at h
      exact ih h
    | true =>
      rw [hchanged] at h
      simp only [if_true] at h ⊢
      obtain ⟨hstarted, h⟩ := Writer.call_of_accepts h
      obtain ⟨hid, h⟩ := Writer.call_of_accepts h
      obtain ⟨hvalue, h⟩ := Writer.call_of_accepts h
      obtain ⟨hended, h⟩ := Writer.call_of_accepts h
      simp only [hstarted, hid, hvalue, hended, if_true]
      rw [ih h, Writer.push_push, Writer.push_push, Writer.push_push, Writer.push_push]
      rfl

/-- The calls of a whole payload. -/
def payloadCalls (list : List Trigger) : List GenCall :=
  .startObject :: .pushObject "notify".toList :: .pushObject "automation".toList ::
    .pushArray "trigger".toList :: (reportCalls list ++ [.popArray, .popObject, .popObject, .endObject])

/-- The payload is whole where the generator accepts its calls. -/
theorem notifyMakeJsonPayload_of_accepts {buffer : Option Nat}
    (hchanged : list.any Trigger.changed = true)
    (h : J.Accepts (J.start buffer) (payloadCalls list)) :
    notifyMakeJsonPayload J list buffer =
      (true, Writer.push J { gen := J.start buffer } (payloadCalls list)) := by
  have hsome : list.isEmpty = false := by
    cases list with
    | nil => cases hchanged
    | cons trigger rest => rfl
  obtain ⟨hobject, h⟩ := Writer.call_of_accepts (w := { gen := J.start buffer }) h
  obtain ⟨hnotify, h⟩ := Writer.call_of_accepts h
  obtain ⟨hautomation, h⟩ := Writer.call_of_accepts h
  obtain ⟨htrigger, h⟩ := Writer.call_of_accepts h
  obtain ⟨hreported, h⟩ := accepts_append.mp h
  have hwritten := writeTriggers_of_accepts hreported
  obtain ⟨harray, h⟩ := Writer.call_of_accepts (w := Writer.push J _ (reportCalls list)) h
  obtain ⟨hpopped, h⟩ := Writer.call_of_accepts h
  obtain ⟨hpopped', h⟩ := Writer.call_of_accepts h
  obtain ⟨hended, h⟩ := Writer.call_of_accepts h
  simp only [notifyMakeJsonPayload, triggerStateReportPayload, hsome, hchanged, hobject, hnotify,
    hautomation, htrigger, hwritten, harray, hpopped, hpopped', hended, if_true, if_false,
    Bool.not_true, Bool.false_eq_true]
  simp only [Writer.push_push, payloadCalls, List.append_assoc, List.cons_append, List.nil_append]

/-- A payload that is sent is whole. -/
theorem notifySend_eq (hJ : J.Lawful) {env : VisitEnv} {payload : List GenCall}
    (hchanged : list.any Trigger.changed = true) (h : notifySend J list env = some payload) :
    payload = payloadCalls list := by
  have hsizing := notifyMakeJsonPayload_of_accepts hchanged (hJ.measured (payloadCalls list))
  have hpayload := notifyMakeJsonPayload_of_accepts hchanged (hJ.fits (payloadCalls list))
  simp only [notifySend, hsizing, Writer.push, hpayload, List.nil_append] at h
  split at h
  · cases h
  · split at h
    · cases h
    · split at h
      · cases h
      · split at h
        · exact (Option.some.inj h).symm
        · cases h

end

variable {list : List Trigger} {trigger : Trigger} {types : Nat → ValType} {updateId : UpdateId}

/-- The payload has the object of each changed trigger. -/
theorem triggerObject_infix (hmem : trigger ∈ list) (hchanged : trigger.changed = true) :
    triggerObject trigger.id trigger.met <:+: payloadCalls list := by
  have hreport : triggerObject trigger.id trigger.met <:+: reportCalls list := by
    induction list with
    | nil => cases hmem
    | cons first rest ih =>
      rw [reportCalls]
      rcases List.mem_cons.mp hmem with rfl | hmem
      · rw [if_pos hchanged]
        exact (List.prefix_append _ _).isInfix
      · exact (ih hmem).trans (List.suffix_append _ _).isInfix
  have hpayload : reportCalls list <:+: payloadCalls list :=
    ⟨[.startObject, .pushObject "notify".toList, .pushObject "automation".toList,
      .pushArray "trigger".toList], [.popArray, .popObject, .popObject, .endObject], by
        rw [payloadCalls, List.append_assoc]
        rfl⟩
  exact hreport.trans hpayload

/-! ### Installed triggers -/

/-- A trigger that has been installed compares exactly the values of the type of its parameter. -/
def Trigger.Installed (types : Nat → ValType) (trigger : Trigger) : Prop :=
  ∀ val, (valCompare val trigger.expectedVal trigger.compareOp).isSome = true ↔
    typeOf val = types trigger.updateId.param

/-- The parameter of the trigger has not been compared since the trigger was installed. -/
def Trigger.Fresh (trigger : Trigger) : Prop :=
  trigger.changed = false ∧ trigger.met = false ∧ trigger.reported = none

theorem parseTriggerFromEntry_installed {resolve : List Char → Option UpdateId} {allocated : Bool}
    {e : Entry} (h : parseTriggerFromEntry types resolve allocated e = some trigger) :
    trigger.Installed types ∧ trigger.Fresh := by
  rw [parseTriggerFromEntry] at h
  split at h
  · cases h
  · split at h
    · cases h
    · split at h
      · cases h
      · dsimp only at h
        split at h
        · cases h
        · split at h
          · cases h
          · next compareOp hop =>
            obtain ⟨expectedVal, hval, rfl⟩ := Option.map_eq_some_iff.mp h
            exact ⟨fun val => valCompare_isSome_iff hval hop, rfl, rfl, rfl⟩

/-- Every trigger that the loop adds is installed. -/
theorem buildLoop_installed {env : InstallEnv} {n : Nat} {it : Iter} {added : List Trigger}
    (hadded : ∀ trigger ∈ added, trigger.Installed types ∧ trigger.Fresh)
    (h : buildLoop types env n it added = some list) :
    ∀ trigger ∈ list, trigger.Installed types ∧ trigger.Fresh := by
  induction n generalizing it added with
  | zero => exact Option.some.inj h ▸ hadded
  | succ n ih =>
    rw [buildLoop] at h
    split at h
    · split at h
      · cases h
      · exact Option.some.inj h ▸ hadded
    · split at h
      · exact ih hadded h
      · split at h
        · cases h
        · next trigger hparse =>
          refine ih ?_ h
          intro t ht
          rcases List.mem_append.mp ht with ht | ht
          · exact hadded t ht
          · exact List.mem_singleton.mp ht ▸ parseTriggerFromEntry_installed hparse

/-- A build fails and keeps the list, or it puts in triggers that are all new. -/
theorem buildTriggerDetails_cases (types : Nat → ValType) (env : InstallEnv) (blob : List UInt8)
    (list : List Trigger) :
    buildTriggerDetails types env blob list = (false, list) ∨
      ∃ new, buildTriggerDetails types env blob list = (true, new) ∧
        ∀ trigger ∈ new, trigger.Installed types ∧ trigger.Fresh := by
  rw [buildTriggerDetails]
  split
  · exact .inl rfl
  · split
    · exact .inl rfl
    · split
      · exact .inr ⟨[], rfl, fun _ hmem => absurd hmem List.not_mem_nil⟩
      · split
        · exact .inl rfl
        · split
          · exact .inl rfl
          · next added hloop =>
            exact .inr ⟨added, rfl, buildLoop_installed (List.forall_mem_nil _) hloop⟩

/-- What an update does to a trigger. -/
def Trigger.fire (updateId : UpdateId) (val : Val) (trigger : Trigger) : Trigger :=
  if trigger.updateId = updateId then
    match valCompare val trigger.expectedVal trigger.compareOp with
    | none => trigger
    | some met => { trigger with met, changed := true }
  else trigger

/-- A value of another type than the parameter does nothing. -/
theorem Trigger.fire_of_refused {val : Val} (hinstalled : trigger.Installed types)
    (htype : typeOf val ≠ types updateId.param) : trigger.fire updateId val = trigger := by
  rw [fire]
  split
  · next hid =>
    have hnone := Option.not_isSome_iff_eq_none.mp fun hsome =>
      htype (hid ▸ (hinstalled val).mp hsome)
    rw [hnone]
  · rfl

/-- The loop treats each trigger on its own. Where it ends early, no trigger after it would have
changed. -/
theorem updateIdCheckAndFire_eq (updateId : UpdateId) (val : Val)
    (h : ∀ trigger ∈ list, trigger.Installed types) :
    (updateIdCheckAndFire updateId val list).2 = list.map (Trigger.fire updateId val) := by
  induction list with
  | nil => rfl
  | cons trigger rest ih =>
    obtain ⟨hinstalled, hrest⟩ := List.forall_mem_cons.mp h
    rw [updateIdCheckAndFire, List.map_cons]
    split
    · next hne =>
      have hid : trigger.updateId ≠ updateId := fun heq => hne (compare_eq_zero.mpr heq)
      show trigger :: (updateIdCheckAndFire updateId val rest).2 = _
      rw [ih hrest, Trigger.fire, if_neg hid]
    · next heq =>
      have hid : trigger.updateId = updateId := compare_eq_zero.mp (not_not.mp heq)
      cases hcompare : valCompare val trigger.expectedVal trigger.compareOp with
      | none =>
        -- The other triggers of the parameter have the same type.
        have htype : typeOf val ≠ types updateId.param := by
          intro htype
          have hsome := (hinstalled val).mpr (hid ▸ htype)
          rw [hcompare] at hsome
          cases hsome
        have hall : ∀ t ∈ trigger :: rest, t.fire updateId val = t :=
          fun t ht => Trigger.fire_of_refused (h t ht) htype
        rw [← List.map_cons, List.map_congr_left hall]
        exact (List.map_id _).symm
      | some met =>
        show { trigger with met, changed := true } :: (updateIdCheckAndFire updateId val rest).2 = _
        rw [ih hrest, Trigger.fire, if_pos hid, hcompare]

/-! ### Every run -/

/-- The trigger waits for its report, or the cloud knows its flag, or there is nothing to tell. -/
def Trigger.Told (trigger : Trigger) : Prop :=
  trigger.changed = false → trigger.reported = some trigger.met ∨ trigger.Fresh

/-- What every state keeps. -/
def Sound (types : Nat → ValType) (s : NodeAutomation) : Prop :=
  ∀ trigger ∈ s.list, trigger.Installed types ∧ trigger.Told

theorem Trigger.fire_sound {val : Val} (h : trigger.Installed types ∧ trigger.Told) :
    (trigger.fire updateId val).Installed types ∧ (trigger.fire updateId val).Told := by
  rw [fire]
  split
  · split
    · exact h
    · refine ⟨h.1, ?_⟩
      intro hchanged
      cases hchanged
  · exact h

/-- What a visit does: nothing, or it sends the changed triggers and clears their flags. -/
theorem triggerReportVisitor_cases {σ : Type} {J : JsonGenerator σ} (hJ : J.Lawful)
    (s : NodeAutomation) (env : VisitEnv) :
    triggerReportVisitor J s env = s ∨
      ∃ payload, triggerReportVisitor J s env =
          { list := s.list.map (Trigger.clear payload), sent := payload :: s.sent } ∧
        ∀ trigger ∈ s.list, trigger.changed = true →
          triggerObject trigger.id trigger.met <:+: payload := by
  rw [triggerReportVisitor]
  split
  · next hchanged =>
    split
    · exact .inl rfl
    · next payload hsend =>
      refine .inr ⟨payload, rfl, ?_⟩
      intro trigger hmem htrigger
      rw [notifySend_eq hJ hchanged hsend]
      exact triggerObject_infix hmem htrigger
  · exact .inl rfl

theorem Trigger.clear_sound {payload : List GenCall}
    (hpayload : trigger.changed = true → triggerObject trigger.id trigger.met <:+: payload)
    (h : trigger.Installed types ∧ trigger.Told) :
    (trigger.clear payload).Installed types ∧ (trigger.clear payload).Told := by
  refine ⟨h.1, ?_⟩
  intro _
  by_cases hmem : triggerObject trigger.id trigger.met <:+: payload
  · exact .inl (if_pos hmem)
  · -- A trigger that is not in the payload was not changed.
    have hchanged : trigger.changed = false := Bool.eq_false_iff.mpr fun h => hmem (hpayload h)
    have hreported : (trigger.clear payload).reported = trigger.reported := if_neg hmem
    rcases h.2 hchanged with htold | hfresh
    · exact .inl (hreported.trans htold)
    · exact .inr ⟨rfl, hfresh.2.1, hreported.trans hfresh.2.2⟩

/-- **One step** keeps the invariant. -/
theorem Sound.step {σ : Type} {J : JsonGenerator σ} (hJ : J.Lawful) {s t : NodeAutomation}
    {a : Action} (h : Sound types s) (ht : Automation.step J types s a = some t) :
    Sound types t := by
  cases a with
  | update updateId val =>
    obtain rfl := Option.some.inj ht
    show ∀ trigger ∈ (updateIdCheckAndFire updateId val s.list).2, _
    rw [updateIdCheckAndFire_eq updateId val fun trigger hmem => (h trigger hmem).1]
    intro trigger hmem
    obtain ⟨before, hbefore, rfl⟩ := List.mem_map.mp hmem
    exact Trigger.fire_sound (h before hbefore)
  | install env blob =>
    obtain rfl := Option.some.inj ht
    rcases buildTriggerDetails_cases types env blob s.list with heq | ⟨new, heq, hnew⟩
    · rw [heq]
      exact h
    · rw [heq]
      exact fun trigger hmem => ⟨(hnew trigger hmem).1, fun _ => .inr (hnew trigger hmem).2⟩
  | drop =>
    obtain rfl := Option.some.inj ht
    intro trigger hmem
    exact absurd hmem List.not_mem_nil
  | visit env =>
    obtain rfl := Option.some.inj ht
    rcases triggerReportVisitor_cases hJ s env with heq | ⟨payload, heq, hpayload⟩
    · rw [heq]
      exact h
    · rw [heq]
      intro trigger hmem
      obtain ⟨before, hbefore, rfl⟩ := List.mem_map.mp hmem
      exact Trigger.clear_sound (hpayload before hbefore) (h before hbefore)

/-- What a step from `s` to `t` does to the flags and to what the cloud knows. -/
structure StepReports (types : Nat → ValType) (s : NodeAutomation) (a : Action)
    (t : NodeAutomation) : Prop where
  /-- A flag is cleared for a payload that has the trigger with its `MET` value, which stays. -/
  cleared : a.replaces = false → ∀ (i : Nat) (before after : Trigger), s.list[i]? = some before →
    t.list[i]? = some after → before.changed = true → after.changed = false →
      ∃ payload, t.sent = payload :: s.sent ∧ after.id = before.id ∧ after.met = before.met ∧
        triggerObject after.id after.met <:+: payload ∧ after.reported = some after.met
  /-- A replacement that fails keeps the triggers. After one that succeeds all of them are new. -/
  replaced : ∀ env blob, a = .install env blob →
    if (buildTriggerDetails types env blob s.list).1 then ∀ trigger ∈ t.list, trigger.Fresh
    else t.list = s.list
  /-- The triggers of a node that is dropped go. -/
  dropped : a = .drop → t.list = []
  /-- After a payload was sent, no trigger waits for its report. -/
  reported : ∀ payload, t.sent = payload :: s.sent → ∀ trigger ∈ t.list, trigger.changed = false
  /-- A trigger that no longer waits was told to the cloud as it is now, or it is new. -/
  told : ∀ trigger ∈ t.list, trigger.changed = false →
    trigger.reported = some trigger.met ∨ trigger.Fresh
  /-- A comparison that is refused for one trigger loses no comparison of another. -/
  compared : ∀ updateId val, a = .update updateId val → ∀ (i : Nat) (before : Trigger) (met : Bool),
    s.list[i]? = some before → before.updateId = updateId →
      valCompare val before.expectedVal before.compareOp = some met →
        t.list[i]? = some { before with met, changed := true }

/-- A list does not hold itself with one more element in front. -/
theorem sent_ne (payload : List GenCall) (sent : List (List GenCall)) : sent ≠ payload :: sent := by
  intro h
  have hlength := congrArg List.length h
  rw [List.length_cons] at hlength
  omega

/-- A flag that is set stays set over an update. -/
theorem Trigger.changed_fire {val : Val} (h : trigger.changed = true) :
    (trigger.fire updateId val).changed = true := by
  rw [fire]
  split
  · split
    · exact h
    · rfl
  · exact h

/-- **The report.** In every run, each step clears a flag only with the payload that tells it, and
what the cloud was told last about a trigger that does not wait is its `MET` value. -/
theorem reports_step {σ : Type} {J : JsonGenerator σ} (hJ : J.Lawful) {s t : NodeAutomation}
    {a : Action} (hs : Reach Initial (step J types) (fun _ _ => True) s)
    (ht : step J types s a = some t) : StepReports types s a t := by
  have hsound : Sound types s := hs.inv (Sound types)
    (by
      intro s hs trigger hmem
      rw [hs] at hmem
      cases hmem)
    (fun _ _ _ h _ ht => h.step hJ ht)
  have htold : ∀ trigger ∈ t.list, trigger.changed = false →
      trigger.reported = some trigger.met ∨ trigger.Fresh :=
    fun trigger hmem => (hsound.step hJ ht trigger hmem).2
  cases a with
  | update updateId val =>
    obtain rfl := Option.some.inj ht
    have hlist := updateIdCheckAndFire_eq updateId val fun t hmem => (hsound t hmem).1
    refine ⟨?_, nofun, nofun, fun payload h => absurd h (sent_ne payload s.sent), htold, ?_⟩
    · -- An update clears no flag.
      intro _ i before after hbefore hafter hchanged hcleared
      rw [show (updateIdCheckAndFire updateId val s.list).2 = _ from hlist, List.getElem?_map,
        hbefore] at hafter
      obtain rfl := Option.some.inj hafter
      rw [Trigger.changed_fire hchanged] at hcleared
      cases hcleared
    · intro _ _ heq i before met hbefore hid hcompare
      cases heq
      show (updateIdCheckAndFire updateId val s.list).2[i]? = _
      rw [hlist, List.getElem?_map, hbefore, Option.map_some, Trigger.fire, if_pos hid, hcompare]
  | install env blob =>
    obtain rfl := Option.some.inj ht
    refine ⟨nofun, ?_, nofun, fun payload h => absurd h (sent_ne payload s.sent), htold, nofun⟩
    intro _ _ heq
    cases heq
    rcases buildTriggerDetails_cases types env blob s.list with hkeep | ⟨new, hbuild, hnew⟩
    · rw [hkeep]
      rfl
    · rw [hbuild]
      exact fun trigger hmem => (hnew trigger hmem).2
  | drop =>
    obtain rfl := Option.some.inj ht
    exact ⟨nofun, nofun, fun _ => rfl, fun payload h => absurd h (sent_ne payload s.sent), htold,
      nofun⟩
  | visit env =>
    obtain rfl := Option.some.inj ht
    rcases triggerReportVisitor_cases hJ s env with heq | ⟨payload, heq, hpayload⟩
    · rw [heq] at htold ⊢
      refine ⟨?_, nofun, nofun, fun payload h => absurd h (sent_ne payload s.sent), htold, nofun⟩
      intro _ i before after hbefore hafter hchanged hcleared
      rw [hbefore] at hafter
      obtain rfl := Option.some.inj hafter
      rw [hchanged] at hcleared
      cases hcleared
    · rw [heq] at htold ⊢
      refine ⟨?_, nofun, nofun, ?_, htold, nofun⟩
      · intro _ i before after hbefore hafter hchanged _
        rw [List.getElem?_map, hbefore] at hafter
        obtain rfl := Option.some.inj hafter
        have hobject := hpayload before (List.mem_of_getElem? hbefore) hchanged
        exact ⟨payload, rfl, rfl, rfl, hobject, if_pos hobject⟩
      · intro _ _ trigger hmem
        obtain ⟨before, _, rfl⟩ := List.mem_map.mp hmem
        rfl

/-! ### A generator that writes text -/

/-- The buffer, the text so far, and whether the next element needs a comma. -/
structure TextGen where
  buffer : Option Nat
  text : List Char := []
  comma : Bool := false

/-- The characters of a call, and whether the element after it needs a comma. -/
def callText (comma : Bool) (c : GenCall) : List Char × Bool :=
  let separator := if comma then [','] else []
  let key := fun name : List Char => separator ++ ['"'] ++ name ++ ['"', ':']
  match c with
  | .startObject => (separator ++ ['{'], false)
  | .endObject => (['}'], true)
  | .pushObject name => (key name ++ ['{'], false)
  | .popObject => (['}'], true)
  | .pushArray name => (key name ++ ['['], false)
  | .popArray => ([']'], true)
  | .setString name value => (key name ++ ['"'] ++ value ++ ['"'], true)
  | .setBool name value => (key name ++ (if value then "true" else "false").toList, true)

/-- A call returns 0 when the text and its terminator are in the buffer. -/
def textGenerator : JsonGenerator TextGen where
  start buffer := { buffer }
  call g c :=
    let text := g.text ++ (callText g.comma c).1
    (g.buffer.all fun n => text.length + 1 ≤ n, { g with text, comma := (callText g.comma c).2 })
  size g := g.text.length + 1

/-- The text grows, and the buffer does not matter to it. -/
theorem textGenerator_run (g : TextGen) (buffer : Option Nat) (calls : List GenCall) :
    g.text.length ≤ (textGenerator.run g calls).text.length ∧
      (textGenerator.run { g with buffer } calls).text = (textGenerator.run g calls).text := by
  induction calls generalizing g with
  | nil => exact ⟨Nat.le_refl _, rfl⟩
  | cons c calls ih =>
    obtain ⟨hle, heq⟩ := ih (textGenerator.call g c).2
    refine ⟨Nat.le_trans ?_ hle, heq⟩
    show g.text.length ≤ (g.text ++ (callText g.comma c).1).length
    rw [List.length_append]
    omega

/-- A buffer for the whole text takes all calls. -/
theorem textGenerator_accepts {g : TextGen} {n : Nat} {calls : List GenCall}
    (hbuffer : g.buffer = some n)
    (h : (textGenerator.run g calls).text.length + 1 ≤ n) : textGenerator.Accepts g calls := by
  induction calls generalizing g with
  | nil => trivial
  | cons c calls ih =>
    refine ⟨?_, ih hbuffer h⟩
    have hle := (textGenerator_run (textGenerator.call g c).2 none calls).1
    show g.buffer.all (fun n => (g.text ++ (callText g.comma c).1).length + 1 ≤ n) = true
    rw [hbuffer, Option.all_some, decide_eq_true_eq]
    exact Nat.le_trans (Nat.succ_le_succ hle) h

theorem textGenerator_lawful : textGenerator.Lawful where
  measured := by
    have hnone : ∀ (g : TextGen) (calls : List GenCall), g.buffer = none →
        textGenerator.Accepts g calls := by
      intro g calls hg
      induction calls generalizing g with
      | nil => trivial
      | cons c calls ih =>
        refine ⟨?_, ih _ hg⟩
        show g.buffer.all _ = true
        rw [hg]
        rfl
    exact fun calls => hnone _ calls rfl
  fits calls := by
    refine textGenerator_accepts rfl (Nat.le_of_eq ?_)
    exact congrArg (fun text : List Char => text.length + 1)
      (textGenerator_run (textGenerator.start none) _ calls).2

/-! ### Two short runs -/

/-- Two triggers of a parameter of the type integer: `t` for 5, and `u` for any other value. -/
def sampleBlob : List UInt8 :=
  [1, 2, 3, 0, 1, 0, 116, 1, 0, 112, 5, 0, 0, 0, 3, 1, 1, 0, 117, 1, 0, 112, 5, 0, 0, 0]

/-- The path `p` names the parameter. -/
def sampleInstall : Action :=
  .install { resolve := fun path => if path = ['p'] then some ⟨9, 2⟩ else none } sampleBlob

/-- The parameter gets the value 5, and both triggers are reported. -/
theorem sample_reports : ∃ s t,
    Lib.exec (step textGenerator fun _ => .integer) {}
        [sampleInstall, .update ⟨9, 2⟩ (.integer 5)] = some s ∧
      step textGenerator (fun _ => .integer) s (.visit {}) = some t ∧
        t.list.map Trigger.reported = [some true, some false] ∧
          StepReports (fun _ => .integer) s (.visit {}) t := by
  have hrun : Reach Initial (step textGenerator fun _ => .integer) (fun _ _ => True) _ :=
    Reach.exec [sampleInstall, .update ⟨9, 2⟩ (.integer 5)] (.start rfl) (by decide +kernel) rfl
  exact ⟨_, _, rfl, rfl, by decide +kernel, reports_step textGenerator_lawful hrun rfl⟩

/-- The same details are installed again before the report. The flag of `t` is clear, the visit has
nothing to send, and the cloud is never told that `t` is met. -/
theorem reinstall_unreported : ∃ s t u,
    Reach Initial (step textGenerator fun _ => .integer) (fun _ _ => True) s ∧
      s.list.map (fun trigger => (trigger.id, trigger.changed, trigger.met)) =
          [(['t'], true, true), (['u'], true, false)] ∧
        step textGenerator (fun _ => .integer) s sampleInstall = some t ∧
          t.list.map (fun trigger => (trigger.id, trigger.changed, trigger.met)) =
              [(['t'], false, false), (['u'], false, false)] ∧
            step textGenerator (fun _ => .integer) t (.visit {}) = some u ∧ u.sent = [] := by
  have hrun : Reach Initial (step textGenerator fun _ => .integer) (fun _ _ => True) _ :=
    Reach.exec [sampleInstall, .update ⟨9, 2⟩ (.integer 5)] (.start rfl) (by decide +kernel) rfl
  exact ⟨_, _, _, hrun, by decide +kernel, rfl, by decide +kernel, rfl, by decide +kernel⟩

end RainMakerNeo.Automation
