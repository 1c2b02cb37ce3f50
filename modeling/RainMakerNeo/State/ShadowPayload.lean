import Mathlib.Order.Nat
import RainMakerNeo.Lib.Nesting
import RainMakerNeo.Lib.Runs
import RainMakerNeo.State.UpdateList

/-!
# `RainMakerNeo.State.ShadowPayload`: the parameters in the two shadows

A report writes the listed parameters into the named shadow, and the indexed ones among them into
the indexed shadow too. One loop writes both. It opens an object for a device at the first of its
parameters in the list, and it decides there alone whether the indexed shadow gets one.

The JSON generator is a stream of calls. `namedParams` and `indexedParams` are what the two objects
are for: each device with its listed parameters, and the same for the indexed parameters alone.
`shadows_iff` says for which lists the loop writes the second one.
-/

set_option autoImplicit false

namespace RainMakerNeo.State

open RainMakerNeo.Lib

/-! ### The data model -/

/-- A name in the JSON. -/
abbrev Name := List Char

/-- `esp_rmaker_param_val_t`. A float is its 32 bits. -/
inductive Val
  | invalid
  | boolean (b : Bool)
  | integer (i : Int32)
  | float (bits : UInt32)
  | string (s : List Char)
  | object (s : List Char)
  | array (s : List Char)
  deriving DecidableEq, Repr

/-- The devices and parameters by their addresses. -/
structure Model where
  deviceId : Nat → Name
  paramId : Nat → Name
  propFlags : Nat → Nat
  val : Nat → Val

/-- `PROP_FLAG_INDEXED`. -/
def propFlagIndexed : Nat := 1 <<< 4

/-- A call of the JSON generator. -/
abbrev JsonCall := Token Name Val

namespace Model

/-- The parameter has `PROP_FLAG_INDEXED`. -/
def indexed (M : Model) (u : UpdateId) : Bool := (M.propFlags u.param) &&& propFlagIndexed != 0

/-- The field of a parameter. A value of no type has none. -/
def field (M : Model) (u : UpdateId) : Option (Name × Val) :=
  match M.val u.param with
  | .invalid => none
  | v => some (M.paramId u.param, v)

/-- `esp_rmaker_report_value`. -/
def reportValue (M : Model) (u : UpdateId) : List JsonCall :=
  match M.val u.param with
  | .invalid => []
  | v => [.set (M.paramId u.param) v]

end Model

/-! ### The loop -/

/-- `data_model_state_update_info_has_indexed_updates`. -/
def hasIndexedUpdates (M : Model) : List UpdateInfo → Bool
  | [] => false
  | .flag _ _ _ :: rest => hasIndexedUpdates M rest
  | .param u _ :: rest => if M.indexed u then true else hasIndexedUpdates M rest

/-- The variables of the loop and the calls of the two generators so far. -/
structure Generator where
  lastDevice : Option Nat := none
  lastDeviceIndexed : Option Nat := none
  named : List JsonCall := []
  indexed : List JsonCall := []

/-- The end of the object of a device. -/
def closeDevice (last : Option Nat) : List JsonCall := if last.isSome then [.pop] else []

/-- The loop body. `withIndexed` says that there is a generator for the indexed shadow. -/
def Generator.step (M : Model) (withIndexed : Bool) (g : Generator) : UpdateInfo → Generator
  | .flag _ _ _ => g
  | .param u _ =>
    let isIndexed := M.indexed u && withIndexed
    let g :=
      if some u.device ≠ g.lastDevice then
        { lastDevice := some u.device
          lastDeviceIndexed := if isIndexed then some u.device else g.lastDeviceIndexed
          named := g.named ++ closeDevice g.lastDevice ++ [.push (M.deviceId u.device)]
          indexed :=
            if isIndexed then
              g.indexed ++ closeDevice g.lastDeviceIndexed ++ [.push (M.deviceId u.device)]
            else g.indexed }
      else g
    { g with
      named := g.named ++ M.reportValue u
      indexed := if isIndexed then g.indexed ++ M.reportValue u else g.indexed }

/-- `data_model_state_generate_update_payload_json`: the calls of the two generators. -/
def generateUpdatePayloadJson (M : Model) (withIndexed : Bool) (l : List UpdateInfo) :
    List JsonCall × List JsonCall :=
  let g := l.foldl (Generator.step M withIndexed) {}
  (g.named ++ closeDevice g.lastDevice, g.indexed ++ closeDevice g.lastDeviceIndexed)

/-- The contents of the two params objects. `__populate_shadow_payloads` passes the second generator
only where an indexed parameter is listed. -/
def populateParams (M : Model) (l : List UpdateInfo) : List JsonCall × List JsonCall :=
  generateUpdatePayloadJson M (hasIndexedUpdates M l) l

/-! ### What the shadows are for -/

/-- Each device with its listed parameters. -/
def namedParams (M : Model) (us : List UpdateId) : Fields Name Val :=
  .objects ((groups UpdateId.device us).map fun g => (M.deviceId g.1, g.2.filterMap M.field))

/-- Each device with its listed parameters that are indexed. -/
def indexedParams (M : Model) (us : List UpdateId) : Fields Name Val :=
  namedParams M (us.filter M.indexed)

/-! ### The calls by runs -/

variable {M : Model}

theorem reportValue_eq (u : UpdateId) :
    M.reportValue u = ((M.field u).toList.map fun x => .set x.1 x.2) := by
  rw [Model.reportValue, Model.field]
  cases M.val u.param <;> rfl

theorem flatMap_reportValue (us : List UpdateId) :
    us.flatMap M.reportValue = (us.filterMap M.field).map fun x => .set x.1 x.2 := by
  induction us with
  | nil => rfl
  | cons u us ih =>
    rw [List.flatMap_cons, ih, reportValue_eq]
    cases hfield : M.field u with
    | none => rw [List.filterMap_cons_none hfield]; rfl
    | some x => rw [List.filterMap_cons_some hfield]; rfl

/-- The calls of the named generator for the rest of the list. -/
def namedCalls (M : Model) : Option Nat → List UpdateId → List JsonCall
  | last, [] => closeDevice last
  | last, u :: us =>
    (if some u.device ≠ last then closeDevice last ++ [.push (M.deviceId u.device)] else []) ++
      M.reportValue u ++ namedCalls M (some u.device) us

/-- The calls of the indexed generator for the rest of the list. -/
def indexedCalls (M : Model) : Option Nat → Option Nat → List UpdateId → List JsonCall
  | _, openDevice, [] => closeDevice openDevice
  | last, openDevice, u :: us =>
    if some u.device ≠ last ∧ M.indexed u = true then
      closeDevice openDevice ++ [.push (M.deviceId u.device)] ++ M.reportValue u ++
        indexedCalls M (some u.device) (some u.device) us
    else
      (if M.indexed u then M.reportValue u else []) ++ indexedCalls M (some u.device) openDevice us

theorem generate_named (withIndexed : Bool) (l : List UpdateInfo) (g : Generator) :
    (l.foldl (Generator.step M withIndexed) g).named ++
        closeDevice (l.foldl (Generator.step M withIndexed) g).lastDevice =
      g.named ++ namedCalls M g.lastDevice (updateIds l) := by
  induction l generalizing g with
  | nil => rfl
  | cons e rest ih =>
    rw [List.foldl_cons, ih]
    cases e with
    | flag flags payload t => rfl
    | param u t =>
      rw [Generator.step, updateIds, namedCalls]
      dsimp only
      by_cases hdevice : some u.device = g.lastDevice
      · simp [hdevice]
      · simp [hdevice]

theorem generate_indexed (l : List UpdateInfo) (g : Generator) :
    (l.foldl (Generator.step M true) g).indexed ++
        closeDevice (l.foldl (Generator.step M true) g).lastDeviceIndexed =
      g.indexed ++ indexedCalls M g.lastDevice g.lastDeviceIndexed (updateIds l) := by
  induction l generalizing g with
  | nil => rfl
  | cons e rest ih =>
    rw [List.foldl_cons, ih]
    cases e with
    | flag flags payload t => rfl
    | param u t =>
      rw [Generator.step, updateIds, indexedCalls]
      dsimp only
      by_cases hdevice : some u.device = g.lastDevice
      · cases hindexed : M.indexed u <;> simp [hdevice]
      · cases hindexed : M.indexed u <;> simp [hdevice]

variable {us : List UpdateId} {rs : List (Nat × List UpdateId)}

/-- Without an indexed parameter the second generator gets no call. -/
theorem indexedCalls_of_none (last openDevice : Option Nat) (h : ∀ u ∈ us, M.indexed u = false) :
    indexedCalls M last openDevice us = closeDevice openDevice := by
  induction us generalizing last with
  | nil => rfl
  | cons u us ih =>
    obtain ⟨hu, hus⟩ := List.forall_mem_cons.mp h
    rw [indexedCalls, if_neg (by rw [hu]; exact fun h => Bool.false_ne_true h.2), hu, ih _ hus]
    rfl

theorem hasIndexedUpdates_eq (l : List UpdateInfo) :
    hasIndexedUpdates M l = (updateIds l).any M.indexed := by
  induction l with
  | nil => rfl
  | cons e rest ih =>
    cases e with
    | flag flags payload t => exact ih
    | param u t =>
      rw [hasIndexedUpdates, updateIds, List.any_cons, ih]
      cases M.indexed u <;> rfl

/-- Without a second generator nothing is written for it. -/
theorem generate_withoutIndexed (l : List UpdateInfo) (g : Generator) :
    (l.foldl (Generator.step M false) g).indexed = g.indexed ∧
      (l.foldl (Generator.step M false) g).lastDeviceIndexed = g.lastDeviceIndexed := by
  induction l generalizing g with
  | nil => exact ⟨rfl, rfl⟩
  | cons e rest ih =>
    rw [List.foldl_cons]
    refine ⟨(ih _).1.trans ?_, (ih _).2.trans ?_⟩
    · cases e with
      | flag flags payload t => rfl
      | param u t => simp [Generator.step, apply_ite Generator.indexed]
    · cases e with
      | flag flags payload t => rfl
      | param u t => simp [Generator.step, apply_ite Generator.lastDeviceIndexed]

theorem populateParams_eq (l : List UpdateInfo) :
    populateParams M l =
      (namedCalls M none (updateIds l), indexedCalls M none none (updateIds l)) := by
  rw [populateParams, generateUpdatePayloadJson]
  refine Prod.ext (generate_named _ l {}) ?_
  cases hindexed : hasIndexedUpdates M l with
  | true => exact generate_indexed l {}
  | false =>
    have hnone : ∀ u ∈ updateIds l, M.indexed u = false := by
      rw [hasIndexedUpdates_eq, List.any_eq_false] at hindexed
      simpa using hindexed
    have hg := generate_withoutIndexed (M := M) l {}
    show (l.foldl (Generator.step M false) {}).indexed ++
      closeDevice (l.foldl (Generator.step M false) {}).lastDeviceIndexed = _
    rw [hg.1, hg.2, indexedCalls_of_none none none hnone]
    rfl

/-- The calls of the named generator for runs. -/
def namedByRuns (M : Model) : Option Nat → List (Nat × List UpdateId) → List JsonCall
  | last, [] => closeDevice last
  | last, (d, us) :: rs =>
    (if some d ≠ last then closeDevice last ++ [.push (M.deviceId d)] else []) ++
      us.flatMap M.reportValue ++ namedByRuns M (some d) rs

/-- The calls of the indexed generator for runs. -/
def indexedByRuns (M : Model) : Option Nat → Option Nat → List (Nat × List UpdateId) → List JsonCall
  | _, openDevice, [] => closeDevice openDevice
  | last, openDevice, (d, us) :: rs =>
    if some d ≠ last ∧ us.head?.any M.indexed = true then
      closeDevice openDevice ++ [.push (M.deviceId d)] ++
        (us.filter M.indexed).flatMap M.reportValue ++ indexedByRuns M (some d) (some d) rs
    else
      (us.filter M.indexed).flatMap M.reportValue ++ indexedByRuns M (some d) openDevice rs

theorem namedCalls_eq (last : Option Nat) (us : List UpdateId) :
    namedCalls M last us = namedByRuns M last (runs UpdateId.device us) := by
  induction us generalizing last with
  | nil => rfl
  | cons u us ih =>
    rw [namedCalls, runs, ih]
    cases runs UpdateId.device us with
    | nil => simp [addToRuns, namedByRuns]
    | cons run rest =>
      obtain ⟨d, xs⟩ := run
      rw [addToRuns]
      by_cases hkey : d = u.device
      · simp [namedByRuns, hkey]
      · simp [namedByRuns, hkey]

theorem indexedCalls_eq (last openDevice : Option Nat) (us : List UpdateId) :
    indexedCalls M last openDevice us =
      indexedByRuns M last openDevice (runs UpdateId.device us) := by
  induction us generalizing last openDevice with
  | nil => rfl
  | cons u us ih =>
    rw [indexedCalls, runs, ih, ih]
    cases runs UpdateId.device us with
    | nil =>
      by_cases hlast : some u.device = last <;> cases hindexed : M.indexed u <;>
        simp [addToRuns, indexedByRuns, hlast, hindexed]
    | cons run rest =>
      obtain ⟨d, xs⟩ := run
      rw [addToRuns]
      by_cases hkey : d = u.device
      · by_cases hlast : some u.device = last <;> cases hindexed : M.indexed u <;>
          simp [indexedByRuns, hlast, hindexed, hkey]
      · by_cases hlast : some u.device = last <;> cases hindexed : M.indexed u <;>
          simp [indexedByRuns, hlast, hindexed, hkey]

/-! ### The named shadow -/

/-- The object of a device. -/
def deviceObject (M : Model) (r : Nat × List UpdateId) : Name × List (Name × Val) :=
  (M.deviceId r.1, r.2.filterMap M.field)

theorem namedByRuns_eq {last : Option Nat} (hlast : ∀ d, last = some d → d ∉ rs.map Prod.fst)
    (hnodup : (rs.map Prod.fst).Nodup) :
    namedByRuns M last rs =
      closeDevice last ++ (Fields.objects (rs.map (deviceObject M))).render := by
  induction rs generalizing last with
  | nil => exact (List.append_nil _).symm
  | cons r rs ih =>
    obtain ⟨d, us⟩ := r
    obtain ⟨hd, hrs⟩ := List.nodup_cons.mp hnodup
    have hne : some d ≠ last := by
      intro h
      exact hlast d h.symm List.mem_cons_self
    have hnext : ∀ e, some d = some e → e ∉ rs.map Prod.fst := by
      rintro _ ⟨⟩
      exact hd
    have htail := ih hnext hrs
    rw [namedByRuns, if_pos hne, htail, List.map_cons, deviceObject, Fields.render_objects_cons,
      flatMap_reportValue]
    simp [closeDevice]

/-- The runs of a sorted list. -/
theorem runs_of_sorted (h : us.Pairwise UpdateId.Before) :
    us.Pairwise fun a b => b.device ≤ a.device := by
  refine h.imp ?_
  intro a b hab
  rw [UpdateId.Before] at hab
  omega

/-- The named generator writes each device with its listed parameters. -/
theorem named_eq (h : us.Pairwise UpdateId.Before) :
    namedCalls M none us = (namedParams M us).render := by
  have hsorted := runs_of_sorted h
  have hnodup : ((runs UpdateId.device us).map Prod.fst).Nodup := by
    rw [runs_keys hsorted]
    exact List.nodup_dedup _
  rw [namedCalls_eq, namedByRuns_eq (by rintro _ ⟨⟩) hnodup, runs_eq_groups hsorted]
  rfl

/-! ### The indexed shadow -/

/-- The first listed parameter of a device is indexed. -/
def headIndexed (M : Model) (us : List UpdateId) : Bool := us.head?.any M.indexed

/-- Each device with a listed parameter that is indexed has an indexed one first. -/
def OpensAll (M : Model) (rs : List (Nat × List UpdateId)) : Prop :=
  ∀ r ∈ rs, r.2.any M.indexed = true → headIndexed M r.2 = true

instance (rs : List (Nat × List UpdateId)) : Decidable (OpensAll M rs) :=
  inferInstanceAs (Decidable (∀ r ∈ rs, r.2.any M.indexed = true → headIndexed M r.2 = true))

theorem filter_eq_nil_of_not_any (h : ¬us.any M.indexed = true) : us.filter M.indexed = [] := by
  rw [List.filter_eq_nil_iff]
  intro u hu hindexed
  exact h (List.any_eq_true.mpr ⟨u, hu, hindexed⟩)

theorem filter_ne_nil_of_any (h : us.any M.indexed = true) : us.filter M.indexed ≠ [] := by
  intro hnil
  rw [List.filter_eq_nil_iff] at hnil
  obtain ⟨u, hu, hindexed⟩ := List.any_eq_true.mp h
  exact hnil u hu hindexed

theorem any_of_headIndexed (h : headIndexed M us = true) : us.any M.indexed = true := by
  cases us with
  | nil => cases h
  | cons u us =>
    rw [List.any_cons, show M.indexed u = true from h]
    rfl

theorem indexedByRuns_eq {last openDevice : Option Nat}
    (hlast : ∀ d, last = some d → d ∉ rs.map Prod.fst) (hnodup : (rs.map Prod.fst).Nodup)
    (hopens : OpensAll M rs) :
    indexedByRuns M last openDevice rs = closeDevice openDevice ++
      (Fields.objects ((selectRuns M.indexed rs).map (deviceObject M))).render := by
  induction rs generalizing last openDevice with
  | nil => exact (List.append_nil _).symm
  | cons r rs ih =>
    obtain ⟨d, us⟩ := r
    obtain ⟨hd, hrs⟩ := List.nodup_cons.mp hnodup
    obtain ⟨hus, hopens⟩ := List.forall_mem_cons.mp hopens
    have hne : some d ≠ last := by
      intro h
      exact hlast d h.symm List.mem_cons_self
    have hnext : ∀ e, some d = some e → e ∉ rs.map Prod.fst := by
      rintro _ ⟨⟩
      exact hd
    rw [indexedByRuns, selectRuns_cons]
    by_cases hhead : headIndexed M us = true
    · have hsome := filter_ne_nil_of_any (any_of_headIndexed hhead)
      rw [if_pos ⟨hne, hhead⟩, if_neg hsome, ih hnext hrs hopens, List.map_cons, deviceObject,
        Fields.render_objects_cons, flatMap_reportValue]
      simp [closeDevice]
    · have hnone := filter_eq_nil_of_not_any fun hany => hhead (hus hany)
      rw [if_neg fun h => hhead h.2, if_pos hnone, hnone, ih hnext hrs hopens]
      rfl

/-- The number of objects that are opened. -/
def opened (calls : List JsonCall) : Nat := calls.countP Token.isPush

theorem opened_reportValues (us : List UpdateId) : opened (us.flatMap M.reportValue) = 0 := by
  rw [opened, List.countP_eq_zero]
  intro call hcall
  obtain ⟨x, -, rfl⟩ := List.mem_map.mp (flatMap_reportValue us ▸ hcall)
  exact Bool.false_ne_true

theorem opened_closeDevice (last : Option Nat) : opened (closeDevice last) = 0 := by
  cases last <;> rfl

/-- The indexed generator opens an object for each device whose first listed parameter is
indexed. -/
theorem opened_indexedByRuns {last openDevice : Option Nat}
    (hlast : ∀ d, last = some d → d ∉ rs.map Prod.fst) (hnodup : (rs.map Prod.fst).Nodup) :
    opened (indexedByRuns M last openDevice rs) = rs.countP fun r => headIndexed M r.2 := by
  induction rs generalizing last openDevice with
  | nil => exact opened_closeDevice openDevice
  | cons r rs ih =>
    obtain ⟨d, us⟩ := r
    obtain ⟨hd, hrs⟩ := List.nodup_cons.mp hnodup
    have hne : some d ≠ last := by
      intro h
      exact hlast d h.symm List.mem_cons_self
    have hnext : ∀ e, some d = some e → e ∉ rs.map Prod.fst := by
      rintro _ ⟨⟩
      exact hd
    have hvalues := opened_reportValues (M := M) (us.filter M.indexed)
    have hclose := opened_closeDevice openDevice
    rw [opened] at hvalues hclose
    rw [indexedByRuns, List.countP_cons]
    by_cases hhead : headIndexed M us = true
    · have htail : opened (indexedByRuns M (some d) (some d) rs) = _ := ih hnext hrs
      rw [opened] at htail
      rw [if_pos ⟨hne, hhead⟩, if_pos hhead, opened, List.countP_append, List.countP_append,
        List.countP_append, hvalues, hclose, htail]
      show 0 + 1 + 0 + _ = _
      omega
    · have htail : opened (indexedByRuns M (some d) openDevice rs) = _ := ih hnext hrs
      rw [opened] at htail
      rw [if_neg fun h => hhead h.2, if_neg hhead, opened, List.countP_append, hvalues, htail]
      omega

/-- The indexed shadow is for an object for each device with a listed parameter that is indexed. -/
theorem opened_selectRuns (rs : List (Nat × List UpdateId)) :
    opened (Fields.objects ((selectRuns M.indexed rs).map (deviceObject M))).render =
      rs.countP fun r => r.2.any M.indexed := by
  induction rs with
  | nil => rfl
  | cons r rs ih =>
    obtain ⟨d, us⟩ := r
    rw [opened] at ih
    rw [selectRuns_cons, List.countP_cons]
    by_cases hany : us.any M.indexed = true
    · have hsome := filter_ne_nil_of_any hany
      have hvalues := opened_reportValues (M := M) (us.filter M.indexed)
      rw [opened, flatMap_reportValue] at hvalues
      rw [if_neg hsome, if_pos hany, List.map_cons, deviceObject, Fields.render_objects_cons,
        opened, List.countP_cons, List.countP_append, List.countP_cons, hvalues, ih]
      show 0 + (_ + 0) + 1 = _
      omega
    · rw [if_pos (filter_eq_nil_of_not_any hany), if_neg hany]
      exact ih

/-- Where the weaker predicate holds no more often, it implies the stronger one. -/
theorem opensAll_of_countP
    (h : (rs.countP fun r => headIndexed M r.2) = rs.countP fun r => r.2.any M.indexed) :
    OpensAll M rs := by
  induction rs with
  | nil => nofun
  | cons r rs ih =>
    have hle : (rs.countP fun r => headIndexed M r.2) ≤ rs.countP fun r => r.2.any M.indexed :=
      List.countP_mono_left fun r _ => any_of_headIndexed
    rw [List.countP_cons, List.countP_cons] at h
    refine List.forall_mem_cons.mpr ⟨?_, ih ?_⟩
    · intro hany
      by_cases hhead : headIndexed M r.2 = true
      · exact hhead
      · rw [if_pos hany, if_neg hhead] at h
        omega
    · by_cases hhead : headIndexed M r.2 = true
      · rw [if_pos hhead, if_pos (any_of_headIndexed hhead)] at h
        omega
      · by_cases hany : r.2.any M.indexed = true
        · rw [if_pos hany, if_neg hhead] at h
          omega
        · rw [if_neg hany, if_neg hhead] at h
          exact h

/-- The indexed generator writes each device with its listed parameters that are indexed exactly
when each device with such a parameter has one first. -/
theorem indexed_eq_iff (h : us.Pairwise UpdateId.Before) :
    indexedCalls M none none us = (indexedParams M us).render ↔
      OpensAll M (groups UpdateId.device us) := by
  have hsorted := runs_of_sorted h
  have hnodup : ((runs UpdateId.device us).map Prod.fst).Nodup := by
    rw [runs_keys hsorted]
    exact List.nodup_dedup _
  have hindexed : indexedParams M us =
      .objects ((selectRuns M.indexed (runs UpdateId.device us)).map (deviceObject M)) := by
    rw [← runs_filter hsorted, runs_eq_groups (hsorted.sublist List.filter_sublist)]
    rfl
  rw [indexedCalls_eq, hindexed, ← runs_eq_groups hsorted]
  constructor
  · intro heq
    have hopened := congrArg opened heq
    rw [opened_indexedByRuns (by rintro _ ⟨⟩) hnodup, opened_selectRuns] at hopened
    exact opensAll_of_countP hopened
  · intro hopens
    rw [indexedByRuns_eq (by rintro _ ⟨⟩) hnodup hopens]
    rfl

/-! ### Both shadows -/

/-- For every list of a node the named params object is well nested and has each device with its
listed parameters. The indexed one has the same for the indexed parameters exactly when, in the
list, each device with an indexed parameter has an indexed one first. -/
theorem shadows_iff {l : List UpdateInfo} (h : Pending l) :
    Fields.build [] .nil (populateParams M l).1 = some (namedParams M (updateIds l)) ∧
      (Fields.build [] .nil (populateParams M l).2 = some (indexedParams M (updateIds l)) ↔
        OpensAll M (groups UpdateId.device (updateIds l))) := by
  rw [Fields.build_eq_some_iff, Fields.build_eq_some_iff, populateParams_eq]
  exact ⟨named_eq h.sorted, indexed_eq_iff h.sorted⟩

/-- A device with the parameters 1 and 2. -/
def sampleModel (flags : Nat → Nat) : Model where
  deviceId _ := ['L']
  paramId p := if p = 1 then ['a'] else ['b']
  propFlags := flags
  val _ := .integer 7

/-- The parameter at the higher address is indexed. -/
theorem indexedFirst_shadows :
    let l : List UpdateInfo := [.param ⟨9, 2⟩ 5, .flag 1 {} 6, .param ⟨9, 1⟩ 7]
    let M := sampleModel fun p => if p = 2 then 16 else 0
    OpensAll M (groups UpdateId.device (updateIds l)) ∧
      Fields.build [] .nil (populateParams M l).1 = some (namedParams M (updateIds l)) ∧
        (Fields.build [] .nil (populateParams M l).2 = some (indexedParams M (updateIds l)) ↔
          OpensAll M (groups UpdateId.device (updateIds l))) := by
  have hpending : Pending [.param ⟨9, 2⟩ 5, .flag 1 {} 6, .param ⟨9, 1⟩ 7] :=
    Reach.exec [.param ⟨9, 2⟩ 5 true, .flag 1 {} 6 true, .param ⟨9, 1⟩ 7 true] (.start rfl)
      (by decide) rfl
  exact ⟨by decide, shadows_iff hpending⟩

/-- The parameter at the lower address is indexed. Its value stands outside the object of the
device. -/
theorem indexedSecond_outside :
    let l : List UpdateInfo := [.param ⟨9, 2⟩ 5, .param ⟨9, 1⟩ 5]
    let M := sampleModel fun p => if p = 1 then 16 else 0
    Pending l ∧
      indexedParams M (updateIds l) = .object ['L'] (.set ['a'] (.integer 7) .nil) .nil ∧
      Fields.build [] .nil (populateParams M l).2 = some (.set ['a'] (.integer 7) .nil) ∧
      Fields.build [] .nil (populateParams M l).2 ≠ some (indexedParams M (updateIds l)) :=
  ⟨Reach.exec [.param ⟨9, 2⟩ 5 true, .param ⟨9, 1⟩ 5 true] (.start rfl) (by decide) rfl,
    by decide, by decide, by decide⟩

end RainMakerNeo.State
