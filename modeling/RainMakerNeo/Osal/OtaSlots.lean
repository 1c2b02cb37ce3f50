import RainMakerNeo.Lib.Run
import Mathlib.Data.ZMod.Defs

/-!
# `RainMakerNeo.Osal.OtaSlots`: update slots and rollback on POSIX

An application image is a file for each slot, and `ota_config.bin` holds the slot to boot, the last
slot that was marked valid and a state for each slot. The application writes and marks slots, and
the mock bootloader picks the next one to run.

A query for the next slot moves on by one each time, so the second query of a process gives the
booted slot (`second_query_gives_booted`). Nothing keeps an update away from the last valid slot,
and a configuration that is cut off in the middle of a save is read as a fresh one. `Careful` stays
away from these, and `slots_sound_of_careful` is what then holds over any history.

The index of the current slot is set when a process starts. The code sets it at the first call that
needs it, and no call before that writes the boot slot.
-/

set_option autoImplicit false

namespace RainMakerNeo.Osal.OtaSlots

open RainMakerNeo.Lib

/-! ### The configuration -/

/-- `osal_ota_img_states_t`. -/
inductive ImgState
  | valid | undefined | invalid | aborted | new | pendingVerify
  deriving DecidableEq, Repr

/-- The image waits to be marked valid. -/
def ImgState.Awaiting (st : ImgState) : Prop := st = .new ∨ st = .pendingVerify

instance (st : ImgState) : Decidable st.Awaiting := inferInstanceAs (Decidable (_ ∨ _))

/-- `ota_posix_config_t`. The number of slots, `OSAL_OTA_POSIX_PART_COUNT`, is `n + 2`. -/
structure Config (n : Nat) where
  boot : Fin (n + 2) := 0
  lastValid : Fin (n + 2) := 0
  states : Fin (n + 2) → ImgState := fun _ => .valid

/-- The file of a slot. -/
structure Slot where
  present : Bool
  /-- The image was marked valid and not overwritten since. The factory image counts as marked. -/
  good : Bool
  deriving DecidableEq, Repr

/-- `ota_posix_handle_t`. -/
structure Handle (n : Nat) where
  slot : Fin (n + 2)
  /-- The file is open. -/
  file : Bool
  deriving DecidableEq, Repr

/-- A running application. -/
structure Process (n : Nat) where
  running : Fin (n + 2)
  /-- `g_current_partition_idx`. -/
  current : Fin (n + 2)
  handles : List (Handle n) := []
  deriving DecidableEq, Repr

/-- A slot that was handed out for an update, and the one that was handed out before it if the boot
slot was not switched since. -/
structure Handout (n : Nat) where
  slot : Fin (n + 2)
  running : Fin (n + 2)
  previous : Option (Fin (n + 2))
  deriving DecidableEq, Repr

/-- A slot that was booted. -/
structure Boot where
  /-- The image before it was marked invalid, or its process ended before it was marked valid. -/
  afterFailure : Bool
  good : Bool
  deriving DecidableEq, Repr

/-- The host. The fields from `lastRun` on are history. -/
structure State (n : Nat) where
  /-- `ota_config.bin`, `none` if it is not there or not complete. -/
  config : Option (Config n) := none
  slots : Fin (n + 2) → Slot := fun i => ⟨i = 0, i = 0⟩
  /-- The application, `none` while the bootloader is in charge. -/
  process : Option (Process n) := none
  lastRun : Fin (n + 2) := 0
  failed : Bool := false
  handed : Option (Fin (n + 2)) := none
  handouts : List (Handout n) := []
  boots : List Boot := []

/-- The outcome of `save_config`. -/
inductive Save
  | done
  | refused
  /-- The file is truncated and not written, because of an error or a crash. -/
  | emptied
  deriving DecidableEq, Repr

variable {n : Nat}

/-- `load_config`. -/
def State.load (s : State n) : Config n := s.config.getD {}

/-- The file is replaced. If that switches the boot slot, the history of queries starts anew. -/
def State.writeConfig (s : State n) (config : Option (Config n)) : State n :=
  { s with
    config := config
    handed := if (config.getD {}).boot = s.load.boot then s.handed else none }

/-- `save_config`. -/
def State.save (s : State n) (c : Config n) (o : Save) : State n :=
  match o with
  | .done => s.writeConfig (some c)
  | .refused => s
  | .emptied => s.writeConfig none

/-- `osal_ota_posix_config_set_boot_partition`. -/
def State.configSetBoot (s : State n) (i : Fin (n + 2)) (o : Save) : State n :=
  s.save { s.load with boot := i } o

/-- `osal_ota_posix_config_set_last_valid_partition`. -/
def State.configSetLastValid (s : State n) (i : Fin (n + 2)) (o : Save) : State n :=
  s.save { s.load with lastValid := i, states := Function.update s.load.states i .valid } o

/-- `osal_ota_posix_config_mark_invalid_rollback`. -/
def State.configMarkInvalid (s : State n) (i : Fin (n + 2)) (o : Save) : State n :=
  s.save { s.load with
    boot := s.load.lastValid
    states := Function.update s.load.states i .invalid } o

/-- `osal_ota_posix_config_set_partition_state`. -/
def State.configSetState (s : State n) (i : Fin (n + 2)) (st : ImgState) (o : Save) : State n :=
  s.save { s.load with states := Function.update s.load.states i st } o

/-! ### The application -/

/-- The partition argument of a call. -/
inductive PartArg (n : Nat)
  | null
  | slot (i : Fin (n + 2))
  /-- No slot has the label. -/
  | unknown
  deriving DecidableEq, Repr

/-- The slot of `osal_ota_begin` and `osal_ota_resume`. -/
def Process.target (p : Process n) : PartArg n → Option (Fin (n + 2))
  | .null => some p.current
  | .slot i => some i
  | .unknown => none

/-- The slot from which `osal_ota_get_next_update_partition` goes on. -/
def Process.start (p : Process n) : PartArg n → Fin (n + 2)
  | .slot i => i
  | .null | .unknown => p.current

/-- Write the file of a slot. -/
def State.setSlot (s : State n) (i : Fin (n + 2)) (slot : Slot) : State n :=
  { s with slots := Function.update s.slots i slot }

/-- The default slot is handed out when no partition is given. -/
def State.handOutDefault (s : State n) (p : Process n) : PartArg n → State n
  | .null => { s with handouts := ⟨p.current, p.running, none⟩ :: s.handouts }
  | .slot _ | .unknown => s

/-- A new handle. -/
def State.openHandle (s : State n) (p : Process n) (i : Fin (n + 2)) : State n :=
  { s with process := some { p with handles := ⟨i, true⟩ :: p.handles } }

/-- `osal_ota_begin`. -/
def State.begin (s : State n) (p : Process n) (arg : PartArg n) (opens : Bool) : State n :=
  match p.target arg with
  | none => s
  | some i =>
    let s := s.handOutDefault p arg
    if opens then (s.setSlot i ⟨true, false⟩).openHandle p i else s

/-- `osal_ota_resume`. -/
def State.resume (s : State n) (p : Process n) (arg : PartArg n) (opens : Bool) : State n :=
  match p.target arg with
  | none => s
  | some i =>
    let s := s.handOutDefault p arg
    if (s.slots i).present && opens then s.openHandle p i else s

/-- `osal_ota_write_with_offset`. A write that fails may have written something. -/
def State.write (s : State n) (h : Handle n) : State n :=
  if h.file then s.setSlot h.slot { s.slots h.slot with good := false } else s

/-- `osal_ota_end`. If the state of the slot cannot be saved, the handle stays, with its file
closed. -/
def State.finish (s : State n) (p : Process n) (k : Nat) (h : Handle n) (o : Save) : State n :=
  { s.configSetState h.slot .new o with
    process := some { p with
      handles :=
        if o = .done then p.handles.eraseIdx k else p.handles.set k { h with file := false } } }

/-- `osal_ota_abort`. -/
def State.abort (s : State n) (p : Process n) (k : Nat) (h : Handle n) : State n :=
  { s.setSlot h.slot ⟨false, false⟩ with
    process := some { p with handles := p.handles.eraseIdx k } }

/-- `osal_ota_get_next_update_partition`. -/
def State.query (s : State n) (p : Process n) (arg : PartArg n) : State n :=
  let next := p.start arg + 1
  { s with
    process := some { p with current := next }
    handed := some next
    handouts := ⟨next, p.running, s.handed⟩ :: s.handouts }

/-- `osal_ota_set_boot_partition`. -/
def State.setBoot (s : State n) (arg : PartArg n) (o : Save) : State n :=
  match arg with
  | .slot i => s.configSetBoot i o
  | .null | .unknown => s

/-- `osal_ota_mark_app_valid_cancel_rollback`. It marks the boot slot. -/
def State.markValid (s : State n) (o : Save) : State n :=
  let boot := s.load.boot
  let s' := s.configSetLastValid boot o
  if o = .done then s'.setSlot boot { s.slots boot with good := (s.slots boot).present } else s'

/-- `osal_ota_mark_app_invalid_rollback_and_reboot`. -/
def State.markInvalid (s : State n) (o : Save) : State n :=
  let s' := s.configMarkInvalid s.load.boot o
  if o = .done then { s' with process := none, failed := true } else s'

/-- The process exits or crashes. The image has failed if it was not marked valid before. -/
def State.exit (s : State n) (p : Process n) : State n :=
  { s with process := none, failed := s.failed || !(s.slots p.running).good }

/-! ### The bootloader -/

/-- `apply_rollback_policy` for the boot slot, with the outcomes of the two saves. -/
def State.applyRollbackPolicy (s : State n) (first second : Save) :
    Option (Fin (n + 2)) × State n :=
  let c := s.load
  match c.states c.boot with
  | .new =>
    (if first = .done then some c.boot else none, s.configSetState c.boot .pendingVerify first)
  | .pendingVerify =>
    if c.lastValid = c.boot then (some c.boot, s)
    else
      let s := s.configSetState c.boot .aborted first
      if first = .done then
        (if second = .done then some c.lastValid else none, s.configSetBoot c.lastValid second)
      else (none, s)
  | _ => (some c.boot, s)

/-- The fallback of `get_next_target` when the file of the slot `i` is missing. -/
def State.fallBack (s : State n) (i : Fin (n + 2)) (o : Save) : Option (Fin (n + 2)) × State n :=
  let lastValid := s.load.lastValid
  let s := if lastValid ≠ i then s.configSetBoot lastValid o else s
  (if (s.slots lastValid).present then some lastValid else none, s)

/-- `get_next_target`. -/
def State.getNextTarget (s : State n) (first second third : Save) :
    Option (Fin (n + 2)) × State n :=
  match s.applyRollbackPolicy first second with
  | (none, s) => (none, s)
  | (some i, s) => if (s.slots i).present then (some i, s) else s.fallBack i third

/-- The image of a slot is executed. -/
def State.launch (s : State n) (i : Fin (n + 2)) : State n :=
  { s with
    process := some ⟨i, s.load.boot, []⟩
    lastRun := i
    failed := false
    handed := if i = s.lastRun then s.handed else none
    boots := ⟨s.failed, (s.slots i).good⟩ :: s.boots }

/-- One round of the bootloader. If there is no target, nothing runs. -/
def State.boot (s : State n) (first second third : Save) : State n :=
  match s.getNextTarget first second third with
  | (none, s) => s
  | (some i, s) => s.launch i

/-! ### Runs -/

/-- What happens next. A handle is given by its place. -/
inductive Action (n : Nat)
  | boot (first second third : Save)
  | begin (arg : PartArg n) (opens : Bool)
  | resume (arg : PartArg n) (opens : Bool)
  | write (k : Nat)
  | finish (k : Nat) (o : Save)
  | abort (k : Nat)
  | query (arg : PartArg n)
  | setBoot (arg : PartArg n) (o : Save)
  | markValid (o : Save)
  | markInvalid (o : Save)
  | exit
  deriving DecidableEq, Repr

/-- A call of a running application. -/
def State.call (s : State n) (p : Process n) : Action n → Option (State n)
  | .boot _ _ _ => none
  | .begin arg opens => some (s.begin p arg opens)
  | .resume arg opens => some (s.resume p arg opens)
  | .write k => p.handles[k]?.map fun h => s.write h
  | .finish k o => p.handles[k]?.map fun h => s.finish p k h o
  | .abort k => p.handles[k]?.map fun h => s.abort p k h
  | .query arg => some (s.query p arg)
  | .setBoot arg o => some (s.setBoot arg o)
  | .markValid o => some (s.markValid o)
  | .markInvalid o => some (s.markInvalid o)
  | .exit => some (s.exit p)

/-- The next step. -/
def step (s : State n) (a : Action n) : Option (State n) :=
  match s.process, a with
  | none, .boot first second third => some (s.boot first second third)
  | none, _ => none
  | some p, a => s.call p a

/-- A host with the factory image in the first slot. -/
def Initial (s : State n) : Prop := s = {}

/-- **Soundness.** The slot that is handed out is not the booted one, and it is the one that was
handed out before. After a failed image, the booted slot holds an image that was marked valid and not
overwritten since. -/
structure Sound (s : State n) : Prop where
  handouts : ∀ h ∈ s.handouts, h.slot ≠ h.running ∧ ∀ i ∈ h.previous, h.slot = i
  boots : ∀ b ∈ s.boots, b.afterFailure = true → b.good = true

/-- An image in the slot may be booted for verification: the bootloader will not take it for a valid
one, and the running image is one to go back from. -/
def Bootable (s : State n) (p : Process n) (i : Fin (n + 2)) : Prop :=
  (s.load.states i).Awaiting ∧ (s.slots p.running).good = true

/-- The slot is not the running one and not the last valid one, and if it boots next, it is for
verification. -/
def Overwritable (s : State n) (p : Process n) (i : Fin (n + 2)) : Prop :=
  i ≠ p.running ∧ i ≠ s.load.lastValid ∧ (i = s.load.boot → Bootable s p i)

/-- The calls that keep the slots sound. -/
def CarefulCall (s : State n) (p : Process n) : Action n → Prop
  | .begin arg _ => ∀ i ∈ p.target arg, Overwritable s p i
  | .resume arg _ => ∀ i ∈ p.target arg, i ≠ p.running
  | .write k | .abort k => ∀ h ∈ p.handles[k]?, Overwritable s p h.slot
  | .finish k o => o ≠ .emptied ∧ ∀ h ∈ p.handles[k]?, h.slot ≠ p.running
  -- the first query of the process
  | .query arg => p.start arg = p.running
  | .setBoot arg o => o ≠ .emptied ∧ ∀ i, arg = .slot i →
    (s.slots i).good = true ∨ i = p.running ∨ Bootable s p i
  | .markValid o => o ≠ .emptied ∧ s.load.boot = p.running
  | .markInvalid o => o ≠ .emptied
  | .boot _ _ _ | .exit => True

/-- The steps that keep the slots sound. -/
def Careful (s : State n) (a : Action n) : Prop :=
  match s.process, a with
  | none, .boot first second third => first ≠ .emptied ∧ second = .done ∧ third ≠ .emptied
  | none, _ => True
  | some p, a => CarefulCall s p a

/-! ### The invariant -/

/-- How a configuration has to fit the slots, the application and a failure. -/
structure Fits (slots : Fin (n + 2) → Slot) (process : Option (Process n)) (failed : Bool)
    (c : Config n) : Prop where
  lastValid : (slots c.lastValid).good = true
  boot : (slots c.boot).good = true ∨ (c.states c.boot).Awaiting
  /-- An image that was not marked valid can only leave the boot to itself or to a good slot. -/
  running : ∀ p ∈ process, (slots p.running).good = true ∨
    c.states p.running = .pendingVerify ∧ (c.boot = p.running ∨ (slots c.boot).good = true)
  /-- After a failure the bootloader goes back. -/
  failed : failed = true → (slots c.boot).good = true ∨ c.states c.boot = .pendingVerify

/-- What every careful step keeps. -/
structure Inv (s : State n) : Prop where
  fits : Fits s.slots s.process s.failed s.load
  present : ∀ i, (s.slots i).good = true → (s.slots i).present = true
  process : ∀ p ∈ s.process,
    (s.slots p.running).present = true ∧ p.running = s.lastRun ∧ s.failed = false
  handed : ∀ i ∈ s.handed, i = s.lastRun + 1
  sound : Sound s

variable {s t : State n} {p : Process n} {c : Config n} {o : Save} {i : Fin (n + 2)}

@[simp] theorem load_save_done : (s.save c .done).load = c := rfl

@[simp] theorem save_refused : s.save c .refused = s := rfl

/-- A save touches the configuration, and it can only shorten the history of queries. -/
theorem save_frame : (s.save c o).slots = s.slots ∧ (s.save c o).process = s.process ∧
    (s.save c o).lastRun = s.lastRun ∧ (s.save c o).failed = s.failed ∧
    (s.save c o).handouts = s.handouts ∧ (s.save c o).boots = s.boots ∧
    ∀ i ∈ (s.save c o).handed, i ∈ s.handed := by
  have hwrite : ∀ config : Option (Config n), ∀ i ∈ (s.writeConfig config).handed, i ∈ s.handed := by
    intro config i hi
    unfold State.writeConfig at hi
    split at hi
    · exact hi
    · cases hi
  cases o with
  | done => exact ⟨rfl, rfl, rfl, rfl, rfl, rfl, hwrite (some c)⟩
  | refused => exact ⟨rfl, rfl, rfl, rfl, rfl, rfl, fun _ hi => hi⟩
  | emptied => exact ⟨rfl, rfl, rfl, rfl, rfl, rfl, hwrite none⟩

/-- A save keeps the invariant if the new configuration fits. -/
theorem Inv.save (h : Inv s) (ho : o ≠ .emptied)
    (hfits : o = .done → Fits s.slots s.process s.failed c) : Inv (s.save c o) := by
  cases o with
  | emptied => exact absurd rfl ho
  | refused => exact h
  | done =>
    obtain ⟨_, _, _, _, _, _, hhanded⟩ := save_frame (s := s) (c := c) (o := .done)
    exact ⟨hfits rfl, h.present, h.process, fun i hi => h.handed i (hhanded i hi),
      ⟨h.sound.handouts, h.sound.boots⟩⟩

/-- Nothing depends on the handles and the current slot of the application. -/
theorem Inv.withProcess (h : Inv s) (hp : s.process = some p) {q : Process n}
    (hq : q.running = p.running) : Inv { s with process := some q } where
  fits := by
    refine ⟨h.fits.lastValid, h.fits.boot, ?_, h.fits.failed⟩
    intro q' hq'
    cases hq'
    rw [hq]
    exact h.fits.running p hp
  present := h.present
  process := by
    intro q' hq'
    cases hq'
    rw [hq]
    exact h.process p hp
  handed := h.handed
  sound := ⟨h.sound.handouts, h.sound.boots⟩

/-- A file that may be overwritten can be changed in any way. -/
theorem Inv.overwrite (h : Inv s) (hp : s.process = some p) (hi : Overwritable s p i) (b : Bool) :
    Inv (s.setSlot i ⟨b, false⟩) := by
  obtain ⟨hrunning, hlast, hboot⟩ := hi
  have hsame : ∀ j, j ≠ i → Function.update s.slots i ⟨b, false⟩ j = s.slots j :=
    fun j hj => Function.update_of_ne hj _ _
  have hprocess : ∀ q ∈ s.process, q = p := by
    intro q hq
    rw [hp] at hq
    exact (Option.some.inj hq).symm
  have hfailed : s.failed = false := (h.process p hp).2.2
  refine ⟨⟨?_, ?_, ?_, ?_⟩, ?_, ?_, h.handed, ⟨h.sound.handouts, h.sound.boots⟩⟩
  · show (Function.update s.slots i ⟨b, false⟩ s.load.lastValid).good = true
    rw [hsame _ (Ne.symm hlast)]
    exact h.fits.lastValid
  · show (Function.update s.slots i ⟨b, false⟩ s.load.boot).good = true ∨
      (s.load.states s.load.boot).Awaiting
    by_cases hb : i = s.load.boot
    · rw [← hb]
      exact .inr (hboot hb).1
    · rw [hsame _ (Ne.symm hb)]
      exact h.fits.boot
  · intro q hq
    show (Function.update s.slots i ⟨b, false⟩ q.running).good = true ∨
      s.load.states q.running = .pendingVerify ∧ (s.load.boot = q.running ∨
        (Function.update s.slots i ⟨b, false⟩ s.load.boot).good = true)
    cases hprocess q hq
    rw [hsame _ (Ne.symm hrunning)]
    by_cases hb : i = s.load.boot
    · exact .inl (hboot hb).2
    · rw [hsame _ (Ne.symm hb)]
      exact h.fits.running p hp
  · intro hf
    rw [show s.failed = true from hf] at hfailed
    cases hfailed
  · intro j hj
    by_cases hji : j = i
    · subst hji
      rw [show (s.setSlot j ⟨b, false⟩).slots j = ⟨b, false⟩ from Function.update_self _ _ _] at hj
      cases hj
    · rw [show (s.setSlot i ⟨b, false⟩).slots j = s.slots j from hsame j hji] at hj ⊢
      exact h.present j hj
  · intro q hq
    cases hprocess q hq
    rw [show (s.setSlot i ⟨b, false⟩).slots p.running = s.slots p.running from
      hsame _ (Ne.symm hrunning)]
    exact h.process p hp

variable {arg : PartArg n} {f : Handle n}

/-- A slot that is handed out by a query comes after the running one. -/
theorem Inv.query (h : Inv s) (hp : s.process = some p) (hg : p.start arg = p.running) :
    Inv (s.query p arg) := by
  have hlast : p.running = s.lastRun := (h.process p hp).2.1
  have hnext : p.start arg + 1 = s.lastRun + 1 := by
    rw [hg, hlast]
  have hmoved : Inv { s with process := some { p with current := p.start arg + 1 } } :=
    h.withProcess hp rfl
  refine ⟨hmoved.fits, hmoved.present, hmoved.process, ?_, ⟨?_, h.sound.boots⟩⟩
  · rintro i ⟨⟩
    exact hnext
  · intro r hr
    rcases List.mem_cons.mp hr with rfl | hr
    · refine ⟨?_, fun i hi => ?_⟩
      · show p.start arg + 1 ≠ p.running
        rw [hg]
        simp
      · show p.start arg + 1 = i
        rw [hnext, h.handed i hi]
    · exact h.sound.handouts r hr

/-- The default slot may be used if it is not the running one. -/
theorem Inv.handOutDefault (h : Inv s) (hg : ∀ i ∈ p.target arg, i ≠ p.running) :
    Inv (s.handOutDefault p arg) := by
  cases arg with
  | null =>
    refine ⟨h.fits, h.present, h.process, h.handed, ⟨?_, h.sound.boots⟩⟩
    intro r hr
    rcases List.mem_cons.mp hr with rfl | hr
    · exact ⟨hg p.current rfl, nofun⟩
    · exact h.sound.handouts r hr
  | slot i => exact h
  | unknown => exact h

theorem handOutDefault_process : (s.handOutDefault p arg).process = s.process := by
  cases arg <;> rfl

section
variable (h : Inv s)
include h

section
variable (hp : s.process = some p)
include hp

theorem Inv.begin {opens : Bool} (hg : ∀ i ∈ p.target arg, Overwritable s p i) :
    Inv (s.begin p arg opens) := by
  unfold State.begin
  cases ht : p.target arg with
  | none => exact h
  | some i =>
    have hi : Overwritable s p i := hg i ht
    have hdefault : Inv (s.handOutDefault p arg) := h.handOutDefault fun j hj => (hg j hj).1
    have hp' : (s.handOutDefault p arg).process = some p := handOutDefault_process.trans hp
    have hi' : Overwritable (s.handOutDefault p arg) p i := by
      cases arg <;> exact hi
    cases opens with
    | false => exact hdefault
    | true => exact (hdefault.overwrite hp' hi' true).withProcess hp' rfl

theorem Inv.resume {opens : Bool} (hg : ∀ i ∈ p.target arg, i ≠ p.running) :
    Inv (s.resume p arg opens) := by
  unfold State.resume
  cases ht : p.target arg with
  | none => exact h
  | some i =>
    have hdefault : Inv (s.handOutDefault p arg) := h.handOutDefault hg
    dsimp only
    split
    · exact hdefault.withProcess (handOutDefault_process.trans hp) rfl
    · exact hdefault

theorem Inv.write (hg : Overwritable s p f.slot) : Inv (s.write f) := by
  unfold State.write
  split
  · exact h.overwrite hp hg (s.slots f.slot).present
  · exact h

theorem Inv.abort (k : Nat) (hg : Overwritable s p f.slot) : Inv (s.abort p k f) :=
  (h.overwrite hp hg false).withProcess hp rfl

/-- While an application runs, no failure is pending. -/
theorem Inv.not_failed {P : Prop} : s.failed = true → P := by
  intro hf
  rw [(h.process p hp).2.2] at hf
  cases hf

theorem Inv.finish (k : Nat) (ho : o ≠ .emptied) (hg : f.slot ≠ p.running) :
    Inv (s.finish p k f o) := by
  have hsaved : Inv (s.configSetState f.slot .new o) := by
    refine h.save ho fun _ => ⟨h.fits.lastValid, ?_, ?_, h.not_failed hp⟩
    · show _ ∨ (Function.update s.load.states f.slot .new s.load.boot).Awaiting
      by_cases hb : s.load.boot = f.slot
      · rw [hb, Function.update_self]
        exact .inr (.inl rfl)
      · rw [Function.update_of_ne hb]
        exact h.fits.boot
    · intro q hq
      show _ ∨ Function.update s.load.states f.slot .new q.running = .pendingVerify ∧ _
      rw [hp] at hq
      cases hq
      rw [Function.update_of_ne (Ne.symm hg)]
      exact h.fits.running p hp
  have hp' : (s.configSetState f.slot .new o).process = some p :=
    (save_frame (s := s)).2.1.trans hp
  exact hsaved.withProcess hp' rfl

theorem Inv.setBoot (ho : o ≠ .emptied)
    (hg : ∀ i, arg = .slot i → (s.slots i).good = true ∨ i = p.running ∨ Bootable s p i) :
    Inv (s.setBoot arg o) := by
  cases arg with
  | null => exact h
  | unknown => exact h
  | slot i =>
    have hrun := h.fits.running p hp
    refine h.save ho fun _ => ⟨h.fits.lastValid, ?_, ?_, h.not_failed hp⟩
    · show (s.slots i).good = true ∨ (s.load.states i).Awaiting
      rcases hg i rfl with hgood | rfl | hbootable
      · exact .inl hgood
      · exact hrun.imp_right fun hpending => .inr hpending.1
      · exact .inr hbootable.1
    · intro q hq
      show _ ∨ s.load.states q.running = .pendingVerify ∧ (i = q.running ∨ _)
      rw [hp] at hq
      cases hq
      rcases hg i rfl with hgood | hself | hbootable
      · exact hrun.imp_right fun hpending => ⟨hpending.1, .inr hgood⟩
      · exact hrun.imp_right fun hpending => ⟨hpending.1, .inl hself⟩
      · exact .inl hbootable.2

/-- The running image can be counted as marked valid. -/
theorem Inv.mark : Inv (s.setSlot p.running { s.slots p.running with good := true }) := by
  have hmono : ∀ j, (s.slots j).good = true →
      (Function.update s.slots p.running { s.slots p.running with good := true } j).good = true := by
    intro j hj
    by_cases hr : j = p.running
    · subst hr
      rw [Function.update_self]
    · rwa [Function.update_of_ne hr]
  have hpresent : ∀ j, (Function.update s.slots p.running
      { s.slots p.running with good := true } j).present = (s.slots j).present := by
    intro j
    by_cases hr : j = p.running
    · subst hr
      rw [Function.update_self]
    · rw [Function.update_of_ne hr]
  refine ⟨⟨hmono _ h.fits.lastValid, h.fits.boot.imp_left (hmono _), ?_, h.not_failed hp⟩, ?_, ?_,
    h.handed, ⟨h.sound.handouts, h.sound.boots⟩⟩
  · intro q hq
    exact (h.fits.running q hq).imp (hmono _) fun hpending =>
      ⟨hpending.1, hpending.2.imp_right (hmono _)⟩
  · intro j hj
    show (Function.update s.slots p.running { s.slots p.running with good := true } j).present = true
    rw [hpresent]
    by_cases hr : j = p.running
    · rw [hr]
      exact (h.process p hp).1
    · rw [show (s.setSlot p.running { s.slots p.running with good := true }).slots j = s.slots j from
        Function.update_of_ne hr _ _] at hj
      exact h.present j hj
  · intro q hq
    rw [show (s.setSlot p.running { s.slots p.running with good := true }).slots q.running =
      Function.update s.slots p.running { s.slots p.running with good := true } q.running from rfl,
      hpresent]
    exact h.process q hq

theorem Inv.markValid (ho : o ≠ .emptied) (hg : s.load.boot = p.running) : Inv (s.markValid o) := by
  cases o with
  | emptied => exact absurd rfl ho
  | refused => exact h
  | done =>
    -- the mark first, then the configuration that relies on it
    have hmarked : Inv (s.setSlot p.running { s.slots p.running with good := true }) := h.mark hp
    have hrunning : ((s.setSlot p.running { s.slots p.running with good := true }).slots
        p.running).good = true := by
      show (Function.update s.slots p.running { s.slots p.running with good := true }
        p.running).good = true
      rw [Function.update_self]
    have hgood : ((s.setSlot p.running { s.slots p.running with good := true }).slots
        s.load.boot).good = true := hg ▸ hrunning
    have hsaved := hmarked.save (c := { s.load with
      lastValid := s.load.boot
      states := Function.update s.load.states s.load.boot .valid }) ho fun _ =>
        ⟨hgood, .inl hgood, fun q hq => .inl (by
          rw [show s.process = some q from hq] at hp
          cases hp
          exact hrunning), hmarked.not_failed hp⟩
    have hpresent : (s.slots s.load.boot).present = true := by
      rw [hg]
      exact (h.process p hp).1
    show Inv ((s.configSetLastValid s.load.boot .done).setSlot s.load.boot
      { s.slots s.load.boot with good := (s.slots s.load.boot).present })
    rw [hpresent, hg]
    rw [hg] at hsaved
    exact hsaved

end

theorem Inv.markInvalid (ho : o ≠ .emptied) : Inv (s.markInvalid o) := by
  cases o with
  | emptied => exact absurd rfl ho
  | refused => exact h
  | done =>
    have hhanded : ∀ i ∈ (s.configMarkInvalid s.load.boot .done).handed, i ∈ s.handed :=
      (save_frame (s := s)).2.2.2.2.2.2
    exact ⟨⟨h.fits.lastValid, .inl h.fits.lastValid, nofun, fun _ => .inl h.fits.lastValid⟩,
      h.present, nofun, fun i hi => h.handed i (hhanded i hi),
      ⟨h.sound.handouts, h.sound.boots⟩⟩

theorem Inv.exit (hp : s.process = some p) : Inv (s.exit p) := by
  refine ⟨⟨h.fits.lastValid, h.fits.boot, nofun, ?_⟩, h.present, nofun, h.handed,
    ⟨h.sound.handouts, h.sound.boots⟩⟩
  intro hf
  rw [show (s.exit p).failed = (s.failed || !(s.slots p.running).good) from rfl,
    (h.process p hp).2.2, Bool.false_or, Bool.not_eq_true'] at hf
  rcases h.fits.running p hp with hgood | ⟨hpending, hself | hgood⟩
  · rw [hgood] at hf
    cases hf
  · show (s.slots s.load.boot).good = true ∨ s.load.states s.load.boot = .pendingVerify
    rw [hself]
    exact .inr hpending
  · exact .inl hgood

/-! ### The bootloader keeps the invariant -/

/-- What makes a slot a target: a good image, or one that is verified in this boot. -/
structure Target (s : State n) (i : Fin (n + 2)) : Prop where
  running : (s.slots i).good = true ∨
    s.load.states i = .pendingVerify ∧ (s.load.boot = i ∨ (s.slots s.load.boot).good = true)
  failed : s.failed = true → (s.slots i).good = true

theorem Inv.launch (hi : Target s i) (hpresent : (s.slots i).present = true) :
    Inv (s.launch i) := by
  refine ⟨⟨h.fits.lastValid, h.fits.boot, ?_, nofun⟩, h.present, ?_, ?_, ⟨h.sound.handouts, ?_⟩⟩
  · rintro q ⟨⟩
    exact hi.running
  · rintro q ⟨⟩
    exact ⟨hpresent, rfl, rfl⟩
  · intro j hj
    show j = i + 1
    change (j ∈ if i = s.lastRun then s.handed else none) at hj
    split at hj
    · rename_i hsame
      rw [hsame]
      exact h.handed j hj
    · cases hj
  · intro b hb hfailure
    rcases List.mem_cons.mp hb with rfl | hb
    · exact hi.failed hfailure
    · exact h.sound.boots b hb hfailure

/-- The rollback policy keeps the invariant, and what it picks is a target. -/
theorem Inv.applyRollbackPolicy (hp : s.process = none) {first second : Save}
    (hfirst : first ≠ .emptied) (hsecond : second = .done) :
    Inv (s.applyRollbackPolicy first second).2 ∧
      (s.applyRollbackPolicy first second).2.process = none ∧
      ∀ i ∈ (s.applyRollbackPolicy first second).1,
        Target (s.applyRollbackPolicy first second).2 i := by
  have hnone : ∀ {Q : Process n → Prop}, ∀ q ∈ s.process, Q q := by
    intro Q q hq
    rw [hp] at hq
    cases hq
  cases hst : s.load.states s.load.boot with
  | new =>
    simp only [State.applyRollbackPolicy, hst]
    -- the image is booted for verification
    have hgood : s.failed = true → (s.slots s.load.boot).good = true := by
      intro hf
      rcases h.fits.failed hf with hgood | hpending
      · exact hgood
      · rw [hst] at hpending
        cases hpending
    have hupdate : Function.update s.load.states s.load.boot .pendingVerify s.load.boot =
        .pendingVerify := Function.update_self _ _ _
    refine ⟨h.save hfirst fun _ => ⟨h.fits.lastValid, ?_, hnone, ?_⟩,
      (save_frame (s := s)).2.1.trans hp, ?_⟩
    · exact .inr (.inr hupdate)
    · exact fun _ => .inr hupdate
    · intro i hi
      cases first with
      | done =>
        cases hi
        exact ⟨.inr ⟨hupdate, .inl rfl⟩, hgood⟩
      | refused => cases hi
      | emptied => exact absurd rfl hfirst
  | pendingVerify =>
    simp only [State.applyRollbackPolicy, hst]
    split
    · rename_i hself
      have hgood : (s.slots s.load.boot).good = true := hself ▸ h.fits.lastValid
      refine ⟨h, hp, ?_⟩
      rintro i ⟨⟩
      exact ⟨.inl hgood, fun _ => hgood⟩
    · -- the image had its boot
      subst hsecond
      cases first with
      | emptied => exact absurd rfl hfirst
      | refused => exact ⟨h, hp, nofun⟩
      | done =>
        have hhanded : ∀ i ∈ ((s.configSetState s.load.boot .aborted .done).configSetBoot
            s.load.lastValid .done).handed, i ∈ s.handed := fun i hi =>
          (save_frame (s := s)).2.2.2.2.2.2 i ((save_frame (o := .done)).2.2.2.2.2.2 i hi)
        refine ⟨⟨⟨h.fits.lastValid, .inl h.fits.lastValid, hnone, fun _ => .inl h.fits.lastValid⟩,
          h.present, hnone, fun i hi => h.handed i (hhanded i hi),
          ⟨h.sound.handouts, h.sound.boots⟩⟩, hp, ?_⟩
        rintro i ⟨⟩
        exact ⟨.inl h.fits.lastValid, fun _ => h.fits.lastValid⟩
  | _ =>
    simp only [State.applyRollbackPolicy, hst]
    -- only a good image is booted without verification
    have hgood : (s.slots s.load.boot).good = true := by
      rcases h.fits.boot with hgood | hnew | hpending
      · exact hgood
      · rw [hst] at hnew
        cases hnew
      · rw [hst] at hpending
        cases hpending
    refine ⟨h, hp, ?_⟩
    rintro i ⟨⟩
    exact ⟨.inl hgood, fun _ => hgood⟩

theorem Inv.fallBack (hp : s.process = none) (i : Fin (n + 2)) (ho : o ≠ .emptied) :
    Inv (s.fallBack i o).2 ∧
      ∀ j ∈ (s.fallBack i o).1, Target (s.fallBack i o).2 j ∧
        ((s.fallBack i o).2.slots j).present = true := by
  have hsaved : Inv (if s.load.lastValid ≠ i then s.configSetBoot s.load.lastValid o else s) := by
    split
    · refine h.save ho fun _ => ⟨h.fits.lastValid, .inl h.fits.lastValid, ?_,
        fun _ => .inl h.fits.lastValid⟩
      intro q hq
      rw [hp] at hq
      cases hq
    · exact h
  have hslots : (if s.load.lastValid ≠ i then s.configSetBoot s.load.lastValid o else s).slots =
      s.slots := by
    split
    · exact (save_frame (s := s)).1
    · rfl
  unfold State.fallBack
  dsimp only
  rw [hslots, if_pos (h.present _ h.fits.lastValid)]
  refine ⟨hsaved, ?_⟩
  rintro j ⟨⟩
  refine ⟨⟨.inl ?_, fun _ => ?_⟩, h.present _ h.fits.lastValid⟩
  · rw [hslots]
    exact h.fits.lastValid
  · rw [hslots]
    exact h.fits.lastValid

theorem Inv.boot (hp : s.process = none) {first second third : Save} (hfirst : first ≠ .emptied)
    (hsecond : second = .done) (hthird : third ≠ .emptied) : Inv (s.boot first second third) := by
  obtain ⟨hinv, hnone, htarget⟩ := h.applyRollbackPolicy hp hfirst hsecond
  unfold State.boot State.getNextTarget
  generalize s.applyRollbackPolicy first second = r at hinv hnone htarget
  obtain ⟨target, s'⟩ := r
  cases target with
  | none => exact hinv
  | some i =>
    dsimp only at hinv hnone htarget ⊢
    by_cases hpresent : (s'.slots i).present = true
    · rw [if_pos hpresent]
      exact hinv.launch (htarget i rfl) hpresent
    · rw [if_neg hpresent]
      obtain ⟨hback, hfound⟩ := hinv.fallBack hnone i hthird
      generalize s'.fallBack i third = r at hback hfound
      obtain ⟨found, s''⟩ := r
      cases found with
      | none => exact hback
      | some j => exact hback.launch (hfound j rfl).1 (hfound j rfl).2

end

/-! ### Every run -/

theorem Inv.start (h : Initial s) : Inv s := by
  cases h
  refine ⟨⟨rfl, .inl rfl, nofun, nofun⟩, ?_, nofun, nofun, ⟨nofun, nofun⟩⟩
  intro i hi
  exact hi

/-- A careful call keeps the invariant. -/
theorem Inv.call {a : Action n} (h : Inv s) (hp : s.process = some p) (hg : CarefulCall s p a)
    (ht : s.call p a = some t) : Inv t := by
  cases a with
  | boot first second third => cases ht
  | begin arg opens =>
    cases ht
    exact h.begin hp hg
  | resume arg opens =>
    cases ht
    exact h.resume hp hg
  | write k =>
    obtain ⟨f, hf, rfl⟩ := Option.map_eq_some_iff.mp ht
    exact h.write hp (hg f hf)
  | finish k o =>
    obtain ⟨f, hf, rfl⟩ := Option.map_eq_some_iff.mp ht
    exact h.finish hp k hg.1 (hg.2 f hf)
  | abort k =>
    obtain ⟨f, hf, rfl⟩ := Option.map_eq_some_iff.mp ht
    exact h.abort hp k (hg f hf)
  | query arg =>
    cases ht
    exact h.query hp hg
  | setBoot arg o =>
    cases ht
    exact h.setBoot hp hg.1 hg.2
  | markValid o =>
    cases ht
    exact h.markValid hp hg.1 hg.2
  | markInvalid o =>
    cases ht
    exact h.markInvalid hg
  | exit =>
    cases ht
    exact h.exit hp

/-- One careful step keeps the invariant. -/
theorem Inv.step {a : Action n} (h : Inv s) (hg : Careful s a)
    (ht : OtaSlots.step s a = some t) : Inv t := by
  unfold OtaSlots.step at ht
  unfold Careful at hg
  cases hp : s.process with
  | none =>
    rw [hp] at ht hg
    cases a with
    | boot first second third =>
      cases ht
      exact h.boot hp hg.1 hg.2.1 hg.2.2
    | _ => cases ht
  | some p =>
    rw [hp] at ht hg
    exact h.call hp hg ht

/-- **The slots are sound** in every state of a careful run. -/
theorem slots_sound_of_careful (s : State n) (h : Reach Initial step Careful s) : Sound s :=
  (h.inv Inv (fun _ => Inv.start) fun _ _ _ h hg ht => h.step hg ht).sound

instance (s : State n) (p : Process n) (i : Fin (n + 2)) : Decidable (Overwritable s p i) :=
  inferInstanceAs (Decidable (_ ∧ _ ∧ (_ → _ ∧ _)))

instance (s : State n) (p : Process n) : (a : Action n) → Decidable (CarefulCall s p a)
  | .begin arg _ => inferInstanceAs (Decidable (∀ i ∈ p.target arg, _))
  | .resume arg _ => inferInstanceAs (Decidable (∀ i ∈ p.target arg, _))
  | .write k | .abort k => inferInstanceAs (Decidable (∀ h ∈ p.handles[k]?, _))
  | .finish k _ => inferInstanceAs (Decidable (_ ∧ ∀ h ∈ p.handles[k]?, _))
  | .query arg => inferInstanceAs (Decidable (p.start arg = p.running))
  | .setBoot arg o =>
    match arg with
    | .slot i => decidable_of_iff (o ≠ .emptied ∧ ((s.slots i).good = true ∨ i = p.running ∨
        ((s.load.states i).Awaiting ∧ (s.slots p.running).good = true)))
        (and_congr_right fun _ => ⟨fun h _ hj => PartArg.slot.inj hj ▸ h, fun h => h i rfl⟩)
    | .null | .unknown => decidable_of_iff (o ≠ .emptied) ⟨fun h => ⟨h, nofun⟩, And.left⟩
  | .markValid _ => inferInstanceAs (Decidable (_ ∧ _))
  | .markInvalid _ => inferInstanceAs (Decidable (_ ≠ _))
  | .boot _ _ _ | .exit => .isTrue trivial

instance (s : State n) (a : Action n) : Decidable (Careful s a) := by
  unfold Careful
  split <;> infer_instance

/-- A boot in which every save succeeds. -/
def cleanBoot : Action 0 := .boot .done .done .done

/-- An update whose image crashes before it is marked valid is rolled back. -/
theorem slots_sound_sample : ∃ s : State 0,
    s.boots = [⟨true, true⟩, ⟨false, false⟩, ⟨false, true⟩, ⟨false, true⟩] ∧
    s.handouts.map Handout.slot = [1, 1] ∧ Sound s := by
  have hrun : Reach Initial step Careful _ :=
    Reach.exec [cleanBoot, .query .null, .begin (.slot 1) true, .write 0, .exit, cleanBoot,
      .query .null, .resume (.slot 1) true, .write 0, .finish 0 .done, .setBoot (.slot 1) .done,
      .exit, cleanBoot, .exit, cleanBoot] (.start rfl) (by decide +kernel) rfl
  exact ⟨_, rfl, rfl, slots_sound_of_careful _ hrun⟩

/-- The second query of a process gives the booted slot, and not the slot of the first one. -/
theorem second_query_gives_booted :
    ¬∀ s : State 0, Reach Initial step (fun _ _ => True) s → Sound s := by
  intro h
  have hrun : Reach Initial step (fun _ _ => True) _ :=
    Reach.exec_true [cleanBoot, .query .null, .query .null] (.start rfl) rfl
  have hsecond := (h _ hrun).handouts ⟨0, 0, some 1⟩ (List.mem_cons_self ..)
  exact hsecond.1 rfl

end RainMakerNeo.Osal.OtaSlots
