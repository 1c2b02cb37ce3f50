import Mathlib.Logic.Function.Basic
import RainMakerNeo.Lib.Run

/-!
# `RainMakerNeo.Cloud.VersionHandshake`: the versions of the schedules and the triggers

The cloud has a version of the schedules and one of the triggers of each node. The node asks for the
version, and for the details when the version is not the stored one. Either response can come first.
The one that completes the pair stores the version, and the node does not ask again until it
changes.

The details are installed by a task of the work queue. The version is stored by the handler of the
response, which does not look at the result of the installation and cannot tell which version the
details are of when the response does not say so. `sound_of_faithful` says when the stored version
is nevertheless that of the installed details. `mixed_failed_early` has runs where it is not.

Each node and kind has a stream of its own. The cloud answers with versions and details that it had
at some time. The storage of the versions does not fail.
-/

set_option autoImplicit false

namespace RainMakerNeo.Cloud.Versions

open RainMakerNeo.Lib

/-! ### The model -/

/-- `__version_kind_t`. -/
inductive Kind
  | sched
  | trigger
  deriving DecidableEq, Repr

/-- `__version_self_progress_t` and `esp_rmaker_bridge_version_progress_t`. -/
structure Progress where
  isNewVersion : Bool := false
  isNewDetails : Bool := false
  pendingVersion : Int := -1
  deriving DecidableEq, Repr

/-- The event that a handler makes pending. -/
inductive Ask
  | version
  | details
  deriving DecidableEq, Repr

/-- The handshake of a node and a kind, with the details of the service. -/
structure Stream (δ : Type*) where
  kind : Kind
  progress : Progress := {}
  /-- The stored version. -/
  persisted : Int := -1
  /-- The details whose installation is queued. -/
  queue : List δ := []
  installed : Option δ := none
  /-- The versions of the cloud with their details. This does not exist on the node. -/
  held : List (Int × δ) := []
  deriving DecidableEq, Repr

variable {δ : Type*}

/-- `__on_version_updated`. -/
def onVersionUpdated (s : Stream δ) (version : Int) : Stream δ × Option Ask :=
  if version < 0 then ({ s with persisted := version, progress := {} }, none)
  else if 0 ≤ s.persisted ∧ version = s.persisted then ({ s with progress := {} }, none)
  else if s.progress.isNewDetails then
    ({ s with persisted := version, progress := {} }, none)
  else
    ({ s with progress := { s.progress with pendingVersion := version, isNewVersion := true } },
      some .details)

/-- `__on_details_updated`. A negative version is a response without one. -/
def onDetailsUpdated (s : Stream δ) (version : Int) : Stream δ × Option Ask :=
  let p := { s.progress with isNewDetails := true }
  let p := if 0 ≤ version then { p with isNewVersion := true, pendingVersion := version } else p
  if p.isNewVersion then ({ s with persisted := p.pendingVersion, progress := {} }, none)
  else ({ s with progress := p }, some .version)

/-- `esp_rmaker_schedule_service_update_details_for_node` and
`esp_rmaker_automation_service_update_trigger_details`. -/
def updateDetails (s : Stream δ) (details : δ) (accepted : Bool) : Stream δ :=
  if accepted then { s with queue := s.queue ++ [details] } else s

/-- `esp_rmaker_cloud_event_response_getSchedDetails` and `_getTriggerDetails`. The result of the
service is not looked at. -/
def responseDetails (s : Stream δ) (details : δ) (version : Int) (accepted : Bool) :
    Stream δ × Option Ask :=
  onDetailsUpdated (updateDetails s details accepted) version

/-- How the task of an installation ends. -/
inductive Install
  | failed
  /-- The details are live and not stored. -/
  | unpersisted
  | done
  deriving DecidableEq, Repr

/-- `__update_details_work_queue_task` and `__update_trigger_details_work_queue_task`. -/
def install (s : Stream δ) (result : Install) : Option (Stream δ) :=
  match s.queue with
  | [] => none
  | details :: rest =>
    match result with
    | .failed => some { s with queue := rest }
    | .unpersisted =>
      -- Only the schedules void their version.
      some { s with
        queue := rest, installed := some details
        persisted := if s.kind = .sched then -1 else s.persisted }
    | .done => some { s with queue := rest, installed := some details }

/-- What happens next to a stream. -/
inductive Action (δ : Type*)
  /-- The cloud has new details under a version. -/
  | edit (version : Int) (details : δ)
  /-- `getSchedVer` or `getTriggerVer` is answered, or a retry of it has failed. -/
  | version (version : Int)
  /-- `getSchedDetails` or `getTriggerDetails` is answered, and the service accepts the details. -/
  | details (details : δ) (version : Int) (accepted : Bool)
  | install (result : Install)
  deriving DecidableEq, Repr

variable [DecidableEq δ]

/-- The cloud had the details at the version, or at some version when the response has none. -/
def Stream.had (s : Stream δ) (details : δ) (version : Int) : Bool :=
  if 0 ≤ version then (version, details) ∈ s.held else details ∈ s.held.map Prod.snd

/-- The next step of a stream. -/
def Stream.step (s : Stream δ) : Action δ → Option (Stream δ)
  | .edit version details =>
    if 0 ≤ version then some { s with held := (version, details) :: s.held } else none
  | .version version =>
    if version < 0 ∨ version ∈ s.held.map Prod.fst then some (onVersionUpdated s version).1 else none
  | .details details version accepted =>
    if s.had details version then some (responseDetails s details version accepted).1 else none
  | .install result => Versions.install s result

variable {κ : Type*} [DecidableEq κ]

/-- The next step. -/
def step (s : κ → Stream δ) (a : κ × Action δ) : Option (κ → Stream δ) :=
  ((s a.1).step a.2).map fun t => Function.update s a.1 t

/-- Nothing is known of the cloud. -/
def Initial (s : κ → Stream δ) : Prop := ∀ k, s k = { kind := (s k).kind }

/-! ### The statement -/

/-- The details were those of the cloud at the version. -/
def Stream.HeldAt (s : Stream δ) (version : Int) (details : Option δ) : Prop :=
  ∃ d, details = some d ∧ (version, d) ∈ s.held

/-- The details that are installed once the queued installations are done. -/
def Stream.last (s : Stream δ) : Option δ := s.queue.getLast? <|> s.installed

/-- A stored version is that of the installed details. -/
def Sound (s : Stream δ) : Prop := 0 ≤ s.persisted → s.HeldAt s.persisted s.installed

/-- The version that a response with details completes the pair with, else the stored one. -/
def Stream.completed (s : Stream δ) (version : Int) : Int :=
  if 0 ≤ version then version
  else if s.progress.isNewVersion then s.progress.pendingVersion else s.persisted

/-- A version is completed only with the details that the cloud had at it, accepted by the service,
and an installation fails only where the details before it do. -/
def Stream.Faithful (s : Stream δ) : Action δ → Prop
  | .edit _ _ => True
  | .version version => 0 ≤ version → version ≠ s.persisted → s.progress.isNewDetails = true →
      s.HeldAt version s.last
  | .details details version accepted => 0 ≤ s.completed version →
      s.HeldAt (s.completed version) (if accepted then some details else s.last)
  | .install result => result = .failed → 0 ≤ s.persisted →
      s.HeldAt s.persisted (s.queue.tail.getLast? <|> s.installed)

/-- The same for the stream that the action is about. -/
def Faithful (s : κ → Stream δ) (a : κ × Action δ) : Prop := (s a.1).Faithful a.2

/-! ### The invariant -/

/-- A stored version is that of the details that are installed at last. -/
def Stream.Inv (s : Stream δ) : Prop := 0 ≤ s.persisted → s.HeldAt s.persisted s.last

variable {s t : Stream δ}

omit [DecidableEq δ] in
theorem Stream.Inv.sound (h : s.Inv) (hqueue : s.queue = []) : Sound s := by
  intro hpersisted
  have hheld := h hpersisted
  rw [Stream.last, hqueue] at hheld
  exact hheld

omit [DecidableEq δ] in
theorem last_updateDetails {details : δ} {accepted : Bool} :
    (updateDetails s details accepted).last = if accepted then some details else s.last := by
  rw [updateDetails]
  split
  · rw [Stream.last, List.getLast?_append]
    rfl
  · rfl

omit [DecidableEq δ] in
/-- The version that is stored after a response with details. -/
theorem persisted_onDetailsUpdated {version : Int} :
    (onDetailsUpdated s version).1.persisted = s.completed version := by
  rw [onDetailsUpdated, Stream.completed]
  split
  · rfl
  · dsimp only
    split <;> rfl

omit [DecidableEq δ] in
/-- A response with details changes the version and the progress only. -/
theorem last_onDetailsUpdated {version : Int} :
    (onDetailsUpdated s version).1.last = s.last ∧ (onDetailsUpdated s version).1.held = s.held := by
  have hanswer : ∀ p : Progress, ∀ r, r = (if p.isNewVersion then
      ({ s with persisted := p.pendingVersion, progress := {} }, none)
      else ({ s with progress := p }, some .version) : Stream δ × Option Ask) →
      r.1.last = s.last ∧ r.1.held = s.held := by
    rintro p r rfl
    split <;> exact ⟨rfl, rfl⟩
  exact hanswer _ _ rfl

omit [DecidableEq δ] in
/-- A response with a version stores it when details wait for it. -/
theorem Stream.Inv.version {version : Int} (h : s.Inv)
    (hg : 0 ≤ version → version ≠ s.persisted → s.progress.isNewDetails = true →
      s.HeldAt version s.last) : (onVersionUpdated s version).1.Inv := by
  rw [onVersionUpdated]
  split
  · next hneg =>
    intro hpersisted
    exact absurd hneg (Int.not_lt.mpr hpersisted)
  · next hneg =>
    split
    · exact h
    · next hsame =>
      split
      · next hdetails =>
        intro hpersisted
        refine hg hpersisted (fun heq => hsame ⟨?_, heq⟩) hdetails
        rw [← heq]
        exact hpersisted
      · exact h

omit [DecidableEq δ] in
/-- A response with details. -/
theorem Stream.Inv.details {details : δ} {version : Int} {accepted : Bool}
    (hg : 0 ≤ s.completed version →
      s.HeldAt (s.completed version) (if accepted then some details else s.last)) :
    (responseDetails s details version accepted).1.Inv := by
  have hsame : (updateDetails s details accepted).completed version = s.completed version ∧
      (updateDetails s details accepted).held = s.held := by
    rw [updateDetails]
    split <;> exact ⟨rfl, rfl⟩
  intro hpersisted
  rw [responseDetails, persisted_onDetailsUpdated, hsame.1] at hpersisted
  obtain ⟨d, hd, hheld⟩ := hg hpersisted
  refine ⟨d, ?_, ?_⟩
  · rw [responseDetails, last_onDetailsUpdated.1, last_updateDetails, hd]
  · rw [responseDetails, last_onDetailsUpdated.2, persisted_onDetailsUpdated, hsame.1, hsame.2]
    exact hheld

omit [DecidableEq δ] in
/-- An installation takes the details from the queue, and what is installed at last stays. -/
theorem Stream.Inv.install {result : Install} (h : s.Inv) (hg : s.Faithful (.install result))
    (ht : Versions.install s result = some t) : t.Inv := by
  rw [Versions.install] at ht
  split at ht
  · cases ht
  · next details rest hqueue =>
    have hlast : s.last = (rest.getLast? <|> some details) := by
      rw [Stream.last, hqueue, List.getLast?_cons]
      cases rest.getLast? <;> rfl
    cases result with
    | failed =>
      obtain rfl := Option.some.inj ht
      intro hpersisted
      have hheld := hg rfl hpersisted
      rw [hqueue] at hheld
      exact hheld
    | unpersisted =>
      obtain rfl := Option.some.inj ht
      intro hpersisted
      dsimp only at hpersisted
      split at hpersisted
      · cases hpersisted
      · next htrigger =>
        have hheld := h hpersisted
        rw [hlast] at hheld
        show Stream.HeldAt _ (if s.kind = .sched then -1 else s.persisted) _
        rw [if_neg htrigger]
        exact hheld
    | done =>
      obtain rfl := Option.some.inj ht
      intro hpersisted
      have hheld := h hpersisted
      rw [hlast] at hheld
      exact hheld

/-- Each step keeps the invariant of its stream. -/
theorem Stream.Inv.step {a : Action δ} (h : s.Inv) (hg : s.Faithful a) (ht : s.step a = some t) :
    t.Inv := by
  cases a with
  | edit version details =>
    rw [Stream.step] at ht
    split at ht
    · obtain rfl := Option.some.inj ht
      intro hpersisted
      obtain ⟨d, hd, hheld⟩ := h hpersisted
      exact ⟨d, hd, List.mem_cons_of_mem _ hheld⟩
    · cases ht
  | version version =>
    rw [Stream.step] at ht
    split at ht
    · obtain rfl := Option.some.inj ht
      exact h.version hg
    · cases ht
  | details details version accepted =>
    rw [Stream.step] at ht
    split at ht
    · obtain rfl := Option.some.inj ht
      exact Stream.Inv.details hg
    · cases ht
  | install result => exact h.install hg ht

/-! ### Every run -/

/-- **The version handshake.** While a version is completed only with the details that the cloud had
at it, and the installations succeed, each stored version is that of the installed details as soon
as no installation is queued. -/
theorem sound_of_faithful {s : κ → Stream δ} (h : Reach Initial step Faithful s) {k : κ}
    (hqueue : (s k).queue = []) : Sound (s k) := by
  have hinv : ∀ k, (s k).Inv := by
    refine h.inv (fun s => ∀ k, (s k).Inv) ?_ ?_
    · intro s hs k hpersisted
      rw [hs k] at hpersisted
      cases hpersisted
    · intro s a t hi hg ht k
      obtain ⟨u, hu, rfl⟩ := Option.map_eq_some_iff.mp ht
      by_cases hk : k = a.1
      · subst hk
        rw [Function.update_self]
        exact (hi a.1).step hg hu
      · rw [Function.update_of_ne hk]
        exact hi k
  exact (hinv k).sound hqueue

/-! ### Two runs -/

instance (s : Stream δ) (version : Int) (details : Option δ) :
    Decidable (s.HeldAt version details) :=
  match details with
  | none => isFalse fun ⟨_, hd, _⟩ => nomatch hd
  | some d => decidable_of_iff ((version, d) ∈ s.held)
      ⟨fun h => ⟨d, rfl, h⟩, fun ⟨_, hd, h⟩ => Option.some.inj hd ▸ h⟩

instance (s : Stream δ) : ∀ a, Decidable (s.Faithful a)
  | .edit _ _ => instDecidableTrue
  | .version _ => inferInstanceAs (Decidable (_ → _ → _ → _))
  | .details _ _ _ => inferInstanceAs (Decidable (_ → _))
  | .install _ => inferInstanceAs (Decidable (_ → _ → _))

instance (s : κ → Stream δ) (a : κ × Action δ) : Decidable (Faithful s a) :=
  inferInstanceAs (Decidable ((s a.1).Faithful a.2))

/-- A stream of each kind. -/
def both : Bool → Stream Nat := fun k => { kind := if k then .sched else .trigger }

theorem both_initial : Initial both := fun _ => rfl

/-- The triggers follow an edit. The schedules come unasked, without a version, and the version is
asked for. Then the cloud does not know the version of the triggers. -/
def followed : List (Bool × Action Nat) :=
  [(false, .edit 1 10), (false, .version 1), (false, .details 10 (-1) true),
    (true, .edit 5 50), (true, .details 50 (-1) true), (false, .install .done),
    (false, .edit 2 20), (false, .version 2), (true, .install .done),
    (false, .details 20 2 true), (true, .version 5), (false, .install .unpersisted),
    (false, .version 2), (true, .edit 6 60), (true, .version 6), (true, .details 60 6 true),
    (true, .install .done)]

theorem followed_sound :
    ∃ s : Bool → Stream Nat, exec step both followed = some s ∧
      (s false).persisted = 2 ∧ (s false).installed = some 20 ∧
      (s true).persisted = 6 ∧ (s true).installed = some 60 ∧ Sound (s false) ∧ Sound (s true) := by
  have hrun : Reach Initial step Faithful _ :=
    Reach.exec followed (.start both_initial) (by decide +kernel) rfl
  exact ⟨_, rfl, rfl, rfl, rfl, rfl, sound_of_faithful hrun rfl, sound_of_faithful hrun rfl⟩

/-- Details come without a version, and the cloud is edited before the version is answered. -/
def mixed : List (Bool × Action Nat) :=
  [(true, .edit 1 10), (true, .details 10 (-1) true), (true, .install .done), (true, .edit 2 20),
    (true, .version 2)]

/-- The installation of the details fails after their version was stored. -/
def failed : List (Bool × Action Nat) :=
  [(true, .edit 1 10), (true, .version 1), (true, .details 10 1 true), (true, .install .failed)]

/-- The version is stored before the details are installed. -/
def early : List (Bool × Action Nat) :=
  [(true, .edit 1 10), (true, .version 1), (true, .details 10 1 true)]

/-- The stored version is that of other details, of details that could not be installed, and of
details that are not installed yet. -/
theorem mixed_failed_early :
    (∃ s : Bool → Stream Nat, Reach Initial step (fun _ _ => True) s ∧
      (s true).installed = some 10 ∧ (s true).persisted = 2 ∧ ¬Sound (s true)) ∧
    (∃ s : Bool → Stream Nat, Reach Initial step (fun _ _ => True) s ∧
      (s true).queue = [] ∧ (s true).persisted = 1 ∧ ¬Sound (s true)) ∧
    ∃ s : Bool → Stream Nat, Reach Initial step (fun _ _ => True) s ∧
      (s true).queue = [10] ∧ (s true).persisted = 1 ∧ ¬Sound (s true) := by
  refine ⟨⟨_, Reach.exec_true mixed (.start both_initial) rfl, rfl, rfl, fun hsound => ?_⟩,
    ⟨_, Reach.exec_true failed (.start both_initial) rfl, rfl, rfl, fun hsound => ?_⟩,
    ⟨_, Reach.exec_true early (.start both_initial) rfl, rfl, rfl, fun hsound => ?_⟩⟩
  · have hheld := hsound (by decide +kernel)
    revert hheld
    decide +kernel
  · have hheld := hsound (by decide +kernel)
    revert hheld
    decide +kernel
  · have hheld := hsound (by decide +kernel)
    revert hheld
    decide +kernel

end RainMakerNeo.Cloud.Versions
