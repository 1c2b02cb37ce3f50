import RainMakerNeo.Lib.Run

/-!
# `RainMakerNeo.LocalCtrl.Sec2Cache`: the SRP6a pair of the local service

A start of the local service takes a proof of possession (PoP) and the SRP6a salt and verifier that
belong to it. The PoP is the custom one, the stored one, or a new one that is stored. A pair for a
stored PoP is stored too, and the next start that finds the PoP in the NVS reuses it.

PoP, salt and verifier are three entries. A new PoP is written while the pair of the old one is
still there, and a failed write of the pair is no error. After a reboot in between the old pair goes
with the new PoP (`stale_pair_reused`). `Careful` has no failure or reboot at such a moment.

A salt and a verifier carry the call of `esp_srp_gen_salt_verifier` that they come from.
-/

set_option autoImplicit false

namespace RainMakerNeo.LocalCtrl.Sec2Cache

open RainMakerNeo.Lib

/-! ### The state -/

/-- `LOCAL_CTRL_SEC2_SALT_LEN`. -/
def saltLen : Nat := 16

/-- A call of `esp_srp_gen_salt_verifier`. -/
structure Derivation where
  call : Nat
  pop : List Char
  deriving DecidableEq, Repr

/-- A salt or a verifier, with its length and the call that it comes from. -/
structure Part where
  source : Derivation
  len : Nat
  deriving DecidableEq, Repr

/-- The salt and the verifier were derived together from the PoP. -/
def Belongs (pop : List Char) (salt verifier : Part) : Prop :=
  salt.source = verifier.source ∧ salt.source.pop = pop

/-- The namespace `LOCAL_CTRL_NVS_NAMESPACE`. -/
structure Nvs where
  pop : Option (List Char) := none
  salt : Option Part := none
  verifier : Option Part := none
  deriving DecidableEq, Repr

/-- The test of a cached pair in `esp_rmaker_local_ctrl_sec2_resolve_salt_verifier`. -/
def Reusable (salt verifier : Part) : Prop := salt.len = saltLen ∧ verifier.len ≠ 0

/-- A stored pair that can be reused belongs to the stored PoP. -/
def Nvs.Intact (n : Nvs) : Prop :=
  ∀ pop ∈ n.pop, ∀ salt ∈ n.salt, ∀ verifier ∈ n.verifier, Reusable salt verifier →
    Belongs pop salt verifier

/-- How far a start has come. -/
inductive Phase
  | off
  /-- `__local_ctrl_get_pop` has returned. -/
  | resolve (pop : List Char) (fromNvs custom : Bool)
  | writeSalt (pop : List Char) (salt verifier : Part)
  | writeVerifier (pop : List Char) (salt verifier : Part)
  /-- The pair was given to the security layer. -/
  | running (pop : List Char) (salt verifier : Part)
  deriving DecidableEq, Repr

/-- The node. -/
structure State where
  /-- `LOCAL_CTRL_POP_CHARS` of the firmware. -/
  popChars : Nat
  nvs : Nvs := {}
  /-- `__custom_pop`. -/
  customPop : Option (List Char) := none
  phase : Phase := .off
  /-- The number of calls of `esp_srp_gen_salt_verifier`. -/
  calls : Nat := 0
  deriving DecidableEq, Repr

/-! ### The steps -/

/-- The outcome of `esp_rmaker_nvs_update_string` or `esp_rmaker_nvs_update_binary`. -/
inductive Write
  | done
  /-- The value is not written. -/
  | lost
  /-- The value is written and the commit fails. -/
  | uncommitted
  deriving DecidableEq, Repr

/-- The entry after a write. -/
def Write.put {α : Type} (w : Write) (new : α) (old : Option α) : Option α :=
  match w with
  | .done | .uncommitted => some new
  | .lost => old

/-- What the environment does in `__local_ctrl_get_pop`. -/
structure PopEnv where
  /-- The stored PoP can be read. -/
  readable : Bool := true
  allocates : Bool := true
  /-- The text of the random bytes. -/
  random : List Char := []
  write : Write := .done
  deriving DecidableEq, Repr

/-- What the environment does while the pair is resolved. -/
structure ResolveEnv where
  saltReadable : Bool := true
  verifierReadable : Bool := true
  /-- The length of the verifier that `esp_srp_gen_salt_verifier` makes, `none` if it fails. -/
  srp : Option Nat
  deriving DecidableEq, Repr

/-- `esp_rmaker_local_ctrl_set_pop` before the service is started. -/
def State.setPop (s : State) (pop : Option (List Char)) (allocates : Bool) : State :=
  match pop with
  | some [] => s
  | some pop => if allocates then { s with customPop := some pop } else s
  | none => { s with customPop := none }

/-- `__local_ctrl_get_pop`. -/
def State.getPop (s : State) (env : PopEnv) : State :=
  match s.customPop with
  | some pop => if env.allocates then { s with phase := .resolve pop false true } else s
  | none =>
    match (if env.readable then s.nvs.pop else none).filter fun pop => pop.length = s.popChars with
    | some pop => { s with phase := .resolve pop true false }
    | none =>
      if env.allocates then { s with
        nvs.pop := env.write.put env.random s.nvs.pop
        phase := if env.write = .done then .resolve env.random false false else .off }
      else s

instance (salt verifier : Part) : Decidable (Reusable salt verifier) :=
  inferInstanceAs (Decidable (_ ∧ _))

/-- The cached pair, if it is there and looks right. -/
def Nvs.cached (n : Nvs) (env : ResolveEnv) : Option (Part × Part) :=
  match if env.saltReadable then n.salt else none,
    if env.verifierReadable then n.verifier else none with
  | some salt, some verifier => if Reusable salt verifier then some (salt, verifier) else none
  | _, _ => none

/-- `esp_rmaker_local_ctrl_sec2_resolve_salt_verifier`, up to the writes. -/
def State.resolve (s : State) (pop : List Char) (fromNvs custom : Bool) (env : ResolveEnv) :
    State :=
  match if fromNvs then s.nvs.cached env else none with
  | some (salt, verifier) => { s with phase := .running pop salt verifier }
  | none =>
    match env.srp with
    | none => { s with phase := .off, calls := s.calls + 1 }
    | some verifierLen =>
      let source : Derivation := ⟨s.calls, pop⟩
      let salt : Part := ⟨source, saltLen⟩
      let verifier : Part := ⟨source, verifierLen⟩
      -- a custom PoP is not in the NVS, so its pair is not cached
      { s with
        phase := if custom then .running pop salt verifier else .writeSalt pop salt verifier
        calls := s.calls + 1 }

/-- What happens next. -/
inductive Action
  | setPop (pop : Option (List Char)) (allocates : Bool)
  | getPop (env : PopEnv)
  | resolve (env : ResolveEnv)
  | writeSalt (w : Write)
  | writeVerifier (w : Write)
  | stop
  /-- A reboot, after which the firmware may be another one. -/
  | reboot (popChars : Nat)
  deriving DecidableEq, Repr

/-- The next step. The random text has the length that the firmware asks for. -/
def step (s : State) : Action → Option State
  | .setPop pop allocates => if s.phase = .off then some (s.setPop pop allocates) else none
  | .getPop env =>
    if s.phase = .off ∧ env.random.length = s.popChars then some (s.getPop env) else none
  | .resolve env =>
    match s.phase with
    | .resolve pop fromNvs custom => some (s.resolve pop fromNvs custom env)
    | _ => none
  | .writeSalt w =>
    match s.phase with
    | .writeSalt pop salt verifier => some { s with
        nvs.salt := w.put salt s.nvs.salt
        phase := .writeVerifier pop salt verifier }
    | _ => none
  | .writeVerifier w =>
    match s.phase with
    | .writeVerifier pop salt verifier => some { s with
        nvs.verifier := w.put verifier s.nvs.verifier
        phase := .running pop salt verifier }
    | _ => none
  | .stop =>
    match s.phase with
    | .running _ _ _ => some { s with phase := .off }
    | _ => none
  | .reboot popChars => some { s with popChars := popChars, customPop := none, phase := .off }

/-- A node that was never started. -/
def Initial (s : State) : Prop := s = { popChars := s.popChars }

/-- The pair of a running service was derived together from its PoP. -/
def Sound (s : State) : Prop :=
  ∀ pop salt verifier, s.phase = .running pop salt verifier → Belongs pop salt verifier

/-- No failure and no reboot leaves a pair that can be reused with a PoP that it does not belong
to. -/
def Careful (s : State) : Action → Prop
  | .getPop env =>
    -- the PoP is written and the start fails
    env.write = .uncommitted → { s.nvs with pop := some env.random }.Intact
  | .resolve env => env.srp = none → s.nvs.Intact
  | .writeVerifier w =>
    ∀ verifier, (∃ pop salt, s.phase = .writeVerifier pop salt verifier) →
      { s.nvs with verifier := w.put verifier s.nvs.verifier }.Intact
  | .reboot _ => s.nvs.Intact
  | .setPop _ _ | .writeSalt _ | .stop => True

instance (pop : List Char) (salt verifier : Part) : Decidable (Belongs pop salt verifier) :=
  inferInstanceAs (Decidable (_ ∧ _))

instance (n : Nvs) : Decidable n.Intact :=
  inferInstanceAs (Decidable (∀ pop ∈ n.pop, ∀ salt ∈ n.salt, ∀ verifier ∈ n.verifier,
    Reusable salt verifier → Belongs pop salt verifier))

/-- The verifier that a start is about to write. -/
def Phase.verifier? : Phase → Option Part
  | .writeVerifier _ _ verifier => some verifier
  | _ => none

instance (s : State) : (a : Action) → Decidable (Careful s a)
  | .getPop _ | .resolve _ => inferInstanceAs (Decidable (_ → Nvs.Intact _))
  | .writeVerifier w =>
    decidable_of_iff (∀ verifier ∈ s.phase.verifier?,
        { s.nvs with verifier := w.put verifier s.nvs.verifier }.Intact) (by
      refine forall_congr' fun verifier => imp_congr_left ?_
      cases s.phase <;> simp [Phase.verifier?])
  | .reboot _ => inferInstanceAs (Decidable (Nvs.Intact _))
  | .setPop _ _ | .writeSalt _ | .stop => .isTrue trivial

/-! ### What every step keeps -/

/-- What holds in each phase of a start. -/
def Inv (s : State) : Prop :=
  match s.phase with
  | .off => s.nvs.Intact
  | .resolve pop fromNvs custom =>
    (fromNvs = true → s.nvs.pop = some pop ∧ s.nvs.Intact) ∧
      if custom then s.nvs.Intact else s.nvs.pop = some pop
  | .writeSalt pop salt verifier | .writeVerifier pop salt verifier =>
    Belongs pop salt verifier ∧ s.nvs.pop = some pop
  | .running pop salt verifier => Belongs pop salt verifier ∧ s.nvs.Intact

variable {s t : State} {pop : List Char} {salt verifier : Part}

/-- A cached pair is stored and can be reused. -/
theorem Nvs.cached_spec {n : Nvs} {env : ResolveEnv} (h : n.cached env = some (salt, verifier)) :
    n.salt = some salt ∧ n.verifier = some verifier ∧ Reusable salt verifier := by
  unfold Nvs.cached at h
  split at h
  case h_1 salt' verifier' hsalt hverifier =>
    split at h
    · rename_i hok
      cases Option.some.inj h
      cases hr : env.saltReadable <;> rw [hr] at hsalt <;> cases hv : env.verifierReadable <;>
        rw [hv] at hverifier
      · cases hsalt
      · cases hsalt
      · cases hverifier
      · exact ⟨hsalt, hverifier, hok⟩
    · cases h
  case h_2 => cases h

theorem Inv.setPop (h : Inv s) (hphase : s.phase = .off) (pop : Option (List Char))
    (allocates : Bool) : Inv (s.setPop pop allocates) := by
  have hintact : s.nvs.Intact := by
    simpa only [Inv, hphase] using h
  unfold State.setPop
  split
  · exact h
  · split
    · simpa only [Inv, hphase] using hintact
    · exact h
  · simpa only [Inv, hphase] using hintact

theorem Inv.getPop (h : Inv s) (hphase : s.phase = .off) {env : PopEnv}
    (hg : Careful s (.getPop env)) : Inv (s.getPop env) := by
  have hintact : s.nvs.Intact := by
    simpa only [Inv, hphase] using h
  unfold State.getPop
  split
  · split
    · exact ⟨nofun, hintact⟩
    · exact h
  · split
    case h_1 pop hpop =>
      -- the stored PoP has the right length
      have hstored : s.nvs.pop = some pop := by
        have hread := (Option.filter_eq_some_iff.mp hpop).1
        split at hread
        · exact hread
        · cases hread
      exact ⟨fun _ => ⟨hstored, hintact⟩, hstored⟩
    case h_2 =>
      split
      · cases hw : env.write with
        | done => exact ⟨nofun, rfl⟩
        | lost => exact hintact
        | uncommitted => exact hg hw
      · exact h

theorem Inv.resolve {fromNvs custom : Bool} (h : Inv s)
    (hphase : s.phase = .resolve pop fromNvs custom) {env : ResolveEnv}
    (hg : Careful s (.resolve env)) : Inv (s.resolve pop fromNvs custom env) := by
  obtain ⟨hnvs, hcustom⟩ : (fromNvs = true → s.nvs.pop = some pop ∧ s.nvs.Intact) ∧
      if custom then s.nvs.Intact else s.nvs.pop = some pop := by
    simpa only [Inv, hphase] using h
  unfold State.resolve
  split
  case h_1 salt verifier hcached =>
    cases fromNvs with
    | false => cases hcached
    | true =>
      obtain ⟨hpop, hintact⟩ := hnvs rfl
      obtain ⟨hsalt, hverifier, hok⟩ := Nvs.cached_spec hcached
      exact ⟨hintact pop hpop salt hsalt verifier hverifier hok, hintact⟩
  case h_2 =>
    cases hsrp : env.srp with
    | none => exact hg hsrp
    | some verifierLen =>
      cases custom with
      | true => exact ⟨⟨rfl, rfl⟩, hcustom⟩
      | false => exact ⟨⟨rfl, rfl⟩, hcustom⟩

/-- One step keeps the invariant. -/
theorem Inv.step {a : Action} (h : Inv s) (hg : Careful s a)
    (ht : Sec2Cache.step s a = some t) : Inv t := by
  cases a with
  | setPop pop allocates =>
    simp only [Sec2Cache.step, Option.ite_none_right_eq_some, Option.some.injEq] at ht
    obtain ⟨hphase, rfl⟩ := ht
    exact h.setPop hphase pop allocates
  | getPop env =>
    simp only [Sec2Cache.step, Option.ite_none_right_eq_some, Option.some.injEq] at ht
    obtain ⟨⟨hphase, _⟩, rfl⟩ := ht
    exact h.getPop hphase hg
  | resolve env =>
    cases hphase : s.phase with
    | resolve pop fromNvs custom =>
      simp only [Sec2Cache.step, hphase, Option.some.injEq] at ht
      subst ht
      exact h.resolve hphase hg
    | _ => simp [Sec2Cache.step, hphase] at ht
  | writeSalt w =>
    cases hphase : s.phase with
    | writeSalt pop salt verifier =>
      simp only [Sec2Cache.step, hphase, Option.some.injEq] at ht
      subst ht
      simpa only [Inv, hphase] using h
    | _ => simp [Sec2Cache.step, hphase] at ht
  | writeVerifier w =>
    cases hphase : s.phase with
    | writeVerifier pop salt verifier =>
      have hbelongs : Belongs pop salt verifier ∧ s.nvs.pop = some pop := by
        simpa only [Inv, hphase] using h
      simp only [Sec2Cache.step, hphase, Option.some.injEq] at ht
      subst ht
      exact ⟨hbelongs.1, hg verifier ⟨pop, salt, hphase⟩⟩
    | _ => simp [Sec2Cache.step, hphase] at ht
  | stop =>
    cases hphase : s.phase with
    | running pop salt verifier =>
      have hrunning : Belongs pop salt verifier ∧ s.nvs.Intact := by
        simpa only [Inv, hphase] using h
      simp only [Sec2Cache.step, hphase, Option.some.injEq] at ht
      subst ht
      exact hrunning.2
    | _ => simp [Sec2Cache.step, hphase] at ht
  | reboot popChars =>
    simp only [Sec2Cache.step, Option.some.injEq] at ht
    subst ht
    exact hg

theorem Inv.start (h : Initial s) : Inv s := by
  rw [h]
  exact fun pop hpop => nomatch hpop

/-- **The pair belongs to the PoP** in every state of a run without a failure or a reboot that
leaves the pair of another PoP behind. -/
theorem pair_sound_of_careful (s : State) (h : Reach Initial step Careful s) : Sound s := by
  intro pop salt verifier hphase
  have hinv : Inv s := h.inv Inv (fun _ => Inv.start) fun _ _ _ h hg ht => h.step hg ht
  have hrunning : Belongs pop salt verifier ∧ s.nvs.Intact := by
    simpa only [Inv, hphase] using hinv
  exact hrunning.1

theorem initial_fresh (popChars : Nat) : Initial { popChars := popChars } := rfl

/-- A start that stores a PoP and its pair. -/
def freshStart (pop : List Char) : List Action :=
  [.getPop { random := pop }, .resolve { srp := some 384 }, .writeSalt .done, .writeVerifier .done]

/-- After an update to a firmware with a longer PoP, the pair of the new PoP is reused. -/
theorem pair_sound_sample :
    ∃ pop salt verifier, Belongs pop salt verifier ∧ pop = ['3', '4', '5'] ∧
      salt.source.call = 1 := by
  have hrun : Reach Initial step Careful _ :=
    Reach.exec (freshStart ['1', '2'] ++ [.reboot 3] ++ freshStart ['3', '4', '5'] ++
      [.reboot 3, .getPop { random := ['6', '7', '8'] }, .resolve { srp := none }])
      (.start (initial_fresh 2)) (by decide +kernel) rfl
  exact ⟨_, _, _, pair_sound_of_careful _ hrun _ _ _ rfl, rfl, rfl⟩

/-- The node reboots after the new PoP is written and before the new pair is. The old pair goes with
the new PoP. -/
theorem stale_pair_reused :
    ¬∀ s, Reach Initial step (fun _ _ => True) s → Sound s := by
  intro h
  have hrun : Reach Initial step (fun _ _ => True) _ :=
    Reach.exec_true (freshStart ['1', '2'] ++ [.reboot 3, .getPop { random := ['3', '4', '5'] },
      .reboot 3, .getPop { random := ['6', '7', '8'] }, .resolve { srp := some 384 }])
      (.start (initial_fresh 2)) rfl
  have hbelongs := h _ hrun _ _ _ rfl
  exact absurd hbelongs (by decide +kernel)

end RainMakerNeo.LocalCtrl.Sec2Cache
