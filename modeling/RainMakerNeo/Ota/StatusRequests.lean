import RainMakerNeo.Ota.StatusSteps

/-!
# `RainMakerNeo.Ota.StatusRequests`: messages, their entries and their answers

A published message carries the number of its entry, and the answer is found by that number
alone. `Issued` says that the number belongs to the job of the message: no entry of another job
has the address that the number comes from. It stays so over all calls, because an address is
used once. Only the number wraps, after `2 ^ 32` entries.

`Follows` is what all calls have in common, removals included. Over it, the module says what a
send leaves in the cache when it succeeds, and what an answer takes out.
-/

set_option autoImplicit false

namespace RainMakerNeo.Ota.Status

open RainMakerNeo.Lib

/-! ### Entries that stay or go -/

/-- Between `c` and `c'`, entries may go, and each entry that is new has a new address. -/
structure Follows (c c' : Cache) : Prop where
  bwd : ∀ e' ∈ c'.entries, (∃ e ∈ c.entries, e'.ptr = e.ptr ∧ e'.jobId = e.jobId) ∨
    c.nextPtr ≤ e'.ptr
  next : c.nextPtr ≤ c'.nextPtr
  wf : c.WF → c'.WF

theorem Follows.refl (c : Cache) : Follows c c where
  bwd := fun e he => .inl ⟨e, he, rfl, rfl⟩
  next := le_rfl
  wf := id

variable {c : Cache} {e : JobEntries} {r : UpdateRequest} {u : StatusUpdate} {env : StatusEnv}
  {payload : ResponsePayload} {accepted : Bool}

variable {c' : Cache}

theorem Follows.trans {c'' : Cache} (h : Follows c c') (h' : Follows c' c'') :
    Follows c c'' where
  bwd := by
    intro e'' he''
    cases h'.bwd e'' he'' with
    | inl hold =>
      obtain ⟨e', he', hptr', hid'⟩ := hold
      cases h.bwd e' he' with
      | inl hold =>
        obtain ⟨e, he, hptr, hid⟩ := hold
        exact .inl ⟨e, he, hptr'.trans hptr, hid'.trans hid⟩
      | inr hnew => exact .inr (hptr' ▸ hnew)
    | inr hnew => exact .inr (h.next.trans hnew)
  next := h.next.trans h'.next
  wf := fun hwf => h'.wf (h.wf hwf)

theorem Grows.follows {timers : Bool} (h : Grows timers c c') : Follows c c' where
  bwd := by
    intro e' he'
    cases h.bwd e' he' with
    | inl hold =>
      obtain ⟨e, he, hc⟩ := hold
      exact .inl ⟨e, he, hc.ptr, hc.jobId⟩
    | inr hnew => exact .inr hnew
  next := h.next
  wf := h.wf

theorem Cache.removeEntries_follows (he : e ∈ c.entries) :
    Follows c (c.removeEntries e) where
  bwd := fun x hx => .inl ⟨x, (mem_removeEntries.mp hx).1, rfl, rfl⟩
  next := le_rfl
  wf := fun hwf => removeEntries_wf hwf he

theorem Cache.clearJobEntries_follows (c : Cache) (jobId : CStr) :
    Follows c (c.clearJobEntries jobId) := by
  rw [Cache.clearJobEntries]
  split
  · exact .refl c
  · cases hfind : c.findByJobId jobId with
    | none => exact .refl c
    | some e => exact removeEntries_follows (List.mem_of_find?_eq_some hfind)

theorem Cache.Names.follow (h : Follows c c') {q : Nat × CStr} (hq : c.Names q) : c'.Names q := by
  refine ⟨hq.1.trans_le h.next, fun e' he' hptr => ?_⟩
  cases h.bwd e' he' with
  | inl hold =>
    obtain ⟨e, he, hsame, hid⟩ := hold
    exact hid.trans (hq.2 e he (hsame.symm.trans hptr))
  | inr hnew => exact absurd hq.1 (Nat.not_lt.mpr (hptr ▸ hnew))

/-- The number in the client token of a message comes from an address of its job. -/
def Cache.Issued (c : Cache) (r : UpdateRequest) : Prop :=
  ∃ ptr, r.jobIdInt = UInt32.ofNat (ptr + 1) ∧ c.Names (ptr, r.update.jobId)

theorem Cache.Issued.follow (h : Follows c c') (hr : c.Issued r) : c'.Issued r := by
  obtain ⟨ptr, hint, hnames⟩ := hr
  exact ⟨ptr, hint, hnames.follow h⟩

/-- A message with the number and the job of an entry is issued. -/
theorem Cache.issued_of_entry (hwf : c.WF) (he : e ∈ c.entries) (hint : r.jobIdInt = e.jobIdInt)
    (hid : r.update.jobId = e.jobId) : c.Issued r := by
  refine ⟨e.ptr, hint.trans (hwf.numbered e he), Cache.Has.names hwf ⟨e, he, rfl, ?_⟩⟩
  intro jobId hj
  obtain rfl := Option.some.inj hj
  exact hid.symm

/-- While the numbers have not wrapped, the entry that an answer finds is one of the job of the
message. -/
theorem Cache.Issued.jobId_eq (hwf : c.WF) (hr : c.Issued r) (hwrap : c.nextPtr < 2 ^ 32)
    (hfind : c.findByInt r.jobIdInt = some e) : e.jobId = r.update.jobId := by
  obtain ⟨ptr, hint, hlt, hnames⟩ := hr
  have he : e ∈ c.entries := List.mem_of_find?_eq_some hfind
  have hnum : e.jobIdInt = r.jobIdInt := by simpa using List.find?_some hfind
  have hptr : e.ptr = ptr := by
    have h := congrArg UInt32.toNat ((hwf.numbered e he).symm.trans (hnum.trans hint))
    have hep := hwf.ptr_lt e he
    simp only [UInt32.toNat_ofNat'] at h
    show e.ptr = ptr
    have hlt' : ptr < c.nextPtr := hlt
    omega
  exact hnames e he hptr

/-! ### Sends -/

/-- What the first section of a send leaves: the entry of the job, with the update cached and the
timer armed if the update is terminal. -/
theorem Cache.sendPrepare_ok {p : Prepared} (h : c.sendPrepare u env = (.ok, c', p)) :
    ∃ e ∈ c'.entries, e.jobId = u.jobId ∧ e.jobIdInt = p.jobIdInt ∧
      (isTerminal u.status = true → e.hasCachedTerminal = true ∧ e.timer.isSome = true) := by
  rw [Cache.sendPrepare] at h
  obtain ⟨err, heq⟩ | ⟨e, c₁, heq, hget⟩ := c.getOrCreate_cases u.jobId env.entryAllocated
  · rw [heq] at h
    rw [Cache.getOrCreate] at heq
    dsimp only at h
    obtain ⟨rfl, -, -⟩ := Prod.mk.injEq .. ▸ h
    split at heq
    · split at heq
      · cases heq
      · split at heq <;> cases heq
    · cases heq
  · rw [heq] at h
    dsimp only at h
    split at h
    · rename_i hcached
      obtain ⟨-, h⟩ := Prod.mk.injEq .. ▸ h
      obtain ⟨rfl, rfl⟩ := Prod.mk.injEq .. ▸ h
      rw [Cache.cacheIfTerminal] at hcached ⊢
      split at hcached
      · rename_i hterm
        rw [if_pos hterm]
        rw [Cache.setCachedTerminal] at hcached ⊢
        split at hcached
        · cases hcached
        · rename_i hcopied
          rw [if_neg hcopied]
          rw [Cache.scheduleOrResetRetry] at hcached ⊢
          dsimp only at hcached ⊢
          split at hcached
          · rename_i hsched
            rw [if_pos hsched]
            refine ⟨_, mem_modifyKey_self (mem_modifyKey_self (mem_modifyKey_self hget.mem rfl)
              rfl) rfl, hget.jobId_eq, rfl, fun _ => ⟨rfl, rfl⟩⟩
          · cases hcached
      · rename_i hterm
        rw [if_neg hterm]
        exact ⟨_, mem_modifyKey_self hget.mem rfl, hget.jobId_eq, rfl,
          fun h => absurd h hterm⟩
    · rename_i hne
      exact absurd (congrArg Prod.fst h) hne

/-- A send fails without a message, or its first section succeeds. Then it publishes a message, or
the version goes back and a terminal update is left to the retry task. -/
theorem Cache.otaStatusSend_cases (c : Cache) (u : StatusUpdate) (env : StatusEnv) :
    ((c.otaStatusSend u env).err ≠ .ok ∧ (c.otaStatusSend u env).request = none) ∨
      ∃ c' p, c.sendPrepare u env = (.ok, c', p) ∧
        (c.otaStatusSend u env =
            { err := .ok, cache := c', request := some (p.request u),
              nextVersion := some (p.expectedVersion + 1) } ∨
          c.otaStatusSend u env =
            { err := if isTerminal u.status then .ok else .fail,
              cache := (c'.overwriteVersion u.jobId p.expectedVersion env.entryAllocated).2,
              nextVersion := some p.expectedVersion }) := by
  rw [Cache.otaStatusSend]
  split
  · cases hprep : c.sendPrepare u env with
    | mk err rest =>
      obtain ⟨c', p⟩ := rest
      cases err with
      | ok =>
        refine .inr ⟨c', p, rfl, ?_⟩
        dsimp only
        split
        · exact .inl rfl
        · exact .inr rfl
      | fail | noMem | invalidArg | invalidState => exact .inl ⟨by simp, rfl⟩
  · exact .inl ⟨by simp, rfl⟩

/-- A terminal update whose send succeeds is cached, with its retry timer armed. -/
theorem Cache.otaStatusSend_caches (hterm : isTerminal u.status = true)
    (hok : (c.otaStatusSend u env).err = .ok) :
    ∃ e ∈ (c.otaStatusSend u env).cache.entries, e.jobId = u.jobId ∧
      e.hasCachedTerminal = true ∧ e.timer.isSome = true := by
  obtain hfail | ⟨c', p, hprep, hsent⟩ := c.otaStatusSend_cases u env
  · exact absurd hok hfail.1
  · obtain ⟨e, he, hid, -, hcached⟩ := Cache.sendPrepare_ok hprep
    obtain ⟨hc, ht⟩ := hcached hterm
    cases hsent with
    | inl hsent =>
      rw [hsent]
      exact ⟨e, he, hid, hc, ht⟩
    | inr hsent =>
      -- The version goes back, and the entry stays.
      rw [hsent]
      obtain ⟨e', he', hcont⟩ := (c'.overwriteVersion_grows u.jobId p.expectedVersion
        env.entryAllocated).fwd e he
      exact ⟨e', he', hcont.jobId.trans hid, hcont.cached hc, hcont.timer rfl ht⟩

/-- The message of a send is the update, with the number of an entry of its job. -/
theorem Cache.otaStatusSend_issued (hwf : c.WF) (hr : r ∈ (c.otaStatusSend u env).request) :
    r.update = u ∧ r.isTerminal = isTerminal u.status ∧
      (c.otaStatusSend u env).cache.Issued r := by
  have hwf' := (c.otaStatusSend_grows u env).wf hwf
  obtain hfail | ⟨c', p, hprep, hsent⟩ := c.otaStatusSend_cases u env
  · rw [hfail.2] at hr
    cases hr
  · cases hsent with
    | inl hsent =>
      rw [hsent] at hr hwf' ⊢
      obtain rfl := Option.some.inj hr
      obtain ⟨e, he, hid, hint, -⟩ := Cache.sendPrepare_ok hprep
      exact ⟨rfl, rfl, Cache.issued_of_entry hwf' he hint.symm hid.symm⟩
    | inr hsent =>
      rw [hsent] at hr
      cases hr

/-- The message of a retry is the cached update, with the number of its entry. -/
theorem Cache.retryTask_issued (hwf : c.WF) (he : e ∈ c.entries) (hr : r ∈ (c.retryTask e env).2) :
    (c.retryTask e env).1.Issued r := by
  by_cases hcached : e.hasCachedTerminal = true
  · refine Cache.Issued.follow (c.retryTask_grows hcached env).follows ?_
    rw [Cache.retryTask, JobEntries.retryShot, if_pos hcached] at hr
    dsimp only at hr
    split at hr
    · obtain rfl := Option.some.inj hr
      exact Cache.issued_of_entry hwf he rfl rfl
    · cases hr
  · rw [Cache.retryTask, JobEntries.retryShot, if_neg hcached] at hr
    cases hr

/-- The retry task keeps the entries, with their timers where it arms its own again. -/
theorem Cache.retryTask_keeps (c : Cache) (e : JobEntries) (env : StatusEnv) :
    ∃ timers, Grows timers c (c.retryTask e env).1 := by
  by_cases hcached : e.hasCachedTerminal = true
  · exact ⟨env.scheduled, c.retryTask_grows hcached env⟩
  · rw [Cache.retryTask, JobEntries.retryShot, if_neg hcached]
    exact ⟨false, c.update_grows e.ptr (fun _ => ⟨rfl, rfl, rfl, id, by simp⟩) fun _ => rfl⟩

theorem Cache.retryTask_follows (c : Cache) (e : JobEntries) (env : StatusEnv) :
    Follows c (c.retryTask e env).1 := by
  obtain ⟨timers, hgrows⟩ := c.retryTask_keeps e env
  exact hgrows.follows

/-- The messages of a resend are issued. -/
theorem Cache.resend_issued (hwf : c.WF) (envs : Nat → StatusEnv) (i : Nat)
    (us : List StatusUpdate) : ∀ r ∈ (c.resend envs i us).2, (c.resend envs i us).1.Issued r := by
  induction us generalizing c i with
  | nil => exact fun r hr => absurd hr List.not_mem_nil
  | cons u us ih =>
    intro r hr
    have hgrows := c.otaStatusSend_grows u (envs i)
    cases List.mem_append.mp hr with
    | inl hr =>
      have hissued := (Cache.otaStatusSend_issued hwf (Option.mem_toList.mp hr)).2.2
      exact hissued.follow ((c.otaStatusSend u (envs i)).cache.resend_grows envs us (i + 1)).follows
    | inr hr => exact ih (hgrows.wf hwf) (i + 1) r hr

/-! ### Answers -/

/-- What the critical section of a response does: nothing is lost, or the one entry that the
answer names goes. -/
inductive Answered (c : Cache) (payload : ResponsePayload) (accepted : Bool)
    (r : ResponseResult) : Prop
  | grows (hgrows : Grows true c r.cache)
  | removed (e : JobEntries) (he : e ∈ c.entries) (terminal : Bool)
      (htoken : readToken payload.clientToken = some (terminal, e.jobIdInt))
      (hfind : c.findByInt e.jobIdInt = some e)
      (hwhy : (accepted = true ∧ terminal = true) ∨
        (accepted = false ∧ rejectIsUnrecoverable payload.code = true))
      (hc : r.cache = c.removeEntries e) (hres : r.resend = none)

theorem Cache.onResponseLocked_answered (c : Cache) (payload : ResponsePayload) (accepted : Bool)
    (env : StatusEnv) :
    Answered c payload accepted (c.onResponseLocked payload accepted env) := by
  rw [Cache.onResponseLocked]
  cases htoken : readToken payload.clientToken with
  | none => exact .grows (.refl true c)
  | some token =>
    obtain ⟨terminal, jobIdInt⟩ := token
    dsimp only
    cases hfind : c.findByInt jobIdInt with
    | none => exact .grows (.refl true c)
    | some e =>
      have he : e ∈ c.entries := List.mem_of_find?_eq_some hfind
      have hint : e.jobIdInt = jobIdInt := by simpa using List.find?_some hfind
      rw [← hint] at htoken hfind
      dsimp only
      cases accepted with
      | true =>
        rw [if_pos rfl]
        cases terminal with
        | false => exact .grows (.refl true c)
        | true => exact .removed e he true htoken hfind (.inl ⟨rfl, rfl⟩) rfl rfl
      | false =>
        rw [if_neg (by decide), Cache.onReject]
        split
        · exact .grows (.refl true c)
        · split
          · cases strToUint32 payload.versionNumber with
            | none => exact .grows (.refl true c)
            | some version => exact .grows (c.setVersion_grows e.ptr fun _ => version.toInt32)
          · split
            · rename_i hcode
              exact .removed e he terminal htoken hfind (.inr ⟨rfl, hcode⟩) rfl rfl
            · split
              · exact .grows (c.schedule_grows e.ptr e.retryDelayMs env.scheduled)
              · exact .grows (.refl true c)

theorem Answered.follows {r : ResponseResult} (h : Answered c payload accepted r) :
    Follows c r.cache := by
  cases h with
  | grows hgrows => exact hgrows.follows
  | removed e he _ _ _ _ hc => exact hc ▸ Cache.removeEntries_follows he

/-- What a response gives back names the entry that it found. -/
theorem Cache.onResponseLocked_ret {ret : ResponseReturn}
    (hret : ret ∈ (c.onResponseLocked payload accepted env).ret) :
    ∃ terminal jobIdInt e, readToken payload.clientToken = some (terminal, jobIdInt) ∧
      c.findByInt jobIdInt = some e ∧ ret.jobId = e.jobId ∧ ret.isTerminal = terminal := by
  rw [Cache.onResponseLocked] at hret
  cases htoken : readToken payload.clientToken with
  | none =>
    rw [htoken] at hret
    cases hret
  | some token =>
    obtain ⟨terminal, jobIdInt⟩ := token
    rw [htoken] at hret
    dsimp only at hret
    cases hfind : c.findByInt jobIdInt with
    | none =>
      rw [hfind] at hret
      cases hret
    | some e =>
      rw [hfind] at hret
      dsimp only at hret
      refine ⟨terminal, jobIdInt, e, rfl, hfind, ?_⟩
      split at hret
      · obtain rfl := Option.some.inj hret
        exact ⟨rfl, rfl⟩
      · rw [Cache.onReject] at hret
        split at hret
        · cases hret
        · split at hret
          · cases hv : strToUint32 payload.versionNumber with
            | none =>
              rw [hv] at hret
              cases hret
            | some version =>
              rw [hv] at hret
              obtain rfl := Option.some.inj hret
              exact ⟨rfl, rfl⟩
          · split at hret
            · obtain rfl := Option.some.inj hret
              exact ⟨rfl, rfl⟩
            · obtain rfl := Option.some.inj hret
              exact ⟨rfl, rfl⟩

/-- An accepted answer to a message that finds an entry gives the entry back. -/
theorem Cache.onResponseLocked_accepted {code version : List Char}
    (hfind : c.findByInt r.jobIdInt = some e) :
    (c.onResponseLocked ⟨r.clientToken, code, version⟩ true env).ret =
      some { jobId := e.jobId, isTerminal := r.isTerminal } := by
  rw [Cache.onResponseLocked, readToken_clientToken]
  simp only [hfind, if_true]

/-- The send after a version mismatch loses nothing more. -/
theorem Cache.onUpdateResponse_grows (c : Cache) (payload : ResponsePayload) (accepted : Bool)
    (env : StatusEnv) :
    Grows true (c.onResponseLocked payload accepted env).cache
      (c.onUpdateResponse payload accepted env).1.cache := by
  rw [Cache.onUpdateResponse]
  dsimp only
  split
  · exact .refl true _
  · exact Cache.otaStatusSend_grows _ _ env

theorem Cache.onUpdateResponse_ret (c : Cache) (payload : ResponsePayload) (accepted : Bool)
    (env : StatusEnv) :
    (c.onUpdateResponse payload accepted env).1.ret =
      (c.onResponseLocked payload accepted env).ret := by
  rw [Cache.onUpdateResponse]
  dsimp only
  split <;> rfl

/-- The message that is sent again is issued. -/
theorem Cache.onUpdateResponse_issued (hwf : c.WF)
    (hr : r ∈ (c.onUpdateResponse payload accepted env).2) :
    (c.onUpdateResponse payload accepted env).1.cache.Issued r := by
  have hwf' := (c.onResponseLocked_answered payload accepted env).follows.wf hwf
  rw [Cache.onUpdateResponse] at hr ⊢
  dsimp only at hr ⊢
  split at hr
  · cases hr
  · rename_i u hu
    rw [hu]
    exact (Cache.otaStatusSend_issued hwf' hr).2.2

end RainMakerNeo.Ota.Status
