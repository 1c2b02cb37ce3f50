import RainMakerNeo.Ota.StatusManager

/-!
# `RainMakerNeo.Ota.StatusSteps`: what the sections do to the entries

Only a removal takes an entry out of the cache. Every other section lets each entry go on: the
entry keeps its address, its job id and its number, and it keeps a cached terminal update and a
running timer. `Grows` says this of a whole call, and `Cache.WF` is the shape of the cache that
all calls keep. An entry gets the number after its address, so the numbers repeat only after
`2 ^ 32` entries.
-/

set_option autoImplicit false

namespace RainMakerNeo.Ota.Status

open RainMakerNeo.Lib

/-! ### The shape of the cache -/

/-- The addresses and the job ids in the cache are distinct, the numbers follow the addresses,
and the counter counts the cached terminal updates. -/
structure Cache.WF (c : Cache) : Prop where
  ptrs : (c.entries.map JobEntries.ptr).Nodup
  ids : (c.entries.map JobEntries.jobId).Nodup
  ptr_lt : ∀ e ∈ c.entries, e.ptr < c.nextPtr
  numbered : ∀ e ∈ c.entries, e.jobIdInt = UInt32.ofNat (e.ptr + 1)
  next : c.nextJobIdInt = UInt32.ofNat (c.nextPtr + 1)
  counted : c.count = c.entries.countP JobEntries.hasCachedTerminal

/-- The cache after the init is in shape. -/
theorem Cache.wf_initial : Cache.WF {} where
  ptrs := List.nodup_nil
  ids := List.nodup_nil
  ptr_lt := fun _ he => absurd he List.not_mem_nil
  numbered := fun _ he => absurd he List.not_mem_nil
  next := rfl
  counted := rfl

variable {c : Cache} {e : JobEntries} {timers : Bool}

/-- An empty cache holds no terminal update. -/
theorem Cache.WF.not_cached_of_isEmpty (h : c.WF) (hempty : c.isEmpty = true) (he : e ∈ c.entries) :
    e.hasCachedTerminal = false := by
  have hcount : c.count = 0 := by simpa [Cache.isEmpty] using hempty
  rw [h.counted, List.countP_eq_zero] at hcount
  simpa using hcount e he

/-! ### Entries that go on -/

/-- `e'` is the entry `e` after some sections. With `timers`, its retry timer is kept as well. -/
structure JobEntries.Continues (timers : Bool) (e e' : JobEntries) : Prop where
  ptr : e'.ptr = e.ptr
  jobId : e'.jobId = e.jobId
  jobIdInt : e'.jobIdInt = e.jobIdInt
  cached : e.hasCachedTerminal = true → e'.hasCachedTerminal = true
  timer : timers = true → e.timer.isSome = true → e'.timer.isSome = true

namespace JobEntries.Continues

variable {timers : Bool} {e e' e'' : JobEntries}

theorem refl (timers : Bool) (e : JobEntries) : e.Continues timers e :=
  ⟨rfl, rfl, rfl, id, fun _ => id⟩

theorem trans (h : e.Continues timers e') (h' : e'.Continues timers e'') :
    e.Continues timers e'' where
  ptr := h'.ptr.trans h.ptr
  jobId := h'.jobId.trans h.jobId
  jobIdInt := h'.jobIdInt.trans h.jobIdInt
  cached := fun hc => h'.cached (h.cached hc)
  timer := fun ht hs => h'.timer ht (h.timer ht hs)

end JobEntries.Continues

/-- No entry is lost between `c` and `c'`, and each entry that is new has a new address. -/
structure Grows (timers : Bool) (c c' : Cache) : Prop where
  fwd : ∀ e ∈ c.entries, ∃ e' ∈ c'.entries, e.Continues timers e'
  bwd : ∀ e' ∈ c'.entries, (∃ e ∈ c.entries, e.Continues timers e') ∨ c.nextPtr ≤ e'.ptr
  next : c.nextPtr ≤ c'.nextPtr
  wf : c.WF → c'.WF

namespace Grows

variable {timers : Bool} {c c' c'' : Cache}

theorem refl (timers : Bool) (c : Cache) : Grows timers c c where
  fwd := fun e he => ⟨e, he, .refl timers e⟩
  bwd := fun e he => .inl ⟨e, he, .refl timers e⟩
  next := le_rfl
  wf := id

theorem trans (h : Grows timers c c') (h' : Grows timers c' c'') : Grows timers c c'' where
  fwd := by
    intro e he
    obtain ⟨e', he', hc⟩ := h.fwd e he
    obtain ⟨e'', he'', hc'⟩ := h'.fwd e' he'
    exact ⟨e'', he'', hc.trans hc'⟩
  bwd := by
    intro e'' he''
    rcases h'.bwd e'' he'' with ⟨e', he', hc'⟩ | hnew
    · rcases h.bwd e' he' with ⟨e, he, hc⟩ | hnew
      · exact .inl ⟨e, he, hc.trans hc'⟩
      · exact .inr (hc'.ptr ▸ hnew)
    · exact .inr (h.next.trans hnew)
  next := h.next.trans h'.next
  wf := fun hwf => h'.wf (h.wf hwf)

/-- Keeping the timers is more. -/
theorem weaken (h : Grows true c c') : Grows timers c c' where
  fwd := by
    intro e he
    obtain ⟨e', he', hc⟩ := h.fwd e he
    exact ⟨e', he', { hc with timer := fun _ => hc.timer rfl }⟩
  bwd := by
    intro e' he'
    rcases h.bwd e' he' with ⟨e, he, hc⟩ | hnew
    · exact .inl ⟨e, he, { hc with timer := fun _ => hc.timer rfl }⟩
    · exact .inr hnew
  next := h.next
  wf := h.wf

end Grows

/-! ### Writes through a pointer -/

/-- A write that lets its entry go on and leaves the cached flag alone. -/
theorem Cache.update_grows (c : Cache) (ptr : Nat) {f : JobEntries → JobEntries}
    (hf : ∀ e : JobEntries, e.Continues timers (f e))
    (hcached : ∀ e : JobEntries, (f e).hasCachedTerminal = e.hasCachedTerminal) :
    Grows timers c (c.update ptr f) where
  fwd := by
    intro e he
    by_cases hp : e.ptr = ptr
    · exact ⟨f e, mem_modifyKey_self he hp, hf e⟩
    · exact ⟨e, mem_modifyKey_of_ne he hp, .refl timers e⟩
  bwd := by
    intro e' he'
    obtain ⟨e, he, heq⟩ := mem_modifyKey.mp he'
    split at heq
    · exact .inl ⟨e, he, heq ▸ hf e⟩
    · exact .inl ⟨e, he, heq ▸ .refl timers e⟩
  next := le_rfl
  wf := by
    intro h
    refine ⟨?_, ?_, ?_, ?_, h.next, ?_⟩
    · rw [Cache.update, map_modifyKey _ fun e => (hf e).ptr]
      exact h.ptrs
    · rw [Cache.update, map_modifyKey _ fun e => (hf e).jobId]
      exact h.ids
    · intro e' he'
      obtain ⟨e, he, heq⟩ := mem_modifyKey.mp he'
      have hlt := h.ptr_lt e he
      split at heq
      · rw [← heq, (hf e).ptr]
        exact hlt
      · exact heq ▸ hlt
    · intro e' he'
      obtain ⟨e, he, heq⟩ := mem_modifyKey.mp he'
      have hnum := h.numbered e he
      split at heq
      · rw [← heq, (hf e).ptr, (hf e).jobIdInt]
        exact hnum
      · exact heq ▸ hnum
    · -- The flags along the list are the same list, so the count is.
      have hflags : (modifyKey JobEntries.ptr ptr f c.entries).map JobEntries.hasCachedTerminal
          = c.entries.map JobEntries.hasCachedTerminal := map_modifyKey _ hcached
      have hcount := congrArg (List.countP id) hflags
      rw [List.countP_map, List.countP_map] at hcount
      exact h.counted.trans hcount.symm

/-- Setting the version lets every entry go on. -/
theorem Cache.setVersion_grows (c : Cache) (ptr : Nat) (g : JobEntries → Int32) :
    Grows true c (c.update ptr fun e => { e with version := g e }) :=
  c.update_grows ptr (fun _ => ⟨rfl, rfl, rfl, id, fun _ => id⟩) fun _ => rfl

/-- Arming the timer lets every entry go on. -/
theorem Cache.schedule_grows (c : Cache) (ptr delayMs : Nat) (scheduled : Bool) :
    Grows true c (c.scheduleOrResetRetry ptr delayMs scheduled).2 := by
  rw [Cache.scheduleOrResetRetry]
  split
  · exact c.update_grows ptr (fun _ => ⟨rfl, rfl, rfl, id, fun _ _ => rfl⟩) fun _ => rfl
  · exact .refl true c

/-- A new entry leaves the old ones alone. Its job id is one that the cache does not have. -/
theorem Cache.addEntry_grows (c : Cache) {jobId : CStr} (hid : c.findByJobId jobId = none) :
    Grows true c (c.addEntry jobId) where
  fwd := fun e he => ⟨e, List.mem_append_left _ he, .refl true e⟩
  bwd := by
    intro e he
    rcases List.mem_append.mp he with he | he
    · exact .inl ⟨e, he, .refl true e⟩
    · obtain rfl := List.mem_singleton.mp he
      exact .inr le_rfl
  next := Nat.le_succ _
  wf := by
    intro h
    have hnotin : ∀ e ∈ c.entries, e.jobId ≠ jobId := by
      intro e he heq
      have hnone := List.find?_eq_none.mp hid e he
      rw [heq, sameJobId_iff] at hnone
      exact hnone rfl
    refine ⟨?_, ?_, ?_, ?_, ?_, ?_⟩
    · rw [Cache.addEntry, List.map_append, List.nodup_append]
      refine ⟨h.ptrs, List.nodup_singleton _, ?_⟩
      intro p hp q hq heq
      obtain ⟨e, he, rfl⟩ := List.mem_map.mp hp
      rw [List.map_singleton, List.mem_singleton] at hq
      exact absurd (h.ptr_lt e he) (by rw [heq, hq]; exact lt_irrefl _)
    · rw [Cache.addEntry, List.map_append, List.nodup_append]
      refine ⟨h.ids, List.nodup_singleton _, ?_⟩
      intro p hp q hq heq
      obtain ⟨e, he, rfl⟩ := List.mem_map.mp hp
      rw [List.map_singleton, List.mem_singleton] at hq
      exact hnotin e he (heq.trans hq)
    · intro e he
      rcases List.mem_append.mp he with he | he
      · exact Nat.lt_succ_of_lt (h.ptr_lt e he)
      · obtain rfl := List.mem_singleton.mp he
        exact Nat.lt_succ_self _
    · intro e he
      rcases List.mem_append.mp he with he | he
      · exact h.numbered e he
      · obtain rfl := List.mem_singleton.mp he
        exact h.next
    · show c.nextJobIdInt + 1 = UInt32.ofNat (c.nextPtr + 1 + 1)
      rw [h.next, UInt32.ofNat_add (c.nextPtr + 1) 1]
      rfl
    · rw [Cache.addEntry, List.countP_append]
      exact h.counted

/-- The two ways to get an entry: it is there, or it is appended. -/
inductive Gets (c : Cache) (jobId : CStr) (e : JobEntries) : Cache → Prop
  | found (he : e ∈ c.entries) (hid : e.jobId = jobId) : Gets c jobId e c
  | created (hid : c.findByJobId jobId = none) (he : e = c.newEntry jobId) :
      Gets c jobId e (c.addEntry jobId)

/-- `getOrCreate` fails or gets an entry in one of the two ways. -/
theorem Cache.getOrCreate_cases (c : Cache) (jobId : CStr) (allocated : Bool) :
    (∃ err, c.getOrCreate jobId allocated = .error err) ∨
      ∃ e c', c.getOrCreate jobId allocated = .ok (e, c') ∧ Gets c jobId e c' := by
  rw [Cache.getOrCreate]
  split
  · cases hfind : c.findByJobId jobId with
    | some e =>
      have he := List.mem_of_find?_eq_some hfind
      have hid := List.find?_some hfind
      exact .inr ⟨e, c, rfl, .found he ((sameJobId_iff _ _).mp hid)⟩
    | none =>
      cases allocated with
      | true => exact .inr ⟨_, _, rfl, .created hfind rfl⟩
      | false => exact .inl ⟨.noMem, rfl⟩
  · exact .inl ⟨.invalidArg, rfl⟩

namespace Gets

variable {c c' : Cache} {jobId : CStr} {e : JobEntries}

theorem grows (h : Gets c jobId e c') : Grows true c c' := by
  cases h with
  | found => exact .refl true c
  | created hid => exact c.addEntry_grows hid

theorem mem (h : Gets c jobId e c') : e ∈ c'.entries := by
  cases h with
  | found he => exact he
  | created _ he => exact List.mem_append_right _ (List.mem_singleton.mpr he)

theorem jobId_eq (h : Gets c jobId e c') : e.jobId = jobId := by
  cases h with
  | found _ hid => exact hid
  | created _ he => rw [he]; rfl

end Gets

/-- Caching a terminal update lets every entry go on, whatever fails inside. -/
theorem Cache.setCachedTerminal_grows (c : Cache) (he : e ∈ c.entries) (u : StatusUpdate)
    (expectedVersion : Int32) (env : StatusEnv) :
    Grows true c (c.setCachedTerminal e u expectedVersion env).2 := by
  rw [Cache.setCachedTerminal]
  split
  · exact c.update_grows e.ptr (fun _ => ⟨rfl, rfl, rfl, id, fun _ => id⟩) fun _ => rfl
  · refine Grows.trans ?_ (Cache.schedule_grows _ _ _ _)
    have hf : ∀ x : JobEntries, x.Continues true (x.cacheTerminal u expectedVersion) :=
      fun _ => ⟨rfl, rfl, rfl, fun _ => rfl, fun _ => id⟩
    refine ⟨?_, ?_, le_rfl, ?_⟩
    · intro x hx
      by_cases hp : x.ptr = e.ptr
      · exact ⟨_, mem_modifyKey_self hx hp, hf x⟩
      · exact ⟨x, mem_modifyKey_of_ne hx hp, .refl true x⟩
    · intro x' hx'
      obtain ⟨x, hx, heq⟩ := mem_modifyKey.mp hx'
      split at heq
      · exact .inl ⟨x, hx, heq ▸ hf x⟩
      · exact .inl ⟨x, hx, heq ▸ .refl true x⟩
    · intro h
      refine ⟨?_, ?_, ?_, ?_, h.next, ?_⟩
      · rw [show (Cache.entries _).map _ = _ from map_modifyKey _ fun x => (hf x).ptr]
        exact h.ptrs
      · rw [show (Cache.entries _).map _ = _ from map_modifyKey _ fun x => (hf x).jobId]
        exact h.ids
      · intro x' hx'
        obtain ⟨x, hx, heq⟩ := mem_modifyKey.mp hx'
        have hlt := h.ptr_lt x hx
        split at heq
        · exact heq ▸ hlt
        · exact heq ▸ hlt
      · intro x' hx'
        obtain ⟨x, hx, heq⟩ := mem_modifyKey.mp hx'
        have hnum := h.numbered x hx
        split at heq
        · exact heq ▸ hnum
        · exact heq ▸ hnum
      · -- The counter goes up when the flag does.
        have hcount := countP_modifyKey JobEntries.hasCachedTerminal h.ptrs he
          (f := JobEntries.cacheTerminal u expectedVersion)
        have hset : (e.cacheTerminal u expectedVersion).hasCachedTerminal = true := rfl
        rw [hset, if_pos rfl, ← h.counted] at hcount
        show (if e.hasCachedTerminal then c.count else c.count + 1) = List.countP _ (modifyKey _ _ _ _)
        split
        · rename_i hc
          rw [hc, if_pos rfl] at hcount
          omega
        · rename_i hc
          rw [if_neg hc] at hcount
          omega

theorem Cache.cacheIfTerminal_grows (c : Cache) (he : e ∈ c.entries) (u : StatusUpdate)
    (env : StatusEnv) : Grows true c (c.cacheIfTerminal e u env).2 := by
  rw [Cache.cacheIfTerminal]
  split
  · exact c.setCachedTerminal_grows he u e.version env
  · exact .refl true c

/-! ### Whole calls -/

theorem Cache.overwriteVersion_grows (c : Cache) (jobId : CStr) (version : Int32)
    (allocated : Bool) : Grows true c (c.overwriteVersion jobId version allocated).2 := by
  rw [Cache.overwriteVersion]
  split
  · exact .refl true c
  · rcases c.getOrCreate_cases jobId allocated with ⟨err, heq⟩ | ⟨e, c', heq, hget⟩
    · rw [heq]
      exact .refl true c
    · rw [heq]
      exact hget.grows.trans (c'.setVersion_grows e.ptr fun _ => version)

theorem Cache.setInitialExpectedVersion_grows (c : Cache) (jobId : CStr) (version : Int32)
    (allocated : Bool) : Grows true c (c.setInitialExpectedVersion jobId version allocated).2 := by
  rw [Cache.setInitialExpectedVersion]
  split
  · exact c.overwriteVersion_grows jobId version allocated
  · exact .refl true c

theorem Cache.sendPrepare_grows (c : Cache) (u : StatusUpdate) (env : StatusEnv) :
    Grows true c (c.sendPrepare u env).2.1 := by
  rw [Cache.sendPrepare]
  rcases c.getOrCreate_cases u.jobId env.entryAllocated with ⟨err, heq⟩ | ⟨e, c', heq, hget⟩
  · rw [heq]
    exact .refl true c
  · rw [heq]
    have hall := hget.grows.trans (c'.cacheIfTerminal_grows hget.mem u env)
    dsimp only
    split
    · exact hall.trans (Cache.setVersion_grows _ e.ptr fun x => x.version + 1)
    · exact hall

/-- `ota_status_send` loses no entry, whatever fails inside. -/
theorem Cache.otaStatusSend_grows (c : Cache) (u : StatusUpdate) (env : StatusEnv) :
    Grows true c (c.otaStatusSend u env).cache := by
  have hprep := c.sendPrepare_grows u env
  rw [Cache.otaStatusSend]
  split
  · split
    · rename_i c' prepared heq
      rw [heq] at hprep
      split
      · exact hprep
      · exact hprep.trans (c'.overwriteVersion_grows _ _ _)
    · rename_i err c' prepared heq hne
      rw [hne] at hprep
      exact hprep
  · exact .refl true c

/-- The retry task keeps the timers when the scheduler arms the entry again. -/
theorem Cache.retryTask_grows (c : Cache) (hcached : e.hasCachedTerminal = true) (env : StatusEnv) :
    Grows env.scheduled c (c.retryTask e env).1 := by
  have hrearm : ∀ (c : Cache) (delay : Nat), Grows env.scheduled c
      (c.rearm e.ptr delay env.scheduled) := by
    intro c delay
    refine c.update_grows e.ptr (fun x => ⟨rfl, rfl, rfl, id, fun ht _ => ?_⟩) fun _ => rfl
    rw [if_pos ht]
    rfl
  have hretried : Grows true c (c.update e.ptr JobEntries.retried) :=
    c.update_grows e.ptr (fun _ => ⟨rfl, rfl, rfl, id, fun _ => id⟩) fun _ => rfl
  rw [Cache.retryTask, JobEntries.retryShot, if_pos hcached]
  dsimp only
  split
  · exact hretried.weaken.trans (hrearm _ _)
  · exact (hretried.trans (Cache.overwriteVersion_grows _ _ _ _)).weaken.trans (hrearm _ _)

/-- The resend loop loses no entry. -/
theorem Cache.resend_grows (c : Cache) (envs : Nat → StatusEnv) (us : List StatusUpdate) (i : Nat) :
    Grows true c (c.resend envs i us).1 := by
  induction us generalizing c i with
  | nil => exact .refl true c
  | cons u us ih => exact (c.otaStatusSend_grows u (envs i)).trans (ih _ (i + 1))

theorem Cache.resendPendingTerminals_grows (c : Cache) (snapshotAllocated : Bool)
    (copied : Nat → Bool) (envs : Nat → StatusEnv) :
    Grows true c (c.resendPendingTerminals snapshotAllocated copied envs).1 := by
  rw [Cache.resendPendingTerminals]
  split
  · exact c.resend_grows envs _ 0
  · exact .refl true c

/-! ### The sender when nothing fails -/

/-- What the first section of `ota_status_send` does to its entry when the allocator and the
scheduler succeed. -/
def JobEntries.sent (u : StatusUpdate) (expectedVersion : Int32) (e : JobEntries) : JobEntries :=
  if isTerminal u.status then
    { e.cacheTerminal u expectedVersion with
      timer := some retryInitialDelayMs
      version := e.version + 1 }
  else { e with version := e.version + 1 }

/-- That section gets the entry of the job and writes to it. -/
theorem Cache.sendPrepare_eq (c : Cache) {u : StatusUpdate} (hu : validJobId u.jobId = true) :
    ∃ e c₁ c₂, Gets c u.jobId e c₁ ∧ c.sendPrepare u {} = (.ok, c₂, ⟨e.ptr, e.version, e.jobIdInt⟩)
      ∧ c₂.entries = modifyKey JobEntries.ptr e.ptr (JobEntries.sent u e.version) c₁.entries := by
  obtain ⟨err, heq⟩ | ⟨e, c₁, heq, hget⟩ := c.getOrCreate_cases u.jobId true
  · rw [Cache.getOrCreate, if_pos hu] at heq
    cases hfind : c.findByJobId u.jobId <;> simp [hfind] at heq
  · rw [Cache.sendPrepare, heq]
    dsimp only
    rw [Cache.cacheIfTerminal]
    split
    · rename_i ht
      have hcopied : ¬(u.details ≠ [] ∧ ({} : StatusEnv).detailsAllocated = false) :=
        fun h => absurd h.2 (by decide)
      rw [Cache.setCachedTerminal, if_neg hcopied]
      refine ⟨e, c₁, _, hget, rfl, ?_⟩
      have hsent : JobEntries.sent u e.version = fun x => { x.cacheTerminal u e.version with
          timer := some retryInitialDelayMs, version := x.version + 1 } :=
        funext fun x => if_pos ht
      rw [hsent]
      -- Caching, arming and counting up are three writes through one pointer.
      show modifyKey _ _ _ (modifyKey _ _ _ (modifyKey _ _ _ _)) = _
      rw [modifyKey_modifyKey, modifyKey_modifyKey]
      · rfl
      · exact fun _ => rfl
      · exact fun _ => rfl
    · rename_i ht
      refine ⟨e, c₁, _, hget, rfl, ?_⟩
      have hsent : JobEntries.sent u e.version = fun x => { x with version := x.version + 1 } :=
        funext fun x => if_neg ht
      rw [hsent]
      rfl

/-! ### Addresses that are kept outside the cache -/

/-- The cache has the entry at an address, with a job id where one is given. -/
def Cache.Has (c : Cache) (q : Nat × Option CStr) : Prop :=
  ∃ e ∈ c.entries, e.ptr = q.1 ∧ ∀ jobId ∈ q.2, e.jobId = jobId

variable {q : Nat × Option CStr}

theorem Cache.Has.mono {c' : Cache} (h : Grows timers c c') (hq : c.Has q) : c'.Has q := by
  obtain ⟨e, he, hptr, hid⟩ := hq
  obtain ⟨e', he', hc⟩ := h.fwd e he
  refine ⟨e', he', hc.ptr.trans hptr, ?_⟩
  intro jobId hj
  exact hc.jobId.trans (hid jobId hj)

/-- The address alone. -/
theorem Cache.Has.forget (h : c.Has q) : c.Has (q.1, none) := by
  obtain ⟨e, he, hptr, -⟩ := h
  exact ⟨e, he, hptr, fun _ hj => absurd hj (Option.not_mem_none _)⟩

/-- An address that only an entry of the job can have, now and later. -/
def Cache.Names (c : Cache) (q : Nat × CStr) : Prop :=
  q.1 < c.nextPtr ∧ ∀ e ∈ c.entries, e.ptr = q.1 → e.jobId = q.2

theorem Cache.Names.mono {c' : Cache} (h : Grows timers c c') {q : Nat × CStr} (hq : c.Names q) :
    c'.Names q := by
  refine ⟨hq.1.trans_le h.next, ?_⟩
  intro e' he' hptr
  rcases h.bwd e' he' with ⟨e, he, hc⟩ | hnew
  · exact hc.jobId.trans (hq.2 e he (hc.ptr.symm.trans hptr))
  · exact absurd hq.1 (by rw [← hptr]; exact Nat.not_lt.mpr hnew)

/-- With distinct addresses, an entry of the cache gives a name. -/
theorem Cache.Has.names (hwf : c.WF) {ptr : Nat} {jobId : CStr} (h : c.Has (ptr, some jobId)) :
    c.Names (ptr, jobId) := by
  obtain ⟨x, hx, hptr, hid⟩ := h
  refine ⟨hptr ▸ hwf.ptr_lt x hx, ?_⟩
  intro e he heptr
  obtain rfl : e = x := eq_of_key_eq hwf.ptrs he hx (heptr.trans hptr.symm)
  exact hid jobId rfl

/-! ### Removals -/

/-- A removal keeps the shape of the cache. -/
theorem Cache.removeEntries_wf (h : c.WF) (he : e ∈ c.entries) :
    (c.removeEntries e).WF where
  ptrs := nodup_eraseKey _ h.ptrs
  ids := nodup_eraseKey _ h.ids
  ptr_lt := fun x hx => h.ptr_lt x (mem_eraseKey.mp hx).1
  numbered := fun x hx => h.numbered x (mem_eraseKey.mp hx).1
  next := h.next
  counted := by
    have hcount := countP_eraseKey JobEntries.hasCachedTerminal h.ptrs he
    rw [← h.counted] at hcount
    show (if e.hasCachedTerminal then c.count - 1 else c.count) = List.countP _ (eraseKey _ _ _)
    split
    · rename_i hc
      rw [hc, if_pos rfl] at hcount
      omega
    · rename_i hc
      rw [if_neg hc] at hcount
      omega

/-- A removal takes out the one entry. -/
theorem Cache.mem_removeEntries {x : JobEntries} :
    x ∈ (c.removeEntries e).entries ↔ x ∈ c.entries ∧ x.ptr ≠ e.ptr := mem_eraseKey

end RainMakerNeo.Ota.Status
