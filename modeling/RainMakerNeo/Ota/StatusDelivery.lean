import RainMakerNeo.Ota.StatusInterleaving

/-!
# `RainMakerNeo.Ota.StatusDelivery`: terminal updates are delivered at least once

The main result is `terminals_delivered`. It covers the runs in which no entry is removed while a
task still works for it, and in which a resend does not send a copy that has been replaced. In
these runs a cached terminal update always has a timer or a retry task, and nothing happens for
an entry after its removal. `late_after_removal` is a run without that care: the answer to the
first publish removes the entry while the retry task is between its snapshot and its publish, so
the task publishes for the removed entry and arms the timer on freed memory.

The invariant `Inv` says that each task works for entries that are in the cache (`Has`).
A section either keeps all entries with their cached updates (`Quiet`), or it caches the update
of a sender, or it removes one entry.
-/

set_option autoImplicit false

namespace RainMakerNeo.Ota.Status

open RainMakerNeo.Lib

/-! ### Sections that keep the cached updates -/

/-- `e'` has the address and the cached update of `e`, and its timer if that runs. -/
structure JobEntries.SameStatus (e e' : JobEntries) : Prop where
  ptr : e'.ptr = e.ptr
  cached : e'.hasCachedTerminal = e.hasCachedTerminal
  update : e'.cachedUpdate = e.cachedUpdate
  timer : e.timer.isSome = true → e'.timer.isSome = true

theorem JobEntries.SameStatus.refl (e : JobEntries) : e.SameStatus e := ⟨rfl, rfl, rfl, id⟩

/-- No entry is lost, and each one keeps what it caches. A new entry caches nothing. -/
structure Quiet (c c' : Cache) : Prop where
  grows : Grows true c c'
  same : ∀ e' ∈ c'.entries,
    (∃ e ∈ c.entries, e.SameStatus e') ∨ e'.hasCachedTerminal = false

theorem Quiet.refl (c : Cache) : Quiet c c where
  grows := .refl true c
  same := fun e he => .inl ⟨e, he, .refl e⟩

/-- A write that keeps the cached update and the timer is quiet. -/
theorem Cache.update_quiet (c : Cache) (ptr : Nat) {f : JobEntries → JobEntries}
    (hf : ∀ e : JobEntries, e.Continues true (f e)) (hs : ∀ e : JobEntries, e.SameStatus (f e)) :
    Quiet c (c.update ptr f) where
  grows := c.update_grows ptr hf fun e => (hs e).cached
  same := by
    intro e' he'
    obtain ⟨e, he, heq⟩ := mem_modifyKey.mp he'
    split at heq
    · exact .inl ⟨e, he, heq ▸ hs e⟩
    · exact .inl ⟨e, he, heq ▸ .refl e⟩

variable {c : Cache} {jobId : CStr} {e : JobEntries} {task : Task} {u : StatusUpdate} {p : Prepared}
  {rest : List (Nat × StatusUpdate)} {s t : Manager} {q : Nat × Option CStr} {tasks : List Task}
  {ptr : Nat} {published : Bool} {shot : RetryShot}

/-- Getting an entry is quiet. -/
theorem Gets.quiet {c' : Cache} (h : Gets c jobId e c') :
    Quiet c c' where
  grows := h.grows
  same := by
    cases h with
    | found => exact fun e he => .inl ⟨e, he, .refl e⟩
    | created =>
      intro e he
      rcases List.mem_append.mp he with he | he
      · exact .inl ⟨e, he, .refl e⟩
      · obtain rfl := List.mem_singleton.mp he
        exact .inr rfl

theorem Quiet.trans {c' c'' : Cache} (h : Quiet c c') (h' : Quiet c' c'') : Quiet c c'' where
  grows := h.grows.trans h'.grows
  same := by
    intro e'' he''
    rcases h'.same e'' he'' with ⟨e', he', hs'⟩ | hno
    · rcases h.same e' he' with ⟨e, he, hs⟩ | hno
      · exact .inl ⟨e, he, hs'.ptr.trans hs.ptr, hs'.cached.trans hs.cached,
          hs'.update.trans hs.update, fun ht => hs'.timer (hs.timer ht)⟩
      · exact .inr (hs'.cached.trans hno)
    · exact .inr hno

/-- The version bookkeeping is quiet. -/
theorem Cache.overwriteVersion_quiet (c : Cache) (jobId : CStr) (version : Int32) :
    Quiet c (c.overwriteVersion jobId version true).2 := by
  rw [Cache.overwriteVersion]
  split
  · exact .refl c
  · rcases c.getOrCreate_cases jobId true with ⟨err, heq⟩ | ⟨e, c', heq, hget⟩
    · rw [heq]
      exact .refl c
    · rw [heq]
      exact hget.quiet.trans (c'.update_quiet e.ptr (fun _ => ⟨rfl, rfl, rfl, id, fun _ => id⟩)
        fun _ => ⟨rfl, rfl, rfl, id⟩)

theorem Cache.setInitialExpectedVersion_quiet (c : Cache) (jobId : CStr) (version : Int32) :
    Quiet c (c.setInitialExpectedVersion jobId version true).2 := by
  rw [Cache.setInitialExpectedVersion]
  split
  · exact c.overwriteVersion_quiet jobId version
  · exact .refl c

/-- Arming the timer is quiet. -/
theorem Cache.arm_quiet (c : Cache) (ptr delayMs : Nat) :
    Quiet c (c.update ptr fun e => { e with timer := some delayMs }) :=
  c.update_quiet ptr (fun _ => ⟨rfl, rfl, rfl, id, fun _ _ => rfl⟩)
    fun _ => ⟨rfl, rfl, rfl, fun _ => rfl⟩

/-! ### The first section of the sender -/

/-- The entries after that section. -/
inductive SendEffect (c : Cache) (u : StatusUpdate) (p : Prepared) (e' : JobEntries) : Prop
  | kept (e : JobEntries) (he : e ∈ c.entries) (hs : e.SameStatus e')
  | cached (hptr : e'.ptr = p.ptr) (hterm : isTerminal u.status = true) (hu : e'.cachedUpdate = u)
      (hc : e'.hasCachedTerminal = true) (ht : e'.timer.isSome = true)
  | uncached (hc : e'.hasCachedTerminal = false)

/-- The address that a publish of the sender remembers. -/
def Task.names : Task → List (Nat × CStr)
  | .sendPublish u p _ => [(p.ptr, u.jobId)]
  | _ => []

/-- The entries that a task works for are in the cache. -/
structure Cache.Anchors (c : Cache) (task : Task) : Prop where
  has : ∀ q ∈ task.targets, c.Has q
  names : ∀ q ∈ task.names, c.Names q

theorem Cache.Anchors.mono {timers : Bool} {c' : Cache} (h : Grows timers c c')
    (ht : c.Anchors task) : c'.Anchors task where
  has := fun q hq => (ht.has q hq).mono h
  names := fun q hq => (ht.names q hq).mono h

/-- A task that is not at the publish of the sender remembers no other address. -/
theorem Cache.Anchors.of_has (hnames : task.names = []) (h : ∀ q ∈ task.targets, c.Has q) :
    c.Anchors task where
  has := h
  names := fun _ hq => absurd (hnames ▸ hq) List.not_mem_nil

/-- What is left of a send works for the rest of the snapshot. -/
theorem Cache.Anchors.sendPublish (hwf : c.WF) (hp : c.Has (p.ptr, some u.jobId))
    (hrest : ∀ q ∈ rest.map fun q => (q.1, some q.2.jobId), c.Has q) :
    c.Anchors (.sendPublish u p rest) where
  has := by
    intro q hq
    rcases List.mem_append.mp hq with hq | hq
    · split at hq
      · exact List.mem_singleton.mp hq ▸ hp
      · exact absurd hq List.not_mem_nil
    · exact hrest q hq
  names := by
    intro q hq
    exact List.mem_singleton.mp hq ▸ hp.names hwf

/-- The first section of `ota_status_send` gets the entry of the job. A terminal update is cached
there with its timer armed. -/
theorem Cache.sendPrepare_spec (hwf : c.WF) (hu : validJobId u.jobId = true) :
    ∃ c' p, c.sendPrepare u {} = (.ok, c', p) ∧ Grows true c c' ∧ c'.Has (p.ptr, some u.jobId) ∧
      (∀ e' ∈ c'.entries, SendEffect c u p e') ∧
      (isTerminal u.status = true →
        ∃ e ∈ c'.entries, e.cachedUpdate = u ∧ e.hasCachedTerminal = true
          ∧ e.timer.isSome = true) := by
  obtain ⟨e, c₁, c₂, hget, heq, hentries⟩ := c.sendPrepare_eq hu
  have hgrows : Grows true c c₂ := by
    have h := c.sendPrepare_grows u {}
    rw [heq] at h
    exact h
  have hmem : JobEntries.sent u e.version e ∈ c₂.entries := by
    rw [hentries]
    exact mem_modifyKey_self hget.mem rfl
  have hupdate : isTerminal u.status = true → ∀ x : JobEntries, x.jobId = u.jobId →
      (JobEntries.sent u e.version x).cachedUpdate = u ∧
      (JobEntries.sent u e.version x).hasCachedTerminal = true ∧
      (JobEntries.sent u e.version x).timer.isSome = true := by
    intro hterm x hx
    rw [JobEntries.sent, if_pos hterm]
    exact ⟨by rw [JobEntries.cachedUpdate]; show StatusUpdate.mk x.jobId _ _ = u; rw [hx]; rfl,
      rfl, rfl⟩
  have hsentIds : (JobEntries.sent u e.version e).ptr = e.ptr ∧
      (JobEntries.sent u e.version e).jobId = u.jobId := by
    rw [JobEntries.sent]
    split <;> exact ⟨rfl, hget.jobId_eq⟩
  refine ⟨c₂, _, heq, hgrows, ⟨_, hmem, hsentIds.1, ?_⟩, ?_, ?_⟩
  · intro jobId hj
    obtain rfl := Option.some.inj hj
    exact hsentIds.2
  · intro e' he'
    rw [hentries] at he'
    obtain ⟨x, hx, hxe⟩ := mem_modifyKey.mp he'
    split at hxe
    · rename_i hp
      have hxe' : x = e := eq_of_key_eq (hget.grows.wf hwf).ptrs hx hget.mem hp
      by_cases hterm : isTerminal u.status = true
      · obtain ⟨h₁, h₂, h₃⟩ := hupdate hterm x (hxe' ▸ hget.jobId_eq)
        rw [hxe] at h₁ h₂ h₃
        exact .cached (by rw [← hxe, hxe']; exact hsentIds.1) hterm h₁ h₂ h₃
      · rw [JobEntries.sent, if_neg hterm] at hxe
        rcases hget.quiet.same x hx with ⟨y, hy, hs⟩ | hno
        · exact .kept y hy (hxe ▸ ⟨hs.ptr, hs.cached, hs.update, hs.timer⟩)
        · exact .uncached (hxe ▸ hno)
    · rcases hget.quiet.same x hx with ⟨y, hy, hs⟩ | hno
      · exact .kept y hy (hxe ▸ hs)
      · exact .uncached (hxe ▸ hno)
  · intro hterm
    obtain ⟨h₁, h₂, h₃⟩ := hupdate hterm e hget.jobId_eq
    exact ⟨_, hmem, h₁, h₂, h₃⟩

/-! ### Responses -/

/-- What the critical section of a response does. -/
inductive ResponseEffect (c : Cache) (payload : ResponsePayload) (accepted : Bool)
    (r : ResponseResult) : Prop
  | quiet (hq : Quiet c r.cache) (hres : ∀ u ∈ r.resend, ∃ e ∈ c.entries,
      c.answered payload = some e ∧ e.cachedUpdate = u)
  | removed (e : JobEntries) (he : e ∈ c.entries)
      (hrem : Removes c (.response payload accepted) e)
      (hc : r.cache = c.removeEntries e) (hres : r.resend = none)

theorem Cache.onResponseLocked_effect (c : Cache) (payload : ResponsePayload) (accepted : Bool) :
    ResponseEffect c payload accepted (c.onResponseLocked payload accepted {}) := by
  have hnone : ∀ u ∈ (none : Option StatusUpdate), ∃ e ∈ c.entries,
      c.answered payload = some e ∧ e.cachedUpdate = u := fun u hu => absurd hu (by simp)
  rw [Cache.onResponseLocked]
  cases htoken : readToken payload.clientToken with
  | none => exact .quiet (.refl c) hnone
  | some token =>
    obtain ⟨terminal, jobIdInt⟩ := token
    dsimp only
    cases hfind : c.findByInt jobIdInt with
    | none => exact .quiet (.refl c) hnone
    | some e =>
      have he : e ∈ c.entries := List.mem_of_find?_eq_some hfind
      have hans : c.answered payload = some e := by
        rw [Cache.answered, htoken]
        exact hfind
      dsimp only
      split
      · rename_i hacc
        cases terminal with
        | false => exact .quiet (.refl c) hnone
        | true =>
          have hrem : Removes c (.response payload accepted) e := by
            rw [hacc]
            exact ⟨hans, by rw [htoken]; rfl⟩
          exact .removed e he hrem rfl rfl
      · rename_i hacc
        rw [Cache.onReject]
        split
        · exact .quiet (.refl c) hnone
        · split
          · cases strToUint32 payload.versionNumber with
            | none => exact .quiet (.refl c) hnone
            | some version =>
              refine .quiet (c.update_quiet e.ptr (fun _ => ⟨rfl, rfl, rfl, id, fun _ => id⟩)
                fun _ => ⟨rfl, rfl, rfl, id⟩) ?_
              intro u hu
              dsimp only at hu
              split at hu
              · obtain rfl := Option.some.inj hu
                exact ⟨e, he, hans, rfl⟩
              · exact absurd hu (by simp)
          · split
            · rename_i hcode
              have hrem : Removes c (.response payload accepted) e := by
                rw [Bool.not_eq_true] at hacc
                rw [hacc]
                exact ⟨hans, hcode⟩
              exact .removed e he hrem rfl rfl
            · refine .quiet ?_ hnone
              dsimp only
              split
              · exact c.arm_quiet e.ptr e.retryDelayMs
              · exact .refl c

/-! ### The invariant -/

/-- What every careful run keeps: the shape of the cache, a timer or a retry task for each cached
update, and tasks that work for entries of the cache only. No timer runs on freed memory. -/
structure Inv (s : Manager) : Prop where
  wf : s.cache.WF
  held : Held s
  anchored : ∀ task ∈ s.tasks, s.cache.Anchors task
  nothingLate : s.late = []
  freedOff : ∀ e ∈ s.freed, e.timer = none
  freedLt : ∀ e ∈ s.freed, e.ptr < s.cache.nextPtr
  freedApart : ∀ e ∈ s.freed, ∀ x ∈ s.cache.entries, x.ptr ≠ e.ptr

theorem Inv.initial : Inv {} where
  wf := Cache.wf_initial
  held := fun _ he => absurd he List.not_mem_nil
  anchored := fun _ h => absurd h List.not_mem_nil
  nothingLate := rfl
  freedOff := fun _ h => absurd h List.not_mem_nil
  freedLt := fun _ h => absurd h List.not_mem_nil
  freedApart := fun _ h => absurd h List.not_mem_nil

theorem Manager.live_of_has (h : s.cache.Has q) : s.live q.1 = true := by
  obtain ⟨e, he, hptr, -⟩ := h
  rw [Manager.live, List.any_eq_true]
  exact ⟨e, he, beq_iff_eq.mpr hptr⟩

/-- Nothing is recorded for an entry that is in the cache. -/
theorem Manager.note_of_has (h : s.cache.Has q) (act : Late) : s.note q.1 act = s := by
  rw [Manager.note, if_pos (Manager.live_of_has h)]

/-- The freed memory stays apart from the entries while no entry is removed. -/
theorem Inv.freed_of_grows (hs : Inv s) (h : Grows true s.cache c) :
    (∀ e ∈ s.freed, e.ptr < c.nextPtr) ∧ ∀ e ∈ s.freed, ∀ x ∈ c.entries, x.ptr ≠ e.ptr := by
  constructor
  · intro e he
    exact (hs.freedLt e he).trans_le h.next
  · intro e he x hx heq
    rcases h.bwd x hx with ⟨y, hy, hc⟩ | hnew
    · exact hs.freedApart e he y hy (hc.ptr.symm.trans heq)
    · exact absurd (hs.freedLt e he) (by rw [← heq]; exact Nat.not_lt.mpr hnew)

/-- A step keeps the invariant when it loses no entry, leaves a timer or a retry task for each
cached update, and adds only tasks that work for entries of the cache. -/
theorem Inv.of_grows (hs : Inv s) (hgrows : Grows true s.cache c)
    (hheld : Held { s with cache := c, tasks := tasks })
    (htasks : ∀ task ∈ tasks, task ∈ s.tasks ∨ c.Anchors task) :
    Inv { s with cache := c, tasks := tasks } where
  wf := hgrows.wf hs.wf
  held := hheld
  anchored := by
    intro task ht
    rcases htasks task ht with hold | hnew
    · exact (hs.anchored task hold).mono hgrows
    · exact hnew
  nothingLate := hs.nothingLate
  freedOff := hs.freedOff
  freedLt := (hs.freed_of_grows hgrows).1
  freedApart := (hs.freed_of_grows hgrows).2

/-- What is held stays held when the cached updates stay and the retry tasks go on. -/
theorem Held.of_quiet (hs : Held s) (hq : Quiet s.cache c)
    (htasks : ∀ task ∈ s.tasks, ∀ ptr, task.retries ptr = true →
      (∃ task' ∈ tasks, task'.retries ptr = true) ∨
        ∀ e ∈ c.entries, e.ptr = ptr → e.hasCachedTerminal = true → e.timer.isSome = true) :
    Held { s with cache := c, tasks := tasks } := by
  intro e' he' hc'
  rcases hq.same e' he' with ⟨e, he, hsame⟩ | hno
  · rcases hs e he (hsame.cached.symm.trans hc') with htimer | ⟨task, htask, hret⟩
    · exact .inl (hsame.timer htimer)
    · rcases htasks task htask e.ptr hret with ⟨task', htask', hret'⟩ | hall
      · exact .inr ⟨task', htask', hsame.ptr.symm ▸ hret'⟩
      · exact .inl (hall e' he' hsame.ptr hc')
  · exact absurd hc' (by rw [hno]; exact Bool.false_ne_true)

/-! ### Tasks that work for entries of the cache -/

/-- An address of an entry leads to that entry. -/
theorem Manager.deref_of_has (h : s.cache.Has q) :
    ∃ e ∈ s.cache.entries, e.ptr = q.1 ∧ s.deref q.1 = some e := by
  obtain ⟨x, hx, hptr, -⟩ := h
  have hsome : (s.cache.entries.find? fun e => e.ptr == q.1).isSome = true := by
    rw [List.find?_isSome]
    exact ⟨x, hx, beq_iff_eq.mpr hptr⟩
  obtain ⟨e, he⟩ := Option.isSome_iff_exists.mp hsome
  have hfound := List.find?_some he
  refine ⟨e, List.mem_of_find?_eq_some he, beq_iff_eq.mp hfound, ?_⟩
  rw [Manager.deref, List.find?_append, he]
  rfl

/-- A write through the address of an entry does not touch freed memory. -/
theorem Manager.write_of_has (h : s.cache.Has q)
    (hapart : ∀ e ∈ s.freed, ∀ x ∈ s.cache.entries, x.ptr ≠ e.ptr) (f : JobEntries → JobEntries) :
    s.write q.1 f = { s with cache := s.cache.update q.1 f } := by
  obtain ⟨x, hx, hptr, -⟩ := h
  have hfreed : modifyKey JobEntries.ptr q.1 f s.freed = s.freed :=
    modifyKey_of_forall_ne fun e he heq => hapart e he x hx (hptr.trans heq.symm)
  rw [Manager.write, hfreed]

/-- The version of an entry of the cache goes back without making an entry. -/
theorem Manager.revert_of_has (h : s.cache.Has (ptr, some jobId)) (version : Int32) :
    s.revert jobId version =
      { s with cache := (s.cache.overwriteVersion jobId version true).2 } := by
  obtain ⟨x, hx, -, hid⟩ := h
  have hfound : (s.cache.findByJobId jobId).isSome = true := by
    rw [Cache.findByJobId, List.find?_isSome]
    exact ⟨x, hx, (sameJobId_iff _ _).mpr (hid jobId rfl)⟩
  rw [Manager.revert, if_pos hfound]

/-- What is left of a resend works for the entries that it worked for before. -/
theorem mem_afterSend (h : task ∈ afterSend rest) : task = .resend rest := by
  rw [afterSend] at h
  split at h
  · exact absurd h List.not_mem_nil
  · exact List.mem_singleton.mp h

/-- A task that runs a quiet section keeps the invariant, when what is left of it works for
entries of the cache and goes on retrying, or has armed the timer. -/
theorem Inv.advance (hs : Inv s) {cont : List Task} (hq : Quiet s.cache c)
    (hcont : ∀ task' ∈ cont, c.Anchors task')
    (hret : ∀ ptr, task.retries ptr = true → (∃ task' ∈ cont, task'.retries ptr = true) ∨
      ∀ e ∈ c.entries, e.ptr = ptr → e.hasCachedTerminal = true → e.timer.isSome = true) :
    Inv { s with cache := c, tasks := s.tasks.erase task ++ cont } ∧ Quiet s.cache c := by
  refine ⟨hs.of_grows hq.grows (hs.held.of_quiet hq ?_) ?_, hq⟩
  · intro task' ht ptr hp
    by_cases heq : task' = task
    · rcases hret ptr (heq ▸ hp) with ⟨t, ht', hr⟩ | hall
      · exact .inl ⟨t, List.mem_append_right _ ht', hr⟩
      · exact .inr hall
    · exact .inl ⟨task', List.mem_append_left _ ((List.mem_erase_of_ne heq).mpr ht), hp⟩
  · intro task' ht
    rcases List.mem_append.mp ht with ht | ht
    · exact .inl (List.mem_of_mem_erase ht)
    · exact .inr (hcont task' ht)

/-- The tasks of the sender do not retry. -/
theorem not_retries_send {P : Prop} (ptr : Nat) :
    (Task.retries ptr (.sendPublish u p rest) = true → P) ∧
      (Task.retries ptr (.sendRevert u p rest) = true → P) ∧
      (Task.retries ptr (.resend rest) = true → P) :=
  ⟨fun h => absurd h Bool.false_ne_true, fun h => absurd h Bool.false_ne_true,
    fun h => absurd h Bool.false_ne_true⟩

/-- The send section of a resend keeps the invariant. It caches the copy that it sends, in the
entry that the copy was made from. -/
theorem Inv.advance_resend (hs : Inv s) (ht : Task.resend ((ptr, u) :: rest) ∈ s.tasks)
    (published : Bool) (h : step s (.advance (.resend ((ptr, u) :: rest)) published) = some t) :
    Inv t ∧ Grows true s.cache t.cache ∧ ∃ p : Prepared, p.ptr = ptr ∧
      ∀ e' ∈ t.cache.entries, SendEffect s.cache u p e' := by
  have htargets := hs.anchored _ ht
  have hhas : s.cache.Has (ptr, some u.jobId) := htargets.has _ List.mem_cons_self
  rw [step, if_pos ht, Option.some.injEq, Manager.runTask] at h
  by_cases hu : validJobId u.jobId = true
  · obtain ⟨c, p, heq, hgrows, hp, heff, -⟩ := Cache.sendPrepare_spec hs.wf hu
    have hnote := Manager.note_of_has
      (s := { s with tasks := s.tasks.erase (.resend ((ptr, u) :: rest)) }) hhas
      (.recreated u.jobId)
    rw [heq, hnote] at h
    subst h
    have hptr : p.ptr = ptr := by
      -- Both are addresses of the one entry with the job id.
      obtain ⟨x, hx, hxp, hxid⟩ := hp
      obtain ⟨y, hy, hyp, hyid⟩ := hhas.mono hgrows
      have hxy : x = y := eq_of_key_eq (hgrows.wf hs.wf).ids hx hy
        ((hxid _ rfl).trans (hyid _ rfl).symm)
      exact hxp.symm.trans ((congrArg JobEntries.ptr hxy).trans hyp)
    refine ⟨hs.of_grows hgrows ?_ ?_, hgrows, p, hptr, heff⟩
    · intro e' he' hc'
      cases heff e' he' with
      | kept e he hsame =>
        rcases hs.held e he (hsame.cached.symm.trans hc') with htimer | ⟨task, htask, hr⟩
        · exact .inl (hsame.timer htimer)
        · have hne : task ≠ .resend ((ptr, u) :: rest) := by
            intro heq'
            rw [heq'] at hr
            exact absurd hr Bool.false_ne_true
          exact .inr ⟨task, List.mem_append_left _ ((List.mem_erase_of_ne hne).mpr htask),
            hsame.ptr.symm ▸ hr⟩
      | cached _ _ _ _ htimer => exact .inl htimer
      | uncached hno => exact absurd hc' (by rw [hno]; exact Bool.false_ne_true)
    · intro task htask
      rcases List.mem_append.mp htask with htask | htask
      · exact .inl (List.mem_of_mem_erase htask)
      · obtain rfl := List.mem_singleton.mp htask
        refine .inr (.sendPublish (hgrows.wf hs.wf) hp ?_)
        intro q hq
        exact (htargets.has q (List.mem_cons_of_mem _ hq)).mono hgrows
  · -- The job id of an entry is valid, so this does not happen.
    have heq : s.cache.sendPrepare u {} = (.invalidArg, s.cache, ⟨0, 0, 0⟩) := by
      rw [Cache.sendPrepare, Cache.getOrCreate, if_neg hu]
    rw [heq] at h
    subst h
    refine ⟨(hs.advance (.refl s.cache) ?_ ?_).1, .refl true s.cache, ⟨ptr, 0, 0⟩, rfl,
      fun e he => .kept e he (.refl e)⟩
    · intro task htask
      rw [mem_afterSend htask]
      exact .of_has rfl fun q hq => htargets.has q (List.mem_cons_of_mem _ hq)
    · exact fun p => (not_retries_send (u := u) (p := ⟨0, 0, 0⟩) p).2.2

/-- The address of a failed publish still leads to the entry of its job when that is live. -/
theorem Cache.Names.has {q : Nat × CStr} (h : s.cache.Names q) (hlive : s.live q.1 = true) :
    s.cache.Has (q.1, some q.2) := by
  rw [Manager.live, List.any_eq_true] at hlive
  obtain ⟨e, he, hptr⟩ := hlive
  refine ⟨e, he, beq_iff_eq.mp hptr, ?_⟩
  intro jobId hj
  obtain rfl := Option.some.inj hj
  exact h.2 e he (beq_iff_eq.mp hptr)

/-- The publish of the sender keeps the invariant. -/
theorem Inv.advance_sendPublish (hs : Inv s) (ht : Task.sendPublish u p rest ∈ s.tasks)
    (hcare : publishUpdate p.expectedVersion published = .ok ∨ s.live p.ptr = true)
    (h : step s (.advance (.sendPublish u p rest) published) = some t) :
    Inv t ∧ Quiet s.cache t.cache := by
  have htargets := hs.anchored _ ht
  have hrest : ∀ q ∈ rest.map fun q => (q.1, some q.2.jobId), s.cache.Has q :=
    fun q hq => htargets.has q (List.mem_append_right _ hq)
  rw [step, if_pos ht, Option.some.injEq, Manager.runTask] at h
  by_cases hpub : publishUpdate p.expectedVersion published = .ok
  · have hafter : ∀ task ∈ afterSend rest, s.cache.Anchors task := by
      intro task htask
      rw [mem_afterSend htask]
      exact .of_has rfl hrest
    rw [if_pos hpub] at h
    by_cases hterm : isTerminal u.status = true
    · have hhas : s.cache.Has (p.ptr, some u.jobId) := by
        refine htargets.has _ (List.mem_append_left _ ?_)
        rw [if_pos hterm]
        exact List.mem_singleton.mpr rfl
      have hnote := Manager.note_of_has
        (s := { s with tasks := s.tasks.erase (.sendPublish u p rest) }) hhas (.published u.jobId)
      rw [if_pos hterm, hnote] at h
      subst h
      exact hs.advance (.refl s.cache) hafter fun ptr => (not_retries_send ptr).1
    · rw [if_neg hterm] at h
      subst h
      exact hs.advance (.refl s.cache) hafter fun ptr => (not_retries_send ptr).1
  · rw [if_neg hpub] at h
    subst h
    have hhas : s.cache.Has (p.ptr, some u.jobId) :=
      (htargets.names _ (List.mem_singleton.mpr rfl)).has (hcare.resolve_left hpub)
    refine hs.advance (.refl s.cache) ?_ fun ptr => (not_retries_send ptr).1
    intro task htask
    obtain rfl := List.mem_singleton.mp htask
    refine .of_has rfl ?_
    intro q hq
    rcases List.mem_cons.mp hq with rfl | hq
    · exact hhas
    · exact hrest q hq

/-- The revert of the sender keeps the invariant. -/
theorem Inv.advance_sendRevert (hs : Inv s) (ht : Task.sendRevert u p rest ∈ s.tasks)
    (h : step s (.advance (.sendRevert u p rest) published) = some t) :
    Inv t ∧ Quiet s.cache t.cache := by
  have htargets := hs.anchored _ ht
  have hhas : s.cache.Has (p.ptr, some u.jobId) := htargets.has _ List.mem_cons_self
  have hrevert := Manager.revert_of_has
    (s := { s with tasks := s.tasks.erase (.sendRevert u p rest) }) hhas p.expectedVersion
  have hq := s.cache.overwriteVersion_quiet u.jobId p.expectedVersion
  rw [step, if_pos ht, Option.some.injEq, Manager.runTask, hrevert] at h
  subst h
  refine hs.advance hq ?_ fun ptr => (not_retries_send ptr).2.1
  intro task htask
  rw [mem_afterSend htask]
  exact .of_has rfl fun q hq' => (htargets.has q (List.mem_cons_of_mem _ hq')).mono hq.grows

/-- A section of a retry that leaves one task of the retry behind. -/
theorem Inv.advance_one (hs : Inv s) {next : Task} (hq : Quiet s.cache c)
    (hnames : next.names = []) (hhas : ∀ q ∈ next.targets, c.Has q)
    (hret : ∀ ptr, task.retries ptr = true → next.retries ptr = true) :
    Inv { s with cache := c, tasks := s.tasks.erase task ++ [next] } ∧ Quiet s.cache c := by
  refine hs.advance hq ?_ fun p hp => .inl ⟨next, List.mem_singleton.mpr rfl, hret p hp⟩
  intro task' htask
  obtain rfl := List.mem_singleton.mp htask
  exact .of_has hnames hhas

/-- A retry with a cached update has the job of its entry. -/
theorem JobEntries.retryShot_jobId (h : e.retryShot = some shot) : shot.update.jobId = e.jobId := by
  rw [JobEntries.retryShot] at h
  split at h
  · rw [← Option.some.inj h]
    rfl
  · exact absurd h (by simp)

section
variable (hs : Inv s)
include hs

/-- The start of a retry keeps the invariant. -/
theorem Inv.advance_retry (ht : Task.retry ptr ∈ s.tasks)
    (h : step s (.advance (.retry ptr) published) = some t) : Inv t ∧ Quiet s.cache t.cache := by
  rw [step, if_pos ht, Option.some.injEq, Manager.runTask] at h
  have hhas : s.cache.Has (ptr, none) := (hs.anchored _ ht).has _ List.mem_cons_self
  obtain ⟨e, he, hptr, hderef⟩ := Manager.deref_of_has
    (s := { s with tasks := s.tasks.erase (.retry ptr) }) hhas
  rw [hderef, Option.bind_some] at h
  cases hshot : e.retryShot with
  | none =>
    rw [hshot] at h
    subst h
    refine hs.advance (.refl s.cache) (fun _ h => absurd h List.not_mem_nil) ?_
    intro p hp
    refine .inr ?_
    intro x hx hxp hc
    -- The task found no cached update, and the entry is the only one with its address.
    obtain rfl : x = e := eq_of_key_eq hs.wf.ptrs hx he
      (hxp.trans ((beq_iff_eq.mp hp).symm.trans hptr.symm))
    rw [JobEntries.retryShot, if_pos hc] at hshot
    exact absurd hshot (by simp)
  | some shot =>
    have hwrite := Manager.write_of_has
      (s := { s with tasks := s.tasks.erase (.retry ptr) }) hhas hs.freedApart JobEntries.retried
    have hq : Quiet s.cache (s.cache.update ptr JobEntries.retried) :=
      s.cache.update_quiet ptr (fun _ => ⟨rfl, rfl, rfl, id, fun _ => id⟩)
        fun _ => ⟨rfl, rfl, rfl, id⟩
    rw [hshot] at h
    dsimp only at h
    rw [hwrite] at h
    subst h
    refine hs.advance_one hq rfl ?_ fun _ hp => hp
    intro q hqt
    obtain rfl := List.mem_singleton.mp hqt
    refine Cache.Has.mono hq.grows ⟨e, he, hptr, ?_⟩
    intro jobId hj
    obtain rfl := Option.some.inj hj
    exact (JobEntries.retryShot_jobId hshot).symm

/-- The publish of a retry keeps the invariant. -/
theorem Inv.advance_retryPublish (ht : Task.retryPublish ptr shot ∈ s.tasks)
    (h : step s (.advance (.retryPublish ptr shot) published) = some t) :
    Inv t ∧ Quiet s.cache t.cache := by
  have htargets := hs.anchored _ ht
  have hhas : s.cache.Has (ptr, some shot.update.jobId) := htargets.has _ List.mem_cons_self
  rw [step, if_pos ht, Option.some.injEq, Manager.runTask] at h
  split at h
  · have hnote := Manager.note_of_has
      (s := { s with tasks := s.tasks.erase (.retryPublish ptr shot) }) hhas
      (.published shot.update.jobId)
    rw [hnote] at h
    subst h
    refine hs.advance_one (.refl s.cache) rfl ?_ fun _ hp => hp
    exact fun q hq => List.mem_singleton.mp hq ▸ hhas.forget
  · subst h
    exact hs.advance_one (.refl s.cache) rfl htargets.has fun _ hp => hp

/-- The revert of a retry keeps the invariant. -/
theorem Inv.advance_retryRevert (ht : Task.retryRevert ptr shot ∈ s.tasks)
    (h : step s (.advance (.retryRevert ptr shot) published) = some t) :
    Inv t ∧ Quiet s.cache t.cache := by
  have hhas : s.cache.Has (ptr, some shot.update.jobId) :=
    (hs.anchored _ ht).has _ List.mem_cons_self
  have hrevert := Manager.revert_of_has
    (s := { s with tasks := s.tasks.erase (.retryRevert ptr shot) }) hhas shot.expectedVersion
  have hq := s.cache.overwriteVersion_quiet shot.update.jobId shot.expectedVersion
  rw [step, if_pos ht, Option.some.injEq, Manager.runTask, hrevert] at h
  subst h
  refine hs.advance_one hq rfl ?_ fun _ hp => hp
  exact fun q hqt => List.mem_singleton.mp hqt ▸ hhas.forget.mono hq.grows

/-- The end of a retry arms the timer of its entry. -/
theorem Inv.advance_retryRearm {delayMs : Nat} (ht : Task.retryRearm ptr delayMs ∈ s.tasks)
    (h : step s (.advance (.retryRearm ptr delayMs) published) = some t) :
    Inv t ∧ Quiet s.cache t.cache := by
  have hhas : s.cache.Has (ptr, none) := (hs.anchored _ ht).has _ List.mem_cons_self
  have hnote := Manager.note_of_has
    (s := { s with tasks := s.tasks.erase (.retryRearm ptr delayMs) }) hhas (.rearmed ptr)
  have hwrite := Manager.write_of_has
    (s := { s with tasks := s.tasks.erase (.retryRearm ptr delayMs) }) hhas hs.freedApart
    fun e => { e with timer := some delayMs }
  rw [step, if_pos ht, Option.some.injEq, Manager.runTask, hnote, hwrite] at h
  subst h
  refine hs.advance (s.cache.arm_quiet ptr delayMs) (fun _ h => absurd h List.not_mem_nil) ?_
  intro p hp
  refine .inr ?_
  intro x hx hxp _
  obtain ⟨y, hy, hyx⟩ := mem_modifyKey.mp hx
  split at hyx
  · rw [← hyx]
    rfl
  · rename_i hne
    exact absurd ((congrArg JobEntries.ptr hyx).trans (hxp.trans (beq_iff_eq.mp hp).symm)) hne

/-- Every other section of a task keeps the invariant, and it is quiet. -/
theorem Inv.advance_task (ht : task ∈ s.tasks) (hcare : Careful s (.advance task published))
    (hne : ∀ copy rest, task ≠ .resend (copy :: rest))
    (h : step s (.advance task published) = some t) : Inv t ∧ Quiet s.cache t.cache := by
  cases task with
  | sendPublish u p rest => exact hs.advance_sendPublish ht hcare.2 h
  | sendRevert u p rest => exact hs.advance_sendRevert ht h
  | retry ptr => exact hs.advance_retry ht h
  | retryPublish ptr shot => exact hs.advance_retryPublish ht h
  | retryRevert ptr shot => exact hs.advance_retryRevert ht h
  | retryRearm ptr delayMs => exact hs.advance_retryRearm ht h
  | resend snapshot =>
    cases snapshot with
    | cons copy rest => exact absurd rfl (hne copy rest)
    | nil =>
      rw [step, if_pos ht, Option.some.injEq, Manager.runTask] at h
      subst h
      exact hs.advance (.refl s.cache) (fun _ h => absurd h List.not_mem_nil)
        fun _ h => absurd h Bool.false_ne_true

/-! ### The other steps -/

/-- A new call of the sender. -/
theorem Inv.send (hu : u.valid true = true) (h : step s (.send u) = some t) :
    Inv t ∧ Grows true s.cache t.cache ∧ (∃ p, ∀ e' ∈ t.cache.entries, SendEffect s.cache u p e') ∧
      (isTerminal u.status = true → ∃ e ∈ t.cache.entries,
        e.cachedUpdate = u ∧ e.hasCachedTerminal = true ∧ e.timer.isSome = true) := by
  have hid : validJobId u.jobId = true := by
    rw [StatusUpdate.valid, Bool.and_eq_true, Bool.and_eq_true] at hu
    exact hu.1.1
  obtain ⟨c, p, heq, hgrows, hp, heff, hterm⟩ := Cache.sendPrepare_spec hs.wf hid
  rw [step, if_pos hu, heq, Option.some.injEq] at h
  subst h
  refine ⟨hs.of_grows hgrows ?_ ?_, hgrows, ⟨p, heff⟩, hterm⟩
  · intro e' he' hc'
    cases heff e' he' with
    | kept e he hsame =>
      rcases hs.held e he (hsame.cached.symm.trans hc') with htimer | ⟨task, htask, hr⟩
      · exact .inl (hsame.timer htimer)
      · exact .inr ⟨task, List.mem_append_left _ htask, hsame.ptr.symm ▸ hr⟩
    | cached _ _ _ _ htimer => exact .inl htimer
    | uncached hno => exact absurd hc' (by rw [hno]; exact Bool.false_ne_true)
  · intro task htask
    rcases List.mem_append.mp htask with htask | htask
    · exact .inl htask
    · obtain rfl := List.mem_singleton.mp htask
      exact .inr (.sendPublish (hgrows.wf hs.wf) hp fun _ hq => absurd hq List.not_mem_nil)

/-- More tasks that work for entries of the cache, after a quiet section. -/
theorem Inv.add_tasks (hq : Quiet s.cache c) (htasks : ∀ task ∈ tasks, c.Anchors task) :
    Inv { s with cache := c, tasks := s.tasks ++ tasks } := by
  refine hs.of_grows hq.grows (hs.held.of_quiet hq ?_) ?_
  · intro task ht ptr hr
    exact .inl ⟨task, List.mem_append_left _ ht, hr⟩
  · intro task ht
    rcases List.mem_append.mp ht with ht | ht
    · exact .inl ht
    · exact .inr (htasks task ht)

/-- The timer of an entry expires, and its retry task starts. -/
theorem Inv.timer (h : step s (.timer ptr) = some t) :
    Inv t ∧ ∀ e ∈ s.cache.entries, e.hasCachedTerminal = true → Survives (.timer ptr) e t := by
  rw [step] at h
  cases hmem : (s.deref ptr).bind JobEntries.timer with
  | none =>
    rw [hmem] at h
    exact absurd h (by simp)
  | some delay =>
    rw [hmem] at h
    obtain ⟨x, hx, hdelay⟩ := Option.bind_eq_some_iff.mp hmem
    have hxmem := List.mem_of_find?_eq_some hx
    have hxptr : x.ptr = ptr :=
      beq_iff_eq.mp (List.find?_some (p := fun e : JobEntries => e.ptr == ptr) hx)
    -- No timer runs on freed memory.
    have hlive : x ∈ s.cache.entries := by
      rcases List.mem_append.mp hxmem with hlive | hfreed
      · exact hlive
      · rw [hs.freedOff x hfreed] at hdelay
        exact absurd hdelay (by simp)
    have hhas : s.cache.Has (ptr, none) := ⟨x, hlive, hxptr, fun _ hj => absurd hj (by simp)⟩
    dsimp only at h
    rw [Manager.write_of_has hhas hs.freedApart, Option.some.injEq] at h
    subst h
    have hgrows : Grows false s.cache (s.cache.update ptr fun e => { e with timer := none }) :=
      s.cache.update_grows ptr (fun _ => ⟨rfl, rfl, rfl, id, fun ht => absurd ht (by simp)⟩)
        fun _ => rfl
    have hentry : ∀ e' ∈ (s.cache.update ptr fun e => { e with timer := none }).entries,
        ∃ e ∈ s.cache.entries, e'.ptr = e.ptr ∧ e'.hasCachedTerminal = e.hasCachedTerminal ∧
          e'.cachedUpdate = e.cachedUpdate ∧ (e.ptr = ptr ∨ e' = e) := by
      intro e' he'
      obtain ⟨e, he, heq⟩ := mem_modifyKey.mp he'
      split at heq
      · rename_i hp
        exact ⟨e, he, heq ▸ rfl, heq ▸ rfl, heq ▸ rfl, .inl hp⟩
      · exact ⟨e, he, heq ▸ rfl, heq ▸ rfl, heq ▸ rfl, .inr heq.symm⟩
    refine ⟨⟨hgrows.wf hs.wf, ?_, ?_, hs.nothingLate, hs.freedOff, hs.freedLt, ?_⟩, ?_⟩
    · intro e' he' hc'
      obtain ⟨e, he, hptr, hcached, -, hwho⟩ := hentry e' he'
      rcases hwho with hp | heq
      · exact .inr ⟨.retry ptr, List.mem_append_right _ (List.mem_singleton.mpr rfl),
          beq_iff_eq.mpr (hp.symm.trans hptr.symm)⟩
      · rcases hs.held e he (hcached.symm.trans hc') with htimer | ⟨task, ht, hr⟩
        · exact .inl (heq ▸ htimer)
        · exact .inr ⟨task, List.mem_append_left _ ht, hptr.symm ▸ hr⟩
    · intro task ht
      rcases List.mem_append.mp ht with ht | ht
      · exact (hs.anchored task ht).mono hgrows
      · obtain rfl := List.mem_singleton.mp ht
        refine .of_has rfl ?_
        intro q hq
        obtain rfl := List.mem_singleton.mp hq
        exact hhas.mono hgrows
    · intro e he e' he'
      obtain ⟨y, hy, hptr, -⟩ := hentry e' he'
      rw [hptr]
      exact hs.freedApart e he y hy
    · intro e he hc
      obtain ⟨e', he', hcont⟩ := hgrows.fwd e he
      obtain ⟨y, hy, hptr, -, hupd, -⟩ := hentry e' he'
      obtain rfl : y = e := eq_of_key_eq hs.wf.ptrs hy he (hptr.symm.trans hcont.ptr)
      exact ⟨e', he', hcont.ptr, hcont.cached hc, .inl hupd⟩

end

/-- While no entry is lost, nothing is freed. -/
theorem Manager.remove_of_grows (h : Grows true s.cache c) :
    s.remove c = { s with cache := c } := by
  have hnil : (s.cache.entries.filter fun e => !c.entries.any fun x => x.ptr == e.ptr) = [] := by
    rw [List.filter_eq_nil_iff]
    intro e he
    obtain ⟨e', he', hc⟩ := h.fwd e he
    have hany : (c.entries.any fun x => x.ptr == e.ptr) = true := by
      rw [List.any_eq_true]
      exact ⟨e', he', beq_iff_eq.mpr hc.ptr⟩
    rw [hany]
    exact Bool.false_ne_true
  rw [Manager.remove, hnil, List.map_nil, List.append_nil]

/-- The removal of an entry that no task works for. -/
theorem Inv.remove (hs : Inv s) (he : e ∈ s.cache.entries)
    (hfree : ∀ task ∈ s.tasks, task.worksFor e.ptr = false) :
    Inv (s.remove (s.cache.removeEntries e)) := by
  have hfreed : ∀ x ∈ (s.remove (s.cache.removeEntries e)).freed, x ∈ s.freed ∨
      (x.timer = none ∧ x.ptr = e.ptr) := by
    intro x hx
    rcases List.mem_append.mp hx with hx | hx
    · exact .inl hx
    · obtain ⟨y, hy, rfl⟩ := List.mem_map.mp hx
      obtain ⟨hy, hgone⟩ := List.mem_filter.mp hy
      refine .inr ⟨rfl, ?_⟩
      by_contra hne
      have hany : ((s.cache.removeEntries e).entries.any fun z => z.ptr == y.ptr) = true := by
        rw [List.any_eq_true]
        exact ⟨y, Cache.mem_removeEntries.mpr ⟨hy, hne⟩, beq_iff_eq.mpr rfl⟩
      rw [hany] at hgone
      exact absurd hgone Bool.false_ne_true
  refine ⟨Cache.removeEntries_wf hs.wf he, ?_, ?_, hs.nothingLate, ?_, ?_, ?_⟩
  · intro x hx hc
    exact hs.held x (Cache.mem_removeEntries.mp hx).1 hc
  · intro task ht
    refine ⟨fun q hq => ?_, fun q hq => ?_⟩
    · obtain ⟨x, hx, hptr, hid⟩ := (hs.anchored task ht).has q hq
      refine ⟨x, Cache.mem_removeEntries.mpr ⟨hx, ?_⟩, hptr, hid⟩
      intro heq
      have hworks : task.worksFor e.ptr = true := by
        rw [Task.worksFor, List.any_eq_true]
        exact ⟨q, hq, beq_iff_eq.mpr (hptr.symm.trans heq)⟩
      rw [hfree task ht] at hworks
      exact Bool.false_ne_true hworks
    · obtain ⟨hlt, hname⟩ := (hs.anchored task ht).names q hq
      exact ⟨hlt, fun x hx => hname x (Cache.mem_removeEntries.mp hx).1⟩
  · intro x hx
    rcases hfreed x hx with hold | ⟨htimer, -⟩
    · exact hs.freedOff x hold
    · exact htimer
  · intro x hx
    rcases hfreed x hx with hold | ⟨-, hptr⟩
    · exact hs.freedLt x hold
    · rw [hptr]
      exact hs.wf.ptr_lt e he
  · intro x hx y hy
    obtain ⟨hy, hne⟩ := Cache.mem_removeEntries.mp hy
    rcases hfreed x hx with hold | ⟨-, hptr⟩
    · exact hs.freedApart x hold y hy
    · rw [hptr]
      exact hne

/-- A quiet section keeps every cached update. -/
theorem Quiet.survives (hwf : c.WF) (hq : Quiet c t.cache) (a : Action) (he : e ∈ c.entries)
    (hc : e.hasCachedTerminal = true) : Survives a e t := by
  obtain ⟨e', he', hcont⟩ := hq.grows.fwd e he
  have hc' := hcont.cached hc
  rcases hq.same e' he' with ⟨x, hx, hsame⟩ | hno
  · obtain rfl : x = e := eq_of_key_eq hwf.ptrs hx he (hsame.ptr.symm.trans hcont.ptr)
    exact ⟨e', he', hcont.ptr, hc', .inl hsame.update⟩
  · exact absurd hc' (by rw [hno]; exact Bool.false_ne_true)

/-- A send keeps every cached update, or puts its own in the place. -/
theorem SendEffect.survives (hwf : c.WF) (hgrows : Grows true c t.cache)
    (heff : ∀ e' ∈ t.cache.entries, SendEffect c u p e') (a : Action) (he : e ∈ c.entries)
    (hc : e.hasCachedTerminal = true) (hnew : a = .send u ∨ (e.ptr = p.ptr → e.cachedUpdate = u)) :
    Survives a e t := by
  obtain ⟨e', he', hcont⟩ := hgrows.fwd e he
  have hc' := hcont.cached hc
  cases heff e' he' with
  | kept x hx hsame =>
    obtain rfl : x = e := eq_of_key_eq hwf.ptrs hx he (hsame.ptr.symm.trans hcont.ptr)
    exact ⟨e', he', hcont.ptr, hc', .inl hsame.update⟩
  | cached hptr _ hu _ _ =>
    refine ⟨e', he', hcont.ptr, hc', ?_⟩
    rcases hnew with ha | hsame
    · exact .inr (ha.trans (congrArg Action.send hu.symm))
    · exact .inl (hu.trans (hsame (hcont.ptr.symm.trans hptr)).symm)
  | uncached hno => exact absurd hc' (by rw [hno]; exact Bool.false_ne_true)

/-- A removal that its action answers for: the other entries stay. -/
theorem Inv.removes (hs : Inv s) {a : Action} (he : e ∈ s.cache.entries)
    (hfree : ∀ task ∈ s.tasks, task.worksFor e.ptr = false) (hrem : Removes s.cache a e) :
    Inv (s.remove (s.cache.removeEntries e)) ∧
      ∀ x ∈ s.cache.entries, x.hasCachedTerminal = true →
        Survives a x (s.remove (s.cache.removeEntries e)) ∨ Removes s.cache a x := by
  refine ⟨hs.remove he hfree, ?_⟩
  intro x hx hxc
  by_cases hxe : x.ptr = e.ptr
  · obtain rfl : x = e := eq_of_key_eq hs.wf.ptrs hx he hxe
    exact .inr hrem
  · exact .inl ⟨x, Cache.mem_removeEntries.mpr ⟨hx, hxe⟩, rfl, hxc, .inl rfl⟩

/-- A response, with the resend that a version mismatch asks for. -/
theorem Inv.response (hs : Inv s) {payload : ResponsePayload} {accepted : Bool}
    (hcare : Careful s (.response payload accepted))
    (h : step s (.response payload accepted) = some t) :
    Inv t ∧ ∀ e ∈ s.cache.entries, e.hasCachedTerminal = true →
      Survives (.response payload accepted) e t ∨
        Removes s.cache (.response payload accepted) e := by
  rw [Status.step, Option.some.injEq] at h
  cases s.cache.onResponseLocked_effect payload accepted with
  | quiet hq hres =>
    rw [Manager.remove_of_grows hq.grows] at h
    subst h
    refine ⟨hs.add_tasks hq ?_, fun e he hc => .inl (hq.survives hs.wf _ he hc)⟩
    intro task ht
    rw [mismatchResend.eq_def] at ht
    split at ht
    · rename_i e u hans hu
      obtain rfl := List.mem_singleton.mp ht
      refine .of_has rfl ?_
      intro q hqt
      obtain rfl := List.mem_singleton.mp hqt
      obtain ⟨x, hx, hansx, hupd⟩ := hres u hu
      obtain rfl : x = e := Option.some.inj (hansx.symm.trans hans)
      refine Cache.Has.mono hq.grows ⟨x, hx, rfl, ?_⟩
      intro jobId hj
      obtain rfl := Option.some.inj hj
      rw [← hupd]
      rfl
    · exact absurd ht List.not_mem_nil
  | removed e he hrem hc hres =>
    rw [hc, hres] at h
    have hnothing : mismatchResend (s.cache.answered payload) none = [] := by
      cases s.cache.answered payload <;> rfl
    rw [hnothing, List.append_nil] at h
    subst h
    exact hs.removes he (hcare.1 e he hrem) hrem

/-- The start of a resend, over a snapshot of the cached updates. -/
theorem Inv.resend (hs : Inv s) (h : step s .resend = some t) : Inv t ∧ Quiet s.cache t.cache := by
  rw [Status.step, Option.some.injEq] at h
  subst h
  refine ⟨hs.add_tasks (.refl s.cache) ?_, .refl s.cache⟩
  intro task ht
  rw [mem_afterSend ht]
  refine .of_has rfl ?_
  intro q hq
  obtain ⟨copy, hcopy, rfl⟩ := List.mem_map.mp hq
  obtain ⟨e, he, rfl⟩ := List.mem_map.mp hcopy
  have hmem : e ∈ s.cache.entries := (List.mem_filter.mp (List.mem_of_mem_take he)).1
  exact ⟨e, hmem, rfl, fun _ hj => Option.some.inj hj⟩

/-- The clear of a job. -/
theorem Inv.clear (hs : Inv s) (hcare : Careful s (.clear jobId))
    (h : step s (.clear jobId) = some t) :
    Inv t ∧ ∀ e ∈ s.cache.entries, e.hasCachedTerminal = true →
      Survives (.clear jobId) e t ∨ Removes s.cache (.clear jobId) e := by
  rw [Status.step, Option.some.injEq, Cache.clearJobEntries] at h
  have hsame : s.remove s.cache = s := Manager.remove_of_grows (.refl true s.cache)
  split at h
  · rw [hsame] at h
    subst h
    exact ⟨hs, fun e he hc => .inl ((Quiet.refl s.cache).survives hs.wf _ he hc)⟩
  · cases hfind : s.cache.findByJobId jobId with
    | none =>
      rw [hfind] at h
      dsimp only at h
      rw [hsame] at h
      subst h
      exact ⟨hs, fun e he hc => .inl ((Quiet.refl s.cache).survives hs.wf _ he hc)⟩
    | some e =>
      rw [hfind] at h
      subst h
      have he : e ∈ s.cache.entries := List.mem_of_find?_eq_some hfind
      have hrem : Removes s.cache (.clear jobId) e :=
        (sameJobId_iff _ _).mp
          (List.find?_some (p := fun e : JobEntries => sameJobId e.jobId jobId) hfind)
      exact hs.removes he (hcare.1 e he hrem) hrem

/-- One careful step keeps the invariant, and it keeps each cached update or removes its entry. -/
theorem Inv.step {a : Action} (hs : Inv s) (hcare : Careful s a) (h : step s a = some t) :
    Inv t ∧ ∀ e ∈ s.cache.entries, e.hasCachedTerminal = true →
      Survives a e t ∨ Removes s.cache a e := by
  cases a with
  | send u =>
    by_cases hu : u.valid true = true
    · obtain ⟨hinv, hgrows, ⟨p, heff⟩, -⟩ := hs.send hu h
      exact ⟨hinv, fun e he hc =>
        .inl (SendEffect.survives hs.wf hgrows heff _ he hc (.inl rfl))⟩
    · rw [Status.step, if_neg hu, Option.some.injEq] at h
      subst h
      exact ⟨hs, fun e he hc => .inl ((Quiet.refl s.cache).survives hs.wf _ he hc)⟩
  | setVersion jobId version =>
    rw [Status.step, Option.some.injEq] at h
    subst h
    have hq := s.cache.setInitialExpectedVersion_quiet jobId version
    have hinv := hs.add_tasks hq fun task (ht : task ∈ ([] : List Task)) =>
      absurd ht List.not_mem_nil
    rw [List.append_nil] at hinv
    exact ⟨hinv, fun e he hc => .inl (hq.survives hs.wf _ he hc)⟩
  | timer ptr =>
    obtain ⟨hinv, hsurv⟩ := hs.timer h
    exact ⟨hinv, fun e he hc => .inl (hsurv e he hc)⟩
  | advance task published =>
    have ht : task ∈ s.tasks := by
      by_contra hno
      rw [Status.step, if_neg hno] at h
      exact absurd h (by simp)
    by_cases hresend : ∃ copy rest, task = .resend (copy :: rest)
    · obtain ⟨⟨ptr, u⟩, rest, rfl⟩ := hresend
      obtain ⟨hinv, hgrows, p, hptr, heff⟩ := hs.advance_resend ht published h
      refine ⟨hinv, fun e he hc => .inl ?_⟩
      exact SendEffect.survives hs.wf hgrows heff _ he hc
        (.inr fun hep => hcare.2 e he (hep.trans hptr))
    · have hne : ∀ copy rest, task ≠ .resend (copy :: rest) :=
        fun copy rest heq => hresend ⟨copy, rest, heq⟩
      obtain ⟨hinv, hq⟩ := hs.advance_task ht hcare hne h
      exact ⟨hinv, fun e he hc => .inl (hq.survives hs.wf _ he hc)⟩
  | response payload accepted => exact hs.response hcare h
  | resend =>
    obtain ⟨hinv, hq⟩ := hs.resend h
    exact ⟨hinv, fun e he hc => .inl (hq.survives hs.wf _ he hc)⟩
  | clear jobId => exact hs.clear hcare h

/-- **Terminal updates are delivered.** In every run of careful steps the promise of the status
manager is kept in each state. -/
theorem terminals_delivered (h : Reach (· = {}) step Careful s) : Delivers Careful s := by
  have hinv : Inv s := by
    refine h.inv Inv ?_ ?_
    · intro s hs
      exact hs ▸ Inv.initial
    · intro s a t hs hcare ht
      exact (hs.step hcare ht).1
  refine ⟨hinv.held, hinv.nothingLate, ?_, ?_⟩
  · intro a t hcare ht
    exact (hinv.step hcare ht).2
  · intro u t ht hu hterm
    exact (hinv.send hu ht).2.2.2 hterm

/-! ### A late answer -/

/-- The success of a job. -/
def done : StatusUpdate := ⟨⟨['A'], by decide⟩, .succeeded, []⟩

/-- The answer of the service to a terminal update of the first entry. -/
def answer : ResponsePayload := ⟨['1', '1'], [], []⟩

/-- The update is published, the timer publishes it once more, and then the answer comes. -/
def answeredAtRest : List Action :=
  [.send done, .advance (.sendPublish done ⟨0, 1, 1⟩ []) true, .timer 0, .advance (.retry 0) true,
    .advance (.retryPublish 0 ⟨done, 2, 2000, 1⟩) true, .advance (.retryRearm 0 2000) true,
    .response answer true]

/-- The same, but the answer comes between the snapshot of the retry task and its publish. -/
def answeredInRetry : List Action :=
  [.send done, .advance (.sendPublish done ⟨0, 1, 1⟩ []) true, .timer 0, .advance (.retry 0) true,
    .response answer true, .advance (.retryPublish 0 ⟨done, 2, 2000, 1⟩) true,
    .advance (.retryRearm 0 2000) true]

/-- An answer that finds the retry task at rest takes the update out. -/
theorem answeredAtRest_delivered :
    ∃ s, Reach (· = {}) step Careful s ∧ s.cache.entries = [] ∧ s.freed.length = 1 ∧
      Delivers Careful s := by
  have hrun : Reach (· = {}) step Careful _ :=
    Reach.exec answeredAtRest (.start rfl) (by decide) rfl
  exact ⟨_, hrun, rfl, rfl, terminals_delivered hrun⟩

/-- An answer in the middle of a retry does not stop it: the removed update is published again,
and the timer is armed on the freed entry. -/
theorem late_after_removal :
    ∃ s, Reach (· = {}) step (fun _ _ => True) s ∧ s.cache.entries = [] ∧
      s.late = [.rearmed 0, .published done.jobId] ∧
      (s.freed.any fun e => e.timer.isSome) = true ∧ ¬ Delivers (fun _ _ => True) s := by
  refine ⟨_, Reach.exec answeredInRetry (.start rfl) (by decide) rfl, rfl, rfl, rfl, ?_⟩
  intro h
  exact absurd h.nothingLate (List.cons_ne_nil _ _)

end RainMakerNeo.Ota.Status
