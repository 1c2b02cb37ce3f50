import Mathlib.Data.List.Perm.Subperm
import RainMakerNeo.Ota.StatusDelivery

/-!
# `RainMakerNeo.Ota.VersionLedger`: the books of one job's version

`ota_status_send` and the retry task take the version of an entry and count it up under the lock.
They publish without the lock. When the publish fails, they write the version that they took back
into the entry, whatever the version has become in between.

The ledger follows one job through the runs of `StatusInterleaving`. It records the version that
the last resynchronisation set (a new entry starts at 1), the successful publishes since then,
and the versions that were taken since then and not given back, the newest first. It also keeps
the sends whose version was taken before the last resynchronisation. The code keeps none of these
books.

`version_accounted` states when the books agree with the entry: in every run where a send gives
its version back only while it is the last that took one. `overlapping_revert` is a run where an
earlier send gives its version back after a later one was published, and the entry loses the
increment of the later send. The allocator can fail in the first section of a send; elsewhere it
succeeds, as in `StatusInterleaving`.
-/

set_option autoImplicit false

namespace RainMakerNeo.Ota.Status

open RainMakerNeo.Lib

/-! ### The books -/

/-- The version in the entry of a job, `none` without an entry. -/
def Cache.versionOf (c : Cache) (jobId : CStr) : Option Int32 :=
  (c.findByJobId jobId).map JobEntries.version

/-- The job and the version of a send whose outcome is open: the version is taken, and it is
neither published nor given back. -/
def Task.taken : Task → Option (CStr × Int32)
  | .sendPublish u p _ | .sendRevert u p _ => some (u.jobId, p.expectedVersion)
  | .retryPublish _ shot | .retryRevert _ shot => some (shot.update.jobId, shot.expectedVersion)
  | .retry _ | .retryRearm .. | .resend _ => none

/-- The task is an open send for the job. -/
def Task.sends (jobId : CStr) (task : Task) : Bool := task.taken.any fun q => q.1 == jobId

/-- What a step means for the version of the job. -/
inductive Posting
  /-- A send takes the version. -/
  | took
  /-- A send gets an entry and then fails before it takes the version. -/
  | refused
  | published
  /-- A failed publish writes its version back. -/
  | gaveBack (version : Int32)
  /-- The initial version, or the version of a mismatch response. -/
  | resynced (version : Int32)
  deriving DecidableEq

/-- The posting is a resynchronisation. -/
def Posting.resyncs : Posting → Bool
  | .resynced _ => true
  | .took | .refused | .published | .gaveBack _ => false

/-- The entry and the version that a mismatch response sets. -/
def Cache.mismatch (c : Cache) (payload : ResponsePayload) (accepted : Bool) :
    Option (CStr × Int32) :=
  if accepted = false ∧ payload.code = "VersionMismatch".toList then
    (c.answered payload).bind fun e =>
      (strToUint32 payload.versionNumber).map fun v => (e.jobId, v.toInt32)
  else none

/-- What the next section of a task posts for the job. -/
def Cache.taskPosting (c : Cache) (jobId : CStr) (published : Bool) : Task → Option Posting
  | .sendPublish u p _ =>
    if u.jobId = jobId ∧ publishUpdate p.expectedVersion published = .ok then some .published
    else none
  | .retryPublish _ shot =>
    if shot.update.jobId = jobId ∧ publishUpdate shot.expectedVersion published = .ok then
      some .published
    else none
  | .sendRevert u p _ => if u.jobId = jobId then some (.gaveBack p.expectedVersion) else none
  | .retryRevert _ shot =>
    if shot.update.jobId = jobId then some (.gaveBack shot.expectedVersion) else none
  | .retry ptr =>
    -- On freed memory the retry task counts up a version that no entry has any more.
    if c.entries.any fun e => e.ptr == ptr && e.jobId == jobId && e.hasCachedTerminal then
      some .took
    else none
  | .resend ((_, u) :: _) => if validJobId u.jobId ∧ u.jobId = jobId then some .took else none
  | .resend [] | .retryRearm .. => none

/-- What a step posts for the job. -/
def Cache.posting (c : Cache) (jobId : CStr) : Action → Option Posting
  | .send u => if u.valid true ∧ u.jobId = jobId then some .took else none
  | .setVersion j version => if validJobId j ∧ j = jobId then some (.resynced version) else none
  | .advance task published => c.taskPosting jobId published task
  | .response payload accepted =>
    match c.mismatch payload accepted with
    | some (j, version) => if j = jobId then some (.resynced version) else none
    | none => none
  | .timer _ | .resend | .clear _ => none

/-- The account of the job since its last resynchronisation. `standing` are the versions that
were taken and not given back, the newest first. -/
structure Account where
  base : Int32 := 1
  published : Nat := 0
  standing : List Int32 := []
  deriving DecidableEq

/-- A job without an entry gets a new one, and with it a new account. -/
def Account.forEntry (a : Account) (version : Option Int32) : Account :=
  if version.isSome then a else {}

/-- The account after a posting. `version` is the version of the entry before it. -/
def Account.post (a : Account) (version : Option Int32) : Posting → Account
  | .took =>
    { a.forEntry version with standing := version.getD 1 :: (a.forEntry version).standing }
  | .refused => a.forEntry version
  | .published => { a with published := a.published + 1 }
  | .gaveBack _ => { a.forEntry version with standing := (a.forEntry version).standing.tail }
  | .resynced v => { base := v }

/-- The account after a step that posts something or nothing. -/
def Account.after (a : Account) (version : Option Int32) : Option Posting → Account
  | some p => a.post version p
  | none => a

/-- The status manager with the account of one job. `overtaken` are the open sends of the job
that took their version before the last resynchronisation, or before the entry was removed. -/
structure Ledger where
  manager : Manager := {}
  account : Account := {}
  overtaken : List Task := []
  deriving DecidableEq

/-- What happens next: a step of the status manager, or a send that fails in its first section. -/
inductive LedgerEvent
  | act (a : Action)
  | refused (u : StatusUpdate) (env : StatusEnv)

namespace Ledger

/-- The version in the entry of the job. -/
def version (jobId : CStr) (s : Ledger) : Option Int32 := s.manager.cache.versionOf jobId

/-- An open send of the job that took its version since the last resynchronisation. Of equal
sends, the overtaken ones come last. -/
def Current (jobId : CStr) (s : Ledger) (task : Task) : Prop :=
  task.sends jobId = true ∧ s.overtaken.count task < s.manager.tasks.count task

instance (jobId : CStr) (s : Ledger) (task : Task) : Decidable (s.Current jobId task) := by
  unfold Current
  infer_instance

/-- The overtaken sends after a section of a task. `cont` is what is left of the task. A retry on
freed memory is overtaken from the start. -/
def overtakenAfter (jobId : CStr) (s : Ledger) (task : Task) (cont : List Task)
    (posting : Option Posting) : List Task :=
  if s.Current jobId task then s.overtaken
  else s.overtaken.erase task ++
    if posting = some .took then [] else cont.filter (Task.sends jobId)

/-- The overtaken sends after a step to `m`. A resynchronisation and a removal overtake all open
sends of the job. -/
def overtakenBy (jobId : CStr) (s : Ledger) (m : Manager) (posting : Option Posting) :
    Action → List Task
  | .advance task published =>
    let cont := ({ s.manager with tasks := s.manager.tasks.erase task } : Manager).runTask
      published task
    if m.cache.versionOf jobId = none then m.tasks.filter (Task.sends jobId)
    else s.overtakenAfter jobId task cont.2 posting
  | _ =>
    if m.cache.versionOf jobId = none ∨ posting.any Posting.resyncs then
      m.tasks.filter (Task.sends jobId)
    else s.overtaken

/-- The ledger after a step of the status manager to `m`. -/
def record (jobId : CStr) (s : Ledger) (a : Action) (m : Manager) : Ledger where
  manager := m
  account := s.account.after (s.version jobId) (s.manager.cache.posting jobId a)
  overtaken := s.overtakenBy jobId m (s.manager.cache.posting jobId a) a

/-- One step of the status manager and its entry in the books. -/
def step (jobId : CStr) (s : Ledger) : LedgerEvent → Option Ledger
  | .act a => (Status.step s.manager a).map (s.record jobId a)
  | .refused u env =>
    let r := s.manager.cache.sendPrepare u env
    if u.valid env.detailsValid ∧ r.1 ≠ .ok then
      some { s with
        manager := { s.manager with cache := r.2.1 }
        account := if (r.2.1.versionOf jobId).isSome then
            s.account.post (s.version jobId) .refused
          else s.account }
    else none

/-- The open sends of the job. -/
def openSends (jobId : CStr) (s : Ledger) : Nat := s.manager.tasks.countP (Task.sends jobId)

/-- The open sends of the job that took their version since the last resynchronisation. -/
def pending (jobId : CStr) (s : Ledger) : Nat :=
  s.openSends jobId - s.overtaken.countP (Task.sends jobId)

end Ledger

/-- A send publishes only when no resynchronisation has overtaken it, or the entry is gone. A
send gives its version back only while the entry is there and it is the last send that took a
version and did not give it back. -/
def Ordered (jobId : CStr) (s : Ledger) : LedgerEvent → Prop
  | .act (.advance task published) =>
    match s.manager.cache.taskPosting jobId published task with
    | some .published => (s.version jobId).isSome = true → s.Current jobId task
    | some (.gaveBack v) =>
      (s.version jobId).isSome = true ∧ s.Current jobId task ∧
        s.account.standing.head? = some v
    | _ => True
  | _ => True

instance (jobId : CStr) (s : Ledger) (e : LedgerEvent) : Decidable (Ordered jobId s e) := by
  unfold Ordered
  split
  · split <;> infer_instance
  · infer_instance

/-- The version of the job agrees with the books: it is the version of the last resynchronisation
plus the successful publishes since, plus one for each open send. A send that gives its version
back takes its own increment out and no other. -/
structure Accounted (jobId : CStr) (s : Ledger) : Prop where
  balance : ∀ v, s.version jobId = some v →
    v = s.account.base + Int32.ofNat (s.account.published + s.pending jobId)
  atRest : ∀ v, s.version jobId = some v → s.openSends jobId = 0 →
    v = s.account.base + Int32.ofNat s.account.published
  reverts : ∀ task published w t v, Ordered jobId s (.act (.advance task published)) →
    s.manager.cache.taskPosting jobId published task = some (.gaveBack w) →
    s.step jobId (.act (.advance task published)) = some t → s.version jobId = some v →
    t.version jobId = some (v - 1)

/-! ### The version of a job -/

/-- The job ids and the versions along the list give the version of each job. -/
theorem Cache.versionOf_eq (c : Cache) (jobId : CStr) : c.versionOf jobId =
    ((c.entries.map fun e => (e.jobId, e.version)).find? fun q => sameJobId q.1 jobId).map
      Prod.snd := by
  rw [List.find?_map, Option.map_map]
  rfl

variable {c : Cache} {jobId : CStr} {e : JobEntries} {s : Ledger} {a : Action} {task : Task}
  {published : Bool}

variable {c' : Cache} {f : JobEntries → JobEntries} {payload : ResponsePayload}

/-- What keeps the job ids and the versions keeps the version of each job. -/
theorem Cache.versionOf_congr
    (h : (c'.entries.map fun e => (e.jobId, e.version)) =
      c.entries.map fun e => (e.jobId, e.version)) (jobId : CStr) :
    c'.versionOf jobId = c.versionOf jobId := by
  rw [Cache.versionOf_eq, Cache.versionOf_eq, h]

theorem Cache.update_versionOf (c : Cache) (ptr : Nat) (hid : ∀ e, (f e).jobId = e.jobId)
    (hversion : ∀ e, (f e).version = e.version) (jobId : CStr) :
    (c.update ptr f).versionOf jobId = c.versionOf jobId :=
  Cache.versionOf_congr (map_modifyKey _ fun e => by rw [hid, hversion]) jobId

theorem Cache.versionOf_eq_none : c.versionOf jobId = none ↔ ∀ e ∈ c.entries, e.jobId ≠ jobId := by
  rw [Cache.versionOf, Option.map_eq_none_iff, Cache.findByJobId, List.find?_eq_none]
  simp only [sameJobId_iff, ne_eq]

theorem Cache.findByJobId_some (h : c.findByJobId jobId = some e) :
    e ∈ c.entries ∧ e.jobId = jobId := by
  have hid := List.find?_some (p := fun e : JobEntries => sameJobId e.jobId jobId) h
  exact ⟨List.mem_of_find?_eq_some h, (sameJobId_iff _ _).mp hid⟩

/-- With distinct job ids, an entry of the job gives its version. -/
theorem Cache.versionOf_of_mem (hids : (c.entries.map JobEntries.jobId).Nodup)
    (he : e ∈ c.entries) : c.versionOf e.jobId = some e.version := by
  cases hfind : c.findByJobId e.jobId with
  | none =>
    have hnone := List.find?_eq_none.mp hfind e he
    rw [sameJobId_iff] at hnone
    exact absurd rfl hnone
  | some x =>
    obtain ⟨hx, hid⟩ := Cache.findByJobId_some hfind
    have hxe : x = e := eq_of_key_eq hids hx he hid
    rw [Cache.versionOf, hfind, hxe]
    rfl

theorem Cache.exists_of_versionOf {v : Int32} (h : c.versionOf jobId = some v) :
    ∃ e ∈ c.entries, e.jobId = jobId ∧ e.version = v := by
  obtain ⟨e, hfind, hv⟩ := Option.map_eq_some_iff.mp h
  obtain ⟨he, hid⟩ := Cache.findByJobId_some hfind
  exact ⟨e, he, hid, hv⟩

/-- A write through the pointer to an entry changes the version of its job at most. -/
theorem Cache.write_versionOf (hwf : c.WF) (he : e ∈ c.entries) (hid : ∀ e, (f e).jobId = e.jobId)
    (jobId : CStr) :
    (c.update e.ptr f).versionOf jobId =
      if e.jobId = jobId then some (f e).version else c.versionOf jobId := by
  have hids : ((c.update e.ptr f).entries.map JobEntries.jobId).Nodup := by
    show ((modifyKey _ _ _ _).map _).Nodup
    rw [map_modifyKey _ hid]
    exact hwf.ids
  split
  · rename_i heq
    have hmem : f e ∈ (c.update e.ptr f).entries := mem_modifyKey_self he rfl
    have hsome := Cache.versionOf_of_mem hids hmem
    rwa [hid, heq] at hsome
  · rename_i hne
    -- The written entry belongs to another job. Job ids are distinct, so the entry of this job is
    -- behind another address and the write misses it.
    cases hv : c.versionOf jobId with
    | none =>
      rw [Cache.versionOf_eq_none] at hv ⊢
      intro x' hx'
      obtain ⟨x, hx, heq⟩ := mem_modifyKey.mp hx'
      have hxid := hv x hx
      split at heq
      · rwa [← heq, hid]
      · rwa [← heq]
    | some v =>
      obtain ⟨x, hx, hxid, hxv⟩ := Cache.exists_of_versionOf hv
      have hptr : x.ptr ≠ e.ptr := by
        intro hp
        have hxe : x = e := eq_of_key_eq hwf.ptrs hx he hp
        exact hne (hxe ▸ hxid)
      have hmem : x ∈ (c.update e.ptr f).entries := mem_modifyKey_of_ne hx hptr
      rw [← hxid, ← hxv]
      exact Cache.versionOf_of_mem hids hmem

/-- Setting the version of an entry. -/
theorem Cache.setVersion_versionOf (hwf : c.WF) (he : e ∈ c.entries) (g : JobEntries → Int32)
    (jobId : CStr) :
    (c.update e.ptr fun e => { e with version := g e }).versionOf jobId =
      if e.jobId = jobId then some (g e) else c.versionOf jobId := by
  refine Cache.write_versionOf hwf he ?_ jobId
  intro e
  rfl

/-- A removal takes the version of one job out. -/
theorem Cache.removeEntries_versionOf (hwf : c.WF) (he : e ∈ c.entries) (jobId : CStr) :
    (c.removeEntries e).versionOf jobId =
      if e.jobId = jobId then none else c.versionOf jobId := by
  have hids := (Cache.removeEntries_wf hwf he).ids
  split
  · rename_i heq
    rw [Cache.versionOf_eq_none]
    intro x hx hxid
    obtain ⟨hx, hptr⟩ := Cache.mem_removeEntries.mp hx
    have hxe : x = e := eq_of_key_eq hwf.ids hx he (hxid.trans heq.symm)
    exact hptr (congrArg JobEntries.ptr hxe)
  · rename_i hne
    -- An entry of another job has another address, and the removal goes by the address.
    cases hv : c.versionOf jobId with
    | none =>
      rw [Cache.versionOf_eq_none] at hv ⊢
      intro x hx
      exact hv x (Cache.mem_removeEntries.mp hx).1
    | some v =>
      obtain ⟨x, hx, hxid, hxv⟩ := Cache.exists_of_versionOf hv
      have hptr : x.ptr ≠ e.ptr := by
        intro hp
        have hxe : x = e := eq_of_key_eq hwf.ptrs hx he hp
        exact hne (hxe ▸ hxid)
      rw [← hxid, ← hxv]
      exact Cache.versionOf_of_mem hids (Cache.mem_removeEntries.mpr ⟨hx, hptr⟩)

/-- A new entry has the version 1, and no other job's version changes. -/
theorem Gets.versionOf (h : Gets c jobId e c') (hwf : c.WF) :
    e.version = (c.versionOf jobId).getD 1 ∧
      c'.versionOf jobId = some e.version ∧
      ∀ j, j ≠ jobId → c'.versionOf j = c.versionOf j := by
  have hmem := Cache.versionOf_of_mem (h.grows.wf hwf).ids h.mem
  rw [h.jobId_eq] at hmem
  cases h with
  | found he hid =>
    rw [hmem]
    exact ⟨rfl, rfl, fun _ _ => rfl⟩
  | created hid he =>
    have hnone : c.versionOf jobId = none := by rw [Cache.versionOf, hid]; rfl
    refine ⟨?_, hmem, ?_⟩
    · rw [hnone, he]
      rfl
    · intro j hj
      -- The new entry is the last of the list and has another id, so the search does not stop at
      -- it.
      have hdiff : sameJobId jobId j = false := by
        rw [← Bool.not_eq_true, sameJobId_iff]
        exact hj.symm
      rw [Cache.versionOf_eq, Cache.versionOf_eq]
      show Option.map Prod.snd (List.find? _ (List.map _ (c.entries ++ [c.newEntry jobId]))) = _
      rw [List.map_append, List.find?_append, List.map_singleton]
      have hlast : [((c.newEntry jobId).jobId, (c.newEntry jobId).version)].find?
          (fun q => sameJobId q.1 j) = none := by
        rw [List.find?_singleton]
        exact if_neg (by rw [show (c.newEntry jobId).jobId = jobId from rfl, hdiff]; nofun)
      rw [hlast, Option.or_none]

/-- Caching a terminal update leaves the versions alone, whatever fails inside. -/
theorem Cache.cacheIfTerminal_versionOf (c : Cache) (e : JobEntries) (u : StatusUpdate)
    (env : StatusEnv) (jobId : CStr) :
    (c.cacheIfTerminal e u env).2.versionOf jobId = c.versionOf jobId := by
  rw [Cache.cacheIfTerminal]
  split
  · rw [Cache.setCachedTerminal]
    split
    · refine c.update_versionOf e.ptr ?_ ?_ jobId
      · intro e
        rfl
      · intro e
        rfl
    · rw [Cache.scheduleOrResetRetry]
      have hcached : (c.update e.ptr (JobEntries.cacheTerminal u e.version)).versionOf jobId =
          c.versionOf jobId := by
        refine c.update_versionOf e.ptr ?_ ?_ jobId
        · intro e
          rfl
        · intro e
          rfl
      split
      · refine Eq.trans (Cache.update_versionOf _ e.ptr ?_ ?_ jobId) hcached
        · intro e
          rfl
        · intro e
          rfl
      · exact hcached
  · rfl

theorem Cache.getOrCreate_error {allocated : Bool} {err : EspError}
    (h : c.getOrCreate jobId allocated = .error err) : err ≠ .ok := by
  rw [Cache.getOrCreate] at h
  intro herr
  subst herr
  split at h
  · split at h
    · exact absurd h (by simp)
    · split at h
      · exact absurd h (by simp)
      · exact absurd h (by simp)
  · exact absurd h (by simp)

theorem Cache.getOrCreate_ok {allocated : Bool} (h : c.getOrCreate jobId allocated = .ok (e, c')) :
    validJobId jobId = true ∧ Gets c jobId e c' := by
  constructor
  · by_cases hvalid : validJobId jobId = true
    · exact hvalid
    · rw [Cache.getOrCreate, if_neg hvalid] at h
      exact absurd h (by simp)
  · rcases c.getOrCreate_cases jobId allocated with ⟨err, heq⟩ | ⟨x, c₁, heq, hget⟩
    · exact absurd (h.symm.trans heq) (by simp)
    · obtain ⟨rfl, rfl⟩ := Prod.mk.inj (Except.ok.inj (h.symm.trans heq))
      exact hget

/-- The first section of a send takes the version of its job and counts it up. When it fails, a
version that was there is still the same. -/
theorem Cache.sendPrepare_versionOf (hwf : c.WF) (u : StatusUpdate) (env : StatusEnv) :
    (∀ j, j ≠ u.jobId → (c.sendPrepare u env).2.1.versionOf j = c.versionOf j) ∧
      ((c.sendPrepare u env).1 = .ok ∧ validJobId u.jobId = true ∧
          (c.sendPrepare u env).2.2.expectedVersion = (c.versionOf u.jobId).getD 1 ∧
          (c.sendPrepare u env).2.1.versionOf u.jobId = some ((c.versionOf u.jobId).getD 1 + 1) ∨
        (c.sendPrepare u env).1 ≠ .ok ∧
          ((c.sendPrepare u env).2.1.versionOf u.jobId = c.versionOf u.jobId ∨
            validJobId u.jobId = true ∧
              (c.sendPrepare u env).2.1.versionOf u.jobId =
                some ((c.versionOf u.jobId).getD 1))) := by
  cases hgot : c.getOrCreate u.jobId env.entryAllocated with
  | error err =>
    have hr : c.sendPrepare u env = (err, c, ⟨0, 0, 0⟩) := by rw [Cache.sendPrepare, hgot]
    rw [hr]
    exact ⟨fun _ _ => rfl, .inr ⟨Cache.getOrCreate_error hgot, .inl rfl⟩⟩
  | ok got =>
    obtain ⟨e, c₁⟩ := got
    obtain ⟨hvalid, hget⟩ := Cache.getOrCreate_ok hgot
    obtain ⟨hold, hnew, hothers⟩ := hget.versionOf hwf
    have hcached := c₁.cacheIfTerminal_versionOf e u env
    have hgrows := c₁.cacheIfTerminal_grows hget.mem u env
    have hwf₂ := hgrows.wf (hget.grows.wf hwf)
    by_cases hok : (c₁.cacheIfTerminal e u env).1 = .ok
    · have hr : c.sendPrepare u env = (.ok, (c₁.cacheIfTerminal e u env).2.update e.ptr
          (fun e => { e with version := e.version + 1 }), ⟨e.ptr, e.version, e.jobIdInt⟩) := by
        rw [Cache.sendPrepare, hgot]
        exact if_pos hok
      rw [hr]
      dsimp only
      -- The entry is still behind its address, with the version that it had.
      obtain ⟨x, hx, hcont⟩ := hgrows.fwd e hget.mem
      have hxid : x.jobId = u.jobId := hcont.jobId.trans hget.jobId_eq
      have hxv : x.version = e.version := by
        have hxsome := Cache.versionOf_of_mem hwf₂.ids hx
        rw [hcached, hxid, hnew] at hxsome
        exact (Option.some.inj hxsome).symm
      have hcount : ∀ j, ((c₁.cacheIfTerminal e u env).2.update e.ptr fun e =>
          { e with version := e.version + 1 }).versionOf j = if u.jobId = j then
            some (e.version + 1) else (c₁.cacheIfTerminal e u env).2.versionOf j := by
        intro j
        rw [← hcont.ptr, Cache.setVersion_versionOf hwf₂ hx fun e => e.version + 1, hxid, hxv]
      constructor
      · intro j hj
        rw [hcount, if_neg (Ne.symm hj), hcached, hothers j hj]
      · refine .inl ⟨rfl, hvalid, hold, ?_⟩
        rw [hcount, if_pos rfl, hold]
    -- The terminal update could not be cached: the section fails before it counts up, and the entry
    -- that was found or made stays.
    · have hr : c.sendPrepare u env = ((c₁.cacheIfTerminal e u env).1,
          (c₁.cacheIfTerminal e u env).2, ⟨e.ptr, e.version, e.jobIdInt⟩) := by
        rw [Cache.sendPrepare, hgot]
        exact if_neg hok
      rw [hr]
      dsimp only
      constructor
      · intro j hj
        rw [hcached, hothers j hj]
      · refine .inr ⟨hok, .inr ⟨hvalid, ?_⟩⟩
        rw [hcached, hnew, hold]

/-- Overwriting the version of a job. -/
theorem Cache.overwriteVersion_versionOf (hwf : c.WF) (hvalid : validJobId jobId = true)
    (version : Int32) (j : CStr) :
    (c.overwriteVersion jobId version true).2.versionOf j =
      if jobId = j then some version else c.versionOf j := by
  have hlen : jobId.length ≠ 0 := by
    simp only [validJobId, Bool.and_eq_true, decide_eq_true_eq] at hvalid
    omega
  rcases c.getOrCreate_cases jobId true with ⟨err, heq⟩ | ⟨e, c', heq, hget⟩
  · rw [Cache.getOrCreate, if_pos hvalid] at heq
    -- With a valid id and an allocator that succeeds, there is always an entry to write to.
    cases hfind : c.findByJobId jobId <;> simp [hfind] at heq
  · rw [Cache.overwriteVersion, if_neg hlen, heq]
    dsimp only
    rw [Cache.setVersion_versionOf (hget.grows.wf hwf) hget.mem fun _ => version, hget.jobId_eq]
    split
    · rfl
    · rename_i hne
      exact (hget.versionOf hwf).2.2 j (Ne.symm hne)

/-- Without a valid job id nothing is overwritten. -/
theorem Cache.overwriteVersion_of_not_valid (c : Cache) (hvalid : validJobId jobId ≠ true)
    (version : Int32) : (c.overwriteVersion jobId version true).2 = c := by
  rw [Cache.overwriteVersion]
  split
  · rfl
  · rw [Cache.getOrCreate, if_neg hvalid]

/-! ### What a step does to the version -/

/-- The job has an entry, or it may get one. -/
def Cache.Admits (c : Cache) (jobId : CStr) : Prop :=
  validJobId jobId = true ∨ (c.versionOf jobId).isSome = true

/-- The version of the job after a step, given what the step posts. Without a posting the version
stays, or the entry is removed. -/
def Posts (c c' : Cache) (jobId : CStr) : Option Posting → Prop
  | none => c'.versionOf jobId = c.versionOf jobId ∨ c'.versionOf jobId = none
  | some .took => c.Admits jobId ∧ c'.versionOf jobId = some ((c.versionOf jobId).getD 1 + 1)
  | some .refused => c.Admits jobId ∧ c'.versionOf jobId = some ((c.versionOf jobId).getD 1)
  | some .published => c'.versionOf jobId = c.versionOf jobId
  | some (.gaveBack v) => validJobId jobId = true → c'.versionOf jobId = some v
  | some (.resynced v) => c.Admits jobId ∧ c'.versionOf jobId = some v

@[simp] theorem Manager.note_cache (s : Manager) (ptr : Nat) (act : Late) :
    (s.note ptr act).cache = s.cache := by
  rw [Manager.note]
  split <;> rfl

/-- A send that starts with an allocator and a scheduler that succeed takes the version. -/
theorem Cache.sendPrepare_posts (hwf : c.WF) {u : StatusUpdate} (hu : validJobId u.jobId = true)
    (jobId : CStr) :
    Posts c (c.sendPrepare u {}).2.1 jobId (if u.jobId = jobId then some .took else none) := by
  obtain ⟨hothers, hout⟩ := Cache.sendPrepare_versionOf hwf u {}
  obtain ⟨e, c₁, c₂, -, hok, -⟩ := c.sendPrepare_eq hu
  split
  · rename_i hid
    subst hid
    rcases hout with ⟨-, hvalid, -, hnew⟩ | ⟨hne, -⟩
    · exact ⟨.inl hvalid, hnew⟩
    · exact absurd (congrArg Prod.fst hok) hne
  · rename_i hid
    exact .inl (hothers jobId (Ne.symm hid))

/-- A revert writes its version back. -/
theorem Manager.revert_posts {s : Manager} (hwf : s.cache.WF) (k : CStr) (version : Int32)
    (jobId : CStr) : Posts s.cache (s.revert k version).cache jobId
      (if k = jobId then some (.gaveBack version) else none) := by
  show Posts s.cache (s.cache.overwriteVersion k version true).2 jobId _
  split
  · rename_i hk
    subst hk
    intro hvalid
    rw [Cache.overwriteVersion_versionOf hwf hvalid, if_pos rfl]
  · rename_i hk
    by_cases hvalid : validJobId k = true
    · rw [Posts, Cache.overwriteVersion_versionOf hwf hvalid, if_neg hk]
      exact .inl rfl
    · rw [Cache.overwriteVersion_of_not_valid _ hvalid]
      exact .inl rfl

/-- The critical section of the retry task takes the version when the entry is still there. -/
theorem Manager.retry_posts {s : Manager} (hwf : s.cache.WF) (ptr : Nat) (published : Bool)
    (jobId : CStr) : (s.runTask published (.retry ptr)).1.cache.WF ∧
      Posts s.cache (s.runTask published (.retry ptr)).1.cache jobId
        (s.cache.taskPosting jobId published (.retry ptr)) := by
  by_cases hlive : ∃ e ∈ s.cache.entries, e.ptr = ptr
  · obtain ⟨e₀, he₀, hptr₀⟩ := hlive
    obtain ⟨e, he, hptr, hderef⟩ :=
      Manager.deref_of_has (s := s) (q := (ptr, none)) ⟨e₀, he₀, hptr₀, nofun⟩
    dsimp only at hptr hderef
    have hany : (s.cache.entries.any fun x =>
        x.ptr == ptr && x.jobId == jobId && x.hasCachedTerminal) =
          decide (e.jobId = jobId ∧ e.hasCachedTerminal = true) := by
      rw [Bool.eq_iff_iff, List.any_eq_true, decide_eq_true_eq]
      constructor
      · rintro ⟨x, hx, hcond⟩
        simp only [Bool.and_eq_true, beq_iff_eq] at hcond
        have hxe : x = e := eq_of_key_eq hwf.ptrs hx he (hcond.1.1.trans hptr.symm)
        subst hxe
        exact ⟨hcond.1.2, hcond.2⟩
      · intro hcond
        refine ⟨e, he, ?_⟩
        simp only [Bool.and_eq_true, beq_iff_eq]
        exact ⟨⟨hptr, hcond.1⟩, hcond.2⟩
    rw [Cache.taskPosting, hany, Manager.runTask, hderef, Option.bind_some, JobEntries.retryShot]
    by_cases hcached : e.hasCachedTerminal = true
    · rw [if_pos hcached]
      dsimp only
      show (s.cache.update ptr JobEntries.retried).WF ∧
        Posts s.cache (s.cache.update ptr JobEntries.retried) jobId _
      rw [← hptr]
      have hgrows : Grows true s.cache (s.cache.update e.ptr JobEntries.retried) :=
        s.cache.update_grows e.ptr (fun _ => ⟨rfl, rfl, rfl, id, fun _ => id⟩) fun _ => rfl
      have hwrite := Cache.write_versionOf hwf he (f := JobEntries.retried) (fun _ => rfl) jobId
      refine ⟨hgrows.wf hwf, ?_⟩
      by_cases hid : e.jobId = jobId
      · have hversion := Cache.versionOf_of_mem hwf.ids he
        rw [hid] at hversion
        rw [decide_eq_true ⟨hid, hcached⟩, if_pos rfl]
        refine ⟨.inr (by rw [hversion]; rfl), ?_⟩
        rw [hwrite, if_pos hid, hversion]
        rfl
      · rw [decide_eq_false fun h => hid h.1]
        exact .inl (hwrite.trans (if_neg hid))
    · rw [if_neg hcached, decide_eq_false fun h => hcached h.2]
      exact ⟨hwf, .inl rfl⟩
  -- The entry was freed. Its memory is read and written, but no entry of the cache is behind the
  -- address, so no version changes.
  · have hnone : (s.cache.entries.any fun x =>
        x.ptr == ptr && x.jobId == jobId && x.hasCachedTerminal) = false := by
      rw [List.any_eq_false]
      intro x hx hcond
      simp only [Bool.and_eq_true, beq_iff_eq] at hcond
      exact hlive ⟨x, hx, hcond.1.1⟩
    have hsame : ∀ f, s.cache.update ptr f = s.cache := by
      intro f
      rw [Cache.update, modifyKey_of_forall_ne fun x hx heq => hlive ⟨x, hx, heq⟩]
    rw [Cache.taskPosting, hnone, Manager.runTask]
    split
    · exact ⟨hwf, .inl rfl⟩
    · show (s.cache.update ptr JobEntries.retried).WF ∧
        Posts s.cache (s.cache.update ptr JobEntries.retried) jobId none
      rw [hsame]
      exact ⟨hwf, .inl rfl⟩

/-- A section of a task keeps the shape of the cache and does what it posts. -/
theorem Manager.runTask_posts {s : Manager} (hwf : s.cache.WF) (published : Bool) (task : Task)
    (jobId : CStr) : (s.runTask published task).1.cache.WF ∧
      Posts s.cache (s.runTask published task).1.cache jobId
        (s.cache.taskPosting jobId published task) := by
  cases task with
  | sendPublish u p rest =>
    rw [Manager.runTask, Cache.taskPosting]
    by_cases hok : publishUpdate p.expectedVersion published = .ok
    · have hcache : (if isTerminal u.status = true then s.note p.ptr (.published u.jobId)
          else s).cache = s.cache := by
        split
        · exact Manager.note_cache s _ _
        · rfl
      rw [if_pos hok, hcache]
      refine ⟨hwf, ?_⟩
      split
      · rfl
      · exact .inl rfl
    · rw [if_neg hok, if_neg fun h => hok h.2]
      exact ⟨hwf, .inl rfl⟩
  | sendRevert u p rest =>
    exact ⟨(Cache.overwriteVersion_grows _ _ _ true).wf hwf,
      Manager.revert_posts hwf u.jobId p.expectedVersion jobId⟩
  | retry ptr => exact Manager.retry_posts hwf ptr published jobId
  | retryPublish ptr shot =>
    rw [Manager.runTask, Cache.taskPosting]
    by_cases hok : publishUpdate shot.expectedVersion published = .ok
    · rw [if_pos hok, Manager.note_cache]
      refine ⟨hwf, ?_⟩
      split
      · rfl
      · exact .inl rfl
    · rw [if_neg hok, if_neg fun h => hok h.2]
      exact ⟨hwf, .inl rfl⟩
  | retryRevert ptr shot =>
    exact ⟨(Cache.overwriteVersion_grows _ _ _ true).wf hwf,
      Manager.revert_posts hwf shot.update.jobId shot.expectedVersion jobId⟩
  | retryRearm ptr delayMs =>
    show ((s.note ptr (.rearmed ptr)).cache.update ptr _).WF ∧
      Posts s.cache ((s.note ptr (.rearmed ptr)).cache.update ptr _) jobId none
    rw [Manager.note_cache]
    refine ⟨(s.cache.arm_quiet ptr delayMs).grows.wf hwf, .inl ?_⟩
    refine s.cache.update_versionOf ptr ?_ ?_ jobId
    · intro e
      rfl
    · intro e
      rfl
  | resend snapshot =>
    cases snapshot with
    | nil => exact ⟨hwf, .inl rfl⟩
    | cons copy rest =>
      obtain ⟨ptr, u⟩ := copy
      have hgrows := s.cache.sendPrepare_grows u {}
      rw [Cache.taskPosting]
      by_cases hu : validJobId u.jobId = true
      · obtain ⟨e, c₁, c₂, -, hok, -⟩ := s.cache.sendPrepare_eq hu
        have hposts := Cache.sendPrepare_posts hwf hu jobId
        rw [hok] at hgrows hposts
        rw [Manager.runTask, hok]
        refine ⟨hgrows.wf hwf, ?_⟩
        by_cases hid : u.jobId = jobId
        · rw [if_pos ⟨hu, hid⟩]
          rwa [if_pos hid] at hposts
        · rw [if_neg fun h => hid h.2]
          rwa [if_neg hid] at hposts
      -- A copy without a valid id is refused before the cache is touched.
      · have hr : s.cache.sendPrepare u {} = (.invalidArg, s.cache, ⟨0, 0, 0⟩) := by
          rw [Cache.sendPrepare, Cache.getOrCreate, if_neg hu]
        rw [Manager.runTask, hr, if_neg fun h => hu h.1]
        exact ⟨hwf, .inl rfl⟩

/-- A response that sets no version posts nothing. -/
theorem Cache.posting_of_no_mismatch {accepted : Bool} (h : c.mismatch payload accepted = none)
    (jobId : CStr) : c.posting jobId (.response payload accepted) = none := by
  rw [Cache.posting, h]

theorem Cache.mismatch_of_unanswered (h : c.answered payload = none) (accepted : Bool) :
    c.mismatch payload accepted = none := by
  rw [Cache.mismatch, h, Option.bind_none, ite_self]

/-- The critical section of a response resynchronises the version, leaves it, or removes the
entry. -/
theorem Cache.onResponseLocked_posts (hwf : c.WF) (payload : ResponsePayload) (accepted : Bool)
    (jobId : CStr) :
    (c.onResponseLocked payload accepted {}).cache.WF ∧
      Posts c (c.onResponseLocked payload accepted {}).cache jobId
        (c.posting jobId (.response payload accepted)) := by
  have hnothing : c.WF ∧ Posts c c jobId none := ⟨hwf, .inl rfl⟩
  rw [Cache.onResponseLocked]
  cases htoken : readToken payload.clientToken with
  | none =>
    have hans : c.answered payload = none := by rw [Cache.answered, htoken, Option.bind_none]
    rw [Cache.posting_of_no_mismatch (Cache.mismatch_of_unanswered hans accepted)]
    exact hnothing
  | some token =>
    obtain ⟨terminal, jobIdInt⟩ := token
    dsimp only
    cases hfind : c.findByInt jobIdInt with
    | none =>
      have hans : c.answered payload = none := by
        rw [Cache.answered, htoken]
        exact hfind
      rw [Cache.posting_of_no_mismatch (Cache.mismatch_of_unanswered hans accepted)]
      exact hnothing
    | some e =>
      have he : e ∈ c.entries := List.mem_of_find?_eq_some hfind
      have hans : c.answered payload = some e := by
        rw [Cache.answered, htoken]
        exact hfind
      have hremoved : (c.removeEntries e).WF ∧ Posts c (c.removeEntries e) jobId none := by
        refine ⟨Cache.removeEntries_wf hwf he, ?_⟩
        rw [Posts, Cache.removeEntries_versionOf hwf he]
        split
        · exact .inr rfl
        · exact .inl rfl
      by_cases hmismatch : accepted = false ∧ payload.code = "VersionMismatch".toList
      -- The only response that sets a version. An unreadable version number leaves the old one.
      · have hset : c.mismatch payload accepted =
            (strToUint32 payload.versionNumber).map fun v => (e.jobId, v.toInt32) := by
          rw [Cache.mismatch, if_pos hmismatch, hans, Option.bind_some]
        obtain ⟨rfl, hcode⟩ := hmismatch
        have hnonempty : payload.code ≠ [] := by
          rw [hcode]
          decide
        dsimp only
        rw [if_neg Bool.false_ne_true, Cache.onReject, if_neg hnonempty, if_pos hcode,
          Cache.posting, hset]
        cases strToUint32 payload.versionNumber with
        | none => exact hnothing
        | some version =>
          rw [Option.map_some]
          dsimp only
          refine ⟨(c.setVersion_grows e.ptr fun _ => version.toInt32).wf hwf, ?_⟩
          have hwrite := Cache.setVersion_versionOf hwf he (fun _ => version.toInt32) jobId
          by_cases hid : e.jobId = jobId
          · have hversion := Cache.versionOf_of_mem hwf.ids he
            rw [hid] at hversion
            rw [if_pos hid]
            exact ⟨.inr (by rw [hversion]; rfl), hwrite.trans (if_pos hid)⟩
          · rw [if_neg hid]
            exact .inl (hwrite.trans (if_neg hid))
      -- Every other response removes the entry, schedules a retry or does nothing.
      · have hnone : c.mismatch payload accepted = none := by
          rw [Cache.mismatch, if_neg hmismatch]
        rw [Cache.posting_of_no_mismatch hnone]
        dsimp only
        split
        · cases terminal with
          | true => exact hremoved
          | false => exact hnothing
        · rename_i hrejected
          rw [Bool.not_eq_true] at hrejected
          rw [Cache.onReject]
          split
          · exact hnothing
          · rw [if_neg fun h => hmismatch ⟨hrejected, h⟩]
            split
            · exact hremoved
            · dsimp only
              split
              · refine ⟨(c.schedule_grows e.ptr e.retryDelayMs true).wf hwf, .inl ?_⟩
                refine c.update_versionOf e.ptr ?_ ?_ jobId
                · intro e
                  rfl
                · intro e
                  rfl
              · exact hnothing

/-- Each step keeps the shape of the cache and does what it posts. -/
theorem Manager.step_posts {s m : Manager} (hwf : s.cache.WF) (h : Status.step s a = some m)
    (jobId : CStr) : m.cache.WF ∧ Posts s.cache m.cache jobId (s.cache.posting jobId a) := by
  have hnothing : s.cache.WF ∧ Posts s.cache s.cache jobId none := ⟨hwf, .inl rfl⟩
  cases a with
  | send u =>
    rw [Status.step] at h
    rw [Cache.posting]
    by_cases hu : u.valid true = true
    · have hvalid : validJobId u.jobId = true := by
        rw [StatusUpdate.valid, Bool.and_eq_true, Bool.and_eq_true] at hu
        exact hu.1.1
      rw [if_pos hu] at h
      obtain rfl := Option.some.inj h
      refine ⟨(s.cache.sendPrepare_grows u {}).wf hwf, ?_⟩
      have hposts := Cache.sendPrepare_posts hwf hvalid jobId
      by_cases hid : u.jobId = jobId
      · rw [if_pos ⟨hu, hid⟩]
        rwa [if_pos hid] at hposts
      · rw [if_neg fun h => hid h.2]
        rwa [if_neg hid] at hposts
    · rw [if_neg hu] at h
      obtain rfl := Option.some.inj h
      rw [if_neg fun h => hu h.1]
      exact hnothing
  | setVersion k version =>
    obtain rfl := Option.some.inj h
    show (s.cache.setInitialExpectedVersion k version true).2.WF ∧
      Posts s.cache (s.cache.setInitialExpectedVersion k version true).2 jobId _
    refine ⟨(s.cache.setInitialExpectedVersion_grows k version true).wf hwf, ?_⟩
    rw [Cache.setInitialExpectedVersion, Cache.posting]
    by_cases hvalid : validJobId k = true
    · rw [if_pos hvalid]
      have hset := Cache.overwriteVersion_versionOf hwf hvalid version jobId
      by_cases hid : k = jobId
      · rw [if_pos ⟨hvalid, hid⟩]
        exact ⟨.inl (hid ▸ hvalid), hset.trans (if_pos hid)⟩
      · rw [if_neg fun h => hid h.2]
        exact .inl (hset.trans (if_neg hid))
    · rw [if_neg hvalid, if_neg fun h => hvalid h.1]
      exact .inl rfl
  | timer ptr =>
    rw [Status.step] at h
    split at h
    · exact absurd h (by simp)
    · obtain rfl := Option.some.inj h
      show (s.cache.update ptr _).WF ∧ Posts s.cache (s.cache.update ptr _) jobId none
      -- A timer that fires only marks itself as gone; the retry task it queues does the rest.
      have hgrows : Grows false s.cache (s.cache.update ptr fun e => { e with timer := none }) :=
        s.cache.update_grows ptr (fun _ => ⟨rfl, rfl, rfl, id, by simp⟩) fun _ => rfl
      refine ⟨hgrows.wf hwf, .inl ?_⟩
      refine s.cache.update_versionOf ptr ?_ ?_ jobId
      · intro e
        rfl
      · intro e
        rfl
  | advance task published =>
    rw [Status.step] at h
    split at h
    · obtain rfl := Option.some.inj h
      exact Manager.runTask_posts (s := { s with tasks := s.tasks.erase task }) hwf published task
        jobId
    · exact absurd h (by simp)
  | response payload accepted =>
    obtain rfl := Option.some.inj h
    exact Cache.onResponseLocked_posts hwf payload accepted jobId
  | resend =>
    obtain rfl := Option.some.inj h
    exact hnothing
  | clear k =>
    obtain rfl := Option.some.inj h
    show (s.cache.clearJobEntries k).WF ∧ Posts s.cache (s.cache.clearJobEntries k) jobId none
    rw [Cache.clearJobEntries]
    split
    · exact hnothing
    · split
      · rename_i e hfind
        have he := (Cache.findByJobId_some hfind).1
        refine ⟨Cache.removeEntries_wf hwf he, ?_⟩
        rw [Posts, Cache.removeEntries_versionOf hwf he]
        split
        · exact .inr rfl
        · exact .inl rfl
      · exact hnothing

/-! ### Accounts that agree with their entry -/

/-- The versions that were taken one after the other, the newest first, from `base` on. -/
def Consecutive (base : Int32) : List Int32 → Prop
  | [] => True
  | v :: vs => v = base + Int32.ofNat vs.length ∧ Consecutive base vs

/-- The account agrees with the version `v` of an entry: each increment that stands is a version
of its own, and it belongs to a publish or to an open send. Of the `sends` open sends,
`overtaken` are older than the account. -/
structure Account.Agrees (a : Account) (v : Int32) (sends overtaken : Nat) : Prop where
  version : v = a.base + Int32.ofNat a.standing.length
  consecutive : Consecutive a.base a.standing
  balance : a.published + sends = a.standing.length + overtaken

/-- A new entry has a new account. -/
theorem Account.agrees_new (v : Int32) (overtaken : Nat) :
    Account.Agrees { base := v } v overtaken overtaken where
  version := (Int32.add_zero v).symm
  consecutive := trivial
  balance := by
    show 0 + overtaken = 0 + overtaken
    rfl

namespace Account.Agrees

variable {a : Account} {v : Int32} {sends overtaken : Nat}

/-- One more send takes the version. -/
theorem took (h : a.Agrees v sends overtaken) :
    Account.Agrees { a with standing := v :: a.standing } (v + 1) (sends + 1) overtaken where
  version := by
    show v + 1 = a.base + Int32.ofNat (a.standing.length + 1)
    -- The version wraps like the 32-bit counter of the entry; nothing here needs it to stay small.
    rw [Int32.ofNat_add, ← Int32.add_assoc, ← h.version]
    rfl
  consecutive := ⟨h.version, h.consecutive⟩
  balance := by
    have hbalance := h.balance
    show a.published + (sends + 1) = a.standing.length + 1 + overtaken
    omega

/-- A send that took its version since the last resynchronisation is published. -/
theorem publish (h : a.Agrees v (sends + 1) overtaken) :
    Account.Agrees { a with published := a.published + 1 } v sends overtaken where
  version := h.version
  consecutive := h.consecutive
  balance := by
    have hbalance := h.balance
    show a.published + 1 + sends = a.standing.length + overtaken
    omega

/-- The last version that stands is one less than the version of the entry. -/
theorem last_eq {w : Int32} (h : a.Agrees v sends overtaken) (hlast : a.standing.head? = some w) :
    w = v - 1 := by
  have hversion := h.version
  have hconsecutive := h.consecutive
  cases hstanding : a.standing with
  | nil =>
    rw [hstanding] at hlast
    exact absurd hlast (by nofun)
  | cons x rest =>
    rw [hstanding] at hlast hversion hconsecutive
    obtain rfl : x = w := Option.some.inj hlast
    -- The versions that stand are consecutive, so the newest is right below the version of the
    -- entry.
    rw [hversion, hconsecutive.1, List.length_cons, Int32.ofNat_add, ← Int32.add_assoc]
    exact (Int32.add_sub_cancel _ _).symm

/-- The send that took the last version that stands gives it back. -/
theorem giveBack {w : Int32} (h : a.Agrees v (sends + 1) overtaken)
    (hlast : a.standing.head? = some w) :
    Account.Agrees { a with standing := a.standing.tail } w sends overtaken := by
  have hconsecutive := h.consecutive
  have hbalance := h.balance
  cases hstanding : a.standing with
  | nil =>
    rw [hstanding] at hlast
    exact absurd hlast (by nofun)
  | cons x rest =>
    rw [hstanding] at hlast hconsecutive hbalance
    obtain rfl : x = w := Option.some.inj hlast
    refine ⟨hconsecutive.1, hconsecutive.2, ?_⟩
    rw [List.length_cons] at hbalance
    show a.published + sends = rest.length + overtaken
    omega

/-- Overtaken sends come and go without the account. -/
theorem shift (h : a.Agrees v sends overtaken) {sends' overtaken' : Nat}
    (hsame : sends' + overtaken = sends + overtaken') : a.Agrees v sends' overtaken' where
  version := h.version
  consecutive := h.consecutive
  balance := by
    have hbalance := h.balance
    omega

end Account.Agrees

/-! ### The open sends -/

/-- What a section of a task does to the open sends of the job. `cont` is what is left of it. -/
inductive SendsEffect (jobId : CStr) (task : Task) (cont : List Task) : Option Posting → Prop
  | took (hs : task.sends jobId = false) (hc : cont.countP (Task.sends jobId) = 1) :
      SendsEffect jobId task cont (some .took)
  | published (hs : task.sends jobId = true) (hc : cont.countP (Task.sends jobId) = 0) :
      SendsEffect jobId task cont (some .published)
  | gaveBack (v : Int32) (hs : task.sends jobId = true)
      (hc : cont.countP (Task.sends jobId) = 0) :
      SendsEffect jobId task cont (some (.gaveBack v))
  /-- The publish of an open send has failed, and it will give its version back. -/
  | waits (hs : task.sends jobId = true) (hc : cont.countP (Task.sends jobId) = 1) :
      SendsEffect jobId task cont none
  | other (hs : task.sends jobId = false) : SendsEffect jobId task cont none

@[simp] theorem countP_afterSend (jobId : CStr) (rest : List (Nat × StatusUpdate)) :
    (afterSend rest).countP (Task.sends jobId) = 0 := by
  rw [afterSend]
  split <;> rfl

theorem Task.sends_eq {k : CStr} {v : Int32} (h : task.taken = some (k, v)) :
    task.sends jobId = decide (k = jobId) := by
  rw [Task.sends, h]
  exact Bool.eq_iff_iff.mpr (by simp)

/-- One section of a task, seen from the open sends. -/
theorem Manager.runTask_sends (s : Manager) (hwf : s.cache.WF) (published : Bool) (task : Task)
    (jobId : CStr) : SendsEffect jobId task (s.runTask published task).2
      (s.cache.taskPosting jobId published task) := by
  cases task with
  | sendPublish u p rest =>
    have hs : Task.sends jobId (.sendPublish u p rest) = decide (u.jobId = jobId) :=
      Task.sends_eq rfl
    rw [Manager.runTask, Cache.taskPosting]
    by_cases hid : u.jobId = jobId
    · rw [decide_eq_true hid] at hs
      by_cases hok : publishUpdate p.expectedVersion published = .ok
      · have hcond : u.jobId = jobId ∧ publishUpdate p.expectedVersion published = .ok := ⟨hid, hok⟩
        rw [if_pos hok, if_pos hcond]
        exact .published hs (countP_afterSend jobId rest)
      · have hcond : ¬(u.jobId = jobId ∧ publishUpdate p.expectedVersion published = .ok) :=
          fun h => hok h.2
        rw [if_neg hok, if_neg hcond]
        refine .waits hs ?_
        rw [List.countP_singleton]
        exact if_pos hs
    · have hcond : ¬(u.jobId = jobId ∧ publishUpdate p.expectedVersion published = .ok) :=
        fun h => hid h.1
      rw [if_neg hcond]
      rw [decide_eq_false hid] at hs
      exact .other hs
  | sendRevert u p rest =>
    have hs : Task.sends jobId (.sendRevert u p rest) = decide (u.jobId = jobId) :=
      Task.sends_eq rfl
    rw [Manager.runTask, Cache.taskPosting]
    by_cases hid : u.jobId = jobId
    · rw [decide_eq_true hid] at hs
      rw [if_pos hid]
      exact .gaveBack _ hs (countP_afterSend jobId rest)
    · rw [decide_eq_false hid] at hs
      rw [if_neg hid]
      exact .other hs
  | retry ptr =>
    rw [Cache.taskPosting]
    split
    · rename_i hany
      -- The retry reads the entry through its address, and addresses are distinct.
      obtain ⟨x, hx, hcond⟩ := List.any_eq_true.mp hany
      simp only [Bool.and_eq_true, beq_iff_eq] at hcond
      obtain ⟨⟨hxptr, hxid⟩, hcached⟩ := hcond
      obtain ⟨e, he, hptr, hderef⟩ :=
        Manager.deref_of_has (s := s) (q := (ptr, none)) ⟨x, hx, hxptr, by simp⟩
      dsimp only at hptr hderef
      have hxe : x = e := eq_of_key_eq hwf.ptrs hx he (hxptr.trans hptr.symm)
      subst hxe
      rw [Manager.runTask, hderef, Option.bind_some, JobEntries.retryShot, if_pos hcached]
      refine .took rfl ?_
      rw [List.countP_singleton]
      exact if_pos (by rw [Task.sends_eq rfl]; exact decide_eq_true hxid)
    · exact .other rfl
  | retryPublish ptr shot =>
    have hs : Task.sends jobId (.retryPublish ptr shot) = decide (shot.update.jobId = jobId) :=
      Task.sends_eq rfl
    rw [Manager.runTask, Cache.taskPosting]
    by_cases hid : shot.update.jobId = jobId
    · rw [decide_eq_true hid] at hs
      by_cases hok : publishUpdate shot.expectedVersion published = .ok
      · have hcond : shot.update.jobId = jobId ∧
            publishUpdate shot.expectedVersion published = .ok := ⟨hid, hok⟩
        rw [if_pos hok, if_pos hcond]
        exact .published hs rfl
      · have hcond : ¬(shot.update.jobId = jobId ∧
            publishUpdate shot.expectedVersion published = .ok) := fun h => hok h.2
        rw [if_neg hok, if_neg hcond]
        refine .waits hs ?_
        rw [List.countP_singleton]
        exact if_pos hs
    · have hcond : ¬(shot.update.jobId = jobId ∧
          publishUpdate shot.expectedVersion published = .ok) := fun h => hid h.1
      rw [if_neg hcond]
      rw [decide_eq_false hid] at hs
      exact .other hs
  | retryRevert ptr shot =>
    have hs : Task.sends jobId (.retryRevert ptr shot) = decide (shot.update.jobId = jobId) :=
      Task.sends_eq rfl
    rw [Manager.runTask, Cache.taskPosting]
    by_cases hid : shot.update.jobId = jobId
    · rw [decide_eq_true hid] at hs
      rw [if_pos hid]
      exact .gaveBack _ hs rfl
    · rw [decide_eq_false hid] at hs
      rw [if_neg hid]
      exact .other hs
  | retryRearm ptr delayMs => exact .other rfl
  | resend snapshot =>
    cases snapshot with
    | nil => exact .other rfl
    | cons copy rest =>
      obtain ⟨ptr, u⟩ := copy
      rw [Cache.taskPosting]
      split
      · rename_i hcond
        obtain ⟨e, c₁, c₂, -, hok, -⟩ := s.cache.sendPrepare_eq hcond.1
        rw [Manager.runTask, hok]
        refine .took rfl ?_
        rw [List.countP_singleton]
        exact if_pos (by rw [Task.sends_eq rfl]; exact decide_eq_true hcond.2)
      · exact .other rfl

/-! ### The invariant -/

/-- What every ordered run keeps. The overtaken sends are among the open ones, all open sends are
overtaken while the entry is gone, and the account agrees with the entry while it is there. -/
structure Books (jobId : CStr) (s : Ledger) : Prop where
  wf : s.manager.cache.WF
  among : ∀ task, s.overtaken.count task ≤ s.manager.tasks.count task
  gone : s.version jobId = none → s.openSends jobId = s.overtaken.countP (Task.sends jobId)
  present : ∀ v, s.version jobId = some v → validJobId jobId = true ∧
    s.account.Agrees v (s.openSends jobId) (s.overtaken.countP (Task.sends jobId))

theorem Books.initial (jobId : CStr) : Books jobId {} where
  wf := Cache.wf_initial
  among := fun _ => le_rfl
  gone := fun _ => rfl
  present := fun _ h => absurd h (by nofun)

/-- The account that a step finds, or the new one of an entry that it makes. -/
theorem Books.forEntry (hs : Books jobId s) :
    (s.account.forEntry (s.version jobId)).Agrees ((s.version jobId).getD 1) (s.openSends jobId)
      (s.overtaken.countP (Task.sends jobId)) := by
  cases hv : s.version jobId with
  | some v => exact (hs.present v hv).2
  | none =>
    rw [hs.gone hv]
    exact Account.agrees_new 1 _

theorem Books.valid (hs : Books jobId s) (h : s.manager.cache.Admits jobId) :
    validJobId jobId = true := by
  rcases h with hvalid | hsome
  · exact hvalid
  · obtain ⟨v, hv⟩ := Option.isSome_iff_exists.mp hsome
    exact (hs.present v hv).1

/-- When all open sends are overtaken, only a present entry has to agree. -/
theorem Books.of_all_overtaken (hwf : s.manager.cache.WF)
    (hall : s.overtaken = s.manager.tasks.filter (Task.sends jobId))
    (hpresent : ∀ v, s.version jobId = some v →
      validJobId jobId = true ∧ s.account = { base := v }) : Books jobId s := by
  have hcount : s.overtaken.countP (Task.sends jobId) = s.openSends jobId := by
    rw [hall, List.countP_filter, Ledger.openSends]
    simp only [Bool.and_self]
  -- The new account owes nothing to an open send, so the numbers on both sides are equal.
  refine ⟨hwf, ?_, fun _ => hcount.symm, ?_⟩
  · intro task
    rw [hall]
    exact List.filter_sublist.count_le task
  · intro v hv
    obtain ⟨hvalid, haccount⟩ := hpresent v hv
    rw [hcount, haccount]
    exact ⟨hvalid, Account.agrees_new v _⟩

/-- Taking one element out of a list changes a count by that element. -/
theorem countP_erase_add {α : Type*} [DecidableEq α] (p : α → Bool) {x : α} {l : List α}
    (h : x ∈ l) : (l.erase x).countP p + (if p x then 1 else 0) = l.countP p := by
  have hperm := (List.perm_cons_erase h).countP_eq p
  rw [List.countP_cons] at hperm
  exact hperm.symm

theorem countP_erase_of_neg {α : Type*} [DecidableEq α] {p : α → Bool} {x : α} {l : List α}
    (h : p x = false) : (l.erase x).countP p = l.countP p := by
  by_cases hx : x ∈ l
  · have hcount := countP_erase_add p hx
    rw [h] at hcount
    exact hcount
  · rw [List.erase_of_not_mem hx]

/-- The posting ends an open send. -/
def Posting.ends : Posting → Bool
  | .published | .gaveBack _ => true
  | .took | .refused | .resynced _ => false

section Advance

variable {jobId : CStr} {s : Ledger} {task : Task} {cont : List Task} {posting : Option Posting}

/-- A send that is not current is among the overtaken ones. -/
theorem Ledger.mem_overtaken (ht : task ∈ s.manager.tasks) (hsends : task.sends jobId = true)
    (hcurrent : ¬ s.Current jobId task) : task ∈ s.overtaken := by
  have hpos : 0 < s.manager.tasks.count task := List.count_pos_iff.mpr ht
  have hcount : ¬ s.overtaken.count task < s.manager.tasks.count task :=
    fun h => hcurrent ⟨hsends, h⟩
  exact List.count_pos_iff.mp (by omega)

/-- The overtaken sends stay among the open ones. -/
theorem Ledger.overtakenAfter_among
    (hamong : ∀ t, s.overtaken.count t ≤ s.manager.tasks.count t) (t : Task) :
    (s.overtakenAfter jobId task cont posting).count t ≤
      (s.manager.tasks.erase task ++ cont).count t := by
  rw [Ledger.overtakenAfter, List.count_append]
  have hold := hamong t
  split
  · rename_i hcurrent
    by_cases heq : t = task
    -- A current send has a copy in the tasks that is not overtaken, and that copy goes.
    · have hlt := hcurrent.2
      rw [heq, List.count_erase_self]
      omega
    · rw [List.count_erase_of_ne heq]
      omega
  · have hmarks : (if posting = some .took then [] else cont.filter (Task.sends jobId)).count t
        ≤ cont.count t := by
      split
      · exact Nat.zero_le _
      · exact List.filter_sublist.count_le t
    rw [List.count_append, List.count_erase, List.count_erase]
    omega

/-- The open sends and the overtaken ones after a section of a task. -/
theorem Ledger.overtakenAfter_countP (ht : task ∈ s.manager.tasks)
    (hguard : posting.any Posting.ends = true → s.Current jobId task)
    (heffect : SendsEffect jobId task cont posting) :
    (s.manager.tasks.erase task ++ cont).countP (Task.sends jobId) +
        s.overtaken.countP (Task.sends jobId) +
        (if posting.any Posting.ends then 1 else 0) =
      s.openSends jobId + (s.overtakenAfter jobId task cont posting).countP (Task.sends jobId) +
        (if posting = some .took then 1 else 0) := by
  have hopen := countP_erase_add (Task.sends jobId) ht
  have hfilter : (cont.filter (Task.sends jobId)).countP (Task.sends jobId) =
      cont.countP (Task.sends jobId) := by
    rw [List.countP_filter]
    simp only [Bool.and_self]
  have hnone : (none : Option Posting) ≠ some .took := nofun
  rw [Ledger.overtakenAfter, List.countP_append, Ledger.openSends]
  cases heffect with
  | took hs hc =>
    have hcurrent : ¬ s.Current jobId task := fun h => absurd (hs ▸ h.1) Bool.false_ne_true
    rw [hs] at hopen
    rw [if_neg hcurrent, if_pos rfl, List.append_nil, countP_erase_of_neg hs (l := s.overtaken)]
    simp [Posting.ends] at hopen ⊢
    omega
  | published hs hc =>
    rw [if_pos (hguard rfl)]
    rw [hs] at hopen
    simp [Posting.ends] at hopen ⊢
    omega
  | gaveBack v hs hc =>
    rw [if_pos (hguard rfl)]
    rw [hs] at hopen
    simp [Posting.ends] at hopen ⊢
    omega
  | waits hs hc =>
    rw [hs] at hopen
    -- The failed publish is replaced by the revert that waits. The mark of an overtaken send moves
    -- along with it.
    by_cases hcurrent : s.Current jobId task
    · rw [if_pos hcurrent]
      simp at hopen ⊢
      omega
    · have hcount := countP_erase_add (Task.sends jobId)
        (Ledger.mem_overtaken ht hs hcurrent)
      rw [hs] at hcount
      rw [if_neg hcurrent, if_neg hnone, List.countP_append, hfilter]
      simp at hopen hcount ⊢
      omega
  | other hs =>
    have hcurrent : ¬ s.Current jobId task := fun h => absurd (hs ▸ h.1) Bool.false_ne_true
    rw [hs] at hopen
    rw [if_neg hcurrent, if_neg hnone, List.countP_append, hfilter,
      countP_erase_of_neg hs (l := s.overtaken)]
    simp at hopen ⊢
    omega

end Advance

@[simp] theorem countP_mismatchResend (jobId : CStr) (e : Option JobEntries)
    (u : Option StatusUpdate) : (mismatchResend e u).countP (Task.sends jobId) = 0 := by
  cases e with
  | none => rfl
  | some e =>
    cases u with
    | none => rfl
    | some u => rfl

/-- What a step that is no section of a task adds to the tasks: an open send when it takes the
version, and otherwise none. -/
theorem Manager.step_adds {s m : Manager} (h : Status.step s a = some m)
    (ha : ∀ task published, a ≠ .advance task published) (jobId : CStr) :
    ∃ added, m.tasks = s.tasks ++ added ∧ added.countP (Task.sends jobId) =
      if s.cache.posting jobId a = some .took then 1 else 0 := by
  cases a with
  | send u =>
    rw [Status.step] at h
    rw [Cache.posting]
    by_cases hu : u.valid true = true
    · rw [if_pos hu] at h
      obtain rfl := Option.some.inj h
      refine ⟨_, rfl, ?_⟩
      have hs : Task.sends jobId (.sendPublish u (s.cache.sendPrepare u {}).2.2 [])
          = decide (u.jobId = jobId) := Task.sends_eq rfl
      rw [List.countP_singleton, hs]
      by_cases hid : u.jobId = jobId
      · rw [decide_eq_true hid, if_pos rfl, if_pos (⟨hu, hid⟩ : _ ∧ _), if_pos rfl]
      · have hcond : ¬(u.valid true = true ∧ u.jobId = jobId) := fun h => hid h.2
        rw [decide_eq_false hid, if_neg hcond, if_neg Bool.false_ne_true, if_neg (by simp)]
    · rw [if_neg hu] at h
      obtain rfl := Option.some.inj h
      have hcond : ¬(u.valid true = true ∧ u.jobId = jobId) := fun h => hu h.1
      rw [if_neg hcond]
      exact ⟨[], (List.append_nil _).symm, rfl⟩
  | setVersion k version =>
    obtain rfl := Option.some.inj h
    refine ⟨[], (List.append_nil _).symm, ?_⟩
    rw [Cache.posting]
    split <;> rfl
  | timer ptr =>
    rw [Status.step] at h
    split at h
    · exact absurd h (by simp)
    · obtain rfl := Option.some.inj h
      exact ⟨[.retry ptr], rfl, rfl⟩
  | advance task published => exact absurd rfl (ha task published)
  | response payload accepted =>
    obtain rfl := Option.some.inj h
    refine ⟨_, rfl, ?_⟩
    have hpost : s.cache.posting jobId (.response payload accepted) ≠ some .took := by
      rw [Cache.posting]
      split
      · split <;> simp
      · simp
    rw [if_neg hpost]
    exact countP_mismatchResend jobId _ _
  | resend =>
    obtain rfl := Option.some.inj h
    exact ⟨_, rfl, countP_afterSend jobId _⟩
  | clear k =>
    obtain rfl := Option.some.inj h
    exact ⟨[], (List.append_nil _).symm, rfl⟩

@[simp] theorem Manager.note_tasks (s : Manager) (ptr : Nat) (act : Late) :
    (s.note ptr act).tasks = s.tasks := by
  rw [Manager.note]
  split <;> rfl

/-- What is left of a task is not in the list yet. -/
theorem Manager.runTask_tasks (s : Manager) (published : Bool) (task : Task) :
    (s.runTask published task).1.tasks = s.tasks := by
  cases task with
  | sendPublish u p rest =>
    rw [Manager.runTask]
    split
    · split
      · exact Manager.note_tasks s _ _
      · rfl
    · rfl
  | sendRevert u p rest => rfl
  | retry ptr =>
    rw [Manager.runTask]
    split <;> rfl
  | retryPublish ptr shot =>
    rw [Manager.runTask]
    split
    · exact Manager.note_tasks s _ _
    · rfl
  | retryRevert ptr shot => rfl
  | retryRearm ptr delayMs => exact Manager.note_tasks s _ _
  | resend snapshot =>
    cases snapshot with
    | nil => rfl
    | cons copy rest =>
      obtain ⟨ptr, u⟩ := copy
      rw [Manager.runTask]
      split
      · exact Manager.note_tasks s _ _
      · rfl

/-- The order lets a send end only while it is current, unless the entry is gone. -/
theorem Ordered.current (hg : Ordered jobId s (.act (.advance task published)))
    (hsome : (s.version jobId).isSome = true)
    (hends : (s.manager.cache.taskPosting jobId published task).any Posting.ends = true) :
    s.Current jobId task := by
  rw [Ordered] at hg
  split at hg
  · exact hg hsome
  · exact hg.2.1
  · rename_i hpublished hgave
    cases hposting : s.manager.cache.taskPosting jobId published task with
    | none =>
      rw [hposting] at hends
      exact absurd hends (by nofun)
    | some p =>
      rw [hposting] at hends
      cases p with
      | published => exact absurd hposting hpublished
      | gaveBack w => exact absurd hposting (hgave w)
      | took => exact absurd hends (by nofun)
      | refused => exact absurd hends (by nofun)
      | resynced w => exact absurd hends (by nofun)

/-- The order lets only the last send give its version back. -/
theorem Ordered.last {w : Int32} (hg : Ordered jobId s (.act (.advance task published)))
    (hposting : s.manager.cache.taskPosting jobId published task = some (.gaveBack w)) :
    (s.version jobId).isSome = true ∧ s.account.standing.head? = some w := by
  rw [Ordered, hposting] at hg
  exact ⟨hg.1, hg.2.2⟩

/-- The account after a step that leaves the entry there, when the open sends have followed. -/
theorem Books.agrees_after (hs : Books jobId s) {posting : Option Posting}
    (hposts : Posts s.manager.cache c' jobId posting)
    (hresync : ∀ w, posting ≠ some (.resynced w))
    (hlast : ∀ w, posting = some (.gaveBack w) → (s.version jobId).isSome = true ∧
      s.account.standing.head? = some w) {sends overtaken : Nat}
    (hcount : sends + s.overtaken.countP (Task.sends jobId) +
        (if posting.any Posting.ends then 1 else 0) =
      s.openSends jobId + overtaken + if posting = some .took then 1 else 0) {v : Int32}
    (hv : c'.versionOf jobId = some v) :
    validJobId jobId = true ∧
      (s.account.after (s.version jobId) posting).Agrees v sends overtaken := by
  cases posting with
  | none =>
    rcases hposts with hsame | hnone
    · obtain ⟨hvalid, hagrees⟩ := hs.present v (hsame.symm.trans hv)
      exact ⟨hvalid, hagrees.shift hcount⟩
    · exact absurd (hnone.symm.trans hv) (by nofun)
  | some p =>
    cases p with
    | took =>
      -- The version that the send took is the newest one that stands.
      obtain ⟨hadmits, hnew⟩ := hposts
      obtain rfl := Option.some.inj (hnew.symm.trans hv)
      refine ⟨hs.valid hadmits, hs.forEntry.took.shift ?_⟩
      rw [if_neg (by nofun), if_pos rfl] at hcount
      omega
    | refused =>
      obtain ⟨hadmits, hnew⟩ := hposts
      obtain rfl := Option.some.inj (hnew.symm.trans hv)
      exact ⟨hs.valid hadmits, hs.forEntry.shift hcount⟩
    | published =>
      obtain ⟨hvalid, hagrees⟩ := hs.present v (Eq.trans (Eq.symm hposts) hv)
      refine ⟨hvalid, Account.Agrees.publish (hagrees.shift ?_)⟩
      simp [Posting.ends] at hcount
      omega
    | gaveBack w =>
      -- Only the newest version that stands may come back, so the rest stays consecutive.
      obtain ⟨hsome, hhead⟩ := hlast w rfl
      obtain ⟨v₀, hv₀⟩ := Option.isSome_iff_exists.mp hsome
      obtain ⟨hvalid, hagrees⟩ := hs.present v₀ hv₀
      obtain rfl := Option.some.inj ((hposts hvalid).symm.trans hv)
      simp [Posting.ends] at hcount
      have hshift : s.account.Agrees v₀ (sends + 1) overtaken := hagrees.shift (by omega)
      refine ⟨hvalid, ?_⟩
      show Account.Agrees { s.account.forEntry (s.version jobId) with
        standing := (s.account.forEntry (s.version jobId)).standing.tail } _ _ _
      rw [Account.forEntry, if_pos hsome]
      exact hshift.giveBack hhead
    | resynced w => exact absurd rfl (hresync w)

/-- A section of a task posts no resynchronisation. -/
theorem Cache.taskPosting_ne_resynced (c : Cache) (jobId : CStr) (published : Bool) (task : Task)
    (w : Int32) : c.taskPosting jobId published task ≠ some (.resynced w) := by
  cases task with
  | resend snapshot =>
    cases snapshot with
    | nil => nofun
    | cons copy rest =>
      rw [Cache.taskPosting]
      split <;> nofun
  | retryRearm ptr delayMs => nofun
  | _ =>
    rw [Cache.taskPosting]
    split <;> nofun

section
variable (hs : Books jobId s)
include hs

/-- A section of a task keeps the books. -/
theorem Books.advance {m : Manager}
    (hstep : Status.step s.manager (.advance task published) = some m)
    (hg : Ordered jobId s (.act (.advance task published))) :
    Books jobId (s.record jobId (.advance task published) m) := by
  obtain ⟨hwf, hposts⟩ := Manager.step_posts hs.wf hstep jobId
  by_cases hgone : m.cache.versionOf jobId = none
  -- The section removed the entry: every send that is still open is overtaken.
  · refine Books.of_all_overtaken hwf (if_pos hgone) ?_
    intro v hv
    exact absurd (hgone.symm.trans hv) (by simp)
  rw [Status.step] at hstep
  split at hstep
  · rename_i ht
    have hsends := Manager.runTask_sends { s.manager with tasks := s.manager.tasks.erase task }
      hs.wf published task jobId
    have htasks := Manager.runTask_tasks { s.manager with tasks := s.manager.tasks.erase task }
      published task
    generalize hr : Manager.runTask { s.manager with tasks := s.manager.tasks.erase task } published
      task = r at hstep hsends htasks
    obtain rfl := Option.some.inj hstep
    have hover : (s.record jobId (.advance task published)
        { r.1 with tasks := r.1.tasks ++ r.2 }).overtaken =
          s.overtakenAfter jobId task r.2 (s.manager.cache.taskPosting jobId published task) := by
      rw [← hr]
      exact if_neg (by rw [hr]; exact hgone)
    have hcurrent : (s.manager.cache.taskPosting jobId published task).any Posting.ends = true →
        s.Current jobId task := by
      intro hends
      refine hg.current ?_ hends
      rw [← Option.ne_none_iff_isSome]
      intro hnone
      -- A publish leaves the version alone, and a revert needs the entry.
      have htask : Posts s.manager.cache r.1.cache jobId
        (s.manager.cache.taskPosting jobId published task) := hposts
      cases hposting : s.manager.cache.taskPosting jobId published task with
      | none =>
        rw [hposting] at hends
        exact absurd hends (by simp)
      | some p =>
        rw [hposting] at hends htask
        cases p with
        | published => exact hgone (Eq.trans htask hnone)
        | gaveBack w =>
          exact absurd (hg.last hposting).1 (by rw [hnone]; simp)
        | took => cases hends
        | refused => cases hends
        | resynced w => cases hends
    refine ⟨hwf, ?_, fun h => absurd h hgone, ?_⟩
    · intro t
      rw [hover]
      show _ ≤ (r.1.tasks ++ r.2).count t
      rw [htasks]
      exact Ledger.overtakenAfter_among hs.among t
    · intro v hv
      refine hs.agrees_after hposts (s.manager.cache.taskPosting_ne_resynced jobId published task)
        (fun w hw => hg.last hw) ?_ hv
      have hcount := Ledger.overtakenAfter_countP ht hcurrent hsends
      rw [hover]
      show (r.1.tasks ++ r.2).countP _ + _ + _ = _
      rw [htasks]
      exact hcount
  · exact absurd hstep (by simp)

/-- A step that is no section of a task keeps the books. -/
theorem Books.other {m : Manager} (hstep : Status.step s.manager a = some m)
    (ha : ∀ task published, a ≠ .advance task published) : Books jobId (s.record jobId a m) := by
  obtain ⟨hwf, hposts⟩ := Manager.step_posts hs.wf hstep jobId
  obtain ⟨added, htasks, hadded⟩ := Manager.step_adds hstep ha jobId
  have hover : (s.record jobId a m).overtaken =
      if m.cache.versionOf jobId = none ∨
          (s.manager.cache.posting jobId a).any Posting.resyncs = true then
        m.tasks.filter (Task.sends jobId)
      else s.overtaken := by
    cases a with
    | advance task published => exact absurd rfl (ha task published)
    | _ => rfl
  have hends : (s.manager.cache.posting jobId a).any Posting.ends = false := by
    cases a with
    | advance task published => exact absurd rfl (ha task published)
    | timer ptr => rfl
    | resend => rfl
    | clear k => rfl
    | response payload accepted =>
      rw [Cache.posting]
      split
      · split <;> rfl
      · rfl
    | _ =>
      rw [Cache.posting]
      split <;> rfl
  have haccount : (s.record jobId a m).account =
      s.account.after (s.version jobId) (s.manager.cache.posting jobId a) := rfl
  generalize s.manager.cache.posting jobId a = posting at hposts hadded hover hends haccount
  by_cases hall : m.cache.versionOf jobId = none ∨ posting.any Posting.resyncs = true
  -- A resynchronisation or a removal closes the account.
  · rw [if_pos hall] at hover
    refine Books.of_all_overtaken hwf hover ?_
    intro v hv
    rcases hall with hgone | hresync
    · exact absurd (hgone.symm.trans hv) (by nofun)
    · cases posting with
      | none => exact absurd hresync (by nofun)
      | some p =>
        cases p with
        | resynced w =>
          obtain ⟨hadmits, hnew⟩ := hposts
          obtain rfl := Option.some.inj (hnew.symm.trans hv)
          exact ⟨hs.valid hadmits, haccount⟩
        | _ => exact absurd hresync (by nofun)
  · rw [if_neg hall] at hover
    refine ⟨hwf, ?_, fun h => absurd (.inl h) hall, ?_⟩
    · intro t
      rw [hover]
      show _ ≤ m.tasks.count t
      rw [htasks, List.count_append]
      exact (hs.among t).trans (Nat.le_add_right _ _)
    · intro v hv
      rw [haccount, hover]
      refine hs.agrees_after hposts (fun w h => hall (.inr (h ▸ rfl))) ?_ ?_ hv
      · intro w h
        rw [h] at hends
        exact absurd hends (by nofun)
      · rw [hends, if_neg Bool.false_ne_true]
        show m.tasks.countP _ + _ + 0 = s.manager.tasks.countP _ + _ + _
        rw [htasks, List.countP_append, hadded]
        omega

/-- A send that fails in its first section keeps the books. -/
theorem Books.refused {t : Ledger} {u : StatusUpdate} {env : StatusEnv}
    (h : s.step jobId (.refused u env) = some t) : Books jobId t := by
  rw [Ledger.step] at h
  dsimp only at h
  split at h
  · rename_i hcond
    obtain rfl := Option.some.inj h
    have hwf := (s.manager.cache.sendPrepare_grows u env).wf hs.wf
    obtain ⟨hothers, hout⟩ := Cache.sendPrepare_versionOf hs.wf u env
    generalize (s.manager.cache.sendPrepare u env).2.1 = c at hwf hothers hout
    -- The section may have made an entry before it failed. Nothing of the old account remains then.
    have hkept : c.versionOf jobId = s.version jobId ∨
        validJobId jobId = true ∧ c.versionOf jobId = some ((s.version jobId).getD 1) := by
      by_cases hid : jobId = u.jobId
      · subst hid
        rcases hout with ⟨hok, -⟩ | ⟨-, hout⟩
        · exact absurd hok hcond.2
        · exact hout
      · exact .inl (hothers jobId hid)
    refine ⟨hwf, hs.among, ?_, ?_⟩
    · intro hgone
      rcases hkept with hsame | ⟨-, hsome⟩
      · exact hs.gone (hsame.symm.trans hgone)
      · exact absurd (hsome.symm.trans hgone) (by nofun)
    · intro v hv
      have hv' : c.versionOf jobId = some v := hv
      dsimp only
      rw [hv', if_pos Option.isSome_some]
      show validJobId jobId = true ∧ (s.account.forEntry (s.version jobId)).Agrees v
        (s.openSends jobId) (s.overtaken.countP (Task.sends jobId))
      rcases hkept with hsame | ⟨hvalid, hnew⟩
      · have hold := hsame.symm.trans hv'
        have hagrees := hs.forEntry
        rw [hold] at hagrees
        rw [hold]
        exact ⟨(hs.present v hold).1, hagrees⟩
      · obtain rfl := Option.some.inj (hnew.symm.trans hv')
        exact ⟨hvalid, hs.forEntry⟩
  · exact absurd h (by nofun)

/-- Every ordered step keeps the books. -/
theorem Books.step {t : Ledger} {e : LedgerEvent} (hg : Ordered jobId s e)
    (h : s.step jobId e = some t) : Books jobId t := by
  cases e with
  | refused u env => exact hs.refused h
  | act a =>
    obtain ⟨m, hstep, rfl⟩ := Option.map_eq_some_iff.mp h
    cases a with
    | advance task published => exact hs.advance hstep hg
    | _ => exact hs.other hstep (by nofun)

/-! ### The result -/

theorem Books.overtaken_le : s.overtaken.countP (Task.sends jobId) ≤ s.openSends jobId :=
  (List.subperm_ext_iff.mpr fun task _ => hs.among task).countP_le _

/-- While the books are kept, the version agrees with them. -/
theorem Books.accounted : Accounted jobId s where
  balance := by
    intro v hv
    obtain ⟨-, hagrees⟩ := hs.present v hv
    have hbalance := hagrees.balance
    have hle := hs.overtaken_le
    have hpending : s.account.published + s.pending jobId = s.account.standing.length := by
      rw [Ledger.pending]
      omega
    rw [hpending]
    exact hagrees.version
  atRest := by
    intro v hv hrest
    obtain ⟨-, hagrees⟩ := hs.present v hv
    have hbalance := hagrees.balance
    have hle := hs.overtaken_le
    have hpublished : s.account.published = s.account.standing.length := by omega
    rw [hpublished]
    exact hagrees.version
  reverts := by
    intro task published w t v hg hposting hstep hv
    obtain ⟨m, hm, rfl⟩ := Option.map_eq_some_iff.mp hstep
    obtain ⟨hvalid, hagrees⟩ := hs.present v hv
    have hposts := (Manager.step_posts hs.wf hm jobId).2
    rw [show s.manager.cache.posting jobId (.advance task published) = _ from hposting] at hposts
    rw [← hagrees.last_eq (hg.last hposting).2]
    exact hposts hvalid

end

/-- In every run where the sends end in order, the version of a job agrees with the books: it is
the version of the last resynchronisation plus the successful publishes since. -/
theorem version_accounted (jobId : CStr)
    (h : Reach (· = {}) (Ledger.step jobId) (Ordered jobId) s) : Accounted jobId s := by
  refine (h.inv (Books jobId) ?_ ?_).accounted
  · intro s hs
    rw [hs]
    exact Books.initial jobId
  · intro s e t hs hg ht
    exact hs.step hg ht

/-! ### Two sends that overlap -/

/-- A progress update of the job that `done` ends. -/
def halfway : StatusUpdate := ⟨done.jobId, .inProgress, []⟩

/-- The service says that the job is at version 7. -/
def mismatchAnswer : ResponsePayload := ⟨['1', '1'], "VersionMismatch".toList, ['7']⟩

/-- Two sends overlap and the later one fails. Then the service resynchronises the version, and
the terminal update is sent again. -/
def laterFails : List LedgerEvent :=
  [.act (.send halfway), .act (.send done), .act (.advance (.sendPublish done ⟨0, 2, 1⟩ []) false),
    .act (.advance (.sendPublish halfway ⟨0, 1, 1⟩ []) true),
    .act (.advance (.sendRevert done ⟨0, 2, 1⟩ []) true), .act (.response mismatchAnswer false),
    .act (.advance (.resend [(0, done)]) true),
    .act (.advance (.sendPublish done ⟨0, 7, 1⟩ []) true)]

/-- Two sends overlap. The earlier one fails, and it gives its version back after the later one
was published. -/
def earlierFails : List LedgerEvent :=
  [.act (.send halfway), .act (.send done),
    .act (.advance (.sendPublish halfway ⟨0, 1, 1⟩ []) false),
    .act (.advance (.sendPublish done ⟨0, 2, 1⟩ []) true),
    .act (.advance (.sendRevert halfway ⟨0, 1, 1⟩ []) true)]

/-- The later of two sends takes back its own increment only. -/
theorem version_accounted_laterFails :
    ∃ s, Reach (· = {}) (Ledger.step done.jobId) (Ordered done.jobId) s ∧
      s.version done.jobId = some 8 ∧ s.account.base = 7 ∧ s.account.published = 1 ∧
      s.openSends done.jobId = 0 ∧ Accounted done.jobId s := by
  have hrun : Reach (· = {}) (Ledger.step done.jobId) (Ordered done.jobId) _ :=
    Reach.exec laterFails (.start rfl) (by decide +kernel) rfl
  exact ⟨_, hrun, rfl, rfl, rfl, rfl, version_accounted done.jobId hrun⟩

/-- The earlier of two sends takes the increment of the later one with it: the entry is back at
the version 1 after a successful publish. -/
theorem overlapping_revert :
    ∃ s, Reach (· = {}) (Ledger.step done.jobId) (fun _ _ => True) s ∧
      s.version done.jobId = some 1 ∧ s.account.base = 1 ∧ s.account.published = 1 ∧
      s.openSends done.jobId = 0 ∧ ¬ Accounted done.jobId s := by
  refine ⟨_, Reach.exec earlierFails (.start rfl) (by decide +kernel) rfl, rfl, rfl, rfl, rfl, ?_⟩
  intro h
  exact absurd (h.atRest 1 rfl rfl) (by decide)

end RainMakerNeo.Ota.Status
