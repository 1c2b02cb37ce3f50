import RainMakerNeo.Lib.Run
import RainMakerNeo.Ota.StatusListSteps

/-!
# `RainMakerNeo.Ota.StatusListShape`: the entry list stays well formed

Each call of the status manager makes at most one entry, and `wants` says for which job. The links,
the tail pointer, the job ids and the counter are in order after every call, those that fail
included. The numbers are distinct as long as no call makes an entry with the number of an entry
that is still in the list.
-/

set_option autoImplicit false

namespace RainMakerNeo.Ota.Status

open RainMakerNeo.Lib
open StatusList (wanted)

/-! ### The entries that a call makes -/

variable {c c' c'' : Cache} {e : JobEntries} {jobId : CStr}

/-- The cache has an entry for the job. -/
def Cache.Knows (c : Cache) (jobId : CStr) : Prop := ∃ e ∈ c.entries, e.jobId = jobId

/-- The search of the cache finds what the cache knows. -/
theorem Cache.findByJobId_eq_none : c.findByJobId jobId = none ↔ ¬c.Knows jobId := by
  simp [Cache.findByJobId, Cache.Knows]

/-- Every entry goes on, and no entry is new. -/
structure Keeps (c c' : Cache) : Prop where
  grows : Grows false c c'
  none_new : c'.nextPtr = c.nextPtr

/-- Nothing may change at all. -/
theorem Keeps.refl (c : Cache) : Keeps c c := ⟨.refl false c, rfl⟩

/-- Two calls without a new entry are one. -/
theorem Keeps.trans (h : Keeps c c') (h' : Keeps c' c'') : Keeps c c'' :=
  ⟨h.grows.trans h'.grows, h'.none_new.trans h.none_new⟩

/-- Without a new address there is no new entry. -/
theorem Keeps.of_grows (h : Grows true c c') (hnext : c'.nextPtr = c.nextPtr) : Keeps c c' :=
  ⟨h.weaken, hnext⟩

/-- The jobs of the entries stay known. -/
theorem Keeps.knows (h : Keeps c c') (hk : c.Knows jobId) : c'.Knows jobId := by
  obtain ⟨e, he, rfl⟩ := hk
  obtain ⟨e', he', hc⟩ := h.grows.fwd e he
  exact ⟨e', he', hc.jobId⟩

/-- The numbers are distinct when entries with one number are one entry. -/
theorem Cache.WF.numbers_nodup (h : c.WF) : (c.entries.map JobEntries.jobIdInt).Nodup ↔
    ∀ x ∈ c.entries, ∀ y ∈ c.entries, x.jobIdInt = y.jobIdInt → x.ptr = y.ptr := by
  constructor
  · intro hnodup x hx y hy heq
    rw [List.inj_on_of_nodup_map hnodup hx hy heq]
  · intro hinj
    refine List.Nodup.map_on ?_ h.ptrs.of_map
    intro x hx y hy heq
    exact eq_of_key_eq h.ptrs hx hy (hinj x hx y hy heq)

/-- A call that makes no entry leaves the numbers distinct, or not distinct, as they were. -/
theorem Keeps.numbers (h : Keeps c c') (hwf : c.WF) :
    (c'.entries.map JobEntries.jobIdInt).Nodup ↔ (c.entries.map JobEntries.jobIdInt).Nodup := by
  rw [hwf.numbers_nodup, (h.grows.wf hwf).numbers_nodup]
  have hback : ∀ x' ∈ c'.entries, ∃ x ∈ c.entries, x.Continues false x' := by
    intro x' hx'
    rcases h.grows.bwd x' hx' with hold | hnew
    · exact hold
    · have hlt := (h.grows.wf hwf).ptr_lt x' hx'
      rw [h.none_new] at hlt
      exact absurd hlt (Nat.not_lt.mpr hnew)
  constructor
  · intro hinj x hx y hy heq
    obtain ⟨x', hx', hxc⟩ := h.grows.fwd x hx
    obtain ⟨y', hy', hyc⟩ := h.grows.fwd y hy
    rw [← hxc.ptr, ← hyc.ptr]
    apply hinj x' hx' y' hy'
    rw [hxc.jobIdInt, hyc.jobIdInt, heq]
  · intro hinj x' hx' y' hy' heq
    obtain ⟨x, hx, hxc⟩ := hback x' hx'
    obtain ⟨y, hy, hyc⟩ := hback y' hy'
    rw [hxc.ptr, hyc.ptr]
    apply hinj x hx y hy
    rw [← hxc.jobIdInt, ← hyc.jobIdInt, heq]

/-- A new entry has a number of its own when no entry has the next number. -/
theorem Cache.numbers_addEntry
    (hnumbers : (c.entries.map JobEntries.jobIdInt).Nodup) :
    ((c.addEntry jobId).entries.map JobEntries.jobIdInt).Nodup ↔
      ∀ e ∈ c.entries, e.jobIdInt ≠ c.nextJobIdInt := by
  rw [Cache.addEntry, List.map_append, List.nodup_append]
  constructor
  · intro hnodup e he
    exact hnodup.2.2 _ (List.mem_map_of_mem he) _ (List.mem_singleton_self _)
  · intro hfresh
    refine ⟨hnumbers, List.nodup_singleton _, ?_⟩
    intro i hi j hj
    obtain ⟨e, he, rfl⟩ := List.mem_map.mp hi
    obtain rfl := List.mem_singleton.mp hj
    exact hfresh e he

/-- What a call does to the entries. `want` is the job that it makes an entry for, if there is
none. -/
inductive Effect (c : Cache) (want : Option CStr) (c' : Cache) : Prop
  | kept (h : Keeps c c') (hknown : ∀ jobId ∈ want, c.Knows jobId)
  | made (jobId : CStr) (hwant : want = some jobId) (hnew : ¬c.Knows jobId)
      (h : Keeps (c.addEntry jobId) c')
  | removed (e : JobEntries) (he : e ∈ c.entries) (hwant : want = none)
      (hc : c' = c.removeEntries e)

/-- A call that wants no entry may leave the entries. -/
theorem Effect.of_keeps (h : Keeps c c') : Effect c none c' := .kept h (by simp)

/-- A call keeps the cache in shape. -/
theorem Effect.wf {want : Option CStr} (h : Effect c want c') (hwf : c.WF) : c'.WF := by
  cases h with
  | kept h _ => exact h.grows.wf hwf
  | made jobId _ hnew h =>
    exact h.grows.wf ((c.addEntry_grows (Cache.findByJobId_eq_none.mpr hnew)).wf hwf)
  | removed e he _ hc =>
    rw [hc]
    exact Cache.removeEntries_wf hwf he

/-- It keeps the numbers distinct if and only if it makes no entry with a number that is taken. -/
theorem Effect.numbers {want : Option CStr} (h : Effect c want c') (hwf : c.WF)
    (hnumbers : (c.entries.map JobEntries.jobIdInt).Nodup) :
    (c'.entries.map JobEntries.jobIdInt).Nodup ↔
      ∀ jobId ∈ want, ¬c.Knows jobId → ∀ e ∈ c.entries, e.jobIdInt ≠ c.nextJobIdInt := by
  cases h with
  | kept h hknown =>
    rw [h.numbers hwf]
    exact ⟨fun _ jobId hj hno => absurd (hknown jobId hj) hno, fun _ => hnumbers⟩
  | made jobId hwant hnew h =>
    have hadd := (c.addEntry_grows (Cache.findByJobId_eq_none.mpr hnew)).wf hwf
    rw [h.numbers hadd, Cache.numbers_addEntry hnumbers, hwant]
    constructor
    · rintro hfresh _ ⟨rfl⟩ _
      exact hfresh
    · intro hfresh
      exact hfresh jobId rfl hnew
  | removed e he hwant hc =>
    subst hc hwant
    exact ⟨fun _ _ hj => absurd hj (by simp), fun _ => nodup_eraseKey _ hnumbers⟩

/-! ### Each call -/

variable {allocated : Bool}

/-- A failure made no entry, and none was wanted. -/
theorem Cache.getOrCreate_error_wanted {err : EspError}
    (h : c.getOrCreate jobId allocated = .error err) :
    wanted jobId (validJobId jobId) allocated = none := by
  rw [Cache.getOrCreate] at h
  rw [wanted]
  split at h
  · cases hfind : c.findByJobId jobId with
    | some e => simp [hfind] at h
    | none =>
      cases allocated with
      | true => simp [hfind] at h
      | false => rfl
  · rename_i hvalid
    rw [if_neg (by simp [hvalid])]

/-- A call that keeps the cache behind `getOrCreate` makes the wanted entry or none. -/
theorem Cache.getOrCreate_effect {c₁ : Cache} (h : c.getOrCreate jobId allocated = .ok (e, c₁))
    (hget : Gets c jobId e c₁) (hkeeps : Keeps c₁ c') :
    Effect c (wanted jobId (validJobId jobId) allocated) c' := by
  cases hget with
  | found he hid =>
    refine .kept hkeeps ?_
    intro j hj
    rw [wanted] at hj
    split at hj
    · obtain rfl := Option.some.inj hj
      exact ⟨e, he, hid⟩
    · cases hj
  | created hnone he =>
    refine .made jobId ?_ (Cache.findByJobId_eq_none.mp hnone) hkeeps
    rw [Cache.getOrCreate] at h
    rw [wanted]
    split at h
    · rename_i hvalid
      cases allocated with
      | true => rw [hvalid]; rfl
      | false => simp [hnone] at h
    · cases h

/-- A version is written into an entry that is there. -/
theorem Cache.setVersion_keeps (c : Cache) (ptr : Nat) (g : JobEntries → Int32) :
    Keeps c (c.update ptr fun e => { e with version := g e }) :=
  .of_grows (c.setVersion_grows ptr g) rfl

/-- So is the delay of a retry. -/
theorem Cache.schedule_keeps (c : Cache) (ptr delayMs : Nat) (scheduled : Bool) :
    Keeps c (c.scheduleOrResetRetry ptr delayMs scheduled).2 := by
  refine .of_grows (c.schedule_grows ptr delayMs scheduled) ?_
  rw [Cache.scheduleOrResetRetry]
  split <;> rfl

/-- So is a terminal update. -/
theorem Cache.cacheIfTerminal_keeps (c : Cache) (he : e ∈ c.entries) (u : StatusUpdate)
    (env : StatusEnv) : Keeps c (c.cacheIfTerminal e u env).2 := by
  refine .of_grows (c.cacheIfTerminal_grows he u env) ?_
  rw [Cache.cacheIfTerminal]
  split
  · rw [Cache.setCachedTerminal]
    split
    · rfl
    · rw [(Cache.schedule_keeps _ _ _ _).none_new]
      rfl
  · rfl

/-- A version for an unknown job makes its entry. -/
theorem Cache.overwriteVersion_effect (c : Cache) (jobId : CStr) (version : Int32)
    (allocated : Bool) : Effect c (wanted jobId (validJobId jobId) allocated)
      (c.overwriteVersion jobId version allocated).2 := by
  rw [Cache.overwriteVersion]
  split
  · rename_i hlen
    have hnone : wanted jobId (validJobId jobId) allocated = none := by
      rw [wanted, validJobId, hlen]
      simp
    rw [hnone]
    exact .of_keeps (.refl c)
  · rcases c.getOrCreate_cases jobId allocated with ⟨err, heq⟩ | ⟨e, c₁, heq, hget⟩
    · rw [heq, Cache.getOrCreate_error_wanted heq]
      exact .of_keeps (.refl c)
    · rw [heq]
      exact Cache.getOrCreate_effect heq hget (c₁.setVersion_keeps e.ptr fun _ => version)

/-- No entry is made for a job that has one. -/
theorem Effect.keeps_of_knows {valid : Bool} (h : Effect c (wanted jobId valid allocated) c')
    (hgrows : Grows true c c') (hk : c.Knows jobId) : Keeps c c' := by
  cases h with
  | kept h _ => exact h
  | made j hwant hnew _ =>
    rw [wanted] at hwant
    split at hwant
    · obtain rfl := Option.some.inj hwant
      exact absurd hk hnew
    · cases hwant
  | removed e he _ hc =>
    obtain ⟨e', he', hcont⟩ := hgrows.fwd e he
    rw [hc, Cache.mem_removeEntries] at he'
    exact absurd hcont.ptr he'.2

/-- For a known job it makes none. -/
theorem Cache.overwriteVersion_keeps (hk : c.Knows jobId) (version : Int32) (allocated : Bool) :
    Keeps c (c.overwriteVersion jobId version allocated).2 :=
  (c.overwriteVersion_effect jobId version allocated).keeps_of_knows
    (c.overwriteVersion_grows jobId version allocated) hk

/-- The same, for a valid job id only. -/
theorem Cache.setInitialExpectedVersion_effect (c : Cache) (jobId : CStr) (version : Int32)
    (allocated : Bool) : Effect c (wanted jobId (validJobId jobId) allocated)
      (c.setInitialExpectedVersion jobId version allocated).2 := by
  rw [Cache.setInitialExpectedVersion]
  split
  · exact c.overwriteVersion_effect jobId version allocated
  · rename_i hvalid
    rw [wanted, if_neg (by simp [hvalid])]
    exact .of_keeps (.refl c)

/-- A valid update for an unknown job makes its entry. -/
theorem Cache.otaStatusSend_effect (c : Cache) (u : StatusUpdate) (env : StatusEnv) :
    Effect c (wanted u.jobId (u.valid env.detailsValid) env.entryAllocated)
      (c.otaStatusSend u env).cache := by
  rw [Cache.otaStatusSend]
  split
  · rename_i hvalid
    have hjob : validJobId u.jobId = u.valid env.detailsValid := by
      rw [hvalid]
      rw [StatusUpdate.valid, Bool.and_eq_true, Bool.and_eq_true] at hvalid
      exact hvalid.1.1
    rw [← hjob, Cache.sendPrepare]
    rcases c.getOrCreate_cases u.jobId env.entryAllocated with ⟨err, heq⟩ | ⟨e, c₁, heq, hget⟩
    · rw [Cache.getOrCreate_error_wanted heq, heq]
      cases err with
      | ok => exact absurd heq (c.getOrCreate_ne_ok u.jobId env.entryAllocated)
      | _ => exact .of_keeps (.refl c)
    · have hknows : c₁.Knows u.jobId := ⟨e, hget.mem, hget.jobId_eq⟩
      have hcached := c₁.cacheIfTerminal_keeps hget.mem u env
      refine Cache.getOrCreate_effect heq hget ?_
      rw [heq]
      dsimp only
      by_cases hok : (c₁.cacheIfTerminal e u env).1 = .ok
      · rw [if_pos hok]
        have hversion := hcached.trans (Cache.setVersion_keeps _ e.ptr fun x => x.version + 1)
        dsimp only
        split
        · exact hversion
        · exact hversion.trans (Cache.overwriteVersion_keeps (hversion.knows hknows) _ _)
      · rw [if_neg hok]
        generalize (c₁.cacheIfTerminal e u env).1 = err at hok
        cases err with
        | ok => exact absurd rfl hok
        | _ => exact hcached
  · rename_i hvalid
    rw [wanted, if_neg (by simp [hvalid])]
    exact .of_keeps (.refl c)

/-- For a known job it makes none. -/
theorem Cache.otaStatusSend_keeps {u : StatusUpdate} (hk : c.Knows u.jobId) (env : StatusEnv) :
    Keeps c (c.otaStatusSend u env).cache :=
  (c.otaStatusSend_effect u env).keeps_of_knows (c.otaStatusSend_grows u env) hk

/-- The entry of a job is the only one that is removed. -/
theorem Cache.clearJobEntries_effect (c : Cache) (jobId : CStr) :
    Effect c none (c.clearJobEntries jobId) := by
  rw [Cache.clearJobEntries]
  split
  · exact .of_keeps (.refl c)
  · cases hfind : c.findByJobId jobId with
    | none => exact .of_keeps (.refl c)
    | some e => exact .removed e (List.mem_of_find?_eq_some hfind) rfl rfl

/-- Updates of known jobs are sent again without a new entry. -/
theorem Cache.resend_keeps (c : Cache) (envs : Nat → StatusEnv) {us : List StatusUpdate} (i : Nat)
    (hus : ∀ u ∈ us, c.Knows u.jobId) : Keeps c (c.resend envs i us).1 := by
  induction us generalizing c i with
  | nil => exact .refl c
  | cons u us ih =>
    have hsend := Cache.otaStatusSend_keeps (hus u List.mem_cons_self) (envs i)
    exact hsend.trans (ih _ (i + 1) fun v hv => hsend.knows (hus v (List.mem_cons_of_mem u hv)))

/-- A resend makes no entry: each copied update comes from one. -/
theorem Cache.resendPendingTerminals_keeps (c : Cache) (snapshotAllocated : Bool)
    (copied : Nat → Bool) (envs : Nat → StatusEnv) :
    Keeps c (c.resendPendingTerminals snapshotAllocated copied envs).1 := by
  rw [Cache.resendPendingTerminals]
  split
  · apply c.resend_keeps envs 0
    intro u hu
    rw [Cache.pendingTerminals, List.mem_mapIdx] at hu
    obtain ⟨i, hi, rfl⟩ := hu
    have hmem := List.mem_of_mem_take (List.getElem_mem hi)
    exact ⟨_, (List.mem_filter.mp hmem).1, rfl⟩
  · exact .refl c

/-- A rejected update is sent again, given up, or tried later. -/
theorem Cache.onReject_effect (c : Cache) (he : e ∈ c.entries) (ret : ResponseReturn)
    (payload : ResponsePayload) (env sendEnv : StatusEnv) :
    Effect c none ((c.onReject e ret payload env).resent sendEnv) := by
  rw [Cache.onReject]
  split
  · exact .of_keeps (.refl c)
  · split
    · cases strToUint32 payload.versionNumber with
      | none => exact .of_keeps (.refl c)
      | some version =>
        have hversion := c.setVersion_keeps e.ptr fun _ => version.toInt32
        dsimp only
        split
        · -- The cached update is sent again for the same job.
          exact .of_keeps (hversion.trans
            (Cache.otaStatusSend_keeps (hversion.knows ⟨e, he, rfl⟩) sendEnv))
        · exact .of_keeps hversion
    · split
      · exact .removed e he rfl rfl
      · show Effect c none (if e.hasCachedTerminal then _ else c)
        split
        · exact .of_keeps (c.schedule_keeps e.ptr e.retryDelayMs env.scheduled)
        · exact .of_keeps (.refl c)

/-- A response removes the entry that it answers, or it makes none. -/
theorem Cache.onUpdateResponse_effect (c : Cache) (payload : ResponsePayload) (accepted : Bool)
    (env sendEnv : StatusEnv) :
    Effect c none ((c.onResponseLocked payload accepted env).resent sendEnv) := by
  rw [Cache.onResponseLocked]
  cases readToken payload.clientToken with
  | none => exact .of_keeps (.refl c)
  | some token =>
    obtain ⟨terminal, jobIdInt⟩ := token
    dsimp only
    cases hfind : c.findByInt jobIdInt with
    | none => exact .of_keeps (.refl c)
    | some e =>
      have he : e ∈ c.entries := List.mem_of_find?_eq_some hfind
      cases accepted with
      | true =>
        cases terminal with
        | true => exact .removed e he rfl rfl
        | false => exact .of_keeps (.refl c)
      | false => exact c.onReject_effect he _ payload env sendEnv

/-- A retry changes the delay and the version of its entry. -/
theorem Cache.retrySections_keeps (c : Cache) (he : e ∈ c.entries) (env : StatusEnv) :
    Keeps c (c.retrySections e env) := by
  rw [Cache.retrySections]
  split
  · have hretried : Keeps c (c.update e.ptr JobEntries.retried) :=
      .of_grows (c.update_grows e.ptr (fun _ => ⟨rfl, rfl, rfl, id, fun _ => id⟩) fun _ => rfl) rfl
    dsimp only
    split
    · exact hretried.trans (Cache.schedule_keeps _ _ _ _)
    · exact (hretried.trans (Cache.overwriteVersion_keeps (hretried.knows ⟨e, he, rfl⟩) _ _)).trans
        (Cache.schedule_keeps _ _ _ _)
  · exact .refl c

/-! ### The list in memory -/

namespace StatusList

variable {base : Nat} {s t : StatusList} {p : Nat}

/-! No call but a removal and the deinitialization frees an entry. -/

/-- A new entry frees nothing. -/
theorem live_addEntry {q : Nat} (h : s.addEntry jobId = some (p, t)) (hq : s.nodes.Live q) :
    t.nodes.Live q := by
  obtain ⟨u, happend, heq⟩ := Option.bind_eq_some_iff.mp h
  cases heq
  have halloc : (s.nodes.alloc { jobId, jobIdInt := s.nextJobIdInt }).1.Live q := by
    rw [Heap.Live, Heap.load_alloc_of_live hq]
    exact hq
  rw [append] at happend
  split at happend
  · cases happend
    exact halloc
  · obtain ⟨last, -, hrest⟩ := Option.bind_eq_some_iff.mp happend
    obtain ⟨v, hwrite, heq⟩ := Option.bind_eq_some_iff.mp hrest
    cases heq
    exact live_write hwrite halloc

variable {allocated : Bool} {op : Op}

/-- Nor does the search before it. -/
theorem live_getOrCreate {q : Nat} (h : s.getOrCreate jobId allocated = some (.ok (p, t)))
    (hq : s.nodes.Live q) : t.nodes.Live q := by
  rw [getOrCreate] at h
  split at h
  · obtain ⟨found, -, hrest⟩ := Option.bind_eq_some_iff.mp h
    cases found with
    | some p' =>
      cases hrest
      exact hq
    | none =>
      cases allocated with
      | true =>
        obtain ⟨r, hadd, heq⟩ := Option.bind_eq_some_iff.mp hrest
        cases heq
        exact live_addEntry hadd hq
      | false => cases hrest
  · cases h

/-- Nor does a version. -/
theorem live_overwriteVersion {version : Int32} {err : EspError} {q : Nat}
    (h : s.overwriteVersion jobId version allocated = some (err, t)) (hq : s.nodes.Live q) :
    t.nodes.Live q := by
  rw [overwriteVersion] at h
  split at h
  · cases h
    exact hq
  · obtain ⟨r, hcreate, hrest⟩ := Option.bind_eq_some_iff.mp h
    cases r with
    | error err =>
      cases hrest
      exact hq
    | ok r =>
      obtain ⟨u, hwrite, heq⟩ := Option.bind_eq_some_iff.mp hrest
      cases heq
      exact live_write hwrite (live_getOrCreate hcreate hq)

namespace Shows

variable (h : Shows base s c)
include h

/-- The list that shows a cache in shape has its shape. -/
theorem shaped (hwf : c.WF) :
    ∃ l, s.Shaped l ∧ (l.map fun q => q.2.jobIdInt) = c.entries.map JobEntries.jobIdInt := by
  obtain ⟨l, hl, haddr, hentries⟩ := h.entries
  have hmap {α : Type} (f : JobEntries → α) (g : EntryNode → α)
      (hfg : ∀ n p, f (EntryNode.entry n p) = g n) :
      l.map (fun q => g q.2) = c.entries.map f := by
    rw [← hentries, List.map_map]
    exact List.map_congr_left fun q _ => (hfg q.2 _).symm
  refine ⟨l, ⟨hl, ?_, ?_, ?_⟩, hmap JobEntries.jobIdInt EntryNode.jobIdInt fun _ _ => rfl⟩
  · rw [haddr]
    exact h.chained.tail
  · rw [hmap JobEntries.jobId EntryNode.jobId fun _ _ => rfl]
    exact hwf.ids
  · have hcount := congrArg (List.countP id)
      (hmap JobEntries.hasCachedTerminal EntryNode.hasCachedTerminal fun _ _ => rfl)
    rw [List.countP_map, List.countP_map] at hcount
    exact h.count.trans (hwf.counted.trans hcount.symm)

/-- Then the numbers decide whether it is well formed. -/
theorem wellFormed_iff (hwf : c.WF) : s.WellFormed ↔ (c.entries.map JobEntries.jobIdInt).Nodup := by
  obtain ⟨l, hshaped, hnumbers⟩ := h.shaped hwf
  rw [← hnumbers]
  constructor
  · rintro ⟨l', hshaped', hnodup⟩
    have hl := hshaped'.entries
    rw [hshaped.entries] at hl
    obtain rfl := Option.some.inj hl
    exact hnodup
  · intro hnodup
    exact ⟨l, hshaped, hnodup⟩

/-- The condition, on the entries of the cache. -/
theorem fresh_iff (op : Op) : s.Fresh op ↔
    ∀ jobId ∈ s.wants op, ¬c.Knows jobId → ∀ e ∈ c.entries, e.jobIdInt ≠ c.nextJobIdInt := by
  obtain ⟨l, hl, -, hentries⟩ := h.entries
  have hforall (P : EntryNode → Prop) (Q : JobEntries → Prop)
      (hPQ : ∀ n p, Q (EntryNode.entry n p) ↔ P n) :
      (∀ q ∈ l, P q.2) ↔ ∀ e ∈ c.entries, Q e := by
    rw [← hentries, List.forall_mem_map]
    exact forall₂_congr fun q _ => (hPQ q.2 _).symm
  have hknows (jobId : CStr) : (∀ q ∈ l, q.2.jobId ≠ jobId) ↔ ¬c.Knows jobId := by
    rw [hforall (fun n => n.jobId ≠ jobId) (fun e => e.jobId ≠ jobId) fun _ _ => Iff.rfl,
      Cache.Knows]
    push Not
    rfl
  have hnumber := hforall (fun n => n.jobIdInt ≠ s.nextJobIdInt)
    (fun e => e.jobIdInt ≠ c.nextJobIdInt) fun n p => by rw [h.nextJobIdInt]; rfl
  constructor
  · intro hfresh jobId hj hno
    exact hnumber.mp (hfresh jobId hj l hl ((hknows jobId).mpr hno))
  · intro hfresh jobId hj l' hl' hno
    rw [hl] at hl'
    obtain rfl := Option.some.inj hl'
    exact hnumber.mpr (hfresh jobId hj ((hknows jobId).mp hno))

/-- A block outside the list stays outside: the new entries come behind all blocks. -/
theorem outside_of_grows (hlive : s.nodes.Live p) (hp : p ∉ addresses base c.entries)
    (hgrows : Grows true c c') : p ∉ addresses base c'.entries := by
  intro hmem
  obtain ⟨e', he', rfl⟩ := exists_of_mem_addresses hmem
  rcases hgrows.bwd e' he' with ⟨e, he, hcont⟩ | hnew
  · apply hp
    rw [hcont.ptr]
    exact mem_addresses he
  · obtain ⟨n, hn⟩ := Option.isSome_iff_exists.mp hlive
    have hlt := Heap.lt_of_load hn
    rw [h.room] at hlt
    omega

/-- The timer of an entry that is not in the list leaves the list. -/
theorem schedule_outside (hp : p ∉ addresses base c.entries) (hlive : s.nodes.Live p)
    (delayMs : Nat) (scheduled : Bool) :
    ∃ err t, s.scheduleOrResetRetry p delayMs scheduled = some (err, t) ∧ Shows base t c := by
  obtain ⟨n, hn⟩ := Option.isSome_iff_exists.mp hlive
  rw [StatusList.scheduleOrResetRetry, hn]
  cases scheduled with
  | true =>
    obtain ⟨nodes, -, hwrite⟩ := write_eq
      (fun n => { n with retryHandle := some (some delayMs) }) hn
    refine ⟨.ok, _, ?_, h.write_outside hp hwrite⟩
    show (s.write p _).bind _ = _
    rw [hwrite]
    rfl
  | false => exact ⟨.fail, s, rfl, h⟩

/-- The retry task of an entry that is not in the list comes to the list only when the version goes
back. -/
theorem retryTask_outside {n : EntryNode} (hp : p ∉ addresses base c.entries)
    (hn : s.nodes.load p = some n) (env : StatusEnv) :
    ∃ t c', s.retryTask p env = some t ∧ Shows base t c' ∧
      Effect c (s.wants (.timer p env)) c' := by
  have hwants : s.wants (.timer p env) =
      if n.hasCachedTerminal && decide (publishUpdate n.version env.published ≠ .ok) then
        wanted n.jobId (validJobId n.jobId) env.entryAllocated
      else none := by
    rw [wants, hn]
    rfl
  rw [hwants, StatusList.retryTask, hn]
  simp only [Option.bind_eq_bind, Option.bind_some]
  cases hcached : n.hasCachedTerminal with
  | false => exact ⟨s, c, rfl, h, .of_keeps (.refl c)⟩
  | true =>
    obtain ⟨nodes, -, hwrite⟩ := write_eq (fun m => { m with
      version := m.version + 1, retryDelayMs := (n.entry p).nextDelay }) hn
    have hs₁ := h.write_outside hp hwrite
    have hlive₁ := live_write hwrite (Heap.live_of_load hn)
    rw [if_pos rfl, hwrite]
    simp only [Option.bind_some, Bool.true_and]
    split
    · rename_i hpublish
      obtain ⟨err, t, hschedule, ht⟩ := hs₁.schedule_outside hp hlive₁ (n.entry p).nextDelay
        env.scheduled
      refine ⟨t, c, ?_, ht, ?_⟩
      · rw [hschedule]
        rfl
      · rw [if_neg (by simp [hpublish])]
        exact .of_keeps (.refl c)
    · rename_i hpublish
      obtain ⟨s₂, hback, hs₂⟩ := hs₁.overwriteVersion n.jobId n.version env.entryAllocated
      have hp₂ := hs₁.outside_of_grows hlive₁ hp
        (c.overwriteVersion_grows n.jobId n.version env.entryAllocated)
      obtain ⟨err, t, hschedule, ht⟩ := hs₂.schedule_outside hp₂
        (live_overwriteVersion hback hlive₁) (n.entry p).nextDelay env.scheduled
      refine ⟨t, _, ?_, ht, ?_⟩
      · rw [hback]
        show (s₂.scheduleOrResetRetry p _ _).bind _ = _
        rw [hschedule]
        rfl
      · rw [if_pos (by simp [hpublish])]
        exact c.overwriteVersion_effect n.jobId n.version env.entryAllocated

/-- A timer fires. -/
theorem fire {n : EntryNode} (hn : s.nodes.load p = some n) (harmed : n.armed = true)
    (env : StatusEnv) :
    ∃ t c', s.fire p env = some t ∧ Shows base t c' ∧ Effect c (s.wants (.timer p env)) c' := by
  obtain ⟨nodes, hstore, hwrite⟩ := write_eq (fun m => { m with retryHandle := some none }) hn
  have hn₁ : nodes.load p = some { n with retryHandle := some none } := Heap.load_store_self hstore
  have hfire : s.fire p env = StatusList.retryTask { s with nodes } p env := by
    rw [StatusList.fire, hn]
    simp only [Option.bind_eq_bind, Option.bind_some, harmed, if_true, hwrite]
  have hwants : s.wants (.timer p env) = wants { s with nodes } (.timer p env) := by
    rw [wants, wants, hn, show (StatusList.nodes _).load p = _ from hn₁]
    rfl
  rw [hfire, hwants]
  by_cases hp : p ∈ addresses base c.entries
  · obtain ⟨e, he, rfl⟩ := exists_of_mem_addresses hp
    obtain ⟨m, hm, hentry⟩ := h.load he
    obtain rfl : n = m := Option.some.inj (hn.symm.trans hm)
    obtain ⟨s₁, hwrite₁, hs₁⟩ := h.write (Cache.has_of_mem he)
      (f := fun n => { n with retryHandle := some none }) (fun e => { e with timer := none })
      (fun _ _ => rfl) (fun _ => rfl) fun _ => rfl
    obtain rfl : { s with nodes } = s₁ := Option.some.inj (hwrite.symm.trans hwrite₁)
    have he₁ : { e with timer := none } ∈
        (c.update e.ptr fun e => { e with timer := none }).entries := mem_modifyKey_self he rfl
    obtain ⟨t, ht, hshows⟩ := hs₁.retryTask he₁ env
    have hoff : Keeps c (c.update e.ptr fun e => { e with timer := none }) :=
      ⟨c.update_grows e.ptr (fun _ => ⟨rfl, rfl, rfl, id, nofun⟩) fun _ => rfl, rfl⟩
    refine ⟨t, _, ht, hshows, .kept (hoff.trans (Cache.retrySections_keeps _ he₁ env)) ?_⟩
    intro jobId hj
    -- The version goes back for the job of the entry, which is in the list.
    have hjob : jobId = e.jobId := by
      rw [wants, hn₁] at hj
      simp only [Option.bind_eq_bind, Option.bind_some] at hj
      split at hj
      · rw [wanted] at hj
        split at hj
        · rw [← Option.some.inj hj]
          exact congrArg JobEntries.jobId hentry
        · cases hj
      · cases hj
    exact ⟨e, he, hjob.symm⟩
  · exact (h.write_outside hp hwrite).retryTask_outside hp hn₁ env

/-- The ends of a call: there is no cache any more, there is a new one, or the call has done to the
entries what it wants. -/
inductive Outcome (base : Nat) (s : StatusList) (c : Cache) (op : Op) (t : StatusList) : Prop
  | gone (hwants : s.wants op = none) (ht : t = { nodes := t.nodes })
  | anew (hwants : s.wants op = none) (ht : t = { nodes := t.nodes, present := true })
  | shown (c' : Cache) (h : Shows base t c') (heffect : Effect c (s.wants op) c')

/-- Each call on a list that shows a cache ends. -/
theorem step (op : Op) (hready : s.Ready op) : ∃ t, s.step op = some t ∧ Outcome base s c op t := by
  cases op with
  | init nameValid cacheAllocated mutexCreated =>
    refine ⟨_, rfl, ?_⟩
    cases nameValid with
    | false => exact .shown c h (.of_keeps (.refl c))
    | true =>
      cases hmade : cacheAllocated && mutexCreated with
      | false => exact .gone rfl (by simp [init, hmade])
      | true => exact .anew rfl (by simp [init, hmade])
  | deinit =>
    obtain ⟨nodes, hnodes⟩ := h.deinit
    exact ⟨_, hnodes, .gone rfl rfl⟩
  | setVersion jobId version allocated =>
    obtain ⟨t, ht, hshows⟩ := h.setInitialExpectedVersion jobId version allocated
    refine ⟨t, ?_, .shown _ hshows (c.setInitialExpectedVersion_effect jobId version allocated)⟩
    rw [StatusList.step, ht]
    rfl
  | send u env =>
    obtain ⟨t, ht, hshows⟩ := h.otaStatusSend u env
    refine ⟨t, ?_, .shown _ hshows (c.otaStatusSend_effect u env)⟩
    rw [StatusList.step, ht]
    rfl
  | clear jobId =>
    obtain ⟨t, ht, hshows⟩ := h.clearJobEntries jobId
    exact ⟨t, ht, .shown _ hshows (c.clearJobEntries_effect jobId)⟩
  | resend snapshotAllocated copied envs =>
    obtain ⟨t, ht, hshows⟩ := h.resendPendingTerminals snapshotAllocated copied envs
    exact ⟨t, ht, .shown _ hshows
      (.of_keeps (c.resendPendingTerminals_keeps snapshotAllocated copied envs))⟩
  | response payload accepted env sendEnv =>
    obtain ⟨t, ht, hshows⟩ := h.onUpdateResponse payload accepted env sendEnv
    refine ⟨t, ?_, .shown _ hshows (c.onUpdateResponse_effect payload accepted env sendEnv)⟩
    rw [StatusList.step, ht]
    rfl
  | timer p env =>
    obtain ⟨-, harmed⟩ := hready
    cases hn : s.nodes.load p with
    | none => simp [hn] at harmed
    | some n =>
      rw [hn] at harmed
      obtain ⟨t, c', ht, hshows, heffect⟩ := h.fire hn harmed env
      exact ⟨t, ht, .shown c' hshows heffect⟩

end Shows

/-! ### Runs -/

/-- Either there is no cache, or the memory shows one that is in shape. -/
inductive Inv (s : StatusList) : Prop
  | absent (hs : s = { nodes := s.nodes })
  | shown (base : Nat) (c : Cache) (h : Shows base s c) (hwf : c.WF)

/-- After the initialization the list is empty. -/
theorem inv_new (hs : s = { nodes := s.nodes, present := true }) : Inv s := by
  rw [hs]
  exact .shown _ _ (shows_initial s.nodes) Cache.wf_initial

/-- Without a cache there is no list. -/
theorem shaped_of_absent (hs : s = { nodes := s.nodes }) : s.Shaped [] := by
  rw [hs]
  exact ⟨by rw [entries, collect], rfl, List.nodup_nil, rfl⟩

/-- The list has its shape in both cases. -/
theorem Inv.shaped (h : Inv s) : ∃ l, s.Shaped l := by
  cases h with
  | absent hs => exact ⟨[], shaped_of_absent hs⟩
  | shown base c h hwf =>
    obtain ⟨l, hl, -⟩ := h.shaped hwf
    exact ⟨l, hl⟩

/-- Without a cache all is in order. -/
theorem wellFormed_of_absent (hs : s = { nodes := s.nodes }) : s.WellFormed :=
  ⟨[], shaped_of_absent hs, List.nodup_nil⟩

/-- An empty list is well formed. -/
theorem wellFormed_new (hs : s = { nodes := s.nodes, present := true }) : s.WellFormed := by
  rw [hs]
  exact ((shows_initial s.nodes).wellFormed_iff Cache.wf_initial).mpr List.nodup_nil

/-! Without a cache, the calls that come to an end change nothing but the memory of an entry whose
timer fires. -/

/-- The search of an entry is an error. -/
theorem getOrCreate_absent {r : Except EspError (Nat × StatusList)} (hs : s.present = false)
    (h : s.getOrCreate jobId allocated = some r) : r = .error .invalidArg := by
  rw [getOrCreate] at h
  split at h
  · rw [findByJobId, findEntry, if_neg (by simp [hs])] at h
    cases h
  · exact (Option.some.inj h).symm

/-- So a version is not written. -/
theorem overwriteVersion_absent {version : Int32} {r : EspError × StatusList}
    (hs : s.present = false) (h : s.overwriteVersion jobId version allocated = some r) :
    r.2 = s := by
  rw [overwriteVersion] at h
  split at h
  · rw [← Option.some.inj h]
  · obtain ⟨made, hmade, hrest⟩ := Option.bind_eq_some_iff.mp h
    obtain rfl := getOrCreate_absent hs hmade
    rw [← Option.some.inj hrest]

section
variable (hs : s = { nodes := s.nodes })
include hs

/-- A write changes the memory only. -/
theorem nodes_of_write {f : EntryNode → EntryNode} (h : s.write p f = some t) :
    t = { nodes := t.nodes } := by
  obtain ⟨n, nodes, -, -, rfl⟩ := eq_of_write h
  rw [hs]

/-- So does a schedule. -/
theorem nodes_of_schedule {delayMs : Nat} {scheduled : Bool} {r : EspError × StatusList}
    (h : s.scheduleOrResetRetry p delayMs scheduled = some r) : r.2 = { nodes := r.2.nodes } := by
  obtain ⟨n, -, hrest⟩ := Option.bind_eq_some_iff.mp h
  cases scheduled with
  | true =>
    obtain ⟨t, hwrite, heq⟩ := Option.bind_eq_some_iff.mp hrest
    rw [← Option.some.inj heq]
    exact nodes_of_write hs hwrite
  | false =>
    rw [← Option.some.inj hrest]
    exact hs

/-- So does a retry. -/
theorem nodes_of_retryTask {env : StatusEnv} (h : s.retryTask p env = some t) :
    t = { nodes := t.nodes } := by
  obtain ⟨n, -, hrest⟩ := Option.bind_eq_some_iff.mp h
  split at hrest
  · obtain ⟨s₁, hwrite, hrest⟩ := Option.bind_eq_some_iff.mp hrest
    have hs₁ := nodes_of_write hs hwrite
    split at hrest
    · obtain ⟨r, hschedule, heq⟩ := Option.bind_eq_some_iff.mp hrest
      obtain rfl := Option.some.inj heq
      exact nodes_of_schedule hs₁ hschedule
    · obtain ⟨r, hback, hrest⟩ := Option.bind_eq_some_iff.mp hrest
      have hr := overwriteVersion_absent (by rw [hs₁]) hback
      obtain ⟨r', hschedule, heq⟩ := Option.bind_eq_some_iff.mp hrest
      obtain rfl := Option.some.inj heq
      rw [hr] at hschedule
      exact nodes_of_schedule hs₁ hschedule
  · obtain rfl := Option.some.inj hrest
    exact hs

/-- Without a cache, only the initialization makes one. -/
theorem step_absent (ht : s.step op = some t) :
    t = { nodes := t.nodes } ∨ t = { nodes := t.nodes, present := true } := by
  have hpresent : s.present = false := by rw [hs]
  cases op with
  | init nameValid cacheAllocated mutexCreated =>
    obtain rfl := Option.some.inj ht
    cases nameValid with
    | false => exact .inl hs
    | true =>
      cases hmade : cacheAllocated && mutexCreated with
      | false => exact .inl (by simp [init, hmade])
      | true => exact .inr (by simp [init, hmade])
  | deinit =>
    rw [step, deinit, if_neg (by simp [hpresent])] at ht
    obtain rfl := Option.some.inj ht
    exact .inl hs
  | setVersion jobId version allocated =>
    obtain ⟨r, hr, rfl⟩ := Option.map_eq_some_iff.mp ht
    rw [setInitialExpectedVersion] at hr
    split at hr
    · rw [overwriteVersion_absent hpresent hr]
      exact .inl hs
    · rw [← Option.some.inj hr]
      exact .inl hs
  | send u env =>
    obtain ⟨r, hr, rfl⟩ := Option.map_eq_some_iff.mp ht
    rw [otaStatusSend] at hr
    split at hr
    · obtain ⟨made, hmade, hrest⟩ := Option.bind_eq_some_iff.mp hr
      obtain rfl := getOrCreate_absent hpresent hmade
      rw [← Option.some.inj hrest]
      exact .inl hs
    · rw [← Option.some.inj hr]
      exact .inl hs
  | clear jobId =>
    rw [step, clearJobEntries, if_pos (.inr hpresent)] at ht
    obtain rfl := Option.some.inj ht
    exact .inl hs
  | resend snapshotAllocated copied envs =>
    rw [step, resendPendingTerminals, if_pos (.inl hpresent)] at ht
    obtain rfl := Option.some.inj ht
    exact .inl hs
  | response payload accepted env sendEnv =>
    obtain ⟨r, hr, rfl⟩ := Option.map_eq_some_iff.mp ht
    rw [onUpdateResponse] at hr
    cases htoken : readToken payload.clientToken with
    | none =>
      simp only [htoken] at hr
      rw [← Option.some.inj hr]
      exact .inl hs
    | some token =>
      simp only [htoken, findByInt, findEntry, hpresent, Bool.false_eq_true, if_false,
        Option.bind_eq_bind, Option.bind_none] at hr
      cases hr
  | timer p env =>
    obtain ⟨n, -, hrest⟩ := Option.bind_eq_some_iff.mp ht
    split at hrest
    · obtain ⟨s₁, hwrite, hrest⟩ := Option.bind_eq_some_iff.mp hrest
      exact .inl (nodes_of_retryTask (nodes_of_write hs hwrite) hrest)
    · cases hrest

end

/-- With a cache, the calls that come to an end are ready. -/
theorem ready_of_step (hpresent : s.present = true) (ht : s.step op = some t) : s.Ready op := by
  cases op with
  | timer p env =>
    refine ⟨hpresent, ?_⟩
    obtain ⟨n, hn, hrest⟩ := Option.bind_eq_some_iff.mp ht
    split at hrest
    · rename_i harmed
      rw [hn]
      exact harmed
    · cases hrest
  | setVersion jobId version allocated => exact hpresent
  | send u env => exact hpresent
  | response payload accepted env sendEnv => exact hpresent
  | init nameValid cacheAllocated mutexCreated => trivial
  | deinit => trivial
  | clear jobId => trivial
  | resend snapshotAllocated copied envs => trivial

/-- Each call keeps the shape of the list. -/
theorem inv_step (hi : Inv s) (ht : s.step op = some t) : Inv t := by
  cases hi with
  | absent hs =>
    rcases step_absent hs ht with hnone | hmade
    · exact .absent hnone
    · exact inv_new hmade
  | shown base c h hwf =>
    obtain ⟨t', ht', houtcome⟩ := h.step op (ready_of_step h.present ht)
    obtain rfl := Option.some.inj (ht'.symm.trans ht)
    cases houtcome with
    | gone _ ht => exact .absent ht
    | anew _ ht => exact inv_new ht
    | shown c' h' heffect => exact .shown base c' h' (heffect.wf hwf)

/-- A call that makes no entry takes no number. -/
theorem fresh_of_none (h : s.wants op = none) : s.Fresh op := by
  intro jobId hj
  rw [h] at hj
  cases hj

/-- A call keeps the list well formed if and only if its number is fresh. -/
theorem wellFormed_step (hi : Inv s) (hw : s.WellFormed) (ht : s.step op = some t) :
    t.WellFormed ↔ s.Fresh op := by
  cases hi with
  | absent hs =>
    refine iff_of_true ?_ ?_
    · rcases step_absent hs ht with hnone | hmade
      · exact wellFormed_of_absent hnone
      · exact wellFormed_new hmade
    · -- There is no entry that has the number.
      intro jobId _ l hl _ q hq
      rw [(shaped_of_absent hs).entries] at hl
      obtain rfl := Option.some.inj hl
      cases hq
  | shown base c h hwf =>
    have hnumbers := (h.wellFormed_iff hwf).mp hw
    obtain ⟨t', ht', houtcome⟩ := h.step op (ready_of_step h.present ht)
    obtain rfl := Option.some.inj (ht'.symm.trans ht)
    cases houtcome with
    | gone hwants ht => exact iff_of_true (wellFormed_of_absent ht) (fresh_of_none hwants)
    | anew hwants ht => exact iff_of_true (wellFormed_new ht) (fresh_of_none hwants)
    | shown c' h' heffect =>
      rw [h'.wellFormed_iff (heffect.wf hwf), heffect.numbers hwf hnumbers, h.fresh_iff]

/-- A ready call comes to an end. -/
theorem step_isSome (hi : Inv s) (hready : s.Ready op) : (s.step op).isSome = true := by
  cases hi with
  | absent hs =>
    have hpresent : s.present = false := by rw [hs]
    cases op with
    | init nameValid cacheAllocated mutexCreated => rfl
    | deinit =>
      rw [step, deinit, if_neg (by simp [hpresent])]
      rfl
    | clear jobId =>
      rw [step, clearJobEntries, if_pos (.inr hpresent)]
      rfl
    | resend snapshotAllocated copied envs =>
      rw [step, resendPendingTerminals, if_pos (.inl hpresent)]
      rfl
    | setVersion jobId version allocated => exact absurd hready (by simp [Ready, hpresent])
    | send u env => exact absurd hready (by simp [Ready, hpresent])
    | response payload accepted env sendEnv => exact absurd hready (by simp [Ready, hpresent])
    | timer p env => exact absurd hready (by simp [Ready, hpresent])
  | shown base c h hwf =>
    obtain ⟨t, ht, -⟩ := h.step op hready
    rw [ht]
    rfl

/-- The numbers are distinct while there were fewer than `2 ^ 32` entries. -/
theorem Inv.wellFormed (hi : Inv s) (hfew : s.nodes.blocks.length < 2 ^ 32) : s.WellFormed := by
  cases hi with
  | absent hs => exact wellFormed_of_absent hs
  | shown base c h hwf =>
    rw [h.wellFormed_iff hwf, hwf.numbers_nodup]
    intro x hx y hy heq
    have hsize : UInt32.size = 2 ^ 32 := rfl
    have hroom := h.room
    have hxlt := hwf.ptr_lt x hx
    have hylt := hwf.ptr_lt y hy
    rw [hwf.numbered x hx, hwf.numbered y hy] at heq
    have hnat := congrArg UInt32.toNat heq
    rw [UInt32.toNat_ofNat_of_lt' (by omega), UInt32.toNat_ofNat_of_lt' (by omega)] at hnat
    omega

/-- The first initialization brings the list into shape. -/
theorem inv_of_initial (h : Initial s) : Inv s := by
  rw [Initial] at h
  subst h
  exact .absent rfl

/-- After every sequence of calls the list has its shape, and a call that is ready comes to an end.
The list is well formed while there were fewer than `2 ^ 32` entries. It stays well formed as long
as no call makes an entry with the number of another one, and no longer. -/
theorem wellFormed_of_run (ops : List Op) {s : StatusList} (hs : exec step {} ops = some s) :
    (∃ l, s.Shaped l) ∧ (∀ op, s.Ready op → (s.step op).isSome = true) ∧
      (s.nodes.blocks.length < 2 ^ 32 → s.WellFormed) ∧
      (execGuard step (fun s op => decide (s.Fresh op)) {} ops = true →
        s.WellFormed ∧ ∀ op t, s.step op = some t → (t.WellFormed ↔ s.Fresh op)) := by
  have hreach : Reach Initial step (fun _ _ => True) s := .exec_true ops (.start rfl) hs
  have hi : Inv s := hreach.inv Inv (fun _ => inv_of_initial) fun _ _ _ hi _ ht => inv_step hi ht
  refine ⟨hi.shaped, fun op hready => step_isSome hi hready, hi.wellFormed, ?_⟩
  intro hfresh
  have hguarded : Reach Initial step Fresh s := .exec ops (.start rfl) hfresh hs
  have hboth : Inv s ∧ s.WellFormed := by
    refine hguarded.inv (fun s => Inv s ∧ s.WellFormed) ?_ ?_
    · intro s h
      exact ⟨inv_of_initial h, wellFormed_of_absent (by rw [show s = {} from h])⟩
    · intro s op t ⟨hi, hw⟩ hfresh ht
      exact ⟨inv_step hi ht, (wellFormed_step hi hw ht).mpr hfresh⟩
  exact ⟨hboth.2, fun op t ht => wellFormed_step hi hboth.2 ht⟩

/-! ### Samples -/

/-- A job id. -/
def jobA : CStr := .ofChars ['a']

/-- Another job id. -/
def jobB : CStr := .ofChars ['b']

/-- A terminal update whose retry timer cannot be scheduled, one whose details cannot be copied, and
a removal of the first of two entries. -/
def failingRun : List Op :=
  [.init true true true,
    .send { jobId := jobA, status := .succeeded, details := [] } { scheduled := false },
    .send { jobId := jobB, status := .failed, details := ['1'] } { detailsAllocated := false },
    .send { jobId := jobB, status := .failed, details := [] } { published := false },
    .clear jobA]

/-- The failures leave one entry, in a list that is well formed. -/
theorem wellFormed_of_failingRun :
    ∃ s, exec step {} failingRun = some s ∧ s.count = 1 ∧ s.WellFormed := by
  have hs : exec step {} failingRun = some ((exec step {} failingRun).get (by decide)) :=
    (Option.some_get _).symm
  exact ⟨_, hs, by decide, ((wellFormed_of_run failingRun hs).2.2.2 (by decide)).1⟩

/-- `n` entries that are made and cleared. -/
def clearedEntries (n : Nat) : List Op :=
  (List.replicate n [.setVersion jobB 1 true, .clear jobB]).flatten

/-- One entry that stays, `n` entries that are made and cleared, and one more entry. -/
def longRun (n : Nat) : List Op :=
  [.init true true true, .setVersion jobA 1 true] ++ clearedEntries n ++ [.setVersion jobB 1 true]

/-- The cache with the entry that stays. -/
def afterCleared (n : Nat) : Cache where
  entries := [{ ptr := 0, jobId := jobA, jobIdInt := 1 }]
  nextJobIdInt := UInt32.ofNat (n + 2)
  nextPtr := n + 1

/-- The cleared job has no entry. -/
theorem afterCleared_find (n : Nat) : (afterCleared n).findByJobId jobB = none := rfl

/-- Its version makes one, behind the entry that stays. -/
theorem afterCleared_setVersion (n : Nat) :
    ((afterCleared n).setInitialExpectedVersion jobB 1 true).2 =
      (afterCleared n).addEntry jobB := by
  have hget : (afterCleared n).getOrCreate jobB true =
      .ok ((afterCleared n).newEntry jobB, (afterCleared n).addEntry jobB) := rfl
  have hset : (afterCleared n).setInitialExpectedVersion jobB 1 true =
      (.ok, ((afterCleared n).addEntry jobB).update (n + 1) fun e => { e with version := 1 }) := rfl
  rw [hset]
  simp [Cache.update, Cache.addEntry, Cache.newEntry, modifyKey, afterCleared]

/-- The entry goes, and its number is used up. -/
theorem afterCleared_clear (n : Nat) :
    ((afterCleared n).addEntry jobB).clearJobEntries jobB = afterCleared (n + 1) := by
  have hclear : ((afterCleared n).addEntry jobB).clearJobEntries jobB =
      ((afterCleared n).addEntry jobB).removeEntries ((afterCleared n).newEntry jobB) := rfl
  rw [hclear]
  simp [Cache.removeEntries, Cache.addEntry, Cache.newEntry, eraseKey, afterCleared]
  rw [UInt32.add_assoc, UInt32.add_assoc, UInt32.add_comm 2 1]

/-- The cache stays in shape. -/
theorem afterCleared_wf (n : Nat) : (afterCleared n).WF where
  ptrs := List.nodup_singleton _
  ids := List.nodup_singleton _
  ptr_lt := by simp [afterCleared]
  numbered := by simp [afterCleared]
  next := rfl
  counted := rfl

/-- Each entry that comes and goes takes one number. -/
theorem exec_clearedEntries {base : Nat} {s : StatusList} (n : Nat) (rest : List Op) (k : Nat)
    (h : Shows base s (afterCleared k)) :
    ∃ t, exec step s (clearedEntries n ++ rest) = exec step t rest ∧
      Shows base t (afterCleared (k + n)) := by
  induction n generalizing s k with
  | zero => exact ⟨s, rfl, h⟩
  | succ n ih =>
    obtain ⟨s₁, hset, hs₁⟩ := h.setInitialExpectedVersion jobB 1 true
    rw [afterCleared_setVersion] at hs₁
    obtain ⟨s₂, hclear, hs₂⟩ := hs₁.clearJobEntries jobB
    rw [afterCleared_clear] at hs₂
    obtain ⟨t, ht, hshows⟩ := ih (k + 1) hs₂
    refine ⟨t, ?_, ?_⟩
    · rw [← ht, clearedEntries, List.replicate_succ, List.flatten_cons, List.append_assoc]
      show (Option.map Prod.snd (s.setInitialExpectedVersion jobB 1 true)).bind _ = _
      rw [hset]
      show (s₁.clearJobEntries jobB).bind _ = _
      rw [hclear]
      rfl
    · rw [Nat.add_right_comm, Nat.add_assoc] at hshows
      exact hshows

/-- Then the last entry takes the next one. -/
theorem exec_longRun (n : Nat) : ∃ s, exec step {} (longRun n) = some s ∧
    Shows 0 s ((afterCleared n).addEntry jobB) := by
  obtain ⟨s₁, hfirst, hs₁⟩ := (shows_initial .empty).setInitialExpectedVersion jobA 1 true
  have hstays : (Cache.setInitialExpectedVersion {} jobA 1 true).2 = afterCleared 0 := rfl
  rw [hstays] at hs₁
  obtain ⟨s₂, hcleared, hs₂⟩ := exec_clearedEntries n [.setVersion jobB 1 true] 0 hs₁
  obtain ⟨s₃, hlast, hs₃⟩ := hs₂.setInitialExpectedVersion jobB 1 true
  rw [afterCleared_setVersion, Nat.zero_add] at hs₃
  refine ⟨s₃, ?_, hs₃⟩
  have hstart : exec step {} (longRun n) =
      (Option.map Prod.snd (setInitialExpectedVersion
        { nodes := .empty, present := true } jobA 1 true)).bind fun s =>
          exec step s (clearedEntries n ++ [.setVersion jobB 1 true]) := rfl
  have hend : exec step s₂ [.setVersion jobB 1 true] =
      (Option.map Prod.snd (s₂.setInitialExpectedVersion jobB 1 true)).bind some := rfl
  rw [hstart, hfirst]
  show exec step s₁ _ = _
  rw [hcleared, hend, hlast]
  rfl

/-- The number of the last entry is the one of the first, which is still there. -/
theorem number_reused :
    ∃ s, exec step {} (longRun (2 ^ 32 - 1)) = some s ∧ ¬s.WellFormed := by
  obtain ⟨s, hs, hshows⟩ := exec_longRun (2 ^ 32 - 1)
  refine ⟨s, hs, ?_⟩
  have hwf := (Cache.addEntry_grows _ (afterCleared_find (2 ^ 32 - 1))).wf (afterCleared_wf _)
  have hone : ((afterCleared (2 ^ 32 - 1)).entries.map JobEntries.jobIdInt).Nodup :=
    List.nodup_singleton _
  rw [hshows.wellFormed_iff hwf, Cache.numbers_addEntry hone]
  intro hfresh
  have hnext : (afterCleared (2 ^ 32 - 1)).nextJobIdInt = 1 := by decide
  exact hfresh _ (List.mem_singleton_self _) hnext.symm

end StatusList

end RainMakerNeo.Ota.Status
