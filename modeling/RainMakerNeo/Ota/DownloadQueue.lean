import RainMakerNeo.Lib.Run
import RainMakerNeo.Ota.Downloader

/-!
# `RainMakerNeo.Ota.DownloadQueue`: what moves a download on

A download waits for blocks. A received block is a write task in the work queue, and the timer of
the block request brings a failure task when it expires. Without an armed timer and without a task
in the queue a download stalls.

The runs of `step` are the interleavings of starts, received messages, expiries and tasks. An
expiry and its callback are one step, since both belong to the timer. `noStall` says what a download
needs in order not to stall: each request is built and arms the timer. `unbuiltRequest_stalls`
shows the code where a request after a finished batch cannot be built.
-/

set_option autoImplicit false

namespace RainMakerNeo.Ota.DownloadQueue

open RainMakerNeo.Lib

/-! ### The queue -/

/-- A task of the downloader in the work queue. -/
inductive Task
  /-- `block_request_on_failure_work_queue_task`. -/
  | failure
  /-- `write_chunk_to_image_handler_work_queue_task`. -/
  | write (message : Option DataBlock)
  deriving DecidableEq, Repr

/-- The downloader, its timer and its tasks. -/
structure State where
  downloader : Option Downloader := none
  queue : List Task := []

/-- What happens next, and what the environment answers inside it. -/
inductive Action
  /-- `esp_rmaker_ota_mqtt_cb`. -/
  | start (store : ResumeStore) (otaData : OtaData) (env : StartEnv)
  /-- `on_mqtt_message_received`. `added` says that the payload was copied and queued. -/
  | received (message : Option DataBlock) (added : Bool)
  /-- The timer expires: `block_request_on_failure_timeout_callback`. -/
  | expire (added restarted : Bool)
  /-- The work queue runs its first task. -/
  | task (env : BlockEnv)

/-- The task with the answers inside it. -/
def Task.toDownloadTask (task : Task) (env : BlockEnv) : DownloadTask :=
  match task with
  | .failure => .requestTimeout env.failure
  | .write message => .block message env

/-- `block_request_on_failure_timeout_callback`. -/
def State.expire (s : State) (d : Downloader) (added restarted : Bool) : State :=
  let armed := fun b => { d with blockRequest := { d.blockRequest with timerArmed := b } }
  if added then { downloader := some (armed false), queue := s.queue ++ [.failure] }
  else { s with downloader := some (armed restarted) }

/-- The next step. -/
def step (cfg : DownloaderConfig) (s : State) : Action → Option State
  | .start store otaData env =>
    if s.downloader.isNone then
      (otaMqttCb cfg store otaData env).map fun r => { s with downloader := r.downloader }
    else none
  | .received message added =>
    if s.downloader.isSome then
      some (if added then { s with queue := s.queue ++ [.write message] } else s)
    else none
  | .expire added restarted =>
    match s.downloader with
    | none => none
    | some d => if d.blockRequest.timerArmed then some (s.expire d added restarted) else none
  | .task env =>
    match s.queue with
    | [] => none
    | task :: rest =>
      -- Without a context the task is dropped.
      let downloader := s.downloader.bind fun d => (d.run cfg (task.toDownloadTask env)).downloader
      some { downloader, queue := rest }

/-- No download, no task. -/
def Initial (s : State) : Prop := s = {}

/-! ### The condition -/

/-- The request is built, and the timer is armed after it. -/
def Arms (env : SendEnv) (armed : Bool) : Prop :=
  env.allocated = true ∧ env.encoded = true ∧ (env.timerRestarted || armed) = true

instance (env : SendEnv) (armed : Bool) : Decidable (Arms env armed) :=
  inferInstanceAs (Decidable (_ ∧ _ ∧ _))

/-- The timer of the active download. -/
def State.timerArmed (s : State) : Bool := s.downloader.any fun d => d.blockRequest.timerArmed

/-- Each request of an active download is built and arms the timer, and an expiry queues the failure
task or arms the timer again. -/
def RequestsArm (s : State) : Action → Prop
  | .start _ _ env => env.send.published = true → env.send.timerRestarted = true
  | .received _ _ => True
  | .expire added restarted => added = true ∨ restarted = true
  | .task env =>
    Arms env.success.send (s.timerArmed && !env.success.timerStopped) ∧
      Arms env.failure s.timerArmed

instance (s : State) : ∀ a, Decidable (RequestsArm s a)
  | .start _ _ env =>
    inferInstanceAs (Decidable (env.send.published = true → env.send.timerRestarted = true))
  | .received _ _ => inferInstanceAs (Decidable True)
  | .expire added restarted => inferInstanceAs (Decidable (added = true ∨ restarted = true))
  | .task _ => inferInstanceAs (Decidable (_ ∧ _))

/-! ### One task -/

/-- The block request waits for its blocks, and the timer is armed. -/
def Waits (d : Downloader) : Prop :=
  d.blockRequest.timerArmed = true ∧ d.blockRequest.successFlag = false ∧
    d.blockRequest.failureFlag = false

variable {d : Downloader} {env : SendEnv} {r : TaskResult} {cfg : DownloaderConfig} {s : State}

/-- A request that is built arms the timer and clears the flags. -/
theorem waits_of_send (h : Arms env d.blockRequest.timerArmed) :
    Waits (blockRequestSendNext d env).2 := by
  obtain ⟨hallocated, hencoded, harmed⟩ := h
  rw [blockRequestSendNext, requestGetNext, hallocated, hencoded]
  split
  · next hnone => split at hnone <;> cases hnone
  · exact ⟨harmed, rfl, rfl⟩

/-- What a task leaves to the block request: nothing new, or a request that waits. -/
def Settles (d : Downloader) (r : TaskResult) : Prop :=
  ∀ d', r.downloader = some d' → d'.blockRequest = d.blockRequest ∨ Waits d'

theorem settles_none (h : r.downloader = none) : Settles d r := by
  intro d' hd'
  rw [h] at hd'
  cases hd'

/-- The failure task sends a request, or it ends the download. -/
theorem waits_of_failure {d' : Downloader} (hsuccess : d.blockRequest.successFlag = false)
    (hfailure : d.blockRequest.failureFlag = false) (harms : Arms env d.blockRequest.timerArmed)
    (h : (blockRequestOnFailure cfg d env).downloader = some d') : Waits d' := by
  rw [blockRequestOnFailure, hsuccess, hfailure] at h
  simp only [Bool.false_eq_true, if_false] at h
  split at h
  · cases h
  · obtain rfl := Option.some.inj h
    exact waits_of_send harms

/-- A failed step of the block task runs the failure task. -/
theorem settles_thenFailure (hr : Settles d r) (hsuccess : d.blockRequest.successFlag = false)
    (hfailure : d.blockRequest.failureFlag = false) (harms : Arms env d.blockRequest.timerArmed) :
    Settles d (r.thenFailure cfg env) := by
  intro d' hd'
  rw [TaskResult.thenFailure] at hd'
  cases hdown : r.downloader with
  | none =>
    simp only [hdown] at hd'
    cases hd'
  | some e =>
    simp only [hdown] at hd'
    refine .inr ?_
    rcases hr e hdown with heq | hwaits
    · refine waits_of_failure ?_ ?_ ?_ hd'
      · rw [heq]
        exact hsuccess
      · rw [heq]
        exact hfailure
      · rw [heq]
        exact harms
    · -- A request that was built but not published is followed by another one.
      refine waits_of_failure hwaits.2.1 hwaits.2.2 ?_ hd'
      rw [hwaits.1]
      exact ⟨harms.1, harms.2.1, Bool.or_true _⟩

/-- A processed block ends the download, or the request still waits for others, or the next request
is sent. -/
theorem settles_success {env : SuccessEnv} (hfailure : d.blockRequest.failureFlag = false)
    (harms : Arms env.send (d.blockRequest.timerArmed && !env.timerStopped)) :
    Settles d (blockRequestOnSuccess cfg d env).2 := by
  rw [blockRequestOnSuccess]
  split
  · exact settles_none rfl
  · dsimp only
    generalize (if d.request.blockCount = 0 then 2 ^ 32 - 1
      else d.request.blockCount - 1) = blockCount
    split
    · intro d' hd'
      obtain rfl := Option.some.inj hd'
      exact .inl rfl
    · rw [if_neg (by rw [hfailure]; exact Bool.false_ne_true)]
      intro d' hd'
      obtain rfl := Option.some.inj hd'
      exact .inr (waits_of_send harms)

/-- A block that passed the checks. -/
theorem settles_acceptBlock {env : BlockEnv} (blockId dataLength : Nat)
    (hsuccess : d.blockRequest.successFlag = false)
    (hfailure : d.blockRequest.failureFlag = false)
    (harms : Arms env.success.send (d.blockRequest.timerArmed && !env.success.timerStopped))
    (harms' : Arms env.failure d.blockRequest.timerArmed) :
    Settles d (acceptBlock cfg d blockId dataLength env) := by
  simp only [acceptBlock]
  generalize d.openTarget cfg env.opening = opening
  -- The target and the bitmap are not part of the block request.
  have hkept : ∀ (handler : ImageHandlerCtx) (effects : List Effect),
      Settles d { downloader := some { d with imageHandler := handler }, effects } := by
    intro handler effects d' hd'
    obtain rfl := Option.some.inj hd'
    exact .inl rfl
  split
  · split
    · have hmarked : Settles d (blockRequestOnSuccess cfg
          { d with
            imageHandler := opening.2.1
            bitmap := d.bitmap.setProcessed blockId } env.success).2 :=
        settles_success (d := { d with
          imageHandler := opening.2.1
          bitmap := d.bitmap.setProcessed blockId }) hfailure harms
      split
      · exact hmarked
      · exact settles_thenFailure hmarked hsuccess hfailure harms'
    · exact settles_thenFailure (hkept _ _) hsuccess hfailure harms'
  · exact settles_thenFailure (hkept _ _) hsuccess hfailure harms'

/-- **One task.** A request without flags is left as it is, or the task ends with a request that
waits, or the download ends. -/
theorem settles_run {env : BlockEnv} (task : Task) (hsuccess : d.blockRequest.successFlag = false)
    (hfailure : d.blockRequest.failureFlag = false)
    (harms : Arms env.success.send (d.blockRequest.timerArmed && !env.success.timerStopped))
    (harms' : Arms env.failure d.blockRequest.timerArmed) :
    Settles d (d.run cfg (task.toDownloadTask env)) := by
  have hkept : Settles d { downloader := some d } := by
    intro d' hd'
    obtain rfl := Option.some.inj hd'
    exact .inl rfl
  have hthen : Settles d (TaskResult.thenFailure cfg env.failure { downloader := some d }) :=
    settles_thenFailure hkept hsuccess hfailure harms'
  cases task with
  | failure => exact fun d' hd' => .inr (waits_of_failure hsuccess hfailure harms' hd')
  | write message =>
    show Settles d (writeChunk cfg d message env)
    simp only [writeChunk]
    cases message with
    | none => exact hthen
    | some block =>
      dsimp only
      split
      · exact hkept
      · split
        · exact hthen
        · split
          · exact hthen
          · split
            · exact hkept
            · exact settles_acceptBlock _ _ hsuccess hfailure harms harms'

/-! ### The start -/

/-- A download that starts has sent its first request. -/
theorem waits_of_start {store : ResumeStore} {otaData : OtaData} {env : StartEnv}
    (hrestarted : env.send.published = true → env.send.timerRestarted = true)
    (hstart : otaMqttCb cfg store otaData env = some r) (hd : r.downloader = some d) : Waits d := by
  obtain ⟨blocks, _, rfl⟩ := Option.map_eq_some_iff.mp hstart
  cases hinit : DownloaderBitmap.init blocks with
  | none =>
    simp only [hinit] at hd
    cases hd
  | some bitmap =>
    simp only [hinit] at hd
    split at hd
    · generalize (if cfg.resume then resumeAttempt cfg store env.attempt
        (freshDownloader cfg otaData bitmap) else (freshDownloader cfg otaData bitmap, [])) =
          attempt at hd
      rw [startDownload] at hd
      split at hd
      · cases hd
      · split at hd
        · cases hd
        · dsimp only at hd
          split at hd
          · next hsent =>
            obtain rfl := Option.some.inj hd
            rw [blockRequestSendNext] at hsent ⊢
            split
            · next hnone =>
              simp only [hnone] at hsent
              cases hsent
            · next request hrequest =>
              simp only [hrequest] at hsent
              split
              · next hencoded =>
                rw [if_pos hencoded] at hsent
                exact ⟨Bool.or_eq_true_iff.mpr (.inl (hrestarted hsent)), rfl, rfl⟩
              · next hencoded =>
                rw [if_neg hencoded] at hsent
                cases hsent
          · cases hd
    · cases hd

/-! ### Every run -/

/-- What moves an active download on: its flags are clear, and its timer is armed or the failure
task is in the queue. -/
def Moves (s : State) : Prop :=
  ∀ d, s.downloader = some d →
    (d.blockRequest.successFlag = false ∧ d.blockRequest.failureFlag = false) ∧
      (d.blockRequest.timerArmed = true ∨ .failure ∈ s.queue)

/-- A download that waits moves on. -/
theorem Waits.moves (h : ∀ d, s.downloader = some d → Waits d) : Moves s :=
  fun d hd => ⟨(h d hd).2, .inl (h d hd).1⟩

/-- A queue that grows keeps its tasks. -/
theorem Moves.received (h : Moves s) (message : Option DataBlock) :
    Moves { s with queue := s.queue ++ [.write message] } := by
  intro d hd
  refine ⟨(h d hd).1, ?_⟩
  rcases (h d hd).2 with harmed | hqueued
  · exact .inl harmed
  · exact .inr (List.mem_append_left _ hqueued)

/-- An expiry hands the download to the failure task, or it arms the timer again. -/
theorem Moves.expire (h : Moves s) (hd : s.downloader = some d) {added restarted : Bool}
    (hanswers : added = true ∨ restarted = true) : Moves (s.expire d added restarted) := by
  intro e he
  rw [State.expire] at he ⊢
  cases added with
  | true =>
    obtain rfl := Option.some.inj he
    exact ⟨(h d hd).1, .inr (List.mem_append_right _ (List.mem_singleton_self _))⟩
  | false =>
    obtain rfl := Option.some.inj he
    refine ⟨(h d hd).1, .inl ?_⟩
    rcases hanswers with hadded | hrestarted
    · cases hadded
    · exact hrestarted

/-- A task. -/
theorem Moves.task {task : Task} {rest : List Task} {env : BlockEnv} (h : Moves s)
    (hqueue : s.queue = task :: rest) (harms : RequestsArm s (.task env)) :
    Moves { downloader := s.downloader.bind fun d =>
              (d.run cfg (task.toDownloadTask env)).downloader
            queue := rest } := by
  intro e he
  obtain ⟨d, hd, hrun⟩ := Option.bind_eq_some_iff.mp he
  obtain ⟨⟨hsuccess, hfailure⟩, hmoves⟩ := h d hd
  have htimer : s.timerArmed = d.blockRequest.timerArmed := by rw [State.timerArmed, hd]; rfl
  rw [RequestsArm, htimer] at harms
  cases task with
  | failure => exact (Waits.moves (s := ⟨some e, rest⟩) fun d' hd' => by
      obtain rfl := Option.some.inj hd'
      exact waits_of_failure hsuccess hfailure harms.2 hrun) e rfl
  | write message =>
    rcases settles_run (.write message) hsuccess hfailure harms.1 harms.2 e hrun with heq | hwaits
    · refine ⟨?_, ?_⟩
      · rw [heq]
        exact ⟨hsuccess, hfailure⟩
      · rw [heq]
        -- The failure task is not the one that ran.
        rcases hmoves with harmed | hqueued
        · exact .inl harmed
        · rw [hqueue] at hqueued
          exact .inr ((List.mem_cons.mp hqueued).resolve_left nofun)
    · exact ⟨hwaits.2, .inl hwaits.1⟩

/-- **One step.** -/
theorem Moves.step {t : State} {a : Action} (h : Moves s) (hguard : RequestsArm s a)
    (ht : step cfg s a = some t) : Moves t := by
  cases a with
  | start store otaData env =>
    rw [DownloadQueue.step] at ht
    split at ht
    · obtain ⟨r, hr, rfl⟩ := Option.map_eq_some_iff.mp ht
      exact Waits.moves fun d hd => waits_of_start hguard hr hd
    · cases ht
  | received message added =>
    rw [DownloadQueue.step] at ht
    split at ht
    · obtain rfl := Option.some.inj ht
      cases added with
      | true => exact h.received message
      | false => exact h
    · cases ht
  | expire added restarted =>
    rw [DownloadQueue.step] at ht
    split at ht
    · cases ht
    · next d hd =>
      split at ht
      · obtain rfl := Option.some.inj ht
        exact h.expire hd hguard
      · cases ht
  | task env =>
    rw [DownloadQueue.step] at ht
    split at ht
    · cases ht
    · next task rest hqueue =>
      obtain rfl := Option.some.inj ht
      exact h.task hqueue hguard

/-- **No stall.** While each request is built and arms the timer, an active download has an armed
timer or a task in the queue. -/
theorem noStall (hs : Reach Initial (step cfg) RequestsArm s) (d : Downloader)
    (hd : s.downloader = some d) : d.blockRequest.timerArmed = true ∨ s.queue ≠ [] := by
  have hmoves : Moves s := hs.inv Moves
    (by
      intro s hs d hd
      rw [hs] at hd
      cases hd)
    (fun _ _ _ h hguard ht => h.step hguard ht)
  rcases (hmoves d hd).2 with harmed | hqueued
  · exact .inl harmed
  · exact .inr (List.ne_nil_of_mem hqueued)

/-! ### Two short runs -/

/-- The first block is written, and the request for the second one expires. -/
def expiredRun : List Action :=
  [.start {} twoBlocks {}, .received (some firstBlock) true, .task {}, .expire true true]

/-- The request for the second block waits in the failure task. -/
theorem expiredRun_noStall :
    ∃ s, Reach Initial (step defaultDownloader) RequestsArm s ∧
      exec (step defaultDownloader) {} expiredRun = some s ∧
        ∃ d, s.downloader = some d ∧ d.blockRequest.timerArmed = false ∧
          (d.blockRequest.timerArmed = true ∨ s.queue ≠ []) := by
  have hrun : Reach Initial (step defaultDownloader) RequestsArm _ :=
    Reach.exec expiredRun (.start rfl) (by decide +kernel) rfl
  exact ⟨_, hrun, rfl, _, rfl, rfl, noStall hrun _ rfl⟩

/-- One block a request. -/
def singleBlocks : DownloaderConfig := { defaultDownloader with blocksPerRequest := 1 }

/-- The first block ends its request, and the next request cannot be allocated. -/
def unbuiltRun : List Action :=
  [.start {} twoBlocks {}, .received (some firstBlock) true,
    .task { success := { send := { allocated := false } } }]

/-- The success handler has stopped the timer and set its flag, so the failure task that should
follow it returns at once. The download waits, and nothing moves it on. -/
theorem unbuiltRequest_stalls :
    ∃ s, Reach Initial (step singleBlocks) (fun _ _ => True) s ∧
      exec (step singleBlocks) {} unbuiltRun = some s ∧
        ∃ d, s.downloader = some d ∧
          ¬(d.blockRequest.timerArmed = true ∨ s.queue ≠ []) := by
  have hrun : Reach Initial (step singleBlocks) (fun _ _ => True) _ :=
    Reach.exec unbuiltRun (.start rfl) (by decide +kernel) rfl
  exact ⟨_, hrun, rfl, _, rfl, nofun⟩

end RainMakerNeo.Ota.DownloadQueue
