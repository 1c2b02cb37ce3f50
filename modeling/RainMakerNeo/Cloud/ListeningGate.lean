import RainMakerNeo.Lib.Requests
import RainMakerNeo.Lib.Run

/-!
# `RainMakerNeo.Cloud.ListeningGate`: when the node listens to the cloud

`esp_rmaker_cloud_manager_start_listening` subscribes to the `from_cloud` topic of the node and,
with a bridge, to two filters. The acknowledgements come in the MQTT task. They are counted, and the
one that meets the expected count sets `SUBSCRIBED_TO_CLOUD`. A filter that cannot be subscribed to
lowers the expected count. `esp_rmaker_cloud_manager_stop_listening` has the same code over
variables of its own.

One step is one access to the shared variables, so the runs of `step` are the interleavings of the
two tasks. An attempt has a number, and each signal is recorded under the attempt whose counter was
read. None of this exists in the code: an acknowledgement of an attempt that timed out is counted in
the next one. `exact_of_own` says that the bit is exact in the runs where each counted
acknowledgement belongs to the attempt under way. `lateAck_signals` shows a run where one does not.
-/

set_option autoImplicit false

namespace RainMakerNeo.Cloud.Listening

open RainMakerNeo.Lib

/-! ### The model -/

/-- What is subscribed to. -/
inductive Topic
  /-- The `from_cloud` topic of the node. -/
  | fromCloud
  /-- The filter over the `from_cloud` topics of the children. -/
  | childrenFromCloud
  /-- The filter over the parameter topics of the children. -/
  | childrenParams
  deriving DecidableEq, Repr

/-- `BRIDGE_INTERNAL_FILTER_SUB_COUNT`. -/
def filterSubCount : Nat := 2

/-- Where `esp_rmaker_cloud_manager_start_listening` is. -/
inductive Issuer
  | idle
  | storeCompleted
  | storeInFlight
  | subscribeSelf
  /-- Before the flag is cleared after a failed subscribe. -/
  | failed
  | subscribeCloud
  | subscribeParams (issued : Nat)
  /-- Before the expected count is lowered by the shortfall. -/
  | lower (issued : Nat)
  /-- Before the load of the completed count. -/
  | compare (newExpected : Nat)
  | signal
  /-- In `esp_rmaker_network_wait_bits`, or before the flag is cleared after it. -/
  | wait
  deriving DecidableEq, Repr

/-- Where `__cloud_manager_on_complete_event_handler` is. -/
inductive Handler
  | idle
  /-- Before the load of the flag. -/
  | check (sub : Nat × Topic)
  /-- Before the addition. -/
  | add (sub : Nat × Topic)
  /-- Before the load of the expected count. The addition was made in `attempt`. -/
  | load (attempt prev : Nat)
  | signal (attempt : Nat)
  deriving DecidableEq, Repr

/-- `__listening_gate`, the bit, the two tasks and the subscribes. The last three fields do not
exist in the code. -/
structure Gate where
  expected : Nat := 0
  completed : Nat := 0
  inFlight : Bool := false
  /-- `RMAKER_NETWORK_EVENT_GROUP_BIT_SUBSCRIBED_TO_CLOUD`. -/
  bit : Bool := false
  issuer : Issuer := .idle
  handler : Handler := .idle
  attempt : Nat := 0
  subs : Requests Topic := {}
  /-- The attempts that have set the bit. -/
  signals : List Nat := []
  deriving DecidableEq, Repr

/-- What happens next. A Boolean of the issuer says whether the topic was built and the subscribe
was issued, and that of an acknowledgement is its status. -/
inductive Action
  | start (built : Bool)
  | issuer (ok : Bool)
  | ack (sub : Nat × Topic) (ok : Bool)
  | handler
  /-- `esp_rmaker_core_unsubscribed_from_cloud`, called by another component. -/
  | unsubscribed
  deriving DecidableEq, Repr

/-- The count of an attempt at its start. -/
def total (bridge : Bool) : Nat := if bridge then 1 + filterSubCount else 1

namespace Gate

/-- `esp_rmaker_core_subscribed_to_cloud`, called for an attempt. -/
def subscribedToCloud (s : Gate) (attempt : Nat) : Gate :=
  { s with bit := true, signals := attempt :: s.signals }

/-- A subscribe that is issued. -/
def subscribe (s : Gate) (topic : Topic) (issuer : Issuer) : Gate :=
  { s with subs := s.subs.issue (s.attempt, topic), issuer := issuer }

/-- `esp_rmaker_cloud_manager_start_listening` up to its first store. -/
def start (bridge : Bool) (s : Gate) (built : Bool) : Gate :=
  if built then
    { s with expected := total bridge, attempt := s.attempt + 1, issuer := .storeCompleted }
  else s

/-- The next step of `esp_rmaker_cloud_manager_start_listening`, with
`bridge_subscriber_subscribe_all` in it. -/
def issuerStep (bridge : Bool) (s : Gate) (ok : Bool) : Issuer → Gate
  | .idle => s
  | .storeCompleted => { s with completed := 0, issuer := .storeInFlight }
  | .storeInFlight => { s with inFlight := true, issuer := .subscribeSelf }
  | .subscribeSelf =>
    if ok then s.subscribe .fromCloud (if bridge then .subscribeCloud else .wait)
    else { s with issuer := .failed }
  | .failed => { s with inFlight := false, issuer := .idle }
  | .subscribeCloud =>
    if ok then s.subscribe .childrenFromCloud (.subscribeParams 1)
    else { s with issuer := .subscribeParams 0 }
  | .subscribeParams issued =>
    if ok then s.subscribe .childrenParams (.lower (issued + 1))
    else { s with issuer := .lower issued }
  | .lower issued =>
    if issued < filterSubCount then
      { s with
        expected := s.expected - (filterSubCount - issued)
        issuer := .compare (s.expected - (filterSubCount - issued)) }
    else { s with issuer := .wait }
  | .compare newExpected =>
    { s with issuer := if newExpected ≤ s.completed then .signal else .wait }
  | .signal => { s.subscribedToCloud s.attempt with issuer := .wait }
  -- The wait ends with the bit or with the timeout.
  | .wait => { s with inFlight := false, issuer := .idle }

/-- The next step of `__cloud_manager_on_complete_event_handler`. -/
def handlerStep (s : Gate) : Handler → Gate
  | .idle => s
  | .check sub => { s with handler := if s.inFlight then .add sub else .idle }
  | .add _ => { s with completed := s.completed + 1, handler := .load s.attempt s.completed }
  | .load attempt prev =>
    { s with handler := if s.expected ≤ prev + 1 then .signal attempt else .idle }
  | .signal attempt => { s.subscribedToCloud attempt with handler := .idle }

end Gate

/-- The next step of one of the tasks. -/
def step (bridge : Bool) (s : Gate) : Action → Option Gate
  | .start built => if s.issuer = .idle then some (s.start bridge built) else none
  | .issuer ok => if s.issuer = .idle then none else some (s.issuerStep bridge ok s.issuer)
  | .ack sub ok =>
    if s.handler = .idle ∧ sub ∈ s.subs.waiting then
      some { s with
        subs := s.subs.settle sub ok
        handler := if ok then .check sub else .idle }
    else none
  | .handler => if s.handler = .idle then none else some (s.handlerStep s.handler)
  | .unsubscribed => some { s with bit := false }

/-- Before the first attempt. -/
def Initial (s : Gate) : Prop := s = {}

/-! ### The statement -/

/-- The bit is set by an attempt only when each of its subscribes was acknowledged, and it is set
when all of them were. -/
structure Exact (s : Gate) : Prop where
  sound : ∀ n ∈ s.signals, s.subs.AllAcked n
  complete : s.issuer = .wait → s.handler = .idle → s.subs.AllAcked s.attempt →
    s.attempt ∈ s.signals

/-- The handler is not about to count or to compare for another attempt. -/
def Handler.Own (attempt : Nat) : Handler → Prop
  | .add sub => sub.1 = attempt
  | .load n _ => n = attempt
  | _ => True

instance (attempt : Nat) : ∀ h : Handler, Decidable (h.Own attempt)
  | .add sub => inferInstanceAs (Decidable (sub.1 = attempt))
  | .load n _ => inferInstanceAs (Decidable (n = attempt))
  | .idle | .check _ | .signal _ => inferInstanceAs (Decidable True)

/-- The handler counts an acknowledgement in the attempt it belongs to, and compares the count in
the same attempt. -/
def CountsOwn (s : Gate) : Action → Prop
  | .handler => s.handler.Own s.attempt
  | _ => True

instance (s : Gate) : ∀ a, Decidable (CountsOwn s a)
  | .handler => inferInstanceAs (Decidable (s.handler.Own s.attempt))
  | .start _ | .issuer _ | .ack _ _ | .unsubscribed => inferInstanceAs (Decidable True)

/-! ### The counts -/

/-- The subscribes of the attempt. -/
def Gate.own (s : Gate) : List (Nat × Topic) := s.subs.issuedOf s.attempt

/-- The acknowledged subscribes of the attempt. -/
def Gate.ownAcked (s : Gate) : List (Nat × Topic) := s.subs.ackedOf s.attempt

/-- An acknowledgement of the attempt that is not counted yet. -/
def Handler.uncounted (attempt : Nat) : Handler → Nat
  | .check sub | .add sub => if sub.1 = attempt then 1 else 0
  | _ => 0

/-- What the attempt has issued and what it expects, at each place of the issuer. -/
def Gate.Fits (bridge : Bool) (s : Gate) : Issuer → Prop
  | .idle => s.own.length ≤ s.expected
  | .storeCompleted | .storeInFlight | .subscribeSelf | .failed =>
    s.own.length = 0 ∧ s.expected = total bridge
  | .subscribeCloud => s.own.length = 1 ∧ s.expected = 3 ∧ ∀ x ∈ s.own, x.2 = .fromCloud
  | .subscribeParams issued =>
    issued ≤ 1 ∧ s.own.length = 1 + issued ∧ s.expected = 3 ∧ ∀ x ∈ s.own, x.2 ≠ .childrenParams
  | .lower issued => issued ≤ 2 ∧ s.own.length = 1 + issued ∧ s.expected = 3
  | .compare newExpected => newExpected = s.expected ∧ s.own.length = s.expected
  | .signal => s.expected ≤ s.completed ∧ s.own.length = s.expected
  | .wait => s.own.length = s.expected

/-- Each acknowledgement of the attempt has been counted or is about to be. -/
def Issuer.counts : Issuer → Bool
  | .idle | .storeCompleted | .failed => false
  | _ => true

/-- The flag is set. -/
def Issuer.flies : Issuer → Bool
  | .idle | .storeCompleted | .storeInFlight | .failed => false
  | _ => true

variable {i : Issuer} {bridge : Bool} {s : Gate}

theorem Issuer.eq_storeInFlight (hcounts : i.counts = true) (hflies : ¬i.flies = true) :
    i = .storeInFlight := by
  cases i <;> simp_all [Issuer.counts, Issuer.flies]

/-- The expected count is not being lowered. -/
def Issuer.steady : Issuer → Bool
  | .idle | .storeCompleted | .failed | .compare _ | .signal => false
  | _ => true

/-- The bit was set by an attempt whose subscribes were all acknowledged. -/
structure Gate.Done (s : Gate) (n : Nat) : Prop where
  past : n ≤ s.attempt
  all : s.subs.AllAcked n
  full : n = s.attempt → s.issuer ≠ .storeCompleted ∧ s.own.length = s.expected

/-- What the handler has read belongs to the attempt it was read in. -/
def Gate.Holds (s : Gate) : Handler → Prop
  | .idle => True
  | .check sub | .add sub => sub ∈ s.subs.acked
  | .load n prev =>
    n ≤ s.attempt ∧ (n = s.attempt → s.issuer ≠ .storeCompleted ∧ prev + 1 = s.completed)
  | .signal n => s.Done n

/-- The attempt has set the bit, or the handler is about to find out. -/
def Gate.Due (s : Gate) : Prop :=
  s.attempt ∈ s.signals ∨ (∃ prev, s.handler = .load s.attempt prev) ∨
    s.handler = .signal s.attempt

/-- The invariant of the gate. -/
structure Inv (bridge : Bool) (s : Gate) : Prop where
  sound : s.subs.Sound
  past : ∀ x ∈ s.subs.issued, x.1 ≤ s.attempt
  fits : s.Fits bridge s.issuer
  holds : s.Holds s.handler
  counted : s.issuer ≠ .storeCompleted →
    s.completed + s.handler.uncounted s.attempt ≤ s.ownAcked.length
  all : s.issuer.counts = true →
    s.completed + s.handler.uncounted s.attempt = s.ownAcked.length
  flies : s.issuer.flies = true → s.inFlight = true
  signals : ∀ n ∈ s.signals, s.Done n
  due : s.issuer.steady = true → s.expected ≤ s.completed → s.Due

/-- The bit is exact. -/
theorem Inv.exact (h : Inv bridge s) : Exact s := by
  refine ⟨fun n hn => (h.signals n hn).all, ?_⟩
  intro hwait hidle hall
  have hfits := h.fits
  have hcount := h.all
  have hdue := h.due
  rw [hwait, hidle] at hcount
  rw [hwait] at hfits hdue
  have hlength := h.sound.allAcked_iff.mp hall
  have heq : s.completed + 0 = s.ownAcked.length := hcount rfl
  have hown : s.own.length = s.expected := hfits
  rcases hdue rfl (by simp only [Gate.own, Gate.ownAcked] at hown heq; omega) with h | ⟨prev, h⟩ | h
  · exact h
  · rw [hidle] at h
    cases h
  · rw [hidle] at h
    cases h

/-- An attempt does not issue more than it expects. -/
theorem Inv.length_own_le (h : Inv bridge s) : s.own.length ≤ s.expected := by
  have hfits := h.fits
  have htotal : 1 ≤ total bridge := by cases bridge <;> decide
  cases hissuer : s.issuer
  all_goals
    rw [hissuer] at hfits
    simp only [Gate.Fits] at hfits
    omega

/-- Counted acknowledgements that meet the expected count are those of all subscribes. -/
theorem Inv.done (h : Inv bridge s) (hissuer : s.issuer ≠ .storeCompleted)
    (hmet : s.expected ≤ s.completed) : s.Done s.attempt := by
  have hown := h.length_own_le
  have hcount := h.counted hissuer
  have hle := h.sound.length_ackedOf_le (n := s.attempt)
  simp only [Gate.own, Gate.ownAcked] at hown hcount
  refine ⟨Nat.le_refl _, h.sound.allAcked_iff.mpr (by omega), fun _ => ⟨hissuer, ?_⟩⟩
  simp only [Gate.own]
  omega

/-! ### One step -/

/-- An acknowledgement of the attempt answers one of its subscribes. -/
theorem Inv.uncounted_eq_zero (h : Inv bridge s) (hnone : s.own.length = 0) :
    s.handler.uncounted s.attempt = 0 := by
  have hnot : ∀ sub ∈ s.subs.acked, sub.1 ≠ s.attempt := by
    intro sub hsub heq
    have hmem : sub ∈ s.own := by
      rw [Gate.own, Requests.mem_issuedOf]
      exact ⟨h.sound.subset (List.mem_append_right _ hsub), heq⟩
    rw [List.length_eq_zero_iff.mp hnone] at hmem
    cases hmem
  have hholds := h.holds
  cases hhandler : s.handler with
  | check sub =>
    rw [hhandler] at hholds
    exact if_neg (hnot sub hholds)
  | add sub =>
    rw [hhandler] at hholds
    exact if_neg (hnot sub hholds)
  | idle => rfl
  | load _ _ => rfl
  | signal _ => rfl

/-- What the handler holds survives a step of the issuer. -/
theorem Gate.Holds.mono {t : Gate} {x : Handler} (h : s.Holds x)
    (hacked : s.subs.acked = t.subs.acked) (hle : s.attempt ≤ t.attempt)
    (hload : s.attempt = t.attempt → s.issuer ≠ .storeCompleted →
      t.issuer ≠ .storeCompleted ∧ s.completed = t.completed) (hdone : ∀ n, s.Done n → t.Done n) :
    t.Holds x := by
  cases x with
  | idle => exact trivial
  | check sub =>
    show sub ∈ t.subs.acked
    rw [← hacked]
    exact h
  | add sub =>
    show sub ∈ t.subs.acked
    rw [← hacked]
    exact h
  | load n prev =>
    obtain ⟨hpast, hread⟩ := h
    refine ⟨Nat.le_trans hpast hle, fun heq => ?_⟩
    have hsame : n = s.attempt := Nat.le_antisymm hpast (heq ▸ hle)
    obtain ⟨hissuer, hprev⟩ := hread hsame
    obtain ⟨hissuer', hcompleted⟩ := hload (hsame ▸ heq) hissuer
    exact ⟨hissuer', hprev.trans hcompleted⟩
  | signal n => exact hdone n h

/-- The issuer goes on and may write the flag. -/
theorem Inv.move (h : Inv bridge s) (b : Bool) (hstart : i ≠ .storeCompleted)
    (hold : s.issuer ≠ .storeCompleted) (hfits : s.Fits bridge i)
    (hcounts : i.counts = true → s.issuer.counts = true) (hflies : i.flies = true → b = true)
    (hdue : i.steady = true → s.expected ≤ s.completed → s.Due) :
    Inv bridge { s with inFlight := b, issuer := i } := by
  have hdone : ∀ n, s.Done n → Gate.Done { s with inFlight := b, issuer := i } n := by
    intro n hn
    exact ⟨hn.past, hn.all, fun heq => ⟨hstart, (hn.full heq).2⟩⟩
  refine ⟨h.sound, h.past, ?_, ?_, fun _ => h.counted hold, fun hc => h.all (hcounts hc), hflies,
    fun n hn => hdone n (h.signals n hn), hdue⟩
  · cases i <;> exact hfits
  · exact h.holds.mono rfl (Nat.le_refl _) (fun _ _ => ⟨hstart, rfl⟩) hdone

theorem own_subscribe (s : Gate) (topic : Topic) (i : Issuer) :
    (s.subscribe topic i).own = (s.attempt, topic) :: s.own := by
  show (s.subs.issue (s.attempt, topic)).issuedOf s.attempt = _
  rw [Requests.issuedOf_issue, if_pos rfl]
  rfl

section
variable (h : Inv bridge s)
include h

/-- The issuer subscribes. The attempt has not met its expected count, so it has not set the bit. -/
theorem Inv.subscribe {topic : Topic}
    (hold : s.issuer.counts = true ∧ s.issuer.flies = true ∧ s.issuer.steady = true)
    (hstart : i ≠ .storeCompleted) (hfresh : (s.attempt, topic) ∉ s.own)
    (hless : s.own.length < s.expected) (hfits : (s.subscribe topic i).Fits bridge i) :
    Inv bridge (s.subscribe topic i) := by
  have hnew : (s.attempt, topic) ∉ s.subs.issued :=
    fun hmem => hfresh (Requests.mem_issuedOf.mpr ⟨hmem, rfl⟩)
  have hdone : ∀ n, s.Done n → (s.subscribe topic i).Done n := by
    intro n hn
    have hne : s.attempt ≠ n := by
      intro heq
      have hfull := (hn.full heq.symm).2
      omega
    exact ⟨hn.past, hn.all.issue hne, fun heq => absurd heq.symm hne⟩
  refine ⟨h.sound.issue hnew, ?_, hfits, ?_, ?_, fun _ => h.all hold.1, fun _ => h.flies hold.2.1,
    fun n hn => hdone n (h.signals n hn), fun _ => h.due hold.2.2⟩
  · intro x hx
    rcases List.mem_cons.mp hx with rfl | hx
    · exact Nat.le_refl _
    · exact h.past x hx
  · exact h.holds.mono rfl (Nat.le_refl _) (fun _ _ => ⟨hstart, rfl⟩) hdone
  · intro _
    exact Nat.le_of_eq (h.all hold.1)

/-- The first store of an attempt. -/
theorem Inv.start (built : Bool) : Inv bridge (s.start bridge built) := by
  rw [Gate.start]
  split
  · have hfresh : ∀ x ∈ s.subs.issued, x.1 ≠ s.attempt + 1 := by
      intro x hx
      have hle := h.past x hx
      omega
    have hnone : s.subs.issuedOf (s.attempt + 1) = [] := by
      rw [List.eq_nil_iff_forall_not_mem]
      intro x hx
      obtain ⟨hx, heq⟩ := Requests.mem_issuedOf.mp hx
      exact hfresh x hx heq
    have hdone : ∀ n, s.Done n → Gate.Done { s with
        expected := total bridge, attempt := s.attempt + 1, issuer := .storeCompleted } n := by
      intro n hn
      have hle := hn.past
      refine ⟨Nat.le_succ_of_le hle, hn.all, ?_⟩
      show n = s.attempt + 1 → _
      omega
    refine ⟨h.sound, fun x hx => Nat.le_succ_of_le (h.past x hx), ?_, ?_,
      fun hne => absurd rfl hne, (fun hc => nomatch hc), (fun hf => nomatch hf),
      fun n hn => hdone n (h.signals n hn), fun hs => nomatch hs⟩
    · refine ⟨?_, rfl⟩
      show (s.subs.issuedOf (s.attempt + 1)).length = 0
      rw [hnone]
      rfl
    · refine h.holds.mono rfl (Nat.le_succ _) (fun heq => ?_) hdone
      have heq : s.attempt = s.attempt + 1 := heq
      omega
  · exact h

/-- The count starts from zero. -/
theorem Inv.storeCompleted (hissuer : s.issuer = .storeCompleted) :
    Inv bridge { s with completed := 0, issuer := .storeInFlight } := by
  have hfits := h.fits
  rw [hissuer] at hfits
  obtain ⟨hnone, htotal⟩ := hfits
  have hacked : s.ownAcked.length = 0 := by
    have hle := h.sound.length_ackedOf_le (n := s.attempt)
    simp only [Gate.own, Gate.ownAcked] at hnone ⊢
    omega
  have hzero := h.uncounted_eq_zero hnone
  have hcount : 0 + s.handler.uncounted s.attempt = s.ownAcked.length := by omega
  have hpos : 1 ≤ total bridge := by cases bridge <;> decide
  -- What was read in an earlier attempt is left alone.
  have hdone : ∀ n, s.Done n → Gate.Done { s with completed := 0, issuer := .storeInFlight } n := by
    intro n hn
    exact ⟨hn.past, hn.all, fun heq => absurd hissuer (hn.full heq).1⟩
  refine ⟨h.sound, h.past, ⟨hnone, htotal⟩, ?_, fun _ => Nat.le_of_eq hcount, fun _ => hcount,
    (fun hf => nomatch hf), fun n hn => hdone n (h.signals n hn), ?_⟩
  · exact h.holds.mono rfl (Nat.le_refl _) (fun _ hne => absurd hissuer hne) hdone
  · intro _ hle
    have hle : s.expected ≤ 0 := hle
    omega

/-- The expected count is lowered to what was issued. -/
theorem Inv.lower {issued : Nat} (hissuer : s.issuer = .lower issued)
    (hshort : issued < filterSubCount) :
    Inv bridge { s with
      expected := s.expected - (filterSubCount - issued)
      issuer := .compare (s.expected - (filterSubCount - issued)) } := by
  have hfits := h.fits
  have hcounts := h.all
  have hflies := h.flies
  rw [hissuer] at hfits hcounts hflies
  obtain ⟨-, hown, hexpected⟩ := hfits
  rw [filterSubCount] at hshort ⊢
  have hne : s.issuer ≠ .storeCompleted := by
    rw [hissuer]
    exact fun heq => nomatch heq
  -- The attempt has not set the bit, since it has not met the higher count.
  have hdone : ∀ n, s.Done n → Gate.Done { s with
      expected := s.expected - (2 - issued), issuer := .compare (s.expected - (2 - issued)) } n := by
    intro n hn
    refine ⟨hn.past, hn.all, fun heq => ?_⟩
    have hfull := (hn.full heq).2
    omega
  refine ⟨h.sound, h.past, ⟨rfl, ?_⟩, ?_, fun _ => h.counted hne, fun _ => hcounts rfl,
    fun _ => hflies rfl, fun n hn => hdone n (h.signals n hn), fun hs => nomatch hs⟩
  · show s.own.length = s.expected - (2 - issued)
    omega
  · exact h.holds.mono rfl (Nat.le_refl _) (fun _ _ => ⟨(fun heq => nomatch heq), rfl⟩) hdone

/-- A signal for an attempt whose subscribes are all acknowledged. -/
theorem Inv.subscribedToCloud {n : Nat} (hn : s.Done n) : Inv bridge (s.subscribedToCloud n) := by
  refine ⟨h.sound, h.past, ?_, ?_, h.counted, h.all, h.flies, ?_, ?_⟩
  · show (s.subscribedToCloud n).Fits bridge s.issuer
    have hfits := h.fits
    cases hissuer : s.issuer
    all_goals
      rw [hissuer] at hfits
      exact hfits
  · exact h.holds.mono rfl (Nat.le_refl _) (fun _ hne => ⟨hne, rfl⟩)
      fun m hm => ⟨hm.past, hm.all, hm.full⟩
  · intro m hm
    rcases List.mem_cons.mp hm with rfl | hm
    · exact ⟨hn.past, hn.all, hn.full⟩
    · have hdone := h.signals m hm
      exact ⟨hdone.past, hdone.all, hdone.full⟩
  · intro hs hle
    rcases h.due hs hle with hmem | hload | hsignal
    · exact .inl (List.mem_cons_of_mem n hmem)
    · exact .inr (.inl hload)
    · exact .inr (.inr hsignal)

/-- The first subscribe of an attempt. -/
theorem Inv.subscribeSelf (hissuer : s.issuer = .subscribeSelf) (ok : Bool) :
    Inv bridge (s.issuerStep bridge ok .subscribeSelf) := by
  have hfits := h.fits
  have hne : s.issuer ≠ .storeCompleted := by
    rw [hissuer]
    exact fun heq => nomatch heq
  rw [hissuer] at hfits
  obtain ⟨hnone, htotal⟩ := hfits
  have hnil := List.length_eq_zero_iff.mp hnone
  have hfresh : (s.attempt, Topic.fromCloud) ∉ s.own := by
    rw [hnil]
    exact List.not_mem_nil
  have hadded : ∀ i, (s.subscribe .fromCloud i).own = [(s.attempt, .fromCloud)] := by
    intro i
    rw [own_subscribe, hnil]
  have hpos : 1 ≤ total bridge := by cases bridge <;> decide
  rw [Gate.issuerStep]
  split
  · refine h.subscribe (by rw [hissuer]; decide) (by cases bridge <;> decide) hfresh (by omega) ?_
    cases bridge with
    | false => exact (congrArg List.length (hadded _)).trans htotal.symm
    | true =>
      refine ⟨congrArg List.length (hadded _), htotal, fun x hx => ?_⟩
      rw [hadded, List.mem_singleton] at hx
      rw [hx]
  · exact h.move s.inFlight (by decide) hne ⟨hnone, htotal⟩
      (fun hc => nomatch hc) (fun hf => nomatch hf) (fun hs => nomatch hs)

/-- The second subscribe of a bridge. -/
theorem Inv.subscribeCloud (hissuer : s.issuer = .subscribeCloud) (ok : Bool) :
    Inv bridge (s.issuerStep bridge ok .subscribeCloud) := by
  have hfits := h.fits
  have hflies := h.flies
  have hdue := h.due
  have hne : s.issuer ≠ .storeCompleted := by
    rw [hissuer]
    exact fun heq => nomatch heq
  rw [hissuer] at hfits hdue hflies
  obtain ⟨hone, hexpected, htopics⟩ := hfits
  rw [Gate.issuerStep]
  split
  · refine h.subscribe (by rw [hissuer]; decide) (by decide) ?_ (by omega)
      ⟨Nat.le_refl _, ?_, hexpected, ?_⟩
    · exact fun hmem => nomatch htopics _ hmem
    · rw [own_subscribe, List.length_cons, hone]
    · intro x hx
      rw [own_subscribe] at hx
      rcases List.mem_cons.mp hx with rfl | hx
      · exact fun heq => nomatch heq
      · rw [htopics x hx]
        exact fun heq => nomatch heq
  · refine h.move s.inFlight (by decide) hne ⟨by omega, hone, hexpected, ?_⟩
      (fun _ => by rw [hissuer]; rfl) (fun _ => hflies rfl) fun _ => hdue rfl
    intro x hx
    rw [htopics x hx]
    exact fun heq => nomatch heq

/-- The last subscribe of a bridge. -/
theorem Inv.subscribeParams {issued : Nat} (hissuer : s.issuer = .subscribeParams issued)
    (ok : Bool) : Inv bridge (s.issuerStep bridge ok (.subscribeParams issued)) := by
  have hfits := h.fits
  have hflies := h.flies
  have hdue := h.due
  have hne : s.issuer ≠ .storeCompleted := by
    rw [hissuer]
    exact fun heq => nomatch heq
  rw [hissuer] at hfits hdue hflies
  obtain ⟨hle, hlength, hexpected, htopics⟩ := hfits
  rw [Gate.issuerStep]
  split
  · refine h.subscribe (by rw [hissuer]; exact ⟨rfl, rfl, rfl⟩) (fun heq => nomatch heq) ?_
      (by omega) ⟨by omega, ?_, hexpected⟩
    · exact fun hmem => htopics _ hmem rfl
    · rw [own_subscribe, List.length_cons]
      omega
  · exact h.move s.inFlight (fun heq => nomatch heq) hne
      ⟨by omega, hlength, hexpected⟩ (fun _ => by rw [hissuer]; rfl) (fun _ => hflies rfl)
      fun _ => hdue rfl

/-- The steps of the issuer. -/
theorem Inv.issuerStep (ok : Bool) : Inv bridge (s.issuerStep bridge ok s.issuer) := by
  have hfits := h.fits
  have hflies := h.flies
  have hdue := h.due
  have hown := h.length_own_le
  have hold : ∀ i : Issuer, s.issuer = i → i ≠ .storeCompleted → s.issuer ≠ .storeCompleted :=
    fun i heq hne => heq ▸ hne
  cases hissuer : s.issuer with
  | idle => exact h
  | storeCompleted => exact h.storeCompleted hissuer
  | storeInFlight =>
    rw [hissuer] at hfits hdue
    exact h.move true (by decide) (hold _ hissuer (by decide)) hfits (fun _ => by rw [hissuer]; rfl)
      (fun _ => rfl) fun _ => hdue rfl
  | subscribeSelf => exact h.subscribeSelf hissuer ok
  | failed =>
    exact h.move false (by decide) (hold _ hissuer (by decide)) hown (fun hc => nomatch hc)
      (fun hf => nomatch hf) (fun hs => nomatch hs)
  | subscribeCloud => exact h.subscribeCloud hissuer ok
  | subscribeParams issued => exact h.subscribeParams hissuer ok
  | lower issued =>
    rw [Gate.issuerStep]
    split
    · next hshort => exact h.lower hissuer hshort
    · next hfull =>
      rw [hissuer] at hfits hflies hdue
      obtain ⟨hle, hlength, hexpected⟩ := hfits
      rw [filterSubCount] at hfull
      refine h.move s.inFlight (by decide) (hold _ hissuer fun heq => nomatch heq) ?_
        (fun _ => by rw [hissuer]; rfl) (fun _ => hflies rfl) fun _ => hdue rfl
      show s.own.length = s.expected
      omega
  | compare newExpected =>
    rw [hissuer] at hfits hflies
    obtain ⟨rfl, hlength⟩ := hfits
    have hne := hold _ hissuer fun heq => nomatch heq
    rw [Gate.issuerStep]
    split
    · next hmet =>
      exact h.move s.inFlight (by decide) hne ⟨hmet, hlength⟩ (fun _ => by rw [hissuer]; rfl)
        (fun _ => hflies rfl) fun hs => nomatch hs
    · next hnot =>
      exact h.move s.inFlight (by decide) hne hlength (fun _ => by rw [hissuer]; rfl)
        (fun _ => hflies rfl) fun _ hle => absurd hle hnot
  | signal =>
    rw [hissuer] at hfits hflies
    have hne := hold _ hissuer (by decide)
    have hsignal := h.subscribedToCloud (h.done hne hfits.1)
    exact hsignal.move s.inFlight (by decide) hne hfits.2
      (fun _ => by show s.issuer.counts = true; rw [hissuer]; rfl) (fun _ => hflies rfl)
      fun _ _ => .inl List.mem_cons_self
  | wait =>
    exact h.move false (by decide) (hold _ hissuer (by decide)) hown (fun hc => nomatch hc)
      (fun hf => nomatch hf) (fun hs => nomatch hs)

/-- An acknowledgement arrives. A successful one is counted next. -/
theorem Inv.ack (hidle : s.handler = .idle) {sub : Nat × Topic} (hsub : sub ∈ s.subs.waiting)
    (ok : Bool) :
    Inv bridge { s with
      subs := s.subs.settle sub ok, handler := if ok then .check sub else .idle } := by
  have hcounted := h.counted
  have hall := h.all
  have hdue := h.due
  rw [hidle] at hcounted hall
  have hacked : ((s.subs.settle sub ok).ackedOf s.attempt).length =
      s.ownAcked.length + Handler.uncounted s.attempt (if ok then .check sub else .idle) := by
    rw [Requests.ackedOf_settle]
    cases ok with
    | false => rfl
    | true =>
      simp only [true_and, if_true, Handler.uncounted]
      split <;> rfl
  have hdone : ∀ n, s.Done n → Gate.Done { s with
      subs := s.subs.settle sub ok, handler := if ok then .check sub else .idle } n :=
    fun n hn => ⟨hn.past, hn.all.settle ok, hn.full⟩
  refine ⟨h.sound.settle hsub ok, h.past, ?_, ?_, ?_, ?_, h.flies,
    fun n hn => hdone n (h.signals n hn), ?_⟩
  · have hfits := h.fits
    show Gate.Fits bridge _ s.issuer
    cases hissuer : s.issuer
    all_goals
      rw [hissuer] at hfits
      exact hfits
  · cases ok with
    | false => exact trivial
    | true => exact List.mem_cons_self
  · intro hne
    have hle : s.completed + 0 ≤ s.ownAcked.length := hcounted hne
    show s.completed + Handler.uncounted s.attempt (if ok then .check sub else .idle) ≤
      ((s.subs.settle sub ok).ackedOf s.attempt).length
    omega
  · intro hc
    have heq : s.completed + 0 = s.ownAcked.length := hall hc
    show s.completed + Handler.uncounted s.attempt (if ok then .check sub else .idle) =
      ((s.subs.settle sub ok).ackedOf s.attempt).length
    omega
  · intro hs hle
    rcases hdue hs hle with hmem | ⟨prev, hload⟩ | hsignal
    · exact .inl hmem
    · rw [hidle] at hload
      cases hload
    · rw [hidle] at hsignal
      cases hsignal

/-- The handler goes on without an addition. -/
theorem Inv.handle {x : Handler} (hholds : s.Holds x)
    (hcounted : x.uncounted s.attempt ≤ s.handler.uncounted s.attempt)
    (hall : s.issuer.counts = true → x.uncounted s.attempt = s.handler.uncounted s.attempt)
    (hdue : s.issuer.steady = true → s.expected ≤ s.completed → Gate.Due { s with handler := x }) :
    Inv bridge { s with handler := x } := by
  have hdone : ∀ n, s.Done n → Gate.Done { s with handler := x } n :=
    fun n hn => ⟨hn.past, hn.all, hn.full⟩
  refine ⟨h.sound, h.past, ?_, ?_, ?_, ?_, h.flies, fun n hn => hdone n (h.signals n hn), hdue⟩
  · have hfits := h.fits
    show Gate.Fits bridge _ s.issuer
    cases hissuer : s.issuer
    all_goals
      rw [hissuer] at hfits
      exact hfits
  · exact hholds.mono rfl (Nat.le_refl _) (fun _ hne => ⟨hne, rfl⟩) hdone
  · intro hne
    have hle := h.counted hne
    show s.completed + x.uncounted s.attempt ≤ s.ownAcked.length
    omega
  · intro hc
    have heq := h.all hc
    have hsame := hall hc
    show s.completed + x.uncounted s.attempt = s.ownAcked.length
    omega

/-- An acknowledgement of the attempt is counted. -/
theorem Inv.add {sub : Nat × Topic} (hhandler : s.handler = .add sub) (hsub : sub.1 = s.attempt) :
    Inv bridge { s with
      completed := s.completed + 1, handler := .load s.attempt s.completed } := by
  have hholds := h.holds
  have hcounted := h.counted
  have hall := h.all
  have hfits := h.fits
  rw [hhandler] at hholds hcounted hall
  simp only [Handler.uncounted, if_pos hsub] at hcounted hall
  -- The attempt has a subscribe, so it is past its first store.
  have hmem : sub ∈ s.own :=
    Requests.mem_issuedOf.mpr ⟨h.sound.subset (List.mem_append_right _ hholds), hsub⟩
  have hne : s.issuer ≠ .storeCompleted := by
    intro hissuer
    rw [hissuer] at hfits
    rw [List.length_eq_zero_iff.mp hfits.1] at hmem
    cases hmem
  refine ⟨h.sound, h.past, ?_, ⟨Nat.le_refl _, fun _ => ⟨hne, rfl⟩⟩, hcounted, hall, h.flies, ?_,
    fun _ _ => .inr (.inl ⟨s.completed, rfl⟩)⟩
  · show Gate.Fits bridge _ s.issuer
    cases hissuer : s.issuer
    all_goals rw [hissuer] at hfits
    case signal => exact ⟨Nat.le_succ_of_le hfits.1, hfits.2⟩
    all_goals exact hfits
  · intro n hn
    have hdone := h.signals n hn
    exact ⟨hdone.past, hdone.all, hdone.full⟩

/-- The steps of the handler, where it counts its own. -/
theorem Inv.handlerStep (hown : s.handler.Own s.attempt) :
    Inv bridge (s.handlerStep s.handler) := by
  have hholds := h.holds
  have hdue := h.due
  cases hhandler : s.handler with
  | idle => exact h
  | check sub =>
    rw [hhandler] at hholds
    have hsignals : s.issuer.steady = true → s.expected ≤ s.completed →
        s.attempt ∈ s.signals := by
      intro hs hle
      rcases hdue hs hle with hmem | ⟨prev, hload⟩ | hsignal
      · exact hmem
      · rw [hhandler] at hload
        cases hload
      · rw [hhandler] at hsignal
        cases hsignal
    rw [Gate.handlerStep]
    split
    · refine h.handle (x := .add sub) hholds ?_ ?_ fun hs hle => .inl (hsignals hs hle)
      · rw [hhandler]
        exact Nat.le_refl _
      · rw [hhandler]
        exact fun _ => rfl
    · next hflag =>
      refine h.handle (x := .idle) trivial (Nat.zero_le _) ?_ fun hs hle => .inl (hsignals hs hle)
      intro hc
      -- Without the flag the attempt has not subscribed to anything.
      have hissuer := Issuer.eq_storeInFlight hc fun hf => hflag (h.flies hf)
      have hfits := h.fits
      rw [hissuer] at hfits
      exact (h.uncounted_eq_zero hfits.1).symm
  | add sub =>
    rw [hhandler] at hown
    exact h.add hhandler hown
  | load n prev =>
    rw [hhandler] at hown hholds
    obtain rfl : n = s.attempt := hown
    obtain ⟨hissuer, hprev⟩ := hholds.2 rfl
    have hzero : s.handler.uncounted s.attempt = 0 := by rw [hhandler]; rfl
    rw [Gate.handlerStep]
    split
    · next hmet =>
      refine h.handle (x := .signal s.attempt) (h.done hissuer (by omega)) (Nat.zero_le _)
        (fun _ => hzero.symm) fun _ _ => .inr (.inr rfl)
    · next hnot =>
      refine h.handle (x := .idle) trivial (Nat.zero_le _) (fun _ => hzero.symm) fun _ hle => ?_
      omega
  | signal n =>
    rw [hhandler] at hholds
    have hzero : (s.subscribedToCloud n).handler.uncounted s.attempt = 0 := by
      show s.handler.uncounted s.attempt = 0
      rw [hhandler]
      rfl
    refine (h.subscribedToCloud hholds).handle (x := .idle) trivial (Nat.zero_le _)
      (fun _ => hzero.symm) ?_
    intro hs hle
    rcases hdue hs hle with hmem | ⟨prev, hload⟩ | hsignal
    · exact .inl (List.mem_cons_of_mem n hmem)
    · rw [hhandler] at hload
      cases hload
    · rw [hhandler] at hsignal
      obtain rfl := Handler.signal.inj hsignal
      exact .inl List.mem_cons_self

/-- Each step keeps the invariant, where the handler counts its own. -/
theorem Inv.step {t : Gate} {a : Action} (hg : CountsOwn s a) (ht : step bridge s a = some t) :
    Inv bridge t := by
  cases a with
  | start built =>
    rw [Listening.step] at ht
    split at ht
    · obtain rfl := Option.some.inj ht
      exact h.start built
    · cases ht
  | issuer ok =>
    rw [Listening.step] at ht
    split at ht
    · cases ht
    · obtain rfl := Option.some.inj ht
      exact h.issuerStep ok
  | ack sub ok =>
    rw [Listening.step] at ht
    split at ht
    · next hsub =>
      obtain rfl := Option.some.inj ht
      exact h.ack hsub.1 hsub.2 ok
    · cases ht
  | handler =>
    rw [Listening.step] at ht
    split at ht
    · cases ht
    · obtain rfl := Option.some.inj ht
      exact h.handlerStep hg
  | unsubscribed =>
    obtain rfl := Option.some.inj ht
    refine ⟨h.sound, h.past, ?_, ?_, h.counted, h.all, h.flies, ?_, h.due⟩
    · have hfits := h.fits
      show Gate.Fits bridge _ s.issuer
      cases hissuer : s.issuer
      all_goals
        rw [hissuer] at hfits
        exact hfits
    · exact h.holds.mono rfl (Nat.le_refl _) (fun _ hne => ⟨hne, rfl⟩)
        fun n hn => ⟨hn.past, hn.all, hn.full⟩
    · intro n hn
      have hdone := h.signals n hn
      exact ⟨hdone.past, hdone.all, hdone.full⟩

end

/-! ### Every run -/

theorem Inv.initial (h : Initial s) : Inv bridge s := by
  subst h
  exact ⟨Requests.Sound.empty, (fun x hx => nomatch hx), Nat.zero_le _, trivial,
    fun _ => Nat.le_refl _, (fun hc => nomatch hc), (fun hf => nomatch hf),
    (fun n hn => nomatch hn), fun hs => nomatch hs⟩

/-- **The listening gate.** While each acknowledgement is counted in its own attempt, the bit is set
by an attempt exactly when all its subscribes were acknowledged. -/
theorem exact_of_own (h : Reach Initial (step bridge) CountsOwn s) : Exact s :=
  (h.inv (Inv bridge) (fun _ h => Inv.initial h) fun _ _ _ hi hg ht => hi.step hg ht).exact

/-- An attempt with a bridge whose second filter cannot be subscribed to. The acknowledgements come
before the expected count is lowered. -/
def loweredRun : List Action :=
  [.start true, .issuer true, .issuer true, .issuer true, .ack (1, .fromCloud) true, .handler,
    .handler, .handler, .issuer true, .ack (1, .childrenFromCloud) true, .handler, .handler,
    .handler, .issuer false, .issuer true, .issuer true, .issuer true]

theorem loweredRun_exact :
    ∃ s, exec (step true) {} loweredRun = some s ∧ s.bit = true ∧ s.signals = [1] ∧ Exact s := by
  have hrun : Reach Initial (step true) CountsOwn _ :=
    Reach.exec loweredRun (.start rfl) (by decide +kernel) rfl
  exact ⟨_, rfl, rfl, rfl, exact_of_own hrun⟩

/-- The acknowledgement of an attempt that timed out arrives in the next attempt. -/
def lateAck : List Action :=
  [.start true, .issuer true, .issuer true, .issuer true, .issuer true, .start true, .issuer true,
    .issuer true, .issuer true, .ack (1, .fromCloud) true, .handler, .handler, .handler, .handler]

/-- The second attempt sets the bit, and its subscribe was not acknowledged. -/
theorem lateAck_signals :
    ∃ s, Reach Initial (step false) (fun _ _ => True) s ∧ s.bit = true ∧ 2 ∈ s.signals ∧
      ¬s.subs.AllAcked 2 := by
  have hrun : Reach Initial (step false) (fun _ _ => True) _ :=
    Reach.exec lateAck (.start rfl) (by decide +kernel) rfl
  refine ⟨_, hrun, rfl, List.mem_singleton_self _, ?_⟩
  intro hall
  have hmem := hall (2, .fromCloud) (by decide +kernel) rfl
  revert hmem
  decide +kernel

end RainMakerNeo.Cloud.Listening
