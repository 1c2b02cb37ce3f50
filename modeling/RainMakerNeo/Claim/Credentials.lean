import RainMakerNeo.Claim.Reassembly

/-!
# `RainMakerNeo.Claim.Credentials`: the node ID, the certificate and the host

Three steps of the exchange write to the storage: the init response the node ID, the verify
response the certificate and then the host. A restart can come between any two of the writes.

The certificate alone decides whether the node counts as claimed. A host that is empty, or that
cannot be written after the certificate, leaves a claimed node without its host. A context that is
made although there is a certificate writes the node ID of the next attempt next to the old
certificate (`mixedCredentials`). `consistent_of_careful` says which steps keep the three together.
-/

set_option autoImplicit false

namespace RainMakerNeo.Claim

open RainMakerNeo.Lib

/-! ### What the storage promises -/

/-- A stored certificate stands next to the node ID that its CSR was made for in the same attempt,
and next to the host of the same response. -/
def Certified (s : Node) : Prop :=
  s.stored.clientCert.isSome = true → ∃ i id, s.issue = some i ∧ i.csrFor = some (i.attempt, id)
    ∧ s.stored.clientId = some id ∧ s.hostFrom = some i.response

/-- **Consistent credentials.** A stored certificate has its node ID and its host, and an attempt
that was made on a claimed node and has not succeeded leaves the three as they were. -/
structure Consistent (s : Node) : Prop where
  certified : Certified s
  untouched : ∀ b, s.base = some b → s.stored.identity = b

/-- There is no context, and the storage keeps its promise. -/
def InitialClaim (s : Node) : Prop := Initial s ∧ s.base = none ∧ Certified s

/-! ### The careful steps -/

/-- The node ID that a command brings. -/
def assigns (cfg : Config) (c : ClaimData) (command : Command) : Option (List UInt8) :=
  if c.state = .init ∧ command.msg = .cmdClaimInit then
    command.cmdPayload.bind fun b =>
      (((Buffer.zero maxPayloadSize).write 0 b.payload).bind Buffer.text).bind (offeredId cfg)
  else none

/-- The certificate and the host of the response that a command completes. -/
def completes (cfg : Config) (c : ClaimData) (command : Command) :
    Option (List UInt8 × List UInt8) :=
  if c.state = .verifyPending ∧ command.msg = .cmdClaimVerify then
    (command.cmdPayload.map PayloadBuf.fragment).bind fun f =>
      if Node.continues c f ∧ f.offset + f.payload.length = f.total then
        ((Node.takeFragment c f).bind fun c => c.payload.text).bind (Node.offered cfg)
      else none
  else none

/-- A node ID that goes next to a certificate is the one that stands there. -/
def KeepsId (stored : Credentials) (env : Answers) (id : List UInt8) : Prop :=
  stored.clientCert.isSome = true → env.idWrite.kept = true → stored.clientId = some (cString id)

/-- A certificate that is stored is followed by its host. On a claimed node both writes are
confirmed. -/
def StoresBoth (stored : Credentials) (env : Answers) (cert host : List UInt8) : Prop :=
  cert ≠ [] → env.allocated = true → env.certWrite.kept = true →
    env.certWrite = .stored ∧ host ≠ [] ∧ env.hostWrite.kept = true
      ∧ (stored.clientCert.isSome = true → env.hostWrite = .stored)

/-- The steps that keep the three together. -/
def Careful (cfg : Config) (s : Node) : Action → Prop
  | .message (some command) env => ∀ c ∈ s.ctx,
    (∀ id ∈ assigns cfg c command, KeepsId s.stored env id)
      ∧ ∀ r ∈ completes cfg c command, StoresBoth s.stored env r.1 r.2
  | _ => True

/-! ### The invariant -/

/-- What the storage and the context keep. -/
structure CredentialInv (s : Node) : Prop extends ExchangeInv s where
  certified : Certified s
  base : ∀ b, s.base = some b → s.stored.identity = b ∧ s.stored.clientCert.isSome = true
  csr : ∀ c, s.ctx = some c → c.state = .initDone ∨ c.state = .verifyPending →
    ∃ id, c.csrFor = some (c.attempt, id) ∧ s.stored.clientId = some id

variable {cfg : Config} {env : Answers} {c : ClaimData} {s : Node}

/-- A fragment of the verify request changes nothing that is stored. -/
theorem sendFragment_ctx : ∃ c', (s.sendFragment c).1.ctx = some c' ∧ c'.csrFor = c.csrFor
    ∧ c'.attempt = c.attempt ∧ (s.sendFragment c).1.stored = s.stored
    ∧ (s.sendFragment c).1.issue = s.issue ∧ (s.sendFragment c).1.hostFrom = s.hostFrom
    ∧ (s.sendFragment c).1.base = s.base := by
  rw [Node.sendFragment]
  dsimp only
  split
  · exact ⟨c, rfl, rfl, rfl, rfl, rfl, rfl, rfl⟩
  · refine ⟨_, rfl, ?_, ?_, rfl, rfl, rfl, rfl⟩
    all_goals
      generalize c.payloadOffset + _ = offset
      split <;> rfl

namespace CredentialInv

variable (h : CredentialInv s)
include h

/-- Another context next to the same storage. -/
theorem of_stored {t : Node} (ht : ExchangeInv t) (hstored : t.stored = s.stored)
    (hissue : t.issue = s.issue) (hhost : t.hostFrom = s.hostFrom) (hbase : t.base = s.base)
    (hcsr : ∀ c, t.ctx = some c → c.state = .initDone ∨ c.state = .verifyPending →
      ∃ id, c.csrFor = some (c.attempt, id) ∧ s.stored.clientId = some id) : CredentialInv t := by
  refine ⟨ht, ?_, ?_, ?_⟩
  · rw [Certified, hstored, hissue, hhost]
    exact h.certified
  · rw [hstored, hbase]
    exact h.base
  · rw [hstored]
    exact hcsr

theorem noCtx : CredentialInv { s with ctx := none } :=
  h.of_stored h.toExchangeInv.noCtx rfl rfl rfl rfl fun _ hc => nomatch hc

/-- The node ID of an init response. A claimed node has it already. -/
theorem idWritten {stored' : Credentials} (hwritten : IdWritten cfg env c s.stored stored')
    (hguard : ∀ text id, c.payload.text = some text → offeredId cfg text = some id →
      KeepsId s.stored env id) :
    Certified { s with stored := stored' } ∧ ∀ b, s.base = some b →
      stored'.identity = b ∧ stored'.clientCert.isSome = true := by
  rcases hwritten with rfl | ⟨hkept, text, id, htext, hid, rfl⟩
  · exact ⟨h.certified, h.base⟩
  · have hkeeps := hguard text id htext hid
    -- with a certificate the storage is the one from before
    have hsame : s.stored.clientCert.isSome = true →
        { s.stored with clientId := some (cString id) } = s.stored := by
      intro hclaimed
      rw [← hkeeps hclaimed hkept]
    refine ⟨?_, ?_⟩
    · intro hclaimed
      change s.stored.clientCert.isSome = true at hclaimed
      show ∃ i id', s.issue = some i ∧ i.csrFor = some (i.attempt, id')
        ∧ some (cString id) = some id' ∧ s.hostFrom = some i.response
      rw [← hkeeps hclaimed hkept]
      exact h.certified hclaimed
    · intro b hb
      obtain ⟨hidentity, hclaimed⟩ := h.base b hb
      rw [hsame hclaimed]
      exact ⟨hidentity, hclaimed⟩

theorem handleStart (hctx : s.ctx = some c) : CredentialInv (s.handleStart cfg env c).1 := by
  have hexchange := h.toExchangeInv.handleStart (h.ctx c hctx) cfg env
  revert hexchange
  rw [Node.handleStart]
  split
  · rcases generateClaimInitRequest_cases cfg env (h.ctx c hctx).terminated with
      ⟨payload, len, heq, hterminated, hlen⟩ | heq
    · rw [heq]
      dsimp only
      rw [Buffer.slice_eq_some (by omega)]
      intro hexchange
      refine ⟨hexchange, h.certified, ?_, ?_⟩
      · intro b hb
        change (if s.stored.clientCert.isSome then some s.stored.identity else none) = some b at hb
        split at hb
        · next hclaimed => exact ⟨Option.some.inj hb, hclaimed⟩
        · cases hb
      · intro c' hc'
        obtain rfl := Option.some.inj hc'
        exact fun hstate => hstate.elim (by simp) (by simp)
    · rw [heq]
      intro hexchange
      refine h.of_stored hexchange rfl rfl rfl rfl ?_
      intro c' hc'
      obtain rfl := Option.some.inj hc'
      exact h.csr c hctx
  · exact fun _ => h

theorem handleInit (hctx : s.ctx = some c) {command : Command}
    (hmsg : command.msg = .cmdClaimInit)
    (hguard : ∀ id ∈ assigns cfg c command, KeepsId s.stored env id) :
    CredentialInv (s.handleInit cfg env c command).1 := by
  have hc := h.ctx c hctx
  have hexchange := h.toExchangeInv.handleInit hc cfg env command
  revert hexchange
  rw [Node.handleInit]
  split
  · next hallowed =>
    split
    · next hinit =>
      cases hb : command.cmdPayload with
      | none => exact fun _ => h
      | some b =>
        dsimp only
        split
        · next hvalid =>
          split
          · next htotal =>
            obtain ⟨hfits, -, -, -⟩ := validateFragment_success hvalid
            have hlt : ([] : List UInt8).length + b.payload.length < maxPayloadSize := by
              rw [List.length_nil]
              omega
            obtain ⟨payload, hwrite, hholds⟩ := (Buffer.holds_zero (by decide)).write _ hlt
            rw [List.length_nil] at hwrite
            rw [hwrite]
            dsimp only
            obtain ⟨stored', c', e, heq, hwritten, hcases⟩ :=
              handleClaimInitResponse_cases cfg env s.stored
                (c := { c with payload := payload }) hholds.terminated
            -- the guard is about the node ID of this response
            have hkeeps : ∀ text id, payload.text = some text → offeredId cfg text = some id →
                KeepsId s.stored env id := by
              intro text id htext hid
              refine hguard id ?_
              rw [assigns, if_pos ⟨hinit, hmsg⟩, hb, Option.mem_def, Option.bind_some, hwrite,
                Option.bind_some, htext, Option.bind_some, hid]
            obtain ⟨hcertified, hbase⟩ := h.idWritten hwritten hkeeps
            rcases hcases with ⟨rfl, hprepared⟩ | ⟨he, hunprepared⟩
            · rw [heq]
              dsimp only
              intro hexchange
              obtain ⟨d, hd, hcsr, hattempt, hstored, hissue, hhost, hbase'⟩ :=
                sendFragment_ctx (s := { s with stored := stored' })
                  (c := { c' with state := .initDone })
              obtain ⟨id, hid, hcsrFor⟩ := hprepared.csrFor
              refine ⟨hexchange, ?_, ?_, ?_⟩
              · rw [Certified, hstored, hissue, hhost]
                exact hcertified
              · rw [hstored, hbase']
                exact hbase
              · rw [hstored, hd]
                intro d' hd'
                obtain rfl := Option.some.inj hd'
                intro _
                rw [hcsr, hattempt]
                exact ⟨id, hcsrFor.trans (by rw [hprepared.attempt]), hid⟩
            · rw [heq]
              rcases he with rfl | rfl
              · intro hexchange
                refine ⟨hexchange, hcertified, hbase, ?_⟩
                intro d hd
                obtain rfl := Option.some.inj hd
                intro hstate
                rw [hunprepared.state] at hstate
                rw [show c.state = .init from hinit] at hstate
                exact hstate.elim (by simp) (by simp)
              · intro hexchange
                exact ⟨hexchange, hcertified, hbase, fun _ hd => by cases hd⟩
          · exact fun _ => h
        · exact fun _ => h
    · next hinit =>
      have hdone := (checkCommand_init.mp hallowed).resolve_left hinit
      intro hexchange
      obtain ⟨d, hd, hcsr, hattempt, hstored, hissue, hhost, hbase⟩ :=
        sendFragment_ctx (s := s) (c := c)
      refine h.of_stored hexchange hstored hissue hhost hbase ?_
      rw [hd]
      intro d' hd'
      obtain rfl := Option.some.inj hd'
      intro _
      rw [hcsr, hattempt]
      exact h.csr c hctx (.inl hdone)
  · exact fun _ => h

/-- A verify response stores the certificate and the host together, or nothing. -/
theorem handleVerify (hctx : s.ctx = some c) {command : Command}
    (hmsg : command.msg = .cmdClaimVerify)
    (hguard : ∀ r ∈ completes cfg c command, StoresBoth s.stored env r.1 r.2) :
    CredentialInv (s.handleVerify cfg env c command).1 := by
  have hc := h.ctx c hctx
  have hexchange := h.toExchangeInv.handleVerify hc cfg env command
  revert hexchange
  rw [Node.handleVerify]
  split
  · next hallowed =>
    have hstate := checkCommand_verify.mp hallowed
    obtain ⟨id, hcsrFor, hid⟩ := h.csr c hctx (.inr hstate)
    cases hf : command.cmdPayload.map PayloadBuf.fragment with
    | none => exact fun _ => h
    | some f =>
      dsimp only
      split
      · next hvalid =>
        obtain ⟨hfits, -, -, -⟩ := validateFragment_success hvalid
        split
        · next hcontinues =>
          obtain ⟨c', htaken, hc', -, hstate', -, -, -, hattempt', hcsr'⟩ :=
            ExchangeInv.takeFragment hc hstate hcontinues hfits
          rw [htaken]
          dsimp only
          have hcsrFor' : c'.csrFor = some (c'.attempt, id) := by
            rw [hcsr', hattempt']
            exact hcsrFor
          split
          · next hwhole =>
            obtain ⟨s', e, heq, hanswered, he, hcases⟩ :=
              handleClaimVerifyResponse_cases cfg env s hc'.terminated
            rw [heq]
            have hid' : s'.stored.clientId = some id := hanswered.clientId.trans hid
            -- what the storage promises after the response, and what an attempt has found
            have hstored : Certified s' ∧ (e ≠ .ok → ∀ b, s'.base = some b →
                s'.stored.identity = b ∧ s'.stored.clientCert.isSome = true) := by
              rcases hcases with hrefused | hinstalled
              · rw [Certified, hrefused.stored, hrefused.issue, hrefused.hostFrom, hanswered.base]
                exact ⟨h.certified, fun _ => h.base⟩
              · obtain ⟨cert, host, hoffered, hcert, hhost⟩ := hinstalled.offered
                have hboth : StoresBoth s.stored env cert host := by
                  refine hguard (cert, host) ?_
                  rw [completes, if_pos ⟨hstate, hmsg⟩, hf, Option.mem_def, Option.bind_some,
                    if_pos ⟨hcontinues, hwhole⟩, htaken, Option.bind_some, hc'.terminated.text,
                    Option.bind_some, hoffered]
                obtain ⟨hw, hne, hkept, hconfirmed⟩ :=
                  hboth hcert hinstalled.allocated hinstalled.kept
                obtain ⟨hfrom, herr⟩ := hhost hw hne hkept
                refine ⟨fun _ => ⟨_, id, hinstalled.issue, hcsrFor', hid', hfrom⟩, ?_⟩
                intro hfailed b hb
                rw [hanswered.base] at hb
                rw [hconfirmed (h.base b hb).2] at herr
                exact absurd herr hfailed
            obtain ⟨hcertified, hbase⟩ := hstored
            have hcsr : c'.state = .initDone ∨ c'.state = .verifyPending →
                ∃ id, c'.csrFor = some (c'.attempt, id) ∧ s'.stored.clientId = some id :=
              fun _ => ⟨id, hcsrFor', hid'⟩
            rcases he with rfl | rfl | rfl
            · intro hexchange
              refine ⟨hexchange, hcertified, (by simp), ?_⟩
              intro d hd
              obtain rfl := Option.some.inj hd
              exact fun hs => hs.elim (by simp) (by simp)
            · intro hexchange
              refine ⟨hexchange, hcertified, hbase (by simp), ?_⟩
              intro d hd
              obtain rfl := Option.some.inj hd
              exact hcsr
            · intro hexchange
              exact ⟨hexchange, hcertified, hbase (by simp), fun _ hd => by cases hd⟩
          · intro hexchange
            refine h.of_stored hexchange rfl rfl rfl rfl ?_
            intro d hd
            obtain rfl := Option.some.inj hd
            exact fun _ => ⟨id, hcsrFor', hid⟩
        · exact fun _ => h
      · exact fun _ => h
  · exact fun _ => h

theorem handleAbort (c : ClaimData) : CredentialInv (s.handleAbort c).1 := by
  have hexchange := h.toExchangeInv.handleAbort c
  revert hexchange
  rw [Node.handleAbort]
  split
  · intro hexchange
    refine h.of_stored hexchange rfl rfl rfl rfl ?_
    intro d hd
    obtain rfl := Option.some.inj hd
    exact fun hs => hs.elim (by simp) (by simp)
  · exact fun _ => h

theorem endpointHandler (command : Option Command) (hguard : Careful cfg s (.message command env)) :
    CredentialInv (s.endpointHandler cfg env command).1 := by
  unfold Node.endpointHandler
  split
  · exact h
  · exact h
  · next c command hctx =>
    obtain ⟨hassigns, hcompletes⟩ := hguard c hctx
    dsimp only
    cases hmsg : command.msg with
    | cmdClaimStart => exact h.handleStart hctx
    | cmdClaimInit => exact h.handleInit hctx hmsg hassigns
    | cmdClaimVerify => exact h.handleVerify hctx hmsg hcompletes
    | cmdClaimAbort => exact h.handleAbort c
    | other value => exact h

end CredentialInv

/-- The key and the random bytes are none of the three. -/
theorem loadOrGenerateKey_identity (stored : Credentials) (env : InitAnswers) :
    (loadOrGenerateKey stored env).1.identity = stored.identity := by
  have hkey : (obtainKey stored env).1.identity = stored.identity := by
    rw [obtainKey]
    split
    · rfl
    · split
      · rfl
      · dsimp only
        split <;> rfl
  have hrandom : ∀ stored : Credentials,
      (ensureRandom stored env).1.identity = stored.identity := by
    intro stored
    rw [ensureRandom]
    split
    · rfl
    · dsimp only
      split <;> rfl
  rw [loadOrGenerateKey]
  split
  · next heq =>
    rw [heq] at hkey
    exact hkey
  · next heq =>
    rw [heq] at hkey
    exact (hrandom _).trans hkey

theorem CredentialInv.preProvInit (h : CredentialInv s) (env : InitAnswers)
    (hexchange : ExchangeInv (s.preProvInit env)) : CredentialInv (s.preProvInit env) := by
  revert hexchange
  rw [Node.preProvInit]
  split
  · exact fun _ => h
  · intro hexchange
    have hidentity := loadOrGenerateKey_identity s.stored env
    have hid : (loadOrGenerateKey s.stored env).1.clientId = s.stored.clientId :=
      congrArg Identity.clientId hidentity
    have hcert : (loadOrGenerateKey s.stored env).1.clientCert = s.stored.clientCert :=
      congrArg Identity.clientCert hidentity
    refine ⟨hexchange, ?_, ?_, ?_⟩
    · show (loadOrGenerateKey s.stored env).1.clientCert.isSome = true →
        ∃ i id, s.issue = some i ∧ i.csrFor = some (i.attempt, id)
          ∧ (loadOrGenerateKey s.stored env).1.clientId = some id ∧ s.hostFrom = some i.response
      rw [hcert, hid]
      exact h.certified
    · intro b hb
      obtain ⟨hbase, hclaimed⟩ := h.base b hb
      refine ⟨hidentity.trans hbase, ?_⟩
      show (loadOrGenerateKey s.stored env).1.clientCert.isSome = true
      rw [hcert]
      exact hclaimed
    · intro c hc
      change (if env.registered then (loadOrGenerateKey s.stored env).2 else none) = some c at hc
      split at hc
      · obtain ⟨key, rfl⟩ := loadOrGenerateKey_ctx hc
        exact fun hs => hs.elim (by simp) (by simp)
      · cases hc

/-- A careful step keeps the invariant. -/
theorem CredentialInv.step {t : Node} {a : Action} (h : CredentialInv s)
    (hguard : Careful cfg s a) (hstep : Claim.step cfg s a = some t) : CredentialInv t := by
  have hexchange := h.toExchangeInv.step hstep
  cases a with
  | preProvInit env =>
    rw [Claim.step] at hstep
    split at hstep
    · obtain rfl := Option.some.inj hstep
      exact h.preProvInit env hexchange
    · cases hstep
  | message command env =>
    obtain rfl := Option.some.inj hstep
    exact h.endpointHandler command hguard
  | release =>
    obtain rfl := Option.some.inj hstep
    exact h.noCtx
  | reboot =>
    obtain rfl := Option.some.inj hstep
    exact h.noCtx

/-- **Claimed credentials.** Runs of careful steps keep them consistent. -/
theorem consistent_of_careful (hs : Reach InitialClaim (step cfg) (Careful cfg) s) :
    Consistent s := by
  have h : CredentialInv s := by
    refine hs.inv CredentialInv ?_ fun _ _ _ h hguard hstep => h.step hguard hstep
    intro s ⟨⟨hctx, hfault, hparsed⟩, hbase, hcertified⟩
    refine ⟨⟨hfault, ?_, ?_⟩, hcertified, ?_, ?_⟩
    · rw [hctx]
      exact fun c hc => nomatch hc
    · rw [hparsed]
      exact fun p hp => nomatch hp
    · rw [hbase]
      exact fun b hb => nomatch hb
    · rw [hctx]
      exact fun c hc => nomatch hc
  exact ⟨h.certified, fun b hb => (h.base b hb).1⟩

/-! ### Four short runs -/

instance (stored : Credentials) (env : Answers) (id : List UInt8) :
    Decidable (KeepsId stored env id) := inferInstanceAs (Decidable (_ → _))

instance (stored : Credentials) (env : Answers) (cert host : List UInt8) :
    Decidable (StoresBoth stored env cert host) := inferInstanceAs (Decidable (_ → _))

instance (cfg : Config) (s : Node) : (a : Action) → Decidable (Careful cfg s a)
  | .message (some _) _ => inferInstanceAs (Decidable (∀ c ∈ s.ctx, _))
  | .message none _ | .preProvInit _ | .release | .reboot => .isTrue trivial

theorem emptyNode_initial : InitialClaim {} :=
  ⟨⟨rfl, rfl, rfl⟩, rfl, fun hclaimed => absurd hclaimed Bool.false_ne_true⟩

/-- The certificate and the host are stored, and the next boot finds the node claimed. -/
theorem rebooted_consistent : ∃ s, Reach InitialClaim (step sampleClaim) (Careful sampleClaim) s
    ∧ exec (step sampleClaim) {} (claimVerified ++ [.reboot, .preProvInit {}]) = some s
    ∧ s.stored.identity = ⟨some (ascii "n1"), some (ascii "c1"), some (ascii "h1")⟩
    ∧ Consistent s := by
  have hsome : (exec (step sampleClaim) {} (claimVerified ++ [.reboot, .preProvInit {}])).isSome
      = true := by decide +kernel
  obtain ⟨s, hs⟩ := Option.isSome_iff_exists.mp hsome
  have hstored : (exec (step sampleClaim) {} (claimVerified ++ [.reboot, .preProvInit {}])).map
      (fun s => s.stored.identity)
      = some ⟨some (ascii "n1"), some (ascii "c1"), some (ascii "h1")⟩ := by decide +kernel
  rw [hs] at hstored
  have hrun : Reach InitialClaim (step sampleClaim) (Careful sampleClaim) s :=
    Reach.exec (claimVerified ++ [.reboot, .preProvInit {}])
      (.start emptyNode_initial) (by decide +kernel) hs
  exact ⟨s, hrun, hs, Option.some.inj hstored, consistent_of_careful hrun⟩

/-- A verify response in one fragment. -/
def verifyWith (response : List UInt8) (env : Answers) : Action :=
  let buf : PayloadBuf :=
    { offset := 0, payload := response, totallen := UInt32.ofNat response.length }
  .message (some { msg := .cmdClaimVerify, cmdPayload := some buf }) env

/-- A node that was claimed as `n0`. -/
def claimedNode : Node where
  stored :=
    { clientCert := some (ascii "c0"), clientId := some (ascii "n0"), mqttHost := some (ascii "h0") }
  issue := some { attempt := 0, response := 0, csrFor := some (0, ascii "n0") }
  hostFrom := some 0

/-- The host cannot be written after the certificate, or it is empty: the node is claimed and has no
host. In the third run the certificate of a claimed node cannot be read at the gate, and the
attempt that is then given up has written its node ID. -/
theorem mixedCredentials :
    (∃ s, Reach InitialClaim (step sampleClaim) (fun _ _ => True) s
      ∧ exec (step sampleClaim) {}
          (claimUpToVerify ++ [verifyWith sampleVerifyResponse { hostWrite := .failed }, .reboot])
        = some s ∧ ¬Consistent s)
    ∧ (∃ s, Reach InitialClaim (step sampleClaim) (fun _ _ => True) s
      ∧ exec (step sampleClaim) {} (claimUpToVerify ++ [verifyWith sampleHostless {}, .reboot])
        = some s ∧ ¬Consistent s)
    ∧ ∃ s, Reach InitialClaim (step sampleClaim) (fun _ _ => True) s
      ∧ exec (step sampleClaim) claimedNode
          (.preProvInit { certRead := false } :: claimUpToVerify.tail ++ [.release]) = some s
        ∧ ¬Consistent s := by
  -- the node is claimed, and the host is not the one of the response
  have hlost : ∀ s : Node, s.stored.clientCert.isSome = true → s.hostFrom = none →
      ¬Consistent s := by
    intro s hclaimed hhost h
    obtain ⟨i, id, -, -, -, hfrom⟩ := h.certified hclaimed
    rw [hhost] at hfrom
    cases hfrom
  refine ⟨?_, ?_, ?_⟩
  · have hstored : (exec (step sampleClaim) {} (claimUpToVerify ++
        [verifyWith sampleVerifyResponse { hostWrite := .failed }, .reboot])).map
        (fun s => (s.stored.clientCert.isSome, s.hostFrom)) = some (true, none) := by
      decide +kernel
    obtain ⟨s, hs, heq⟩ := Option.map_eq_some_iff.mp hstored
    obtain ⟨hclaimed, hhost⟩ := Prod.mk.inj heq
    exact ⟨s, Reach.exec_true _ (.start emptyNode_initial) hs, hs, hlost s hclaimed hhost⟩
  · have hstored : (exec (step sampleClaim) {} (claimUpToVerify ++
        [verifyWith sampleHostless {}, .reboot])).map
        (fun s => (s.stored.clientCert.isSome, s.hostFrom)) = some (true, none) := by
      decide +kernel
    obtain ⟨s, hs, heq⟩ := Option.map_eq_some_iff.mp hstored
    obtain ⟨hclaimed, hhost⟩ := Prod.mk.inj heq
    exact ⟨s, Reach.exec_true _ (.start emptyNode_initial) hs, hs, hlost s hclaimed hhost⟩
  · have hstored : (exec (step sampleClaim) claimedNode
        (.preProvInit { certRead := false } :: claimUpToVerify.tail ++ [.release])).map
        (fun s => (s.base, s.stored.identity))
        = some (some claimedNode.stored.identity,
          { claimedNode.stored.identity with clientId := some (ascii "n1") }) := by
      decide +kernel
    obtain ⟨s, hs, heq⟩ := Option.map_eq_some_iff.mp hstored
    obtain ⟨hbase, hidentity⟩ := Prod.mk.inj heq
    have hclaimed : InitialClaim claimedNode :=
      ⟨⟨rfl, rfl, rfl⟩, rfl, fun _ => ⟨_, ascii "n0", rfl, rfl, rfl, rfl⟩⟩
    refine ⟨s, Reach.exec_true _ (.start hclaimed) hs, hs, ?_⟩
    intro h
    have hsame := h.untouched _ hbase
    rw [hidentity] at hsame
    exact absurd hsame (by decide +kernel)

end RainMakerNeo.Claim
