import RainMakerNeo.Claim.Exchange

/-!
# `RainMakerNeo.Claim.Reassembly`: fragments in and out of the payload buffer

One buffer serves both directions. `exchanged` says what holds after any messages: no command
leaves the buffer, and its last byte stays a NUL. A text that reaches the parser of the verify
response is what contiguous fragments with one total have brought. The last state is final.

The responses to the init command bring the verify request to the phone (`Session.sent`). The
cursor moves, and the state with it, before there is a response. When the response cannot be
allocated, its slice never comes (`lostFragment_not_exchanged`). Without that, what has come are
consecutive slices of the request, and all of it in the end.

`prepareVerify_cases` and `handleClaimInitResponse_cases` say what the functions do that use the
buffer as scratch.
-/

set_option autoImplicit false

namespace RainMakerNeo.Claim

open RainMakerNeo.Lib

variable {cfg : Config} {env : Answers} {stored : Credentials} {c : ClaimData}

/-! ### The functions that use the buffer as scratch -/

/-- What a function on the buffer leaves alone. -/
structure Scratch (c c' : ClaimData) : Prop where
  state : c'.state = c.state
  attempt : c'.attempt = c.attempt
  received : c'.received = c.received
  terminated : c'.payload.Terminated

/-- The verify request is not made: the one before stays in the history. -/
structure Unprepared (c c' : ClaimData) : Prop extends Scratch c c' where
  request : c'.request = c.request

/-- The verify request stands in the buffer, and the cursor at its start. -/
structure Prepared (stored : Credentials) (c c' : ClaimData) : Prop extends Scratch c c' where
  offset : c'.payloadOffset = 0
  len : c'.payloadLen = c'.request.length
  inside : c'.payloadLen < maxPayloadSize
  request : c'.request <+: c'.payload.bytes
  csrFor : ∃ id, stored.clientId = some id ∧ c'.csrFor = some (c.attempt, id)

theorem Scratch.refl (h : c.payload.Terminated) : Scratch c c := ⟨rfl, rfl, rfl, h⟩

theorem Unprepared.refl (h : c.payload.Terminated) : Unprepared c c := ⟨.refl h, rfl⟩

theorem generateClaimInitRequest_cases (cfg : Config) (env : Answers) (h : c.payload.Terminated) :
    (∃ payload len, generateClaimInitRequest cfg env c
        = ({ c with payload := payload, payloadLen := len, payloadOffset := 0 }, .ok)
      ∧ payload.Terminated ∧ len ≤ maxPayloadSize)
    ∨ generateClaimInitRequest cfg env c = (c, .fail) := by
  rw [generateClaimInitRequest]
  split
  · exact .inr rfl
  · cases hmac : env.mac with
    | none => exact .inr rfl
    | some mac =>
      obtain ⟨payload, hprint, hterminated, -⟩ :=
        h.print (by decide) (initRequest mac cfg.platform)
      have hlen : (cString payload.bytes).length ≤ maxPayloadSize :=
        Nat.le_trans (List.takeWhile_prefix _).length_le (Nat.le_of_eq payload.length)
      refine .inl ⟨payload, _, ?_, hterminated, hlen⟩
      dsimp only
      rw [hprint]
      dsimp only
      rw [hterminated.text]

theorem generateCsr_cases (stored : Credentials) (env : Answers) (c : ClaimData) :
    (∃ pem id, generateCsr stored env c
        = ({ c with csr := pem, csrFor := some (c.attempt, id) }, .ok)
      ∧ stored.clientId = some id)
    ∨ generateCsr stored env c = (c, .fail) := by
  rw [generateCsr]
  cases hid : stored.clientId with
  | none => exact .inr rfl
  | some id =>
    dsimp only
    cases hcsr : env.csr id with
    | none => exact .inr rfl
    | some pem =>
      dsimp only
      split
      · exact .inr rfl
      · exact .inl ⟨pem, id, rfl, rfl⟩

/-- The escaped CSR fits the buffer with its NUL. -/
theorem escapeCsr_cases :
    ∃ payload csr, payload.Terminated
      ∧ (escapeCsr c = ({ c with payload := payload, csr := csr }, .ok)
        ∨ escapeCsr c = ({ c with payload := payload, csr := csr }, .fail)) := by
  have hlt : ([] : List UInt8).length
      + (escapeNewLine maxPayloadSize (cString c.csr)).1.length < maxPayloadSize := by
    rw [List.length_nil, Nat.zero_add]
    exact escapeNewLine_length (by decide) _
  obtain ⟨payload, hwrite, hholds⟩ := (Buffer.holds_zero (by decide)).write _ hlt
  have hterminated := hholds.terminated
  rw [List.length_nil] at hwrite
  rw [escapeCsr]
  dsimp only
  rw [hwrite]
  dsimp only
  split
  · rw [hterminated.text]
    dsimp only
    split
    · exact ⟨payload, _, hterminated, .inr rfl⟩
    · exact ⟨payload, _, hterminated, .inl rfl⟩
  · exact ⟨payload, _, hterminated, .inr rfl⟩

theorem buildVerifyRequest_cases (cfg : Config) (h : c.payload.Terminated) :
    ∃ payload, payload.Terminated
      ∧ ((buildVerifyRequest cfg c
          = ({ c with payload := payload, payloadLen := (cfg.verifyRequest c.csr).length
                      payloadOffset := 0, request := cfg.verifyRequest c.csr }, .ok)
        ∧ (cfg.verifyRequest c.csr).length < maxPayloadSize
        ∧ cfg.verifyRequest c.csr <+: payload.bytes)
      ∨ buildVerifyRequest cfg c = ({ c with payload := payload }, .fail)) := by
  obtain ⟨payload, hprint, hterminated, hbytes⟩ := h.print (by decide) (cfg.verifyRequest c.csr)
  refine ⟨payload, hterminated, ?_⟩
  rw [buildVerifyRequest]
  dsimp only
  rw [hprint]
  dsimp only
  split
  · exact .inr rfl
  · next hfits =>
    rw [Nat.not_lt, Nat.succ_le_iff] at hfits
    rw [List.take_of_length_le (by omega)] at hbytes
    exact .inl ⟨rfl, hfits, hbytes⟩

/-- The verify request is made for the node ID that is stored, or it is not made. -/
theorem prepareVerify_cases (cfg : Config) (env : Answers) (stored : Credentials)
    (h : c.payload.Terminated) :
    (∃ c', prepareVerify cfg stored env c = (c', .ok) ∧ Prepared stored c c')
    ∨ ∃ c', prepareVerify cfg stored env c = (c', .fail) ∧ Unprepared c c' := by
  rw [prepareVerify]
  rcases generateCsr_cases stored env c with ⟨pem, id, heq, hid⟩ | heq
  · rw [heq]
    dsimp only
    obtain ⟨payload, csr, hterminated, hescape | hescape⟩ :=
      escapeCsr_cases (c := { c with csr := pem, csrFor := some (c.attempt, id) })
    · rw [hescape]
      dsimp only
      obtain ⟨payload', hterminated', ⟨hbuild, hlt, hbytes⟩ | hbuild⟩ :=
        buildVerifyRequest_cases cfg
          (c := { c with payload := payload, csr := csr, csrFor := some (c.attempt, id) })
          hterminated
      · rw [hbuild]
        exact .inl ⟨_, rfl, ⟨⟨rfl, rfl, rfl, hterminated'⟩, rfl, rfl, hlt, hbytes, id, hid, rfl⟩⟩
      · rw [hbuild]
        exact .inr ⟨_, rfl, ⟨⟨rfl, rfl, rfl, hterminated'⟩, rfl⟩⟩
    · rw [hescape]
      exact .inr ⟨_, rfl, ⟨⟨rfl, rfl, rfl, hterminated⟩, rfl⟩⟩
  · rw [heq]
    exact .inr ⟨c, rfl, .refl h⟩

theorem setClientId_cases (stored : Credentials) (w : Write) (id : List UInt8) :
    ∃ stored' e, setClientId stored w id = (stored', e)
      ∧ (stored' = stored ∨ w.kept = true ∧ stored' = { stored with clientId := some id })
      ∧ (e = .ok ∨ e = .fail ∨ e = .reboot) := by
  rw [setClientId]
  split
  · exact ⟨_, _, rfl, .inl rfl, .inr (.inl rfl)⟩
  · refine ⟨_, _, rfl, ?_, ?_⟩
    · split
      · next hkept => exact .inr ⟨hkept, rfl⟩
      · exact .inl rfl
    · cases w with
      | stored => exact .inl rfl
      | failed => exact .inr (.inl rfl)
      | unconfirmed => exact .inr (.inl rfl)
      | reboot kept => exact .inr (.inr rfl)

/-- The storage after an init response: the node ID of the response, or nothing, is written. -/
def IdWritten (cfg : Config) (env : Answers) (c : ClaimData) (stored stored' : Credentials) :
    Prop :=
  stored' = stored ∨ env.idWrite.kept = true ∧ ∃ text id, c.payload.text = some text
    ∧ offeredId cfg text = some id ∧ stored' = { stored with clientId := some (cString id) }

theorem handleClaimInitResponse_cases (cfg : Config) (env : Answers) (stored : Credentials)
    (h : c.payload.Terminated) :
    ∃ stored' c' e, handleClaimInitResponse cfg env stored c = (stored', c', e)
      ∧ IdWritten cfg env c stored stored'
      ∧ (e = .ok ∧ Prepared stored' c c' ∨ (e = .fail ∨ e = .reboot) ∧ Unprepared c c') := by
  rw [handleClaimInitResponse, h.text]
  dsimp only
  cases hid : offeredId cfg (cString c.payload.bytes) with
  | none => exact ⟨_, _, _, rfl, .inl rfl, .inr ⟨.inl rfl, .refl h⟩⟩
  | some id =>
    dsimp only
    obtain ⟨stored', e, hset, hstored, he⟩ :=
      setClientId_cases stored env.idWrite (cString id)
    have hwritten : IdWritten cfg env c stored stored' :=
      hstored.imp_right fun hkept => ⟨hkept.1, _, id, h.text, hid, hkept.2⟩
    rw [hset]
    rcases he with rfl | rfl | rfl
    · dsimp only
      rcases prepareVerify_cases cfg env stored' h with
        ⟨c', heq, hprepared⟩ | ⟨c', heq, hunprepared⟩
      · rw [heq]
        exact ⟨_, c', .ok, rfl, hwritten, .inl ⟨rfl, hprepared⟩⟩
      · rw [heq]
        exact ⟨_, c', .fail, rfl, hwritten, .inr ⟨.inl rfl, hunprepared⟩⟩
    · exact ⟨_, _, .fail, rfl, hwritten, .inr ⟨.inl rfl, .refl h⟩⟩
    · exact ⟨_, _, .reboot, rfl, hwritten, .inr ⟨.inr rfl, .refl h⟩⟩

theorem setClientCert_cases (s : Node) (w : Write) (issue : Issue) (cert : List UInt8) :
    ∃ s' e, s.setClientCert w issue cert = (s', e)
      ∧ (s' = s ∧ (e = .fail ∨ e = .reboot)
        ∨ cert ≠ [] ∧ w.kept = true
          ∧ s' = { s with stored := { s.stored with clientCert := some cert }, issue := some issue }
          ∧ (e = .ok ∧ w = .stored ∨ w ≠ .stored ∧ (e = .fail ∨ e = .reboot))) := by
  rw [Node.setClientCert]
  split
  · exact ⟨_, _, rfl, .inl ⟨rfl, .inl rfl⟩⟩
  · next hne =>
    refine ⟨_, _, rfl, ?_⟩
    cases w with
    | stored => exact .inr ⟨hne, rfl, rfl, .inl ⟨rfl, rfl⟩⟩
    | failed => exact .inl ⟨rfl, .inl rfl⟩
    | unconfirmed => exact .inr ⟨hne, rfl, rfl, .inr ⟨nofun, .inl rfl⟩⟩
    | reboot kept =>
      cases kept with
      | true => exact .inr ⟨hne, rfl, rfl, .inr ⟨nofun, .inr rfl⟩⟩
      | false => exact .inl ⟨rfl, .inr rfl⟩

theorem setMqttHost_cases (s : Node) (w : Write) (response : Nat) (host : List UInt8) :
    ∃ s' e, s.setMqttHost w response host = (s', e)
      ∧ (s' = s ∧ (host = [] ∨ w.kept = false) ∧ (e = .fail ∨ e = .reboot)
        ∨ host ≠ [] ∧ w.kept = true ∧ e = w.err
          ∧ s' = { s with
            stored := { s.stored with mqttHost := some host }, hostFrom := some response }) := by
  rw [Node.setMqttHost]
  split
  · next hempty => exact ⟨_, _, rfl, .inl ⟨rfl, .inl hempty, .inl rfl⟩⟩
  · next hne =>
    refine ⟨_, _, rfl, ?_⟩
    cases w with
    | stored => exact .inr ⟨hne, rfl, rfl, rfl⟩
    | failed => exact .inl ⟨rfl, .inr rfl, .inl rfl⟩
    | unconfirmed => exact .inr ⟨hne, rfl, rfl, rfl⟩
    | reboot kept =>
      cases kept with
      | true => exact .inr ⟨hne, rfl, rfl, rfl⟩
      | false => exact .inl ⟨rfl, .inr rfl, .inr rfl⟩

/-- A verify response changes only what is stored and the history. -/
structure Answered (s : Node) (p : Parse) (s' : Node) : Prop where
  ctx : s'.ctx = s.ctx
  fault : s'.fault = s.fault
  base : s'.base = s.base
  parsed : s'.parsed = s.parsed ++ [p]
  clientId : s'.stored.clientId = s.stored.clientId

/-- Nothing of a verify response is stored. -/
structure Refused (s s' : Node) (e : Err) : Prop where
  stored : s'.stored = s.stored
  issue : s'.issue = s.issue
  hostFrom : s'.hostFrom = s.hostFrom
  err : e = .fail ∨ e = .reboot

/-- The certificate of a verify response is stored. The host is, if its write is reached. -/
structure Installed (cfg : Config) (env : Answers) (s : Node) (c : ClaimData) (text : List UInt8)
    (s' : Node) (e : Err) : Prop where
  kept : env.certWrite.kept = true
  allocated : env.allocated = true
  offered : ∃ cert host, Node.offered cfg text = some (cert, host) ∧ cert ≠ []
    ∧ (env.certWrite = .stored → host ≠ [] → env.hostWrite.kept = true →
      s'.hostFrom = some (s.responses + 1) ∧ e = env.hostWrite.err)
  issue : s'.issue
    = some { attempt := c.attempt, response := s.responses + 1, csrFor := c.csrFor }

theorem handleClaimVerifyResponse_cases (cfg : Config) (env : Answers) (s : Node)
    (h : c.payload.Terminated) :
    ∃ s' e, s.handleClaimVerifyResponse cfg env c = (s', e)
      ∧ Answered s { text := cString c.payload.bytes, fragments := c.received } s'
      ∧ (e = .ok ∨ e = .fail ∨ e = .reboot)
      ∧ (Refused s s' e ∨ Installed cfg env s c (cString c.payload.bytes) s' e) := by
  rw [Node.handleClaimVerifyResponse, h.text]
  dsimp only
  split
  · exact ⟨_, .fail, rfl, ⟨rfl, rfl, rfl, rfl, rfl⟩, .inr (.inl rfl),
      .inl ⟨rfl, rfl, rfl, .inl rfl⟩⟩
  · next cert host hoffered =>
    split
    · next halloc =>
      obtain ⟨s', e, hcert, ⟨rfl, he⟩ | ⟨hne, hkept, rfl, he⟩⟩ :=
        setClientCert_cases { s with
          responses := s.responses + 1
          parsed := s.parsed ++ [{ text := cString c.payload.bytes, fragments := c.received }] }
          env.certWrite
          { attempt := c.attempt, response := s.responses + 1, csrFor := c.csrFor } cert
      · rw [hcert]
        rcases he with rfl | rfl
        · exact ⟨_, .fail, rfl, ⟨rfl, rfl, rfl, rfl, rfl⟩, .inr (.inl rfl),
            .inl ⟨rfl, rfl, rfl, .inl rfl⟩⟩
        · exact ⟨_, .reboot, rfl, ⟨rfl, rfl, rfl, rfl, rfl⟩, .inr (.inr rfl),
            .inl ⟨rfl, rfl, rfl, .inr rfl⟩⟩
      · rw [hcert]
        rcases he with ⟨rfl, hw⟩ | ⟨hw, rfl | rfl⟩
        · dsimp only
          obtain ⟨s', e, hhost, ⟨rfl, hlost, he⟩ | ⟨hhostNe, hhostKept, rfl, rfl⟩⟩ :=
            setMqttHost_cases { s with
              stored := { s.stored with clientCert := some cert }
              responses := s.responses + 1
              issue := some
                { attempt := c.attempt, response := s.responses + 1, csrFor := c.csrFor }
              parsed := s.parsed ++ [{ text := cString c.payload.bytes, fragments := c.received }] }
              env.hostWrite (s.responses + 1) host
          · refine ⟨_, e, hhost, ⟨rfl, rfl, rfl, rfl, rfl⟩, .inr he, .inr ⟨hkept, halloc, ?_, rfl⟩⟩
            refine ⟨cert, host, hoffered, hne, ?_⟩
            intro _ hhostNe hhostKept
            rcases hlost with hempty | hlost
            · exact absurd hempty hhostNe
            · rw [hlost] at hhostKept
              cases hhostKept
          · refine ⟨_, _, hhost, ⟨rfl, rfl, rfl, rfl, rfl⟩, ?_, .inr ⟨hkept, halloc, ?_, rfl⟩⟩
            · cases env.hostWrite with
              | stored => exact .inl rfl
              | failed => exact .inr (.inl rfl)
              | unconfirmed => exact .inr (.inl rfl)
              | reboot kept => exact .inr (.inr rfl)
            · exact ⟨cert, host, hoffered, hne, fun _ _ _ => ⟨rfl, rfl⟩⟩
        · exact ⟨_, .fail, rfl, ⟨rfl, rfl, rfl, rfl, rfl⟩, .inr (.inl rfl),
            .inr ⟨hkept, halloc, ⟨cert, host, hoffered, hne, fun h => absurd h hw⟩, rfl⟩⟩
        · exact ⟨_, .reboot, rfl, ⟨rfl, rfl, rfl, rfl, rfl⟩, .inr (.inr rfl),
            .inr ⟨hkept, halloc, ⟨cert, host, hoffered, hne, fun h => absurd h hw⟩, rfl⟩⟩
    · exact ⟨_, .fail, rfl, ⟨rfl, rfl, rfl, rfl, rfl⟩, .inr (.inl rfl),
        .inl ⟨rfl, rfl, rfl, .inl rfl⟩⟩

/-! ### The invariant -/

/-- The fragments that were taken in stand in the buffer, one behind the other. -/
structure Assembled (c : ClaimData) : Prop where
  holds : c.payload.Holds (Fragment.join c.received)
  offset : c.payloadOffset = (Fragment.join c.received).length
  contiguous : Fragment.Contiguous c.payloadTotal c.received

/-- The request stands in the buffer, and the cursor in it or at its end. -/
structure Sending (c : ClaimData) : Prop where
  len : c.payloadLen = c.request.length
  inside : c.payloadLen < maxPayloadSize
  offset : c.payloadOffset ≤ c.payloadLen
  request : c.request <+: c.payload.bytes

/-- What a context keeps. -/
structure ClaimInv (c : ClaimData) : Prop where
  terminated : c.payload.Terminated
  sending : c.state = .initDone → Sending c
  -- a cursor that is not at the start belongs to fragments that were taken in
  assembled : c.state = .verifyPending → c.payloadOffset ≠ 0 → Assembled c

/-- The text is what contiguous fragments have brought, up to its first NUL. -/
def Parse.Whole (p : Parse) : Prop :=
  p.text = cString (Fragment.join p.fragments)
    ∧ Fragment.Contiguous (Fragment.join p.fragments).length p.fragments

/-- What the storage and the context keep. -/
structure ExchangeInv (s : Node) : Prop where
  inside : s.fault = false
  ctx : ∀ c, s.ctx = some c → ClaimInv c
  parsed : ∀ p ∈ s.parsed, p.Whole

/-- The bytes of the request behind the cursor. -/
theorem Sending.slice {len : Nat} (h : Sending c)
    (hlen : c.payloadOffset + len ≤ c.payloadLen) :
    c.payload.slice c.payloadOffset len = some ((c.request.drop c.payloadOffset).take len) := by
  have hinside := h.inside
  rw [Buffer.slice_eq_some (by omega)]
  obtain ⟨rest, hrest⟩ := h.request
  rw [← hrest, List.drop_append_of_le_length, List.take_append_of_le_length]
  · rw [List.length_drop, ← h.len]
    omega
  · rw [← h.len]
    omega

/-- A state in which only the terminator matters. -/
theorem ClaimInv.of_state (h : c.payload.Terminated) (hdone : c.state ≠ .initDone)
    (hpending : c.state ≠ .verifyPending) : ClaimInv c :=
  ⟨h, fun hs => absurd hs hdone, fun hs => absurd hs hpending⟩

/-- The fragment is the slice of the request behind the cursor, and the cursor moves over it. -/
structure Sends (cursor : Nat) (f : Fragment) (c' : ClaimData) : Prop where
  offset : f.offset = cursor
  total : f.total = c'.request.length
  payload : f.payload = (c'.request.drop cursor).take f.payload.length
  short : f.payload.length ≤ fragmentSize
  next : c'.state = .initDone ∧ c'.payloadOffset = cursor + f.payload.length
    ∨ c'.state = .verifyPending ∧ c'.request.length = cursor + f.payload.length

theorem sendFragment_cases (s : Node) (hterminated : c.payload.Terminated) (hsending : Sending c)
    (hstate : c.state = .initDone) :
    ∃ f c', s.sendFragment c = (s.put c', { status := .success, buf := f }) ∧ ClaimInv c'
      ∧ c'.request = c.request ∧ Sends c.payloadOffset f c' := by
  have hle := hsending.offset
  rw [Node.sendFragment]
  -- the length of the slice
  obtain ⟨len, hlen, hshort, heq⟩ : ∃ len, c.payloadOffset + len ≤ c.payloadLen
      ∧ len ≤ fragmentSize ∧ (if c.payloadLen < c.payloadOffset
        ∨ fragmentSize < c.payloadLen - c.payloadOffset then fragmentSize
        else c.payloadLen - c.payloadOffset) = len := by
    refine ⟨_, ?_, ?_, rfl⟩ <;> split <;> omega
  rw [heq, hsending.slice hlen]
  dsimp only
  have hpayload : ((c.request.drop c.payloadOffset).take len).length = len := by
    rw [List.length_take, List.length_drop, ← hsending.len]
    omega
  split
  · next hend =>
    -- the last slice
    refine ⟨_, _, rfl, ⟨hterminated, (fun hs => by cases hs), fun _ hne => absurd rfl hne⟩, rfl, ?_⟩
    refine ⟨rfl, hsending.len, ?_, ?_, .inr ⟨rfl, ?_⟩⟩
    · rw [hpayload]
    · rw [hpayload]
      exact hshort
    · rw [hpayload, hend, hsending.len]
  · next hmore =>
    refine ⟨_, _, rfl, ⟨hterminated, fun _ => ?_, fun hs => ?_⟩, rfl, ?_⟩
    · exact ⟨hsending.len, hsending.inside, hlen, hsending.request⟩
    · rw [hstate] at hs
      cases hs
    · refine ⟨rfl, hsending.len, ?_, ?_, .inl ⟨hstate, ?_⟩⟩
      · rw [hpayload]
      · rw [hpayload]
        exact hshort
      · rw [hpayload]

/-- The init response that the command carries is taken, and the verify request is made. -/
def takesInit (cfg : Config) (env : Answers) (stored : Credentials) (c : ClaimData)
    (command : Command) : Bool :=
  match command.cmdPayload with
  | none => false
  | some b =>
    validateFragment maxPayloadSize b.offset.toNat b.payload.length b.totallen.toNat = .success
      && b.payload.length = b.totallen.toNat
      && match (Buffer.zero maxPayloadSize).write 0 b.payload with
        | none => false
        | some payload =>
          (handleClaimInitResponse cfg env stored { c with payload := payload }).2.2 = .ok

/-- An init command brings a fragment: the first one of a new request, or the next one. -/
structure Pumped (cfg : Config) (env : Answers) (s : Node) (c : ClaimData) (command : Command)
    (f : Fragment) (c' : ClaimData) : Prop where
  inv : ClaimInv c'
  sends : c.state = .init ∧ takesInit cfg env s.stored c command = true ∧ Sends 0 f c'
    ∨ c.state = .initDone ∧ c'.request = c.request ∧ Sends c.payloadOffset f c'

/-- An init command brings no fragment, and no request is made. -/
structure NotPumped (s s' : Node) (c : ClaimData) : Prop where
  fault : s'.fault = s.fault
  parsed : s'.parsed = s.parsed
  ctx : s'.ctx = s.ctx
    ∨ ∀ c', s'.ctx = some c' → c.state = .init ∧ c'.state = .init ∧ c'.payload.Terminated

theorem handleInit_cases (s : Node) (hc : ClaimInv c) (cfg : Config) (env : Answers)
    (command : Command) :
    (∃ stored f c', s.handleInit cfg env c command
        = ({ s with stored := stored }.put c', { status := .success, buf := f })
      ∧ Pumped cfg env s c command f c')
    ∨ ∃ s' status, s.handleInit cfg env c command = (s', { status := status })
      ∧ status ≠ .success ∧ NotPumped s s' c := by
  have hsame : NotPumped s s c := ⟨rfl, rfl, .inl rfl⟩
  rw [Node.handleInit]
  split
  · next hallowed =>
    split
    · next hinit =>
      cases hb : command.cmdPayload with
      | none => exact .inr ⟨s, _, rfl, by decide, hsame⟩
      | some b =>
        dsimp only
        split
        · next hvalid =>
          split
          · next htotal =>
            obtain ⟨hfits, -, -, -⟩ := validateFragment_success hvalid
            have hlt : ([] : List UInt8).length + b.payload.length < maxPayloadSize := by
              rw [List.length_nil]
              omega
            obtain ⟨payload, hwrite, hholds⟩ := (Buffer.holds_zero (by decide)).write _ hlt
            rw [List.length_nil] at hwrite
            rw [hwrite]
            dsimp only
            obtain ⟨stored', c', e, heq, -, ⟨rfl, hprepared⟩ | ⟨he, hunprepared⟩⟩ :=
              handleClaimInitResponse_cases cfg env s.stored
                (c := { c with payload := payload }) hholds.terminated
            · rw [heq]
              dsimp only
              have hsending : Sending { c' with state := .initDone } := by
                refine ⟨hprepared.len, hprepared.inside, ?_, hprepared.request⟩
                show c'.payloadOffset ≤ c'.payloadLen
                rw [hprepared.offset]
                exact Nat.zero_le _
              obtain ⟨f, d, hsend, hd, -, hsends⟩ :=
                sendFragment_cases (c := { c' with state := .initDone })
                  { s with stored := stored' } hprepared.terminated hsending rfl
              refine .inl ⟨stored', f, d, hsend, hd, .inl ⟨hinit, ?_, ?_⟩⟩
              · rw [takesInit, hb]
                dsimp only
                rw [hwrite]
                dsimp only
                rw [heq, decide_eq_true hvalid, decide_eq_true htotal]
                rfl
              · rw [show (0 : Nat) = c'.payloadOffset from hprepared.offset.symm]
                exact hsends
            · rw [heq]
              have hstate : c'.state = .init := hunprepared.state.trans hinit
              refine .inr ?_
              rcases he with rfl | rfl
              · refine ⟨_, _, rfl, by decide, rfl, rfl, .inr fun d hd => ?_⟩
                obtain rfl := Option.some.inj hd
                exact ⟨hinit, hstate, hunprepared.terminated⟩
              · exact ⟨_, _, rfl, by decide, rfl, rfl, .inr fun d hd => by cases hd⟩
          · exact .inr ⟨s, _, rfl, by decide, hsame⟩
        · next hinvalid => exact .inr ⟨s, _, rfl, hinvalid, hsame⟩
    · next hinit =>
      have hdone := (checkCommand_init.mp hallowed).resolve_left hinit
      obtain ⟨f, d, hsend, hd, hrequest, hsends⟩ :=
        sendFragment_cases s hc.terminated (hc.sending hdone) hdone
      exact .inl ⟨s.stored, f, d, hsend, hd, .inr ⟨hdone, hrequest, hsends⟩⟩
  · next hrefused => exact .inr ⟨s, _, rfl, hrefused, hsame⟩

namespace ExchangeInv

variable {s : Node}

section
variable (h : ExchangeInv s)
include h

theorem of_ctx {t : Node} (hfault : t.fault = s.fault) (hparsed : t.parsed = s.parsed)
    (hctx : ∀ c, t.ctx = some c → ClaimInv c) : ExchangeInv t := by
  refine ⟨hfault.trans h.inside, hctx, ?_⟩
  rw [hparsed]
  exact h.parsed

theorem put (hc : ClaimInv c) : ExchangeInv (s.put c) := by
  refine h.of_ctx rfl rfl ?_
  intro c' hc'
  obtain rfl := Option.some.inj hc'
  exact hc

theorem noCtx : ExchangeInv { s with ctx := none } :=
  h.of_ctx rfl rfl fun _ hc => nomatch hc

/-- A command that ends early without a fault. -/
theorem failed (hc : ClaimInv c) {e : Err} (status : Status) (he : e = .fail ∨ e = .reboot) :
    ExchangeInv (s.failed c status e).1 := by
  rcases he with rfl | rfl
  · exact h.put hc
  · exact h.noCtx

theorem handleStart (hc : ClaimInv c) (cfg : Config) (env : Answers) :
    ExchangeInv (s.handleStart cfg env c).1 := by
  rw [Node.handleStart]
  split
  · rcases generateClaimInitRequest_cases cfg env hc.terminated with
      ⟨payload, len, heq, hterminated, hlen⟩ | heq
    · rw [heq]
      dsimp only
      rw [Buffer.slice_eq_some (by omega)]
      refine h.of_ctx rfl rfl ?_
      intro c' hc'
      obtain rfl := Option.some.inj hc'
      exact .of_state hterminated (by simp) (by simp)
    · rw [heq]
      exact h.failed hc .fail (.inl rfl)
  · exact h

theorem handleInit (hc : ClaimInv c) (cfg : Config) (env : Answers) (command : Command) :
    ExchangeInv (s.handleInit cfg env c command).1 := by
  rcases handleInit_cases s hc cfg env command with ⟨stored, f, c', heq, hpumped⟩ |
    ⟨s', status, heq, -, hnot⟩
  · rw [heq]
    exact (h.of_ctx rfl rfl h.ctx : ExchangeInv { s with stored := stored }).put hpumped.inv
  · rw [heq]
    refine h.of_ctx hnot.fault hnot.parsed fun c' hc' => ?_
    rcases hnot.ctx with hsame | hinit
    · exact h.ctx c' (hsame ▸ hc')
    · obtain ⟨-, hstate, hterminated⟩ := hinit c' hc'
      exact .of_state hterminated (by simp [hstate]) (by simp [hstate])

end

/-- A fragment that starts a response or goes on with it. -/
theorem takeFragment (hc : ClaimInv c) (hstate : c.state = .verifyPending) {f : Fragment}
    (hcontinues : Node.continues c f = true)
    (hfits : f.offset + f.payload.length < maxPayloadSize) :
    ∃ c', Node.takeFragment c f = some c' ∧ ClaimInv c' ∧ Assembled c'
      ∧ c'.state = .verifyPending ∧ c'.payloadOffset = f.offset + f.payload.length
      ∧ c'.payloadTotal = f.total ∧ c'.request = c.request ∧ c'.attempt = c.attempt
      ∧ c'.csrFor = c.csrFor := by
  -- the context before the write, and where the fragment goes
  obtain ⟨d, hd, hassembled, htotal, hframe⟩ : ∃ d : ClaimData,
      (if f.offset = 0 then
        { c with payload := .zero maxPayloadSize, payloadTotal := f.total, received := [] }
      else c) = d
      ∧ (d.payload.Holds (Fragment.join d.received)
        ∧ f.offset = (Fragment.join d.received).length
        ∧ Fragment.Contiguous d.payloadTotal d.received)
      ∧ f.total = d.payloadTotal
      ∧ (d.state = c.state ∧ d.request = c.request ∧ d.attempt = c.attempt
        ∧ d.csrFor = c.csrFor) := by
    refine ⟨_, rfl, ?_⟩
    split
    · next hzero =>
      exact ⟨⟨Buffer.holds_zero (by decide), hzero, Fragment.contiguous_nil _⟩, rfl,
        rfl, rfl, rfl, rfl⟩
    · next hne =>
      rw [Node.continues, fragmentInSequence, fragmentTotalPinned, Bool.and_eq_true,
        Bool.or_eq_true, Bool.or_eq_true] at hcontinues
      simp only [decide_eq_true_eq, hne, false_or] at hcontinues
      obtain ⟨hoffset, htotal⟩ := hcontinues
      have hassembled := hc.assembled hstate (hoffset ▸ hne)
      exact ⟨⟨hassembled.holds, hoffset.trans hassembled.offset, hassembled.contiguous⟩, htotal,
        rfl, rfl, rfl, rfl⟩
  obtain ⟨hholds, hoffset, hcontiguous⟩ := hassembled
  obtain ⟨hs, hrequest, hattempt, hcsr⟩ := hframe
  obtain ⟨payload, hwrite, hholds'⟩ := hholds.write f.payload (by omega)
  rw [← hoffset] at hwrite
  have hassembled : Assembled { d with
      payload := payload, payloadOffset := f.offset + f.payload.length
      payloadLen := f.offset + f.payload.length, received := d.received ++ [f] } := by
    have hjoin : Fragment.join (d.received ++ [f])
        = Fragment.join d.received ++ f.payload := by
      rw [Fragment.join_append, Fragment.join_singleton]
    refine ⟨?_, ?_, hcontiguous.append hoffset htotal⟩
    · show payload.Holds (Fragment.join (d.received ++ [f]))
      rw [hjoin]
      exact hholds'
    · show f.offset + f.payload.length = (Fragment.join (d.received ++ [f])).length
      rw [hjoin, List.length_append, hoffset]
  refine ⟨_, ?_, ?_, hassembled, hs.trans hstate, rfl, htotal.symm, hrequest, hattempt, hcsr⟩
  · rw [Node.takeFragment, hd, hwrite]
    rfl
  · refine ⟨hholds'.terminated, ?_, fun _ _ => hassembled⟩
    intro hdone
    change d.state = .initDone at hdone
    rw [hs, hstate] at hdone
    cases hdone

theorem handleVerify (h : ExchangeInv s) (hc : ClaimInv c) (cfg : Config) (env : Answers)
    (command : Command) :
    ExchangeInv (s.handleVerify cfg env c command).1 := by
  rw [Node.handleVerify]
  split
  · next hallowed =>
    have hstate := checkCommand_verify.mp hallowed
    cases hf : command.cmdPayload.map PayloadBuf.fragment with
    | none => exact h
    | some f =>
      dsimp only
      split
      · next hvalid =>
        obtain ⟨hfits, -, -, -⟩ := validateFragment_success hvalid
        split
        · next hcontinues =>
          obtain ⟨c', htaken, hc', hassembled, -, hoffset, htotal, -, -, -⟩ :=
            takeFragment hc hstate hcontinues hfits
          rw [htaken]
          dsimp only
          split
          · next hwhole =>
            obtain ⟨s', e, heq, hanswered, he, -⟩ :=
              handleClaimVerifyResponse_cases cfg env s hc'.terminated
            -- the text is the one of the fragments, which have the length that they declare
            have hs' : ExchangeInv s' := by
              refine ⟨hanswered.fault.trans h.inside, ?_, ?_⟩
              · rw [hanswered.ctx]
                exact h.ctx
              · rw [hanswered.parsed]
                intro p hp
                rcases List.mem_append.mp hp with hp | hp
                · exact h.parsed p hp
                · obtain rfl := List.mem_singleton.mp hp
                  have htext := hassembled.holds.text
                  rw [hc'.terminated.text] at htext
                  have hcontiguous := hassembled.contiguous
                  rw [htotal, ← hwhole, ← hoffset, hassembled.offset] at hcontiguous
                  exact ⟨Option.some.inj htext, hcontiguous⟩
            rw [heq]
            rcases he with rfl | rfl | rfl
            · refine hs'.of_ctx rfl rfl ?_
              intro d hd
              obtain rfl := Option.some.inj hd
              exact .of_state hc'.terminated (by simp) (by simp)
            · exact hs'.failed hc' .invalidParam (.inl rfl)
            · exact hs'.failed hc' .invalidParam (.inr rfl)
          · exact h.put hc'
        · exact h
      · exact h
  · exact h

theorem handleAbort (h : ExchangeInv s) (c : ClaimData) :
    ExchangeInv (s.handleAbort c).1 := by
  rw [Node.handleAbort]
  split
  · exact h.put (.of_state (Buffer.zero_terminated (by decide)) (by simp) (by simp))
  · exact h

theorem endpointHandler (h : ExchangeInv s) (command : Option Command) :
    ExchangeInv (s.endpointHandler cfg env command).1 := by
  unfold Node.endpointHandler
  split
  · exact h
  · exact h
  · next c command hctx =>
    have hc := h.ctx c hctx
    dsimp only
    cases command.msg with
    | cmdClaimStart => exact h.handleStart hc _ _
    | cmdClaimInit => exact h.handleInit hc _ _ command
    | cmdClaimVerify => exact h.handleVerify hc _ _ command
    | cmdClaimAbort => exact h.handleAbort c
    | other value => exact h

/-- A context that was just made. -/
theorem fresh (key : List UInt8) : ClaimInv { keyPem := key, state := .pkGenerated } :=
  .of_state (Buffer.zero_terminated (by decide)) (by simp) (by simp)

end ExchangeInv

/-- The context that `loadOrGenerateKey` makes. -/
theorem loadOrGenerateKey_ctx {env : InitAnswers}
    (h : (loadOrGenerateKey stored env).2 = some c) :
    ∃ key, c = { keyPem := key, state := .pkGenerated } := by
  rw [loadOrGenerateKey] at h
  split at h
  · cases h
  · next key _ =>
    dsimp only at h
    split at h
    · exact ⟨key, (Option.some.inj h).symm⟩
    · cases h

variable {s : Node} {sent : List Fragment} {c' : ClaimData}

/-- The context of a node that had none is one that was just made. -/
theorem preProvInit_ctx {env : InitAnswers} (hnone : s.ctx = none)
    (h : (s.preProvInit env).ctx = some c) :
    ∃ key, c = { keyPem := key, state := .pkGenerated } := by
  rw [Node.preProvInit] at h
  split at h
  · rw [hnone] at h
    cases h
  · change (if env.registered then (loadOrGenerateKey s.stored env).2 else none) = some c at h
    split at h
    · exact loadOrGenerateKey_ctx h
    · cases h

/-- A step keeps the invariant. -/
theorem ExchangeInv.step {t : Node} {a : Action} (h : ExchangeInv s)
    (hstep : Claim.step cfg s a = some t) : ExchangeInv t := by
  cases a with
  | preProvInit env =>
    rw [Claim.step] at hstep
    split at hstep
    · next hnone =>
      obtain rfl := Option.some.inj hstep
      refine h.of_ctx (by rw [Node.preProvInit]; split <;> rfl)
        (by rw [Node.preProvInit]; split <;> rfl) fun c hc => ?_
      obtain ⟨key, rfl⟩ := preProvInit_ctx (Option.isNone_iff_eq_none.mp hnone) hc
      exact ExchangeInv.fresh key
    · cases hstep
  | message command env =>
    obtain rfl := Option.some.inj hstep
    exact h.endpointHandler command
  | release =>
    obtain rfl := Option.some.inj hstep
    exact h.noCtx
  | reboot =>
    obtain rfl := Option.some.inj hstep
    exact h.noCtx

/-! ### What the phone gets -/

/-- The node, and the fragments of the verify request that its responses have brought. -/
structure Session where
  node : Node := {}
  /-- From the init command on that has brought the init response. -/
  sent : List Fragment := []
  deriving DecidableEq

/-- An init command in INIT: what was sent before belongs to an earlier request. -/
def opens (s : Node) (command : Option Command) : Bool :=
  command.any fun command =>
    command.msg = .cmdClaimInit && s.ctx.any fun c => c.state = .init

/-- The fragment that a response brings: one to an init command that succeeds. -/
def returned : Option Command → Option Response → List Fragment
  | some command, some response =>
    if command.msg = .cmdClaimInit ∧ response.status = .success then [response.buf] else []
  | _, _ => []

/-- The next step, with the response that the endpoint returns. -/
def Session.step (cfg : Config) (s : Session) (a : Action) : Option Session :=
  (Claim.step cfg s.node a).map fun node =>
    match a with
    | .message command env =>
      { node, sent := (if opens s.node command then [] else s.sent)
        ++ returned command (s.node.endpointHandler cfg env command).2 }
    | _ => { node }

/-- What was sent are consecutive slices of the request, from its start on. -/
structure Slices (sent : List Fragment) (request : List UInt8) : Prop where
  contiguous : Fragment.Contiguous request.length sent
  join : Fragment.join sent <+: request
  short : ∀ f ∈ sent, f.payload.length ≤ fragmentSize

/-- What the phone has got, and what is left. -/
structure Told (sent : List Fragment) (c : ClaimData) : Prop where
  slices : Slices sent c.request
  sending : c.state = .initDone → Fragment.join sent = c.request.take c.payloadOffset
  complete : c.state = .verifyPending ∨ c.state = .verifyDone → Fragment.join sent = c.request

theorem Slices.nil (request : List UInt8) : Slices [] request :=
  ⟨Fragment.contiguous_nil _, List.nil_prefix, fun _ hf => by cases hf⟩

/-- In a state before the request is sent, nothing needs to have come. -/
theorem Told.of_state (h : Slices sent c.request) (hdone : c.state ≠ .initDone)
    (hpending : c.state ≠ .verifyPending) (hverified : c.state ≠ .verifyDone) : Told sent c :=
  ⟨h, fun hs => absurd hs hdone, fun hs => absurd hs (not_or.mpr ⟨hpending, hverified⟩)⟩

/-- One more slice. -/
theorem Told.append {cursor : Nat} {f : Fragment} (hslices : Slices sent c'.request)
    (hjoin : Fragment.join sent = c'.request.take cursor) (hcursor : cursor ≤ c'.request.length)
    (hf : Sends cursor f c') : Told (sent ++ [f]) c' := by
  have hjoin' :
      Fragment.join (sent ++ [f]) = c'.request.take (cursor + f.payload.length) := by
    rw [Fragment.join_append, Fragment.join_singleton, List.take_add, hjoin, ← hf.payload]
  have hoffset : f.offset = (Fragment.join sent).length := by
    rw [hf.offset, hjoin, List.length_take, Nat.min_eq_left hcursor]
  refine ⟨⟨hslices.contiguous.append hoffset hf.total, ?_, ?_⟩, ?_, ?_⟩
  · rw [hjoin']
    exact List.take_prefix _ _
  · intro g hg
    rcases List.mem_append.mp hg with hg | hg
    · exact hslices.short g hg
    · rw [List.mem_singleton.mp hg]
      exact hf.short
  · intro hs
    rcases hf.next with ⟨-, hnext⟩ | ⟨hpending, -⟩
    · rw [hjoin', hnext]
    · rw [hpending] at hs
      cases hs
  · intro hs
    rcases hf.next with ⟨hdone, -⟩ | ⟨-, hall⟩
    · rw [hdone] at hs
      exact hs.elim (by simp) (by simp)
    · rw [hjoin', ← hall, List.take_length]

/-- A command that brings no fragment leaves the context, or a state in which none is due. -/
def Quiet (s' : Node) (c : ClaimData) : Prop :=
  ∀ c', s'.ctx = some c' → c' = c ∨ c'.request = c.request ∧ c'.state ≠ .initDone
    ∧ (c'.state = .verifyPending ∨ c'.state = .verifyDone → c.state = .verifyPending)

theorem Told.quiet {s' : Node} (h : Told sent c) (hs : Quiet s' c) (hc' : s'.ctx = some c') :
    Told sent c' := by
  rcases hs c' hc' with rfl | ⟨hrequest, hdone, hpending⟩
  · exact h
  · refine ⟨hrequest ▸ h.slices, fun hs => absurd hs hdone, fun hs => ?_⟩
    rw [hrequest]
    exact h.complete (.inl (hpending hs))

section Quiet

variable {s : Node}

variable (hctx : s.ctx = some c)
include hctx

/-- Nothing happens. -/
theorem Quiet.same : Quiet s c :=
  fun _ hc' => .inl (Option.some.inj (hc'.symm.trans hctx))

theorem quiet_handleStart (h : c.payload.Terminated) (cfg : Config) (env : Answers) :
    Quiet (s.handleStart cfg env c).1 c := by
  rw [Node.handleStart]
  split
  · rcases generateClaimInitRequest_cases cfg env h with ⟨payload, len, heq, -, hlen⟩ | heq
    · rw [heq]
      dsimp only
      rw [Buffer.slice_eq_some (by omega)]
      intro c' hc'
      obtain rfl := Option.some.inj hc'
      exact .inr ⟨rfl, by simp, by simp⟩
    · rw [heq]
      exact fun c' hc' => .inl (Option.some.inj hc').symm
  · exact .same hctx

theorem quiet_handleAbort : Quiet (s.handleAbort c).1 c := by
  rw [Node.handleAbort]
  split
  · intro c' hc'
    obtain rfl := Option.some.inj hc'
    exact .inr ⟨rfl, by simp, by simp⟩
  · exact .same hctx

theorem quiet_handleVerify (hc : ClaimInv c) (cfg : Config) (env : Answers) (command : Command) :
    Quiet (s.handleVerify cfg env c command).1 c := by
  rw [Node.handleVerify]
  split
  · next hallowed =>
    have hstate := checkCommand_verify.mp hallowed
    cases hf : command.cmdPayload.map PayloadBuf.fragment with
    | none => exact .same hctx
    | some f =>
      dsimp only
      split
      · next hvalid =>
        obtain ⟨hfits, -, -, -⟩ := validateFragment_success hvalid
        split
        · next hcontinues =>
          obtain ⟨d, htaken, hd, -, hstate', -, -, hrequest, -, -⟩ :=
            ExchangeInv.takeFragment hc hstate hcontinues hfits
          rw [htaken]
          dsimp only
          have hput : ∀ t : Node, Quiet (t.put d) c := by
            intro t c' hc'
            obtain rfl := Option.some.inj hc'
            exact .inr ⟨hrequest, by simp [hstate'], fun _ => hstate⟩
          split
          · obtain ⟨s', e, heq, -, he, -⟩ :=
              handleClaimVerifyResponse_cases cfg env s hd.terminated
            rw [heq]
            rcases he with rfl | rfl | rfl
            · intro c' hc'
              obtain rfl := Option.some.inj hc'
              exact .inr ⟨hrequest, by simp, fun _ => hstate⟩
            · exact hput s'
            · exact fun c' hc' => by cases hc'
          · exact hput s
        · exact .same hctx
      · exact .same hctx
  · exact .same hctx

end Quiet

/-! ### The exchange -/

/-- There is no context yet, and no fault. -/
def Initial (s : Node) : Prop := s.ctx = none ∧ s.fault = false ∧ s.parsed = []

/-- The node after some messages. -/
def afterMessages (cfg : Config) (s : Node) (l : List (Option Command × Answers)) : Node :=
  l.foldl (fun s m => (s.endpointHandler cfg m.2 m.1).1) s

/-- No access leaves the payload buffer and its last byte is a NUL. Each text that was parsed is
what contiguous fragments with one total have brought. After the last state no messages change the
storage. -/
structure Kept (cfg : Config) (s : Node) : Prop where
  inside : s.fault = false
  terminated : ∀ c, s.ctx = some c → c.payload.Terminated
  parsed : ∀ p ∈ s.parsed, p.Whole
  final : ∀ c, s.ctx = some c → c.state = .verifyDone → ∀ l,
    (afterMessages cfg s l).stored = s.stored

/-- What the responses have brought of a verify request are consecutive slices, and all of it once
the exchange waits for the certificate. -/
structure Exchanged (s : Session) : Prop where
  slices : ∀ c, s.node.ctx = some c → Slices s.sent c.request
  complete : ∀ c, s.node.ctx = some c → c.state = .verifyPending ∨ c.state = .verifyDone →
    Fragment.join s.sent = c.request

/-- The response to an init command can be allocated when it has a fragment to bring: in INIT_DONE,
and in INIT when the init response is taken. -/
def Delivered (cfg : Config) (s : Session) : Action → Prop
  | .message (some command) env => command.msg = .cmdClaimInit → ∀ c ∈ s.node.ctx,
    c.state = .initDone ∨ c.state = .init ∧ takesInit cfg env s.node.stored c command = true →
    env.packed = true
  | _ => True

instance (cfg : Config) (s : Session) (a : Action) : Decidable (Delivered cfg s a) :=
  match a with
  | .message (some command) _ =>
    inferInstanceAs (Decidable (command.msg = .cmdClaimInit → ∀ c ∈ s.node.ctx, _ → _))
  | .message none _ | .preProvInit _ | .release | .reboot => isTrue trivial

/-- The last state answers every command, and nothing happens. -/
theorem endpointHandler_verifyDone (hctx : s.ctx = some c) (hstate : c.state = .verifyDone)
    (command : Option Command) : (s.endpointHandler cfg env command).1 = s := by
  unfold Node.endpointHandler
  rw [hctx]
  cases command with
  | none => rfl
  | some command =>
    dsimp only
    cases command.msg with
    | cmdClaimStart => simp [Node.handleStart, hstate]
    | cmdClaimInit => simp [Node.handleInit, hstate]
    | cmdClaimVerify => simp [Node.handleVerify, hstate]
    | cmdClaimAbort => simp [Node.handleAbort, hstate]
    | other value => rfl

theorem afterMessages_verifyDone (hctx : s.ctx = some c) (hstate : c.state = .verifyDone)
    (l : List (Option Command × Answers)) : afterMessages cfg s l = s := by
  induction l with
  | nil => rfl
  | cons m l ih =>
    rw [afterMessages, List.foldl_cons, endpointHandler_verifyDone hctx hstate]
    exact ih

/-- What the node keeps, and what the phone has got of the request of a context. -/
structure Session.Inv (s : Session) : Prop where
  node : ExchangeInv s.node
  told : ∀ c, s.node.ctx = some c → Told s.sent c

/-- An init command: the slice that it makes comes, or it makes none. -/
theorem Session.Inv.init {s : Session} (h : s.Inv) (hctx : s.node.ctx = some c)
    {command : Command} (hmsg : command.msg = .cmdClaimInit)
    (hg : Delivered cfg s (.message (some command) env))
    (hc' : (s.node.handleInit cfg env c command).1.ctx = some c') :
    Told ((if opens s.node (some command) then [] else s.sent)
      ++ returned (some command)
        (if env.packed then some (s.node.handleInit cfg env c command).2 else none)) c' := by
  have hopens : opens s.node (some command) = decide (c.state = .init) := by
    simp [opens, hmsg, hctx]
  have hc := h.node.ctx c hctx
  rcases handleInit_cases s.node hc cfg env command with
    ⟨stored, f, d, heq, hpumped⟩ | ⟨t, status, heq, hstatus, hnot⟩
  · rw [heq] at hc' ⊢
    obtain rfl := Option.some.inj hc'
    have hpacked : env.packed = true := by
      refine hg hmsg c hctx ?_
      rcases hpumped.sends with ⟨hinit, htakes, -⟩ | ⟨hdone, -, -⟩
      · exact .inr ⟨hinit, htakes⟩
      · exact .inl hdone
    have hreturned : returned (some command)
        (some ({ status := .success, buf := f } : Response)) = [f] := if_pos ⟨hmsg, rfl⟩
    rw [hopens, if_pos hpacked, hreturned]
    rcases hpumped.sends with ⟨hinit, -, hsends⟩ | ⟨hdone, hrequest, hsends⟩
    · rw [if_pos (decide_eq_true hinit)]
      exact .append (.nil _) rfl (Nat.zero_le _) hsends
    · have htold := h.told c hctx
      have hsending := hc.sending hdone
      rw [if_neg (by simp [hdone])]
      refine .append (hrequest ▸ htold.slices) ?_ ?_ hsends
      · rw [hrequest]
        exact htold.sending hdone
      · rw [hrequest, ← hsending.len]
        exact hsending.offset
  · rw [heq] at hc' ⊢
    have hreturned : returned (some command)
        (if env.packed then some ({ status := status } : Response) else none) = [] := by
      split
      · exact if_neg fun h => hstatus h.2
      · rfl
    have hinit : c.state = .init → c'.state = .init →
        Told ((if opens s.node (some command) then [] else s.sent) ++ []) c' := by
      intro hstate hstate'
      rw [hopens, if_pos (decide_eq_true hstate)]
      exact .of_state (.nil _) (by simp [hstate']) (by simp [hstate']) (by simp [hstate'])
    rw [hreturned]
    rcases hnot.ctx with hsame | hfirst
    · obtain rfl := Option.some.inj (hctx.symm.trans (hsame.symm.trans hc'))
      by_cases hstate : c.state = .init
      · exact hinit hstate hstate
      · rw [hopens, if_neg (by simp [hstate]), List.append_nil]
        exact h.told c hctx
    · obtain ⟨hstate, hstate', -⟩ := hfirst c' hc'
      exact hinit hstate hstate'

/-- A message brings the slice that it makes, or makes none. -/
theorem Session.Inv.message {s : Session} (h : s.Inv) {command : Option Command}
    (hg : Delivered cfg s (.message command env))
    (hc' : (s.node.endpointHandler cfg env command).1.ctx = some c') :
    Told ((if opens s.node command then [] else s.sent)
      ++ returned command (s.node.endpointHandler cfg env command).2) c' := by
  cases hctx : s.node.ctx with
  | none =>
    simp only [Node.endpointHandler, hctx] at hc'
    cases hc'
  | some c =>
    cases command with
    | none =>
      simp only [Node.endpointHandler, hctx] at hc' ⊢
      obtain rfl := Option.some.inj hc'
      simpa [opens, returned] using h.told c hctx
    | some command =>
      have hc := h.node.ctx c hctx
      -- the commands other than init bring nothing, and leave what has come
      have hquiet : command.msg ≠ .cmdClaimInit → ∀ (t : Node) (r : Option Response),
          Quiet t c → t.ctx = some c' →
          Told ((if opens s.node (some command) then [] else s.sent)
            ++ returned (some command) r) c' := by
        intro hmsg t r hq ht
        have hopens : opens s.node (some command) = false := by simp [opens, hmsg]
        have hreturned : returned (some command) r = [] := by
          cases r with
          | none => rfl
          | some r => exact if_neg fun h => hmsg h.1
        rw [hopens, hreturned, if_neg Bool.false_ne_true, List.append_nil]
        exact (h.told c hctx).quiet hq ht
      simp only [Node.endpointHandler, hctx] at hc' ⊢
      cases hmsg : command.msg with
      | cmdClaimStart =>
        simp only [hmsg] at hc'
        exact hquiet (by simp [hmsg]) _ _ (quiet_handleStart hctx hc.terminated cfg env) hc'
      | cmdClaimInit =>
        simp only [hmsg] at hc' ⊢
        have hsome : (s.node.handleInit cfg env c command).1.ctx.isSome = true := by
          rw [hc']
          rfl
        rw [hsome, Bool.and_true]
        exact h.init hctx hmsg hg hc'
      | cmdClaimVerify =>
        simp only [hmsg] at hc'
        exact hquiet (by simp [hmsg]) _ _ (quiet_handleVerify hctx hc cfg env command) hc'
      | cmdClaimAbort =>
        simp only [hmsg] at hc'
        exact hquiet (by simp [hmsg]) _ _ (quiet_handleAbort hctx) hc'
      | other value =>
        simp only [hmsg] at hc'
        exact hquiet (by simp [hmsg]) _ _ (.same hctx) hc'

/-- A step whose response comes keeps what the phone has got in order. -/
theorem Session.Inv.step {s t : Session} {a : Action} (h : s.Inv) (hg : Delivered cfg s a)
    (hstep : s.step cfg a = some t) : t.Inv := by
  obtain ⟨node, hnode, rfl⟩ := Option.map_eq_some_iff.mp hstep
  refine ⟨?_, ?_⟩
  · cases a <;> exact h.node.step hnode
  · cases a with
    | message command env =>
      obtain rfl := Option.some.inj hnode
      exact fun c' hc' => h.message hg hc'
    | preProvInit env =>
      rw [Claim.step] at hnode
      split at hnode
      · next hnone =>
        obtain rfl := Option.some.inj hnode
        intro c hc
        obtain ⟨key, rfl⟩ := preProvInit_ctx (Option.isNone_iff_eq_none.mp hnone) hc
        exact .of_state (.nil _) (by simp) (by simp) (by simp)
      · cases hnode
    | release =>
      obtain rfl := Option.some.inj hnode
      exact fun _ hc => by cases hc
    | reboot =>
      obtain rfl := Option.some.inj hnode
      exact fun _ hc => by cases hc

theorem exchangeInv_initial (h : Initial s) : ExchangeInv s := by
  obtain ⟨hctx, hfault, hparsed⟩ := h
  refine ⟨hfault, ?_, ?_⟩
  · rw [hctx]
    exact fun c hc => nomatch hc
  · rw [hparsed]
    exact fun p hp => nomatch hp

/-- **The exchange.** Every run stays in the buffer, parses only what contiguous fragments have
brought, and ends in the last state. In a run whose responses can be allocated when they have a
fragment to bring, the phone gets the verify request slice by slice. -/
theorem exchanged (cfg : Config) :
    (∀ s, Reach Initial (step cfg) (fun _ _ => True) s → Kept cfg s)
    ∧ ∀ s : Session, Reach (fun s => Initial s.node) (Session.step cfg) (Delivered cfg) s →
      Kept cfg s.node ∧ Exchanged s := by
  have hkept : ∀ s, ExchangeInv s → Kept cfg s := by
    intro s h
    exact
      { inside := h.inside
        terminated := fun c hc => (h.ctx c hc).terminated
        parsed := h.parsed
        final := fun c hc hstate l => by rw [afterMessages_verifyDone hc hstate] }
  refine ⟨fun s hs => hkept s ?_, fun s hs => ?_⟩
  · exact hs.inv ExchangeInv (fun _ h => exchangeInv_initial h) fun _ _ _ h _ hstep => h.step hstep
  · have h : s.Inv := by
      refine hs.inv Session.Inv ?_ fun _ _ _ h hg hstep => h.step hg hstep
      intro s h
      refine ⟨exchangeInv_initial h, ?_⟩
      rw [h.1]
      exact fun c hc => nomatch hc
    refine ⟨hkept _ h.node, fun c hc => ?_, fun c hc => ?_⟩
    · exact (h.told c hc).slices
    · exact (h.told c hc).complete

/-! ### A short run -/

/-- The init response of the run. -/
def sampleInitResponse : List UInt8 := ascii "\x7b\"node_id\":\"n1\"\x7d"

/-- The verify response of the run. -/
def sampleVerifyResponse : List UInt8 :=
  ascii "\x7b\"certificate\":\"c1\",\"mqtt_host\":\"h1\"\x7d"

/-- A verify response with an empty host. -/
def sampleHostless : List UInt8 :=
  ascii "\x7b\"certificate\":\"c1\",\"mqtt_host\":\"\"\x7d"

/-- The values of the responses. The verify request has the CSR between two texts. -/
def sampleClaim : Config where
  string text key :=
    if text = sampleInitResponse ∧ key = ascii "node_id" then some (ascii "n1")
    else if text = sampleVerifyResponse ∧ key = ascii "certificate" then some (ascii "c1")
    else if text = sampleHostless ∧ key = ascii "certificate" then some (ascii "c1")
    else if text = sampleHostless ∧ key = ascii "mqtt_host" then some []
    else if text = sampleVerifyResponse ∧ key = ascii "mqtt_host" then some (ascii "h1")
    else none
  verifyRequest csr := ascii "\x7b\"csr\":\"" ++ csr ++ ascii "\",\"send_mqtt_host\":true\x7d"
  platform := ascii "esp32"

/-- A command with a fragment. -/
def commandOf (msg : MsgType) (offset : UInt32) (payload : List UInt8) (total : Nat) : Action :=
  .message
    (some { msg := msg, cmdPayload := some { offset, payload, totallen := UInt32.ofNat total } }) {}

/-- A context, the start command, the init response and all of the verify request. -/
def claimUpToVerify : List Action :=
  [.preProvInit {}, .message (some { msg := .cmdClaimStart, cmdPayload := none }) {},
    commandOf .cmdClaimInit 0 sampleInitResponse sampleInitResponse.length]

/-- The verify response in two fragments. -/
def claimVerified : List Action :=
  claimUpToVerify ++
    [commandOf .cmdClaimVerify 0 (sampleVerifyResponse.take 9) sampleVerifyResponse.length,
      commandOf .cmdClaimVerify 9 (sampleVerifyResponse.drop 9) sampleVerifyResponse.length]

/-- The response is put together from its two fragments, and parsed. The request has come. -/
theorem verified_exchanged : ∃ s, exec (Session.step sampleClaim) {} claimVerified = some s
    ∧ s.node.parsed.length = 1 ∧ s.sent.length = 1 ∧ Kept sampleClaim s.node ∧ Exchanged s := by
  have hsome : (exec (Session.step sampleClaim) {} claimVerified).isSome = true := by
    decide +kernel
  obtain ⟨s, hs⟩ := Option.isSome_iff_exists.mp hsome
  have hparsed : (exec (Session.step sampleClaim) {} claimVerified).map
      (fun s => (s.node.parsed.length, s.sent.length)) = some (1, 1) := by decide +kernel
  rw [hs] at hparsed
  obtain ⟨hone, hsent⟩ := Prod.mk.inj (Option.some.inj hparsed)
  have hrun : Reach (fun s : Session => Initial s.node) (Session.step sampleClaim)
      (Delivered sampleClaim) s :=
    Reach.exec claimVerified (.start ⟨rfl, rfl, rfl⟩) (by decide +kernel) hs
  exact ⟨s, hs, hone, hsent, (exchanged sampleClaim).2 s hrun⟩

/-- A context, the start command, and the init response, with no memory for the response to it. -/
def claimUnanswered : List Action :=
  [.preProvInit {}, .message (some { msg := .cmdClaimStart, cmdPayload := none }) {},
    .message (some
      { msg := .cmdClaimInit
        cmdPayload := some ⟨0, sampleInitResponse, UInt32.ofNat sampleInitResponse.length⟩ })
      { packed := false }]

/-- The exchange waits for the certificate, and the phone has nothing of the request. -/
theorem lostFragment_not_exchanged :
    ¬∀ s : Session, Reach (fun s => Initial s.node) (Session.step sampleClaim) (fun _ _ => True) s →
      Exchanged s := by
  have hsome : (exec (Session.step sampleClaim) {} claimUnanswered).isSome = true := by
    decide +kernel
  obtain ⟨s, hs⟩ := Option.isSome_iff_exists.mp hsome
  have hlost : (exec (Session.step sampleClaim) {} claimUnanswered).map
      (fun s => (s.sent, s.node.ctx.map fun c => (c.state, c.request.isEmpty)))
      = some ([], some (.verifyPending, false)) := by decide +kernel
  rw [hs] at hlost
  obtain ⟨hsent, hctx⟩ := Prod.mk.inj (Option.some.inj hlost)
  obtain ⟨c, hc, hstate⟩ := Option.map_eq_some_iff.mp hctx
  obtain ⟨hpending, hrequest⟩ := Prod.mk.inj hstate
  intro h
  have hall := (h s (Reach.exec_true claimUnanswered (.start ⟨rfl, rfl, rfl⟩) hs)).complete c hc
    (.inl hpending)
  rw [hsent] at hall
  rw [← hall] at hrequest
  cases hrequest

end RainMakerNeo.Claim
