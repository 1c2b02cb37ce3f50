import RainMakerNeo.Claim.Rules
import RainMakerNeo.Lib.Buffer
import RainMakerNeo.Lib.Run

/-!
# `RainMakerNeo.Claim.Exchange`: the claim exchange

The phone drives the exchange with four commands. One buffer holds the requests and the responses
in turn. The init response brings the node ID, which is stored before the certificate request is
made for it. The verify response brings the certificate and the MQTT host, which are stored one
after the other.

A context lives from the initialisation to its release or the next restart. Every write can fail,
with or without the value in the storage, and the device can restart in it. A command that leaves
the payload buffer sets `fault`.

The numbers of the attempts and of the verify responses, and the fragments that were taken in, are
history.
-/

set_option autoImplicit false

namespace RainMakerNeo.Claim

open RainMakerNeo.Lib

/-! ### The data -/

/-- `MAX_PAYLOAD_SIZE`. -/
def maxPayloadSize : Nat := 3072

/-- `MAX_CSR_SIZE`. -/
def maxCsrSize : Nat := 512

/-- `CLAIM_FRAGMENT_SIZE`. -/
def fragmentSize : Nat := 200

/-- The size of the buffer for the node ID. -/
def nodeIdSize : Nat := 64

/-- The bytes of a text of the source. -/
def ascii (s : String) : List UInt8 := s.toList.map fun c => UInt8.ofNat c.toNat

/-- The JSON library and the constants. -/
structure Config where
  /-- `json_parse_start` and `json_obj_get_string`: the value of a key of a text. -/
  string : List UInt8 → List UInt8 → Option (List UInt8)
  /-- The text that `claim_rules_build_verify_request` makes for an escaped CSR. -/
  verifyRequest : List UInt8 → List UInt8
  /-- `osal_sysinfo_get_platform_name`. -/
  platform : List UInt8

/-- What the factory partition stores. -/
structure Credentials where
  clientKey : Option (List UInt8) := none
  clientCert : Option (List UInt8) := none
  clientId : Option (List UInt8) := none
  mqttHost : Option (List UInt8) := none
  random : Option (List UInt8) := none
  deriving DecidableEq, Repr

/-- The node ID, the certificate and the host. -/
structure Identity where
  clientId : Option (List UInt8)
  clientCert : Option (List UInt8)
  mqttHost : Option (List UInt8)
  deriving DecidableEq, Repr

/-- The node ID, the certificate and the host that are stored. -/
def Credentials.identity (k : Credentials) : Identity where
  clientId := k.clientId
  clientCert := k.clientCert
  mqttHost := k.mqttHost

/-- `esp_rmaker_claim_data_t`. The fields from `attempt` on are history. -/
structure ClaimData where
  state : ClaimState := .zeroed
  csr : List UInt8 := []
  payload : Buffer maxPayloadSize := .zero maxPayloadSize
  payloadOffset : Nat := 0
  payloadLen : Nat := 0
  payloadTotal : Nat := 0
  keyPem : List UInt8 := []
  /-- The number of the attempt. -/
  attempt : Nat := 0
  /-- The attempt and the node ID that the CSR was made for. -/
  csrFor : Option (Nat × List UInt8) := none
  /-- The verify request. -/
  request : List UInt8 := []
  /-- The fragments that were taken in, from the last one with the offset 0 on. -/
  received : List Fragment := []
  deriving DecidableEq

/-- A certificate that is stored: the attempt and the verify response that brought it, and what
its CSR was made for. -/
structure Issue where
  attempt : Nat
  response : Nat
  csrFor : Option (Nat × List UInt8)
  deriving DecidableEq, Repr

/-- A text that was handed to the parser of the verify response. -/
structure Parse where
  text : List UInt8
  fragments : List Fragment
  deriving DecidableEq, Repr

/-- The storage and the context. The fields from `attempts` on are history. -/
structure Node where
  stored : Credentials := {}
  /-- `claim_ctx`. -/
  ctx : Option ClaimData := none
  /-- A command has left the payload buffer. -/
  fault : Bool := false
  attempts : Nat := 0
  responses : Nat := 0
  /-- What was stored when the last attempt started, if there was a certificate and the attempt has
  not succeeded. -/
  base : Option Identity := none
  /-- What the stored certificate goes back to. -/
  issue : Option Issue := none
  /-- The verify response that the stored host came from. -/
  hostFrom : Option Nat := none
  parsed : List Parse := []
  deriving DecidableEq

/-- `RmakerClaim__PayloadBuf` of a command. -/
structure PayloadBuf where
  offset : UInt32
  payload : List UInt8
  totallen : UInt32
  deriving DecidableEq, Repr

/-- The fragment that a command carries. -/
def PayloadBuf.fragment (b : PayloadBuf) : Fragment where
  offset := b.offset.toNat
  payload := b.payload
  total := b.totallen.toNat

/-- `RmakerClaim__RMakerClaimPayload` of a command. -/
structure Command where
  msg : MsgType
  /-- `cmdPayload`, if the command carries one. -/
  cmdPayload : Option PayloadBuf
  deriving DecidableEq, Repr

/-- `RmakerClaim__RespPayload`. -/
structure Response where
  status : Status := .fail
  buf : Fragment := { offset := 0, payload := [], total := 0 }
  deriving DecidableEq, Repr

/-- How a write to the storage ends. -/
inductive Write
  | stored
  /-- Nothing is stored. -/
  | failed
  /-- The value is stored, and the commit reports an error. -/
  | unconfirmed
  /-- The device restarts, with or without the value in the storage. -/
  | reboot (kept : Bool)
  deriving DecidableEq, Repr

/-- The value is in the storage. -/
def Write.kept : Write → Bool
  | stored | unconfirmed => true
  | failed => false
  | reboot kept => kept

/-- How a function ends. -/
inductive Err
  | ok
  /-- An error code. -/
  | fail
  /-- It has left the payload buffer. -/
  | fault
  /-- The device restarts. -/
  | reboot
  deriving DecidableEq, Repr

/-- What the function reports after a write. -/
def Write.err : Write → Err
  | stored => .ok
  | failed | unconfirmed => .fail
  | reboot _ => .reboot

/-- What the environment answers inside a command. -/
structure Answers where
  /-- `osal_sysinfo_get_base_mac`. -/
  mac : Option (List UInt8) := some [0, 0, 0, 0, 0, 0]
  idWrite : Write := .stored
  /-- The worker task and `esp_rmaker_crypto_gen_csr_pem` for a node ID. -/
  csr : List UInt8 → Option (List UInt8) := fun id => some id
  /-- The buffers for the certificate and the host can be allocated. -/
  allocated : Bool := true
  certWrite : Write := .stored
  hostWrite : Write := .stored
  /-- The response can be allocated. -/
  packed : Bool := true

/-! ### The handlers -/

/-- The two characters of a byte under `%02X`. -/
def hexByte (b : UInt8) : List UInt8 :=
  let digit (n : Nat) : UInt8 := UInt8.ofNat (if n < 10 then 48 + n else 55 + n)
  [digit (b.toNat / 16), digit (b.toNat % 16)]

/-- The text of the init request. -/
def initRequest (mac platform : List UInt8) : List UInt8 :=
  ascii "\x7b\"mac_addr\":\"" ++ mac.flatMap hexByte ++ ascii "\",\"platform\":\"" ++ platform
    ++ ascii "\"\x7d"

/-- `__generate_claim_init_request`. -/
def generateClaimInitRequest (cfg : Config) (env : Answers) (c : ClaimData) : ClaimData × Err :=
  if c.state.value < ClaimState.pkGenerated.value then (c, .fail)
  else
    match env.mac with
    | none => (c, .fail)
    | some mac =>
      match c.payload.print (initRequest mac cfg.platform) with
      | none => (c, .fault)
      | some payload =>
        match payload.text with
        | none => (c, .fault)
        | some text =>
          ({ c with payload := payload, payloadLen := text.length, payloadOffset := 0 }, .ok)

/-- `__generate_csr`, on the worker task. The node ID is read back from the storage. -/
def generateCsr (stored : Credentials) (env : Answers) (c : ClaimData) : ClaimData × Err :=
  match stored.clientId with
  | none => (c, .fail)
  | some nodeId =>
    match env.csr nodeId with
    | none => (c, .fail)
    | some pem =>
      if maxCsrSize < pem.length + 1 then (c, .fail)
      else ({ c with csr := pem, csrFor := some (c.attempt, nodeId) }, .ok)

/-- `__escape_new_line`. The payload buffer is scratch. -/
def escapeCsr (c : ClaimData) : ClaimData × Err :=
  let (escaped, fits) := escapeNewLine maxPayloadSize (cString c.csr)
  match (Buffer.zero maxPayloadSize).write 0 escaped with
  | none => (c, .fault)
  | some payload =>
    let c := { c with payload := payload, csr := dropNewline (cString c.csr) }
    if fits then
      match payload.text with
      | none => (c, .fault)
      | some text =>
        if maxCsrSize < text.length + 1 then (c, .fail) else ({ c with csr := text }, .ok)
    else (c, .fail)

/-- `claim_rules_build_verify_request` into the payload buffer, and the cursor before it. -/
def buildVerifyRequest (cfg : Config) (c : ClaimData) : ClaimData × Err :=
  let text := cfg.verifyRequest c.csr
  match c.payload.print text with
  | none => (c, .fault)
  | some payload =>
    let c := { c with payload := payload }
    if maxPayloadSize < text.length + 1 then (c, .fail)
    else
      ({ c with payloadLen := text.length, payloadOffset := 0, request := text }, .ok)

/-- The verify request for the node ID that is stored. -/
def prepareVerify (cfg : Config) (stored : Credentials) (env : Answers) (c : ClaimData) :
    ClaimData × Err :=
  match generateCsr stored env c with
  | (c, .ok) =>
    match escapeCsr c with
    | (c, .ok) => buildVerifyRequest cfg c
    | r => r
  | r => r

/-- The node ID of an init response. -/
def offeredId (cfg : Config) (text : List UInt8) : Option (List UInt8) :=
  (cfg.string text (ascii "node_id")).filter fun id => id.length < nodeIdSize

/-- `esp_rmaker_credentials_set_client_id`. -/
def setClientId (stored : Credentials) (w : Write) (id : List UInt8) : Credentials × Err :=
  if id = [] then (stored, .fail)
  else (if w.kept then { stored with clientId := some id } else stored, w.err)

/-- `__handle_claim_init_response`. -/
def handleClaimInitResponse (cfg : Config) (env : Answers) (stored : Credentials)
    (c : ClaimData) : Credentials × ClaimData × Err :=
  match c.payload.text with
  | none => (stored, c, .fault)
  | some text =>
    match offeredId cfg text with
    | none => (stored, c, .fail)
    | some id =>
      match setClientId stored env.idWrite (cString id) with
      | (stored, .ok) => (stored, prepareVerify cfg stored env c)
      | (stored, e) => (stored, c, e)

namespace Node

/-- The context goes on with these data. -/
def put (s : Node) (c : ClaimData) : Node := { s with ctx := some c }

/-- A command ends early. -/
def failed (s : Node) (c : ClaimData) (status : Status) : Err → Node × Response
  | .ok | .fail => (s.put c, { status := status })
  | .fault => ({ s.put c with fault := true }, {})
  | .reboot => ({ s with ctx := none }, {})

/-- `__handle_start`. -/
def handleStart (cfg : Config) (env : Answers) (s : Node) (c : ClaimData) : Node × Response :=
  match checkCommand c.state .cmdClaimStart with
  | .success =>
    match generateClaimInitRequest cfg env c with
    | (c, .ok) =>
      let base := if s.stored.clientCert.isSome then some s.stored.identity else none
      let next := { s.put { c with state := .init, attempt := s.attempts + 1 } with
        attempts := s.attempts + 1, base := base }
      match c.payload.slice 0 c.payloadLen with
      | none => ({ next with fault := true }, {})
      | some bytes =>
        (next,
          { status := .success, buf := { offset := 0, payload := bytes, total := c.payloadLen } })
    | (c, e) => s.failed c .fail e
  | status => (s, { status := status })

/-- The fragment of the verify request at the cursor. -/
def sendFragment (s : Node) (c : ClaimData) : Node × Response :=
  -- a cursor behind the end would wrap
  let len :=
    if c.payloadLen < c.payloadOffset ∨ fragmentSize < c.payloadLen - c.payloadOffset then
      fragmentSize
    else c.payloadLen - c.payloadOffset
  match c.payload.slice c.payloadOffset len with
  | none => s.failed c .fail .fault
  | some bytes =>
    let f : Fragment := { offset := c.payloadOffset, payload := bytes, total := c.payloadLen }
    let c := { c with payloadOffset := c.payloadOffset + len }
    let c :=
      if c.payloadOffset = c.payloadLen then
        { c with payloadOffset := 0, payloadLen := 0, payloadTotal := 0, state := .verifyPending }
      else c
    (s.put c, { status := .success, buf := f })

/-- `__handle_init`. -/
def handleInit (cfg : Config) (env : Answers) (s : Node) (c : ClaimData) (command : Command) :
    Node × Response :=
  match checkCommand c.state .cmdClaimInit with
  | .success =>
    if c.state = .init then
      match command.cmdPayload with
      | none => (s, { status := .invalidParam })
      | some b =>
        match validateFragment maxPayloadSize b.offset.toNat b.payload.length b.totallen.toNat with
        | .success =>
          if b.payload.length = b.totallen.toNat then
            match (Buffer.zero maxPayloadSize).write 0 b.payload with
            | none => s.failed c .fail .fault
            | some payload =>
              match handleClaimInitResponse cfg env s.stored { c with payload := payload } with
              | (stored, c, .ok) =>
                sendFragment { s with stored := stored } { c with state := .initDone }
              | (stored, c, e) => { s with stored := stored }.failed c .invalidParam e
          else (s, { status := .invalidParam })
        | status => (s, { status := status })
    else s.sendFragment c
  | status => (s, { status := status })

/-- The certificate and the host of a verify response. -/
def offered (cfg : Config) (text : List UInt8) : Option (List UInt8 × List UInt8) :=
  match cfg.string text (ascii "certificate"), cfg.string text (ascii "mqtt_host") with
  | some cert, some host => some (unescapeNewLine (cString cert), cString host)
  | _, _ => none

/-- `esp_rmaker_credentials_set_client_cert`. -/
def setClientCert (s : Node) (w : Write) (issue : Issue) (cert : List UInt8) : Node × Err :=
  if cert = [] then (s, .fail)
  else
    (if w.kept then
      { s with stored := { s.stored with clientCert := some cert }, issue := some issue }
    else s, w.err)

/-- `esp_rmaker_credentials_set_mqtt_host`. -/
def setMqttHost (s : Node) (w : Write) (response : Nat) (host : List UInt8) : Node × Err :=
  if host = [] then (s, .fail)
  else
    (if w.kept then
      { s with stored := { s.stored with mqttHost := some host }, hostFrom := some response }
    else s, w.err)

/-- `__handle_claim_verify_response`. -/
def handleClaimVerifyResponse (cfg : Config) (env : Answers) (s : Node) (c : ClaimData) :
    Node × Err :=
  match c.payload.text with
  | none => (s, .fault)
  | some text =>
    let s := { s with
      responses := s.responses + 1, parsed := s.parsed ++ [{ text, fragments := c.received }] }
    match offered cfg text with
    | none => (s, .fail)
    | some (cert, host) =>
      if env.allocated then
        let issue : Issue :=
          { attempt := c.attempt, response := s.responses, csrFor := c.csrFor }
        match s.setClientCert env.certWrite issue cert with
        | (s, .ok) => s.setMqttHost env.hostWrite s.responses host
        | r => r
      else (s, .fail)

/-- A fragment goes into the payload buffer, and the cursor behind it. -/
def takeFragment (c : ClaimData) (f : Fragment) : Option ClaimData :=
  let c :=
    if f.offset = 0 then
      { c with payload := .zero maxPayloadSize, payloadTotal := f.total, received := [] }
    else c
  (c.payload.write f.offset f.payload).map fun payload =>
    { c with payload := payload, payloadOffset := f.offset + f.payload.length
             payloadLen := f.offset + f.payload.length, received := c.received ++ [f] }

/-- The fragment starts a response, or goes on with the one that is there. -/
def continues (c : ClaimData) (f : Fragment) : Bool :=
  fragmentInSequence f.offset c.payloadOffset
    && fragmentTotalPinned f.offset f.total c.payloadTotal

/-- `__handle_verify`. -/
def handleVerify (cfg : Config) (env : Answers) (s : Node) (c : ClaimData) (command : Command) :
    Node × Response :=
  match checkCommand c.state .cmdClaimVerify with
  | .success =>
    match command.cmdPayload.map PayloadBuf.fragment with
    | none => (s, { status := .invalidParam })
    | some f =>
      match validateFragment maxPayloadSize f.offset f.payload.length f.total with
      | .success =>
        if continues c f then
          match takeFragment c f with
          | none => s.failed c .fail .fault
          | some c =>
            if f.offset + f.payload.length = f.total then
              match s.handleClaimVerifyResponse cfg env c with
              | (s, .ok) =>
                ({ s.put { c with state := .verifyDone } with base := none },
                  { status := .success })
              | (s, e) => s.failed c .invalidParam e
            else (s.put c, { status := .success })
        else (s, { status := .invalidParam })
      | status => (s, { status := status })
  | status => (s, { status := status })

/-- `__handle_abort`. -/
def handleAbort (s : Node) (c : ClaimData) : Node × Response :=
  match checkCommand c.state .cmdClaimAbort with
  | .success =>
    (s.put { c with
      payload := .zero maxPayloadSize, payloadLen := 0, payloadOffset := 0, payloadTotal := 0
      state := .pkGenerated }, { status := .success })
  | status => (s, { status := status })

/-- `__claim_endpoint_handler`. A command that cannot be unpacked is `none`. There is no response
without a context, for such a command, and when the response cannot be allocated. -/
def endpointHandler (cfg : Config) (env : Answers) (s : Node) (command : Option Command) :
    Node × Option Response :=
  match s.ctx, command with
  | none, _ | some _, none => (s, none)
  | some c, some command =>
    let (s, response) :=
      match command.msg with
      | .cmdClaimStart => s.handleStart cfg env c
      | .cmdClaimInit => s.handleInit cfg env c command
      | .cmdClaimVerify => s.handleVerify cfg env c command
      | .cmdClaimAbort => s.handleAbort c
      | .other _ => (s, {})
    (s, if env.packed && s.ctx.isSome then some response else none)

end Node

/-! ### The context -/

/-- What the environment answers while a context is made. -/
structure InitAnswers where
  /-- The certificate can be read at the gate, and again in the worker task. -/
  certRead : Bool := true
  certReadAgain : Bool := true
  /-- The stored key can be read. -/
  keyRead : Bool := true
  /-- The key can be parsed, and whether it is of the configured type. -/
  keyType : Option Bool := some true
  /-- `esp_rmaker_crypto_gen_key_pem`. -/
  newKey : Option (List UInt8) := some []
  keyWrite : Write := .stored
  randomRead : Bool := true
  randomBytes : List UInt8 := []
  randomWrite : Write := .stored
  /-- The semaphores, the memory and the handlers. -/
  registered : Bool := true
  deriving DecidableEq, Repr

/-- The stored key that the context uses again. -/
def reusedKey (stored : Credentials) (env : InitAnswers) : Option (List UInt8) :=
  if env.keyRead then
    stored.clientKey.filter fun key =>
      key ≠ [] && match env.keyType with
        | none => false
        | some isConfigured =>
          (stored.clientCert.isSome && env.certReadAgain) || isConfigured
  else none

/-- The key part of `__load_or_generate_key`. -/
def obtainKey (stored : Credentials) (env : InitAnswers) : Credentials × Option (List UInt8) :=
  match reusedKey stored env with
  | some key => (stored, some key)
  | none =>
    match env.newKey with
    | none => (stored, none)
    | some key =>
      (if env.keyWrite.kept then { stored with clientKey := some key } else stored,
        if env.keyWrite = .stored then some key else none)

/-- The random bytes part of `__load_or_generate_key`. -/
def ensureRandom (stored : Credentials) (env : InitAnswers) : Credentials × Bool :=
  if stored.random.isSome && env.randomRead then (stored, true)
  else
    (if env.randomWrite.kept then { stored with random := some env.randomBytes } else stored,
      env.randomWrite = .stored)

/-- `__load_or_generate_key`. -/
def loadOrGenerateKey (stored : Credentials) (env : InitAnswers) :
    Credentials × Option ClaimData :=
  match obtainKey stored env with
  | (stored, none) => (stored, none)
  | (stored, some key) =>
    let (stored, done) := ensureRandom stored env
    (stored, if done then some { keyPem := key, state := .pkGenerated } else none)

/-- `esp_rmaker_pre_prov_init`: a context is made if the node has no certificate that it can
read. -/
def Node.preProvInit (s : Node) (env : InitAnswers) : Node :=
  if s.stored.clientCert.isSome && env.certRead then s
  else
    let (stored, made) := loadOrGenerateKey s.stored env
    { s with stored := stored, ctx := if env.registered then made else none }

/-- What happens next. -/
inductive Action
  | preProvInit (env : InitAnswers)
  /-- A message to the endpoint. -/
  | message (command : Option Command) (env : Answers)
  /-- `esp_rmaker_assisted_claim_perform` gives the context up. -/
  | release
  /-- The device restarts. -/
  | reboot

/-- The next step. -/
def step (cfg : Config) (s : Node) : Action → Option Node
  | .preProvInit env => if s.ctx.isNone then some (s.preProvInit env) else none
  | .message command env => some (s.endpointHandler cfg env command).1
  | .release => some { s with ctx := none }
  | .reboot => some { s with ctx := none }

end RainMakerNeo.Claim
