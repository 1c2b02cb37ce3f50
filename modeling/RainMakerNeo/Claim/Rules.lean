import Mathlib.Tactic.Common

/-!
# `RainMakerNeo.Claim.Rules`: the decisions of assisted claiming

Which command is legal in which state, which fragment fits the payload buffer, and how the newlines
of a PEM text travel in a JSON string. `checkCommand_verifyDone` says that the last state refuses
every command, and `validateFragment_success` what a fragment that is let in satisfies.
-/

set_option autoImplicit false

namespace RainMakerNeo.Claim

/-- `esp_rmaker_claim_state_t`. A context starts with zeroed memory, which is no state yet. -/
inductive ClaimState
  | zeroed | pkGenerated | init | initDone | verifyPending | verifyDone
  deriving DecidableEq, Repr

/-- The values of the states. -/
def ClaimState.value : ClaimState → Nat
  | zeroed => 0
  | pkGenerated => 1
  | init => 2
  | initDone => 3
  | verifyPending => 4
  | verifyDone => 5

/-- `RMakerClaimStatus`. -/
inductive Status
  | success | fail | invalidParam | invalidState | noMemory
  deriving DecidableEq, Repr

/-- `RMakerClaimMsgType`. The peer can send a value that is no command. -/
inductive MsgType
  | cmdClaimStart | cmdClaimInit | cmdClaimVerify | cmdClaimAbort
  | other (value : Int)
  deriving DecidableEq, Repr

/-- `claim_rules_check_command`. -/
def checkCommand (state : ClaimState) (msg : MsgType) : Status :=
  if state = .verifyDone then .invalidState
  else
    match msg with
    | .cmdClaimStart =>
      if ClaimState.pkGenerated.value ≤ state.value then .success else .invalidState
    | .cmdClaimInit => if state = .init ∨ state = .initDone then .success else .invalidState
    | .cmdClaimVerify => if state = .verifyPending then .success else .invalidState
    | .cmdClaimAbort => .success
    | .other _ => .invalidState

/-- `claim_rules_validate_fragment`. -/
def validateFragment (capacity offset len totallen : Nat) : Status :=
  if capacity = 0 then .noMemory
  else if capacity ≤ offset then .noMemory
  else if capacity - 1 - offset < len then .noMemory
  else if totallen = 0 ∨ capacity ≤ totallen then .noMemory
  else if totallen < len + offset then .invalidParam
  else .success

/-- `claim_rules_fragment_in_sequence`. -/
def fragmentInSequence (offset expected : Nat) : Bool := offset = 0 || offset = expected

/-- `claim_rules_fragment_total_pinned`. -/
def fragmentTotalPinned (offset totallen expectedTotal : Nat) : Bool :=
  offset = 0 || totallen = expectedTotal

/-- The newline character. -/
def newline : UInt8 := 10

/-- The backslash. -/
def backslash : UInt8 := 92

/-- The letter `n`. -/
def letterN : UInt8 := 110

/-- The loop of `claim_rules_escape_new_line`: what it writes from the position on, and whether the
text fits. -/
def escapeFrom (limit : Nat) : Nat → List UInt8 → List UInt8 × Bool
  | _, [] => ([], true)
  | target, c :: src =>
    if limit ≤ target then ([], false)
    else if c = newline then
      let (rest, fits) := escapeFrom limit (target + 2) src
      (backslash :: letterN :: rest, fits)
    else
      let (rest, fits) := escapeFrom limit (target + 1) src
      (c :: rest, fits)

/-- The text without a newline at its end. -/
def dropNewline (src : List UInt8) : List UInt8 :=
  if src.getLast? = some newline then src.dropLast else src

/-- `claim_rules_escape_new_line`. -/
def escapeNewLine (dstSize : Nat) (src : List UInt8) : List UInt8 × Bool :=
  if dstSize < 3 then ([], false) else escapeFrom (dstSize - 3) 0 (dropNewline src)

/-- `claim_rules_unescape_new_line`. A backslash at the end is dropped. -/
def unescapeNewLine : List UInt8 → List UInt8
  | [] => []
  | [c] => if c = backslash then [] else [c]
  | c :: d :: rest =>
    if c = backslash then (if d = letterN then newline else d) :: unescapeNewLine rest
    else c :: unescapeNewLine (d :: rest)

/-- The last state refuses every command. -/
@[simp] theorem checkCommand_verifyDone (msg : MsgType) :
    checkCommand .verifyDone msg = .invalidState := if_pos rfl

theorem checkCommand_init {state : ClaimState} :
    checkCommand state .cmdClaimInit = .success ↔ state = .init ∨ state = .initDone := by
  cases state <;> decide

theorem checkCommand_verify {state : ClaimState} :
    checkCommand state .cmdClaimVerify = .success ↔ state = .verifyPending := by
  cases state <;> decide

/-- A fragment that is let in ends before the last byte of the buffer, and inside its total. -/
theorem validateFragment_success {capacity offset len totallen : Nat}
    (h : validateFragment capacity offset len totallen = .success) :
    offset + len < capacity ∧ offset + len ≤ totallen ∧ totallen < capacity ∧ 0 < totallen := by
  rw [validateFragment] at h
  split at h
  · cases h
  · split at h
    · cases h
    · split at h
      · cases h
      · split at h
        · cases h
        · split at h
          · cases h
          · omega

/-- What the loop writes ends at most one byte behind its limit. -/
theorem escapeFrom_length (limit : Nat) (src : List UInt8) (target : Nat)
    (h : target ≤ limit + 1) : target + (escapeFrom limit target src).1.length ≤ limit + 1 := by
  induction src generalizing target with
  | nil => exact h
  | cons c src ih =>
    rw [escapeFrom]
    split
    · exact h
    · split
      · have hrest := ih (target + 2) (by omega)
        show target + (_ :: _ :: (escapeFrom limit (target + 2) src).1).length ≤ limit + 1
        rw [List.length_cons, List.length_cons]
        omega
      · have hrest := ih (target + 1) (by omega)
        show target + (_ :: (escapeFrom limit (target + 1) src).1).length ≤ limit + 1
        rw [List.length_cons]
        omega

/-- The escaped text leaves room for a NUL. -/
theorem escapeNewLine_length {dstSize : Nat} (h : 0 < dstSize) (src : List UInt8) :
    (escapeNewLine dstSize src).1.length < dstSize := by
  rw [escapeNewLine]
  split
  · exact h
  · have := escapeFrom_length (dstSize - 3) (dropNewline src) 0 (Nat.zero_le _)
    omega

end RainMakerNeo.Claim
