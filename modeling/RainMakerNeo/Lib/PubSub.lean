import Mathlib.Data.List.Basic

/-!
# `RainMakerNeo.Lib.PubSub`: a client and the session that a broker keeps for it

A client sends packets in order. The broker serves them in order, and answers each one. A packet is
queued at the client, then it is on the wire, and then its answer is on the way. When the connection
ends, what is on the way is gone. The session survives the connection, unless the client asked for a
clean one.

The client learns that a packet failed, or it does not. `failed` and `lost` are the filters whose
last SUBSCRIBE went one way or the other. `Settled` says that nothing is forgotten: the last
SUBSCRIBE of a filter waits, failed or got lost, or the session holds the filter. Each operation
keeps it, for all filters that the client still wants.
-/

set_option autoImplicit false

namespace RainMakerNeo.Lib

/-- A packet of the client. `op` numbers the requests of the client. -/
inductive Packet (φ : Type*)
  | subscribe (filter : φ) (op : Nat)
  | unsubscribe (filter : φ) (op : Nat)
  deriving DecidableEq, Repr

/-- The filter that a packet is about. -/
def Packet.filter {φ : Type*} : Packet φ → φ
  | .subscribe f _ => f
  | .unsubscribe f _ => f

/-- The request that a packet belongs to. -/
def Packet.op {φ : Type*} : Packet φ → Nat
  | .subscribe _ op => op
  | .unsubscribe _ op => op

/-- What is on the way between the client and the broker, the session, and what became of the
requests. -/
structure Traffic (φ : Type*) where
  /-- Not sent yet, the oldest first. -/
  queue : List (Packet φ) := []
  /-- Sent and not served yet, the oldest first. -/
  wire : List (Packet φ) := []
  /-- The answers on the way, and whether they grant the request. -/
  answers : List (Packet φ × Bool) := []
  /-- The filters of the session, if the broker has one. -/
  session : Option (List φ) := none
  /-- The session ends with the connection. -/
  clean : Bool := false
  linked : Bool := false
  /-- The SUBSCRIBEs that were issued, the last one first. -/
  issued : List (φ × Nat) := []
  /-- The filters whose last SUBSCRIBE failed, and the client was told. -/
  failed : List φ := []
  /-- The filters whose last SUBSCRIBE failed, and the client was not told. -/
  lost : List φ := []
  deriving DecidableEq, Repr

namespace Traffic

variable {φ : Type*} [DecidableEq φ]

/-! ### The operations -/

/-- A new SUBSCRIBE is the last one of its filter. -/
def note (t : Traffic φ) (f : φ) (op : Nat) : Traffic φ :=
  { t with
    issued := (f, op) :: t.issued
    failed := t.failed.filter (· ≠ f)
    lost := t.lost.filter (· ≠ f) }

/-- A new SUBSCRIBE. -/
def issue (t : Traffic φ) (f : φ) (op : Nat) : Traffic φ :=
  { t.note f op with queue := t.queue ++ [.subscribe f op] }

/-- A new UNSUBSCRIBE. -/
def withdraw (t : Traffic φ) (f : φ) (op : Nat) : Traffic φ :=
  { t with queue := t.queue ++ [.unsubscribe f op] }

/-- A packet is sent that was not queued before. -/
def send (t : Traffic φ) (p : Packet φ) : Traffic φ := { t with wire := t.wire ++ [p] }

/-- The filters whose last SUBSCRIBE is among the packets. -/
def lastOnes (t : Traffic φ) (ps : List (Packet φ)) : List φ :=
  ps.filterMap fun
    | .subscribe f op => if t.issued.lookup f = some op then some f else none
    | .unsubscribe _ _ => none

/-- Packets fail. -/
def fail (t : Traffic φ) (ps : List (Packet φ)) (told : Bool) : Traffic φ :=
  if told then { t with failed := t.lastOnes ps ++ t.failed }
  else { t with lost := t.lastOnes ps ++ t.lost }

/-- The first packet of the queue is sent. -/
def transmit (t : Traffic φ) : Option (Traffic φ) :=
  match t.queue with
  | [] => none
  | p :: queue => some { t with queue := queue, wire := t.wire ++ [p] }

/-- The first packet of the queue cannot be sent. -/
def reject (t : Traffic φ) (told : Bool) : Option (Traffic φ) :=
  match t.queue with
  | [] => none
  | p :: queue => some ({ t with queue := queue }.fail [p] told)

/-- The broker serves the first packet on the wire. -/
def serve (t : Traffic φ) (granted : Bool) : Option (Traffic φ) :=
  match t.wire with
  | [] => none
  | .subscribe f op :: wire =>
    some { t with
      wire := wire
      session := if granted then t.session.map (f :: ·) else t.session
      answers := t.answers ++ [(.subscribe f op, granted)] }
  | .unsubscribe f op :: wire =>
    some { t with
      wire := wire
      session := t.session.map (·.filter (· ≠ f))
      answers := t.answers ++ [(.unsubscribe f op, true)] }

/-- The client gets an answer. -/
def answered (t : Traffic φ) (a : Packet φ × Bool) (told : Bool) : Option (Traffic φ) :=
  if a ∈ t.answers then
    let t := { t with answers := t.answers.erase a }
    some (if a.2 then t else t.fail [a.1] told)
  else none

/-- What was sent, and what is answered. -/
def sent (t : Traffic φ) : List (Packet φ) := t.answers.map Prod.fst ++ t.wire

/-- The connection ends. -/
def cut (t : Traffic φ) : Traffic φ :=
  { t with
    wire := []
    answers := []
    session := if t.clean then none else t.session
    clean := false
    linked := false }

/-- The connection ends, and everything that was sent or queued fails. -/
def abandon (t : Traffic φ) (told : Bool) : Traffic φ :=
  ({ t with queue := [] }.fail (t.sent ++ t.queue) told).cut

/-- The broker drops the session between two connections. -/
def forget (t : Traffic φ) : Option (Traffic φ) :=
  if t.linked then none else some { t with session := none }

/-- There is a session for a connection to go on with. -/
def present (t : Traffic φ) (clean : Bool) : Bool := !clean && t.session.isSome

/-- A connection. A clean one, or one without a session, begins a new session. -/
def connect (t : Traffic φ) (clean : Bool) : Traffic φ :=
  { t with
    session := if t.present clean then t.session else some []
    clean := clean
    linked := true }

/-- The session holds the filter. -/
def Held (t : Traffic φ) (f : φ) : Prop := f ∈ t.session.getD []

instance (t : Traffic φ) (f : φ) : Decidable (t.Held f) :=
  inferInstanceAs (Decidable (f ∈ t.session.getD []))

/-- A SUBSCRIBE of the filter is queued or in flight. -/
def Waits (t : Traffic φ) (f : φ) : Prop :=
  ∃ p ∈ t.sent ++ t.queue, ∃ op, p = .subscribe f op

instance (f : φ) : (p : Packet φ) → Decidable (∃ op, p = .subscribe f op)
  | .subscribe g op =>
    decidable_of_iff (g = f) ⟨fun heq => ⟨op, heq ▸ rfl⟩, fun ⟨_, heq⟩ => (Packet.subscribe.inj heq).1⟩
  | .unsubscribe _ _ => .isFalse fun ⟨_, heq⟩ => nomatch heq

instance (t : Traffic φ) (f : φ) : Decidable (t.Waits f) :=
  inferInstanceAs (Decidable (∃ p ∈ t.sent ++ t.queue, ∃ op, p = .subscribe f op))

/-- The client is told that a filter is granted. -/
def acclaim (t : Traffic φ) (f : φ) : Traffic φ :=
  { t with failed := t.failed.filter (· ≠ f), lost := t.lost.filter (· ≠ f) }

/-! ### Nothing is forgotten -/

/-- The last packet about a filter. -/
def last (f : φ) (ps : List (Packet φ)) : Option (Packet φ) :=
  (ps.filter fun p => p.filter = f).getLast?

/-- **Settled.** What became of the last SUBSCRIBE of a filter. -/
inductive Settled (t : Traffic φ) (f : φ) : Prop
  | failed (h : f ∈ t.failed)
  | lost (h : f ∈ t.lost)
  | waits (op : Nat) (hlast : last f (t.wire ++ t.queue) = some (.subscribe f op))
    (hissued : t.issued.lookup f = some op)
  -- without a session there is nothing to hold the filter
  | held (hlast : last f (t.wire ++ t.queue) = none) (h : ∀ l, t.session = some l → f ∈ l)
  | refused (op : Nat) (hlast : last f (t.wire ++ t.queue) = none)
    (h : (.subscribe f op, false) ∈ t.answers) (hissued : t.issued.lookup f = some op)

variable {t t' : Traffic φ} {f g : φ} {op : Nat}

theorem last_append (ps ps' : List (Packet φ)) :
    last f (ps ++ ps') = (last f ps').or (last f ps) := by
  rw [last, List.filter_append, List.getLast?_append]
  rfl

variable {p : Packet φ} {ps : List (Packet φ)}

theorem last_singleton_self (h : p.filter = f) : last f [p] = some p := by
  simp [last, h]

theorem last_singleton_of_ne (h : p.filter ≠ f) : last f [p] = none := by
  simp [last, h]

theorem last_cons_of_ne (h : p.filter ≠ f) (ps : List (Packet φ)) :
    last f (p :: ps) = last f ps := by
  rw [last, List.filter_cons_of_neg (by simpa using h)]
  rfl

theorem last_cons_self (h : p.filter = f) (ps : List (Packet φ)) :
    last f (p :: ps) = (last f ps).or (some p) := by
  rw [← List.singleton_append, last_append, last_singleton_self h]

theorem last_cons_ne_none (h : p.filter = f) (ps : List (Packet φ)) : last f (p :: ps) ≠ none := by
  rw [last_cons_self h, Ne, Option.or_eq_none_iff]
  exact fun hnone => nomatch hnone.2

/-- Behind a packet about the filter stands the last one, or it is the last one itself. -/
theorem last_cons_eq_some {q : Packet φ} (h : p.filter = f) (hlast : last f (p :: ps) = some q) :
    last f ps = some q ∨ last f ps = none ∧ p = q := by
  rw [last_cons_self h] at hlast
  cases hrest : last f ps with
  | some q' =>
    rw [hrest] at hlast
    exact .inl hlast
  | none =>
    rw [hrest, Option.none_or] at hlast
    exact .inr ⟨rfl, Option.some.inj hlast⟩

/-- Where there is no packet about the filter, there is none after one is taken out. -/
theorem last_drop {ps' ps'' : List (Packet φ)} (h : last f (ps ++ ps' ++ ps'') = none) :
    last f (ps ++ ps'') = none := by
  rw [last_append, last_append, Option.or_eq_none_iff, Option.or_eq_none_iff] at h
  rw [last_append, h.1, h.2.2]
  rfl

theorem mem_of_last (h : last f ps = some p) : p ∈ ps :=
  List.mem_of_mem_filter (List.mem_of_getLast? h)

theorem last_ne_none_of_mem (hp : p ∈ ps) (h : p.filter = f) : last f ps ≠ none := by
  intro hnone
  rw [last, List.getLast?_eq_none_iff, List.filter_eq_nil_iff] at hnone
  exact hnone p hp (decide_eq_true h)

theorem mem_lastOnes :
    f ∈ t.lastOnes ps ↔ ∃ op, .subscribe f op ∈ ps ∧ t.issued.lookup f = some op := by
  rw [lastOnes, List.mem_filterMap]
  constructor
  · rintro ⟨p, hp, heq⟩
    cases p with
    | subscribe g op =>
      dsimp only at heq
      split at heq
      · next hissued =>
        cases heq
        exact ⟨op, hp, hissued⟩
      · cases heq
    | unsubscribe g op => cases heq
  · rintro ⟨op, hp, hissued⟩
    exact ⟨_, hp, if_pos hissued⟩

omit [DecidableEq φ] in
theorem forget_eq_some (ht : t.forget = some t') :
    t.linked = false ∧ t' = { t with session := none } := by
  rw [forget] at ht
  split at ht
  · cases ht
  · next hlinked => exact ⟨(Bool.not_eq_true _).mp hlinked, (Option.some.inj ht).symm⟩

namespace Settled

/-- What leaves the packets of a filter, its failures and its place in the session alone. -/
theorem frame (h : t.Settled f)
    (hlast : last f (t'.wire ++ t'.queue) = last f (t.wire ++ t.queue))
    (hissued : t'.issued.lookup f = t.issued.lookup f)
    (hfailed : f ∈ t.failed → f ∈ t'.failed) (hlost : f ∈ t.lost → f ∈ t'.lost)
    (hsession : (∀ l, t.session = some l → f ∈ l) → ∀ l, t'.session = some l → f ∈ l)
    (hanswers : ∀ op, (Packet.subscribe f op, false) ∈ t.answers →
      (Packet.subscribe f op, false) ∈ t'.answers) : t'.Settled f := by
  cases h with
  | failed h => exact .failed (hfailed h)
  | lost h => exact .lost (hlost h)
  | waits op hl hi => exact .waits op (hlast.trans hl) (hissued.trans hi)
  | held hl h => exact .held (hlast.trans hl) (hsession h)
  | refused op hl h hi => exact .refused op (hlast.trans hl) (hanswers op h) (hissued.trans hi)

theorem last_push_of_ne {p : Packet φ} (h : p.filter ≠ f) :
    last f (t.wire ++ (t.queue ++ [p])) = last f (t.wire ++ t.queue) := by
  rw [← List.append_assoc, last_append, last_singleton_of_ne h]
  rfl

theorem issue_self (t : Traffic φ) (f : φ) (op : Nat) : (t.issue f op).Settled f := by
  refine .waits op ?_ List.lookup_cons_self
  show last f (t.wire ++ (t.queue ++ [.subscribe f op])) = _
  rw [← List.append_assoc, last_append, last_singleton_self (f := f) (p := .subscribe f op) rfl]
  rfl

theorem issue (h : t.Settled g) (hne : g ≠ f) (op : Nat) : (t.issue f op).Settled g := by
  refine h.frame (last_push_of_ne (t := t) (p := .subscribe f op) hne.symm) ?_ ?_ ?_ (fun h => h)
    fun _ h => h
  · show ((f, op) :: t.issued).lookup g = t.issued.lookup g
    rw [List.lookup_cons, beq_eq_false_iff_ne.mpr hne]
  · exact fun h => List.mem_filter.mpr ⟨h, decide_eq_true hne⟩
  · exact fun h => List.mem_filter.mpr ⟨h, decide_eq_true hne⟩

theorem withdraw (h : t.Settled g) (hne : g ≠ f) (op : Nat) : (t.withdraw f op).Settled g :=
  h.frame (last_push_of_ne (t := t) (p := .unsubscribe f op) hne.symm) rfl (fun h => h) (fun h => h)
    (fun h => h) fun _ h => h

theorem transmit (h : t.Settled f) (ht : t.transmit = some t') : t'.Settled f := by
  rw [Traffic.transmit] at ht
  split at ht
  · cases ht
  · next p queue hqueue =>
    cases Option.some.inj ht
    refine h.frame ?_ rfl (fun h => h) (fun h => h) (fun h => h) fun _ h => h
    show last f (t.wire ++ [p] ++ queue) = last f (t.wire ++ t.queue)
    rw [hqueue, List.append_assoc, List.singleton_append]

omit [DecidableEq φ] in
/-- A packet that is sent at once is queued, and then it is transmitted. -/
theorem transmit_push (t : Traffic φ) (hqueue : t.queue = []) (p : Packet φ) :
    Traffic.transmit { t with queue := t.queue ++ [p] } = some (t.send p) := by
  cases t
  dsimp only at hqueue
  rw [hqueue]
  rfl

theorem send_self (t : Traffic φ) (hqueue : t.queue = []) (f : φ) (op : Nat) :
    ((t.note f op).send (.subscribe f op)).Settled f :=
  (issue_self t f op).transmit (transmit_push (t.note f op) hqueue _)

theorem send (h : t.Settled g) (hqueue : t.queue = []) (hne : g ≠ f) (op : Nat) :
    ((t.note f op).send (.subscribe f op)).Settled g :=
  (h.issue hne op).transmit (transmit_push (t.note f op) hqueue _)

theorem send_unsubscribe (h : t.Settled g) (hqueue : t.queue = []) (hne : g ≠ f) (op : Nat) :
    (t.send (.unsubscribe f op)).Settled g :=
  (h.withdraw hne op).transmit (transmit_push t hqueue _)

/-- A failure only adds to what failed. -/
theorem fail (h : t.Settled f) (ps : List (Packet φ)) (told : Bool) : (t.fail ps told).Settled f := by
  rw [Traffic.fail]
  split
  · exact h.frame rfl rfl (List.mem_append_right _) (fun h => h) (fun h => h) fun _ h => h
  · exact h.frame rfl rfl (fun h => h) (List.mem_append_right _) (fun h => h) fun _ h => h

/-- The failure of its last SUBSCRIBE settles a filter. -/
theorem of_fail {ps : List (Packet φ)} (hp : .subscribe f op ∈ ps)
    (hissued : t.issued.lookup f = some op) (told : Bool) : (t.fail ps told).Settled f := by
  have hmem := mem_lastOnes.mpr ⟨op, hp, hissued⟩
  rw [Traffic.fail]
  split
  · exact .failed (List.mem_append_left _ hmem)
  · exact .lost (List.mem_append_left _ hmem)

variable (h : t.Settled f)
include h

theorem reject {told : Bool} (ht : t.reject told = some t') : t'.Settled f := by
  rw [Traffic.reject] at ht
  split at ht
  · cases ht
  · next p queue hqueue =>
    cases Option.some.inj ht
    by_cases hp : ∃ op, p = .subscribe f op ∧ t.issued.lookup f = some op
    · obtain ⟨op, rfl, hissued⟩ := hp
      exact of_fail (t := { t with queue := queue }) List.mem_cons_self hissued told
    · -- the packet is not the one that the filter waits for
      refine fail (t := { t with queue := queue }) ?_ [p] told
      have hqueue' : t.wire ++ t.queue = t.wire ++ [p] ++ queue := by
        rw [hqueue, List.append_assoc, List.singleton_append]
      cases h with
      | failed h => exact .failed h
      | lost h => exact .lost h
      | waits op hl hi =>
        refine .waits op ?_ hi
        show last f (t.wire ++ queue) = _
        rw [hqueue', last_append] at hl
        rw [last_append]
        cases hq : last f queue with
        | some q => rwa [hq] at hl
        | none =>
          rw [hq, last_append, Option.none_or] at hl
          by_cases hf : p.filter = f
          · rw [last_singleton_self hf] at hl
            exact absurd ⟨op, Option.some.inj hl, hi⟩ hp
          · rwa [last_singleton_of_ne hf, Option.none_or] at hl
      | held hl h => exact .held (last_drop (hqueue' ▸ hl)) h
      | refused op hl h hi => exact .refused op (last_drop (hqueue' ▸ hl)) h hi

theorem serve {granted : Bool} (ht : t.serve granted = some t') : t'.Settled f := by
  rw [Traffic.serve] at ht
  split at ht
  · cases ht
  · next g op wire hwire =>
    cases Option.some.inj ht
    have hpending : t.wire ++ t.queue = .subscribe g op :: (wire ++ t.queue) := by
      rw [hwire, List.cons_append]
    by_cases hf : (Packet.subscribe g op).filter = f
    · cases h with
      | failed h => exact .failed h
      | lost h => exact .lost h
      | waits op' hl hi =>
        rw [hpending] at hl
        rcases last_cons_eq_some hf hl with hrest | ⟨hrest, heq⟩
        · exact .waits op' hrest hi
        · -- it was the one that the filter waits for, and now its answer is on the way
          cases heq
          cases granted with
          | true =>
            refine .held hrest ?_
            intro l hl
            obtain ⟨l', -, rfl⟩ := Option.map_eq_some_iff.mp hl
            exact List.mem_cons_self
          | false => exact .refused _ hrest (List.mem_append_right _ List.mem_cons_self) hi
      | held hl h => exact absurd (hpending ▸ hl) (last_cons_ne_none hf _)
      | refused op' hl h hi => exact absurd (hpending ▸ hl) (last_cons_ne_none hf _)
    · refine h.frame ?_ rfl (fun h => h) (fun h => h) ?_ fun _ h => List.mem_append_left _ h
      · rw [hpending, last_cons_of_ne hf]
      · intro h l hl
        dsimp only at hl
        split at hl
        · obtain ⟨l', hl', rfl⟩ := Option.map_eq_some_iff.mp hl
          exact List.mem_cons_of_mem _ (h l' hl')
        · exact h l hl
  · next g op wire hwire =>
    cases Option.some.inj ht
    have hpending : t.wire ++ t.queue = .unsubscribe g op :: (wire ++ t.queue) := by
      rw [hwire, List.cons_append]
    by_cases hf : (Packet.unsubscribe g op).filter = f
    · cases h with
      | failed h => exact .failed h
      | lost h => exact .lost h
      | waits op' hl hi =>
        -- the SUBSCRIBE stands behind the packet that is served
        rw [hpending] at hl
        rcases last_cons_eq_some hf hl with hrest | ⟨-, heq⟩
        · exact .waits op' hrest hi
        · cases heq
      | held hl h => exact absurd (hpending ▸ hl) (last_cons_ne_none hf _)
      | refused op' hl h hi => exact absurd (hpending ▸ hl) (last_cons_ne_none hf _)
    · refine h.frame ?_ rfl (fun h => h) (fun h => h) ?_ fun _ h => List.mem_append_left _ h
      · rw [hpending, last_cons_of_ne hf]
      · intro h l hl
        obtain ⟨l', hl', rfl⟩ := Option.map_eq_some_iff.mp hl
        exact List.mem_filter.mpr ⟨h l' hl', decide_eq_true (Ne.symm hf)⟩

theorem answered {a : Packet φ × Bool} {told : Bool} (ht : t.answered a told = some t') :
    t'.Settled f := by
  rw [Traffic.answered] at ht
  split at ht
  · cases Option.some.inj ht
    by_cases ha : ∃ op, a = (.subscribe f op, false) ∧ t.issued.lookup f = some op
    · obtain ⟨op, rfl, hissued⟩ := ha
      exact of_fail (t := { t with answers := t.answers.erase _ }) List.mem_cons_self hissued told
    · have hrest : Settled { t with answers := t.answers.erase a } f := by
        cases h with
        | failed h => exact .failed h
        | lost h => exact .lost h
        | waits op hl hi => exact .waits op hl hi
        | held hl h => exact .held hl h
        | refused op hl h hi =>
          have hne : (Packet.subscribe f op, false) ≠ a := fun heq => ha ⟨op, heq.symm, hi⟩
          exact .refused op hl ((List.mem_erase_of_ne hne).mpr h) hi
      split
      · exact hrest
      · exact hrest.fail _ told
  · cases ht

/-- A connection ends on which no packet was sent. -/
theorem cut (hsent : t.sent = []) : t.cut.Settled f := by
  obtain ⟨hanswers, hwire⟩ := List.append_eq_nil_iff.mp hsent
  rw [List.map_eq_nil_iff] at hanswers
  refine h.frame ?_ rfl (fun h => h) (fun h => h) ?_ ?_
  · show last f ([] ++ t.queue) = last f (t.wire ++ t.queue)
    rw [hwire]
  · intro h l hl
    change (if t.clean then none else t.session) = some l at hl
    split at hl
    · cases hl
    · exact h l hl
  · intro op h
    rw [hanswers] at h
    cases h

/-- Where the last SUBSCRIBE of a filter is: under way, at its end, or granted. -/
theorem resolved :
    (∃ op, .subscribe f op ∈ t.sent ++ t.queue ∧ t.issued.lookup f = some op)
      ∨ f ∈ t.failed ∨ f ∈ t.lost ∨ ∀ l, t.session = some l → f ∈ l := by
  cases h with
  | failed h => exact .inr (.inl h)
  | lost h => exact .inr (.inr (.inl h))
  | waits op hl hi =>
    refine .inl ⟨op, ?_, hi⟩
    rw [Traffic.sent, List.append_assoc]
    exact List.mem_append_right _ (mem_of_last hl)
  | held hl h => exact .inr (.inr (.inr h))
  | refused op hl h hi =>
    refine .inl ⟨op, ?_, hi⟩
    rw [Traffic.sent, List.append_assoc]
    exact List.mem_append_left _ (List.mem_map_of_mem (f := Prod.fst) h)

theorem abandon (told : Bool) : (t.abandon told).Settled f := by
  let u : Traffic φ := { t with queue := [] }.fail (t.sent ++ t.queue) told
  show u.cut.Settled f
  -- what failed before fails still
  have hkeep : (f ∈ t.failed → f ∈ u.failed) ∧ (f ∈ t.lost → f ∈ u.lost) := by
    cases told with
    | true => exact ⟨List.mem_append_right _, fun h => h⟩
    | false => exact ⟨fun h => h, List.mem_append_right _⟩
  have hsession : u.cut.session = if t.clean then none else t.session := by
    cases told with
    | true => rfl
    | false => rfl
  have hqueue : u.cut.wire ++ u.cut.queue = [] := by
    cases told with
    | true => rfl
    | false => rfl
  rcases h.resolved with ⟨op, hp, hi⟩ | h | h | h
  · have hmem : f ∈ { t with queue := [] }.lastOnes (t.sent ++ t.queue) :=
      mem_lastOnes.mpr ⟨op, hp, hi⟩
    cases told with
    | true => exact .failed (List.mem_append_left _ hmem)
    | false => exact .lost (List.mem_append_left _ hmem)
  · exact .failed (hkeep.1 h)
  · exact .lost (hkeep.2 h)
  · refine .held ?_ ?_
    · rw [hqueue]
      rfl
    · intro l hl
      rw [hsession] at hl
      split at hl
      · cases hl
      · exact h l hl

/-- The broker goes on with the session. -/
theorem connect {clean : Bool} (hpresent : t.present clean = true) :
    (t.connect clean).Settled f := by
  refine h.frame rfl rfl (fun h => h) (fun h => h) ?_ fun _ h => h
  intro h l hl
  change (if t.present clean then t.session else some []) = some l at hl
  rw [if_pos hpresent] at hl
  exact h l hl

/-- The broker begins a new session. A filter is settled there when its SUBSCRIBE is queued, or it
failed. -/
theorem connect_new (hdone : f ∈ t.failed ∨ ∃ op, .subscribe f op ∈ t.queue) (clean : Bool) :
    (t.connect clean).Settled f := by
  rcases hdone with hfailed | ⟨op, hp⟩
  · exact .failed hfailed
  · have hne : last f (t.wire ++ t.queue) ≠ none :=
      last_ne_none_of_mem (List.mem_append_right _ hp) rfl
    cases h with
    | failed h => exact .failed h
    | lost h => exact .lost h
    | waits op hl hi => exact .waits op hl hi
    | held hl h => exact absurd hl hne
    | refused op hl h hi => exact absurd hl hne

theorem forget (ht : t.forget = some t') : t'.Settled f := by
  obtain ⟨-, rfl⟩ := forget_eq_some ht
  exact h.frame rfl rfl (fun h => h) (fun h => h) (fun _ l hl => nomatch hl) fun _ h => h

/-- With a session, a settled filter is held, waits, failed or got lost. -/
theorem spec (hsession : t.session.isSome = true) :
    t.Held f ∨ t.Waits f ∨ f ∈ t.failed ∨ f ∈ t.lost := by
  rcases h.resolved with ⟨op, hp, -⟩ | h | h | h
  · exact .inr (.inl ⟨_, hp, op, rfl⟩)
  · exact .inr (.inr (.inl h))
  · exact .inr (.inr (.inr h))
  · obtain ⟨l, hl⟩ := Option.isSome_iff_exists.mp hsession
    refine .inl ?_
    rw [Held, hl]
    exact h l hl

end Settled

/-! ### What the operations leave alone -/

/-- Who has not heard of a failure learns nothing new. -/
theorem acclaim_eq_self (hfailed : f ∉ t.failed) (hlost : f ∉ t.lost) : t.acclaim f = t := by
  have hkeep : ∀ l : List φ, f ∉ l → l.filter (· ≠ f) = l := by
    intro l hl
    rw [List.filter_eq_self]
    intro g hg
    rw [decide_eq_true_eq]
    rintro rfl
    exact hl hg
  rw [acclaim, hkeep _ hfailed, hkeep _ hlost]

/-- The connection stays, the session stays or not as before, nothing more gets lost and what failed
fails still. -/
structure Quiet (t t' : Traffic φ) : Prop where
  linked : t'.linked = t.linked
  lost : t'.lost = t.lost
  session : t'.session.isSome = t.session.isSome
  failed : ∀ f ∈ t.failed, f ∈ t'.failed

theorem Quiet.fail (h : Quiet t t') (ps : List (Packet φ)) : Quiet t (t'.fail ps true) :=
  ⟨h.linked, h.lost, h.session, fun f hf => List.mem_append_right _ (h.failed f hf)⟩

omit [DecidableEq φ] in
theorem transmit_quiet (ht : t.transmit = some t') : Quiet t t' := by
  rw [transmit] at ht
  split at ht
  · cases ht
  · cases Option.some.inj ht
    exact ⟨rfl, rfl, rfl, fun _ hf => hf⟩

theorem reject_quiet (ht : t.reject true = some t') : Quiet t t' ∧ t'.sent = t.sent := by
  rw [reject] at ht
  split at ht
  · cases ht
  · cases Option.some.inj ht
    exact ⟨⟨rfl, rfl, rfl, fun _ hf => List.mem_append_right _ hf⟩, rfl⟩

theorem serve_quiet {granted : Bool} (ht : t.serve granted = some t') :
    Quiet t t' ∧ t'.queue = t.queue := by
  rw [serve] at ht
  split at ht
  · cases ht
  · cases Option.some.inj ht
    refine ⟨⟨rfl, rfl, ?_, fun _ hf => hf⟩, rfl⟩
    cases granted with
    | true => exact Option.isSome_map
    | false => rfl
  · cases Option.some.inj ht
    exact ⟨⟨rfl, rfl, Option.isSome_map, fun _ hf => hf⟩, rfl⟩

theorem answered_quiet {a : Packet φ × Bool} (ht : t.answered a true = some t') :
    Quiet t t' ∧ t'.queue = t.queue := by
  rw [answered] at ht
  split at ht
  · cases Option.some.inj ht
    split
    · exact ⟨⟨rfl, rfl, rfl, fun _ hf => hf⟩, rfl⟩
    · exact ⟨⟨rfl, rfl, rfl, fun _ hf => List.mem_append_right _ hf⟩, rfl⟩
  · cases ht

omit [DecidableEq φ] in
theorem connect_session (t : Traffic φ) (clean : Bool) :
    (t.connect clean).session.isSome = true := by
  show (if t.present clean then t.session else some []).isSome = true
  split
  · next hpresent => exact (Bool.and_eq_true_iff.mp hpresent).2
  · rfl

end Traffic

end RainMakerNeo.Lib
