import Mathlib.Algebra.Group.Nat.Defs
import Mathlib.Data.List.Nodup
import Mathlib.Data.List.TakeWhile
import RainMakerNeo.Lib.Run
import RainMakerNeo.Mqtt.TopicMatch

/-!
# `RainMakerNeo.Mqtt.SubscriptionTable`: the table of MQTT subscriptions

`osal_mqtt_subscription_manager.c` keeps the subscriptions in a fixed array of elements, with a
counter next to it. An element whose filter length is 0 is free. An occupied element has a copy of
its filter, which `strndup` allocates and `free` releases.

The copy is a block with an address here, and `live` are the blocks that are allocated. A read
through a NULL copy has no value, so the operations return an `Option`.

`Table.Represents` is what the array, the counter and the copies owe each other. `Careful` is what
this takes: the copy of `add` is not checked, and `init` and `deinit` leave the counter alone.
-/

set_option autoImplicit false

namespace RainMakerNeo.Mqtt

open RainMakerNeo.Lib

/-! ### The model -/

/-- A pointer that is only compared. 0 is NULL. -/
abbrev Pointer := Nat

/-- `osal_mqtt_QoS_t`. -/
inductive QoS
  | qos0
  | qos1
  | qos2
  deriving DecidableEq, Repr

/-- `osal_mqtt_event_loop_channel_t`. -/
structure Channel where
  main : UInt32
  sub : UInt32
  seq : UInt32
  deriving DecidableEq, Repr

/-- The channel of an entry that was added without one. -/
def Channel.none : Channel := { main := .ofNat (2 ^ 32 - 1), sub := .ofNat (2 ^ 32 - 1),
                                seq := .ofNat (2 ^ 32 - 1) }

/-- A block that `strndup` has allocated. `chars` are its characters before the terminator. -/
structure Block where
  address : Nat
  chars : List Char
  deriving DecidableEq, Repr

/-- `osal_mqtt_subscription_element_t`. -/
structure Element where
  channel : Channel
  callback : Pointer
  privData : Pointer
  qos : QoS
  filterLength : Nat
  filter : Option Block
  deriving DecidableEq, Repr

/-- An element after `memset`. -/
def Element.zero : Element where
  channel := { main := 0, sub := 0, seq := 0 }
  callback := 0
  privData := 0
  qos := .qos0
  filterLength := 0
  filter := none

/-- `usFilterStringLength > 0`. -/
def Element.occupied (e : Element) : Bool := e.filterLength != 0

/-- A filter that a caller passes with its length, a `uint16_t`. -/
structure Slice where
  chars : List Char
  bounded : chars.length < 2 ^ 16
  deriving DecidableEq

/-- The state of the subscription manager. -/
structure Table where
  /-- `pxSubscriptionList`. -/
  slots : List Element
  /-- `subscription_count`. -/
  count : UInt8
  /-- Is there an `xSubscriptionListMutex`? -/
  mutex : Bool
  /-- The address of the next block. -/
  next : Nat
  /-- The addresses of the blocks that are allocated. -/
  live : List Nat
  deriving DecidableEq, Repr

/-- Before the first `osal_mqtt_subscription_init`. -/
def Table.initial (capacity : Nat) : Table where
  slots := List.replicate capacity Element.zero
  count := 0
  mutex := false
  next := 0
  live := []

/-- The entries of the table. -/
def Table.entries (t : Table) : List Element := t.slots.filter Element.occupied

/-- `memset` of the whole array. -/
def zeroSlots (slots : List Element) : List Element := slots.map fun _ => Element.zero

/-- `osal_mqtt_subscription_init`. `mutexOk` is whether the mutex could be created. -/
def Table.init (t : Table) (mutexOk : Bool) : Table :=
  { t with slots := zeroSlots t.slots, mutex := mutexOk }

/-- `osal_mqtt_subscription_deinit`. -/
def Table.deinit (t : Table) : Table := { t with slots := zeroSlots t.slots, mutex := false }

/-- `strndup`. The copy ends at the first NUL. `ok` is whether the allocation succeeds. -/
def Table.strndup (t : Table) (ok : Bool) (s : Slice) : Option Block × Table :=
  if ok then
    (some { address := t.next, chars := s.chars.takeWhile (· != nul) },
      { t with next := t.next + 1, live := t.next :: t.live })
  else (none, t)

/-- `free` of the copy of an element. `free(NULL)` does nothing. -/
def freeCopy (live : List Nat) (e : Element) : List Nat :=
  match e.filter with
  | some b => live.erase b.address
  | none => live

/-- `free` of the copies of some elements. -/
def freeAll (live : List Nat) (freed : List Element) : List Nat := freed.foldl freeCopy live

/-- Equal lengths and `strncmp(...) == 0`. A NULL copy cannot be compared. -/
def Element.sameFilter (e : Element) (s : Slice) : Option Bool :=
  if e.filterLength = s.chars.length then
    e.filter.map fun b => strncmpEq s.chars.length s.chars b.chars
  else some false

/-- What the scan of `osal_mqtt_subscription_add_ex` finds. -/
inductive Search
  | present
  | available (slot : Option Nat)
  deriving DecidableEq, Repr

/-- The scan of `osal_mqtt_subscription_add_ex`, from the end of the array down. -/
def search (slots : List Element) (s : Slice) (callback privData : Pointer) :
    Nat → Option Nat → Option Search
  | 0, slot => some (.available slot)
  | i + 1, slot => slots[i]?.bind fun e =>
    if e.filterLength = 0 then search slots s callback privData i (some i)
    else (e.sameFilter s).bind fun same =>
      if same ∧ e.callback = callback ∧ e.privData = privData then some .present
      else search slots s callback privData i slot

/-- What `osal_mqtt_subscription_add_ex` returns, with its `p_added`. -/
structure AddResult where
  status : Bool
  added : Bool
  deriving DecidableEq, Repr

/-- The arguments of `osal_mqtt_subscription_add_ex`. A filter that is `none` is NULL. -/
structure AddArgs where
  filter : Option Slice
  channel : Option Channel
  callback : Pointer
  qos : QoS
  privData : Pointer
  deriving DecidableEq

/-- The element that `osal_mqtt_subscription_add_ex` writes. -/
def AddArgs.element (args : AddArgs) (s : Slice) (copy : Option Block) : Element where
  channel := args.channel.getD Channel.none
  callback := args.callback
  privData := args.privData
  qos := args.qos
  filterLength := s.chars.length
  filter := copy

/-- The part of `osal_mqtt_subscription_add_ex` behind the scan. -/
def Table.addFound (t : Table) (ok : Bool) (args : AddArgs) (s : Slice) :
    Search → AddResult × Table
  | .present => ({ status := true, added := false }, t)
  | .available none => ({ status := false, added := false }, t)
  | .available (some i) =>
    let (copy, t) := t.strndup ok s
    ({ status := true, added := true },
      { t with slots := t.slots.set i (args.element s copy), count := t.count + 1 })

/-- `osal_mqtt_subscription_add_ex`. `ok` is whether the allocation of the copy succeeds. -/
def Table.add (t : Table) (ok : Bool) (args : AddArgs) : Option (AddResult × Table) :=
  match args.filter with
  | none => some ({ status := false, added := false }, t)
  | some s =>
    if s.chars = [] ∨ args.callback = 0 then some ({ status := false, added := false }, t)
    else if t.mutex = false then some ({ status := false, added := false }, t)
    else (search t.slots s args.callback args.privData t.slots.length none).map
      (t.addFound ok args s)

/-- The elements that `osal_mqtt_subscription_remove` frees, and the array it leaves. -/
def removeAll (s : Slice) : List Element → Option (List Element × List Element)
  | [] => some ([], [])
  | e :: slots => (e.sameFilter s).bind fun same =>
    (removeAll s slots).bind fun (freed, slots) =>
      some (if same then (e :: freed, Element.zero :: slots) else (freed, e :: slots))

/-- `osal_mqtt_subscription_remove`. -/
def Table.remove (t : Table) (filter : Option Slice) : Option Table :=
  match filter with
  | none => some t
  | some s =>
    if s.chars = [] then some t
    else if t.mutex = false then some t
    else (removeAll s t.slots).map fun (freed, slots) =>
      { t with slots := slots, count := t.count - .ofNat freed.length,
               live := freeAll t.live freed }

/-- The element that `osal_mqtt_subscription_remove_entry` frees, and the array it leaves. -/
def removeFirst (s : Slice) (callback privData : Pointer) :
    List Element → Option (List Element × List Element)
  | [] => some ([], [])
  | e :: slots =>
    let next := (removeFirst s callback privData slots).map fun r => (r.1, e :: r.2)
    if e.filterLength = s.chars.length ∧ e.callback = callback ∧ e.privData = privData then
      (e.sameFilter s).bind fun same =>
        if same then some ([e], Element.zero :: slots) else next
    else next

/-- `osal_mqtt_subscription_remove_entry`. -/
def Table.removeEntry (t : Table) (filter : Option Slice) (callback privData : Pointer) :
    Option Table :=
  match filter with
  | none => some t
  | some s =>
    if s.chars = [] then some t
    else if t.mutex = false then some t
    else (removeFirst s callback privData t.slots).map fun (freed, slots) =>
      { t with slots := slots, count := t.count - .ofNat freed.length,
               live := freeAll t.live freed }

/-- `osal_mqtt_subscription_clear`. -/
def Table.clear (t : Table) : Table :=
  if t.mutex = false then t
  else { t with slots := zeroSlots t.slots, count := 0, live := freeAll t.live t.entries }

/-- `osal_mqtt_match_topic` of an entry. A NULL copy cannot be matched, and a copy that ends before
the filter length is read past its end. -/
def Element.matched (e : Element) (topic after : List Char) : Option Bool :=
  e.filter.bind fun copy =>
    if copy.chars.length = e.filterLength then matchTopic topic after copy.chars else none

/-- The loop of `osal_mqtt_subscription_handle_publish`. -/
def collect (topic after : List Char) : List Element → Option (List Element)
  | [] => some []
  | e :: slots =>
    if e.occupied then
      (e.matched topic after).bind fun isMatched =>
        (collect topic after slots).map fun rest => if isMatched then e :: rest else rest
    else collect topic after slots

/-- `osal_mqtt_subscription_handle_publish`: the entries whose callbacks it calls, in order. -/
def Table.handlePublish (t : Table) (topic : Option (List Char)) (after : List Char) :
    Option (List Element) :=
  match topic with
  | none => some []
  | some topic => if t.mutex = false then some [] else collect topic after t.slots

/-! ### Runs -/

/-- A call of the subscription manager, with what the allocations in it return. -/
inductive Operation
  | init (mutexOk : Bool)
  | add (ok : Bool) (args : AddArgs)
  | remove (filter : Option Slice)
  | removeEntry (filter : Option Slice) (callback privData : Pointer)
  | clear
  | deinit
  deriving DecidableEq

/-- The table after a call. There is none when the call reads through a NULL copy. -/
def step (t : Table) : Operation → Option Table
  | .init mutexOk => some (t.init mutexOk)
  | .add ok args => (t.add ok args).map Prod.snd
  | .remove filter => t.remove filter
  | .removeEntry filter callback privData => t.removeEntry filter callback privData
  | .clear => some t.clear
  | .deinit => some t.deinit

/-- What distinguishes the entries. -/
def Element.key (e : Element) : Option (List Char) × Pointer × Pointer :=
  (e.filter.map Block.chars, e.callback, e.privData)

/-- The entries own their copies, and no two of them are for the same subscription. -/
structure Holds (live : List Nat) (entries : List Element) : Prop where
  distinct : (entries.map Element.key).Nodup
  owned : ∀ e ∈ entries, ∃ b, e.filter = some b ∧ b.chars.length = e.filterLength
    ∧ nul ∉ b.chars ∧ b.address ∈ live
  separate : (entries.map fun e => e.filter.map Block.address).Nodup

/-- **Representation.** The entries are distinct, each owns a copy of its whole filter, and the
counter counts them. -/
structure Table.Represents (t : Table) : Prop where
  holds : Holds t.live t.entries
  counted : t.count.toNat = t.entries.length

/-- The characters of the filter. A NULL filter has none. -/
def AddArgs.chars (args : AddArgs) : List Char := (args.filter.map Slice.chars).getD []

/-- The arguments are invalid: there is no callback, or the filter is NULL or empty. -/
def AddArgs.Invalid (args : AddArgs) : Prop := args.callback = 0 ∨ args.chars = []

/-- The subscription is in the table already. -/
def Table.Present (t : Table) (args : AddArgs) : Prop :=
  (args.filter.map Slice.chars, args.callback, args.privData) ∈ t.entries.map Element.key

/-- No element is free. -/
def Table.Full (t : Table) : Prop := ∀ e ∈ t.slots, e.occupied = true

/-- What `osal_mqtt_subscription_add_ex` promises. -/
structure AddSpec (t : Table) (ok : Bool) (args : AddArgs) (r : AddResult) (t' : Table) :
    Prop where
  /-- It fails exactly for one of the three reasons. -/
  fails : r.status = false ↔ args.Invalid ∨ (¬ t.Present args ∧ (t.Full ∨ ok = false))
  /-- The flag is set exactly when there is a new entry, for this subscription. -/
  added : r.added = true ↔ ∃ e, (e :: t.entries).Perm t'.entries
    ∧ e.key = (args.filter.map Slice.chars, args.callback, args.privData)
  /-- Without a new entry the table stays as it is. -/
  unchanged : r.added = false → t' = t
  /-- A failed call adds no entry. -/
  failed : r.status = false → r.added = false

/-- The calls that the representation survives. -/
def Careful (t : Table) : Operation → Prop
  -- the array is cleared while the counter and the copies stay
  | .init _ | .deinit => t.entries = []
  | .add ok args => ¬ args.Invalid →
    -- `strndup` copies all of the filter, and gets its block if a slot is taken for it
    t.mutex = true ∧ nul ∉ args.chars ∧ (ok = true ∨ t.Present args ∨ t.Full)
  | .remove _ | .removeEntry _ _ _ | .clear => True

/-! ### The array -/

@[simp] theorem Element.occupied_zero : Element.zero.occupied = false := rfl

theorem filter_zeroSlots (slots : List Element) :
    (zeroSlots slots).filter Element.occupied = [] := by
  rw [List.filter_eq_nil_iff]
  intro e he
  obtain ⟨-, -, rfl⟩ := List.mem_map.1 he
  decide

@[simp] theorem zeroSlots_length (slots : List Element) :
    (zeroSlots slots).length = slots.length := List.length_map _

variable {slots : List Element} {e : Element} {live : List Nat} {s : Slice} {args : AddArgs}
  {t : Table} {capacity : Nat}

/-- A write into a free element adds an entry. -/
theorem perm_filter_set {i : Nat} {x : Element} (hget : slots[i]? = some x)
    (hfree : x.occupied = false) (he : e.occupied = true) :
    (e :: slots.filter Element.occupied).Perm ((slots.set i e).filter Element.occupied) := by
  obtain ⟨hlt, rfl⟩ := List.getElem?_eq_some_iff.1 hget
  have hsplit : slots = slots.take i ++ slots[i] :: slots.drop (i + 1) := by
    rw [List.cons_getElem_drop_succ, List.take_append_drop]
  have hset : slots.set i e = slots.take i ++ e :: slots.drop (i + 1) :=
    List.set_eq_take_append_cons_drop.trans (if_pos hlt)
  rw [hset, List.filter_append, List.filter_cons_of_pos he]
  conv_lhs => rw [hsplit, List.filter_append, List.filter_cons_of_neg (by rw [hfree]; decide)]
  exact List.perm_middle.symm

/-! ### What the entries hold -/

namespace Holds

variable {live : List Nat} {es es' : List Element}

theorem nil (live : List Nat) : Holds live [] where
  distinct := List.nodup_nil
  owned := fun _ he => nomatch he
  separate := List.nodup_nil

theorem perm (h : Holds live es) (hp : es.Perm es') : Holds live es' where
  distinct := (hp.map _).nodup_iff.1 h.distinct
  owned := fun e he => h.owned e (hp.mem_iff.2 he)
  separate := (hp.map _).nodup_iff.1 h.separate

variable {e : Element}

/-- An entry that goes takes its own copy with it. -/
theorem free (h : Holds live (e :: es)) : Holds (freeAll live [e]) es := by
  obtain ⟨b, hb, -⟩ := h.owned e List.mem_cons_self
  have hsep := List.nodup_cons.1 h.separate
  refine ⟨(List.nodup_cons.1 h.distinct).2, ?_, hsep.2⟩
  intro x hx
  obtain ⟨c, hc, hlen, hnul, hlive⟩ := h.owned x (List.mem_cons_of_mem e hx)
  have hne : c.address ≠ b.address := by
    intro heq
    apply hsep.1
    rw [List.mem_map]
    refine ⟨x, hx, ?_⟩
    show x.filter.map Block.address = e.filter.map Block.address
    rw [hb, hc, Option.map_some, Option.map_some, heq]
  refine ⟨c, hc, hlen, hnul, ?_⟩
  show c.address ∈ freeCopy live e
  rw [freeCopy, hb]
  exact (List.mem_erase_of_ne hne).2 hlive

/-- The entries that stay own what they owned. -/
theorem freeAll (freed : List Element) (h : Holds live (freed ++ es)) :
    Holds (freeAll live freed) es := by
  induction freed generalizing live with
  | nil => exact h
  | cons e freed ih => exact ih h.free

/-- A new entry with a copy of its own. -/
theorem cons {address : Nat} {chars : List Char} (h : Holds live es)
    (hfilter : e.filter = some { address := address, chars := chars })
    (hlen : chars.length = e.filterLength) (hnul : nul ∉ chars)
    (hkey : e.key ∉ es.map Element.key) (hnew : address ∉ live) :
    Holds (address :: live) (e :: es) where
  distinct := List.nodup_cons.2 ⟨hkey, h.distinct⟩
  owned := by
    intro x hx
    rcases List.mem_cons.1 hx with rfl | hx
    · exact ⟨_, hfilter, hlen, hnul, List.mem_cons_self⟩
    · obtain ⟨c, hc, hclen, hcnul, hlive⟩ := h.owned x hx
      exact ⟨c, hc, hclen, hcnul, List.mem_cons_of_mem _ hlive⟩
  separate := by
    refine List.nodup_cons.2 ⟨?_, h.separate⟩
    intro hmem
    obtain ⟨x, hx, heq⟩ := List.mem_map.1 hmem
    obtain ⟨c, hc, -, -, hlive⟩ := h.owned x hx
    replace heq : x.filter.map Block.address = e.filter.map Block.address := heq
    rw [hfilter, hc] at heq
    have haddress : c.address = address := Option.some.inj heq
    exact hnew (haddress ▸ hlive)

/-- An entry can be compared, and is compared exactly. -/
theorem sameFilter (h : Holds live es) (he : e ∈ es) {s : Slice} (hs : nul ∉ s.chars) :
    e.sameFilter s = some (decide (e.filter.map Block.chars = some s.chars)) := by
  obtain ⟨b, hb, hlen, hnul, -⟩ := h.owned e he
  rw [Element.sameFilter, hb, Option.map_some, Option.map_some]
  by_cases heq : e.filterLength = s.chars.length
  · rw [if_pos heq]
    have hcmp := strncmpEq_iff_take hs hnul s.chars.length
    rw [List.take_length, ← heq, ← hlen, List.take_length] at hcmp
    congr 1
    rw [Bool.eq_iff_iff, ← heq, ← hlen, hcmp, decide_eq_true_eq, Option.some_inj]
    exact eq_comm
  · have hne : b.chars ≠ s.chars := by
      intro hbs
      rw [← hlen, hbs] at heq
      exact heq rfl
    rw [if_neg heq]
    simp [hne]

end Holds

theorem Holds.sameFilter_isSome {es : List Element} (h : Holds live es) (he : e ∈ es) (s : Slice) :
    ∃ same, e.sameFilter s = some same := by
  obtain ⟨b, hb, -⟩ := h.owned e he
  rw [Element.sameFilter, hb]
  split
  · exact ⟨_, rfl⟩
  · exact ⟨_, rfl⟩

/-- A free element has no filter. -/
theorem sameFilter_of_free (he : e.occupied = false) (hs : s.chars ≠ []) :
    e.sameFilter s = some false := by
  have hzero : e.filterLength = 0 := by simpa [Element.occupied] using he
  have hne : ¬ e.filterLength = s.chars.length := by
    rw [hzero]
    exact fun h => hs (List.length_eq_zero_iff.1 h.symm)
  rw [Element.sameFilter, if_neg hne]

/-! ### What the scans find -/

/-- An element with another filter is passed over by each removal, and one with the filter is an
entry. -/
theorem occupied_of_sameFilter (hs : s.chars ≠ []) (h : e.sameFilter s = some true) :
    e.occupied = true := by
  by_contra hfree
  rw [Bool.not_eq_true] at hfree
  rw [sameFilter_of_free hfree hs] at h
  exact nomatch h

/-- `osal_mqtt_subscription_remove` takes some entries out and leaves the others. -/
theorem removeAll_spec (hs : s.chars ≠ [])
    (hcmp : ∀ e ∈ slots.filter Element.occupied, ∃ same, e.sameFilter s = some same) :
    ∃ freed slots', removeAll s slots = some (freed, slots') ∧ slots'.length = slots.length
      ∧ (freed ++ slots'.filter Element.occupied).Perm (slots.filter Element.occupied) := by
  induction slots with
  | nil => exact ⟨[], [], rfl, rfl, List.Perm.refl _⟩
  | cons e slots ih =>
    have hrest : ∀ x ∈ slots.filter Element.occupied, ∃ same, x.sameFilter s = some same := by
      intro x hx
      apply hcmp x
      rw [List.mem_filter] at hx ⊢
      exact ⟨List.mem_cons_of_mem e hx.1, hx.2⟩
    obtain ⟨freed, slots', hrun, hlen, hperm⟩ := ih hrest
    have hsame : ∃ same, e.sameFilter s = some same := by
      by_cases hocc : e.occupied = true
      · exact hcmp e (List.mem_filter.2 ⟨List.mem_cons_self, hocc⟩)
      · exact ⟨false, sameFilter_of_free (by simpa using hocc) hs⟩
    obtain ⟨same, hsame⟩ := hsame
    rw [removeAll, hsame, hrun]
    cases same with
    | true =>
      have hocc := occupied_of_sameFilter hs hsame
      refine ⟨e :: freed, Element.zero :: slots', rfl, congrArg Nat.succ hlen, ?_⟩
      rw [List.filter_cons_of_pos hocc, List.filter_cons_of_neg (by decide)]
      exact hperm.cons e
    | false =>
      refine ⟨freed, e :: slots', rfl, congrArg Nat.succ hlen, ?_⟩
      by_cases hocc : e.occupied = true
      · rw [List.filter_cons_of_pos hocc, List.filter_cons_of_pos hocc]
        exact List.perm_middle.trans (hperm.cons e)
      · rw [List.filter_cons_of_neg hocc, List.filter_cons_of_neg hocc]
        exact hperm

/-- `osal_mqtt_subscription_remove_entry` takes at most one entry out. -/
theorem removeFirst_spec (hs : s.chars ≠ []) (callback privData : Pointer)
    (hcmp : ∀ e ∈ slots.filter Element.occupied, ∃ same, e.sameFilter s = some same) :
    ∃ freed slots', removeFirst s callback privData slots = some (freed, slots')
      ∧ slots'.length = slots.length
      ∧ (freed ++ slots'.filter Element.occupied).Perm (slots.filter Element.occupied) := by
  induction slots with
  | nil => exact ⟨[], [], rfl, rfl, List.Perm.refl _⟩
  | cons e slots ih =>
    have hrest : ∀ x ∈ slots.filter Element.occupied, ∃ same, x.sameFilter s = some same := by
      intro x hx
      apply hcmp x
      rw [List.mem_filter] at hx ⊢
      exact ⟨List.mem_cons_of_mem e hx.1, hx.2⟩
    obtain ⟨freed, slots', hrun, hlen, hperm⟩ := ih hrest
    have hnext : ∃ freed slots'', (removeFirst s callback privData slots).map
          (fun r => (r.1, e :: r.2)) = some (freed, slots'')
        ∧ slots''.length = (e :: slots).length
        ∧ (freed ++ slots''.filter Element.occupied).Perm
          ((e :: slots).filter Element.occupied) := by
      refine ⟨freed, e :: slots', by rw [hrun]; rfl, congrArg Nat.succ hlen, ?_⟩
      by_cases hocc : e.occupied = true
      · rw [List.filter_cons_of_pos hocc, List.filter_cons_of_pos hocc]
        exact List.perm_middle.trans (hperm.cons e)
      · rw [List.filter_cons_of_neg hocc, List.filter_cons_of_neg hocc]
        exact hperm
    simp only [removeFirst]
    by_cases hfit : e.filterLength = s.chars.length ∧ e.callback = callback
        ∧ e.privData = privData
    · have hocc : e.occupied = true := by
        have hpos : s.chars.length ≠ 0 := fun h => hs (List.length_eq_zero_iff.1 h)
        simpa [Element.occupied, hfit.1] using hpos
      obtain ⟨same, hsame⟩ := hcmp e (List.mem_filter.2 ⟨List.mem_cons_self, hocc⟩)
      rw [if_pos hfit, hsame, Option.bind_some]
      cases same with
      | true =>
        refine ⟨[e], Element.zero :: slots, rfl, rfl, ?_⟩
        rw [List.filter_cons_of_pos hocc, List.filter_cons_of_neg (by decide)]
        exact List.Perm.refl _
      | false => exact hnext
    · rw [if_neg hfit]
      exact hnext

/-- What the scan of `osal_mqtt_subscription_add_ex` says about the elements it has seen. -/
inductive Finds (slots seen : List Element) (key : Option (List Char) × Pointer × Pointer)
    (slot : Option Nat) : Search → Prop
  | present (h : key ∈ (seen.filter Element.occupied).map Element.key) :
    Finds slots seen key slot .present
  | free {i : Nat} {x : Element} (h : key ∉ (seen.filter Element.occupied).map Element.key)
    (hget : slots[i]? = some x) (hfree : x.occupied = false) :
    Finds slots seen key slot (.available (some i))
  | full (h : key ∉ (seen.filter Element.occupied).map Element.key)
    (hfull : ∀ e ∈ seen, e.occupied = true) : Finds slots seen key slot (.available slot)

theorem search_spec (hholds : Holds live (slots.filter Element.occupied)) (hs : nul ∉ s.chars)
    (callback privData : Pointer) (n : Nat) (slot : Option Nat) (hn : n ≤ slots.length) :
    ∃ r, search slots s callback privData n slot = some r
      ∧ Finds slots (slots.take n) (some s.chars, callback, privData) slot r := by
  induction n generalizing slot with
  | zero =>
    refine ⟨_, rfl, .full ?_ ?_⟩
    · rw [List.take_zero]
      exact List.not_mem_nil
    · rw [List.take_zero]
      exact fun _ he => nomatch he
  | succ n ih =>
    have hlt : n < slots.length := hn
    have hget : slots[n]? = some slots[n] := List.getElem?_eq_getElem hlt
    have htake : slots.take (n + 1) = slots.take n ++ [slots[n]] :=
      List.take_succ_eq_append_getElem hlt
    generalize slots[n] = e at hget htake
    rw [search, hget, Option.bind_some, htake]
    by_cases hzero : e.filterLength = 0
    · have hfree : e.occupied = false := by simp [Element.occupied, hzero]
      have hseen : (slots.take n ++ [e]).filter Element.occupied
          = (slots.take n).filter Element.occupied := by
        rw [List.filter_append, List.filter_cons_of_neg (by rw [hfree]; decide),
          List.filter_nil, List.append_nil]
      rw [if_pos hzero]
      obtain ⟨r, hrun, hfinds⟩ := ih (some n) (Nat.le_of_succ_le hn)
      refine ⟨r, hrun, ?_⟩
      cases hfinds with
      | present h => exact .present (hseen ▸ h)
      | free h hget' hfree' => exact .free (hseen ▸ h) hget' hfree'
      | full h _ => exact .free (hseen ▸ h) hget hfree
    · have hocc : e.occupied = true := by simp [Element.occupied, hzero]
      have hmem : e ∈ slots.filter Element.occupied :=
        List.mem_filter.2 ⟨List.mem_of_getElem? hget, hocc⟩
      have hseen : (slots.take n ++ [e]).filter Element.occupied
          = (slots.take n).filter Element.occupied ++ [e] := by
        rw [List.filter_append, List.filter_cons_of_pos hocc, List.filter_nil]
      rw [if_neg hzero, hholds.sameFilter hmem hs, Option.bind_some]
      by_cases hkey : e.key = (some s.chars, callback, privData)
      · have hfit : decide (e.filter.map Block.chars = some s.chars) = true
            ∧ e.callback = callback ∧ e.privData = privData := by
          simpa [Element.key] using hkey
        rw [if_pos hfit]
        refine ⟨_, rfl, .present ?_⟩
        rw [hseen, List.map_append, ← hkey]
        exact List.mem_append_right _ List.mem_cons_self
      · have hfit : ¬ (decide (e.filter.map Block.chars = some s.chars) = true
            ∧ e.callback = callback ∧ e.privData = privData) := by
          simpa [Element.key] using hkey
        rw [if_neg hfit]
        obtain ⟨r, hrun, hfinds⟩ := ih slot (Nat.le_of_succ_le hn)
        have hmap : (some s.chars, callback, privData)
              ∈ ((slots.take n ++ [e]).filter Element.occupied).map Element.key
            ↔ (some s.chars, callback, privData)
              ∈ ((slots.take n).filter Element.occupied).map Element.key := by
          rw [hseen, List.map_append, List.mem_append, List.map_singleton, List.mem_singleton]
          exact or_iff_left (Ne.symm hkey)
        refine ⟨r, hrun, ?_⟩
        cases hfinds with
        | present h => exact .present (hmap.2 h)
        | free h hget' hfree' => exact .free (mt hmap.1 h) hget' hfree'
        | full h hfull =>
          refine .full (mt hmap.1 h) ?_
          intro x hx
          rcases List.mem_append.1 hx with hx | hx
          · exact hfull x hx
          · exact List.mem_singleton.1 hx ▸ hocc

/-! ### The invariant -/

/-- What holds of the table between two calls. -/
structure Inv (capacity : Nat) (t : Table) : Prop where
  represents : t.Represents
  capacity : t.slots.length = capacity
  fresh : ∀ a ∈ t.live, a < t.next
  locked : t.mutex = false → t.entries = []

theorem mem_of_mem_freeAll (freed : List Element) {a : Nat} (h : a ∈ freeAll live freed) :
    a ∈ live := by
  induction freed generalizing live with
  | nil => exact h
  | cons e freed ih =>
    have hmem : a ∈ freeCopy live e := ih h
    rw [freeCopy] at hmem
    split at hmem
    · exact List.mem_of_mem_erase hmem
    · exact hmem

theorem inv_initial (capacity : Nat) : Inv capacity (Table.initial capacity) where
  represents := by
    have hnil : (Table.initial capacity).entries = [] := by
      rw [Table.entries, List.filter_eq_nil_iff]
      intro e he
      rw [List.eq_of_mem_replicate he]
      decide
    refine ⟨?_, ?_⟩
    · rw [hnil]
      exact .nil _
    · rw [hnil]
      rfl
  capacity := List.length_replicate
  fresh := fun _ ha => nomatch ha
  locked := by
    intro _
    rw [Table.entries, List.filter_eq_nil_iff]
    intro e he
    rw [List.eq_of_mem_replicate he]
    decide

namespace Inv

variable {capacity : Nat} {t : Table}

variable (h : Inv capacity t)
include h

/-- The array is cleared, and the counter agrees. -/
theorem zero {t' : Table} (hslots : t'.slots = zeroSlots t.slots) (hcount : t'.count = 0)
    (hnext : t'.next = t.next) (hlive : ∀ a ∈ t'.live, a ∈ t.live) : Inv capacity t' := by
  have hnil : t'.entries = [] := by
    rw [Table.entries, hslots]
    exact filter_zeroSlots t.slots
  refine ⟨⟨?_, ?_⟩, ?_, ?_, fun _ => hnil⟩
  · rw [hnil]
    exact .nil _
  · rw [hnil, hcount]
    rfl
  · rw [hslots, zeroSlots_length]
    exact h.capacity
  · intro a ha
    rw [hnext]
    exact h.fresh a (hlive a ha)

/-- The counter is 0 while there is no entry. -/
theorem count_of_nil (hnil : t.entries = []) : t.count = 0 := by
  have hcount := h.represents.counted
  rw [hnil] at hcount
  exact UInt8.toNat_inj.1 hcount

theorem length_entries_le : t.entries.length ≤ capacity := by
  rw [← h.capacity]
  exact List.length_filter_le _ _

/-- Some entries are taken out, with their copies and their part of the count. -/
theorem take {freed slots : List Element} (hcap : capacity ≤ 255) (hmutex : t.mutex = true)
    (hlen : slots.length = t.slots.length)
    (hperm : (freed ++ slots.filter Element.occupied).Perm t.entries) :
    Inv capacity { t with slots := slots, count := t.count - .ofNat freed.length,
                          live := freeAll t.live freed } where
  represents := by
    have hlength := hperm.length_eq
    have hle := h.length_entries_le
    have hcount := h.represents.counted
    rw [List.length_append] at hlength
    refine ⟨(h.represents.holds.perm hperm.symm).freeAll freed, ?_⟩
    show (t.count - UInt8.ofNat freed.length).toNat = (slots.filter Element.occupied).length
    have hfreed : (UInt8.ofNat freed.length).toNat = freed.length := by
      rw [UInt8.toNat_ofNat']
      omega
    rw [UInt8.toNat_sub_of_le _ _ (by rw [UInt8.le_iff_toNat_le, hfreed]; omega), hfreed]
    omega
  capacity := hlen.trans h.capacity
  fresh := fun a ha => h.fresh a (mem_of_mem_freeAll freed ha)
  locked := fun hno => absurd (hmutex.symm.trans hno) (by decide)

/-- An entry with a fresh copy is written into a free element. -/
theorem put {i : Nat} {x : Element} {args : AddArgs} {s : Slice} (hcap : capacity ≤ 255)
    (hmutex : t.mutex = true) (hget : t.slots[i]? = some x) (hfree : x.occupied = false)
    (hne : s.chars ≠ []) (hs : nul ∉ s.chars)
    (hkey : (some s.chars, args.callback, args.privData) ∉ t.entries.map Element.key) :
    let e := args.element s (some { address := t.next, chars := s.chars })
    Inv capacity { t with slots := t.slots.set i e, count := t.count + 1, next := t.next + 1,
                          live := t.next :: t.live }
      ∧ (e :: t.entries).Perm ((t.slots.set i e).filter Element.occupied) := by
  intro e
  have hocc : e.occupied = true := by
    have hpos : s.chars.length ≠ 0 := fun h => hne (List.length_eq_zero_iff.1 h)
    simpa [Element.occupied, e, AddArgs.element] using hpos
  have hperm := perm_filter_set hget hfree hocc
  have hlength := hperm.length_eq
  have hset : (t.slots.set i e).length = capacity := by
    rw [List.length_set]
    exact h.capacity
  have hle : ((t.slots.set i e).filter Element.occupied).length ≤ capacity := by
    rw [← hset]
    exact List.length_filter_le _ _
  have hnew : t.next ∉ t.live := fun hmem => Nat.lt_irrefl _ (h.fresh _ hmem)
  have hkey' : e.key ∉ t.entries.map Element.key := hkey
  refine ⟨⟨⟨?_, ?_⟩, hset, ?_, fun hno => absurd (hmutex.symm.trans hno) (by decide)⟩, hperm⟩
  · exact (h.represents.holds.cons rfl rfl hs hkey' hnew).perm hperm
  · show (t.count + 1).toNat = ((t.slots.set i e).filter Element.occupied).length
    have hcount := h.represents.counted
    rw [Table.entries] at hcount
    rw [List.length_cons] at hlength
    rw [UInt8.toNat_add, hcount]
    show _ % 256 = _
    have hone : (1 : UInt8).toNat = 1 := rfl
    rw [hone]
    omega
  · intro a ha
    show a < t.next + 1
    rcases List.mem_cons.1 ha with rfl | ha
    · omega
    · have := h.fresh a ha
      omega

end Inv

/-! ### The calls -/

theorem AddArgs.not_invalid (h : ¬ args.Invalid) :
    ∃ s, args.filter = some s ∧ s.chars ≠ [] ∧ args.callback ≠ 0 := by
  rw [AddArgs.Invalid, not_or, AddArgs.chars] at h
  cases hfilter : args.filter with
  | none =>
    rw [hfilter] at h
    exact absurd rfl h.2
  | some s =>
    rw [hfilter] at h
    exact ⟨s, rfl, h.2, h.1⟩

/-- Invalid arguments are refused. -/
theorem Table.add_invalid (t : Table) (ok : Bool) (h : args.Invalid) :
    t.add ok args = some ({ status := false, added := false }, t) := by
  rw [Table.add]
  cases hfilter : args.filter with
  | none => rfl
  | some s =>
    have hbad : s.chars = [] ∨ args.callback = 0 := by
      rcases h with hcallback | hempty
      · exact .inr hcallback
      · rw [AddArgs.chars, hfilter] at hempty
        exact .inl hempty
    exact if_pos hbad

/-- An outcome that leaves the table as it is. -/
theorem addSpec_unchanged {ok : Bool} {status : Bool}
    (h : status = false ↔ args.Invalid ∨ (¬ t.Present args ∧ (t.Full ∨ ok = false))) :
    AddSpec t ok args { status := status, added := false } t where
  fails := h
  added := by
    constructor
    · exact fun h => nomatch h
    · rintro ⟨e, hperm, -⟩
      have := hperm.length_eq
      rw [List.length_cons] at this
      omega
  unchanged := fun _ => rfl
  failed := fun _ => rfl

theorem Inv.add (hcap : capacity ≤ 255) {ok : Bool} (h : Inv capacity t)
    (hc : Careful t (.add ok args)) :
    ∃ r t', t.add ok args = some (r, t') ∧ Inv capacity t' ∧ AddSpec t ok args r t' := by
  by_cases hinvalid : args.Invalid
  · exact ⟨_, t, t.add_invalid ok hinvalid, h, addSpec_unchanged (by simp [hinvalid])⟩
  · obtain ⟨s, hfilter, hne, hcallback⟩ := AddArgs.not_invalid hinvalid
    obtain ⟨hmutex, hnul, hroom⟩ := hc hinvalid
    have hs : nul ∉ s.chars := by
      rw [AddArgs.chars, hfilter] at hnul
      exact hnul
    have hpresent : t.Present args ↔
        (some s.chars, args.callback, args.privData) ∈ t.entries.map Element.key := by
      rw [Table.Present, hfilter]
      rfl
    obtain ⟨r, hrun, hfinds⟩ := search_spec h.represents.holds hs args.callback args.privData
      t.slots.length none (Nat.le_refl _)
    rw [List.take_length] at hfinds
    have hadd : t.add ok args = some (t.addFound ok args s r) := by
      simp only [Table.add, hfilter]
      rw [if_neg (not_or.2 ⟨hne, hcallback⟩), if_neg (by rw [hmutex]; decide), hrun]
      rfl
    rw [hadd]
    cases hfinds with
    | present hkey =>
      refine ⟨_, t, rfl, h, addSpec_unchanged ?_⟩
      simp [hinvalid, hpresent.2 hkey]
    | full hkey hfull =>
      have hnot : ¬ t.Present args := mt hpresent.1 hkey
      exact ⟨_, t, rfl, h, addSpec_unchanged (iff_of_true rfl (.inr ⟨hnot, .inl hfull⟩))⟩
    | @free i x hkey hget hfree =>
      have hnot : ¬ t.Present args := mt hpresent.1 hkey
      have hnotFull : ¬ t.Full := by
        intro hfull
        have := hfull x (List.mem_of_getElem? hget)
        rw [hfree] at this
        exact nomatch this
      have hok : ok = true := (hroom.resolve_right (not_or.2 ⟨hnot, hnotFull⟩))
      subst hok
      have hcopy : s.chars.takeWhile (· != nul) = s.chars := by
        rw [List.takeWhile_eq_self_iff]
        intro c hmem
        rw [bne_iff_ne]
        rintro rfl
        exact hs hmem
      obtain ⟨hinv, hperm⟩ := h.put hcap hmutex hget hfree hne hs hkey
      have hfound : t.addFound true args s (.available (some i)) =
          ({ status := true, added := true },
            { t with slots := t.slots.set i
                       (args.element s (some { address := t.next, chars := s.chars })),
                     count := t.count + 1, next := t.next + 1, live := t.next :: t.live }) := by
        simp only [Table.addFound, Table.strndup, if_pos, hcopy]
      rw [hfound]
      refine ⟨_, _, rfl, hinv, ?_, ?_, (fun h => nomatch h), (fun h => nomatch h)⟩
      · simp [hinvalid, hnotFull]
      · refine iff_of_true rfl ⟨_, hperm, ?_⟩
        rw [hfilter]
        rfl

/-- **Step.** A careful call has a result, and the invariant survives it. -/
theorem Inv.step (hcap : capacity ≤ 255) {op : Operation} (h : Inv capacity t) (hc : Careful t op) :
    ∃ t', step t op = some t' ∧ Inv capacity t' := by
  have hcmp : ∀ (s : Slice), ∀ e ∈ t.slots.filter Element.occupied,
      ∃ same, e.sameFilter s = some same :=
    fun s e he => h.represents.holds.sameFilter_isSome he s
  cases op with
  | init mutexOk => exact ⟨_, rfl, h.zero rfl (h.count_of_nil hc) rfl fun _ ha => ha⟩
  | deinit => exact ⟨_, rfl, h.zero rfl (h.count_of_nil hc) rfl fun _ ha => ha⟩
  | add ok args =>
    obtain ⟨r, t', hrun, hinv, -⟩ := h.add hcap hc
    exact ⟨t', by rw [Mqtt.step, hrun]; rfl, hinv⟩
  | remove filter =>
    cases filter with
    | none => exact ⟨t, rfl, h⟩
    | some s =>
      simp only [Mqtt.step, Table.remove]
      by_cases hempty : s.chars = []
      · exact ⟨t, if_pos hempty, h⟩
      · cases hmutex : t.mutex with
        | false => exact ⟨t, by rw [if_neg hempty, if_pos rfl], h⟩
        | true =>
          obtain ⟨freed, slots, hrun, hlen, hperm⟩ := removeAll_spec hempty (hcmp s)
          refine ⟨_, ?_, h.take hcap hmutex hlen hperm⟩
          rw [if_neg hempty, if_neg (by decide), hrun, ← hmutex]
          rfl
  | removeEntry filter callback privData =>
    cases filter with
    | none => exact ⟨t, rfl, h⟩
    | some s =>
      simp only [Mqtt.step, Table.removeEntry]
      by_cases hempty : s.chars = []
      · exact ⟨t, if_pos hempty, h⟩
      · cases hmutex : t.mutex with
        | false => exact ⟨t, by rw [if_neg hempty, if_pos rfl], h⟩
        | true =>
          obtain ⟨freed, slots, hrun, hlen, hperm⟩ :=
            removeFirst_spec hempty callback privData (hcmp s)
          refine ⟨_, ?_, h.take hcap hmutex hlen hperm⟩
          rw [if_neg hempty, if_neg (by decide), hrun, ← hmutex]
          rfl
  | clear =>
    rw [Mqtt.step, Table.clear]
    split
    · exact ⟨t, rfl, h⟩
    · exact ⟨_, rfl, h.zero rfl rfl rfl fun _ ha => mem_of_mem_freeAll _ ha⟩

/-! ### Dispatch -/

/-- The publish handler has collected each matching entry once, in the order of the array. -/
theorem collect_eq_some_iff {topic after : List Char} {es : List Element} :
    collect topic after slots = some es ↔
      (∀ e ∈ slots.filter Element.occupied, ∃ m, e.matched topic after = some m)
      ∧ es = (slots.filter Element.occupied).filter fun e =>
        e.matched topic after == some true := by
  induction slots generalizing es with
  | nil => simp [collect, eq_comm]
  | cons e slots ih =>
    rw [collect]
    by_cases hocc : e.occupied = true
    · rw [if_pos hocc, List.filter_cons_of_pos hocc, List.forall_mem_cons]
      cases hm : e.matched topic after with
      | none => simp
      | some m =>
        rw [Option.bind_some, Option.map_eq_some_iff]
        have hfirst : ∃ m', some m = some m' := ⟨m, rfl⟩
        cases m with
        | true =>
          rw [List.filter_cons_of_pos (by rw [hm]; rfl)]
          constructor
          · rintro ⟨rest, hrest, rfl⟩
            obtain ⟨hall, rfl⟩ := ih.1 hrest
            exact ⟨⟨hfirst, hall⟩, rfl⟩
          · rintro ⟨⟨-, hall⟩, rfl⟩
            exact ⟨_, ih.2 ⟨hall, rfl⟩, rfl⟩
        | false =>
          rw [List.filter_cons_of_neg (by rw [hm]; decide)]
          constructor
          · rintro ⟨rest, hrest, rfl⟩
            obtain ⟨hall, rfl⟩ := ih.1 hrest
            exact ⟨⟨hfirst, hall⟩, rfl⟩
          · rintro ⟨⟨-, hall⟩, rfl⟩
            exact ⟨_, ih.2 ⟨hall, rfl⟩, rfl⟩
    · rw [if_neg hocc, List.filter_cons_of_neg hocc]
      exact ih

/-- The private data and the callbacks that a publish reaches are those of the matching entries,
one call each. A publish has no result if a filter cannot be compared with the topic. -/
def DispatchSpec (t : Table) : Prop :=
  ∀ topic after es, t.handlePublish (some topic) after = some es ↔
    (∀ e ∈ t.entries, ∃ m, e.matched topic after = some m)
      ∧ es = t.entries.filter fun e => e.matched topic after == some true

theorem Inv.dispatch (h : Inv capacity t) : DispatchSpec t := by
  intro topic after es
  simp only [Table.handlePublish]
  split
  · next hmutex =>
    rw [h.locked hmutex]
    simp [eq_comm]
  · exact collect_eq_some_iff

/-! ### The result -/

/-- **Subscription table.** In a table of at most 255 elements, in every run whose calls are
careful, the table represents its subscriptions. Each further careful call has a result, `add` does
what it promises, and a publish reaches each matching entry once. -/
theorem represents_of_careful (hcap : capacity ≤ 255)
    (h : Reach (· = Table.initial capacity) step Careful t) :
    t.Represents ∧ t.slots.length = capacity
      ∧ (∀ op, Careful t op → (step t op).isSome)
      ∧ (∀ ok args, Careful t (.add ok args) →
        ∃ r t', t.add ok args = some (r, t') ∧ AddSpec t ok args r t')
      ∧ DispatchSpec t := by
  have hinv : Inv capacity t := by
    refine h.inv (Inv capacity) ?_ ?_
    · rintro _ rfl
      exact inv_initial capacity
    · intro s op s' hs hc hstep
      obtain ⟨s'', hrun, hs''⟩ := hs.step hcap hc
      obtain rfl : s'' = s' := Option.some.inj (hrun.symm.trans hstep)
      exact hs''
  refine ⟨hinv.represents, hinv.capacity, ?_, ?_, hinv.dispatch⟩
  · intro op hc
    obtain ⟨t', hrun, -⟩ := hinv.step hcap hc
    rw [hrun]
    rfl
  · intro ok args hc
    obtain ⟨r, t', hrun, -, hspec⟩ := hinv.add hcap hc
    exact ⟨r, t', hrun, hspec⟩

section Runs

instance (args : AddArgs) : Decidable args.Invalid :=
  inferInstanceAs (Decidable (args.callback = 0 ∨ args.chars = []))

instance (t : Table) (args : AddArgs) : Decidable (t.Present args) :=
  inferInstanceAs (Decidable (_ ∈ t.entries.map Element.key))

instance (t : Table) : Decidable t.Full :=
  inferInstanceAs (Decidable (∀ e ∈ t.slots, e.occupied = true))

instance (t : Table) : (op : Operation) → Decidable (Careful t op)
  | .init _ | .deinit => inferInstanceAs (Decidable (t.entries = []))
  | .add ok args => inferInstanceAs (Decidable (¬ args.Invalid →
      t.mutex = true ∧ nul ∉ args.chars ∧ (ok = true ∨ t.Present args ∨ t.Full)))
  | .remove _ | .removeEntry _ _ _ | .clear => inferInstanceAs (Decidable True)

/-- A subscription to `a/+`. -/
def sampleArgs : AddArgs where
  filter := some { chars := ['a', '/', '+'], bounded := by decide }
  channel := none
  callback := 1
  qos := .qos1
  privData := 0

/-- Two subscriptions to one filter, one of them twice, and the removal of the first. -/
theorem represents_sample : ∃ t, exec step (Table.initial 10)
      [.init true, .add true sampleArgs, .add true { sampleArgs with privData := 7 },
        .add true sampleArgs, .removeEntry sampleArgs.filter 1 0] = some t
    ∧ t.entries.length = 1 ∧ t.Represents := by
  have hrun : Reach (· = Table.initial 10) step Careful _ := Reach.exec
    [.init true, .add true sampleArgs, .add true { sampleArgs with privData := 7 },
      .add true sampleArgs, .removeEntry sampleArgs.filter 1 0] (.start rfl) (by decide +kernel) rfl
  exact ⟨_, rfl, rfl, (represents_of_careful (by decide) hrun).1⟩

/-- The table does not represent its subscriptions after the copy of a filter could not be
allocated, and after it was deinitialised with an entry. -/
theorem not_represents :
    (∃ t, Reach (· = Table.initial 10) step (fun _ _ => True) t
      ∧ (∃ e ∈ t.entries, e.filter = none) ∧ ¬ t.Represents)
    ∧ ∃ t, Reach (· = Table.initial 10) step (fun _ _ => True) t
      ∧ t.count.toNat ≠ t.entries.length ∧ ¬ t.Represents := by
  constructor
  · have hrun : Reach (· = Table.initial 10) step _ _ :=
      Reach.exec_true [.init true, .add false sampleArgs] (.start rfl) rfl
    refine ⟨_, hrun, ⟨sampleArgs.element { chars := ['a', '/', '+'], bounded := by decide } none,
      ?_, rfl⟩, ?_⟩
    · decide +kernel
    · intro hrep
      obtain ⟨b, hb, -⟩ := hrep.holds.owned (sampleArgs.element
        { chars := ['a', '/', '+'], bounded := by decide } none) (by decide +kernel)
      exact nomatch hb
  · have hrun : Reach (· = Table.initial 10) step _ _ :=
      Reach.exec_true [.init true, .add true sampleArgs, .deinit] (.start rfl) rfl
    exact ⟨_, hrun, by decide +kernel, fun hrep => absurd hrep.counted (by decide +kernel)⟩

end Runs

end RainMakerNeo.Mqtt
