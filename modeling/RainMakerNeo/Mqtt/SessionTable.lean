import RainMakerNeo.Lib.PubSub
import RainMakerNeo.Mqtt.SubscriptionTable

/-!
# `RainMakerNeo.Mqtt.SessionTable`: the subscription table over the connections

Both MQTT backends keep the table over a connection. After the next one they either subscribe to all
entries again (`resubscribeAll`), or acknowledge them themselves (`Table.simulated`), or clear the
table.

`Table.filters` are the filters of the entries, and each operation says what it does to them
(`Intact.add`, `Intact.add_removeEntry`, `Intact.remove`, `Intact.clear`). An entry whose filter
could not be copied has no filter, and the next comparison reads through NULL.
-/

set_option autoImplicit false

namespace RainMakerNeo.Mqtt

open RainMakerNeo.Lib

/-! ### The model -/

/-- What both backends are configured with. -/
structure SessionConfig where
  /-- `clean_session` of the connection parameters. -/
  cleanSession : Bool
  /-- `CONFIG_OSAL_MQTT_RESUBSCRIBE_ON_CLEAN_SESSION`. -/
  resubscribe : Bool
  deriving DecidableEq, Repr

/-- The filters of the entries. -/
def Table.filters (t : Table) : List (List Char) :=
  t.entries.filterMap fun e => e.filter.map Block.chars

/-- The arguments that an entry is subscribed with again. -/
def Element.args (e : Element) : AddArgs where
  filter := e.filter.bind fun b =>
    if h : b.chars.length < 2 ^ 16 then some { chars := b.chars, bounded := h } else none
  channel := some e.channel
  callback := e.callback
  qos := e.qos
  privData := e.privData

/-- The copies of the entries that `osal_mqtt_subscription_attempt_resubscribe_all` goes through. -/
def Table.snapshot (t : Table) : List Element := if t.mutex then t.entries else []

/-- The loop of `osal_mqtt_subscription_attempt_resubscribe_all`. What `subscribe` returns is
ignored. -/
def resubscribeAll {σ β : Type*} (subscribe : σ → AddArgs → β → Option σ) :
    List Element → (Element → β) → σ → Option σ
  | [], _, s => some s
  | e :: entries, env, s =>
    (subscribe s e.args (env e)).bind (resubscribeAll subscribe entries env)

/-- The entries that `osal_mqtt_subscription_simulate_subacks` acknowledges. -/
def Table.simulated (t : Table) : List Element := t.snapshot.filter fun e => e.qos ≠ .qos0

/-- The loop of `osal_mqtt_subscription_simulate_subacks`. The log says for each acknowledgement
whether the session holds the filter, it does not exist in the code. -/
def simulateSubacks : List Element → Traffic (List Char) → List Bool →
    Traffic (List Char) × List Bool
  | [], traffic, log => (traffic, log)
  | e :: entries, traffic, log =>
    match e.filter.map Block.chars with
    | none => simulateSubacks entries traffic log
    | some f => simulateSubacks entries (traffic.acclaim f) (decide (traffic.Held f) :: log)

/-! ### The filters of the table -/

/-- A table with its mutex, whose entries have their whole filters. -/
structure Table.Intact (t : Table) : Prop where
  mutex : t.mutex = true
  copies : ∀ e ∈ t.entries, ∀ b, e.filter = some b →
    b.chars.length = e.filterLength ∧ nul ∉ b.chars ∧ b.chars.length < 2 ^ 16
  callbacks : ∀ e ∈ t.entries, e.callback ≠ 0

variable {t t' : Table} {e : Element} {s : Slice} {callback privData : Pointer}

theorem mem_filters {f : List Char} :
    f ∈ t.filters ↔ ∃ e ∈ t.entries, e.filter.map Block.chars = some f := by
  rw [Table.filters, List.mem_filterMap]

/-- The element for the same subscription. -/
def Element.Matches (e : Element) (s : Slice) (callback privData : Pointer) : Prop :=
  e.sameFilter s = some true ∧ e.callback = callback ∧ e.privData = privData

/-- A comparison of whole filters finds the filter. -/
theorem sameFilter_self {b : Block} (hcopy : e.filter = some b)
    (hlen : b.chars.length = e.filterLength) (hnul : nul ∉ b.chars) (hchars : b.chars = s.chars) :
    e.sameFilter s = some true := by
  rw [Element.sameFilter, if_pos (by rw [← hlen, hchars]), hcopy, Option.map_some, ← hchars]
  exact congrArg some ((strncmpEq_iff_take hnul hnul _).mpr rfl)

variable {slots : List Element} {r : AddResult} {ok : Bool}

/-- Where the scan finds no entry, none is for the same subscription. -/
theorem search_available {n : Nat} {slot r : Option Nat} (hs : s.chars ≠ [])
    (h : search slots s callback privData n slot = some (.available r)) :
    ∀ i < n, ∀ e, slots[i]? = some e → ¬e.Matches s callback privData := by
  induction n generalizing slot with
  | zero => exact fun i hi => absurd hi (Nat.not_lt_zero i)
  | succ n ih =>
    intro i hi e hget hmatches
    rw [search] at h
    obtain ⟨x, hx, h⟩ := Option.bind_eq_some_iff.mp h
    have hrest : (∃ slot', search slots s callback privData n slot' = some (.available r)) → i ≠ n →
        False := by
      rintro ⟨slot', h⟩ hne
      exact ih h i (Nat.lt_of_le_of_ne (Nat.le_of_lt_succ hi) hne) e hget hmatches
    have hlast : i = n → x = e := by
      rintro rfl
      exact Option.some.inj (hx.symm.trans hget)
    split at h
    · next hzero =>
      refine hrest ⟨_, h⟩ fun heq => ?_
      cases hlast heq
      -- a free element has no filter
      have hfree := occupied_of_sameFilter hs hmatches.1
      rw [Element.occupied, hzero] at hfree
      cases hfree
    · obtain ⟨same, hsame, h⟩ := Option.bind_eq_some_iff.mp h
      split at h
      · cases h
      · next hother =>
        refine hrest ⟨_, h⟩ fun heq => hother ?_
        cases hlast heq
        rw [hmatches.1] at hsame
        exact ⟨(Option.some.inj hsame).symm, hmatches.2⟩

/-- The scan finds a slot of the array. -/
theorem search_slot_lt {n i : Nat} {slot : Option Nat}
    (h : search slots s callback privData n slot = some (.available (some i)))
    (hslot : ∀ j, slot = some j → j < slots.length) : i < slots.length := by
  induction n generalizing slot with
  | zero => exact hslot i (Search.available.inj (Option.some.inj h))
  | succ n ih =>
    rw [search] at h
    obtain ⟨x, hx, h⟩ := Option.bind_eq_some_iff.mp h
    split at h
    · refine ih h ?_
      rintro j ⟨⟩
      exact (List.getElem?_eq_some_iff.mp hx).1
    · obtain ⟨same, -, h⟩ := Option.bind_eq_some_iff.mp h
      split at h
      · cases h
      · exact ih h hslot

/-- `osal_mqtt_subscription_remove_entry` takes the first match out, or there is none. -/
theorem removeFirst_cases {slots' freed : List Element}
    (h : removeFirst s callback privData slots = some (freed, slots')) :
    slots' = slots ∧ (∀ e ∈ slots, e.filterLength = s.chars.length → e.callback = callback →
        e.privData = privData → e.sameFilter s = some false)
      ∨ ∃ before e after, slots = before ++ e :: after ∧ slots' = before ++ Element.zero :: after
        ∧ e.Matches s callback privData := by
  induction slots generalizing freed slots' with
  | nil =>
    cases Option.some.inj h
    exact .inl ⟨rfl, fun _ he => nomatch he⟩
  | cons x slots ih =>
    rw [removeFirst] at h
    have hnext : (removeFirst s callback privData slots).map (fun r => (r.1, x :: r.2))
        = some (freed, slots') →
        (x.filterLength = s.chars.length → x.callback = callback → x.privData = privData →
          x.sameFilter s = some false) →
        slots' = x :: slots ∧ (∀ e ∈ x :: slots, e.filterLength = s.chars.length →
            e.callback = callback → e.privData = privData → e.sameFilter s = some false)
          ∨ ∃ before e after, x :: slots = before ++ e :: after
            ∧ slots' = before ++ Element.zero :: after ∧ e.Matches s callback privData := by
      intro h hx
      obtain ⟨⟨freed', rest⟩, hrest, heq⟩ := Option.map_eq_some_iff.mp h
      cases heq
      rcases ih hrest with ⟨rfl, hnone⟩ | ⟨before, e, after, rfl, rfl, hmatches⟩
      · refine .inl ⟨rfl, ?_⟩
        intro e he
        rcases List.mem_cons.mp he with rfl | he
        · exact hx
        · exact hnone e he
      · exact .inr ⟨x :: before, e, after, rfl, rfl, hmatches⟩
    split at h
    · next hfits =>
      obtain ⟨same, hsame, h⟩ := Option.bind_eq_some_iff.mp h
      cases same with
      | true =>
        cases Option.some.inj h
        exact .inr ⟨[], x, slots, rfl, rfl, hsame, hfits.2⟩
      | false => exact hnext h fun _ _ _ => hsame
    · next hother => exact hnext h fun hlen hcb hpd => absurd ⟨hlen, hcb, hpd⟩ hother

/-- What `osal_mqtt_subscription_add_ex` writes when it adds an entry. -/
structure Added (t : Table) (args : AddArgs) (s : Slice) (i : Nat) (copy : Option Block)
    (t' : Table) : Prop where
  nonempty : s.chars ≠ []
  callback : args.callback ≠ 0
  found : search t.slots s args.callback args.privData t.slots.length none
    = some (.available (some i))
  slots : t'.slots = t.slots.set i (args.element s copy)
  mutex : t'.mutex = t.mutex
  copied : ∀ b, copy = some b → b.chars = s.chars.takeWhile (· != nul)

theorem add_cases {args : AddArgs} (h : t.add ok args = some (r, t')) :
    t' = t ∧ r.added = false ∨ r.status = true ∧ r.added = true ∧ ∃ s i copy, args.filter = some s
      ∧ Added t args s i copy t' := by
  rw [Table.add] at h
  split at h
  · obtain ⟨rfl, rfl⟩ := Prod.mk.inj (Option.some.inj h)
    exact .inl ⟨rfl, rfl⟩
  · next s hfilter =>
    split at h
    · obtain ⟨rfl, rfl⟩ := Prod.mk.inj (Option.some.inj h)
      exact .inl ⟨rfl, rfl⟩
    · next hvalid =>
      rw [not_or] at hvalid
      split at h
      · obtain ⟨rfl, rfl⟩ := Prod.mk.inj (Option.some.inj h)
        exact .inl ⟨rfl, rfl⟩
      · obtain ⟨found, hfound, heq⟩ := Option.map_eq_some_iff.mp h
        cases found with
        | present =>
          obtain ⟨rfl, rfl⟩ := Prod.mk.inj heq
          exact .inl ⟨rfl, rfl⟩
        | available slot =>
          cases slot with
          | none =>
            obtain ⟨rfl, rfl⟩ := Prod.mk.inj heq
            exact .inl ⟨rfl, rfl⟩
          | some i =>
            cases ok with
            | true =>
              obtain ⟨rfl, rfl⟩ := Prod.mk.inj heq
              refine .inr ⟨rfl, rfl, s, i, _, hfilter, hvalid.1, hvalid.2, hfound, rfl, rfl, ?_⟩
              intro b hb
              cases hb
              rfl
            | false =>
              obtain ⟨rfl, rfl⟩ := Prod.mk.inj heq
              exact .inr ⟨rfl, rfl, s, i, none, hfilter, hvalid.1, hvalid.2, hfound, rfl, rfl,
                by simp⟩

/-- Fewer entries, and the same mutex. -/
theorem Table.Intact.of_subset (h : t.Intact) (hmutex : t'.mutex = t.mutex)
    (hsubset : ∀ e ∈ t'.entries, e ∈ t.entries) :
    t'.Intact ∧ ∀ f ∈ t'.filters, f ∈ t.filters := by
  refine ⟨⟨hmutex.trans h.mutex, fun e he => h.copies e (hsubset e he),
    fun e he => h.callbacks e (hsubset e he)⟩, ?_⟩
  intro f hf
  obtain ⟨e, he, heq⟩ := mem_filters.mp hf
  exact mem_filters.mpr ⟨e, hsubset e he, heq⟩

/-- A copy of a text without a NUL is the whole text. -/
theorem takeWhile_of_nulFree {chars : List Char} (h : nul ∉ chars) :
    chars.takeWhile (· != nul) = chars := by
  rw [List.takeWhile_eq_self_iff]
  intro c hc
  rw [bne_iff_ne]
  rintro rfl
  exact h hc

/-- A new entry brings its filter. -/
theorem Table.Intact.add (h : t.Intact) {args : AddArgs} (hnul : nul ∉ args.chars)
    (hadd : t.add ok args = some (r, t')) :
    t'.Intact ∧ (∀ f ∈ t'.filters, f ∈ t.filters ∨ r.status = true ∧ f = args.chars)
      ∧ (r.added = false → t' = t) := by
  rcases add_cases hadd with ⟨rfl, -⟩ | ⟨hstatus, hflag, s, i, copy, hfilter, hadded⟩
  · exact ⟨h, fun f hf => .inl hf, fun _ => rfl⟩
  · have hchars : args.chars = s.chars := by
      rw [AddArgs.chars, hfilter]
      rfl
    rw [hchars] at hnul
    have hentry : ∀ e ∈ t'.entries, e = args.element s copy ∨ e ∈ t.entries := by
      intro e he
      rw [Table.entries, hadded.slots, List.mem_filter] at he
      rcases List.mem_or_eq_of_mem_set he.1 with hmem | rfl
      · exact .inr (List.mem_filter.mpr ⟨hmem, he.2⟩)
      · exact .inl rfl
    have hcopied : ∀ b, copy = some b → b.chars = s.chars := by
      intro b hb
      rw [hadded.copied b hb, takeWhile_of_nulFree hnul]
    refine ⟨⟨hadded.mutex.trans h.mutex, ?_, ?_⟩, ?_, ?_⟩
    · intro e he b hb
      rcases hentry e he with rfl | he
      · rw [hcopied b hb]
        exact ⟨rfl, hnul, s.bounded⟩
      · exact h.copies e he b hb
    · intro e he
      rcases hentry e he with rfl | he
      · exact hadded.callback
      · exact h.callbacks e he
    · intro f hf
      obtain ⟨e, he, heq⟩ := mem_filters.mp hf
      rcases hentry e he with rfl | he
      · obtain ⟨b, hb, rfl⟩ := Option.map_eq_some_iff.mp heq
        rw [hcopied b hb, hchars]
        exact .inr ⟨hstatus, rfl⟩
      · exact .inl (mem_filters.mpr ⟨e, he, heq⟩)
    · intro hnone
      rw [hflag] at hnone
      cases hnone

/-- A new entry that is removed again leaves no filter behind. -/
theorem Table.Intact.add_removeEntry (h : t.Intact) {args : AddArgs} {t'' : Table}
    (hnul : nul ∉ args.chars) (hadd : t.add ok args = some (r, t')) (hflag : r.added = true)
    (hremove : t'.removeEntry args.filter args.callback args.privData = some t'') :
    t''.Intact ∧ ∀ f ∈ t''.filters, f ∈ t.filters := by
  obtain ⟨hintact, hfilters, -⟩ := h.add hnul hadd
  rcases add_cases hadd with ⟨-, hnone⟩ | ⟨-, -, s, i, copy, hfilter, hadded⟩
  · rw [hflag] at hnone
    cases hnone
  · have hchars : args.chars = s.chars := by
      rw [AddArgs.chars, hfilter]
      rfl
    rw [hfilter, Table.removeEntry, if_neg hadded.nonempty,
      if_neg (by rw [hintact.mutex]; exact Bool.noConfusion)] at hremove
    obtain ⟨⟨freed, slots⟩, hfirst, rfl⟩ := Option.map_eq_some_iff.mp hremove
    -- a match is the new element, because the scan has found none
    have hold : ∀ j e, j ≠ i → t'.slots[j]? = some e →
        ¬e.Matches s args.callback args.privData := by
      intro j e hj hget
      rw [hadded.slots, List.getElem?_set_ne hj.symm] at hget
      have hlt : j < t.slots.length := (List.getElem?_eq_some_iff.mp hget).1
      exact search_available hadded.nonempty hadded.found j hlt e hget
    refine Table.Intact.of_subset h ?_ ?_
    · exact hadded.mutex
    · intro e he
      rw [Table.entries, List.mem_filter] at he ⊢
      refine ⟨?_, he.2⟩
      rcases removeFirst_cases hfirst with ⟨rfl, hnone⟩ | ⟨before, x, after, heq, rfl, hmatches⟩
      · -- the new element is passed over only if it does not have the filter
        exfalso
        have hnew : args.element s copy ∈ t'.slots := by
          rw [hadded.slots]
          exact List.mem_set (search_slot_lt hadded.found (by simp)) _
        have hother := hnone _ hnew rfl rfl rfl
        cases copy with
        | none =>
          change (if s.chars.length = s.chars.length then none else some false) = some false
            at hother
          rw [if_pos rfl] at hother
          cases hother
        | some b =>
          have hb : b.chars = s.chars := by
            rw [hadded.copied b rfl, takeWhile_of_nulFree (hchars ▸ hnul)]
          rw [sameFilter_self rfl (congrArg List.length hb) (hb ▸ hchars ▸ hnul) hb] at hother
          cases hother
      · have hi : before.length = i := by
          by_contra hne
          exact hold before.length x hne (by rw [heq]; simp) hmatches
        have hbefore : t.slots.take i = before := by
          rw [← List.take_set_of_le (Nat.le_refl i), ← hadded.slots, heq, ← hi, List.take_left]
        have hafter : t.slots.drop (i + 1) = after := by
          rw [← List.drop_set_of_lt (Nat.lt_succ_self i), ← hadded.slots, heq, ← hi]
          simp
        rcases List.mem_append.mp he.1 with hmem | hmem
        · rw [← hbefore] at hmem
          exact List.mem_of_mem_take hmem
        · rcases List.mem_cons.mp hmem with rfl | hmem
          · cases he.2
          · rw [← hafter] at hmem
            exact List.mem_of_mem_drop hmem

/-- Without the mutex nothing is removed, and with it no entry for the filter stays. -/
theorem removeAll_mem {slots' freed : List Element} (h : removeAll s slots = some (freed, slots')) :
    ∀ e ∈ slots', e = Element.zero ∨ e ∈ slots ∧ e.sameFilter s = some false := by
  induction slots generalizing freed slots' with
  | nil =>
    cases Option.some.inj h
    exact fun _ he => nomatch he
  | cons x slots ih =>
    rw [removeAll] at h
    obtain ⟨same, hsame, h⟩ := Option.bind_eq_some_iff.mp h
    obtain ⟨⟨freed', rest⟩, hrest, h⟩ := Option.bind_eq_some_iff.mp h
    have hmem : ∀ e ∈ rest, e = Element.zero ∨ e ∈ x :: slots ∧ e.sameFilter s = some false :=
      fun e he => (ih hrest e he).imp_right fun hor => ⟨List.mem_cons_of_mem x hor.1, hor.2⟩
    cases same with
    | true =>
      cases Option.some.inj h
      intro e he
      rcases List.mem_cons.mp he with rfl | he
      · exact .inl rfl
      · exact hmem e he
    | false =>
      cases Option.some.inj h
      intro e he
      rcases List.mem_cons.mp he with rfl | he
      · exact .inr ⟨List.mem_cons_self, hsame⟩
      · exact hmem e he

section
variable (h : t.Intact)
include h

/-- A removal takes all entries for the filter out. -/
theorem Table.Intact.remove (hs : s.chars ≠ []) (hremove : t.remove (some s) = some t') :
    t'.Intact ∧ ∀ f ∈ t'.filters, f ∈ t.filters ∧ f ≠ s.chars := by
  rw [Table.remove, if_neg hs, if_neg (by rw [h.mutex]; exact Bool.noConfusion)] at hremove
  obtain ⟨⟨freed, slots⟩, hall, rfl⟩ := Option.map_eq_some_iff.mp hremove
  have hentry : ∀ e ∈ slots.filter Element.occupied, e ∈ t.entries ∧ e.sameFilter s = some false := by
    intro e he
    rw [List.mem_filter] at he
    rcases removeAll_mem hall e he.1 with rfl | ⟨hmem, hother⟩
    · cases he.2
    · exact ⟨List.mem_filter.mpr ⟨hmem, he.2⟩, hother⟩
  let rest : Table := { t with
    slots := slots, count := t.count - .ofNat freed.length, live := freeAll t.live freed }
  have hsubset : rest.Intact ∧ ∀ f ∈ rest.filters, f ∈ t.filters :=
    h.of_subset rfl fun e he => (hentry e he).1
  obtain ⟨hintact, hsubset⟩ := hsubset
  refine ⟨hintact, fun f hf => ⟨hsubset f hf, ?_⟩⟩
  rintro rfl
  obtain ⟨e, he, heq⟩ := mem_filters.mp hf
  obtain ⟨b, hb, hchars⟩ := Option.map_eq_some_iff.mp heq
  obtain ⟨hlen, hnul, -⟩ := h.copies e (hentry e he).1 b hb
  have hother := (hentry e he).2
  rw [sameFilter_self hb hlen hnul hchars] at hother
  cases hother

theorem Table.Intact.clear : t.clear.Intact ∧ t.clear.filters = [] := by
  have hentries : t.clear.entries = [] := by
    rw [Table.clear, if_neg (by rw [h.mutex]; exact Bool.noConfusion)]
    exact filter_zeroSlots t.slots
  have hmutex : t.clear.mutex = true := by
    rw [Table.clear, if_neg (by rw [h.mutex]; exact Bool.noConfusion)]
    exact h.mutex
  refine ⟨⟨hmutex, ?_, ?_⟩, ?_⟩
  · rw [hentries]
    simp
  · rw [hentries]
    simp
  · rw [Table.filters, hentries]
    rfl

/-! ### The loop over the entries -/

/-- The filter of an entry is the text that it is subscribed with again. -/
theorem Table.Intact.args (he : e ∈ t.snapshot) :
    nul ∉ e.args.chars ∧ ∀ f ∈ e.filter.map Block.chars, e.args.chars = f := by
  rw [Table.snapshot, if_pos h.mutex] at he
  cases hcopy : e.filter with
  | none =>
    have hchars : e.args.chars = [] := by
      rw [AddArgs.chars, Element.args, hcopy]
      rfl
    rw [hchars]
    exact ⟨List.not_mem_nil, by simp⟩
  | some b =>
    obtain ⟨-, hnul, hbounded⟩ := h.copies e he b hcopy
    have hchars : e.args.chars = b.chars := by
      rw [AddArgs.chars, Element.args, hcopy, Option.bind_some, dif_pos hbounded]
      rfl
    rw [hchars]
    refine ⟨hnul, ?_⟩
    rintro f ⟨⟩
    rfl

/-- An entry has no empty filter. -/
theorem Table.Intact.nonempty (he : e ∈ t.entries) {b : Block} (hcopy : e.filter = some b) :
    b.chars ≠ [] := by
  obtain ⟨hlen, -, -⟩ := h.copies e he b hcopy
  -- an occupied element has a filter length
  have hoccupied : e.occupied = true := (List.mem_filter.mp he).2
  intro hnil
  rw [hnil, List.length_nil] at hlen
  rw [Element.occupied, ← hlen] at hoccupied
  cases hoccupied

/-- Each filter of the table is one that an entry is subscribed with again. -/
theorem Table.Intact.exists_snapshot {f : List Char} (hf : f ∈ t.filters) :
    f ≠ [] ∧ ∃ e ∈ t.snapshot, e.args.chars = f := by
  obtain ⟨e, he, heq⟩ := mem_filters.mp hf
  have hsnapshot : e ∈ t.snapshot := by
    rw [Table.snapshot, if_pos h.mutex]
    exact he
  refine ⟨?_, e, hsnapshot, (h.args hsnapshot).2 f heq⟩
  obtain ⟨b, hb, rfl⟩ := Option.map_eq_some_iff.mp heq
  exact h.nonempty he hb

/-- A text that an entry is subscribed with again is its filter. -/
theorem mem_filters_args (he : e ∈ t.snapshot) (hne : e.args.chars ≠ []) :
    e.args.chars ∈ t.filters := by
  have hargs := (h.args he).2
  rw [Table.snapshot, if_pos h.mutex] at he
  cases hcopy : e.filter with
  | none =>
    rw [AddArgs.chars, Element.args, hcopy] at hne
    exact absurd rfl hne
  | some b =>
    rw [hcopy] at hargs
    rw [hargs _ rfl, mem_filters]
    exact ⟨e, he, by rw [hcopy]; rfl⟩

/-- An entry is found again. -/
theorem Table.Intact.add_self (he : e ∈ t.entries) {b : Block} (hcopy : e.filter = some b)
    (hadd : t.add ok e.args = some (r, t')) : t' = t ∧ r = { status := true, added := false } := by
  obtain ⟨hlen, hnul, hbounded⟩ := h.copies e he b hcopy
  have hslot : e ∈ t.slots := List.mem_of_mem_filter he
  have hfilter : e.args.filter = some ⟨b.chars, hbounded⟩ := by
    rw [Element.args, hcopy, Option.bind_some, dif_pos hbounded]
  have hmatches : e.Matches ⟨b.chars, hbounded⟩ e.args.callback e.args.privData :=
    ⟨sameFilter_self hcopy hlen hnul rfl, rfl, rfl⟩
  have hvalid : ¬(b.chars = [] ∨ e.args.callback = 0) := by
    rw [not_or]
    exact ⟨h.nonempty he hcopy, h.callbacks e he⟩
  unfold Table.add at hadd
  rw [hfilter] at hadd
  dsimp only at hadd
  rw [if_neg hvalid, if_neg (by rw [h.mutex]; exact Bool.noConfusion)] at hadd
  obtain ⟨found, hfound, heq⟩ := Option.map_eq_some_iff.mp hadd
  cases found with
  | present =>
    cases heq
    exact ⟨rfl, rfl⟩
  | available slot =>
    obtain ⟨i, hi, hget⟩ := List.mem_iff_getElem.mp hslot
    have hnone := search_available (h.nonempty he hcopy) hfound i hi e
      (List.getElem?_eq_some_iff.mpr ⟨hi, hget⟩)
    exact absurd hmatches hnone

end

/-- An acknowledgement for a filter of the session, of which no failure was reported, tells its
owner nothing new. -/
theorem simulateSubacks_eq {entries : List Element} {traffic : Traffic (List Char)}
    {log : List Bool}
    (h : ∀ e ∈ entries, ∀ f ∈ e.filter.map Block.chars,
      traffic.Held f ∧ f ∉ traffic.failed ∧ f ∉ traffic.lost)
    (hlog : ∀ held ∈ log, held = true) :
    (simulateSubacks entries traffic log).1 = traffic
      ∧ ∀ held ∈ (simulateSubacks entries traffic log).2, held = true := by
  induction entries generalizing log with
  | nil => exact ⟨rfl, hlog⟩
  | cons e entries ih =>
    have hrest := fun x hx => h x (List.mem_cons_of_mem e hx)
    rw [simulateSubacks]
    cases hf : e.filter.map Block.chars with
    | none => exact ih hrest hlog
    | some f =>
      obtain ⟨hheld, hfailed, hlost⟩ := h e List.mem_cons_self f hf
      dsimp only
      rw [Traffic.acclaim_eq_self hfailed hlost]
      refine ih hrest ?_
      intro held hmem
      rcases List.mem_cons.mp hmem with rfl | hmem
      · exact decide_eq_true hheld
      · exact hlog held hmem

end RainMakerNeo.Mqtt
