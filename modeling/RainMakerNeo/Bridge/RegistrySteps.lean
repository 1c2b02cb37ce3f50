import RainMakerNeo.Bridge.ChildRegistry

/-!
# `RainMakerNeo.Bridge.RegistrySteps`: what a step keeps of the child registry

The invariant is kept for each call on its own: what the call knows about its slot, and that the
slot and the entry of its request belong together. A step is one of a call, or of an answer to one,
and it leaves alone what belongs to the others (`Frame.inv`). What is left for each step is its own
call and its own slot.
-/

set_option autoImplicit false

namespace RainMakerNeo.Bridge.Registry

variable {ρ : Type*} [DecidableEq ρ]

/-! ### The invariant -/

/-- What a call knows about its slot. -/
def State.Holds (selfName : Str) (s : State ρ) (c : Nat) (call : Call ρ) : Prop :=
  let x := s.slots call.slot
  match call.place with
  | .addCopy | .rollback => x.inUse = true ∧ x.state = .pendingAdd ∧ x.request = some c
  | .addName _ bridgeLocalId =>
    x.inUse = true ∧ x.state = .pendingAdd ∧ x.request = some c ∧ x.bridgeLocalId = bridgeLocalId
  | .addRegister childSuffix bridgeLocalId =>
    x.inUse = true ∧ x.state = .pendingAdd ∧ x.request = some c ∧ x.bridgeLocalId = bridgeLocalId ∧
      x.thingName = some (childThingName selfName childSuffix)
  | .addPublish _ => ∀ i, (s.slots i).request = some c → i = call.slot
  | .removeCopy => x.inUse = true ∧ x.state = .pendingRemove ∧ x.request = some c
  | .removeRegister bridgeLocalId | .removePublish _ bridgeLocalId | .teardown bridgeLocalId =>
    x.inUse = true ∧ x.state = .pendingRemove ∧ x.request = some c ∧ x.bridgeLocalId = bridgeLocalId

/-- The slot that an entry of an add is for. -/
def State.Staged (selfName : Str) (s : State ρ) (e : Entry ρ) (childSuffix : Str) (i : Nat) :
    Prop :=
  (s.slots i).inUse = true ∧ (s.slots i).state = .pendingAdd ∧ (s.slots i).request = some e.call ∧
    (s.slots i).thingName = some (childThingName selfName childSuffix) ∧
    e.bridgeLocalId = (s.slots i).bridgeLocalId.take localIdLenMax

/-- What each step keeps of a call and its request. -/
structure CallInv (size : Nat) (selfName : Str) (s : State ρ) (c : Nat) : Prop where
  fresh : s.calls c ≠ none ∨ (∃ i, (s.slots i).request = some c) → c < s.nextCall
  holds : ∀ call, s.calls c = some call → s.Holds selfName c call
  unregistered : ∀ call, s.calls c = some call → call.place.stages = true →
    ∀ e, s.Live size e → e.isAdd = true → e.call ≠ c
  staged : ∀ e childSuffix, s.Live size e → e.kind = .add childSuffix → e.call = c →
    ∃ i, s.Staged selfName e childSuffix i
  single : ∀ i j, (s.slots i).request = some c → (s.slots j).request = some c → i = j
  add : ∀ i, (s.slots i).inUse = true → (s.slots i).state = .pendingAdd →
    (s.slots i).request = some c →
    (∃ call, s.calls c = some call ∧ call.slot = i ∧ call.place.stages = true) ∨
      ∃ e, s.Live size e ∧ e.isAdd = true ∧ e.call = c
  remove : ∀ i, (s.slots i).inUse = true → (s.slots i).state = .pendingRemove →
    (s.slots i).request = some c →
    ∃ call, s.calls c = some call ∧ call.slot = i ∧ call.place.marks = true
  once : ∀ j < pendMax size, ∀ k < pendMax size, ∀ e e', s.table j = some e → s.table k = some e' →
    e.isAdd = true → e'.isAdd = true → e.call = c → e'.call = c → j = k
  taken : ∀ e answer, s.handling = some (e, answer) → e.isAdd = true → e.call = c →
    ∀ j < pendMax size, ∀ e', s.table j = some e' → e'.isAdd = true → e'.call ≠ c

/-- The request ids in the table differ. -/
def Ids (size : Nat) (table : Nat → Option (Entry ρ)) : Prop :=
  ∀ j < pendMax size, ∀ k < pendMax size, ∀ e e', table j = some e → table k = some e' →
    e.requestId = e'.requestId → j = k

/-- What each step keeps of the slots and the request ids. -/
structure PoolInv (size : Nat) (s : State ρ) : Prop where
  bound : ∀ i, (s.slots i).inUse = true → i < size ∧ (s.slots i).request ≠ none
  idle : ∀ i, (s.slots i).inUse = false →
    (s.slots i).state = .pendingAdd ∧ (s.slots i).request = none
  named : ∀ i, (s.slots i).state ≠ .pendingAdd → (s.slots i).thingName ≠ none
  localIds : ∀ i j, (s.slots i).inUse = true → (s.slots j).inUse = true →
    (s.slots i).bridgeLocalId = (s.slots j).bridgeLocalId → i = j
  ids : Ids size s.table

/-- What each step keeps. -/
structure Inv (size : Nat) (selfName : Str) (s : State ρ) : Prop where
  pool : PoolInv size s
  calls : ∀ c, CallInv size selfName s c

variable {size : Nat} {selfName : Str} {s t : State ρ} {c : Nat}

/-! ### What a step leaves alone -/

/-- The step is one of the call `c`, or of an answer to it: all else that a slot or an entry holds
for a call is the same. -/
structure Frame (size : Nat) (s t : State ρ) (c : Nat) : Prop where
  calls : ∀ d, d ≠ c → t.calls d = s.calls d
  next : s.nextCall ≤ t.nextCall
  table : ∀ j < pendMax size, ∀ e, e.isAdd = true → e.call ≠ c →
    (t.table j = some e ↔ s.table j = some e)
  handling : ∀ e answer, e.isAdd = true → e.call ≠ c →
    (t.handling = some (e, answer) ↔ s.handling = some (e, answer))
  slots : ∀ i, t.slots i = s.slots i ∨
    (((s.slots i).inUse = true → (s.slots i).state ≠ .ready → (s.slots i).request = some c) ∧
      ∀ d, (t.slots i).request = some d → d = c)

namespace Frame

omit [DecidableEq ρ]

variable (h : Frame size s t c)
include h

theorem live {e : Entry ρ} (hadd : e.isAdd = true) (he : e.call ≠ c) :
    t.Live size e ↔ s.Live size e := by
  rw [State.Live, State.Live]
  constructor
  · rintro (⟨j, hj, hin⟩ | ⟨answer, hin⟩)
    · exact .inl ⟨j, hj, (h.table j hj e hadd he).mp hin⟩
    · exact .inr ⟨answer, (h.handling e answer hadd he).mp hin⟩
  · rintro (⟨j, hj, hin⟩ | ⟨answer, hin⟩)
    · exact .inl ⟨j, hj, (h.table j hj e hadd he).mpr hin⟩
    · exact .inr ⟨answer, (h.handling e answer hadd he).mpr hin⟩

/-- A slot that is staged or marked for another call is the same. -/
theorem slot_eq {d i : Nat} (hd : d ≠ c) (huse : (s.slots i).inUse = true)
    (hstate : (s.slots i).state ≠ .ready) (hrequest : (s.slots i).request = some d) :
    t.slots i = s.slots i := by
  refine (h.slots i).resolve_right fun ⟨hown, _⟩ => hd ?_
  exact Option.some.inj (hrequest.symm.trans (hown huse hstate))

/-- A slot of another call has been one before. -/
theorem slot_eq' {d i : Nat} (hd : d ≠ c) (hrequest : (t.slots i).request = some d) :
    t.slots i = s.slots i :=
  (h.slots i).resolve_right fun ⟨_, hnew⟩ => hd (hnew d hrequest)

theorem holds {d : Nat} {call : Call ρ} (hd : d ≠ c) (hs : s.Holds selfName d call) :
    t.Holds selfName d call := by
  obtain ⟨i, place⟩ := call
  have hslot : ∀ state, state ≠ ChildState.ready → (s.slots i).inUse = true →
      (s.slots i).state = state → (s.slots i).request = some d → t.slots i = s.slots i :=
    fun state hne huse hstate hrequest => h.slot_eq hd huse (hstate ▸ hne) hrequest
  cases place with
  | addCopy | rollback | removeCopy =>
    simp only [State.Holds] at hs ⊢
    rw [hslot _ (by decide) hs.1 hs.2.1 hs.2.2]
    exact hs
  | addName | addRegister | removeRegister | removePublish | teardown =>
    simp only [State.Holds] at hs ⊢
    rw [hslot _ (by decide) hs.1 hs.2.1 hs.2.2.1]
    exact hs
  | addPublish requestId =>
    intro j hrequest
    rw [h.slot_eq' hd hrequest] at hrequest
    exact hs j hrequest

/-- What is kept of another call. -/
theorem callInv {d : Nat} (hd : d ≠ c) (hs : CallInv size selfName s d) :
    CallInv size selfName t d where
  fresh := by
    rintro (hcall | ⟨i, hrequest⟩)
    · rw [h.calls d hd] at hcall
      exact (hs.fresh (.inl hcall)).trans_le h.next
    · rw [h.slot_eq' hd hrequest] at hrequest
      exact (hs.fresh (.inr ⟨i, hrequest⟩)).trans_le h.next
  holds := by
    intro call hcall
    rw [h.calls d hd] at hcall
    exact h.holds hd (hs.holds call hcall)
  unregistered := by
    intro call hcall hstages e hlive hadd he
    rw [h.calls d hd] at hcall
    have hne : e.call ≠ c := he ▸ hd
    exact hs.unregistered call hcall hstages e ((h.live hadd hne).mp hlive) hadd he
  staged := by
    intro e childSuffix hlive hkind he
    have hadd : e.isAdd = true := by rw [Entry.isAdd, hkind]
    have hne : e.call ≠ c := he ▸ hd
    obtain ⟨i, hi⟩ := hs.staged e childSuffix ((h.live hadd hne).mp hlive) hkind he
    refine ⟨i, ?_⟩
    rw [State.Staged] at hi ⊢
    rw [h.slot_eq hne hi.1 (by rw [hi.2.1]; decide) hi.2.2.1]
    exact hi
  single := by
    intro i j hi hj
    rw [h.slot_eq' hd hi] at hi
    rw [h.slot_eq' hd hj] at hj
    exact hs.single i j hi hj
  add := by
    intro i huse hstate hrequest
    rw [h.slot_eq' hd hrequest] at huse hstate hrequest
    rcases hs.add i huse hstate hrequest with ⟨call, hcall, hrest⟩ | ⟨e, hlive, hadd, he⟩
    · exact .inl ⟨call, (h.calls d hd).trans hcall, hrest⟩
    · exact .inr ⟨e, (h.live hadd (he ▸ hd)).mpr hlive, hadd, he⟩
  remove := by
    intro i huse hstate hrequest
    rw [h.slot_eq' hd hrequest] at huse hstate hrequest
    obtain ⟨call, hcall, hrest⟩ := hs.remove i huse hstate hrequest
    exact ⟨call, (h.calls d hd).trans hcall, hrest⟩
  once := by
    intro j hj k hk e e' hin hin' hadd hadd' he he'
    have hin := (h.table j hj e hadd (he ▸ hd)).mp hin
    have hin' := (h.table k hk e' hadd' (he' ▸ hd)).mp hin'
    exact hs.once j hj k hk e e' hin hin' hadd hadd' he he'
  taken := by
    intro e answer htaken hadd he j hj e' hin hadd' he'
    have htaken := (h.handling e answer hadd (he ▸ hd)).mp htaken
    have hin := (h.table j hj e' hadd' (he' ▸ hd)).mp hin
    exact hs.taken e answer htaken hadd he j hj e' hin hadd' he'

/-- The invariant after a step of the call `c`. -/
theorem inv (hs : Inv size selfName s) (hpool : PoolInv size t) (hc : CallInv size selfName t c) :
    Inv size selfName t where
  pool := hpool
  calls := by
    intro d
    by_cases hd : d = c
    · rw [hd]
      exact hc
    · exact h.callInv hd (hs.calls d)

end Frame

namespace Inv

omit [DecidableEq ρ]

/-- A live entry of an add is of an earlier call. -/
theorem call_lt (h : Inv size selfName s) {e : Entry ρ} (hlive : s.Live size e)
    (hadd : e.isAdd = true) : e.call < s.nextCall := by
  cases hkind : e.kind with
  | remove =>
    rw [Entry.isAdd, hkind] at hadd
    cases hadd
  | add childSuffix =>
    obtain ⟨i, hi⟩ := (h.calls e.call).staged e childSuffix hlive hkind rfl
    exact (h.calls e.call).fresh (.inr ⟨i, hi.2.2.1⟩)

/-- No slot, no call and no entry has the next number. -/
theorem next_request (h : Inv size selfName s) (i : Nat) : (s.slots i).request ≠ some s.nextCall :=
  fun hrequest => Nat.lt_irrefl _ ((h.calls _).fresh (.inr ⟨i, hrequest⟩))

theorem next_entry (h : Inv size selfName s) {e : Entry ρ} (hlive : s.Live size e)
    (hadd : e.isAdd = true) : e.call ≠ s.nextCall :=
  (h.call_lt hlive hadd).ne

end Inv

section Ids

omit [DecidableEq ρ]

variable {table table' : Nat → Option (Entry ρ)}

theorem Ids.mono (h : Ids size table) (hsub : ∀ j e, table' j = some e → table j = some e) :
    Ids size table' :=
  fun j hj k hk e e' hin hin' => h j hj k hk e e' (hsub j e hin) (hsub k e' hin')

/-- A new entry has a new id. -/
theorem Ids.enter (h : Ids size table) {j : Nat} {e : Entry ρ}
    (hfresh : ∀ k < pendMax size, ∀ e', table k = some e' → e'.requestId ≠ e.requestId) :
    Ids size (Function.update table j (some e)) := by
  intro k hk l hl e₁ e₂ h₁ h₂ heq
  by_cases hkj : k = j
  · by_cases hlj : l = j
    · exact hkj.trans hlj.symm
    · rw [hkj, Function.update_self] at h₁
      rw [Function.update_of_ne hlj] at h₂
      obtain rfl := Option.some.inj h₁
      exact absurd heq.symm (hfresh l hl e₂ h₂)
  · rw [Function.update_of_ne hkj] at h₁
    by_cases hlj : l = j
    · rw [hlj, Function.update_self] at h₂
      obtain rfl := Option.some.inj h₂
      exact absurd heq (hfresh k hk e₁ h₁)
    · rw [Function.update_of_ne hlj] at h₂
      exact h k hk l hl e₁ e₂ h₁ h₂ heq

end Ids

namespace PoolInv

omit [DecidableEq ρ]

theorem of_slots_eq (h : PoolInv size s) (hslots : t.slots = s.slots) (hids : Ids size t.table) :
    PoolInv size t where
  bound := by
    rw [hslots]
    exact h.bound
  idle := by
    rw [hslots]
    exact h.idle
  named := by
    rw [hslots]
    exact h.named
  localIds := by
    rw [hslots]
    exact h.localIds
  ids := hids

/-- One slot is in use, under a local id that no other slot has. -/
theorem of_update (h : PoolInv size s) {i : Nat} {x : Slot}
    (hslots : t.slots = Function.update s.slots i x)
    (hids : Ids size t.table) (hi : i < size)
    (huse : x.inUse = true) (hrequest : x.request ≠ none)
    (hnamed : x.state ≠ .pendingAdd → x.thingName ≠ none)
    (hlocal : ∀ j, j ≠ i → (s.slots j).inUse = true → (s.slots j).bridgeLocalId ≠ x.bridgeLocalId) :
    PoolInv size t where
  bound := by
    intro j
    rw [hslots]
    by_cases hj : j = i
    · subst hj
      rw [Function.update_self]
      exact fun _ => ⟨hi, hrequest⟩
    · rw [Function.update_of_ne hj]
      exact h.bound j
  idle := by
    intro j
    rw [hslots]
    by_cases hj : j = i
    · subst hj
      rw [Function.update_self, huse]
      intro hfree
      cases hfree
    · rw [Function.update_of_ne hj]
      exact h.idle j
  named := by
    intro j
    rw [hslots]
    by_cases hj : j = i
    · subst hj
      rw [Function.update_self]
      exact hnamed
    · rw [Function.update_of_ne hj]
      exact h.named j
  localIds := by
    intro j k
    rw [hslots]
    by_cases hj : j = i
    · by_cases hk : k = i
      · exact fun _ _ _ => hj.trans hk.symm
      · rw [hj, Function.update_self, Function.update_of_ne hk]
        exact fun _ hk' heq => absurd heq.symm (hlocal k hk hk')
    · by_cases hk : k = i
      · rw [hk, Function.update_self, Function.update_of_ne hj]
        exact fun hj' _ heq => absurd heq (hlocal j hj hj')
      · rw [Function.update_of_ne hj, Function.update_of_ne hk]
        exact h.localIds j k
  ids := hids

/-- One slot is freed. -/
theorem of_free (h : PoolInv size s) {i : Nat} (hslots : t.slots = Function.update s.slots i {})
    (hids : Ids size t.table) : PoolInv size t where
  bound := by
    intro j
    rw [hslots]
    by_cases hj : j = i
    · subst hj
      rw [Function.update_self]
      intro huse
      cases huse
    · rw [Function.update_of_ne hj]
      exact h.bound j
  idle := by
    intro j
    rw [hslots]
    by_cases hj : j = i
    · subst hj
      rw [Function.update_self]
      exact fun _ => ⟨rfl, rfl⟩
    · rw [Function.update_of_ne hj]
      exact h.idle j
  named := by
    intro j
    rw [hslots]
    by_cases hj : j = i
    · subst hj
      rw [Function.update_self]
      exact fun hstate => absurd rfl hstate
    · rw [Function.update_of_ne hj]
      exact h.named j
  localIds := by
    intro j k hj hk heq
    rw [hslots] at hj hk heq
    have hne : ∀ l, (Function.update s.slots i {} l).inUse = true →
        Function.update s.slots i {} l = s.slots l := by
      intro l hl
      refine Function.update_of_ne ?_ _ _
      rintro rfl
      rw [Function.update_self] at hl
      cases hl
    rw [hne j hj, hne k hk] at heq
    rw [hne j hj] at hj
    rw [hne k hk] at hk
    exact h.localIds j k hj hk heq
  ids := hids

end PoolInv

section Calls

omit [DecidableEq ρ]

/-- A call that is at work on its slot and has no entry. -/
theorem CallInv.of_working (i : Nat) (place : Place ρ) (hcall : t.calls c = some ⟨i, place⟩)
    (hfresh : c < t.nextCall) (hholds : t.Holds selfName c ⟨i, place⟩)
    (hplace : (place.stages = true ∧ (t.slots i).state = .pendingAdd) ∨
      (place.marks = true ∧ (t.slots i).state = .pendingRemove))
    (hentry : ∀ e, t.Live size e → e.isAdd = true → e.call ≠ c)
    (honly : ∀ j, (t.slots j).request = some c → j = i) : CallInv size selfName t c where
  fresh := fun _ => hfresh
  holds := by
    intro call heq
    obtain rfl := Option.some.inj (hcall.symm.trans heq)
    exact hholds
  unregistered := fun _ _ _ => hentry
  staged := by
    intro e childSuffix hlive hkind he
    exact absurd he (hentry e hlive (by rw [Entry.isAdd, hkind]))
  single := fun j k hj hk => (honly j hj).trans (honly k hk).symm
  add := by
    intro j _ hstate hrequest
    obtain rfl := honly j hrequest
    rcases hplace with ⟨hstages, -⟩ | ⟨-, hremove⟩
    · exact .inl ⟨_, hcall, rfl, hstages⟩
    · rw [hstate] at hremove
      cases hremove
  remove := by
    intro j _ hstate hrequest
    obtain rfl := honly j hrequest
    rcases hplace with ⟨-, hadd⟩ | ⟨hmarks, -⟩
    · rw [hstate] at hadd
      cases hadd
    · exact ⟨_, hcall, rfl, hmarks⟩
  once := by
    intro j hj k _ e _ hin _ hadd _ he _
    exact absurd he (hentry e (.inl ⟨j, hj, hin⟩) hadd)
  taken := by
    intro e answer htaken hadd he
    exact absurd he (hentry e (.inr ⟨answer, htaken⟩) hadd)

/-- A call that has returned, or whose request is published, and that has no entry. Its slot is
ready. -/
theorem CallInv.of_done (hfresh : t.calls c ≠ none ∨ (∃ j, (t.slots j).request = some c) →
      c < t.nextCall)
    (hcall : ∀ call, t.calls c = some call → (∃ r, call.place = .addPublish r) ∧
      ∀ j, (t.slots j).request = some c → j = call.slot)
    (hentry : ∀ e, t.Live size e → e.isAdd = true → e.call ≠ c)
    (hsingle : ∀ j k, (t.slots j).request = some c → (t.slots k).request = some c → j = k)
    (hready : ∀ j, (t.slots j).request = some c → (t.slots j).state = .ready) :
    CallInv size selfName t c where
  fresh := hfresh
  holds := by
    intro call heq
    obtain ⟨⟨r, hr⟩, hslot⟩ := hcall call heq
    rw [State.Holds, hr]
    exact hslot
  unregistered := fun _ _ _ => hentry
  staged := by
    intro e childSuffix hlive hkind he
    exact absurd he (hentry e hlive (by rw [Entry.isAdd, hkind]))
  single := hsingle
  add := by
    intro j _ hstate hj
    rw [hready j hj] at hstate
    cases hstate
  remove := by
    intro j _ hstate hj
    rw [hready j hj] at hstate
    cases hstate
  once := by
    intro j hj k _ e _ hin _ hadd _ he _
    exact absurd he (hentry e (.inl ⟨j, hj, hin⟩) hadd)
  taken := by
    intro e answer htaken hadd he
    exact absurd he (hentry e (.inr ⟨answer, htaken⟩) hadd)

end Calls

/-! ### A call takes a slot -/

omit [DecidableEq ρ] in
/-- A new call takes a slot that is free or ready, and stages it or marks it. -/
theorem Inv.take (h : Inv size selfName s) {i : Nat} {x : Slot} (place : Place ρ) (hi : i < size)
    (hslot : (s.slots i).inUse = true → (s.slots i).state = .ready) (huse : x.inUse = true)
    (hx : x.request = some s.nextCall) (hnamed : x.state ≠ .pendingAdd → x.thingName ≠ none)
    (hlocal : ∀ j, j ≠ i → (s.slots j).inUse = true → (s.slots j).bridgeLocalId ≠ x.bridgeLocalId)
    (hplace : (place = .addCopy ∧ x.state = .pendingAdd) ∨
      (place = .removeCopy ∧ x.state = .pendingRemove))
    (hslots : t.slots = Function.update s.slots i x)
    (hcalls : t.calls = Function.update s.calls s.nextCall (some ⟨i, place⟩))
    (htable : t.table = s.table) (hhandling : t.handling = s.handling)
    (hnext : t.nextCall = s.nextCall + 1) : Inv size selfName t := by
  have hti : t.slots i = x := by rw [hslots, Function.update_self]
  have hframe : Frame size s t s.nextCall :=
    { calls := fun d hd => by rw [hcalls, Function.update_of_ne hd]
      next := hnext ▸ Nat.le_succ _
      table := fun _ _ _ _ _ => by rw [htable]
      handling := fun _ _ _ _ => by rw [hhandling]
      slots := by
        intro j
        by_cases hj : j = i
        · subst hj
          refine .inr ⟨fun huse hstate => absurd (hslot huse) hstate, fun d hd => ?_⟩
          rw [hti, hx] at hd
          exact (Option.some.inj hd).symm
        · exact .inl (by rw [hslots, Function.update_of_ne hj]) }
  refine hframe.inv h ?_ ?_
  · exact h.pool.of_update hslots (htable ▸ h.pool.ids) hi huse (by rw [hx]; exact nofun) hnamed
      hlocal
  · refine .of_working i place ?_ ?_ ?_ ?_ ?_ ?_
    · rw [hcalls, Function.update_self]
    · rw [hnext]
      exact Nat.lt_succ_self _
    · rcases hplace with ⟨rfl, hstate⟩ | ⟨rfl, hstate⟩
      · simp only [State.Holds, hti]
        exact ⟨huse, hstate, hx⟩
      · simp only [State.Holds, hti]
        exact ⟨huse, hstate, hx⟩
    · rw [hti]
      rcases hplace with ⟨rfl, hstate⟩ | ⟨rfl, hstate⟩
      · exact .inl ⟨rfl, hstate⟩
      · exact .inr ⟨rfl, hstate⟩
    · intro e hlive hadd
      rw [State.Live, htable, hhandling] at hlive
      exact h.next_entry hlive hadd
    · intro j hj
      by_contra hne
      rw [hslots, Function.update_of_ne hne] at hj
      exact h.next_request j hj

omit [DecidableEq ρ] in
/-- `esp_rmaker_bridge_add_child` stages a slot. -/
theorem Inv.add (h : Inv size selfName s) (childSuffix bridgeLocalId : Str) (allocates : Bool) :
    Inv size selfName (s.add size childSuffix bridgeLocalId allocates) := by
  rw [State.add]
  split
  · split
    · next i hnone hfree =>
      split
      · obtain ⟨hfree, hi⟩ := freeSlot_some hfree
        refine h.take .addCopy hi (fun huse => ?_) rfl rfl
          (fun hstate => absurd rfl hstate) (fun j _ huse heq => ?_) (.inl ⟨rfl, rfl⟩)
          rfl rfl rfl rfl rfl
        · rw [hfree] at huse
          cases huse
        · have hmiss := findSlot_none.mp hnone j (h.pool.bound j huse).1 huse
          rw [heq] at hmiss
          simp at hmiss
      · exact h
    · exact h
  · exact h

omit [DecidableEq ρ] in
/-- `esp_rmaker_bridge_remove_child` marks a child. -/
theorem Inv.remove (h : Inv size selfName s) {i : Nat} (hi : i < size) :
    Inv size selfName (s.remove i) := by
  rw [State.remove]
  split
  · next hready =>
    have huse : (s.slots i).inUse = true := by
      by_contra hfree
      rw [((h.pool.idle i) (by simpa using hfree)).1] at hready
      cases hready
    refine h.take .removeCopy
      (x := { s.slots i with state := .pendingRemove, request := some s.nextCall }) hi
      (fun _ => hready) huse rfl (fun _ => h.pool.named i (by rw [hready]; decide))
      (fun j hj hused heq => ?_) (.inr ⟨rfl, rfl⟩) rfl rfl rfl rfl rfl
    exact hj (h.pool.localIds j i hused huse heq)
  · exact h

/-! ### A call goes on -/

section Go

omit [DecidableEq ρ]

variable {i : Nat} {place : Place ρ}

theorem holds_stages (h : s.Holds selfName c ⟨i, place⟩) (hplace : place.stages = true) :
    (s.slots i).inUse = true ∧ (s.slots i).state = .pendingAdd ∧ (s.slots i).request = some c := by
  cases place with
  | addCopy | rollback => exact h
  | addName => exact ⟨h.1, h.2.1, h.2.2.1⟩
  | addRegister => exact ⟨h.1, h.2.1, h.2.2.1⟩
  | _ => cases hplace

theorem holds_marks (h : s.Holds selfName c ⟨i, place⟩) (hplace : place.marks = true) :
    (s.slots i).inUse = true ∧ (s.slots i).state = .pendingRemove ∧
      (s.slots i).request = some c := by
  cases place with
  | removeCopy => exact h
  | removeRegister | removePublish | teardown => exact ⟨h.1, h.2.1, h.2.2.1⟩
  | _ => cases hplace

variable (h : Inv size selfName s) (hcall : s.calls c = some ⟨i, place⟩)
include h hcall

/-- A call that has marked its slot has no entry of an add. -/
theorem Inv.marks_entry (hplace : place.marks = true) {e : Entry ρ} (hlive : s.Live size e)
    (hadd : e.isAdd = true) : e.call ≠ c := by
  intro he
  obtain ⟨-, hstate, hrequest⟩ := holds_marks ((h.calls c).holds _ hcall) hplace
  cases hkind : e.kind with
  | remove =>
    rw [Entry.isAdd, hkind] at hadd
    cases hadd
  | add childSuffix =>
    obtain ⟨j, hj⟩ := (h.calls c).staged e childSuffix hlive hkind he
    obtain rfl := (h.calls c).single i j hrequest (he ▸ hj.2.2.1)
    rw [hj.2.1] at hstate
    cases hstate

/-- A call that is at work on its slot has no entry of an add. -/
theorem Inv.working_entry (hplace : place.stages = true ∨ place.marks = true) {e : Entry ρ}
    (hlive : s.Live size e) (hadd : e.isAdd = true) : e.call ≠ c := by
  rcases hplace with hstages | hmarks
  · exact (h.calls c).unregistered _ hcall hstages e hlive hadd
  · exact h.marks_entry hcall hmarks hlive hadd

/-- The slot of a call that is at work on it. -/
theorem Inv.working_slot (hplace : place.stages = true ∨ place.marks = true) :
    (s.slots i).inUse = true ∧ (s.slots i).request = some c := by
  rcases hplace with hstages | hmarks
  · obtain ⟨huse, -, hrequest⟩ := holds_stages ((h.calls c).holds _ hcall) hstages
    exact ⟨huse, hrequest⟩
  · obtain ⟨huse, -, hrequest⟩ := holds_marks ((h.calls c).holds _ hcall) hmarks
    exact ⟨huse, hrequest⟩

/-- The step of a call changes its own slot and entries that are no add. -/
theorem Inv.frame_working {x : Slot} {next : Option (Call ρ)}
    (hplace : place.stages = true ∨ place.marks = true)
    (hslots : t.slots = Function.update s.slots i x) (hx : ∀ d, x.request = some d → d = c)
    (hcalls : t.calls = Function.update s.calls c next)
    (htable : ∀ j < pendMax size, ∀ e, e.isAdd = true → (t.table j = some e ↔ s.table j = some e))
    (hhandling : t.handling = s.handling) (hnext : t.nextCall = s.nextCall) : Frame size s t c where
  calls := fun d hd => by rw [hcalls, Function.update_of_ne hd]
  next := hnext.ge
  table := fun j hj e hadd _ => htable j hj e hadd
  handling := fun _ _ _ _ => by rw [hhandling]
  slots := by
    intro j
    by_cases hj : j = i
    · subst hj
      refine .inr ⟨fun _ _ => (h.working_slot hcall hplace).2, fun d hd => ?_⟩
      rw [hslots, Function.update_self] at hd
      exact hx d hd
    · exact .inl (by rw [hslots, Function.update_of_ne hj])

/-- A call goes on with its slot. -/
theorem Inv.move {place' : Place ρ} {x : Slot}
    (hplace : (place.stages = true ∧ place'.stages = true) ∨
      (place.marks = true ∧ place'.marks = true)) (hslots : t.slots = Function.update s.slots i x)
    (hx : x = { s.slots i with thingName := x.thingName })
    (hnamed : x.thingName = none → (s.slots i).thingName = none)
    (hcalls : t.calls = Function.update s.calls c (some ⟨i, place'⟩)) (hids : Ids size t.table)
    (htable : ∀ j < pendMax size, ∀ e, e.isAdd = true → (t.table j = some e ↔ s.table j = some e))
    (hhandling : t.handling = s.handling) (hnext : t.nextCall = s.nextCall)
    (hholds : t.Holds selfName c ⟨i, place'⟩) : Inv size selfName t := by
  have hworks : place.stages = true ∨ place.marks = true := hplace.imp And.left And.left
  obtain ⟨huse, hrequest⟩ := h.working_slot hcall hworks
  have hti : t.slots i = x := by rw [hslots, Function.update_self]
  have hrequest' : x.request = some c := by
    rw [hx]
    exact hrequest
  have hframe : Frame size s t c := h.frame_working hcall hworks hslots
    (fun d hd => (Option.some.inj (hrequest'.symm.trans hd)).symm) hcalls
    htable hhandling hnext
  refine hframe.inv h ?_ ?_
  · refine h.pool.of_update hslots hids (h.pool.bound i huse).1 ?_ ?_ ?_ ?_
    · rw [hx]
      exact huse
    · rw [hrequest']
      exact nofun
    · intro hstate hnone
      rw [hx] at hstate
      exact h.pool.named i hstate (hnamed hnone)
    · intro j hj hused heq
      refine hj (h.pool.localIds j i hused huse ?_)
      rw [heq, hx]
  · refine .of_working i place' (by rw [hcalls, Function.update_self]) ?_ hholds ?_ ?_ ?_
    · rw [hnext]
      exact (h.calls c).fresh (.inr ⟨i, hrequest⟩)
    · have hstate : (t.slots i).state = (s.slots i).state := by rw [hti, hx]
      rw [hstate]
      refine hplace.imp (fun hp => ⟨hp.2, ?_⟩) fun hp => ⟨hp.2, ?_⟩
      · exact (holds_stages ((h.calls c).holds _ hcall) hp.1).2.1
      · exact (holds_marks ((h.calls c).holds _ hcall) hp.1).2.1
    · intro e hlive hadd
      refine h.working_entry hcall hworks ?_ hadd
      rw [State.Live, hhandling] at hlive
      exact hlive.imp_left fun ⟨j, hj, hin⟩ => ⟨j, hj, (htable j hj e hadd).mp hin⟩
    · intro j hj
      by_contra hne
      rw [hslots, Function.update_of_ne hne] at hj
      exact hne ((h.calls c).single j i hj hrequest)

/-- A call goes on and leaves its slot alone. -/
theorem Inv.goTo {place' : Place ρ}
    (hplace : (place.stages = true ∧ place'.stages = true) ∨
      (place.marks = true ∧ place'.marks = true))
    (hholds : (s.goTo c i place').Holds selfName c ⟨i, place'⟩) :
    Inv size selfName (s.goTo c i place') :=
  h.move hcall hplace (Function.update_eq_self i s.slots).symm rfl id rfl h.pool.ids
    (fun _ _ _ _ => Iff.rfl) rfl rfl hholds

/-- A call frees its slot and returns. -/
theorem Inv.free (hplace : place.stages = true ∨ place.marks = true) :
    Inv size selfName ((s.setSlot i {}).leave c) := by
  obtain ⟨-, hrequest⟩ := h.working_slot hcall hplace
  have hframe : Frame size s ((s.setSlot i {}).leave c) c :=
    h.frame_working hcall hplace rfl (fun d hd => nomatch hd) rfl (fun _ _ _ _ => Iff.rfl) rfl rfl
  have hnone : ((s.setSlot i {}).leave c).calls c = none := Function.update_self _ _ _
  have hnew : ∀ j, (((s.setSlot i {}).leave c).slots j).request ≠ some c := by
    intro j hj
    change (Function.update s.slots i {} j).request = some c at hj
    by_cases hne : j = i
    · rw [hne, Function.update_self] at hj
      cases hj
    · rw [Function.update_of_ne hne] at hj
      exact hne ((h.calls c).single j i hj hrequest)
  refine hframe.inv h (h.pool.of_free rfl h.pool.ids) (.of_done ?_ ?_ ?_ ?_ ?_)
  · rintro (hcall | ⟨j, hj⟩)
    · exact absurd hnone hcall
    · exact absurd hj (hnew j)
  · rw [hnone]
    exact fun call heq => nomatch heq
  · exact fun e hlive hadd => h.working_entry hcall hplace hlive hadd
  · exact fun j _ hj _ => absurd hj (hnew j)
  · exact fun j hj => absurd hj (hnew j)

end Go

section Publish

omit [DecidableEq ρ] in
/-- The publish of a request leaves the slots and the entries alone. -/
theorem Inv.published (h : Inv size selfName s) {i : Nat} {r : ρ}
    (hcall : s.calls c = some ⟨i, .addPublish r⟩) : Inv size selfName (s.leave c) := by
  have hnone : (s.leave c).calls c = none := Function.update_self _ _ _
  have hframe : Frame size s (s.leave c) c :=
    { calls := fun d hd => Function.update_of_ne hd _ _
      next := Nat.le_refl _
      table := fun _ _ _ _ _ => Iff.rfl
      handling := fun _ _ _ _ => Iff.rfl
      slots := fun _ => .inl rfl }
  have hc := h.calls c
  refine hframe.inv h (h.pool.of_slots_eq rfl h.pool.ids) ?_
  refine ⟨fun _ => hc.fresh (.inl (by rw [hcall]; exact nofun)), ?_, ?_, hc.staged, hc.single, ?_,
    ?_, hc.once, hc.taken⟩
  · intro call heq
    rw [hnone] at heq
    cases heq
  · intro call heq
    rw [hnone] at heq
    cases heq
  · intro j huse hstate hrequest
    rcases hc.add j huse hstate hrequest with ⟨call, heq, -, hstages⟩ | hentry
    · obtain rfl := Option.some.inj (hcall.symm.trans heq)
      cases hstages
    · exact .inr hentry
  · intro j huse hstate hrequest
    obtain ⟨call, heq, -, hmarks⟩ := hc.remove j huse hstate hrequest
    obtain rfl := Option.some.inj (hcall.symm.trans heq)
    cases hmarks

/-- A failed publish of an unanswered request drops the entry. -/
theorem Inv.unanswered (h : Inv size selfName s) {i : Nat} {r : ρ}
    (hcall : s.calls c = some ⟨i, .addPublish r⟩)
    (hown : ∃ j < pendMax size,
      ((s.table j).any fun e => e.isAdd ∧ e.call = c ∧ e.requestId = r) = true) :
    Inv size selfName { s.goTo c i .rollback with table := drop size s.table r } := by
  obtain ⟨j, hj, hany⟩ := hown
  obtain ⟨e, hin, hentry⟩ := Option.any_eq_true _ _ |>.mp hany
  obtain ⟨hadd, he, hid⟩ := of_decide_eq_true hentry
  have hc := h.calls c
  -- The entry that is dropped is the one of the call.
  have hdrop : drop size s.table r = Function.update s.table j none := by
    rw [drop]
    split
    · next k hk =>
      obtain ⟨hk, e', hin', hid'⟩ := findEntry_some hk
      rw [h.pool.ids k hk j hj e' e hin' hin (hid'.trans hid.symm)]
    · next hnone => exact absurd hid (findEntry_none hnone hj hin)
  have hsub : ∀ k e', drop size s.table r k = some e' → k ≠ j ∧ s.table k = some e' := by
    intro k e' hin'
    rw [hdrop] at hin'
    by_cases hk : k = j
    · rw [hk, Function.update_self] at hin'
      cases hin'
    · rw [Function.update_of_ne hk] at hin'
      exact ⟨hk, hin'⟩
  obtain ⟨childSuffix, hkind⟩ : ∃ childSuffix, e.kind = .add childSuffix := by
    cases hkind : e.kind with
    | add childSuffix => exact ⟨childSuffix, rfl⟩
    | remove =>
      rw [Entry.isAdd, hkind] at hadd
      cases hadd
  obtain ⟨l, huse, hstate, hrequest, -⟩ := hc.staged e childSuffix (.inl ⟨j, hj, hin⟩) hkind he
  rw [he] at hrequest
  obtain rfl : l = i := hc.holds _ hcall l hrequest
  have hframe : Frame size s { s.goTo c l .rollback with table := drop size s.table r } c :=
    { calls := fun d hd => Function.update_of_ne hd _ _
      next := Nat.le_refl _
      table := by
        intro k hk e' hadd' he'
        refine ⟨fun hin' => (hsub k e' hin').2, fun hin' => ?_⟩
        show drop size s.table r k = some e'
        rw [hdrop, Function.update_of_ne]
        · exact hin'
        · rintro rfl
          obtain rfl := Option.some.inj (hin.symm.trans hin')
          exact he' he
      handling := fun _ _ _ _ => Iff.rfl
      slots := fun _ => .inl rfl }
  have hids := h.pool.ids.mono fun k e' hin' => (hsub k e' hin').2
  refine hframe.inv h (h.pool.of_slots_eq rfl hids) ?_
  refine .of_working l .rollback (Function.update_self _ _ _)
    (hc.fresh (.inr ⟨l, hrequest⟩)) ⟨huse, hstate, hrequest⟩ (.inl ⟨rfl, hstate⟩) ?_
    fun k hk => hc.single k l hk hrequest
  rintro e' (⟨k, hk, hin'⟩ | ⟨answer, htaken⟩) hadd' he'
  · obtain ⟨hne, hin'⟩ := hsub k e' hin'
    exact hne (hc.once k hk j hj e' e hin' hin hadd' hadd he' he)
  · exact hc.taken e' answer htaken hadd' he' j hj e hin hadd he

end Publish

/-- The step of a call. -/
theorem Inv.go {call : Call ρ} {ok : Bool} (h : Inv size selfName s)
    (hcall : s.calls c = some call) (hg : call.place.Careful size s c ok)
    (ht : s.go size selfName c call ok = some t) : Inv size selfName t := by
  obtain ⟨i, place⟩ := call
  have hholds := (h.calls c).holds _ hcall
  cases place with
  | addCopy =>
    simp only [State.go, Option.some.injEq] at ht
    subst ht
    split
    · exact h.goTo hcall (.inl ⟨rfl, rfl⟩) ⟨hholds.1, hholds.2.1, hholds.2.2, rfl⟩
    · exact h.goTo hcall (.inl ⟨rfl, rfl⟩) hholds
  | addName childSuffix bridgeLocalId =>
    simp only [State.go, Option.some.injEq] at ht
    subst ht
    split
    · refine h.move hcall (.inl ⟨rfl, rfl⟩) rfl rfl nofun rfl h.pool.ids (fun _ _ _ _ => Iff.rfl)
        rfl rfl ?_
      simp only [State.Holds, State.goTo, State.setCall, State.setSlot, Function.update_self]
      exact ⟨hholds.1, hholds.2.1, hholds.2.2.1, hholds.2.2.2, trivial⟩
    · exact h.goTo hcall (.inl ⟨rfl, rfl⟩) ⟨hholds.1, hholds.2.1, hholds.2.2.1⟩
  | addRegister => cases ht
  | addPublish r =>
    simp only [State.go, Option.some.injEq] at ht
    subst ht
    cases ok with
    | true => exact h.published hcall
    | false => exact h.unanswered hcall (hg rfl)
  | rollback =>
    simp only [State.go, Option.some.injEq] at ht
    subst ht
    rw [State.free, if_pos hholds.1]
    exact h.free hcall (.inl rfl)
  | removeCopy =>
    have hok : ok = true := hg
    simp only [State.go, Option.some.injEq] at ht
    subst ht
    have hnamed := h.pool.named i (by rw [hholds.2.1]; decide)
    rw [if_pos ⟨hok, hnamed⟩]
    exact h.goTo hcall (.inr ⟨rfl, rfl⟩) ⟨hholds.1, hholds.2.1, hholds.2.2, rfl⟩
  | removeRegister => cases ht
  | removePublish r bridgeLocalId =>
    have hok : ok = true := hg
    simp only [State.go, Option.some.injEq] at ht
    subst ht
    rw [if_pos hok]
    exact h.goTo hcall (.inr ⟨rfl, rfl⟩) hholds
  | teardown bridgeLocalId =>
    simp only [State.go] at ht
    split at ht
    · next j hj =>
      obtain rfl := Option.some.inj ht
      obtain ⟨⟨huse, heq⟩, -, -⟩ := findSlot_some.mp hj
      obtain rfl : j = i := by
        refine h.pool.localIds j i huse hholds.1 ?_
        rw [hholds.2.2.2]
        simpa using heq
      rw [State.free, if_pos huse]
      exact h.free hcall (.inr rfl)
    · next hnone =>
      have hmiss := findSlot_none.mp hnone i (h.pool.bound i hholds.1).1 hholds.1
      rw [hholds.2.2.2] at hmiss
      simp at hmiss

/-! ### A request is registered -/

section Register

omit [DecidableEq ρ]

/-- With care, a sweep keeps the entries of the adds. -/
theorem sweep_iff {r : ρ} {now : Int} {place : Place ρ}
    (hg : place.CarefulEntry size s.table r now) {j : Nat} (hj : j < pendMax size) {e : Entry ρ}
    (hadd : e.isAdd = true) : sweep now s.table j = some e ↔ s.table j = some e :=
  ⟨sweep_some, fun hin => hg.1 j hj e hin hadd⟩

/-- An entry goes where none is. -/
theorem enter_iff {table : Nat → Option (Entry ρ)} {j k : Nat} {e e' : Entry ρ}
    (hfree : table j = none) (hne : e' ≠ e) :
    Function.update table j (some e) k = some e' ↔ table k = some e' := by
  by_cases hk : k = j
  · rw [hk, Function.update_self, hfree]
    exact ⟨fun heq => absurd (Option.some.inj heq).symm hne, nofun⟩
  · rw [Function.update_of_ne hk]

/-- The request of an add is in the table. -/
theorem Inv.registered (h : Inv size selfName s) {i j : Nat} {r : ρ} {now later : Int}
    {childSuffix bridgeLocalId : Str}
    (hcall : s.calls c = some ⟨i, .addRegister childSuffix bridgeLocalId⟩)
    (hg : (Place.addRegister childSuffix bridgeLocalId).CarefulEntry size s.table r now)
    (hfree : freeEntry size (sweep now s.table) = some j) :
    Inv size selfName ((s.enter now j
      { kind := .add childSuffix, requestId := r, bridgeLocalId := bridgeLocalId.take localIdLenMax,
        insertedS := later, call := c }).goTo c i (.addPublish r)) := by
  obtain ⟨hfree, hj⟩ := freeEntry_some hfree
  obtain ⟨huse, hstate, hrequest, hlocal, hname⟩ := (h.calls c).holds _ hcall
  have hc := h.calls c
  have hnone := hc.unregistered _ hcall rfl
  generalize he : (⟨.add childSuffix, r, bridgeLocalId.take localIdLenMax, later, c⟩ : Entry ρ) = e
  have hkind : e.kind = .add childSuffix := by rw [← he]
  have hadd : e.isAdd = true := by rw [← he]; rfl
  have hec : e.call = c := by rw [← he]
  have hid : e.requestId = r := by rw [← he]
  have hel : e.bridgeLocalId = bridgeLocalId.take localIdLenMax := by rw [← he]
  have htable : ∀ k < pendMax size, ∀ e', e'.isAdd = true → e' ≠ e →
      (Function.update (sweep now s.table) j (some e) k = some e' ↔ s.table k = some e') :=
    fun k hk e' hadd' hne => (enter_iff hfree hne).trans (sweep_iff hg hk hadd')
  -- The new entry is the only one of the call.
  have honly : ∀ k < pendMax size, ∀ e',
      Function.update (sweep now s.table) j (some e) k = some e' → e'.isAdd = true →
        e'.call = c → k = j ∧ e' = e := by
    intro k hk e' hin hadd' he'
    by_cases hne : e' = e
    · refine ⟨?_, hne⟩
      by_contra hkj
      rw [Function.update_of_ne hkj] at hin
      exact hnone e' (.inl ⟨k, hk, sweep_some hin⟩) hadd' he'
    · exact absurd he' (hnone e' (.inl ⟨k, hk, (htable k hk e' hadd' hne).mp hin⟩) hadd')
  have hframe : Frame size s ((s.enter now j e).goTo c i (.addPublish r)) c :=
    { calls := fun d hd => Function.update_of_ne hd _ _
      next := Nat.le_refl _
      table := fun k hk e' hadd' he' => htable k hk e' hadd' fun heq => he' (heq ▸ hec)
      handling := fun _ _ _ _ => Iff.rfl
      slots := fun _ => .inl rfl }
  have hnew : ((s.enter now j e).goTo c i (.addPublish r)).calls c = some ⟨i, .addPublish r⟩ :=
    Function.update_self _ _ _
  refine hframe.inv h (h.pool.of_slots_eq rfl ?_) ?_
  · refine (h.pool.ids.mono fun k e' => sweep_some).enter ?_
    rw [hid]
    exact hg.2.1
  refine ⟨fun _ => hc.fresh (.inr ⟨i, hrequest⟩), ?_, ?_, ?_, hc.single, ?_, ?_, ?_, ?_⟩
  · intro call heq
    obtain rfl := Option.some.inj (hnew.symm.trans heq)
    exact fun k hk => hc.single k i hk hrequest
  · intro call heq hstages
    obtain rfl := Option.some.inj (hnew.symm.trans heq)
    cases hstages
  · intro e' childSuffix' hlive hkind' he'
    have hadd' : e'.isAdd = true := by rw [Entry.isAdd, hkind']
    rcases hlive with ⟨k, hk, hin⟩ | ⟨answer, htaken⟩
    · obtain ⟨-, rfl⟩ := honly k hk e' hin hadd' he'
      obtain rfl := Kind.add.inj (hkind.symm.trans hkind')
      refine ⟨i, huse, hstate, ?_, hname, ?_⟩
      · rw [hec]
        exact hrequest
      · show _ = (s.slots i).bridgeLocalId.take _
        rw [hel, hlocal]
    · exact absurd he' (hnone e' (.inr ⟨answer, htaken⟩) hadd')
  · exact fun _ _ _ _ => .inr ⟨e, .inl ⟨j, hj, Function.update_self _ _ _⟩, hadd, hec⟩
  · intro k _ hmarked hk
    obtain rfl := hc.single k i hk hrequest
    exact absurd (hmarked.symm.trans hstate) (by decide)
  · intro k hk l hl e₁ e₂ h₁ h₂ hadd₁ hadd₂ he₁ he₂
    exact (honly k hk e₁ h₁ hadd₁ he₁).1.trans (honly l hl e₂ h₂ hadd₂ he₂).1.symm
  · intro e' answer htaken hadd' he'
    exact absurd he' (hnone e' (.inr ⟨answer, htaken⟩) hadd')

/-- A call registers its request. -/
theorem Inv.register {call : Call ρ} {r : ρ} {now later : Int} (h : Inv size selfName s)
    (hcall : s.calls c = some call) (hg : call.place.CarefulEntry size s.table r now)
    (ht : s.register size c call r now later = some t) : Inv size selfName t := by
  obtain ⟨i, place⟩ := call
  have hholds := (h.calls c).holds _ hcall
  have hsame : s.slots = Function.update s.slots i (s.slots i) :=
    (Function.update_eq_self i s.slots).symm
  have hids : Ids size (sweep now s.table) := h.pool.ids.mono fun k e => sweep_some
  cases place with
  | addRegister childSuffix bridgeLocalId =>
    simp only [State.register] at ht
    split at ht
    · next j hfree =>
      obtain rfl := Option.some.inj ht
      exact h.registered hcall hg hfree
    · obtain rfl := Option.some.inj ht
      exact h.move hcall (.inl ⟨rfl, rfl⟩) hsame rfl id rfl hids
        (fun j hj e hadd => sweep_iff hg hj hadd) rfl rfl
        ⟨hholds.1, hholds.2.1, hholds.2.2.1⟩
  | removeRegister bridgeLocalId =>
    simp only [State.register] at ht
    split at ht
    · next j hfree =>
      obtain rfl := Option.some.inj ht
      obtain ⟨hfree, -⟩ := freeEntry_some hfree
      refine h.move hcall (.inr ⟨rfl, rfl⟩) hsame rfl id rfl (hids.enter hg.2.1)
        (fun k hk e hadd => ?_) rfl rfl hholds
      refine (enter_iff hfree ?_).trans (sweep_iff hg hk hadd)
      rintro rfl
      cases hadd
    · next hfull => exact absurd hfull (hg.2.2 rfl)
  | _ => cases ht

end Register

/-! ### An acknowledgement -/

section Answers

omit [DecidableEq ρ]

variable {e : Entry ρ}

variable (h : Inv size selfName s)
include h

/-- An entry that is taken is still the one of its request. -/
theorem Inv.ack {answer : Answer} (hidle : s.handling = none) {j : Nat} (hj : j < pendMax size)
    (hin : s.table j = some e) :
    Inv size selfName
      { s with table := Function.update s.table j none, handling := some (e, answer) } := by
  have hsub : ∀ k e', Function.update s.table j none k = some e' → k ≠ j ∧ s.table k = some e' := by
    intro k e' hin'
    by_cases hk : k = j
    · rw [hk, Function.update_self] at hin'
      cases hin'
    · rw [Function.update_of_ne hk] at hin'
      exact ⟨hk, hin'⟩
  have hlive : ∀ e', State.Live size
      { s with table := Function.update s.table j none, handling := some (e, answer) } e' ↔
        s.Live size e' := by
    intro e'
    constructor
    · rintro (⟨k, hk, hin'⟩ | ⟨answer', htaken⟩)
      · exact .inl ⟨k, hk, (hsub k e' hin').2⟩
      · obtain ⟨rfl, -⟩ := Prod.mk.inj (Option.some.inj htaken)
        exact .inl ⟨j, hj, hin⟩
    · rintro (⟨k, hk, hin'⟩ | ⟨answer', htaken⟩)
      · by_cases hkj : k = j
        · subst hkj
          obtain rfl := Option.some.inj (hin.symm.trans hin')
          exact .inr ⟨answer, rfl⟩
        · exact .inl ⟨k, hk, (Function.update_of_ne hkj _ _).trans hin'⟩
      · rw [hidle] at htaken
        cases htaken
  have hc := h.calls e.call
  have hframe : Frame size s
      { s with table := Function.update s.table j none, handling := some (e, answer) } e.call :=
    { calls := fun _ _ => rfl
      next := Nat.le_refl _
      table := by
        intro k hk e' hadd' he'
        refine ⟨fun hin' => (hsub k e' hin').2, fun hin' => ?_⟩
        refine (Function.update_of_ne ?_ _ _).trans hin'
        rintro rfl
        obtain rfl := Option.some.inj (hin.symm.trans hin')
        exact he' rfl
      handling := by
        intro e' answer' hadd' he'
        rw [hidle]
        refine ⟨fun htaken => ?_, nofun⟩
        obtain ⟨rfl, -⟩ := Prod.mk.inj (Option.some.inj htaken)
        exact absurd rfl he'
      slots := fun _ => .inl rfl }
  have hids := h.pool.ids.mono fun k e' hin' => (hsub k e' hin').2
  refine hframe.inv h (h.pool.of_slots_eq rfl hids) ?_
  refine ⟨hc.fresh, hc.holds, ?_, ?_, hc.single, ?_, hc.remove, ?_, ?_⟩
  · exact fun call hcall hstages e' hl => hc.unregistered call hcall hstages e' ((hlive e').mp hl)
  · exact fun e' childSuffix hl => hc.staged e' childSuffix ((hlive e').mp hl)
  · intro k huse hstate hrequest
    refine (hc.add k huse hstate hrequest).imp_right ?_
    exact fun ⟨e', hl, hrest⟩ => ⟨e', (hlive e').mpr hl, hrest⟩
  · intro k hk l hl e₁ e₂ h₁ h₂
    exact hc.once k hk l hl e₁ e₂ (hsub k e₁ h₁).2 (hsub l e₂ h₂).2
  · intro e₁ answer' htaken hadd he k hk e₂ h₂ hadd₂ he₂
    obtain ⟨rfl, -⟩ := Prod.mk.inj (Option.some.inj htaken)
    obtain ⟨hne, h₂⟩ := hsub k e₂ h₂
    exact hne (hc.once k hk j hj e₂ e h₂ hin hadd₂ hadd he₂ he)

/-- An answer to an add finds the slot of the request. -/
theorem Inv.dispatch_eq {answer : Answer} {childSuffix : Str}
    (htaken : s.handling = some (e, answer)) (hkind : e.kind = .add childSuffix)
    (hg : ∀ i < size, (s.slots i).request = some e.call → answer.Careful selfName s i childSuffix) :
    ∃ i < size, (s.slots i).inUse = true ∧ (s.slots i).state = .pendingAdd ∧
      (s.slots i).request = some e.call ∧
      { s with handling := none }.dispatch size e answer =
        { s with
          handling := none, slots := Function.update s.slots i (answer.apply (s.slots i)) } := by
  obtain ⟨i, huse, hstate, hrequest, hname, hlocal⟩ :=
    (h.calls e.call).staged e childSuffix (.inr ⟨answer, htaken⟩) hkind rfl
  have hi := (h.pool.bound i huse).1
  have hcare := hg i hi hrequest
  refine ⟨i, hi, huse, hstate, hrequest, ?_⟩
  have hfailure : (s.slots i).bridgeLocalId.length ≤ localIdLenMax →
      { s with handling := none }.ackFailureAdd size e.bridgeLocalId =
        { s with handling := none, slots := Function.update s.slots i {} } := by
    intro hlength
    have hwhole : e.bridgeLocalId = (s.slots i).bridgeLocalId := by
      rw [hlocal, List.take_of_length_le hlength]
    have hfind : findByLocalId size s.slots e.bridgeLocalId = some i := by
      refine findSlot_some.mpr ⟨⟨huse, decide_eq_true hwhole.symm⟩, hi, fun j hj hused => ?_⟩
      refine decide_eq_false fun heq => hj.ne ?_
      exact h.pool.localIds j i hused huse (heq.trans hwhole)
    rw [State.ackFailureAdd, hfind]
    simp only [hstate, if_true, State.free, huse]
    rfl
  cases answer with
  | success childNodeId =>
    obtain ⟨rfl, hfirst⟩ := hcare
    have hfind : findByThingName size s.slots (childThingName selfName childSuffix) = some i :=
      findSlot_some.mpr ⟨⟨huse, decide_eq_true hname⟩, hi,
        fun j hj hused => decide_eq_false (hfirst j hj hused)⟩
    unfold State.dispatch
    rw [hkind]
    simp only [State.ackSuccessAdd, hfind, hstate, if_true]
    rfl
  | missing =>
    unfold State.dispatch
    rw [hkind]
    exact hfailure hcare
  | failure =>
    unfold State.dispatch
    rw [hkind]
    exact hfailure hcare

/-- The call of an entry has published it, and perhaps returned. -/
theorem Inv.live_call (hlive : s.Live size e) (hadd : e.isAdd = true) {call : Call ρ}
    (hcall : s.calls e.call = some call) : ∃ r, call.place = .addPublish r := by
  obtain ⟨i, place⟩ := call
  cases place with
  | addPublish r => exact ⟨r, rfl⟩
  | addCopy | addName | addRegister | rollback =>
    exact absurd rfl (h.working_entry hcall (.inl rfl) hlive hadd)
  | removeCopy | removeRegister | removePublish | teardown =>
    exact absurd rfl (h.working_entry hcall (.inr rfl) hlive hadd)

/-- The slot of a request is promoted or freed, and the entry is gone. -/
theorem Inv.answer {answer : Answer} {childSuffix : Str} {i : Nat}
    (htaken : s.handling = some (e, answer)) (hkind : e.kind = .add childSuffix)
    (huse : (s.slots i).inUse = true) (hrequest : (s.slots i).request = some e.call) :
    Inv size selfName { s with
      handling := none, slots := Function.update s.slots i (answer.apply (s.slots i)) } := by
  have hadd : e.isAdd = true := by rw [Entry.isAdd, hkind]
  have hc := h.calls e.call
  obtain ⟨k, -, -, hk, hname, -⟩ := hc.staged e childSuffix (.inr ⟨answer, htaken⟩) hkind rfl
  obtain rfl := hc.single k i hk hrequest
  have happly : answer.apply (s.slots k) = {} ∨
      answer.apply (s.slots k) = { s.slots k with state := .ready } := by
    cases answer with
    | success => exact .inr rfl
    | missing | failure => exact .inl rfl
  have hrequests : ∀ j d,
      (Function.update s.slots k (answer.apply (s.slots k)) j).request = some d →
      (s.slots j).request = some d ∧
        (j = k → (Function.update s.slots k (answer.apply (s.slots k)) j).state = .ready) := by
    intro j d hj
    by_cases hjk : j = k
    · subst hjk
      rw [Function.update_self] at hj ⊢
      rcases happly with heq | heq
      · rw [heq] at hj
        cases hj
      · rw [heq] at hj ⊢
        exact ⟨hj, fun _ => rfl⟩
    · rw [Function.update_of_ne hjk] at hj
      exact ⟨hj, fun heq => absurd heq hjk⟩
  have hframe : Frame size s { s with
      handling := none, slots := Function.update s.slots k (answer.apply (s.slots k)) } e.call :=
    { calls := fun _ _ => rfl
      next := Nat.le_refl _
      table := fun _ _ _ _ _ => Iff.rfl
      handling := by
        intro e' answer' _ he'
        rw [htaken]
        refine ⟨nofun, fun heq => ?_⟩
        obtain ⟨rfl, -⟩ := Prod.mk.inj (Option.some.inj heq)
        exact absurd rfl he'
      slots := by
        intro j
        by_cases hj : j = k
        · subst hj
          refine .inr ⟨fun _ _ => hrequest, fun d hd => ?_⟩
          exact (Option.some.inj (hrequest.symm.trans (hrequests j d hd).1)).symm
        · exact .inl (Function.update_of_ne hj _ _) }
  refine hframe.inv h ?_ (.of_done ?_ ?_ ?_ ?_ ?_)
  · rcases happly with heq | heq
    · rw [heq]
      exact h.pool.of_free rfl h.pool.ids
    · rw [heq]
      refine h.pool.of_update rfl h.pool.ids (h.pool.bound k huse).1 huse ?_ ?_ ?_
      · show (s.slots k).request ≠ none
        rw [hrequest]
        exact nofun
      · show _ → (s.slots k).thingName ≠ none
        rw [hname]
        exact fun _ => nofun
      · exact fun j hj hused hlocal => hj (h.pool.localIds j k hused huse hlocal)
  · exact fun _ => hc.fresh (.inr ⟨k, hrequest⟩)
  · intro call hcall
    obtain ⟨r, hr⟩ := h.live_call (.inr ⟨answer, htaken⟩) hadd hcall
    refine ⟨⟨r, hr⟩, fun j hj => ?_⟩
    have hholds := hc.holds call hcall
    rw [State.Holds, hr] at hholds
    exact hholds j (hrequests j _ hj).1
  · rintro e' (⟨j, hj, hin⟩ | ⟨answer', htaken'⟩) hadd' he'
    · exact hc.taken e answer htaken hadd rfl j hj e' hin hadd' he'
    · cases htaken'
  · exact fun j l hj hl => hc.single j l (hrequests j _ hj).1 (hrequests l _ hl).1
  · intro j hj
    exact (hrequests j _ hj).2 (hc.single j k (hrequests j _ hj).1 hrequest)

/-- An answer to a removal is only reported. -/
theorem Inv.reported {answer : Answer} (htaken : s.handling = some (e, answer))
    (hkind : e.kind = .remove) : Inv size selfName { s with handling := none } := by
  have hremove : e.isAdd = false := by rw [Entry.isAdd, hkind]
  have hnot : ∀ e' answer', s.handling = some (e', answer') → e'.isAdd ≠ true := by
    intro e' answer' heq
    obtain ⟨rfl, -⟩ := Prod.mk.inj (Option.some.inj (htaken.symm.trans heq))
    rw [hremove]
    decide
  have hlive : ∀ e', e'.isAdd = true → (State.Live size { s with handling := none } e' ↔
      s.Live size e') := by
    intro e' hadd
    refine or_congr Iff.rfl ⟨?_, ?_⟩
    · rintro ⟨_, heq⟩
      cases heq
    · rintro ⟨answer', heq⟩
      exact absurd hadd (hnot e' answer' heq)
  refine ⟨h.pool.of_slots_eq rfl h.pool.ids, fun c => ?_⟩
  have hc := h.calls c
  refine ⟨hc.fresh, hc.holds, ?_, ?_, hc.single, ?_, hc.remove, hc.once, ?_⟩
  · exact fun call hcall hstages e' hl hadd =>
      hc.unregistered call hcall hstages e' ((hlive e' hadd).mp hl) hadd
  · intro e' childSuffix hl hkind'
    exact hc.staged e' childSuffix ((hlive e' (by rw [Entry.isAdd, hkind'])).mp hl) hkind'
  · intro k huse hstate hrequest
    refine (hc.add k huse hstate hrequest).imp_right ?_
    exact fun ⟨e', hl, hadd, he⟩ => ⟨e', (hlive e' hadd).mpr hl, hadd, he⟩
  · exact fun e' answer' heq => nomatch heq

end Answers

end RainMakerNeo.Bridge.Registry
