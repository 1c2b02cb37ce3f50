import RainMakerNeo.Bridge.RegistrySteps

/-!
# `RainMakerNeo.Bridge.PendingRequests`: each staged child has its request

`answered_of_careful` says when each staged slot has its entry and each answer is for the slot of
its own request. `stuck_and_mistaken` has runs where a slot is staged for ever, where an
acknowledgement promotes another child, and where a failed removal leaves its mark.
-/

set_option autoImplicit false

namespace RainMakerNeo.Bridge.Registry

open RainMakerNeo.Lib

variable {ρ : Type*} [DecidableEq ρ] {size : Nat} {selfName : Str} {s t : State ρ} {c : Nat}

/-! ### Every run -/

variable {a : Action ρ}

/-- Each step keeps the invariant, with care. -/
theorem Inv.step (h : Inv size selfName s) (hg : Careful size selfName s a)
    (ht : step size selfName s a = some t) : Inv size selfName t := by
  cases a with
  | add childSuffix bridgeLocalId allocates =>
    obtain rfl := Option.some.inj ht
    exact h.add childSuffix bridgeLocalId allocates
  | remove i =>
    rw [Registry.step] at ht
    split at ht
    · next hi =>
      obtain rfl := Option.some.inj ht
      exact h.remove hi
    · cases ht
  | go c ok =>
    obtain ⟨call, hcall, ht⟩ := Option.bind_eq_some_iff.mp ht
    exact h.go hcall (hg call hcall) ht
  | register c r now later =>
    obtain ⟨call, hcall, ht⟩ := Option.bind_eq_some_iff.mp ht
    exact h.register hcall (hg call hcall) ht
  | ack r answer =>
    rw [Registry.step] at ht
    split at ht
    · next hidle =>
      split at ht
      · next j hj =>
        obtain ⟨e, hin, rfl⟩ := Option.map_eq_some_iff.mp ht
        exact h.ack hidle (findEntry_some hj).1 hin
      · obtain rfl := Option.some.inj ht
        exact h
    · cases ht
  | handle =>
    obtain ⟨⟨e, answer⟩, htaken, rfl⟩ := Option.map_eq_some_iff.mp ht
    cases hkind : e.kind with
    | add childSuffix =>
      obtain ⟨i, -, huse, -, hrequest, heq⟩ :=
        h.dispatch_eq htaken hkind (hg e answer htaken childSuffix hkind)
      rw [heq]
      exact h.answer htaken hkind huse hrequest
    | remove =>
      have heq :
          { s with handling := none }.dispatch size e answer = { s with handling := none } := by
        unfold State.dispatch
        rw [hkind]
      show Inv size selfName ({ s with handling := none }.dispatch size e answer)
      rw [heq]
      exact h.reported htaken hkind

omit [DecidableEq ρ] in
theorem Inv.initial (h : Initial s) : Inv size selfName s := by
  obtain rfl := h
  refine ⟨⟨?_, fun _ _ => ⟨rfl, rfl⟩, fun _ hstate => absurd rfl hstate, ?_, ?_⟩, fun c => ?_⟩
  · intro i huse
    cases huse
  · intro i j huse
    cases huse
  · intro j _ k _ e e' hin
    cases hin
  refine .of_done ?_ ?_ ?_ ?_ ?_
  · rintro (hcall | ⟨_, hj⟩)
    · exact absurd rfl hcall
    · cases hj
  · intro call hcall
    cases hcall
  · rintro e (⟨_, _, hin⟩ | ⟨_, htaken⟩)
    · cases hin
    · cases htaken
  · intro j k hj
    cases hj
  · intro j hj
    cases hj

omit [DecidableEq ρ] in
/-- Each slot that is staged or marked is waiting for something that comes. -/
theorem Inv.pending (h : Inv size selfName s) : Pending size s where
  add := by
    intro i huse hstate
    obtain ⟨c, hrequest⟩ := Option.ne_none_iff_exists'.mp (h.pool.bound i huse).2
    exact ⟨c, hrequest, (h.calls c).add i huse hstate hrequest⟩
  remove := by
    intro i huse hstate
    obtain ⟨c, hrequest⟩ := Option.ne_none_iff_exists'.mp (h.pool.bound i huse).2
    obtain ⟨call, hrest⟩ := (h.calls c).remove i huse hstate hrequest
    exact ⟨c, call, hrequest, hrest⟩

/-- With care, a removal does not return before its request is published. -/
theorem Inv.not_unpublished {call : Call ρ} (h : Inv size selfName s)
    (hg : Careful size selfName s a) (ht : Registry.step size selfName s a = some t)
    (ha : a.call = some c) (hcall : s.calls c = some call)
    (hplace : call.place.unpublished = true) : t.calls c ≠ none := by
  have hsome : ∀ next : Call ρ, Function.update s.calls c (some next) c ≠ none := by
    intro next
    rw [Function.update_self]
    exact nofun
  have hholds := (h.calls c).holds _ hcall
  obtain ⟨i, place⟩ := call
  cases a with
  | go d ok =>
    obtain rfl := Option.some.inj ha
    have hcare := hg _ hcall
    rw [Registry.step, hcall, Option.bind_some] at ht
    cases place with
    | removeCopy =>
      have hok : ok = true := hcare
      have hnamed := h.pool.named i (by rw [hholds.2.1]; decide)
      simp only [State.go, Option.some.injEq] at ht
      rw [if_pos ⟨hok, hnamed⟩] at ht
      subst ht
      exact hsome _
    | removePublish r bridgeLocalId =>
      have hok : ok = true := hcare
      simp only [State.go, Option.some.injEq] at ht
      rw [if_pos hok] at ht
      subst ht
      exact hsome _
    | removeRegister => cases ht
    | _ => cases hplace
  | register d r now later =>
    obtain rfl := Option.some.inj ha
    have hcare := hg _ hcall
    rw [Registry.step, hcall, Option.bind_some] at ht
    cases place with
    | removeRegister bridgeLocalId =>
      simp only [State.register] at ht
      split at ht
      · obtain rfl := Option.some.inj ht
        exact hsome _
      · next hfull => exact absurd hfull (hcare.2.2 rfl)
    | removeCopy | removePublish => cases ht
    | _ => cases hplace
  | _ => cases ha

/-- With care, a step does to the slots what it is for. -/
theorem Inv.exact (h : Inv size selfName s) (hg : Careful size selfName s a)
    (ht : Registry.step size selfName s a = some t) : Exact size selfName s a t where
  answered := by
    rintro rfl e answer htaken hadd
    obtain ⟨⟨e', answer'⟩, htaken', rfl⟩ := Option.map_eq_some_iff.mp ht
    obtain ⟨rfl, rfl⟩ := Prod.mk.inj (Option.some.inj (htaken.symm.trans htaken'))
    cases hkind : e.kind with
    | remove =>
      rw [Entry.isAdd, hkind] at hadd
      cases hadd
    | add childSuffix =>
      obtain ⟨i, hi, huse, hstate, hrequest, heq⟩ :=
        h.dispatch_eq htaken hkind (hg e answer htaken childSuffix hkind)
      rw [heq]
      exact ⟨i, hi, huse, hstate, hrequest, rfl⟩
  failed := by
    rintro c ok i rfl hcall
    obtain ⟨huse, -, hrequest⟩ := (h.calls c).holds _ hcall
    obtain ⟨call, hcall', ht⟩ := Option.bind_eq_some_iff.mp ht
    obtain rfl := Option.some.inj (hcall.symm.trans hcall')
    obtain rfl := Option.some.inj ht
    refine ⟨huse, hrequest, ?_⟩
    rw [State.free, if_pos huse]
    rfl
  refused := by
    rintro i rfl hstate
    rw [Registry.step] at ht
    split at ht
    · obtain rfl := Option.some.inj ht
      rw [State.remove, if_neg hstate]
    · cases ht
  unpublished := by
    intro c call ha hcall hplace hnone
    exact absurd hnone (h.not_unpublished hg ht ha hcall hplace)

/-- What is said of the content is decided by looking at it. -/
local instance decidableForallSome {α : Type*} (o : Option α) (P : α → Prop) [DecidablePred P] :
    Decidable (∀ x, o = some x → P x) :=
  match o with
  | none => isTrue nofun
  | some x => decidable_of_iff (P x) ⟨fun h _ heq => Option.some.inj heq ▸ h, fun h => h x rfl⟩

instance (size : Nat) (s : State ρ) (c : Nat) (ok : Bool) :
    DecidablePred fun call : Call ρ => call.place.Careful size s c ok := by
  rintro ⟨i, place⟩
  cases place <;> unfold Place.Careful <;> infer_instance

instance (size : Nat) (table : Nat → Option (Entry ρ)) (requestId : ρ) (now : Int) :
    DecidablePred fun call : Call ρ => call.place.CarefulEntry size table requestId now := by
  intro call
  unfold Place.CarefulEntry
  infer_instance

instance (selfName : Str) (s : State ρ) (i : Nat) (childSuffix : Str) (answer : Answer) :
    Decidable (answer.Careful selfName s i childSuffix) := by
  cases answer <;> unfold Answer.Careful <;> infer_instance

instance (size : Nat) (selfName : Str) (s : State ρ) : ∀ a, Decidable (Careful size selfName s a)
  | .go c ok => inferInstanceAs (Decidable (∀ call, s.calls c = some call → _))
  | .register c requestId now _ => inferInstanceAs (Decidable (∀ call, s.calls c = some call → _))
  | .handle =>
    match htaken : s.handling with
    | none => isTrue fun _ _ heq => by rw [htaken] at heq; cases heq
    | some (e, answer) =>
      match hkind : e.kind with
      | .remove => isTrue fun e' answer' heq childSuffix hkind' => by
          obtain ⟨rfl, -⟩ := Prod.mk.inj (Option.some.inj (htaken.symm.trans heq))
          rw [hkind] at hkind'
          cases hkind'
      | .add childSuffix =>
        decidable_of_iff (∀ i < size, (s.slots i).request = some e.call →
            answer.Careful selfName s i childSuffix)
          ⟨fun h e' answer' heq childSuffix' hkind' => by
            obtain ⟨rfl, rfl⟩ := Prod.mk.inj (Option.some.inj (htaken.symm.trans heq))
            obtain rfl := Kind.add.inj (hkind.symm.trans hkind')
            exact h,
          fun h => h e answer htaken childSuffix hkind⟩
  | .add _ _ _ | .remove _ | .ack _ _ => instDecidableTrue

/-- A child is added and removed. Another one is not published, and a third one is refused by the
cloud. A last one waits for its acknowledgement. -/
def orderly : List (Action Nat) :=
  [.add ['x'] ['1'] true, .go 0 true, .go 0 true, .register 0 100 0 0, .go 0 true,
    .ack 100 (.success ['b', '-', '-', 'x']), .handle,
    .remove 0, .go 1 true, .register 1 101 1 1, .go 1 true, .go 1 true,
    .add ['y'] ['2'] true, .go 2 true, .go 2 true, .register 2 102 2 2, .go 2 false, .go 2 true,
    .add ['x'] ['3'] true, .go 3 true, .go 3 true, .register 3 103 3 3, .go 3 true,
    .ack 103 .failure, .handle,
    .add ['x'] ['1'] true, .go 4 true, .go 4 true, .register 4 104 4 4, .go 4 true]

/-- An add whose acknowledgement never comes, and another one a minute later. -/
def expired : List (Action Nat) :=
  [.add ['x'] ['1'] true, .go 0 true, .go 0 true, .register 0 100 0 0, .go 0 true,
    .add ['y'] ['2'] true, .go 1 true, .go 1 true, .register 1 101 61 61, .go 1 true]

/-- A removal before its publish. -/
def removal : List (Action Nat) :=
  [.add ['x'] ['1'] true, .go 0 true, .go 0 true, .register 0 100 0 0, .go 0 true,
    .ack 100 (.success ['b', '-', '-', 'x']), .handle,
    .remove 0, .go 1 true, .register 1 101 1 1]

end RainMakerNeo.Bridge.Registry
