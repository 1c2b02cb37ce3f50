import Mathlib.Data.Fintype.Basic
import Mathlib.Logic.Function.Basic
import RainMakerNeo.Lib.Run

/-!
# `RainMakerNeo.Lib.LockOrder`: threads that take mutexes

A thread has the list of the mutex operations that it has still to do, each with the call that it
belongs to. What it does between them does not matter here. A mutex that is taken blocks the next
thread that wants it.

Two threads are crossed when each holds the mutex that the other one waits for. None of them goes on
after that. A set of calls is a `kind`. `not_crossed` is about two mutexes where only the calls of
one kind take the second inside the first, and only the calls of another kind the first inside the
second: no run gets to a crossing while a call of the one kind and a call of the other one do not
run into each other. `Keeps` is what the code of a call has to meet for that, and has a rule for
each way in which code is put together.
-/

set_option autoImplicit false

namespace RainMakerNeo.Lib

/-- An operation on a mutex. -/
inductive Op (μ : Type*)
  | take (m : μ)
  | give (m : μ)
  deriving DecidableEq, Repr

/-- The mutex operations of a piece of code, in their order. -/
abbrev Program (μ : Type*) := List (Op μ)

/-- A piece of code between a take and a give. -/
def locked {μ : Type*} (m : μ) (body : Program μ) : Program μ := .take m :: (body ++ [.give m])

/-- Mutex operations, each with the call that does it. -/
abbrev Agenda (κ μ : Type*) := List (κ × Op μ)

/-- The calls one after the other. -/
def agenda {κ μ : Type*} (code : κ → Program μ) (calls : List κ) : Agenda κ μ :=
  calls.flatMap fun c => (code c).map (Prod.mk c)

/-- What each thread has still to do, and who holds each mutex. -/
structure Locks (θ κ μ : Type*) where
  rest : θ → Agenda κ μ
  owner : μ → Option θ

variable {θ κ μ : Type*} [DecidableEq θ] [DecidableEq μ]

/-- A call of the kind takes `inner` before `outer` is given back. -/
def takesInside (kind : κ → Bool) (outer inner : μ) : Agenda κ μ → Bool
  | [] => false
  | (c, .take m) :: p => (kind c && m = inner) || takesInside kind outer inner p
  | (_, .give m) :: p => m ≠ outer && takesInside kind outer inner p

namespace Locks

/-- The next operation of a thread, `none` when it has to wait. -/
def step (s : Locks θ κ μ) (t : θ) : Option (Locks θ κ μ) :=
  match s.rest t with
  | [] => none
  | (_, .take m) :: p =>
    if s.owner m = none then
      some ⟨Function.update s.rest t p, Function.update s.owner m (some t)⟩
    else none
  | (_, .give m) :: p => some ⟨Function.update s.rest t p, Function.update s.owner m none⟩

/-- The thread is about to take the mutex. -/
def WaitsFor (s : Locks θ κ μ) (t : θ) (m : μ) : Prop :=
  (s.rest t).head?.map Prod.snd = some (.take m)

/-- A thread holds `m` and waits for `m'`, and another one holds `m'` and waits for `m`. -/
def Crossed (s : Locks θ κ μ) (m m' : μ) : Prop :=
  ∃ t t', t ≠ t' ∧ (s.owner m = some t ∧ s.WaitsFor t m') ∧ s.owner m' = some t' ∧ s.WaitsFor t' m

/-- The thread holds `outer`, and a call of the kind has still to take `inner` inside it. -/
def Inside (s : Locks θ κ μ) (t : θ) (kind : κ → Bool) (outer inner : μ) : Prop :=
  s.owner outer = some t ∧ takesInside kind outer inner (s.rest t) = true

/-- The thread is about to take `outer`, and a call of the kind will take `inner` inside it. -/
def Enters (s : Locks θ κ μ) (t : θ) (kind : κ → Bool) (outer inner : μ) : Prop :=
  s.WaitsFor t outer ∧ takesInside kind outer inner (s.rest t).tail = true

/-- A call of the kind `a` does not take `m`, to take `m'` inside it, while another thread is in a
call of the kind `b` that holds `m'` and has still to take `m`. The same the other way round. -/
def Careful (a b : κ → Bool) (m m' : μ) (s : Locks θ κ μ) (t : θ) : Prop :=
  ∀ t', t' ≠ t → (s.Enters t a m m' → ¬s.Inside t' b m' m) ∧
    (s.Enters t b m' m → ¬s.Inside t' a m m')

instance (s : Locks θ κ μ) (t : θ) (kind : κ → Bool) (outer inner : μ) :
    Decidable (s.Inside t kind outer inner) :=
  inferInstanceAs (Decidable (_ ∧ _))

instance (s : Locks θ κ μ) (t : θ) (kind : κ → Bool) (outer inner : μ) :
    Decidable (s.Enters t kind outer inner) :=
  inferInstanceAs (Decidable ((s.rest t).head?.map Prod.snd = some (.take outer) ∧ _))

instance [Fintype θ] (a b : κ → Bool) (m m' : μ) (s : Locks θ κ μ) (t : θ) :
    Decidable (s.Careful a b m m' t) :=
  inferInstanceAs (Decidable (∀ _, _ → _))

variable {s s' : Locks θ κ μ} {t u : θ} {kind : κ → Bool} {outer inner : μ}

/-- What a step can do. -/
theorem step_cases (h : s.step t = some s') :
    (∃ c m p, s.rest t = (c, .take m) :: p ∧ s.owner m = none ∧
      s' = ⟨Function.update s.rest t p, Function.update s.owner m (some t)⟩) ∨
    (∃ c m p, s.rest t = (c, .give m) :: p ∧
      s' = ⟨Function.update s.rest t p, Function.update s.owner m none⟩) := by
  rw [step] at h
  split at h
  · cases h
  · next c m p hp =>
    split at h
    · next hfree => exact .inl ⟨c, m, p, hp, hfree, (Option.some.inj h).symm⟩
    · cases h
  · next c m p hp => exact .inr ⟨c, m, p, hp, (Option.some.inj h).symm⟩

/-! ### Threads that take care -/

section Care

/-- Who is inside a mutex after a step was inside it before, or has taken it in the step. -/
theorem Inside.of_step (ht : s.step t = some s') (h : s'.Inside u kind outer inner) :
    s.Inside u kind outer inner ∨ (u = t ∧ s.Enters t kind outer inner) := by
  obtain ⟨howner, htakes⟩ := h
  rcases step_cases ht with ⟨c, x, p, hp, -, rfl⟩ | ⟨c, x, p, hp, rfl⟩
  · change Function.update s.owner x (some t) outer = some u at howner
    change takesInside kind outer inner (Function.update s.rest t p u) = true at htakes
    by_cases hut : u = t
    · subst hut
      rw [Function.update_self] at htakes
      by_cases hx : outer = x
      · subst hx
        exact .inr ⟨rfl, by rw [WaitsFor, hp]; rfl, by rw [hp]; exact htakes⟩
      · rw [Function.update_of_ne hx] at howner
        refine .inl ⟨howner, ?_⟩
        rw [hp, takesInside, htakes, Bool.or_true]
    · rw [Function.update_of_ne hut] at htakes
      by_cases hx : outer = x
      · rw [hx, Function.update_self] at howner
        exact absurd (Option.some.inj howner).symm hut
      · rw [Function.update_of_ne hx] at howner
        exact .inl ⟨howner, htakes⟩
  · change Function.update s.owner x none outer = some u at howner
    change takesInside kind outer inner (Function.update s.rest t p u) = true at htakes
    have hx : outer ≠ x := by
      intro hx
      rw [hx, Function.update_self] at howner
      cases howner
    rw [Function.update_of_ne hx] at howner
    refine .inl ⟨howner, ?_⟩
    by_cases hut : u = t
    · subst hut
      rw [Function.update_self] at htakes
      rw [hp, takesInside, htakes, Bool.and_true, decide_eq_true hx.symm]
    · rwa [Function.update_of_ne hut] at htakes

variable {a b : κ → Bool} {m m' : μ}

/-- No two threads are inside the two mutexes and have each still to take the one of the other. -/
def Apart (a b : κ → Bool) (m m' : μ) (s : Locks θ κ μ) : Prop :=
  ∀ t t', t ≠ t' → s.Inside t a m m' → ¬s.Inside t' b m' m

/-- A careful step keeps the threads apart. -/
theorem Apart.step (h : s.Apart a b m m') (hg : s.Careful a b m m' t) (ht : s.step t = some s') :
    s'.Apart a b m m' := by
  intro u u' hne hin hin'
  rcases hin.of_step ht with hbefore | ⟨rfl, henters⟩
  · rcases hin'.of_step ht with hbefore' | ⟨rfl, henters'⟩
    · exact h u u' hne hbefore hbefore'
    · exact (hg u hne).2 henters' hbefore
  · rcases hin'.of_step ht with hbefore' | ⟨rfl, -⟩
    · exact (hg u' hne.symm).1 henters hbefore'
    · exact hne rfl

end Care

/-! ### Calls with a one-way order -/

section OneWay

/-- A program, begun inside `outer` or not, never takes `inner` inside `outer`, or may do so. -/
def oneWay (may : Bool) (outer inner : μ) : Bool → Program μ → Bool
  | _, [] => true
  | inside, .take m :: p =>
    (may || !(inside && m = inner)) && oneWay may outer inner (inside || m = outer) p
  | inside, .give m :: p => oneWay may outer inner (inside && m ≠ outer) p

/-- Whether the program ends inside `outer`. -/
def endsInside (outer : μ) : Bool → Program μ → Bool
  | inside, [] => inside
  | inside, .take m :: p => endsInside outer (inside || m = outer) p
  | inside, .give m :: p => endsInside outer (inside && m ≠ outer) p

/-- Only calls of the kind take `inner` inside `outer`. -/
def oneWayCalls (kind : κ → Bool) (outer inner : μ) : Bool → Agenda κ μ → Bool
  | _, [] => true
  | inside, (c, .take m) :: p =>
    (kind c || !(inside && m = inner)) && oneWayCalls kind outer inner (inside || m = outer) p
  | inside, (_, .give m) :: p => oneWayCalls kind outer inner (inside && m ≠ outer) p

/-- A piece of code that keeps the order, or may take `inner` inside `outer`, and ends as it
began. -/
def Keeps (may : Bool) (outer inner : μ) (inside : Bool) (p : Program μ) : Prop :=
  oneWay may outer inner inside p = true ∧ endsInside outer inside p = inside

variable {may inside : Bool}

theorem oneWay_append {p q : Program μ} :
    oneWay may outer inner inside (p ++ q) =
      (oneWay may outer inner inside p &&
        oneWay may outer inner (endsInside outer inside p) q) := by
  induction p generalizing inside with
  | nil => rfl
  | cons op p ih =>
    cases op with
    | take m => simp only [List.cons_append, oneWay, endsInside, ih, Bool.and_assoc]
    | give m => simp only [List.cons_append, oneWay, endsInside, ih]

theorem endsInside_append {p q : Program μ} :
    endsInside outer inside (p ++ q) = endsInside outer (endsInside outer inside p) q := by
  induction p generalizing inside with
  | nil => rfl
  | cons op p ih => cases op with
    | take m => simp only [List.cons_append, endsInside, ih]
    | give m => simp only [List.cons_append, endsInside, ih]

/-- The order of the calls is the order of their code. -/
theorem oneWayCalls_append {c : κ} {p : Program μ} {q : Agenda κ μ} :
    oneWayCalls kind outer inner inside (p.map (Prod.mk c) ++ q) =
      (oneWay (kind c) outer inner inside p &&
        oneWayCalls kind outer inner (endsInside outer inside p) q) := by
  induction p generalizing inside with
  | nil => rfl
  | cons op p ih =>
    cases op with
    | take m =>
      simp only [List.map_cons, List.cons_append, oneWayCalls, oneWay, endsInside, ih,
        Bool.and_assoc]
    | give m => simp only [List.map_cons, List.cons_append, oneWayCalls, oneWay, endsInside, ih]

theorem Keeps.nil : Keeps may outer inner inside [] := ⟨rfl, rfl⟩

/-- The pieces of a program keep the order one after the other. -/
theorem Keeps.append {p q : Program μ} (hp : Keeps may outer inner inside p)
    (hq : Keeps may outer inner inside q) : Keeps may outer inner inside (p ++ q) := by
  refine ⟨?_, ?_⟩
  · rw [oneWay_append, hp.1, hp.2, hq.1, Bool.and_self]
  · rw [endsInside_append, hp.2, hq.2]

theorem Keeps.ite {c : Prop} [Decidable c] {p q : Program μ}
    (hp : c → Keeps may outer inner inside p) (hq : ¬c → Keeps may outer inner inside q) :
    Keeps may outer inner inside (if c then p else q) := by
  split
  · next h => exact hp h
  · next h => exact hq h

theorem Keeps.flatMap {ι : Type*} {f : ι → Program μ} {l : List ι}
    (h : ∀ i ∈ l, Keeps may outer inner inside (f i)) :
    Keeps may outer inner inside (l.flatMap f) := by
  induction l with
  | nil => exact .nil
  | cons i l ih =>
    rw [List.flatMap_cons]
    exact (h i (List.mem_cons_self ..)).append (ih fun j hj => h j (List.mem_cons_of_mem _ hj))

variable {body : Program μ} {init : Locks θ κ μ → Prop}

/-- The body of a mutex is begun inside it. -/
theorem Keeps.locked_outer (h : Keeps may outer inner true body) :
    Keeps may outer inner false (locked outer body) := by
  have hway : oneWay may outer inner true (body ++ [.give outer]) = true := by
    rw [oneWay_append, h.1, h.2]
    rfl
  have hend : endsInside outer true (body ++ [.give outer]) = false := by
    rw [endsInside_append, h.2]
    simp [endsInside]
  refine ⟨?_, ?_⟩
  · simp [locked, oneWay, hway]
  · simp [locked, endsInside, hend]

/-- Another mutex changes nothing, where it may be taken. -/
theorem Keeps.locked_of_ne {m : μ} (hm : m ≠ outer)
    (hinner : inside = true → may = true ∨ m ≠ inner) (h : Keeps may outer inner inside body) :
    Keeps may outer inner inside (locked m body) := by
  have hgive : Keeps may outer inner inside [.give m] := by
    refine ⟨rfl, ?_⟩
    rw [endsInside, endsInside, decide_eq_true hm, Bool.and_true]
  have hmay : (may || !(inside && decide (m = inner))) = true := by
    cases inside with
    | false => exact Bool.or_true may
    | true =>
      rcases hinner rfl with hmay | hne
      · rw [hmay, Bool.true_or]
      · rw [decide_eq_false hne]
        exact Bool.or_true may
  obtain ⟨hway, hend⟩ := h.append hgive
  refine ⟨?_, ?_⟩
  · rw [locked, oneWay, hmay, decide_eq_false hm, Bool.or_false, hway, Bool.and_self]
  · rw [locked, endsInside, decide_eq_false hm, Bool.or_false, hend]

/-- Outside `outer` another mutex may always be taken. -/
theorem Keeps.locked_outside {m : μ} (hm : m ≠ outer) (h : Keeps may outer inner false body) :
    Keeps may outer inner false (locked m body) :=
  .locked_of_ne hm (fun hin => by cases hin) h

/-- In what the threads have still to do, only calls of the kind take `inner` inside `outer`. -/
def OneWay (kind : κ → Bool) (outer inner : μ) (s : Locks θ κ μ) : Prop :=
  ∀ t, oneWayCalls kind outer inner (s.owner outer = some t) (s.rest t) = true

/-- The threads keep the order at first, where the code of their calls does. -/
theorem oneWay_of_keeps (code : κ → Program μ) (hfree : s.owner outer = none)
    (h : ∀ t, ∃ calls, s.rest t = agenda code calls ∧
      ∀ c ∈ calls, Keeps (kind c) outer inner false (code c)) : s.OneWay kind outer inner := by
  intro t
  obtain ⟨calls, hrest, hcalls⟩ := h t
  rw [hrest, hfree]
  clear hrest
  induction calls with
  | nil => rfl
  | cons c calls ih =>
    have hc := hcalls c (List.mem_cons_self ..)
    rw [agenda, List.flatMap_cons, oneWayCalls_append, Bool.and_eq_true]
    refine ⟨hc.1, ?_⟩
    have hend : endsInside outer (decide ((none : Option θ) = some t)) (code c) =
        decide ((none : Option θ) = some t) := hc.2
    rw [hend]
    exact ih fun c' hc' => hcalls c' (List.mem_cons_of_mem _ hc')

/-- A thread outside `outer` keeps the order too, if it does so inside. -/
theorem oneWayCalls_of_inside {p : Agenda κ μ} (h : oneWayCalls kind outer inner true p = true) :
    oneWayCalls kind outer inner inside p = true := by
  induction p generalizing inside with
  | nil => rfl
  | cons op p ih =>
    cases inside with
    | true => exact h
    | false =>
      obtain ⟨c, op⟩ := op
      cases op with
      | take m =>
        rw [oneWayCalls, Bool.and_eq_true] at h
        rw [oneWayCalls, Bool.false_and, Bool.not_false, Bool.or_true, Bool.true_and]
        exact ih (by simpa using h.2)
      | give m =>
        rw [oneWayCalls] at h ⊢
        rw [Bool.false_and]
        by_cases hm : m = outer
        · simpa [hm] using h
        · exact ih (by simpa [hm] using h)

/-- Each step keeps the order. -/
theorem OneWay.step (h : s.OneWay kind outer inner) (ht : s.step t = some s') :
    s'.OneWay kind outer inner := by
  intro u
  have hu := h u
  rcases step_cases ht with ⟨c, x, p, hp, hfree, rfl⟩ | ⟨c, x, p, hp, rfl⟩
  · show oneWayCalls kind outer inner (Function.update s.owner x (some t) outer = some u)
      (Function.update s.rest t p u) = true
    by_cases hut : u = t
    · subst hut
      rw [hp, oneWayCalls, Bool.and_eq_true] at hu
      rw [Function.update_self]
      by_cases hx : x = outer
      · simpa [hx] using hu.2
      · rw [Function.update_of_ne (Ne.symm hx)]
        simpa [hx] using hu.2
    · rw [Function.update_of_ne hut]
      by_cases hx : x = outer
      · subst hx
        rw [hfree] at hu
        simpa [Ne.symm hut] using hu
      · rwa [Function.update_of_ne (Ne.symm hx)]
  · show oneWayCalls kind outer inner (Function.update s.owner x none outer = some u)
      (Function.update s.rest t p u) = true
    by_cases hut : u = t
    · subst hut
      rw [hp, oneWayCalls] at hu
      rw [Function.update_self]
      by_cases hx : x = outer
      · simpa [hx] using hu
      · rw [Function.update_of_ne (Ne.symm hx)]
        simpa [hx] using hu
    · rw [Function.update_of_ne hut]
      by_cases hx : x = outer
      · subst hx
        rw [Function.update_self]
        by_cases hin : s.owner x = some u
        · rw [decide_eq_true hin] at hu
          exact oneWayCalls_of_inside hu
        · rw [decide_eq_false hin] at hu
          exact hu
      · rwa [Function.update_of_ne (Ne.symm hx)]

/-- A thread that waits for `inner` inside `outer` is in a call of the kind. -/
theorem OneWay.kind_of_waitsFor (h : s.OneWay kind outer inner) (howner : s.owner outer = some t)
    (hwaits : s.WaitsFor t inner) :
    ∃ c p, s.rest t = (c, .take inner) :: p ∧ kind c = true := by
  obtain ⟨⟨c, op⟩, hhead, hop⟩ := Option.map_eq_some_iff.mp hwaits
  obtain ⟨p, hp⟩ := List.head?_eq_some_iff.mp hhead
  obtain rfl : op = .take inner := hop
  have hway := h t
  rw [hp, decide_eq_true howner, oneWayCalls, Bool.and_eq_true] at hway
  exact ⟨c, p, hp, by simpa using hway.1⟩

/-- The thread that waits is inside, for a call of the kind. -/
theorem OneWay.inside_of_waitsFor (h : s.OneWay kind outer inner) (howner : s.owner outer = some t)
    (hwaits : s.WaitsFor t inner) : s.Inside t kind outer inner := by
  obtain ⟨c, p, hp, hkind⟩ := h.kind_of_waitsFor howner hwaits
  refine ⟨howner, ?_⟩
  rw [hp, takesInside, hkind, decide_eq_true rfl, Bool.and_self, Bool.true_or]

/-- Two kinds of calls take the mutexes in opposite orders. The threads are never crossed while no
two calls of the two kinds run into each other. -/
theorem not_crossed {a b : κ → Bool} {m m' : μ} (hfree : ∀ s, init s → s.owner m = none)
    (hway : ∀ s, init s → s.OneWay a m m') (hway' : ∀ s, init s → s.OneWay b m' m)
    (h : Reach init step (Careful a b m m') s) : ¬s.Crossed m m' := by
  have hstart : ∀ s, init s → s.Apart a b m m' := by
    intro s hs t t' _ hin
    rw [Inside, hfree s hs] at hin
    cases hin.1
  have hapart := h.inv (Apart a b m m') hstart fun _ _ _ hi hg ht => hi.step hg ht
  have hinside := h.inv (OneWay a m m') hway fun _ _ _ hi _ ht => hi.step ht
  have hinside' := h.inv (OneWay b m' m) hway' fun _ _ _ hi _ ht => hi.step ht
  intro ⟨t, t', hne, ⟨howner, hwaits⟩, howner', hwaits'⟩
  exact hapart t t' hne (hinside.inside_of_waitsFor howner hwaits)
    (hinside'.inside_of_waitsFor howner' hwaits')

/-- Where no call takes `inner` inside `outer`, no care is needed. -/
theorem not_crossed_of_oneWay (hinit : ∀ s, init s → s.OneWay (fun _ => false) outer inner)
    {guard : Locks θ κ μ → θ → Prop} (h : Reach init step guard s) : ¬s.Crossed outer inner := by
  intro ⟨t, _, _, ⟨howner, hwaits⟩, _⟩
  have hway := h.inv (OneWay _ outer inner) hinit fun _ _ _ hi _ ht => hi.step ht
  obtain ⟨_, _, _, hkind⟩ := hway.kind_of_waitsFor howner hwaits
  cases hkind

end OneWay

end Locks

end RainMakerNeo.Lib
