import Mathlib.Data.List.Perm.Subperm
import RainMakerNeo.Lib.FreeList
import RainMakerNeo.Ota.StatusList
import RainMakerNeo.Ota.StatusSteps

/-!
# `RainMakerNeo.Ota.StatusListSteps`: the list in memory is the cache as a value

`Shows base s c` says that the links in the memory `s` show the cache `c` of `StatusManager`: they
visit its entries in order, the tail pointer is the last of them, and each block has the fields of
its entry. `base` is the number of blocks that there were at the initialization, so the entry `e` is
at the address `base + e.ptr`.

Each function on the list ends, follows live entries only, and shows what the function of the same
name in `StatusManager` makes of the cache (`Agrees` where it has a result).
-/

set_option autoImplicit false

namespace RainMakerNeo.Ota.Status

open RainMakerNeo.Lib

/-- A failure to get an entry has the code of a failure. -/
theorem Cache.getOrCreate_ne_ok (c : Cache) (jobId : CStr) (allocated : Bool) :
    c.getOrCreate jobId allocated ≠ .error .ok := by
  rw [Cache.getOrCreate]
  split
  · split
    · simp
    · cases allocated <;> simp
  · simp

/-- The cache after the send that a response asks for. -/
def ResponseResult.resent (r : ResponseResult) (sendEnv : StatusEnv) : Cache :=
  match r.resend with
  | none => r.cache
  | some u => (r.cache.otaStatusSend u sendEnv).cache

/-- The sections of the retry task, one after the other, on an entry whose timer is off. -/
def Cache.retrySections (c : Cache) (e : JobEntries) (env : StatusEnv) : Cache :=
  if e.hasCachedTerminal then
    let c := c.update e.ptr JobEntries.retried
    let c := if publishUpdate e.version env.published = .ok then c
      else (c.overwriteVersion e.jobId e.version env.entryAllocated).2
    (c.scheduleOrResetRetry e.ptr e.nextDelay env.scheduled).2
  else c

theorem Cache.has_of_mem {c : Cache} {e : JobEntries} (he : e ∈ c.entries) :
    c.Has (e.ptr, none) := ⟨e, he, rfl, by simp⟩

namespace StatusList

/-! ### What the memory shows -/

/-- The link of the entry at an address. -/
def next (s : StatusList) (p : Nat) : Option Nat := (s.nodes.load p).bind EntryNode.next

/-- The addresses of the entries. -/
def addresses (base : Nat) (es : List JobEntries) : List Nat := es.map fun e => base + e.ptr

/-- The blocks of the entries. -/
def Holds (base : Nat) (s : StatusList) (es : List JobEntries) : Prop :=
  ∀ e ∈ es, ∃ n, s.nodes.load (base + e.ptr) = some n ∧ n.entry e.ptr = e

/-- The links in memory visit these entries, and the tail pointer is the last of them. -/
structure Chained (base : Nat) (s : StatusList) (es : List JobEntries) : Prop where
  linked : Linked s.next s.head (addresses base es)
  tail : s.tail = (addresses base es).getLast?
  holds : Holds base s es

/-- The memory shows the cache. -/
structure Shows (base : Nat) (s : StatusList) (c : Cache) : Prop where
  present : s.present = true
  chained : s.Chained base c.entries
  room : s.nodes.blocks.length = base + c.nextPtr
  nextJobIdInt : s.nextJobIdInt = c.nextJobIdInt
  count : s.count = c.count

/-- A function on the list ends with the result of the function on the cache, and shows what that
makes of the cache. -/
def Agrees (base : Nat) (r : Option (EspError × StatusList)) (q : EspError × Cache) : Prop :=
  ∃ s, r = some (q.1, s) ∧ s.Shows base q.2

variable {base : Nat} {s t : StatusList} {es : List JobEntries} {c : Cache} {e : JobEntries}
  {p : Nat} {n : EntryNode}

/-- The list after the initialization is empty. -/
theorem shows_initial (nodes : Heap EntryNode) :
    Shows nodes.blocks.length { nodes, present := true } {} where
  present := rfl
  chained := ⟨rfl, rfl, fun _ he => absurd he List.not_mem_nil⟩
  room := rfl
  nextJobIdInt := rfl
  count := rfl

theorem next_eq (hn : s.nodes.load p = some n) : s.next p = n.next := by
  rw [next, hn, Option.bind_some]

@[simp] theorem addresses_append (es es' : List JobEntries) :
    addresses base (es ++ es') = addresses base es ++ addresses base es' := List.map_append

@[simp] theorem addresses_cons :
    addresses base (e :: es) = (base + e.ptr) :: addresses base es := rfl

theorem getLast?_addresses_concat :
    (addresses base (es ++ [e])).getLast? = some (base + e.ptr) := by
  rw [addresses_append]
  exact List.getLast?_concat

@[simp] theorem length_addresses : (addresses base es).length = es.length :=
  List.length_map fun e : JobEntries => base + e.ptr

theorem mem_addresses (he : e ∈ es) : base + e.ptr ∈ addresses base es :=
  List.mem_map_of_mem (f := fun e => base + e.ptr) he

theorem exists_of_mem_addresses (hp : p ∈ addresses base es) : ∃ e ∈ es, base + e.ptr = p :=
  List.mem_map.mp hp

variable {head : Option Nat} {steps : Nat}

/-- The links of other blocks do not matter. -/
theorem linked_of_load (h : Linked s.next head (addresses base es))
    (hload : ∀ e ∈ es, t.nodes.load (base + e.ptr) = s.nodes.load (base + e.ptr)) :
    Linked t.next head (addresses base es) := by
  apply h.congr
  intro q hq
  obtain ⟨e, he, rfl⟩ := exists_of_mem_addresses hq
  rw [next, next, hload e he]

theorem Holds.of_load (h : Holds base s es)
    (hload : ∀ e ∈ es, t.nodes.load (base + e.ptr) = s.nodes.load (base + e.ptr)) :
    Holds base t es := by
  intro e he
  rw [hload e he]
  exact h e he

/-! ### Writes -/

theorem write_eq (f : EntryNode → EntryNode) (hn : s.nodes.load p = some n) :
    ∃ nodes, s.nodes.store p (f n) = some nodes ∧ s.write p f = some { s with nodes } := by
  obtain ⟨nodes, hstore⟩ := Heap.exists_store (b := f n) (Heap.live_of_load hn)
  refine ⟨nodes, hstore, ?_⟩
  simp [write, hn, hstore]

variable {f : EntryNode → EntryNode}

/-- A write changes nothing but the memory. -/
theorem eq_of_write (h : s.write p f = some t) :
    ∃ n nodes, s.nodes.load p = some n ∧ s.nodes.store p (f n) = some nodes ∧
      t = { s with nodes } := by
  cases hn : s.nodes.load p with
  | none => simp [write, hn] at h
  | some n =>
    obtain ⟨nodes, hstore, hwrite⟩ := write_eq f hn
    rw [hwrite] at h
    exact ⟨n, nodes, rfl, hstore, (Option.some.inj h).symm⟩

/-- The last element of a list without one of its elements: the one before, if it was the last. -/
theorem getLast?_unlink {front back : List Nat} (hp : p ∉ back) :
    (if (front ++ p :: back).getLast? = some p then front.getLast?
      else (front ++ p :: back).getLast?) = (front ++ back).getLast? := by
  cases back with
  | nil => simp
  | cons q back =>
    have hlast : (q :: back).getLast? ≠ some p := fun h => hp (List.mem_of_getLast? h)
    simp only [List.getLast?_append_cons, List.getLast?_cons_cons]
    rw [if_neg hlast]

theorem live_write (h : s.write p f = some t) {q : Nat} (hq : s.nodes.Live q) : t.nodes.Live q := by
  obtain ⟨n, nodes, -, hstore, rfl⟩ := eq_of_write h
  exact hq.store hstore

/-- The list without an entry, whose block is free. -/
structure Unlinked (base : Nat) (s : StatusList) (e : JobEntries) (rest : List JobEntries)
    (t : StatusList) : Prop where
  room : t.nodes.blocks.length = s.nodes.blocks.length
  chained : Chained base t rest
  present : t.present = s.present
  nextJobIdInt : t.nextJobIdInt = s.nextJobIdInt
  count : t.count = if e.hasCachedTerminal then s.count - 1 else s.count

/-- The counter of an unlink stops at zero by itself. -/
theorem unlinked_count (hentry : n.entry e.ptr = e) (count : Nat) :
    (if n.hasCachedTerminal && decide (0 < count) then count - 1 else count) =
      if e.hasCachedTerminal then count - 1 else count := by
  have hcached : n.hasCachedTerminal = e.hasCachedTerminal := by rw [← hentry]; rfl
  rw [hcached]
  cases e.hasCachedTerminal <;> by_cases hzero : 0 < count <;> simp [hzero]
  omega

namespace Chained

theorem nodup (h : Chained base s es) : (addresses base es).Nodup := h.linked.nodup

theorem ptrs (h : Chained base s es) : (es.map JobEntries.ptr).Nodup := by
  have hnodup := h.nodup
  rw [addresses, show (fun e : JobEntries => base + e.ptr) = (base + ·) ∘ JobEntries.ptr from rfl,
    ← List.map_map] at hnodup
  exact hnodup.of_map _

/-- A loop over the list makes at most as many steps as there are blocks. -/
theorem length_le (h : Chained base s es) : es.length ≤ s.nodes.blocks.length := by
  have hsub : addresses base es ⊆ List.range s.nodes.blocks.length := by
    intro p hp
    obtain ⟨e, he, rfl⟩ := exists_of_mem_addresses hp
    obtain ⟨n, hn, -⟩ := h.holds e he
    exact List.mem_range.mpr (Heap.lt_of_load hn)
  have hle := (List.Nodup.subperm h.nodup hsub).length_le
  rwa [length_addresses, List.length_range] at hle

/-- The entries are live blocks. -/
theorem live (h : Chained base s es) (hp : p ∈ addresses base es) : s.nodes.Live p := by
  obtain ⟨e, he, rfl⟩ := exists_of_mem_addresses hp
  obtain ⟨n, hn, -⟩ := h.holds e he
  exact Heap.live_of_load hn

/-- What happens to other blocks does not matter. -/
theorem of_load (h : Chained base s es) (hhead : t.head = s.head) (htail : t.tail = s.tail)
    (hload : ∀ e ∈ es, t.nodes.load (base + e.ptr) = s.nodes.load (base + e.ptr)) :
    Chained base t es := by
  refine ⟨?_, htail.trans h.tail, h.holds.of_load hload⟩
  rw [hhead]
  exact linked_of_load h.linked hload

/-- A write that keeps the link is a write to one entry. -/
theorem write (h : Chained base s es) (he : e ∈ es) {f : EntryNode → EntryNode}
    {g : JobEntries → JobEntries} (hf : ∀ n p, (f n).entry p = g (n.entry p))
    (hnext : ∀ n, (f n).next = n.next) (hg : ∀ e, (g e).ptr = e.ptr) :
    ∃ nodes, s.write (base + e.ptr) f = some { s with nodes } ∧
      nodes.blocks.length = s.nodes.blocks.length ∧
      Chained base { s with nodes } (modifyKey JobEntries.ptr e.ptr g es) := by
  obtain ⟨n, hn, -⟩ := h.holds e he
  obtain ⟨nodes, hstore, hwrite⟩ := write_eq f hn
  have haddr : addresses base (modifyKey JobEntries.ptr e.ptr g es) = addresses base es :=
    map_modifyKey _ fun e => by rw [hg]
  refine ⟨nodes, hwrite, Heap.length_store hstore, ?_, ?_, ?_⟩
  · rw [haddr]
    apply h.linked.congr
    intro q _
    by_cases hq : q = base + e.ptr
    · rw [hq, next_eq hn, next_eq (Heap.load_store_self hstore), hnext]
    · rw [next, next, Heap.load_store_of_ne hstore hq]
  · rw [haddr]
    exact h.tail
  · intro e' he'
    obtain ⟨x, hx, rfl⟩ := mem_modifyKey.mp he'
    obtain ⟨m, hm, hentry⟩ := h.holds x hx
    split
    · rename_i hptr
      rw [hptr, hn] at hm
      obtain rfl := Option.some.inj hm
      refine ⟨f n, ?_, ?_⟩
      · rw [hg, hptr]
        exact Heap.load_store_self hstore
      · rw [hg, hf, hentry]
    · rename_i hptr
      refine ⟨m, ?_, hentry⟩
      rw [Heap.load_store_of_ne hstore fun heq => hptr (Nat.add_left_cancel heq)]
      exact hm

variable {back : List JobEntries}

variable {front : List JobEntries}

/-- The link of one entry is written, and the list goes on elsewhere from there. -/
theorem redirect {rest : List JobEntries} (h : Chained base s (front ++ e :: back))
    (link : Option Nat) (ht : t.head = s.head)
    (hwrite : ∀ n, s.nodes.load (base + e.ptr) = some n →
      t.nodes.load (base + e.ptr) = some { n with next := link })
    (hload : ∀ x ∈ front, t.nodes.load (base + x.ptr) = s.nodes.load (base + x.ptr))
    (hlinked : Linked t.next link (addresses base rest)) (hholds : Holds base t rest)
    (htail : t.tail = (addresses base (e :: rest)).getLast?) :
    Chained base t (front ++ e :: rest) := by
  obtain ⟨n, hn, hentry⟩ := h.holds e (List.mem_append_right _ List.mem_cons_self)
  have hlink := next_eq (hwrite n hn)
  refine ⟨?_, ?_, ?_⟩
  · have hfrom := h.linked
    rw [addresses_append, addresses_cons] at hfrom ⊢
    rw [ht]
    apply hfrom.redirect
    · intro q hq
      obtain ⟨x, hx, rfl⟩ := exists_of_mem_addresses hq
      rw [next, next, hload x hx]
    · rw [hlink]
      exact hlinked
  · rw [htail, addresses_append, addresses_cons, List.getLast?_append_cons]
  · intro x hx
    rcases List.mem_append.mp hx with hx | hx
    · rw [hload x hx]
      exact h.holds x (List.mem_append_left _ hx)
    · rcases List.mem_cons.mp hx with rfl | hx
      · exact ⟨_, hwrite n hn, hentry⟩
      · exact hholds x hx

/-- The other entries are elsewhere. -/
theorem ne (h : Chained base s (front ++ e :: back)) (x : JobEntries) (hx : x ∈ front ++ back) :
    base + x.ptr ≠ base + e.ptr := by
  have hnodup := h.nodup
  rw [addresses_append, addresses_cons, List.nodup_middle, List.nodup_cons] at hnodup
  intro heq
  apply hnodup.1
  rw [← heq, ← addresses_append]
  exact mem_addresses hx

/-- A live entry outside the list, whose link ends, comes behind the last one. -/
theorem append (h : Chained base s es) (hn : s.nodes.load (base + e.ptr) = some n)
    (hentry : n.entry e.ptr = e) (hend : n.next = none)
    (hnew : base + e.ptr ∉ addresses base es) :
    ∃ nodes head, s.append (base + e.ptr) =
        some { s with nodes, head, tail := some (base + e.ptr) } ∧
      nodes.blocks.length = s.nodes.blocks.length ∧
      Chained base { s with nodes, head, tail := some (base + e.ptr) } (es ++ [e]) := by
  rcases List.eq_nil_or_concat es with rfl | ⟨front, last, rfl⟩
  · have hhead : s.head = none := h.linked
    refine ⟨s.nodes, some (base + e.ptr), ?_, rfl, ?_, rfl, ?_⟩
    · rw [StatusList.append, hhead]
      rfl
    · refine ⟨rfl, ?_⟩
      show s.next (base + e.ptr) = none
      rw [next_eq hn, hend]
    · intro x hx
      obtain rfl := List.mem_singleton.mp hx
      exact ⟨n, hn, hentry⟩
  · rw [List.concat_eq_append] at h hnew ⊢
    obtain ⟨m, hm, -⟩ := h.holds last (List.mem_append_right _ List.mem_cons_self)
    obtain ⟨nodes, hstore, hwrite⟩ := write_eq
      (fun n => { n with next := some (base + e.ptr) }) hm
    have hne (x : JobEntries) (hx : x ∈ front) : base + x.ptr ≠ base + last.ptr :=
      h.ne x (List.mem_append_left _ hx)
    have hout : base + e.ptr ≠ base + last.ptr := by
      intro heq
      rw [heq] at hnew
      exact hnew (mem_addresses (List.mem_append_right _ List.mem_cons_self))
    have hself : nodes.load (base + e.ptr) = some n := by
      rw [Heap.load_store_of_ne hstore hout, hn]
    refine ⟨nodes, s.head, ?_, Heap.length_store hstore, ?_⟩
    · have htail : s.tail = some (base + last.ptr) := by
        rw [h.tail, getLast?_addresses_concat]
      rw [StatusList.append]
      cases hhead : s.head with
      | none =>
        have hlinked := h.linked
        rw [hhead] at hlinked
        simpa using hlinked.of_none
      | some first =>
        simp only [htail, Option.bind_eq_bind, Option.bind_some, hwrite, hhead]
        rfl
    · rw [List.append_assoc]
      refine h.redirect (some (base + e.ptr)) rfl ?_ ?_ ⟨rfl, ?_⟩ ?_ rfl
      · intro n' hn'
        rw [hm] at hn'
        obtain rfl := Option.some.inj hn'
        exact Heap.load_store_self hstore
      · exact fun x hx => Heap.load_store_of_ne hstore (hne x hx)
      · rw [next_eq hself]
        exact hend
      · intro x hx
        obtain rfl := List.mem_singleton.mp hx
        exact ⟨n, hself, hentry⟩

/-- A block outside the list is freed. -/
theorem free (h : Chained base s es) (hp : s.nodes.Live p) (hout : p ∉ addresses base es) :
    ∃ nodes, s.nodes.free p = some nodes ∧ nodes.blocks.length = s.nodes.blocks.length ∧
      Chained base { s with nodes } es := by
  obtain ⟨nodes, hfree⟩ := Heap.exists_free hp
  refine ⟨nodes, hfree, Heap.length_free hfree, h.of_load rfl rfl ?_⟩
  intro e he
  apply Heap.load_free_of_ne hfree
  rintro rfl
  exact hout (mem_addresses he)

/-- The list goes on behind each entry. -/
theorem behind (h : Chained base s (front ++ e :: back))
    (hn : s.nodes.load (base + e.ptr) = some n) : Linked s.next n.next (addresses base back) := by
  have hlinked := h.linked
  rw [addresses_append, addresses_cons] at hlinked
  rw [← next_eq hn]
  exact hlinked.behind

/-- An unlink moves the tail pointer back where the entry is the last. -/
theorem unlinked_tail (h : Chained base s (front ++ e :: back)) :
    (if s.tail = some (base + e.ptr) then (addresses base front).getLast? else s.tail) =
      (addresses base (front ++ back)).getLast? := by
  rw [h.tail, addresses_append, addresses_append, addresses_cons]
  apply getLast?_unlink
  intro hmem
  obtain ⟨x, hx, heq⟩ := exists_of_mem_addresses hmem
  exact h.ne x (List.mem_append_right _ hx) heq

/-- The first entry is unlinked from the head. -/
theorem unlink_first (h : Chained base s (e :: back)) :
    ∃ t, s.unlink none (base + e.ptr) = some t ∧ Unlinked base s e back t := by
  obtain ⟨n, hn, hentry⟩ := h.holds e List.mem_cons_self
  have hpassed : Chained base { s with
      head := n.next
      tail := if s.tail = some (base + e.ptr) then none else s.tail
      count := if n.hasCachedTerminal && decide (0 < s.count) then s.count - 1 else s.count }
      back := by
    have hfront : Chained base s ([] ++ e :: back) := h
    refine ⟨hfront.behind hn, ?_, ?_⟩
    · exact hfront.unlinked_tail
    · exact fun x hx => h.holds x (List.mem_cons_of_mem e hx)
  have hout : base + e.ptr ∉ addresses base back := (List.nodup_cons.mp h.nodup).1
  obtain ⟨nodes, hfree, hlen, hchained⟩ := hpassed.free (Heap.live_of_load hn) hout
  refine ⟨_, ?_, hlen, hchained, rfl, rfl, unlinked_count hentry s.count⟩
  rw [StatusList.unlink, hn]
  show (s.nodes.free (base + e.ptr)).bind _ = _
  rw [hfree]
  rfl

/-- Any other entry is unlinked from the one before. -/
theorem unlink_behind {j : JobEntries} (h : Chained base s (front ++ j :: e :: back)) :
    ∃ t, s.unlink (some (base + j.ptr)) (base + e.ptr) = some t ∧
      Unlinked base s e (front ++ j :: back) t := by
  have h' : Chained base s ((front ++ [j]) ++ e :: back) := by
    rw [List.append_assoc]
    exact h
  obtain ⟨m, hm, -⟩ := h.holds j (List.mem_append_right _ List.mem_cons_self)
  obtain ⟨n, hn, hentry⟩ := h'.holds e (List.mem_append_right _ List.mem_cons_self)
  obtain ⟨nodes, hstore, hwrite⟩ := write_eq (fun m => { m with next := n.next }) hm
  have hne : base + e.ptr ≠ base + j.ptr := h.ne e (by simp)
  have hload (x : JobEntries) (hx : x ∈ front ++ back) :
      nodes.load (base + x.ptr) = s.nodes.load (base + x.ptr) := by
    apply Heap.load_store_of_ne hstore
    apply h.ne
    rcases List.mem_append.mp hx with hx | hx <;> simp [hx]
  have hpassed : Chained base { s with
      nodes := nodes
      tail := if s.tail = some (base + e.ptr) then some (base + j.ptr) else s.tail
      count := if n.hasCachedTerminal && decide (0 < s.count) then s.count - 1 else s.count }
      (front ++ j :: back) := by
    have hrest (x : JobEntries) (hx : x ∈ back) := hload x (List.mem_append_right _ hx)
    refine h.redirect n.next rfl ?_ ?_ ?_ ?_ ?_
    · intro n' hn'
      rw [hm] at hn'
      obtain rfl := Option.some.inj hn'
      exact Heap.load_store_self hstore
    · exact fun x hx => hload x (List.mem_append_left _ hx)
    · exact linked_of_load (h'.behind hn) hrest
    · refine Holds.of_load (s := s) ?_ hrest
      exact fun x hx => h'.holds x (List.mem_append_right _ (List.mem_cons_of_mem e hx))
    · have htail := h'.unlinked_tail
      rw [getLast?_addresses_concat, List.append_assoc] at htail
      refine htail.trans ?_
      rw [addresses_append]
      exact List.getLast?_append_cons _ _ _
  have hlive : nodes.Live (base + e.ptr) := (Heap.live_of_load hn).store hstore
  have hout : base + e.ptr ∉ addresses base (front ++ j :: back) := by
    intro hmem
    obtain ⟨x, hx, heq⟩ := exists_of_mem_addresses hmem
    exact h'.ne x (by simpa using hx) heq
  obtain ⟨nodes', hfree, hlen, hchained⟩ := hpassed.free hlive hout
  refine ⟨_, ?_, hlen.trans (Heap.length_store hstore), hchained, rfl, rfl,
    unlinked_count hentry s.count⟩
  rw [StatusList.unlink, hn]
  show (s.write (base + j.ptr) _).bind _ = _
  rw [hwrite]
  show (nodes.free (base + e.ptr)).bind _ = _
  rw [hfree]
  rfl

/-- The entry before the one that goes is linked to the one behind it. -/
theorem unlink (h : Chained base s (front ++ e :: back)) :
    ∃ t, s.unlink (addresses base front).getLast? (base + e.ptr) = some t ∧
      Unlinked base s e (front ++ back) t := by
  rcases List.eq_nil_or_concat front with rfl | ⟨front, j, rfl⟩
  · exact h.unlink_first
  · rw [List.concat_eq_append, List.append_assoc] at h
    rw [List.concat_eq_append, List.append_assoc, getLast?_addresses_concat]
    exact unlink_behind h

end Chained

namespace Shows

variable {f : EntryNode → EntryNode}

/-- A write that keeps the link is a write to the entry of the cache. -/
theorem write (h : Shows base s c) {ptr : Nat} (hp : c.Has (ptr, none))
    (g : JobEntries → JobEntries) (hf : ∀ n p, (f n).entry p = g (n.entry p))
    (hnext : ∀ n, (f n).next = n.next) (hg : ∀ e, (g e).ptr = e.ptr) :
    ∃ s', s.write (base + ptr) f = some s' ∧ Shows base s' (c.update ptr g) := by
  obtain ⟨e, he, rfl, -⟩ := hp
  obtain ⟨nodes, hwrite, hlen, hchained⟩ := h.chained.write he hf hnext hg
  exact ⟨_, hwrite, h.present, hchained, hlen.trans h.room, h.nextJobIdInt, h.count⟩

/-- An entry of the cache is read as it is. -/
theorem load (h : Shows base s c) (he : e ∈ c.entries) :
    ∃ n, s.nodes.load (base + e.ptr) = some n ∧ n.entry e.ptr = e := h.chained.holds e he

/-- A write to a block outside the list changes nothing in it. -/
theorem write_outside (h : Shows base s c) (hp : p ∉ addresses base c.entries)
    (ht : s.write p f = some t) : Shows base t c := by
  obtain ⟨n, nodes, -, hstore, rfl⟩ := eq_of_write ht
  refine ⟨h.present, h.chained.of_load rfl rfl ?_, ?_, h.nextJobIdInt, h.count⟩
  · intro e he
    apply Heap.load_store_of_ne hstore
    rintro rfl
    exact hp (mem_addresses he)
  · rw [Heap.length_store hstore]
    exact h.room

end Shows

/-! ### Loops -/

/-- A loop that looks for an entry finds the first one. -/
theorem find_linked {found : EntryNode → Bool} {found' : JobEntries → Bool}
    (hfound : ∀ n p, found n = found' (n.entry p))
    (hlinked : Linked s.next head (addresses base es)) (hholds : Holds base s es)
    (hsteps : es.length ≤ steps) :
    s.find found steps head = some ((es.find? found').map fun e => base + e.ptr) := by
  induction es generalizing head steps with
  | nil =>
    obtain rfl : head = none := hlinked
    rw [find, List.find?_nil, Option.map_none]
  | cons e es ih =>
    obtain ⟨rfl, hrest⟩ := hlinked
    obtain ⟨n, hn, hentry⟩ := hholds e List.mem_cons_self
    cases steps with
    | zero => cases hsteps
    | succ steps =>
      rw [next_eq hn] at hrest
      have hrec := ih hrest (fun x hx => hholds x (List.mem_cons_of_mem e hx))
        (Nat.le_of_succ_le_succ hsteps)
      have hhit : found n = found' e := by rw [hfound n e.ptr, hentry]
      rw [find, hn, List.find?_cons]
      cases hcase : found' e with
      | true => simp [hhit, hcase]
      | false => simpa [hhit, hcase] using hrec

/-- The loop that looks for an address stops at it, with the entry before. -/
theorem locate_linked {front back : List Nat} {prev : Option Nat}
    (hlinked : Linked s.next head (front ++ p :: back)) (hlive : ∀ q ∈ front, s.nodes.Live q)
    (hp : p ∉ front) (hsteps : front.length < steps) :
    s.locate p steps prev head = some (front.getLast?.or prev, some p) := by
  induction front generalizing head prev steps with
  | nil =>
    obtain ⟨rfl, -⟩ := hlinked
    cases steps with
    | zero => cases hsteps
    | succ steps => simp [locate]
  | cons q front ih =>
    obtain ⟨rfl, hrest⟩ := hlinked
    obtain ⟨n, hn⟩ := Option.isSome_iff_exists.mp (hlive q List.mem_cons_self)
    cases steps with
    | zero => cases hsteps
    | succ steps =>
      rw [next_eq hn] at hrest
      have hne : q ≠ p := fun heq => hp (heq ▸ List.mem_cons_self)
      rw [locate, if_neg hne, hn]
      show s.locate p steps (some q) n.next = _
      rw [ih hrest (fun x hx => hlive x (List.mem_cons_of_mem q hx))
        (fun hx => hp (List.mem_cons_of_mem q hx)) (Nat.lt_of_succ_lt_succ hsteps),
        List.getLast?_cons]
      cases front.getLast? <;> rfl

/-- The loop over the whole list reads its entries. -/
theorem collect_linked (hlinked : Linked s.next head (addresses base es))
    (hholds : Holds base s es) (hsteps : es.length ≤ steps) :
    ∃ l, s.collect steps head = some l ∧ l.map Prod.fst = addresses base es ∧
      l.map (fun q => q.2.entry (q.1 - base)) = es := by
  induction es generalizing head steps with
  | nil =>
    obtain rfl : head = none := hlinked
    exact ⟨[], by rw [collect], rfl, rfl⟩
  | cons e es ih =>
    obtain ⟨rfl, hrest⟩ := hlinked
    obtain ⟨n, hn, hentry⟩ := hholds e List.mem_cons_self
    cases steps with
    | zero => cases hsteps
    | succ steps =>
      rw [next_eq hn] at hrest
      obtain ⟨l, hl, haddr, hes⟩ := ih hrest (fun x hx => hholds x (List.mem_cons_of_mem e hx))
        (Nat.le_of_succ_le_succ hsteps)
      refine ⟨(base + e.ptr, n) :: l, ?_, ?_, ?_⟩
      · rw [collect, hn]
        show (s.collect steps n.next).bind _ = _
        rw [hl]
        rfl
      · rw [List.map_cons, haddr]
        rfl
      · rw [List.map_cons, hes, Nat.add_sub_cancel_left, hentry]

/-- The loop that takes the snapshot reads the cached terminal updates, up to the counter. -/
theorem snapshot_linked (copied : Nat → Bool) {i : Nat}
    (hlinked : Linked s.next head (addresses base es)) (hholds : Holds base s es)
    (hsteps : es.length ≤ steps) :
    s.snapshot copied steps i head =
      some (((es.filter JobEntries.hasCachedTerminal).take (s.count - i)).mapIdx fun k e =>
        { e.cachedUpdate with details := if copied (i + k) then e.cachedDetails else [] }) := by
  induction es generalizing head steps i with
  | nil =>
    obtain rfl : head = none := hlinked
    simp [snapshot]
  | cons e es ih =>
    obtain ⟨rfl, hrest⟩ := hlinked
    obtain ⟨n, hn, hentry⟩ := hholds e List.mem_cons_self
    cases steps with
    | zero => cases hsteps
    | succ steps =>
      rw [next_eq hn] at hrest
      have hrec (i : Nat) := ih (i := i) hrest
        (fun x hx => hholds x (List.mem_cons_of_mem e hx)) (Nat.le_of_succ_le_succ hsteps)
      have hcached : n.hasCachedTerminal = e.hasCachedTerminal := by rw [← hentry]; rfl
      have hid : (n.entry (base + e.ptr)).jobId = e.jobId := by rw [← hentry]; rfl
      have hstatus : (n.entry (base + e.ptr)).cachedStatus = e.cachedStatus := by
        rw [← hentry]
        rfl
      have hdetails : (n.entry (base + e.ptr)).cachedDetails = e.cachedDetails := by
        rw [← hentry]
        rfl
      by_cases hi : i < s.count
      · rw [snapshot, if_pos hi, hn]
        cases hcase : e.hasCachedTerminal with
        | true =>
          obtain ⟨left, hleft⟩ : ∃ left, s.count - i = left + 1 :=
            ⟨s.count - i - 1, by omega⟩
          have hless : s.count - (i + 1) = left := by omega
          simp [hcached, hcase, hid, hstatus, hdetails, hrec, hleft, hless, List.mapIdx_cons,
            JobEntries.cachedUpdate, Nat.add_comm, Nat.add_left_comm]
        | false => simp [hcached, hcase, hrec]
      · have hzero : s.count - i = 0 := by omega
        rw [snapshot, if_neg hi, hzero]
        simp

/-- The loop over a linked list frees it. -/
theorem freeAll_linked {nodes : Heap EntryNode} {ps : List Nat}
    (hlinked : Linked (fun p => (nodes.load p).bind EntryNode.next) head ps)
    (hlive : ∀ p ∈ ps, nodes.Live p) (hsteps : ps.length ≤ steps) :
    ∃ nodes', freeAll nodes steps head = some nodes' := by
  induction ps generalizing nodes head steps with
  | nil =>
    obtain rfl : head = none := hlinked
    exact ⟨nodes, by rw [freeAll]⟩
  | cons p ps ih =>
    have hnodup := hlinked.nodup
    obtain ⟨rfl, hrest⟩ := hlinked
    obtain ⟨n, hn⟩ := Option.isSome_iff_exists.mp (hlive p List.mem_cons_self)
    obtain ⟨nodes₁, hfree⟩ := Heap.exists_free (Heap.live_of_load hn)
    have hload (q : Nat) (hq : q ∈ ps) : nodes₁.load q = nodes.load q := by
      apply Heap.load_free_of_ne hfree
      rintro rfl
      exact (List.nodup_cons.mp hnodup).1 hq
    simp only [hn, Option.bind_some] at hrest
    cases steps with
    | zero => cases hsteps
    | succ steps =>
      -- The rest of the list is as it was.
      have hlinked₁ := hrest.congr fun q hq =>
        congrArg (Option.bind · EntryNode.next) (hload q hq)
      have hlive₁ (q : Nat) (hq : q ∈ ps) : nodes₁.Live q := by
        rw [Heap.Live, hload q hq]
        exact hlive q (List.mem_cons_of_mem p hq)
      obtain ⟨nodes', hrec⟩ := ih hlinked₁ hlive₁ (Nat.le_of_succ_le_succ hsteps)
      refine ⟨nodes', ?_⟩
      rw [freeAll, hn]
      show (nodes.free p).bind _ = _
      rw [hfree]
      exact hrec

/-! ### Entries -/

namespace Shows

variable (h : Shows base s c)
include h

theorem find {found : EntryNode → Bool} {found' : JobEntries → Bool}
    (hfound : ∀ n p, found n = found' (n.entry p)) :
    s.findEntry found = some ((c.entries.find? found').map fun e => base + e.ptr) := by
  rw [findEntry, if_pos h.present]
  exact find_linked hfound h.chained.linked h.chained.holds h.chained.length_le

theorem findByJobId (jobId : CStr) :
    s.findByJobId jobId = some ((c.findByJobId jobId).map fun e => base + e.ptr) :=
  h.find fun _ _ => rfl

theorem findByInt (jobIdInt : UInt32) :
    s.findByInt jobIdInt = some ((c.findByInt jobIdInt).map fun e => base + e.ptr) :=
  h.find fun _ _ => rfl

/-- The new entry is the last one. -/
theorem addEntry (jobId : CStr) :
    ∃ s', s.addEntry jobId = some (base + c.nextPtr, s') ∧ Shows base s' (c.addEntry jobId) := by
  obtain ⟨nodes, halloc⟩ : ∃ nodes, s.nodes.alloc { jobId, jobIdInt := s.nextJobIdInt } =
      (nodes, base + c.nextPtr) := ⟨_, Prod.ext rfl h.room⟩
  have hself := Heap.load_alloc_self (h := s.nodes)
    (b := ({ jobId, jobIdInt := s.nextJobIdInt } : EntryNode))
  rw [halloc] at hself
  have hold (e : JobEntries) (he : e ∈ c.entries) : base + e.ptr ≠ base + c.nextPtr ∧
      nodes.load (base + e.ptr) = s.nodes.load (base + e.ptr) := by
    obtain ⟨n, hn, -⟩ := h.chained.holds e he
    have hne := Heap.ne_alloc_of_live (b := ({ jobId, jobIdInt := s.nextJobIdInt } : EntryNode))
      (Heap.live_of_load hn)
    have hload := Heap.load_alloc_of_ne hne
    rw [halloc] at hne hload
    exact ⟨hne, hload⟩
  have hchained : Chained base { s with nodes := nodes, nextJobIdInt := s.nextJobIdInt + 1 }
      c.entries := h.chained.of_load rfl rfl fun e he => (hold e he).2
  have hentry : ({ jobId, jobIdInt := s.nextJobIdInt } : EntryNode).entry c.nextPtr =
      c.newEntry jobId := by
    rw [h.nextJobIdInt]
    rfl
  obtain ⟨nodes', head, happend, hlen, hlist⟩ :=
    hchained.append (e := c.newEntry jobId) hself hentry rfl (by
      intro hmem
      obtain ⟨e, he, heq⟩ := exists_of_mem_addresses hmem
      exact (hold e he).1 heq)
  have hadd : s.addEntry jobId =
      (StatusList.append { s with nodes := nodes, nextJobIdInt := s.nextJobIdInt + 1 }
        (base + (c.newEntry jobId).ptr)).bind fun s => some (base + c.nextPtr, s) := by
    rw [StatusList.addEntry, halloc]
    rfl
  rw [happend] at hadd
  refine ⟨_, hadd, h.present, hlist, ?_, ?_, h.count⟩
  · show nodes'.blocks.length = base + (c.nextPtr + 1)
    rw [hlen]
    show nodes.blocks.length = _
    rw [(Heap.eq_of_alloc halloc).2, h.room]
    rfl
  · show s.nextJobIdInt + 1 = c.nextJobIdInt + 1
    rw [h.nextJobIdInt]

/-- A removal takes the entry out, and the tail pointer goes back where it was the last. -/
theorem removeEntries (he : e ∈ c.entries) :
    ∃ s', s.removeEntries (base + e.ptr) = some s' ∧ Shows base s' (c.removeEntries e) := by
  obtain ⟨front, back, hsplit, herase, -⟩ := exists_split h.chained.ptrs he
  have hchained := h.chained
  rw [hsplit] at hchained
  obtain ⟨s', hunlink, hs'⟩ := hchained.unlink
  have hlocate : s.locate (base + e.ptr) s.nodes.blocks.length none s.head =
      some ((addresses base front).getLast?, some (base + e.ptr)) := by
    have hlinked := hchained.linked
    rw [addresses_append, addresses_cons] at hlinked
    rw [locate_linked hlinked, Option.or_none]
    · intro q hq
      exact hchained.live (by simp [hq])
    · intro hmem
      obtain ⟨x, hx, heq⟩ := exists_of_mem_addresses hmem
      exact hchained.ne x (List.mem_append_left _ hx) heq
    · have hle := hchained.length_le
      rw [List.length_append, List.length_cons] at hle
      rw [length_addresses]
      omega
  refine ⟨s', ?_, hs'.present.trans h.present, ?_, hs'.room.trans h.room,
    hs'.nextJobIdInt.trans h.nextJobIdInt, ?_⟩
  · rw [StatusList.removeEntries, if_pos h.present, hlocate]
    exact hunlink
  · rw [Cache.removeEntries, herase]
    exact hs'.chained
  · rw [hs'.count, h.count]
    rfl

/-! ### Calls -/

theorem getOrCreate_error {jobId : CStr} {allocated : Bool} {err : EspError}
    (heq : c.getOrCreate jobId allocated = .error err) :
    s.getOrCreate jobId allocated = some (.error err) := by
  rw [Cache.getOrCreate] at heq
  rw [StatusList.getOrCreate]
  split at heq
  · rename_i hvalid
    rw [if_pos hvalid, h.findByJobId]
    cases hfind : c.findByJobId jobId with
    | some e => simp [hfind] at heq
    | none =>
      cases allocated with
      | true => simp [hfind] at heq
      | false =>
        simp only [hfind] at heq
        cases heq
        rfl
  · rename_i hvalid
    rw [if_neg hvalid]
    cases heq
    rfl

theorem getOrCreate_ok {jobId : CStr} {allocated : Bool} {c' : Cache}
    (heq : c.getOrCreate jobId allocated = .ok (e, c')) :
    ∃ s', s.getOrCreate jobId allocated = some (.ok (base + e.ptr, s')) ∧ Shows base s' c' := by
  rw [Cache.getOrCreate] at heq
  rw [StatusList.getOrCreate]
  split at heq
  · rename_i hvalid
    rw [if_pos hvalid, h.findByJobId]
    cases hfind : c.findByJobId jobId with
    | some x =>
      simp only [hfind] at heq
      cases heq
      exact ⟨s, rfl, h⟩
    | none =>
      cases allocated with
      | true =>
        simp only [hfind] at heq
        cases heq
        obtain ⟨s', hadd, hs'⟩ := h.addEntry jobId
        refine ⟨s', ?_, hs'⟩
        show (s.addEntry jobId).bind _ = _
        rw [hadd]
        rfl
      | false => simp [hfind] at heq
  · cases heq

theorem scheduleOrResetRetry {ptr : Nat} (hp : c.Has (ptr, none)) (delayMs : Nat)
    (scheduled : Bool) :
    Agrees base (s.scheduleOrResetRetry (base + ptr) delayMs scheduled)
      (c.scheduleOrResetRetry ptr delayMs scheduled) := by
  obtain ⟨s', hwrite, hs'⟩ := h.write hp
    (f := fun n => { n with retryHandle := some (some delayMs) })
    (fun e => { e with timer := some delayMs }) (fun _ _ => rfl) (fun _ => rfl) fun _ => rfl
  obtain ⟨e, he, rfl, -⟩ := hp
  obtain ⟨n, hn, -⟩ := h.load he
  rw [StatusList.scheduleOrResetRetry, Cache.scheduleOrResetRetry, hn]
  cases scheduled with
  | true =>
    refine ⟨s', ?_, hs'⟩
    show (s.write (base + e.ptr) _).bind _ = _
    rw [hwrite]
    rfl
  | false => exact ⟨s, rfl, h⟩

theorem overwriteVersion (jobId : CStr) (version : Int32) (allocated : Bool) :
    Agrees base (s.overwriteVersion jobId version allocated)
      (c.overwriteVersion jobId version allocated) := by
  rw [StatusList.overwriteVersion, Cache.overwriteVersion]
  split
  · exact ⟨s, rfl, h⟩
  · rcases c.getOrCreate_cases jobId allocated with ⟨err, heq⟩ | ⟨e, c', heq, hget⟩
    · rw [h.getOrCreate_error heq, heq]
      exact ⟨s, rfl, h⟩
    · obtain ⟨s₁, hcreate, hs₁⟩ := h.getOrCreate_ok heq
      obtain ⟨s', hwrite, hs'⟩ := hs₁.write (Cache.has_of_mem hget.mem)
        (f := fun n => { n with version := version }) (fun e => { e with version := version })
        (fun _ _ => rfl) (fun _ => rfl) fun _ => rfl
      rw [hcreate, heq]
      refine ⟨s', ?_, hs'⟩
      show (s₁.write (base + e.ptr) _).bind _ = _
      rw [hwrite]
      rfl

theorem setInitialExpectedVersion (jobId : CStr) (version : Int32) (allocated : Bool) :
    Agrees base (s.setInitialExpectedVersion jobId version allocated)
      (c.setInitialExpectedVersion jobId version allocated) := by
  rw [StatusList.setInitialExpectedVersion, Cache.setInitialExpectedVersion]
  split
  · exact h.overwriteVersion jobId version allocated
  · exact ⟨s, rfl, h⟩

/-- The counter is a field of its own. -/
theorem setCount (count : Nat) : Shows base { s with count := count } { c with count := count } :=
  ⟨h.present, h.chained.of_load rfl rfl fun _ _ => rfl, h.room, h.nextJobIdInt, rfl⟩

theorem setCachedTerminal (he : e ∈ c.entries) (u : StatusUpdate) (expectedVersion : Int32)
    (env : StatusEnv) :
    Agrees base (s.setCachedTerminal (base + e.ptr) u expectedVersion env)
      (c.setCachedTerminal e u expectedVersion env) := by
  obtain ⟨s₁, hfree, hs₁⟩ := h.write (Cache.has_of_mem he)
    (f := fun n => { n with cachedDetails := [] }) (fun e => { e with cachedDetails := [] })
    (fun _ _ => rfl) (fun _ => rfl) fun _ => rfl
  have he₁ : { e with cachedDetails := [] } ∈
      (c.update e.ptr fun e => { e with cachedDetails := [] }).entries := mem_modifyKey_self he rfl
  obtain ⟨n, hn, hentry⟩ := hs₁.load he₁
  have hcached : n.hasCachedTerminal = e.hasCachedTerminal := congrArg (·.hasCachedTerminal) hentry
  obtain ⟨s₂, hwrite, hs₂⟩ := hs₁.write (Cache.has_of_mem he₁)
    (f := fun n => { n with
      cachedDetails := u.details
      cachedStatus := u.status
      cachedExpectedVersion := expectedVersion
      hasCachedTerminal := true
      retryDelayMs := retryInitialDelayMs })
    (JobEntries.cacheTerminal u expectedVersion) (fun _ _ => rfl) (fun _ => rfl) fun _ => rfl
  -- The old details are freed and the new ones are set, which is one write.
  have hone : (c.update e.ptr fun e => { e with cachedDetails := [] }).update e.ptr
      (JobEntries.cacheTerminal u expectedVersion) =
        c.update e.ptr (JobEntries.cacheTerminal u expectedVersion) := by
    rw [Cache.update, Cache.update, modifyKey_modifyKey]
    · rfl
    · exact fun _ => rfl
  rw [show ({ e with cachedDetails := [] } : JobEntries).ptr = e.ptr from rfl] at hwrite hn hs₂
  rw [hone] at hs₂
  have hcounted := hs₂.setCount (if e.hasCachedTerminal then c.count else c.count + 1)
  have hmem : (e.cacheTerminal u expectedVersion) ∈
      (c.update e.ptr (JobEntries.cacheTerminal u expectedVersion)).entries :=
    mem_modifyKey_self he rfl
  obtain ⟨s₃, hschedule, hs₃⟩ := hcounted.scheduleOrResetRetry (Cache.has_of_mem hmem)
    retryInitialDelayMs env.scheduled
  rw [StatusList.setCachedTerminal, hfree, Cache.setCachedTerminal]
  simp only [Option.bind_eq_bind, Option.bind_some]
  split
  · exact ⟨s₁, rfl, hs₁⟩
  · rw [hn]
    simp only [Option.bind_some]
    rw [hwrite]
    simp only [Option.bind_some, hcached]
    refine ⟨s₃, ?_, hs₃⟩
    rw [hs₂.count]
    exact hschedule

theorem cacheIfTerminal (he : e ∈ c.entries) (u : StatusUpdate) (env : StatusEnv) :
    Agrees base (s.cacheIfTerminal (base + e.ptr) u e.version env) (c.cacheIfTerminal e u env) := by
  rw [StatusList.cacheIfTerminal, Cache.cacheIfTerminal]
  split
  · exact h.setCachedTerminal he u e.version env
  · exact ⟨s, rfl, h⟩

theorem otaStatusSend (u : StatusUpdate) (env : StatusEnv) :
    Agrees base (s.otaStatusSend u env)
      ((c.otaStatusSend u env).err, (c.otaStatusSend u env).cache) := by
  rw [StatusList.otaStatusSend, Cache.otaStatusSend]
  split
  · rw [Cache.sendPrepare]
    rcases c.getOrCreate_cases u.jobId env.entryAllocated with ⟨err, heq⟩ | ⟨e, c', heq, hget⟩
    · rw [h.getOrCreate_error heq, heq]
      cases err with
      | ok => exact absurd heq (c.getOrCreate_ne_ok u.jobId env.entryAllocated)
      | _ => exact ⟨s, rfl, h⟩
    · obtain ⟨s₁, hcreate, hs₁⟩ := h.getOrCreate_ok heq
      obtain ⟨n, hn, hentry⟩ := hs₁.load hget.mem
      have hversion : n.version = e.version := congrArg JobEntries.version hentry
      obtain ⟨s₂, hcache, hs₂⟩ := hs₁.cacheIfTerminal hget.mem u env
      rw [hcreate, heq]
      simp only [Option.bind_eq_bind, Option.bind_some, hn, hversion, hcache]
      split
      · have hp : (c'.cacheIfTerminal e u env).2.Has (e.ptr, none) :=
          Cache.Has.mono (c'.cacheIfTerminal_grows hget.mem u env)
            (Cache.has_of_mem hget.mem)
        obtain ⟨s₃, hwrite, hs₃⟩ := hs₂.write hp
          (f := fun n => { n with version := n.version + 1 })
          (fun e => { e with version := e.version + 1 }) (fun _ _ => rfl) (fun _ => rfl)
          fun _ => rfl
        rw [hwrite]
        simp only [Option.bind_some]
        split
        · exact ⟨s₃, rfl, hs₃⟩
        · obtain ⟨s₄, hback, hs₄⟩ := hs₃.overwriteVersion u.jobId e.version env.entryAllocated
          rw [hback]
          exact ⟨s₄, rfl, hs₄⟩
      · rename_i herr
        generalize (c'.cacheIfTerminal e u env).1 = err at herr
        cases err with
        | ok => exact absurd rfl herr
        | _ => exact ⟨s₂, rfl, hs₂⟩
  · exact ⟨s, rfl, h⟩

theorem clearJobEntries (jobId : CStr) :
    ∃ s', s.clearJobEntries jobId = some s' ∧ Shows base s' (c.clearJobEntries jobId) := by
  rw [StatusList.clearJobEntries, Cache.clearJobEntries]
  by_cases hlen : jobId.length = 0
  · rw [if_pos (.inl hlen), if_pos hlen]
    exact ⟨s, rfl, h⟩
  · rw [if_neg (by simp [hlen, h.present]), if_neg hlen, h.findByJobId]
    cases hfind : c.findByJobId jobId with
    | none => exact ⟨s, rfl, h⟩
    | some e => exact h.removeEntries (List.mem_of_find?_eq_some hfind)

theorem resend (envs : Nat → StatusEnv) (us : List StatusUpdate) (i : Nat) :
    ∃ s', s.resend envs i us = some s' ∧ Shows base s' (c.resend envs i us).1 := by
  induction us generalizing s c i with
  | nil => exact ⟨s, rfl, h⟩
  | cons u us ih =>
    obtain ⟨s₁, hsend, hs₁⟩ := h.otaStatusSend u (envs i)
    obtain ⟨s', hrest, hs'⟩ := ih hs₁ (i + 1)
    refine ⟨s', ?_, hs'⟩
    rw [StatusList.resend, hsend]
    exact hrest

theorem resendPendingTerminals (snapshotAllocated : Bool) (copied : Nat → Bool)
    (envs : Nat → StatusEnv) :
    ∃ s', s.resendPendingTerminals snapshotAllocated copied envs = some s' ∧
      Shows base s' (c.resendPendingTerminals snapshotAllocated copied envs).1 := by
  rw [StatusList.resendPendingTerminals, Cache.resendPendingTerminals]
  cases snapshotAllocated with
  | false => exact ⟨s, by simp, h⟩
  | true =>
    by_cases hcount : s.count = 0
    · have hnone : c.pendingTerminals copied = [] := by
        rw [Cache.pendingTerminals, Cache.pendingEntries, ← h.count, hcount]
        rfl
      rw [if_pos (.inr (.inl hcount)), if_pos rfl, hnone]
      exact ⟨s, rfl, h⟩
    · have hsnapshot : s.snapshot copied s.nodes.blocks.length 0 s.head =
          some (c.pendingTerminals copied) := by
        rw [snapshot_linked copied h.chained.linked h.chained.holds h.chained.length_le,
          Nat.sub_zero, h.count, Cache.pendingTerminals, Cache.pendingEntries]
        simp only [Nat.zero_add]
      rw [if_neg (by simp [h.present, hcount]), if_pos rfl, hsnapshot]
      exact h.resend envs _ 0

theorem onReject (he : e ∈ c.entries) (ret : ResponseReturn) (payload : ResponsePayload)
    (env sendEnv : StatusEnv) :
    Agrees base (s.onReject (base + e.ptr) payload env sendEnv)
      ((c.onReject e ret payload env).err, (c.onReject e ret payload env).resent sendEnv) := by
  rw [StatusList.onReject, Cache.onReject]
  split
  · exact ⟨s, rfl, h⟩
  · split
    · cases strToUint32 payload.versionNumber with
      | none => exact ⟨s, rfl, h⟩
      | some version =>
        obtain ⟨s₁, hwrite, hs₁⟩ := h.write (Cache.has_of_mem he)
          (f := fun n => { n with version := version.toInt32 })
          (fun e => { e with version := version.toInt32 }) (fun _ _ => rfl) (fun _ => rfl)
          fun _ => rfl
        obtain ⟨n, hn, hentry⟩ := hs₁.load (mem_modifyKey_self he rfl)
        have hcached : n.hasCachedTerminal = e.hasCachedTerminal :=
          congrArg JobEntries.hasCachedTerminal hentry
        have hread := congrArg JobEntries.cachedUpdate hentry
        have hupdate : (n.entry (base + e.ptr)).cachedUpdate = e.cachedUpdate := hread
        simp only [hwrite, Option.bind_eq_bind, Option.bind_some,
          show s₁.nodes.load (base + e.ptr) = some n from hn, hcached, hupdate]
        split
        · obtain ⟨s₂, hsend, hs₂⟩ := hs₁.otaStatusSend { e.cachedUpdate with
            details := if env.detailsAllocated then e.cachedDetails else [] } sendEnv
          rw [show e.cachedUpdate.details = e.cachedDetails from rfl, hsend]
          exact ⟨s₂, rfl, hs₂⟩
        · exact ⟨s₁, rfl, hs₁⟩
    · split
      · obtain ⟨s', hremove, hs'⟩ := h.removeEntries he
        rw [hremove]
        exact ⟨s', rfl, hs'⟩
      · obtain ⟨n, hn, hentry⟩ := h.load he
        have hcached : n.hasCachedTerminal = e.hasCachedTerminal :=
          congrArg JobEntries.hasCachedTerminal hentry
        have hdelay : n.retryDelayMs = e.retryDelayMs := congrArg JobEntries.retryDelayMs hentry
        obtain ⟨s', hschedule, hs'⟩ := h.scheduleOrResetRetry (Cache.has_of_mem he)
          e.retryDelayMs env.scheduled
        rw [hn]
        simp only [Option.bind_eq_bind, Option.bind_some, hcached, hdelay]
        split
        · rw [hschedule]
          exact ⟨s', rfl, hs'⟩
        · exact ⟨s, rfl, h⟩

theorem onUpdateResponse (payload : ResponsePayload) (accepted : Bool) (env sendEnv : StatusEnv) :
    Agrees base (s.onUpdateResponse payload accepted env sendEnv)
      ((c.onResponseLocked payload accepted env).err,
        (c.onResponseLocked payload accepted env).resent sendEnv) := by
  rw [StatusList.onUpdateResponse, Cache.onResponseLocked]
  cases readToken payload.clientToken with
  | none => exact ⟨s, rfl, h⟩
  | some token =>
    obtain ⟨terminal, jobIdInt⟩ := token
    simp only [h.findByInt]
    cases hfind : c.findByInt jobIdInt with
    | none => exact ⟨s, rfl, h⟩
    | some e =>
      have he : e ∈ c.entries := List.mem_of_find?_eq_some hfind
      cases accepted with
      | true =>
        cases terminal with
        | true =>
          obtain ⟨s', hremove, hs'⟩ := h.removeEntries he
          refine ⟨s', ?_, hs'⟩
          show (s.removeEntries (base + e.ptr)).bind _ = _
          rw [hremove]
          rfl
        | false => exact ⟨s, rfl, h⟩
      | false => exact h.onReject he _ payload env sendEnv

theorem retryTask (he : e ∈ c.entries) (env : StatusEnv) :
    ∃ s', s.retryTask (base + e.ptr) env = some s' ∧ Shows base s' (c.retrySections e env) := by
  obtain ⟨n, hn, hentry⟩ := h.load he
  have hcached : n.hasCachedTerminal = e.hasCachedTerminal :=
    congrArg JobEntries.hasCachedTerminal hentry
  have hversion : n.version = e.version := congrArg JobEntries.version hentry
  have hjob : n.jobId = e.jobId := congrArg JobEntries.jobId hentry
  have hread := congrArg JobEntries.nextDelay hentry
  have hdelay : (n.entry (base + e.ptr)).nextDelay = e.nextDelay := hread
  rw [StatusList.retryTask, Cache.retrySections, hn]
  simp only [Option.bind_eq_bind, Option.bind_some, hcached, hversion, hjob, hdelay]
  split
  · obtain ⟨nodes, hwrite, hlen, hchained⟩ := h.chained.write he
      (f := fun n => { n with version := n.version + 1, retryDelayMs := e.nextDelay })
      (g := fun x => { x with version := x.version + 1, retryDelayMs := e.nextDelay })
      (fun _ _ => rfl) (fun _ => rfl) fun _ => rfl
    -- The delay is the one of this entry, and no other entry is written.
    have hone : modifyKey JobEntries.ptr e.ptr (fun x => { x with
        version := x.version + 1, retryDelayMs := e.nextDelay }) c.entries =
          (c.update e.ptr JobEntries.retried).entries := by
      refine List.map_congr_left fun x hx => ?_
      dsimp only
      split
      · rename_i hptr
        rw [eq_of_key_eq h.chained.ptrs hx he hptr]
        rfl
      · rfl
    rw [hone] at hchained
    have hs₁ : Shows base { s with nodes := nodes } (c.update e.ptr JobEntries.retried) :=
      ⟨h.present, hchained, hlen.trans h.room, h.nextJobIdInt, h.count⟩
    have hp : (c.update e.ptr JobEntries.retried).Has (e.ptr, none) :=
      Cache.has_of_mem (e := e.retried) (mem_modifyKey_self he rfl)
    rw [hwrite]
    simp only [Option.bind_some]
    split
    · obtain ⟨s', hschedule, hs'⟩ := hs₁.scheduleOrResetRetry hp e.nextDelay env.scheduled
      rw [hschedule]
      exact ⟨s', rfl, hs'⟩
    · obtain ⟨s₂, hback, hs₂⟩ := hs₁.overwriteVersion e.jobId e.version env.entryAllocated
      have hp₂ := Cache.Has.mono (Cache.overwriteVersion_grows _ e.jobId e.version
        env.entryAllocated) hp
      obtain ⟨s', hschedule, hs'⟩ := hs₂.scheduleOrResetRetry hp₂ e.nextDelay env.scheduled
      rw [hback]
      simp only [Option.bind_some]
      rw [hschedule]
      exact ⟨s', rfl, hs'⟩
  · exact ⟨s, rfl, h⟩

/-- The entries of the list are those of the cache. -/
theorem entries :
    ∃ l, s.entries = some l ∧ l.map Prod.fst = addresses base c.entries ∧
      l.map (fun q => q.2.entry (q.1 - base)) = c.entries :=
  collect_linked h.chained.linked h.chained.holds h.chained.length_le

/-- The deinitialization frees the whole list. -/
theorem deinit : ∃ nodes, s.deinit = some { nodes } := by
  have hlive : ∀ p ∈ addresses base c.entries, s.nodes.Live p := fun _ => h.chained.live
  have hle : (addresses base c.entries).length ≤ s.nodes.blocks.length := by
    rw [length_addresses]
    exact h.chained.length_le
  obtain ⟨nodes, hnodes⟩ := freeAll_linked h.chained.linked hlive hle
  refine ⟨nodes, ?_⟩
  rw [StatusList.deinit, if_pos h.present, hnodes]
  rfl

end Shows

end StatusList

end RainMakerNeo.Ota.Status
