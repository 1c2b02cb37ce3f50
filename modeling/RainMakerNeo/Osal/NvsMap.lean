import RainMakerNeo.Lib.Run
import RainMakerNeo.Osal.NvsPosix

/-!
# `RainMakerNeo.Osal.NvsMap`: one pair as a map from keys to values

The calls on one partition and namespace should behave like those on a map: a `get` finds what the
last `set` put there, and an iteration gives each entry of its type once (`MapLike`).

A handle keeps the file it was opened on, while `set` and `erase` through another handle put a new
file in its place. And a key that is too long for the reader is written all the same, after which
nothing can be read (`not_mapLike`). `Careful` stays away from these, and `mapLike_of_careful` is
what then holds over any run.
-/

set_option autoImplicit false

namespace RainMakerNeo.Osal.Nvs

open RainMakerNeo.Lib

/-! ### The map and the iterations -/

/-- What an iteration has given so far. -/
structure Iteration where
  /-- The map at `osal_storage_entry_find`. -/
  map : List UInt8 → Option Entry
  type : UInt8
  yielded : List (List UInt8) := []
  /-- The calls to `osal_storage_entry_next` that found an entry. -/
  steps : Nat := 0
  /-- The entry at the position was read. -/
  read : Bool := false
  /-- A call found no more entries. -/
  ended : Bool := false
  /-- All entries were erased meanwhile. -/
  cut : Bool := false

/-- The storage, the map that the successful calls make up, and the iterations. -/
structure Session where
  store : State := {}
  map : List UInt8 → Option Entry := fun _ => none
  iterations : Nat → Option Iteration := fun _ => none

/-- The map after a call that returned. -/
def mapAfter (m : List UInt8 → Option Entry) : Call → Answer → List UInt8 → Option Entry
  | .set key value type, .done => Function.update m key (some ⟨value, type⟩)
  | .erase key, .done => Function.update m key none
  | .eraseAll, .done => fun _ => none
  | _, _ => m

/-- An iteration after a call on its iterator that returned. -/
def Iteration.after (m : List UInt8 → Option Entry) (it : Option Iteration) :
    Call → Answer → Option Iteration
  | .find type, .done => some { map := m, type := type }
  | .getInfo, .key k => it.map fun it => { it with yielded := it.yielded ++ [k], read := true }
  | .getInfo, .error .keyNotFound => it.map fun it => { it with ended := true }
  | .next, .done => it.map fun it => { it with steps := it.steps + 1, read := false }
  | .next, .error .keyNotFound => it.map fun it => { it with ended := true }
  | .release, .done => none
  | _, _ => it

/-- An iteration after a call that erased all entries. -/
def Iteration.cutBy (it : Iteration) : Call → Answer → Iteration
  | .eraseAll, .done => { it with cut := true }
  | _, _ => it

/-- A call while only one pair is in use. -/
inductive Event
  | init (label : Option CStr)
  | deinit (label : Option CStr)
  | call (i : Nat) (c : Call)
  deriving DecidableEq

/-- What a call on the pair returns. -/
def Session.answer (os : Os) (q : Name) (s : Session) (i : Nat) (c : Call) : Answer :=
  (s.store.call os q i c).2

/-- A call on the pair, with the history. -/
def Session.call (os : Os) (q : Name) (s : Session) (i : Nat) (c : Call) : Session :=
  let a := s.answer os q i c
  let its := Function.update s.iterations i (Iteration.after s.map (s.iterations i) c a)
  { store := (s.store.call os q i c).1
    map := mapAfter s.map c a
    iterations := fun j => (its j).map fun it => it.cutBy c a }

/-- One call of a run. -/
def Session.step (os : Os) (q : Name) (s : Session) : Event → Option Session
  | .init label => some { s with store := (osalStorageInit s.store label).1 }
  | .deinit label => some { s with store := (osalStorageDeinit s.store label).1 }
  | .call i c => some (s.call os q i c)

/-- No files, no partitions, no handles. -/
def Session.Initial (s : Session) : Prop := s = {}

/-! ### What is asked of the pair -/

/-- The answer to a `get` of an entry. -/
def getAnswer : Option Entry → Option Nat → Answer
  | none, _ => .error .keyNotFound
  | some e, none => .length e.value.length
  | some e, some size =>
    if size < e.value.length then .error (.noMem e.value.length) else .value e.value

/-- The iteration gives the entries of its type in some order, each once, and all of them when it
ends unless they were erased. It does not go on for longer than there are entries. -/
def Iteration.Exact (it : Iteration) : Prop :=
  ∃ entries : List (List UInt8), entries.Nodup ∧
    (∀ k, k ∈ entries ↔ ∃ value, it.map k = some ⟨value, it.type⟩) ∧
    it.yielded <+: entries ∧ it.steps ≤ entries.length ∧
    (it.ended = true → it.cut = false → it.yielded = entries)

/-- The pair behaves like a map in the state, for the calls that the guard admits. -/
structure MapLike (os : Os) (q : Name) (guard : Session → Event → Prop) (s : Session) : Prop where
  /-- A `get` finds what the last `set` that was not erased put there. -/
  get : ∀ i key buffer, s.store.handles q i ≠ none → guard s (.call i (.get key buffer)) →
    s.answer os q i (.get key buffer) = getAnswer (s.map key) buffer
  /-- A call that fails leaves the contents alone. -/
  failed : ∀ i c e, guard s (.call i c) → s.answer os q i c = .error e →
    (s.call os q i c).store.content os q = s.store.content os q
  /-- An iterator always reads its file. -/
  readable : ∀ i c, c = .getInfo ∨ c = .next → guard s (.call i c) →
    s.answer os q i c ≠ .error .fail
  /-- An iteration gives each entry once. -/
  iterates : ∀ i it, s.iterations i = some it → it.Exact

/-- The file of the handle still has its name. -/
def Session.Fresh (q : Name) (s : Session) (i : Nat) : Prop :=
  ∀ h ∈ s.store.handles q i, s.store.files.entry h.file = some h.inode

instance (q : Name) (s : Session) (i : Nat) : Decidable (s.Fresh q i) :=
  inferInstanceAs (Decidable (∀ h ∈ s.store.handles q i, _))

/-- The handle is not older than the file, the key is one that the reader takes, the value is
shorter than 4 GiB, and an iteration reads each position once. -/
def Careful (q : Name) (s : Session) : Event → Prop
  | .call i (.get key _) => s.Fresh q i ∧ key.length < 2 ^ 16
  | .call i (.set key value _) =>
    s.Fresh q i ∧ 0 < key.length ∧ key.length < keyMaxLength ∧ value.length < 2 ^ 32
  | .call i (.erase key) => s.Fresh q i ∧ key.length < 2 ^ 16
  | .call i .eraseAll => s.Fresh q i
  | .call i .getInfo => ∀ it ∈ s.iterations i, it.read = false ∨ it.ended = true
  | .call i .next => ∀ it ∈ s.iterations i, it.read = true ∨ it.ended = true
  | _ => True

instance (q : Name) (s : Session) (e : Event) : Decidable (Careful q s e) := by
  unfold Careful
  split <;> infer_instance

/-! ### Where an iterator stands -/

/-- The keys of the records of a type. -/
def typed (type : UInt8) (rs : List Record) : List (List UInt8) :=
  (rs.filter fun r => r.type == type).map Record.key

/-- The iterator stands between the records that were passed and the others. -/
structure Stands (fs : Files Path UInt8) (p : Iterator) (it : Iteration) (pre post : List Record) :
    Prop where
  data : fs.data p.inode = writeRecords (pre ++ post)
  offset : p.offset = (writeRecords pre).length
  ended : it.ended = true → post = []
  ready : it.read = false → post = [] ∨ ∃ r rest, post = r :: rest ∧ r.type = it.type

/-- The iterator is on a file with the map of its iteration, or on one that was emptied. -/
structure Follows (fs : Files Path UInt8) (file : Path) (p : Iterator) (it : Iteration)
    (pre post : List Record) : Prop where
  made : Made fs file p.inode
  type : p.type = it.type
  holds : Holds it.map (pre ++ post)
  yielded : it.yielded = typed it.type pre
  steps : it.steps + it.read.toNat ≤ it.yielded.length
  position : Stands fs p it pre post ∨ it.cut = true ∧ fs.data p.inode = []

section
variable {fs fs' : Files Path UInt8} {file : Path} {p : Iterator} {it : Iteration}
  {pre post rs : List Record} {type : UInt8}

theorem typed_append (type : UInt8) (rs rs' : List Record) :
    typed type (rs ++ rs') = typed type rs ++ typed type rs' := by
  rw [typed, typed, typed, List.filter_append, List.map_append]

/-- Records of other types add nothing. -/
theorem typed_of_none (h : ∀ r ∈ rs, (r.type == type) = false) : typed type rs = [] := by
  rw [typed, List.filter_eq_nil_iff.mpr]
  · rfl
  · intro r hr
    simp [h r hr]

variable {m : List UInt8 → Option Entry}

/-- The keys of a type are those that the map has with it. -/
theorem mem_typed (h : Holds m rs) (k : List UInt8) :
    k ∈ typed type rs ↔ ∃ value, m k = some ⟨value, type⟩ := by
  rw [typed, List.mem_map]
  constructor
  · intro ⟨r, hr, hk⟩
    rw [List.mem_filter, beq_iff_eq] at hr
    refine ⟨r.value, ?_⟩
    rw [← hk, ← hr.2]
    exact (h.mem_iff r).mp hr.1
  · intro ⟨value, hm⟩
    refine ⟨⟨k, value, type⟩, ?_, rfl⟩
    rw [List.mem_filter]
    exact ⟨(h.mem_iff _).mpr hm, by simp⟩

theorem nodup_typed (h : Holds m rs) : (typed type rs).Nodup :=
  h.nodup.sublist (List.Sublist.map _ List.filter_sublist)

/-- What an iteration has given is exact. -/
theorem Follows.isExact (h : Follows fs file p it pre post) : it.Exact := by
  have hprefix : it.yielded <+: typed it.type (pre ++ post) := by
    rw [h.yielded, typed_append]
    exact List.prefix_append _ _
  refine ⟨typed it.type (pre ++ post), nodup_typed h.holds, mem_typed h.holds, hprefix, ?_, ?_⟩
  · have hsteps := h.steps
    have hle := hprefix.length_le
    omega
  · intro hended hcut
    rcases h.position with hstands | ⟨htrue, -⟩
    · rw [h.yielded, hstands.ended hended, List.append_nil]
    · rw [hcut] at htrue
      cases htrue

/-- An iterator whose file is not written stands where it stood. -/
theorem Follows.frame (h : Follows fs file p it pre post) (hborn : fs.born file ≤ fs'.born file)
    (hdata : fs'.data p.inode = fs.data p.inode) : Follows fs' file p it pre post where
  made := h.made.mono hborn
  type := h.type
  holds := h.holds
  yielded := h.yielded
  steps := h.steps
  position := by
    rw [hdata]
    exact h.position.imp_left fun hs => ⟨hdata.trans hs.data, hs.offset, hs.ended, hs.ready⟩

/-- All entries are erased while the iterator stands somewhere. -/
theorem Follows.cut {inode : Inode Path} (h : Follows fs file p it pre post) :
    Follows (fs.write inode []) file p { it with cut := true } pre post where
  made := ⟨h.made.owner, h.made.number⟩
  type := h.type
  holds := h.holds
  yielded := h.yielded
  steps := h.steps
  position := by
    by_cases hp : p.inode = inode
    · right
      rw [hp]
      exact ⟨rfl, Files.write_data_self inode []⟩
    · have hdata : (fs.write inode []).data p.inode = fs.data p.inode :=
        Files.write_data_ne hp []
      rcases h.position with hs | ⟨-, hempty⟩
      · exact .inl ⟨hdata.trans hs.data, hs.offset, hs.ended, hs.ready⟩
      · exact .inr ⟨rfl, hdata.trans hempty⟩

/-- What is left to read. -/
theorem Stands.rest (h : Stands fs p it pre post) :
    (fs.data p.inode).drop p.offset = writeRecords post := by
  rw [h.data, h.offset, writeRecords_append, List.drop_left]

/-- A search from where the iterator stands. -/
theorem Stands.seek (h : Stands fs p it pre post) (hpost : ∀ r ∈ post, Admissible r)
    (type : UInt8) :
    (seekType type (fs.data p.inode) p.offset = .eof (writeRecords (pre ++ post)).length ∧
        typed type post = []) ∨
      ∃ passed r rest, post = passed ++ r :: rest ∧ typed type passed = [] ∧ r.type = type ∧
        seekType type (fs.data p.inode) p.offset =
          .found (writeRecords (pre ++ passed)).length := by
  have hlength : ∀ xs, (writeRecords (pre ++ xs)).length =
      p.offset + (writeRecords xs).length := by
    intro xs
    rw [h.offset, writeRecords_append, List.length_append]
  have hbound : post.length ≤ (fs.data p.inode).length := by
    rw [h.data, hlength]
    exact Nat.le_trans (frames.length_le post) (Nat.le_add_left _ _)
  rw [seekType, h.rest, hlength]
  have hseek := Framing.seek_writeAll frames hpost (p := fun r => r.type == type) hbound p.offset
  rcases hseek with ⟨heof, hnone⟩ | ⟨passed, r, rest, hsplit, hnone, hr, hfound⟩
  · exact .inl ⟨heof, typed_of_none hnone⟩
  · right
    rw [beq_iff_eq] at hr
    exact ⟨passed, r, rest, hsplit, typed_of_none hnone, hr, by rw [hlength]; exact hfound⟩

/-- The call `osal_storage_entry_get_info` reads the entry at the position, if there is one. -/
theorem getInfo_follows {s : State} {q : Name} {i : Nat} (hp : s.iterators q i = some p)
    (h : Follows s.files file p it pre post) (hcare : it.read = false ∨ it.ended = true)
    (m : List UInt8 → Option Entry) :
    ∃ p' it' a pre' post', osalStorageEntryGetInfo s q i = (s.setIterator q i (some p'), a) ∧
      Iteration.after m (some it) .getInfo a = some it' ∧
      Follows s.files file p' it' pre' post' ∧ a ≠ .error .fail := by
  have heof : readNextRecord ((s.files.data p.inode).drop p.offset) = .eof →
      osalStorageEntryGetInfo s q i = (s.setIterator q i (some p), .error .keyNotFound) := by
    intro heof
    simp only [osalStorageEntryGetInfo, hp, heof, setIterator_same hp]
  rcases h.position with hs | ⟨hcut, hempty⟩
  · cases post with
    | nil =>
      refine ⟨p, { it with ended := true }, .error .keyNotFound, pre, [], heof ?_, rfl, ?_, by simp⟩
      · rw [hs.rest]
        rfl
      · exact ⟨h.made, h.type, h.holds, h.yielded, h.steps,
          .inl ⟨hs.data, hs.offset, fun _ => rfl, hs.ready⟩⟩
    | cons r rest =>
      have hnot : it.ended = false := by
        cases hended : it.ended with
        | false => rfl
        | true => cases hs.ended hended
      have hread : it.read = false := by
        rcases hcare with hread | hended
        · exact hread
        · rw [hnot] at hended
          cases hended
      have htype : r.type = it.type := by
        rcases hs.ready hread with hnil | ⟨r', rest', heq, htype⟩
        · cases hnil
        · cases heq
          exact htype
      have hr : Admissible r := h.holds.admissible r (by simp)
      have hnext : readNextRecord ((s.files.data p.inode).drop p.offset) =
          .ok r (writeRecords rest) := by
        rw [hs.rest]
        exact Framing.read_writeAll_cons frames hr
      have hsplit : pre ++ r :: rest = pre ++ [r] ++ rest := by simp
      have hoffset : p.offset + ((writeRecords (r :: rest)).length - (writeRecords rest).length) =
          (writeRecords (pre ++ [r])).length := by
        have hcons : (writeRecords (r :: rest)).length =
            (writeRecords [r]).length + (writeRecords rest).length := by
          rw [← List.length_append, ← writeRecords_append]
          rfl
        rw [hs.offset, hcons, writeRecords_append, List.length_append]
        omega
      refine ⟨{ p with offset := (writeRecords (pre ++ [r])).length },
        { it with yielded := it.yielded ++ [r.key], read := true }, .key r.key, pre ++ [r], rest,
        ?_, rfl, ?_, by simp⟩
      · simp only [osalStorageEntryGetInfo, hp, hnext]
        rw [hs.rest, hoffset]
      · refine ⟨h.made, h.type, hsplit ▸ h.holds, ?_, ?_, .inl ⟨?_, rfl, ?_, fun h => by cases h⟩⟩
        · show it.yielded ++ [r.key] = typed it.type (pre ++ [r])
          rw [h.yielded, typed_append]
          simp [typed, htype]
        · have hsteps := h.steps
          rw [hread] at hsteps
          simpa using hsteps
        · show s.files.data p.inode = _
          rw [hs.data, hsplit]
        · intro hended
          rw [hnot] at hended
          cases hended
  · refine ⟨p, { it with ended := true }, .error .keyNotFound, pre, post, heof ?_, rfl, ?_, by simp⟩
    · rw [hempty, List.drop_nil]
      rfl
    · exact ⟨h.made, h.type, h.holds, h.yielded, h.steps, .inr ⟨hcut, hempty⟩⟩

/-- The call `osal_storage_entry_next` goes on to the next entry of the type, if there is one. -/
theorem next_follows {s : State} {q : Name} {i : Nat} (hp : s.iterators q i = some p)
    (h : Follows s.files file p it pre post) (hcare : it.read = true ∨ it.ended = true)
    (m : List UInt8 → Option Entry) :
    ∃ p' it' a pre' post', osalStorageEntryNext s q i = (s.setIterator q i (some p'), a) ∧
      Iteration.after m (some it) .next a = some it' ∧
      Follows s.files file p' it' pre' post' ∧ a ≠ .error .fail := by
  have heof : ∀ offset, seekType p.type (s.files.data p.inode) p.offset = .eof offset →
      osalStorageEntryNext s q i =
        (s.setIterator q i (some { p with offset := offset }), .error .keyNotFound) := by
    intro offset heof
    simp only [osalStorageEntryNext, hp, heof]
  rcases h.position with hs | ⟨hcut, hempty⟩
  · have hpost : ∀ r ∈ post, Admissible r := fun r hr =>
      h.holds.admissible r (List.mem_append_right pre hr)
    rcases hs.seek hpost p.type with ⟨hseek, hnone⟩ | ⟨passed, r, rest, rfl, hnone, hr, hseek⟩
    · refine ⟨_, { it with ended := true }, .error .keyNotFound, pre ++ post, [], heof _ hseek, rfl,
        ?_, by simp⟩
      refine ⟨h.made, h.type, ?_, ?_, h.steps, .inl ⟨?_, rfl, fun _ => rfl, fun _ => .inl rfl⟩⟩
      · rw [List.append_nil]
        exact h.holds
      · show it.yielded = typed it.type (pre ++ post)
        rw [h.yielded, typed_append, ← h.type, hnone, List.append_nil]
      · rw [List.append_nil]
        exact hs.data
    · have hnot : it.ended = false := by
        cases hended : it.ended with
        | false => rfl
        | true => exact absurd (hs.ended hended) (by simp)
      have hread : it.read = true := by
        rcases hcare with hread | hended
        · exact hread
        · rw [hnot] at hended
          cases hended
      have hsplit : pre ++ (passed ++ r :: rest) = pre ++ passed ++ r :: rest :=
        (List.append_assoc _ _ _).symm
      refine ⟨{ p with offset := (writeRecords (pre ++ passed)).length },
        { it with steps := it.steps + 1, read := false }, .done, pre ++ passed, r :: rest,
        ?_, rfl, ?_, by simp⟩
      · simp only [osalStorageEntryNext, hp, hseek]
      · refine ⟨h.made, h.type, hsplit ▸ h.holds, ?_, ?_, .inl ⟨?_, rfl, ?_, ?_⟩⟩
        · show it.yielded = typed it.type (pre ++ passed)
          rw [h.yielded, typed_append, ← h.type, hnone, List.append_nil]
        · have hsteps := h.steps
          rw [hread] at hsteps
          exact hsteps
        · show s.files.data p.inode = _
          rw [hs.data, hsplit]
        · intro hended
          rw [hnot] at hended
          cases hended
        · intro _
          exact .inr ⟨r, rest, rfl, hr.trans h.type⟩
  · refine ⟨{ p with offset := p.offset }, { it with ended := true }, .error .keyNotFound, pre,
      post, heof _ ?_, rfl, ?_, by simp⟩
    · rw [seekType, hempty, List.drop_nil]
      rfl
    · exact ⟨h.made, h.type, h.holds, h.yielded, h.steps, .inr ⟨hcut, hempty⟩⟩

end

/-! ### The invariant -/

/-- The file has the map, the temporary name is not used, handles are on files that were made, and
iterators follow their iterations. -/
structure Inv (os : Os) (q : Name) (s : Session) : Prop where
  handles : ∀ i h, s.store.handles q i = some h →
    os.resolve (buildPath q) = some h.file ∧ Made s.store.files h.file h.inode
  absent : ∀ file, os.resolve (buildPath q) = some file → s.store.files.entry file = none →
    s.map = fun _ => none
  current : ∀ file inode, os.resolve (buildPath q) = some file →
    s.store.files.entry file = some inode →
    Made s.store.files file inode ∧
      ∃ rs, s.store.files.data inode = writeRecords rs ∧ Holds s.map rs
  tmp : ∀ tmp, os.resolve (tmpPath (buildPath q)) = some tmp → s.store.files.entry tmp = none
  idle : ∀ i, s.store.iterators q i = none → s.iterations i = none
  follows : ∀ i p, s.store.iterators q i = some p → ∃ file it pre post,
    os.resolve (buildPath q) = some file ∧ s.iterations i = some it ∧
      Follows s.store.files file p it pre post

section
variable {os : Os} {q : Name} {s : Session} {i : Nat}

theorem Inv.initial : Inv os q {} where
  handles := fun _ _ h => by cases h
  absent := fun _ _ _ => rfl
  current := fun _ _ _ h => by cases h
  tmp := fun _ _ => rfl
  idle := fun _ _ => rfl
  follows := fun _ _ h => by cases h

/-- The partition table plays no part. -/
theorem Inv.slots (h : Inv os q s) (slots : List PartitionSlot) :
    Inv os q { s with store := { s.store with slots := slots } } :=
  ⟨h.handles, h.absent, h.current, h.tmp, h.idle, h.follows⟩

/-- A handle variable is written. -/
theorem Inv.setHandle (h : Inv os q s) (i : Nat) (x : Option Handle)
    (hx : ∀ y, x = some y →
      os.resolve (buildPath q) = some y.file ∧ Made s.store.files y.file y.inode) :
    Inv os q { s with store := s.store.setHandle q i x } := by
  refine ⟨?_, h.absent, h.current, h.tmp, h.idle, h.follows⟩
  intro j y hy
  by_cases hj : j = i
  · subst hj
    exact hx y ((setHandle_self x).symm.trans hy)
  · exact h.handles j y ((setHandle_ne x hj).symm.trans hy)

/-- An iterator variable is written together with its iteration. -/
theorem Inv.setIterator (h : Inv os q s) (i : Nat) {x : Option Iterator} {it : Option Iteration}
    (hx : (x = none ∧ it = none) ∨ ∃ p g file pre post, x = some p ∧ it = some g ∧
      os.resolve (buildPath q) = some file ∧ Follows s.store.files file p g pre post) :
    Inv os q { s with
      store := s.store.setIterator q i x
      iterations := Function.update s.iterations i it } := by
  refine ⟨h.handles, h.absent, h.current, h.tmp, ?_, ?_⟩
  · intro j hj
    by_cases hji : j = i
    · subst hji
      have hnone : x = none := (setIterator_self x).symm.trans hj
      rcases hx with ⟨-, hit⟩ | ⟨p, -, -, -, -, hp, -⟩
      · rw [← hit]
        exact Function.update_self j it s.iterations
      · rw [hnone] at hp
        cases hp
    · rw [setIterator_ne x hji] at hj
      show Function.update s.iterations i it j = none
      rw [Function.update_of_ne hji]
      exact h.idle j hj
  · intro j p hj
    by_cases hji : j = i
    · subst hji
      have hsome : x = some p := (setIterator_self x).symm.trans hj
      rcases hx with ⟨hx, -⟩ | ⟨p', g, file, pre, post, hp, hg, hfile, hfollows⟩
      · rw [hsome] at hx
        cases hx
      · rw [hsome] at hp
        cases hp
        refine ⟨file, g, pre, post, hfile, ?_, hfollows⟩
        rw [← hg]
        exact Function.update_self j it s.iterations
    · rw [setIterator_ne x hji] at hj
      obtain ⟨file, g, pre, post, hfile, hg, hfollows⟩ := h.follows j p hj
      refine ⟨file, g, pre, post, hfile, ?_, hfollows⟩
      show Function.update s.iterations i it j = some g
      rw [Function.update_of_ne hji]
      exact hg

variable {file : Path}

/-- The temporary name is not the one of the file. -/
theorem tmp_ne_file {tmp : Path} (htmp : os.resolve (tmpPath (buildPath q)) = some tmp)
    (hfile : os.resolve (buildPath q) = some file) : tmp ≠ file := fun heq =>
  os.tmp_ne _ _ hfile (heq ▸ htmp)

/-- The file is created. -/
theorem Inv.create (h : Inv os q s) (hfile : os.resolve (buildPath q) = some file)
    (hentry : s.store.files.entry file = none) :
    Inv os q { s with
      store := { s.store with files := (s.store.files.create file file).2 } } := by
  have hborn : s.store.files.born file ≤ (s.store.files.create file file).2.born file := by
    simp [Files.create]
  refine ⟨?_, ?_, ?_, ?_, h.idle, ?_⟩
  · intro i y hy
    obtain ⟨hres, hmade⟩ := h.handles i y hy
    have heq : y.file = file := Option.some.inj (hres.symm.trans hfile)
    exact ⟨hres, hmade.mono (heq ▸ hborn)⟩
  · intro file' hfile' hnone
    obtain rfl : file = file' := Option.some.inj (hfile.symm.trans hfile')
    exact h.absent file hfile hentry
  · intro file' inode hfile' hinode
    obtain rfl : file = file' := Option.some.inj (hfile.symm.trans hfile')
    have hnew : inode = ⟨file, s.store.files.born file⟩ := by
      simpa [Files.create] using hinode.symm
    subst hnew
    refine ⟨⟨rfl, by simp [Files.create]⟩, [], by simp [Files.create, writeRecords], ?_⟩
    show Holds s.map []
    rw [h.absent file hfile hentry]
    exact Holds.nil
  · intro tmp htmp
    show (s.store.files.create file file).2.entry tmp = none
    rw [Files.create_entry_ne (tmp_ne_file htmp hfile)]
    exact h.tmp tmp htmp
  · intro i p hp
    obtain ⟨file', it, pre, post, hfile', hit, hfollows⟩ := h.follows i p hp
    obtain rfl : file = file' := Option.some.inj (hfile.symm.trans hfile')
    exact ⟨file, it, pre, post, hfile, hit,
      hfollows.frame hborn (Files.create_data_ne hfollows.made.ne)⟩

/-- The file is written anew with the records of a map. -/
theorem Inv.supersede (h : Inv os q s) (hfile : os.resolve (buildPath q) = some file)
    {m : List UInt8 → Option Entry} {rs : List Record} (hrs : Holds m rs) :
    Inv os q { s with
      store := { s.store with files := s.store.files.supersede file (writeRecords rs) }
      map := m } := by
  have hborn : s.store.files.born file ≤
      (s.store.files.supersede file (writeRecords rs)).born file := by
    rw [Files.supersede_born_self]
    exact Nat.le_succ _
  refine ⟨?_, ?_, ?_, ?_, h.idle, ?_⟩
  · intro i y hy
    obtain ⟨hres, hmade⟩ := h.handles i y hy
    have heq : y.file = file := Option.some.inj (hres.symm.trans hfile)
    exact ⟨hres, hmade.mono (heq ▸ hborn)⟩
  · intro file' hfile' hnone
    obtain rfl : file = file' := Option.some.inj (hfile.symm.trans hfile')
    rw [show (s.store.files.supersede file (writeRecords rs)).entry file = _ from
      Files.supersede_entry_self _] at hnone
    cases hnone
  · intro file' inode hfile' hinode
    obtain rfl : file = file' := Option.some.inj (hfile.symm.trans hfile')
    have hnew : some _ = some inode := (Files.supersede_entry_self _).symm.trans hinode
    cases hnew
    refine ⟨⟨rfl, ?_⟩, rs, Files.supersede_data_self _, hrs⟩
    show s.store.files.born file < (s.store.files.supersede file (writeRecords rs)).born file
    rw [Files.supersede_born_self]
    exact Nat.lt_succ_self _
  · intro tmp htmp
    show (s.store.files.supersede file (writeRecords rs)).entry tmp = none
    rw [Files.supersede_entry_ne (tmp_ne_file htmp hfile)]
    exact h.tmp tmp htmp
  · intro i p hp
    obtain ⟨file', it, pre, post, hfile', hit, hfollows⟩ := h.follows i p hp
    obtain rfl : file = file' := Option.some.inj (hfile.symm.trans hfile')
    exact ⟨file, it, pre, post, hfile, hit,
      hfollows.frame hborn (Files.supersede_data_ne hfollows.made.ne _)⟩

/-- The file is emptied. -/
theorem Inv.empty (h : Inv os q s) {inode : Inode Path}
    (hfile : os.resolve (buildPath q) = some file)
    (hentry : s.store.files.entry file = some inode) :
    Inv os q {
      store := { s.store with files := s.store.files.write inode [] }
      map := fun _ => none
      iterations := fun j => (s.iterations j).map fun it => { it with cut := true } } := by
  refine ⟨?_, fun _ _ _ => rfl, ?_, h.tmp, ?_, ?_⟩
  · intro i y hy
    obtain ⟨hres, hmade⟩ := h.handles i y hy
    exact ⟨hres, ⟨hmade.owner, hmade.number⟩⟩
  · intro file' inode' hfile' hinode'
    obtain rfl : file = file' := Option.some.inj (hfile.symm.trans hfile')
    obtain rfl : inode = inode' := Option.some.inj (hentry.symm.trans hinode')
    obtain ⟨hmade, -⟩ := h.current file inode hfile hentry
    exact ⟨⟨hmade.owner, hmade.number⟩, [], Files.write_data_self inode [], Holds.nil⟩
  · intro j hj
    show (s.iterations j).map _ = none
    rw [h.idle j hj]
    rfl
  · intro j p hp
    obtain ⟨file', it, pre, post, hfile', hit, hfollows⟩ := h.follows j p hp
    refine ⟨file', { it with cut := true }, pre, post, hfile', ?_, hfollows.cut⟩
    show (s.iterations j).map _ = _
    rw [hit]
    rfl

end

/-! ### The calls -/

/-- After a call the invariant holds, and a call that failed left the contents alone. -/
structure Kept (os : Os) (q : Name) (s : Session) (i : Nat) (c : Call) : Prop where
  inv : Inv os q (s.call os q i c)
  failed : ∀ e, s.answer os q i c = .error e →
    (s.call os q i c).store.content os q = s.store.content os q

section
variable {os : Os} {q : Name} {s : Session} {t : State} {i : Nat} {c : Call} {a : Answer}

/-- A call other than `osal_storage_erase_all`. -/
theorem call_eq (hc : c ≠ .eraseAll) (hcall : s.store.call os q i c = (t, a)) :
    s.call os q i c = {
      store := t
      map := mapAfter s.map c a
      iterations := Function.update s.iterations i
        (Iteration.after s.map (s.iterations i) c a) } := by
  have hcut : ∀ it : Iteration, it.cutBy c a = it := by
    intro it
    cases c <;> first | rfl | exact absurd rfl hc
  simp only [Session.call, Session.answer, hcall, hcut]
  simp

/-- A call that has nothing to do with iterations. -/
theorem call_of_map (hit : ∀ m it, Iteration.after m it c = fun _ => it) (hc : c ≠ .eraseAll)
    (hcall : s.store.call os q i c = (t, a)) :
    s.call os q i c = { s with store := t, map := mapAfter s.map c a } := by
  rw [call_eq hc hcall, hit, Function.update_eq_self]

/-- A call that has to do with neither entries nor iterations. -/
theorem call_of_idle (hmap : ∀ m, mapAfter m c = fun _ => m)
    (hit : ∀ m it, Iteration.after m it c = fun _ => it) (hc : c ≠ .eraseAll)
    (hcall : s.store.call os q i c = (t, a)) : s.call os q i c = { s with store := t } := by
  rw [call_of_map hit hc hcall, hmap]

/-- A call that only failed. -/
theorem Kept.of_error {e : Err} (h : Inv os q s) (hc : c ≠ .eraseAll)
    (hcall : s.store.call os q i c = (s.store, .error e)) (hne : e ≠ .keyNotFound) :
    Kept os q s i c := by
  have heq : s.call os q i c = s := by
    rw [call_eq hc hcall]
    have hmap : mapAfter s.map c (.error e) = s.map := by cases c <;> rfl
    have hit : Iteration.after s.map (s.iterations i) c (.error e) = s.iterations i := by
      cases c <;> cases e <;> first | rfl | exact absurd rfl hne
    rw [hmap, hit, Function.update_eq_self]
  rw [← heq] at h
  exact ⟨h, fun _ _ => by rw [heq]⟩

/-- A call that did not change the files and succeeded or not. -/
theorem content_of_files {t : State} (h : t.files = s.store.files) :
    t.content os q = s.store.content os q := by
  rw [State.content, State.content, h]

variable (h : Inv os q s)
include h

theorem kept_open (mode : OpenMode) : Kept os q s i (.openHandle mode) := by
  have hidle : ∀ {t a}, s.store.call os q i (.openHandle mode) = (t, a) →
      s.call os q i (.openHandle mode) = { s with store := t } :=
    call_of_idle (fun _ => rfl) (fun _ _ => rfl) (by simp)
  have hsame : ∀ e, e ≠ .keyNotFound → s.store.call os q i (.openHandle mode) =
      (s.store, .error e) → Kept os q s i (.openHandle mode) :=
    fun e hne hcall => Kept.of_error h (by simp) hcall hne
  have hdone : ∀ t, s.store.call os q i (.openHandle mode) = (t, .done) →
      Inv os q { s with store := t } → Kept os q s i (.openHandle mode) := by
    intro t hcall hinv
    refine ⟨by rw [hidle hcall]; exact hinv, ?_⟩
    intro e he
    rw [Session.answer, hcall] at he
    cases he
  cases hinited : s.store.partitionInited (normalizePartitionName q.partition) with
  | false =>
    exact hsame .partitionNotFound (by simp) (by simp [State.call, osalStorageOpen, hinited])
  | true =>
    cases hfile : os.resolve (buildPath q) with
    | none =>
      cases mode with
      | readOnly =>
        refine hsame (if os.enoent (buildPath q) then .namespaceNotFound else .fail) ?_ ?_
        · split <;> simp
        · simp [State.call, osalStorageOpen, hinited, hfile]
      | readWrite =>
        exact hsame .fail (by simp) (by simp [State.call, osalStorageOpen, hinited, hfile])
    | some file =>
      cases hentry : s.store.files.entry file with
      | some inode =>
        have hmade := (h.current file inode hfile hentry).1
        cases mode with
        | readOnly =>
          refine hdone _ (by
            simp only [State.call, osalStorageOpen, hinited, hfile, hentry]
            rfl) ?_
          exact h.setHandle i _ fun y hy => by cases hy; exact ⟨hfile, hmade⟩
        | readWrite =>
          refine hdone _ (by
            simp only [State.call, osalStorageOpen, hinited, hfile,
              Files.openCreate_of_some hentry]
            rfl) ?_
          exact h.setHandle i _ fun y hy => by cases hy; exact ⟨hfile, hmade⟩
      | none =>
        cases mode with
        | readOnly =>
          exact hsame .namespaceNotFound (by simp)
            (by simp [State.call, osalStorageOpen, hinited, hfile, hentry])
        | readWrite =>
          refine hdone _ (by
            simp only [State.call, osalStorageOpen, hinited, hfile,
              Files.openCreate_of_none hentry]
            rfl) ?_
          refine (h.create hfile hentry).setHandle i _ fun y hy => ?_
          cases hy
          exact ⟨hfile, rfl, by simp [Files.create]⟩

theorem kept_close : Kept os q s i .close := by
  cases hh : s.store.handles q i with
  | none =>
    exact Kept.of_error h (by simp)
      (show s.store.call os q i .close = (s.store, .error .invalidArg) by
        simp [State.call, osalStorageClose, hh]) (by simp)
  | some y =>
    have hcall : s.store.call os q i .close = (s.store.setHandle q i none, .done) := by
      simp [State.call, osalStorageClose, hh]
    refine ⟨?_, fun e he => ?_⟩
    · rw [call_of_idle (fun _ => rfl) (fun _ _ => rfl) (by simp) hcall]
      exact h.setHandle i none fun _ hy => by cases hy
    · rw [Session.answer, hcall] at he
      cases he

/-- A call that reads only. -/
theorem Kept.of_same (hmap : ∀ m, mapAfter m c = fun _ => m)
    (hit : ∀ m it, Iteration.after m it c = fun _ => it) (hc : c ≠ .eraseAll)
    (hcall : (s.store.call os q i c).1 = s.store) : Kept os q s i c := by
  have heq : s.call os q i c = s :=
    call_of_idle hmap hit hc (Prod.ext hcall rfl : s.store.call os q i c = (s.store, _))
  refine ⟨by rw [heq]; exact h, fun _ _ => by rw [heq]⟩

theorem kept_get (key : List UInt8) (buffer : Option Nat) : Kept os q s i (.get key buffer) := by
  refine Kept.of_same h (fun _ => rfl) (fun _ _ => rfl) (by simp) ?_
  show (osalStorageGet s.store q i key buffer).1 = s.store
  rw [osalStorageGet]
  repeat' split
  all_goals rfl

theorem kept_commit : Kept os q s i .commit := by
  refine Kept.of_same h (fun _ => rfl) (fun _ _ => rfl) (by simp) ?_
  show (osalStorageCommit s.store q i).1 = s.store
  rw [osalStorageCommit]
  split <;> rfl

/-- A handle that is not older than the file reads the map. -/
theorem Inv.read {y : Handle} (hy : s.store.handles q i = some y) (hfresh : s.Fresh q i) :
    os.resolve (buildPath q) = some y.file ∧
      s.store.files.entry y.file = some y.inode ∧ Made s.store.files y.file y.inode ∧
      ∃ rs, s.store.files.data y.inode = writeRecords rs ∧ Holds s.map rs ∧
        readRecords (s.store.files.data y.inode) = some rs := by
  have hfile := (h.handles i y hy).1
  have hentry := hfresh y hy
  obtain ⟨hmade, rs, hdata, hrs⟩ := h.current y.file y.inode hfile hentry
  refine ⟨hfile, hentry, hmade, rs, hdata, hrs, ?_⟩
  rw [hdata]
  exact readRecords_writeRecords hrs.admissible

/-- The file is written anew through a handle that is not older than it. -/
theorem Inv.rewrite {y : Handle} (hy : s.store.handles q i = some y) (hfresh : s.Fresh q i)
    (key : List UInt8) (new : List Record) :
    s.store.rewrite os q i y key new = (s.store, none) ∨
      ∃ t rs, Holds s.map rs ∧ s.store.rewrite os q i y key new = (t, some rs) ∧
        s.store.content os q = some (writeRecords rs) ∧
        t.content os q =
          some (writeRecords (rs.filter (fun r => !r.isFor key) ++ new)) ∧
        ∀ m, Holds m (rs.filter (fun r => !r.isFor key) ++ new) →
          Inv os q { s with store := t, map := m } := by
  obtain ⟨hfile, hentry, hmade, rs, hdata, hrs, hread⟩ := h.read hy hfresh
  cases htmp : os.resolve (tmpPath (buildPath q)) with
  | none =>
    left
    rw [State.rewrite, htmp]
  | some tmp =>
    right
    have hrewrite : s.store.rewrite os q i y key new = _ :=
      rewrite_of_unused htmp (h.tmp tmp htmp) hmade.ne hread
    refine ⟨_, rs, hrs, hrewrite, ?_, ?_, ?_⟩
    · rw [State.content, hfile, Option.bind_some, hentry, Option.map_some, hdata]
    · rw [State.content, hfile, Option.bind_some, setHandle_files, Files.supersede_entry_self,
        Option.map_some, Files.supersede_data_self]
    · intro m hm
      refine (h.supersede hfile hm).setHandle i _ fun y' hy' => ?_
      cases hy'
      refine ⟨hfile, rfl, ?_⟩
      show s.store.files.born y.file < (s.store.files.supersede y.file _).born y.file
      rw [Files.supersede_born_self]
      exact Nat.lt_succ_self _

theorem kept_set {key value : List UInt8} {type : UInt8} (hfresh : s.Fresh q i)
    (hpos : 0 < key.length) (hlt : key.length < keyMaxLength) (hvalue : value.length < 2 ^ 32) :
    Kept os q s i (.set key value type) := by
  cases hy : s.store.handles q i with
  | none =>
    exact Kept.of_error h (by simp)
      (show s.store.call os q i (.set key value type) = (s.store, .error .invalidArg) by
        simp [State.call, osalStorageSet, hy]) (by simp)
  | some y =>
    have hkey : key.length < 2 ^ 16 := Nat.lt_trans hlt (by decide)
    rcases h.rewrite hy hfresh key [newRecord key value type] with
      hnone | ⟨t, rs, hrs, hrewrite, -, -, hinv⟩
    · exact Kept.of_error h (by simp)
        (show s.store.call os q i (.set key value type) = (s.store, .error .fail) by
          simp only [State.call, osalStorageSet, hy, hnone]) (by simp)
    · have hcall : s.store.call os q i (.set key value type) = (t, .done) := by
        simp only [State.call, osalStorageSet, hy, hrewrite]
      refine ⟨?_, fun e he => ?_⟩
      · rw [call_of_map (fun _ _ => rfl) (by simp) hcall]
        refine hinv (Function.update s.map key (some ⟨value, type⟩)) ?_
        rw [newRecord_eq type hkey hvalue]
        exact hrs.set ⟨key, value, type⟩ ⟨hpos, hlt, hvalue⟩
      · rw [Session.answer, hcall] at he
        cases he

theorem kept_erase {key : List UInt8} (hfresh : s.Fresh q i) (hkey : key.length < 2 ^ 16) :
    Kept os q s i (.erase key) := by
  cases hy : s.store.handles q i with
  | none =>
    exact Kept.of_error h (by simp)
      (show s.store.call os q i (.erase key) = (s.store, .error .invalidArg) by
        simp [State.call, osalStorageErase, hy]) (by simp)
  | some y =>
    rcases h.rewrite hy hfresh key [] with
      hnone | ⟨t, rs, hrs, hrewrite, hbefore, hafter, hinv⟩
    · exact Kept.of_error h (by simp)
        (show s.store.call os q i (.erase key) = (s.store, .error .fail) by
          simp only [State.call, osalStorageErase, hy, hnone]) (by simp)
    · have herase := hrs.erase hkey
      rw [List.append_nil] at hafter hinv
      cases hany : rs.any (Record.isFor key) with
      | true =>
        have hcall : s.store.call os q i (.erase key) = (t, .done) := by
          simp only [State.call, osalStorageErase, hy, hrewrite, hany]
          rfl
        refine ⟨?_, fun e he => ?_⟩
        · rw [call_of_map (fun _ _ => rfl) (by simp) hcall]
          exact hinv (Function.update s.map key none) herase
        · rw [Session.answer, hcall] at he
          cases he
      | false =>
        -- The records are written again as they were.
        have hfilter : rs.filter (fun r => !r.isFor key) = rs := by
          rw [List.filter_eq_self]
          intro r hr
          rw [List.any_eq_false] at hany
          simp [hany r hr]
        have hcall : s.store.call os q i (.erase key) = (t, .error .keyNotFound) := by
          simp only [State.call, osalStorageErase, hy, hrewrite, hany]
          rfl
        rw [hfilter] at hinv hafter
        have heq : s.call os q i (.erase key) = { s with store := t } :=
          call_of_map (fun _ _ => rfl) (by simp) hcall
        rw [← hbefore] at hafter
        exact ⟨by rw [heq]; exact hinv _ hrs, fun _ _ => by rw [heq]; exact hafter⟩

theorem kept_eraseAll (hfresh : s.Fresh q i) : Kept os q s i .eraseAll := by
  have hsame : ∀ e, s.store.call os q i .eraseAll = (s.store, .error e) →
      Kept os q s i .eraseAll := by
    intro e hcall
    have heq : s.call os q i .eraseAll = s := by
      have hcut : ∀ it : Iteration, it.cutBy .eraseAll (.error e) = it := fun _ => rfl
      have hit : Iteration.after s.map (s.iterations i) .eraseAll (.error e) = s.iterations i := rfl
      simp only [Session.call, Session.answer, hcall, hcut, hit, Function.update_eq_self]
      simp [mapAfter]
    exact ⟨by rw [heq]; exact h, fun _ _ => by rw [heq]⟩
  cases hy : s.store.handles q i with
  | none => exact hsame .invalidArg (by simp [State.call, osalStorageEraseAll, hy])
  | some y =>
    cases hw : y.writable with
    | false => exact hsame .fail (by simp [State.call, osalStorageEraseAll, hy, hw])
    | true =>
      have hcall : s.store.call os q i .eraseAll =
          ({ s.store with files := s.store.files.write y.inode [] }, .done) := by
        simp [State.call, osalStorageEraseAll, hy, hw]
      refine ⟨?_, fun e he => ?_⟩
      · have hcut : ∀ it : Iteration, it.cutBy .eraseAll .done = { it with cut := true } :=
          fun _ => rfl
        have hit : Iteration.after s.map (s.iterations i) .eraseAll .done = s.iterations i := rfl
        simp only [Session.call, Session.answer, hcall, hcut, hit, Function.update_eq_self]
        exact h.empty (h.handles i y hy).1 (hfresh y hy)
      · rw [Session.answer, hcall] at he
        cases he

/-- A call that moves an iterator, starts or ends it. -/
theorem Kept.of_iterator {x : Option Iterator} (hmap : ∀ m, mapAfter m c = fun _ => m)
    (hc : c ≠ .eraseAll) (hcall : s.store.call os q i c = (s.store.setIterator q i x, a))
    (hx : (x = none ∧ Iteration.after s.map (s.iterations i) c a = none) ∨
      ∃ p g file pre post, x = some p ∧ Iteration.after s.map (s.iterations i) c a = some g ∧
        os.resolve (buildPath q) = some file ∧ Follows s.store.files file p g pre post) :
    Kept os q s i c := by
  have heq := call_eq hc hcall
  rw [hmap] at heq
  refine ⟨by rw [heq]; exact h.setIterator i hx, fun _ _ => ?_⟩
  rw [heq]
  exact content_of_files rfl

theorem kept_find (type : UInt8) : Kept os q s i (.find type) := by
  have hsame : ∀ e, e ≠ .keyNotFound → s.store.call os q i (.find type) = (s.store, .error e) →
      Kept os q s i (.find type) :=
    fun e hne hcall => Kept.of_error h (by simp) hcall hne
  cases hinited : s.store.partitionInited (normalizePartitionName q.partition) with
  | false =>
    exact hsame .partitionNotFound (by simp) (by simp [State.call, osalStorageEntryFind, hinited])
  | true =>
    cases hfile : os.resolve (buildPath q) with
    | none =>
      refine hsame (if os.enoent (buildPath q) then .namespaceNotFound else .fail) ?_ ?_
      · split <;> simp
      · simp [State.call, osalStorageEntryFind, hinited, hfile]
    | some file =>
      cases hentry : s.store.files.entry file with
      | none =>
        exact hsame .namespaceNotFound (by simp)
          (by simp [State.call, osalStorageEntryFind, hinited, hfile, hentry])
      | some inode =>
        obtain ⟨hmade, rs, hdata, hrs⟩ := h.current file inode hfile hentry
        have hstart : Stands s.store.files ⟨inode, 0, type⟩
            { map := s.map, type := type, read := true } [] rs :=
          ⟨hdata, rfl, (fun hended => by cases hended), fun hread => by cases hread⟩
        have hdone : ∀ offset pre post, Holds s.map (pre ++ post) → typed type pre = [] →
            Stands s.store.files ⟨inode, offset, type⟩ { map := s.map, type := type } pre post →
            s.store.call os q i (.find type) =
              (s.store.setIterator q i (some ⟨inode, offset, type⟩), .done) →
            Kept os q s i (.find type) := by
          intro offset pre post hholds hnone hstands hcall
          refine Kept.of_iterator h (fun _ => rfl) (by simp) hcall (.inr ⟨_, _, file, pre, post,
            rfl, rfl, hfile, hmade, rfl, hholds, hnone.symm, Nat.le_refl 0, .inl hstands⟩)
        rcases hstart.seek hrs.admissible type with
          ⟨hseek, hnone⟩ | ⟨passed, r, rest, rfl, hnone, hr, hseek⟩
        · refine hdone _ rs [] (by rw [List.append_nil]; exact hrs) hnone ⟨?_, rfl, fun _ => rfl,
            fun _ => .inl rfl⟩ ?_
          · rw [List.append_nil]
            exact hdata
          · simp only [State.call, osalStorageEntryFind, hinited, hfile, hentry]
            rw [hseek]
            rfl
        · refine hdone _ passed (r :: rest) hrs hnone ⟨hdata, rfl,
            (fun hended => by cases hended), fun _ => .inr ⟨r, rest, rfl, hr⟩⟩ ?_
          simp only [State.call, osalStorageEntryFind, hinited, hfile, hentry]
          rw [hseek]
          rfl

theorem kept_getInfo (hcare : ∀ it ∈ s.iterations i, it.read = false ∨ it.ended = true) :
    Kept os q s i .getInfo ∧ s.answer os q i .getInfo ≠ .error .fail := by
  cases hp : s.store.iterators q i with
  | none =>
    have hcall : s.store.call os q i .getInfo = (s.store, .error .invalidArg) := by
      simp [State.call, osalStorageEntryGetInfo, hp]
    refine ⟨Kept.of_error h (by simp) hcall (by simp), ?_⟩
    rw [Session.answer, hcall]
    simp
  | some p =>
    obtain ⟨file, it, pre, post, hfile, hit, hfollows⟩ := h.follows i p hp
    obtain ⟨p', it', a, pre', post', hcall, hafter, hfollows', ha⟩ :=
      getInfo_follows hp hfollows (hcare it hit) s.map
    rw [← hit] at hafter
    refine ⟨Kept.of_iterator h (fun _ => rfl) (by simp) hcall
      (.inr ⟨p', it', file, pre', post', rfl, hafter, hfile, hfollows'⟩), ?_⟩
    rw [Session.answer, show s.store.call os q i .getInfo = _ from hcall]
    exact ha

theorem kept_next (hcare : ∀ it ∈ s.iterations i, it.read = true ∨ it.ended = true) :
    Kept os q s i .next ∧ s.answer os q i .next ≠ .error .fail := by
  cases hp : s.store.iterators q i with
  | none =>
    have hcall : s.store.call os q i .next = (s.store, .error .invalidArg) := by
      simp [State.call, osalStorageEntryNext, hp]
    refine ⟨Kept.of_error h (by simp) hcall (by simp), ?_⟩
    rw [Session.answer, hcall]
    simp
  | some p =>
    obtain ⟨file, it, pre, post, hfile, hit, hfollows⟩ := h.follows i p hp
    obtain ⟨p', it', a, pre', post', hcall, hafter, hfollows', ha⟩ :=
      next_follows hp hfollows (hcare it hit) s.map
    rw [← hit] at hafter
    refine ⟨Kept.of_iterator h (fun _ => rfl) (by simp) hcall
      (.inr ⟨p', it', file, pre', post', rfl, hafter, hfile, hfollows'⟩), ?_⟩
    rw [Session.answer, show s.store.call os q i .next = _ from hcall]
    exact ha

theorem kept_release : Kept os q s i .release := by
  cases hp : s.store.iterators q i with
  | none =>
    exact Kept.of_error h (by simp)
      (show s.store.call os q i .release = (s.store, .error .invalidArg) by
        simp [State.call, osalStorageReleaseIterator, hp]) (by simp)
  | some p =>
    have hcall : s.store.call os q i .release = (s.store.setIterator q i none, .done) := by
      simp [State.call, osalStorageReleaseIterator, hp]
    exact Kept.of_iterator h (fun _ => rfl) (by simp) hcall (.inl ⟨rfl, rfl⟩)

/-- Each careful call keeps the invariant. -/
theorem Inv.kept (hcare : Careful q s (.call i c)) : Kept os q s i c := by
  cases c with
  | openHandle mode => exact kept_open h mode
  | close => exact kept_close h
  | get key buffer => exact kept_get h key buffer
  | set key value type => exact kept_set h hcare.1 hcare.2.1 hcare.2.2.1 hcare.2.2.2
  | erase key => exact kept_erase h hcare.1 hcare.2
  | eraseAll => exact kept_eraseAll h hcare
  | commit => exact kept_commit h
  | find type => exact kept_find h type
  | getInfo => exact (kept_getInfo h hcare).1
  | next => exact (kept_next h hcare).1
  | release => exact kept_release h

/-- A `get` through a handle that is not older than the file looks the key up in the map. -/
theorem Inv.get {key : List UInt8} (hy : s.store.handles q i ≠ none) (hfresh : s.Fresh q i)
    (hkey : key.length < 2 ^ 16) (buffer : Option Nat) :
    s.answer os q i (.get key buffer) = getAnswer (s.map key) buffer := by
  obtain ⟨y, hy⟩ := Option.ne_none_iff_exists'.mp hy
  obtain ⟨-, -, -, rs, -, hrs, hread⟩ := h.read hy hfresh
  rw [← hrs.lastFor hkey]
  show (osalStorageGet s.store q i key buffer).2 = _
  simp only [osalStorageGet, hy, hread]
  cases lastFor key rs with
  | none => rfl
  | some r =>
    cases buffer with
    | none => rfl
    | some size =>
      show (if size < r.value.length then _ else _ : State × Answer).2 =
        if size < r.value.length then _ else _
      split <;> rfl

/-- The invariant says that the pair behaves like a map. -/
theorem Inv.mapLike : MapLike os q (Careful q) s where
  get := fun _ _ buffer hy hcare => h.get hy hcare.1 hcare.2 buffer
  failed := fun _ _ e hcare => (h.kept hcare).failed e
  readable := by
    rintro i c (rfl | rfl) hcare
    · exact (kept_getInfo h hcare).2
    · exact (kept_next h hcare).2
  iterates := by
    intro i it hit
    cases hp : s.store.iterators q i with
    | none =>
      rw [h.idle i hp] at hit
      cases hit
    | some p =>
      obtain ⟨file, it', pre, post, -, hit', hfollows⟩ := h.follows i p hp
      rw [hit] at hit'
      cases hit'
      exact hfollows.isExact

end

/-- The partition table may change. -/
theorem Inv.of_slots {os : Os} {q : Name} {s : Session} {t : State} (h : Inv os q s)
    (ht : ∃ slots, t = { s.store with slots := slots }) : Inv os q { s with store := t } := by
  obtain ⟨slots, rfl⟩ := ht
  exact h.slots slots

/-- In each state of a careful run the pair behaves like a map. -/
theorem mapLike_of_careful (os : Os) (q : Name) (s : Session)
    (h : Reach Session.Initial (Session.step os q) (Careful q) s) :
    MapLike os q (Careful q) s := by
  refine Inv.mapLike (h.inv (Inv os q) ?_ ?_)
  · rintro s rfl
    exact Inv.initial
  · intro s e t hinv hcare ht
    cases e with
    | init label =>
      cases ht
      exact hinv.of_slots (init_slots s.store label)
    | deinit label =>
      cases ht
      exact hinv.of_slots (deinit_slots s.store label)
    | call i c =>
      cases ht
      exact (hinv.kept hcare).inv

/-- The namespace `c` of the default partition. -/
def sampleName : Name := ⟨none, ⟨['c'], by decide⟩, by decide⟩

/-- Two entries are written, one of them is read, and an iteration gives the other one. -/
theorem mapLike_sample : ∃ s, MapLike flatOs sampleName (Careful sampleName) s ∧
    s.answer flatOs sampleName 0 (.get [1] (some 2)) = .value [2, 3] ∧
    (s.iterations 0).map Iteration.yielded = some [[4]] := by
  let events : List Event :=
    [.init none, .call 0 (.openHandle .readWrite), .call 0 (.set [1] [2, 3] 0),
      .call 0 (.set [4] [5] 1), .call 0 (.find 1), .call 0 .getInfo, .call 0 .next]
  have hrun : Reach Session.Initial (Session.step flatOs sampleName) (Careful sampleName) _ :=
    Reach.exec events (.start rfl) (by decide +kernel) rfl
  exact ⟨_, mapLike_of_careful flatOs sampleName _ hrun, by decide +kernel, by decide +kernel⟩

/-- The second handle does not see what was set through the first one. -/
theorem not_mapLike : ¬ ∀ os q s, Reach Session.Initial (Session.step os q) (fun _ _ => True) s →
    MapLike os q (fun _ _ => True) s := by
  intro hall
  let events : List Event :=
    [.init none, .call 0 (.openHandle .readWrite), .call 1 (.openHandle .readWrite),
      .call 0 (.set [1] [2] 0)]
  have hrun : Reach Session.Initial (Session.step flatOs sampleName) (fun _ _ => True) _ :=
    Reach.exec_true events (.start rfl) rfl
  have hget := (hall flatOs sampleName _ hrun).get 1 [1] (some 1)
    (by decide +kernel) trivial
  exact absurd hget (by decide +kernel)

end RainMakerNeo.Osal.Nvs
