import RainMakerNeo.Lib.Run
import RainMakerNeo.Osal.NvsPosix
import Mathlib.Data.Set.Insert

/-!
# `RainMakerNeo.Osal.NvsIsolation`: pairs that do not see each other

Calls on one partition and namespace should not show in what calls on another one return, and the
reset of a partition should remove its namespaces and no others (`Isolated`). No partition and an
empty label both mean the default partition.

The file of a pair is named by the partition and the namespace with a `-` between them, and both may
contain one. An empty label is only replaced by the default in some of the places. `pairs_isolated_iff`
says that a set of pairs is isolated exactly where their file names stay apart (`Apart`), and
`pairs_not_isolated` has two pairs with one file.
-/

set_option autoImplicit false

namespace RainMakerNeo.Osal.Nvs

open RainMakerNeo.Lib

/-! ### What is asked of the pairs -/

/-- What a pair means: an empty label is the default partition. -/
def Name.meaning (q : Name) : Path × CStr := (normalizePartitionName q.partition, q.nameSpace)

/-- The label of the partition fits into a slot. No other partition can be opened
(`usable_of_partitionInited`). -/
def Usable (q : Name) : Prop := (normalizePartitionName q.partition).length ≤ labelMax

/-- A call of the interface. -/
def State.step (os : Os) (s : State) (a : Action) : Option State := some (s.act os a).1

/-- No files, no partitions, no handles. -/
def State.Initial (s : State) : Prop := s = {}

/-- The calls are on these pairs. -/
def Uses (names : Set Name) (_ : State) : Action → Prop
  | .call q _ _ => q ∈ names
  | _ => True

/-- What a sequence of calls on a pair returns. -/
def results (os : Os) (q : Name) : State → List (Nat × Call) → List Answer
  | _, [] => []
  | s, (i, c) :: cs => (s.call os q i c).2 :: results os q (s.call os q i c).1 cs

/-- The pairs do not see each other, over all runs that use them. -/
structure Isolated (os : Os) (names : Set Name) (labels : Set (Option CStr)) : Prop where
  /-- A call on one pair does not show in what calls on another one return. -/
  calls : ∀ s, Reach State.Initial (State.step os) (Uses names) s →
    ∀ q ∈ names, ∀ q' ∈ names, q.meaning ≠ q'.meaning →
      ∀ i c cs, results os q' (s.call os q i c).1 cs = results os q' s cs
  /-- Two spellings of a pair have the same contents. -/
  spellings : ∀ s, Reach State.Initial (State.step os) (Uses names) s →
    ∀ q ∈ names, ∀ q' ∈ names, Usable q → Usable q' → q.meaning = q'.meaning →
      s.content os q = s.content os q'
  /-- The reset of a partition removes its namespaces and no others. -/
  reset : ∀ s, Reach State.Initial (State.step os) (Uses names) s →
    ∀ label ∈ labels, ∀ q ∈ names, Usable q →
      (osalStorageReset os s label).1.content os q =
        if normalizePartitionName label = normalizePartitionName q.partition then none
        else s.content os q

/-- The file names of the pairs stay apart. -/
structure Apart (os : Os) (names : Set Name) (labels : Set (Option CStr)) : Prop where
  /-- Two pairs have two files, and none is the temporary file of the other. -/
  files : ∀ q ∈ names, ∀ q' ∈ names, Usable q → Usable q' → q.meaning ≠ q'.meaning →
    ∀ file file', os.resolve (buildPath q) = some file → os.resolve (buildPath q') = some file' →
      file ≠ file' ∧ os.resolve (tmpPath (buildPath q)) ≠ some file'
  /-- Two spellings of a pair have one file. -/
  spellings : ∀ q ∈ names, ∀ q' ∈ names, Usable q → Usable q' → q.meaning = q'.meaning →
    os.resolve (buildPath q) = os.resolve (buildPath q')
  /-- The name of a file matches the reset of its own partition only. -/
  reset : ∀ label ∈ labels, ∀ q ∈ names, Usable q → ∀ file,
    os.resolve (buildPath q) = some file →
      (resetRemoves os label file = true ↔
        normalizePartitionName label = normalizePartitionName q.partition)

/-! ### What a call depends on and what it changes -/

/-- The file of a pair that can be opened. -/
structure FileOf (os : Os) (q : Name) (file : Path) : Prop where
  usable : Usable q
  resolve : os.resolve (buildPath q) = some file

/-- The state keeps to the files of the pairs. -/
structure Tidy (os : Os) (names : Set Name) (s : State) : Prop where
  slots : ∀ slot ∈ s.slots, slot.label.length ≤ labelMax
  entries : ∀ file inode, s.files.entry file = some inode →
    Made s.files file inode ∧ ∃ q ∈ names, FileOf os q file
  handles : ∀ q i h, s.handles q i = some h →
    q ∈ names ∧ FileOf os q h.file ∧ Made s.files h.file h.inode
  iterators : ∀ q i p, s.iterators q i = some p →
    ∃ file, q ∈ names ∧ FileOf os q file ∧ Made s.files file p.inode

/-- Two states look the same to a pair. -/
structure Alike (os : Os) (q : Name) (s t : State) : Prop where
  slots : s.slots = t.slots
  handles : s.handles q = t.handles q
  iterators : s.iterators q = t.iterators q
  entry : ∀ file, FileOf os q file → s.files.entry file = t.files.entry file
  born : ∀ file, FileOf os q file → s.files.born file = t.files.born file
  data : ∀ inode, FileOf os q inode.owner → s.files.data inode = t.files.data inode

/-- What a call does to the files. -/
inductive FileOp
  | keep
  | create (file : Path)
  | supersede (file : Path) (bytes : List UInt8)
  | empty (inode : Inode Path)
  | skip (file : Path)

/-- The files after it. -/
def FileOp.apply (fs : Files Path UInt8) : FileOp → Files Path UInt8
  | .keep => fs
  | .create file => (fs.create file file).2
  | .supersede file bytes => fs.supersede file bytes
  | .empty inode => fs.write inode []
  | .skip file => fs.skip file

/-- The file whose name or contents change. -/
def FileOp.target : FileOp → Option Path
  | .keep => none
  | .create file | .supersede file _ | .skip file => some file
  | .empty inode => some inode.owner

/-- What a call does: to the files, to its handle variable and to its iterator variable. -/
structure Effect where
  op : FileOp := .keep
  handle : Option (Option Handle) := none
  iterator : Option (Option Iterator) := none
  answer : Answer

/-- The state after the call. -/
def Effect.apply (e : Effect) (q : Name) (i : Nat) (s : State) : State where
  files := e.op.apply s.files
  slots := s.slots
  handles :=
    match e.handle with
    | some h => Function.update s.handles q (Function.update (s.handles q) i h)
    | none => s.handles
  iterators :=
    match e.iterator with
    | some p => Function.update s.iterators q (Function.update (s.iterators q) i p)
    | none => s.iterators

/-- The call keeps to the file of the pair. -/
structure Effect.Fits (os : Os) (q : Name) (s : State) (e : Effect) : Prop where
  target : ∀ file ∈ e.op.target, FileOf os q file
  handle : ∀ h, e.handle = some (some h) →
    FileOf os q h.file ∧ Made (e.op.apply s.files) h.file h.inode
  iterator : ∀ p, e.iterator = some (some p) →
    ∃ file, FileOf os q file ∧ Made (e.op.apply s.files) file p.inode

section
variable {os : Os} {names : Set Name} {labels : Set (Option CStr)} {fs fs' : Files Path UInt8}
  {op : FileOp} {file : Path} {inode : Inode Path}

/-- No number of a file is given out again. -/
theorem FileOp.born_le (op : FileOp) (fs : Files Path UInt8) (file : Path) :
    fs.born file ≤ (op.apply fs).born file := by
  have hsucc : ∀ target, fs.born file ≤
      Function.update fs.born target (fs.born target + 1) file := by
    intro target
    by_cases h : file = target
    · subst h
      rw [Function.update_self]
      exact Nat.le_succ _
    · rw [Function.update_of_ne h]
  cases op with
  | keep => exact Nat.le_refl _
  | create target => exact hsucc target
  | supersede target bytes => exact hsucc target
  | empty inode => exact Nat.le_refl _
  | skip target => exact hsucc target

/-- The name of another file is left alone. -/
theorem FileOp.entry_ne (h : ∀ target ∈ op.target, file ≠ target) :
    (op.apply fs).entry file = fs.entry file := by
  cases op with
  | keep => rfl
  | create target => exact Function.update_of_ne (h target rfl) _ _
  | supersede target bytes => exact Function.update_of_ne (h target rfl) _ _
  | empty inode => rfl
  | skip target => rfl

/-- The numbers of another file are left alone. -/
theorem FileOp.born_ne (h : ∀ target ∈ op.target, file ≠ target) :
    (op.apply fs).born file = fs.born file := by
  cases op with
  | keep => rfl
  | create target => exact Function.update_of_ne (h target rfl) _ _
  | supersede target bytes => exact Function.update_of_ne (h target rfl) _ _
  | empty inode => rfl
  | skip target => exact Function.update_of_ne (h target rfl) _ _

/-- The contents of another file are left alone. -/
theorem FileOp.data_ne (h : ∀ target ∈ op.target, inode.owner ≠ target) :
    (op.apply fs).data inode = fs.data inode := by
  have hne : ∀ (target : Path) (n : Nat), inode.owner ≠ target → inode ≠ ⟨target, n⟩ := by
    intro target n howner heq
    rw [heq] at howner
    exact howner rfl
  cases op with
  | keep => rfl
  | create target => exact Files.create_data_ne (hne target _ (h target rfl))
  | supersede target bytes => exact Files.supersede_data_ne (hne target _ (h target rfl)) bytes
  | empty other =>
    exact Files.write_data_ne (fun heq => h other.owner rfl (congrArg Inode.owner heq)) []
  | skip target => exact Function.update_of_ne (hne target _ (h target rfl)) _ _

/-- A name leads to a file that it led to before, or to a new one. -/
theorem FileOp.entry_cases (h : (op.apply fs).entry file = some inode) :
    fs.entry file = some inode ∨ op.target = some file ∧ Made (op.apply fs) file inode := by
  have hnew : ∀ target, Function.update fs.entry target (some ⟨target, fs.born target⟩) file =
      some inode → fs.entry file = some inode ∨ target = file ∧ inode = ⟨file, fs.born file⟩ := by
    intro target hentry
    by_cases hne : file = target
    · subst hne
      rw [Function.update_self] at hentry
      exact .inr ⟨rfl, (Option.some.inj hentry).symm⟩
    · rw [Function.update_of_ne hne] at hentry
      exact .inl hentry
  cases op with
  | keep => exact .inl h
  | create target =>
    rcases hnew target h with hold | ⟨rfl, rfl⟩
    · exact .inl hold
    · exact .inr ⟨rfl, rfl, by simp [FileOp.apply, Files.create]⟩
  | supersede target bytes =>
    rcases hnew target h with hold | ⟨rfl, rfl⟩
    · exact .inl hold
    · exact .inr ⟨rfl, rfl, by simp [FileOp.apply]⟩
  | empty inode => exact .inl h
  | skip target => exact .inl h

/-- Files that look the same to a pair still do after it has worked on its own. -/
theorem FileOp.congr {P : Path → Prop} (hentry : ∀ f, P f → fs.entry f = fs'.entry f)
    (hborn : ∀ f, P f → fs.born f = fs'.born f)
    (hdata : ∀ x : Inode Path, P x.owner → fs.data x = fs'.data x)
    (htarget : ∀ f ∈ op.target, P f) :
    (∀ f, P f → (op.apply fs).entry f = (op.apply fs').entry f) ∧
      (∀ f, P f → (op.apply fs).born f = (op.apply fs').born f) ∧
      ∀ x : Inode Path, P x.owner → (op.apply fs).data x = (op.apply fs').data x := by
  cases op with
  | keep => exact ⟨hentry, hborn, hdata⟩
  | empty inode =>
    refine ⟨hentry, hborn, fun x hx => ?_⟩
    show Function.update fs.data inode [] x = Function.update fs'.data inode [] x
    simp only [Function.update_apply, hdata x hx]
  | create target =>
    have hnext : fs.born target = fs'.born target := hborn target (htarget target rfl)
    refine ⟨fun f hf => ?_, fun f hf => ?_, fun x hx => ?_⟩
    · show Function.update fs.entry _ _ f = Function.update fs'.entry _ _ f
      simp only [Function.update_apply, hentry f hf, hnext]
    · show Function.update fs.born _ _ f = Function.update fs'.born _ _ f
      simp only [Function.update_apply, hborn f hf, hnext]
    · show Function.update fs.data _ _ x = Function.update fs'.data _ _ x
      simp only [Function.update_apply, hdata x hx, hnext]
  | supersede target bytes =>
    have hnext : fs.born target = fs'.born target := hborn target (htarget target rfl)
    refine ⟨fun f hf => ?_, fun f hf => ?_, fun x hx => ?_⟩
    · show Function.update fs.entry _ _ f = Function.update fs'.entry _ _ f
      simp only [Function.update_apply, hentry f hf, hnext]
    · show Function.update fs.born _ _ f = Function.update fs'.born _ _ f
      simp only [Function.update_apply, hborn f hf, hnext]
    · show Function.update fs.data _ _ x = Function.update fs'.data _ _ x
      simp only [Function.update_apply, hdata x hx, hnext]
  | skip target =>
    have hnext : fs.born target = fs'.born target := hborn target (htarget target rfl)
    refine ⟨hentry, fun f hf => ?_, fun x hx => ?_⟩
    · show Function.update fs.born _ _ f = Function.update fs'.born _ _ f
      simp only [Function.update_apply, hborn f hf, hnext]
    · show Function.update fs.data _ _ x = Function.update fs'.data _ _ x
      simp only [Function.update_apply, hdata x hx, hnext]

end

section
variable {os : Os} {names : Set Name} {labels : Set (Option CStr)} {s t : State} {q q' : Name}
  {i : Nat} {e : Effect} {file file' tmp : Path}

/-- What looks the same to a pair still does after the same effect of its own call. -/
theorem Alike.apply (h : Alike os q s t) (hfits : e.Fits os q s) :
    Alike os q (e.apply q i s) (e.apply q i t) := by
  obtain ⟨hentry, hborn, hdata⟩ := FileOp.congr h.entry h.born h.data hfits.target
  refine ⟨h.slots, ?_, ?_, hentry, hborn, hdata⟩
  · rw [Effect.apply, Effect.apply]
    cases e.handle with
    | none => exact h.handles
    | some x => simp [h.handles]
  · rw [Effect.apply, Effect.apply]
    cases e.iterator with
    | none => exact h.iterators
    | some x => simp [h.iterators]

/-- A call on a pair with another file does not show. -/
theorem Alike.other (hne : q' ≠ q) (hfits : e.Fits os q s)
    (hfiles : ∀ file file', FileOf os q file → FileOf os q' file' → file' ≠ file) :
    Alike os q' (e.apply q i s) s := by
  have htarget : ∀ file', FileOf os q' file' → ∀ target ∈ e.op.target, file' ≠ target :=
    fun file' hfile' target ht => hfiles target file' (hfits.target target ht) hfile'
  refine ⟨rfl, ?_, ?_, fun f hf => FileOp.entry_ne (htarget f hf),
    fun f hf => FileOp.born_ne (htarget f hf), fun x hx => FileOp.data_ne (htarget x.owner hx)⟩
  · rw [Effect.apply]
    cases e.handle with
    | none => rfl
    | some x => exact Function.update_of_ne hne _ _
  · rw [Effect.apply]
    cases e.iterator with
    | none => rfl
    | some x => exact Function.update_of_ne hne _ _

/-- The state keeps to the files of the pairs. -/
theorem Tidy.apply (h : Tidy os names s) (hq : q ∈ names) (hfits : e.Fits os q s) :
    Tidy os names (e.apply q i s) := by
  have hmade : ∀ {file inode}, Made s.files file inode → Made (e.op.apply s.files) file inode :=
    fun hm => hm.mono (FileOp.born_le e.op s.files _)
  refine ⟨h.slots, ?_, ?_, ?_⟩
  · intro file inode hentry
    rcases FileOp.entry_cases hentry with hold | ⟨htarget, hm⟩
    · exact ⟨hmade (h.entries file inode hold).1, (h.entries file inode hold).2⟩
    · exact ⟨hm, q, hq, hfits.target file htarget⟩
  · intro q' j x hx
    have hold : s.handles q' j = some x → q' ∈ names ∧ FileOf os q' x.file ∧
        Made (e.op.apply s.files) x.file x.inode := by
      intro hx
      obtain ⟨hq', hfile, hm⟩ := h.handles q' j x hx
      exact ⟨hq', hfile, hmade hm⟩
    rw [Effect.apply] at hx
    cases he : e.handle with
    | none =>
      rw [he] at hx
      exact hold hx
    | some y =>
      rw [he] at hx
      by_cases hqq : q' = q
      · subst hqq
        by_cases hji : j = i
        · subst hji
          have hy : y = some x := by simpa using hx
          exact ⟨hq, hfits.handle x (he.trans (congrArg some hy))⟩
        · exact hold (by simpa [hji] using hx)
      · exact hold (by simpa [hqq] using hx)
  · intro q' j x hx
    have hold : s.iterators q' j = some x → ∃ file, q' ∈ names ∧ FileOf os q' file ∧
        Made (e.op.apply s.files) file x.inode := by
      intro hx
      obtain ⟨file, hq', hfile, hm⟩ := h.iterators q' j x hx
      exact ⟨file, hq', hfile, hmade hm⟩
    rw [Effect.apply] at hx
    cases he : e.iterator with
    | none =>
      rw [he] at hx
      exact hold hx
    | some y =>
      rw [he] at hx
      by_cases hqq : q' = q
      · subst hqq
        by_cases hji : j = i
        · subst hji
          have hy : y = some x := by simpa using hx
          obtain ⟨file, hfile, hm⟩ := hfits.iterator x (he.trans (congrArg some hy))
          exact ⟨file, hq, hfile, hm⟩
        · exact hold (by simpa [hji] using hx)
      · exact hold (by simpa [hqq] using hx)

/-- Only a partition with a label that fits can be opened. -/
theorem usable_of_partitionInited (h : Tidy os names s)
    (hinited : s.partitionInited (normalizePartitionName q.partition) = true) : Usable q := by
  rw [State.partitionInited] at hinited
  cases hfind : s.slots.find? (fun slot => slot.label = normalizePartitionName q.partition) with
  | none =>
    rw [hfind] at hinited
    cases hinited
  | some slot =>
    have hlabel : slot.label = normalizePartitionName q.partition := by
      simpa using List.find?_some hfind
    have hmem := List.mem_of_find?_eq_some hfind
    rw [Usable, ← hlabel]
    exact h.slots slot hmem

/-- No file has the temporary name of a pair. -/
theorem Tidy.tmp_unused (h : Tidy os names s) (ha : Apart os names labels) (hq : q ∈ names)
    (hfile : FileOf os q file) (htmp : os.resolve (tmpPath (buildPath q)) = some tmp) :
    s.files.entry tmp = none := by
  cases hentry : s.files.entry tmp with
  | none => rfl
  | some inode =>
    obtain ⟨-, q', hq', hfile'⟩ := h.entries tmp inode hentry
    by_cases hm : q.meaning = q'.meaning
    · have hsame := ha.spellings q hq q' hq' hfile.usable hfile'.usable hm
      exact absurd htmp (os.tmp_ne _ _ (hsame.trans hfile'.resolve))
    · exact absurd htmp (ha.files q hq q' hq' hfile.usable hfile'.usable hm file tmp hfile.resolve
        hfile'.resolve).2

end

/-! ### Each call has an effect -/

/-- The call has the same effect in each state that looks the same to the pair. -/
def HasEffect (os : Os) (names : Set Name) (s : State) (q : Name) (i : Nat) (c : Call) : Prop :=
  ∃ e : Effect, e.Fits os q s ∧ ∀ t, Tidy os names t → Alike os q s t →
    t.call os q i c = (e.apply q i t, e.answer)

section
variable {os : Os} {names : Set Name} {labels : Set (Option CStr)} {s t : State} {q : Name}
  {i : Nat} {c : Call}

/-- The call changes nothing. -/
theorem HasEffect.still (a : Answer) (h : ∀ t, Alike os q s t → t.call os q i c = (t, a)) :
    HasEffect os names s q i c := by
  refine ⟨{ answer := a }, ⟨(fun _ hf => by cases hf), (fun _ hx => by cases hx),
    (fun _ hx => by cases hx)⟩, fun t _ ht => ?_⟩
  exact h t ht

/-- The call writes its handle variable. -/
theorem HasEffect.handle (x : Option Handle) (a : Answer)
    (hx : ∀ y, x = some y → FileOf os q y.file ∧ Made s.files y.file y.inode)
    (h : ∀ t, Alike os q s t → t.call os q i c = (t.setHandle q i x, a)) :
    HasEffect os names s q i c := by
  refine ⟨{ handle := some x, answer := a }, ⟨(fun _ hf => by cases hf), fun y hy => ?_,
    (fun _ hx => by cases hx)⟩, fun t _ ht => h t ht⟩
  exact hx y (Option.some.inj hy)

/-- The call writes its iterator variable. -/
theorem HasEffect.iterator (x : Option Iterator) (a : Answer)
    (hx : ∀ p, x = some p → ∃ file, FileOf os q file ∧ Made s.files file p.inode)
    (h : ∀ t, Alike os q s t → t.call os q i c = (t.setIterator q i x, a)) :
    HasEffect os names s q i c := by
  refine ⟨{ iterator := some x, answer := a }, ⟨(fun _ hf => by cases hf),
    (fun _ hx => by cases hx), fun p hp => ?_⟩, fun t _ ht => h t ht⟩
  exact hx p (Option.some.inj hp)

theorem Alike.inited (h : Alike os q s t) (label : Path) :
    t.partitionInited label = s.partitionInited label := by
  rw [State.partitionInited, State.partitionInited, h.slots]

theorem hasEffect_open (h : Tidy os names s) (mode : OpenMode) :
    HasEffect os names s q i (.openHandle mode) := by
  cases hinited : s.partitionInited (normalizePartitionName q.partition) with
  | false =>
    refine .still (.error .partitionNotFound) fun t ht => ?_
    simp [State.call, osalStorageOpen, ht.inited, hinited]
  | true =>
    have husable := usable_of_partitionInited h hinited
    cases hfile : os.resolve (buildPath q) with
    | none =>
      cases mode with
      | readOnly =>
        refine .still (.error (if os.enoent (buildPath q) then .namespaceNotFound else .fail))
          fun t ht => ?_
        simp [State.call, osalStorageOpen, ht.inited, hinited, hfile]
      | readWrite =>
        refine .still (.error .fail) fun t ht => ?_
        simp [State.call, osalStorageOpen, ht.inited, hinited, hfile]
    | some file =>
      have hof : FileOf os q file := ⟨husable, hfile⟩
      cases hentry : s.files.entry file with
      | some inode =>
        have hmade := (h.entries file inode hentry).1
        have hsame : ∀ t, Alike os q s t → t.files.entry file = some inode :=
          fun t ht => (ht.entry file hof).symm.trans hentry
        cases mode with
        | readOnly =>
          refine .handle (some ⟨file, inode, false⟩) .done ?_ fun t ht => ?_
          · intro y hy
            cases hy
            exact ⟨hof, hmade⟩
          · simp only [State.call, osalStorageOpen, ht.inited, hinited, hfile, hsame t ht]
            rfl
        | readWrite =>
          refine .handle (some ⟨file, inode, true⟩) .done ?_ fun t ht => ?_
          · intro y hy
            cases hy
            exact ⟨hof, hmade⟩
          · simp only [State.call, osalStorageOpen, ht.inited, hinited, hfile,
              Files.openCreate_of_some (hsame t ht)]
            rfl
      | none =>
        have hsame : ∀ t, Alike os q s t → t.files.entry file = none :=
          fun t ht => (ht.entry file hof).symm.trans hentry
        cases mode with
        | readOnly =>
          refine .still (.error .namespaceNotFound) fun t ht => ?_
          simp [State.call, osalStorageOpen, ht.inited, hinited, hfile, hsame t ht]
        | readWrite =>
          refine ⟨{
            op := .create file
            handle := some (some ⟨file, ⟨file, s.files.born file⟩, true⟩)
            answer := .done }, ⟨?_, ?_, (fun _ hx => by cases hx)⟩, fun t _ ht => ?_⟩
          · intro f hf
            cases hf
            exact hof
          · intro y hy
            cases hy
            exact ⟨hof, rfl, by simp [FileOp.apply, Files.create]⟩
          · simp only [State.call, osalStorageOpen, ht.inited, hinited, hfile,
              Files.openCreate_of_none (hsame t ht), Files.create, ht.born file hof]
            rfl

theorem hasEffect_close (q : Name) : HasEffect os names s q i .close := by
  cases hy : s.handles q i with
  | none =>
    refine .still (.error .invalidArg) fun t ht => ?_
    rw [ht.handles] at hy
    simp [State.call, osalStorageClose, hy]
  | some y =>
    refine .handle none .done (fun _ hx => by cases hx) fun t ht => ?_
    rw [ht.handles] at hy
    simp [State.call, osalStorageClose, hy]

theorem hasEffect_get (h : Tidy os names s) (key : List UInt8) (buffer : Option Nat) :
    HasEffect os names s q i (.get key buffer) := by
  refine .still (osalStorageGet s q i key buffer).2 fun t ht => ?_
  have hsame : ∀ x : State, (osalStorageGet x q i key buffer).1 = x := by
    intro x
    rw [osalStorageGet]
    repeat' split
    all_goals rfl
  refine Prod.ext (hsame t) ?_
  show (osalStorageGet t q i key buffer).2 = _
  cases hy : s.handles q i with
  | none =>
    have hy' := hy
    rw [ht.handles] at hy'
    simp only [osalStorageGet, hy, hy']
  | some y =>
    have hy' := hy
    rw [ht.handles] at hy'
    obtain ⟨-, hfile, hmade⟩ := h.handles q i y hy
    have hdata := ht.data y.inode (by rw [hmade.owner]; exact hfile)
    simp only [osalStorageGet, hy, hy', hdata]
    repeat' split
    all_goals rfl

theorem hasEffect_commit (q : Name) : HasEffect os names s q i .commit := by
  cases hy : s.handles q i with
  | none =>
    refine .still (.error .invalidArg) fun t ht => ?_
    rw [ht.handles] at hy
    simp [State.call, osalStorageCommit, hy]
  | some y =>
    refine .still .done fun t ht => ?_
    rw [ht.handles] at hy
    simp [State.call, osalStorageCommit, hy]

section
variable (h : Tidy os names s)
include h

/-- The file is written anew, or it is left as it is. -/
theorem hasEffect_rewrite (ha : Apart os names labels) {y : Handle} (hy : s.handles q i = some y)
    (key : List UInt8) (new : List Record) (answer : Option (List Record) → Answer)
    (hcall : ∀ t : State, t.handles q i = some y → t.call os q i c =
      ((t.rewrite os q i y key new).1, answer (t.rewrite os q i y key new).2)) :
    HasEffect os names s q i c := by
  obtain ⟨hq, hfile, hmade⟩ := h.handles q i y hy
  have hown : FileOf os q y.inode.owner := by
    rw [hmade.owner]
    exact hfile
  have hy' : ∀ t, Alike os q s t → t.handles q i = some y := by
    intro t ht
    rw [← ht.handles]
    exact hy
  have hmade' : ∀ t, Tidy os names t → Alike os q s t → Made t.files y.file y.inode :=
    fun t htidy ht => (htidy.handles q i y (hy' t ht)).2.2
  cases htmp : os.resolve (tmpPath (buildPath q)) with
  | none =>
    refine .still (answer none) fun t ht => ?_
    have hrewrite : t.rewrite os q i y key new = (t, none) := by
      rw [State.rewrite, htmp]
    rw [hcall t (hy' t ht), hrewrite]
  | some tmp =>
    have hunused : ∀ t, Tidy os names t → t.files.entry tmp = none :=
      fun t htidy => htidy.tmp_unused ha hq hfile htmp
    cases hread : readRecords (s.files.data y.inode) with
    | none =>
      refine ⟨{ op := .skip y.file, answer := answer none }, ⟨?_, (fun _ hx => by cases hx),
        (fun _ hx => by cases hx)⟩, fun t htidy ht => ?_⟩
      · intro f hf
        cases hf
        exact hfile
      · rw [ht.data y.inode hown] at hread
        rw [hcall t (hy' t ht), rewrite_of_unreadable htmp (hunused t htidy)
          (hmade' t htidy ht).ne hread]
        rfl
    | some rs =>
      refine ⟨{
        op := .supersede y.file (writeRecords (rs.filter (fun r => !r.isFor key) ++ new))
        handle := some (some ⟨y.file, ⟨y.file, s.files.born y.file⟩, true⟩)
        answer := answer (some rs) }, ⟨?_, ?_, (fun _ hx => by cases hx)⟩, fun t htidy ht => ?_⟩
      · intro f hf
        cases hf
        exact hfile
      · intro x hx
        cases hx
        exact ⟨hfile, rfl, by simp [FileOp.apply]⟩
      · rw [ht.data y.inode hown] at hread
        rw [hcall t (hy' t ht), rewrite_of_unused htmp (hunused t htidy)
          (hmade' t htidy ht).ne hread, ht.born y.file hfile]
        rfl

theorem hasEffect_set (ha : Apart os names labels) (key value : List UInt8) (type : UInt8) :
    HasEffect os names s q i (.set key value type) := by
  cases hy : s.handles q i with
  | none =>
    refine .still (.error .invalidArg) fun t ht => ?_
    rw [ht.handles] at hy
    simp [State.call, osalStorageSet, hy]
  | some y =>
    refine hasEffect_rewrite h ha hy key [newRecord key value type]
      (fun rs => if rs.isSome then .done else .error .fail) fun t hy' => ?_
    simp only [State.call, osalStorageSet, hy']
    cases hrewrite : t.rewrite os q i y key [newRecord key value type] with
    | mk t' rs => cases rs <;> rfl

theorem hasEffect_erase (ha : Apart os names labels) (key : List UInt8) :
    HasEffect os names s q i (.erase key) := by
  cases hy : s.handles q i with
  | none =>
    refine .still (.error .invalidArg) fun t ht => ?_
    rw [ht.handles] at hy
    simp [State.call, osalStorageErase, hy]
  | some y =>
    refine hasEffect_rewrite h ha hy key []
      (fun rs => match rs with
        | some rs => if rs.any (Record.isFor key) then .done else .error .keyNotFound
        | none => .error .fail) fun t hy' => ?_
    simp only [State.call, osalStorageErase, hy']
    cases hrewrite : t.rewrite os q i y key [] with
    | mk t' rs => cases rs <;> rfl

theorem hasEffect_eraseAll (q : Name) : HasEffect os names s q i .eraseAll := by
  cases hy : s.handles q i with
  | none =>
    refine .still (.error .invalidArg) fun t ht => ?_
    rw [ht.handles] at hy
    simp [State.call, osalStorageEraseAll, hy]
  | some y =>
    cases hw : y.writable with
    | false =>
      refine .still (.error .fail) fun t ht => ?_
      rw [ht.handles] at hy
      simp [State.call, osalStorageEraseAll, hy, hw]
    | true =>
      obtain ⟨-, hfile, hmade⟩ := h.handles q i y hy
      refine ⟨{ op := .empty y.inode, answer := .done }, ⟨?_, (fun _ hx => by cases hx),
        (fun _ hx => by cases hx)⟩, fun t _ ht => ?_⟩
      · intro f hf
        cases hf
        rw [hmade.owner]
        exact hfile
      · rw [ht.handles] at hy
        simp only [State.call, osalStorageEraseAll, hy, hw]
        rfl

/-- What the search of a file for a record makes of the iterator. -/
def State.afterFind (t : State) (q : Name) (i : Nat) (inode : Inode Path) (type : UInt8) :
    Seek → State × Answer
  | .found offset | .eof offset => (t.setIterator q i (some ⟨inode, offset, type⟩), .done)
  | .fail _ => (t, .error .fail)

theorem hasEffect_find (type : UInt8) : HasEffect os names s q i (.find type) := by
  cases hinited : s.partitionInited (normalizePartitionName q.partition) with
  | false =>
    refine .still (.error .partitionNotFound) fun t ht => ?_
    simp [State.call, osalStorageEntryFind, ht.inited, hinited]
  | true =>
    have husable := usable_of_partitionInited h hinited
    cases hfile : os.resolve (buildPath q) with
    | none =>
      refine .still (.error (if os.enoent (buildPath q) then .namespaceNotFound else .fail))
        fun t ht => ?_
      simp [State.call, osalStorageEntryFind, ht.inited, hinited, hfile]
    | some file =>
      have hof : FileOf os q file := ⟨husable, hfile⟩
      cases hentry : s.files.entry file with
      | none =>
        refine .still (.error .namespaceNotFound) fun t ht => ?_
        rw [ht.entry file hof] at hentry
        simp [State.call, osalStorageEntryFind, ht.inited, hinited, hfile, hentry]
      | some inode =>
        have hmade := (h.entries file inode hentry).1
        have hown : FileOf os q inode.owner := by
          rw [hmade.owner]
          exact hof
        -- Both states search the same bytes.
        have hcall : ∀ t, Alike os q s t → t.call os q i (.find type) =
            t.afterFind q i inode type (seekType type (s.files.data inode) 0) := by
          intro t ht
          rw [ht.entry file hof] at hentry
          rw [ht.data inode hown]
          simp only [State.call, osalStorageEntryFind, ht.inited, hinited, hfile, hentry]
          cases seekType type (t.files.data inode) 0 <;> rfl
        have hplace (offset : Nat) : ∀ p, some (⟨inode, offset, type⟩ : Iterator) = some p →
            ∃ file, FileOf os q file ∧ Made s.files file p.inode := by
          intro p hp
          cases hp
          exact ⟨file, hof, hmade⟩
        cases hseek : seekType type (s.files.data inode) 0 with
        | fail offset =>
          refine .still (.error .fail) fun t ht => ?_
          rw [hcall t ht, hseek, State.afterFind]
        | found offset =>
          refine .iterator (some ⟨inode, offset, type⟩) .done (hplace offset) fun t ht => ?_
          rw [hcall t ht, hseek, State.afterFind]
        | eof offset =>
          refine .iterator (some ⟨inode, offset, type⟩) .done (hplace offset) fun t ht => ?_
          rw [hcall t ht, hseek, State.afterFind]

/-- A call on an iterator moves it in its file. -/
theorem hasEffect_iterator {p : Iterator} (hp : s.iterators q i = some p)
    (move : List UInt8 → Option Nat × Answer)
    (hcall : ∀ t : State, t.iterators q i = some p → t.call os q i c =
      match move (t.files.data p.inode) with
      | (some offset, a) => (t.setIterator q i (some { p with offset := offset }), a)
      | (none, a) => (t, a)) : HasEffect os names s q i c := by
  obtain ⟨file, -, hof, hmade⟩ := h.iterators q i p hp
  have hown : FileOf os q p.inode.owner := by
    rw [hmade.owner]
    exact hof
  have hsame : ∀ t, Alike os q s t → t.call os q i c =
      match move (s.files.data p.inode) with
      | (some offset, a) => (t.setIterator q i (some { p with offset := offset }), a)
      | (none, a) => (t, a) := by
    intro t ht
    rw [ht.data p.inode hown]
    refine hcall t ?_
    rw [← ht.iterators]
    exact hp
  cases hmove : move (s.files.data p.inode) with
  | mk offset a =>
    rw [hmove] at hsame
    cases offset with
    | none => exact .still a hsame
    | some offset =>
      refine .iterator (some { p with offset := offset }) a ?_ hsame
      intro x hx
      cases hx
      exact ⟨file, hof, ⟨hmade.owner, hmade.number⟩⟩

/-- Where the read of a record leaves the iterator, and its answer. -/
def infoMove (offset : Nat) (bytes : List UInt8) : Option Nat × Answer :=
  match readNextRecord (bytes.drop offset) with
  | .eof => (none, .error .keyNotFound)
  | .fail rest => (some (offset + ((bytes.drop offset).length - rest.length)), .error .fail)
  | .ok r rest => (some (offset + ((bytes.drop offset).length - rest.length)), .key r.key)

theorem hasEffect_getInfo (q : Name) : HasEffect os names s q i .getInfo := by
  cases hp : s.iterators q i with
  | none =>
    refine .still (.error .invalidArg) fun t ht => ?_
    rw [ht.iterators] at hp
    simp [State.call, osalStorageEntryGetInfo, hp]
  | some p =>
    refine hasEffect_iterator h hp (infoMove p.offset) fun t hp' => ?_
    simp only [State.call, osalStorageEntryGetInfo, hp', infoMove]
    cases readNextRecord ((t.files.data p.inode).drop p.offset) <;> rfl

/-- Where the search for the next record leaves the iterator, and its answer. -/
def nextMove (type : UInt8) (offset : Nat) (bytes : List UInt8) : Option Nat × Answer :=
  match seekType type bytes offset with
  | .found offset => (some offset, .done)
  | .eof offset => (some offset, .error .keyNotFound)
  | .fail offset => (some offset, .error .fail)

theorem hasEffect_next (q : Name) : HasEffect os names s q i .next := by
  cases hp : s.iterators q i with
  | none =>
    refine .still (.error .invalidArg) fun t ht => ?_
    rw [ht.iterators] at hp
    simp [State.call, osalStorageEntryNext, hp]
  | some p =>
    refine hasEffect_iterator h hp (nextMove p.type p.offset) fun t hp' => ?_
    simp only [State.call, osalStorageEntryNext, hp', nextMove]
    cases seekType p.type (t.files.data p.inode) p.offset <;> rfl

end

theorem hasEffect_release (q : Name) : HasEffect os names s q i .release := by
  cases hp : s.iterators q i with
  | none =>
    refine .still (.error .invalidArg) fun t ht => ?_
    rw [ht.iterators] at hp
    simp [State.call, osalStorageReleaseIterator, hp]
  | some p =>
    refine .iterator none .done (fun _ hx => by cases hx) fun t ht => ?_
    rw [ht.iterators] at hp
    simp [State.call, osalStorageReleaseIterator, hp]

/-- Each call has an effect. -/
theorem hasEffect_call (h : Tidy os names s) (ha : Apart os names labels) (c : Call) :
    HasEffect os names s q i c := by
  cases c with
  | openHandle mode => exact hasEffect_open h mode
  | close => exact hasEffect_close q
  | get key buffer => exact hasEffect_get h key buffer
  | set key value type => exact hasEffect_set h ha key value type
  | erase key => exact hasEffect_erase h ha key
  | eraseAll => exact hasEffect_eraseAll h q
  | commit => exact hasEffect_commit q
  | find type => exact hasEffect_find h type
  | getInfo => exact hasEffect_getInfo h q
  | next => exact hasEffect_next h q
  | release => exact hasEffect_release q

/-! ### Runs -/

theorem Alike.refl (os : Os) (q : Name) (s : State) : Alike os q s s :=
  ⟨rfl, rfl, rfl, fun _ _ => rfl, fun _ _ => rfl, fun _ _ => rfl⟩

/-- A call keeps to the files of the pairs. -/
theorem Tidy.call (h : Tidy os names s) (ha : Apart os names labels) (hq : q ∈ names) (i : Nat)
    (c : Call) : Tidy os names (s.call os q i c).1 := by
  obtain ⟨e, hfits, hcall⟩ := hasEffect_call (q := q) (i := i) h ha c
  rw [hcall s h (Alike.refl os q s)]
  exact h.apply hq hfits

/-- Calls on a pair return the same in states that look the same to it. -/
theorem results_eq (ha : Apart os names labels) (hq : q ∈ names) (cs : List (Nat × Call))
    (hs : Tidy os names s) (ht : Tidy os names t) (h : Alike os q s t) :
    results os q s cs = results os q t cs := by
  induction cs generalizing s t with
  | nil => rfl
  | cons ic cs ih =>
    cases ic with
    | mk i c =>
      obtain ⟨e, hfits, hcall⟩ := hasEffect_call (q := q) (i := i) hs ha c
      have hnext : Alike os q (s.call os q i c).1 (t.call os q i c).1 := by
        rw [hcall s hs (Alike.refl os q s), hcall t ht h]
        exact h.apply hfits
      have hanswer : (s.call os q i c).2 = (t.call os q i c).2 := by
        rw [hcall s hs (Alike.refl os q s), hcall t ht h]
      rw [results, results, hanswer, ih (hs.call ha hq i c) (ht.call ha hq i c) hnext]

/-- The partition table is written with labels that fit. -/
theorem markInited_label {norm : Path} {inited : Bool} {slots : List PartitionSlot}
    (h : ∀ slot ∈ slots, slot.label.length ≤ labelMax) :
    ∀ slot ∈ markInited norm inited slots, slot.label.length ≤ labelMax := by
  induction slots with
  | nil => exact h
  | cons first rest ih =>
    have hrest : ∀ slot ∈ rest, slot.label.length ≤ labelMax :=
      fun slot hslot => h slot (List.mem_cons_of_mem first hslot)
    have hfirst := h first List.mem_cons_self
    rw [markInited]
    split
    · intro slot hslot
      rcases List.mem_cons.mp hslot with rfl | hslot
      · exact hfirst
      · exact hrest slot hslot
    · intro slot hslot
      rcases List.mem_cons.mp hslot with rfl | hslot
      · exact hfirst
      · exact ih hrest slot hslot

/-- Every state of a run keeps to the files of the pairs. -/
theorem tidy_of_reach (ha : Apart os names labels)
    (h : Reach State.Initial (State.step os) (Uses names) s) : Tidy os names s := by
  refine h.inv (Tidy os names) ?_ ?_
  · rintro s rfl
    exact ⟨fun _ hslot => absurd hslot List.not_mem_nil, (fun _ _ hx => by cases hx),
      (fun _ _ _ hx => by cases hx), fun _ _ _ hx => by cases hx⟩
  · intro s a t hs hg ht
    cases ht
    cases a with
    | call q i c => exact hs.call ha hg i c
    | init label =>
      show Tidy os names (osalStorageInit s label).1
      rw [osalStorageInit]
      split
      · exact ⟨markInited_label hs.slots, hs.entries, hs.handles, hs.iterators⟩
      · split
        · refine ⟨fun slot hslot => ?_, hs.entries, hs.handles, hs.iterators⟩
          rcases List.mem_append.mp hslot with hslot | hslot
          · exact hs.slots slot hslot
          · rw [List.mem_singleton] at hslot
            subst hslot
            exact List.length_take_le _ _
        · exact hs
    | deinit label =>
      show Tidy os names (osalStorageDeinit s label).1
      rw [osalStorageDeinit]
      split
      · exact ⟨markInited_label hs.slots, hs.entries, hs.handles, hs.iterators⟩
      · exact hs
    | reset label =>
      refine ⟨markInited_label hs.slots, ?_, ?_, ?_⟩
      · intro file inode hentry
        have hold : s.files.entry file = some inode := by
          have hif : (if resetRemoves os label file then none else s.files.entry file) =
            some inode := hentry
          split at hif
          · cases hif
          · exact hif
        obtain ⟨hm, hq⟩ := hs.entries file inode hold
        exact ⟨⟨hm.owner, hm.number⟩, hq⟩
      · intro q i y hy
        obtain ⟨hq, hfile, hm⟩ := hs.handles q i y hy
        exact ⟨hq, hfile, ⟨hm.owner, hm.number⟩⟩
      · intro q i p hp
        obtain ⟨file, hq, hfile, hm⟩ := hs.iterators q i p hp
        exact ⟨file, hq, hfile, ⟨hm.owner, hm.number⟩⟩

variable {file : Path} {q' : Name}

/-- A reset decides by the name of the file. -/
theorem content_reset (label : Option CStr) (hfile : os.resolve (buildPath q) = some file) :
    (osalStorageReset os s label).1.content os q =
      if resetRemoves os label file then none else s.content os q := by
  rw [State.content, State.content, hfile]
  show Option.map _ (if resetRemoves os label file then none else s.files.entry file) = _
  split <;> rfl

/-- Where the file names stay apart, the pairs are isolated. -/
theorem Apart.isolated (ha : Apart os names labels) : Isolated os names labels where
  calls := by
    intro s hs q hq q' hq' hne i c cs
    have htidy := tidy_of_reach ha hs
    refine results_eq ha hq' cs (htidy.call ha hq i c) htidy ?_
    obtain ⟨e, hfits, hcall⟩ := hasEffect_call (q := q) (i := i) htidy ha c
    rw [hcall s htidy (Alike.refl os q s)]
    refine Alike.other (fun heq => hne (congrArg Name.meaning heq.symm)) hfits ?_
    intro file file' hfile hfile' heq
    exact (ha.files q hq q' hq' hfile.usable hfile'.usable hne file file' hfile.resolve
      hfile'.resolve).1 heq.symm
  spellings := by
    intro s _ q hq q' hq' hu hu' hsame
    rw [State.content, State.content, ha.spellings q hq q' hq' hu hu' hsame]
  reset := by
    intro s _ label hlabel q hq hu
    cases hfile : os.resolve (buildPath q) with
    | none =>
      rw [State.content, State.content, hfile]
      split <;> rfl
    | some file =>
      have hiff := ha.reset label hlabel q hq hu file hfile
      rw [content_reset label hfile]
      by_cases hnorm : normalizePartitionName label = normalizePartitionName q.partition
      · rw [if_pos hnorm, if_pos (hiff.mpr hnorm)]
      · rw [if_neg hnorm, if_neg (fun hremoves => hnorm (hiff.mp hremoves))]

/-! ### Runs that show a collision -/

/-- The first slot with a label, after a flag was written. -/
theorem find_markInited (norm label : Path) (inited : Bool) (slots : List PartitionSlot) :
    (markInited norm inited slots).find? (fun slot => slot.label = label) =
      (slots.find? fun slot => slot.label = label).map fun slot =>
        if label = norm then { slot with inited := inited } else slot := by
  induction slots with
  | nil => rfl
  | cons first rest ih =>
    rw [markInited]
    by_cases hnorm : first.label = norm
    · rw [if_pos hnorm]
      by_cases hlabel : first.label = label
      · have heq : label = norm := hlabel.symm.trans hnorm
        simp [hlabel, heq]
      · have hne : label ≠ norm := fun heq => hlabel (hnorm.trans heq.symm)
        simp [hlabel, hne]
    · rw [if_neg hnorm]
      by_cases hlabel : first.label = label
      · have hne : label ≠ norm := fun heq => hnorm (hlabel.trans heq)
        simp [hlabel, hne]
      · simp [hlabel, ih]

/-- A partition with a label that fits can be used once it is initialised. -/
theorem inited_init {label : Option CStr}
    (hlabel : (normalizePartitionName label).length ≤ labelMax)
    (hroom : s.slots.length < partitionSlots) :
    (osalStorageInit s label).1.partitionInited (normalizePartitionName label) = true := by
  have htake : (normalizePartitionName label).take labelMax = normalizePartitionName label :=
    List.take_of_length_le hlabel
  rw [osalStorageInit]
  cases hany : s.slots.any (fun slot => slot.label = normalizePartitionName label) with
  | true =>
    rw [if_pos rfl]
    simp only [State.partitionInited, find_markInited]
    cases hfind : s.slots.find? (fun slot => slot.label = normalizePartitionName label) with
    | none =>
      rw [List.find?_eq_none] at hfind
      obtain ⟨slot, hslot, hp⟩ := List.any_eq_true.mp hany
      exact absurd hp (hfind slot hslot)
    | some slot => simp
  | false =>
    rw [if_neg Bool.false_ne_true, if_pos hroom]
    have hnone : s.slots.find? (fun slot => slot.label = normalizePartitionName label) = none := by
      rw [List.find?_eq_none]
      intro slot hslot hp
      exact List.any_eq_false.mp hany slot hslot hp
    simp [State.partitionInited, List.find?_append, hnone, htake]

/-- An initialisation leaves other partitions in use. -/
theorem inited_init_of {label : Option CStr} {norm : Path} (h : s.partitionInited norm = true) :
    (osalStorageInit s label).1.partitionInited norm = true := by
  rw [State.partitionInited] at h
  cases hfind : s.slots.find? (fun slot => slot.label = norm) with
  | none =>
    rw [hfind] at h
    cases h
  | some slot =>
    rw [hfind] at h
    rw [osalStorageInit]
    split
    · simp only [State.partitionInited, find_markInited, hfind]
      show (if norm = _ then { slot with inited := true } else slot : PartitionSlot).inited = true
      split
      · rfl
      · exact h
    · split
      · simp only [State.partitionInited, List.find?_append, hfind]
        exact h
      · simp only [State.partitionInited, hfind]
        exact h

/-- Two pairs that can be opened, before anything is stored. -/
theorem exists_base (os : Os) (names : Set Name) (hu : Usable q) (hu' : Usable q') :
    ∃ slots, Reach State.Initial (State.step os) (Uses names) { slots := slots } ∧
      ({ slots := slots } : State).partitionInited (normalizePartitionName q.partition) = true ∧
      ({ slots := slots } : State).partitionInited (normalizePartitionName q'.partition) =
        true := by
  obtain ⟨slots, hfirst⟩ := init_slots {} q.partition
  obtain ⟨slots', hsecond⟩ := init_slots { slots := slots } q'.partition
  have hroom : slots.length < partitionSlots := by
    have hslots : slots = [⟨(normalizePartitionName q.partition).take labelMax, true⟩] :=
      (congrArg State.slots hfirst).symm
    rw [hslots]
    show 1 < 16
    decide
  have hinited := inited_init (s := {}) hu (by decide)
  rw [hfirst] at hinited
  have hinited' := inited_init (s := { slots := slots }) hu' hroom
  have hkept : (osalStorageInit { slots := slots } q'.partition).1.partitionInited _ = true :=
    inited_init_of hinited
  rw [hsecond] at hinited' hkept
  refine ⟨slots', ?_, hkept, hinited'⟩
  refine .next (.next (.start rfl) (a := .init q.partition) trivial rfl)
    (a := .init q'.partition) trivial ?_
  show some (osalStorageInit (osalStorageInit {} q.partition).1 q'.partition).1 = _
  rw [hfirst, hsecond]

/-- A pair that can be opened is opened for reading if it has a file. -/
theorem open_readOnly (hinited : s.partitionInited (normalizePartitionName q.partition) = true)
    (hfile : os.resolve (buildPath q) = some file) :
    results os q s [(i, .openHandle .readOnly)] =
      [if s.files.entry file = none then .error .namespaceNotFound else .done] := by
  show [(osalStorageOpen os s q i .readOnly).2] = _
  cases hentry : s.files.entry file with
  | none => simp [osalStorageOpen, hinited, hfile, hentry]
  | some inode => simp [osalStorageOpen, hinited, hfile, hentry]

/-- A pair that can be opened is opened for writing. -/
theorem open_readWrite (hinited : s.partitionInited (normalizePartitionName q.partition) = true)
    (hfile : os.resolve (buildPath q) = some file) (i : Nat) :
    s.call os q i (.openHandle .readWrite) =
      ({ s with files := (s.files.openCreate file file).2 }.setHandle q i
        (some ⟨file, (s.files.openCreate file file).1, true⟩), .done) := by
  simp only [State.call, osalStorageOpen, hinited, hfile]
  rfl

/-- Whatever has the temporary name is taken for the file. -/
theorem rewrite_takes_tmp {y : Handle} {key : List UInt8} {new rs : List Record} {tmp : Path}
    (htmp : os.resolve (tmpPath (buildPath q)) = some tmp) (hne : tmp ≠ y.file)
    (hread : readRecords ((s.files.openTrunc tmp y.file).2.data y.inode) = some rs) :
    (s.rewrite os q i y key new).1.files.entry tmp = none := by
  have hself : ∀ inode bytes, (((s.files.openTrunc tmp y.file).2.write inode bytes).rename tmp
      y.file).entry y.file = some (s.files.openTrunc tmp y.file).1 := by
    intro inode bytes
    rw [Files.rename_entry_new, Files.write_entry, Files.openTrunc_entry_self]
  simp only [State.rewrite, htmp, hread, setHandle_files, Files.openCreate_of_some (hself _ _)]
  exact Files.rename_entry_old hne

/-- Two isolated pairs have two files. -/
theorem Isolated.files_ne (h : Isolated os names labels) (hq : q ∈ names) (hq' : q' ∈ names)
    (hu : Usable q) (hu' : Usable q') (hne : q.meaning ≠ q'.meaning)
    (hfile : os.resolve (buildPath q) = some file) : os.resolve (buildPath q') ≠ some file := by
  intro hfile'
  obtain ⟨slots, hreach, hinited, hinited'⟩ := exists_base os names hu hu'
  have hsame := h.calls _ hreach q hq q' hq' hne 0 (.openHandle .readWrite)
    [(0, .openHandle .readOnly)]
  rw [open_readWrite hinited hfile, open_readOnly hinited' hfile'] at hsame
  rw [open_readOnly (by exact hinited') hfile'] at hsame
  rw [setHandle_files, Files.openCreate_entry_self] at hsame
  exact absurd hsame (by simp)

/-- The file of a pair is not the temporary file of an isolated one. -/
theorem Isolated.tmp_ne (h : Isolated os names labels) (hq : q ∈ names) (hq' : q' ∈ names)
    (hu : Usable q) (hu' : Usable q') (hne : q.meaning ≠ q'.meaning) {file' : Path}
    (hfile : os.resolve (buildPath q) = some file)
    (hfile' : os.resolve (buildPath q') = some file') :
    os.resolve (tmpPath (buildPath q)) ≠ some file' := by
  intro htmp
  have hfiles : file' ≠ file := fun heq =>
    h.files_ne hq hq' hu hu' hne hfile (heq ▸ hfile')
  obtain ⟨slots, hreach, hinited, hinited'⟩ := exists_base os names hu hu'
  -- The other pair has its file, and this one is open.
  let first : State := (({ slots := slots } : State).call os q' 0 (.openHandle .readWrite)).1
  let second : State := (first.call os q 0 (.openHandle .readWrite)).1
  have hreach' : Reach State.Initial (State.step os) (Uses names) second :=
    .next (.next hreach (a := .call q' 0 (.openHandle .readWrite)) hq' rfl)
      (a := .call q 0 (.openHandle .readWrite)) hq rfl
  let files : Files Path UInt8 := (({} : Files Path UInt8).create file' file').2
  have hfirst : first = ({ slots := slots, files := files } : State).setHandle q' 0
      (some ⟨file', ⟨file', 0⟩, true⟩) :=
    congrArg Prod.fst (open_readWrite hinited' hfile' 0)
  have hentry : files.entry file = none := Files.create_entry_ne hfiles.symm
  have hborn : files.born file = 0 := Files.create_born_ne hfiles.symm
  have hsecond : second = { first with files := (files.create file file).2 }.setHandle q 0
      (some ⟨file, ⟨file, 0⟩, true⟩) := by
    have hinitedFirst : first.partitionInited (normalizePartitionName q.partition) = true := by
      rw [hfirst]
      exact hinited
    have hopen := congrArg Prod.fst (open_readWrite hinitedFirst hfile 0)
    have hinode : (files.create file file).1 = ⟨file, 0⟩ := congrArg (Inode.mk file) hborn
    rw [show first.files = files by rw [hfirst]; rfl, Files.openCreate_of_none hentry, hinode]
      at hopen
    exact hopen
  have hhandle : second.handles q 0 = some ⟨file, ⟨file, 0⟩, true⟩ := by
    rw [hsecond, setHandle_self]
  have hentry' : second.files.entry file' = some ⟨file', 0⟩ := by
    rw [hsecond, setHandle_files]
    show (files.create file file).2.entry file' = _
    rw [Files.create_entry_ne hfiles]
    exact Files.create_entry_self
  have hdata : second.files.data ⟨file, 0⟩ = [] := by
    rw [hsecond, setHandle_files, ← hborn]
    exact Files.create_data_self
  have hbefore : second.partitionInited (normalizePartitionName q'.partition) = true := by
    rw [hsecond, hfirst]
    exact hinited'
  -- A `set` takes the file of the other pair away.
  have hset : (second.call os q 0 (.set [1] [] 0)).1 =
      (second.rewrite os q 0 ⟨file, ⟨file, 0⟩, true⟩ [1] [newRecord [1] [] 0]).1 := by
    simp only [State.call, osalStorageSet, hhandle]
    cases hrewrite : second.rewrite os q 0 ⟨file, ⟨file, 0⟩, true⟩ [1] [newRecord [1] [] 0] with
    | mk t rs => cases rs <;> rfl
  have hread : readRecords ((second.files.openTrunc file' file).2.data ⟨file, 0⟩) = some [] := by
    rw [Files.openTrunc, Files.openCreate_of_some hentry']
    show readRecords ((second.files.write ⟨file', 0⟩ []).data ⟨file, 0⟩) = some []
    rw [Files.write_data_ne (fun heq => hfiles (congrArg Inode.owner heq).symm), hdata]
    rfl
  have hgone : (second.call os q 0 (.set [1] [] 0)).1.files.entry file' = none := by
    rw [hset]
    exact rewrite_takes_tmp htmp hfiles hread
  have hslots : (second.call os q 0 (.set [1] [] 0)).1.slots = second.slots := by
    rw [hset]
    simp only [State.rewrite, htmp, hread]
    rfl
  have hafter : (second.call os q 0 (.set [1] [] 0)).1.partitionInited
      (normalizePartitionName q'.partition) = true := by
    rw [State.partitionInited, hslots]
    exact hbefore
  have hsame := h.calls second hreach' q hq q' hq' hne 0 (.set [1] [] 0)
    [(0, .openHandle .readOnly)]
  rw [open_readOnly hafter hfile', open_readOnly hbefore hfile', hgone, hentry'] at hsame
  exact absurd hsame (by simp)

/-- After a pair was opened for writing, its file is there and no other one. -/
theorem exists_file (os : Os) (names : Set Name) (hq : q ∈ names) (hu : Usable q)
    (hfile : os.resolve (buildPath q) = some file) :
    ∃ t, Reach State.Initial (State.step os) (Uses names) t ∧ t.content os q = some [] ∧
      ∀ file', t.files.entry file' ≠ none → file' = file := by
  obtain ⟨slots, hreach, hinited, -⟩ := exists_base os names hu hu
  let t : State := (({ slots := slots } : State).call os q 0 (.openHandle .readWrite)).1
  have ht : t = ({ slots := slots, files := (({} : Files Path UInt8).create file file).2 } :
      State).setHandle q 0 (some ⟨file, ⟨file, 0⟩, true⟩) :=
    congrArg Prod.fst (open_readWrite hinited hfile 0)
  refine ⟨t, .next hreach (a := .call q 0 (.openHandle .readWrite)) hq rfl, ?_, ?_⟩
  · rw [ht, State.content, hfile, setHandle_files]
    show Option.map _ ((Files.create _ file file).2.entry file) = some []
    rw [Files.create_entry_self]
    exact congrArg some Files.create_data_self
  · intro file' hentry
    by_cases hne : file' = file
    · exact hne
    · rw [ht, setHandle_files] at hentry
      exact absurd (Files.create_entry_ne hne) hentry

/-- Two spellings of a pair have one file. -/
theorem Isolated.resolve_eq (h : Isolated os names labels) (hq : q ∈ names) (hq' : q' ∈ names)
    (hu : Usable q) (hu' : Usable q') (hsame : q.meaning = q'.meaning)
    (hfile : os.resolve (buildPath q) = some file) : os.resolve (buildPath q') = some file := by
  obtain ⟨t, hreach, hcontent, honly⟩ := exists_file os names hq hu hfile
  have hcontent' := (h.spellings t hreach q hq q' hq' hu hu' hsame).symm.trans hcontent
  rw [State.content, Option.bind_eq_some_iff] at hcontent'
  obtain ⟨file', hfile', hentry⟩ := hcontent'
  obtain ⟨inode, hinode, -⟩ := Option.map_eq_some_iff.mp hentry
  rw [hfile', honly file' (by rw [hinode]; exact Option.some_ne_none inode)]

/-- Isolated pairs have file names that stay apart. -/
theorem Isolated.apart (h : Isolated os names labels) : Apart os names labels where
  files := by
    intro q hq q' hq' hu hu' hne file file' hfile hfile'
    exact ⟨fun heq => h.files_ne hq hq' hu hu' hne hfile (heq ▸ hfile'),
      h.tmp_ne hq hq' hu hu' hne hfile hfile'⟩
  spellings := by
    intro q hq q' hq' hu hu' hsame
    cases hfile : os.resolve (buildPath q) with
    | some file => exact (h.resolve_eq hq hq' hu hu' hsame hfile).symm
    | none =>
      cases hfile' : os.resolve (buildPath q') with
      | none => rfl
      | some file =>
        rw [h.resolve_eq hq' hq hu' hu hsame.symm hfile'] at hfile
        cases hfile
  reset := by
    intro label hlabel q hq hu file hfile
    obtain ⟨t, hreach, hcontent, -⟩ := exists_file os names hq hu hfile
    have hreset := h.reset t hreach label hlabel q hq hu
    rw [content_reset label hfile, hcontent] at hreset
    by_cases hnorm : normalizePartitionName label = normalizePartitionName q.partition
    · simpa [hnorm] using hreset
    · simpa [hnorm] using hreset

end

/-- Pairs are isolated exactly where their file names stay apart. -/
theorem pairs_isolated_iff (os : Os) (names : Set Name) (labels : Set (Option CStr)) :
    Isolated os names labels ↔ Apart os names labels :=
  ⟨Isolated.apart, Apart.isolated⟩

/-- A pair of a label and a namespace. -/
def samplePair (label nameSpace : String) (hlabel : nul ∉ label.toList)
    (hspace : nul ∉ nameSpace.toList) (hne : nameSpace.toList ≠ []) : Name where
  partition := some ⟨label.toList, hlabel⟩
  nameSpace := ⟨nameSpace.toList, hspace⟩
  named := fun heq => hne (congrArg CStr.chars heq)

/-- The namespace `b-c` of the partition `a`. -/
def longSpace : Name := samplePair "a" "b-c" (by decide) (by decide) (by decide)

/-- The namespace `c` of the partition `a-b`. -/
def longLabel : Name := samplePair "a-b" "c" (by decide) (by decide) (by decide)

/-- The two pairs have one file, `a-b-c.bin`, and so they are not isolated. -/
theorem pairs_not_isolated : ¬Isolated flatOs {longSpace, longLabel} ∅ := by
  intro hisolated
  have hu : Usable longSpace := by
    unfold Usable
    decide +kernel
  have hu' : Usable longLabel := by
    unfold Usable
    decide +kernel
  have hne : longSpace.meaning ≠ longLabel.meaning := by decide +kernel
  have hfile' : flatOs.resolve (buildPath longLabel) = some (buildPath longSpace) := by
    decide +kernel
  exact hisolated.files_ne (Set.mem_insert _ _) (Set.mem_insert_of_mem _ rfl) hu hu' hne rfl hfile'

end RainMakerNeo.Osal.Nvs
