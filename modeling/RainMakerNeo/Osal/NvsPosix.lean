import RainMakerNeo.Lib.CStr
import RainMakerNeo.Lib.Files
import RainMakerNeo.Osal.NvsRecords

/-!
# `RainMakerNeo.Osal.NvsPosix`: storage in files

Each pair of a partition and a namespace has a file in the directory `nvs_persistent`. `set` and
`erase` write the file anew and rename it, `erase_all` truncates it, and a handle or an iterator
keeps the file that it was opened on.

The system that resolves paths is a parameter. All other operations on files succeed, and so do
allocations. A handle and an iterator live in a variable of the caller, which is named by the pair
and a number.
-/

set_option autoImplicit false

namespace RainMakerNeo.Osal.Nvs

open RainMakerNeo.Lib

/-! ### Names and paths -/

/-- A file system path. -/
abbrev Path := List Char

/-- A partition and a namespace. An empty namespace fails an assertion. -/
structure Name where
  partition : Option CStr
  nameSpace : CStr
  named : nameSpace ≠ .empty
  deriving DecidableEq

/-- `k_base_dir`. -/
def baseDir : Path := "nvs_persistent".toList

/-- `k_base_dir_default`. -/
def baseDirDefault : Path := "nvs".toList

/-- `normalize_partition_name`. -/
def normalizePartitionName : Option CStr → Path
  | some label => if label.chars = [] then baseDirDefault else label.chars
  | none => baseDirDefault

/-- What `build_path` puts in for the partition. -/
def pathPartition : Option CStr → Path
  | some label => label.chars
  | none => baseDirDefault

/-- `build_path`, into a field of 512 bytes. -/
def buildPath (q : Name) : Path :=
  (baseDir ++ ('/' :: (pathPartition q.partition ++
    ('-' :: (q.nameSpace.chars ++ ".bin".toList))))).take 511

/-- The path of the temporary file. -/
def tmpPath (path : Path) : Path := path ++ ".tmp".toList

/-- How the system resolves paths. A path and the one of its temporary file never lead to one
file. -/
structure Os where
  /-- The file of a path, `none` if it cannot be opened. -/
  resolve : Path → Option Path
  /-- The error is `ENOENT`. -/
  enoent : Path → Bool
  /-- The name under which the base directory lists a file. -/
  listed : Path → Option Path
  tmp_ne : ∀ path file, resolve path = some file → resolve (tmpPath path) ≠ some file

/-- A system that takes each path as it is. -/
def flatOs : Os where
  resolve := some
  enoent := fun _ => false
  listed := fun path =>
    if (baseDir ++ ['/']).isPrefixOf path && !(path.drop (baseDir.length + 1)).contains '/' then
      some (path.drop (baseDir.length + 1))
    else none
  tmp_ne := by
    intro path file h htmp
    have heq : tmpPath path = path := Option.some.inj (htmp.trans h.symm)
    have hlength := congrArg List.length heq
    rw [tmpPath, List.length_append] at hlength
    exact absurd hlength (by simp)

/-! ### The state -/

/-- `nvs_posix_partition_slot_t`, where the label is not empty. -/
structure PartitionSlot where
  label : Path
  inited : Bool
  deriving DecidableEq, Repr

/-- `nvs_posix_handle_t`. The path of the handle leads to `file`. -/
structure Handle where
  file : Path
  inode : Inode Path
  writable : Bool
  deriving DecidableEq, Repr

/-- `nvs_posix_iterator_t`. -/
structure Iterator where
  inode : Inode Path
  offset : Nat
  /-- `requested_type`. -/
  type : UInt8
  deriving DecidableEq, Repr

/-- The files, the partition table and the variables of the callers. -/
structure State where
  files : Files Path UInt8 := {}
  slots : List PartitionSlot := []
  handles : Name → Nat → Option Handle := fun _ _ => none
  iterators : Name → Nat → Option Iterator := fun _ _ => none

/-- `osal_err_t`, as far as the calls return it. -/
inductive Err
  | fail
  | invalidArg
  /-- The length that is needed is given back. -/
  | noMem (length : Nat)
  | notInitialized
  | partitionNotFound
  | namespaceNotFound
  | keyNotFound
  deriving DecidableEq, Repr

/-- What a call returns. -/
inductive Answer
  | done
  | value (bytes : List UInt8)
  | length (n : Nat)
  | key (key : List UInt8)
  | error (e : Err)
  deriving DecidableEq, Repr

/-- A handle variable is written. -/
def State.setHandle (s : State) (q : Name) (i : Nat) (h : Option Handle) : State :=
  { s with handles := Function.update s.handles q (Function.update (s.handles q) i h) }

/-- An iterator variable is written. -/
def State.setIterator (s : State) (q : Name) (i : Nat) (it : Option Iterator) : State :=
  { s with iterators := Function.update s.iterators q (Function.update (s.iterators q) i it) }

/-! ### Partitions -/

/-- The slots of the partition table, `NVS_POSIX_PARTITION_SLOTS`. -/
def partitionSlots : Nat := 16

/-- The longest label that a slot holds. -/
def labelMax : Nat := 127

/-- `partition_inited_locked`. -/
def State.partitionInited (s : State) (norm : Path) : Bool :=
  match s.slots.find? (fun slot => slot.label = norm) with
  | some slot => slot.inited
  | none => false

/-- The flag of the first slot with the label. -/
def markInited (norm : Path) (inited : Bool) : List PartitionSlot → List PartitionSlot
  | [] => []
  | slot :: rest =>
    if slot.label = norm then { slot with inited := inited } :: rest
    else slot :: markInited norm inited rest

/-- `osal_storage_init`. -/
def osalStorageInit (s : State) (label : Option CStr) : State × Answer :=
  let norm := normalizePartitionName label
  if s.slots.any (fun slot => slot.label = norm) then
    ({ s with slots := markInited norm true s.slots }, .done)
  else if s.slots.length < partitionSlots then
    ({ s with slots := s.slots ++ [⟨norm.take labelMax, true⟩] }, .done)
  else (s, .error .fail)

/-- `osal_storage_deinit`. -/
def osalStorageDeinit (s : State) (label : Option CStr) : State × Answer :=
  let norm := normalizePartitionName label
  if s.partitionInited norm then
    ({ s with slots := markInited norm false s.slots }, .done)
  else (s, .error .notInitialized)

/-- `osal_storage_reset` removes a file that the base directory lists under this name. -/
def resetMatches (label name : Path) : Bool :=
  name.head? != some '.' && decide (label.length + 1 + 4 ≤ name.length) &&
    name.take label.length == label && name[label.length]? == some '-' &&
    name.drop (name.length - 4) == ".bin".toList

/-- The reset of the label removes the file. -/
def resetRemoves (os : Os) (label : Option CStr) (file : Path) : Bool :=
  match os.listed file with
  | some name => resetMatches (normalizePartitionName label) name
  | none => false

/-- `osal_storage_reset`. -/
def osalStorageReset (os : Os) (s : State) (label : Option CStr) : State × Answer :=
  ({ s with
    files := { s.files with
      entry := fun file => if resetRemoves os label file then none else s.files.entry file }
    slots := markInited (normalizePartitionName label) false s.slots }, .done)

/-! ### Handles -/

/-- `osal_storage_open_mode_t`. -/
inductive OpenMode
  | readOnly | readWrite
  deriving DecidableEq, Repr

/-- `osal_storage_open`. -/
def osalStorageOpen (os : Os) (s : State) (q : Name) (i : Nat) (mode : OpenMode) :
    State × Answer :=
  if !s.partitionInited (normalizePartitionName q.partition) then
    (s, .error .partitionNotFound)
  else
    match os.resolve (buildPath q), mode with
    | none, .readOnly =>
      (s, .error (if os.enoent (buildPath q) then .namespaceNotFound else .fail))
    | none, .readWrite => (s, .error .fail)
    | some file, .readOnly =>
      match s.files.entry file with
      | some inode => (s.setHandle q i (some ⟨file, inode, false⟩), .done)
      | none => (s, .error .namespaceNotFound)
    | some file, .readWrite =>
      let (inode, files) := s.files.openCreate file file
      ({ s with files := files }.setHandle q i (some ⟨file, inode, true⟩), .done)

/-- `osal_storage_close`. -/
def osalStorageClose (s : State) (q : Name) (i : Nat) : State × Answer :=
  match s.handles q i with
  | some _ => (s.setHandle q i none, .done)
  | none => (s, .error .invalidArg)

/-- `osal_storage_get`. Without a buffer only the length is asked for. -/
def osalStorageGet (s : State) (q : Name) (i : Nat) (key : List UInt8) (buffer : Option Nat) :
    State × Answer :=
  match s.handles q i with
  | none => (s, .error .invalidArg)
  | some h =>
    match readRecords (s.files.data h.inode) with
    | none => (s, .error .fail)
    | some rs =>
      match lastFor key rs, buffer with
      | none, _ => (s, .error .keyNotFound)
      | some r, none => (s, .length r.value.length)
      | some r, some size =>
        if size < r.value.length then (s, .error (.noMem r.value.length))
        else (s, .value r.value)

/-- The common part of `osal_storage_set` and `osal_storage_erase`: the file is written anew without
the records for the key and with new ones, renamed and opened again. The result holds the records
that were read. -/
def State.rewrite (os : Os) (s : State) (q : Name) (i : Nat) (h : Handle) (key : List UInt8)
    (new : List Record) : State × Option (List Record) :=
  match os.resolve (tmpPath (buildPath q)) with
  | none => (s, none)
  | some tmp =>
    let (inode, opened) := s.files.openTrunc tmp h.file
    match readRecords (opened.data h.inode) with
    | none => ({ s with files := opened.unlink tmp }, none)
    | some rs =>
      let written := opened.write inode (writeRecords (rs.filter (fun r => !r.isFor key) ++ new))
      let (reopened, files) := (written.rename tmp h.file).openCreate h.file h.file
      ({ s with files := files }.setHandle q i (some ⟨h.file, reopened, true⟩), some rs)

/-- `osal_storage_set`. -/
def osalStorageSet (os : Os) (s : State) (q : Name) (i : Nat) (key value : List UInt8)
    (type : UInt8) : State × Answer :=
  match s.handles q i with
  | none => (s, .error .invalidArg)
  | some h =>
    match s.rewrite os q i h key [newRecord key value type] with
    | (s, some _) => (s, .done)
    | (s, none) => (s, .error .fail)

/-- `osal_storage_erase`. -/
def osalStorageErase (os : Os) (s : State) (q : Name) (i : Nat) (key : List UInt8) :
    State × Answer :=
  match s.handles q i with
  | none => (s, .error .invalidArg)
  | some h =>
    match s.rewrite os q i h key [] with
    | (s, some rs) => (s, if rs.any (Record.isFor key) then .done else .error .keyNotFound)
    | (s, none) => (s, .error .fail)

/-- `osal_storage_erase_all`. A file that is open for reading cannot be truncated. -/
def osalStorageEraseAll (s : State) (q : Name) (i : Nat) : State × Answer :=
  match s.handles q i with
  | none => (s, .error .invalidArg)
  | some h =>
    if h.writable then ({ s with files := s.files.write h.inode [] }, .done)
    else (s, .error .fail)

/-- `osal_storage_commit`. -/
def osalStorageCommit (s : State) (q : Name) (i : Nat) : State × Answer :=
  match s.handles q i with
  | none => (s, .error .invalidArg)
  | some _ => (s, .done)

/-! ### Iterators -/

/-- `osal_storage_entry_find`. -/
def osalStorageEntryFind (os : Os) (s : State) (q : Name) (i : Nat) (type : UInt8) :
    State × Answer :=
  if !s.partitionInited (normalizePartitionName q.partition) then
    (s, .error .partitionNotFound)
  else
    match os.resolve (buildPath q) with
    | none => (s, .error (if os.enoent (buildPath q) then .namespaceNotFound else .fail))
    | some file =>
      match s.files.entry file with
      | none => (s, .error .namespaceNotFound)
      | some inode =>
        match seekType type (s.files.data inode) 0 with
        | .found offset | .eof offset =>
          (s.setIterator q i (some ⟨inode, offset, type⟩), .done)
        | .fail _ => (s, .error .fail)

/-- `osal_storage_entry_get_info`. The record is read, so the iterator stands behind it. -/
def osalStorageEntryGetInfo (s : State) (q : Name) (i : Nat) : State × Answer :=
  match s.iterators q i with
  | none => (s, .error .invalidArg)
  | some it =>
    let bytes := (s.files.data it.inode).drop it.offset
    match readNextRecord bytes with
    | .eof => (s, .error .keyNotFound)
    | .fail rest =>
      (s.setIterator q i (some { it with offset := it.offset + (bytes.length - rest.length) }),
        .error .fail)
    | .ok r rest =>
      (s.setIterator q i (some { it with offset := it.offset + (bytes.length - rest.length) }),
        .key r.key)

/-- `osal_storage_entry_next`. -/
def osalStorageEntryNext (s : State) (q : Name) (i : Nat) : State × Answer :=
  match s.iterators q i with
  | none => (s, .error .invalidArg)
  | some it =>
    match seekType it.type (s.files.data it.inode) it.offset with
    | .found offset => (s.setIterator q i (some { it with offset := offset }), .done)
    | .eof offset => (s.setIterator q i (some { it with offset := offset }), .error .keyNotFound)
    | .fail offset => (s.setIterator q i (some { it with offset := offset }), .error .fail)

/-- `osal_storage_release_iterator`. -/
def osalStorageReleaseIterator (s : State) (q : Name) (i : Nat) : State × Answer :=
  match s.iterators q i with
  | none => (s, .error .invalidArg)
  | some _ => (s.setIterator q i none, .done)

/-! ### Runs -/

/-- A call on the handle or the iterator of a variable. -/
inductive Call
  | openHandle (mode : OpenMode)
  | close
  | get (key : List UInt8) (buffer : Option Nat)
  | set (key value : List UInt8) (type : UInt8)
  | erase (key : List UInt8)
  | eraseAll
  | commit
  | find (type : UInt8)
  | getInfo
  | next
  | release
  deriving DecidableEq, Repr

/-- A call on a pair. -/
def State.call (os : Os) (s : State) (q : Name) (i : Nat) : Call → State × Answer
  | .openHandle mode => osalStorageOpen os s q i mode
  | .close => osalStorageClose s q i
  | .get key buffer => osalStorageGet s q i key buffer
  | .set key value type => osalStorageSet os s q i key value type
  | .erase key => osalStorageErase os s q i key
  | .eraseAll => osalStorageEraseAll s q i
  | .commit => osalStorageCommit s q i
  | .find type => osalStorageEntryFind os s q i type
  | .getInfo => osalStorageEntryGetInfo s q i
  | .next => osalStorageEntryNext s q i
  | .release => osalStorageReleaseIterator s q i

/-- A call of the interface. -/
inductive Action
  | init (label : Option CStr)
  | deinit (label : Option CStr)
  | reset (label : Option CStr)
  | call (q : Name) (i : Nat) (c : Call)
  deriving DecidableEq

/-- The state after a call and what the call returns. -/
def State.act (os : Os) (s : State) : Action → State × Answer
  | .init label => osalStorageInit s label
  | .deinit label => osalStorageDeinit s label
  | .reset label => osalStorageReset os s label
  | .call q i c => s.call os q i c

/-- What the pair has in its file. -/
def State.content (os : Os) (s : State) (q : Name) : Option (List UInt8) :=
  (os.resolve (buildPath q)).bind fun file => (s.files.entry file).map s.files.data

/-! ### What the calls do to the files -/

/-- The file was made before. -/
structure Made (fs : Files Path UInt8) (file : Path) (inode : Inode Path) : Prop where
  owner : inode.owner = file
  number : inode.number < fs.born file

section
variable {os : Os} {s : State} {q q' : Name} {i j : Nat} {h : Handle} {key : List UInt8}
  {new rs : List Record} {tmp file : Path} {fs fs' : Files Path UInt8} {inode : Inode Path}

theorem Made.mono (h : Made fs file inode)
    (hborn : fs.born file ≤ fs'.born file) : Made fs' file inode where
  owner := h.owner
  number := Nat.lt_of_lt_of_le h.number hborn

/-- A file that was made before is not the next one. -/
theorem Made.ne (h : Made fs file inode) :
    inode ≠ ⟨file, fs.born file⟩ := by
  intro heq
  have hlt := h.number
  rw [heq] at hlt
  exact Nat.lt_irrefl _ hlt

@[simp] theorem setHandle_files (h : Option Handle) : (s.setHandle q i h).files = s.files := rfl

@[simp] theorem setHandle_slots (h : Option Handle) : (s.setHandle q i h).slots = s.slots := rfl

@[simp] theorem setHandle_iterators (h : Option Handle) :
    (s.setHandle q i h).iterators = s.iterators := rfl

@[simp] theorem setHandle_self (h : Option Handle) : (s.setHandle q i h).handles q i = h := by
  simp [State.setHandle]

theorem setHandle_ne (h : Option Handle) (hj : j ≠ i) :
    (s.setHandle q i h).handles q j = s.handles q j := by
  simp [State.setHandle, hj]

@[simp] theorem setIterator_files (it : Option Iterator) :
    (s.setIterator q i it).files = s.files := rfl

@[simp] theorem setIterator_slots (it : Option Iterator) :
    (s.setIterator q i it).slots = s.slots := rfl

@[simp] theorem setIterator_handles (it : Option Iterator) :
    (s.setIterator q i it).handles = s.handles := rfl

@[simp] theorem setIterator_self (it : Option Iterator) :
    (s.setIterator q i it).iterators q i = it := by
  simp [State.setIterator]

theorem setIterator_ne (it : Option Iterator) (hj : j ≠ i) :
    (s.setIterator q i it).iterators q j = s.iterators q j := by
  simp [State.setIterator, hj]

/-- A variable that is written with its value stays the same. -/
theorem setIterator_same {it : Option Iterator} (h : s.iterators q i = it) :
    s.setIterator q i it = s := by
  rw [State.setIterator, ← h, Function.update_eq_self, Function.update_eq_self]

/-- A temporary file that is opened anew does not change what a handle reads. -/
theorem openTrunc_data (hunused : fs.entry tmp = none) (hmade : inode ≠ ⟨file, fs.born file⟩) :
    (fs.openTrunc tmp file).2.data inode = fs.data inode := by
  rw [Files.openTrunc_of_none hunused, Files.write_data_ne hmade, Files.create_data_ne hmade]

/-- The file is written anew: the handle moves to a new file, which has the records that were read
without those for the key, and the new records. -/
theorem rewrite_of_unused (htmp : os.resolve (tmpPath (buildPath q)) = some tmp)
    (hunused : s.files.entry tmp = none) (hmade : h.inode ≠ ⟨h.file, s.files.born h.file⟩)
    (hread : readRecords (s.files.data h.inode) = some rs) :
    s.rewrite os q i h key new =
      ({ s with
          files := s.files.supersede h.file
            (writeRecords (rs.filter (fun r : Record => !r.isFor key) ++ new)) }.setHandle q i
        (some ⟨h.file, ⟨h.file, s.files.born h.file⟩, true⟩), some rs) := by
  have hdata := openTrunc_data hunused hmade
  have hrename : ((s.files.openTrunc tmp h.file).2.write (s.files.openTrunc tmp h.file).1
      (writeRecords (rs.filter (fun r : Record => !r.isFor key) ++ new))).rename tmp h.file = _ :=
    Files.rename_openTrunc hunused _
  simp only [State.rewrite, htmp, hdata, hread, hrename,
    Files.openCreate_of_some (Files.supersede_entry_self _)]

/-- A file that cannot be read is left as it is. -/
theorem rewrite_of_unreadable (htmp : os.resolve (tmpPath (buildPath q)) = some tmp)
    (hunused : s.files.entry tmp = none) (hmade : h.inode ≠ ⟨h.file, s.files.born h.file⟩)
    (hread : readRecords (s.files.data h.inode) = none) :
    s.rewrite os q i h key new = ({ s with files := s.files.skip h.file }, none) := by
  have hdata := openTrunc_data hunused hmade
  have hunlink : (s.files.openTrunc tmp h.file).2.unlink tmp = s.files.skip h.file :=
    Files.unlink_openTrunc hunused
  simp only [State.rewrite, htmp, hdata, hread, hunlink]

end

/-- Only the partition table changes. -/
theorem init_slots (s : State) (label : Option CStr) :
    ∃ slots, (osalStorageInit s label).1 = { s with slots := slots } := by
  rw [osalStorageInit]
  repeat' split
  · exact ⟨_, rfl⟩
  · exact ⟨_, rfl⟩
  · exact ⟨s.slots, rfl⟩

theorem deinit_slots (s : State) (label : Option CStr) :
    ∃ slots, (osalStorageDeinit s label).1 = { s with slots := slots } := by
  rw [osalStorageDeinit]
  repeat' split
  · exact ⟨_, rfl⟩
  · exact ⟨s.slots, rfl⟩

end RainMakerNeo.Osal.Nvs
