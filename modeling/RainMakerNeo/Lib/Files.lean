import Mathlib.Logic.Function.Basic

/-!
# `RainMakerNeo.Lib.Files`: names, files and open descriptors

A name leads to a file through its directory entry, and an open descriptor leads to the file itself.
So a rename or an unlink changes what a name leads to and leaves open descriptors alone, while a
truncation is seen by all of them.

A file is known by the name it was made for and a number. The numbers for one name are given out in
order, so what happens to other names does not show in them.

To write a file anew, a program fills a temporary file and renames it. Where no file has the
temporary name, a new file takes the place of the old one (`rename_openTrunc`).
-/

set_option autoImplicit false

namespace RainMakerNeo.Lib

/-- A file, whatever its names are. -/
structure Inode (ν : Type*) where
  owner : ν
  number : Nat
  deriving DecidableEq, Repr

/-- A file system with the names `ν` and files of elements of `β`. -/
structure Files (ν β : Type*) where
  entry : ν → Option (Inode ν) := fun _ => none
  data : Inode ν → List β := fun _ => []
  born : ν → Nat := fun _ => 0

namespace Files

variable {ν β : Type*} [DecidableEq ν]

/-- A new file for `owner` under `name`. -/
def create (fs : Files ν β) (name owner : ν) : Inode ν × Files ν β :=
  let inode := ⟨owner, fs.born owner⟩
  (inode, { fs with
    entry := Function.update fs.entry name (some inode)
    data := Function.update fs.data inode []
    born := Function.update fs.born owner (fs.born owner + 1) })

/-- `open` with `O_CREAT`. -/
def openCreate (fs : Files ν β) (name owner : ν) : Inode ν × Files ν β :=
  match fs.entry name with
  | some inode => (inode, fs)
  | none => fs.create name owner

/-- The contents of a file are written. -/
def write (fs : Files ν β) (inode : Inode ν) (bytes : List β) : Files ν β :=
  { fs with data := Function.update fs.data inode bytes }

/-- `open` with `O_CREAT | O_TRUNC`. -/
def openTrunc (fs : Files ν β) (name owner : ν) : Inode ν × Files ν β :=
  let (inode, fs) := fs.openCreate name owner
  (inode, fs.write inode [])

/-- `unlink`. -/
def unlink (fs : Files ν β) (name : ν) : Files ν β :=
  { fs with entry := Function.update fs.entry name none }

/-- `rename`. -/
def rename (fs : Files ν β) (old new : ν) : Files ν β :=
  { fs with entry := Function.update (Function.update fs.entry old none) new (fs.entry old) }

/-- A new file takes the place of the one with the name. -/
def supersede (fs : Files ν β) (name : ν) (bytes : List β) : Files ν β where
  entry := Function.update fs.entry name (some ⟨name, fs.born name⟩)
  data := Function.update fs.data ⟨name, fs.born name⟩ bytes
  born := Function.update fs.born name (fs.born name + 1)

/-- A file is made and left without a name. -/
def skip (fs : Files ν β) (owner : ν) : Files ν β :=
  { fs with
    data := Function.update fs.data ⟨owner, fs.born owner⟩ []
    born := Function.update fs.born owner (fs.born owner + 1) }

variable {fs : Files ν β} {tmp name owner : ν}

@[simp] theorem write_entry (inode : Inode ν) (bytes : List β) :
    (fs.write inode bytes).entry = fs.entry := rfl

@[simp] theorem write_born (inode : Inode ν) (bytes : List β) :
    (fs.write inode bytes).born = fs.born := rfl

@[simp] theorem write_data_self (inode : Inode ν) (bytes : List β) :
    (fs.write inode bytes).data inode = bytes := by
  simp [write]

variable {inode : Inode ν} {other : ν}

theorem write_data_ne {other : Inode ν} (h : other ≠ inode) (bytes : List β) :
    (fs.write inode bytes).data other = fs.data other := by
  simp [write, h]

theorem openCreate_of_some (h : fs.entry name = some inode) :
    fs.openCreate name owner = (inode, fs) := by
  rw [openCreate, h]

theorem openCreate_of_none (h : fs.entry name = none) :
    fs.openCreate name owner = fs.create name owner := by
  rw [openCreate, h]

/-- After `open` with `O_CREAT` the name leads to the file. -/
theorem openCreate_entry_self :
    (fs.openCreate name owner).2.entry name = some (fs.openCreate name owner).1 := by
  cases h : fs.entry name with
  | some inode =>
    rw [openCreate_of_some h]
    exact h
  | none =>
    rw [openCreate_of_none h]
    exact Function.update_self name _ fs.entry

@[simp] theorem create_entry_self :
    (fs.create name owner).2.entry name = some ⟨owner, fs.born owner⟩ :=
  Function.update_self name _ fs.entry

@[simp] theorem create_data_self :
    (fs.create name owner).2.data ⟨owner, fs.born owner⟩ = [] := by
  simp [create]

theorem create_born_ne (h : other ≠ owner) :
    (fs.create name owner).2.born other = fs.born other := Function.update_of_ne h _ fs.born

/-- The new name leads to the file of the old one. -/
theorem rename_entry_new {old new : ν} : (fs.rename old new).entry new = fs.entry old :=
  Function.update_self new _ _

/-- The old name leads nowhere. -/
theorem rename_entry_old {old new : ν} (h : old ≠ new) : (fs.rename old new).entry old = none := by
  simp [rename, h]

/-- After `open` with `O_TRUNC` the name leads to the file. -/
theorem openTrunc_entry_self :
    (fs.openTrunc name owner).2.entry name = some (fs.openTrunc name owner).1 :=
  openCreate_entry_self

/-- A new file leaves other names alone. -/
theorem create_entry_ne (h : other ≠ name) :
    (fs.create name owner).2.entry other = fs.entry other := Function.update_of_ne h _ fs.entry

/-- A file that was made before keeps its contents. -/
theorem create_data_ne (h : inode ≠ ⟨owner, fs.born owner⟩) :
    (fs.create name owner).2.data inode = fs.data inode := by
  simp [create, h]

/-- With an unused temporary name, `open` with `O_TRUNC` makes a new file. -/
theorem openTrunc_of_none (h : fs.entry tmp = none) :
    fs.openTrunc tmp owner =
      (⟨owner, fs.born owner⟩, (fs.create tmp owner).2.write ⟨owner, fs.born owner⟩ []) := by
  rw [openTrunc, openCreate_of_none h]
  rfl

/-- A temporary file that is filled and renamed takes the place of the file. -/
theorem rename_openTrunc (h : fs.entry tmp = none) (bytes : List β) :
    ((fs.openTrunc tmp name).2.write (fs.openTrunc tmp name).1 bytes).rename tmp name =
      fs.supersede name bytes := by
  have hclear : Function.update fs.entry tmp none = fs.entry := by
    rw [← h, Function.update_eq_self]
  rw [openTrunc_of_none h]
  simp only [rename, write, create, supersede, Function.update_self, Function.update_idem]
  rw [hclear]

/-- A temporary file that is removed again is only a file that was made in between. -/
theorem unlink_openTrunc (h : fs.entry tmp = none) :
    (fs.openTrunc tmp name).2.unlink tmp = fs.skip name := by
  have hclear : Function.update fs.entry tmp none = fs.entry := by
    rw [← h, Function.update_eq_self]
  rw [openTrunc_of_none h]
  simp only [unlink, write, create, skip, Function.update_idem]
  rw [hclear]

@[simp] theorem supersede_entry_self (bytes : List β) :
    (fs.supersede name bytes).entry name = some ⟨name, fs.born name⟩ :=
  Function.update_self name _ fs.entry

theorem supersede_entry_ne (h : other ≠ name) (bytes : List β) :
    (fs.supersede name bytes).entry other = fs.entry other := Function.update_of_ne h _ fs.entry

@[simp] theorem supersede_data_self (bytes : List β) :
    (fs.supersede name bytes).data ⟨name, fs.born name⟩ = bytes := by
  simp [supersede]

/-- A file that was made before keeps its contents. -/
theorem supersede_data_ne (h : inode ≠ ⟨name, fs.born name⟩) (bytes : List β) :
    (fs.supersede name bytes).data inode = fs.data inode := by
  simp [supersede, h]

@[simp] theorem supersede_born_self (bytes : List β) :
    (fs.supersede name bytes).born name = fs.born name + 1 :=
  Function.update_self name _ fs.born

end Files

end RainMakerNeo.Lib
