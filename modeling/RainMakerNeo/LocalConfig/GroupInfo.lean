import Mathlib.Data.List.Sort
import RainMakerNeo.Lib.Buffer
import RainMakerNeo.Lib.Memory

/-!
# `RainMakerNeo.LocalConfig.GroupInfo`: the group info string

The string is the primary id and the subgroup ids, with a hyphen in front of each. Its formatter
counts in one pass and writes in another, over an array that `qsort` has put in order in between.
The parser is a splitter of its own.

* `groupText` is the string of some ids, `formatGroupInfoStr_eq` is the formatter, and
  `groupText_perm` says that the order of the array does not matter.
* `stored` is what the parser leaves behind for some segments, and `parseGroupInfoStr_eq` is the
  parser on any string.
* `groupInfoStr_spec` puts them together.

The ids stand in buffers. What a buffer holds is the text up to its first NUL (`cString`).
-/

set_option autoImplicit false

namespace RainMakerNeo.LocalConfig

open RainMakerNeo.Lib

/-! ### The C library -/

/-- `strcmp` -/
def strcmp : List UInt8 → List UInt8 → Int
  | a :: as, b :: bs =>
    if a ≠ b then (a.toNat : Int) - b.toNat else if a = 0 then 0 else strcmp as bs
  | _, _ => 0

/-- `qsort` of an array of strings by `strcmp`. It may order equal strings as it likes. -/
structure Qsort where
  sort : List (List UInt8) → List (List UInt8)
  perm : ∀ rows, (sort rows).Perm rows
  sorted : ∀ rows, (∀ row ∈ rows, 0 ∈ row) → (sort rows).Pairwise fun a b => strcmp a b ≤ 0

/-! ### The code -/

/-- `RMAKER_CLOUD_GROUP_INFO_SUBGROUP_BUFFER_SIZE`. -/
def subgroupBufferSize : Nat := 4

def hyphen : UInt8 := 45

/-- What the two functions return. -/
inductive GroupErr
  | ok | invalidArg | noMem
  deriving DecidableEq, Repr

/-- The sizing pass over the subgroups. -/
def groupStrLen : List (List UInt8) → Nat → Option Nat
  | [], len => some len
  | row :: rows, len => do
    let subgroupLen ← strlen row 0
    groupStrLen rows (if 0 < subgroupLen then len + (subgroupLen + 1) else len)

/-- The writing pass over the subgroups: the new offset and the string. -/
def copySubgroups : List (List UInt8) → Nat → List UInt8 → Option (Nat × List UInt8)
  | [], off, str => some (off, str)
  | row :: rows, off, str => do
    let subgroupLen ← strlen row 0
    if subgroupLen = 0 then copySubgroups rows off str
    else do
      let str ← poke str off hyphen
      let bytes ← copyFrom row 0 subgroupLen
      let str ← copyTo str (off + 1) bytes
      copySubgroups rows (off + 1 + subgroupLen) str

/-- What `esp_rmaker_local_config_format_group_info_str` leaves behind: the string and the array of
the caller. -/
structure Formatted where
  groupStr : List UInt8
  subgroups : List (List UInt8)

/-- `esp_rmaker_local_config_format_group_info_str`. No pointer is NULL, and `subgroups` is empty
for a NULL array or one of no elements. -/
def formatGroupInfoStr (q : Qsort) (allocates : Bool) (primary : List UInt8)
    (subgroups : List (List UInt8)) : Option (Except GroupErr Formatted) := do
  let primaryLen ← strlen primary 0
  let len ← groupStrLen subgroups primaryLen
  if allocates then
    let str := List.replicate (len + 1) 0
    -- an empty string is returned before the array is sorted
    if len = 0 then
      let str ← poke str 0 0
      return .ok ⟨str, subgroups⟩
    else do
      let off ← strlen primary 0
      let bytes ← copyFrom primary 0 off
      let str ← copyTo str 0 bytes
      let subgroups := q.sort subgroups
      let (off, str) ← copySubgroups subgroups off str
      let str ← poke str off 0
      return .ok ⟨str, subgroups⟩
  else return .error .noMem

/-- The outputs of `esp_rmaker_local_config_parse_group_info_str`. -/
structure Parsed where
  primaryOut : List UInt8
  subgroups : Option (List (List UInt8))
  numSubgroups : Nat
  deriving DecidableEq, Repr

/-- The end of a segment of the string, at a hyphen or the NUL. -/
def takeSegment (str : List UInt8) (maxSubgroups segStart segLen segIndex : Nat) (out : Parsed) :
    Option Parsed :=
  if segIndex = 0 then do
    let segLen := if out.primaryOut.length ≤ segLen then out.primaryOut.length - 1 else segLen
    let bytes ← copyFrom str segStart segLen
    let primaryOut ← copyTo out.primaryOut 0 bytes
    let primaryOut ← poke primaryOut segLen 0
    return { out with primaryOut }
  else
    match out.subgroups with
    | none => some out
    | some rows =>
      -- an empty segment takes no slot
      if 0 < segLen ∧ out.numSubgroups < maxSubgroups then do
        let copyLen := if subgroupBufferSize ≤ segLen then subgroupBufferSize - 1 else segLen
        let row ← peek rows out.numSubgroups
        let bytes ← copyFrom str segStart copyLen
        let row ← copyTo row 0 bytes
        let row ← poke row copyLen 0
        let rows ← poke rows out.numSubgroups row
        return { out with subgroups := some rows, numSubgroups := out.numSubgroups + 1 }
      else some out

/-- The loop of `esp_rmaker_local_config_parse_group_info_str`. The index is an `int`, which no
string of less than 2 GiB wraps. -/
def parseLoop (str : List UInt8) (maxSubgroups : Nat) :
    Nat → Nat → Nat → Nat → Parsed → Option Parsed
  | 0, _, _, _, _ => none
  | fuel + 1, p, segStart, segIndex, out => do
    let c ← peek str p
    if c = hyphen ∨ c = 0 then do
      let out ← takeSegment str maxSubgroups segStart (p - segStart) segIndex out
      if c = 0 then return out
      else parseLoop str maxSubgroups fuel (p + 1) (p + 1) (segIndex + 1) out
    else parseLoop str maxSubgroups fuel (p + 1) segStart segIndex out

/-- `esp_rmaker_local_config_parse_group_info_str`. Only the pointers that the caller may leave out
can be NULL. -/
def parseGroupInfoStr (groupInfoStr : Option (List UInt8)) (maxSubgroups : Nat) (out : Parsed) :
    Option (GroupErr × Parsed) :=
  if out.primaryOut.length = 0 then some (.invalidArg, out)
  else do
    let primaryOut ← poke out.primaryOut 0 0
    let out := { out with primaryOut, numSubgroups := 0 }
    match groupInfoStr with
    | none => return (.ok, out)
    | some str =>
      let c ← peek str 0
      if c = 0 then return (.ok, out)
      else do
        let out ← parseLoop str maxSubgroups str.length 0 0 0 out
        return (.ok, out)

/-! ### Strings in buffers -/

/-- A terminated buffer is its text, a NUL and what happens to be behind it. -/
theorem exists_text {m : List UInt8} (h : 0 ∈ m) :
    ∃ junk, m = cString m ++ 0 :: junk ∧ 0 ∉ cString m := by
  obtain ⟨text, junk, rfl, htext⟩ := List.eq_append_cons_of_mem h
  have hcString : cString (text ++ 0 :: junk) = text := takeWhile_text htext junk
  rw [hcString]
  exact ⟨junk, rfl, htext⟩

theorem strlen_cString {m : List UInt8} (h : 0 ∈ m) : strlen m 0 = some (cString m).length := by
  simp [strlen, cString, h]

theorem copyFrom_cString (m : List UInt8) :
    copyFrom m 0 (cString m).length = some (cString m) := by
  have hprefix : cString m <+: m := List.takeWhile_prefix _
  rw [copyFrom, Nat.zero_add, if_pos hprefix.length_le, List.drop_zero]
  exact congrArg some (List.prefix_iff_eq_take.mp hprefix).symm

/-- The buffers are in the order of their texts. -/
theorem strcmp_nonpos_iff {a b : List UInt8} (ha : 0 ∈ a) (hb : 0 ∈ b) :
    strcmp a b ≤ 0 ↔ cString a ≤ cString b := by
  -- `strcmp` stops at the first difference or at the NUL, which both buffers have
  induction a generalizing b with
  | nil => simp at ha
  | cons c a ih =>
    cases b with
    | nil => simp at hb
    | cons d b =>
      rw [strcmp]
      by_cases hcd : c = d
      · subst hcd
        by_cases hc : c = 0
        · simp [hc, cString]
        · have ha' : 0 ∈ a := (List.mem_cons.mp ha).resolve_left (Ne.symm hc)
          have hb' : 0 ∈ b := (List.mem_cons.mp hb).resolve_left (Ne.symm hc)
          have hnext := ih ha' hb'
          simp only [cString] at hnext ⊢
          simp [hc, hnext, List.cons_le_cons_iff]
      · have hlt : (c.toNat : Int) - d.toNat ≤ 0 ↔ c < d := by
          have hne : c.toNat ≠ d.toNat := fun h => hcd (UInt8.toNat_inj.mp h)
          rw [UInt8.lt_iff_toNat_lt]
          omega
        rw [if_pos hcd, hlt]
        by_cases hc : c = 0
        · have hd : d ≠ 0 := fun hd => hcd (hc.trans hd.symm)
          have hpos : (0 : UInt8) < d := by
            rw [UInt8.lt_iff_toNat_lt]
            exact Nat.pos_of_ne_zero fun h => hd (UInt8.toNat_inj.mp h)
          simp [hc, cString, hpos]
        · by_cases hd : d = 0
          · simp [hd, cString, hc]
          · simp [cString, hc, hd, List.cons_le_cons_iff, hcd]

/-- Insertion is one way to sort. -/
instance : Inhabited Qsort where
  default :=
    { sort := List.insertionSort fun a b => cString a ≤ cString b
      perm := List.perm_insertionSort _
      sorted := by
        intro rows hrows
        have htotal : Std.Total fun a b : List UInt8 => cString a ≤ cString b :=
          ⟨fun a b => List.le_total (cString a) (cString b)⟩
        have htrans : IsTrans (List UInt8) fun a b => cString a ≤ cString b :=
          ⟨fun _ _ _ => List.le_trans⟩
        refine (List.pairwise_insertionSort _ rows).imp_of_mem fun {a b} ha hb hab => ?_
        exact (strcmp_nonpos_iff (hrows a ((List.perm_insertionSort _ rows).mem_iff.mp ha))
          (hrows b ((List.perm_insertionSort _ rows).mem_iff.mp hb))).mpr hab }

/-! ### The formatter -/

/-- The string of a primary id and of subgroup ids in the order in which they are written. -/
def groupText (primary : List UInt8) (ids : List (List UInt8)) : List UInt8 :=
  primary ++ ((ids.filter (· ≠ [])).map (hyphen :: ·)).flatten

variable {rows ids : List (List UInt8)} {primary : List UInt8}

/-- The sizing pass counts the text, in any order of the array. -/
theorem groupStrLen_eq (hrows : ∀ row ∈ rows, 0 ∈ row) (primary : List UInt8) (len : Nat)
    (hlen : len = primary.length) :
    groupStrLen rows len = some (groupText primary (rows.map cString)).length := by
  induction rows generalizing primary len with
  | nil => simp [groupStrLen, groupText, hlen]
  | cons row rows ih =>
    have hrest : ∀ row ∈ rows, 0 ∈ row := fun r hr => hrows r (by simp [hr])
    rw [groupStrLen, strlen_cString (hrows row (by simp)), Option.bind_eq_bind, Option.bind_some]
    by_cases hempty : cString row = []
    · rw [hempty, List.length_nil, if_neg (by omega), ih hrest primary len hlen]
      simp [groupText, hempty]
    · have hpos := List.length_pos_of_ne_nil hempty
      rw [if_pos hpos, ih hrest (primary ++ hyphen :: cString row) _ (by simp [hlen])]
      simp [groupText, hempty]

/-- The writing pass writes what the sizing pass counts. -/
theorem copySubgroups_eq (hrows : ∀ row ∈ rows, 0 ∈ row) (w hole rest : List UInt8)
    (hhole : w.length + hole.length = (groupText w (rows.map cString)).length) :
    copySubgroups rows w.length (w ++ (hole ++ rest))
      = some ((groupText w (rows.map cString)).length, groupText w (rows.map cString) ++ rest) := by
  induction rows generalizing w hole with
  | nil =>
    have hnil : hole = [] := by simpa [groupText] using hhole
    simp [copySubgroups, groupText, hnil]
  | cons row rows ih =>
    have hrest : ∀ row ∈ rows, 0 ∈ row := fun r hr => hrows r (by simp [hr])
    rw [copySubgroups, strlen_cString (hrows row (by simp)), Option.bind_eq_bind, Option.bind_some]
    -- both passes skip an empty subgroup
    by_cases hempty : cString row = []
    · have htext : groupText w ((row :: rows).map cString) = groupText w (rows.map cString) := by
        simp [groupText, hempty]
      rw [htext] at hhole ⊢
      rw [hempty, List.length_nil, if_pos rfl, ih hrest w hole hhole]
    · have htext : groupText w ((row :: rows).map cString)
          = groupText (w ++ hyphen :: cString row) (rows.map cString) := by
        simp [groupText, hempty]
      have hlen : (groupText (w ++ hyphen :: cString row) (rows.map cString)).length
          = w.length + 1 + (cString row).length
            + (groupText [] (rows.map cString)).length := by
        simp [groupText]
        omega
      -- the cell of the hyphen, those of the id and those of the ids behind it
      rw [htext] at hhole
      obtain ⟨h, more, rfl⟩ := List.exists_cons_of_length_pos (by omega : 0 < hole.length)
      rw [List.length_cons] at hhole
      obtain ⟨old, hole, rfl, hold⟩ := exists_front
        (by omega : (cString row).length ≤ more.length)
      have hhyphen : poke (w ++ h :: (old ++ (hole ++ rest))) w.length hyphen
          = some (w ++ hyphen :: (old ++ (hole ++ rest))) := poke_at h hyphen rfl
      have hcopy : copyTo (w ++ hyphen :: (old ++ (hole ++ rest))) (w.length + 1) (cString row)
          = some (w ++ hyphen :: (cString row ++ (hole ++ rest))) := by
        simpa using copyTo_at (p := w ++ [hyphen]) (q := hole ++ rest) (i := w.length + 1) hold
          (by simp)
      have hoff : w.length + 1 + (cString row).length = (w ++ hyphen :: cString row).length := by
        simp
        omega
      have hnext := ih hrest (w ++ hyphen :: cString row) hole (by
        rw [← hhole, ← hoff, List.length_append, hold]
        omega)
      simp only [List.append_assoc, List.cons_append] at hnext
      rw [if_neg (by simpa using hempty)]
      simp only [List.append_assoc, List.cons_append, hhyphen, copyFrom_cString, hcopy, hoff,
        Option.bind_eq_bind, Option.bind_some, hnext, htext]

variable {ids' : List (List UInt8)}

/-- The text does not depend on the order that the array has before it is sorted. -/
theorem sortedTexts_unique (hperm : ids.Perm ids') (hsorted : ids.Pairwise (· ≤ ·))
    (hsorted' : ids'.Pairwise (· ≤ ·)) : ids = ids' :=
  hperm.eq_of_pairwise (fun _ _ _ _ => List.le_antisymm) hsorted hsorted'

/-- What `qsort` does to the texts. -/
theorem sort_texts (q : Qsort) (hrows : ∀ row ∈ rows, 0 ∈ row) :
    ((q.sort rows).map cString).Perm (rows.map cString) ∧
      ((q.sort rows).map cString).Pairwise (· ≤ ·) := by
  have hperm := q.perm rows
  refine ⟨hperm.map cString, List.pairwise_map.mpr ((q.sorted rows hrows).imp_of_mem ?_)⟩
  intro a b ha hb hab
  exact (strcmp_nonpos_iff (hrows a (hperm.mem_iff.mp ha)) (hrows b (hperm.mem_iff.mp hb))).mp hab

theorem length_groupText_perm (hperm : ids.Perm ids') (primary : List UInt8) :
    (groupText primary ids).length = (groupText primary ids').length := by
  have hflat := ((hperm.filter (· ≠ [])).map (hyphen :: ·)).flatten
  rw [groupText, groupText, List.length_append, List.length_append, hflat.length_eq]

/-- The formatter fills a block of the counted size with the text of the sorted ids and a NUL. -/
theorem formatGroupInfoStr_eq (q : Qsort) (hprimary : 0 ∈ primary) (hrows : ∀ row ∈ rows, 0 ∈ row) :
    ∃ rows', formatGroupInfoStr q true primary rows = some (.ok
      ⟨groupText (cString primary) ((q.sort rows).map cString) ++ [0], rows'⟩) := by
  have hsorted : ∀ row ∈ q.sort rows, 0 ∈ row :=
    fun row hrow => hrows row ((q.perm rows).mem_iff.mp hrow)
  have hlen := length_groupText_perm (sort_texts q hrows).1 (cString primary)
  rw [formatGroupInfoStr, strlen_cString hprimary, Option.bind_eq_bind, Option.bind_some,
    groupStrLen_eq hrows (cString primary) _ rfl, ← hlen, Option.bind_eq_bind, Option.bind_some,
    if_pos rfl]
  generalize htext : groupText (cString primary) ((q.sort rows).map cString) = text
  by_cases hempty : text.length = 0
  · refine ⟨rows, ?_⟩
    rw [if_pos hempty, List.eq_nil_of_length_eq_zero hempty]
    rfl
  · refine ⟨q.sort rows, ?_⟩
    have hle : (cString primary).length ≤ text.length := by
      rw [← htext, groupText, List.length_append]
      omega
    obtain ⟨n, hn⟩ := Nat.exists_eq_add_of_le hle
    have hblock : List.replicate (text.length + 1) (0 : UInt8)
        = List.replicate (cString primary).length 0 ++ (List.replicate n 0 ++ [0]) := by
      rw [hn, Nat.add_assoc, List.replicate_add, List.replicate_succ']
    have hcopy : copyTo (List.replicate (text.length + 1) (0 : UInt8)) 0 (cString primary)
        = some (cString primary ++ (List.replicate n 0 ++ [0])) := by
      rw [hblock]
      exact copyTo_at (p := []) List.length_replicate rfl
    have hwrite := copySubgroups_eq hsorted (cString primary) (List.replicate n 0) [0]
      (by rw [htext, List.length_replicate, hn])
    rw [htext] at hwrite
    have hnul : poke (text ++ [0]) text.length 0 = some (text ++ [0]) := poke_at 0 0 rfl
    rw [if_neg hempty]
    simp [copyFrom_cString, hcopy, hwrite, hnul]

/-! ### The parser -/

/-- A text and a NUL over the first cells of a buffer. -/
def putText (cells text : List UInt8) : List UInt8 := text ++ 0 :: cells.drop (text.length + 1)

/-- What the parser does with one segment. -/
def store (maxSubgroups segIndex : Nat) (seg : List UInt8) (out : Parsed) : Parsed :=
  if segIndex = 0 then
    { out with primaryOut := putText out.primaryOut (seg.take (out.primaryOut.length - 1)) }
  else
    match out.subgroups with
    | none => out
    | some rows =>
      if seg ≠ [] ∧ out.numSubgroups < maxSubgroups then
        { out with
          subgroups := some
            (rows.modify out.numSubgroups (putText · (seg.take (subgroupBufferSize - 1))))
          numSubgroups := out.numSubgroups + 1 }
      else out

/-- What it does with all of them. -/
def storeAll (maxSubgroups : Nat) : Nat → List (List UInt8) → Parsed → Parsed
  | _, [], out => out
  | segIndex, seg :: segs, out =>
    storeAll maxSubgroups (segIndex + 1) segs (store maxSubgroups segIndex seg out)

/-- The sizes that the caller promises. -/
structure Sized (maxSubgroups : Nat) (out : Parsed) : Prop where
  primaryOut : out.primaryOut ≠ []
  slots : ∀ rows, out.subgroups = some rows → maxSubgroups ≤ rows.length
  slotSize : ∀ rows, out.subgroups = some rows → ∀ row ∈ rows, row.length = subgroupBufferSize

/-- A text that fits is written into its buffer. -/
theorem putText_eq (cells text : List UInt8) (hfits : text.length < cells.length) :
    ((copyTo cells 0 text).bind fun cells => poke cells text.length 0)
      = some (putText cells text) := by
  obtain ⟨old, c, rest, rfl, hold⟩ : ∃ old c rest, cells = old ++ c :: rest ∧
      old.length = text.length :=
    ⟨_, _, _, (List.take_append_drop text.length cells).symm.trans
      (congrArg _ (List.drop_eq_getElem_cons hfits)), List.length_take_of_le (by omega)⟩
  have hcopy : copyTo (old ++ c :: rest) 0 text = some (text ++ c :: rest) :=
    copyTo_at (p := []) hold rfl
  have hdrop : (old ++ c :: rest).drop (text.length + 1) = rest := by
    rw [← hold, List.drop_append]
    simp
  rw [hcopy, Option.bind_some, poke_at c 0 rfl, putText, hdrop]

section Segments
variable {p g q : List UInt8} {n i : Nat} {o : Parsed}

/-- A segment is cut to leave room for the NUL. -/
theorem cut_eq {size : Nat} (hsize : 0 < size) :
    (if size ≤ g.length then size - 1 else g.length) = (g.take (size - 1)).length := by
  rw [List.length_take]
  split <;> omega

theorem copyFrom_cut (n : Nat) :
    copyFrom (p ++ (g ++ q)) p.length (g.take n).length = some (g.take n) := by
  have hsplit : g ++ q = g.take n ++ (g.drop n ++ q) := by
    rw [← List.append_assoc, List.take_append_drop]
  rw [hsplit]
  exact copyFrom_at rfl rfl

/-- The end of a segment, wherever it stands in the string. -/
theorem takeSegment_eq (hsized : Sized n o) :
    takeSegment (p ++ (g ++ q)) n p.length g.length i o = some (store n i g o) := by
  rw [takeSegment, store]
  by_cases hfirst : i = 0
  · have hpos := List.length_pos_of_ne_nil hsized.primaryOut
    have hput := putText_eq o.primaryOut (g.take (o.primaryOut.length - 1))
      (by rw [List.length_take]; omega)
    rw [if_pos hfirst, if_pos hfirst]
    simp only [cut_eq hpos, copyFrom_cut, Option.bind_eq_bind, Option.bind_some]
    rw [← Option.bind_assoc, hput]
    rfl
  · rw [if_neg hfirst, if_neg hfirst]
    cases hrows : o.subgroups with
    | none => rfl
    | some rows =>
      simp only [← List.length_pos_iff]
      by_cases hslot : 0 < g.length ∧ o.numSubgroups < n
      · have hlt : o.numSubgroups < rows.length :=
          Nat.lt_of_lt_of_le hslot.2 (hsized.slots rows hrows)
        have hread : peek rows o.numSubgroups = some rows[o.numSubgroups] :=
          List.getElem?_eq_getElem hlt
        have hsize := hsized.slotSize rows hrows _ (List.getElem_mem hlt)
        have hput := putText_eq rows[o.numSubgroups] (g.take (subgroupBufferSize - 1))
          (by rw [hsize, List.length_take]; simp only [subgroupBufferSize]; omega)
        have hwrite : ∀ row, poke rows o.numSubgroups row = some (rows.set o.numSubgroups row) :=
          fun row => if_pos hlt
        rw [if_pos hslot, if_pos hslot]
        simp only [cut_eq (by decide : 0 < subgroupBufferSize), hread, copyFrom_cut,
          Option.bind_eq_bind, Option.bind_some]
        rw [← Option.bind_assoc, hput, Option.bind_some, hwrite, List.modify_eq_set,
          List.getElem?_eq_getElem hlt]
        rfl
      · rw [if_neg hslot, if_neg hslot]

/-- A stored segment leaves the sizes as they are. -/
theorem Sized.store (hsized : Sized n o) : Sized n (store n i g o) := by
  rw [LocalConfig.store]
  by_cases hfirst : i = 0
  · rw [if_pos hfirst]
    exact ⟨by simp [putText], hsized.slots, hsized.slotSize⟩
  · rw [if_neg hfirst]
    cases hrows : o.subgroups with
    | none => exact hsized
    | some rows =>
      by_cases hslot : g ≠ [] ∧ o.numSubgroups < n
      · have hslots := hsized.slots rows hrows
        have hsize := hsized.slotSize rows hrows
        simp only [if_pos hslot]
        refine ⟨hsized.primaryOut, ?_, ?_⟩
        · intro rows' hrows'
          obtain rfl := Option.some.inj hrows'
          rwa [List.length_modify]
        · intro rows' hrows' row hrow
          obtain rfl := Option.some.inj hrows'
          obtain ⟨i, hi, rfl⟩ := List.getElem_of_mem hrow
          rw [List.length_modify] at hi
          have hold := hsize _ (List.getElem_mem hi)
          rw [List.getElem_modify]
          split
          · rw [putText, List.length_append, List.length_cons, List.length_drop, List.length_take]
            simp only [subgroupBufferSize] at hold ⊢
            omega
          · exact hold
      · simp only [if_neg hslot]
        exact hsized

/-- The loop on what is left of the string: the rest of a segment and the segments behind it. -/
theorem parseLoop_eq {text : List UInt8} {f : Nat} (htext : 0 ∉ text)
    (hseg : hyphen ∉ g) (hfuel : text.length < f) (hsized : Sized n o) :
    parseLoop (p ++ (g ++ (text ++ 0 :: q))) n f (p.length + g.length) p.length i o
      = some (storeAll n i ((g ++ text).splitOn hyphen) o) := by
  -- `p` is parsed, and `g` is the part of the segment that was read
  induction text generalizing p g i o f with
  | nil =>
    obtain ⟨f, rfl⟩ : ∃ n, f = n + 1 := ⟨f - 1, by omega⟩
    have hread : peek (p ++ (g ++ ([] ++ 0 :: q))) (p.length + g.length) = some 0 := by
      simpa using peek_at (p := p ++ g) (q := q) 0 (by simp)
    rw [parseLoop, hread, Option.bind_eq_bind, Option.bind_some, if_pos (.inr rfl),
      Nat.add_sub_cancel_left, takeSegment_eq hsized, List.append_nil,
      List.splitOn_eq_singleton hseg]
    rfl
  | cons c text ih =>
    obtain ⟨hc, hrest⟩ : 0 ≠ c ∧ 0 ∉ text := by simpa using htext
    obtain ⟨f, rfl⟩ : ∃ n, f = n + 1 := ⟨f - 1, by simp at hfuel; omega⟩
    have hread : peek (p ++ (g ++ (c :: text ++ 0 :: q))) (p.length + g.length)
        = some c := by
      simpa using peek_at (p := p ++ g) (q := text ++ 0 :: q) c (by simp)
    rw [parseLoop, hread, Option.bind_eq_bind, Option.bind_some]
    by_cases hend : c = hyphen
    · subst hend
      have hnext := ih (p := p ++ g ++ [hyphen]) (g := []) (i := i + 1) (o := store n i g o) hrest
        (by simp) (by simpa using hfuel) hsized.store
      rw [if_pos (.inl rfl), Nat.add_sub_cancel_left, takeSegment_eq hsized, Option.bind_eq_bind,
        Option.bind_some, if_neg hc.symm, List.splitOn_append_cons_self_of_not_mem hseg, storeAll]
      simpa [Nat.add_assoc] using hnext
    · have hnext := ih (p := p) (g := g ++ [c]) (i := i) (o := o) (f := f) hrest
        (by simp [hseg, Ne.symm hend]) (by simpa using hfuel) hsized
      rw [if_neg (by simp [hend, hc.symm])]
      simpa [Nat.add_assoc] using hnext

end Segments

/-- The subgroups that the parser takes from the segments behind the first one. -/
def takenIds (maxSubgroups : Nat) (segs : List (List UInt8)) : List (List UInt8) :=
  (segs.filter (· ≠ [])).take maxSubgroups

/-- The slots with ids in the first ones. -/
def putIds (slots ids : List (List UInt8)) : List (List UInt8) :=
  List.zipWith (fun row id => putText row (id.take (subgroupBufferSize - 1))) slots ids
    ++ slots.drop ids.length

theorem storeAll_none {n i : Nat} {o : Parsed} (hnone : o.subgroups = none)
    (segs : List (List UInt8)) : storeAll n (i + 1) segs o = o := by
  induction segs generalizing i with
  | nil => rfl
  | cons g segs ih =>
    have hstore : store n (i + 1) g o = o := by simp [store, hnone]
    rw [storeAll, hstore, ih]

/-- The segments behind the first one go into the next slots. -/
theorem storeAll_some {n i : Nat} {d t : List (List UInt8)} (hroom : n ≤ d.length + t.length)
    (segs : List (List UInt8)) (primaryOut : List UInt8) :
    storeAll n (i + 1) segs ⟨primaryOut, some (d ++ t), d.length⟩
      = ⟨primaryOut, some (d ++ putIds t (takenIds (n - d.length) segs)),
          d.length + (takenIds (n - d.length) segs).length⟩ := by
  -- the slots `d` are filled, and `t` are free
  induction segs generalizing i d t with
  | nil => simp [storeAll, takenIds, putIds]
  | cons g segs ih =>
    rw [storeAll, store, if_neg (by omega)]
    by_cases hslot : g ≠ [] ∧ d.length < n
    · obtain ⟨k, hk⟩ : ∃ k, n - d.length = k + 1 := ⟨n - d.length - 1, by omega⟩
      obtain ⟨row, t, rfl⟩ := List.exists_cons_of_length_pos (by omega : 0 < t.length)
      generalize hput : putText row (g.take (subgroupBufferSize - 1)) = row'
      have hnext := ih (i := i + 1) (d := d ++ [row']) (t := t)
        (by simp only [List.length_append, List.length_cons, List.length_nil] at hroom ⊢; omega)
      have hmodify : (d ++ row :: t).modify d.length
          (putText · (g.take (subgroupBufferSize - 1))) = d ++ [row'] ++ t := by
        rw [List.modify_eq_take_cons_drop (by simp)]
        simp [hput, List.drop_append]
      have hk' : n - (d ++ [row']).length = k := by
        rw [List.length_append, List.length_singleton]
        omega
      have hone : (d ++ [row']).length = d.length + 1 := by simp
      have htaken : takenIds (k + 1) (g :: segs) = g :: takenIds k segs := by
        simp [takenIds, hslot.1]
      rw [hk', hone] at hnext
      simp only [if_pos hslot, hmodify]
      rw [hnext, hk, htaken]
      simp [putIds, hput]
      omega
    · have htaken : takenIds (n - d.length) (g :: segs) = takenIds (n - d.length) segs := by
        by_cases hempty : g = []
        · simp [takenIds, hempty]
        · have hfull : n - d.length = 0 := by
            have hle : ¬ d.length < n := fun hlt => hslot ⟨hempty, hlt⟩
            omega
          simp [takenIds, hfull]
      simp only [if_neg hslot]
      rw [ih hroom, htaken]

/-- The parser on any string. -/
theorem parseGroupInfoStr_eq {n : Nat} {o : Parsed} (hsized : Sized n o) {text : List UInt8}
    (htext : 0 ∉ text) (behind : List UInt8) {first : List UInt8} {segs : List (List UInt8)}
    (hsegs : text.splitOn hyphen = first :: segs) :
    parseGroupInfoStr (some (text ++ 0 :: behind)) n o = some (.ok,
      { primaryOut := putText o.primaryOut (first.take (o.primaryOut.length - 1))
        subgroups := o.subgroups.map (putIds · (takenIds n segs))
        numSubgroups := if o.subgroups = none then 0 else (takenIds n segs).length }) := by
  obtain ⟨primaryOut, subgroups, numSubgroups⟩ := o
  obtain ⟨c, cells, rfl⟩ := List.exists_cons_of_ne_nil hsized.primaryOut
  have hclear : poke (c :: cells) 0 0 = some (0 :: cells) := poke_at (p := []) c 0 rfl
  have hcleared : Sized n ⟨0 :: cells, subgroups, 0⟩ :=
    ⟨by simp, hsized.slots, hsized.slotSize⟩
  have hput : ∀ t, putText (0 :: cells) t = putText (c :: cells) t := fun _ => rfl
  rw [parseGroupInfoStr, if_neg (by simp)]
  simp only [hclear, Option.bind_eq_bind, Option.bind_some]
  cases text with
  | nil =>
    obtain ⟨rfl, rfl⟩ : [] = first ∧ [] = segs := by simpa using hsegs
    cases subgroups with
    | none => simp [peek, putText, takenIds]
    | some rows => simp [peek, putText, takenIds, putIds]
  | cons d text =>
    have hd : d ≠ 0 := fun hd => htext (by simp [hd])
    have hread : peek (d :: text ++ 0 :: behind) 0 = some d := rfl
    have hloop := parseLoop_eq (p := []) (g := []) (i := 0) (f := (d :: text ++ 0 :: behind).length)
      (q := behind) htext (by simp) (by simp) hcleared
    simp only [List.nil_append, List.length_nil, Nat.add_zero, hsegs, storeAll, store, if_true]
      at hloop
    simp only [hread, Option.bind_some, if_neg hd, hloop]
    cases subgroups with
    | none =>
      rw [storeAll_none rfl]
      simp [hput]
    | some rows =>
      have hroom : n ≤ ([] : List (List UInt8)).length + rows.length := by
        simpa using hsized.slots rows rfl
      have hrest := storeAll_some (i := 0) (d := []) (t := rows) hroom segs
        (putText (0 :: cells) (first.take ((0 :: cells).length - 1)))
      simp only [List.nil_append, List.length_nil, Nat.sub_zero, Nat.zero_add] at hrest
      rw [hrest]
      simp [hput]

/-! ### Both together -/

theorem cString_putText (cells : List UInt8) {text : List UInt8} (htext : 0 ∉ text) :
    cString (putText cells text) = text :=
  takeWhile_text htext _

/-- The ids come back from the slots. -/
theorem texts_putIds {slots : List (List UInt8)} (hfew : ids.length ≤ slots.length)
    (hfits : ∀ id ∈ ids, id.length < subgroupBufferSize ∧ 0 ∉ id) :
    ((putIds slots ids).take ids.length).map cString = ids := by
  induction ids generalizing slots with
  | nil => rfl
  | cons id ids ih =>
    cases slots with
    | nil => simp at hfew
    | cons row slots =>
      obtain ⟨hlen, hid⟩ := hfits id (by simp)
      have hcut : id.take (subgroupBufferSize - 1) = id := List.take_of_length_le (by omega)
      have hnext := ih (by simpa using hfew) fun id' hid' => hfits id' (by simp [hid'])
      have hcons : putIds (row :: slots) (id :: ids) = putText row id :: putIds slots ids := by
        simp [putIds, hcut]
      rw [hcons, List.length_cons, List.take_succ_cons, List.map_cons, cString_putText row hid,
        hnext]

/-- The segments of the string of some ids. -/
theorem splitOn_groupText (hprimary : hyphen ∉ primary) (hids : ∀ id ∈ ids, hyphen ∉ id) :
    (groupText primary ids).splitOn hyphen = primary :: ids.filter (· ≠ []) := by
  induction ids generalizing primary with
  | nil => simpa [groupText] using List.splitOn_eq_singleton hprimary
  | cons id ids ih =>
    have hrest : ∀ id' ∈ ids, hyphen ∉ id' := fun id' hid' => hids id' (by simp [hid'])
    by_cases hempty : id = []
    · have htext : groupText primary (id :: ids) = groupText primary ids := by
        simp [groupText, hempty]
      rw [htext, ih hprimary hrest]
      simp [hempty]
    · have htext : groupText primary (id :: ids) = primary ++ hyphen :: groupText id ids := by
        simp [groupText, hempty]
      rw [htext, List.splitOn_append_cons_self_of_not_mem hprimary, ih (hids id (by simp)) hrest]
      simp [hempty]

theorem zero_not_mem_groupText (hprimary : 0 ∉ primary) (hids : ∀ id ∈ ids, 0 ∉ id) :
    0 ∉ groupText primary ids := by
  have hne : (0 : UInt8) ≠ hyphen := by decide
  simp only [groupText, List.mem_append, List.mem_flatten, List.mem_map, List.mem_filter, not_or]
  refine ⟨hprimary, ?_⟩
  rintro ⟨_, ⟨id, ⟨hid, -⟩, rfl⟩, hmem⟩
  rcases List.mem_cons.mp hmem with h | h
  · exact hne h
  · exact hids id hid h

/-- For ids that fit their buffers and have no hyphen, the string does not depend on the order of
the array and is as long as the sizing pass counts, and the parser gives back the primary id and
the subgroups that are not empty, in order. Whatever string the parser gets, it stays inside of its
buffers, the slots that it counts hold the segments that are not empty, and the others stay as they
are. -/
theorem groupInfoStr_spec (q : Qsort) :
    (∀ (primary : List UInt8) (rows : List (List UInt8)), 0 ∈ primary → hyphen ∉ cString primary →
      (∀ row ∈ rows, row.length = subgroupBufferSize ∧ 0 ∈ row ∧ hyphen ∉ cString row) →
      ∃ (text : List UInt8) (ids : List (List UInt8)),
        ids.Perm ((rows.map cString).filter (· ≠ [])) ∧ ids.Pairwise (· ≤ ·) ∧
        0 ∉ text ∧
        (∀ rows' : List (List UInt8), rows'.Perm rows →
          groupStrLen rows' (cString primary).length = some text.length ∧
          ∃ sorted, formatGroupInfoStr q true primary rows' = some (.ok ⟨text ++ [0], sorted⟩)) ∧
        ∀ (max : Nat) (o : Parsed) (slots : List (List UInt8)), Sized max o →
          o.subgroups = some slots → (cString primary).length < o.primaryOut.length →
          ∃ out slots', parseGroupInfoStr (some (text ++ [0])) max o = some (.ok, out) ∧
            cString out.primaryOut = cString primary ∧ out.subgroups = some slots' ∧
            out.numSubgroups = min max ids.length ∧
            (slots'.take out.numSubgroups).map cString = ids.take max) ∧
    ∀ (text behind : List UInt8) (max : Nat) (o : Parsed), 0 ∉ text → Sized max o →
      ∃ first segs, text.splitOn hyphen = first :: segs ∧
        parseGroupInfoStr (some (text ++ 0 :: behind)) max o = some (.ok,
          { primaryOut := putText o.primaryOut (first.take (o.primaryOut.length - 1))
            subgroups := o.subgroups.map (putIds · (takenIds max segs))
            numSubgroups := if o.subgroups = none then 0 else (takenIds max segs).length }) := by
  constructor
  · intro primary rows hprimary hhyphen hrows
    have hterminated : ∀ row ∈ rows, 0 ∈ row := fun row hrow => (hrows row hrow).2.1
    obtain ⟨hperm, hsorted⟩ := sort_texts q hterminated
    have hids : ∀ id ∈ (q.sort rows).map cString,
        id.length < subgroupBufferSize ∧ 0 ∉ id ∧ hyphen ∉ id := by
      intro id hid
      obtain ⟨row, hrow, rfl⟩ := List.mem_map.mp (hperm.mem_iff.mp hid)
      obtain ⟨hsize, hzero, hnohyphen⟩ := hrows row hrow
      obtain ⟨junk, heq, hnozero⟩ := exists_text hzero
      have hlen := congrArg List.length heq
      rw [List.length_append, List.length_cons, hsize] at hlen
      exact ⟨by omega, hnozero, hnohyphen⟩
    generalize htexts : (q.sort rows).map cString = texts at hperm hsorted hids
    obtain ⟨-, -, hnozero⟩ := exists_text hprimary
    refine ⟨groupText (cString primary) texts, texts.filter (· ≠ []), hperm.filter _,
      hsorted.sublist List.filter_sublist, zero_not_mem_groupText hnozero
        fun id hid => (hids id hid).2.1, ?_, ?_⟩
    · intro rows' hrows'
      have hterminated' : ∀ row ∈ rows', 0 ∈ row :=
        fun row hrow => hterminated row (hrows'.mem_iff.mp hrow)
      obtain ⟨hperm', hsorted'⟩ := sort_texts q hterminated'
      have hall : (rows'.map cString).Perm texts := (hrows'.map cString).trans hperm.symm
      have hsame : (q.sort rows').map cString = texts :=
        sortedTexts_unique (hperm'.trans hall) hsorted' hsorted
      obtain ⟨sorted, hformat⟩ := formatGroupInfoStr_eq q hprimary hterminated'
      rw [hsame] at hformat
      rw [groupStrLen_eq hterminated' (cString primary) _ rfl, length_groupText_perm hall]
      exact ⟨rfl, sorted, hformat⟩
    · intro max o slots hsized hslots hroom
      have hsegs := splitOn_groupText hhyphen fun id hid => (hids id hid).2.2
      have hparse := parseGroupInfoStr_eq hsized (zero_not_mem_groupText hnozero
        fun id hid => (hids id hid).2.1) [] hsegs
      have htaken : takenIds max (texts.filter (· ≠ [])) = (texts.filter (· ≠ [])).take max := by
        rw [takenIds, List.filter_filter]
        simp
      have hcut : (cString primary).take (o.primaryOut.length - 1) = cString primary :=
        List.take_of_length_le (by omega)
      have hcount : ((texts.filter (· ≠ [])).take max).length ≤ slots.length := by
        have hle := hsized.slots slots hslots
        rw [List.length_take]
        omega
      rw [htaken, hslots, hcut] at hparse
      refine ⟨_, _, hparse, cString_putText _ hnozero, rfl, by simp, ?_⟩
      exact texts_putIds hcount fun id hid =>
        have hmem := (List.mem_filter.mp (List.mem_of_mem_take hid)).1
        ⟨(hids id hmem).1, (hids id hmem).2.1⟩
  · intro text behind max o htext hsized
    obtain ⟨first, segs, hsegs⟩ :=
      List.exists_cons_of_ne_nil (List.splitOn_ne_nil hyphen text)
    exact ⟨first, segs, hsegs, parseGroupInfoStr_eq hsized htext behind hsegs⟩

/-- Two subgroups that are not in order. -/
theorem groupInfoStr_spec_twoSubgroups : ∃ text sorted,
    groupStrLen [[98, 0, 0, 0], [97, 0, 1, 1]] 1 = some text.length ∧
      formatGroupInfoStr default true [103, 0] [[98, 0, 0, 0], [97, 0, 1, 1]]
        = some (.ok ⟨text ++ [0], sorted⟩) := by
  obtain ⟨text, ids, -, -, -, hformat, -⟩ := (groupInfoStr_spec default).1 [103, 0]
    [[98, 0, 0, 0], [97, 0, 1, 1]] (by decide) (by decide) (by decide)
  obtain ⟨hlen, sorted, hrun⟩ := hformat _ (List.Perm.refl _)
  exact ⟨text, sorted, hlen, hrun⟩

end RainMakerNeo.LocalConfig
