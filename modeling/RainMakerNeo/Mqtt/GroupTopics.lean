import Mathlib.Algebra.Group.Nat.Defs
import RainMakerNeo.Lib.Memory

/-!
# `RainMakerNeo.Mqtt.GroupTopics`: the topics of group control

`GroupControl topic sg` says what a topic of group control is: a broadcast to the group, for which
`sg` is empty, or one to a subgroup. The two builders print such topics, and the parser takes the
subgroup out of a received one, which need not end in a NUL. Its reads are inside of the bytes of
the topic, or the result is `none`.

`parse_of_groupControl` runs the parser on a topic of the one or the other form, and
`parse_cases` is the way back, with one case for each check that fails.
-/

set_option autoImplicit false

namespace RainMakerNeo.Mqtt.GroupTopics

open RainMakerNeo.Lib

/-! ### The code -/

/-- The bytes of a text of the source. -/
def textBytes (s : String) : List UInt8 := s.toList.map Char.toUInt8

/-- `RMAKER_SUBGROUP_BUFFER_SIZE`. -/
def subgroupBufferSize : Nat := 4

def kPrefix : List UInt8 := textBytes "rainmaker/nodes/groups/"
def kSuffix : List UInt8 := textBytes "/control"
def kSubgroupsSep : List UInt8 := textBytes "/subgroups/"
def slash : UInt8 := 47

/-- What the parser returns. -/
inductive TopicErr
  | ok | invalidArg
  deriving DecidableEq, Repr

/-- `snprintf` into the buffer of a builder, and the result of the builder. The result of `snprintf`
is negative for a text that is longer than an `int` can say. -/
def printTopic (buffer text : List UInt8) : Option (Option Nat × List UInt8) := do
  let out ← copyTo buffer 0 (text.take (buffer.length - 1) ++ [0])
  let written : Int := if text.length < 2 ^ 31 then text.length else -1
  return (if 0 < written ∧ written < buffer.length then some written.toNat else none, out)

/-- `esp_rmaker_mqtt_topic_group_control_broadcast`: the length, or `none` for -1, and the buffer. -/
def topicGroupControlBroadcast (buffer primary : List UInt8) : Option (Option Nat × List UInt8) :=
  if buffer.length = 0 ∨ primary = [] then some (none, buffer)
  else printTopic buffer (textBytes "rainmaker/nodes/groups/" ++ (primary ++ textBytes "/control"))

/-- `esp_rmaker_mqtt_topic_group_control_subgroup` -/
def topicGroupControlSubgroup (buffer primary subgroup : List UInt8) :
    Option (Option Nat × List UInt8) :=
  if buffer.length = 0 ∨ primary = [] ∨ subgroup = [] then some (none, buffer)
  else printTopic buffer (textBytes "rainmaker/nodes/groups/" ++ (primary ++
    (textBytes "/subgroups/" ++ (subgroup ++ textBytes "/control"))))

/-- `memcmp` of a place with a constant, compared with 0. -/
def memcmpEq (m : List UInt8) (i : Nat) (k : List UInt8) : Option Bool :=
  (copyFrom m i k.length).map fun s => s = k

/-- `memchr`: the place that it finds. -/
def memchr (m : List UInt8) (i : Nat) (c : UInt8) (n : Nat) : Option (Option Nat) :=
  (copyFrom m i n).map fun s => if c ∈ s then some (i + s.idxOf c) else none

/-- `esp_rmaker_mqtt_topic_parse_group_control_subgroup` from the first slash of the inner part on,
which ends at `innerEnd`. -/
def parseSubgroup (topic : List UInt8) (firstSlash innerEnd : Nat) (sgBuf : List UInt8) :
    Option (TopicErr × List UInt8) :=
  let sepLen := kSubgroupsSep.length
  let restLen := innerEnd - firstSlash
  if restLen ≤ sepLen then some (.invalidArg, sgBuf)
  else do
    let sepOk ← memcmpEq topic firstSlash kSubgroupsSep
    if sepOk = false then return (.invalidArg, sgBuf)
    else do
      let sg := firstSlash + sepLen
      let sgLen := restLen - sepLen
      let second ← memchr topic sg slash sgLen
      if sgLen = 0 ∨ second ≠ none then return (.invalidArg, sgBuf)
      else if sgBuf.length ≤ sgLen then return (.invalidArg, sgBuf)
      else do
        let bytes ← copyFrom topic sg sgLen
        let sgBuf ← copyTo sgBuf 0 bytes
        let sgBuf ← poke sgBuf sgLen 0
        return (.ok, sgBuf)

/-- `esp_rmaker_mqtt_topic_parse_group_control_subgroup`: the result and the buffer. `topic` has
`topic_len` bytes, and no pointer is NULL. -/
def parseGroupControlSubgroup (topic sgBuf : List UInt8) : Option (TopicErr × List UInt8) :=
  let prefixLen := kPrefix.length
  let suffixLen := kSuffix.length
  if sgBuf.length < subgroupBufferSize then some (.invalidArg, sgBuf)
  else if topic.length ≤ prefixLen + suffixLen then some (.invalidArg, sgBuf)
  else do
    let prefixOk ← memcmpEq topic 0 kPrefix
    if prefixOk = false then return (.invalidArg, sgBuf)
    else do
      let suffixOk ← memcmpEq topic (topic.length - suffixLen) kSuffix
      if suffixOk = false then return (.invalidArg, sgBuf)
      else do
        let inner := prefixLen
        let innerLen := topic.length - prefixLen - suffixLen
        let firstSlash ← memchr topic inner slash innerLen
        match firstSlash with
        | some place =>
          -- the primary id must not be empty
          if place = inner then return (.invalidArg, sgBuf)
          else parseSubgroup topic place (inner + innerLen) sgBuf
        -- a broadcast has no subgroup
        | none =>
          let sgBuf ← poke sgBuf 0 0
          return (.ok, sgBuf)

/-! ### The topics -/

/-- The topics of group control, and the subgroup of each. -/
inductive GroupControl : List UInt8 → List UInt8 → Prop
  | broadcast (primary : List UInt8) (hne : primary ≠ []) (hslash : slash ∉ primary) :
    GroupControl (textBytes "rainmaker/nodes/groups/" ++ (primary ++ textBytes "/control")) []
  | subgroup (primary sg : List UInt8) (hne : primary ≠ []) (hslash : slash ∉ primary)
    (hsg : sg ≠ []) (hsgslash : slash ∉ sg) :
    GroupControl (textBytes "rainmaker/nodes/groups/" ++ (primary ++
      (textBytes "/subgroups/" ++ (sg ++ textBytes "/control")))) sg

variable {sgBuf : List UInt8}

/-- What the checks at both ends of a topic leave over. -/
theorem parse_inner {inner a b : List UInt8} (hsize : subgroupBufferSize ≤ sgBuf.length)
    (ha : a.length = kPrefix.length) (hb : b.length = kSuffix.length) (hinner : inner ≠ []) :
    parseGroupControlSubgroup (a ++ (inner ++ b)) sgBuf =
      if a = kPrefix ∧ b = kSuffix then
        if slash ∈ inner then
          if inner.idxOf slash = 0 then some (.invalidArg, sgBuf)
          else parseSubgroup (a ++ (inner ++ b)) (a.length + inner.idxOf slash)
            (a.length + inner.length) sgBuf
        else some (.ok, 0 :: sgBuf.drop 1)
      else some (.invalidArg, sgBuf) := by
  have hpos := List.length_pos_of_ne_nil hinner
  have hlen : (a ++ (inner ++ b)).length = a.length + (inner.length + b.length) := by simp
  have hsmall : ¬ sgBuf.length < subgroupBufferSize := by omega
  have hshort : ¬ (a ++ (inner ++ b)).length ≤ kPrefix.length + kSuffix.length := by omega
  have hprefix : memcmpEq (a ++ (inner ++ b)) 0 kPrefix = some (decide (a = kPrefix)) := by
    have hread := copyFrom_at (p := []) (d := a) (q := inner ++ b) (i := 0) rfl ha.symm
    rw [memcmpEq, ← List.nil_append (a ++ (inner ++ b)), hread]
    rfl
  have hsuffix : memcmpEq (a ++ (inner ++ b)) ((a ++ (inner ++ b)).length - kSuffix.length) kSuffix
      = some (decide (b = kSuffix)) := by
    have hread := copyFrom_at (p := a ++ inner) (d := b) (q := [])
      (i := (a ++ (inner ++ b)).length - kSuffix.length) (by simp; omega) hb.symm
    rw [memcmpEq]
    rw [List.append_nil, List.append_assoc] at hread
    rw [hread]
    rfl
  have hinnerLen : (a ++ (inner ++ b)).length - kPrefix.length - kSuffix.length = inner.length := by
    omega
  have hslash : memchr (a ++ (inner ++ b)) kPrefix.length slash inner.length
      = some (if slash ∈ inner then some (a.length + inner.idxOf slash) else none) := by
    rw [memchr, copyFrom_at ha.symm rfl, ← ha]
    rfl
  have hend : kPrefix.length + inner.length = a.length + inner.length := by rw [ha]
  rw [parseGroupControlSubgroup]
  simp only [if_neg hsmall, if_neg hshort, hprefix, hsuffix, hinnerLen, hslash, hend,
    Option.bind_eq_bind, Option.bind_some, decide_eq_false_iff_not]
  by_cases hboth : a = kPrefix ∧ b = kSuffix
  · rw [if_neg (not_not.mpr hboth.1), if_neg (not_not.mpr hboth.2), if_pos hboth]
    by_cases hmem : slash ∈ inner
    · rw [if_pos hmem, if_pos hmem]
      by_cases hfirst : inner.idxOf slash = 0
      · simp [hfirst, ha]
      · simp [hfirst, ha]
    · obtain ⟨c, more, rfl⟩ := List.exists_cons_of_length_pos
        (by simp only [subgroupBufferSize] at hsize; omega : 0 < sgBuf.length)
      have hwrite : poke (c :: more) 0 0 = some (0 :: more) := poke_at (p := []) c 0 rfl
      rw [if_neg hmem, if_neg hmem]
      simp [hwrite]
  · rw [if_neg hboth]
    by_cases hfirst : a = kPrefix
    · have hbsuffix : b ≠ kSuffix := fun hb => hboth ⟨hfirst, hb⟩
      simp [hfirst, hbsuffix]
    · simp [hfirst]

/-- What follows the first slash, for a buffer that is not full with it. -/
theorem parseSubgroup_eq (sgBuf : List UInt8) {p u v q : List UInt8} {n : Nat}
    (hsep : u.length = kSubgroupsSep.length) (hn : n = p.length + (u.length + v.length)) :
    parseSubgroup (p ++ (u ++ (v ++ q))) p.length n sgBuf =
      if v ≠ [] ∧ u = kSubgroupsSep ∧ slash ∉ v ∧ v.length < sgBuf.length then
        some (.ok, v ++ 0 :: sgBuf.drop (v.length + 1))
      else some (.invalidArg, sgBuf) := by
  have hrest : n - p.length = kSubgroupsSep.length + v.length := by omega
  have hsgLen : kSubgroupsSep.length + v.length - kSubgroupsSep.length = v.length := by omega
  rw [parseSubgroup]
  simp only [hrest, hsgLen]
  by_cases hempty : v = []
  · simp [hempty]
  have hpos := List.length_pos_of_ne_nil hempty
  have hsepOk : memcmpEq (p ++ (u ++ (v ++ q))) p.length kSubgroupsSep
      = some (decide (u = kSubgroupsSep)) := by
    rw [memcmpEq, copyFrom_at rfl hsep.symm]
    rfl
  have hsg : copyFrom (p ++ (u ++ (v ++ q))) (p.length + kSubgroupsSep.length) v.length
      = some v := by
    rw [← List.append_assoc p]
    exact copyFrom_at (by simp [hsep]) rfl
  have hsecond : memchr (p ++ (u ++ (v ++ q))) (p.length + kSubgroupsSep.length) slash v.length
      = some (if slash ∈ v then some (p.length + kSubgroupsSep.length + v.idxOf slash)
        else none) := by
    rw [memchr, hsg]
    rfl
  rw [if_neg (by omega)]
  simp only [hsepOk, hsecond, hsg, Option.bind_eq_bind, Option.bind_some, decide_eq_false_iff_not]
  by_cases hok : u = kSubgroupsSep ∧ slash ∉ v ∧ v.length < sgBuf.length
  · have hall : v ≠ [] ∧ u = kSubgroupsSep ∧ slash ∉ v ∧ v.length < sgBuf.length :=
      ⟨hempty, hok⟩
    rw [if_pos hall]
    obtain ⟨hsepok, hslash, hfits⟩ := hok
    -- the cells of the subgroup, the cell of its NUL and the others
    obtain ⟨old, rest, rfl, hold⟩ := exists_front (Nat.le_of_lt hfits)
    obtain ⟨c, more, rfl⟩ := List.exists_cons_of_length_pos
      (by rw [List.length_append] at hfits; omega : 0 < rest.length)
    have hcopy : copyTo (old ++ c :: more) 0 v = some (v ++ c :: more) :=
      copyTo_at (p := []) hold rfl
    have hnul : poke (v ++ c :: more) v.length 0 = some (v ++ 0 :: more) := poke_at c 0 rfl
    have hroom : ¬ (old ++ c :: more).length ≤ v.length := Nat.not_le.mpr hfits
    have hdrop : (old ++ c :: more).drop (v.length + 1) = more := by
      rw [← hold, List.drop_append]
      simp
    rw [if_neg (not_not.mpr hsepok), if_neg (by simp [hempty, hslash]), if_neg hroom, hdrop]
    simp [hcopy, hnul]
  · have hnot : ¬ (v ≠ [] ∧ u = kSubgroupsSep ∧ slash ∉ v ∧ v.length < sgBuf.length) :=
      fun h => hok h.2
    rw [if_neg hnot]
    by_cases hsepok : u = kSubgroupsSep
    · by_cases hslash : slash ∈ v
      · simp [hsepok, hslash]
      · have hfull : sgBuf.length ≤ v.length := by
          by_contra hlt
          exact hok ⟨hsepok, hslash, by omega⟩
        simp [hsepok, hslash, hfull]
    · simp [hsepok]

theorem idxOf_slash {w rest : List UInt8} (hw : slash ∉ w) :
    (w ++ slash :: rest).idxOf slash = w.length := by
  rw [List.idxOf_append_of_notMem hw, List.idxOf_cons_self, Nat.add_zero]

/-- A topic of group control is accepted if its subgroup fits. -/
theorem parse_of_groupControl {topic sg : List UInt8} (h : GroupControl topic sg)
    (hsize : subgroupBufferSize ≤ sgBuf.length) (hfits : sg.length < sgBuf.length) :
    parseGroupControlSubgroup topic sgBuf
      = some (.ok, sg ++ 0 :: sgBuf.drop (sg.length + 1)) := by
  cases h with
  | broadcast primary hne hslash =>
    have hrun := parse_inner (a := kPrefix) (b := kSuffix) hsize rfl rfl hne
    rw [if_pos ⟨rfl, rfl⟩, if_neg hslash] at hrun
    exact hrun
  | subgroup primary sg hne hslash hsg hsgslash =>
    obtain ⟨sepTail, hsep⟩ : ∃ tail, kSubgroupsSep = slash :: tail := ⟨_, rfl⟩
    have hinner : primary ++ (kSubgroupsSep ++ sg) = primary ++ slash :: (sepTail ++ sg) := by
      rw [hsep]
      rfl
    have hmem : slash ∈ primary ++ (kSubgroupsSep ++ sg) := by simp [hinner]
    have hidx : (primary ++ (kSubgroupsSep ++ sg)).idxOf slash = primary.length := by
      rw [hinner]
      exact idxOf_slash hslash
    have hpos : primary.length ≠ 0 := by simpa using hne
    have hrun := parse_inner (a := kPrefix) (b := kSuffix) hsize rfl rfl
      (by simp [hne] : primary ++ (kSubgroupsSep ++ sg) ≠ [])
    have hrest := parseSubgroup_eq sgBuf (p := kPrefix ++ primary) (u := kSubgroupsSep) (v := sg)
      (q := kSuffix) (n := kPrefix.length + (primary ++ (kSubgroupsSep ++ sg)).length) rfl
      (by simp; omega)
    rw [if_pos ⟨hsg, rfl, hsgslash, hfits⟩] at hrest
    rw [if_pos ⟨rfl, rfl⟩, if_pos hmem, hidx, if_neg hpos] at hrun
    simp only [List.append_assoc, List.length_append] at hrun hrest
    exact hrun.trans hrest

/-- Any other topic is refused. -/
theorem parse_cases (topic : List UInt8) (hsize : subgroupBufferSize ≤ sgBuf.length) :
    parseGroupControlSubgroup topic sgBuf = some (.invalidArg, sgBuf) ∨
      ∃ sg, GroupControl topic sg ∧ sg.length < sgBuf.length := by
  by_cases hshort : topic.length ≤ kPrefix.length + kSuffix.length
  · left
    rw [parseGroupControlSubgroup]
    simp only [if_pos hshort, ite_self]
  -- both ends are there and do not overlap
  obtain ⟨a, inner, b, rfl, ha, hb, hinner⟩ : ∃ a inner b, topic = a ++ (inner ++ b) ∧
      a.length = kPrefix.length ∧ b.length = kSuffix.length ∧ inner ≠ [] := by
    obtain ⟨a, behind, rfl, ha⟩ := exists_front (by omega : kPrefix.length ≤ topic.length)
    rw [List.length_append] at hshort
    obtain ⟨inner, b, rfl, hinner⟩ := exists_front
      (by omega : behind.length - kSuffix.length ≤ behind.length)
    rw [List.length_append] at hshort hinner
    refine ⟨a, inner, b, rfl, ha, by omega, ?_⟩
    apply List.ne_nil_of_length_pos
    omega
  rw [parse_inner hsize ha hb hinner]
  by_cases hboth : a = kPrefix ∧ b = kSuffix
  · obtain ⟨rfl, rfl⟩ := hboth
    rw [if_pos ⟨rfl, rfl⟩]
    by_cases hmem : slash ∈ inner
    · -- the primary id is in front of the first slash
      obtain ⟨primary, rest, rfl, hslash⟩ := List.eq_append_cons_of_mem hmem
      rw [if_pos hmem, idxOf_slash hslash]
      by_cases hne : primary.length = 0
      · exact .inl (if_pos hne)
      rw [if_neg hne]
      by_cases hlong : (slash :: rest).length ≤ kSubgroupsSep.length
      · left
        rw [parseSubgroup]
        simp only [List.length_append]
        exact if_pos (by omega)
      obtain ⟨u, v, hrest, hu⟩ := exists_front
        (by omega : kSubgroupsSep.length ≤ (slash :: rest).length)
      have hrun := parseSubgroup_eq sgBuf (p := kPrefix ++ primary) (v := v) (q := kSuffix)
        (n := kPrefix.length + (primary ++ (u ++ v)).length) hu (by simp; omega)
      rw [hrest]
      simp only [List.append_assoc, List.length_append] at hrun ⊢
      rw [hrun]
      by_cases hok : v ≠ [] ∧ u = kSubgroupsSep ∧ slash ∉ v ∧ v.length < sgBuf.length
      · obtain ⟨hv, rfl, hvslash, hfits⟩ := hok
        exact .inr ⟨v, .subgroup primary v (List.ne_nil_of_length_pos (by omega)) hslash hv hvslash,
          hfits⟩
      · exact .inl (if_neg hok)
    · -- without a slash all of it is the primary id
      exact .inr ⟨[], .broadcast inner hinner hmem, by
        simp only [subgroupBufferSize] at hsize
        simp only [List.length_nil]
        omega⟩
  · exact .inl (if_neg hboth)

/-- A text that fits is printed as a whole. -/
theorem printTopic_eq {text buffer : List UInt8} (hne : text ≠ [])
    (hfits : text.length < min buffer.length (2 ^ 31)) :
    ∃ behind, printTopic buffer text = some (some text.length, text ++ 0 :: behind) := by
  have hpos := List.length_pos_of_ne_nil hne
  obtain ⟨hroom, hint⟩ := Nat.lt_min.mp hfits
  have hwhole : (text ++ [0]).length ≤ buffer.length := by
    rw [List.length_append, List.length_singleton]
    omega
  obtain ⟨old, behind, rfl, hold⟩ := exists_front hwhole
  have htake : text.take ((old ++ behind).length - 1) = text :=
    List.take_of_length_le (by omega)
  have hcopy : copyTo (old ++ behind) 0 (text ++ [0]) = some ((text ++ [0]) ++ behind) :=
    copyTo_at (p := []) hold rfl
  have hlt : text.length < old.length + behind.length := by simpa using hroom
  refine ⟨behind, ?_⟩
  rw [printTopic, htake, hcopy]
  have hwritten : (0 : Int) < text.length ∧
      (text.length : Int) < (old ++ behind).length := by omega
  simp only [Option.bind_eq_bind, Option.bind_some, if_pos hint, if_pos hwritten]
  simp

/-- The parser accepts the topics of group control whose subgroup fits and no others, it finds the
subgroup of each, and so it takes back what the builders print. The size of its buffer is the one
that it asks for. -/
theorem parseGroupControlSubgroup_spec (hsize : subgroupBufferSize ≤ sgBuf.length) :
    (∀ topic, ∃ err out, parseGroupControlSubgroup topic sgBuf = some (err, out) ∧
      (err = .ok ↔ ∃ sg, GroupControl topic sg ∧ sg.length < sgBuf.length) ∧
      ∀ sg, GroupControl topic sg → sg.length < sgBuf.length →
        out = sg ++ 0 :: sgBuf.drop (sg.length + 1)) ∧
    (∀ primary buffer, primary ≠ [] → slash ∉ primary →
      (kPrefix ++ (primary ++ kSuffix)).length < min buffer.length (2 ^ 31) →
      ∃ written out, topicGroupControlBroadcast buffer primary = some (some written, out) ∧
        parseGroupControlSubgroup (out.take written) sgBuf = some (.ok, 0 :: sgBuf.drop 1)) ∧
    ∀ primary sg buffer, primary ≠ [] → slash ∉ primary → sg ≠ [] → slash ∉ sg →
      (kPrefix ++ (primary ++ (kSubgroupsSep ++ (sg ++ kSuffix)))).length
        < min buffer.length (2 ^ 31) → sg.length < sgBuf.length →
      ∃ written out, topicGroupControlSubgroup buffer primary sg = some (some written, out) ∧
        parseGroupControlSubgroup (out.take written) sgBuf
          = some (.ok, sg ++ 0 :: sgBuf.drop (sg.length + 1)) := by
  refine ⟨?_, ?_, ?_⟩
  · intro topic
    by_cases h : ∃ sg, GroupControl topic sg ∧ sg.length < sgBuf.length
    · obtain ⟨sg, hsg, hfits⟩ := h
      have hrun := parse_of_groupControl hsg hsize hfits
      refine ⟨_, _, hrun, by simpa using ⟨sg, hsg, hfits⟩, ?_⟩
      intro sg' hsg' hfits'
      have hrun' := parse_of_groupControl hsg' hsize hfits'
      exact (Prod.mk.inj (Option.some.inj (hrun.symm.trans hrun'))).2
    · have hrun := (parse_cases topic hsize).resolve_right h
      refine ⟨_, _, hrun, by simpa using fun sg hsg => (not_and.mp (not_exists.mp h sg)) hsg, ?_⟩
      intro sg hsg hfits
      exact absurd ⟨sg, hsg, hfits⟩ h
  · intro primary buffer hne hslash hfits
    have hbuffer : ¬ (buffer.length = 0 ∨ primary = []) := by
      rintro (hempty | hempty)
      · omega
      · exact hne hempty
    obtain ⟨behind, hprint⟩ := printTopic_eq (by simp [hne]) hfits
    refine ⟨_, _, (if_neg hbuffer).trans hprint, ?_⟩
    rw [List.take_left]
    exact parse_of_groupControl (.broadcast primary hne hslash) hsize
      (by simp only [subgroupBufferSize] at hsize; simp only [List.length_nil]; omega)
  · intro primary sg buffer hne hslash hsg hsgslash hfits hsgfits
    have hbuffer : ¬ (buffer.length = 0 ∨ primary = [] ∨ sg = []) := by
      rintro (hempty | hempty | hempty)
      · omega
      · exact hne hempty
      · exact hsg hempty
    obtain ⟨behind, hprint⟩ := printTopic_eq (by simp [hne]) hfits
    refine ⟨_, _, (if_neg hbuffer).trans hprint, ?_⟩
    rw [List.take_left]
    exact parse_of_groupControl (.subgroup primary sg hne hslash hsg hsgslash) hsize hsgfits

/-- The topic of subgroup `7` of group `g`, and the way back. -/
theorem parseGroupControlSubgroup_spec_subgroup7 : ∃ written out,
    topicGroupControlSubgroup (List.replicate 64 1) [103] [55] = some (some written, out) ∧
      parseGroupControlSubgroup (out.take written) [1, 2, 3, 4] = some (.ok, [55, 0, 3, 4]) :=
  (parseGroupControlSubgroup_spec
      (by decide : subgroupBufferSize ≤ ([1, 2, 3, 4] : List UInt8).length)).2.2 [103] [55]
    (List.replicate 64 1) (by decide) (by decide) (by decide) (by decide) (by decide) (by decide)

end RainMakerNeo.Mqtt.GroupTopics
