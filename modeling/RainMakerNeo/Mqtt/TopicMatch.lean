import Mathlib.Data.List.TakeWhile
import RainMakerNeo.Lib.CStr

/-!
# `RainMakerNeo.Mqtt.TopicMatch`: topic names against topic filters

`osal_mqtt_match_topic` (`osal_mqtt_util.c`) walks a filter and a topic with two pointers. The
pointers are positions here, into the memory of the filter, which is a NUL-terminated copy, and
into the memory of the topic, which is the slice and whatever readable bytes `after` stand behind
it. A read past the readable bytes has no value, so the result is an `Option`.

`levelsMatch` is what the filter means, over the levels between the slashes. `matchTopic_eq` turns
the scan over positions into `scanLevels`, a recursion over levels. `scanLevels_eq_iff` compares
the two recursions. They agree except on the four kinds of `Misread`: a final slash of the topic
or of the filter is not seen as an empty level, and a `+` at the last level of the topic is
skipped up to a NUL or a slash that may be outside the slice.
-/

set_option autoImplicit false

namespace RainMakerNeo.Mqtt

open RainMakerNeo.Lib

/-- What stands between two slashes. -/
abbrev Level := List Char

/-- The levels of a topic or a filter. -/
def levels (s : List Char) : List Level := s.splitOn '/'

/-- A wildcard is a level of its own, and `#` is the last one. -/
def ValidLevels : List Level → Prop
  | [] => True
  | f :: fs => ((f = ['#'] ∧ fs = []) ∨ f = ['+'] ∨ ('#' ∉ f ∧ '+' ∉ f)) ∧ ValidLevels fs

instance decidableValidLevels : (fs : List Level) → Decidable (ValidLevels fs)
  | [] => isTrue trivial
  | f :: fs =>
    have : Decidable (ValidLevels fs) := decidableValidLevels fs
    inferInstanceAs
      (Decidable (((f = ['#'] ∧ fs = []) ∨ f = ['+'] ∨ ('#' ∉ f ∧ '+' ∉ f)) ∧ ValidLevels fs))

/-- A valid topic filter. -/
@[ext] structure TopicFilter where
  chars : List Char
  nonempty : chars ≠ []
  nulFree : nul ∉ chars
  valid : ValidLevels (levels chars)

instance : DecidableEq TopicFilter := fun _ _ => decidable_of_iff _ TopicFilter.ext_iff.symm

/-- A topic name. -/
@[ext] structure TopicName where
  chars : List Char
  nonempty : chars ≠ []
  nulFree : nul ∉ chars

instance : DecidableEq TopicName := fun _ _ => decidable_of_iff _ TopicName.ext_iff.symm

/-- What a filter means: `+` is one level, which may be empty, a final `#` is the parent and any
number of levels below it, and every other level is equal. -/
def levelsMatch : List Level → List Level → Bool
  | [], ts => ts.isEmpty
  | f :: fs, [] => f == ['#'] && fs.isEmpty
  | f :: fs, t :: ts =>
    (f == ['#'] && fs.isEmpty) || ((f == ['+'] || f == t) && levelsMatch fs ts)

/-- `while (*t && *t != '/')`: how far the pointer moves. Only the memory bounds it. -/
def skipLevel : List Char → Option Nat
  | [] => none
  | c :: cs => if c = nul ∨ c = '/' then some 0 else (skipLevel cs).map (· + 1)

/-- `while (tn - topic < topic_len && *tn != '/')`: how far the pointer moves. -/
def levelLength (s : List Char) : Nat := (s.takeWhile (· != '/')).length

/-- What the function returns after its loop. -/
def matchEnd (topic filter : List Char) (f t : Nat) : Option Bool :=
  (filter ++ [nul])[f]?.bind fun c =>
    if c = '#' ∧ f + 1 = filter.length then some true
    else some (f == filter.length && t == topic.length)

/-- The loop of `osal_mqtt_match_topic`, from the positions `f` and `t`. `fuel` bounds the number
of rounds. -/
def matchLoop (topic after filter : List Char) : Nat → Nat → Nat → Option Bool
  | 0, _, _ => none
  | fuel + 1, f, t =>
    if f < filter.length ∧ t < topic.length then
      (filter ++ [nul])[f]?.bind fun c =>
      if c = '#' then some (f + 1 == filter.length)
      else if c = '+' then
        (skipLevel ((topic ++ after).drop t)).bind fun skipped =>
        (filter ++ [nul])[f + 1]?.bind fun cf =>
        (topic ++ after)[t + skipped]?.bind fun ct =>
        matchLoop topic after filter fuel (if cf = '/' then f + 1 + 1 else f + 1)
          (if ct = '/' then t + skipped + 1 else t + skipped)
      else
        let fn := f + levelLength (filter.drop f)
        let tn := t + levelLength (topic.drop t)
        if fn - f ≠ tn - t ∨ strncmpEq (fn - f) (filter.drop f) (topic.drop t) = false then
          some false
        else
          matchLoop topic after filter fuel (if fn < filter.length then fn + 1 else fn)
            (if tn < topic.length then tn + 1 else tn)
    else matchEnd topic filter f t

/-- `osal_mqtt_match_topic`. Every round moves the filter pointer, so the loop has at most
`filter_len` rounds and the test that ends it. -/
def matchTopic (topic after filter : List Char) : Option Bool :=
  matchLoop topic after filter (filter.length + 1) 0 0

/-! ## Levels of a string -/

theorem levels_of_notMem {s : List Char} (h : '/' ∉ s) : levels s = [s] := by
  rw [levels, List.splitOn_eq_splitOnP]
  apply List.splitOnP_eq_singleton
  intro c hc
  rw [beq_eq_false_iff_ne]
  rintro rfl
  exact h hc

variable {l : Level} {fs : List Level} {after : List Char}

theorem levels_append (h : '/' ∉ l) (s : List Char) : levels (l ++ '/' :: s) = l :: levels s := by
  rw [levels, List.splitOn_eq_splitOnP]
  apply List.splitOnP_append_cons_of_forall_mem _ _ (by rfl)
  intro c hc
  rw [beq_eq_false_iff_ne]
  rintro rfl
  exact h hc

@[simp] theorem levels_nil : levels [] = [[]] := levels_of_notMem List.not_mem_nil

/-- A string is one level, or a level, a slash and a string. -/
theorem levels_cases (s : List Char) :
    ('/' ∉ s ∧ levels s = [s])
      ∨ ∃ l rest, '/' ∉ l ∧ s = l ++ '/' :: rest ∧ levels s = l :: levels rest := by
  by_cases h : '/' ∈ s
  · obtain ⟨l, rest, rfl, hl⟩ := List.eq_append_cons_of_mem h
    exact .inr ⟨l, rest, hl, rfl, levels_append hl rest⟩
  · exact .inl ⟨h, levels_of_notMem h⟩

theorem levels_ne_nil (s : List Char) : levels s ≠ [] := List.splitOn_ne_nil _ _

theorem levels_injective {s r : List Char} (h : levels s = levels r) : s = r := by
  have hs : List.intercalate ['/'] (levels s) = s := List.intercalate_splitOn '/'
  have hr : List.intercalate ['/'] (levels r) = r := List.intercalate_splitOn '/'
  rw [← hs, ← hr]
  show List.intercalate ['/'] (levels s) = List.intercalate ['/'] (levels r)
  rw [h]

theorem levelLength_of_notMem {s : List Char} (h : '/' ∉ s) : levelLength s = s.length := by
  rw [levelLength, List.takeWhile_eq_self_iff.2]
  intro c hc
  rw [bne_iff_ne]
  rintro rfl
  exact h hc

theorem levelLength_append (h : '/' ∉ l) (s : List Char) :
    levelLength (l ++ '/' :: s) = l.length := by
  rw [levelLength, List.takeWhile_append_of_pos]
  · simp
  · intro c hc
    rw [bne_iff_ne]
    rintro rfl
    exact h hc

/-- The unbounded scan stops at the slash that ends the level. -/
theorem skipLevel_append (hslash : '/' ∉ l) (hnul : nul ∉ l) (s : List Char) :
    skipLevel (l ++ '/' :: s) = some l.length := by
  induction l with
  | nil => simp [skipLevel]
  | cons c l ih =>
    rw [List.mem_cons, not_or] at hslash hnul
    show skipLevel (c :: (l ++ '/' :: s)) = _
    rw [skipLevel, if_neg (by rintro (rfl | rfl) <;> simp_all), ih hslash.2 hnul.2]
    rfl

/-- In the last level the unbounded scan goes on behind it. -/
theorem skipLevel_last (hslash : '/' ∉ l) (hnul : nul ∉ l) (after : List Char) :
    skipLevel (l ++ after) = (skipLevel after).map (l.length + ·) := by
  induction l with
  | nil => simp
  | cons c l ih =>
    rw [List.mem_cons, not_or] at hslash hnul
    show skipLevel (c :: (l ++ after)) = _
    rw [skipLevel, if_neg (by rintro (rfl | rfl) <;> simp_all), ih hslash.2 hnul.2,
      Option.map_map]
    congr 1
    funext k
    show l.length + k + 1 = l.length + 1 + k
    omega

/-! ## The scan as a recursion over levels -/

/-- A filter of which nothing is left, or only the level `#`. -/
def spent (fs : List Level) : Bool := fs == [] || fs == [[]] || fs == [['#']]

/-- Where a `+` at the last level of the topic leads. Only a NUL right behind the slice leaves the
topic pointer at its end. -/
def scanPast (after : List Char) (fs : List Level) : Option Bool :=
  (skipLevel after).map fun _ => spent fs && (fs == [['#']] || after.head? == some nul)

/-- The scan on what is left of the filter and of the topic. An empty rest and one empty level look
the same to it. -/
def scanLevels (after : List Char) : List Level → List Level → Option Bool
  | fs, [] => some (spent fs)
  | [], l :: ts => some (l == [] && ts == [])
  | f :: fs, l :: ts =>
    if l = [] ∧ ts = [] then some (spent (f :: fs))
    else if f = [] ∧ fs = [] then some false
    else if f = ['#'] then some fs.isEmpty
    else if f = ['+'] then if ts = [] then scanPast after fs else scanLevels after fs ts
    else if f = l then scanLevels after fs ts
    else some false

/-- An empty filter and the empty level are scanned alike. -/
theorem scanLevels_nil_left (after : List Char) (ts : List Level) :
    scanLevels after [] ts = scanLevels after [[]] ts := by
  cases ts with
  | nil => rfl
  | cons l ts =>
    simp only [scanLevels]
    split
    · next h => simp [h.1, h.2, spent]
    · next h => simpa using h

theorem scanLevels_nil_right (after : List Char) (fs : List Level) :
    scanLevels after fs [] = scanLevels after fs [[]] := by
  cases fs with
  | nil => rfl
  | cons f fs => simp [scanLevels]

/-- What the loop's end test says, by the rest of the filter. -/
theorem matchEnd_eq {topic filter rest : List Char} {f : Nat} (hf : filter.drop f = rest)
    (hle : f ≤ filter.length) (t : Nat) :
    matchEnd topic filter f t
      = some (rest == ['#'] || (rest == [] && t == topic.length)) := by
  cases rest with
  | nil =>
    have hlen : f = filter.length := by
      have := List.drop_eq_nil_iff.1 hf
      omega
    subst hlen
    simp [matchEnd, nul]
  | cons c rest =>
    have hlt : f < filter.length := by
      have := congrArg List.length hf
      simp only [List.length_drop, List.length_cons] at this
      omega
    have hread : (filter ++ [nul])[f]? = some c := by
      rw [List.getElem?_append_left hlt, ← List.head?_drop, hf]
      rfl
    have hone : f + 1 = filter.length ↔ rest = [] := by
      have := congrArg List.length hf
      simp only [List.length_drop, List.length_cons] at this
      rw [← List.length_eq_zero_iff]
      omega
    simp only [matchEnd, hread, Option.bind_some, hone]
    by_cases h : c = '#' ∧ rest = []
    · rw [if_pos h, h.1, h.2]
      rfl
    · have hne : f ≠ filter.length := Nat.ne_of_lt hlt
      have hrest : (c :: rest == ['#']) = false := by
        rw [beq_eq_false_iff_ne]
        simpa using h
      rw [if_neg h, beq_false_of_ne hne, hrest]
      rfl

/-- From position `i` on stand the level `l` and, behind a slash or nothing, the levels `tail`.
The next level starts at `j`. -/
inductive Splits (s : List Char) (i : Nat) (l : Level) : List Level → Nat → Prop
  | slash {rest : List Char} (hdrop : s.drop i = l ++ '/' :: rest) (hl : '/' ∉ l) :
    Splits s i l (levels rest) (i + l.length + 1)
  | last (hdrop : s.drop i = l) (hl : '/' ∉ l) (hle : i ≤ s.length) :
    Splits s i l [] (i + l.length)

namespace Splits

variable {s : List Char} {i j : Nat} {l : Level} {tail : List Level}

theorem exists_of_le {s : List Char} {i : Nat} (hle : i ≤ s.length) :
    ∃ l tail j, Splits s i l tail j ∧ levels (s.drop i) = l :: tail := by
  rcases levels_cases (s.drop i) with ⟨hnone, heq⟩ | ⟨l, rest, hl, hdrop, heq⟩
  · exact ⟨_, _, _, .last rfl hnone hle, heq⟩
  · exact ⟨l, _, _, .slash hdrop hl, heq⟩

section
variable (h : Splits s i l tail j)
include h

/-- What the scan has left to look at behind the level. -/
theorem levels_drop : (levels (s.drop j) = tail) ∨ (tail = [] ∧ levels (s.drop j) = [[]]) := by
  cases h with
  | slash hdrop hl =>
    left
    rw [Nat.add_assoc, ← List.drop_drop, hdrop, ← List.drop_drop, List.drop_left]
    rfl
  | last hdrop hl hle =>
    right
    rw [← List.drop_drop, hdrop, List.drop_length]
    exact ⟨rfl, levels_nil⟩

theorem le : j ≤ s.length := by
  cases h with
  | slash hdrop hl =>
    have := congrArg List.length hdrop
    simp only [List.length_drop, List.length_append, List.length_cons] at this
    omega
  | last hdrop hl hle =>
    have := congrArg List.length hdrop
    simp only [List.length_drop] at this
    omega

theorem scanLevels_left (after : List Char) (ts : List Level) :
    scanLevels after (levels (s.drop j)) ts = scanLevels after tail ts := by
  rcases h.levels_drop with heq | ⟨rfl, heq⟩
  · rw [heq]
  · rw [heq, scanLevels_nil_left]

theorem scanLevels_right (after : List Char) (fs : List Level) :
    scanLevels after fs (levels (s.drop j)) = scanLevels after fs tail := by
  rcases h.levels_drop with heq | ⟨rfl, heq⟩
  · rw [heq]
  · rw [heq, scanLevels_nil_right]

theorem levelLength : levelLength (s.drop i) = l.length := by
  cases h with
  | slash hdrop hl => rw [hdrop, levelLength_append hl]
  | last hdrop hl hle => rw [hdrop, levelLength_of_notMem hl]

/-- The step over the slash of a level that was read up to its end. -/
theorem next : (if i + l.length < s.length then i + l.length + 1 else i + l.length) = j := by
  cases h with
  | slash hdrop hl =>
    have := congrArg List.length hdrop
    simp only [List.length_drop, List.length_append, List.length_cons] at this
    rw [if_pos (by omega)]
  | last hdrop hl hle =>
    have := congrArg List.length hdrop
    simp only [List.length_drop] at this
    rw [if_neg (by omega)]

/-- The character that ends the level, in a NUL-terminated copy. -/
theorem read :
    ∃ c, (s ++ [nul])[i + l.length]? = some c
      ∧ (if c = '/' then i + l.length + 1 else i + l.length) = j := by
  cases h with
  | slash hdrop hl =>
    have hlen := congrArg List.length hdrop
    simp only [List.length_drop, List.length_append, List.length_cons] at hlen
    have hread : (s ++ [nul])[i + l.length]? = some '/' := by
      rw [List.getElem?_append_left (by omega), ← List.getElem?_drop, hdrop]
      simp
    exact ⟨'/', hread, if_pos rfl⟩
  | last hdrop hl hle =>
    have hlen := congrArg List.length hdrop
    simp only [List.length_drop] at hlen
    have hend : i + l.length = s.length := by omega
    refine ⟨nul, ?_, if_neg (by decide)⟩
    rw [hend]
    simp

theorem lt_iff : i < s.length ↔ ¬ (l = [] ∧ tail = []) := by
  cases h with
  | slash hdrop hl =>
    have := congrArg List.length hdrop
    simp only [List.length_drop, List.length_append, List.length_cons] at this
    simp only [levels_ne_nil, and_false, not_false_iff, iff_true]
    omega
  | last hdrop hl hle =>
    have := congrArg List.length hdrop
    simp only [List.length_drop] at this
    rw [← List.length_eq_zero_iff, and_iff_left rfl]
    omega

/-- The first character of what is left is the first one of the level, or the slash behind it. -/
theorem head (hlt : i < s.length) : (s ++ [nul])[i]? = some (l.headD '/') := by
  rw [List.getElem?_append_left hlt, ← List.head?_drop]
  cases h with
  | slash hdrop hl =>
    rw [hdrop]
    cases l with
    | nil => rfl
    | cons c l => rfl
  | last hdrop hl hle =>
    rw [hdrop]
    cases l with
    | nil =>
      have := congrArg List.length hdrop
      simp only [List.length_drop, List.length_nil] at this
      omega
    | cons c l => rfl

/-- Above the last level the unbounded scan stays within the slice. -/
theorem skipLevel_inner (hnul : nul ∉ s) (htail : tail ≠ []) (after : List Char) :
    skipLevel ((s ++ after).drop i) = some l.length ∧ (s ++ after)[i + l.length]? = some '/'
      ∧ i + l.length + 1 = j := by
  cases h with
  | last hdrop hl hle => exact absurd rfl htail
  | @slash rest hdrop hl =>
    have hlen := congrArg List.length hdrop
    simp only [List.length_drop, List.length_append, List.length_cons] at hlen
    have hnul' : nul ∉ l := by
      intro hmem
      apply hnul
      apply List.mem_of_mem_drop (i := i)
      rw [hdrop]
      exact List.mem_append_left _ hmem
    refine ⟨?_, ?_, rfl⟩
    · rw [List.drop_append_of_le_length (by omega), hdrop, List.append_assoc, List.cons_append]
      exact skipLevel_append hl hnul' _
    · rw [List.getElem?_append_left (by omega), ← List.getElem?_drop, hdrop]
      simp

end

/-- At the last level it goes on behind the slice. -/
theorem skipLevel_end (h : Splits s i l [] j) (hnul : nul ∉ s) (after : List Char) :
    skipLevel ((s ++ after).drop i) = (skipLevel after).map (l.length + ·)
      ∧ i + l.length = s.length := by
  generalize htail : ([] : List Level) = tail at h
  cases h with
  | slash hdrop hl => exact absurd htail.symm (levels_ne_nil _)
  | last hdrop hl hle =>
    have hlen := congrArg List.length hdrop
    simp only [List.length_drop] at hlen
    have hnul' : nul ∉ l := by
      intro hmem
      apply hnul
      apply List.mem_of_mem_drop (i := i)
      rw [hdrop]
      exact hmem
    refine ⟨?_, by omega⟩
    rw [List.drop_append_of_le_length hle, hdrop]
    exact skipLevel_last hl hnul' after

theorem take (h : Splits s i l tail j) : (s.drop i).take l.length = l := by
  cases h with
  | slash hdrop hl => rw [hdrop, List.take_left]
  | last hdrop hl hle => rw [hdrop, List.take_length]

theorem lt_next (h : Splits s i l tail j) (hlt : i < s.length) : i < j := by
  cases h with
  | slash hdrop hl => omega
  | last hdrop hl hle =>
    have := congrArg List.length hdrop
    simp only [List.length_drop] at this
    omega

/-- What is left behind the level is nothing, or the level `#`. -/
theorem rest_iff (h : Splits s i l tail j) :
    (s.drop j = [] ↔ tail = [] ∨ tail = [[]]) ∧ (s.drop j = ['#'] ↔ tail = [['#']]) := by
  have hnil : s.drop j = [] ↔ levels (s.drop j) = [[]] :=
    ⟨fun heq => by rw [heq, levels_nil], fun heq => levels_injective (heq.trans levels_nil.symm)⟩
  have hash : levels ['#'] = [['#']] := by decide
  have hhash : s.drop j = ['#'] ↔ levels (s.drop j) = [['#']] :=
    ⟨fun heq => by rw [heq, hash], fun heq => levels_injective (heq.trans hash.symm)⟩
  rcases h.levels_drop with heq | ⟨rfl, heq⟩
  · have hne : tail ≠ [] := heq ▸ levels_ne_nil _
    rw [hnil, hhash, heq]
    simp [hne]
  · rw [hnil, hhash, heq]
    simp

end Splits

/-- A level of a valid filter starts with a wildcard only if it is the wildcard. -/
theorem ValidLevels.head {f : Level} (h : ValidLevels (f :: fs)) :
    (f.headD '/' = '#' ↔ f = ['#']) ∧ (f.headD '/' = '+' ↔ f = ['+']) := by
  rcases h.1 with ⟨rfl, -⟩ | rfl | ⟨hhash, hplus⟩
  · decide
  · decide
  · cases f with
    | nil => decide
    | cons c f =>
      have hc : '#' ≠ c := fun heq => hhash (heq ▸ List.mem_cons_self)
      have hp : '+' ≠ c := fun heq => hplus (heq ▸ List.mem_cons_self)
      simp [hc.symm, hp.symm]

/-- Past the last level of the topic, the loop ends and only a final `#` can still match. -/
theorem matchLoop_of_le {topic filter : List Char} {t : Nat} (ht : topic.length ≤ t)
    (after : List Char) (fuel f : Nat) :
    matchLoop topic after filter (fuel + 1) f t = matchEnd topic filter f t := by
  rw [matchLoop, if_neg (by omega)]

/-- How far the scan behind the slice goes: not at all if a NUL or a slash follows. -/
theorem skipLevel_eq_zero {k : Nat} (h : skipLevel after = some k) :
    ∃ c, after[k]? = some c ∧ (c = nul ∨ c = '/')
      ∧ (k = 0 → after.head? = some c) ∧ (after.head? = some nul → k = 0) := by
  induction after generalizing k with
  | nil => exact nomatch h
  | cons c after ih =>
    rw [skipLevel] at h
    split at h
    · next hc =>
      obtain rfl : 0 = k := Option.some.inj h
      exact ⟨c, rfl, hc, fun _ => rfl, fun _ => rfl⟩
    · next hc =>
      obtain ⟨k', hk', rfl⟩ := Option.map_eq_some_iff.1 h
      obtain ⟨d, hd, hstop, -, -⟩ := ih hk'
      refine ⟨d, hd, hstop, fun h0 => absurd h0 (Nat.succ_ne_zero k'), ?_⟩
      intro hhead
      exact absurd (.inl (Option.some.inj hhead)) hc

/-- The round for a `+` at the last level of the topic. -/
theorem matchLoop_plus_last {topic filter : List Char} {f t j j' fuel : Nat}
    (hf : Splits filter f ['+'] fs j) (ht : Splits topic t l [] j')
    (hlt : f < filter.length ∧ t < topic.length) (hnul : nul ∉ topic) :
    matchLoop topic after filter (fuel + 2) f t = scanPast after fs := by
  obtain ⟨cf, hcf, hnext⟩ := hf.read
  obtain ⟨hskip, hend⟩ := ht.skipLevel_end hnul after
  have hread : (filter ++ [nul])[f]? = some '+' := hf.head hlt.1
  rw [matchLoop, if_pos hlt, hread, Option.bind_some, if_neg (by decide), if_pos rfl, hskip,
    scanPast]
  cases hafter : skipLevel after with
  | none => rfl
  | some k =>
    obtain ⟨c, hc, hstop, hzero, hhead⟩ := skipLevel_eq_zero hafter
    have hct : (topic ++ after)[t + (l.length + k)]? = some c := by
      rw [← Nat.add_assoc, hend, List.getElem?_append_right (by omega), Nat.add_sub_cancel_left]
      exact hc
    simp only [Option.map_some, Option.bind_some]
    show ((filter ++ [nul])[f + 1]?.bind fun cf => _) = _
    rw [show (filter ++ [nul])[f + 1]? = some cf from hcf, Option.bind_some, hct,
      Option.bind_some, show (if cf = '/' then f + 1 + 1 else f + 1) = j from hnext]
    have hpast : topic.length ≤ if c = '/' then t + (l.length + k) + 1 else t + (l.length + k) := by
      split <;> omega
    -- the pointer stands at the end of the slice only if a NUL follows it
    have hexact : ((if c = '/' then t + (l.length + k) + 1 else t + (l.length + k))
        = topic.length) ↔ after.head? = some nul := by
      constructor
      · intro heq
        split at heq
        · omega
        · next hslash =>
          have hk : k = 0 := by omega
          rw [hzero hk, hstop.resolve_right hslash]
      · intro hnulHead
        have hk : k = 0 := hhead hnulHead
        have hcnul : c = nul := Option.some.inj ((hzero hk).symm.trans hnulHead)
        rw [hcnul, if_neg (by decide)]
        omega
    rw [matchLoop_of_le hpast, matchEnd_eq rfl hf.le]
    obtain ⟨hnil, hhash⟩ := hf.rest_iff
    congr 1
    rw [Bool.eq_iff_iff]
    simp only [Bool.or_eq_true, Bool.and_eq_true, beq_iff_eq, spent, hnil, hhash, hexact]
    by_cases hmulti : fs = [['#']]
    · simp [hmulti]
    · simp [hmulti]

variable {ts : List Level}

/-- The end test, once the filter or the topic is used up. -/
theorem matchEnd_scanLevels {topic filter : List Char} {f t j j' : Nat} {lf lt : Level}
    (hf : Splits filter f lf fs j) (ht : Splits topic t lt ts j')
    (hflevels : levels (filter.drop f) = lf :: fs) (hfle : f ≤ filter.length)
    (htle : t ≤ topic.length) (hend : ¬ (f < filter.length ∧ t < topic.length))
    (after : List Char) : matchEnd topic filter f t = scanLevels after (lf :: fs) (lt :: ts) := by
  rw [matchEnd_eq rfl hfle, scanLevels]
  by_cases hdone : lt = [] ∧ ts = []
  · have htlen : t = topic.length := by
      have := mt ht.lt_iff.1 (not_not_intro hdone)
      omega
    have hnil : filter.drop f = [] ↔ lf :: fs = [[]] := by
      rw [← hflevels, ← levels_nil]
      exact ⟨fun heq => congrArg levels heq, levels_injective⟩
    have hhash : filter.drop f = ['#'] ↔ lf :: fs = [['#']] := by
      rw [← hflevels, ← show levels ['#'] = [['#']] by decide]
      exact ⟨fun heq => congrArg levels heq, levels_injective⟩
    rw [if_pos hdone]
    congr 1
    rw [Bool.eq_iff_iff]
    simp only [Bool.or_eq_true, Bool.and_eq_true, beq_iff_eq, spent, hnil, hhash, htlen,
      and_true, reduceCtorEq, false_or]
    exact Or.comm
  · have htlt : t < topic.length := ht.lt_iff.2 hdone
    have hused : lf = [] ∧ fs = [] := by
      have := mt hf.lt_iff.2 (fun h => hend ⟨h, htlt⟩)
      exact not_not.1 this
    have hdrop : filter.drop f = [] := by
      apply levels_injective
      rw [hflevels, hused.1, hused.2, levels_nil]
    have hne : t ≠ topic.length := Nat.ne_of_lt htlt
    rw [if_neg hdone, if_pos hused, hdrop, beq_false_of_ne hne]
    rfl

/-- The comparison of two levels that hold no wildcard. -/
theorem compare_iff {topic filter : List Char} {f t j j' : Nat} {lf lt : Level}
    (hf : Splits filter f lf fs j) (ht : Splits topic t lt ts j') (hfnul : nul ∉ filter)
    (hnul : nul ∉ topic) :
    (lf.length ≠ lt.length
        ∨ strncmpEq lf.length (filter.drop f) (topic.drop t) = false) ↔ lf ≠ lt := by
  have htake := strncmpEq_iff_take (fun h => hfnul (List.mem_of_mem_drop h))
    (fun h => hnul (List.mem_of_mem_drop h)) (a := filter.drop f) (b := topic.drop t) lf.length
  rw [hf.take] at htake
  by_cases hlen : lf.length = lt.length
  · rw [hlen, ht.take, ← hlen] at htake
    rw [← Bool.not_eq_true, htake]
    simp [hlen]
  · have hne : lf ≠ lt := fun heq => hlen (congrArg List.length heq)
    simp [hlen, hne]

/-- **Scan.** From any two positions the loop computes `scanLevels` of what is left. -/
theorem matchLoop_eq {topic filter : List Char} (hnul : nul ∉ topic) (hfnul : nul ∉ filter)
    (after : List Char) (fuel f t : Nat) (hfle : f ≤ filter.length) (htle : t ≤ topic.length)
    (hfuel : filter.length - f < fuel) (hvalid : ValidLevels (levels (filter.drop f))) :
    matchLoop topic after filter fuel f t
      = scanLevels after (levels (filter.drop f)) (levels (topic.drop t)) := by
  induction fuel generalizing f t with
  | zero => omega
  | succ fuel ih =>
    obtain ⟨lf, fs, j, hf, hflevels⟩ := Splits.exists_of_le hfle
    obtain ⟨lt, ts, j', ht, htlevels⟩ := Splits.exists_of_le htle
    rw [hflevels] at hvalid ⊢
    rw [htlevels]
    by_cases hlt : f < filter.length ∧ t < topic.length
    · obtain ⟨hhash, hplus⟩ := hvalid.head
      have hnext : f < j := hf.lt_next hlt.1
      have hrest : ValidLevels (levels (filter.drop j)) := by
        rcases hf.levels_drop with heq | ⟨-, heq⟩
        · rw [heq]
          exact hvalid.2
        · rw [heq]
          exact ⟨.inr (.inr (by simp)), trivial⟩
      have hih : matchLoop topic after filter fuel j j' = scanLevels after fs ts := by
        rw [ih j j' hf.le ht.le (by omega) hrest, hf.scanLevels_left, ht.scanLevels_right]
      rw [scanLevels, if_neg (ht.lt_iff.1 hlt.2), if_neg (hf.lt_iff.1 hlt.1)]
      by_cases hmulti : lf = ['#']
      · have hlast : fs = [] := by
          rcases hvalid.1 with ⟨-, hfs⟩ | heq | ⟨hnot, -⟩
          · exact hfs
          · exact absurd (hmulti.symm.trans heq) (by decide)
          · exact absurd (hmulti ▸ List.mem_singleton_self _) hnot
        have hlen : f + 1 = filter.length := by
          subst hmulti hlast
          have := (hf.skipLevel_end hfnul []).2
          exact this
        rw [matchLoop, if_pos hlt, hf.head hlt.1, Option.bind_some, if_pos (hhash.2 hmulti),
          if_pos hmulti, hlast, hlen, beq_self_eq_true]
        rfl
      · rw [if_neg hmulti]
        by_cases hsingle : lf = ['+']
        · subst hsingle
          rw [if_pos rfl]
          by_cases htail : ts = []
          · subst htail
            rw [if_pos rfl]
            obtain ⟨n, rfl⟩ : ∃ n, fuel = n + 1 := ⟨fuel - 1, by omega⟩
            exact matchLoop_plus_last hf ht hlt hnul
          · obtain ⟨hskip, hread, hjump⟩ := ht.skipLevel_inner hnul htail after
            obtain ⟨cf, hcf, hjf⟩ := hf.read
            rw [if_neg htail, matchLoop, if_pos hlt, hf.head hlt.1, Option.bind_some,
              if_neg (by decide), if_pos (hplus.2 rfl), hskip, Option.bind_some,
              show (filter ++ [nul])[f + 1]? = some cf from hcf, Option.bind_some, hread,
              Option.bind_some, show (if cf = '/' then f + 1 + 1 else f + 1) = j from hjf,
              if_pos rfl, hjump]
            exact hih
        · rw [if_neg hsingle, matchLoop, if_pos hlt, hf.head hlt.1, Option.bind_some,
            if_neg (mt hhash.1 hmulti), if_neg (mt hplus.1 hsingle)]
          simp only [hf.levelLength, ht.levelLength, Nat.add_sub_cancel_left, hf.next, ht.next,
            compare_iff hf ht hfnul hnul, hih]
          by_cases heq : lf = lt
          · rw [if_neg (not_not_intro heq), if_pos heq]
          · rw [if_pos heq, if_neg heq]
    · rw [matchLoop, if_neg hlt]
      exact matchEnd_scanLevels hf ht hflevels hfle htle hlt after

/-- `osal_mqtt_match_topic` computes `scanLevels` of the levels. -/
theorem matchTopic_eq (filter : TopicFilter) (topic : TopicName) (after : List Char) :
    matchTopic topic.chars after filter.chars
      = scanLevels after (levels filter.chars) (levels topic.chars) := by
  have h := matchLoop_eq topic.nulFree filter.nulFree after (filter.chars.length + 1) 0 0
    (Nat.zero_le _) (Nat.zero_le _) (by omega) filter.valid
  rwa [List.drop_zero, List.drop_zero] at h

/-! ## Where the scan and the meaning part -/

/-- The filters left over that match one empty level but are not seen to. -/
def lostFilters : List (List Level) := [[['+']], [['+'], ['#']], [[], ['#']]]

/-- The levels of a filter and of a topic on which the scan errs. After some levels that agree,
it is one of four kinds. -/
inductive Misread (after : List Char) : List Level → List Level → Prop
  /-- The levels so far agree. -/
  | agree {f t : Level} {fs ts : List Level} (hft : f = ['+'] ∨ f = t) (h : Misread after fs ts) :
    Misread after (f :: fs) (t :: ts)
  /-- The topic has a final empty level more than the filter: taken for a match. -/
  | topicSlash {f t : Level} (hft : f = ['+'] ∨ (f = t ∧ f ≠ [] ∧ f ≠ ['#'])) :
    Misread after [f] [t, []]
  /-- The final empty level of the topic is not seen by a `+` or by what stands before a `#`. -/
  | lostLevel {fs : List Level} (hfs : fs ∈ lostFilters) : Misread after fs [[]]
  /-- The filter has a final empty level more than the topic: taken for a match. -/
  | filterSlash {f t : Level} (ht : t ≠ [])
    (hft : (f = t ∧ f ≠ ['+']) ∨ (f = ['+'] ∧ after.head? = some nul)) :
    Misread after [f, []] [t]
  /-- A `+` at the last level of a topic that no NUL follows. -/
  | overrun {t : Level} {fs : List Level} (ht : t ≠ []) (hnul : after.head? ≠ some nul)
    (hfs : skipLevel after = none ∨ fs = []) : Misread after (['+'] :: fs) [t]

theorem not_misread_nil_left (after : List Char) (ts : List Level) : ¬ Misread after [] ts := by
  intro h
  cases h with
  | lostLevel hfs => exact absurd hfs (by decide)

theorem not_misread_nil_right (after : List Char) (fs : List Level) : ¬ Misread after fs [] := by
  intro h
  cases h

theorem misread_cons_iff {f t : Level} :
    Misread after (f :: fs) (t :: ts) ↔
      ((f = ['+'] ∨ f = t) ∧ Misread after fs ts)
      ∨ (fs = [] ∧ ts = [[]] ∧ (f = ['+'] ∨ (f = t ∧ f ≠ [] ∧ f ≠ ['#'])))
      ∨ (t = [] ∧ ts = [] ∧ f :: fs ∈ lostFilters)
      ∨ (fs = [[]] ∧ ts = [] ∧ t ≠ []
        ∧ ((f = t ∧ f ≠ ['+']) ∨ (f = ['+'] ∧ after.head? = some nul)))
      ∨ (f = ['+'] ∧ ts = [] ∧ t ≠ [] ∧ after.head? ≠ some nul
        ∧ (skipLevel after = none ∨ fs = [])) := by
  constructor
  · intro h
    cases h with
    | agree hft h => exact .inl ⟨hft, h⟩
    | topicSlash hft => exact .inr (.inl ⟨rfl, rfl, hft⟩)
    | lostLevel hfs => exact .inr (.inr (.inl ⟨rfl, rfl, hfs⟩))
    | filterSlash ht hft => exact .inr (.inr (.inr (.inl ⟨rfl, rfl, ht, hft⟩)))
    | overrun ht hnul hfs => exact .inr (.inr (.inr (.inr ⟨rfl, rfl, ht, hnul, hfs⟩)))
  · rintro (⟨hft, h⟩ | ⟨rfl, rfl, hft⟩ | ⟨rfl, rfl, hfs⟩ | ⟨rfl, rfl, ht, hft⟩
      | ⟨rfl, rfl, ht, hnul, hfs⟩)
    · exact .agree hft h
    · exact .topicSlash hft
    · exact .lostLevel hfs
    · exact .filterSlash ht hft
    · exact .overrun ht hnul hfs

instance decidableMisread (after : List Char) :
    (fs ts : List Level) → Decidable (Misread after fs ts)
  | [], ts => isFalse (not_misread_nil_left after ts)
  | f :: fs, [] => isFalse (not_misread_nil_right after (f :: fs))
  | _ :: fs, _ :: ts =>
    have : Decidable (Misread after fs ts) := decidableMisread after fs ts
    decidable_of_iff' _ misread_cons_iff

theorem levelsMatch_nil_right (fs : List Level) :
    levelsMatch fs [] = (fs == [] || fs == [['#']]) := by
  cases fs with
  | nil => rfl
  | cons f fs => cases fs <;> simp [levelsMatch]

/-- The scan on a topic that is used up, against the meaning of the filter. -/
theorem spent_eq_iff (fs : List Level) : spent fs = levelsMatch fs [] ↔ fs ≠ [[]] := by
  rw [spent, levelsMatch_nil_right]
  by_cases h : fs = [[]]
  · rw [h]
    decide
  · rw [beq_false_of_ne h, Bool.or_false]
    exact iff_of_true rfl h

/-- The filter's last levels, against the final empty level of the topic. -/
theorem spent_cons_eq_iff (f : Level) (fs : List Level) :
    spent (f :: fs) = levelsMatch (f :: fs) [[]] ↔ f :: fs ∉ lostFilters := by
  have hmatch : levelsMatch (f :: fs) [[]] = true ↔
      (f = ['#'] ∧ fs = []) ∨ ((f = ['+'] ∨ f = []) ∧ (fs = [] ∨ fs = [['#']])) := by
    simp [levelsMatch, levelsMatch_nil_right]
  have hspent : spent (f :: fs) = true ↔ (f = [] ∨ f = ['#']) ∧ fs = [] := by
    simp [spent, or_and_right]
  have hlost : f :: fs ∈ lostFilters ↔
      (f = ['+'] ∧ (fs = [] ∨ fs = [['#']])) ∨ (f = [] ∧ fs = [['#']]) := by
    simp [lostFilters, and_or_left, or_assoc]
  rw [Bool.eq_iff_iff, hmatch, hspent, hlost]
  by_cases hsingle : f = ['+']
  · simp [hsingle]
  · by_cases hempty : f = []
    · by_cases hnil : fs = []
      · simp [hempty, hnil]
      · simp [hempty, hnil]
    · simp [hsingle, hempty]

/-- A `+` at the last level of the topic. -/
theorem scanPast_eq_iff (after : List Char) (fs : List Level) :
    scanPast after fs = some (levelsMatch fs [])
      ↔ ¬ ((fs = [[]] ∧ after.head? = some nul)
        ∨ (after.head? ≠ some nul ∧ (skipLevel after = none ∨ fs = []))) := by
  rw [scanPast]
  cases hskip : skipLevel after with
  | none =>
    have hnul : after.head? ≠ some nul := by
      intro hhead
      cases after with
      | nil => exact nomatch hhead
      | cons c after =>
        obtain rfl : c = nul := Option.some.inj hhead
        rw [skipLevel, if_pos (.inl rfl)] at hskip
        exact nomatch hskip
    simp [hnul]
  | some k =>
    by_cases hhead : after.head? = some nul
    · simp [hhead, spent_eq_iff]
    · rw [Option.map_some, Option.some_inj, beq_false_of_ne hhead, Bool.or_false,
        levelsMatch_nil_right, spent]
      by_cases hnil : fs = []
      · simp [hnil, hhead]
      · by_cases hmulti : fs = [['#']]
        · simp [hmulti, hhead]
        · rw [beq_false_of_ne hmulti, beq_false_of_ne hnil]
          simp [hnil, hhead]

/-- The last level of the filter, against a topic with more levels below. -/
theorem scanLevels_nil_eq_iff (after : List Char) (hts : ts ≠ []) :
    scanLevels after [] ts = some (levelsMatch [] ts) ↔ ts ≠ [[]] := by
  cases ts with
  | nil => exact absurd rfl hts
  | cons t ts => simp [scanLevels, levelsMatch]

/-- **Levels.** The scan says what the filter means, except on a misread pair. -/
theorem scanLevels_eq_iff (after : List Char) (hvalid : ValidLevels fs) (hfs : fs ≠ [])
    (hts : ts ≠ []) :
    scanLevels after fs ts = some (levelsMatch fs ts) ↔ ¬ Misread after fs ts := by
  induction ts generalizing fs with
  | nil => exact absurd rfl hts
  | cons t ts ih =>
    cases fs with
    | nil => exact absurd rfl hfs
    | cons f fs =>
      rw [misread_cons_iff, scanLevels]
      by_cases hdone : t = [] ∧ ts = []
      · -- nothing of the topic is left, the filter has levels
        obtain ⟨rfl, rfl⟩ := hdone
        rw [if_pos ⟨rfl, rfl⟩, Option.some_inj]
        rw [spent_cons_eq_iff]
        simp [not_misread_nil_right]
      · rw [if_neg hdone]
        by_cases hused : f = [] ∧ fs = []
        · obtain ⟨rfl, rfl⟩ := hused
          have hnot : ¬ ([] = t ∧ ts = []) := fun h => hdone ⟨h.1.symm, h.2⟩
          rw [if_pos ⟨rfl, rfl⟩]
          simpa [not_misread_nil_left, levelsMatch, lostFilters] using fun h h' => hdone ⟨h, h'⟩
        · rw [if_neg hused]
          by_cases hmulti : f = ['#']
          · obtain rfl : fs = [] := by
              rcases hvalid.1 with ⟨-, hlast⟩ | heq | ⟨hnot, -⟩
              · exact hlast
              · exact absurd (hmulti.symm.trans heq) (by decide)
              · exact absurd (hmulti ▸ List.mem_singleton_self _) hnot
            rw [if_pos hmulti]
            simp [not_misread_nil_left, levelsMatch, lostFilters, hmulti]
          · rw [if_neg hmulti]
            by_cases hsingle : f = ['+']
            · subst hsingle
              rw [if_pos rfl]
              by_cases htail : ts = []
              · have ht : t ≠ [] := fun h => hdone ⟨h, htail⟩
                subst htail
                have hmatch : levelsMatch (['+'] :: fs) [t] = levelsMatch fs [] := by
                  simp [levelsMatch]
                rw [if_pos rfl, hmatch, scanPast_eq_iff]
                simp [not_misread_nil_right, ht]
              · have hmatch : levelsMatch (['+'] :: fs) (t :: ts) = levelsMatch fs ts := by
                  simp [levelsMatch]
                rw [if_neg htail, hmatch]
                by_cases hlast : fs = []
                · subst hlast
                  rw [scanLevels_nil_eq_iff after htail]
                  simp [not_misread_nil_left, htail]
                · rw [ih hvalid.2 hlast htail]
                  simp [hlast, htail]
            · rw [if_neg hsingle]
              by_cases heq : f = t
              · subst heq
                have hmatch : levelsMatch (f :: fs) (f :: ts) = levelsMatch fs ts := by
                  simp [levelsMatch, hmulti]
                rw [if_pos rfl, hmatch]
                by_cases htail : ts = []
                · have ht : f ≠ [] := fun h => hdone ⟨h, htail⟩
                  subst htail
                  rw [show scanLevels after fs [] = some (spent fs) by cases fs <;> rfl,
                    Option.some_inj, spent_eq_iff]
                  simp [not_misread_nil_right, ht, hsingle]
                · by_cases hlast : fs = []
                  · subst hlast
                    rw [scanLevels_nil_eq_iff after htail]
                    have hne : f ≠ [] := fun h => hused ⟨h, rfl⟩
                    simp [not_misread_nil_left, htail, hmulti, hne]
                  · rw [ih hvalid.2 hlast htail]
                    simp [hlast, htail]
              · have hmatch : levelsMatch (f :: fs) (t :: ts) = false := by
                  simp [levelsMatch, hmulti, hsingle, heq]
                rw [if_neg heq, hmatch]
                simpa [hsingle, heq] using fun h h' => absurd ⟨h, h'⟩ hdone

end RainMakerNeo.Mqtt
