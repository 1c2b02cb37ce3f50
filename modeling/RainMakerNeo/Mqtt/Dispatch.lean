import RainMakerNeo.Mqtt.SubscriptionTable

/-!
# `RainMakerNeo.Mqtt.Dispatch`: which subscriptions a message reaches

A message reaches the entries whose filter `osal_mqtt_match_topic` accepts
(`collect_eq_some_iff`). With `scanLevels_eq_iff` these are the entries whose filter matches the
topic, unless the pair of a filter and the topic is misread.

A pair can be misread for some of the bytes behind the topic and not for others. `Overruns` is when
the result depends on them at all.
-/

set_option autoImplicit false

namespace RainMakerNeo.Mqtt

open RainMakerNeo.Lib

/-- After some levels that agree, a `+` stands at the last level of the topic, which is not
empty. -/
inductive Overruns : List Level → List Level → Prop
  | agree {f t : Level} {fs ts : List Level} (hft : f = ['+'] ∨ f = t) (h : Overruns fs ts) :
    Overruns (f :: fs) (t :: ts)
  | last {t : Level} (fs : List Level) (ht : t ≠ []) : Overruns (['+'] :: fs) [t]

theorem Overruns.ne_nil {fs ts : List Level} (h : Overruns fs ts) : fs ≠ [] ∧ ts ≠ [] := by
  cases h with
  | agree hft h => exact ⟨List.cons_ne_nil _ _, List.cons_ne_nil _ _⟩
  | last fs ht => exact ⟨List.cons_ne_nil _ _, List.cons_ne_nil _ _⟩

/-- One round over two levels that agree. -/
theorem scanLevels_agree {f t : Level} {fs ts : List Level} (hvalid : ValidLevels (f :: fs))
    (hfs : fs ≠ []) (hts : ts ≠ []) (hft : f = ['+'] ∨ f = t) (after : List Char) :
    scanLevels after (f :: fs) (t :: ts) = scanLevels after fs ts := by
  have hmulti : f ≠ ['#'] := by
    rintro rfl
    rcases hvalid.1 with ⟨-, hlast⟩ | heq | ⟨hnot, -⟩
    · exact hfs hlast
    · exact absurd heq (by decide)
    · exact hnot List.mem_cons_self
  rw [scanLevels, if_neg fun h => hts h.2, if_neg fun h => hfs h.2, if_neg hmulti]
  by_cases hsingle : f = ['+']
  · rw [if_pos hsingle, if_neg hts]
  · rw [if_neg hsingle, if_pos (hft.resolve_left hsingle)]

theorem scanLevels_plus_last (after : List Char) (fs : List Level) {t : Level} (ht : t ≠ []) :
    scanLevels after (['+'] :: fs) [t] = scanPast after fs := by
  rw [scanLevels, if_neg fun h => ht h.1, if_neg fun h => absurd h.1 (by decide),
    if_neg (by decide), if_pos rfl, if_pos rfl]

/-- An overrun has no result if no byte follows the topic, and has one if a NUL does. -/
theorem Overruns.scanLevels {fs ts : List Level} (h : Overruns fs ts) (hvalid : ValidLevels fs) :
    scanLevels [] fs ts = none ∧ (scanLevels [nul] fs ts).isSome := by
  induction h with
  | agree hft h ih =>
    obtain ⟨hfs, hts⟩ := h.ne_nil
    rw [scanLevels_agree hvalid hfs hts hft, scanLevels_agree hvalid hfs hts hft]
    exact ih hvalid.2
  | last fs ht =>
    rw [scanLevels_plus_last _ _ ht, scanLevels_plus_last _ _ ht]
    exact ⟨rfl, rfl⟩

/-- Without an overrun, the bytes behind the topic are never read. -/
theorem scanLevels_congr {fs ts : List Level} (h : ¬ Overruns fs ts) (after after' : List Char) :
    scanLevels after fs ts = scanLevels after' fs ts := by
  induction ts generalizing fs with
  | nil => cases fs <;> rfl
  | cons t ts ih =>
    cases fs with
    | nil => rfl
    | cons f fs =>
      rw [scanLevels, scanLevels]
      by_cases hdone : t = [] ∧ ts = []
      · rw [if_pos hdone, if_pos hdone]
      · rw [if_neg hdone, if_neg hdone]
        by_cases hsingle : f = ['+']
        · subst hsingle
          by_cases htail : ts = []
          · have ht : t ≠ [] := fun ht => hdone ⟨ht, htail⟩
            exact absurd (htail ▸ .last fs ht) h
          · rw [if_pos rfl, if_neg htail, if_pos rfl, if_neg htail,
              ih fun hrest => h (.agree (.inl rfl) hrest)]
        · rw [if_neg hsingle, if_neg hsingle]
          by_cases heq : f = t
          · rw [if_pos heq, if_pos heq, ih fun hrest => h (.agree (.inr heq) hrest)]
          · rw [if_neg heq, if_neg heq]

/-- The result depends on the bytes behind the topic exactly when the scan overruns it. -/
theorem matchTopic_independent_iff (filter : TopicFilter) (topic : TopicName) :
    (∀ after after', matchTopic topic.chars after filter.chars
        = matchTopic topic.chars after' filter.chars)
      ↔ ¬ Overruns (levels filter.chars) (levels topic.chars) := by
  simp only [matchTopic_eq]
  constructor
  · intro hsame hover
    obtain ⟨hnone, hsome⟩ := hover.scanLevels filter.valid
    rw [hsame [nul] [], hnone] at hsome
    exact nomatch hsome
  · exact fun h => scanLevels_congr h

/-- The matcher says what the filter means exactly when the pair is not misread. -/
theorem matchTopic_eq_iff (filter : TopicFilter) (topic : TopicName) (after : List Char) :
    matchTopic topic.chars after filter.chars
        = some (levelsMatch (levels filter.chars) (levels topic.chars))
      ↔ ¬ Misread after (levels filter.chars) (levels topic.chars) := by
  rw [matchTopic_eq]
  exact scanLevels_eq_iff after filter.valid (levels_ne_nil _) (levels_ne_nil _)

/-- The levels of the filter of an entry. -/
def Element.levels (e : Element) : List Level := Mqtt.levels ((e.filter.map Block.chars).getD [])

/-- Each entry has a copy of a whole valid filter. -/
def Table.Filters (t : Table) : Prop :=
  ∀ e ∈ t.entries, ∃ (filter : TopicFilter) (address : Nat),
    e.filter = some { address := address, chars := filter.chars }
      ∧ e.filterLength = filter.chars.length

/-- The entries whose filters match a topic. -/
def Table.matching (t : Table) (topic : TopicName) : List Element :=
  t.entries.filter fun e => levelsMatch e.levels (levels topic.chars)

theorem Table.Filters.matched {t : Table} (h : t.Filters) {e : Element} (he : e ∈ t.entries)
    (topic : TopicName) (after : List Char) :
    e.matched topic.chars after = some (levelsMatch e.levels (levels topic.chars))
      ↔ ¬ Misread after e.levels (levels topic.chars) := by
  obtain ⟨filter, address, hfilter, hlen⟩ := h e he
  rw [Element.matched, Element.levels, hfilter, Option.bind_some, if_pos hlen.symm]
  exact matchTopic_eq_iff filter topic after

/-- A message reaches exactly the matching entries if and only if none of the entries is
misread. -/
theorem Table.Filters.handlePublish_iff {t : Table} (h : t.Filters) (hmutex : t.mutex = true)
    (topic : TopicName) (after : List Char) :
    t.handlePublish (some topic.chars) after = some (t.matching topic)
      ↔ ∀ e ∈ t.entries, ¬ Misread after e.levels (levels topic.chars) := by
  simp only [Table.handlePublish]
  rw [if_neg (by rw [hmutex]; decide), collect_eq_some_iff, Table.matching]
  constructor
  · rintro ⟨hall, heq⟩ e he
    obtain ⟨m, hm⟩ := hall e he
    rw [← h.matched he, hm]
    -- the entry is in both lists or in neither
    have hmem : levelsMatch e.levels (levels topic.chars) = true ↔ m = true := by
      have hiff := iff_of_eq (congrArg (e ∈ ·) heq)
      have hslots : e ∈ t.slots.filter Element.occupied := he
      rw [List.mem_filter, List.mem_filter, and_iff_right he, and_iff_right hslots, hm] at hiff
      simpa using hiff
    rw [Option.some_inj, Bool.eq_iff_iff]
    exact hmem.symm
  · intro hall
    refine ⟨fun e he => ⟨_, (h.matched he topic after).2 (hall e he)⟩, ?_⟩
    refine List.filter_congr fun e he => ?_
    rw [(h.matched he topic after).2 (hall e he)]
    cases levelsMatch e.levels (levels topic.chars) <;> rfl

/-- **Topic matching.** The matcher says what the filter means exactly when the pair is not
misread. Its result depends only on the two slices exactly when the scan does not overrun the
topic. A message reaches exactly the matching entries when no entry is misread. -/
theorem dispatch_iff (topic : TopicName) :
    (∀ (filter : TopicFilter) (after : List Char),
      matchTopic topic.chars after filter.chars
          = some (levelsMatch (levels filter.chars) (levels topic.chars))
        ↔ ¬ Misread after (levels filter.chars) (levels topic.chars))
    ∧ (∀ filter : TopicFilter,
      (∀ after after', matchTopic topic.chars after filter.chars
          = matchTopic topic.chars after' filter.chars)
        ↔ ¬ Overruns (levels filter.chars) (levels topic.chars))
    ∧ ∀ t : Table, t.Filters → t.mutex = true → ∀ after : List Char,
      t.handlePublish (some topic.chars) after = some (t.matching topic)
        ↔ ∀ e ∈ t.entries, ¬ Misread after e.levels (levels topic.chars) :=
  ⟨fun filter after => matchTopic_eq_iff filter topic after,
    fun filter => matchTopic_independent_iff filter topic,
    fun _ h hmutex after => h.handlePublish_iff hmutex topic after⟩

/-- The filter `a/+`. -/
def plusFilter : TopicFilter where
  chars := ['a', '/', '+']
  nonempty := by decide
  nulFree := by decide
  valid := by decide

/-- The filter `a`. -/
def plainFilter : TopicFilter where
  chars := ['a']
  nonempty := by decide
  nulFree := by decide
  valid := by decide

/-- The topic `a/b`. -/
def plainTopic : TopicName where
  chars := ['a', '/', 'b']
  nonempty := by decide
  nulFree := by decide

/-- The topic `a/`. -/
def slashTopic : TopicName where
  chars := ['a', '/']
  nonempty := by decide
  nulFree := by decide

/-- A table with one entry, for `a/+`. -/
def plusTable : Table where
  slots := [{ Element.zero with
    callback := 1, filterLength := 3, filter := some { address := 0, chars := plusFilter.chars } }]
  count := 1
  mutex := true
  next := 1
  live := [0]

/-- With a NUL behind the topic, `a/b` reaches the entry for `a/+`. -/
theorem dispatch_plusTable :
    plusTable.handlePublish (some plainTopic.chars) [nul] = some plusTable.slots := by
  have hfilters : plusTable.Filters := by
    intro e he
    obtain rfl : e = _ := List.mem_singleton.1 he
    exact ⟨plusFilter, 0, rfl, rfl⟩
  exact ((dispatch_iff plainTopic).2.2 plusTable hfilters rfl [nul]).2 (by decide +kernel)

/-- The result can be wrong. `a/b` is not taken to match `a/+` if the payload follows the topic,
and memory behind the slice is read if nothing stops the scan. `a/` is not taken to match `a/+`,
and it is taken to match `a`, although a NUL follows it. -/
theorem dispatch_misread :
    matchTopic plainTopic.chars ['x', nul] plusFilter.chars = some false
    ∧ matchTopic plainTopic.chars [] plusFilter.chars = none
    ∧ matchTopic plainTopic.chars [nul] plusFilter.chars = some true
    ∧ levelsMatch (levels plusFilter.chars) (levels plainTopic.chars) = true
    ∧ matchTopic slashTopic.chars [nul] plusFilter.chars = some false
    ∧ levelsMatch (levels plusFilter.chars) (levels slashTopic.chars) = true
    ∧ matchTopic slashTopic.chars [nul] plainFilter.chars = some true
    ∧ levelsMatch (levels plainFilter.chars) (levels slashTopic.chars) = false := by
  decide +kernel

end RainMakerNeo.Mqtt
