import Mathlib.Data.List.Lex
import Mathlib.Data.Char
import Mathlib.Data.List.Sort
import Mathlib.Logic.Function.Basic
import RainMakerNeo.Lib.Run

/-!
# `RainMakerNeo.State.TagReport`: the tags of the nodes and their checksums

The report task publishes the tags of a node in its indexed shadow when their checksum is not the
committed one. The checksum is a snapshot until the payload is acknowledged, and committed then.

An acknowledgement does not say which node it is for. `__commit_pending_tag_checksums` commits the
snapshots of all nodes. A report also passes by a node whose list of parameter updates is empty.
`committed_of_own` says when the committed checksums are nevertheless those of acknowledged
payloads, and changed tags are published by the next report. `other_committed_and_skipped` has runs
where it is otherwise.

The task and the acknowledgement visit the nodes one after the other, each node under its own lock,
so a visit is a step. SHA-256 is a parameter. No allocation of a tag fails.
-/

set_option autoImplicit false

namespace RainMakerNeo.State.Tags

open RainMakerNeo.Lib

/-! ### The model -/

/-- `esp_rmaker_tag_t`. -/
structure Tag where
  name : List Char
  value : List Char
  deriving DecidableEq, Repr

/-- `__esp_rmaker_node_add_tag`. -/
def addTag (name value : List Char) : List Tag → List Tag
  | [] => [⟨name, value⟩]
  | tag :: tags => if tag.name = name then ⟨name, value⟩ :: tags else tag :: addTag name value tags

/-- The string that is hashed: the tags by their names. -/
def checksumStr (tags : List Tag) : List Char :=
  (tags.insertionSort fun a b => a.name ≤ b.name).flatMap fun tag =>
    tag.name ++ ':' :: (tag.value ++ [';'])

/-- `node->tag_check`. `none` is a snapshot or a checksum that is not set. -/
structure TagCheck (η : Type*) where
  pending : Option η := none
  committed : Option η := none
  deriving DecidableEq, Repr

/-- What the reports read of a node. -/
structure Node (η : Type*) where
  isSelf : Bool
  tags : List Tag := []
  /-- The pending updates: whether each is in the indexed shadow too. -/
  updates : List Bool := []
  check : TagCheck η := {}
  /-- The checksum in the storage. -/
  stored : Option η := none
  deriving DecidableEq, Repr

/-- An indexed payload, with the tags that it tells. -/
structure Message (κ : Type*) where
  id : Nat
  node : κ
  tags : Option (List Tag)
  deriving DecidableEq, Repr

/-- `__commit_pending_tag_checksums` for an acknowledgement, with the nodes that it has still to
visit. -/
structure Commit (κ : Type*) where
  message : Message κ
  success : Bool
  nodes : List κ
  deriving DecidableEq, Repr

/-- How the indexed payload is sent. -/
inductive Publish
  | noTopic
  | refused
  | accepted
  deriving DecidableEq, Repr

/-- What a visit of the report task meets. -/
structure Answers where
  /-- The stored checksum can be read. -/
  loads : Bool := true
  /-- The payloads are allocated and filled. -/
  populates : Bool := true
  /-- The named payload is accepted. -/
  named : Bool := true
  indexed : Publish := .accepted
  deriving DecidableEq, Repr

/-- The nodes, the indexed payloads without an acknowledgement, and the acknowledgement that is
handled. The fields from `nextId` on do not exist in the code. -/
structure Reporter (κ η : Type*) where
  nodes : κ → Node η
  inflight : List (Message κ) := []
  commit : Option (Commit κ) := none
  nextId : Nat := 0
  /-- The last payload with tags of each node. -/
  latest : κ → Option (Message κ) := fun _ => none
  /-- The payloads that were acknowledged successfully. -/
  acked : List (Message κ) := []

/-- What happens next. -/
inductive Action (κ : Type*)
  | addTag (k : κ) (name value : List Char)
  | update (k : κ) (inIndexed : Bool)
  /-- `esp_rmaker_state_drop_node`. -/
  | dropNode (k : κ)
  /-- The node is initialised again, after a restart or in a new slot. -/
  | reset (k : κ)
  /-- `__publish_node_locked` for a node. -/
  | visit (k : κ) (answers : Answers)
  /-- An acknowledgement comes, and its handler will visit the nodes. -/
  | ack (id : Nat) (success : Bool) (nodes : List κ)
  /-- `__commit_pending_tag_checksums_visitor` for the next node. `stores` says that the checksum
  is written to the storage. -/
  | commitNext (stores : Bool)
  deriving DecidableEq, Repr

variable {κ η : Type*} [DecidableEq κ] [DecidableEq η] (sha : List Char → η)

/-- `__get_node_tags_checksum`. -/
def nodeTagsChecksum (tags : List Tag) : Option η :=
  if tags = [] then none else some (sha (checksumStr tags))

/-- Whether the tags have changed, and the committed checksum after the look into the storage. -/
def tagsChanged (n : Node η) (loads : Bool) : Bool × Option η :=
  match nodeTagsChecksum sha n.tags with
  | none => (false, n.check.committed)
  | some h =>
    match n.check.committed with
    | some c => (h ≠ c, some c)
    | none =>
      if n.isSelf then
        -- `esp_rmaker_checksum_compare`.
        if loads ∧ n.stored = some h then (false, some h) else (true, none)
      else
        match n.stored with
        | some c => if loads then (h ≠ c, some c) else (true, none)
        | none => (true, none)

namespace Reporter

/-- A node is written. -/
def setNode (s : Reporter κ η) (k : κ) (n : Node η) : Reporter κ η :=
  { s with nodes := Function.update s.nodes k n }

/-- `__publish_node_locked`. -/
def publishNode (s : Reporter κ η) (k : κ) (a : Answers) : Reporter κ η :=
  if (s.nodes k).updates = [] then s
  else
    let (changed, committed) := tagsChanged sha (s.nodes k) a.loads
    let n := { s.nodes k with check.committed := committed }
    -- A payload that is not sent leaves the list for the retry.
    if ¬a.populates ∨ ¬a.named then s.setNode k n
    else if changed ∨ true ∈ n.updates then
      let tags := if changed then some n.tags else none
      let pending := if changed then nodeTagsChecksum sha n.tags else n.check.pending
      match a.indexed with
      | .noTopic => s.setNode k n
      | .refused => s.setNode k { n with check.pending := none }
      | .accepted =>
        let m : Message κ := ⟨s.nextId, k, tags⟩
        { s.setNode k { n with check.pending := pending, updates := [] } with
          inflight := m :: s.inflight
          nextId := s.nextId + 1
          latest := if changed then Function.update s.latest k (some m) else s.latest }
    else s.setNode k { n with updates := [] }

end Reporter

/-- `__commit_pending_tag_checksums_visitor`. -/
def commitNode (n : Node η) (success stores : Bool) : Node η :=
  match n.check.pending with
  | none => n
  | some h =>
    if success then
      { n with check := ⟨none, some h⟩, stored := if stores then some h else n.stored }
    else { n with check := ⟨none, none⟩ }

/-- The next step. -/
def step (s : Reporter κ η) : Action κ → Option (Reporter κ η)
  | .addTag k name value =>
    some (s.setNode k { s.nodes k with tags := addTag name value (s.nodes k).tags })
  | .update k inIndexed =>
    some (s.setNode k { s.nodes k with updates := (s.nodes k).updates ++ [inIndexed] })
  | .dropNode k => some (s.setNode k { s.nodes k with updates := [] })
  | .reset k =>
    some (s.setNode k { isSelf := (s.nodes k).isSelf, stored := (s.nodes k).stored })
  | .visit k answers => some (s.publishNode sha k answers)
  | .ack id success nodes =>
    match s.commit, s.inflight.find? fun m => m.id = id with
    | none, some m =>
      some { s with
        inflight := s.inflight.erase m
        commit := some ⟨m, success, nodes⟩
        acked := if success then m :: s.acked else s.acked }
    | _, _ => none
  | .commitNext stores =>
    match s.commit with
    | none => none
    | some ⟨_, _, []⟩ => some { s with commit := none }
    | some ⟨m, success, k :: rest⟩ =>
      some { s.setNode k (commitNode (s.nodes k) success stores) with
        commit := some ⟨m, success, rest⟩ }

/-- Nothing was ever published. -/
def Initial (s : Reporter κ η) : Prop :=
  s.inflight = [] ∧ s.commit = none ∧ s.acked = [] ∧
    ∀ k, (s.nodes k).check = {} ∧ (s.nodes k).stored = none

/-! ### The statement -/

/-- The committed checksum of a node, from the storage where the node has none. -/
def Node.committedChecksum (n : Node η) : Option η := n.check.committed <|> n.stored

/-- The tags of the node are not those of its committed checksum. -/
def Node.Differs (n : Node η) : Prop :=
  n.tags ≠ [] ∧ n.committedChecksum ≠ nodeTagsChecksum sha n.tags

/-- The checksum is that of tags in an indexed payload of the node that was acknowledged. -/
def Reporter.Acked (s : Reporter κ η) (k : κ) (c : η) : Prop :=
  ∃ m ∈ s.acked, m.node = k ∧ ∃ tags, m.tags = some tags ∧ nodeTagsChecksum sha tags = some c

/-- The checksum is that of the tags in the last payload of the node that told some. -/
def Reporter.Snapshot (s : Reporter κ η) (k : κ) (c : η) : Prop :=
  ∃ m tags, s.latest k = some m ∧ m.node = k ∧ m.tags = some tags ∧
    nodeTagsChecksum sha tags = some c

/-- Each committed checksum is one of acknowledged tags. -/
def Exact (s : Reporter κ η) : Prop :=
  ∀ k c, (s.nodes k).committedChecksum = some c → s.Acked sha k c

/-- Nothing is in the way of a payload. -/
def Answers.Good (a : Answers) : Prop :=
  a.populates = true ∧ a.named = true ∧ a.indexed = .accepted

/-- A report that visits a node with changed tags publishes all its tags. -/
def Reports (s : Reporter κ η) (k : κ) (t : Reporter κ η) : Prop :=
  (s.nodes k).Differs sha → t.inflight = ⟨s.nextId, k, some (s.nodes k).tags⟩ :: s.inflight

/-- A snapshot is committed for the acknowledgement of the last payload with tags of the same node,
and a report finds an update in the list of a node with changed tags. -/
def Own (s : Reporter κ η) : Action κ → Prop
  | .commitNext _ => ∀ m k rest, s.commit = some ⟨m, true, k :: rest⟩ →
      (s.nodes k).check.pending ≠ none → (s.latest k).map Message.id = some m.id
  | .visit k _ => (s.nodes k).Differs sha → (s.nodes k).updates ≠ []
  | _ => True

/-! ### The invariant -/

/-- What each step keeps. -/
structure Inv (s : Reporter κ η) : Prop where
  /-- A snapshot is that of the last payload with tags. -/
  pending : ∀ k c, (s.nodes k).check.pending = some c → s.Snapshot sha k c
  committed : ∀ k c, (s.nodes k).check.committed = some c → s.Acked sha k c
  stored : ∀ k c, (s.nodes k).stored = some c → s.Acked sha k c
  handled : ∀ m nodes, s.commit = some ⟨m, true, nodes⟩ → m ∈ s.acked

/-- A payload that waits for its acknowledgement, is acknowledged now, or has left a snapshot. -/
def Reporter.Knows (s : Reporter κ η) (m : Message κ) : Prop :=
  m ∈ s.inflight ∨ (∃ success nodes, s.commit = some ⟨m, success, nodes⟩) ∨
    ∃ k, (s.nodes k).check.pending ≠ none ∧ s.latest k = some m

/-- The number of a payload says which one it is. -/
structure Ids (s : Reporter κ η) : Prop where
  lt : ∀ m, s.Knows m → m.id < s.nextId
  unique : ∀ m m', s.Knows m → s.Knows m' → m.id = m'.id → m = m'

variable {sha} {s t : Reporter κ η}

omit [DecidableEq κ] [DecidableEq η] in
theorem Inv.exact (h : Inv sha s) : Exact sha s := by
  intro k c hc
  rw [Node.committedChecksum] at hc
  cases hcommitted : (s.nodes k).check.committed with
  | none =>
    rw [hcommitted] at hc
    exact h.stored k c hc
  | some d =>
    rw [hcommitted] at hc
    obtain rfl := Option.some.inj hc
    exact h.committed k d hcommitted

variable {k : κ} {n : Node η} {m : Message κ}

omit [DecidableEq η] in
/-- A step that writes one node keeps the invariant where it keeps what is said about the node. -/
theorem Inv.setNode (h : Inv sha s)
    (hpending : ∀ c, n.check.pending = some c → s.Snapshot sha k c)
    (hcommitted : ∀ c, n.check.committed = some c → s.Acked sha k c)
    (hstored : ∀ c, n.stored = some c → s.Acked sha k c) : Inv sha (s.setNode k n) := by
  have hcases : ∀ P : κ → Node η → Prop, P k n → (∀ j, P j (s.nodes j)) →
      ∀ j, P j ((s.setNode k n).nodes j) := by
    intro P hk hall j
    show P j (Function.update s.nodes k n j)
    by_cases hj : j = k
    · subst hj
      rw [Function.update_self]
      exact hk
    · rw [Function.update_of_ne hj]
      exact hall j
  refine ⟨?_, ?_, ?_, h.handled⟩
  · exact hcases (fun j n => ∀ c, n.check.pending = some c → s.Snapshot sha j c) hpending h.pending
  · exact hcases (fun j n => ∀ c, n.check.committed = some c → s.Acked sha j c) hcommitted h.committed
  · exact hcases (fun j n => ∀ c, n.stored = some c → s.Acked sha j c) hstored h.stored

/-- The look into the storage commits no other checksum than the stored one. -/
theorem tagsChanged_committed {loads : Bool} {c : η} (h : (tagsChanged sha n loads).2 = some c) :
    n.check.committed = some c ∨ n.stored = some c := by
  rw [tagsChanged] at h
  split at h
  · exact .inl h
  · next hash hhash =>
    split at h
    · next d hd => exact .inl (hd.trans h)
    · next hnone =>
      split at h
      · split at h
        · next heq =>
          obtain rfl := Option.some.inj h
          exact .inr heq.2
        · cases h
      · split at h
        · next d hd =>
          split at h
          · exact .inr (hd.trans h)
          · cases h
        · cases h

/-- Tags that are not those of the committed checksum have changed. -/
theorem tagsChanged_of_differs {loads : Bool} (h : n.Differs sha) :
    (tagsChanged sha n loads).1 = true := by
  obtain ⟨hne, hdiffers⟩ := h
  rw [nodeTagsChecksum, if_neg hne] at hdiffers
  rw [tagsChanged, nodeTagsChecksum, if_neg hne]
  cases hcommitted : n.check.committed with
  | some c =>
    rw [Node.committedChecksum, hcommitted] at hdiffers
    exact decide_eq_true fun heq => hdiffers (congrArg some heq.symm)
  | none =>
    rw [Node.committedChecksum, hcommitted] at hdiffers
    change n.stored ≠ _ at hdiffers
    show (if n.isSelf = true then _ else _ : Bool × Option η).1 = true
    split
    · rw [if_neg fun heq => hdiffers heq.2]
    · cases hstored : n.stored with
      | none => rfl
      | some c =>
        rw [hstored] at hdiffers
        show (if loads = true then _ else _ : Bool × Option η).1 = true
        split
        · exact decide_eq_true fun heq => hdiffers (congrArg some heq.symm)
        · rfl

/-! ### The steps -/

omit [DecidableEq κ] [DecidableEq η] in
/-- What was acknowledged stays acknowledged. -/
theorem Reporter.Acked.mono (hacked : ∀ m ∈ s.acked, m ∈ t.acked) {c : η} (h : s.Acked sha k c) :
    t.Acked sha k c := by
  obtain ⟨m, hm, hrest⟩ := h
  exact ⟨m, hacked m hm, hrest⟩

omit [DecidableEq η] in
/-- A payload with the tags of a node is accepted. Its snapshot replaces the one before. -/
theorem Inv.accepted (h : Inv sha s) {tags : List Tag} (hm : m.node = k ∧ m.tags = some tags)
    (hpending : n.check.pending = nodeTagsChecksum sha tags)
    (hcommitted : ∀ c, n.check.committed = some c → s.Acked sha k c)
    (hstored : ∀ c, n.stored = some c → s.Acked sha k c) :
    Inv sha { s.setNode k n with
      inflight := m :: s.inflight
      nextId := s.nextId + 1
      latest := Function.update s.latest k (some m) } := by
  have hother : ∀ j, j ≠ k → (s.setNode k n).nodes j = s.nodes j := fun j hj =>
    Function.update_of_ne hj _ _
  have hself : (s.setNode k n).nodes k = n := Function.update_self _ _ _
  refine ⟨fun j c hc => ?_, fun j c hc => ?_, fun j c hc => ?_, h.handled⟩
  · change ((s.setNode k n).nodes j).check.pending = some c at hc
    by_cases hj : j = k
    · subst hj
      rw [hself, hpending] at hc
      exact ⟨m, tags, Function.update_self _ _ _, hm.1, hm.2, hc⟩
    · rw [hother j hj] at hc
      obtain ⟨m', tags', hlatest, hrest⟩ := h.pending j c hc
      exact ⟨m', tags', (Function.update_of_ne hj _ _).trans hlatest, hrest⟩
  · change ((s.setNode k n).nodes j).check.committed = some c at hc
    by_cases hj : j = k
    · subst hj
      rw [hself] at hc
      exact hcommitted c hc
    · rw [hother j hj] at hc
      exact h.committed j c hc
  · change ((s.setNode k n).nodes j).stored = some c at hc
    by_cases hj : j = k
    · subst hj
      rw [hself] at hc
      exact hstored c hc
    · rw [hother j hj] at hc
      exact h.stored j c hc

/-- A visit of the report task. -/
theorem Inv.publishNode (h : Inv sha s) (k : κ) (a : Answers) : Inv sha (s.publishNode sha k a) := by
  have hcommitted : ∀ c, (tagsChanged sha (s.nodes k) a.loads).2 = some c → s.Acked sha k c := by
    intro c hc
    rcases tagsChanged_committed hc with hc | hc
    · exact h.committed k c hc
    · exact h.stored k c hc
  rw [Reporter.publishNode]
  split
  · exact h
  · generalize tagsChanged sha (s.nodes k) a.loads = r at hcommitted ⊢
    obtain ⟨changed, committed⟩ := r
    dsimp only at hcommitted ⊢
    split
    · exact h.setNode (h.pending k) hcommitted (h.stored k)
    · split
      · cases a.indexed with
        | noTopic => exact h.setNode (h.pending k) hcommitted (h.stored k)
        | refused => exact h.setNode (fun c hc => nomatch hc) hcommitted (h.stored k)
        | accepted =>
          cases changed with
          | false =>
            have hset := h.setNode (n := { s.nodes k with
              check := ⟨(s.nodes k).check.pending, committed⟩, updates := [] })
              (h.pending k) hcommitted (h.stored k)
            exact ⟨hset.pending, hset.committed, hset.stored, hset.handled⟩
          | true => exact h.accepted ⟨rfl, rfl⟩ rfl hcommitted (h.stored k)
      · exact h.setNode (h.pending k) hcommitted (h.stored k)

omit [DecidableEq η] in
/-- A visit of the handler of an acknowledgement. -/
theorem Inv.commitNext (h : Inv sha s) {success stores : Bool} {rest : List κ}
    (hcommit : s.commit = some ⟨m, success, k :: rest⟩)
    (hown : success = true → (s.nodes k).check.pending ≠ none → s.latest k = some m) :
    Inv sha { s.setNode k (commitNode (s.nodes k) success stores) with
      commit := some ⟨m, success, rest⟩ } := by
  have hset : Inv sha (s.setNode k (commitNode (s.nodes k) success stores)) := by
    rw [commitNode]
    cases hpending : (s.nodes k).check.pending with
    | none => exact h.setNode (h.pending k) (h.committed k) (h.stored k)
    | some c =>
      cases success with
      | false => exact h.setNode (fun d hd => nomatch hd) (fun d hd => nomatch hd) (h.stored k)
      | true =>
        -- The snapshot is that of the last payload with tags, which the guard says is this one.
        have hacked : s.Acked sha k c := by
          obtain ⟨m', tags, hlatest, hnode, htags, hc⟩ := h.pending k c hpending
          have hsome : (s.nodes k).check.pending ≠ none := by
            rw [hpending]
            exact Option.some_ne_none c
          obtain rfl := Option.some.inj (hlatest.symm.trans (hown rfl hsome))
          exact ⟨m', h.handled m' _ hcommit, hnode, tags, htags, hc⟩
        have hnew : ∀ d, some c = some d → s.Acked sha k d := fun d hd => Option.some.inj hd ▸ hacked
        refine h.setNode (fun d hd => nomatch hd) hnew ?_
        cases stores with
        | false => exact h.stored k
        | true => exact hnew
  refine ⟨hset.pending, hset.committed, hset.stored, fun m' nodes hm => ?_⟩
  obtain ⟨rfl, rfl, -⟩ := Commit.mk.inj (Option.some.inj hm)
  exact h.handled m _ hcommit

omit [DecidableEq κ] [DecidableEq η] in
/-- The payload of the snapshot of a node is the one that is acknowledged, by its number. -/
theorem Ids.latest_eq (h : Ids s) {success : Bool} {nodes : List κ}
    (hcommit : s.commit = some ⟨m, success, nodes⟩) (hpending : (s.nodes k).check.pending ≠ none)
    (hid : (s.latest k).map Message.id = some m.id) : s.latest k = some m := by
  obtain ⟨m', hm', hid'⟩ := Option.map_eq_some_iff.mp hid
  rw [hm', h.unique m' m (.inr (.inr ⟨k, hpending, hm'⟩)) (.inr (.inl ⟨_, _, hcommit⟩)) hid']

/-- Each step keeps the invariant, where the snapshots are committed for their own payloads. -/
theorem Inv.step {a : Action κ} (h : Inv sha s) (hids : Ids s) (hg : Own sha s a)
    (ht : step sha s a = some t) : Inv sha t := by
  cases a with
  | addTag k name value =>
    obtain rfl := Option.some.inj ht
    exact h.setNode (h.pending k) (h.committed k) (h.stored k)
  | update k inIndexed =>
    obtain rfl := Option.some.inj ht
    exact h.setNode (h.pending k) (h.committed k) (h.stored k)
  | dropNode k =>
    obtain rfl := Option.some.inj ht
    exact h.setNode (h.pending k) (h.committed k) (h.stored k)
  | reset k =>
    obtain rfl := Option.some.inj ht
    exact h.setNode (fun c hc => nomatch hc) (fun c hc => nomatch hc) (h.stored k)
  | visit k answers =>
    obtain rfl := Option.some.inj ht
    exact h.publishNode k answers
  | ack id success nodes =>
    rw [Tags.step] at ht
    split at ht
    · next m hcommit hfind =>
      obtain rfl := Option.some.inj ht
      have hmono : ∀ x ∈ s.acked, x ∈ if success = true then m :: s.acked else s.acked := by
        intro x hx
        split
        · exact List.mem_cons_of_mem _ hx
        · exact hx
      refine ⟨h.pending, fun k c hc => (h.committed k c hc).mono hmono,
        fun k c hc => (h.stored k c hc).mono hmono, fun m' nodes' hm => ?_⟩
      obtain ⟨rfl, rfl, -⟩ := Commit.mk.inj (Option.some.inj hm)
      exact List.mem_cons_self ..
    · cases ht
  | commitNext stores =>
    rw [Tags.step] at ht
    split at ht
    · cases ht
    · obtain rfl := Option.some.inj ht
      exact ⟨h.pending, h.committed, h.stored, fun m nodes hm => nomatch hm⟩
    · next m success k rest hcommit =>
      obtain rfl := Option.some.inj ht
      refine h.commitNext hcommit fun hsuccess hpending =>
        hids.latest_eq hcommit hpending (hg m k rest ?_ hpending)
      rw [hcommit, hsuccess]

/-! ### The numbers of the payloads -/

omit [DecidableEq κ] [DecidableEq η] in
/-- No payload becomes known. -/
theorem Ids.of_knows (h : Ids s) (hnext : t.nextId = s.nextId)
    (hknows : ∀ m, t.Knows m → s.Knows m) : Ids t :=
  ⟨fun m hm => hnext ▸ h.lt m (hknows m hm),
    fun m m' hm hm' => h.unique m m' (hknows m hm) (hknows m' hm')⟩

omit [DecidableEq η] in
/-- A node is written that gets no new snapshot. -/
theorem Ids.setNode (h : Ids s) (hn : n.check.pending ≠ none → (s.nodes k).check.pending ≠ none) :
    Ids (s.setNode k n) := by
  refine h.of_knows rfl fun m hm => hm.imp_right (Or.imp_right fun hlatest => ?_)
  obtain ⟨j, hj, hlatest⟩ := hlatest
  refine ⟨j, ?_, hlatest⟩
  change (Function.update s.nodes k n j).check.pending ≠ none at hj
  by_cases hjk : j = k
  · subst hjk
    rw [Function.update_self] at hj
    exact hn hj
  · rwa [Function.update_of_ne hjk] at hj

omit [DecidableEq κ] [DecidableEq η] in
/-- The only payload that becomes known has the next number. -/
theorem Ids.accepted (h : Ids s) {x : Message κ} (hx : x.id = s.nextId)
    (hnext : t.nextId = s.nextId + 1) (hknows : ∀ m, t.Knows m → s.Knows m ∨ m = x) : Ids t := by
  refine ⟨fun m hm => ?_, fun m m' hm hm' heq => ?_⟩
  · rcases hknows m hm with hold | rfl
    · have hlt := h.lt m hold
      omega
    · omega
  · rcases hknows m hm with hold | rfl
    · rcases hknows m' hm' with hold' | rfl
      · exact h.unique m m' hold hold' heq
      · have hlt := h.lt m hold
        omega
    · rcases hknows m' hm' with hold' | rfl
      · have hlt := h.lt m' hold'
        omega
      · rfl

omit [DecidableEq η] in
/-- A payload of a node is accepted, with or without tags. -/
theorem Ids.push (h : Ids s) {x : Message κ} (changed : Bool) (hx : x.id = s.nextId)
    (hn : changed = false → n.check.pending ≠ none → (s.nodes k).check.pending ≠ none) :
    Ids { s.setNode k n with
      inflight := x :: s.inflight
      nextId := s.nextId + 1
      latest := if changed then Function.update s.latest k (some x) else s.latest } := by
  refine h.accepted hx rfl fun m hm => ?_
  rcases hm with hm | hm | ⟨j, hj, hlatest⟩
  · rcases List.mem_cons.mp hm with rfl | hm
    · exact .inr rfl
    · exact .inl (.inl hm)
  · exact .inl (.inr (.inl hm))
  · change (Function.update s.nodes k n j).check.pending ≠ none at hj
    change (if changed = true then Function.update s.latest k (some x) else s.latest) j = some m
      at hlatest
    by_cases hjk : j = k
    · subst hjk
      rw [Function.update_self] at hj
      cases changed with
      | true =>
        rw [if_pos rfl, Function.update_self] at hlatest
        exact .inr (Option.some.inj hlatest).symm
      | false => exact .inl (.inr (.inr ⟨j, hn rfl hj, hlatest⟩))
    · rw [Function.update_of_ne hjk] at hj
      refine .inl (.inr (.inr ⟨j, hj, ?_⟩))
      cases changed with
      | true => rwa [if_pos rfl, Function.update_of_ne hjk] at hlatest
      | false => exact hlatest

/-- Each step keeps the numbers apart. -/
theorem Ids.step {a : Action κ} (h : Ids s) (ht : step sha s a = some t) : Ids t := by
  cases a with
  | addTag k name value | update k inIndexed | dropNode k =>
    obtain rfl := Option.some.inj ht
    exact h.setNode id
  | reset k =>
    obtain rfl := Option.some.inj ht
    exact h.setNode fun hne => absurd rfl hne
  | visit k a =>
    obtain rfl := Option.some.inj ht
    show Ids (s.publishNode sha k a)
    rw [Reporter.publishNode]
    split
    · exact h
    · generalize tagsChanged sha (s.nodes k) a.loads = r
      obtain ⟨changed, committed⟩ := r
      dsimp only
      split
      · exact h.setNode id
      · split
        · cases a.indexed with
          | noTopic => exact h.setNode id
          | refused => exact h.setNode fun hne => absurd rfl hne
          | accepted =>
            refine h.push changed rfl fun hchanged => ?_
            rw [hchanged]
            exact id
        · exact h.setNode id
  | ack i success nodes =>
    rw [Tags.step] at ht
    split at ht
    · next m hcommit hfind =>
      obtain rfl := Option.some.inj ht
      refine h.of_knows rfl fun x hx => ?_
      rcases hx with hx | ⟨success', nodes', hx⟩ | hx
      · exact .inl (List.mem_of_mem_erase hx)
      · obtain ⟨rfl, -, -⟩ := Commit.mk.inj (Option.some.inj hx)
        exact .inl (List.mem_of_find?_eq_some hfind)
      · exact .inr (.inr hx)
    · cases ht
  | commitNext stores =>
    rw [Tags.step] at ht
    split at ht
    · cases ht
    · obtain rfl := Option.some.inj ht
      refine h.of_knows rfl fun x hx => ?_
      rcases hx with hx | ⟨_, _, hx⟩ | hx
      · exact .inl hx
      · cases hx
      · exact .inr (.inr hx)
    · next m success k rest hcommit =>
      obtain rfl := Option.some.inj ht
      have hset : Ids (s.setNode k (commitNode (s.nodes k) success stores)) := by
        refine h.setNode fun hne => ?_
        intro hnone
        rw [commitNode, hnone] at hne
        exact hne hnone
      refine hset.of_knows rfl fun x hx => ?_
      rcases hx with hx | ⟨_, _, hx⟩ | hx
      · exact .inl hx
      · obtain ⟨rfl, -, -⟩ := Commit.mk.inj (Option.some.inj hx)
        exact .inr (.inl ⟨success, k :: rest, hcommit⟩)
      · exact .inr (.inr hx)

/-! ### Every run -/

omit [DecidableEq κ] [DecidableEq η] in
theorem Ids.initial (h : Initial s) : Ids s := by
  have hnone : ∀ m, ¬s.Knows m := by
    obtain ⟨hinflight, hcommit, -, hnodes⟩ := h
    rintro m (hm | ⟨_, _, hm⟩ | ⟨k, hk, -⟩)
    · rw [hinflight] at hm
      cases hm
    · rw [hcommit] at hm
      cases hm
    · rw [(hnodes k).1] at hk
      exact hk rfl
  exact ⟨fun m hm => absurd hm (hnone m), fun m _ hm => absurd hm (hnone m)⟩

omit [DecidableEq κ] [DecidableEq η] in
theorem Inv.initial (h : Initial s) : Inv sha s := by
  obtain ⟨-, hcommit, -, hnodes⟩ := h
  refine ⟨fun k c hc => ?_, fun k c hc => ?_, fun k c hc => ?_, fun m nodes hm => ?_⟩
  · rw [(hnodes k).1] at hc
    cases hc
  · rw [(hnodes k).1] at hc
    cases hc
  · rw [(hnodes k).2] at hc
    cases hc
  · rw [hcommit] at hm
    cases hm

/-- A visit that nothing is in the way of publishes the tags that differ. -/
theorem reports_of_updates {a : Answers} (ha : a.Good) (hupdates : (s.nodes k).updates ≠ [])
    (hdiffers : (s.nodes k).Differs sha) :
    (s.publishNode sha k a).inflight = ⟨s.nextId, k, some (s.nodes k).tags⟩ :: s.inflight := by
  obtain ⟨hpopulates, hnamed, hindexed⟩ := ha
  have hchanged : (tagsChanged sha (s.nodes k) a.loads).1 = true := tagsChanged_of_differs hdiffers
  rw [Reporter.publishNode, if_neg hupdates]
  generalize tagsChanged sha (s.nodes k) a.loads = r at hchanged ⊢
  obtain ⟨changed, committed⟩ := r
  obtain rfl : changed = true := hchanged
  simp [hpopulates, hnamed, hindexed]

/-- **Tag reporting.** While a snapshot is committed for the acknowledgement of its own payload
only, each committed checksum is one of acknowledged tags. While the updates of a node with changed
tags are not empty, a report publishes all its tags. -/
theorem committed_of_own (h : Reach Initial (step sha) (Own sha) s) :
    Exact sha s ∧ ∀ k a, a.Good → Own sha s (.visit k a) →
      ∀ t, step sha s (.visit k a) = some t → Reports sha s k t := by
  have hinv : Inv sha s ∧ Ids s :=
    h.inv (fun s => Inv sha s ∧ Ids s) (fun _ h => ⟨Inv.initial h, Ids.initial h⟩)
      fun _ _ _ hi hg ht => ⟨hi.1.step hi.2 hg ht, hi.2.step ht⟩
  refine ⟨hinv.1.exact, ?_⟩
  intro k a ha hown t ht hdiffers
  obtain rfl := Option.some.inj ht
  exact reports_of_updates ha (hown hdiffers) hdiffers

/-! ### Two runs -/

instance (n : Node η) : Decidable (n.Differs sha) := inferInstanceAs (Decidable (_ ∧ _))

instance (s : Reporter κ η) : ∀ a, Decidable (Own sha s a)
  | .commitNext _ =>
    match h : s.commit with
    | some ⟨m, true, k :: rest⟩ =>
      decidable_of_iff ((s.nodes k).check.pending ≠ none →
          (s.latest k).map Message.id = some m.id) (by
        constructor
        · intro hk m' k' rest' heq
          rw [h] at heq
          obtain ⟨rfl, -, hnodes⟩ := Commit.mk.inj (Option.some.inj heq)
          obtain ⟨rfl, -⟩ := List.cons.inj hnodes
          exact hk
        · intro hall
          exact hall m k rest h)
    | some ⟨_, false, _⟩ | some ⟨_, true, []⟩ | none =>
      isTrue fun m k rest heq => by rw [h] at heq; cases heq
  | .visit k _ => inferInstanceAs (Decidable ((s.nodes k).Differs sha → (s.nodes k).updates ≠ []))
  | .addTag _ _ _ | .update _ _ | .dropNode _ | .reset _ | .ack _ _ _ => instDecidableTrue

/-- The node itself and a child. -/
def fleet : Reporter Bool (List Char) := { nodes := fun k => { isSelf := k } }

theorem fleet_initial : Initial fleet := ⟨rfl, rfl, rfl, fun _ => ⟨rfl, rfl⟩⟩

/-- A payload of the child is acknowledged before one of the node itself is published, which is
refused first. -/
def inTurn : List (Action Bool) :=
  [.addTag false ['a'] ['1'], .update false false, .visit false {}, .ack 0 true [true, false],
    .commitNext true, .commitNext true, .commitNext true, .addTag true ['b'] ['2'],
    .update true true, .visit true {}, .ack 1 false [true, false], .commitNext true,
    .commitNext true, .commitNext true, .update true false, .visit true {},
    .ack 2 true [true, false], .commitNext true, .commitNext true, .commitNext true,
    .addTag true ['b'] ['3'], .update true false]

theorem inTurn_exact :
    ∃ s : Reporter Bool (List Char), exec (step id) fleet inTurn = some s ∧
      (s.nodes false).committedChecksum = some ['a', ':', '1', ';'] ∧
      (s.nodes true).committedChecksum = some ['b', ':', '2', ';'] ∧
      Exact id s ∧ Reports id s true (s.publishNode id true {}) := by
  have hrun : Reach Initial (step id) (Own id) _ :=
    Reach.exec inTurn (.start fleet_initial) (by decide +kernel) rfl
  obtain ⟨hexact, hreports⟩ := committed_of_own hrun
  exact ⟨_, rfl, rfl, rfl, hexact, hreports true {} ⟨rfl, rfl, rfl⟩ (by decide +kernel) _ rfl⟩

/-- Both nodes publish their tags. The payload of the node itself is acknowledged. -/
def together : List (Action Bool) :=
  [.addTag true ['a'] ['1'], .update true false, .addTag false ['b'] ['2'], .update false false,
    .visit true {}, .visit false {}, .ack 0 true [true, false], .commitNext true, .commitNext true]

/-- The checksum of the child is committed without an acknowledgement of its payload. A node without
updates does not publish its tags. -/
theorem other_committed_and_skipped :
    (∃ s : Reporter Bool (List Char), Reach Initial (step id) (fun _ _ => True) s ∧ ¬Exact id s) ∧
      ∃ s t : Reporter Bool (List Char), Reach Initial (step id) (fun _ _ => True) s ∧
        step id s (.visit true {}) = some t ∧ ¬Reports id s true t := by
  refine ⟨⟨_, Reach.exec_true together (.start fleet_initial) rfl, fun hexact => ?_⟩,
    ⟨_, _, Reach.exec_true [.addTag true ['a'] ['1']] (.start fleet_initial) rfl, rfl,
      fun hreports => ?_⟩⟩
  · obtain ⟨m, hm, hnode, -⟩ := hexact false ['b', ':', '2', ';'] rfl
    obtain rfl := List.mem_singleton.mp hm
    cases hnode
  · have hinflight := hreports (by decide +kernel)
    cases hinflight

end RainMakerNeo.State.Tags
