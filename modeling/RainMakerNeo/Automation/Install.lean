import RainMakerNeo.Automation.Report
import RainMakerNeo.Automation.TriggerBounds

/-!
# `RainMakerNeo.Automation.Install`: all triggers of a blob, or none

`buildTriggerDetails` puts the triggers of a blob in place of those of a node. Two paths come to it:
details that were received are encoded first, and their blob is stored; after a boot the stored blob
is read. `install_atomic` says that a build takes exactly the enabled entries or leaves the list,
whatever the bytes are, and that the stored blob gives the list that its receipt gave.

The allocator can fail in any build. `InstallEnv.served` is the build with all of its allocations:
`buildLoop_served` compares each build with that one.
-/

set_option autoImplicit false

namespace RainMakerNeo.Automation

open RainMakerNeo.Lib
open RainMakerNeo.State (UpdateId)

/-! ### The two paths -/

/-- The text of received details. `json` is `none` where the parser does not start. -/
structure DetailsText where
  length : Nat
  json : Option (List (Option TriggerObject))

/-- `__build_trigger_details_for_node_locked`: the blob that it hands back, and the list. -/
def buildTriggerDetailsForNode (P : Parser) (alloc : Nat → Bool) (types : Nat → ValType)
    (env : InstallEnv) (data : DetailsText) (list : List Trigger) :
    Option (List UInt8) × List Trigger :=
  if data.length = 0 then (none, list)
  else
    match encode P alloc data.json with
    | .error _ => (none, list)
    | .ok blob =>
      match buildTriggerDetails types env blob list with
      | (true, list) => (some blob, list)
      | (false, list) => (none, list)

/-- The triggers of a node with what is stored of them. -/
structure NodeTriggers where
  list : List Trigger := []
  /-- The stored blob. -/
  details : Option (List UInt8) := none
  /-- The stored version. -/
  triggerVer : Int := -1

/-- `__update_trigger_details_work_queue_task`. `persisted` is the answer of the store. -/
def updateTriggerDetailsTask (P : Parser) (alloc : Nat → Bool) (types : Nat → ValType)
    (env : InstallEnv) (persisted : Bool) (data : DetailsText) (s : NodeTriggers) : NodeTriggers :=
  match buildTriggerDetailsForNode P alloc types env data s.list with
  | (some blob, list) => { s with list, details := if persisted then some blob else s.details }
  | (none, list) => { s with list }

/-- `esp_rmaker_automation_service_reload_for_node`. `readable` is whether the store can be read. A
build that fails voids the version, and `voided` is the answer of the store to that, at which the
code does not look. -/
def reloadForNode (types : Nat → ValType) (env : InstallEnv) (readable voided : Bool)
    (s : NodeTriggers) : NodeTriggers :=
  match if readable then s.details else none with
  | none => s
  | some blob =>
    match buildTriggerDetails types env blob s.list with
    | (true, list) => { s with list }
    | (false, list) => { s with list, triggerVer := if voided then -1 else s.triggerVer }

/-! ### A build with all allocations -/

/-- Every allocation of the build is served. -/
def InstallEnv.served (env : InstallEnv) : InstallEnv where
  resolve := env.resolve

section

variable {types : Nat → ValType} {env : InstallEnv}

/-- An entry fails, or it gives the trigger that it gives with all allocations. -/
theorem parseTriggerFromEntry_served (types : Nat → ValType)
    (resolve : List Char → Option UpdateId) (allocated : Bool) (e : Entry) :
    parseTriggerFromEntry types resolve allocated e = none ∨
      parseTriggerFromEntry types resolve allocated e
        = parseTriggerFromEntry types resolve true e := by
  cases allocated with
  | true => exact .inr rfl
  | false =>
    left
    rw [parseTriggerFromEntry]
    split
    · rfl
    · rfl

section Loop

variable {n : Nat} {it after : Iter} {added : List Trigger}

/-- The loop ends where the iterator yields nothing. -/
theorem buildLoop_error {err : Error} (hnext : it.next = .error err) :
    buildLoop types env (n + 1) it added = if err = .fail then none else some added := by
  rw [buildLoop, hnext]

/-- A disabled trigger is passed over. -/
theorem buildLoop_disabled {e : Entry} (hnext : it.next = .ok (e, after))
    (henabled : e.enabled = false) :
    buildLoop types env (n + 1) it added = buildLoop types env n after added := by
  rw [buildLoop, hnext]
  simp [henabled]

/-- An enabled trigger is added, or the loop fails. -/
theorem buildLoop_enabled {e : Entry} (hnext : it.next = .ok (e, after))
    (henabled : e.enabled = true) :
    buildLoop types env (n + 1) it added
      = (parseTriggerFromEntry types env.resolve (env.allocated n) e).bind fun trigger =>
        buildLoop types env n after (added ++ [trigger]) := by
  rw [buildLoop, hnext]
  cases hparse : parseTriggerFromEntry types env.resolve (env.allocated n) e with
  | none => simp [henabled, hparse]
  | some trigger => simp [henabled, hparse]

end Loop

/-- A loop fails, or it gives the list that it gives with all allocations. -/
theorem buildLoop_served (types : Nat → ValType) (env : InstallEnv) (n : Nat) (it : Iter)
    (added : List Trigger) :
    buildLoop types env n it added = none ∨
      buildLoop types env n it added = buildLoop types env.served n it added := by
  induction n generalizing it added with
  | zero => exact .inr rfl
  | succ n ih =>
    cases hnext : it.next with
    | error err =>
      rw [buildLoop_error hnext, buildLoop_error hnext]
      exact .inr rfl
    | ok p =>
      obtain ⟨e, after⟩ := p
      cases henabled : e.enabled with
      | false =>
        rw [buildLoop_disabled hnext henabled, buildLoop_disabled hnext henabled]
        exact ih after added
      | true =>
        rw [buildLoop_enabled hnext henabled, buildLoop_enabled hnext henabled]
        show _ ∨ _ = (parseTriggerFromEntry types env.resolve true e).bind _
        -- The first allocation that fails ends the loop. Before it both loops do the same.
        rcases parseTriggerFromEntry_served types env.resolve (env.allocated n) e
          with hnone | hsame
        · rw [hnone]
          exact .inl rfl
        · rw [hsame]
          cases parseTriggerFromEntry types env.resolve true e with
          | none => exact .inl rfl
          | some trigger => exact ih after (added ++ [trigger])

/-- The entry is installed as this trigger: with its id, the parameter of its path, its operator
and its value in the type of the parameter. The flags are clear. -/
structure Entry.Installs (types : Nat → ValType) (resolve : List Char → Option UpdateId)
    (e : Entry) (trigger : Trigger) : Prop where
  named : e.id.isEmpty = false
  id : trigger.id = dupN e.id
  updateId : resolve (dupN e.path) = some trigger.updateId
  typed : types trigger.updateId.param ≠ .invalid
  compareOp : opToCompare e.opCode (types trigger.updateId.param) = some trigger.compareOp
  expectedVal : coerceValue e (types trigger.updateId.param) true = some trigger.expectedVal
  fresh : trigger.Fresh

/-- An entry that is parsed is installed. -/
theorem Entry.installs_of_parse {resolve : List Char → Option UpdateId} {e : Entry}
    {trigger : Trigger} (h : parseTriggerFromEntry types resolve true e = some trigger) :
    e.Installs types resolve trigger := by
  rw [parseTriggerFromEntry] at h
  split at h
  · cases h
  · next hnamed =>
    rw [if_neg (by simp)] at h
    cases hresolve : resolve (dupN e.path) with
    | none =>
      rw [hresolve] at h
      cases h
    | some updateId =>
      rw [hresolve] at h
      dsimp only at h
      split at h
      · cases h
      · next htyped =>
        cases hop : opToCompare e.opCode (types updateId.param) with
        | none =>
          rw [hop] at h
          cases h
        | some compareOp =>
          rw [hop] at h
          obtain ⟨expectedVal, hval, rfl⟩ := Option.map_eq_some_iff.mp h
          exact ⟨Bool.eq_false_iff.mpr hnamed, rfl, hresolve, htyped, hop, hval, rfl, rfl, rfl⟩

/-- The list of a loop that ends well: the entries of the layout, each enabled one as a trigger. -/
theorem Iter.Over.buildLoop {it : Iter} {buf : List UInt8} (h : it.Over buf) {n : Nat}
    (hn : it.remaining < n) {added list : List Trigger}
    (hloop : Automation.buildLoop types env n it added = some list) :
    ∃ es bs new, EntriesLayout bs es ∧ es.length = it.remaining ∧ At buf it.off bs ∧
      list = added ++ new ∧
      List.Forall₂ (Entry.Installs types env.resolve) (es.filter Entry.enabled) new := by
  induction n generalizing it added with
  | zero => exact absurd hn (Nat.not_lt_zero _)
  | succ n ih =>
    cases hnext : it.next with
    | error err =>
      rw [buildLoop_error hnext] at hloop
      rcases it.next_error hnext with ⟨rfl, hzero⟩ | ⟨rfl, hzero⟩
      · have hlist : added = list := Option.some.inj hloop
        exact ⟨[], [], [], .nil, hzero.symm, List.nil_prefix, by simp [hlist], .nil⟩
      · exact absurd hloop (by simp)
    | ok p =>
      obtain ⟨e, after⟩ := p
      obtain ⟨hremaining, hafter, field, hfield, hat, hoff⟩ := h.entry_of_next hnext
      cases henabled : e.enabled with
      | false =>
        rw [buildLoop_disabled hnext henabled] at hloop
        obtain ⟨es, bs, new, hes, hlen, hat', hlist, hall⟩ := ih hafter (by omega) hloop
        -- A disabled entry is one of the layout, and no trigger comes of it.
        refine ⟨e :: es, field ++ bs, new, .cons hfield hes, ?_, at_append.mpr ⟨hat, hoff ▸ hat'⟩,
          hlist, ?_⟩
        · rw [List.length_cons, hlen, hremaining]
        · rw [List.filter_cons_of_neg (by simp [henabled])]
          exact hall
      | true =>
        rw [buildLoop_enabled hnext henabled] at hloop
        obtain ⟨trigger, hparse, hloop⟩ := Option.bind_eq_some_iff.mp hloop
        obtain ⟨es, bs, new, hes, hlen, hat', hlist, hall⟩ := ih hafter (by omega) hloop
        -- An entry that was parsed gives the trigger that it gives with all allocations.
        have hinstalls : e.Installs types env.resolve trigger := by
          rcases parseTriggerFromEntry_served types env.resolve (env.allocated n) e
            with hnone | hsame
          · exact absurd (hnone.symm.trans hparse) (by nofun)
          · exact Entry.installs_of_parse (hsame.symm.trans hparse)
        refine ⟨e :: es, field ++ bs, trigger :: new, .cons hfield hes, ?_,
          at_append.mpr ⟨hat, hoff ▸ hat'⟩, ?_, ?_⟩
        · rw [List.length_cons, hlen, hremaining]
        · rw [hlist, List.append_assoc, List.singleton_append]
        · rw [List.filter_cons_of_pos henabled]
          exact .cons hinstalls hall

end

/-! ### A build -/

section Build

variable {types : Nat → ValType} {env : InstallEnv} {blob : List UInt8} {list new : List Trigger}

/-- A build fails and leaves the list, or the loop over the entries ended well. -/
theorem buildTriggerDetails_inv (types : Nat → ValType) (env : InstallEnv) (blob : List UInt8)
    (list : List Trigger) :
    buildTriggerDetails types env blob list = (false, list) ∨
      ∃ it count new, buildTriggerDetails types env blob list = (true, new) ∧
        iterBegin blob = .ok (it, count) ∧ ¬ triggerMaxCount < count ∧
        (count = 0 ∧ new = [] ∨ count ≠ 0 ∧ buildLoop types env (count + 1) it [] = some new) := by
  rw [buildTriggerDetails]
  cases hbegin : iterBegin blob with
  | error err => exact .inl rfl
  | ok p =>
    obtain ⟨it, count⟩ := p
    show (if triggerMaxCount < count then _ else _) = _ ∨ _
    -- The early returns of the build, in their order. None of them has touched the list yet.
    by_cases hmax : triggerMaxCount < count
    · exact .inl (if_pos hmax)
    by_cases hzero : count = 0
    · refine .inr ⟨it, count, [], ?_, rfl, hmax, .inl ⟨hzero, rfl⟩⟩
      show (if triggerMaxCount < count then _ else _) = _
      rw [if_neg hmax, if_pos hzero]
    by_cases hlist : (!env.listAllocated) = true
    · left
      rw [if_neg hmax, if_neg hzero, if_pos hlist]
    cases hloop : buildLoop types env (count + 1) it [] with
    | none =>
      left
      rw [if_neg hmax, if_neg hzero, if_neg hlist]
    | some new =>
      refine .inr ⟨it, count, new, ?_, rfl, hmax, .inr ⟨hzero, hloop⟩⟩
      show (if triggerMaxCount < count then _ else _) = _
      rw [if_neg hmax, if_neg hzero, if_neg hlist, hloop]

/-- A build takes the enabled entries of the blob, or it leaves the list. -/
theorem buildTriggerDetails_installs (types : Nat → ValType) (env : InstallEnv)
    (blob : List UInt8) (list : List Trigger) :
    buildTriggerDetails types env blob list = (false, list) ∨
      ∃ es new, buildTriggerDetails types env blob list = (true, new) ∧ BlobLayout blob es ∧
        List.Forall₂ (Entry.Installs types env.resolve) (es.filter Entry.enabled) new := by
  rcases buildTriggerDetails_inv types env blob list with hkeep | ⟨it, count, new, hbuild, hbegin,
    -, hend⟩
  · exact .inl hkeep
  right
  obtain ⟨htwo, hversion, hcount, rfl⟩ := iterBegin_eq hbegin
  have hfresh : Iter.Over ⟨blob, blob.length, 2, count⟩ blob := ⟨rfl, rfl, htwo⟩
  rcases hend with ⟨hzero, rfl⟩ | ⟨-, hloop⟩
  · refine ⟨[], [], hbuild, ?_, .nil⟩
    exact blobLayout_of_at htwo hversion (hzero.symm.trans hcount) .nil List.nil_prefix
  · obtain ⟨es, bs, new', hes, hlen, hat, hnew, hall⟩ :=
      hfresh.buildLoop (Nat.lt_succ_self _) hloop
    rw [List.nil_append] at hnew
    subst hnew
    exact ⟨es, new, hbuild, blobLayout_of_at htwo hversion (hlen.trans hcount) hes hat, hall⟩

/-- With all allocations a build gives the same, whatever the list was before. -/
theorem buildTriggerDetails_served (h : buildTriggerDetails types env blob list = (true, new))
    (old : List Trigger) : buildTriggerDetails types env.served blob old = (true, new) := by
  rcases buildTriggerDetails_inv types env blob list with hkeep | ⟨it, count, new', hbuild, hbegin,
    hmax, hend⟩
  · exact absurd (congrArg Prod.fst (hkeep.symm.trans h)) (by simp)
  have hnew : new' = new := congrArg Prod.snd (hbuild.symm.trans h)
  subst hnew
  rw [buildTriggerDetails, hbegin]
  show (if triggerMaxCount < count then _ else _) = _
  rw [if_neg hmax]
  rcases hend with ⟨hzero, rfl⟩ | ⟨hzero, hloop⟩
  · exact if_pos hzero
  · have hserved : buildLoop types env.served (count + 1) it [] = some new' := by
      rcases buildLoop_served types env (count + 1) it [] with hnone | hsame
      · exact absurd (hnone.symm.trans hloop) (by simp)
      · exact hsame.symm.trans hloop
    rw [if_neg hzero, hserved]
    rfl

/-- After a build of the blob, another one with the same paths gives the same list, or one of its
allocations fails and it leaves the list. -/
theorem buildTriggerDetails_again (h : buildTriggerDetails types env blob list = (true, new))
    {env' : InstallEnv} (hresolve : env'.resolve = env.resolve) (old : List Trigger) :
    buildTriggerDetails types env' blob old = (true, new) ∨
      (buildTriggerDetails types env' blob old = (false, old) ∧ env' ≠ env'.served) := by
  -- Compare both builds with the one that has all allocations and these paths.
  have hserved : buildTriggerDetails types env'.served blob old = (true, new) := by
    rw [InstallEnv.served, hresolve]
    exact buildTriggerDetails_served h old
  rcases buildTriggerDetails_inv types env' blob old with hkeep | ⟨_, _, new', hbuild, -⟩
  · refine .inr ⟨hkeep, ?_⟩
    intro hall
    rw [hall, hserved] at hkeep
    exact absurd (congrArg Prod.fst hkeep) (by simp)
  · left
    have hnew : new' = new :=
      congrArg Prod.snd ((buildTriggerDetails_served hbuild old).symm.trans hserved)
    rw [hbuild, hnew]

/-- Details that were installed are those of their blob. -/
theorem buildTriggerDetailsForNode_some {P : Parser} {alloc : Nat → Bool} {data : DetailsText}
    (h : buildTriggerDetailsForNode P alloc types env data list = (some blob, new)) :
    encode P alloc data.json = .ok blob ∧
      buildTriggerDetails types env blob list = (true, new) := by
  rw [buildTriggerDetailsForNode] at h
  by_cases hlen : data.length = 0
  · rw [if_pos hlen] at h
    exact absurd (congrArg Prod.fst h) (by simp)
  rw [if_neg hlen] at h
  cases hencode : encode P alloc data.json with
  | error err =>
    rw [hencode] at h
    exact absurd (congrArg Prod.fst h) (by simp)
  | ok blob' =>
    rw [hencode] at h
    cases hbuild : buildTriggerDetails types env blob' list with
    | mk ok list' =>
      simp only [hbuild] at h
      cases ok with
      | false => exact absurd (congrArg Prod.fst h) (by simp)
      | true =>
        cases h
        exact ⟨rfl, hbuild⟩

/-- Details that were not installed leave the list. -/
theorem buildTriggerDetailsForNode_none {P : Parser} {alloc : Nat → Bool} {data : DetailsText}
    (h : (buildTriggerDetailsForNode P alloc types env data list).1 = none) :
    buildTriggerDetailsForNode P alloc types env data list = (none, list) := by
  rw [buildTriggerDetailsForNode] at h ⊢
  by_cases hlen : data.length = 0
  · rw [if_pos hlen]
  rw [if_neg hlen] at h ⊢
  cases hencode : encode P alloc data.json with
  | error err => rfl
  | ok blob' =>
    rw [hencode] at h
    rcases buildTriggerDetails_inv types env blob' list with hkeep | ⟨_, _, new', hbuild, -⟩
    · simp only [hkeep]
    · simp only [hbuild] at h
      exact absurd h (by simp)

end Build

/-- A build installs exactly the enabled entries of its blob, in their order, or it leaves the list
as it was, and so do the details that a node receives. A node whose receipt was stored reads the
same list back, from any list before, unless an allocation fails and the list stays. -/
theorem install_atomic (types : Nat → ValType) (env : InstallEnv) :
    (∀ blob list, buildTriggerDetails types env blob list = (false, list) ∨
      ∃ es new, buildTriggerDetails types env blob list = (true, new) ∧ BlobLayout blob es ∧
        List.Forall₂ (Entry.Installs types env.resolve) (es.filter Entry.enabled) new) ∧
    ∀ (P : Parser) (alloc : Nat → Bool) (data : DetailsText) (s : NodeTriggers),
      let received := buildTriggerDetailsForNode P alloc types env data s.list
      (received.1 = none → ∀ persisted,
        updateTriggerDetailsTask P alloc types env persisted data s = s) ∧
      ∀ blob, received.1 = some blob → encode P alloc data.json = .ok blob ∧
        let t := updateTriggerDetailsTask P alloc types env true data s
        t.details = some blob ∧
        ∀ (booted : NodeTriggers) (env' : InstallEnv) (voided : Bool),
          booted.details = t.details → env'.resolve = env.resolve →
          reloadForNode types env' true voided booted = { booted with list := t.list } ∨
          (reloadForNode types env' true voided booted =
              { booted with triggerVer := if voided then -1 else booted.triggerVer } ∧
            env' ≠ env'.served) := by
  refine ⟨fun blob list => buildTriggerDetails_installs types env blob list, ?_⟩
  intro P alloc data s received
  constructor
  · intro hnone persisted
    rw [updateTriggerDetailsTask, buildTriggerDetailsForNode_none hnone]
  · intro blob hsome
    have hreceived : received = (some blob, received.2) := by rw [← hsome]
    obtain ⟨hencode, hbuild⟩ := buildTriggerDetailsForNode_some hreceived
    have htask : updateTriggerDetailsTask P alloc types env true data s
        = { s with list := received.2, details := some blob } := by
      rw [updateTriggerDetailsTask, show buildTriggerDetailsForNode P alloc types env data s.list
        = (some blob, received.2) from hreceived]
      rfl
    refine ⟨hencode, ?_⟩
    rw [htask]
    refine ⟨rfl, ?_⟩
    intro booted env' voided hstored hresolve
    -- The boot reads the blob that the receipt stored, whatever list it starts from.
    have hread : (if (true : Bool) then booted.details else none) = some blob := hstored
    rw [reloadForNode, hread]
    rcases buildTriggerDetails_again hbuild hresolve booted.list with hsame | ⟨hkeep, hfailed⟩
    · left
      simp only [hsame]
    · right
      refine ⟨?_, hfailed⟩
      simp only [hkeep]

/-- The details of two integer triggers, received and read back after a boot. -/
theorem install_atomic_sample :
    let env : InstallEnv := { resolve := fun path => if path = ['p'] then some ⟨9, 2⟩ else none }
    let data : DetailsText := ⟨9, some [some {
      id := some (.str ⟨[116], by decide⟩), path := some (.str ⟨[112], by decide⟩),
      operator := some (.str ⟨[101, 113], by decide⟩), value := some (.int 5) }]⟩
    let t := updateTriggerDetailsTask strictParser (fun _ => true) (fun _ => .integer) env true
      data {}
    (t.list.map Trigger.id = [['t']]) ∧
      (reloadForNode (fun _ => .integer) env true true { details := t.details }).list =
        t.list := by
  intro env data t
  have hreceived : (buildTriggerDetailsForNode strictParser (fun _ => true) (fun _ => .integer) env
      data []).1 = some [1, 1, 3, 0, 1, 0, 116, 1, 0, 112, 5, 0, 0, 0] := by decide +kernel
  have hreload := ((install_atomic (fun _ => .integer) env).2 strictParser (fun _ => true) data
    {}).2 _ hreceived
  refine ⟨by decide +kernel, ?_⟩
  rcases hreload.2.2 { details := t.details } env true rfl rfl with hsame | ⟨-, hfailed⟩
  · rw [hsame]
  · exact absurd rfl hfailed

end RainMakerNeo.Automation
