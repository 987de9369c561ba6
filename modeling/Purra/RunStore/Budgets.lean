import Purra.RunStore.SourceKeys

/-!
# Budgets of a Root

What a Run has used, and what its Root has.

* `State.covers` — a Root counts what the Runs under it do, a child only what it does.
* `counted` — the usage of a Run, counted again: receipts, metered events, and the charges of a
  ledger.
* `Budgeted` — every usage is what is counted, no Root is over its limits, and the ledger charges
  each invocation once, and those that were settled.
* `reached_budgeted` — **every run** has such a ledger; a call that settles an invocation charges
  it, and one that settles a Run charges every invocation that was open.
-/

namespace Purra.RunStore

/-- What the Runs of the second id do counts for the Run of the first. -/
def State.covers (s : State) (id runId : String) : Prop :=
  if (s.run id).rootRunId = id then (s.run runId).rootRunId = id else runId = id

instance (s : State) (id runId : String) : Decidable (s.covers id runId) :=
  inferInstanceAs (Decidable (if (s.run id).rootRunId = id then (s.run runId).rootRunId = id
    else runId = id))

/-- The events that count for a Run: a Root's journal, or a child's own. -/
def State.journalOf (s : State) (id : String) : List Event :=
  if (s.run id).rootRunId = id then s.rootJournal id else (s.run id).events

/-- The receipts that count for a Run. -/
def State.attemptsOf (s : State) (id : String) : Nat :=
  s.runs.total fun runId run =>
    if s.covers id runId then run.invocationReceipts.keys.length else 0

/-- The events that are metered. -/
def meteredOf (events : List Event) : List Event := events.filter (·.kind.metered)

/-- The charges that count for a Run. -/
def State.chargesOf (s : State) (ledger : List Charge) (id : String) : List (Option TokenUsage) :=
  (ledger.filter fun charge => s.covers id charge.runId).map (·.usage)

/-- The usage of a Run, counted again. -/
def counted (host : Host) (s : State) (ledger : List Charge) (id : String) : Usage :=
  { (s.chargesOf ledger id).foldl Usage.charge {} with
    modelAttempts := s.attemptsOf id
    outputBytes := ((meteredOf (s.journalOf id)).map fun event =>
      byteLength host event.payload).sum
    outputEvents := (meteredOf (s.journalOf id)).length }

/-- The limits a Root never passes. -/
structure Within (snapshot : Snapshot) : Prop where
  attempts : ¬ exceeds snapshot.budgets.maxModelAttempts snapshot.usage.modelAttempts
  bytes : ¬ exceeds snapshot.budgets.maxOutputBytes snapshot.usage.outputBytes
  events : ¬ exceeds snapshot.budgets.maxOutputEvents snapshot.usage.outputEvents

/-- The books of a repository are in order. -/
structure Budgeted (host : Host) (s : State) (ledger : List Charge) : Prop extends Tree s where
  unborn : ∀ id, s.runs.get? id = none → s.rootJournal id = []
  usage : ∀ id run, s.runs.get? id = some run → run.snapshot.usage = counted host s ledger id
  limits : ∀ id root, s.runs.get? id = some root → root.rootRunId = id → Within root.snapshot
  open_receipts : ∀ id run, s.runs.get? id = some run →
    ∀ invocationId ∈ run.openInvocations, invocationId ∈ run.invocationReceipts.keys
  once : (ledger.map fun charge => (charge.runId, charge.invocationId)).Nodup
  closed : ∀ charge ∈ ledger, ∃ run, s.runs.get? charge.runId = some run ∧
    charge.invocationId ∈ run.invocationReceipts.keys ∧
    charge.invocationId ∉ run.openInvocations
  settled : ∀ id run, s.runs.get? id = some run → ∀ invocationId settled,
    run.invocationSettlements.get? invocationId = some settled →
      ⟨id, invocationId, settled.input.usage⟩ ∈ ledger

section

variable {host : Host} {env : Env} {P : State → String → Draft → Prop} {s s' : State}
  {runId id : String} {run : StoredRun} {ledger : List Charge} {f : String → StoredRun → StoredRun}

/-! ## What counts for a Run -/

theorem Tree.covers_iff (hs : Tree s) {run' : StoredRun} (hrun : s.runs.get? id = some run)
    (hrun' : s.runs.get? runId = some run') :
    s.covers id runId ↔ id = runId ∨ id = run'.rootRunId := by
  unfold State.covers
  rw [run_of_get? hrun, run_of_get? hrun']
  by_cases hself : run.rootRunId = id
  · rw [if_pos hself]
    constructor
    · intro h
      exact .inr h.symm
    · rintro (rfl | h)
      · rw [hrun] at hrun'
        cases hrun'
        exact hself
      · exact h.symm
  · rw [if_neg hself]
    constructor
    · intro h
      exact .inl h.symm
    · rintro (h | h)
      · exact h.symm
      · obtain ⟨root, hroot, hroot'⟩ := hs.rooted _ _ hrun'
        rw [← h, hrun] at hroot
        cases hroot
        exact absurd (hroot'.trans h.symm) hself

theorem Rewrites.rootOf (h : Rewrites s s' f) (id : String) :
    (s'.run id).rootRunId = (s.run id).rootRunId := by
  unfold State.run
  rw [h.runs]
  cases s.runs.get? id with
  | none => rfl
  | some run => exact (h.fixed id run).rootRunId

theorem Rewrites.covers (h : Rewrites s s' f) (id runId : String) :
    s'.covers id runId ↔ s.covers id runId := by
  unfold State.covers
  rw [h.rootOf, h.rootOf]

theorem Rewrites.chargesOf (h : Rewrites s s' f) (ledger : List Charge) (id : String) :
    s'.chargesOf ledger id = s.chargesOf ledger id := by
  unfold State.chargesOf
  congr 2
  funext charge
  exact decide_eq_decide.2 (h.covers id charge.runId)

theorem Rewrites.attemptsOf (h : Rewrites s s' f)
    (hreceipts : ∀ id run, (f id run).invocationReceipts = run.invocationReceipts) (id : String) :
    s'.attemptsOf id = s.attemptsOf id := by
  unfold State.attemptsOf
  rw [Dict.total_of_get? h.runs]
  congr 1
  funext runId run
  rw [hreceipts, if_congr (h.covers id runId) rfl rfl]

theorem Quiet.journalOf (h : Quiet s s') (id : String)
    (hroot : (s'.run id).rootRunId = (s.run id).rootRunId) :
    s'.journalOf id = s.journalOf id := by
  have hevents : (s'.run id).events = (s.run id).events := by
    unfold State.run
    cases hs' : s'.runs.get? id with
    | some run' =>
      obtain ⟨run, hrun, -, hsame⟩ := h.back id run' hs'
      rw [hrun]
      exact hsame
    | none =>
      cases hs : s.runs.get? id with
      | none => rfl
      | some run =>
        obtain ⟨run', hrun', -⟩ := h.forth id run hs
        rw [hs'] at hrun'
        cases hrun'
  unfold State.journalOf
  rw [hroot, hevents, h.journal]

/-- A write that leaves everything alone that is counted. -/
theorem Rewrites.counted (h : Rewrites s s' f) (hquiet : Quiet s s')
    (hreceipts : ∀ id run, (f id run).invocationReceipts = run.invocationReceipts)
    (ledger : List Charge) (id : String) :
    RunStore.counted host s' ledger id = RunStore.counted host s ledger id := by
  unfold RunStore.counted
  rw [h.chargesOf, h.attemptsOf hreceipts, hquiet.journalOf id (h.rootOf id)]

/-! ## Writes that use something -/

theorem counted_append (charge : Charge) : counted host s (ledger ++ [charge]) id =
    if s.covers id charge.runId then (counted host s ledger id).charge charge.usage
    else counted host s ledger id := by
  have hcharges : s.chargesOf (ledger ++ [charge]) id = s.chargesOf ledger id ++
      if s.covers id charge.runId then [charge.usage] else [] := by
    unfold State.chargesOf
    rw [List.filter_append, List.map_append]
    congr 1
    by_cases h : s.covers id charge.runId
    · rw [if_pos h, List.filter_cons_of_pos (by simpa using h)]
      rfl
    · rw [if_neg h, List.filter_cons_of_neg (by simpa using h)]
      rfl
  unfold counted
  rw [hcharges]
  split
  · rw [List.foldl_append]
    cases charge.usage <;> rfl
  · rw [List.append_nil]

/-- An invocation is opened: the Runs it counts for have one more attempt. -/
theorem counted_openReceipt {receipt : Receipt}
    (hrun : s.runs.get? runId = some run)
    (hfresh : run.invocationReceipts.get? receipt.invocationId = none) :
    counted host (openReceipt runId receipt s) ledger id =
      if s.covers id runId then (counted host s ledger id).attempt
      else counted host s ledger id := by
  have hrewrites : Rewrites s (openReceipt runId receipt s) _ := rewrites_openReceipt runId receipt
  have hruns : (openReceipt runId receipt s).runs = s.runs.set runId (run.opened receipt) := by
    unfold openReceipt State.setRun
    rw [hrun]
    rfl
  have hattempts : (openReceipt runId receipt s).attemptsOf id =
      s.attemptsOf id + if s.covers id runId then 1 else 0 := by
    have hcovers : ∀ x, ((openReceipt runId receipt s).covers id x) = (s.covers id x) := fun x =>
      propext (hrewrites.covers id x)
    have hlength : (run.opened receipt).invocationReceipts.keys.length =
        run.invocationReceipts.keys.length + 1 := by
      show (run.invocationReceipts.set receipt.invocationId receipt).keys.length = _
      rw [Dict.keys_set_of_not_mem (Dict.get?_eq_none_iff.1 hfresh), List.length_append]
      rfl
    have htotal := Dict.total_set_of_get? (v := run.opened receipt) (fun x (run : StoredRun) =>
      if s.covers id x then run.invocationReceipts.keys.length else 0) hrun
    unfold State.attemptsOf
    simp only [hcovers]
    rw [hruns]
    by_cases h : s.covers id runId
    · simp only [if_pos h] at htotal ⊢
      omega
    · simp only [if_neg h] at htotal ⊢
      omega
  unfold counted
  rw [hrewrites.chargesOf, hattempts,
    (quiet_openReceipt receipt).journalOf id (hrewrites.rootOf id)]
  split <;> rfl

/-- An event is pushed: the Runs it counts for have one more event, if it is metered. -/
theorem counted_pushEvent (event : Event) (hrun : s.runs.get? runId = some run)
    {run' : StoredRun} (hrun' : s.runs.get? id = some run') :
    counted host (pushEvent runId event s) ledger id =
      if s.covers id runId ∧ event.kind.metered = true then
        (counted host s ledger id).emit (byteLength host event.payload)
      else counted host s ledger id := by
  have hrewrites : Rewrites s (pushEvent runId event s) _ := rewrites_pushEvent runId event
  have hreceipts : ∀ id (run : StoredRun),
      (if id = runId then run.push event else run).invocationReceipts =
        run.invocationReceipts := by
    intro id run
    split <;> rfl
  have hjournal : (pushEvent runId event s).journalOf id = s.journalOf id ++
      if s.covers id runId then [event] else [] := by
    have hevents : ((pushEvent runId event s).run id).events =
        if id = runId then run'.events ++ [event] else run'.events := by
      unfold State.run
      rw [hrewrites.runs, hrun']
      by_cases h : id = runId
      · simp [h, StoredRun.push]
      · simp [h]
    unfold State.journalOf
    rw [hrewrites.rootOf, hevents, rootJournal_pushEvent hrun]
    by_cases hroot : (s.run id).rootRunId = id
    · rw [if_pos hroot, if_pos hroot]
      have hiff : s.covers id runId ↔ id = run.rootRunId := by
        unfold State.covers
        rw [if_pos hroot, run_of_get? hrun]
        exact eq_comm
      by_cases h : id = run.rootRunId
      · rw [if_pos h, if_pos (hiff.2 h)]
      · rw [if_neg h, if_neg fun hc => h (hiff.1 hc), List.append_nil]
    · rw [if_neg hroot, if_neg hroot]
      have hiff : s.covers id runId ↔ id = runId := by
        unfold State.covers
        rw [if_neg hroot]
        exact eq_comm
      rw [run_of_get? hrun']
      by_cases h : id = runId
      · rw [if_pos h, if_pos (hiff.2 h)]
      · rw [if_neg h, if_neg fun hc => h (hiff.1 hc), List.append_nil]
  have hmetered : meteredOf ((pushEvent runId event s).journalOf id) =
      meteredOf (s.journalOf id) ++
        if s.covers id runId ∧ event.kind.metered = true then [event] else [] := by
    unfold meteredOf
    rw [hjournal, List.filter_append]
    congr 1
    by_cases h : s.covers id runId
    · by_cases hkind : event.kind.metered = true
      · simp [h, hkind]
      · simp [h, hkind]
    · simp [h]
  unfold counted
  rw [hrewrites.chargesOf, hrewrites.attemptsOf hreceipts, hmetered]
  split
  · rw [List.map_append, List.sum_append, List.length_append]
    rfl
  · rw [List.append_nil]

/-! ## Moves -/

/-- Limits that are met stay met when a Run uses nothing. -/
theorem Within.of_eq {snapshot snapshot' : Snapshot} (h : Within snapshot)
    (hbudgets : snapshot'.budgets = snapshot.budgets) (husage : snapshot'.usage = snapshot.usage) :
    Within snapshot' := by
  refine ⟨?_, ?_, ?_⟩
  · rw [hbudgets, husage]
    exact h.attempts
  · rw [hbudgets, husage]
    exact h.bytes
  · rw [hbudgets, husage]
    exact h.events

/-- The Runs there are are rewritten. -/
theorem Budgeted.rewrites (hs : Budgeted host s ledger) (h : Rewrites s s' f)
    (hjournal : ∀ id, s.runs.get? id = none → s'.rootJournal id = s.rootJournal id)
    (husage : ∀ id run, s.runs.get? id = some run →
      (f id run).snapshot.usage = counted host s' ledger id)
    (hlimits : ∀ id root, s.runs.get? id = some root → root.rootRunId = id →
      Within (f id root).snapshot)
    (hopens : ∀ id run, s.runs.get? id = some run → ∀ x ∈ (f id run).openInvocations,
      x ∈ (f id run).invocationReceipts.keys)
    (hclosed : ∀ id run, s.runs.get? id = some run → ∀ x ∈ run.invocationReceipts.keys,
      x ∉ run.openInvocations →
        x ∈ (f id run).invocationReceipts.keys ∧ x ∉ (f id run).openInvocations)
    (hsettled : ∀ id run, (f id run).invocationSettlements = run.invocationSettlements) :
    Budgeted host s' ledger where
  toTree := h.tree hs.toTree
  unborn := by
    intro id hnone
    rw [h.runs, Option.map_eq_none_iff] at hnone
    rw [hjournal id hnone]
    exact hs.unborn id hnone
  usage := by
    intro id run' hrun'
    obtain ⟨run, hrun, rfl⟩ := h.get? hrun'
    exact husage id run hrun
  limits := by
    intro id root' hroot' hself
    obtain ⟨root, hroot, rfl⟩ := h.get? hroot'
    exact hlimits id root hroot ((h.fixed id root).rootRunId.symm.trans hself)
  open_receipts := by
    intro id run' hrun'
    obtain ⟨run, hrun, rfl⟩ := h.get? hrun'
    exact hopens id run hrun
  once := hs.once
  closed := by
    intro charge hcharge
    obtain ⟨run, hrun, hreceipt, hclosed'⟩ := hs.closed charge hcharge
    exact ⟨f charge.runId run, by rw [h.runs, hrun, Option.map_some],
      hclosed _ run hrun _ hreceipt hclosed'⟩
  settled := by
    intro id run' hrun'
    obtain ⟨run, hrun, rfl⟩ := h.get? hrun'
    rw [hsettled]
    exact hs.settled id run hrun

/-- A write that uses nothing and opens nothing. -/
theorem Budgeted.beside (hs : Budgeted host s ledger) (h : Rewrites s s' f) (hquiet : Quiet s s')
    (husage : ∀ id run, (f id run).snapshot.usage = run.snapshot.usage)
    (hreceipts : ∀ id run, (f id run).invocationReceipts = run.invocationReceipts)
    (hopens : ∀ id run, (f id run).openInvocations ⊆ run.openInvocations)
    (hsettled : ∀ id run, (f id run).invocationSettlements = run.invocationSettlements) :
    Budgeted host s' ledger := by
  refine hs.rewrites h (fun id _ => hquiet.journal id) (fun id run hrun => ?_)
    (fun id root hroot hself => ?_) (fun id run hrun x hx => ?_)
    (fun id run hrun x hreceipt hclosed => ?_) hsettled
  · rw [husage, h.counted hquiet hreceipts, hs.usage id run hrun]
  · exact (hs.limits id root hroot hself).of_eq (h.fixed id root).budgets (husage id root)
  · rw [hreceipts]
    exact hs.open_receipts id run hrun x (hopens id run hx)
  · rw [hreceipts]
    exact ⟨hreceipt, fun hx => hclosed (hopens id run hx)⟩

theorem Budgeted.closeInvocation (hs : Budgeted host s ledger) (invocationId : String) :
    Budgeted host (closeInvocation runId invocationId s) ledger := by
  refine hs.beside (rewrites_closeInvocation runId invocationId) (quiet_closeInvocation _)
    (fun id run => ?_) (fun id run => ?_) (fun id run => ?_) fun id run => ?_
  · split <;> rfl
  · split <;> rfl
  · split
    · exact List.erase_subset
    · exact List.Subset.refl _
  · split <;> rfl

/-- **A charge** for an invocation that was closed and not charged. -/
theorem Budgeted.charge (hs : Budgeted host s ledger) {invocationId : String}
    (usage : Option TokenUsage) (hrun : s.runs.get? runId = some run)
    (hreceipt : invocationId ∈ run.invocationReceipts.keys)
    (hclosed : invocationId ∉ run.openInvocations)
    (hnew : ∀ charge ∈ ledger, ¬ (charge.runId = runId ∧ charge.invocationId = invocationId)) :
    Budgeted host ((updateUsages host env runId run.rootRunId (·.charge usage)).final s)
      (ledger ++ [⟨runId, invocationId, usage⟩]) := by
  have hrewrites : Rewrites s ((updateUsages host env runId run.rootRunId
      (·.charge usage)).final s) _ := rewrites_updateUsages runId run.rootRunId (·.charge usage)
  have hquiet : Quiet s ((updateUsages host env runId run.rootRunId (·.charge usage)).final s) :=
    quiet_updateUsages _
  have hsame : ∀ {α : Type} (g : StoredRun → α), (∀ run, g (run.use host env (·.charge usage)) =
      g run) → ∀ id run', (g (if id = runId ∨ id = run.rootRunId then
        run'.use host env (·.charge usage) else run')) = g run' := by
    intro α g hg id run'
    split
    · exact hg run'
    · rfl
  refine ⟨hrewrites.tree hs.toTree, fun id hnone => ?_, fun id run' hrun' => ?_,
    fun id root' hroot' hself => ?_, fun id run' hrun' => ?_, ?_, fun charge hcharge => ?_,
    fun id run' hrun' x settled hsettled => ?_⟩
  · rw [hrewrites.runs, Option.map_eq_none_iff] at hnone
    rw [hquiet.journal]
    exact hs.unborn id hnone
  · obtain ⟨old, hold, rfl⟩ := hrewrites.get? hrun'
    rw [counted_append, hrewrites.counted hquiet (hsame (·.invocationReceipts) fun _ => rfl),
      if_congr (hrewrites.covers id runId) rfl rfl,
      if_congr (hs.toTree.covers_iff hold hrun) rfl rfl, ← hs.usage id old hold]
    split <;> rfl
  · obtain ⟨old, hold, rfl⟩ := hrewrites.get? hroot'
    have hlimits := hs.limits id old hold ((hrewrites.fixed id old).rootRunId.symm.trans hself)
    split
    · refine ⟨?_, ?_, ?_⟩
      · show ¬ exceeds old.snapshot.budgets.maxModelAttempts
          (old.snapshot.usage.charge usage).modelAttempts
        cases usage <;> exact hlimits.attempts
      · show ¬ exceeds old.snapshot.budgets.maxOutputBytes
          (old.snapshot.usage.charge usage).outputBytes
        cases usage <;> exact hlimits.bytes
      · show ¬ exceeds old.snapshot.budgets.maxOutputEvents
          (old.snapshot.usage.charge usage).outputEvents
        cases usage <;> exact hlimits.events
    · exact hlimits
  · obtain ⟨old, hold, rfl⟩ := hrewrites.get? hrun'
    rw [hsame (·.openInvocations) fun _ => rfl, hsame (·.invocationReceipts) fun _ => rfl]
    exact hs.open_receipts id old hold
  · rw [List.map_append, List.nodup_append]
    refine ⟨hs.once, List.nodup_singleton _, fun pair hpair pair' hpair' heq => ?_⟩
    obtain ⟨charge, hcharge, rfl⟩ := List.mem_map.1 hpair
    rw [List.map_singleton, List.mem_singleton] at hpair'
    rw [hpair', Prod.mk.injEq] at heq
    exact hnew charge hcharge heq
  · rcases List.mem_append.1 hcharge with hcharge | hcharge
    · obtain ⟨old, hold, hreceipt', hclosed'⟩ := hs.closed charge hcharge
      refine ⟨_, by rw [hrewrites.runs, hold, Option.map_some], ?_⟩
      rw [hsame (·.openInvocations) fun _ => rfl, hsame (·.invocationReceipts) fun _ => rfl]
      exact ⟨hreceipt', hclosed'⟩
    · rw [List.mem_singleton.1 hcharge]
      refine ⟨_, by rw [hrewrites.runs, hrun, Option.map_some], ?_⟩
      rw [hsame (·.openInvocations) fun _ => rfl, hsame (·.invocationReceipts) fun _ => rfl]
      exact ⟨hreceipt, hclosed⟩
  · obtain ⟨old, hold, rfl⟩ := hrewrites.get? hrun'
    rw [hsame (·.invocationSettlements) fun _ => rfl] at hsettled
    exact List.mem_append_left _ (hs.settled id old hold x settled hsettled)

/-- An invocation is opened, within the limit of the Root. -/
theorem Budgeted.opened (hs : Budgeted host s ledger) {receipt : Receipt} {root : StoredRun}
    (hrun : s.runs.get? runId = some run) (hroot : s.runs.get? run.rootRunId = some root)
    (hfresh : run.invocationReceipts.get? receipt.invocationId = none)
    (hlimit : ¬ exceeds root.snapshot.budgets.maxModelAttempts
      (root.snapshot.usage.modelAttempts + 1 : Nat)) :
    Budgeted host ((updateUsages host env runId run.rootRunId Usage.attempt).final
      (openReceipt runId receipt s)) ledger := by
  have hopened : Rewrites s (openReceipt runId receipt s) _ := rewrites_openReceipt runId receipt
  have hused : Rewrites (openReceipt runId receipt s)
      ((updateUsages host env runId run.rootRunId Usage.attempt).final
        (openReceipt runId receipt s)) _ :=
    rewrites_updateUsages runId run.rootRunId Usage.attempt
  have hquiet : Quiet (openReceipt runId receipt s)
      ((updateUsages host env runId run.rootRunId Usage.attempt).final
        (openReceipt runId receipt s)) := quiet_updateUsages _
  have hreceipts : ∀ id (run' : StoredRun), (if id = runId ∨ id = run.rootRunId then
      run'.use host env Usage.attempt else run').invocationReceipts =
        run'.invocationReceipts := by
    intro id run'
    split <;> rfl
  refine hs.rewrites (hopened.comp hused)
    (fun id _ => ((quiet_openReceipt receipt).trans hquiet).journal id) (fun id old hold => ?_)
    (fun id old hold hself => ?_) (fun id old hold x hx => ?_)
    (fun id old hold x hreceipt hclosed => ?_) fun id old => ?_
  · rw [hused.counted hquiet hreceipts, counted_openReceipt hrun hfresh,
      if_congr (hs.toTree.covers_iff hold hrun) rfl rfl, ← hs.usage id old hold]
    by_cases hcovers : id = runId ∨ id = run.rootRunId
    · rw [if_pos hcovers, if_pos hcovers]
      split <;> rfl
    · rw [if_neg hcovers, if_neg hcovers]
      split <;> rfl
  · have hlimits := hs.limits id old hold hself
    by_cases hcovers : id = runId ∨ id = run.rootRunId
    · have hid : id = run.rootRunId := by
        rcases hcovers with rfl | hid
        · rw [hrun] at hold
          cases hold
          exact hself.symm
        · exact hid
      rw [hid, hroot] at hold
      cases hold
      rw [if_pos hcovers]
      by_cases hopen : id = runId
      · rw [if_pos hopen]
        exact ⟨hlimit, hlimits.bytes, hlimits.events⟩
      · rw [if_neg hopen]
        exact ⟨hlimit, hlimits.bytes, hlimits.events⟩
    · rw [if_neg hcovers, if_neg fun h => hcovers (.inl h)]
      exact hlimits
  · rw [hreceipts]
    by_cases hid : id = runId
    · rw [hid, hrun] at hold
      cases hold
      have hx : x ∈ (run.opened receipt).openInvocations := by
        rw [hid, if_pos (.inl rfl), if_pos rfl] at hx
        exact hx
      rw [if_pos hid]
      show x ∈ (run.invocationReceipts.set receipt.invocationId receipt).keys
      rw [Dict.keys_set_of_not_mem (Dict.get?_eq_none_iff.1 hfresh), List.mem_append,
        List.mem_singleton]
      unfold StoredRun.opened at hx
      split at hx
      · exact .inl (hs.open_receipts runId run hrun x hx)
      · rcases List.mem_append.1 hx with hx | hx
        · exact .inl (hs.open_receipts runId run hrun x hx)
        · exact .inr (List.mem_singleton.1 hx)
    · rw [if_neg hid]
      refine hs.open_receipts id old hold x ?_
      rw [if_neg hid] at hx
      split at hx
      · exact hx
      · exact hx
  · rw [hreceipts]
    by_cases hid : id = runId
    · rw [hid, hrun] at hold
      cases hold
      rw [if_pos hid, if_pos (Or.inl hid)]
      constructor
      · show x ∈ (run.invocationReceipts.set receipt.invocationId receipt).keys
        rw [Dict.keys_set_of_not_mem (Dict.get?_eq_none_iff.1 hfresh)]
        exact List.mem_append_left _ hreceipt
      · show x ∉ (if _ then run.openInvocations else _)
        have hne : x ≠ receipt.invocationId := by
          rintro rfl
          exact Dict.get?_eq_none_iff.1 hfresh hreceipt
        split
        · exact hclosed
        · rw [List.mem_append, List.mem_singleton]
          exact fun h => h.elim hclosed hne
    · rw [if_neg hid]
      refine ⟨hreceipt, ?_⟩
      split
      · exact hclosed
      · exact hclosed
  · split <;> split <;> rfl

/-- A draft that is in the budget of a Root. -/
theorem within_emit {snapshot : Snapshot} {draft : CopiedDraft} (h : Within snapshot)
    (hmetered : draft.kind.metered = true) (hbudget : checkBudget host snapshot draft = .ok ()) :
    Within { snapshot with usage := snapshot.usage.emit (byteLength host draft.payload) } := by
  unfold checkBudget checkOutput at hbudget
  rw [if_pos hmetered] at hbudget
  split at hbudget
  · cases hbudget
  · next hbytes =>
    split at hbudget
    · cases hbudget
    · next hevents => exact ⟨h.attempts, hbytes, hevents⟩

/-- An event is appended, within the limits of the Root. -/
theorem Budgeted.appended (hs : Budgeted host s ledger) {rootId : String} {raw : Draft}
    {meter : Bool} {event : Event} (hrun : s.runs.get? runId = some run)
    (hmetered : meter = true → rootId = run.rootRunId)
    (hunmetered : meter = false → raw.kind.metered = false)
    (happended : Appended host env runId rootId meter raw s event s') :
    Budgeted host s' ledger := by
  obtain ⟨draft, hdraft, hadmitted, rfl, rfl⟩ := happended.made
  have hkind : draft.kind = raw.kind := kind_of_copyDraft hdraft
  have hemitted : Rewrites s (emitted host env runId rootId meter draft s) _ := rewrites_emitted
  have hpushed := rewrites_pushEvent (s := emitted host env runId rootId meter draft s) runId
    (eventOf host env s runId draft)
  have hquiet : Quiet s (emitted host env runId rootId meter draft s) := quiet_emitted
  obtain ⟨run', hrun', hroot'⟩ := hquiet.forth runId run hrun
  have hreceipts : ∀ id (run : StoredRun),
      (if (meter = true ∧ draft.kind.metered = true) ∧ (id = runId ∨ id = rootId) then
        run.use host env (·.emit (byteLength host draft.payload))
      else run).invocationReceipts = run.invocationReceipts := by
    intro id run
    split <;> rfl
  -- what is pushed is counted where it was emitted
  have hiff : ∀ id old, s.runs.get? id = some old →
      ((meter = true ∧ draft.kind.metered = true) ∧ (id = runId ∨ id = rootId) ↔
        s.covers id runId ∧ draft.kind.metered = true) := by
    intro id old hold
    rw [hs.toTree.covers_iff hold hrun]
    constructor
    · rintro ⟨⟨hmeter, hkind⟩, hid⟩
      rw [hmetered hmeter] at hid
      exact ⟨hid, hkind⟩
    · rintro ⟨hid, hmetered'⟩
      cases meter with
      | false =>
        rw [hkind, hunmetered rfl] at hmetered'
        cases hmetered'
      | true =>
        rw [hmetered rfl]
        exact ⟨⟨rfl, hmetered'⟩, hid⟩
  refine hs.rewrites (hemitted.comp hpushed) (fun id hnone => ?_) (fun id old hold => ?_)
    (fun id old hold hself => ?_) (fun id old hold => ?_) (fun id old hold => ?_) fun id old => ?_
  · rw [rootJournal_pushEvent hrun', hquiet.journal, if_neg]
    intro hid
    obtain ⟨root, hroot, -⟩ := hs.rooted _ _ hrun
    rw [hid, hroot', hroot] at hnone
    cases hnone
  · have hold' : (emitted host env runId rootId meter draft s).runs.get? id ≠ none := by
      rw [hemitted.runs, hold]
      exact Option.some_ne_none _
    obtain ⟨new, hnew⟩ := Option.ne_none_iff_exists'.1 hold'
    rw [counted_pushEvent _ hrun' hnew, hemitted.counted hquiet hreceipts,
      if_congr (and_congr_left' (hemitted.covers id runId)) rfl rfl, ← hs.usage id old hold]
    have hsame := hiff id old hold
    show ((if id = runId then StoredRun.push _ (if _ then _ else old) else if _ then _ else old) :
      StoredRun).snapshot.usage = if s.covers id runId ∧ draft.kind.metered = true then _ else _
    by_cases hcovers : s.covers id runId ∧ draft.kind.metered = true
    · rw [if_pos (hsame.2 hcovers), if_pos hcovers]
      split <;> rfl
    · rw [if_neg fun h => hcovers (hsame.1 h), if_neg hcovers]
      split <;> rfl
  · have hlimits := hs.limits id old hold hself
    have hwithin : Within (if (meter = true ∧ draft.kind.metered = true) ∧
        (id = runId ∨ id = rootId) then old.use host env (·.emit (byteLength host draft.payload))
      else old).snapshot := by
      by_cases hcovers : (meter = true ∧ draft.kind.metered = true) ∧ (id = runId ∨ id = rootId)
      · rw [if_pos hcovers]
        obtain ⟨⟨hmeter, hmetered'⟩, hid⟩ := hcovers
        have hid : id = rootId := by
          rcases hid with rfl | hid
          · rw [hrun] at hold
            cases hold
            exact hself.symm.trans (hmetered hmeter).symm
          · exact hid
        have hbudget := hadmitted.budget hmeter
        rw [← hid, run_of_get? hold] at hbudget
        exact (within_emit hlimits hmetered' hbudget).of_eq rfl rfl
      · rw [if_neg hcovers]
        exact hlimits
    by_cases hid : id = runId
    · rw [if_pos hid]
      exact hwithin.of_eq rfl rfl
    · rw [if_neg hid]
      exact hwithin
  · have hopens := hs.open_receipts id old hold
    split <;> split <;> exact hopens
  · intro x hreceipt hclosed
    split <;> split <;> exact ⟨hreceipt, hclosed⟩
  · split <;> split <;> rfl

theorem not_exceeds_zero {value : Option Int} {label : String}
    (h : nullablePositiveBudget value label = .ok ()) : ¬ exceeds value (0 : Nat) := by
  rintro ⟨maximum, hmaximum, hlow⟩
  cases hmaximum
  obtain ⟨n, hn, -⟩ := Purra.bind_eq_ok h
  unfold nonNegativeInteger at hn
  by_cases hrange : isSafeInteger maximum ∧ 0 ≤ maximum
  · have hnonneg := hrange.2
    omega
  · rw [if_neg hrange] at hn
    cases hn

theorem within_of_normalized {snapshot : Snapshot} (husage : snapshot.usage = {})
    (h : normalizeRunBudgets snapshot.budgets = .ok ()) : Within snapshot := by
  unfold normalizeRunBudgets at h
  obtain ⟨_, hattempts, h⟩ := Purra.bind_eq_ok h
  obtain ⟨_, -, h⟩ := Purra.bind_eq_ok h
  obtain ⟨_, -, h⟩ := Purra.bind_eq_ok h
  obtain ⟨_, -, h⟩ := Purra.bind_eq_ok h
  obtain ⟨_, hbytes, hevents⟩ := Purra.bind_eq_ok h
  refine ⟨?_, ?_, ?_⟩
  · rw [husage]
    exact not_exceeds_zero hattempts
  · rw [husage]
    exact not_exceeds_zero hbytes
  · rw [husage]
    exact not_exceeds_zero hevents

/-- A Run is begun. -/
theorem Budgeted.begun (hs : Budgeted host s ledger) (hfresh : s.runs.get? run.runId = none)
    (hblank : Blank run) (htree : Tree (addRun run s)) : Budgeted host (addRun run s) ledger := by
  have hadd : addRun run s = _ := addRun_plain hs.plain
  have hget : ∀ id, (addRun run s).runs.get? id =
      if id = run.runId then some run else s.runs.get? id := by
    intro id
    rw [hadd]
    exact Dict.get?_set _ _ _ _
  have hjournal : ∀ root, (addRun run s).rootJournal root = s.rootJournal root := by
    intro root
    rw [hadd]
    rfl
  have hnew : (addRun run s).run run.runId = run := run_of_get? (by rw [hget, if_pos rfl])
  have hold : ∀ {id old}, s.runs.get? id = some old → id ≠ run.runId := by
    rintro id old hold rfl
    rw [hfresh] at hold
    cases hold
  have hsame : ∀ {id old}, s.runs.get? id = some old → (addRun run s).run id = s.run id := by
    intro id old h
    unfold State.run
    rw [hget, if_neg (hold h)]
  have hcovers : ∀ {id old k v}, s.runs.get? id = some old → s.runs.get? k = some v →
      ((addRun run s).covers id k ↔ s.covers id k) := by
    intro id old k v hid hk
    unfold State.covers
    rw [hsame hid, hsame hk]
  -- nothing that was there counts for the new Run
  have hnone : ∀ {k v}, s.runs.get? k = some v → ¬ (addRun run s).covers run.runId k := by
    intro k v hk
    unfold State.covers
    rw [hnew, hsame hk, run_of_get? hk]
    split
    · intro h
      obtain ⟨root, hroot, -⟩ := hs.rooted k v hk
      rw [h, hfresh] at hroot
      cases hroot
    · exact hold hk
  have hcounted : ∀ {id old}, s.runs.get? id = some old →
      counted host (addRun run s) ledger id = counted host s ledger id := by
    intro id old hid
    have hcharges : (addRun run s).chargesOf ledger id = s.chargesOf ledger id := by
      unfold State.chargesOf
      congr 1
      refine List.filter_congr fun charge hcharge => ?_
      obtain ⟨owner, howner, -⟩ := hs.closed charge hcharge
      exact decide_eq_decide.2 (hcovers hid howner)
    have hattempts : (addRun run s).attemptsOf id = s.attemptsOf id := by
      unfold State.attemptsOf
      rw [show (addRun run s).runs = s.runs.set run.runId run by rw [hadd],
        Dict.total_set_of_none _ hfresh, hblank.invocationReceipts]
      have hzero : (if (addRun run s).covers id run.runId then
          (Dict.empty : Dict String Receipt).keys.length else 0) = 0 := by
        split <;> rfl
      rw [hzero, Nat.add_zero]
      refine Dict.total_congr fun k v hk => ?_
      rw [if_congr (hcovers hid hk) rfl rfl]
    unfold counted
    rw [hcharges, hattempts]
    unfold State.journalOf
    rw [hsame hid, hjournal]
  have hblankUsage : counted host (addRun run s) ledger run.runId = {} := by
    have hcharges : (addRun run s).chargesOf ledger run.runId = [] := by
      unfold State.chargesOf
      rw [List.map_eq_nil_iff, List.filter_eq_nil_iff]
      intro charge hcharge
      obtain ⟨owner, howner, -⟩ := hs.closed charge hcharge
      simpa using hnone howner
    have hattempts : (addRun run s).attemptsOf run.runId = 0 := by
      unfold State.attemptsOf
      rw [show (addRun run s).runs = s.runs.set run.runId run by rw [hadd],
        Dict.total_set_of_none _ hfresh, hblank.invocationReceipts]
      have hzero : s.runs.total (fun k (v : StoredRun) => if (addRun run s).covers run.runId k then
          v.invocationReceipts.keys.length else 0) = s.runs.total fun _ _ => 0 :=
        Dict.total_congr fun k v hk => if_neg (hnone hk)
      rw [hzero]
      unfold Dict.total
      rw [List.map_const', List.sum_replicate_nat, Nat.mul_zero]
      split <;> rfl
    have hevents : (addRun run s).journalOf run.runId = [] := by
      unfold State.journalOf
      rw [hnew, hjournal, hs.unborn _ hfresh, hblank.events]
      split <;> rfl
    unfold counted
    rw [hcharges, hattempts, hevents]
    rfl
  refine ⟨htree, fun id hid => ?_, fun id run' hrun' => ?_, fun id root hroot hself => ?_,
    fun id run' hrun' => ?_, hs.once, fun charge hcharge => ?_, fun id run' hrun' => ?_⟩
  · rw [hget] at hid
    split at hid
    · cases hid
    · rw [hjournal]
      exact hs.unborn id hid
  · rw [hget] at hrun'
    split at hrun'
    · next h =>
      cases hrun'
      rw [h, hblankUsage, hblank.usage]
    · rw [hcounted hrun']
      exact hs.usage id run' hrun'
  · rw [hget] at hroot
    split at hroot
    · cases hroot
      exact within_of_normalized hblank.usage hblank.budgets
    · exact hs.limits id root hroot hself
  · rw [hget] at hrun'
    split at hrun'
    · cases hrun'
      rw [hblank.openInvocations]
      exact fun x hx => absurd hx List.not_mem_nil
    · exact hs.open_receipts id run' hrun'
  · obtain ⟨owner, howner, hclosed⟩ := hs.closed charge hcharge
    exact ⟨owner, by rw [hget, if_neg (hold howner), howner], hclosed⟩
  · rw [hget] at hrun'
    split at hrun'
    · cases hrun'
      rw [hblank.invocationSettlements]
      exact fun x settled h => by cases h
    · exact hs.settled id run' hrun'

/-- **One move** keeps the books, with what it charges. -/
theorem Move.budgeted {new : List Charge} (h : Move host env P False s new s')
    (hs : Budgeted host s ledger) : Budgeted host s' (ledger ++ new) := by
  have htree := (h.tree hs.toTree).1
  cases h with
  | journal rootRunId =>
    rw [List.append_nil]
    have hrewrites : Rewrites s (openJournal rootRunId s) fun _ run => run :=
      ⟨fun id => Option.map_id'.symm, fun _ run => .refl run, fun _ _ h => h, rfl⟩
    exact hs.beside hrewrites (quiet_openJournal rootRunId) (fun _ _ => rfl) (fun _ _ => rfl)
      (fun _ _ => List.Subset.refl _) fun _ _ => rfl
  | begun hfresh hscope hblank =>
    rw [List.append_nil]
    exact hs.begun hfresh hblank htree
  | appended hrun hmetered hunmetered _ happended =>
    rw [List.append_nil]
    exact hs.appended hrun hmetered hunmetered happended
  | opened hrun hroot hfresh hlimit =>
    rw [List.append_nil]
    exact hs.opened hrun hroot hfresh hlimit
  | @charged runId invocationId run usage hrun hopen =>
    have hclosed := (rewrites_closeInvocation (s := s) runId invocationId)
    have hrun' : (closeInvocation runId invocationId s).runs.get? runId =
        some (run.closed invocationId) := by
      rw [hclosed.runs, hrun, Option.map_some, if_pos rfl]
    have hreceipt : invocationId ∈ (run.closed invocationId).invocationReceipts.keys :=
      hs.open_receipts runId run hrun _ hopen
    show Budgeted host ((updateUsages host env runId (run.closed invocationId).rootRunId
      (·.charge usage)).final (closeInvocation runId invocationId s)) _
    refine (hs.closeInvocation invocationId).charge usage hrun' hreceipt ?_ fun charge hcharge => ?_
    · exact (hs.opens runId run hrun).not_mem_erase
    · rintro ⟨rfl, rfl⟩
      obtain ⟨owner, howner, -, hno⟩ := hs.closed charge hcharge
      rw [hrun] at howner
      cases howner
      exact hno hopen
  | closed invocationId =>
    rw [List.append_nil]
    exact hs.closeInvocation invocationId
  | noted runId hnotes =>
    rw [List.append_nil]
    have hquiet : Quiet s (s.setRun runId _) := quiet_setRun hnotes
    have hrewrites : Rewrites s _ _ := rewrites_setRun runId (fun run => (hnotes run).toFixed)
      fun run hnodup => by
        rw [(hnotes run).openInvocations]
        exact hnodup
    refine hs.beside hrewrites hquiet (fun id run => ?_) (fun id run => ?_) (fun id run => ?_)
      fun id run => ?_
    · split
      · exact (hnotes run).usage
      · rfl
    · split
      · exact (hnotes run).invocationReceipts
      · rfl
    · split
      · rw [(hnotes run).openInvocations]
        exact List.Subset.refl _
      · exact List.Subset.refl _
    · split
      · exact (hnotes run).invocationSettlements
      · rfl
  | kept runId settled hkept => exact hkept.elim

theorem trace_budgeted {new : List Charge} (h : Trace (Move host env P False) s new s')
    (hs : Budgeted host s ledger) : Budgeted host s' (ledger ++ new) :=
  h.induction (I := fun past s => Budgeted host s past) hs fun _ _ _ _ hs hmove => hmove.budgeted hs

/-- A settlement is kept for an invocation that was charged. -/
theorem Budgeted.kept (hs : Budgeted host s ledger) (settled : Settled)
    (hcharged : ⟨runId, settled.input.invocationId, settled.input.usage⟩ ∈ ledger) :
    Budgeted host (keepSettlement runId settled s) ledger := by
  have hrewrites := rewrites_keepSettlement (s := s) runId settled
  have hquiet : Quiet s (keepSettlement runId settled s) := quiet_keepSettlement settled
  have hsame : ∀ {α : Type} (g : StoredRun → α), (∀ run, g (run.settle settled) = g run) →
      ∀ id run', g (if id = runId then run'.settle settled else run') = g run' := by
    intro α g hg id run'
    split
    · exact hg run'
    · rfl
  refine ⟨hrewrites.tree hs.toTree, fun id hnone => ?_, fun id run' hrun' => ?_,
    fun id root' hroot' hself => ?_, fun id run' hrun' => ?_, hs.once, fun charge hcharge => ?_,
    fun id run' hrun' x settled' hsettled => ?_⟩
  · rw [hrewrites.runs, Option.map_eq_none_iff] at hnone
    rw [hquiet.journal]
    exact hs.unborn id hnone
  · obtain ⟨old, hold, rfl⟩ := hrewrites.get? hrun'
    rw [hrewrites.counted hquiet (hsame (·.invocationReceipts) fun _ => rfl),
      hsame (·.snapshot.usage) fun _ => rfl]
    exact hs.usage id old hold
  · obtain ⟨old, hold, rfl⟩ := hrewrites.get? hroot'
    rw [hsame (·.snapshot) fun _ => rfl]
    exact hs.limits id old hold ((hrewrites.fixed id old).rootRunId.symm.trans hself)
  · obtain ⟨old, hold, rfl⟩ := hrewrites.get? hrun'
    rw [hsame (·.openInvocations) fun _ => rfl, hsame (·.invocationReceipts) fun _ => rfl]
    exact hs.open_receipts id old hold
  · obtain ⟨old, hold, hclosed⟩ := hs.closed charge hcharge
    refine ⟨_, by rw [hrewrites.runs, hold, Option.map_some], ?_⟩
    rw [hsame (·.openInvocations) fun _ => rfl, hsame (·.invocationReceipts) fun _ => rfl]
    exact hclosed
  · obtain ⟨old, hold, rfl⟩ := hrewrites.get? hrun'
    by_cases hid : id = runId
    · have hset : (old.invocationSettlements.set settled.input.invocationId settled).get? x =
          some settled' := by
        rw [if_pos hid] at hsettled
        exact hsettled
      rw [Dict.get?_set] at hset
      split at hset
      · next hx =>
        cases hset
        rw [hid, hx]
        exact hcharged
      · exact hs.settled id old hold x settled' hset
    · rw [if_neg hid] at hsettled
      exact hs.settled id old hold x settled' hsettled

end

/-! ## Runs -/

section

variable (host : Host)

/-- What a call charges that settles an invocation or a Run, when it returns. -/
def Charged (s : State) : Env × Call → List Charge → Prop
  | (env, .settleInvocation runId settlement claim), new =>
    ∀ a s', settleInvocation host env runId settlement claim s = (.ok a, s') →
      (s.run runId).invocationSettlements.get? settlement.invocationId = none →
        ⟨runId, settlement.invocationId, settlement.usage⟩ ∈ new
  | (env, .settleRun runId status options claim), new =>
    ∀ a s', settleRun host env runId status options claim s = (.ok a, s') →
      (s.run runId).snapshot.status = .running →
        Settles host s runId (s.run runId).openInvocations new
  | (env, .cancel runId claim), new =>
    ∀ a s', cancel host env runId claim s = (.ok a, s') →
      (s.run runId).snapshot.status = .running →
        Settles host s runId (s.run runId).openInvocations new
  | _, _ => True

/-- The charges of a run, call by call. -/
def Ledgered : State → List (Env × Call) → List Charge → Prop
  | _, [], ledger => ledger = []
  | s, call :: run, ledger => ∃ new rest, ledger = new ++ rest ∧ Charged host s call new ∧
      Ledgered (step host s call) run rest

end

section

variable {host : Host} {s : State} {ledger : List Charge}

/-- A Run that is settled, or cancelled, charges what was open. -/
theorem charges_cancel {env : Env} {P : State → String → Draft → Prop} {K : Prop}
    (hP : ∀ s runId raw, trim raw.sourceKey = raw.sourceKey → P s runId raw) {runId : String}
    {run : StoredRun} {claim : LeaseClaim} (hs : Tree s) (hrun : s.runs.get? runId = some run)
    (hrunning : run.snapshot.status = .running) :
    Charges host env P K s runId run.openInvocations (cancel host env runId claim) := by
  refine charges_still_bind hs (still_require _) fun found hfound => ?_
  obtain ⟨-, hsame⟩ := require_eq_ok hfound
  rw [hrun] at hsame
  cases hsame
  rw [if_neg (not_not.2 hrunning)]
  exact charges_bind hs (settleRun_charges hP hs hrun hrunning) fun _ _ _ _ _ =>
    Action.traces_pure _

/-- **One call** keeps the books. -/
theorem step_budgeted (call : Env × Call) (hs : Budgeted host s ledger) :
    ∃ new, Charged host s call new ∧ Budgeted host (step host s call) (ledger ++ new) := by
  obtain ⟨env, call⟩ := call
  have hP : ∀ s runId (raw : Draft), trim raw.sourceKey = raw.sourceKey →
      (fun _ _ _ => True : State → String → Draft → Prop) s runId raw := fun _ _ _ _ => trivial
  have hother : ∀ c, (∀ runId settlement claim, c ≠ .settleInvocation runId settlement claim) →
      ∃ new, Budgeted host (step host s (env, c)) (ledger ++ new) := by
    intro c hc
    have htraces : Writes host env (fun _ _ _ => True) False s (c.run host env) :=
      Call.traces hP c hs.toTree (fun _ _ _ _ => trivial) hc
    obtain ⟨new, hnew⟩ := htraces
    exact ⟨new, trace_budgeted hnew hs⟩
  cases call with
  | settleInvocation runId settlement claim =>
    have hstep : step host s (env, .settleInvocation runId settlement claim) =
        (settleInvocation host env runId settlement claim s).2 := Action.final_map _ _ _
    obtain ⟨new, s₁, hnew, ⟨e, h⟩ | ⟨a, replay, h, hreplay⟩ | ⟨a, settled, h, rfl, hmem⟩⟩ :=
      settleInvocation_cases (K := False) hP settlement claim hs.toTree
    · refine ⟨new, fun a s' hok => ?_, ?_⟩
      · rw [h] at hok
        cases hok
      · rw [hstep, h]
        exact trace_budgeted hnew hs
    · refine ⟨new, fun a s' hok hnone => ?_, ?_⟩
      · rw [hreplay] at hnone
        cases hnone
      · rw [hstep, h]
        exact trace_budgeted hnew hs
    · refine ⟨new, fun _ _ _ _ => hmem, ?_⟩
      rw [hstep, h]
      exact (trace_budgeted hnew hs).kept settled (List.mem_append_right ledger hmem)
  | settleRun runId status options claim =>
    have hstep : step host s (env, .settleRun runId status options claim) =
        (settleRun host env runId status options claim).final s := Action.final_map _ _ _
    by_cases hrunning : ∃ run, s.runs.get? runId = some run ∧ run.snapshot.status = .running
    · obtain ⟨run, hrun, hrunning⟩ := hrunning
      have hcharges : Charges host env (fun _ _ _ => True) False s runId run.openInvocations
          (settleRun host env runId status options claim) :=
        settleRun_charges hP hs.toTree hrun hrunning
      obtain ⟨new, hnew, hsettles⟩ := hcharges
      refine ⟨new, fun a s' hok _ => ?_, ?_⟩
      · rw [run_of_get? hrun]
        exact hsettles a s' hok
      · rw [hstep]
        exact trace_budgeted hnew hs
    · obtain ⟨new, hnew⟩ := hother (.settleRun runId status options claim) fun _ _ _ h => by cases h
      refine ⟨new, fun a s' hok hstatus => ?_, hnew⟩
      obtain ⟨run, s₁, hrun, -⟩ := Action.bind_eq_ok.1 hok
      have hget := (require_eq_ok hrun).2
      rw [run_of_get? hget] at hstatus
      exact absurd ⟨run, hget, hstatus⟩ hrunning
  | cancel runId claim =>
    have hstep : step host s (env, .cancel runId claim) =
        (cancel host env runId claim).final s := Action.final_map _ _ _
    by_cases hrunning : ∃ run, s.runs.get? runId = some run ∧ run.snapshot.status = .running
    · obtain ⟨run, hrun, hrunning⟩ := hrunning
      have hcharges : Charges host env (fun _ _ _ => True) False s runId run.openInvocations
          (cancel host env runId claim) := charges_cancel hP hs.toTree hrun hrunning
      obtain ⟨new, hnew, hsettles⟩ := hcharges
      refine ⟨new, fun a s' hok _ => ?_, ?_⟩
      · rw [run_of_get? hrun]
        exact hsettles a s' hok
      · rw [hstep]
        exact trace_budgeted hnew hs
    · obtain ⟨new, hnew⟩ := hother (.cancel runId claim) fun _ _ _ h => by cases h
      refine ⟨new, fun a s' hok hstatus => ?_, hnew⟩
      obtain ⟨run, s₁, hrun, -⟩ := Action.bind_eq_ok.1 hok
      have hget := (require_eq_ok hrun).2
      rw [run_of_get? hget] at hstatus
      exact absurd ⟨run, hget, hstatus⟩ hrunning
  | begin params =>
    obtain ⟨new, hnew⟩ := hother (.begin params) fun _ _ _ h => by cases h
    exact ⟨new, trivial, hnew⟩
  | openInvocation runId input claim =>
    obtain ⟨new, hnew⟩ := hother (.openInvocation runId input claim) fun _ _ _ h => by cases h
    exact ⟨new, trivial, hnew⟩
  | appendEvent runId draft claim =>
    obtain ⟨new, hnew⟩ := hother (.appendEvent runId draft claim) fun _ _ _ h => by cases h
    exact ⟨new, trivial, hnew⟩
  | appendBatch runId drafts claim =>
    obtain ⟨new, hnew⟩ := hother (.appendBatch runId drafts claim) fun _ _ _ h => by cases h
    exact ⟨new, trivial, hnew⟩
  | saveExecutionCheckpoint runId checkpoint claim =>
    obtain ⟨new, hnew⟩ := hother (.saveExecutionCheckpoint runId checkpoint claim) fun _ _ _ h => by cases h
    exact ⟨new, trivial, hnew⟩
  | saveToolExecutionCheckpoint runId checkpoint claim =>
    obtain ⟨new, hnew⟩ := hother (.saveToolExecutionCheckpoint runId checkpoint claim) fun _ _ _ h => by cases h
    exact ⟨new, trivial, hnew⟩

theorem budgeted_empty (host : Host) : Budgeted host {} [] := by
  have hruns : ∀ id run, ({} : State).runs.get? id = some run → False := fun _ _ h => by cases h
  exact ⟨journaled_empty.toTree, fun _ _ => rfl, fun id run h => (hruns id run h).elim,
    fun id run h _ => (hruns id run h).elim, fun id run h => (hruns id run h).elim, List.nodup_nil,
    fun _ h => absurd h List.not_mem_nil, fun id run h => (hruns id run h).elim⟩

theorem exec_budgeted (run : List (Env × Call)) (hs : Budgeted host s ledger) :
    ∃ new, Ledgered host s run new ∧ Budgeted host (exec (step host) s run) (ledger ++ new) := by
  induction run generalizing s ledger with
  | nil => exact ⟨[], rfl, by rwa [List.append_nil]⟩
  | cons call run ih =>
    obtain ⟨new, hcharged, hstep⟩ := step_budgeted call hs
    obtain ⟨rest, hrest, hfinal⟩ := ih hstep
    refine ⟨new ++ rest, ⟨new, rest, rfl, hcharged, hrest⟩, ?_⟩
    rw [← List.append_assoc]
    exact hfinal

/-- **Every run** has a ledger: the usage of every Run is what is counted, a Root is within its
limits, no invocation is charged twice, and one that is settled, or open when its Run is settled,
is charged. -/
theorem reached_budgeted (host : Host) (run : List (Env × Call)) :
    ∃ ledger, Ledgered host {} run ledger ∧ Budgeted host (exec (step host) {} run) ledger :=
  exec_budgeted run (budgeted_empty host)

end

end Purra.RunStore
