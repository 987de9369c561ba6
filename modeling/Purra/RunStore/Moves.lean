import Purra.Lib.Run
import Purra.Lib.Trace
import Purra.RunStore.Writes

/-!
# What the methods write

* `Call`, `step` — the methods that write, and one call.
* `Tree` — Runs under their ids, each under a Root, and no journal left behind.
* `Move` — **every write** a method makes, with what is known when it makes it.  A move logs the
  invocation it charges, with the usage.
* `Call.traces` — every call is a sequence of such moves, whichever way it ends.

`P` is what is asked of a draft that is appended; it is to hold of every draft whose source key is
trimmed.  `K` allows to keep a settlement, which only `settleInvocation` does.
-/

namespace Purra.RunStore

/-- A call of a method that writes. -/
inductive Call where
  | begin (params : BeginParams)
  | openInvocation (runId : String) (input : ReceiptInput) (claim : LeaseClaim)
  | appendEvent (runId : String) (draft : Draft) (claim : LeaseClaim)
  | appendBatch (runId : String) (drafts : List Draft) (claim : LeaseClaim)
  | saveExecutionCheckpoint (runId : String) (checkpoint : Checkpoint) (claim : LeaseClaim)
  | saveToolExecutionCheckpoint (runId : String) (checkpoint : ToolCheckpoint) (claim : LeaseClaim)
  | settleInvocation (runId : String) (settlement : Settlement) (claim : LeaseClaim)
  | settleRun (runId : String) (status : TerminalStatus) (options : SettleOptions)
      (claim : LeaseClaim)
  | cancel (runId : String) (claim : LeaseClaim)

/-- The call, its value left out. -/
def Call.run (host : Host) (env : Env) : Call → Act Unit
  | .begin params => (fun _ => ()) <$> RunStore.begin host env params
  | .openInvocation runId input claim =>
    (fun _ => ()) <$> RunStore.openInvocation host env runId input claim
  | .appendEvent runId draft claim =>
    (fun _ => ()) <$> RunStore.appendEvent host env runId draft claim
  | .appendBatch runId drafts claim =>
    (fun _ => ()) <$> RunStore.appendBatch host env runId drafts claim
  | .saveExecutionCheckpoint runId checkpoint claim =>
    (fun _ => ()) <$> RunStore.saveExecutionCheckpoint host env runId checkpoint claim
  | .saveToolExecutionCheckpoint runId checkpoint claim =>
    (fun _ => ()) <$> RunStore.saveToolExecutionCheckpoint host env runId checkpoint claim
  | .settleInvocation runId settlement claim =>
    (fun _ => ()) <$> RunStore.settleInvocation host env runId settlement claim
  | .settleRun runId status options claim =>
    (fun _ => ()) <$> RunStore.settleRun host env runId status options claim
  | .cancel runId claim => (fun _ => ()) <$> RunStore.cancel host env runId claim

/-- One call, with what it finds outside. -/
def step (host : Host) (s : State) (call : Env × Call) : State :=
  (call.2.run host call.1).final s

/-- A platform on which every clock shows the start of 1970 and no checkpoint is well formed. -/
def sampleHost : Host where
  canonicalJson
    | .obj [] => "\x7b\x7d"
    | _ => ""
  text _ := "[object Object]"
  number _ := 0
  dateParse _ := some 0
  toISOString _ := "1970-01-01T00:00:00.000Z"
  planningRecords _ _ := none
  copyExecutionCheckpoint _ := .error (.type "Unsupported agent execution checkpoint schema")
  copyToolExecutionCheckpoint _ := .error (.type "Unsupported tool execution checkpoint schema")
  isInputCheckpointUpdate _ _ := false

/-- A call at that time. -/
def sampleEnv : Env where
  now := 0
  freshRunId := "run"
  freshEventId n := "event-" ++ toString n
  leaseValidator _ _ := .ok ()

/-! ## Runs under their Roots -/

/-- Runs are stored under their ids, each under a Root, and no journal is left behind. -/
structure Tree (s : State) : Prop where
  plain : Plain s
  opens : ∀ id run, s.runs.get? id = some run → run.openInvocations.Nodup
  named : ∀ id run, s.runs.get? id = some run → run.runId = id
  rooted : ∀ id run, s.runs.get? id = some run →
    ∃ root, s.runs.get? run.rootRunId = some root ∧ root.rootRunId = run.rootRunId

/-- What never changes about a Run. -/
structure Fixed (run run' : StoredRun) : Prop where
  runId : run'.runId = run.runId
  rootRunId : run'.rootRunId = run.rootRunId
  agentId : run'.agentId = run.agentId
  budgets : run'.snapshot.budgets = run.snapshot.budgets

theorem Fixed.refl (run : StoredRun) : Fixed run run := ⟨rfl, rfl, rfl, rfl⟩

theorem Fixed.trans {run run' run'' : StoredRun} (h : Fixed run run') (h' : Fixed run' run'') :
    Fixed run run'' :=
  ⟨h'.runId.trans h.runId, h'.rootRunId.trans h.rootRunId, h'.agentId.trans h.agentId,
    h'.budgets.trans h.budgets⟩

/-- Every Run is still there. -/
def Grows (s s' : State) : Prop :=
  ∀ id run, s.runs.get? id = some run → ∃ run', s'.runs.get? id = some run' ∧ Fixed run run'

/-- A write that rewrites the Runs there are. -/
structure Rewrites (s s' : State) (f : String → StoredRun → StoredRun) : Prop where
  runs : ∀ id, s'.runs.get? id = (s.runs.get? id).map (f id)
  fixed : ∀ id run, Fixed run (f id run)
  opens : ∀ id run, run.openInvocations.Nodup → (f id run).openInvocations.Nodup
  deferred : s'.deferredHistories = s.deferredHistories

section

variable {s s' : State} {f : String → StoredRun → StoredRun}

theorem Rewrites.get? (h : Rewrites s s' f) {id : String} {run' : StoredRun}
    (hrun : s'.runs.get? id = some run') : ∃ run, s.runs.get? id = some run ∧ run' = f id run := by
  rw [h.runs, Option.map_eq_some_iff] at hrun
  obtain ⟨run, hrun, rfl⟩ := hrun
  exact ⟨run, hrun, rfl⟩

theorem Rewrites.grows (h : Rewrites s s' f) : Grows s s' := by
  intro id run hrun
  exact ⟨f id run, by rw [h.runs, hrun, Option.map_some], h.fixed id run⟩

theorem Rewrites.tree (h : Rewrites s s' f) (hs : Tree s) : Tree s' where
  plain := h.deferred.trans hs.plain
  opens := by
    intro id run' hrun'
    obtain ⟨run, hrun, rfl⟩ := h.get? hrun'
    exact h.opens id run (hs.opens id run hrun)
  named := by
    intro id run' hrun'
    obtain ⟨run, hrun, rfl⟩ := h.get? hrun'
    exact (h.fixed id run).runId.trans (hs.named id run hrun)
  rooted := by
    intro id run' hrun'
    obtain ⟨run, hrun, rfl⟩ := h.get? hrun'
    obtain ⟨root, hroot, hself⟩ := hs.rooted id run hrun
    refine ⟨f run.rootRunId root, ?_, ?_⟩
    · rw [(h.fixed id run).rootRunId, h.runs, hroot, Option.map_some]
    · rw [(h.fixed _ root).rootRunId, (h.fixed id run).rootRunId, hself]

end

/-! ## Moves -/

/-- A charge for an invocation, to its Run and to its Root. -/
structure Charge where
  runId : String
  invocationId : String
  usage : Option TokenUsage

/-- A Run that was just begun. -/
structure Blank (run : StoredRun) : Prop where
  events : run.events = []
  bySourceKey : run.bySourceKey = Dict.empty
  openInvocations : run.openInvocations = []
  invocationReceipts : run.invocationReceipts = Dict.empty
  invocationSettlements : run.invocationSettlements = Dict.empty
  usage : run.snapshot.usage = {}
  budgets : normalizeRunBudgets run.snapshot.budgets = .ok ()

/-- What a note on a Run leaves alone: its journal, its invocations, and what it used. -/
structure Notes (run run' : StoredRun) : Prop extends Fixed run run' where
  events : run'.events = run.events
  bySourceKey : run'.bySourceKey = run.bySourceKey
  openInvocations : run'.openInvocations = run.openInvocations
  invocationReceipts : run'.invocationReceipts = run.invocationReceipts
  invocationSettlements : run'.invocationSettlements = run.invocationSettlements
  usage : run'.snapshot.usage = run.snapshot.usage

section

variable (host : Host) (env : Env) (P : State → String → Draft → Prop) (K : Prop)

/-- A write of a method, with what it charges. -/
inductive Move : State → List Charge → State → Prop
  | journal {s : State} (rootRunId : String) : Move s [] (openJournal rootRunId s)
  | begun {s : State} {run : StoredRun} (hfresh : s.runs.get? run.runId = none)
      (hscope : run.rootRunId = run.runId ∨ ∃ root, s.runs.get? run.rootRunId = some root ∧
        root.rootRunId = run.rootRunId) (hblank : Blank run) : Move s [] (addRun run s)
  | appended {s s' : State} {runId rootId : String} {raw : Draft} {meter : Bool} {event : Event}
      {run : StoredRun} (hrun : s.runs.get? runId = some run)
      (hmetered : meter = true → rootId = run.rootRunId)
      (hunmetered : meter = false → raw.kind.metered = false) (hraw : P s runId raw)
      (happended : Appended host env runId rootId meter raw s event s') : Move s [] s'
  | opened {s : State} {runId : String} {receipt : Receipt} {run root : StoredRun}
      (hrun : s.runs.get? runId = some run) (hroot : s.runs.get? run.rootRunId = some root)
      (hfresh : run.invocationReceipts.get? receipt.invocationId = none)
      (hlimit : ¬ exceeds root.snapshot.budgets.maxModelAttempts
        (root.snapshot.usage.modelAttempts + 1 : Nat)) :
      Move s [] ((updateUsages host env runId run.rootRunId Usage.attempt).final
        (openReceipt runId receipt s))
  | charged {s : State} {runId invocationId : String} {run : StoredRun}
      (usage : Option TokenUsage) (hrun : s.runs.get? runId = some run)
      (hopen : invocationId ∈ run.openInvocations) :
      Move s [⟨runId, invocationId, usage⟩]
        ((updateUsages host env runId run.rootRunId (·.charge usage)).final
          (closeInvocation runId invocationId s))
  | closed {s : State} {runId : String} (invocationId : String) :
      Move s [] (closeInvocation runId invocationId s)
  | noted {s : State} (runId : String) {f : StoredRun → StoredRun}
      (hnotes : ∀ run, Notes run (f run)) : Move s [] (s.setRun runId f)
  | kept {s : State} (runId : String) (settled : Settled) (hkept : K) :
      Move s [] (keepSettlement runId settled s)

end

section

variable {host : Host} {env : Env} {P : State → String → Draft → Prop} {K : Prop} {s s' : State}
  {log : List Charge}

theorem rewrites_setRun (runId : String) {f : StoredRun → StoredRun}
    (hf : ∀ run, Fixed run (f run))
    (hopens : ∀ run, run.openInvocations.Nodup → (f run).openInvocations.Nodup) :
    Rewrites s (s.setRun runId f) fun id run => if id = runId then f run else run where
  runs := fun id => get?_setRun s runId id f
  fixed := by
    intro id run
    split
    · exact hf run
    · exact .refl run
  opens := by
    intro id run hnodup
    split
    · exact hopens run hnodup
    · exact hnodup
  deferred := (setRun_tables s runId f).2.2

theorem fixed_use (f : Usage → Usage) (run : StoredRun) : Fixed run (run.use host env f) :=
  ⟨rfl, rfl, rfl, rfl⟩

theorem rewrites_updateUsages (runId rootId : String) (f : Usage → Usage) :
    Rewrites s ((updateUsages host env runId rootId f).final s) fun id run =>
      if id = runId ∨ id = rootId then run.use host env f else run where
  runs := fun id => get?_updateUsages runId rootId id f s
  fixed := by
    intro id run
    split
    · exact fixed_use f run
    · exact .refl run
  opens := by
    intro id run hnodup
    split
    · exact hnodup
    · exact hnodup
  deferred := (updateUsages_tables runId rootId f s).2.2

theorem Rewrites.comp {s'' : State} {f g : String → StoredRun → StoredRun}
    (h : Rewrites s s' f) (h' : Rewrites s' s'' g) :
    Rewrites s s'' fun id run => g id (f id run) where
  runs := by
    intro id
    rw [h'.runs, h.runs, Option.map_map]
    rfl
  fixed := fun id run => (h.fixed id run).trans (h'.fixed id (f id run))
  opens := fun id run hnodup => h'.opens id _ (h.opens id run hnodup)
  deferred := h'.deferred.trans h.deferred

theorem rewrites_emitted {runId rootId : String} {meter : Bool} {draft : CopiedDraft} :
    Rewrites s (emitted host env runId rootId meter draft s) fun id run =>
      if (meter = true ∧ draft.kind.metered = true) ∧ (id = runId ∨ id = rootId) then
        run.use host env (·.emit (byteLength host draft.payload))
      else run where
  runs := fun _ => get?_emitted
  fixed := by
    intro id run
    split
    · exact fixed_use _ run
    · exact .refl run
  opens := by
    intro id run hnodup
    split
    · exact hnodup
    · exact hnodup
  deferred := emitted_tables.2.2

theorem rewrites_pushEvent (runId : String) (event : Event) :
    Rewrites s (pushEvent runId event s) fun id run =>
      if id = runId then run.push event else run where
  runs := fun id => get?_pushEvent runId id event s
  fixed := by
    intro id run
    split
    · exact ⟨rfl, rfl, rfl, rfl⟩
    · exact .refl run
  opens := by
    intro id run hnodup
    split
    · exact hnodup
    · exact hnodup
  deferred := (pushEvent_tables runId event s).2.2

/-- A Run with an invocation opened. -/
def StoredRun.opened (receipt : Receipt) (run : StoredRun) : StoredRun :=
  { run with
    openInvocations := if receipt.invocationId ∈ run.openInvocations then run.openInvocations
      else run.openInvocations ++ [receipt.invocationId]
    invocationReceipts := run.invocationReceipts.set receipt.invocationId receipt }

/-- A Run with a settlement kept. -/
def StoredRun.settle (settled : Settled) (run : StoredRun) : StoredRun :=
  { run with
    invocationSettlements := run.invocationSettlements.set settled.input.invocationId settled }

/-- A Run with an invocation closed. -/
def StoredRun.closed (invocationId : String) (run : StoredRun) : StoredRun :=
  { run with openInvocations := run.openInvocations.erase invocationId }

theorem rewrites_openReceipt (runId : String) (receipt : Receipt) :
    Rewrites s (openReceipt runId receipt s) fun id run =>
      if id = runId then run.opened receipt else run := by
  refine rewrites_setRun runId (fun _ => ⟨rfl, rfl, rfl, rfl⟩) fun run hnodup => ?_
  show (if _ then run.openInvocations else _).Nodup
  split
  · exact hnodup
  · next hnew => exact List.nodup_append'.2 ⟨hnodup, List.nodup_singleton _, by simpa using hnew⟩

theorem rewrites_closeInvocation (runId invocationId : String) :
    Rewrites s (closeInvocation runId invocationId s) fun id run =>
      if id = runId then run.closed invocationId else run :=
  rewrites_setRun runId (fun _ => ⟨rfl, rfl, rfl, rfl⟩) fun _ hnodup => hnodup.erase _

theorem rewrites_keepSettlement (runId : String) (settled : Settled) :
    Rewrites s (keepSettlement runId settled s) fun id run =>
      if id = runId then run.settle settled else run :=
  rewrites_setRun runId (fun _ => ⟨rfl, rfl, rfl, rfl⟩) fun _ hnodup => hnodup

/-- A move begins a Run, or rewrites the Runs there are. -/
theorem Move.cases (h : Move host env P K s log s') :
    (∃ run : StoredRun, s.runs.get? run.runId = none ∧ Blank run ∧
      (run.rootRunId = run.runId ∨ ∃ root, s.runs.get? run.rootRunId = some root ∧
        root.rootRunId = run.rootRunId) ∧ s' = addRun run s) ∨
    ∃ f, Rewrites s s' f := by
  cases h with
  | journal rootRunId =>
    refine .inr ⟨fun _ run => run, fun id => ?_, fun _ run => .refl run, fun _ _ h => h, rfl⟩
    exact Option.map_id'.symm
  | begun hfresh hscope hblank => exact .inl ⟨_, hfresh, hblank, hscope, rfl⟩
  | appended _ _ _ _ happended =>
    obtain ⟨draft, -, -, -, rfl⟩ := happended.made
    exact .inr ⟨_, rewrites_emitted.comp (rewrites_pushEvent _ _)⟩
  | opened =>
    exact .inr ⟨_, (rewrites_openReceipt _ _).comp (rewrites_updateUsages _ _ _)⟩
  | charged usage hrun hopen =>
    exact .inr ⟨_, (rewrites_closeInvocation _ _).comp (rewrites_updateUsages _ _ _)⟩
  | closed invocationId => exact .inr ⟨_, rewrites_closeInvocation _ invocationId⟩
  | noted runId hnotes =>
    refine .inr ⟨_, rewrites_setRun _ (fun run => (hnotes run).toFixed) fun run hnodup => ?_⟩
    rw [(hnotes run).openInvocations]
    exact hnodup
  | kept runId settled hkept => exact .inr ⟨_, rewrites_keepSettlement runId settled⟩

/-- A Run that is added to a plain state takes over no journal. -/
theorem addRun_plain {run : StoredRun} (hs : Plain s) :
    addRun run s = { s with runs := s.runs.set run.runId run } := by
  unfold addRun
  have hnone : (if run.rootRunId = run.runId then none
      else s.deferredHistories.get? run.rootRunId) = none := by
    split
    · rfl
    · exact hs.get?
  rw [hnone]

theorem Move.tree (h : Move host env P K s log s') (hs : Tree s) : Tree s' ∧ Grows s s' := by
  rcases h.cases with ⟨run, hfresh, hblank, hscope, rfl⟩ | ⟨f, hf⟩
  · rw [addRun_plain hs.plain]
    have hold : ∀ {id old}, s.runs.get? id = some old →
        (s.runs.set run.runId run).get? id = some old := by
      intro id old hold
      have hne : id ≠ run.runId := by
        rintro rfl
        rw [hfresh] at hold
        cases hold
      rw [Dict.get?_set_of_ne hne, hold]
    refine ⟨⟨hs.plain, fun id run' hrun' => ?_, fun id run' hrun' => ?_, fun id run' hrun' => ?_⟩,
      fun id old hget => ⟨old, hold hget, .refl old⟩⟩
    · by_cases hid : id = run.runId
      · subst hid
        rw [Dict.get?_set_self] at hrun'
        cases hrun'
        rw [hblank.openInvocations]
        exact List.nodup_nil
      · rw [Dict.get?_set_of_ne hid] at hrun'
        exact hs.opens id run' hrun'
    · by_cases hid : id = run.runId
      · subst hid
        rw [Dict.get?_set_self] at hrun'
        cases hrun'
        rfl
      · rw [Dict.get?_set_of_ne hid] at hrun'
        exact hs.named id run' hrun'
    · by_cases hid : id = run.runId
      · subst hid
        rw [Dict.get?_set_self] at hrun'
        cases hrun'
        rcases hscope with hself | ⟨root, hroot, hself⟩
        · exact ⟨run, by rw [hself]; exact Dict.get?_set_self _ _ _, rfl⟩
        · exact ⟨root, hold hroot, hself⟩
      · rw [Dict.get?_set_of_ne hid] at hrun'
        obtain ⟨root, hroot, hself⟩ := hs.rooted id run' hrun'
        exact ⟨root, hold hroot, hself⟩
  · exact ⟨hf.tree hs, hf.grows⟩

theorem trace_tree (h : Trace (Move host env P K) s log s') (hs : Tree s) : Tree s' ∧ Grows s s' := by
  induction h with
  | refl => exact ⟨hs, fun id run hrun => ⟨run, hrun, .refl run⟩⟩
  | tail _ hmove ih =>
    obtain ⟨htree, hgrows⟩ := ih
    obtain ⟨htree', hgrows'⟩ := hmove.tree htree
    refine ⟨htree', fun id run hrun => ?_⟩
    obtain ⟨run', hrun', hfixed⟩ := hgrows id run hrun
    obtain ⟨run'', hrun'', hfixed'⟩ := hgrows' id run' hrun'
    exact ⟨run'', hrun'', hfixed.trans hfixed'⟩

end

end Purra.RunStore
