import Purra.AgentTree.Contracts
import Purra.Lib.Action
import Purra.Lib.Loop
import Purra.Lib.Run

/-!
# The run tree in memory

`InMemoryRunTreeRepository` of `purra/agent_tree/memory.py`.  Every method runs under the
repository lock, so it is one `TreeAction` on the stored maps.  Nothing is rolled back when a
method raises; all but `complete_run` make their checks before they write.

Ids the caller passes are stripped by the lookups, so a method takes them as plain text.  A
method reads the clock once for a claim and again for what it computes: `clock k` is its `k`-th
reading.

* `namespace AgentTreeState` — what a method reads off the maps.  The three `while` loops
  follow parent links, or a worklist of children; a round is `Loop.loop`'s body.
* `namespace RunTree` — the public methods that write.
* `TreeOp`, `step` — one call of a method at its clock readings; a run is a list of them.
-/

namespace Purra

/-! ## State -/

/-- `AgentTreeState`. -/
structure AgentTreeState where
  agents : Dict String AgentNode := Dict.empty
  runs : Dict String AgentTreeRun := Dict.empty
  checkpoints : Dict String ContextCheckpoint := Dict.empty
  spawnReceipts : Dict (RequiredText × RequiredText) (String × SpawnAgentsReceipt) := Dict.empty
  continueReceipts : Dict (RequiredText × RequiredText) (String × ContinueAgentReceipt) :=
    Dict.empty
  rootDigests : Dict String String := Dict.empty
  sequence : Nat := 0
  agentSequence : Nat := 0
  runSequence : Nat := 0
  batchSequence : Nat := 0
  checkpointSequence : Nat := 0

/-- `f"agent-run-{n}"`. -/
def generatedRunId (n : Nat) : RequiredText := .numbered "agent-run-" (by simp [isSpace]) n

theorem generatedRunId_inj {m n : Nat} : generatedRunId m = generatedRunId n ↔ m = n :=
  RequiredText.numbered_inj

/-- `f"agent-{n}"`. -/
def generatedAgentId (n : Nat) : RequiredText := .numbered "agent-" (by simp [isSpace]) n

theorem generatedAgentId_inj {m n : Nat} : generatedAgentId m = generatedAgentId n ↔ m = n :=
  RequiredText.numbered_inj

/-- `f"agent-batch-{n}"`. -/
def generatedBatchId (n : Nat) : RequiredText := .numbered "agent-batch-" (by simp [isSpace]) n

/-- `f"context-{n}"`. -/
def generatedCheckpointId (n : Nat) : RequiredText := .numbered "context-" (by simp [isSpace]) n

namespace AgentTreeRun

/-- `_lease_expired_unlocked`. -/
def leaseExpired (run : AgentTreeRun) (now : Nat) : Bool :=
  run.status.live && match run.leaseExpiresAtMs with
    | none => false
    | some expiry => expiry ≤ now

/-- `_require_claim_unlocked`. -/
def requireClaim (run : AgentTreeRun) (now : Nat) (leaseOwnerId : Option String)
    (leaseEpoch : Option Int) : Except PyError Unit := do
  let owner := optionalText leaseOwnerId
  let epoch ← optionalNonNegativeInt leaseEpoch "Agent Run lease epoch"
  match run.leaseOwnerId with
  | none =>
    if owner = none ∧ epoch = none then .ok ()
    else .error (treeViolation "agent_run_lease_lost" "Agent Run has no matching lease")
  | some holder =>
    if owner ≠ some holder.text ∨ epoch ≠ some run.leaseEpoch ∨ run.leaseExpired now = true then
      .error (treeViolation "agent_run_lease_lost" "Agent Run lease is stale or expired")
    else .ok ()

/-- The status and lease under which `claim_run` takes a Run. -/
def reclaimable (run : AgentTreeRun) (now : Nat) : Bool :=
  (run.status = .running && match run.leaseExpiresAtMs with
    | none => false
    | some expiry => expiry ≤ now) ||
  (run.status = .waiting && run.leaseOwnerId = none && 0 < run.leaseEpoch)

/-- A Run of `root` that is RUNNING under a lease that has not expired, or under none. -/
def occupies (run : AgentTreeRun) (root : RequiredText) (now : Nat) : Bool :=
  run.rootRunId = root && run.status = .running && !run.leaseExpired now

end AgentTreeRun

namespace AgentTreeState

/-- `_require_agent`. -/
def requireAgent (state : AgentTreeState) (agentId : String) : Except PyError AgentNode := do
  let agent ← RequiredText.of agentId "Agent id"
  match state.agents.get? agent.text with
  | some node => .ok node
  | none => .error (treeViolation "agent_not_found" "Agent does not exist")

/-- `_require_active_agent`. -/
def requireActiveAgent (state : AgentTreeState) (agentId : String) : Except PyError AgentNode := do
  let agent ← state.requireAgent agentId
  if agent.state = .closed then .error (treeViolation "agent_closed" "Agent is closed")
  else .ok agent

/-- `_require_run`. -/
def requireRun (state : AgentTreeState) (runId : String) : Except PyError AgentTreeRun := do
  let run ← RequiredText.of runId "Agent Run id"
  match state.runs.get? run.text with
  | some record => .ok record
  | none => .error (treeViolation "child_run_not_found" "Agent Run does not exist")

/-- `_require_active_run`. -/
def requireActiveRun (state : AgentTreeState) (runId : String) : Except PyError AgentTreeRun := do
  let run ← state.requireRun runId
  if run.status.live then .ok run
  else .error (treeViolation "root_run_not_active" "Agent Run is not active")

/-- `_has_active_run`. -/
def hasActiveRun (state : AgentTreeState) (agentId : RequiredText) : Bool :=
  state.runs.values.any fun run => run.agentId = agentId && run.status.active

/-- One round of the loop of `_is_ancestor`. -/
def ancestorRound (state : AgentTreeState) (ancestorId : RequiredText) (current : AgentNode) :
    Except PyError (Bool ⊕ AgentNode) :=
  if current.agentId = ancestorId then .ok (.inl true)
  else match current.parentAgentId with
    | none => .ok (.inl false)
    | some parent => (state.requireAgent parent.text).map .inr

/-- `_is_ancestor`. -/
def isAncestor (state : AgentTreeState) (ancestorId descendantId : RequiredText) :
    Except (Fault PyError) Bool := do
  let current ← (state.requireAgent descendantId.text).mapError .raised
  loop (state.ancestorRound ancestorId) (state.agents.keys.length + 1) current

/-- One round of the loop of `_is_causal_descendant`. -/
def descendantRound (state : AgentTreeState) (parentRunId : RequiredText)
    (current : AgentTreeRun) : Except PyError (Bool ⊕ AgentTreeRun) :=
  match current.parentRunId with
  | none => .ok (.inl false)
  | some parent =>
    if parent = parentRunId then .ok (.inl true)
    else (state.requireRun parent.text).map .inr

/-- `_is_causal_descendant`. -/
def isCausalDescendant (state : AgentTreeState) (parentRunId runId : RequiredText) :
    Except (Fault PyError) Bool := do
  let current ← (state.requireRun runId.text).mapError .raised
  loop (state.descendantRound parentRunId) (state.runs.keys.length + 1) current

/-- The Agents that take part in a root Run. -/
def participating (state : AgentTreeState) (root : RequiredText) : List RequiredText :=
  Dict.fromKeys ((state.runs.values.filter (·.rootRunId = root)).map (·.agentId))

/-- Every dependency of the Run has ended. -/
def dependenciesEnded (state : AgentTreeState) (run : AgentTreeRun) : Except PyError Bool :=
  run.dependencyRunIds.allM fun dependency => do
    let record ← state.requireRun dependency.text
    return record.terminal

/-- The Runs created under `current` in the tree of `root`. -/
def childrenOf (state : AgentTreeState) (root current : RequiredText) : List RequiredText :=
  (state.runs.values.filter fun item =>
    item.rootRunId = root && item.parentRunId = some current).map (·.runId)

/-- One round of the worklist of `cancel_subtree`: `pending` with its top first, and the Runs
already ordered. -/
def subtreeRound (state : AgentTreeState) (root : RequiredText)
    (work : List RequiredText × List RequiredText) :
    Except PyError (List RequiredText ⊕ (List RequiredText × List RequiredText)) :=
  match work.1 with
  | [] => .ok (.inl work.2)
  | current :: pending =>
    .ok (.inr ((state.childrenOf root current).reverse ++ pending, work.2 ++ [current]))

/-- The order in which `cancel_subtree` visits a Run and everything below it.  Each of `n` Runs
has at most `n` children and the tree is at most `n` deep. -/
def subtree (state : AgentTreeState) (run : AgentTreeRun) :
    Except (Fault PyError) (List RequiredText) :=
  let n := state.runs.keys.length
  loop (state.subtreeRound run.rootRunId) ((n + 1) ^ (n + 1)) ([run.runId], [])

/-- `self._state.runs[run_id] = run`. -/
def putRun (state : AgentTreeState) (runId : String) (run : AgentTreeRun) : AgentTreeState :=
  { state with runs := state.runs.set runId run }

/-- `self._state.agents[agent.agent_id] = agent`. -/
def putAgent (state : AgentTreeState) (agent : AgentNode) : AgentTreeState :=
  { state with agents := state.agents.set agent.agentId.text agent }

end AgentTreeState

/-! ## Methods -/

/-- A method of the repository. -/
abbrev TreeAction := Action AgentTreeState (Fault PyError)

namespace RunTree

open Purra.Action

/-- A check of a method. -/
def check {α : Type} (x : Except PyError α) : TreeAction α := ofExcept (x.mapError .raised)

/-- Refuse when `c` holds. -/
def refuse (c : Prop) [Decidable c] (code message : String) : TreeAction Unit :=
  if c then raise (.raised (treeViolation code message)) else pure ()

section

variable (digest : Json → String) (clock : Nat → Nat)

/-- What the digest of a root command is taken of. -/
def rootMapping (command : BeginRootAgentCommand) : Json := .obj [
  ("agentId", .str command.agentId.text),
  ("name", .str command.name.text),
  ("title", .str command.title.text),
  ("instruction", .str command.instruction.text),
  ("objective", .str command.objective.text),
  ("capabilityGrant", command.capabilityGrant.toMapping),
  ("idempotencyKey", .str command.idempotencyKey.text)]

/-- The root Agent of a command that names a new one. -/
def newRootAgent (command : BeginRootAgentCommand) : AgentNode where
  agentId := command.agentId
  rootAgentId := command.agentId
  parentAgentId := none
  depth := 0
  createdByRunId := command.runId
  createdByCallId := command.idempotencyKey
  name := command.name
  title := command.title
  instruction := command.instruction
  capabilityGrant := command.capabilityGrant
  depth_eq_zero := Iff.intro (fun _ => rfl) (fun _ => rfl)

/-- The root Run of a command, started by `agent`. -/
def rootRun (command : BeginRootAgentCommand) (agent : AgentNode) (sequence : Nat) :
    AgentTreeRun where
  runId := command.runId
  agentId := agent.agentId
  rootRunId := command.runId
  parentRunId := none
  previousRunId := agent.latestRunId
  spawnBatchId := none
  objective := command.objective
  status := .running
  createdSequence := sequence

/-- An Agent that is there already may start a root Run: a root itself, open, under the same
grant, and idle. -/
def requireRebindable (state : AgentTreeState) (command : BeginRootAgentCommand)
    (agent : AgentNode) : Except PyError AgentNode :=
  if agent.parentAgentId ≠ none ∨ agent.state = .closed ∨
      agent.capabilityGrant ≠ command.capabilityGrant then
    .error (treeViolation "agent_scope_violation" "root Agent cannot be rebound")
  else if state.hasActiveRun agent.agentId then
    .error (treeViolation "agent_busy" "root Agent already has an active Run")
  else .ok agent

/-- The Agent a root command is about: the one with its id, or a new one. -/
def rootAgent (state : AgentTreeState) (command : BeginRootAgentCommand) :
    Except PyError AgentNode :=
  match state.agents.get? command.agentId.text with
  | none => .ok (newRootAgent command)
  | some agent => requireRebindable state command agent

/-- The state with a root Run and its Agent. -/
def putRoot (state : AgentTreeState) (mark : String) (agent : AgentNode) (run : AgentTreeRun) :
    AgentTreeState :=
  { state with
    sequence := state.sequence + 1
    runs := state.runs.set run.runId.text run
    rootDigests := state.rootDigests.set run.runId.text mark
    agents := state.agents.set agent.agentId.text { agent with latestRunId := some run.runId } }

/-- `begin_root`. -/
def beginRoot (command : BeginRootAgentCommand) : TreeAction AgentTreeRun := do
  let state ← read
  let mark := digest (rootMapping command)
  match state.runs.get? command.runId.text with
  | some existing => do
    refuse (state.rootDigests.get? command.runId.text ≠ some mark)
      "child_spawn_idempotency_conflict" "root Run id was reused with different input"
    pure existing
  | none => do
    let agent ← check (rootAgent state command)
    let run := rootRun command agent (state.sequence + 1)
    write fun state => putRoot state mark agent run
    pure run

/-- `dependency_ids[name]`.  Names are unique in a command, so the entry of a name is the Run at its
index. -/
def dependencyId (command : SpawnAgentsCommand) (runSequence : Nat) (name : RequiredText) :
    RequiredText :=
  generatedRunId (runSequence + (command.children.map (·.name)).idxOf name + 1)

theorem dependencyId_inj {command : SpawnAgentsCommand} {runSequence : Nat} {x y : RequiredText}
    (hx : x ∈ command.children.map (·.name))
    (h : dependencyId command runSequence x = dependencyId command runSequence y) : x = y := by
  have hindex := generatedRunId_inj.1 h
  exact (List.idxOf_inj hx).1 (by omega)

/-- The Runs a child depends on. -/
def dependencyRunIds (command : SpawnAgentsCommand) (runSequence : Nat) (spec : ChildAgentSpec) :
    List RequiredText :=
  spec.dependsOn.map (dependencyId command runSequence)

theorem dependencyRunIds_nodup {command : SpawnAgentsCommand} (runSequence : Nat)
    {spec : ChildAgentSpec} (hspec : spec ∈ command.children) :
    (dependencyRunIds command runSequence spec).Nodup := by
  refine List.Nodup.map_on (fun x hx y _ heq => ?_) spec.dependsOn_nodup
  exact dependencyId_inj (command.dependencies_known spec hspec hx) heq

/-- The Agent and the Run that one child of a command becomes. -/
def spawnedItem (state : AgentTreeState) (command : SpawnAgentsCommand) (parent : AgentNode)
    (parentRun : AgentTreeRun) (spec : ChildAgentSpec) (hspec : spec ∈ command.children)
    (grant : AgentCapabilityGrant) (index : Nat) : SpawnedAgent where
  agent := {
    agentId := generatedAgentId (state.agentSequence + index + 1)
    rootAgentId := parent.rootAgentId
    parentAgentId := some parent.agentId
    depth := parent.depth + 1
    createdByRunId := parentRun.runId
    createdByCallId := command.idempotencyKey
    name := spec.name
    title := spec.title
    instruction := spec.instruction
    capabilityGrant := grant
    latestRunId := some (generatedRunId (state.runSequence + index + 1))
    depth_eq_zero := Iff.intro nofun nofun }
  run := {
    runId := generatedRunId (state.runSequence + index + 1)
    agentId := generatedAgentId (state.agentSequence + index + 1)
    rootRunId := parentRun.rootRunId
    parentRunId := some parentRun.runId
    previousRunId := none
    spawnBatchId := some (generatedBatchId (state.batchSequence + 1))
    objective := spec.objective
    inputPayload := spec.inputPayload
    required := spec.required
    priority := spec.priority
    dependencyRunIds := dependencyRunIds command state.runSequence spec
    createdSequence := state.sequence + index + 1
    dependencies_nodup := dependencyRunIds_nodup state.runSequence hspec }

/-- The Agents and Runs a command creates, in the order of its children. -/
def spawnedItems (state : AgentTreeState) (command : SpawnAgentsCommand) (parent : AgentNode)
    (parentRun : AgentTreeRun) (grants : List AgentCapabilityGrant) : List SpawnedAgent :=
  (command.children.attach.zip grants).mapIdx fun index child =>
    spawnedItem state command parent parentRun child.1.1 child.1.2 child.2 index

/-- The state with the items of a spawn and its receipt. -/
def putSpawned (state : AgentTreeState) (key : RequiredText × RequiredText) (mark : String)
    (items : List SpawnedAgent) (receipt : SpawnAgentsReceipt) : AgentTreeState :=
  { state with
    agents := state.agents.extend (items.map fun item => (item.agent.agentId.text, item.agent))
    runs := state.runs.extend (items.map fun item => (item.run.runId.text, item.run))
    spawnReceipts := state.spawnReceipts.set key (mark, receipt)
    sequence := state.sequence + items.length
    agentSequence := state.agentSequence + items.length
    runSequence := state.runSequence + items.length
    batchSequence := state.batchSequence + 1 }

/-- `spawn_agents`. -/
def spawnAgents (command : SpawnAgentsCommand) : TreeAction SpawnAgentsReceipt := do
  let state ← read
  let mark := digest (.obj [("children", .arr (command.children.map (·.toMapping)))])
  let key := (command.parentRunId, command.idempotencyKey)
  match state.spawnReceipts.get? key with
  | some replay => do
    refuse (replay.1 ≠ mark) "child_spawn_idempotency_conflict"
      "spawn key was reused with different input"
    pure { replay.2 with replayed := true }
  | none => do
    let parentRun ← check (state.requireActiveRun command.parentRunId.text)
    check (parentRun.requireClaim (clock 0) (command.leaseOwnerId.map (·.text))
      (command.leaseEpoch.map Nat.cast))
    let parent ← check (state.requireActiveAgent parentRun.agentId.text)
    let grant := parent.capabilityGrant
    refuse (¬ grant.canSpawnAgents) "agent_capability_escalation" "Agent cannot create children"
    refuse (grant.maxDepth ≤ parent.depth) "agent_depth_exceeded" "maximum Agent depth was reached"
    refuse (grant.maxChildrenPerCall < command.children.length) "agent_capacity_exceeded"
      "too many children in one call"
    refuse (grant.maxAgentsPerRoot <
        (state.participating parentRun.rootRunId).length + command.children.length)
      "agent_capacity_exceeded" "Root Agent capacity was exceeded"
    let grants ← check (command.children.mapM fun spec => grant.authorizeChild spec.capabilityGrant)
    let items := spawnedItems state command parent parentRun grants
    let receipt : SpawnAgentsReceipt :=
      { batchId := generatedBatchId (state.batchSequence + 1), items }
    write fun state => putSpawned state key mark items receipt
    pure receipt

/-- What the digest of a continuation is taken of. -/
def continuationMapping (command : ContinueAgentCommand) : Json := .obj [
  ("agentId", .str command.agentId.text),
  ("contextVersion", .int command.expectedContextVersion),
  ("message", .str command.message.text),
  ("required", .bool command.required),
  ("priority", .int command.priority)]

/-- The next Run of an Agent that is continued. -/
def continuedRun (state : AgentTreeState) (command : ContinueAgentCommand)
    (requester : AgentTreeRun) (target : AgentNode) : AgentTreeRun where
  runId := generatedRunId (state.runSequence + 1)
  agentId := target.agentId
  rootRunId := requester.rootRunId
  parentRunId := some requester.runId
  previousRunId := target.latestRunId
  spawnBatchId := none
  objective := command.message
  required := command.required
  priority := command.priority
  createdSequence := state.sequence + 1

/-- The state with the next Run of an Agent and the receipt of its continuation. -/
def putContinued (state : AgentTreeState) (key : RequiredText × RequiredText) (mark : String)
    (agent : AgentNode) (run : AgentTreeRun) (receipt : ContinueAgentReceipt) : AgentTreeState :=
  { state with
    agents := state.agents.set agent.agentId.text agent
    runs := state.runs.set run.runId.text run
    continueReceipts := state.continueReceipts.set key (mark, receipt)
    sequence := state.sequence + 1
    runSequence := state.runSequence + 1 }

/-- `continue_agent`. -/
def continueAgent (command : ContinueAgentCommand) : TreeAction ContinueAgentReceipt := do
  let state ← read
  let mark := digest (continuationMapping command)
  let key := (command.requesterRunId, command.idempotencyKey)
  match state.continueReceipts.get? key with
  | some replay => do
    refuse (replay.1 ≠ mark) "child_spawn_idempotency_conflict"
      "continuation key was reused with different input"
    pure { replay.2 with replayed := true }
  | none => do
    let requester ← check (state.requireActiveRun command.requesterRunId.text)
    check (requester.requireClaim (clock 0) (command.leaseOwnerId.map (·.text))
      (command.leaseEpoch.map Nat.cast))
    let target ← check (state.requireActiveAgent command.agentId.text)
    let requesterAgent ← check (state.requireActiveAgent requester.agentId.text)
    refuse (requesterAgent.rootAgentId ≠ target.rootAgentId) "agent_scope_violation"
      "continued Agent belongs to another tree"
    let above ← ofExcept (state.isAncestor requesterAgent.agentId target.agentId)
    refuse (¬ above) "agent_scope_violation" "requester is not an Agent ancestor"
    refuse (target.contextVersion ≠ command.expectedContextVersion) "agent_context_conflict"
      "Agent context version changed"
    refuse (state.hasActiveRun target.agentId) "agent_busy" "Agent already has an active Run"
    let root ← check (state.requireActiveAgent requesterAgent.rootAgentId.text)
    refuse (target.agentId ∉ state.participating requester.rootRunId ∧
        root.capabilityGrant.maxAgentsPerRoot ≤ (state.participating requester.rootRunId).length)
      "agent_capacity_exceeded" "Root Agent capacity was exceeded"
    let run := continuedRun state command requester target
    let agent := { target with latestRunId := some run.runId }
    let receipt : ContinueAgentReceipt := { agent, run }
    write fun state => putContinued state key mark agent run receipt
    pure receipt

/-- `claim_run`: `none` when the Run cannot be taken now. -/
def claimRun (runId ownerId : String) (leaseDurationMs : Int) :
    TreeAction (Option AgentTreeRun) := do
  let owner ← check (RequiredText.of ownerId "Agent Run lease owner")
  let duration ← check (positiveInt leaseDurationMs "Agent Run lease duration")
  let state ← read
  let run ← check (state.requireRun runId)
  let now := clock 0
  if run.status ≠ .queued ∧ run.reclaimable now = false then pure none
  else do
    let ready ← check (state.dependenciesEnded run)
    if ready = false then pure none
    else do
      let rootRun ← check (state.requireRun run.rootRunId.text)
      let root ← check (state.requireActiveAgent rootRun.agentId.text)
      let active := state.runs.values.countP (·.occupies run.rootRunId now)
      if root.capabilityGrant.maxParallelRuns ≤ active then pure none
      else do
        let claimed := run.claimedBy owner (now + duration)
        write (·.putRun run.runId.text claimed)
        pure (some claimed)

/-- `suspend_run`.  The Run is stored under the id it was asked for. -/
def suspendRun (runId : String) (leaseOwnerId : Option String) (leaseEpoch : Option Int) :
    TreeAction AgentTreeRun := do
  let state ← read
  let run ← check (state.requireRun runId)
  check (run.requireClaim (clock 0) leaseOwnerId leaseEpoch)
  write (·.putRun runId run.suspended)
  pure run.suspended

/-- `renew_run_lease`. -/
def renewRunLease (runId ownerId : String) (leaseEpoch leaseDurationMs : Int) :
    TreeAction AgentTreeRun := do
  let owner ← check (RequiredText.of ownerId "Agent Run lease owner")
  let epoch ← check (nonNegativeInt leaseEpoch "Agent Run lease epoch")
  let duration ← check (positiveInt leaseDurationMs "Agent Run lease duration")
  let state ← read
  let run ← check (state.requireActiveRun runId)
  check (run.requireClaim (clock 0) (some owner.text) (some epoch))
  let renewed ← check (run.renewed (clock 1 + duration))
  write (·.putRun run.runId.text renewed)
  pure renewed

/-- `mark_waiting`. -/
def markWaiting (runId : String) (leaseOwnerId : Option String) (leaseEpoch : Option Int) :
    TreeAction AgentTreeRun := do
  let state ← read
  let run ← check (state.requireRun runId)
  refuse (run.status ≠ .running) "agent_run_state_conflict" "Agent Run state changed"
  check (run.requireClaim (clock 0) leaseOwnerId leaseEpoch)
  write (·.putRun run.runId.text run.waiting)
  pure run.waiting

/-- The Runs that take up a slot of `root`, each at a clock reading of its own. -/
def occupied (state : AgentTreeState) (root : RequiredText) : Nat :=
  state.runs.values.zipIdx.countP fun item => item.1.occupies root (clock (item.2 + 1))

/-- `release_waiting`. -/
def releaseWaiting (runId : String) (leaseOwnerId : Option String) (leaseEpoch : Option Int) :
    TreeAction AgentTreeRun := do
  let state ← read
  let run ← check (state.requireRun runId)
  refuse (run.status ≠ .waiting) "agent_run_state_conflict" "Agent Run state changed"
  check (run.requireClaim (clock 0) leaseOwnerId leaseEpoch)
  let rootRun ← check (state.requireRun run.rootRunId.text)
  let root ← check (state.requireActiveAgent rootRun.agentId.text)
  refuse (root.capabilityGrant.maxParallelRuns ≤ occupied clock state run.rootRunId)
    "agent_capacity_exceeded" "no root execution slot is available"
  write (·.putRun run.runId.text run.resumed)
  pure run.resumed

/-- A Run of the same root below `run` has not ended. -/
def hasUnfinishedChildren (state : AgentTreeState) (run : AgentTreeRun) :
    Except (Fault PyError) Bool :=
  (state.runs.values.filter (·.rootRunId = run.rootRunId)).anyM fun item =>
    if item.terminal then pure false else state.isCausalDescendant run.runId item.runId

/-- The state with the checkpoint of a completed Run. -/
def putCompleted (state : AgentTreeState) (agent : AgentNode) (checkpoint : ContextCheckpoint)
    (completed : AgentTreeRun) : AgentTreeState :=
  { state with
    runs := state.runs.set completed.runId.text completed
    checkpoints := state.checkpoints.set checkpoint.checkpointId.text checkpoint
    agents := state.agents.set agent.agentId.text { agent with
      contextVersion := checkpoint.version
      contextCheckpointId := some checkpoint.checkpointId } }

/-- `complete_run`.  The checkpoint's number is taken before its texts are checked. -/
def completeRun (runId : String) (expectedContextVersion : Int) (result : Json)
    (contentRef fingerprint : String) (leaseOwnerId : Option String) (leaseEpoch : Option Int) :
    TreeAction AgentTreeRun := do
  let state ← read
  let run ← check (state.requireRun runId)
  refuse (run.status ≠ .running) "agent_run_state_conflict" "only a running Run may complete"
  check (run.requireClaim (clock 0) leaseOwnerId leaseEpoch)
  let unfinished ← ofExcept (hasUnfinishedChildren state run)
  refuse unfinished "root_run_not_quiescent" "Run has unfinished children"
  let agent ← check (state.requireActiveAgent run.agentId.text)
  refuse ((agent.contextVersion : Int) ≠ expectedContextVersion) "agent_context_conflict"
    "Agent context version changed"
  write fun state => { state with checkpointSequence := state.checkpointSequence + 1 }
  let content ← check (RequiredText.of contentRef "context checkpoint content reference")
  let mark ← check (RequiredText.of fingerprint "context checkpoint fingerprint")
  let checkpoint : ContextCheckpoint := {
    checkpointId := generatedCheckpointId (state.checkpointSequence + 1)
    agentId := agent.agentId
    version := agent.contextVersion + 1
    previousCheckpointId := agent.contextCheckpointId
    sourceRunId := run.runId
    contentRef := content
    fingerprint := mark
    version_pos := Nat.succ_pos _ }
  let completed ← check (run.completed result)
  write fun state => putCompleted state agent checkpoint completed
  pure completed

/-- `"ancestor_run_failed"`. -/
def ancestorRunFailed : RequiredText := ⟨"ancestor_run_failed", by decide, by decide⟩

/-- `"agent_run_canceled"`. -/
def agentRunCanceled : RequiredText := ⟨"agent_run_canceled", by decide, by decide⟩

/-- The Runs below `run` that have not ended. -/
def activeDescendants (state : AgentTreeState) (run : AgentTreeRun) :
    Except (Fault PyError) (List AgentTreeRun) :=
  state.runs.values.filterM fun item =>
    if item.status.active then state.isCausalDescendant run.runId item.runId else pure false

/-- One turn of the loop in which `fail_run` cancels what is below `parent`.  The walk up from an
item has been made by `activeDescendants` before, so it returns. -/
def cancelDescendant (parent : RequiredText) (state : AgentTreeState) (key : String) :
    AgentTreeState :=
  match state.runs.get? key with
  | none => state
  | some item =>
    if item.status.active ∧ state.isCausalDescendant parent item.runId = .ok true then
      state.putRun item.runId.text (item.canceledWith ancestorRunFailed)
    else state

/-- `fail_run`. -/
def failRun (runId errorCode : String) (leaseOwnerId : Option String) (leaseEpoch : Option Int) :
    TreeAction AgentTreeRun := do
  let error ← check (RequiredText.of errorCode "Agent Run error code")
  let state ← read
  let run ← check (state.requireRun runId)
  if run.status.active = false then pure run
  else do
    check (run.requireClaim (clock 0) leaseOwnerId leaseEpoch)
    let _ ← ofExcept (activeDescendants state run)
    let failed := run.failedWith error
    write fun state =>
      state.runs.keys.foldl (cancelDescendant run.runId) (state.putRun run.runId.text failed)
    pure failed

/-- One turn of the loop in which `cancel_subtree` cancels the Runs it has ordered. -/
def cancelOrdered (state : AgentTreeState) (current : RequiredText) : AgentTreeState :=
  match state.runs.get? current.text with
  | none => state
  | some run =>
    if run.status.active then state.putRun current.text (run.canceledWith agentRunCanceled)
    else state

/-- `cancel_subtree`: the ids of the Runs it canceled, each once. -/
def cancelSubtree (runId : String) : TreeAction (List RequiredText) := do
  let state ← read
  let root ← check (state.requireRun runId)
  let ordered ← ofExcept (state.subtree root)
  let active (current : RequiredText) : Bool :=
    match state.runs.get? current.text with
    | none => false
    | some run => run.status.active
  write fun state => ordered.foldl cancelOrdered state
  pure (Dict.fromKeys (ordered.filter active))

/-- `close_agent`. -/
def closeAgent (agentId : String) : TreeAction AgentNode := do
  let state ← read
  let agent ← check (state.requireActiveAgent agentId)
  refuse (state.hasActiveRun agent.agentId) "agent_busy" "Agent has an active Run"
  let closed := { agent with state := .closed }
  write (·.putAgent closed)
  pure closed

/-- The Runs `list_runnable` selects, before they are sorted. -/
def runnable (state : AgentTreeState) (root : RequiredText) (now : Nat) :
    Except PyError (List AgentTreeRun) :=
  state.runs.values.filterM fun run =>
    if run.rootRunId = root then do
      let ready ← state.dependenciesEnded run
      return ready && (run.status = .queued ||
        (run.status = .waiting && run.leaseOwnerId = none && 0 < run.leaseEpoch) ||
          (run.status = .running && run.leaseExpired now))
    else pure false

/-- `list_runnable`: the highest priority first, and the oldest first among equals. -/
def listRunnable (rootRunId : String) (state : AgentTreeState) :
    Except PyError (List AgentTreeRun) := do
  let root ← RequiredText.of rootRunId "root Run id"
  let runs ← runnable state root (clock 0)
  return runs.mergeSort fun a b =>
    b.priority < a.priority || (a.priority = b.priority && a.createdSequence ≤ b.createdSequence)

end

end RunTree

/-! ## Runs of the repository -/

/-- One call of a public method that writes. -/
inductive TreeOp where
  | beginRoot (command : BeginRootAgentCommand)
  | spawnAgents (command : SpawnAgentsCommand)
  | continueAgent (command : ContinueAgentCommand)
  | claimRun (runId ownerId : String) (leaseDurationMs : Int)
  | suspendRun (runId : String) (leaseOwnerId : Option String) (leaseEpoch : Option Int)
  | renewRunLease (runId ownerId : String) (leaseEpoch leaseDurationMs : Int)
  | markWaiting (runId : String) (leaseOwnerId : Option String) (leaseEpoch : Option Int)
  | releaseWaiting (runId : String) (leaseOwnerId : Option String) (leaseEpoch : Option Int)
  | completeRun (runId : String) (expectedContextVersion : Int) (result : Json)
      (contentRef fingerprint : String) (leaseOwnerId : Option String) (leaseEpoch : Option Int)
  | failRun (runId errorCode : String) (leaseOwnerId : Option String) (leaseEpoch : Option Int)
  | cancelSubtree (runId : String)
  | closeAgent (agentId : String)

namespace AgentTreeState

open RunTree

/-- The state one call leaves, whether it returns or raises. -/
def apply (digest : Json → String) (clock : Nat → Nat) (state : AgentTreeState) :
    TreeOp → AgentTreeState
  | .beginRoot command => (beginRoot digest command).final state
  | .spawnAgents command => (spawnAgents digest clock command).final state
  | .continueAgent command => (continueAgent digest clock command).final state
  | .claimRun runId ownerId duration => (claimRun clock runId ownerId duration).final state
  | .suspendRun runId owner epoch => (suspendRun clock runId owner epoch).final state
  | .renewRunLease runId owner epoch duration =>
    (renewRunLease clock runId owner epoch duration).final state
  | .markWaiting runId owner epoch => (markWaiting clock runId owner epoch).final state
  | .releaseWaiting runId owner epoch => (releaseWaiting clock runId owner epoch).final state
  | .completeRun runId version result contentRef fingerprint owner epoch =>
    (completeRun clock runId version result contentRef fingerprint owner epoch).final state
  | .failRun runId errorCode owner epoch => (failRun clock runId errorCode owner epoch).final state
  | .cancelSubtree runId => (cancelSubtree runId).final state
  | .closeAgent agentId => (closeAgent agentId).final state

/-- One event: a call at its clock readings. -/
def step (digest : Json → String) (state : AgentTreeState) (event : (Nat → Nat) × TreeOp) :
    AgentTreeState :=
  state.apply digest event.1 event.2

/-- An empty repository that counts its Run ids on from `initialRunSequence`. -/
def initial (initialRunSequence : Nat) : AgentTreeState := { runSequence := initialRunSequence }

end AgentTreeState

end Purra
