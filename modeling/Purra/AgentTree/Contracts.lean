import Purra.Core.JsonValues
import Purra.Core.Text
import Purra.Lib.Topology

/-!
# Agent tree contracts

The value types of `purra/agent_tree/contracts.py`: stable Agent identities, the
immutable chain of Runs each Agent goes through, and the commands that grow the tree.

A dataclass re-checks its fields whenever it is built, also by `replace`.  Checks that
the repository relies on are fields here, so a Run with half a lease or a failure
without an error code cannot be built; where `replace` can fail, it is a function that
returns the error.

* `AgentCapabilityGrant.authorizeChild` — what a parent may hand to a child;
  `authorizeChild_eq_ok` says it is `Narrows`, a preorder.
* `AgentTreeRun` and its updates — one function for each `replace` of the repository.
* `SpawnAgentsCommand` — the children of one call, with unique names and acyclic
  dependencies among themselves.
-/

namespace Purra

/-- `_raise`. -/
def treeViolation (code message : String) : PyError := .contractViolation message code []

/-- `AgentNodeState`. -/
inductive AgentNodeState where
  | active | closed
  deriving DecidableEq, Repr

/-- `AgentTreeRunStatus`. -/
inductive AgentTreeRunStatus where
  | queued | running | waiting | done | failed | canceled
  deriving DecidableEq, Repr

namespace AgentTreeRunStatus

/-- `_ACTIVE_RUN_STATUSES`. -/
def active : AgentTreeRunStatus → Bool
  | .queued | .running | .waiting => true
  | .done | .failed | .canceled => false

/-- `_TERMINAL_RUN_STATUSES`. -/
def terminal : AgentTreeRunStatus → Bool
  | .queued | .running | .waiting => false
  | .done | .failed | .canceled => true

/-- The statuses whose lease can expire, and under which a Run may ask for children. -/
def live : AgentTreeRunStatus → Bool
  | .running | .waiting => true
  | .queued | .done | .failed | .canceled => false

@[simp] theorem terminal_eq (status : AgentTreeRunStatus) : status.terminal = !status.active := by
  cases status <;> rfl

theorem active_of_live {status : AgentTreeRunStatus} (h : status.live = true) :
    status.active = true := by
  cases status <;> first | rfl | cases h

end AgentTreeRunStatus

/-! ## Grants -/

/-- `AgentCapabilityGrant`: authority that a parent may only preserve or narrow for a child. -/
structure AgentCapabilityGrant where
  canSpawnAgents : Bool
  maxDepth : Nat
  maxChildrenPerCall : Nat
  maxAgentsPerRoot : Nat
  maxParallelRuns : Nat
  allowedTools : List String
  allowedModels : List String
  maxDepth_pos : 0 < maxDepth
  maxChildrenPerCall_pos : 0 < maxChildrenPerCall
  maxAgentsPerRoot_pos : 0 < maxAgentsPerRoot
  maxParallelRuns_pos : 0 < maxParallelRuns
  deriving DecidableEq, Repr

namespace AgentCapabilityGrant

/-- The numeric limits, in the order they are compared. -/
def limits (grant : AgentCapabilityGrant) : List (String × Nat) :=
  [("max_depth", grant.maxDepth), ("max_children_per_call", grant.maxChildrenPerCall),
    ("max_agents_per_root", grant.maxAgentsPerRoot), ("max_parallel_runs", grant.maxParallelRuns)]

/-- The first limit in which `child` exceeds `parent`. -/
def exceeded (child parent : AgentCapabilityGrant) : Option String :=
  ((child.limits.zip parent.limits).find? fun p => p.2.2 < p.1.2).map (·.1.1)

/-- A request for more than the parent has. -/
def escalation (message : String) : Except PyError AgentCapabilityGrant :=
  .error (treeViolation "agent_capability_escalation" message)

/-- The checks of `authorize_child` on the grant it is about. -/
def checkChild (self child : AgentCapabilityGrant) : Except PyError AgentCapabilityGrant :=
  if child.canSpawnAgents ∧ ¬ self.canSpawnAgents then
    escalation "child cannot gain spawn authority"
  else match exceeded child self with
    | some name => escalation ("child cannot increase " ++ name)
    | none =>
      if child.allowedTools.any (· ∉ self.allowedTools) then escalation "child cannot gain tools"
      else if child.allowedModels.any (· ∉ self.allowedModels) then
        escalation "child cannot gain models"
      else .ok child

/-- `authorize_child`. -/
def authorizeChild (self : AgentCapabilityGrant) (requested : Option AgentCapabilityGrant) :
    Except PyError AgentCapabilityGrant :=
  self.checkChild (requested.getD self)

/-- The child's authority is no wider than the parent's. -/
structure Narrows (child parent : AgentCapabilityGrant) : Prop where
  canSpawnAgents : child.canSpawnAgents = true → parent.canSpawnAgents = true
  maxDepth : child.maxDepth ≤ parent.maxDepth
  maxChildrenPerCall : child.maxChildrenPerCall ≤ parent.maxChildrenPerCall
  maxAgentsPerRoot : child.maxAgentsPerRoot ≤ parent.maxAgentsPerRoot
  maxParallelRuns : child.maxParallelRuns ≤ parent.maxParallelRuns
  allowedTools : child.allowedTools ⊆ parent.allowedTools
  allowedModels : child.allowedModels ⊆ parent.allowedModels

theorem Narrows.refl (grant : AgentCapabilityGrant) : Narrows grant grant :=
  ⟨id, le_rfl, le_rfl, le_rfl, le_rfl, List.Subset.refl _, List.Subset.refl _⟩

theorem Narrows.trans {a b c : AgentCapabilityGrant} (h : Narrows a b) (h' : Narrows b c) :
    Narrows a c where
  canSpawnAgents := h'.canSpawnAgents ∘ h.canSpawnAgents
  maxDepth := h.maxDepth.trans h'.maxDepth
  maxChildrenPerCall := h.maxChildrenPerCall.trans h'.maxChildrenPerCall
  maxAgentsPerRoot := h.maxAgentsPerRoot.trans h'.maxAgentsPerRoot
  maxParallelRuns := h.maxParallelRuns.trans h'.maxParallelRuns
  allowedTools := List.Subset.trans h.allowedTools h'.allowedTools
  allowedModels := List.Subset.trans h.allowedModels h'.allowedModels

theorem exceeded_eq_none {child parent : AgentCapabilityGrant} :
    exceeded child parent = none ↔
      child.maxDepth ≤ parent.maxDepth ∧ child.maxChildrenPerCall ≤ parent.maxChildrenPerCall ∧
        child.maxAgentsPerRoot ≤ parent.maxAgentsPerRoot ∧
          child.maxParallelRuns ≤ parent.maxParallelRuns := by
  simp [exceeded, limits]

theorem checkChild_eq_ok {self child granted : AgentCapabilityGrant}
    (h : self.checkChild child = .ok granted) : granted = child ∧ Narrows child self := by
  unfold checkChild at h
  split at h
  · cases h
  rename_i hspawn
  cases hlimit : exceeded child self with
  | some name =>
    simp only [hlimit] at h
    cases h
  | none =>
    simp only [hlimit] at h
    split at h
    · cases h
    rename_i htools
    split at h
    · cases h
    rename_i hmodels
    cases h
    obtain ⟨hdepth, hchildren, hagents, hruns⟩ := exceeded_eq_none.1 hlimit
    refine ⟨rfl, ⟨fun hc => ?_, hdepth, hchildren, hagents, hruns, ?_, ?_⟩⟩
    · by_contra hself
      exact hspawn ⟨hc, hself⟩
    · have hall : ∀ x ∈ child.allowedTools, x ∈ self.allowedTools := by simpa using htools
      exact fun _ hx => hall _ hx
    · have hall : ∀ x ∈ child.allowedModels, x ∈ self.allowedModels := by simpa using hmodels
      exact fun _ hx => hall _ hx

theorem authorizeChild_eq_ok {self granted : AgentCapabilityGrant}
    {requested : Option AgentCapabilityGrant} (h : self.authorizeChild requested = .ok granted) :
    granted = requested.getD self ∧ Narrows granted self := by
  obtain ⟨rfl, hnarrows⟩ := checkChild_eq_ok h
  exact ⟨rfl, hnarrows⟩

/-- `to_mapping`. -/
def toMapping (grant : AgentCapabilityGrant) : Json := .obj [
  ("canSpawnAgents", .bool grant.canSpawnAgents),
  ("maxDepth", .int grant.maxDepth),
  ("maxChildrenPerCall", .int grant.maxChildrenPerCall),
  ("maxAgentsPerRoot", .int grant.maxAgentsPerRoot),
  ("maxParallelRuns", .int grant.maxParallelRuns),
  ("allowedTools", .arr (grant.allowedTools.map .str)),
  ("allowedModels", .arr (grant.allowedModels.map .str))]

end AgentCapabilityGrant

/-! ## Agents -/

/-- `AgentNode`. -/
structure AgentNode where
  agentId : RequiredText
  rootAgentId : RequiredText
  parentAgentId : Option RequiredText
  depth : Nat
  createdByRunId : RequiredText
  createdByCallId : RequiredText
  name : RequiredText
  title : RequiredText
  instruction : RequiredText
  capabilityGrant : AgentCapabilityGrant
  contextVersion : Nat := 0
  contextCheckpointId : Option RequiredText := none
  latestRunId : Option RequiredText := none
  state : AgentNodeState := .active
  /-- Only a root Agent has depth zero. -/
  depth_eq_zero : parentAgentId = none ↔ depth = 0
  deriving DecidableEq, Repr

/-! ## Runs -/

/-- A Run without a lease has neither of its parts. -/
theorem unleased : (none : Option RequiredText) = none ↔ (none : Option Nat) = none :=
  Iff.intro (fun _ => rfl) (fun _ => rfl)

/-- `AgentTreeRun`. -/
structure AgentTreeRun where
  runId : RequiredText
  agentId : RequiredText
  rootRunId : RequiredText
  parentRunId : Option RequiredText
  previousRunId : Option RequiredText
  spawnBatchId : Option RequiredText
  objective : RequiredText
  inputPayload : Json.Object := []
  required : Bool := true
  priority : Int := 0
  status : AgentTreeRunStatus := .queued
  result : Json := .null
  errorCode : Option RequiredText := none
  createdSequence : Nat := 0
  leaseOwnerId : Option RequiredText := none
  leaseEpoch : Nat := 0
  leaseExpiresAtMs : Option Nat := none
  dependencyRunIds : List RequiredText := []
  /-- Dependencies are unique. -/
  dependencies_nodup : dependencyRunIds.Nodup := by exact List.nodup_nil
  /-- A completed Run carries no error. -/
  done_error : status = .done → errorCode = none := by exact fun h => nomatch h
  /-- A failed or canceled Run carries one. -/
  ended_error : status = .failed ∨ status = .canceled → errorCode ≠ none := by
    exact fun h => h.elim (fun h => nomatch h) (fun h => nomatch h)
  /-- A lease has an owner and an expiry, or neither. -/
  lease_paired : leaseOwnerId = none ↔ leaseExpiresAtMs = none := by exact unleased

namespace AgentTreeRun

/-- `terminal`. -/
def terminal (run : AgentTreeRun) : Bool := run.status.terminal

/-- `replace(run, status=RUNNING, lease_owner_id=…, lease_epoch=…, lease_expires_at_ms=…)`. -/
def claimedBy (run : AgentTreeRun) (owner : RequiredText) (expiresAtMs : Nat) : AgentTreeRun :=
  { run with
    status := .running
    leaseOwnerId := some owner
    leaseEpoch := run.leaseEpoch + 1
    leaseExpiresAtMs := some expiresAtMs
    done_error := nofun
    ended_error := nofun
    lease_paired := ⟨nofun, nofun⟩ }

/-- `replace(run, status=WAITING, lease_owner_id=None, lease_expires_at_ms=None)`. -/
def suspended (run : AgentTreeRun) : AgentTreeRun :=
  { run with
    status := .waiting
    leaseOwnerId := none
    leaseExpiresAtMs := none
    done_error := nofun
    ended_error := nofun
    lease_paired := unleased }

/-- `replace(run, lease_expires_at_ms=…)`: an expiry alone is not a lease. -/
def renewed (run : AgentTreeRun) (expiresAtMs : Nat) : Except PyError AgentTreeRun :=
  if h : run.leaseOwnerId = none then
    .error (.valueError "Agent Run lease owner and expiry must match")
  else .ok { run with leaseExpiresAtMs := some expiresAtMs, lease_paired := ⟨(absurd · h), nofun⟩ }

/-- `replace(run, status=WAITING)`. -/
def waiting (run : AgentTreeRun) : AgentTreeRun :=
  { run with status := .waiting, done_error := nofun, ended_error := nofun }

/-- `replace(run, status=RUNNING)`. -/
def resumed (run : AgentTreeRun) : AgentTreeRun :=
  { run with status := .running, done_error := nofun, ended_error := nofun }

/-- `replace(run, status=DONE, result=…, lease_owner_id=None, lease_expires_at_ms=None)`. -/
def completed (run : AgentTreeRun) (result : Json) : Except PyError AgentTreeRun :=
  if h : run.errorCode = none then
    .ok { run with
      status := .done
      result
      leaseOwnerId := none
      leaseExpiresAtMs := none
      done_error := fun _ => h
      ended_error := nofun
      lease_paired := unleased }
  else .error (.valueError "completed Agent Run cannot carry an error")

/-- `replace(run, status=FAILED, error_code=…, lease_owner_id=None, lease_expires_at_ms=None)`. -/
def failedWith (run : AgentTreeRun) (error : RequiredText) : AgentTreeRun :=
  { run with
    status := .failed
    errorCode := some error
    leaseOwnerId := none
    leaseExpiresAtMs := none
    done_error := nofun
    ended_error := fun _ => nofun
    lease_paired := unleased }

/-- `replace(run, status=CANCELED, error_code=…, lease_owner_id=None, lease_expires_at_ms=None)`. -/
def canceledWith (run : AgentTreeRun) (error : RequiredText) : AgentTreeRun :=
  { run with
    status := .canceled
    errorCode := some error
    leaseOwnerId := none
    leaseExpiresAtMs := none
    done_error := nofun
    ended_error := fun _ => nofun
    lease_paired := unleased }

end AgentTreeRun

/-! ## Checkpoints and commands -/

/-- `ContextCheckpoint`. -/
structure ContextCheckpoint where
  checkpointId : RequiredText
  agentId : RequiredText
  version : Nat
  previousCheckpointId : Option RequiredText
  sourceRunId : RequiredText
  contentRef : RequiredText
  fingerprint : RequiredText
  version_pos : 0 < version
  deriving DecidableEq, Repr

/-- `ChildAgentSpec`. -/
structure ChildAgentSpec where
  name : RequiredText
  title : RequiredText
  instruction : RequiredText
  objective : RequiredText
  inputPayload : Json.Object := []
  required : Bool := true
  priority : Int := 0
  capabilityGrant : Option AgentCapabilityGrant := none
  dependsOn : List RequiredText := []
  dependsOn_nodup : dependsOn.Nodup := by exact List.nodup_nil

/-- `to_mapping`. -/
def ChildAgentSpec.toMapping (spec : ChildAgentSpec) : Json := .obj [
  ("dependsOn", .arr (spec.dependsOn.map (.str ·.text))),
  ("name", .str spec.name.text),
  ("title", .str spec.title.text),
  ("instruction", .str spec.instruction.text),
  ("objective", .str spec.objective.text),
  ("input", .obj spec.inputPayload),
  ("required", .bool spec.required),
  ("priority", .int spec.priority),
  ("capabilityGrant", (spec.capabilityGrant.map (·.toMapping)).getD .null)]

/-- `BeginRootAgentCommand`. -/
structure BeginRootAgentCommand where
  runId : RequiredText
  agentId : RequiredText
  name : RequiredText
  title : RequiredText
  instruction : RequiredText
  objective : RequiredText
  capabilityGrant : AgentCapabilityGrant
  idempotencyKey : RequiredText

/-- The dependencies among the children of one command, by name. -/
def dependencyTable (children : List ChildAgentSpec) : List (RequiredText × List RequiredText) :=
  children.map fun item => (item.name, item.dependsOn)

/-- `SpawnAgentsCommand`. -/
structure SpawnAgentsCommand where
  parentRunId : RequiredText
  idempotencyKey : RequiredText
  children : List ChildAgentSpec
  leaseOwnerId : Option RequiredText := none
  leaseEpoch : Option Nat := none
  children_ne_nil : children ≠ []
  names_nodup : (children.map (·.name)).Nodup
  dependencies_known : ∀ item ∈ children, item.dependsOn ⊆ children.map (·.name)
  dependencies_acyclic : Topology.acyclic (dependencyTable children) = true
  /-- `_normalize_command_lease`: an owner and an epoch, or neither. -/
  lease_paired : leaseOwnerId = none ↔ leaseEpoch = none

/-- `ContinueAgentCommand`. -/
structure ContinueAgentCommand where
  requesterRunId : RequiredText
  idempotencyKey : RequiredText
  agentId : RequiredText
  expectedContextVersion : Nat
  message : RequiredText
  required : Bool := true
  priority : Int := 0
  leaseOwnerId : Option RequiredText := none
  leaseEpoch : Option Nat := none
  /-- `_normalize_command_lease`: an owner and an epoch, or neither. -/
  lease_paired : leaseOwnerId = none ↔ leaseEpoch = none

/-- `SpawnedAgent`. -/
structure SpawnedAgent where
  agent : AgentNode
  run : AgentTreeRun

/-- `SpawnAgentsReceipt`. -/
structure SpawnAgentsReceipt where
  batchId : RequiredText
  items : List SpawnedAgent
  replayed : Bool := false

/-- `ContinueAgentReceipt`. -/
structure ContinueAgentReceipt where
  agent : AgentNode
  run : AgentTreeRun
  replayed : Bool := false

end Purra
