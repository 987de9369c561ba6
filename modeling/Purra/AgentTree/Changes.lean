import Purra.AgentTree.Memory

/-!
# What one call can do to the run tree

Twelve methods write the maps.  `Change` says once what each of them may do, with every guard
it passed on the way; the invariants of the tree are proved from `Change` and never look at a
method again.

* `requireClaim_eq_ok`, `requireRun_eq_ok` and their companions — what the lookups and the lease
  check return.
* `Change` — one constructor for each way a call writes.
* `change_of_step` — **every call leaves the state alone or is a `Change`.**
-/

namespace Purra

open Purra.Action RunTree

/-! ## Checks and lookups -/

theorem mapError_eq_ok {ε ε' α : Type} {f : ε → ε'} {x : Except ε α} {a : α} :
    x.mapError f = .ok a ↔ x = .ok a := by
  cases x <;> simp [Except.mapError]

namespace RunTree

variable {α β : Type} {s s' : AgentTreeState} {b : β}

theorem check_bind_eq_ok {x : Except PyError α} {f : α → TreeAction β} :
    (check x >>= f) s = (.ok b, s') ↔ ∃ a, x = .ok a ∧ f a s = (.ok b, s') := by
  rw [check, ofExcept_bind_eq_ok]
  simp only [mapError_eq_ok]

theorem atomic_check_bind {x : Except PyError α} {f : α → TreeAction β}
    (hf : ∀ a, Atomic (f a)) : Atomic (check x >>= f) := atomic_ofExcept_bind hf

theorem atomic_refuse {c : Prop} [Decidable c] {code message : String}
    {f : Unit → TreeAction β} (hf : Atomic (f ())) : Atomic (refuse c code message >>= f) :=
  atomic_refuse_bind hf

end RunTree

namespace AgentTreeState

variable {s : AgentTreeState} {id : String} {run : AgentTreeRun} {agent : AgentNode}

theorem requireRun_eq_ok (h : s.requireRun id = .ok run) : s.runs.get? (strip id) = some run := by
  obtain ⟨t, ht, h⟩ := bind_eq_ok h
  rw [RequiredText.of_eq_ok.1 ht]
  cases hget : s.runs.get? t.text with
  | none =>
    simp only [hget] at h
    cases h
  | some record =>
    simp only [hget] at h
    cases h
    rfl

theorem requireRun_text {t : RequiredText} :
    s.requireRun t.text = .ok run ↔ s.runs.get? t.text = some run := by
  constructor
  · intro h
    have := requireRun_eq_ok h
    rwa [t.stripped] at this
  · intro h
    unfold requireRun
    rw [RequiredText.of_text]
    simp only [bind, Except.bind, h]

theorem requireActiveRun_eq_ok (h : s.requireActiveRun id = .ok run) :
    s.requireRun id = .ok run ∧ run.status.live = true := by
  obtain ⟨record, hrun, h⟩ := bind_eq_ok h
  by_cases hlive : record.status.live = true
  · rw [if_pos hlive] at h
    cases h
    exact ⟨hrun, hlive⟩
  · rw [if_neg hlive] at h
    cases h

theorem requireAgent_eq_ok (h : s.requireAgent id = .ok agent) :
    s.agents.get? (strip id) = some agent := by
  obtain ⟨t, ht, h⟩ := bind_eq_ok h
  rw [RequiredText.of_eq_ok.1 ht]
  cases hget : s.agents.get? t.text with
  | none =>
    simp only [hget] at h
    cases h
  | some record =>
    simp only [hget] at h
    cases h
    rfl

theorem requireAgent_text {t : RequiredText} :
    s.requireAgent t.text = .ok agent ↔ s.agents.get? t.text = some agent := by
  constructor
  · intro h
    have := requireAgent_eq_ok h
    rwa [t.stripped] at this
  · intro h
    unfold requireAgent
    rw [RequiredText.of_text]
    simp only [bind, Except.bind, h]

theorem requireActiveAgent_eq_ok (h : s.requireActiveAgent id = .ok agent) :
    s.requireAgent id = .ok agent ∧ agent.state = .active := by
  obtain ⟨record, hagent, h⟩ := bind_eq_ok h
  by_cases hclosed : record.state = .closed
  · rw [if_pos hclosed] at h
    cases h
  · rw [if_neg hclosed] at h
    cases h
    refine ⟨hagent, ?_⟩
    cases hstate : agent.state with
    | active => rfl
    | closed => exact absurd hstate hclosed

end AgentTreeState

/-! ## Claims -/

namespace AgentTreeRun

variable {run : AgentTreeRun} {now : Nat} {owner : Option String} {epoch : Option Int}

/-- The lease check passes: no claim for a Run without a lease, or its holder's claim, in time. -/
def Claims (run : AgentTreeRun) (now : Nat) (owner : Option String) (epoch : Option Int) : Prop :=
  match run.leaseOwnerId with
  | none => optionalText owner = none ∧ epoch = none
  | some holder =>
    optionalText owner = some holder.text ∧ epoch = some (run.leaseEpoch : Int) ∧
      run.leaseExpired now = false

theorem optionalNonNegativeInt_eq_none {field : String}
    (h : optionalNonNegativeInt epoch field = .ok none) : epoch = none := by
  cases epoch with
  | none => rfl
  | some n =>
    unfold optionalNonNegativeInt nonNegativeInt at h
    simp only at h
    split at h <;> cases h

theorem optionalNonNegativeInt_eq_some {field : String} {n : Nat}
    (h : optionalNonNegativeInt epoch field = .ok (some n)) : epoch = some (n : Int) := by
  cases epoch with
  | none => cases h
  | some i =>
    unfold optionalNonNegativeInt nonNegativeInt at h
    simp only at h
    split at h
    · cases h
    · cases h
      rename_i hi
      congr 1
      omega

theorem requireClaim_eq_ok (h : run.requireClaim now owner epoch = .ok ()) :
    run.Claims now owner epoch := by
  obtain ⟨n, hn, h⟩ := bind_eq_ok h
  unfold Claims
  cases hholder : run.leaseOwnerId with
  | none =>
    simp only [hholder] at h
    split at h
    · rename_i hnone
      rw [hnone.2] at hn
      exact ⟨hnone.1, optionalNonNegativeInt_eq_none hn⟩
    · cases h
  | some holder =>
    simp only [hholder] at h
    split at h
    · cases h
    · rename_i hheld
      simp only [ne_eq, not_or, Decidable.not_not] at hheld
      obtain ⟨howner, hepoch, hlive⟩ := hheld
      rw [hepoch] at hn
      exact ⟨howner, optionalNonNegativeInt_eq_some hn, Bool.eq_false_iff.2 hlive⟩

theorem active_of_reclaimable (h : run.reclaimable now = true) : run.status.active = true := by
  unfold reclaimable at h
  cases hstatus : run.status <;> simp [hstatus, AgentTreeRunStatus.active] at h ⊢

end AgentTreeRun

/-! ## The ways a call writes -/

/-- What one call may do to the state it finds, with the guards it passed. -/
inductive Change (digest : Json → String) (clock : Nat → Nat) (s : AgentTreeState) :
    TreeOp → AgentTreeState → Prop
  | root (command : BeginRootAgentCommand) (agent : AgentNode)
      (hnew : s.runs.get? command.runId.text = none)
      (hagent : rootAgent s command = .ok agent) :
      Change digest clock s (.beginRoot command)
        (putRoot s (digest (rootMapping command)) agent
          (rootRun command agent (s.sequence + 1)))
  | spawn {command : SpawnAgentsCommand} {parentRun : AgentTreeRun} {parent : AgentNode}
      {grants : List AgentCapabilityGrant} {mark : String}
      (hrun : s.requireActiveRun command.parentRunId.text = .ok parentRun)
      (hclaim : parentRun.Claims (clock 0) (command.leaseOwnerId.map (·.text))
        (command.leaseEpoch.map Nat.cast))
      (hparent : s.requireActiveAgent parentRun.agentId.text = .ok parent)
      (hdepth : parent.depth < parent.capabilityGrant.maxDepth)
      (hcapacity : (s.participating parentRun.rootRunId).length + command.children.length ≤
        parent.capabilityGrant.maxAgentsPerRoot)
      (hgrants : (command.children.mapM fun spec =>
        parent.capabilityGrant.authorizeChild spec.capabilityGrant) = .ok grants)
      (hnew : s.spawnReceipts.get? (command.parentRunId, command.idempotencyKey) = none)
      (hspawns : parent.capabilityGrant.canSpawnAgents = true)
      (hfan : command.children.length ≤ parent.capabilityGrant.maxChildrenPerCall) :
      Change digest clock s (.spawnAgents command)
        (putSpawned s (command.parentRunId, command.idempotencyKey) mark
          (spawnedItems s command parent parentRun grants)
          { batchId := generatedBatchId (s.batchSequence + 1),
            items := spawnedItems s command parent parentRun grants })
  | continue {command : ContinueAgentCommand} {requester : AgentTreeRun}
      {target requesterAgent root : AgentNode} {mark : String}
      (hrun : s.requireActiveRun command.requesterRunId.text = .ok requester)
      (hclaim : requester.Claims (clock 0) (command.leaseOwnerId.map (·.text))
        (command.leaseEpoch.map Nat.cast))
      (htarget : s.requireActiveAgent command.agentId.text = .ok target)
      (hrequester : s.requireActiveAgent requester.agentId.text = .ok requesterAgent)
      (hscope : requesterAgent.rootAgentId = target.rootAgentId)
      (habove : s.isAncestor requesterAgent.agentId target.agentId = .ok true)
      (hidle : s.hasActiveRun target.agentId = false)
      (hroot : s.requireActiveAgent requesterAgent.rootAgentId.text = .ok root)
      (hcapacity : target.agentId ∈ s.participating requester.rootRunId ∨
        (s.participating requester.rootRunId).length < root.capabilityGrant.maxAgentsPerRoot)
      (hnew : s.continueReceipts.get? (command.requesterRunId, command.idempotencyKey) = none) :
      Change digest clock s (.continueAgent command)
        (putContinued s (command.requesterRunId, command.idempotencyKey) mark
          { target with latestRunId := some (generatedRunId (s.runSequence + 1)) }
          (continuedRun s command requester target)
          { agent := { target with latestRunId := some (generatedRunId (s.runSequence + 1)) },
            run := continuedRun s command requester target })
  | claim {runId ownerId : String} {leaseDurationMs : Int} {owner : RequiredText}
      {duration : Nat} {run rootRun : AgentTreeRun} {root : AgentNode}
      (howner : RequiredText.of ownerId "Agent Run lease owner" = .ok owner)
      (hduration : positiveInt leaseDurationMs "Agent Run lease duration" = .ok duration)
      (hrun : s.requireRun runId = .ok run)
      (hstatus : run.status = .queued ∨ run.reclaimable (clock 0) = true)
      (hready : s.dependenciesEnded run = .ok true)
      (hrootRun : s.requireRun run.rootRunId.text = .ok rootRun)
      (hroot : s.requireActiveAgent rootRun.agentId.text = .ok root)
      (hslot : s.runs.values.countP (·.occupies run.rootRunId (clock 0)) <
        root.capabilityGrant.maxParallelRuns) :
      Change digest clock s (.claimRun runId ownerId leaseDurationMs)
        (s.putRun run.runId.text (run.claimedBy owner (clock 0 + duration)))
  | suspend (runId : String) {leaseOwnerId : Option String} {leaseEpoch : Option Int}
      (run : AgentTreeRun) (hrun : s.requireRun runId = .ok run)
      (hclaim : run.Claims (clock 0) leaseOwnerId leaseEpoch) :
      Change digest clock s (.suspendRun runId leaseOwnerId leaseEpoch)
        (s.putRun runId run.suspended)
  | renew {runId ownerId : String} {leaseEpoch leaseDurationMs : Int} {owner : RequiredText}
      {epoch duration : Nat} (run renewed : AgentTreeRun)
      (howner : RequiredText.of ownerId "Agent Run lease owner" = .ok owner)
      (hepoch : nonNegativeInt leaseEpoch "Agent Run lease epoch" = .ok epoch)
      (hrun : s.requireActiveRun runId = .ok run)
      (hclaim : run.Claims (clock 0) (some owner.text) (some epoch))
      (hrenewed : run.renewed (clock 1 + duration) = .ok renewed) :
      Change digest clock s (.renewRunLease runId ownerId leaseEpoch leaseDurationMs)
        (s.putRun run.runId.text renewed)
  | wait {runId : String} {leaseOwnerId : Option String} {leaseEpoch : Option Int}
      (run : AgentTreeRun) (hrun : s.requireRun runId = .ok run) (hstatus : run.status = .running)
      (hclaim : run.Claims (clock 0) leaseOwnerId leaseEpoch) :
      Change digest clock s (.markWaiting runId leaseOwnerId leaseEpoch)
        (s.putRun run.runId.text run.waiting)
  | release {runId : String} {leaseOwnerId : Option String} {leaseEpoch : Option Int}
      (run : AgentTreeRun) {rootRun : AgentTreeRun} {root : AgentNode}
      (hrun : s.requireRun runId = .ok run)
      (hstatus : run.status = .waiting)
      (hclaim : run.Claims (clock 0) leaseOwnerId leaseEpoch)
      (hrootRun : s.requireRun run.rootRunId.text = .ok rootRun)
      (hroot : s.requireActiveAgent rootRun.agentId.text = .ok root)
      (hslot : occupied clock s run.rootRunId < root.capabilityGrant.maxParallelRuns) :
      Change digest clock s (.releaseWaiting runId leaseOwnerId leaseEpoch)
        (s.putRun run.runId.text run.resumed)
  | number {runId : String} {expectedContextVersion : Int} {result : Json}
      {contentRef fingerprint : String} {leaseOwnerId : Option String} {leaseEpoch : Option Int}
      {run : AgentTreeRun} (hrun : s.requireRun runId = .ok run) (hstatus : run.status = .running)
      (hclaim : run.Claims (clock 0) leaseOwnerId leaseEpoch) :
      Change digest clock s
        (.completeRun runId expectedContextVersion result contentRef fingerprint leaseOwnerId
          leaseEpoch)
        { s with checkpointSequence := s.checkpointSequence + 1 }
  | complete {runId : String} {expectedContextVersion : Int} {result : Json}
      {contentRef fingerprint : String} {leaseOwnerId : Option String} {leaseEpoch : Option Int}
      (run completed : AgentTreeRun) (agent : AgentNode) (checkpoint : ContextCheckpoint)
      (hrun : s.requireRun runId = .ok run) (hstatus : run.status = .running)
      (hclaim : run.Claims (clock 0) leaseOwnerId leaseEpoch)
      (hquiet : hasUnfinishedChildren s run = .ok false)
      (hagent : s.requireActiveAgent run.agentId.text = .ok agent)
      (hcompleted : run.completed result = .ok completed)
      (hid : checkpoint.checkpointId = generatedCheckpointId (s.checkpointSequence + 1))
      (howner : checkpoint.agentId = agent.agentId)
      (hversion : checkpoint.version = agent.contextVersion + 1)
      (hprevious : checkpoint.previousCheckpointId = agent.contextCheckpointId) :
      Change digest clock s
        (.completeRun runId expectedContextVersion result contentRef fingerprint leaseOwnerId
          leaseEpoch)
        (putCompleted { s with checkpointSequence := s.checkpointSequence + 1 } agent checkpoint
          completed)
  | fail {runId errorCode : String} {leaseOwnerId : Option String} {leaseEpoch : Option Int}
      (error : RequiredText) (run : AgentTreeRun) {below : List AgentTreeRun}
      (hrun : s.requireRun runId = .ok run) (hactive : run.status.active = true)
      (hclaim : run.Claims (clock 0) leaseOwnerId leaseEpoch)
      (hbelow : activeDescendants s run = .ok below) :
      Change digest clock s (.failRun runId errorCode leaseOwnerId leaseEpoch)
        (s.runs.keys.foldl (cancelDescendant run.runId)
          (s.putRun run.runId.text (run.failedWith error)))
  | cancel {runId : String} {root : AgentTreeRun} {ordered : List RequiredText}
      (hrun : s.requireRun runId = .ok root) (hordered : s.subtree root = .ok ordered) :
      Change digest clock s (.cancelSubtree runId) (ordered.foldl cancelOrdered s)
  | close {agentId : String} (agent : AgentNode)
      (hagent : s.requireActiveAgent agentId = .ok agent)
      (hidle : s.hasActiveRun agent.agentId = false) :
      Change digest clock s (.closeAgent agentId) (s.putAgent { agent with state := .closed })

/-! ## Every call is one of them -/

section

variable {digest : Json → String} {clock : Nat → Nat} {s : AgentTreeState}

theorem beginRoot_cases (command : BeginRootAgentCommand) :
    (beginRoot digest command).final s = s ∨
      Change digest clock s (.beginRoot command) ((beginRoot digest command).final s) := by
  have hatomic : Atomic (beginRoot digest command) := by
    refine atomic_read_bind fun state => ?_
    cases state.runs.get? command.runId.text with
    | some existing => exact atomic_refuse (atomic_pure _)
    | none => exact atomic_check_bind fun agent => atomic_write_bind_pure _ _
  rcases hatomic.final_cases s with ⟨run, h⟩ | ⟨-, hsame⟩
  · replace h := read_bind_eq_ok.1 h
    cases hrun : s.runs.get? command.runId.text with
    | some existing =>
      simp only [hrun] at h
      obtain ⟨-, h⟩ := refuse_bind_eq_ok.1 h
      exact Or.inl (pure_eq_ok.1 h).2
    | none =>
      simp only [hrun] at h
      obtain ⟨agent, hagent, h⟩ := check_bind_eq_ok.1 h
      replace h := write_bind_eq_ok.1 h
      rw [(pure_eq_ok.1 h).2]
      exact Or.inr (.root command agent hrun hagent)
  · exact Or.inl hsame

theorem spawnAgents_cases (command : SpawnAgentsCommand) :
    (spawnAgents digest clock command).final s = s ∨
      Change digest clock s (.spawnAgents command) ((spawnAgents digest clock command).final s) := by
  have hatomic : Atomic (spawnAgents digest clock command) := by
    refine atomic_read_bind fun state => ?_
    dsimp only
    cases state.spawnReceipts.get? (command.parentRunId, command.idempotencyKey) with
    | some replay => exact atomic_refuse (atomic_pure _)
    | none =>
      exact atomic_check_bind fun _ => atomic_check_bind fun _ => atomic_check_bind fun _ =>
        atomic_refuse <| atomic_refuse <| atomic_refuse <| atomic_refuse <|
          atomic_check_bind fun _ => atomic_write_bind_pure _ _
  rcases hatomic.final_cases s with ⟨receipt, h⟩ | ⟨-, hsame⟩
  · replace h := read_bind_eq_ok.1 h
    cases hreplay : s.spawnReceipts.get? (command.parentRunId, command.idempotencyKey) with
    | some replay =>
      simp only [hreplay] at h
      obtain ⟨-, h⟩ := refuse_bind_eq_ok.1 h
      exact Or.inl (pure_eq_ok.1 h).2
    | none =>
      simp only [hreplay] at h
      obtain ⟨parentRun, hrun, h⟩ := check_bind_eq_ok.1 h
      obtain ⟨_, hclaim, h⟩ := check_bind_eq_ok.1 h
      obtain ⟨parent, hparent, h⟩ := check_bind_eq_ok.1 h
      obtain ⟨hspawns, h⟩ := refuse_bind_eq_ok.1 h
      obtain ⟨hdepth, h⟩ := refuse_bind_eq_ok.1 h
      obtain ⟨hfan, h⟩ := refuse_bind_eq_ok.1 h
      obtain ⟨hcapacity, h⟩ := refuse_bind_eq_ok.1 h
      obtain ⟨grants, hgrants, h⟩ := check_bind_eq_ok.1 h
      replace h := write_bind_eq_ok.1 h
      rw [(pure_eq_ok.1 h).2]
      exact Or.inr (.spawn hrun (AgentTreeRun.requireClaim_eq_ok hclaim) hparent
        (not_le.1 hdepth) (not_lt.1 hcapacity) hgrants hreplay (not_not.1 hspawns)
        (not_lt.1 hfan))
  · exact Or.inl hsame

theorem continueAgent_cases (command : ContinueAgentCommand) :
    (continueAgent digest clock command).final s = s ∨
      Change digest clock s (.continueAgent command)
        ((continueAgent digest clock command).final s) := by
  have hatomic : Atomic (continueAgent digest clock command) := by
    refine atomic_read_bind fun state => ?_
    dsimp only
    cases state.continueReceipts.get? (command.requesterRunId, command.idempotencyKey) with
    | some replay => exact atomic_refuse (atomic_pure _)
    | none =>
      exact atomic_check_bind fun _ => atomic_check_bind fun _ => atomic_check_bind fun _ =>
        atomic_check_bind fun _ => atomic_refuse <| atomic_ofExcept_bind fun _ =>
          atomic_refuse <| atomic_refuse <| atomic_refuse <|
            atomic_check_bind fun _ => atomic_refuse <| atomic_write_bind_pure _ _
  rcases hatomic.final_cases s with ⟨receipt, h⟩ | ⟨-, hsame⟩
  · replace h := read_bind_eq_ok.1 h
    cases hreplay : s.continueReceipts.get? (command.requesterRunId, command.idempotencyKey) with
    | some replay =>
      simp only [hreplay] at h
      obtain ⟨-, h⟩ := refuse_bind_eq_ok.1 h
      exact Or.inl (pure_eq_ok.1 h).2
    | none =>
      simp only [hreplay] at h
      obtain ⟨requester, hrun, h⟩ := check_bind_eq_ok.1 h
      obtain ⟨_, hclaim, h⟩ := check_bind_eq_ok.1 h
      obtain ⟨target, htarget, h⟩ := check_bind_eq_ok.1 h
      obtain ⟨requesterAgent, hrequester, h⟩ := check_bind_eq_ok.1 h
      obtain ⟨hscope, h⟩ := refuse_bind_eq_ok.1 h
      obtain ⟨above, habove, h⟩ := ofExcept_bind_eq_ok.1 h
      obtain ⟨htrue, h⟩ := refuse_bind_eq_ok.1 h
      obtain ⟨-, h⟩ := refuse_bind_eq_ok.1 h
      obtain ⟨hidle, h⟩ := refuse_bind_eq_ok.1 h
      obtain ⟨root, hroot, h⟩ := check_bind_eq_ok.1 h
      obtain ⟨hcapacity, h⟩ := refuse_bind_eq_ok.1 h
      replace h := write_bind_eq_ok.1 h
      rw [(pure_eq_ok.1 h).2]
      have hup : above = true := not_not.1 htrue
      refine Or.inr (.continue hrun (AgentTreeRun.requireClaim_eq_ok hclaim) htarget hrequester
        (not_not.1 hscope) (hup ▸ habove) (Bool.eq_false_iff.2 hidle) hroot ?_ hreplay)
      by_cases hmem : target.agentId ∈ s.participating requester.rootRunId
      · exact Or.inl hmem
      · exact Or.inr (not_le.1 fun hfull => hcapacity ⟨hmem, hfull⟩)
  · exact Or.inl hsame

/-- What `claim_run` asks before it gives a Run away. -/
theorem claimRun_eq_some {runId ownerId : String} {duration : Int} {claimed : AgentTreeRun} :
    claimRun clock runId ownerId duration s = (.ok (some claimed), s') ↔
      ∃ owner, RequiredText.of ownerId "Agent Run lease owner" = .ok owner ∧
        ∃ length, positiveInt duration "Agent Run lease duration" = .ok length ∧
          ∃ run, s.requireRun runId = .ok run ∧
            (run.status = .queued ∨ run.reclaimable (clock 0) = true) ∧
            s.dependenciesEnded run = .ok true ∧
            ∃ rootRun, s.requireRun run.rootRunId.text = .ok rootRun ∧
              ∃ root, s.requireActiveAgent rootRun.agentId.text = .ok root ∧
                s.runs.values.countP (·.occupies run.rootRunId (clock 0)) <
                  root.capabilityGrant.maxParallelRuns ∧
                claimed = run.claimedBy owner (clock 0 + length) ∧
                s' = s.putRun run.runId.text (run.claimedBy owner (clock 0 + length)) := by
  unfold claimRun
  simp only [check_bind_eq_ok, read_bind_eq_ok, ite_eq_ok, pure_eq_ok, write_bind_eq_ok,
    reduceCtorEq, false_and, and_false, false_or, not_le, Option.some.injEq, not_and_or, ne_eq,
    Decidable.not_not, Bool.not_eq_false]
  constructor
  · rintro ⟨owner, howner, length, hlength, run, hrun, hstatus, _, hready, rfl, hgiven⟩
    exact ⟨owner, howner, length, hlength, run, hrun, hstatus, hready, hgiven⟩
  · rintro ⟨owner, howner, length, hlength, run, hrun, hstatus, hready, hgiven⟩
    exact ⟨owner, howner, length, hlength, run, hrun, hstatus, true, hready, rfl, hgiven⟩

theorem claimRun_cases (runId ownerId : String) (duration : Int) :
    (claimRun clock runId ownerId duration).final s = s ∨
      Change digest clock s (.claimRun runId ownerId duration)
        ((claimRun clock runId ownerId duration).final s) := by
  have hatomic : Atomic (claimRun clock runId ownerId duration) :=
    atomic_check_bind fun _ => atomic_check_bind fun _ => atomic_read_bind fun _ =>
      atomic_check_bind fun _ => atomic_ite (atomic_pure _) <| atomic_check_bind fun _ =>
        atomic_ite (atomic_pure _) <| atomic_check_bind fun _ => atomic_check_bind fun _ =>
          atomic_ite (atomic_pure _) <| atomic_write_bind_pure _ _
  rcases hatomic.final_cases s with ⟨reply, h⟩ | ⟨-, hsame⟩
  · obtain ⟨owner, howner, h⟩ := check_bind_eq_ok.1 h
    obtain ⟨length, hlength, h⟩ := check_bind_eq_ok.1 h
    replace h := read_bind_eq_ok.1 h
    obtain ⟨run, hrun, h⟩ := check_bind_eq_ok.1 h
    rcases ite_eq_ok.1 h with ⟨-, h⟩ | ⟨hstatus, h⟩
    · exact Or.inl (pure_eq_ok.1 h).2
    obtain ⟨ready, hready, h⟩ := check_bind_eq_ok.1 h
    rcases ite_eq_ok.1 h with ⟨-, h⟩ | ⟨htrue, h⟩
    · exact Or.inl (pure_eq_ok.1 h).2
    obtain ⟨rootRun, hrootRun, h⟩ := check_bind_eq_ok.1 h
    obtain ⟨root, hroot, h⟩ := check_bind_eq_ok.1 h
    rcases ite_eq_ok.1 h with ⟨-, h⟩ | ⟨hslot, h⟩
    · exact Or.inl (pure_eq_ok.1 h).2
    replace h := write_bind_eq_ok.1 h
    rw [(pure_eq_ok.1 h).2]
    have hended : ready = true := by simpa using htrue
    refine Or.inr (.claim howner hlength hrun ?_ (hended ▸ hready) hrootRun hroot (not_le.1 hslot))
    by_cases hqueued : run.status = .queued
    · exact Or.inl hqueued
    · exact Or.inr (by simpa [hqueued] using hstatus)
  · exact Or.inl hsame

/-- `claim_run` gives a Run away, or leaves everything as it is. -/
theorem claimRun_given (clock : Nat → Nat) (s : AgentTreeState) (runId ownerId : String) (duration : Int) :
    (∃ owner length run claimed, s.requireRun runId = .ok run ∧
      claimed = run.claimedBy owner (clock 0 + length) ∧
      (claimRun clock runId ownerId duration s).1 = .ok (some claimed) ∧
      (claimRun clock runId ownerId duration).final s = s.putRun run.runId.text claimed) ∨
    (∀ claimed, (claimRun clock runId ownerId duration s).1 ≠ .ok (some claimed)) ∧
      (claimRun clock runId ownerId duration).final s = s := by
  by_cases hgiven : ∃ claimed, (claimRun clock runId ownerId duration s).1 = .ok (some claimed)
  · obtain ⟨claimed, hclaimed⟩ := hgiven
    obtain ⟨owner, -, length, -, run, hrun, -, -, -, -, -, -, -, rfl, hput⟩ :=
      claimRun_eq_some.1 (Prod.ext hclaimed rfl)
    exact Or.inl ⟨owner, length, run, _, hrun, rfl, hclaimed, hput⟩
  · refine Or.inr ⟨not_exists.1 hgiven, ?_⟩
    have hcases : (claimRun clock runId ownerId duration).final s = s ∨
        Change (fun _ => "") clock s (.claimRun runId ownerId duration)
          ((claimRun clock runId ownerId duration).final s) := claimRun_cases runId ownerId duration
    rcases hcases with h | h
    · exact h
    · generalize (claimRun clock runId ownerId duration).final s = s' at h
      cases h with
      | @claim _ _ _ owner length run rootRun root howner hlength hrun hstatus hready hrootRun
          hroot hslot =>
        refine absurd ⟨_, congrArg Prod.fst (claimRun_eq_some.2 ⟨owner, howner, length, hlength,
          run, hrun, hstatus, hready, rootRun, hrootRun, root, hroot, hslot, rfl, rfl⟩)⟩ hgiven

theorem suspendRun_cases (runId : String) (owner : Option String) (epoch : Option Int) :
    (suspendRun clock runId owner epoch).final s = s ∨
      Change digest clock s (.suspendRun runId owner epoch)
        ((suspendRun clock runId owner epoch).final s) := by
  have hatomic : Atomic (suspendRun clock runId owner epoch) :=
    atomic_read_bind fun _ => atomic_check_bind fun _ => atomic_check_bind fun _ =>
      atomic_write_bind_pure _ _
  rcases hatomic.final_cases s with ⟨run', h⟩ | ⟨-, hsame⟩
  · replace h := read_bind_eq_ok.1 h
    obtain ⟨run, hrun, h⟩ := check_bind_eq_ok.1 h
    obtain ⟨_, hclaim, h⟩ := check_bind_eq_ok.1 h
    replace h := write_bind_eq_ok.1 h
    rw [(pure_eq_ok.1 h).2]
    exact Or.inr (.suspend runId run hrun (AgentTreeRun.requireClaim_eq_ok hclaim))
  · exact Or.inl hsame

theorem renewRunLease_cases (runId ownerId : String) (epoch duration : Int) :
    (renewRunLease clock runId ownerId epoch duration).final s = s ∨
      Change digest clock s (.renewRunLease runId ownerId epoch duration)
        ((renewRunLease clock runId ownerId epoch duration).final s) := by
  have hatomic : Atomic (renewRunLease clock runId ownerId epoch duration) :=
    atomic_check_bind fun _ => atomic_check_bind fun _ => atomic_check_bind fun _ =>
      atomic_read_bind fun _ => atomic_check_bind fun _ => atomic_check_bind fun _ =>
        atomic_check_bind fun _ => atomic_write_bind_pure _ _
  rcases hatomic.final_cases s with ⟨run', h⟩ | ⟨-, hsame⟩
  · obtain ⟨owner, howner, h⟩ := check_bind_eq_ok.1 h
    obtain ⟨claimed, hclaimed, h⟩ := check_bind_eq_ok.1 h
    obtain ⟨length, _, h⟩ := check_bind_eq_ok.1 h
    replace h := read_bind_eq_ok.1 h
    obtain ⟨run, hrun, h⟩ := check_bind_eq_ok.1 h
    obtain ⟨_, hclaim, h⟩ := check_bind_eq_ok.1 h
    obtain ⟨renewed, hrenewed, h⟩ := check_bind_eq_ok.1 h
    replace h := write_bind_eq_ok.1 h
    rw [(pure_eq_ok.1 h).2]
    exact Or.inr (.renew run renewed howner hclaimed hrun
      (AgentTreeRun.requireClaim_eq_ok hclaim) hrenewed)
  · exact Or.inl hsame

theorem markWaiting_cases (runId : String) (owner : Option String) (epoch : Option Int) :
    (markWaiting clock runId owner epoch).final s = s ∨
      Change digest clock s (.markWaiting runId owner epoch)
        ((markWaiting clock runId owner epoch).final s) := by
  have hatomic : Atomic (markWaiting clock runId owner epoch) :=
    atomic_read_bind fun _ => atomic_check_bind fun _ => atomic_refuse <|
      atomic_check_bind fun _ => atomic_write_bind_pure _ _
  rcases hatomic.final_cases s with ⟨run', h⟩ | ⟨-, hsame⟩
  · replace h := read_bind_eq_ok.1 h
    obtain ⟨run, hrun, h⟩ := check_bind_eq_ok.1 h
    obtain ⟨hstatus, h⟩ := refuse_bind_eq_ok.1 h
    obtain ⟨_, hclaim, h⟩ := check_bind_eq_ok.1 h
    replace h := write_bind_eq_ok.1 h
    rw [(pure_eq_ok.1 h).2]
    exact Or.inr (.wait run hrun (not_not.1 hstatus)
      (AgentTreeRun.requireClaim_eq_ok hclaim))
  · exact Or.inl hsame

theorem releaseWaiting_cases (runId : String) (owner : Option String) (epoch : Option Int) :
    (releaseWaiting clock runId owner epoch).final s = s ∨
      Change digest clock s (.releaseWaiting runId owner epoch)
        ((releaseWaiting clock runId owner epoch).final s) := by
  have hatomic : Atomic (releaseWaiting clock runId owner epoch) :=
    atomic_read_bind fun _ => atomic_check_bind fun _ => atomic_refuse <|
      atomic_check_bind fun _ => atomic_check_bind fun _ => atomic_check_bind fun _ =>
        atomic_refuse <| atomic_write_bind_pure _ _
  rcases hatomic.final_cases s with ⟨run', h⟩ | ⟨-, hsame⟩
  · replace h := read_bind_eq_ok.1 h
    obtain ⟨run, hrun, h⟩ := check_bind_eq_ok.1 h
    obtain ⟨hstatus, h⟩ := refuse_bind_eq_ok.1 h
    obtain ⟨_, hclaim, h⟩ := check_bind_eq_ok.1 h
    obtain ⟨rootRun, hrootRun, h⟩ := check_bind_eq_ok.1 h
    obtain ⟨root, hroot, h⟩ := check_bind_eq_ok.1 h
    obtain ⟨hslot, h⟩ := refuse_bind_eq_ok.1 h
    replace h := write_bind_eq_ok.1 h
    rw [(pure_eq_ok.1 h).2]
    exact Or.inr (.release run hrun (not_not.1 hstatus)
      (AgentTreeRun.requireClaim_eq_ok hclaim) hrootRun hroot (not_le.1 hslot))
  · exact Or.inl hsame

theorem final_check_bind_cases {α β : Type} {x : Except PyError α} {f : α → TreeAction β}
    (s : AgentTreeState) :
    (check x >>= f).final s = s ∨ ∃ a, x = .ok a ∧ (check x >>= f).final s = (f a).final s := by
  rcases final_ofExcept_bind_cases (f := f) (x := x.mapError .raised) s with h | ⟨a, ha, h⟩
  · exact Or.inl h
  · exact Or.inr ⟨a, mapError_eq_ok.1 ha, h⟩

theorem final_refuse_cases {β : Type} {c : Prop} [Decidable c] {code message : String}
    {f : Unit → TreeAction β} (s : AgentTreeState) :
    (refuse c code message >>= f).final s = s ∨
      ¬ c ∧ (refuse c code message >>= f).final s = (f ()).final s :=
  final_refuse_bind_cases s

/-- Unlike the others, `complete_run` can raise after its first write. -/
theorem completeRun_cases (runId : String) (version : Int) (result : Json)
    (contentRef fingerprint : String) (owner : Option String) (epoch : Option Int) :
    (completeRun clock runId version result contentRef fingerprint owner epoch).final s = s ∨
      Change digest clock s
        (.completeRun runId version result contentRef fingerprint owner epoch)
        ((completeRun clock runId version result contentRef fingerprint owner epoch).final s) := by
  unfold completeRun
  rw [final_read_bind]
  rcases final_check_bind_cases s with h | ⟨run, hrun, h⟩
  · exact Or.inl h
  rw [h]
  rcases final_refuse_cases (c := run.status ≠ .running) s with h | ⟨hstatus, h⟩
  · exact Or.inl h
  rw [h]
  rcases final_check_bind_cases s with h | ⟨_, hclaim, h⟩
  · exact Or.inl h
  rw [h]
  rcases final_ofExcept_bind_cases s with h | ⟨unfinished, hunfinished, h⟩
  · exact Or.inl h
  rw [h]
  rcases final_refuse_cases (c := unfinished = true) s with h | ⟨hquiet, h⟩
  · exact Or.inl h
  rw [h]
  rcases final_check_bind_cases s with h | ⟨agent, hagent, h⟩
  · exact Or.inl h
  rw [h]
  rcases final_refuse_cases (c := (agent.contextVersion : Int) ≠ version) s with h | ⟨_, h⟩
  · exact Or.inl h
  rw [h, final_write_bind]
  have hnumber : Change digest clock s
      (.completeRun runId version result contentRef fingerprint owner epoch)
      { s with checkpointSequence := s.checkpointSequence + 1 } :=
    .number hrun (not_not.1 hstatus) (AgentTreeRun.requireClaim_eq_ok hclaim)
  rcases final_check_bind_cases _ with h | ⟨content, _, h⟩
  · exact Or.inr (h ▸ hnumber)
  rw [h]
  rcases final_check_bind_cases _ with h | ⟨mark, _, h⟩
  · exact Or.inr (h ▸ hnumber)
  rw [h]
  rcases final_check_bind_cases _ with h | ⟨completed, hcompleted, h⟩
  · exact Or.inr (h ▸ hnumber)
  rw [h, final_write_bind, final_pure]
  exact Or.inr (.complete run completed agent _ hrun (not_not.1 hstatus)
    (AgentTreeRun.requireClaim_eq_ok hclaim)
    (by simpa [Bool.eq_false_iff.2 hquiet] using hunfinished) hagent hcompleted rfl rfl rfl rfl)

theorem failRun_cases (runId errorCode : String) (owner : Option String) (epoch : Option Int) :
    (failRun clock runId errorCode owner epoch).final s = s ∨
      Change digest clock s (.failRun runId errorCode owner epoch)
        ((failRun clock runId errorCode owner epoch).final s) := by
  have hatomic : Atomic (failRun clock runId errorCode owner epoch) :=
    atomic_check_bind fun _ => atomic_read_bind fun _ => atomic_check_bind fun _ =>
      atomic_ite (atomic_pure _) <| atomic_check_bind fun _ => atomic_ofExcept_bind fun _ =>
        atomic_write_bind_pure _ _
  rcases hatomic.final_cases s with ⟨run', h⟩ | ⟨-, hsame⟩
  · obtain ⟨error, _, h⟩ := check_bind_eq_ok.1 h
    replace h := read_bind_eq_ok.1 h
    obtain ⟨run, hrun, h⟩ := check_bind_eq_ok.1 h
    rcases ite_eq_ok.1 h with ⟨-, h⟩ | ⟨hactive, h⟩
    · exact Or.inl (pure_eq_ok.1 h).2
    obtain ⟨_, hclaim, h⟩ := check_bind_eq_ok.1 h
    obtain ⟨below, hbelow, h⟩ := ofExcept_bind_eq_ok.1 h
    replace h := write_bind_eq_ok.1 h
    rw [(pure_eq_ok.1 h).2]
    exact Or.inr (.fail error run hrun (by simpa using hactive)
      (AgentTreeRun.requireClaim_eq_ok hclaim) hbelow)
  · exact Or.inl hsame

theorem cancelSubtree_cases (runId : String) :
    (cancelSubtree runId).final s = s ∨
      Change digest clock s (.cancelSubtree runId) ((cancelSubtree runId).final s) := by
  have hatomic : Atomic (cancelSubtree runId) :=
    atomic_read_bind fun _ => atomic_check_bind fun _ => atomic_ofExcept_bind fun _ =>
      atomic_write_bind_pure _ _
  rcases hatomic.final_cases s with ⟨canceled, h⟩ | ⟨-, hsame⟩
  · replace h := read_bind_eq_ok.1 h
    obtain ⟨root, hrun, h⟩ := check_bind_eq_ok.1 h
    obtain ⟨ordered, hordered, h⟩ := ofExcept_bind_eq_ok.1 h
    replace h := write_bind_eq_ok.1 h
    rw [(pure_eq_ok.1 h).2]
    exact Or.inr (.cancel hrun hordered)
  · exact Or.inl hsame

theorem closeAgent_cases (agentId : String) :
    (closeAgent agentId).final s = s ∨
      Change digest clock s (.closeAgent agentId) ((closeAgent agentId).final s) := by
  have hatomic : Atomic (closeAgent agentId) :=
    atomic_read_bind fun _ => atomic_check_bind fun _ => atomic_refuse <|
      atomic_write_bind_pure _ _
  rcases hatomic.final_cases s with ⟨closed, h⟩ | ⟨-, hsame⟩
  · replace h := read_bind_eq_ok.1 h
    obtain ⟨agent, hagent, h⟩ := check_bind_eq_ok.1 h
    obtain ⟨hidle, h⟩ := refuse_bind_eq_ok.1 h
    replace h := write_bind_eq_ok.1 h
    rw [(pure_eq_ok.1 h).2]
    exact Or.inr (.close agent hagent (Bool.eq_false_iff.2 hidle))
  · exact Or.inl hsame

/-- **Every call leaves the state alone or is a `Change`.** -/
theorem change_of_step (digest : Json → String) (s : AgentTreeState)
    (event : (Nat → Nat) × TreeOp) :
    s.step digest event = s ∨ Change digest event.1 s event.2 (s.step digest event) := by
  obtain ⟨clock, op⟩ := event
  cases op with
  | beginRoot command => exact beginRoot_cases command
  | spawnAgents command => exact spawnAgents_cases command
  | continueAgent command => exact continueAgent_cases command
  | claimRun runId ownerId duration => exact claimRun_cases runId ownerId duration
  | suspendRun runId owner epoch => exact suspendRun_cases runId owner epoch
  | renewRunLease runId ownerId epoch duration =>
    exact renewRunLease_cases runId ownerId epoch duration
  | markWaiting runId owner epoch => exact markWaiting_cases runId owner epoch
  | releaseWaiting runId owner epoch => exact releaseWaiting_cases runId owner epoch
  | completeRun runId version result contentRef fingerprint owner epoch =>
    exact completeRun_cases runId version result contentRef fingerprint owner epoch
  | failRun runId errorCode owner epoch => exact failRun_cases runId errorCode owner epoch
  | cancelSubtree runId => exact cancelSubtree_cases runId
  | closeAgent agentId => exact closeAgent_cases agentId

end

end Purra
