import Purra.AgentTree.Memory

/-!
# Joining Child Runs

`_execute_and_join` and `_execute_claimed` of `purra/agent_tree_execution.py`: a requester waits
for Child Runs, executes those it can claim, and takes its slot back.

Between two calls of the repository any other worker may make calls of its own, so that one call
is one step.  The place where a join stands says which call it makes next.

* `aggregateRuns`, `listDescendants` — the readings of the repository that a join makes.
* `JoinPoint` — where a join stands; `joinStep` — its next call.
* `taskStep` — the next call of a task that executes a claimed Run.
* `JoinSystem.step` — an event: the join, one of its tasks, or any other worker.
-/

namespace Purra

/-- `AgentTreeRunStatus.value`. -/
def AgentTreeRunStatus.value : AgentTreeRunStatus → String
  | .queued => "queued"
  | .running => "running"
  | .waiting => "waiting"
  | .done => "done"
  | .failed => "failed"
  | .canceled => "canceled"

/-- `AgentRunAggregation`. -/
structure AgentRunAggregation where
  state : String
  pendingRunIds : List RequiredText
  requiredFailures : List RequiredText
  results : List Json.Object

namespace RunTree

/-! ## Readings -/

/-- The result of a Run that has ended. -/
def joinedResult (row : AgentTreeRun) : Json.Object := [
  ("agentId", .str row.agentId.text),
  ("runId", .str row.runId.text),
  ("status", .str row.status.value),
  ("result", row.result),
  ("errorCode", (row.errorCode.map fun code => Json.str code.text).getD .null)]

/-- The Run is not below the requester. -/
def escapes (state : AgentTreeState) (requester row : AgentTreeRun) :
    Except (Fault PyError) Bool :=
  if row.rootRunId ≠ requester.rootRunId then .ok true
  else (state.isCausalDescendant requester.runId row.runId).map (!·)

/-- The aggregation of the rows that a requester joins. -/
def aggregationOf (rows : List AgentTreeRun) : AgentRunAggregation :=
  let pending := (rows.filter (·.status.active)).map (·.runId)
  let failures := (rows.filter fun row =>
    row.required && (row.status = .failed || row.status = .canceled)).map (·.runId)
  { state := if pending ≠ [] then "pending" else if failures ≠ [] then "blocked" else "ready"
    pendingRunIds := pending
    requiredFailures := failures
    results := (rows.filter (·.terminal)).map joinedResult }

/-- `aggregate_runs`. -/
def aggregateRuns (requesterRunId : RequiredText) (runIds : List RequiredText)
    (state : AgentTreeState) : Except (Fault PyError) AgentRunAggregation := do
  let requester ← (state.requireRun requesterRunId.text).mapError .raised
  let rows ← ((Dict.fromKeys runIds).mapM fun id => state.requireRun id.text).mapError .raised
  if ← rows.anyM (escapes state requester) then
    .error (.raised (treeViolation "child_run_scope_violation" "joined Run escaped requester"))
  else .ok (aggregationOf rows)

/-- `list_descendants`. -/
def listDescendants (runId : RequiredText) (state : AgentTreeState) :
    Except (Fault PyError) (List AgentTreeRun) := do
  let _ ← (state.requireRun runId.text).mapError .raised
  let runs ← state.runs.values.filterM fun run => state.isCausalDescendant runId run.runId
  return runs.mergeSort fun a b => a.createdSequence ≤ b.createdSequence

end RunTree

open RunTree

/-! ## A join -/

/-- What a join is asked for, and the supervisor's own identity. -/
structure JoinCall where
  requesterRunId : RequiredText
  runIds : List RequiredText
  leaseOwnerId : Option String
  leaseEpoch : Option Int
  /-- `self._owner_id`. -/
  ownerId : RequiredText
  /-- `self._lease_duration_ms`. -/
  leaseDurationMs : Int
  leaseDuration_pos : 0 < leaseDurationMs
  /-- `notify is not None`. -/
  listens : Bool := false

/-- `target_ids`. -/
def JoinCall.targets (call : JoinCall) : List RequiredText := Dict.fromKeys call.runIds

/-- How a call ends that may be canceled. -/
inductive JoinFailure where
  | raised (error : Fault PyError)
  | canceled

/-- How a join ends. -/
inductive JoinOutcome where
  | returned (aggregate : AgentRunAggregation)
  | failed (failure : JoinFailure)

/-- The variables of the loop of `_execute_and_join`.  `active` holds the Runs of its tasks. -/
structure JoinLocals where
  rootRunId : RequiredText
  pending : List RequiredText
  active : List RequiredText
  attempted : List RequiredText

/-- The call that `_mark_waiting` makes next: a conflict is looked into. -/
inductive MarkStage where
  | mark
  | claim (error : Fault PyError)
  | look (error : Fault PyError)

/-- Where a join stands: its next call, or its end. -/
inductive JoinPoint where
  | begin
  /-- The targets that remain to be looked at. -/
  | target (requester : AgentTreeRun) (left : List RequiredText)
  | dependency (requester : AgentTreeRun) (dependencies left : List RequiredText)
  | enter (requester : AgentTreeRun)
  /-- `_mark_waiting`, before the loop or in it. -/
  | mark (stage : MarkStage) (back : Option (JoinLocals × AgentRunAggregation))
  /-- The head of the loop. -/
  | top (locals : JoinLocals)
  | resumed (locals : JoinLocals) (aggregate : AgentRunAggregation)
  | list (locals : JoinLocals) (aggregate : AgentRunAggregation)
  | claim (locals : JoinLocals) (aggregate : AgentRunAggregation) (left : List AgentTreeRun)
  /-- The search for Runs behind a blocked one. -/
  | stalled (locals : JoinLocals) (aggregate : AgentRunAggregation)
      (blocked left : List RequiredText) (changed : Bool)
  | descendants (locals : JoinLocals)
  | wait (locals : JoinLocals)
  | last
  /-- The cancellation of the targets. -/
  | cancel (left : List RequiredText)
  /-- The `finally`: a look at the requester. -/
  | settle (joined : Bool) (outcome : JoinOutcome)
  | release (outcome : JoinOutcome)
  | reclaim (error : Fault PyError) (outcome : JoinOutcome)
  | confirm (error : Fault PyError) (outcome : JoinOutcome)
  | done (outcome : JoinOutcome)

/-- What else bears on the next step of a join: its own task is canceled, its signal is set, the
listener raises, and the tasks that are seen to be done. -/
structure JoinChoice where
  interrupted : Bool := false
  signaled : Bool := false
  notified : Option PyError := none
  observed : List RequiredText := []

/-- Where a task that executes a claimed Run stands: its next call, or how it ended. -/
inductive TaskStage where
  | start
  | checkpoint (version : Nat) (checkpointId : RequiredText)
  /-- The dependencies that remain to be read, and whether one has not been met. -/
  | dependencies (version : Nat) (left : List RequiredText) (unmet : Bool)
  | failing (code : String)
  | executing (version : Nat)
  | notifying
  | ended (failure : Option JoinFailure)

/-- A task of a join. -/
structure JoinTask where
  run : AgentTreeRun
  stage : TaskStage

/-- How the executor ends. -/
inductive TaskOutcome where
  | completed (result : Json) (contentRef fingerprint : String)
  | failed (errorCode : String)
  /-- The result says that the Run was canceled. -/
  | stopped
  /-- The task itself is canceled. -/
  | interrupted
  | suspended

/-- What bears on the next step of a task: how the executor ends, and whether the listener raises. -/
structure TaskChoice where
  outcome : TaskOutcome
  notified : Option PyError := none

/-- The repository, a join and its tasks. -/
structure JoinSystem where
  tree : AgentTreeState
  point : JoinPoint
  tasks : List JoinTask

namespace JoinSystem

/-- A join that begins. -/
def start (tree : AgentTreeState) : JoinSystem := ⟨tree, .begin, []⟩

/-- Go on behind a reading. -/
def reading {α : Type} (sys : JoinSystem) (x : Except (Fault PyError) α) (next : α → JoinPoint)
    (refused : Fault PyError → JoinPoint) : JoinSystem :=
  match x with
  | .ok a => { sys with point := next a }
  | .error e => { sys with point := refused e }

/-- Go on behind a call that may write. -/
def calling {α : Type} (sys : JoinSystem) (action : TreeAction α) (next : α → JoinPoint)
    (refused : Fault PyError → JoinPoint) : JoinSystem :=
  match action sys.tree with
  | (.ok a, tree) => { sys with tree, point := next a }
  | (.error e, tree) => { sys with tree, point := refused e }

/-- `get_run`. -/
def getRun (sys : JoinSystem) (id : RequiredText) : Except (Fault PyError) AgentTreeRun :=
  (sys.tree.requireRun id.text).mapError .raised

/-- The Run of a task has ended, and how. -/
def taskEnd (sys : JoinSystem) (id : RequiredText) : Option (Option JoinFailure) :=
  (sys.tasks.find? fun task => task.run.runId = id && match task.stage with
    | .ended _ => true
    | _ => false).bind fun task => match task.stage with
    | .ended failure => some failure
    | _ => none

end JoinSystem

/-- An error raised inside the `try`. -/
def JoinPoint.raised (error : Fault PyError) : JoinPoint :=
  .settle false (.failed (.raised error))

/-- An error raised before the `try`, or in the `finally`. -/
def JoinPoint.ended (error : Fault PyError) : JoinPoint := .done (.failed (.raised error))

/-- The code of an error. -/
def faultCode : Fault PyError → Option String
  | .raised (.contractViolation _ code _) => some code
  | _ => none

/-- The loop goes on, or is over. -/
def JoinPoint.again (locals : JoinLocals) : JoinPoint :=
  if locals.pending = [] then .last else .top locals

section

variable (call : JoinCall) (clock : Nat → Nat)

/-- What follows `_mark_waiting`. -/
def markedPoint (back : Option (JoinLocals × AgentRunAggregation)) (requester : AgentTreeRun) :
    JoinPoint :=
  match back with
  | none => .top ⟨requester.rootRunId, call.targets, [], []⟩
  | some (locals, aggregate) => .list locals aggregate

/-- What follows a refusal in `_mark_waiting`. -/
def markRefused (back : Option (JoinLocals × AgentRunAggregation)) (error : Fault PyError) :
    JoinPoint :=
  match back with
  | none => .ended error
  | some _ => .raised error

/-- `_mark_waiting`. -/
def markStep (sys : JoinSystem) (stage : MarkStage)
    (back : Option (JoinLocals × AgentRunAggregation)) : JoinSystem :=
  let id := call.requesterRunId.text
  match stage with
  | .mark => sys.calling (markWaiting clock id call.leaseOwnerId call.leaseEpoch)
      (markedPoint call back) fun error =>
        if faultCode error = some "agent_run_state_conflict" then .mark (.claim error) back
        else markRefused back error
  | .claim error => sys.reading
      ((sys.tree.requireRun id >>= fun run =>
        run.requireClaim (clock 0) call.leaseOwnerId call.leaseEpoch).mapError .raised)
      (fun _ => .mark (.look error) back) (markRefused back)
  | .look error => sys.reading (sys.getRun call.requesterRunId)
      (fun current => if current.status ≠ .waiting then markRefused back error
        else markedPoint call back current)
      (markRefused back)

/-- The tasks that are done, one after the other: the first that failed ends the join. -/
def collect (sys : JoinSystem) (locals : JoinLocals) : List RequiredText → JoinPoint
  | [] => .again locals
  | id :: done =>
    match sys.taskEnd id with
    | some (some .canceled) => .cancel call.targets
    | some (some (.raised error)) => .raised error
    | _ => collect sys { locals with
        active := locals.active.filter (· ≠ id)
        pending := locals.pending.filter (· ≠ id) } done

/-- The candidates that the join may claim. -/
def joinCandidates (locals : JoinLocals) (runs : List AgentTreeRun) : List AgentTreeRun :=
  runs.filter fun run => run.runId ∈ locals.pending && run.runId ∉ locals.attempted

/-- The next call of a join that has not been interrupted. -/
def joinStep (choice : JoinChoice) (sys : JoinSystem) : JoinSystem :=
  let id := call.requesterRunId
  match sys.point with
  | .begin =>
    if call.targets = [] then
      sys.reading (aggregateRuns id [] sys.tree) (fun aggregate => .done (.returned aggregate)) .ended
    else sys.reading (sys.getRun id) (fun requester => .target requester call.targets) .ended
  | .target requester [] => { sys with point := .enter requester }
  | .target requester (target :: left) =>
    sys.reading (sys.getRun target) (fun run => .dependency requester run.dependencyRunIds left) .ended
  | .dependency requester [] left => { sys with point := .target requester left }
  | .dependency requester (dependency :: dependencies) left =>
    sys.reading (sys.getRun dependency)
      (fun run =>
        if run.terminal = false ∧ dependency ∉ call.targets then
          .ended (.raised (treeViolation "agent_dependency_join_incomplete"
            "Join must include unfinished dependencies"))
        else .dependency requester dependencies left)
      .ended
  | .enter requester =>
    if requester.status = .waiting then
      sys.reading
        ((sys.tree.requireRun id.text >>= fun run =>
          run.requireClaim (clock 0) call.leaseOwnerId call.leaseEpoch).mapError .raised)
        (fun _ => .top ⟨requester.rootRunId, call.targets, [], []⟩) .ended
    else { sys with point := .mark .mark none }
  | .mark stage back => markStep call clock sys stage back
  | .top locals =>
    if choice.signaled then { sys with point := .cancel call.targets }
    else sys.reading (aggregateRuns id call.targets sys.tree)
      (fun aggregate => match choice.notified with
        | some error => .raised (.raised error)
        | none =>
          if aggregate.pendingRunIds = [] then .settle true (.returned aggregate)
          else .resumed { locals with pending := aggregate.pendingRunIds } aggregate)
      .raised
  | .resumed locals aggregate =>
    sys.reading (sys.getRun id)
      (fun requester => if requester.status = .running then .mark .mark (some (locals, aggregate))
        else .list locals aggregate)
      .raised
  | .list locals aggregate =>
    sys.reading ((listRunnable clock locals.rootRunId.text sys.tree).mapError .raised)
      (fun runs => .claim locals aggregate (joinCandidates locals runs)) .raised
  | .claim locals aggregate (run :: left) =>
    let next := sys.calling (claimRun clock run.runId.text call.ownerId.text call.leaseDurationMs)
      (fun claimed => match claimed with
        | none => .claim locals aggregate left
        | some claimed => .claim { locals with
            active := locals.active ++ [claimed.runId]
            attempted := locals.attempted ++ [claimed.runId] } aggregate left)
      .raised
    -- a claimed Run gets a task
    match (claimRun clock run.runId.text call.ownerId.text call.leaseDurationMs sys.tree).1 with
    | .ok (some claimed) => { next with tasks := next.tasks ++ [⟨claimed, .start⟩] }
    | _ => next
  | .claim locals aggregate [] =>
    if locals.active ≠ [] then { sys with point := .wait locals }
    else { sys with point := .stalled locals aggregate locals.attempted [] true }
  | .stalled locals aggregate blocked (candidate :: left) changed =>
    sys.reading (sys.getRun candidate)
      (fun run => if run.dependencyRunIds.any (· ∈ blocked)
        then .stalled locals aggregate (blocked ++ [candidate]) left true
        else .stalled locals aggregate blocked left changed)
      .raised
  | .stalled locals aggregate blocked [] changed =>
    let open_ := locals.pending.filter (· ∉ blocked)
    if changed ∧ open_ ≠ [] then
      { sys with point := .stalled locals aggregate blocked open_ false }
    else if open_ = [] then { sys with point := .settle true (.returned aggregate) }
    else { sys with point := .descendants locals }
  | .descendants locals =>
    sys.reading (listDescendants locals.rootRunId sys.tree)
      (fun runs => if runs.any (·.status = .running) then .again locals
        else .raised (.raised (treeViolation "agent_run_scheduler_stalled"
          "Child Run scheduler made no progress")))
      .raised
  | .wait locals =>
    if choice.signaled then { sys with point := .cancel call.targets }
    else
      let done := (locals.active.filter (· ∈ choice.observed)).filter fun run =>
        (sys.taskEnd run).isSome
      if done = [] then sys else { sys with point := collect call sys locals done }
  | .last =>
    sys.reading (aggregateRuns id call.targets sys.tree)
      (fun aggregate => match choice.notified with
        | some error => .raised (.raised error)
        | none => .settle true (.returned aggregate))
      .raised
  | .cancel (target :: left) =>
    sys.calling (cancelSubtree target.text) (fun _ => .cancel left) .raised
  | .cancel [] => { sys with point := .settle true (.failed .canceled) }
  | .settle joined outcome =>
    sys.reading (sys.getRun id)
      (fun current => if joined ∧ current.status = .waiting then .release outcome
        else .done outcome)
      .ended
  | .release outcome =>
    sys.calling (releaseWaiting clock id.text call.leaseOwnerId call.leaseEpoch)
      (fun _ => .done outcome) fun error =>
        if faultCode error = some "agent_run_state_conflict" ∨
            faultCode error = some "agent_capacity_exceeded" then .reclaim error outcome
        else .ended error
  | .reclaim error outcome =>
    sys.reading
      ((sys.tree.requireRun id.text >>= fun run =>
        run.requireClaim (clock 0) call.leaseOwnerId call.leaseEpoch).mapError .raised)
      (fun _ => .confirm error outcome) .ended
  | .confirm error outcome =>
    sys.reading (sys.getRun id)
      (fun current => if current.terminal then .ended error else .done outcome) .ended
  | .done _ => sys

/-- A cancellation of the join's own task, at the call it waits for. -/
def joinInterrupted (sys : JoinSystem) : JoinSystem :=
  match sys.point with
  | .begin | .target .. | .dependency .. | .enter _ | .mark _ none | .release _ | .reclaim _ _ |
    .confirm _ _ | .settle _ _ => { sys with point := .done (.failed .canceled) }
  | .mark _ (some _) | .top _ | .resumed .. | .list .. | .claim .. | .stalled .. | .descendants _ |
    .wait _ | .last => { sys with point := .cancel call.targets }
  | .cancel _ => { sys with point := .settle false (.failed .canceled) }
  | .done _ => sys

/-! ## The tasks -/

/-- A task behind a call: the listener is told, unless the call ends the task. -/
def JoinTask.behind {α : Type} (task : JoinTask) (tree : AgentTreeState) (action : TreeAction α)
    (next : TaskStage) : AgentTreeState × JoinTask :=
  match action tree with
  | (.ok _, tree) => (tree, { task with stage := next })
  | (.error e, tree) => (tree, { task with stage := .ended (some (.raised e)) })

/-- The next call of `_execute_claimed`. -/
def taskStep (choice : TaskChoice) (tree : AgentTreeState) (task : JoinTask) :
    AgentTreeState × JoinTask :=
  let run := task.run
  let owner := run.leaseOwnerId.map (·.text)
  let told := if call.listens then TaskStage.notifying else .ended none
  match task.stage with
  | .start =>
    match tree.requireAgent run.agentId.text with
    | .error e => (tree, { task with stage := .ended (some (.raised (.raised e))) })
    | .ok agent => match agent.contextCheckpointId with
      | none =>
        (tree, { task with stage := .dependencies agent.contextVersion run.dependencyRunIds false })
      | some id => (tree, { task with stage := .checkpoint agent.contextVersion id })
  | .checkpoint version id =>
    match tree.checkpoints.get? id.text with
    | none => (tree, { task with stage := .ended (some (.raised (.raised (treeViolation
        "agent_context_checkpoint_not_found" "context checkpoint does not exist")))) })
    | some _ => (tree, { task with stage := .dependencies version run.dependencyRunIds false })
  | .dependencies version (dependency :: left) unmet =>
    match tree.requireRun dependency.text with
    | .error e => (tree, { task with
        stage := .failing ((faultCode (.raised e)).getD "agent_execution_failed") })
    | .ok record =>
      (tree, { task with stage := .dependencies version left (unmet || record.status ≠ .done) })
  | .dependencies version [] unmet =>
    (tree, { task with stage := if unmet then .failing "agent_dependency_failed" else .executing version })
  | .failing code =>
    task.behind tree (failRun clock run.runId.text code owner (some run.leaseEpoch)) told
  | .executing version =>
    match choice.outcome with
    | .completed result contentRef fingerprint => task.behind tree
        (completeRun clock run.runId.text version result contentRef fingerprint owner
          (some run.leaseEpoch)) told
    | .failed code =>
      task.behind tree (failRun clock run.runId.text code owner (some run.leaseEpoch)) told
    | .stopped => task.behind tree (cancelSubtree run.runId.text) told
    | .interrupted => task.behind tree (cancelSubtree run.runId.text) (.ended (some .canceled))
    | .suspended =>
      task.behind tree (suspendRun clock run.runId.text owner (some run.leaseEpoch)) told
  | .notifying =>
    match aggregateRuns call.requesterRunId call.targets tree with
    | .error e => (tree, { task with stage := .ended (some (.raised e)) })
    | .ok _ => (tree, { task with
        stage := .ended (choice.notified.map fun error => .raised (.raised error)) })
  | .ended _ => (tree, task)

end

/-! ## The system -/

/-- Who makes the next call. -/
inductive JoinEvent where
  | join (choice : JoinChoice)
  | task (index : Nat) (choice : TaskChoice)
  | other (op : TreeOp)

namespace JoinSystem

/-- One event, at its clock readings. -/
def step (digest : Json → String) (call : JoinCall) (sys : JoinSystem)
    (event : (Nat → Nat) × JoinEvent) : JoinSystem :=
  match event.2 with
  | .join choice =>
    if choice.interrupted then joinInterrupted call sys else joinStep call event.1 choice sys
  | .task index choice =>
    match sys.tasks[index]? with
    | none => sys
    | some task =>
      let (tree, task) := taskStep call event.1 choice sys.tree task
      { sys with tree, tasks := sys.tasks.set index task }
  | .other op => { sys with tree := sys.tree.apply digest event.1 op }

end JoinSystem

end Purra
