import Purra.Lib.Rotation
import Purra.Core.Normalization

/-!
# The recovery worker

`RecoveryWorker` of `purra/worker.py`.  A scan discovers the Runs that may be resumed, visits a batch
of them in the order of the worker's queue and rotates the queue by the number of visits, however
the scan ends.

The callbacks belong to the host.  What they answer in one scan is a `ScanInput`: any of them may
raise, and `stop` may be set at any moment the worker looks at it.  The phases that `diagnostics`
reports are left out.
-/

namespace Purra

open Rotation

/-- How a callback ends that does not return: by an `Exception`, or by anything else, the
cancellation of the scan's task among them. -/
inductive Raised where
  | exception | cancellation
  deriving DecidableEq, Repr

/-- The action of a `RecoveryWorkerResult`. -/
inductive RecoveryAction where
  | blocked | settled | failed
  deriving DecidableEq, Repr

/-- `RecoveryWorkerResult`. -/
structure RecoveryWorkerResult where
  runId : String
  action : RecoveryAction
  reasons : List String := []
  deriving DecidableEq, Repr

/-- What the schedule of a worker offers: nothing, `ready`, or `check` as well. -/
inductive ScheduleKind where
  | absent | ready | check
  deriving DecidableEq, Repr

/-- The `outcome` of a scan. -/
inductive ScanOutcome where
  | interrupted | failed | stopped | complete
  deriving DecidableEq, Repr

/-- `_last_scan`. -/
structure ScanSummary where
  outcome : ScanOutcome
  candidates : Nat
  visited : Nat
  deferred : Nat
  blocked : Nat
  settled : Nat
  failed : Nat
  deriving DecidableEq, Repr

/-- `RecoveryWorker`, between two scans. -/
structure RecoveryWorker where
  limit : Option Nat
  schedule : ScheduleKind
  acknowledges : Bool
  queue : List String
  lastScan : Option ScanSummary
  deriving DecidableEq, Repr

/-- What the host answers about one candidate, in the order in which it is asked. -/
structure CandidateAnswers where
  stopBefore : Bool
  /-- `check`, or `ready`, which gives no reason. -/
  schedule : Except Raised (Option Int × Option String)
  /-- The blockers of the report. -/
  inspect : Except Raised (List String)
  stopBeforeResume : Bool
  resume : Except Raised Unit
  settle : Except Raised Unit

/-- What the host answers in one scan; `candidates n` is about the candidate of visit `n`. -/
structure ScanInput where
  discover : Except Raised (List String)
  candidates : Nat → CandidateAnswers
  stopAtEnd : Bool
  acknowledge : Except Raised Unit

/-- What a scan has done so far; `visits` are the candidates it has visited. -/
structure ScanProgress where
  results : List RecoveryWorkerResult := []
  processed : List String := []
  visits : List String := []

/-- How the inspection and the resumption of a candidate end. -/
inductive Attempt where
  | result (result : RecoveryWorkerResult)
  | stopped
  | raised (r : Raised)

namespace RecoveryWorker

/-- `__init__`. -/
def new (limit : Option Nat) (schedule : ScheduleKind) (acknowledges : Bool) :
    Except PyError RecoveryWorker :=
  if limit.any (fun n => n = 0 || 2147483647 < n) = true then
    .error (.valueError "max_runs_per_scan must be a positive 32-bit integer")
  else .ok ⟨limit, schedule, acknowledges, [], none⟩

/-- The revision the schedule knows the candidate by, or the reason why it has to wait. -/
def eligibility (worker : RecoveryWorker) (answers : CandidateAnswers) :
    Except Raised (Option Int × String) :=
  match worker.schedule with
  | .absent => .ok (some 0, "retry_not_due")
  | .ready => answers.schedule.map fun p => (p.1, "retry_not_due")
  | .check => answers.schedule.map fun p =>
      (p.1, (p.2.filter fun reason => reason ≠ "").getD "retry_not_due")

/-- The inspection and the resumption of a candidate; an `Exception` of either is its result. -/
def attempt (runId : String) (answers : CandidateAnswers) : Attempt :=
  match answers.inspect with
  | .error .exception => .result ⟨runId, .failed, ["inspection_failed"]⟩
  | .error .cancellation => .raised .cancellation
  | .ok reasons =>
    if reasons ≠ [] then .result ⟨runId, .blocked, reasons⟩
    else if answers.stopBeforeResume then .stopped
    else match answers.resume with
      | .error .exception => .result ⟨runId, .failed, ["resume_failed"]⟩
      | .error .cancellation => .raised .cancellation
      | .ok () => .result ⟨runId, .settled, []⟩

/-- The schedule is told how an attempt ended. -/
def settle (worker : RecoveryWorker) (answers : CandidateAnswers) : Except Raised Unit :=
  match worker.schedule with
  | .absent => .ok ()
  | _ => answers.settle

/-- The loop of `_scan` over its batch, and what it raises if it does. -/
def visitBatch (worker : RecoveryWorker) (candidates : Nat → CandidateAnswers) :
    List String → ScanProgress → ScanProgress × Option Raised
  | [], progress => (progress, none)
  | runId :: batch, progress =>
    let answers := candidates progress.visits.length
    if answers.stopBefore then (progress, none)
    else
      let progress := { progress with visits := progress.visits ++ [runId] }
      match worker.eligibility answers with
      | .error r => (progress, some r)
      | .ok (none, reason) =>
        visitBatch worker candidates batch { progress with
          results := progress.results ++ [⟨runId, .blocked, [reason]⟩]
          processed := progress.processed ++ [runId] }
      | .ok (some _, _) =>
        match attempt runId answers with
        | .raised r => (progress, some r)
        | .stopped => (progress, none)
        | .result result =>
          let progress := { progress with results := progress.results ++ [result] }
          match worker.settle answers with
          | .error r => (progress, some r)
          | .ok () =>
            visitBatch worker candidates batch { progress with
              processed := progress.processed ++ [runId] }

/-- The queue once the found candidates are in. -/
def discovered (worker : RecoveryWorker) (found : List String) : List String :=
  if worker.acknowledges then Dict.fromKeys found
  else refill worker.queue (Dict.fromKeys found)

/-- The candidates a scan may visit. -/
def batch (worker : RecoveryWorker) (queue : List String) : List String :=
  match worker.limit with
  | some limit => queue.take limit
  | none => queue

/-- `_finish_scan`. -/
def finishScan (worker : RecoveryWorker) (queue : List String) (outcome : ScanOutcome)
    (candidates : Nat) (progress : ScanProgress) : RecoveryWorker :=
  let visited := progress.visits.length
  let count (action : RecoveryAction) := progress.results.countP fun r => r.action = action
  { worker with
    queue := rotate visited queue
    lastScan := some ⟨outcome, candidates, visited, candidates - visited, count .blocked,
      count .settled, count .failed⟩ }

/-- The outcome of a scan that raised, or was asked at its end whether to stop. -/
def outcomeOf (stopAtEnd : Bool) : Option Raised → ScanOutcome
  | none => if stopAtEnd then .stopped else .complete
  | some .exception => .failed
  | some .cancellation => .interrupted

/-- What a scan has done before it is acknowledged: its queue, its progress, and what it raised. -/
def visitAll (worker : RecoveryWorker) (input : ScanInput) :
    List String × ScanProgress × Option Raised :=
  match input.discover with
  | .error r => (worker.queue, {}, some r)
  | .ok found =>
    let queue := worker.discovered found
    (queue, worker.visitBatch input.candidates (worker.batch queue) {})

/-- The candidates a scan visits, in order. -/
def visits (worker : RecoveryWorker) (input : ScanInput) : List String :=
  (worker.visitAll input).2.1.visits

/-- What the acknowledgement raises.  It is not made when nothing was discovered. -/
def acknowledgement (worker : RecoveryWorker) (input : ScanInput) : Option Raised :=
  match worker.acknowledges, input.discover, input.acknowledge with
  | true, .ok _, .error r => some r
  | _, _, _ => none

/-- `_scan`: the worker afterwards, and the results or what was raised. -/
def scan (worker : RecoveryWorker) (input : ScanInput) :
    RecoveryWorker × Except Raised (List RecoveryWorkerResult) :=
  let (queue, progress, raised) := worker.visitAll input
  let candidates := if input.discover.toOption.isSome then queue.length else 0
  match worker.acknowledgement input with
  | some r => (worker.finishScan queue .failed candidates progress, .error r)
  | none =>
    (worker.finishScan queue (outcomeOf input.stopAtEnd raised) candidates progress,
      match raised with
      | some r => .error r
      | none => .ok progress.results)

/-- The worker after a scan. -/
def next (worker : RecoveryWorker) (input : ScanInput) : RecoveryWorker := (worker.scan input).1

end RecoveryWorker

end Purra
