import Purra.LongTask.Rejections
import Purra.LongTask.Terminal
import Purra.LongTask.Terms

/-!
# When a budget stops a task

A claim asks first whether an allowance of the task is used up, and stops the task
if one is.  A task whose Runs reported everything and stayed below every limit
should not notice its limits.  It does when no Run has reported yet and reasoning
tokens are limited: the usage a task starts from has no reasoning tokens, and this
reads as a report that left them out.

* `booked_reachable` — the usage of every task of every run is the sum over its Runs,
  or the default usage before the first report.
* `Unhindered` — a claim does what it would do without any limit.
* `unhindered_iff` — **a claim on such a task is unhindered, unless it looks at the budget before
  the first report of a task that limits its reasoning tokens**.
-/

namespace Purra

open StoredLongTask LongTaskRepository

/-! ## The usage of a task -/

variable {task : StoredLongTask}

theorem booked_of_account {task' : StoredLongTask} (h : task'.account = task.account)
    (hbooked : task.Booked) : task'.Booked := by
  have hspent := congrArg Prod.snd h
  have husages : task'.usageByRun = task.usageByRun := congrArg Prod.fst hspent
  have husage : task'.record.usage = task.record.usage := congrArg Prod.snd hspent
  unfold StoredLongTask.Booked
  rw [husages, husage]
  exact hbooked

theorem TaskEvent.booked_apply (e : TaskEvent) (now : Int) (task : StoredLongTask)
    (h : task.Booked) : (e.apply now task).Booked := by
  rcases e.account_apply now task with haccount | ⟨run, usage, haccount⟩
  · exact booked_of_account haccount h
  · exact booked_of_account haccount (booked_withUsage task run usage)

theorem booked_reachable {pyStr : Json → String} (run : List (Int × LongTaskOp)) :
    (exec (LongTaskState.step pyStr) .empty run).All StoredLongTask.Booked :=
  all_of_run (fun _ _ => rfl) (fun now e task => e.booked_apply now task) run (all_empty _)

/-- Every quantity is reported. -/
def LongTaskUsage.Complete (usage : LongTaskUsage) : Prop :=
  usage.unreportedUsageAttempts = 0 ∧ usage.reasoningTokens.isSome = true

/-- What the Runs spent together is strictly below every limit that is set. -/
structure BelowLimits (usages : List LongTaskUsage) (limits : LongTaskBudgetLimits) : Prop where
  invocations : ∀ max, limits.maxInvocationAttempts = some max →
    (usages.map (·.invocationCount)).sum < max
  input : ∀ max, limits.maxInputTokens = some max → (usages.map (·.inputTokens)).sum < max
  generation : ∀ max, limits.maxRunGenerationTokens = some max →
    (usages.map (·.generationTokens)).sum < max
  reasoning : ∀ max, limits.maxReasoningTokens = some max →
    (usages.map (·.reasoningTokens.getD 0)).sum < max

/-- Reasoning tokens are limited, and no Run has reported a usage yet. -/
def StoredLongTask.awaitsReasoning (task : StoredLongTask) : Prop :=
  task.record.budgetLimits.maxReasoningTokens.isSome = true ∧ task.usageByRun.entries = []

theorem limitReached_of_lt {value : Option Nat} {limit : Option Nat} {sum : Nat}
    (hvalue : ∀ v, value = some v → v = sum) (hlt : ∀ max, limit = some max → sum < max) :
    limitReached false value limit = false := by
  cases value with
  | none => rfl
  | some v =>
    cases limit with
    | none => rfl
    | some max =>
      have hv := hvalue v rfl
      have hmax := hlt max rfl
      unfold limitReached
      simp only [Bool.not_false, Bool.true_and, Bool.or_eq_false_iff, decide_eq_false_iff_not]
      omega

theorem budgetExhaustion_eq_none {usage : LongTaskUsage} {limits : LongTaskBudgetLimits}
    {usages : List LongTaskUsage} (hlimits : BelowLimits usages limits)
    (hreported : usage.unreportedUsageAttempts = 0)
    (hinvocations : usage.invocationCount = (usages.map (·.invocationCount)).sum)
    (hinput : usage.inputTokens = (usages.map (·.inputTokens)).sum)
    (hgeneration : usage.generationTokens = (usages.map (·.generationTokens)).sum)
    (hreasoning : ∀ v, usage.reasoningTokens = some v →
      v = (usages.map (·.reasoningTokens.getD 0)).sum)
    (hlimited : limits.maxReasoningTokens.isSome = true → usage.reasoningTokens ≠ none) :
    budgetExhaustion false usage limits = none := by
  have h₁ : limitReached false (some usage.invocationCount) limits.maxInvocationAttempts = false :=
    limitReached_of_lt (fun v hv => (Option.some.inj hv).symm.trans hinvocations)
      hlimits.invocations
  have h₂ : limitReached false (some usage.inputTokens) limits.maxInputTokens = false :=
    limitReached_of_lt (fun v hv => (Option.some.inj hv).symm.trans hinput) hlimits.input
  have h₃ : limitReached false (some usage.generationTokens) limits.maxRunGenerationTokens =
      false :=
    limitReached_of_lt (fun v hv => (Option.some.inj hv).symm.trans hgeneration)
      hlimits.generation
  have h₄ : limitReached false usage.reasoningTokens limits.maxReasoningTokens = false :=
    limitReached_of_lt hreasoning hlimits.reasoning
  unfold budgetExhaustion
  rw [if_neg (fun h => h.1 hreported), if_neg (fun h => hlimited h.1 h.2), h₁, h₂, h₃, h₄]
  rfl

/-- Below every limit, the budget counts as used up only by a task that awaits its first report of
reasoning tokens. -/
theorem taskBudgetExhaustion_eq_none_iff (hbooked : task.Booked)
    (hcomplete : ∀ usage ∈ task.usageByRun.values, usage.Complete)
    (hlimits : BelowLimits task.usageByRun.values task.record.budgetLimits) :
    task.taskBudgetExhaustion false = none ↔ ¬ task.awaitsReasoning := by
  unfold StoredLongTask.taskBudgetExhaustion StoredLongTask.awaitsReasoning
  unfold StoredLongTask.Booked at hbooked
  by_cases hnone : task.usageByRun.entries = []
  · rw [if_pos hnone] at hbooked
    have hvalues : task.usageByRun.values = [] := by
      unfold Dict.values
      rw [hnone]
      rfl
    rw [hvalues] at hlimits
    rw [hbooked]
    by_cases hlimited : task.record.budgetLimits.maxReasoningTokens.isSome = true
    · refine iff_of_false (fun h => ?_) (not_not.2 ⟨hlimited, hnone⟩)
      unfold budgetExhaustion at h
      rw [if_neg (fun hz => hz.1 rfl), if_pos ⟨hlimited, rfl⟩] at h
      cases h
    · refine iff_of_true ?_ fun h => hlimited h.1
      exact budgetExhaustion_eq_none hlimits rfl rfl rfl rfl (fun v hv => by cases hv)
        fun h => absurd h hlimited
  · rw [if_neg hnone] at hbooked
    have hsome : task.usageByRun.values.any (·.reasoningTokens = none) = false := by
      refine List.any_eq_false.2 fun usage husage hzero => ?_
      have hreasoning := (hcomplete usage husage).2
      rw [of_decide_eq_true hzero] at hreasoning
      cases hreasoning
    have hreasoning : (aggregateUsage task.usageByRun.values).reasoningTokens =
        some (task.usageByRun.values.map (·.reasoningTokens.getD 0)).sum := by
      unfold aggregateUsage
      simp only [hsome, Bool.false_eq_true, if_false]
    rw [hbooked]
    refine iff_of_true ?_ fun h => hnone h.2
    refine budgetExhaustion_eq_none hlimits ?_ rfl rfl rfl (fun v hv => ?_) fun _ => ?_
    · show (task.usageByRun.values.map (·.unreportedUsageAttempts)).sum = 0
      refine List.sum_eq_zero fun n hn => ?_
      obtain ⟨usage, husage, rfl⟩ := List.mem_map.1 hn
      exact (hcomplete usage husage).1
    · rw [hreasoning] at hv
      exact (Option.some.inj hv).symm
    · rw [hreasoning]
      exact Option.some_ne_none _

/-! ## The same claim without limits -/

/-- The task without its limits. -/
def StoredLongTask.unlimited (task : StoredLongTask) : StoredLongTask :=
  { task with record := { task.record with budgetLimits := {} } }

/-- A call answers, and leaves behind, what it would if the task had no limits. -/
def Unhindered (now : Int) (op : TaskOp) (task : StoredLongTask) : Prop :=
  op.reply now task.unlimited = op.reply now task ∧
    op.apply now task.unlimited = (op.apply now task).unlimited

/-- `m` does the same from `task` with and without its limits. -/
def Blind {α : Type} (m : TaskAction α) (task : StoredLongTask) : Prop :=
  m task.unlimited = ((m task).1, (m task).2.unlimited)

section

variable {α β : Type} {m : TaskAction α} {task : StoredLongTask} {now : Int}

theorem blind_pure (a : α) : Blind (pure a : TaskAction α) task := rfl

theorem blind_write {g : StoredLongTask → StoredLongTask}
    (hg : g task.unlimited = (g task).unlimited) : Blind (Action.write g : TaskAction Unit) task :=
  congrArg (Prod.mk _) hg

theorem blind_bind {f : α → TaskAction β} (hm : Blind m task)
    (hf : ∀ a, Blind (f a) (m.final task)) : Blind (m >>= f) task := by
  unfold Blind Action.final at *
  rw [Action.bind_apply, Action.bind_apply, hm]
  rcases h : m task with ⟨r, task'⟩
  rw [h] at hf
  cases r with
  | error e => rfl
  | ok a => exact hf a

theorem blind_read_bind {f : StoredLongTask → TaskAction β} (hsame : f task.unlimited = f task)
    (hf : Blind (f task) task) : Blind (Action.read >>= f) task := by
  unfold Blind
  rw [Action.read_bind_apply, Action.read_bind_apply, hsame]
  exact hf

theorem blind_ite {c : Prop} [Decidable c] {m' : TaskAction α} (hm : c → Blind m task)
    (hm' : ¬ c → Blind m' task) : Blind (if c then m else m') task := by
  split
  · exact hm ‹_›
  · exact hm' ‹_›

theorem blind_setStatus (status : LongTaskStatus) : Blind (TaskAction.setStatus status) task :=
  blind_read_bind rfl (blind_ite (fun _ => blind_pure _) fun _ =>
    blind_bind (blind_write rfl) fun _ => blind_write rfl)

theorem blind_refreshTotals : Blind TaskAction.refreshTotals task := by
  have hrequired : task.unlimited.hasRequired = task.hasRequired := rfl
  unfold Blind
  rw [TaskAction.refreshTotals_apply, TaskAction.refreshTotals_apply, hrequired]
  split <;> rfl

theorem blind_closeWith (f : String → LongTaskUnitRecord → LongTaskUnitRecord)
    (status : LongTaskStatus) : Blind (TaskAction.closeWith f status) task :=
  blind_bind (blind_write rfl) fun _ => blind_bind blind_refreshTotals fun _ =>
    blind_setStatus status

theorem blind_grantUnit (unitId : Option String) (worker : String) (duration : Int) :
    Blind (grantUnit now unitId worker duration) task := by
  refine blind_read_bind rfl (blind_ite (fun _ => blind_pure _) fun _ => ?_)
  cases (candidates task).find? fun unit =>
      unitId.all (unit.id = ·) && task.claimable now unit with
  | none => exact blind_pure _
  | some unit =>
    exact blind_bind (blind_write rfl) fun _ => blind_bind (blind_write rfl) fun _ => blind_pure _

theorem taskBudgetExhaustion_unlimited (task : StoredLongTask) (exceededOnly : Bool) :
    task.unlimited.taskBudgetExhaustion exceededOnly = none := by
  unfold StoredLongTask.taskBudgetExhaustion StoredLongTask.unlimited budgetExhaustion limitReached
  simp

/-- What a claim does on a running task without a pending cancellation, once the deadline and the
budget are found to leave room. -/
def claimRunning (now : Int) (unitId : Option String) (worker : String) (duration : Int)
    (task : StoredLongTask) : TaskAction (Option LongTaskUnitRecord) := do
  TaskAction.updateUnits fun _ unit => unit.normalizeExpired now
  match task.units.entries.find? fun p => p.2.exhausted now && p.2.required with
  | some p => do
    TaskAction.failTask p.1
    pure none
  | none =>
    if task.units.values.any (·.exhausted now) then do
      TaskAction.touch
      grantUnit now unitId worker duration
    else grantUnit now unitId worker duration

theorem claimUnitLocked_of_none (hbudget : task.taskBudgetExhaustion false = none)
    (hd : task.deadlineElapsed now = false) (unitId : Option String) (worker : String)
    (duration : Int) :
    claimUnitLocked now unitId worker duration task =
      (if task.record.status ≠ .running ∨ task.record.cancellationRequestedAtMs.isSome then
        pure none
      else claimRunning now unitId worker duration task) task := by
  unfold claimUnitLocked
  rw [Action.read_bind_apply, hbudget, if_neg (by simp [hd])]
  rfl

theorem blind_claimRunning (unitId : Option String) (worker : String) (duration : Int) :
    Blind (claimRunning now unitId worker duration task) task := by
  refine blind_bind (blind_write rfl) fun _ => ?_
  cases task.units.entries.find? fun p => p.2.exhausted now && p.2.required with
  | some p => exact blind_bind (blind_closeWith _ _) fun _ => blind_pure _
  | none =>
    exact blind_ite (fun _ => blind_bind (blind_write rfl) fun _ => blind_grantUnit _ _ _)
      fun _ => blind_grantUnit _ _ _

theorem blind_claimUnitLocked (h : task.deadlineElapsed now = false →
    task.taskBudgetExhaustion false = none) (unitId : Option String) (worker : String)
    (duration : Int) : Blind (claimUnitLocked now unitId worker duration) task := by
  cases hd : task.deadlineElapsed now with
  | true =>
    have hd' : task.unlimited.deadlineElapsed now = true := hd
    unfold Blind claimUnitLocked
    rw [Action.read_bind_apply, Action.read_bind_apply, if_pos hd, if_pos hd']
    exact blind_bind (blind_closeWith _ _) fun _ => blind_pure _
  | false =>
    have hd' : task.unlimited.deadlineElapsed now = false := hd
    unfold Blind
    rw [claimUnitLocked_of_none (h hd) hd,
      claimUnitLocked_of_none (taskBudgetExhaustion_unlimited task false) hd']
    have hsame : claimRunning now unitId worker duration task.unlimited =
        claimRunning now unitId worker duration task := rfl
    rw [hsame]
    exact blind_ite (fun _ => blind_pure none) fun _ => blind_claimRunning unitId worker duration

/-! ## A claim that a limit stops -/

theorem status_claimRunning
    (hfind : (task.units.entries.find? fun p => p.2.exhausted now && p.2.required) = none)
    (unitId : Option String) (worker : String) (duration : Int) :
    ((claimRunning now unitId worker duration task).final task).record.status =
      task.record.status := by
  have hgrant : ∀ t : StoredLongTask,
      ((grantUnit now unitId worker duration).final t).record.status = t.record.status := by
    intro t
    unfold grantUnit
    rw [Action.final_read_bind, Action.final_ite]
    split
    · rfl
    · split <;> rfl
  unfold claimRunning
  rw [TaskAction.final_updateUnits_bind, hfind]
  simp only
  rw [Action.final_ite]
  split
  · exact hgrant _
  · exact hgrant _

theorem errorCode_failBudget {k : String} {unit : LongTaskUnitRecord}
    (hget : task.units.get? k = some unit) (hopen : ¬ unit.status.terminal = true)
    (kind : String) :
    (((TaskAction.failBudget kind).final task).units.get? k).bind (·.errorCode) =
      some "runtime_budget_exceeded" := by
  unfold TaskAction.failBudget
  rw [Action.final_read_bind]
  cases task.record.budgetExhaustionDisposition with
  | pauseRecoverable =>
    simp only [TaskAction.units_closeWith, Dict.get?_map, hget, Option.map_some,
      Option.bind_some]
    unfold LongTaskUnitRecord.budgetBlocked
    rw [if_neg hopen]
  | failPermanent =>
    simp only [TaskAction.units_closeWith, Dict.get?_map, hget, Option.map_some,
      Option.bind_some]
    unfold LongTaskUnitRecord.budgetFailed
    rw [if_neg hopen]

theorem errorCode_claimRunning {k : String} {unit : LongTaskUnitRecord}
    (hfind : (task.units.entries.find? fun p => p.2.exhausted now && p.2.required) =
      some (k, unit)) (unitId : Option String) (worker : String) (duration : Int) :
    (((claimRunning now unitId worker duration task).final task).units.get? k).bind (·.errorCode) =
      some "lease_expired_attempts_exhausted" := by
  have hget := Dict.mem_entries_iff.1 (List.mem_of_find?_eq_some hfind)
  have hexhausted := List.find?_some hfind
  simp only [Bool.and_eq_true] at hexhausted
  unfold claimRunning
  rw [TaskAction.final_updateUnits_bind, hfind]
  simp only
  rw [TaskAction.final_bind_pure]
  unfold TaskAction.failTask
  simp only [TaskAction.units_closeWith, Dict.get?_map, hget, Option.map_some, if_true,
    Option.bind_some]
  unfold LongTaskUnitRecord.normalizeExpired
  rw [if_pos hexhausted.1]

theorem raises_closeWith {f : String → LongTaskUnitRecord → LongTaskUnitRecord}
    (hf : ∀ k unit, (f k unit).required = unit.required) (status : LongTaskStatus)
    (h : ¬ task.hasRequired = true) :
    ∃ e task', TaskAction.closeWith f status task = (.error e, task') := by
  have hmapped : ¬ StoredLongTask.hasRequired { task with units := task.units.map f } = true := by
    rwa [hasRequired_map hf task]
  refine ⟨.valueError "long task record total_units must be positive",
    { task with units := task.units.map f }, ?_⟩
  unfold TaskAction.closeWith TaskAction.updateUnits
  rw [Action.write_bind_apply, Action.bind_apply, TaskAction.refreshTotals_apply, if_neg hmapped]

theorem raises_failBudget (h : ¬ task.hasRequired = true) (kind : String) :
    ∃ e task', TaskAction.failBudget kind task = (.error e, task') := by
  unfold TaskAction.failBudget
  rw [Action.read_bind_apply]
  cases task.record.budgetExhaustionDisposition with
  | pauseRecoverable =>
    exact raises_closeWith (fun _ unit => (unit.halted_budgetBlocked kind).required) _ h
  | failPermanent =>
    exact raises_closeWith (fun _ unit => (unit.halted_budgetFailed kind).required) _ h

theorem returns_claimRunning (unitId : Option String) (worker : String) (duration : Int) :
    Returns (claimRunning now unitId worker duration task) task := by
  have hgrant : ∀ t : StoredLongTask, Returns (grantUnit now unitId worker duration) t := by
    intro t
    refine returns_read_bind (returns_ite (returns_pure _) ?_)
    cases (candidates t).find? fun unit => unitId.all (unit.id = ·) && t.claimable now unit with
    | none => exact returns_pure _
    | some unit =>
      exact returns_bind (returns_write _) fun _ => returns_bind (returns_write _) fun _ =>
        returns_pure _
  refine returns_bind (returns_write _) fun _ => ?_
  cases hfind : task.units.entries.find? fun p => p.2.exhausted now && p.2.required with
  | some p =>
    refine returns_bind (returns_failTask p.1 ?_) fun _ => returns_pure _
    have hp := List.find?_some hfind
    rw [Bool.and_eq_true] at hp
    have hmem := List.mem_of_find?_eq_some hfind
    refine (hasRequired_map (fun _ unit => (unit.kept_normalizeExpired now).required) task).trans ?_
    exact List.any_eq_true.2 ⟨p.2, List.mem_map_of_mem hmem, hp.2⟩
  | none =>
    exact returns_ite (returns_bind (returns_write _) fun _ => hgrant _) (hgrant _)

/-- The limits show in the claim that an exhausted budget stops. -/
theorem not_blind_claimUnitLocked {kind : String}
    (hbudget : task.taskBudgetExhaustion false = some kind)
    (hd : task.deadlineElapsed now = false) (hrunning : task.record.status = .running)
    (unitId : Option String) (worker : String) (duration : Int) :
    ¬ Blind (claimUnitLocked now unitId worker duration) task := by
  intro hblind
  have hlimited : claimUnitLocked now unitId worker duration task =
      (TaskAction.failBudget kind >>= fun _ => pure none) task := by
    unfold claimUnitLocked
    rw [Action.read_bind_apply, hbudget, if_neg (by simp [hd])]
  have hd' : task.unlimited.deadlineElapsed now = false := hd
  have hfree := claimUnitLocked_of_none (taskBudgetExhaustion_unlimited task false) hd' unitId
    worker duration
  have hfinal : (claimUnitLocked now unitId worker duration).final task =
      (TaskAction.failBudget kind).final task := by
    unfold Action.final
    rw [hlimited]
    exact TaskAction.final_bind_pure _ _ task
  unfold Blind at hblind
  by_cases hrequired : task.hasRequired = true
  · -- the status tells the two claims apart, or the unit whose lease lapsed does
    have hstopped : ((TaskAction.failBudget kind).final task).record.status ≠ .running := by
      intro hstatus
      have hsame := (status_failBudget_iff task task rfl rfl rfl kind).1
        (hstatus.trans hrunning.symm)
      refine hsame ⟨hrequired, ?_⟩
      rw [hrunning]
      cases task.record.budgetExhaustionDisposition <;> decide
    have hleft : (claimUnitLocked now unitId worker duration).final task.unlimited =
        ((TaskAction.failBudget kind).final task).unlimited := by
      rw [← hfinal]
      exact congrArg Prod.snd hblind
    unfold Action.final at hleft
    rw [hfree] at hleft
    by_cases hidle : task.unlimited.record.status ≠ .running ∨
        task.unlimited.record.cancellationRequestedAtMs.isSome = true
    · rw [if_pos hidle] at hleft
      exact hstopped ((congrArg (fun t => t.record.status) hleft).symm.trans hrunning)
    · rw [if_neg hidle] at hleft
      cases hfind : task.units.entries.find? fun p => p.2.exhausted now && p.2.required with
      | none =>
        have hfind' : (task.unlimited.units.entries.find? fun p =>
            p.2.exhausted now && p.2.required) = none := hfind
        have hstatus := status_claimRunning hfind' unitId worker duration
        unfold Action.final at hstatus
        rw [hleft] at hstatus
        exact hstopped (hstatus.trans hrunning)
      | some p =>
        obtain ⟨k, unit⟩ := p
        have hget : task.units.get? k = some unit :=
          Dict.mem_entries_iff.1 (List.mem_of_find?_eq_some hfind)
        have hexhausted := List.find?_some hfind
        simp only [Bool.and_eq_true] at hexhausted
        have hopen : ¬ unit.status.terminal = true := by
          intro hterminal
          have hactive := LongTaskUnitRecord.active_of_exhausted hexhausted.1
          rw [LongTaskUnitStatus.not_active_of_terminal hterminal] at hactive
          cases hactive
        have hfind' : (task.unlimited.units.entries.find? fun p =>
            p.2.exhausted now && p.2.required) = some (k, unit) := hfind
        have hlapsed := errorCode_claimRunning hfind' unitId worker duration
        unfold Action.final at hlapsed
        rw [hleft] at hlapsed
        have hspent := errorCode_failBudget hget hopen kind
        have heq := hlapsed.symm.trans hspent
        exact absurd (Option.some.inj heq) (by decide)
  · -- the totals raise after the units were stopped
    have hreturns : Returns (claimUnitLocked now unitId worker duration) task.unlimited := by
      unfold Returns
      rw [hfree]
      exact returns_ite (returns_pure none) (returns_claimRunning unitId worker duration)
    obtain ⟨a, ha⟩ := hreturns
    obtain ⟨e, task', herror⟩ := raises_failBudget hrequired kind
    rw [hblind] at ha
    simp only at ha
    rw [hlimited, Action.bind_apply, herror] at ha
    cases ha

end

/-! ## Every run -/

variable {pyStr : Json → String}

theorem unhindered_claimUnit_iff {now : Int} {unitId : Option String}
    {workerId worker : String} {duration : Int}
    (hclaim : LongTaskRepository.claimUnit now unitId workerId duration =
      .ok (claimUnitLocked now (unitId.map strip) worker duration)) :
    Unhindered now (.claimUnit unitId workerId duration) task ↔
      Blind (claimUnitLocked now (unitId.map strip) worker duration) task := by
  have hmethod : (TaskOp.claimUnit unitId workerId duration).method now =
      (LongTaskRepository.claimUnit now unitId workerId duration).map
        (LongTaskReply.claimed <$> ·) := rfl
  rw [hclaim] at hmethod
  unfold Unhindered TaskOp.reply TaskOp.apply Blind
  rw [hmethod]
  simp only [Except.map, Action.final_map, Action.fst_map]
  generalize claimUnitLocked now (unitId.map strip) worker duration = m
  constructor
  · rintro ⟨hreply, hleft⟩
    refine Prod.ext ?_ hleft
    cases h : (m task.unlimited).1 <;> cases h' : (m task).1 <;> simp_all [Except.map]
  · intro h
    unfold Action.final
    rw [h]
    exact ⟨rfl, rfl⟩

/-- A claim with an elapsed deadline or with bad arguments never looks at the budget. -/
theorem unhindered_of_refused {now : Int} {workerId : String} {duration : Int}
    (h : ¬ (task.deadlineElapsed now = false ∧ ClaimArguments none workerId duration)) :
    Unhindered now (.claimUnit none workerId duration) task := by
  rcases claimUnit_cases now none workerId duration with ⟨harguments, hclaim⟩ | ⟨-, e, herror⟩
  · rw [unhindered_claimUnit_iff hclaim]
    exact blind_claimUnitLocked (fun hd => absurd ⟨hd, harguments⟩ h) _ _ _
  · have hmethod : (TaskOp.claimUnit none workerId duration).method now =
        (LongTaskRepository.claimUnit now none workerId duration).map
          (LongTaskReply.claimed <$> ·) := rfl
    rw [herror] at hmethod
    unfold Unhindered TaskOp.reply TaskOp.apply
    rw [hmethod]
    exact ⟨rfl, rfl⟩

/-- **Budgets stop only exhausted tasks, where they do.**  In every reachable repository, take a
running task whose Runs reported every quantity and stayed below every limit together.  A claim
does what it would do without any limit, unless reasoning tokens are limited, no Run has reported a
usage yet, the deadline has not elapsed and the arguments of the claim are good. -/
theorem unhindered_iff {run : List (Int × LongTaskOp)} {k : String} {task : StoredLongTask}
    (hget : (exec (LongTaskState.step pyStr) .empty run).tasks.get? k = some task)
    (hrunning : task.record.status = .running)
    (hcomplete : ∀ usage ∈ task.usageByRun.values, usage.Complete)
    (hlimits : BelowLimits task.usageByRun.values task.record.budgetLimits) (now : Int)
    (workerId : String) (duration : Int) :
    Unhindered now (.claimUnit none workerId duration) task ↔
      ¬ ((task.record.budgetLimits.maxReasoningTokens.isSome = true ∧
          task.usageByRun.entries = []) ∧
        task.deadlineElapsed now = false ∧ ClaimArguments none workerId duration) := by
  have hexhaustion := taskBudgetExhaustion_eq_none_iff (booked_reachable run k task hget)
    hcomplete hlimits
  by_cases hasks : task.deadlineElapsed now = false ∧ ClaimArguments none workerId duration
  · simp only [hasks, and_self, and_true]
    rcases claimUnit_cases now none workerId duration with ⟨-, hclaim⟩ | ⟨hrefused, -⟩
    · rw [unhindered_claimUnit_iff hclaim, ← StoredLongTask.awaitsReasoning, ← hexhaustion]
      cases hbudget : task.taskBudgetExhaustion false with
      | none => exact iff_of_true (blind_claimUnitLocked (fun _ => hbudget) _ _ _) rfl
      | some kind =>
        exact iff_of_false (not_blind_claimUnitLocked hbudget hasks.1 hrunning _ _ _) (by simp)
    · exact absurd hasks.2 hrefused
  · exact iff_of_true (unhindered_of_refused hasks) fun h => hasks h.2

/-- A running task of one unit that may use five reasoning tokens. -/
def reasoningRun : List (Int × LongTaskOp) :=
  [(0, .create "t" { soloCommand none with budgetLimits := { maxReasoningTokens := some 5 } }),
    (1, .onTask "t" (.start 1))]

/-- What one Run reported. -/
def someUsage : LongTaskUsage := ⟨1, 0, 1, 1, some 1, by decide⟩

theorem unhindered_reasoningRun :
    ∃ task, (exec (LongTaskState.step noStr) .empty (reasoningRun ++
        [(2, .onTask "t" (.recordUsage "r" someUsage 2))])).tasks.get? "t" = some task ∧
      Unhindered 3 (.claimUnit none "w" 10) task := by
  have hstored : ((exec (LongTaskState.step noStr) .empty (reasoningRun ++
      [(2, .onTask "t" (.recordUsage "r" someUsage 2))])).tasks.get? "t").map (fun task =>
        (task.record.status, task.usageByRun.entries, task.record.budgetLimits)) =
      some (.running, [("r", someUsage)], { maxReasoningTokens := some 5 }) := by decide
  obtain ⟨task, hget, hfields⟩ := Option.map_eq_some_iff.1 hstored
  obtain ⟨hrunning, hfields⟩ := Prod.ext_iff.1 hfields
  obtain ⟨hentries, hlimits⟩ := Prod.ext_iff.1 hfields
  simp only at hrunning hentries hlimits
  have hvalues : task.usageByRun.values = [someUsage] := by
    unfold Dict.values
    rw [hentries]
    rfl
  refine ⟨task, hget, (unhindered_iff hget hrunning ?_ ?_ 3 "w" 10).2 fun h => ?_⟩
  · rw [hvalues]
    intro usage husage
    rw [List.mem_singleton.1 husage]
    exact ⟨rfl, rfl⟩
  · rw [hvalues, hlimits]
    constructor <;> intro max hmax <;> cases hmax
    decide
  · rw [hentries] at h
    cases h.1.2

/-- A task that limits its reasoning tokens pauses at its first claim. -/
theorem first_claim_pauses :
    ¬ ∀ (pyStr : Json → String) (run : List (Int × LongTaskOp)) (k : String)
        (task : StoredLongTask) (now : Int) (workerId : String) (duration : Int),
      (exec (LongTaskState.step pyStr) .empty run).tasks.get? k = some task →
      task.record.status = .running → (∀ usage ∈ task.usageByRun.values, usage.Complete) →
      BelowLimits task.usageByRun.values task.record.budgetLimits →
      Unhindered now (.claimUnit none workerId duration) task := by
  intro h
  have hlimits : BelowLimits [] { maxReasoningTokens := some 5 } := by
    constructor <;> intro max hmax <;> cases hmax
    decide
  have hunhindered := h noStr reasoningRun "t" _ 2 "w" 10 rfl rfl
    (fun usage husage => absurd husage List.not_mem_nil) hlimits
  have hstatus := congrArg (fun task => task.record.status) hunhindered.2
  exact absurd hstatus (by decide)

end Purra
