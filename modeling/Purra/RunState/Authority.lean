import Purra.RunState.Closure

/-!
# Tool authority

Three traversals of the steps decide which tools a Run may call: the grant of the
current transition, the grants of later transitions, and the check in
`on_tool_calls_started`.  They agree when the running step stands before every other
unfinished step (`RunsFirst`), which opening a Run establishes and every reducer keeps
except durable synchronisation (`runsFirst_run`); a revision may also break it.

* `mem_allowed` — a granted name belongs to an unfinished tool step.
* `granted_cases` — how a granted request is carried out: by the tool step that runs, or
  by the next unfinished step after the running model step.
* `allowed_or_future` — the current and the future grant together are the tools of all
  unfinished tool steps; `Progresses` says that no others appear later.
* `inPlanOrder_run` — without a revision, a synchronisation and a declined or failed tool
  step, everything in front of the running step is done, so what is granted is accepted.
-/

namespace Purra

open RunStateMachine

/-! ## The running step -/

section Running

variable {state : RunSnapshot} {p q : TaskStep → Bool} {i : Nat} {running : TaskStep}

/-- The first running step, looked for with a test it meets. -/
theorem runningStep_of_any (h : runningStep (fun _ => true) state.steps = some (i, running))
    (hp : p running = true) : runningStep p state.steps = some (i, running) := by
  obtain ⟨hget, hrun, -⟩ := mem_runningStep h
  refine findFirst_eq_some.2 ⟨hget, by simp [hrun, hp], fun j step hj hstep => ?_⟩
  have := (findFirst_eq_some.1 h).2.2 j step hj hstep
  simp only [Bool.and_true] at this
  simp [this]

/-- No step runs that fails the test the running step fails. -/
theorem runningStep_eq_none (h : runningStep q state.steps = some (i, running))
    (hp : p running = false) : runningStep p state.steps = none := by
  obtain ⟨hget, hrun, -⟩ := mem_runningStep h
  refine findFirst_eq_none.2 fun step hstep => ?_
  by_cases hs : step.status = .running
  · have hsame : step = running := eq_of_length_le_one state.valid.one_running
      (mem_runningSteps.2 ⟨hstep, hs⟩)
      (mem_runningSteps.2 ⟨List.mem_of_getElem? hget, hrun⟩)
    simp [hsame, hp]
  · simp [hs]

theorem runningStep_any (h : runningStep p state.steps = some (i, running)) :
    runningStep (fun _ => true) state.steps = some (i, running) := by
  obtain ⟨hget, hrun, -⟩ := mem_runningStep h
  refine findFirst_eq_some.2 ⟨hget, by simp [hrun], fun j step hj hstep => ?_⟩
  by_contra hother
  have hs : step.status = .running := by simpa using hother
  have hsame : step = running := eq_of_length_le_one state.valid.one_running
    (mem_runningSteps.2 ⟨List.mem_of_getElem? hstep, hs⟩)
    (mem_runningSteps.2 ⟨List.mem_of_getElem? hget, hrun⟩)
  -- two positions of one step would be two ids
  have hids : (stepIds state.steps)[j]? = (stepIds state.steps)[i]? := by
    simp only [stepIds, List.getElem?_map, hstep, hget, Option.map_some, hsame]
  have hlt : j < (stepIds state.steps).length := by
    simpa [stepIds] using (List.getElem?_eq_some_iff.1 hstep).1
  have := (List.getElem?_inj hlt state.valid.ids_nodup).1 hids
  omega

/-- The one running step. -/
theorem runningSteps_eq_singleton (h : runningStep p state.steps = some (i, running)) :
    runningSteps state.steps = [running] := by
  obtain ⟨hget, hrun, -⟩ := mem_runningStep h
  have hself : state.steps.set i running = state.steps := by
    obtain ⟨hi, hstep⟩ := List.getElem?_eq_some_iff.1 hget
    rw [← hstep]
    exact List.set_getElem_self hi
  have hset := runningSteps_of_runningStep h running
  rw [hself] at hset
  rw [hset]
  simp [runningSteps, hrun]

end Running

/-- The running step stands before every other unfinished step. -/
def RunsFirst (state : RunSnapshot) : Prop :=
  ∀ p ∈ runningStep (fun _ => true) state.steps, nextIncomplete state.steps = some p

instance (state : RunSnapshot) : Decidable (RunsFirst state) :=
  inferInstanceAs (Decidable (∀ p ∈ runningStep (fun _ => true) state.steps, _))

/-! ## The current grant -/

section Grants

variable {state : RunSnapshot}

theorem allowed_of_terminal (h : state.terminal = true) :
    allowedToolNamesForCurrentTransition state = [] := if_pos h

variable {i : Nat} {step running : TaskStep}

/-- The grant while a tool step runs. -/
theorem allowed_of_tool (hlive : state.terminal = false)
    (h : runningStep (fun _ => true) state.steps = some (i, running))
    (htool : running.isToolStep = true) :
    allowedToolNamesForCurrentTransition state = running.suggestedTools := by
  simp [allowedToolNamesForCurrentTransition, hlive, h, htool]

/-- The grant while a model step runs: the tools of the unfinished step behind it. -/
theorem allowed_of_model {j : Nat} (hlive : state.terminal = false)
    (h : runningStep (fun _ => true) state.steps = some (i, running))
    (hmodel : running.isModelStep = true)
    (hnext : nextIncomplete (state.steps.drop (i + 1)) = some (j, step))
    (htool : step.isToolStep = true) :
    allowedToolNamesForCurrentTransition state = step.suggestedTools := by
  simp [allowedToolNamesForCurrentTransition, hlive, h, hmodel,
    TaskStep.not_tool_of_model hmodel, hnext, htool]

variable {name : RequiredText}

/-- Where a granted name comes from. -/
theorem allowed_cases (h : name ∈ allowedToolNamesForCurrentTransition state) :
    state.terminal = false ∧ ∃ i running,
      runningStep (fun _ => true) state.steps = some (i, running) ∧
      (running.isToolStep = true ∧ name ∈ running.suggestedTools ∨
        running.isModelStep = true ∧ ∃ j step,
          nextIncomplete (state.steps.drop (i + 1)) = some (j, step) ∧
          step.isToolStep = true ∧ name ∈ step.suggestedTools) := by
  cases hlive : state.terminal with
  | true =>
    rw [allowed_of_terminal hlive] at h
    exact absurd h List.not_mem_nil
  | false =>
    refine ⟨rfl, ?_⟩
    unfold allowedToolNamesForCurrentTransition at h
    rw [hlive, if_neg Bool.false_ne_true] at h
    split at h
    · exact absurd h List.not_mem_nil
    rename_i i running hrunning
    refine ⟨i, running, hrunning, ?_⟩
    split at h
    · rename_i htool
      exact Or.inl ⟨htool, h⟩
    split at h
    · exact absurd h List.not_mem_nil
    rename_i hmodel
    split at h
    · exact absurd h List.not_mem_nil
    rename_i j step hnext
    split at h
    · rename_i htool
      exact Or.inr ⟨not_not.1 hmodel, j, step, hnext, htool, h⟩
    · exact absurd h List.not_mem_nil

/-- **A granted name belongs to an unfinished tool step**, and what that step depends on is done if
it runs already. -/
theorem mem_allowed (h : name ∈ allowedToolNamesForCurrentTransition state) :
    ∃ step ∈ state.steps, step.status.finished = false ∧ step.isToolStep = true ∧
      name ∈ step.suggestedTools ∧ (step.status = .running → Ready state.steps step) := by
  have hready : ∀ step ∈ state.steps, step.status = .running → Ready state.steps step :=
    fun step hstep hrun => (runsReady_self state).2 step (mem_runningSteps.2 ⟨hstep, hrun⟩)
  obtain ⟨-, i, running, hrunning, ⟨htool, hname⟩ | ⟨-, j, step, hnext, htool, hname⟩⟩ :=
    allowed_cases h
  · obtain ⟨hget, hrun, -⟩ := mem_runningStep hrunning
    have hmem := List.mem_of_getElem? hget
    exact ⟨running, hmem, open_of_running hrun, htool, hname, hready running hmem⟩
  · obtain ⟨hget, hopen⟩ := mem_nextIncomplete hnext
    have hmem := List.mem_of_mem_drop (List.mem_of_getElem? hget)
    exact ⟨step, hmem, hopen, htool, hname, hready step hmem⟩

/-! ## Carrying out a request -/

variable {toolNames : List String}

/-- A request that is not granted is refused. -/
theorem granted_of_started {t : RunTransition} (hlive : state.terminal = false)
    (h : state.reduce (.toolCallsStarted toolNames) = .ok t) : Granted state toolNames := by
  simp only [RunSnapshot.reduce, onToolCallsStarted, hlive, Bool.false_eq_true, if_false] at h
  split at h
  · cases h
  · rename_i hallowed
    obtain ⟨hne, hsub⟩ := not_or.1 hallowed
    exact ⟨hne, not_not.1 hsub⟩

/-- The running model step, ended before the tools run. -/
def reasoned (step : TaskStep) : TaskStep :=
  conclude .done (.lit "Model reasoning completed before tool execution." reasoned_text) step

theorem concludeReasoning_eq
    (h : runningStep TaskStep.isModelStep state.steps = some (i, running)) :
    concludeReasoning state.steps = [(i, reasoned running)] := by
  rw [concludeReasoning, h]
  rfl

/-- **A granted request** is carried out by the tool step that runs, or by the unfinished step
behind the running model step; it carries the tools of the grant. -/
theorem granted_cases (hlive : state.terminal = false)
    (hfirst : RunsFirst state) (hgranted : Granted state toolNames) :
    (∃ i running, runningStep TaskStep.isToolStep state.steps = some (i, running) ∧
        allowedToolNamesForCurrentTransition state = running.suggestedTools ∧
        state.reduce (.toolCallsStarted toolNames) = withStepChanges state []) ∨
      ∃ i running j step, runningStep TaskStep.isModelStep state.steps = some (i, running) ∧
        nextIncomplete (state.steps.set i (reasoned running)) = some (j, step) ∧
        step.isToolStep = true ∧
        allowedToolNamesForCurrentTransition state = step.suggestedTools ∧
        state.reduce (.toolCallsStarted toolNames) =
          withStepChanges state [(i, reasoned running), (j, start step)] := by
  obtain ⟨hne, hsub⟩ := hgranted
  obtain ⟨name, hname⟩ := List.exists_mem_of_ne_nil _ hne
  have hrequest : ¬ (requestedTools toolNames = [] ∨ ¬ ∀ name ∈ requestedTools toolNames,
      name ∈ allowedToolNamesForCurrentTransition state) := fun h =>
    h.elim hne fun h => h hsub
  obtain ⟨-, i, running, hrunning, ⟨htool, -⟩ | ⟨hmodel, j, step, hnext, htool, -⟩⟩ :=
    allowed_cases (hsub name hname)
  · left
    have hfound := runningStep_of_any hrunning htool
    have hnone : concludeReasoning state.steps = [] := by
      rw [concludeReasoning, runningStep_eq_none hrunning (p := TaskStep.isModelStep)]
      · rfl
      · cases hm : running.isModelStep with
        | false => rfl
        | true =>
          rw [TaskStep.not_tool_of_model hm] at htool
          cases htool
    refine ⟨i, running, hfound, allowed_of_tool hlive hrunning htool, ?_⟩
    simp only [RunSnapshot.reduce, onToolCallsStarted, hlive, Bool.false_eq_true, if_false,
      if_neg hrequest, hnone, setAll_nil, hfound, Option.some_or, htool, not_true_eq_false,
      if_pos (mem_runningStep hfound).2.1]
  · right
    have hfound := runningStep_of_any hrunning hmodel
    have hafter : nextIncomplete (state.steps.set i (reasoned running)) =
        some (i + 1 + j, step) := by
      rw [nextIncomplete, findFirst_set (hfirst _ hrunning) (by rfl)]
      show Option.map _ (nextIncomplete (state.steps.drop (i + 1))) = _
      rw [hnext]
      rfl
    have hallowed := allowed_of_model hlive hrunning hmodel hnext htool
    refine ⟨i, running, i + 1 + j, step, hfound, hafter, htool, hallowed, ?_⟩
    have hidle : runningSteps (state.steps.set i (reasoned running)) = [] :=
      runningSteps_end hfound StepStatus.noConfusion
    have hnone : runningStep TaskStep.isToolStep (state.steps.set i (reasoned running)) = none :=
      findFirst_eq_none.2 fun s hs => by simp [runningSteps_eq_nil.1 hidle s hs]
    have hnot : step.status ≠ .running :=
      runningSteps_eq_nil.1 hidle step (List.mem_of_getElem? (mem_nextIncomplete hafter).1)
    simp only [RunSnapshot.reduce, onToolCallsStarted, hlive, Bool.false_eq_true, if_false,
      if_neg hrequest, concludeReasoning_eq hfound, setAll_cons, setAll_nil, hnone,
      Option.none_or, hafter, htool, not_true_eq_false, if_neg hnot, List.singleton_append]

/-- The step behind the running model step is ready once that step has ended. -/
def GrantReady (state : RunSnapshot) : Prop :=
  (runningStep TaskStep.isModelStep state.steps).isSome = true →
    ∀ p ∈ nextIncomplete (afterReasoning state.steps), Ready (afterReasoning state.steps) p.2

instance (state : RunSnapshot) : Decidable (GrantReady state) :=
  inferInstanceAs (Decidable (_ → ∀ p ∈ nextIncomplete (afterReasoning state.steps), _))

/-- A granted request whose step is ready is accepted. -/
theorem started_of_granted (hlive : state.terminal = false)
    (hfirst : RunsFirst state) (hgranted : Granted state toolNames) (hready : GrantReady state) :
    ∃ t, state.reduce (.toolCallsStarted toolNames) = .ok t := by
  rcases granted_cases hlive hfirst hgranted with ⟨i, running, -, -, heq⟩ |
    ⟨i, running, j, step, hfound, hnext, -, -, heq⟩
  · rw [heq]
    exact withStepChanges_live (List.forall₂_same.2 fun step _ => .refl step) hlive
      (runsReady_self state)
  · rw [heq]
    have hsteps : afterReasoning state.steps = state.steps.set i (reasoned running) := by
      rw [afterReasoning, concludeReasoning_eq hfound]
      rfl
    have := hready (by rw [hfound]; rfl) (j, step) (by rw [hsteps]; exact hnext)
    rw [hsteps] at this
    exact handOver_returns hlive hfound (conclude_restates _ _ _) rfl hnext this

/-- **After an accepted request one step runs**: a tool step with the requested tools whose
dependencies are done. -/
theorem runs_requested {t : RunTransition}
    (hlive : state.terminal = false) (hfirst : RunsFirst state)
    (h : state.reduce (.toolCallsStarted toolNames) = .ok t) :
    ∃ step, runningSteps t.after.steps = [step] ∧ step.isToolStep = true ∧
      (∀ name ∈ requestedTools toolNames, name ∈ step.suggestedTools) ∧
      Ready t.after.steps step := by
  have hgranted := granted_of_started hlive h
  have hready : ∀ step, runningSteps t.after.steps = [step] → Ready t.after.steps step :=
    fun step hsingle => (runsReady_self t.after).2 step (by rw [hsingle]; exact .head _)
  rcases granted_cases hlive hfirst hgranted with ⟨i, running, hfound, hallowed, heq⟩ |
    ⟨i, running, j, step, hfound, hnext, htool, hallowed, heq⟩
  · rw [heq] at h
    have hsteps : t.after.steps = state.steps := by rw [(withStepChanges_eq_ok h).2.1, setAll_nil]
    have hsingle : runningSteps t.after.steps = [running] := by
      rw [hsteps]
      exact runningSteps_eq_singleton hfound
    exact ⟨running, hsingle, (mem_runningStep hfound).2.2,
      fun name hname => hallowed ▸ hgranted.2 name hname, hready running hsingle⟩
  · rw [heq] at h
    have hsteps : t.after.steps = (state.steps.set i (reasoned running)).set j (start step) := by
      rw [(withStepChanges_eq_ok h).2.1]
      rfl
    have hsingle : runningSteps t.after.steps = [start step] := by
      rw [hsteps, runningSteps_set_idle (runningSteps_end hfound StepStatus.noConfusion)
        (List.getElem?_eq_some_iff.1 (mem_nextIncomplete hnext).1).1]
      rfl
    exact ⟨start step, hsingle, htool, fun name hname => hallowed ▸ hgranted.2 name hname,
      hready _ hsingle⟩

/-! ## Later grants -/

/-- A step at or behind a position, found in the rest of the list. -/
theorem mem_drop_of_getElem? {steps : List TaskStep} {start k : Nat}
    (hget : steps[k]? = some step) (hk : start ≤ k) : step ∈ steps.drop start := by
  refine List.mem_of_getElem? (i := k - start) ?_
  rw [List.getElem?_drop, Nat.add_sub_cancel' hk]
  exact hget

/-- **Every unfinished tool step is granted now or later**, when the running step stands before all
of them. -/
theorem allowed_or_future (hlive : state.terminal = false) (hfirst : RunsFirst state)
    (hruns : runningSteps state.steps ≠ []) (hstep : step ∈ state.steps)
    (hopen : step.status.finished = false) (htool : step.isToolStep = true)
    (hname : name ∈ step.suggestedTools) :
    name ∈ allowedToolNamesForCurrentTransition state ∨ name ∈ futureAllowedToolNames state := by
  obtain ⟨⟨i, running⟩, hrunning⟩ :
      ∃ p, runningStep (fun _ => true) state.steps = some p := by
    rw [← Option.ne_none_iff_exists']
    intro hnone
    refine hruns (runningSteps_eq_nil.2 fun s hs hrun => ?_)
    have := findFirst_eq_none.1 hnone s hs
    simp [hrun] at this
  obtain ⟨k, hk⟩ := List.mem_iff_getElem?.1 hstep
  -- no unfinished step stands before the running one
  have hik : i ≤ k := by
    by_contra hlt
    have := (findFirst_eq_some.1 (hfirst _ hrunning)).2.2 k step (by omega) hk
    simp [hopen] at this
  have hlater : ∀ {start : Nat}, start ≤ k → name ∈ ((state.steps.drop start).filter fun s =>
      !s.status.finished && s.isToolStep).flatMap (·.suggestedTools) := fun hstart =>
    List.mem_flatMap.2 ⟨step, List.mem_filter.2 ⟨mem_drop_of_getElem? hk hstart, by
      simp [hopen, htool]⟩, hname⟩
  by_cases hkind : running.isToolStep = true
  · rcases Nat.lt_or_eq_of_le hik with hlt | rfl
    · right
      simp only [futureAllowedToolNames, hlive, Bool.false_eq_true, if_false, hrunning, hkind,
        if_true, Option.getD_some]
      exact hlater hlt
    · left
      rw [(mem_runningStep hrunning).1] at hk
      cases hk
      rw [allowed_of_tool hlive hrunning hkind]
      exact hname
  · have hne : k ≠ i := by
      rintro rfl
      rw [(mem_runningStep hrunning).1] at hk
      cases hk
      exact hkind htool
    by_cases hmodel : running.isModelStep = true
    · cases hnext : nextIncomplete (state.steps.drop (i + 1)) with
      | none =>
        have := findFirst_eq_none.1 hnext step (mem_drop_of_getElem? hk (by omega))
        simp [hopen] at this
      | some p =>
        obtain ⟨hget, -, hbefore⟩ := findFirst_eq_some.1 hnext
        rw [List.getElem?_drop] at hget
        have hpk : i + 1 + p.1 ≤ k := by
          by_contra hlt
          have := hbefore (k - (i + 1)) step (by omega) (by
            rw [List.getElem?_drop, show i + 1 + (k - (i + 1)) = k by omega]
            exact hk)
          simp [hopen] at this
        by_cases hptool : p.2.isToolStep = true
        · rcases Nat.lt_or_eq_of_le hpk with hlt | rfl
          · right
            simp only [futureAllowedToolNames, hlive, Bool.false_eq_true, if_false, hrunning,
              hkind, hmodel, if_true, hnext, hptool, Option.getD_some]
            exact hlater hlt
          · left
            rw [hget] at hk
            cases hk
            rw [allowed_of_model hlive hrunning hmodel hnext hptool]
            exact hname
        · right
          simp only [futureAllowedToolNames, hlive, Bool.false_eq_true, if_false, hrunning,
            hkind, hmodel, if_true, hnext, hptool, Option.getD_none]
          exact hlater (by omega)
    · right
      simp only [futureAllowedToolNames, hlive, Bool.false_eq_true, if_false, hrunning, hkind,
        hmodel, Option.getD_none]
      exact hlater (by omega)

end Grants

/-- The operation keeps the plan and reopens no finished step. -/
def Progresses (state : RunSnapshot) : RunOperation → Prop
  | .revisePlan _ => False
  | .reduce (.syncDurable statuses) => ∀ step ∈ state.steps, step.status.finished = true →
      ((synced statuses step).getD step).status.finished = true
  | .reduce _ => True

instance (state : RunSnapshot) : (op : RunOperation) → Decidable (Progresses state op)
  | .revisePlan _ => isFalse id
  | .reduce (.syncDurable _) => inferInstanceAs (Decidable (∀ step ∈ state.steps, _))
  | .reduce .modelDelta | .reduce (.toolCallsStarted _) | .reduce (.toolRoundCompleted _)
  | .reduce (.toolRoundFailed _) | .reduce (.complete _) | .reduce (.completeDurable _ _)
  | .reduce (.finishDurable _) | .reduce (.fail _) | .reduce (.cancel _) => isTrue trivial

/-- Between two snapshots the plan stayed and finished steps stayed finished. -/
def Forwards (state after : RunSnapshot) : Prop :=
  List.Forall₂ (fun step step' => step.Restates step' ∧
    (step.status.finished = true → step'.status.finished = true)) state.steps after.steps

theorem Forwards.refl (state : RunSnapshot) : Forwards state state :=
  List.forall₂_same.2 fun step _ => ⟨.refl step, id⟩

theorem Forwards.trans {a b c : RunSnapshot} (h : Forwards a b) (h' : Forwards b c) :
    Forwards a c :=
  forall₂_trans (fun hab hbc => ⟨hab.1.trans hbc.1, fun h => hbc.2 (hab.2 h)⟩) h h'

variable {state opened : RunSnapshot} {t : RunTransition}

variable {reduction : RunReduction}

/-- A reducer that does not reopen. -/
theorem forwards_reduce (hopens : reduction.reopens = false) (ht : state.reduce reduction = .ok t) :
    Forwards state t.after := by
  rcases reduce_cases ht with rfl | ⟨-, changes, _, _, _, hsound, -, hchanges⟩
  · exact Forwards.refl state
  · rw [hopens] at hsound
    unfold Forwards
    rw [(withStepChanges_eq_ok hchanges).2.1]
    exact hsound.forall₂ (fun step => ⟨.refl step, id⟩)
      fun step step' hrestates _ hfinished => ⟨hrestates, hfinished rfl⟩

/-- Durable synchronisation that does not reopen. -/
theorem forwards_sync {statuses : Dict String StepStatus}
    (h : Progresses state (.reduce (.syncDurable statuses)))
    (ht : state.reduce (.syncDurable statuses) = .ok t) : Forwards state t.after := by
  cases hlive : state.terminal with
  | true =>
    rw [reduce_terminal hlive] at ht
    cases ht
    exact Forwards.refl state
  | false =>
    have hsound := soundChanges_sync state statuses
    simp only [RunSnapshot.reduce, syncDurableExecution, hlive, Bool.false_eq_true, if_false] at ht
    split at ht
    · cases ht
    · unfold Forwards
      rw [(withStepChanges_eq_ok ht).2.1]
      refine forall₂_setAll (fun step => ⟨.refl step, id⟩) fun i step' hmem step hget => ?_
      obtain ⟨original, horiginal, hrestates, -, -⟩ := hsound.moves i step' hmem
      rw [hget] at horiginal
      cases horiginal
      obtain ⟨original, horiginal, hsynced⟩ := mem_syncChanges.1 hmem
      rw [hget] at horiginal
      cases horiginal
      have hkept := h step (List.mem_of_getElem? hget)
      rw [hsynced] at hkept
      exact ⟨hrestates, hkept⟩

variable {op : RunOperation}

/-- **One operation** that keeps the plan and reopens nothing. -/
theorem forwards_next (h : Progresses state op) :
    Forwards state (state.next op) := by
  cases op with
  | revisePlan plan => exact absurd h id
  | reduce reduction =>
    cases ht : state.reduce reduction with
    | error e =>
      rw [show state.next (.reduce reduction) = state by
        simp only [RunSnapshot.next, RunSnapshot.apply, ht, Except.map]]
      exact Forwards.refl state
    | ok t =>
      rw [show state.next (.reduce reduction) = t.after by
        simp only [RunSnapshot.next, RunSnapshot.apply, ht, Except.map]]
      cases reduction with
      | syncDurable statuses => exact forwards_sync h ht
      | _ => exact forwards_reduce rfl ht

variable {ops : List RunOperation}

/-- **A whole run** that keeps the plan and reopens nothing. -/
theorem forwards_run (h : Along RunSnapshot.next Progresses state ops) :
    Forwards state (exec RunSnapshot.next state ops) :=
  exec_rel Forwards.refl Forwards.trans (fun _ _ => forwards_next) h

/-- No tool is granted later that is neither granted now nor announced. -/
theorem later_grants (hlive : state.terminal = false)
    (hfirst : RunsFirst state) (hruns : runningSteps state.steps ≠ [])
    (hops : Along RunSnapshot.next Progresses state ops) {name : RequiredText}
    (hname : name ∈ allowedToolNamesForCurrentTransition (exec RunSnapshot.next state ops)) :
    name ∈ allowedToolNamesForCurrentTransition state ∨ name ∈ futureAllowedToolNames state := by
  obtain ⟨later, hlater, hopen, htool, hcalls, -⟩ := mem_allowed hname
  obtain ⟨i, hi⟩ := List.mem_iff_getElem?.1 hlater
  obtain ⟨hlen, hall⟩ := List.forall₂_iff_get.1 (forwards_run hops)
  obtain ⟨hlt, hget⟩ := List.getElem?_eq_some_iff.1 hi
  obtain ⟨hrestates, hfinished⟩ := hall i (by omega) hlt
  rw [List.get_eq_getElem, List.get_eq_getElem, hget] at hrestates hfinished
  have hmem : state.steps[i] ∈ state.steps := List.getElem_mem _
  refine allowed_or_future hlive hfirst hruns hmem ?_ ?_ (hrestates.tools_eq ▸ hcalls)
  · by_contra hclosed
    rw [hfinished (by simpa using hclosed)] at hopen
    cases hopen
  · rw [← hrestates.isToolStep_eq]
    exact htool

/-! ## The running step stays first -/

variable {steps : List TaskStep}

/-- A step started first among the unfinished ones stays the first of them. -/
theorem nextIncomplete_start {i : Nat} {step : TaskStep}
    (hnext : nextIncomplete steps = some (i, step)) :
    nextIncomplete (steps.set i (start step)) = some (i, start step) := by
  have hi := (List.getElem?_eq_some_iff.1 (mem_nextIncomplete hnext).1).1
  refine findFirst_eq_some.2 ⟨List.getElem?_set_self hi, rfl, fun j s hj hs => ?_⟩
  rw [List.getElem?_set_ne (by omega)] at hs
  exact (findFirst_eq_some.1 hnext).2.2 j s hj hs

/-- It runs first. -/
theorem runsFirst_start {after : RunSnapshot} {i : Nat} {step : TaskStep}
    (hnext : nextIncomplete steps = some (i, step)) (hsteps : after.steps = steps.set i (start step)) :
    RunsFirst after := by
  have hfirst : nextIncomplete after.steps = some (i, start step) := by
    rw [hsteps]
    exact nextIncomplete_start hnext
  have hstarted := (mem_nextIncomplete hfirst).1
  intro p hp
  obtain ⟨hpget, hprun, -⟩ := mem_runningStep (show runningStep _ after.steps = some (p.1, p.2) from hp)
  -- the step just started is the only one that runs
  have hsame : p.2 = start step := eq_of_length_le_one after.valid.one_running
    (mem_runningSteps.2 ⟨List.mem_of_getElem? hpget, hprun⟩)
    (mem_runningSteps.2 ⟨List.mem_of_getElem? hstarted, rfl⟩)
  have hids : (stepIds after.steps)[p.1]? = (stepIds after.steps)[i]? := by
    simp only [stepIds, List.getElem?_map, hpget, hstarted, Option.map_some, hsame]
  have hlt : p.1 < (stepIds after.steps).length := by
    simpa [stepIds] using (List.getElem?_eq_some_iff.1 hpget).1
  have hpi := (List.getElem?_inj hlt after.valid.ids_nodup).1 hids
  rw [hfirst, ← hpi, ← hsame]

/-- No step runs. -/
theorem runsFirst_idle {after : RunSnapshot} (h : runningSteps after.steps = []) :
    RunsFirst after := by
  intro p hp
  obtain ⟨hpget, hprun, -⟩ := mem_runningStep (show runningStep _ after.steps = some (p.1, p.2) from hp)
  exact absurd hprun (runningSteps_eq_nil.1 h p.2 (List.mem_of_getElem? hpget))

/-- The operation neither revises the plan nor takes over the statuses of durable units. -/
def RunOperation.Ordinary : RunOperation → Prop
  | .revisePlan _ => False
  | .reduce reduction => reduction.reopens = false

/-- The operation is ordinary, and reports no tool step as declined or failed. -/
def RunOperation.Undisturbed : RunOperation → Prop
  | .revisePlan _ => False
  | .reduce (.syncDurable _) => False
  | .reduce (.toolRoundCompleted outcome) => outcome ≠ .declined
  | .reduce (.toolRoundFailed _) => False
  | .reduce _ => True

/-- No step of an opened plan is a confirmation. -/
theorem not_confirm (hcontract : ∀ step ∈ steps, validateStepExecutionContract step = .ok ()) :
    ∀ step ∈ steps, step.type ≠ .confirm := by
  intro step hstep
  rcases validateStepExecutionContract_cases step with ⟨-, hc⟩ | ⟨message, hc⟩
  · exact hc
  · rw [hcontract step hstep] at hc
    cases hc

/-- The step that opening a plan starts is the first unfinished one. -/
theorem startable_initial {planned : List TaskStep}
    (hcontract : ∀ step ∈ planned.map initialStep, validateStepExecutionContract step = .ok ()) :
    findFirst (fun step => step.status ≠ .done && step.type ≠ .confirm)
      (planned.map initialStep) = nextIncomplete (planned.map initialStep) := by
  refine findFirst_congr fun step hstep => ?_
  have hconfirm := not_confirm hcontract step hstep
  obtain ⟨original, -, rfl⟩ := List.mem_map.1 hstep
  rcases initialStep_status original with h | h
  · simp [h, hconfirm, StepStatus.finished]
  · simp [h, hconfirm, StepStatus.finished]

variable {runId title : RequiredText} {plan : Option ExecutionPlan}

/-- Opening a Run starts its first unfinished step. -/
theorem runsFirst_initialized
    (h : initializeRun runId plan title = .ok opened) : RunsFirst opened := by
  cases plan with
  | none =>
    have hfields := RunSnapshot.of_eq_ok.1 h
    refine runsFirst_idle ?_
    rw [hfields]
    rfl
  | some plan =>
    rcases initializeRun_cases runId plan title with
      ⟨state, hopened, hsteps, hcontract⟩ | ⟨message, hraise⟩
    · rw [hopened] at h
      cases h
      unfold startFirst at hsteps
      split at hsteps
      · refine runsFirst_idle ?_
        rw [hsteps]
        exact runningSteps_initial plan.steps
      · rename_i i step hfirst
        rw [startable_initial hcontract] at hfirst
        exact runsFirst_start hfirst hsteps
    · rw [hraise] at h
      cases h

/-- The steps a reducer changed. -/
theorem steps_eq {changes : List (Nat × TaskStep)}
    {status : Option RunStatus} {response : Option String} {error : Option RequiredText}
    (h : withStepChanges state changes status response error = .ok t) :
    t.after.steps = setAll state.steps changes := by
  rw [(withStepChanges_eq_ok h).2.1]

/-- The steps, or the steps with one of them concluded as done. -/
def Concluded (state : RunSnapshot) (steps : List TaskStep) : Prop :=
  steps = state.steps ∨ ∃ i step summary, state.steps[i]? = some step ∧
    steps = state.steps.set i (conclude .done summary step)

/-- What a reducer that reopens nothing does to the steps of a Run. -/
inductive Carries (state : RunSnapshot) (reduction : RunReduction) (after : RunSnapshot) : Prop
  | same (hsteps : after.steps = state.steps) (hstatus : after.status = state.status)
  /-- The first unfinished step is started. -/
  | starts {steps : List TaskStep} {i : Nat} {step : TaskStep} (hfrom : Concluded state steps)
      (hnext : nextIncomplete steps = some (i, step)) (hsteps : after.steps = steps.set i (start step))
  /-- Nothing is left to start. -/
  | finishes (hfrom : Concluded state after.steps) (hnext : nextIncomplete after.steps = none)
  /-- The next step is a confirmation, which nobody starts. -/
  | confirms (hfrom : Concluded state after.steps)
      (hnext : ∃ p ∈ nextIncomplete after.steps, p.2.type = .confirm)
      (hidle : runningSteps after.steps = [])
  /-- A tool step was declined, or failed. -/
  | disturbs (hop : ¬ (RunOperation.reduce reduction).Undisturbed)
      (hidle : runningSteps after.steps = [])
  /-- The durable execution covers every step. -/
  | fulfils (hdone : ∀ step ∈ after.steps, step.status = .done)
  /-- The Run is over. -/
  | ends (hterminal : after.terminal = true) (hidle : runningSteps after.steps = [])

/-- The status that a reducer sets. -/
theorem status_eq {changes : List (Nat × TaskStep)} {status : RunStatus}
    {response : Option String} {error : Option RequiredText} {t : RunTransition}
    (h : withStepChanges state changes (some status) response error = .ok t) :
    t.after.status = status :=
  congrArg SnapshotFields.status (withStepChanges_eq_ok h).2.1

/-- The steps that a durable execution covers are done. -/
theorem done_fulfil {coveredStepIds : List String} {changes : List (Nat × TaskStep)}
    (h : fulfil state coveredStepIds = .ok changes) :
    ∀ step ∈ setAll state.steps changes, step.status = .done := by
  intro step hstep
  rcases fulfil_cases state coveredStepIds with ⟨hcovered, -, hok⟩ | ⟨-, hraise⟩
  · cases hok.symm.trans h
    rw [setAll_positions] at hstep
    obtain ⟨original, horiginal, rfl⟩ := List.mem_map.1 hstep
    have hmem : original.id.text ∈ coveredStepIds :=
      hcovered _ (List.mem_map_of_mem (List.mem_map_of_mem horiginal))
    unfold fulfilStep
    split
    · rfl
    · rename_i hnot
      exact not_not.1 fun hne => hnot ⟨hmem, hne⟩
  · cases hraise.symm.trans h

/-- A reducer that ends the Run, and every step that runs. -/
theorem carries_ends {f : TaskStep → Option TaskStep} {status : RunStatus}
    {response : Option String} {error : Option RequiredText} {t : RunTransition} (hf : Ends f)
    (hterminal : status.terminal = true)
    (h : withStepChanges state (positions f state.steps) (some status) response error = .ok t) :
    Carries state reduction t.after := by
  refine .ends ?_ ?_
  · unfold RunSnapshot.terminal
    rw [status_eq h]
    exact hterminal
  · rw [steps_eq h]
    exact hf.runningSteps state.steps

/-- **What a reducer does** that reopens nothing, when the running step is the first one. -/
theorem carries_reduce {t : RunTransition} (hopens : reduction.reopens = false)
    (hfirst : RunsFirst state) (ht : state.reduce reduction = .ok t) :
    Carries state reduction t.after := by
  have hsame : ∀ {t : RunTransition}, unchanged state = .ok t → Carries state reduction t.after := by
    intro t h
    cases h
    exact .same rfl rfl
  cases hlive : state.terminal with
  | true =>
    rw [reduce_terminal hlive] at ht
    exact hsame ht
  | false =>
    have hidle : ∀ {i : Nat} {step step' : TaskStep} {t : RunTransition},
        runningStep TaskStep.isToolStep state.steps = some (i, step) → step'.status ≠ .running →
        withStepChanges state [(i, step')] = .ok t → runningSteps t.after.steps = [] := by
      intro i step step' t hfound hend h
      rw [steps_eq h]
      exact runningSteps_end hfound hend
    cases reduction with
    | modelDelta =>
      simp only [RunSnapshot.reduce, onModelDelta] at ht
      split at ht
      · exact hsame ht
      split at ht
      · exact hsame ht
      rename_i i step hnext
      split at ht
      · exact hsame ht
      split at ht
      · exact hsame ht
      · exact .starts (.inl rfl) hnext (steps_eq ht)
    | toolCallsStarted toolNames =>
      rcases granted_cases hlive hfirst (granted_of_started hlive ht) with ⟨i, running, -, -, heq⟩ |
        ⟨i, running, j, step, hfound, hnext, -, -, heq⟩
      · rw [heq] at ht
        exact .same (by rw [steps_eq ht, setAll_nil])
          (congrArg SnapshotFields.status (withStepChanges_eq_ok ht).2.1)
      · rw [heq] at ht
        exact .starts (.inr ⟨i, running, _, (mem_runningStep hfound).1, rfl⟩) hnext (steps_eq ht)
    | toolRoundCompleted outcome =>
      simp only [RunSnapshot.reduce, onToolRoundCompleted, hlive, Bool.false_eq_true,
        if_false] at ht
      split at ht
      · cases ht
      split at ht
      · exact hsame ht
      rename_i i step hfound
      have hfrom : ∀ summary, Concluded state (state.steps.set i (conclude .done summary step)) :=
        fun summary => .inr ⟨i, step, summary, (mem_runningStep hfound).1, rfl⟩
      split at ht
      · rename_i hdeclined
        exact .disturbs (fun hop => hop hdeclined) (hidle hfound StepStatus.noConfusion ht)
      split at ht
      · exact hsame ht
      split at ht
      · rename_i hnext
        exact .finishes (steps_eq ht ▸ hfrom _) ((congrArg nextIncomplete (steps_eq ht)).trans hnext)
      rename_i j step' hnext
      split at ht
      · rename_i hconfirm
        exact .confirms (steps_eq ht ▸ hfrom _)
          ⟨_, (congrArg nextIncomplete (steps_eq ht)).trans hnext, hconfirm⟩
          (hidle hfound StepStatus.noConfusion ht)
      · exact .starts (hfrom _) hnext (steps_eq ht)
    | toolRoundFailed error =>
      simp only [RunSnapshot.reduce, onToolRoundFailed, hlive, Bool.false_eq_true, if_false] at ht
      split at ht
      · cases ht
      · rename_i i step hfound
        exact .disturbs id (hidle hfound StepStatus.noConfusion ht)
    | complete finalResponse =>
      simp only [RunSnapshot.reduce, complete, hlive, Bool.false_eq_true, if_false] at ht
      exact carries_ends (ends_coverStep _) (by split <;> rfl) ht
    | completeDurable finalResponse coveredStepIds =>
      simp only [RunSnapshot.reduce, completeDurableExecution, hlive, Bool.false_eq_true,
        if_false] at ht
      obtain ⟨changes, hchanges, ht⟩ := bind_eq_ok ht
      exact .fulfils (steps_eq ht ▸ done_fulfil hchanges)
    | finishDurable coveredStepIds =>
      simp only [RunSnapshot.reduce, finishDurableExecution, hlive, Bool.false_eq_true,
        if_false] at ht
      obtain ⟨changes, hchanges, ht⟩ := bind_eq_ok ht
      exact .fulfils (steps_eq ht ▸ done_fulfil hchanges)
    | syncDurable statuses => cases hopens
    | fail error =>
      simp only [RunSnapshot.reduce, fail, hlive, Bool.false_eq_true, if_false] at ht
      split at ht
      · cases ht
      · exact carries_ends (ends_failStep _) rfl ht
    | cancel reason =>
      simp only [RunSnapshot.reduce, cancel, hlive, Bool.false_eq_true, if_false] at ht
      exact carries_ends ends_cancelStep rfl ht

/-- **A reducer that reopens nothing** keeps the running step first: it starts the first unfinished
step, or leaves none running. -/
theorem runsFirst_reduce (hopens : reduction.reopens = false) (hfirst : RunsFirst state)
    {t : RunTransition} (ht : state.reduce reduction = .ok t) : RunsFirst t.after := by
  cases carries_reduce hopens hfirst ht with
  | same hsteps =>
    unfold RunsFirst
    rw [hsteps]
    exact hfirst
  | starts _ hnext hsteps => exact runsFirst_start hnext hsteps
  | finishes _ hnext =>
    refine runsFirst_idle (runningSteps_eq_nil.2 fun step hstep hrun => ?_)
    have := findFirst_eq_none.1 hnext step hstep
    simp [hrun, StepStatus.finished] at this
  | confirms _ _ hidle => exact runsFirst_idle hidle
  | disturbs _ hidle => exact runsFirst_idle hidle
  | fulfils hdone =>
    refine runsFirst_idle (runningSteps_eq_nil.2 fun step hstep hrun => ?_)
    rw [hdone step hstep] at hrun
    cases hrun
  | ends _ hidle => exact runsFirst_idle hidle

/-- **One operation** keeps the running step first, unless it revises the plan or takes statuses
over. -/
theorem runsFirst_next (hop : op.Ordinary)
    (hfirst : RunsFirst state) : RunsFirst (state.next op) := by
  cases op with
  | revisePlan plan => exact absurd hop id
  | reduce reduction =>
    cases ht : state.reduce reduction with
    | error e =>
      rw [show state.next (.reduce reduction) = state by
        simp only [RunSnapshot.next, RunSnapshot.apply, ht, Except.map]]
      exact hfirst
    | ok t =>
      rw [show state.next (.reduce reduction) = t.after by
        simp only [RunSnapshot.next, RunSnapshot.apply, ht, Except.map]]
      exact runsFirst_reduce hop hfirst ht

/-- **A whole run** of such operations. -/
theorem runsFirst_run (hopened : initializeRun runId plan title = .ok opened)
    (hops : ∀ op ∈ ops, op.Ordinary) :
    RunsFirst (exec RunSnapshot.next opened ops) :=
  exec_induction (C := fun _ op => op.Ordinary) (fun _ _ hop => runsFirst_next hop)
    (along_of_forall hops) (runsFirst_initialized hopened)

/-! ## Runs that follow the plan -/

theorem RunOperation.Undisturbed.ordinary (h : op.Undisturbed) :
    op.Ordinary := by
  cases op with
  | revisePlan plan => exact h
  | reduce reduction =>
    cases reduction with
    | syncDurable statuses => exact absurd h id
    | _ => rfl

theorem RunOperation.Ordinary.progresses (h : op.Ordinary)
    (state : RunSnapshot) : Progresses state op := by
  cases op with
  | revisePlan plan => exact h
  | reduce reduction =>
    cases reduction with
    | syncDurable statuses => cases h
    | _ => trivial

/-- What is finished is done, and the first step that is not runs. -/
def UnderWay (steps : List TaskStep) : Prop :=
  (∀ step ∈ steps, step.status.finished = true → step.status = .done) ∧
    ∀ p ∈ nextIncomplete steps, p.2.status = .running

section UnderWay

variable {steps : List TaskStep}

/-- Nothing is left to do. -/
theorem underWay_done (h : ∀ step ∈ steps, step.status = .done) : UnderWay steps := by
  refine ⟨fun step hstep _ => h step hstep, fun p hp => ?_⟩
  obtain ⟨hget, hopen⟩ := mem_nextIncomplete (show nextIncomplete steps = some (p.1, p.2) from hp)
  exact absurd (h p.2 (List.mem_of_getElem? hget)) (not_done_of_open hopen)

/-- The first unfinished step is started. -/
theorem underWay_start (hdone : ∀ step ∈ steps, step.status.finished = true → step.status = .done)
    {i : Nat} {step : TaskStep} (hnext : nextIncomplete steps = some (i, step)) :
    UnderWay (steps.set i (start step)) := by
  constructor
  · intro s hs hfinished
    rcases List.mem_or_eq_of_mem_set hs with h | rfl
    · exact hdone s h hfinished
    · cases hfinished
  · intro p hp
    rw [nextIncomplete_start hnext] at hp
    cases hp
    rfl

/-- A step is concluded as done. -/
theorem done_set (hdone : ∀ step ∈ steps, step.status.finished = true → step.status = .done)
    (i : Nat) (summary : RequiredText) (step : TaskStep) :
    ∀ s ∈ steps.set i (conclude .done summary step), s.status.finished = true → s.status = .done := by
  intro s hs hfinished
  rcases List.mem_or_eq_of_mem_set hs with h | rfl
  · exact hdone s h hfinished
  · rfl

end UnderWay

/-- A Run that follows its plan: the steps stand in the order of their dependencies, none is a
confirmation, and a Run that is not over is under way. -/
structure InPlanOrder (state : RunSnapshot) : Prop where
  first : RunsFirst state
  ordered : InOrder [] (stepRows state.steps)
  planned : ∀ step ∈ state.steps, step.type ≠ .confirm
  underWay : state.terminal = false → UnderWay state.steps

theorem inPlanOrder_initialized
    (h : initializeRun runId plan title = .ok opened) : InPlanOrder opened := by
  have hfirst := runsFirst_initialized h
  cases plan with
  | none =>
    have hsteps : opened.steps = [] := congrArg (·.steps) (RunSnapshot.of_eq_ok.1 h)
    refine ⟨hfirst, ?_, ?_, fun _ => ?_⟩
    · rw [hsteps]
      trivial
    · rw [hsteps]
      exact fun _ hstep => absurd hstep List.not_mem_nil
    · rw [hsteps]
      exact underWay_done fun _ hstep => absurd hstep List.not_mem_nil
  | some plan =>
    rcases initializeRun_cases runId plan title with
      ⟨state, hopened, hsteps, hcontract⟩ | ⟨message, hraise⟩
    · cases hopened.symm.trans h
      have hrestates := startFirst_restates (plan.steps.map initialStep)
      rw [← hsteps] at hrestates
      refine ⟨hfirst, ?_, fun step hstep => ?_, fun _ => ?_⟩
      · rw [stepRows_eq_of_restates hrestates,
          stepRows_eq_of_restates (initialSteps_restates plan.steps)]
        exact plan.inOrder
      · obtain ⟨original, horiginal, hrestated⟩ := forall₂_mem_right hrestates _ hstep
        rw [hrestated.type_eq]
        exact not_confirm hcontract original horiginal
      · have hdone : ∀ step ∈ plan.steps.map initialStep,
            step.status.finished = true → step.status = .done := by
          intro step hstep hfinished
          obtain ⟨original, -, rfl⟩ := List.mem_map.1 hstep
          rcases initialStep_status original with h | h
          · exact h
          · rw [h] at hfinished
            cases hfinished
        rw [hsteps, startFirst, startable_initial hcontract]
        cases hnext : nextIncomplete (plan.steps.map initialStep) with
        | none =>
          refine underWay_done fun step hstep => hdone step hstep ?_
          simpa using findFirst_eq_none.1 hnext step hstep
        | some p => exact underWay_start hdone hnext
    · cases hraise.symm.trans h

/-- **One reducer** keeps a Run under way, or ends it. -/
theorem underWay_reduce {t : RunTransition} (hop : (RunOperation.reduce reduction).Undisturbed)
    (h : InPlanOrder state) (ht : state.reduce reduction = .ok t)
    (hopen : t.after.terminal = false) : UnderWay t.after.steps := by
  have hcarries := carries_reduce hop.ordinary h.first ht
  cases hlive : state.terminal with
  | true =>
    rw [reduce_terminal hlive] at ht
    cases ht
    exact absurd hopen (by rw [hlive]; exact Bool.noConfusion)
  | false =>
    have hdone : ∀ {steps : List TaskStep}, Concluded state steps →
        ∀ step ∈ steps, step.status.finished = true → step.status = .done := by
      rintro steps (rfl | ⟨i, step, summary, -, rfl⟩)
      · exact (h.underWay hlive).1
      · exact done_set (h.underWay hlive).1 i summary step
    cases hcarries with
    | same hsteps =>
      rw [hsteps]
      exact h.underWay hlive
    | starts hfrom hnext hsteps =>
      rw [hsteps]
      exact underWay_start (hdone hfrom) hnext
    | finishes hfrom hnext =>
      refine underWay_done fun step hstep => hdone hfrom step hstep ?_
      simpa using findFirst_eq_none.1 hnext step hstep
    | confirms hfrom hnext =>
      -- no step of the plan is a confirmation, and concluding one makes none
      obtain ⟨p, hp, hconfirm⟩ := hnext
      have hmem := List.mem_of_getElem? (mem_nextIncomplete hp).1
      have hplanned : ∀ {steps : List TaskStep}, Concluded state steps →
          ∀ step ∈ steps, step.type ≠ .confirm := by
        rintro steps (rfl | ⟨i, concluded, summary, hget, rfl⟩) step hstep
        · exact h.planned step hstep
        · rcases List.mem_or_eq_of_mem_set hstep with hstep | rfl
          · exact h.planned step hstep
          · exact h.planned concluded (List.mem_of_getElem? hget)
      exact absurd hconfirm (hplanned hfrom _ hmem)
    | disturbs hnot => exact absurd hop hnot
    | fulfils hall => exact underWay_done hall
    | ends hterminal =>
      rw [hopen] at hterminal
      cases hterminal

/-- **One undisturbed operation** leaves a Run that follows its plan. -/
theorem inPlanOrder_next (hop : op.Undisturbed)
    (h : InPlanOrder state) : InPlanOrder (state.next op) := by
  have hforwards := forwards_next (hop.ordinary.progresses state)
  have hrestates : List.Forall₂ TaskStep.Restates state.steps (state.next op).steps :=
    hforwards.imp fun _ _ h => h.1
  refine ⟨runsFirst_next hop.ordinary h.first, ?_, fun step hstep => ?_, fun hlive => ?_⟩
  · rw [stepRows_eq_of_restates hrestates]
    exact h.ordered
  · obtain ⟨original, horiginal, hrestated⟩ := forall₂_mem_right hrestates _ hstep
    rw [hrestated.type_eq]
    exact h.planned original horiginal
  · cases op with
    | revisePlan plan => exact absurd hop id
    | reduce reduction =>
      cases ht : state.reduce reduction with
      | error e =>
        have hnext : state.next (.reduce reduction) = state := by
          simp only [RunSnapshot.next, RunSnapshot.apply, ht, Except.map]
        rw [hnext] at hlive ⊢
        exact h.underWay hlive
      | ok t =>
        have hnext : state.next (.reduce reduction) = t.after := by
          simp only [RunSnapshot.next, RunSnapshot.apply, ht, Except.map]
        rw [hnext] at hlive ⊢
        exact underWay_reduce hop h ht hlive

/-- **A whole run** of such operations. -/
theorem inPlanOrder_run (hopened : initializeRun runId plan title = .ok opened)
    (hops : ∀ op ∈ ops, op.Undisturbed) :
    InPlanOrder (exec RunSnapshot.next opened ops) :=
  exec_induction (C := fun _ op => op.Undisturbed) (fun _ _ hop => inPlanOrder_next hop)
    (along_of_forall hops) (inPlanOrder_initialized hopened)

namespace InPlanOrder

variable {state : RunSnapshot}

/-- What an unfinished step depends on is done when everything in front of it is, apart from a step
that stands at one position. -/
theorem done_before (h : InPlanOrder state) (hlive : state.terminal = false) {k : Nat}
    {step : TaskStep} (hget : state.steps[k]? = some step) {i : Nat}
    (hbefore : ∀ j s, j < k → j ≠ i → state.steps[j]? = some s → s.status.finished = true) :
    ∀ id ∈ step.dependsOn, IsDone state.steps id ∨
      ∃ s, state.steps[i]? = some s ∧ s.id = id := by
  intro id hid
  have hrow : (stepRows state.steps)[k]? = some (step.id, step.dependsOn) := by
    rw [stepRows, List.getElem?_map, hget]
    rfl
  rcases h.ordered.earlier hrow id hid with hnone | ⟨j, hj, row, hrow', rfl⟩
  · exact absurd hnone List.not_mem_nil
  rw [stepRows, List.getElem?_map, Option.map_eq_some_iff] at hrow'
  obtain ⟨s, hs, rfl⟩ := hrow'
  by_cases hji : j = i
  · subst hji
    exact Or.inr ⟨s, hs, rfl⟩
  · have hmem := List.mem_of_getElem? hs
    exact Or.inl ⟨s, hmem, rfl, (h.underWay hlive).1 s hmem (hbefore j s hj hji hs)⟩

/-- **What a granted step depends on is done**, but for the model step that runs. -/
theorem mem_allowed (h : InPlanOrder state) {name : RequiredText}
    (hname : name ∈ allowedToolNamesForCurrentTransition state) :
    ∃ step ∈ state.steps, step.status.finished = false ∧ step.isToolStep = true ∧
      name ∈ step.suggestedTools ∧ ∀ id ∈ step.dependsOn, IsDone state.steps id ∨
        ∃ running ∈ runningSteps state.steps, running.isModelStep = true ∧ running.id = id := by
  obtain ⟨hlive, i, running, hrunning, ⟨htool, hcalls⟩ | ⟨hmodel, j, step, hnext, htool, hcalls⟩⟩ :=
    allowed_cases hname
  · obtain ⟨hget, hrun, -⟩ := mem_runningStep hrunning
    have hmem := List.mem_of_getElem? hget
    exact ⟨running, hmem, open_of_running hrun, htool, hcalls, fun id hid =>
      Or.inl ((runsReady_self state).2 running (mem_runningSteps.2 ⟨hmem, hrun⟩) id hid)⟩
  · obtain ⟨hget, hrun, -⟩ := mem_runningStep hrunning
    obtain ⟨hstep, hopen, hbetween⟩ := findFirst_eq_some.1 hnext
    rw [List.getElem?_drop] at hstep
    have hfront := (findFirst_eq_some.1 (h.first _ hrunning)).2.2
    -- what stands in front of the running step, or between the two, is finished
    have hbefore : ∀ m s, m < i + 1 + j → m ≠ i → state.steps[m]? = some s →
        s.status.finished = true := by
      intro m s hm hmi hs
      rcases Nat.lt_or_gt_of_ne hmi with hlt | hgt
      · simpa using hfront m s hlt hs
      · have hdrop : (state.steps.drop (i + 1))[m - (i + 1)]? = some s := by
          rw [List.getElem?_drop, show i + 1 + (m - (i + 1)) = m by omega]
          exact hs
        simpa using hbetween (m - (i + 1)) s (by omega) hdrop
    refine ⟨step, List.mem_of_getElem? hstep, by simpa using hopen, htool, hcalls,
      fun id hid => ?_⟩
    rcases h.done_before hlive hstep hbefore id hid with hdone | ⟨s, hs, hsid⟩
    · exact Or.inl hdone
    · cases hget.symm.trans hs
      exact Or.inr ⟨running, mem_runningSteps.2 ⟨List.mem_of_getElem? hget, hrun⟩, hmodel, hsid⟩

/-- A granted request finds its step ready. -/
theorem grantReady (h : InPlanOrder state) (hlive : state.terminal = false)
    {toolNames : List String} (hgranted : Granted state toolNames) : GrantReady state := by
  intro hmodel p hp
  rcases granted_cases hlive h.first hgranted with ⟨i, running, hfound, -, -⟩ |
    ⟨i, running, j, step, hfound, hnext, -, -, -⟩
  · obtain ⟨⟨k, r⟩, hr⟩ := Option.isSome_iff_exists.1 hmodel
    cases (runningStep_any hfound).symm.trans (runningStep_any hr)
    have htool := (mem_runningStep hfound).2.2
    rw [TaskStep.not_tool_of_model (mem_runningStep hr).2.2] at htool
    cases htool
  obtain ⟨hget, hrun, -⟩ := mem_runningStep hfound
  have hsteps : afterReasoning state.steps = state.steps.set i (reasoned running) := by
    rw [afterReasoning, concludeReasoning_eq hfound]
    rfl
  rw [hsteps] at hp ⊢
  cases Option.mem_unique hp hnext
  obtain ⟨hstep, hopen, hfront⟩ := findFirst_eq_some.1 hnext
  have hne : j ≠ i := by
    rintro rfl
    rw [List.getElem?_set_self (List.getElem?_eq_some_iff.1 hget).1] at hstep
    cases hstep
    cases hopen
  rw [List.getElem?_set_ne (Ne.symm hne)] at hstep
  have hbefore : ∀ m s, m < j → m ≠ i → state.steps[m]? = some s → s.status.finished = true := by
    intro m s hm hmi hs
    simpa using hfront m s hm (by rw [List.getElem?_set_ne (Ne.symm hmi), hs])
  intro id hid
  have hsame : (reasoned running).id = running.id := rfl
  rw [isDone_set state.valid.ids_nodup hget hsame]
  by_cases heq : id = running.id
  · exact Or.inl ⟨heq, rfl⟩
  · refine Or.inr ⟨heq, (h.done_before hlive hstep hbefore id hid).resolve_right ?_⟩
    rintro ⟨s, hs, hsid⟩
    cases hget.symm.trans hs
    exact heq hsid.symm

end InPlanOrder

/-! ## The authority of a snapshot -/

/-- How a snapshot hands out tools. -/
structure ToolAuthority (state : RunSnapshot) : Prop where
  /-- A finished Run grants nothing, and answers a request without a change. -/
  finished : state.terminal = true → allowedToolNamesForCurrentTransition state = [] ∧
    ∀ toolNames, state.reduce (.toolCallsStarted toolNames) = .ok ⟨state, state, []⟩
  /-- Only a granted request is accepted. -/
  refuses : state.terminal = false → ∀ toolNames,
    (∃ t, state.reduce (.toolCallsStarted toolNames) = .ok t) → Granted state toolNames
  /-- A granted name belongs to an unfinished tool step, which is ready if it runs already. -/
  owned : ∀ name ∈ allowedToolNamesForCurrentTransition state,
    ∃ step ∈ state.steps, step.status.finished = false ∧ step.isToolStep = true ∧
      name ∈ step.suggestedTools ∧ (step.status = .running → Ready state.steps step)
  /-- A granted request is accepted when its step is ready. -/
  accepts : state.terminal = false → RunsFirst state → ∀ toolNames, Granted state toolNames →
    GrantReady state → ∃ t, state.reduce (.toolCallsStarted toolNames) = .ok t
  /-- The step that then runs is a ready tool step with the requested tools. -/
  runs : state.terminal = false → RunsFirst state → ∀ toolNames t,
    state.reduce (.toolCallsStarted toolNames) = .ok t →
      ∃ step, runningSteps t.after.steps = [step] ∧ step.isToolStep = true ∧
        (∀ name ∈ requestedTools toolNames, name ∈ step.suggestedTools) ∧
        Ready t.after.steps step
  /-- What is granted later is granted or announced now. -/
  announced : state.terminal = false → RunsFirst state → runningSteps state.steps ≠ [] →
    ∀ ops, Along RunSnapshot.next Progresses state ops →
      ∀ name ∈ allowedToolNamesForCurrentTransition (exec RunSnapshot.next state ops),
        name ∈ allowedToolNamesForCurrentTransition state ∨ name ∈ futureAllowedToolNames state

theorem toolAuthority (state : RunSnapshot) : ToolAuthority state where
  finished := fun h => ⟨allowed_of_terminal h, fun _ => reduce_terminal h _⟩
  refuses := fun hlive _ ⟨_, ht⟩ => granted_of_started hlive ht
  owned := fun _ hname => mem_allowed hname
  accepts := fun hlive hfirst _ hgranted hready => started_of_granted hlive hfirst hgranted hready
  runs := fun hlive hfirst _ _ ht => runs_requested hlive hfirst ht
  announced := fun hlive hfirst hruns _ hops _ hname => later_grants hlive hfirst hruns hops hname

/-- How a snapshot hands out tools in a Run that follows its plan. -/
structure FollowsPlan (state : RunSnapshot) : Prop where
  /-- A granted name belongs to an unfinished tool step, and what that step depends on is done, but
  for the model step that runs. -/
  owned : ∀ name ∈ allowedToolNamesForCurrentTransition state,
    ∃ step ∈ state.steps, step.status.finished = false ∧ step.isToolStep = true ∧
      name ∈ step.suggestedTools ∧ ∀ id ∈ step.dependsOn, IsDone state.steps id ∨
        ∃ running ∈ runningSteps state.steps, running.isModelStep = true ∧ running.id = id
  /-- Exactly the granted requests are accepted. -/
  accepts : state.terminal = false → ∀ toolNames,
    (∃ t, state.reduce (.toolCallsStarted toolNames) = .ok t) ↔ Granted state toolNames
  /-- What is granted later is granted or announced now. -/
  announced : state.terminal = false → ∀ ops, Along RunSnapshot.next Progresses state ops →
    ∀ name ∈ allowedToolNamesForCurrentTransition (exec RunSnapshot.next state ops),
      name ∈ allowedToolNamesForCurrentTransition state ∨ name ∈ futureAllowedToolNames state

theorem InPlanOrder.followsPlan (h : InPlanOrder state) :
    FollowsPlan state where
  owned := fun _ => h.mem_allowed
  accepts := fun hlive _ => ⟨fun ⟨_, ht⟩ => granted_of_started hlive ht,
    fun hgranted => started_of_granted hlive h.first hgranted (h.grantReady hlive hgranted)⟩
  announced := by
    intro hlive ops hops name hname
    by_cases hruns : runningSteps state.steps = []
    · -- nothing runs, so nothing is left to do, and no operation reopens a step
      obtain ⟨later, hlater, hopen, -⟩ := Purra.mem_allowed hname
      obtain ⟨step, hstep, -, hfinished⟩ := forall₂_mem_right (forwards_run hops) _ hlater
      cases hnext : nextIncomplete state.steps with
      | none =>
        rw [hfinished (by simpa using findFirst_eq_none.1 hnext step hstep)] at hopen
        cases hopen
      | some p =>
        exact absurd ((h.underWay hlive).2 p hnext)
          (runningSteps_eq_nil.1 hruns p.2 (List.mem_of_getElem? (mem_nextIncomplete hnext).1))
    · exact later_grants hlive h.first hruns hops hname

/-- Every snapshot hands out tools by its plan; in every run that neither revises the plan nor
takes statuses over, the running step stays first; and a run in which also no tool step is declined
or fails follows its plan. -/
theorem tool_authority : (∀ state, state.Reachable → ToolAuthority state) ∧
    ∀ runId plan title opened, initializeRun runId plan title = .ok opened →
      ∀ ops : List RunOperation,
        ((∀ op ∈ ops, op.Ordinary) → RunsFirst (exec RunSnapshot.next opened ops)) ∧
          ((∀ op ∈ ops, op.Undisturbed) → FollowsPlan (exec RunSnapshot.next opened ops)) :=
  ⟨fun state _ => toolAuthority state,
    fun _ _ _ _ hopened _ => ⟨fun hops => runsFirst_run hopened hops,
      fun hops => (inPlanOrder_run hopened hops).followsPlan⟩⟩

namespace RunSample

/-- Draft, then send what was drafted, then answer. -/
def draftThenSend : ExecutionPlan :=
  got (ExecutionPlan.of (.lit "Letter")
    [reasoning (.lit "draft" draft_text) [],
      calling (.lit "send") (.lit "mail") [.lit "draft" draft_text]])

/-- The Run that has started to draft. -/
def drafting : RunSnapshot := got (initializeRun (.lit "run" run_text) (some draftThenSend))

/-- Look something up, think, write it down: three steps that depend on nothing. -/
def lookThinkWrite : ExecutionPlan :=
  got (ExecutionPlan.of (.lit "Notes")
    [calling (.lit "look") (.lit "search" search_text) [], reasoning (.lit "think") [],
      calling (.lit "write") (.lit "edit") []])

/-- The Run that has started to look something up. -/
def looking : RunSnapshot := got (initializeRun (.lit "run" run_text) (some lookThinkWrite))

/-- Durable execution reports that the thinking runs and the lookup waits. -/
def reportThinking : RunOperation :=
  .reduce (.syncDurable ⟨[("look", .pending), ("think", .running)], by decide +kernel⟩)

/-- The Run after that report. -/
def thinking : RunSnapshot := exec RunSnapshot.next looking [reportThinking]

end RunSample

/-- While the evidence is gathered, the search is accepted, and the gathering stays first. -/
theorem tool_authority_gathering :
    (∃ t, RunSample.gathering.reduce (.toolCallsStarted [" search "]) = .ok t) ∧
      RunsFirst (exec RunSnapshot.next RunSample.gathering
        [.reduce (.toolCallsStarted [" search "])]) := by
  have hrun := tool_authority.2 _ _ _ _ RunSample.initializeRun_gatherThenDraft
  constructor
  · exact (((hrun []).2 fun op hop => absurd hop List.not_mem_nil).accepts (by decide +kernel) _).2
      (by decide +kernel)
  · refine (hrun _).1 fun op hop => ?_
    rw [List.mem_singleton.1 hop]
    rfl

/-- Mail is granted while the letter it depends on is still being drafted, and it is not among the
later grants although it is granted once more when the request was accepted.  When the running
step is not the first unfinished one, a granted request starts a step that calls another tool. -/
theorem grant_ahead_of_plan :
    initializeRun (.lit "run" RunSample.run_text) (some RunSample.draftThenSend) = .ok RunSample.drafting ∧
      allowedToolNamesForCurrentTransition RunSample.drafting = [.lit "mail"] ∧
      ¬ IsDone RunSample.drafting.steps (.lit "draft" RunSample.draft_text) ∧
      futureAllowedToolNames RunSample.drafting = [] ∧
      allowedToolNamesForCurrentTransition
        (RunSample.drafting.next (.reduce (.toolCallsStarted ["mail"]))) = [.lit "mail"] ∧
      initializeRun (.lit "run" RunSample.run_text) (some RunSample.lookThinkWrite) =
        .ok RunSample.looking ∧
      Granted RunSample.thinking ["edit"] ∧
      (runningSteps (RunSample.thinking.next
        (.reduce (.toolCallsStarted ["edit"]))).steps).map (·.suggestedTools) =
          [[.lit "search" RunSample.search_text]] :=
  ⟨RunSample.got_eq _, by decide +kernel, by decide +kernel, by decide +kernel,
    by decide +kernel, RunSample.got_eq _, by decide +kernel, by decide +kernel⟩

end Purra
