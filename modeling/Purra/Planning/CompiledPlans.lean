import Purra.Planning.Lowering

/-!
# Compiled plans

What a plan that the compiler has made can be relied on for.

* `Sound` — the steps of a compiled plan: what a tool needs runs before it, and what the
  compiler has added runs once.
* `Untangled` — the condition on what was asked for: no tool of a capability reaches a later
  one, by a way that leaves the capability.
* `compiled_sound_iff` — a compiled plan is sound exactly then.
-/

namespace Purra.Planning

section

variable (registrations : List ToolRegistration) (constraints : PlanningConstraints) (depth : Nat)
  (enabled : List RequiredText)

/-- The tools that are there behind a work step that asks for `roots`. -/
def behind (covered : Set RequiredText) (roots : List RequiredText) : Set RequiredText :=
  {b | b ∈ covered ∨ ∃ a ∈ roots, b = a ∨ Reach (needs registrations constraints) covered a b}

/-- No tool that a work step asks for reaches a later one through tools that are not there. -/
def Untangled : Set RequiredText → List WorkStep → Prop
  | _, [] => True
  | covered, step :: rest =>
    let roots := stepTools registrations depth enabled covered step
    (roots.Pairwise fun a b => ¬ Reach (needs registrations constraints) covered a b) ∧
      Untangled (behind registrations constraints covered roots) rest

/-- What a compiled plan can be relied on for. -/
structure Sound (satisfied : List RequiredText) (plan : WorkPlan)
    (compiled : CompiledExecutionPlan) : Prop where
  single : ∀ step ∈ compiled.executionPlan.steps, step.executor = .tool →
    ∃ name, RunsOne step name
  fresh : Fresh (satisfiedNames constraints satisfied) compiled.executionPlan.steps
  needed : InOrder (satisfiedNames constraints satisfied)
    ((runTools compiled.executionPlan.steps).map fun name =>
      (name, needs registrations constraints name))
  allowed : ∀ name ∈ compiled.insertedToolNames, name ∉ constraints.planningExcludedToolNames
  ids : (stepIds compiled.executionPlan.steps).Nodup
  dependencies : InOrder [] (stepRows compiled.executionPlan.steps)
  order : ∃ groups : List (List TaskStep), compiled.executionPlan.steps = groups.flatten ∧
    List.Forall₂ (fun group item => lastId group = some item.id) groups plan.steps

end

section

variable {py : Builtins} {registrations : List ToolRegistration} {constraints : PlanningConstraints}
  {depth : Nat} {enabled : List RequiredText} {s s' : Compilation}

/-- What the compiler makes of some work steps. -/
structure Compiles (registrations : List ToolRegistration) (constraints : PlanningConstraints)
    (depth : Nat) (enabled : List RequiredText) (s s' : Compilation) (steps : List WorkStep)
    (groups : List (List TaskStep)) : Prop where
  expanded : s'.expanded = s.expanded ++ groups.flatten
  work : List.Forall₂ (fun group (item : WorkStep) => lastId group = some item.id) groups steps
  needed : InOrder s.completed ((runTools groups.flatten).map fun name =>
    (name, needs registrations constraints name))
  single : ∀ step ∈ groups.flatten, step.executor = .tool → ∃ name, RunsOne step name
  inserted : ∃ names, s'.inserted = s.inserted ++ names ∧
    ∀ name ∈ names, name ∉ constraints.planningExcludedToolNames
  fresh : Fresh s.completed groups.flatten ↔
    Untangled registrations constraints depth enabled {a | a ∈ s.completed} steps

theorem map_fst_needs (names : List RequiredText) :
    (names.map fun name => (name, needs registrations constraints name)).map Prod.fst = names := by
  rw [List.map_map]
  exact List.map_id names

theorem compileSteps_eq_ok {capabilities : Dict RequiredText (List ToolRegistration)}
    (hcapabilities : planningCapabilities registrations enabled = .ok capabilities)
    {steps : List WorkStep}
    (h : steps.foldlM (compileStep py registrations constraints depth enabled capabilities) s =
      .ok s') :
    ∃ groups, Compiles registrations constraints depth enabled s s' steps groups := by
  induction steps generalizing s with
  | nil =>
    cases h
    exact ⟨[], (List.append_nil _).symm, .nil, trivial, fun _ h => absurd h List.not_mem_nil,
      ⟨[], (List.append_nil _).symm, fun _ h => absurd h List.not_mem_nil⟩, Iff.rfl⟩
  | cons step rest ih =>
    rw [List.foldlM_cons] at h
    obtain ⟨s₁, hfirst, hrest⟩ := bind_eq_ok h
    obtain ⟨group, hlowers, hlast, hfresh⟩ := compileStep_eq_ok hcapabilities hfirst
    obtain ⟨groups, hgroups⟩ := ih hrest
    refine ⟨group :: groups, ?_, .cons hlast hgroups.work, ?_, ?_, ?_, ?_⟩
    · rw [hgroups.expanded, hlowers.expanded, List.flatten_cons, List.append_assoc]
    · have hmore := hgroups.needed
      rw [hlowers.completed] at hmore
      rw [List.flatten_cons, runTools_append, List.map_append, inOrder_append, map_fst_needs]
      exact ⟨hlowers.insertion.inOrder, hmore⟩
    · intro made hmade
      rw [List.flatten_cons] at hmade
      exact (List.mem_append.1 hmade).elim (hlowers.single made) (hgroups.single made)
    · obtain ⟨names, hnames, hallowed⟩ := hlowers.inserted
      obtain ⟨names', hnames', hallowed'⟩ := hgroups.inserted
      refine ⟨names ++ names', by rw [hnames', hnames, List.append_assoc], fun name hname => ?_⟩
      exact (List.mem_append.1 hname).elim (hallowed name) (hallowed' name)
    · -- what the step leaves behind is what the condition goes on with
      have hbehind : {a | a ∈ s₁.completed} = behind registrations constraints {a | a ∈ s.completed}
          (stepTools registrations depth enabled {a | a ∈ s.completed} step) := by
        ext b
        show b ∈ s₁.completed ↔ _
        rw [hlowers.completed, hlowers.insertion.mem_iff]
        rfl
      have hmore := hgroups.fresh
      rw [hbehind, hlowers.completed] at hmore
      rw [List.flatten_cons, fresh_append, hfresh, hmore, Untangled]

/-- **A compiled plan is sound exactly when what was asked for is untangled.** -/
theorem compiled_sound_iff {plan : WorkPlan} {satisfied : List RequiredText}
    {enabledToolNames : Option (List RequiredText)} {compiled : CompiledExecutionPlan}
    (h : compileWorkPlan py registrations constraints depth plan satisfied enabledToolNames =
      .ok compiled) :
    Sound registrations constraints satisfied plan compiled ↔
      Untangled registrations constraints depth
        (enabledToolNames.getD (registrations.map (·.schema.name)))
        {a | a ∈ satisfiedNames constraints satisfied} plan.steps := by
  obtain ⟨capabilities, hcapabilities, h⟩ := bind_eq_ok h
  obtain ⟨s, hfold, h⟩ := bind_eq_ok h
  obtain ⟨executionPlan, hplan, h⟩ := bind_eq_ok h
  cases h
  obtain ⟨groups, hgroups⟩ := compileSteps_eq_ok hcapabilities hfold
  have hsteps : executionPlan.steps = groups.flatten :=
    (ExecutionPlan.of_eq_ok hplan).2.1.trans hgroups.expanded
  rw [← hgroups.fresh]
  constructor
  · intro hsound
    exact hsteps ▸ hsound.fresh
  · intro hfresh
    exact {
      single := by
        rw [hsteps]
        exact hgroups.single
      fresh := hsteps ▸ hfresh
      needed := hsteps ▸ hgroups.needed
      allowed := by
        obtain ⟨names, hnames, hallowed⟩ := hgroups.inserted
        rw [show s.inserted = names from hnames]
        exact hallowed
      ids := executionPlan.ids_nodup
      dependencies := executionPlan.inOrder
      order := ⟨groups, hsteps, hgroups.work⟩ }

end

/-! ## A capability with a tool outside in between -/

section

/-- The tool that writes the report. -/
def writeReport : RequiredText := ⟨"writeReport", by decide, by decide⟩

/-- The tool that checks the sources for it. -/
def checkSources : RequiredText := ⟨"checkSources", by decide, by decide⟩

/-- The tool that reads them. -/
def readSources : RequiredText := ⟨"readSources", by decide, by decide⟩

/-- The capability to report, with a tool to read and a tool to write. -/
def report : RequiredText := ⟨"report", by decide, by decide⟩

/-- A tool that needs others. -/
def sampleTool (name : RequiredText) (prerequisiteTools : List RequiredText)
    (planningCapability : Option ToolSchema) : ToolRegistration where
  schema := { name }
  policy := { mode := .read, title := name }
  prerequisiteTools
  planningCapability

/-- To write needs a check, and the check needs what was read; the check is not part of the
capability. -/
def sampleTools : List ToolRegistration :=
  [sampleTool writeReport [checkSources] (some { name := report }),
    sampleTool checkSources [readSources] none,
    sampleTool readSources [] (some { name := report })]

/-- A work step for a tool or a capability. -/
def sampleStep (name : RequiredText) : WorkStep where
  id := name
  title := name
  type := .read
  executor := .tool
  capabilityNames := [name]

/-- A plan of one step. -/
def samplePlan (name : RequiredText) : WorkPlan where
  title := name
  steps := [sampleStep name]
  steps_ne_nil := List.cons_ne_nil _ _
  ids_nodup := List.nodup_singleton _
  inOrder := ⟨fun _ h => absurd h List.not_mem_nil, trivial⟩

/-- Nothing is said of a container or read from a text. -/
def sampleBuiltins : Builtins where
  repr _ := ""
  parseInt _ := .error (.valueError "invalid literal for int()")

theorem compiles_report : ∃ compiled,
    compileWorkPlan sampleBuiltins sampleTools {} 100 (samplePlan report) = .ok compiled := by
  cases h : compileWorkPlan sampleBuiltins sampleTools {} 100 (samplePlan report) with
  | error e =>
    have hok : (compileWorkPlan sampleBuiltins sampleTools {} 100 (samplePlan report)).toBool =
        true := by decide +kernel
    rw [h] at hok
    cases hok
  | ok compiled => exact ⟨compiled, rfl⟩

theorem compiled_sound_iff_report : ∃ compiled,
    compileWorkPlan sampleBuiltins sampleTools {} 100 (samplePlan report) = .ok compiled ∧
      (Sound sampleTools {} [] (samplePlan report) compiled ↔
        Untangled sampleTools {} 100 [writeReport, checkSources, readSources] {a | a ∈ []}
          [sampleStep report]) := by
  obtain ⟨compiled, h⟩ := compiles_report
  exact ⟨compiled, h, compiled_sound_iff h⟩

/-- **A tool of the capability runs twice**: inserted for the check, and for the capability. -/
theorem report_runs_twice : ∃ compiled,
    compileWorkPlan sampleBuiltins sampleTools {} 100 (samplePlan report) = .ok compiled ∧
      runTools compiled.executionPlan.steps =
        [readSources, checkSources, writeReport, readSources] ∧
      ¬ Sound sampleTools {} [] (samplePlan report) compiled := by
  obtain ⟨compiled, h⟩ := compiles_report
  have hrun : (compileWorkPlan sampleBuiltins sampleTools {} 100 (samplePlan report)).map
      (fun compiled => (runTools compiled.executionPlan.steps,
        decide (Fresh [] compiled.executionPlan.steps))) =
      .ok ([readSources, checkSources, writeReport, readSources], false) := by decide +kernel
  rw [h] at hrun
  obtain ⟨htools, hfresh⟩ := Prod.mk.inj (Except.ok.inj hrun)
  exact ⟨compiled, h, htools, fun hsound => of_decide_eq_false hfresh hsound.fresh⟩

end

end Purra.Planning
