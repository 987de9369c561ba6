import Purra.Planning.Prerequisites

/-!
# What a work step becomes

The loop of the compiler, one work step at a time.

* `Fresh` — no step the compiler has made runs a tool that is there already.
* `stepTools` — the tools a work step asks for, in the order of the capability.
* `Lowers` — what the compiler makes of one work step.
* `compileStep_eq_ok` — it does, and nothing runs twice exactly when no tool of the
  capability reaches a later one.
-/

namespace Purra.Planning

/-! ## Steps and their tools -/

/-- The tools the steps run, in order. -/
def runTools (steps : List TaskStep) : List RequiredText :=
  steps.flatMap fun step => if step.executor = .tool then step.suggestedTools else []

/-- The step was made by the compiler: inserted, or behind a capability. -/
def Made (step : TaskStep) : Prop :=
  step.protocolPrivate = true ∨ step.planningCapability ≠ none

instance (step : TaskStep) : Decidable (Made step) := inferInstanceAs (Decidable (_ ∨ _))

/-- No step the compiler has made runs a tool that is in `done` or that a step before it runs. -/
def Fresh : List RequiredText → List TaskStep → Prop
  | _, [] => True
  | done, step :: rest =>
    (Made step → ∀ name ∈ step.suggestedTools, name ∉ done) ∧ Fresh (done ++ runTools [step]) rest

instance decidableFresh : (done : List RequiredText) → (steps : List TaskStep) →
    Decidable (Fresh done steps)
  | _, [] => isTrue trivial
  | done, step :: rest =>
    have := decidableFresh (done ++ runTools [step]) rest
    inferInstanceAs (Decidable
      ((Made step → ∀ name ∈ step.suggestedTools, name ∉ done) ∧
        Fresh (done ++ runTools [step]) rest))

theorem Made.executor {step : TaskStep} (h : Made step) : step.executor = .tool :=
  h.elim step.private_tool step.capability_tool

/-- The step runs one tool. -/
structure RunsOne (step : TaskStep) (name : RequiredText) : Prop where
  executor : step.executor = .tool
  tools : step.suggestedTools = [name]

section

variable {done : List RequiredText} {step : TaskStep} {xs ys steps : List TaskStep}
  {names : List RequiredText} {name : RequiredText}

@[simp] theorem runTools_nil : runTools [] = [] := rfl

theorem runTools_append : runTools (xs ++ ys) = runTools xs ++ runTools ys := List.flatMap_append

theorem runTools_cons : runTools (step :: xs) = runTools [step] ++ runTools xs := by
  rw [← runTools_append]
  rfl

theorem RunsOne.runTools (h : RunsOne step name) : runTools [step] = [name] := by
  simp [Planning.runTools, h.executor, h.tools]

theorem runTools_of_forall₂ (h : List.Forall₂ RunsOne steps names) : runTools steps = names := by
  induction h with
  | nil => rfl
  | cons hone _ ih => rw [runTools_cons, hone.runTools, ih]; rfl

theorem fresh_append :
    Fresh done (xs ++ ys) ↔ Fresh done xs ∧ Fresh (done ++ runTools xs) ys := by
  induction xs generalizing done with
  | nil => simp [Fresh]
  | cons step rest ih =>
    have hdone : done ++ runTools (step :: rest) = done ++ runTools [step] ++ runTools rest := by
      rw [runTools_cons, List.append_assoc]
    rw [List.cons_append, Fresh, Fresh, ih, hdone, and_assoc]

theorem forall₂_runTools (h : ∀ step ∈ steps, ∃ name, RunsOne step name) :
    List.Forall₂ RunsOne steps (runTools steps) := by
  induction steps with
  | nil => exact .nil
  | cons step rest ih =>
    obtain ⟨name, hone⟩ := h step List.mem_cons_self
    rw [runTools_cons, hone.runTools]
    exact .cons hone (ih fun step hmem => h step (List.mem_cons_of_mem _ hmem))

/-- Steps that are all made by the compiler. -/
theorem fresh_iff_of_made (hmade : ∀ step ∈ steps, Made step)
    (hone : List.Forall₂ RunsOne steps names) :
    Fresh done steps ↔ names.Nodup ∧ ∀ name ∈ names, name ∉ done := by
  induction hone generalizing done with
  | nil => simp [Fresh]
  | @cons step name steps names hstep _ ih =>
    rw [Fresh, hstep.runTools, hstep.tools, ih fun step hmem =>
      hmade step (List.mem_cons_of_mem _ hmem), List.nodup_cons,
      List.forall_mem_cons (l := names)]
    have hself := hmade step List.mem_cons_self
    constructor
    · rintro ⟨hfirst, hnodup, hrest⟩
      exact ⟨⟨fun hmem => hrest name hmem (by simp), hnodup⟩, hfirst hself name (by simp),
        fun other hother hdone => hrest other hother (List.mem_append_left _ hdone)⟩
    · rintro ⟨⟨hnot, hnodup⟩, hfirst, hrest⟩
      refine ⟨fun _ other hother => ?_, hnodup, fun other hother hdone => ?_⟩
      · rwa [List.mem_singleton.1 hother]
      · rcases List.mem_append.1 hdone with hdone | hdone
        · exact hrest other hother hdone
        · exact hnot (List.mem_singleton.1 hdone ▸ hother)

/-- A step that the compiler has not made may run anything. -/
theorem fresh_of_not_made (h : ¬ Made step) : Fresh done [step] :=
  ⟨fun hmade => absurd hmade h, trivial⟩

end

/-! ## What a work step asks for -/

section

variable (registrations : List ToolRegistration) (constraints : PlanningConstraints) (depth : Nat)
  (enabled : List RequiredText)

/-- The tools behind a capability, in the order they run in. -/
def capabilityTools (selected : RequiredText) : Except PyError (List RequiredText) := do
  let capabilities ← planningCapabilities registrations enabled
  orderedRuntimeNames depth ((capabilities.get? selected).getD [])

open Classical in
/-- The tools a work step asks for when `covered` are there: its tool, or what is still to run
of its capability. -/
noncomputable def stepTools (covered : Set RequiredText) (step : WorkStep) : List RequiredText :=
  if step.executor = .tool then
    step.capabilityNames.flatMap fun selected =>
      if (byName registrations selected).isSome then [selected]
      else ((capabilityTools registrations depth enabled selected).toOption.getD []).filter
        (· ∉ covered)
  else []

end

/-! ## The order of a capability -/

section

variable {registrations : List ToolRegistration} {depth : Nat}

/-- What a visit does: names that are on the way stay out of the order. -/
structure Visits (s s' : Ordering) : Prop where
  visiting : ∀ name ∈ s.visiting, name ∈ s'.visiting
  kept : ∀ name ∈ s'.ordered, name ∈ s.ordered ∨ name ∉ s.visiting
  once : s.ordered.Nodup ∧ (∀ name ∈ s.ordered, name ∈ s.visited) →
    s'.ordered.Nodup ∧ ∀ name ∈ s'.ordered, name ∈ s'.visited

namespace Visits

variable {s s' s'' : Ordering}

theorem refl (s : Ordering) : Visits s s where
  visiting := fun _ h => h
  kept := fun _ h => .inl h
  once := fun h => h

theorem trans (h : Visits s s') (h' : Visits s' s'') : Visits s s'' where
  visiting := fun name hname => h'.visiting name (h.visiting name hname)
  kept := by
    intro name hname
    rcases h'.kept name hname with hold | hnot
    · exact h.kept name hold
    · exact .inr fun hname => hnot (h.visiting name hname)
  once := fun hs => h'.once (h.once hs)

end Visits

theorem visits_foldlM {f : Ordering → RequiredText → Except PyError Ordering}
    (hf : ∀ s name s', f s name = .ok s' → Visits s s') {names : List RequiredText}
    {s s' : Ordering} (h : names.foldlM f s = .ok s') : Visits s s' := by
  induction names generalizing s with
  | nil =>
    cases h
    exact .refl _
  | cons name rest ih =>
    rw [List.foldlM_cons] at h
    obtain ⟨s₁, hfirst, hrest⟩ := bind_eq_ok h
    exact (hf s name s₁ hfirst).trans (ih hrest)

theorem visit_eq_ok {s s' : Ordering} {name : RequiredText}
    (h : visit registrations depth s name = .ok s') : Visits s s' := by
  induction depth generalizing s name s' with
  | zero => cases h
  | succ depth ih =>
    unfold visit at h
    split at h
    · cases h
      exact .refl s
    next hvisited =>
    split at h
    · cases h
    next hvisiting =>
    split at h
    · cases h
    next registration _ =>
    obtain ⟨s₁, hneeded, h⟩ := bind_eq_ok h
    cases h
    have hinner : Visits { s with visiting := name :: s.visiting } s₁ := by
      refine visits_foldlM (fun s dependency s' hcall => ?_) hneeded
      split at hcall
      · exact ih hcall
      · cases hcall
        exact .refl s
    refine ⟨fun other hother => ?_, fun other hother => ?_, fun hs => ?_⟩
    · have hne : other ≠ name := fun heq => hvisiting (heq ▸ hother)
      exact (List.mem_erase_of_ne hne).2
        (hinner.visiting other (List.mem_cons_of_mem name hother))
    · rcases List.mem_append.1 hother with hother | hother
      · exact (hinner.kept other hother).imp_right fun hnot hmem =>
          hnot (List.mem_cons_of_mem name hmem)
      · rw [List.mem_singleton.1 hother]
        exact .inr hvisiting
    · obtain ⟨hnodup, hsub⟩ := hinner.once hs
      -- the name has been on the way all the time
      have hnew : name ∉ s₁.ordered := by
        intro hmem
        rcases hinner.kept name hmem with hold | hnot
        · exact hvisited (hs.2 name hold)
        · exact hnot List.mem_cons_self
      refine ⟨List.nodup_append.2 ⟨hnodup, List.nodup_singleton name, ?_⟩, ?_⟩
      · intro other hother self hself heq
        exact hnew (List.mem_singleton.1 hself ▸ heq ▸ hother)
      · intro other hother
        rcases List.mem_append.1 hother with hother | hother
        · exact List.mem_cons_of_mem name (hsub other hother)
        · rw [List.mem_singleton.1 hother]
          exact List.mem_cons_self

/-- A tool has one place in the order of its capability. -/
theorem orderedRuntimeNames_nodup {names : List RequiredText}
    (h : orderedRuntimeNames depth registrations = .ok names) : names.Nodup := by
  obtain ⟨s, hfold, h⟩ := bind_eq_ok h
  cases h
  have hvisits := visits_foldlM (fun _ _ _ => visit_eq_ok) hfold
  exact (hvisits.once ⟨List.nodup_nil, fun _ h => absurd h List.not_mem_nil⟩).1

end

/-! ## What a work step becomes -/

section

variable {py : Builtins} {registrations : List ToolRegistration} {constraints : PlanningConstraints}
  {depth : Nat} {s s' : Compilation} {group more : List TaskStep}
  {roots out names : List RequiredText}

theorem Supplied.supplies {tool : RequiredText} {new : List RequiredText}
    (h : Supplied registrations constraints [] tool s s' new) :
    Supplies (needs registrations constraints) s.completed new tool where
  toPostorder := h.order
  apart := fun hmem => h.apart tool hmem (List.mem_singleton_self tool)
  needed_mem := by
    rw [← h.inserts.completed]
    exact h.needed
  reached := h.reached

theorem IsHost.runsOne {step : TaskStep} {name : RequiredText} (h : IsHost step name) :
    RunsOne step name := ⟨h.executor, h.tools⟩

/-- What the compiler has added, the `roots` and all they need. -/
structure Lowers (registrations : List ToolRegistration) (constraints : PlanningConstraints)
    (s s' : Compilation) (group : List TaskStep) (roots : List RequiredText) : Prop where
  expanded : s'.expanded = s.expanded ++ group
  completed : s'.completed = s.completed ++ runTools group
  insertion : Insertion (needs registrations constraints) s.completed roots (runTools group)
  single : ∀ step ∈ group, step.executor = .tool → ∃ name, RunsOne step name
  inserted : ∃ names, s'.inserted = s.inserted ++ names ∧
    ∀ name ∈ names, name ∉ constraints.planningExcludedToolNames

namespace Lowers

theorem refl (s : Compilation) : Lowers registrations constraints s s [] [] where
  expanded := (List.append_nil _).symm
  completed := (List.append_nil _).symm
  insertion := .nil
  single := fun _ h => absurd h List.not_mem_nil
  inserted := ⟨[], (List.append_nil _).symm, fun _ h => absurd h List.not_mem_nil⟩

theorem append {s'' : Compilation} {roots' : List RequiredText}
    (h : Lowers registrations constraints s s' group roots)
    (h' : Lowers registrations constraints s' s'' more roots') :
    Lowers registrations constraints s s'' (group ++ more) (roots ++ roots') where
  expanded := by rw [h'.expanded, h.expanded, List.append_assoc]
  completed := by rw [h'.completed, h.completed, runTools_append, List.append_assoc]
  insertion := by
    have hmore := h'.insertion
    rw [h.completed] at hmore
    rw [runTools_append]
    exact h.insertion.append hmore
  single := fun step hstep =>
    (List.mem_append.1 hstep).elim (h.single step) (h'.single step)
  inserted := by
    obtain ⟨names, hnames, hallowed⟩ := h.inserted
    obtain ⟨names', hnames', hallowed'⟩ := h'.inserted
    refine ⟨names ++ names', by rw [hnames', hnames, List.append_assoc], fun name hname => ?_⟩
    exact (List.mem_append.1 hname).elim (hallowed name) (hallowed' name)

/-- A tool and what it needs. -/
theorem of_supplied {tool : RequiredText} {new : List RequiredText} {s₁ : Compilation}
    (s' : Compilation) (step : TaskStep) (h : Supplied registrations constraints [] tool s s₁ new)
    (hone : RunsOne step tool) (hexpanded : s'.expanded = s₁.expanded ++ [step])
    (hcompleted : s'.completed = s₁.completed ++ [tool]) (hinserted : s'.inserted = s₁.inserted) :
    ∃ hosts, List.Forall₂ IsHost hosts new ∧
      Lowers registrations constraints s s' (hosts ++ [step]) [tool] := by
  obtain ⟨hosts, hhosts, hforall⟩ := h.inserts.expanded
  have hrun : runTools (hosts ++ [step]) = new ++ [tool] := by
    rw [runTools_append, hone.runTools, runTools_of_forall₂ (hforall.imp fun _ _ => IsHost.runsOne)]
  refine ⟨hosts, hforall, ?_⟩
  exact {
    expanded := by rw [hexpanded, hhosts, List.append_assoc]
    completed := by rw [hcompleted, h.inserts.completed, hrun, List.append_assoc]
    insertion := by
      rw [hrun]
      exact .single h.supplies
    single := by
      intro other hother _
      rcases List.mem_append.1 hother with hhost | hself
      · obtain ⟨name, -, hname⟩ := forall₂_mem_left hforall other hhost
        exact ⟨name, hname.runsOne⟩
      · exact ⟨tool, List.mem_singleton.1 hself ▸ hone⟩
    inserted := ⟨new, hinserted.trans h.inserts.inserted, h.allowed⟩ }

end Lowers

/-- A private tool of a capability. -/
theorem lowerTool_eq_ok {step : WorkStep} {selected : RequiredText}
    {htool : step.executor = .tool} {last : Nat} {previous previous' : Option RequiredText}
    {tool : RequiredText × Nat}
    (h : lowerTool py registrations constraints depth step selected htool last (s, previous) tool =
      .ok (s', previous')) :
    ∃ group final, Lowers registrations constraints s s' (group ++ [final]) [tool.1] ∧
      (∀ made ∈ group ++ [final], Made made) ∧ (tool.2 = last → final.id = step.id) := by
  obtain ⟨s₁, hneeded, h⟩ := bind_eq_ok h
  obtain ⟨new, hsupplied⟩ := appendPrerequisites_eq_ok hneeded
  dsimp only at h
  split at h
  · cases h
  next registration _ =>
  obtain ⟨id, hid, h⟩ := bind_eq_ok h
  obtain ⟨hs, -⟩ := Prod.mk.inj (Except.ok.inj h)
  obtain ⟨hosts, hhosts, hlowers⟩ := Lowers.of_supplied s'
    (runtimeStep step selected registration tool.1 id (tool.2 = last) previous htool)
    hsupplied ⟨htool, rfl⟩ (by rw [← hs]) (by rw [← hs]) (by rw [← hs])
  refine ⟨hosts, _, hlowers, fun made hmade => ?_, fun hlast => ?_⟩
  · rcases List.mem_append.1 hmade with hhost | hself
    · obtain ⟨name, -, hname⟩ := forall₂_mem_left hhosts made hhost
      exact .inl hname.hidden
    · rw [List.mem_singleton.1 hself]
      exact .inr (Option.some_ne_none selected)
  · rw [if_pos (by simpa using hlast), RequiredText.of_text] at hid
    exact (Except.ok.inj hid).symm

/-- The id of the last step. -/
def lastId (group : List TaskStep) : Option RequiredText := group.getLast?.map (·.id)

theorem lastId_append (h : more ≠ []) : lastId (group ++ more) = lastId more := by
  rw [lastId, List.getLast?_append_of_ne_nil _ h, lastId]

/-- The private tools of a capability. -/
theorem lowerTools_eq_ok {step : WorkStep} {selected : RequiredText}
    {htool : step.executor = .tool} {last : Nat} {previous previous' : Option RequiredText}
    {tools : List (RequiredText × Nat)}
    (h : tools.foldlM (lowerTool py registrations constraints depth step selected htool last)
      (s, previous) = .ok (s', previous')) :
    ∃ group, Lowers registrations constraints s s' group (tools.map Prod.fst) ∧
      (∀ made ∈ group, Made made) ∧ (tools ≠ [] → group ≠ []) ∧
      ((tools.getLast?.map Prod.snd) = some last → lastId group = some step.id) := by
  induction tools generalizing s previous with
  | nil =>
    cases h
    exact ⟨[], .refl _, fun _ h => absurd h List.not_mem_nil, fun h => absurd rfl h,
      fun h => by cases h⟩
  | cons tool rest ih =>
    rw [List.foldlM_cons] at h
    obtain ⟨⟨s₁, previous₁⟩, hfirst, hrest⟩ := bind_eq_ok h
    obtain ⟨group, final, hlowers, hmade, hfinal⟩ := lowerTool_eq_ok hfirst
    obtain ⟨more, hmore, hmade', hne, hlast⟩ := ih hrest
    refine ⟨group ++ [final] ++ more, hlowers.append hmore, fun made hmem => ?_, fun _ => by simp,
      fun hend => ?_⟩
    · exact (List.mem_append.1 hmem).elim (hmade made) (hmade' made)
    · cases rest with
      | nil =>
        cases hrest
        have hnone : more = [] := by
          exact List.append_right_eq_self.1 hmore.expanded.symm
        have hself : tool.2 = last := Option.some.inj hend
        rw [hnone, List.append_nil, lastId, List.getLast?_append]
        simp [hfinal hself]
      | cons next others =>
        rw [lastId_append (hne (List.cons_ne_nil next others))]
        refine hlast ?_
        rwa [List.getLast?_cons_cons] at hend

/-- **What the compiler makes of one work step**: the tools the step asks for, each behind what
it needs, and the step itself at the end; nothing runs twice exactly when no tool the step asks
for reaches a later one. -/
theorem compileStep_eq_ok {enabled : List RequiredText}
    {capabilities : Dict RequiredText (List ToolRegistration)}
    (hcapabilities : planningCapabilities registrations enabled = .ok capabilities)
    {step : WorkStep}
    (h : compileStep py registrations constraints depth enabled capabilities s step = .ok s') :
    let roots := stepTools registrations depth enabled {a | a ∈ s.completed} step
    ∃ group, Lowers registrations constraints s s' group roots ∧ lastId group = some step.id ∧
      (Fresh s.completed group ↔ roots.Pairwise fun a b =>
        ¬ Reach (needs registrations constraints) {a | a ∈ s.completed} a b) := by
  intro roots
  unfold compileStep at h
  split at h
  next htool =>
    split at h
    next selected hnames =>
      split at h
      next registration hregistration =>
        have hroots : roots = [selected] := by
          simp only [roots, stepTools, htool, hnames, if_true, List.flatMap_cons, List.flatMap_nil,
            hregistration, Option.isSome_some, List.append_nil]
        split at h
        · cases h
        split at h
        · cases h
        obtain ⟨s₁, hneeded, h⟩ := bind_eq_ok h
        obtain ⟨new, hsupplied⟩ := appendPrerequisites_eq_ok hneeded
        have hs := Except.ok.inj h
        obtain ⟨hosts, hhosts, hlowers⟩ := Lowers.of_supplied s' (toExecutionStep step)
          hsupplied ⟨htool, hnames⟩ (by rw [← hs]) (by rw [← hs]) (by rw [← hs])
        refine ⟨hosts ++ [toExecutionStep step], hroots ▸ hlowers, ?_, ?_⟩
        · rw [lastId_append (List.cons_ne_nil _ _)]
          rfl
        · rw [hroots]
          refine iff_of_true (fresh_append.2 ⟨?_, fresh_of_not_made ?_⟩)
            (List.pairwise_singleton _ _)
          · have hone := hhosts.imp fun _ _ => IsHost.runsOne
            refine (fresh_iff_of_made (fun made hmade => ?_) hone).2
              ⟨hsupplied.order.nodup, hsupplied.order.fresh⟩
            obtain ⟨name, -, hname⟩ := forall₂_mem_left hhosts made hmade
            exact .inl hname.hidden
          · rintro (hprivate | hcapability)
            · cases hprivate
            · exact hcapability rfl
      next hregistration =>
        split at h
        · cases h
        next members hmembers =>
        obtain ⟨ordered, hordered, h⟩ := bind_eq_ok h
        dsimp only at h
        split at h
        · cases h
        next hsequence =>
        obtain ⟨⟨s₁, previous⟩, hfold, h⟩ := bind_eq_ok h
        cases h
        have htools : capabilityTools registrations depth enabled selected = .ok ordered := by
          rw [capabilityTools, hcapabilities, ok_bind, hmembers]
          exact hordered
        have hroots : roots = ordered.filter (· ∉ s.completed) := by
          simp only [roots, stepTools, htool, hnames, if_true, List.flatMap_cons, List.flatMap_nil,
            hregistration, Option.isSome_none, htools, Except.toOption, Option.getD_some,
            List.append_nil, Bool.false_eq_true, if_false]
          exact List.filter_congr fun name _ => decide_eq_decide.2 Iff.rfl
        rw [← hroots] at hfold hsequence
        obtain ⟨group, hlowers, hmade, -, hlast⟩ := lowerTools_eq_ok hfold
        rw [List.zipIdx_map_fst] at hlowers
        refine ⟨group, hlowers, hlast ?_, ?_⟩
        · rw [List.getLast?_zipIdx, List.getLast?_eq_some_getLast hsequence]
          simp
        · have hone := forall₂_runTools fun made hmem =>
            hlowers.single made hmem (hmade made hmem).executor
          rw [fresh_iff_of_made hmade hone, hlowers.insertion.fresh_iff
            (hroots ▸ (orderedRuntimeNames_nodup hordered).filter _)]
          refine and_iff_right fun name hname => ?_
          rw [hroots, List.mem_filter] at hname
          exact of_decide_eq_true hname.2
    next => cases h
  next htool =>
    cases h
    have hroots : roots = [] := by simp only [roots, stepTools, htool, if_false]
    have hrun : runTools [toExecutionStep step] = [] := by simp [runTools, toExecutionStep, htool]
    refine ⟨[toExecutionStep step], ?_, rfl, ?_⟩
    · rw [hroots]
      exact {
        expanded := rfl
        completed := by rw [hrun, List.append_nil]
        insertion := by
          rw [hrun]
          exact .nil
        single := by
          intro other hother hexecutor
          rw [List.mem_singleton.1 hother] at hexecutor
          exact absurd hexecutor htool
        inserted := ⟨[], (List.append_nil _).symm, fun _ h => absurd h List.not_mem_nil⟩ }
    · rw [hroots]
      refine iff_of_true (fresh_of_not_made ?_) List.Pairwise.nil
      rintro (hprivate | hcapability)
      · cases hprivate
      · exact hcapability rfl

end

end Purra.Planning
