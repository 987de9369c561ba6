import Mathlib.Data.List.Perm.Subperm
import Purra.Lib.Postorder
import Purra.Planning.Compiler

/-!
# What the compiler inserts

* `Inserts` — what the insertion of some prerequisites changes.
* `Supplied` — what `append_prerequisites` guarantees: all that a tool needs is there, what was
  not there has been inserted once and behind what it needs itself, and nothing else was.
* `appendPrerequisites_eq_ok` — it does, whenever it returns.
-/

namespace Purra.Planning

/-! ## Prerequisites -/

section

variable {py : Builtins} {registrations : List ToolRegistration} {constraints : PlanningConstraints}
  {s s' s'' : Compilation} {new more : List RequiredText} {tool : RequiredText}
  {path : List RequiredText}

/-- The prerequisites of a tool whose edges are not waived. -/
def needs (registrations : List ToolRegistration) (constraints : PlanningConstraints)
    (tool : RequiredText) : List RequiredText :=
  (((byName registrations tool).map (·.prerequisiteTools)).getD []).filter fun dependency =>
    (tool, dependency) ∉ constraints.satisfiedToolDependencyEdges

/-- A step that was inserted for a prerequisite. -/
structure IsHost (step : TaskStep) (name : RequiredText) : Prop where
  tools : step.suggestedTools = [name]
  executor : step.executor = .tool
  hidden : step.protocolPrivate = true
  capability : step.planningCapability = none

/-- What the insertion of some prerequisites changes. -/
structure Inserts (s s' : Compilation) (new : List RequiredText) : Prop where
  completed : s'.completed = s.completed ++ new
  inserted : s'.inserted = s.inserted ++ new
  lowered : s'.lowered = s.lowered
  expanded : ∃ steps, s'.expanded = s.expanded ++ steps ∧ List.Forall₂ IsHost steps new

theorem Inserts.refl (s : Compilation) : Inserts s s [] where
  completed := (List.append_nil _).symm
  inserted := (List.append_nil _).symm
  lowered := rfl
  expanded := ⟨[], (List.append_nil _).symm, .nil⟩

theorem Inserts.trans (h : Inserts s s' new) (h' : Inserts s' s'' more) :
    Inserts s s'' (new ++ more) where
  completed := by rw [h'.completed, h.completed, List.append_assoc]
  inserted := by rw [h'.inserted, h.inserted, List.append_assoc]
  lowered := h'.lowered.trans h.lowered
  expanded := by
    obtain ⟨steps, hsteps, hhost⟩ := h.expanded
    obtain ⟨steps', hsteps', hhost'⟩ := h'.expanded
    exact ⟨steps ++ steps', by rw [hsteps', hsteps, List.append_assoc], List.rel_append hhost hhost'⟩

theorem insertStep_eq_ok {registration : ToolRegistration} {name : RequiredText}
    (h : insertStep s tool registration name = .ok s') : Inserts s s' [name] := by
  obtain ⟨id, -, h⟩ := bind_eq_ok h
  cases h
  exact ⟨rfl, rfl, rfl, [hostStep id tool registration name], rfl,
    .cons ⟨rfl, rfl, rfl, rfl⟩ .nil⟩

/-- What is inserted for some prerequisites of a tool, on the way to it. -/
structure Adds (registrations : List ToolRegistration) (constraints : PlanningConstraints)
    (path : List RequiredText) (tool : RequiredText) (s s' : Compilation)
    (new : List RequiredText) : Prop where
  inserts : Inserts s s' new
  order : Postorder (needs registrations constraints) s.completed new
  allowed : ∀ name ∈ new, name ∉ constraints.planningExcludedToolNames
  apart : ∀ name ∈ new, name ∉ path ++ [tool]
  reached : ∀ name ∈ new, Reach (needs registrations constraints) {c | c ∈ s.completed} tool name

theorem Adds.refl (s : Compilation) : Adds registrations constraints path tool s s [] where
  inserts := .refl s
  order := .nil
  allowed := fun _ h => absurd h List.not_mem_nil
  apart := fun _ h => absurd h List.not_mem_nil
  reached := fun _ h => absurd h List.not_mem_nil

theorem Adds.trans (h : Adds registrations constraints path tool s s' new)
    (h' : Adds registrations constraints path tool s' s'' more) :
    Adds registrations constraints path tool s s'' (new ++ more) where
  inserts := h.inserts.trans h'.inserts
  order := h.order.append (h.inserts.completed ▸ h'.order)
  allowed := fun name hname => (List.mem_append.1 hname).elim (h.allowed name) (h'.allowed name)
  apart := fun name hname => (List.mem_append.1 hname).elim (h.apart name) (h'.apart name)
  reached := by
    intro name hname
    rcases List.mem_append.1 hname with hname | hname
    · exact h.reached name hname
    · refine (h'.reached name hname).mono fun a ha => ?_
      rw [h.inserts.completed]
      exact List.mem_append_left _ ha

/-- What `append_prerequisites` guarantees. -/
structure Supplied (registrations : List ToolRegistration) (constraints : PlanningConstraints)
    (path : List RequiredText) (tool : RequiredText) (s s' : Compilation)
    (new : List RequiredText) : Prop
    extends Adds registrations constraints path tool s s' new where
  acyclic : tool ∉ path
  needed : ∀ name ∈ needs registrations constraints tool, name ∈ s'.completed

/-- One prerequisite. -/
theorem appendDependency_eq_ok
    {needed : Compilation → RequiredText → Except PyError Compilation}
    (hneeded : ∀ s name s', needed s name = .ok s' →
      ∃ new, Supplied registrations constraints (path ++ [tool]) name s s' new)
    {dependency : RequiredText}
    (hmem : (tool, dependency) ∉ constraints.satisfiedToolDependencyEdges →
      dependency ∈ needs registrations constraints tool)
    (h : appendDependency py registrations constraints needed tool s dependency = .ok s') :
    (∃ new, Adds registrations constraints path tool s s' new) ∧
      ((tool, dependency) ∉ constraints.satisfiedToolDependencyEdges → dependency ∈ s'.completed) := by
  unfold appendDependency at h
  split at h
  · next hdone =>
    cases h
    exact ⟨⟨[], .refl s⟩, fun hopen => hdone.resolve_right hopen⟩
  next hdone =>
  rw [not_or] at hdone
  split at h
  · cases h
  next hallowed =>
  obtain ⟨s₁, hcall, h⟩ := bind_eq_ok h
  obtain ⟨new, hsupplied⟩ := hneeded s dependency s₁ hcall
  have hedge : dependency ∈ needs registrations constraints tool ∧ dependency ∉ s.completed :=
    ⟨hmem hdone.2, hdone.1⟩
  have hadds : Adds registrations constraints path tool s s₁ new := {
    inserts := hsupplied.inserts
    order := hsupplied.order
    allowed := hsupplied.allowed
    apart := fun name hname hpath =>
      hsupplied.apart name hname (List.mem_append_left [dependency] hpath)
    reached := fun name hname => Relation.TransGen.head hedge (hsupplied.reached name hname) }
  split at h
  · next hthere =>
    cases h
    exact ⟨⟨new, hadds⟩, fun _ => hthere⟩
  next hthere =>
  split at h
  · cases h
  · have hinserts := insertStep_eq_ok h
    have hone : Adds registrations constraints path tool s s' (new ++ [dependency]) := {
      inserts := hadds.inserts.trans hinserts
      order := by
        have hcompleted := hadds.inserts.completed
        refine hadds.order.snoc (hcompleted ▸ hthere) fun name hname => ?_
        rw [← hcompleted]
        exact hsupplied.needed name hname
      allowed := by
        intro name hname
        rcases List.mem_append.1 hname with hname | hname
        · exact hadds.allowed name hname
        · rwa [List.mem_singleton.1 hname]
      apart := by
        intro name hname
        rcases List.mem_append.1 hname with hname | hname
        · exact hadds.apart name hname
        · rw [List.mem_singleton.1 hname]
          exact hsupplied.acyclic
      reached := by
        intro name hname
        rcases List.mem_append.1 hname with hname | hname
        · exact hadds.reached name hname
        · rw [List.mem_singleton.1 hname]
          exact .single hedge }
    refine ⟨⟨_, hone⟩, fun _ => ?_⟩
    rw [hinserts.completed]
    exact List.mem_append_right _ (List.mem_singleton_self dependency)

/-- All prerequisites, one after the other. -/
theorem appendDependencies_eq_ok
    {needed : Compilation → RequiredText → Except PyError Compilation}
    (hneeded : ∀ s name s', needed s name = .ok s' →
      ∃ new, Supplied registrations constraints (path ++ [tool]) name s s' new)
    {dependencies : List RequiredText}
    (hmem : ∀ name ∈ dependencies, (tool, name) ∉ constraints.satisfiedToolDependencyEdges →
      name ∈ needs registrations constraints tool)
    (h : dependencies.foldlM (appendDependency py registrations constraints needed tool) s = .ok s') :
    (∃ new, Adds registrations constraints path tool s s' new) ∧
      ∀ name ∈ dependencies, (tool, name) ∉ constraints.satisfiedToolDependencyEdges →
        name ∈ s'.completed := by
  induction dependencies generalizing s with
  | nil =>
    cases h
    exact ⟨⟨[], .refl _⟩, fun name hname => absurd hname List.not_mem_nil⟩
  | cons dependency rest ih =>
    rw [List.foldlM_cons] at h
    obtain ⟨s₁, hfirst, hrest⟩ := bind_eq_ok h
    obtain ⟨⟨new, hadds⟩, hthere⟩ :=
      appendDependency_eq_ok hneeded (hmem dependency List.mem_cons_self) hfirst
    obtain ⟨⟨more, hmore⟩, hothers⟩ :=
      ih (fun name hname => hmem name (List.mem_cons_of_mem dependency hname)) hrest
    refine ⟨⟨new ++ more, hadds.trans hmore⟩, fun name hname hopen => ?_⟩
    rcases List.mem_cons.1 hname with rfl | hname
    · rw [hmore.inserts.completed]
      exact List.mem_append_left more (hthere hopen)
    · exact hothers name hname hopen

/-- **What a tool needs is supplied**, whenever the insertion returns. -/
theorem appendPrerequisites_eq_ok {depth : Nat}
    (h : appendPrerequisites py registrations constraints depth path s tool = .ok s') :
    ∃ new, Supplied registrations constraints path tool s s' new := by
  induction depth generalizing path s tool s' with
  | zero => cases h
  | succ depth ih =>
    unfold appendPrerequisites at h
    split at h
    · cases h
    next hpath =>
    split at h
    · cases h
    next registration hregistration =>
    have hneeds : ∀ name, name ∈ needs registrations constraints tool ↔
        name ∈ registration.prerequisiteTools ∧
          (tool, name) ∉ constraints.satisfiedToolDependencyEdges := by
      intro name
      simp [needs, hregistration]
    obtain ⟨⟨new, hadds⟩, hthere⟩ := appendDependencies_eq_ok (fun _ _ _ hcall => ih hcall)
      (fun name hname hopen => (hneeds name).2 ⟨hname, hopen⟩) h
    exact ⟨new, hadds, hpath, fun name hname =>
      hthere name ((hneeds name).1 hname).1 ((hneeds name).1 hname).2⟩

end

end Purra.Planning
