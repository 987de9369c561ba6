import Purra.AgentTree.Settling

/-!
# The shape of the tree

What holds of the records at every moment of an orderly run, whatever is spawned, continued,
completed, failed or canceled in between, and by whomever.

* `Lively` — the invariant of the statuses: who is active has a live parent, is its Agent's only
  active Run, and has an open Agent; and the Runs of an Agent are linked from its latest one back.
* `lively_change` — every orderly call keeps it: an admission adds queued Runs under live ones, and
  any other call settles the state.
* `validateStoredDependencies` — the check of a stored tree, which every tree of good shape passes.
* `shape_kept` — **the five properties of the tree along every orderly run.**
-/

namespace Purra

open Purra.Action RunTree

/-- The Runs `l`, newest first, linked by their predecessors from `latest` on. -/
def Linked : Option RequiredText → List RunIdentity → Prop
  | none, [] => True
  | some id, i :: rest => i.runId = id ∧ Linked i.previousRunId rest
  | none, _ :: _ => False
  | some _, [] => False

/-- The Runs of the Agent make one chain that ends at `latest`. -/
structure Chained (s : AgentTreeState) (agentId : RequiredText) (latest : Option RequiredText)
    (l : List RunIdentity) : Prop where
  linked : Linked latest l
  nodup : l.Nodup
  all : ∀ i, i ∈ l ↔ s.HasRun i ∧ i.agentId = agentId

/-- What the statuses of the records say about each other. -/
structure Lively (s : AgentTreeState) : Prop where
  parent : ∀ {k r p}, s.runs.get? k = some r → r.status.active = true → r.parentRunId = some p →
    ∃ u, s.runs.get? p.text = some u ∧ u.status.live = true
  alone : ∀ {k k' r r'}, s.runs.get? k = some r → s.runs.get? k' = some r' →
    r.status.active = true → r'.status.active = true → r.agentId = r'.agentId → k = k'
  opened : ∀ {k r a}, s.runs.get? k = some r → r.status.active = true →
    s.agents.get? r.agentId.text = some a → a.state = .active
  chain : ∀ {k a}, s.agents.get? k = some a → ∃ l, Chained s a.agentId a.latestRunId l

section

variable {digest : Json → String} {clock : Nat → Nat} {s s' : AgentTreeState}

theorem not_hasActiveRun {agentId : RequiredText} (h : s.hasActiveRun agentId = false)
    {k : String} {r : AgentTreeRun} (hr : s.runs.get? k = some r) (hid : r.agentId = agentId) :
    r.status.active = false := by
  unfold AgentTreeState.hasActiveRun at h
  have hnot := List.any_eq_false.1 h r (Dict.mem_values_of_get? hr)
  simpa [hid] using hnot

/-- Settling keeps who has records. -/
theorem hasRun_rel (h : Dict.Rel RunSettles s.runs s'.runs) {i : RunIdentity} :
    s'.HasRun i ↔ s.HasRun i := by
  constructor
  · rintro ⟨k, v, hv, rfl⟩
    obtain ⟨u, hu, hsettles⟩ := h.get?_left hv
    exact ⟨k, u, hu, hsettles.1.symm⟩
  · rintro ⟨k, u, hu, rfl⟩
    obtain ⟨v, hv, hsettles⟩ := h.get? hu
    exact ⟨k, v, hv, hsettles.1⟩

/-- A state that settles stays lively. -/
theorem Settles.lively (h : Settles s s') (hw : Wired s) (hl : Lively s) : Lively s' where
  parent := by
    intro k r p hr hactive hp
    obtain ⟨u, hu, hsettles⟩ := h.runs.get?_left hr
    obtain ⟨w, hw', hlive⟩ := hl.parent hu (hsettles.2 hactive)
      ((AgentTreeRun.parentRunId_of_identity hsettles.1).symm.trans hp)
    obtain ⟨v, hv, hparent⟩ := h.runs.get? hw'
    refine ⟨v, hv, ?_⟩
    by_contra hdead
    have hid : w.runId = p := by
      have hkey := hw.run_key hw'
      rw [p.stripped] at hkey
      exact (RequiredText.ext hkey).symm
    have := h.orphans hw' hv hlive (by simpa using hdead) hr (hp.trans (congrArg some hid.symm))
    rw [hactive] at this
    cases this
  alone := by
    intro k k' r r' hr hr' hactive hactive' hid
    obtain ⟨u, hu, hsettles⟩ := h.runs.get?_left hr
    obtain ⟨u', hu', hsettles'⟩ := h.runs.get?_left hr'
    refine hl.alone hu hu' (hsettles.2 hactive) (hsettles'.2 hactive') ?_
    rw [← AgentTreeRun.agentId_of_identity hsettles.1, hid,
      AgentTreeRun.agentId_of_identity hsettles'.1]
  opened := by
    intro k r b hr hactive hb
    obtain ⟨u, hu, hsettles⟩ := h.runs.get?_left hr
    obtain ⟨a, ha, -, -, hclosed⟩ := h.agents.get?_left hb
    rw [AgentTreeRun.agentId_of_identity hsettles.1] at ha
    have hopen := hl.opened hu (hsettles.2 hactive) ha
    cases hstate : b.state with
    | active => rfl
    | closed =>
      rcases hclosed hstate with hwas | hidle
      · exact absurd (hopen.symm.trans hwas) nofun
      · have hname : u.agentId = a.agentId := RequiredText.ext (hw.agent_key ha)
        have := not_hasActiveRun hidle hu hname
        rw [hsettles.2 hactive] at this
        cases this
  chain := by
    intro k b hb
    obtain ⟨a, ha, hid, hlatest, -⟩ := h.agents.get?_left hb
    obtain ⟨l, hlinked, hnodup, hall⟩ := hl.chain ha
    have hname : b.agentId = a.agentId := congrArg AgentIdentity.agentId hid
    refine ⟨l, hlatest ▸ hlinked, hnodup, fun i => ?_⟩
    rw [hall, hasRun_rel h.runs, hname]

/-- A record that was there is left alone by an admission. -/
theorem Admission.get?_run_old {items : List SpawnedAgent} (h : Admission s s' items)
    (hf : NumbersFree s) {k : String} {r : AgentTreeRun} (hr : s.runs.get? k = some r) :
    s'.runs.get? k = some r := by
  rw [h.runs, Dict.get?_extend_of_not_mem, hr]
  rw [List.map_map]
  intro hmem
  obtain ⟨item, hitem, rfl⟩ := List.mem_map.1 hmem
  exact absurd ((h.run_new hf hitem).symm.trans hr) nofun

/-- The Agent of a new Run had nothing active. -/
theorem Admission.idle {items : List SpawnedAgent} (h : Admission s s' items) (hs : Framed s)
    {item : SpawnedAgent} (hitem : item ∈ items) {k : String} {r : AgentTreeRun}
    (hr : s.runs.get? k = some r) (hid : r.agentId = item.agent.agentId) :
    r.status.active = false := by
  have hkey := hs.wired.agent hr
  rw [hid] at hkey
  cases (h.admitted item hitem).origin with
  | known _ _ hnext _ hidle =>
    refine not_hasActiveRun hidle hr ?_
    rw [hid, hnext]
  | root hget => exact absurd hkey (Dict.get?_eq_none_iff.1 hget)
  | child _ n hn _ hname =>
    rw [hname] at hkey
    exact absurd hkey (hs.free.agent n hn)

/-- An admission puts active Runs under live ones, one for each of its Agents. -/
theorem Admission.lively {items : List SpawnedAgent} (h : Admission s s' items) (hs : Framed s)
    (hl : Lively s) : Lively s' where
  parent := by
    intro k r p hr hactive hp
    rcases h.get?_run_cases hr with ⟨item, hitem, -, rfl⟩ | hr
    · cases (h.admitted item hitem).place with
      | root _ hparent => exact absurd (hparent.symm.trans hp) nofun
      | child parent _ _ _ _ hget hlive hparent =>
        have hid : parent.runId = p := Option.some.inj (hparent.symm.trans hp)
        exact ⟨parent, h.get?_run_old hs.free (hid ▸ hget), hlive⟩
    · obtain ⟨u, hu, hlive⟩ := hl.parent hr hactive hp
      exact ⟨u, h.get?_run_old hs.free hu, hlive⟩
  alone := by
    intro k k' r r' hr hr' hactive hactive' hid
    rcases h.get?_run_cases hr with ⟨item, hitem, rfl, rfl⟩ | hr
    · rcases h.get?_run_cases hr' with ⟨item', hitem', rfl, rfl⟩ | hr'
      · rw [(h.admitted item hitem).agentId, (h.admitted item' hitem').agentId] at hid
        rw [List.inj_on_of_nodup_map h.agents_nodup hitem hitem' hid]
      · have := h.idle hs hitem hr' (hid.symm.trans (h.admitted item hitem).agentId)
        rw [hactive'] at this
        cases this
    · rcases h.get?_run_cases hr' with ⟨item', hitem', rfl, rfl⟩ | hr'
      · have := h.idle hs hitem' hr (hid.trans (h.admitted item' hitem').agentId)
        rw [hactive] at this
        cases this
      · exact hl.alone hr hr' hactive hactive' hid
  opened := by
    intro k r a hr hactive ha
    rcases h.get?_agent_cases ha with ⟨item, hitem, -, rfl⟩ | ⟨hnot, ha⟩
    · exact (h.admitted item hitem).state
    · rcases h.get?_run_cases hr with ⟨item, hitem, -, rfl⟩ | hr
      · exact absurd (congrArg RequiredText.text (h.admitted item hitem).agentId.symm)
          (hnot item hitem)
      · exact hl.opened hr hactive ha
  chain := by
    intro k a ha
    rcases h.get?_agent_cases ha with ⟨item, hitem, rfl, rfl⟩ | ⟨hnot, ha⟩
    · have hnew := h.admitted item hitem
      have hrun : s'.HasRun item.run.identity :=
        AgentTreeState.hasRun_of_get? (h.get?_run_item hitem)
      have hfresh : ∀ {i}, s.HasRun i → i ≠ item.run.identity := by
        rintro i hi rfl
        exact Dict.get?_eq_none_iff.1 (h.run_new hs.free hitem) (hs.wired.hasRun_key hi)
      -- the Agent's Runs are the new one and those it had
      have hmembers : ∀ i, s'.HasRun i ∧ i.agentId = item.agent.agentId ↔
          i = item.run.identity ∨ s.HasRun i ∧ i.agentId = item.agent.agentId := by
        intro i
        constructor
        · rintro ⟨hi, hid⟩
          rcases h.hasRun hi with hi | ⟨item', hitem', rfl⟩
          · exact Or.inr ⟨hi, hid⟩
          · have hsame : item'.agent.agentId = item.agent.agentId :=
              (h.admitted item' hitem').agentId.symm.trans hid
            rw [List.inj_on_of_nodup_map h.agents_nodup hitem' hitem hsame]
            exact Or.inl rfl
        · rintro (rfl | ⟨⟨k, r, hr, rfl⟩, hid⟩)
          · exact ⟨hrun, hnew.agentId⟩
          · exact ⟨⟨k, r, h.get?_run_old hs.free hr, rfl⟩, hid⟩
      have halone : (∀ i, s.HasRun i → i.agentId ≠ item.agent.agentId) →
          item.run.previousRunId = none →
            Chained s' item.agent.agentId item.agent.latestRunId [item.run.identity] := by
        intro hnone hprevious
        refine ⟨?_, List.nodup_singleton _, fun i => ?_⟩
        · rw [hnew.latest]
          exact ⟨rfl, by rw [show item.run.identity.previousRunId = none from hprevious]; trivial⟩
        · rw [List.mem_singleton, hmembers]
          exact ⟨Or.inl, fun hi => hi.resolve_right fun hold => hnone i hold.1 hold.2⟩
      cases hnew.origin with
      | known agent hget hnext hprevious =>
        have hname : item.agent.agentId = agent.agentId := by rw [hnext]
        obtain ⟨l, hlinked, hnodup, hall⟩ := hl.chain hget
        refine ⟨item.run.identity :: l, ?_, ?_, fun i => ?_⟩
        · rw [hnew.latest]
          exact ⟨rfl, by rw [show item.run.identity.previousRunId = _ from hprevious]; exact hlinked⟩
        · exact List.nodup_cons.2 ⟨fun hmem => hfresh ((hall _).1 hmem).1 rfl, hnodup⟩
        · rw [List.mem_cons, hall, hmembers, hname]
      | root hget _ _ _ hprevious =>
        refine ⟨_, halone (fun i hi hid => ?_) hprevious⟩
        obtain ⟨k, r, hr, rfl⟩ := hi
        have hkey := hs.wired.agent hr
        rw [show r.agentId = item.agent.agentId from hid] at hkey
        exact Dict.get?_eq_none_iff.1 hget hkey
      | child parent n hn _ hname _ _ _ _ _ _ hprevious =>
        refine ⟨_, halone (fun i hi hid => ?_) hprevious⟩
        obtain ⟨k, r, hr, rfl⟩ := hi
        have hkey := hs.wired.agent hr
        rw [show r.agentId = item.agent.agentId from hid, hname] at hkey
        exact hs.free.agent n hn hkey
    · obtain ⟨l, hlinked, hnodup, hall⟩ := hl.chain ha
      refine ⟨l, hlinked, hnodup, fun i => ?_⟩
      rw [hall]
      refine and_congr_left fun hid => ⟨?_, fun hi => ?_⟩
      · rintro ⟨k, r, hr, rfl⟩
        exact ⟨k, r, h.get?_run_old hs.free hr, rfl⟩
      · rcases h.hasRun hi with hi | ⟨item, hitem, rfl⟩
        · exact hi
        · refine absurd ?_ (hnot item hitem)
          have hname : item.agent.agentId = a.agentId :=
            (h.admitted item hitem).agentId.symm.trans hid
          rw [hname]
          exact (hs.wired.agent_key ha).symm

/-! ## Every reachable state -/

/-- What an orderly run keeps. -/
structure Shaped (s : AgentTreeState) : Prop where
  framed : Framed s
  stored : Exact s
  grown : Grown s
  lively : Lively s

theorem shaped_step {event : (Nat → Nat) × TreeOp} (hs : Shaped s) (horderly : Orderly s event) :
    Shaped (s.step digest event) := by
  rcases change_of_step digest s event with h | h
  · rw [h]
    exact hs
  · have hframed := framed_change hs.framed horderly.host h
    have hstored := exact_change hs.framed.wired hs.stored horderly.stripped h
    cases hop : event.2.admits with
    | true =>
      obtain ⟨items, hadmission⟩ := admission_change hs.framed.wired hop h
      exact ⟨hframed, hstored, hadmission.grown hs.framed hs.grown,
        hadmission.lively hs.framed hs.lively⟩
    | false =>
      have hsettles := settles_change hs.framed hs.stored hs.grown hop horderly h
      exact ⟨hframed, hstored, (updates_change hs.framed.wired hop h).grown hs.grown,
        hsettles.lively hs.framed.wired hs.lively⟩

theorem shaped_initial (n : Nat) : Shaped (AgentTreeState.initial n) := by
  have hrun : ∀ {k r}, (AgentTreeState.initial n).runs.get? k ≠ some r := by
    intro k r hr
    have hnone : (AgentTreeState.initial n).runs.get? k = none := rfl
    exact absurd (hnone.symm.trans hr) nofun
  have hagent : ∀ {k a}, (AgentTreeState.initial n).agents.get? k ≠ some a := by
    intro k a ha
    have hnone : (AgentTreeState.initial n).agents.get? k = none := rfl
    exact absurd (hnone.symm.trans ha) nofun
  have hnone : ∀ {i}, ¬ (AgentTreeState.initial n).HasRun i := by
    rintro i ⟨k, r, hr, -⟩
    exact hrun hr
  refine ⟨framed_initial n, exact_initial n, ?_, ?_⟩
  · exact {
      counted := fun hi => absurd hi hnone
      parent := fun hi => absurd hi hnone
      sibling := fun hi => absurd hi hnone
      acyclic := by
        intro a ha
        obtain ⟨b, hab, -⟩ := Relation.TransGen.head'_iff.1 ha
        obtain ⟨i, hi, -⟩ := depends_iff.1 hab
        exact hnone hi }
  · exact {
      parent := fun hr => absurd hr hrun
      alone := fun hr => absurd hr hrun
      opened := fun hr => absurd hr hrun
      chain := fun ha => absurd ha hagent }

theorem shaped_exec {n : Nat} {run : List ((Nat → Nat) × TreeOp)}
    (hrun : Along (AgentTreeState.step digest) Orderly (AgentTreeState.initial n) run) :
    Shaped (exec (AgentTreeState.step digest) (AgentTreeState.initial n) run) :=
  exec_induction (fun _ _ horderly hs => shaped_step hs horderly) hrun (shaped_initial n)

/-- Above an active Run everything is live, and of one root. -/
theorem Shaped.live_of_below (hs : Shaped s) {x y : RequiredText} (h : Below s y x) :
    ∀ r, s.runs.get? y.text = some r → r.status.active = true →
      ∃ a, s.runs.get? x.text = some a ∧ a.status.live = true ∧ a.rootRunId = r.rootRunId := by
  have hparent : ∀ {y z : RequiredText} {r : AgentTreeRun}, ChildOf s y z →
      s.runs.get? y.text = some r → r.status.active = true →
        ∃ u, s.runs.get? z.text = some u ∧ u.status.live = true ∧ u.rootRunId = r.rootRunId := by
    rintro y z r ⟨r', hr', hp⟩ hr hactive
    rw [hr] at hr'
    cases hr'
    obtain ⟨u, hu, hlive⟩ := hs.lively.parent hr hactive hp
    obtain ⟨u', hu', -, hroot, -⟩ := hs.grown.parentRun hs.framed.wired hr hp
    rw [hu] at hu'
    cases hu'
    exact ⟨u, hu, hlive, hroot⟩
  induction h using Relation.TransGen.head_induction_on with
  | single hchild => exact fun r hr hactive => hparent hchild hr hactive
  | head hchild _ ih =>
    intro r hr hactive
    obtain ⟨u, hu, hlive, hroot⟩ := hparent hchild hr hactive
    obtain ⟨a, ha, halive, hsame⟩ := ih u hu (AgentTreeRunStatus.active_of_live hlive)
    exact ⟨a, ha, halive, hsame.trans hroot⟩

/-! ## What a stored tree is checked for -/

/-- The check of one dependency of a Run. -/
def validateDependency (runs : Dict String AgentTreeRun) (run : AgentTreeRun)
    (dependencyId : RequiredText) : Except PyError Unit :=
  match runs.get? dependencyId.text with
  | none => .error (.valueError "stored dependency is outside its sibling scope")
  | some dependency =>
    if run.parentRunId = none ∨ dependency.parentRunId ≠ run.parentRunId ∨
        dependency.rootRunId ≠ run.rootRunId then
      .error (.valueError "stored dependency is outside its sibling scope")
    else .ok ()

/-- The check of one entry of the Runs. -/
def validateEntry (runs : Dict String AgentTreeRun) (entry : String × AgentTreeRun) :
    Except PyError Unit :=
  if entry.1 ≠ entry.2.runId.text then
    .error (.valueError "stored dependency Run identity mismatch")
  else entry.2.dependencyRunIds.forM (validateDependency runs entry.2)

/-- `validate_stored_dependencies`. -/
def validateStoredDependencies (runs : Dict String AgentTreeRun) : Except PyError Unit := do
  runs.entries.forM (validateEntry runs)
  if Topology.acyclic (runs.entries.map fun entry =>
      (entry.1, entry.2.dependencyRunIds.map (·.text))) then .ok ()
  else .error (.valueError "stored dependency graph is cyclic")

theorem forM_eq_ok {ε α : Type} {f : α → Except ε Unit} {l : List α}
    (h : ∀ x ∈ l, f x = .ok ()) : l.forM f = .ok () := by
  rcases forM_cases f l with ⟨hl, -⟩ | ⟨x, hx, e, he, -⟩
  · exact hl
  · rw [h x hx] at he
    cases he

/-- A tree of good shape passes the check it is put to when it is loaded. -/
theorem Shaped.validateStoredDependencies (hs : Shaped s) :
    Purra.validateStoredDependencies s.runs = .ok () := by
  have hget : ∀ {k r}, (k, r) ∈ s.runs.entries → s.runs.get? k = some r := Dict.mem_entries_iff.1
  have hentries : s.runs.entries.forM (validateEntry s.runs) = .ok () := by
    refine forM_eq_ok fun entry hentry => ?_
    obtain ⟨k, r⟩ := entry
    have hr := hget hentry
    unfold validateEntry
    rw [if_neg (not_not.2 (hs.stored k r hr))]
    refine forM_eq_ok fun d hd => ?_
    obtain ⟨u, hu⟩ := Dict.mem_keys_iff.1 (hs.framed.wired.dependency hr hd)
    have hdep : u.identity.runId ∈ r.identity.dependencyRunIds := by
      have hid : u.identity.runId = d := (RequiredText.ext (hs.stored _ u hu)).symm
      rw [hid]
      exact hd
    obtain ⟨hsome, hparent, -, -⟩ := hs.grown.sibling (AgentTreeState.hasRun_of_get? hr)
      (AgentTreeState.hasRun_of_get? hu) hdep
    obtain ⟨p, hp⟩ := Option.isSome_iff_exists.1 hsome
    obtain ⟨w, hw, -, hroot, -⟩ := hs.grown.parentRun hs.framed.wired hr hp
    obtain ⟨w', hw', -, hroot', -⟩ := hs.grown.parentRun hs.framed.wired hu (hparent.trans hp)
    rw [hw] at hw'
    cases hw'
    rw [validateDependency, hu]
    refine if_neg ?_
    rintro (hnone | hother | hother)
    · exact absurd (hp.symm.trans hnone) (Option.some_ne_none _)
    · exact hother hparent
    · exact hother (hroot'.symm.trans hroot)
  have hacyclic : Topology.acyclic (s.runs.entries.map fun entry =>
      (entry.1, entry.2.dependencyRunIds.map (·.text))) = true := by
    refine Topology.acyclic_iff.2 fun a ha => ?_
    -- a cycle of keys is a cycle of ids
    have hlift : ∀ {a b : String}, Relation.TransGen (Topology.Depends (s.runs.entries.map
        fun entry => (entry.1, entry.2.dependencyRunIds.map (·.text)))) a b →
        ∃ x y : RequiredText, x.text = a ∧ y.text = b ∧ Relation.TransGen (Topology.Depends
          (s.runs.values.map fun r => (r.runId, r.dependencyRunIds))) x y := by
      have hedge : ∀ {a b : String}, Topology.Depends (s.runs.entries.map
          fun entry => (entry.1, entry.2.dependencyRunIds.map (·.text))) a b →
          ∃ x y : RequiredText, x.text = a ∧ y.text = b ∧ Topology.Depends
            (s.runs.values.map fun r => (r.runId, r.dependencyRunIds)) x y := by
        rintro a b ⟨row, hrow, rfl, hb⟩
        obtain ⟨⟨k, r⟩, hentry, rfl⟩ := List.mem_map.1 hrow
        obtain ⟨d, hd, rfl⟩ := List.mem_map.1 hb
        exact ⟨r.runId, d, (hs.stored k r (hget hentry)).symm, rfl,
          depends_iff.2 ⟨_, ⟨k, r, hget hentry, rfl⟩, rfl, hd⟩⟩
      intro a b hab
      induction hab with
      | single hab =>
        obtain ⟨x, y, hx, hy, hxy⟩ := hedge hab
        exact ⟨x, y, hx, hy, .single hxy⟩
      | tail _ hbc ih =>
        obtain ⟨x, y, hx, hy, hxy⟩ := ih
        obtain ⟨y', z, hy', hz, hyz⟩ := hedge hbc
        cases RequiredText.ext (hy.trans hy'.symm)
        exact ⟨x, z, hx, hz, hxy.tail hyz⟩
    obtain ⟨x, y, hx, hy, hxy⟩ := hlift ha
    cases RequiredText.ext (hx.trans hy.symm)
    exact hs.grown.acyclic x hxy
  unfold Purra.validateStoredDependencies
  rw [hentries]
  exact if_pos hacyclic

end

/-- The properties of the tree. -/
structure TreeShape (s : AgentTreeState) : Prop where
  /-- Above a Run that has not ended every Run is RUNNING or WAITING, and of its root. -/
  ancestors : ∀ k r x, s.runs.get? k = some r → r.terminal = false → Below s r.runId x →
    ∃ a, s.runs.get? x.text = some a ∧ a.status.live = true ∧ a.rootRunId = r.rootRunId
  /-- An Agent has one Run at most that has not ended. -/
  single : ∀ k k' r r', s.runs.get? k = some r → s.runs.get? k' = some r' → r.terminal = false →
    r'.terminal = false → r.agentId = r'.agentId → k = k'
  /-- The Agent of a Run that has not ended is open. -/
  opened : ∀ k r, s.runs.get? k = some r → r.terminal = false →
    ∃ a, s.agents.get? r.agentId.text = some a ∧ a.state = .active
  /-- The Runs of an Agent are one chain that ends at its latest. -/
  chain : ∀ k a, s.agents.get? k = some a → ∃ l, Chained s a.agentId a.latestRunId l
  /-- A dependency is a sibling of the same spawn. -/
  siblings : ∀ k r d, s.runs.get? k = some r → d ∈ r.dependencyRunIds → ∃ u,
    s.runs.get? d.text = some u ∧ r.parentRunId.isSome = true ∧ u.parentRunId = r.parentRunId ∧
      r.spawnBatchId.isSome = true ∧ u.spawnBatchId = r.spawnBatchId
  /-- No Run depends on itself, however indirectly. -/
  acyclic : Topology.Acyclic (s.runs.values.map fun r => (r.runId, r.dependencyRunIds))

/-- **The tree keeps its shape.**  After every orderly run, with calls of any arguments and at any
clock readings. -/
theorem shape_kept (digest : Json → String) (initialRunSequence : Nat)
    (run : List ((Nat → Nat) × TreeOp))
    (hrun : Along (AgentTreeState.step digest) Orderly (AgentTreeState.initial initialRunSequence)
      run) :
    TreeShape (exec (AgentTreeState.step digest) (AgentTreeState.initial initialRunSequence)
      run) := by
  have hs := shaped_exec hrun
  have hactive : ∀ {r : AgentTreeRun}, r.terminal = false → r.status.active = true := by
    intro r h
    simpa [AgentTreeRun.terminal] using h
  refine {
    ancestors := fun k r x hr hlive hx => ?_
    single := fun k k' r r' hr hr' hlive hlive' hid =>
      hs.lively.alone hr hr' (hactive hlive) (hactive hlive') hid
    opened := fun k r hr hlive => ?_
    chain := fun k a ha => hs.lively.chain ha
    siblings := fun k r d hr hd => ?_
    acyclic := hs.grown.acyclic }
  · have hkey := hs.stored k r hr
    exact hs.live_of_below hx r (hkey ▸ hr) (hactive hlive)
  · obtain ⟨a, ha⟩ := Dict.mem_keys_iff.1 (hs.framed.wired.agent hr)
    exact ⟨a, ha, hs.lively.opened hr (hactive hlive) ha⟩
  · obtain ⟨u, hu⟩ := Dict.mem_keys_iff.1 (hs.framed.wired.dependency hr hd)
    have hid : u.runId = d := by
      have hkey := hs.stored _ u hu
      exact (RequiredText.ext hkey).symm
    have hdep : u.identity.runId ∈ r.identity.dependencyRunIds := by
      rw [show u.identity.runId = d from hid]
      exact hd
    exact ⟨u, hu, hs.grown.sibling (AgentTreeState.hasRun_of_get? hr)
      (AgentTreeState.hasRun_of_get? hu) hdep⟩

/-! ### Two ways to bend it -/

namespace Sample

/-- The child and the root are complete, and the child is suspended without a claim. -/
def revived : List ((Nat → Nat) × TreeOp) :=
  [at_ 0 (begin rootId 3 three_slots), at_ 0 (spawn rootId),
    at_ 0 (.claimRun "agent-run-1" "worker" 30000),
    at_ 0 (complete "agent-run-1" (some "worker") (some 1)), at_ 0 (complete "root" none none),
    at_ 0 (.suspendRun "agent-run-1" none none)]

/-- A child is suspended under its id with a blank in front. -/
def twofold : List ((Nat → Nat) × TreeOp) :=
  [at_ 0 (begin rootId 3 three_slots), at_ 0 (spawn rootId),
    at_ 0 (.claimRun "agent-run-1" "worker" 30000),
    at_ 0 (.suspendRun " agent-run-1" (some "worker") (some 1))]

end Sample

open Sample in
theorem bent_states :
    ((after revived).runs.get? "agent-run-1").map (fun r => (r.runId, r.terminal, r.parentRunId)) =
      some (generatedRunId 1, false, some rootId) ∧
    ((after revived).runs.get? "root").map (·.status) = some .done ∧
    ((after twofold).runs.get? "agent-run-1").map (fun r => (r.terminal, r.agentId)) =
      some (false, generatedAgentId 1) ∧
    ((after twofold).runs.get? " agent-run-1").map (fun r => (r.terminal, r.agentId)) =
      some (false, generatedAgentId 1) :=
  ⟨by decide +kernel, by decide +kernel, by decide +kernel, by decide +kernel⟩

open Sample in
/-- A suspension without a claim leaves an active child under a root Run that is done, and a
suspension under an id with a blank in front leaves an Agent with two active Runs. -/
theorem shape_bent : ¬ TreeShape (after revived) ∧ ¬ TreeShape (after twofold) := by
  obtain ⟨hchild, hroot, hfirst, hsecond⟩ := bent_states
  constructor
  · intro h
    obtain ⟨r, hr, hfields⟩ := Option.map_eq_some_iff.1 hchild
    simp only [Prod.mk.injEq] at hfields
    obtain ⟨hid, hlive, hparent⟩ := hfields
    have hbelow : Below (after revived) r.runId rootId := by
      rw [hid]
      exact Relation.TransGen.single ⟨r, hr, hparent⟩
    obtain ⟨a, ha, halive, -⟩ := h.ancestors _ r rootId hr hlive hbelow
    have hstatus : a.status = .done := by
      have hdone : ((after revived).runs.get? rootId.text).map (·.status) = some .done := hroot
      rw [ha] at hdone
      exact Option.some.inj hdone
    rw [hstatus] at halive
    cases halive
  · intro h
    obtain ⟨r, hr, hfields⟩ := Option.map_eq_some_iff.1 hfirst
    obtain ⟨r', hr', hfields'⟩ := Option.map_eq_some_iff.1 hsecond
    simp only [Prod.mk.injEq] at hfields hfields'
    have hsame := h.single _ _ r r' hr hr' hfields.1 hfields'.1
      (hfields.2.trans hfields'.2.symm)
    exact absurd hsame (by decide)

open Sample in
/-- A root and its first child, which a worker holds. -/
theorem shape_kept_claimed :
    TreeShape (exec (AgentTreeState.step fun _ => "") (AgentTreeState.initial 0)
      [at_ 0 (begin rootId 3 (by decide)), at_ 0 (spawn rootId),
        at_ 0 (.claimRun "agent-run-1" "worker" 30000)]) :=
  shape_kept (fun _ => "") 0 _
    ⟨⟨⟨trivial, nofun⟩, fun n _ => rootId_ne_generated n, fun n _ => word_ne_generated n⟩,
      ⟨⟨trivial, nofun⟩, trivial⟩, ⟨⟨trivial, nofun⟩, trivial⟩, trivial⟩

/-- **A tree can be loaded again** after every orderly run: the check of a stored tree accepts it. -/
theorem tree_reloads (digest : Json → String) (n : Nat) (run : List ((Nat → Nat) × TreeOp))
    (hrun : Along (AgentTreeState.step digest) Orderly (AgentTreeState.initial n) run) :
    validateStoredDependencies (exec (AgentTreeState.step digest) (.initial n) run).runs = .ok () :=
  (shaped_exec hrun).validateStoredDependencies

open Sample in
theorem tree_reloads_spawned :
    validateStoredDependencies (exec (AgentTreeState.step fun _ => "") (.initial 0)
      [at_ 0 (begin rootId 3 three_slots), at_ 0 (spawn rootId)]).runs = .ok () :=
  tree_reloads (fun _ => "") 0 _
    ⟨⟨⟨trivial, nofun⟩, fun n _ => rootId_ne_generated n, fun n _ => word_ne_generated n⟩,
      ⟨⟨trivial, nofun⟩, trivial⟩, trivial⟩

end Purra
