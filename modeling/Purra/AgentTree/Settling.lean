import Purra.AgentTree.Descent

/-!
# What a call may do to the Runs that are there

Apart from admissions, calls of an orderly run move statuses in one direction: a Run that has ended
stays so, and a Run stops being RUNNING or WAITING only when nothing is active right below it.
Completion checks that, and failure and cancellation see to it.

* `Settles` — the relation; it does not depend on what else the call does.
* `quiet_children` — nothing active is left right below a Run that may complete.
* `settles_change` — **every call that creates no Run settles the state.**
-/

namespace Purra

open Purra.Action RunTree

/-- A Run keeps its fixed fields, and does not come back once it has ended. -/
def RunSettles (u v : AgentTreeRun) : Prop :=
  v.identity = u.identity ∧ (v.status.active = true → u.status.active = true)

theorem RunSettles.refl (u : AgentTreeRun) : RunSettles u u := ⟨rfl, id⟩

theorem RunSettles.trans {u v w : AgentTreeRun} (h : RunSettles u v) (h' : RunSettles v w) :
    RunSettles u w :=
  ⟨h'.1.trans h.1, fun hw => h.2 (h'.2 hw)⟩

/-- An Agent keeps its fixed fields and its latest Run, and closes only while it is idle. -/
def AgentSettles (s : AgentTreeState) (a b : AgentNode) : Prop :=
  b.identity = a.identity ∧ b.latestRunId = a.latestRunId ∧
    (b.state = .closed → a.state = .closed ∨ s.hasActiveRun a.agentId = false)

/-- No Run or Agent is added or comes back, and what stops being live leaves nothing active right
below it. -/
structure Settles (s s' : AgentTreeState) : Prop where
  runs : Dict.Rel RunSettles s.runs s'.runs
  agents : Dict.Rel (AgentSettles s) s.agents s'.agents
  orphans : ∀ {k u v}, s.runs.get? k = some u → s'.runs.get? k = some v → u.status.live = true →
    v.status.live = false → ∀ {k' c}, s'.runs.get? k' = some c → c.parentRunId = some u.runId →
      c.status.active = false

section

variable {digest : Json → String} {clock : Nat → Nat} {s s' : AgentTreeState}

theorem runs_refl (s : AgentTreeState) : Dict.Rel RunSettles s.runs s.runs :=
  Dict.Rel.refl RunSettles.refl s.runs

theorem agents_refl (s : AgentTreeState) : Dict.Rel (AgentSettles s) s.agents s.agents :=
  Dict.Rel.refl (fun _ => ⟨rfl, rfl, Or.inl⟩) s.agents

theorem Settles.refl (s : AgentTreeState) : Settles s s where
  runs := runs_refl s
  agents := agents_refl s
  orphans := by
    intro k u v hu hv hlive hdead
    rw [hu] at hv
    cases hv
    rw [hlive] at hdead
    cases hdead

/-- A Run that stays live, or never was, leaves no orphans. -/
theorem Settles.putRun {key : String} {u v : AgentTreeRun} (hu : s.runs.get? key = some u)
    (hsettles : RunSettles u v) (hlive : u.status.live = true → v.status.live = true) :
    Settles s (s.putRun key v) where
  runs := Dict.Rel.set hu hsettles RunSettles.refl
  agents := agents_refl s
  orphans := by
    intro k w w' hw hw' halive hdead
    simp only [AgentTreeState.putRun, Dict.get?_set] at hw'
    split at hw'
    · rename_i hk
      cases hw'
      rw [hk, hu] at hw
      cases hw
      rw [hlive halive] at hdead
      cases hdead
    · rw [hw] at hw'
      cases hw'
      rw [halive] at hdead
      cases hdead

/-- An Agent keeps its fixed fields and its latest Run; no Run moves. -/
theorem Settles.putAgent {a b : AgentNode} (ha : s.agents.get? a.agentId.text = some a)
    (hsettles : AgentSettles s a b) : Settles s (s.putAgent b) where
  runs := runs_refl s
  agents := by
    have hid : b.agentId = a.agentId := congrArg AgentIdentity.agentId hsettles.1
    show Dict.Rel _ s.agents (s.agents.set b.agentId.text b)
    rw [hid]
    exact Dict.Rel.set ha hsettles fun _ => ⟨rfl, rfl, Or.inl⟩
  orphans := (Settles.refl s).orphans

/-! ## Completion -/

theorem anyM_eq_false {ε α : Type} {f : α → Except ε Bool} :
    ∀ {l : List α}, l.anyM f = .ok false → ∀ x ∈ l, f x = .ok false := by
  intro l
  induction l with
  | nil => exact fun _ x hx => absurd hx List.not_mem_nil
  | cons y l ih =>
    intro h x hx
    rw [List.anyM] at h
    obtain ⟨b, hb, h⟩ := bind_eq_ok h
    cases b with
    | true => cases h
    | false =>
      rcases List.mem_cons.1 hx with rfl | hx
      · exact hb
      · exact ih h x hx

/-- A child of a stored Run is below it. -/
theorem below_of_parent {k : String} {c : AgentTreeRun} {p : RequiredText} (he : Exact s)
    (hc : s.runs.get? k = some c) (hp : c.parentRunId = some p) : Below s c.runId p :=
  (below_iff (he k c hc ▸ hc)).2 ⟨p, hp, Or.inl rfl⟩

/-- When a Run may complete, nothing right below it is active. -/
theorem quiet_children (hw : Wired s) (hg : Grown s) (he : Exact s) {run : AgentTreeRun}
    (hrun : s.runs.get? run.runId.text = some run) (h : hasUnfinishedChildren s run = .ok false)
    {k : String} {c : AgentTreeRun} (hc : s.runs.get? k = some c)
    (hp : c.parentRunId = some run.runId) : c.status.active = false := by
  have hroot : c.rootRunId = run.rootRunId := by
    obtain ⟨u, hu, -, hroot, -⟩ := hg.parentRun hw hc hp
    rw [hrun] at hu
    cases hu
    exact hroot.symm
  have hmem : c ∈ s.runs.values.filter (·.rootRunId = run.rootRunId) :=
    List.mem_filter.2 ⟨Dict.mem_values_of_get? hc, decide_eq_true hroot⟩
  have hfalse := anyM_eq_false h c hmem
  by_contra hactive
  have hterminal : c.terminal = false := by
    simpa [AgentTreeRun.terminal] using hactive
  rw [hterminal] at hfalse
  have hkey : c.runId.text ∈ s.runs.keys := hw.run hc
  obtain ⟨b, hb, hbelow⟩ := isCausalDescendant_eq (p := run.runId) hw hg hkey
  have hok : s.isCausalDescendant run.runId c.runId = .ok false := hfalse
  rw [hok] at hb
  cases hb
  exact absurd (hbelow.2 (below_of_parent he hc hp)) Bool.false_ne_true

/-! ## Failure and cancellation -/

/-- Settling changes nobody's parent. -/
theorem below_of_rel (h : Dict.Rel RunSettles s.runs s'.runs) {x p : RequiredText}
    (hx : Below s' x p) : Below s x p := by
  refine Relation.TransGen.mono ?_ _ _ hx
  rintro a b ⟨r, hr, hparent⟩
  obtain ⟨u, hu, hsettles⟩ := h.get?_left hr
  exact ⟨u, hu, (AgentTreeRun.parentRunId_of_identity hsettles.1).symm.trans hparent⟩

theorem below_rel (h : Dict.Rel RunSettles s.runs s'.runs) {x p : RequiredText}
    (hx : Below s x p) : Below s' x p := by
  refine Relation.TransGen.mono ?_ _ _ hx
  rintro a b ⟨r, hr, hparent⟩
  obtain ⟨v, hv, hsettles⟩ := h.get? hr
  exact ⟨v, hv, (AgentTreeRun.parentRunId_of_identity hsettles.1).trans hparent⟩

/-- What canceling keeps of the state `s` it starts from: only the Runs `touched` names stop being
live. -/
structure Canceling (s : AgentTreeState) (touched : RequiredText → Prop) (s' : AgentTreeState) :
    Prop where
  wired : Wired s'
  stored : Exact s'
  grown : Grown s'
  runs : Dict.Rel RunSettles s.runs s'.runs
  agents : s'.agents = s.agents
  only : ∀ {k u v}, s.runs.get? k = some u → s'.runs.get? k = some v → u.status.live = true →
    v.status.live = false → touched u.runId

variable {touched : RequiredText → Prop}

/-- Ending a Run that is among the touched ones. -/
theorem Canceling.putRun (h : Canceling s touched s')
    {run v : AgentTreeRun} (hrun : s'.runs.get? run.runId.text = some run)
    (hid : v.identity = run.identity) (hended : v.status.active = false)
    (htouched : touched run.runId) : Canceling s touched (s'.putRun run.runId.text v) where
  wired := h.wired.putRun hrun hid run.runId.stripped
  stored := h.stored.putRun v (congrArg RequiredText.text (AgentTreeRun.runId_of_identity hid)).symm
  grown := (Updates.putRun hrun hid).grown h.grown
  runs := by
    have hsettles : RunSettles run v := ⟨hid, fun hactive => absurd (hended.symm.trans hactive) Bool.false_ne_true⟩
    exact h.runs.trans (Dict.Rel.set hrun hsettles RunSettles.refl) fun _ _ _ => RunSettles.trans
  agents := h.agents
  only := by
    intro k u w hu hw hlive hdead
    simp only [AgentTreeState.putRun, Dict.get?_set] at hw
    split at hw
    · rename_i hk
      obtain ⟨x, hx, hsettles⟩ := h.runs.get? hu
      rw [hk, hrun] at hx
      cases hx
      exact (AgentTreeRun.runId_of_identity hsettles.1) ▸ htouched
    · exact h.only hu hw hlive hdead

/-- If in the end nothing touched and nothing right below it is active, the state has settled. -/
theorem Canceling.settles (h : Canceling s touched s')
    (hquiet : ∀ {x}, touched x → ∀ {k c}, s'.runs.get? k = some c → c.parentRunId = some x →
      c.status.active = false) : Settles s s' where
  runs := h.runs
  agents := h.agents ▸ agents_refl s
  orphans hu hv hlive hdead _ _ hc hp := hquiet (h.only hu hv hlive hdead) hc hp

/-- Running through the keys, `fail_run` cancels every active Run below the one that failed. -/
theorem foldl_cancelDescendant_settled {parent : RequiredText}
    (htouched : ∀ x, Below s x parent → touched x) :
    ∀ (keys : List String) {s' : AgentTreeState}, Canceling s touched s' →
      Canceling s touched (keys.foldl (cancelDescendant parent) s') ∧
        Dict.Rel RunSettles s'.runs (keys.foldl (cancelDescendant parent) s').runs ∧
          ∀ k ∈ keys, ∀ c, (keys.foldl (cancelDescendant parent) s').runs.get? k = some c →
            Below s c.runId parent → c.status.active = false := by
  intro keys
  induction keys with
  | nil => exact fun h => ⟨h, runs_refl _, fun _ hk => absurd hk List.not_mem_nil⟩
  | cons key keys ih =>
    intro s₁ h
    -- one turn keeps the invariant and deals with its own key
    have hturn : Canceling s touched (cancelDescendant parent s₁ key) ∧
        Dict.Rel RunSettles s₁.runs (cancelDescendant parent s₁ key).runs ∧
          ∀ c, (cancelDescendant parent s₁ key).runs.get? key = some c →
            Below s c.runId parent → c.status.active = false := by
      cases hitem : s₁.runs.get? key with
      | none =>
        have hsame : cancelDescendant parent s₁ key = s₁ := by
          rw [cancelDescendant, hitem]
        rw [hsame]
        exact ⟨h, runs_refl _, fun c hc => absurd (hitem.symm.trans hc) nofun⟩
      | some item =>
        have hkey := h.stored key item hitem
        have hstored : s₁.runs.get? item.runId.text = some item := hkey ▸ hitem
        obtain ⟨b, hb, hbelow⟩ := isCausalDescendant_eq (p := parent) h.wired h.grown
          (Dict.mem_keys_iff.2 ⟨item, hstored⟩)
        by_cases hcancel : item.status.active = true ∧ b = true
        · have hput : cancelDescendant parent s₁ key =
              s₁.putRun item.runId.text (item.canceledWith ancestorRunFailed) := by
            rw [cancelDescendant, hitem]
            exact if_pos ⟨hcancel.1, hb.trans (congrArg Except.ok hcancel.2)⟩
          have hin := htouched _ (below_of_rel h.runs (hbelow.1 hcancel.2))
          rw [hput]
          refine ⟨h.putRun hstored rfl rfl hin, ?_, fun c hc _ => ?_⟩
          · exact Dict.Rel.set hstored ⟨rfl, nofun⟩ RunSettles.refl
          · rw [hkey, AgentTreeState.putRun, Dict.get?_set_self] at hc
            cases hc
            rfl
        · have hsame : cancelDescendant parent s₁ key = s₁ := by
            rw [cancelDescendant, hitem]
            refine if_neg fun hboth => hcancel ⟨hboth.1, ?_⟩
            have hok := hboth.2
            rw [hb] at hok
            exact Except.ok.inj hok
          rw [hsame]
          refine ⟨h, runs_refl _, fun c hc hc' => ?_⟩
          rw [hitem] at hc
          cases hc
          by_contra hactive
          exact hcancel ⟨by simpa using hactive, hbelow.2 (below_rel h.runs hc')⟩
    obtain ⟨h', hrel, hdone⟩ := hturn
    obtain ⟨hlast, hrest, hothers⟩ := ih h'
    refine ⟨hlast, hrel.trans hrest fun _ _ _ => RunSettles.trans, fun k hk c hc hbelow => ?_⟩
    rcases List.mem_cons.1 hk with rfl | hk
    · obtain ⟨w, hw, hsettles⟩ := hrest.get?_left hc
      have hquiet := hdone w hw (AgentTreeRun.runId_of_identity hsettles.1 ▸ hbelow)
      by_contra hactive
      have := hsettles.2 (by simpa using hactive)
      rw [hquiet] at this
      cases this
    · exact hothers k hk c hc hbelow

/-- `cancel_subtree` cancels every active Run among those it has ordered. -/
theorem foldl_cancelOrdered_settled :
    ∀ (ordered : List RequiredText) {s' : AgentTreeState}, (∀ x ∈ ordered, touched x) →
      Canceling s touched s' →
        Canceling s touched (ordered.foldl cancelOrdered s') ∧
          Dict.Rel RunSettles s'.runs (ordered.foldl cancelOrdered s').runs ∧
            ∀ x ∈ ordered, ∀ c, (ordered.foldl cancelOrdered s').runs.get? x.text = some c →
              c.status.active = false := by
  intro ordered
  induction ordered with
  | nil => exact fun _ h => ⟨h, runs_refl _, fun _ hx => absurd hx List.not_mem_nil⟩
  | cons current ordered ih =>
    intro s₁ htouched h
    have hturn : Canceling s touched (cancelOrdered s₁ current) ∧
        Dict.Rel RunSettles s₁.runs (cancelOrdered s₁ current).runs ∧
          ∀ c, (cancelOrdered s₁ current).runs.get? current.text = some c →
            c.status.active = false := by
      cases hrun : s₁.runs.get? current.text with
      | none =>
        have hsame : cancelOrdered s₁ current = s₁ := by
          rw [cancelOrdered, hrun]
        rw [hsame]
        exact ⟨h, runs_refl _, fun c hc => absurd (hrun.symm.trans hc) nofun⟩
      | some run =>
        have hkey : current = run.runId := RequiredText.ext (h.stored _ run hrun)
        have hin := htouched current (List.mem_cons_self ..)
        by_cases hactive : run.status.active = true
        · have hput : cancelOrdered s₁ current =
              s₁.putRun current.text (run.canceledWith agentRunCanceled) := by
            rw [cancelOrdered, hrun]
            exact if_pos hactive
          rw [hput]
          subst hkey
          refine ⟨h.putRun hrun rfl rfl hin, ?_, fun c hc => ?_⟩
          · exact Dict.Rel.set hrun ⟨rfl, nofun⟩ RunSettles.refl
          · rw [AgentTreeState.putRun, Dict.get?_set_self] at hc
            cases hc
            rfl
        · have hsame : cancelOrdered s₁ current = s₁ := by
            rw [cancelOrdered, hrun]
            exact if_neg hactive
          rw [hsame]
          refine ⟨h, runs_refl _, fun c hc => ?_⟩
          rw [hrun] at hc
          cases hc
          simpa using hactive
    obtain ⟨h', hrel, hdone⟩ := hturn
    obtain ⟨hlast, hrest, hothers⟩ :=
      ih (fun x hx => htouched x (List.mem_cons_of_mem _ hx)) h'
    refine ⟨hlast, hrel.trans hrest fun _ _ _ => RunSettles.trans, fun x hx c hc => ?_⟩
    rcases List.mem_cons.1 hx with rfl | hx
    · obtain ⟨w, hw, hsettles⟩ := hrest.get?_left hc
      have hquiet := hdone w hw
      by_contra hactive
      have := hsettles.2 (by simpa using hactive)
      rw [hquiet] at this
      cases this
    · exact hothers x hx c hc

/-! ## Every call that creates no Run -/

/-- A call that creates no Run settles the state. -/
theorem settles_change (hs : Framed s) (he : Exact s) (hg : Grown s) {op : TreeOp}
    (hop : op.admits = false) (horderly : Orderly s (clock, op)) (h : Change digest clock s op s') :
    Settles s s' := by
  cases h with
  | root | spawn | «continue» => cases hop
  | claim _ _ hrun hstatus =>
    refine Settles.putRun (hs.wired.requireRun_eq_ok hrun).1 ⟨rfl, fun _ => ?_⟩ fun _ => rfl
    rcases hstatus with hstatus | hstatus
    · rw [hstatus]
      rfl
    · exact AgentTreeRun.active_of_reclaimable hstatus
  | @suspend runId owner epoch run hrun hclaim =>
    obtain ⟨hget, hkey⟩ := hs.wired.requireRun_eq_ok hrun
    have hstored : runId = run.runId.text := (horderly.stripped run hrun hclaim).symm.trans hkey
    have hended := horderly.suspends runId owner epoch rfl run hrun hclaim
    refine Settles.putRun (u := run) (hstored ▸ hget) ⟨rfl, fun _ => ?_⟩ fun _ => rfl
    simpa [AgentTreeRun.terminal] using hended
  | renew _ _ _ _ hrun _ hrenewed =>
    have hget := (hs.wired.requireRun_eq_ok (AgentTreeState.requireActiveRun_eq_ok hrun).1).1
    obtain ⟨hid, hstatus, -, -, -⟩ := AgentTreeRun.renewed_eq_ok hrenewed
    exact Settles.putRun hget ⟨hid, fun h => hstatus ▸ h⟩ fun h => hstatus.symm ▸ h
  | wait _ hrun hstatus =>
    refine Settles.putRun (hs.wired.requireRun_eq_ok hrun).1 ⟨rfl, fun _ => ?_⟩ fun _ => rfl
    rw [hstatus]
    rfl
  | release _ hrun hstatus =>
    refine Settles.putRun (hs.wired.requireRun_eq_ok hrun).1 ⟨rfl, fun _ => ?_⟩ fun _ => rfl
    rw [hstatus]
    rfl
  | number => exact { Settles.refl s with }
  | complete run completed _ _ hrun _ _ hquiet hagent hcompleted =>
    obtain ⟨hid, hdone, -, -⟩ := AgentTreeRun.completed_eq_ok hcompleted
    have hget := (hs.wired.requireRun_eq_ok hrun).1
    have hkey := congrArg RequiredText.text (AgentTreeRun.runId_of_identity hid)
    have hended : completed.status.active = false := by
      rw [hdone]
      rfl
    have hsettles : RunSettles run completed :=
      ⟨hid, fun hactive => absurd (hended.symm.trans hactive) Bool.false_ne_true⟩
    have hruns : Dict.Rel RunSettles s.runs (s.runs.set completed.runId.text completed) :=
      Dict.Rel.set (hkey ▸ hget) hsettles RunSettles.refl
    refine {
      runs := hruns
      agents := Dict.Rel.set (hs.wired.requireActiveAgent_eq_ok hagent).1
        ⟨rfl, rfl, fun h => Or.inl h⟩ fun _ => ⟨rfl, rfl, Or.inl⟩
      orphans := ?_ }
    intro k u v hu hv hlive hdead k' c hc hp
    have hv' : (s.runs.set completed.runId.text completed).get? k = some v := hv
    have hc' : (s.runs.set completed.runId.text completed).get? k' = some c := hc
    rw [Dict.get?_set] at hv' hc'
    split at hv'
    · rename_i hk
      rw [hk, hkey, hget] at hu
      cases hu
      split at hc'
      · cases hc'
        exact hended
      · exact quiet_children hs.wired hg he hget hquiet hc' hp
    · rw [hu] at hv'
      cases hv'
      rw [hlive] at hdead
      cases hdead
  | fail error run hrun =>
    have hget := (hs.wired.requireRun_eq_ok hrun).1
    have hstart : Canceling s (fun x => x = run.runId ∨ Below s x run.runId) s :=
      ⟨hs.wired, he, hg, runs_refl s, rfl, fun hu hv hlive hdead => by
        rw [hu] at hv
        cases hv
        rw [hlive] at hdead
        cases hdead⟩
    have hfailed := hstart.putRun (v := run.failedWith error) hget rfl rfl (Or.inl rfl)
    obtain ⟨hlast, -, hdone⟩ := foldl_cancelDescendant_settled
      (fun x hx => Or.inr hx) s.runs.keys hfailed
    refine hlast.settles fun htouched k c hc hp => ?_
    have hkey : k ∈ s.runs.keys := by
      obtain ⟨u, hu, -⟩ := hlast.runs.get?_left hc
      exact Dict.mem_keys_iff.2 ⟨u, hu⟩
    have hchild := below_of_rel hlast.runs (below_of_parent hlast.stored hc hp)
    refine hdone k hkey c hc ?_
    rcases htouched with rfl | htouched
    · exact hchild
    · exact hchild.trans htouched
  | @cancel _ root ordered hrun hordered =>
    have hget := (hs.wired.requireRun_eq_ok hrun).1
    obtain ⟨-, hstored, hclosed⟩ := subtree_closed he hget hordered
    have hstart : Canceling s (fun x => x ∈ ordered) s :=
      ⟨hs.wired, he, hg, runs_refl s, rfl, fun hu hv hlive hdead => by
        rw [hu] at hv
        cases hv
        rw [hlive] at hdead
        cases hdead⟩
    obtain ⟨hlast, -, hdone⟩ := foldl_cancelOrdered_settled ordered (fun x hx => hx) hstart
    refine hlast.settles fun {x} htouched k c hc hp => ?_
    obtain ⟨u, hu, hsettles⟩ := hlast.runs.get?_left hc
    have hparent : u.parentRunId = some x :=
      (AgentTreeRun.parentRunId_of_identity hsettles.1).symm.trans hp
    have hroot : u.rootRunId = root.rootRunId := by
      obtain ⟨w, hw, -, hsame, -⟩ := hg.parentRun hs.wired hu hparent
      obtain ⟨w', hw', hroot⟩ := hstored x htouched
      rw [hw] at hw'
      cases hw'
      exact hsame.symm.trans hroot
    have hmem := hclosed x htouched k u hu hroot hparent
    rw [← AgentTreeRun.runId_of_identity hsettles.1] at hmem
    exact hdone _ hmem c (hlast.stored k c hc ▸ hc)
  | close _ hagent hidle =>
    exact Settles.putAgent (hs.wired.requireActiveAgent_eq_ok hagent).1
      ⟨rfl, rfl, fun _ => Or.inr hidle⟩

end

end Purra
