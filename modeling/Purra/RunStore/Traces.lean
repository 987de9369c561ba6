import Purra.RunStore.Moves

/-!
# The traces of the methods

* `active_eq_ok`, `newRun_eq_ok`, `checkScope_eq_ok` — what the checks of a method establish.
* `abortInvocation_spec`, `terminate_traces` — settling a Run closes its invocations one after the
  other and charges each of them.
* `Call.traces` — **every call** is a sequence of moves.
-/

namespace Purra.RunStore

section

variable {host : Host} {env : Env} {s s' : State} {runId rootId : String} {run : StoredRun}

/-! ## Checks -/

theorem throwIf_bind_eq_ok {β : Type} {c : Prop} [Decidable c] {e : StoreError}
    {f : Unit → Act β} {b : β} :
    (throwIf c e >>= f) s = (.ok b, s') ↔ ¬ c ∧ f () s = (.ok b, s') :=
  Action.refuse_bind_eq_ok

theorem throwIf_eq_ok {c : Prop} [Decidable c] {e : StoreError} {u : Unit}
    (h : throwIf c e s = (.ok u, s')) : ¬ c ∧ s' = s := by
  rcases Action.ite_eq_ok.1 h with ⟨-, h⟩ | ⟨hc, h⟩
  · exact absurd h Action.not_raise_eq_ok
  · exact ⟨hc, (Action.pure_eq_ok.1 h).2⟩

theorem require_eq_ok (h : require runId s = (.ok run, s')) :
    s' = s ∧ s.runs.get? runId = some run := by
  have h := Action.read_bind_eq_ok.1 h
  cases hrun : s.runs.get? runId with
  | none =>
    rw [hrun] at h
    exact absurd h Action.not_raise_eq_ok
  | some found =>
    rw [hrun] at h
    rcases Action.ite_eq_ok.1 h with ⟨-, h⟩ | ⟨-, h⟩
    · exact absurd h Action.not_raise_eq_ok
    · obtain ⟨rfl, rfl⟩ := Action.pure_eq_ok.1 h
      exact ⟨rfl, rfl⟩

theorem ofExcept_eq_ok {α : Type} {x : Except StoreError α} {a : α}
    (h : (Action.ofExcept x : Act α) s = (.ok a, s')) : x = .ok a ∧ s' = s := by
  cases h
  exact ⟨rfl, rfl⟩

theorem requireLease_eq_ok {claim : LeaseClaim} {u : Unit}
    (h : requireLease env run claim s = (.ok u, s')) : s' = s := by
  rcases Action.ite_eq_ok.1 h with ⟨-, h⟩ | ⟨-, h⟩
  · exact (Action.pure_eq_ok.1 h).2
  · exact (ofExcept_eq_ok h).2

theorem active_eq_ok {claim : LeaseClaim} (h : active host env runId claim s = (.ok run, s')) :
    s' = s ∧ s.runs.get? runId = some run ∧ run.snapshot.status = .running := by
  obtain ⟨found, s₁, hfound, hrest⟩ := Action.bind_eq_ok.1 h
  obtain ⟨rfl, hrun⟩ := require_eq_ok hfound
  obtain ⟨hrunning, hrest⟩ := throwIf_bind_eq_ok.1 hrest
  obtain ⟨-, hrest⟩ := throwIf_bind_eq_ok.1 hrest
  obtain ⟨_, s₂, hlease, hrest⟩ := Action.bind_eq_ok.1 hrest
  obtain ⟨rfl, rfl⟩ := Action.pure_eq_ok.1 hrest
  exact ⟨requireLease_eq_ok hlease, hrun, not_not.1 hrunning⟩

theorem newRun_eq_ok {params : BeginParams} (h : newRun host env params runId = .ok run) :
    run.runId = runId ∧ run.snapshot.budgets = params.budgets ∧
      (normalizeRunBudgets params.budgets = .ok () → Blank run) := by
  unfold newRun at h
  cases hroot : requiredText (params.rootRunId.getD runId) "root Run id" with
  | error e => rw [hroot] at h; cases h
  | ok rootRunId =>
  cases hagent : requiredText (params.agentId.getD runId) "Agent id" with
  | error e => rw [hroot, hagent] at h; cases h
  | ok agentId =>
  cases hparent : optionalText params.parentRunId "parent Run id" with
  | error e => rw [hroot, hagent, hparent] at h; cases h
  | ok parentRunId =>
  cases howner : optionalText params.leaseOwnerId "lease owner id" with
  | error e => rw [hroot, hagent, hparent, howner] at h; cases h
  | ok leaseOwnerId =>
  cases hepoch : params.leaseEpoch.mapM (nonNegativeInteger · "lease epoch") with
  | error e => rw [hroot, hagent, hparent, howner, hepoch] at h; cases h
  | ok leaseEpoch =>
    rw [hroot, hagent, hparent, howner, hepoch] at h
    by_cases hlease : leaseOwnerId.isSome ≠ leaseEpoch.isSome
    · have herror : (Except.error _ : Except StoreError StoredRun) = .ok run :=
        (if_pos hlease).symm.trans h
      cases herror
    · have hok : Except.ok _ = .ok run := (if_neg hlease).symm.trans h
      cases hok
      exact ⟨rfl, rfl, fun hbudgets => ⟨rfl, rfl, rfl, rfl, rfl, rfl, hbudgets⟩⟩

theorem checkScope_eq_ok {u : Unit} (h : checkScope run s = (.ok u, s')) :
    s' = s ∧ (run.rootRunId = run.runId ∨ ∃ root, s.runs.get? run.rootRunId = some root ∧
      root.rootRunId = run.rootRunId) := by
  rcases Action.ite_eq_ok.1 h with ⟨hself, h⟩ | ⟨-, h⟩
  · exact ⟨(throwIf_eq_ok h).2, .inl hself⟩
  · obtain ⟨root, s₁, hroot, hrest⟩ := Action.bind_eq_ok.1 h
    obtain ⟨rfl, hroot⟩ := require_eq_ok hroot
    obtain ⟨hself, hrest⟩ := throwIf_bind_eq_ok.1 hrest
    refine ⟨?_, .inr ⟨root, hroot, not_not.1 hself⟩⟩
    cases hparent : run.parentRunId with
    | none =>
      rw [hparent] at hrest
      exact absurd hrest Action.not_raise_eq_ok
    | some parentRunId =>
      rw [hparent] at hrest
      obtain ⟨parent, s₂, hfound, hlast⟩ := Action.bind_eq_ok.1 hrest
      obtain ⟨rfl, -⟩ := require_eq_ok hfound
      exact (throwIf_eq_ok hlast).2

theorem still_checkScope (run : StoredRun) : Still (checkScope run) := by
  refine still_ite (still_throwIf _ _) (still_bind (still_require _) fun root =>
    still_bind (still_throwIf _ _) fun _ => ?_)
  split
  · exact still_raise _
  · exact still_bind (still_require _) fun _ => still_throwIf _ _

end

/-! ## Traces -/

section

variable {host : Host} {env : Env} {P : State → String → Draft → Prop} {K : Prop} {s : State}
  {runId rootId : String} {run : StoredRun} {α β : Type}

/-- The action is a sequence of moves from `s`. -/
abbrev Writes (host : Host) (env : Env) (P : State → String → Draft → Prop) (K : Prop) (s : State)
    (m : Act α) : Prop := Action.Traces (Move host env P K) s m

theorem writes_still {m : Act α} (hs : Tree s) (hm : Still m) : Writes host env P K s m :=
  Action.traces_of_final_eq (hm s hs.plain)

theorem writes_still_bind {m : Act α} {f : α → Act β} (hs : Tree s) (hm : Still m)
    (hf : ∀ a, m s = (.ok a, s) → Writes host env P K s (f a)) : Writes host env P K s (m >>= f) := by
  refine Action.traces_bind (writes_still hs hm) fun a s' _ hok _ => ?_
  have hsame : (m s).2 = s := hm s hs.plain
  rw [hok] at hsame
  cases hsame
  exact hf a hok

/-- The rest of an action starts in a tree that has grown. -/
theorem writes_bind {m : Act α} {f : α → Act β} (hs : Tree s) (hm : Writes host env P K s m)
    (hf : ∀ a s', m s = (.ok a, s') → Tree s' → Grows s s' → Writes host env P K s' (f a)) :
    Writes host env P K s (m >>= f) :=
  Action.traces_bind hm fun a s' _ hok htrace =>
    hf a s' hok (trace_tree htrace hs).1 (trace_tree htrace hs).2

theorem writes_write_bind {g : State → State} {f : Unit → Act β} {log : List Charge}
    (h : Move host env P K s log (g s)) (hf : Writes host env P K (g s) (f ())) :
    Writes host env P K s (.write g >>= f) :=
  Action.traces_bind ⟨log, .single h⟩ fun _ _ _ hok _ => by
    cases hok
    exact hf

theorem writes_append {raw : Draft} {meter : Bool} (hs : Tree s)
    (hrun : s.runs.get? runId = some run) (hmetered : meter = true → rootId = run.rootRunId)
    (hunmetered : meter = false → raw.kind.metered = false) (hraw : P s runId raw) :
    Writes host env P K s (append host env runId raw meter rootId) := by
  unfold Writes Action.Traces Action.final
  rcases append_cases hs.plain runId raw meter rootId with ⟨e, h⟩ | ⟨existing, -, -, h⟩ |
    ⟨event, s', h, happended⟩
  · rw [h]
    exact ⟨[], .refl s⟩
  · rw [h]
    exact ⟨[], .refl s⟩
  · rw [h]
    exact ⟨[], .single (.appended hrun hmetered hunmetered hraw happended)⟩

/-- A write, with the usage that is charged for it. -/
theorem writes_usage_bind {g : State → State} {use : Usage → Usage} {f : Unit → Act β}
    {log : List Charge}
    (h : Move host env P K s log ((updateUsages host env runId rootId use).final (g s)))
    (hf : Writes host env P K ((updateUsages host env runId rootId use).final (g s)) (f ())) :
    Writes host env P K s (.write g >>= fun _ => updateUsages host env runId rootId use >>= f) := by
  obtain ⟨new, hnew⟩ := hf
  have hfinal : (Action.write g >>= fun _ => updateUsages host env runId rootId use >>= f).final s =
      (f ()).final ((updateUsages host env runId rootId use).final (g s)) := by
    unfold Action.final
    rw [Action.write_bind_apply, Action.bind_apply, updateUsages_apply]
  exact ⟨log ++ new, hfinal ▸ (Trace.single h).trans hnew⟩

theorem getLast_value (status : SettlementStatus) :
    ∃ d, status.value.toList.getLast? = some d ∧ isWhite d = false := by
  cases status <;> exact ⟨_, rfl, rfl⟩

theorem still_pendingDrafts (drafts : List CopiedDraft) :
    Still (pendingDrafts host runId drafts) := by
  induction drafts with
  | nil => exact still_pure _
  | cons draft drafts ih =>
    refine still_bind (still_sourceEvent _ _ _) fun existing => ?_
    cases existing with
    | some existing => exact still_bind (still_ofExcept _) fun _ => ih
    | none => exact still_bind ih fun _ => still_pure _

theorem still_forM {α : Type} {f : α → Act Unit} (hf : ∀ a, Still (f a)) (l : List α) :
    Still (l.forM f) := by
  induction l with
  | nil => exact still_pure _
  | cons a l ih => exact still_bind (hf a) fun _ => ih

/-- A draft that is appended if it is not in the journal. -/
theorem writes_foundOr {key : String} {appended : Act Event} (hs : Tree s)
    (h : Writes host env P K s appended) : Writes host env P K s (foundOr runId key appended) := by
  refine writes_still_bind hs (still_sourceEvent _ _ _) fun existing _ => ?_
  cases existing with
  | some existing => exact Action.traces_pure _
  | none => exact h

theorem trim_of_mapM_copyDraft {drafts : List Draft} {copied : List CopiedDraft}
    (h : drafts.mapM copyDraft = .ok copied) :
    ∀ draft ∈ copied, trim draft.sourceKey = draft.sourceKey := by
  intro draft hdraft
  obtain ⟨raw, -, hcopy⟩ := mem_of_mapM_eq_ok h hdraft
  rw [trim_of_copyDraft hcopy, trim_trim]

theorem still_hasSettledToolInvocation (runId invocationId : String) :
    Still (hasSettledToolInvocation runId invocationId) := by
  refine still_bind (still_require _) fun run => ?_
  split
  · exact still_ite (still_bind (still_require _) fun _ => still_pure _) (still_pure _)
  · exact still_pure _

theorem writes_appendEvent {draft : Draft} {claim : LeaseClaim} (hs : Tree s)
    (hraw : P s runId draft) : Writes host env P K s (appendEvent host env runId draft claim) := by
  refine writes_still_bind hs (still_active _ _) fun run hactive => ?_
  obtain ⟨-, hrun, -⟩ := active_eq_ok hactive
  refine writes_still_bind hs (still_sourceEvent _ _ _) fun existing _ => ?_
  cases existing with
  | some existing => exact Action.traces_ofExcept_bind fun _ _ => Action.traces_pure _
  | none =>
    refine writes_still_bind hs (still_require _) fun root hrequire => ?_
    obtain ⟨-, hroot⟩ := require_eq_ok hrequire
    exact writes_append hs hrun (fun _ => hs.named _ root hroot) (fun h => by cases h) hraw

section

variable (hP : ∀ s runId raw, trim raw.sourceKey = raw.sourceKey → P s runId raw)
include hP

theorem writes_record {sourceKey : String} {kind : Kind} {visibility : Visibility}
    {payload : Given Json.Object} (hs : Tree s) (hrun : s.runs.get? runId = some run)
    (hkey : trim sourceKey = sourceKey) (hkind : kind.metered = false) :
    Writes host env P K s (record host env runId sourceKey kind visibility payload) :=
  writes_append hs hrun (fun h => by cases h) (fun _ => hkind) (hP s runId _ hkey)

theorem writes_begin {params : BeginParams} (hs : Tree s) :
    Writes host env P K s (begin host env params) := by
  refine Action.traces_ofExcept_bind fun runId _ => Action.traces_read_bind ?_
  refine writes_still_bind hs (still_throwIf _ _) fun _ hnew => ?_
  have hfresh : s.runs.get? runId = none := Dict.get?_eq_none_iff.2 (throwIf_eq_ok hnew).1
  refine Action.traces_ofExcept_bind fun run hrun => Action.traces_ofExcept_bind fun _ _ => ?_
  refine writes_still_bind hs (still_checkScope run) fun _ hscope => ?_
  obtain ⟨hid, hparams, hblank⟩ := newRun_eq_ok hrun
  have hscope := (checkScope_eq_ok hscope).2
  refine writes_write_bind (.journal run.rootRunId) ?_
  refine Action.traces_ofExcept_bind fun _ hbudgets => ?_
  have hopened : Move host env P K s [] (openJournal run.rootRunId s) := .journal run.rootRunId
  have hbegun : Move host env P K (openJournal run.rootRunId s) []
      (addRun run (openJournal run.rootRunId s)) :=
    .begun (hid.symm ▸ hfresh) hscope (hblank hbudgets)
  refine writes_write_bind hbegun ?_
  have htree := (hopened.tree hs).1
  have hthere : (addRun run (openJournal run.rootRunId s)).runs.get? runId = some run := by
    rw [addRun_plain htree.plain, ← hid]
    exact Dict.get?_set_self _ _ _
  refine writes_bind (hbegun.tree htree).1 (writes_record hP (hbegun.tree htree).1 hthere
    (trim_of_ends (head_append (head_append rfl)) rfl (last_append rfl) rfl) rfl) fun event s' _ htree' _ => ?_
  exact Action.traces_pure _

variable {claim : LeaseClaim}

theorem writes_openInvocation {input : ReceiptInput} (hs : Tree s) :
    Writes host env P K s (openInvocation host env runId input claim) := by
  refine writes_still_bind hs (still_active _ _) fun run hactive => ?_
  obtain ⟨-, hrun, -⟩ := active_eq_ok hactive
  refine writes_still_bind hs (still_require _) fun root hrequire => ?_
  obtain ⟨-, hroot⟩ := require_eq_ok hrequire
  refine Action.traces_ofExcept_bind fun _ _ => ?_
  refine writes_still_bind hs (still_throwIf _ _) fun _ _ => ?_
  refine Action.traces_ofExcept_bind fun _ _ => ?_
  refine writes_still_bind hs ?_ fun _ _ => ?_
  · split
    · exact still_requirePlanningOperation _ _
    · exact still_pure _
  · cases hreceipt : run.invocationReceipts.get? input.invocationId with
    | some existing =>
      exact writes_still_bind hs (still_throwIf _ _) fun _ _ =>
        writes_still_bind hs (still_sourceEvent _ _ _) fun _ _ => Action.traces_pure _
    | none =>
      refine Action.traces_ofExcept_bind fun _ _ => ?_
      refine writes_still_bind hs (still_throwIf _ _) fun _ hlimit => ?_
      have hlimit := (throwIf_eq_ok hlimit).1
      rw [hs.named _ root hroot]
      have hmove : Move host env P K s [] ((updateUsages host env runId run.rootRunId
          Usage.attempt).final (openReceipt runId { input with
            attempt := run.snapshot.usage.modelAttempts + 1
            openedAt := host.toISOString env.now } s)) := .opened hrun hroot hreceipt hlimit
      refine writes_usage_bind hmove ?_
      obtain ⟨htree, hgrows⟩ := hmove.tree hs
      obtain ⟨run', hrun', -⟩ := hgrows runId run hrun
      exact writes_bind htree (writes_record hP htree hrun' (trim_of_ends (head_append (head_append rfl)) rfl (last_append rfl) rfl) rfl)
        fun _ _ _ _ _ => Action.traces_pure _

/-- A settlement is kept with the event that is recorded for it. -/
theorem recordSettlement_cases {sourceKey : String} {kind : Kind} {payload : Given Json.Object}
    (hs : Tree s) (hrun : s.runs.get? runId = some run) (hkey : trim sourceKey = sourceKey)
    (hkind : kind.metered = false) (input : Settlement) (budgetError : Option String) :
    ∃ log s₁, Trace (Move host env P K) s log s₁ ∧
      ((∃ e, (record host env runId sourceKey kind .priv payload >>= fun event =>
          Action.write (keepSettlement runId { input, event, budgetError }) >>= fun _ =>
            pure (event, budgetError) : Act (Event × Option String)) s = (.error e, s₁)) ∨
        ∃ a event, (record host env runId sourceKey kind .priv payload >>= fun event =>
          Action.write (keepSettlement runId { input, event, budgetError }) >>= fun _ =>
            pure (event, budgetError) : Act (Event × Option String)) s =
              (.ok a, keepSettlement runId { input, event, budgetError } s₁)) := by
  have hwrites : Writes host env P K s (record host env runId sourceKey kind .priv payload) :=
    writes_record hP hs hrun hkey hkind
  obtain ⟨log, hlog⟩ := hwrites
  unfold Action.final at hlog
  rw [Action.bind_apply]
  rcases hrecord : record host env runId sourceKey kind .priv payload s with ⟨r, s₁⟩
  rw [hrecord] at hlog
  cases r with
  | error e => exact ⟨log, s₁, hlog, .inl ⟨e, rfl⟩⟩
  | ok event => exact ⟨log, s₁, hlog, .inr ⟨(event, budgetError), event, rfl⟩⟩

/-- **`settleInvocation`** throws, finds what it settled before, or charges the invocation and keeps
the settlement. -/
theorem settleInvocation_cases (settlement : Settlement) (claim : LeaseClaim) (hs : Tree s) :
    ∃ log s₁, Trace (Move host env P K) s log s₁ ∧
      ((∃ e, settleInvocation host env runId settlement claim s = (.error e, s₁)) ∨
        (∃ a replay, settleInvocation host env runId settlement claim s = (.ok a, s₁) ∧
          (s.run runId).invocationSettlements.get? settlement.invocationId = some replay) ∨
        ∃ a settled, settleInvocation host env runId settlement claim s =
            (.ok a, keepSettlement runId settled s₁) ∧ settled.input = settlement ∧
          ⟨runId, settlement.invocationId, settlement.usage⟩ ∈ log) := by
  have hplain := hs.plain
  unfold settleInvocation
  rcases (still_active runId claim).bind_cases hplain _ with ⟨e, -, h⟩ | ⟨run, hactive, h⟩
  · exact ⟨[], s, .refl s, .inl ⟨e, h⟩⟩
  rw [h]
  obtain ⟨-, hrun, -⟩ := active_eq_ok hactive
  rcases (still_require run.rootRunId).bind_cases hplain _ with ⟨e, -, h⟩ | ⟨root, hrequire, h⟩
  · exact ⟨[], s, .refl s, .inl ⟨e, h⟩⟩
  rw [h]
  obtain ⟨-, hroot⟩ := require_eq_ok hrequire
  cases hreplay : run.invocationSettlements.get? settlement.invocationId with
  | some replay =>
    dsimp only
    rcases (still_throwIf (host.canonicalJson replay.input.json ≠
      host.canonicalJson settlement.json) _).bind_cases hplain _ with ⟨e, -, h⟩ | ⟨_, -, h⟩
    · exact ⟨[], s, .refl s, .inl ⟨e, h⟩⟩
    · exact ⟨[], s, .refl s, .inr (.inl ⟨_, replay, h, by rw [run_of_get? hrun, hreplay]⟩)⟩
  | none =>
    dsimp only
    rcases (still_throwIf (settlement.invocationId ∉ run.openInvocations) _).bind_cases hplain _
      with ⟨e, -, h⟩ | ⟨_, hopen, h⟩
    · exact ⟨[], s, .refl s, .inl ⟨e, h⟩⟩
    have hopen := not_not.1 (throwIf_eq_ok hopen).1
    rw [h, hs.named _ root hroot, Action.write_bind_apply, Action.bind_apply, updateUsages_apply]
    dsimp only
    rw [Action.read_bind_apply]
    have hmove : Move host env P K s [⟨runId, settlement.invocationId, settlement.usage⟩]
        ((updateUsages host env runId run.rootRunId (·.charge settlement.usage)).final
          (closeInvocation runId settlement.invocationId s)) :=
      .charged settlement.usage hrun hopen
    obtain ⟨htree, hgrows⟩ := hmove.tree hs
    obtain ⟨run', hrun', -⟩ := hgrows runId run hrun
    have hkey : ∀ status : SettlementStatus,
        trim ("invocation:" ++ settlement.invocationId ++ ":" ++ status.value) =
          "invocation:" ++ settlement.invocationId ++ ":" ++ status.value := by
      intro status
      obtain ⟨d, hd, hwhite⟩ := getLast_value status
      exact trim_of_ends (head_append (head_append (head_append rfl))) rfl (last_append hd) hwhite
    generalize (updateUsages host env runId run.rootRunId (·.charge settlement.usage)).final
      (closeInvocation runId settlement.invocationId s) = s₁ at hmove htree hrun' ⊢
    generalize (tokenBudgetKind (s₁.run run.rootRunId).snapshot false).map
      (fun _ => "runtime_budget_exceeded") = budgetError
    generalize (if budgetError = none then settlement.status else .failed) = status
    cases status with
    | completed =>
      obtain ⟨new, s₂, hnew, ⟨e, h⟩ | ⟨a, event, h⟩⟩ := recordSettlement_cases (K := K) hP htree hrun'
        (hkey _) (rfl : Kind.invocationCompleted.metered = false) settlement budgetError
      · exact ⟨_, s₂, (Trace.single hmove).trans hnew, .inl ⟨e, h⟩⟩
      · exact ⟨_, s₂, (Trace.single hmove).trans hnew, .inr (.inr ⟨a, _, h, rfl,
          List.mem_append_left new (List.mem_singleton.2 rfl)⟩)⟩
    | failed =>
      obtain ⟨new, s₂, hnew, ⟨e, h⟩ | ⟨a, event, h⟩⟩ := recordSettlement_cases (K := K) hP htree hrun'
        (hkey _) (rfl : Kind.invocationFailed.metered = false) settlement budgetError
      · exact ⟨_, s₂, (Trace.single hmove).trans hnew, .inl ⟨e, h⟩⟩
      · exact ⟨_, s₂, (Trace.single hmove).trans hnew, .inr (.inr ⟨a, _, h, rfl,
          List.mem_append_left new (List.mem_singleton.2 rfl)⟩)⟩

theorem writes_settleInvocation {settlement : Settlement} (hs : Tree s)
    (hK : K) : Writes host env P K s (settleInvocation host env runId settlement claim) := by
  obtain ⟨log, s₁, hlog, ⟨e, h⟩ | ⟨a, replay, h, -⟩ | ⟨a, settled, h, -, -⟩⟩ :=
    settleInvocation_cases hP settlement claim hs
  · exact ⟨log, by rwa [Action.final, h]⟩
  · exact ⟨log, by rwa [Action.final, h]⟩
  · refine ⟨log ++ [], ?_⟩
    rw [Action.final, h]
    exact hlog.tail (.kept runId settled hK)

theorem writes_appendDrafts {drafts : List CopiedDraft} (hs : Tree s)
    (hrun : s.runs.get? runId = some run) (hroot : rootId = run.rootRunId)
    (hkeys : ∀ draft ∈ drafts, trim draft.sourceKey = draft.sourceKey) :
    Writes host env P K s (appendDrafts host env runId rootId drafts) := by
  induction drafts generalizing s run with
  | nil => exact Action.traces_pure _
  | cons draft drafts ih =>
    obtain ⟨hkey, hkeys⟩ := List.forall_mem_cons.1 hkeys
    have happend : Writes host env P K s (append host env runId draft.draft true rootId) :=
      writes_append hs hrun (fun _ => hroot) (fun h => by cases h) (hP s runId _ hkey)
    refine writes_bind hs (writes_foundOr hs happend) fun event s' _ hs' hgrows => ?_
    obtain ⟨run', hrun', hfixed⟩ := hgrows runId run hrun
    exact writes_bind hs' (ih hs' hrun' (hroot.trans hfixed.rootRunId.symm) hkeys)
      fun _ _ _ _ _ => Action.traces_pure _

theorem writes_appendBatch {drafts : List Draft} (hs : Tree s) :
    Writes host env P K s (appendBatch host env runId drafts claim) := by
  refine writes_still_bind hs (still_active _ _) fun run hactive => ?_
  obtain ⟨-, hrun, -⟩ := active_eq_ok hactive
  refine Action.traces_ite (fun _ => Action.traces_pure _) fun _ => ?_
  refine Action.traces_ofExcept_bind fun copied hcopied => ?_
  refine writes_still_bind hs (still_throwIf _ _) fun _ _ => ?_
  refine writes_still_bind hs (still_pendingDrafts _) fun pending _ => ?_
  refine writes_still_bind hs (still_require _) fun root hrequire => ?_
  obtain ⟨-, hroot⟩ := require_eq_ok hrequire
  refine writes_still_bind hs (still_forM (still_validatePlanningProjection _) _) fun _ _ => ?_
  refine Action.traces_ofExcept_bind fun _ _ => ?_
  exact writes_appendDrafts hP hs hrun (hs.named _ root hroot) (trim_of_mapM_copyDraft hcopied)

theorem writes_saveExecutionCheckpoint {checkpoint : Checkpoint} (hs : Tree s) :
    Writes host env P K s (saveExecutionCheckpoint host env runId checkpoint claim) := by
  refine writes_still_bind hs (still_active _ _) fun run hactive => ?_
  obtain ⟨-, hrun, -⟩ := active_eq_ok hactive
  refine Action.traces_ofExcept_bind fun copied _ => ?_
  refine writes_still_bind hs (still_throwIf _ _) fun _ _ => ?_
  refine Action.traces_ofExcept_bind fun _ _ => ?_
  refine writes_bind hs (writes_record hP hs hrun ?_ rfl) fun event s' _ _ _ => ?_
  · obtain ⟨d, hd, hwhite⟩ := getLast_toString (copied.inputRevision.getD 0)
    have hhead : "agent-checkpoint:".toList.head? = some 'a' := rfl
    exact trim_of_ends (head_append (head_append (head_append (head_append (head_append hhead))))) rfl (last_append hd) hwhite
  · refine writes_write_bind (.noted runId fun run => ?_) (Action.traces_pure _)
    exact ⟨⟨rfl, rfl, rfl, rfl⟩, rfl, rfl, rfl, rfl, rfl, rfl⟩

theorem writes_saveToolExecutionCheckpoint {checkpoint : ToolCheckpoint} (hs : Tree s) :
    Writes host env P K s (saveToolExecutionCheckpoint host env runId checkpoint claim) := by
  refine writes_still_bind hs (still_active _ _) fun run hactive => ?_
  obtain ⟨-, hrun, -⟩ := active_eq_ok hactive
  refine Action.traces_ofExcept_bind fun copied _ => ?_
  refine writes_still_bind hs ?_ fun settled _ => ?_
  · exact still_ite (still_pure _) (still_hasSettledToolInvocation _ _)
  refine writes_still_bind hs (still_throwIf _ _) fun _ _ => ?_
  refine writes_still_bind hs (still_throwIf _ _) fun _ _ => ?_
  refine writes_bind hs (writes_foundOr hs (writes_record hP hs hrun ?_ rfl))
    fun event s' _ _ _ => ?_
  · obtain ⟨d, hd, hwhite⟩ := getLast_toString copied.nextRound
    have hhead : "agent-tool-checkpoint:".toList.head? = some 'a' := rfl
    exact trim_of_ends (head_append (head_append (head_append hhead))) rfl (last_append hd) hwhite
  · refine writes_write_bind (.noted runId fun run => ?_) (Action.traces_pure _)
    exact ⟨⟨rfl, rfl, rfl, rfl⟩, rfl, rfl, rfl, rfl, rfl, rfl⟩

end

end

end Purra.RunStore
