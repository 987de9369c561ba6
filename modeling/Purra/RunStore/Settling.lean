import Purra.RunStore.Traces

/-!
# Settling a Run

`settleRun` closes the open invocations of the Run, each with what the Provider last reported,
finishes its operations, appends what it was given and settles the Run.

* `Settles` — what was logged charges some invocations.
* `abortInvocation_spec` — one open invocation is closed, and charged if nothing throws.
* `settleRun_charges` — when it returns, each invocation that was open was charged.
* `Call.traces` — **every call** is a sequence of moves.
-/

namespace Purra.RunStore

section

variable {host : Host} {env : Env} {P : State → String → Draft → Prop} {K : Prop} {s s' : State}
  {runId rootId : String} {run : StoredRun} {α β : Type}

/-- The open invocations of a Run. -/
def opensOf (s : State) (runId : String) : Option (List String) :=
  (s.runs.get? runId).map (·.openInvocations)

variable {x id : String}

theorem opensOf_updateUsages (f : Usage → Usage) (s : State) :
    opensOf ((updateUsages host env runId rootId f).final s) id = opensOf s id := by
  unfold opensOf
  rw [get?_updateUsages, Option.map_map]
  congr 1
  funext run
  simp only [Function.comp_apply]
  split <;> rfl

variable {meter : Bool}

theorem opensOf_emitted {draft : CopiedDraft} :
    opensOf (emitted host env runId rootId meter draft s) id = opensOf s id := by
  unfold emitted
  split
  · exact opensOf_updateUsages _ s
  · rfl

theorem opensOf_pushEvent (event : Event) (s : State) :
    opensOf (pushEvent runId event s) id = opensOf s id := by
  unfold opensOf
  rw [get?_pushEvent, Option.map_map]
  congr 1
  funext run
  simp only [Function.comp_apply]
  split <;> rfl

theorem opensOf_append {raw : Draft} (hs : Plain s) :
    opensOf ((append host env runId raw meter rootId).final s) id = opensOf s id := by
  unfold Action.final
  rcases append_cases hs runId raw meter rootId with ⟨e, h⟩ | ⟨existing, -, -, h⟩ |
    ⟨event, s', h, happended⟩
  · rw [h]
  · rw [h]
  · obtain ⟨draft, -, -, -, rfl⟩ := happended.made
    rw [h, opensOf_pushEvent, opensOf_emitted]

theorem opensOf_closeInvocation (invocationId : String) (s : State) :
    opensOf (closeInvocation runId invocationId s) runId =
      (opensOf s runId).map (·.erase invocationId) := by
  unfold opensOf
  rw [(rewrites_closeInvocation runId invocationId).runs, Option.map_map, Option.map_map]
  congr 1
  funext run
  simp only [Function.comp_apply, if_true]
  rfl

/-- What the Provider last reported for an invocation. -/
def seenOf (s : State) (runId invocationId : String) : Option Json :=
  observedUsage (s.run runId).events invocationId

/-- An event that reports no usage. -/
theorem observedUsage_snoc {events : List Event} {event : Event} (hkind : event.kind ≠ .modelUsage)
    (invocationId : String) :
    observedUsage (events ++ [event]) invocationId = observedUsage events invocationId := by
  unfold observedUsage
  rw [List.reverse_append, List.reverse_singleton, List.singleton_append, List.find?_cons_of_neg]
  simp [hkind]

theorem seenOf_of_events {s' : State}
    (h : (s'.runs.get? id).map (·.events) = (s.runs.get? id).map (·.events)) :
    seenOf s' id x = seenOf s id x := by
  have hsame : (s'.run id).events = (s.run id).events := by
    unfold State.run
    cases hs : s.runs.get? id with
    | none =>
      cases hs' : s'.runs.get? id with
      | none => rfl
      | some run' =>
        rw [hs, hs'] at h
        cases h
    | some run =>
      cases hs' : s'.runs.get? id with
      | none =>
        rw [hs, hs'] at h
        cases h
      | some run' =>
        rw [hs, hs'] at h
        exact Option.some.inj h
  unfold seenOf
  rw [hsame]

theorem seenOf_closeInvocation (invocationId : String) (s : State) :
    seenOf (closeInvocation runId invocationId s) id x = seenOf s id x := by
  refine seenOf_of_events ?_
  rw [(rewrites_closeInvocation runId invocationId).runs, Option.map_map]
  congr 1
  funext run
  simp only [Function.comp_apply]
  split <;> rfl

theorem seenOf_updateUsages (f : Usage → Usage) (s : State) :
    seenOf ((updateUsages host env runId rootId f).final s) id x = seenOf s id x := by
  refine seenOf_of_events ?_
  rw [get?_updateUsages, Option.map_map]
  congr 1
  funext run
  simp only [Function.comp_apply]
  split <;> rfl

theorem seenOf_emitted {draft : CopiedDraft} :
    seenOf (emitted host env runId rootId meter draft s) id x = seenOf s id x := by
  unfold emitted
  split
  · exact seenOf_updateUsages _ s
  · rfl

theorem seenOf_pushEvent {event : Event} (hkind : event.kind ≠ .modelUsage)
    (s : State) : seenOf (pushEvent runId event s) id x = seenOf s id x := by
  unfold seenOf State.run
  rw [get?_pushEvent]
  cases s.runs.get? id with
  | none => rfl
  | some run =>
    rw [Option.map_some]
    by_cases hid : id = runId
    · rw [if_pos hid]
      exact observedUsage_snoc hkind x
    · rw [if_neg hid]

theorem seenOf_append {raw : Draft} (hs : Plain s) (hkind : raw.kind ≠ .modelUsage) :
    seenOf ((append host env runId raw meter rootId).final s) id x = seenOf s id x := by
  unfold Action.final
  rcases append_cases hs runId raw meter rootId with ⟨e, h⟩ | ⟨existing, -, -, h⟩ |
    ⟨event, s', h, happended⟩
  · rw [h]
  · rw [h]
  · obtain ⟨draft, hdraft, -, rfl, rfl⟩ := happended.made
    have hsame : (eventOf host env s runId draft).kind = raw.kind := kind_of_copyDraft hdraft
    rw [h, seenOf_pushEvent (hsame ▸ hkind), seenOf_emitted]

/-- Some invocations of a Run were charged, each with what was last reported for it. -/
def Settles (host : Host) (s : State) (runId : String) (ids : List String) (log : List Charge) :
    Prop :=
  ∀ id ∈ ids, ∃ usage, (seenOf s runId id).mapM (usageOf host) = .ok usage ∧
    Charge.mk runId id usage ∈ log

theorem Settles.append_left {ids : List String} {log : List Charge}
    (h : Settles host s runId ids log) (new : List Charge) :
    Settles host s runId ids (log ++ new) := by
  intro id hid
  obtain ⟨usage, hseen, hmem⟩ := h id hid
  exact ⟨usage, hseen, List.mem_append_left new hmem⟩

/-- The action is a sequence of moves from `s` that charge some invocations when it returns. -/
def Charges (host : Host) (env : Env) (P : State → String → Draft → Prop) (K : Prop) (s : State)
    (runId : String) (ids : List String) (m : Act α) : Prop :=
  ∃ log, Trace (Move host env P K) s log (m.final s) ∧
    ∀ a s', m s = (.ok a, s') → Settles host s runId ids log

theorem charges_bind {m : Act α} {f : α → Act β} {ids : List String} (hs : Tree s)
    (hm : Charges host env P K s runId ids m)
    (hf : ∀ a s', m s = (.ok a, s') → Tree s' → Grows s s' → Writes host env P K s' (f a)) :
    Charges host env P K s runId ids (m >>= f) := by
  obtain ⟨log, hlog, hsettles⟩ := hm
  unfold Charges
  unfold Action.final at hlog ⊢
  rw [Action.bind_apply]
  rcases hms : m s with ⟨r, s'⟩
  rw [hms] at hlog
  cases r with
  | ok a =>
    obtain ⟨htree, hgrows⟩ := trace_tree hlog hs
    obtain ⟨new, hnew⟩ := hf a s' hms htree hgrows
    exact ⟨log ++ new, hlog.trans hnew, fun _ _ _ => (hsettles a s' hms).append_left new⟩
  | error e => exact ⟨log, hlog, fun _ _ h => by cases h⟩

theorem charges_still_bind {m : Act α} {f : α → Act β} {ids : List String} (hs : Tree s)
    (hm : Still m) (hf : ∀ a, m s = (.ok a, s) → Charges host env P K s runId ids (f a)) :
    Charges host env P K s runId ids (m >>= f) := by
  have hstill := hm.apply hs.plain
  unfold Charges Action.final
  rw [Action.bind_apply, hstill]
  cases hms : (m s).1 with
  | ok a => exact hf a (by rw [hstill, hms])
  | error e => exact ⟨[], .refl s, fun _ _ h => by cases h⟩

theorem getLast_terminal (status : TerminalStatus) :
    ∃ d, status.value.toList.getLast? = some d ∧ isWhite d = false := by
  cases status <;> exact ⟨_, rfl, rfl⟩

theorem trim_aborted (invocationId : String) (status : TerminalStatus) :
    trim ("invocation:" ++ invocationId ++ ":aborted:" ++ status.value) =
      "invocation:" ++ invocationId ++ ":aborted:" ++ status.value := by
  obtain ⟨d, hd, hwhite⟩ := getLast_terminal status
  exact trim_of_ends (head_append (head_append (head_append rfl))) rfl (last_append hd) hwhite

theorem Grows.trans {s'' : State} (h : Grows s s') (h' : Grows s' s'') : Grows s s'' := by
  intro id run hrun
  obtain ⟨run', hrun', hfixed⟩ := h id run hrun
  obtain ⟨run'', hrun'', hfixed'⟩ := h' id run' hrun'
  exact ⟨run'', hrun'', hfixed.trans hfixed'⟩

theorem writes_collect {turn : α → Act β} {l : List α} (hs : Tree s)
    (hturn : ∀ a ∈ l, ∀ s', Tree s' → Grows s s' → Writes host env P K s' (turn a)) :
    Writes host env P K s (collect turn l) := by
  induction l generalizing s with
  | nil => exact Action.traces_pure _
  | cons a rest ih =>
    have hself : Grows s s := fun _ run hrun => ⟨run, hrun, .refl run⟩
    refine writes_bind hs (hturn a List.mem_cons_self s hs hself) fun b s' _ hs' hgrows => ?_
    refine writes_bind hs' (ih hs' fun x hx s'' hs'' hgrows' => ?_)
      fun _ _ _ _ _ => Action.traces_pure _
    exact hturn x (List.mem_cons_of_mem a hx) s'' hs'' (hgrows.trans hgrows')

section

variable (hP : ∀ s runId raw, trim raw.sourceKey = raw.sourceKey → P s runId raw)
include hP

/-- **One open invocation** of a Run that is settled: it is closed, and charged if nothing
throws.  What was reported for the others stays. -/
theorem abortInvocation_spec (status : TerminalStatus) {invocationId : String} (hs : Tree s)
    (hrun : s.runs.get? runId = some run) (hroot : rootId = run.rootRunId)
    (hopen : invocationId ∈ run.openInvocations) :
    opensOf ((abortInvocation host env runId rootId status invocationId).final s) runId =
      some (run.openInvocations.erase invocationId) ∧
    (∀ x, seenOf ((abortInvocation host env runId rootId status invocationId).final s) runId x =
      seenOf s runId x) ∧
    Charges host env P K s runId [invocationId]
      (abortInvocation host env runId rootId status invocationId) := by
  have hopens : opensOf (closeInvocation runId invocationId s) runId =
      some (run.openInvocations.erase invocationId) := by
    rw [opensOf_closeInvocation, opensOf, hrun]
    rfl
  have hclosed : Move host env P K s [] (closeInvocation runId invocationId s) := .closed _
  have htree := (hclosed.tree hs).1
  have hseen : observedUsage ((closeInvocation runId invocationId s).pending runId false)
      invocationId = seenOf s runId invocationId := seenOf_closeInvocation invocationId s
  unfold Charges Action.final abortInvocation
  rw [Action.write_bind_apply, Action.bind_apply, historyEvents_plain htree.plain]
  dsimp only
  rw [hseen]
  cases husage : (seenOf s runId invocationId).mapM (usageOf host) with
  | error e =>
    exact ⟨hopens, fun x => seenOf_closeInvocation invocationId s, [], .single hclosed,
      fun _ _ h => by cases h⟩
  | ok usage =>
    have hcharged : Move host env P K s [⟨runId, invocationId, usage⟩]
        ((updateUsages host env runId rootId (·.charge usage)).final
          (closeInvocation runId invocationId s)) := hroot ▸ .charged usage hrun hopen
    obtain ⟨htree', hgrows⟩ := hcharged.tree hs
    obtain ⟨run', hrun', -⟩ := hgrows runId run hrun
    rw [Action.ofExcept_ok_bind_apply, Action.bind_apply, updateUsages_apply]
    refine ⟨?_, fun x => ?_, ?_⟩
    · exact (opensOf_append htree'.plain).trans ((opensOf_updateUsages _ _).trans hopens)
    · exact (seenOf_append htree'.plain (fun h => by cases h)).trans
        ((seenOf_updateUsages _ _).trans (seenOf_closeInvocation invocationId s))
    · obtain ⟨new, hnew⟩ := writes_record hP htree' hrun' (trim_aborted invocationId status)
        (rfl : Kind.metered .invocationAborted = false)
      refine ⟨[⟨runId, invocationId, usage⟩] ++ new, (Trace.single hcharged).trans hnew,
        fun _ _ _ => ?_⟩
      intro id hid
      rw [List.mem_singleton.1 hid]
      exact ⟨usage, husage, List.mem_append_left new (List.mem_singleton.2 rfl)⟩

variable {status : TerminalStatus}

/-- All the open invocations of a Run that is settled. -/
theorem abortAll_charges {ids : List String} (hs : Tree s)
    (hrun : s.runs.get? runId = some run) (hroot : rootId = run.rootRunId) (hnodup : ids.Nodup)
    (hopen : ∀ id ∈ ids, id ∈ run.openInvocations) :
    Charges host env P K s runId ids
      (collect (abortInvocation host env runId rootId status) ids) := by
  induction ids generalizing s run with
  | nil => exact ⟨[], .refl s, fun _ _ _ _ hid => absurd hid List.not_mem_nil⟩
  | cons id rest ih =>
    obtain ⟨hid, hrest⟩ := List.nodup_cons.1 hnodup
    obtain ⟨hmem, hopen⟩ := List.forall_mem_cons.1 hopen
    obtain ⟨hopens, hseen, log, hlog, hsettles⟩ := abortInvocation_spec hP status hs hrun
      hroot hmem
    unfold Charges collect
    unfold Action.final at hopens hseen hlog ⊢
    rw [Action.bind_apply]
    rcases hturn : abortInvocation host env runId rootId status id s with ⟨r, s'⟩
    rw [hturn] at hlog hopens hseen
    cases r with
    | error e => exact ⟨log, hlog, fun _ _ h => by cases h⟩
    | ok event =>
      obtain ⟨htree, hgrows⟩ := trace_tree hlog hs
      obtain ⟨run', hrun', hfixed⟩ := hgrows runId run hrun
      have hstill : run'.openInvocations = run.openInvocations.erase id := by
        rw [opensOf, hrun'] at hopens
        exact Option.some.inj hopens
      have hothers : ∀ x ∈ rest, x ∈ run'.openInvocations := by
        intro x hx
        rw [hstill]
        have hne : x ≠ id := fun heq => hid (heq ▸ hx)
        exact (List.mem_erase_of_ne hne).2 (hopen x hx)
      obtain ⟨new, hnew, hsettles'⟩ := charges_bind htree
        (ih htree hrun' (hroot.trans hfixed.rootRunId.symm) hrest hothers)
        fun bs s'' _ _ _ => Action.traces_pure (event :: bs)
      refine ⟨log ++ new, hlog.trans hnew, fun a s'' hok x hx => ?_⟩
      rcases List.mem_cons.1 hx with rfl | hx
      · exact (hsettles event s' hturn).append_left new x List.mem_cons_self
      · obtain ⟨usage, husage, hmem⟩ := hsettles' a s'' hok x hx
        rw [hseen] at husage
        exact ⟨usage, husage, List.mem_append_right log hmem⟩

theorem writes_finishOperation {started : Event} (hs : Tree s)
    (hrun : s.runs.get? runId = some run) :
    Writes host env P K s (finishOperation host env runId status started) := by
  refine writes_still_bind hs (still_historyEvents _ _) fun history _ => ?_
  refine Action.traces_ite (fun _ => Action.traces_pure _) fun _ => ?_
  exact writes_bind hs (writes_record hP hs hrun
    (trim_of_ends (head_append (head_append rfl)) rfl (last_append rfl) rfl) rfl)
    fun _ _ _ _ _ => Action.traces_pure _

theorem terminate_charges {options : SettleOptions}
    {related : List CopiedDraft} (hs : Tree s) (hrun : s.runs.get? runId = some run)
    (hroot : rootId = run.rootRunId)
    (hkeys : ∀ draft ∈ related, trim draft.sourceKey = draft.sourceKey) :
    Charges host env P K s runId run.openInvocations
      (terminate host env runId rootId status options related) := by
  have hopen : (s.run runId).openInvocations = run.openInvocations := by rw [run_of_get? hrun]
  unfold terminate
  refine charges_still_bind hs (fun _ _ => rfl) fun s₀ hread => ?_
  cases hread
  rw [hopen]
  refine charges_bind hs (abortAll_charges hP hs hrun hroot (hs.opens runId run hrun)
    fun _ h => h) fun aborted s₁ _ hs₁ hgrows₁ => ?_
  refine writes_still_bind hs₁ (still_historyEvents _ _) fun history _ => ?_
  obtain ⟨run₁, hrun₁, hfixed₁⟩ := hgrows₁ runId run hrun
  refine writes_bind hs₁ (writes_collect hs₁ fun started _ s' hs' hgrows => ?_)
    fun finished s₂ _ hs₂ hgrows₂ => ?_
  · obtain ⟨run', hrun', -⟩ := hgrows runId run₁ hrun₁
    exact writes_finishOperation hP hs' hrun'
  obtain ⟨run₂, hrun₂, hfixed₂⟩ := hgrows₂ runId run₁ hrun₁
  have hroot₂ : rootId = run₂.rootRunId :=
    hroot.trans (hfixed₂.rootRunId.trans hfixed₁.rootRunId).symm
  refine writes_bind hs₂ (writes_collect hs₂ fun draft hdraft s' hs' hgrows => ?_)
    fun appended s₃ _ hs₃ hgrows₃ => ?_
  · obtain ⟨run', hrun', hfixed⟩ := hgrows runId run₂ hrun₂
    exact writes_append hs' hrun' (fun _ => hroot₂.trans hfixed.rootRunId.symm)
      (fun h => by cases h) (hP s' runId _ (hkeys draft hdraft))
  refine Action.traces_ofExcept_bind fun finalOutput _ => ?_
  have hnoted : Move host env P K s₃ [] (s₃.setRun runId fun run => { run with
      snapshot := settledSnapshot host env status finalOutput options.errorCode run.snapshot }) :=
    .noted runId fun run => ⟨⟨rfl, rfl, rfl, rfl⟩, rfl, rfl, rfl, rfl, rfl, rfl⟩
  refine writes_write_bind hnoted ?_
  obtain ⟨htree, hgrows⟩ := hnoted.tree hs₃
  obtain ⟨run₃, hrun₃, -⟩ := hgrows₃ runId run₂ hrun₂
  obtain ⟨run₄, hrun₄, -⟩ := hgrows runId run₃ hrun₃
  refine writes_bind htree (writes_record hP htree hrun₄ ?_ ?_) fun _ _ _ _ _ =>
    Action.traces_pure _
  · obtain ⟨d, hd, hwhite⟩ := getLast_terminal status
    exact trim_of_ends (head_append (head_append (head_append rfl))) rfl (last_append hd) hwhite
  · cases status <;> rfl

/-- **A Run that is settled** has each of its open invocations charged. -/
theorem settleRun_charges {options : SettleOptions}
    {claim : LeaseClaim} (hs : Tree s) (hrun : s.runs.get? runId = some run)
    (hrunning : run.snapshot.status = .running) :
    Charges host env P K s runId run.openInvocations
      (settleRun host env runId status options claim) := by
  refine charges_still_bind hs (still_require _) fun found hfound => ?_
  obtain ⟨-, hsame⟩ := require_eq_ok hfound
  rw [hrun] at hsame
  cases hsame
  rw [if_neg (not_not.2 hrunning)]
  refine charges_still_bind hs (still_requireLease _ _) fun _ _ => ?_
  refine charges_still_bind hs (still_ofExcept _) fun _ _ => ?_
  refine charges_still_bind hs (still_ofExcept _) fun related hrelated => ?_
  refine charges_still_bind hs (still_require _) fun root hrequire => ?_
  obtain ⟨-, hroot⟩ := require_eq_ok hrequire
  refine charges_still_bind hs (still_ofExcept _) fun _ _ => ?_
  exact terminate_charges hP hs hrun (hs.named _ root hroot)
    (trim_of_mapM_copyDraft (ofExcept_eq_ok hrelated).1)

theorem writes_settleRun {options : SettleOptions} {claim : LeaseClaim} (hs : Tree s) :
    Writes host env P K s (settleRun host env runId status options claim) := by
  cases hrun : s.runs.get? runId with
  | none =>
    refine writes_still_bind hs (still_require _) fun found hfound => ?_
    rw [(require_eq_ok hfound).2] at hrun
    cases hrun
  | some run =>
    by_cases hrunning : run.snapshot.status = .running
    · obtain ⟨log, hlog, -⟩ := settleRun_charges hP hs hrun hrunning
      exact ⟨log, hlog⟩
    · refine writes_still_bind hs (still_require _) fun found hfound => ?_
      obtain ⟨-, hsame⟩ := require_eq_ok hfound
      rw [hrun] at hsame
      cases hsame
      refine Action.traces_ite (fun _ => ?_) fun h => absurd hrunning h
      exact Action.traces_ite (fun _ => Action.traces_pure _) fun _ => Action.traces_raise _

theorem writes_cancel {claim : LeaseClaim} (hs : Tree s) :
    Writes host env P K s (cancel host env runId claim) := by
  refine writes_still_bind hs (still_require _) fun run _ => ?_
  refine Action.traces_ite (fun _ => Action.traces_pure _) fun _ => ?_
  exact writes_bind hs (writes_settleRun hP hs) fun _ _ _ _ _ => Action.traces_pure _

/-- **Every call** is a sequence of moves; the draft of `appendEvent` is as it was given, and only
`settleInvocation` keeps a settlement. -/
theorem Call.traces (c : Call) (hs : Tree s)
    (hraw : ∀ runId draft claim, c = .appendEvent runId draft claim → P s runId draft)
    (hK : ∀ runId settlement claim, c = .settleInvocation runId settlement claim → K) :
    Writes host env P K s (c.run host env) := by
  have hmap : ∀ {α : Type} {m : Act α}, Writes host env P K s m →
      Writes host env P K s ((fun _ => ()) <$> m) := fun h =>
    writes_bind hs h fun _ _ _ _ _ => Action.traces_pure _
  cases c with
  | begin params => exact hmap (writes_begin hP hs)
  | openInvocation runId input claim => exact hmap (writes_openInvocation hP hs)
  | appendEvent runId draft claim =>
    exact hmap (writes_appendEvent hs (hraw runId draft claim rfl))
  | appendBatch runId drafts claim => exact hmap (writes_appendBatch hP hs)
  | saveExecutionCheckpoint runId checkpoint claim =>
    exact hmap (writes_saveExecutionCheckpoint hP hs)
  | saveToolExecutionCheckpoint runId checkpoint claim =>
    exact hmap (writes_saveToolExecutionCheckpoint hP hs)
  | settleInvocation runId settlement claim =>
    exact hmap (writes_settleInvocation hP hs (hK runId settlement claim rfl))
  | settleRun => exact hmap (writes_settleRun hP hs)
  | cancel runId claim => exact hmap (writes_cancel hP hs)

end

end

end Purra.RunStore
