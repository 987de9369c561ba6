import Mathlib.Algebra.Order.BigOperators.Group.List
import Mathlib.Algebra.Order.Monoid.Prod
import Purra.RunMemory.Prepared

/-!
# The budgets of a root

Each Run counts the Provider output of its own events and its own model attempts; the
limits are those of the root, and a check sums the counters over all Runs of the root.

* `Accounted` — the sums are the costs of the events in the journal of the root, and
  every Run has its root.  Every write keeps this.
* `Within` — the sums are within the limits of the root.  This is no property of a single
  write: a batch is checked once, with the cost of all its drafts, and appended without
  further checks.
* `budgets_kept` — both hold along every run in which a lifecycle commit brings no more
  events of other roots than those can take, and an append or a reservation that is refused
  costs nothing, unless it is a batch that is torn behind an event with a cost.
-/

namespace Purra.RunMemory

open Contracts Output Purra.Action

/-! ## Counters -/

/-- A counter, summed over the Runs of a root. -/
def RunState.scopeSum (s : RunState) (rootRunId : String) (count : StoredRun → Nat) : Nat :=
  ((s.scopeRuns rootRunId).map count).sum

/-- The Provider output of a root, as its Runs count it. -/
def RunState.spent (s : RunState) (rootRunId : String) : Nat × Nat :=
  (s.scopeSum rootRunId (·.providerOutputEvents), s.scopeSum rootRunId (·.providerOutputBytes))

/-- The model attempts of a root. -/
def RunState.attempts (s : RunState) (rootRunId : String) : Nat :=
  s.scopeSum rootRunId (·.modelAttemptIds.length)

/-- What a root may spend. -/
def RuntimeLimits.output (limits : RuntimeLimits) : Nat × Nat :=
  (limits.maxProviderOutputEvents, limits.maxProviderOutputBytes)

/-- What a record adds to the sum of a root. -/
def share (count : StoredRun → Nat) (rootRunId runId : String) (record : StoredRun) : Nat :=
  if record.scopeId runId = rootRunId then count record else 0

theorem scopeSum_eq_total (s : RunState) (rootRunId : String) (count : StoredRun → Nat) :
    s.scopeSum rootRunId count = s.runs.total (share count rootRunId) := by
  unfold RunState.scopeSum RunState.scopeRuns Dict.total
  induction s.runs.entries with
  | nil => rfl
  | cons p rest ih =>
    rw [List.map_map] at ih ⊢
    rw [List.filter_cons, List.map_cons, List.sum_cons]
    by_cases hscope : p.2.scopeId p.1 = rootRunId
    · rw [if_pos (by simpa using hscope), List.map_cons, List.sum_cons, ih]
      unfold share
      rw [if_pos hscope]
      rfl
    · rw [if_neg (by simpa using hscope), ih]
      unfold share
      rw [if_neg hscope, Nat.zero_add]

variable {s s' : RunState} {runId : String} {record : StoredRun}

/-- One record is replaced. -/
theorem scopeSum_replaced {record' : StoredRun}
    (hget : s.runs.get? runId = some record) (hs' : s'.runs = s.runs.set runId record')
    (rootRunId : String) (count : StoredRun → Nat) :
    s'.scopeSum rootRunId count + share count rootRunId runId record =
      s.scopeSum rootRunId count + share count rootRunId runId record' := by
  rw [scopeSum_eq_total, scopeSum_eq_total, hs']
  exact Dict.total_set_of_get? _ hget

/-- A replacement that keeps a counter keeps its sums. -/
theorem scopeSum_kept {record' : StoredRun}
    (hget : s.runs.get? runId = some record) (hs' : s'.runs = s.runs.set runId record')
    (hparams : record'.params = record.params) {count : StoredRun → Nat}
    (hcount : count record' = count record) (rootRunId : String) :
    s'.scopeSum rootRunId count = s.scopeSum rootRunId count := by
  have h := scopeSum_replaced hget hs' rootRunId count
  unfold share StoredRun.scopeId at h
  rw [hparams, hcount] at h
  exact Nat.add_right_cancel h

/-- A replacement that adds to a counter adds to the sum of the root. -/
theorem scopeSum_added {record' : StoredRun}
    (hget : s.runs.get? runId = some record) (hs' : s'.runs = s.runs.set runId record')
    (hparams : record'.params = record.params) {count : StoredRun → Nat} {amount : Nat}
    (hcount : count record' = count record + amount) (rootRunId : String) :
    s'.scopeSum rootRunId count =
      s.scopeSum rootRunId count + if record.scopeId runId = rootRunId then amount else 0 := by
  have h := scopeSum_replaced hget hs' rootRunId count
  unfold share StoredRun.scopeId at h
  rw [hparams, hcount] at h
  unfold StoredRun.scopeId
  by_cases hroot : record.params.rootRunId.getD runId = rootRunId
  · rw [if_pos hroot] at h ⊢
    rw [if_pos hroot] at h
    omega
  · rw [if_neg hroot] at h ⊢
    rw [if_neg hroot] at h
    omega

/-- A new Run that has counted nothing. -/
theorem scopeSum_began (hnew : s.runs.get? runId = none) (hs' : s'.runs = s.runs.set runId record)
    {count : StoredRun → Nat} (hcount : count record = 0) (rootRunId : String) :
    s'.scopeSum rootRunId count = s.scopeSum rootRunId count := by
  rw [scopeSum_eq_total, scopeSum_eq_total, hs', Dict.total_set_of_none _ hnew]
  unfold share
  rw [hcount]
  simp

/-- The Runs of a root that no Run has. -/
theorem scopeSum_of_unused {rootRunId : String}
    (h : ∀ runId run, s.runs.get? runId = some run → run.scopeId runId ≠ rootRunId)
    (count : StoredRun → Nat) : s.scopeSum rootRunId count = 0 := by
  have hnone : s.scopeRuns rootRunId = [] := by
    unfold RunState.scopeRuns
    rw [List.map_eq_nil_iff, List.filter_eq_nil_iff]
    intro p hp hscope
    exact h p.1 p.2 (Dict.mem_entries_iff.1 hp) (by simpa using hscope)
  unfold RunState.scopeSum
  rw [hnone]
  rfl

/-! ## Costs -/

section

variable (host : Host)

theorem totalCost_append (drafts drafts' : List AgentOutputEventDraft) :
    totalCost host (drafts ++ drafts') = totalCost host drafts + totalCost host drafts' := by
  simp [totalCost]

theorem totalCost_singleton (draft : AgentOutputEventDraft) :
    totalCost host [draft] = providerOutputCost host draft := by
  simp [totalCost]

variable {drafts : List AgentOutputEventDraft}

theorem totalCost_mono {drafts' : List AgentOutputEventDraft}
    (h : drafts.Sublist drafts') : totalCost host drafts ≤ totalCost host drafts' := by
  constructor
  · exact (h.map _).sum_le_sum (fun _ _ => Nat.zero_le _)
  · exact (h.map _).sum_le_sum (fun _ _ => Nat.zero_le _)

theorem totalCost_of_costless
    (h : ∀ draft ∈ drafts, providerOutputCost host draft = 0) : totalCost host drafts = 0 := by
  induction drafts with
  | nil => rfl
  | cons draft rest ih =>
    rw [← List.singleton_append, totalCost_append, totalCost_singleton,
      h draft (List.mem_cons_self ..), ih fun d hd => h d (List.mem_cons_of_mem _ hd)]
    rfl

/-- What drafts cost a root. -/
def RunState.charge (s : RunState) (drafts : List AgentOutputEventDraft) (rootRunId : String) :
    Nat × Nat :=
  totalCost host (drafts.filter fun draft => s.rootOf draft.runId = rootRunId)

variable {runId : String} {run record : StoredRun}

/-- The budget check, as an inequality. -/
theorem requireProviderOutputBudget_eq_ok {s : RunState}
    {cost : Nat × Nat} (h : requireProviderOutputBudget host s runId run cost = .ok ()) :
    ∃ root, s.runs.get? (run.scopeId runId) = some root ∧
      s.spent (run.scopeId runId) + cost ≤ root.params.runtimeLimits.output := by
  unfold requireProviderOutputBudget at h
  obtain ⟨root, hroot, h⟩ := bind_eq_ok h
  obtain ⟨_, hevents, hbytes⟩ := bind_eq_ok h
  refine ⟨root, (requireRun_eq_ok host).1 hroot, ?_, ?_⟩
  · exact Nat.le_of_not_lt (rejectIf_eq_ok.1 hevents)
  · exact Nat.le_of_not_lt (rejectIf_eq_ok.1 hbytes)

theorem requireAttemptBudget_eq_ok {s : RunState}
    (h : requireAttemptBudget host s runId run = .ok ()) :
    ∃ root, s.runs.get? (run.scopeId runId) = some root ∧
      s.attempts (run.scopeId runId) <
        root.params.runtimeLimits.maxModelInvocationAttempts := by
  obtain ⟨root, hroot, h⟩ := bind_eq_ok h
  exact ⟨root, (requireRun_eq_ok host).1 hroot, Nat.lt_of_not_le (rejectIf_eq_ok.1 h)⟩

/-! ## What every write keeps -/

/-- The counters of the Runs are the costs of the journals, and no root has more attempts than it
may. -/
structure Accounted (s : RunState) : Prop where
  counted : ∀ rootRunId, s.spent rootRunId = totalCost host (s.rootDraftsOf rootRunId)
  rooted : ∀ runId run, s.runs.get? runId = some run → ∃ root,
    s.runs.get? (run.scopeId runId) = some root ∧
      root.scopeId (run.scopeId runId) = run.scopeId runId
  attempted : ∀ rootRunId root, s.runs.get? rootRunId = some root →
    s.attempts rootRunId ≤ root.params.runtimeLimits.maxModelInvocationAttempts

theorem accounted_init : Accounted host {} where
  counted _ := rfl
  rooted _ _ h := by cases h
  attempted _ _ h := by cases h

variable {host} {s s' : RunState}

/-- A root that is not there has no Runs. -/
theorem Accounted.unused (h : Accounted host s) {rootRunId : String}
    (hnone : s.runs.get? rootRunId = none) (runId : String) (run : StoredRun)
    (hget : s.runs.get? runId = some run) : run.scopeId runId ≠ rootRunId := by
  rintro rfl
  obtain ⟨root, hroot, -⟩ := h.rooted runId run hget
  rw [hnone] at hroot
  cases hroot

theorem Accounted.spent_of_none (h : Accounted host s) {rootRunId : String}
    (hnone : s.runs.get? rootRunId = none) : s.spent rootRunId = 0 :=
  Prod.ext (scopeSum_of_unused (h.unused hnone) _) (scopeSum_of_unused (h.unused hnone) _)

/-- Every Run still has its root, and a new one has been given one. -/
theorem Accounted.rooted_of_write (h : Accounted host s) (hw : Write host s s') (runId : String)
    (run : StoredRun) (hget : s'.runs.get? runId = some run) : ∃ root,
      s'.runs.get? (run.scopeId runId) = some root ∧
        root.scopeId (run.scopeId runId) = run.scopeId runId := by
  have hkept : ∀ {id : String} {root : StoredRun}, s.runs.get? id = some root →
      root.scopeId id = id → ∃ root', s'.runs.get? id = some root' ∧ root'.scopeId id = id := by
    intro id root hroot hown
    obtain ⟨root', hroot', hpersists⟩ := hw.runsPersist id root hroot
    exact ⟨root', hroot', (hpersists.scopeId_eq id).trans hown⟩
  rcases hw.get?_run hget with ⟨record, hrecord, hpersists⟩ | ⟨hnone, rootRunId, hscope, hroot⟩
  · obtain ⟨root, hroot, hown⟩ := h.rooted runId record hrecord
    rw [hpersists.scopeId_eq]
    exact hkept hroot hown
  · have hid : run.scopeId runId = rootRunId := by
      unfold StoredRun.scopeId
      rw [hscope]
      rfl
    rw [hid]
    rcases hroot with rfl | ⟨root, hroot, hown⟩
    · exact ⟨run, hget, hid⟩
    · exact hkept hroot hown

/-- The attempts are still few enough, when their number has not changed. -/
theorem Accounted.attempted_of_write (h : Accounted host s) (hw : Write host s s')
    (hsame : ∀ rootRunId, s'.attempts rootRunId = s.attempts rootRunId) (rootRunId : String)
    (root : StoredRun) (hget : s'.runs.get? rootRunId = some root) :
    s'.attempts rootRunId ≤ root.params.runtimeLimits.maxModelInvocationAttempts := by
  rw [hsame]
  rcases hw.get?_run hget with ⟨record, hrecord, hpersists⟩ | ⟨hnone, -⟩
  · rw [hpersists.params]
    exact h.attempted rootRunId record hrecord
  · have hzero : s.attempts rootRunId = 0 := scopeSum_of_unused (h.unused hnone) _
    rw [hzero]
    exact Nat.zero_le _

/-- A reserved attempt is charged to the root of its Run. -/
theorem attempts_reserved {invocation : String} (hrun : s.runs.get? runId = some record)
    (hs' : s'.runs = s.runs.set runId (record.withAttempt invocation)) (rootRunId : String) :
    s'.attempts rootRunId =
      s.attempts rootRunId + if record.scopeId runId = rootRunId then 1 else 0 := by
  refine scopeSum_added hrun hs' rfl ?_ rootRunId
  simp [StoredRun.withAttempt]

/-- A reservation was checked against the root it is charged to. -/
theorem Accounted.attempted_of_reserved (h : Accounted host s) (hw : Write host s s')
    {invocation : String} (hrun : s.runs.get? runId = some record)
    (hbudget : requireAttemptBudget host s runId record = .ok ())
    (hs' : s'.runs = s.runs.set runId (record.withAttempt invocation)) (rootRunId : String)
    (root : StoredRun) (hget : s'.runs.get? rootRunId = some root) :
    s'.attempts rootRunId ≤ root.params.runtimeLimits.maxModelInvocationAttempts := by
  obtain ⟨limit, hlimit, hlt⟩ := requireAttemptBudget_eq_ok host hbudget
  obtain ⟨old, hold, hpersists⟩ : ∃ old, s.runs.get? rootRunId = some old ∧ old.Persists root := by
    refine (hw.get?_run hget).resolve_right fun hnew => ?_
    rw [hs', Dict.get?_set_eq_none hrun hnew.1] at hget
    cases hget
  rw [attempts_reserved hrun hs', hpersists.params]
  by_cases hroot : record.scopeId runId = rootRunId
  · subst hroot
    rw [hlimit] at hold
    cases hold
    rw [if_pos rfl]
    exact hlt
  · rw [if_neg hroot]
    exact h.attempted rootRunId old hold

theorem rootDraftsOf_appended {draft : AgentOutputEventDraft}
    (rootRunId : String) : (s.appended host draft run).rootDraftsOf rootRunId =
      s.rootDraftsOf rootRunId ++ if run.scopeId draft.runId = rootRunId then [draft] else [] := by
  unfold RunState.rootDraftsOf
  rw [Journalled.rootEventsOf_appended]
  split
  · rw [List.map_append]
    rfl
  · rw [List.append_nil]

/-- An appended event is charged to the root of its Run. -/
theorem spent_appended {draft : AgentOutputEventDraft}
    (hrun : s.runs.get? draft.runId = some run) (rootRunId : String) :
    (s.appended host draft run).spent rootRunId = s.spent rootRunId +
      if run.scopeId draft.runId = rootRunId then providerOutputCost host draft else 0 := by
  have hruns : (s.appended host draft run).runs =
      s.runs.set draft.runId (run.charged (providerOutputCost host draft)) := rfl
  have hevents := @scopeSum_added s _ _ _ _ hrun hruns rfl (·.providerOutputEvents) _ rfl rootRunId
  have hbytes := @scopeSum_added s _ _ _ _ hrun hruns rfl (·.providerOutputBytes) _ rfl rootRunId
  refine Prod.ext (hevents.trans ?_) (hbytes.trans ?_)
  · split
    · rfl
    · rfl
  · split
    · rfl
    · rfl

theorem attempts_appended {draft : AgentOutputEventDraft}
    (hrun : s.runs.get? draft.runId = some run) (rootRunId : String) :
    (s.appended host draft run).attempts rootRunId = s.attempts rootRunId := by
  have hruns : (s.appended host draft run).runs =
      s.runs.set draft.runId (run.charged (providerOutputCost host draft)) := rfl
  exact @scopeSum_kept s _ _ _ _ hrun hruns rfl (·.modelAttemptIds.length) rfl rootRunId

/-- **The counters follow the journal**, write by write. -/
theorem Accounted.write (h : Accounted host s) (hw : Write host s s') : Accounted host s' := by
  refine ⟨?_, h.rooted_of_write hw, ?_⟩
  · intro rootRunId
    have hold := h.counted rootRunId
    cases hw with
    | counted => exact hold
    | began event hnew hscope =>
      exact (Prod.ext (scopeSum_began hnew rfl rfl _) (scopeSum_began hnew rfl rfl _)).trans hold
    | recorded hrun hfollows =>
      exact (Prod.ext (scopeSum_kept hrun rfl hfollows.params hfollows.outputEvents _)
        (scopeSum_kept hrun rfl hfollows.params hfollows.outputBytes _)).trans hold
    | @reserved _ record invocation hrun hbudget =>
      have hparams : (record.withAttempt invocation).params = record.params := rfl
      exact (Prod.ext (scopeSum_kept hrun rfl hparams rfl _)
        (scopeSum_kept hrun rfl hparams rfl _)).trans hold
    | appended hrun hnew =>
      rw [spent_appended hrun, rootDraftsOf_appended, totalCost_append, hold]
      congr 1
      split
      · exact (totalCost_singleton host _).symm
      · rfl
    | closed => exact hold
  · have hsame := h.attempted_of_write hw
    have hw' := hw
    cases hw with
    | counted => exact h.attempted
    | began event hnew hscope => exact hsame fun _ => scopeSum_began hnew rfl rfl _
    | recorded hrun hfollows =>
      refine hsame fun _ => scopeSum_kept hrun rfl hfollows.params ?_ _
      rw [hfollows.attempts]
    | reserved invocation hrun hbudget => exact h.attempted_of_reserved hw' hrun hbudget rfl
    | appended hrun hnew => exact hsame (attempts_appended hrun)
    | closed => exact h.attempted

/-! ## Within the limits -/

/-- No root has spent more than it may. -/
def RunState.Within (s : RunState) : Prop :=
  ∀ rootRunId root, s.runs.get? rootRunId = some root →
    s.spent rootRunId ≤ root.params.runtimeLimits.output

variable (host) in
/-- The counters follow the journal, and are within their limits. -/
structure Budgeted (s : RunState) : Prop where
  accounted : Accounted host s
  within : s.Within

theorem budgeted_init : Budgeted host {} := ⟨accounted_init host, fun _ _ h => by cases h⟩

theorem accounted_of_moves (h : Accounted host s) (hmoves : Relation.ReflTransGen (Write host) s s') :
    Accounted host s' := by
  induction hmoves with
  | refl => exact h
  | tail _ hw ih => exact ih.write hw

/-- What is spent is read off the journals. -/
theorem Accounted.spent_eq (h : Accounted host s) (h' : Accounted host s')
    (hroots : s'.rootOutputEvents = s.rootOutputEvents) (rootRunId : String) :
    s'.spent rootRunId = s.spent rootRunId := by
  rw [h.counted, h'.counted]
  unfold RunState.rootDraftsOf RunState.rootEventsOf
  rw [hroots]

/-- Writes that append nothing spend nothing. -/
theorem Budgeted.of_moves (h : Budgeted host s) (hmoves : Relation.ReflTransGen (Write host) s s')
    (hroots : s'.rootOutputEvents = s.rootOutputEvents) : Budgeted host s' := by
  have h' := accounted_of_moves h.accounted hmoves
  refine ⟨h', fun rootRunId root hget => ?_⟩
  rw [h.accounted.spent_eq h' hroots]
  cases hold : s.runs.get? rootRunId with
  | none =>
    rw [h.accounted.spent_of_none hold]
    exact ⟨Nat.zero_le _, Nat.zero_le _⟩
  | some record =>
    obtain ⟨record', hget', hpersists⟩ := runsPersist_of_moves hmoves rootRunId record hold
    rw [hget] at hget'
    cases hget'
    rw [hpersists.params]
    exact h.within rootRunId record hold

/-- Nothing but the Runs and the journals of the roots matters. -/
theorem Budgeted.congr (h : Budgeted host s) (hruns : s'.runs = s.runs)
    (hroots : s'.rootOutputEvents = s.rootOutputEvents) : Budgeted host s' := by
  have hsum : ∀ rootRunId count, s'.scopeSum rootRunId count = s.scopeSum rootRunId count := by
    intro rootRunId count
    unfold RunState.scopeSum RunState.scopeRuns
    rw [hruns]
  have hspent : ∀ rootRunId, s'.spent rootRunId = s.spent rootRunId :=
    fun _ => Prod.ext (hsum _ _) (hsum _ _)
  refine ⟨⟨fun rootRunId => ?_, ?_, ?_⟩, ?_⟩
  · rw [hspent, h.accounted.counted]
    unfold RunState.rootDraftsOf RunState.rootEventsOf
    rw [hroots]
  · rw [hruns]
    exact h.accounted.rooted
  · rw [hruns]
    intro rootRunId root hget
    refine Eq.trans_le ?_ (h.accounted.attempted rootRunId root hget)
    exact hsum _ _
  · intro rootRunId root hget
    rw [hruns] at hget
    rw [hspent]
    exact h.within rootRunId root hget

/-- Events whose costs fit are appended. -/
theorem Budgeted.extended (h : Budgeted host s) (h' : Accounted host s')
    {news : List AgentOutputEventDraft} (hextended : Extended s s' news)
    (hfits : ∀ rootRunId root, s.runs.get? rootRunId = some root →
      s.spent rootRunId + s.charge host news rootRunId ≤ root.params.runtimeLimits.output) :
    Budgeted host s' := by
  refine ⟨h', fun rootRunId root' hget' => ?_⟩
  cases hget : s.runs.get? rootRunId with
  | none =>
    rw [hextended.absent rootRunId hget] at hget'
    cases hget'
  | some root =>
    obtain ⟨cost, hfound⟩ := hextended.runs rootRunId root hget
    rw [hget'] at hfound
    cases hfound
    rw [h'.counted, hextended.rootDrafts, totalCost_append, ← h.accounted.counted]
    exact hfits rootRunId root hget

theorem charge_mono {news : List AgentOutputEventDraft} (h : news.Sublist drafts)
    (rootRunId : String) : s.charge host news rootRunId ≤ s.charge host drafts rootRunId :=
  totalCost_mono host (h.filter _)

theorem charge_le_totalCost (drafts : List AgentOutputEventDraft) (rootRunId : String) :
    s.charge host drafts rootRunId ≤ totalCost host drafts :=
  totalCost_mono host List.filter_sublist

/-- Drafts of Runs of other roots are not charged. -/
theorem charge_of_other {rootRunId : String}
    (h : ∀ draft ∈ drafts, s.rootOf draft.runId ≠ rootRunId) :
    s.charge host drafts rootRunId = 0 := by
  unfold RunState.charge
  rw [List.filter_eq_nil_iff.2 fun draft hdraft => by simpa using h draft hdraft]
  rfl

/-- Drafts that the budget check let through fit into the root it was made for. -/
theorem fits_of_budget
    (hbudget : requireProviderOutputBudget host s runId run (totalCost host drafts) = .ok ())
    (hothers : ∀ rootRunId root, s.runs.get? rootRunId = some root →
      rootRunId ≠ run.scopeId runId →
      s.spent rootRunId + s.charge host drafts rootRunId ≤ root.params.runtimeLimits.output)
    (rootRunId : String) (root : StoredRun) (hget : s.runs.get? rootRunId = some root) :
    s.spent rootRunId + s.charge host drafts rootRunId ≤ root.params.runtimeLimits.output := by
  by_cases hroot : rootRunId = run.scopeId runId
  · subst hroot
    obtain ⟨found, hfound, hle⟩ := requireProviderOutputBudget_eq_ok host hbudget
    rw [hget] at hfound
    cases hfound
    exact le_trans (add_le_add le_rfl (charge_le_totalCost drafts _)) hle
  · exact hothers rootRunId root hget hroot

/-- The drafts are all of one Run. -/
theorem Budgeted.fits_of_run (h : Budgeted host s) (hrun : s.runs.get? runId = some run)
    (hsame : ∀ draft ∈ drafts, draft.runId = runId)
    (hbudget : requireProviderOutputBudget host s runId run (totalCost host drafts) = .ok ())
    (rootRunId : String) (root : StoredRun) (hget : s.runs.get? rootRunId = some root) :
    s.spent rootRunId + s.charge host drafts rootRunId ≤ root.params.runtimeLimits.output := by
  refine fits_of_budget hbudget (fun other found hfound hne => ?_) rootRunId root hget
  rw [charge_of_other fun draft hdraft => ?_, add_zero]
  · exact h.within other found hfound
  · rw [hsame draft hdraft, RunState.rootOf_eq hrun]
    exact Ne.symm hne

/-! ## Appending -/

/-- An append that checks the budget itself. -/
theorem preserves_appendEvent (writer : Writer) (reading : Nat) (draft : AgentOutputEventDraft)
    {mode : AppendMode} (hmode : mode.budgetPrechecked = false) :
    Preserves (Budgeted host) (appendEvent host writer reading draft mode) := by
  intro s h
  have hmoves := appendEvent_moves host writer reading draft mode s
  unfold MovesFrom final at hmoves
  unfold final
  have hcases := appendEvent_cases host writer reading draft mode s
  generalize appendEvent host writer reading draft mode s = result at hcases hmoves ⊢
  cases hcases with
  | refused e => exact h
  | found event hfound => exact h
  | wrote run hnew hcheck =>
    obtain ⟨hvalid, hbudget⟩ := checkNewEvent_run host hcheck
    have hrun := validateNewEvent_run host hvalid
    have hcost := hbudget hmode
    rw [← totalCost_singleton] at hcost
    refine h.extended (accounted_of_moves h.accounted hmoves)
      (.appended hrun ((existingEvent_eq_none host).1 hnew)) ?_
    exact h.fits_of_run hrun (fun d hd => by rw [List.mem_singleton.1 hd]) hcost

/-- Appends without budget checks, of drafts that fit. -/
theorem Budgeted.appendAll (h : Budgeted host s) (writer : Writer)
    (mode : AgentOutputEventDraft → AppendMode) (reading : Nat)
    {fitting : List AgentOutputEventDraft}
    (hnews : ∀ before, before <+: drafts → (newDrafts s before).Sublist fitting)
    (hfits : ∀ rootRunId root, s.runs.get? rootRunId = some root →
      s.spent rootRunId + s.charge host fitting rootRunId ≤ root.params.runtimeLimits.output) :
    Budgeted host ((appendAll host writer mode reading drafts).final s) := by
  obtain ⟨before, hbefore, hextended⟩ := appendAll_extended host writer mode reading drafts s
  refine h.extended (accounted_of_moves h.accounted (appendAll_moves host writer mode reading drafts s))
    hextended fun rootRunId root hget => ?_
  refine le_trans (add_le_add le_rfl (charge_mono (hnews before hbefore) rootRunId)) ?_
  exact hfits rootRunId root hget

theorem freeDrafts_sublist {drafts' : List AgentOutputEventDraft}
    (h : drafts.Sublist drafts') : (freeDrafts s drafts).Sublist (freeDrafts s drafts') :=
  h.filter _

/-- A batch is checked once, with the cost of all its new drafts. -/
theorem preserves_appendEvents (writer : Writer) (drafts : List AgentOutputEventDraft) :
    Preserves (Budgeted host) (appendEvents host writer drafts) := by
  intro s h
  cases drafts with
  | nil => exact h
  | cons first rest =>
    unfold final
    rw [appendEvents_cons]
    cases hcheck : precheckBatch host writer s first rest with
    | error e => exact h
    | ok u =>
      obtain ⟨hsame, hkeys, pending, run, hpending, hrun, hbudget⟩ := precheckBatch_spec host hcheck
      rw [(pendingDrafts_spec host hpending).1] at hbudget
      have hnews : ∀ before, before <+: first :: rest →
          (newDrafts s before).Sublist (freeDrafts s (first :: rest)) := by
        intro before hbefore
        have hnodup : (before.map (·.sourceEventKey)).Nodup :=
          hkeys.sublist (hbefore.sublist.map _)
        rw [newDrafts_of_nodup hnodup]
        exact freeDrafts_sublist hbefore.sublist
      refine h.appendAll writer _ _ hnews ?_
      exact h.fits_of_run hrun (fun d hd => hsame d (List.mem_filter.1 hd).1) hbudget

/-! ## The other methods -/

/-- Writes that append nothing. -/
theorem preserves_of_moves {α : Type} {m : Action RunState PyError α}
    (hmoves : ∀ s, MovesFrom (Write host) s m) (hroots : Keeps RunState.rootOutputEvents m) :
    Preserves (Budgeted host) m := fun s h => h.of_moves (hmoves s) (hroots s)

theorem chooseRunId_roots (params : RunCreateParams) :
    Keeps RunState.rootOutputEvents (chooseRunId params) := by
  unfold chooseRunId
  cases params.requestedRunId with
  | some runId => exact keeps_pure runId
  | none => exact keeps_bind (keeps_write fun _ => rfl) fun _ => keeps_read_bind fun _ => keeps_pure _

theorem preserves_begin (writer : Writer) (params : RunCreateParams) (event : AgentEvent) :
    Preserves (Budgeted host) (begin host writer params event) := by
  refine preserves_of_moves (begin_moves host writer params event) ?_
  refine keeps_bind (chooseRunId_roots params) fun runId => keeps_read_bind fun s => ?_
  refine keeps_ite (keeps_raise _) (keeps_ofExcept_bind fun _ => ?_)
  exact keeps_bind (keeps_write fun _ => rfl) fun _ => keeps_pure _

theorem onRun_roots (runId : String) {α : Type} (m : Action StoredRun PyError α) :
    Keeps RunState.rootOutputEvents (onRun host runId m) := by
  intro s
  unfold final onRun
  cases s.runs.get? runId with
  | none => rfl
  | some record => rfl

theorem preserves_commit (writer : Writer) (runId : String) (change : RunCommit) :
    Preserves (Budgeted host) (commit host writer runId change) := by
  refine preserves_of_moves (commit_moves host writer runId change) ?_
  refine keeps_ofExcept_bind fun _ => keeps_ofExcept_bind fun _ => keeps_read_bind fun _ =>
    keeps_ofExcept_bind fun _ => ?_
  exact keeps_bind (onRun_roots runId _) fun _ => keeps_pure _

theorem preserves_appendRunEvent (writer : Writer) (runId : String) (event : AgentEvent) :
    Preserves (Budgeted host) (appendRunEvent host writer runId event) := by
  refine preserves_of_moves (appendRunEvent_moves host writer runId event) ?_
  exact keeps_read_bind fun _ => keeps_ofExcept_bind fun _ => onRun_roots runId _

theorem preserves_reserveModelAttempt (writer : Writer) (runId invocationId : String) :
    Preserves (Budgeted host) (reserveModelAttempt host writer runId invocationId) := by
  refine preserves_of_moves (reserveModelAttempt_moves host writer runId invocationId) ?_
  refine keeps_ofExcept_bind fun _ => keeps_read_bind fun _ => keeps_ofExcept_bind fun _ => ?_
  refine keeps_ite (keeps_pure _) (keeps_ofExcept_bind fun _ => ?_)
  exact keeps_bind (onRun_roots runId _) fun _ => keeps_pure _

/-- Opening a stream, or closing one, is nothing to the budgets. -/
theorem preserves_setStream (id : String) (stream : StoredStream) :
    Preserves (Budgeted host)
      (Action.write (·.setStream id stream) : Action RunState PyError Unit) :=
  preserves_write fun _ h => h.congr rfl rfl

theorem preserves_openStream (writer : Writer) (spec : OutputStreamSpec) :
    Preserves (Budgeted host) (openStream host writer spec) := by
  refine preserves_read_bind fun s => preserves_ofExcept_bind fun run _ =>
    preserves_ofExcept_bind fun bound _ => ?_
  cases bound with
  | some existing =>
    exact preserves_ite (fun _ => preserves_raise _) fun _ =>
      preserves_ite (fun _ => preserves_raise _) fun _ => preserves_pure _
  | none =>
    refine preserves_ite (fun _ => preserves_raise _) fun _ => preserves_ofExcept_bind fun _ _ => ?_
    exact preserves_bind (preserves_write fun _ h => h.congr rfl rfl) fun _ => preserves_pure _

theorem preserves_commitStream (writer : Writer) (now : Int) (id : String)
    (finishReason : ModelFinishReason) :
    Preserves (Budgeted host) (commitStream host writer now id finishReason) := by
  refine preserves_read_bind fun s => preserves_ofExcept_bind fun stream _ => ?_
  refine preserves_ite (fun _ => preserves_ofExcept _) fun _ =>
    preserves_ite (fun _ => preserves_raise _) fun _ => ?_
  exact preserves_bind (preserves_appendEvent writer 0 _ rfl) fun _ =>
    preserves_bind (preserves_setStream id _) fun _ => preserves_pure _

theorem preserves_abortStream (writer : Writer) (now : Int) (id errorCode : String) :
    Preserves (Budgeted host) (abortStream host writer now id errorCode) := by
  refine preserves_ite (fun _ => preserves_raise _) fun _ =>
    preserves_read_bind fun s => preserves_ofExcept_bind fun stream _ => ?_
  refine preserves_ite (fun _ => preserves_ofExcept _) fun _ =>
    preserves_ite (fun _ => preserves_raise _) fun _ => ?_
  exact preserves_bind (preserves_appendEvent writer 0 _ rfl) fun _ =>
    preserves_bind (preserves_setStream id _) fun _ => preserves_pure _

theorem preserves_publishStreamContent (promotion : Promotion) (writer : Writer) (now : Int)
    (id : String) :
    Preserves (Budgeted host) (publishStreamContent host promotion writer now id) := by
  refine preserves_read_bind fun s => preserves_ofExcept_bind fun drafts _ => ?_
  cases drafts with
  | none => exact preserves_pure _
  | some drafts =>
    exact preserves_bind (preserves_appendEvent writer 0 _ rfl) fun _ =>
      preserves_bind (preserves_appendEvent writer 1 _ rfl) fun _ => preserves_pure _

/-! ## Lifecycle commits -/

theorem preserves_onRun_commit (runId : String) (commit : RunCommit) :
    Preserves (Budgeted host) (onRun host runId (applyCommit host commit)) :=
  preserves_of_moves (fun _ => onRun_moves host fun record _ => applyCommit_follows host commit record)
    (onRun_roots runId _)

theorem preserves_closeAborted (draft : AgentOutputEventDraft) :
    Preserves (Budgeted host) (closeAborted host draft) :=
  preserves_read_bind fun _ => preserves_ofExcept_bind fun _ _ => preserves_setStream _ _

/-- A commit to the record of a Run changes the parameters of none. -/
theorem onRun_params {commit : RunCommit}
    (h : onRun host runId (applyCommit host commit) s = (.ok (), s')) (id : String) :
    (s'.runs.get? id).map (·.params) = (s.runs.get? id).map (·.params) := by
  obtain ⟨record, record', hget, hcommit, rfl⟩ := onRun_eq_ok host h
  have hfollows := applyCommit_follows host commit record
  unfold final at hfollows
  rw [hcommit] at hfollows
  dsimp only
  rw [Dict.get?_set]
  split
  · rename_i hid
    subst hid
    rw [hget, Option.map_some, Option.map_some, hfollows.params]
  · rfl

theorem rootOf_congr {id : String}
    (h : (s'.runs.get? id).map (·.params) = (s.runs.get? id).map (·.params)) :
    s'.rootOf id = s.rootOf id := by
  have hroot : ∀ (t : RunState), t.rootOf id =
      (((t.runs.get? id).map (·.params)).bind (·.rootRunId)).getD id := by
    intro t
    unfold RunState.rootOf
    cases t.runs.get? id with
    | none => rfl
    | some record => rfl
  rw [hroot, hroot, h]

/-- A plan whose drafts fit is applied. -/
theorem Budgeted.applyLifecycle (h : Budgeted host s) (writer : Writer) (runId : String)
    (commit : RunCommit) (control : Bool) {plan : LifecyclePlan}
    (hfits : ∀ rootRunId root, s.runs.get? rootRunId = some root →
      s.spent rootRunId + s.charge host plan.drafts rootRunId ≤ root.params.runtimeLimits.output) :
    Budgeted host ((applyLifecycle host writer runId commit control (.fresh plan)).final s) := by
  unfold RunMemory.applyLifecycle final
  dsimp only
  rw [bind_apply]
  have hcommit := @preserves_onRun_commit host runId commit s h
  unfold final at hcommit
  cases hfirst : onRun host runId (applyCommit host commit) s with
  | mk outcome s₁ =>
  rw [hfirst] at hcommit
  cases outcome with
  | error e => exact hcommit
  | ok u =>
    dsimp only at hcommit ⊢
    -- the commit has changed neither what is spent nor whose root is whose
    have hparams := onRun_params hfirst
    have hroots : s₁.rootOutputEvents = s.rootOutputEvents := by
      have hkept := @onRun_roots host runId Unit (applyCommit host commit) s
      unfold final at hkept
      rwa [hfirst] at hkept
    have hcharge : ∀ rootRunId, s₁.charge host plan.drafts rootRunId =
        s.charge host plan.drafts rootRunId := by
      intro rootRunId
      unfold RunState.charge
      simp only [fun id => rootOf_congr (hparams id)]
    have hfits₁ : ∀ rootRunId root, s₁.runs.get? rootRunId = some root →
        s₁.spent rootRunId + s₁.charge host plan.drafts rootRunId ≤
          root.params.runtimeLimits.output := by
      intro rootRunId root hget
      have hroot := hparams rootRunId
      rw [hget, Option.map_some] at hroot
      obtain ⟨old, hold, heq⟩ := Option.map_eq_some_iff.1 hroot.symm
      rw [hcharge, h.accounted.spent_eq hcommit.accounted hroots, ← heq]
      exact hfits rootRunId old hold
    have hall := hcommit.appendAll writer (lifecycleMode plan.final control) (plan.drafts.length + 1)
      (fun before hbefore => (newDrafts_sublist s₁ before).trans hbefore.sublist) hfits₁
    have hrest : Preserves (Budgeted host) (plan.aborts.forM (closeAborted host)) :=
      preserves_forM fun draft _ => preserves_closeAborted draft
    rw [bind_apply]
    unfold final at hall
    cases hsecond : RunMemory.appendAll host writer (lifecycleMode plan.final control)
      (plan.drafts.length + 1) plan.drafts s₁ with
    | mk outcome s₂ =>
    rw [hsecond] at hall
    cases outcome with
    | error e => exact hall
    | ok events => exact (preserves_bind hrest fun _ => preserves_pure events) s₂ hall

/-- The related events of a lifecycle commit that are not of its own root fit into theirs. -/
def RelatedFit (host : Host) (s : RunState) (runId : String)
    (related : List AgentOutputEventDraft) : Prop :=
  ∀ rootRunId root, s.runs.get? rootRunId = some root → rootRunId ≠ s.rootOf runId →
    s.spent rootRunId + s.charge host related rootRunId ≤ root.params.runtimeLimits.output

/-- The drafts of a checked plan fit, when its related drafts do. -/
theorem LifecyclePlan.Checked.fits {writer : Writer}
    {commit : RunCommit} {draft : RunLifecycleOutputDraft RunStatus}
    {related final operations : List AgentOutputEventDraft} {control : Bool} {plan : LifecyclePlan}
    (h : plan.Checked host writer s runId record commit draft related final control operations)
    (hprepares : Prepares host writer s runId commit draft control final record none)
    (hrelated : RelatedFit host s runId related) (rootRunId : String) (root : StoredRun)
    (hget : s.runs.get? rootRunId = some root) :
    s.spent rootRunId + s.charge host plan.drafts rootRunId ≤ root.params.runtimeLimits.output := by
  have hrun := ((requireRunWrite_eq_ok host).1 hprepares.run).1
  refine fits_of_budget h.budget (fun other found hfound hne => ?_) rootRunId root hget
  rw [← RunState.rootOf_eq hrun] at hne
  -- what is charged to another root is among the related drafts
  have hcharge : s.charge host plan.drafts other = s.charge host related other := by
    unfold RunState.charge
    rw [h.drafts_eq, filter_atomicDrafts fun d hd => ?_]
    rw [h.own hprepares.final_eq hd]
    exact decide_eq_false (Ne.symm hne)
  rw [hcharge]
  exact hrelated other found hfound hne

theorem Budgeted.commitRunLifecycle (h : Budgeted host s) (writer : Writer) (runId : String)
    (commit : RunCommit) (draft : RunLifecycleOutputDraft RunStatus)
    {related : List AgentOutputEventDraft} (hrelated : RelatedFit host s runId related) :
    Budgeted host ((commitRunLifecycle host writer runId commit draft related).final s) := by
  unfold RunMemory.commitRunLifecycle
  rw [final_read_bind, final_ofExcept_bind]
  cases hprepared : prepareRunLifecycle host writer s runId commit draft related false with
  | error e => exact h
  | ok prepared =>
    obtain ⟨final, record, ⟨existing, events, rfl, -, -⟩ | ⟨plan, operations, rfl, hprepares, hchecked⟩⟩ :=
      prepareRunLifecycle_cases host hprepared
    · exact h
    · exact h.applyLifecycle writer runId commit false (hchecked.fits hprepares hrelated)

/-! ## Canceling child Runs -/

/-- A prepared commit none of whose drafts is Provider output. -/
def Prepared.Costless (host : Host) : Prepared → Prop
  | .replay _ => True
  | .fresh plan => ∀ draft ∈ plan.drafts, providerOutputCost host draft = 0

theorem Budgeted.applyCostless (h : Budgeted host s) (writer : Writer) (runId : String)
    (commit : RunCommit) (control : Bool) {prepared : Prepared} (hcost : prepared.Costless host) :
    Budgeted host ((RunMemory.applyLifecycle host writer runId commit control prepared).final s) := by
  cases prepared with
  | replay events => exact h
  | fresh plan =>
    refine h.applyLifecycle writer runId commit control fun rootRunId root hget => ?_
    have hcharge : s.charge host plan.drafts rootRunId = 0 :=
      totalCost_of_costless host fun d hd => hcost d (List.mem_filter.1 hd).1
    rw [hcharge, add_zero]
    exact h.within rootRunId root hget

theorem cancellationCommit_output {reason : String}
    {commit : RunCommit} (h : cancellationCommit runId record reason = .ok commit) :
    commit.finalOutput = none := by
  obtain ⟨_, _, h⟩ := bind_eq_ok h
  obtain ⟨_, _, h⟩ := bind_eq_ok h
  rw [RunCommit.eq_of_of h]

theorem prepareCancellation_costless {writer : Writer} {now : Int} {reason : String}
    {treeRun : TreeRun} {cancellation : Cancellation}
    (h : prepareCancellation host writer now reason s treeRun = .ok (some cancellation)) :
    cancellation.prepared.Costless host := by
  unfold prepareCancellation at h
  split at h
  · split at h
    · cases h
    obtain ⟨commit, hcommit, h⟩ := bind_eq_ok h
    obtain ⟨prepared, hprepared, h⟩ := bind_eq_ok h
    cases h
    obtain ⟨final, record, ⟨existing, events, rfl, -, -⟩ | ⟨plan, operations, rfl, hprepares, hchecked⟩⟩ :=
      prepareRunLifecycle_cases host hprepared
    · trivial
    · have hfinal := finalDrafts_eq_nil (cancellationCommit_output hcommit) hprepares.final_eq
      subst hfinal
      exact fun draft hdraft => hchecked.costless hdraft
  · cases h

theorem preserves_cancelChildren (writer : Writer) (now : Int) (treeRuns : List TreeRun)
    (reason : String) :
    Preserves (Budgeted host) (cancelChildren host writer now treeRuns reason) := by
  intro s h
  unfold cancelChildren
  rw [final_read_bind, final_ofExcept_bind]
  cases hprepared : treeRuns.mapM (prepareCancellation host writer now reason s) with
  | error e => exact h
  | ok prepared =>
    refine preserves_forM (fun cancellation hmem => ?_) s h
    obtain ⟨found, hfound, rfl⟩ := List.mem_filterMap.1 hmem
    obtain ⟨treeRun, _, heq⟩ := mem_of_mapM_eq_ok hprepared hfound
    have hcost := prepareCancellation_costless heq
    exact preserves_bind (fun t ht => ht.applyCostless writer _ _ true hcost)
      fun _ => preserves_pure ()

/-! ## Steps -/

/-- The condition on a call: the related drafts of a lifecycle commit fit. -/
def BudgetFits (host : Host) (s : RunState) (call : Writer × Operation) : Prop :=
  match call.2 with
  | .commitRunLifecycle runId _ _ related => RelatedFit host s runId related
  | _ => True

theorem Budgeted.step (h : Budgeted host s) {call : Writer × Operation}
    (hfits : BudgetFits host s call) : Budgeted host (step host s call) := by
  obtain ⟨writer, operation⟩ := call
  unfold RunMemory.step
  cases operation with
  | begin params event =>
    simp only [Operation.run, final_map]
    exact preserves_begin writer params event s h
  | beginRunLifecycle now params event =>
    simp only [Operation.run, final_map]
    exact preserves_bind (preserves_begin writer params event)
      (fun _ => preserves_bind (preserves_appendEvent writer 1 _ rfl) fun _ => preserves_pure _) s h
  | commit runId change =>
    simp only [Operation.run, final_map]
    exact preserves_commit writer runId change s h
  | appendRunEvent runId event => exact preserves_appendRunEvent writer runId event s h
  | reserveModelAttempt runId invocationId =>
    simp only [Operation.run, final_map]
    exact preserves_reserveModelAttempt writer runId invocationId s h
  | openStream spec =>
    simp only [Operation.run, final_map]
    exact preserves_openStream writer spec s h
  | appendEvent draft =>
    simp only [Operation.run, final_map]
    exact preserves_appendEvent writer 0 draft rfl s h
  | appendBatch drafts =>
    simp only [Operation.run, final_map]
    exact preserves_appendEvents writer drafts s h
  | commitRunLifecycle runId change draft =>
    simp only [Operation.run, final_map]
    exact h.commitRunLifecycle writer runId change draft hfits
  | commitStream now id finishReason =>
    simp only [Operation.run, final_map]
    exact preserves_commitStream writer now id finishReason s h
  | abortStream now id errorCode =>
    simp only [Operation.run, final_map]
    exact preserves_abortStream writer now id errorCode s h
  | publishAsCommentary now id =>
    simp only [Operation.run, final_map]
    exact preserves_publishStreamContent commentaryPromotion writer now id s h
  | publishAsFinal now id =>
    simp only [Operation.run, final_map]
    exact preserves_publishStreamContent finalPromotion writer now id s h
  | cancelChildren now treeRuns reason => exact preserves_cancelChildren writer now treeRuns reason s h

/-! ## Refusals -/

/-- The counters of a root: its Provider output, and its model attempts. -/
def RunState.counters (s : RunState) (rootRunId : String) : (Nat × Nat) × Nat :=
  (s.spent rootRunId, s.attempts rootRunId)

/-- The call appends an event or a batch, or reserves an attempt. -/
def Operation.charges : Operation → Bool
  | .appendEvent _ | .appendBatch _ | .reserveModelAttempt _ _ => true
  | _ => false

/-- Such a call, when it is refused, leaves every counter as it was. -/
def RefusedFree (host : Host) (s : RunState) (call : Writer × Operation) : Prop :=
  call.2.charges = true → ∀ e, (call.2.run host call.1 s).1 = .error e →
    ∀ rootRunId, (step host s call).counters rootRunId = s.counters rootRunId

/-- A reservation that is refused leaves the state as it was. -/
theorem reserveModelAttempt_atomic (writer : Writer) (runId invocationId : String) :
    Atomic (reserveModelAttempt host writer runId invocationId) := by
  refine atomic_ofExcept_bind fun invocation => atomic_read_bind fun s =>
    atomic_ofExcept_bind fun run => atomic_ite (atomic_pure _) (atomic_ofExcept_bind fun _ => ?_)
  refine atomic_bind_pure ?_
  intro s e s' h
  unfold onRun at h
  cases hrun : s.runs.get? runId with
  | none =>
    rw [hrun] at h
    cases h
    rfl
  | some record =>
    rw [hrun] at h
    cases h

/-- An atomic method that is refused leaves the counters as they were. -/
theorem refusedFree_of_atomic {call : Writer × Operation} (h : Atomic (call.2.run host call.1)) :
    RefusedFree host s call := by
  intro _ e herror rootRunId
  unfold step
  rcases h.final_cases s with ⟨u, hok⟩ | ⟨-, hsame⟩
  · rw [hok] at herror
    cases herror
  · rw [hsame]

theorem appendAll_attempts (writer : Writer) (mode : AgentOutputEventDraft → AppendMode)
    (reading : Nat) (drafts : List AgentOutputEventDraft) (rootRunId : String) :
    Keeps (fun s => s.attempts rootRunId) (appendAll host writer mode reading drafts) := by
  induction drafts generalizing reading with
  | nil => exact keeps_pure _
  | cons draft rest ih =>
    refine keeps_bind ?_ fun _ => keeps_bind (ih (reading + 1)) fun _ => keeps_pure _
    intro s
    unfold final
    have hcases := appendEvent_cases host writer reading draft (mode draft) s
    generalize appendEvent host writer reading draft (mode draft) s = result at hcases ⊢
    cases hcases with
    | refused e => rfl
    | found event hfound => rfl
    | wrote run hnew hcheck =>
      exact attempts_appended (validateNewEvent_run host (checkNewEvent_run host hcheck).1) rootRunId

/-- A batch that passes its checks is not torn behind an event with a cost: a draft that stands
behind one is accepted at its turn. -/
def BatchCharges (host : Host) (writer : Writer) (s : RunState)
    (drafts : List AgentOutputEventDraft) : Prop :=
  ∀ first rest, drafts = first :: rest → precheckBatch host writer s first rest = .ok () →
    ∀ before draft after, drafts = before ++ draft :: after →
      totalCost host (newDrafts s before) ≠ 0 →
        TurnAccepted host writer s (fun _ => False) (drafts.length + before.length) before draft

/-- The condition under which a call that is refused is free. -/
def RefusalFits (host : Host) (s : RunState) (call : Writer × Operation) : Prop :=
  match call.2 with
  | .appendBatch drafts => BatchCharges host call.1 s drafts
  | _ => True

/-- A batch is refused before it is appended, or while nothing with a cost is. -/
theorem refusedFree_appendBatch (h : Accounted host s) {writer : Writer}
    (hcharges : BatchCharges host writer s drafts) :
    RefusedFree host s (writer, .appendBatch drafts) := by
  intro _ e herror rootRunId
  have hfinal : step host s (writer, .appendBatch drafts) =
      (appendEvents host writer drafts).final s := by
    unfold step
    simp only [Operation.run, final_map]
  rw [hfinal]
  simp only [Operation.run, fst_map] at herror
  have h' := accounted_of_moves h (appendEvents_moves host writer drafts s)
  unfold final at h' ⊢
  cases drafts with
  | nil => rfl
  | cons first rest =>
    rw [appendEvents_cons] at herror h' ⊢
    cases hcheck : precheckBatch host writer s first rest with
    | error e => rfl
    | ok u =>
      rw [hcheck] at herror h'
      dsimp only at herror h' ⊢
      have hattempts := @appendAll_attempts host writer
        (fun _ => { budgetPrechecked := true }) (first :: rest).length (first :: rest) rootRunId s
      have hcases := appendAll_cases host writer (fun _ => { budgetPrechecked := true })
        (first :: rest).length (first :: rest) s
      unfold final at hattempts
      generalize appendAll host writer (fun _ => { budgetPrechecked := true })
        (first :: rest).length (first :: rest) s = result at herror h' hattempts hcases ⊢
      cases hcases with
      | went _ hextended hanswered => cases herror
      | @stopped before after draft _ s' hsplit _ hextended _ hfails =>
        have hfree : totalCost host (newDrafts s before) = 0 := by
          by_contra hcost
          obtain ⟨event, next, haccepted⟩ := (batch_turn_iff host hcheck before draft after hsplit s'
            hextended _).2 (hcharges first rest rfl hcheck before draft after hsplit hcost)
          rw [hfails] at haccepted
          cases haccepted
        refine Prod.ext ?_ hattempts
        have hcharge : s.charge host (newDrafts s before) rootRunId = 0 :=
          le_antisymm ((charge_le_totalCost _ _).trans_eq hfree) ⟨Nat.zero_le _, Nat.zero_le _⟩
        show s'.spent rootRunId = s.spent rootRunId
        rw [h'.counted, hextended.rootDrafts, totalCost_append, ← h.counted]
        unfold RunState.charge at hcharge
        rw [hcharge, add_zero]

/-- **What is refused is free**, when no batch is torn behind a cost. -/
theorem refusedFree (h : Accounted host s) {call : Writer × Operation}
    (hfits : RefusalFits host s call) : RefusedFree host s call := by
  obtain ⟨writer, operation⟩ := call
  cases operation with
  | appendEvent draft =>
    exact refusedFree_of_atomic (atomic_map (appendEvent_atomic host writer 0 draft {}))
  | appendBatch drafts => exact refusedFree_appendBatch h hfits
  | reserveModelAttempt runId invocationId =>
    exact refusedFree_of_atomic (atomic_map (reserveModelAttempt_atomic writer runId invocationId))
  | _ =>
    intro hcharges
    cases hcharges

/-! ## Runs -/

/-- The budgets of a state: the sums over the Runs of a root are the costs of its journal, and
neither they nor the attempts exceed what the root may spend. -/
structure BudgetsKept (host : Host) (s : RunState) : Prop where
  counted : ∀ rootRunId, s.spent rootRunId = totalCost host (s.rootDraftsOf rootRunId)
  limited : ∀ runId run, s.runs.get? runId = some run → ∃ root,
    s.runs.get? (run.scopeId runId) = some root ∧
      root.scopeId (run.scopeId runId) = run.scopeId runId ∧
      s.spent (run.scopeId runId) ≤ root.params.runtimeLimits.output ∧
      s.attempts (run.scopeId runId) ≤ root.params.runtimeLimits.maxModelInvocationAttempts

theorem Budgeted.kept (h : Budgeted host s) : BudgetsKept host s := by
  refine ⟨h.accounted.counted, fun runId run hget => ?_⟩
  obtain ⟨root, hroot, hown⟩ := h.accounted.rooted runId run hget
  exact ⟨root, hroot, hown, h.within _ root hroot, h.accounted.attempted _ root hroot⟩

end

/-- **The budgets of every root are kept**, and what is refused is free. -/
theorem budgets_kept (host : Host) (run : List (Writer × Operation))
    (hrun : Along (step host) (BudgetFits host) {} run) :
    BudgetsKept host (exec (step host) {} run) ∧
      ∀ call, RefusalFits host (exec (step host) {} run) call →
        RefusedFree host (exec (step host) {} run) call := by
  have h : Budgeted host (exec (step host) {} run) :=
    exec_induction (I := Budgeted host) (fun _ _ hfits hs => hs.step hfits) hrun budgeted_init
  exact ⟨h.kept, fun _ hfits => refusedFree h.accounted hfits⟩

/-- A thought of the planner, as the Provider sends it. -/
def planThought : AgentOutputEventDraft :=
  { planBytes with
    sourceEventKey := "provider:call:reasoning:1"
    kind := .providerReasoningDelta
    payload := [("delta", .str "first the records, then the report")] }

/-- A batch in which the text comes before the end of its operation. -/
def orderedBatch : Writer × Operation := ({}, .appendBatch [planThought, planDelta, planFinished])

theorem budgets_kept_ordered :
    BudgetsKept sampleHost (exec (step sampleHost) {} planningRun) ∧
      RefusedFree sampleHost (exec (step sampleHost) {} planningRun) orderedBatch := by
  have hsetup : Along (step sampleHost) (BudgetFits sampleHost) {} planningRun :=
    ⟨trivial, trivial, trivial, trivial, trivial⟩
  have hbatch : BatchCharges sampleHost {} (exec (step sampleHost) {} planningRun)
      [planThought, planDelta, planFinished] := by
    intro first rest _ _ before draft after hsplit hcost
    match before, hsplit with
    | [], _ => exact absurd rfl hcost
    | [_], hsplit =>
      obtain ⟨rfl, rfl, -⟩ : planThought = _ ∧ planDelta = draft ∧ [planFinished] = after := by
        simpa using hsplit
      refine ⟨fun earlier hearlier hkey => ?_, fun _ _ _ _ => rfl,
        fun _ _ _ => ⟨id, by decide +kernel⟩⟩
      rw [List.mem_singleton.1 ((newDrafts_sublist _ _).subset hearlier)] at hkey
      exact absurd hkey (by decide +kernel)
    | [_, _], hsplit =>
      obtain ⟨rfl, rfl, rfl, -⟩ : planThought = _ ∧ planDelta = _ ∧ planFinished = draft ∧
          [] = after := by simpa using hsplit
      refine ⟨fun earlier hearlier hkey => ?_, fun _ _ _ _ => rfl, fun _ _ hkind => ?_⟩
      · have hkeys : ∀ d ∈ [planThought, planDelta],
            d.sourceEventKey ≠ planFinished.sourceEventKey := by decide +kernel
        exact absurd hkey (hkeys earlier ((newDrafts_sublist _ _).subset hearlier))
      · cases hkind
    | _ :: _ :: _ :: _, hsplit => simp at hsplit
  have hkept := budgets_kept sampleHost planningRun hsetup
  exact ⟨hkept.1, hkept.2 orderedBatch hbatch⟩

/-- The end first: the batch is refused, and the thought in front of it is paid for. -/
theorem refused_batch_charged : ¬ RefusedFree sampleHost (exec (step sampleHost) {} planningRun)
    ({}, .appendBatch [planThought, planFinished, planDelta]) := by
  intro h
  have hfails : ((Operation.appendBatch [planThought, planFinished, planDelta]).run sampleHost {}
      (exec (step sampleHost) {} planningRun)).1.isOk = false := by decide +kernel
  have hbefore : ((exec (step sampleHost) {} planningRun).counters "run").1.1 = 1 := by
    decide +kernel
  have hafter : ((step sampleHost (exec (step sampleHost) {} planningRun)
      ({}, .appendBatch [planThought, planFinished, planDelta])).counters "run").1.1 = 2 := by
    decide +kernel
  cases hresult : ((Operation.appendBatch [planThought, planFinished, planDelta]).run sampleHost {}
      (exec (step sampleHost) {} planningRun)).1 with
  | ok u =>
    rw [hresult] at hfails
    cases hfails
  | error e =>
    rw [h rfl e hresult "run", hbefore] at hafter
    cases hafter

end Purra.RunMemory
