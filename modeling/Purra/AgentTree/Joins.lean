import Purra.AgentTree.Identity
import Purra.AgentTree.JoinCalls

/-!
# The slot of a requester

A requester that waits gives its slot to other Runs of the root, and a join takes it back when it
has the results.  It may not get it: `release_waiting` refuses when the root's slots are taken, and
the join then returns with the requester still WAITING.

* `tree_step` — a step of the system leaves the tree alone or makes one call of the repository.
* `returns_cases` — the four places where a join returns an aggregate.
* `completeRun_refusal` — a RUNNING Run is never refused because of its status.
* `slot_given_back` — **if the join finds a slot when it releases the requester, the requester is
  RUNNING when the join returns.**
-/

namespace Purra

open Purra.Action RunTree

/-! ## The codes of refusals -/

/-- The error does not have the code. -/
def NoCode (code : String) (error : Fault PyError) : Prop := faultCode error ≠ some code

/-- The action raises nothing of the code. -/
def RaisesNo (code : String) {α : Type} (action : TreeAction α) : Prop :=
  ∀ s e s', action s = (.error e, s') → NoCode code e

/-- The check raises nothing of the code. -/
def ChecksNo (code : String) {α : Type} (x : Except PyError α) : Prop :=
  ∀ e, x = .error e → NoCode code (.raised e)

/-- The codes that lookups and claims raise. -/
def lookupCodes : List String :=
  ["child_run_not_found", "agent_not_found", "agent_closed", "agent_run_lease_lost"]

section

variable {α β : Type} {code : String}

theorem raisesNo_bind {m : TreeAction α} {f : α → TreeAction β} (hm : RaisesNo code m)
    (hf : ∀ a, RaisesNo code (f a)) : RaisesNo code (m >>= f) := by
  intro s e s' h
  rw [bind_apply] at h
  cases hms : m s with
  | mk x t =>
    rw [hms] at h
    cases x with
    | error e' =>
      cases h
      exact hm s _ _ hms
    | ok a => exact hf a t e s' h

variable {x : Except PyError α}

theorem raisesNo_check (hx : ChecksNo code x) : RaisesNo code (check x) := by
  intro s e s' h
  cases x with
  | ok a => cases h
  | error e' =>
    cases h
    exact hx e' rfl

theorem raisesNo_refuse {c : Prop} [Decidable c] {refusal message : String}
    (hcode : refusal ≠ code) : RaisesNo code (refuse c refusal message) := by
  intro s e s' h
  unfold refuse at h
  split at h
  · cases h
    exact fun heq => hcode (Option.some.inj heq)
  · cases h

theorem raisesNo_write (g : AgentTreeState → AgentTreeState) : RaisesNo code (write g) := nofun

theorem raisesNo_pure (a : α) : RaisesNo code (pure a) := nofun

theorem error_bind {f : α → Except PyError β} {e : PyError}
    (h : (x >>= f) = .error e) : x = .error e ∨ ∃ a, x = .ok a ∧ f a = .error e := by
  cases x with
  | error e' =>
    cases h
    exact Or.inl rfl
  | ok a => exact Or.inr ⟨a, rfl, h⟩

theorem checksNo_bind {f : α → Except PyError β} (hx : ChecksNo code x)
    (hf : ∀ a, ChecksNo code (f a)) : ChecksNo code (x >>= f) := by
  intro e h
  rcases error_bind h with h | ⟨a, -, h⟩
  · exact hx e h
  · exact hf a e h

theorem checksNo_valueError (message : String) :
    ChecksNo code (.error (.valueError message) : Except PyError α) := by
  intro e h
  cases h
  exact nofun

theorem checksNo_violation {refusal message : String} (hcode : refusal ≠ code) :
    ChecksNo code (.error (treeViolation refusal message) : Except PyError α) := by
  intro e h
  cases h
  exact fun heq => hcode (Option.some.inj heq)

theorem checksNo_ok (a : α) : ChecksNo code (.ok a : Except PyError α) := nofun

theorem checksNo_text (value field : String) : ChecksNo code (RequiredText.of value field) := by
  unfold RequiredText.of
  split
  · exact checksNo_valueError _
  · exact checksNo_ok _

theorem checksNo_completed (run : AgentTreeRun) (result : Json) :
    ChecksNo code (run.completed result) := by
  unfold AgentTreeRun.completed
  split
  · exact checksNo_ok _
  · exact checksNo_valueError _

theorem noCode_loop {ρ : Type} {body : ρ → Except PyError (α ⊕ ρ)}
    (hbody : ∀ r, ChecksNo code (body r)) {fuel : Nat} {r : ρ} {e : Fault PyError}
    (h : loop body fuel r = .error e) : NoCode code e := by
  induction fuel generalizing r with
  | zero =>
    cases h
    exact nofun
  | succ fuel ih =>
    rw [loop] at h
    cases hr : body r with
    | error e' =>
      rw [hr] at h
      cases h
      exact hbody r e' hr
    | ok next =>
      rw [hr] at h
      cases next with
      | inl a => cases h
      | inr r' => exact ih h

theorem noCode_anyM {f : α → Except (Fault PyError) Bool} {l : List α} {e : Fault PyError}
    (hf : ∀ a e, f a = .error e → NoCode code e) (h : l.anyM f = .error e) : NoCode code e := by
  induction l with
  | nil => cases h
  | cons a l ih =>
    rw [List.anyM] at h
    cases ha : f a with
    | error e' =>
      rw [ha] at h
      cases h
      exact hf a _ ha
    | ok b =>
      rw [ha] at h
      cases b with
      | true => cases h
      | false => exact ih h

end

section

variable {code : String} (hcode : code ∉ lookupCodes)
include hcode

theorem checksNo_requireRun (s : AgentTreeState) (id : String) :
    ChecksNo code (s.requireRun id) := by
  refine checksNo_bind (checksNo_text id _) fun t => ?_
  split
  · exact checksNo_ok _
  · exact checksNo_violation fun h => hcode (h ▸ by decide)

theorem checksNo_requireActiveAgent (s : AgentTreeState) (id : String) :
    ChecksNo code (s.requireActiveAgent id) := by
  refine checksNo_bind ?_ fun agent => ?_
  · refine checksNo_bind (checksNo_text id _) fun t => ?_
    split
    · exact checksNo_ok _
    · exact checksNo_violation fun h => hcode (h ▸ by decide)
  · split
    · exact checksNo_violation fun h => hcode (h ▸ by decide)
    · exact checksNo_ok _

theorem checksNo_requireClaim (run : AgentTreeRun) (now : Nat) (owner : Option String)
    (epoch : Option Int) : ChecksNo code (run.requireClaim now owner epoch) := by
  refine checksNo_bind ?_ fun epoch => ?_
  · intro e h
    unfold optionalNonNegativeInt nonNegativeInt at h
    split at h
    · cases h
    · split at h
      · cases h
        exact nofun
      · cases h
  · have hlost : "agent_run_lease_lost" ≠ code := fun h => hcode (h ▸ by decide)
    split
    · split
      · exact checksNo_ok _
      · exact checksNo_violation hlost
    · split
      · exact checksNo_violation hlost
      · exact checksNo_ok _

theorem noCode_isCausalDescendant {s : AgentTreeState} {parent id : RequiredText}
    {e : Fault PyError} (h : s.isCausalDescendant parent id = .error e) : NoCode code e := by
  unfold AgentTreeState.isCausalDescendant at h
  cases hrun : s.requireRun id.text with
  | error e' =>
    rw [hrun] at h
    cases h
    exact checksNo_requireRun hcode s id.text e' hrun
  | ok run =>
    rw [hrun] at h
    refine noCode_loop (fun current => ?_) h
    unfold AgentTreeState.descendantRound
    split
    · exact checksNo_ok _
    · split
      · exact checksNo_ok _
      · rename_i parentId _ _
        intro e' he'
        cases hparent : s.requireRun parentId.text with
        | error e'' =>
          rw [hparent] at he'
          cases he'
          exact checksNo_requireRun hcode s parentId.text _ hparent
        | ok run =>
          rw [hparent] at he'
          cases he'

theorem noCode_hasUnfinishedChildren {s : AgentTreeState} {run : AgentTreeRun}
    {e : Fault PyError} (h : hasUnfinishedChildren s run = .error e) : NoCode code e := by
  refine noCode_anyM (fun item e h => ?_) h
  split at h
  · cases h
  · exact noCode_isCausalDescendant hcode h

end

theorem check_ok_bind {α β : Type} (a : α) (f : α → TreeAction β) :
    (check (.ok a) >>= f) = f a := rfl

theorem refuse_not_bind {β : Type} {c : Prop} [Decidable c] {code message : String}
    {f : Unit → TreeAction β} (h : ¬ c) : (refuse c code message >>= f) = f () := by
  unfold refuse
  rw [if_neg h]
  rfl

/-- The conflict that a status raises. -/
def stateConflict : String := "agent_run_state_conflict"

/-- **A RUNNING Run is never refused because of its own status.** -/
theorem completeRun_refusal {clock : Nat → Nat} {s s' : AgentTreeState} {id : RequiredText}
    {run : AgentTreeRun} {version : Int} {result : Json} {contentRef fingerprint : String}
    {owner : Option String} {epoch : Option Int} {e : Fault PyError}
    (hrun : s.runs.get? id.text = some run) (hstatus : run.status = .running)
    (h : completeRun clock id.text version result contentRef fingerprint owner epoch s =
      (.error e, s')) : NoCode stateConflict e := by
  have hfound : s.requireRun id.text = .ok run := AgentTreeState.requireRun_text.2 hrun
  have hcode : stateConflict ∉ lookupCodes := by decide
  unfold completeRun at h
  rw [read_bind_apply, hfound, check_ok_bind, refuse_not_bind (not_not.2 hstatus)] at h
  refine (?_ : RaisesNo stateConflict _) s e s' h
  refine raisesNo_bind (raisesNo_check (checksNo_requireClaim hcode _ _ _ _)) fun _ => ?_
  refine raisesNo_bind ?_ fun unfinished => ?_
  · intro t e t' h
    cases hunfinished : hasUnfinishedChildren s run with
    | ok b =>
      rw [hunfinished] at h
      cases h
    | error e' =>
      rw [hunfinished] at h
      cases h
      exact noCode_hasUnfinishedChildren hcode hunfinished
  refine raisesNo_bind (raisesNo_refuse (by decide)) fun _ => ?_
  refine raisesNo_bind (raisesNo_check (checksNo_requireActiveAgent hcode _ _)) fun agent => ?_
  refine raisesNo_bind (raisesNo_refuse (by decide)) fun _ => ?_
  refine raisesNo_bind (raisesNo_write _) fun _ => ?_
  refine raisesNo_bind (raisesNo_check (checksNo_text _ _)) fun content => ?_
  refine raisesNo_bind (raisesNo_check (checksNo_text _ _)) fun mark => ?_
  refine raisesNo_bind (raisesNo_check (checksNo_completed _ _)) fun completed => ?_
  exact raisesNo_bind (raisesNo_write _) fun _ => raisesNo_pure _

/-- A slot of the root is free for a Run that is released. -/
def SlotLeft (clock : Nat → Nat) (tree : AgentTreeState) (run : AgentTreeRun) : Prop :=
  ∀ rootRun root, tree.requireRun run.rootRunId.text = .ok rootRun →
    tree.requireActiveAgent rootRun.agentId.text = .ok root →
      occupied clock tree run.rootRunId < root.capabilityGrant.maxParallelRuns

instance (clock : Nat → Nat) (tree : AgentTreeState) (run : AgentTreeRun) :
    Decidable (SlotLeft clock tree run) :=
  match hrootRun : tree.requireRun run.rootRunId.text with
  | .error _ => .isTrue fun _ _ h => nomatch hrootRun.symm.trans h
  | .ok rootRun =>
    match hroot : tree.requireActiveAgent rootRun.agentId.text with
    | .error _ => .isTrue fun _ _ h hagent => by
      cases hrootRun.symm.trans h
      cases hroot.symm.trans hagent
    | .ok root => decidable_of_iff
      (occupied clock tree run.rootRunId < root.capabilityGrant.maxParallelRuns)
      ⟨fun hlt _ _ h hagent => by
        cases hrootRun.symm.trans h
        cases hroot.symm.trans hagent
        exact hlt, fun h => h rootRun root hrootRun hroot⟩

/-- The code of a root without a free slot. -/
def noSlot : String := "agent_capacity_exceeded"

/-- A Run for which a slot is left is not refused for want of one. -/
theorem releaseWaiting_refusal {clock : Nat → Nat} {s s' : AgentTreeState} {id : RequiredText}
    {owner : Option String} {epoch : Option Int} {e : Fault PyError}
    (hslot : ∀ run, s.runs.get? id.text = some run → run.status = .waiting → SlotLeft clock s run)
    (h : releaseWaiting clock id.text owner epoch s = (.error e, s')) : NoCode noSlot e := by
  have hcode : noSlot ∉ lookupCodes := by decide
  unfold releaseWaiting at h
  rw [read_bind_apply] at h
  cases hfound : s.requireRun id.text with
  | error e' =>
    rw [hfound] at h
    cases h
    exact checksNo_requireRun hcode s id.text e' hfound
  | ok run =>
    rw [hfound, check_ok_bind] at h
    by_cases hwaiting : run.status = .waiting
    · have hleft := hslot run (AgentTreeState.requireRun_text.1 hfound) hwaiting
      rw [refuse_not_bind (not_not.2 hwaiting)] at h
      cases hclaim : run.requireClaim (clock 0) owner epoch with
      | error e' =>
        rw [hclaim] at h
        cases h
        exact checksNo_requireClaim hcode run _ _ _ e' hclaim
      | ok claimed =>
        rw [hclaim, check_ok_bind] at h
        cases hrootRun : s.requireRun run.rootRunId.text with
        | error e' =>
          rw [hrootRun] at h
          cases h
          exact checksNo_requireRun hcode s _ e' hrootRun
        | ok rootRun =>
          rw [hrootRun, check_ok_bind] at h
          cases hroot : s.requireActiveAgent rootRun.agentId.text with
          | error e' =>
            rw [hroot] at h
            cases h
            exact checksNo_requireActiveAgent hcode s _ e' hroot
          | ok root =>
            rw [hroot, check_ok_bind,
              refuse_not_bind (not_le.2 (hleft rootRun root hrootRun hroot))] at h
            cases h
    · unfold refuse at h
      rw [if_pos hwaiting] at h
      cases h
      exact nofun

namespace JoinSystem

variable {digest : Json → String} {call : JoinCall} {clock : Nat → Nat} {sys : JoinSystem}

/-! ## What a step does to the tree -/

variable {α : Type}

@[simp] theorem tree_reading (x : Except (Fault PyError) α) (next : α → JoinPoint)
    (refused : Fault PyError → JoinPoint) : (sys.reading x next refused).tree = sys.tree := by
  unfold reading
  split <;> rfl

theorem tree_calling (action : TreeAction α) (next : α → JoinPoint)
    (refused : Fault PyError → JoinPoint) :
    (sys.calling action next refused).tree = action.final sys.tree := by
  unfold calling Action.final
  split <;> simp_all

theorem tree_behind (task : JoinTask) (tree : AgentTreeState) (action : TreeAction α)
    (next : TaskStage) : (task.behind tree action next).1 = action.final tree := by
  unfold JoinTask.behind Action.final
  split <;> simp_all

/-- The tree is as it was, or one call has been made. -/
def OneCall (digest : Json → String) (clock : Nat → Nat) (tree tree' : AgentTreeState) : Prop :=
  tree' = tree ∨ ∃ op, tree' = tree.apply digest clock op

theorem oneCall_same (tree : AgentTreeState) : OneCall digest clock tree tree := Or.inl rfl

theorem oneCall_reading (x : Except (Fault PyError) α) (next : α → JoinPoint)
    (refused : Fault PyError → JoinPoint) :
    OneCall digest clock sys.tree (sys.reading x next refused).tree :=
  Or.inl (tree_reading x next refused)

variable {next : α → JoinPoint} {refused : Fault PyError → JoinPoint}

theorem oneCall_calling {action : TreeAction α} (op : TreeOp)
    (hop : sys.tree.apply digest clock op = action.final sys.tree) :
    OneCall digest clock sys.tree (sys.calling action next refused).tree :=
  Or.inr ⟨op, by rw [tree_calling, hop]⟩

theorem oneCall_joinStep (choice : JoinChoice) :
    OneCall digest clock sys.tree (joinStep call clock choice sys).tree := by
  unfold joinStep
  split
  · split
    · exact oneCall_reading ..
    · exact oneCall_reading ..
  · exact oneCall_same _
  · exact oneCall_reading ..
  · exact oneCall_same _
  · exact oneCall_reading ..
  · split
    · exact oneCall_reading ..
    · exact oneCall_same _
  · rename_i stage back _
    unfold markStep
    cases stage with
    | mark =>
      dsimp only
      exact oneCall_calling (.markWaiting ..) rfl
    | claim error => exact oneCall_reading ..
    | look error => exact oneCall_reading ..
  · split
    · exact oneCall_same _
    · exact oneCall_reading ..
  · exact oneCall_reading ..
  · exact oneCall_reading ..
  · dsimp only
    split
    · dsimp only
      exact oneCall_calling (.claimRun ..) rfl
    · exact oneCall_calling (.claimRun ..) rfl
  · split
    · exact oneCall_same _
    · exact oneCall_same _
  · exact oneCall_reading ..
  · dsimp only
    split
    · exact oneCall_same _
    · split
      · exact oneCall_same _
      · exact oneCall_same _
  · exact oneCall_reading ..
  · split
    · exact oneCall_same _
    · dsimp only
      split
      · exact oneCall_same _
      · exact oneCall_same _
  · exact oneCall_reading ..
  · exact oneCall_calling (.cancelSubtree _) rfl
  · exact oneCall_same _
  · exact oneCall_reading ..
  · exact oneCall_calling (.releaseWaiting ..) rfl
  · exact oneCall_reading ..
  · exact oneCall_reading ..
  · exact oneCall_same _

theorem oneCall_taskStep (choice : TaskChoice) (tree : AgentTreeState) (task : JoinTask) :
    OneCall digest clock tree (taskStep call clock choice tree task).1 := by
  have hbehind : ∀ {α : Type} {action : TreeAction α} {next : TaskStage} (op : TreeOp),
      tree.apply digest clock op = action.final tree →
        OneCall digest clock tree (task.behind tree action next).1 :=
    fun op hop => Or.inr ⟨op, by rw [tree_behind, hop]⟩
  unfold taskStep
  dsimp only
  split
  · split
    · exact oneCall_same _
    · split <;> exact oneCall_same _
  · split <;> exact oneCall_same _
  · split <;> exact oneCall_same _
  · exact oneCall_same _
  · exact hbehind (.failRun ..) rfl
  · split
    · exact hbehind (.completeRun ..) rfl
    · exact hbehind (.failRun ..) rfl
    · exact hbehind (.cancelSubtree _) rfl
    · exact hbehind (.cancelSubtree _) rfl
    · exact hbehind (.suspendRun ..) rfl
  · split <;> exact oneCall_same _
  · exact oneCall_same _

theorem tree_step (event : (Nat → Nat) × JoinEvent) :
    OneCall digest event.1 sys.tree (sys.step digest call event).tree := by
  obtain ⟨clock, event⟩ := event
  cases event with
  | join choice =>
    unfold step
    dsimp only
    split
    · unfold joinInterrupted
      split <;> exact oneCall_same _
    · exact oneCall_joinStep choice
  | task index choice =>
    unfold step
    dsimp only
    split
    · exact oneCall_same _
    · exact oneCall_taskStep choice sys.tree _
  | other op => exact Or.inr ⟨op, rfl⟩

variable {event : (Nat → Nat) × JoinEvent}

theorem wired_system (h : Wired sys.tree) :
    Wired (sys.step digest call event).tree := by
  have hcall : OneCall digest event.1 sys.tree (sys.step digest call event).tree := tree_step event
  rcases hcall with hsame | ⟨op, hop⟩
  · rw [hsame]
    exact h
  · rw [hop]
    exact wired_step (event.1, op) h

/-! ## Where a join returns -/

/-- The join has not come to take back the requester's slot, nor returned. -/
def early (point : JoinPoint) : Bool :=
  match point with
  | .settle false (.returned _) => false
  | .release _ | .reclaim .. | .confirm .. | .done (.returned _) => false
  | _ => true

theorem early_reading {x : Except (Fault PyError) α} (hnext : ∀ a, early (next a) = true)
    (hrefused : ∀ e, early (refused e) = true) :
    early (sys.reading x next refused).point = true := by
  unfold reading
  split
  · exact hnext _
  · exact hrefused _

theorem early_calling {action : TreeAction α} (hnext : ∀ a, early (next a) = true)
    (hrefused : ∀ e, early (refused e) = true) :
    early (sys.calling action next refused).point = true := by
  unfold calling
  split
  · exact hnext _
  · exact hrefused _

theorem early_again (locals : JoinLocals) : early (.again locals) = true := by
  unfold JoinPoint.again
  split <;> rfl

theorem early_markStep (stage : MarkStage) (back : Option (JoinLocals × AgentRunAggregation)) :
    early (markStep call clock sys stage back).point = true := by
  have hmarked : ∀ run, early (markedPoint call back run) = true := by
    intro run
    cases back <;> rfl
  have hrefused : ∀ e, early (markRefused back e) = true := by
    intro e
    cases back <;> rfl
  unfold markStep
  cases stage with
  | mark =>
    dsimp only
    refine early_calling hmarked fun e => ?_
    split
    · rfl
    · exact hrefused e
  | claim error => exact early_reading (fun _ => rfl) hrefused
  | look error =>
    refine early_reading (fun current => ?_) hrefused
    split
    · exact hrefused error
    · exact hmarked current

theorem early_collect (locals : JoinLocals) (done : List RequiredText) :
    early (collect call sys locals done) = true := by
  induction done generalizing locals with
  | nil => exact early_again locals
  | cons id done ih =>
    unfold collect
    split
    · rfl
    · rfl
    · exact ih _

variable {choice : JoinChoice}

/-- A join stays early until it settles, unless it has no targets. -/
theorem early_joinStep (hearly : early sys.point = true)
    (hsettle : ∀ joined outcome, sys.point ≠ .settle joined outcome)
    (htargets : sys.point = .begin → call.targets ≠ []) :
    early (joinStep call clock choice sys).point = true := by
  unfold joinStep
  cases hpoint : sys.point with
  | begin =>
    dsimp only
    rw [if_neg (htargets hpoint)]
    exact early_reading (fun _ => rfl) (fun _ => rfl)
  | target requester left =>
    cases left with
    | nil => rfl
    | cons target left => exact early_reading (fun _ => rfl) (fun _ => rfl)
  | dependency requester dependencies left =>
    cases dependencies with
    | nil => rfl
    | cons dependency dependencies =>
      refine early_reading (fun run => ?_) (fun _ => rfl)
      split <;> rfl
  | enter requester =>
    dsimp only
    split
    · exact early_reading (fun _ => rfl) (fun _ => rfl)
    · rfl
  | mark stage back => exact early_markStep stage back
  | top locals =>
    dsimp only
    split
    · rfl
    · refine early_reading (fun aggregate => ?_) (fun _ => rfl)
      split
      · rfl
      · split <;> rfl
  | resumed locals aggregate =>
    refine early_reading (fun requester => ?_) (fun _ => rfl)
    split <;> rfl
  | list locals aggregate => exact early_reading (fun _ => rfl) (fun _ => rfl)
  | claim locals aggregate left =>
    cases left with
    | nil =>
      dsimp only
      split <;> rfl
    | cons run left =>
      dsimp only
      split
      · dsimp only
        exact early_calling (fun claimed => by cases claimed <;> rfl) (fun _ => rfl)
      · exact early_calling (fun claimed => by cases claimed <;> rfl) (fun _ => rfl)
  | stalled _ _ _ left =>
    cases left with
    | nil =>
      dsimp only
      split
      · rfl
      · split <;> rfl
    | cons candidate left =>
      refine early_reading (fun run => ?_) (fun _ => rfl)
      split <;> rfl
  | descendants locals =>
    refine early_reading (fun runs => ?_) (fun _ => rfl)
    split
    · exact early_again locals
    · rfl
  | wait locals =>
    dsimp only
    split
    · rfl
    · split
      · exact hearly
      · exact early_collect _ _
  | last =>
    refine early_reading (fun aggregate => ?_) (fun _ => rfl)
    split <;> rfl
  | cancel left =>
    cases left with
    | nil => rfl
    | cons target left => exact early_calling (fun _ => rfl) (fun _ => rfl)
  | settle joined outcome => exact absurd hpoint (hsettle joined outcome)
  | release outcome | reclaim error outcome | confirm error outcome =>
    rw [hpoint] at hearly
    cases hearly
  | done outcome => exact hearly

variable {aggregate : AgentRunAggregation}

/-- Where the next step may return an aggregate: at once without targets, when the requester does
not wait, when its slot has been taken back, or at the second look. -/
theorem returns_cases (hopen : ∀ outcome, sys.point ≠ .done outcome)
    (h : (joinStep call clock choice sys).point = .done (.returned aggregate)) :
    (sys.point = .begin ∧ call.targets = []) ∨
    (∃ joined current, sys.point = .settle joined (.returned aggregate) ∧
      sys.getRun call.requesterRunId = .ok current ∧ ¬(joined ∧ current.status = .waiting)) ∨
    (sys.point = .release (.returned aggregate) ∧ ∃ run,
      (releaseWaiting clock call.requesterRunId.text call.leaseOwnerId call.leaseEpoch
        sys.tree).1 = .ok run) ∨
    ∃ error, sys.point = .confirm error (.returned aggregate) := by
  have hlate : early sys.point = true → (∀ joined outcome, sys.point ≠ .settle joined outcome) →
      (sys.point = .begin → call.targets ≠ []) → False := by
    intro hearly hsettle htargets
    have hstep : early (joinStep call clock choice sys).point = true :=
      early_joinStep hearly hsettle htargets
    rw [h] at hstep
    cases hstep
  cases hpoint : sys.point with
  | settle joined outcome =>
    unfold joinStep reading at h
    rw [hpoint] at h
    dsimp only at h
    cases hrun : sys.getRun call.requesterRunId with
    | error e =>
      rw [hrun] at h
      cases h
    | ok current =>
      rw [hrun] at h
      dsimp only at h
      split at h
      · cases h
      · rename_i hwaiting
        cases h
        exact Or.inr (Or.inl ⟨joined, current, rfl, rfl, hwaiting⟩)
  | release outcome =>
    unfold joinStep calling at h
    rw [hpoint] at h
    dsimp only at h
    split at h
    · rename_i run tree hrelease
      cases h
      exact Or.inr (Or.inr (Or.inl ⟨rfl, run, by rw [hrelease]⟩))
    · dsimp only at h
      split at h <;> cases h
  | confirm error outcome =>
    unfold joinStep reading at h
    rw [hpoint] at h
    dsimp only at h
    split at h
    · dsimp only at h
      split at h
      · cases h
      · cases h
        exact Or.inr (Or.inr (Or.inr ⟨error, rfl⟩))
    · cases h
  | reclaim error outcome =>
    unfold joinStep reading at h
    rw [hpoint] at h
    dsimp only at h
    split at h <;> cases h
  | done outcome => exact absurd hpoint (hopen outcome)
  | begin =>
    refine Or.inl ⟨rfl, ?_⟩
    by_contra htargets
    exact hlate (by rw [hpoint]; rfl) (by rw [hpoint]; exact nofun) fun _ => htargets
  | _ =>
    exact (hlate (by rw [hpoint]; rfl) (by rw [hpoint]; exact nofun) (by rw [hpoint]; exact nofun)).elim

/-! ## The requester is RUNNING again -/

/-- The stored status of the requester. -/
def requesterStatus (call : JoinCall) (sys : JoinSystem) : Option AgentTreeRunStatus :=
  (sys.tree.runs.get? call.requesterRunId.text).map (·.status)

/-- What the next call of a join must find so that it does not leave its requester behind: a
requester that has not ended, a slot when it is released, and, if another call has taken it out of
WAITING before the release, a requester that is RUNNING at the second look.  Without targets it is
RUNNING from the beginning. -/
def Finds (call : JoinCall) (clock : Nat → Nat) (sys : JoinSystem) (point : JoinPoint) : Prop :=
  match point with
  | .begin => call.targets = [] → requesterStatus call sys = some .running
  | .settle _ (.returned _) =>
    requesterStatus call sys = some .running ∨ requesterStatus call sys = some .waiting
  | .release (.returned _) =>
    ∀ run ∈ sys.tree.runs.get? call.requesterRunId.text, run.status = .waiting →
      SlotLeft clock sys.tree run
  | .confirm error (.returned _) =>
    faultCode error = some stateConflict → requesterStatus call sys = some .running
  | _ => True

/-- What an event must find so that the join does not leave its requester behind. -/
def GivesBack (call : JoinCall) (sys : JoinSystem) (event : (Nat → Nat) × JoinEvent) : Prop :=
  match event.2 with
  | .join _ => Finds call event.1 sys sys.point
  | _ => True

instance (call : JoinCall) (clock : Nat → Nat) (sys : JoinSystem) :
    (point : JoinPoint) → Decidable (Finds call clock sys point)
  | .begin =>
    inferInstanceAs (Decidable (call.targets = [] → requesterStatus call sys = some .running))
  | .settle _ (.returned _) => inferInstanceAs (Decidable
    (requesterStatus call sys = some .running ∨ requesterStatus call sys = some .waiting))
  | .release (.returned _) => inferInstanceAs (Decidable
    (∀ run ∈ sys.tree.runs.get? call.requesterRunId.text, run.status = .waiting →
      SlotLeft clock sys.tree run))
  | .confirm error (.returned _) => inferInstanceAs (Decidable
    (faultCode error = some stateConflict → requesterStatus call sys = some .running))
  | .settle _ (.failed _) | .release (.failed _) | .confirm _ (.failed _) | .target .. |
    .dependency .. | .enter _ | .mark .. | .top _ | .resumed .. | .list .. | .claim .. |
    .stalled .. | .descendants _ | .wait _ | .last | .cancel _ | .reclaim .. | .done _ =>
    .isTrue trivial

instance (call : JoinCall) (sys : JoinSystem) :
    (event : (Nat → Nat) × JoinEvent) → Decidable (GivesBack call sys event)
  | (clock, .join _) => inferInstanceAs (Decidable (Finds call clock sys sys.point))
  | (_, .task ..) | (_, .other _) => .isTrue trivial

/-- What has been looked at behind the loop: the join has run, and the slot was not wanting. -/
def Looked (point : JoinPoint) : Prop :=
  match point with
  | .settle joined (.returned _) => joined = true
  | .reclaim error (.returned _) | .confirm error (.returned _) =>
    faultCode error = some stateConflict
  | _ => True

theorem looked_of_early {point : JoinPoint} (h : early point = true) : Looked point := by
  cases point with
  | settle joined outcome =>
    cases outcome with
    | failed failure => trivial
    | returned aggregate =>
      cases joined with
      | true => rfl
      | false => cases h
  | reclaim error outcome | confirm error outcome => cases h
  | _ => trivial

theorem looked_joinInterrupted (hlooked : Looked sys.point) :
    Looked (joinInterrupted call sys).point := by
  unfold joinInterrupted
  split
  all_goals trivial

/-- A release that found a slot leads to a second look only if the status was another. -/
theorem looked_release {outcome : JoinOutcome} (hpoint : sys.point = .release outcome)
    (hback : GivesBack call sys (clock, .join choice)) :
    Looked (joinStep call clock choice sys).point := by
  unfold joinStep calling
  rw [hpoint]
  dsimp only
  split
  · trivial
  · rename_i e tree hrelease
    dsimp only
    split
    · rename_i hcodes
      cases outcome with
      | failed failure => trivial
      | returned aggregate =>
        have hslot : Finds call clock sys (.release (.returned aggregate)) := hpoint ▸ hback
        rcases hcodes with hconflict | hfull
        · exact hconflict
        · exact absurd hfull (releaseWaiting_refusal hslot hrelease)
    · trivial

theorem looked_joinStep (hlooked : Looked sys.point)
    (hback : GivesBack call sys (clock, .join choice)) :
    Looked (joinStep call clock choice sys).point := by
  have hearly : early sys.point = true →
      (∀ joined outcome, sys.point ≠ .settle joined outcome) →
      (sys.point = .begin → call.targets ≠ []) →
        Looked (joinStep call clock choice sys).point :=
    fun h hsettle htargets => looked_of_early (early_joinStep h hsettle htargets)
  cases hpoint : sys.point with
  | begin =>
    by_cases htargets : call.targets = []
    · unfold joinStep reading
      rw [hpoint]
      dsimp only
      rw [if_pos htargets]
      split <;> trivial
    · exact hearly (by rw [hpoint]; rfl) (by rw [hpoint]; exact nofun) fun _ => htargets
  | settle joined outcome =>
    unfold joinStep reading
    rw [hpoint]
    dsimp only
    split
    · dsimp only
      split <;> trivial
    · trivial
  | release outcome => exact looked_release hpoint hback
  | reclaim error outcome =>
    rw [hpoint] at hlooked
    unfold joinStep reading
    rw [hpoint]
    dsimp only
    split
    · cases outcome with
      | returned aggregate => exact hlooked
      | failed failure => trivial
    · trivial
  | confirm error outcome =>
    unfold joinStep reading
    rw [hpoint]
    dsimp only
    split
    · dsimp only
      split <;> trivial
    · trivial
  | done outcome =>
    unfold joinStep
    rw [hpoint]
    dsimp only
    rw [hpoint]
    trivial
  | _ => exact hearly (by rw [hpoint]; rfl) (by rw [hpoint]; exact nofun) (by rw [hpoint]; exact nofun)

/-- A task and another worker leave the join where it stands. -/
theorem point_task (index : Nat) (choice : TaskChoice) :
    (sys.step digest call (clock, .task index choice)).point = sys.point := by
  unfold step
  dsimp only
  split <;> rfl

theorem looked_step (hback : GivesBack call sys event)
    (hlooked : Looked sys.point) : Looked (sys.step digest call event).point := by
  obtain ⟨clock, event⟩ := event
  cases event with
  | join choice =>
    unfold step
    dsimp only
    split
    · exact looked_joinInterrupted hlooked
    · exact looked_joinStep hlooked hback
  | task index choice =>
    rw [point_task]
    exact hlooked
  | other op => exact hlooked

/-- The step at which a join returns is one of its own. -/
theorem join_of_returned (hopen : ∀ outcome, sys.point ≠ .done outcome)
    (h : (sys.step digest call event).point = .done (.returned aggregate)) :
    ∃ choice, event.2 = .join choice ∧
      sys.step digest call event = joinStep call event.1 choice sys := by
  obtain ⟨clock, event⟩ := event
  cases event with
  | task index choice =>
    rw [point_task] at h
    exact absurd h (hopen _)
  | other op => exact absurd h (hopen _)
  | join choice =>
    refine ⟨choice, rfl, ?_⟩
    unfold step at h ⊢
    dsimp only at h ⊢
    split
    · rename_i hinterrupted
      rw [if_pos hinterrupted] at h
      unfold joinInterrupted at h
      split at h <;> first | cases h | exact absurd h (hopen _)
    · rfl

/-- A requester that is given its slot back is RUNNING. -/
theorem released_running {s : AgentTreeState} {id : RequiredText} {owner : Option String}
    {epoch : Option Int} {run : AgentTreeRun} (hwired : Wired s)
    (h : (releaseWaiting clock id.text owner epoch s).1 = .ok run) :
    (((releaseWaiting clock id.text owner epoch).final s).runs.get? id.text).map (·.status) =
      some .running := by
  have hok : releaseWaiting clock id.text owner epoch s =
      (.ok run, (releaseWaiting clock id.text owner epoch).final s) := Prod.ext h rfl
  revert hok
  generalize (releaseWaiting clock id.text owner epoch).final s = s'
  intro hok
  unfold releaseWaiting at hok
  rw [read_bind_eq_ok] at hok
  obtain ⟨waiting, hget, hok⟩ := check_bind_eq_ok.1 hok
  obtain ⟨-, hok⟩ := refuse_bind_eq_ok.1 hok
  obtain ⟨-, -, hok⟩ := check_bind_eq_ok.1 hok
  obtain ⟨rootRun, -, hok⟩ := check_bind_eq_ok.1 hok
  obtain ⟨root, -, hok⟩ := check_bind_eq_ok.1 hok
  obtain ⟨-, hok⟩ := refuse_bind_eq_ok.1 hok
  cases hok
  have hkey : id.text = waiting.runId.text := by
    rw [← id.stripped]
    exact (hwired.requireRun_eq_ok hget).2
  simp [AgentTreeState.putRun, hkey, AgentTreeRun.resumed]

theorem requesterStatus_of_getRun {current : AgentTreeRun}
    (h : sys.getRun call.requesterRunId = .ok current) :
    requesterStatus call sys = some current.status := by
  have hfound : sys.tree.requireRun call.requesterRunId.text = .ok current := by
    unfold getRun at h
    cases hrun : sys.tree.requireRun call.requesterRunId.text with
    | error e =>
      rw [hrun] at h
      cases h
    | ok run =>
      rw [hrun] at h
      cases h
      rfl
  rw [requesterStatus, AgentTreeState.requireRun_text.1 hfound]
  rfl

/-- The step at which the join returns leaves the requester RUNNING. -/
theorem running_of_returned (hwired : Wired sys.tree) (hlooked : Looked sys.point)
    (hback : GivesBack call sys (clock, .join choice))
    (hopen : ∀ outcome, sys.point ≠ .done outcome)
    (h : (joinStep call clock choice sys).point = .done (.returned aggregate)) :
    requesterStatus call (joinStep call clock choice sys) = some .running := by
  rcases returns_cases hopen h with ⟨hpoint, htargets⟩ | ⟨joined, current, hpoint, hcurrent, hnot⟩ |
    ⟨hpoint, run, hrelease⟩ | ⟨error, hpoint⟩
  · have hfinds : Finds call clock sys .begin := hpoint ▸ hback
    have hrunning := hfinds htargets
    unfold joinStep
    rw [hpoint]
    dsimp only
    rw [if_pos htargets, requesterStatus, tree_reading]
    exact hrunning
  · have hfinds : Finds call clock sys (.settle joined (.returned aggregate)) := hpoint ▸ hback
    have hjoined : joined = true := by
      rw [hpoint] at hlooked
      exact hlooked
    have hrunning : requesterStatus call sys = some .running := by
      rcases hfinds with hrunning | hwaiting
      · exact hrunning
      · rw [requesterStatus_of_getRun hcurrent] at hwaiting
        exact absurd ⟨hjoined, Option.some.inj hwaiting⟩ hnot
    unfold joinStep
    rw [hpoint]
    dsimp only
    rw [requesterStatus, tree_reading]
    exact hrunning
  · unfold joinStep
    rw [hpoint]
    dsimp only
    rw [requesterStatus, tree_calling]
    exact released_running hwired hrelease
  · have hfinds : Finds call clock sys (.confirm error (.returned aggregate)) := hpoint ▸ hback
    have hconflict : faultCode error = some stateConflict := by
      rw [hpoint] at hlooked
      exact hlooked
    unfold joinStep
    rw [hpoint]
    dsimp only
    rw [requesterStatus, tree_reading]
    exact hfinds hconflict

/-- **If the join finds a slot when it releases its requester, the requester is RUNNING when the
join returns**, and is never refused its completion because of its status. -/
theorem slot_given_back (digest : Json → String) (n : Nat) (before : List ((Nat → Nat) × TreeOp))
    (call : JoinCall) (events : List ((Nat → Nat) × JoinEvent)) (event : (Nat → Nat) × JoinEvent)
    (aggregate : AgentRunAggregation) :
    let sys := start (exec (AgentTreeState.step digest) (AgentTreeState.initial n) before)
    let found := exec (step digest call) sys events
    let left := exec (step digest call) sys (events ++ [event])
    Along (step digest call) (GivesBack call) sys (events ++ [event]) →
    (∀ outcome, found.point ≠ .done outcome) →
    left.point = .done (.returned aggregate) →
      requesterStatus call left = some .running ∧
        ∀ clock version result contentRef fingerprint owner epoch e s',
          completeRun clock call.requesterRunId.text version result contentRef fingerprint owner
            epoch left.tree = (.error e, s') → NoCode stateConflict e := by
  intro sys found left halong hopen hreturned
  obtain ⟨hevents, hlast⟩ := along_append.1 halong
  have hback : GivesBack call found event := hlast.1
  have hleft : left = found.step digest call event := exec_append sys events [event]
  have hwired : Wired found.tree :=
    exec_induction_of_all (I := fun state : JoinSystem => Wired state.tree)
      (fun _ _ h => wired_system h) events
      (wired_exec n before)
  have hlooked : Looked found.point :=
    exec_induction (I := fun state : JoinSystem => Looked state.point)
      (fun _ _ hback hlooked => looked_step hback hlooked) hevents trivial
  rw [hleft] at hreturned ⊢
  obtain ⟨choice, hjoin, hstep⟩ := join_of_returned hopen hreturned
  obtain ⟨clock, event⟩ := event
  subst hjoin
  have hrunning : requesterStatus call (found.step digest call (clock, .join choice)) =
      some .running := by
    rw [hstep] at hreturned ⊢
    exact running_of_returned hwired hlooked hback hopen hreturned
  refine ⟨hrunning, ?_⟩
  intro clock' version result contentRef fingerprint owner epoch e s' hcomplete
  rw [requesterStatus, Option.map_eq_some_iff] at hrunning
  obtain ⟨run, hrun, hstatus⟩ := hrunning
  exact completeRun_refusal hrun hstatus hcomplete

end JoinSystem

namespace Sample

/-- Two children under the root Run, which has no lease. -/
def spawnTwo : TreeOp :=
  .spawnAgents {
    parentRunId := rootId
    idempotencyKey := word
    children := [
      { name := worker, title := word, instruction := word, objective := word },
      { name := word, title := word, instruction := word, objective := word }]
    children_ne_nil := by decide
    names_nodup := by decide
    dependencies_known := by decide
    dependencies_acyclic := by decide
    lease_paired := unleased }

/-- A root with one slot and two children. -/
def oneSlot : List ((Nat → Nat) × TreeOp) := [at_ 0 (begin rootId 1 Nat.one_pos), at_ 0 spawnTwo]

/-- The root joins its first child. -/
def joinFirst : JoinCall where
  requesterRunId := rootId
  runIds := [generatedRunId 1]
  leaseOwnerId := none
  leaseEpoch := none
  ownerId := worker
  leaseDurationMs := 30000
  leaseDuration_pos := by decide

/-- Calls of the join. -/
def joins (count : Nat) : List ((Nat → Nat) × JoinEvent) :=
  List.replicate count (fun _ => 0, .join {})

/-- Another worker claims a child. -/
def rival (runId : String) : (Nat → Nat) × JoinEvent :=
  (fun _ => 0, .other (.claimRun runId "other" 30000))

/-- The root waits, and another worker runs its first child to the end. -/
def firstDone : List ((Nat → Nat) × JoinEvent) :=
  joins 6 ++ [rival "agent-run-1", (fun _ => 0, .other (complete "agent-run-1" (some "other") (some 1)))]

/-- A join of the first child, from its first call on. -/
def joined (events : List ((Nat → Nat) × JoinEvent)) : JoinSystem :=
  exec (JoinSystem.step (fun _ => "") joinFirst) (JoinSystem.start (after oneSlot)) events

end Sample

namespace JoinSystem

open Sample

/-- The aggregate a join has returned. -/
def returned? (point : JoinPoint) : Option AgentRunAggregation :=
  match point with
  | .done (.returned aggregate) => some aggregate
  | _ => none

/-- The code of a refusal. -/
def refusalCode {α : Type} (x : Except (Fault PyError) α) : Option String :=
  match x with
  | .ok _ => none
  | .error e => faultCode e

/-- The join is over. -/
def isOver (point : JoinPoint) : Bool :=
  match point with
  | .done _ => true
  | _ => false

theorem point_of_returned {point : JoinPoint} (h : (returned? point).isSome = true) :
    ∃ aggregate, point = .done (.returned aggregate) := by
  unfold returned? at h
  split at h
  · rename_i aggregate
    exact ⟨aggregate, rfl⟩
  · cases h

/-- Nobody else asks for the root's one slot: the root is RUNNING again. -/
theorem slot_given_back_alone : requesterStatus joinFirst (joined (firstDone ++ joins 3)) =
    some .running := by
  have hrun : Along (step (fun _ => "") joinFirst) (GivesBack joinFirst) (start (after oneSlot))
      ((firstDone ++ joins 2) ++ joins 1) ∧
      isOver (joined (firstDone ++ joins 2)).point = false ∧
      (returned? (joined ((firstDone ++ joins 2) ++ joins 1)).point).isSome = true := by
    decide +kernel
  obtain ⟨halong, hopen, hreturned⟩ := hrun
  obtain ⟨aggregate, hpoint⟩ := point_of_returned hreturned
  refine (slot_given_back (fun _ => "") 0 oneSlot joinFirst (firstDone ++ joins 2) _ aggregate
    halong (fun outcome h => ?_) hpoint).1
  have hpoint : (joined (firstDone ++ joins 2)).point = .done outcome := h
  rw [hpoint] at hopen
  cases hopen

/-- **Another worker claims a sibling between the child's end and the release**: the join returns
its aggregate, the root's claim holds, and yet the root is WAITING and its completion refused. -/
theorem slot_taken_by_sibling :
    let left := joined (firstDone ++ [rival "agent-run-2"] ++ joins 5)
    (∃ aggregate, left.point = .done (.returned aggregate)) ∧
    (∃ run, left.tree.runs.get? "root" = some run ∧ run.requireClaim 0 none none = .ok () ∧
      run.status = .waiting) ∧
    ∃ e s', completeRun (fun _ => 0) "root" 0 .null "ref" "print" none none left.tree =
      (.error e, s') ∧ faultCode e = some stateConflict := by
  intro left
  have hrun : (returned? left.point).isSome = true ∧
      (left.tree.runs.get? "root").any (fun run =>
        (run.requireClaim 0 none none).toOption.isSome && run.status = .waiting) = true ∧
      refusalCode (completeRun (fun _ => 0) "root" 0 .null "ref" "print" none none left.tree).1 =
        some stateConflict := by
    decide +kernel
  obtain ⟨hreturned, hwaiting, hrefused⟩ := hrun
  refine ⟨point_of_returned hreturned, ?_, ?_⟩
  · rw [Option.any_eq_true] at hwaiting
    obtain ⟨run, hstored, hstatus⟩ := hwaiting
    rw [Bool.and_eq_true, decide_eq_true_eq] at hstatus
    refine ⟨run, hstored, ?_, hstatus.2⟩
    cases hclaim : run.requireClaim 0 none none with
    | ok _ => rfl
    | error e =>
      rw [hclaim] at hstatus
      cases hstatus.1
  · generalize completeRun (fun _ => 0) "root" 0 .null "ref" "print" none none left.tree = reply at *
    obtain ⟨outcome, tree⟩ := reply
    cases outcome with
    | ok _ => cases hrefused
    | error e => exact ⟨e, tree, rfl, hrefused⟩

end JoinSystem

end Purra
