import Purra.AgentTree.Identity
import Purra.Core.JsonDumps

/-!
# A call made twice

`spawn_agents` and `continue_agent` keep a receipt for each key of a Run, with the digest of what
they were asked.  A repetition is recognised by the digest alone, before anything else is looked
at.

* `SameChild`, `SameContinuation` — two commands ask the same.  `same_toMapping` and
  `same_continuationMapping`: **the digest covers every field** but the lease.
* `ReceiptsKept` — no call takes a receipt away or changes one.
* `SpawnReplays`, `ContinueReplays` — what a repetition returns.
-/

namespace Purra

open Purra.Action RunTree

/-! ## What the digest covers -/

namespace RunTree

/-- `_digest`. -/
def digestOf (sha256 : String → String) (py : Builtins) (value : Json) : String :=
  sha256 (String.ofList (jsonDumps py value.sorted))

/-- What the digest of a spawn is taken of. -/
def spawnMapping (command : SpawnAgentsCommand) : Json :=
  .obj [("children", .arr (command.children.map (·.toMapping)))]

end RunTree

theorem same_grantMapping {a b : AgentCapabilityGrant} :
    Json.Same a.toMapping b.toMapping ↔ a = b := by
  have hrows := Json.same_obj [
    ("canSpawnAgents", .bool a.canSpawnAgents, .bool b.canSpawnAgents),
    ("maxDepth", .int a.maxDepth, .int b.maxDepth),
    ("maxChildrenPerCall", .int a.maxChildrenPerCall, .int b.maxChildrenPerCall),
    ("maxAgentsPerRoot", .int a.maxAgentsPerRoot, .int b.maxAgentsPerRoot),
    ("maxParallelRuns", .int a.maxParallelRuns, .int b.maxParallelRuns),
    ("allowedTools", .arr (a.allowedTools.map .str), .arr (b.allowedTools.map .str)),
    ("allowedModels", .arr (a.allowedModels.map .str), .arr (b.allowedModels.map .str))]
  refine hrows.trans ?_
  simp only [List.forall_mem_cons, Json.same_bool, Json.same_int, Json.same_arr,
    Json.forall₂_same_str, Int.natCast_inj]
  constructor
  · rintro ⟨hspawn, hdepth, hchildren, hagents, hruns, htools, hmodels, -⟩
    cases a
    cases b
    simp_all
  · rintro rfl
    simp

/-- Two specs ask for the same child. -/
structure SameChild (a b : ChildAgentSpec) : Prop where
  dependsOn : a.dependsOn = b.dependsOn
  name : a.name = b.name
  title : a.title = b.title
  instruction : a.instruction = b.instruction
  objective : a.objective = b.objective
  inputPayload : Json.Same (.obj a.inputPayload) (.obj b.inputPayload)
  required : a.required = b.required
  priority : a.priority = b.priority
  capabilityGrant : a.capabilityGrant = b.capabilityGrant

/-- **The digest covers every field of a child.** -/
theorem same_toMapping {a b : ChildAgentSpec} :
    Json.Same a.toMapping b.toMapping ↔ SameChild a b := by
  have hgrant : Json.Same ((a.capabilityGrant.map (·.toMapping)).getD .null)
      ((b.capabilityGrant.map (·.toMapping)).getD .null) ↔ a.capabilityGrant = b.capabilityGrant := by
    cases a.capabilityGrant with
    | none =>
      cases b.capabilityGrant with
      | none => exact iff_of_true rfl rfl
      | some h => exact iff_of_false nofun nofun
    | some g =>
      cases b.capabilityGrant with
      | none => exact iff_of_false nofun nofun
      | some h => exact same_grantMapping.trans (Option.some_inj).symm
  have hdepends : ∀ xs ys : List RequiredText,
      Json.Same (.arr (xs.map (.str ·.text))) (.arr (ys.map (.str ·.text))) ↔ xs = ys := by
    intro xs ys
    rw [Json.same_arr]
    have hmap : ∀ l : List RequiredText,
        l.map (fun x => Json.str x.text) = (l.map (·.text)).map .str := by
      intro l
      rw [List.map_map]
      rfl
    rw [hmap, hmap, Json.forall₂_same_str]
    exact (List.map_injective_iff.2 fun x y h => RequiredText.ext h).eq_iff
  have hrows := Json.same_obj [
    ("dependsOn", .arr (a.dependsOn.map (.str ·.text)), .arr (b.dependsOn.map (.str ·.text))),
    ("name", .str a.name.text, .str b.name.text),
    ("title", .str a.title.text, .str b.title.text),
    ("instruction", .str a.instruction.text, .str b.instruction.text),
    ("objective", .str a.objective.text, .str b.objective.text),
    ("input", .obj a.inputPayload, .obj b.inputPayload),
    ("required", .bool a.required, .bool b.required),
    ("priority", .int a.priority, .int b.priority),
    ("capabilityGrant", (a.capabilityGrant.map (·.toMapping)).getD .null,
      (b.capabilityGrant.map (·.toMapping)).getD .null)]
  refine hrows.trans ?_
  simp only [List.forall_mem_cons, Json.same_bool, Json.same_int, Json.same_str, hgrant, hdepends]
  constructor
  · rintro ⟨hdeps, hname, htitle, hinstruction, hobjective, hinput, hrequired, hpriority, hg, -⟩
    exact ⟨hdeps, RequiredText.ext hname, RequiredText.ext htitle, RequiredText.ext hinstruction,
      RequiredText.ext hobjective, hinput, hrequired, hpriority, hg⟩
  · intro h
    exact ⟨h.dependsOn, congrArg _ h.name, congrArg _ h.title, congrArg _ h.instruction,
      congrArg _ h.objective, h.inputPayload, h.required, h.priority, h.capabilityGrant,
      List.forall_mem_nil _⟩

/-- Two commands ask for the same children. -/
def SameChildren (a b : SpawnAgentsCommand) : Prop := List.Forall₂ SameChild a.children b.children

theorem same_spawnMapping {a b : SpawnAgentsCommand} :
    Json.Same (spawnMapping a) (spawnMapping b) ↔ SameChildren a b := by
  have hrows := Json.same_obj [("children", .arr (a.children.map (·.toMapping)),
    .arr (b.children.map (·.toMapping)))]
  refine hrows.trans ?_
  simp only [List.forall_mem_cons, Json.same_arr, List.forall₂_map_left_iff,
    List.forall₂_map_right_iff, same_toMapping]
  exact ⟨fun h => h.1, fun h => ⟨h, List.forall_mem_nil _⟩⟩

/-- Two commands ask for the same next Run of an Agent. -/
structure SameContinuation (a b : ContinueAgentCommand) : Prop where
  agentId : a.agentId = b.agentId
  expectedContextVersion : a.expectedContextVersion = b.expectedContextVersion
  message : a.message = b.message
  required : a.required = b.required
  priority : a.priority = b.priority

theorem same_continuationMapping {a b : ContinueAgentCommand} :
    Json.Same (continuationMapping a) (continuationMapping b) ↔ SameContinuation a b := by
  have hrows := Json.same_obj [
    ("agentId", .str a.agentId.text, .str b.agentId.text),
    ("contextVersion", .int a.expectedContextVersion, .int b.expectedContextVersion),
    ("message", .str a.message.text, .str b.message.text),
    ("required", .bool a.required, .bool b.required),
    ("priority", .int a.priority, .int b.priority)]
  refine hrows.trans ?_
  simp only [List.forall_mem_cons, Json.same_bool, Json.same_int, Json.same_str, Int.natCast_inj]
  constructor
  · rintro ⟨hagent, hversion, hmessage, hrequired, hpriority, -⟩
    exact ⟨RequiredText.ext hagent, hversion, RequiredText.ext hmessage, hrequired, hpriority⟩
  · intro h
    exact ⟨congrArg _ h.agentId, h.expectedContextVersion, congrArg _ h.message, h.required,
      h.priority, List.forall_mem_nil _⟩

/-- The digest is the same for the same JSON, and for other JSON it differs unless the two texts
collide under SHA-256. -/
def CollisionFree (sha256 : String → String) (py : Builtins) (x y : Json) : Prop :=
  digestOf sha256 py x = digestOf sha256 py y →
    String.ofList (jsonDumps py x.sorted) = String.ofList (jsonDumps py y.sorted)

section

variable {sha256 : String → String} {py : Builtins} (hpy : FloatRepr py)
include hpy

theorem digestOf_of_same {x y : Json} (h : x.Same y) : digestOf sha256 py x = digestOf sha256 py y := by
  rw [digestOf, digestOf, (jsonDumps_sorted_iff hpy).2 h]

theorem digestOf_ne {x y : Json} (hfree : CollisionFree sha256 py x y) (h : ¬ x.Same y) :
    digestOf sha256 py x ≠ digestOf sha256 py y := by
  intro heq
  exact h ((jsonDumps_sorted_iff hpy).1 (String.ofList_injective (hfree heq)))

end

/-! ## Receipts are kept -/

/-- Every receipt is there as it was. -/
structure ReceiptsKept (s s' : AgentTreeState) : Prop where
  spawn : ∀ key entry, s.spawnReceipts.get? key = some entry →
    s'.spawnReceipts.get? key = some entry
  continuation : ∀ key entry, s.continueReceipts.get? key = some entry →
    s'.continueReceipts.get? key = some entry

namespace ReceiptsKept

theorem refl (s : AgentTreeState) : ReceiptsKept s s := ⟨fun _ _ h => h, fun _ _ h => h⟩

theorem trans {s s' s'' : AgentTreeState} (h : ReceiptsKept s s') (h' : ReceiptsKept s' s'') :
    ReceiptsKept s s'' :=
  ⟨fun key entry hget => h'.spawn key entry (h.spawn key entry hget),
    fun key entry hget => h'.continuation key entry (h.continuation key entry hget)⟩

theorem of_eq {s s' : AgentTreeState} (hspawn : s'.spawnReceipts = s.spawnReceipts)
    (hcontinue : s'.continueReceipts = s.continueReceipts) : ReceiptsKept s s' :=
  ⟨fun _ _ h => hspawn ▸ h, fun _ _ h => hcontinue ▸ h⟩

end ReceiptsKept

theorem get?_set_new {κ ν : Type} [DecidableEq κ] {d : Dict κ ν} {k k' : κ} {v w : ν}
    (hnew : d.get? k = none) (h : d.get? k' = some w) : (d.set k v).get? k' = some w := by
  rw [Dict.get?_set_of_ne, h]
  rintro rfl
  rw [hnew] at h
  cases h

section

variable {digest : Json → String} {clock : Nat → Nat} {s s' : AgentTreeState}

theorem receiptsKept_change {op : TreeOp} (h : Change digest clock s op s') : ReceiptsKept s s' := by
  cases h with
  | spawn _ _ _ _ _ _ hnew =>
    exact ⟨fun key entry hget => get?_set_new hnew hget, fun _ _ hget => hget⟩
  | «continue» _ _ _ _ _ _ _ _ _ hnew =>
    exact ⟨fun _ _ hget => hget, fun key entry hget => get?_set_new hnew hget⟩
  | fail error run =>
    have hkept : ReceiptsKept s (s.putRun run.runId.text (run.failedWith error)) := .of_eq rfl rfl
    exact foldl_cancelDescendant _ (fun _ _ _ h _ _ => h.trans (.of_eq rfl rfl)) _ hkept
  | cancel =>
    exact foldl_cancelOrdered (fun _ _ _ h _ _ => h.trans (.of_eq rfl rfl)) _ (.refl s)
  | _ => exact .of_eq rfl rfl

theorem receiptsKept_step (digest : Json → String) (s : AgentTreeState)
    (event : (Nat → Nat) × TreeOp) : ReceiptsKept s (s.step digest event) := by
  rcases change_of_step digest s event with h | h
  · rw [h]
    exact .refl s
  · exact receiptsKept_change h

/-- No run takes a receipt away. -/
theorem receiptsKept_exec (digest : Json → String) (s : AgentTreeState)
    (run : List ((Nat → Nat) × TreeOp)) :
    ReceiptsKept s (exec (AgentTreeState.step digest) s run) :=
  exec_rel (C := fun _ _ => True) ReceiptsKept.refl ReceiptsKept.trans
    (fun s event _ => receiptsKept_step digest s event) (along_of_forall fun _ _ => trivial)

/-! ## What a repetition returns -/

/-- The error of a key that was used for something else. -/
def keyConflict (message : String) : Fault PyError :=
  .raised (treeViolation "child_spawn_idempotency_conflict" message)

theorem refuse_bind_apply {β : Type} {c : Prop} [Decidable c] {code message : String}
    {f : Unit → TreeAction β} : (refuse c code message >>= f) s =
      if c then (.error (.raised (treeViolation code message)), s) else f () s := by
  unfold refuse
  split <;> rfl

theorem spawnAgents_replay {command : SpawnAgentsCommand} {mark : String}
    {receipt : SpawnAgentsReceipt}
    (h : s.spawnReceipts.get? (command.parentRunId, command.idempotencyKey) = some (mark, receipt)) :
    spawnAgents digest clock command s =
      if mark = digest (spawnMapping command) then (.ok { receipt with replayed := true }, s)
      else (.error (keyConflict "spawn key was reused with different input"), s) := by
  rw [spawnAgents, read_bind_apply]
  dsimp only
  rw [h]
  show (refuse (mark ≠ digest (spawnMapping command)) _ _ >>= _) s = _
  rw [refuse_bind_apply, ite_not]
  rfl

theorem continueAgent_replay {command : ContinueAgentCommand} {mark : String}
    {receipt : ContinueAgentReceipt}
    (h : s.continueReceipts.get? (command.requesterRunId, command.idempotencyKey) =
      some (mark, receipt)) :
    continueAgent digest clock command s =
      if mark = digest (continuationMapping command) then (.ok { receipt with replayed := true }, s)
      else (.error (keyConflict "continuation key was reused with different input"), s) := by
  rw [continueAgent, read_bind_apply]
  dsimp only
  rw [h]
  show (refuse (mark ≠ digest (continuationMapping command)) _ _ >>= _) s = _
  rw [refuse_bind_apply, ite_not]
  rfl

/-- A spawn that returned has left its receipt under its key, with its digest. -/
theorem spawnAgents_recorded {command : SpawnAgentsCommand} {receipt : SpawnAgentsReceipt}
    (h : spawnAgents digest clock command s = (.ok receipt, s')) :
    ∃ original, s'.spawnReceipts.get? (command.parentRunId, command.idempotencyKey) =
        some (digest (spawnMapping command), original) ∧
      { receipt with replayed := true } = { original with replayed := true } := by
  cases hreplay : s.spawnReceipts.get? (command.parentRunId, command.idempotencyKey) with
  | some entry =>
    obtain ⟨mark, original⟩ := entry
    rw [spawnAgents_replay hreplay] at h
    split at h
    · rename_i hmark
      cases h
      exact ⟨original, hmark ▸ hreplay, rfl⟩
    · cases h
  | none =>
    replace h := read_bind_eq_ok.1 h
    simp only [hreplay] at h
    obtain ⟨parentRun, -, h⟩ := check_bind_eq_ok.1 h
    obtain ⟨_, -, h⟩ := check_bind_eq_ok.1 h
    obtain ⟨parent, -, h⟩ := check_bind_eq_ok.1 h
    obtain ⟨-, h⟩ := refuse_bind_eq_ok.1 h
    obtain ⟨-, h⟩ := refuse_bind_eq_ok.1 h
    obtain ⟨-, h⟩ := refuse_bind_eq_ok.1 h
    obtain ⟨-, h⟩ := refuse_bind_eq_ok.1 h
    obtain ⟨grants, -, h⟩ := check_bind_eq_ok.1 h
    replace h := write_bind_eq_ok.1 h
    obtain ⟨rfl, rfl⟩ := pure_eq_ok.1 h
    exact ⟨_, Dict.get?_set_self _ _ _, rfl⟩

/-- A continuation that returned has left its receipt under its key, with its digest. -/
theorem continueAgent_recorded {command : ContinueAgentCommand} {receipt : ContinueAgentReceipt}
    (h : continueAgent digest clock command s = (.ok receipt, s')) :
    ∃ original, s'.continueReceipts.get? (command.requesterRunId, command.idempotencyKey) =
        some (digest (continuationMapping command), original) ∧
      { receipt with replayed := true } = { original with replayed := true } := by
  cases hreplay : s.continueReceipts.get? (command.requesterRunId, command.idempotencyKey) with
  | some entry =>
    obtain ⟨mark, original⟩ := entry
    rw [continueAgent_replay hreplay] at h
    split at h
    · rename_i hmark
      cases h
      exact ⟨original, hmark ▸ hreplay, rfl⟩
    · cases h
  | none =>
    replace h := read_bind_eq_ok.1 h
    simp only [hreplay] at h
    obtain ⟨requester, -, h⟩ := check_bind_eq_ok.1 h
    obtain ⟨_, -, h⟩ := check_bind_eq_ok.1 h
    obtain ⟨target, -, h⟩ := check_bind_eq_ok.1 h
    obtain ⟨requesterAgent, -, h⟩ := check_bind_eq_ok.1 h
    obtain ⟨-, h⟩ := refuse_bind_eq_ok.1 h
    obtain ⟨above, -, h⟩ := ofExcept_bind_eq_ok.1 h
    obtain ⟨-, h⟩ := refuse_bind_eq_ok.1 h
    obtain ⟨-, h⟩ := refuse_bind_eq_ok.1 h
    obtain ⟨-, h⟩ := refuse_bind_eq_ok.1 h
    obtain ⟨root, -, h⟩ := check_bind_eq_ok.1 h
    obtain ⟨-, h⟩ := refuse_bind_eq_ok.1 h
    replace h := write_bind_eq_ok.1 h
    obtain ⟨rfl, rfl⟩ := pure_eq_ok.1 h
    exact ⟨_, Dict.get?_set_self _ _ _, rfl⟩

end

/-- A spawn is repeated: under its key, the same input gets its receipt again and another input is
refused, and the state stays as it is. -/
structure SpawnReplays (sha256 : String → String) (py : Builtins) (s : AgentTreeState)
    (command : SpawnAgentsCommand) (receipt : SpawnAgentsReceipt) (again : SpawnAgentsCommand)
    (clock : Nat → Nat) : Prop where
  same : SameChildren command again → spawnAgents (digestOf sha256 py) clock again s =
    (.ok { receipt with replayed := true }, s)
  other : ¬ SameChildren command again →
    CollisionFree sha256 py (spawnMapping command) (spawnMapping again) →
      spawnAgents (digestOf sha256 py) clock again s =
        (.error (keyConflict "spawn key was reused with different input"), s)

/-- A continuation is repeated: under its key, the same input gets its receipt again and another
input is refused, and the state stays as it is. -/
structure ContinueReplays (sha256 : String → String) (py : Builtins) (s : AgentTreeState)
    (command : ContinueAgentCommand) (receipt : ContinueAgentReceipt) (again : ContinueAgentCommand)
    (clock : Nat → Nat) : Prop where
  same : SameContinuation command again → continueAgent (digestOf sha256 py) clock again s =
    (.ok { receipt with replayed := true }, s)
  other : ¬ SameContinuation command again →
    CollisionFree sha256 py (continuationMapping command) (continuationMapping again) →
      continueAgent (digestOf sha256 py) clock again s =
        (.error (keyConflict "continuation key was reused with different input"), s)

section

variable {sha256 : String → String} {py : Builtins} {clock clock' : Nat → Nat} {s : AgentTreeState}

/-- After a spawn that returned, whatever is done next, its repetition is recognised. -/
theorem spawnReplays_of_ok (hpy : FloatRepr py) {command again : SpawnAgentsCommand}
    {receipt : SpawnAgentsReceipt}
    (h : (spawnAgents (digestOf sha256 py) clock command s).1 = .ok receipt)
    (hrun : again.parentRunId = command.parentRunId)
    (hkey : again.idempotencyKey = command.idempotencyKey) (later : List ((Nat → Nat) × TreeOp)) :
    SpawnReplays sha256 py (exec (AgentTreeState.step (digestOf sha256 py)) s
      ((clock, .spawnAgents command) :: later)) command receipt again clock' := by
  obtain ⟨original, hstored, hreceipt⟩ := spawnAgents_recorded (Prod.ext h rfl)
  have hkept := (receiptsKept_exec (digestOf sha256 py)
    (s.step (digestOf sha256 py) (clock, .spawnAgents command)) later).spawn _ _ hstored
  rw [← hrun, ← hkey] at hkept
  rw [exec_cons]
  refine ⟨fun hsame => ?_, fun hother hfree => ?_⟩
  · rw [spawnAgents_replay hkept, if_pos (digestOf_of_same hpy (same_spawnMapping.2 hsame)), hreceipt]
  · rw [spawnAgents_replay hkept,
      if_neg (digestOf_ne hpy hfree fun hsame => hother (same_spawnMapping.1 hsame))]

/-- After a continuation that returned, whatever is done next, its repetition is recognised. -/
theorem continueReplays_of_ok (hpy : FloatRepr py) {command again : ContinueAgentCommand}
    {receipt : ContinueAgentReceipt}
    (h : (continueAgent (digestOf sha256 py) clock command s).1 = .ok receipt)
    (hrun : again.requesterRunId = command.requesterRunId)
    (hkey : again.idempotencyKey = command.idempotencyKey) (later : List ((Nat → Nat) × TreeOp)) :
    ContinueReplays sha256 py (exec (AgentTreeState.step (digestOf sha256 py)) s
      ((clock, .continueAgent command) :: later)) command receipt again clock' := by
  obtain ⟨original, hstored, hreceipt⟩ := continueAgent_recorded (Prod.ext h rfl)
  have hkept := (receiptsKept_exec (digestOf sha256 py)
    (s.step (digestOf sha256 py) (clock, .continueAgent command)) later).continuation _ _ hstored
  rw [← hrun, ← hkey] at hkept
  rw [exec_cons]
  refine ⟨fun hsame => ?_, fun hother hfree => ?_⟩
  · rw [continueAgent_replay hkept,
      if_pos (digestOf_of_same hpy (same_continuationMapping.2 hsame)), hreceipt]
  · rw [continueAgent_replay hkept,
      if_neg (digestOf_ne hpy hfree fun hsame => hother (same_continuationMapping.1 hsame))]

end

end Purra
