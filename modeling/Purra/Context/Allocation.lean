import Mathlib.Algebra.Order.BigOperators.Group.List
import Purra.Context.Estimates
import Purra.Lib.Apportion

/-!
# Context budget allocation

How one model window is divided (`purra/context_budget.py`, `purra/contracts/context.py`): fixed
reserves for output, safety, runtime and tool schemas first, a minimum for messages, and the
rest — the pool — among the claims of the context sources.

Every claim gets its minimum before anything else.  What is left goes out by priority, highest
first: a class of equal priority gets all it still needs, or shares what is left by largest
remainders, after which nothing is left for the classes below.

* `ContextBudget`, `ContextBudgetClaim` — with the checks of their constructors as fields.
* `allocateContextBudget`, `maxGenerationTokensForContext` — the entry points.
* `Allocated` — what a division of a pool among claims owes them;
  `allocated_of_allocateClaims` says the division does.
-/

namespace Purra.Context

open Planning

/-! ## Contracts -/

/-- `ContextBudgetClaim`. -/
structure ContextBudgetClaim where
  name : RequiredText
  desiredTokens : Nat
  minimumTokens : Nat
  maximumTokens : Nat
  priority : Int
  minimum_le_desired : minimumTokens ≤ desiredTokens
  desired_le_maximum : desiredTokens ≤ maximumTokens

/-- The arguments of `ContextBudget`. -/
structure ContextBudgetArgs where
  windowTokens : Int
  outputReserveTokens : Int
  safetyReserveTokens : Int
  runtimeReserveTokens : Int
  toolSchemaTokens : Int := 0
  providerInputTokens : Int := 0
  minimumMessageTokens : Int := 0
  contextAllocations : List (String × Int) := []

/-- `ContextBudget`. -/
structure ContextBudget where
  windowTokens : Nat
  outputReserveTokens : Nat
  safetyReserveTokens : Nat
  runtimeReserveTokens : Nat
  toolSchemaTokens : Nat
  providerInputTokens : Nat
  minimumMessageTokens : Nat
  contextAllocations : Dict RequiredText Nat
  window_pos : 0 < windowTokens
  fixed_le_window : outputReserveTokens + safetyReserveTokens + runtimeReserveTokens +
    toolSchemaTokens + providerInputTokens ≤ windowTokens
  allocations_le_input : contextAllocations.values.sum + minimumMessageTokens ≤ providerInputTokens

namespace ContextBudget

/-- The loop over the allocations in `__post_init__`. -/
def readAllocations (entries : List (String × Int)) : Except PyError (Dict RequiredText Nat) :=
  entries.foldlM (fun allocations entry => do
    let name ← RequiredText.of entry.1 "context allocation name"
    let tokens ← nonNegativeInt entry.2 "context allocation tokens"
    .ok (allocations.set name tokens)) Dict.empty

/-- `ContextBudget.__post_init__`. -/
def of (args : ContextBudgetArgs) : Except PyError ContextBudget :=
  match hwindow : positiveInt args.windowTokens "window_tokens" with
  | .error e => .error e
  | .ok window => do
    let output ← nonNegativeInt args.outputReserveTokens "output_reserve_tokens"
    let safety ← nonNegativeInt args.safetyReserveTokens "safety_reserve_tokens"
    let runtime ← nonNegativeInt args.runtimeReserveTokens "runtime_reserve_tokens"
    let schemas ← nonNegativeInt args.toolSchemaTokens "tool_schema_tokens"
    let input ← nonNegativeInt args.providerInputTokens "provider_input_tokens"
    let minimum ← nonNegativeInt args.minimumMessageTokens "minimum_message_tokens"
    let allocations ← readAllocations args.contextAllocations
    if hfixed : window < output + safety + runtime + schemas + input then
      .error (.valueError "context budget exceeds the model window")
    else if hinput : input < allocations.values.sum + minimum then
      .error (.valueError "context allocations exceed provider input budget")
    else
      .ok
        { windowTokens := window
          outputReserveTokens := output
          safetyReserveTokens := safety
          runtimeReserveTokens := runtime
          toolSchemaTokens := schemas
          providerInputTokens := input
          minimumMessageTokens := minimum
          contextAllocations := allocations
          window_pos := positiveInt_eq_ok hwindow
          fixed_le_window := not_lt.1 hfixed
          allocations_le_input := not_lt.1 hinput }

/-- `context_pool_tokens`. -/
def contextPoolTokens (budget : ContextBudget) : Nat :=
  budget.providerInputTokens - budget.minimumMessageTokens

end ContextBudget

/-! ## Fixed reserves -/

/-- The 53 leading bits of a number, rounded to the nearest and ties to even: what is left of it in
a binary64. -/
def roundDouble (n : Nat) : Nat :=
  let unit := 2 ^ (n.log2 + 1 - 53)
  let down := n / unit
  if 2 * (n % unit) < unit ∨ 2 * (n % unit) = unit ∧ down % 2 = 0 then down * unit
  else (down + 1) * unit

/-- `math.ceil(window * 0.05)`, where the literal is `3602879701896397 / 2 ^ 56`. -/
def safetyShare (window : Nat) : Except PyError Nat :=
  if 2 ^ 1024 ≤ roundDouble window then .error (.overflowError "int too large to convert to float")
  else .ok ((roundDouble (roundDouble window * 3602879701896397) + (2 ^ 56 - 1)) / 2 ^ 56)

/-- The arguments that fix the reserves. -/
structure ReserveArgs where
  windowTokens : Int
  tools : List ToolSchema := []
  safetyReserveTokens : Option Int := none
  runtimeReserveTokens : Option Int := none
  minimumMessageTokens : Option Int := none

/-- What `_fixed_context_reserves` returns. -/
structure FixedReserves where
  safety : Nat
  runtime : Nat
  schemaTokens : Nat
  minimum : Nat

/-- What all reserves take from the window, the minimum for messages included. -/
def FixedReserves.total (reserves : FixedReserves) : Nat :=
  reserves.safety + reserves.runtime + reserves.schemaTokens + reserves.minimum

variable (py : Builtins)

/-- `_fixed_context_reserves`. -/
def fixedContextReserves (args : ReserveArgs) : Except PyError FixedReserves := do
  let window := args.windowTokens
  let schemaTokens := estimateToolSchemaTokens py args.tools
  let safety : Int ← match args.safetyReserveTokens with
    | some tokens => .ok tokens
    | none => (safetyShare window.toNat).map fun share => min 64000 (max 4096 (share : Int))
  let runtime := match args.runtimeReserveTokens, args.tools with
    | some tokens, _ => tokens
    | none, [] => min 16000 (max 2048 (window / 25))
    | none, _ :: _ => min 64000 (max 4096 (window / 10))
  let minimum := match args.minimumMessageTokens with
    | some tokens => tokens
    | none => min 8192 (max 1024 (window / 100))
  if min safety (min runtime minimum) < 0 then
    .error (.valueError "context reserves must be non-negative")
  else .ok ⟨safety.toNat, runtime.toNat, schemaTokens, minimum.toNat⟩

/-! ## The division among claims -/

/-- `_proportional_shares`. -/
def proportionalShares (weights : List Nat) (available : Nat) : List Nat :=
  let total := weights.sum
  let pool := available
  if total = 0 ∨ pool = 0 then weights.map fun _ => 0
  else
    let quotients := weights.map fun weight => weight * pool / total
    let remainders := weights.map fun weight => weight * pool % total
    let remaining := pool - quotients.sum
    bump quotients ((largestFirst remainders).take remaining)

/-- `sorted({claim.priority for claim in claims}, reverse=True)`. -/
def prioritiesOf (claims : List ContextBudgetClaim) : List Int :=
  ((claims.map (·.priority)).dedup).insertionSort fun p q => q ≤ p

/-- The claims of one priority. -/
def groupOf (claims : List ContextBudgetClaim) (priority : Int) : List ContextBudgetClaim :=
  claims.filter (·.priority = priority)

/-- What the claims of a group still need. -/
def needsOf (allocations : Dict RequiredText Nat) (group : List ContextBudgetClaim) : List Nat :=
  group.map fun claim => claim.desiredTokens - (allocations.get? claim.name).getD 0

/-- `allocations[claim.name] += share` for each claim of a group. -/
def addShares (allocations : Dict RequiredText Nat) (group : List ContextBudgetClaim)
    (shares : List Nat) : Dict RequiredText Nat :=
  allocations.credit ((group.map (·.name)).zip shares)

/-- The loop over the priorities in `_allocate_claims`. -/
def fundPriorities (claims : List ContextBudgetClaim) :
    List Int → Dict RequiredText Nat → Nat → Dict RequiredText Nat
  | [], allocations, _ => allocations
  | priority :: priorities, allocations, remaining =>
    let group := groupOf claims priority
    let needs := needsOf allocations group
    let neededTotal := needs.sum
    if neededTotal = 0 then fundPriorities claims priorities allocations remaining
    else if neededTotal ≤ remaining then
      fundPriorities claims priorities (addShares allocations group needs) (remaining - neededTotal)
    else addShares allocations group (proportionalShares needs remaining)

/-- `_allocate_claims`. -/
def allocateClaims (claims : List ContextBudgetClaim) (available : Nat) :
    Except PyError (Dict RequiredText Nat) :=
  match claims with
  | [] => .ok Dict.empty
  | claims =>
    let minimumTotal := (claims.map (·.minimumTokens)).sum
    if available < minimumTotal then
      .error (.contextOverflow "minimum context demand exceeds the provider input pool"
        "minimum_context_demand_exceeds_pool"
        [("minimumContextDemandTokens", minimumTotal), ("availableContextPoolTokens", available),
          ("overflowTokens", (minimumTotal : Int) - available)])
    else
      let allocations := Dict.empty.extend (claims.map fun claim => (claim.name, claim.minimumTokens))
      .ok (fundPriorities claims (prioritiesOf claims) allocations (available - minimumTotal))

/-! ## The entry points -/

/-- `_validate_context_claims`. -/
def validateContextClaims (claims : List ContextBudgetClaim) (source : String) :
    Except PyError (List ContextBudgetClaim) :=
  if (claims.map (·.name)).Nodup then .ok claims
  else .error (.valueError (source ++ " contains duplicate names"))

/-- `allocate_context_budget`. -/
def allocateContextBudget (args : ReserveArgs) (outputReserveTokens : Int := 8192)
    (claims : List ContextBudgetClaim := []) : Except PyError ContextBudget := do
  let window := args.windowTokens
  let output := outputReserveTokens
  rejectIf (window ≤ 0) (.valueError "context window must be positive")
  rejectIf (output ≤ 0) (.valueError "output reserve must be positive")
  let reserves ← fixedContextReserves py args
  let providerInput : Int :=
    window - output - reserves.safety - reserves.runtime - reserves.schemaTokens
  rejectIf (providerInput < reserves.minimum)
    (.contextOverflow "fixed model, tool and safety reserves leave no message budget"
      "fixed_reserves_exceed_window"
      [("windowTokens", window), ("outputReserveTokens", output),
        ("safetyReserveTokens", reserves.safety), ("runtimeReserveTokens", reserves.runtime),
        ("toolSchemaTokens", reserves.schemaTokens), ("providerInputTokens", providerInput),
        ("minimumMessageTokens", reserves.minimum)])
  let normalizedClaims ← validateContextClaims claims "context budget"
  let allocations ← allocateClaims normalizedClaims (providerInput - reserves.minimum).toNat
  ContextBudget.of
    { windowTokens := window
      outputReserveTokens := output
      safetyReserveTokens := reserves.safety
      runtimeReserveTokens := reserves.runtime
      toolSchemaTokens := reserves.schemaTokens
      providerInputTokens := providerInput
      minimumMessageTokens := reserves.minimum
      contextAllocations := allocations.entries.map fun entry => (entry.1.text, (entry.2 : Int)) }

/-- `max_generation_tokens_for_context`. -/
def maxGenerationTokensForContext (args : ReserveArgs) : Except PyError Nat := do
  let window := args.windowTokens
  rejectIf (window ≤ 0) (.valueError "context window must be positive")
  let reserves ← fixedContextReserves py args
  let maximum : Int :=
    window - reserves.safety - reserves.runtime - reserves.schemaTokens - reserves.minimum
  if maximum ≤ 0 then
    .error (.contextOverflow
      "fixed tool, safety, runtime and input reserves leave no generation capacity"
      "fixed_reserves_exceed_window"
      [("windowTokens", window), ("safetyReserveTokens", reserves.safety),
        ("runtimeReserveTokens", reserves.runtime), ("toolSchemaTokens", reserves.schemaTokens),
        ("minimumMessageTokens", reserves.minimum)])
  else .ok maximum.toNat

/-! ## The shares of one group -/

omit py in
theorem proportionalShares_eq {weights : List Nat} {available : Nat} (hweights : 0 < weights.sum)
    (havailable : 0 < available) : proportionalShares weights available =
      apportion (weights.map (· * available)) weights.sum available := by
  have hboth : ¬ (weights.sum = 0 ∨ available = 0) := by omega
  simp only [proportionalShares, apportion, if_neg hboth, List.map_map, Function.comp_def]

@[simp] theorem length_proportionalShares (weights : List Nat) (available : Nat) :
    (proportionalShares weights available).length = weights.length := by
  simp only [proportionalShares]
  split <;> simp

/-- The shares spend all that is available, as long as anything is asked for. -/
theorem sum_proportionalShares {weights : List Nat} {available : Nat} (hweights : 0 < weights.sum) :
    (proportionalShares weights available).sum = available := by
  rcases Nat.eq_zero_or_pos available with rfl | havailable
  · simp [proportionalShares]
  · rw [proportionalShares_eq hweights havailable]
    exact sum_apportion (sum_map_mul weights available) hweights

/-- No share is more than what was asked for, when all of it together is not available. -/
theorem proportionalShares_le {weights : List Nat} {available : Nat}
    (hless : available < weights.sum) {i need share : Nat} (hneed : weights[i]? = some need)
    (hshare : (proportionalShares weights available)[i]? = some share) : share ≤ need := by
  rcases Nat.eq_zero_or_pos available with rfl | havailable
  · simp only [proportionalShares, or_true, if_true, List.getElem?_map, hneed, Option.map_some,
      Option.some.injEq] at hshare
    omega
  · rw [proportionalShares_eq (by omega) havailable] at hshare
    exact apportion_le (by omega) hless.le hneed hshare

/-! ## The priorities -/

theorem mem_prioritiesOf {claims : List ContextBudgetClaim} {priority : Int} :
    priority ∈ prioritiesOf claims ↔ ∃ claim ∈ claims, claim.priority = priority := by
  simp [prioritiesOf]

/-- The priorities go down strictly. -/
theorem pairwise_prioritiesOf (claims : List ContextBudgetClaim) :
    (prioritiesOf claims).Pairwise fun p q => q < p := by
  have htotal : Std.Total fun p q : Int => q ≤ p := ⟨fun p q => Int.le_total q p⟩
  have htrans : IsTrans Int fun p q => q ≤ p := ⟨fun p q r hpq hqr => Int.le_trans hqr hpq⟩
  have hsorted : (prioritiesOf claims).Pairwise fun p q => q ≤ p := List.pairwise_insertionSort _ _
  have hnd : (prioritiesOf claims).Nodup :=
    (List.perm_insertionSort _ _).nodup_iff.2 (List.nodup_dedup _)
  exact hsorted.imp₂ (fun p q hle hne => lt_of_le_of_ne hle (Ne.symm hne)) hnd

theorem mem_groupOf {claims : List ContextBudgetClaim} {priority : Int}
    {claim : ContextBudgetClaim} :
    claim ∈ groupOf claims priority ↔ claim ∈ claims ∧ claim.priority = priority := by
  simp [groupOf]

/-! ## One group after the other

While the loop runs, the claims whose priority is still waiting hold their minimum and all
others what they desire. -/

/-- What the loop has done before the priorities `waiting`. -/
structure Funded (claims : List ContextBudgetClaim) (waiting : List Int)
    (allocations : Dict RequiredText Nat) : Prop where
  keys : allocations.keys = claims.map (·.name)
  least : ∀ claim ∈ claims, claim.priority ∈ waiting →
    allocations.get? claim.name = some claim.minimumTokens
  full : ∀ claim ∈ claims, claim.priority ∉ waiting →
    allocations.get? claim.name = some claim.desiredTokens
  above : ∀ claim ∈ claims, claim.priority ∉ waiting → ∀ priority ∈ waiting,
    priority < claim.priority

/-- What a division of `available` tokens among claims owes them. -/
structure Allocated (claims : List ContextBudgetClaim) (available : Nat)
    (allocations : Dict RequiredText Nat) : Prop where
  keys : allocations.keys = claims.map (·.name)
  bounds : ∀ claim ∈ claims, ∃ tokens, allocations.get? claim.name = some tokens ∧
    claim.minimumTokens ≤ tokens ∧ tokens ≤ claim.desiredTokens
  sum : allocations.values.sum = min available (claims.map (·.desiredTokens)).sum
  priority : ∀ claim ∈ claims, ∀ higher ∈ claims, claim.priority < higher.priority →
    claim.minimumTokens < (allocations.get? claim.name).getD 0 →
    allocations.get? higher.name = some higher.desiredTokens

section
variable {claims : List ContextBudgetClaim} {priority : Int} {waiting : List Int}
variable {allocations : Dict RequiredText Nat} {shares : List Nat} {remaining available : Nat}

omit py in
/-- A claim of the group and the share it gets. -/
theorem exists_share {group : List ContextBudgetClaim} (hlength : shares.length = group.length)
    {claim : ContextBudgetClaim} (h : claim ∈ group) :
    ∃ i share : Nat, group[i]? = some claim ∧ shares[i]? = some share ∧
      (claim.name, share) ∈ (group.map (·.name)).zip shares := by
  obtain ⟨i, hi, rfl⟩ := List.mem_iff_getElem.1 h
  have hshare : i < shares.length := by omega
  refine ⟨i, shares[i], List.getElem?_eq_getElem hi, List.getElem?_eq_getElem hshare, ?_⟩
  rw [List.mem_iff_getElem]
  exact ⟨i, by simpa using ⟨hi, hshare⟩, by simp⟩

theorem map_fst_shares {group : List ContextBudgetClaim} (hlength : shares.length = group.length) :
    ((group.map (·.name)).zip shares).map Prod.fst = group.map (·.name) := by
  rw [List.map_fst_zip]
  simp [hlength]

variable (hnames : (claims.map (·.name)).Nodup)

section
include hnames

theorem eq_of_name_eq {claim other : ContextBudgetClaim} (hclaim : claim ∈ claims)
    (hother : other ∈ claims) (h : claim.name = other.name) : claim = other :=
  List.inj_on_of_nodup_map hnames hclaim hother h

theorem nodup_groupOf (priority : Int) : ((groupOf claims priority).map (·.name)).Nodup :=
  (List.filter_sublist.map _).nodup hnames

/-- Claims outside the group keep what they have. -/
theorem get?_addShares_of_ne (hlength : shares.length = (groupOf claims priority).length)
    {claim : ContextBudgetClaim} (hclaim : claim ∈ claims) (hne : claim.priority ≠ priority) :
    (addShares allocations (groupOf claims priority) shares).get? claim.name =
      allocations.get? claim.name := by
  refine Dict.get?_credit_of_not_mem ?_
  rw [map_fst_shares hlength]
  intro h
  obtain ⟨other, hother, hname⟩ := List.mem_map.1 h
  obtain ⟨hmem, hpriority⟩ := mem_groupOf.1 hother
  rw [eq_of_name_eq hnames hmem hclaim hname] at hpriority
  exact hne hpriority

/-- A claim of the group gets its share on top of what it has. -/
theorem get?_addShares_of_mem (hlength : shares.length = (groupOf claims priority).length)
    {claim : ContextBudgetClaim} {share : Nat}
    (h : (claim.name, share) ∈ ((groupOf claims priority).map (·.name)).zip shares) :
    (addShares allocations (groupOf claims priority) shares).get? claim.name =
      some ((allocations.get? claim.name).getD 0 + share) := by
  refine Dict.get?_credit_of_mem ?_ h
  rw [map_fst_shares hlength]
  exact nodup_groupOf hnames priority

end

theorem sum_addShares (hlength : shares.length = (groupOf claims priority).length) :
    (addShares allocations (groupOf claims priority) shares).values.sum =
      allocations.values.sum + shares.sum := by
  rw [addShares, Dict.sum_values_credit, List.map_snd_zip]
  simp [hlength]

namespace Funded

/-- The sum over all claims is at most what they desire. -/
theorem sum_desired (h : ∀ claim ∈ claims, ∃ tokens, allocations.get? claim.name = some tokens ∧
    tokens ≤ claim.desiredTokens) (hkeys : allocations.keys = claims.map (·.name)) :
    allocations.values.sum ≤ (claims.map (·.desiredTokens)).sum := by
  have hvalues : allocations.values =
      claims.map fun claim => (allocations.get? claim.name).getD 0 := by
    refine Dict.values_eq_map hkeys ?_
    intro claim hclaim
    obtain ⟨tokens, htokens, -⟩ := h claim hclaim
    rw [htokens]
    rfl
  rw [hvalues]
  refine List.sum_le_sum ?_
  intro claim hclaim
  obtain ⟨tokens, htokens, hle⟩ := h claim hclaim
  rw [htokens]
  exact hle

/-- Every claim lies between its minimum and what it desires, whatever is still waiting. -/
theorem bounds (h : Funded claims waiting allocations) : ∀ claim ∈ claims, ∃ tokens,
    allocations.get? claim.name = some tokens ∧ claim.minimumTokens ≤ tokens ∧
      tokens ≤ claim.desiredTokens := by
  intro claim hclaim
  by_cases hwaiting : claim.priority ∈ waiting
  · exact ⟨_, h.least claim hclaim hwaiting, le_rfl, claim.minimum_le_desired⟩
  · exact ⟨_, h.full claim hclaim hwaiting, claim.minimum_le_desired, le_rfl⟩

theorem mem_keys (h : Funded claims waiting allocations)
    (hlength : shares.length = (groupOf claims priority).length) :
    ∀ p ∈ ((groupOf claims priority).map (·.name)).zip shares, p.1 ∈ allocations.keys := by
  intro p hp
  have hname : p.1 ∈ (groupOf claims priority).map (·.name) := by
    rw [← map_fst_shares hlength]
    exact List.mem_map_of_mem hp
  rw [h.keys]
  exact (List.filter_sublist.map _).mem hname

/-- What a group still needs, before its turn. -/
theorem needsOf_eq (h : Funded claims (priority :: waiting) allocations) :
    needsOf allocations (groupOf claims priority) =
      (groupOf claims priority).map fun claim => claim.desiredTokens - claim.minimumTokens := by
  refine List.map_congr_left ?_
  intro claim hclaim
  obtain ⟨hmem, hpriority⟩ := mem_groupOf.1 hclaim
  rw [h.least claim hmem (hpriority ▸ List.mem_cons_self ..), Option.getD_some]

/-- The claims of other priorities are where they were, so funding a group is a matter of the
group. -/
theorem of_group (h : Funded claims (priority :: waiting) allocations)
    (hsorted : (priority :: waiting).Pairwise fun p q => q < p)
    {funded : Dict RequiredText Nat} (hkeys : funded.keys = allocations.keys)
    (hothers : ∀ claim ∈ claims, claim.priority ≠ priority →
      funded.get? claim.name = allocations.get? claim.name)
    (hgroup : ∀ claim ∈ claims, claim.priority = priority →
      funded.get? claim.name = some claim.desiredTokens) : Funded claims waiting funded := by
  obtain ⟨hbelow, -⟩ := List.pairwise_cons.1 hsorted
  refine ⟨hkeys.trans h.keys, ?_, ?_, ?_⟩
  · intro claim hclaim hwaiting
    have hne : claim.priority ≠ priority := (hbelow _ hwaiting).ne
    rw [hothers claim hclaim hne]
    exact h.least claim hclaim (List.mem_cons_of_mem _ hwaiting)
  · intro claim hclaim hwaiting
    by_cases heq : claim.priority = priority
    · exact hgroup claim hclaim heq
    · rw [hothers claim hclaim heq]
      exact h.full claim hclaim (List.not_mem_cons_of_ne_of_not_mem heq hwaiting)
  · intro claim hclaim hwaiting other hother
    by_cases heq : claim.priority = priority
    · rw [heq]
      exact hbelow other hother
    · exact h.above claim hclaim (List.not_mem_cons_of_ne_of_not_mem heq hwaiting) other
        (List.mem_cons_of_mem _ hother)

/-- A group that needs nothing has all it desires. -/
theorem skip (h : Funded claims (priority :: waiting) allocations)
    (hsorted : (priority :: waiting).Pairwise fun p q => q < p)
    (hneeds : (needsOf allocations (groupOf claims priority)).sum = 0) :
    Funded claims waiting allocations := by
  refine h.of_group hsorted rfl (fun _ _ _ => rfl) ?_
  intro claim hclaim hpriority
  rw [h.needsOf_eq] at hneeds
  have hzero : claim.desiredTokens - claim.minimumTokens = 0 :=
    List.sum_eq_zero_iff_forall_eq_nat.1 hneeds _
      (List.mem_map.2 ⟨claim, mem_groupOf.2 ⟨hclaim, hpriority⟩, rfl⟩)
  have hle := claim.minimum_le_desired
  rw [h.least claim hclaim (hpriority ▸ List.mem_cons_self ..)]
  congr 1
  omega

include hnames in
/-- A group that gets all it needs has all it desires. -/
theorem fund (h : Funded claims (priority :: waiting) allocations)
    (hsorted : (priority :: waiting).Pairwise fun p q => q < p) :
    Funded claims waiting (addShares allocations (groupOf claims priority)
      (needsOf allocations (groupOf claims priority))) := by
  have hlength : (needsOf allocations (groupOf claims priority)).length =
      (groupOf claims priority).length := List.length_map ..
  refine h.of_group hsorted (Dict.keys_credit (h.mem_keys hlength)) ?_ ?_
  · intro claim hclaim hne
    exact get?_addShares_of_ne hnames hlength hclaim hne
  · intro claim hclaim hpriority
    obtain ⟨i, share, hi, hshare, hmem⟩ :=
      exists_share hlength (mem_groupOf.2 ⟨hclaim, hpriority⟩)
    rw [h.needsOf_eq, List.getElem?_map, hi, Option.map_some, Option.some.injEq] at hshare
    have hle := claim.minimum_le_desired
    rw [get?_addShares_of_mem hnames hlength hmem,
      h.least claim hclaim (hpriority ▸ List.mem_cons_self ..), Option.getD_some]
    congr 1
    omega

include hnames in
/-- The group that takes the rest of the pool. -/
theorem share (h : Funded claims (priority :: waiting) allocations)
    (hsorted : (priority :: waiting).Pairwise fun p q => q < p)
    (hsum : allocations.values.sum + remaining = available)
    (hless : remaining < (needsOf allocations (groupOf claims priority)).sum) :
    Allocated claims available (addShares allocations (groupOf claims priority)
      (proportionalShares (needsOf allocations (groupOf claims priority)) remaining)) := by
  obtain ⟨hbelow, -⟩ := List.pairwise_cons.1 hsorted
  have hneeds : (needsOf allocations (groupOf claims priority)).length =
      (groupOf claims priority).length := List.length_map ..
  have hlength := (length_proportionalShares
    (needsOf allocations (groupOf claims priority)) remaining).trans hneeds
  have hkeys : (addShares allocations (groupOf claims priority) (proportionalShares
      (needsOf allocations (groupOf claims priority)) remaining)).keys = claims.map (·.name) :=
    (Dict.keys_credit (h.mem_keys hlength)).trans h.keys
  have hbounds : ∀ claim ∈ claims, ∃ tokens,
      (addShares allocations (groupOf claims priority) (proportionalShares
        (needsOf allocations (groupOf claims priority)) remaining)).get? claim.name = some tokens ∧
      claim.minimumTokens ≤ tokens ∧ tokens ≤ claim.desiredTokens := by
    intro claim hclaim
    by_cases hpriority : claim.priority = priority
    · obtain ⟨i, share, hi, hshare, hmem⟩ :=
        exists_share hlength (mem_groupOf.2 ⟨hclaim, hpriority⟩)
      have hneed : (needsOf allocations (groupOf claims priority))[i]? =
          some (claim.desiredTokens - claim.minimumTokens) := by
        rw [h.needsOf_eq, List.getElem?_map, hi, Option.map_some]
      have hle : share ≤ claim.desiredTokens - claim.minimumTokens :=
        proportionalShares_le hless hneed hshare
      have hminimum := claim.minimum_le_desired
      refine ⟨_, get?_addShares_of_mem hnames hlength hmem, ?_, ?_⟩
      all_goals
        rw [h.least claim hclaim (hpriority ▸ List.mem_cons_self ..), Option.getD_some]
        omega
    · obtain ⟨tokens, htokens, hbetween⟩ := h.bounds claim hclaim
      exact ⟨tokens, (get?_addShares_of_ne hnames hlength hclaim hpriority).trans htokens, hbetween⟩
  have hspent : (addShares allocations (groupOf claims priority) (proportionalShares
      (needsOf allocations (groupOf claims priority)) remaining)).values.sum = available := by
    rw [sum_addShares hlength, sum_proportionalShares (Nat.zero_lt_of_lt hless), hsum]
  refine ⟨hkeys, hbounds, ?_, ?_⟩
  · have hle := sum_desired (fun claim hclaim => (hbounds claim hclaim).imp
      fun tokens ht => ⟨ht.1, ht.2.2⟩) hkeys
    rw [hspent] at hle ⊢
    exact (Nat.min_eq_left hle).symm
  · intro claim hclaim higher hhigher hlt hmore
    -- whoever is above its minimum is not waiting, so the higher claim is past its turn
    have hnot : higher.priority ∉ priority :: waiting := by
      intro hwaiting
      by_cases hgroup : claim.priority = priority
      · rcases List.mem_cons.1 hwaiting with heq | hmem
        · omega
        · have := hbelow _ hmem
          omega
      · rw [get?_addShares_of_ne hnames hlength hclaim hgroup] at hmore
        by_cases hclaimed : claim.priority ∈ priority :: waiting
        · rw [h.least claim hclaim hclaimed, Option.getD_some] at hmore
          omega
        · have := h.above claim hclaim hclaimed _ hwaiting
          omega
    have hne : higher.priority ≠ priority := fun heq => hnot (heq ▸ List.mem_cons_self ..)
    rw [get?_addShares_of_ne hnames hlength hhigher hne]
    exact h.full higher hhigher hnot

/-- Nothing is waiting any more. -/
theorem finish (h : Funded claims [] allocations) (hsum : allocations.values.sum ≤ available) :
    Allocated claims available allocations := by
  have hfull : ∀ claim ∈ claims, allocations.get? claim.name = some claim.desiredTokens :=
    fun claim hclaim => h.full claim hclaim (List.not_mem_nil)
  have hvalues := Dict.values_eq_map h.keys hfull
  refine ⟨h.keys, h.bounds, ?_, fun _ _ higher hhigher _ _ => hfull higher hhigher⟩
  rw [hvalues] at hsum ⊢
  exact (Nat.min_eq_right hsum).symm

end Funded

include hnames in
/-- **The loop** divides what is left of the pool. -/
theorem allocated_of_fundPriorities (h : Funded claims waiting allocations)
    (hsorted : waiting.Pairwise fun p q => q < p)
    (hsum : allocations.values.sum + remaining = available) :
    Allocated claims available (fundPriorities claims waiting allocations remaining) := by
  induction waiting generalizing allocations remaining with
  | nil => exact h.finish (by omega)
  | cons priority waiting ih =>
    obtain ⟨-, hrest⟩ := List.pairwise_cons.1 hsorted
    unfold fundPriorities
    dsimp only
    split
    · rename_i hzero
      exact ih (h.skip hsorted hzero) hrest hsum
    · split
      · rename_i hfits
        refine ih (h.fund hnames hsorted) hrest ?_
        have hspent : (addShares allocations (groupOf claims priority)
            (needsOf allocations (groupOf claims priority))).values.sum = allocations.values.sum +
            (needsOf allocations (groupOf claims priority)).sum :=
          sum_addShares (List.length_map ..)
        omega
      · rename_i hless
        exact h.share hnames hsorted hsum (not_le.1 hless)

include hnames in
/-- `_allocate_claims` divides the pool among the claims when it covers their minimums, and raises
otherwise. -/
theorem allocateClaims_cases (available : Nat) :
    (claims.map (·.minimumTokens)).sum ≤ available ∧
        (∃ allocations, allocateClaims claims available = .ok allocations ∧
          Allocated claims available allocations) ∨
      available < (claims.map (·.minimumTokens)).sum ∧
        ∃ e, allocateClaims claims available = .error e := by
  by_cases hless : available < (claims.map (·.minimumTokens)).sum
  · cases claims with
    | nil => exact absurd hless (Nat.not_lt_zero _)
    | cons claim claims => exact Or.inr ⟨hless, _, if_pos hless⟩
  · refine Or.inl ⟨not_lt.1 hless, ?_⟩
    cases hclaims : claims with
    | nil => exact ⟨Dict.empty, rfl, rfl, by simp, by simp, by simp⟩
    | cons claim others =>
      rw [← hclaims]
      have hentries : (claims.map fun claim => (claim.name, claim.minimumTokens)).map Prod.fst =
          claims.map (·.name) := by
        rw [List.map_map]
        rfl
      have hdistinct : ((claims.map fun claim => (claim.name, claim.minimumTokens)).map
          Prod.fst).Nodup := hentries ▸ hnames
      have hkeys : (Dict.empty.extend (claims.map fun claim =>
          (claim.name, claim.minimumTokens))).keys = claims.map (·.name) := by
        rw [Dict.keys, Dict.entries_extend hdistinct (by simp)]
        exact hentries
      have hget : ∀ claim ∈ claims, (Dict.empty.extend (claims.map fun claim =>
          (claim.name, claim.minimumTokens))).get? claim.name = some claim.minimumTokens := by
        intro claim hclaim
        exact Dict.get?_extend_of_mem hdistinct (List.mem_map.2 ⟨claim, hclaim, rfl⟩)
      have hfunded : Funded claims (prioritiesOf claims) (Dict.empty.extend
          (claims.map fun claim => (claim.name, claim.minimumTokens))) := by
        refine ⟨hkeys, fun claim hclaim _ => hget claim hclaim, ?_, ?_⟩
        all_goals
          intro claim hclaim hwaiting
          exact absurd (mem_prioritiesOf.2 ⟨claim, hclaim, rfl⟩) hwaiting
      have hsum : (Dict.empty.extend (claims.map fun claim =>
          (claim.name, claim.minimumTokens))).values.sum +
          (available - (claims.map (·.minimumTokens)).sum) = available := by
        rw [Dict.values_eq_map hkeys hget]
        exact Nat.add_sub_of_le (not_lt.1 hless)
      refine ⟨_, ?_, allocated_of_fundPriorities hnames hfunded (pairwise_prioritiesOf claims) hsum⟩
      unfold allocateClaims
      rw [hclaims]
      exact if_neg (hclaims ▸ hless)

end

/-! ## The budget -/

namespace ContextBudget

/-- The constructor reads back allocations under checked names. -/
theorem readAllocations_entries (allocations : Dict RequiredText Nat) :
    readAllocations (allocations.entries.map fun entry => (entry.1.text, (entry.2 : Int))) =
      .ok allocations := by
  have hfold : ∀ (entries : List (RequiredText × Nat)) (start : Dict RequiredText Nat),
      (entries.map fun entry => (entry.1.text, (entry.2 : Int))).foldlM (fun allocations entry => do
        let name ← RequiredText.of entry.1 "context allocation name"
        let tokens ← nonNegativeInt entry.2 "context allocation tokens"
        .ok (allocations.set name tokens)) start =
      (.ok (start.extend entries) : Except PyError (Dict RequiredText Nat)) := by
    intro entries
    induction entries with
    | nil => exact fun _ => rfl
    | cons entry entries ih =>
      intro start
      simp only [List.map_cons, List.foldlM_cons, RequiredText.of_text, nonNegativeInt_nat, ok_bind]
      exact ih _
  unfold readAllocations
  rw [hfold]
  congr 1
  refine Dict.ext ?_
  rw [Dict.entries_extend allocations.nodup_keys (by simp)]
  rfl

/-- The constructor takes quantities that fit the window. -/
theorem of_nat {window output safety runtime schemas input minimum : Nat}
    {allocations : Dict RequiredText Nat} (hwindow : 0 < window)
    (hfixed : output + safety + runtime + schemas + input ≤ window)
    (hinput : allocations.values.sum + minimum ≤ input) :
    ContextBudget.of ⟨window, output, safety, runtime, schemas, input, minimum,
        allocations.entries.map fun entry => (entry.1.text, (entry.2 : Int))⟩ =
      .ok ⟨window, output, safety, runtime, schemas, input, minimum, allocations, hwindow, hfixed,
        hinput⟩ := by
  have hpositive := positiveInt_nat hwindow "window_tokens"
  unfold ContextBudget.of
  split
  · rename_i e he
    rw [hpositive] at he
    cases he
  · rename_i window' hwindow'
    rw [hpositive] at hwindow'
    cases hwindow'
    simp only [nonNegativeInt_nat, readAllocations_entries, ok_bind, dif_neg (not_lt.2 hfixed),
      dif_neg (not_lt.2 hinput)]

end ContextBudget

/-- `max_generation_tokens_for_context` is what the reserves leave of the window. -/
theorem maxGenerationTokensForContext_eq_ok {args : ReserveArgs} {maximum : Nat} :
    maxGenerationTokensForContext py args = .ok maximum ↔ ∃ reserves,
      fixedContextReserves py args = .ok reserves ∧ 0 < maximum ∧
        args.windowTokens = maximum + reserves.total := by
  unfold maxGenerationTokensForContext FixedReserves.total
  dsimp only
  by_cases hwindow : args.windowTokens ≤ 0
  · have hreject : rejectIf (args.windowTokens ≤ 0)
        (.valueError "context window must be positive") = .error _ := if_pos hwindow
    rw [hreject]
    refine iff_of_false (by rintro ⟨⟩) ?_
    rintro ⟨reserves, -, hpos, heq⟩
    omega
  · rw [rejectIf_of_not hwindow, ok_bind]
    cases hfixed : fixedContextReserves py args with
    | error e =>
      refine iff_of_false (by rintro ⟨⟩) ?_
      rintro ⟨reserves, heq, -⟩
      cases heq
    | ok reserves =>
      rw [ok_bind]
      split
      · refine iff_of_false (by rintro ⟨⟩) ?_
        rintro ⟨reserves, heq, hpos, hsum⟩
        cases heq
        push_cast at hsum
        omega
      · constructor
        · intro h
          cases h
          refine ⟨reserves, rfl, by omega, ?_⟩
          push_cast
          omega
        · rintro ⟨reserves, heq, hpos, hsum⟩
          cases heq
          push_cast at hsum
          congr 1
          omega

section
variable {args : ReserveArgs} {output : Int} {claims : List ContextBudgetClaim}

/-- The allocation of an output and a pool that together with the reserves make up the window. -/
theorem exists_allocateContextBudget {reserves : FixedReserves} {pool : Nat}
    (hreserves : fixedContextReserves py args = .ok reserves) (houtput : 0 < output)
    (hwindow : args.windowTokens = output + reserves.total + pool)
    (hnames : (claims.map (·.name)).Nodup)
    (hminimum : (claims.map (·.minimumTokens)).sum ≤ pool) :
    ∃ budget, allocateContextBudget py args output claims = .ok budget ∧
      Allocated claims pool budget.contextAllocations ∧ budget.contextPoolTokens = pool := by
  obtain ⟨n, rfl⟩ : ∃ n : Nat, output = n := ⟨output.toNat, by omega⟩
  unfold FixedReserves.total at hwindow
  push_cast at hwindow
  have htotal : args.windowTokens = (n + reserves.safety + reserves.runtime +
      reserves.schemaTokens + (reserves.minimum + pool) : Nat) := by
    push_cast
    omega
  have hprovider : args.windowTokens - n - reserves.safety - reserves.runtime -
      reserves.schemaTokens = (reserves.minimum + pool : Nat) := by
    push_cast
    omega
  have hpool : ((reserves.minimum + pool : Nat) - reserves.minimum : Int).toNat = pool := by omega
  have hpositive : 0 < n + reserves.safety + reserves.runtime + reserves.schemaTokens +
      (reserves.minimum + pool) := by omega
  rcases allocateClaims_cases hnames pool with ⟨-, allocations, hallocate, hall⟩ | ⟨hless, -⟩
  · have hinput : allocations.values.sum + reserves.minimum ≤ reserves.minimum + pool := by
      have hle := hall.sum.trans_le (Nat.min_le_left ..)
      omega
    refine ⟨⟨_, n, _, _, _, _, _, allocations, hpositive, Nat.le_refl _, hinput⟩, ?_, hall,
      Nat.add_sub_cancel_left ..⟩
    have hwide : ¬ args.windowTokens ≤ 0 := by omega
    have hsome : ¬ (n : Int) ≤ 0 := by omega
    have hfits : ¬ ((reserves.minimum + pool : Nat) : Int) < reserves.minimum := by omega
    unfold allocateContextBudget validateContextClaims
    dsimp only
    rw [rejectIf_of_not hwide, ok_bind, rejectIf_of_not hsome, ok_bind, hreserves, ok_bind,
      hprovider, rejectIf_of_not hfits, ok_bind, if_pos hnames, ok_bind, hpool, hallocate, ok_bind,
      htotal]
    exact ContextBudget.of_nat hpositive (Nat.le_refl _) hinput
  · omega

/-- What an allocation that returned went through. -/
theorem of_allocateContextBudget {budget : ContextBudget}
    (h : allocateContextBudget py args output claims = .ok budget) : ∃ reserves pool,
      fixedContextReserves py args = .ok reserves ∧ 0 < output ∧
      args.windowTokens = output + reserves.total + (pool : Nat) ∧ (claims.map (·.name)).Nodup ∧
      (claims.map (·.minimumTokens)).sum ≤ pool := by
  unfold allocateContextBudget at h
  obtain ⟨_, hwindow, h⟩ := bind_eq_ok h
  obtain ⟨_, houtput, h⟩ := bind_eq_ok h
  obtain ⟨reserves, hreserves, h⟩ := bind_eq_ok h
  obtain ⟨_, hinput, h⟩ := bind_eq_ok h
  obtain ⟨valid, hvalid, h⟩ := bind_eq_ok h
  obtain ⟨allocations, hallocate, h⟩ := bind_eq_ok h
  rw [rejectIf_eq_ok] at hwindow houtput hinput
  unfold validateContextClaims at hvalid
  split at hvalid
  · rename_i hnames
    cases hvalid
    refine ⟨reserves, (args.windowTokens - output - reserves.safety - reserves.runtime -
      reserves.schemaTokens - reserves.minimum).toNat, hreserves, not_le.1 houtput, ?_, hnames, ?_⟩
    · unfold FixedReserves.total
      push_cast
      omega
    · rcases allocateClaims_cases hnames _ with ⟨hle, -⟩ | ⟨-, e, he⟩
      · exact hle
      · rw [he] at hallocate
        cases hallocate
  · cases hvalid

end

/-- **Context budget allocation.**  A budget that was allocated divides its pool among the claims:
each gets between its minimum and what it desires, together they get the smaller of the pool and
what they desire together, and none gets more than its minimum while a claim of higher priority
wants for anything.  And an allocation is made exactly for the positive outputs up to
`max_generation_tokens_for_context` whose pool covers the minimums of the claims, which bear
distinct names: the budget that comes out is one its constructor takes. -/
theorem allocateContextBudget_spec (args : ReserveArgs) (output : Int)
    (claims : List ContextBudgetClaim) :
    (∀ budget, allocateContextBudget py args output claims = .ok budget →
      Allocated claims budget.contextPoolTokens budget.contextAllocations) ∧
    ((∃ budget, allocateContextBudget py args output claims = .ok budget) ↔
      ∃ maximum, maxGenerationTokensForContext py args = .ok maximum ∧ 0 < output ∧
        output ≤ maximum ∧ (claims.map (·.name)).Nodup ∧
        ((claims.map (·.minimumTokens)).sum : Nat) ≤ (maximum : Int) - output) := by
  constructor
  · intro budget h
    obtain ⟨reserves, pool, hreserves, houtput, hwindow, hnames, hminimum⟩ :=
      of_allocateContextBudget py h
    obtain ⟨budget', h', hall, hpool⟩ :=
      exists_allocateContextBudget py hreserves houtput hwindow hnames hminimum
    rw [h] at h'
    cases h'
    exact hpool ▸ hall
  · constructor
    · rintro ⟨budget, h⟩
      obtain ⟨reserves, pool, hreserves, houtput, hwindow, hnames, hminimum⟩ :=
        of_allocateContextBudget py h
      refine ⟨output.toNat + pool, (maxGenerationTokensForContext_eq_ok py).2
        ⟨reserves, hreserves, by omega, ?_⟩, houtput, by omega, hnames, by omega⟩
      push_cast
      omega
    · rintro ⟨maximum, hmaximum, houtput, hle, hnames, hminimum⟩
      obtain ⟨reserves, hreserves, -, hwindow⟩ := (maxGenerationTokensForContext_eq_ok py).1 hmaximum
      have hrest : args.windowTokens =
          output + reserves.total + (((maximum - output).toNat : Nat) : Int) := by omega
      obtain ⟨budget, h, -⟩ :=
        exists_allocateContextBudget py hreserves houtput hrest hnames (by omega)
      exact ⟨budget, h⟩

/-- A window without reserves. -/
def bareWindow (tokens : Int) : ReserveArgs := ⟨tokens, [], some 0, some 0, some 0⟩

/-- Two sources of one priority above a third. -/
def threeClaims : List ContextBudgetClaim :=
  [⟨.lit "notes", 10, 1, 10, 1, by decide, by decide⟩,
    ⟨.lit "files", 10, 1, 10, 1, by decide, by decide⟩,
    ⟨.lit "hints", 5, 2, 5, 0, by decide, by decide⟩]

/-- Eleven tokens above the minimums go to the two claims of the higher priority. -/
theorem allocateContextBudget_threeClaims : ∃ budget,
    allocateContextBudget noBuiltins (bareWindow 20) 5 threeClaims = .ok budget ∧
      budget.contextAllocations.values = [7, 6, 2] ∧
      Allocated threeClaims budget.contextPoolTokens budget.contextAllocations := by
  have hvalues : (allocateContextBudget noBuiltins (bareWindow 20) 5 threeClaims).toOption.map
      (fun budget => budget.contextAllocations.values) = some [7, 6, 2] := by decide +kernel
  cases h : allocateContextBudget noBuiltins (bareWindow 20) 5 threeClaims with
  | error e =>
    rw [h] at hvalues
    cases hvalues
  | ok budget =>
    rw [h] at hvalues
    exact ⟨budget, rfl, Option.some.inj hvalues,
      (allocateContextBudget_spec noBuiltins (bareWindow 20) 5 threeClaims).1 budget h⟩

/-- An output well below the maximum is refused when a claim's minimum exceeds what it leaves. -/
theorem allocation_refused_below_maximum :
    maxGenerationTokensForContext noBuiltins (bareWindow 10) = .ok 10 ∧
    ¬ ∃ budget, allocateContextBudget noBuiltins (bareWindow 10) 5
      [⟨.lit "notes", 6, 6, 6, 0, by decide, by decide⟩] = .ok budget := by
  refine ⟨by rfl, ?_⟩
  rintro ⟨budget, h⟩
  have hrefused : (allocateContextBudget noBuiltins (bareWindow 10) 5
      [⟨.lit "notes", 6, 6, 6, 0, by decide, by decide⟩]).toOption.isNone = true := by
    decide +kernel
  rw [h] at hrefused
  cases hrefused

end Purra.Context
