import Purra.Core.Normalization

/-!
# The output budget of an invocation

How much one model invocation may generate (`purra/model_protocol/output_limits.py`).  A budget
is resolved from the model's profile, the limit the user asked for and the capacity a workflow
needs; it may then be constrained to what the context leaves, any number of times.

* `InvocationOutputBudget` — with the checks of its constructor as a field.
* `resolveInvocationOutputBudget`, `constrainOutputBudgetToContext`,
  `requireOutputBudgetMatchesRequest` — the three entry points.
* `constrainOutputBudgetToContext_cases` — what a constraint does: it raises, leaves the budget
  alone, or lowers what may be generated and nothing else.
* `output_budgets_compose` — **constrained budgets still match the request**, two constraints are
  the smaller one, and no constraint raises a limit.
-/

namespace Purra.ModelProtocol

/-- `GenerationBudgetSource`. -/
inductive GenerationBudgetSource where
  | user | modelProfile | contextCapacity
  deriving DecidableEq, Repr

/-- `ResultCapacitySource`. -/
inductive ResultCapacitySource where
  | user | workflowPolicy
  deriving DecidableEq, Repr

/-- `ModelCapabilitySnapshot`, as far as output budgets read it. -/
structure ModelCapabilitySnapshot where
  maxGenerationTokens : Option Nat
  generation_pos : ∀ n, maxGenerationTokens = some n → 0 < n

/-! ## The budget -/

/-- The fields of `InvocationOutputBudget`. -/
structure OutputBudgetFields where
  maxGenerationTokens : Nat
  generationSource : GenerationBudgetSource
  profileMaxGenerationTokens : Nat
  requestedUserMaxGenerationTokens : Option Nat
  resultCapacityTargetTokens : Option Nat
  resultCapacitySource : Option ResultCapacitySource
  deriving DecidableEq, Repr

/-- What `InvocationOutputBudget.__post_init__` lets through. -/
structure OutputBudgetFields.Valid (fields : OutputBudgetFields) : Prop where
  max_pos : 0 < fields.maxGenerationTokens
  max_le_profile : fields.maxGenerationTokens ≤ fields.profileMaxGenerationTokens
  requested : ∀ n, fields.requestedUserMaxGenerationTokens = some n →
    n ≤ fields.profileMaxGenerationTokens ∧ fields.maxGenerationTokens ≤ n
  user : fields.generationSource = .user →
    fields.requestedUserMaxGenerationTokens = some fields.maxGenerationTokens
  model_profile : fields.generationSource = .modelProfile →
    fields.requestedUserMaxGenerationTokens = none
  target : ∀ n, fields.resultCapacityTargetTokens = some n →
    0 < n ∧ n ≤ fields.maxGenerationTokens
  source : fields.resultCapacitySource = none ↔ fields.resultCapacityTargetTokens = none

/-- `InvocationOutputBudget`. -/
structure InvocationOutputBudget extends OutputBudgetFields where
  valid : toOutputBudgetFields.Valid
  deriving DecidableEq, Repr

/-- The arguments of `InvocationOutputBudget`. -/
structure OutputBudgetArgs where
  maxGenerationTokens : Int
  generationSource : GenerationBudgetSource
  profileMaxGenerationTokens : Int
  requestedUserMaxGenerationTokens : Option Int := none
  resultCapacityTargetTokens : Option Int := none
  resultCapacitySource : Option ResultCapacitySource := none

/-- The part of `__post_init__` about the limit the user asked for. -/
def checkRequested (requested : Option Int) (source : GenerationBudgetSource)
    (maximum profile : Nat) : Except PyError (Option Nat) := do
  let requested ← optionalPositiveInt requested "requested user max generation tokens"
  rejectIf (requested.any (profile < ·) = true)
    (.valueError "requested user generation limit exceeds model profile")
  rejectIf (requested.any (· < maximum) = true)
    (.valueError "effective generation allowance exceeds the user limit")
  rejectIf (source = .user ∧ requested ≠ some maximum)
    (.valueError "user-limited generation requires the exact requested user limit")
  rejectIf (source = .modelProfile ∧ requested ≠ none)
    (.valueError "model-profile generation cannot discard a user limit")
  .ok requested

/-- The part of `__post_init__` about the capacity a workflow needs. -/
def checkTarget (target : Option Int) (source : Option ResultCapacitySource) (maximum : Nat) :
    Except PyError (Option Nat) :=
  match target with
  | some target => do
    let target ← positiveInt target "invocation result capacity target"
    rejectIf (maximum < target)
      (.valueError "result capacity target exceeds the generation budget")
    rejectIf (source = none) (.valueError "result capacity target requires its own source")
    .ok (some target)
  | none => do
    rejectIf (source ≠ none) (.valueError "result capacity source requires a target")
    .ok none

theorem checkRequested_eq_ok {requested : Option Int} {source : GenerationBudgetSource}
    {maximum profile : Nat} {r : Option Nat} :
    checkRequested requested source maximum profile = .ok r ↔
      optionalPositiveInt requested "requested user max generation tokens" = .ok r ∧
      (∀ n, r = some n → n ≤ profile ∧ maximum ≤ n) ∧
      (source = .user → r = some maximum) ∧ (source = .modelProfile → r = none) := by
  unfold checkRequested
  cases optionalPositiveInt requested "requested user max generation tokens" with
  | error e =>
    constructor
    · rintro ⟨⟩
    · rintro ⟨⟨⟩, -⟩
  | ok s =>
    rw [ok_bind]
    constructor
    · intro h
      obtain ⟨_, hprofile, h⟩ := bind_eq_ok h
      obtain ⟨_, hmaximum, h⟩ := bind_eq_ok h
      obtain ⟨_, huser, h⟩ := bind_eq_ok h
      obtain ⟨_, hmodel, h⟩ := bind_eq_ok h
      cases h
      rw [rejectIf_eq_ok] at hprofile hmaximum huser hmodel
      refine ⟨rfl, ?_, fun hs => not_not.1 fun hne => huser ⟨hs, hne⟩,
        fun hs => not_not.1 fun hne => hmodel ⟨hs, hne⟩⟩
      rintro n rfl
      simp only [Option.any_some, decide_eq_true_eq, Nat.not_lt] at hprofile hmaximum
      exact ⟨hprofile, hmaximum⟩
    · rintro ⟨hs, hlimit, huser, hmodel⟩
      obtain rfl : s = r := Except.ok.inj hs
      have hprofile : ¬ s.any (profile < ·) = true := by
        cases s with
        | none => simp
        | some n =>
          have hn := hlimit n rfl
          simpa using hn.1
      have hmaximum : ¬ s.any (· < maximum) = true := by
        cases s with
        | none => simp
        | some n =>
          have hn := hlimit n rfl
          simpa using hn.2
      rw [rejectIf_of_not hprofile, ok_bind, rejectIf_of_not hmaximum, ok_bind,
        rejectIf_of_not fun h => h.2 (huser h.1), ok_bind,
        rejectIf_of_not fun h => h.2 (hmodel h.1), ok_bind]

theorem checkTarget_eq_ok {target : Option Int} {source : Option ResultCapacitySource}
    {maximum : Nat} {t : Option Nat} :
    checkTarget target source maximum = .ok t ↔
      target = t.map (fun n : Nat => (n : Int)) ∧ (∀ n, t = some n → 0 < n ∧ n ≤ maximum) ∧
      (source = none ↔ t = none) := by
  unfold checkTarget
  cases target with
  | none =>
    constructor
    · intro h
      obtain ⟨_, hsource, h⟩ := bind_eq_ok h
      cases h
      rw [rejectIf_eq_ok, not_not] at hsource
      exact ⟨rfl, by rintro n ⟨⟩, by simp [hsource]⟩
    · rintro ⟨htarget, -, hsource⟩
      cases t with
      | some n => cases htarget
      | none => rw [rejectIf_of_not (not_not.2 (hsource.2 rfl)), ok_bind]
  | some n =>
    constructor
    · intro h
      obtain ⟨m, hpositive, h⟩ := bind_eq_ok h
      obtain ⟨_, hfits, h⟩ := bind_eq_ok h
      obtain ⟨_, hsource, h⟩ := bind_eq_ok h
      cases h
      rw [rejectIf_eq_ok] at hfits hsource
      have hpos := positiveInt_eq_ok hpositive
      unfold positiveInt at hpositive
      split at hpositive
      · cases hpositive
      · cases hpositive
        refine ⟨?_, ?_, by simp [hsource]⟩
        · rw [Option.map_some]
          congr 1
          omega
        · rintro k ⟨⟩
          exact ⟨hpos, Nat.not_lt.1 hfits⟩
    · rintro ⟨htarget, hlimit, hsource⟩
      cases t with
      | none => cases htarget
      | some m =>
        obtain rfl : n = m := Option.some.inj htarget
        obtain ⟨hpos, hle⟩ := hlimit m rfl
        have hgiven : ¬ source = none := fun h => by cases hsource.1 h
        dsimp only
        rw [positiveInt_nat hpos, ok_bind, rejectIf_of_not (Nat.not_lt.2 hle), ok_bind,
          rejectIf_of_not hgiven, ok_bind]

/-- `InvocationOutputBudget.__post_init__`. -/
def InvocationOutputBudget.of (args : OutputBudgetArgs) : Except PyError InvocationOutputBudget :=
  match hmaximum : positiveInt args.maxGenerationTokens "invocation max generation tokens" with
  | .error e => .error e
  | .ok maximum =>
    match positiveInt args.profileMaxGenerationTokens "profile max generation tokens" with
    | .error e => .error e
    | .ok profile =>
      if hprofile : profile < maximum then
        .error (.valueError "invocation generation budget exceeds model profile")
      else
        match hrequested : checkRequested args.requestedUserMaxGenerationTokens
            args.generationSource maximum profile with
        | .error e => .error e
        | .ok requested =>
          match htarget : checkTarget args.resultCapacityTargetTokens args.resultCapacitySource
              maximum with
          | .error e => .error e
          | .ok target =>
            .ok ⟨⟨maximum, args.generationSource, profile, requested, target,
              args.resultCapacitySource⟩,
              { max_pos := positiveInt_eq_ok hmaximum
                max_le_profile := Nat.not_lt.1 hprofile
                requested := (checkRequested_eq_ok.1 hrequested).2.1
                user := (checkRequested_eq_ok.1 hrequested).2.2.1
                model_profile := (checkRequested_eq_ok.1 hrequested).2.2.2
                target := (checkTarget_eq_ok.1 htarget).2.1
                source := (checkTarget_eq_ok.1 htarget).2.2 }⟩

/-! ## The entry points -/

/-- `except (TypeError, ValueError) as error`, raised again with the message. -/
def invalidBudget (message : PyError → String) (e : PyError) : PyError :=
  match e with
  | .valueError _ | .typeError _ =>
    .unsupportedModelFeature (message e) "model_output_budget_invalid" false
  | e => e

/-- `str(error)`. -/
def messageOf : PyError → String
  | .valueError message | .typeError message => message
  | _ => ""

/-- What `resolve_invocation_output_budget` takes as the allowance. -/
def generatedTokens (maxGenerationTokens : Option Int) (profileMaximum : Nat) :
    Except PyError Nat :=
  match maxGenerationTokens with
  | none => .ok profileMaximum
  | some n =>
    Except.mapError
      (invalidBudget fun _ => "invocation output budget values must be positive integers")
      (positiveInt n "maximum generated tokens")

/-- `resolve_invocation_output_budget`. -/
def resolveInvocationOutputBudget (snapshot : ModelCapabilitySnapshot)
    (maxGenerationTokens : Option Int) (generationSource : Option GenerationBudgetSource := none)
    (resultCapacityTargetTokens : Option Int := none)
    (resultCapacitySource : Option ResultCapacitySource := none) :
    Except PyError InvocationOutputBudget :=
  match snapshot.maxGenerationTokens with
  | none => .error (.unsupportedModelFeature
      "model profile does not declare a verified generation limit"
      "model_generation_limit_unknown" false)
  | some profileMaximum => do
    let generated ← generatedTokens maxGenerationTokens profileMaximum
    rejectIf (profileMaximum < generated) (.unsupportedModelFeature
      "generation budget exceeds the model profile maximum" "model_generation_limit_exceeded" false)
    let selectedSource := match maxGenerationTokens with
      | none => .modelProfile
      | some _ => generationSource.getD .user
    rejectIf (maxGenerationTokens = none ∧ generationSource ∉ [none, some .modelProfile])
      (.unsupportedModelFeature "generation source conflicts with the model-profile allowance"
        "model_output_budget_invalid" false)
    rejectIf (maxGenerationTokens ≠ none ∧ generationSource ∉ [none, some .user])
      (.unsupportedModelFeature "explicit generation allowance must be attributed to the user"
        "model_output_budget_invalid" false)
    Except.mapError (invalidBudget messageOf) (InvocationOutputBudget.of
      { maxGenerationTokens := generated
        generationSource := selectedSource
        profileMaxGenerationTokens := profileMaximum
        requestedUserMaxGenerationTokens := maxGenerationTokens.map fun _ => (generated : Int)
        resultCapacityTargetTokens
        resultCapacitySource })

/-- `constrain_output_budget_to_context`. -/
def constrainOutputBudgetToContext (budget : InvocationOutputBudget)
    (maxGenerationTokens : Int) : Except PyError InvocationOutputBudget := do
  let contextMaximum ← positiveInt maxGenerationTokens "context maximum generation tokens"
  if budget.maxGenerationTokens ≤ contextMaximum then .ok budget
  else
    let target := budget.resultCapacityTargetTokens
    if target.any (contextMaximum < ·) then
      .error (.unsupportedModelFeature
        "result capacity target does not fit the selected context window"
        "model_result_capacity_incompatible" false)
    else
      InvocationOutputBudget.of
        { maxGenerationTokens := contextMaximum
          generationSource := .contextCapacity
          profileMaxGenerationTokens := budget.profileMaxGenerationTokens
          requestedUserMaxGenerationTokens :=
            budget.requestedUserMaxGenerationTokens.map fun n : Nat => (n : Int)
          resultCapacityTargetTokens := target.map fun n : Nat => (n : Int)
          resultCapacitySource := budget.resultCapacitySource }

/-- `require_output_budget_matches_request`. -/
def requireOutputBudgetMatchesRequest (budget : InvocationOutputBudget)
    (snapshot : ModelCapabilitySnapshot) (requestedUserMaxGenerationTokens : Option Int) :
    Except PyError Unit := do
  rejectIf (some budget.profileMaxGenerationTokens ≠ snapshot.maxGenerationTokens)
    (.valueError "output budget model profile does not match the request")
  rejectIf (budget.requestedUserMaxGenerationTokens.map (fun n : Nat => (n : Int)) ≠
      requestedUserMaxGenerationTokens)
    (.valueError "output budget user limit does not match the request")
  let unconstrained := match requestedUserMaxGenerationTokens with
    | some n => some n
    | none => snapshot.maxGenerationTokens.map fun n : Nat => (n : Int)
  match unconstrained with
  | none => .error (.valueError "request model profile has no generation limit")
  | some unconstrained =>
    if budget.generationSource = .contextCapacity then
      rejectIf (unconstrained ≤ budget.maxGenerationTokens)
        (.valueError "context-limited budget must reduce the request allowance")
    else
      rejectIf ((budget.maxGenerationTokens : Int) ≠ unconstrained)
        (.valueError "output budget effective allowance does not match the request")

/-! ## The constructor -/

namespace InvocationOutputBudget

theorem ext {a b : InvocationOutputBudget} (h : a.toOutputBudgetFields = b.toOutputBudgetFields) :
    a = b := by
  cases a
  cases b
  cases h
  rfl

/-- The fields of a budget that was built. -/
theorem of_eq_ok {args : OutputBudgetArgs} {budget : InvocationOutputBudget}
    (h : of args = .ok budget) :
    positiveInt args.maxGenerationTokens "invocation max generation tokens" =
        .ok budget.maxGenerationTokens ∧
      budget.generationSource = args.generationSource ∧
      positiveInt args.profileMaxGenerationTokens "profile max generation tokens" =
        .ok budget.profileMaxGenerationTokens ∧
      optionalPositiveInt args.requestedUserMaxGenerationTokens
        "requested user max generation tokens" = .ok budget.requestedUserMaxGenerationTokens := by
  unfold of at h
  split at h
  · cases h
  · rename_i maximum hmaximum
    split at h
    · cases h
    · rename_i profile hprofile
      split at h
      · cases h
      · split at h
        · cases h
        · rename_i requested hrequested
          split at h
          · cases h
          · cases h
            exact ⟨hmaximum, rfl, hprofile, (checkRequested_eq_ok.1 hrequested).1⟩

theorem optionalPositiveInt_nat {requested : Option Nat} (h : ∀ n, requested = some n → 0 < n)
    (field : String) :
    optionalPositiveInt (requested.map fun n : Nat => (n : Int)) field = .ok requested := by
  cases requested with
  | none => rfl
  | some n =>
    show (positiveInt (n : Int) field).map some = .ok (some n)
    rw [positiveInt_nat (h n rfl)]
    rfl

/-- Fields that pass the checks make a budget. -/
theorem of_fields {fields : OutputBudgetFields} (hvalid : fields.Valid) :
    of ⟨fields.maxGenerationTokens, fields.generationSource, fields.profileMaxGenerationTokens,
      fields.requestedUserMaxGenerationTokens.map fun n : Nat => (n : Int),
      fields.resultCapacityTargetTokens.map fun n : Nat => (n : Int),
      fields.resultCapacitySource⟩ = .ok ⟨fields, hvalid⟩ := by
  have hmaximum := positiveInt_nat hvalid.max_pos "invocation max generation tokens"
  have hprofile := positiveInt_nat (Nat.lt_of_lt_of_le hvalid.max_pos hvalid.max_le_profile)
    "profile max generation tokens"
  have hrequested : checkRequested (fields.requestedUserMaxGenerationTokens.map
      fun n : Nat => (n : Int)) fields.generationSource fields.maxGenerationTokens
      fields.profileMaxGenerationTokens = .ok fields.requestedUserMaxGenerationTokens := by
    refine checkRequested_eq_ok.2 ⟨optionalPositiveInt_nat ?_ _, hvalid.requested, hvalid.user,
      hvalid.model_profile⟩
    intro n hn
    exact Nat.lt_of_lt_of_le hvalid.max_pos (hvalid.requested n hn).2
  have htarget : checkTarget (fields.resultCapacityTargetTokens.map fun n : Nat => (n : Int))
      fields.resultCapacitySource fields.maxGenerationTokens =
      .ok fields.resultCapacityTargetTokens :=
    checkTarget_eq_ok.2 ⟨rfl, hvalid.target, hvalid.source⟩
  unfold of
  split
  · rename_i e he
    rw [hmaximum] at he
    cases he
  · rename_i maximum hmaximum'
    rw [hmaximum] at hmaximum'
    cases hmaximum'
    dsimp only
    rw [hprofile]
    dsimp only
    rw [dif_neg (Nat.not_lt.2 hvalid.max_le_profile)]
    split
    · rename_i e he
      rw [hrequested] at he
      cases he
    · rename_i requested hrequested'
      rw [hrequested] at hrequested'
      cases hrequested'
      split
      · rename_i e he
        rw [htarget] at he
        cases he
      · rename_i target htarget'
        rw [htarget] at htarget'
        cases htarget'
        rfl

/-! ## One constraint -/

/-- The budget with a smaller allowance, and nothing else changed. -/
def lowered (budget : InvocationOutputBudget) (n : Nat) (hpos : 0 < n)
    (hlt : n < budget.maxGenerationTokens)
    (htarget : ∀ t, budget.resultCapacityTargetTokens = some t → t ≤ n) :
    InvocationOutputBudget where
  toOutputBudgetFields :=
    { budget.toOutputBudgetFields with
      maxGenerationTokens := n
      generationSource := .contextCapacity }
  valid :=
    { max_pos := hpos
      max_le_profile := Nat.le_trans (Nat.le_of_lt hlt) budget.valid.max_le_profile
      requested := fun m hm => ⟨(budget.valid.requested m hm).1,
        Nat.le_trans (Nat.le_of_lt hlt) (budget.valid.requested m hm).2⟩
      user := fun h => by cases h
      model_profile := fun h => by cases h
      target := fun t ht => ⟨(budget.valid.target t ht).1, htarget t ht⟩
      source := budget.valid.source }

end InvocationOutputBudget

section
variable {budget fitted : InvocationOutputBudget} {limit : Int} {n : Nat}

theorem constrain_of_nonpos (h : limit ≤ 0) (budget : InvocationOutputBudget) :
    constrainOutputBudgetToContext budget limit =
      .error (.valueError "context maximum generation tokens must be positive") := by
  unfold constrainOutputBudgetToContext positiveInt
  rw [if_pos h]
  rfl

/-- A limit that is no smaller than the allowance leaves the budget alone. -/
theorem constrain_of_le (h : budget.maxGenerationTokens ≤ n) :
    constrainOutputBudgetToContext budget n = .ok budget := by
  unfold constrainOutputBudgetToContext
  rw [positiveInt_nat (Nat.lt_of_lt_of_le budget.valid.max_pos h), ok_bind, if_pos h]

/-- A smaller limit that the capacity target exceeds is refused. -/
theorem constrain_of_target (hpos : 0 < n) (hlt : n < budget.maxGenerationTokens) {t : Nat}
    (ht : budget.resultCapacityTargetTokens = some t) (hlarge : n < t) :
    constrainOutputBudgetToContext budget n = .error (.unsupportedModelFeature
      "result capacity target does not fit the selected context window"
      "model_result_capacity_incompatible" false) := by
  unfold constrainOutputBudgetToContext
  rw [positiveInt_nat hpos, ok_bind, if_neg (Nat.not_le.2 hlt), ht]
  exact if_pos (by simpa using hlarge)

/-- A smaller limit that fits the capacity target becomes the allowance. -/
theorem constrain_of_lt (hpos : 0 < n) (hlt : n < budget.maxGenerationTokens)
    (htarget : ∀ t, budget.resultCapacityTargetTokens = some t → t ≤ n) :
    constrainOutputBudgetToContext budget n = .ok (budget.lowered n hpos hlt htarget) := by
  have hfits : ¬ (budget.resultCapacityTargetTokens.any (n < ·)) = true := by
    cases ht : budget.resultCapacityTargetTokens with
    | none => simp
    | some t =>
      have hle := htarget t ht
      simpa using hle
  unfold constrainOutputBudgetToContext
  rw [positiveInt_nat hpos, ok_bind, if_neg (Nat.not_le.2 hlt)]
  dsimp only
  rw [if_neg hfits]
  exact InvocationOutputBudget.of_fields (budget.lowered n hpos hlt htarget).valid

/-- **A constraint** is refused, leaves the budget alone, or lowers the allowance to the limit and
changes nothing else. -/
theorem constrainOutputBudgetToContext_cases (budget : InvocationOutputBudget) (limit : Int) :
    (limit ≤ 0 ∧ constrainOutputBudgetToContext budget limit =
        .error (.valueError "context maximum generation tokens must be positive")) ∨
    ∃ n : Nat, 0 < n ∧ limit = n ∧
      ((budget.maxGenerationTokens ≤ n ∧
          constrainOutputBudgetToContext budget limit = .ok budget) ∨
        (∃ t, n < budget.maxGenerationTokens ∧ budget.resultCapacityTargetTokens = some t ∧ n < t ∧
          constrainOutputBudgetToContext budget limit = .error (.unsupportedModelFeature
            "result capacity target does not fit the selected context window"
            "model_result_capacity_incompatible" false)) ∨
        ∃ (hpos : 0 < n) (hlt : n < budget.maxGenerationTokens)
          (htarget : ∀ t, budget.resultCapacityTargetTokens = some t → t ≤ n),
          constrainOutputBudgetToContext budget limit = .ok (budget.lowered n hpos hlt htarget)) := by
  by_cases hlimit : limit ≤ 0
  · exact Or.inl ⟨hlimit, constrain_of_nonpos hlimit budget⟩
  · obtain ⟨n, rfl⟩ : ∃ n : Nat, limit = n := ⟨limit.toNat, by omega⟩
    have hpos : 0 < n := by omega
    refine Or.inr ⟨n, hpos, rfl, ?_⟩
    rcases Nat.lt_or_ge n budget.maxGenerationTokens with hlt | hge
    · by_cases hlarge : ∃ t, budget.resultCapacityTargetTokens = some t ∧ n < t
      · obtain ⟨t, ht, hlarge⟩ := hlarge
        exact Or.inr (Or.inl ⟨t, hlt, ht, hlarge, constrain_of_target hpos hlt ht hlarge⟩)
      · have htarget : ∀ t, budget.resultCapacityTargetTokens = some t → t ≤ n :=
          fun t ht => Nat.not_lt.1 fun h => hlarge ⟨t, ht, h⟩
        exact Or.inr (Or.inr ⟨hpos, hlt, htarget, constrain_of_lt hpos hlt htarget⟩)
    · exact Or.inl ⟨hge, constrain_of_le hge⟩

/-- What a constraint keeps: no limit is raised, and only the allowance is lowered. -/
structure Within (budget fitted : InvocationOutputBudget) : Prop where
  allowance : fitted.maxGenerationTokens ≤ budget.maxGenerationTokens
  profile : fitted.profileMaxGenerationTokens = budget.profileMaxGenerationTokens
  requested : fitted.requestedUserMaxGenerationTokens = budget.requestedUserMaxGenerationTokens
  target : fitted.resultCapacityTargetTokens = budget.resultCapacityTargetTokens
  source : fitted.resultCapacitySource = budget.resultCapacitySource

theorem Within.refl (budget : InvocationOutputBudget) : Within budget budget :=
  ⟨Nat.le_refl _, rfl, rfl, rfl, rfl⟩

theorem Within.trans {other : InvocationOutputBudget} (h : Within budget fitted)
    (h' : Within fitted other) : Within budget other :=
  ⟨Nat.le_trans h'.allowance h.allowance, h'.profile.trans h.profile,
    h'.requested.trans h.requested, h'.target.trans h.target, h'.source.trans h.source⟩

theorem within_of_constrain (h : constrainOutputBudgetToContext budget limit = .ok fitted) :
    Within budget fitted := by
  rcases constrainOutputBudgetToContext_cases budget limit with
    ⟨-, he⟩ | ⟨n, -, -, ⟨-, hsame⟩ | ⟨t, -, -, -, he⟩ | ⟨hpos, hlt, htarget, hlower⟩⟩
  · rw [h] at he
    cases he
  · rw [h] at hsame
    cases hsame
    exact Within.refl budget
  · rw [h] at he
    cases he
  · rw [h] at hlower
    cases hlower
    exact ⟨Nat.le_of_lt hlt, rfl, rfl, rfl, rfl⟩

/-- The limits a budget takes: positive ones that its capacity target does not exceed. -/
def Takes (budget : InvocationOutputBudget) (limit : Int) : Prop :=
  0 < limit ∧ ∀ t, budget.resultCapacityTargetTokens = some t → (t : Int) ≤ limit

theorem constrain_isOk_iff : (∃ fitted, constrainOutputBudgetToContext budget limit = .ok fitted) ↔
    Takes budget limit := by
  rcases constrainOutputBudgetToContext_cases budget limit with
    ⟨hlimit, he⟩ | ⟨n, hn, rfl, ⟨hle, hsame⟩ | ⟨t, -, ht, hlarge, he⟩ | ⟨hpos, hlt, htarget, hlower⟩⟩
  · refine iff_of_false ?_ fun h => Int.not_lt.2 hlimit h.1
    rintro ⟨fitted, h⟩
    rw [h] at he
    cases he
  · refine iff_of_true ⟨budget, hsame⟩ ⟨Int.natCast_pos.2 hn, ?_⟩
    intro t ht
    have hfits := (budget.valid.target t ht).2
    omega
  · refine iff_of_false ?_ ?_
    · rintro ⟨fitted, h⟩
      rw [h] at he
      cases he
    · rintro ⟨-, h⟩
      have hle := h t ht
      omega
  · refine iff_of_true ⟨_, hlower⟩ ⟨Int.natCast_pos.2 hn, ?_⟩
    intro t ht
    exact Int.ofNat_le.2 (htarget t ht)

/-! ## Two constraints -/

/-- Two positive limits are the smaller one. -/
theorem constrain_constrain_nat {a b : Nat} (ha : 0 < a) (hb : 0 < b)
    (budget : InvocationOutputBudget) :
    (constrainOutputBudgetToContext budget a >>= fun fitted =>
        constrainOutputBudgetToContext fitted b) =
      constrainOutputBudgetToContext budget (min a b : Nat) := by
  rcases Nat.lt_or_ge a budget.maxGenerationTokens with hlt | hge
  · by_cases hlarge : ∃ t, budget.resultCapacityTargetTokens = some t ∧ a < t
    · obtain ⟨t, ht, hlarge⟩ := hlarge
      rw [constrain_of_target ha hlt ht hlarge,
        constrain_of_target (by omega) (by omega) ht (by omega)]
      rfl
    · have htarget : ∀ t, budget.resultCapacityTargetTokens = some t → t ≤ a :=
        fun t ht => Nat.not_lt.1 fun h => hlarge ⟨t, ht, h⟩
      rw [constrain_of_lt ha hlt htarget, ok_bind]
      rcases Nat.lt_or_ge b a with hba | hab
      · rw [Nat.min_eq_right (Nat.le_of_lt hba)]
        have hblt : b < budget.maxGenerationTokens := by omega
        by_cases hmore : ∃ t, budget.resultCapacityTargetTokens = some t ∧ b < t
        · obtain ⟨t, ht, hmore⟩ := hmore
          rw [constrain_of_target hb hblt ht hmore]
          exact constrain_of_target hb hba ht hmore
        · have hfits : ∀ t, budget.resultCapacityTargetTokens = some t → t ≤ b :=
            fun t ht => Nat.not_lt.1 fun h => hmore ⟨t, ht, h⟩
          have hbelow : b < (budget.lowered a ha hlt htarget).maxGenerationTokens := hba
          rw [constrain_of_lt hb hblt hfits, constrain_of_lt hb hbelow hfits]
          rfl
      · rw [Nat.min_eq_left hab, constrain_of_lt ha hlt htarget]
        exact constrain_of_le hab
  · rw [constrain_of_le hge, ok_bind]
    rcases Nat.lt_or_ge a b with hab | hba
    · rw [Nat.min_eq_left (Nat.le_of_lt hab), constrain_of_le hge, constrain_of_le (by omega)]
    · rw [Nat.min_eq_right hba]

/-- Two limits are the smaller one, unless the second is not even a limit. -/
theorem constrain_constrain {b : Int} (hb : 0 < b) (budget : InvocationOutputBudget) (a : Int) :
    (constrainOutputBudgetToContext budget a >>= fun fitted =>
        constrainOutputBudgetToContext fitted b) =
      constrainOutputBudgetToContext budget (min a b) := by
  by_cases ha : a ≤ 0
  · rw [constrain_of_nonpos ha, constrain_of_nonpos (by omega)]
    rfl
  · obtain ⟨m, rfl⟩ : ∃ m : Nat, a = m := ⟨a.toNat, by omega⟩
    obtain ⟨n, rfl⟩ : ∃ n : Nat, b = n := ⟨b.toNat, by omega⟩
    have hmin : min (m : Int) n = (min m n : Nat) := by omega
    rw [constrain_constrain_nat (by omega) (by omega), hmin]

/-- Two limits give what the smaller one gives, if they give anything. -/
theorem constrain_constrain_eq_ok {a b : Int} :
    (constrainOutputBudgetToContext budget a >>= fun fitted =>
        constrainOutputBudgetToContext fitted b) = .ok fitted ↔
      constrainOutputBudgetToContext budget (min a b) = .ok fitted := by
  by_cases hb : b ≤ 0
  · refine iff_of_false ?_ ?_
    · intro h
      obtain ⟨middle, -, h⟩ := bind_eq_ok h
      rw [constrain_of_nonpos hb] at h
      cases h
    · intro h
      rw [constrain_of_nonpos (by omega)] at h
      cases h
  · rw [constrain_constrain (by omega)]

/-! ## Any number of constraints -/

/-- One constraint after the other. -/
def constrainAll (budget : InvocationOutputBudget) (limits : List Int) :
    Except PyError InvocationOutputBudget :=
  limits.foldlM constrainOutputBudgetToContext budget

/-- The budget matches a request, as far as its source says. -/
structure Matches (snapshot : ModelCapabilitySnapshot) (requested : Option Int)
    (budget : InvocationOutputBudget) : Prop where
  profile : some budget.profileMaxGenerationTokens = snapshot.maxGenerationTokens
  user : budget.requestedUserMaxGenerationTokens.map (fun n : Nat => (n : Int)) = requested
  constrained : budget.generationSource = .contextCapacity → (budget.maxGenerationTokens : Int) <
    requested.getD budget.profileMaxGenerationTokens
  exact : budget.generationSource ≠ .contextCapacity → (budget.maxGenerationTokens : Int) =
    requested.getD budget.profileMaxGenerationTokens

variable {snapshot : ModelCapabilitySnapshot} {requested : Option Int}

theorem require_eq_ok : requireOutputBudgetMatchesRequest budget snapshot requested = .ok () ↔
    Matches snapshot requested budget := by
  have hlimit : (match requested with
      | some n => some n
      | none => (some budget.profileMaxGenerationTokens).map fun n : Nat => (n : Int)) =
      some (requested.getD budget.profileMaxGenerationTokens) := by
    cases requested <;> rfl
  unfold requireOutputBudgetMatchesRequest
  constructor
  · intro h
    obtain ⟨_, hprofile, h⟩ := bind_eq_ok h
    obtain ⟨_, hrequested, h⟩ := bind_eq_ok h
    rw [rejectIf_eq_ok, Classical.not_not] at hprofile hrequested
    rw [← hprofile, hlimit] at h
    dsimp only at h
    split at h
    · rename_i hsource
      rw [rejectIf_eq_ok] at h
      exact ⟨hprofile, hrequested, fun _ => Int.not_le.1 h, fun hne => absurd hsource hne⟩
    · rename_i hsource
      rw [rejectIf_eq_ok, Classical.not_not] at h
      exact ⟨hprofile, hrequested, fun heq => absurd heq hsource, fun _ => h⟩
  · intro h
    rw [rejectIf_of_not (Classical.not_not.2 h.profile), ok_bind,
      rejectIf_of_not (Classical.not_not.2 h.user), ok_bind, ← h.profile, hlimit]
    dsimp only
    split
    · rename_i hsource
      exact rejectIf_of_not (Int.not_le.2 (h.constrained hsource)) _
    · rename_i hsource
      exact rejectIf_of_not (Classical.not_not.2 (h.exact hsource)) _

/-- A constrained budget matches whatever request the budget matched. -/
theorem Matches.constrain (h : Matches snapshot requested budget)
    (hfit : constrainOutputBudgetToContext budget limit = .ok fitted) :
    Matches snapshot requested fitted := by
  rcases constrainOutputBudgetToContext_cases budget limit with
    ⟨-, he⟩ | ⟨n, -, -, ⟨-, hsame⟩ | ⟨t, -, -, -, he⟩ | ⟨hpos, hlt, htarget, hlower⟩⟩
  · rw [hfit] at he
    cases he
  · rw [hfit] at hsame
    cases hsame
    exact h
  · rw [hfit] at he
    cases he
  · rw [hfit] at hlower
    cases hlower
    refine ⟨h.profile, h.user, fun _ => ?_, fun hne => absurd rfl hne⟩
    -- the allowance before the constraint did not exceed the request either
    have hbound : (budget.maxGenerationTokens : Int) ≤
        requested.getD budget.profileMaxGenerationTokens := by
      by_cases hsource : budget.generationSource = .contextCapacity
      · exact Int.le_of_lt (h.constrained hsource)
      · exact Int.le_of_eq (h.exact hsource)
    exact Int.lt_of_lt_of_le (Int.ofNat_lt.2 hlt) hbound

theorem mapError_eq_ok {α : Type} {f : PyError → PyError} {x : Except PyError α} {a : α}
    (h : Except.mapError f x = .ok a) : x = .ok a := by
  cases x with
  | error e => cases h
  | ok b => exact h

/-- A budget that resolves matches the request it was resolved for. -/
theorem matches_of_resolve {source : Option GenerationBudgetSource} {target : Option Int}
    {targetSource : Option ResultCapacitySource}
    (h : resolveInvocationOutputBudget snapshot requested source target targetSource =
      .ok budget) : Matches snapshot requested budget := by
  unfold resolveInvocationOutputBudget at h
  cases hsnapshot : snapshot.maxGenerationTokens with
  | none =>
    rw [hsnapshot] at h
    cases h
  | some profile =>
    rw [hsnapshot] at h
    have hprofile : positiveInt (profile : Int) "profile max generation tokens" = .ok profile :=
      positiveInt_nat (snapshot.generation_pos profile hsnapshot) _
    obtain ⟨generated, hgenerated, h⟩ := bind_eq_ok h
    obtain ⟨_, -, h⟩ := bind_eq_ok h
    obtain ⟨_, -, h⟩ := bind_eq_ok h
    obtain ⟨_, hsource, h⟩ := bind_eq_ok h
    obtain ⟨hmax, hgeneration, hcap, huser⟩ := InvocationOutputBudget.of_eq_ok (mapError_eq_ok h)
    rw [hprofile] at hcap
    have hcap : profile = budget.profileMaxGenerationTokens := Except.ok.inj hcap
    cases requested with
    | none =>
      cases hgenerated
      have hread := positiveInt_nat (snapshot.generation_pos profile hsnapshot)
        "invocation max generation tokens"
      have hmax : profile = budget.maxGenerationTokens := Except.ok.inj (hread.symm.trans hmax)
      have huser : none = budget.requestedUserMaxGenerationTokens := Except.ok.inj huser
      refine ⟨by rw [hsnapshot, hcap], by rw [← huser]; rfl, fun hs => ?_, fun _ => ?_⟩
      · rw [hgeneration] at hs
        cases hs
      · rw [Option.getD_none, ← hmax, ← hcap]
    | some n =>
      have hpositive : positiveInt n "maximum generated tokens" = .ok generated :=
        mapError_eq_ok hgenerated
      have hpos := positiveInt_eq_ok hpositive
      have hn : n = generated := by
        unfold positiveInt at hpositive
        split at hpositive
        · cases hpositive
        · cases hpositive
          omega
      subst hn
      have hmax : generated = budget.maxGenerationTokens :=
        Except.ok.inj ((positiveInt_nat hpos _).symm.trans hmax)
      have hrequested : some generated = budget.requestedUserMaxGenerationTokens := by
        have hread : optionalPositiveInt ((some generated).map fun n : Nat => (n : Int))
            "requested user max generation tokens" = .ok (some generated) :=
          InvocationOutputBudget.optionalPositiveInt_nat (by rintro k ⟨⟩; exact hpos) _
        exact Except.ok.inj (hread.symm.trans huser)
      refine ⟨by rw [hsnapshot, hcap], by rw [← hrequested]; rfl, fun hs => ?_, fun _ => ?_⟩
      · rw [rejectIf_eq_ok] at hsource
        have hgiven : source ∈ [none, some .user] :=
          Classical.not_not.1 fun hnot => hsource ⟨by simp, hnot⟩
        rw [hgeneration] at hs
        rcases List.mem_cons.1 hgiven with rfl | hgiven
        · cases hs
        · rw [List.mem_singleton.1 hgiven] at hs
          cases hs
      · rw [Option.getD_some, ← hmax]

/-- A constrained budget takes the limits the budget took. -/
theorem Within.takes (h : Within budget fitted) (limit : Int) :
    Takes fitted limit ↔ Takes budget limit := by
  unfold Takes
  rw [h.target]

theorem constrainAll_cons (budget : InvocationOutputBudget) (limit : Int) (limits : List Int) :
    constrainAll budget (limit :: limits) =
      (constrainOutputBudgetToContext budget limit >>= fun fitted => constrainAll fitted limits) :=
  List.foldlM_cons

/-- A run of constraints goes through when the budget takes each of the limits. -/
theorem constrainAll_isOk_iff {limits : List Int} :
    (∃ fitted, constrainAll budget limits = .ok fitted) ↔
      ∀ limit ∈ limits, Takes budget limit := by
  induction limits generalizing budget with
  | nil => exact iff_of_true ⟨budget, rfl⟩ (by simp)
  | cons limit limits ih =>
    rw [constrainAll_cons, List.forall_mem_cons]
    constructor
    · rintro ⟨fitted, h⟩
      obtain ⟨middle, hmiddle, h⟩ := bind_eq_ok h
      refine ⟨constrain_isOk_iff.1 ⟨middle, hmiddle⟩, fun other hother => ?_⟩
      exact ((within_of_constrain hmiddle).takes other).1 (ih.1 ⟨fitted, h⟩ other hother)
    · rintro ⟨hlimit, hall⟩
      obtain ⟨middle, hmiddle⟩ := constrain_isOk_iff.2 hlimit
      rw [hmiddle]
      exact ih.2 fun other hother =>
        ((within_of_constrain hmiddle).takes other).2 (hall other hother)

/-- A run of constraints keeps what one keeps. -/
theorem within_of_constrainAll {limits : List Int} (h : constrainAll budget limits = .ok fitted) :
    Within budget fitted := by
  induction limits generalizing budget with
  | nil =>
    cases h
    exact Within.refl _
  | cons limit limits ih =>
    rw [constrainAll_cons] at h
    obtain ⟨middle, hmiddle, h⟩ := bind_eq_ok h
    exact (within_of_constrain hmiddle).trans (ih h)

theorem Matches.constrainAll {limits : List Int} (hmatch : Matches snapshot requested budget)
    (h : constrainAll budget limits = .ok fitted) : Matches snapshot requested fitted := by
  induction limits generalizing budget with
  | nil =>
    cases h
    exact hmatch
  | cons limit limits ih =>
    rw [constrainAll_cons] at h
    obtain ⟨middle, hmiddle, h⟩ := bind_eq_ok h
    exact ih (hmatch.constrain hmiddle) h

end

/-- **Output budgets compose.**  A budget that resolved for a model and a request may be constrained
by any limits that are positive and not below its capacity target; any other limit is refused.  What
comes out still matches the request, with no limit raised and nothing but the allowance lowered; and
two limits do what the smaller one does. -/
theorem output_budgets_compose {snapshot : ModelCapabilitySnapshot} {requested : Option Int}
    {source : Option GenerationBudgetSource} {target : Option Int}
    {targetSource : Option ResultCapacitySource} {budget : InvocationOutputBudget}
    (h : resolveInvocationOutputBudget snapshot requested source target targetSource =
      .ok budget) (limits : List Int) :
    ((∃ fitted, constrainAll budget limits = .ok fitted) ↔
      ∀ limit ∈ limits, Takes budget limit) ∧
    ∀ fitted, constrainAll budget limits = .ok fitted →
      requireOutputBudgetMatchesRequest fitted snapshot requested = .ok () ∧
      Within budget fitted ∧
      ∀ a b : Int,
        (0 < b → (constrainOutputBudgetToContext fitted a >>= fun once =>
            constrainOutputBudgetToContext once b) =
          constrainOutputBudgetToContext fitted (min a b)) ∧
        ∀ twice, (constrainOutputBudgetToContext fitted a >>= fun once =>
            constrainOutputBudgetToContext once b) = .ok twice ↔
          constrainOutputBudgetToContext fitted (min a b) = .ok twice := by
  refine ⟨constrainAll_isOk_iff, ?_⟩
  intro fitted hfitted
  refine ⟨require_eq_ok.2 ((matches_of_resolve h).constrainAll hfitted),
    within_of_constrainAll hfitted, ?_⟩
  intro a b
  exact ⟨fun hb => constrain_constrain hb fitted a, fun twice => constrain_constrain_eq_ok⟩

/-- A model that generates up to a hundred tokens. -/
def hundredTokens : ModelCapabilitySnapshot := ⟨some 100, by rintro n ⟨⟩; decide⟩

/-- What resolves for it, a user's limit of fifty and a capacity target of ten. -/
def fiftyOfHundred : InvocationOutputBudget :=
  ⟨⟨50, .user, 100, some 50, some 10, some .workflowPolicy⟩, by constructor <;> simp⟩

theorem resolve_fiftyOfHundred : resolveInvocationOutputBudget hundredTokens (some 50) none
    (some 10) (some .workflowPolicy) = .ok fiftyOfHundred := by
  rfl

/-- Limits of sixty, twenty and forty leave twenty of the fifty tokens. -/
theorem output_budgets_compose_fiftyOfHundred : ∃ fitted,
    constrainAll fiftyOfHundred [60, 20, 40] = .ok fitted ∧ fitted.maxGenerationTokens = 20 ∧
      requireOutputBudgetMatchesRequest fitted hundredTokens (some 50) = .ok () := by
  have hfitted : constrainAll fiftyOfHundred [60, 20, 40] =
      .ok (fiftyOfHundred.lowered 20 (by decide) (by decide) (by simp [fiftyOfHundred])) := by
    rfl
  exact ⟨_, hfitted, rfl, ((output_budgets_compose resolve_fiftyOfHundred [60, 20, 40]).2 _
    hfitted).1⟩

/-- A limit below the capacity target gives no budget. -/
theorem constraint_below_target_refused :
    resolveInvocationOutputBudget hundredTokens (some 50) none (some 10) (some .workflowPolicy) =
        .ok fiftyOfHundred ∧
      ¬ ∃ fitted, constrainAll fiftyOfHundred [5] = .ok fitted := by
  refine ⟨resolve_fiftyOfHundred, ?_⟩
  rintro ⟨fitted, h⟩
  have htakes := constrainAll_isOk_iff.1 ⟨fitted, h⟩ 5 (List.mem_singleton.2 rfl)
  have hle : ((10 : Nat) : Int) ≤ 5 := htakes.2 10 rfl
  omega

end Purra.ModelProtocol
