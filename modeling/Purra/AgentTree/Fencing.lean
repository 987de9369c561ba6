import Purra.AgentTree.Identity

/-!
# Leases of the run tree

A worker holds a Run by an owner id and an epoch.  Only `claim_run` gives a lease out, and it raises
the epoch, so a worker that has lost its lease presents a claim that no later lease matches.

* `TreeEvent`, `TimedTree` — a repository whose clock does not go back (`Forward`): time passes, or
  a method is called.
* `LeaseClaim` — a Run, an owner and an epoch; `Valid` when the lease check lets it pass.
* `EpochStep` — a step raises the epochs of the Runs it claims by one and no other.
* `Stale` — a claim that is not valid and whose epoch has been given out; it stays stale
  (`stale_step`), and a call that presents it changes nothing (`stale_presented`).
* `leases_fenced` — **fencing along every run** in which each suspension names its Run by the id it
  is stored under.
-/

namespace Purra

open Purra.Action RunTree

/-! ## Time -/

/-- Time passes until `now`, or a method is called and has returned at `now`. -/
inductive TreeEvent where
  | idle (now : Nat)
  | call (clock : Nat → Nat) (op : TreeOp) (now : Nat)

/-- A state of the repository and the time it is looked at. -/
structure TimedTree where
  state : AgentTreeState
  now : Nat

namespace TimedTree

/-- One event. -/
def step (digest : Json → String) (t : TimedTree) : TreeEvent → TimedTree
  | .idle now => ⟨t.state, now⟩
  | .call clock op now => ⟨t.state.step digest (clock, op), now⟩

/-- An empty repository at time zero. -/
def initial (initialRunSequence : Nat) : TimedTree := ⟨AgentTreeState.initial initialRunSequence, 0⟩

end TimedTree

/-- The clock does not go back. -/
def Forward (t : TimedTree) : TreeEvent → Prop
  | .idle now => t.now ≤ now
  | .call clock _ now => t.now ≤ clock 0 ∧ Monotone clock ∧ ∀ k, clock k ≤ now

/-! ## Claims -/

/-- What a worker presents: the Run it works on, its name and the epoch it was given. -/
structure LeaseClaim where
  runId : RequiredText
  owner : RequiredText
  epoch : Nat

/-- The lease of a Run is the owner's, of that epoch and in time. -/
structure AgentTreeRun.HeldBy (run : AgentTreeRun) (owner : RequiredText) (epoch now : Nat) :
    Prop where
  owner : run.leaseOwnerId = some owner
  epoch : run.leaseEpoch = epoch
  current : run.leaseExpired now = false

/-- The lease check lets the claim pass. -/
def LeaseClaim.Valid (claim : LeaseClaim) (s : AgentTreeState) (now : Nat) : Prop :=
  ∃ r, s.runs.get? claim.runId.text = some r ∧ r.HeldBy claim.owner claim.epoch now

/-- The texts name the Run and the owner of the claim, and the number is its epoch. -/
def LeaseClaim.Names (claim : LeaseClaim) (runId : String) (leaseOwnerId : Option String)
    (leaseEpoch : Option Int) : Prop :=
  strip runId = claim.runId.text ∧ optionalText leaseOwnerId = some claim.owner.text ∧
    leaseEpoch = some (claim.epoch : Int)

/-- The call presents the claim. -/
def LeaseClaim.PresentedBy (claim : LeaseClaim) : TreeOp → Prop
  | .spawnAgents command => claim.Names command.parentRunId.text
      (command.leaseOwnerId.map (·.text)) (command.leaseEpoch.map Nat.cast)
  | .continueAgent command => claim.Names command.requesterRunId.text
      (command.leaseOwnerId.map (·.text)) (command.leaseEpoch.map Nat.cast)
  | .suspendRun runId owner epoch => claim.Names runId owner epoch
  | .renewRunLease runId ownerId epoch _ => claim.Names runId (some ownerId) (some epoch)
  | .markWaiting runId owner epoch => claim.Names runId owner epoch
  | .releaseWaiting runId owner epoch => claim.Names runId owner epoch
  | .completeRun runId _ _ _ _ owner epoch => claim.Names runId owner epoch
  | .failRun runId _ owner epoch => claim.Names runId owner epoch
  | .beginRoot _ | .claimRun _ _ _ | .cancelSubtree _ | .closeAgent _ => False

/-- The event is a call of `claim_run` that gives the Run away. -/
def Takes (s : AgentTreeState) (k : String) : TreeEvent → Prop
  | .idle _ => False
  | .call clock op _ => ∃ runId ownerId duration claimed, op = .claimRun runId ownerId duration ∧
      strip runId = k ∧ (claimRun clock runId ownerId duration s).1 = .ok (some claimed)

section

variable {digest : Json → String} {clock : Nat → Nat} {s s' : AgentTreeState} {now now' : Nat}

namespace AgentTreeRun

variable {u v : AgentTreeRun} {owner : RequiredText} {epoch : Nat}

/-- A lease that has run out stays so. -/
theorem leaseExpired_mono (hle : now ≤ now') (h : u.leaseExpired now = true) :
    u.leaseExpired now' = true := by
  unfold leaseExpired at h ⊢
  rw [Bool.and_eq_true] at h ⊢
  refine ⟨h.1, ?_⟩
  cases hexpiry : u.leaseExpiresAtMs with
  | none => simp [hexpiry] at h
  | some expiry =>
    have hout := h.2
    simp only [hexpiry, decide_eq_true_eq] at hout ⊢
    omega

theorem HeldBy.anti (hle : now ≤ now') (h : u.HeldBy owner epoch now') : u.HeldBy owner epoch now :=
  ⟨h.owner, h.epoch, Bool.eq_false_iff.2 fun hout =>
    Bool.eq_false_iff.1 h.current (leaseExpired_mono hle hout)⟩

/-- Moving a live Run between RUNNING and WAITING moves no lease. -/
theorem HeldBy.of_live (hle : now ≤ now') (howner : v.leaseOwnerId = u.leaseOwnerId)
    (hepoch : v.leaseEpoch = u.leaseEpoch) (hexpiry : v.leaseExpiresAtMs = u.leaseExpiresAtMs)
    (hlive : v.status.live = u.status.live) (h : v.HeldBy owner epoch now') :
    u.HeldBy owner epoch now := by
  refine HeldBy.anti hle ⟨howner ▸ h.owner, hepoch ▸ h.epoch, ?_⟩
  have hcurrent := h.current
  unfold leaseExpired at hcurrent ⊢
  rw [← hlive, ← hexpiry]
  exact hcurrent

/-- A claim that passes the check is the holder's. -/
theorem Claims.heldBy {leaseOwnerId : Option String} {leaseEpoch : Option Int}
    (h : u.Claims now leaseOwnerId leaseEpoch) (howner : optionalText leaseOwnerId = some owner.text)
    (hepoch : leaseEpoch = some (epoch : Int)) : u.HeldBy owner epoch now := by
  unfold Claims at h
  cases hholder : u.leaseOwnerId with
  | none =>
    simp only [hholder] at h
    rw [h.1] at howner
    cases howner
  | some holder =>
    simp only [hholder] at h
    obtain ⟨hname, hnumber, hcurrent⟩ := h
    rw [hname, Option.some.injEq] at howner
    rw [hnumber, Option.some.injEq] at hepoch
    exact ⟨hholder.trans (congrArg some (RequiredText.ext howner)), by omega, hcurrent⟩

end AgentTreeRun

/-! ## What a call does to the leases -/

/-- No lease is given out: epochs stay, and who holds a Run afterwards held it before. -/
def LeasesKept (now now' : Nat) (s s' : AgentTreeState) : Prop :=
  ∀ k u, s.runs.get? k = some u → ∃ v, s'.runs.get? k = some v ∧ v.leaseEpoch = u.leaseEpoch ∧
    ∀ owner epoch, v.HeldBy owner epoch now' → u.HeldBy owner epoch now

theorem LeasesKept.refl (hle : now ≤ now') : LeasesKept now now' s s :=
  fun _ u hu => ⟨u, hu, rfl, fun _ _ h => h.anti hle⟩

theorem LeasesKept.trans {s'' : AgentTreeState} {t : Nat} (h : LeasesKept now now' s s')
    (h' : LeasesKept now' t s' s'') : LeasesKept now t s s'' := by
  intro k u hu
  obtain ⟨v, hv, hepoch, hheld⟩ := h k u hu
  obtain ⟨w, hw, hepoch', hheld'⟩ := h' k v hv
  exact ⟨w, hw, hepoch'.trans hepoch, fun owner epoch h => hheld owner epoch (hheld' owner epoch h)⟩

variable {key : String} {u v : AgentTreeRun}

theorem LeasesKept.putRun (hle : now ≤ now')
    (hu : s.runs.get? key = some u) (hepoch : v.leaseEpoch = u.leaseEpoch)
    (hheld : ∀ owner epoch, v.HeldBy owner epoch now' → u.HeldBy owner epoch now) :
    LeasesKept now now' s (s.putRun key v) := by
  intro k w hw
  simp only [AgentTreeState.putRun, Dict.get?_set]
  split
  · rename_i hk
    rw [hk, hu] at hw
    cases hw
    exact ⟨v, rfl, hepoch, hheld⟩
  · exact ⟨w, hw, rfl, fun _ _ h => h.anti hle⟩

/-- A Run that gives its lease back is held by nobody. -/
theorem LeasesKept.unleased (hle : now ≤ now')
    (hu : s.runs.get? key = some u) (hepoch : v.leaseEpoch = u.leaseEpoch)
    (hnone : v.leaseOwnerId = none) : LeasesKept now now' s (s.putRun key v) := by
  refine LeasesKept.putRun hle hu hepoch fun owner epoch h => ?_
  exact absurd (hnone.symm.trans h.owner) nofun

/-- Records the repository may still overwrite, as their id is a number to be given out, were never
leased and cannot be claimed. -/
def Spare (s : AgentTreeState) : Prop :=
  ∀ n r, s.runSequence < n → s.runs.get? (generatedRunId n).text = some r →
    r.leaseEpoch = 0 ∧ r.leaseOwnerId = none ∧ r.status ≠ .queued

theorem Spare.putRun (h : Spare s) (hu : s.runs.get? key = some u)
    (hv : u.leaseEpoch = 0 → u.leaseOwnerId = none → u.status ≠ .queued →
      v.leaseEpoch = 0 ∧ v.leaseOwnerId = none ∧ v.status ≠ .queued) : Spare (s.putRun key v) := by
  intro n r hn hr
  simp only [AgentTreeState.putRun, Dict.get?_set] at hr
  split at hr
  · rename_i hk
    cases hr
    obtain ⟨hepoch, howner, hstatus⟩ := h n u hn (hk ▸ hu)
    exact hv hepoch howner hstatus
  · exact h n r hn hr

/-- A Run that gives its lease back stays spare. -/
theorem Spare.unleased (h : Spare s)
    (hu : s.runs.get? key = some u) (hepoch : v.leaseEpoch = u.leaseEpoch)
    (hnone : v.leaseOwnerId = none) (hstatus : v.status ≠ .queued) : Spare (s.putRun key v) :=
  h.putRun hu fun hzero _ _ => ⟨hepoch.trans hzero, hnone, hstatus⟩

/-- Runs that were never leased cannot be claimed unless they are queued. -/
theorem AgentTreeRun.not_reclaimable (hepoch : u.leaseEpoch = 0)
    (howner : u.leaseOwnerId = none) : u.reclaimable now = false := by
  simp [AgentTreeRun.reclaimable, u.lease_paired.1 howner, hepoch]

/-- New Runs have no lease, and replace only Runs that were never leased. -/
theorem Admission.leasesKept {items : List SpawnedAgent} (h : Admission s s' items)
    (hsp : Spare s) (hle : now ≤ now') : LeasesKept now now' s s' := by
  intro k u hu
  by_cases hk : k ∈ (items.map fun item => (item.run.runId.text, item.run)).map Prod.fst
  · rw [List.map_map] at hk
    obtain ⟨item, hitem, rfl⟩ := List.mem_map.1 hk
    have hnew := h.admitted item hitem
    have hzero : u.leaseEpoch = 0 := by
      cases hnew.place with
      | root hnone => exact absurd (hnone.symm.trans hu) nofun
      | child _ n hn _ hid => exact (hsp n u hn (hid ▸ hu)).1
    refine ⟨item.run, h.get?_run_item hitem, hnew.epoch.trans hzero.symm, fun owner epoch hheld => ?_⟩
    exact absurd (hnew.unleased.symm.trans hheld.owner) nofun
  · refine ⟨u, ?_, rfl, fun _ _ hheld => hheld.anti hle⟩
    rw [h.runs, Dict.get?_extend_of_not_mem hk, hu]

theorem Admission.spare {items : List SpawnedAgent} (h : Admission s s' items) (hsp : Spare s) :
    Spare s' := by
  intro n r hn hr
  rcases h.get?_run_cases hr with ⟨item, hitem, hid, rfl⟩ | hr
  · have hnew := h.admitted item hitem
    cases hnew.place with
    | root _ _ _ hstatus =>
      refine ⟨hnew.epoch, hnew.unleased, ?_⟩
      rw [hstatus]
      exact nofun
    | child _ _ _ _ hm =>
      have := generatedRunId_inj.1 (hm.symm.trans (RequiredText.ext hid))
      omega
  · exact hsp n r (lt_of_le_of_lt h.run_le hn) hr

theorem spare_change (hs : Wired s) (he : Exact s) (hsp : Spare s) {op : TreeOp}
    (hstripped : Stripped s clock op) (h : Change digest clock s op s') : Spare s' := by
  cases h with
  | root _ _ hnew hagent => exact (admission_root hs hnew hagent _).spare hsp
  | spawn hrun _ hparent hdepth _ hgrants =>
    exact (admission_spawn hs hrun hparent hdepth hgrants _ _ _).spare hsp
  | «continue» hrun _ htarget hrequester hscope _ hidle =>
    exact (admission_continue hs hrun htarget hrequester hscope hidle _ _ _).spare hsp
  | claim _ _ hrun hstatus =>
    refine hsp.putRun (hs.requireRun_eq_ok hrun).1 fun hepoch hnone hqueued => ?_
    rcases hstatus with hstatus | hstatus
    · exact absurd hstatus hqueued
    · rw [AgentTreeRun.not_reclaimable hepoch hnone] at hstatus
      cases hstatus
  | suspend runId run hrun hclaim =>
    obtain ⟨hget, hkey⟩ := hs.requireRun_eq_ok hrun
    have hstored : runId = run.runId.text := (hstripped run hrun hclaim).symm.trans hkey
    exact hsp.unleased (u := run) (hstored ▸ hget) rfl rfl nofun
  | renew _ _ _ _ hrun _ hrenewed =>
    have hrun := (AgentTreeState.requireActiveRun_eq_ok hrun).1
    obtain ⟨-, hstatus, howner', hepoch, -⟩ := AgentTreeRun.renewed_eq_ok hrenewed
    refine hsp.putRun (hs.requireRun_eq_ok hrun).1 fun hzero hnone hqueued => ?_
    exact ⟨hepoch.trans hzero, howner'.trans hnone, hstatus ▸ hqueued⟩
  | wait _ hrun =>
    exact hsp.putRun (hs.requireRun_eq_ok hrun).1 fun hzero hnone _ => ⟨hzero, hnone, nofun⟩
  | release _ hrun =>
    exact hsp.putRun (hs.requireRun_eq_ok hrun).1 fun hzero hnone _ => ⟨hzero, hnone, nofun⟩
  | number => exact hsp
  | complete run _ _ _ hrun _ _ _ _ hcompleted =>
    obtain ⟨hid, hdone, hnone, hepoch⟩ := AgentTreeRun.completed_eq_ok hcompleted
    have hkey := congrArg RequiredText.text (AgentTreeRun.runId_of_identity hid)
    refine hsp.unleased (u := run) (hkey ▸ (hs.requireRun_eq_ok hrun).1) hepoch hnone ?_
    rw [hdone]
    exact nofun
  | fail error run hrun =>
    have hget := (hs.requireRun_eq_ok hrun).1
    refine (foldl_cancelDescendant (P := fun s => Exact s ∧ Spare s) _
      (fun s₁ k item hs₁ hitem _ => ?_) _ ?_).2
    · have hk := hs₁.1 k item hitem
      exact ⟨hs₁.1.putRun (item.canceledWith ancestorRunFailed) rfl,
        hs₁.2.unleased (u := item) (hk ▸ hitem) rfl rfl nofun⟩
    · exact ⟨he.putRun (run.failedWith error) rfl, hsp.unleased hget rfl rfl nofun⟩
  | cancel =>
    refine foldl_cancelOrdered (fun s₁ current run hs₁ hget _ => ?_) _ hsp
    exact Spare.unleased hs₁ hget rfl rfl nofun
  | close => exact hsp

/-- Every call but `claim_run` keeps the leases. -/
theorem leases_change (hs : Wired s) (he : Exact s) (hsp : Spare s) {op : TreeOp}
    (hstripped : Stripped s clock op) (hle : clock 0 ≤ now') (h : Change digest clock s op s')
    (hother : ∀ runId ownerId duration, op ≠ .claimRun runId ownerId duration) :
    LeasesKept (clock 0) now' s s' := by
  cases h with
  | root _ _ hnew hagent => exact (admission_root hs hnew hagent _).leasesKept hsp hle
  | spawn hrun _ hparent hdepth _ hgrants =>
    exact (admission_spawn hs hrun hparent hdepth hgrants _ _ _).leasesKept hsp hle
  | «continue» hrun _ htarget hrequester hscope _ hidle =>
    exact (admission_continue hs hrun htarget hrequester hscope hidle _ _ _).leasesKept hsp hle
  | @claim runId ownerId duration => exact absurd rfl (hother runId ownerId duration)
  | suspend runId run hrun hclaim =>
    obtain ⟨hget, hkey⟩ := hs.requireRun_eq_ok hrun
    have hstored : runId = run.runId.text := (hstripped run hrun hclaim).symm.trans hkey
    exact LeasesKept.unleased (u := run) hle (hstored ▸ hget) rfl rfl
  | @renew _ _ epoch _ owner _ _ run renewed _ _ hrun hclaim hrenewed =>
    have hrun := (AgentTreeState.requireActiveRun_eq_ok hrun).1
    obtain ⟨-, hstatus, howner', hepoch, -⟩ := AgentTreeRun.renewed_eq_ok hrenewed
    refine LeasesKept.putRun hle (hs.requireRun_eq_ok hrun).1 hepoch fun owner epoch hheld => ?_
    -- the lease that is renewed passed the check, so it is the one held afterwards
    have hcurrent : run.leaseExpired (clock 0) = false := by
      unfold AgentTreeRun.Claims at hclaim
      rw [← howner', hheld.owner] at hclaim
      exact hclaim.2.2
    exact ⟨howner' ▸ hheld.owner, hepoch ▸ hheld.epoch, hcurrent⟩
  | @wait _ owner epoch run hrun hstatus =>
    refine LeasesKept.putRun hle (hs.requireRun_eq_ok hrun).1 rfl fun owner epoch hheld => ?_
    exact AgentTreeRun.HeldBy.of_live (u := run) (v := run.waiting) hle rfl rfl rfl
      (by rw [hstatus]; rfl) hheld
  | @release _ owner epoch run _ _ hrun hstatus =>
    refine LeasesKept.putRun hle (hs.requireRun_eq_ok hrun).1 rfl fun owner epoch hheld => ?_
    exact AgentTreeRun.HeldBy.of_live (u := run) (v := run.resumed) hle rfl rfl rfl
      (by rw [hstatus]; rfl) hheld
  | number => exact LeasesKept.refl (s := s) hle
  | complete run _ _ _ hrun _ _ _ _ hcompleted =>
    obtain ⟨hid, -, hnone, hepoch⟩ := AgentTreeRun.completed_eq_ok hcompleted
    have hkey := congrArg RequiredText.text (AgentTreeRun.runId_of_identity hid)
    exact LeasesKept.unleased (u := run) hle (hkey ▸ (hs.requireRun_eq_ok hrun).1) hepoch hnone
  | fail error run hrun =>
    have hget := (hs.requireRun_eq_ok hrun).1
    refine (foldl_cancelDescendant (P := fun s' => Exact s' ∧ LeasesKept (clock 0) now' s s') _
      (fun s₁ k item hs₁ hitem _ => ?_) _ ?_).2
    · have hk := hs₁.1 k item hitem
      exact ⟨hs₁.1.putRun (item.canceledWith ancestorRunFailed) rfl,
        hs₁.2.trans (LeasesKept.unleased (u := item) le_rfl (hk ▸ hitem) rfl rfl)⟩
    · exact ⟨he.putRun (run.failedWith error) rfl, LeasesKept.unleased hle hget rfl rfl⟩
  | cancel =>
    refine foldl_cancelOrdered (P := fun s' => LeasesKept (clock 0) now' s s')
      (fun s₁ current run hs₁ hget _ => ?_) _ (LeasesKept.refl hle)
    exact hs₁.trans (LeasesKept.unleased le_rfl hget rfl rfl)
  | close => exact LeasesKept.refl (s := s) hle

/-! ## One event -/

/-- What fencing rests on. -/
structure Fenceable (s : AgentTreeState) : Prop where
  wired : Wired s
  stored : Exact s
  spare : Spare s

/-- A suspension that goes through is asked for a Run by the id it is stored under. -/
def SuspendsByKey (s : AgentTreeState) : TreeEvent → Prop
  | .idle _ => True
  | .call clock op _ => Stripped s clock op

variable {t : TimedTree} {event : TreeEvent}

theorem fenceable_step (hs : Fenceable t.state)
    (hkey : SuspendsByKey t.state event) : Fenceable (t.step digest event).state := by
  cases event with
  | idle => exact hs
  | call clock op now =>
    rcases change_of_step digest t.state (clock, op) with h | h
    · show Fenceable (t.state.step digest (clock, op))
      rw [h]
      exact hs
    · exact ⟨wired_change hs.wired h, exact_change hs.wired hs.stored hkey h,
        spare_change hs.wired hs.stored hs.spare hkey h⟩

/-- A successful claim raises the epoch of its Run; nothing else touches an epoch or gives a lease
out. -/
theorem lease_step (digest : Json → String) (hs : Fenceable t.state)
    (hforward : Forward t event) (hkey : SuspendsByKey t.state event) {k : String}
    (hu : t.state.runs.get? k = some u) :
    ∃ v, (t.step digest event).state.runs.get? k = some v ∧
      (Takes t.state k event ∧ v.leaseEpoch = u.leaseEpoch + 1 ∨
        ¬ Takes t.state k event ∧ v.leaseEpoch = u.leaseEpoch ∧ ∀ owner epoch,
          v.HeldBy owner epoch (t.step digest event).now → u.HeldBy owner epoch t.now) := by
  cases event with
  | idle now => exact ⟨u, hu, Or.inr ⟨not_false, rfl, fun _ _ h => h.anti hforward⟩⟩
  | call clock op now =>
    obtain ⟨hlast, -, hnow⟩ := hforward
    by_cases hop : ∃ runId ownerId duration, op = .claimRun runId ownerId duration
    · obtain ⟨runId, ownerId, duration, rfl⟩ := hop
      rcases claimRun_given clock t.state runId ownerId duration with
        ⟨owner, length, run, claimed, hrun, rfl, hgiven, hput⟩ | ⟨hrefused, hsame⟩
      · obtain ⟨hget, hid⟩ := hs.wired.requireRun_eq_ok hrun
        have hstep : (t.step digest (.call clock (.claimRun runId ownerId duration) now)).state =
            t.state.putRun run.runId.text (run.claimedBy owner (clock 0 + length)) := hput
        rw [hstep]
        simp only [AgentTreeState.putRun, Dict.get?_set]
        split
        · rename_i hk
          rw [hk, hget] at hu
          cases hu
          exact ⟨_, rfl, Or.inl ⟨⟨runId, ownerId, duration, _, rfl, hk ▸ hid, hgiven⟩, rfl⟩⟩
        · rename_i hk
          refine ⟨u, hu, Or.inr ⟨?_, rfl, fun _ _ h => h.anti (hlast.trans (hnow 0))⟩⟩
          rintro ⟨_, _, _, _, heq, hstrip, -⟩
          cases heq
          exact hk (hstrip.symm.trans hid)
      · have hstep : (t.step digest (.call clock (.claimRun runId ownerId duration) now)).state =
            t.state := hsame
        rw [hstep]
        refine ⟨u, hu, Or.inr ⟨?_, rfl, fun _ _ h => h.anti (hlast.trans (hnow 0))⟩⟩
        rintro ⟨_, _, _, claimed, heq, -, hgiven⟩
        cases heq
        exact hrefused claimed hgiven
    · have htaken : ¬ Takes t.state k (.call clock op now) := by
        rintro ⟨runId, ownerId, duration, -, heq, -⟩
        exact hop ⟨runId, ownerId, duration, heq⟩
      have hkept : LeasesKept (clock 0) now t.state (t.state.step digest (clock, op)) := by
        rcases change_of_step digest t.state (clock, op) with h | h
        · rw [h]
          exact LeasesKept.refl (hnow 0)
        · exact leases_change hs.wired hs.stored hs.spare hkey (hnow 0) h
            fun runId ownerId duration heq => hop ⟨runId, ownerId, duration, heq⟩
      obtain ⟨v, hv, hepoch, hheld⟩ := hkept k u hu
      exact ⟨v, hv, Or.inr ⟨htaken, hepoch, fun owner epoch h =>
        (hheld owner epoch h).anti hlast⟩⟩

/-! ## Stale claims -/

/-- The epoch of the claim has been given out. -/
def LeaseClaim.Given (claim : LeaseClaim) (s : AgentTreeState) : Prop :=
  ∃ r, s.runs.get? claim.runId.text = some r ∧ claim.epoch ≤ r.leaseEpoch

/-- The epoch of the claim has been given out, and the lease is gone. -/
def LeaseClaim.Stale (claim : LeaseClaim) (t : TimedTree) : Prop :=
  claim.Given t.state ∧ ¬ claim.Valid t.state t.now

variable {claim : LeaseClaim}

theorem LeaseClaim.Valid.given (h : claim.Valid s now) : claim.Given s := by
  obtain ⟨r, hr, hheld⟩ := h
  exact ⟨r, hr, hheld.epoch.ge⟩

theorem given_step (hs : Fenceable t.state)
    (hforward : Forward t event) (hkey : SuspendsByKey t.state event)
    (h : claim.Given t.state) : claim.Given (t.step digest event).state := by
  obtain ⟨u, hu, hle⟩ := h
  obtain ⟨v, hv, hstep⟩ := lease_step digest hs hforward hkey hu
  refine ⟨v, hv, ?_⟩
  rcases hstep with ⟨-, hepoch⟩ | ⟨-, hepoch, -⟩ <;> omega

/-- A claim that has gone stale is never valid again. -/
theorem stale_step (hs : Fenceable t.state)
    (hforward : Forward t event) (hkey : SuspendsByKey t.state event)
    (h : claim.Stale t) : claim.Stale (t.step digest event) := by
  refine ⟨given_step hs hforward hkey h.1, ?_⟩
  rintro ⟨w, hw, hheld⟩
  obtain ⟨u, hu, hle⟩ := h.1
  obtain ⟨v, hv, hstep⟩ := lease_step digest hs hforward hkey hu
  rw [hv] at hw
  cases hw
  rcases hstep with ⟨-, hepoch⟩ | ⟨-, -, hback⟩
  · have := hheld.epoch
    omega
  · exact h.2 ⟨u, hu, hback _ _ hheld⟩

/-- A call that changes the state presents a valid claim, if it presents one. -/
theorem valid_of_change (hs : Wired s) {op : TreeOp} (h : Change digest clock s op s')
    (hpresented : claim.PresentedBy op) : claim.Valid s (clock 0) := by
  have hvalid : ∀ {runId : String} {owner : Option String} {epoch : Option Int}
      {run : AgentTreeRun}, claim.Names runId owner epoch → s.requireRun runId = .ok run →
        run.Claims (clock 0) owner epoch → claim.Valid s (clock 0) := by
    intro runId owner epoch run hnames hrun hclaim
    obtain ⟨hget, hid⟩ := hs.requireRun_eq_ok hrun
    refine ⟨run, ?_, hclaim.heldBy hnames.2.1 hnames.2.2⟩
    rw [← hnames.1, hid, hget]
  cases h with
  | root => exact hpresented.elim
  | spawn hrun hclaim =>
    exact hvalid hpresented (AgentTreeState.requireActiveRun_eq_ok hrun).1 hclaim
  | «continue» hrun hclaim =>
    exact hvalid hpresented (AgentTreeState.requireActiveRun_eq_ok hrun).1 hclaim
  | claim => exact hpresented.elim
  | suspend _ _ hrun hclaim => exact hvalid hpresented hrun hclaim
  | @renew runId _ _ _ owner claimed _ _ _ howner hclaimed hrun hclaim =>
    obtain ⟨hid, hname, hnumber⟩ := hpresented
    have hchecked : claim.Names runId (some owner.text) (some (claimed : Int)) := by
      refine ⟨hid, ?_, ?_⟩
      · rw [← hname]
        have hstrip := RequiredText.of_eq_ok.1 howner
        simp [optionalText, hstrip, owner.stripped]
      · rw [← hnumber]
        unfold nonNegativeInt at hclaimed
        split at hclaimed
        · cases hclaimed
        · cases hclaimed
          congr 1
          omega
    exact hvalid hchecked (AgentTreeState.requireActiveRun_eq_ok hrun).1 hclaim
  | wait _ hrun _ hclaim => exact hvalid hpresented hrun hclaim
  | release _ hrun _ hclaim =>
    exact hvalid hpresented hrun hclaim
  | number hrun _ hclaim =>
    exact hvalid hpresented hrun hclaim
  | complete _ _ _ _ hrun _ hclaim =>
    exact hvalid hpresented hrun hclaim
  | fail _ _ hrun _ hclaim =>
    exact hvalid hpresented hrun hclaim
  | cancel => exact hpresented.elim
  | close => exact hpresented.elim

/-- The event is a call that presents the claim. -/
def LeaseClaim.PresentedAt (claim : LeaseClaim) : TreeEvent → Prop
  | .idle _ => False
  | .call _ op _ => claim.PresentedBy op

/-- A call that presents a stale claim changes nothing. -/
theorem stale_presented (hs : Fenceable t.state)
    (hforward : Forward t event) (hstale : claim.Stale t)
    (hpresented : claim.PresentedAt event) : (t.step digest event).state = t.state := by
  cases event with
  | idle => rfl
  | call clock op now =>
    rcases change_of_step digest t.state (clock, op) with h | h
    · exact h
    · obtain ⟨u, hu, hheld⟩ := valid_of_change hs.wired h hpresented
      exact absurd ⟨u, hu, hheld.anti hforward.1⟩ hstale.2

/-! ## Every run -/

/-- Each Run is still there, with an epoch higher by one if the event claims it and as it was
otherwise. -/
def EpochStep (digest : Json → String) (t : TimedTree) (event : TreeEvent) : Prop :=
  ∀ k u, t.state.runs.get? k = some u → ∃ v, (t.step digest event).state.runs.get? k = some v ∧
    (Takes t.state k event ∧ v.leaseEpoch = u.leaseEpoch + 1 ∨
      ¬ Takes t.state k event ∧ v.leaseEpoch = u.leaseEpoch)

/-- The clock does not go back, and a suspension that goes through is asked for a Run by the id it is
stored under. -/
structure Keyed (t : TimedTree) (event : TreeEvent) : Prop where
  forward : Forward t event
  key : SuspendsByKey t.state event

theorem fenceable_exec {run : List TreeEvent} (ht : Fenceable t.state)
    (hrun : Along (TimedTree.step digest) Keyed t run) :
    Fenceable (exec (TimedTree.step digest) t run).state :=
  exec_induction (I := fun t => Fenceable t.state)
    (fun _ _ hkeyed hs => fenceable_step hs hkeyed.key) hrun ht

theorem fenceable_initial (n : Nat) : Fenceable (TimedTree.initial n).state where
  wired := wired_initial n
  stored := exact_initial n
  spare := by
    intro _ r _ hr
    have hnone : (AgentTreeState.initial n).runs.get? (generatedRunId ‹ℕ›).text = none := rfl
    exact absurd (hnone.symm.trans hr) nofun

theorem given_exec {run : List TreeEvent} (ht : Fenceable t.state)
    (hrun : Along (TimedTree.step digest) Keyed t run)
    (h : claim.Given t.state) : claim.Given (exec (TimedTree.step digest) t run).state :=
  (exec_induction (I := fun t => Fenceable t.state ∧ claim.Given t.state)
    (fun _ _ hkeyed hs => ⟨fenceable_step hs.1 hkeyed.key,
      given_step hs.1 hkeyed.forward hkeyed.key hs.2⟩) hrun ⟨ht, h⟩).2

theorem stale_exec {run : List TreeEvent} (ht : Fenceable t.state)
    (hrun : Along (TimedTree.step digest) Keyed t run)
    (h : claim.Stale t) : claim.Stale (exec (TimedTree.step digest) t run) :=
  (exec_induction (I := fun t => Fenceable t.state ∧ claim.Stale t)
    (fun _ _ hkeyed hs => ⟨fenceable_step hs.1 hkeyed.key,
      stale_step hs.1 hkeyed.forward hkeyed.key hs.2⟩) hrun ⟨ht, h⟩).2

end

/-- **Leases are fenced.**  Along every run whose clock does not go back and whose suspensions name
their Runs by the ids they are stored under, a successful claim raises the epoch of its Run by one
and nothing else changes an epoch; and once a claim that was valid is not, no later call that
presents it changes the state. -/
theorem leases_fenced (digest : Json → String) (initialRunSequence : Nat)
    (run₁ run₂ run₃ : List TreeEvent) (event : TreeEvent)
    (hrun : Along (TimedTree.step digest) Keyed (TimedTree.initial initialRunSequence)
      (run₁ ++ run₂ ++ run₃ ++ [event])) :
    EpochStep digest (exec (TimedTree.step digest) (TimedTree.initial initialRunSequence)
        (run₁ ++ run₂ ++ run₃)) event ∧
    ∀ claim : LeaseClaim,
      claim.Valid
        (exec (TimedTree.step digest) (TimedTree.initial initialRunSequence) run₁).state
        (exec (TimedTree.step digest) (TimedTree.initial initialRunSequence) run₁).now →
      ¬ claim.Valid
        (exec (TimedTree.step digest) (TimedTree.initial initialRunSequence) (run₁ ++ run₂)).state
        (exec (TimedTree.step digest) (TimedTree.initial initialRunSequence) (run₁ ++ run₂)).now →
      claim.PresentedAt event →
      ((exec (TimedTree.step digest) (TimedTree.initial initialRunSequence)
          (run₁ ++ run₂ ++ run₃)).step digest event).state =
        (exec (TimedTree.step digest) (TimedTree.initial initialRunSequence)
          (run₁ ++ run₂ ++ run₃)).state := by
  obtain ⟨hrun, hevent, -⟩ := along_append.1 hrun
  have hlast := fenceable_exec (fenceable_initial initialRunSequence) hrun
  constructor
  · intro k u hu
    obtain ⟨v, hv, hstep⟩ := lease_step digest hlast hevent.forward hevent.key hu
    refine ⟨v, hv, hstep.imp_right fun h => ⟨h.1, h.2.1⟩⟩
  · intro claim hvalid hlost hpresented
    obtain ⟨hrun₁₂, hrun₃⟩ := along_append.1 hrun
    obtain ⟨hrun₁, hrun₂⟩ := along_append.1 hrun₁₂
    have hfirst := fenceable_exec (fenceable_initial initialRunSequence) hrun₁
    have hmiddle := fenceable_exec (fenceable_initial initialRunSequence) hrun₁₂
    have hgiven := given_exec hfirst hrun₂ hvalid.given
    rw [← exec_append] at hgiven
    have hstale := stale_exec hmiddle hrun₃ ⟨hgiven, hlost⟩
    rw [← exec_append] at hstale
    exact stale_presented hlast hevent.forward hstale hpresented

/-! ### A copy that lowers an epoch -/

namespace Sample

/-- A call while the clock stands still. -/
def callAt (time : Nat) (op : TreeOp) : TreeEvent := .call (fun _ => time) op time

/-- The state and the time after some events. -/
def reached (run : List TreeEvent) : TimedTree :=
  exec (TimedTree.step fun _ => "") (TimedTree.initial 0) run

/-- A child is suspended under its id with a blank in front, so that its lease goes on, runs out,
and is taken again. -/
def copied : List TreeEvent :=
  [callAt 0 (begin rootId 3 three_slots), callAt 0 (spawn rootId),
    callAt 0 (.claimRun "agent-run-1" "worker" 1),
    callAt 0 (.suspendRun " agent-run-1" (some "worker") (some 1)),
    callAt 5 (.claimRun "agent-run-1" "worker" 1)]

/-- The root Run fails, and the copy is canceled over the child. -/
def overwrite : TreeEvent := callAt 5 (.failRun "root" "stopped" none none)

/-- The canceled child is suspended without a claim and taken once more. -/
def revive : List TreeEvent :=
  [callAt 5 (.suspendRun "agent-run-1" none none),
    callAt 5 (.claimRun "agent-run-1" "worker" 30000)]

/-- The claim of the worker that took the child at five. -/
def secondClaim : LeaseClaim := ⟨generatedRunId 1, worker, 2⟩

/-- That worker comes back. -/
def comeBack : TreeEvent := callAt 5 (.markWaiting "agent-run-1" (some "worker") (some 2))

/-- What is compared of a child's record. -/
def leaseOf (t : TimedTree) : Option (AgentTreeRunStatus × Nat × Option RequiredText × Bool) :=
  (t.state.runs.get? "agent-run-1").map fun r =>
    (r.status, r.leaseEpoch, r.leaseOwnerId, r.leaseExpired t.now)

end Sample

open Sample in
theorem copied_states :
    leaseOf (reached copied) = some (.running, 2, some worker, false) ∧
    leaseOf (reached (copied ++ [overwrite])) = some (.canceled, 1, none, false) ∧
    leaseOf (reached (copied ++ [overwrite] ++ revive)) =
      some (.running, 2, some worker, false) ∧
    leaseOf ((reached (copied ++ [overwrite] ++ revive)).step (fun _ => "") comeBack) =
      some (.waiting, 2, some worker, false) :=
  ⟨by decide +kernel, by decide +kernel, by decide +kernel, by decide +kernel⟩

theorem forward_callAt {t : TimedTree} {time : Nat} {op : TreeOp} (h : t.now ≤ time) :
    Forward t (Sample.callAt time op) :=
  ⟨h, fun _ _ _ => le_rfl, fun _ => le_rfl⟩

open Sample in
/-- The clock does not go back, and yet the epoch of the child falls when its copy is canceled over
it; taken again under the same epoch, it obeys a worker whose claim had lapsed. -/
theorem lease_epoch_lost :
    Along (TimedTree.step fun _ => "") Forward (TimedTree.initial 0)
      (copied ++ [overwrite] ++ revive ++ [comeBack]) ∧
    ¬ EpochStep (fun _ => "") (reached copied) overwrite ∧
    secondClaim.Valid (reached copied).state (reached copied).now ∧
    ¬ secondClaim.Valid (reached (copied ++ [overwrite])).state
      (reached (copied ++ [overwrite])).now ∧
    secondClaim.PresentedAt comeBack ∧
    ((reached (copied ++ [overwrite] ++ revive)).step (fun _ => "") comeBack).state ≠
      (reached (copied ++ [overwrite] ++ revive)).state := by
  obtain ⟨hfirst, hlost, hagain, hback⟩ := copied_states
  refine ⟨?_, ?_, ?_, ?_, ?_, ?_⟩
  · refine ⟨forward_callAt le_rfl, forward_callAt le_rfl, forward_callAt le_rfl,
      forward_callAt le_rfl, forward_callAt (Nat.zero_le 5), forward_callAt le_rfl,
      forward_callAt le_rfl, forward_callAt le_rfl, forward_callAt le_rfl, trivial⟩
  · intro h
    obtain ⟨u, hu, hfields⟩ := Option.map_eq_some_iff.1 hfirst
    obtain ⟨v, hv, hstep⟩ := h _ u hu
    have hlost' : leaseOf ((reached copied).step (fun _ => "") overwrite) = _ := hlost
    rw [leaseOf, hv] at hlost'
    simp only [Option.map_some, Option.some.injEq, Prod.mk.injEq] at hfields hlost'
    rcases hstep with ⟨-, hepoch⟩ | ⟨-, hepoch⟩ <;> omega
  · obtain ⟨u, hu, hfields⟩ := Option.map_eq_some_iff.1 hfirst
    simp only [Prod.mk.injEq] at hfields
    exact ⟨u, hu, hfields.2.2.1, hfields.2.1, hfields.2.2.2⟩
  · rintro ⟨u, hu, hheld⟩
    obtain ⟨v, hv, hfields⟩ := Option.map_eq_some_iff.1 hlost
    simp only [Prod.mk.injEq] at hfields
    have huv : u = v := Option.some.inj (hu.symm.trans hv)
    rw [huv] at hheld
    exact absurd (hfields.2.2.1.symm.trans hheld.owner) nofun
  · exact ⟨by decide, by decide, rfl⟩
  · intro h
    have hsame : leaseOf ((reached (copied ++ [overwrite] ++ revive)).step (fun _ => "")
        comeBack) = leaseOf (reached (copied ++ [overwrite] ++ revive)) := by
      unfold leaseOf
      rw [h]
      rfl
    rw [hback, hagain] at hsame
    cases hsame

open Sample in
/-- The first claim of a child raises its epoch. -/
theorem leases_fenced_claim :
    EpochStep (fun _ => "") (reached ([callAt 0 (begin rootId 3 (by decide)),
      callAt 0 (spawn rootId)] ++ [] ++ [])) (callAt 0 (.claimRun "agent-run-1" "worker" 30000)) :=
  (leases_fenced (fun _ => "") 0
    [callAt 0 (begin rootId 3 (by decide)), callAt 0 (spawn rootId)] [] []
    (callAt 0 (.claimRun "agent-run-1" "worker" 30000))
    ⟨⟨forward_callAt le_rfl, trivial⟩, ⟨forward_callAt le_rfl, trivial⟩,
      ⟨forward_callAt le_rfl, trivial⟩, trivial⟩).1

end Purra
