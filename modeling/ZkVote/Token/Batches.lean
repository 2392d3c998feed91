import Mathlib.Algebra.BigOperators.Group.List.Basic
import ZkVote.Token.Allowances
import ZkVote.Token.Supply

/-!
# The token: batches

A batch checks its items before it does the first of them. What earlier items do to later ones
is then seen by a transfer and a mint, but not by an approval.
-/

open Lib Lib.Outcome

namespace ZkVote.Token

/-- The single calls that a batch stands for. -/
def Call.singles : Call → Option (List Call)
  | .batch_transfer from_ transfers => some (transfers.map fun t => .transfer from_ t.1 t.2)
  | .batch_mint mints => some (mints.map fun t => .mint t.1 t.2)
  | .batch_approve from_ approvals => some (approvals.map fun t => .approve from_ t.1 t.2.1 t.2.2)
  | _ => none

/-- The calls one after the other, as long as they are accepted. -/
def inOrder (X : TokenHost) (env : Env) : TokenState → List Call → Outcome TokenError TokenState :=
  for_each fun s call => step X s env call

/-- The state the ledger holds after a call. -/
def settled (X : TokenHost) (s : TokenState) (call : Env × Call) : TokenState :=
  match step X s call.1 call.2 with
  | .ok s' => s'
  | .error _ => s

/-- A run with the rejected calls in it. -/
def AttemptRun (X : TokenHost) (admin : Address) : List (TokenState × Env × Call) → TokenState → Prop :=
  Run (fun s call s' => settled X s call = s') (constructor admin)

/-- An accepted batch leaves what its single calls leave, all of them accepted. A rejected one changes nothing. -/
structure Refines (X : TokenHost) (s : TokenState) (call : Env × Call) (s' : TokenState) : Prop where
  accepted : ∀ calls, call.2.singles = some calls → (step X s call.1 call.2).isOk = true →
    inOrder X call.1 s calls = .ok s'
  rejected : (step X s call.1 call.2).isOk = false → s' = s

/-- The last approval of the spender. -/
def lastApproval (spender : Address) (approvals : List Approval) : Option (Int × Nat) :=
  (approvals.reverse.find? fun t => t.1 = spender).map Prod.snd

/-- Some spender is named again, before its last approval has expired, and for another amount, neither zero. -/
def Renames (env : Env) (approvals : List Approval) : Prop :=
  ∃ before spender amount expiration_ledger after,
    approvals = before ++ (spender, amount, expiration_ledger) :: after ∧
      ∃ last, lastApproval spender before = some last ∧ env.sequence ≤ last.2 ∧ is_race_rejected last.1 amount

/-- An accepted batch of approvals names a spender again. -/
def RenamesSpender (X : TokenHost) (s : TokenState) (call : Env × Call) : Prop :=
  ∃ from_ approvals, call.2 = .batch_approve from_ approvals ∧ (step X s call.1 call.2).isOk = true ∧
    Renames call.1 approvals

section
variable {X : TokenHost} {env : Env} {s s' : TokenState} {from_ : Address} {A : Allowances}
  {approvals before : List Approval}

/-! ## Transfers and mints -/

theorem for_each_map {α β : Type} (f : TokenState → β → Outcome TokenError TokenState) (g : α → β) (s : TokenState)
    (items : List α) : for_each f s (items.map g) = for_each (fun s item => f s (g item)) s items := by
  induction items generalizing s with
  | nil => rfl
  | cons item rest ih =>
    rw [List.map_cons, for_each, for_each]
    exact bind_congr fun s₁ => ih s₁

/-- A loop whose every step another function makes too. -/
theorem for_each_mono {α : Type} {f g : TokenState → α → Outcome TokenError TokenState} {items : List α}
    (hf : ∀ item ∈ items, ∀ s s', f s item = .ok s' → g s item = .ok s') (h : for_each f s items = .ok s') :
    for_each g s items = .ok s' := by
  induction items generalizing s with
  | nil => exact h
  | cons item rest ih =>
    obtain ⟨s₁, h₁, hrest⟩ := bind_eq_ok.mp h
    rw [List.forall_mem_cons] at hf
    exact bind_eq_ok.mpr ⟨s₁, hf.1 s s₁ h₁, ih hf.2 hrest⟩

theorem batch_transfer_refines {transfers : List (Address × Int)} (h : batch_transfer env s from_ transfers = .ok s') :
    for_each (fun s (t : Address × Int) => transfer env s from_ t.1 t.2) s transfers = .ok s' := by
  simp only [batch_transfer, bind_eq_ok] at h
  obtain ⟨_, hsigned, _, -, total, htotal, _, -, hloop⟩ := h
  refine for_each_mono (fun t ht s₁ s₂ hxfer => ?_) hloop
  have hamount : ¬ t.2 < 0 := Int.not_lt.mpr (batch_total_nonneg htotal t ht)
  rw [transfer, hsigned, ok_bind, require_of hamount, ok_bind]
  exact hxfer

theorem batch_total_eq {transfers : List (Address × Int)} {start total : Int}
    (h : batch_total start transfers = .ok total) : total = start + (transfers.map Prod.snd).sum := by
  induction transfers generalizing start with
  | nil =>
    cases h
    simp
  | cons t rest ih =>
    simp only [batch_total, bind_eq_ok, i128_eq_ok] at h
    obtain ⟨_, -, next, ⟨-, rfl⟩, hrest⟩ := h
    rw [ih hrest, List.map_cons, List.sum_cons, add_assoc]

/-- What is minted leaves the admin and the cap, and is added to the supply. -/
structure Mints (amount : Int) (s s' : TokenState) : Prop where
  admin : s'.admin = s.admin
  max_supply : s'.max_supply = s.max_supply
  fits : -2 ^ 127 ≤ s.total_supply + amount ∧ s.total_supply + amount < 2 ^ 127
  total_supply : s'.total_supply = s.total_supply + amount

theorem mint_balance_mints {to_ : Address} {amount : Int} (h : mint_balance env s to_ amount = .ok s') :
    Mints amount s s' := by
  obtain ⟨s₁, hreceive, hsupply⟩ := bind_eq_ok.mp h
  have hsame : s₁.admin = s.admin ∧ s₁.max_supply = s.max_supply ∧ s₁.total_supply = s.total_supply := by
    unfold receive_balance at hreceive
    split at hreceive
    · cases hreceive
      exact ⟨rfl, rfl, rfl⟩
    · simp at hreceive
      obtain ⟨-, rfl⟩ := hreceive
      exact ⟨rfl, rfl, rfl⟩
  simp [increment_supply] at hsupply
  obtain ⟨hfits, -, rfl⟩ := hsupply
  rw [hsame.2.2] at hfits
  exact ⟨hsame.1, hsame.2.1, hfits, congrArg (· + amount) hsame.2.2⟩

/-- The cap leaves room for `amount` more. -/
def Room (s : TokenState) (amount : Int) : Prop := ∀ cap, s.max_supply = some cap → s.total_supply + amount ≤ cap

theorem check_supply_cap_room {amount : Int} (h : check_supply_cap s amount = .ok ()) : Room s amount := by
  intro cap hcap
  unfold check_supply_cap at h
  rw [hcap] at h
  simp at h
  exact h.2

theorem check_supply_cap_of_room {amount : Int} (hroom : Room s amount)
    (hfits : -2 ^ 127 ≤ s.total_supply + amount ∧ s.total_supply + amount < 2 ^ 127) :
    check_supply_cap s amount = .ok () := by
  unfold check_supply_cap
  split
  · rfl
  · next cap hcap =>
    have hle := hroom cap hcap
    rw [i128_eq_ok.mpr ⟨hfits, rfl⟩, ok_bind]
    exact require_of (Int.not_lt.mpr hle)

/-- One item after the other, the cap leaves room for the rest. -/
theorem for_each_mint {mints : List (Address × Int)} (hsigned : env.auths s.admin = true)
    (hnonneg : ∀ t ∈ mints, 0 ≤ t.2) (hroom : Room s (mints.map Prod.snd).sum)
    (h : for_each (fun s (t : Address × Int) => mint_balance env s t.1 t.2) s mints = .ok s') :
    for_each (fun s (t : Address × Int) => mint env s t.1 t.2) s mints = .ok s' := by
  induction mints generalizing s with
  | nil => exact h
  | cons t rest ih =>
    obtain ⟨s₁, hmint, hrest⟩ := bind_eq_ok.mp h
    obtain ⟨hamount, hnonneg⟩ := List.forall_mem_cons.mp hnonneg
    have hmints := mint_balance_mints hmint
    have hlater : 0 ≤ (rest.map Prod.snd).sum := by
      refine List.sum_nonneg fun a ha => ?_
      obtain ⟨t', ht', rfl⟩ := List.mem_map.mp ha
      exact hnonneg t' ht'
    rw [List.map_cons, List.sum_cons] at hroom
    have hnow : Room s t.2 := fun cap hcap => by
      have := hroom cap hcap
      omega
    have hnext : Room s₁ (rest.map Prod.snd).sum := fun cap hcap => by
      rw [hmints.max_supply] at hcap
      have := hroom cap hcap
      rw [hmints.total_supply]
      omega
    refine bind_eq_ok.mpr ⟨s₁, ?_, ih (by rw [hmints.admin, hsigned]) hnonneg hnext hrest⟩
    change mint env s t.1 t.2 = .ok s₁
    rw [mint, (require_auth_eq_ok (u := ())).mpr hsigned, ok_bind, require_of (Int.not_lt.mpr hamount), ok_bind,
      check_supply_cap_of_room hnow hmints.fits, ok_bind]
    exact hmint

theorem batch_mint_refines {mints : List (Address × Int)} (h : batch_mint env s mints = .ok s') :
    for_each (fun s (t : Address × Int) => mint env s t.1 t.2) s mints = .ok s' := by
  simp only [batch_mint, bind_eq_ok] at h
  obtain ⟨_, hsigned, _, -, total, htotal, _, hcap, hloop⟩ := h
  have htotal_eq := batch_total_eq htotal
  rw [zero_add] at htotal_eq
  have hroom : Room s (mints.map Prod.snd).sum := htotal_eq ▸ check_supply_cap_room hcap
  exact for_each_mint (require_auth_eq_ok.mp hsigned) (batch_total_nonneg htotal) hroom hloop

/-! ## Approvals -/

/-- The entries after the approvals, the last of each spender on top. -/
def approved (from_ : Address) (A : Allowances) (approvals : List Approval) : Allowances :=
  approvals.foldl (fun A t => Function.update A (from_, t.1) (entry t.2.1 t.2.2)) A

/-- The entries after the checks. -/
def checked (env : Env) (from_ : Address) (A : Allowances) (approvals : List Approval) : Allowances :=
  approvals.foldl (fun A t => expire env (from_, t.1) A) A

/-- Where a key is written at last, nothing is left of a read of it before. -/
theorem approved_expire {spender : Address} (hmem : ∃ t ∈ approvals, t.1 = spender) :
    approved from_ (expire env (from_, spender) A) approvals = approved from_ A approvals := by
  induction approvals generalizing A with
  | nil =>
    obtain ⟨_, ht, -⟩ := hmem
    cases ht
  | cons t rest ih =>
    rw [approved, approved, List.foldl_cons, List.foldl_cons]
    by_cases hspender : t.1 = spender
    · rw [← hspender, update_expire]
    · have hrest : ∃ t ∈ rest, t.1 = spender := by
        obtain ⟨t', ht', rfl⟩ := hmem
        rcases List.mem_cons.mp ht' with rfl | ht'
        · exact absurd rfl hspender
        · exact ⟨t', ht', rfl⟩
      rw [update_expire_of_ne fun h => hspender (Prod.mk.inj h).2]
      exact ih hrest

theorem approved_checked {items : List Approval} (hsub : ∀ t ∈ items, t ∈ approvals) :
    approved from_ (checked env from_ A items) approvals = approved from_ A approvals := by
  induction items generalizing A with
  | nil => rfl
  | cons t rest ih =>
    obtain ⟨ht, hrest⟩ := List.forall_mem_cons.mp hsub
    rw [checked, List.foldl_cons]
    exact (ih hrest).trans (approved_expire ⟨t, ht, rfl⟩)

theorem for_each_write {s : TokenState} : for_each (fun s (t : Approval) =>
    (return write_allowance s from_ t.1 t.2.1 t.2.2 : Outcome TokenError TokenState)) s approvals =
      .ok { s with allowance := approved from_ s.allowance approvals } := by
  induction approvals generalizing s with
  | nil => rfl
  | cons t rest ih =>
    rw [for_each, pure_bind, ih, write_allowance_entry]
    rfl

/-- The checks see the entries there were before the batch. -/
theorem for_each_check (h : for_each (check_approval env from_) s approvals = .ok s') :
    (∀ t ∈ approvals, ¬ is_race_rejected (live env (s.allowance (from_, t.1))) t.2.1) ∧
      s' = { s with allowance := checked env from_ s.allowance approvals } := by
  induction approvals generalizing s with
  | nil =>
    cases h
    exact ⟨List.forall_mem_nil _, rfl⟩
  | cons t rest ih =>
    obtain ⟨s₁, h₁, hrest⟩ := bind_eq_ok.mp h
    obtain ⟨-, hrace, rfl⟩ := check_approval_eq_ok.mp h₁
    obtain ⟨hraces, rfl⟩ := ih hrest
    refine ⟨List.forall_mem_cons.mpr ⟨hrace, fun t' ht' => ?_⟩, rfl⟩
    have hlive := hraces t' ht'
    rwa [live_expire] at hlive

theorem batch_approve_accepted (h : batch_approve env s from_ approvals = .ok s') : env.auths from_ = true ∧
    (∀ t ∈ approvals, ¬ is_race_rejected (live env (s.allowance (from_, t.1))) t.2.1) ∧
    s' = { s with allowance := approved from_ s.allowance approvals } := by
  simp only [batch_approve, bind_eq_ok, require_auth_eq_ok] at h
  obtain ⟨_, hsigned, _, -, s₁, hchecks, hwrites⟩ := h
  obtain ⟨hraces, rfl⟩ := for_each_check hchecks
  refine ⟨hsigned, hraces, ?_⟩
  rw [for_each_write] at hwrites
  cases hwrites
  rw [approved_checked fun t ht => ht]

/-- The single approvals are accepted if none races with the entry that the ones before it leave. -/
theorem for_each_approve_iff (hsigned : env.auths from_ = true) :
    for_each (fun s (t : Approval) => approve env s from_ t.1 t.2.1 t.2.2) s approvals = .ok s' ↔
      (∀ before t after, approvals = before ++ t :: after →
        ¬ is_race_rejected (live env (approved from_ s.allowance before (from_, t.1))) t.2.1) ∧
      s' = { s with allowance := approved from_ s.allowance approvals } := by
  induction approvals generalizing s with
  | nil => simp [for_each, approved, eq_comm]
  | cons t rest ih =>
    simp only [for_each, bind_eq_ok, approve_eq_ok]
    constructor
    · rintro ⟨s₁, ⟨-, hrace, rfl⟩, hrest⟩
      obtain ⟨hraces, rfl⟩ := ih.mp hrest
      refine ⟨fun before t' after heq => ?_, rfl⟩
      cases before with
      | nil =>
        cases heq
        exact hrace
      | cons t₀ before =>
        obtain ⟨hhead, htail⟩ := List.cons.inj heq
        subst hhead
        exact hraces before t' after htail
    · rintro ⟨hraces, rfl⟩
      refine ⟨_, ⟨hsigned, hraces [] t rest rfl, rfl⟩, ih.mpr ⟨fun before t' after heq => ?_, rfl⟩⟩
      exact hraces (t :: before) t' after (congrArg (List.cons t) heq)

/-- After some approvals, a spender has the last one made to it, or what it had. -/
theorem approved_apply (from_ spender : Address) (A : Allowances) (approvals : List Approval) :
    approved from_ A approvals (from_, spender) =
      ((lastApproval spender approvals).map fun e => entry e.1 e.2).getD (A (from_, spender)) := by
  induction approvals using List.reverseRecOn with
  | nil => rfl
  | append_singleton before t ih =>
    rw [approved, List.foldl_append, List.foldl_cons, List.foldl_nil, lastApproval, List.reverse_append]
    by_cases hspender : t.1 = spender
    · subst hspender
      simp
    · rw [Function.update_of_ne fun h => hspender (Prod.mk.inj h).2.symm]
      simp only [List.reverse_singleton, List.singleton_append, List.find?_cons, hspender, decide_false]
      exact ih

theorem live_approved (env : Env) (from_ spender : Address) (A : Allowances) (before : List Approval) :
    live env (approved from_ A before (from_, spender)) = match lastApproval spender before with
      | some last => if env.sequence ≤ last.2 then last.1 else 0
      | none => live env (A (from_, spender)) := by
  rw [approved_apply]
  cases lastApproval spender before with
  | none => rfl
  | some last => exact live_entry

/-- An accepted batch of approvals is what its single calls are, unless it names a spender again. -/
theorem batch_approve_refines_iff (h : batch_approve env s from_ approvals = .ok s') :
    for_each (fun s (t : Approval) => approve env s from_ t.1 t.2.1 t.2.2) s approvals = .ok s' ↔
      ¬ Renames env approvals := by
  obtain ⟨hsigned, hraces, rfl⟩ := batch_approve_accepted h
  rw [for_each_approve_iff hsigned, and_iff_left rfl]
  constructor
  · rintro hafter ⟨before, spender, amount, expiration_ledger, after, heq, last, hlast, hopen, hrace⟩
    refine hafter before _ after heq ?_
    rw [live_approved, hlast]
    change is_race_rejected (if env.sequence ≤ last.2 then last.1 else 0) amount
    rwa [if_pos hopen]
  · intro hnone before t after heq hrace
    rw [live_approved] at hrace
    split at hrace
    · next last hlast =>
      split at hrace
      · next hopen =>
        obtain ⟨spender, amount, expiration_ledger⟩ := t
        exact hnone ⟨before, spender, amount, expiration_ledger, after, heq, last, hlast, hopen, hrace⟩
      · exact hrace.1 rfl
    · exact hraces t (heq ▸ List.mem_append_right _ (List.mem_cons_self ..)) hrace

/-! ## Runs -/

theorem settled_of_ok {call : Env × Call} (h : step X s call.1 call.2 = .ok s') : settled X s call = s' := by
  rw [settled, h]

theorem settled_of_error {call : Env × Call} (h : (step X s call.1 call.2).isOk = false) :
    settled X s call = s := by
  unfold settled
  split
  · next s' hok =>
    rw [hok] at h
    cases h
  · rfl

theorem refines_of_singles {call : Env × Call}
    (h : ∀ calls s', call.2.singles = some calls → step X s call.1 call.2 = .ok s' →
      inOrder X call.1 s calls = .ok s') : Refines X s call (settled X s call) where
  accepted calls hcalls hok := by
    obtain ⟨s', hs⟩ := isOk_iff.mp hok
    rw [settled_of_ok hs]
    exact h calls s' hcalls hs
  rejected := settled_of_error

theorem refines_of_none {call : Env × Call} (h : call.2.singles = none) : Refines X s call (settled X s call) := by
  refine refines_of_singles fun calls s' hcalls => ?_
  rw [h] at hcalls
  cases hcalls

theorem not_renamesSpender {call : Env × Call} (h : ∀ from_ approvals, call.2 ≠ .batch_approve from_ approvals) :
    ¬ RenamesSpender X s call := by
  rintro ⟨from_, approvals, hcall, -⟩
  exact h from_ approvals hcall

theorem refines_iff (s : TokenState) (call : Env × Call) :
    Refines X s call (settled X s call) ↔ ¬ RenamesSpender X s call := by
  obtain ⟨env, call⟩ := call
  cases call with
  | batch_approve from_ approvals =>
    constructor
    · rintro hrefines ⟨_, _, hcall, hok, hrenames⟩
      cases hcall
      obtain ⟨s', hs⟩ := isOk_iff.mp hok
      have hsingles := hrefines.accepted _ rfl hok
      rw [settled_of_ok hs, inOrder, for_each_map] at hsingles
      exact (batch_approve_refines_iff hs).mp hsingles hrenames
    · refine fun hnone => refines_of_singles fun calls s' hcalls hs => ?_
      cases hcalls
      rw [inOrder, for_each_map]
      refine (batch_approve_refines_iff hs).mpr fun hrenames => ?_
      exact hnone ⟨from_, approvals, rfl, isOk_iff.mpr ⟨s', hs⟩, hrenames⟩
  | batch_transfer from_ transfers =>
    refine iff_of_true (refines_of_singles fun calls s' hcalls hs => ?_) (not_renamesSpender nofun)
    cases hcalls
    rw [inOrder, for_each_map]
    exact batch_transfer_refines hs
  | batch_mint mints =>
    refine iff_of_true (refines_of_singles fun calls s' hcalls hs => ?_) (not_renamesSpender nofun)
    cases hcalls
    rw [inOrder, for_each_map]
    exact batch_mint_refines hs
  | _ => exact iff_of_true (refines_of_none rfl) (not_renamesSpender nofun)

/-- Every batch of the run refines its single calls, if and only if no accepted one names a spender again. -/
theorem batches_refine_iff {admin : Address} {log : List (TokenState × Env × Call)} (hrun : AttemptRun X admin log s) :
    (∀ t ∈ Run.transitions log s, Refines X t.1 t.2.1 t.2.2) ↔ ∀ e ∈ log, ¬ RenamesSpender X e.1 e.2 := by
  refine Run.forall_transitions_iff (P := Refines X) (C := fun s call => ¬ RenamesSpender X s call) ?_ hrun
  rintro log s call s' - rfl
  exact refines_iff s call

end

/-! ## A spender that is named twice -/

def batchCalls : List Call :=
  [.batch_mint [(5, 60), (5, 40)], .batch_transfer 5 [(6, 30), (7, 20), (6, 10)],
    .batch_approve 5 [(6, 30, 100), (7, 20, 100), (6, 0, 0), (6, 40, 100)]]

theorem batches_refine_iff_for_three_batches : ∃ log s, AttemptRun sampleHost 0 log s ∧
    ((∀ t ∈ Run.transitions log s, Refines sampleHost t.1 t.2.1 t.2.2) ↔
      ∀ e ∈ log, ¬ RenamesSpender sampleHost e.1 e.2) ∧
    s.balance 6 = 40 ∧ s.allowance (5, 6) = some (40, 100) := by
  obtain ⟨log, s, hrun, htest⟩ := exists_run (X := sampleHost) (a := 0) batchCalls
    (fun _ s => decide (s.balance 6 = 40 ∧ s.allowance (5, 6) = some (40, 100))) (by decide +kernel)
  have hattempt : AttemptRun sampleHost 0 log s := Run.mono (fun _ _ _ => settled_of_ok) hrun
  exact ⟨log, s, hattempt, batches_refine_iff hattempt, of_decide_eq_true htest⟩

/-- A spender is approved for 30 and then for 20. -/
def approveTwice : Call := .batch_approve 5 [(6, 30, 100), (6, 20, 100)]

/-- The batch is accepted, and the second of its single calls is rejected. -/
theorem approved_twice_in_a_batch : ∃ s', Accepts sampleHost (constructor 0) (sampleEnv, approveTwice) s' ∧
    (∀ calls, approveTwice.singles = some calls →
      inOrder sampleHost sampleEnv (constructor 0) calls = fail .AllowanceRaceRejected) ∧
    ¬ Refines sampleHost (constructor 0) (sampleEnv, approveTwice) s' := by
  have hsingles : ∀ calls, approveTwice.singles = some calls →
      inOrder sampleHost sampleEnv (constructor 0) calls = fail .AllowanceRaceRejected := by
    rintro calls hcalls
    cases hcalls
    rfl
  refine ⟨_, rfl, hsingles, fun hrefines => ?_⟩
  have hall := hrefines.accepted _ rfl rfl
  rw [hsingles _ rfl] at hall
  cases hall

end ZkVote.Token
