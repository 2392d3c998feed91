import ZkVote.Lib.Totals
import ZkVote.Voting.Footprints

/-!
# The voting contract: time-weighted average balances

`get_twab` walks over the ledgers of a window and adds up the balances that it meets there. It starts with
nothing, whatever the balance was before the window.
-/

open Lib Lib.Outcome

namespace ZkVote.Voting

/-! ## The code -/

/-- `saturating_mul` of `i128`. -/
def saturating_mul (a b : Int) : Int := max (-2 ^ 127) (min (a * b) (2 ^ 127 - 1))

/-- The variables of the loop. -/
structure TwabScan where
  weighted_sum : Int := 0
  prev_ledger : Nat
  prev_balance : Int := 0
  has_data : Bool := false

/-- The sum with the balance so far, held up to the ledger. -/
def add_segment (scan : TwabScan) (ledger : Nat) : Outcome VotingError Int :=
  let duration := ledger - scan.prev_ledger
  expect (checkedInt 128 (scan.weighted_sum + saturating_mul scan.prev_balance duration))

def take_checkpoint (scan : TwabScan) (ledger : Nat) (balance : Int) : Outcome VotingError TwabScan := do
  let weighted_sum ← if scan.has_data = true then add_segment scan ledger else .ok scan.weighted_sum
  return { weighted_sum := weighted_sum, prev_ledger := ledger, prev_balance := balance, has_data := true }

/-- The loop over the ledgers of the window, with the number of rounds that are left. -/
def scan_checkpoints (checkpoint : Nat → Option Int) (end_ledger : Nat) :
    Nat → Nat → TwabScan → Outcome VotingError TwabScan
  | 0, _, scan => .ok scan
  | rounds + 1, current_ledger, scan =>
    if current_ledger ≤ end_ledger then do
      let scan ←
        match checkpoint current_ledger with
        | some balance => take_checkpoint scan current_ledger balance
        | none => .ok scan
      let current_ledger ← expect (checkedAdd 32 current_ledger 1)
      scan_checkpoints checkpoint end_ledger rounds current_ledger scan
    else .ok scan

/-- The final segment, and the division. -/
def average (total_duration end_ledger : Nat) (scan : TwabScan) : Outcome VotingError (Option Int) := do
  let weighted_sum ← if scan.has_data = true then add_segment scan end_ledger else .ok scan.weighted_sum
  if scan.has_data = false then return none
  else return some (weighted_sum.tdiv total_duration)

def get_twab (s : VotingState) (dao_id : Nat) (voter : Address) (start_ledger end_ledger : Nat) :
    Outcome VotingError (Option Int) :=
  if end_ledger ≤ start_ledger then .ok none
  else do
    let total_duration := end_ledger - start_ledger
    let scan ← scan_checkpoints ((s.daos dao_id).balance_checkpoint voter) end_ledger (end_ledger + 1 - start_ledger)
      start_ledger { prev_ledger := start_ledger }
    average total_duration end_ledger scan

/-! ## What it should give -/

/-- The average over the window of the balance that the checkpoints make, rounded towards zero. -/
def twab (checkpoint : Nat → Option Int) (start_ledger end_ledger : Nat) : Option Int :=
  if end_ledger ≤ start_ledger then none
  else if ∀ ledger ≤ end_ledger, checkpoint ledger = none then none
  else some (((Finset.Ico start_ledger end_ledger).sum (valueAt checkpoint)).tdiv (end_ledger - start_ledger : Nat))

/-- The checkpoints of the window, each with the number of ledgers it lasts in it. -/
def segments (checkpoint : Nat → Option Int) (start_ledger end_ledger : Nat) : List (Int × Nat) :=
  spans end_ledger (marksFrom checkpoint start_ledger (end_ledger + 1 - start_ledger))

def first_checkpoint (checkpoint : Nat → Option Int) (start_ledger end_ledger : Nat) : Nat :=
  ((marksFrom checkpoint start_ledger (end_ledger + 1 - start_ledger)).head?.map Prod.fst).getD end_ledger

/-- What the walk leaves out: the balance from before the window, up to the first checkpoint in it, and what
saturation cuts off. -/
def missed (checkpoint : Nat → Option Int) (start_ledger end_ledger : Nat) : Int :=
  valueBefore checkpoint start_ledger * (first_checkpoint checkpoint start_ledger end_ledger - start_ledger : Nat) +
    ((segments checkpoint start_ledger end_ledger).map fun p => p.1 * p.2 - saturating_mul p.1 p.2).sum

def PartialSumsFit (amounts : List Int) : Prop :=
  ∀ first, first <+: amounts → -2 ^ 127 ≤ first.sum ∧ first.sum < 2 ^ 127

/-- The window ends before the last ledger there is. It has a checkpoint, the sums fit, and what is left out is
rounded away; or there is no checkpoint up to its end. -/
def CountsAll (checkpoint : Nat → Option Int) (start_ledger end_ledger : Nat) : Prop :=
  end_ledger ≤ start_ledger ∨ end_ledger < u32Max ∧
    ((∀ ledger ≤ end_ledger, checkpoint ledger = none) ∨
      (∃ ledger, start_ledger ≤ ledger ∧ ledger ≤ end_ledger ∧ checkpoint ledger ≠ none) ∧
        PartialSumsFit ((segments checkpoint start_ledger end_ledger).map fun p => saturating_mul p.1 p.2) ∧
        let sum := (Finset.Ico start_ledger end_ledger).sum (valueAt checkpoint)
        (sum - missed checkpoint start_ledger end_ledger).tdiv (end_ledger - start_ledger : Nat) =
          sum.tdiv (end_ledger - start_ledger : Nat))

/-! ## The walk -/

section
variable {checkpoint : Nat → Option Int} {start_ledger end_ledger : Nat}

def checked_sum : Int → List Int → Outcome VotingError Int
  | sum, [] => .ok sum
  | sum, amount :: amounts => do
    let sum ← expect (checkedInt 128 (sum + amount))
    checked_sum sum amounts

theorem checked_sum_eq_ok {sum total : Int} {amounts : List Int} :
    checked_sum sum amounts = .ok total ↔
      (∀ first, first <+: amounts → first ≠ [] → -2 ^ 127 ≤ sum + first.sum ∧ sum + first.sum < 2 ^ 127) ∧
        sum + amounts.sum = total := by
  induction amounts generalizing sum with
  | nil =>
    simp [checked_sum]
  | cons amount amounts ih =>
    simp only [checked_sum, bind_eq_ok, expect_eq_ok, checkedInt_eq_some, ih, List.sum_cons]
    constructor
    · rintro ⟨_, ⟨hfits, rfl⟩, hrest, htotal⟩
      refine ⟨fun first hfirst hne => ?_, by omega⟩
      obtain rfl | ⟨rest, rfl, hprefix⟩ := List.prefix_cons_iff.mp hfirst
      · exact absurd rfl hne
      · by_cases hrest' : rest = []
        · subst hrest'
          simpa using hfits
        · have := hrest rest hprefix hrest'
          rw [List.sum_cons, ← Int.add_assoc]
          exact this
    · rintro ⟨hall, htotal⟩
      refine ⟨sum + amount, ⟨by simpa using hall [amount] (by simp) (by simp), rfl⟩, fun first hfirst hne => ?_, by omega⟩
      have := hall (amount :: first) ((List.prefix_cons_inj amount).mpr hfirst) (List.cons_ne_nil _ _)
      rwa [List.sum_cons, ← Int.add_assoc] at this

theorem checked_sum_zero_eq_ok {total : Int} {amounts : List Int} :
    checked_sum 0 amounts = .ok total ↔ PartialSumsFit amounts ∧ amounts.sum = total := by
  rw [checked_sum_eq_ok]
  simp only [Int.zero_add]
  refine and_congr_left fun _ => ⟨fun hall first hfirst => ?_, fun hall first hfirst _ => hall first hfirst⟩
  by_cases hne : first = []
  · subst hne
    decide
  · exact hall first hfirst hne

def amounts (end_ledger : Nat) (marks : List (Nat × Int)) : List Int :=
  (spans end_ledger marks).map fun p => saturating_mul p.1 p.2

theorem checked_sum_cons_eq_ok {sum total amount : Int} {rest : List Int} :
    checked_sum sum (amount :: rest) = .ok total ↔
      ∃ next, checkedInt 128 (sum + amount) = some next ∧ checked_sum next rest = .ok total := by
  simp only [checked_sum, bind_eq_ok, expect_eq_ok]

/-- With a balance at hand, the rest of the walk adds up that balance and the checkpoints to come. -/
theorem scan_checkpoints_of_data {rounds current_ledger duration : Nat} {scan : TwabScan} {twab : Option Int}
    (hdata : scan.has_data = true) (hrounds : current_ledger + rounds = end_ledger + 1) (hend : end_ledger < u32Max) :
    (∃ scan', scan_checkpoints checkpoint end_ledger rounds current_ledger scan = .ok scan' ∧
        average duration end_ledger scan' = .ok twab) ↔
      ∃ sum, checked_sum scan.weighted_sum (amounts end_ledger ((scan.prev_ledger, scan.prev_balance) ::
        marksFrom checkpoint current_ledger rounds)) = .ok sum ∧ some (sum.tdiv duration) = twab := by
  induction rounds generalizing current_ledger scan with
  | zero =>
    simp [scan_checkpoints, average, hdata, add_segment, marksFrom, amounts, spans, checked_sum]
  | succ rounds ih =>
    have hle : current_ledger ≤ end_ledger := by omega
    have hnext : checkedAdd 32 current_ledger 1 = some (current_ledger + 1) := by
      rw [checkedAdd_eq_some]
      exact ⟨Nat.lt_of_le_of_lt (Nat.succ_le_succ hle) (Nat.succ_lt_succ hend), rfl⟩
    unfold scan_checkpoints marksFrom
    cases checkpoint current_ledger with
    | none =>
      simp only [if_pos hle, hnext, expect, bind_eq_ok, Except.ok.injEq, exists_eq_left']
      exact ih hdata (by omega)
    | some balance =>
      have hcons : amounts end_ledger ((scan.prev_ledger, scan.prev_balance) :: (current_ledger, balance) ::
            marksFrom checkpoint (current_ledger + 1) rounds) =
          saturating_mul scan.prev_balance (current_ledger - scan.prev_ledger : Nat) ::
            amounts end_ledger ((current_ledger, balance) :: marksFrom checkpoint (current_ledger + 1) rounds) := rfl
      simp only [if_pos hle, hnext, bind_eq_ok, take_checkpoint, hdata, if_true, add_segment, expect_eq_ok, pure_eq_ok,
        hcons, checked_sum_cons_eq_ok]
      constructor
      · rintro ⟨scan', ⟨_, ⟨next, hsum, rfl⟩, _, hcurrent, hrest⟩, haverage⟩
        cases hcurrent
        obtain ⟨total, htotal, htwab⟩ := (ih rfl (by omega)).mp ⟨scan', hrest, haverage⟩
        exact ⟨total, ⟨next, hsum, htotal⟩, htwab⟩
      · rintro ⟨total, ⟨next, hsum, htotal⟩, htwab⟩
        let taken : TwabScan :=
          { weighted_sum := next, prev_ledger := current_ledger, prev_balance := balance, has_data := true }
        have hdata' : taken.has_data = true := rfl
        obtain ⟨scan', hrest, haverage⟩ := (ih hdata' (by omega)).mpr ⟨total, htotal, htwab⟩
        exact ⟨scan', ⟨taken, ⟨next, hsum, rfl⟩, _, rfl, hrest⟩, haverage⟩

/-- Without one, it begins at the first checkpoint. -/
theorem scan_checkpoints_of_no_data {rounds current_ledger start duration : Nat} {twab : Option Int}
    (hrounds : current_ledger + rounds = end_ledger + 1) (hend : end_ledger < u32Max) :
    (∃ scan', scan_checkpoints checkpoint end_ledger rounds current_ledger { prev_ledger := start } = .ok scan' ∧
        average duration end_ledger scan' = .ok twab) ↔
      marksFrom checkpoint current_ledger rounds = [] ∧ none = twab ∨
        marksFrom checkpoint current_ledger rounds ≠ [] ∧
          ∃ sum, checked_sum 0 (amounts end_ledger (marksFrom checkpoint current_ledger rounds)) = .ok sum ∧
            some (sum.tdiv duration) = twab := by
  induction rounds generalizing current_ledger with
  | zero => simp [scan_checkpoints, average, marksFrom]
  | succ rounds ih =>
    have hle : current_ledger ≤ end_ledger := by omega
    have hnext : checkedAdd 32 current_ledger 1 = some (current_ledger + 1) := by
      rw [checkedAdd_eq_some]
      exact ⟨Nat.lt_of_le_of_lt (Nat.succ_le_succ hle) (Nat.succ_lt_succ hend), rfl⟩
    unfold scan_checkpoints marksFrom
    cases checkpoint current_ledger with
    | none =>
      simp only [if_pos hle, hnext, expect, bind_eq_ok, Except.ok.injEq, exists_eq_left']
      exact ih (by omega)
    | some balance =>
      let taken : TwabScan := { prev_ledger := current_ledger, prev_balance := balance, has_data := true }
      have hdata : taken.has_data = true := rfl
      have htaken : take_checkpoint { prev_ledger := start } current_ledger balance = .ok taken := rfl
      simp only [if_pos hle, hnext, htaken, expect, bind_eq_ok, Except.ok.injEq, exists_eq_left', List.cons_ne_nil,
        false_and, false_or, ne_eq, not_false_eq_true, true_and]
      exact scan_checkpoints_of_data hdata (by omega) hend

/-- A window up to the last ledger there is cannot be walked to its end. -/
theorem scan_checkpoints_overflows {rounds current_ledger : Nat} {scan scan' : TwabScan}
    (hrounds : current_ledger + rounds = end_ledger + 1) (hle : current_ledger ≤ end_ledger) (hend : u32Max ≤ end_ledger) :
    scan_checkpoints checkpoint end_ledger rounds current_ledger scan ≠ .ok scan' := by
  induction rounds generalizing current_ledger scan with
  | zero => omega
  | succ rounds ih =>
    intro h
    have hmax : u32Max = 2 ^ 32 - 1 := rfl
    unfold scan_checkpoints at h
    cases hmark : checkpoint current_ledger with
    | none =>
      simp only [if_pos hle, hmark, bind_eq_ok, expect_eq_ok, checkedAdd_eq_some] at h
      obtain ⟨_, -, _, ⟨hlt, rfl⟩, hrest⟩ := h
      exact ih (by omega) (by omega) hrest
    | some balance =>
      simp only [if_pos hle, hmark, bind_eq_ok, expect_eq_ok, checkedAdd_eq_some] at h
      obtain ⟨_, -, _, ⟨hlt, rfl⟩, hrest⟩ := h
      exact ih (by omega) (by omega) hrest

theorem sum_eq_counted_add_missed {start_ledger end_ledger : Nat} (h : start_ledger ≤ end_ledger) :
    (Finset.Ico start_ledger end_ledger).sum (valueAt checkpoint) =
      ((segments checkpoint start_ledger end_ledger).map fun p => saturating_mul p.1 p.2).sum +
        missed checkpoint start_ledger end_ledger := by
  have hcut (l : List (Int × Nat)) : (l.map fun p => p.2 • p.1).sum =
      (l.map fun p => saturating_mul p.1 p.2).sum + (l.map fun p => p.1 * p.2 - saturating_mul p.1 p.2).sum := by
    rw [← List.sum_map_add]
    refine congrArg List.sum (List.map_congr_left fun p _ => ?_)
    rw [nsmul_eq_mul]
    ring
  rw [sum_valueAt (by omega), spans, List.map_cons, List.sum_cons, hcut, missed, nsmul_eq_mul]
  unfold segments first_checkpoint
  ring

theorem marksFrom_ne_nil_iff :
    marksFrom checkpoint start_ledger (end_ledger + 1 - start_ledger) ≠ [] ↔
      ∃ ledger, start_ledger ≤ ledger ∧ ledger ≤ end_ledger ∧ checkpoint ledger ≠ none := by
  rw [ne_eq, marksFrom_eq_nil]
  push Not
  refine exists_congr fun ledger => and_congr_right fun hle => and_congr_left fun _ => ?_
  omega

theorem get_twab_eq_ok {s : VotingState} {d : Nat} {voter : Address} {result : Option Int}
    (hlt : start_ledger < end_ledger) :
    get_twab s d voter start_ledger end_ledger = .ok result ↔
      end_ledger < u32Max ∧
        let marks := marksFrom ((s.daos d).balance_checkpoint voter) start_ledger (end_ledger + 1 - start_ledger)
        (marks = [] ∧ none = result ∨ marks ≠ [] ∧ ∃ sum, checked_sum 0 (amounts end_ledger marks) = .ok sum ∧
          some (sum.tdiv (end_ledger - start_ledger : Nat)) = result) := by
  unfold get_twab
  rw [if_neg (by omega), bind_eq_ok]
  by_cases hend : end_ledger < u32Max
  · rw [and_iff_right hend]
    exact scan_checkpoints_of_no_data (by omega) hend
  · refine iff_of_false ?_ fun h => hend h.1
    rintro ⟨scan, hscan, -⟩
    exact scan_checkpoints_overflows (by omega) (by omega) (by omega) hscan

/-- `get_twab` gives the average over the window if and only if it counts all of the balance. -/
theorem get_twab_exact_iff (s : VotingState) (dao_id : Nat) (voter : Address) (start_ledger end_ledger : Nat) :
    get_twab s dao_id voter start_ledger end_ledger =
        .ok (twab ((s.daos dao_id).balance_checkpoint voter) start_ledger end_ledger) ↔
      CountsAll ((s.daos dao_id).balance_checkpoint voter) start_ledger end_ledger := by
  by_cases hwindow : end_ledger ≤ start_ledger
  · refine iff_of_true ?_ (.inl hwindow)
    rw [get_twab, twab, if_pos hwindow, if_pos hwindow]
  rw [get_twab_eq_ok (by omega), CountsAll, or_iff_right hwindow, twab, if_neg hwindow]
  refine and_congr_right fun _ => ?_
  by_cases hnone : ∀ ledger ≤ end_ledger, (s.daos dao_id).balance_checkpoint voter ledger = none
  · refine iff_of_true (.inl ⟨marksFrom_eq_nil.mpr fun u _ hu => hnone u (by omega), ?_⟩) (.inl hnone)
    rw [if_pos hnone]
  · have hsum : (amounts end_ledger (marksFrom ((s.daos dao_id).balance_checkpoint voter) start_ledger
          (end_ledger + 1 - start_ledger))).sum =
        (Finset.Ico start_ledger end_ledger).sum (valueAt ((s.daos dao_id).balance_checkpoint voter)) -
          missed ((s.daos dao_id).balance_checkpoint voter) start_ledger end_ledger := by
      rw [sum_eq_counted_add_missed (by omega), Int.add_sub_cancel]
      rfl
    rw [if_neg hnone, or_iff_right hnone, ← marksFrom_ne_nil_iff]
    constructor
    · rintro (⟨-, hresult⟩ | ⟨hmarks, total, htotal, hresult⟩)
      · cases hresult
      · obtain ⟨hfits, rfl⟩ := checked_sum_zero_eq_ok.mp htotal
        rw [hsum] at hresult
        exact ⟨hmarks, hfits, Option.some.inj hresult⟩
    · rintro ⟨hmarks, hfits, hresult⟩
      refine .inr ⟨hmarks, _, checked_sum_zero_eq_ok.mpr ⟨hfits, rfl⟩, ?_⟩
      rw [hsum]
      exact congrArg some hresult

end

/-! ## A balance from before the window -/

/-- The balance is 100 from ledger 1 on, and the average over ledgers 10 to 20 is missing. -/
theorem balance_before_window_missed : ∃ log s, VotingRun sampleCrypto 0 0 log s ∧
    twab ((s.daos 0).balance_checkpoint 7) 10 20 = some 100 ∧ get_twab s 0 7 10 20 = .ok none := by
  obtain ⟨log, s, hrun, htest⟩ := exists_run (C := sampleCrypto) (r := 0) (g := 0)
    [.dao (.record_balance_checkpoint 0 7 100 0)]
    (fun _ s => decide (twab ((s.daos 0).balance_checkpoint 7) 10 20 = some 100 ∧
      (get_twab s 0 7 10 20).toOption = some none)) (by decide +kernel)
  obtain ⟨haverage, hnone⟩ := of_decide_eq_true htest
  exact ⟨log, s, hrun, haverage, toOption_eq_some.mp hnone⟩

end ZkVote.Voting
