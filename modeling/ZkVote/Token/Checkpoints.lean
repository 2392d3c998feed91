import ZkVote.Lib.History
import ZkVote.Token.Steps
import ZkVote.Token.Supply

/-!
# The token: balances of the past

A checkpoint is written with every change of a balance, one for a ledger. The
oldest may be dropped, so the search answers for the ledgers since the first one kept.
-/

open Lib Lib.Outcome Lib.History

namespace ZkVote.Token

/-- The loop of `balance_at`; `none` if it has not ended yet. -/
def search (checkpoints : List Checkpoint) (ledger_sequence : Nat) :
    Nat → Nat → Nat → Int → Option (Outcome TokenError Int)
  | 0, _, _, _ => none
  | fuel + 1, low, high, result =>
    if low ≤ high then
      match checkedAdd 32 low high with
      | none => some trap
      | some sum =>
        let mid := sum / 2
        match checkpoints[mid]? with
        | some cp =>
          if cp.ledger_sequence ≤ ledger_sequence then
            search checkpoints ledger_sequence fuel (mid + 1) high cp.balance
          else if mid = 0 then some (.ok result)
          else search checkpoints ledger_sequence fuel low (mid - 1) result
        | none => some (.ok result)
    else some (.ok result)

/-- Each round of the search leaves a checkpoint out. -/
def balance_at (s : TokenState) (address : Address) (ledger_sequence : Nat) : Option (Outcome TokenError Int) :=
  let checkpoints := s.checkpoints address
  if checkpoints = [] then some (.ok 0)
  else search checkpoints ledger_sequence (checkpoints.length + 1) 0 (checkpoints.length - 1) 0

/-- The balance after the last call of the ledger or of an earlier one. -/
def closing (a : Address) (ledger_sequence : Nat) : List (TokenState × Env × Call) → TokenState → Int
  | [], s => s.balance a
  | (s, env, _) :: log, s' =>
    if env.sequence ≤ ledger_sequence then s'.balance a else closing a ledger_sequence log s

/-- Ledgers follow each other. -/
def Ordered (log : List (TokenState × Env × Call)) : Prop :=
  log.Pairwise fun later earlier => earlier.2.1.sequence ≤ later.2.1.sequence

/-- The ledger is not older than the oldest checkpoint. -/
def Retained (s : TokenState) (a : Address) (ledger_sequence : Nat) : Prop :=
  Kept Checkpoint.ledger_sequence (s.checkpoints a) ledger_sequence

/-- The answer, unless the sum of two positions in the list is no `u32`. -/
def Answers (s : TokenState) (a : Address) (ledger_sequence : Nat) (balance : Int) : Prop :=
  balance_at s a ledger_sequence = some (.ok balance) ∨
    balance_at s a ledger_sequence = some trap ∧ 2 ^ 31 < (s.checkpoints a).length

def balanceOf (cp : Option Checkpoint) : Int := (cp.map Checkpoint.balance).getD 0

/-! ## The search -/

section
variable {checkpoints : List Checkpoint} {L fuel low high : Nat} {result : Int} {cp : Checkpoint}

theorem search_ends (hfuel : high + 1 < fuel + low) (hle : low ≤ high + 1) :
    ∃ o, search checkpoints L fuel low high result = some o := by
  fun_induction search checkpoints L fuel low high result with
  | case1 => omega
  | case2 => exact ⟨_, rfl⟩
  | case3 fuel low high result hlow sum hsum mid cp hcp hearly ih =>
    simp only [checkedAdd_eq_some] at hsum
    exact ih (by omega) (by omega)
  | case4 => exact ⟨_, rfl⟩
  | case5 fuel low high result hlow sum hsum mid cp hcp hlate hmid ih =>
    simp only [checkedAdd_eq_some] at hsum
    exact ih (by omega) (by omega)
  | case6 => exact ⟨_, rfl⟩
  | case7 => exact ⟨_, rfl⟩

/-- What the search knows: the entries before `low` and after `high` are on their sides of the ledger. -/
structure Narrowed (checkpoints : List Checkpoint) (L low high : Nat) (result : Int) : Prop where
  high_lt : high < checkpoints.length
  before : ∀ i cp, i < low → checkpoints[i]? = some cp → cp.ledger_sequence ≤ L
  after : ∀ i cp, high < i → checkpoints[i]? = some cp → L < cp.ledger_sequence
  result_eq : result = balanceOf (checkpoints.take low).getLast?

theorem le_of_ascending (hasc : Ascending Checkpoint.ledger_sequence checkpoints) {i j : Nat} {x y : Checkpoint}
    (hij : i ≤ j) (hx : checkpoints[i]? = some x) (hy : checkpoints[j]? = some y) :
    x.ledger_sequence ≤ y.ledger_sequence := by
  rcases Nat.lt_or_eq_of_le hij with hlt | rfl
  · obtain ⟨hi, rfl⟩ := List.getElem?_eq_some_iff.mp hx
    obtain ⟨hj, rfl⟩ := List.getElem?_eq_some_iff.mp hy
    exact Nat.le_of_lt (List.pairwise_iff_getElem.mp hasc i j hi hj hlt)
  · rw [hx] at hy
    cases hy
    exact Nat.le_refl _

theorem Narrowed.up {mid : Nat} (hasc : Ascending Checkpoint.ledger_sequence checkpoints)
    (h : Narrowed checkpoints L low high result) (hcp : checkpoints[mid]? = some cp)
    (hearly : cp.ledger_sequence ≤ L) : Narrowed checkpoints L (mid + 1) high cp.balance where
  high_lt := h.high_lt
  before := fun i x hi hx => (le_of_ascending hasc (Nat.le_of_lt_succ hi) hx hcp).trans hearly
  after := h.after
  result_eq := by
    rw [List.take_add_one, hcp]
    simp [balanceOf]

theorem Narrowed.down {mid : Nat} (hasc : Ascending Checkpoint.ledger_sequence checkpoints)
    (h : Narrowed checkpoints L low high result) (hcp : checkpoints[mid]? = some cp)
    (hlate : L < cp.ledger_sequence) : Narrowed checkpoints L low (mid - 1) result where
  high_lt := by
    obtain ⟨hlt, -⟩ := List.getElem?_eq_some_iff.mp hcp
    omega
  before := h.before
  after := fun i x hi hx => Nat.lt_of_lt_of_le hlate (le_of_ascending hasc (by omega) hcp hx)
  result_eq := h.result_eq

theorem Narrowed.found {k : Nat} (h : Narrowed checkpoints L k high result)
    (hafter : ∀ i cp, k ≤ i → checkpoints[i]? = some cp → L < cp.ledger_sequence) :
    result = balanceOf (latest Checkpoint.ledger_sequence L checkpoints) := by
  rw [latest_of_split h.before hafter]
  exact h.result_eq

theorem search_answers (hasc : Ascending Checkpoint.ledger_sequence checkpoints)
    (h : Narrowed checkpoints L low high result) {o : Outcome TokenError Int}
    (ho : search checkpoints L fuel low high result = some o) :
    o = .ok (balanceOf (latest Checkpoint.ledger_sequence L checkpoints)) ∨
      o = trap ∧ 2 ^ 31 < checkpoints.length := by
  fun_induction search checkpoints L fuel low high result with
  | case1 => cases ho
  | case2 fuel low high result hlow hsum =>
    cases ho
    have hlt := h.high_lt
    have hoverflow : ¬ low + high < 2 ^ 32 := by
      intro hsmall
      simp [checkedAdd] at hsum
      omega
    exact .inr ⟨rfl, by omega⟩
  | case3 fuel low high result hlow sum hsum mid cp hcp hearly ih => exact ih (h.up hasc hcp hearly) ho
  | case4 fuel low high result hlow sum hsum mid cp hcp hlate hmid =>
    cases ho
    simp only [checkedAdd_eq_some] at hsum
    obtain rfl : low = 0 := by omega
    refine .inl (congrArg _ (h.found fun i x _ hx => ?_))
    have hle := le_of_ascending hasc (by omega) hcp hx
    omega
  | case5 fuel low high result hlow sum hsum mid cp hcp hlate hmid ih =>
    exact ih (h.down hasc hcp (Nat.lt_of_not_le hlate)) ho
  | case6 fuel low high result hlow sum hsum mid hcp =>
    -- the middle lies in the list
    simp only [checkedAdd_eq_some] at hsum
    have hlt := h.high_lt
    rw [List.getElem?_eq_none_iff] at hcp
    omega
  | case7 fuel low high result hlow =>
    cases ho
    exact .inl (congrArg _ (h.found fun i x hi hx => h.after i x (by omega) hx))

theorem balance_at_ends (s : TokenState) (a : Address) (L : Nat) : ∃ o, balance_at s a L = some o := by
  unfold balance_at
  dsimp only
  split
  · exact ⟨_, rfl⟩
  · rename_i hne
    have hpos := List.length_pos_iff.mpr hne
    exact search_ends (by omega) (by omega)

theorem balance_at_answers {s : TokenState} {a : Address}
    (hasc : Ascending Checkpoint.ledger_sequence (s.checkpoints a)) :
    Answers s a L (balanceOf (latest Checkpoint.ledger_sequence L (s.checkpoints a))) := by
  obtain ⟨o, ho⟩ := balance_at_ends s a L
  by_cases hnil : s.checkpoints a = []
  · refine .inl ?_
    simp [balance_at, hnil, latest, balanceOf]
  · have hpos := List.length_pos_iff.mpr hnil
    have hstart : Narrowed (s.checkpoints a) L 0 ((s.checkpoints a).length - 1) 0 := by
      refine ⟨by omega, fun i cp hi => absurd hi (Nat.not_lt_zero i), fun i cp hi hcp => ?_, rfl⟩
      obtain ⟨hlt, -⟩ := List.getElem?_eq_some_iff.mp hcp
      omega
    have hsearch := ho
    simp only [balance_at, hnil, if_false] at hsearch
    unfold Answers
    rw [ho]
    rcases search_answers hasc hstart hsearch with rfl | ⟨rfl, hlong⟩
    · exact .inl rfl
    · exact .inr ⟨rfl, hlong⟩

end

/-! ## What a call writes -/

/-- The checkpoints of an account, the last of them its balance, none after the ledger. -/
structure Tracks (n : Nat) (checkpoints : List Checkpoint) (balance : Int) : Prop where
  ascending : Ascending Checkpoint.ledger_sequence checkpoints
  le : ∀ cp ∈ checkpoints, cp.ledger_sequence ≤ n
  last : balanceOf checkpoints.getLast? = balance

/-- The answers for earlier ledgers stay, as far as the list reaches back. -/
def Agrees (n : Nat) (checkpoints checkpoints' : List Checkpoint) : Prop :=
  ∀ L < n, Kept Checkpoint.ledger_sequence checkpoints' L → Kept Checkpoint.ledger_sequence checkpoints L ∧
    latest Checkpoint.ledger_sequence L checkpoints' = latest Checkpoint.ledger_sequence L checkpoints

/-- A piece of a call in ledger `n`, for one account. -/
def Marks (n : Nat) (a : Address) (s s' : TokenState) : Prop :=
  Tracks n (s.checkpoints a) (s.balance a) →
    Tracks n (s'.checkpoints a) (s'.balance a) ∧ Agrees n (s.checkpoints a) (s'.checkpoints a)

section
variable {X : TokenHost} {env : Env} {s s' s'' : TokenState} {a : Address} {n retention : Nat}
  {checkpoints : List Checkpoint} {balance new : Int}

theorem Tracks.mono (h : Tracks n checkpoints balance) {m : Nat} (hle : n ≤ m) : Tracks m checkpoints balance :=
  ⟨h.ascending, fun cp hcp => (h.le cp hcp).trans hle, h.last⟩

theorem Agrees.refl : Agrees n checkpoints checkpoints := fun _ _ h => ⟨h, rfl⟩

theorem Agrees.trans {checkpoints' checkpoints'' : List Checkpoint} (h : Agrees n checkpoints checkpoints')
    (h' : Agrees n checkpoints' checkpoints'') : Agrees n checkpoints checkpoints'' := by
  intro L hL hkept
  obtain ⟨hkept', hlatest'⟩ := h' L hL hkept
  obtain ⟨hkept, hlatest⟩ := h L hL hkept'
  exact ⟨hkept, hlatest'.trans hlatest⟩

theorem Tracks.replace {init : List Checkpoint} {last : Checkpoint} (h : Tracks n (init ++ [last]) balance)
    (hlast : last.ledger_sequence = n) :
    Tracks n (init ++ [⟨n, new⟩]) new ∧ Agrees n (init ++ [last]) (init ++ [⟨n, new⟩]) := by
  obtain ⟨hasc, hlt⟩ := h.ascending.of_concat
  rw [hlast] at hlt
  refine ⟨⟨hasc.concat hlt, ?_, by simp [balanceOf]⟩, fun L hL hkept => hkept.of_replace (by omega) hL⟩
  rw [List.forall_mem_append]
  exact ⟨fun cp hcp => (hlt cp hcp).le, by simp⟩

theorem Tracks.append (h : Tracks n checkpoints balance)
    (hlt : ∀ cp ∈ checkpoints, cp.ledger_sequence < n) (k : Nat) :
    Tracks n (checkpoints.drop k ++ [⟨n, new⟩]) new ∧
      Agrees n checkpoints (checkpoints.drop k ++ [⟨n, new⟩]) := by
  have hrest : ∀ cp ∈ checkpoints.drop k, cp.ledger_sequence < n :=
    fun cp hcp => hlt cp (List.mem_of_mem_drop hcp)
  refine ⟨⟨(h.ascending.drop k).concat hrest, ?_, by simp [balanceOf]⟩, fun L hL hkept => ?_⟩
  · rw [List.forall_mem_append]
    exact ⟨fun cp hcp => (hrest cp hcp).le, by simp⟩
  · obtain ⟨hne, hdropped, hlatest⟩ := hkept.of_concat hL
    obtain ⟨hkept, hlatest'⟩ := hdropped.of_drop h.ascending hne
    exact ⟨hkept, hlatest.trans hlatest'⟩

theorem push_checkpoint_eq (env : Env) (retention : Nat) (checkpoints : List Checkpoint) (new : Int) :
    (∃ init last, checkpoints = init ++ [last] ∧ last.ledger_sequence = env.sequence ∧
      push_checkpoint env retention checkpoints new = init ++ [⟨env.sequence, new⟩]) ∨
    (∀ last, checkpoints.getLast? = some last → last.ledger_sequence ≠ env.sequence) ∧
      ∃ k, push_checkpoint env retention checkpoints new = checkpoints.drop k ++ [⟨env.sequence, new⟩] := by
  unfold push_checkpoint
  dsimp only
  split
  · rename_i hlast
    obtain ⟨last, hmem, hsame⟩ := (Option.any_eq_true _ _).mp hlast
    refine .inl ⟨checkpoints.dropLast, last, ?_, of_decide_eq_true hsame, rfl⟩
    exact (List.dropLast_append_getLast? last hmem).symm
  · rename_i hlast
    refine .inr ⟨fun last hmem hsame => hlast ?_, ?_⟩
    · rw [hmem]
      exact decide_eq_true hsame
    · split
      · rename_i hprune
        refine ⟨(checkpoints ++ [(⟨env.sequence, new⟩ : Checkpoint)]).length - retention, ?_⟩
        rw [List.drop_append_of_le_length]
        rw [List.length_append, List.length_singleton] at hprune ⊢
        omega
      · exact ⟨0, rfl⟩

theorem push_checkpoint_tracks (h : Tracks env.sequence checkpoints balance) :
    Tracks env.sequence (push_checkpoint env retention checkpoints new) new ∧
      Agrees env.sequence checkpoints (push_checkpoint env retention checkpoints new) := by
  rcases push_checkpoint_eq env retention checkpoints new with ⟨init, last, rfl, hlast, heq⟩ | ⟨hlast, k, heq⟩
  · rw [heq]
    exact h.replace hlast
  · rw [heq]
    refine h.append (fun cp hcp => ?_) k
    rcases List.eq_nil_or_concat' checkpoints with rfl | ⟨init, last, rfl⟩
    · cases hcp
    · have hle := h.le last (by simp)
      have hne := hlast last (by simp)
      rcases List.mem_append.mp hcp with hinit | hcp
      · have hlt := h.ascending.of_concat.2 cp hinit
        omega
      · rw [List.mem_singleton.mp hcp]
        omega

theorem Marks.of_same (hbalance : s'.balance = s.balance) (hcheckpoints : s'.checkpoints = s.checkpoints) :
    Marks n a s s' := by
  intro h
  rw [hbalance, hcheckpoints]
  exact ⟨h, .refl⟩

theorem Moves.marks (h : Moves env s s') : Marks env.sequence a s s' := by
  induction h with
  | same hbalance hcheckpoints => exact .of_same hbalance hcheckpoints
  | set_balance s b new =>
    intro htracks
    by_cases hab : a = b
    · subst hab
      simpa [create_checkpoint] using push_checkpoint_tracks htracks
    · have hbalance : Function.update s.balance b new a = s.balance a := Function.update_of_ne hab ..
      simp only [create_checkpoint, hbalance, Function.update_of_ne hab]
      exact ⟨htracks, .refl⟩
  | trans _ _ ih ih' =>
    intro htracks
    obtain ⟨htracks, hagrees⟩ := ih htracks
    obtain ⟨htracks, hagrees'⟩ := ih' htracks
    exact ⟨htracks, hagrees.trans hagrees'⟩

theorem step_marks {call : Call} (h : step X s env call = .ok s') : Marks env.sequence a s s' :=
  (step_moves h).moves.marks

end

/-! ## Runs -/

/-- The ledger of the last call. -/
def lastLedger : List (TokenState × Env × Call) → Nat
  | [] => 0
  | e :: _ => e.2.1.sequence

structure Recorded (a : Address) (log : List (TokenState × Env × Call)) (s : TokenState) : Prop where
  tracks : Tracks (lastLedger log) (s.checkpoints a) (s.balance a)
  closing : ∀ L, Retained s a L →
    balanceOf (latest Checkpoint.ledger_sequence L (s.checkpoints a)) = closing a L log s

section
variable {X : TokenHost} {admin a : Address} {log later : List (TokenState × Env × Call)} {s s' : TokenState}
  {call : Env × Call}

theorem constructor_recorded : Recorded a [] (constructor admin) where
  tracks := ⟨List.Pairwise.nil, by simp [constructor], rfl⟩
  closing := fun _ _ => rfl

theorem Recorded.step (h : Recorded a log s) (hordered : Ordered ((s, call) :: log))
    (hs : Accepts X s call s') : Recorded a ((s, call) :: log) s' := by
  have hclock : lastLedger log ≤ call.1.sequence := by
    cases log with
    | nil => exact Nat.zero_le _
    | cons e log => exact (List.pairwise_cons.mp hordered).1 e (List.mem_cons_self ..)
  obtain ⟨htracks, hagrees⟩ := step_marks (a := a) hs (h.tracks.mono hclock)
  refine ⟨htracks, fun L hretained => ?_⟩
  unfold Token.closing
  split
  · rename_i hle
    rw [latest_of_le fun cp hcp => (htracks.le cp hcp).trans hle]
    exact htracks.last
  · rename_i hlt
    obtain ⟨hkept, hlatest⟩ := hagrees L (by omega) hretained
    rw [hlatest]
    exact h.closing L hkept

theorem TokenRun.recorded (hrun : TokenRun X admin log s) (hordered : Ordered log) : Recorded a log s := by
  induction hrun with
  | start => exact constructor_recorded
  | call _ hs ih => exact (ih hordered.of_cons).step hordered hs

theorem closing_append {init : TokenState} {L : Nat} (hrun : Run (Accepts X) init later s)
    (hlater : ∀ e ∈ later, L < e.2.1.sequence) : closing a L (later ++ log) s = closing a L log init := by
  induction hrun with
  | start => rfl
  | @call later s s' call _ _ ih =>
    rw [List.forall_mem_cons] at hlater
    rw [← ih hlater.2]
    exact if_neg (Nat.not_le_of_lt hlater.1)

/-- The search ends on every list. For a ledger since the oldest checkpoint of an account it finds the balance at
the close of that ledger, now and after every later call that leaves such a checkpoint. -/
theorem balance_at_is_closing :
    (∀ (s : TokenState) (a : Address) (L : Nat), ∃ o, balance_at s a L = some o) ∧
    ∀ log s, TokenRun X admin log s → Ordered log → ∀ a L, Retained s a L →
      Answers s a L (closing a L log s) ∧
      ∀ later s', Run (Accepts X) s later s' → Ordered (later ++ log) → (∀ e ∈ later, L < e.2.1.sequence) →
        Retained s' a L → Answers s' a L (closing a L log s) := by
  refine ⟨balance_at_ends, fun log s hrun hordered a L hretained => ⟨?_, ?_⟩⟩
  · have hrecorded := TokenRun.recorded (a := a) hrun hordered
    rw [← hrecorded.closing L hretained]
    exact balance_at_answers hrecorded.tracks.ascending
  · intro later s' hlater hordered' hpast hretained'
    have hrecorded := TokenRun.recorded (a := a) (hrun.append hlater) hordered'
    rw [← closing_append hlater hpast, ← hrecorded.closing L hretained']
    exact balance_at_answers hrecorded.tracks.ascending

end

/-! ## A sample account -/

instance (log : List (TokenState × Env × Call)) : Decidable (Ordered log) :=
  inferInstanceAs (Decidable (List.Pairwise _ _))

def ledger (n : Nat) : Env := { sampleEnv with sequence := n }

/-- Account 5 has 100 in ledger 1; in ledger 2 the admin keeps `retention` checkpoints of an account. -/
def checkpointCalls (retention : Nat) : List (Env × Call) :=
  [(ledger 1, .mint 5 100), (ledger 2, .set_checkpoint_retention retention)]

def mintAgain : Env × Call := (ledger 2, .mint 5 50)

/-- Whether account 5 has a first checkpoint in ledger 1, and had `balance` at its close. -/
def recalls (s : TokenState) (balance : Int) : Bool :=
  (s.checkpoints 5).head?.any (fun cp => cp.ledger_sequence = 1) &&
    (balance_at s 5 1).any fun o => o.toOption == some balance

theorem recalls_iff {s : TokenState} {balance : Int} (h : recalls s balance = true) :
    Retained s 5 1 ∧ balance_at s 5 1 = some (.ok balance) := by
  simp only [recalls, Bool.and_eq_true, Option.any_eq_true, decide_eq_true_eq, beq_iff_eq,
    toOption_eq_some] at h
  obtain ⟨⟨first, hfirst, hledger⟩, o, ho, rfl⟩ := h
  refine ⟨fun cp hcp => ?_, ho⟩
  rw [hfirst] at hcp
  cases hcp
  exact hledger.le

theorem exists_mintAgain (retention : Nat) (test : List (TokenState × Env × Call) → TokenState → TokenState → Bool)
    (h : (Run.replay (next sampleHost) (checkpointCalls retention) [] (constructor 0)).any (fun e =>
      decide (Ordered ((e.2, mintAgain) :: e.1)) &&
        (next sampleHost e.2 mintAgain).any fun s' => test e.1 e.2 s') = true) :
    ∃ log s s', TokenRun sampleHost 0 log s ∧ Run (Accepts sampleHost) s [(s, mintAgain)] s' ∧
      Ordered ([(s, mintAgain)] ++ log) ∧ (∀ e ∈ [(s, mintAgain)], 1 < e.2.1.sequence) ∧ test log s s' = true := by
  obtain ⟨log, s, hrun, htest⟩ := exists_run_at (X := sampleHost) (a := 0) (checkpointCalls retention)
    (fun log s => decide (Ordered ((s, mintAgain) :: log)) &&
      (next sampleHost s mintAgain).any fun s' => test log s s') h
  simp only [Bool.and_eq_true, decide_eq_true_eq, Option.any_eq_true] at htest
  obtain ⟨hordered, s', hs, htest⟩ := htest
  refine ⟨log, s, s', hrun, .call .start (toOption_eq_some.mp hs), hordered, ?_, htest⟩
  rw [List.forall_mem_singleton]
  exact Nat.one_lt_two

theorem balance_at_is_closing_for_a_mint : ∃ log s later s', TokenRun sampleHost 0 log s ∧
    Run (Accepts sampleHost) s later s' ∧ later.length = 1 ∧ closing 5 1 log s = 100 ∧ Answers s' 5 1 100 := by
  obtain ⟨log, s, s', hrun, hlater, hordered, hpast, htest⟩ := exists_mintAgain 2
    (fun log s s' => recalls s 100 && recalls s' 100 && decide (closing 5 1 log s = 100)) (by decide +kernel)
  simp only [Bool.and_eq_true, decide_eq_true_eq] at htest
  obtain ⟨⟨hbefore, hafter⟩, hclosing⟩ := htest
  have hanswers := (@balance_at_is_closing sampleHost 0).2 log s hrun hordered.of_cons 5 1 (recalls_iff hbefore).1
  have hlast := hanswers.2 _ s' hlater hordered hpast (recalls_iff hafter).1
  rw [hclosing] at hlast
  exact ⟨log, s, _, s', hrun, hlater, rfl, hclosing, hlast⟩

/-- Of two checkpoints one is kept: the balance of ledger 1 was 100, and is 0 after a mint in ledger 2. -/
theorem balance_at_lost_to_pruning : ∃ log s later s', TokenRun sampleHost 0 log s ∧
    Run (Accepts sampleHost) s later s' ∧ Ordered (later ++ log) ∧ (∀ e ∈ later, 1 < e.2.1.sequence) ∧
    Retained s 5 1 ∧ balance_at s 5 1 = some (.ok 100) ∧ balance_at s' 5 1 = some (.ok 0) := by
  obtain ⟨log, s, s', hrun, hlater, hordered, hpast, htest⟩ := exists_mintAgain 1
    (fun _ s s' => recalls s 100 && (balance_at s' 5 1).any fun o => o.toOption == some 0) (by decide +kernel)
  simp only [Bool.and_eq_true, Option.any_eq_true, beq_iff_eq, toOption_eq_some] at htest
  obtain ⟨hrecalls, o, ho, rfl⟩ := htest
  obtain ⟨hretained, hbefore⟩ := recalls_iff hrecalls
  exact ⟨log, s, _, s', hrun, hlater, hordered, hpast, hretained, hbefore, ho⟩

end ZkVote.Token
