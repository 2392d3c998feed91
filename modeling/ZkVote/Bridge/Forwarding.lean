import ZkVote.Bridge.Contract

/-!
# What the bridge forwards

Every forwarded vote against what was posted before it.
-/

open Lib Lib.Outcome

namespace ZkVote.Bridge

abbrev Log := List (BridgeState × (Msg × Call))

/-- The root that `updateVoteRoot` posted last. -/
def postedVoteRoot (daoId proposalId : Nat) : Log → Option Nat
  | [] => none
  | e :: log =>
    match e.2.2 with
    | .updateVoteRoot d p root => if (d, p) = (daoId, proposalId) then some root else postedVoteRoot daoId proposalId log
    | _ => postedVoteRoot daoId proposalId log

/-- `updateSbtRoot` posted the root in that block. -/
def PostedSbtRoot (log : Log) (daoId sbtRoot block : Nat) : Prop :=
  ∃ e ∈ log, e.2.2 = .updateSbtRoot daoId sbtRoot ∧ e.2.1.number = block

def emitted (m : Moment BridgeState (Msg × Call)) : List Event :=
  match execute m.call.1 m.pre m.call.2 with
  | .ok (_, events) => events
  | .error _ => []

def forwards (m : Moment BridgeState (Msg × Call)) : List VoteForwarded :=
  (emitted m).filterMap fun
    | .VoteForwarded e => some e
    | _ => none

def VoteForwarded.key (e : VoteForwarded) : Nat × Nat × Nat := (e.daoId, e.proposalId, e.nullifier)

/-- The proposals and nullifiers forwarded so far, the last one first. -/
def forwardedKeys (log : Log) (s : BridgeState) : List (Nat × Nat × Nat) :=
  (Run.moments log s).flatMap fun m => (forwards m).map VoteForwarded.key

/-- Every vote forwarded names the vote root last posted for its proposal. -/
def NamesVoteRoot (m : Moment BridgeState (Msg × Call)) : Prop :=
  ∀ e ∈ forwards m, postedVoteRoot e.daoId e.proposalId m.past = some e.voteRoot

/-- Every vote forwarded was proved against a membership root that had been posted for its DAO, the
finality depth of blocks before. -/
def ProvedAgainstFinal (m : Moment BridgeState (Msg × Call)) : Prop :=
  ∀ e ∈ forwards m, ∃ sbtRoot block, PostedSbtRoot m.past e.daoId sbtRoot block ∧
    block + m.pre.finalityDepth ≤ m.call.1.number ∧
    ∃ proof, verifyProof m.call.1 m.pre proof
      [m.pre.sbtContractAddr, e.memberAddr, e.daoId, e.proposalId, e.nullifier, e.voteChoice, e.voteRoot,
        sbtRoot, e.chainId] = .ok true

/-- A ballot passes the two checks that `castVote` leaves out. -/
def PassesVoteRootCheck (s : BridgeState) : Call → Prop
  | .castVote b => s.voteRoots (b.daoId, b.proposalId) ≠ 0 ∧ b.voteRoot = s.voteRoots (b.daoId, b.proposalId)
  | _ => True

/-! ## One call -/

variable {s s' init : BridgeState} {i : Msg × Call} {log : Log} {msg : Msg} {b : Ballot} {events : List Event}
  {call : Call}

theorem castVote_ok (h : castVote msg s b = .ok (s', events)) :
    s.nullifiers b.key = false ∧ (s.sbtRoots b.daoId ≠ 0 ∧ b.sbtRoot = s.sbtRoots b.daoId) ∧
    s.sbtRootBlock b.daoId + s.finalityDepth ≤ msg.number ∧
    (∃ proof, verifyProof msg s proof (publicSignals s b) = .ok true) ∧
    s' = { s with nullifiers := Function.update s.nullifiers b.key true } ∧
    events = [.VoteForwarded (forwarded s b)] := by
  unfold castVote at h
  simp only [bind_eq_ok, require_eq_ok, expect_eq_ok, checkedAdd_eq_some, pure_eq_ok, Prod.mk.injEq] at h
  obtain ⟨_, -, _, -, _, hunused, _, -, _, hset, _, hroot, _, ⟨-, rfl⟩, _, hfinal, proof, -, valid, hvalid, _, rfl,
    rfl, rfl⟩ := h
  exact ⟨hunused, ⟨hset, hroot⟩, hfinal, ⟨proof, hvalid⟩, rfl, rfl⟩

/-- Calls that concern the administration alone. -/
def Call.administers : Call → Bool
  | .updateSbtRoot .. | .updateVoteRoot .. | .castVote .. => false
  | _ => true

theorem updateSbtRoot_ok {d r : Nat} (h : updateSbtRoot msg s d r = .ok (s', events)) :
    s' = { s with
      sbtRoots := Function.update s.sbtRoots d r
      sbtRootBlock := Function.update s.sbtRootBlock d msg.number } ∧
    events = [.SbtRootUpdated d r msg.number] := by
  unfold updateSbtRoot at h
  simp only [bind_eq_ok, require_eq_ok, pure_eq_ok, Prod.mk.injEq] at h
  obtain ⟨_, -, _, -, rfl, rfl⟩ := h
  exact ⟨rfl, rfl⟩

theorem updateVoteRoot_ok {d p r : Nat} (h : updateVoteRoot msg s d p r = .ok (s', events)) :
    r ≠ 0 ∧ s' = { s with voteRoots := Function.update s.voteRoots (d, p) r } ∧
    events = [.VoteRootUpdated d p r msg.number] := by
  unfold updateVoteRoot at h
  simp only [bind_eq_ok, require_eq_ok, pure_eq_ok, Prod.mk.injEq] at h
  obtain ⟨_, -, _, hne, rfl, rfl⟩ := h
  exact ⟨hne, rfl, rfl⟩

theorem administers_ok {call : Call} (hcall : call.administers = true) (h : execute msg s call = .ok (s', events)) :
    (s'.sbtRoots = s.sbtRoots ∧ s'.sbtRootBlock = s.sbtRootBlock ∧ s'.voteRoots = s.voteRoots ∧
      s'.nullifiers = s.nullifiers) ∧
    ∀ e, Event.VoteForwarded e ∉ events := by
  cases call with
  | updateSbtRoot d r => cases hcall
  | updateVoteRoot d p r => cases hcall
  | castVote b => cases hcall
  | proposeVerifier v =>
    simp only [execute, proposeVerifier, bind_eq_ok, require_eq_ok, expect_eq_ok, pure_eq_ok, Prod.mk.injEq] at h
    obtain ⟨_, -, _, -, eta, -, rfl, rfl⟩ := h
    simp
  | executeVerifier =>
    simp only [execute, executeVerifier, bind_eq_ok, require_eq_ok, pure_eq_ok, Prod.mk.injEq] at h
    obtain ⟨_, -, _, -, _, -, rfl, rfl⟩ := h
    simp
  | setVerifier v => simp [execute, setVerifier] at h
  | setFinalityDepth n =>
    simp only [execute, setFinalityDepth, bind_eq_ok, require_eq_ok, pure_eq_ok, Prod.mk.injEq] at h
    obtain ⟨_, -, rfl, rfl⟩ := h
    simp
  | setRootUpdater a =>
    simp only [execute, setRootUpdater, bind_eq_ok, require_eq_ok, pure_eq_ok, Prod.mk.injEq] at h
    obtain ⟨_, -, _, -, rfl, rfl⟩ := h
    simp
  | transferAdmin a =>
    simp only [execute, transferAdmin, bind_eq_ok, require_eq_ok, pure_eq_ok, Prod.mk.injEq] at h
    obtain ⟨_, -, _, -, rfl, rfl⟩ := h
    simp
  | acceptAdmin =>
    simp only [execute, acceptAdmin, bind_eq_ok, require_eq_ok, pure_eq_ok, Prod.mk.injEq] at h
    obtain ⟨_, -, rfl, rfl⟩ := h
    simp
  | setAdmin a => simp [execute, setAdmin] at h

theorem forwards_castVote (log : Log) (h : castVote msg s b = .ok (s', events)) :
    forwards ⟨log, s, (msg, .castVote b), s'⟩ = [forwarded s b] := by
  have hevents := (castVote_ok h).2.2.2.2.2
  unfold forwards emitted
  simp only [execute, h, hevents]
  rfl

theorem forwards_nil (log : Log) (hcall : ∀ b, call ≠ .castVote b) (h : execute msg s call = .ok (s', events)) :
    forwards ⟨log, s, (msg, call), s'⟩ = [] := by
  have hnone : ∀ e, Event.VoteForwarded e ∉ events := by
    cases hadministers : call.administers with
    | true => exact (administers_ok hadministers h).2
    | false =>
      cases call with
      | updateSbtRoot d r =>
        rw [(updateSbtRoot_ok h).2]
        simp
      | updateVoteRoot d p r =>
        rw [(updateVoteRoot_ok h).2.2]
        simp
      | castVote b => exact absurd rfl (hcall b)
      | _ => cases hadministers
  unfold forwards emitted
  simp only [h]
  rw [List.filterMap_eq_nil_iff]
  intro event hevent
  cases event with
  | VoteForwarded e => exact absurd hevent (hnone e)
  | _ => rfl

/-! ## A whole run -/

/-- What storage says about the calls so far. -/
structure Recorded (log : Log) (s : BridgeState) : Prop where
  voteRoots : ∀ d p r, postedVoteRoot d p log = some r ↔ s.voteRoots (d, p) ≠ 0 ∧ r = s.voteRoots (d, p)
  sbtRoots : ∀ d, s.sbtRoots d ≠ 0 → PostedSbtRoot log d (s.sbtRoots d) (s.sbtRootBlock d)
  nullifiers : ∀ k, s.nullifiers k = true ↔ k ∈ forwardedKeys log s
  once : (forwardedKeys log s).Nodup

theorem PostedSbtRoot.mono {d r n : Nat} {e : BridgeState × (Msg × Call)} (h : PostedSbtRoot log d r n) :
    PostedSbtRoot (e :: log) d r n :=
  let ⟨x, hx, hcall⟩ := h
  ⟨x, List.mem_cons_of_mem _ hx, hcall⟩

theorem forwardedKeys_cons (s s' : BridgeState) (i : Msg × Call) :
    forwardedKeys ((s, i) :: log) s' = (forwards ⟨log, s, i, s'⟩).map VoteForwarded.key ++ forwardedKeys log s := rfl

theorem postedVoteRoot_skip {d p : Nat} (hcall : ∀ d p r, call ≠ .updateVoteRoot d p r) :
    postedVoteRoot d p ((s, (msg, call)) :: log) = postedVoteRoot d p log := by
  cases call with
  | updateVoteRoot d p r => exact absurd rfl (hcall d p r)
  | _ => rfl

theorem Recorded.updateVoteRoot {d p r : Nat} (hrec : Recorded log s)
    (h : updateVoteRoot msg s d p r = .ok (s', events)) :
    Recorded ((s, (msg, .updateVoteRoot d p r)) :: log) s' := by
  obtain ⟨hne, rfl, -⟩ := updateVoteRoot_ok h
  have hkeys := forwards_nil log (by simp : ∀ b, Call.updateVoteRoot d p r ≠ .castVote b) h
  refine ⟨?_, fun d' hd' => (hrec.sbtRoots d' hd').mono, ?_, ?_⟩
  · intro d' p' r'
    simp only [postedVoteRoot]
    split
    · next heq =>
      rw [← heq]
      simp [hne, eq_comm]
    · next hother =>
      rw [hrec.voteRoots, Function.update_of_ne (Ne.symm hother)]
  · intro k
    rw [forwardedKeys_cons, hkeys]
    exact hrec.nullifiers k
  · rw [forwardedKeys_cons, hkeys]
    exact hrec.once

theorem Recorded.updateSbtRoot {d r : Nat} (hrec : Recorded log s)
    (h : updateSbtRoot msg s d r = .ok (s', events)) :
    Recorded ((s, (msg, .updateSbtRoot d r)) :: log) s' := by
  obtain ⟨rfl, -⟩ := updateSbtRoot_ok h
  have hkeys := forwards_nil log (by simp : ∀ b, Call.updateSbtRoot d r ≠ .castVote b) h
  refine ⟨?_, ?_, ?_, ?_⟩
  · intro d' p' r'
    rw [postedVoteRoot_skip (by simp)]
    exact hrec.voteRoots d' p' r'
  · intro d' hd'
    by_cases hsame : d' = d
    · -- The root just posted.
      subst hsame
      simp only [Function.update_self]
      exact ⟨_, List.mem_cons_self, rfl, rfl⟩
    · simp only [Function.update_of_ne hsame] at hd' ⊢
      exact (hrec.sbtRoots d' hd').mono
  · intro k
    rw [forwardedKeys_cons, hkeys]
    exact hrec.nullifiers k
  · rw [forwardedKeys_cons, hkeys]
    exact hrec.once

theorem Recorded.castVote (hrec : Recorded log s) (h : castVote msg s b = .ok (s', events)) :
    Recorded ((s, (msg, .castVote b)) :: log) s' := by
  have hforwards := forwards_castVote log h
  obtain ⟨hunused, -, -, -, rfl, -⟩ := castVote_ok h
  have hkey : (forwarded s b).key = b.key := rfl
  refine ⟨?_, fun d' hd' => (hrec.sbtRoots d' hd').mono, ?_, ?_⟩
  · intro d' p' r'
    rw [postedVoteRoot_skip (by simp)]
    exact hrec.voteRoots d' p' r'
  · intro k
    rw [forwardedKeys_cons, hforwards]
    simp only [List.map_cons, List.map_nil, hkey, List.cons_append, List.nil_append, List.mem_cons]
    by_cases hsame : k = b.key
    · simp [hsame]
    · rw [Function.update_of_ne hsame, hrec.nullifiers]
      simp [hsame]
  · rw [forwardedKeys_cons, hforwards]
    simp only [List.map_cons, List.map_nil, hkey, List.cons_append, List.nil_append, List.nodup_cons]
    refine ⟨?_, hrec.once⟩
    rw [← hrec.nullifiers, hunused]
    simp

theorem Recorded.administers (hcall : call.administers = true) (hrec : Recorded log s)
    (h : execute msg s call = .ok (s', events)) : Recorded ((s, (msg, call)) :: log) s' := by
  obtain ⟨⟨hsbt, hblock, hvote, hnullifiers⟩, -⟩ := administers_ok hcall h
  have hkeys : forwards ⟨log, s, (msg, call), s'⟩ = [] := by
    apply forwards_nil log _ h
    intro b hb
    rw [hb] at hcall
    cases hcall
  refine ⟨?_, ?_, ?_, ?_⟩
  · intro d p r
    rw [postedVoteRoot_skip, hvote, hrec.voteRoots]
    intro d p r hupdate
    rw [hupdate] at hcall
    cases hcall
  · rw [hsbt, hblock]
    intro d hd
    exact (hrec.sbtRoots d hd).mono
  · intro k
    rw [hnullifiers, hrec.nullifiers, forwardedKeys_cons, hkeys]
    rfl
  · rw [forwardedKeys_cons, hkeys]
    exact hrec.once

theorem Recorded.step (hrec : Recorded log s) (h : Step s i s') : Recorded ((s, i) :: log) s' := by
  obtain ⟨msg, call⟩ := i
  obtain ⟨events, h⟩ := h
  cases hadministers : call.administers with
  | true => exact hrec.administers hadministers h
  | false =>
    cases call with
    | updateSbtRoot d r => exact hrec.updateSbtRoot h
    | updateVoteRoot d p r => exact hrec.updateVoteRoot h
    | castVote b => exact hrec.castVote h
    | _ => cases hadministers

theorem recorded_of_run {verifier sbt : Nat} (hnew : constructor msg verifier sbt = .ok init)
    (hrun : Run Step init log s) : Recorded log s := by
  refine hrun.invariant_log ?_ fun log s i s' _ hrec h => hrec.step h
  simp only [constructor, bind_eq_ok, require_eq_ok, pure_eq_ok] at hnew
  obtain ⟨_, -, rfl⟩ := hnew
  constructor <;> simp [postedVoteRoot, forwardedKeys, Run.moments]

/-- Who posted the membership root, how long ago, and that no vote goes out twice: `castVote` sees to it. -/
theorem proved_of_recorded (hrec : Recorded log s) (h : Step s i s') : ProvedAgainstFinal ⟨log, s, i, s'⟩ := by
  obtain ⟨msg, call⟩ := i
  obtain ⟨events, h⟩ := h
  intro e he
  by_cases hcast : ∃ b, call = .castVote b
  · obtain ⟨b, rfl⟩ := hcast
    rw [forwards_castVote log h, List.mem_singleton] at he
    obtain ⟨-, ⟨hset, hroot⟩, hfinal, hproof, -⟩ := castVote_ok h
    refine ⟨s.sbtRoots b.daoId, s.sbtRootBlock b.daoId, ?_, hfinal, ?_⟩
    · rw [he]
      exact hrec.sbtRoots b.daoId hset
    · rw [he, ← hroot]
      exact hproof
  · rw [forwards_nil log (fun b hb => hcast ⟨b, hb⟩) h] at he
    cases he

/-- The vote root of the call is posted exactly if it passes the missing checks. -/
theorem namesVoteRoot_iff (hrec : Recorded log s) (h : Step s i s') :
    NamesVoteRoot ⟨log, s, i, s'⟩ ↔ PassesVoteRootCheck s i.2 := by
  obtain ⟨msg, call⟩ := i
  obtain ⟨events, h⟩ := h
  unfold NamesVoteRoot
  by_cases hcast : ∃ b, call = .castVote b
  · obtain ⟨b, rfl⟩ := hcast
    rw [forwards_castVote log h]
    simp only [List.mem_singleton, forall_eq]
    exact hrec.voteRoots b.daoId b.proposalId b.voteRoot
  · rw [forwards_nil log (fun b hb => hcast ⟨b, hb⟩) h]
    simp only [List.not_mem_nil, false_implies, implies_true, true_iff]
    cases call with
    | castVote b => exact absurd ⟨b, rfl⟩ hcast
    | _ => trivial

/-- The law of the bridge holds in a run exactly if each ballot cast in it would have passed the two
checks on the vote root. -/
theorem forwarding_law_iff {deployer : Msg} {verifier sbt : Nat}
    (hnew : constructor deployer verifier sbt = .ok init) (hrun : Run Step init log s) :
    ((∀ m ∈ Run.moments log s, NamesVoteRoot m ∧ ProvedAgainstFinal m) ∧ (forwardedKeys log s).Nodup) ↔
      ∀ m ∈ Run.moments log s, PassesVoteRootCheck m.pre m.call.2 := by
  have honce := (recorded_of_run hnew hrun).once
  simp only [honce, and_true]
  refine hrun.forall_moments_iff ?_
  intro log s i s' hrun h
  have hrec := recorded_of_run hnew hrun
  rw [namesVoteRoot_iff hrec h]
  exact and_iff_left (proved_of_recorded hrec h)

/-! ## Two runs -/

/-- The deployer in some block, with a verifier that accepts any signals. -/
def adminAt (number : Nat) : Msg where
  sender := 1
  number := number
  timestamp := 12 * number
  chainid := 31337
  staticcall := fun _ _ _ => (true, toBeBytes 32 1)

def deployed : BridgeState where
  verifier := 2
  sbtContractAddr := 3
  admin := 1
  chainId := 31337

def ballotFor (voteRoot : Nat) : Ballot where
  daoId := 1
  proposalId := 4
  voteChoice := 1
  nullifier := 8
  voteRoot := voteRoot
  sbtRoot := 5
  memberAddr := 6
  proof := List.replicate 256 0

/-- Both roots are posted, and three blocks later a ballot names a vote root. -/
def postAndCast (voteRoot : Nat) : List (Msg × Call) :=
  [(adminAt 10, .setFinalityDepth 3), (adminAt 10, .updateSbtRoot 1 5), (adminAt 11, .updateVoteRoot 1 4 7),
    (adminAt 13, .castVote (ballotFor voteRoot))]

def next (s : BridgeState) (i : Msg × Call) : Option BridgeState := ((execute i.1 s i.2).toOption).map Prod.fst

theorem step_of_next (s : BridgeState) (i : Msg × Call) (s' : BridgeState) (h : next s i = some s') :
    Step s i s' := by
  simp only [next, Option.map_eq_some_iff, toOption_eq_some] at h
  obtain ⟨⟨s₁, events⟩, hexecute, rfl⟩ := h
  exact ⟨events, hexecute⟩

theorem exists_run (voteRoot : Nat) (test : Log → BridgeState → Bool)
    (h : (Run.replay next (postAndCast voteRoot) [] deployed).any (fun r => test r.1 r.2) = true) :
    ∃ log s, Run Step deployed log s ∧ test log s = true :=
  Run.exists_of_replay step_of_next h

theorem forwarding_law_iff_on_posted_root : ∃ log s, Run Step deployed log s ∧
    (((∀ m ∈ Run.moments log s, NamesVoteRoot m ∧ ProvedAgainstFinal m) ∧ (forwardedKeys log s).Nodup) ↔
      ∀ m ∈ Run.moments log s, PassesVoteRootCheck m.pre m.call.2) := by
  obtain ⟨log, s, hrun, -⟩ := exists_run 7 (fun _ s => s.nullifiers (1, 4, 8)) (by decide +kernel)
  exact ⟨log, s, hrun, @forwarding_law_iff s deployed log (adminAt 9) 2 3 rfl hrun⟩

/-- Vote root 9 was posted by nobody, and a ballot proved against it goes out. -/
theorem unposted_vote_root_forwarded : ∃ log s, Run Step deployed log s ∧
    ¬ ((∀ m ∈ Run.moments log s, NamesVoteRoot m ∧ ProvedAgainstFinal m) ∧ (forwardedKeys log s).Nodup) := by
  obtain ⟨log, s, hrun, htest⟩ := exists_run 9
    (fun log s => (Run.moments log s).any fun m => (forwards m).any fun e =>
      decide (postedVoteRoot e.daoId e.proposalId m.past ≠ some e.voteRoot)) (by decide +kernel)
  refine ⟨log, s, hrun, fun hlaw => ?_⟩
  obtain ⟨m, hm, hforwards⟩ := List.any_eq_true.mp htest
  obtain ⟨e, he, hroot⟩ := List.any_eq_true.mp hforwards
  exact of_decide_eq_true hroot ((hlaw.1 m hm).1 e he)

end ZkVote.Bridge
