import ZkVote.Backend.EncryptedTally
import Mathlib.Data.ZMod.Basic

/-!
# Ballots and their aggregate

When the stored aggregate is the sum of the ballots that were registered.
-/

open Lib

namespace ZkVote.EncryptedTally

open ElGamal

variable {P : Type} [AddCommGroup P]

/-- The sum of the ballots, component by component. -/
def sumOf (ballots : List (BallotCiphertext P)) : Aggregate P where
  c1 := (ballots.map BallotCiphertext.c1).sum
  cYes := (ballots.map BallotCiphertext.cYes).sum
  cNo := (ballots.map BallotCiphertext.cNo).sum

/-- No ballot is missing from the aggregate. There is none before the first ballot. -/
def Complete (election : EncryptedElection P) : Prop :=
  election.aggregate = if election.ballots = [] then none else some (sumOf election.ballots)

/-- Every election that no call works on has its ballots in its aggregate. -/
def CompleteAtRest (s : Service P) : Prop :=
  ∀ ref election, s.objects[ref]? = some election → (∀ call ∈ s.registrations, call.ref ≠ ref) →
    Complete election

/-- A ballot comes while no other of its election is being added. -/
def ComesAlone (s : Service P) : Event P → Prop
  | .registerBallot electionId _ _ =>
    ∀ ref, s.elections electionId = some ref → ∀ call ∈ s.registrations, call.ref ≠ ref
  | _ => True

/-! ## One call at a time -/

variable {G : P} {s s' init : Service P} {election : EncryptedElection P} {call : Registration P}
  {ballot : BallotCiphertext P} {before : List (BallotCiphertext P)}

/-- The sums that the call has so far are those of the sum it is about to store. -/
def Stage.Matches (total : Aggregate P) : Stage P → Prop
  | .addingC1 c1 => c1 = total.c1
  | .addingYes c1 cYes => c1 = total.c1 ∧ cYes = total.cYes
  | .addingNo c1 cYes cNo => c1 = total.c1 ∧ cYes = total.cYes ∧ cNo = total.cNo

/-- The call's ballot is the last one and all that the aggregate lacks. -/
structure Underway (election : EncryptedElection P) (call : Registration P) : Prop where
  last : ∃ before, before ≠ [] ∧ election.ballots = before ++ [call.ballot] ∧
    election.aggregate = some (sumOf before)
  sums : call.stage.Matches (sumOf election.ballots)

structure Orderly (s : Service P) : Prop where
  known : ∀ call ∈ s.registrations, call.ref < s.objects.length
  apart : (s.registrations.map Registration.ref).Nodup
  atRest : CompleteAtRest s
  underway : ∀ call ∈ s.registrations, ∀ election, s.objects[call.ref]? = some election → Underway election call

theorem sumOf_concat (ballots : List (BallotCiphertext P)) (ballot : BallotCiphertext P) :
    sumOf (ballots ++ [ballot]) =
      { c1 := addPoints (sumOf ballots).c1 ballot.c1
        cYes := addPoints (sumOf ballots).cYes ballot.cYes
        cNo := addPoints (sumOf ballots).cNo ballot.cNo } := by
  simp [sumOf, addPoints]

theorem sumOf_singleton (ballot : BallotCiphertext P) : sumOf [ballot] = firstAggregate ballot := by
  simp [sumOf, firstAggregate]

theorem underway_start (hsum : election.aggregate = some (sumOf election.ballots)) (hne : election.ballots ≠ [])
    (ref : Nat) :
    Underway { election with ballots := election.ballots ++ [ballot] }
      { ref := ref, ballot := ballot, stage := .addingC1 (addPoints (sumOf election.ballots).c1 ballot.c1) } := by
  refine ⟨⟨election.ballots, hne, rfl, hsum⟩, ?_⟩
  change _ = (sumOf (election.ballots ++ [ballot])).c1
  rw [sumOf_concat]

theorem Complete.of_aggregate {aggregate : Aggregate P} (h : Complete election)
    (hsome : election.aggregate = some aggregate) :
    election.ballots ≠ [] ∧ aggregate = sumOf election.ballots := by
  unfold Complete at h
  rw [hsome] at h
  split at h
  · cases h
  · next hne =>
    cases h
    exact ⟨hne, rfl⟩

theorem Complete.of_no_aggregate (h : Complete election) (hnone : election.aggregate = none) :
    election.ballots = [] := by
  unfold Complete at h
  rw [hnone] at h
  by_contra hne
  rw [if_neg hne] at h
  cases h

/-! ## The steps -/

omit [AddCommGroup P] in
theorem get_update {ref ref' : Nat} (h : ref < s.objects.length) :
    (s.update ref election).objects[ref']? = if ref = ref' then some election else s.objects[ref']? := by
  unfold Service.update
  rw [List.getElem?_set]
  split
  · simp
  · rfl

omit [AddCommGroup P] in
theorem lt_of_get {ref : Nat} (h : s.objects[ref]? = some election) : ref < s.objects.length :=
  (List.getElem?_eq_some_iff.mp h).1

theorem registerBallot_ok {electionId : String} {ballot : Option (BallotCiphertext P)} {now : Int}
    (h : registerBallot s electionId ballot now = .ok s') :
    ∃ ref election b, s.elections electionId = some ref ∧ s.objects[ref]? = some election ∧
      (election.aggregate = none ∧
          s' = s.update ref { election with
            ballots := election.ballots ++ [b]
            aggregate := some (firstAggregate b) } ∨
        ∃ aggregate, election.aggregate = some aggregate ∧
          s' = { s.update ref { election with ballots := election.ballots ++ [b] } with
            registrations := s.registrations ++ [⟨ref, b, .addingC1 (addPoints aggregate.c1 b.c1)⟩] }) := by
  unfold registerBallot at h
  split at h
  · cases h
  next ref href =>
  split at h
  · cases h
  next election helection =>
  split at h
  · cases h
  split at h
  · cases h
  split at h
  · cases h
  next b =>
  simp only at h
  refine ⟨ref, election, b, href, helection, ?_⟩
  split at h
  · next hnone =>
    cases h
    exact Or.inl ⟨hnone, rfl⟩
  · next aggregate hsome =>
    cases h
    exact Or.inr ⟨aggregate, hsome, rfl⟩

theorem Orderly.registerBallot {electionId : String} {ballot : Option (BallotCiphertext P)} {now : Int}
    (h : Orderly s) (halone : ComesAlone s (.registerBallot electionId ballot now))
    (hstep : registerBallot s electionId ballot now = .ok s') : Orderly s' := by
  obtain ⟨ref, election, b, href, helection, hcase⟩ := registerBallot_ok hstep
  have hfree : ∀ call ∈ s.registrations, call.ref ≠ ref := halone ref href
  have hlt : ref < s.objects.length := lt_of_get helection
  have hcomplete : Complete election := h.atRest ref election helection hfree
  rcases hcase with ⟨hnone, rfl⟩ | ⟨aggregate, hsome, rfl⟩
  · -- The first ballot is the aggregate.
    have hempty := hcomplete.of_no_aggregate hnone
    refine ⟨?_, h.apart, ?_, ?_⟩
    · intro call hcall
      have hknown := h.known call hcall
      simpa [Service.update] using hknown
    · intro ref' election' hget hrest
      rw [get_update hlt] at hget
      split at hget
      · cases hget
        simp [Complete, hempty, sumOf_singleton]
      · exact h.atRest ref' election' hget hrest
    · intro call hcall election' hget
      rw [get_update hlt, if_neg (Ne.symm (hfree call hcall))] at hget
      exact h.underway call hcall election' hget
  · obtain ⟨hne, rfl⟩ := hcomplete.of_aggregate hsome
    refine ⟨?_, ?_, ?_, ?_⟩
    · intro call hcall
      rcases List.mem_append.mp hcall with hcall | hcall
      · have hknown := h.known call hcall
        simpa [Service.update] using hknown
      · rw [List.mem_singleton.mp hcall]
        simpa [Service.update] using hlt
    · change ((s.registrations ++ [_]).map Registration.ref).Nodup
      rw [List.map_append, List.nodup_append']
      refine ⟨h.apart, List.nodup_singleton _, ?_⟩
      simp only [List.map_cons, List.map_nil, List.disjoint_singleton, List.mem_map, not_exists, not_and]
      exact hfree
    · intro ref' election' hget hrest
      have hother : ref ≠ ref' := hrest _ (List.mem_append_right _ (List.mem_singleton_self _))
      change (s.update ref _).objects[ref']? = _ at hget
      rw [get_update hlt, if_neg hother] at hget
      exact h.atRest ref' election' hget fun call hcall => hrest call (List.mem_append_left _ hcall)
    · intro call hcall election' hget
      change (s.update ref _).objects[call.ref]? = _ at hget
      rw [get_update hlt] at hget
      rcases List.mem_append.mp hcall with hcall | hcall
      · rw [if_neg (Ne.symm (hfree call hcall))] at hget
        exact h.underway call hcall election' hget
      · have hnew := List.mem_singleton.mp hcall
        subst hnew
        rw [if_pos rfl] at hget
        cases hget
        exact underway_start hsome hne ref

theorem split_at_get {α : Type} {l : List α} {k : Nat} {a : α} (h : l[k]? = some a) :
    ∃ l₁ l₂, l = l₁ ++ a :: l₂ ∧ (∀ b, l.set k b = l₁ ++ b :: l₂) ∧ l.eraseIdx k = l₁ ++ l₂ := by
  obtain ⟨hlt, rfl⟩ := List.getElem?_eq_some_iff.mp h
  refine ⟨l.take k, l.drop (k + 1), ?_, fun b => ?_, List.eraseIdx_eq_take_drop_succ l k⟩
  · rw [List.getElem_cons_drop, List.take_append_drop]
  · rw [List.set_eq_take_append_cons_drop, if_pos hlt]

theorem Orderly.advance {k : Nat} {stage : Stage P} (h : Orderly s) (hcall : s.registrations[k]? = some call)
    (hunderway : ∀ election, s.objects[call.ref]? = some election → stage.Matches (sumOf election.ballots)) :
    Orderly { s with registrations := s.registrations.set k { call with stage := stage } } := by
  obtain ⟨l₁, l₂, hlist, hset, -⟩ := split_at_get hcall
  rw [hset]
  have hmem : ∀ c ∈ l₁ ++ { call with stage := stage } :: l₂, c = { call with stage := stage } ∨ c ∈ s.registrations := by
    intro c hc
    rw [hlist]
    simp only [List.mem_append, List.mem_cons] at hc ⊢
    tauto
  have hself : call ∈ s.registrations := List.mem_of_getElem? hcall
  refine ⟨?_, ?_, ?_, ?_⟩
  · intro c hc
    rcases hmem c hc with rfl | hc
    · exact h.known call hself
    · exact h.known c hc
  · have hapart := h.apart
    rw [hlist] at hapart
    simpa using hapart
  · intro ref election hget hrest
    refine h.atRest ref election hget ?_
    intro c hc
    rw [hlist] at hc
    rcases List.mem_append.mp hc with hc | hc
    · exact hrest c (List.mem_append_left _ hc)
    rcases List.mem_cons.mp hc with rfl | hc
    · exact hrest { c with stage := stage } (List.mem_append_right _ List.mem_cons_self)
    · exact hrest c (List.mem_append_right _ (List.mem_cons_of_mem _ hc))
  · intro c hc election hget
    rcases hmem c hc with rfl | hc
    · exact ⟨(h.underway call hself election hget).last, hunderway election hget⟩
    · exact h.underway c hc election hget

theorem Orderly.store {k : Nat} {c1 cYes cNo : P} (h : Orderly s) (hcall : s.registrations[k]? = some call)
    (helection : s.objects[call.ref]? = some election) (hstage : call.stage = .addingNo c1 cYes cNo) :
    Orderly { s.update call.ref { election with aggregate := some { c1 := c1, cYes := cYes, cNo := cNo } } with
      registrations := s.registrations.eraseIdx k } := by
  obtain ⟨l₁, l₂, hlist, -, herase⟩ := split_at_get hcall
  rw [herase]
  have hlt : call.ref < s.objects.length := lt_of_get helection
  have hsub : ∀ c ∈ l₁ ++ l₂, c ∈ s.registrations := by
    intro c hc
    rw [hlist]
    simp only [List.mem_append, List.mem_cons] at hc ⊢
    tauto
  have hapart := h.apart
  rw [hlist] at hapart
  simp only [List.map_append, List.map_cons] at hapart
  have hothers : ∀ c ∈ l₁ ++ l₂, c.ref ≠ call.ref := by
    intro c hc heq
    have hnot : call.ref ∉ l₁.map Registration.ref ++ l₂.map Registration.ref :=
      (List.nodup_cons.mp (List.nodup_middle.mp hapart)).1
    rw [← List.map_append, ← heq] at hnot
    exact hnot (List.mem_map_of_mem hc)
  refine ⟨?_, ?_, ?_, ?_⟩
  · intro c hc
    have hknown := h.known c (hsub c hc)
    simpa [Service.update] using hknown
  · have hrest := (List.nodup_cons.mp (List.nodup_middle.mp hapart)).2
    simpa using hrest
  · intro ref election' hget hrest
    change (s.update call.ref _).objects[ref]? = _ at hget
    rw [get_update hlt] at hget
    split at hget
    · cases hget
      obtain ⟨⟨before, -, hballots, -⟩, hsums⟩ := h.underway call (List.mem_of_getElem? hcall) election helection
      rw [hstage] at hsums
      obtain ⟨h1, h2, h3⟩ := hsums
      unfold Complete
      rw [if_neg (by simp [hballots]), h1, h2, h3]
    · next hother =>
      refine h.atRest ref election' hget ?_
      intro c hc
      rw [hlist] at hc
      rcases List.mem_append.mp hc with hc | hc
      · exact hrest c (List.mem_append_left _ hc)
      rcases List.mem_cons.mp hc with rfl | hc
      · exact hother
      · exact hrest c (List.mem_append_right _ hc)
  · intro c hc election' hget
    change (s.update call.ref _).objects[c.ref]? = _ at hget
    rw [get_update hlt, if_neg (Ne.symm (hothers c hc))] at hget
    exact h.underway c (hsub c hc) election' hget

theorem Orderly.resume {k : Nat} (h : Orderly s) (hstep : resume s k = some s') : Orderly s' := by
  unfold EncryptedTally.resume at hstep
  split at hstep
  · cases hstep
  next call hcall =>
  split at hstep
  · cases hstep
  next election helection =>
  split at hstep
  · cases hstep
  next aggregate haggregate =>
  have hunderway := h.underway call (List.mem_of_getElem? hcall) election helection
  -- What the call reads now is the sum without its ballot, as when it began.
  obtain ⟨⟨before, -, hballots, hbefore⟩, hsums⟩ := hunderway
  rw [haggregate] at hbefore
  cases hbefore
  have htotal := sumOf_concat before call.ballot
  rw [← hballots] at htotal
  split at hstep
  · next c1 hstage =>
    cases hstep
    refine h.advance hcall fun election' helection' => ?_
    rw [helection] at helection'
    cases helection'
    rw [hstage] at hsums
    exact ⟨hsums, by rw [htotal]⟩
  · next c1 cYes hstage =>
    cases hstep
    refine h.advance hcall fun election' helection' => ?_
    rw [helection] at helection'
    cases helection'
    rw [hstage] at hsums
    exact ⟨hsums.1, hsums.2, by rw [htotal]⟩
  · next c1 cYes cNo hstage =>
    cases hstep
    exact h.store hcall helection hstage

omit [AddCommGroup P] in
theorem createElection_ok {params : CreateParams} (h : createElection s params = .ok s') :
    s' = { s with creations := s.creations ++ [params] } := by
  unfold createElection at h
  split at h
  · cases h
  simp only at h
  split at h
  · cases h
  · cases h
    rfl

theorem Orderly.finishCreation {k privateKey : Nat} {randoms : Nat → Nat} {now : Int} (h : Orderly s)
    (hstep : finishCreation G s k privateKey randoms now = some s') : Orderly s' := by
  unfold EncryptedTally.finishCreation at hstep
  split at hstep
  · cases hstep
  split at hstep
  · cases hstep
    exact ⟨h.known, h.apart, h.atRest, h.underway⟩
  next election hnew =>
  cases hstep
  have hfresh : Complete election := by
    unfold newElection at hnew
    simp only at hnew
    split at hnew
    · cases hnew
    · cases hnew
      rfl
  refine ⟨?_, h.apart, ?_, ?_⟩
  · intro call hcall
    have hknown := h.known call hcall
    simp only [List.length_append, List.length_singleton]
    omega
  · intro ref election' hget hrest
    simp only [List.getElem?_append] at hget
    split at hget
    · exact h.atRest ref election' hget hrest
    · rw [List.getElem?_singleton] at hget
      split at hget
      · cases hget
        exact hfresh
      · cases hget
  · intro call hcall election' hget
    simp only [List.getElem?_append_left (h.known call hcall)] at hget
    exact h.underway call hcall election' hget

theorem Orderly.finalized {ref : Nat} {result : EncryptedTallyResult} (h : Orderly s)
    (helection : s.objects[ref]? = some election) :
    Orderly (s.update ref { election with finalized := true, result := some result }) := by
  have hlt := lt_of_get helection
  refine ⟨?_, h.apart, ?_, ?_⟩
  · intro call hcall
    have hknown := h.known call hcall
    simpa [Service.update] using hknown
  · intro ref' election' hget hrest
    rw [get_update hlt] at hget
    split at hget
    · next hsame =>
      cases hget
      exact h.atRest ref election helection (hsame ▸ hrest)
    · exact h.atRest ref' election' hget hrest
  · intro call hcall election' hget
    rw [get_update hlt] at hget
    split at hget
    · next hsame =>
      cases hget
      rw [hsame] at helection
      have hunderway := h.underway call hcall election helection
      exact ⟨hunderway.last, hunderway.sums⟩
    · exact h.underway call hcall election' hget

theorem Orderly.step {e : Event P} (h : Orderly s) (halone : ComesAlone s e) (hstep : Step G s e s') :
    Orderly s' := by
  unfold Step next at hstep
  cases e with
  | createElection params =>
    simp only at hstep
    cases hcreate : createElection s params with
    | error failure =>
      rw [hcreate] at hstep
      cases hstep
    | ok s₁ =>
      rw [hcreate] at hstep
      cases hstep
      rw [createElection_ok hcreate]
      exact ⟨h.known, h.apart, h.atRest, h.underway⟩
  | finishCreation k privateKey randoms now => exact h.finishCreation hstep
  | registerBallot electionId ballot now =>
    simp only at hstep
    cases hregister : EncryptedTally.registerBallot s electionId ballot now with
    | error failure =>
      rw [hregister] at hstep
      cases hstep
    | ok s₁ =>
      rw [hregister] at hstep
      cases hstep
      exact h.registerBallot halone hregister
  | resume k => exact h.resume hstep
  | finalized ref result =>
    obtain ⟨election, helection, rfl⟩ := Option.map_eq_some_iff.mp hstep
    exact h.finalized helection

/-- Where each ballot comes while no other of its election is being added, no ballot is ever lost: the
aggregate of every election at rest is the sum of its ballots. -/
theorem no_ballot_lost (G : P) {log : List (Service P × Event P)} (hrun : Run (Step G) {} log s)
    (halone : ∀ e ∈ log, ComesAlone e.1 e.2) : ∀ t ∈ Run.states log s, CompleteAtRest t := by
  have horderly : ∀ t ∈ Run.states log s, Orderly t := by
    induction hrun with
    | start =>
      intro t ht
      rw [List.mem_singleton.mp ht]
      constructor <;> simp [CompleteAtRest]
    | call hrun hstep ih =>
      rw [List.forall_mem_cons] at halone
      rw [Run.states_cons, List.forall_mem_cons]
      have hbefore := ih halone.2
      exact ⟨(hbefore _ List.mem_cons_self).step halone.1 hstep, hbefore⟩
  intro t ht
  exact (horderly t ht).atRest

/-! ## Two runs -/

/-- A group of the order of the curve, in which `8` has the order of `BASE8`. -/
abbrev CurveModel := ZMod (8 * BABYJUB_SUBORDER)

def base8 : CurveModel := 8

/-- A ballot under the key 5. -/
def ballotOf (r : Nat) (vote : Bool) : BallotCiphertext CurveModel :=
  (encryptBallot base8 (5 • base8) vote r).toOption.getD ⟨0, 0, 0⟩

def openElection : List (Event CurveModel) :=
  [.createElection { electionId := "e", endTime := 1000, threshold := none, totalAuthorities := none },
    .finishCreation 0 5 (fun _ => 11) 1, .registerBallot "e" (some (ballotOf 3 true)) 2]

theorem exists_run (events : List (Event CurveModel))
    (test : List (Service CurveModel × Event CurveModel) → Service CurveModel → Bool)
    (h : (Run.replay (next base8) events [] {}).any (fun r => test r.1 r.2) = true) :
    ∃ log s, Run (Step base8) {} log s ∧ test log s = true :=
  Run.exists_of_replay (fun _ _ _ hnext => hnext) h

theorem no_ballot_lost_in_turn : ∃ log s, Run (Step base8) {} log s ∧ ∀ t ∈ Run.states log s, CompleteAtRest t := by
  obtain ⟨log, s, hrun, htest⟩ := exists_run
    (openElection ++ [.registerBallot "e" (some (ballotOf 4 false)) 3, .resume 0, .resume 0, .resume 0])
    (fun log _ => log.all fun e =>
      match e.2 with
      | .registerBallot .. => e.1.registrations.isEmpty
      | _ => true) (by decide +kernel)
  refine ⟨log, s, hrun, no_ballot_lost base8 hrun ?_⟩
  intro e he
  have hempty := List.all_eq_true.mp htest e he
  unfold ComesAlone
  split
  · next hevent =>
    rw [hevent] at hempty
    simp [List.isEmpty_iff.mp hempty]
  · trivial

/-- Two ballots are added at once to the first, and the second to come is all that is added. -/
def addedAtOnce : List (Event CurveModel) :=
  openElection ++ [.registerBallot "e" (some (ballotOf 4 false)) 3, .registerBallot "e" (some (ballotOf 9 true)) 3,
    .resume 0, .resume 1, .resume 0, .resume 1, .resume 0, .resume 0]

theorem ballot_added_at_once_lost : ∃ log s, Run (Step base8) {} log s ∧
    ¬ ∀ t ∈ Run.states log s, CompleteAtRest t := by
  obtain ⟨log, s, hrun, htest⟩ := exists_run addedAtOnce
    (fun _ s => s.registrations.isEmpty && s.objects.any fun election =>
      decide (election.ballots ≠ [] ∧ election.aggregate ≠ some (sumOf election.ballots))) (by decide +kernel)
  refine ⟨log, s, hrun, fun hcomplete => ?_⟩
  simp only [Bool.and_eq_true, List.any_eq_true, decide_eq_true_eq, List.isEmpty_iff] at htest
  obtain ⟨hrest, election, hmem, hballots, hlost⟩ := htest
  obtain ⟨ref, href⟩ := List.getElem?_of_mem hmem
  have h := hcomplete s List.mem_cons_self ref election href (by simp [hrest])
  unfold Complete at h
  rw [if_neg hballots] at h
  exact hlost h

end ZkVote.EncryptedTally
