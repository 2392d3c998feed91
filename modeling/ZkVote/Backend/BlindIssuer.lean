import ZkVote.Backend.BlindSignature
import ZkVote.Lib.Runs
import Mathlib.Algebra.Order.Ring.Rat
import Mathlib.Logic.Function.Basic
import Mathlib.Tactic.NormNum.Prime

/-!
# The issuer of blind credentials

`BlindSignatureIssuer` of `services/blindSignature.ts`, with its store and its rate limiter. A request runs
to its end before the next one.
-/

open Lib

namespace ZkVote.BlindSignature

/-! ## The issuer -/

structure SignatureFarmingRateLimiter where
  maxRequests : ℚ
  windowMs : ℚ
  positive : 0 < maxRequests ∧ 0 < windowMs

structure IssueRequest where
  voterId : String
  blinded : Int
  rateLimitKey : String
  now : ℚ
  /-- What the store does with the mark: it may throw before anything is written. -/
  marks : Except String Unit

/-- The voters in the store, and the requests that the limiter remembers. -/
structure IssuerState where
  issued : String → Bool
  requests : String → List ℚ

def SignatureFarmingRateLimiter.isAllowed (limiter : SignatureFarmingRateLimiter) (requests : String → List ℚ)
    (key : String) (now : ℚ) : (String → List ℚ) × Bool :=
  let cutoff := now - limiter.windowMs
  let timestamps := (requests key).filter fun timestamp => cutoff < timestamp
  if limiter.maxRequests ≤ timestamps.length then (Function.update requests key timestamps, false)
  else (Function.update requests key (timestamps ++ [now]), true)

def alreadyIssued : String := "voter has already been issued a credential"

def tooManyRequests : String := "too many blind signature requests; try again later"

/-- What the limiter remembers after it is asked, and whether it lets the request through. -/
def askLimiter (rateLimiter : Option SignatureFarmingRateLimiter) (s : IssuerState) (request : IssueRequest) :
    (String → List ℚ) × Bool :=
  match rateLimiter with
  | none => (s.requests, true)
  | some limiter => limiter.isAllowed s.requests request.rateLimitKey request.now

def issue (key : RsaBlindKeyPair) (rateLimiter : Option SignatureFarmingRateLimiter) (s : IssuerState)
    (request : IssueRequest) : IssuerState × Except String Int :=
  if s.issued request.voterId then (s, .error alreadyIssued)
  else
    let (requests, allowed) := askLimiter rateLimiter s request
    let asked : IssuerState := { s with requests := requests }
    if allowed = false then (asked, .error tooManyRequests)
    else
      match signBlinded request.blinded key with
      | .error message => (asked, .error message)
      | .ok signature =>
        match request.marks with
        | .error message => (asked, .error message)
        | .ok () => ({ asked with issued := Function.update s.issued request.voterId true }, .ok signature)

def IssuerState.empty : IssuerState := ⟨fun _ => false, fun _ => []⟩

def IssuerRun (key : RsaBlindKeyPair) (rateLimiter : Option SignatureFarmingRateLimiter) :
    List (IssuerState × IssueRequest) → IssuerState → Prop :=
  Run (fun s request s' => (issue key rateLimiter s request).1 = s') .empty

/-- The voter gets a signature by it. -/
def signs (key : RsaBlindKeyPair) (rateLimiter : Option SignatureFarmingRateLimiter) (voterId : String)
    (e : IssuerState × IssueRequest) : Bool :=
  e.2.voterId == voterId && (issue key rateLimiter e.1 e.2).2.isOk

section
variable {key : RsaBlindKeyPair} {rateLimiter : Option SignatureFarmingRateLimiter} {s s' : IssuerState}
  {request : IssueRequest} {voterId : String} {signature : Int}

/-! ## One request -/

/-- A signature is for a voter who had none, and it is marked; a failure leaves the store as it was. -/
theorem issue_cases (key : RsaBlindKeyPair) (rateLimiter : Option SignatureFarmingRateLimiter) (s : IssuerState)
    (request : IssueRequest) :
    (∃ signature requests, issue key rateLimiter s request = (⟨Function.update s.issued request.voterId true, requests⟩,
      .ok signature) ∧ s.issued request.voterId = false) ∨
    (∃ message requests, issue key rateLimiter s request = (⟨s.issued, requests⟩, .error message)) := by
  unfold issue
  split
  · exact .inr ⟨_, _, rfl⟩
  · next hnew =>
    rw [Bool.not_eq_true] at hnew
    dsimp only
    split
    · exact .inr ⟨_, _, rfl⟩
    · split
      · exact .inr ⟨_, _, rfl⟩
      · split
        · exact .inr ⟨_, _, rfl⟩
        · exact .inl ⟨_, _, rfl, hnew⟩

theorem issued_of_failed (h : (issue key rateLimiter s request).2.isOk = false) :
    (issue key rateLimiter s request).1.issued = s.issued := by
  rcases issue_cases key rateLimiter s request with
    ⟨signature, requests, hissue, -⟩ | ⟨message, requests, hissue⟩
  · rw [hissue] at h
    cases h
  · rw [hissue]

/-- Once every request it remembers is out of the window, the limiter lets the next one through. -/
theorem askLimiter_of_late (hlate : ∀ limiter, rateLimiter = some limiter →
    ∀ t ∈ s.requests request.rateLimitKey, t + limiter.windowMs ≤ request.now) :
    (askLimiter rateLimiter s request).2 = true := by
  cases rateLimiter with
  | none => rfl
  | some limiter =>
    have hnone : (s.requests request.rateLimitKey).filter
        (fun timestamp => request.now - limiter.windowMs < timestamp) = [] := by
      rw [List.filter_eq_nil_iff]
      intro t ht
      have hout := hlate limiter rfl t ht
      rw [decide_eq_true_eq, not_lt]
      linarith
    simp only [askLimiter, SignatureFarmingRateLimiter.isAllowed, hnone]
    rw [if_neg (by simpa using limiter.positive.1)]

/-- A voter without a credential gets one for a value in range, once the limiter lets him through. -/
theorem issue_of_allowed (hnew : s.issued request.voterId = false) (hallowed : (askLimiter rateLimiter s request).2 = true)
    (hsigned : signBlinded request.blinded key = .ok signature) (hmarks : request.marks = .ok ()) :
    (issue key rateLimiter s request).2 = .ok signature := by
  unfold issue
  rw [hnew]
  simp only [hallowed, hsigned, hmarks, Bool.true_eq_false, Bool.false_eq_true, if_false]

/-- There is a time from which on every request of the voter with a value in range that the store can mark is
answered with a signature, whatever key it is counted under. -/
def CanTry (key : RsaBlindKeyPair) (rateLimiter : Option SignatureFarmingRateLimiter) (s : IssuerState)
    (voterId : String) : Prop :=
  ∀ rateLimitKey, ∃ T, ∀ now ≥ T, ∀ blinded signature, signBlinded blinded key = .ok signature →
    (issue key rateLimiter s ⟨voterId, blinded, rateLimitKey, now, .ok ()⟩).2 = .ok signature

theorem canTry_of_new (hnew : s.issued voterId = false) : CanTry key rateLimiter s voterId := by
  intro rateLimitKey
  have hlate : ∃ T : ℚ, ∀ now ≥ T, ∀ limiter, rateLimiter = some limiter →
      ∀ t ∈ s.requests rateLimitKey, t + limiter.windowMs ≤ now := by
    cases rateLimiter with
    | none => exact ⟨0, fun _ _ limiter hlimiter => by cases hlimiter⟩
    | some limiter =>
      obtain ⟨T, hT⟩ := (List.finite_toSet (s.requests rateLimitKey)).bddAbove
      refine ⟨T + limiter.windowMs, fun now hnow limiter' hlimiter t ht => ?_⟩
      cases hlimiter
      exact (add_le_add_left (hT ht) _).trans hnow
  obtain ⟨T, hT⟩ := hlate
  refine ⟨T, fun now hnow blinded signature hsigned => ?_⟩
  exact issue_of_allowed hnew (askLimiter_of_late fun limiter hlimiter => hT now hnow limiter hlimiter) hsigned rfl

/-! ## Runs -/

/-- The signatures a voter has had are counted by his mark. -/
theorem IssuerRun.count {log : List (IssuerState × IssueRequest)} (hrun : IssuerRun key rateLimiter log s) :
    log.countP (signs key rateLimiter voterId) = if s.issued voterId then 1 else 0 := by
  refine Run.invariant_log (P := fun log s => log.countP (signs key rateLimiter voterId) =
    if s.issued voterId then 1 else 0) rfl (fun log s request s' _ ih hs => ?_) hrun
  subst hs
  rw [List.countP_cons, ih]
  by_cases hvoter : request.voterId = voterId
  · subst hvoter
    rcases issue_cases key rateLimiter s request with
      ⟨signature, requests, hissue, hnew⟩ | ⟨message, requests, hissue⟩
    · simp [signs, hissue, hnew, Except.isOk, Except.toBool]
    · simp [signs, hissue, Except.isOk, Except.toBool]
  · have hother : (issue key rateLimiter s request).1.issued voterId = s.issued voterId := by
      rcases issue_cases key rateLimiter s request with
        ⟨signature, requests, hissue, -⟩ | ⟨message, requests, hissue⟩
      · rw [hissue]
        exact Function.update_of_ne (Ne.symm hvoter) _ _
      · rw [hissue]
    simp [signs, hvoter, hother]

end

/-! ## Blind credentials -/

/-- What the keys do: every message is signed under every factor, such as `blind` picks, the signature verifies,
and one factor takes a message to a given blinded value. -/
structure BlindSigns (p q e d : Nat) : Prop where
  blinds : ∀ (m : Int) (draws : List Int) (request : BlindedRequest), (∀ r ∈ draws, 0 ≤ r) →
    blind m (rsaKey p q e d).toRsaBlindPublicKey draws = .ok (some request) →
    0 ≤ m ∧ m < (p * q : Nat) ∧ Int.gcd request.r (p * q : Nat) = 1 ∧ request.blinded = m * request.r ^ e % (p * q : Nat)
  unblinds : ∀ m r : Int, 0 ≤ m → m < (p * q : Nat) → Int.gcd r (p * q : Nat) = 1 →
    blindWith m r (rsaKey p q e d).toRsaBlindPublicKey = .ok (m * r ^ e % (p * q : Nat)) ∧
    ∃ blindSig, signBlinded (m * r ^ e % (p * q : Nat)) (rsaKey p q e d) = .ok blindSig ∧
      unblind blindSig r (rsaKey p q e d).toRsaBlindPublicKey = .ok (m ^ d % (p * q : Nat)) ∧
      verify m (m ^ d % (p * q : Nat)) (rsaKey p q e d).toRsaBlindPublicKey = .ok true
  hides : ∀ m b : Int, 0 ≤ m → m < (p * q : Nat) → 0 ≤ b → b < (p * q : Nat) → Int.gcd m (p * q : Nat) = 1 →
    Int.gcd b (p * q : Nat) = 1 →
    ∃! r : Int, (0 ≤ r ∧ r < (p * q : Nat)) ∧ blindWith m r (rsaKey p q e d).toRsaBlindPublicKey = .ok b

/-- What the issuer does in a run: one signature for a voter at most, and after a failure a voter who had none
has none and can try again. -/
structure IssuesOnce (key : RsaBlindKeyPair) (rateLimiter : Option SignatureFarmingRateLimiter)
    (log : List (IssuerState × IssueRequest)) (s : IssuerState) : Prop where
  once : ∀ voterId, log.countP (signs key rateLimiter voterId) ≤ 1
  retries : ∀ request, (issue key rateLimiter s request).2.isOk = false → s.issued request.voterId = false →
    (issue key rateLimiter s request).1.issued request.voterId = false ∧
      CanTry key rateLimiter (issue key rateLimiter s request).1 request.voterId

theorem rsa_blindSigns {p q e d : Nat} (hp : p.Prime) (hq : q.Prime) (hne : p ≠ q)
    (hed : e * d ≡ 1 [MOD (p - 1).lcm (q - 1)]) : BlindSigns p q e d where
  blinds _ _ _ hdraws h := blind_spec (modulus_pos hp hq) hdraws h
  unblinds m r hlow hlt hr :=
    have hn := modulus_pos hp hq
    ⟨blindWith_eq hn hlow hlt, _, signBlinded_eq hn _, unblind_eq hp hq hne hed hr, verify_eq hp hq hne hed⟩
  hides m b hlow hlt hblow hblt hm _ := by
    have hn := modulus_pos hp hq
    obtain ⟨r, ⟨hrange, hr⟩, huniq⟩ := existsUnique_blinding hp hq hne hed hm b
    have hiff : ∀ r : Int, blindWith m r (rsaKey p q e d).toRsaBlindPublicKey = .ok b ↔
        m * r ^ e ≡ b [ZMOD (p * q : Nat)] := by
      intro r
      rw [blindWith_eq hn hlow hlt, Except.ok.injEq, Int.ModEq, Int.emod_eq_of_lt hblow hblt]
    exact ⟨r, ⟨hrange, (hiff r).mpr hr⟩, fun r' hr' => huniq r' ⟨hr'.1, (hiff r').mp hr'.2⟩⟩

theorem issuesOnce {key : RsaBlindKeyPair} {rateLimiter : Option SignatureFarmingRateLimiter}
    {log : List (IssuerState × IssueRequest)} {s : IssuerState} (hrun : IssuerRun key rateLimiter log s) :
    IssuesOnce key rateLimiter log s where
  once voterId := by
    rw [hrun.count]
    split <;> omega
  retries request hfailed hnew := by
    have hstill : (issue key rateLimiter s request).1.issued request.voterId = false := by
      rw [issued_of_failed hfailed, hnew]
    exact ⟨hstill, canTry_of_new hstill⟩

/-- Unblinded signatures are those of the message itself whatever the factor was, a blinded value is open to every
message, and no run of the issuer gives a voter two. -/
theorem credentials_blind_and_single {p q e d : Nat} (hp : p.Prime) (hq : q.Prime) (hne : p ≠ q)
    (hed : e * d ≡ 1 [MOD (p - 1).lcm (q - 1)]) (key : RsaBlindKeyPair)
    (rateLimiter : Option SignatureFarmingRateLimiter) :
    BlindSigns p q e d ∧ ∀ log s, IssuerRun key rateLimiter log s → IssuesOnce key rateLimiter log s :=
  ⟨rsa_blindSigns hp hq hne hed, fun _ _ hrun => issuesOnce hrun⟩

theorem one_in_a_second : 0 < (1 : ℚ) ∧ 0 < (1000 : ℚ) := by norm_num

theorem credentials_blind_and_single_of_thirty_three : BlindSigns 3 11 3 7 ∧
    ∀ log s, IssuerRun (rsaKey 3 11 3 7) (some ⟨1, 1000, one_in_a_second⟩) log s →
      IssuesOnce (rsaKey 3 11 3 7) (some ⟨1, 1000, one_in_a_second⟩) log s :=
  credentials_blind_and_single (by norm_num) (by norm_num) (by norm_num) (by decide) _ _

end ZkVote.BlindSignature
