import ZkVote.Host
import ZkVote.Lib.Runs

/-!
# The transcript registry

`contracts/transcript-registry/src/lib.rs`. Governance registers the transcript of a
key ceremony for the hash of the key that came out of it.
-/

open Lib Lib.Outcome

namespace ZkVote.Transcripts

inductive TranscriptError where
  | NotGovernance | TranscriptAlreadyRegistered | TranscriptNotFound | InsufficientContributors
  | InvalidBeaconHash | AttestationMismatch | InvalidTranscriptChain | VkAlreadyRegistered
  deriving DecidableEq, Repr

def MIN_MPC_CONTRIBUTORS : Nat := 3

structure TranscriptInfo where
  circuit_id : Bytes
  transcript_hash : BytesN 32
  vk_hash : BytesN 32
  contributors_count : Nat
  beacon_hash : BytesN 32
  registered_at : Nat
  verified : Bool

structure ContributionStep where
  step : Nat
  prev_hash : BytesN 32
  new_hash : BytesN 32
  contributor_tag : BytesN 32
  timestamp : Nat

structure TranscriptState where
  governance : Address
  transcript : BytesN 32 → Option TranscriptInfo := fun _ => none
  vk_to_transcript : BytesN 32 → Option (BytesN 32) := fun _ => none
  circuit_transcript : Bytes → Option (BytesN 32) := fun _ => none
  contribution_step : BytesN 32 × Nat → Option ContributionStep := fun _ => none

def constructor (governance : Address) : TranscriptState where
  governance := governance

def assert_governance (env : Env) (s : TranscriptState) : Outcome TranscriptError Unit :=
  require_auth env s.governance

def register_transcript (env : Env) (s : TranscriptState) (circuit_id : Bytes)
    (transcript_hash vk_hash : BytesN 32) (contributors_count : Nat) (beacon_hash : BytesN 32) :
    Outcome TranscriptError TranscriptState := do
  assert_governance env s
  require (¬ contributors_count < MIN_MPC_CONTRIBUTORS) .InsufficientContributors
  require ((s.transcript transcript_hash).isNone = true) .TranscriptAlreadyRegistered
  require (s.vk_to_transcript vk_hash = none) .VkAlreadyRegistered
  let transcript : TranscriptInfo :=
    { circuit_id := circuit_id
      transcript_hash := transcript_hash
      vk_hash := vk_hash
      contributors_count := contributors_count
      beacon_hash := beacon_hash
      registered_at := env.timestamp
      verified := true }
  return { s with
    transcript := Function.update s.transcript transcript_hash (some transcript)
    vk_to_transcript := Function.update s.vk_to_transcript vk_hash (some transcript_hash)
    circuit_transcript := Function.update s.circuit_transcript circuit_id (some transcript_hash) }

/-- The steps are noted, and nothing else looks at them. -/
def record_contribution (env : Env) (s : TranscriptState) (prev_hash new_hash contributor_tag : BytesN 32)
    (step : Nat) : Outcome TranscriptError TranscriptState := do
  assert_governance env s
  let step_info : ContributionStep :=
    { step := step
      prev_hash := prev_hash
      new_hash := new_hash
      contributor_tag := contributor_tag
      timestamp := env.timestamp }
  return { s with
    contribution_step := Function.update s.contribution_step (new_hash, step) (some step_info) }

/-- The transcript stands for the key. -/
def attests (transcript : TranscriptInfo) (vk_hash : BytesN 32) : Bool :=
  transcript.verified && decide (MIN_MPC_CONTRIBUTORS ≤ transcript.contributors_count) &&
    decide (transcript.vk_hash = vk_hash)

def verify_attestation (s : TranscriptState) (transcript_hash vk_hash : BytesN 32) : Bool :=
  match s.transcript transcript_hash with
  | some transcript => attests transcript vk_hash
  | none => false

def is_vk_attested (s : TranscriptState) (vk_hash : BytesN 32) : Bool :=
  match s.vk_to_transcript vk_hash with
  | some t_hash => verify_attestation s t_hash vk_hash
  | none => false

/-! ## Runs -/

inductive Call where
  | register_transcript (circuit_id : Bytes) (transcript_hash vk_hash : BytesN 32) (contributors_count : Nat)
      (beacon_hash : BytesN 32)
  | record_contribution (prev_hash new_hash contributor_tag : BytesN 32) (step : Nat)

def step (s : TranscriptState) (env : Env) : Call → Outcome TranscriptError TranscriptState
  | .register_transcript circuit_id transcript_hash vk_hash contributors_count beacon_hash =>
    register_transcript env s circuit_id transcript_hash vk_hash contributors_count beacon_hash
  | .record_contribution prev_hash new_hash contributor_tag step =>
    record_contribution env s prev_hash new_hash contributor_tag step

/-- An accepted call. -/
def Accepts (s : TranscriptState) (call : Env × Call) (s' : TranscriptState) : Prop :=
  step s call.1 call.2 = .ok s'

/-- A run from the deployment of the contract. -/
def TranscriptRun (governance : Address) : List (TranscriptState × Env × Call) → TranscriptState → Prop :=
  Run Accepts (constructor governance)

/-! ## What is registered -/

/-- A transcript for the key is registered, with enough contributors. -/
def Attested (s : TranscriptState) (vk_hash : BytesN 32) : Prop :=
  ∃ transcript_hash transcript, s.transcript transcript_hash = some transcript ∧ transcript.vk_hash = vk_hash ∧
    3 ≤ transcript.contributors_count

/-- A transcript is verified, has enough contributors, and is the one its key leads to. -/
structure TranscriptOk (s : TranscriptState) (transcript_hash : BytesN 32) (transcript : TranscriptInfo) :
    Prop where
  transcript_hash_eq : transcript.transcript_hash = transcript_hash
  verified : transcript.verified = true
  contributors : MIN_MPC_CONTRIBUTORS ≤ transcript.contributors_count
  vk_to_transcript : s.vk_to_transcript transcript.vk_hash = some transcript_hash

def TranscriptsOk (s : TranscriptState) : Prop :=
  ∀ t transcript, s.transcript t = some transcript → TranscriptOk s t transcript

/-- Transcripts are added; none is replaced or removed. -/
structure Grows (s s' : TranscriptState) : Prop where
  transcript : ∀ t transcript, s.transcript t = some transcript → s'.transcript t = some transcript
  governance : s'.governance = s.governance

section
variable {env : Env} {s s' : TranscriptState} {call : Call} {governance : Address}
  {log : List (TranscriptState × Env × Call)} {transcript_hash vk_hash : BytesN 32}

theorem register_transcript_eq_ok {circuit_id : Bytes} {contributors_count : Nat} {beacon_hash : BytesN 32}
    (h : register_transcript env s circuit_id transcript_hash vk_hash contributors_count beacon_hash = .ok s') :
    env.auths s.governance = true ∧ s.transcript transcript_hash = none ∧ s.vk_to_transcript vk_hash = none ∧
      s'.governance = s.governance ∧ ∃ transcript, transcript.vk_hash = vk_hash ∧
        s'.transcript = Function.update s.transcript transcript_hash (some transcript) ∧
        s'.vk_to_transcript = Function.update s.vk_to_transcript vk_hash (some transcript_hash) ∧
        TranscriptOk s' transcript_hash transcript := by
  simp only [register_transcript, assert_governance, bind_eq_ok, require_auth_eq_ok, require_eq_ok, pure_eq_ok,
    Option.isNone_iff_eq_none] at h
  obtain ⟨_, hauth, _, hcount, _, hnone, _, hkey, rfl⟩ := h
  exact ⟨hauth, hnone, hkey, rfl, _, rfl, rfl, rfl, rfl, rfl, Nat.le_of_not_lt hcount, Function.update_self ..⟩

theorem record_contribution_eq_ok {prev_hash new_hash contributor_tag : BytesN 32} {n : Nat}
    (h : record_contribution env s prev_hash new_hash contributor_tag n = .ok s') :
    env.auths s.governance = true ∧ s'.transcript = s.transcript ∧
      s'.vk_to_transcript = s.vk_to_transcript ∧ s'.governance = s.governance := by
  simp only [record_contribution, assert_governance, bind_eq_ok, require_auth_eq_ok, pure_eq_ok] at h
  obtain ⟨_, hauth, rfl⟩ := h
  exact ⟨hauth, rfl, rfl, rfl⟩

theorem step_signed (h : step s env call = .ok s') : env.auths s.governance = true := by
  cases call with
  | register_transcript => exact (register_transcript_eq_ok h).1
  | record_contribution => exact (record_contribution_eq_ok h).1

theorem step_grows (h : step s env call = .ok s') : Grows s s' := by
  cases call with
  | register_transcript =>
    obtain ⟨-, hnone, -, hgovernance, transcript, -, htranscript, -⟩ := register_transcript_eq_ok h
    refine ⟨fun t old hold => ?_, hgovernance⟩
    rw [htranscript, Function.update_of_ne, hold]
    rintro rfl
    rw [hnone] at hold
    cases hold
  | record_contribution =>
    obtain ⟨-, htranscript, -, hgovernance⟩ := record_contribution_eq_ok h
    exact ⟨fun t old hold => htranscript ▸ hold, hgovernance⟩

theorem step_transcriptsOk (hs : TranscriptsOk s) (h : step s env call = .ok s') : TranscriptsOk s' := by
  cases call with
  | register_transcript =>
    obtain ⟨-, -, hkey, -, new, hvk, htranscript, hvks, hok⟩ := register_transcript_eq_ok h
    intro t transcript ht
    rw [htranscript, Function.update_apply] at ht
    split at ht
    · rename_i heq
      rw [heq, ← Option.some.inj ht]
      exact hok
    · obtain ⟨hhash, hverified, hcount, hold⟩ := hs t transcript ht
      refine ⟨hhash, hverified, hcount, ?_⟩
      rw [hvks, Function.update_of_ne, hold]
      rintro heq
      rw [heq, hkey] at hold
      cases hold
  | record_contribution =>
    obtain ⟨-, htranscript, hvks, -⟩ := record_contribution_eq_ok h
    intro t transcript ht
    rw [htranscript] at ht
    obtain ⟨hhash, hverified, hcount, hold⟩ := hs t transcript ht
    exact ⟨hhash, hverified, hcount, by rw [hvks, hold]⟩

theorem TranscriptRun.ok (hrun : TranscriptRun governance log s) : TranscriptsOk s :=
  Run.invariant (P := TranscriptsOk) (fun _ _ h => by cases h) (fun _ _ _ hs => step_transcriptsOk hs) hrun

theorem Grows.attested (h : Grows s s') (hattested : Attested s vk_hash) : Attested s' vk_hash := by
  obtain ⟨t, transcript, ht, hvk⟩ := hattested
  exact ⟨t, transcript, h.transcript t transcript ht, hvk⟩

/-! ## What the contract answers -/

theorem attests_iff {transcript : TranscriptInfo} : attests transcript vk_hash = true ↔
    transcript.verified = true ∧ 3 ≤ transcript.contributors_count ∧ transcript.vk_hash = vk_hash := by
  simp only [attests, Bool.and_eq_true, decide_eq_true_eq, and_assoc]
  rfl

theorem attested_of_verify (h : verify_attestation s transcript_hash vk_hash = true) : Attested s vk_hash := by
  unfold verify_attestation at h
  split at h
  · rename_i transcript ht
    obtain ⟨-, hcount, hvk⟩ := attests_iff.mp h
    exact ⟨transcript_hash, transcript, ht, hvk, hcount⟩
  · cases h

theorem attested_of_is_vk_attested (h : is_vk_attested s vk_hash = true) : Attested s vk_hash := by
  unfold is_vk_attested at h
  split at h
  · exact attested_of_verify h
  · cases h

/-- The contract says that a key is attested exactly if a transcript for it is registered. -/
theorem is_vk_attested_iff (hs : TranscriptsOk s) : is_vk_attested s vk_hash = true ↔ Attested s vk_hash := by
  refine ⟨attested_of_is_vk_attested, fun ⟨t, transcript, ht, hvk, hcount⟩ => ?_⟩
  obtain ⟨-, hverified, -, hlink⟩ := hs t transcript ht
  rw [hvk] at hlink
  unfold is_vk_attested verify_attestation
  simp only [hlink, ht]
  exact attests_iff.mpr ⟨hverified, hcount, hvk⟩

theorem transcript_unique (hs : TranscriptsOk s) {t t' : BytesN 32} {transcript transcript' : TranscriptInfo}
    (ht : s.transcript t = some transcript) (ht' : s.transcript t' = some transcript')
    (hvk : transcript.vk_hash = transcript'.vk_hash) : t = t' := by
  have hlink := (hs t transcript ht).vk_to_transcript
  rw [hvk, (hs t' transcript' ht').vk_to_transcript] at hlink
  exact (Option.some.inj hlink).symm

end

end ZkVote.Transcripts
