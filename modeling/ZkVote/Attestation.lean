import ZkVote.Transcripts.Registry
import ZkVote.Voting.Slots

/-!
# The voting contract and the transcript registry

A key should come with the transcript of a ceremony. Two setters of the voting
contract ask for one, and the others take the key as it is.
-/

open Lib Lib.Outcome

namespace ZkVote.Attestation

open Transcripts (TranscriptState Attested)
open Voting (Crypto VotingEnv VotingState DaoCall Slot VotingRun VotingOk pins)

structure System where
  transcripts : TranscriptState
  voting : VotingState

inductive Call where
  | transcripts (env : Env) (call : Transcripts.Call)
  | voting (env : VotingEnv) (call : Voting.Call)

/-- At its address the registry answers for itself. -/
def asked (address : Address) (t : TranscriptState) (env : VotingEnv) : VotingEnv :=
  { env with
    is_vk_attested := fun contract vk_hash =>
      if contract = address then Transcripts.is_vk_attested t vk_hash else env.is_vk_attested contract vk_hash
    verify_attestation := fun contract transcript_hash vk_hash =>
      if contract = address then Transcripts.verify_attestation t transcript_hash vk_hash
      else env.verify_attestation contract transcript_hash vk_hash }

def next (C : Crypto) (address : Address) (s : System) : Call → Option System
  | .transcripts env call =>
    (Transcripts.step s.transcripts env call).toOption.map fun t => { s with transcripts := t }
  | .voting env call =>
    (Voting.step C s.voting (asked address s.transcripts env) call).toOption.map fun v => { s with voting := v }

/-- An accepted call. -/
def Accepts (C : Crypto) (address : Address) (s : System) (call : Call) (s' : System) : Prop :=
  next C address s call = some s'

/-- Both contracts as they are deployed. -/
def init (governance registry guardian : Address) : System where
  transcripts := Transcripts.constructor governance
  voting := Voting.constructor registry guardian

def SystemRun (C : Crypto) (address governance registry guardian : Address) :
    List (System × Call) → System → Prop :=
  Run (Accepts C address) (init governance registry guardian)

/-! ## Keys with a transcript -/

/-- The call puts a key with this hash in a slot of the DAO. -/
def Stores (C : Crypto) (s : System) (d : Nat) (slot : Slot) (hash : BytesN 32) : Call → Prop
  | .voting _ (.dao call) => call.dao_id = d ∧ slot ∈ call.slots (s.voting.daos d).keys ∧ call.hash C = some hash
  | _ => False

/-- When it was put there, a transcript for it was registered. Transcripts stay, so any time will do. -/
def StoredAttested (C : Crypto) (log : List (System × Call)) (d : Nat) (slot : Slot) (hash : BytesN 32) : Prop :=
  ∃ e ∈ log, Stores C e.1 d slot hash e.2 ∧ Attested e.1.transcripts hash

/-- Every key of the store, and every key that a proposal pins, had a transcript when it was stored. -/
structure KeysAttested (C : Crypto) (log : List (System × Call)) (s : System) : Prop where
  held : ∀ d slot hash, (s.voting.daos d).keys.held C slot = some hash → StoredAttested C log d slot hash
  pinned : ∀ d q hash, hash ∈ pins (s.voting.elections d q) → ∃ slot, StoredAttested C log d slot hash

/-- The voting contract asks the registry at this address. -/
def Configured (address : Address) (s : System) : Prop := s.voting.inst.transcript_registry = some address

/-- A setter that asks no registry. -/
def unchecked : DaoCall → Bool
  | .set_vk .. | .set_vk_with_transcript .. => false
  | _ => true

/-- While the registry is configured, no setter that does not ask it brings a key without a transcript; and it is
configured over keys that had theirs. -/
def Guarded (C : Crypto) (address : Address) (m : Moment System Call) : Prop :=
  match m.call with
  | .voting _ (.dao call) => Configured address m.pre → unchecked call = true →
      ∀ hash, call.hash C = some hash → Attested m.pre.transcripts hash
  | .voting _ (.inst (.set_transcript_registry transcript_registry)) =>
    transcript_registry = address → ¬ Configured address m.pre → KeysAttested C m.past m.pre
  | _ => True

section
variable {C : Crypto} {address governance registry guardian : Address} {s s' : System}
  {log : List (System × Call)} {d : Nat} {slot : Slot} {hash : BytesN 32}

theorem accepts_transcripts {env : Env} {call : Transcripts.Call} :
    Accepts C address s (.transcripts env call) s' ↔
      ∃ t, Transcripts.step s.transcripts env call = .ok t ∧ { s with transcripts := t } = s' := by
  rw [Accepts, next, Option.map_eq_some_iff]
  simp only [toOption_eq_some]

theorem accepts_voting {env : VotingEnv} {call : Voting.Call} : Accepts C address s (.voting env call) s' ↔
    ∃ v, Voting.step C s.voting (asked address s.transcripts env) call = .ok v ∧ { s with voting := v } = s' := by
  rw [Accepts, next, Option.map_eq_some_iff]
  simp only [toOption_eq_some]

theorem SystemRun.voting (hrun : SystemRun C address governance registry guardian log s) :
    ∃ log', VotingRun C registry guardian log' s.voting := by
  refine Run.simulates System.voting (fun s call s' h => ?_) hrun
  cases call with
  | transcripts env call =>
    obtain ⟨t, -, rfl⟩ := accepts_transcripts.mp h
    exact .inl rfl
  | voting env call =>
    obtain ⟨v, hv, rfl⟩ := accepts_voting.mp h
    exact .inr ⟨(_, call), hv⟩

theorem SystemRun.transcriptsOk (hrun : SystemRun C address governance registry guardian log s) :
    Transcripts.TranscriptsOk s.transcripts := by
  obtain ⟨log', htranscripts⟩ : ∃ log', Transcripts.TranscriptRun governance log' s.transcripts := by
    refine Run.simulates System.transcripts (fun s call s' h => ?_) hrun
    cases call with
    | transcripts env call =>
      obtain ⟨t, ht, rfl⟩ := accepts_transcripts.mp h
      exact .inr ⟨(env, call), ht⟩
    | voting env call =>
      obtain ⟨v, -, rfl⟩ := accepts_voting.mp h
      exact .inl rfl
  exact htranscripts.ok

theorem SystemRun.ok (hrun : SystemRun C address governance registry guardian log s) : VotingOk s.voting :=
  let ⟨_, hvoting⟩ := hrun.voting
  hvoting.ok

theorem step_grows {call : Call} (h : Accepts C address s call s') :
    Transcripts.Grows s.transcripts s'.transcripts := by
  cases call with
  | transcripts env call =>
    obtain ⟨t, ht, rfl⟩ := accepts_transcripts.mp h
    exact Transcripts.step_grows ht
  | voting env call =>
    obtain ⟨v, -, rfl⟩ := accepts_voting.mp h
    exact ⟨fun _ _ => id, rfl⟩

theorem attested_since (hrun : SystemRun C address governance registry guardian log s) :
    ∀ e ∈ log, Attested e.1.transcripts hash → Attested s.transcripts hash := by
  refine Run.invariant_log (P := fun log s => ∀ e ∈ log, Attested e.1.transcripts hash → Attested s.transcripts hash)
    (by simp) (fun log s call s' hr ih h => ?_) hrun
  have hgrows := step_grows h
  rw [List.forall_mem_cons]
  exact ⟨hgrows.attested, fun e he hattested => hgrows.attested (ih e he hattested)⟩

/-! ## Ballots and tallies -/

/-- A ballot is then checked with a key that had a transcript. -/
theorem KeysAttested.ballot {env : VotingEnv} {call : Voting.BallotCall} {v : VotingState}
    (hkeys : KeysAttested C log s) (h : call.run C env s.voting = .ok v)
    (hkey : call.checkedWith C env s.voting = some hash) :
    ∃ slot, StoredAttested C log call.election.1 slot hash := by
  rcases Voting.ballot_key_held h hkey with hpin | ⟨slot, hheld⟩
  · exact hkeys.pinned _ _ hash hpin
  · exact ⟨slot, hkeys.held _ slot hash hheld⟩

theorem KeysAttested.tally {call : Voting.TallyCall} (hkeys : KeysAttested C log s)
    (hkey : call.checkedWith C s.voting = some hash) : ∃ slot, StoredAttested C log call.election.1 slot hash := by
  obtain ⟨slot, hheld⟩ := Voting.tally_key_held hkey
  exact ⟨slot, hkeys.held _ slot hash hheld⟩

/-! ## Setters that ask -/

/-- A setter that asks the registry is only accepted with a transcript. -/
theorem attested_of_checked {env : VotingEnv} {call : DaoCall} {v : VotingState} (hconfigured : Configured address s)
    (hcall : unchecked call = false) (h : call.run C (asked address s.transcripts env) s.voting = .ok v)
    (hhash : call.hash C = some hash) : Attested s.transcripts hash := by
  have hinst : (Voting.resumed s.voting).inst.transcript_registry = some address := hconfigured
  cases call with
  | set_vk d vk admin =>
    obtain rfl := Option.some.inj hhash
    simp [DaoCall.run, Voting.set_vk, hinst, asked] at h
    obtain ⟨-, -, -, -, hattested, -⟩ := h
    exact Transcripts.attested_of_is_vk_attested hattested
  | set_vk_with_transcript d vk admin transcript_hash =>
    obtain rfl := Option.some.inj hhash
    simp [DaoCall.run, Voting.set_vk_with_transcript, Voting.check_transcript, hinst, asked] at h
    obtain ⟨-, -, -, -, hattested, -⟩ := h
    exact Transcripts.attested_of_verify hattested
  | _ => cases hcall

/-! ## One step -/

theorem StoredAttested.later {e : System × Call} (h : StoredAttested C log d slot hash) :
    StoredAttested C (e :: log) d slot hash := by
  obtain ⟨e', he', hstored⟩ := h
  exact ⟨e', List.mem_cons_of_mem _ he', hstored⟩

theorem KeysAttested.later {e : System × Call} (h : KeysAttested C log s)
    (hheld : ∀ d slot hash, (s'.voting.daos d).keys.held C slot = some hash →
      (s.voting.daos d).keys.held C slot = some hash ∨ StoredAttested C (e :: log) d slot hash)
    (hpins : ∀ d q hash, hash ∈ pins (s'.voting.elections d q) → hash ∈ pins (s.voting.elections d q) ∨
      ∃ slot, (s.voting.daos d).keys.held C slot = some hash) : KeysAttested C (e :: log) s' where
  held := fun d slot hash hh => (hheld d slot hash hh).elim (fun hold => (h.held d slot hash hold).later) id
  pinned := fun d q hash hpin => by
    rcases hpins d q hash hpin with hold | ⟨slot, hold⟩
    · obtain ⟨slot, hstored⟩ := h.pinned d q hash hold
      exact ⟨slot, hstored.later⟩
    · exact ⟨slot, (h.held d slot hash hold).later⟩

/-- A call that is not a setter, and leaves the keys and the pins, settles nothing. -/
theorem keysAttested_cons_iff {call : Call} (hstores : ∀ d slot hash, ¬ Stores C s d slot hash call)
    (hdaos : s'.voting.daos = s.voting.daos) (helections : s'.voting.elections = s.voting.elections) :
    KeysAttested C ((s, call) :: log) s' ↔ KeysAttested C log s := by
  have hsame (d : Nat) (slot : Slot) (hash : BytesN 32) :
      StoredAttested C ((s, call) :: log) d slot hash ↔ StoredAttested C log d slot hash := by
    refine ⟨fun ⟨e, he, hstored⟩ => ?_, fun h => h.later⟩
    rcases List.mem_cons.mp he with rfl | he
    · exact absurd hstored.1 (hstores d slot hash)
    · exact ⟨e, he, hstored⟩
  constructor
  · rintro ⟨hheld, hpinned⟩
    simp only [hsame, hdaos, helections] at hheld hpinned
    exact ⟨hheld, hpinned⟩
  · rintro ⟨hheld, hpinned⟩
    exact ⟨by simpa only [hsame, hdaos] using hheld, by simpa only [hsame, helections] using hpinned⟩

/-- A setter keeps the property exactly if its key has a transcript. -/
theorem setter_attested_iff {env : VotingEnv} {call : DaoCall}
    (hrun : SystemRun C address governance registry guardian log s)
    (h : Accepts C address s (.voting env (.dao call)) s') (hkeys : KeysAttested C log s) :
    KeysAttested C ((s, .voting env (.dao call)) :: log) s' ↔
      ∀ hash, call.hash C = some hash → Attested s.transcripts hash := by
  obtain ⟨v, hv, rfl⟩ := accepts_voting.mp h
  have hsets : Voting.DaoSets s.voting v call := Voting.dao_sets hv
  constructor
  · intro hnext hash hhash
    obtain ⟨slot, hslot⟩ := Voting.slots_nonempty (k := (s.voting.daos call.dao_id).keys) (by rw [hhash]; simp)
    have hheld : (v.daos call.dao_id).keys.held C slot = some hash := by
      rw [hsets.keys, Voting.held_keys, if_pos hslot, hhash]
    obtain ⟨e, he, -, hattested⟩ := hnext.held call.dao_id slot hash hheld
    rcases List.mem_cons.mp he with rfl | he
    · exact hattested
    · exact attested_since hrun e he hattested
  · intro hattested
    refine hkeys.later (fun d slot hash hheld => ?_) fun d q hash hpin => Voting.step_pins hrun.ok hv hpin
    by_cases hd : d = call.dao_id
    · subst hd
      dsimp only at hheld
      rw [hsets.keys, Voting.held_keys] at hheld
      split at hheld
      · rename_i hslot
        exact .inr ⟨_, List.mem_cons_self .., ⟨rfl, hslot, hheld⟩, hattested hash hheld⟩
      · exact .inl hheld
    · obtain ⟨d', hdao⟩ := Voting.dao_step hv
      dsimp only at hheld
      rw [hdao.daos, Function.update_of_ne hd] at hheld
      exact .inl hheld

theorem other_attested {env : VotingEnv} {call : Voting.Call}
    (hrun : SystemRun C address governance registry guardian log s) (h : Accepts C address s (.voting env call) s')
    (hcall : ∀ c, call ≠ .dao c) (hkeys : KeysAttested C log s) :
    KeysAttested C ((s, .voting env call) :: log) s' := by
  obtain ⟨v, hv, rfl⟩ := accepts_voting.mp h
  refine hkeys.later (fun d slot hash hheld => ?_) fun d q hash hpin => Voting.step_pins hrun.ok hv hpin
  rcases Voting.step_sets hrun.ok hv d with hsame | ⟨c, hc, -⟩
  · exact .inl (hsame ▸ hheld)
  · exact absurd hc (hcall c)

theorem configured_kept {env : VotingEnv} {call : Voting.Call}
    (hrun : SystemRun C address governance registry guardian log s) (h : Accepts C address s (.voting env call) s')
    (hcall : ∀ r, call ≠ .inst (.set_transcript_registry r)) : Configured address s' ↔ Configured address s := by
  obtain ⟨v, hv, rfl⟩ := accepts_voting.mp h
  unfold Configured
  by_cases hinst : ∃ c, call = .inst c
  · obtain ⟨c, rfl⟩ := hinst
    have hwrites := (Voting.instance_step hv).transcript_registry
    cases c with
    | set_transcript_registry r => exact absurd rfl (hcall r)
    | _ => rw [hwrites]
  · have hsame := Voting.step_sameInst hrun.ok.dormant hv fun c hc => hinst ⟨c, hc⟩
    rw [hsame.transcript_registry]

theorem set_transcript_registry_step {env : VotingEnv} {transcript_registry : Address}
    (h : Accepts C address s (.voting env (.inst (.set_transcript_registry transcript_registry))) s') :
    s'.voting.inst.transcript_registry = some transcript_registry ∧ s'.voting.daos = s.voting.daos ∧
      s'.voting.elections = s.voting.elections := by
  obtain ⟨v, hv, rfl⟩ := accepts_voting.mp h
  have hstep : Voting.InstanceStep s.voting v (.set_transcript_registry transcript_registry) :=
    Voting.instance_step (C := C) hv
  exact ⟨hstep.transcript_registry, hstep.daos, hstep.elections⟩

theorem step_attested_iff {call : Call} (hrun : SystemRun C address governance registry guardian log s)
    (hkeys : Configured address s → KeysAttested C log s) (h : Accepts C address s call s') :
    (Configured address s' → KeysAttested C ((s, call) :: log) s') ↔ Guarded C address ⟨log, s, call, s'⟩ := by
  cases call with
  | transcripts env call =>
    obtain ⟨t, -, rfl⟩ := accepts_transcripts.mp h
    have hsame : KeysAttested C ((s, .transcripts env call) :: log) { s with transcripts := t } ↔
        KeysAttested C log s := keysAttested_cons_iff (fun _ _ _ => id) rfl rfl
    exact iff_of_true (fun hc => hsame.mpr (hkeys hc)) trivial
  | voting env call =>
    by_cases hdao : ∃ c, call = .dao c
    · obtain ⟨c, rfl⟩ := hdao
      rw [configured_kept hrun h (by simp)]
      refine forall_congr' fun hc => ?_
      rw [setter_attested_iff hrun h (hkeys hc)]
      by_cases hcall : unchecked c = true
      · exact ⟨fun h _ => h, fun h => h hcall⟩
      · obtain ⟨v, hv, -⟩ := accepts_voting.mp h
        rw [Bool.not_eq_true] at hcall
        exact iff_of_true (fun hash hhash => attested_of_checked hc hcall hv hhash) fun hasked => by
          rw [hcall] at hasked
          cases hasked
    · have hother := other_attested hrun h fun c hc => hdao ⟨c, hc⟩
      by_cases hconfigures : ∃ r, call = .inst (.set_transcript_registry r)
      · obtain ⟨r, rfl⟩ := hconfigures
        obtain ⟨hregistry, hdaos, helections⟩ := set_transcript_registry_step h
        have hsame : KeysAttested C ((s, .voting env (.inst (.set_transcript_registry r))) :: log) s' ↔
            KeysAttested C log s := keysAttested_cons_iff (fun _ _ _ => id) hdaos helections
        unfold Configured
        rw [hregistry, Option.some.injEq, hsame]
        refine forall_congr' fun hr => ⟨fun h _ => h, fun h => ?_⟩
        by_cases hc : Configured address s
        · exact hkeys hc
        · exact h hc
      · have hkept := configured_kept hrun h fun r hr => hconfigures ⟨r, hr⟩
        refine iff_of_true (fun hc => hother (hkeys (hkept.mp hc))) ?_
        unfold Guarded
        split
        · rename_i hcall
          exact absurd ⟨_, Call.voting.inj hcall |>.2⟩ hdao
        · rename_i hcall
          exact absurd ⟨_, Call.voting.inj hcall |>.2⟩ hconfigures
        · trivial

/-- In every state of a run in which the registry is configured, every key in store and every key pinned had a
transcript when it was stored, if and only if each call is guarded. -/
theorem keys_attested_iff (hrun : SystemRun C address governance registry guardian log s) :
    (∀ t ∈ Run.prefixes log s, Configured address t.2 → KeysAttested C t.1 t.2) ↔
      ∀ m ∈ Run.moments log s, Guarded C address m :=
  Run.forall_prefixes_iff_moments (P := fun log s => Configured address s → KeysAttested C log s)
    (fun hc => by cases hc) (fun _ _ _ _ hrun hkeys h => step_attested_iff hrun hkeys h) hrun

end

/-! ## Keys of one DAO -/

theorem exists_run {C : Crypto} {a g r h : Address} (calls : List Call)
    (test : List (System × Call) → System → Bool)
    (hcalls : (Run.replay (next C a) calls [] (init g r h)).any (fun e => test e.1 e.2) = true) :
    ∃ log s, SystemRun C a g r h log s ∧ test log s = true :=
  Run.exists_of_replay (fun _ _ _ => id) hcalls

def voting (call : Voting.Call) : Call := .voting Voting.sampleEnv call

def sampleHash : BytesN 32 := Voting.hash_vk Voting.sampleCrypto (Voting.sampleVk 7)

/-- Three contributors made the key. -/
def sampleTranscript : Call :=
  .transcripts (Env.signedAt 1) (.register_transcript [] (Vector.replicate 32 1) sampleHash 3 (Vector.replicate 32 2))

theorem keys_attested_iff_for_a_ceremony : ∃ log s, SystemRun Voting.sampleCrypto 5 0 0 0 log s ∧
    ((∀ t ∈ Run.prefixes log s, Configured 5 t.2 → KeysAttested Voting.sampleCrypto t.1 t.2) ↔
      ∀ m ∈ Run.moments log s, Guarded Voting.sampleCrypto 5 m) ∧
    Configured 5 s ∧ (s.voting.daos 0).keys.held Voting.sampleCrypto .voting_key = some sampleHash ∧
    sampleHash ∈ pins (s.voting.elections 0 1) ∧ Attested s.transcripts sampleHash := by
  obtain ⟨log, s, hrun, htest⟩ := exists_run (C := Voting.sampleCrypto) (a := 5) (g := 0) (r := 0) (h := 0)
    [voting (.inst (.set_transcript_registry 5)), sampleTranscript, voting (.dao (.set_vk 0 (Voting.sampleVk 7) 0)),
      voting (.create (.create_proposal 0 [] [] 0 1 .Fixed))]
    (fun _ s => decide (s.voting.inst.transcript_registry = some 5 ∧
      (s.voting.daos 0).keys.held Voting.sampleCrypto .voting_key = some sampleHash ∧
      sampleHash ∈ pins (s.voting.elections 0 1) ∧ Transcripts.is_vk_attested s.transcripts sampleHash = true))
    (by decide +kernel)
  obtain ⟨hconfigured, hheld, hpinned, hattested⟩ := of_decide_eq_true htest
  exact ⟨log, s, hrun, keys_attested_iff hrun, hconfigured, hheld, hpinned,
    Transcripts.attested_of_is_vk_attested hattested⟩

/-- The registry's setter takes a key that no ceremony has made, and the registry has no transcript at all. -/
theorem key_without_a_transcript : ∃ log s, SystemRun Voting.sampleCrypto 5 0 0 0 log s ∧ Configured 5 s ∧
    ¬ KeysAttested Voting.sampleCrypto log s := by
  obtain ⟨log, s, hrun, htest⟩ := exists_run (C := Voting.sampleCrypto) (a := 5) (g := 0) (r := 0) (h := 0)
    [voting (.inst (.set_transcript_registry 5)), voting (.dao (.set_vk_from_registry 0 (Voting.sampleVk 7)))]
    (fun _ s => decide (s.voting.inst.transcript_registry = some 5 ∧
      (s.voting.daos 0).keys.held Voting.sampleCrypto .voting_key = some sampleHash ∧
      Transcripts.is_vk_attested s.transcripts sampleHash = false)) (by decide +kernel)
  obtain ⟨hconfigured, hheld, hnone⟩ := of_decide_eq_true htest
  refine ⟨log, s, hrun, hconfigured, fun hkeys => ?_⟩
  obtain ⟨e, he, -, hattested⟩ := hkeys.held 0 .voting_key sampleHash hheld
  have hstill := attested_since hrun e he hattested
  rw [← Transcripts.is_vk_attested_iff hrun.transcriptsOk, hnone] at hstill
  cases hstill

end ZkVote.Attestation
