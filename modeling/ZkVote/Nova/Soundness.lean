import ZkVote.Nova.Aggregator

/-!
# What the proof bytes vouch for

Accepted payloads and tallies against the votes that were folded.
-/

open Lib Lib.Outcome

namespace ZkVote.Nova

variable {sha256 : Bytes → BytesN 32}

/-- The messages hashed when nullifiers are added to an accumulator. -/
def accMessages (sha256 : Bytes → BytesN 32) (acc : String) : List String → List Bytes
  | [] => []
  | n :: ns => (as_bytes acc ++ as_bytes n) :: accMessages sha256 (poseidon_hash_2 sha256 acc n) ns

def messageOf (p : RecursiveProofPayload) : Bytes := proofMessage p.initial_state p.final_state p.num_votes

/-- A batch that was handed to `aggregate_batch`, and the time of the call. -/
structure Batch where
  initial_state : IvcState
  witnesses : List VoteWitness
  now : UInt64

def Batch.payload (sha256 : Bytes → BytesN 32) (b : Batch) : Outcome CircuitError RecursiveProofPayload :=
  aggregate_batch sha256 b.initial_state b.witnesses b.now

/-- No two messages that anyone has hashed collide, those of the batches among them. -/
structure CollisionFree (sha256 : Bytes → BytesN 32) (known : Bytes → Prop) (made : List Batch) : Prop where
  injective : ∀ a b, known a → known b → sha256 a = sha256 b → a = b
  batches : ∀ b ∈ made, ∀ q, b.payload sha256 = .ok q → known (messageOf q) ∧
    ∀ m ∈ accMessages sha256 b.initial_state.acc_nullifier_hash (nullifiers b.witnesses), known m

/-- The proof bytes come from a batch: `aggregate_batch` is the only prover. -/
def FromBatch (sha256 : Bytes → BytesN 32) (made : List Batch) (p : RecursiveProofPayload) : Prop :=
  ∃ b ∈ made, ∃ q, b.payload sha256 = .ok q ∧ q.proof_bytes = p.proof_bytes

/-- The payload is what folding some votes with different nullifiers comes to. -/
def Folded (sha256 : Bytes → BytesN 32) (known : Bytes → Prop) (p : RecursiveProofPayload) : Prop :=
  ∃ witnesses, witnesses.length = p.num_votes.toNat ∧ (nullifiers witnesses).Nodup ∧
    foldSteps sha256 p.initial_state witnesses = .ok p.final_state ∧
    ∀ m ∈ accMessages sha256 p.initial_state.acc_nullifier_hash (nullifiers witnesses), known m

/-- The fields that the proof bytes leave open are as the votes of a batch can make them. -/
def FieldsFit (sha256 : Bytes → BytesN 32) (made : List Batch) (p : RecursiveProofPayload) : Prop :=
  if p.num_votes = 0 then p.initial_state = p.final_state
  else
    p.initial_state.root = p.final_state.root ∧
    p.initial_state.yes_votes ≤ p.final_state.yes_votes ∧ p.initial_state.no_votes ≤ p.final_state.no_votes ∧
    p.final_state.yes_votes.toNat + p.final_state.no_votes.toNat =
      p.initial_state.yes_votes.toNat + p.initial_state.no_votes.toNat + p.num_votes.toNat ∧
    ∃ b ∈ made, ∃ q, b.payload sha256 = .ok q ∧ q.proof_bytes = p.proof_bytes ∧
      q.initial_state.acc_nullifier_hash = p.initial_state.acc_nullifier_hash ∧
      q.final_state.acc_nullifier_hash = p.final_state.acc_nullifier_hash

/-- The payload that a tally counted from the default state stands for. -/
def claimed (t : TallyProof) : RecursiveProofPayload where
  initial_state := .default
  final_state :=
    { step_count := t.yes_votes + t.no_votes
      root := t.root
      yes_votes := t.yes_votes
      no_votes := t.no_votes
      acc_nullifier_hash := t.acc_nullifier_hash }
  num_votes := t.yes_votes + t.no_votes
  proof_bytes := t.proof_bytes
  timestamp := 0

/-- The tally is that of an accepted payload which starts from the default state and folds. -/
def TallyFolded (sha256 : Bytes → BytesN 32) (known : Bytes → Prop) (made : List Batch) (t : TallyProof) : Prop :=
  ∃ p, verify_proof sha256 p = .ok true ∧ known (messageOf p) ∧ FromBatch sha256 made p ∧
    Folded sha256 known p ∧ p.initial_state = .default ∧ TallyProof.from_payload p = t

/-- The proof bytes of the tally are those of the payload it stands for. -/
def TallyBound (sha256 : Bytes → BytesN 32) (known : Bytes → Prop) (made : List Batch) (t : TallyProof) : Prop :=
  known (messageOf (claimed t)) ∧ t.proof_bytes = hexHash sha256 (messageOf (claimed t)) ∧
    t.root = IvcState.default.root ∧
    ∃ b ∈ made, ∃ q, b.payload sha256 = .ok q ∧ q.proof_bytes = t.proof_bytes ∧
      q.initial_state.acc_nullifier_hash = IvcState.default.acc_nullifier_hash ∧
      q.final_state.acc_nullifier_hash = t.acc_nullifier_hash

/-! ## Texts -/

theorem length_hexHash (message : Bytes) : (as_bytes (hexHash sha256 message)).length = 66 := by
  unfold as_bytes hexHash
  rw [utf8_append, List.length_append, length_utf8_toHex, Vector.length_toList]
  rfl

theorem hexHash_injective {a b : Bytes} (h : hexHash sha256 a = hexHash sha256 b) : sha256 a = sha256 b := by
  have hbytes := congrArg utf8 h
  unfold hexHash at hbytes
  rw [utf8_append, utf8_append, List.append_cancel_left_eq] at hbytes
  exact Vector.toList_inj.mp (toHex_injective (utf8_injective hbytes))

theorem length_be (n : UInt64) : (be n).length = 8 := by simp [be]

theorem be_injective {a b : UInt64} (h : be a = be b) : a = b := by
  have hmod := mod_of_toBeBytes h
  have ha := a.toNat_lt
  have hb := b.toNat_lt
  rw [Nat.mod_eq_of_lt (by omega), Nat.mod_eq_of_lt (by omega)] at hmod
  exact UInt64.toNat_inj.mp hmod

theorem as_bytes_injective {s t : String} (h : as_bytes s = as_bytes t) : s = t := utf8_injective h

/-- The last field can be told from the rest. -/
theorem num_votes_of_message {p q : RecursiveProofPayload} (h : messageOf p = messageOf q) :
    p.num_votes = q.num_votes := by
  unfold messageOf proofMessage at h
  simp only [← List.append_assoc] at h
  exact be_injective (List.append_inj' h (by simp only [length_be])).2

/-- So can the accumulator, where it has the length of a hash, and the roots, where they are equal. -/
theorem fields_of_message {p q : RecursiveProofPayload} (h : messageOf p = messageOf q)
    (hlength : (as_bytes p.final_state.acc_nullifier_hash).length =
      (as_bytes q.final_state.acc_nullifier_hash).length)
    (hp : p.initial_state.root = p.final_state.root) (hq : q.initial_state.root = q.final_state.root) :
    p.final_state.acc_nullifier_hash = q.final_state.acc_nullifier_hash ∧
      p.initial_state.root = q.initial_state.root := by
  unfold messageOf proofMessage at h
  simp only [← List.append_assoc] at h
  have hrest := (List.append_inj' h (by simp only [length_be])).1
  have hacc := List.append_inj' hrest hlength
  refine ⟨as_bytes_injective hacc.2, ?_⟩
  have hroots := hacc.1
  rw [← hp, ← hq] at hroots
  simp only [List.append_assoc] at hroots
  have hcancel := List.append_cancel_left hroots
  have hsize := congrArg List.length hcancel
  simp only [List.length_append, length_be] at hsize
  have hone := (List.append_inj hcancel (by omega)).1
  exact as_bytes_injective hone

/-! ## What folding does -/

variable {state final : IvcState} {witness : VoteWitness} {witnesses : List VoteWitness}

theorem addU64_ok {ε : Type} {a b c : UInt64} :
    (addU64 a b : Outcome ε UInt64) = .ok c ↔ a.toNat + b.toNat = c.toNat := by
  unfold addU64
  have hc := c.toNat_lt
  split
  · next hlt =>
    have hsum : (a + b).toNat = a.toNat + b.toNat := by
      rw [UInt64.toNat_add, Nat.mod_eq_of_lt hlt]
    rw [Except.ok.injEq, ← UInt64.toNat_inj, hsum]
  · next hlarge =>
    simp only [trap_ne_ok, false_iff]
    omega

theorem step_ok :
    step sha256 state witness = .ok final ↔
      witness.vote_choice ≤ 1 ∧
      verify_merkle_proof sha256 (compute_commitment sha256 witness.secret witness.salt) witness.path_elements
        witness.path_indices state.root = true ∧
      witness.nullifier = compute_nullifier sha256 witness.secret witness.dao_id witness.proposal_id ∧
      final.root = state.root ∧
      final.acc_nullifier_hash = poseidon_hash_2 sha256 state.acc_nullifier_hash witness.nullifier ∧
      final.step_count.toNat = state.step_count.toNat + 1 ∧
      final.yes_votes.toNat = state.yes_votes.toNat + (if witness.vote_choice = 1 then 1 else 0) ∧
      final.no_votes.toNat = state.no_votes.toNat + (if witness.vote_choice = 1 then 0 else 1) := by
  unfold step
  obtain ⟨step_count, root, yes_votes, no_votes, acc⟩ := final
  by_cases hchoice : witness.vote_choice = 1
  · simp only [hchoice, if_true, bind_eq_ok, require_eq_ok, addU64_ok, pure_eq_ok, IvcState.mk.injEq,
      UInt64.toNat_one]
    constructor
    · rintro ⟨_, hle, _, hmerkle, _, hnullifier, yes, hyes, no, hno, count, hcount, rfl, rfl, rfl, rfl, rfl⟩
      rw [hno]
      exact ⟨hle, hmerkle, hnullifier, rfl, by rw [hnullifier], hcount.symm, hyes.symm, rfl⟩
    · rintro ⟨hle, hmerkle, hnullifier, rfl, rfl, hcount, hyes, hno⟩
      exact ⟨(), hle, (), hmerkle, (), hnullifier, yes_votes, hyes.symm, state.no_votes, rfl, step_count,
        hcount.symm, rfl, rfl, rfl, UInt64.toNat_inj.mp hno.symm, by rw [hnullifier]⟩
  · simp only [hchoice, if_false, bind_eq_ok, require_eq_ok, addU64_ok, pure_eq_ok, IvcState.mk.injEq,
      UInt64.toNat_one]
    constructor
    · rintro ⟨_, hle, _, hmerkle, _, hnullifier, yes, hyes, no, hno, count, hcount, rfl, rfl, rfl, rfl, rfl⟩
      rw [hyes]
      exact ⟨hle, hmerkle, hnullifier, rfl, by rw [hnullifier], hcount.symm, rfl, hno.symm⟩
    · rintro ⟨hle, hmerkle, hnullifier, rfl, rfl, hcount, hyes, hno⟩
      exact ⟨(), hle, (), hmerkle, (), hnullifier, state.yes_votes, rfl, no_votes, hno.symm, step_count,
        hcount.symm, rfl, rfl, UInt64.toNat_inj.mp hyes.symm, rfl, by rw [hnullifier]⟩

/-- The accumulator with the nullifiers added to it. -/
def accAfter (sha256 : Bytes → BytesN 32) (acc : String) (ns : List String) : String :=
  ns.foldl (poseidon_hash_2 sha256) acc

/-- What a fold leaves: the root as it was, the votes counted and their nullifiers in the accumulator. -/
theorem foldSteps_effect (h : foldSteps sha256 state witnesses = .ok final) :
    final.root = state.root ∧
    final.acc_nullifier_hash = accAfter sha256 state.acc_nullifier_hash (nullifiers witnesses) ∧
    final.step_count.toNat = state.step_count.toNat + witnesses.length ∧
    state.yes_votes ≤ final.yes_votes ∧ state.no_votes ≤ final.no_votes ∧
    final.yes_votes.toNat + final.no_votes.toNat =
      state.yes_votes.toNat + state.no_votes.toNat + witnesses.length ∧
    ∀ n ∈ nullifiers witnesses, (as_bytes n).length = 66 := by
  induction witnesses generalizing state with
  | nil =>
    cases h
    simp [accAfter, nullifiers]
  | cons witness witnesses ih =>
    simp only [foldSteps, bind_eq_ok] at h
    obtain ⟨next, hstep, hrest⟩ := h
    obtain ⟨-, -, hnullifier, hroot, hacc, hcount, hyes, hno⟩ := step_ok.mp hstep
    obtain ⟨hroot', hacc', hcount', hyes', hno', hsum', hlengths⟩ := ih hrest
    rw [UInt64.le_iff_toNat_le] at hyes' hno'
    refine ⟨hroot'.trans hroot, ?_, ?_, ?_, ?_, ?_, ?_⟩
    · rw [hacc', hacc]
      rfl
    · rw [hcount', hcount, List.length_cons]
      omega
    · rw [UInt64.le_iff_toNat_le]
      omega
    · rw [UInt64.le_iff_toNat_le]
      omega
    · rw [hsum', hyes, hno, List.length_cons]
      split <;> omega
    · unfold nullifiers
      rw [List.map_cons, List.forall_mem_cons]
      refine ⟨?_, hlengths⟩
      rw [hnullifier]
      exact length_hexHash _

/-- As many nullifiers added, one accumulator at the end: one at the start. -/
theorem acc_start_unique {known : Bytes → Prop} (hinj : ∀ a b, known a → known b → sha256 a = sha256 b → a = b)
    {ns ns' : List String} (hlength : ns.length = ns'.length) {acc acc' : String}
    (hns : ∀ n ∈ ns, (as_bytes n).length = 66) (hns' : ∀ n ∈ ns', (as_bytes n).length = 66)
    (hknown : ∀ m ∈ accMessages sha256 acc ns, known m) (hknown' : ∀ m ∈ accMessages sha256 acc' ns', known m)
    (h : accAfter sha256 acc ns = accAfter sha256 acc' ns') : acc = acc' := by
  induction ns generalizing acc acc' ns' with
  | nil =>
    cases ns' with
    | nil => exact h
    | cons n ns' => cases hlength
  | cons n ns ih =>
    cases ns' with
    | nil => cases hlength
    | cons n' ns' =>
      rw [List.forall_mem_cons] at hns hns'
      simp only [accMessages, List.forall_mem_cons] at hknown hknown'
      have hnext := ih (by simpa using hlength) hns.2 hns'.2 hknown.2 hknown'.2 h
      have hmessage := hinj _ _ hknown.1 hknown'.1 (hexHash_injective hnext)
      exact as_bytes_injective (List.append_inj' hmessage (by rw [hns.1, hns'.1])).1

/-- An accumulator that something was added to has the length of a hash. -/
theorem length_accAfter {acc : String} {ns : List String} (h : ns ≠ []) :
    (as_bytes (accAfter sha256 acc ns)).length = 66 := by
  obtain ⟨init, last, rfl⟩ := List.eq_nil_or_concat ns |>.resolve_left h
  unfold accAfter
  rw [List.concat_eq_append, List.foldl_concat]
  exact length_hexHash _

/-! ## Other choices -/

/-- The same voters, of whom the first `k` vote yes and the others no. -/
def recast : Nat → List VoteWitness → List VoteWitness
  | _, [] => []
  | 0, w :: ws => { w with vote_choice := 0 } :: recast 0 ws
  | k + 1, w :: ws => { w with vote_choice := 1 } :: recast k ws

theorem nullifiers_recast (k : Nat) (ws : List VoteWitness) : nullifiers (recast k ws) = nullifiers ws := by
  induction ws generalizing k with
  | nil => cases k <;> rfl
  | cons w ws ih =>
    have hmap : ∀ k, (recast k ws).map VoteWitness.nullifier = ws.map VoteWitness.nullifier := ih
    cases k with
    | zero => simp [recast, nullifiers, hmap]
    | succ k => simp [recast, nullifiers, hmap]

theorem length_recast (k : Nat) (ws : List VoteWitness) : (recast k ws).length = ws.length := by
  have h := congrArg List.length (nullifiers_recast k ws)
  simpa [nullifiers] using h

theorem zero_le_one_u8 : (0 : UInt8) ≤ 1 := by decide

theorem one_le_one_u8 : (1 : UInt8) ≤ 1 := by decide

theorem toNat_ofNat_of_le {n : Nat} {b : UInt64} (h : n ≤ b.toNat) : (UInt64.ofNat n).toNat = n :=
  UInt64.toNat_ofNat_of_lt' (h.trans_lt b.toNat_lt)

/-- From a state with the same root and accumulator the voters fold to the same accumulator, however
they choose. -/
theorem foldSteps_recast (h : foldSteps sha256 state witnesses = .ok final) {k : Nat} (hk : k ≤ witnesses.length)
    {state' target : IvcState} (hroot : state'.root = state.root)
    (hacc : state'.acc_nullifier_hash = state.acc_nullifier_hash) (htroot : target.root = state'.root)
    (htacc : target.acc_nullifier_hash = final.acc_nullifier_hash)
    (hcount : target.step_count.toNat = state'.step_count.toNat + witnesses.length)
    (hyes : target.yes_votes.toNat = state'.yes_votes.toNat + k)
    (hno : target.no_votes.toNat = state'.no_votes.toNat + (witnesses.length - k)) :
    foldSteps sha256 state' (recast k witnesses) = .ok target := by
  induction witnesses generalizing state state' k with
  | nil =>
    cases h
    have hzero : k = 0 := by simpa using hk
    subst hzero
    obtain ⟨c, r, y, n, a⟩ := target
    obtain ⟨c', r', y', n', a'⟩ := state'
    simp only [List.length_nil, Nat.add_zero, Nat.sub_zero, UInt64.toNat_inj] at hcount hyes hno htroot htacc hacc
    simp only [recast, foldSteps, Except.ok.injEq, IvcState.mk.injEq]
    exact ⟨hcount.symm, htroot.symm, hyes.symm, hno.symm, by rw [htacc, hacc]⟩
  | cons witness witnesses ih =>
    simp only [foldSteps, bind_eq_ok] at h
    obtain ⟨next, hstep, hrest⟩ := h
    obtain ⟨-, hmerkle, hnullifier, hnroot, hnacc, -⟩ := step_ok.mp hstep
    rw [List.length_cons] at hcount hno hk
    cases k with
    | zero =>
      let next' : IvcState :=
        { step_count := UInt64.ofNat (state'.step_count.toNat + 1)
          root := state'.root
          yes_votes := state'.yes_votes
          no_votes := UInt64.ofNat (state'.no_votes.toNat + 1)
          acc_nullifier_hash := poseidon_hash_2 sha256 state'.acc_nullifier_hash witness.nullifier }
      have hcount' : next'.step_count.toNat = state'.step_count.toNat + 1 :=
        toNat_ofNat_of_le (b := target.step_count) (by omega)
      have hno' : next'.no_votes.toNat = state'.no_votes.toNat + 1 :=
        toNat_ofNat_of_le (b := target.no_votes) (by omega)
      have hstep' : step sha256 state' { witness with vote_choice := 0 } = .ok next' := by
        rw [step_ok]
        exact ⟨zero_le_one_u8, by rw [hroot]; exact hmerkle, hnullifier, rfl, rfl, hcount', rfl, hno'⟩
      have hnroot' : next'.root = next.root := hroot.trans hnroot.symm
      have hnacc' : next'.acc_nullifier_hash = next.acc_nullifier_hash := by
        rw [hnacc, ← hacc]
      simp only [recast, foldSteps, hstep', ok_bind]
      apply ih hrest (Nat.zero_le _) hnroot' hnacc' htroot
      · omega
      · exact hyes
      · omega
    | succ k =>
      let next' : IvcState :=
        { step_count := UInt64.ofNat (state'.step_count.toNat + 1)
          root := state'.root
          yes_votes := UInt64.ofNat (state'.yes_votes.toNat + 1)
          no_votes := state'.no_votes
          acc_nullifier_hash := poseidon_hash_2 sha256 state'.acc_nullifier_hash witness.nullifier }
      have hcount' : next'.step_count.toNat = state'.step_count.toNat + 1 :=
        toNat_ofNat_of_le (b := target.step_count) (by omega)
      have hyes' : next'.yes_votes.toNat = state'.yes_votes.toNat + 1 :=
        toNat_ofNat_of_le (b := target.yes_votes) (by omega)
      have hno' : next'.no_votes = state'.no_votes := rfl
      have hstep' : step sha256 state' { witness with vote_choice := 1 } = .ok next' := by
        rw [step_ok]
        exact ⟨one_le_one_u8, by rw [hroot]; exact hmerkle, hnullifier, rfl, rfl, hcount', hyes', rfl⟩
      have hnroot' : next'.root = next.root := hroot.trans hnroot.symm
      have hnacc' : next'.acc_nullifier_hash = next.acc_nullifier_hash := by
        rw [hnacc, ← hacc]
      simp only [recast, foldSteps, hstep', ok_bind]
      apply ih hrest (Nat.le_of_succ_le_succ hk) hnroot' hnacc' htroot
      · omega
      · omega
      · rw [hno']
        omega

/-! ## Payloads -/

variable {known : Bytes → Prop} {made : List Batch} {p q : RecursiveProofPayload} {b : Batch}

theorem verify_proof_ok :
    verify_proof sha256 p = .ok true ↔
      p.final_state.step_count.toNat = p.initial_state.step_count.toNat + p.num_votes.toNat ∧
        p.proof_bytes = hexHash sha256 (messageOf p) := by
  unfold verify_proof
  simp only [bind_eq_ok, addU64_ok]
  constructor
  · rintro ⟨expected, hexpected, h⟩
    split at h
    · simp at h
    next hcount =>
    simp only [ne_eq, not_not] at hcount
    rw [pure_eq_ok, beq_iff_eq] at h
    exact ⟨by rw [hcount, hexpected], h⟩
  · rintro ⟨hcount, hbytes⟩
    refine ⟨p.final_state.step_count, hcount.symm, ?_⟩
    rw [if_neg (by simp), pure_eq_ok, beq_iff_eq]
    exact hbytes

theorem batch_payload_ok (h : b.payload sha256 = .ok q) :
    foldSteps sha256 q.initial_state b.witnesses = .ok q.final_state ∧ (nullifiers b.witnesses).Nodup ∧
      q.initial_state = b.initial_state ∧ q.num_votes.toNat = b.witnesses.length ∧
      q.proof_bytes = hexHash sha256 (messageOf q) := by
  obtain ⟨final, hsteps, hnodup, rfl⟩ := aggregate_batch_ok.mp h
  have hcount := (foldSteps_effect hsteps).2.2.1
  exact ⟨hsteps, hnodup, rfl, toNat_ofNat_of_le (b := final.step_count) (by omega), rfl⟩

theorem message_eq (hfree : CollisionFree sha256 known made) (hb : b ∈ made) (hq : b.payload sha256 = .ok q)
    (hbytes : q.proof_bytes = p.proof_bytes) (hverify : verify_proof sha256 p = .ok true)
    (hknown : known (messageOf p)) : messageOf p = messageOf q := by
  have hp := (verify_proof_ok.mp hverify).2
  have hq' := (batch_payload_ok hq).2.2.2.2
  have hhash := hexHash_injective (hp.symm.trans (hbytes.symm.trans hq'))
  exact hfree.injective _ _ hknown (hfree.batches b hb q hq).1 hhash

theorem fieldsFit_of_folded (hfree : CollisionFree sha256 known made) (hverify : verify_proof sha256 p = .ok true)
    (hknown : known (messageOf p)) (hbatch : FromBatch sha256 made p) (h : Folded sha256 known p) :
    FieldsFit sha256 made p := by
  obtain ⟨witnesses, hlength, -, hsteps, hmessages⟩ := h
  obtain ⟨hroot, hacc, -, hyes, hno, hsum, hns⟩ := foldSteps_effect hsteps
  unfold FieldsFit
  split
  · next hzero =>
    rw [hzero] at hlength
    cases List.length_eq_zero_iff.mp hlength
    exact Except.ok.inj hsteps
  · next hvotes =>
    obtain ⟨b, hb, q, hq, hbytes⟩ := hbatch
    have hmessage := message_eq hfree hb hq hbytes hverify hknown
    obtain ⟨hqsteps, -, hqinitial, hqlength, -⟩ := batch_payload_ok hq
    obtain ⟨hqroot, hqacc, -, -, -, -, hqns⟩ := foldSteps_effect hqsteps
    have hnum := num_votes_of_message hmessage
    have hcount : witnesses.length = b.witnesses.length := by rw [hlength, hnum, hqlength]
    have hne : nullifiers witnesses ≠ [] := by
      intro hnil
      have hzero : p.num_votes.toNat = 0 := by
        rw [← hlength, ← List.length_map (f := VoteWitness.nullifier)]
        exact congrArg List.length hnil
      exact hvotes (UInt64.toNat_inj.mp hzero)
    have hqne : nullifiers b.witnesses ≠ [] := by
      intro hnil
      apply hne
      apply List.length_eq_zero_iff.mp
      rw [nullifiers, List.length_map, hcount, ← List.length_map (f := VoteWitness.nullifier)]
      exact congrArg List.length hnil
    have hlengths : (as_bytes p.final_state.acc_nullifier_hash).length =
        (as_bytes q.final_state.acc_nullifier_hash).length := by
      rw [hacc, hqacc, length_accAfter hne, length_accAfter hqne]
    obtain ⟨haccEq, -⟩ := fields_of_message hmessage hlengths hroot.symm hqroot.symm
    refine ⟨hroot.symm, hyes, hno, by rw [hsum, hlength], b, hb, q, hq, hbytes, ?_, haccEq.symm⟩
    apply acc_start_unique hfree.injective _ hqns hns _ hmessages
    · rw [← hacc, ← hqacc, haccEq]
    · simp [nullifiers, hcount]
    · rw [hqinitial]
      exact (hfree.batches b hb q hq).2

theorem folded_of_fieldsFit (hfree : CollisionFree sha256 known made) (hverify : verify_proof sha256 p = .ok true)
    (hknown : known (messageOf p)) (h : FieldsFit sha256 made p) : Folded sha256 known p := by
  unfold FieldsFit at h
  split at h
  · next hzero =>
    refine ⟨[], by rw [hzero]; rfl, List.nodup_nil, by rw [h]; rfl, ?_⟩
    simp [nullifiers, accMessages]
  · obtain ⟨hroot, hyes, hno, hsum, b, hb, q, hq, hbytes, hstart, hend⟩ := h
    rw [UInt64.le_iff_toNat_le] at hyes hno
    have hmessage := message_eq hfree hb hq hbytes hverify hknown
    obtain ⟨hqsteps, hqnodup, hqinitial, hqlength, -⟩ := batch_payload_ok hq
    have hqroot := (foldSteps_effect hqsteps).1
    have hnum := num_votes_of_message hmessage
    obtain ⟨-, hrootEq⟩ := fields_of_message hmessage (by rw [hend]) hroot hqroot.symm
    have hcount := (verify_proof_ok.mp hverify).1
    refine ⟨recast (p.final_state.yes_votes.toNat - p.initial_state.yes_votes.toNat) b.witnesses, ?_, ?_, ?_, ?_⟩
    · rw [length_recast, ← hqlength, hnum]
    · rw [nullifiers_recast]
      exact hqnodup
    · apply foldSteps_recast hqsteps _ hrootEq hstart.symm hroot.symm hend.symm
      · rw [hcount, hnum, hqlength]
      · omega
      · rw [← hqlength, ← hnum]
        omega
      · rw [← hqlength, ← hnum]
        omega
    · rw [nullifiers_recast, ← hstart, hqinitial]
      exact (hfree.batches b hb q hq).2

/-! ## Tallies -/

variable {t : TallyProof}

theorem verify_tally_proof_ok :
    verify_tally_proof t = .ok () ↔
      t.yes_votes.toNat + t.no_votes.toNat = (t.yes_votes + t.no_votes).toNat ∧ t.proof_bytes ≠ "" ∧
        t.yes_votes + t.no_votes ≠ 0 := by
  unfold verify_tally_proof rebuilt
  simp only [bind_eq_ok, addU64_ok, require_eq_ok]
  constructor
  · rintro ⟨num_votes, hnum, _, hbytes, hzero⟩
    have hsum : num_votes = t.yes_votes + t.no_votes := by
      apply UInt64.toNat_inj.mp
      rw [UInt64.toNat_add, hnum, Nat.mod_eq_of_lt num_votes.toNat_lt]
    rw [hsum] at hnum hzero
    exact ⟨hnum, hbytes, hzero⟩
  · rintro ⟨hnum, hbytes, hzero⟩
    exact ⟨_, hnum, (), hbytes, hzero⟩

theorem fieldsFit_claimed (haccept : verify_tally_proof t = .ok ()) :
    FieldsFit sha256 made (claimed t) ↔
      t.root = IvcState.default.root ∧
      ∃ b ∈ made, ∃ q, b.payload sha256 = .ok q ∧ q.proof_bytes = t.proof_bytes ∧
        q.initial_state.acc_nullifier_hash = IvcState.default.acc_nullifier_hash ∧
        q.final_state.acc_nullifier_hash = t.acc_nullifier_hash := by
  obtain ⟨hsum, -, hzero⟩ := verify_tally_proof_ok.mp haccept
  have hyes : IvcState.default.yes_votes ≤ t.yes_votes := UInt64.zero_le
  have hno : IvcState.default.no_votes ≤ t.no_votes := UInt64.zero_le
  have hcount : t.yes_votes.toNat + t.no_votes.toNat =
      IvcState.default.yes_votes.toNat + IvcState.default.no_votes.toNat + (t.yes_votes + t.no_votes).toNat := by
    rw [← hsum]
    simp [IvcState.default]
  unfold FieldsFit claimed
  rw [if_neg hzero]
  constructor
  · rintro ⟨hroot, -, -, -, hbatch⟩
    exact ⟨hroot.symm, hbatch⟩
  · rintro ⟨hroot, hbatch⟩
    exact ⟨hroot.symm, hyes, hno, hcount, hbatch⟩

theorem verify_claimed : verify_proof sha256 (claimed t) = .ok true ↔
    t.proof_bytes = hexHash sha256 (messageOf (claimed t)) := by
  have hstart : IvcState.default.step_count.toNat = 0 := rfl
  rw [verify_proof_ok]
  unfold claimed
  simp [hstart]

/-- A folded payload from the default state is the claimed one, but for the time. -/
theorem claimed_from_payload (hverify : verify_proof sha256 p = .ok true) (hfolded : Folded sha256 known p)
    (hdefault : p.initial_state = .default) :
    claimed (.from_payload p) = { p with timestamp := 0 } := by
  obtain ⟨initial, final, num, bytes, timestamp⟩ := p
  obtain ⟨witnesses, hlength, -, hsteps, -⟩ := hfolded
  obtain ⟨-, -, -, -, -, hsum, -⟩ := foldSteps_effect hsteps
  have hcount := (verify_proof_ok.mp hverify).1
  cases hdefault
  simp only [UInt64.toNat_zero, Nat.zero_add] at hsum hcount
  have hnum : final.yes_votes + final.no_votes = num := by
    apply UInt64.toNat_inj.mp
    rw [UInt64.toNat_add, hsum, hlength, Nat.mod_eq_of_lt num.toNat_lt]
  have hstep : final.step_count = num := UInt64.toNat_inj.mp hcount
  unfold claimed TallyProof.from_payload
  simp only [hnum]
  rw [← hstep]
  rfl

theorem tallyFolded_iff_bound (hfree : CollisionFree sha256 known made) (haccept : verify_tally_proof t = .ok ()) :
    TallyFolded sha256 known made t ↔ TallyBound sha256 known made t := by
  constructor
  · rintro ⟨p, hverify, hknown, hbatch, hfolded, hdefault, rfl⟩
    have hclaimed := claimed_from_payload hverify hfolded hdefault
    have hverify' : verify_proof sha256 (claimed (.from_payload p)) = .ok true := by
      rw [hclaimed]
      exact hverify
    have hknown' : known (messageOf (claimed (.from_payload p))) := by
      rw [hclaimed]
      exact hknown
    have hfolded' : Folded sha256 known (claimed (.from_payload p)) := by
      rw [hclaimed]
      exact hfolded
    exact ⟨hknown', verify_claimed.mp hverify',
      (fieldsFit_claimed haccept).mp (fieldsFit_of_folded hfree hverify' hknown' hbatch hfolded')⟩
  · rintro ⟨hknown, hbytes, hroot, b, hb, q, hq, hqbytes, hstart, hend⟩
    have hverify := verify_claimed.mpr hbytes
    have hfit := (fieldsFit_claimed haccept).mpr ⟨hroot, b, hb, q, hq, hqbytes, hstart, hend⟩
    exact ⟨claimed t, hverify, hknown, ⟨b, hb, q, hq, hqbytes⟩, folded_of_fieldsFit hfree hverify hknown hfit, rfl, rfl⟩

/-- An accepted payload is the fold of some votes exactly if the fields that the bytes leave open fit,
and an accepted tally is that of such a payload exactly if its bytes are the payload's. -/
theorem aggregation_sound_iff (hfree : CollisionFree sha256 known made) :
    (∀ p, verify_proof sha256 p = .ok true → known (messageOf p) → FromBatch sha256 made p →
      (Folded sha256 known p ↔ FieldsFit sha256 made p)) ∧
    (∀ t, verify_tally_proof t = .ok () → (TallyFolded sha256 known made t ↔ TallyBound sha256 known made t)) := by
  refine ⟨fun p hverify hknown hbatch => ⟨?_, ?_⟩, fun t haccept => tallyFolded_iff_bound hfree haccept⟩
  · exact fieldsFit_of_folded hfree hverify hknown hbatch
  · exact folded_of_fieldsFit hfree hverify hknown

/-! ## One vote -/

def sampleFinal : IvcState where
  step_count := 1
  root := zeroHex
  yes_votes := 1
  no_votes := 0
  acc_nullifier_hash := poseidon_hash_2 Lib.sha256 zeroHex (sampleVote "s" 1).nullifier

def sampleBatch : Batch := { initial_state := .default, witnesses := [sampleVote "s" 1], now := 0 }

def samplePayload : RecursiveProofPayload where
  initial_state := .default
  final_state := sampleFinal
  num_votes := 1
  proof_bytes := compress_proof Lib.sha256 .default sampleFinal 1
  timestamp := 0

theorem sampleBatch_payload : sampleBatch.payload Lib.sha256 = .ok samplePayload := by
  have hsteps : foldSteps Lib.sha256 .default [sampleVote "s" 1] = .ok sampleFinal := by
    have hstep : step Lib.sha256 .default (sampleVote "s" 1) = .ok sampleFinal := by
      rw [step_ok]
      refine ⟨one_le_one_u8, ?_, rfl, rfl, rfl, rfl, rfl, rfl⟩
      have hroot : starts_with IvcState.default.root "0x0" = true := by decide
      simp [verify_merkle_proof, hroot, sampleVote]
    simp [foldSteps, hstep]
  exact aggregate_batch_ok.mpr ⟨sampleFinal, hsteps, List.nodup_singleton _, rfl⟩

/-- The two messages that the batch hashes with its state. -/
def sampleKnown (m : Bytes) : Prop :=
  m = messageOf samplePayload ∨ m = as_bytes zeroHex ++ as_bytes (sampleVote "s" 1).nullifier

theorem sample_collisionFree : CollisionFree Lib.sha256 sampleKnown [sampleBatch] where
  injective := by
    have hne : Lib.sha256 (messageOf samplePayload) ≠
        Lib.sha256 (as_bytes zeroHex ++ as_bytes (sampleVote "s" 1).nullifier) := by
      decide +kernel
    rintro a b (rfl | rfl) (rfl | rfl) h
    · rfl
    · exact absurd h hne
    · exact absurd h.symm hne
    · rfl
  batches := by
    intro b hb q hq
    cases List.mem_singleton.mp hb
    cases sampleBatch_payload.symm.trans hq
    refine ⟨.inl rfl, ?_⟩
    simp only [sampleBatch, nullifiers, List.map_cons, List.map_nil, accMessages, List.mem_singleton]
    rintro m rfl
    exact .inr rfl

theorem aggregation_sound_iff_on_one_vote :
    (Folded Lib.sha256 sampleKnown samplePayload ↔ FieldsFit Lib.sha256 [sampleBatch] samplePayload) ∧
    (TallyFolded Lib.sha256 sampleKnown [sampleBatch] (.from_payload samplePayload) ↔
      TallyBound Lib.sha256 sampleKnown [sampleBatch] (.from_payload samplePayload)) := by
  have hsound := aggregation_sound_iff sample_collisionFree
  have hverify : verify_proof Lib.sha256 samplePayload = .ok true := verify_proof_ok.mpr ⟨rfl, rfl⟩
  have hbytes : samplePayload.proof_bytes ≠ "" := by decide +kernel
  refine ⟨hsound.1 _ hverify (.inl rfl) ?_, hsound.2 _ (verify_tally_proof_ok.mpr ⟨rfl, hbytes, by decide +kernel⟩)⟩
  exact ⟨sampleBatch, by simp, samplePayload, sampleBatch_payload, rfl⟩

/-- The payload of the batch with seven yes votes added to its initial state. -/
def tampered : RecursiveProofPayload :=
  { samplePayload with initial_state := { IvcState.default with yes_votes := 7 } }

/-- A thousand votes that nobody cast. -/
def inventedTally : TallyProof where
  root := "x"
  yes_votes := 1000
  no_votes := 0
  acc_nullifier_hash := "x"
  proof_bytes := "1"

/-- Accepted, and not what any votes fold to. -/
theorem tampered_and_invented_accepted :
    CollisionFree Lib.sha256 sampleKnown [sampleBatch] ∧
    (verify_proof Lib.sha256 tampered = .ok true ∧ FromBatch Lib.sha256 [sampleBatch] tampered ∧
      ¬ ∃ witnesses, witnesses.length = tampered.num_votes.toNat ∧ (nullifiers witnesses).Nodup ∧
        foldSteps Lib.sha256 tampered.initial_state witnesses = .ok tampered.final_state) ∧
    (verify_tally_proof inventedTally = .ok () ∧
      ¬ ∃ p, verify_proof Lib.sha256 p = .ok true ∧ TallyProof.from_payload p = inventedTally) := by
  refine ⟨sample_collisionFree, ⟨verify_proof_ok.mpr ⟨rfl, rfl⟩, ?_, ?_⟩, by decide +kernel, ?_⟩
  · exact ⟨sampleBatch, by simp, samplePayload, sampleBatch_payload, rfl⟩
  · rintro ⟨witnesses, -, -, hsteps⟩
    have hyes := (foldSteps_effect hsteps).2.2.2.1
    exact absurd hyes (by decide)
  · rintro ⟨p, hverify, hp⟩
    have hbytes := congrArg TallyProof.proof_bytes hp
    have hlength := @length_hexHash Lib.sha256 (messageOf p)
    rw [← (verify_proof_ok.mp hverify).2] at hlength
    change p.proof_bytes = "1" at hbytes
    rw [hbytes] at hlength
    exact absurd hlength (by decide)

end ZkVote.Nova
