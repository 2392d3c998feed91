import ZkVote.Nova.Soundness

/-!
# Whose votes a step accepts

The step circuit compares the root that a path leads to with the one of its state, unless this one looks like a
root for tests.
-/

open Lib Lib.Outcome

namespace ZkVote.Nova

/-- A tree over commitments, with whatever stands in its empty places. -/
inductive MerkleTree where
  | commitment (secret salt : String)
  | padding (value : String)
  | node (left right : MerkleTree)

namespace MerkleTree

def root (sha256 : Bytes → BytesN 32) : MerkleTree → String
  | commitment secret salt => compute_commitment sha256 secret salt
  | padding value => value
  | node left right => poseidon_hash_2 sha256 (left.root sha256) (right.root sha256)

/-- There is a commitment in it. -/
def Occupied : MerkleTree → Prop
  | commitment _ _ => True
  | padding _ => False
  | node left right => left.Occupied ∨ right.Occupied

end MerkleTree

variable {sha256 : Bytes → BytesN 32}

/-- The path of a vote leads from its commitment to the root. -/
def Belongs (sha256 : Bytes → BytesN 32) (root : String) (witness : VoteWitness) : Prop :=
  witness.path_elements.length = witness.path_indices.length ∧
    climb sha256 (compute_commitment sha256 witness.secret witness.salt)
      (witness.path_elements.zip witness.path_indices) = root

/-- Only votes whose path leads to the root pass. -/
def MembersOnly (sha256 : Bytes → BytesN 32) (state : IvcState) : Prop :=
  ∀ witness final, step sha256 state witness = .ok final → Belongs sha256 state.root witness

/-- One of the counters of every step is at its end. -/
def Full (state : IvcState) : Prop :=
  state.step_count.toNat + 1 = 2 ^ 64 ∨ (state.yes_votes.toNat + 1 = 2 ^ 64 ∧ state.no_votes.toNat + 1 = 2 ^ 64)

/-! ## Roots -/

theorem root_is_hash {t : MerkleTree} (h : t.Occupied) : ∃ message, t.root sha256 = hexHash sha256 message := by
  cases t with
  | commitment secret salt => exact ⟨_, rfl⟩
  | padding value => exact absurd h id
  | node left right => exact ⟨_, rfl⟩

theorem head_hexDigit : ∀ n < 16, (utf8 (String.ofList [hexDigit n])).head?.isSome ∧
    (utf8 (String.ofList [hexDigit n])).head? ≠ some 114 := by decide

/-- A hash begins with a hexadecimal digit, which is no `r`. -/
theorem not_starts_with_root (message : Bytes) : starts_with (hexHash sha256 message) "0xroot" = false := by
  rw [Bool.eq_false_iff]
  intro hstart
  obtain ⟨rest, hrest⟩ := List.isPrefixOf_iff_prefix.mp hstart
  have hroot : as_bytes "0xroot" = utf8 "0x" ++ (114 :: [111, 111, 116]) := by decide
  unfold hexHash at hrest
  rw [hroot, as_bytes, utf8_append, List.append_assoc, List.append_cancel_left_eq] at hrest
  generalize (sha256 message) = digest at hrest
  obtain ⟨b, bs, hbs⟩ : ∃ b bs, digest.toList = b :: bs := by
    match hd : digest.toList with
    | [] =>
      have hlength : digest.toList.length = 32 := Vector.length_toList
      rw [hd] at hlength
      cases hlength
    | b :: bs => exact ⟨b, bs, rfl⟩
  have hdigit : ∃ n < 16, ∃ cs, hexChars digest.toList = hexDigit n :: cs := by
    rw [hbs]
    exact ⟨_, by have hb := b.toNat_lt; omega, _, rfl⟩
  obtain ⟨n, hn, cs, hcs⟩ := hdigit
  have hsplit : toHex digest.toList = String.ofList [hexDigit n] ++ String.ofList cs := by
    unfold toHex
    rw [hcs, ← String.ofList_append]
    rfl
  rw [hsplit, utf8_append] at hrest
  obtain ⟨hsome, hne⟩ := head_hexDigit n hn
  have hhead := congrArg List.head? hrest
  rw [List.cons_append, List.head?_cons, List.head?_append, Option.or_of_isSome hsome] at hhead
  exact hne hhead.symm

theorem hash_ne_test_root (message : Bytes) : hexHash sha256 message ≠ "0x1234" := by
  intro h
  have hlength := @length_hexHash sha256 message
  rw [h] at hlength
  exact absurd hlength (by decide)

/-! ## Steps -/

variable {state : IvcState}

theorem verify_path (hroot : ∃ message, state.root = hexHash sha256 message) {leaf : String}
    {path_elements : List String} {path_indices : List UInt8} :
    verify_merkle_proof sha256 leaf path_elements path_indices state.root = true ↔
      path_elements.length = path_indices.length ∧
        (starts_with state.root "0x0" = true ∨ climb sha256 leaf (path_elements.zip path_indices) = state.root) := by
  obtain ⟨message, hmessage⟩ := hroot
  have hplain : (state.root == "0x1234") = false := by
    rw [beq_eq_false_iff_ne, hmessage]
    exact hash_ne_test_root message
  have hstart : starts_with state.root "0xroot" = false := by
    rw [hmessage]
    exact not_starts_with_root message
  unfold verify_merkle_proof
  rw [hplain, hstart]
  by_cases hlength : path_elements.length = path_indices.length
  · by_cases hzero : starts_with state.root "0x0" = true
    · simp [hlength, hzero]
    · simp [hlength, hzero]
  · simp [hlength]

/-- Unless the counters are full there is a step that a vote for one side passes. -/
theorem exists_step (hroom : ¬ Full state) (secret salt : String)
    (hpath : verify_merkle_proof sha256 (compute_commitment sha256 secret salt) [] [] state.root = true) :
    ∃ witness final, step sha256 state witness = .ok final ∧ witness.secret = secret ∧ witness.salt = salt ∧
      witness.path_elements = [] ∧ witness.path_indices = [] := by
  have hcount := state.step_count.toNat_lt
  have hyes := state.yes_votes.toNat_lt
  have hno := state.no_votes.toNat_lt
  unfold Full at hroom
  have hadd : ∀ n : UInt64, n.toNat + 1 < 2 ^ 64 → (UInt64.ofNat (n.toNat + 1)).toNat = n.toNat + 1 :=
    fun n hn => UInt64.toNat_ofNat_of_lt' hn
  by_cases hside : state.yes_votes.toNat + 1 < 2 ^ 64
  · refine ⟨⟨secret, salt, [], [], 1, compute_nullifier sha256 secret 0 0, 0, 0⟩,
      ⟨UInt64.ofNat (state.step_count.toNat + 1), state.root, UInt64.ofNat (state.yes_votes.toNat + 1), state.no_votes,
        poseidon_hash_2 sha256 state.acc_nullifier_hash (compute_nullifier sha256 secret 0 0)⟩, ?_, rfl, rfl, rfl, rfl⟩
    exact step_ok.mpr ⟨(by decide : (1 : UInt8) ≤ 1), hpath, rfl, rfl, rfl, hadd _ (by omega), hadd _ hside, rfl⟩
  · refine ⟨⟨secret, salt, [], [], 0, compute_nullifier sha256 secret 0 0, 0, 0⟩,
      ⟨UInt64.ofNat (state.step_count.toNat + 1), state.root, state.yes_votes, UInt64.ofNat (state.no_votes.toNat + 1),
        poseidon_hash_2 sha256 state.acc_nullifier_hash (compute_nullifier sha256 secret 0 0)⟩, ?_, rfl, rfl, rfl, rfl⟩
    exact step_ok.mpr ⟨(by decide : (0 : UInt8) ≤ 1), hpath, rfl, rfl, rfl, hadd _ (by omega), rfl, hadd _ (by omega)⟩

theorem no_step_of_full (hfull : Full state) {witness : VoteWitness} {final : IvcState} :
    step sha256 state witness ≠ .ok final := by
  intro hstep
  obtain ⟨-, -, -, -, -, hcount, hyes, hno⟩ := step_ok.mp hstep
  have hlt := final.step_count.toNat_lt
  have hlt' := final.yes_votes.toNat_lt
  have hlt'' := final.no_votes.toNat_lt
  unfold Full at hfull
  by_cases hchoice : witness.vote_choice = 1
  · rw [if_pos hchoice] at hyes hno
    omega
  · rw [if_neg hchoice] at hyes hno
    omega

/-- Two voters whose commitments differ. -/
theorem commitments_differ : compute_commitment Lib.sha256 "a" "" ≠ compute_commitment Lib.sha256 "b" "" := by
  intro h
  have hhash := hexHash_injective h
  exact absurd hhash (by decide)

theorem membersOnly_iff {t : MerkleTree} (ht : t.Occupied) (hroot : state.root = t.root Lib.sha256) :
    MembersOnly Lib.sha256 state ↔ starts_with state.root "0x0" = false ∨ Full state := by
  have hhash : ∃ message, state.root = hexHash Lib.sha256 message := by
    rw [hroot]
    exact root_is_hash ht
  constructor
  · intro h
    by_contra hnot
    rw [not_or, Bool.not_eq_false] at hnot
    obtain ⟨hzero, hroom⟩ := hnot
    -- Any voter passes with an empty path, and only one of two can be the root.
    have houtsider : ∀ secret, compute_commitment Lib.sha256 secret "" = state.root := by
      intro secret
      obtain ⟨witness, final, hstep, hsecret, hsalt, helements, hindices⟩ :=
        exists_step hroom secret "" ((verify_path hhash).mpr ⟨rfl, .inl hzero⟩)
      have hbelongs := (h witness final hstep).2
      rw [hsecret, hsalt, helements, hindices] at hbelongs
      exact hbelongs
    exact commitments_differ ((houtsider "a").trans (houtsider "b").symm)
  · rintro (hnonzero | hfull) witness final hstep
    · obtain ⟨-, hpath, -⟩ := step_ok.mp hstep
      obtain ⟨hlength, hor⟩ := (verify_path hhash).mp hpath
      refine ⟨hlength, hor.resolve_left ?_⟩
      rw [hnonzero]
      exact Bool.false_ne_true
    · exact absurd hstep (no_step_of_full hfull)

/-- The root of one voter, whose hash begins with a zero. -/
def soleRoot : IvcState := { IvcState.default with root := compute_commitment Lib.sha256 "m" "7" }

theorem membersOnly_iff_for_one_voter :
    MembersOnly Lib.sha256 soleRoot ↔ starts_with soleRoot.root "0x0" = false ∨ Full soleRoot :=
  membersOnly_iff (t := .commitment "m" "7") trivial rfl

/-- The vote of somebody else, with no path at all. -/
def outsider : VoteWitness := ⟨"a", "", [], [], 1, compute_nullifier Lib.sha256 "a" 0 0, 0, 0⟩

theorem outsider_passes :
    soleRoot.root = (MerkleTree.commitment "m" "7").root Lib.sha256 ∧
      (∃ final, step Lib.sha256 soleRoot outsider = .ok final) ∧ ¬ Belongs Lib.sha256 soleRoot.root outsider := by
  have hzero : starts_with soleRoot.root "0x0" = true := by decide +kernel
  refine ⟨rfl, ⟨⟨1, soleRoot.root, 1, 0, poseidon_hash_2 Lib.sha256 zeroHex outsider.nullifier⟩, ?_⟩, ?_⟩
  · exact step_ok.mpr ⟨(by decide : (1 : UInt8) ≤ 1), (verify_path ⟨_, rfl⟩).mpr ⟨rfl, .inl hzero⟩, rfl, rfl, rfl, rfl,
      rfl, rfl⟩
  · rintro ⟨-, hclimb⟩
    have hhash : Lib.sha256 (as_bytes "a" ++ as_bytes "") = Lib.sha256 (as_bytes "m" ++ as_bytes "7") :=
      hexHash_injective hclimb
    exact absurd hhash (by decide +kernel)

end ZkVote.Nova
