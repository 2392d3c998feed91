import ZkVote.Voting.Terms

/-!
# The voting contract: the tables of keys

A key is kept under a version of its own for good. Setting another one adds an
entry and moves the counter.
-/

open Lib Lib.Outcome

namespace ZkVote.Voting

/-! ## What a key is made of -/

/-- What `hash_vk` and `hash_vk_bls381` hash. -/
def Key.bytes : Key → Bytes
  | plain vk | quadratic vk => vk.alpha.toList ++ vk.beta.toList ++ vk.gamma.toList ++ vk.delta.toList ++
      (vk.ic.map Vector.toList).flatten
  | bls381 vk => vk.alpha.toList ++ vk.beta.toList ++ vk.gamma.toList ++ vk.delta.toList ++
      (vk.ic.map Vector.toList).flatten

/-- The key without its table. -/
def Key.material : Key → VerificationKey ⊕ VerificationKeyBls381
  | plain vk | quadratic vk => .inl vk
  | bls381 vk => .inr vk

def Key.icLength : Key → Nat
  | plain vk | quadratic vk => vk.ic.length
  | bls381 vk => vk.ic.length

/-- No version above the counter is taken, and every key is of the length its circuit asks for. -/
structure KeysOk (k : Keys) : Prop where
  version_le : ∀ kind v, k.find v kind ≠ none → v ≤ k.version kind
  kind : ∀ kind v key, k.find v kind = some key → key.kind = kind
  ic_length : ∀ kind v key, k.find v kind = some key → key.icLength = VOTE_CIRCUIT_IC_LEN

/-- The tables stay, or one of them has one more key. -/
inductive KeysStep (k k' : Keys) : Prop where
  | same (find : k'.find = k.find) (version : k'.version = k.version)
  | added (key : Key) (length : key.icLength = VOTE_CIRCUIT_IC_LEN)
      (find : ∀ v kind, k'.find v kind =
        if kind = key.kind ∧ v = k.version key.kind + 1 then some key else k.find v kind)
      (version : ∀ kind, k'.version kind = if kind = key.kind then k.version kind + 1 else k.version kind)

/-- SHA-256 tells the keys of the tables apart. -/
def CollisionFree (C : Crypto) (k : Keys) : Prop :=
  ∀ v v' kind kind' key key', k.find v kind = some key → k.find v' kind' = some key' →
    C.sha256 key.bytes = C.sha256 key'.bytes → key.bytes = key'.bytes

section
variable {C : Crypto} {env : VotingEnv} {s s' : VotingState} {k k' : Keys} {key key' : Key} {d : Nat}

theorem Key.hash_eq : key.hash C = C.sha256 key.bytes := by
  cases key <;> rfl

theorem VerificationKey.ext_bytes {vk vk' : VerificationKey}
    (h : (Key.plain vk).bytes = (Key.plain vk').bytes) : vk = vk' := by
  obtain ⟨alpha, beta, gamma, delta, ic⟩ := vk
  obtain ⟨alpha', beta', gamma', delta', ic'⟩ := vk'
  simp only [Key.bytes] at h
  obtain ⟨h, hic⟩ := List.append_inj h (by simp)
  obtain ⟨h, hdelta⟩ := List.append_inj h (by simp)
  obtain ⟨h, hgamma⟩ := List.append_inj h (by simp)
  obtain ⟨halpha, hbeta⟩ := List.append_inj h (by simp)
  rw [Vector.toList_inj.mp halpha, Vector.toList_inj.mp hbeta, Vector.toList_inj.mp hgamma,
    Vector.toList_inj.mp hdelta, flatten_injective (by decide) hic]

/-- The bytes of a BLS12-381 key are too many for those of the other curve. -/
theorem Key.material_eq (h : key.bytes = key'.bytes) (hlength : key.icLength = VOTE_CIRCUIT_IC_LEN)
    (hlength' : key'.icLength = VOTE_CIRCUIT_IC_LEN) (hplain : key.kind ≠ .bls381) :
    key.material = key'.material := by
  have apart {vk : VerificationKey} {vk' : VerificationKeyBls381} (hvk : vk.ic.length = VOTE_CIRCUIT_IC_LEN)
      (hvk' : vk'.ic.length = VOTE_CIRCUIT_IC_LEN) : (Key.plain vk).bytes ≠ (Key.bls381 vk').bytes := by
    intro heq
    have hcount := congrArg List.length heq
    simp only [Key.bytes, List.length_append, Vector.length_toList, length_flatten, hvk, hvk',
      VOTE_CIRCUIT_IC_LEN] at hcount
    omega
  cases key with
  | bls381 vk => exact absurd rfl hplain
  | plain vk | quadratic vk =>
    cases key' with
    | bls381 vk' => exact absurd h (apart hlength hlength')
    | plain vk' | quadratic vk' => exact congrArg Sum.inl (VerificationKey.ext_bytes h)

/-- In a migration too, the key of the circuit has to be the proposal's. -/
theorem assert_circuit_vk_hash {p : ProposalInfo} {circuit_id : Bytes} {vk : VerificationKey} {u : Unit}
    (hload : load_vk_from_registry env s circuit_id = .ok vk)
    (h : assert_circuit_vk C env s d p circuit_id vk = .ok u) : hash_vk C vk = p.vk_hash := by
  by_contra hne
  unfold assert_circuit_vk at h
  rw [if_pos hne] at h
  unfold assert_migration at h
  split at h
  · cases h
  · rename_i old_circuit_id new_circuit_id _
    simp only [bind_eq_ok, require_eq_ok, ite_eq_ok] at h
    obtain ⟨_, hknown, ⟨rfl, old_vk, hold, hhash⟩ |
      ⟨hold, ⟨rfl, new_vk, hnew, hhash⟩ | ⟨hnew, -⟩⟩⟩ := h
    · rw [hload] at hold
      cases hold
      exact hne hhash
    · rw [hload] at hnew
      cases hnew
      exact hne hhash
    · exact hknown ⟨hold, hnew⟩

/-- All keys of the tables. -/
def Keys.stored (k : Keys) : List Key :=
  [KeyKind.plain, .bls381, .quadratic].flatMap fun kind =>
    (List.range (k.version kind + 1)).filterMap fun v => k.find v kind

theorem KeysOk.mem_stored (hk : KeysOk k) {v : Nat} {kind : KeyKind} (hfind : k.find v kind = some key) :
    key ∈ k.stored := by
  have hle := hk.version_le kind v (by rw [hfind]; simp)
  unfold Keys.stored
  rw [List.mem_flatMap]
  refine ⟨kind, by cases kind <;> simp, ?_⟩
  rw [List.mem_filterMap]
  exact ⟨v, List.mem_range.mpr (by omega), hfind⟩

theorem KeysOk.collisionFree (hk : KeysOk k) (h : ∀ key ∈ k.stored, ∀ key' ∈ k.stored,
    C.sha256 key.bytes = C.sha256 key'.bytes → key.bytes = key'.bytes) : CollisionFree C k :=
  fun _ _ _ _ _ _ hfind hfind' => h _ (hk.mem_stored hfind) _ (hk.mem_stored hfind')

/-! ## Steps -/

theorem KeysStep.grows (h : KeysStep k k') (hk : KeysOk k) {v : Nat} {kind : KeyKind}
    (hfind : k.find v kind = some key) : k'.find v kind = some key := by
  cases h with
  | same find => rw [find, hfind]
  | added new length find version =>
    rw [find, if_neg, hfind]
    rintro ⟨rfl, rfl⟩
    have hle := hk.version_le new.kind _ (by rw [hfind]; simp)
    omega

theorem KeysStep.ok (h : KeysStep k k') (hk : KeysOk k) : KeysOk k' := by
  cases h with
  | same find version => exact ⟨by rw [find, version]; exact hk.version_le, by rw [find]; exact hk.kind,
      by rw [find]; exact hk.ic_length⟩
  | added new length find version =>
    refine ⟨fun kind v hne => ?_, fun kind v key hfind => ?_, fun kind v key hfind => ?_⟩
    · rw [find] at hne
      rw [version]
      split at hne
      · rename_i hnew
        rw [if_pos hnew.1, hnew.1]
        exact hnew.2.le
      · have hle := hk.version_le kind v hne
        split <;> omega
    · rw [find] at hfind
      split at hfind
      · rename_i hnew
        rw [hnew.1, ← Option.some.inj hfind]
      · exact hk.kind kind v key hfind
    · rw [find] at hfind
      split at hfind
      · rw [← Option.some.inj hfind]
        exact length
      · exact hk.ic_length kind v key hfind

theorem KeysStep.refl : KeysStep k k := .same rfl rfl

/-- What a setter does to the keys of its DAO, and to the instance. -/
structure DaoKeys (s s' : VotingState) (d : Nat) : Prop where
  keys : KeysStep (s.daos d).keys (s'.daos d).keys
  inst : s'.inst = s.inst ∨ s'.inst = (resumed s).inst

theorem Keys.add_step (hlength : key.icLength = VOTE_CIRCUIT_IC_LEN) : KeysStep k (k.add key) := by
  refine .added key hlength (fun v kind => ?_) (fun kind => ?_)
  · cases key <;> cases kind <;> simp [Keys.add, Keys.find, Key.kind, Function.update_apply]
    all_goals split <;> simp
  · cases key <;> cases kind <;> simp [Keys.add, Keys.version, Key.kind]

theorem find_eq {k k' : Keys} (hplain : k'.vk_by_version = k.vk_by_version)
    (hbls : k'.vk_by_version_bls381 = k.vk_by_version_bls381)
    (hqv : k'.qv_vk_by_version = k.qv_vk_by_version) : k'.find = k.find := by
  funext v kind
  cases kind <;> simp [Keys.find, hplain, hbls, hqv]

theorem version_eq {k k' : Keys} (hplain : k'.vk_version = k.vk_version)
    (hbls : k'.vk_version_bls381 = k.vk_version_bls381) (hqv : k'.qv_vk_version = k.qv_vk_version) :
    k'.version = k.version := by
  funext kind
  cases kind <;> simp [Keys.version, hplain, hbls, hqv]

theorem DaoCall.keys_step {call : DaoCall} (hlength : call.LengthOk) : KeysStep k (call.keys k) := by
  cases call with
  | set_vk _ vk | set_vk_with_transcript _ vk | set_vk_from_registry _ vk =>
    show KeysStep k (k.add (.plain vk))
    exact Keys.add_step hlength
  | set_vk_bls381 _ vk | set_vk_from_registry_bls381 _ vk =>
    show KeysStep k (k.add (.bls381 vk))
    exact Keys.add_step hlength
  | set_qv_vk _ vk =>
    show KeysStep k (k.add (.quadratic vk))
    exact Keys.add_step hlength
  | _ => exact .same (find_eq rfl rfl rfl) (version_eq rfl rfl rfl)

theorem dao_keys {call : DaoCall} (h : call.run C env s = .ok s') : DaoKeys s s' call.dao_id := by
  have hsets := dao_sets h
  refine ⟨?_, hsets.inst⟩
  rw [hsets.keys]
  exact DaoCall.keys_step hsets.length

theorem step_sets {call : Call} (hs : VotingOk s) (h : step C s env call = .ok s') (d : Nat) :
    (s'.daos d).keys = (s.daos d).keys ∨ ∃ c, call = .dao c ∧ d = c.dao_id ∧ DaoSets s s' c := by
  cases call with
  | ballot call =>
    obtain ⟨e', hb⟩ := ballot_step h
    exact .inl (by rw [hb.rewrites.daos])
  | tally call =>
    obtain ⟨e', hr, -⟩ := tally_step hs.dormant h
    exact .inl (by rw [hr.daos])
  | create call =>
    obtain ⟨id, e', p, hc⟩ := create_step h
    rw [hc.daos, Function.update_apply]
    split
    · rename_i hd
      exact .inl (by rw [hd])
    · exact .inl rfl
  | phase call =>
    obtain ⟨e', hr, -⟩ := phase_step h
    exact .inl (by rw [hr.daos])
  | config call =>
    obtain ⟨e', hr, -⟩ := config_step h
    exact .inl (by rw [hr.daos])
  | dao call =>
    by_cases hd : d = call.dao_id
    · exact .inr ⟨call, rfl, hd, dao_sets h⟩
    · obtain ⟨d', hdao⟩ := dao_step h
      exact .inl (by rw [hdao.daos, Function.update_of_ne hd])
  | inst call => exact .inl (by rw [(instance_step h).daos])

theorem step_keys {call : Call} (hs : VotingOk s) (h : step C s env call = .ok s') (d : Nat) :
    KeysStep (s.daos d).keys (s'.daos d).keys := by
  rcases step_sets hs h d with hsame | ⟨c, -, rfl, hsets⟩
  · rw [hsame]
    exact .refl
  · rw [hsets.keys]
    exact DaoCall.keys_step hsets.length

end

/-! ## Runs -/

section
variable {C : Crypto} {registry guardian : Address} {log : List (VotingState × VotingEnv × Call)}
  {s s' : VotingState}

theorem VotingRun.keysOk (hrun : VotingRun C registry guardian log s) (d : Nat) : KeysOk (s.daos d).keys := by
  refine Run.invariant_log (P := fun _ s => KeysOk (s.daos d).keys) ?_
    (fun log s call s' hr hk (hs : Accepts C s call s') => (step_keys (VotingRun.ok hr) hs d).ok hk) hrun
  exact ⟨fun kind v hne => by cases kind <;> simp [constructor, Keys.find] at hne,
    fun kind v key hfind => by cases kind <;> simp [constructor, Keys.find] at hfind,
    fun kind v key hfind => by cases kind <;> simp [constructor, Keys.find] at hfind⟩

theorem find_of_run {after : List (VotingState × VotingEnv × Call)} (hrun : VotingRun C registry guardian log s)
    (hafter : Run (Accepts C) s after s') {d v : Nat} {kind : KeyKind} {key : Key}
    (hfind : (s.daos d).keys.find v kind = some key) : (s'.daos d).keys.find v kind = some key := by
  refine Run.invariant_log (P := fun _ s => (s.daos d).keys.find v kind = some key) hfind
    (fun after s₁ call s₂ hr hfind (hs : Accepts C s₁ call s₂) => ?_) hafter
  have hreach : VotingRun C registry guardian (after ++ log) s₁ := Run.append hrun hr
  exact (step_keys hreach.ok hs d).grows (hreach.keysOk d) hfind

end

end ZkVote.Voting
