import ZkVote.Backend.SigningPolicy

/-!
# Who signs for the relayer

`RelayerKeyManager.signTransaction`, and the rules that its comment gives for it.
-/

open Lib Lib.Outcome

namespace ZkVote.Relayer

inductive KeyStatus where
  | active | standby | low_balance | exhausted | deprecated | draining | revoked | compromised
  deriving DecidableEq, Repr

def REVOKED_STATUSES : List KeyStatus := [.revoked, .compromised]

/-- A signer: a local one holds the pair of a public key, and the two for a KMS and an HSM are not
implemented. -/
inductive StellarSigner where
  | LocalKeypairSigner (publicKey : String)
  | MockTestSigner
  | KmsSigner (keyId region : String)
  | HsmSigner (slotId : Nat)
  deriving DecidableEq, Repr

/-- A managed key. Where it signs locally it does so with its own pair. -/
structure RelayerManagedKey where
  id : String
  publicKey : String
  status : KeyStatus
  signer : StellarSigner
  txCount : Nat
  lastUsedAt : Option ℚ
  drainUntil : Option ℚ
  ownPair : ∀ pair, signer = .LocalKeypairSigner pair → pair = publicKey

structure RelayerKeyManager where
  keys : List RelayerManagedKey
  activeKeyId : Option String
  signingPolicy : Option SigningPolicy
  /-- The public keys that an earlier process has revoked. -/
  persistedRevocations : List String

inductive SigningError where
  | noActiveSigner
  | kmsNotImplemented (keyId region : String)
  | hsmNotImplemented (slotId : Nat)
  deriving DecidableEq, Repr

def SigningError.message : SigningError → String
  | .noActiveSigner => "No active relayer signer available"
  | .kmsNotImplemented keyId region =>
    s!"KMS signing not implemented: integrate with AWS KMS SDK for key {keyId} in {region}. " ++
      "Refusing to return dummy signature."
  | .hsmNotImplemented slotId =>
    s!"HSM PKCS#11 signing not implemented: integrate with PKCS#11 module for slot {slotId}. " ++
      "Refusing to return dummy signature."

/-- The account whose sequence number and authority a transaction uses. `extractBaseAddress` is the
SDK's, and may throw. -/
def transactionSourceAccount (extractBaseAddress : String → Option String) (tx : Tx) : Option String :=
  let raw := match tx.body with
    | .transaction t => t.source
    | .feeBump feeSource _ => feeSource
  if raw = "" then none
  else if raw.startsWith "M" then some ((extractBaseAddress raw).getD raw)
  else some raw

namespace RelayerKeyManager

def getActiveKey (manager : RelayerKeyManager) : Option RelayerManagedKey :=
  match manager.activeKeyId with
  | none => none
  | some id => if id = "" then none else manager.keys.find? fun key => key.id == id

def sign (signer : StellarSigner) (tx : Tx) : Outcome SigningError Tx :=
  match signer with
  | .LocalKeypairSigner publicKey => .ok { tx with signatures := tx.signatures ++ [publicKey] }
  | .MockTestSigner => .ok tx
  | .KmsSigner keyId region => fail (.kmsNotImplemented keyId region)
  | .HsmSigner slotId => fail (.hsmNotImplemented slotId)

def used (now : ℚ) (key : RelayerManagedKey) : RelayerManagedKey :=
  { key with txCount := key.txCount + 1, lastUsedAt := some now }

def signTransaction (manager : RelayerKeyManager) (now : ℚ) (tx : Tx) :
    Outcome SigningError (RelayerKeyManager × Tx) := do
  let active ← orPanic manager.getActiveKey .noActiveSigner
  let signed ← sign active.signer tx
  return ({ manager with keys := manager.keys.map fun key => if key.id = active.id then used now key else key },
    signed)

/-! ## The fence -/

variable (platform : Platform) (extractBaseAddress : String → Option String) (manager : RelayerKeyManager)
  (now : ℚ) (tx : Tx) (auth : SignAuthorization)

/-- The key is revoked or compromised, now or by an earlier process. -/
def Revoked (k : String) : Prop :=
  k ∈ manager.persistedRevocations ∨ ∃ key ∈ manager.keys, key.publicKey = k ∧ key.status ∈ REVOKED_STATUSES

def IsActive (k : String) : Prop := ∃ active, manager.getActiveKey = some active ∧ active.publicKey = k

def Draining (k : String) : Prop :=
  ∃ key ∈ manager.keys, key.publicKey = k ∧ key.status = .draining ∧ ∃ deadline ∈ key.drainUntil, now < deadline

def Authorised : Prop :=
  ∀ policy ∈ manager.signingPolicy, (policy.authorize platform now tx auth).isOk = true

def SourceIs (k : String) : Prop := transactionSourceAccount extractBaseAddress tx = some k

/-- No managed key owns the account that the transaction draws on. -/
def SourceUnmanaged : Prop := ∀ key ∈ manager.keys, ¬ SourceIs extractBaseAddress tx key.publicKey

/-- The key may sign. -/
def MaySign (k : String) : Prop :=
  ¬ manager.Revoked k ∧ manager.Authorised platform now tx auth ∧
    ((SourceIs extractBaseAddress tx k ∧ (manager.IsActive k ∨ manager.Draining now k)) ∨
      (manager.SourceUnmanaged extractBaseAddress tx ∧ manager.IsActive k))

/-- What signing adds is by keys that may sign, and it fails where no key may. -/
def Fenced : Prop :=
  (∀ next signed, manager.signTransaction now tx = .ok (next, signed) →
    ∀ k, tx.signatures.count k < signed.signatures.count k →
      manager.MaySign platform extractBaseAddress now tx auth k) ∧
  ((∀ k, ¬ manager.MaySign platform extractBaseAddress now tx auth k) →
    (manager.signTransaction now tx).isOk = false)

/-- The active key signs by itself only what it may, and it stands in for nobody: with a signer that
adds nothing some key has to be allowed to sign. -/
def ActiveMaySign : Prop :=
  ∀ active, manager.getActiveKey = some active →
    match active.signer with
    | .LocalKeypairSigner _ =>
      ¬ manager.Revoked active.publicKey ∧ manager.Authorised platform now tx auth ∧
        (SourceIs extractBaseAddress tx active.publicKey ∨ manager.SourceUnmanaged extractBaseAddress tx)
    | .MockTestSigner => ∃ k, manager.MaySign platform extractBaseAddress now tx auth k
    | _ => True

variable {platform extractBaseAddress manager now tx auth}

theorem isActive_iff {active : RelayerManagedKey} (hactive : manager.getActiveKey = some active) {k : String} :
    manager.IsActive k ↔ active.publicKey = k := by
  unfold IsActive
  constructor
  · rintro ⟨other, hother, rfl⟩
    rw [hactive] at hother
    cases hother
    rfl
  · intro h
    exact ⟨active, hactive, h⟩

theorem maySign_active {active : RelayerManagedKey} (hactive : manager.getActiveKey = some active) :
    manager.MaySign platform extractBaseAddress now tx auth active.publicKey ↔
      ¬ manager.Revoked active.publicKey ∧ manager.Authorised platform now tx auth ∧
        (SourceIs extractBaseAddress tx active.publicKey ∨ manager.SourceUnmanaged extractBaseAddress tx) := by
  have hself : manager.IsActive active.publicKey := (isActive_iff hactive).mpr rfl
  unfold MaySign
  simp only [hself, true_or, and_true]

theorem signTransaction_ok {next : RelayerKeyManager} {signed : Tx} :
    manager.signTransaction now tx = .ok (next, signed) ↔
      ∃ active, manager.getActiveKey = some active ∧ sign active.signer tx = .ok signed ∧
        next =
          { manager with
            keys := manager.keys.map fun key => if key.id = active.id then used now key else key } := by
  unfold signTransaction
  simp only [bind_eq_ok, orPanic_eq_ok, pure_eq_ok, Prod.mk.injEq]
  constructor
  · rintro ⟨active, hactive, other, hsign, rfl, rfl⟩
    exact ⟨active, hactive, hsign, rfl⟩
  · rintro ⟨active, hactive, hsign, rfl⟩
    exact ⟨active, hactive, signed, hsign, rfl, rfl⟩

theorem added_iff {active : RelayerManagedKey} {signed : Tx} (hsign : sign active.signer tx = .ok signed)
    {k : String} :
    tx.signatures.count k < signed.signatures.count k ↔
      active.signer = .LocalKeypairSigner active.publicKey ∧ k = active.publicKey := by
  cases hsigner : active.signer with
  | LocalKeypairSigner pair =>
    cases active.ownPair pair hsigner
    rw [hsigner] at hsign
    cases hsign
    rw [List.count_append, Nat.lt_add_right_iff_pos, List.count_pos_iff, List.mem_singleton]
    exact (and_iff_right rfl).symm
  | MockTestSigner =>
    rw [hsigner] at hsign
    cases hsign
    simp
  | KmsSigner keyId region =>
    rw [hsigner] at hsign
    cases hsign
  | HsmSigner slotId =>
    rw [hsigner] at hsign
    cases hsign

/-- Signing keeps to the rules exactly if the active key, which always signs, may sign this transaction. -/
theorem fenced_iff (platform : Platform) (extractBaseAddress : String → Option String)
    (manager : RelayerKeyManager) (now : ℚ) (tx : Tx) (auth : SignAuthorization) :
    manager.Fenced platform extractBaseAddress now tx auth ↔
      manager.ActiveMaySign platform extractBaseAddress now tx auth := by
  constructor
  · rintro ⟨honly, hfails⟩ active hactive
    cases hsigner : active.signer with
    | LocalKeypairSigner pair =>
      have hown := hsigner.trans (congrArg _ (active.ownPair pair hsigner))
      have hsign : sign active.signer tx = .ok { tx with signatures := tx.signatures ++ [active.publicKey] } := by
        rw [hown]
        rfl
      have hadded := (added_iff hsign).mpr ⟨hown, rfl⟩
      exact (maySign_active hactive).mp
        (honly _ _ (signTransaction_ok.mpr ⟨active, hactive, hsign, rfl⟩) _ hadded)
    | MockTestSigner =>
      have hsign : sign active.signer tx = .ok tx := by
        rw [hsigner]
        rfl
      have hok : (manager.signTransaction now tx).isOk = true :=
        isOk_iff.mpr ⟨_, signTransaction_ok.mpr ⟨active, hactive, hsign, rfl⟩⟩
      by_contra hnone
      exact Bool.false_ne_true ((hfails (not_exists.mp hnone)).symm.trans hok)
    | KmsSigner keyId region => trivial
    | HsmSigner slotId => trivial
  · intro hmay
    constructor
    · intro next signed hok k hadded
      obtain ⟨active, hactive, hsign, -⟩ := signTransaction_ok.mp hok
      obtain ⟨hown, rfl⟩ := (added_iff hsign).mp hadded
      have hactiveMay := hmay active hactive
      rw [hown] at hactiveMay
      exact (maySign_active hactive).mpr hactiveMay
    · intro hnone
      rw [Bool.eq_false_iff]
      intro hisOk
      obtain ⟨⟨next, signed⟩, hok⟩ := isOk_iff.mp hisOk
      obtain ⟨active, hactive, hsign, -⟩ := signTransaction_ok.mp hok
      have hactiveMay := hmay active hactive
      cases hsigner : active.signer with
      | LocalKeypairSigner pair =>
        rw [hsigner] at hactiveMay
        exact hnone _ ((maySign_active hactive).mpr hactiveMay)
      | MockTestSigner =>
        rw [hsigner] at hactiveMay
        obtain ⟨k, hk⟩ := hactiveMay
        exact hnone k hk
      | KmsSigner keyId region =>
        rw [hsigner] at hsign
        cases hsign
      | HsmSigner slotId =>
        rw [hsigner] at hsign
        cases hsign

/-- One local key, under a policy that a co-signer has halted. -/
def haltedManager : RelayerKeyManager where
  keys :=
    [{ id := "relayer-primary", publicKey := "GA", status := .active, signer := .LocalKeypairSigner "GA"
       txCount := 0, lastUsedAt := none, drainUntil := none, ownPair := by rintro pair ⟨⟩; rfl }]
  activeKeyId := some "relayer-primary"
  signingPolicy := some
    { limits := [], cosigners := [], breakGlassSecret := none, sweepSafeAccount := none, tiersEnabled := some true
      haltState := some { reason := "stop", haltedBy := "ops-a" } }
  persistedRevocations := []

def bumpSequenceTx : Tx where
  body := .transaction { source := "GA", operations := [.bumpSequence] }
  hash := "00"
  signatures := []

/-- A halt does not keep the active key from signing. -/
theorem signs_while_halted :
    ¬ haltedManager.Fenced { Number := fun _ => none, text := fun _ => "", hmac := fun _ _ => "" } some 0
      bumpSequenceTx { approvals := none, breakGlass := none, purpose := none } := by
  rw [fenced_iff]
  intro hmay
  have hactive : haltedManager.getActiveKey = haltedManager.keys[0]? := by
    simp [getActiveKey, haltedManager]
  obtain ⟨-, hauthorised, -⟩ := hmay _ hactive
  have hrefused := hauthorised _ rfl
  cases hrefused

end RelayerKeyManager

end ZkVote.Relayer
