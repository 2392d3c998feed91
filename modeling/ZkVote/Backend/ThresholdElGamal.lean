import ZkVote.Lib.BigInt
import ZkVote.Lib.Euclid
import ZkVote.Lib.Sha256

/-!
# Threshold ElGamal

`threshold-crypto.ts`, and the part of `threshold-coordinator.ts` that leads from the key ceremony of one election to
its tally. The curve library is a parameter; votes come without a relay path.
-/

open Lib

namespace ZkVote.ThresholdElGamal

def BN254_FR_MODULUS : Nat :=
  21888242871839275222246405745257275088548364400416034343698204186575808495617

/-- What `randomFr` returns. -/
structure Scalar where
  value : Nat
  value_pos : 0 < value
  value_lt : value < BN254_FR_MODULUS

/-- `G1`; points that `equals` does not tell apart are one, and `none` is a throw. -/
structure G1 (Q : Type) where
  ZERO : Q
  BASE : Q
  add : Q → Q → Q
  negate : Q → Q
  equals : Q → Q → Bool
  multiply : Q → Int → Option Q
  toAffine : Q → Nat × Nat
  /-- `new G1(x, y, 1n)`. -/
  new : Nat → Nat → Option Q

structure Ciphertext where
  c1 : String
  c2 : String
deriving DecidableEq

variable {Q : Type} (lib : G1 Q)

/-! ## Points as texts -/

def word (x : Nat) : List Char := padStart 64 '0' (toString16 x)

def g1ToHex (point : Q) : String :=
  String.ofList (word (lib.toAffine point).1 ++ word (lib.toAffine point).2)

/-- `BigInt("0x" + text)` of a part of the text, which is never negative. -/
def readWord (cs : List Char) : Option Nat := (readBigInt (String.ofList ('0' :: 'x' :: cs))).map Int.toNat

def hexToG1 (hex : String) : Option Q := do
  let padded := padStart 128 '0' hex.toList
  let x ← readWord (padded.take 64)
  let y ← readWord ((padded.drop 64).take 64)
  lib.new x y

def scalarMulG1 (scalar : Int) : Option Q := if scalar = 0 then some lib.ZERO else lib.multiply lib.BASE scalar

/-! ## Encryption -/

def encryptVote (publicKeyHex : String) (vote : Int) (r : Scalar) : Option Ciphertext := do
  let h ← hexToG1 lib publicKeyHex
  let c1 ← lib.multiply lib.BASE r.value
  let h_r ← lib.multiply h r.value
  let g_vote ← scalarMulG1 lib vote
  let c2 := lib.add h_r g_vote
  return { c1 := g1ToHex lib c1, c2 := g1ToHex lib c2 }

def homomorphicAdd (a b : Ciphertext) : Option Ciphertext := do
  let c1_a ← hexToG1 lib a.c1
  let c2_a ← hexToG1 lib a.c2
  let c1_b ← hexToG1 lib b.c1
  let c2_b ← hexToG1 lib b.c2
  return { c1 := g1ToHex lib (lib.add c1_a c1_b), c2 := g1ToHex lib (lib.add c2_a c2_b) }

def aggregateTally : List Ciphertext → Option Ciphertext
  | [] => none
  | vote :: votes => votes.foldlM (homomorphicAdd lib) vote

/-! ## Sharing -/

def mod (a : Int) : Int := (a.tmod BN254_FR_MODULUS + BN254_FR_MODULUS).tmod BN254_FR_MODULUS

/-- The random scalars are drawn in their order. -/
def generatePolynomial (secret : Scalar) (degree : Nat) (randoms : Nat → Scalar) : List Nat :=
  secret.value :: (List.range degree).map fun i => (randoms i).value

def evaluatePolynomial (coeffs : List Nat) (x : Nat) : Nat :=
  coeffs.foldr (fun c result => (result * x + c) % BN254_FR_MODULUS) 0

/-- The divisors fall, so `m` rounds are enough. -/
def modInverse (a m : Int) : Option Int :=
  let (r, t) := euclid (m.toNat + 1) m ((a.tmod m + m).tmod m) 0 1
  if 1 < r then none else some ((t.tmod m + m).tmod m)

def lagrangeCoefficientAtZero (index : Nat) (allIndices : List Nat) : Option Int := do
  let others := allIndices.filter (· ≠ index)
  let numerator := others.foldl (fun acc (j : Nat) => (acc * (0 - ((j : Int) + 1))).tmod BN254_FR_MODULUS) 1
  let denominator :=
    others.foldl (fun acc (j : Nat) => (acc * (((index : Int) + 1) - (j + 1))).tmod BN254_FR_MODULUS) 1
  let inverse ← modInverse denominator BN254_FR_MODULUS
  return mod (numerator * inverse)

def generateVSSCommitments (coeffs : List Nat) : Option (List String) :=
  coeffs.mapM fun (c : Nat) => (lib.multiply lib.BASE c).map (g1ToHex lib)

/-- What an authority deals: a share for each of them. -/
structure Dealing where
  shares : List Nat
  commitments : List String

/-- An array is shorter than `2 ^ 32`. -/
def generateDKGShares (t n : Nat) (secret : Scalar) (randoms : Nat → Scalar) : Option Dealing := do
  let coeffs := generatePolynomial secret (t - 1) randoms
  let commitments ← generateVSSCommitments lib coeffs
  if 2 ^ 32 ≤ n then none
  else some { shares := (List.range n).map fun i => evaluatePolynomial coeffs (i + 1), commitments }

/-- `privateKeyShare` of `computeDKGResult`. -/
def sumShares (receivedShares : List Nat) : Nat :=
  receivedShares.foldl (fun acc value => (acc + value) % BN254_FR_MODULUS) 0

def addKey (jointKey : Q) (commitments : List String) : Option Q :=
  match commitments with
  | [] => some jointKey
  | first :: _ => (hexToG1 lib first).map (lib.add jointKey)

def computeJointPublicKey (fromCommitments : List (List String)) : Option String :=
  (fromCommitments.foldlM (addKey lib) lib.ZERO).map (g1ToHex lib)

/-! ## Decryption -/

def generateDecryptionShare (ciphertext : Ciphertext) (privateKeyShare : Nat) : Option String := do
  let c1 ← hexToG1 lib ciphertext.c1
  (lib.multiply c1 privateKeyShare).map (g1ToHex lib)

structure DecryptionShare where
  authorityIndex : Nat
  shareHex : String
deriving DecidableEq

def addShare (indices : List Nat) (combined : Q) (s : DecryptionShare) : Option Q := do
  let lambda ← lagrangeCoefficientAtZero s.authorityIndex indices
  let share ← hexToG1 lib s.shareHex
  (lib.multiply share lambda).map (lib.add combined)

def combineDecryptionShares (shares : List DecryptionShare) : Option String :=
  (shares.foldlM (addShare lib (shares.map DecryptionShare.authorityIndex)) lib.ZERO).map (g1ToHex lib)

/-- The loop of `decryptTally` from `i` on, with `m` the multiple of the generator by `i`. -/
def searchTally (g_tally : Q) : Nat → Nat → Q → Option Nat
  | 0, _, _ => none
  | rounds + 1, i, m =>
    if lib.equals m g_tally = true then some i else searchTally g_tally rounds (i + 1) (lib.add m lib.BASE)

def decryptTally (ciphertext : Ciphertext) (combinedShareHex : String) : Option Nat := do
  let c2 ← hexToG1 lib ciphertext.c2
  let combinedShare ← hexToG1 lib combinedShareHex
  let g_tally := lib.add c2 (lib.negate combinedShare)
  if lib.equals g_tally lib.ZERO = true then some 0 else searchTally lib g_tally 99999 1 lib.BASE

/-! ## Proofs of the tally -/

/-- `hexToBytes`. -/
def hexToBytes (s : String) : Option Bytes :=
  if s.toList.length % 2 = 0 ∧ s.toList.all (fun c => (hexValue c).isSome) = true then some (fromHex s) else none

/-- The check that both functions make. -/
def tallyMatches (ciphertext : Ciphertext) (combinedShareHex : String) (decryptedTally : Int) : Option Bool := do
  let g_tally ← lib.multiply lib.BASE decryptedTally
  let combinedShare ← hexToG1 lib combinedShareHex
  let c2 ← hexToG1 lib ciphertext.c2
  return lib.equals c2 (lib.add combinedShare g_tally)

def generateTallyProof (ciphertext : Ciphertext) (combinedShareHex : String) (decryptedTally privateKey : Int)
    (k : Scalar) : Option String := do
  if (← tallyMatches lib ciphertext combinedShareHex decryptedTally) = false then none
  let c1 ← hexToG1 lib ciphertext.c1
  let R ← lib.multiply c1 k.value
  let text := (← hexToBytes (g1ToHex lib R)) ++ (← hexToBytes ciphertext.c1) ++ (← hexToBytes combinedShareHex)
  let e : Int := fromBeBytes (sha256 text).toList % BN254_FR_MODULUS
  let s := mod (k.value + e * privateKey)
  return g1ToHex lib R ++ String.ofList (padStart 64 '0' (toString16 s))

/-- The proof is not looked at. -/
def verifyTallyProof (ciphertext : Ciphertext) (combinedShareHex : String) (decryptedTally : Int)
    (_proofHex : String) : Option Bool := tallyMatches lib ciphertext combinedShareHex decryptedTally

/-! ## The coordinator -/

structure AuthorityInfo where
  index : Nat
  address : String
  vssCommitments : List String

structure DkgRound where
  thresholdN : Nat
  thresholdT : Nat
  authorities : List AuthorityInfo := []
  jointPublicKey : String := ""

/-- What `ProtocolState` holds of one election. -/
structure ProtocolState where
  round : Option DkgRound := none
  encryptedVotes : List Ciphertext := []
  decryptionShares : List DecryptionShare := []

namespace ProtocolState

def getOrCreateRound (s : ProtocolState) (thresholdN thresholdT : Nat) : DkgRound :=
  s.round.getD { thresholdN, thresholdT }

/-- A `Map` keeps the place of a key that it has. -/
def addDecryptionShare (s : ProtocolState) (share : DecryptionShare) : ProtocolState :=
  if s.decryptionShares.any (·.authorityIndex = share.authorityIndex) = true then
    { s with
      decryptionShares := s.decryptionShares.map fun old =>
        if old.authorityIndex = share.authorityIndex then share else old }
  else { s with decryptionShares := s.decryptionShares ++ [share] }

def initializeDKG (s : ProtocolState) (thresholdN thresholdT : Nat) : ProtocolState :=
  { s with round := some (s.getOrCreateRound thresholdN thresholdT) }

def registerAuthority (s : ProtocolState) (authorityAddress : String) (secret : Scalar) (randoms : Nat → Scalar) :
    Option (ProtocolState × Dealing) := do
  let round := s.getOrCreateRound 0 0
  let dealing ← generateDKGShares lib round.thresholdT round.thresholdN secret randoms
  let authority : AuthorityInfo :=
    { index := round.authorities.length, address := authorityAddress, vssCommitments := dealing.commitments }
  return ({ s with round := some { round with authorities := round.authorities ++ [authority] } }, dealing)

def finalizeDKG (s : ProtocolState) : Option ProtocolState := do
  let round ← s.round
  let jointPublicKey ← computeJointPublicKey lib (round.authorities.map AuthorityInfo.vssCommitments)
  return { s with round := some { round with jointPublicKey } }

def encryptAndSubmitVote (s : ProtocolState) (voteChoice : Int) (r : Scalar) : Option ProtocolState := do
  let round ← s.round
  if round.jointPublicKey = "" then none
  let ciphertext ← encryptVote lib round.jointPublicKey voteChoice r
  return { s with encryptedVotes := s.encryptedVotes ++ [ciphertext] }

def computeEncryptedTally (s : ProtocolState) : Option Ciphertext := aggregateTally lib s.encryptedVotes

def generateAuthorityDecryptionShare (s : ProtocolState) (authorityAddress : String) (privateKeyShare : Nat)
    (encryptedTally : Ciphertext) : Option ProtocolState := do
  let shareHex ← generateDecryptionShare lib encryptedTally privateKeyShare
  let round ← s.round
  let authority ← round.authorities.find? fun a => a.address = authorityAddress
  return s.addDecryptionShare { authorityIndex := authority.index, shareHex }

structure TallyResult where
  tally : Nat
  proof : String
  combinedShare : String

def computeFinalTally (s : ProtocolState) (encryptedTally : Ciphertext) (k : Scalar) : Option TallyResult := do
  let round ← s.round
  if s.decryptionShares.length < round.thresholdT then none
  let combinedShare ← combineDecryptionShares lib s.decryptionShares
  let tally ← decryptTally lib encryptedTally combinedShare
  let proof ← generateTallyProof lib encryptedTally combinedShare tally 0 k
  return { tally, proof, combinedShare }

end ProtocolState

/-! ## An honest election -/

/-- What an authority deals from. -/
structure Dealer where
  address : String
  secret : Scalar
  randoms : Nat → Scalar

def Dealer.coeffs (d : Dealer) (t : Nat) : List Nat := generatePolynomial d.secret (t - 1) d.randoms

/-- The key ceremony of `n` authorities, votes with their random scalars, and those who make decryption shares. -/
structure Election where
  n : Nat
  t : Nat
  dealers : List Dealer
  votes : List (Bool × Scalar)
  holders : List Nat
  /-- The random scalar of the proof. -/
  k : Scalar
  t_pos : 1 ≤ t
  t_le : t ≤ n
  n_lt : n < 2 ^ 32
  length_dealers : dealers.length = n
  addresses_nodup : (dealers.map Dealer.address).Nodup
  votes_ne_nil : votes ≠ []
  holders_nodup : holders.Nodup
  holders_lt : ∀ j ∈ holders, j < n
  enough : t ≤ holders.length
  ones_lt : votes.countP (fun v => v.1) < 100000

def register (lib : G1 Q) (acc : ProtocolState × List Dealing) (d : Dealer) :
    Option (ProtocolState × List Dealing) := do
  let (s, dealing) ← acc.1.registerAuthority lib d.address d.secret d.randoms
  return (s, acc.2 ++ [dealing])

/-- The sum of what the authority has received. -/
def keyShare (dealings : List Dealing) (j : Nat) : Nat := sumShares (dealings.map fun d => d.shares.getD j 0)

namespace Election
variable (e : Election)

def ones : Nat := e.votes.countP fun v => v.1

def share (lib : G1 Q) (dealings : List Dealing) (encryptedTally : Ciphertext) (s : ProtocolState) (j : Nat) :
    Option ProtocolState := do
  let holder ← e.dealers[j]?
  s.generateAuthorityDecryptionShare lib holder.address (keyShare dealings j) encryptedTally

/-- The encrypted tally and what `computeFinalTally` makes of it. -/
def run : Option (Ciphertext × ProtocolState.TallyResult) := do
  let (s, dealings) ← e.dealers.foldlM (register lib) (({} : ProtocolState).initializeDKG e.n e.t, [])
  let s ← s.finalizeDKG lib
  let s ← e.votes.foldlM (fun s v => s.encryptAndSubmitVote lib (if v.1 = true then 1 else 0) v.2) s
  let encryptedTally ← s.computeEncryptedTally lib
  let s ← e.holders.foldlM (e.share lib dealings encryptedTally) s
  let result ← s.computeFinalTally lib encryptedTally e.k
  return (encryptedTally, result)

end Election

end ZkVote.ThresholdElGamal
