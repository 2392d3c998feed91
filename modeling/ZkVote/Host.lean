import ZkVote.Lib.Outcome
import ZkVote.Lib.Bytes

/-!
# The host

What a Soroban contract sees of the ledger it runs on. Storage never expires
here: `extend_ttl` does nothing to an entry that is there, and traps on one that is not.
-/

open Lib Lib.Outcome

namespace ZkVote

abbrev Address := Nat

/-- A 256-bit word. Contracts only compare, hash and range-check it. -/
abbrev U256 := Nat

abbrev Symbol := String

/-- The host environment of one call. -/
structure Env where
  timestamp : Nat
  sequence : Nat
  /-- The addresses whose authorisation the call carries. -/
  auths : Address → Bool

/-- A call that everyone has signed. -/
def Env.signedAt (timestamp : Nat) : Env where
  timestamp := timestamp
  sequence := 1
  auths := fun _ => true

variable {ε : Type}

def require_auth (env : Env) (a : Address) : Outcome ε Unit := trapUnless (env.auths a = true)

@[simp] theorem require_auth_eq_ok {env : Env} {a : Address} {u : Unit} :
    (require_auth env a : Outcome ε Unit) = .ok u ↔ env.auths a = true := by
  simp [require_auth]

/-- `extend_ttl` on an entry that may be missing. -/
def extend_ttl (present : Bool) : Outcome ε Unit := trapUnless (present = true)

@[simp] theorem extend_ttl_eq_ok {present : Bool} {u : Unit} :
    (extend_ttl present : Outcome ε Unit) = .ok u ↔ present = true := by
  simp [extend_ttl]

/-- The host's hash functions. -/
structure Hashes where
  sha256 : Bytes → BytesN 32
  /-- Two-input Poseidon over the named field. -/
  poseidon : Symbol → U256 → U256 → U256

/-- `U256::to_be_bytes`. -/
def U256.to_be_bytes (x : U256) : Bytes := toBeBytes 32 x

def u32Max : Nat := 2 ^ 32 - 1
def u64Max : Nat := 2 ^ 64 - 1

end ZkVote
