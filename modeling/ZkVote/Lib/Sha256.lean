import ZkVote.Lib.Bytes

/-!
# SHA-256

The hash function itself, so that a run can be computed. Words are numbers below 2^32.
-/

namespace Lib

namespace Sha256

def wrap (x : Nat) : Nat := x % 2 ^ 32

def rotr (x n : Nat) : Nat := wrap (x >>> n ||| x <<< (32 - n))

/-- The eight working variables. -/
structure Working where
  a : Nat
  b : Nat
  c : Nat
  d : Nat
  e : Nat
  f : Nat
  g : Nat
  h : Nat

def initial : Working where
  a := 0x6a09e667
  b := 0xbb67ae85
  c := 0x3c6ef372
  d := 0xa54ff53a
  e := 0x510e527f
  f := 0x9b05688c
  g := 0x1f83d9ab
  h := 0x5be0cd19

def constants : List Nat :=
  [0x428a2f98, 0x71374491, 0xb5c0fbcf, 0xe9b5dba5, 0x3956c25b, 0x59f111f1, 0x923f82a4, 0xab1c5ed5,
    0xd807aa98, 0x12835b01, 0x243185be, 0x550c7dc3, 0x72be5d74, 0x80deb1fe, 0x9bdc06a7, 0xc19bf174,
    0xe49b69c1, 0xefbe4786, 0x0fc19dc6, 0x240ca1cc, 0x2de92c6f, 0x4a7484aa, 0x5cb0a9dc, 0x76f988da,
    0x983e5152, 0xa831c66d, 0xb00327c8, 0xbf597fc7, 0xc6e00bf3, 0xd5a79147, 0x06ca6351, 0x14292967,
    0x27b70a85, 0x2e1b2138, 0x4d2c6dfc, 0x53380d13, 0x650a7354, 0x766a0abb, 0x81c2c92e, 0x92722c85,
    0xa2bfe8a1, 0xa81a664b, 0xc24b8b70, 0xc76c51a3, 0xd192e819, 0xd6990624, 0xf40e3585, 0x106aa070,
    0x19a4c116, 0x1e376c08, 0x2748774c, 0x34b0bcb5, 0x391c0cb3, 0x4ed8aa4a, 0x5b9cca4f, 0x682e6ff3,
    0x748f82ee, 0x78a5636f, 0x84c87814, 0x8cc70208, 0x90befffa, 0xa4506ceb, 0xbef9a3f7, 0xc67178f2]

/-- One round, with its constant and its word of the message schedule. -/
def round (v : Working) (k w : Nat) : Working :=
  let s1 := rotr v.e 6 ^^^ rotr v.e 11 ^^^ rotr v.e 25
  let ch := (v.e &&& v.f) ^^^ ((2 ^ 32 - 1 - v.e) &&& v.g)
  let t1 := v.h + s1 + ch + k + w
  let s0 := rotr v.a 2 ^^^ rotr v.a 13 ^^^ rotr v.a 22
  let maj := (v.a &&& v.b) ^^^ (v.a &&& v.c) ^^^ (v.b &&& v.c)
  { a := wrap (t1 + s0 + maj), b := v.a, c := v.b, d := v.c
    e := wrap (v.d + t1), f := v.e, g := v.f, h := v.g }

/-- The word that follows, the last words of the schedule first. -/
def nextWord (ws : List Nat) : Nat :=
  let w2 := ws.getD 1 0
  let w15 := ws.getD 14 0
  let s0 := rotr w15 7 ^^^ rotr w15 18 ^^^ w15 >>> 3
  let s1 := rotr w2 17 ^^^ rotr w2 19 ^^^ w2 >>> 10
  wrap (ws.getD 15 0 + s0 + ws.getD 6 0 + s1)

def extend : Nat → List Nat → List Nat
  | 0, ws => ws
  | n + 1, ws => extend n (nextWord ws :: ws)

/-- The 64 words that a block of sixteen is extended to. -/
def schedule (block : List Nat) : List Nat := (extend 48 block.reverse).reverse

def rounds : List Nat → List Nat → Working → Working
  | k :: ks, w :: ws, v => rounds ks ws (round v k w)
  | _, _, v => v

def compress (v : Working) (block : List Nat) : Working :=
  let v' := rounds constants (schedule block) v
  { a := wrap (v.a + v'.a), b := wrap (v.b + v'.b), c := wrap (v.c + v'.c), d := wrap (v.d + v'.d)
    e := wrap (v.e + v'.e), f := wrap (v.f + v'.f), g := wrap (v.g + v'.g), h := wrap (v.h + v'.h) }

/-- The message, a one, zeros up to a whole block, and the length in bits. -/
def pad (m : Bytes) : Bytes :=
  m ++ 0x80 :: List.replicate ((119 - m.length % 64) % 64) 0 ++ toBeBytes 8 (8 * m.length)

def words : Bytes → List Nat
  | a :: b :: c :: d :: bs => fromBeBytes [a, b, c, d] :: words bs
  | _ => []

/-- The blocks of sixteen words, one after the other. -/
def blocks : Nat → List Nat → Working → Working
  | 0, _, v => v
  | n + 1, ws, v => blocks n (ws.drop 16) (compress v (ws.take 16))

def digest (v : Working) : BytesN 32 :=
  let word (w : Nat) : BytesN 4 := #v[UInt8.ofNat (w >>> 24), UInt8.ofNat (w >>> 16), UInt8.ofNat (w >>> 8),
    UInt8.ofNat w]
  word v.a ++ word v.b ++ word v.c ++ word v.d ++ word v.e ++ word v.f ++ word v.g ++ word v.h

end Sha256

def sha256 (m : Bytes) : BytesN 32 :=
  let padded := Sha256.pad m
  Sha256.digest (Sha256.blocks (padded.length / 64) (Sha256.words padded) Sha256.initial)

example : (sha256 [0x61, 0x62, 0x63]).toList.take 4 = [0xba, 0x78, 0x16, 0xbf] := by
  decide +kernel

/-- The HMAC of a message under a key. -/
def hmacSha256 (key message : Bytes) : Bytes :=
  let short := if 64 < key.length then (sha256 key).toList else key
  let block := short ++ List.replicate (64 - short.length) 0
  (sha256 (block.map (· ^^^ 0x5c) ++ (sha256 (block.map (· ^^^ 0x36) ++ message)).toList)).toList

theorem length_hmacSha256 (key message : Bytes) : (hmacSha256 key message).length = 32 := Vector.length_toList

end Lib
