import Courier.Bytes

/-!
# SHA-256

The secure hash of 32 bytes: the message is padded to whole blocks of 64 bytes, each block is spread
over 64 schedule words, and 64 rounds mix them into eight words of state.
-/
namespace Courier.Digest.Sha256
open Courier.Bytes

/-- The eight working words. -/
structure State where
  a : UInt32
  b : UInt32
  c : UInt32
  d : UInt32
  e : UInt32
  f : UInt32
  g : UInt32
  h : UInt32

/-- The fractional parts of the square roots of the first eight primes. -/
def State.initial : State :=
  ⟨0x6a09e667, 0xbb67ae85, 0x3c6ef372, 0xa54ff53a, 0x510e527f, 0x9b05688c, 0x1f83d9ab, 0x5be0cd19⟩

/-- The fractional parts of the cube roots of the first 64 primes. -/
def roundWords : Array UInt32 := #[
  0x428a2f98, 0x71374491, 0xb5c0fbcf, 0xe9b5dba5, 0x3956c25b, 0x59f111f1, 0x923f82a4, 0xab1c5ed5,
  0xd807aa98, 0x12835b01, 0x243185be, 0x550c7dc3, 0x72be5d74, 0x80deb1fe, 0x9bdc06a7, 0xc19bf174,
  0xe49b69c1, 0xefbe4786, 0x0fc19dc6, 0x240ca1cc, 0x2de92c6f, 0x4a7484aa, 0x5cb0a9dc, 0x76f988da,
  0x983e5152, 0xa831c66d, 0xb00327c8, 0xbf597fc7, 0xc6e00bf3, 0xd5a79147, 0x06ca6351, 0x14292967,
  0x27b70a85, 0x2e1b2138, 0x4d2c6dfc, 0x53380d13, 0x650a7354, 0x766a0abb, 0x81c2c92e, 0x92722c85,
  0xa2bfe8a1, 0xa81a664b, 0xc24b8b70, 0xc76c51a3, 0xd192e819, 0xd6990624, 0xf40e3585, 0x106aa070,
  0x19a4c116, 0x1e376c08, 0x2748774c, 0x34b0bcb5, 0x391c0cb3, 0x4ed8aa4a, 0x5b9cca4f, 0x682e6ff3,
  0x748f82ee, 0x78a5636f, 0x84c87814, 0x8cc70208, 0x90befffa, 0xa4506ceb, 0xbef9a3f7, 0xc67178f2]

@[inline] def rotate (x n : UInt32) : UInt32 := (x >>> n) ||| (x <<< (32 - n))

/-- The sixteen words of the block that starts at `off`. -/
def blockWords (msg : ByteArray) (off : Nat) : Array UInt32 :=
  (List.range 16).foldl (fun w i => w.push (uint32At msg (off + 4 * i)))
    (Array.emptyWithCapacity 64)

/-- The next schedule word is mixed from the words 2, 7, 15 and 16 places back. -/
def extend (w : Array UInt32) : Array UInt32 :=
  let x := w.getD (w.size - 15) 0
  let y := w.getD (w.size - 2) 0
  let s0 := rotate x 7 ^^^ rotate x 18 ^^^ (x >>> 3)
  let s1 := rotate y 17 ^^^ rotate y 19 ^^^ (y >>> 10)
  w.push (w.getD (w.size - 16) 0 + s0 + w.getD (w.size - 7) 0 + s1)

/-- All 64 schedule words of the block at `off`. -/
def schedule (msg : ByteArray) (off : Nat) : Array UInt32 :=
  (List.range 48).foldl (fun w _ => extend w) (blockWords msg off)

/-- One round: `k` is the round word and `w` the schedule word. -/
@[inline] def State.round (s : State) (k w : UInt32) : State :=
  let s1 := rotate s.e 6 ^^^ rotate s.e 11 ^^^ rotate s.e 25
  let ch := (s.e &&& s.f) ^^^ ((~~~ s.e) &&& s.g)
  let t1 := s.h + s1 + ch + k + w
  let s0 := rotate s.a 2 ^^^ rotate s.a 13 ^^^ rotate s.a 22
  let maj := (s.a &&& s.b) ^^^ (s.a &&& s.c) ^^^ (s.b &&& s.c)
  ⟨t1 + (s0 + maj), s.a, s.b, s.c, s.d + t1, s.e, s.f, s.g⟩

def State.add (s t : State) : State :=
  ⟨s.a + t.a, s.b + t.b, s.c + t.c, s.d + t.d, s.e + t.e, s.f + t.f, s.g + t.g, s.h + t.h⟩

/-- The state after the block at `off`. -/
def State.absorb (s : State) (msg : ByteArray) (off : Nat) : State :=
  let w := schedule msg off
  s.add ((List.range 64).foldl (fun t i => t.round (roundWords.getD i 0) (w.getD i 0)) s)

/-- A one bit, then zeros up to eight bytes short of a block, then the length in bits. -/
def padded (msg : ByteArray) : ByteArray :=
  msg.push 0x80 ++ replicate ((119 - msg.size % 64) % 64) 0 ++ ofUInt64 (8 * msg.size).toUInt64

def State.bytes (s : State) : ByteArray :=
  ofUInt32 s.a ++ ofUInt32 s.b ++ ofUInt32 s.c ++ ofUInt32 s.d ++
    ofUInt32 s.e ++ ofUInt32 s.f ++ ofUInt32 s.g ++ ofUInt32 s.h

@[simp] theorem State.size_bytes (s : State) : s.bytes.size = 32 := by
  simp [State.bytes]

/-- The states after each of `n` blocks from `off` on, the last one kept. -/
def absorbAll (msg : ByteArray) : Nat → Nat → State → State
  | 0, _, s => s
  | n + 1, off, s => absorbAll msg n (off + 64) (s.absorb msg off)

/-- The 32 bytes of the hash of `msg`. -/
def hash (msg : ByteArray) : ByteArray :=
  let p := padded msg
  (absorbAll p (p.size / 64) 0 State.initial).bytes

@[simp] theorem size_hash (msg : ByteArray) : (hash msg).size = 32 := by
  simp [hash]

end Courier.Digest.Sha256
