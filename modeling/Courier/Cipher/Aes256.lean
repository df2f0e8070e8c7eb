import Courier.Bytes

/-!
# The block cipher AES-256

Encryption of one block of 16 bytes under a key of 32 bytes. The substitution is computed from the
field of 256 elements, once, and a round reads it through one table that also mixes the columns.
-/
namespace Courier.Cipher.Aes256
open Courier.Bytes

/-- Multiplication by the element `x` of the field modulo x⁸ + x⁴ + x³ + x + 1. -/
def double (b : UInt8) : UInt8 :=
  (b <<< 1) ^^^ (if b ≥ 0x80 then 0x1b else 0)

/-- The product of two field elements, one bit of `a` at a time. -/
def times (a b : UInt8) : UInt8 :=
  ((List.range 8).foldl
    (fun (acc, p) i => (if (a >>> i.toUInt8) &&& 1 = 1 then acc ^^^ p else acc, double p))
    ((0 : UInt8), b)).1

/-- The inverse of a field element is its power 254, and zero stays zero. -/
def inverse (a : UInt8) : UInt8 :=
  (List.range 253).foldl (fun acc _ => times acc a) a

def rotateByte (x n : UInt8) : UInt8 := (x <<< n) ||| (x >>> (8 - n))

/-- The substitution of one byte: its inverse, then an affine map of the bits. -/
def substitute (a : UInt8) : UInt8 :=
  let x := inverse a
  x ^^^ rotateByte x 1 ^^^ rotateByte x 2 ^^^ rotateByte x 3 ^^^ rotateByte x 4 ^^^ 0x63

/-- The substitution of every byte. -/
def substitution : Array UInt8 :=
  ((List.range 256).map fun i => substitute i.toUInt8).toArray

@[inline] def sub (x : UInt32) : UInt32 :=
  (substitution.getD (x &&& 0xff).toNat 0).toUInt32

/-- The substituted byte spread over a column by the factors 2, 1, 1 and 3. -/
def spread : Array UInt32 :=
  ((List.range 256).map fun i =>
    let s := substitute i.toUInt8
    ((double s).toUInt32 <<< 24) ||| (s.toUInt32 <<< 16) ||| (s.toUInt32 <<< 8) |||
      (double s ^^^ s).toUInt32).toArray

@[inline] def mixed (x : UInt32) : UInt32 := spread.getD (x &&& 0xff).toNat 0

@[inline] def rotate (x n : UInt32) : UInt32 := (x >>> n) ||| (x <<< (32 - n))

/-- A block as four columns. -/
structure Block where
  c0 : UInt32
  c1 : UInt32
  c2 : UInt32
  c3 : UInt32
  deriving BEq, DecidableEq

def Block.bytes (b : Block) : ByteArray :=
  ofUInt32 b.c0 ++ ofUInt32 b.c1 ++ ofUInt32 b.c2 ++ ofUInt32 b.c3

@[inline] def Block.xor (a b : Block) : Block :=
  ⟨a.c0 ^^^ b.c0, a.c1 ^^^ b.c1, a.c2 ^^^ b.c2, a.c3 ^^^ b.c3⟩

/-- The substitution of the four bytes of a word. -/
def subWord (w : UInt32) : UInt32 :=
  (sub (w >>> 24) <<< 24) ||| (sub (w >>> 16) <<< 16) ||| (sub (w >>> 8) <<< 8) ||| sub w

/-- The constant of the `i`-th round of the key expansion: powers of `x`. -/
def roundConstant (i : Nat) : UInt32 :=
  ((List.range (i - 1)).foldl (fun c _ => double c) 1).toUInt32 <<< 24

/-- One more word of the expanded key. -/
def expandWord (w : Array UInt32) : Array UInt32 :=
  let i := w.size
  let t := w.getD (i - 1) 0
  let t :=
    if i % 8 = 0 then subWord (rotate t 24) ^^^ roundConstant (i / 8)
    else if i % 8 = 4 then subWord t
    else t
  w.push (w.getD (i - 8) 0 ^^^ t)

/-- The fifteen round keys of a key of 32 bytes. -/
def expandKey (key : ByteArray) : Array Block :=
  let w := (List.range 52).foldl (fun w _ => expandWord w)
    ((List.range 8).map fun i => uint32At key (4 * i)).toArray
  ((List.range 15).map fun r =>
    ⟨w.getD (4 * r) 0, w.getD (4 * r + 1) 0, w.getD (4 * r + 2) 0, w.getD (4 * r + 3) 0⟩).toArray

def Block.zero : Block := ⟨0, 0, 0, 0⟩

/-- One column of a full round: rows shifted, bytes substituted, column mixed. -/
@[inline] def column (a b c d : UInt32) : UInt32 :=
  mixed (a >>> 24) ^^^ rotate (mixed (b >>> 16)) 8 ^^^ rotate (mixed (c >>> 8)) 16 ^^^
    rotate (mixed d) 24

@[inline] def Block.fullRound (s k : Block) : Block :=
  ⟨column s.c0 s.c1 s.c2 s.c3 ^^^ k.c0, column s.c1 s.c2 s.c3 s.c0 ^^^ k.c1,
    column s.c2 s.c3 s.c0 s.c1 ^^^ k.c2, column s.c3 s.c0 s.c1 s.c2 ^^^ k.c3⟩

/-- One column of the last round, which does not mix. -/
@[inline] def lastColumn (a b c d : UInt32) : UInt32 :=
  (sub (a >>> 24) <<< 24) ||| (sub (b >>> 16) <<< 16) ||| (sub (c >>> 8) <<< 8) ||| sub d

def Block.lastRound (s k : Block) : Block :=
  ⟨lastColumn s.c0 s.c1 s.c2 s.c3 ^^^ k.c0, lastColumn s.c1 s.c2 s.c3 s.c0 ^^^ k.c1,
    lastColumn s.c2 s.c3 s.c0 s.c1 ^^^ k.c2, lastColumn s.c3 s.c0 s.c1 s.c2 ^^^ k.c3⟩

/-- The encryption of one block under expanded keys. -/
def encrypt (keys : Array Block) (b : Block) : Block :=
  let s := b.xor (keys.getD 0 Block.zero)
  let s := (List.range 13).foldl (fun s r => s.fullRound (keys.getD (r + 1) Block.zero)) s
  s.lastRound (keys.getD 14 Block.zero)

end Courier.Cipher.Aes256
