import Courier.Bytes
import Courier.Fault

/-!
# Frames

A frame is a head of ten bytes, a header segment and a body. The head tells the type of the frame,
its total length and the length of the header segment. Frames are at most 10 MiB long, and a frame
that is taken apart has a header segment of at least one byte.
-/
namespace Courier

inductive FrameType
  | plain
  | signature
  | encrypt
  deriving DecidableEq, Repr, Inhabited

namespace FrameType

def byte : FrameType → UInt8
  | plain => 0
  | signature => 1
  | encrypt => 2

def ofByte? : UInt8 → Option FrameType
  | 0 => some plain
  | 1 => some signature
  | 2 => some encrypt
  | _ => none

@[simp] theorem ofByte?_byte (t : FrameType) : ofByte? t.byte = some t := by
  cases t <;> rfl

theorem byte_of_ofByte? {b : UInt8} {t : FrameType} (h : ofByte? b = some t) : t.byte = b := by
  unfold ofByte? at h
  split at h <;> simp_all [byte]
  all_goals subst h; rfl

end FrameType

namespace Frame

def headSize : Nat := 10

def maxSize : Nat := 10 * 1024 * 1024

/-- The first byte of every frame. -/
def magic : UInt8 := 0x48

def currentVersion : UInt8 := 1

end Frame

structure FrameHead where
  type : FrameType := .plain
  version : UInt8 := Frame.currentVersion
  flags : UInt8 := 0
  totalLength : UInt32 := 0
  headerLength : UInt16 := 0
  deriving DecidableEq, Repr

namespace FrameHead
open Courier.Frame

/-- The ten bytes of a head. -/
def bytes (h : FrameHead) : ByteArray :=
  Bytes.ofList [magic, h.type.byte, h.version, h.flags] ++ Bytes.ofUInt32 h.totalLength ++
    Bytes.ofUInt16 h.headerLength

@[simp] theorem size_bytes (h : FrameHead) : h.bytes.size = headSize := by
  simp [bytes, headSize]

/-- The head at the front of `buf`. -/
def extract (buf : ByteArray) : Except Fault FrameHead :=
  if buf.size < headSize then
    .error (.decode ("frame buf len " ++ toString buf.size ++ " shorter than frame head len " ++
      toString headSize))
  else if Bytes.byteAt buf 0 ≠ magic then
    .error (.decode ("invalid frame magic 0x" ++
      String.ofList (Bytes.hexByte (Bytes.byteAt buf 0))))
  else
    match FrameType.ofByte? (Bytes.byteAt buf 1) with
    | none => .error (.decode ("unknown frame type " ++ toString (Bytes.byteAt buf 1).toNat))
    | some type =>
      .ok { type
            version := Bytes.byteAt buf 2
            flags := Bytes.byteAt buf 3
            totalLength := Bytes.uint32At buf 4
            headerLength := Bytes.uint16At buf 8 }

end FrameHead

/-- The head with the lengths of the two parts, and the frame. -/
structure Frame.Built where
  head : FrameHead
  frame : ByteArray

/-- A frame taken apart. -/
structure Frame.Parts where
  head : FrameHead
  header : ByteArray
  body : ByteArray

namespace Frame

/-- The frame of a header segment and a body, unless one of them is too long. -/
def construct (head : FrameHead) (header body : ByteArray) : Except Fault Built :=
  let total := headSize + header.size + body.size
  if header.size > 0xffff then
    .error (.encode ("frame header segment too large: " ++ toString header.size ++ " bytes"))
  else if total > maxSize then
    .error (.encode ("frame too large: " ++ toString total ++ " bytes (max " ++ toString maxSize ++
      " bytes)"))
  else
    let head := { head with totalLength := total.toUInt32, headerLength := header.size.toUInt16 }
    .ok ⟨head, head.bytes ++ header ++ body⟩

/-- The frame of `type`, a header segment and a body. -/
def build (type : FrameType) (header body : ByteArray) : Except Fault ByteArray :=
  match construct { type } header body with
  | .ok built => .ok built.frame
  | .error e => .error e

/-- Takes a whole frame apart. -/
def split (buf : ByteArray) : Except Fault Parts :=
  match FrameHead.extract buf with
  | .error e => .error e
  | .ok head =>
    let stop := headSize + head.headerLength.toNat
    if head.totalLength.toNat ≠ buf.size then
      .error (.decode ("total len " ++ toString head.totalLength.toNat ++
        " is not actual buf len " ++ toString buf.size))
    else if head.headerLength = 0 then
      .error (.decode "frame header segment len empty")
    else if stop > buf.size then
      .error (.decode ("frame header segment len " ++ toString head.headerLength.toNat ++
        " out of bounds for frame of " ++ toString buf.size ++ " bytes"))
    else
      .ok ⟨head, buf.extract headSize stop, buf.extract stop buf.size⟩

end Frame

end Courier
