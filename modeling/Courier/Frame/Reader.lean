import Courier.Frame

/-!
# Reading frames from a stream

A reader collects the ten bytes of a head, learns the total length from it, and then collects the
rest. It takes no more bytes from the stream than the frame has, so the next frame begins where one
ends; of a frame that it refuses it has taken the head. A stream delivers its bytes in pieces of any
size.
-/
namespace Courier.Frame

/-- Reads one frame of at most `limit` bytes; `got` is what it has of it. -/
structure Reader where
  limit : Nat
  got : ByteArray

/-- After some bytes a reader needs more, has the frame, or refuses it. -/
inductive Reader.Next
  | more (r : Reader)
  | frame (buf : ByteArray)
  | fault (f : Fault)

namespace Reader

def start (limit : Nat) : Reader := ⟨limit, .empty⟩

/-- The total length that a complete head declares. -/
def declared (got : ByteArray) : Nat := (Bytes.uint32At got 4).toNat

/-- A head must declare a length from ten bytes up to the limit. -/
def checkLength (limit total : Nat) : Except Fault Unit :=
  if total < headSize then
    .error (.decode ("frame total len " ++ toString total ++ " shorter than frame head len " ++
      toString headSize))
  else if total > limit then
    .error (.decode ("frame too large: " ++ toString total ++ " bytes (max " ++ toString limit ++
      " bytes)"))
  else .ok ()

/-- Takes bytes behind a complete head; what the frame does not need is left over. -/
def feedRest (r : Reader) (piece : ByteArray) : Next × ByteArray :=
  let need := declared r.got - r.got.size
  let got := r.got ++ piece.extract 0 need
  if piece.size < need then (.more { r with got }, .empty)
  else (.frame got, piece.extract need piece.size)

/-- Takes a piece of the stream; what the frame does not need is left over. -/
def feed (r : Reader) (piece : ByteArray) : Next × ByteArray :=
  if r.got.size < headSize then
    let need := headSize - r.got.size
    let got := r.got ++ piece.extract 0 need
    if piece.size < need then (.more { r with got }, .empty)
    else
      let left := piece.extract need piece.size
      match checkLength r.limit (declared got) with
      | .error e => (.fault e, left)
      | .ok () => feedRest { r with got } left
  else r.feedRest piece

end Reader

/-- What a stream delivers next: some bytes, nothing yet, or a failure of this read, behind which
later reads may succeed. -/
inductive Delivery
  | bytes (piece : ByteArray)
  | pending
  | fails (e : IoError)

/-- What is left of a piece stands in front of the other deliveries. -/
def Delivery.leave (left : ByteArray) (rest : List Delivery) : List Delivery :=
  if left.size = 0 then rest else .bytes left :: rest

/-- Reads one frame and leaves the deliveries that are not used up. A read that fails ends it, and
so does a read of no bytes, which is the end of the stream. -/
def Reader.run (r : Reader) : List Delivery → Except Fault ByteArray × List Delivery
  | [] => (.error (.io .earlyEnd), [])
  | .pending :: rest => r.run rest
  | .fails e :: rest => (.error (.io e), rest)
  | .bytes piece :: rest =>
    if piece.size = 0 then (.error (.io .earlyEnd), rest)
    else
      match r.feed piece with
      | (.more r, _) => r.run rest
      | (.frame buf, left) => (.ok buf, Delivery.leave left rest)
      | (.fault f, left) => (.error f, Delivery.leave left rest)

/-- A stream that is interrupted reads again by itself, and delivers no empty pieces. -/
def Delivery.isHeard : Delivery → Bool
  | .bytes piece => piece.size ≠ 0
  | .pending => true
  | .fails e => e.kind ≠ .interrupted

/-- Reads one frame from such a stream. -/
def Reader.read (r : Reader) (ds : List Delivery) : Except Fault ByteArray × List Delivery :=
  r.run (ds.filter Delivery.isHeard)

/-- Reads `n` frames one after the other; a read that fails keeps what it took. -/
def readMany (limit : Nat) : Nat → List Delivery → List (Except Fault ByteArray)
  | 0, _ => []
  | n + 1, ds =>
    let (result, rest) := (Reader.start limit).read ds
    result :: readMany limit n rest

end Courier.Frame
