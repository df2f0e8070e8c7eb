import Courier.Request
import Courier.Wire.Record.Lemmas

/-!
# Request headers read back

`decode_encode`: a header that is written as a record is read back from it, whatever stands behind.
-/
namespace Courier.RequestHeader
open Wire.Record

theorem read_inverts {h : RequestHeader} (hlen : h.encode.length < 2 ^ 64) :
    Inverts read encode h := by
  intro rest
  have ht := size_le_length_text h.traceId
  have hc := size_le_length_text h.caller
  have he := size_le_length_text h.callee
  have hi := size_le_length_text h.ip
  have hs := size_le_length_text h.sign
  simp only [encode, List.length_append] at hlen
  simp only [encode, read, List.append_assoc]
  rw [(word32_inverts _).run_bind, (word32_inverts _).run_bind, (mode_inverts _).run_bind,
    (word64_inverts _).run_bind, (text_inverts (by omega)).run_bind, (word64_inverts _).run_bind,
    (word32_inverts _).run_bind, (text_inverts (by omega)).run_bind,
    (text_inverts (by omega)).run_bind, (word64_inverts _).run_bind,
    (text_inverts (by omega)).run_bind, (word32_inverts _).run_bind, (flag_inverts _).run_bind,
    (text_inverts (by omega)).run_bind]
  rfl

theorem decode_encode {h : RequestHeader} (hlen : h.encode.length < 2 ^ 64) (rest : List UInt8) :
    decode (Bytes.ofList (h.encode ++ rest)) = .ok h := by
  have := read_inverts hlen rest
  simp only [decode, Bytes.ofList]
  rw [this]

end Courier.RequestHeader
