import Courier.Response
import Courier.Wire.Record.Lemmas

/-!
# Response headers read back

`decode_encode`: a header that is written as a record is read back from it, whatever stands behind.
-/
namespace Courier.ResponseHeader
open Wire.Record

theorem readError_inverts {e : ServiceError} (hlen : (encodeError e).length < 2 ^ 64) :
    Inverts readError encodeError e := by
  intro rest
  have hm := size_le_length_text e.message
  have hs := size_le_length_text e.statement
  simp only [encodeError, List.length_append] at hlen
  simp only [encodeError, readError, List.append_assoc]
  rw [(int32_inverts _).run_bind, (int32_inverts _).run_bind, (text_inverts (by omega)).run_bind,
    (text_inverts (by omega)).run_bind]
  rfl

theorem readOptionError_inverts {o : Option ServiceError}
    (hlen : (option encodeError o).length < 2 ^ 64) :
    Inverts (readOption readError) (option encodeError) o := by
  refine option_inverts fun e he => readError_inverts ?_
  subst he
  simp only [option, List.length_cons] at hlen
  omega

theorem read_inverts {h : ResponseHeader} (hlen : h.encode.length < 2 ^ 64) :
    Inverts read encode h := by
  intro rest
  have ht := size_le_length_text h.traceId
  simp only [encode, List.length_append] at hlen
  simp only [encode, read, List.append_assoc]
  rw [(word32_inverts _).run_bind, (mode_inverts _).run_bind, (word64_inverts _).run_bind,
    (text_inverts (by omega)).run_bind, (word64_inverts _).run_bind, (flag_inverts _).run_bind,
    (readOptionError_inverts (by omega)).run_bind,
    (map_inverts_of_length (by omega) fun _ _ => readError_inverts).run_bind,
    (map_inverts_of_length (by omega) fun e _ _ => flag_inverts e.2).run_bind]
  rfl

theorem decode_encode {h : ResponseHeader} (hlen : h.encode.length < 2 ^ 64)
    (rest : List UInt8) : decode (Bytes.ofList (h.encode ++ rest)) = .ok h := by
  have := read_inverts hlen rest
  simp only [decode, Bytes.ofList]
  rw [this]

end Courier.ResponseHeader
