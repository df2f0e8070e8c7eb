import Courier.Pool.Slots
import Courier.Proofs.Frame.Whole

/-!
# Lines between a client and a peer

A line is what lies between the two ends of a connection: bytes on their way in each direction, and
what the peer has received and not sent yet. Each byte for the peer bears the number of the call
that wrote it. A peer answers each request frame that it has received by one response frame, in
order, and sends nothing else; it may stall, and it may go at any time, in the middle of a frame
too. What it has answered is written down.
-/
namespace Courier.Traffic
open Bytes (toList)
open Courier.Frame (IsWhole)

/-- A byte, with the number of the call that wrote it. -/
abbrev Stamped := Ticket × UInt8

def stamp (t : Ticket) (bytes : List UInt8) : List Stamped := bytes.map (t, ·)

/-- The bytes without their stamps. -/
def content (l : List Stamped) : ByteArray := Bytes.ofList (l.map Prod.snd)

@[simp] theorem stamp_nil (t : Ticket) : stamp t [] = [] := rfl

@[simp] theorem stamp_append (t : Ticket) (a b : List UInt8) :
    stamp t (a ++ b) = stamp t a ++ stamp t b :=
  List.map_append

@[simp] theorem map_stamp (t : Ticket) (bytes : List UInt8) :
    (stamp t bytes).map Prod.snd = bytes := by
  simp [stamp, Function.comp_def]

/-- A request frame and the frame by which a peer has answered it. -/
structure Service where
  request : List Stamped
  response : ByteArray
  isRequest : IsWhole (content request)
  isResponse : IsWhole response

theorem Service.request_ne_nil (s : Service) : s.request ≠ [] := by
  intro h
  have := s.isRequest.head
  simp [h, content, Frame.headSize] at this

/-- A connection between a client and its peer. In its inbox the peer has what it has not answered,
and in its outbox what it has still to send of its responses. -/
structure Line where
  toPeer : List Stamped := []
  inbox : List Stamped := []
  outbox : List UInt8 := []
  toClient : List UInt8 := []
  peerOpen : Bool := true
  served : List Service := []

namespace Line

/-- What a peer does. When it resets the connection, what the client has not read is lost too. -/
inductive Serves : Line → Line → Prop
  | receive (l : Line) (n : Nat) :
      Serves l { l with inbox := l.inbox ++ l.toPeer.take n, toPeer := l.toPeer.drop n }
  | answer {l : Line} {s : Service} {rest : List Stamped} (ho : l.peerOpen = true)
      (hi : l.inbox = s.request ++ rest) :
      Serves l { l with
        inbox := rest
        outbox := l.outbox ++ toList s.response
        served := s :: l.served }
  | send (l : Line) (n : Nat) :
      Serves l { l with toClient := l.toClient ++ l.outbox.take n, outbox := l.outbox.drop n }
  | close (l : Line) : Serves l { l with peerOpen := false, outbox := [] }
  | reset (l : Line) : Serves l { l with peerOpen := false, outbox := [], toClient := [] }

/-- The line of a new connection; nothing is crossed out of the records. -/
def renew (l : Line) : Line := { served := l.served }

/-- No request is outstanding, and no byte is under way or unread. -/
structure IsQuiet (l : Line) : Prop where
  toPeer : l.toPeer = []
  inbox : l.inbox = []
  outbox : l.outbox = []
  toClient : l.toClient = []

/-- The line is used for a request of which `sent` was written, and `got` was read. Either the
request is not answered and there is nothing to read, or it is, and what was read and can be read
still is a front part of the answer. -/
inductive Carries (l : Line) (t : Ticket) (request sent : List UInt8) : List UInt8 → Prop
  | unanswered (hp : l.inbox ++ l.toPeer = stamp t sent) (ho : l.outbox = [])
      (hc : l.toClient = []) : Carries l t request sent []
  | answered {got : List UInt8} {s : Service} (hs : s ∈ l.served) (hr : s.request = stamp t request)
      (hsent : sent = request) (hp : l.toPeer = []) (hi : l.inbox = [])
      (hg : got ++ l.toClient ++ l.outbox <+: toList s.response) : Carries l t request sent got

variable {l l' : Line} {t : Ticket} {request sent got : List UInt8}

theorem isQuiet_renew (l : Line) : l.renew.IsQuiet := ⟨rfl, rfl, rfl, rfl⟩

theorem served_of_serves (h : Serves l l') : l.served ⊆ l'.served := by
  cases h with
  | answer => exact List.subset_cons_self _ _
  | _ => exact List.Subset.refl _

/-- A peer that has nothing to answer keeps the line quiet. -/
theorem IsQuiet.serves (hq : l.IsQuiet) (h : Serves l l') : l'.IsQuiet := by
  obtain ⟨hp, hi, ho, hc⟩ := hq
  cases h with
  | receive n => exact ⟨by simp [hp], by simp [hp, hi], ho, hc⟩
  | @answer s rest hopen hs =>
    have hr : s.request = [] := (List.append_eq_nil_iff.1 (hs ▸ hi)).1
    exact absurd hr s.request_ne_nil
  | send n => exact ⟨hp, hi, by simp [ho], by simp [ho, hc]⟩
  | close => exact ⟨hp, hi, rfl, hc⟩
  | reset => exact ⟨hp, hi, rfl, rfl⟩

/-- A request begins on a quiet line. -/
theorem IsQuiet.carries (hq : l.IsQuiet) (t : Ticket) (request : List UInt8) :
    Carries l t request [] [] :=
  .unanswered (by simp [hq.inbox, hq.toPeer]) hq.outbox hq.toClient

/-- A front part of a request that a peer can answer is the whole request. -/
theorem eq_of_service (hw : IsWhole (Bytes.ofList request)) (hsent : sent <+: request) {s : Service}
    {rest : List Stamped} (hs : s.request ++ rest = stamp t sent) :
    s.request = stamp t request ∧ sent = request ∧ rest = [] := by
  have hl := congrArg (List.map Prod.snd) hs
  rw [List.map_append, map_stamp] at hl
  have hp : s.request.map Prod.snd <+: request := .trans ⟨_, hl⟩ hsent
  have hc : content s.request = Bytes.ofList request := s.isRequest.eq_of_prefix hw hp
  have he : s.request.map Prod.snd = request := congrArg toList hc
  have hr : rest = [] := by
    have h1 := congrArg List.length hl
    have h2 := hsent.length_le
    rw [List.length_append, he, List.length_map] at h1
    exact List.eq_nil_of_length_eq_zero (by omega)
  have hrequest : sent = request := by rw [← hl, hr, he, List.map_nil, List.append_nil]
  rw [hr, List.append_nil, hrequest] at hs
  exact ⟨hs, hrequest, hr⟩

/-- A peer cannot answer a request before all of it was written, and then it answers that
request. -/
theorem Carries.serves (hw : IsWhole (Bytes.ofList request)) (hsent : sent <+: request)
    (hc : Carries l t request sent got) (h : Serves l l') : Carries l' t request sent got := by
  cases hc with
  | unanswered hp ho hc =>
    cases h with
    | receive n => exact .unanswered (by simpa using hp) ho hc
    | @answer s rest hopen hi =>
      rw [hi, List.append_assoc] at hp
      obtain ⟨hr, he, hn⟩ := eq_of_service hw hsent hp
      obtain ⟨hrest, hpeer⟩ := List.append_eq_nil_iff.1 hn
      exact .answered (s := s) List.mem_cons_self hr he hpeer hrest (by simp [ho, hc])
    | send n => exact .unanswered hp (by simp [ho]) (by simp [ho, hc])
    | close => exact .unanswered hp rfl hc
    | reset => exact .unanswered hp rfl rfl
  | @answered _ s hs hr he hp hi hg =>
    cases h with
    | receive n => exact .answered hs hr he (by simp [hp]) (by simp [hp, hi]) hg
    | @answer s' rest hopen hi' =>
      rw [hi'] at hi
      exact absurd (List.append_eq_nil_iff.1 hi).1 s'.request_ne_nil
    | send n => exact .answered hs hr he hp hi (by simpa using hg)
    | close =>
      refine .answered hs hr he hp hi (.trans ?_ hg)
      simp
    | reset =>
      refine .answered hs hr he hp hi (.trans ?_ hg)
      simp

/-- More of the request is written. -/
theorem Carries.write (hc : Carries l t request sent []) {more : List UInt8}
    (hm : sent ++ more <+: request) :
    Carries { l with toPeer := l.toPeer ++ stamp t more } t request (sent ++ more) [] := by
  cases hc with
  | unanswered hp ho hc => exact .unanswered (by simp [← hp]) ho hc
  | @answered _ s hs hr he hp hi hg =>
    have hn : more = [] := by
      have := hm.length_le
      rw [he, List.length_append] at this
      exact List.eq_nil_of_length_eq_zero (by omega)
    subst hn
    exact .answered hs hr (by simpa using he) (by simp [hp]) hi hg

/-- Bytes that are there are read. -/
theorem Carries.read (hc : Carries l t request sent got) {piece rest : List UInt8}
    (h : l.toClient = piece ++ rest) :
    Carries { l with toClient := rest } t request sent (got ++ piece) := by
  cases hc with
  | unanswered hp ho hc =>
    obtain ⟨rfl, rfl⟩ := List.append_eq_nil_iff.1 (h ▸ hc)
    exact .unanswered hp ho rfl
  | answered hs hr he hp hi hg => exact .answered hs hr he hp hi (by simpa [h] using hg)

/-- A whole frame that was read is the answer to the request, and the line is quiet behind it. -/
theorem Carries.finish (hc : Carries l t request sent got) (hw : IsWhole (Bytes.ofList got)) :
    l.IsQuiet ∧ ∃ s ∈ l.served, s.request = stamp t request ∧ toList s.response = got := by
  cases hc with
  | unanswered =>
    have := hw.head
    simp [Frame.headSize] at this
  | @answered _ s hs hr he hp hi hg =>
    have hf := hw.eq_of_prefix s.isResponse (.trans (by simp) hg)
    have hl := congrArg toList hf
    rw [Bytes.toList_ofList] at hl
    have hn := hg.length_le
    rw [← hl] at hn
    simp only [List.length_append] at hn
    refine ⟨⟨hp, hi, List.eq_nil_of_length_eq_zero (by omega),
      List.eq_nil_of_length_eq_zero (by omega)⟩, s, hs, hr, hl.symm⟩

/-- What was read so far is no more than a frame. -/
theorem Carries.isWithin (hc : Carries l t request sent got) {r : Frame.Reader}
    (h : toList r.got = got) : r.IsWithin := by
  intro hh
  cases hc with
  | unanswered =>
    rw [← Bytes.length_toList, h] at hh
    simp [Frame.headSize] at hh
  | @answered _ s hs hr he hp hi hg =>
    have hpre : toList r.got <+: toList s.response := h ▸ .trans (by simp) hg
    rw [Frame.declared_of_prefix hpre hh, s.isResponse.length]
    simpa using hpre.length_le

end Line

end Courier.Traffic
