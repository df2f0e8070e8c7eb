import Courier.Proofs.Pool.Drops
import Courier.Proofs.Traffic.Suspects

/-!
# Exchanges that are dropped halfway

Whoever drops a handle gives its connection back, and the handle does not know whether it was
written to or read from. So the connection of an exchange that is dropped while it writes or reads
has the fate of any other connection that comes back: it is closed only where connections are not
kept, and otherwise it is the next one to be used.
-/
namespace Courier
open Pool (Activity Config Life)

namespace Pool

/-- The operation writes or reads through the handle, or may have done so. -/
inductive Activity.Uses : Activity → Handle → Prop
  | writing (e : Errand) (remote : String) (h : Handle) (w : Frame.Writer) :
      Uses (.exchange e (.writing remote h w)) h
  | reading (e : Errand) (remote : String) (h : Handle) (r : Frame.Reader) :
      Uses (.exchange e (.reading remote h r)) h
  | use (h : Handle) : Uses (.use h) h

/-- What is dropped closes its handle. -/
theorem Activity.Uses.drop {p : Pool} {now : Instant} {a : Activity} {h : Handle}
    {m : Pool.Step Activity} (hu : a.Uses h) (hm : a.Drops p now m) :
    m.pool = (h.release p h.forceClose now).pool ∧
    m.closes = (h.release p h.forceClose now).closes := by
  cases hu with
  | writing e remote h w =>
    cases hm
    exact ⟨rfl, rfl⟩
  | reading e remote h r =>
    cases hm
    exact ⟨rfl, rfl⟩
  | use h =>
    cases hm
    exact ⟨rfl, rfl⟩

namespace Life

/-- What becomes of the connection of an operation that is dropped while it writes or reads, or
afterwards. It is closed for good if the pool is closed, if its handle is marked to close it, as
that of an exchange is if the pool says so, or if no idle connections are kept; otherwise it is the
next one to be used. How much was written or read plays no part. -/
theorem gone_iff_of_drop {config : Config} {s : Life} (h : Attainable config s)
    {before after : List Activity} {a : Activity} {m : Pool.Step Activity} {hd : Handle} {c : Conn}
    (hs : s.activities = before ++ a :: after) (hu : a.Uses hd) (hc : hd.conn = some c)
    (hm : a.Drops s.pool s.now m) :
    ((s.proceed before m .nothing after).Gone c.id ↔
      s.pool.closed = true ∨ hd.forceClose = true ∨ config.maxIdle = 0) ∧
    (¬ (s.proceed before m .nothing after).Gone c.id →
      (s.proceed before m .nothing after).pool.idle.head? = some { c with returned := s.now }) ∧
    (a.errand?.isSome = true → hd.forceClose = config.forceClose) := by
  have hsettled := h.settled
  have hconfig := hsettled.configured
  have hbound := hsettled.bounded
  obtain ⟨hpool, hcloses⟩ := hu.drop hm
  have hmark : a.errand?.isSome = true → hd.forceClose = config.forceClose := by
    intro he
    have hmarked := hsettled.marked a (by simp [hs])
    cases hu with
    | writing e remote h w => exact hmarked
    | reading e remote h r => exact hmarked
    | use h => cases he
  have hnext :
      (s.proceed before m .nothing after).pool = (hd.release s.pool hd.forceClose s.now).pool :=
    hpool
  rw [← hconfig] at hbound hmark ⊢
  rw [hnext, ← and_assoc]
  refine ⟨fate_release hc hbound (fun hclosed => ?_) fun hkept hg => ?_, hmark⟩
  · refine (hsettled.step (.inr (.mk hs hm))).gone (List.mem_append_right _ ?_)
    rwa [hcloses]
  · rw [← hnext] at hkept
    exact not_gone hkept hg

/-- An exchange that has written its request and waits for its response. -/
def listening : Exchange :=
  .reading "10.0.0.1:80" ⟨some Traffic.firstConn, false, none, false⟩ (.start Frame.maxSize)

theorem reachable_listening :
    ∃ s : Life, Reachable {} s ∧ s.pool = { Pool.new "tcp" "10.0.0.1:80" {} with active := 1 } ∧
      s.now = 0 ∧
      s.activities = [] ++ .exchange (Traffic.ping Traffic.bareRequest) listening :: [] :=
  reachable_reading Traffic.isWhole_bareRequest

/-- A call is dropped while it reads its response, but its pool was closed meanwhile. -/
theorem gone_after_close :
    ∃ s s', Attainable {} s ∧ s.Drop s' ∧ s'.Gone Traffic.firstConn.id := by
  obtain ⟨s, h, hpool, -, hs⟩ := reachable_listening
  have hclose : Attainable {} { s with
      pool := s.pool.close.1
      closed := s.closed ++ numbers s.pool.close.2 } :=
    (h.leads (.single (.tend (.close s)))).attainable
  have hclosed : s.pool.close.1.closed = true := by
    rw [hpool]
    rfl
  have hdrop : Activity.Drops s.pool.close.1 s.now
      (.exchange (Traffic.ping Traffic.bareRequest) listening) _ := .exchange _ rfl
  exact ⟨_, _, hclose, .mk hs hdrop,
    (gone_iff_of_drop hclose hs (.reading _ _ _ _) rfl hdrop).1.2 (.inl hclosed)⟩

/-- A call is dropped while it reads its response, and the next call is served by its connection. -/
theorem reused_after_drop : ∃ s s' s'' : Life, Attainable {} s ∧
    .exchange (Traffic.ping Traffic.bareRequest) listening ∈ s.activities ∧ s.Drop s' ∧
    s'.pool.idle = [Traffic.firstConn] ∧ s'.Leads s'' ∧
    .get s'.tickets (.served ⟨some Traffic.firstConn, false, none, false⟩) ∈ s''.activities := by
  obtain ⟨s, h, hpool, hnow, hs⟩ := reachable_listening
  have hdrop :
      s.Drop (s.proceed [] ((listening.abandon s.pool s.now).map fun _ => .over) .nothing []) :=
    .mk hs (.exchange _ rfl)
  have hafter : (listening.abandon s.pool s.now).pool =
      { Pool.new "tcp" "10.0.0.1:80" {} with active := 1, idle := [Traffic.firstConn] } := by
    rw [hpool, hnow]
    rfl
  have hidle : (listening.abandon s.pool s.now).pool.idle = [Traffic.firstConn] := by rw [hafter]
  have hslots : (listening.abandon s.pool s.now).pool.slots = none := by
    rw [hafter]
    rfl
  have hserved : Handle.ofConn (listening.abandon s.pool s.now).pool false Traffic.firstConn =
      ⟨some Traffic.firstConn, false, none, false⟩ := by
    rw [hafter]
    rfl
  refine ⟨_, _, _, h.attainable, ?_, hdrop, hidle, leads_reused hslots hidle, ?_⟩
  · rw [hs]
    exact List.mem_cons_self
  · rw [← hserved]
    exact List.mem_cons_self

end Life

end Pool

end Courier
