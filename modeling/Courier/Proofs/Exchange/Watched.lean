import Courier.Proofs.Exchange.Moves

/-!
# Steps under a context

The steps of an exchange whose context is known. At each step the clock and the cancellations can
stand anywhere, but what the exchange is told about its context is what the context says at that
moment: whether it is done, what is left of it, and its deadline.
-/
namespace Courier

/-- What the surroundings of a step are at that moment. -/
structure Moment where
  now : Instant
  scopes : Scopes

/-- Whether the context is done at a moment, and why. -/
def Context.doneAt (c : Context) (m : Moment) : Option Done := c.done? m.scopes m.now

/-- A context is done just if its deadline has come or one of its scopes is canceled. -/
theorem Context.isSome_doneAt {c : Context} {m : Moment} :
    (c.doneAt m).isSome = true ↔ c.isCanceled m.scopes = true ∨
    ∃ deadline ∈ c.deadline, deadline ≤ m.now := by
  unfold doneAt done? isExpired
  cases hcanceled : c.isCanceled m.scopes <;> cases hdeadline : c.deadline <;> simp

open Pool (Acquire Dial Step)

/-- A step of a call that wants a connection, under a context. -/
inductive Pool.Acquire.MovesUnder (c : Context) (ticket : Ticket) (p : Pool) (m : Moment) :
    Acquire → Step Acquire → Touch → Prop
  | arrive : MovesUnder c ticket p m .arriving (arrive p ticket (c.doneAt m)) .nothing
  | resume (t : Ticket) : MovesUnder c ticket p m (.queued t) (resume p t (c.doneAt m)) .nothing
  | pop (slot : Bool) : MovesUnder c ticket p m (.popping slot) (pop p slot) .nothing
  | judge (slot : Bool) (conn : Conn) {v : Verdict} (hv : p.Judges conn true m.now v) :
      MovesUnder c ticket p m (.checking slot conn)
        { judge p slot conn v.healthy with counts := v.counts } (.checks conn)
  | beginDial (slot : Bool) (attempt : Nat) :
      MovesUnder c ticket p m (.exhausted slot)
        (beginDial p slot attempt (c.doneAt m) (c.remaining m.now) m.now) .nothing
  | endDial (slot : Bool) {d : Dial} {reached : Option (Except Fault Conn)} {r : Except Fault Conn}
      (hs : d.Stands reached) (hr : d.poll reached (c.doneAt m) m.now = some r) :
      MovesUnder c ticket p m (.dialing slot d) (endDial p slot r) (Dial.touch r)

theorem Pool.Acquire.MovesUnder.moves {c : Context} {ticket : Ticket} {p : Pool} {m : Moment}
    {a : Acquire} {s : Step Acquire} {touch : Touch} (h : a.MovesUnder c ticket p m s touch) :
    a.Moves ticket p m.now s touch := by
  cases h with
  | arrive => exact .arrive _
  | resume t => exact .resume t _
  | pop slot => exact .pop slot
  | judge slot conn hv => exact .judge slot conn hv
  | beginDial slot attempt => exact .beginDial slot attempt _ _
  | endDial slot hs hr => exact .endDial slot ⟨_, _, hs, hr⟩

/-- A step of an exchange under a context. -/
inductive Exchange.MovesUnder (c : Context) (e : Errand) (p : Pool) (m : Moment) :
    Exchange → Step Exchange → Touch → Prop
  | acquire {a : Acquire} {s : Step Acquire} {touch : Touch}
      (h : a.MovesUnder c e.ticket p m s touch) :
      MovesUnder c e p m (.acquiring a) (s.map .acquiring) touch
  | refuse (f : Fault) :
      MovesUnder c e p m (.acquiring (.failed f)) ⟨p, refused f, [], [.getConnectionErr]⟩ .nothing
  | acquired (h : Handle) :
      MovesUnder c e p m (.acquiring (.served h))
        (acquired p h e.address e.request c.deadline (c.doneAt m) m.now) .nothing
  | send {h : Handle} {conn : Conn} {w w' : Frame.Writer} {n : Nat} (remote : String)
      (hc : h.conn = some conn) (hw : w.isComplete = false) (hn : w.feed (.took n) = .ok w') :
      MovesUnder c e p m (.writing remote h w) (.quiet p (.writing remote h w'))
        (.sends conn (w.offer.extract 0 n))
  | wrote {h : Handle} {w : Frame.Writer} {io : Option (Except Fault Unit)} {r : Except Fault Unit}
      (remote : String) (hio : h.Writes w io) (hr : await h .write io (c.doneAt m) m.now = some r) :
      MovesUnder c e p m (.writing remote h w) (wrote p remote h r (c.doneAt m) m.now) .nothing
  | take {h : Handle} {conn : Conn} {r r' : Frame.Reader} {piece : ByteArray} (remote : String)
      (hc : h.conn = some conn) (hr : r.feed piece = (.more r', .empty)) :
      MovesUnder c e p m (.reading remote h r) (.quiet p (.reading remote h r')) (.takes conn piece)
  | receive {h : Handle} {conn : Conn} {r : Frame.Reader} {piece frame : ByteArray}
      (remote : String) (hc : h.conn = some conn) (hr : r.feed piece = (.frame frame, .empty)) :
      MovesUnder c e p m (.reading remote h r) (received p remote h (.ok frame) m.now)
        (.takes conn piece)
  | reject {h : Handle} {conn : Conn} {r : Frame.Reader} {piece : ByteArray} {f : Fault}
      (remote : String) (hc : h.conn = some conn) (hr : r.feed piece = (.fault f, .empty)) :
      MovesUnder c e p m (.reading remote h r) (received p remote h (.error f) m.now)
        (.takes conn piece)
  | stall {h : Handle} {r : Frame.Reader} {io : Option (Except Fault ByteArray)} {f : Fault}
      (remote : String) (hio : h.Stalls io)
      (hr : await h .read io (c.doneAt m) m.now = some (.error f)) :
      MovesUnder c e p m (.reading remote h r) (received p remote h (.error f) m.now) .nothing

/-- A step under a context is one of the steps under anything. -/
theorem Exchange.MovesUnder.moves {c : Context} {e : Errand} {p : Pool} {m : Moment} {x : Exchange}
    {s : Step Exchange} {touch : Touch} (h : x.MovesUnder c e p m s touch) :
    x.Moves e p m.now s touch := by
  cases h with
  | acquire h => exact .acquire h.moves
  | refuse f => exact .refuse f
  | acquired h => exact .acquired h _ _
  | send remote hc hw hn => exact .send remote hc hw hn
  | wrote remote hio hr => exact .wrote remote _ hio hr
  | take remote hc hr => exact .take remote hc hr
  | receive remote hc hr => exact .receive remote hc hr
  | reject remote hc hr => exact .reject remote hc hr
  | stall remote hio hr => exact .stall remote _ hio hr

end Courier
