import Courier.Proofs.Pool.Admission
import Courier.Proofs.Pool.Drops

/-!
# What an operation does

What each step of an operation comes to, and what it comes to when an operation is dropped. It makes
no difference to a pool for whom it works: callers and exchanges look for a connection in the same
way, keep the handle that they get, and give it up.
-/
namespace Courier.Pool

/-- Where a call stands in the queue. -/
def Acquire.queue : Acquire → List Ticket
  | .queued t => [t]
  | .arriving | .popping _ | .checking _ _ | .exhausted _ | .dialing _ _ | .served _ | .failed _ =>
    []

namespace Activity

/-- Where an operation stands in the queue. -/
def queue : Activity → List Ticket
  | .get _ a | .exchange _ (.acquiring a) => a.queue
  | .exchange _ (.writing _ _ _) | .exchange _ (.reading _ _ _) | .exchange _ (.finished _)
  | .use _ | .sweep _ | .topUp _ | .over => []

/-- The handle that the operation was given. -/
def handle? : Activity → Option Handle
  | .get _ a => a.handle?
  | .exchange _ x => x.handle?
  | .use h => some h
  | .sweep _ | .topUp _ | .over => none

/-! ## What an operation has -/

/-- How a call wants a connection: for its caller, or as the beginning of an exchange. -/
inductive Wants : Ticket → (Acquire → Activity) → Prop
  | get (ticket : Ticket) : Wants ticket (.get ticket)
  | exchange (e : Errand) : Wants e.ticket fun a => .exchange e (.acquiring a)

/-- What an operation has: connections and dials in hand, slots, and a place in the queue. -/
structure Owns (a : Activity) (stock : Stock) (slots : Nat) (queue : List Ticket) : Prop where
  stock : a.stock = stock
  slots : a.slots = slots
  queue : a.queue = queue

/-- The operation has nothing of all that. -/
abbrev IsBare (a : Activity) : Prop := a.Owns ⟨[], 0⟩ 0 []

section Wants
variable {p : Pool} {now : Instant} {ticket : Ticket} {wants : Acquire → Activity}

/-- What the call has is what the operation has. -/
theorem Wants.owns (hw : Wants ticket wants) (a : Acquire) :
    (wants a).Owns a.stock a.slots a.queue := by
  cases hw <;> exact ⟨rfl, rfl, rfl⟩

theorem Wants.moves (hw : Wants ticket wants) {a : Acquire} {m : Step Acquire} {touch : Touch}
    (h : a.Moves ticket p now m touch) : (wants a).Moves p now (m.map wants) touch := by
  cases hw with
  | get => exact .get h
  | exchange e => exact .exchange (.acquire h)

/-- Whoever stands in the queue is a call that waits. -/
theorem queued_of_queue {a : Activity} (ha : a.queue ≠ []) :
    ∃ ticket wants t, Wants ticket wants ∧ a = wants (.queued t) := by
  have queued {a : Acquire} (ha : a.queue ≠ []) : ∃ t, a = .queued t := by
    cases a with
    | queued t => exact ⟨t, rfl⟩
    | _ => exact absurd rfl ha
  cases a with
  | get ticket a =>
    obtain ⟨t, rfl⟩ := queued ha
    exact ⟨_, _, t, .get ticket, rfl⟩
  | exchange e x =>
    cases x with
    | acquiring a =>
      obtain ⟨t, rfl⟩ := queued ha
      exact ⟨_, _, t, .exchange e, rfl⟩
    | _ => exact absurd rfl ha
  | _ => exact absurd rfl ha

end Wants

/-- Whoever has a handle has what the handle has, and nothing else. -/
theorem owns_of_handle {a : Activity} {h : Handle} (ha : a.handle? = some h) :
    a.Owns (Handle.stock h) h.slot.toNat [] := by
  cases a with
  | get ticket a =>
    cases a with
    | served h' =>
      cases ha
      exact ⟨stock_served h, rfl, rfl⟩
    | _ => cases ha
  | use h' =>
    cases ha
    exact ⟨stock_use h, rfl, rfl⟩
  | exchange e x =>
    obtain rfl | ⟨remote, w, rfl⟩ | ⟨remote, r, rfl⟩ := Exchange.handle?_cases ha <;>
      exact ⟨stock_served h, rfl, rfl⟩
  | _ => cases ha

/-! ## Steps -/

/-- What a step of an operation comes to. An operation without anything goes on, and so does one
that keeps its connection and its slot, and the pool does not notice; one that gives up its handle
gives up all it has. -/
inductive Does (p : Pool) (now : Instant) : Activity → Step Activity → Touch → Prop
  | acquires {ticket : Ticket} {wants : Acquire → Activity} {a : Acquire} {m : Step Acquire}
      {touch : Touch} (hw : Wants ticket wants) (h : a.Moves ticket p now m touch) :
      Does p now (wants a) (m.map wants) touch
  | rests {a b : Activity} {touch : Touch} (counts : List Counter) (ha : a.IsBare) (hb : b.IsBare)
      (ht : touch.opened = []) : Does p now a ⟨p, b, [], counts⟩ touch
  | keeps {a b : Activity} {h h' : Handle} {touch : Touch} (ha : a.handle? = some h)
      (hb : b.handle? = some h') (hc : h'.conn = h.conn) (hs : h'.slot = h.slot)
      (ht : touch.opened = []) : Does p now a (.quiet p b) touch
  | gives {a b : Activity} {h : Handle} {touch : Touch} (force : Bool) (ha : a.handle? = some h)
      (hb : b.IsBare) (ht : touch.opened = []) :
      Does p now a ((h.release p force now).map fun _ => b) touch
  | judges {s : Sweep} {c : Conn} {rest : List Conn} {v : Verdict} (hs : s.pending = c :: rest)
      (hv : p.Judges c false now v) :
      Does p now (.sweep s) ⟨p, .sweep (s.judge v.healthy), [], v.counts⟩ (.checks c)
  | sweeps {s : Sweep} (hs : s.pending = []) :
      Does p now (.sweep s) ⟨(s.finish p).1, .over, (s.finish p).2, []⟩ .nothing
  | dials {before after : List PreDial} {d : PreDial} {m : Step PreDial} {touch : Touch}
      (h : d.Moves p now m touch) :
      Does p now (.topUp ⟨before ++ d :: after⟩)
        (m.map fun d => .topUp ⟨before ++ d :: after⟩) touch
  | tops {t : TopUp} (ht : t.isOver = true) :
      Does p now (.topUp t) ⟨(TopUp.putAll p now t.conns).1, .over,
        (TopUp.putAll p now t.conns).2, []⟩ .nothing

section Steps
variable {p : Pool} {now : Instant}

theorem isBare_over : Activity.over.IsBare := ⟨rfl, rfl, rfl⟩

theorem isBare_release (h : Handle) (force : Bool) :
    (Activity.use (h.release p force now).next).IsBare :=
  ⟨rfl, rfl, rfl⟩

theorem does_handle {h : Handle} {m : Step Handle} (hm : h.Moves p now m) :
    Does p now (.use h) (m.map .use) .nothing := by
  cases hm with
  | setDeadline deadline => exact .keeps rfl rfl rfl rfl rfl
  | setForceClose forceClose => exact .keeps rfl rfl rfl rfl rfl
  | io r =>
    cases r with
    | ok _ => exact .keeps rfl rfl rfl rfl rfl
    | error f => exact .gives true rfl (isBare_release h true) rfl
  | discard => exact .gives true rfl (isBare_release h true) rfl

theorem does_exchange {e : Errand} {x : Exchange} {m : Step Exchange} {touch : Touch}
    (h : x.Moves e p now m touch) : Does p now (.exchange e x) (m.map (.exchange e)) touch := by
  cases h.does with
  | acquires hx ha hm =>
    rw [hx, hm]
    exact .acquires (.exchange e) ha
  | refused f hx hm ht =>
    rw [hx, hm]
    exact .rests _ ⟨rfl, rfl, rfl⟩ ⟨rfl, rfl, rfl⟩ ht
  | keeps hx hy hh hm ht =>
    rw [hm]
    exact .keeps hx hy (by rw [hh]) (by rw [hh]) ht
  | gives force hx hforce hu hm ht =>
    rw [hm]
    exact .gives force hx ⟨rfl, rfl, rfl⟩ ht

theorem Moves.does {a : Activity} {m : Step Activity} {touch : Touch} (h : a.Moves p now m touch) :
    a.Does p now m touch := by
  cases h with
  | get h => exact .acquires (.get _) h
  | handOut ticket h => exact .keeps rfl rfl rfl rfl rfl
  | use hm => exact does_handle hm
  | close h => exact .gives h.forceClose rfl isBare_over rfl
  | exchange h => exact does_exchange h
  | judge hs hv => exact .judges hs hv
  | finishSweep hs => exact .sweeps hs
  | dial h => exact .dials h
  | finishTopUp ht => exact .tops ht

/-! ## Drops -/

/-- What is dropped: a call that waits, or an operation with its handle, which is closed. -/
inductive Lets (p : Pool) (now : Instant) : Activity → Step Activity → Prop
  | call {ticket : Ticket} {wants : Acquire → Activity} {a : Acquire} (hw : Wants ticket wants)
      (ha : a.isSuspended = true) : Lets p now (wants a) (.quiet (a.abandon p) .over)
  | handle {a : Activity} {h : Handle} (ha : a.handle? = some h) :
      Lets p now a ((h.close p now).map fun _ => .over)

theorem Drops.lets {a : Activity} {m : Step Activity} (h : a.Drops p now m) : a.Lets p now m := by
  cases h with
  | get ticket ha => exact .call (.get ticket) ha
  | @exchange e x hx =>
    cases x with
    | acquiring a => exact .call (.exchange e) hx
    | writing remote h w => exact .handle rfl
    | reading remote h r => exact .handle rfl
    | finished result => cases hx
  | use h => exact .handle rfl

end Steps

end Activity

end Courier.Pool
