import Mathlib.Logic.Function.Basic
import Courier.Proofs.Pool.Conservation
import Courier.Proofs.Traffic.Line

/-!
# A pool with its lines

The life of a pool together with the lines of its connections. A step of an operation does to a line
what it does to the socket, and peers do what they do at any time. In every state idle connections
have quiet lines, and an exchange that has written or read uses its line for its own request.
-/
namespace Courier
open Bytes (toList)
open Courier.Frame (IsWhole)
open Pool (Life Activity Acquire PreDial Balanced numbers located)

/-- The lines of a pool by the numbers of their connections. -/
abbrev Traffic.Lines := Nat → Traffic.Line

structure Traffic where
  life : Life
  lines : Traffic.Lines

namespace Traffic

/-- The lines when one of them has changed. -/
def Lines.put (lines : Lines) (id : Nat) (l : Line) : Lines := Function.update lines id l

@[simp] theorem Lines.put_self (lines : Lines) (id : Nat) (l : Line) : lines.put id l id = l :=
  Function.update_self ..

theorem Lines.put_other (lines : Lines) {id other : Nat} (l : Line) (h : other ≠ id) :
    lines.put id l other = lines other :=
  Function.update_of_ne h ..

@[simp] theorem Lines.put_eq_self (lines : Lines) (id : Nat) : lines.put id (lines id) = lines := by
  simp only [put, Function.update_eq_self]

@[simp] theorem Lines.put_put (lines : Lines) (id : Nat) (l l' : Line) :
    (lines.put id l).put id l' = lines.put id l' := by
  simp only [put, Function.update_idem]

/-- The number of the connection that a step touches. -/
def at? : Touch → Option Nat
  | .nothing => none
  | .opens c | .checks c | .sends c _ | .takes c _ => some c.id

/-- What a step of an operation does to the line that it touches. Only exchanges write, and a check
takes one byte at most. -/
inductive Line.Feels : Line → Activity → Touch → Line → Prop
  | opens (a : Activity) (c : Conn) (l : Line) : Feels l a (.opens c) l.renew
  | checks (a : Activity) (c : Conn) (l : Line) {n : Nat} (hn : n ≤ 1) :
      Feels l a (.checks c) { l with toClient := l.toClient.drop n }
  | sends (e : Errand) (x : Exchange) (c : Conn) (bytes : ByteArray) (l : Line) :
      Feels l (.exchange e x) (.sends c bytes)
        { l with toPeer := l.toPeer ++ stamp e.ticket (toList bytes) }
  | takes (a : Activity) (c : Conn) (piece : ByteArray) {l : Line} {rest : List UInt8}
      (h : l.toClient = toList piece ++ rest) : Feels l a (.takes c piece)
        { l with toClient := rest }

/-- The other lines stay as they are. -/
inductive Lines.Feels (lines : Lines) (a : Activity) (touch : Touch) : Lines → Prop
  | untouched (h : at? touch = none) : Feels lines a touch lines
  | touched {id : Nat} {l : Line} (h : at? touch = some id) (hl : (lines id).Feels a touch l) :
      Feels lines a touch (lines.put id l)

/-- What can happen to a pool and its lines, besides that a call begins. -/
inductive Step : Traffic → Traffic → Prop
  | advance {s : Traffic} {before after : List Activity} {a : Activity} {m : Pool.Step Activity}
      {touch : Touch} {lines : Lines} (hs : s.life.activities = before ++ a :: after)
      (hm : a.Moves s.life.pool s.life.now m touch) (hf : ∀ c ∈ touch.opened, c.id ∉ s.life.opened)
      (hl : s.lines.Feels a touch lines) : Step s ⟨s.life.proceed before m touch after, lines⟩
  | tend {s : Traffic} {life : Life} (h : s.life.Tend life) : Step s { s with life }
  | serve {s : Traffic} (id : Nat) {l : Line} (h : (s.lines id).Serves l) :
      Step s { s with lines := s.lines.put id l }

/-- What happens to a pool with its lines can happen to the pool. -/
theorem leads_life {s s' : Traffic} (h : Relation.ReflTransGen Step s s') :
    s.life.Leads s'.life := by
  induction h with
  | refl => exact .refl
  | tail _ h ih =>
    cases h with
    | advance hs hm hf _ => exact ih.tail (.advance (.mk hs hm hf))
    | tend h => exact ih.tail (.tend h)
    | serve => exact ih

/-! ## Where a step is felt -/

/-- A step that writes or reads. -/
def isIo : Touch → Bool
  | .sends _ _ | .takes _ _ => true
  | .nothing | .opens _ | .checks _ => false

theorem Line.Feels.served {a : Activity} {touch : Touch} {l l' : Line} (h : l.Feels a touch l') :
    l'.served = l.served := by
  cases h <;> rfl

theorem Line.Feels.quiet {a : Activity} {touch : Touch} {l l' : Line} (h : l.Feels a touch l')
    (hio : isIo touch = false) (hq : l.IsQuiet) : l'.IsQuiet := by
  cases h with
  | opens => exact l.isQuiet_renew
  | checks => exact ⟨hq.toPeer, hq.inbox, hq.outbox, by simp [hq.toClient]⟩
  | sends => cases hio
  | takes => cases hio

theorem Line.Feels.opened {a : Activity} {c : Conn} {l l' : Line} (h : l.Feels a (.opens c) l') :
    l'.IsQuiet := by
  cases h
  exact l.isQuiet_renew

theorem Line.Feels.of_sends {e : Errand} {x : Exchange} {c : Conn} {bytes : ByteArray} {l l' : Line}
    (h : l.Feels (.exchange e x) (.sends c bytes) l') :
    l' = { l with toPeer := l.toPeer ++ stamp e.ticket (toList bytes) } := by
  cases h
  rfl

theorem Line.Feels.of_takes {a : Activity} {c : Conn} {piece : ByteArray} {l l' : Line}
    (h : l.Feels a (.takes c piece) l') :
    ∃ rest, l.toClient = toList piece ++ rest ∧ l' = { l with toClient := rest } := by
  cases h with
  | takes _ _ _ h => exact ⟨_, h, rfl⟩

section Feels
variable {lines lines' : Lines} {a : Activity} {touch : Touch} {id : Nat}

theorem Lines.Feels.other (h : lines.Feels a touch lines') (hid : at? touch ≠ some id) :
    lines' id = lines id := by
  cases h with
  | untouched => rfl
  | touched ht => exact lines.put_other _ fun he => hid (he ▸ ht)

theorem Lines.Feels.self (h : lines.Feels a touch lines') (hid : at? touch = some id) :
    (lines id).Feels a touch (lines' id) := by
  cases h with
  | untouched ht => cases ht.symm.trans hid
  | touched ht hl =>
    obtain rfl := Option.some.inj (ht.symm.trans hid)
    rwa [lines.put_self]

theorem Lines.Feels.of_nothing (h : lines.Feels a .nothing lines') : lines' = lines :=
  funext fun _ => h.other nofun

/-- Nothing is crossed out of the records. -/
theorem Lines.Feels.served (h : lines.Feels a touch lines') (id : Nat) :
    (lines' id).served = (lines id).served := by
  by_cases ht : at? touch = some id
  · exact (h.self ht).served
  · rw [h.other ht]

/-- A step that neither writes nor reads leaves quiet lines quiet. -/
theorem Lines.Feels.quiet (h : lines.Feels a touch lines') (hio : isIo touch = false)
    (hq : (lines id).IsQuiet) : (lines' id).IsQuiet := by
  by_cases ht : at? touch = some id
  · exact (h.self ht).quiet hio hq
  · rw [h.other ht]
    exact hq

/-- The line of a new connection is quiet. -/
theorem Lines.Feels.opened (h : lines.Feels a touch lines') (hid : id ∈ numbers touch.opened) :
    (lines' id).IsQuiet := by
  cases touch with
  | opens c =>
    obtain rfl : id = c.id := by simpa [Touch.opened] using hid
    exact (h.self rfl).opened
  | _ => simp [Touch.opened] at hid

end Feels

/-- A call that wants a connection touches the one that it checks or opens. -/
theorem touched_acquire {ticket : Ticket} {p : Pool} {now : Instant} {a : Acquire}
    {m : Pool.Step Acquire} {touch : Touch} (h : a.Moves ticket p now m touch) :
    isIo touch = false ∧ ∀ id ∈ at? touch, id ∈ a.stock.conns ∨ id ∈ numbers touch.opened := by
  cases h with
  | judge slot c hv => exact ⟨rfl, by simp [at?, Acquire.stock, Acquire.holds]⟩
  | @endDial slot d r hr => cases r <;> exact ⟨rfl, by simp [at?, Pool.Dial.touch, Touch.opened]⟩
  | _ => exact ⟨rfl, by simp [at?]⟩

theorem touched_exchange {e : Errand} {p : Pool} {now : Instant} {x : Exchange}
    {m : Pool.Step Exchange} {touch : Touch} (h : x.Moves e p now m touch) :
    ∀ id ∈ at? touch, id ∈ (Activity.exchange e x).stock.conns ∨ id ∈ numbers touch.opened := by
  cases h with
  | acquire h => exact (touched_acquire h).2
  | send remote hc => simp [at?, Pool.Handle.stock, hc]
  | take remote hc => simp [at?, Pool.Handle.stock, hc]
  | receive remote hc => simp [at?, Pool.Handle.stock, hc]
  | reject remote hc => simp [at?, Pool.Handle.stock, hc]
  | _ => simp [at?]

theorem touched_preDial {p : Pool} {now : Instant} {d : PreDial} {m : Pool.Step PreDial}
    {touch : Touch} (h : d.Moves p now m touch) :
    isIo touch = false ∧ ∀ id ∈ at? touch, id ∈ numbers touch.opened := by
  cases h with
  | begin => exact ⟨rfl, by simp [at?]⟩
  | @finish d r hr => cases r <;> exact ⟨rfl, by simp [at?, Pool.Dial.touch, Touch.opened]⟩

/-- A step touches a connection that the operation has in hand, or a new one. -/
theorem touched {p : Pool} {now : Instant} {a : Activity} {m : Pool.Step Activity} {touch : Touch}
    (h : a.Moves p now m touch) :
    ∀ id ∈ at? touch, id ∈ a.stock.conns ∨ id ∈ numbers touch.opened := by
  cases h with
  | get h => exact (touched_acquire h).2
  | exchange h => exact touched_exchange h
  | judge hs hv => simp [at?, Pool.Sweep.conns, hs]
  | dial h => exact fun id hid => .inr ((touched_preDial h).2 id hid)
  | _ => simp [at?]

end Traffic

end Courier
