/-!
# Time

Spans and instants are counted in nanoseconds. A span is written in the largest unit it reaches,
with as many decimals as it needs; a call's time limit is the shorter of the configured one and what
its caller has left, and travels as whole milliseconds.
-/
namespace Courier

/-- A length of time in nanoseconds. -/
abbrev Span := Nat

/-- A moment, in nanoseconds since the clock's origin. -/
abbrev Instant := Nat

namespace Span

def ofMillis (ms : Nat) : Span := 1000000 * ms

/-- The whole milliseconds of a span. -/
def millis (s : Span) : Nat := s / 1000000

/-- The decimals of `n / 10 ^ digits`, without zeros at the end. -/
def decimals (digits n : Nat) : List Char :=
  let ds := Nat.toDigits 10 n
  (((List.replicate (digits - ds.length) '0' ++ ds).reverse).dropWhile (· = '0')).reverse

/-- `whole` and the fraction `part / 10 ^ digits` in decimal, the point only if decimals follow. -/
def decimal (whole part digits : Nat) : String :=
  let ds := decimals digits part
  toString whole ++ (if ds.isEmpty then "" else "." ++ String.ofList ds)

/-- Seconds, milliseconds, microseconds or nanoseconds, the largest of them that the span
reaches. -/
def text (s : Span) : String :=
  if s ≥ 1000000000 then decimal (s / 1000000000) (s % 1000000000) 9 ++ "s"
  else if s ≥ 1000000 then decimal (s / 1000000) (s % 1000000) 6 ++ "ms"
  else if s ≥ 1000 then decimal (s / 1000) (s % 1000) 3 ++ "µs"
  else toString s ++ "ns"

end Span

/-- What is left until `deadline`, zero once it has passed. -/
def Instant.until (now deadline : Instant) : Span := deadline - now

/-- A timer fires at the first whole millisecond that is not before its moment. -/
def Instant.tick (t : Instant) : Instant := (t + 999999) / 1000000 * 1000000

end Courier
