/-
# Spans of time

A span is a number of seconds and a number of nanoseconds below one second.  It is shown in the
largest of the units s, ms, µs and ns that leaves a whole part other than zero (ns if none does),
with the exact fraction and without trailing zeros.
-/

namespace HookPool

/-- A span of time of `seconds` and `nanos` billionths of a second. -/
structure Duration where
  seconds : Nat
  nanos : Nat
  deriving DecidableEq, Repr

namespace Duration

/-- The number of nanoseconds in a second. -/
def nanosPerSecond : Nat := 1000000000

/-- The span in nanoseconds. -/
def toNanos (d : Duration) : Nat :=
  d.seconds * nanosPerSecond + d.nanos

/-- The span of `n` nanoseconds. -/
def ofNanos (n : Nat) : Duration :=
  ⟨n / nanosPerSecond, n % nanosPerSecond⟩

/-- The digits of `fraction / 10 ^ places` after the point, without trailing zeros. -/
def fractionDigits (places fraction : Nat) : List Char :=
  let digits := Nat.toDigits 10 fraction
  let padded := List.replicate (places - digits.length) '0' ++ digits
  (padded.reverse.dropWhile (· == '0')).reverse

/-- `whole` and `fraction / 10 ^ places` of the unit called `unit`. -/
def showIn (whole fraction places : Nat) (unit : String) : String :=
  let digits := fractionDigits places fraction
  let point := if digits.isEmpty then "" else "."
  toString whole ++ point ++ String.ofList digits ++ unit

/-- The span in its largest unit with a whole part. -/
def render (d : Duration) : String :=
  if 0 < d.seconds then showIn d.seconds d.nanos 9 "s"
  else if 1000000 ≤ d.nanos then showIn (d.nanos / 1000000) (d.nanos % 1000000) 6 "ms"
  else if 1000 ≤ d.nanos then showIn (d.nanos / 1000) (d.nanos % 1000) 3 "µs"
  else showIn d.nanos 0 0 "ns"

/-- A number of hundredths as a decimal with two places. -/
def showHundredths (n : Nat) (unit : String) : String :=
  let fraction := toString (n % 100)
  toString (n / 100) ++ (if n % 100 < 10 then ".0" else ".") ++ fraction ++ unit

/-- The span to the nearest hundredth of its largest unit with a whole part. -/
def renderRounded (d : Duration) : String :=
  let n := d.toNanos
  if nanosPerSecond ≤ n then showHundredths ((n + 5000000) / 10000000) "s"
  else if 1000000 ≤ n then showHundredths ((n + 5000) / 10000) "ms"
  else if 1000 ≤ n then showHundredths ((n + 5) / 10) "µs"
  else showHundredths (n * 100) "ns"

end Duration
end HookPool
