/-
CommercePlayground.Cli.Stamp — the stamp of a run.

`utc_compact` of the command line writes the clock as `YYYYMMDDTHHMMSSZ`, and names
the artifacts of a run by it; the date comes from `civil_from_days`. Arithmetic that
overflows panics, which is `none` here.
-/
import CommercePlayground.Lib.Calendar
import CommercePlayground.Lib.Text

namespace CommercePlayground.Cli.Stamp

open Lib

/-! ## Integers -/

def i64 (n : Int) : Option Int :=
  if -9223372036854775808 ≤ n ∧ n ≤ 9223372036854775807 then some n else none

def u64 (n : Int) : Option Nat :=
  if 0 ≤ n ∧ n ≤ 18446744073709551615 then some n.toNat else none

/-- `as u64`, which wraps around. -/
def asU64 (n : Int) : Nat := (n % 18446744073709551616).toNat

/-- `as i32` -/
def asI32 (n : Int) : Int := Int.bmod n 4294967296

/-- `as u32` -/
def asU32 (n : Nat) : Nat := n % 4294967296

/-! ## The calendar -/

/-- `yoe` of `civil_from_days`: the year of the era that a day of it is in. -/
def yearOfEra (doe : Nat) : Option Nat := do
  let days ← u64 (doe - (doe / 1460 : Nat))
  let days ← u64 (days + (doe / 36524 : Nat))
  let days ← u64 (days - (doe / 146096 : Nat))
  return days / 365

/-- `doy`: the day of that year, counted from March. -/
def dayOfYear (doe yoe : Nat) : Option Nat := do
  let days ← u64 (365 * yoe)
  let days ← u64 (days + (yoe / 4 : Nat))
  let days ← u64 (days - (yoe / 100 : Nat))
  u64 (doe - days)

/-- `m` and `d`, by way of the month counted from March. -/
def monthAndDay (doy : Nat) : Option (Nat × Nat) := do
  let mp := (← u64 (5 * doy + 2)) / 153
  let months ← u64 (153 * mp + 2)
  let days ← u64 (doy - (months / 5 : Nat))
  let d ← u64 (days + 1)
  let m ← (if mp < 10 then u64 (mp + 3) else u64 (mp - 9))
  return (m, d)

/-- `civil_from_days`: year, month and day. Divisions truncate. -/
def civilFromDays (z : Int) : Option (Int × Nat × Nat) := do
  let z ← i64 (z + 719468)
  let numerator ← (if z ≥ 0 then some z else i64 (z - 146096))
  let era := numerator.tdiv 146097
  let start ← i64 (era * 146097)
  let doe := asU64 (← i64 (z - start))
  let yoe ← yearOfEra doe
  let y ← i64 (yoe + (← i64 (era * 400)))
  let doy ← dayOfYear doe yoe
  let (m, d) ← monthAndDay doy
  let y ← (if m ≤ 2 then i64 (y + 1) else some y)
  return (asI32 y, asU32 m, asU32 d)

/-! ## The stamp -/

/-- `{n:0width}` of an unsigned integer. -/
def padded (width n : Nat) : Text :=
  List.replicate (width - (decimal n).length) '0' ++ decimal n

/-- `{n:0width}` of a signed integer, whose sign counts. -/
def paddedInt (width : Nat) (n : Int) : Text :=
  if n < 0 then '-' :: padded (width - 1) n.natAbs else padded width n.natAbs

/-- `utc_compact`, of a clock that many seconds after 1970 began. -/
def utcCompact (secs : Nat) : Option Text := do
  let days := secs / 86400
  let rest := secs % 86400
  let (year, month, day) ← civilFromDays days
  let hour := rest / 3600
  let min := rest % 3600 / 60
  let sec := rest % 60
  return paddedInt 4 year ++ padded 2 month ++ padded 2 day ++ 'T' :: padded 2 hour ++
    padded 2 min ++ padded 2 sec ++ ['Z']

end CommercePlayground.Cli.Stamp
