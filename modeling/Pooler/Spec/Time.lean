import Pooler.Lib.Saturating

/-! Time. Instants and durations are natural numbers of nanoseconds, an instant
counted from the clock's origin, with the ranges of `std::time`. -/

namespace Pooler

open Lib

/-- `Duration::MAX`: `u64::MAX` seconds and 999 999 999 nanoseconds. -/
def durationMax : ℕ := 2 ^ 64 * 1000000000 - 1

/-- The last instant the 64-bit signed seconds of the monotonic clock can hold. -/
def instantMax : ℕ := 2 ^ 63 * 1000000000 - 1

def u32Max : ℕ := 2 ^ 32 - 1

def u64Max : ℕ := 2 ^ 64 - 1

def usizeMax : ℕ := 2 ^ 64 - 1

def fromMillis (n : ℕ) : ℕ := n * 1000000

def fromSecs (n : ℕ) : ℕ := n * 1000000000

def durationSaturatingAdd (a b : ℕ) : ℕ := satAdd durationMax a b

def durationSaturatingMul (a n : ℕ) : ℕ := satMul durationMax a n

def instantCheckedAdd (now d : ℕ) : Option ℕ := if now + d ≤ instantMax then some (now + d) else none

end Pooler
