/-! Points in time and durations, in nanoseconds. -/

namespace Proximity

/-- A number of nanoseconds: a duration, or the time since a fixed moment. -/
abbrev Nanoseconds := Nat

def milliseconds (n : Nat) : Nanoseconds := 1000000 * n

end Proximity
