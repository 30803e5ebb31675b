/-!
Lengths of time and instants of a clock, in whole nanoseconds. Lengths reach as far as a 64-bit
number of milliseconds, so not every 64-bit number of seconds is one. Clocks reach less far.
-/
namespace Hostility

namespace Duration

/-- The most whole seconds that there can be, either way. -/
def maxSeconds : Int := Int64.maxValue.toInt / 1000

def ofSeconds? (seconds : Int64) : Option Int :=
  if -maxSeconds ≤ seconds.toInt ∧ seconds.toInt ≤ maxSeconds then
    some (seconds.toInt * 1000000000)
  else none

/-- The least number of milliseconds is no length of time, but no clock goes that far back. -/
def ofMilliseconds (milliseconds : Int64) : Int := milliseconds.toInt * 1000000

end Duration

namespace Clock

/-- The first instant of the year -262143, counted from the start of 1970. -/
def earliest : Int := -8334601228800 * 1000000000

/-- The last instant of the year 262142. -/
def latest : Int := 8210266876800 * 1000000000 - 1

def Shows (now : Int) : Prop := earliest ≤ now ∧ now ≤ latest

instance (now : Int) : Decidable (Shows now) := inferInstanceAs (Decidable (_ ∧ _))

/-- Where a clock stands a length of time later. -/
def advance? (now duration : Int) : Option Int :=
  if Shows (now + duration) then some (now + duration) else none

variable {now duration : Int}

theorem advance?_of_shows (h : Shows (now + duration)) :
    advance? now duration = some (now + duration) := if_pos h

theorem advance?_of_not_shows (h : ¬Shows (now + duration)) : advance? now duration = none :=
  if_neg h

end Clock

end Hostility
