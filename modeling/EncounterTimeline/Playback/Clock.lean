import EncounterTimeline.Timeline.Duration

/-! # Clocks

The script position in seconds, and the host's elapsed time moved by hand. A position is always finite:
whatever is not becomes zero.
-/
namespace EncounterTimeline.Clock

def settle (x : Float) : Float := if x.isFinite then x else 0.0

def ahead (now : Float) (d : Duration) : Float := now + d.seconds

def advance (now : Float) (d : Duration) : Float := settle (ahead now d)

end EncounterTimeline.Clock

namespace EncounterTimeline

/-- Host time moved by hand, in whole milliseconds of a 64-bit counter. -/
structure HostClock where
  millis : UInt64
  deriving DecidableEq, Repr, Inhabited

namespace HostClock

def elapsed (h : HostClock) : Duration := Duration.ofMillis h.millis.toNat

def set (_ : HostClock) (d : Duration) : HostClock := ⟨d.millis.toUInt64⟩

def advance (h : HostClock) (d : Duration) : HostClock := ⟨h.millis + d.millis.toUInt64⟩

end HostClock

end EncounterTimeline
