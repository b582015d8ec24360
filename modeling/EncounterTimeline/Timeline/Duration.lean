/-! # Durations

Lengths of time in whole nanoseconds. Playback computes in seconds as doubles; the whole seconds and the
remaining nanoseconds are converted apart and then added.
-/
namespace EncounterTimeline

structure Duration where
  nanos : Nat
  deriving DecidableEq, Repr, Inhabited

namespace Duration

def zero : Duration := ⟨0⟩

def ofMillis (n : Nat) : Duration := ⟨n * 1000000⟩

def millis (d : Duration) : Nat := d.nanos / 1000000

def seconds (d : Duration) : Float :=
  (d.nanos / 1000000000).toFloat + (d.nanos % 1000000000).toFloat / 1e9

/-- The time passed since an earlier moment, or nothing if that moment is later. -/
def since (later earlier : Duration) : Duration := ⟨later.nanos - earlier.nanos⟩

def atMost (d limit : Duration) : Duration := ⟨min d.nanos limit.nanos⟩

@[simp] theorem millis_ofMillis (n : Nat) : (ofMillis n).millis = n := by
  simp [millis, ofMillis]

end Duration

end EncounterTimeline
