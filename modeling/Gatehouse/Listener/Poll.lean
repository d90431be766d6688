import Gatehouse.Time.Duration
/-!
# Waiting on a listener

The system waits in whole milliseconds, at most `2 ^ 31 - 1` of them. A timeout is rounded up,
so that one below a millisecond does not turn the wait into a busy loop.
-/

namespace Gatehouse

/-- The longest wait, in milliseconds. -/
def longestPoll : Nat := 2147483647

def nanosPerMilli : Nat := 1000000

/-- The milliseconds to wait for a timeout. -/
def Duration.pollMillis (timeout : Duration) : Nat :=
  Nat.min ((timeout.nanos + (nanosPerMilli - 1)) / nanosPerMilli) longestPoll

/-- Short of the longest wait, a wait is the shortest that is no shorter than the timeout. -/
theorem Duration.pollMillis_le_iff (timeout : Duration) {millis : Nat} (lt : millis < longestPoll) :
    timeout.pollMillis ≤ millis ↔ timeout.nanos ≤ millis * nanosPerMilli := by
  unfold pollMillis nanosPerMilli
  show min ((timeout.nanos + (1000000 - 1)) / 1000000) longestPoll ≤ millis ↔ _
  omega

theorem Duration.pollMillis_le (timeout : Duration) : timeout.pollMillis ≤ longestPoll :=
  Nat.min_le_right _ _

end Gatehouse
