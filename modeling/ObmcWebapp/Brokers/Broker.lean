/-
# Brokers

A broker refreshes the published instances of one entity. It is due when it never
ran, or when it has a timeout and more than that has passed since it last
completed; a zero timeout makes it run once. `tryProcess` takes the broker's lock
without waiting, checks again that the broker is due, runs the query, binds the
listeners and publishes; any exception on the way leaves the broker as it was.

Times are whole seconds of the system clock.
-/

import ObmcWebapp.Core.Exceptions
import ObmcWebapp.Library.Fallible

namespace ObmcWebapp.Brokers

open ObmcWebapp.Core

structure Broker where
  lastExecutionTime : ℤ := 0
  /-- Time between two executions; a single shot for zero. -/
  timeout : ℤ
  watch : Bool
  deriving DecidableEq, Repr

namespace Broker

/-- `isTimeout` at a reading of the clock. -/
def isTimeout (broker : Broker) (now : ℤ) : Bool :=
  let isNeverRun := decide (broker.lastExecutionTime = 0)
  let isSingleShot := decide (broker.timeout = 0)
  let isActualTimeout := decide (now > broker.lastExecutionTime + broker.timeout)
  isNeverRun || (!isSingleShot && isActualTimeout)

/-- `setExecutionTime` at a reading of the clock. -/
def setExecutionTime (broker : Broker) (now : ℤ) : Broker :=
  { broker with lastExecutionTime := now }

theorem isTimeout_iff {broker : Broker} {now : ℤ} :
    broker.isTimeout now = true ↔
      broker.lastExecutionTime = 0 ∨
        (broker.timeout ≠ 0 ∧ broker.lastExecutionTime + broker.timeout < now) := by
  simp [isTimeout]

@[simp]
theorem setExecutionTime_lastExecutionTime (broker : Broker) (now : ℤ) :
    (broker.setExecutionTime now).lastExecutionTime = now := rfl

@[simp]
theorem setExecutionTime_timeout (broker : Broker) (now : ℤ) :
    (broker.setExecutionTime now).timeout = broker.timeout := rfl

/-- A due broker stays due as time passes. -/
theorem isTimeout_mono {broker : Broker} {now later : ℤ} (hle : now ≤ later)
    (hdue : broker.isTimeout now = true) : broker.isTimeout later = true := by
  rw [isTimeout_iff] at hdue ⊢
  exact hdue.imp id fun ⟨htimeout, hlt⟩ => ⟨htimeout, lt_of_lt_of_le hlt hle⟩

end Broker

end ObmcWebapp.Brokers
