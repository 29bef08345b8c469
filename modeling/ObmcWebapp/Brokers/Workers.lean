/-
# Worker threads on one broker

Any number of workers poll one broker. Each checks without the lock whether the
broker is due, tries the lock, checks again under the lock, runs the query,
publishes, records the execution time and unlocks; a failing query unlocks at
once. The steps of different workers interleave freely and the clock may advance
between any two of them.

Ownership of the lock is the whole argument: what the second check established
stays true until the owner itself records a new time.
-/

import ObmcWebapp.Brokers.Broker
import ObmcWebapp.Library.Execution

namespace ObmcWebapp.Brokers

namespace Workers

variable {ω : Type} [DecidableEq ω]

/-- Where a worker stands in its turn of the polling loop. -/
inductive WorkerPc
  | idle
  /-- The check without the lock found the broker due. -/
  | checked
  | locked
  /-- The check under the lock found the broker due. -/
  | due
  | processed
  | published
  /-- Returning or unwinding; the lock is still held. -/
  | unlocking
  deriving DecidableEq, Repr

/-- Between lock and unlock. -/
def WorkerPc.holdsLock : WorkerPc → Bool
  | idle | checked => false
  | _ => true

/-- After the check under the lock and before the new time is recorded. -/
def WorkerPc.refreshing : WorkerPc → Bool
  | due | processed | published => true
  | _ => false

/-- The clock advances, or one worker takes one step. -/
inductive WorkerStep (ω : Type)
  | tick (now : ℤ)
  | check (worker : ω)
  | tryLock (worker : ω)
  | recheck (worker : ω)
  | process (worker : ω)
  | fail (worker : ω)
  | setInstances (worker : ω)
  | setExecutionTime (worker : ω)
  | unlock (worker : ω)
  deriving DecidableEq

structure WorkersState (ω : Type) where
  broker : Broker
  clock : ℤ
  /-- The owner of `guardMutex`. -/
  owner : Option ω
  pc : ω → WorkerPc
  /-- History: the execution times recorded so far, latest first. -/
  completions : List ℤ

def WorkersState.goto (state : WorkersState ω) (worker : ω) (pc : WorkerPc) : WorkersState ω :=
  { state with pc := Function.update state.pc worker pc }

/-- Run one step, if the worker is at it. -/
def next (state : WorkersState ω) : WorkerStep ω → Option (WorkersState ω)
  | .tick now => if state.clock ≤ now then some { state with clock := now } else none
  | .check worker =>
      if state.pc worker = .idle then
        if state.broker.isTimeout state.clock then some (state.goto worker .checked)
        else some state
      else none
  | .tryLock worker =>
      if state.pc worker = .checked then
        if state.owner = none then
          some ({ state with owner := some worker }.goto worker .locked)
        else some (state.goto worker .idle)
      else none
  | .recheck worker =>
      if state.pc worker = .locked then
        if state.broker.isTimeout state.clock then some (state.goto worker .due)
        else some (state.goto worker .unlocking)
      else none
  | .process worker =>
      if state.pc worker = .due then some (state.goto worker .processed) else none
  | .fail worker =>
      if state.pc worker = .due then some (state.goto worker .unlocking) else none
  | .setInstances worker =>
      if state.pc worker = .processed then some (state.goto worker .published) else none
  | .setExecutionTime worker =>
      if state.pc worker = .published then
        some ({ state with
          broker := state.broker.setExecutionTime state.clock
          completions := state.clock :: state.completions }.goto worker .unlocking)
      else none
  | .unlock worker =>
      if state.pc worker = .unlocking then
        some ({ state with owner := none }.goto worker .idle)
      else none

/-- Workers on a broker with the given timeout, which has not run yet, from a clock
that reads at least one second. -/
def machine (ω : Type) [DecidableEq ω] (timeout : ℤ) (watch : Bool) :
    Machine (WorkersState ω) (WorkerStep ω) :=
  Machine.ofNext (fun state =>
    1 ≤ state.clock ∧ state.broker = { timeout, watch } ∧ state.owner = none ∧
      (∀ worker, state.pc worker = .idle) ∧ state.completions = []) next

/-- At most one worker is between lock and unlock. -/
def Exclusive (state : WorkersState ω) : Prop :=
  ∀ first second, (state.pc first).holdsLock = true → (state.pc second).holdsLock = true →
    first = second

/-- The recorded times respect the timeout: a single shot records once, and two
consecutive times are more than the timeout apart. -/
def Spaced (timeout : ℤ) (completions : List ℤ) : Prop :=
  (timeout = 0 → completions.length ≤ 1) ∧
  (0 < timeout → completions.IsChain fun later earlier => timeout < later - earlier)

/-- What ties the lock, the recorded time and the positions of the workers. -/
structure Scheduled (timeout : ℤ) (state : WorkersState ω) : Prop where
  clock : 1 ≤ state.clock
  period : state.broker.timeout = timeout
  /-- The owner of the lock is the worker inside. -/
  lock : ∀ worker, (state.pc worker).holdsLock = true ↔ state.owner = some worker
  /-- The finding of the second check is still true. -/
  due : ∀ worker, (state.pc worker).refreshing = true →
    state.broker.isTimeout state.clock = true
  /-- The broker remembers the latest completion. -/
  last : state.broker.lastExecutionTime = state.completions.headD 0
  positive : ∀ time ∈ state.completions, 1 ≤ time
  spaced : Spaced timeout state.completions

variable {timeout : ℤ} {watch : Bool} {state after : WorkersState ω}

omit [DecidableEq ω] in
theorem Scheduled.exclusive (hscheduled : Scheduled timeout state) : Exclusive state := by
  intro first second hfirst hsecond
  have howner := (hscheduled.lock first).mp hfirst
  rw [(hscheduled.lock second).mp hsecond] at howner
  exact (Option.some.inj howner).symm

theorem WorkerPc.holdsLock_of_refreshing {pc : WorkerPc} (hpc : pc.refreshing = true) :
    pc.holdsLock = true := by
  cases pc <;> simp_all [refreshing, holdsLock]

/-- A worker that moves without touching the lock, and does not start to refresh
unless the broker is due, keeps the schedule. -/
theorem Scheduled.goto (hscheduled : Scheduled timeout state) {worker : ω} {pc : WorkerPc}
    (hlock : pc.holdsLock = (state.pc worker).holdsLock)
    (hdue : pc.refreshing = true → state.broker.isTimeout state.clock = true) :
    Scheduled timeout (state.goto worker pc) where
  clock := hscheduled.clock
  period := hscheduled.period
  lock other := by
    by_cases hother : other = worker
    · subst hother
      simpa [WorkersState.goto, hlock] using hscheduled.lock other
    · simpa [WorkersState.goto, hother] using hscheduled.lock other
  due other hrefreshing := by
    by_cases hother : other = worker
    · subst hother
      exact hdue (by simpa [WorkersState.goto] using hrefreshing)
    · exact hscheduled.due other (by simpa [WorkersState.goto, hother] using hrefreshing)
  last := hscheduled.last
  positive := hscheduled.positive
  spaced := hscheduled.spaced

omit [DecidableEq ω] in
theorem Scheduled.tick (hscheduled : Scheduled timeout state) {now : ℤ}
    (hle : state.clock ≤ now) : Scheduled timeout { state with clock := now } where
  clock := hscheduled.clock.trans hle
  period := hscheduled.period
  lock := hscheduled.lock
  due worker hrefreshing := Broker.isTimeout_mono hle (hscheduled.due worker hrefreshing)
  last := hscheduled.last
  positive := hscheduled.positive
  spaced := hscheduled.spaced

theorem Scheduled.tryLock (hscheduled : Scheduled timeout state) {worker : ω}
    (hfree : state.owner = none) :
    Scheduled timeout ({ state with owner := some worker }.goto worker .locked) where
  clock := hscheduled.clock
  period := hscheduled.period
  lock other := by
    have hother : (state.pc other).holdsLock = false := by
      simpa [hfree] using hscheduled.lock other
    by_cases heq : other = worker
    · simp [WorkersState.goto, heq, WorkerPc.holdsLock]
    · simp [WorkersState.goto, heq, Ne.symm heq, hother]
  due other hrefreshing := by
    by_cases heq : other = worker
    · simp [WorkersState.goto, heq, WorkerPc.refreshing] at hrefreshing
    · exact hscheduled.due other (by simpa [WorkersState.goto, heq] using hrefreshing)
  last := hscheduled.last
  positive := hscheduled.positive
  spaced := hscheduled.spaced

/-- The owner leaves; nobody else was inside. -/
theorem Scheduled.unlock (hscheduled : Scheduled timeout state) {worker : ω}
    (hpc : state.pc worker = .unlocking) :
    Scheduled timeout ({ state with owner := none }.goto worker .idle) where
  clock := hscheduled.clock
  period := hscheduled.period
  lock other := by
    have howner := (hscheduled.lock worker).mp (by simp [hpc, WorkerPc.holdsLock])
    by_cases heq : other = worker
    · simp [WorkersState.goto, heq, WorkerPc.holdsLock]
    · have hother : (state.pc other).holdsLock = false := by
        simpa [howner, Ne.symm heq] using hscheduled.lock other
      simp [WorkersState.goto, heq, hother]
  due other hrefreshing := by
    by_cases heq : other = worker
    · simp [WorkersState.goto, heq, WorkerPc.refreshing] at hrefreshing
    · exact hscheduled.due other (by simpa [WorkersState.goto, heq] using hrefreshing)
  last := hscheduled.last
  positive := hscheduled.positive
  spaced := hscheduled.spaced

/-- A due broker may record the clock: it never ran, or it is periodic and its last
completion is more than the timeout ago. -/
theorem spaced_record {completions : List ℤ} {clock : ℤ}
    (hspaced : Spaced timeout completions) (hpositive : ∀ time ∈ completions, 1 ≤ time)
    (hdue : completions.headD 0 = 0 ∨ (timeout ≠ 0 ∧ completions.headD 0 + timeout < clock)) :
    Spaced timeout (clock :: completions) := by
  cases completions with
  | nil => exact ⟨fun _ => by simp, fun _ => by simp⟩
  | cons latest older =>
      have hlatest : 1 ≤ latest := hpositive latest (by simp)
      rcases hdue with hnever | ⟨htimeout, hlt⟩
      · simp only [List.headD_cons] at hnever
        omega
      · refine ⟨fun hsingle => absurd hsingle htimeout, fun hperiod => ?_⟩
        simp only [List.headD_cons] at hlt
        exact List.IsChain.cons_cons (by omega) (hspaced.2 hperiod)

theorem Scheduled.setExecutionTime (hscheduled : Scheduled timeout state) {worker : ω}
    (hpc : state.pc worker = .published) :
    Scheduled timeout ({ state with
      broker := state.broker.setExecutionTime state.clock
      completions := state.clock :: state.completions }.goto worker .unlocking) where
  clock := hscheduled.clock
  period := hscheduled.period
  lock other := by
    by_cases heq : other = worker
    · have hlock := hscheduled.lock other
      simp only [heq, hpc] at hlock
      simpa [WorkersState.goto, heq, WorkerPc.holdsLock] using hlock
    · simpa [WorkersState.goto, heq] using hscheduled.lock other
  due other hrefreshing := by
    by_cases heq : other = worker
    · simp [WorkersState.goto, heq, WorkerPc.refreshing] at hrefreshing
    · -- any other refreshing worker would hold the lock as well
      have hother : (state.pc other).refreshing = true := by
        simpa [WorkersState.goto, heq] using hrefreshing
      exact absurd (hscheduled.exclusive other worker (WorkerPc.holdsLock_of_refreshing hother)
        (by simp [hpc, WorkerPc.holdsLock])) heq
  last := rfl
  positive time hmem := by
    rcases List.mem_cons.mp hmem with rfl | hmem
    · exact hscheduled.clock
    · exact hscheduled.positive time hmem
  spaced := by
    have hdue := hscheduled.due worker (by simp [hpc, WorkerPc.refreshing])
    rw [Broker.isTimeout_iff, hscheduled.last, hscheduled.period] at hdue
    exact spaced_record hscheduled.spaced hscheduled.positive hdue

theorem scheduled_next (hscheduled : Scheduled timeout state) {label : WorkerStep ω}
    (hnext : next state label = some after) : Scheduled timeout after := by
  cases label with
  | tick now =>
      simp only [next] at hnext
      split at hnext
      · next hle => cases hnext; exact hscheduled.tick hle
      · cases hnext
  | check worker =>
      simp only [next] at hnext
      split_ifs at hnext with hpc hdue
      · cases hnext
        exact hscheduled.goto (by simp [hpc, WorkerPc.holdsLock]) (by simp [WorkerPc.refreshing])
      · cases hnext
        exact hscheduled
  | tryLock worker =>
      simp only [next] at hnext
      split_ifs at hnext with hpc hfree
      · cases hnext
        exact hscheduled.tryLock hfree
      · cases hnext
        exact hscheduled.goto (by simp [hpc, WorkerPc.holdsLock]) (by simp [WorkerPc.refreshing])
  | recheck worker =>
      simp only [next] at hnext
      split_ifs at hnext with hpc hdue
      · cases hnext
        exact hscheduled.goto (by simp [hpc, WorkerPc.holdsLock]) fun _ => hdue
      · cases hnext
        exact hscheduled.goto (by simp [hpc, WorkerPc.holdsLock]) (by simp [WorkerPc.refreshing])
  | process worker =>
      simp only [next] at hnext
      split_ifs at hnext with hpc
      cases hnext
      exact hscheduled.goto (by simp [hpc, WorkerPc.holdsLock]) fun _ =>
        hscheduled.due worker (by simp [hpc, WorkerPc.refreshing])
  | fail worker =>
      simp only [next] at hnext
      split_ifs at hnext with hpc
      cases hnext
      exact hscheduled.goto (by simp [hpc, WorkerPc.holdsLock]) (by simp [WorkerPc.refreshing])
  | setInstances worker =>
      simp only [next] at hnext
      split_ifs at hnext with hpc
      cases hnext
      exact hscheduled.goto (by simp [hpc, WorkerPc.holdsLock]) fun _ =>
        hscheduled.due worker (by simp [hpc, WorkerPc.refreshing])
  | setExecutionTime worker =>
      simp only [next] at hnext
      split_ifs at hnext with hpc
      cases hnext
      exact hscheduled.setExecutionTime hpc
  | unlock worker =>
      simp only [next] at hnext
      split_ifs at hnext with hpc
      cases hnext
      exact hscheduled.unlock hpc

theorem scheduled_reachable (hreach : (machine ω timeout watch).Reachable state) :
    Scheduled timeout state := by
  suffices hinvariant : Machine.Invariant _ (Scheduled timeout) from
    hinvariant.of_reachable hreach
  constructor
  · rintro first ⟨hclock, hbroker, howner, hidle, hnone⟩
    exact {
      clock := hclock
      period := by rw [hbroker]
      lock := by simp [hidle, howner, WorkerPc.holdsLock]
      due := by simp [hidle, WorkerPc.refreshing]
      last := by simp [hbroker, hnone]
      positive := by simp [hnone]
      spaced := by simp [Spaced, hnone] }
  · intro prior label after hscheduled hstep
    exact scheduled_next hscheduled hstep

/-- In every interleaving at most one worker is inside, and the recorded execution
times respect the timeout. -/
theorem exclusive_and_spaced (hreach : (machine ω timeout watch).Reachable state) :
    Exclusive state ∧ Spaced timeout state.completions :=
  ⟨(scheduled_reachable hreach).exclusive, (scheduled_reachable hreach).spaced⟩

/-- One worker refreshes a periodic broker while another finds the lock taken. -/
theorem exclusive_and_spaced_contended :
    ∃ state : WorkersState Bool, (machine Bool 5 false).Reachable state ∧
      state.completions = [7] ∧ Exclusive state ∧ Spaced 5 state.completions := by
  let first : WorkersState Bool := ⟨{ timeout := 5, watch := false }, 7, none, fun _ => .idle, []⟩
  let steps : List (WorkerStep Bool) :=
    [.check true, .check false, .tryLock true, .tryLock false, .recheck true, .process true,
      .setInstances true, .setExecutionTime true]
  have hlast : (steps.foldlM next first).map WorkersState.completions = some [7] := by decide
  obtain ⟨state, hrun, hcompletions⟩ := Option.map_eq_some_iff.mp hlast
  have hreach : (machine Bool 5 false).Reachable state :=
    Machine.Reachable.of_foldlM ⟨by decide, rfl, rfl, fun _ => rfl, rfl⟩ hrun
  exact ⟨state, hreach, hcompletions, exclusive_and_spaced hreach⟩

end Workers

end ObmcWebapp.Brokers
