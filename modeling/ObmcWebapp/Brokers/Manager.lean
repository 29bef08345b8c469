/-
# The broker manager

The manager starts a number of worker threads and one thread for the objects of the bus,
and stops them: `terminate` clears the active flag and joins the threads one after
another. A worker visits the bound brokers in order, round after round; its turn on a
broker is that of a worker on one broker, step by step. After the brokers it waits for
signals and dispatches them. An exception that leaves a thread ends the process.

Waiting has a limit of five seconds, so it always ends. The signal that asks to terminate
is handled outside of the threads of the manager.
-/

import ObmcWebapp.Brokers.Workers

namespace ObmcWebapp.Brokers

/-- What a broker is constructed with. -/
structure BrokerArgs where
  watch : Bool := true
  /-- In seconds; a single shot for zero. -/
  timeout : ℤ := 0

def BrokerArgs.broker (args : BrokerArgs) : Broker where
  timeout := args.timeout
  watch := args.watch

/-- `DBusBrokerManager`, by its number of workers and the bound brokers. -/
structure DBusBrokerManager where
  threadsBrokersTaskCount : ℕ := 10
  brokers : List BrokerArgs := []

/-- The workers and the thread for the objects, which comes last. -/
def DBusBrokerManager.threadCount (manager : DBusBrokerManager) : ℕ :=
  manager.threadsBrokersTaskCount + 1

namespace ManagerRuns

open Workers (WorkerPc WorkerStep WorkersState)

/-- Where a thread stands. -/
inductive Thread
  | unborn
  /-- A worker that has not opened its connections. -/
  | connecting
  /-- At the test of the active flag. -/
  | testing
  /-- At a bound broker. -/
  | visiting (position : ℕ) (pc : WorkerPc)
  /-- Waiting for signals and dispatching them. -/
  | waiting
  | exited
  deriving DecidableEq, Repr

/-- Where a thread stands at one broker. -/
def Thread.pcAt (position : ℕ) : Thread → WorkerPc
  | .visiting current pc => if current = position then pc else .idle
  | _ => .idle

/-- What the program has asked the manager for. -/
inductive Control
  | configured
  | started
  /-- In `terminate`, with so many threads joined. -/
  | terminating (joined : ℕ)
  | terminated
  /-- An exception left a thread or `terminate`. -/
  | crashed
  deriving DecidableEq, Repr

/-- A broker object with its lock. -/
structure Cell where
  broker : Broker
  owner : Option ℕ := none
  /-- History: the execution times recorded so far, latest first. -/
  completions : List ℤ := []

structure ManagerState where
  active : Bool := false
  clock : ℤ
  control : Control := .configured
  cells : ℕ → Cell
  threads : ℕ → Thread := fun _ => .unborn

/-- The steps of a worker at a broker. -/
inductive TurnStep
  | check | tryLock | recheck | process | setInstances | setExecutionTime | unlock
  deriving DecidableEq, Repr

/-- The step as one of a worker on one broker. -/
def TurnStep.of (step : TurnStep) (thread : ℕ) : WorkerStep ℕ :=
  match step with
  | .check => .check thread
  | .tryLock => .tryLock thread
  | .recheck => .recheck thread
  | .process => .process thread
  | .setInstances => .setInstances thread
  | .setExecutionTime => .setExecutionTime thread
  | .unlock => .unlock thread

inductive ManagerStep
  | tick (now : ℤ)
  | start
  | connect (thread : ℕ)
  | testActive (thread : ℕ)
  | turn (thread : ℕ) (step : TurnStep)
  | processDiscard (thread : ℕ)
  /-- An exception leaves the thread. -/
  | raise (thread : ℕ)
  | terminate
  | join
  deriving DecidableEq, Repr

namespace ManagerState

def goto (state : ManagerState) (thread : ℕ) (place : Thread) : ManagerState :=
  { state with threads := Function.update state.threads thread place }

@[simp]
theorem threads_goto (state : ManagerState) (thread : ℕ) (place : Thread) :
    (state.goto thread place).threads thread = place := by
  simp [goto]

theorem threads_goto_of_ne (state : ManagerState) {thread other : ℕ} (place : Thread)
    (hother : other ≠ thread) : (state.goto thread place).threads other = state.threads other := by
  simp [goto, hother]

/-- What the workers do at one broker. -/
def view (state : ManagerState) (position : ℕ) : WorkersState ℕ where
  broker := (state.cells position).broker
  clock := state.clock
  owner := (state.cells position).owner
  pc thread := Thread.pcAt position (state.threads thread)
  completions := (state.cells position).completions

end ManagerState

section Steps

variable (manager : DBusBrokerManager)

/-- The next broker of a round, or the end of the loop over the brokers. -/
def nextBroker (position : ℕ) : Thread :=
  if position < manager.brokers.length then .visiting position .idle else .waiting

/-- A thread after a step at a broker: a worker that is done with it goes on. -/
def afterTurn (position : ℕ) (pc : WorkerPc) : Thread :=
  if pc = .idle then nextBroker manager (position + 1) else .visiting position pc

/-- Put back what a worker did at a broker. -/
def putView (state : ManagerState) (thread position : ℕ) (left : WorkersState ℕ) :
    ManagerState :=
  { state with
    cells := Function.update state.cells position ⟨left.broker, left.owner, left.completions⟩ }.goto
    thread (afterTurn manager position (left.pc thread))

@[simp]
theorem threads_putView (state : ManagerState) (thread position : ℕ) (left : WorkersState ℕ) :
    (putView manager state thread position left).threads thread =
      afterTurn manager position (left.pc thread) :=
  ManagerState.threads_goto _ _ _

theorem threads_putView_of_ne (state : ManagerState) {thread other : ℕ} (position : ℕ)
    (left : WorkersState ℕ) (hother : other ≠ thread) :
    (putView manager state thread position left).threads other = state.threads other :=
  ManagerState.threads_goto_of_ne _ _ hother

/-- Where a thread begins. -/
def born (thread : ℕ) : Thread :=
  if thread < manager.threadsBrokersTaskCount then .connecting
  else if thread < manager.threadCount then .testing
  else .unborn

theorem born_ne_unborn {thread : ℕ} (hlt : thread < manager.threadCount) :
    born manager thread ≠ .unborn := by
  rw [born]
  split_ifs <;> nofun

theorem born_of_le {thread : ℕ} (hle : manager.threadCount ≤ thread) :
    born manager thread = .unborn := by
  have hworker : ¬ thread < manager.threadsBrokersTaskCount :=
    not_lt.mpr ((Nat.le_succ _).trans hle)
  rw [born, if_neg hworker, if_neg (not_lt.mpr hle)]

theorem born_ne_visiting (thread position : ℕ) (pc : WorkerPc) :
    born manager thread ≠ .visiting position pc := by
  rw [born]
  split_ifs <;> nofun

/-- A place that an exception can leave: connecting to the bus, the query, binding the
listeners and dispatching signals raise. -/
def raises : Thread → Bool
  | .connecting | .visiting _ .due | .visiting _ .processed | .waiting => true
  | _ => false

/-- `join` on the next thread, until all are joined. -/
def joinNext (state : ManagerState) (joined : ℕ) : Option ManagerState :=
  if joined = manager.threadCount then some { state with control := .terminated }
  else if state.threads joined = .exited then
    some { state with control := .terminating (joined + 1) }
  else none

/-- Run one step, if the process still runs and the thread is at it. -/
def next (state : ManagerState) (step : ManagerStep) : Option ManagerState :=
  if state.control = .crashed then none
  else
    match step with
    | .tick now => if state.clock ≤ now then some { state with clock := now } else none
    | .start =>
        if state.control = .configured then
          some { state with active := true, control := .started, threads := born manager }
        else none
    | .connect thread =>
        if state.threads thread = .connecting then some (state.goto thread .testing) else none
    | .testActive thread =>
        if state.threads thread = .testing then
          if state.active = false then some (state.goto thread .exited)
          else if thread < manager.threadsBrokersTaskCount then
            some (state.goto thread (nextBroker manager 0))
          else some (state.goto thread .waiting)
        else none
    | .turn thread step =>
        match state.threads thread with
        | .visiting position _ =>
            (Workers.next (state.view position) (step.of thread)).map
              (putView manager state thread position)
        | _ => none
    | .processDiscard thread =>
        if state.threads thread = .waiting then some (state.goto thread .testing) else none
    | .raise thread =>
        if raises (state.threads thread) then some { state with control := .crashed } else none
    | .terminate =>
        match state.control with
        | .started => some { state with active := false, control := .terminating 0 }
        -- the threads are still there and cannot be joined twice
        | .terminated => some { state with active := false, control := .crashed }
        | _ => none
    | .join =>
        match state.control with
        | .terminating joined => joinNext manager state joined
        | _ => none

/-- The manager with its brokers bound, from a clock that reads at least one second. -/
def machine : Machine ManagerState ManagerStep :=
  .ofNext (fun state =>
    1 ≤ state.clock ∧ state.active = false ∧ state.control = .configured ∧
      (∀ thread, state.threads thread = .unborn) ∧
      ∀ position, ∀ args ∈ manager.brokers[position]?, state.cells position = { broker := args.broker })
    (next manager)

/-- What a step does, by its cases. -/
inductive Taken (state : ManagerState) : ManagerStep → ManagerState → Prop
  | tick {now : ℤ} (hle : state.clock ≤ now) : Taken state (.tick now) { state with clock := now }
  | start (hcontrol : state.control = .configured) :
      Taken state .start { state with active := true, control := .started, threads := born manager }
  | connect {thread : ℕ} (hplace : state.threads thread = .connecting) :
      Taken state (.connect thread) (state.goto thread .testing)
  | leave {thread : ℕ} (hplace : state.threads thread = .testing) (hinactive : state.active = false) :
      Taken state (.testActive thread) (state.goto thread .exited)
  | round {thread : ℕ} (hplace : state.threads thread = .testing) (hactive : state.active = true)
      (hworker : thread < manager.threadsBrokersTaskCount) :
      Taken state (.testActive thread) (state.goto thread (nextBroker manager 0))
  | observe {thread : ℕ} (hplace : state.threads thread = .testing) (hactive : state.active = true)
      (hobserver : ¬ thread < manager.threadsBrokersTaskCount) :
      Taken state (.testActive thread) (state.goto thread .waiting)
  | turn {thread position : ℕ} {pc : WorkerPc} {step : TurnStep} {left : WorkersState ℕ}
      (hvisiting : state.threads thread = .visiting position pc)
      (hturn : Workers.next (state.view position) (step.of thread) = some left) :
      Taken state (.turn thread step) (putView manager state thread position left)
  | processDiscard {thread : ℕ} (hplace : state.threads thread = .waiting) :
      Taken state (.processDiscard thread) (state.goto thread .testing)
  | raise {thread : ℕ} (hraises : raises (state.threads thread) = true) :
      Taken state (.raise thread) { state with control := .crashed }
  | terminate (hcontrol : state.control = .started) :
      Taken state .terminate { state with active := false, control := .terminating 0 }
  | terminateAgain (hcontrol : state.control = .terminated) :
      Taken state .terminate { state with active := false, control := .crashed }
  | joinNext {joined : ℕ} (hcontrol : state.control = .terminating joined)
      (hmore : joined ≠ manager.threadCount) (hexited : state.threads joined = .exited) :
      Taken state .join { state with control := .terminating (joined + 1) }
  | joinAll (hcontrol : state.control = .terminating manager.threadCount) :
      Taken state .join { state with control := .terminated }

/-- The cases of a step are exactly what the process, as long as it runs, does. -/
theorem next_eq_some_iff {state after : ManagerState} {step : ManagerStep} :
    next manager state step = some after ↔
      state.control ≠ .crashed ∧ Taken manager state step after := by
  constructor
  · intro hnext
    by_cases hcrashed : state.control = .crashed
    · simp [next, hcrashed] at hnext
    · refine ⟨hcrashed, ?_⟩
      simp only [next, hcrashed, if_false] at hnext
      cases step with
      | tick now =>
          simp only at hnext
          split_ifs at hnext with hle
          cases hnext
          exact .tick hle
      | start =>
          simp only at hnext
          split_ifs at hnext with hcontrol
          cases hnext
          exact .start hcontrol
      | connect thread =>
          simp only at hnext
          split_ifs at hnext with hplace
          cases hnext
          exact .connect hplace
      | testActive thread =>
          simp only at hnext
          split_ifs at hnext with hplace hinactive hworker <;> cases hnext
          · exact .leave hplace hinactive
          · exact .round hplace (Bool.not_eq_false _ ▸ hinactive) hworker
          · exact .observe hplace (Bool.not_eq_false _ ▸ hinactive) hworker
      | turn thread step =>
          simp only at hnext
          split at hnext
          next position pc hvisiting =>
            obtain ⟨left, hturn, rfl⟩ := Option.map_eq_some_iff.mp hnext
            exact .turn hvisiting hturn
          next => cases hnext
      | processDiscard thread =>
          simp only at hnext
          split_ifs at hnext with hplace
          cases hnext
          exact .processDiscard hplace
      | raise thread =>
          simp only at hnext
          split_ifs at hnext with hraises
          cases hnext
          exact .raise hraises
      | terminate =>
          simp only at hnext
          split at hnext
          next hcontrol => cases hnext; exact .terminate hcontrol
          next hcontrol => cases hnext; exact .terminateAgain hcontrol
          next => cases hnext
      | join =>
          simp only at hnext
          split at hnext
          next joined hcontrol =>
            rw [joinNext] at hnext
            split_ifs at hnext with hall hexited <;> cases hnext
            · exact .joinAll (hall ▸ hcontrol)
            · exact .joinNext hcontrol hall hexited
          next => cases hnext
  · rintro ⟨hcrashed, htaken⟩
    cases htaken <;> simp_all [next, joinNext]

end Steps

end ManagerRuns

end ObmcWebapp.Brokers
