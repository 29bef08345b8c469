/-
# The polling loop of a worker thread

`doCaptureDbus` visits the bound brokers round after round. A broker that is due is
given to `tryProcess`, which refreshes its entity; after the brokers the loop
dispatches the signals that arrived. No call in the loop is guarded, so the first
exception leaves the thread function and ends the process.

Other workers run the same loop on the same brokers. What they complete before a
turn, and between its first check and its lock, is part of what the turn meets.
-/

import ObmcWebapp.Brokers.Broker
import ObmcWebapp.Entities.Manager
import ObmcWebapp.Entities.Sensors

namespace ObmcWebapp.Brokers

open ObmcWebapp.Core ObmcWebapp.Entities

structure EntityDbusBroker extends Broker where
  entity : EntityId
  entityQuery : Option EntityQuery

namespace CaptureLoop

/-- A refresh that was carried through: the instances published and the time
recorded. -/
structure Completion where
  instances : List DBusInstance
  time : ℤ

/-- What one visit of one broker meets. -/
structure Turn where
  /-- What another worker completed before the visit. -/
  elsewhere : Option Completion := none
  checkNow : ℤ
  /-- What another worker completed between the check and the lock. -/
  overtaken : Option Completion := none
  lockFree : Bool := true
  recheckNow : ℤ
  replies : BusReplies
  bindListeners : DBusInstance → Except Exception PUnit
  recordNow : ℤ

/-- One round: the turn at each position, and how the dispatch of signals ends. -/
structure Round where
  turn : ℕ → Turn
  dispatch : Except Exception PUnit

/-- History of one visit. -/
structure Visit where
  broker : ℕ
  turn : Turn
  /-- The record the first check found. -/
  found : Broker
  attempted : Bool
  failed : Bool
  /-- The record after the visit. -/
  left : Broker

/-- The broker objects behind the shared pointers, the entities, and the history of
visits in order. -/
structure CaptureState where
  brokers : ℕ → EntityDbusBroker
  store : EntityStore
  visits : List Visit

/-- `setExecutionTime` on a broker object. -/
def setExecutionTime (broker : EntityDbusBroker) (now : ℤ) : EntityDbusBroker :=
  { broker with toBroker := broker.toBroker.setExecutionTime now }

def CaptureState.record (state : CaptureState) (visit : Visit) : CaptureState :=
  { state with visits := state.visits ++ [visit] }

section Loop

variable [StdHash]

/-- `setInstances` and `setExecutionTime`. -/
def CaptureState.complete (state : CaptureState) (id : ℕ) (completion : Completion) :
    CaptureState :=
  { state with
    store := state.store.setInstances (state.brokers id).entity completion.instances
    brokers := Function.update state.brokers id
      (setExecutionTime (state.brokers id) completion.time) }

/-- What another worker did. -/
def CaptureState.meet (state : CaptureState) (id : ℕ) : Option Completion → CaptureState
  | none => state
  | some completion => state.complete id completion

/-- Query and listeners. -/
def refresh (broker : EntityDbusBroker) (entityName : String) (turn : Turn) :
    Except Exception (List DBusInstance) :=
  match broker.entityQuery with
  | none => .error (.obmcApp ("Query not registried! Entity=" ++ entityName))
  | some query => do
      let instances ← query.process turn.replies
      if broker.watch then instances.forM turn.bindListeners
      return instances

/-- `tryProcess`, from the attempt to lock. -/
def tryProcess (id : ℕ) (turn : Turn) : EStateM Exception CaptureState Bool := fun state =>
  let broker := state.brokers id
  if turn.lockFree = false then .ok false state
  else if broker.isTimeout turn.recheckNow = false then .ok false state
  else
    match refresh broker (state.store.objects broker.entity).name turn with
    | .error exception => .error exception state
    | .ok instances => .ok true (state.complete id ⟨instances, turn.recordNow⟩)

/-- The body of the loop over the brokers. The result of `tryProcess` is only
logged. -/
def visitBroker (id : ℕ) (turn : Turn) : EStateM Exception CaptureState PUnit := fun state =>
  let state := state.meet id turn.elsewhere
  let found := (state.brokers id).toBroker
  if found.isTimeout turn.checkNow then
    match tryProcess id turn (state.meet id turn.overtaken) with
    | .ok _ after =>
        .ok ⟨⟩ (after.record ⟨id, turn, found, true, false, (after.brokers id).toBroker⟩)
    | .error exception after =>
        .error exception
          (after.record ⟨id, turn, found, true, true, (after.brokers id).toBroker⟩)
  else .ok ⟨⟩ (state.record ⟨id, turn, found, false, false, found⟩)

/-- The visits of one round: each bound broker at its position. -/
def Round.schedule (round : Round) (bound : List ℕ) : List (ℕ × Turn) :=
  bound.zipIdx.map fun item => (item.1, round.turn item.2)

/-- `wait` and `process_discard` on the connection of the listeners. -/
def processDiscard (round : Round) : EStateM Exception CaptureState PUnit := fun state =>
  match round.dispatch with
  | .ok _ => .ok ⟨⟩ state
  | .error exception => .error exception state

/-- One round of the loop. -/
def captureRound (bound : List ℕ) (round : Round) : EStateM Exception CaptureState PUnit := do
  Fallible.forEach (fun item => visitBroker item.1 item.2) (round.schedule bound)
  processDiscard round

/-- `doCaptureDbus` as the function of a thread, over the rounds it enters while the
active flag is set. An exception that leaves it terminates the process. -/
def doCaptureDbus (bound : List ℕ) (rounds : List Round) : EStateM Failure CaptureState PUnit :=
  fun state =>
    match Fallible.forEach (captureRound bound) rounds state with
    | .ok _ after => .ok ⟨⟩ after
    | .error _ after => .error .terminated after

/-- The thread returns after its last round. -/
def StaysAlive (result : EStateM.Result Failure CaptureState PUnit) : Prop :=
  ∃ after, result = .ok ⟨⟩ after

/-- The state a run ends in, with a value or not. -/
def finalState : EStateM.Result Failure CaptureState PUnit → CaptureState
  | .ok _ after => after
  | .error _ after => after

/-- Every bound broker is visited in every round, and attempted if it is due. -/
def AttemptsEveryDue (bound : List ℕ) (rounds : List Round)
    (result : EStateM.Result Failure CaptureState PUnit) : Prop :=
  (finalState result).visits.map (fun visit => (visit.broker, visit.turn)) =
      rounds.flatMap (fun round => round.schedule bound) ∧
    ∀ visit ∈ (finalState result).visits,
      visit.found.isTimeout visit.turn.checkNow = true → visit.attempted = true

/-- A visit that failed leaves its broker due from then on. -/
def LeavesFailedDue (result : EStateM.Result Failure CaptureState PUnit) : Prop :=
  ∀ visit ∈ (finalState result).visits, visit.failed = true →
    ∀ now, visit.turn.recheckNow ≤ now → visit.left.isTimeout now = true

/-- The broker after another worker's completion. -/
def meet (broker : EntityDbusBroker) (completion : Option Completion) : EntityDbusBroker :=
  match completion with
  | none => broker
  | some completion => setExecutionTime broker completion.time

/-- The broker as the first check of a turn finds it. -/
def atCheck (broker : EntityDbusBroker) (turn : Turn) : EntityDbusBroker :=
  meet broker turn.elsewhere

/-- The broker as the attempt to lock finds it. -/
def atLock (broker : EntityDbusBroker) (turn : Turn) : EntityDbusBroker :=
  meet (atCheck broker turn) turn.overtaken

/-- An attempt gets as far as the query: the lock is free and the second check finds
the broker still due. -/
def Enters (broker : EntityDbusBroker) (turn : Turn) : Prop :=
  turn.lockFree = true ∧ broker.isTimeout turn.recheckNow = true

instance (broker : EntityDbusBroker) (turn : Turn) : Decidable (Enters broker turn) :=
  inferInstanceAs (Decidable (_ ∧ _))

/-- The query runs in a turn: the broker is due at both checks and its lock is
free. -/
def Runs (broker : EntityDbusBroker) (turn : Turn) : Prop :=
  (atCheck broker turn).isTimeout turn.checkNow = true ∧ Enters (atLock broker turn) turn

/-- The broker after a turn whose query, if it runs, succeeds. -/
def afterTurn (broker : EntityDbusBroker) (turn : Turn) : EntityDbusBroker :=
  if (atCheck broker turn).isTimeout turn.checkNow = true then
    if Enters (atLock broker turn) turn then
      setExecutionTime (atLock broker turn) turn.recordNow
    else atLock broker turn
  else atCheck broker turn

/-- The query and the listeners of a broker give no exception in a turn. -/
def Refreshes (broker : EntityDbusBroker) (turn : Turn) : Prop :=
  ∃ query instances, broker.entityQuery = some query ∧
    query.process turn.replies = .ok instances ∧
    (broker.watch = true → instances.forM turn.bindListeners = .ok ⟨⟩)

/-- Along a list of visits, every query that runs succeeds. -/
def Faultless (brokers : ℕ → EntityDbusBroker) : List (ℕ × Turn) → Prop
  | [] => True
  | (id, turn) :: rest =>
      (Runs (brokers id) turn → Refreshes (brokers id) turn) ∧
        Faultless (Function.update brokers id (afterTurn (brokers id) turn)) rest

def afterTurns (brokers : ℕ → EntityDbusBroker) : List (ℕ × Turn) → (ℕ → EntityDbusBroker)
  | [] => brokers
  | (id, turn) :: rest =>
      afterTurns (Function.update brokers id (afterTurn (brokers id) turn)) rest

/-- In every round the queries that run succeed, and so does the dispatch. -/
def NoFailure (bound : List ℕ) (brokers : ℕ → EntityDbusBroker) : List Round → Prop
  | [] => True
  | round :: rest =>
      Faultless brokers (round.schedule bound) ∧ round.dispatch = .ok ⟨⟩ ∧
        NoFailure bound (afterTurns brokers (round.schedule bound)) rest

/-- What every visit guarantees, also one that fails. -/
structure Visit.Sound (visit : Visit) : Prop where
  attempted : visit.found.isTimeout visit.turn.checkNow = true → visit.attempted = true
  leftDue : visit.failed = true →
    ∀ now, visit.turn.recheckNow ≤ now → visit.left.isTimeout now = true

omit [StdHash] in
theorem atLock_entityQuery (broker : EntityDbusBroker) (turn : Turn) :
    (atLock broker turn).entityQuery = broker.entityQuery := by
  unfold atLock atCheck
  cases turn.overtaken <;> cases turn.elsewhere <;> rfl

omit [StdHash] in
theorem atLock_watch (broker : EntityDbusBroker) (turn : Turn) :
    (atLock broker turn).watch = broker.watch := by
  unfold atLock atCheck
  cases turn.overtaken <;> cases turn.elsewhere <;> rfl

theorem refreshes_atLock (broker : EntityDbusBroker) (turn : Turn) :
    Refreshes (atLock broker turn) turn ↔ Refreshes broker turn := by
  unfold Refreshes
  rw [atLock_entityQuery, atLock_watch]

theorem CaptureState.brokers_meet (state : CaptureState) (id : ℕ)
    (completion : Option Completion) :
    (state.meet id completion).brokers =
      Function.update state.brokers id (CaptureLoop.meet (state.brokers id) completion) := by
  cases completion with
  | none => exact (Function.update_eq_self id state.brokers).symm
  | some completion => rfl

@[simp]
theorem CaptureState.visits_meet (state : CaptureState) (id : ℕ)
    (completion : Option Completion) : (state.meet id completion).visits = state.visits := by
  cases completion <;> rfl

theorem refresh_eq_ok_iff {broker : EntityDbusBroker} (entityName : String) {turn : Turn} :
    (∃ instances, refresh broker entityName turn = .ok instances) ↔ Refreshes broker turn := by
  unfold refresh Refreshes
  cases broker.entityQuery with
  | none => simp
  | some query =>
      cases hprocess : query.process turn.replies with
      | error exception => simp [hprocess, bind, Except.bind]
      | ok instances =>
          cases broker.watch with
          | false => simp [hprocess, bind, Except.bind, pure, Except.pure]
          | true =>
              cases hlisten : forM instances turn.bindListeners with
              | error exception => simp [hprocess, hlisten, bind, Except.bind]
              | ok _ => simp [hprocess, hlisten, bind, Except.bind, pure, Except.pure]

/-- An attempt that does not get to the query changes nothing. -/
theorem tryProcess_of_not_enters {id : ℕ} {turn : Turn} {state : CaptureState}
    (henters : ¬ Enters (state.brokers id) turn) :
    tryProcess id turn state = .ok false state := by
  simp only [tryProcess]
  split_ifs with hlock hrecheck
  · rfl
  · rfl
  · exact absurd ⟨by simpa using hlock, by simpa using hrecheck⟩ henters

/-- An attempt that gets to the query completes the refresh, or throws and leaves the
state as it was. -/
theorem tryProcess_of_enters {id : ℕ} {turn : Turn} {state : CaptureState}
    (henters : Enters (state.brokers id) turn) :
    (Refreshes (state.brokers id) turn ∧ ∃ instances,
      tryProcess id turn state = .ok true (state.complete id ⟨instances, turn.recordNow⟩)) ∨
    (¬ Refreshes (state.brokers id) turn ∧ ∃ exception,
      tryProcess id turn state = .error exception state) := by
  obtain ⟨hlock, hrecheck⟩ := henters
  simp only [tryProcess, hlock, hrecheck, Bool.true_eq_false, if_false,
    ← refresh_eq_ok_iff (state.store.objects (state.brokers id).entity).name]
  cases hrefresh : refresh (state.brokers id)
      (state.store.objects (state.brokers id).entity).name turn with
  | error exception => exact .inr ⟨by simp, exception, rfl⟩
  | ok instances => exact .inl ⟨⟨instances, rfl⟩, instances, rfl⟩

/-- The whole of one visit: it is recorded, and it fails exactly when a query runs
and does not succeed. -/
theorem visitBroker_spec (id : ℕ) (turn : Turn) (state : CaptureState) :
    ∃ visit : Visit, visit.broker = id ∧ visit.turn = turn ∧ visit.Sound ∧
      match visitBroker id turn state with
      | .ok _ after =>
          (Runs (state.brokers id) turn → Refreshes (state.brokers id) turn) ∧
          after.brokers =
            Function.update state.brokers id (afterTurn (state.brokers id) turn) ∧
          after.visits = state.visits ++ [visit]
      | .error _ after =>
          ¬ (Runs (state.brokers id) turn → Refreshes (state.brokers id) turn) ∧
          after.visits = state.visits ++ [visit] := by
  have hchecked : (state.meet id turn.elsewhere).brokers id = atCheck (state.brokers id) turn := by
    simp [CaptureState.brokers_meet, atCheck]
  have hlocking : ((state.meet id turn.elsewhere).meet id turn.overtaken).brokers =
      Function.update state.brokers id (atLock (state.brokers id) turn) := by
    simp [CaptureState.brokers_meet, atLock, atCheck]
  have hvisits : ((state.meet id turn.elsewhere).meet id turn.overtaken).visits =
      state.visits := by simp
  simp only [visitBroker, hchecked]
  by_cases hcheck : (atCheck (state.brokers id) turn).isTimeout turn.checkNow = true
  · generalize (state.meet id turn.elsewhere).meet id turn.overtaken = locking at *
    have hlocked : locking.brokers id = atLock (state.brokers id) turn := by simp [hlocking]
    simp only [hcheck, if_true]
    by_cases henters : Enters (atLock (state.brokers id) turn) turn
    · have hruns : Runs (state.brokers id) turn := ⟨hcheck, henters⟩
      rcases tryProcess_of_enters (hlocked.symm ▸ henters) with
        ⟨hrefreshes, instances, htry⟩ | ⟨hrefreshes, exception, htry⟩
      · rw [hlocked, refreshes_atLock] at hrefreshes
        simp only [htry]
        refine ⟨⟨id, turn, _, true, false, _⟩, rfl, rfl, ⟨fun _ => rfl, nofun⟩,
          fun _ => hrefreshes, ?_, by rw [← hvisits]; rfl⟩
        simp [CaptureState.record, CaptureState.complete, hlocking, afterTurn, hcheck, henters]
      · rw [hlocked, refreshes_atLock] at hrefreshes
        simp only [htry]
        refine ⟨⟨id, turn, _, true, true, _⟩, rfl, rfl, ⟨fun _ => rfl, fun _ now hle => ?_⟩,
          fun himp => hrefreshes (himp hruns), by rw [← hvisits]; rfl⟩
        simp only [hlocked]
        exact Broker.isTimeout_mono hle henters.2
    · -- the lock is taken, or the second check finds the broker done
      simp only [tryProcess_of_not_enters (hlocked.symm ▸ henters)]
      refine ⟨⟨id, turn, _, true, false, _⟩, rfl, rfl, ⟨fun _ => rfl, nofun⟩,
        fun hruns => absurd hruns.2 henters, ?_, by rw [← hvisits]; rfl⟩
      simp [CaptureState.record, hlocking, afterTurn, hcheck, henters]
  · have hafter : afterTurn (state.brokers id) turn = atCheck (state.brokers id) turn :=
      if_neg hcheck
    rw [if_neg hcheck, hafter]
    refine ⟨⟨id, turn, (atCheck (state.brokers id) turn).toBroker, false, false,
      (atCheck (state.brokers id) turn).toBroker⟩, rfl, rfl,
      ⟨fun hdue => absurd hdue hcheck, nofun⟩, fun hruns => absurd hruns.1 hcheck, ?_, ?_⟩
    · exact CaptureState.brokers_meet state id turn.elsewhere
    · exact congrArg (· ++ [_]) (CaptureState.visits_meet state id turn.elsewhere)

/-- The visits a walk adds to the history follow the schedule and are sound. -/
def Recorded (before after : CaptureState) (scheduled : List (ℕ × Turn)) : Prop :=
  ∃ visits : List Visit, after.visits = before.visits ++ visits ∧
    visits.map (fun visit => (visit.broker, visit.turn)) = scheduled ∧
    ∀ visit ∈ visits, visit.Sound

/-- The visits added before a failure are sound. -/
def Sounds (before after : CaptureState) : Prop :=
  ∃ visits : List Visit, after.visits = before.visits ++ visits ∧ ∀ visit ∈ visits, visit.Sound

omit [StdHash] in
theorem Recorded.sounds {before after : CaptureState} {scheduled : List (ℕ × Turn)}
    (hrecorded : Recorded before after scheduled) : Sounds before after := by
  obtain ⟨visits, hvisits, -, hsound⟩ := hrecorded
  exact ⟨visits, hvisits, hsound⟩

omit [StdHash] in
theorem Recorded.trans {before middle after : CaptureState} {first second : List (ℕ × Turn)}
    (hfirst : Recorded before middle first) (hsecond : Recorded middle after second) :
    Recorded before after (first ++ second) := by
  obtain ⟨visits, hvisits, hscheduled, hsound⟩ := hfirst
  obtain ⟨later, hlater, hlaterScheduled, hlaterSound⟩ := hsecond
  refine ⟨visits ++ later, by rw [hlater, hvisits, List.append_assoc], ?_, ?_⟩
  · rw [List.map_append, hscheduled, hlaterScheduled]
  · exact fun visit hmem => (List.mem_append.mp hmem).elim (hsound visit) (hlaterSound visit)

omit [StdHash] in
theorem Sounds.trans {before middle after : CaptureState} (hfirst : Sounds before middle)
    (hsecond : Sounds middle after) : Sounds before after := by
  obtain ⟨visits, hvisits, hsound⟩ := hfirst
  obtain ⟨later, hlater, hlaterSound⟩ := hsecond
  exact ⟨visits ++ later, by rw [hlater, hvisits, List.append_assoc],
    fun visit hmem => (List.mem_append.mp hmem).elim (hsound visit) (hlaterSound visit)⟩

/-- The walk over the brokers of a round. -/
theorem visitAll_spec (scheduled : List (ℕ × Turn)) (state : CaptureState) :
    match Fallible.forEach (fun item => visitBroker item.1 item.2) scheduled state with
    | .ok _ after =>
        Faultless state.brokers scheduled ∧ after.brokers = afterTurns state.brokers scheduled ∧
          Recorded state after scheduled
    | .error _ after => ¬ Faultless state.brokers scheduled ∧ Sounds state after := by
  induction scheduled generalizing state with
  | nil => exact ⟨trivial, rfl, [], by simp⟩
  | cons item rest ih =>
      obtain ⟨id, turn⟩ := item
      obtain ⟨visit, hid, hturn, hsound, hvisit⟩ := visitBroker_spec id turn state
      have hone : ∀ after : CaptureState, after.visits = state.visits ++ [visit] →
          Recorded state after [(id, turn)] := fun after hafter =>
        ⟨[visit], hafter, by simp [hid, hturn], by simpa using hsound⟩
      rw [Fallible.forEach]
      cases hfirst : visitBroker id turn state with
      | error exception after =>
          rw [hfirst] at hvisit
          rw [Fallible.bind_error hfirst]
          exact ⟨fun hfaultless => hvisit.1 hfaultless.1, (hone after hvisit.2).sounds⟩
      | ok value middle =>
          rw [hfirst] at hvisit
          obtain ⟨hrefreshes, hbrokers, hmiddle⟩ := hvisit
          have hrest := ih middle
          rw [Fallible.bind_ok hfirst]
          cases hwalk : Fallible.forEach (fun item => visitBroker item.1 item.2) rest middle with
          | ok value after =>
              rw [hwalk, hbrokers] at hrest
              exact ⟨⟨hrefreshes, hrest.1⟩, hrest.2.1, (hone middle hmiddle).trans hrest.2.2⟩
          | error exception after =>
              rw [hwalk, hbrokers] at hrest
              exact ⟨fun hfaultless => hrest.1 hfaultless.2,
                (hone middle hmiddle).sounds.trans hrest.2⟩

/-- One round: the brokers, then the dispatch. -/
theorem captureRound_spec (bound : List ℕ) (round : Round) (state : CaptureState) :
    match captureRound bound round state with
    | .ok _ after =>
        Faultless state.brokers (round.schedule bound) ∧ round.dispatch = .ok ⟨⟩ ∧
          after.brokers = afterTurns state.brokers (round.schedule bound) ∧
          Recorded state after (round.schedule bound)
    | .error _ after =>
        ¬ (Faultless state.brokers (round.schedule bound) ∧ round.dispatch = .ok ⟨⟩) ∧
          Sounds state after := by
  have hvisits := visitAll_spec (round.schedule bound) state
  unfold captureRound
  cases hwalk : Fallible.forEach (fun item => visitBroker item.1 item.2)
      (round.schedule bound) state with
  | error exception after =>
      rw [hwalk] at hvisits
      rw [Fallible.bind_error hwalk]
      exact ⟨fun hround => hvisits.1 hround.1, hvisits.2⟩
  | ok value after =>
      rw [hwalk] at hvisits
      rw [Fallible.bind_ok hwalk, processDiscard]
      cases hdispatch : round.dispatch with
      | ok value => exact ⟨hvisits.1, rfl, hvisits.2⟩
      | error exception => exact ⟨nofun, hvisits.2.2.sounds⟩

/-- All rounds of the loop. -/
theorem captureRounds_spec (bound : List ℕ) (rounds : List Round) (state : CaptureState) :
    match Fallible.forEach (captureRound bound) rounds state with
    | .ok _ after =>
        NoFailure bound state.brokers rounds ∧
          Recorded state after (rounds.flatMap fun round => round.schedule bound)
    | .error _ after => ¬ NoFailure bound state.brokers rounds ∧ Sounds state after := by
  induction rounds generalizing state with
  | nil => exact ⟨trivial, [], by simp⟩
  | cons round rest ih =>
      have hround := captureRound_spec bound round state
      rw [Fallible.forEach]
      cases hfirst : captureRound bound round state with
      | error exception after =>
          rw [hfirst] at hround
          rw [Fallible.bind_error hfirst]
          exact ⟨fun hnone => hround.1 ⟨hnone.1, hnone.2.1⟩, hround.2⟩
      | ok value middle =>
          rw [hfirst] at hround
          obtain ⟨hfaultless, hdispatch, hbrokers, hrecorded⟩ := hround
          have hrest := ih middle
          rw [Fallible.bind_ok hfirst]
          cases hwalk : Fallible.forEach (captureRound bound) rest middle with
          | ok value after =>
              rw [hwalk, hbrokers] at hrest
              exact ⟨⟨hfaultless, hdispatch, hrest.1⟩, hrecorded.trans hrest.2⟩
          | error exception after =>
              rw [hwalk, hbrokers] at hrest
              exact ⟨fun hnone => hrest.1 hnone.2.2, hrecorded.sounds.trans hrest.2⟩

/-- Also a run that ends in an exception leaves the broker of the failed visit
due. -/
theorem leavesFailedDue (bound : List ℕ) (rounds : List Round)
    (brokers : ℕ → EntityDbusBroker) (store : EntityStore) :
    LeavesFailedDue (doCaptureDbus bound rounds ⟨brokers, store, []⟩) := by
  have hrun := captureRounds_spec bound rounds ⟨brokers, store, []⟩
  have hsounds : Sounds ⟨brokers, store, []⟩
      (finalState (doCaptureDbus bound rounds ⟨brokers, store, []⟩)) := by
    unfold doCaptureDbus
    cases hwalk : Fallible.forEach (captureRound bound) rounds ⟨brokers, store, []⟩ with
    | ok value after =>
        rw [hwalk] at hrun
        exact hrun.2.sounds
    | error exception after =>
        rw [hwalk] at hrun
        exact hrun.2
  obtain ⟨visits, hvisits, hsound⟩ := hsounds
  rw [List.nil_append] at hvisits
  intro visit hmem
  exact (hsound visit (hvisits ▸ hmem)).leftDue

/-- The loop does what it should exactly when nothing fails: no query that runs and
no dispatch. The broker of a failed visit is left due in any case. -/
theorem captureLoop_contains_failures_iff (bound : List ℕ) (rounds : List Round)
    (brokers : ℕ → EntityDbusBroker) (store : EntityStore) :
    (StaysAlive (doCaptureDbus bound rounds ⟨brokers, store, []⟩) ∧
      AttemptsEveryDue bound rounds (doCaptureDbus bound rounds ⟨brokers, store, []⟩) ∧
      LeavesFailedDue (doCaptureDbus bound rounds ⟨brokers, store, []⟩)) ↔
    NoFailure bound brokers rounds := by
  have hrun := captureRounds_spec bound rounds ⟨brokers, store, []⟩
  have hdue := leavesFailedDue bound rounds brokers store
  unfold doCaptureDbus at hdue ⊢
  cases hwalk : Fallible.forEach (captureRound bound) rounds ⟨brokers, store, []⟩ with
  | ok value after =>
      rw [hwalk] at hrun hdue
      obtain ⟨hnone, visits, hvisits, hscheduled, hsound⟩ := hrun
      rw [List.nil_append] at hvisits
      subst hvisits
      exact ⟨fun _ => hnone, fun _ => ⟨⟨after, rfl⟩,
        ⟨hscheduled, fun visit hmem => (hsound visit hmem).attempted⟩, hdue⟩⟩
  | error exception after =>
      rw [hwalk] at hrun
      exact ⟨fun ⟨⟨_, halive⟩, _⟩ => (by cases halive), fun hnone => absurd hnone hrun.1⟩

/-- A broker of the sensors. -/
def sampleBroker : EntityDbusBroker where
  timeout := 0
  watch := false
  entity := 0
  entityQuery := some Sensors.entityQuery

/-- The mapper fails while the first broker is refreshed and answers the second. -/
def sampleRound : Round where
  turn position := {
    checkNow := 7
    recheckNow := 7
    replies := {
      getSubTree := if position = 0 then .error (.dbus "mapper") else .ok []
      getAll := fun _ _ _ => OrderedMap.empty
      getManagedObjects := fun _ => .ok [] }
    bindListeners := fun _ => .ok ⟨⟩
    recordNow := 7 }
  dispatch := .ok ⟨⟩

end Loop

/-- The first broker's mapper error ends the process before the second broker is
attempted. -/
theorem captureLoop_stops_at_mapper_error :
    ¬ ∀ (_ : StdHash) (bound : List ℕ) (rounds : List Round) (brokers : ℕ → EntityDbusBroker)
      (store : EntityStore),
      StaysAlive (doCaptureDbus bound rounds ⟨brokers, store, []⟩) ∧
        AttemptsEveryDue bound rounds (doCaptureDbus bound rounds ⟨brokers, store, []⟩) ∧
        LeavesFailedDue (doCaptureDbus bound rounds ⟨brokers, store, []⟩) := by
  intro hclaim
  let _ : StdHash := ⟨64, fun _ => 0⟩
  obtain ⟨⟨after, halive⟩, -, -⟩ := hclaim ⟨64, fun _ => 0⟩ [0, 1] [sampleRound]
    (fun _ => sampleBroker)
    ⟨fun _ => ⟨"Sensors", OrderedMap.empty, OrderedMap.empty, [], nofun⟩, FieldType.notAvailable⟩
  cases halive

end CaptureLoop

end ObmcWebapp.Brokers
