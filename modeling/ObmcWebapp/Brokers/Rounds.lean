/-
# Rounds of the workers

A worker that comes to the end of its first round has seen to every bound broker: each was
refreshed, by this worker or by another, or another worker is inside and about to. From
then on they stay so, and when the manager has stopped, every broker was refreshed and a
single shot exactly once.
-/

import ObmcWebapp.Brokers.ManagerRuns

namespace ObmcWebapp.Brokers

namespace ManagerRuns

open Workers (WorkerPc WorkerStep WorkersState Served)

variable {manager : DBusBrokerManager} {state after : ManagerState}

/-- How many brokers a worker has been at in its round. -/
def visited (manager : DBusBrokerManager) : Thread → ℕ
  | .visiting position _ => position
  | .waiting => manager.brokers.length
  | _ => 0

/-- The brokers a worker has been at are served. -/
def RoundsServe (manager : DBusBrokerManager) (state : ManagerState) : Prop :=
  ∀ thread < manager.threadsBrokersTaskCount, ∀ position < manager.brokers.length,
    position < visited manager (state.threads thread) → Served (state.view position)

/-- A served broker stays served. -/
theorem served_taken (hreach : (machine manager).Reachable state) {step : ManagerStep}
    (htaken : Taken manager state step after) {position : ℕ}
    (hlt : position < manager.brokers.length) (hserved : Served (state.view position)) :
    Served (after.view position) := by
  obtain ⟨args, hargs⟩ := getElem?_of_lt hlt
  rcases view_taken (consistent_of_reachable hreach) htaken position with
    hsame | ⟨label, hunfailing, hnext⟩
  · exact hsame ▸ hserved
  · exact Workers.served_next (view_reachable hreach hargs) hunfailing hnext hserved

theorem lt_of_visited_nextBroker {position next : ℕ}
    (hvisited : position < visited manager (nextBroker manager next)) : position < next := by
  rw [nextBroker] at hvisited
  split_ifs at hvisited with hlt
  · exact hvisited
  · exact hvisited.trans_le (not_lt.mp hlt)

/-- A worker that is done with a broker leaves it served. -/
theorem served_of_turn (hreach : (machine manager).Reachable state) {thread position : ℕ}
    {pc : WorkerPc} {step : TurnStep} {left : WorkersState ℕ}
    (hvisiting : state.threads thread = .visiting position pc)
    (hturn : Workers.next (state.view position) (step.of thread) = some left)
    (hidle : left.pc thread = .idle) :
    Served ((putView manager state thread position left).view position) := by
  have hlt := (consistent_of_reachable hreach).position thread position pc hvisiting
  obtain ⟨args, hargs⟩ := getElem?_of_lt hlt
  rw [view_putView (Workers.clock_of_worker (worker?_of step thread) hturn)
    fun other hother => Workers.pc_of_other (worker?_of step thread) hturn hother]
  exact Workers.served_of_idle (view_reachable hreach hargs) (worker?_of step thread) hturn hidle

theorem RoundsServe.taken (hserve : RoundsServe manager state)
    (hreach : (machine manager).Reachable state) {step : ManagerStep}
    (htaken : Taken manager state step after) : RoundsServe manager after := by
  intro other hother position hlt hvisited
  have hkept : position < visited manager (state.threads other) →
      Served (after.view position) := fun hearlier =>
    served_taken hreach htaken hlt (hserve other hother position hlt hearlier)
  -- a thread that moved to `place` has the brokers before it served
  have hmoved : ∀ {thread : ℕ} {place : Thread}, after.threads = (state.goto thread place).threads →
      (other = thread → position < visited manager place → Served (after.view position)) →
      Served (after.view position) := by
    intro thread place hthreads hplace
    rw [hthreads] at hvisited
    by_cases hsame : other = thread
    · rw [hsame, ManagerState.threads_goto] at hvisited
      exact hplace hsame hvisited
    · rw [ManagerState.threads_goto_of_ne state place hsame] at hvisited
      exact hkept hvisited
  cases htaken with
  | tick => exact hkept hvisited
  | start =>
      exfalso
      simp only [born] at hvisited
      split_ifs at hvisited
      all_goals exact absurd hvisited (Nat.not_lt_zero _)
  | connect => exact hmoved rfl fun _ hzero => absurd hzero (Nat.not_lt_zero _)
  | leave => exact hmoved rfl fun _ hzero => absurd hzero (Nat.not_lt_zero _)
  | round =>
      exact hmoved rfl fun _ hzero => absurd (lt_of_visited_nextBroker hzero) (Nat.not_lt_zero _)
  | observe hplace hactive hobserver =>
      exact hmoved rfl fun hsame _ => absurd (hsame ▸ hother) hobserver
  | @turn thread current pc step left hvisiting hturn =>
      apply hmoved rfl
      rintro rfl hearlier
      have hbefore : position < current → Served
          ((putView manager state other current left).view position) := by
        intro hlt'
        apply hkept
        rw [hvisiting]
        exact hlt'
      rw [afterTurn] at hearlier
      split_ifs at hearlier with hidle
      · rcases Nat.lt_succ_iff_lt_or_eq.mp (lt_of_visited_nextBroker hearlier) with hlt' | rfl
        · exact hbefore hlt'
        · exact served_of_turn hreach hvisiting hturn hidle
      · exact hbefore hearlier
  | processDiscard => exact hmoved rfl fun _ hzero => absurd hzero (Nat.not_lt_zero _)
  | raise => exact hkept hvisited
  | terminate => exact hkept hvisited
  | terminateAgain => exact hkept hvisited
  | joinNext => exact hkept hvisited
  | joinAll => exact hkept hvisited

theorem roundsServe_of_reachable (hreach : (machine manager).Reachable state) :
    RoundsServe manager state := by
  have hinvariant : (machine manager).Invariant fun state =>
      (machine manager).Reachable state ∧ RoundsServe manager state := by
    constructor
    · intro first hinitial
      refine ⟨.start hinitial, ?_⟩
      intro thread _ position _ hvisited
      rw [hinitial.2.2.2.1 thread] at hvisited
      exact absurd hvisited (Nat.not_lt_zero _)
    · rintro before step next ⟨hreach, hserve⟩ hnext
      exact ⟨hreach.next hnext, hserve.taken hreach ((next_eq_some_iff manager).mp hnext).2⟩
  exact (hinvariant.of_reachable hreach).2

/-- Along a run a served broker stays served. -/
theorem served_run (hreach : (machine manager).Reachable state) {steps : List ManagerStep}
    (hrun : (machine manager).Run state steps after) {position : ℕ}
    (hlt : position < manager.brokers.length) (hserved : Served (state.view position)) :
    Served (after.view position) := by
  have hstep : ∀ {before : ManagerState} {step : ManagerStep} {next : ManagerState},
      (machine manager).Reachable before ∧ Served (before.view position) →
      (machine manager).step before step next →
      (machine manager).Reachable next ∧ Served (next.view position) := by
    rintro before step next ⟨hreach, hserved⟩ hnext
    exact ⟨hreach.next hnext,
      served_taken hreach ((next_eq_some_iff manager).mp hnext).2 hlt hserved⟩
  exact (hrun.preserves hstep ⟨hreach, hserved⟩).2

/-- Without threads a served broker was refreshed. -/
theorem completions_of_terminated (hreach : (machine manager).Reachable state)
    (hterminated : state.control = .terminated) {position : ℕ}
    (hserved : Served (state.view position)) : (state.cells position).completions ≠ [] := by
  have hconsistent := consistent_of_reachable hreach
  rcases hserved with hcompleted | ⟨thread, hcompleting⟩
  · exact hcompleted
  · have hgone : state.threads thread = .exited ∨ state.threads thread = .unborn := by
      rcases lt_or_ge thread manager.threadCount with hlt | hle
      · exact .inl (hconsistent.exited hterminated thread hlt)
      · exact .inr (hconsistent.outside thread hle)
    have hidle : (state.view position).pc thread = .idle := by
      show (state.threads thread).pcAt position = .idle
      rcases hgone with hexited | hunborn
      · rw [hexited]
        rfl
      · rw [hunborn]
        rfl
    rw [hidle] at hcompleting
    cases hcompleting

/-- After the first round of any worker, every bound broker was refreshed or a worker is
inside and about to; when the manager has stopped, every broker was refreshed, a single
shot exactly once. -/
theorem brokers_served_after_round (hreach : (machine manager).Reachable state) {thread : ℕ}
    (hworker : thread < manager.threadsBrokersTaskCount)
    (hround : state.threads thread = .waiting) {steps : List ManagerStep}
    (hrun : (machine manager).Run state steps after) {position : ℕ} {args : BrokerArgs}
    (hargs : manager.brokers[position]? = some args) :
    Served (after.view position) ∧
      (after.control = .terminated → (after.cells position).completions ≠ [] ∧
        (args.timeout = 0 → (after.cells position).completions.length = 1)) := by
  have hlt : position < manager.brokers.length := by
    rw [List.getElem?_eq_some_iff] at hargs
    exact hargs.1
  have hserved : Served (state.view position) := by
    apply roundsServe_of_reachable hreach thread hworker position hlt
    rw [hround]
    exact hlt
  have hafter := served_run hreach hrun hlt hserved
  refine ⟨hafter, fun hterminated => ?_⟩
  have hreach' := hreach.run hrun
  have hcompleted := completions_of_terminated hreach' hterminated hafter
  refine ⟨hcompleted, fun hsingle => ?_⟩
  have hle : (after.cells position).completions.length ≤ 1 :=
    (scheduled_of_reachable hreach' hargs).spaced.1 hsingle
  exact le_antisymm hle (List.length_pos_of_ne_nil hcompleted)

/-- A worker inside a broker refreshes it and leaves. -/
def refreshSteps (thread : ℕ) : List ManagerStep :=
  [.turn thread .recheck, .turn thread .process, .turn thread .setInstances,
    .turn thread .setExecutionTime, .turn thread .unlock]

/-- The other worker finishes its round as well, and the manager stops. -/
def closingSteps : List ManagerStep :=
  refreshSteps 0 ++ [
    .turn 0 .check, .terminate, .processDiscard 0, .testActive 0, .processDiscard 1, .testActive 1,
    .testActive 2, .join, .join, .join, .join]

/-- The first round of one worker, with the other one inside the first broker. -/
theorem brokers_served_after_round_contended :
    ∃ state last : ManagerState, (machine twoWorkers).Reachable state ∧ (state.cells 0).completions = [] ∧
      Served (state.view 0) ∧ last.control = .terminated ∧
      (last.cells 0).completions.length = 1 := by
  have hrun : ∃ state last : ManagerState, (contendedSteps ++ refreshSteps 1).foldlM (next twoWorkers)
      twoWorkersStart = some state ∧ closingSteps.foldlM (next twoWorkers) state = some last ∧
      (state.cells 0).completions = [] ∧ state.threads 1 = .waiting ∧
      last.control = .terminated := ⟨_, _, rfl, rfl, rfl, rfl, rfl⟩
  obtain ⟨state, last, hfold, hclosing, hnone, hround, hterminated⟩ := hrun
  have hreach : (machine twoWorkers).Reachable state :=
    .of_foldlM initial_twoWorkersStart hfold
  have hargs : twoWorkers.brokers[0]? = some ({} : BrokerArgs) := rfl
  have hserved := brokers_served_after_round hreach (by decide) hround (.refl state) hargs
  have hlast := brokers_served_after_round hreach (by decide) hround (.of_foldlM hclosing) hargs
  exact ⟨state, last, hreach, hnone, hserved.1, hterminated, (hlast.2 hterminated).2 rfl⟩

end ManagerRuns

end ObmcWebapp.Brokers
