/-
# Stopping the manager

After `terminate` cleared the active flag every thread leaves its function at its next test
of the flag: a worker first visits the rest of the brokers of its round. No lock is waited
for, so some thread can always go on until all are joined, and the steps left are bounded
by the threads and the brokers, whatever the interleaving.
-/

import ObmcWebapp.Brokers.ManagerRuns

namespace ObmcWebapp.Brokers

namespace ManagerRuns

open Workers (WorkerPc WorkerStep WorkersState)

variable {manager : DBusBrokerManager} {state after : ManagerState}

/-- The steps a worker has left at a broker. -/
def turnRank : WorkerPc → ℕ
  | .idle => 7
  | .checked => 6
  | .locked => 5
  | .due => 4
  | .processed => 3
  | .published => 2
  | .unlocking => 1

/-- The steps a thread has left once the flag is cleared. -/
def threadRank (manager : DBusBrokerManager) : Thread → ℕ
  | .unborn | .exited => 0
  | .testing => 1
  | .connecting | .waiting => 2
  | .visiting position pc => 2 + 7 * (manager.brokers.length - 1 - position) + turnRank pc

/-- The steps `terminate` has left. -/
def controlRank (manager : DBusBrokerManager) : Control → ℕ
  | .terminating joined => manager.threadCount - joined + 2
  | .terminated => 1
  | _ => 0

def rank (manager : DBusBrokerManager) (state : ManagerState) : ℕ :=
  (∑ thread ∈ Finset.range manager.threadCount, threadRank manager (state.threads thread)) +
    controlRank manager state.control

/-- The most steps that are left when `terminate` begins. -/
def rankBound (manager : DBusBrokerManager) : ℕ :=
  manager.threadCount * (3 + 7 * manager.brokers.length) + 2

theorem turnRank_le (pc : WorkerPc) : turnRank pc ≤ 7 := by
  cases pc <;> decide

theorem turnRank_pos (pc : WorkerPc) : 1 ≤ turnRank pc := by
  cases pc <;> decide

/-- A step at a broker takes the worker on, or leaves it done. -/
theorem turnRank_of_turn {workers left : WorkersState ℕ} {step : TurnStep} {thread : ℕ}
    (hnext : Workers.next workers (step.of thread) = some left) :
    left.pc thread = .idle ∨ turnRank (left.pc thread) < turnRank (workers.pc thread) := by
  have hworker := worker?_of step thread
  generalize step.of thread = label at hnext hworker
  have htaken := Workers.taken_of_next hnext
  cases htaken <;> cases hworker <;> simp_all [turnRank]

theorem threadRank_afterTurn (position : ℕ) {pc pc' : WorkerPc}
    (hturn : pc' = .idle ∨ turnRank pc' < turnRank pc) :
    threadRank manager (afterTurn manager position pc') <
      threadRank manager (.visiting position pc) := by
  have hpos := turnRank_pos pc
  rw [afterTurn]
  split_ifs with hidle
  · rw [nextBroker]
    split_ifs
    · have hnext : turnRank .idle = 7 := rfl
      simp only [threadRank, hnext]
      omega
    · simp only [threadRank]
      omega
  · have hless := hturn.resolve_left hidle
    simp only [threadRank]
    omega

/-- A thread that has fewer steps left. -/
theorem rank_goto {thread : ℕ} (hlt : thread < manager.threadCount) {place : Thread}
    (hplace : threadRank manager place < threadRank manager (state.threads thread)) :
    rank manager (state.goto thread place) < rank manager state := by
  apply Nat.add_lt_add_right
  apply Finset.sum_lt_sum
  · intro other _
    by_cases hsame : other = thread
    · rw [hsame, ManagerState.threads_goto]
      exact hplace.le
    · rw [ManagerState.threads_goto_of_ne state place hsame]
  · refine ⟨thread, Finset.mem_range.mpr hlt, ?_⟩
    rw [ManagerState.threads_goto]
    exact hplace

/-- A thread that is somewhere is one of the manager. -/
theorem Consistent.lt_of_born (hconsistent : Consistent manager state) {thread : ℕ}
    (hborn : state.threads thread ≠ .unborn) : thread < manager.threadCount := by
  by_contra hle
  exact hborn (hconsistent.outside thread (not_lt.mp hle))

/-- `terminate` was called. -/
def Stopping (state : ManagerState) : Prop :=
  (∃ joined, state.control = .terminating joined) ∨ state.control = .terminated ∨
    state.control = .crashed

/-- Every step but that of the clock. -/
def ManagerStep.moves : ManagerStep → Bool
  | .tick _ => false
  | _ => true

/-- A step leaves fewer steps, as long as the process runs. -/
theorem rank_taken (hconsistent : Consistent manager state) (hstopping : Stopping state)
    (hcrashed : state.control ≠ .crashed) {step : ManagerStep}
    (htaken : Taken manager state step after) :
    Stopping after ∧ rank manager after + (if step.moves then 1 else 0) ≤ rank manager state := by
  have hinactive : state.active = false := by
    apply hconsistent.inactive
    rcases hstopping with hterminating | hterminated | hcrash
    · exact .inl hterminating
    · exact .inr hterminated
    · exact absurd hcrash hcrashed
  cases htaken with
  | tick => exact ⟨hstopping, le_refl _⟩
  | start hcontrol => simp [Stopping, hcontrol] at hstopping
  | connect hplace =>
      refine ⟨hstopping, rank_goto (hconsistent.lt_of_born (by simp [hplace])) ?_⟩
      simp [hplace, threadRank]
  | leave hplace =>
      refine ⟨hstopping, rank_goto (hconsistent.lt_of_born (by simp [hplace])) ?_⟩
      simp [hplace, threadRank]
  | round hplace hactive => simp [hinactive] at hactive
  | observe hplace hactive => simp [hinactive] at hactive
  | @turn thread position pc step left hvisiting hturn =>
      have hpc : (state.view position).pc thread = pc := by
        simp [ManagerState.view, hvisiting, Thread.pcAt]
      have hless : threadRank manager (afterTurn manager position (left.pc thread)) <
          threadRank manager (state.threads thread) := by
        rw [hvisiting]
        exact threadRank_afterTurn position (hpc ▸ turnRank_of_turn hturn)
      exact ⟨hstopping, rank_goto (hconsistent.lt_of_born (by simp [hvisiting])) hless⟩
  | processDiscard hplace =>
      refine ⟨hstopping, rank_goto (hconsistent.lt_of_born (by simp [hplace])) ?_⟩
      simp [hplace, threadRank]
  | raise =>
      refine ⟨.inr (.inr rfl), ?_⟩
      apply Nat.add_lt_add_left
      rcases hstopping with ⟨joined, hcontrol⟩ | hcontrol | hcontrol
      · rw [hcontrol]
        exact Nat.succ_pos _
      · rw [hcontrol]
        exact Nat.succ_pos _
      · exact absurd hcontrol hcrashed
  | terminate hcontrol => simp [Stopping, hcontrol] at hstopping
  | terminateAgain hcontrol =>
      refine ⟨.inr (.inr rfl), ?_⟩
      apply Nat.add_lt_add_left
      rw [hcontrol]
      exact Nat.succ_pos _
  | @joinNext joined hcontrol hmore hexited =>
      have hle := (hconsistent.joined joined hcontrol).1
      refine ⟨.inl ⟨joined + 1, rfl⟩, ?_⟩
      apply Nat.add_lt_add_left
      rw [hcontrol]
      simp only [controlRank]
      omega
  | joinAll hcontrol =>
      refine ⟨.inr (.inl rfl), ?_⟩
      apply Nat.add_lt_add_left
      rw [hcontrol]
      simp [controlRank]

/-- The steps left when `terminate` was called. -/
theorem rank_le (hterminating : ∃ joined, state.control = .terminating joined)
    (hconsistent : Consistent manager state) : rank manager state ≤ rankBound manager := by
  obtain ⟨joined, hcontrol⟩ := hterminating
  have hthread : ∀ thread ∈ Finset.range manager.threadCount,
      threadRank manager (state.threads thread) ≤ 2 + 7 * manager.brokers.length := by
    intro thread _
    cases hplace : state.threads thread with
    | visiting position pc =>
        have hlt := hconsistent.position thread position pc hplace
        have hpc := turnRank_le pc
        simp only [threadRank]
        omega
    | _ => simp only [threadRank]; omega
  have hsum := Finset.sum_le_card_nsmul _ _ _ hthread
  rw [Finset.card_range, smul_eq_mul] at hsum
  rw [rank, rankBound, hcontrol, controlRank]
  have hbound : manager.threadCount * (3 + 7 * manager.brokers.length) =
      manager.threadCount * (2 + 7 * manager.brokers.length) + manager.threadCount := by ring
  omega

/-- A worker at a broker can go on. -/
theorem turn_enabled (workers : WorkersState ℕ) (thread : ℕ) :
    ∃ (step : TurnStep) (left : WorkersState ℕ),
      Workers.next workers (step.of thread) = some left := by
  cases hpc : workers.pc thread with
  | idle =>
      refine ⟨.check, ?_⟩
      simp only [TurnStep.of, Workers.next, hpc, if_true]
      split_ifs <;> exact ⟨_, rfl⟩
  | checked =>
      refine ⟨.tryLock, ?_⟩
      simp only [TurnStep.of, Workers.next, hpc, if_true]
      split_ifs <;> exact ⟨_, rfl⟩
  | locked =>
      refine ⟨.recheck, ?_⟩
      simp only [TurnStep.of, Workers.next, hpc, if_true]
      split_ifs <;> exact ⟨_, rfl⟩
  | due => exact ⟨.process, _, if_pos hpc⟩
  | processed => exact ⟨.setInstances, _, if_pos hpc⟩
  | published => exact ⟨.setExecutionTime, _, if_pos hpc⟩
  | unlocking => exact ⟨.unlock, _, if_pos hpc⟩

/-- A thread that has not left its function can go on. -/
theorem thread_enabled {thread : ℕ} (hborn : state.threads thread ≠ .unborn)
    (hruns : state.threads thread ≠ .exited) :
    ∃ step after, step.moves = true ∧ Taken manager state step after := by
  cases hplace : state.threads thread with
  | unborn => exact absurd hplace hborn
  | exited => exact absurd hplace hruns
  | connecting => exact ⟨_, _, rfl, .connect hplace⟩
  | testing =>
      cases hactive : state.active with
      | false => exact ⟨_, _, rfl, .leave hplace hactive⟩
      | true =>
          by_cases hworker : thread < manager.threadsBrokersTaskCount
          · exact ⟨_, _, rfl, .round hplace hactive hworker⟩
          · exact ⟨_, _, rfl, .observe hplace hactive hworker⟩
  | waiting => exact ⟨_, _, rfl, .processDiscard hplace⟩
  | visiting position pc =>
      obtain ⟨step, left, hturn⟩ := turn_enabled (state.view position) thread
      exact ⟨_, _, rfl, .turn hplace hturn⟩

/-- While `terminate` joins, a thread can go on or the next one is joined. -/
theorem terminating_enabled (hconsistent : Consistent manager state) {joined : ℕ}
    (hcontrol : state.control = .terminating joined) :
    ∃ step after, step.moves = true ∧ Taken manager state step after := by
  have hle := (hconsistent.joined joined hcontrol).1
  by_cases hall : joined = manager.threadCount
  · exact ⟨_, _, rfl, .joinAll (hall ▸ hcontrol)⟩
  · by_cases hexited : state.threads joined = .exited
    · exact ⟨_, _, rfl, .joinNext hcontrol hall hexited⟩
    · have hborn := hconsistent.born (by simp [hcontrol]) joined (lt_of_le_of_ne hle hall)
      exact thread_enabled hborn hexited

/-- Once called, `terminate` completes: however the threads interleave, a bounded number of
steps is left, and some step is left until all threads have exited and are joined, unless an
exception ends the process. -/
theorem terminate_completes (hreach : (machine manager).Reachable state) {joined : ℕ}
    (hcontrol : state.control = .terminating joined) {steps : List ManagerStep}
    (hrun : (machine manager).Run state steps after) :
    steps.countP ManagerStep.moves ≤ rankBound manager ∧
    (after.control = .crashed ∨
      (after.control = .terminated ∧
        ∀ thread < manager.threadCount, after.threads thread = .exited) ∨
      ∃ step last, step.moves = true ∧ next manager after step = some last) := by
  have hstep : ∀ {before : ManagerState} {step : ManagerStep} {later : ManagerState},
      Consistent manager before ∧ Stopping before → (machine manager).step before step later →
      (Consistent manager later ∧ Stopping later) ∧
        rank manager later + (if step.moves then 1 else 0) ≤ rank manager before := by
    rintro before step later ⟨hconsistent, hstopping⟩ hnext
    obtain ⟨hcrashed, htaken⟩ := (next_eq_some_iff manager).mp hnext
    obtain ⟨hstopping', hrank⟩ := rank_taken hconsistent hstopping hcrashed htaken
    exact ⟨⟨hconsistent.taken htaken, hstopping'⟩, hrank⟩
  have hconsistent := consistent_of_reachable hreach
  obtain ⟨⟨hconsistent', hstopping⟩, hcount⟩ :=
    hrun.countP_le_rank hstep ⟨hconsistent, .inl ⟨joined, hcontrol⟩⟩
  constructor
  · exact (Nat.le_add_left _ _).trans (hcount.trans (rank_le ⟨joined, hcontrol⟩ hconsistent))
  · rcases hstopping with ⟨joined', hcontrol'⟩ | hterminated | hcrashed
    · obtain ⟨step, last, hmoves, htaken⟩ := terminating_enabled hconsistent' hcontrol'
      exact .inr (.inr ⟨step, last, hmoves,
        (next_eq_some_iff manager).mpr ⟨by simp [hcontrol'], htaken⟩⟩)
    · exact .inr (.inl ⟨hterminated, hconsistent'.exited hterminated⟩)
    · exact .inl hcrashed

/-- With both workers inside, `terminate` has a bounded number of steps left. -/
theorem terminate_completes_contended :
    ∃ state, (machine twoWorkers).Reachable state ∧ (state.cells 0).owner = some 0 ∧
      state.control = .terminating 0 ∧ ∀ steps last, (machine twoWorkers).Run state steps last →
        steps.countP ManagerStep.moves ≤ 53 := by
  have hrun : ∃ state : ManagerState, (contendedSteps ++ [ManagerStep.terminate]).foldlM
      (next twoWorkers) twoWorkersStart = some state ∧ (state.cells 0).owner = some 0 ∧
      state.control = .terminating 0 := ⟨_, rfl, rfl, rfl⟩
  obtain ⟨state, hfold, howner, hcontrol⟩ := hrun
  have hreach : (machine twoWorkers).Reachable state :=
    .of_foldlM initial_twoWorkersStart hfold
  exact ⟨state, hreach, howner, hcontrol,
    fun _ _ hrun => (terminate_completes hreach hcontrol hrun).1⟩

end ManagerRuns

end ObmcWebapp.Brokers
