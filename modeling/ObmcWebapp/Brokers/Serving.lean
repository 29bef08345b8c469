/-
# Workers that do not fail

While no query fails, a worker that is done with a broker leaves it served: some worker
has refreshed it, or is inside and about to. It does not matter why the worker is done,
because it refreshed the broker, found it not due or found its lock taken. Once served, a
broker stays served.
-/

import ObmcWebapp.Brokers.Workers

namespace ObmcWebapp.Brokers

namespace Workers

variable {ω : Type} [DecidableEq ω]

/-- What a step does, by its cases. -/
inductive Taken (state : WorkersState ω) : WorkerStep ω → WorkersState ω → Prop
  | tick {now : ℤ} (hle : state.clock ≤ now) : Taken state (.tick now) { state with clock := now }
  | notDue {worker : ω} (hpc : state.pc worker = .idle)
      (hdue : ¬ state.broker.isTimeout state.clock = true) : Taken state (.check worker) state
  | check {worker : ω} (hpc : state.pc worker = .idle) :
      Taken state (.check worker) (state.goto worker .checked)
  | tryLock {worker : ω} (hpc : state.pc worker = .checked) (hfree : state.owner = none) :
      Taken state (.tryLock worker) ({ state with owner := some worker }.goto worker .locked)
  | refused {worker owner : ω} (hpc : state.pc worker = .checked)
      (howner : state.owner = some owner) :
      Taken state (.tryLock worker) (state.goto worker .idle)
  | recheck {worker : ω} (hpc : state.pc worker = .locked) :
      Taken state (.recheck worker) (state.goto worker .due)
  | overtaken {worker : ω} (hpc : state.pc worker = .locked)
      (hdue : ¬ state.broker.isTimeout state.clock = true) :
      Taken state (.recheck worker) (state.goto worker .unlocking)
  | process {worker : ω} (hpc : state.pc worker = .due) :
      Taken state (.process worker) (state.goto worker .processed)
  | fail {worker : ω} (hpc : state.pc worker = .due) :
      Taken state (.fail worker) (state.goto worker .unlocking)
  | setInstances {worker : ω} (hpc : state.pc worker = .processed) :
      Taken state (.setInstances worker) (state.goto worker .published)
  | setExecutionTime {worker : ω} (hpc : state.pc worker = .published) :
      Taken state (.setExecutionTime worker) ({ state with
        broker := state.broker.setExecutionTime state.clock
        completions := state.clock :: state.completions }.goto worker .unlocking)
  | unlock {worker : ω} (hpc : state.pc worker = .unlocking) :
      Taken state (.unlock worker) ({ state with owner := none }.goto worker .idle)

variable {timeout : ℤ} {watch : Bool} {state after : WorkersState ω} {label : WorkerStep ω}

theorem taken_of_next (hnext : next state label = some after) : Taken state label after := by
  cases label with
  | tick now =>
      simp only [next] at hnext
      split_ifs at hnext with hle
      cases hnext
      exact .tick hle
  | check worker =>
      simp only [next] at hnext
      split_ifs at hnext with hpc hdue <;> cases hnext
      · exact .check hpc
      · exact .notDue hpc hdue
  | tryLock worker =>
      simp only [next] at hnext
      split_ifs at hnext with hpc hfree <;> cases hnext
      · exact .tryLock hpc hfree
      · obtain ⟨owner, howner⟩ := Option.ne_none_iff_exists'.mp hfree
        exact .refused hpc howner
  | recheck worker =>
      simp only [next] at hnext
      split_ifs at hnext with hpc hdue <;> cases hnext
      · exact .recheck hpc
      · exact .overtaken hpc hdue
  | process worker =>
      simp only [next] at hnext
      split_ifs at hnext with hpc
      cases hnext
      exact .process hpc
  | fail worker =>
      simp only [next] at hnext
      split_ifs at hnext with hpc
      cases hnext
      exact .fail hpc
  | setInstances worker =>
      simp only [next] at hnext
      split_ifs at hnext with hpc
      cases hnext
      exact .setInstances hpc
  | setExecutionTime worker =>
      simp only [next] at hnext
      split_ifs at hnext with hpc
      cases hnext
      exact .setExecutionTime hpc
  | unlock worker =>
      simp only [next] at hnext
      split_ifs at hnext with hpc
      cases hnext
      exact .unlock hpc

/-- The worker that takes a step. -/
def WorkerStep.worker? : WorkerStep ω → Option ω
  | .tick _ => none
  | .check worker | .tryLock worker | .recheck worker | .process worker | .fail worker
  | .setInstances worker | .setExecutionTime worker | .unlock worker => some worker

@[simp]
theorem pc_goto (worker : ω) (pc : WorkerPc) : (state.goto worker pc).pc worker = pc := by
  simp [WorkersState.goto]

theorem pc_goto_of_ne {worker other : ω} (pc : WorkerPc) (hother : other ≠ worker) :
    (state.goto worker pc).pc other = state.pc other := by
  simp [WorkersState.goto, hother]

/-- No query fails in the step. -/
def Unfailing (label : WorkerStep ω) : Prop := ∀ worker, label ≠ .fail worker

/-- The workers on one broker, as long as no query fails. -/
def unfailing (ω : Type) [DecidableEq ω] (timeout : ℤ) (watch : Bool) :
    Machine (WorkersState ω) (WorkerStep ω) :=
  (machine ω timeout watch).restrict fun _ label => Unfailing label

/-- Inside, with the refresh ahead or under way. -/
def WorkerPc.completing : WorkerPc → Bool
  | locked | due | processed | published => true
  | _ => false

/-- The broker was refreshed, or a worker is about to. -/
def Served (state : WorkersState ω) : Prop :=
  state.completions ≠ [] ∨ ∃ worker, (state.pc worker).completing = true

/-- A worker that leaves has left a refreshed broker. -/
def Released (state : WorkersState ω) : Prop :=
  ∀ worker, state.pc worker = .unlocking → state.completions ≠ []

theorem WorkerPc.completing_or_unlocking {pc : WorkerPc} (hpc : pc.holdsLock = true) :
    pc.completing = true ∨ pc = .unlocking := by
  cases pc <;> simp_all [holdsLock, completing]

omit [DecidableEq ω] in
/-- A broker that is not due was refreshed. -/
theorem completions_ne_nil_of_not_due (hscheduled : Scheduled timeout state)
    (hdue : ¬ state.broker.isTimeout state.clock = true) : state.completions ≠ [] := by
  intro hnone
  apply hdue
  rw [Broker.isTimeout_iff, hscheduled.last, hnone]
  exact .inl rfl

theorem Released.goto (hreleased : Released state) {worker : ω} {pc : WorkerPc}
    (hpc : pc = .unlocking → state.completions ≠ []) : Released (state.goto worker pc) := by
  intro other hunlocking
  by_cases hother : other = worker
  · rw [hother, pc_goto] at hunlocking
    exact hpc hunlocking
  · rw [pc_goto_of_ne pc hother] at hunlocking
    exact hreleased other hunlocking

theorem Released.taken (hreleased : Released state) (hscheduled : Scheduled timeout state)
    (hunfailing : Unfailing label) (htaken : Taken state label after) : Released after := by
  cases htaken with
  | tick => exact hreleased
  | notDue => exact hreleased
  | check => exact hreleased.goto nofun
  | @tryLock worker =>
      have hlocked : Released { state with owner := some worker } := hreleased
      exact hlocked.goto nofun
  | refused => exact hreleased.goto nofun
  | recheck => exact hreleased.goto nofun
  | overtaken hpc hdue =>
      exact hreleased.goto fun _ => completions_ne_nil_of_not_due hscheduled hdue
  | process => exact hreleased.goto nofun
  | @fail worker => exact absurd rfl (hunfailing worker)
  | setInstances => exact hreleased.goto nofun
  | setExecutionTime => exact fun _ _ => List.cons_ne_nil _ _
  | unlock =>
      have hunlocked : Released { state with owner := none } := hreleased
      exact hunlocked.goto nofun

/-- A worker that moves on inside, or was not about to refresh, keeps the broker served. -/
theorem Served.goto (hserved : Served state) {worker : ω} {pc : WorkerPc}
    (hpc : (state.pc worker).completing = true → pc.completing = true) :
    Served (state.goto worker pc) := by
  apply hserved.imp id
  rintro ⟨other, hother⟩
  refine ⟨other, ?_⟩
  by_cases hsame : other = worker
  · rw [hsame] at hother ⊢
    rw [pc_goto]
    exact hpc hother
  · rw [pc_goto_of_ne pc hsame]
    exact hother

theorem Served.taken (hserved : Served state) (hscheduled : Scheduled timeout state)
    (hunfailing : Unfailing label) (htaken : Taken state label after) : Served after := by
  cases htaken with
  | tick => exact hserved
  | notDue => exact hserved
  | check hpc => exact hserved.goto (by simp [hpc, WorkerPc.completing])
  | @tryLock worker hpc =>
      have hlocked : Served { state with owner := some worker } := hserved
      exact hlocked.goto fun _ => rfl
  | refused hpc => exact hserved.goto (by simp [hpc, WorkerPc.completing])
  | recheck => exact hserved.goto fun _ => rfl
  | overtaken hpc hdue =>
      have hcompleted : state.completions ≠ [] := completions_ne_nil_of_not_due hscheduled hdue
      exact .inl hcompleted
  | process => exact hserved.goto fun _ => rfl
  | @fail worker => exact absurd rfl (hunfailing worker)
  | setInstances => exact hserved.goto fun _ => rfl
  | setExecutionTime => exact .inl (List.cons_ne_nil _ _)
  | unlock hpc =>
      have hunlocked : Served { state with owner := none } := hserved
      exact hunlocked.goto (by simp [hpc, WorkerPc.completing])

theorem released_of_reachable (hreach : (unfailing ω timeout watch).Reachable state) :
    Released state := by
  have hinvariant : (unfailing ω timeout watch).Invariant fun state =>
      Scheduled timeout state ∧ Released state := by
    constructor
    · intro first hinitial
      refine ⟨scheduled_reachable (.start hinitial), fun worker hunlocking => ?_⟩
      rw [hinitial.2.2.2.1 worker] at hunlocking
      cases hunlocking
    · rintro before label next ⟨hscheduled, hreleased⟩ ⟨hunfailing, hnext⟩
      exact ⟨scheduled_next hscheduled hnext,
        hreleased.taken hscheduled hunfailing (taken_of_next hnext)⟩
  exact (hinvariant.of_reachable hreach).2

/-- Once served, a broker stays served. -/
theorem served_next (hreach : (unfailing ω timeout watch).Reachable state)
    (hunfailing : Unfailing label) (hnext : next state label = some after)
    (hserved : Served state) : Served after :=
  hserved.taken (scheduled_reachable hreach.of_restrict) hunfailing (taken_of_next hnext)

/-- A worker that holds the lock serves the broker, or has. -/
theorem served_of_owner (hreach : (unfailing ω timeout watch).Reachable state) {worker : ω}
    (howner : state.owner = some worker) : Served state := by
  have hholds := ((scheduled_reachable hreach.of_restrict).lock worker).mpr howner
  rcases WorkerPc.completing_or_unlocking hholds with hcompleting | hunlocking
  · exact .inr ⟨worker, hcompleting⟩
  · exact .inl (released_of_reachable hreach worker hunlocking)

/-- A worker that is done with a broker leaves it served. -/
theorem served_of_idle (hreach : (unfailing ω timeout watch).Reachable state) {worker : ω}
    (hworker : label.worker? = some worker) (hnext : next state label = some after)
    (hidle : after.pc worker = .idle) : Served after := by
  have htaken := taken_of_next hnext
  cases htaken <;> cases hworker
  case notDue hdue hpc =>
    exact .inl (completions_ne_nil_of_not_due (scheduled_reachable hreach.of_restrict) hdue)
  case refused owner howner hpc =>
    exact (served_of_owner hreach howner).goto (by simp [hpc, WorkerPc.completing])
  case unlock hpc =>
    have hcompleted : state.completions ≠ [] := released_of_reachable hreach _ hpc
    exact .inl hcompleted
  all_goals
    rw [pc_goto] at hidle
    cases hidle

/-- A step leaves the other workers where they are. -/
theorem pc_of_other {worker other : ω} (hworker : label.worker? = some worker)
    (hnext : next state label = some after) (hother : other ≠ worker) :
    after.pc other = state.pc other := by
  have htaken := taken_of_next hnext
  cases htaken <;> cases hworker <;> simp [WorkersState.goto, hother]

/-- Only time itself passes time. -/
theorem clock_of_worker {worker : ω} (hworker : label.worker? = some worker)
    (hnext : next state label = some after) : after.clock = state.clock := by
  have htaken := taken_of_next hnext
  cases htaken <;> cases hworker <;> rfl

end Workers

end ObmcWebapp.Brokers
