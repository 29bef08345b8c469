/-
# Runs of the broker manager

What the workers do at one broker is a run of workers on that broker alone, whatever they
do at the others. So a broker is never refreshed by two workers at once and its times are
spaced, in every interleaving of the threads of the manager.
-/

import ObmcWebapp.Brokers.Manager
import ObmcWebapp.Brokers.Serving

namespace ObmcWebapp.Brokers

namespace ManagerRuns

open Workers (WorkerPc WorkerStep WorkersState)

variable {manager : DBusBrokerManager} {state after : ManagerState}

theorem worker?_of (step : TurnStep) (thread : ℕ) : (step.of thread).worker? = some thread := by
  cases step <;> rfl

/-- A query that fails ends the process, not the turn. -/
theorem unfailing_of (step : TurnStep) (thread : ℕ) : Workers.Unfailing (step.of thread) := by
  cases step <;> nofun

namespace ManagerState

/-- A thread that moves between places where it is at no broker. -/
theorem view_goto {thread position : ℕ} {place : Thread}
    (hsame : place.pcAt position = (state.threads thread).pcAt position) :
    (state.goto thread place).view position = state.view position := by
  have hpc : (fun other => ((state.goto thread place).threads other).pcAt position) =
      fun other => (state.threads other).pcAt position := by
    funext other
    by_cases hother : other = thread
    · rw [hother, ← hsame, threads_goto]
    · rw [threads_goto_of_ne state place hother]
  simp only [view, hpc]
  rfl

end ManagerState

theorem pcAt_nextBroker (position next : ℕ) :
    (nextBroker manager next).pcAt position = .idle := by
  rw [nextBroker]
  split_ifs <;> simp [Thread.pcAt]

theorem pcAt_afterTurn (position : ℕ) (pc : WorkerPc) :
    (afterTurn manager position pc).pcAt position = pc := by
  rw [afterTurn]
  split_ifs with hidle
  · rw [pcAt_nextBroker, hidle]
  · simp [Thread.pcAt]

theorem pcAt_afterTurn_of_ne {position other : ℕ} (hother : other ≠ position) (pc : WorkerPc) :
    (afterTurn manager position pc).pcAt other = .idle := by
  rw [afterTurn]
  split_ifs with hidle
  · exact pcAt_nextBroker _ _
  · simp [Thread.pcAt, Ne.symm hother]

/-- At the visited broker the view is what the worker left. -/
theorem view_putView {thread position : ℕ} {left : WorkersState ℕ}
    (hclock : left.clock = state.clock)
    (hothers : ∀ other ≠ thread, left.pc other = (state.view position).pc other) :
    (putView manager state thread position left).view position = left := by
  have hpc : (fun other => ((putView manager state thread position left).threads other).pcAt
      position) = left.pc := by
    funext other
    by_cases hother : other = thread
    · rw [hother, threads_putView, pcAt_afterTurn]
    · rw [threads_putView_of_ne manager state position left hother, hothers other hother]
      rfl
  simp only [ManagerState.view, hpc]
  simp only [putView, ManagerState.goto, Function.update_self]
  rw [← hclock]

/-- At the other brokers nothing changes. -/
theorem view_putView_of_ne {thread position other : ℕ} (hother : other ≠ position)
    {pc : WorkerPc} (hvisiting : state.threads thread = .visiting position pc)
    (left : WorkersState ℕ) :
    (putView manager state thread position left).view other = state.view other := by
  have hidle : (state.threads thread).pcAt other = .idle := by
    simp [hvisiting, Thread.pcAt, Ne.symm hother]
  rw [putView, ManagerState.view_goto]
  · simp [ManagerState.view, hother]
  · rw [pcAt_afterTurn_of_ne hother]
    exact hidle.symm

/-- What ties the flag, the threads and what was asked for. -/
structure Consistent (manager : DBusBrokerManager) (state : ManagerState) : Prop where
  /-- Before the start there are no threads. -/
  unborn : state.control = .configured → ∀ thread, state.threads thread = .unborn
  /-- After it there are. -/
  born : state.control ≠ .configured → ∀ thread < manager.threadCount,
    state.threads thread ≠ .unborn
  outside : ∀ thread, manager.threadCount ≤ thread → state.threads thread = .unborn
  active : state.control = .started → state.active = true
  inactive : (∃ joined, state.control = .terminating joined) ∨ state.control = .terminated →
    state.active = false
  /-- A joined thread has left its function. -/
  joined : ∀ joined, state.control = .terminating joined →
    joined ≤ manager.threadCount ∧ ∀ thread < joined, state.threads thread = .exited
  exited : state.control = .terminated →
    ∀ thread < manager.threadCount, state.threads thread = .exited
  /-- A thread is at a broker that was bound. -/
  position : ∀ thread position pc, state.threads thread = .visiting position pc →
    position < manager.brokers.length

/-- A thread that still runs moves. -/
theorem Consistent.goto (hconsistent : Consistent manager state) {thread : ℕ} {place : Thread}
    (hborn : state.threads thread ≠ .unborn) (hruns : state.threads thread ≠ .exited)
    (hplace : place ≠ .unborn)
    (hposition : ∀ position pc, place = .visiting position pc → position < manager.brokers.length) :
    Consistent manager (state.goto thread place) where
  unborn hcontrol other := absurd (hconsistent.unborn hcontrol thread) hborn
  born hcontrol other hother := by
    by_cases hsame : other = thread
    · rw [hsame, ManagerState.threads_goto]
      exact hplace
    · rw [ManagerState.threads_goto_of_ne state place hsame]
      exact hconsistent.born hcontrol other hother
  outside other hother := by
    have hne : other ≠ thread := fun hsame => hborn (hsame ▸ hconsistent.outside other hother)
    rw [ManagerState.threads_goto_of_ne state place hne]
    exact hconsistent.outside other hother
  active := hconsistent.active
  inactive := hconsistent.inactive
  joined joined hcontrol := by
    obtain ⟨hle, hexited⟩ := hconsistent.joined joined hcontrol
    refine ⟨hle, fun other hother => ?_⟩
    have hne : other ≠ thread := fun hsame => hruns (hsame ▸ hexited other hother)
    rw [ManagerState.threads_goto_of_ne state place hne]
    exact hexited other hother
  exited hcontrol other hother := by
    have hne : other ≠ thread := fun hsame => hruns (hsame ▸ hconsistent.exited hcontrol other hother)
    rw [ManagerState.threads_goto_of_ne state place hne]
    exact hconsistent.exited hcontrol other hother
  position other position pc hvisiting := by
    by_cases hsame : other = thread
    · rw [hsame, ManagerState.threads_goto] at hvisiting
      exact hposition position pc hvisiting
    · rw [ManagerState.threads_goto_of_ne state place hsame] at hvisiting
      exact hconsistent.position other position pc hvisiting

theorem nextBroker_ne_unborn (position : ℕ) : nextBroker manager position ≠ .unborn := by
  rw [nextBroker]
  split_ifs <;> nofun

theorem lt_of_nextBroker {position current : ℕ} {pc : WorkerPc}
    (hnext : nextBroker manager position = .visiting current pc) :
    current < manager.brokers.length := by
  rw [nextBroker] at hnext
  split_ifs at hnext with hlt
  cases hnext
  exact hlt

theorem Consistent.turn (hconsistent : Consistent manager state) {thread position : ℕ}
    {pc : WorkerPc} (hvisiting : state.threads thread = .visiting position pc)
    (left : WorkersState ℕ) : Consistent manager (putView manager state thread position left) := by
  have hmoved : Consistent manager
      (state.goto thread (afterTurn manager position (left.pc thread))) := by
    apply hconsistent.goto (by simp [hvisiting]) (by simp [hvisiting])
    · rw [afterTurn]
      split_ifs
      · exact nextBroker_ne_unborn _
      · nofun
    · intro current pc' hplace
      rw [afterTurn] at hplace
      split_ifs at hplace
      · exact lt_of_nextBroker hplace
      · cases hplace
        exact hconsistent.position thread position pc hvisiting
  exact { hmoved with }

theorem Consistent.taken (hconsistent : Consistent manager state) {step : ManagerStep}
    (htaken : Taken manager state step after) : Consistent manager after := by
  cases htaken with
  | tick hle => exact { hconsistent with }
  | start hcontrol =>
      exact {
        unborn := nofun
        born := fun _ thread hlt => born_ne_unborn manager hlt
        outside := fun thread hle => born_of_le manager hle
        active := fun _ => rfl
        inactive := by simp
        joined := nofun
        exited := nofun
        position := fun thread position pc hvisiting =>
          absurd hvisiting (born_ne_visiting manager thread position pc) }
  | connect hplace => exact hconsistent.goto (by simp [hplace]) (by simp [hplace]) nofun nofun
  | leave hplace => exact hconsistent.goto (by simp [hplace]) (by simp [hplace]) nofun nofun
  | round hplace =>
      exact hconsistent.goto (by simp [hplace]) (by simp [hplace]) (nextBroker_ne_unborn _)
        fun _ _ => lt_of_nextBroker
  | observe hplace => exact hconsistent.goto (by simp [hplace]) (by simp [hplace]) nofun nofun
  | turn hvisiting hturn => exact hconsistent.turn hvisiting _
  | processDiscard hplace =>
      exact hconsistent.goto (by simp [hplace]) (by simp [hplace]) nofun nofun
  | @raise thread hraises =>
      have hstarted : state.control ≠ .configured := by
        intro hcontrol
        rw [hconsistent.unborn hcontrol thread] at hraises
        cases hraises
      exact {
        unborn := nofun
        born := fun _ => hconsistent.born hstarted
        outside := hconsistent.outside
        active := nofun
        inactive := by simp
        joined := nofun
        exited := nofun
        position := hconsistent.position }
  | terminate hcontrol =>
      exact {
        unborn := nofun
        born := fun _ => hconsistent.born (by simp [hcontrol])
        outside := hconsistent.outside
        active := nofun
        inactive := fun _ => rfl
        joined := by simp
        exited := nofun
        position := hconsistent.position }
  | terminateAgain hcontrol =>
      exact {
        unborn := nofun
        born := fun _ => hconsistent.born (by simp [hcontrol])
        outside := hconsistent.outside
        active := nofun
        inactive := fun _ => rfl
        joined := nofun
        exited := nofun
        position := hconsistent.position }
  | @joinNext joined hcontrol hmore hexited =>
      obtain ⟨hle, hbefore⟩ := hconsistent.joined joined hcontrol
      exact {
        unborn := nofun
        born := fun _ => hconsistent.born (by simp [hcontrol])
        outside := hconsistent.outside
        active := nofun
        inactive := fun _ => hconsistent.inactive (.inl ⟨joined, hcontrol⟩)
        joined := by
          rintro _ ⟨⟩
          refine ⟨by omega, fun thread hlt => ?_⟩
          rcases Nat.lt_succ_iff_lt_or_eq.mp hlt with hearlier | rfl
          · exact hbefore thread hearlier
          · exact hexited
        exited := nofun
        position := hconsistent.position }
  | joinAll hcontrol =>
      exact {
        unborn := nofun
        born := fun _ => hconsistent.born (by simp [hcontrol])
        outside := hconsistent.outside
        active := nofun
        inactive := fun _ => hconsistent.inactive (.inl ⟨_, hcontrol⟩)
        joined := nofun
        exited := fun _ => (hconsistent.joined _ hcontrol).2
        position := hconsistent.position }

theorem consistent_of_reachable (hreach : (machine manager).Reachable state) :
    Consistent manager state := by
  have hinvariant : (machine manager).Invariant (Consistent manager) := by
    constructor
    · rintro first ⟨-, hinactive, hcontrol, hunborn, -⟩
      exact {
        unborn := fun _ => hunborn
        born := fun hstarted => absurd hcontrol hstarted
        outside := fun thread _ => hunborn thread
        active := fun hstarted => by rw [hcontrol] at hstarted; cases hstarted
        inactive := fun _ => hinactive
        joined := fun joined hterminating => by rw [hcontrol] at hterminating; cases hterminating
        exited := fun hterminated => by rw [hcontrol] at hterminated; cases hterminated
        position := fun thread position pc hvisiting => by
          rw [hunborn thread] at hvisiting
          cases hvisiting }
    · intro state step after hconsistent hnext
      exact hconsistent.taken ((next_eq_some_iff manager).mp hnext).2
  exact hinvariant.of_reachable hreach

/-- A step of the manager is, at one broker, a step of its workers or none. -/
theorem view_taken (hconsistent : Consistent manager state) {step : ManagerStep}
    (htaken : Taken manager state step after) (position : ℕ) :
    after.view position = state.view position ∨ ∃ label, Workers.Unfailing label ∧
      Workers.next (state.view position) label = some (after.view position) := by
  cases htaken with
  | @tick now hle =>
      exact .inr ⟨.tick now, nofun, by simp [Workers.next, ManagerState.view, hle]⟩
  | start hcontrol =>
      have hidle : ∀ thread, (born manager thread).pcAt position = .idle := by
        intro thread
        cases hborn : born manager thread with
        | visiting current pc => exact absurd hborn (born_ne_visiting manager thread current pc)
        | _ => rfl
      left
      simp only [ManagerState.view, hidle, hconsistent.unborn hcontrol]
      rfl
  | connect hplace => exact .inl (ManagerState.view_goto (by rw [hplace]; rfl))
  | leave hplace => exact .inl (ManagerState.view_goto (by rw [hplace]; rfl))
  | round hplace =>
      left
      apply ManagerState.view_goto
      rw [hplace, pcAt_nextBroker]
      rfl
  | observe hplace => exact .inl (ManagerState.view_goto (by rw [hplace]; rfl))
  | @turn thread current pc step left hvisiting hturn =>
      by_cases hsame : position = current
      · subst hsame
        have hview : (putView manager state thread position left).view position = left :=
          view_putView (Workers.clock_of_worker (worker?_of step thread) hturn)
            fun other hother => Workers.pc_of_other (worker?_of step thread) hturn hother
        exact .inr ⟨step.of thread, unfailing_of step thread, hturn.trans (congrArg some hview.symm)⟩
      · exact .inl (view_putView_of_ne hsame hvisiting left)
  | processDiscard hplace => exact .inl (ManagerState.view_goto (by rw [hplace]; rfl))
  | raise => exact .inl rfl
  | terminate => exact .inl rfl
  | terminateAgain => exact .inl rfl
  | joinNext => exact .inl rfl
  | joinAll => exact .inl rfl

/-- What the threads of the manager do at a broker is what workers, none of which fails, do
on that broker alone. -/
theorem view_reachable (hreach : (machine manager).Reachable state) {position : ℕ}
    {args : BrokerArgs} (hargs : manager.brokers[position]? = some args) :
    (Workers.unfailing ℕ args.timeout args.watch).Reachable (state.view position) := by
  have hstart : ∀ {first}, (machine manager).initial first →
      (Workers.unfailing ℕ args.timeout args.watch).initial (first.view position) := by
    rintro first ⟨hclock, -, -, hunborn, hcells⟩
    have hcell := hcells position args hargs
    refine ⟨hclock, ?_, ?_, ?_, ?_⟩
    · rw [ManagerState.view, hcell]
      rfl
    · rw [ManagerState.view, hcell]
    · intro thread
      show (first.threads thread).pcAt position = .idle
      rw [hunborn thread]
      rfl
    · rw [ManagerState.view, hcell]
  have hstep : ∀ {before step next}, (machine manager).Reachable before →
      (machine manager).step before step next →
      next.view position = before.view position ∨
        ∃ label, (Workers.unfailing ℕ args.timeout args.watch).step (before.view position) label
          (next.view position) := by
    intro before step next hreach htaken
    exact view_taken (consistent_of_reachable hreach) ((next_eq_some_iff manager).mp htaken).2
      position
  exact Machine.Reachable.project hstart hstep hreach

theorem getElem?_of_lt {position : ℕ} (hlt : position < manager.brokers.length) :
    ∃ args, manager.brokers[position]? = some args :=
  ⟨_, List.getElem?_eq_getElem hlt⟩

theorem scheduled_of_reachable (hreach : (machine manager).Reachable state) {position : ℕ}
    {args : BrokerArgs} (hargs : manager.brokers[position]? = some args) :
    Workers.Scheduled args.timeout (state.view position) :=
  Workers.scheduled_reachable (view_reachable hreach hargs).of_restrict

/-- A thread that holds the lock of a broker is at that broker. -/
theorem visiting_of_owner (hreach : (machine manager).Reachable state) {position thread : ℕ}
    (hlt : position < manager.brokers.length)
    (howner : (state.cells position).owner = some thread) :
    ∃ pc, state.threads thread = .visiting position pc := by
  obtain ⟨args, hargs⟩ := getElem?_of_lt hlt
  have hholds : ((state.threads thread).pcAt position).holdsLock = true :=
    ((scheduled_of_reachable hreach hargs).lock thread).mpr howner
  cases hplace : state.threads thread with
  | visiting current pc =>
      rw [hplace, Thread.pcAt] at hholds
      split_ifs at hholds with hsame
      · exact ⟨pc, by rw [hsame]⟩
      · cases hholds
  | _ =>
      rw [hplace] at hholds
      cases hholds

/-- In every interleaving of the threads of the manager at most one of them is inside a
broker, the recorded times of every broker respect its timeout, a single shot is carried
through once, and no thread holds two locks. -/
theorem exclusive_of_reachable (hreach : (machine manager).Reachable state) :
    (∀ position args, manager.brokers[position]? = some args →
      Workers.Exclusive (state.view position) ∧
      Workers.Spaced args.timeout (state.cells position).completions) ∧
    ∀ first < manager.brokers.length, ∀ second < manager.brokers.length, ∀ thread,
      (state.cells first).owner = some thread → (state.cells second).owner = some thread →
      first = second := by
  constructor
  · intro position args hargs
    have hscheduled := scheduled_of_reachable hreach hargs
    exact ⟨hscheduled.exclusive, hscheduled.spaced⟩
  · intro first hfirst second hsecond thread hheld hheld'
    obtain ⟨pc, hvisiting⟩ := visiting_of_owner hreach hfirst hheld
    obtain ⟨pc', hvisiting'⟩ := visiting_of_owner hreach hsecond hheld'
    rw [hvisiting, Thread.visiting.injEq] at hvisiting'
    exact hvisiting'.1

/-- Two workers, a single shot and a broker of five minutes. -/
def twoWorkers : DBusBrokerManager where
  threadsBrokersTaskCount := 2
  brokers := [{}, { timeout := 300 }]

def twoWorkersStart : ManagerState where
  clock := 1
  cells position := { broker := (twoWorkers.brokers.getD position {}).broker }

theorem initial_twoWorkersStart : (machine twoWorkers).initial twoWorkersStart := by
  refine ⟨by decide, rfl, rfl, fun _ => rfl, fun position args hargs => ?_⟩
  show ({ broker := (twoWorkers.brokers.getD position {}).broker } : Cell) = _
  rw [List.getD_eq_getElem?_getD, Option.mem_def.mp hargs]
  rfl

/-- Both workers come to the first broker and one of them goes on to the second. -/
def contendedSteps : List ManagerStep := [
  .start, .connect 0, .connect 1, .testActive 0, .testActive 1, .turn 0 .check, .turn 1 .check,
  .turn 0 .tryLock, .turn 1 .tryLock, .turn 1 .check, .turn 1 .tryLock]

/-- Each worker is inside another broker. -/
theorem exclusive_of_reachable_contended :
    ∃ state, (machine twoWorkers).Reachable state ∧ (state.cells 0).owner = some 0 ∧
      (state.cells 1).owner = some 1 ∧ Workers.Exclusive (state.view 0) ∧
      Workers.Exclusive (state.view 1) := by
  have hrun : ∃ state, contendedSteps.foldlM (next twoWorkers) twoWorkersStart = some state ∧
      (state.cells 0).owner = some 0 ∧ (state.cells 1).owner = some 1 := ⟨_, rfl, rfl, rfl⟩
  obtain ⟨state, hfold, hfirst, hsecond⟩ := hrun
  have hreach : (machine twoWorkers).Reachable state :=
    .of_foldlM initial_twoWorkersStart hfold
  have hexclusive := (exclusive_of_reachable hreach).1
  exact ⟨state, hreach, hfirst, hsecond, (hexclusive 0 _ rfl).1, (hexclusive 1 _ rfl).1⟩

end ManagerRuns

end ObmcWebapp.Brokers
