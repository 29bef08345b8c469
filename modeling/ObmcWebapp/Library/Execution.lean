/-
# Runs of a labelled step relation

A machine is a set of initial states and a labelled step relation. A run is a
finite sequence of steps; a state is reachable when some run from an initial
state ends in it. The two rules every safety proof uses are stated once: a
predicate that holds initially and is preserved by each step holds in every
reachable state, and restricting the steps a machine may take only removes
reachable states.
-/

import Mathlib.Data.List.Induction
import Mathlib.Tactic

universe u v

/-- Initial states and labelled steps. -/
structure Machine (σ : Type u) (α : Type v) where
  /-- Where a run may start. -/
  initial : σ → Prop
  /-- One step under a label. -/
  step : σ → α → σ → Prop

namespace Machine

variable {σ : Type u} {α : Type v} (M : Machine σ α)

/-- A finite run, extended at its end. -/
inductive Run : σ → List α → σ → Prop
  | /-- The empty run. -/
    refl (state : σ) : Run state [] state
  | /-- One more step after a run. -/
    extend {first last next : σ} {labels : List α} {label : α}
      (prior : Run first labels last) (taken : M.step last label next) :
      Run first (labels ++ [label]) next

/-- Some run from an initial state ends here. -/
def Reachable (state : σ) : Prop :=
  ∃ first labels, M.initial first ∧ M.Run first labels state

/-- A predicate that holds initially and that every step preserves. -/
structure Invariant (holds : σ → Prop) : Prop where
  start : ∀ {state}, M.initial state → holds state
  preserved : ∀ {state label next}, holds state → M.step state label next → holds next

/-- The machine of a partial step function. -/
def ofNext (start : σ → Prop) (next : σ → α → Option σ) : Machine σ α where
  initial := start
  step state label after := next state label = some after

/-- Keep only the steps that meet a condition on the state before the step and
on the label. -/
def restrict (allowed : σ → α → Prop) : Machine σ α where
  initial := M.initial
  step state label next := allowed state label ∧ M.step state label next

variable {M}

theorem Reachable.start {state : σ} (hinitial : M.initial state) : M.Reachable state :=
  ⟨state, [], hinitial, .refl state⟩

theorem Reachable.next {state next : σ} {label : α} (hreach : M.Reachable state)
    (htaken : M.step state label next) : M.Reachable next := by
  obtain ⟨first, labels, hinitial, hrun⟩ := hreach
  exact ⟨first, labels ++ [label], hinitial, hrun.extend htaken⟩

/-- Preservation along one run, from any state in which the predicate holds. -/
theorem Run.preserves {holds : σ → Prop}
    (hstep : ∀ {state label next}, holds state → M.step state label next → holds next)
    {first last : σ} {labels : List α} (hrun : M.Run first labels last)
    (hfirst : holds first) : holds last := by
  induction hrun with
  | refl => exact hfirst
  | extend prior taken ih => exact hstep ih taken

/-- An invariant holds in every reachable state. -/
theorem Invariant.of_reachable {holds : σ → Prop} (hinvariant : M.Invariant holds)
    {state : σ} (hreach : M.Reachable state) : holds state := by
  obtain ⟨first, labels, hinitial, hrun⟩ := hreach
  exact hrun.preserves hinvariant.preserved (hinvariant.start hinitial)

/-- Computing the step function along a list of labels gives a run. -/
theorem Run.of_foldlM {start : σ → Prop} {next : σ → α → Option σ} {labels : List α}
    {first last : σ} (hfold : labels.foldlM next first = some last) :
    (ofNext start next).Run first labels last := by
  induction labels using List.reverseRecOn generalizing last with
  | nil =>
      cases hfold
      exact .refl first
  | append_singleton prior label ih =>
      rw [List.foldlM_append] at hfold
      cases hprior : prior.foldlM next first with
      | none => simp [hprior] at hfold
      | some middle =>
          have hstep : next middle label = some last := by
            cases hnext : next middle label <;> simp_all
          exact (ih hprior).extend hstep

theorem Reachable.of_foldlM {start : σ → Prop} {next : σ → α → Option σ} {labels : List α}
    {first last : σ} (hfirst : start first) (hfold : labels.foldlM next first = some last) :
    (ofNext start next).Reachable last :=
  ⟨first, labels, hfirst, .of_foldlM hfold⟩

/-- The step function that refuses the steps a restriction excludes. -/
def guarded (allowed : σ → α → Prop) [∀ state label, Decidable (allowed state label)]
    (next : σ → α → Option σ) (state : σ) (label : α) : Option σ :=
  if allowed state label then next state label else none

/-- A restricted machine is the machine of the guarded step function. -/
theorem restrict_ofNext {start : σ → Prop} {next : σ → α → Option σ} {allowed : σ → α → Prop}
    [∀ state label, Decidable (allowed state label)] :
    (ofNext start next).restrict allowed = ofNext start (guarded allowed next) := by
  have hstep : ((ofNext start next).restrict allowed).step =
      (ofNext start (guarded allowed next)).step := by
    funext state label after
    by_cases hallowed : allowed state label <;> simp [restrict, ofNext, guarded, hallowed]
  exact congrArg (Machine.mk start) hstep

theorem Run.of_restrict {allowed : σ → α → Prop} {first last : σ} {labels : List α}
    (hrun : (M.restrict allowed).Run first labels last) : M.Run first labels last := by
  induction hrun with
  | refl => exact .refl _
  | extend prior taken ih => exact ih.extend taken.2

/-- A restricted machine reaches nothing new. -/
theorem Reachable.of_restrict {allowed : σ → α → Prop} {state : σ}
    (hreach : (M.restrict allowed).Reachable state) : M.Reachable state := by
  obtain ⟨first, labels, hinitial, hrun⟩ := hreach
  exact ⟨first, labels, hinitial, hrun.of_restrict⟩

/-- A reachable state stays reachable along a run. -/
theorem Reachable.run {state last : σ} {labels : List α} (hreach : M.Reachable state)
    (hrun : M.Run state labels last) : M.Reachable last :=
  hrun.preserves (fun hreach htaken => hreach.next htaken) hreach

/-- A view of a machine in which every step from a reachable state is a step of another
machine, or none: what the view shows of a reachable state is reachable. -/
theorem Reachable.project {τ : Type u} {β : Type v} {N : Machine τ β} {view : σ → τ}
    (hstart : ∀ {state}, M.initial state → N.initial (view state))
    (hstep : ∀ {state label next}, M.Reachable state → M.step state label next →
      view next = view state ∨ ∃ label', N.step (view state) label' (view next))
    {state : σ} (hreach : M.Reachable state) : N.Reachable (view state) := by
  have hinvariant : M.Invariant fun state => M.Reachable state ∧ N.Reachable (view state) := by
    constructor
    · exact fun hinitial => ⟨.start hinitial, .start (hstart hinitial)⟩
    · rintro state label next ⟨hreach, hview⟩ htaken
      refine ⟨hreach.next htaken, ?_⟩
      rcases hstep hreach htaken with hsame | ⟨label', htaken'⟩
      · exact hsame ▸ hview
      · exact hview.next htaken'
  exact (hinvariant.of_reachable hreach).2

/-- A relation under which every step of a machine is matched by a step of another one, or by
none, relates the ends of runs. -/
theorem Run.simulate {τ : Type u} {β : Type v} {N : Machine τ β} {relate : σ → τ → Prop}
    (hstep : ∀ {state label next other}, relate state other → M.step state label next →
      ∃ other', (other' = other ∨ ∃ label', N.step other label' other') ∧ relate next other')
    {first last : σ} {labels : List α} {other : τ} (hrun : M.Run first labels last)
    (hfirst : relate first other) :
    ∃ labels' other', N.Run other labels' other' ∧ relate last other' := by
  induction hrun with
  | refl => exact ⟨[], other, .refl other, hfirst⟩
  | extend prior taken ih =>
      obtain ⟨labels', middle, hmiddle, hrelated⟩ := ih
      obtain ⟨other', hmatched, hnext⟩ := hstep hrelated taken
      rcases hmatched with rfl | ⟨label', htaken'⟩
      · exact ⟨labels', other', hmiddle, hnext⟩
      · exact ⟨labels' ++ [label'], other', hmiddle.extend htaken', hnext⟩

/-- When counted steps decrease a rank and no step increases it, a run has at most as many
counted steps as the rank it starts from. -/
theorem Run.countP_le_rank {holds : σ → Prop} {rank : σ → ℕ} {counted : α → Bool}
    (hstep : ∀ {state label next}, holds state → M.step state label next →
      holds next ∧ rank next + (if counted label then 1 else 0) ≤ rank state)
    {first last : σ} {labels : List α} (hrun : M.Run first labels last) (hfirst : holds first) :
    holds last ∧ rank last + labels.countP counted ≤ rank first := by
  induction hrun with
  | refl => exact ⟨hfirst, by simp⟩
  | extend prior taken ih =>
      obtain ⟨hlast, hprior⟩ := ih
      obtain ⟨hnext, htaken⟩ := hstep hlast taken
      refine ⟨hnext, ?_⟩
      rw [List.countP_append, List.countP_singleton]
      omega

end Machine
