/-
# Computations that keep their state when they fail

A computation reads and writes a state and either returns a value or fails; the
writes made before a failure stay. The monad is the standard `EStateM`. The
rules below peel a sequence apart at its first step, run a computation on a part
of the state, and visit a list with a computation.
-/

import Mathlib.Tactic

universe u

namespace Fallible

variable {ε σ τ α β : Type u}

/-- A sequence whose first step returns continues from the state it left. -/
theorem bind_ok {first : EStateM ε σ α} {rest : α → EStateM ε σ β} {state next : σ} {value : α}
    (hfirst : first state = .ok value next) :
    (first >>= rest) state = rest value next := by
  change EStateM.bind first rest state = _
  rw [EStateM.bind, hfirst]

/-- A sequence whose first step fails fails with it, in the state it left. -/
theorem bind_error {first : EStateM ε σ α} {rest : α → EStateM ε σ β} {state next : σ} {error : ε}
    (hfirst : first state = .error error next) :
    (first >>= rest) state = .error error next := by
  change EStateM.bind first rest state = _
  rw [EStateM.bind, hfirst]

@[simp]
theorem pure_apply (value : α) (state : σ) :
    (pure value : EStateM ε σ α) state = .ok value state := rfl

@[simp]
theorem throw_apply (error : ε) (state : σ) :
    (throw error : EStateM ε σ α) state = .error error state := rfl

/-- A sequence that first reads the state. -/
theorem bind_get (rest : σ → EStateM ε σ β) (state : σ) :
    ((get : EStateM ε σ σ) >>= rest) state = rest state state := rfl

/-- A returned value of a sequence comes from a returned value of its first step. -/
theorem bind_eq_ok {first : EStateM ε σ α} {rest : α → EStateM ε σ β} {state last : σ} {value : β}
    (hseq : (first >>= rest) state = .ok value last) :
    ∃ middle next, first state = .ok middle next ∧ rest middle next = .ok value last := by
  cases hfirst : first state with
  | ok middle next => exact ⟨middle, next, rfl, (bind_ok hfirst).symm.trans hseq⟩
  | error error next => rw [bind_error hfirst] at hseq; cases hseq

/-- A value mapped after a computation. -/
theorem map_ok {f : α → β} {action : EStateM ε σ α} {state next : σ} {value : α}
    (haction : action state = .ok value next) :
    (f <$> action) state = .ok (f value) next := by
  change EStateM.map f action state = _
  rw [EStateM.map, haction]

theorem map_error {f : α → β} {action : EStateM ε σ α} {state next : σ} {error : ε}
    (haction : action state = .error error next) :
    (f <$> action) state = .error error next := by
  change EStateM.map f action state = _
  rw [EStateM.map, haction]

/-- Run a computation on one part of the state, writing the part back whether it
returns or fails. -/
def zoom (view : σ → τ) (put : τ → σ → σ) (action : EStateM ε τ α) : EStateM ε σ α :=
  fun state =>
    match action (view state) with
    | .ok value part => .ok value (put part state)
    | .error error part => .error error (put part state)

theorem zoom_ok {view : σ → τ} {put : τ → σ → σ} {action : EStateM ε τ α} {state : σ}
    {value : α} {part : τ} (haction : action (view state) = .ok value part) :
    zoom view put action state = .ok value (put part state) := by
  rw [zoom, haction]

theorem zoom_error {view : σ → τ} {put : τ → σ → σ} {action : EStateM ε τ α} {state : σ}
    {error : ε} {part : τ} (haction : action (view state) = .error error part) :
    zoom view put action state = .error error (put part state) := by
  rw [zoom, haction]

/-- A value mapped inside or outside the part. -/
theorem zoom_map (f : α → β) (view : σ → τ) (put : τ → σ → σ) (action : EStateM ε τ α) :
    zoom view put (f <$> action) = f <$> zoom view put action := by
  funext state
  cases haction : action (view state) with
  | ok value part => rw [zoom_ok (map_ok haction), map_ok (zoom_ok haction)]
  | error error part => rw [zoom_error (map_error haction), map_error (zoom_error haction)]

/-- Give the failures of a computation another type. -/
def rethrow {δ : Type u} (convert : ε → δ) (action : EStateM ε σ α) : EStateM δ σ α := fun state =>
  match action state with
  | .ok value next => .ok value next
  | .error error next => .error (convert error) next

theorem rethrow_eq_ok_iff {δ : Type u} {convert : ε → δ} {action : EStateM ε σ α} {state next : σ}
    {value : α} : rethrow convert action state = .ok value next ↔ action state = .ok value next := by
  rw [rethrow]
  cases action state <;> simp

/-- Give every failure of a computation another name. -/
def mapError (rename : ε → ε) (action : EStateM ε σ α) : EStateM ε σ α := fun state =>
  match action state with
  | .ok value next => .ok value next
  | .error error next => .error (rename error) next

theorem mapError_ok {rename : ε → ε} {action : EStateM ε σ α} {state next : σ} {value : α}
    (haction : action state = .ok value next) :
    mapError rename action state = .ok value next := by
  rw [mapError, haction]

theorem mapError_error {rename : ε → ε} {action : EStateM ε σ α} {state next : σ} {error : ε}
    (haction : action state = .error error next) :
    mapError rename action state = .error (rename error) next := by
  rw [mapError, haction]

/-- Renaming errors returns nothing new. -/
theorem of_mapError_ok {rename : ε → ε} {action : EStateM ε σ α} {state next : σ} {value : α}
    (hresult : mapError rename action state = .ok value next) : action state = .ok value next := by
  cases haction : action state with
  | ok found after =>
      rw [mapError_ok haction] at hresult
      exact hresult
  | error error after =>
      rw [mapError_error haction] at hresult
      cases hresult

/-- A renamed error comes from an error. -/
theorem of_mapError_error {rename : ε → ε} {action : EStateM ε σ α} {state next : σ} {error : ε}
    (hresult : mapError rename action state = .error error next) :
    ∃ original, action state = .error original next ∧ error = rename original := by
  cases haction : action state with
  | ok found after =>
      rw [mapError_ok haction] at hresult
      cases hresult
  | error original after =>
      rw [mapError_error haction] at hresult
      cases hresult
      exact ⟨original, rfl, rfl⟩

/-- Visit a list from left to right and stop at the first failure. -/
def forEach (visit : α → EStateM ε σ PUnit) : List α → EStateM ε σ PUnit
  | [] => pure ⟨⟩
  | item :: items => do
      visit item
      forEach visit items

/-- Visit a list from left to right and collect what each visit returns. -/
def collect (visit : α → EStateM ε σ β) : List α → EStateM ε σ (List β)
  | [] => pure []
  | item :: items => do
      let value ← visit item
      let values ← collect visit items
      return value :: values

/-- Values mapped visit by visit are the collected values mapped. -/
theorem collect_map {γ : Type u} (f : β → γ) (visit : α → EStateM ε σ β) (items : List α) :
    collect (fun item => f <$> visit item) items = List.map f <$> collect visit items := by
  induction items with
  | nil => simp [collect]
  | cons item items ih => simp [collect, ih]

/-- A walk of two lists is one after the other. -/
theorem forEach_append (visit : α → EStateM ε σ PUnit) (items later : List α) :
    forEach visit (items ++ later) = forEach visit items >>= fun _ => forEach visit later := by
  induction items with
  | nil => simp [forEach]
  | cons item items ih => simp [forEach, ih]

/-! ## What holds when a computation ends -/

/-- What holds of the value and the state a computation returns with, and of the error and
the state it fails with. -/
def Ends (returns : α → σ → Prop) (fails : ε → σ → Prop) : EStateM.Result ε σ α → Prop
  | .ok value next => returns value next
  | .error error next => fails error next

section Ends

variable {fails : ε → σ → Prop}

theorem Ends.imp {returns weaker : α → σ → Prop} {weakerFails : ε → σ → Prop}
    {result : EStateM.Result ε σ α} (hends : Ends returns fails result)
    (hreturns : ∀ value next, returns value next → weaker value next)
    (hfails : ∀ error next, fails error next → weakerFails error next) :
    Ends weaker weakerFails result := by
  cases result with
  | ok value next => exact hreturns value next hends
  | error error next => exact hfails error next hends

/-- A computation that cannot return fails. -/
theorem Ends.exists_error {result : EStateM.Result ε σ α}
    (hends : Ends (fun _ _ => False) fails result) :
    ∃ error next, result = .error error next ∧ fails error next := by
  cases result with
  | ok value next => exact hends.elim
  | error error next => exact ⟨error, next, rfl, hends⟩

theorem Ends.bind {returns : β → σ → Prop} {middle : α → σ → Prop} {first : EStateM ε σ α}
    {rest : α → EStateM ε σ β} {state : σ} (hfirst : Ends middle fails (first state))
    (hrest : ∀ value next, middle value next → Ends returns fails (rest value next)) :
    Ends returns fails ((first >>= rest) state) := by
  cases hresult : first state with
  | ok value next =>
      rw [hresult] at hfirst
      rw [bind_ok hresult]
      exact hrest value next hfirst
  | error error next =>
      rw [hresult] at hfirst
      rw [bind_error hresult]
      exact hfirst

/-- A sequence whose first step cannot return does not return. -/
theorem Ends.bind_never {first : EStateM ε σ α} {rest : α → EStateM ε σ β} {state : σ}
    (hfirst : Ends (fun _ _ => False) fails (first state)) :
    Ends (fun _ _ => False) fails ((first >>= rest) state) :=
  hfirst.bind fun _ _ hreturned => hreturned.elim

/-- A computation on a part ends with the part put back. -/
theorem Ends.zoom {returns : α → σ → Prop} {part : α → τ → Prop} {partFails : ε → τ → Prop}
    {view : σ → τ} {put : τ → σ → σ} {action : EStateM ε τ α} {state : σ}
    (haction : Ends part partFails (action (view state)))
    (hreturns : ∀ value next, part value next → returns value (put next state))
    (hfails : ∀ error next, partFails error next → fails error (put next state)) :
    Ends returns fails (zoom view put action state) := by
  unfold Fallible.zoom
  cases hresult : action (view state) with
  | ok value next =>
      rw [hresult] at haction
      exact hreturns value next haction
  | error error next =>
      rw [hresult] at haction
      exact hfails error next haction

/-- What every visit preserves the walk preserves, and it fails as the visits do. -/
theorem forEach_ends {holds : σ → Prop} {visit : α → EStateM ε σ PUnit} {items : List α}
    (hvisit : ∀ item ∈ items, ∀ state, holds state →
      Ends (fun _ => holds) fails (visit item state))
    {state : σ} (hstate : holds state) : Ends (fun _ => holds) fails (forEach visit items state) := by
  induction items generalizing state with
  | nil => exact hstate
  | cons item items ih =>
      rw [forEach]
      apply Ends.bind (hvisit item (by simp) state hstate)
      exact fun _ next hnext =>
        ih (fun later hlater => hvisit later (List.mem_cons_of_mem _ hlater)) hnext

/-- Collecting returns what the visits return, one for one, and fails as they do. -/
theorem collect_ends {rel : α → β → Prop} {holds : σ → Prop} {visit : α → EStateM ε σ β}
    {items : List α}
    (hvisit : ∀ item ∈ items, ∀ state, holds state →
      Ends (fun value next => rel item value ∧ holds next) fails (visit item state))
    {state : σ} (hstate : holds state) :
    Ends (fun values next => List.Forall₂ rel items values ∧ holds next) fails
      (collect visit items state) := by
  induction items generalizing state with
  | nil => exact ⟨.nil, hstate⟩
  | cons item items ih =>
      rw [collect]
      apply Ends.bind (hvisit item (by simp) state hstate)
      rintro value next ⟨hvalue, hnext⟩
      apply Ends.bind (ih (fun later hlater => hvisit later (List.mem_cons_of_mem _ hlater)) hnext)
      exact fun values last hvalues => ⟨.cons hvalue hvalues.1, hvalues.2⟩

/-- Collecting preserves what every visit preserves. -/
theorem collect_keeps {holds : σ → Prop} {visit : α → EStateM ε σ β} {items : List α}
    (hvisit : ∀ item ∈ items, ∀ state, holds state →
      Ends (fun _ => holds) fails (visit item state))
    {state : σ} (hstate : holds state) :
    Ends (fun _ => holds) fails (collect visit items state) := by
  have hends : ∀ item ∈ items, ∀ state, holds state →
      Ends (fun _ next => True ∧ holds next) fails (visit item state) :=
    fun item hmem state hstate =>
      (hvisit item hmem state hstate).imp (fun _ _ hnext => ⟨trivial, hnext⟩) fun _ _ hfails => hfails
  have hcollect : Ends (fun values next => List.Forall₂ (fun _ _ => True) items values ∧ holds next)
      fails (collect visit items state) := collect_ends hends hstate
  exact hcollect.imp (fun _ _ hvalues => hvalues.2) fun _ _ hfails => hfails

/-- Collecting does not return when the first visit does not. -/
theorem collect_never {visit : α → EStateM ε σ β} {items : List α} {state : σ}
    (hitems : items ≠ [])
    (hvisit : ∀ item ∈ items, Ends (fun _ _ => False) fails (visit item state)) :
    Ends (fun _ _ => False) fails (collect visit items state) := by
  cases items with
  | nil => exact absurd rfl hitems
  | cons item items =>
      rw [collect]
      exact (hvisit item (by simp)).bind_never

/-- A walk over an item whose visits never return does not return. -/
theorem forEach_fails {holds : σ → Prop} {visit : α → EStateM ε σ PUnit} {items : List α}
    (hvisit : ∀ item ∈ items, ∀ state, holds state →
      Ends (fun _ => holds) fails (visit item state))
    (hnever : ∃ item ∈ items, ∀ state, holds state →
      Ends (fun _ _ => False) fails (visit item state))
    {state : σ} (hstate : holds state) :
    Ends (fun _ _ => False) fails (forEach visit items state) := by
  obtain ⟨bad, hmem, hbad⟩ := hnever
  obtain ⟨before, after, rfl⟩ := List.append_of_mem hmem
  rw [forEach_append]
  apply Ends.bind
  · exact forEach_ends (fun item hitem => hvisit item (List.mem_append_left _ hitem)) hstate
  · intro _ next hnext
    rw [forEach]
    exact (hbad next hnext).bind_never

/-- Collecting over an item whose visits never return does not return. -/
theorem collect_fails {holds : σ → Prop} {visit : α → EStateM ε σ β} {items : List α}
    (hvisit : ∀ item ∈ items, ∀ state, holds state →
      Ends (fun _ => holds) fails (visit item state))
    (hnever : ∃ item ∈ items, ∀ state, holds state →
      Ends (fun _ _ => False) fails (visit item state))
    {state : σ} (hstate : holds state) :
    Ends (fun _ _ => False) fails (collect visit items state) := by
  induction items generalizing state with
  | nil =>
      obtain ⟨bad, hmem, -⟩ := hnever
      cases hmem
  | cons item items ih =>
      rw [collect]
      obtain ⟨bad, hmem, hbad⟩ := hnever
      rcases List.mem_cons.mp hmem with rfl | hlater
      · exact (hbad state hstate).bind_never
      · apply Ends.bind (hvisit item (by simp) state hstate)
        intro value next hnext
        have hrest := ih (fun later hlater => hvisit later (List.mem_cons_of_mem _ hlater))
          ⟨bad, hlater, hbad⟩ hnext
        exact hrest.bind_never

end Ends

/-- A predicate of the state a computation leaves, with a value or a failure. -/
def Leaves (holds : σ → Prop) : EStateM.Result ε σ α → Prop
  | .ok _ next => holds next
  | .error _ next => holds next

theorem leaves_iff_ends {holds : σ → Prop} {result : EStateM.Result ε σ α} :
    Leaves holds result ↔ Ends (fun _ => holds) (fun _ => holds) result := by
  cases result with
  | ok value next => exact Iff.rfl
  | error error next => exact Iff.rfl

/-- The state a computation leaves, with a value or a failure. -/
def left : EStateM.Result ε σ α → σ
  | .ok _ next => next
  | .error _ next => next

theorem Leaves.of_left {holds : σ → Prop} {result : EStateM.Result ε σ α}
    (hleaves : Leaves holds result) : holds (left result) := by
  cases result with
  | ok value next => exact hleaves
  | error error next => exact hleaves

/-- A weaker predicate is left as well. -/
theorem Leaves.imp {holds weaker : σ → Prop} {result : EStateM.Result ε σ α}
    (hleaves : Leaves holds result) (hweaker : ∀ state, holds state → weaker state) :
    Leaves weaker result := by
  rw [leaves_iff_ends] at hleaves ⊢
  exact hleaves.imp (fun _ => hweaker) fun _ => hweaker

theorem Leaves.bind {holds : σ → Prop} {first : EStateM ε σ α} {rest : α → EStateM ε σ β}
    {state : σ} (hfirst : Leaves holds (first state))
    (hrest : ∀ value next, holds next → Leaves holds (rest value next)) :
    Leaves holds ((first >>= rest) state) := by
  simp only [leaves_iff_ends] at hfirst hrest ⊢
  exact hfirst.bind hrest

/-- A computation on a part leaves the whole with the part put back. -/
theorem Leaves.zoom {holds : σ → Prop} {view : σ → τ} {put : τ → σ → σ} {action : EStateM ε τ α}
    {state : σ} {part : τ → Prop} (haction : Leaves part (action (view state)))
    (hput : ∀ next, part next → holds (put next state)) :
    Leaves holds (zoom view put action state) := by
  rw [leaves_iff_ends] at haction ⊢
  exact haction.zoom (fun _ => hput) fun _ => hput

/-- Whatever every visit preserves, the whole walk preserves, also when it fails. -/
theorem forEach_preserves {holds : σ → Prop} {visit : α → EStateM ε σ PUnit}
    {items : List α}
    (hvisit : ∀ item ∈ items, ∀ state, holds state → Leaves holds (visit item state))
    {state : σ} (hstate : holds state) : Leaves holds (forEach visit items state) := by
  simp only [leaves_iff_ends] at hvisit ⊢
  exact forEach_ends hvisit hstate

theorem collect_preserves {holds : σ → Prop} {visit : α → EStateM ε σ β} {items : List α}
    (hvisit : ∀ item ∈ items, ∀ state, holds state → Leaves holds (visit item state))
    {state : σ} (hstate : holds state) : Leaves holds (collect visit items state) := by
  simp only [leaves_iff_ends] at hvisit ⊢
  exact collect_keeps hvisit hstate

/-- A computation that keeps a predicate, with a value or a failure. -/
def Preserves (holds : σ → Prop) (action : EStateM ε σ α) : Prop :=
  ∀ state, holds state → Leaves holds (action state)

section Preserves

variable {holds : σ → Prop}

theorem Preserves.pure (value : α) : Preserves holds (Pure.pure value : EStateM ε σ α) :=
  fun _ hstate => hstate

theorem Preserves.throw (error : ε) :
    Preserves holds (MonadExcept.throw error : EStateM ε σ α) := fun _ hstate => hstate

theorem Preserves.bind {first : EStateM ε σ α} {rest : α → EStateM ε σ β}
    (hfirst : Preserves holds first) (hrest : ∀ value, Preserves holds (rest value)) :
    Preserves holds (first >>= rest) := fun state hstate =>
  (hfirst state hstate).bind fun value next hnext => hrest value next hnext

theorem Preserves.forEach {visit : α → EStateM ε σ PUnit}
    (hvisit : ∀ item, Preserves holds (visit item)) (items : List α) :
    Preserves holds (Fallible.forEach visit items) := fun _ hstate =>
  forEach_preserves (fun item _ => hvisit item) hstate

theorem Preserves.mapError {action : EStateM ε σ α} (haction : Preserves holds action)
    (rename : ε → ε) : Preserves holds (Fallible.mapError rename action) := by
  intro state hstate
  have hleaves := haction state hstate
  rw [Fallible.mapError]
  cases hresult : action state with
  | ok value next =>
      rw [hresult] at hleaves
      exact hleaves
  | error error next =>
      rw [hresult] at hleaves
      exact hleaves

/-- A computation on a part preserves a predicate of the part. -/
theorem Preserves.zoom {part : τ → Prop} {view : σ → τ} {put : τ → σ → σ}
    {action : EStateM ε τ α} (haction : Preserves part action)
    (hview : ∀ state, holds state → part (view state))
    (hput : ∀ state next, holds state → part next → holds (put next state)) :
    Preserves holds (Fallible.zoom view put action) := fun state hstate =>
  (haction (view state) (hview state hstate)).zoom fun next => hput state next hstate

end Preserves

/-- What is returned, and what holds of the state that is left, with a value or a failure. -/
def Returns (value : α → Prop) (holds : σ → Prop) : EStateM.Result ε σ α → Prop
  | .ok result next => value result ∧ holds next
  | .error _ next => holds next

theorem returns_iff_ends {value : α → Prop} {holds : σ → Prop} {result : EStateM.Result ε σ α} :
    Returns value holds result ↔
      Ends (fun found next => value found ∧ holds next) (fun _ => holds) result := by
  cases result with
  | ok found next => exact Iff.rfl
  | error error next => exact Iff.rfl

theorem Returns.leaves {value : α → Prop} {holds : σ → Prop} {result : EStateM.Result ε σ α}
    (hreturns : Returns value holds result) : Leaves holds result := by
  rw [returns_iff_ends] at hreturns
  rw [leaves_iff_ends]
  exact hreturns.imp (fun _ _ hfound => hfound.2) fun _ _ hnext => hnext

theorem Returns.bind {value : α → Prop} {result : β → Prop} {holds : σ → Prop}
    {first : EStateM ε σ α} {rest : α → EStateM ε σ β} {state : σ}
    (hfirst : Returns value holds (first state))
    (hrest : ∀ found next, value found → holds next → Returns result holds (rest found next)) :
    Returns result holds ((first >>= rest) state) := by
  simp only [returns_iff_ends] at hfirst hrest ⊢
  exact hfirst.bind fun found next hfound => hrest found next hfound.1 hfound.2

theorem Returns.zoom {value : α → Prop} {holds : σ → Prop} {view : σ → τ} {put : τ → σ → σ}
    {action : EStateM ε τ α} {state : σ} {part : τ → Prop}
    (haction : Returns value part (action (view state)))
    (hput : ∀ next, part next → holds (put next state)) :
    Returns value holds (zoom view put action state) := by
  rw [returns_iff_ends] at haction ⊢
  exact haction.zoom (fun _ next hfound => ⟨hfound.1, hput next hfound.2⟩) fun _ => hput

/-- Collecting returns what the visits return, one for one. -/
theorem collect_returns {rel : α → β → Prop} {holds : σ → Prop} {visit : α → EStateM ε σ β}
    {items : List α}
    (hvisit : ∀ item ∈ items, ∀ state, holds state → Returns (rel item) holds (visit item state))
    {state : σ} (hstate : holds state) :
    Returns (List.Forall₂ rel items) holds (collect visit items state) := by
  simp only [returns_iff_ends] at hvisit ⊢
  exact collect_ends hvisit hstate

/-- The failures a computation can end in. -/
def FailsAs (fails : ε → Prop) (action : EStateM ε σ α) : Prop :=
  ∀ state error next, action state = .error error next → fails error

theorem failsAs_iff_ends {fails : ε → Prop} {action : EStateM ε σ α} :
    FailsAs fails action ↔
      ∀ state, Ends (fun _ _ => True) (fun error _ => fails error) (action state) := by
  constructor
  · intro hfails state
    cases hresult : action state with
    | ok value next => trivial
    | error error next => exact hfails state error next hresult
  · intro hends state error next hfailed
    have hend := hends state
    rw [hfailed] at hend
    exact hend

theorem forEach_failsAs {fails : ε → Prop} {visit : α → EStateM ε σ PUnit} {items : List α}
    (hvisit : ∀ item ∈ items, FailsAs fails (visit item)) : FailsAs fails (forEach visit items) := by
  simp only [failsAs_iff_ends] at hvisit ⊢
  exact fun state => forEach_ends (fun item hmem state _ => hvisit item hmem state) trivial

/-! ## Walks -/

/-- Visits that leave the state as it is make a walk that does. -/
theorem forEach_idle {visit : α → EStateM ε σ PUnit} {items : List α} {state : σ}
    (hvisit : ∀ item ∈ items, visit item state = .ok ⟨⟩ state) :
    forEach visit items state = .ok ⟨⟩ state := by
  induction items with
  | nil => rfl
  | cons item items ih =>
      rw [forEach, bind_ok (hvisit item (by simp))]
      exact ih fun later hlater => hvisit later (List.mem_cons_of_mem _ hlater)

/-- Walks whose visits agree on every item agree. -/
theorem forEach_congr {visit other : α → EStateM ε σ PUnit} {items : List α}
    (hvisit : ∀ item ∈ items, visit item = other item) :
    forEach visit items = forEach other items := by
  induction items with
  | nil => rfl
  | cons item items ih =>
      rw [forEach, forEach, hvisit item (by simp),
        ih fun later hlater => hvisit later (List.mem_cons_of_mem _ hlater)]

/-- When every visit of one walk that returns is matched by the visit of another, from
related states to related states, so is the walk. -/
theorem forEach_related {visit other : α → EStateM ε σ PUnit} {items : List α}
    (rel : σ → σ → Prop)
    (hvisit : ∀ item ∈ items, ∀ first second next, rel first second →
      visit item first = .ok ⟨⟩ next → ∃ after, other item second = .ok ⟨⟩ after ∧ rel next after)
    {first second last : σ} (hrel : rel first second)
    (hfirst : forEach visit items first = .ok ⟨⟩ last) :
    ∃ after, forEach other items second = .ok ⟨⟩ after ∧ rel last after := by
  induction items generalizing first second with
  | nil =>
      cases hfirst
      exact ⟨second, rfl, hrel⟩
  | cons item items ih =>
      rw [forEach] at hfirst
      obtain ⟨_, middle, hitem, hrest⟩ := bind_eq_ok hfirst
      obtain ⟨after, hafter, hnext⟩ := hvisit item (by simp) first second middle hrel hitem
      rw [forEach, bind_ok hafter]
      exact ih (fun later hlater => hvisit later (List.mem_cons_of_mem _ hlater)) hnext hrest

/-- If each visit returns a value that does not depend on the state and steps to a next
one, collecting returns these values and folds the steps. -/
theorem collect_ok {holds : σ → Prop} {visit : α → EStateM ε σ β} {result : α → β}
    {step : σ → α → σ} {items : List α}
    (hvisit : ∀ item ∈ items, ∀ state, holds state →
      visit item state = .ok (result item) (step state item) ∧ holds (step state item))
    {state : σ} (hstate : holds state) :
    collect visit items state = .ok (items.map result) (items.foldl step state) := by
  induction items generalizing state with
  | nil => rfl
  | cons item items ih =>
      obtain ⟨hitem, hnext⟩ := hvisit item (by simp) state hstate
      have hrest := ih (fun later hlater => hvisit later (List.mem_cons_of_mem _ hlater)) hnext
      rw [collect, bind_ok hitem, bind_ok hrest]
      rfl

/-- If one visit never returns, collecting fails, and as the visits fail. -/
theorem collect_error {holds : σ → Prop} {fails : ε → Prop} {visit : α → EStateM ε σ β}
    {items : List α}
    (hvisit : ∀ item ∈ items, ∀ state, holds state →
      (∃ value next, visit item state = .ok value next ∧ holds next) ∨
        ∃ error next, visit item state = .error error next ∧ fails error)
    (hnever : ∃ item ∈ items, ∀ state value next, holds state → visit item state ≠ .ok value next)
    {state : σ} (hstate : holds state) :
    ∃ error next, collect visit items state = .error error next ∧ fails error := by
  have hends : ∀ item ∈ items, ∀ state, holds state →
      Ends (fun _ => holds) (fun error _ => fails error) (visit item state) := by
    intro item hmem state hstate
    rcases hvisit item hmem state hstate with ⟨value, next, hitem, hnext⟩ | ⟨error, next, hitem, hfails⟩
    · rw [hitem]
      exact hnext
    · rw [hitem]
      exact hfails
  obtain ⟨bad, hmem, hbad⟩ := hnever
  apply (collect_fails hends ⟨bad, hmem, ?_⟩ hstate).exists_error
  intro state hstate
  have hend := hends bad hmem state hstate
  cases hresult : visit bad state with
  | ok value next => exact absurd hresult (hbad state value next hstate)
  | error error next =>
      rw [hresult] at hend
      exact hend

section CutOff

variable {cut : ε}

/-- The first result is the second one, or what is left where the computation was cut off. -/
def CutOff (cut : ε) (early full : EStateM.Result ε σ α) : Prop :=
  early = full ∨ ∃ state, early = .error cut state

theorem CutOff.bind {first full : EStateM ε σ α} {rest fullRest : α → EStateM ε σ β} {state : σ}
    (hfirst : CutOff cut (first state) (full state))
    (hrest : ∀ value next, CutOff cut (rest value next) (fullRest value next)) :
    CutOff cut ((first >>= rest) state) ((full >>= fullRest) state) := by
  rcases hfirst with hsame | ⟨next, hcut⟩
  · cases hresult : full state with
    | ok value next =>
        rw [bind_ok hresult, bind_ok (hsame.trans hresult)]
        exact hrest value next
    | error error next =>
        rw [bind_error hresult, bind_error (hsame.trans hresult)]
        exact .inl rfl
  · exact .inr ⟨next, bind_error hcut⟩

theorem CutOff.zoom {view : σ → τ} {put : τ → σ → σ} {action full : EStateM ε τ α} {state : σ}
    (haction : CutOff cut (action (view state)) (full (view state))) :
    CutOff cut (zoom view put action state) (zoom view put full state) := by
  rcases haction with hsame | ⟨next, hcut⟩
  · rw [Fallible.zoom, Fallible.zoom, hsame]
    exact .inl rfl
  · exact .inr ⟨_, zoom_error hcut⟩

theorem forEach_cutOff {visit full : α → EStateM ε σ PUnit} {items : List α}
    (hvisit : ∀ item ∈ items, ∀ state, CutOff cut (visit item state) (full item state))
    (state : σ) : CutOff cut (forEach visit items state) (forEach full items state) := by
  induction items generalizing state with
  | nil => exact .inl rfl
  | cons item items ih =>
      rw [forEach, forEach]
      apply CutOff.bind (hvisit item (by simp) state)
      exact fun _ next => ih (fun later hlater => hvisit later (List.mem_cons_of_mem _ hlater)) next

theorem collect_cutOff {visit full : α → EStateM ε σ β} {items : List α}
    (hvisit : ∀ item ∈ items, ∀ state, CutOff cut (visit item state) (full item state))
    (state : σ) : CutOff cut (collect visit items state) (collect full items state) := by
  induction items generalizing state with
  | nil => exact .inl rfl
  | cons item items ih =>
      rw [collect, collect]
      apply CutOff.bind (hvisit item (by simp) state)
      intro value next
      apply CutOff.bind (ih (fun later hlater => hvisit later (List.mem_cons_of_mem _ hlater)) next)
      exact fun _ _ => .inl rfl

end CutOff

/-! ## Computations that run alike -/

section Alike

variable {σ' τ' γ : Type u} {rel : σ → σ' → Prop}

/-- Two results with the same value or the same failure, in related states. -/
inductive Alike (rel : σ → σ' → Prop) : EStateM.Result ε σ α → EStateM.Result ε σ' α → Prop
  | ok {value : α} {state : σ} {other : σ'} (hrel : rel state other) :
      Alike rel (.ok value state) (.ok value other)
  | error {failure : ε} {state : σ} {other : σ'} (hrel : rel state other) :
      Alike rel (.error failure state) (.error failure other)

theorem Alike.bind {first : EStateM ε σ α} {first' : EStateM ε σ' α} {rest : α → EStateM ε σ β}
    {rest' : α → EStateM ε σ' β} {state : σ} {other : σ'}
    (hfirst : Alike rel (first state) (first' other))
    (hrest : ∀ value next next', rel next next' →
      Alike rel (rest value next) (rest' value next')) :
    Alike rel ((first >>= rest) state) ((first' >>= rest') other) := by
  change Alike rel (EStateM.bind first rest state) (EStateM.bind first' rest' other)
  unfold EStateM.bind
  generalize first state = result, first' other = result' at hfirst
  cases hfirst with
  | ok hrel => exact hrest _ _ _ hrel
  | error hrel => exact .error hrel

/-- Computations on parts that run alike, with the parts put back. -/
theorem Alike.zoom {part : τ → τ' → Prop} {view : σ → τ} {put : τ → σ → σ} {view' : σ' → τ'}
    {put' : τ' → σ' → σ'} {action : EStateM ε τ α} {action' : EStateM ε τ' α} {state : σ}
    {other : σ'} (haction : Alike part (action (view state)) (action' (view' other)))
    (hput : ∀ next next', part next next' → rel (put next state) (put' next' other)) :
    Alike rel (zoom view put action state) (zoom view' put' action' other) := by
  unfold Fallible.zoom
  generalize action (view state) = result, action' (view' other) = result' at haction
  cases haction with
  | ok hrel => exact .ok (hput _ _ hrel)
  | error hrel => exact .error (hput _ _ hrel)

theorem forEach_alike {visit : α → EStateM ε σ PUnit} {visit' : α → EStateM ε σ' PUnit}
    {items : List α}
    (hvisit : ∀ item ∈ items, ∀ state other, rel state other →
      Alike rel (visit item state) (visit' item other))
    {state : σ} {other : σ'} (hrel : rel state other) :
    Alike rel (forEach visit items state) (forEach visit' items other) := by
  induction items generalizing state other with
  | nil => exact .ok hrel
  | cons item items ih =>
      apply Alike.bind (hvisit item (by simp) state other hrel)
      exact fun _ next next' hnext =>
        ih (fun later hlater => hvisit later (List.mem_cons_of_mem _ hlater)) hnext

/-- Collecting over lists that are paired one for one. -/
theorem collect_alike {pair : α → γ → Prop} {visit : α → EStateM ε σ β}
    {visit' : γ → EStateM ε σ' β} {items : List α} {items' : List γ}
    (hpairs : List.Forall₂ pair items items')
    (hvisit : ∀ item item', pair item item' → ∀ state other, rel state other →
      Alike rel (visit item state) (visit' item' other))
    {state : σ} {other : σ'} (hrel : rel state other) :
    Alike rel (collect visit items state) (collect visit' items' other) := by
  induction hpairs generalizing state other with
  | nil => exact .ok hrel
  | cons hpair hpairs ih =>
      rw [collect, collect]
      apply Alike.bind (hvisit _ _ hpair state other hrel)
      intro value next next' hnext
      exact Alike.bind (ih hnext) fun values last last' hlast => .ok hlast

end Alike

/-! ## Lists of results -/

section Results

variable {δ : Type u} {meaning : α → Except δ β} {items : List α}

/-- When every item has a result, so has the list. -/
theorem mapM_eq_ok {result : α → β} (hitem : ∀ item ∈ items, meaning item = .ok (result item)) :
    items.mapM meaning = .ok (items.map result) := by
  induction items with
  | nil => rfl
  | cons item items ih =>
      rw [List.mapM_cons, hitem item (by simp),
        ih fun later hlater => hitem later (List.mem_cons_of_mem _ hlater)]
      rfl

/-- When the list has a result, so has every item. -/
theorem exists_ok_of_mapM {outcomes : List β} (hlist : items.mapM meaning = .ok outcomes) :
    ∀ item ∈ items, ∃ outcome, meaning item = .ok outcome := by
  induction items generalizing outcomes with
  | nil => nofun
  | cons item items ih =>
      rw [List.mapM_cons] at hlist
      cases hfirst : meaning item with
      | error error => rw [hfirst] at hlist; cases hlist
      | ok outcome =>
          cases hrest : items.mapM meaning with
          | error error => rw [hfirst, hrest] at hlist; cases hlist
          | ok rest =>
              intro wanted hmem
              rcases List.mem_cons.mp hmem with rfl | hmem
              · exact ⟨outcome, hfirst⟩
              · exact ih hrest wanted hmem

/-- Lists that are related one for one. -/
theorem exists_of_forall₂ {rel : α → β → Prop} {outcomes : List β}
    (hall : List.Forall₂ rel items outcomes) :
    (∀ item ∈ items, ∃ outcome ∈ outcomes, rel item outcome) ∧
      ∀ outcome ∈ outcomes, ∃ item ∈ items, rel item outcome := by
  induction hall with
  | nil => exact ⟨nofun, nofun⟩
  | @cons item outcome items outcomes hfirst hrest ih =>
      constructor
      · intro wanted hmem
        rcases List.mem_cons.mp hmem with rfl | hmem
        · exact ⟨outcome, by simp, hfirst⟩
        · obtain ⟨found, hfound, hrel⟩ := ih.1 wanted hmem
          exact ⟨found, List.mem_cons_of_mem _ hfound, hrel⟩
      · intro wanted hmem
        rcases List.mem_cons.mp hmem with rfl | hmem
        · exact ⟨item, by simp, hfirst⟩
        · obtain ⟨found, hfound, hrel⟩ := ih.2 wanted hmem
          exact ⟨found, List.mem_cons_of_mem _ hfound, hrel⟩

/-- A list has a result when its items have, one for one. -/
theorem mapM_eq_ok_iff {outcomes : List β} :
    items.mapM meaning = .ok outcomes ↔
      List.Forall₂ (fun item outcome => meaning item = .ok outcome) items outcomes := by
  induction items generalizing outcomes with
  | nil =>
      rw [List.forall₂_nil_left_iff]
      exact ⟨fun hlist => by cases hlist; rfl, fun hnil => by rw [hnil]; rfl⟩
  | cons item items ih =>
      rw [List.mapM_cons]
      constructor
      · intro hlist
        cases hfirst : meaning item with
        | error error => rw [hfirst] at hlist; cases hlist
        | ok outcome =>
            cases hrest : items.mapM meaning with
            | error error => rw [hfirst, hrest] at hlist; cases hlist
            | ok rest =>
                rw [hfirst, hrest] at hlist
                cases hlist
                exact .cons hfirst (ih.mp hrest)
      · intro hall
        cases hall with
        | cons hfirst hrest =>
            rw [hfirst, ih.mpr hrest]
            rfl

/-- A list has a result that is related to it one for one when every item has one. -/
theorem exists_mapM_forall₂_iff {rel : α → β → Prop} :
    (∃ outcomes, items.mapM meaning = .ok outcomes ∧ List.Forall₂ rel items outcomes) ↔
      ∀ item ∈ items, ∃ outcome, meaning item = .ok outcome ∧ rel item outcome := by
  simp only [mapM_eq_ok_iff]
  induction items with
  | nil => exact ⟨fun _ => nofun, fun _ => ⟨[], .nil, .nil⟩⟩
  | cons item items ih =>
      rw [List.forall_mem_cons, ← ih]
      constructor
      · rintro ⟨outcomes, hmeaning, hrel⟩
        cases hmeaning with
        | cons hfirst hrest =>
            cases hrel with
            | cons hrelFirst hrelRest => exact ⟨⟨_, hfirst, hrelFirst⟩, _, hrest, hrelRest⟩
      · rintro ⟨⟨outcome, hfirst, hrelFirst⟩, outcomes, hrest, hrelRest⟩
        exact ⟨outcome :: outcomes, .cons hfirst hrest, .cons hrelFirst hrelRest⟩

/-- A list has a result in which some outcome has a property when every item has an outcome,
and some item one with the property. -/
theorem exists_mapM_mem_iff {holds : β → Prop} :
    (∃ outcomes, items.mapM meaning = .ok outcomes ∧ ∃ outcome ∈ outcomes, holds outcome) ↔
      (∀ item ∈ items, ∃ outcome, meaning item = .ok outcome) ∧
        ∃ item ∈ items, ∃ outcome, meaning item = .ok outcome ∧ holds outcome := by
  constructor
  · rintro ⟨outcomes, hlist, outcome, hmem, hholds⟩
    obtain ⟨item, hitem, hmeaning⟩ := (exists_of_forall₂ (mapM_eq_ok_iff.mp hlist)).2 outcome hmem
    exact ⟨exists_ok_of_mapM hlist, item, hitem, outcome, hmeaning, hholds⟩
  · rintro ⟨hall, item, hitem, outcome, hmeaning, hholds⟩
    obtain ⟨outcomes, hlist, -⟩ := exists_mapM_forall₂_iff.mpr fun item hmem =>
      (hall item hmem).imp fun _ houtcome => ⟨houtcome, trivial⟩
    obtain ⟨found, hmem, hfound⟩ := (exists_of_forall₂ (mapM_eq_ok_iff.mp hlist)).1 item hitem
    obtain rfl : outcome = found := Except.ok.inj (hmeaning.symm.trans hfound)
    exact ⟨outcomes, hlist, outcome, hmem, hholds⟩

/-- The results of lists, joined, are the result of the joined lists. -/
theorem map_flatten_mapM {γ : Type u} (lists : List γ) (itemsOf : γ → List α) :
    (lists.mapM fun list => (itemsOf list).mapM meaning).map List.flatten =
      (lists.flatMap itemsOf).mapM meaning := by
  induction lists with
  | nil => rfl
  | cons list lists ih =>
      rw [List.mapM_cons, List.flatMap_cons, List.mapM_append, ← ih]
      cases (itemsOf list).mapM meaning with
      | error error => rfl
      | ok first => cases lists.mapM fun list => (itemsOf list).mapM meaning <;> rfl

/-- The error of a list is that of one of its items. -/
theorem exists_error_of_mapM {error : δ} (hlist : items.mapM meaning = .error error) :
    ∃ item ∈ items, meaning item = .error error := by
  induction items with
  | nil => cases hlist
  | cons item items ih =>
      rw [List.mapM_cons] at hlist
      cases hfirst : meaning item with
      | error first =>
          rw [hfirst] at hlist
          cases hlist
          exact ⟨item, by simp, hfirst⟩
      | ok outcome =>
          cases hrest : items.mapM meaning with
          | error later =>
              rw [hfirst, hrest] at hlist
              cases hlist
              obtain ⟨found, hmem, hfound⟩ := ih hrest
              exact ⟨found, List.mem_cons_of_mem _ hmem, hfound⟩
          | ok rest => rw [hfirst, hrest] at hlist; cases hlist

/-- Results that are all present, reduced to what is present. -/
theorem mapM_some_reduceOption (meaning : α → Except δ β) (items : List α) :
    (do
      let outcomes ← items.mapM fun item => (meaning item).map some
      return outcomes.reduceOption) = items.mapM meaning := by
  induction items with
  | nil => rfl
  | cons item items ih =>
      rw [List.mapM_cons, List.mapM_cons, ← ih]
      cases meaning item with
      | error error => rfl
      | ok outcome => cases items.mapM fun item => (meaning item).map some <;> rfl

end Results

/-! ## Computations with a pure meaning -/

/-- Visits that fail each at the first item of a list of its own fail together at the first
of all lists. -/
theorem mapM_head? {γ δ : Type u} {visit : α → Except δ β} {failing : α → List γ} {value : α → β}
    {fail : γ → δ} {items : List α} (hvisit : ∀ item ∈ items, visit item =
      (failing item).head?.elim (.ok (value item)) fun first => .error (fail first)) :
    items.mapM visit =
      (items.flatMap failing).head?.elim (.ok (items.map value)) fun first =>
        .error (fail first) := by
  induction items with
  | nil => rfl
  | cons item items ih =>
      rw [List.mapM_cons, hvisit item List.mem_cons_self, ih fun later hlater =>
        hvisit later (List.mem_cons_of_mem _ hlater), List.flatMap_cons, List.head?_append]
      cases (failing item).head? with
      | some first => rfl
      | none =>
          cases (items.flatMap failing).head? with
          | none => rfl
          | some first => rfl

section Follows

variable {δ : Type u} {fail : δ → ε}

/-- A computation follows its meaning: it returns something related to the value of the
meaning, or fails as the error of the meaning says. -/
def Follows (fail : δ → ε) (relate : α → σ → β → Prop) (meaning : Except δ β)
    (result : EStateM.Result ε σ α) : Prop :=
  match meaning with
  | .ok outcome => ∃ value next, result = .ok value next ∧ relate value next outcome
  | .error error => ∃ next, result = .error (fail error) next

theorem Follows.imp {relate other : α → σ → β → Prop} {meaning : Except δ β}
    {result : EStateM.Result ε σ α} (hfollows : Follows fail relate meaning result)
    (himp : ∀ value next outcome, relate value next outcome → other value next outcome) :
    Follows fail other meaning result := by
  cases meaning with
  | ok outcome =>
      obtain ⟨value, next, hresult, hrelate⟩ := hfollows
      exact ⟨value, next, hresult, himp value next outcome hrelate⟩
  | error error => exact hfollows

/-- A sequence follows the sequence of the meanings. -/
theorem Follows.bind {γ ω : Type u} {first : EStateM ε σ α} {rest : α → EStateM ε σ γ} {state : σ}
    {meaning : Except δ β} {further : β → Except δ ω} {relate : α → σ → β → Prop}
    {last : γ → σ → ω → Prop} (hfirst : Follows fail relate meaning (first state))
    (hrest : ∀ value next outcome, relate value next outcome →
      Follows fail last (further outcome) (rest value next)) :
    Follows fail last (meaning >>= further) ((first >>= rest) state) := by
  cases meaning with
  | ok outcome =>
      obtain ⟨value, next, hresult, hrelate⟩ := hfirst
      rw [bind_ok hresult]
      exact hrest value next outcome hrelate
  | error error =>
      obtain ⟨next, hresult⟩ := hfirst
      rw [bind_error hresult]
      exact ⟨next, rfl⟩

/-- A computation on a part follows what it follows on the part. -/
theorem Follows.zoom {view : σ → τ} {put : τ → σ → σ} {action : EStateM ε τ α} {state : σ}
    {meaning : Except δ β} {relate : α → τ → β → Prop} {whole : α → σ → β → Prop}
    (haction : Follows fail relate meaning (action (view state)))
    (hput : ∀ value part outcome, meaning = .ok outcome → relate value part outcome →
      whole value (put part state) outcome) :
    Follows fail whole meaning (zoom view put action state) := by
  cases meaning with
  | ok outcome =>
      obtain ⟨value, part, hresult, hrelate⟩ := haction
      exact ⟨value, _, zoom_ok hresult, hput value part outcome rfl hrelate⟩
  | error error =>
      obtain ⟨part, hresult⟩ := haction
      exact ⟨_, zoom_error hresult⟩

/-- A walk over a list follows the fold of the meanings of its visits. -/
theorem forEach_follows {visit : α → EStateM ε σ PUnit} {meaning : β → α → Except δ β}
    {relate : σ → β → Prop} {items : List α}
    (hvisit : ∀ item ∈ items, ∀ state reached, relate state reached →
      Follows fail (fun _ next outcome => relate next outcome) (meaning reached item)
        (visit item state))
    {state : σ} {reached : β} (hstate : relate state reached) :
    Follows fail (fun _ next outcome => relate next outcome) (items.foldlM meaning reached)
      (forEach visit items state) := by
  induction items generalizing state reached with
  | nil => exact ⟨⟨⟩, state, rfl, hstate⟩
  | cons item items ih =>
      rw [forEach, List.foldlM_cons]
      apply Follows.bind (hvisit item (by simp) state reached hstate)
      intro _ next outcome hnext
      exact ih (fun later hlater => hvisit later (List.mem_cons_of_mem _ hlater)) hnext

/-- Collecting follows the meanings of the visits, each of which may depend on the items
visited before. -/
theorem collect_follows {visit : α → EStateM ε σ β} {meaning : α → Except δ β}
    {relate : List α → σ → Prop} {items done : List α}
    (hvisit : ∀ visited item rest, done ++ items = visited ++ item :: rest →
      ∀ state, relate visited state →
      Follows fail (fun value next outcome => value = outcome ∧ relate (visited ++ [item]) next)
        (meaning item) (visit item state))
    {state : σ} (hstate : relate done state) :
    Follows fail (fun values next outcomes => values = outcomes ∧ relate (done ++ items) next)
      (items.mapM meaning) (collect visit items state) := by
  induction items generalizing done state with
  | nil =>
      rw [List.append_nil]
      exact ⟨[], state, rfl, rfl, hstate⟩
  | cons item items ih =>
      rw [collect, List.mapM_cons]
      apply Follows.bind (hvisit done item items rfl state hstate)
      rintro value next outcome ⟨rfl, hnext⟩
      have hlater : ∀ visited later rest, (done ++ [item]) ++ items = visited ++ later :: rest →
          ∀ state, relate visited state →
          Follows fail (fun value next outcome => value = outcome ∧ relate (visited ++ [later]) next)
            (meaning later) (visit later state) := by
        intro visited later rest hsplit
        apply hvisit visited later rest
        simpa using hsplit
      apply Follows.bind (ih hlater hnext)
      rintro values last outcomes ⟨rfl, hlast⟩
      exact ⟨_, last, rfl, rfl, by simpa using hlast⟩

end Follows

end Fallible
