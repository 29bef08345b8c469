/-
# How enumerations end

An enumeration writes back the instances it visits and, through the rules, the field
object of absent members. Whatever these two writes preserve, every enumeration
preserves, however deep it nests and also when it fails. It fails as a rule or the
enumeration of a provider does.
-/

import ObmcWebapp.Entities.Manager

namespace ObmcWebapp.Entities

open ObmcWebapp.Core

section Ends

variable {holds : EntityStore → Prop} {fails : Failure → EntityStore → Prop}

/-- What holds when a computation on a part of the store ends. -/
abbrev StoreEnds {σ α : Type} (view : σ → EntityStore) (holds : EntityStore → Prop)
    (fails : Failure → EntityStore → Prop) : EStateM.Result Failure σ α → Prop :=
  Fallible.Ends (fun _ after => holds (view after)) fun failure after => fails failure (view after)

/-- A rule that fails ends the enumeration as it does, and writes the field object of absent
members at most. -/
theorem applyRule_ends (rule : ProviderLinkRule) (supplementing : Instance) (state : Supplementing)
    (hreturns : ∀ value link, rule supplementing state.toLink = .ok value link →
      holds { state.store with notAvailable := link.notAvailable })
    (hfails : ∀ failed link, rule supplementing state.toLink = .error failed link →
      fails failed.failure { state.store with notAvailable := link.notAvailable }) :
    StoreEnds Supplementing.store holds fails
      (Supplementing.applyRule rule supplementing state) := by
  unfold Supplementing.applyRule
  cases hresult : rule supplementing state.toLink with
  | ok value link => exact hreturns value link hresult
  | error failed link => exact hfails failed link hresult

/-- Supplementing an element ends as the enumerations of the providers and the rules do. -/
theorem supplementAll_ends {enumerate : EntityId → EStateM Failure EntityStore (List Instance)}
    {providers : List (EntityId × ProviderLinkRule)}
    (henumerate : ∀ provider ∈ providers, ∀ store, holds store →
      StoreEnds id holds fails (enumerate provider.1 store))
    (hrule : ∀ provider ∈ providers, ∀ (supplementing : Instance) (state : Supplementing),
      holds state.store → StoreEnds Supplementing.store holds fails
        (Supplementing.applyRule provider.2 supplementing state))
    {state : Supplementing} (hstate : holds state.store) :
    StoreEnds Supplementing.store holds fails
      (Supplementing.supplementAll enumerate providers state) := by
  have hprovider : ∀ provider ∈ providers, ∀ state : Supplementing, holds state.store →
      StoreEnds Supplementing.store holds fails
        (Supplementing.supplementInstance (enumerate provider.1) provider.2 state) := by
    intro provider hmem state hstate
    have henumerated : StoreEnds Supplementing.store holds fails
        (Fallible.zoom Supplementing.store (fun store state => { state with store := store })
          (enumerate provider.1) state) :=
      Fallible.Ends.zoom (henumerate provider hmem state.store hstate) (fun _ _ hnext => hnext)
        fun _ _ hfailed => hfailed
    apply Fallible.Ends.bind henumerated
    exact fun instances next hnext =>
      Fallible.forEach_ends (fun supplementing _ => hrule provider hmem supplementing) hnext
  exact Fallible.forEach_ends hprovider hstate

variable [StdHash]

/-- Visiting an element ends as supplementing it does. -/
theorem visitElement_ends {enumerate : EntityId → EStateM Failure EntityStore (List Instance)}
    {providers : List (EntityId × ProviderLinkRule)} (condition : Option Condition)
    (element : ℕ × Instance) {state : Visiting}
    (hsupplement : StoreEnds Supplementing.store holds fails
      (Supplementing.supplementAll enumerate providers ⟨state.store, element.2⟩)) :
    StoreEnds Visiting.store holds fails
      (Visiting.visitElement enumerate providers condition element state) := by
  unfold Visiting.visitElement
  cases hresult : Supplementing.supplementAll enumerate providers ⟨state.store, element.2⟩ with
  | ok value supplemented =>
      rw [hresult] at hsupplement
      exact hsupplement
  | error failure supplemented =>
      rw [hresult] at hsupplement
      exact hsupplement

/-- Visiting a published instance ends as visiting its elements does, and writes it back. -/
theorem visitInstance_ends {enumerate : EntityId → EStateM Failure EntityStore (List Instance)}
    {providers : List (EntityId × ProviderLinkRule)} {condition : Option Condition}
    {entity : EntityId} {stored : ℕ × DBusInstance} {store : EntityStore}
    (hwalk : StoreEnds Visiting.store holds fails
      (Fallible.collect (Visiting.visitElement enumerate providers condition)
        stored.2.initDefaultFieldsValue.elements.entries ⟨store, stored.2.initDefaultFieldsValue⟩))
    (hput : ∀ state inst, holds state → holds (state.putInstance entity stored.1 inst))
    (hputFails : ∀ failure state inst, fails failure state →
      fails failure (state.putInstance entity stored.1 inst)) :
    StoreEnds id holds fails
      (Visiting.visitInstance enumerate providers condition entity stored store) := by
  have hshown : ∀ (visited : List (Option Instance)) (next : Visiting), holds next.store →
      StoreEnds Visiting.store holds fails
        ((pure visited.reduceOption : EStateM Failure Visiting (List Instance)) next) :=
    fun _ _ hnext => hnext
  unfold Visiting.visitInstance
  apply Fallible.Ends.zoom
  · exact Fallible.Ends.bind hwalk hshown
  · exact fun _ visited hvisited => hput visited.store visited.inst hvisited
  · exact fun failure visited hfailed => hputFails failure visited.store visited.inst hfailed

/-- An enumeration ends as the enumerations of its providers and their rules do. -/
theorem getInstances_ends {depth : ℕ} {entity : EntityId} (condition : Option Condition)
    {store : EntityStore}
    (henumerate : ∀ provider ∈ (store.objects entity).providers, ∀ state, holds state →
      StoreEnds id holds fails (getInstances depth provider.1 none state))
    (hrule : ∀ provider ∈ (store.objects entity).providers, ∀ (supplementing : Instance)
      (state : Supplementing), holds state.store → StoreEnds Supplementing.store holds fails
        (Supplementing.applyRule provider.2 supplementing state))
    (hput : ∀ state hash inst, holds state → holds (state.putInstance entity hash inst))
    (hputFails : ∀ failure state hash inst, fails failure state →
      fails failure (state.putInstance entity hash inst))
    (hstore : holds store) :
    StoreEnds id holds fails (getInstances (depth + 1) entity condition store) := by
  have helement : ∀ (element : ℕ × Instance) (state : Visiting), holds state.store →
      StoreEnds Visiting.store holds fails
        (Visiting.visitElement (fun provider => getInstances depth provider none)
          (store.objects entity).providers condition element state) :=
    fun element state hstate => visitElement_ends condition element
      (supplementAll_ends henumerate hrule
        (show holds (⟨state.store, element.2⟩ : Supplementing).store from hstate))
  have hvisit : ∀ stored ∈ (store.objects entity).instances.entries, ∀ state, holds state →
      StoreEnds id holds fails
        (Visiting.visitInstance (fun provider => getInstances depth provider none)
          (store.objects entity).providers condition entity stored state) := by
    intro stored _ state hstate
    apply visitInstance_ends
    · exact Fallible.collect_keeps (fun element _ => helement element)
        (show holds (⟨state, stored.2.initDefaultFieldsValue⟩ : Visiting).store from hstate)
    · exact fun state => hput state stored.1
    · exact fun failure state => hputFails failure state stored.1
  rw [getInstances_succ]
  apply Fallible.Ends.bind (Fallible.collect_keeps hvisit hstore)
  exact fun _ _ hlast => hlast

end Ends

/-- What the writes of an enumeration preserve, when all linked rules are of a kind. -/
structure Undisturbed (kind : ProviderLinkRule → Prop) (holds : EntityStore → Prop) : Prop where
  linked : ∀ {store}, holds store → ∀ entity, ∀ provider ∈ (store.objects entity).providers,
    kind provider.2
  putInstance : ∀ {store}, holds store → ∀ entity hash inst,
    holds (store.putInstance entity hash inst)
  rule : ∀ {store}, holds store → ∀ rule, kind rule → ∀ supplementing target,
    Fallible.Leaves (fun link : LinkState => holds { store with notAvailable := link.notAvailable })
      (rule supplementing ⟨target, store.notAvailable⟩)

namespace Undisturbed

variable {kind : ProviderLinkRule → Prop} {holds : EntityStore → Prop}
  (hundisturbed : Undisturbed kind holds)

include hundisturbed

/-- The frame rule of enumerations. -/
theorem getInstances [StdHash] (depth : ℕ) (entity : EntityId) (condition : Option Condition)
    {store : EntityStore} (hstore : holds store) :
    Fallible.Leaves holds (Entities.getInstances depth entity condition store) := by
  induction depth generalizing entity condition store with
  | zero => exact hstore
  | succ depth ih =>
      simp only [Fallible.leaves_iff_ends] at ih ⊢
      apply getInstances_ends condition
      · exact fun provider _ state hstate => ih provider.1 none hstate
      · intro provider hprovider supplementing state hstate
        have hleaves := hundisturbed.rule hstate provider.2
          (hundisturbed.linked hstore entity provider hprovider) supplementing state.element
        apply applyRule_ends
        · intro value link hresult
          rw [← Supplementing.toLink, hresult] at hleaves
          exact hleaves
        · intro failed link hresult
          rw [← Supplementing.toLink, hresult] at hleaves
          exact hleaves
      · exact fun state hash inst hstate => hundisturbed.putInstance hstate entity hash inst
      · exact fun _ state hash inst hstate => hundisturbed.putInstance hstate entity hash inst
      · exact hstore

end Undisturbed

/-- An enumeration keeps the members and the providers of every entity. -/
theorem getInstances_registry [StdHash] (depth : ℕ) (entity : EntityId)
    (condition : Option Condition) (store : EntityStore) :
    Fallible.Leaves (fun after : EntityStore => ∀ other,
      (after.objects other).members = (store.objects other).members ∧
      (after.objects other).providers = (store.objects other).providers)
      (getInstances depth entity condition store) := by
  have hundisturbed : Undisturbed (fun _ => True) fun after : EntityStore => ∀ other,
      (after.objects other).members = (store.objects other).members ∧
      (after.objects other).providers = (store.objects other).providers := by
    constructor
    · exact fun _ _ _ _ => trivial
    · intro after hafter entity hash inst other
      simpa using hafter other
    · intro after hafter rule _ supplementing target
      cases rule supplementing ⟨target, after.notAvailable⟩ with
      | ok value link => exact fun other => hafter other
      | error failed link => exact fun other => hafter other
  exact hundisturbed.getInstances depth entity condition fun other => ⟨rfl, rfl⟩

end ObmcWebapp.Entities
