/-
# Enumerations that fail

A status instance that concerns a sensor ends the enumeration of the sensors in the
middle. Nothing has to be repaired then: a rule that writes nothing leaves every element
it is applied to, so an instance that was visited, or at which the visit stopped, is left
as its reset left it.
-/

import ObmcWebapp.Entities.SensorLinks

namespace ObmcWebapp.Entities

open ObmcWebapp.Core

/-- A rule that writes neither its target nor the field object of absent members. -/
def WritesNothing (rule : ProviderLinkRule) : Prop :=
  ∀ supplementing link, Fallible.Leaves (fun left => left = link) (rule supplementing link)

section Walk

variable {enumerate : EntityId → EStateM Failure EntityStore (List Instance)}
  {provider : EntityId} {rule : ProviderLinkRule} {holds : EntityStore → Prop}
  (hrule : WritesNothing rule) (henumerate : Fallible.Preserves holds (enumerate provider))

include hrule

theorem applyRule_writesNothing (supplementing : Instance) (state : Supplementing) :
    Fallible.Leaves (fun left => left = state) (Supplementing.applyRule rule supplementing state) := by
  have hleaves := hrule supplementing state.toLink
  unfold Supplementing.applyRule
  cases hresult : rule supplementing state.toLink with
  | ok value link =>
      rw [hresult] at hleaves
      have hlink : link = state.toLink := hleaves
      rw [hlink]
      rfl
  | error failed link =>
      rw [hresult] at hleaves
      have hlink : link = state.toLink := hleaves
      rw [hlink]
      rfl

include henumerate

theorem supplementAll_writesNothing {state : Supplementing} (hstate : holds state.store) :
    Fallible.Leaves (fun after : Supplementing => holds after.store ∧ after.element = state.element)
      (Supplementing.supplementAll enumerate [(provider, rule)] state) := by
  have hprovider : ∀ linked ∈ [(provider, rule)], ∀ next : Supplementing,
      holds next.store ∧ next.element = state.element →
      Fallible.Leaves (fun after : Supplementing =>
          holds after.store ∧ after.element = state.element)
        (Supplementing.supplementInstance (enumerate linked.1) linked.2 next) := by
    rintro linked hlinked next ⟨hstore, helement⟩
    cases List.mem_singleton.mp hlinked
    apply Fallible.Leaves.bind
    · exact (henumerate next.store hstore).zoom fun after hafter => ⟨hafter, helement⟩
    · intro instances last hlast
      have happly : ∀ supplementing ∈ instances, ∀ reached : Supplementing,
          holds reached.store ∧ reached.element = state.element →
          Fallible.Leaves (fun after : Supplementing =>
              holds after.store ∧ after.element = state.element)
            (Supplementing.applyRule rule supplementing reached) := by
        intro supplementing _ reached hreached
        apply (applyRule_writesNothing hrule supplementing reached).imp
        rintro left rfl
        exact hreached
      exact Fallible.forEach_preserves happly hlast
  exact Fallible.forEach_preserves hprovider ⟨hstate, rfl⟩

variable [StdHash]

/-- A visited instance is written back as its reset left it, also when the visit fails. -/
theorem visitInstance_writesNothing (entity : EntityId) (stored : ℕ × DBusInstance)
    (hput : ∀ {store}, holds store →
      holds (store.putInstance entity stored.1 stored.2.initDefaultFieldsValue)) :
    Fallible.Preserves holds
      (Visiting.visitInstance enumerate [(provider, rule)] none entity stored) := by
  intro store hstore
  obtain ⟨start, hstart⟩ : ∃ start, stored.2.initDefaultFieldsValue = start := ⟨_, rfl⟩
  rw [hstart] at hput
  have hvisit : ∀ element ∈ start.elements.entries, ∀ state : Visiting,
      holds state.store ∧ state.inst = start →
      Fallible.Leaves (fun after : Visiting => holds after.store ∧ after.inst = start)
        (Visiting.visitElement enumerate [(provider, rule)] none element state) := by
    rintro element hmem state ⟨hstate, rfl⟩
    have hsupplement := supplementAll_writesNothing hrule henumerate
      (show holds (⟨state.store, element.2⟩ : Supplementing).store from hstate)
    have hback : ∀ supplemented : Supplementing, supplemented.element = element.2 →
        (state.putElement element.1 supplemented).inst = state.inst := by
      intro supplemented helement
      have hsame := congrArg Visiting.inst (putElement_same (OrderedMap.mem_entries_iff.mp hmem))
      rw [← helement] at hsame
      exact hsame
    unfold Visiting.visitElement
    cases hresult : Supplementing.supplementAll enumerate [(provider, rule)]
        ⟨state.store, element.2⟩ with
    | ok value supplemented =>
        rw [hresult] at hsupplement
        exact ⟨hsupplement.1, hback supplemented hsupplement.2⟩
    | error failure supplemented =>
        rw [hresult] at hsupplement
        exact ⟨hsupplement.1, hback supplemented hsupplement.2⟩
  unfold Visiting.visitInstance
  rw [hstart]
  apply Fallible.Leaves.zoom
  · apply Fallible.Leaves.bind
    · exact Fallible.collect_preserves hvisit ⟨hstore, rfl⟩
    · exact fun visited next hnext => hnext
  · exact fun next hnext => hnext.2 ▸ hput hnext.1

end Walk

end ObmcWebapp.Entities
