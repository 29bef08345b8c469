/-
# What a request leaves for the next one

Every enumeration writes: it resets published instances, and the link rules write versions
into them. What a request sees of a store is nevertheless the same before and after. An
enumeration that returns leaves a settled store; one that fails has only reset what it
came to, since the rule that failed writes nothing.
-/

import ObmcWebapp.Application.Requests
import ObmcWebapp.Entities.Interrupted

namespace ObmcWebapp.Application

open ObmcWebapp.Core ObmcWebapp.Entities ObmcWebapp.Graphql

variable [StdHash]

/-- The published instances of an entity expose the same. -/
def ExposeAlike (store reference : EntityStore) (entity : EntityId) : Prop :=
  ∀ hash, ((store.objects entity).instances.find? hash).map exposed =
    ((reference.objects entity).instances.find? hash).map exposed

theorem ExposeAlike.map_exposed {store reference : EntityStore} {entity : EntityId}
    (halike : ExposeAlike store reference entity) :
    (store.objects entity).instances.values.map exposed =
      (reference.objects entity).instances.values.map exposed := by
  have hmap : (store.objects entity).instances.mapValue (fun _ => exposed) =
      (reference.objects entity).instances.mapValue fun _ => exposed := by
    ext1 hash
    rw [OrderedMap.find?_mapValue, OrderedMap.find?_mapValue, halike hash]
  rw [← OrderedMap.values_mapValue, hmap, OrderedMap.values_mapValue]

theorem ExposeAlike.exposures {store reference : EntityStore} {entity : EntityId}
    (halike : ExposeAlike store reference entity) :
    exposures store entity = exposures reference entity := by
  rw [Entities.exposures, Entities.exposures, List.flatMap_def, List.flatMap_def,
    halike.map_exposed]

theorem ExposeAlike.viewOf {store reference : EntityStore} {entity : EntityId}
    {shows showsReference : EntityId → List Instance}
    (halike : ExposeAlike store reference entity)
    (hlinks : linksOf store shows entity = linksOf reference showsReference entity) :
    viewOf store shows entity = viewOf reference showsReference entity := by
  have hmapM : ∀ instances : List DBusInstance,
      instances.mapM (shownWith (linksOf reference showsReference entity)) =
        (instances.map exposed).mapM fun elements =>
          elements.mapM (linkAll (linksOf reference showsReference entity)) := by
    intro instances
    rw [List.mapM_map]
    rfl
  rw [Entities.viewOf, Entities.viewOf, hlinks, hmapM, hmapM, halike.map_exposed]

/-- Configured stores link the same when the providers expose the same. -/
theorem linksOf_eq {store reference : EntityStore} (hconfigured : Configured store)
    (hreference : Configured reference) {entity : EntityId}
    (halike : ∀ provider ∈ (reference.objects entity).providers,
      ExposeAlike store reference provider.1) :
    linksOf store (exposures store) entity = linksOf reference (exposures reference) entity := by
  rw [linksOf, linksOf, hconfigured.providers, ← hreference.providers, List.flatMap_def,
    List.flatMap_def]
  congr 1
  apply List.map_congr_left
  intro provider hmem
  rw [(halike provider hmem).exposures]

/-- What a request sees depends on what the entities show. -/
theorem requestSnapshot_eq {store reference : EntityStore} (hconfigured : Configured store)
    (hreference : Configured reference)
    (hview : ∀ entity, (viewOf store (exposures store) entity).toOption =
      (viewOf reference (exposures reference) entity).toOption) :
    requestSnapshot store = requestSnapshot reference := by
  have hmembers : ∀ entity, (store.objects entity).members = (reference.objects entity).members :=
    fun entity => (hconfigured.members entity).trans (hreference.members entity).symm
  simp only [requestSnapshot, Snapshot.mk.injEq, true_and]
  refine ⟨funext hmembers, funext fun entity => ?_, funext fun entity => ?_⟩
  all_goals
    have hentity := hview entity
    cases hfirst : viewOf store (exposures store) entity <;>
      cases hsecond : viewOf reference (exposures reference) entity <;>
        simp_all [Except.toOption]

/-- A settled store shows what its origin does. -/
theorem requestSnapshot_of_settled {store after : EntityStore} (hconfigured : Configured store)
    (hafter : Configured after) (hsettled : (linkage hconfigured).Settled after) :
    requestSnapshot after = requestSnapshot store := by
  have hproviders : ∀ entity, ∀ provider ∈ (store.objects entity).providers,
      ExposeAlike after store provider.1 := by
    intro entity provider hmem hash
    have hlinks : (linkage hconfigured).links provider.1 = [] := by
      rw [Linkage.links, linksOf, providers_unlinked hconfigured hmem]
      rfl
    have hinstances := hsettled.instances provider.1 hash
    rw [hlinks, funext shownWith_nil] at hinstances
    cases hheld : (after.objects provider.1).instances.find? hash <;>
      cases hfound : (store.objects provider.1).instances.find? hash <;>
        simp_all
  apply requestSnapshot_eq hafter hconfigured
  intro entity
  have hlinks := linksOf_eq hafter hconfigured (hproviders entity)
  congr 1
  rw [viewOf, hlinks]
  exact congrArg (Except.map List.flatten) (hsettled.mapM_shownWith entity)

/-- A store that exposes what its origin does. -/
structure Spared (origin store : EntityStore) : Prop where
  configured : Configured store
  exposed : ∀ entity, ExposeAlike store origin entity

variable {origin store : EntityStore}

theorem Spared.refl (hconfigured : Configured store) : Spared store store where
  configured := hconfigured
  exposed _ _ := rfl

omit [StdHash] in
/-- What a reset leaves of each entity. -/
theorem objects_resetInstances (store : EntityStore) (entity other : EntityId) :
    (store.resetInstances entity).objects other = if other = entity then
      { store.objects entity with
        instances := (store.objects entity).instances.mapValue
          fun _ => DBusInstance.initDefaultFieldsValue }
      else store.objects other := by
  by_cases hother : other = entity
  · rw [if_pos hother, hother]
    exact Function.update_self _ _ _
  · rw [if_neg hother]
    exact Function.update_of_ne hother _ _

/-- A second reset shows nothing new. -/
theorem exposed_initDefaultFieldsValue (inst : DBusInstance) :
    exposed inst.initDefaultFieldsValue = exposed inst := by
  have hagain : inst.initDefaultFieldsValue.initDefaultFieldsValue =
      inst.initDefaultFieldsValue := by
    rw [DBusInstance.initDefaultFieldsValue, DBusInstance.initDefaultFieldsValue,
      initDefaultFieldsValue_again]
  rw [exposed, exposed, hagain]

/-- The enumeration of the statuses resets them. -/
theorem Spared.statuses (depth : ℕ) :
    Fallible.Preserves (Spared origin) (getInstances (depth + 1) statusProvider none) := by
  intro store hspared
  have hunlinked : (store.objects statusProvider).providers = [] :=
    hspared.configured.providers statusProvider
  rw [getInstances_reset hunlinked]
  constructor
  · exact hspared.configured.withInstances statusProvider _
  · intro entity hash
    rw [← hspared.exposed entity hash, objects_resetInstances]
    by_cases hstatus : entity = statusProvider
    · rw [if_pos hstatus, OrderedMap.find?_mapValue, Option.map_map, hstatus]
      exact congrArg (Option.map · _) (funext exposed_initDefaultFieldsValue)
    · rw [if_neg hstatus]

/-- A visited instance is written back as its reset left it. -/
theorem Spared.putInstance (hspared : Spared origin store) {entity : EntityId}
    {stored : ℕ × DBusInstance} (hstored : stored ∈ (origin.objects entity).instances.entries) :
    Spared origin (store.putInstance entity stored.1 stored.2.initDefaultFieldsValue) := by
  constructor
  · exact hspared.configured.withInstances entity _
  · intro other hash
    by_cases hother : other = entity
    · subst hother
      rw [EntityStore.instances_putInstance, OrderedMap.find?_insertOrAssign]
      by_cases hvisited : hash = stored.1
      · rw [if_pos hvisited, hvisited, OrderedMap.mem_entries_iff.mp hstored]
        exact congrArg some (exposed_initDefaultFieldsValue stored.2)
      · rw [if_neg hvisited]
        exact hspared.exposed other hash
    · rw [store.objects_putInstance_of_ne entity other stored.1 _ hother]
      exact hspared.exposed other hash

/-- An enumeration of the sensors resets what it comes to. -/
theorem spared_getInstances (hconfigured : Configured store) (depth : ℕ) :
    Fallible.Leaves (Spared store) (getInstances (depth + 2) sensorsEntity none store) := by
  have hproviders : (store.objects sensorsEntity).providers =
      [(statusProvider, Sensors.linkStatus)] := hconfigured.providers sensorsEntity
  rw [getInstances_succ, hproviders]
  apply Fallible.Leaves.bind
  · apply Fallible.collect_preserves _ (Spared.refl hconfigured)
    intro stored hmem
    exact visitInstance_writesNothing Sensors.linkStatus_leaves (Spared.statuses depth)
      sensorsEntity stored fun hspared => hspared.putInstance hmem
  · exact fun visited next hnext => hnext

/-- What shows the same is seen the same. -/
theorem requestSnapshot_of_spared {after : EntityStore} (hconfigured : Configured store)
    (hspared : Spared store after) : requestSnapshot after = requestSnapshot store := by
  apply requestSnapshot_eq hspared.configured hconfigured
  intro entity
  congr 1
  apply (hspared.exposed entity).viewOf
  exact linksOf_eq hspared.configured hconfigured fun provider _ => hspared.exposed provider.1

/-- However far an enumeration comes, what a request sees is what it was. -/
theorem requestSnapshot_getInstances (depth : ℕ) (entity : EntityId)
    (hconfigured : Configured store) :
    Fallible.Leaves (fun after => Configured after ∧
        requestSnapshot after = requestSnapshot store)
      (getInstances (depth + 2) entity none store) := by
  have hfollows := Linkage.getInstances_follows (depth + 2) (rank_lt hconfigured depth entity)
    (Linkage.settled_origin (linkage hconfigured))
  have hkept := configured_undisturbed.getInstances (depth + 2) entity none hconfigured
  cases hview : (linkage hconfigured).view entity with
  | ok shown =>
      rw [hview] at hfollows
      obtain ⟨_, after, hresult, -, hsettled⟩ := hfollows
      rw [hresult] at hkept ⊢
      exact ⟨hkept, requestSnapshot_of_settled hconfigured hkept hsettled⟩
  | error failed =>
      -- only the sensors have no view
      have hraises : (requestSnapshot store).raises entity = true := by
        have hmissing : viewOf store (exposures store) entity = .error failed := hview
        simp only [requestSnapshot, hmissing]
      obtain ⟨rfl, -⟩ := (raises_iff hconfigured entity).mp hraises
      apply (spared_getInstances hconfigured depth).imp
      exact fun after hspared =>
        ⟨hspared.configured, requestSnapshot_of_spared hconfigured hspared⟩

end ObmcWebapp.Application
