/-
# Instances known by their hash

The published instances of an entity are kept under their hashes, and an instance replaces
another of the same hash without a look at its path and service. An enumeration therefore
shows each of several objects once exactly when their hashes differ. There are always
objects whose hashes do not: a hash has finitely many values.
-/

import Mathlib.Data.Fintype.EquivFin
import ObmcWebapp.Entities.Outlines

namespace ObmcWebapp.Entities

open ObmcWebapp.Core

/-- The path and the service of an instance. -/
def Instance.object (inst : Instance) : String × String := (inst.objectPath, inst.serviceName)

theorem SameObject.object {first second : Instance} (hsame : SameObject first second) :
    first.object = second.object :=
  Prod.ext hsame.objectPath hsame.serviceName

section Hashes

variable [StdHash]

/-- Every instance of the list is shown exactly once. -/
def ShowsOnce (instances : List DBusInstance) (shown : List Instance) : Prop :=
  ∀ inst ∈ instances, (shown.map Instance.object).count inst.object = 1

theorem instances_setInstances (store : EntityStore) (entity : EntityId)
    (instances : List DBusInstance) :
    ((store.setInstances entity instances).objects entity).instances =
      OrderedMap.index (fun inst => inst.getHash) instances := by
  simp [EntityStore.setInstances, OrderedMap.index, OrderedMap.assignAll]

/-- An instance without children exposes itself. -/
theorem object_exposed {inst : DBusInstance} (hbare : inst.complexInstances = OrderedMap.empty) :
    (exposed inst).map Instance.object = [inst.object] := by
  have hsame := (initDefaultFieldsValue_sameObject inst.toInstance).object
  have helements : exposed inst = [inst.initDefaultFieldsValue.toInstance] := by
    rw [exposed, DBusInstance.elements, DBusInstance.initDefaultFieldsValue, hbare]
    rfl
  rw [helements, List.map_singleton]
  exact congrArg (fun object => [object]) hsame

variable {store : EntityStore} {entity : EntityId} {instances : List DBusInstance}

/-- What is shown after instances without children are published are the objects kept under
the hashes. -/
theorem objects_shown (hbare : ∀ inst ∈ instances, inst.complexInstances = OrderedMap.empty)
    {depth : ℕ} {shown : List Instance} {after : EntityStore}
    (hshown : getInstances depth entity none (store.setInstances entity instances) =
      .ok shown after) :
    shown.map Instance.object =
      (OrderedMap.index (fun inst => inst.getHash) instances).values.map fun inst => inst.object := by
  have hsame : SameOutlines (store.setInstances entity instances)
      (store.setInstances entity instances) := fun _ _ => rfl
  have hshows := getInstances_shows depth entity hsame
  rw [hshown, instances_setInstances] at hshows
  have hobjects : shown.map Instance.object =
      ((OrderedMap.index (fun inst => inst.getHash) instances).values.flatMap exposed).map
        Instance.object := by
    rw [← List.forall₂_eq_eq_eq, List.forall₂_map_left_iff, List.forall₂_map_right_iff]
    exact hshows.1.imp fun _ _ hobject => hobject.object
  have hsingle : ∀ inst ∈ (OrderedMap.index (fun inst => inst.getHash) instances).values,
      (exposed inst).map Instance.object = [inst.object] := fun inst hmem =>
    object_exposed (hbare inst (OrderedMap.mem_of_mem_values_index hmem))
  rw [hobjects, List.map_flatMap, List.flatMap_congr hsingle, ← List.map_eq_flatMap]

section Shown

variable (hobjects : (instances.map fun inst => inst.object).Nodup)
  (hbare : ∀ inst ∈ instances, inst.complexInstances = OrderedMap.empty) {depth : ℕ}
  {shown : List Instance} {after : EntityStore}
  (hshown : getInstances depth entity none (store.setInstances entity instances) = .ok shown after)

include hobjects hbare hshown

/-- Distinct objects that are all shown have distinct hashes. -/
theorem ShowsOnce.distinctHashes (honce : ShowsOnce instances shown) :
    (instances.map fun inst => inst.getHash).Nodup := by
  have hkept := objects_shown hbare hshown
  -- every instance is the one kept under its hash
  have hfound : ∀ inst ∈ instances,
      (OrderedMap.index (fun inst => inst.getHash) instances).find? inst.getHash = some inst := by
    intro inst hmem
    have hobject : inst.object ∈ shown.map Instance.object :=
      List.count_pos_iff.mp (by rw [honce inst hmem]; exact Nat.one_pos)
    rw [hkept] at hobject
    obtain ⟨kept, hvalue, hsame⟩ := List.mem_map.mp hobject
    have hinst : kept = inst := List.inj_on_of_nodup_map hobjects
      (OrderedMap.mem_of_mem_values_index hvalue) hmem hsame
    rw [hinst] at hvalue
    exact OrderedMap.mem_values_index_iff.mp hvalue
  apply List.Nodup.map_on
  · intro first hfirst second hsecond hhash
    have hboth := hfound second hsecond
    rw [← hhash, hfound first hfirst] at hboth
    exact Option.some.inj hboth
  · exact List.Nodup.of_map _ hobjects

/-- Distinct objects with distinct hashes are shown once each. -/
theorem showsOnce_of_distinctHashes
    (hhashes : (instances.map fun inst => inst.getHash).Nodup) : ShowsOnce instances shown := by
  intro inst hmem
  have hperm := (OrderedMap.perm_values_index hhashes).map fun inst => inst.object
  rw [objects_shown hbare hshown, hperm.count_eq]
  exact List.count_eq_one_of_mem hobjects (List.mem_map_of_mem hmem)

end Shown

/-- Without providers the enumeration returns. -/
theorem setInstances_shown (hproviders : (store.objects entity).providers = [])
    (instances : List DBusInstance) :
    ∃ shown after, getInstances 1 entity none (store.setInstances entity instances) = .ok shown after := by
  have hkeep : ((store.setInstances entity instances).objects entity).providers = [] := by
    rw [EntityStore.providers_setInstances, hproviders]
  obtain ⟨after, hreturns⟩ := getInstances_unlinked hkeep 0
  exact ⟨_, after, hreturns⟩

/-- Published instances without children are shown once each exactly when their hashes are
distinct. Without providers the enumeration does return. -/
theorem showsOnce_iff_distinctHashes (hobjects : (instances.map fun inst => inst.object).Nodup)
    (hbare : ∀ inst ∈ instances, inst.complexInstances = OrderedMap.empty) :
    (∀ depth shown after,
      getInstances depth entity none (store.setInstances entity instances) = .ok shown after →
      (ShowsOnce instances shown ↔ (instances.map fun inst => inst.getHash).Nodup)) ∧
    ((store.objects entity).providers = [] → ∃ shown after,
      getInstances 1 entity none (store.setInstances entity instances) = .ok shown after) := by
  constructor
  · intro depth shown after hshown
    constructor
    · exact fun honce => honce.distinctHashes hobjects hbare hshown
    · exact fun hhashes => showsOnce_of_distinctHashes hobjects hbare hshown hhashes
  · exact fun hproviders => setInstances_shown hproviders instances

/-- Whatever the hash, two objects of one service have the same. -/
theorem exists_collision (service : String) :
    ∃ first second : String, first ≠ second ∧ objectHash service first = objectHash service second := by
  let path : ℕ → String := fun length => String.ofList (List.replicate length '/')
  obtain ⟨first, second, hne, hhash⟩ :=
    Finite.exists_ne_map_eq_of_infinite fun length => (StdHash.hash (path length)).toFin
  refine ⟨path first, path second, ?_, ?_⟩
  · intro hsame
    have hlength := congrArg String.length hsame
    exact hne (by simpa [path] using hlength)
  · rw [objectHash, objectHash, BitVec.toFin_inj.mp hhash]

end Hashes

/-- The polynomial hash in the base 31, in words of 64 bits. -/
@[reducible]
def polynomialHash : StdHash where
  width := 64
  hash text := text.toList.foldl (fun hash letter => hash * 31 + BitVec.ofNat 64 letter.toNat) 0

/-- An object without fields or children. -/
def bareInstance (objectPath : String) : DBusInstance where
  serviceName := "svc"
  objectPath := objectPath
  dbusQuery := ⟨OrderedMap.empty, OrderedMap.empty, OrderedMap.empty⟩
  memberInstances := OrderedMap.empty
  complexInstances := OrderedMap.empty

/-- Entities without members, instances and providers. -/
def bareStore : EntityStore where
  objects _ := ⟨"Sensors", OrderedMap.empty, OrderedMap.empty, [], named_empty⟩
  notAvailable := .notAvailable

/-- Two sensors with distinct hashes are both shown. -/
theorem showsOnce_iff_distinctHashes_pair :
    ∃ (_ : StdHash) (shown : List Instance) (after : EntityStore),
      getInstances 1 0 none (bareStore.setInstances 0 [bareInstance "/s", bareInstance "/fan"]) =
        .ok shown after ∧
      ShowsOnce [bareInstance "/s", bareInstance "/fan"] shown := by
  let hash : StdHash := polynomialHash
  let instances := [bareInstance "/s", bareInstance "/fan"]
  have hobjects : (instances.map fun inst => inst.object).Nodup := by decide
  have hbare : ∀ inst ∈ instances, inst.complexInstances = OrderedMap.empty := by
    simp [instances, bareInstance]
  obtain ⟨hiff, hreturns⟩ := @showsOnce_iff_distinctHashes _ bareStore 0 instances hobjects hbare
  obtain ⟨shown, after, hshown⟩ := hreturns rfl
  exact ⟨hash, shown, after, hshown, (hiff 1 shown after hshown).mpr (by decide)⟩

/-- There is no hash with which all distinct objects are shown. -/
theorem no_hash_shows_all :
    ¬ ∃ _ : StdHash, ∀ (store : EntityStore) (entity : EntityId) (instances : List DBusInstance),
      (instances.map fun inst => inst.object).Nodup →
      (∀ inst ∈ instances, inst.complexInstances = OrderedMap.empty) →
      ∀ depth shown after,
        getInstances depth entity none (store.setInstances entity instances) = .ok shown after →
        ShowsOnce instances shown := by
  rintro ⟨hash, hclaim⟩
  obtain ⟨first, second, hne, hcollide⟩ := exists_collision "svc"
  let instances := [bareInstance first, bareInstance second]
  have hobjects : (instances.map fun inst => inst.object).Nodup := by
    simpa [instances, bareInstance, Instance.object] using hne
  have hbare : ∀ inst ∈ instances, inst.complexInstances = OrderedMap.empty := by
    simp [instances, bareInstance]
  have hproviders : (bareStore.objects 0).providers = [] := rfl
  obtain ⟨shown, after, hshown⟩ := setInstances_shown hproviders instances
  have honce := hclaim bareStore 0 instances hobjects hbare 1 shown after hshown
  have hhashes := honce.distinctHashes hobjects hbare hshown
  have hdiffer : objectHash "svc" first ≠ objectHash "svc" second := by
    simpa [instances, bareInstance, Instance.getHash] using hhashes
  exact hdiffer hcollide

end ObmcWebapp.Entities
