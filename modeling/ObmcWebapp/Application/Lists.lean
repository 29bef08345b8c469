/-
# Lists of the application's entities

A delivered list shows nothing, so its elements are exposed exactly when the store holds
them without it: as the field of a published object, or of a child under a hash of its own,
after the defaults and the provider rules. The endpoints of an association object are
therefore exposed only when another object has them as a single value.
-/

import ObmcWebapp.Application.Requests
import ObmcWebapp.Entities.ListProperties

namespace ObmcWebapp.Application

open ObmcWebapp.Core ObmcWebapp.Entities definitions

section Lists

variable [StdHash]

/-- A configured store exposes what its published objects hold. -/
theorem exposes_iff_held {store : EntityStore} (hconfigured : Configured store) (depth : ℕ)
    (entity : EntityId) (member : MemberName) (value : FieldType) :
    Exposes (depth + 1) store entity member value ↔ Held store entity member value := by
  have hrank := rank_lt hconfigured depth entity
  exact Entities.exposes_iff_held (linkage hconfigured) rfl (Nat.lt_succ_iff.mp hrank) member value

/-- After the delivery of a list every element is exposed, and nothing of an earlier list
that is not in this one, exactly when the store holds them so without the list. -/
theorem lists_exposed_iff {store : EntityStore} (hconfigured : Configured store)
    {entity : EntityId} {interface : InterfaceName} {member : MemberName}
    {properties : DBusPropertiesMap} {values : List FieldType} {inst others : DBusInstance}
    (delivery : ListDelivery inst.dbusQuery interface member properties values)
    (hothers : DBusInstance.fillMembers interface delivery.others inst = .ok ⟨⟩ others)
    (depth hash : ℕ) (earlier : List FieldType) :
    ∃ after, DBusInstance.fillMembers interface properties inst = .ok ⟨⟩ after ∧
      (Lists (Exposes (depth + 1) (store.putInstance entity hash after) entity member)
          values earlier ↔
        Lists (Held (store.putInstance entity hash others) entity member) values earlier) := by
  obtain ⟨after, hafter, hexposes⟩ := exposes_delivered delivery hothers (depth + 1) hash
  have hheld : Exposes (depth + 1) (store.putInstance entity hash others) entity member =
      Held (store.putInstance entity hash others) entity member :=
    funext fun value => propext
      (exposes_iff_held (hconfigured.withInstances entity _) depth entity member value)
  exact ⟨after, hafter, by rw [hexposes, hheld]⟩

end Lists

/-- An association object with a single endpoint. -/
def singleObject : DBusInstance :=
  let created := DBusInstance.create Relation.serviceName "/single" Relation.query
  { created with
    memberInstances := created.memberInstances.insertOrAssign relations.fieldEndpoint
      (.string "/a") }

/-- The map at start, with that object published. -/
def singleStore : EntityStore := initEntityMap.putInstance relationsEntity 1 singleObject

theorem configured_singleStore : Configured singleStore :=
  configured_initEntityMap.withInstances relationsEntity _

/-- Endpoints that are held: those of the single object. -/
theorem held_singleStore [StdHash] (value : FieldType) :
    Held (singleStore.putInstance relationsEntity 0 relationObject) relationsEntity
      relations.fieldEndpoint value ↔ value = .string "/a" := by
  have hexposures : exposures (singleStore.putInstance relationsEntity 0 relationObject)
      relationsEntity = [relationObject.toInstance, singleObject.toInstance] := rfl
  have hlinks : linksOf (singleStore.putInstance relationsEntity 0 relationObject)
      (exposures (singleStore.putInstance relationsEntity 0 relationObject)) relationsEntity =
        [] := rfl
  have hnone : relationObject.memberInstances.find? relations.fieldEndpoint = none := by decide
  have hsingle : singleObject.memberInstances.find? relations.fieldEndpoint =
      some (.string "/a") := by decide
  have hlink : ∀ target, linkAll [] target = .ok target := fun _ => rfl
  simp [Held, hexposures, hlinks, hlink, hnone, hsingle, eq_comm]

/-- The delivered endpoint of one object is exposed, because another object has it. -/
theorem lists_exposed_iff_single :
    ∃ (_ : StdHash) (after : DBusInstance),
      DBusInstance.fillMembers Relation.interfaceName (endpoints ["/a"]) relationObject =
        .ok ⟨⟩ after ∧
      Lists (Exposes 1 (singleStore.putInstance relationsEntity 0 after) relationsEntity
        relations.fieldEndpoint) [.string "/a"] [.string "/b"] := by
  let hash : StdHash := ⟨64, fun _ => 0⟩
  obtain ⟨after, hafter, hiff⟩ := lists_exposed_iff configured_singleStore
    (endpointsDelivery ["/a"]) (fillMembers_endpointsOthers ["/a"]) 0 0 [.string "/b"]
  refine ⟨hash, after, hafter, hiff.mpr ⟨?_, ?_⟩⟩
  · intro value hmem
    exact (held_singleStore value).mpr (List.mem_singleton.mp hmem)
  · intro value hmem _ hheld
    rw [List.mem_singleton.mp hmem, held_singleStore] at hheld
    exact absurd hheld (by decide)

/-- The one endpoint of an association object is not exposed. -/
theorem endpoint_not_exposed :
    ∃ (_ : StdHash) (after : DBusInstance),
      DBusInstance.fillMembers Relation.interfaceName (endpoints ["/a"]) relationObject =
        .ok ⟨⟩ after ∧
      ¬ Exposes 1 (initEntityMap.putInstance relationsEntity 0 after) relationsEntity
        relations.fieldEndpoint (.string "/a") := by
  let hash : StdHash := ⟨64, fun _ => 0⟩
  obtain ⟨after, hafter, hexposes⟩ : ∃ after, DBusInstance.fillMembers Relation.interfaceName
      (endpoints ["/a"]) relationObject = .ok ⟨⟩ after ∧
      Exposes 1 (initEntityMap.putInstance relationsEntity 0 after) relationsEntity
          relations.fieldEndpoint =
        Exposes 1 (initEntityMap.putInstance relationsEntity 0 relationObject) relationsEntity
          relations.fieldEndpoint :=
    exposes_delivered (endpointsDelivery ["/a"]) (fillMembers_endpointsOthers ["/a"]) 1 0
  have hconfigured : Configured (initEntityMap.putInstance relationsEntity 0 relationObject) :=
    configured_initEntityMap.withInstances relationsEntity _
  refine ⟨hash, after, hafter, ?_⟩
  rw [hexposes, exposes_iff_held hconfigured]
  rintro ⟨-, element, helement, supplemented, hlink, hvalue⟩
  have hexposures : exposures (initEntityMap.putInstance relationsEntity 0 relationObject)
      relationsEntity = [relationObject.toInstance] := rfl
  rw [hexposures, List.mem_singleton] at helement
  cases hlink
  have hnone : relationObject.memberInstances.find? relations.fieldEndpoint = none := by decide
  rw [helement] at hvalue
  cases hnone.symm.trans hvalue

end ObmcWebapp.Application
