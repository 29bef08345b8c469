/-
# The entity map of the application

At start the application registers two supplement providers and five entities, each with
its members, its provider link and the query that fills it. Afterwards the shared store
changes in three ways: a broker publishes what a query made of the replies of the bus, a
signal fills a published instance, and a request enumerates an entity. Signals reach the
instances of every entity: a broker watches unless it is told not to, and the application
tells none. The steps are taken one at a time, and an enumeration with undefined behaviour
is no step, so nothing is said of what comes after it.

None of these steps touches the members, the provider links or the field object of
absent members. In every reachable store the enumerations therefore settle: the sensors
are supplemented by the statuses, the server by the versions, and nothing else is.
-/

import ObmcWebapp.Entities.Creation
import ObmcWebapp.Entities.SensorLinks
import ObmcWebapp.Entities.Versions
import ObmcWebapp.Library.Execution

namespace ObmcWebapp.Entities

open ObmcWebapp.Core

namespace definitions

def entityChassis : String := "Chassis"
def entityServer : String := "Server"
def entityBaseboard : String := "Baseboard"
def entitySensors : String := "Sensors"

def providerRelations : String := "Relations"
def providerStatus : String := "Status"
def providerVersion : String := "Version"

end definitions

namespace Entity

/-- A new entity. -/
def create (name : String) : Entity where
  name := name
  members := OrderedMap.empty
  instances := OrderedMap.empty
  providers := []
  named _ _ hfound := nomatch hfound

/-- `addMember`. -/
def addMember (entity : Entity) (member : MemberName) : Except Exception Entity :=
  if entity.members.contains member then
    .error (.entity ("Invalid member pattern. The " ++ member ++
      " member of object already registered"))
  else
    .ok { entity with
      members := entity.members.emplace member { name := member }
      named := by
        intro name found hfound
        rw [OrderedMap.find?_emplace] at hfound
        split_ifs at hfound with hname
        · subst hname
          cases hold : entity.members.find? name with
          | none => rw [hold] at hfound; cases hfound; rfl
          | some old =>
              rw [hold] at hfound
              cases hfound
              exact entity.named name old hold
        · exact entity.named name found hfound }

/-- `addMembers`. -/
def addMembers (memberNames : List MemberName) (entity : Entity) : Except Exception Entity :=
  memberNames.foldlM addMember entity

/-- The entity with the listed members, none of them twice. -/
def withMembers (name : String) (memberNames : List MemberName)
    (providers : List (EntityId × ProviderLinkRule)) : Entity where
  name := name
  members := OrderedMap.ofList (memberNames.map fun member => (member, { name := member }))
  instances := OrderedMap.empty
  providers := providers
  named member found hfound := by
    rw [OrderedMap.find?_ofList] at hfound
    induction memberNames with
    | nil => cases hfound
    | cons first memberNames ih =>
        rw [List.map_cons, Entries.lookup_cons] at hfound
        split_ifs at hfound with hfirst
        · cases hfound
          exact hfirst.symm
        · exact ih hfound

/-- Adding one more member. -/
theorem addMember_withMembers (name : String) {memberNames : List MemberName} {member : MemberName}
    (providers : List (EntityId × ProviderLinkRule)) (hnew : member ∉ memberNames) :
    addMember (withMembers name memberNames providers) member =
      .ok (withMembers name (memberNames ++ [member]) providers) := by
  have habsent : (withMembers name memberNames providers).members.contains member = false := by
    have hlookup : (memberNames.map fun member =>
        (member, ({ name := member } : EntityMember))).lookup member = none := by
      rw [Entries.lookup_eq_none_iff]
      intro entry hentry
      obtain ⟨found, hfound, rfl⟩ := List.mem_map.mp hentry
      rintro rfl
      exact hnew hfound
    rw [OrderedMap.contains, withMembers, OrderedMap.find?_ofList, hlookup]
    rfl
  have hmembers : (withMembers name memberNames providers).members.emplace member
        { name := member } =
      (withMembers name (memberNames ++ [member]) providers).members := by
    ext1 wanted
    simp only [withMembers, OrderedMap.find?_emplace, OrderedMap.find?_ofList, List.map_append,
      List.map_cons, List.map_nil, List.lookup_append, Entries.lookup_cons, List.lookup_nil]
    split_ifs with hwanted
    · subst hwanted
      cases (memberNames.map fun member =>
        (member, ({ name := member } : EntityMember))).lookup wanted <;> rfl
    · rw [Option.or_none]
  rw [addMember, habsent]
  simp only [Bool.false_eq_true, if_false, hmembers]
  rfl

/-- Adding distinct members does not throw and gives an entity with these members too. -/
theorem addMembers_withMembers (name : String) {memberNames added : List MemberName}
    (providers : List (EntityId × ProviderLinkRule)) (hnodup : (memberNames ++ added).Nodup) :
    addMembers added (withMembers name memberNames providers) =
      .ok (withMembers name (memberNames ++ added) providers) := by
  induction added generalizing memberNames with
  | nil =>
      rw [List.append_nil]
      rfl
  | cons member added ih =>
      rw [List.append_cons] at hnodup ⊢
      have hnew : member ∉ memberNames := by
        have hbefore := (List.nodup_append.mp hnodup).1
        intro hmem
        exact (List.nodup_append.mp hbefore).2.2 member hmem member (by simp) rfl
      rw [addMembers, List.foldlM_cons, addMember_withMembers name providers hnew]
      exact ih hnodup

end Entity

end ObmcWebapp.Entities

namespace ObmcWebapp.Application

open ObmcWebapp.Core ObmcWebapp.Entities definitions

/-- The objects in the order they are registered. -/
def statusProvider : EntityId := 0
def versionProvider : EntityId := 1
def relationsEntity : EntityId := 2
def sensorsEntity : EntityId := 3
def serverEntity : EntityId := 4
def chassisEntity : EntityId := 5
def baseboardEntity : EntityId := 6

/-- The members `addObject` adds to every object. -/
def metaMembers : List MemberName := [metaObjectPath, metaObjectService]

/-- One object of the map. -/
structure Registration where
  name : String
  members : List MemberName
  providers : List (EntityId × ProviderLinkRule) := []
  query : EntityQuery

/-- The service whose associations are statuses. -/
def callbackService : ServiceName := "xyz.openbmc_project.CallbackManager"

/-- `initEntityMap`, object by object. -/
def registration? : EntityId → Option Registration
  | 0 => some {
      name := providerStatus
      members := [status.fieldStatus, status.fieldObjectCauthPath]
      query := { kind := .findObject (some callbackService), dbusQuery := Status.query } }
  | 1 => some {
      name := providerVersion
      members := [version.fieldPurpose, version.fieldVersion]
      query := Version.entityQuery }
  | 2 => some {
      name := providerRelations
      members := [relations.fieldEndpoint, relations.fieldSource, relations.fieldDestination]
      query := Relation.entityQuery }
  | 3 => some {
      name := entitySensors
      members := [sensors.fieldName, sensors.fieldValue, sensors.fieldUnit,
        sensors.fieldLowWarning, sensors.fieldLowCritical, sensors.fieldHighWarning,
        sensors.fieldHightCritical, status.fieldStatus]
      providers := [(statusProvider, Sensors.linkStatus)]
      query := Sensors.entityQuery }
  | 4 => some {
      name := entityServer
      members := [fieldName, fieldType, fieldManufacturer, fieldModel, fieldPartNumber,
        fieldSerialNumber, version.fieldVersionBios, version.fieldVersionBmc, status.fieldStatus]
      providers := [(versionProvider, Server.linkVersions)]
      query := Server.entityQuery }
  | 5 => some {
      name := entityChassis
      members := [fieldType, fieldPartNumber, fieldManufacturer, status.fieldStatus]
      query := Chassis.entityQuery }
  | 6 => some {
      name := entityBaseboard
      members := [fieldName, fieldType, fieldManufacturer, fieldModel, fieldPartNumber,
        fieldSerialNumber, status.fieldStatus, relations.fieldEndpoint]
      query := Baseboard.entityQuery }
  | _ => none

/-- The object `initEntityMap` builds. -/
def registeredEntity (entity : EntityId) : Entity :=
  match registration? entity with
  | some registration =>
      .withMembers registration.name (registration.members ++ metaMembers) registration.providers
  | none => .create ""

/-- No member is registered twice. -/
theorem members_nodup {entity : EntityId} {registration : Registration}
    (hregistration : registration? entity = some registration) :
    (registration.members ++ metaMembers).Nodup := by
  unfold registration? at hregistration
  split at hregistration
  all_goals cases hregistration
  all_goals decide

/-- In every registered query the properties have distinct members. -/
theorem wellNamed_registration {entity : EntityId} {registration : Registration}
    (hregistration : registration? entity = some registration) : registration.query.WellNamed := by
  unfold registration? at hregistration
  split at hregistration
  case h_4 =>
    cases hregistration
    exact Sensors.wellNamed
  all_goals cases hregistration
  all_goals exact ⟨by decide, EntityQuery.staticFields_none⟩

/-- The store at start. -/
def initEntityMap : EntityStore where
  objects := registeredEntity
  notAvailable := .notAvailable

/-- The two registries of names at start; they do not change. -/
def entityManager : EntityManager where
  entityDictionary := OrderedMap.ofList
    [(providerRelations, relationsEntity), (entitySensors, sensorsEntity),
      (entityServer, serverEntity), (entityChassis, chassisEntity),
      (entityBaseboard, baseboardEntity)]
  supplementProviders := OrderedMap.ofList
    [(providerStatus, statusProvider), (providerVersion, versionProvider)]

/-- The provider links: the sensors have the statuses, the server has the versions. -/
theorem providers_cases (entity : EntityId) :
    (registeredEntity entity).providers = [] ∧ entity ≠ sensorsEntity ∨
    entity = sensorsEntity ∧
      (registeredEntity entity).providers = [(statusProvider, Sensors.linkStatus)] ∨
    entity = serverEntity ∧
      (registeredEntity entity).providers = [(versionProvider, Server.linkVersions)] := by
  match entity with
  | 0 => exact .inl ⟨rfl, by decide⟩
  | 1 => exact .inl ⟨rfl, by decide⟩
  | 2 => exact .inl ⟨rfl, by decide⟩
  | 3 => exact .inr (.inl ⟨rfl, rfl⟩)
  | 4 => exact .inr (.inr ⟨rfl, rfl⟩)
  | 5 => exact .inl ⟨rfl, by decide⟩
  | 6 => exact .inl ⟨rfl, by decide⟩
  | entity + 7 => exact .inl ⟨rfl, by simp [sensorsEntity]⟩

section Runs

variable [StdHash]

/-- What changes the store. -/
inductive StoreStep
  | publish (entity : EntityId) (replies : BusReplies)
  /-- A signal lists changed properties of a published instance. -/
  | signal (entity : EntityId) (hash : ℕ) (interface : InterfaceName) (changed : DBusPropertiesMap)
  | enumerate (depth : ℕ) (entity : EntityId) (condition : Option Condition)

/-- The step a label stands for. A query or a fill that throws ends the process. -/
inductive Steps : EntityStore → StoreStep → EntityStore → Prop
  | publish {store : EntityStore} {entity : EntityId} {registration : Registration}
      {replies : BusReplies} {instances : List DBusInstance}
      (hregistration : registration? entity = some registration)
      (hprocess : registration.query.process replies = .ok instances) :
      Steps store (.publish entity replies) (store.setInstances entity instances)
  | signal {store : EntityStore} {entity : EntityId} {hash : ℕ} {interface : InterfaceName}
      {changed : DBusPropertiesMap} {inst filled : DBusInstance}
      (hfound : (store.objects entity).instances.find? hash = some inst)
      (hfill : DBusInstance.fillMembers interface changed inst = .ok ⟨⟩ filled) :
      Steps store (.signal entity hash interface changed) (store.putInstance entity hash filled)
  | enumerate {store after : EntityStore} {depth : ℕ} {entity : EntityId}
      {condition : Option Condition}
      (hends : Fallible.Ends (fun _ left => left = after)
        (fun failure left => failure.Defined ∧ left = after)
        (getInstances depth entity condition store)) :
      Steps store (.enumerate depth entity condition) after

/-- The store of the running application. -/
def storeMachine : Machine EntityStore StoreStep where
  initial store := store = initEntityMap
  step := Steps

/-- An invariant of the store: of what is published, of what a signal fills, and of what an
enumeration leaves. -/
theorem storeMachine_invariant {holds : EntityStore → Prop} (hinitial : holds initEntityMap)
    (hpublish : ∀ {store entity registration replies instances}, holds store →
      registration? entity = some registration →
      registration.query.process replies = .ok instances →
      holds (store.setInstances entity instances))
    (hsignal : ∀ {store entity hash interface changed inst filled}, holds store →
      (store.objects entity).instances.find? hash = some inst →
      DBusInstance.fillMembers interface changed inst = .ok ⟨⟩ filled →
      holds (store.putInstance entity hash filled))
    (henumerate : ∀ depth entity condition,
      Fallible.Preserves holds (getInstances depth entity condition)) :
    storeMachine.Invariant holds where
  start := by
    rintro store rfl
    exact hinitial
  preserved := by
    intro store label after hstore htaken
    cases htaken with
    | publish hregistration hprocess => exact hpublish hstore hregistration hprocess
    | signal hfound hfill => exact hsignal hstore hfound hfill
    | @enumerate _ depth entity condition hends =>
        have hkept := henumerate depth entity condition store hstore
        cases hresult : getInstances depth entity condition store with
        | ok value left =>
            rw [hresult] at hends hkept
            exact hends ▸ hkept
        | error failure left =>
            rw [hresult] at hends hkept
            exact hends.2 ▸ hkept

/-- What holds of every reachable store. -/
structure Configured (store : EntityStore) : Prop where
  members : ∀ entity, (store.objects entity).members = (registeredEntity entity).members
  providers : ∀ entity, (store.objects entity).providers = (registeredEntity entity).providers
  notAvailable : store.notAvailable = .notAvailable

omit [StdHash] in
/-- Every linked rule leaves the field object of absent members alone. -/
theorem linked_keepsNotAvailable {store : EntityStore} (hconfigured : Configured store) :
    ∀ entity, ∀ provider ∈ (store.objects entity).providers, KeepsNotAvailable provider.2 := by
  intro entity provider hmem
  rw [hconfigured.providers] at hmem
  rcases providers_cases entity with ⟨hnone, -⟩ | ⟨-, hsensors⟩ | ⟨-, hserver⟩
  · rw [hnone] at hmem
    cases hmem
  · rw [hsensors, List.mem_singleton] at hmem
    rw [hmem]
    exact Sensors.linkStatus_keepsNotAvailable
  · rw [hserver, List.mem_singleton] at hmem
    rw [hmem]
    exact Server.linkVersions_keepsNotAvailable

omit [StdHash] in
/-- Replacing published instances keeps the configuration. -/
theorem Configured.withInstances {store : EntityStore} (hconfigured : Configured store)
    (entity : EntityId) (instances : OrderedMap ℕ DBusInstance) :
    Configured { store with
      objects := Function.update store.objects entity
        { store.objects entity with instances := instances } } := by
  constructor
  · exact fun other => (EntityStore.update_instances entity other store.objects instances).1.trans
      (hconfigured.members other)
  · exact fun other => (EntityStore.update_instances entity other store.objects instances).2.trans
      (hconfigured.providers other)
  · exact hconfigured.notAvailable

omit [StdHash] in
theorem configured_undisturbed : Undisturbed KeepsNotAvailable Configured where
  linked hconfigured := linked_keepsNotAvailable hconfigured
  putInstance hconfigured entity hash inst := hconfigured.withInstances entity _
  rule {store} hconfigured rule hrule supplementing target := by
    have hleaves := hrule supplementing target
    rw [hconfigured.notAvailable]
    apply hleaves.imp
    intro link hlink
    exact ⟨hconfigured.members, hconfigured.providers, hlink⟩

omit [StdHash] in
theorem configured_initEntityMap : Configured initEntityMap :=
  ⟨fun _ => rfl, fun _ => rfl, rfl⟩

/-- Every step leaves the store configured. -/
theorem storeMachine_configured : storeMachine.Invariant Configured := by
  apply storeMachine_invariant configured_initEntityMap
  · exact fun hconfigured _ _ => hconfigured.withInstances _ _
  · exact fun hconfigured _ _ => hconfigured.withInstances _ _
  · exact fun depth entity condition _ hconfigured =>
      configured_undisturbed.getInstances depth entity condition hconfigured

/-- Every reachable store is configured. -/
theorem configured_of_reachable {store : EntityStore} (hreach : storeMachine.Reachable store) :
    Configured store :=
  storeMachine_configured.of_reachable hreach

end Runs

end ObmcWebapp.Application
