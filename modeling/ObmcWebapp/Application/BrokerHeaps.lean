/-
# From the objects of the brokers to the map

A broker publishes pointers. Its instance map leads to objects that the refresh has
allocated, which signals fill in place and which stay behind when a later refresh publishes
others. The map of entities has instances in place of pointers. The two levels agree in
every run: however the calls of the brokers and the signals interleave, what the pointers
of each entity lead to is what the map, stepping along, publishes.
-/

import ObmcWebapp.Application.EntityMap
import ObmcWebapp.Brokers.FailedRefresh

namespace ObmcWebapp.Application

open ObmcWebapp.Core ObmcWebapp.Entities ObmcWebapp.Brokers ObmcWebapp.Brokers.FailedRefresh
open definitions

variable [StdHash]

/-- What fills an instance leaves it the object it was. -/
theorem fillMembers_sameObject {interface : InterfaceName} {changed : DBusPropertiesMap}
    {inst filled : DBusInstance}
    (hfill : DBusInstance.fillMembers interface changed inst = .ok ⟨⟩ filled) :
    SameObject filled.toInstance inst.toInstance := by
  have hvisit : ∀ entry ∈ (inst.dbusQuery.getPropertyMemberDict interface).entries,
      ∀ state : DBusInstance, SameObject state.toInstance inst.toInstance →
      Fallible.Ends (fun (_ : PUnit) next => SameObject next.toInstance inst.toInstance)
        (fun _ _ => True) (DBusInstance.fillMember changed entry state) := by
    intro entry _ state hstate
    cases hresult : DBusInstance.fillMember changed entry state with
    | ok value next => exact (DBusInstance.find?_fillMember hresult).1.trans hstate
    | error exception next => trivial
  have hends := Fallible.forEach_ends hvisit ⟨rfl, rfl, rfl⟩
  rw [DBusInstance.fillMembers] at hfill
  rw [hfill] at hends
  exact hends

/-- What a refresh adds leaves the instance map its objects. -/
theorem keyed_grows {state after : RefreshState} (hkeyed : Keyed state)
    (hgrows : Grows state after) : Keyed after := by
  intro hash pointer hfound
  rw [hgrows.instances] at hfound
  obtain ⟨object, hobject, hhash⟩ := hkeyed hash pointer hfound
  obtain ⟨more, hmore⟩ := hgrows.objects
  have hlt := (List.getElem?_eq_some_iff.mp hobject).1
  exact ⟨object, by rw [← hmore, List.getElem?_append_left hlt, hobject], hhash⟩

/-- The broker of a registered entity, with what its pointers lead to published in a map. -/
structure Publishes (entity : EntityId) (registration : Registration) (state : RefreshState)
    (store : EntityStore) : Prop where
  entityQuery : state.entityQuery = some (.dbus registration.query)
  entityName : state.entityName = (store.objects entity).name
  keyed : Keyed state
  instances : ∀ hash, (state.instances.find? hash).bind (fun pointer => state.objects[pointer]?) =
    ((store.objects entity).instances.find? hash).map .dbus

variable {entity : EntityId} {registration : Registration} {state after : RefreshState}
  {store : EntityStore}

/-- The broker as the polling loop has it. -/
def loopOf (entity : EntityId) (registration : Registration) (state : RefreshState)
    (store : EntityStore) : CaptureLoop.CaptureState where
  brokers _ := { state.broker with entity, entityQuery := some registration.query }
  store := store
  visits := []

theorem Publishes.represents (hpublishes : Publishes entity registration state store) :
    Represents 0 state (loopOf entity registration state store) where
  broker := rfl
  entityQuery := hpublishes.entityQuery
  entityName := hpublishes.entityName
  pointers := hpublishes.keyed.pointsToObjects
  instances := hpublishes.instances

/-- The map takes a step of an entity, or none. -/
structure Follows (entity : EntityId) (store next : EntityStore) : Prop where
  taken : next = store ∨ ∃ step, Steps store step next
  others : ∀ other ≠ entity, next.objects other = store.objects other

theorem Follows.refl (entity : EntityId) (store : EntityStore) : Follows entity store store :=
  ⟨.inl rfl, fun _ _ => rfl⟩

/-- What a refresh returns is what the query gives. -/
theorem process_of_refresh {broker : EntityDbusBroker} {entityName : String}
    {turn : CaptureLoop.Turn} {query : EntityQuery} {instances : List DBusInstance}
    (hquery : broker.entityQuery = some query)
    (hrefresh : CaptureLoop.refresh broker entityName turn = .ok instances) :
    query.process turn.replies = .ok instances := by
  simp only [CaptureLoop.refresh, hquery] at hrefresh
  cases hprocess : query.process turn.replies with
  | error exception => simp [hprocess, bind, Except.bind] at hrefresh
  | ok found =>
      simp only [hprocess, bind, Except.bind] at hrefresh
      cases hwatch : broker.watch with
      | false =>
          simp only [hwatch] at hrefresh
          exact hrefresh
      | true =>
          simp only [hwatch, if_true] at hrefresh
          cases hlisten : found.forM turn.bindListeners with
          | error exception => simp [hlisten] at hrefresh
          | ok value =>
              simp only [hlisten] at hrefresh
              exact hrefresh

/-- A call of the loop that is carried through publishes what the query gives. -/
theorem complete_of_tryProcess {id : ℕ} {turn : CaptureLoop.Turn}
    {loop next : CaptureLoop.CaptureState} {query : EntityQuery}
    (hquery : (loop.brokers id).entityQuery = some query)
    (hdone : CaptureLoop.tryProcess id turn loop = .ok true next) :
    ∃ instances, query.process turn.replies = .ok instances ∧
      next = loop.complete id ⟨instances, turn.recordNow⟩ := by
  rw [CaptureLoop.tryProcess] at hdone
  split at hdone
  · cases hdone
  · split at hdone
    · cases hdone
    · split at hdone
      · cases hdone
      · next instances hrefresh =>
          cases hdone
          exact ⟨instances, process_of_refresh hquery hrefresh, rfl⟩

/-- A call moves the map by a publication, or not at all. -/
theorem Publishes.turn (hpublishes : Publishes entity registration state store)
    (hregistration : registration? entity = some registration) (turn : RefreshTurn) :
    ∃ next, Follows entity store next ∧
      Publishes entity registration (Fallible.left (tryProcess turn state)) next := by
  have hrefines := tryProcess_refines hpublishes.represents turn
  rcases tryProcess_cases turn state with hidle | ⟨-, exception, grown, hgrows, hraised⟩ |
    ⟨-, ids, prepared, hgrows, hpublished⟩
  · rw [hidle]
    exact ⟨store, .refl entity store, hpublishes⟩
  · rw [hraised]
    refine ⟨store, .refl entity store, ?_⟩
    have hsame := hpublishes.represents.grows hgrows
    exact ⟨hgrows.entityQuery.trans hpublishes.entityQuery, hsame.entityName,
      keyed_grows hpublishes.keyed hgrows, hsame.instances⟩
  · rw [hpublished] at hrefines ⊢
    cases hloop : CaptureLoop.tryProcess 0 (loopTurn state turn)
        (loopOf entity registration state store) with
    | error exception next =>
        rw [hloop] at hrefines
        obtain ⟨_, hfalse, -⟩ := hrefines
        cases hfalse
    | ok done next =>
        rw [hloop] at hrefines
        obtain ⟨_, hdone, hrepresents⟩ := hrefines
        cases hdone
        obtain ⟨instances, hprocess, rfl⟩ := complete_of_tryProcess rfl hloop
        have hbroker : (((loopOf entity registration state store).complete 0
            ⟨instances, (loopTurn state turn).recordNow⟩).brokers 0).entity = entity := by
          simp [CaptureLoop.CaptureState.complete, CaptureLoop.setExecutionTime, loopOf]
        refine ⟨store.setInstances entity instances, ⟨.inr ⟨_, .publish hregistration hprocess⟩,
          fun other hother => Function.update_of_ne hother _ _⟩, ?_⟩
        constructor
        · exact hgrows.entityQuery.trans hpublishes.entityQuery
        · have hname := hrepresents.entityName
          rw [hbroker] at hname
          exact hname
        · exact keyed_setInstances ids prepared
        · have hinstances := hrepresents.instances
          rw [hbroker] at hinstances
          exact hinstances

/-- A signal moves the map by filling a published instance, or not at all. -/
theorem Publishes.signal (hpublishes : Publishes entity registration state store)
    {id : ℕ} {interface : InterfaceName} {changed : DBusPropertiesMap}
    (hfill : onInstance id (DBusInstance.fillMembers interface changed) state = .ok ⟨⟩ after) :
    ∃ next, Follows entity store next ∧ Publishes entity registration after next := by
  rw [onInstance] at hfill
  split at hfill
  · next inst hobject =>
      cases hresult : DBusInstance.fillMembers interface changed inst with
      | error exception left => rw [hresult] at hfill; cases hfill
      | ok value filled =>
          rw [hresult] at hfill
          cases hfill
          have hhash : filled.getHash = inst.getHash := (fillMembers_sameObject hresult).getHash
          have hlt := (List.getElem?_eq_some_iff.mp hobject).1
          have hset : ∀ pointer, (state.objects.set id (.dbus filled))[pointer]? =
              if id = pointer then some (.dbus filled) else state.objects[pointer]? := by
            intro pointer
            rw [List.getElem?_set]
            split_ifs <;> simp_all
          have hkeyed : Keyed { state with objects := state.objects.set id (.dbus filled) } := by
            intro hash pointer hfound
            obtain ⟨object, hheld, hobjectHash⟩ := hpublishes.keyed hash pointer hfound
            show ∃ object, (state.objects.set id (.dbus filled))[pointer]? = some object ∧ _
            rw [hset]
            by_cases hpointer : id = pointer
            · rw [if_pos hpointer]
              rw [← hpointer, hobject] at hheld
              cases hheld
              exact ⟨_, rfl, hhash.trans hobjectHash⟩
            · rw [if_neg hpointer]
              exact ⟨object, hheld, hobjectHash⟩
          by_cases hheld : ∃ hash, state.instances.find? hash = some id
          · obtain ⟨hash, hhash'⟩ := hheld
            -- the object is published, so the store publishes the instance under its hash
            have hown : inst.getHash = hash := by
              obtain ⟨object, hat, hobjectHash⟩ := hpublishes.keyed hash id hhash'
              rw [hobject] at hat
              cases hat
              exact hobjectHash
            have hstored : (store.objects entity).instances.find? hash = some inst := by
              have hshown := hpublishes.instances hash
              rw [hhash', Option.bind_some, hobject] at hshown
              cases hfound : (store.objects entity).instances.find? hash with
              | none => simp [hfound] at hshown
              | some found =>
                  rw [hfound] at hshown
                  cases hshown
                  rfl
            refine ⟨store.putInstance entity hash filled,
              ⟨.inr ⟨_, .signal hstored hresult⟩, fun other hother =>
                store.objects_putInstance_of_ne entity other hash filled hother⟩,
              hpublishes.entityQuery, ?_, hkeyed, fun wanted => ?_⟩
            · exact hpublishes.entityName.trans (by simp [EntityStore.putInstance])
            · show (state.instances.find? wanted).bind
                (fun pointer => (state.objects.set id (.dbus filled))[pointer]?) = _
              rw [EntityStore.instances_putInstance, OrderedMap.find?_insertOrAssign]
              by_cases hwanted : wanted = hash
              · rw [if_pos hwanted, hwanted, hhash', Option.bind_some, hset, if_pos rfl]
                rfl
              · rw [if_neg hwanted, ← hpublishes.instances wanted]
                refine Option.bind_congr fun pointer hpointer => ?_
                rw [hset, if_neg]
                rintro rfl
                -- one object is published under one hash
                obtain ⟨object, hat, hobjectHash⟩ := hpublishes.keyed wanted id hpointer
                rw [hobject] at hat
                cases hat
                exact hwanted (hobjectHash.symm.trans hown)
          · -- an object of an earlier publication
            refine ⟨store, .refl entity store, hpublishes.entityQuery, hpublishes.entityName,
              hkeyed, fun wanted => ?_⟩
            show (state.instances.find? wanted).bind
              (fun pointer => (state.objects.set id (.dbus filled))[pointer]?) = _
            rw [← hpublishes.instances wanted]
            refine Option.bind_congr fun pointer hpointer => ?_
            rw [hset, if_neg]
            rintro rfl
            exact hheld ⟨wanted, hpointer⟩
  · cases hfill
    exact ⟨store, .refl entity store, hpublishes⟩

/-- The brokers of all entities. -/
abbrev Brokers := EntityId → RefreshState

/-- A registered entity before its first refresh. -/
structure Unfilled (registration : Registration) (state : RefreshState) : Prop where
  entityQuery : state.entityQuery = some (.dbus registration.query)
  entityName : state.entityName = registration.name
  instances : state.instances = OrderedMap.empty

/-- A call of one broker, whatever its end, or a signal for an object of one, published or
not. A fill that throws ends the process. -/
inductive BrokerSteps : Brokers → EntityId × RefreshStep → Brokers → Prop
  | turn {brokers : Brokers} (entity : EntityId) (turn : RefreshTurn) :
      BrokerSteps brokers (entity, .turn turn)
        (Function.update brokers entity (Fallible.left (tryProcess turn (brokers entity))))
  | signal {brokers : Brokers} {entity : EntityId} {id : ℕ} {interface : InterfaceName}
      {changed : DBusPropertiesMap} {after : RefreshState}
      (hfill : onInstance id (DBusInstance.fillMembers interface changed) (brokers entity) =
        .ok ⟨⟩ after) :
      BrokerSteps brokers (entity, .signal id interface changed)
        (Function.update brokers entity after)

/-- The brokers from the start of the application. -/
def brokerMachine : Machine Brokers (EntityId × RefreshStep) where
  initial brokers := ∀ entity registration, registration? entity = some registration →
    Unfilled registration (brokers entity)
  step := BrokerSteps

/-- What the brokers publish is the map. -/
def PublishAll (brokers : Brokers) (store : EntityStore) : Prop :=
  ∀ entity registration, registration? entity = some registration →
    Publishes entity registration (brokers entity) store

theorem Unfilled.publishes {entity : EntityId} (hunfilled : Unfilled registration state)
    (hregistration : registration? entity = some registration) :
    Publishes entity registration state initEntityMap := by
  have hentity : initEntityMap.objects entity =
      .withMembers registration.name (registration.members ++ metaMembers)
        registration.providers := by
    show registeredEntity entity = _
    rw [registeredEntity, hregistration]
  constructor
  · exact hunfilled.entityQuery
  · rw [hentity]
    exact hunfilled.entityName
  · intro hash pointer hfound
    rw [hunfilled.instances] at hfound
    cases hfound
  · intro hash
    rw [hunfilled.instances, hentity]
    rfl

/-- Steps of one entity do not show at the others. -/
theorem Publishes.of_follows {other : EntityId} {next : EntityStore}
    (hpublishes : Publishes other registration state store)
    (hfollows : Follows entity store next) (hother : other ≠ entity) :
    Publishes other registration state next := by
  have hsame := hfollows.others other hother
  exact ⟨hpublishes.entityQuery, by rw [hsame, hpublishes.entityName], hpublishes.keyed,
    fun hash => by rw [hsame, hpublishes.instances]⟩

/-- A step of a broker is one of the map, or none. -/
theorem PublishAll.step {brokers after : Brokers} {label : EntityId × RefreshStep}
    (hpublish : PublishAll brokers store) (htaken : BrokerSteps brokers label after) :
    ∃ next, (next = store ∨ ∃ step, Steps store step next) ∧ PublishAll after next := by
  -- a broker of no entity shows nothing
  have hfollow : ∀ (entity : EntityId) (after : RefreshState),
      (∀ registration, registration? entity = some registration →
        ∃ next, Follows entity store next ∧ Publishes entity registration after next) →
      ∃ next, (next = store ∨ ∃ step, Steps store step next) ∧
        PublishAll (Function.update brokers entity after) next := by
    intro entity after hentity
    obtain ⟨next, hfollows, hown⟩ : ∃ next, Follows entity store next ∧
        ∀ registration, registration? entity = some registration →
          Publishes entity registration after next := by
      cases hregistration : registration? entity with
      | none => exact ⟨store, .refl entity store, nofun⟩
      | some registration =>
          obtain ⟨next, hfollows, hpublishes⟩ := hentity registration hregistration
          refine ⟨next, hfollows, fun found hfound => ?_⟩
          cases hfound
          exact hpublishes
    refine ⟨next, hfollows.taken, fun other registration hregistration => ?_⟩
    by_cases hother : other = entity
    · subst hother
      rw [Function.update_self]
      exact hown registration hregistration
    · rw [Function.update_of_ne hother]
      exact (hpublish other registration hregistration).of_follows hfollows hother
  cases htaken with
  | turn entity turn =>
      exact hfollow entity _ fun registration hregistration =>
        (hpublish entity registration hregistration).turn hregistration turn
  | @signal entity _ _ _ after hfill =>
      exact hfollow entity after fun registration hregistration =>
        (hpublish entity registration hregistration).signal hfill

/-- However the calls and the signals of the brokers interleave, what the pointers of every
entity lead to is what the map publishes, in a run of the map. -/
theorem brokers_refine_map {first last : Brokers} {labels : List (EntityId × RefreshStep)}
    (hinitial : brokerMachine.initial first) (hrun : brokerMachine.Run first labels last) :
    ∃ steps store, storeMachine.Run initEntityMap steps store ∧ PublishAll last store :=
  hrun.simulate PublishAll.step fun _ _ hregistration =>
    (hinitial _ _ hregistration).publishes hregistration

/-- The brokers at start. -/
def brokersAtStart : Brokers := fun entity =>
  match registration? entity with
  | some registration =>
      { broker := { timeout := 0, watch := true }, guardMutex := false
        entityName := registration.name, entityQuery := some (.dbus registration.query)
        instances := OrderedMap.empty, objects := [], listeners := [] }
  | none =>
      { broker := { timeout := 0, watch := true }, guardMutex := false, entityName := ""
        entityQuery := none, instances := OrderedMap.empty, objects := [], listeners := [] }

/-- The bus has one sensor without properties. -/
def bareSensor : RefreshTurn where
  now := 100
  replies := {
    getSubTree := .ok [("/xyz/openbmc_project/sensors/temperature/cpu_0",
      [("xyz.openbmc_project.Hwmon", [Sensors.sensorValueInterface])])]
    getAll _ _ _ := OrderedMap.empty
    getManagedObjects _ := .ok [] }
  registers _ _ := .ok ⟨⟩
  recordNow := 100

/-- The unit the sensor signals. -/
def degrees : DBusPropertiesMap :=
  OrderedMap.ofList [(Sensors.namePropertyUnit,
    .scalar (.string "xyz.openbmc_project.Sensor.Value.Unit.DegreesC"))]

omit [StdHash] in
/-- A signal fills the sensor a refresh has published, and the map publishes it. -/
theorem brokers_refine_map_signal :
    let _ : StdHash := ⟨64, fun _ => 0⟩
    ∃ steps store inst, storeMachine.Run initEntityMap steps store ∧
      (store.objects sensorsEntity).instances.find? 0 = some inst ∧
      inst.memberInstances.find? sensors.fieldUnit = some (.string "°C") := by
  intro _
  have hinitial : brokerMachine.initial brokersAtStart := by
    intro entity registration hregistration
    simp only [brokersAtStart, hregistration]
    exact ⟨rfl, rfl, rfl⟩
  have hrefreshed : brokerMachine.Run brokersAtStart [(sensorsEntity, .turn bareSensor)] _ :=
    (Machine.Run.refl brokersAtStart).extend (.turn sensorsEntity bareSensor)
  let refreshed := Fallible.left (tryProcess bareSensor (brokersAtStart sensorsEntity))
  let after := Fallible.left
    (onInstance 0 (DBusInstance.fillMembers Sensors.sensorValueInterface degrees) refreshed)
  have hfill : onInstance 0 (DBusInstance.fillMembers Sensors.sensorValueInterface degrees)
      refreshed = .ok ⟨⟩ after := rfl
  have hheld : after.instances.find? 0 = some 0 := by decide
  obtain ⟨inst, hinst, hunit⟩ : ∃ inst, after.objects[0]? = some (.dbus inst) ∧
      inst.memberInstances.find? sensors.fieldUnit = some (.string "°C") := ⟨_, rfl, rfl⟩
  have hrefreshedAt : (Function.update brokersAtStart sensorsEntity refreshed) sensorsEntity =
      refreshed := Function.update_self ..
  have hrun := hrefreshed.extend (.signal (hrefreshedAt ▸ hfill))
  obtain ⟨steps, store, hmap, hpublish⟩ := brokers_refine_map hinitial hrun
  have hpublished := (hpublish sensorsEntity _ rfl).instances 0
  rw [Function.update_self, hheld, Option.bind_some, hinst] at hpublished
  cases hfound : (store.objects sensorsEntity).instances.find? 0 with
  | none => rw [hfound] at hpublished; cases hpublished
  | some held =>
      rw [hfound] at hpublished
      cases hpublished
      exact ⟨steps, store, inst, hmap, hfound, hunit⟩

end ObmcWebapp.Application
