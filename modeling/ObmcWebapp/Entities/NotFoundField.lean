/-
# The field object of absent members

`getField` gives a reference: to the field of the member, or to the one field object
that all instances share for their absent members. Code that sets a value through
such a reference may write to the shared object. The functions below set values this
way, as the source does, and carry the shared object in their state.

None of them writes to it. Setting a member first asks whether the instance has it, and
the status rule sets the status it has read: the status of an absent member reads as
"N/A", which has no severity, so the comparison throws before. The second argument holds
only as long as the shared object was never written to.
-/

import ObmcWebapp.Entities.SensorLinks
import ObmcWebapp.Entities.Versions
import ObmcWebapp.Library.Execution

namespace ObmcWebapp.Entities

open ObmcWebapp.Core definitions

/-- A value and the field object of absent members. -/
structure Sharing (σ : Type) where
  own : σ
  notAvailable : FieldType

/-- What `getField` gives a reference to. -/
inductive FieldRef
  | member (name : MemberName)
  | notFound

/-- `getField`. -/
def Instance.fieldRef (inst : Instance) (member : MemberName) : FieldRef :=
  if inst.hasField member then .member member else .notFound

namespace Sharing

/-- An action that leaves the shared object alone. -/
def onOwn {ε σ α : Type} (action : EStateM ε σ α) : EStateM ε (Sharing σ) α :=
  Fallible.zoom Sharing.own (fun own state => { state with own := own }) action

theorem forEach_onOwn {ε σ α : Type} (visit : α → EStateM ε σ PUnit) (items : List α) :
    Fallible.forEach (fun item => onOwn (visit item)) items =
      onOwn (Fallible.forEach visit items) := by
  induction items with
  | nil => rfl
  | cons item items ih =>
      funext state
      rw [Fallible.forEach, ih]
      cases hvisit : visit item state.own with
      | ok value next =>
          have hitem : onOwn (visit item) state = .ok ⟨⟩ { state with own := next } :=
            Fallible.zoom_ok hvisit
          rw [Fallible.bind_ok hitem, onOwn, onOwn, Fallible.zoom, Fallible.zoom, Fallible.forEach,
            Fallible.bind_ok hvisit]
      | error exception next =>
          have hitem : onOwn (visit item) state = .error exception { state with own := next } :=
            Fallible.zoom_error hvisit
          rw [Fallible.bind_error hitem, onOwn, Fallible.zoom, Fallible.forEach,
            Fallible.bind_error hvisit]

/-- `setValue` of a reference. -/
def setValue (ref : FieldRef) (value : FieldType) (state : Sharing Instance) : Sharing Instance :=
  match ref with
  | .member name =>
      { state with
        own := { state.own with
          memberInstances := state.own.memberInstances.insertOrAssign name value } }
  | .notFound => { state with notAvailable := value }

/-- `supplementOrUpdate`. -/
def supplementOrUpdate (member : MemberName) (value : FieldType) :
    EStateM Exception (Sharing Instance) PUnit := fun state =>
  if state.own.hasField member then
    .ok ⟨⟩ (state.setValue (state.own.fieldRef member) value)
  else
    match state.own.supplement member value with
    | .ok own => .ok ⟨⟩ { state with own := own }
    | .error exception => .error exception state

/-- `initDefaultFieldsValue`. -/
def initDefaultFieldsValue : EStateM Exception (Sharing Instance) PUnit := fun state =>
  Fallible.forEach (fun field => supplementOrUpdate field.1 field.2)
    state.own.dbusQuery.defaultFieldsValue.entries state

/-- One entry of the property dictionary of an instance whose properties are scalars. -/
def fillMember (properties : OrderedMap PropertyName FieldType)
    (entry : PropertyName × MemberName) : EStateM Exception (Sharing Instance) PUnit :=
  fun state =>
    match properties.find? entry.1 with
    | none => .ok ⟨⟩ state
    | some value =>
        match state.own.dbusQuery.processScalarFormatters entry.1 value with
        | .ok formatted => supplementOrUpdate entry.2 formatted state
        | .error exception => .error exception state

/-- `fillMembers` of an instance whose properties are all scalars. -/
def fillMembers (interface : InterfaceName) (properties : OrderedMap PropertyName FieldType) :
    EStateM Exception (Sharing Instance) PUnit := fun state =>
  Fallible.forEach (fillMember properties)
    (state.own.dbusQuery.getPropertyMemberDict interface).entries state

/-- Change the instance, which does not fail. -/
def changing {σ : Type} (change : σ → σ) : EStateM Exception σ PUnit := fun state =>
  .ok ⟨⟩ (change state)

theorem onOwn_changing {σ : Type} (change : σ → σ) (state : Sharing σ) :
    onOwn (changing change) state = .ok ⟨⟩ { state with own := change state.own } := rfl

theorem forEach_changing {α σ : Type} (change : α → σ → σ) (items : List α) (state : σ) :
    Fallible.forEach (fun item => changing (change item)) items state =
      .ok ⟨⟩ (items.foldl (fun state item => change item state) state) := by
  induction items generalizing state with
  | nil => rfl
  | cons item items ih =>
      have hitem : changing (change item) state = .ok ⟨⟩ (change item state) := rfl
      rw [Fallible.forEach, Fallible.bind_ok hitem, ih, List.foldl_cons]

/-- Setting a member never writes to the shared object. -/
theorem supplementOrUpdate_eq (member : MemberName) (value : FieldType) :
    supplementOrUpdate member value =
      onOwn (changing fun inst => inst.supplementOrUpdate member value) := by
  funext state
  rw [onOwn_changing, supplementOrUpdate]
  by_cases hfield : state.own.hasField member = true
  · rw [if_pos hfield, Instance.fieldRef, if_pos hfield, Instance.supplementOrUpdate_eq]
    rfl
  · have habsent : state.own.memberInstances.contains member = false :=
      Bool.eq_false_iff.mpr hfield
    rw [if_neg hfield, Instance.supplement, habsent, Instance.supplementOrUpdate, if_neg hfield]
    rfl

theorem initDefaultFieldsValue_eq :
    initDefaultFieldsValue = onOwn (changing Instance.initDefaultFieldsValue) := by
  have hset : (fun field : MemberName × FieldType => supplementOrUpdate field.1 field.2) =
      fun field => onOwn (changing fun inst => inst.supplementOrUpdate field.1 field.2) :=
    funext fun field => supplementOrUpdate_eq field.1 field.2
  funext state
  rw [initDefaultFieldsValue, hset, forEach_onOwn]
  exact Fallible.zoom_ok (forEach_changing
    (fun (field : MemberName × FieldType) (inst : Instance) =>
      inst.supplementOrUpdate field.1 field.2) _ _)

theorem fillMember_eq (properties : OrderedMap PropertyName FieldType)
    (entry : PropertyName × MemberName) :
    fillMember properties entry = onOwn (Instance.fillMember properties entry) := by
  funext state
  simp only [fillMember, onOwn, Fallible.zoom, Instance.fillMember]
  cases properties.find? entry.1 with
  | none => rfl
  | some value =>
      cases hformat : state.own.dbusQuery.processScalarFormatters entry.1 value with
      | error exception => simp only [hformat]
      | ok formatted =>
          simp only [hformat, supplementOrUpdate_eq]
          rfl

theorem fillMembers_eq (interface : InterfaceName)
    (properties : OrderedMap PropertyName FieldType) :
    fillMembers interface properties = onOwn (Instance.fillMembers interface properties) := by
  have hentry : fillMember properties = fun entry => onOwn (Instance.fillMember properties entry) :=
    funext (fillMember_eq properties)
  funext state
  rw [fillMembers, hentry, forEach_onOwn]
  rfl

section Children

/-- `supplementOrUpdate` of an instance with children. -/
def supplementOrUpdateOwn (member : MemberName) (value : FieldType) :
    EStateM Exception (Sharing DBusInstance) PUnit :=
  Fallible.zoom (fun state => ⟨state.own.toInstance, state.notAvailable⟩)
    (fun filled state => ⟨{ state.own with toInstance := filled.own }, filled.notAvailable⟩)
    (supplementOrUpdate member value)

/-- `initDefaultFieldsValue` of an instance with children. -/
def initDefaultFieldsValueOwn : EStateM Exception (Sharing DBusInstance) PUnit :=
  Fallible.zoom (fun state => ⟨state.own.toInstance, state.notAvailable⟩)
    (fun filled state => ⟨{ state.own with toInstance := filled.own }, filled.notAvailable⟩)
    initDefaultFieldsValue

theorem supplementOrUpdateOwn_eq (member : MemberName) (value : FieldType) :
    supplementOrUpdateOwn member value = onOwn (changing fun inst : DBusInstance =>
      { inst with toInstance := inst.toInstance.supplementOrUpdate member value }) := by
  rw [supplementOrUpdateOwn, supplementOrUpdate_eq]
  rfl

theorem initDefaultFieldsValueOwn_eq :
    initDefaultFieldsValueOwn = onOwn (changing DBusInstance.initDefaultFieldsValue) := by
  rw [initDefaultFieldsValueOwn, initDefaultFieldsValue_eq]
  rfl

variable [StdHash]

/-- Build a child, fill it, and store it unless filling throws. -/
def captureChild (child : Instance) (interface : InterfaceName)
    (properties : OrderedMap PropertyName FieldType) :
    EStateM Exception (Sharing DBusInstance) PUnit := fun state =>
  match fillMembers interface properties ⟨child, state.notAvailable⟩ with
  | .ok _ filled => .ok ⟨⟩ ⟨state.own.insertComplex filled.own, filled.notAvailable⟩
  | .error exception filled => .error exception ⟨state.own, filled.notAvailable⟩

/-- `captureComplexDBusProperty`. -/
def captureComplexDBusProperty (member : MemberName) (values : List FieldType) :
    EStateM Exception (Sharing DBusInstance) PUnit :=
  Fallible.forEach (fun value state =>
    captureChild (Instance.create state.own.serviceName state.own.objectPath state.own.dbusQuery)
      member (OrderedMap.empty.emplace member value) state) values

/-- The child of one association. -/
def captureAssociation (interface : InterfaceName) (association : DBusAssociation) :
    EStateM Exception (Sharing DBusInstance) PUnit := fun state =>
  captureChild (Instance.create state.own.serviceName association.2.2 state.own.dbusQuery)
    interface (DBusInstance.associationProperties association) state

/-- `captureDBusAssociations`. -/
def captureDBusAssociations (interface : InterfaceName) (associations : List DBusAssociation) :
    EStateM Exception (Sharing DBusInstance) PUnit := fun state =>
  Fallible.forEach (captureAssociation interface) associations
    { state with own := { state.own with complexInstances := OrderedMap.empty } }

/-- `resolveDBusVariant`. -/
def resolveDBusVariant (member : MemberName) :
    DbusVariant → EStateM Exception (Sharing DBusInstance) PUnit
  | .scalar value => supplementOrUpdateOwn member value
  | .complex (.strings values) => captureComplexDBusProperty member (values.map .string)
  | .complex (.doubles values) => captureComplexDBusProperty member (values.map .double)
  | .complex (.associations values) => captureDBusAssociations member values

/-- One entry of the property dictionary. -/
def fillDBusMember (properties : DBusPropertiesMap) (entry : PropertyName × MemberName) :
    EStateM Exception (Sharing DBusInstance) PUnit := fun state =>
  match properties.find? entry.1 with
  | none => .ok ⟨⟩ state
  | some value =>
      match state.own.dbusQuery.processFormatters entry.1 value with
      | .ok formatted => resolveDBusVariant entry.2 formatted state
      | .error exception => .error exception state

/-- `fillMembers`. -/
def fillDBusMembers (interface : InterfaceName) (properties : DBusPropertiesMap) :
    EStateM Exception (Sharing DBusInstance) PUnit := fun state =>
  Fallible.forEach (fillDBusMember properties)
    (state.own.dbusQuery.getPropertyMemberDict interface).entries state

theorem captureChild_eq (child : Instance) (interface : InterfaceName)
    (properties : OrderedMap PropertyName FieldType) :
    captureChild child interface properties =
      onOwn (DBusInstance.captureChild child interface properties) := by
  funext state
  simp only [captureChild, fillMembers_eq, onOwn, Fallible.zoom, DBusInstance.captureChild]
  cases child.fillMembers interface properties <;> rfl

theorem captureComplexDBusProperty_eq (member : MemberName) (values : List FieldType) :
    captureComplexDBusProperty member values =
      onOwn (DBusInstance.captureComplexDBusProperty member values) := by
  have hvalue : (fun value (state : Sharing DBusInstance) => captureChild
      (Instance.create state.own.serviceName state.own.objectPath state.own.dbusQuery) member
        (OrderedMap.empty.emplace member value) state) =
      fun value => onOwn fun inst => DBusInstance.captureChild
        (Instance.create inst.serviceName inst.objectPath inst.dbusQuery) member
          (OrderedMap.empty.emplace member value) inst := by
    funext value state
    rw [captureChild_eq]
    rfl
  exact (congrArg (Fallible.forEach · values) hvalue).trans (forEach_onOwn _ _)

theorem captureDBusAssociations_eq (interface : InterfaceName)
    (associations : List DBusAssociation) :
    captureDBusAssociations interface associations =
      onOwn (DBusInstance.captureDBusAssociations interface associations) := by
  have hassociation : captureAssociation interface =
      fun association => onOwn (DBusInstance.captureAssociation interface association) := by
    funext association state
    rw [captureAssociation, captureChild_eq]
    rfl
  funext state
  rw [captureDBusAssociations, hassociation, forEach_onOwn]
  rfl

theorem resolveDBusVariant_eq (member : MemberName) (value : DbusVariant) :
    resolveDBusVariant member value = onOwn (DBusInstance.resolveDBusVariant member value) := by
  cases value with
  | scalar value => exact supplementOrUpdateOwn_eq member value
  | complex value =>
      cases value with
      | associations values => exact captureDBusAssociations_eq member values
      | strings values => exact captureComplexDBusProperty_eq member _
      | doubles values => exact captureComplexDBusProperty_eq member _

/-- Filling an instance, whatever the properties, never writes to the shared object. -/
theorem fillDBusMembers_eq (interface : InterfaceName) (properties : DBusPropertiesMap) :
    fillDBusMembers interface properties =
      onOwn (DBusInstance.fillMembers interface properties) := by
  have hentry : fillDBusMember properties =
      fun entry => onOwn (DBusInstance.fillMember properties entry) := by
    funext entry state
    simp only [fillDBusMember, onOwn, Fallible.zoom, DBusInstance.fillMember]
    cases properties.find? entry.1 with
    | none => rfl
    | some value =>
        cases hformat : state.own.dbusQuery.processFormatters entry.1 value with
        | error exception => simp only [hformat]
        | ok formatted =>
            simp only [hformat, resolveDBusVariant_eq]
            rfl
  funext state
  rw [fillDBusMembers, hentry, forEach_onOwn]
  rfl

end Children

end Sharing

namespace NotFoundField

variable [StdHash]

/-- An instance that is published, or any other. -/
inductive Holder
  | published (entity : EntityId) (hash : ℕ)
  | detached (inst : DBusInstance)

/-- What writes to instances. -/
inductive Operation
  | setInstances (entity : EntityId) (instances : List DBusInstance)
  | fillMembers (holder : Holder) (interface : InterfaceName) (properties : DBusPropertiesMap)
  | initDefaultFieldsValue (holder : Holder)
  | supplementOrUpdate (holder : Holder) (member : MemberName) (value : FieldType)
  | getInstances (depth : ℕ) (entity : EntityId) (condition : Option Condition)

/-- The state an action leaves, also when it throws. -/
def left {ε σ α : Type} : EStateM.Result ε σ α → σ
  | .ok _ state => state
  | .error _ state => state

/-- Run an action on an instance and on the shared object of the store. -/
def onHolder (action : EStateM Exception (Sharing DBusInstance) PUnit) (store : EntityStore) :
    Holder → EntityStore
  | .detached inst =>
      { store with notAvailable := (left (action ⟨inst, store.notAvailable⟩)).notAvailable }
  | .published entity hash =>
      match (store.objects entity).instances.find? hash with
      | none => store
      | some inst =>
          let after := left (action ⟨inst, store.notAvailable⟩)
          { store.putInstance entity hash after.own with notAvailable := after.notAvailable }

def Operation.perform (store : EntityStore) : Operation → EntityStore
  | .setInstances entity instances => store.setInstances entity instances
  | .fillMembers holder interface properties =>
      onHolder (Sharing.fillDBusMembers interface properties) store holder
  | .initDefaultFieldsValue holder => onHolder Sharing.initDefaultFieldsValueOwn store holder
  | .supplementOrUpdate holder member value =>
      onHolder (Sharing.supplementOrUpdateOwn member value) store holder
  | .getInstances depth entity condition => left (Entities.getInstances depth entity condition store)

/-- The rule of the sensor status, whatever a destroyed name reads as, or that of the
server versions. -/
def StatusOrVersions (rule : ProviderLinkRule) : Prop :=
  (∃ read, rule = Sensors.linkStatusReading read) ∨ rule = Server.linkVersions

/-- The shared object still has its first value, and the rules are those two. -/
structure Unwritten (store : EntityStore) : Prop where
  notAvailable : store.notAvailable = .notAvailable
  linked : ∀ entity, ∀ provider ∈ (store.objects entity).providers, StatusOrVersions provider.2

/-- A run starts with the two rules linked and the shared object as it is made. -/
def machine : Machine EntityStore Operation :=
  .ofNext Unwritten fun store operation => some (operation.perform store)

omit [StdHash] in
theorem undisturbed : Undisturbed StatusOrVersions Unwritten where
  linked := Unwritten.linked
  putInstance := by
    intro store hstore entity hash inst
    refine ⟨hstore.notAvailable, fun other provider hprovider => ?_⟩
    rw [EntityStore.providers_putInstance] at hprovider
    exact hstore.linked other provider hprovider
  rule := by
    intro store hstore rule hrule supplementing target
    have hkeeps : KeepsNotAvailable rule := by
      rcases hrule with ⟨read, rfl⟩ | rfl
      · exact Sensors.linkStatusReading_keepsNotAvailable read
      · exact Server.linkVersions_keepsNotAvailable
    rw [hstore.notAvailable]
    exact (hkeeps supplementing target).imp fun link hlink => ⟨hlink, hstore.linked⟩

omit [StdHash] in
/-- An action on the instance alone leaves the shared object as it is. -/
theorem onHolder_unwritten (action : EStateM Exception DBusInstance PUnit) {store : EntityStore}
    (hstore : Unwritten store) (holder : Holder) :
    Unwritten (onHolder (Sharing.onOwn action) store holder) := by
  have hleft : ∀ inst, (left (Sharing.onOwn action ⟨inst, store.notAvailable⟩)).notAvailable =
      .notAvailable := by
    intro inst
    rw [Sharing.onOwn, Fallible.zoom]
    cases action inst <;> exact hstore.notAvailable
  cases holder with
  | detached inst => exact ⟨hleft inst, hstore.linked⟩
  | published entity hash =>
      rw [onHolder]
      cases (store.objects entity).instances.find? hash with
      | none => exact hstore
      | some inst => exact ⟨hleft inst, (undisturbed.putInstance hstore entity hash _).linked⟩

theorem perform_unwritten {store : EntityStore} (hstore : Unwritten store)
    (operation : Operation) : Unwritten (operation.perform store) := by
  cases operation with
  | setInstances entity instances =>
      refine ⟨hstore.notAvailable, fun other provider hprovider => ?_⟩
      rw [Operation.perform, EntityStore.providers_setInstances] at hprovider
      exact hstore.linked other provider hprovider
  | fillMembers holder interface properties =>
      rw [Operation.perform, Sharing.fillDBusMembers_eq]
      exact onHolder_unwritten _ hstore holder
  | initDefaultFieldsValue holder =>
      rw [Operation.perform, Sharing.initDefaultFieldsValueOwn_eq]
      exact onHolder_unwritten _ hstore holder
  | supplementOrUpdate holder member value =>
      rw [Operation.perform, Sharing.supplementOrUpdateOwn_eq]
      exact onHolder_unwritten _ hstore holder
  | getInstances depth entity condition =>
      have hleaves := undisturbed.getInstances depth entity condition hstore
      rw [Operation.perform]
      cases hresult : Entities.getInstances depth entity condition store with
      | ok instances after =>
          rw [hresult] at hleaves
          exact hleaves
      | error failure after =>
          rw [hresult] at hleaves
          exact hleaves

theorem unwritten_invariant : machine.Invariant Unwritten where
  start := id
  preserved := by
    intro store operation next hstore hstep
    obtain rfl : operation.perform store = next := Option.some.inj hstep
    exact perform_unwritten hstore operation

/-- In every reachable state an absent member reads as the shared object was made. -/
theorem absent_reads_notAvailable {store : EntityStore} (hreach : machine.Reachable store) :
    store.notAvailable = .string "N/A" ∧
    ∀ (inst : Instance) (member : MemberName), inst.hasField member = false →
      Instance.getField store.notAvailable inst member = .string "N/A" := by
  have hshared := (unwritten_invariant.of_reachable hreach).notAvailable
  refine ⟨hshared, fun inst member habsent => ?_⟩
  have hnone : inst.memberInstances.find? member = none := by
    simpa [Instance.hasField, OrderedMap.contains] using habsent
  rw [Instance.getField, hnone, hshared]
  rfl

/-- One sensor entity, to which a provider is linked by the status rule; destroyed names
read as they were. -/
def sampleStore : EntityStore where
  objects entity :=
    { name := "Sensors"
      members := OrderedMap.empty
      instances := OrderedMap.empty
      providers := if entity = 0 then [(1, Sensors.linkStatusReading fun name => some name.text)]
        else []
      named := named_empty }
  notAvailable := .notAvailable

omit [StdHash] in
theorem sampleStore_unwritten : Unwritten sampleStore where
  notAvailable := rfl
  linked := by
    intro entity provider hprovider
    simp only [sampleStore] at hprovider
    split_ifs at hprovider with hentity
    · rw [List.mem_singleton.mp hprovider]
      exact .inl ⟨fun name => some name.text, rfl⟩
    · cases hprovider

/-- A sensor, and a status object whose association names it. -/
def sampleOperations : List Operation :=
  [.setInstances 0 [DBusInstance.create "svc" "/s" Sensors.query],
    .setInstances 1 [DBusInstance.create "svc" "/fault" Status.query],
    .fillMembers (.published 1 0) Status.definitionInterface (OrderedMap.ofList
      [(Status.namePropertyAssociations, .complex (.associations [("Critical", "", "/s")]))]),
    .supplementOrUpdate (.detached (DBusInstance.create "svc" "/t" Sensors.query)) "Unit"
      (.string "Volts"),
    .getInstances 3 0 none]

omit [StdHash] in
/-- After an enumeration of the sensor its reading is still absent. -/
theorem absent_reads_notAvailable_sensor :
    ∃ (_ : StdHash) (store : EntityStore),
      sampleOperations.foldlM (fun store operation => some (operation.perform store)) sampleStore =
        some store ∧
      (store.objects 0).instances.values.map (fun inst =>
        (inst.hasField sensors.fieldValue,
          Instance.getField store.notAvailable inst.toInstance sensors.fieldValue)) =
        [(false, .string "N/A")] := by
  let hash : StdHash := ⟨64, fun _ => 0⟩
  obtain ⟨store, hrun⟩ : ∃ store, sampleOperations.foldlM
      (fun store operation => some (operation.perform store)) sampleStore = some store := ⟨_, rfl⟩
  have hreach : machine.Reachable store :=
    Machine.Reachable.of_foldlM sampleStore_unwritten hrun
  have hheld : (sampleOperations.foldlM
      (fun store operation => some (operation.perform store)) sampleStore).map (fun store =>
        (store.objects 0).instances.values.map fun inst => inst.hasField sensors.fieldValue) =
      some [false] := by decide
  rw [hrun] at hheld
  refine ⟨hash, store, hrun, ?_⟩
  obtain ⟨inst, hinst, habsent⟩ := List.map_eq_singleton_iff.mp (Option.some.inj hheld)
  rw [hinst, List.map_singleton, (absent_reads_notAvailable hreach).2 _ _ habsent, habsent]

end NotFoundField

end ObmcWebapp.Entities
