/-
# What the fields of the application can hold

The queries of the map have formatters, defaults and static fields, and two of the
entities have rules; nothing else writes a field. So whatever the bus delivers, the fields
of an object belong to few members, and some of them hold words of a fixed list: the unit
and the status of a sensor and the type of a chassis. The name of a sensor is made of its
path. This holds in every run in which no enumeration has undefined behaviour. One that
compares two known statuses has: what it writes into the status of a sensor is read from
a destroyed name, and a run stops there.

Some members are registered without anything that fills them, as the status of a chassis
or the endpoint of a baseboard. The provider of statuses has a field of no registered
member when its associations are not delivered as a list.
-/

import ObmcWebapp.Application.EntityMap
import ObmcWebapp.Entities.FieldLaws

namespace ObmcWebapp.Entities

open ObmcWebapp.Core definitions

/-- The words a dictionary with a default gives. -/
def wordsOf (words : OrderedMap String String) (default : String) : List String :=
  default :: words.values

theorem getD_mem_wordsOf (words : OrderedMap String String) (default wanted : String) :
    (words.find? wanted).getD default ∈ wordsOf words default := by
  cases hfound : words.find? wanted with
  | none => exact List.mem_cons_self ..
  | some word => exact List.mem_cons_of_mem _ (OrderedMap.mem_values_iff.mpr ⟨wanted, hfound⟩)

/-- A formatter that gives each string a word and rejects every other value. -/
structure FormatterFn.GivesWords (formatter : FormatterFn) (words : OrderedMap String String)
    (default : String) : Prop where
  onScalar : ∀ {property value formatted}, formatter.onScalar property value = .ok formatted →
    ∃ text, value = .string text ∧ formatted = .string ((words.find? text).getD default)
  onComplex : ∀ property value formatted, formatter.onComplex property value ≠ .ok formatted

theorem Sensors.formatSensorUnit_givesWords :
    formatSensorUnit.GivesWords sensorUnitsMap defaultUnitLabel where
  onScalar := by
    intro property value formatted hok
    cases value with
    | string text =>
        cases hok
        exact ⟨text, rfl, rfl⟩
    | _ => cases hok
  onComplex := nofun

theorem Chassis.formatChassisType_givesWords :
    formatChassisType.GivesWords chassisTypesNames chassisTypeOther where
  onScalar := by
    intro property value formatted hok
    cases value with
    | string text =>
        cases hok
        exact ⟨text, rfl, rfl⟩
    | _ => cases hok
  onComplex := nofun

/-- A property with such a formatter alone is delivered as a word. -/
theorem FormatterFn.GivesWords.formatted {formatter : FormatterFn}
    {words : OrderedMap String String} {default : String}
    (hwords : formatter.GivesWords words default) {query : DBusQuery} {property : PropertyName}
    (halone : query.formatters.find? property = some [formatter]) {value : DbusVariant}
    {formatted : FieldType}
    (hformat : query.processFormatters property value = .ok (.scalar formatted)) :
    ∃ word ∈ wordsOf words default, formatted = .string word := by
  rw [DBusQuery.processFormatters, halone] at hformat
  cases value with
  | complex value =>
      cases hresult : formatter.onComplex property value with
      | ok result => exact absurd hresult (hwords.onComplex property value result)
      | error exception =>
          simp [FormatterFn.invoke, hresult] at hformat
  | scalar value =>
      cases hresult : formatter.onScalar property value with
      | error exception =>
          simp [FormatterFn.invoke, hresult, Except.map] at hformat
      | ok result =>
          obtain ⟨text, -, rfl⟩ := hwords.onScalar hresult
          simp only [List.foldlM_cons, List.foldlM_nil, FormatterFn.invoke, hresult, Except.map,
            pure, Except.pure, bind, Except.bind, Except.ok.injEq, DbusVariant.scalar.injEq]
            at hformat
          exact ⟨_, getD_mem_wordsOf words default text, hformat.symm⟩

/-- A supplement that does not throw is an allowed update. -/
theorem Instance.supplement_eq_ok {inst after : Instance} {member : MemberName} {value : FieldType}
    (hok : inst.supplement member value = .ok after) :
    after = inst.supplementOrUpdate member value := by
  rw [Instance.supplement] at hok
  split_ifs at hok with hpresent
  cases hok
  rw [Instance.supplementOrUpdate, Instance.hasField, if_neg hpresent]

end ObmcWebapp.Entities

namespace ObmcWebapp.Application

open ObmcWebapp.Core ObmcWebapp.Entities definitions

/-- The query of an object; nothing is published for the others. -/
def queryOf (entity : EntityId) : DBusQuery :=
  match registration? entity with
  | some registration => registration.query.dbusQuery
  | none => ⟨OrderedMap.empty, OrderedMap.empty, OrderedMap.empty⟩

/-- The members static fields and rules write. -/
def suppliedMembers (entity : EntityId) : List MemberName :=
  if entity = sensorsEntity then [sensors.fieldName, status.fieldStatus]
  else if entity = serverEntity then [version.fieldVersionBios, version.fieldVersionBmc]
  else []

/-- The members that are ever filled, besides those every instance has. -/
def filledMembers (entity : EntityId) : List MemberName :=
  (queryOf entity).members ++ (queryOf entity).defaultFieldsValue.keys ++ suppliedMembers entity

/-- The words a member holds, if it holds words. -/
def vocabulary? (entity : EntityId) (member : MemberName) : Option (List String) :=
  if entity = sensorsEntity ∧ member = sensors.fieldUnit then
    some (wordsOf Sensors.sensorUnitsMap Sensors.defaultUnitLabel)
  else if entity = sensorsEntity ∧ member = status.fieldStatus then
    some [Status.statusOK]
  else if entity = chassisEntity ∧ member = fieldType then
    some (wordsOf Chassis.chassisTypesNames Chassis.chassisTypeOther)
  else none

/-- What a member of an object under a path may hold. -/
structure MapLaw (entity : EntityId) (path : ObjectPath) (member : MemberName)
    (value : FieldType) : Prop where
  filled : member ∈ filledMembers entity
  word : ∀ words, vocabulary? entity member = some words → ∃ word ∈ words, value = .string word
  name : entity = sensorsEntity → member = sensors.fieldName →
    ∃ name, getNameFromLastSegmentObjectPath path = .ok name ∧ value = .string name

theorem mem_members_of_dict {query : DBusQuery} {interface : InterfaceName}
    {entry : PropertyName × MemberName}
    (hentry : entry ∈ (query.getPropertyMemberDict interface).entries) : entry.2 ∈ query.members := by
  obtain ⟨dict, hdict, hmem⟩ := DBusQuery.mem_entries_of_dict hentry
  exact List.mem_flatMap.mpr ⟨(interface, dict), hdict, List.mem_map_of_mem hmem⟩

theorem queryOf_distinct (entity : EntityId) : (queryOf entity).DistinctMembers := by
  rw [queryOf]
  cases hregistration : registration? entity with
  | none => decide
  | some registration => exact (wellNamed_registration hregistration).distinct

theorem filled_of_members {entity : EntityId} {member : MemberName}
    (hmember : member ∈ (queryOf entity).members) : member ∈ filledMembers entity :=
  List.mem_append_left _ (List.mem_append_left _ hmember)

/-- The words of the members a dictionary or a default fills. -/
theorem allows_property {entity : EntityId} {interface : InterfaceName}
    {entry : PropertyName × MemberName}
    (hentry : entry ∈ ((queryOf entity).getPropertyMemberDict interface).entries)
    {value : DbusVariant} {formatted : FieldType}
    (hformat : (queryOf entity).processFormatters entry.1 value = .ok (.scalar formatted))
    (hword : ∀ words, vocabulary? entity entry.2 = some words →
      ∃ formatter dictionary default, (queryOf entity).formatters.find? entry.1 =
        some [formatter] ∧ formatter.GivesWords dictionary default ∧
        words = wordsOf dictionary default)
    (hname : entity = sensorsEntity → entry.2 ≠ sensors.fieldName) (path : ObjectPath) :
    FieldLaw.Allows (MapLaw entity) path entry.2 formatted where
  ne_path := ((queryOf_distinct entity).ne_meta hentry).1
  ne_service := ((queryOf_distinct entity).ne_meta hentry).2
  law := by
    refine ⟨filled_of_members (mem_members_of_dict hentry), ?_, ?_⟩
    · intro words hwords
      obtain ⟨formatter, dictionary, default, halone, hgives, rfl⟩ := hword words hwords
      exact hgives.formatted halone hformat
    · exact fun hentity hsame => absurd hsame (hname hentity)

/-- The only default is the status that nothing is known against. -/
theorem defaults_status (entity : EntityId) :
    ∀ field ∈ (queryOf entity).defaultFieldsValue.entries,
      field = (status.fieldStatus, .string Status.statusOK) := by
  match entity with
  | 0 => decide
  | 1 => decide
  | 2 => decide
  | 3 => decide
  | 4 => decide
  | 5 => decide
  | 6 => decide
  | entity + 7 => exact nofun

/-- A property that is delivered as a word, and the names that no property is. -/
theorem worded_properties {entity : EntityId} {interface : InterfaceName}
    {entry : PropertyName × MemberName}
    (hentry : entry ∈ ((queryOf entity).getPropertyMemberDict interface).entries) :
    (entity = sensorsEntity →
      (vocabulary? entity entry.2 ≠ none →
        entry = (Sensors.namePropertyUnit, sensors.fieldUnit)) ∧ entry.2 ≠ sensors.fieldName) ∧
    (entity = chassisEntity → vocabulary? entity entry.2 ≠ none →
      entry = (Chassis.namePropertyType, fieldType)) := by
  have hsensors : ∀ interface ∈ (queryOf sensorsEntity).searchPropertiesMap.entries,
      ∀ entry ∈ interface.2.entries, (vocabulary? sensorsEntity entry.2 ≠ none →
        entry = (Sensors.namePropertyUnit, sensors.fieldUnit)) ∧
          entry.2 ≠ sensors.fieldName := by decide
  have hchassis : ∀ interface ∈ (queryOf chassisEntity).searchPropertiesMap.entries,
      ∀ entry ∈ interface.2.entries, vocabulary? chassisEntity entry.2 ≠ none →
        entry = (Chassis.namePropertyType, fieldType) := by decide
  obtain ⟨dict, hdict, hmem⟩ := DBusQuery.mem_entries_of_dict hentry
  constructor
  · rintro rfl
    exact hsensors (interface, dict) hdict entry hmem
  · rintro rfl
    exact hchassis (interface, dict) hdict entry hmem

/-- Every query of the map is under the law. -/
theorem under_mapLaw (entity : EntityId) : (queryOf entity).Under (MapLaw entity) where
  default := by
    intro field hfield path
    have hkey : field.1 ∈ filledMembers entity :=
      List.mem_append_left _ (List.mem_append_right _ (List.mem_map_of_mem hfield))
    obtain rfl := defaults_status entity field hfield
    refine ⟨by decide, by decide, hkey, ?_, ?_⟩
    · intro words hwords
      rw [vocabulary?] at hwords
      split_ifs at hwords with hunit hstatus htype
      · exact absurd hunit.2 (by decide)
      · cases hwords
        exact ⟨Status.statusOK, List.mem_cons_self .., rfl⟩
      · exact absurd htype.2 (by decide)
    · exact fun _ hname => absurd hname (by decide)
  property := by
    intro interface entry hentry value formatted hformat path
    obtain ⟨hsensors, hchassis⟩ := worded_properties hentry
    apply allows_property hentry hformat
    · intro words hwords
      have hsome : vocabulary? entity entry.2 ≠ none := by simp [hwords]
      by_cases hentity : entity = sensorsEntity
      · obtain rfl := (hsensors hentity).1 hsome
        subst hentity
        exact ⟨_, _, _, rfl, Sensors.formatSensorUnit_givesWords, (Option.some.inj hwords).symm⟩
      · by_cases hentity' : entity = chassisEntity
        · obtain rfl := hchassis hentity' hsome
          subst hentity'
          exact ⟨_, _, _, rfl, Chassis.formatChassisType_givesWords, (Option.some.inj hwords).symm⟩
        · simp [vocabulary?, hentity, hentity'] at hsome
    · exact fun hentity => (hsensors hentity).2

/-- The name of a sensor is added as the law says; the other queries add nothing. -/
theorem static_mapLaw [StdHash] {entity : EntityId} {registration : Registration}
    (hregistration : registration? entity = some registration) :
    registration.query.StaticUnder (MapLaw entity) := by
  by_cases hentity : entity = sensorsEntity
  · subst hentity
    cases hregistration
    intro inst after hobeys hok
    change Sensors.setSensorName inst = .ok after at hok
    rw [Sensors.setSensorName] at hok
    cases hname : getNameFromLastSegmentObjectPath inst.objectPath with
    | error exception =>
        rw [hname] at hok
        cases hok
    | ok name =>
        rw [hname] at hok
        cases hsupplement : inst.toInstance.supplement sensors.fieldName (.string name) with
        | error exception => simp [hsupplement, bind, Except.bind] at hok
        | ok supplemented =>
            simp only [hsupplement, bind, Except.bind, pure, Except.pure] at hok
            cases hok
            obtain rfl := Instance.supplement_eq_ok hsupplement
            refine ⟨hobeys.self.supplementOrUpdate ⟨by decide, by decide, ?_⟩, hobeys.children⟩
            refine ⟨by decide, ?_, fun _ _ => ⟨name, hname, rfl⟩⟩
            have hnone : vocabulary? sensorsEntity sensors.fieldName = none := by decide
            intro words hwords
            rw [hnone] at hwords
            cases hwords
  · have hstatic : registration.query.supplementByStaticFields = Except.ok := by
      unfold registration? at hregistration
      split at hregistration
      case h_4 => exact absurd rfl hentity
      all_goals cases hregistration
      all_goals rfl
    intro inst after hobeys hok
    rw [hstatic] at hok
    cases hok
    exact hobeys

/-- The status rule writes nothing before it fails. -/
theorem linkStatus_keepsLaw :
    KeepsLaw (MapLaw sensorsEntity) (queryOf sensorsEntity) Sensors.linkStatus := by
  intro supplementing target hobeys
  apply (Sensors.linkStatus_leaves supplementing ⟨target, .notAvailable⟩).imp
  rintro left rfl
  exact ⟨rfl, hobeys⟩

/-- The version rule writes one of the two versions of the server. -/
theorem linkVersions_keepsLaw :
    KeepsLaw (MapLaw serverEntity) (queryOf serverEntity) Server.linkVersions := by
  have hwritten : ∀ purpose member, Server.purposeToMemberName purpose = some member → ∀ path value,
      FieldLaw.Allows (MapLaw serverEntity) path member value := by
    intro purpose member hmember path value
    have hnone : vocabulary? serverEntity member = none := by
      rw [vocabulary?, if_neg (by simp [serverEntity, sensorsEntity]),
        if_neg (by simp [serverEntity, sensorsEntity]),
        if_neg (by simp [serverEntity, chassisEntity])]
    have hword : ∀ words, vocabulary? serverEntity member = some words →
        ∃ word ∈ words, value = .string word := by
      intro words hwords
      rw [hnone] at hwords
      cases hwords
    have hsensors : serverEntity ≠ sensorsEntity := by decide
    cases purpose with
    | bmc =>
        cases hmember
        exact ⟨by decide, by decide, by decide, hword, fun hentity => absurd hentity hsensors⟩
    | bios =>
        cases hmember
        exact ⟨by decide, by decide, by decide, hword, fun hentity => absurd hentity hsensors⟩
    | unknown => cases hmember
  intro supplementing target hobeys
  rw [Server.linkVersions_eq]
  refine ⟨rfl, ?_⟩
  cases hupdate : Server.versionUpdate supplementing with
  | none => exact hobeys
  | some update =>
      rw [Server.versionUpdate] at hupdate
      cases hpurpose : Version.getPurpose .notAvailable supplementing with
      | error exception =>
          rw [hpurpose] at hupdate
          cases hupdate
      | ok purpose =>
          rw [hpurpose] at hupdate
          obtain ⟨member, hmember, rfl⟩ := Option.map_eq_some_iff.mp hupdate
          have hupdated := hobeys.supplementOrUpdate (hwritten purpose member hmember _
            (Instance.getField .notAvailable supplementing version.fieldVersion))
          rw [Instance.supplementOrUpdate_eq] at hupdated
          show Obeys _ _ { target with memberInstances := (Instance.supplementOrUpdate target member
            (Instance.getField .notAvailable supplementing version.fieldVersion)).memberInstances }
          rwa [Instance.supplementOrUpdate_eq]

section Runs

variable [StdHash] {store : EntityStore}

omit [StdHash] in
theorem queryOf_registration {entity : EntityId} {registration : Registration}
    (hregistration : registration? entity = some registration) :
    queryOf entity = registration.query.dbusQuery := by
  rw [queryOf, hregistration]

omit [StdHash] in
theorem initEntityMap_under : initEntityMap.Under MapLaw queryOf where
  published := by
    intro entity hash inst hfound
    have hempty : (registeredEntity entity).instances = OrderedMap.empty := by
      rw [registeredEntity]
      cases registration? entity <;> rfl
    change (registeredEntity entity).instances.find? hash = some inst at hfound
    rw [hempty] at hfound
    cases hfound
  linked := by
    intro entity provider hprovider
    change provider ∈ (registeredEntity entity).providers at hprovider
    rcases providers_cases entity with ⟨hnone, -⟩ | ⟨rfl, hsensors⟩ | ⟨rfl, hserver⟩
    · rw [hnone] at hprovider
      cases hprovider
    · rw [hsensors, List.mem_singleton] at hprovider
      rw [hprovider]
      exact linkStatus_keepsLaw
    · rw [hserver, List.mem_singleton] at hprovider
      rw [hprovider]
      exact linkVersions_keepsLaw
  notAvailable := rfl

/-- Every reachable store is under the law of the map. -/
theorem under_of_reachable (hreach : storeMachine.Reachable store) :
    store.Under MapLaw queryOf := by
  apply (storeMachine_invariant initEntityMap_under _ _ _).of_reachable hreach
  · intro store entity registration replies instances hunder hregistration hprocess
    have hquery := queryOf_registration hregistration
    have hcreated := EntityQuery.process_obeys (hquery ▸ under_mapLaw entity)
      (static_mapLaw hregistration) hprocess
    apply hunder.withInstances
    intro hash inst hfound
    rw [hquery]
    apply hcreated inst
    have hindex : instances.foldl (fun stored inst => stored.insertOrAssign inst.getHash inst)
        OrderedMap.empty = OrderedMap.index (fun inst => inst.getHash) instances := by
      simp [OrderedMap.index, OrderedMap.assignAll]
    rw [hindex] at hfound
    exact OrderedMap.mem_of_mem_values_index (OrderedMap.mem_values_iff.mpr ⟨hash, hfound⟩)
  · intro store entity hash interface changed inst filled hunder hfound hfill
    have hfilled := (hunder.published hfound).fillMembers (under_mapLaw entity) interface changed
    rw [hfill] at hfilled
    exact hunder.putInstance hash hfilled
  · exact fun depth entity condition store hunder =>
      (getInstances_under under_mapLaw depth entity condition hunder).leaves

omit [StdHash] in
/-- Every member that is ever filled is registered, but for the associations that are not
delivered as a list. -/
theorem filled_registered (entity : EntityId) {member : MemberName}
    (hfilled : member ∈ filledMembers entity) :
    (registeredEntity entity).members.contains member = true ∨
      entity = statusProvider ∧ member = relations.fieldAssociations := by
  revert member
  match entity with
  | 0 => decide
  | 1 => decide
  | 2 => decide
  | 3 => decide
  | 4 => decide
  | 5 => decide
  | 6 => decide
  | entity + 7 => exact nofun

/-- The members that are registered without anything that fills them. -/
def neverFilled (entity : EntityId) : List MemberName :=
  ((registeredEntity entity).members.keys).filter fun member =>
    member ∉ metaObjectPath :: metaObjectService :: filledMembers entity

example : neverFilled relationsEntity = [relations.fieldDestination, relations.fieldSource] ∧
    neverFilled chassisEntity = [status.fieldStatus] ∧
    neverFilled baseboardEntity = [relations.fieldEndpoint, status.fieldStatus] := by decide

/-- What every instance of an object is like. -/
structure Lawful (entity : EntityId) (inst : Instance) : Prop where
  objectPath : inst.memberInstances.find? metaObjectPath = some (.string inst.objectPath)
  objectService : inst.memberInstances.find? metaObjectService = some (.string inst.serviceName)
  registered : ∀ member, inst.hasField member = true → member ∈ metaMembers ∨
    (registeredEntity entity).members.contains member = true ∨
      entity = statusProvider ∧ member = relations.fieldAssociations
  word : ∀ {member words value}, vocabulary? entity member = some words →
    inst.memberInstances.find? member = some value → ∃ word ∈ words, value = .string word
  sensorName : entity = sensorsEntity → ∀ value,
    inst.memberInstances.find? sensors.fieldName = some value →
    ∃ name, getNameFromLastSegmentObjectPath inst.objectPath = .ok name ∧ value = .string name
  neverFilled : ∀ member ∈ neverFilled entity,
    Instance.getField .notAvailable inst member = .notAvailable

omit [StdHash] in
/-- Words are held by members of the entities only. -/
theorem ne_meta_of_vocabulary {entity : EntityId} {member : MemberName} {words : List String}
    (hwords : vocabulary? entity member = some words) :
    member ≠ metaObjectPath ∧ member ≠ metaObjectService := by
  rw [vocabulary?] at hwords
  split_ifs at hwords with hunit hstatus htype
  · rw [hunit.2]
    decide
  · rw [hstatus.2]
    decide
  · rw [htype.2]
    decide

omit [StdHash] in
theorem lawful_of_obeys {entity : EntityId} {inst : Instance}
    (hobeys : Obeys (MapLaw entity) (queryOf entity) inst) : Lawful entity inst where
  objectPath := hobeys.objectPath
  objectService := hobeys.objectService
  registered := by
    intro member hfield
    rw [Instance.hasField, OrderedMap.contains, Option.isSome_iff_exists] at hfield
    obtain ⟨value, hvalue⟩ := hfield
    by_cases hmeta : member ∈ metaMembers
    · exact .inl hmeta
    · rw [metaMembers, List.mem_cons, List.mem_singleton, not_or] at hmeta
      exact .inr (filled_registered entity (hobeys.fields hmeta.1 hmeta.2 hvalue).filled)
  word := by
    intro member words value hwords hvalue
    obtain ⟨hpath, hservice⟩ := ne_meta_of_vocabulary hwords
    exact (hobeys.fields hpath hservice hvalue).word words hwords
  sensorName := fun hentity value hvalue =>
    (hobeys.fields (by decide) (by decide) hvalue).name hentity rfl
  neverFilled := by
    intro member hmember
    obtain ⟨-, hnever⟩ := List.mem_filter.mp hmember
    rw [decide_eq_true_eq, List.mem_cons, List.mem_cons, not_or, not_or] at hnever
    rw [Instance.getField]
    cases hvalue : inst.memberInstances.find? member with
    | none => rfl
    | some value =>
        exact absurd (hobeys.fields hnever.1 hnever.2.1 hvalue).filled hnever.2.2

/-- In every reachable store the published instances, their children and whatever an
enumeration shows are lawful. -/
theorem lawful_of_reachable (hreach : storeMachine.Reachable store) :
    (∀ entity hash inst, (store.objects entity).instances.find? hash = some inst →
      Lawful entity inst.toInstance ∧
      ∀ key child, inst.complexInstances.find? key = some child → Lawful entity child) ∧
    ∀ depth entity condition shown after,
      getInstances depth entity condition store = .ok shown after →
      ∀ inst ∈ shown, Lawful entity inst := by
  have hunder := under_of_reachable hreach
  constructor
  · intro entity hash inst hfound
    have hobeys := hunder.published hfound
    exact ⟨lawful_of_obeys hobeys.self, fun key child hchild =>
      lawful_of_obeys (hobeys.children hchild)⟩
  · intro depth entity condition shown after hshown inst hmem
    have hreturns := getInstances_under under_mapLaw depth entity condition hunder
    rw [hshown] at hreturns
    exact lawful_of_obeys (hreturns.1 inst hmem)

/-- The bus has one sensor, of a temperature. -/
def oneSensor : BusReplies where
  getSubTree := .ok [("/xyz/openbmc_project/sensors/temperature/cpu_0",
    [("xyz.openbmc_project.Hwmon", [Sensors.sensorValueInterface])])]
  getAll _ _ _ := OrderedMap.ofList [(Sensors.namePropertyUnit,
    .scalar (.string "xyz.openbmc_project.Sensor.Value.Unit.DegreesC"))]
  getManagedObjects _ := .ok []

omit [StdHash] in
theorem lawful_of_reachable_oneSensor :
    let _ : StdHash := ⟨64, fun _ => 0⟩
    ∃ store hash inst, storeMachine.Reachable store ∧
      (store.objects sensorsEntity).instances.find? hash = some inst ∧
      inst.memberInstances.find? sensors.fieldUnit = some (.string "°C") ∧
      Lawful sensorsEntity inst.toInstance := by
  intro _
  obtain ⟨inst, hprocess, hunit⟩ : ∃ inst, Sensors.entityQuery.process oneSensor = .ok [inst] ∧
      inst.memberInstances.find? sensors.fieldUnit = some (.string "°C") := ⟨_, rfl, rfl⟩
  have hreach : storeMachine.Reachable (initEntityMap.setInstances sensorsEntity [inst]) :=
    (Machine.Reachable.start rfl).next (.publish rfl hprocess)
  have hfound : ((initEntityMap.setInstances sensorsEntity [inst]).objects
      sensorsEntity).instances.find? inst.getHash = some inst := by
    rw [instances_setInstances, OrderedMap.find?_index]
    simp
  exact ⟨_, _, inst, hreach, hfound, hunit, ((lawful_of_reachable hreach).1 _ _ _ hfound).1⟩

end Runs

end ObmcWebapp.Application
