/-
# D-Bus instances

An instance is one object of one service with its fields. A list valued property
is split over child instances, kept by the parent under their hashes. Two
instances count as the same when their hashes agree; the hash of a string is the
platform's.

A formatter of a scalar yields a scalar, so a child, which is filled from scalars
only, has no children of its own. The instance itself may be filled from any
D-Bus value.
-/

import ObmcWebapp.Entities.Field
import ObmcWebapp.Library.Fallible

namespace ObmcWebapp.Entities

open ObmcWebapp.Core definitions

/-- `std::hash<std::string>` with the width of `std::size_t`. -/
class StdHash where
  width : ℕ
  hash : String → BitVec width

/-- The hash of an object of a service. -/
def objectHash [StdHash] (serviceName objectPath : String) : ℕ :=
  (StdHash.hash objectPath ^^^ (StdHash.hash serviceName <<< 1)).toNat

/-- A property formatter, by the kind of value it is given. -/
structure FormatterFn where
  onScalar : PropertyName → FieldType → Except Exception FieldType
  onComplex : PropertyName → ComplexVariant → Except Exception DbusVariant

def FormatterFn.invoke (formatter : FormatterFn) (property : PropertyName) :
    DbusVariant → Except Exception DbusVariant
  | .scalar value => (formatter.onScalar property value).map .scalar
  | .complex value => formatter.onComplex property value

/-- The part of a query that its instances read. -/
structure DBusQuery where
  /-- For each interface, the member each of its properties is kept under. -/
  searchPropertiesMap : OrderedMap InterfaceName (OrderedMap PropertyName MemberName)
  formatters : OrderedMap PropertyName (List FormatterFn)
  defaultFieldsValue : OrderedMap MemberName FieldType

namespace DBusQuery

/-- Apply the formatters of a property in order. -/
def processFormatters (query : DBusQuery) (property : PropertyName) (value : DbusVariant) :
    Except Exception DbusVariant :=
  match query.formatters.find? property with
  | none => .ok value
  | some formatters =>
      formatters.foldlM
        (fun formatted (formatter : FormatterFn) => formatter.invoke property formatted) value

/-- `processFormatters` on a scalar. -/
def processScalarFormatters (query : DBusQuery) (property : PropertyName) (value : FieldType) :
    Except Exception FieldType :=
  match query.formatters.find? property with
  | none => .ok value
  | some formatters =>
      formatters.foldlM
        (fun formatted (formatter : FormatterFn) => formatter.onScalar property formatted) value

/-- A property without formatters keeps its value, as if it had an empty list of them. -/
theorem processFormatters_eq (query : DBusQuery) (property : PropertyName) (value : DbusVariant) :
    query.processFormatters property value = ((query.formatters.find? property).getD []).foldlM
      (fun formatted (formatter : FormatterFn) => formatter.invoke property formatted) value := by
  unfold processFormatters
  cases query.formatters.find? property <;> rfl

theorem foldlM_invoke_scalar (property : PropertyName) (formatters : List FormatterFn)
    (value : FieldType) :
    formatters.foldlM
        (fun formatted (formatter : FormatterFn) => formatter.invoke property formatted)
        (DbusVariant.scalar value) =
      (formatters.foldlM
        (fun formatted (formatter : FormatterFn) => formatter.onScalar property formatted)
        value).map .scalar := by
  induction formatters generalizing value with
  | nil => rfl
  | cons formatter formatters ih =>
      simp only [List.foldlM_cons, FormatterFn.invoke]
      cases hfirst : formatter.onScalar property value with
      | error exception => rfl
      | ok formatted => exact ih formatted

/-- On a scalar the two formatter folds are one. -/
theorem processFormatters_scalar (query : DBusQuery) (property : PropertyName)
    (value : FieldType) :
    query.processFormatters property (.scalar value) =
      (query.processScalarFormatters property value).map .scalar := by
  unfold processFormatters processScalarFormatters
  cases query.formatters.find? property with
  | none => rfl
  | some formatters => exact foldlM_invoke_scalar property formatters value

/-- `getPropertyMemberDict`: the empty dictionary for an unknown interface. -/
def getPropertyMemberDict (query : DBusQuery) (interface : InterfaceName) :
    OrderedMap PropertyName MemberName :=
  (query.searchPropertiesMap.find? interface).getD OrderedMap.empty

end DBusQuery

/-- One object of one service with the fields read so far. -/
structure Instance where
  serviceName : String
  objectPath : String
  dbusQuery : DBusQuery
  memberInstances : OrderedMap MemberName FieldType

namespace Instance

/-- `supplement`, which throws when the member is already there. -/
def supplement (inst : Instance) (member : MemberName) (value : FieldType) :
    Except Exception Instance :=
  if inst.memberInstances.contains member then
    .error (.logicError ("The requested member '" ++ member ++ "' already registried."))
  else .ok { inst with memberInstances := inst.memberInstances.emplace member value }

/-- The constructor; its two supplements start from no member and cannot throw. -/
def create (serviceName objectPath : String) (query : DBusQuery) : Instance where
  serviceName := serviceName
  objectPath := objectPath
  dbusQuery := query
  memberInstances :=
    (OrderedMap.empty.emplace metaObjectPath (.string objectPath)).emplace
      metaObjectService (.string serviceName)

def hasField (inst : Instance) (member : MemberName) : Bool :=
  inst.memberInstances.contains member

/-- `getField(member)->getValue()`, where `notAvailable` is the value of the field
object shared by all absent members. -/
def getField (notAvailable : FieldType) (inst : Instance) (member : MemberName) : FieldType :=
  (inst.memberInstances.find? member).getD notAvailable

/-- `supplementOrUpdate`: set the field the instance has, or add it. -/
def supplementOrUpdate (inst : Instance) (member : MemberName) (value : FieldType) : Instance :=
  if inst.hasField member then
    { inst with memberInstances := inst.memberInstances.insertOrAssign member value }
  else { inst with memberInstances := inst.memberInstances.emplace member value }

/-- Either branch of `supplementOrUpdate` stores the value under the member. -/
theorem supplementOrUpdate_eq (inst : Instance) (member : MemberName) (value : FieldType) :
    inst.supplementOrUpdate member value =
      { inst with memberInstances := inst.memberInstances.insertOrAssign member value } := by
  unfold supplementOrUpdate
  split_ifs with hfield
  · rfl
  · rw [OrderedMap.emplace_of_absent value (Bool.eq_false_iff.mpr hfield)]

/-- `getHash`. -/
def getHash [StdHash] (inst : Instance) : ℕ := objectHash inst.serviceName inst.objectPath

/-- `initDefaultFieldsValue`. -/
def initDefaultFieldsValue (inst : Instance) : Instance :=
  inst.dbusQuery.defaultFieldsValue.entries.foldl
    (fun inst field => inst.supplementOrUpdate field.1 field.2) inst

/-- One entry of the property dictionary: format the property if it was delivered
and keep it under its member. -/
def fillMember (properties : OrderedMap PropertyName FieldType)
    (entry : PropertyName × MemberName) : EStateM Exception Instance PUnit := fun inst =>
  match properties.find? entry.1 with
  | none => .ok ⟨⟩ inst
  | some value =>
      match inst.dbusQuery.processScalarFormatters entry.1 value with
      | .ok formatted => .ok ⟨⟩ (inst.supplementOrUpdate entry.2 formatted)
      | .error exception => .error exception inst

/-- `fillMembers` of an instance whose properties are all scalars. -/
def fillMembers (interface : InterfaceName) (properties : OrderedMap PropertyName FieldType) :
    EStateM Exception Instance PUnit := fun inst =>
  Fallible.forEach (fillMember properties)
    (inst.dbusQuery.getPropertyMemberDict interface).entries inst

@[simp]
theorem supplementOrUpdate_objectPath (inst : Instance) (member : MemberName)
    (value : FieldType) : (inst.supplementOrUpdate member value).objectPath = inst.objectPath := by
  rw [supplementOrUpdate_eq]

@[simp]
theorem supplementOrUpdate_serviceName (inst : Instance) (member : MemberName)
    (value : FieldType) :
    (inst.supplementOrUpdate member value).serviceName = inst.serviceName := by
  rw [supplementOrUpdate_eq]

@[simp]
theorem supplementOrUpdate_dbusQuery (inst : Instance) (member : MemberName)
    (value : FieldType) : (inst.supplementOrUpdate member value).dbusQuery = inst.dbusQuery := by
  rw [supplementOrUpdate_eq]

@[simp]
theorem find?_supplementOrUpdate (inst : Instance) (member wanted : MemberName)
    (value : FieldType) :
    (inst.supplementOrUpdate member value).memberInstances.find? wanted =
      if wanted = member then some value else inst.memberInstances.find? wanted := by
  rw [supplementOrUpdate_eq]
  simp

/-- The reset of an instance whose query has one default. -/
theorem initDefaultFieldsValue_single {inst : Instance} {name : MemberName} {value : FieldType}
    (hdefault : inst.dbusQuery.defaultFieldsValue.entries = [(name, value)]) :
    inst.initDefaultFieldsValue = inst.supplementOrUpdate name value := by
  rw [initDefaultFieldsValue, hdefault]
  rfl

/-- After a reset the defaults hide what the fields held before. -/
@[simp]
theorem find?_initDefaultFieldsValue (inst : Instance) (wanted : MemberName) :
    inst.initDefaultFieldsValue.memberInstances.find? wanted =
      (inst.dbusQuery.defaultFieldsValue.find? wanted).or (inst.memberInstances.find? wanted) := by
  have hfold : ∀ (fields : List (MemberName × FieldType)), Entries.Sorted fields →
      ∀ start : Instance, (fields.foldl
        (fun inst field => inst.supplementOrUpdate field.1 field.2) start).memberInstances.find?
          wanted = (fields.lookup wanted).or (start.memberInstances.find? wanted) := by
    intro fields
    induction fields with
    | nil => exact fun _ start => rfl
    | cons field fields ih =>
        intro hsorted start
        rw [List.foldl_cons, ih hsorted.of_cons, find?_supplementOrUpdate, Entries.lookup_cons]
        by_cases hwanted : wanted = field.1
        · -- no later default has the same member
          have hlater : fields.lookup wanted = none := by
            rw [Entries.lookup_eq_none_iff]
            intro later hmem heq
            have hlt := List.rel_of_pairwise_cons hsorted hmem
            exact absurd (heq.trans hwanted) (ne_of_gt hlt)
          rw [if_pos hwanted, if_pos hwanted, hlater]
          rfl
        · rw [if_neg hwanted, if_neg hwanted]
  exact hfold _ inst.dbusQuery.defaultFieldsValue.sorted inst

end Instance

/-- An instance together with the children of its list valued properties. -/
structure DBusInstance extends Instance where
  complexInstances : OrderedMap ℕ Instance

namespace DBusInstance

variable [StdHash]

def create (serviceName objectPath : String) (query : DBusQuery) : DBusInstance where
  toInstance := Instance.create serviceName objectPath query
  complexInstances := OrderedMap.empty

/-- Store a child under its hash, replacing a child of the same hash. -/
def insertComplex (inst : DBusInstance) (child : Instance) : DBusInstance :=
  { inst with complexInstances := inst.complexInstances.insertOrAssign child.getHash child }

/-- Build a child, fill it, and store it unless filling throws. -/
def captureChild (child : Instance) (interface : InterfaceName)
    (properties : OrderedMap PropertyName FieldType) : EStateM Exception DBusInstance PUnit :=
  fun inst =>
    match child.fillMembers interface properties with
    | .ok _ filled => .ok ⟨⟩ (inst.insertComplex filled)
    | .error exception _ => .error exception inst

/-- `captureComplexDBusProperty`: one child of the same object for each element. -/
def captureComplexDBusProperty (member : MemberName) (values : List FieldType) :
    EStateM Exception DBusInstance PUnit :=
  Fallible.forEach (fun value inst =>
    captureChild (Instance.create inst.serviceName inst.objectPath inst.dbusQuery) member
      (OrderedMap.empty.emplace member value) inst) values

/-- The properties a child of one association is filled from. -/
def associationProperties (association : DBusAssociation) : OrderedMap PropertyName FieldType :=
  OrderedMap.ofList
    [(relations.fieldSource, .string association.1),
      (relations.fieldDestination, .string association.2.1),
      (relations.fieldEndpoint, .string association.2.2)]

/-- The child of one association: the instance of its endpoint. -/
def captureAssociation (interface : InterfaceName) (association : DBusAssociation) :
    EStateM Exception DBusInstance PUnit := fun inst =>
  captureChild (Instance.create inst.serviceName association.2.2 inst.dbusQuery) interface
    (associationProperties association) inst

/-- `captureDBusAssociations`: drop the children and add one for each association. -/
def captureDBusAssociations (interface : InterfaceName) (associations : List DBusAssociation) :
    EStateM Exception DBusInstance PUnit := fun inst =>
  Fallible.forEach (captureAssociation interface) associations
    { inst with complexInstances := OrderedMap.empty }

/-- `resolveDBusVariant`. -/
def resolveDBusVariant (member : MemberName) : DbusVariant → EStateM Exception DBusInstance PUnit
  | .scalar value => fun inst =>
      .ok ⟨⟩ { inst with toInstance := inst.toInstance.supplementOrUpdate member value }
  | .complex (.strings values) => captureComplexDBusProperty member (values.map .string)
  | .complex (.doubles values) => captureComplexDBusProperty member (values.map .double)
  | .complex (.associations values) => captureDBusAssociations member values

/-- One entry of the property dictionary. -/
def fillMember (properties : DBusPropertiesMap) (entry : PropertyName × MemberName) :
    EStateM Exception DBusInstance PUnit := fun inst =>
  match properties.find? entry.1 with
  | none => .ok ⟨⟩ inst
  | some value =>
      match inst.dbusQuery.processFormatters entry.1 value with
      | .ok formatted => resolveDBusVariant entry.2 formatted inst
      | .error exception => .error exception inst

/-- `fillMembers`. -/
def fillMembers (interface : InterfaceName) (properties : DBusPropertiesMap) :
    EStateM Exception DBusInstance PUnit := fun inst =>
  Fallible.forEach (fillMember properties)
    (inst.dbusQuery.getPropertyMemberDict interface).entries inst

/-- `initDefaultFieldsValue`. -/
def initDefaultFieldsValue (inst : DBusInstance) : DBusInstance :=
  { inst with toInstance := inst.toInstance.initDefaultFieldsValue }

/-- What an enumeration visits for one stored instance: its children and itself,
in hash order. A child whose hash is the instance's own gives way to it. -/
def elements (inst : DBusInstance) : OrderedMap ℕ Instance :=
  inst.complexInstances.insertOrAssign inst.getHash inst.toInstance

/-- A walk that captures children leaves the fields of the instance alone. -/
theorem captureChildren_toInstance {α : Type} {child : α → DBusInstance → Instance}
    {interface : InterfaceName} {properties : α → OrderedMap PropertyName FieldType}
    {items : List α} {inst after : DBusInstance}
    (hwalk : Fallible.forEach (fun item inst =>
      captureChild (child item inst) interface (properties item) inst) items inst =
        .ok ⟨⟩ after) :
    after.toInstance = inst.toInstance := by
  have hvisit : ∀ item ∈ items, ∀ state : DBusInstance, state.toInstance = inst.toInstance →
      Fallible.Leaves (fun next : DBusInstance => next.toInstance = inst.toInstance)
        (captureChild (child item state) interface (properties item) state) := by
    intro item _ state hstate
    unfold captureChild
    cases (child item state).fillMembers interface (properties item) with
    | ok value filled => exact hstate
    | error exception filled => exact hstate
  have hkeep := Fallible.forEach_preserves hvisit rfl
  rw [hwalk] at hkeep
  exact hkeep

/-- Resolving a list valued property changes only the children. -/
theorem resolveComplex_toInstance {member : MemberName} {value : ComplexVariant}
    {inst after : DBusInstance}
    (hresolve : resolveDBusVariant member (.complex value) inst = .ok ⟨⟩ after) :
    after.toInstance = inst.toInstance := by
  cases value with
  | associations values =>
      have hcleared : after.toInstance =
          ({ inst with complexInstances := OrderedMap.empty } : DBusInstance).toInstance :=
        captureChildren_toInstance hresolve
      exact hcleared
  | strings values => exact captureChildren_toInstance hresolve
  | doubles values => exact captureChildren_toInstance hresolve

/-- One entry of the property dictionary touches at most its own member, and sets it
to the formatted value if that is a scalar. -/
theorem fillMember_fields {properties : DBusPropertiesMap} {entry : PropertyName × MemberName}
    {inst after : DBusInstance} (hfill : fillMember properties entry inst = .ok ⟨⟩ after) :
    after.dbusQuery = inst.dbusQuery ∧
    (∀ wanted, wanted = entry.2 → properties.find? entry.1 = none →
      after.memberInstances.find? wanted = inst.memberInstances.find? wanted) ∧
    (∀ wanted, wanted ≠ entry.2 →
      after.memberInstances.find? wanted = inst.memberInstances.find? wanted) ∧
    (∀ value formatted, properties.find? entry.1 = some value →
      inst.dbusQuery.processFormatters entry.1 value = .ok (.scalar formatted) →
      after.memberInstances.find? entry.2 = some formatted) := by
  unfold fillMember at hfill
  cases hfound : properties.find? entry.1 with
  | none =>
      simp only [hfound] at hfill
      cases hfill
      simp
  | some value =>
      simp only [hfound] at hfill
      cases hformat : inst.dbusQuery.processFormatters entry.1 value with
      | error exception => simp only [hformat] at hfill; cases hfill
      | ok formatted =>
          simp only [hformat] at hfill
          cases formatted with
          | scalar scalar =>
              cases hfill
              refine ⟨by simp, nofun, fun wanted hne => by simp [hne], ?_⟩
              intro found formatted hvalue hscalar
              cases hvalue
              rw [hformat] at hscalar
              cases hscalar
              simp
          | complex complex =>
              have hsame := resolveComplex_toInstance hfill
              refine ⟨by rw [hsame], nofun, fun wanted _ => by rw [hsame], ?_⟩
              intro found formatted hvalue hscalar
              cases hvalue
              rw [hformat] at hscalar
              cases hscalar

/-- A member that no delivered property is kept under is left alone. -/
theorem fillEntries_frame {properties : DBusPropertiesMap}
    {entries : List (PropertyName × MemberName)} {inst after : DBusInstance}
    (hfill : Fallible.forEach (fillMember properties) entries inst = .ok ⟨⟩ after) :
    after.dbusQuery = inst.dbusQuery ∧
    ∀ wanted, (∀ entry ∈ entries, entry.2 = wanted → properties.find? entry.1 = none) →
      after.memberInstances.find? wanted = inst.memberInstances.find? wanted := by
  induction entries generalizing inst with
  | nil =>
      cases hfill
      exact ⟨rfl, fun _ _ => rfl⟩
  | cons entry entries ih =>
      rw [Fallible.forEach] at hfill
      obtain ⟨_, middle, hfirst, hrest⟩ := Fallible.bind_eq_ok hfill
      obtain ⟨hquery, habsent, hother, -⟩ := fillMember_fields hfirst
      obtain ⟨hrestQuery, hrestFrame⟩ := ih hrest
      refine ⟨hrestQuery.trans hquery, fun wanted hwanted => ?_⟩
      rw [hrestFrame wanted fun later hlater => hwanted later (List.mem_cons_of_mem _ hlater)]
      by_cases heq : wanted = entry.2
      · exact habsent wanted heq (hwanted entry (by simp) heq.symm)
      · exact hother wanted heq

/-- A delivered property that alone is kept under a member sets it. -/
theorem fillEntries_sets {properties : DBusPropertiesMap}
    {entries : List (PropertyName × MemberName)} {inst after : DBusInstance}
    (hfill : Fallible.forEach (fillMember properties) entries inst = .ok ⟨⟩ after)
    {property : PropertyName} {member : MemberName} (hmem : (property, member) ∈ entries)
    (honly : ∀ entry ∈ entries, entry.2 = member → entry.1 = property)
    {value : DbusVariant} {formatted : FieldType} (hvalue : properties.find? property = some value)
    (hformat : inst.dbusQuery.processFormatters property value = .ok (.scalar formatted)) :
    after.memberInstances.find? member = some formatted := by
  induction entries generalizing inst with
  | nil => cases hmem
  | cons entry entries ih =>
      rw [Fallible.forEach] at hfill
      obtain ⟨_, middle, hfirst, hrest⟩ := Fallible.bind_eq_ok hfill
      obtain ⟨hquery, -, -, hset⟩ := fillMember_fields hfirst
      by_cases hlater : (property, member) ∈ entries
      · exact ih hrest hlater (fun later hin => honly later (List.mem_cons_of_mem _ hin))
          (hquery ▸ hformat)
      · -- the entry is the head, and nothing later touches the member
        have hhead : (property, member) = entry := (List.mem_cons.mp hmem).resolve_right hlater
        subst hhead
        rw [(fillEntries_frame hrest).2 member]
        · exact hset value formatted hvalue hformat
        · intro later hin heq
          have hsame : later = (property, member) :=
            Prod.ext (honly later (List.mem_cons_of_mem _ hin) heq) heq
          exact absurd (hsame ▸ hin) hlater

end DBusInstance

end ObmcWebapp.Entities
