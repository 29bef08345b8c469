/-
# What filling writes

The properties of an interface are turned into writes: a field is set, a child is stored,
or all children are dropped. Which writes these are, and whether an exception stops them,
depends on the object alone and not on what the instance holds. An instance is therefore
left as it is exactly when the last write to each field and under each hash is what it
holds already.
-/

import ObmcWebapp.Entities.Settling

namespace ObmcWebapp.Entities

open ObmcWebapp.Core definitions

/-- A write to an instance. -/
inductive Write
  | field (member : MemberName) (value : FieldType)
  | child (captured : Instance)
  | dropChildren

/-- Writes in their order, and the exception that stopped them. -/
structure Writes where
  writes : List Write
  raised : Option Exception

variable [StdHash]

namespace Write

def apply (inst : DBusInstance) : Write → DBusInstance
  | field member value =>
      { inst with toInstance := inst.toInstance.supplementOrUpdate member value }
  | child captured => inst.insertComplex captured
  | dropChildren => { inst with complexInstances := OrderedMap.empty }

/-- The value a write gives to a field. -/
def field? (member : MemberName) : Write → Option FieldType
  | field written value => if member = written then some value else none
  | _ => none

/-- What a write leaves under a hash, if it is about that hash. -/
def child? (hash : ℕ) : Write → Option (Option Instance)
  | field _ _ => none
  | child captured => if hash = captured.getHash then some (some captured) else none
  | dropChildren => some none

/-- Write one after the other. -/
def applyAll (writes : List Write) (inst : DBusInstance) : DBusInstance := writes.foldl apply inst

/-- The value the last write to a field gives it. -/
def lastField (member : MemberName) (writes : List Write) : Option FieldType :=
  writes.reverse.findSome? (field? member)

/-- What the last write about a hash leaves there. -/
def lastChild (hash : ℕ) (writes : List Write) : Option (Option Instance) :=
  writes.reverse.findSome? (child? hash)

theorem apply_sameObject (inst : DBusInstance) (write : Write) :
    SameObject (write.apply inst).toInstance inst.toInstance := by
  cases write with
  | field member value =>
      exact ⟨Instance.supplementOrUpdate_serviceName _ _ _,
        Instance.supplementOrUpdate_objectPath _ _ _, Instance.supplementOrUpdate_dbusQuery _ _ _⟩
  | child captured => exact ⟨rfl, rfl, rfl⟩
  | dropChildren => exact ⟨rfl, rfl, rfl⟩

theorem applyAll_append (before later : List Write) (inst : DBusInstance) :
    applyAll (before ++ later) inst = applyAll later (applyAll before inst) :=
  List.foldl_append

theorem applyAll_sameObject (writes : List Write) (inst : DBusInstance) :
    SameObject (applyAll writes inst).toInstance inst.toInstance := by
  induction writes generalizing inst with
  | nil => exact ⟨rfl, rfl, rfl⟩
  | cons write writes ih => exact (ih _).trans (apply_sameObject inst write)

theorem find?_applyAll (member : MemberName) (writes : List Write) (inst : DBusInstance) :
    (applyAll writes inst).memberInstances.find? member =
      (lastField member writes).or (inst.memberInstances.find? member) := by
  induction writes using List.reverseRecOn with
  | nil => rfl
  | append_singleton writes last ih =>
      have hlast : lastField member (writes ++ [last]) =
          (last.field? member).or (lastField member writes) := by
        rw [lastField, List.reverse_append, List.reverse_singleton, List.singleton_append,
          List.findSome?_cons]
        cases last.field? member <;> rfl
      rw [applyAll_append, hlast, Option.or_assoc, ← ih]
      cases last with
      | field written value =>
          show ((applyAll writes inst).toInstance.supplementOrUpdate written
            value).memberInstances.find? member = _
          rw [Instance.find?_supplementOrUpdate, field?]
          split_ifs <;> rfl
      | child captured => rfl
      | dropChildren => rfl

theorem findChild_applyAll (hash : ℕ) (writes : List Write) (inst : DBusInstance) :
    (applyAll writes inst).complexInstances.find? hash =
      (lastChild hash writes).getD (inst.complexInstances.find? hash) := by
  induction writes using List.reverseRecOn with
  | nil => rfl
  | append_singleton writes last ih =>
      have hlast : lastChild hash (writes ++ [last]) =
          (last.child? hash).or (lastChild hash writes) := by
        rw [lastChild, List.reverse_append, List.reverse_singleton, List.singleton_append,
          List.findSome?_cons]
        cases last.child? hash <;> rfl
      rw [applyAll_append, hlast]
      cases last with
      | field written value => exact ih
      | child captured =>
          show ((applyAll writes inst).complexInstances.insertOrAssign captured.getHash captured).find?
            hash = _
          rw [OrderedMap.find?_insertOrAssign, child?]
          split_ifs
          · rfl
          · exact ih
      | dropChildren => rfl

/-- The last writes are what the instance holds already. -/
def Known (writes : List Write) (inst : DBusInstance) : Prop :=
  (∀ member value, lastField member writes = some value →
    inst.memberInstances.find? member = some value) ∧
  ∀ hash present, lastChild hash writes = some present →
    inst.complexInstances.find? hash = present

/-- Known writes, and no others, leave an instance as it is. -/
theorem applyAll_eq_self_iff (writes : List Write) (inst : DBusInstance) :
    applyAll writes inst = inst ↔ Known writes inst := by
  constructor
  · intro hsame
    constructor
    · intro member value hlast
      have hfield := find?_applyAll member writes inst
      rw [hsame, hlast] at hfield
      exact hfield
    · intro hash present hlast
      have hchild := findChild_applyAll hash writes inst
      rw [hsame, hlast] at hchild
      exact hchild
  · rintro ⟨hfields, hchildren⟩
    have hobject : (applyAll writes inst).toInstance = inst.toInstance := by
      apply (applyAll_sameObject writes inst).eq
      intro member
      rw [find?_applyAll]
      cases hlast : lastField member writes with
      | none => rfl
      | some value => exact (hfields member value hlast).symm
    have hcomplex : (applyAll writes inst).complexInstances = inst.complexInstances := by
      ext1 hash
      rw [findChild_applyAll]
      cases hlast : lastChild hash writes with
      | none => rfl
      | some present => exact (hchildren hash present hlast).symm
    generalize applyAll writes inst = after at hobject hcomplex
    cases after
    cases inst
    cases hobject
    cases hcomplex
    rfl

end Write

namespace Writes

/-- The second writes follow unless the first were stopped. -/
def andThen (first second : Writes) : Writes :=
  match first.raised with
  | none => ⟨first.writes ++ second.writes, second.raised⟩
  | some _ => first

/-- The writes of a list, up to the first exception. -/
def all {α : Type} (writesOf : α → Writes) : List α → Writes
  | [] => ⟨[], none⟩
  | item :: items => (writesOf item).andThen (all writesOf items)

/-- The result of a computation that writes these. -/
def result (writes : Writes) (inst : DBusInstance) : EStateM.Result Exception DBusInstance PUnit :=
  match writes.raised with
  | none => .ok ⟨⟩ (Write.applyAll writes.writes inst)
  | some exception => .error exception (Write.applyAll writes.writes inst)

/-- A walk whose visits write writes what they write. -/
theorem forEach_eq {α : Type} {visit : α → EStateM Exception DBusInstance PUnit}
    {writesOf : α → Writes} {items : List α} {inst : DBusInstance}
    (hvisit : ∀ item ∈ items, ∀ state : DBusInstance,
      SameObject state.toInstance inst.toInstance → visit item state = (writesOf item).result state) :
    Fallible.forEach visit items inst = (all writesOf items).result inst := by
  have hwalk : ∀ state : DBusInstance, SameObject state.toInstance inst.toInstance →
      Fallible.forEach visit items state = (all writesOf items).result state := by
    induction items with
    | nil => exact fun _ _ => rfl
    | cons item items ih =>
        intro state hstate
        have hfirst := hvisit item List.mem_cons_self state hstate
        rw [Fallible.forEach, all, andThen]
        cases hraised : (writesOf item).raised with
        | some exception =>
            simp only [result, hraised] at hfirst ⊢
            exact Fallible.bind_error hfirst
        | none =>
            simp only [result, hraised] at hfirst
            rw [Fallible.bind_ok hfirst]
            have hlater : SameObject (Write.applyAll (writesOf item).writes state).toInstance
                inst.toInstance :=
              (Write.applyAll_sameObject _ _).trans hstate
            rw [ih (fun later hmem => hvisit later (List.mem_cons_of_mem _ hmem)) _ hlater]
            simp only [result, Write.applyAll_append]
  exact hwalk inst ⟨rfl, rfl, rfl⟩

end Writes

/-- The writes of capturing a child. -/
def childWrites (child : Instance) (interface : InterfaceName)
    (properties : OrderedMap PropertyName FieldType) : Writes :=
  match child.fillMembers interface properties with
  | .ok _ filled => ⟨[.child filled], none⟩
  | .error exception _ => ⟨[], some exception⟩

/-- The writes of capturing the elements of a list. -/
def elementWrites (object : Instance) (member : MemberName) (values : List FieldType) : Writes :=
  .all (fun value => childWrites
    (Instance.create object.serviceName object.objectPath object.dbusQuery) member
    (OrderedMap.empty.emplace member value)) values

/-- The writes of capturing associations. -/
def associationWrites (object : Instance) (member : MemberName) (values : List DBusAssociation) :
    Writes :=
  .all (fun association => childWrites
    (Instance.create object.serviceName association.2.2 object.dbusQuery) member
    (DBusInstance.associationProperties association)) values

/-- The writes of a formatted value. -/
def variantWrites (object : Instance) (member : MemberName) : DbusVariant → Writes
  | .scalar value => ⟨[.field member value], none⟩
  | .complex (.strings values) => elementWrites object member (values.map .string)
  | .complex (.doubles values) => elementWrites object member (values.map .double)
  | .complex (.associations values) =>
      Writes.andThen ⟨[.dropChildren], none⟩ (associationWrites object member values)

/-- The writes of an entry of the dictionary. -/
def entryWrites (object : Instance) (properties : DBusPropertiesMap)
    (entry : PropertyName × MemberName) : Writes :=
  match properties.find? entry.1 with
  | none => ⟨[], none⟩
  | some value =>
      match object.dbusQuery.processFormatters entry.1 value with
      | .ok formatted => variantWrites object entry.2 formatted
      | .error exception => ⟨[], some exception⟩

/-- The writes of the properties of an interface. -/
def fillWrites (object : Instance) (interface : InterfaceName) (properties : DBusPropertiesMap) :
    Writes :=
  .all (entryWrites object properties) (object.dbusQuery.getPropertyMemberDict interface).entries

namespace DBusInstance

theorem captureChild_eq (child : Instance) (interface : InterfaceName)
    (properties : OrderedMap PropertyName FieldType) (inst : DBusInstance) :
    captureChild child interface properties inst =
      (childWrites child interface properties).result inst := by
  rw [captureChild, childWrites]
  cases child.fillMembers interface properties <;> rfl

theorem captureComplexDBusProperty_eq {object : Instance} (member : MemberName)
    (values : List FieldType) {inst : DBusInstance} (hsame : SameObject inst.toInstance object) :
    captureComplexDBusProperty member values inst =
      (elementWrites object member values).result inst := by
  apply Writes.forEach_eq
  intro value _ state hstate
  rw [captureChild_eq, (hstate.trans hsame).serviceName, (hstate.trans hsame).objectPath,
    (hstate.trans hsame).dbusQuery]

theorem captureDBusAssociations_eq {object : Instance} (member : MemberName)
    (values : List DBusAssociation) {inst : DBusInstance}
    (hsame : SameObject inst.toInstance object) :
    captureDBusAssociations member values inst =
      (Writes.andThen ⟨[.dropChildren], none⟩ (associationWrites object member values)).result
        inst := by
  have hwalk : Fallible.forEach (captureAssociation member) values
      (Write.dropChildren.apply inst) =
        (associationWrites object member values).result (Write.dropChildren.apply inst) := by
    apply Writes.forEach_eq
    intro association _ state hstate
    have hobject : SameObject state.toInstance object := hstate.trans hsame
    rw [captureAssociation, captureChild_eq, hobject.serviceName, hobject.dbusQuery]
  exact hwalk

theorem resolveDBusVariant_eq {object : Instance} (member : MemberName) (value : DbusVariant)
    {inst : DBusInstance} (hsame : SameObject inst.toInstance object) :
    resolveDBusVariant member value inst = (variantWrites object member value).result inst := by
  cases value with
  | scalar value => rfl
  | complex value =>
      cases value with
      | strings values => exact captureComplexDBusProperty_eq member _ hsame
      | doubles values => exact captureComplexDBusProperty_eq member _ hsame
      | associations values => exact captureDBusAssociations_eq member values hsame

theorem fillMember_eq {object : Instance} (properties : DBusPropertiesMap)
    (entry : PropertyName × MemberName) {inst : DBusInstance}
    (hsame : SameObject inst.toInstance object) :
    fillMember properties entry inst = (entryWrites object properties entry).result inst := by
  rw [fillMember, entryWrites, hsame.dbusQuery]
  cases properties.find? entry.1 with
  | none => rfl
  | some value =>
      cases hformat : object.dbusQuery.processFormatters entry.1 value with
      | error exception =>
          simp only [hformat]
          rfl
      | ok formatted =>
          simp only [hformat]
          exact resolveDBusVariant_eq entry.2 formatted hsame

/-- Filling an instance performs the writes of its object. -/
theorem fillMembers_eq (interface : InterfaceName) (properties : DBusPropertiesMap)
    (inst : DBusInstance) :
    fillMembers interface properties inst =
      (fillWrites inst.toInstance interface properties).result inst := by
  apply Writes.forEach_eq
  exact fun entry _ state hstate => fillMember_eq properties entry hstate

end DBusInstance

end ObmcWebapp.Entities
