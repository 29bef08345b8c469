/-
# Builders and the registries they fill

`buildEntity` and `buildSupplementProvider` make an object, register it under its name
and return a builder. A builder adds members to its own object, links it to a registered
provider and relates it to a registered entity.

`addEntity` moves its pointer into `emplace` and reads the pointer again to name the
object in the exception. The standard lets `emplace` consume what is moved into it even
when the key is present; which of the two happens is given with each call.
-/

import ObmcWebapp.Application.EntityMap

namespace ObmcWebapp.Entities

open ObmcWebapp.Core

namespace Entity

/-- One rule of a relation: a source member, a destination member and their compare. -/
structure RuleSet where
  memberSource : MemberName
  memberDest : MemberName
  compareLiteral : CompareCallback

/-- A relation to another entity. -/
structure Relation where
  destination : EntityId
  conditionBuildRules : List RuleSet := []

def Relation.addConditionBuildRules (relation : Relation) (rules : List RuleSet) : Relation :=
  { relation with conditionBuildRules := relation.conditionBuildRules ++ rules }

def linkSupplementProvider (provider : EntityId) (linkRule : ProviderLinkRule) (entity : Entity) :
    Entity :=
  { entity with providers := entity.providers ++ [(provider, linkRule)] }

/-- Every member still has the static value it was made with. -/
def Unset (entity : Entity) : Prop :=
  ∀ name member, entity.members.find? name = some member → member.value = .notAvailable

theorem unset_create (name : String) : (create name).Unset := by
  intro wanted member hfound
  cases hfound

theorem Unset.addMember {entity added : Entity} {member : MemberName} (hunset : entity.Unset)
    (hadd : entity.addMember member = .ok added) : added.Unset := by
  unfold Entity.addMember at hadd
  split_ifs at hadd with hpresent
  cases hadd
  intro wanted found hfound
  rw [OrderedMap.find?_emplace] at hfound
  split_ifs at hfound with hwanted
  · cases hold : entity.members.find? member with
    | none =>
        rw [hold] at hfound
        cases hfound
        rfl
    | some old =>
        rw [hold] at hfound
        cases hfound
        exact hunset member old hold
  · exact hunset wanted found hfound

end Entity

/-- The manager with all objects made so far. No code sets a member's static value. -/
@[ext]
structure Registries extends EntityManager, EntityStore where
  relations : EntityId → List Entity.Relation
  /-- The objects made so far are those before this one. -/
  made : ℕ
  unset : ∀ object, (objects object).Unset

namespace Registries

def empty : Registries where
  entityDictionary := OrderedMap.empty
  supplementProviders := OrderedMap.empty
  objects _ := .create ""
  notAvailable := .notAvailable
  relations _ := []
  made := 0
  unset _ := Entity.unset_create ""

/-- Replace one object. -/
def putObject (registries : Registries) (object : EntityId) (entity : Entity)
    (hunset : entity.Unset) : Registries :=
  { registries with
    objects := Function.update registries.objects object entity
    unset := by
      intro other
      by_cases hother : other = object
      · subst hother
        rwa [Function.update_self]
      · rw [Function.update_of_ne hother]
        exact registries.unset other }

/-- The state after making an object, which nothing refers to yet. -/
def withObject (registries : Registries) (name : String) : Registries :=
  { registries.putObject registries.made (.create name) (Entity.unset_create name) with
    relations := Function.update registries.relations registries.made []
    made := registries.made + 1 }

/-- `std::make_shared` of an entity or a provider. -/
def make (name : String) : EStateM Failure Registries EntityId := fun registries =>
  .ok registries.made (registries.withObject name)

end Registries

/-- Read through a shared pointer. -/
def dereference {σ α : Type} : Option α → EStateM Failure σ α
  | some target => pure target
  | none => throw .nullDereference

/-- A builder and the object it configures. -/
structure EntityBuilder where
  entity : EntityId

/-- `Entity::addRelation`. The debug line reads the destination of the relation. -/
def addRelation (entity : EntityId) (relation : Option Entity.Relation) :
    EStateM Failure Registries PUnit := do
  if relation.isSome then
    return
  let registered ← dereference relation
  modify fun registries =>
    { registries with
      relations := Function.update registries.relations entity
        (registries.relations entity ++ [registered]) }

namespace EntityBuilder

/-- Add one member to the object of the builder. -/
def addMember (builder : EntityBuilder) (member : MemberName) :
    EStateM Failure Registries PUnit := fun registries =>
  match hadd : (registries.objects builder.entity).addMember member with
  | .ok added =>
      .ok ⟨⟩ (registries.putObject builder.entity added
        ((registries.unset builder.entity).addMember hadd))
  | .error exception => .error (.raised exception) registries

def addMembers (memberNames : List MemberName) (builder : EntityBuilder) :
    EStateM Failure Registries EntityBuilder := do
  Fallible.forEach builder.addMember memberNames
  return builder

def linkSupplementProvider (providerName : String) (linkRule : ProviderLinkRule)
    (builder : EntityBuilder) : EStateM Failure Registries EntityBuilder := fun registries =>
  match registries.supplementProviders.find? providerName with
  | none =>
      .error (.raised (.entity ("Requested provider is not registered: " ++ providerName))) registries
  | some provider =>
      .ok builder (registries.putObject builder.entity
        ((registries.objects builder.entity).linkSupplementProvider provider linkRule)
        (registries.unset builder.entity))

def addRelations (destinationName : String) (rules : List Entity.RuleSet)
    (builder : EntityBuilder) : EStateM Failure Registries EntityBuilder := fun registries =>
  match registries.getEntity destinationName with
  | .error exception => .error (.raised exception) registries
  | .ok destination =>
      let relation : Entity.Relation := { destination := destination }
      (do
        addRelation builder.entity (some (relation.addConditionBuildRules rules))
        return builder) registries

end EntityBuilder

/-- What `emplace` of a moved pointer makes of the dictionary and of the pointer. -/
structure Emplaced where
  dictionary : OrderedMap String EntityId
  inserted : Bool
  left : Option EntityId

/-- `std::map::emplace` of a moved pointer. -/
def emplaceMoved (consumes : Bool) (name : String) (object : EntityId)
    (dictionary : OrderedMap String EntityId) : Emplaced where
  dictionary := dictionary.emplace name object
  inserted := !dictionary.contains name
  left := if dictionary.contains name && !consumes then some object else none

/-- `addEntity`. -/
def addEntity (consumes : Bool) (entity : EntityId) : EStateM Failure Registries PUnit := do
  let registries ← get
  let emplaced := emplaceMoved consumes (registries.objects entity).name entity
    registries.entityDictionary
  set { registries with entityDictionary := emplaced.dictionary }
  unless emplaced.inserted do
    let entity ← dereference emplaced.left
    throw (.raised (.entity ("The name of object already registered. Object name is " ++
      (registries.objects entity).name)))

def buildEntity (consumes : Bool) (name : String) : EStateM Failure Registries EntityBuilder := do
  let entity ← Registries.make name
  addEntity consumes entity
  return ⟨entity⟩

/-- `buildSupplementProvider`: whether the name was free is not looked at. -/
def buildSupplementProvider (name : String) : EStateM Failure Registries EntityBuilder := do
  let provider ← Registries.make name
  modify fun registries =>
    { registries with
      supplementProviders := registries.supplementProviders.emplace name provider }
  return ⟨provider⟩

namespace Registries

theorem objects_putObject (registries : Registries) (object : EntityId) {entity : Entity}
    (hunset : entity.Unset) : (registries.putObject object entity hunset).objects object = entity :=
  Function.update_self _ _ _

theorem objects_putObject_of_ne (registries : Registries) {object other : EntityId} {entity : Entity}
    (hunset : entity.Unset) (hother : other ≠ object) :
    (registries.putObject object entity hunset).objects other = registries.objects other :=
  Function.update_of_ne hother _ _

/-- An object is made without changing the others. -/
theorem objects_withObject {registries : Registries} {object : EntityId} (name : String)
    (hold : object < registries.made) :
    (registries.withObject name).objects object = registries.objects object :=
  Function.update_of_ne hold.ne _ _

/-- The name of an object just made. -/
theorem name_withObject (registries : Registries) (name : String) :
    ((registries.withObject name).objects registries.made).name = name := by
  simp [withObject, putObject, Entity.create]

end Registries

section Build

variable {registries : Registries} {name : String}

theorem addEntity_fresh {entity : EntityId} (consumes : Bool)
    (hname : (registries.objects entity).name = name)
    (hfresh : registries.entityDictionary.find? name = none) :
    addEntity consumes entity registries = .ok ⟨⟩
      { registries with
        entityDictionary := registries.entityDictionary.emplace name entity } := by
  have hcontains : registries.entityDictionary.contains name = false := by
    rw [OrderedMap.contains, hfresh]
    rfl
  rw [addEntity, Fallible.bind_get]
  simp only [hname, emplaceMoved, hcontains]
  rfl

/-- A taken name throws while the pointer is still there and crashes when it is not. -/
theorem addEntity_taken {entity object : EntityId} (consumes : Bool)
    (hname : (registries.objects entity).name = name)
    (htaken : registries.entityDictionary.find? name = some object) :
    addEntity consumes entity registries = .error
      (if consumes then .nullDereference
        else .raised (.entity ("The name of object already registered. Object name is " ++ name)))
      registries := by
  have hcontains : registries.entityDictionary.contains name = true := by
    rw [OrderedMap.contains, htaken]
    rfl
  have hsame := OrderedMap.emplace_of_find? entity htaken
  rw [addEntity, Fallible.bind_get]
  simp only [hname, emplaceMoved, hcontains, hsame]
  cases consumes with
  | false =>
      rw [← hname]
      rfl
  | true => rfl

theorem buildEntity_fresh (consumes : Bool)
    (hfresh : registries.entityDictionary.find? name = none) :
    buildEntity consumes name registries = .ok ⟨registries.made⟩
      { registries.withObject name with
        entityDictionary := registries.entityDictionary.emplace name registries.made } := by
  have hmake : Registries.make name registries = .ok registries.made (registries.withObject name) :=
    rfl
  have hadd := addEntity_fresh consumes (registries.name_withObject name) hfresh
  rw [buildEntity, Fallible.bind_ok hmake, Fallible.bind_ok hadd]
  rfl

theorem buildEntity_taken {object : EntityId} (consumes : Bool)
    (htaken : registries.entityDictionary.find? name = some object) :
    buildEntity consumes name registries = .error
      (if consumes then .nullDereference
        else .raised (.entity ("The name of object already registered. Object name is " ++ name)))
      (registries.withObject name) := by
  have hmake : Registries.make name registries = .ok registries.made (registries.withObject name) :=
    rfl
  have hadd := addEntity_taken consumes (registries.name_withObject name) htaken
  rw [buildEntity, Fallible.bind_ok hmake, Fallible.bind_error hadd]

theorem buildSupplementProvider_eq (registries : Registries) (name : String) :
    buildSupplementProvider name registries = .ok ⟨registries.made⟩
      { registries.withObject name with
        supplementProviders := registries.supplementProviders.emplace name registries.made } :=
  rfl

end Build

end ObmcWebapp.Entities
