/-
# Relations between entities

A relation is meant to be stored with its source entity and to give, for each of its rules,
a condition that compares a member of the source with a value of the destination.

The guard of `addRelation` is the wrong way round: a relation is refused, and a null pointer
is read through. `getConditions` takes its value from the destination's member object, whose
static value no code ever sets, and not from an instance.
-/

import ObmcWebapp.Application.Registries

namespace ObmcWebapp.Entities

open ObmcWebapp.Core

namespace Entity

/-- The condition `getConditions` builds of one rule. -/
def RuleSet.condition (destination : Entity) (rule : RuleSet) : Except Exception Condition := do
  let member ← destination.getMember rule.memberDest
  return ({} : Condition).addRule rule.memberSource member.value rule.compareLiteral

/-- `getConditions`. -/
def Relation.getConditions (registries : Registries) (relation : Relation) :
    Except Exception (List Condition) :=
  relation.conditionBuildRules.mapM (RuleSet.condition (registries.objects relation.destination))

/-- The instances an entity holds: the published ones and their children. -/
def held [StdHash] (entity : Entity) : List Instance :=
  entity.instances.values.flatMap fun inst => inst.elements.values

end Entity

/-- The arguments of one call of `addRelations`. -/
structure RelationCall where
  destinationName : String
  rules : List Entity.RuleSet

/-- Make the calls one after the other. -/
def EntityBuilder.relate (builder : EntityBuilder) (calls : List RelationCall) :
    EStateM Failure Registries PUnit :=
  Fallible.forEach (fun call => do
    let _ ← builder.addRelations call.destinationName call.rules) calls

/-- The calls return, and afterwards `getRelations` lists one more relation for each of
them, in call order and with the destination it names. -/
def Relates (builder : EntityBuilder) (calls : List RelationCall) (registries : Registries) : Prop :=
  ∃ next added, builder.relate calls registries = .ok ⟨⟩ next ∧
    next.relations builder.entity = registries.relations builder.entity ++ added ∧
    List.Forall₂ (fun call relation =>
      registries.getEntity call.destinationName = .ok relation.destination ∧
        relation.conditionBuildRules = call.rules) calls added

/-- A null pointer is refused. -/
def RefusesNull (entity : EntityId) (registries : Registries) : Prop :=
  ∃ next, addRelation entity none registries = .ok ⟨⟩ next ∧
    next.relations entity = registries.relations entity

/-- A relation is refused. -/
theorem addRelation_some (entity : EntityId) (relation : Entity.Relation)
    (registries : Registries) : addRelation entity (some relation) registries = .ok ⟨⟩ registries :=
  rfl

/-- A null pointer is read through. -/
theorem addRelation_none (entity : EntityId) (registries : Registries) :
    addRelation entity none registries = .error .nullDereference registries := rfl

/-- A call with a registered destination leaves everything as it is. -/
theorem addRelations_idle {registries : Registries} {name : String}
    (hregistered : registries.entityDictionary.contains name = true) (builder : EntityBuilder)
    (rules : List Entity.RuleSet) :
    builder.addRelations name rules registries = .ok builder registries := by
  obtain ⟨destination, hfound⟩ := OrderedMap.contains_eq_true_iff.mp hregistered
  unfold EntityBuilder.addRelations
  rw [getEntity_of_find? hfound]
  exact Fallible.bind_ok (addRelation_some builder.entity _ registries)

/-- However many relations are added, none is registered. -/
theorem relate_idle {registries : Registries} (builder : EntityBuilder) {calls : List RelationCall}
    (hregistered : ∀ call ∈ calls,
      registries.entityDictionary.contains call.destinationName = true) :
    builder.relate calls registries = .ok ⟨⟩ registries := by
  apply Fallible.forEach_idle
  intro call hcall
  exact Fallible.bind_ok (addRelations_idle (hregistered call hcall) builder call.rules)

theorem relates_iff {registries : Registries} (builder : EntityBuilder) {calls : List RelationCall}
    (hregistered : ∀ call ∈ calls,
      registries.entityDictionary.contains call.destinationName = true) :
    Relates builder calls registries ↔ calls = [] := by
  have hidle := relate_idle builder hregistered
  constructor
  · rintro ⟨next, added, hrelate, hrelations, hadded⟩
    rw [hidle] at hrelate
    cases hrelate
    have hnone : added = [] := by simpa using hrelations
    subst hnone
    cases hadded
    rfl
  · rintro rfl
    exact ⟨registries, [], hidle, (List.append_nil _).symm, .nil⟩

theorem not_refusesNull (entity : EntityId) (registries : Registries) :
    ¬ RefusesNull entity registries := by
  rintro ⟨next, hadd, -⟩
  rw [addRelation_none] at hadd
  cases hadd

/-- The value of a rule is that of the member object, which is not available. -/
theorem condition_of_member {destination : Entity} {rule : Entity.RuleSet} {member : EntityMember}
    (hunset : destination.Unset)
    (hmember : destination.members.find? rule.memberDest = some member) :
    rule.condition destination =
      .ok ⟨[((rule.memberSource, .notAvailable), rule.compareLiteral)]⟩ := by
  rw [Entity.RuleSet.condition, Entity.getMember, hmember]
  show Except.ok (({} : Condition).addRule rule.memberSource member.value rule.compareLiteral) = _
  rw [hunset rule.memberDest member hmember]
  rfl

theorem condition_of_absent {destination : Entity} {rule : Entity.RuleSet}
    (habsent : destination.members.find? rule.memberDest = none) :
    rule.condition destination =
      .error (.entity ("The object Member <" ++ rule.memberDest ++ "> not found")) := by
  rw [Entity.RuleSet.condition, Entity.getMember, habsent]
  rfl

section Conditions

variable [StdHash]

/-- The condition has the rule's source member and compare, with a value that the rule's
destination member has in one of the instances the destination holds, if it holds any. -/
def Entity.RuleSet.Tests (destination : Entity) (notAvailable : FieldType) (rule : Entity.RuleSet)
    (condition : Condition) : Prop :=
  ∃ value, condition.rules = [((rule.memberSource, value), rule.compareLiteral)] ∧
    (destination.held ≠ [] →
      ∃ inst ∈ destination.held, inst.getField notAvailable rule.memberDest = value)

/-- `getConditions` yields one such condition for each rule, in order. -/
def Entity.Relation.Usable (relation : Entity.Relation) (registries : Registries) : Prop :=
  ∃ conditions, relation.getConditions registries = .ok conditions ∧
    List.Forall₂
      (Entity.RuleSet.Tests (registries.objects relation.destination) registries.notAvailable)
      relation.conditionBuildRules conditions

/-- The destination has the rule's member, and holds no instance or one that has no value
for this member. -/
def Entity.RuleSet.Placeholder (destination : Entity) (notAvailable : FieldType)
    (rule : Entity.RuleSet) : Prop :=
  destination.members.contains rule.memberDest = true ∧
    (destination.held = [] ∨
      ∃ inst ∈ destination.held, inst.getField notAvailable rule.memberDest = .notAvailable)

theorem tests_iff {destination : Entity} (hunset : destination.Unset) (notAvailable : FieldType)
    (rule : Entity.RuleSet) :
    (∃ condition, rule.condition destination = .ok condition ∧
      rule.Tests destination notAvailable condition) ↔ rule.Placeholder destination notAvailable := by
  rw [Entity.RuleSet.Placeholder, OrderedMap.contains]
  cases hmember : destination.members.find? rule.memberDest with
  | none =>
      rw [condition_of_absent hmember]
      simp
  | some member =>
      rw [condition_of_member hunset hmember]
      constructor
      · rintro ⟨condition, hcondition, value, hrules, hvalue⟩
        cases hcondition
        cases hrules
        exact ⟨rfl, or_iff_not_imp_left.mpr hvalue⟩
      · rintro ⟨-, hheld⟩
        exact ⟨_, rfl, _, rfl, or_iff_not_imp_left.mp hheld⟩

theorem usable_iff (relation : Entity.Relation) (registries : Registries) :
    relation.Usable registries ↔ ∀ rule ∈ relation.conditionBuildRules,
      rule.Placeholder (registries.objects relation.destination) registries.notAvailable := by
  rw [Entity.Relation.Usable, Entity.Relation.getConditions, Fallible.exists_mapM_forall₂_iff]
  apply forall₂_congr
  intro rule _
  exact tests_iff (registries.unset relation.destination) registries.notAvailable rule

/-- Calls register their relations exactly when there are none, a null pointer is never
refused, and the conditions of a relation compare with a value of the destination exactly
when that value is the placeholder. -/
theorem relations_usable_iff (registries : Registries) (builder : EntityBuilder)
    (calls : List RelationCall)
    (hregistered : ∀ call ∈ calls,
      registries.entityDictionary.contains call.destinationName = true) :
    (Relates builder calls registries ↔ calls = []) ∧
      ¬ RefusesNull builder.entity registries ∧
      ∀ relation : Entity.Relation, relation.Usable registries ↔
        ∀ rule ∈ relation.conditionBuildRules,
          rule.Placeholder (registries.objects relation.destination) registries.notAvailable :=
  ⟨relates_iff builder hregistered, not_refusesNull builder.entity registries,
    fun relation => usable_iff relation registries⟩

end Conditions

def baseboardOnly : Registries := performAll [.buildEntity true "Baseboard"] .empty

def selfRelation : List RelationCall := [⟨"Baseboard", []⟩]

theorem selfRelation_registered : ∀ call ∈ selfRelation,
    baseboardOnly.entityDictionary.contains call.destinationName = true := by
  intro call hcall
  rw [selfRelation, List.mem_singleton] at hcall
  subst hcall
  exact (taken_iff _ .entities _).mpr ⟨_, List.mem_singleton.mpr rfl, rfl⟩

theorem relations_usable_iff_self :
    let _ : StdHash := ⟨64, fun _ => 0⟩
    (Relates ⟨0⟩ selfRelation baseboardOnly ↔ selfRelation = []) ∧
      ¬ RefusesNull 0 baseboardOnly ∧
      ∀ relation : Entity.Relation, relation.Usable baseboardOnly ↔
        ∀ rule ∈ relation.conditionBuildRules,
          rule.Placeholder (baseboardOnly.objects relation.destination)
            baseboardOnly.notAvailable := by
  intro _
  exact relations_usable_iff baseboardOnly ⟨0⟩ selfRelation selfRelation_registered

/-- The relation is not registered. -/
theorem self_relation_refused : ¬ Relates ⟨0⟩ selfRelation baseboardOnly := by
  rw [relates_iff ⟨0⟩ selfRelation_registered]
  simp [selfRelation]

end ObmcWebapp.Entities
