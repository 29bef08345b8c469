/-
# Provider cycles

`linkSupplementProvider` looks a provider up by its name and links whatever it finds. The
builder of a provider offers it as well, so providers can be linked in a cycle, a provider
to itself included. Nothing looks for cycles, neither when linking nor when enumerating:
enumerations terminate, for all instances, exactly where there is no cycle.

The links of the entity map do not form one.
-/

import ObmcWebapp.Application.Registries
import ObmcWebapp.Entities.Termination

namespace ObmcWebapp.Entities

open ObmcWebapp.Core

/-- Every link was there before or is to a registered provider. -/
def LinksRegistered (registries next : Registries) : Prop :=
  ∀ provider entity, Supplements next.toEntityStore provider entity →
    Supplements registries.toEntityStore provider entity ∨
      ∃ name, registries.supplementProviders.find? name = some provider

section Links

variable {registries : Registries}

theorem LinksRegistered.refl (registries : Registries) : LinksRegistered registries registries :=
  fun _ _ hlinked => .inl hlinked

/-- An object is replaced by one whose links were its own or are to registered providers. -/
theorem LinksRegistered.putObject {state : Registries} (hstate : LinksRegistered registries state)
    {object : EntityId} {replaced : Entity} (hunset : replaced.Unset)
    (hproviders : ∀ provider ∈ replaced.providers,
      provider ∈ (state.objects object).providers ∨
        ∃ name, registries.supplementProviders.find? name = some provider.1) :
    LinksRegistered registries (state.putObject object replaced hunset) := by
  rintro provider entity ⟨linkRule, hlinked⟩
  by_cases hentity : entity = object
  · subst hentity
    rw [Registries.objects_putObject] at hlinked
    rcases hproviders _ hlinked with hbefore | hregistered
    · exact hstate provider entity ⟨linkRule, hbefore⟩
    · exact .inr hregistered
  · rw [Registries.objects_putObject_of_ne state hunset hentity] at hlinked
    exact hstate provider entity ⟨linkRule, hlinked⟩

/-- An object that is made has no links. -/
theorem linksRegistered_withObject (registries : Registries) (name : String) :
    LinksRegistered registries (registries.withObject name) :=
  (LinksRegistered.refl registries).putObject (Entity.unset_create name) (by simp [Entity.create])

theorem Entity.providers_of_addMember {entity added : Entity} {member : MemberName}
    (hadd : entity.addMember member = .ok added) : added.providers = entity.providers := by
  unfold Entity.addMember at hadd
  split_ifs at hadd
  cases hadd
  rfl

theorem EntityBuilder.addMembers_linksRegistered (builder : EntityBuilder)
    (memberNames : List MemberName) :
    Fallible.Leaves (LinksRegistered registries) (builder.addMembers memberNames registries) := by
  have hmember : ∀ member ∈ memberNames, ∀ state, LinksRegistered registries state →
      Fallible.Leaves (LinksRegistered registries) (builder.addMember member state) := by
    intro member _ state hstate
    unfold addMember
    split
    next added hadd =>
      apply hstate.putObject
      rw [Entity.providers_of_addMember hadd]
      exact fun _ hprovider => .inl hprovider
    next => exact hstate
  apply Fallible.Leaves.bind (Fallible.forEach_preserves hmember (.refl registries))
  exact fun _ _ hnext => hnext

namespace BuilderCall

/-- A call links registered providers only. -/
theorem leave_linksRegistered (call : BuilderCall) (registries : Registries) :
    LinksRegistered registries (call.leave registries) := by
  have hleaves : Fallible.Leaves (LinksRegistered registries) (call.perform registries) := by
    cases call with
    | buildEntity consumes name =>
        rw [perform]
        cases hname : registries.entityDictionary.find? name with
        | none =>
            rw [buildEntity_fresh consumes hname]
            exact linksRegistered_withObject registries name
        | some object =>
            rw [buildEntity_taken consumes hname]
            exact linksRegistered_withObject registries name
    | buildSupplementProvider name => exact linksRegistered_withObject registries name
    | addMembers builder memberNames => exact builder.addMembers_linksRegistered memberNames
    | linkSupplementProvider builder providerName linkRule =>
        rw [perform, EntityBuilder.linkSupplementProvider]
        split
        · exact .refl registries
        next provider hfound =>
          apply (LinksRegistered.refl registries).putObject
          intro linked hlinked
          rcases List.mem_append.mp hlinked with hbefore | hadded
          · exact .inl hbefore
          · rw [List.mem_singleton] at hadded
            subst hadded
            exact .inr ⟨providerName, hfound⟩
    | addRelations builder destinationName rules =>
        rw [perform, EntityBuilder.addRelations]
        split
        · exact .refl registries
        · exact .refl registries
  exact hleaves.of_left

end BuilderCall

/-- Links are to objects that have been made. -/
def LinksMade (registries : Registries) : Prop :=
  ∀ provider entity, Supplements registries.toEntityStore provider entity →
    provider < registries.made

theorem BuilderCall.leave_linksMade (call : BuilderCall) {registries : Registries}
    (hallocated : registries.Allocated) (hmade : LinksMade registries) :
    LinksMade (call.leave registries) := by
  intro provider entity hlinked
  have hbefore : provider < registries.made := by
    rcases call.leave_linksRegistered registries provider entity hlinked with hold | ⟨name, hname⟩
    · exact hmade provider entity hold
    · exact hallocated .supplementProviders name provider hname
  exact hbefore.trans_le ((call.leave_spec registries).2 ▸ Nat.le_add_right _ _)

theorem performAll_linksMade (calls : List BuilderCall) {registries : Registries}
    (hallocated : registries.Allocated) (hmade : LinksMade registries) :
    LinksMade (performAll calls registries) := by
  induction calls generalizing registries with
  | nil => exact hmade
  | cons call calls ih =>
      exact ih (call.leave_allocated hallocated) (call.leave_linksMade hallocated hmade)

theorem linksMade_empty : LinksMade Registries.empty := by
  rintro provider entity ⟨linkRule, hlinked⟩
  cases hlinked

/-- Only finitely many objects are below an entity. -/
theorem finite_below (calls : List BuilderCall) (entity : EntityId) :
    {provider | Relation.TransGen (Supplements (performAll calls .empty).toEntityStore)
      provider entity}.Finite := by
  apply (Set.finite_lt_nat (performAll calls .empty).made).subset
  intro provider hbelow
  obtain ⟨next, hlinked, -⟩ := Relation.TransGen.head'_iff.mp hbelow
  exact performAll_linksMade calls allocated_empty linksMade_empty provider next hlinked

end Links

section Termination

variable [StdHash]

/-- Whatever the builders were asked to do, the enumerations of an entity terminate for all
published instances exactly when no object its links lead to, the entity included, leads
back to itself. -/
theorem terminates_iff_acyclic (calls : List BuilderCall) (entity : EntityId)
    (condition : Option Condition) :
    (∀ instances, Terminates ((performAll calls .empty).publish instances) entity condition) ↔
      Relation.AcyclicBelow (Supplements (performAll calls .empty).toEntityStore) entity :=
  (terminates_iff_acc condition).trans (Relation.acc_iff_acyclicBelow (finite_below calls entity))

end Termination

/-- A provider can be linked to itself. -/
theorem self_linked_provider_endless :
    ¬ ∀ (_ : StdHash) (calls : List BuilderCall) (instances : EntityId → List DBusInstance)
      (entity : EntityId) (condition : Option Condition),
      Terminates ((performAll calls .empty).publish instances) entity condition := by
  intro hclaim
  let hash : StdHash := polynomialHash
  let linkRule : ProviderLinkRule := fun _ => pure ⟨⟩
  let calls : List BuilderCall :=
    [.buildSupplementProvider "Status", .linkSupplementProvider ⟨0⟩ "Status" linkRule]
  have hself : Supplements (performAll calls .empty).toEntityStore 0 0 := by
    refine ⟨linkRule, ?_⟩
    exact List.mem_singleton.mpr rfl
  have hacc := (terminates_iff_acc none).mp fun instances => hclaim hash calls instances 0 none
  exact Relation.not_transGen_self_of_acc hacc (.single hself)

end ObmcWebapp.Entities

namespace ObmcWebapp.Application

open ObmcWebapp.Core ObmcWebapp.Entities

/-- The providers of the entity map are linked to entities only. -/
theorem acc_supplements {store : EntityStore} (hconfigured : Configured store) (entity : EntityId) :
    Acc (Supplements store) entity := by
  have hunlinked : ∀ object, (registeredEntity object).providers = [] →
      Acc (Supplements store) object := by
    rintro object hnone
    constructor
    rintro provider ⟨linkRule, hlinked⟩
    rw [hconfigured.providers, hnone] at hlinked
    cases hlinked
  constructor
  rintro provider ⟨linkRule, hlinked⟩
  apply hunlinked
  rw [hconfigured.providers] at hlinked
  rcases providers_cases entity with ⟨hnone, -⟩ | ⟨-, hsensors⟩ | ⟨-, hserver⟩
  · rw [hnone] at hlinked
    cases hlinked
  · rw [hsensors, List.mem_singleton] at hlinked
    cases hlinked
    rfl
  · rw [hserver, List.mem_singleton] at hlinked
    cases hlinked
    rfl

/-- In every reachable store all enumerations terminate. -/
theorem terminates_of_reachable [StdHash] {store : EntityStore}
    (hreach : storeMachine.Reachable store) (entity : EntityId) (condition : Option Condition) :
    Terminates store entity condition :=
  terminates_of_acc (acc_supplements (configured_of_reachable hreach) entity) condition

end ObmcWebapp.Application
