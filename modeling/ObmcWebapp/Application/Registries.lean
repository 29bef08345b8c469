/-
# Sequences of builder calls

Whatever the manager and its builders are asked to do, a registered name keeps the object
it was registered with. A call under a free name therefore returns the builder of the very
object the name resolves to from then on.

Under a taken name the two registries differ. `buildEntity` throws if the pointer it moved
into `emplace` is still there. `buildSupplementProvider` does not look: it returns the
builder of an object no name resolves to.
-/

import ObmcWebapp.Application.Builders

namespace ObmcWebapp.Entities

open ObmcWebapp.Core

/-- The two registries of a manager. -/
inductive Registry
  | entities
  | supplementProviders
  deriving DecidableEq

def EntityManager.registry (manager : EntityManager) : Registry → OrderedMap String EntityId
  | .entities => manager.entityDictionary
  | .supplementProviders => manager.supplementProviders

/-- A call of the manager or of one of its builders. For `buildEntity` it is given whether
an `emplace` that inserts nothing consumes its argument. -/
inductive BuilderCall
  | buildEntity (consumes : Bool) (name : String)
  | buildSupplementProvider (name : String)
  | addMembers (builder : EntityBuilder) (memberNames : List MemberName)
  | linkSupplementProvider (builder : EntityBuilder) (providerName : String)
      (linkRule : ProviderLinkRule)
  | addRelations (builder : EntityBuilder) (destinationName : String)
      (rules : List Entity.RuleSet)

namespace BuilderCall

def perform : BuilderCall → EStateM Failure Registries EntityBuilder
  | buildEntity consumes name => Entities.buildEntity consumes name
  | buildSupplementProvider name => Entities.buildSupplementProvider name
  | addMembers builder memberNames => builder.addMembers memberNames
  | linkSupplementProvider builder providerName linkRule =>
      builder.linkSupplementProvider providerName linkRule
  | addRelations builder destinationName rules => builder.addRelations destinationName rules

/-- The state a call leaves, whether it returns or throws. -/
def leave (call : BuilderCall) (registries : Registries) : Registries :=
  Fallible.left (call.perform registries)

/-- The registry and the name under which a call registers the object it makes. -/
def registers : BuilderCall → Option (Registry × String)
  | buildEntity _ name => some (.entities, name)
  | buildSupplementProvider name => some (.supplementProviders, name)
  | _ => none

/-- A registry after a call: the object is registered unless its name is taken. -/
def registered (call : BuilderCall) (registries : Registries) (registry : Registry) :
    OrderedMap String EntityId :=
  match call.registers with
  | some (own, name) =>
      if own = registry then (registries.registry registry).emplace name registries.made
      else registries.registry registry
  | none => registries.registry registry

end BuilderCall

/-- The state a sequence of calls leaves. -/
def performAll (calls : List BuilderCall) (registries : Registries) : Registries :=
  calls.foldl (fun registries call => call.leave registries) registries

/-- A call of a builder changes no registry and makes no object. -/
def Configures (registries next : Registries) : Prop :=
  next.toEntityManager = registries.toEntityManager ∧ next.made = registries.made

namespace EntityBuilder

variable (registries : Registries) (builder : EntityBuilder)

theorem addMembers_configures (memberNames : List MemberName) :
    Fallible.Leaves (Configures registries) (builder.addMembers memberNames registries) := by
  have hmember : ∀ member ∈ memberNames, ∀ state, Configures registries state →
      Fallible.Leaves (Configures registries) (builder.addMember member state) := by
    intro member _ state hstate
    unfold addMember
    split
    · exact hstate
    · exact hstate
  apply Fallible.Leaves.bind (Fallible.forEach_preserves hmember ⟨rfl, rfl⟩)
  exact fun _ next hnext => hnext

theorem linkSupplementProvider_configures (providerName : String) (linkRule : ProviderLinkRule) :
    Fallible.Leaves (Configures registries)
      (builder.linkSupplementProvider providerName linkRule registries) := by
  unfold linkSupplementProvider
  split
  · exact ⟨rfl, rfl⟩
  · exact ⟨rfl, rfl⟩

theorem addRelations_configures (destinationName : String) (rules : List Entity.RuleSet) :
    Fallible.Leaves (Configures registries)
      (builder.addRelations destinationName rules registries) := by
  unfold addRelations
  split
  · exact ⟨rfl, rfl⟩
  · exact ⟨rfl, rfl⟩

end EntityBuilder

namespace BuilderCall

/-- What one call does to the registries. -/
theorem leave_spec (call : BuilderCall) (registries : Registries) :
    (call.leave registries).registry = call.registered registries ∧
      (call.leave registries).made = registries.made + call.registers.isSome.toNat := by
  have hconfigures {call : BuilderCall} (hnone : call.registers = none)
      (hleaves : Fallible.Leaves (Configures registries) (call.perform registries)) :
      (call.leave registries).registry = call.registered registries ∧
        (call.leave registries).made = registries.made + call.registers.isSome.toNat := by
    obtain ⟨hmanager, hmade⟩ := hleaves.of_left
    unfold leave registered
    rw [hmanager, hmade, hnone]
    exact ⟨rfl, rfl⟩
  cases call with
  | buildEntity consumes name =>
      have hleaves : Fallible.Leaves
          (fun next => next.entityDictionary =
              registries.entityDictionary.emplace name registries.made ∧
            next.supplementProviders = registries.supplementProviders ∧
            next.made = registries.made + 1)
          ((buildEntity consumes name).perform registries) := by
        rw [perform]
        cases hname : registries.entityDictionary.find? name with
        | none =>
            rw [buildEntity_fresh consumes hname]
            exact ⟨rfl, rfl, rfl⟩
        | some object =>
            rw [buildEntity_taken consumes hname]
            exact ⟨(OrderedMap.emplace_of_find? registries.made hname).symm, rfl, rfl⟩
      obtain ⟨hentities, hproviders, hmade⟩ := hleaves.of_left
      refine ⟨funext fun registry => ?_, hmade⟩
      cases registry with
      | entities => exact hentities
      | supplementProviders => exact hproviders
  | buildSupplementProvider name =>
      refine ⟨funext fun registry => ?_, rfl⟩
      cases registry with
      | entities => rfl
      | supplementProviders => rfl
  | addMembers builder memberNames =>
      exact hconfigures rfl (builder.addMembers_configures registries memberNames)
  | linkSupplementProvider builder providerName linkRule =>
      exact hconfigures rfl
        (builder.linkSupplementProvider_configures registries providerName linkRule)
  | addRelations builder destinationName rules =>
      exact hconfigures rfl (builder.addRelations_configures registries destinationName rules)

end BuilderCall

namespace Registries

/-- Every registered name still stands for the same object. -/
def Keeps (earlier later : Registries) : Prop :=
  ∀ registry name object, (earlier.registry registry).find? name = some object →
    (later.registry registry).find? name = some object

/-- Every registered object has been made. -/
def Allocated (registries : Registries) : Prop :=
  ∀ registry name object, (registries.registry registry).find? name = some object →
    object < registries.made

end Registries

open Registries

namespace BuilderCall

theorem leave_keeps (call : BuilderCall) (registries : Registries) :
    Keeps registries (call.leave registries) := by
  intro registry name object hfound
  rw [(call.leave_spec registries).1]
  unfold registered
  split
  · split_ifs
    · exact OrderedMap.find?_emplace_of_find? _ _ hfound
    · exact hfound
  · exact hfound

theorem leave_allocated (call : BuilderCall) {registries : Registries}
    (hallocated : registries.Allocated) : (call.leave registries).Allocated := by
  obtain ⟨hregistered, hmade⟩ := call.leave_spec registries
  intro registry name object hfound
  rw [hregistered] at hfound
  have hold : (registries.registry registry).find? name = some object →
      object < (call.leave registries).made := fun hbefore =>
    (hallocated registry name object hbefore).trans_le (hmade ▸ Nat.le_add_right _ _)
  unfold registered at hfound
  split at hfound
  next own ownName hcall =>
    rw [hcall] at hmade
    split_ifs at hfound
    · rw [OrderedMap.find?_emplace] at hfound
      split_ifs at hfound with hname
      · -- the name is taken by an earlier object, or it is the next one
        cases hbefore : (registries.registry registry).find? ownName with
        | none =>
            rw [hbefore] at hfound
            cases hfound
            exact hmade ▸ Nat.lt_succ_self _
        | some before =>
            rw [hbefore] at hfound
            cases hfound
            subst hname
            exact hold hbefore
      · exact hold hfound
    · exact hold hfound
  next => exact hold hfound

end BuilderCall

/-- A registered name resolves to the same object after any further calls. -/
theorem performAll_keeps (calls : List BuilderCall) (registries : Registries) :
    Keeps registries (performAll calls registries) := by
  induction calls generalizing registries with
  | nil => exact fun _ _ _ hfound => hfound
  | cons call calls ih =>
      intro registry name object hfound
      exact ih (call.leave registries) registry name object
        (call.leave_keeps registries registry name object hfound)

theorem performAll_allocated (calls : List BuilderCall) {registries : Registries}
    (hallocated : registries.Allocated) : (performAll calls registries).Allocated := by
  induction calls generalizing registries with
  | nil => exact hallocated
  | cons call calls ih => exact ih (call.leave_allocated hallocated)

theorem allocated_empty : Registries.empty.Allocated := by
  intro registry name object hfound
  cases registry with
  | entities => cases hfound
  | supplementProviders => cases hfound

/-- The names taken are those the earlier calls registered. -/
theorem taken_iff (calls : List BuilderCall) (registry : Registry) (name : String) :
    (((performAll calls .empty).registry registry).find? name).isSome ↔
      ∃ call ∈ calls, call.registers = some (registry, name) := by
  induction calls using List.reverseRecOn with
  | nil => cases registry <;> simp [performAll, Registries.empty, EntityManager.registry]
  | append_singleton calls call ih =>
      have hleave : (performAll (calls ++ [call]) .empty).registry =
          call.registered (performAll calls .empty) := by
        rw [performAll, List.foldl_append]
        exact (call.leave_spec _).1
      have hmem : (∃ before ∈ calls ++ [call], before.registers = some (registry, name)) ↔
          (∃ before ∈ calls, before.registers = some (registry, name)) ∨
            call.registers = some (registry, name) := by
        simp [or_and_right, exists_or]
      rw [hleave, hmem, ← ih]
      unfold BuilderCall.registered
      cases call.registers with
      | none => simp
      | some own =>
          obtain ⟨ownRegistry, ownName⟩ := own
          by_cases hregistry : ownRegistry = registry
          · by_cases hname : name = ownName
            · simp [hregistry, hname, OrderedMap.find?_emplace]
            · simp [hregistry, hname, OrderedMap.find?_emplace, Ne.symm hname]
          · simp [hregistry]

/-- The name resolves to the object: `getEntity` finds the entity, `linkSupplementProvider`
of any builder links the provider. -/
def Registry.Resolves (registry : Registry) (name : String) (registries : Registries)
    (object : EntityId) : Prop :=
  match registry with
  | .entities => registries.getEntity name = .ok object
  | .supplementProviders => ∀ (builder : EntityBuilder) (linkRule : ProviderLinkRule), ∃ linked,
      builder.linkSupplementProvider name linkRule registries = .ok builder linked ∧
      linked.objects builder.entity =
        (registries.objects builder.entity).linkSupplementProvider object linkRule

namespace BuilderCall

/-- Under a free name a build call returns a builder, and whatever is called later the name
resolves to the object the builder configures. -/
def Succeeds (call : BuilderCall) (registry : Registry) (name : String)
    (registries : Registries) : Prop :=
  ∃ builder next, call.perform registries = .ok builder next ∧
    ∀ later, registry.Resolves name (performAll later next) builder.entity

/-- Under a taken name a build call throws, and the registries and the registered object
stay as they are. -/
def Refuses (call : BuilderCall) (registered : EntityId) (registries : Registries) : Prop :=
  ∃ what next, call.perform registries = .error (.raised (.entity what)) next ∧
    next.toEntityManager = registries.toEntityManager ∧
    next.objects registered = registries.objects registered ∧
    next.relations registered = registries.relations registered

/-- What a call is to do in the state in which it is made. -/
def Consistent (call : BuilderCall) (registries : Registries) : Prop :=
  match call.registers with
  | none => True
  | some (registry, name) =>
      match (registries.registry registry).find? name with
      | none => call.Succeeds registry name registries
      | some registered => call.Refuses registered registries

/-- The call takes the name of an earlier one in the same registry and cannot tell: the name
of a provider is not checked, and a consumed pointer cannot be read. -/
def Slips (call : BuilderCall) (earlier : List BuilderCall) : Prop :=
  match call with
  | buildEntity consumes _ =>
      consumes = true ∧ ∃ before ∈ earlier, before.registers = call.registers
  | buildSupplementProvider _ => ∃ before ∈ earlier, before.registers = call.registers
  | _ => False

end BuilderCall

/-- Every call of the sequence does what it is to do, after the calls before it. -/
def ConsistentRun (calls : List BuilderCall) : Prop :=
  ∀ earlier call later, calls = earlier ++ call :: later →
    call.Consistent (performAll earlier .empty)

section Consistency

variable {registries : Registries} {name : String}

theorem getEntity_of_find? {manager : EntityManager} {object : EntityId}
    (hfound : manager.entityDictionary.find? name = some object) :
    manager.getEntity name = .ok object := by
  rw [EntityManager.getEntity, hfound]

/-- A registered name resolves. -/
theorem resolves_of_find? {registry : Registry} {object : EntityId}
    (hfound : (registries.registry registry).find? name = some object) :
    registry.Resolves name registries object := by
  cases registry with
  | entities => exact getEntity_of_find? hfound
  | supplementProviders =>
      intro builder linkRule
      refine ⟨registries.putObject builder.entity
        ((registries.objects builder.entity).linkSupplementProvider object linkRule)
        (registries.unset builder.entity), ?_, Function.update_self _ _ _⟩
      rw [EntityManager.registry] at hfound
      unfold EntityBuilder.linkSupplementProvider
      simp only [hfound]

/-- `buildEntity` does what it is to do unless the name is taken and the pointer consumed. -/
theorem buildEntity_consistent_iff (consumes : Bool) (hallocated : registries.Allocated) :
    (BuilderCall.buildEntity consumes name).Consistent registries ↔
      ¬ (consumes = true ∧ (registries.entityDictionary.find? name).isSome) := by
  simp only [BuilderCall.Consistent, BuilderCall.registers, EntityManager.registry]
  cases hname : registries.entityDictionary.find? name with
  | none =>
      refine iff_of_true ?_ (by simp)
      refine ⟨_, _, buildEntity_fresh consumes hname, fun later => resolves_of_find? ?_⟩
      apply performAll_keeps later _ .entities
      simp [EntityManager.registry, hname]
  | some object =>
      have hobject : object < registries.made := hallocated .entities name object hname
      have htaken := buildEntity_taken consumes hname
      cases consumes with
      | false =>
          refine iff_of_true ?_ (by simp)
          refine ⟨_, _, htaken, rfl, registries.objects_withObject name hobject, ?_⟩
          exact Function.update_of_ne hobject.ne _ _
      | true =>
          refine iff_of_false ?_ (by simp)
          rintro ⟨what, next, hperform, -⟩
          rw [BuilderCall.perform, htaken] at hperform
          cases hperform

/-- `buildSupplementProvider` does what it is to do unless the name is taken. -/
theorem buildSupplementProvider_consistent_iff :
    (BuilderCall.buildSupplementProvider name).Consistent registries ↔
      ¬ (registries.supplementProviders.find? name).isSome := by
  simp only [BuilderCall.Consistent, BuilderCall.registers, EntityManager.registry]
  cases hname : registries.supplementProviders.find? name with
  | none =>
      refine iff_of_true ?_ (by simp)
      refine ⟨_, _, buildSupplementProvider_eq registries name,
        fun later => resolves_of_find? ?_⟩
      apply performAll_keeps later _ .supplementProviders
      simp [EntityManager.registry, hname]
  | some object =>
      refine iff_of_false ?_ (by simp)
      rintro ⟨what, next, hperform, -⟩
      rw [BuilderCall.perform, buildSupplementProvider_eq] at hperform
      cases hperform

/-- In the state the earlier calls left, a call does what it is to do unless it slips. -/
theorem consistent_iff (earlier : List BuilderCall) (call : BuilderCall) :
    call.Consistent (performAll earlier .empty) ↔ ¬ call.Slips earlier := by
  cases call with
  | buildEntity consumes name =>
      have htaken := taken_iff earlier .entities name
      rw [EntityManager.registry] at htaken
      rw [buildEntity_consistent_iff consumes (performAll_allocated earlier allocated_empty),
        htaken]
      rfl
  | buildSupplementProvider name =>
      have htaken := taken_iff earlier .supplementProviders name
      rw [EntityManager.registry] at htaken
      rw [buildSupplementProvider_consistent_iff, htaken]
      rfl
  | addMembers builder memberNames => exact iff_of_true trivial not_false
  | linkSupplementProvider builder providerName linkRule => exact iff_of_true trivial not_false
  | addRelations builder destinationName rules => exact iff_of_true trivial not_false

/-- The registries stay consistent exactly while no provider name is registered again and
no repeated entity name costs the pointer. -/
theorem registries_consistent_iff (calls : List BuilderCall) :
    ConsistentRun calls ↔
      ∀ earlier call later, calls = earlier ++ call :: later → ¬ call.Slips earlier := by
  constructor
  · intro hconsistent earlier call later hcalls
    exact (consistent_iff earlier call).mp (hconsistent earlier call later hcalls)
  · intro hslips earlier call later hcalls
    exact (consistent_iff earlier call).mpr (hslips earlier call later hcalls)

/-- A provider name registered twice is not refused. -/
theorem second_provider_accepted :
    ¬ ConsistentRun [.buildSupplementProvider "Status", .buildSupplementProvider "Status"] := by
  intro hconsistent
  have hsecond := hconsistent [.buildSupplementProvider "Status"]
    (.buildSupplementProvider "Status") [] rfl
  rw [consistent_iff] at hsecond
  exact hsecond ⟨_, List.mem_singleton.mpr rfl, rfl⟩

end Consistency

end ObmcWebapp.Entities
