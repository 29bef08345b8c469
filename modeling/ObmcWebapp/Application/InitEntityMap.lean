/-
# The statements of the entity map

`initEntityMap` is seven chains of builder calls. Run from an empty manager none of them
throws, and what they build is the entity map: the two registries with the objects they
name, each with its members, its meta members and its provider links.
-/

import ObmcWebapp.Application.Builders

namespace ObmcWebapp.Entities

open ObmcWebapp.Core

theorem Entity.unset_withMembers (name : String) (memberNames : List MemberName)
    (providers : List (EntityId × ProviderLinkRule)) :
    (Entity.withMembers name memberNames providers).Unset := by
  intro wanted found hfound
  rw [withMembers, OrderedMap.find?_ofList] at hfound
  induction memberNames with
  | nil => cases hfound
  | cons first memberNames ih =>
      rw [List.map_cons, Entries.lookup_cons] at hfound
      split_ifs at hfound with hfirst
      · cases hfound
        rfl
      · exact ih hfound

namespace Registries

variable (registries : Registries) (object : EntityId)

/-- An object that is replaced twice. -/
theorem putObject_putObject {first second : Entity} (hfirst : first.Unset)
    (hsecond : second.Unset) :
    (registries.putObject object first hfirst).putObject object second hsecond =
      registries.putObject object second hsecond := by
  simp [putObject, Function.update_idem]

theorem putObject_self : registries.putObject object (registries.objects object)
    (registries.unset object) = registries := by
  simp [putObject, Function.update_eq_self]

end Registries

namespace EntityBuilder

variable {registries : Registries} {builder : EntityBuilder}

theorem addMember_ok {member : MemberName} {added : Entity}
    (hadd : (registries.objects builder.entity).addMember member = .ok added) :
    ∃ hunset, builder.addMember member registries =
      .ok ⟨⟩ (registries.putObject builder.entity added hunset) := by
  refine ⟨(registries.unset builder.entity).addMember hadd, ?_⟩
  unfold addMember
  split
  next found hfound =>
    cases hadd.symm.trans hfound
    rfl
  next exception hfound => cases hadd.symm.trans hfound

/-- The builder adds to its object what `addMembers` of the object adds. -/
theorem addMembers_ok {memberNames : List MemberName} {added : Entity}
    (hadd : Entity.addMembers memberNames (registries.objects builder.entity) = .ok added) :
    ∃ hunset, builder.addMembers memberNames registries =
      .ok builder (registries.putObject builder.entity added hunset) := by
  suffices hforEach : ∃ hunset, Fallible.forEach builder.addMember memberNames registries =
      .ok ⟨⟩ (registries.putObject builder.entity added hunset) by
    obtain ⟨hunset, hforEach⟩ := hforEach
    exact ⟨hunset, Fallible.bind_ok hforEach⟩
  induction memberNames generalizing registries with
  | nil =>
      cases hadd
      refine ⟨registries.unset builder.entity, ?_⟩
      rw [Registries.putObject_self]
      rfl
  | cons member memberNames ih =>
      rw [Entity.addMembers, List.foldlM_cons] at hadd
      cases hfirst : (registries.objects builder.entity).addMember member with
      | error exception =>
          rw [hfirst] at hadd
          cases hadd
      | ok first =>
          rw [hfirst] at hadd
          obtain ⟨hunsetFirst, hmember⟩ := addMember_ok hfirst
          have hrest : Entity.addMembers memberNames
              ((registries.putObject builder.entity first hunsetFirst).objects builder.entity) =
                .ok added := by
            rw [Registries.objects_putObject]
            exact hadd
          obtain ⟨hunset, hmembers⟩ := ih hrest
          refine ⟨hunset, ?_⟩
          rw [Fallible.forEach, Fallible.bind_ok hmember, hmembers,
            Registries.putObject_putObject]

/-- Link the provider of this name. -/
def link (builder : EntityBuilder) (named : String × ProviderLinkRule) :
    EStateM Failure Registries PUnit := do
  let _ ← builder.linkSupplementProvider named.1 named.2

theorem link_ok {named : String × ProviderLinkRule} {provider : EntityId × ProviderLinkRule}
    (hfound : registries.supplementProviders.find? named.1 = some provider.1)
    (hrule : named.2 = provider.2) :
    builder.link named registries =
      .ok ⟨⟩ (registries.putObject builder.entity
        ((registries.objects builder.entity).linkSupplementProvider provider.1 provider.2)
        (registries.unset builder.entity)) := by
  have hlinked : builder.linkSupplementProvider named.1 named.2 registries =
      .ok builder (registries.putObject builder.entity
        ((registries.objects builder.entity).linkSupplementProvider provider.1 provider.2)
        (registries.unset builder.entity)) := by
    unfold linkSupplementProvider
    simp only [hfound, hrule]
  exact Fallible.bind_ok hlinked

end EntityBuilder

end ObmcWebapp.Entities

namespace ObmcWebapp.Application

open ObmcWebapp.Core ObmcWebapp.Entities definitions

/-- One statement of `initEntityMap`: the build call, the object it makes and the providers
linked to it, by name. -/
structure Statement where
  build : String → EStateM Failure Registries EntityBuilder
  entity : EntityId
  links : List (String × ProviderLinkRule) := []

/-- The builder chain of a statement; `addObject` adds the meta members. -/
def Statement.configure (statement : Statement) (registration : Registration) :
    EStateM Failure Registries PUnit := do
  let builder ← statement.build registration.name
  let builder ← builder.addMembers registration.members
  Fallible.forEach builder.link statement.links
  let _ ← builder.addMembers metaMembers

def Statement.run (statement : Statement) : EStateM Failure Registries PUnit :=
  match registration? statement.entity with
  | some registration => statement.configure registration
  | none => pure ⟨⟩

/-- The statements of `initEntityMap`. -/
def statements (consumes : Bool) : List Statement :=
  [ { build := buildSupplementProvider, entity := statusProvider },
    { build := buildSupplementProvider, entity := versionProvider },
    { build := buildEntity consumes, entity := relationsEntity },
    { build := buildEntity consumes, entity := sensorsEntity
      links := [(providerStatus, Sensors.linkStatus)] },
    { build := buildEntity consumes, entity := serverEntity
      links := [(providerVersion, Server.linkVersions)] },
    { build := buildEntity consumes, entity := chassisEntity },
    { build := buildEntity consumes, entity := baseboardEntity } ]

theorem registeredEntity_of_registration {entity : EntityId} {registration : Registration}
    (hregistration : registration? entity = some registration) :
    registeredEntity entity =
      .withMembers registration.name (registration.members ++ metaMembers)
        registration.providers := by
  rw [registeredEntity, hregistration]

theorem unset_registeredEntity (entity : EntityId) : (registeredEntity entity).Unset := by
  unfold registeredEntity
  split
  · exact Entity.unset_withMembers _ _ _
  · exact Entity.unset_create _

/-- The names stand for these providers. -/
def Linked (manager : EntityManager) (links : List (String × ProviderLinkRule))
    (providers : List (EntityId × ProviderLinkRule)) : Prop :=
  List.Forall₂ (fun link provider =>
    manager.supplementProviders.find? link.1 = some provider.1 ∧ link.2 = provider.2)
    links providers

/-- Linking registered providers one after the other. -/
theorem links_ok {links : List (String × ProviderLinkRule)}
    {providers linked : List (EntityId × ProviderLinkRule)} {registries : Registries}
    {builder : EntityBuilder} {name : String} {memberNames : List MemberName}
    (hlinks : Linked registries.toEntityManager links providers)
    (hobject : registries.objects builder.entity = .withMembers name memberNames linked) :
    Fallible.forEach builder.link links registries =
      .ok ⟨⟩ (registries.putObject builder.entity
        (.withMembers name memberNames (linked ++ providers))
        (Entity.unset_withMembers _ _ _)) := by
  induction links generalizing registries linked providers with
  | nil =>
      cases hlinks
      simp only [List.append_nil, ← hobject, Registries.putObject_self]
      rfl
  | cons link links ih =>
      cases hlinks with
      | @cons _ provider _ providers hlink hlinks =>
          have hunset := Entity.unset_withMembers name memberNames (linked ++ [provider])
          have hfirst : builder.link link registries =
              .ok ⟨⟩ (registries.putObject builder.entity _ hunset) := by
            rw [EntityBuilder.link_ok hlink.1 hlink.2]
            simp only [hobject]
            rfl
          have hlinksNext : Linked
              (registries.putObject builder.entity _ hunset).toEntityManager links providers :=
            hlinks
          have hrest := ih hlinksNext (registries.objects_putObject builder.entity hunset)
          rw [Fallible.forEach, Fallible.bind_ok hfirst, hrest]
          simp only [List.append_assoc, List.singleton_append, Registries.putObject_putObject]

/-- A statement whose build call returns a new object leaves the registered entity there. -/
theorem configure_ok {statement : Statement} {registration : Registration}
    {registries next : Registries} {builder : EntityBuilder}
    (hregistration : registration? builder.entity = some registration)
    (hbuild : statement.build registration.name registries = .ok builder next)
    (hobject : next.objects builder.entity = .create registration.name)
    (hlinks : Linked next.toEntityManager statement.links registration.providers) :
    statement.configure registration registries = .ok ⟨⟩ (next.putObject builder.entity
      (registeredEntity builder.entity) (unset_registeredEntity builder.entity)) := by
  have hnodup := members_nodup hregistration
  have hmembers : Entity.addMembers registration.members (next.objects builder.entity) =
      .ok (.withMembers registration.name registration.members []) := by
    have hbefore : ([] ++ registration.members).Nodup := (List.nodup_append.mp hnodup).1
    rw [hobject]
    exact Entity.addMembers_withMembers registration.name [] hbefore
  obtain ⟨hunsetMembers, haddMembers⟩ := EntityBuilder.addMembers_ok hmembers
  have hlinksMembers : Linked
      (next.putObject builder.entity _ hunsetMembers).toEntityManager
      statement.links registration.providers := hlinks
  have hlinked := links_ok hlinksMembers (next.objects_putObject builder.entity hunsetMembers)
  rw [List.nil_append, Registries.putObject_putObject] at hlinked
  have hunsetLinked := Entity.unset_withMembers registration.name registration.members
    registration.providers
  have hmeta : Entity.addMembers metaMembers
      ((next.putObject builder.entity _ hunsetLinked).objects builder.entity) =
      .ok (registeredEntity builder.entity) := by
    rw [Registries.objects_putObject, registeredEntity_of_registration hregistration]
    exact Entity.addMembers_withMembers registration.name registration.providers hnodup
  obtain ⟨hunsetMeta, haddMeta⟩ := EntityBuilder.addMembers_ok hmeta
  rw [Registries.putObject_putObject] at haddMeta
  rw [Statement.configure, Fallible.bind_ok hbuild, Fallible.bind_ok haddMembers,
    Fallible.bind_ok hlinked, Fallible.bind_ok haddMeta]
  rfl

/-- The state after the statements of the objects before `made`. -/
def builtUpTo (made : ℕ) (entities providers : List (String × EntityId)) : Registries where
  entityDictionary := OrderedMap.ofList entities
  supplementProviders := OrderedMap.ofList providers
  objects entity := if entity < made then registeredEntity entity else .create ""
  notAvailable := .notAvailable
  relations _ := []
  made := made
  unset entity := by
    split
    · exact unset_registeredEntity entity
    · exact Entity.unset_create ""

section Steps

variable {made : ℕ} {entities providers : List (String × EntityId)} {registration : Registration}

/-- Filling in one more object. -/
theorem objects_builtUpTo_succ (entity : Entity) :
    Function.update (Function.update (builtUpTo made entities providers).objects made entity) made
        (registeredEntity made) =
      (builtUpTo (made + 1) entities providers).objects := by
  rw [Function.update_idem]
  funext object
  by_cases hobject : object = made
  · subst hobject
    simp [builtUpTo]
  · have hlt : object < made + 1 ↔ object < made :=
      Nat.lt_succ_iff_lt_or_eq.trans (or_iff_left hobject)
    simp only [builtUpTo, Function.update_of_ne hobject, hlt]

/-- A statement that builds an entity. -/
theorem run_buildEntity (consumes : Bool) {links : List (String × ProviderLinkRule)}
    (hregistration : registration? made = some registration)
    (hfresh : entities.lookup registration.name = none)
    (hlinks : Linked (builtUpTo made entities providers).toEntityManager links
      registration.providers) :
    Statement.run ⟨buildEntity consumes, made, links⟩ (builtUpTo made entities providers) =
      .ok ⟨⟩ (builtUpTo (made + 1) (entities ++ [(registration.name, made)]) providers) := by
  have hbuild : buildEntity consumes registration.name (builtUpTo made entities providers) = _ :=
    buildEntity_fresh consumes (by simpa [builtUpTo] using hfresh)
  have hrun := @configure_ok ⟨buildEntity consumes, made, links⟩ registration _ _ ⟨made⟩
    hregistration hbuild (Function.update_self _ _ _) hlinks
  simp only [Statement.run, hregistration]
  rw [hrun]
  congr 1
  ext1
  · exact (OrderedMap.ofList_append_singleton entities registration.name made).symm
  · rfl
  · exact objects_builtUpTo_succ _
  · rfl
  · exact Function.update_eq_self made _
  · rfl

/-- A statement that builds a provider, which has no provider of its own. -/
theorem run_buildSupplementProvider (hregistration : registration? made = some registration)
    (hunlinked : registration.providers = []) :
    Statement.run ⟨buildSupplementProvider, made, []⟩ (builtUpTo made entities providers) =
      .ok ⟨⟩ (builtUpTo (made + 1) entities (providers ++ [(registration.name, made)])) := by
  have hlinks (manager : EntityManager) : Linked manager [] registration.providers := by
    rw [hunlinked]
    exact .nil
  have hrun := @configure_ok ⟨buildSupplementProvider, made, []⟩ registration _ _ ⟨made⟩
    hregistration (buildSupplementProvider_eq (builtUpTo made entities providers) _)
    (Function.update_self _ _ _) (hlinks _)
  simp only [Statement.run, hregistration]
  rw [hrun]
  congr 1
  ext1
  · rfl
  · exact (OrderedMap.ofList_append_singleton providers registration.name made).symm
  · exact objects_builtUpTo_succ _
  · rfl
  · exact Function.update_eq_self made _
  · rfl

end Steps

theorem empty_eq_builtUpTo : Registries.empty = builtUpTo 0 [] [] := by
  ext1
  · rfl
  · rfl
  · funext object
    simp [Registries.empty, builtUpTo]
  · rfl
  · rfl
  · rfl

/-- There are seven objects. -/
theorem registeredEntity_of_ge {object : EntityId} (hobject : 7 ≤ object) :
    registeredEntity object = .create "" := by
  obtain ⟨rest, rfl⟩ := Nat.exists_eq_add_of_le' hobject
  rfl

theorem store_builtUpTo (entities providers : List (String × EntityId)) :
    (builtUpTo 7 entities providers).toEntityStore = initEntityMap := by
  have hobjects : (builtUpTo 7 entities providers).objects = registeredEntity := by
    funext object
    by_cases hobject : object < 7
    · exact if_pos hobject
    · rw [registeredEntity_of_ge (Nat.le_of_not_lt hobject)]
      exact if_neg hobject
  rw [initEntityMap, ← hobjects]
  rfl

/-- From an empty manager the statements do not throw and build the entity map. -/
theorem initEntityMap_built (consumes : Bool) :
    ∃ final, Fallible.forEach Statement.run (statements consumes) .empty = .ok ⟨⟩ final ∧
      final.toEntityManager = entityManager ∧ final.toEntityStore = initEntityMap := by
  have hstatus := @run_buildSupplementProvider 0 [] [] _ rfl rfl
  have hversion := @run_buildSupplementProvider 1 [] [(providerStatus, 0)] _ rfl rfl
  let providers : List (String × EntityId) := [(providerStatus, 0), (providerVersion, 1)]
  have hrelations := @run_buildEntity 2 [] providers _ consumes [] rfl rfl .nil
  have hsensors := @run_buildEntity 3 [(providerRelations, 2)] providers _ consumes
    [(providerStatus, Sensors.linkStatus)] rfl (by decide) (.cons ⟨by decide, rfl⟩ .nil)
  have hserver := @run_buildEntity 4 [(providerRelations, 2), (entitySensors, 3)] providers _
    consumes [(providerVersion, Server.linkVersions)] rfl (by decide)
    (.cons ⟨by decide, rfl⟩ .nil)
  have hchassis := @run_buildEntity 5
    [(providerRelations, 2), (entitySensors, 3), (entityServer, 4)] providers _ consumes []
    rfl (by decide) .nil
  have hbaseboard := @run_buildEntity 6
    [(providerRelations, 2), (entitySensors, 3), (entityServer, 4), (entityChassis, 5)]
    providers _ consumes [] rfl (by decide) .nil
  refine ⟨builtUpTo 7 [(providerRelations, 2), (entitySensors, 3), (entityServer, 4),
    (entityChassis, 5), (entityBaseboard, 6)] providers, ?_, rfl, store_builtUpTo _ _⟩
  rw [empty_eq_builtUpTo]
  exact (Fallible.bind_ok hstatus).trans <| (Fallible.bind_ok hversion).trans <|
    (Fallible.bind_ok hrelations).trans <| (Fallible.bind_ok hsensors).trans <|
    (Fallible.bind_ok hserver).trans <| (Fallible.bind_ok hchassis).trans <|
    Fallible.bind_ok hbaseboard

end ObmcWebapp.Application
