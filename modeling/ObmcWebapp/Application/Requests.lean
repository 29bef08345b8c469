/-
# Requests to the running application

A request walks a document over a reachable store. Its enumerations settle, so the store
has a view of each entity, which is missing only for the sensors, and only when some
status instance concerns a sensor.

Two kinds of constructs end a request without an answer: a scalar field of the operation
itself, for which the root builder has no entity, and a field with a selection set that
names the sensors while their view is missing. Either the rule throws for an unknown
status, which is no GraphQL error and nothing catches it, or the statuses are known and
the rule reads a destroyed name, after which nothing is certain.
-/

import ObmcWebapp.Application.EntityMap
import ObmcWebapp.Graphql.Aliases

namespace ObmcWebapp.Application

open ObmcWebapp.Core ObmcWebapp.Entities ObmcWebapp.Graphql definitions

variable [StdHash]

/-- Some status instance concerns a sensor. -/
def SensorConcerned (store : EntityStore) : Prop :=
  ∃ supplementing ∈ exposures store statusProvider, ∃ target ∈ exposures store sensorsEntity,
    Sensors.Concerned supplementing target

section Configured

variable {store : EntityStore} (hconfigured : Configured store)

include hconfigured

omit [StdHash] in
/-- What the elements of an entity are supplemented by. -/
theorem linksOf_cases (shows : EntityId → List Instance) (entity : EntityId) :
    linksOf store shows entity = [] ∧ entity ≠ sensorsEntity ∨
    entity = sensorsEntity ∧
      linksOf store shows entity = Sensors.statusLinks (shows statusProvider) ∨
    entity = serverEntity ∧ linksOf store shows entity =
      (shows versionProvider).map fun supplementing => (Server.linkVersions, supplementing) := by
  rw [linksOf, hconfigured.providers]
  rcases providers_cases entity with ⟨hnone, hother⟩ | ⟨rfl, hsensors⟩ | ⟨rfl, hserver⟩
  · rw [hnone]
    exact .inl ⟨rfl, hother⟩
  · rw [hsensors, List.flatMap_singleton]
    exact .inr (.inl ⟨rfl, rfl⟩)
  · rw [hserver, List.flatMap_singleton]
    exact .inr (.inr ⟨rfl, rfl⟩)

omit [StdHash] in
/-- The providers have no providers. -/
theorem providers_unlinked {entity : EntityId} {provider : EntityId × ProviderLinkRule}
    (hmem : provider ∈ (store.objects entity).providers) :
    (store.objects provider.1).providers = [] := by
  rw [hconfigured.providers] at hmem ⊢
  rcases providers_cases entity with ⟨hnone, -⟩ | ⟨-, hsensors⟩ | ⟨-, hserver⟩
  · rw [hnone] at hmem
    cases hmem
  · rw [hsensors, List.mem_singleton] at hmem
    rw [hmem]
    rfl
  · rw [hserver, List.mem_singleton] at hmem
    rw [hmem]
    rfl

/-- The enumerations of a configured store settle. -/
def linkage : Linkage store where
  shows := exposures store
  rank entity := (store.objects entity).providers.length
  notAvailable := hconfigured.notAvailable
  descends entity provider hmem := by
    rw [providers_unlinked hconfigured hmem]
    exact List.length_pos_of_mem hmem
  keeps := linked_keepsNotAvailable hconfigured
  shown entity provider hmem := viewOf_unlinked _ (providers_unlinked hconfigured hmem)
  settles entity := by
    rcases linksOf_cases hconfigured (exposures store) entity with
      ⟨hnone, -⟩ | ⟨-, hsensors⟩ | ⟨-, hserver⟩
    · rw [hnone]
      exact settles_nil
    · rw [hsensors]
      exact Sensors.settles_statuses _
    · rw [hserver]
      exact settles_versions _

theorem rank_lt (depth : ℕ) (entity : EntityId) :
    (linkage hconfigured).rank entity < depth + 2 := by
  have hlength : (store.objects entity).providers.length ≤ 1 := by
    rw [hconfigured.providers]
    rcases providers_cases entity with ⟨hproviders, -⟩ | ⟨-, hproviders⟩ | ⟨-, hproviders⟩
    all_goals simp [hproviders]
  show (store.objects entity).providers.length < depth + 2
  omega

omit [StdHash] in
/-- What a rule fails with comes from comparing statuses of a sensor. -/
theorem exists_of_linkAll_error {shows : EntityId → List Instance} {entity : EntityId}
    {target : Instance} {failed : RuleFailure}
    (herror : linkAll (linksOf store shows entity) target = .error failed) :
    entity = sensorsEntity ∧ Uncaught failed.failure ∧
      ∃ supplementing ∈ shows statusProvider, Sensors.Concerned supplementing target := by
  rcases linksOf_cases hconfigured shows entity with
    ⟨hnone, -⟩ | ⟨hentity, hsensors⟩ | ⟨-, hserver⟩
  · rw [hnone] at herror
    cases herror
  · rw [hsensors] at herror
    refine ⟨hentity, ?_, (Sensors.linkAll_error_iff _ _).mp ⟨failed, herror⟩⟩
    rcases Sensors.linkAll_error_cases herror with rfl | ⟨what, rfl⟩
    · exact .undefinedBehaviour _
    · exact .obmcApp what
  · rw [hserver, linkAll_versions] at herror
    cases herror

end Configured

/-- What a request to a configured store sees. -/
def requestSnapshot (store : EntityStore) : Snapshot where
  manager := entityManager
  members entity := (store.objects entity).members
  view entity :=
    match viewOf store (exposures store) entity with
    | .ok instances => instances
    | .error _ => []
  raises entity :=
    match viewOf store (exposures store) entity with
    | .ok _ => false
    | .error _ => true

/-- The only view that can be missing is that of the sensors. -/
theorem raises_iff {store : EntityStore} (hconfigured : Configured store) (entity : EntityId) :
    (requestSnapshot store).raises entity = true ↔
      entity = sensorsEntity ∧ SensorConcerned store := by
  have hraises : (requestSnapshot store).raises entity = true ↔
      ∃ exception, viewOf store (exposures store) entity = .error exception := by
    simp only [requestSnapshot]
    cases viewOf store (exposures store) entity with
    | ok instances => simp
    | error exception => simp
  rw [hraises]
  constructor
  · rintro ⟨exception, hview⟩
    obtain ⟨target, htarget, hlink⟩ := exists_of_viewOf_error hview
    obtain ⟨rfl, -, supplementing, hmem, hconcerned⟩ :=
      exists_of_linkAll_error hconfigured hlink
    exact ⟨rfl, supplementing, hmem, target, htarget, hconcerned⟩
  · rintro ⟨rfl, supplementing, hmem, target, htarget, hconcerned⟩
    have hlinks : linksOf store (exposures store) sensorsEntity =
        Sensors.statusLinks (exposures store statusProvider) := by
      rcases linksOf_cases hconfigured (exposures store) sensorsEntity with
        ⟨-, hother⟩ | ⟨-, hsensors⟩ | ⟨hserver, -⟩
      · exact absurd rfl hother
      · exact hsensors
      · cases hserver
    obtain ⟨exception, hlink⟩ := (Sensors.linkAll_error_iff _ target).mpr
      ⟨supplementing, hmem, hconcerned⟩
    rw [← hlinks] at hlink
    exact viewOf_error_of_exists htarget hlink

/-- The enumerations of a request to a configured store are steady. -/
theorem steady_of_configured {store : EntityStore} (hconfigured : Configured store) (depth : ℕ) :
    (requestSnapshot store).Steady (depth + 2) (linkage hconfigured).Settled where
  members hsettled := hsettled.members
  notAvailable hsettled := hsettled.notAvailable
  enumerates {reached} hsettled entity _ hquiet := by
    have henumerate :=
      Linkage.getInstances_follows (depth + 2) (rank_lt hconfigured depth entity) hsettled
    have hview : (linkage hconfigured).view entity = viewOf store (exposures store) entity := rfl
    rw [hview] at henumerate
    simp only [requestSnapshot] at hquiet ⊢
    cases hshown : viewOf store (exposures store) entity with
    | ok instances =>
        rw [hshown] at henumerate
        obtain ⟨_, after, hresult, rfl, hafter⟩ := henumerate
        exact ⟨after, hresult, hafter⟩
    | error exception =>
        rw [hshown] at hquiet
        cases hquiet
  throws {reached} hsettled entity _ hraises := by
    have henumerate :=
      Linkage.getInstances_follows (depth + 2) (rank_lt hconfigured depth entity) hsettled
    have hview : (linkage hconfigured).view entity = viewOf store (exposures store) entity := rfl
    rw [hview] at henumerate
    simp only [requestSnapshot] at hraises
    cases hshown : viewOf store (exposures store) entity with
    | ok instances =>
        rw [hshown] at hraises
        cases hraises
    | error exception =>
        rw [hshown] at henumerate
        obtain ⟨after, hresult⟩ := henumerate
        obtain ⟨target, -, hlink⟩ := exists_of_viewOf_error hshown
        obtain ⟨-, huncaught, -⟩ := exists_of_linkAll_error hconfigured hlink
        exact ⟨_, after, hresult, huncaught⟩

/-- The route returns, one object with exactly one of the two fields is pushed to the
body, and the status is set. -/
def Answers (response : Response)
    (result : EStateM.Result Failure GraphqlRouter.Answering PUnit) : Prop :=
  ∃ store field value,
    (field = GraphqlRouter.respFieldData ∨ field = GraphqlRouter.respFieldError) ∧
    result = .ok ⟨⟩ ⟨store, (response.push (.object [(field, value)])).setStatus .ok⟩

/-- A scalar field of the operation itself, or a field with a selection set that names the
sensors while a status instance concerns one of them. -/
def Hazardous (store : EntityStore) : Visit → Prop
  | .scalar none _ => True
  | .object name => name = entitySensors ∧ SensorConcerned store
  | _ => False

/-- A construct that is answered with a GraphQL error: an operation that is no query, a
variable, an unknown member or an unknown object. -/
def Refused (store : EntityStore) : Visit → Prop
  | .operation operation => operation ≠ GqlQueryVisitor.visitorName
  | .variableDefinition _ => True
  | .scalar (some entity) fieldName => (store.objects entity).members.contains fieldName = false
  | .scalar none _ => False
  | .object name => entityManager.entityDictionary.find? name = none

/-- In the order they are visited, every hazardous construct of the document comes after a
refused one. -/
def RefusedFirst (store : EntityStore) (document : Document) : Prop :=
  ∀ before visit after, documentVisits entityManager document = before ++ visit :: after →
    Hazardous store visit → ∃ earlier ∈ before, Refused store earlier

omit [StdHash] in
/-- The sensors are registered under one name. -/
theorem find?_sensors (name : String) :
    entityManager.entityDictionary.find? name = some sensorsEntity ↔ name = entitySensors := by
  rw [entityManager, OrderedMap.find?_ofList]
  simp only [Entries.lookup_cons, List.lookup_nil]
  by_cases hname : name = entitySensors
  · subst hname
    decide
  · rw [iff_false_right hname, if_neg hname]
    split_ifs
    all_goals simp [relationsEntity, sensorsEntity, serverEntity, chassisEntity, baseboardEntity]

theorem hazardous_iff {store : EntityStore} (hconfigured : Configured store) (visit : Visit) :
    (requestSnapshot store).Hazardous visit ↔ Hazardous store visit := by
  cases visit with
  | operation operation => exact Iff.rfl
  | variableDefinition name => exact Iff.rfl
  | scalar enclosing fieldName => cases enclosing <;> exact Iff.rfl
  | object name =>
      show (∃ entity, entityManager.entityDictionary.find? name = some entity ∧
        (requestSnapshot store).raises entity = true) ↔ _
      simp only [raises_iff hconfigured]
      constructor
      · rintro ⟨entity, hfound, rfl, hconcerned⟩
        exact ⟨(find?_sensors name).mp hfound, hconcerned⟩
      · rintro ⟨hname, hconcerned⟩
        exact ⟨sensorsEntity, (find?_sensors name).mpr hname, rfl, hconcerned⟩

omit [StdHash] in
theorem refused_iff [StdHash] (store : EntityStore) (visit : Visit) :
    (requestSnapshot store).Refused visit ↔ Refused store visit := by
  cases visit with
  | operation operation => exact Iff.rfl
  | variableDefinition name => exact Iff.rfl
  | scalar enclosing fieldName => cases enclosing <;> exact Iff.rfl
  | object name => exact Iff.rfl

/-- A document does not fail exactly when its hazardous constructs come after a refused
one. -/
theorem verdict_ne_fails_iff {store : EntityStore} (hconfigured : Configured store)
    (document : Document) :
    (requestSnapshot store).verdictDocument (some document) ≠ .fails ↔
      RefusedFirst store document := by
  rw [Snapshot.verdictDocument, Snapshot.verdictDefinitions_eq_judgeAll,
    Snapshot.judgeAll_ne_fails_iff]
  simp only [Snapshot.RefusedFirst, RefusedFirst, hazardous_iff hconfigured, refused_iff]
  rfl

/-- `run` answers exactly when the verdict does not fail. -/
theorem answers_iff_verdict (library : AstLibrary) (depth : ℕ)
    (state : GraphqlRouter.Answering) (hconfigured : Configured state.store)
    (gqlNode : Option Document) :
    Answers state.response
        (GraphqlRouter.run library (depth + 2) entityManager gqlNode state) ↔
      (requestSnapshot state.store).verdictDocument gqlNode ≠ .fails := by
  have hrun := Snapshot.run_spec (steady_of_configured hconfigured depth) library gqlNode
    (Linkage.settled_origin (linkage hconfigured))
  have hmanager : (requestSnapshot state.store).manager = entityManager := rfl
  rw [hmanager] at hrun
  cases hverdict : (requestSnapshot state.store).verdictDocument gqlNode with
  | passes =>
      rw [hverdict] at hrun
      obtain ⟨store, hresult⟩ := hrun
      exact ⟨fun _ => nofun, fun _ => ⟨store, _, _, .inl rfl, hresult⟩⟩
  | answered error =>
      rw [hverdict] at hrun
      obtain ⟨store, hresult⟩ := hrun
      exact ⟨fun _ => nofun, fun _ => ⟨store, _, _, .inr rfl, hresult⟩⟩
  | fails =>
      rw [hverdict] at hrun
      obtain ⟨failure, after, hresult⟩ := hrun
      refine ⟨?_, fun hne => absurd rfl hne⟩
      rintro ⟨store, field, value, -, hanswer⟩
      rw [hresult] at hanswer
      cases hanswer

/-- `run` answers over a reachable store exactly when no hazardous construct of the document
comes before all refused ones. -/
theorem run_answers_iff_refusedFirst (library : AstLibrary) (depth : ℕ)
    (state : GraphqlRouter.Answering) (hreach : storeMachine.Reachable state.store)
    (gqlNode : Option Document) :
    Answers state.response
        (GraphqlRouter.run library (depth + 2) entityManager gqlNode state) ↔
      ∀ document ∈ gqlNode, RefusedFirst state.store document := by
  have hconfigured := configured_of_reachable hreach
  rw [answers_iff_verdict library depth state hconfigured]
  cases gqlNode with
  | none =>
      constructor
      · intro _ document hmem
        cases hmem
      · intro _ hverdict
        cases hverdict
  | some document =>
      rw [verdict_ne_fails_iff hconfigured]
      simp

omit [StdHash] in
/-- A query of the sensors is answered at start. -/
theorem run_answers_iff_refusedFirst_start :
    let _ : StdHash := ⟨64, fun _ => 0⟩
    Answers {} (GraphqlRouter.run .depthFirst 2 entityManager
      (some [.operation { selectionSet := [.object none "Sensors" [.field none "Name"]] }])
      ⟨initEntityMap, {}⟩) := by
  intro _
  have hanswers := run_answers_iff_refusedFirst .depthFirst 0 ⟨initEntityMap, {}⟩
    (Machine.Reachable.start rfl)
    (some [.operation { selectionSet := [.object none "Sensors" [.field none "Name"]] }])
  apply hanswers.mpr
  intro document hmem before visit after hsplit hhazard
  cases hmem
  have hvisits : documentVisits entityManager
      [.operation { selectionSet := [.object none "Sensors" [.field none "Name"]] }] =
      [.operation "query", .object "Sensors", .scalar (some sensorsEntity) "Name"] := by
    rfl
  have hmem : visit ∈ before ++ visit :: after := by simp
  rw [← hsplit, hvisits] at hmem
  simp only [List.mem_cons, List.not_mem_nil, or_false] at hmem
  rcases hmem with rfl | rfl | rfl
  · cases hhazard
  · obtain ⟨-, supplementing, hmem, -⟩ := hhazard
    cases hmem
  · cases hhazard

omit [StdHash] in
/-- A scalar field of the operation itself dereferences the entity of the root builder. -/
theorem run_rootScalar :
    let _ : StdHash := ⟨64, fun _ => 0⟩
    storeMachine.Reachable initEntityMap ∧
    ¬ Answers {} (GraphqlRouter.run .depthFirst 2 entityManager
      (some [.operation { selectionSet := [.field none "foo"] }]) ⟨initEntityMap, {}⟩) := by
  intro _
  have hreach : storeMachine.Reachable initEntityMap := Machine.Reachable.start rfl
  have hanswers := answers_iff_verdict .depthFirst 0
    ⟨initEntityMap, {}⟩ (configured_of_reachable hreach)
    (some [.operation { selectionSet := [.field none "foo"] }])
  have hfails : (requestSnapshot initEntityMap).verdictDocument
      (some [.operation { selectionSet := [.field none "foo"] }]) = .fails := by
    rfl
  exact ⟨hreach, fun hrun => hanswers.mp hrun hfails⟩

/-- An alias is honoured exactly when it coincides with its field, over every store that
keeps showing the same; the stores the application reaches do. -/
theorem alias_honoured_iff :
    (∀ (snapshot : Snapshot) (depth : ℕ) (kind : EntityStore → Prop),
      snapshot.Steady depth kind → ∀ (library : AstLibrary) (document : Document)
        (state : GraphqlRouter.Answering), kind state.store →
        ∀ (entity : EntityId) (fieldAlias name : String),
          Aliases.Honoured snapshot depth kind library document state entity fieldAlias name ↔
            Aliases.Coincides snapshot document entity fieldAlias name) ∧
    ∀ (depth : ℕ) (store : EntityStore), storeMachine.Reachable store →
      ∃ kind, (requestSnapshot store).Steady (depth + 2) kind ∧ kind store := by
  constructor
  · intro snapshot depth kind hsteady library document state hstore entity fieldAlias name
    exact Aliases.honoured_iff_coincides hsteady library document hstore entity fieldAlias name
  · intro depth store hreach
    have hconfigured := configured_of_reachable hreach
    exact ⟨_, steady_of_configured hconfigured depth, (linkage hconfigured).settled_origin⟩

omit [StdHash] in
/-- An alias that is no member is refused. -/
theorem title_refused :
    ¬∀ (_ : StdHash) (snapshot : Snapshot) (depth : ℕ) (kind : EntityStore → Prop),
      snapshot.Steady depth kind → ∀ (library : AstLibrary) (document : Document)
        (state : GraphqlRouter.Answering), kind state.store →
        ∀ (entity : EntityId) (fieldAlias name : String),
          Aliases.Honoured snapshot depth kind library document state entity fieldAlias name := by
  intro hclaim
  let hash : StdHash := ⟨64, fun _ => 0⟩
  have hreach : storeMachine.Reachable initEntityMap := Machine.Reachable.start rfl
  have hconfigured := configured_of_reachable hreach
  have hsteady := steady_of_configured hconfigured 0
  have hstore := (linkage hconfigured).settled_origin
  have hfound : entityManager.entityDictionary.find? "Sensors" = some sensorsEntity :=
    (find?_sensors "Sensors").mpr rfl
  have hhonoured := hclaim hash _ _ _ hsteady .depthFirst
    [.operation { selectionSet := [.object none "Sensors" [.field (some "title") "Name"]] }]
    ⟨initEntityMap, {}⟩ hstore sensorsEntity "title" "Name"
  have hmet : Aliases.Met (requestSnapshot initEntityMap)
      [.operation { selectionSet := [.object none "Sensors" [.field (some "title") "Name"]] }]
      sensorsEntity "title" "Name" := by
    refine ⟨[], _, [], [.object "Sensors"], rfl, .object [] [] ?_, fun visit hvisit => ?_⟩
    · show Aliases.ComesTo entityManager _ _ (entityManager.entityDictionary.find? "Sensors") _ _
      rw [hfound]
      exact .here [] []
    · rw [refused_iff, hazardous_iff hconfigured]
      rcases List.mem_cons.mp hvisit with rfl | hvisit
      · exact ⟨fun hrefused => hrefused rfl, id⟩
      · rw [List.mem_singleton.mp hvisit]
        refine ⟨?_, ?_⟩
        · intro hunknown
          rw [Refused, hfound] at hunknown
          cases hunknown
        · rintro ⟨-, supplementing, hmem, -⟩
          cases hmem
  apply hhonoured.admitted rfl hmet initEntityMap hstore
  rw [Aliases.refuses_iff hsteady hstore ⟨"Sensors", hfound⟩]
  rfl

end ObmcWebapp.Application
