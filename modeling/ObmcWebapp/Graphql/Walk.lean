/-
# The meaning of a walk

Two functions give the meaning of a selection without builders and callbacks. Its
verdict is how the walk goes: it passes, it is answered with a GraphQL error, or it
fails for good. Its contributions are the members it adds to the object of an
instance. Both are recursions over the selection.

The walk of the query visitor is related to them by one induction. The builder it
is at shows the contributions collected so far, whatever builders lie below it.
-/

import ObmcWebapp.Graphql.Fragments
import ObmcWebapp.Graphql.Handler

namespace ObmcWebapp.Graphql

open ObmcWebapp.Core ObmcWebapp.Entities

variable [StdHash]

/-- How a walk goes. -/
inductive Verdict
  | passes
  | answered (error : GqlException)
  | fails
  deriving DecidableEq, Repr

/-- One walk after the other: the second counts only if the first passes. -/
def Verdict.andThen : Verdict → Verdict → Verdict
  | .passes, next => next
  | verdict, _ => verdict

omit [StdHash] in
@[simp]
theorem Verdict.andThen_passes (verdict : Verdict) : verdict.andThen .passes = verdict := by
  cases verdict <;> rfl

namespace Snapshot

mutual

/-- The verdict on a selection in the selection set of an entity, or of the operation
itself. -/
def verdict (snapshot : Snapshot) (enclosing : Option EntityId) : Selection → Verdict
  | .field fieldAlias name =>
      match enclosing with
      -- the root builder has no entity to look the member up in
      | none => .fails
      | some entity =>
          if (snapshot.members entity).contains (fieldAlias.getD name) then .passes
          else .answered (.invalidArgument (fieldAlias.getD name) "Field not found")
  | .object _ name selectionSet =>
      match snapshot.manager.entityDictionary.find? name with
      | none => .answered (.astError ("The Object <" ++ name ++ "> not found"))
      | some entity =>
          if snapshot.raises entity then .fails
          else verdictAll snapshot (some entity) selectionSet
  | .fragmentSpread _ => .passes
  | .inlineFragment selectionSet => verdictAll snapshot enclosing selectionSet

/-- The verdict on a selection set. -/
def verdictAll (snapshot : Snapshot) (enclosing : Option EntityId) : List Selection → Verdict
  | [] => .passes
  | selection :: selections =>
      (verdict snapshot enclosing selection).andThen (verdictAll snapshot enclosing selections)

end

mutual

/-- The members a selection adds to the object of an instance, or to the object of the
operation itself. -/
def contributions (snapshot : Snapshot) (inst : Option Instance) :
    Selection → List (String × Json)
  | .field fieldAlias name =>
      match inst with
      | none => []
      | some inst => [(fieldAlias.getD name, fieldValue inst (fieldAlias.getD name))]
  | .object fieldAlias name selectionSet =>
      match snapshot.manager.entityDictionary.find? name with
      | none => []
      | some entity =>
          [(fieldAlias.getD name, shape (snapshot.view entity) fun child =>
            contributionsAll snapshot (some child) selectionSet)]
  | .fragmentSpread _ => []
  | .inlineFragment selectionSet => contributionsAll snapshot inst selectionSet

/-- The members a selection set adds. -/
def contributionsAll (snapshot : Snapshot) (inst : Option Instance) :
    List Selection → List (String × Json)
  | [] => []
  | selection :: selections =>
      contributions snapshot inst selection ++ contributionsAll snapshot inst selections

end

/-- A builder of a selection set shows some members for each instance. -/
def Shows (snapshot : Snapshot) (enclosing : Option EntityId)
    (pairs : Option Instance → List (String × Json)) (builder : GqlObjectBuild) : Prop :=
  builder.entityObject = enclosing ∧
  match enclosing with
  | none =>
      builder.fragment = objects [(GqlQueryVisitor.visitorName, Entries.ofList (pairs none))]
  | some entity =>
      snapshot.Registered entity ∧ snapshot.raises entity = false ∧
      builder.fragment = fragmentOf (snapshot.view entity) fun inst => pairs (some inst)

/-- The visitor can be destroyed in this state: the builder it is at shows something. -/
def Destructible (snapshot : Snapshot) (kind : EntityStore → Prop) (state : QueryState) : Prop :=
  kind state.store ∧ ∃ builder parents enclosing pairs,
    state.builders = builder :: parents ∧ snapshot.Shows enclosing pairs builder

/-- A walk that started at a builder went as its verdict says; if it passed, the builder
shows the given members, and the builders below are as they were. -/
def Walked (snapshot : Snapshot) (kind : EntityStore → Prop) (enclosing : Option EntityId)
    (fieldName : String) (parents : List GqlObjectBuild) (verdict : Verdict)
    (pairs : Option Instance → List (String × Json))
    (result : EStateM.Result Failure QueryState PUnit) : Prop :=
  match verdict with
  | .passes => ∃ store builder, result = .ok ⟨⟩ ⟨store, builder :: parents⟩ ∧ kind store ∧
      snapshot.Shows enclosing pairs builder ∧ builder.getFieldName = fieldName
  | .answered error => ∃ state, result = .error (.raised (.gql error)) state ∧
      snapshot.Destructible kind state
  | .fails => ∃ failure state, result = .error failure state ∧
      ∀ error, failure ≠ .raised (.gql error)

section

variable {snapshot : Snapshot} {kind : EntityStore → Prop} {enclosing : Option EntityId}
  {fieldName : String} {parents : List GqlObjectBuild}
  {pairs later : Option Instance → List (String × Json)}

/-- A walk that does not pass ends a sequence. -/
theorem Walked.bind {first second : Verdict} {head : EStateM Failure QueryState PUnit}
    {tail : PUnit → EStateM Failure QueryState PUnit} {state : QueryState}
    (hhead : snapshot.Walked kind enclosing fieldName parents first pairs (head state))
    (htail : ∀ store builder, kind store → snapshot.Shows enclosing pairs builder →
      builder.getFieldName = fieldName →
      snapshot.Walked kind enclosing fieldName parents second later
        (tail ⟨⟩ ⟨store, builder :: parents⟩)) :
    snapshot.Walked kind enclosing fieldName parents (first.andThen second) later
      ((head >>= tail) state) := by
  cases first with
  | passes =>
      obtain ⟨store, builder, hresult, hstore, hshows, hname⟩ := hhead
      rw [Fallible.bind_ok hresult]
      exact htail store builder hstore hshows hname
  | answered error =>
      obtain ⟨after, hresult, hdestructible⟩ := hhead
      rw [Fallible.bind_error hresult]
      exact ⟨after, rfl, hdestructible⟩
  | fails =>
      obtain ⟨failure, after, hresult, huncaught⟩ := hhead
      rw [Fallible.bind_error hresult]
      exact ⟨failure, after, rfl, huncaught⟩

/-- A builder takes the fragment of a finished child. -/
theorem Shows.supplementChild {builder : GqlObjectBuild}
    (hshows : snapshot.Shows enclosing pairs builder) (name : String) (child : Json) :
    ∃ after, builder.supplementChild name child = .ok after ∧
      snapshot.Shows enclosing (fun inst => pairs inst ++ [(name, child)]) after ∧
      after.getFieldName = builder.getFieldName := by
  obtain ⟨hentity, hfragment⟩ := hshows
  cases enclosing with
  | none =>
      have heta : builder = { builder with
          fragment := objects [(GqlQueryVisitor.visitorName, Entries.ofList (pairs none))] } := by
        rw [← hfragment]
      rw [heta, supplementChild_objects]
      refine ⟨_, rfl, ⟨hentity, ?_⟩, rfl⟩
      rw [Entries.ofList_append]
      rfl
  | some entity =>
      obtain ⟨hregistered, hquiet, hfragment⟩ := hfragment
      have heta : builder = { builder with
          fragment := fragmentOf (snapshot.view entity) fun inst => pairs (some inst) } := by
        rw [← hfragment]
      rw [heta, supplementChild_fragment]
      exact ⟨_, rfl, ⟨hentity, hregistered, hquiet, rfl⟩, rfl⟩

end

section

variable {snapshot : Snapshot} {depth : ℕ} {kind : EntityStore → Prop}
  (hsteady : snapshot.Steady depth kind)

include hsteady

/-- The destructor of a destructible visitor returns. -/
theorem destroy_of_destructible {state : QueryState}
    (hstate : snapshot.Destructible kind state) :
    ∃ document after, GqlQueryVisitor.destroy depth state = .ok document after ∧
      kind after.store := by
  obtain ⟨hstore, builder, parents, enclosing, pairs, hbuilders, hentity, hfragment⟩ := hstate
  simp only [GqlQueryVisitor.destroy, hbuilders]
  cases enclosing with
  | none =>
      rw [getFragment_root depth hentity hfragment]
      exact ⟨_, _, rfl, hstore⟩
  | some entity =>
      obtain ⟨hregistered, hquiet, hfragment⟩ := hfragment
      obtain ⟨after, hget, hafter⟩ :=
        getFragment_eq hsteady hstore hregistered hquiet hentity hfragment
      rw [hget]
      exact ⟨_, _, rfl, hafter⟩

/-- A scalar field. -/
theorem walked_field (enclosing : Option EntityId) (fieldName : String)
    (parents : List GqlObjectBuild) (pairs : Option Instance → List (String × Json))
    (fieldAlias : Option String) (name : String) {store : EntityStore} {builder : GqlObjectBuild}
    (hstore : kind store) (hshows : snapshot.Shows enclosing pairs builder)
    (hname : builder.getFieldName = fieldName) :
    snapshot.Walked kind enclosing fieldName parents
      (snapshot.verdict enclosing (.field fieldAlias name))
      (fun inst => pairs inst ++ snapshot.contributions inst (.field fieldAlias name))
      ((Selection.field fieldAlias name).accept
        (GqlQueryVisitor.visitor depth snapshot.manager) ⟨store, builder :: parents⟩) := by
  have hdestructible : snapshot.Destructible kind ⟨store, builder :: parents⟩ :=
    ⟨hstore, builder, parents, enclosing, pairs, rfl, hshows⟩
  obtain ⟨hentity, hfragment⟩ := hshows
  rw [Selection.accept, visitNode]
  cases enclosing with
  | none =>
      have hvisit : (GqlQueryVisitor.visitor depth snapshot.manager).visitField
          ⟨fieldAlias, name, false⟩ ⟨store, builder :: parents⟩ =
            .error .nullDereference ⟨store, builder :: parents⟩ := by
        simp only [GqlQueryVisitor.visitor, GqlQueryVisitor.visitField, Bool.false_eq_true,
          if_false, supplement_root depth _ hentity hfragment]
      rw [Snapshot.verdict, Fallible.bind_error hvisit]
      exact ⟨_, _, rfl, nofun⟩
  | some entity =>
      obtain ⟨hregistered, hquiet, hfragment⟩ := hfragment
      have heta : builder = { builder with
          entityObject := some entity
          fragment := fragmentOf (snapshot.view entity) fun inst => pairs (some inst) } := by
        rw [← hfragment, ← hentity]
      cases hmember : (snapshot.members entity).find? (fieldAlias.getD name) with
      | none =>
          have habsent : (snapshot.members entity).contains (fieldAlias.getD name) = false := by
            rw [OrderedMap.contains, hmember]
            rfl
          have hvisit : (GqlQueryVisitor.visitor depth snapshot.manager).visitField
              ⟨fieldAlias, name, false⟩ ⟨store, builder :: parents⟩ =
                .error (.raised (.gql (.invalidArgument (fieldAlias.getD name)
                  "Field not found"))) ⟨store, builder :: parents⟩ := by
            simp only [GqlQueryVisitor.visitor, GqlQueryVisitor.visitField, Bool.false_eq_true,
              if_false]
            rw [heta, supplement_unknown hsteady hstore hmember, ← heta]
          simp only [Snapshot.verdict, habsent, Bool.false_eq_true, if_false]
          rw [Fallible.bind_error hvisit]
          exact ⟨_, rfl, hdestructible⟩
      | some member =>
          have hpresent : (snapshot.members entity).contains (fieldAlias.getD name) = true := by
            rw [OrderedMap.contains, hmember]
            rfl
          obtain ⟨after, hsupplement, hafter⟩ := supplement_eq hsteady hstore hregistered hquiet
            hmember builder fun inst => pairs (some inst)
          rw [← heta] at hsupplement
          have hvisit : (GqlQueryVisitor.visitor depth snapshot.manager).visitField
              ⟨fieldAlias, name, false⟩ ⟨store, builder :: parents⟩ =
                .ok true ⟨after, { builder with
                  entityObject := some entity
                  fragment := fragmentOf (snapshot.view entity) fun inst => pairs (some inst) ++
                    [(fieldAlias.getD name, fieldValue inst (fieldAlias.getD name))] } ::
                      parents⟩ := by
            simp only [GqlQueryVisitor.visitor, GqlQueryVisitor.visitField, Bool.false_eq_true,
              if_false, hsupplement]
          simp only [Snapshot.verdict, hpresent, if_true]
          rw [Fallible.bind_ok hvisit]
          exact ⟨_, _, rfl, hafter, ⟨rfl, hregistered, hquiet, rfl⟩, hname⟩

omit hsteady in
/-- A field with a selection set that names no entity. -/
theorem visitField_unregistered (depth : ℕ) (fieldAlias : Option String) {name : String}
    (hfound : snapshot.manager.entityDictionary.find? name = none) (store : EntityStore)
    (builder : GqlObjectBuild) (parents : List GqlObjectBuild) :
    (GqlQueryVisitor.visitor depth snapshot.manager).visitField ⟨fieldAlias, name, true⟩
        ⟨store, builder :: parents⟩ =
      .error (.raised (.gql (.astError ("The Object <" ++ name ++ "> not found"))))
        ⟨store, builder :: parents⟩ := by
  have henter : GqlQueryVisitor.enterObject depth snapshot.manager ⟨fieldAlias, name, true⟩
      ⟨store, builder :: parents⟩ =
        .error (.raised (.gql (.astError ("The Object <" ++ name ++ "> not found"))))
          ⟨store, builder :: parents⟩ := by
    simp only [GqlQueryVisitor.enterObject, EntityManager.getEntity, hfound]
    rfl
  exact Fallible.bind_error henter

/-- A field with a selection set whose entity cannot be enumerated. -/
theorem visitField_throws (fieldAlias : Option String) {name : String} {entity : EntityId}
    (hfound : snapshot.manager.entityDictionary.find? name = some entity)
    (hraises : snapshot.raises entity = true) {store : EntityStore} (hstore : kind store)
    (builder : GqlObjectBuild) (parents : List GqlObjectBuild) :
    ∃ failure after, (GqlQueryVisitor.visitor depth snapshot.manager).visitField
        ⟨fieldAlias, name, true⟩ ⟨store, builder :: parents⟩ = .error failure after ∧
      Uncaught failure := by
  obtain ⟨failure, after, hcreate, huncaught⟩ :=
    create_throws hsteady hstore ⟨name, hfound⟩ hraises name
  have hkept : GqlQueryVisitor.objectFailure failure = failure := by
    cases huncaught <;> rfl
  have henter : GqlQueryVisitor.enterObject depth snapshot.manager ⟨fieldAlias, name, true⟩
      ⟨store, builder :: parents⟩ = .error failure ⟨after, builder :: parents⟩ := by
    simp only [GqlQueryVisitor.enterObject, EntityManager.getEntity, hfound, Fallible.mapError,
      hcreate, hkept]
  exact ⟨failure, _, Fallible.bind_error henter, huncaught⟩

/-- A field with a selection set starts a builder without members. -/
theorem visitField_object (fieldAlias : Option String) {name : String} {entity : EntityId}
    (hfound : snapshot.manager.entityDictionary.find? name = some entity)
    (hraises : snapshot.raises entity = false) {store : EntityStore} (hstore : kind store)
    (builder : GqlObjectBuild) (parents : List GqlObjectBuild) :
    ∃ after child, (GqlQueryVisitor.visitor depth snapshot.manager).visitField
        ⟨fieldAlias, name, true⟩ ⟨store, builder :: parents⟩ =
      .ok true ⟨after, child :: builder :: parents⟩ ∧ kind after ∧
      snapshot.Shows (some entity) (fun _ => []) child ∧
      child.getFieldName = fieldAlias.getD name := by
  obtain ⟨after, hcreate, hafter⟩ := create_eq hsteady hstore ⟨name, hfound⟩ hraises name
  have henter : GqlQueryVisitor.enterObject depth snapshot.manager ⟨fieldAlias, name, true⟩
      ⟨store, builder :: parents⟩ = .ok ⟨⟩ ⟨after, {
        name := name
        entityObject := some entity
        fragment := fragmentOf (snapshot.view entity) fun _ => []
        fieldAlias := fieldAlias } :: builder :: parents⟩ := by
    simp only [GqlQueryVisitor.enterObject, EntityManager.getEntity, hfound, Fallible.mapError,
      hcreate]
  exact ⟨after, _, Fallible.bind_ok henter, hafter, ⟨rfl, ⟨name, hfound⟩, hraises, rfl⟩, rfl⟩

/-- At the end of a field with a selection set its fragment goes to the builder below. -/
theorem Walked.endObject {enclosing : Option EntityId} {fieldName : String}
    {parents : List GqlObjectBuild} {pairs : Option Instance → List (String × Json)}
    {builder : GqlObjectBuild} {fieldAlias : Option String} {name : String} {entity : EntityId}
    {selectionSet : List Selection} {verdict : Verdict}
    {children : EStateM Failure QueryState PUnit} {state : QueryState}
    (hchildren : snapshot.Walked kind (some entity) (fieldAlias.getD name) (builder :: parents)
      verdict (fun inst => [] ++ snapshot.contributionsAll inst selectionSet) (children state))
    (hshows : snapshot.Shows enclosing pairs builder) (hname : builder.getFieldName = fieldName)
    (hfound : snapshot.manager.entityDictionary.find? name = some entity) :
    snapshot.Walked kind enclosing fieldName parents verdict
      (fun inst => pairs inst ++
        snapshot.contributions inst (.object fieldAlias name selectionSet))
      ((children >>= fun _ => (GqlQueryVisitor.visitor depth snapshot.manager).endVisitField
        ⟨fieldAlias, name, true⟩) state) := by
  cases verdict with
  | passes =>
      obtain ⟨store, child, hresult, hstore, ⟨hentity, hregistered, hquiet, hfragment⟩, hlabel⟩ :=
        hchildren
      obtain ⟨after, hget, hafter⟩ :=
        getFragment_eq hsteady hstore hregistered hquiet hentity hfragment
      obtain ⟨supplemented, hsupplement, hshows, hsame⟩ := hshows.supplementChild
        (fieldAlias.getD name) (shape (snapshot.view entity) fun inst =>
          [] ++ snapshot.contributionsAll (some inst) selectionSet)
      have hpush : GqlQueryVisitor.pushFragmentToParent depth ⟨store, child :: builder :: parents⟩ =
          .ok ⟨⟩ ⟨after, child :: supplemented :: parents⟩ := by
        simp only [GqlQueryVisitor.pushFragmentToParent, hget, hlabel, hsupplement]
      rw [Fallible.bind_ok hresult]
      simp only [GqlQueryVisitor.visitor, GqlQueryVisitor.endVisitField, if_true]
      rw [Fallible.bind_ok hpush]
      refine ⟨after, supplemented, rfl, hafter, ?_, hsame.trans hname⟩
      simpa only [Snapshot.contributions, hfound, List.nil_append] using hshows
  | answered error =>
      obtain ⟨after, hresult, hdestructible⟩ := hchildren
      rw [Fallible.bind_error hresult]
      exact ⟨after, rfl, hdestructible⟩
  | fails =>
      obtain ⟨failure, after, hresult, huncaught⟩ := hchildren
      rw [Fallible.bind_error hresult]
      exact ⟨failure, after, rfl, huncaught⟩

end

mutual

/-- A selection is walked as its verdict and its contributions say. -/
theorem walked_selection {snapshot : Snapshot} {depth : ℕ} {kind : EntityStore → Prop}
    (hsteady : snapshot.Steady depth kind) (enclosing : Option EntityId) (fieldName : String)
    (parents : List GqlObjectBuild) (pairs : Option Instance → List (String × Json))
    (selection : Selection) {store : EntityStore} {builder : GqlObjectBuild}
    (hstore : kind store) (hshows : snapshot.Shows enclosing pairs builder)
    (hname : builder.getFieldName = fieldName) :
    snapshot.Walked kind enclosing fieldName parents (snapshot.verdict enclosing selection)
      (fun inst => pairs inst ++ snapshot.contributions inst selection)
      (selection.accept (GqlQueryVisitor.visitor depth snapshot.manager)
        ⟨store, builder :: parents⟩) := by
  cases selection with
  | field fieldAlias name =>
      exact walked_field hsteady enclosing fieldName parents pairs fieldAlias name hstore hshows
        hname
  | object fieldAlias name selectionSet =>
      have hdestructible : snapshot.Destructible kind ⟨store, builder :: parents⟩ :=
        ⟨hstore, builder, parents, enclosing, pairs, rfl, hshows⟩
      rw [Selection.accept, visitNode, Snapshot.verdict]
      cases hfound : snapshot.manager.entityDictionary.find? name with
      | none =>
          have hvisit := visitField_unregistered depth fieldAlias hfound store builder parents
          rw [Fallible.bind_error hvisit]
          exact ⟨_, rfl, hdestructible⟩
      | some entity =>
          cases hraises : snapshot.raises entity with
          | true =>
              obtain ⟨failure, after, hvisit, huncaught⟩ :=
                visitField_throws hsteady fieldAlias hfound hraises hstore builder parents
              simp only [hraises, if_true]
              rw [Fallible.bind_error hvisit]
              exact ⟨failure, _, rfl, huncaught.ne_gql⟩
          | false =>
              obtain ⟨after, child, hvisit, hafter, hchild, hlabel⟩ :=
                visitField_object hsteady fieldAlias hfound hraises hstore builder parents
              simp only [hraises, Bool.false_eq_true, if_false]
              rw [Fallible.bind_ok hvisit, if_pos rfl]
              have hchildren := walked_selections hsteady (some entity) (fieldAlias.getD name)
                (builder :: parents) (fun _ => []) selectionSet hafter hchild hlabel
              exact hchildren.endObject hsteady hshows hname hfound
  | fragmentSpread name =>
      simp only [Selection.accept, Snapshot.verdict, Snapshot.contributions, List.append_nil]
      exact ⟨store, builder, rfl, hstore, hshows, hname⟩
  | inlineFragment selectionSet =>
      rw [Selection.accept, Snapshot.verdict]
      simp only [Snapshot.contributions]
      exact walked_selections hsteady enclosing fieldName parents pairs selectionSet hstore hshows hname

theorem walked_selections {snapshot : Snapshot} {depth : ℕ} {kind : EntityStore → Prop}
    (hsteady : snapshot.Steady depth kind) (enclosing : Option EntityId) (fieldName : String)
    (parents : List GqlObjectBuild) (pairs : Option Instance → List (String × Json))
    (selections : List Selection) {store : EntityStore} {builder : GqlObjectBuild}
    (hstore : kind store) (hshows : snapshot.Shows enclosing pairs builder)
    (hname : builder.getFieldName = fieldName) :
    snapshot.Walked kind enclosing fieldName parents (snapshot.verdictAll enclosing selections)
      (fun inst => pairs inst ++ snapshot.contributionsAll inst selections)
      (acceptAll (GqlQueryVisitor.visitor depth snapshot.manager) selections
        ⟨store, builder :: parents⟩) := by
  cases selections with
  | nil =>
      simp only [acceptAll, Snapshot.verdictAll, Snapshot.contributionsAll, List.append_nil]
      exact ⟨store, builder, rfl, hstore, hshows, hname⟩
  | cons selection selections =>
      rw [acceptAll, Snapshot.verdictAll]
      simp only [Snapshot.contributionsAll, ← List.append_assoc]
      apply Walked.bind
      · exact walked_selection hsteady enclosing fieldName parents pairs selection hstore hshows hname
      · intro after later hafter hshows hname
        exact walked_selections hsteady enclosing fieldName parents _ selections hafter hshows hname

end

end Snapshot

end ObmcWebapp.Graphql
