/-
# The answer of the route

The verdict on a document is that of its operations in turn: only queries without
variables are visited at all. Over a steady store `run` pushes the data the document
stands for when the verdict passes, the error when it is answered, and does not return
when it fails.
-/

import ObmcWebapp.Graphql.Walk

namespace ObmcWebapp.Graphql

open ObmcWebapp.Core ObmcWebapp.Entities

variable [StdHash]

namespace Snapshot

/-- The verdict on the walk of the query visitor through an operation. -/
def verdictQuery (snapshot : Snapshot) (definition : OperationDefinition) : Verdict :=
  match definition.variableDefinitions with
  | [] => snapshot.verdictAll none definition.selectionSet
  | _ :: _ => .answered (.notSupported "GQL Variable definition temporarry not supported")

/-- The verdict on a definition; fragments are passed over. -/
def verdictDefinition (snapshot : Snapshot) : Definition → Verdict
  | .operation definition =>
      if definition.operation = GqlQueryVisitor.visitorName then snapshot.verdictQuery definition
      else .answered (.notSupported definition.operation)
  | .fragment _ _ => .passes

def verdictDefinitions (snapshot : Snapshot) : List Definition → Verdict
  | [] => .passes
  | definition :: definitions =>
      (snapshot.verdictDefinition definition).andThen (snapshot.verdictDefinitions definitions)

/-- The verdict on what the parser made of a request. -/
def verdictDocument (snapshot : Snapshot) : Option Document → Verdict
  | none => .answered (.astError "Invalid Grapqh AST. Can't parse comming request")
  | some document => snapshot.verdictDefinitions document

/-- The object of a query: the members its selections add. -/
def queryObject (snapshot : Snapshot) (definition : OperationDefinition) : Json :=
  .ofMembers (snapshot.contributionsAll none definition.selectionSet)

/-- The answer object after a definition: a query takes the place of an earlier one. -/
def answerAfter (snapshot : Snapshot) (answer : Json) : Definition → Json
  | .operation definition =>
      .object [(GqlQueryVisitor.visitorName, snapshot.queryObject definition)]
  | .fragment _ _ => answer

/-- The data of a document. -/
def data (snapshot : Snapshot) (document : Document) : Json :=
  document.foldl snapshot.answerAfter .emptyObject

/-- How the visit of a part of a document goes: it ends in an answer object, in a
GraphQL error or in a failure nobody catches. -/
def Visited (kind : EntityStore → Prop) (verdict : Verdict) (answer : Json) {α : Type}
    (result : EStateM.Result Failure DocumentState α) : Prop :=
  match verdict with
  | .passes => ∃ value store, result = .ok value ⟨store, answer⟩ ∧ kind store
  | .answered error => ∃ state, result = .error (.raised (.gql error)) state
  | .fails => ∃ failure state, result = .error failure state ∧
      ∀ error, failure ≠ .raised (.gql error)

omit [StdHash] in
theorem Visited.bind {kind : EntityStore → Prop} {first second : Verdict} {middle last : Json}
    {α β : Type} {head : EStateM Failure DocumentState α}
    {tail : α → EStateM Failure DocumentState β} {state : DocumentState}
    (hhead : Visited kind first middle (head state))
    (htail : ∀ value store, kind store → Visited kind second last (tail value ⟨store, middle⟩)) :
    Visited kind (first.andThen second) last ((head >>= tail) state) := by
  cases first with
  | passes =>
      obtain ⟨value, store, hresult, hstore⟩ := hhead
      rw [Fallible.bind_ok hresult]
      exact htail value store hstore
  | answered error =>
      obtain ⟨after, hresult⟩ := hhead
      rw [Fallible.bind_error hresult]
      exact ⟨after, rfl⟩
  | fails =>
      obtain ⟨failure, after, hresult, huncaught⟩ := hhead
      rw [Fallible.bind_error hresult]
      exact ⟨failure, after, rfl, huncaught⟩

/-- No exception leaves the destructor: it ends the process. -/
theorem destroy_not_raised {depth : ℕ} {state after : QueryState} {failure : Failure}
    (hdestroy : GqlQueryVisitor.destroy depth state = .error failure after)
    (exception : Exception) : failure ≠ .raised exception := by
  unfold GqlQueryVisitor.destroy at hdestroy
  split at hdestroy
  · cases hdestroy
    nofun
  · split at hdestroy
    · cases hdestroy
    · cases hdestroy
      nofun
    · next hother _ =>
        cases hdestroy
        exact hother exception

section

variable {snapshot : Snapshot} {depth : ℕ} {kind : EntityStore → Prop}
  (hsteady : snapshot.Steady depth kind)

include hsteady

/-- The query visitor walks an operation as its verdict and its contributions say. -/
theorem walked_operation (definition : OperationDefinition) {store : EntityStore}
    (hstore : kind store) :
    snapshot.Walked kind none GqlQueryVisitor.visitorName [] (snapshot.verdictQuery definition)
      (fun inst => snapshot.contributionsAll inst definition.selectionSet)
      (definition.accept (GqlQueryVisitor.visitor depth snapshot.manager)
        ⟨store, [.root GqlQueryVisitor.visitorName]⟩) := by
  have hroot : snapshot.Shows none (fun _ => []) (.root GqlQueryVisitor.visitorName) :=
    ⟨rfl, rfl⟩
  have hselections := walked_selections hsteady none GqlQueryVisitor.visitorName [] (fun _ => [])
    definition.selectionSet hstore hroot rfl
  simp only [List.nil_append, acceptAll_eq_forEach] at hselections
  have hopen : (GqlQueryVisitor.visitor depth snapshot.manager).visitOperationDefinition definition
      ⟨store, [.root GqlQueryVisitor.visitorName]⟩ =
        .ok true ⟨store, [.root GqlQueryVisitor.visitorName]⟩ := rfl
  rw [OperationDefinition.accept, walkOperation, visitNode, Fallible.bind_ok hopen, if_pos rfl,
    verdictQuery]
  cases hvariables : definition.variableDefinitions with
  | nil =>
      generalize snapshot.verdictAll none definition.selectionSet = verdict at hselections ⊢
      simp only [Fallible.forEach, pure_bind]
      cases verdict with
      | passes =>
          obtain ⟨after, builder, hresult, hrest⟩ := hselections
          rw [Fallible.bind_ok hresult]
          exact ⟨after, builder, rfl, hrest⟩
      | answered error =>
          obtain ⟨after, hresult, hdestructible⟩ := hselections
          rw [Fallible.bind_error hresult]
          exact ⟨after, rfl, hdestructible⟩
      | fails =>
          obtain ⟨failure, after, hresult, huncaught⟩ := hselections
          rw [Fallible.bind_error hresult]
          exact ⟨failure, after, rfl, huncaught⟩
  | cons variableName rest =>
      exact ⟨_, rfl, hstore, _, [], none, fun _ => [], rfl, hroot⟩

theorem visited_query (library : AstLibrary) (definition : OperationDefinition)
    {state : DocumentState} (hstore : kind state.store) {value : Json}
    (hresult : state.result = .object [(GqlQueryVisitor.visitorName, value)]) :
    Visited kind (snapshot.verdictQuery definition)
      (.object [(GqlQueryVisitor.visitorName, snapshot.queryObject definition)])
      (ObmcGqlVisitor.visitQuery library depth snapshot.manager definition state) := by
  have hwalked := walked_operation hsteady definition hstore
  simp only [ObmcGqlVisitor.visitQuery, acceptOperation_eq]
  generalize definition.accept (GqlQueryVisitor.visitor depth snapshot.manager)
    ⟨state.store, [.root GqlQueryVisitor.visitorName]⟩ = result at hwalked ⊢
  generalize snapshot.verdictQuery definition = verdict at hwalked ⊢
  cases verdict with
  | passes =>
      obtain ⟨after, builder, rfl, hafter, ⟨hentity, hfragment⟩, -⟩ := hwalked
      simp only [GqlQueryVisitor.destroy, getFragment_root depth hentity hfragment, hresult]
      exact ⟨⟨⟩, after, rfl, hafter⟩
  | answered error =>
      obtain ⟨walked, rfl, hdestructible⟩ := hwalked
      obtain ⟨document, after, hdestroy, -⟩ := destroy_of_destructible hsteady hdestructible
      simp only [hdestroy]
      exact ⟨_, rfl⟩
  | fails =>
      obtain ⟨failure, walked, rfl, huncaught⟩ := hwalked
      cases failure with
      | raised exception =>
          simp only
          cases hdestroy : GqlQueryVisitor.destroy depth walked with
          | ok document after => exact ⟨_, _, rfl, huncaught⟩
          | error failure after =>
              exact ⟨_, _, rfl, fun error => destroy_not_raised hdestroy (.gql error)⟩
      | nullDereference => exact ⟨_, _, rfl, huncaught⟩
      | undefinedBehaviour cause => exact ⟨_, _, rfl, huncaught⟩
      | stackExhausted => exact ⟨_, _, rfl, huncaught⟩
      | terminated => exact ⟨_, _, rfl, huncaught⟩

/-- The answer object so far: empty, or the object of one query. -/
def IsAnswer (answer : Json) : Prop :=
  answer = .emptyObject ∨ ∃ value, answer = .object [(GqlQueryVisitor.visitorName, value)]

omit hsteady [StdHash] in
/-- A query is given its place in the answer object. -/
theorem pushBack_answer {answer : Json} (hanswer : IsAnswer answer) :
    ∃ value, answer.pushBack GqlQueryVisitor.visitorName .emptyObject =
      .ok (.object [(GqlQueryVisitor.visitorName, value)]) := by
  rcases hanswer with rfl | ⟨value, rfl⟩
  · exact ⟨.emptyObject, rfl⟩
  · refine ⟨value, ?_⟩
    rw [Json.pushBack_object]
    simp [Entries.emplace]

omit hsteady [StdHash] in
theorem pushBack_unsupported {answer : Json} (hanswer : IsAnswer answer) (operation : String) :
    ∃ pushed, answer.pushBack operation .emptyObject = .ok pushed := by
  rcases hanswer with rfl | ⟨value, rfl⟩
  · exact ⟨_, rfl⟩
  · exact ⟨_, rfl⟩

theorem visited_operation (library : AstLibrary) (definition : OperationDefinition)
    {state : DocumentState} (hstore : kind state.store) (hanswer : IsAnswer state.result) :
    Visited kind (snapshot.verdictDefinition (.operation definition))
      (snapshot.answerAfter state.result (.operation definition))
      (ObmcGqlVisitor.visitOperationDefinition library depth snapshot.manager definition
        state) := by
  rw [ObmcGqlVisitor.visitOperationDefinition, Fallible.bind_get, verdictDefinition]
  by_cases hquery : definition.operation = GqlQueryVisitor.visitorName
  · obtain ⟨value, hpush⟩ := pushBack_answer hanswer
    rw [if_pos hquery, if_pos hquery, hquery, hpush]
    have hvisited := visited_query hsteady library definition
      (show kind ({ state with
        result := .object [(GqlQueryVisitor.visitorName, value)] } : DocumentState).store
        from hstore) rfl
    rw [← Verdict.andThen_passes (snapshot.verdictQuery definition)]
    exact hvisited.bind fun _ store hstore => ⟨true, store, rfl, hstore⟩
  · obtain ⟨pushed, hpush⟩ := pushBack_unsupported hanswer definition.operation
    rw [if_neg hquery, if_neg hquery, hpush]
    exact ⟨_, rfl⟩

omit hsteady in
/-- The visitor of documents walks selections without effect. -/
theorem accept_documentVisitor (library : AstLibrary) (depth : ℕ) (manager : EntityManager)
    (selection : Selection) (state : DocumentState) :
    selection.accept (ObmcGqlVisitor.visitor library depth manager) state = .ok ⟨⟩ state :=
  accept_of_idle (fun _ => rfl) (fun _ => rfl) selection state

omit hsteady in
/-- Once an operation is visited, the visitor of documents walks it without effect. -/
theorem accept_operation_eq (library : AstLibrary) (depth : ℕ) (manager : EntityManager)
    (definition : OperationDefinition) (state : DocumentState) :
    definition.accept (ObmcGqlVisitor.visitor library depth manager) state =
      (ObmcGqlVisitor.visitOperationDefinition library depth manager definition >>= fun _ =>
        pure ⟨⟩) state := by
  have hchildren : ∀ answered : DocumentState,
      (do
        Fallible.forEach (fun variableName => visitNode
          ((ObmcGqlVisitor.visitor library depth manager).visitVariableDefinition variableName)
          (pure ⟨⟩) (pure ⟨⟩)) definition.variableDefinitions
        Fallible.forEach (Selection.accept (ObmcGqlVisitor.visitor library depth manager))
          definition.selectionSet) answered = .ok ⟨⟩ answered := by
    intro answered
    have hvariables : Fallible.forEach (fun variableName => visitNode
        ((ObmcGqlVisitor.visitor library depth manager).visitVariableDefinition variableName)
        (pure ⟨⟩) (pure ⟨⟩)) definition.variableDefinitions answered = .ok ⟨⟩ answered :=
      Fallible.forEach_idle fun variableName _ => rfl
    rw [Fallible.bind_ok hvariables]
    exact Fallible.forEach_idle fun selection _ =>
      accept_documentVisitor library depth manager selection answered
  rw [OperationDefinition.accept, walkOperation, visitNode]
  change (ObmcGqlVisitor.visitOperationDefinition library depth manager definition >>= _) state = _
  cases hvisit : ObmcGqlVisitor.visitOperationDefinition library depth manager definition state with
  | error failure after => rw [Fallible.bind_error hvisit, Fallible.bind_error hvisit]
  | ok descend after =>
      rw [Fallible.bind_ok hvisit, Fallible.bind_ok hvisit]
      cases descend with
      | true =>
          rw [if_pos rfl, Fallible.bind_ok (hchildren after)]
          rfl
      | false => rfl

theorem visited_definition (library : AstLibrary) (definition : Definition)
    {state : DocumentState} (hstore : kind state.store) (hanswer : IsAnswer state.result) :
    Visited kind (snapshot.verdictDefinition definition)
      (snapshot.answerAfter state.result definition)
      (definition.accept (ObmcGqlVisitor.visitor library depth snapshot.manager) state) := by
  cases definition with
  | fragment name selectionSet =>
      rw [Definition.accept, acceptAll_eq_forEach, Fallible.forEach_idle fun selection _ =>
        accept_documentVisitor library depth snapshot.manager selection state]
      exact ⟨⟨⟩, state.store, rfl, hstore⟩
  | operation definition =>
      rw [Definition.accept, accept_operation_eq,
        ← Verdict.andThen_passes (snapshot.verdictDefinition _)]
      apply (visited_operation hsteady library definition hstore hanswer).bind
      exact fun _ store hstore => ⟨⟨⟩, store, rfl, hstore⟩

theorem visited_definitions (library : AstLibrary) (definitions : List Definition)
    {state : DocumentState} (hstore : kind state.store) (hanswer : IsAnswer state.result) :
    Visited kind (snapshot.verdictDefinitions definitions)
      (definitions.foldl snapshot.answerAfter state.result)
      (Fallible.forEach (Definition.accept
        (ObmcGqlVisitor.visitor library depth snapshot.manager)) definitions state) := by
  induction definitions generalizing state with
  | nil => exact ⟨⟨⟩, state.store, rfl, hstore⟩
  | cons definition definitions ih =>
      rw [Fallible.forEach, verdictDefinitions, List.foldl_cons]
      apply (visited_definition hsteady library definition hstore hanswer).bind
      intro _ store hstore
      apply ih hstore
      cases definition with
      | operation definition => exact .inr ⟨_, rfl⟩
      | fragment name selectionSet => exact hanswer

/-- `run` answers with the data when the verdict passes, with the error when it is
answered, and does not return when it fails. -/
theorem run_spec (library : AstLibrary) (gqlNode : Option Document)
    {state : GraphqlRouter.Answering} (hstore : kind state.store) :
    match snapshot.verdictDocument gqlNode with
    | .passes => ∃ store,
        GraphqlRouter.run library depth snapshot.manager gqlNode state = .ok ⟨⟩ ⟨store,
          (state.response.push (.object [(GraphqlRouter.respFieldData,
            snapshot.data (gqlNode.getD []))])).setStatus .ok⟩
    | .answered error => ∃ store,
        GraphqlRouter.run library depth snapshot.manager gqlNode state = .ok ⟨⟩ ⟨store,
          (state.response.push (.object [(GraphqlRouter.respFieldError,
            error.whatJson)])).setStatus .ok⟩
    | .fails => ∃ failure after,
        GraphqlRouter.run library depth snapshot.manager gqlNode state =
          .error failure after := by
  cases gqlNode with
  | none => exact ⟨state.store, rfl⟩
  | some document =>
      have hvisited := visited_definitions hsteady library document
        (show kind (⟨state.store, .emptyObject⟩ : DocumentState).store from hstore) (.inl rfl)
      rw [← acceptDocument_eq library] at hvisited
      simp only [verdictDocument, GraphqlRouter.run, GraphqlRouter.visit]
      generalize library.acceptDocument
        (ObmcGqlVisitor.visitor library depth snapshot.manager) document
          ⟨state.store, .emptyObject⟩ = result at hvisited ⊢
      generalize snapshot.verdictDefinitions document = verdict at hvisited ⊢
      cases verdict with
      | passes =>
          obtain ⟨_, store, rfl, -⟩ := hvisited
          exact ⟨store, rfl⟩
      | answered error =>
          obtain ⟨after, rfl⟩ := hvisited
          exact ⟨after.store, rfl⟩
      | fails =>
          obtain ⟨failure, after, rfl, huncaught⟩ := hvisited
          refine ⟨failure, { state with store := after.store }, ?_⟩
          split
          · next hok => cases hok
          · next hgql =>
              cases hgql
              exact absurd rfl (huncaught _)
          · next hfailure =>
              cases hfailure
              rfl

end

end Snapshot

end ObmcWebapp.Graphql
