/-
# The frame of a request

A request touches the store through the enumerations of its builders and in no other
way. Whatever every enumeration keeps, the walk of a document keeps, in whichever order
the library calls the visitors back, and so does `run`, also when it does not answer.
-/

import ObmcWebapp.Graphql.Handler

namespace ObmcWebapp.Graphql

open ObmcWebapp.Core ObmcWebapp.Entities

section Walks

variable {σ : Type} {holds : σ → Prop}

/-- A visitor whose callbacks keep a predicate. -/
structure AstVisitor.Keeps (holds : σ → Prop) (visitor : AstVisitor σ) : Prop where
  visitOperationDefinition : ∀ definition,
    Fallible.Preserves holds (visitor.visitOperationDefinition definition)
  endVisitOperationDefinition : ∀ definition,
    Fallible.Preserves holds (visitor.endVisitOperationDefinition definition)
  visitVariableDefinition : ∀ name, Fallible.Preserves holds (visitor.visitVariableDefinition name)
  visitField : ∀ field, Fallible.Preserves holds (visitor.visitField field)
  endVisitField : ∀ field, Fallible.Preserves holds (visitor.endVisitField field)

theorem visitNode_preserves {visit : EStateM Failure σ Bool} {children : EStateM Failure σ PUnit}
    {endVisit : EStateM Failure σ PUnit} (hvisit : Fallible.Preserves holds visit)
    (hchildren : Fallible.Preserves holds children)
    (hend : Fallible.Preserves holds endVisit) :
    Fallible.Preserves holds (visitNode visit children endVisit) := by
  apply hvisit.bind
  intro descend
  cases descend with
  | true => exact hchildren.bind fun _ => hend
  | false => exact hend

namespace AstVisitor.Keeps

variable {visitor : AstVisitor σ}

mutual

/-- The walk of a selection keeps what the callbacks keep. -/
theorem selection (hkeeps : visitor.Keeps holds) (selection : Selection) :
    Fallible.Preserves holds (selection.accept visitor) := by
  cases selection with
  | field fieldAlias name =>
      rw [Selection.accept]
      exact visitNode_preserves (hkeeps.visitField _) (.pure PUnit.unit) (hkeeps.endVisitField _)
  | object fieldAlias name selectionSet =>
      rw [Selection.accept]
      exact visitNode_preserves (hkeeps.visitField _) (hkeeps.selections selectionSet)
        (hkeeps.endVisitField _)
  | fragmentSpread name =>
      rw [Selection.accept]
      exact .pure PUnit.unit
  | inlineFragment selectionSet =>
      rw [Selection.accept]
      exact hkeeps.selections selectionSet

theorem selections (hkeeps : visitor.Keeps holds) (selectionSet : List Selection) :
    Fallible.Preserves holds (acceptAll visitor selectionSet) := by
  cases selectionSet with
  | nil =>
      rw [acceptAll]
      exact .pure PUnit.unit
  | cons first later =>
      rw [acceptAll]
      exact (hkeeps.selection first).bind fun _ => hkeeps.selections later

end

variable (hkeeps : visitor.Keeps holds)

include hkeeps

theorem operation (definition : OperationDefinition) :
    Fallible.Preserves holds (definition.accept visitor) := by
  apply visitNode_preserves (hkeeps.visitOperationDefinition definition) _
    (hkeeps.endVisitOperationDefinition definition)
  apply Fallible.Preserves.bind
  · exact .forEach (fun name => visitNode_preserves (hkeeps.visitVariableDefinition name)
      (.pure PUnit.unit) (.pure PUnit.unit)) _
  · exact fun _ => .forEach hkeeps.selection _

theorem document (library : AstLibrary) (document : Document) :
    Fallible.Preserves holds (library.acceptDocument visitor document) := by
  rw [acceptDocument_eq]
  apply Fallible.Preserves.forEach
  intro definition
  cases definition with
  | operation definition => exact hkeeps.operation definition
  | fragment name selectionSet => exact hkeeps.selections selectionSet

end AstVisitor.Keeps

end Walks

section Route

variable [StdHash] {depth : ℕ} {manager : EntityManager} {holds : EntityStore → Prop}
  (henumerate : ∀ entity, Fallible.Preserves holds (getInstances depth entity none))

omit [StdHash] in
theorem jsonResult_preserves {σ α : Type} {kept : σ → Prop} (value : Except String α) :
    Fallible.Preserves kept (jsonResult value : EStateM Failure σ α) := by
  cases value with
  | ok value => exact .pure value
  | error what => exact .throw _

include henumerate

namespace GqlObjectBuild

theorem create_preserves (objectName : String) (entity : EntityId) :
    Fallible.Preserves holds (create depth objectName entity) :=
  (henumerate entity).bind fun _ => (jsonResult_preserves _).bind fun _ => .pure _

theorem supplement_preserves (fieldName : String) :
    Fallible.Preserves (fun building : Building => holds building.store)
      (supplement depth fieldName) := by
  intro state hstate
  rw [supplement]
  split
  · exact hstate
  · exact hstate
  · next entity _ _ =>
      apply Fallible.Preserves.mapError _ _ state hstate
      cases (state.store.objects entity).getMember fieldName with
      | error exception => exact .throw _
      | ok member =>
          apply Fallible.Preserves.bind
          · exact (henumerate entity).zoom (fun _ hbuilding => hbuilding) fun _ _ _ hnext => hnext
          · intro instances
            apply Fallible.Preserves.forEach
            intro inst building hbuilding
            rw [supplementValue]
            split <;> exact hbuilding

theorem getFragment_preserves (builder : GqlObjectBuild) :
    Fallible.Preserves holds (builder.getFragment depth) := by
  have hback : Fallible.Preserves holds (backOf builder.fragment) := by
    rw [backOf]
    cases builder.fragment.back? with
    | some value => exact .pure value
    | none => exact .throw _
  rw [getFragment]
  apply Fallible.Preserves.mapError
  cases builder.entityObject with
  | none => exact hback
  | some entity =>
      apply (henumerate entity).bind
      intro single
      split_ifs
      · exact hback
      · apply (henumerate entity).bind
        intro many
        split_ifs
        · exact .pure _
        · exact .pure _

end GqlObjectBuild

namespace GqlQueryVisitor

/-- The callbacks of the query visitor keep what enumerations keep. -/
theorem visitor_keeps :
    (visitor depth manager).Keeps (fun state : QueryState => holds state.store) where
  visitOperationDefinition _ := .pure true
  endVisitOperationDefinition _ := .pure PUnit.unit
  visitVariableDefinition _ := .throw _
  visitField := by
    intro field state hstate
    have henter : Fallible.Preserves (fun state : QueryState => holds state.store)
        (enterObject depth manager field) := by
      apply Fallible.Preserves.mapError
      intro state hstate
      cases manager.getEntity field.name with
      | error exception => exact hstate
      | ok entity =>
          have hcreate := GqlObjectBuild.create_preserves henumerate field.name entity state.store
            hstate
          simp only
          cases hresult : GqlObjectBuild.create depth field.name entity state.store with
          | ok child store =>
              rw [hresult] at hcreate
              exact hcreate
          | error failure store =>
              rw [hresult] at hcreate
              exact hcreate
    change Fallible.Leaves _ (GqlQueryVisitor.visitField depth manager field state)
    rw [GqlQueryVisitor.visitField]
    split
    · exact hstate
    · next builder parents _ =>
        split_ifs
        · exact henter.bind (fun _ => .pure true) state hstate
        · have hsupplement := GqlObjectBuild.supplement_preserves henumerate
            (field.fieldAlias.getD field.name) ⟨state.store, builder⟩ hstate
          cases hresult : GqlObjectBuild.supplement depth (field.fieldAlias.getD field.name)
              ⟨state.store, builder⟩ with
          | ok value building =>
              rw [hresult] at hsupplement
              exact hsupplement
          | error failure building =>
              rw [hresult] at hsupplement
              exact hsupplement
  endVisitField := by
    intro field
    have hpush : Fallible.Preserves (fun state : QueryState => holds state.store)
        (pushFragmentToParent depth) := by
      intro state hstate
      rw [pushFragmentToParent]
      split
      · exact hstate
      · exact hstate
      · next builder parent parents _ =>
          have hfragment := GqlObjectBuild.getFragment_preserves henumerate builder state.store hstate
          cases hresult : builder.getFragment depth state.store with
          | error failure store =>
              rw [hresult] at hfragment
              exact hfragment
          | ok fragment store =>
              rw [hresult] at hfragment
              simp only
              cases parent.supplementChild builder.getFieldName fragment with
              | ok parent => exact hfragment
              | error exception => exact hfragment
    change Fallible.Preserves _ (GqlQueryVisitor.endVisitField depth field)
    rw [GqlQueryVisitor.endVisitField]
    split_ifs
    · exact hpush.bind fun _ _ hstate => hstate
    · exact .pure PUnit.unit

theorem destroy_preserves :
    Fallible.Preserves (fun state : QueryState => holds state.store) (destroy depth) := by
  intro state hstate
  rw [destroy]
  split
  · exact hstate
  · next builder _ _ =>
      have hfragment := GqlObjectBuild.getFragment_preserves henumerate builder state.store hstate
      split
      all_goals
        next hresult =>
          rw [hresult] at hfragment
          exact hfragment

end GqlQueryVisitor

namespace ObmcGqlVisitor

theorem visitQuery_preserves (library : AstLibrary) (definition : OperationDefinition) :
    Fallible.Preserves (fun state : DocumentState => holds state.store)
      (visitQuery library depth manager definition) := by
  have hkeeps : (GqlQueryVisitor.visitor depth manager).Keeps
      (fun state : QueryState => holds state.store) := GqlQueryVisitor.visitor_keeps henumerate
  intro state hstate
  have hwalk := hkeeps.operation definition
    ⟨state.store, [.root GqlQueryVisitor.visitorName]⟩ hstate
  have hdestroy : ∀ walked : QueryState, holds walked.store →
      Fallible.Leaves (fun state : QueryState => holds state.store)
        (GqlQueryVisitor.destroy depth walked) := GqlQueryVisitor.destroy_preserves henumerate
  rw [visitQuery]
  simp only [acceptOperation_eq]
  cases hresult : definition.accept (GqlQueryVisitor.visitor depth manager)
      ⟨state.store, [.root GqlQueryVisitor.visitorName]⟩ with
  | ok value walked =>
      rw [hresult] at hwalk
      have hleft := hdestroy walked hwalk
      cases hdestroyed : GqlQueryVisitor.destroy depth walked with
      | ok document after =>
          rw [hdestroyed] at hleft
          simp only [hdestroyed]
          exact hleft
      | error failure after =>
          rw [hdestroyed] at hleft
          simp only [hdestroyed]
          exact hleft
  | error failure walked =>
      rw [hresult] at hwalk
      have hleft := hdestroy walked hwalk
      cases failure with
      | raised exception =>
          cases hdestroyed : GqlQueryVisitor.destroy depth walked with
          | ok document after =>
              rw [hdestroyed] at hleft
              simp only [hdestroyed]
              exact hleft
          | error failure after =>
              rw [hdestroyed] at hleft
              simp only [hdestroyed]
              exact hleft
      | _ => exact hwalk

theorem visitor_keeps (library : AstLibrary) :
    (visitor library depth manager).Keeps (fun state : DocumentState => holds state.store) where
  visitOperationDefinition := by
    intro definition state hstate
    change Fallible.Leaves _ (visitOperationDefinition library depth manager definition state)
    rw [visitOperationDefinition, Fallible.bind_get]
    apply (jsonResult_preserves _).bind _ state hstate
    intro result
    apply Fallible.Preserves.bind
    · exact fun _ _ => hstate
    · intro _
      split_ifs
      · exact (visitQuery_preserves henumerate library definition).bind fun _ => .pure true
      · exact .throw _
  endVisitOperationDefinition _ := .pure PUnit.unit
  visitVariableDefinition _ := .pure true
  visitField _ := .pure true
  endVisitField _ := .pure PUnit.unit

end ObmcGqlVisitor

/-- A request keeps what every enumeration keeps. -/
theorem run_preserves (library : AstLibrary) (gqlNode : Option Document) :
    Fallible.Preserves (fun state : GraphqlRouter.Answering => holds state.store)
      (GraphqlRouter.run library depth manager gqlNode) := by
  intro state hstate
  have hvisit : Fallible.Leaves (fun state : DocumentState => holds state.store)
      (GraphqlRouter.visit library depth manager gqlNode ⟨state.store, .emptyObject⟩) := by
    cases gqlNode with
    | none => exact hstate
    | some document =>
        exact (ObmcGqlVisitor.visitor_keeps henumerate library).document library document
          ⟨state.store, .emptyObject⟩ hstate
  have hrespond : ∀ field value, Fallible.Preserves
      (fun state : GraphqlRouter.Answering => holds state.store)
      (GraphqlRouter.respond field value) := by
    intro field value
    exact (jsonResult_preserves _).bind fun _ _ hanswering => hanswering
  rw [GraphqlRouter.run]
  cases hresult : GraphqlRouter.visit library depth manager gqlNode ⟨state.store, .emptyObject⟩ with
  | ok value visited =>
      rw [hresult] at hvisit
      exact hrespond _ _ _ hvisit
  | error failure visited =>
      rw [hresult] at hvisit
      split
      · next hok => cases hok
      · next hraised =>
          cases hraised
          exact hrespond _ _ _ hvisit
      · next hfailed =>
          cases hfailed
          exact hvisit

end Route

end ObmcWebapp.Graphql
