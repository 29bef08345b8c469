/-
# The GraphQL route

Two visitors walk a document. The outer one starts, at every operation, the visitor of
that kind of operation, of which only the one for queries exists. The query visitor
keeps the builders of the fields it is inside of; its end, normal or by an exception,
writes the fragment of the builder it is at into the answer. An exception raised there
ends the process, since it leaves a destructor.

`run` answers with the data of the visited operations, or with the error that
stopped the visit. Only the GraphQL errors are caught.
-/

import ObmcWebapp.Core.Response
import ObmcWebapp.Graphql.Ast
import ObmcWebapp.Graphql.Builder

namespace ObmcWebapp.Graphql

open ObmcWebapp.Core ObmcWebapp.Entities

variable [StdHash]

/-- The store and the builders from the current one up to the root. -/
structure QueryState where
  store : EntityStore
  builders : List GqlObjectBuild

namespace GqlQueryVisitor

def visitorName : String := "query"

/-- What `visitField` makes of a failure while it builds a child. -/
def objectFailure : Failure → Failure
  | .raised (.entity what) => .raised (.gql (.astError what))
  | .raised (.jsonType _) =>
      .raised (.gql (.astError
        "Internal GQL implementation error or requested AST structure is not supported"))
  | failure => failure

/-- Start the builder of a field with a selection set. -/
def enterObject (depth : ℕ) (manager : EntityManager) (field : Field) :
    EStateM Failure QueryState PUnit :=
  Fallible.mapError objectFailure (fun state =>
    match manager.getEntity field.name with
    | .error exception => .error (.raised exception) state
    | .ok entity =>
        match GqlObjectBuild.create depth field.name entity state.store with
        | .ok child store =>
            .ok ⟨⟩ ⟨store, { child with fieldAlias := field.fieldAlias } :: state.builders⟩
        | .error failure store => .error failure { state with store := store })

/-- `visitField`. -/
def visitField (depth : ℕ) (manager : EntityManager) (field : Field) :
    EStateM Failure QueryState Bool := fun state =>
  match state.builders with
  | [] =>
      .error (.raised (.gql (.internalError
        (if field.hasSelectionSet then "The builder was not found" else "Not builder found")))) state
  | builder :: parents =>
      if field.hasSelectionSet then (enterObject depth manager field >>= fun _ => pure true) state
      else
        match GqlObjectBuild.supplement depth (field.fieldAlias.getD field.name)
            ⟨state.store, builder⟩ with
        | .ok _ building => .ok true ⟨building.store, building.builder :: parents⟩
        | .error failure building => .error failure ⟨building.store, building.builder :: parents⟩

/-- `pushFragmentToParent`; the root has no parent. -/
def pushFragmentToParent (depth : ℕ) : EStateM Failure QueryState PUnit := fun state =>
  match state.builders with
  | [] => .error .nullDereference state
  | [_] => .ok ⟨⟩ state
  | builder :: parent :: parents =>
      match builder.getFragment depth state.store with
      | .error failure store => .error failure { state with store := store }
      | .ok fragment store =>
          match parent.supplementChild builder.getFieldName fragment with
          | .ok parent => .ok ⟨⟩ ⟨store, builder :: parent :: parents⟩
          | .error exception => .error (.raised exception) { state with store := store }

/-- `endVisitField`. -/
def endVisitField (depth : ℕ) (field : Field) : EStateM Failure QueryState PUnit :=
  if field.hasSelectionSet then do
    pushFragmentToParent depth
    modify fun state => { state with builders := state.builders.tail }
  else pure ⟨⟩

/-- `visitVariableDefinition`. -/
def visitVariableDefinition (_ : String) : EStateM Failure QueryState Bool :=
  throw (.raised (.gql (.notSupported "GQL Variable definition temporarry not supported")))

/-- The visitor of queries. -/
def visitor (depth : ℕ) (manager : EntityManager) : AstVisitor QueryState where
  visitVariableDefinition := visitVariableDefinition
  visitField := visitField depth manager
  endVisitField := endVisitField depth

/-- The destructor: the value for the answer. -/
def destroy (depth : ℕ) : EStateM Failure QueryState Json := fun state =>
  match state.builders with
  | [] => .error .nullDereference state
  | builder :: _ =>
      match builder.getFragment depth state.store with
      | .ok document store => .ok document { state with store := store }
      | .error (.raised _) store => .error .terminated { state with store := store }
      | .error failure store => .error failure { state with store := store }

end GqlQueryVisitor

/-- The store and the answer so far. -/
structure DocumentState where
  store : EntityStore
  result : Json

namespace ObmcGqlVisitor

/-- Walk an operation with the query visitor and destroy the visitor, also when the
walk ends with an exception. -/
def visitQuery (library : AstLibrary) (depth : ℕ) (manager : EntityManager)
    (definition : OperationDefinition) : EStateM Failure DocumentState PUnit := fun state =>
  let start : QueryState := ⟨state.store, [.root GqlQueryVisitor.visitorName]⟩
  let destroyed (walked : QueryState)
      (rethrow : DocumentState → EStateM.Result Failure DocumentState PUnit) :=
    match GqlQueryVisitor.destroy depth walked with
    | .ok document after => rethrow ⟨after.store, state.result.assignBack document⟩
    | .error failure after => .error failure { state with store := after.store }
  match library.acceptOperation (GqlQueryVisitor.visitor depth manager) definition start with
  | .ok _ walked => destroyed walked (.ok ⟨⟩)
  | .error (.raised exception) walked => destroyed walked (.error (.raised exception))
  | .error failure walked => .error failure { state with store := walked.store }

/-- `visitOperationDefinition`. -/
def visitOperationDefinition (library : AstLibrary) (depth : ℕ) (manager : EntityManager)
    (definition : OperationDefinition) : EStateM Failure DocumentState Bool := do
  let state ← get
  let result ← jsonResult (state.result.pushBack definition.operation .emptyObject)
  set { state with result := result }
  -- the one visitor the factory has is that of queries
  if definition.operation = GqlQueryVisitor.visitorName then
    visitQuery library depth manager definition
    return true
  else throw (.raised (.gql (.notSupported definition.operation)))

/-- The visitor of documents. -/
def visitor (library : AstLibrary) (depth : ℕ) (manager : EntityManager) :
    AstVisitor DocumentState where
  visitOperationDefinition := visitOperationDefinition library depth manager

end ObmcGqlVisitor

namespace GraphqlRouter

def respFieldData : String := "data"
def respFieldError : String := "error"

/-- The store and the response. -/
structure Answering where
  store : EntityStore
  response : Response

/-- Visit the document, if there is one. -/
def visit (library : AstLibrary) (depth : ℕ) (manager : EntityManager)
    (gqlNode : Option Document) : EStateM Failure DocumentState PUnit :=
  match gqlNode with
  | none =>
      throw (.raised (.gql (.astError "Invalid Grapqh AST. Can't parse comming request")))
  | some document =>
      library.acceptDocument (ObmcGqlVisitor.visitor library depth manager) document

/-- Push the answer and set the status. -/
def respond (field : String) (value : Json) : EStateM Failure Answering PUnit := do
  let result ← jsonResult (Json.emptyObject.pushBack field value)
  modify fun state => { state with response := (state.response.push result).setStatus .ok }

/-- `run`. -/
def run (library : AstLibrary) (depth : ℕ) (manager : EntityManager) (gqlNode : Option Document) :
    EStateM Failure Answering PUnit := fun state =>
  match visit library depth manager gqlNode ⟨state.store, .emptyObject⟩ with
  | .ok _ visited => respond respFieldData visited.result { state with store := visited.store }
  | .error (.raised (.gql gqlException)) visited =>
      respond respFieldError gqlException.whatJson { state with store := visited.store }
  | .error failure visited => .error failure { state with store := visited.store }

end GraphqlRouter

end ObmcWebapp.Graphql
