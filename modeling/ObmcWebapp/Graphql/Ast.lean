/-
# GraphQL documents and their traversal

The parser library builds the document and walks it for a visitor: a node is visited,
its children are walked unless the visit says not to, and then the visit is ended. Kept
here is what the visitors of the program look at. Names, types, arguments and
directives are walked as well, and no visitor does more than log them.

The library itself is a parameter. `AstLibrary` lists what the program relies on, and
these laws determine the walk: every library walks as `Selection.accept` does.
-/

import ObmcWebapp.Core.Exceptions
import ObmcWebapp.Library.Fallible

namespace ObmcWebapp.Graphql

open ObmcWebapp.Core

/-- A selection. A field either has a selection set or has none. -/
inductive Selection
  | field (fieldAlias : Option String) (name : String)
  | object (fieldAlias : Option String) (name : String) (selectionSet : List Selection)
  | fragmentSpread (name : String)
  | inlineFragment (selectionSet : List Selection)

structure OperationDefinition where
  operation : String := "query"
  /-- The names of the variables. -/
  variableDefinitions : List String := []
  selectionSet : List Selection

inductive Definition
  | operation (definition : OperationDefinition)
  | fragment (name : String) (selectionSet : List Selection)

abbrev Document := List Definition

/-- What a visitor sees of a field. -/
structure Field where
  fieldAlias : Option String
  name : String
  hasSelectionSet : Bool
  deriving DecidableEq, Repr

/-- The callbacks the visitors of the program override; by default a visit does nothing
and asks for the children. -/
structure AstVisitor (σ : Type) where
  visitOperationDefinition : OperationDefinition → EStateM Failure σ Bool := fun _ => pure true
  endVisitOperationDefinition : OperationDefinition → EStateM Failure σ PUnit :=
    fun _ => pure ⟨⟩
  visitVariableDefinition : String → EStateM Failure σ Bool := fun _ => pure true
  visitField : Field → EStateM Failure σ Bool := fun _ => pure true
  endVisitField : Field → EStateM Failure σ PUnit := fun _ => pure ⟨⟩

/-- Visit a node, walk its children if asked to, and end the visit. -/
def visitNode {σ : Type} (visit : EStateM Failure σ Bool) (children : EStateM Failure σ PUnit)
    (endVisit : EStateM Failure σ PUnit) : EStateM Failure σ PUnit := do
  let descend ← visit
  if descend then children else pure ⟨⟩
  endVisit

/-- The walk of a visited operation: its variables, then its selection set. -/
def walkOperation {σ : Type} (visitor : AstVisitor σ)
    (acceptSelection : Selection → EStateM Failure σ PUnit) (definition : OperationDefinition) :
    EStateM Failure σ PUnit :=
  visitNode (visitor.visitOperationDefinition definition)
    (do
      Fallible.forEach (fun variableName => visitNode
        (visitor.visitVariableDefinition variableName) (pure ⟨⟩) (pure ⟨⟩))
        definition.variableDefinitions
      Fallible.forEach acceptSelection definition.selectionSet)
    (visitor.endVisitOperationDefinition definition)

/-- `accept` of the parser library on the nodes of a document. -/
structure AstLibrary where
  acceptSelection : ∀ {σ : Type}, AstVisitor σ → Selection → EStateM Failure σ PUnit
  acceptOperation : ∀ {σ : Type}, AstVisitor σ → OperationDefinition → EStateM Failure σ PUnit
  acceptDocument : ∀ {σ : Type}, AstVisitor σ → Document → EStateM Failure σ PUnit
  accept_field : ∀ {σ : Type} (visitor : AstVisitor σ) (fieldAlias : Option String) (name : String),
    acceptSelection visitor (.field fieldAlias name) =
      visitNode (visitor.visitField ⟨fieldAlias, name, false⟩) (pure ⟨⟩)
        (visitor.endVisitField ⟨fieldAlias, name, false⟩)
  accept_object : ∀ {σ : Type} (visitor : AstVisitor σ) (fieldAlias : Option String) (name : String)
    (selectionSet : List Selection),
    acceptSelection visitor (.object fieldAlias name selectionSet) =
      visitNode (visitor.visitField ⟨fieldAlias, name, true⟩)
        (Fallible.forEach (acceptSelection visitor) selectionSet)
        (visitor.endVisitField ⟨fieldAlias, name, true⟩)
  accept_fragmentSpread : ∀ {σ : Type} (visitor : AstVisitor σ) (name : String),
    acceptSelection visitor (.fragmentSpread name) = pure ⟨⟩
  accept_inlineFragment : ∀ {σ : Type} (visitor : AstVisitor σ) (selectionSet : List Selection),
    acceptSelection visitor (.inlineFragment selectionSet) =
      Fallible.forEach (acceptSelection visitor) selectionSet
  accept_operation : ∀ {σ : Type} (visitor : AstVisitor σ) (definition : OperationDefinition),
    acceptOperation visitor definition =
      walkOperation visitor (acceptSelection visitor) definition
  accept_document : ∀ {σ : Type} (visitor : AstVisitor σ) (document : Document),
    acceptDocument visitor document = Fallible.forEach (fun definition =>
      match definition with
      | .operation definition => acceptOperation visitor definition
      | .fragment _ selectionSet => Fallible.forEach (acceptSelection visitor) selectionSet)
      document

section Accept

variable {σ : Type}

mutual

/-- The walk of a selection. -/
def Selection.accept (visitor : AstVisitor σ) : Selection → EStateM Failure σ PUnit
  | .field fieldAlias name =>
      visitNode (visitor.visitField ⟨fieldAlias, name, false⟩) (pure ⟨⟩)
        (visitor.endVisitField ⟨fieldAlias, name, false⟩)
  | .object fieldAlias name selectionSet =>
      visitNode (visitor.visitField ⟨fieldAlias, name, true⟩) (acceptAll visitor selectionSet)
        (visitor.endVisitField ⟨fieldAlias, name, true⟩)
  | .fragmentSpread _ => pure ⟨⟩
  | .inlineFragment selectionSet => acceptAll visitor selectionSet

/-- The walk of a selection set. -/
def acceptAll (visitor : AstVisitor σ) : List Selection → EStateM Failure σ PUnit
  | [] => pure ⟨⟩
  | selection :: selections => do
      selection.accept visitor
      acceptAll visitor selections

end

theorem acceptAll_eq_forEach (visitor : AstVisitor σ) (selections : List Selection) :
    acceptAll visitor selections =
      Fallible.forEach (Selection.accept visitor) selections := by
  induction selections with
  | nil => rfl
  | cons selection selections ih =>
      rw [acceptAll, Fallible.forEach, ih]

mutual

/-- Every library walks a selection the same way. -/
theorem acceptSelection_eq (library : AstLibrary) (visitor : AstVisitor σ)
    (selection : Selection) :
    library.acceptSelection visitor selection = selection.accept visitor := by
  cases selection with
  | field fieldAlias name => rw [library.accept_field, Selection.accept]
  | object fieldAlias name selectionSet =>
      rw [library.accept_object, Selection.accept, forEach_acceptSelection_eq]
  | fragmentSpread name => rw [library.accept_fragmentSpread, Selection.accept]
  | inlineFragment selectionSet =>
      rw [library.accept_inlineFragment, Selection.accept, forEach_acceptSelection_eq]

theorem forEach_acceptSelection_eq (library : AstLibrary) (visitor : AstVisitor σ)
    (selections : List Selection) :
    Fallible.forEach (library.acceptSelection visitor) selections =
      acceptAll visitor selections := by
  cases selections with
  | nil => rfl
  | cons selection selections =>
      rw [Fallible.forEach, acceptAll, acceptSelection_eq, forEach_acceptSelection_eq]

end

/-- The walk of an operation. -/
def OperationDefinition.accept (visitor : AstVisitor σ) (definition : OperationDefinition) :
    EStateM Failure σ PUnit :=
  walkOperation visitor (Selection.accept visitor) definition

theorem acceptOperation_eq (library : AstLibrary) (visitor : AstVisitor σ)
    (definition : OperationDefinition) :
    library.acceptOperation visitor definition = definition.accept visitor := by
  have hwalk : library.acceptSelection visitor = Selection.accept visitor := by
    funext selection
    exact acceptSelection_eq library visitor selection
  rw [library.accept_operation, OperationDefinition.accept, hwalk]

/-- The walk of a definition. -/
def Definition.accept (visitor : AstVisitor σ) : Definition → EStateM Failure σ PUnit
  | .operation definition => definition.accept visitor
  | .fragment _ selectionSet => acceptAll visitor selectionSet

theorem acceptDocument_eq (library : AstLibrary) (visitor : AstVisitor σ) (document : Document) :
    library.acceptDocument visitor document =
      Fallible.forEach (Definition.accept visitor) document := by
  rw [library.accept_document]
  congr 1
  funext definition
  cases definition with
  | operation definition => exact acceptOperation_eq library visitor definition
  | fragment name selectionSet => exact forEach_acceptSelection_eq library visitor selectionSet

mutual

/-- A visitor without callbacks for fields walks a selection without effect. -/
theorem accept_of_idle {visitor : AstVisitor σ}
    (hvisit : ∀ field, visitor.visitField field = pure true)
    (hend : ∀ field, visitor.endVisitField field = pure ⟨⟩) (selection : Selection)
    (state : σ) : selection.accept visitor state = .ok ⟨⟩ state := by
  cases selection with
  | field fieldAlias name =>
      rw [Selection.accept, hvisit, hend]
      rfl
  | object fieldAlias name selectionSet =>
      rw [Selection.accept, hvisit, hend, visitNode]
      rw [Fallible.bind_ok (Fallible.pure_apply true state), if_pos rfl,
        Fallible.bind_ok (acceptAll_of_idle hvisit hend selectionSet state)]
      rfl
  | fragmentSpread name =>
      rw [Selection.accept]
      rfl
  | inlineFragment selectionSet =>
      rw [Selection.accept]
      exact acceptAll_of_idle hvisit hend selectionSet state

theorem acceptAll_of_idle {visitor : AstVisitor σ}
    (hvisit : ∀ field, visitor.visitField field = pure true)
    (hend : ∀ field, visitor.endVisitField field = pure ⟨⟩) (selections : List Selection)
    (state : σ) : acceptAll visitor selections state = .ok ⟨⟩ state := by
  cases selections with
  | nil =>
      rw [acceptAll]
      rfl
  | cons selection selections =>
      rw [acceptAll, Fallible.bind_ok (accept_of_idle hvisit hend selection state)]
      exact acceptAll_of_idle hvisit hend selections state

end

end Accept

/-- A library that walks depth first. -/
def AstLibrary.depthFirst : AstLibrary where
  acceptSelection := Selection.accept
  acceptOperation := OperationDefinition.accept
  acceptDocument visitor := Fallible.forEach (Definition.accept visitor)
  accept_field _ _ _ := by rw [Selection.accept]
  accept_object _ _ _ _ := by rw [Selection.accept, acceptAll_eq_forEach]
  accept_fragmentSpread _ _ := by rw [Selection.accept]
  accept_inlineFragment _ _ := by rw [Selection.accept, acceptAll_eq_forEach]
  accept_operation _ _ := rfl
  accept_document visitor document := by
    congr 1
    funext definition
    cases definition with
    | operation definition => rfl
    | fragment name selectionSet => exact acceptAll_eq_forEach visitor selectionSet

end ObmcWebapp.Graphql
