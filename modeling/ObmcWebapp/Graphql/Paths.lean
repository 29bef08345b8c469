/-
# Response paths

A response path is a list of response names. In an answer it is followed through every
element of a list. In a selection set it is followed through the first field of each
response name, with the inline fragments opened in place: the object of an instance
keeps the member it was given first.
-/

import ObmcWebapp.Graphql.Ast

namespace ObmcWebapp.Graphql

open ObmcWebapp.Core

/-- The elements of a list, or the value itself. -/
def listed : Json → List Json
  | .array items => items
  | json => [json]

/-- A path occurs in a value, and in every element of each list on its way. -/
def Occurs : List String → Json → Prop
  | [], _ => True
  | name :: path, json => ∀ item ∈ listed json, ∃ child, item.member? name = some child ∧
      Occurs path child

/-- The values a path leads to. -/
def valuesAt : List String → Json → List Json
  | [], json => [json]
  | name :: path, json => (listed json).flatMap fun item =>
      ((item.member? name).map (valuesAt path)).getD []

theorem valuesAt_cons (name : String) (path : List String) (members : List (String × Json)) :
    valuesAt (name :: path) (.ofMembers members) =
      ((members.lookup name).map (valuesAt path)).getD [] := by
  show ([Json.object (Entries.ofList members)].flatMap fun item =>
    ((item.member? name).map (valuesAt path)).getD []) = _
  rw [List.flatMap_singleton, Json.member?, Entries.lookup_ofList]

/-- A path goes through the elements of a list of objects. -/
theorem valuesAt_listed {path : List String} (hpath : path ≠ []) {json : Json}
    (hitems : ∀ item ∈ listed json, listed item = [item]) :
    valuesAt path json = (listed json).flatMap (valuesAt path) := by
  cases path with
  | nil => exact absurd rfl hpath
  | cons name path =>
      rw [valuesAt]
      apply List.flatMap_congr
      intro item hmem
      rw [valuesAt, hitems item hmem, List.flatMap_singleton]

mutual

/-- The fields of a selection, with inline fragments opened. A spread has none. -/
def Selection.fields : Selection → List Selection
  | .field fieldAlias name => [.field fieldAlias name]
  | .object fieldAlias name selectionSet => [.object fieldAlias name selectionSet]
  | .fragmentSpread _ => []
  | .inlineFragment selectionSet => fieldsOf selectionSet

def fieldsOf : List Selection → List Selection
  | [] => []
  | selection :: selections => selection.fields ++ fieldsOf selections

end

/-- The name a field answers under. -/
def Selection.responseName? : Selection → Option String
  | .field fieldAlias name => some (fieldAlias.getD name)
  | .object fieldAlias name _ => some (fieldAlias.getD name)
  | _ => none

/-- The selection set of a field. -/
def Selection.children : Selection → List Selection
  | .object _ _ selectionSet => selectionSet
  | _ => []

/-- The first of some fields with a response name. -/
def firstNamed (name : String) (fields : List Selection) : Option Selection :=
  fields.find? fun field => decide (field.responseName? = some name)

/-- The first fields of the response names of a path lead along it. -/
def Delivered : List String → List Selection → Prop
  | [], _ => True
  | name :: path, fields => ∃ field, firstNamed name fields = some field ∧
      Delivered path (fieldsOf field.children)

theorem firstNamed_cons (name : String) (field : Selection) (fields : List Selection) :
    firstNamed name (field :: fields) =
      if field.responseName? = some name then some field else firstNamed name fields := by
  rw [firstNamed, List.find?_cons, firstNamed]
  by_cases hname : field.responseName? = some name <;> simp [hname]

theorem firstNamed_append_singleton (name : String) (fields : List Selection) (last : Selection) :
    firstNamed name (fields ++ [last]) =
      (firstNamed name fields).or (if last.responseName? = some name then some last else none) := by
  rw [firstNamed, List.find?_append, List.find?_singleton, firstNamed]
  by_cases hname : last.responseName? = some name <;> simp [hname]

/-- Whether the first name of a path is there. -/
theorem delivered_singleton {name : String} {fields : List Selection} :
    Delivered [name] fields ↔ (firstNamed name fields).isSome := by
  rw [Option.isSome_iff_exists]
  exact ⟨fun ⟨field, hfirst, _⟩ => ⟨field, hfirst⟩, fun ⟨field, hfirst⟩ => ⟨field, hfirst, trivial⟩⟩

/-- The operations of a document. -/
def operations (document : Document) : List OperationDefinition :=
  document.filterMap fun definition =>
    match definition with
    | .operation definition => some definition
    | .fragment _ _ => none

/-- A path from a selection set to a scalar field, also through fragments. -/
inductive SelectedPath (document : Document) : List Selection → List String → Prop
  | scalar {selections : List Selection} {fieldAlias : Option String} {name : String}
      (hmem : .field fieldAlias name ∈ selections) :
      SelectedPath document selections [fieldAlias.getD name]
  | object {selections selectionSet : List Selection} {fieldAlias : Option String} {name : String}
      {path : List String} (hmem : .object fieldAlias name selectionSet ∈ selections)
      (hrest : SelectedPath document selectionSet path) :
      SelectedPath document selections (fieldAlias.getD name :: path)
  | inlineFragment {selections selectionSet : List Selection} {path : List String}
      (hmem : .inlineFragment selectionSet ∈ selections)
      (hrest : SelectedPath document selectionSet path) : SelectedPath document selections path
  | fragmentSpread {selections selectionSet : List Selection} {name : String} {path : List String}
      (hmem : .fragmentSpread name ∈ selections)
      (hfragment : .fragment name selectionSet ∈ document)
      (hrest : SelectedPath document selectionSet path) : SelectedPath document selections path

end ObmcWebapp.Graphql
