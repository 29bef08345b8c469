/-
# Building the answer of one object

A builder belongs to one field with a selection set. It keeps one JSON object for each
instance of its entity, under the instance's hash, and every field of the selection set
adds a member to each of them. The fragment of a finished builder is empty, one
object or the list of all, depending on how many instances the entity has by then.

The root builder has no entity: it keeps one object under its own name, to which only
finished fragments can be added.
-/

import ObmcWebapp.Entities.Manager

namespace ObmcWebapp.Graphql

open ObmcWebapp.Core ObmcWebapp.Entities

/-- `GqlObjectBuild`, without the pointer to its parent. -/
structure GqlObjectBuild where
  name : String
  entityObject : Option EntityId
  fragment : Json
  fieldAlias : Option String := none

/-- The store and the builder that is worked on. -/
structure Building where
  store : EntityStore
  builder : GqlObjectBuild

/-- `std::to_string` of the hash: the key of an instance in a fragment. -/
def hashKey [StdHash] (inst : Instance) : String := toString inst.getHash

/-- An exception of the JSON library. -/
def jsonResult {σ α : Type} : Except String α → EStateM Failure σ α
  | .ok value => pure value
  | .error what => throw (.raised (.jsonType what))

namespace GqlObjectBuild

/-- The constructor of the root builder. -/
def root (objectName : String) : GqlObjectBuild where
  name := objectName
  entityObject := none
  fragment := .ofMembers [(objectName, .emptyObject)]

def getFieldName (builder : GqlObjectBuild) : String := builder.fieldAlias.getD builder.name

section Enumerating

variable [StdHash]

/-- One empty object for each instance. -/
def initFragment (instances : List Instance) : Except String Json :=
  instances.foldlM (fun fragment inst => fragment.assign (hashKey inst) .emptyObject)
    .emptyObject

/-- The constructor of a builder with an entity. -/
def create (depth : ℕ) (objectName : String) (inputEntity : EntityId) :
    EStateM Failure EntityStore GqlObjectBuild := do
  let instances ← getInstances depth inputEntity none
  let fragment ← jsonResult (initFragment instances)
  return { name := objectName, entityObject := some inputEntity, fragment := fragment }

/-- What `supplement` makes of a failure. -/
def supplementFailure (fieldName : String) : Failure → Failure
  | .raised (.entity _) => .raised (.gql (.invalidArgument fieldName "Field not found"))
  | .raised .outOfRange => .raised (.gql (.internalError "Internal GQL logic error"))
  | failure => failure

/-- Add the value of one instance to its object. -/
def supplementValue (fieldName : String) (member : EntityMember) (inst : Instance) :
    EStateM Failure Building PUnit :=
  fun state =>
    let value := (Instance.getField state.store.notAvailable inst member.name).toJson
    match state.builder.fragment.pushBackAt (hashKey inst) fieldName value with
    | .ok fragment => .ok ⟨⟩ { state with builder := { state.builder with fragment := fragment } }
    | .error what => .error (.raised (.jsonType what)) state

/-- `supplement` with a scalar field. -/
def supplement (depth : ℕ) (fieldName : String) : EStateM Failure Building PUnit := fun state =>
  match state.builder.fragment, state.builder.entityObject with
  | .null, _ => .error (.raised (.gql (.astError "Invalid Structure"))) state
  | _, none => .error .nullDereference state
  | _, some entityObject =>
      Fallible.mapError (supplementFailure fieldName) (do
        match (state.store.objects entityObject).getMember fieldName with
        | .error exception => throw (.raised exception)
        | .ok member =>
            let instances ← Fallible.zoom Building.store
              (fun store state => { state with store := store })
              (getInstances depth entityObject none)
            Fallible.forEach (supplementValue fieldName member) instances) state

/-- `supplement` with the fragment of a finished child. -/
def supplementChild (fieldName : String) (childJsonNode : Json) (builder : GqlObjectBuild) :
    Except Exception GqlObjectBuild :=
  match builder.fragment with
  | .object items =>
      match items.mapM fun item => (item.2.pushBack fieldName childJsonNode).map (item.1, ·) with
      | .ok items => .ok { builder with fragment := .object items }
      | .error what => .error (.jsonType what)
  | _ => .error (.gql (.internalError "A GQL parser implementation error."))

/-- What `getFragment` makes of a failure. -/
def fragmentFailure (name : String) : Failure → Failure
  | .raised .outOfRange =>
      .raised (.gql (.internalError
        ("Internal GQL logic error. Can't setup the Object data: " ++ name)))
  | failure => failure

/-- `fragment.back()`, which has no meaning in an empty fragment. -/
def backOf (fragment : Json) : EStateM Failure EntityStore Json :=
  match fragment.back? with
  | some value => pure value
  | none => throw (.undefinedBehaviour .emptyBack)

/-- `getFragment`; the instances are enumerated for each comparison of their number. -/
def getFragment (depth : ℕ) (builder : GqlObjectBuild) : EStateM Failure EntityStore Json :=
  Fallible.mapError (fragmentFailure builder.name)
    (match builder.entityObject with
      | none => backOf builder.fragment
      | some entityObject => do
          let single ← getInstances depth entityObject none
          if single.length = 1 then backOf builder.fragment
          else
            let many ← getInstances depth entityObject none
            if many.length > 1 then pure (.array builder.fragment.elements)
            else pure .emptyObject)

end Enumerating

end GqlObjectBuild

end ObmcWebapp.Graphql
