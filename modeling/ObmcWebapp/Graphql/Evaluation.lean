/-
# Evaluation of plain queries

A plain query is made of fields only, without aliases. Its meaning is a recursion over
the fields: each instance of an entity gives one object with the values of the selected
members, and an entity with no, one or several instances gives an empty object, the one
object, or all of them in the order of their keys.

Between the enumerations of one request the published instances stay as they are, so
that each of them shows the same. Then the route answers a plain query with its
meaning, or with the first name in it that does not resolve.
-/

import Mathlib
import ObmcWebapp.Graphql.Answer
import ObmcWebapp.Entities.Settling

namespace ObmcWebapp.Graphql

open ObmcWebapp.Core ObmcWebapp.Entities

/-- A field without alias. -/
inductive PlainField
  | scalar (name : String)
  | object (name : String) (fields : List PlainField)

mutual

/-- The field as the parser gives it. -/
def PlainField.toSelection : PlainField → Selection
  | .scalar name => .field none name
  | .object name fields => .object none name (toSelections fields)

def toSelections : List PlainField → List Selection
  | [] => []
  | field :: fields => field.toSelection :: toSelections fields

end

/-- The document of a plain query whose fields all have selection sets. -/
def plainDocument (roots : List (String × List PlainField)) : Document :=
  [.operation { selectionSet := roots.map fun root => .object none root.1 (toSelections root.2) }]

section Reference

variable [StdHash] (manager : EntityManager) (view : EntityId → List Instance)

/-- The instances of the entity with a name. -/
def instancesOf (name : String) : List Instance :=
  match manager.entityDictionary.find? name with
  | some entity => view entity
  | none => []

/-- What the objects of the instances of an entity, under their keys, are given as. -/
def arrange : List (String × Json) → Json
  | [] => .emptyObject
  | [object] => object.2
  | objects => .array ((objects.insertionSort fun first second => first.1 ≤ second.1).map Prod.snd)

mutual

/-- The member a field adds to the object of an instance. -/
def memberOf (inst : Instance) : PlainField → String × Json
  | .scalar name => (name, ((inst.memberInstances.find? name).getD .notAvailable).toJson)
  | .object name fields =>
      (name, arrange ((instancesOf manager view name).map fun child =>
        (hashKey child, .ofMembers (membersOf child fields))))

def membersOf (inst : Instance) : List PlainField → List (String × Json)
  | [] => []
  | field :: fields => memberOf inst field :: membersOf inst fields

end

/-- The value of a field with a selection set. -/
def eval (name : String) (fields : List PlainField) : Json :=
  arrange ((instancesOf manager view name).map fun child =>
    (hashKey child, .ofMembers (membersOf manager view child fields)))

end Reference

section Resolution

variable (manager : EntityManager) (members : EntityId → OrderedMap MemberName EntityMember)

mutual

/-- The error for the first name in a field that does not resolve. -/
def unresolved? (enclosing : EntityId) : PlainField → Option GqlException
  | .scalar name =>
      if (members enclosing).contains name then none
      else some (.invalidArgument name "Field not found")
  | .object name fields =>
      match manager.entityDictionary.find? name with
      | some entity => unresolvedAll? entity fields
      | none => some (.astError ("The Object <" ++ name ++ "> not found"))

def unresolvedAll? (enclosing : EntityId) : List PlainField → Option GqlException
  | [] => none
  | field :: fields => (unresolved? enclosing field).or (unresolvedAll? enclosing fields)

end

/-- The error for the first name in a field with a selection set that does not resolve. -/
def unresolvedObject? (name : String) (fields : List PlainField) : Option GqlException :=
  match manager.entityDictionary.find? name with
  | some entity => unresolvedAll? manager members entity fields
  | none => some (.astError ("The Object <" ++ name ++ "> not found"))

/-- The error for the first name in a plain query that does not resolve. -/
def unresolvedRoots? : List (String × List PlainField) → Option GqlException
  | [] => none
  | root :: roots =>
      (unresolvedObject? manager members root.1 root.2).or (unresolvedRoots? roots)

end Resolution

section Fixed

variable [StdHash]

/-- One enumeration of a registered entity. -/
def Enumerates (depth : ℕ) (manager : EntityManager) (before after : EntityStore) : Prop :=
  ∃ name entity instances, manager.entityDictionary.find? name = some entity ∧
    getInstances depth entity none before = .ok instances after

/-- What a request sees is fixed while it runs: after any enumerations the next one shows
the same instances, and absent members read as not available. -/
structure FixedDuringRequest (depth : ℕ) (manager : EntityManager)
    (view : EntityId → List Instance) (store : EntityStore) : Prop where
  shows : ∀ reached, Relation.ReflTransGen (Enumerates depth manager) store reached →
    ∀ name entity, manager.entityDictionary.find? name = some entity →
      ∃ after, getInstances depth entity none reached = .ok (view entity) after
  notAvailable : ∀ reached, Relation.ReflTransGen (Enumerates depth manager) store reached →
    reached.notAvailable = .notAvailable

/-- The instances of each registered entity have different hashes. -/
def HashesDiffer (manager : EntityManager) (view : EntityId → List Instance) : Prop :=
  ∀ name entity, manager.entityDictionary.find? name = some entity →
    ((view entity).map Instance.getHash).Nodup

/-- What a request sees of a store. -/
def snapshotOf (manager : EntityManager) (view : EntityId → List Instance)
    (store : EntityStore) : Snapshot where
  manager := manager
  members entity := (store.objects entity).members
  view := view
  raises _ := false

/-- A store that is fixed during a request is steady. -/
theorem FixedDuringRequest.steady {depth : ℕ} {manager : EntityManager}
    {view : EntityId → List Instance} {store : EntityStore}
    (hfixed : FixedDuringRequest depth manager view store) :
    (snapshotOf manager view store).Steady depth
      (Relation.ReflTransGen (Enumerates depth manager) store) where
  members hreached entity := by
    induction hreached with
    | refl => rfl
    | @tail before after hprior hlast ih =>
        obtain ⟨name, enumerated, instances, -, hresult⟩ := hlast
        have hregistry := getInstances_registry depth enumerated none before
        rw [hresult] at hregistry
        exact (hregistry entity).1.trans ih
  notAvailable hreached := hfixed.notAvailable _ hreached
  enumerates hreached entity hregistered _ := by
    obtain ⟨name, hname⟩ := hregistered
    obtain ⟨after, hresult⟩ := hfixed.shows _ hreached name entity hname
    exact ⟨after, hresult, hreached.tail ⟨name, entity, _, hname, hresult⟩⟩
  throws _ _ _ hraises := nomatch hraises

/-- Where enumerations settle on views without an exception, a request sees a fixed
store. -/
theorem fixedDuringRequest_of_settled {store : EntityStore} (linkage : Linkage store) {depth : ℕ}
    {manager : EntityManager} {view : EntityId → List Instance}
    (hviews : ∀ name entity, manager.entityDictionary.find? name = some entity →
      linkage.rank entity < depth ∧ linkage.view entity = .ok (view entity)) :
    FixedDuringRequest depth manager view store := by
  have hshows : ∀ reached, linkage.Settled reached → ∀ name entity,
      manager.entityDictionary.find? name = some entity →
      ∃ after, getInstances depth entity none reached = .ok (view entity) after ∧
        linkage.Settled after := by
    intro reached hsettled name entity hname
    obtain ⟨hrank, hview⟩ := hviews name entity hname
    have henumerate := Linkage.getInstances_follows depth hrank hsettled
    rw [hview] at henumerate
    obtain ⟨_, after, hresult, rfl, hafter⟩ := henumerate
    exact ⟨after, hresult, hafter⟩
  have hreached : ∀ reached, Relation.ReflTransGen (Enumerates depth manager) store reached →
      linkage.Settled reached := by
    intro reached hrun
    induction hrun with
    | refl => exact linkage.settled_origin
    | tail hprior hlast ih =>
        obtain ⟨name, entity, instances, hname, hresult⟩ := hlast
        obtain ⟨after, hshown, hafter⟩ := hshows _ ih name entity hname
        rw [hresult] at hshown
        cases hshown
        exact hafter
  constructor
  · intro reached hrun name entity hname
    obtain ⟨after, hresult, -⟩ := hshows reached (hreached reached hrun) name entity hname
    exact ⟨after, hresult⟩
  · exact fun reached hrun => (hreached reached hrun).notAvailable

/-- The fragment of a finished builder is what the objects are arranged to. -/
theorem shape_eq_arrange {instances : List Instance}
    (hnodup : (instances.map Instance.getHash).Nodup)
    (pairs : Instance → List (String × Json)) :
    shape instances pairs =
      arrange (instances.map fun inst => (hashKey inst, .ofMembers (pairs inst))) := by
  cases instances with
  | nil => rfl
  | cons first rest =>
      cases rest with
      | nil => rfl
      | cons second rest =>
          have hkeys : (((first :: second :: rest).map fun inst =>
              (hashKey inst, Json.ofMembers (pairs inst))).map Prod.fst).Nodup := by
            rw [List.map_map]
            have hrepr : (((first :: second :: rest).map Instance.getHash).map Nat.repr).Nodup :=
              hnodup.map fun _ _ => Nat.repr_injective
            rwa [List.map_map] at hrepr
          have hfragment : fragmentOf (first :: second :: rest) pairs =
              .object (((first :: second :: rest).map fun inst =>
                (hashKey inst, Json.ofMembers (pairs inst))).insertionSort
                  fun one other => one.1 ≤ other.1) := by
            rw [← Entries.ofList_eq_insertionSort hkeys, fragmentOf, objects]
            exact congrArg Json.object (Entries.map_keyed Json.object hashKey
              (fun inst => Entries.ofList (pairs inst)) (first :: second :: rest))
          show Json.array (fragmentOf (first :: second :: rest) pairs).elements = _
          rw [hfragment]
          rfl

end Fixed

/-- The verdict of a walk that may meet an error. -/
def Verdict.ofError : Option GqlException → Verdict
  | none => .passes
  | some error => .answered error

theorem Verdict.ofError_or (first second : Option GqlException) :
    Verdict.ofError (first.or second) =
      (Verdict.ofError first).andThen (Verdict.ofError second) := by
  cases first <;> rfl

section Walk

variable {manager : EntityManager} {view : EntityId → List Instance} {store : EntityStore}

mutual

/-- The verdict on a plain field is its first name that does not resolve. -/
theorem verdict_toSelection (enclosing : EntityId) (field : PlainField) :
    (snapshotOf manager view store).verdict (some enclosing) field.toSelection =
      .ofError (unresolved? manager (fun entity => (store.objects entity).members) enclosing
        field) := by
  cases field with
  | scalar name =>
      simp only [PlainField.toSelection, Snapshot.verdict, unresolved?, snapshotOf, Option.getD_none]
      split_ifs <;> rfl
  | object name fields =>
      simp only [PlainField.toSelection, Snapshot.verdict, unresolved?, snapshotOf]
      cases manager.entityDictionary.find? name with
      | none => rfl
      | some entity => exact verdictAll_toSelections entity fields

theorem verdictAll_toSelections (enclosing : EntityId) (fields : List PlainField) :
    (snapshotOf manager view store).verdictAll (some enclosing) (toSelections fields) =
      .ofError (unresolvedAll? manager (fun entity => (store.objects entity).members) enclosing
        fields) := by
  cases fields with
  | nil => rfl
  | cons field fields =>
      rw [toSelections, Snapshot.verdictAll, unresolvedAll?, Verdict.ofError_or,
        verdict_toSelection, verdictAll_toSelections]

end

theorem verdictAll_roots (roots : List (String × List PlainField)) :
    (snapshotOf manager view store).verdictAll none
        (roots.map fun root => .object none root.1 (toSelections root.2)) =
      .ofError (unresolvedRoots? manager (fun entity => (store.objects entity).members)
        roots) := by
  induction roots with
  | nil => rfl
  | cons root roots ih =>
      rw [List.map_cons, Snapshot.verdictAll, unresolvedRoots?, Verdict.ofError_or, ih]
      congr 1
      simp only [Snapshot.verdict, unresolvedObject?, snapshotOf]
      cases manager.entityDictionary.find? root.1 with
      | none => rfl
      | some entity => exact verdictAll_toSelections entity root.2

variable [StdHash]

/-- A field with a selection set contributes its value, once its selection set is known to
contribute what the reference evaluation gives it. -/
theorem contributions_object (hhashes : HashesDiffer manager view) {name : String}
    {entity : EntityId} (hfound : manager.entityDictionary.find? name = some entity)
    {fields : List PlainField}
    (hchildren : ∀ child, (snapshotOf manager view store).contributionsAll (some child)
      (toSelections fields) = membersOf manager view child fields) (inst : Option Instance) :
    (snapshotOf manager view store).contributions inst (.object none name (toSelections fields)) =
      [(name, eval manager view name fields)] := by
  simp only [snapshotOf] at hchildren
  simp only [Snapshot.contributions, snapshotOf, hfound, hchildren, Option.getD_none,
    shape_eq_arrange (hhashes name entity hfound), eval, instancesOf]

mutual

/-- A plain field contributes the member the reference evaluation gives it. -/
theorem contributions_toSelection (hhashes : HashesDiffer manager view) (inst : Instance)
    (enclosing : EntityId) (field : PlainField)
    (hresolved : unresolved? manager (fun entity => (store.objects entity).members) enclosing
      field = none) :
    (snapshotOf manager view store).contributions (some inst) field.toSelection =
      [memberOf manager view inst field] := by
  cases field with
  | scalar name =>
      simp only [PlainField.toSelection, Snapshot.contributions, memberOf, Option.getD_none]
      rfl
  | object name fields =>
      rw [unresolved?] at hresolved
      cases hfound : manager.entityDictionary.find? name with
      | none => simp [hfound] at hresolved
      | some entity =>
          rw [hfound] at hresolved
          have hmember : memberOf manager view inst (.object name fields) =
              (name, eval manager view name fields) := by
            rw [memberOf, eval]
          rw [PlainField.toSelection, hmember]
          exact contributions_object hhashes hfound
            (fun child => contributionsAll_toSelections hhashes child entity fields hresolved) _

theorem contributionsAll_toSelections (hhashes : HashesDiffer manager view) (inst : Instance)
    (enclosing : EntityId) (fields : List PlainField)
    (hresolved : unresolvedAll? manager (fun entity => (store.objects entity).members) enclosing
      fields = none) :
    (snapshotOf manager view store).contributionsAll (some inst) (toSelections fields) =
      membersOf manager view inst fields := by
  cases fields with
  | nil => rfl
  | cons field fields =>
      rw [unresolvedAll?, Option.or_eq_none_iff] at hresolved
      rw [toSelections, Snapshot.contributionsAll, membersOf,
        contributions_toSelection hhashes inst enclosing field hresolved.1,
        contributionsAll_toSelections hhashes inst enclosing fields hresolved.2]
      rfl

end

theorem contributionsAll_roots (hhashes : HashesDiffer manager view)
    (roots : List (String × List PlainField))
    (hresolved : unresolvedRoots? manager (fun entity => (store.objects entity).members)
      roots = none) :
    (snapshotOf manager view store).contributionsAll none
        (roots.map fun root => .object none root.1 (toSelections root.2)) =
      roots.map fun root => (root.1, eval manager view root.1 root.2) := by
  induction roots with
  | nil => rfl
  | cons root roots ih =>
      rw [unresolvedRoots?, Option.or_eq_none_iff, unresolvedObject?] at hresolved
      rw [List.map_cons, List.map_cons, Snapshot.contributionsAll, ih hresolved.2]
      cases hfound : manager.entityDictionary.find? root.1 with
      | none => simp [hfound] at hresolved
      | some entity =>
          rw [hfound] at hresolved
          rw [contributions_object hhashes hfound fun child =>
            contributionsAll_toSelections hhashes child entity root.2 hresolved.1]
          rfl

end Walk

/-- The body `run` pushes for a plain query. -/
def plainBody [StdHash] (manager : EntityManager)
    (members : EntityId → OrderedMap MemberName EntityMember) (view : EntityId → List Instance)
    (roots : List (String × List PlainField)) : Json :=
  match unresolvedRoots? manager members roots with
  | none =>
      .ofMembers [(GraphqlRouter.respFieldData, .ofMembers [(GqlQueryVisitor.visitorName,
        .ofMembers (roots.map fun root => (root.1, eval manager view root.1 root.2)))])]
  | some error => .ofMembers [(GraphqlRouter.respFieldError, error.whatJson)]

/-- The route answers a plain query with its reference evaluation, or with its first name
that does not resolve. -/
theorem run_refines_eval [StdHash] (library : AstLibrary) (depth : ℕ) (manager : EntityManager)
    (view : EntityId → List Instance) (state : GraphqlRouter.Answering)
    (hfixed : FixedDuringRequest depth manager view state.store)
    (hhashes : HashesDiffer manager view) (roots : List (String × List PlainField)) :
    ∃ store, GraphqlRouter.run library depth manager (some (plainDocument roots)) state =
      .ok ⟨⟩ ⟨store, (state.response.push (plainBody manager
        (fun entity => (state.store.objects entity).members) view roots)).setStatus .ok⟩ := by
  have hrun := Snapshot.run_spec hfixed.steady library (some (plainDocument roots))
    (Relation.ReflTransGen.refl : Relation.ReflTransGen (Enumerates depth manager) state.store
      state.store)
  have hverdict : (snapshotOf manager view state.store).verdictDocument
      (some (plainDocument roots)) = .ofError (unresolvedRoots? manager
        (fun entity => (state.store.objects entity).members) roots) := by
    rw [← verdictAll_roots]
    exact Verdict.andThen_passes _
  rw [hverdict] at hrun
  unfold plainBody
  cases hresolved : unresolvedRoots? manager
    (fun entity => (state.store.objects entity).members) roots with
  | some error =>
      rw [hresolved] at hrun
      exact hrun
  | none =>
      rw [hresolved] at hrun
      have hdata : (snapshotOf manager view state.store).data (plainDocument roots) =
          .object [(GqlQueryVisitor.visitorName,
            .ofMembers (roots.map fun root => (root.1, eval manager view root.1 root.2)))] := by
        rw [← contributionsAll_roots hhashes roots hresolved]
        rfl
      simp only [Verdict.ofError, Option.getD_some, hdata] at hrun
      exact hrun

section Sample

/-- A board that was read with a name. -/
def leftBoard : DBusInstance where
  toInstance := (Instance.create "svc" "/left" boardQuery).supplementOrUpdate "Name"
    (.string "left")
  complexInstances := OrderedMap.empty

/-- A board that was read without one. -/
def rightmostBoard : DBusInstance where
  toInstance := Instance.create "svc" "/rightmost" boardQuery
  complexInstances := OrderedMap.empty

def boardStore : EntityStore :=
  showingBoards ((OrderedMap.empty.insertOrAssign 3 leftBoard).insertOrAssign 12 rightmostBoard)

def boardManager : EntityManager where
  entityDictionary := OrderedMap.ofList [("Board", 0)]
  supplementProviders := OrderedMap.empty

/-- The order of the keys is that of their decimal strings. -/
theorem run_refines_eval_boards :
    let _ : StdHash := ⟨64, fun text => BitVec.ofNat 64 text.utf8ByteSize⟩
    ∃ store, GraphqlRouter.run .depthFirst 1 boardManager
        (some (plainDocument [("Board", [.scalar "Name"])])) ⟨boardStore, {}⟩ =
      .ok ⟨⟩ ⟨store, {
        status := .ok
        body := [.object [("data", .object [("query", .object [("Board", .array
          [.object [("Name", .string "N/A")], .object [("Name", .string "left")]])])])]] }⟩ := by
  intro _
  let view : EntityId → List Instance := fun _ =>
    [leftBoard.toInstance, rightmostBoard.toInstance]
  have hfixed : FixedDuringRequest 1 boardManager view boardStore :=
    fixedDuringRequest_of_settled (.unlinked rfl fun _ => rfl) fun name entity _ =>
      ⟨Nat.one_pos, viewOf_unlinked _ rfl⟩
  have hhashes : HashesDiffer boardManager view := fun name entity _ => by
    show ([leftBoard.toInstance, rightmostBoard.toInstance].map Instance.getHash).Nodup
    decide
  have hrun := run_refines_eval .depthFirst 1 boardManager view ⟨boardStore, {}⟩ hfixed hhashes
    [("Board", [.scalar "Name"])]
  have hresolved : unresolvedRoots? boardManager (fun entity => (boardStore.objects entity).members)
      [("Board", [.scalar "Name"])] = none := by decide
  have hleft : leftBoard.memberInstances.find? "Name" = some (.string "left") := by decide
  have hright : rightmostBoard.memberInstances.find? "Name" = none := by decide
  have hleftKey : hashKey leftBoard.toInstance = "3" := by decide
  have hrightKey : hashKey rightmostBoard.toInstance = "12" := by decide
  have hfound : boardManager.entityDictionary.find? "Board" = some 0 := by decide
  have heval : eval boardManager view "Board" [.scalar "Name"] =
      .array [.object [("Name", .string "N/A")], .object [("Name", .string "left")]] := by
    simp only [eval, instancesOf, hfound, view, List.map_cons, List.map_nil, hleftKey, hrightKey,
      membersOf, memberOf, hleft, hright]
    rfl
  rw [plainBody, hresolved] at hrun
  simp only [List.map_cons, List.map_nil, heval] at hrun
  exact hrun

end Sample

end ObmcWebapp.Graphql
