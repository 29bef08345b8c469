/-
# Aliased scalar fields

A scalar field gives the builder one name, its alias where it has one. The builder looks
the member up under this name, and answers under it. So the alias, not the name of the
field, decides whether the field is let pass and which value it gets.

The data of a passing document are followed along response paths. Of several fields with one
response name the first is answered, in the last operation, so a path leads to the objects
of one selection set. An alias may be selected at the path in another one, which is left
out of the answer.
-/

import ObmcWebapp.Graphql.Delivery

namespace ObmcWebapp.Graphql

open ObmcWebapp.Core ObmcWebapp.Entities
open Delivery (AnswersData pushed_inj respField_ne)

mutual

theorem exists_responseName_of_mem_fields {selection field : Selection}
    (hmem : field ∈ selection.fields) : ∃ name, field.responseName? = some name := by
  cases selection with
  | field fieldAlias name =>
      rw [Selection.fields, List.mem_singleton] at hmem
      exact ⟨_, by rw [hmem]; rfl⟩
  | object fieldAlias name selectionSet =>
      rw [Selection.fields, List.mem_singleton] at hmem
      exact ⟨_, by rw [hmem]; rfl⟩
  | fragmentSpread name =>
      rw [Selection.fields] at hmem
      cases hmem
  | inlineFragment selectionSet =>
      rw [Selection.fields] at hmem
      exact exists_responseName_of_mem_fieldsOf hmem

/-- Every field has a response name. -/
theorem exists_responseName_of_mem_fieldsOf {selections : List Selection} {field : Selection}
    (hmem : field ∈ fieldsOf selections) : ∃ name, field.responseName? = some name := by
  cases selections with
  | nil =>
      rw [fieldsOf] at hmem
      cases hmem
  | cons selection selections =>
      rw [fieldsOf, List.mem_append] at hmem
      rcases hmem with hfirst | hrest
      · exact exists_responseName_of_mem_fields hfirst
      · exact exists_responseName_of_mem_fieldsOf hrest

end

mutual

theorem visits_subset_of_mem_fields (manager : EntityManager) (enclosing : Option EntityId)
    {selection field : Selection} (hmem : field ∈ selection.fields) :
    field.visits manager enclosing ⊆ selection.visits manager enclosing := by
  cases selection with
  | field fieldAlias name =>
      rw [Selection.fields, List.mem_singleton] at hmem
      rw [hmem]
      exact List.Subset.refl _
  | object fieldAlias name selectionSet =>
      rw [Selection.fields, List.mem_singleton] at hmem
      rw [hmem]
      exact List.Subset.refl _
  | fragmentSpread name =>
      rw [Selection.fields] at hmem
      cases hmem
  | inlineFragment selectionSet =>
      rw [Selection.fields] at hmem
      rw [Selection.visits]
      exact visits_subset_of_mem_fieldsOf manager enclosing hmem

/-- The visits of a field are among those of its selection set. -/
theorem visits_subset_of_mem_fieldsOf (manager : EntityManager) (enclosing : Option EntityId)
    {selections : List Selection} {field : Selection} (hmem : field ∈ fieldsOf selections) :
    field.visits manager enclosing ⊆ visitsAll manager enclosing selections := by
  cases selections with
  | nil =>
      rw [fieldsOf] at hmem
      cases hmem
  | cons selection selections =>
      rw [fieldsOf, List.mem_append] at hmem
      rw [visitsAll]
      rcases hmem with hfirst | hrest
      · exact List.subset_append_of_subset_left _
          (visits_subset_of_mem_fields manager enclosing hfirst)
      · exact List.subset_append_of_subset_right _
          (visits_subset_of_mem_fieldsOf manager enclosing hrest)

end

section Contributions

variable [StdHash] (snapshot : Snapshot)

mutual

theorem contributions_eq_flatMap (inst : Option Instance) (selection : Selection) :
    snapshot.contributions inst selection =
      selection.fields.flatMap (snapshot.contributions inst) := by
  cases selection with
  | field fieldAlias name => rw [Selection.fields, List.flatMap_singleton]
  | object fieldAlias name selectionSet => rw [Selection.fields, List.flatMap_singleton]
  | fragmentSpread name => rw [Selection.fields, Snapshot.contributions, List.flatMap_nil]
  | inlineFragment selectionSet =>
      rw [Selection.fields, Snapshot.contributions]
      exact contributionsAll_eq_flatMap inst selectionSet

/-- A selection set contributes what its fields contribute. -/
theorem contributionsAll_eq_flatMap (inst : Option Instance) (selections : List Selection) :
    snapshot.contributionsAll inst selections =
      (fieldsOf selections).flatMap (snapshot.contributions inst) := by
  cases selections with
  | nil => rw [fieldsOf, Snapshot.contributionsAll, List.flatMap_nil]
  | cons selection selections =>
      rw [fieldsOf, Snapshot.contributionsAll, List.flatMap_append, contributions_eq_flatMap,
        contributionsAll_eq_flatMap]

end

/-- The value a field has in the object of an instance, or of the operation itself. -/
def valueOf (inst : Option Instance) : Selection → Option Json
  | .field fieldAlias name => inst.map fun inst => fieldValue inst (fieldAlias.getD name)
  | .object _ name selectionSet =>
      (snapshot.manager.entityDictionary.find? name).map fun entity =>
        shape (snapshot.view entity) fun child =>
          snapshot.contributionsAll (some child) selectionSet
  | _ => none

variable {snapshot}

/-- A passing field contributes its value under its response name. -/
theorem contributions_of_passes {inst : Option Instance} {enclosing : Option EntityId}
    (hinst : inst.isSome = enclosing.isSome) {field : Selection} {name : String}
    (hname : field.responseName? = some name)
    (hpasses : snapshot.Passes (field.visits snapshot.manager enclosing)) :
    ∃ value, valueOf snapshot inst field = some value ∧
      snapshot.contributions inst field = [(name, value)] := by
  cases field with
  | field fieldAlias scalar =>
      cases hname
      rw [Selection.visits] at hpasses
      obtain ⟨-, hsafe⟩ := hpasses _ (List.mem_singleton_self _)
      cases enclosing with
      | none => exact absurd trivial hsafe
      | some entity =>
          obtain ⟨found, rfl⟩ := Option.isSome_iff_exists.mp hinst
          exact ⟨_, rfl, by rw [Snapshot.contributions]⟩
  | object fieldAlias target selectionSet =>
      cases hname
      rw [Selection.visits] at hpasses
      obtain ⟨hknown, -⟩ := hpasses _ List.mem_cons_self
      obtain ⟨entity, hfound⟩ := Option.ne_none_iff_exists'.mp hknown
      refine ⟨_, by rw [valueOf, hfound]; rfl, ?_⟩
      simp only [Snapshot.contributions, hfound]
  | fragmentSpread target => cases hname
  | inlineFragment selectionSet => cases hname

/-- The first field of a response name has the member of this name. -/
theorem lookup_contributionsAll {inst : Option Instance} {enclosing : Option EntityId}
    (hinst : inst.isSome = enclosing.isSome) {selections : List Selection}
    (hpasses : snapshot.Passes (visitsAll snapshot.manager enclosing selections))
    (wanted : String) :
    (snapshot.contributionsAll inst selections).lookup wanted =
      (firstNamed wanted (fieldsOf selections)).bind (valueOf snapshot inst) := by
  rw [contributionsAll_eq_flatMap]
  have hfields : ∀ field ∈ fieldsOf selections, ∃ name value,
      field.responseName? = some name ∧ valueOf snapshot inst field = some value ∧
        snapshot.contributions inst field = [(name, value)] := by
    intro field hmem
    obtain ⟨name, hname⟩ := exists_responseName_of_mem_fieldsOf hmem
    obtain ⟨value, hvalue, hpair⟩ := contributions_of_passes hinst hname fun visit hvisit =>
      hpasses visit (visits_subset_of_mem_fieldsOf snapshot.manager enclosing hmem hvisit)
    exact ⟨name, value, hname, hvalue, hpair⟩
  generalize fieldsOf selections = fields at hfields
  induction fields with
  | nil => rfl
  | cons field fields ih =>
      obtain ⟨name, value, hname, hvalue, hpair⟩ := hfields field List.mem_cons_self
      have hrest := ih fun field hmem => hfields field (List.mem_cons_of_mem _ hmem)
      rw [List.flatMap_cons, hpair, List.singleton_append, Entries.lookup_cons, hrest,
        firstNamed_cons, hname]
      by_cases hwanted : wanted = name
      · rw [if_pos hwanted, if_pos (by rw [hwanted]), Option.bind_some, hvalue]
      · rw [if_neg hwanted, if_neg fun heq => hwanted (Option.some.inj heq).symm]

end Contributions

section Shape

variable [StdHash] {view : List Instance} {pairs other : Instance → List (String × Json)}

/-- The instance has an object: it is the first one of its hash. -/
def Counts (view : List Instance) (inst : Instance) : Prop :=
  view.find? (fun other => decide (hashKey other = hashKey inst)) = some inst

/-- The elements of a fragment are the objects of the instances that count. -/
theorem elements_fragmentOf (view : List Instance) (pairs : Instance → List (String × Json)) :
    (fragmentOf view pairs).elements =
      (Entries.keyed hashKey id view).map fun entry => .ofMembers (pairs entry.2) := by
  have hkeyed := Entries.map_keyed (fun inst => Entries.ofList (pairs inst)) hashKey id view
  have hfragment : fragmentOf view pairs = objects ((Entries.keyed hashKey id view).map
      fun entry => (entry.1, Entries.ofList (pairs entry.2))) := congrArg objects hkeyed.symm
  rw [hfragment, objects, Json.elements, List.map_map, List.map_map]
  rfl

theorem mem_keyed_of_counts {inst : Instance} (hcounts : Counts view inst) :
    (hashKey inst, inst) ∈ Entries.keyed hashKey id view := by
  rw [Entries.mem_iff_lookup (Entries.sorted_keyed _ _ _), Entries.lookup_keyed]
  exact congrArg (Option.map id) hcounts

/-- Each element of a finished fragment is the object of an instance. -/
theorem listed_shape (hview : view ≠ []) (pairs : Instance → List (String × Json)) :
    listed (shape view pairs) ≠ [] ∧
      ∀ item ∈ listed (shape view pairs), ∃ inst, item = .ofMembers (pairs inst) := by
  cases view with
  | nil => exact absurd rfl hview
  | cons first rest =>
      cases rest with
      | nil =>
          refine ⟨List.cons_ne_nil _ _, fun item hmem => ⟨first, ?_⟩⟩
          exact List.mem_singleton.mp hmem
      | cons second rest =>
          show (fragmentOf (first :: second :: rest) pairs).elements ≠ [] ∧
            ∀ item ∈ (fragmentOf (first :: second :: rest) pairs).elements, _
          rw [elements_fragmentOf]
          constructor
          · have hcounts : Counts (first :: second :: rest) first :=
              List.find?_cons_of_pos (by simp)
            have hfirst := mem_keyed_of_counts hcounts
            intro hempty
            rw [List.map_eq_nil_iff.mp hempty] at hfirst
            cases hfirst
          · intro item hmem
            obtain ⟨entry, -, rfl⟩ := List.mem_map.mp hmem
            exact ⟨entry.2, rfl⟩

/-- A finished fragment determines the members of every object. -/
theorem lookup_eq_of_shape_eq (hshape : shape view pairs = shape view other) {inst : Instance}
    (hcounts : Counts view inst) (wanted : String) :
    (pairs inst).lookup wanted = (other inst).lookup wanted := by
  have hsame : Json.ofMembers (pairs inst) = .ofMembers (other inst) := by
    cases view with
    | nil => cases hcounts
    | cons first rest =>
        cases rest with
        | nil =>
            have hfirst : inst = first :=
              List.mem_singleton.mp (List.mem_of_find?_eq_some hcounts)
            rw [hfirst]
            exact hshape
        | cons second rest =>
            have hlists := Json.array.inj hshape
            rw [elements_fragmentOf, elements_fragmentOf, List.map_inj_left] at hlists
            exact hlists _ (mem_keyed_of_counts hcounts)
  rw [← Entries.lookup_ofList, ← Entries.lookup_ofList wanted (other inst), Json.object.inj hsame]

end Shape

section Reaching

variable (snapshot : Snapshot) (entity : EntityId) (selectionSet : List Selection)

/-- The path is answered with a selection set of the entity: the first fields of its names
lead there, through entities that have instances. -/
inductive Reaches : List Selection → List String → Prop
  | here {selections : List Selection} {fieldAlias : Option String} {name target : String}
      (hfirst : firstNamed name (fieldsOf selections) =
        some (.object fieldAlias target selectionSet))
      (hfound : snapshot.manager.entityDictionary.find? target = some entity) :
      Reaches selections [name]
  | nested {selections inner : List Selection} {fieldAlias : Option String} {name target : String}
      {path : List String} {middle : EntityId}
      (hfirst : firstNamed name (fieldsOf selections) = some (.object fieldAlias target inner))
      (hfound : snapshot.manager.entityDictionary.find? target = some middle)
      (hview : snapshot.view middle ≠ []) (hrest : Reaches inner path) :
      Reaches selections (name :: path)

variable {snapshot entity selectionSet}

theorem Reaches.ne_nil {selections : List Selection} {path : List String}
    (hreaches : Reaches snapshot entity selectionSet selections path) : path ≠ [] := by
  cases hreaches <;> exact List.cons_ne_nil _ _

/-- The visits of the selection set of a field. -/
theorem passes_below {selections inner : List Selection} {enclosing : Option EntityId}
    {fieldAlias : Option String} {name target : String} {middle : EntityId}
    (hpasses : snapshot.Passes (visitsAll snapshot.manager enclosing selections))
    (hfirst : firstNamed name (fieldsOf selections) = some (.object fieldAlias target inner))
    (hfound : snapshot.manager.entityDictionary.find? target = some middle) :
    snapshot.Passes (visitsAll snapshot.manager (some middle) inner) := by
  intro visit hvisit
  apply hpasses
  apply visits_subset_of_mem_fieldsOf snapshot.manager enclosing
    (List.mem_of_find?_eq_some hfirst)
  rw [Selection.visits, hfound]
  exact List.mem_cons_of_mem _ hvisit

/-- Where a path reaches a selection set stand the objects of its entity. -/
theorem valuesAt_of_reaches [StdHash] {selections : List Selection} {path : List String}
    (hreaches : Reaches snapshot entity selectionSet selections path)
    {enclosing : Option EntityId} {inst : Option Instance}
    (hinst : inst.isSome = enclosing.isSome)
    (hpasses : snapshot.Passes (visitsAll snapshot.manager enclosing selections)) :
    valuesAt path (.ofMembers (snapshot.contributionsAll inst selections)) ≠ [] ∧
      ∀ json ∈ valuesAt path (.ofMembers (snapshot.contributionsAll inst selections)),
        json = shape (snapshot.view entity) fun child =>
          snapshot.contributionsAll (some child) selectionSet := by
  induction hreaches generalizing enclosing inst with
  | @here selections fieldAlias name target hfirst hfound =>
      rw [valuesAt_cons, lookup_contributionsAll hinst hpasses, hfirst, Option.bind_some, valueOf,
        hfound]
      exact ⟨List.cons_ne_nil _ _, fun json hmem => List.mem_singleton.mp hmem⟩
  | @nested selections inner fieldAlias name target path middle hfirst hfound hview hrest ih =>
      have hinner := passes_below hpasses hfirst hfound
      obtain ⟨hsome, hitems⟩ := listed_shape hview fun child =>
        snapshot.contributionsAll (some child) inner
      have hobjects : ∀ item ∈ listed (shape (snapshot.view middle) fun child =>
          snapshot.contributionsAll (some child) inner), listed item = [item] := by
        intro item hmem
        obtain ⟨child, rfl⟩ := hitems item hmem
        rfl
      rw [valuesAt_cons, lookup_contributionsAll hinst hpasses, hfirst, Option.bind_some, valueOf,
        hfound, Option.map_some, Option.map_some, Option.getD_some,
        valuesAt_listed hrest.ne_nil hobjects]
      have hchild : ∀ item ∈ listed (shape (snapshot.view middle) fun child =>
          snapshot.contributionsAll (some child) inner), valuesAt path item ≠ [] ∧
            ∀ json ∈ valuesAt path item, json = shape (snapshot.view entity) fun child =>
              snapshot.contributionsAll (some child) selectionSet := by
        intro item hmem
        obtain ⟨child, rfl⟩ := hitems item hmem
        exact @ih (some middle) (some child) rfl hinner
      constructor
      · obtain ⟨item, hmem⟩ := List.exists_mem_of_ne_nil _ hsome
        intro hempty
        exact (hchild item hmem).1 (List.flatMap_eq_nil_iff.mp hempty item hmem)
      · intro json hjson
        obtain ⟨item, hmem, hvalue⟩ := List.mem_flatMap.mp hjson
        exact (hchild item hmem).2 json hvalue

theorem passes_of_reaches {selections : List Selection} {path : List String}
    (hreaches : Reaches snapshot entity selectionSet selections path)
    {enclosing : Option EntityId}
    (hpasses : snapshot.Passes (visitsAll snapshot.manager enclosing selections)) :
    snapshot.Passes (visitsAll snapshot.manager (some entity) selectionSet) := by
  induction hreaches generalizing enclosing with
  | here hfirst hfound => exact passes_below hpasses hfirst hfound
  | nested hfirst hfound hview hrest ih => exact ih (passes_below hpasses hfirst hfound)

end Reaching

/-! ## Aliased fields of a document -/

namespace Aliases

/-- The field stands in a selection set, also through the given fragments. -/
inductive StandsIn (fragments : Document) (field : Selection) : List Selection → Prop
  | here {selections : List Selection} (hmem : field ∈ selections) :
      StandsIn fragments field selections
  | inlineFragment {selections inner : List Selection} (hmem : .inlineFragment inner ∈ selections)
      (hrest : StandsIn fragments field inner) : StandsIn fragments field selections
  | fragmentSpread {selections inner : List Selection} {name : String}
      (hmem : .fragmentSpread name ∈ selections) (hfragment : .fragment name inner ∈ fragments)
      (hrest : StandsIn fragments field inner) : StandsIn fragments field selections

/-- A field of the entity is selected under an alias where a response path leads. Any field
with a selection set and this response name leads on, not only the first. -/
inductive SelectedAlong (manager : EntityManager) (fragments : Document) (entity : EntityId)
    (fieldAlias name : String) : List Selection → List String → Prop
  | here {selections selectionSet : List Selection} {targetAlias : Option String}
      {target : String} (hstands : StandsIn fragments (.object targetAlias target selectionSet)
        selections)
      (hfound : manager.entityDictionary.find? target = some entity)
      (hfield : StandsIn fragments (.field (some fieldAlias) name) selectionSet) :
      SelectedAlong manager fragments entity fieldAlias name selections [targetAlias.getD target]
  | nested {selections inner : List Selection} {targetAlias : Option String} {target : String}
      {path : List String}
      (hstands : StandsIn fragments (.object targetAlias target inner) selections)
      (hrest : SelectedAlong manager fragments entity fieldAlias name inner path) :
      SelectedAlong manager fragments entity fieldAlias name selections
        (targetAlias.getD target :: path)

/-- Some operation selects the field of the entity under the alias at the path, also through
the fragments of the document. -/
def SelectedAt (manager : EntityManager) (document : Document) (entity : EntityId)
    (fieldAlias name : String) (path : List String) : Prop :=
  ∃ definition ∈ operations document,
    SelectedAlong manager document entity fieldAlias name definition.selectionSet path

/-- The walk comes to a field in a selection set of the entity after these visits. -/
inductive ComesTo (manager : EntityManager) (entity : EntityId) (field : Selection) :
    Option EntityId → List Selection → List Visit → Prop
  | here (before after : List Selection) :
      ComesTo manager entity field (some entity) (before ++ field :: after)
        (visitsAll manager (some entity) before)
  | object (before after : List Selection) {enclosing : Option EntityId}
      {fieldAlias : Option String} {name : String} {selectionSet : List Selection}
      {visits : List Visit}
      (hrest : ComesTo manager entity field (manager.entityDictionary.find? name) selectionSet
        visits) :
      ComesTo manager entity field enclosing
        (before ++ .object fieldAlias name selectionSet :: after)
        (visitsAll manager enclosing before ++ .object name :: visits)
  | inlineFragment (before after : List Selection) {enclosing : Option EntityId}
      {selectionSet : List Selection} {visits : List Visit}
      (hrest : ComesTo manager entity field enclosing selectionSet visits) :
      ComesTo manager entity field enclosing (before ++ .inlineFragment selectionSet :: after)
        (visitsAll manager enclosing before ++ visits)

/-- The walk of the document meets the field: all it visits before is let pass. -/
def Met (snapshot : Snapshot) (document : Document) (entity : EntityId)
    (fieldAlias name : String) : Prop :=
  ∃ before definition after visits, document = before ++ .operation definition :: after ∧
    ComesTo snapshot.manager entity (.field (some fieldAlias) name) none definition.selectionSet
      visits ∧
    snapshot.Passes (documentVisits snapshot.manager before ++
      (.operation definition.operation :: definition.variableDefinitions.map .variableDefinition) ++
        visits)

/-- The entity of a selection set is registered, unless the walk starts in it. -/
theorem ComesTo.registered {manager : EntityManager} {entity : EntityId} {field : Selection}
    {enclosing : Option EntityId} {selections : List Selection} {visits : List Visit}
    (hcomes : ComesTo manager entity field enclosing selections visits) :
    enclosing = some entity ∨ ∃ name, manager.entityDictionary.find? name = some entity := by
  induction hcomes with
  | here before after => exact .inl rfl
  | object before after hrest ih => exact .inr (ih.elim (fun hfound => ⟨_, hfound⟩) id)
  | inlineFragment before after hrest ih => exact ih

theorem Met.registered {snapshot : Snapshot} {document : Document} {entity : EntityId}
    {fieldAlias name : String} (hmet : Met snapshot document entity fieldAlias name) :
    snapshot.Registered entity := by
  obtain ⟨before, definition, after, visits, -, hcomes, -⟩ := hmet
  exact hcomes.registered.resolve_left (by simp)

section Requests

variable [StdHash]

/-- The query visitor refuses a field in a selection set of the entity. -/
def Refuses (depth : ℕ) (manager : EntityManager) (entity : EntityId) (field : Field)
    (store : EntityStore) : Prop :=
  ∃ (builder : GqlObjectBuild) (parents : List GqlObjectBuild) (members : List (String × Json))
    (error : GqlException) (after : QueryState),
    builder.entityObject = some entity ∧ builder.fragment = .object members ∧
      GqlQueryVisitor.visitField depth manager field ⟨store, builder :: parents⟩ =
        .error (.raised (.gql error)) after

/-- The value under the alias in the object of every instance is that of the member. -/
def Holds (view : List Instance) (fieldAlias name : String) (json : Json) : Prop :=
  ∃ pairs, json = shape view pairs ∧
    ∀ inst, Counts view inst → (pairs inst).lookup fieldAlias = some (fieldValue inst name)

/-- The request answers with an error. -/
def AnswersError (response after : Response) : Prop :=
  ∃ error : GqlException,
    after.body = response.body ++ [.object [(GraphqlRouter.respFieldError, error.whatJson)]]

section Steady

variable {snapshot : Snapshot} {depth : ℕ} {kind : EntityStore → Prop}
  (hsteady : snapshot.Steady depth kind)

include hsteady

/-- A scalar field whose name is a member fails for no GraphQL error. -/
theorem supplement_error_of_known {store : EntityStore} (hstore : kind store) {entity : EntityId}
    (hregistered : snapshot.Registered entity) {fieldName : String} {member : EntityMember}
    (hmember : (snapshot.members entity).find? fieldName = some member)
    {builder : GqlObjectBuild} {members : List (String × Json)}
    (hentity : builder.entityObject = some entity) (hfragment : builder.fragment = .object members)
    {failure : Failure} {after : Building}
    (hfailed : GqlObjectBuild.supplement depth fieldName ⟨store, builder⟩ =
      .error failure after) (error : GqlException) : failure ≠ .raised (.gql error) := by
  have hfound : (store.objects entity).getMember fieldName = .ok member := by
    rw [Entity.getMember, hsteady.members hstore, hmember]
  simp only [GqlObjectBuild.supplement, hfragment, hentity] at hfailed
  obtain ⟨original, horiginal, rfl⟩ := Fallible.of_mapError_error hfailed
  simp only [hfound] at horiginal
  cases hraises : snapshot.raises entity with
  | true =>
      obtain ⟨failure, next, hthrows, huncaught⟩ :=
        hsteady.throws hstore entity hregistered hraises
      have hzoom : Fallible.zoom Building.store (fun store state => { state with store := store })
          (getInstances depth entity none) ⟨store, builder⟩ =
            .error failure ⟨next, builder⟩ := Fallible.zoom_error hthrows
      rw [Fallible.bind_error hzoom] at horiginal
      cases horiginal
      cases huncaught <;> simp [GqlObjectBuild.supplementFailure]
  | false =>
      obtain ⟨next, henumerates, -⟩ := hsteady.enumerates hstore entity hregistered hraises
      have hzoom : Fallible.zoom Building.store (fun store state => { state with store := store })
          (getInstances depth entity none) ⟨store, builder⟩ =
            .ok (snapshot.view entity) ⟨next, builder⟩ := Fallible.zoom_ok henumerates
      rw [Fallible.bind_ok hzoom] at horiginal
      have hvalues : Fallible.FailsAs (fun failure => ∃ what, failure = .raised (.jsonType what))
          (Fallible.forEach (GqlObjectBuild.supplementValue fieldName member)
            (snapshot.view entity)) := by
        apply Fallible.forEach_failsAs
        intro inst _ state failure last hvalue
        simp only [GqlObjectBuild.supplementValue] at hvalue
        split at hvalue
        · cases hvalue
        · cases hvalue
          exact ⟨_, rfl⟩
      obtain ⟨what, rfl⟩ := hvalues _ _ _ horiginal
      simp [GqlObjectBuild.supplementFailure]

/-- A scalar field is refused by the name it is answered under. -/
theorem refuses_iff {store : EntityStore} (hstore : kind store) {entity : EntityId}
    (hregistered : snapshot.Registered entity) (fieldAlias name : String) :
    Refuses depth snapshot.manager entity ⟨some fieldAlias, name, false⟩ store ↔
      (snapshot.members entity).contains fieldAlias = false := by
  cases hmember : (snapshot.members entity).find? fieldAlias with
  | some member =>
      apply iff_of_false
      · rintro ⟨builder, parents, members, error, after, hentity, hfragment, hvisit⟩
        simp only [GqlQueryVisitor.visitField, Option.getD_some] at hvisit
        cases hsupplement : GqlObjectBuild.supplement depth fieldAlias ⟨store, builder⟩ with
        | ok value building =>
            rw [hsupplement] at hvisit
            cases hvisit
        | error failure building =>
            rw [hsupplement] at hvisit
            cases hvisit
            exact supplement_error_of_known hsteady hstore hregistered hmember hentity hfragment
              hsupplement error rfl
      · simp [OrderedMap.contains, hmember]
  | none =>
      refine iff_of_true ?_ (by rw [OrderedMap.contains, hmember, Option.isSome_none])
      have hmissing : (store.objects entity).getMember fieldAlias =
          .error (.entity ("The object Member <" ++ fieldAlias ++ "> not found")) := by
        rw [Entity.getMember, hsteady.members hstore, hmember]
      let builder : GqlObjectBuild :=
        { name := "", entityObject := some entity, fragment := .emptyObject }
      refine ⟨builder, [], [], .invalidArgument fieldAlias "Field not found", ⟨store, [builder]⟩,
        rfl, rfl, ?_⟩
      simp only [GqlQueryVisitor.visitField, GqlObjectBuild.supplement, builder, Json.emptyObject,
        hmissing, Option.getD_some]
      rfl

/-- Data are answered exactly to a document that passes. -/
theorem run_answersData_iff (library : AstLibrary) (document : Document)
    {state : GraphqlRouter.Answering} (hstore : kind state.store) (data : Json) :
    (∃ after, GraphqlRouter.run library depth snapshot.manager (some document) state =
        .ok ⟨⟩ after ∧ AnswersData state.response after.response data) ↔
      snapshot.Passes (documentVisits snapshot.manager document) ∧
        data = snapshot.data document := by
  have hrun := Snapshot.run_spec hsteady library (some document) hstore
  rw [Snapshot.verdictDocument, Snapshot.verdictDefinitions_eq_judgeAll] at hrun
  rw [← Snapshot.judgeAll_eq_passes_iff]
  cases hverdict : snapshot.judgeAll (documentVisits snapshot.manager document) with
  | passes =>
      rw [hverdict] at hrun
      obtain ⟨store, hresult⟩ := hrun
      constructor
      · rintro ⟨after, hanswer, hdata⟩
        rw [hresult] at hanswer
        cases hanswer
        exact ⟨rfl, (pushed_inj hdata).2.symm⟩
      · rintro ⟨-, rfl⟩
        exact ⟨_, hresult, rfl⟩
  | answered error =>
      rw [hverdict] at hrun
      obtain ⟨store, hresult⟩ := hrun
      apply iff_of_false
      · rintro ⟨after, hanswer, hdata⟩
        rw [hresult] at hanswer
        cases hanswer
        exact respField_ne (pushed_inj hdata).1.symm
      · simp
  | fails =>
      rw [hverdict] at hrun
      obtain ⟨failure, after, hresult⟩ := hrun
      apply iff_of_false
      · rintro ⟨last, hanswer, -⟩
        rw [hresult] at hanswer
        cases hanswer
      · simp

/-- An error is answered exactly when a construct is refused before every hazardous one. -/
theorem run_answersError_iff (library : AstLibrary) (document : Document)
    {state : GraphqlRouter.Answering} (hstore : kind state.store) :
    (∃ after, GraphqlRouter.run library depth snapshot.manager (some document) state =
        .ok ⟨⟩ after ∧ AnswersError state.response after.response) ↔
      snapshot.RefusedFirst (documentVisits snapshot.manager document) ∧
        ∃ visit ∈ documentVisits snapshot.manager document, snapshot.Refused visit := by
  have hrun := Snapshot.run_spec hsteady library (some document) hstore
  rw [Snapshot.verdictDocument, Snapshot.verdictDefinitions_eq_judgeAll] at hrun
  rw [← Snapshot.judgeAll_ne_fails_iff]
  have hpasses := snapshot.judgeAll_eq_passes_iff (documentVisits snapshot.manager document)
  cases hverdict : snapshot.judgeAll (documentVisits snapshot.manager document) with
  | passes =>
      rw [hverdict] at hrun
      obtain ⟨store, hresult⟩ := hrun
      apply iff_of_false
      · rintro ⟨after, hanswer, error, herror⟩
        rw [hresult] at hanswer
        cases hanswer
        exact respField_ne (pushed_inj herror).1
      · rintro ⟨-, visit, hvisit, hrefused⟩
        exact (hpasses.mp hverdict visit hvisit).1 hrefused
  | answered error =>
      rw [hverdict] at hrun
      obtain ⟨store, hresult⟩ := hrun
      exact iff_of_true ⟨_, hresult, error, rfl⟩
        ⟨by simp, snapshot.exists_refused_of_judgeAll hverdict⟩
  | fails =>
      rw [hverdict] at hrun
      obtain ⟨failure, after, hresult⟩ := hrun
      apply iff_of_false
      · rintro ⟨last, hanswer, -⟩
        rw [hresult] at hanswer
        cases hanswer
      · simp

omit hsteady in
/-- The data of a document are the object of its last operation. -/
theorem data_eq {document : Document} {last : OperationDefinition}
    (hlast : (operations document).getLast? = some last) :
    snapshot.data document =
      .ofMembers [(GqlQueryVisitor.visitorName, snapshot.queryObject last)] := by
  induction document using List.reverseRecOn with
  | nil => cases hlast
  | append_singleton document definition ih =>
      rw [operations, List.filterMap_append] at hlast
      rw [Snapshot.data, List.foldl_append]
      cases definition with
      | fragment name selectionSet =>
          change (operations document ++ []).getLast? = some last at hlast
          rw [List.append_nil] at hlast
          exact ih hlast
      | operation definition =>
          change (operations document ++ [definition]).getLast? = some last at hlast
          rw [List.getLast?_concat] at hlast
          cases hlast
          rfl

omit hsteady [StdHash] in
theorem mem_of_mem_operations {document : Document} {definition : OperationDefinition}
    (hmem : definition ∈ operations document) : .operation definition ∈ document := by
  obtain ⟨found, hfound, hdefinition⟩ := List.mem_filterMap.mp hmem
  cases found with
  | operation found =>
      cases hdefinition
      exact hfound
  | fragment name selectionSet => cases hdefinition

omit hsteady [StdHash] in
/-- The visits of the selection set of an operation. -/
theorem passes_operation {document : Document} {definition : OperationDefinition}
    (hmem : definition ∈ operations document)
    (hpasses : snapshot.Passes (documentVisits snapshot.manager document)) :
    snapshot.Passes (visitsAll snapshot.manager none definition.selectionSet) := by
  intro visit hvisit
  apply hpasses
  refine List.mem_flatMap.mpr ⟨_, mem_of_mem_operations hmem, ?_⟩
  rw [Definition.visits]
  exact List.mem_append_right _ hvisit

omit hsteady in
/-- A finished fragment is no value of a scalar field. -/
theorem shape_ne_fieldValue (view : List Instance) (pairs : Instance → List (String × Json))
    (inst : Instance) (name : String) : shape view pairs ≠ fieldValue inst name := by
  rw [fieldValue]
  cases view with
  | nil => cases Instance.getField .notAvailable inst name <;> simp [shape, FieldType.toJson,
      Json.emptyObject]
  | cons first rest =>
      cases rest <;> cases Instance.getField .notAvailable inst name <;>
        simp [shape, FieldType.toJson, Json.ofMembers]

/-- The member the object of an instance has under an alias is that of a scalar field: it
comes first under this response name, and reads as the alias does. -/
def ReadsAs (inst : Instance) (fieldAlias name : String) (selectionSet : List Selection) : Prop :=
  ∃ firstAlias first,
    firstNamed fieldAlias (fieldsOf selectionSet) = some (.field firstAlias first) ∧
      fieldValue inst fieldAlias = fieldValue inst name

omit hsteady in
theorem lookup_eq_fieldValue_iff {entity : EntityId} {selectionSet : List Selection}
    (hpasses : snapshot.Passes (visitsAll snapshot.manager (some entity) selectionSet))
    (inst : Instance) (fieldAlias name : String) :
    (snapshot.contributionsAll (some inst) selectionSet).lookup fieldAlias =
        some (fieldValue inst name) ↔ ReadsAs inst fieldAlias name selectionSet := by
  rw [lookup_contributionsAll rfl hpasses, ReadsAs]
  cases hfirst : firstNamed fieldAlias (fieldsOf selectionSet) with
  | none => simp
  | some first =>
      have hname : first.responseName? = some fieldAlias := by
        simpa using List.find?_some hfirst
      cases first with
      | field firstAlias scalar =>
          cases hname
          simp [valueOf]
      | object firstAlias target inner =>
          rw [Option.bind_some, valueOf]
          apply iff_of_false
          · intro hvalue
            obtain ⟨found, -, hshape⟩ := Option.map_eq_some_iff.mp hvalue
            exact shape_ne_fieldValue _ _ _ _ hshape
          · rintro ⟨_, _, hscalar, -⟩
            cases hscalar
      | fragmentSpread target => cases hname
      | inlineFragment inner => cases hname

omit hsteady in
/-- The objects of a finished fragment hold the values of a member. -/
theorem holds_shape_iff {view : List Instance} {pairs : Instance → List (String × Json)}
    {fieldAlias name : String} :
    Holds view fieldAlias name (shape view pairs) ↔ ∀ inst, Counts view inst →
      (pairs inst).lookup fieldAlias = some (fieldValue inst name) := by
  constructor
  · rintro ⟨others, hshape, hvalues⟩ inst hcounts
    rw [lookup_eq_of_shape_eq hshape hcounts]
    exact hvalues inst hcounts
  · exact fun hvalues => ⟨pairs, rfl, hvalues⟩

/-- The field is selected under the alias at the path, and the answer has objects of its
entity there: those of the selection set that the last operation is answered with. -/
def Shown (snapshot : Snapshot) (document : Document) (entity : EntityId)
    (fieldAlias name : String) (path : List String) (selectionSet : List Selection) : Prop :=
  SelectedAt snapshot.manager document entity fieldAlias name path ∧
    ∃ last, (operations document).getLast? = some last ∧
      Reaches snapshot entity selectionSet last.selectionSet path

/-- The alias of a scalar field does not change the field: a member is not refused, every
object has its value under the alias, and for an unknown member an error is answered. -/
structure Honoured (snapshot : Snapshot) (depth : ℕ) (kind : EntityStore → Prop)
    (library : AstLibrary) (document : Document) (state : GraphqlRouter.Answering)
    (entity : EntityId) (fieldAlias name : String) : Prop where
  admitted : (snapshot.members entity).contains name = true →
    Met snapshot document entity fieldAlias name → ∀ store, kind store →
      ¬Refuses depth snapshot.manager entity ⟨some fieldAlias, name, false⟩ store
  valued : (snapshot.members entity).contains name = true → ∀ after data,
    GraphqlRouter.run library depth snapshot.manager (some document) state = .ok ⟨⟩ after →
    AnswersData state.response after.response data → ∀ path selectionSet,
      Shown snapshot document entity fieldAlias name path selectionSet →
        ∀ json ∈ valuesAt (GqlQueryVisitor.visitorName :: path) data,
          Holds (snapshot.view entity) fieldAlias name json
  rejected : (snapshot.members entity).contains name = false →
    ∀ path, SelectedAt snapshot.manager document entity fieldAlias name path → ∃ after,
      GraphqlRouter.run library depth snapshot.manager (some document) state = .ok ⟨⟩ after ∧
        AnswersError state.response after.response

/-- The alias is a member where the field is one, and every shown instance reads the same
for both. Where the field is no member, a construct is refused before every hazardous
one. -/
structure Coincides (snapshot : Snapshot) (document : Document) (entity : EntityId)
    (fieldAlias name : String) : Prop where
  known : (snapshot.members entity).contains name = true →
    Met snapshot document entity fieldAlias name →
      (snapshot.members entity).contains fieldAlias = true
  equal : (snapshot.members entity).contains name = true →
    snapshot.Passes (documentVisits snapshot.manager document) → ∀ path selectionSet,
      Shown snapshot document entity fieldAlias name path selectionSet →
        ∀ inst, Counts (snapshot.view entity) inst → ReadsAs inst fieldAlias name selectionSet
  refused : (snapshot.members entity).contains name = false →
    ∀ path, SelectedAt snapshot.manager document entity fieldAlias name path →
      snapshot.RefusedFirst (documentVisits snapshot.manager document) ∧
        ∃ visit ∈ documentVisits snapshot.manager document, snapshot.Refused visit

omit hsteady in
/-- The objects a path leads to hold the values of the member exactly when every instance
reads the same under the alias. -/
theorem holds_iff_readsAs {document : Document} {entity : EntityId} {fieldAlias name : String}
    {path : List String} {selectionSet : List Selection}
    (hpasses : snapshot.Passes (documentVisits snapshot.manager document))
    (hshown : Shown snapshot document entity fieldAlias name path selectionSet) :
    (∀ json ∈ valuesAt (GqlQueryVisitor.visitorName :: path) (snapshot.data document),
        Holds (snapshot.view entity) fieldAlias name json) ↔
      ∀ inst, Counts (snapshot.view entity) inst → ReadsAs inst fieldAlias name selectionSet := by
  obtain ⟨-, last, hlast, hreaches⟩ := hshown
  have hvisits := passes_operation (List.mem_of_getLast? hlast) hpasses
  have hinner := passes_of_reaches hreaches hvisits
  have hvalues : valuesAt (GqlQueryVisitor.visitorName :: path) (snapshot.data document) =
      valuesAt path (.ofMembers (snapshot.contributionsAll none last.selectionSet)) := by
    rw [data_eq hlast, valuesAt_cons, Entries.lookup_cons, if_pos rfl]
    rfl
  have hroot : (none : Option Instance).isSome = (none : Option EntityId).isSome := rfl
  obtain ⟨hsome, hall⟩ := valuesAt_of_reaches hreaches hroot hvisits
  rw [hvalues]
  simp only [← lookup_eq_fieldValue_iff hinner]
  constructor
  · intro hholds
    obtain ⟨json, hjson⟩ := List.exists_mem_of_ne_nil _ hsome
    have hone := hholds json hjson
    rw [hall json hjson] at hone
    exact holds_shape_iff.mp hone
  · intro hequal json hjson
    rw [hall json hjson]
    exact holds_shape_iff.mpr hequal

/-- Over a steady store an alias is honoured exactly when it coincides with its field. -/
theorem honoured_iff_coincides (library : AstLibrary) (document : Document)
    {state : GraphqlRouter.Answering} (hstore : kind state.store) (entity : EntityId)
    (fieldAlias name : String) :
    Honoured snapshot depth kind library document state entity fieldAlias name ↔
      Coincides snapshot document entity fieldAlias name := by
  constructor
  · rintro ⟨hadmitted, hvalued, hrejected⟩
    refine ⟨fun hmember hmet => ?_, fun hmember hpasses path selectionSet hshown => ?_,
      fun hunknown path hselected => ?_⟩
    · have hnot := hadmitted hmember hmet state.store hstore
      rw [refuses_iff hsteady hstore hmet.registered] at hnot
      simpa using hnot
    · obtain ⟨after, hrun, hdata⟩ := (run_answersData_iff hsteady library document hstore _).mpr
        ⟨hpasses, rfl⟩
      exact (holds_iff_readsAs hpasses hshown).mp
        (hvalued hmember after _ hrun hdata path selectionSet hshown)
    · rw [← run_answersError_iff hsteady library document hstore]
      exact hrejected hunknown path hselected
  · rintro ⟨hknown, hequal, hrefused⟩
    refine ⟨fun hmember hmet store hkind => ?_, fun hmember after data hrun hdata path
      selectionSet hshown => ?_, fun hunknown path hselected => ?_⟩
    · rw [refuses_iff hsteady hkind hmet.registered, hknown hmember hmet]
      exact Bool.noConfusion
    · obtain ⟨hpasses, rfl⟩ :=
        (run_answersData_iff hsteady library document hstore data).mp ⟨after, hrun, hdata⟩
      exact (holds_iff_readsAs hpasses hshown).mpr
        (hequal hmember hpasses path selectionSet hshown)
    · rw [run_answersError_iff hsteady library document hstore]
      exact hrefused hunknown path hselected

end Steady

end Requests

end Aliases

end ObmcWebapp.Graphql
