/-
# What an answer delivers

A request keeps the members it collects: a member that is pushed under a response name
that is there is ignored, and an operation takes the place of the operations before it.
A fragment spread has no callback. So the answer holds exactly the paths along the first
fields of the last operation, whatever the instances of its entities are, as long as
each has one.

The hashes of the instances stay the same through all enumerations of the request, so
every field reaches the objects of all of them.
-/

import ObmcWebapp.Graphql.Evaluation
import ObmcWebapp.Graphql.Interleaving
import ObmcWebapp.Graphql.Paths
import ObmcWebapp.Graphql.Visits

namespace ObmcWebapp.Graphql

open ObmcWebapp.Core ObmcWebapp.Entities
open Interleaving (shownKeys map_hashKey)

namespace Delivery

/-- The object holds exactly the paths of some fields. -/
def Carries (done : List Selection) (item : Json) : Prop :=
  ∃ members, item = .object members ∧ ∀ name path,
    (∃ child, members.lookup name = some child ∧ Occurs path child) ↔
      Delivered (name :: path) done

/-- The value answers a field. -/
def Answers (field : Selection) (value : Json) : Prop :=
  ∀ path, Occurs path value ↔ Delivered path (fieldsOf field.children)

theorem Carries.isSome_iff {done : List Selection} {members : List (String × Json)}
    (hcarries : ∀ name path, (∃ child, members.lookup name = some child ∧ Occurs path child) ↔
      Delivered (name :: path) done) (name : String) :
    (members.lookup name).isSome ↔ (firstNamed name done).isSome := by
  rw [← delivered_singleton, ← hcarries, Option.isSome_iff_exists]
  exact ⟨fun ⟨child, hfound⟩ => ⟨child, hfound, trivial⟩, fun ⟨child, hfound, _⟩ => ⟨child, hfound⟩⟩

theorem carries_emptyObject : Carries [] .emptyObject := by
  refine ⟨[], rfl, fun name path => ?_⟩
  apply iff_of_false
  · rintro ⟨child, hchild, -⟩
    cases hchild
  · rintro ⟨field, hfirst, -⟩
    cases hfirst

/-- A field is added to an object. -/
theorem Carries.pushBack {done : List Selection} {field : Selection} {item value : Json}
    {fieldName : String} (hcarries : Carries done item)
    (hname : field.responseName? = some fieldName) (hanswers : Answers field value) :
    ∃ next, item.pushBack fieldName value = .ok next ∧ Carries (done ++ [field]) next := by
  obtain ⟨members, rfl, hpaths⟩ := hcarries
  refine ⟨_, rfl, _, rfl, fun name path => ?_⟩
  have hpresent := Carries.isSome_iff hpaths name
  have hrest := hpaths name path
  rw [Delivered] at hrest ⊢
  rw [firstNamed_append_singleton, Entries.lookup_emplace]
  by_cases hsame : name = fieldName
  · subst hsame
    cases hfirst : firstNamed name done with
    | some first =>
        rw [hfirst] at hpresent hrest
        obtain ⟨old, hold⟩ := Option.isSome_iff_exists.mp (hpresent.mpr rfl)
        rw [hold] at hrest
        rw [if_pos rfl, hold]
        exact hrest
    | none =>
        rw [hfirst] at hpresent
        have hnone : members.lookup name = none := by
          rw [← Option.not_isSome_iff_eq_none, hpresent]
          simp
        rw [if_pos rfl, hnone, if_pos hname]
        simpa using hanswers path
  · have hother : field.responseName? ≠ some name := by
      rw [hname]
      exact fun heq => hsame (Option.some.inj heq).symm
    rw [if_neg hsame, if_neg hother, Option.or_none]
    exact hrest

/-- A field that was added is not added again. -/
theorem Carries.pushBack_again {done : List Selection} {field : Selection} {item : Json}
    {fieldName : String} (hcarries : Carries (done ++ [field]) item)
    (hname : field.responseName? = some fieldName) (value : Json) :
    item.pushBack fieldName value = .ok item := by
  obtain ⟨members, rfl, hpaths⟩ := hcarries
  have hpresent : (members.lookup fieldName).isSome := by
    rw [Carries.isSome_iff hpaths, firstNamed_append_singleton, if_pos hname]
    cases firstNamed fieldName done <;> rfl
  rw [Json.pushBack_object, Entries.emplace, if_pos hpresent]

/-- The fragment has an object under each of the keys. -/
def Each (keys : List String) (holds : String → Json → Prop) : Json → Prop :=
  Keyed fun key held => (held.isSome ↔ key ∈ keys) ∧ ∀ item, held = some item → holds key item

/-- One of the objects takes a member. -/
theorem Each.pushBackAt {keys : List String} {holds after : String → Json → Prop} {fragment : Json}
    (heach : Each keys holds fragment) {key fieldName : String} (hkey : key ∈ keys) {value : Json}
    (hpush : ∀ item, holds key item → ∃ next, item.pushBack fieldName value = .ok next ∧
      after key next)
    (hother : ∀ other item, other ≠ key → holds other item → after other item) :
    ∃ pushed, fragment.pushBackAt key fieldName value = .ok pushed ∧ Each keys after pushed := by
  apply Keyed.pushBackAt heach
  · rintro held ⟨hkeys, hitem⟩
    obtain ⟨item, rfl⟩ := Option.isSome_iff_exists.mp (hkeys.mpr hkey)
    obtain ⟨next, hnext, hafter⟩ := hpush item (hitem item rfl)
    refine ⟨next, hnext, hkeys, fun found hfound => ?_⟩
    cases hfound
    exact hafter
  · rintro other held hne ⟨hkeys, hitem⟩
    exact ⟨hkeys, fun item hheld => hother other item hne (hitem item hheld)⟩

/-- The fragment of a child goes to all objects. -/
theorem Each.supplementChild {keys : List String} {done : List Selection} {field : Selection}
    {builder : GqlObjectBuild} {fieldName : String} {value : Json}
    (heach : Each keys (fun _ => Carries done) builder.fragment)
    (hname : field.responseName? = some fieldName) (hanswers : Answers field value) :
    ∃ pushed, builder.supplementChild fieldName value = .ok { builder with fragment := pushed } ∧
      Each keys (fun _ => Carries (done ++ [field])) pushed := by
  apply Keyed.supplementChild heach
  · rintro key ⟨hkeys, -⟩
    exact ⟨hkeys, fun item hheld => by cases hheld⟩
  · rintro key item ⟨hkeys, hitem⟩
    obtain ⟨next, hnext, hcarries⟩ := (hitem item rfl).pushBack hname hanswers
    refine ⟨next, hnext, hkeys, fun found hfound => ?_⟩
    cases hfound
    exact hcarries

/-- The answer of a finished builder: one of its objects, or the list of all. -/
theorem Each.answers {keys : List String} {field : Selection} {entries : List (String × Json)}
    (heach : Each keys (fun _ => Carries (fieldsOf field.children)) (.object entries))
    (hkeys : keys ≠ []) :
    (∀ value, (Json.object entries).back? = some value → Answers field value) ∧
      Answers field (.array (Json.object entries).elements) := by
  obtain ⟨_, hsame, hsorted, hheld⟩ := heach
  cases hsame
  have hitem : ∀ item ∈ entries.map Prod.snd, Carries (fieldsOf field.children) item := by
    intro item hmem
    obtain ⟨⟨key, item⟩, hentry, rfl⟩ := List.mem_map.mp hmem
    exact (hheld key).2 item ((Entries.mem_iff_lookup hsorted).mp hentry)
  constructor
  · intro value hback path
    obtain ⟨entry, hlast, rfl⟩ := Option.map_eq_some_iff.mp hback
    obtain ⟨members, hmembers, hpaths⟩ :=
      hitem entry.2 (List.mem_map_of_mem (List.mem_of_getLast? hlast))
    cases path with
    | nil => exact iff_of_true trivial trivial
    | cons name path =>
        rw [hmembers, Occurs, ← hpaths]
        simp [listed, Json.member?]
  · intro path
    cases path with
    | nil => exact iff_of_true trivial trivial
    | cons name path =>
        obtain ⟨key, hkey⟩ := List.exists_mem_of_ne_nil keys hkeys
        obtain ⟨item, hfound⟩ := Option.isSome_iff_exists.mp ((hheld key).1.mpr hkey)
        have hone : item ∈ entries.map Prod.snd :=
          List.mem_map_of_mem ((Entries.mem_iff_lookup hsorted).mpr hfound)
        constructor
        · intro hoccurs
          obtain ⟨members, rfl, hpaths⟩ := hitem item hone
          exact (hpaths name path).mp (hoccurs _ hone)
        · intro hdelivered other hother
          obtain ⟨members, rfl, hpaths⟩ := hitem other hother
          exact (hpaths name path).mpr hdelivered

/-- The value of a scalar field has no members. -/
theorem answers_scalar (fieldAlias : Option String) (name : String) (value : FieldType) :
    Answers (.field fieldAlias name) value.toJson := by
  intro path
  cases path with
  | nil => exact iff_of_true trivial trivial
  | cons wanted path =>
      apply iff_of_false
      · intro hoccurs
        cases value <;> simp [Occurs, listed, FieldType.toJson, Json.member?] at hoccurs
      · rintro ⟨field, hfirst, -⟩
        cases hfirst

section Builder

variable [StdHash] {reference : EntityStore}

/-- The keys of the objects a builder has in its fragment. -/
def builderKeys (reference : EntityStore) : Option EntityId → List String
  | none => [GqlQueryVisitor.visitorName]
  | some entity => shownKeys reference entity

/-- The instances of a scalar field, one after the other. -/
theorem Each.forEach_supplementValue {keys : List String} {done : List Selection}
    (fieldAlias : Option String) (name : String) (member : EntityMember)
    {instances : List Instance} (hkeys : instances.map hashKey = keys) (state : Building)
    (heach : Each keys (fun _ => Carries done) state.builder.fragment) :
    ∃ pushed, Fallible.forEach
        (GqlObjectBuild.supplementValue (fieldAlias.getD name) member) instances state =
          .ok ⟨⟩ { state with builder := { state.builder with fragment := pushed } } ∧
      Each keys (fun _ => Carries (done ++ [.field fieldAlias name])) pushed := by
  -- the objects of the visited keys have the field
  let given : List String → Json → Prop := fun visited => Each keys fun key => Carries
    (if key ∈ visited then done ++ [.field fieldAlias name] else done)
  have hvisit : ∀ inst ∈ instances, ∀ visited fragment (value : FieldType),
      given visited fragment → ∃ pushed,
        fragment.pushBackAt (hashKey inst) (fieldAlias.getD name) value.toJson = .ok pushed ∧
          given (visited ++ [hashKey inst]) pushed := by
    intro inst hinst visited fragment value hgiven
    apply hgiven.pushBackAt (hkeys ▸ List.mem_map_of_mem hinst)
    · intro item hitem
      rw [if_pos (List.mem_append_right _ (List.mem_singleton_self _))]
      by_cases hvisited : hashKey inst ∈ visited
      · rw [if_pos hvisited] at hitem
        exact ⟨item, hitem.pushBack_again rfl value.toJson, hitem⟩
      · rw [if_neg hvisited] at hitem
        exact hitem.pushBack rfl (answers_scalar fieldAlias name value)
    · intro other item hother hitem
      simpa [hother] using hitem
  have hstart : given [] state.builder.fragment := by
    simpa [given] using heach
  obtain ⟨pushed, hloop, hlast⟩ := forEach_supplementValue_visits given hvisit state hstart
  refine ⟨pushed, hloop, Keyed.imp hlast fun key held hheld => ⟨hheld.1, fun item hitem => ?_⟩⟩
  have hcarries := hheld.2 item hitem
  rwa [List.nil_append, hkeys, if_pos (hheld.1.mp (by rw [hitem]; rfl))] at hcarries

/-- A builder that was given some fields. -/
def Collected (reference : EntityStore) (done : List Selection) (builder : GqlObjectBuild) : Prop :=
  Each (builderKeys reference builder.entityObject) (fun _ => Carries done) builder.fragment

/-- A scalar field reaches every object of the fragment. -/
theorem Collected.supplement {depth : ℕ} {done : List Selection} {fieldAlias : Option String}
    {name : String} (state : Building) {after : Building} {value : PUnit}
    (hcollected : Collected reference done state.builder) (hstore : SameOutlines state.store reference)
    (hsupplement : GqlObjectBuild.supplement depth (fieldAlias.getD name) state =
      .ok value after) :
    SameOutlines after.store reference ∧
      after.builder.entityObject = state.builder.entityObject ∧
      after.builder.getFieldName = state.builder.getFieldName ∧
      Collected reference (done ++ [.field fieldAlias name]) after.builder := by
  obtain ⟨entries, hfragment, -⟩ := id hcollected
  cases hentity : state.builder.entityObject with
  | none =>
      -- a field of the root has no entity to be looked up in
      simp only [GqlObjectBuild.supplement, hfragment, hentity] at hsupplement
      cases hsupplement
  | some entity =>
      rw [Collected, hentity] at hcollected
      simp only [GqlObjectBuild.supplement, hfragment, hentity] at hsupplement
      cases hmember : (state.store.objects entity).getMember (fieldAlias.getD name) with
      | error exception =>
          rw [hmember] at hsupplement
          cases hsupplement
      | ok member =>
          rw [hmember] at hsupplement
          have hshown := getInstances_outlines depth entity hstore
          cases henumerate : getInstances depth entity none state.store with
          | error failure next =>
              have hzoom : Fallible.zoom Building.store
                  (fun store state => { state with store := store })
                  (getInstances depth entity none) state =
                    .error failure { state with store := next } := Fallible.zoom_error henumerate
              rw [Fallible.mapError_error (Fallible.bind_error hzoom)] at hsupplement
              cases hsupplement
          | ok instances next =>
              rw [henumerate] at hshown
              have hzoom : Fallible.zoom Building.store
                  (fun store state => { state with store := store })
                  (getInstances depth entity none) state =
                    .ok instances { state with store := next } := Fallible.zoom_ok henumerate
              obtain ⟨pushed, hloop, hlast⟩ := Each.forEach_supplementValue fieldAlias name member
                (map_hashKey hshown.1) { state with store := next } hcollected
              rw [Fallible.mapError_ok ((Fallible.bind_ok hzoom).trans hloop)] at hsupplement
              cases hsupplement
              refine ⟨hshown.2, hentity, rfl, ?_⟩
              rw [Collected, hentity]
              exact hlast

/-- A new builder was given nothing. -/
theorem collected_create {depth : ℕ} {objectName : String} {entity : EntityId}
    {store after : EntityStore} {builder : GqlObjectBuild}
    (hstore : SameOutlines store reference)
    (hcreate : GqlObjectBuild.create depth objectName entity store = .ok builder after)
    (fieldAlias : Option String) :
    SameOutlines after reference ∧ builder.entityObject = some entity ∧
      builder.name = objectName ∧
      Collected reference [] { builder with fieldAlias := fieldAlias } := by
  rw [GqlObjectBuild.create] at hcreate
  obtain ⟨instances, next, henumerate, hrest⟩ := Fallible.bind_eq_ok hcreate
  have hshown := getInstances_outlines depth entity hstore
  rw [henumerate] at hshown
  have hkeys : instances.map hashKey = shownKeys reference entity := map_hashKey hshown.1
  obtain ⟨fragment, hinit, hkeyed⟩ := keyed_initFragment instances
  rw [hinit] at hrest
  cases hrest
  have heach : Each (shownKeys reference entity) (fun _ => Carries []) fragment := by
    apply hkeyed.imp
    intro key held hheld
    rw [hheld, hkeys]
    split_ifs with hkey
    · refine ⟨iff_of_true rfl hkey, fun item hitem => ?_⟩
      cases hitem
      exact carries_emptyObject
    · exact ⟨iff_of_false (by simp) hkey, fun item hitem => by cases hitem⟩
  exact ⟨hshown.2, rfl, rfl, heach⟩

/-- The fragment of a finished builder answers its field. -/
theorem Collected.getFragment {depth : ℕ} (field : Selection) {builder : GqlObjectBuild}
    {store after : EntityStore} {fragment : Json}
    (hcollected : Collected reference (fieldsOf field.children) builder)
    (hstore : SameOutlines store reference)
    (hinstances : builderKeys reference builder.entityObject ≠ [])
    (hfragment : builder.getFragment depth store = .ok fragment after) :
    SameOutlines after reference ∧ Answers field fragment := by
  obtain ⟨entries, hentries, -⟩ := id hcollected
  rw [Collected, hentries] at hcollected
  obtain ⟨hback, hlist⟩ := hcollected.answers hinstances
  have hbackOf : ∀ state : EntityStore, SameOutlines state reference →
      GqlObjectBuild.backOf builder.fragment state = .ok fragment after →
      SameOutlines after reference ∧ Answers field fragment := by
    intro state hstate hresult
    rw [hentries, GqlObjectBuild.backOf] at hresult
    cases hvalue : (Json.object entries).back? with
    | none =>
        rw [hvalue] at hresult
        cases hresult
    | some value =>
        rw [hvalue] at hresult
        cases hresult
        exact ⟨hstate, hback _ hvalue⟩
  have hresult := Fallible.of_mapError_ok hfragment
  cases hentity : builder.entityObject with
  | none =>
      rw [hentity] at hresult
      exact hbackOf store hstore hresult
  | some entity =>
      rw [hentity] at hresult hinstances
      obtain ⟨single, middle, hsingle, hrest⟩ := Fallible.bind_eq_ok hresult
      have hfirst := getInstances_outlines depth entity hstore
      rw [hsingle] at hfirst
      split_ifs at hrest with hone
      · exact hbackOf middle hfirst.2 hrest
      · obtain ⟨many, last, hmany, hlast⟩ := Fallible.bind_eq_ok hrest
        have hsecond := getInstances_outlines depth entity hfirst.2
        rw [hmany] at hsecond
        have hcount : many.length = single.length := by
          have hhashes := congrArg List.length (hsecond.1.trans hfirst.1.symm)
          rwa [List.length_map, List.length_map] at hhashes
        have hnonempty : single ≠ [] := by
          rintro rfl
          have hkeys : [] = shownKeys reference entity := map_hashKey hfirst.1
          exact hinstances hkeys.symm
        have hlength := List.length_pos_iff.mpr hnonempty
        rw [if_pos (by omega)] at hlast
        cases hlast
        rw [hentries]
        exact ⟨hsecond.2, hlist⟩

end Builder

/-! ## The walk -/

section Walk

variable [StdHash] {reference : EntityStore} {depth : ℕ} {manager : EntityManager}

/-- The walk is at a builder of the entity, over some parents, that was given the fields. -/
structure At (reference : EntityStore) (entityObject : Option EntityId) (fieldName : String)
    (parents : List GqlObjectBuild) (done : List Selection) (state : QueryState) : Prop where
  sameOutlines : SameOutlines state.store reference
  current : ∃ builder, state.builders = builder :: parents ∧
    builder.entityObject = entityObject ∧ builder.getFieldName = fieldName ∧
    Collected reference done builder

/-- Every entity the visits name has an instance. -/
def Inhabited (manager : EntityManager) (reference : EntityStore) (visits : List Visit) : Prop :=
  ∀ name entity, .object name ∈ visits → manager.entityDictionary.find? name = some entity →
    shownKeys reference entity ≠ []

theorem At.visitField_scalar {entityObject : Option EntityId} {fieldName : String}
    {parents : List GqlObjectBuild} {done : List Selection} {state after : QueryState}
    {fieldAlias : Option String} {name : String} {descend : Bool}
    (hat : At reference entityObject fieldName parents done state)
    (hvisit : GqlQueryVisitor.visitField depth manager ⟨fieldAlias, name, false⟩ state =
      .ok descend after) :
    descend = true ∧
      At reference entityObject fieldName parents (done ++ [.field fieldAlias name]) after := by
  obtain ⟨hstore, builder, hbuilders, hentity, hname, hcollected⟩ := hat
  simp only [GqlQueryVisitor.visitField, hbuilders] at hvisit
  cases hsupplement : GqlObjectBuild.supplement depth (fieldAlias.getD name)
      ⟨state.store, builder⟩ with
  | error failure building =>
      rw [hsupplement] at hvisit
      cases hvisit
  | ok value building =>
      rw [hsupplement] at hvisit
      cases hvisit
      obtain ⟨hafter, hsameEntity, hsameName, hlast⟩ :=
        Collected.supplement ⟨state.store, builder⟩ hcollected hstore hsupplement
      exact ⟨rfl, hafter, building.builder, rfl, hsameEntity.trans hentity,
        hsameName.trans hname, hlast⟩

/-- A field with a selection set starts a builder of its entity. -/
theorem At.visitField_object {entityObject : Option EntityId} {fieldName : String}
    {parents : List GqlObjectBuild} {done : List Selection} {state after : QueryState}
    {fieldAlias : Option String} {name : String} {descend : Bool}
    (hat : At reference entityObject fieldName parents done state)
    (hvisit : GqlQueryVisitor.visitField depth manager ⟨fieldAlias, name, true⟩ state =
      .ok descend after) :
    descend = true ∧ ∃ entity builder, manager.entityDictionary.find? name = some entity ∧
      state.builders = builder :: parents ∧
      At reference (some entity) (fieldAlias.getD name) (builder :: parents) [] after := by
  obtain ⟨hstore, builder, hbuilders, -⟩ := hat
  simp only [GqlQueryVisitor.visitField, hbuilders, if_true] at hvisit
  obtain ⟨_, next, henter, hdescend⟩ := Fallible.bind_eq_ok hvisit
  cases hdescend
  have hbuild := Fallible.of_mapError_ok henter
  rw [EntityManager.getEntity] at hbuild
  cases hfound : manager.entityDictionary.find? name with
  | none =>
      rw [hfound] at hbuild
      cases hbuild
  | some entity =>
      rw [hfound] at hbuild
      cases hcreate : GqlObjectBuild.create depth name entity state.store with
      | error failure store =>
          simp only [hcreate] at hbuild
          cases hbuild
      | ok child store =>
          simp only [hcreate] at hbuild
          cases hbuild
          obtain ⟨hafter, hchild, hname, hcollected⟩ :=
            collected_create hstore hcreate fieldAlias
          refine ⟨rfl, entity, builder, rfl, hbuilders, hafter,
            { child with fieldAlias := fieldAlias }, ?_, hchild, ?_, hcollected⟩
          · rw [hbuilders]
          · rw [GqlObjectBuild.getFieldName, hname]

/-- The end of a field with a selection set gives its fragment to the parent. -/
theorem At.endVisitField_object {entityObject : Option EntityId} {fieldName : String}
    {builder : GqlObjectBuild} {parents : List GqlObjectBuild} {done : List Selection}
    {state after : QueryState} {fieldAlias : Option String} {name : String}
    {selectionSet : List Selection} {entity : EntityId} {value : PUnit}
    (hat : At reference (some entity) (fieldAlias.getD name) (builder :: parents)
      (fieldsOf selectionSet) state)
    (hbuilder : builder.entityObject = entityObject ∧ builder.getFieldName = fieldName ∧
      Collected reference done builder)
    (hinstances : shownKeys reference entity ≠ [])
    (hend : GqlQueryVisitor.endVisitField depth ⟨fieldAlias, name, true⟩ state =
      .ok value after) :
    At reference entityObject fieldName parents
      (done ++ [.object fieldAlias name selectionSet]) after := by
  obtain ⟨hstore, child, hbuilders, hentity, hname, hcollected⟩ := hat
  obtain ⟨_, next, hpush, hmodify⟩ := Fallible.bind_eq_ok hend
  cases hmodify
  simp only [GqlQueryVisitor.pushFragmentToParent, hbuilders] at hpush
  cases hfragment : child.getFragment depth state.store with
  | error failure store =>
      rw [hfragment] at hpush
      cases hpush
  | ok fragment store =>
      rw [hfragment] at hpush
      obtain ⟨hlast, hanswers⟩ :=
        Collected.getFragment (.object fieldAlias name selectionSet) hcollected hstore
          (by rwa [hentity]) hfragment
      obtain ⟨hparent, hparentName, hgiven⟩ := hbuilder
      obtain ⟨pushed, hsupplement, heach⟩ :=
        Each.supplementChild hgiven (hname ▸ rfl :
          (Selection.object fieldAlias name selectionSet).responseName? =
            some child.getFieldName) hanswers
      simp only [hsupplement] at hpush
      cases hpush
      exact ⟨hlast, _, rfl, hparent, hparentName, heach⟩

mutual

/-- The walk of a selection gives the builder its fields. -/
theorem At.accept {entityObject : Option EntityId} {fieldName : String}
    {parents : List GqlObjectBuild} {done : List Selection} {state after : QueryState}
    {value : PUnit} (selection : Selection)
    (hat : At reference entityObject fieldName parents done state)
    (hinhabited : Inhabited manager reference (selection.visits manager entityObject))
    (hwalk : selection.accept (GqlQueryVisitor.visitor depth manager) state = .ok value after) :
    At reference entityObject fieldName parents (done ++ selection.fields) after := by
  cases selection with
  | field fieldAlias name =>
      rw [Selection.accept, visitNode] at hwalk
      obtain ⟨descend, next, hvisit, hrest⟩ := Fallible.bind_eq_ok hwalk
      obtain ⟨rfl, hnext⟩ := hat.visitField_scalar hvisit
      rw [if_pos rfl] at hrest
      obtain ⟨_, last, hchildren, hend⟩ := Fallible.bind_eq_ok hrest
      cases hchildren
      cases hend
      exact hnext
  | object fieldAlias name selectionSet =>
      rw [Selection.accept, visitNode] at hwalk
      obtain ⟨descend, next, hvisit, hrest⟩ := Fallible.bind_eq_ok hwalk
      obtain ⟨rfl, entity, builder, hfound, hbuilders, hchild⟩ := hat.visitField_object hvisit
      rw [if_pos rfl] at hrest
      obtain ⟨_, last, hchildren, hend⟩ := Fallible.bind_eq_ok hrest
      have hbelow : Inhabited manager reference (visitsAll manager (some entity) selectionSet) := by
        intro other target hmem
        apply hinhabited other target
        rw [Selection.visits, hfound]
        exact List.mem_cons_of_mem _ hmem
      have hinstances := hinhabited name entity
        (by rw [Selection.visits]; exact List.mem_cons_self) hfound
      have hfinished := hchild.acceptAll selectionSet hbelow hchildren
      obtain ⟨hstore, current, hcurrent, hbuilder⟩ := hat
      rw [hbuilders] at hcurrent
      cases hcurrent
      rw [Selection.fields]
      exact hfinished.endVisitField_object hbuilder hinstances hend
  | fragmentSpread name =>
      rw [Selection.accept] at hwalk
      cases hwalk
      rwa [Selection.fields, List.append_nil]
  | inlineFragment selectionSet =>
      rw [Selection.accept] at hwalk
      rw [Selection.visits] at hinhabited
      rw [Selection.fields]
      exact hat.acceptAll selectionSet hinhabited hwalk

theorem At.acceptAll {entityObject : Option EntityId} {fieldName : String}
    {parents : List GqlObjectBuild} {done : List Selection} {state after : QueryState}
    {value : PUnit} (selections : List Selection)
    (hat : At reference entityObject fieldName parents done state)
    (hinhabited : Inhabited manager reference (visitsAll manager entityObject selections))
    (hwalk : ObmcWebapp.Graphql.acceptAll (GqlQueryVisitor.visitor depth manager) selections
      state = .ok value after) :
    At reference entityObject fieldName parents (done ++ fieldsOf selections) after := by
  cases selections with
  | nil =>
      rw [ObmcWebapp.Graphql.acceptAll] at hwalk
      cases hwalk
      rwa [fieldsOf, List.append_nil]
  | cons selection selections =>
      rw [ObmcWebapp.Graphql.acceptAll] at hwalk
      obtain ⟨_, next, hfirst, hrest⟩ := Fallible.bind_eq_ok hwalk
      have hnext := hat.accept selection
        (fun name entity hmem => hinhabited name entity
          (by rw [visitsAll]; exact List.mem_append_left _ hmem)) hfirst
      rw [fieldsOf, ← List.append_assoc]
      exact hnext.acceptAll selections
        (fun name entity hmem => hinhabited name entity
          (by rw [visitsAll]; exact List.mem_append_right _ hmem)) hrest

end

end Walk

/-! ## The answer -/

/-- The two fields of an answer are told apart. -/
theorem respField_ne : GraphqlRouter.respFieldData ≠ GraphqlRouter.respFieldError := by
  decide

/-- What was pushed to a body can be read back. -/
theorem pushed_inj {body : List Json} {field other : String} {value pushed : Json}
    (hbody : body ++ [.object [(field, value)]] = body ++ [.object [(other, pushed)]]) :
    field = other ∧ value = pushed := by
  have hmembers := Json.object.inj (List.singleton_inj.mp (List.append_cancel_left hbody))
  simpa using hmembers

section Answer

variable [StdHash] {reference : EntityStore} {depth : ℕ} {manager : EntityManager}

/-- The answer so far is that of the last of the visited operations. -/
structure Answered (reference : EntityStore) (visited : List OperationDefinition)
    (state : DocumentState) : Prop where
  sameOutlines : SameOutlines state.store reference
  isAnswer : Snapshot.IsAnswer state.result
  answers : ∀ definition, visited.getLast? = some definition →
    ∃ value, state.result = .object [(GqlQueryVisitor.visitorName, value)] ∧
      Answers (.object none GqlQueryVisitor.visitorName definition.selectionSet) value

/-- The walk of an operation gives the root the fields of its selection set. -/
theorem at_operation {definition : OperationDefinition} {store : EntityStore}
    {walked : QueryState} {value : PUnit} (hstore : SameOutlines store reference)
    (hinhabited : Inhabited manager reference (visitsAll manager none definition.selectionSet))
    (hwalk : definition.accept (GqlQueryVisitor.visitor depth manager)
      ⟨store, [.root GqlQueryVisitor.visitorName]⟩ = .ok value walked) :
    At reference none GqlQueryVisitor.visitorName [] (fieldsOf definition.selectionSet)
      walked := by
  have hroot : At reference none GqlQueryVisitor.visitorName [] []
      ⟨store, [.root GqlQueryVisitor.visitorName]⟩ := by
    refine ⟨hstore, _, rfl, rfl, rfl, [(GqlQueryVisitor.visitorName, .emptyObject)], rfl,
      List.pairwise_singleton _ _, fun key => ⟨?_, fun item hfound => ?_⟩⟩
    · rw [Entries.lookup_isSome_iff]
      exact Iff.rfl
    · rw [Entries.lookup_cons] at hfound
      split_ifs at hfound with hkey
      · cases hfound
        exact carries_emptyObject
      · cases hfound
  have hopen : (GqlQueryVisitor.visitor depth manager).visitOperationDefinition definition
      ⟨store, [.root GqlQueryVisitor.visitorName]⟩ =
        .ok true ⟨store, [.root GqlQueryVisitor.visitorName]⟩ := rfl
  rw [OperationDefinition.accept, walkOperation, visitNode, Fallible.bind_ok hopen,
    if_pos rfl] at hwalk
  obtain ⟨_, last, hchildren, hend⟩ := Fallible.bind_eq_ok hwalk
  cases hend
  cases hvariables : definition.variableDefinitions with
  | cons variableName rest =>
      rw [hvariables] at hchildren
      cases hchildren
  | nil =>
      rw [hvariables, Fallible.forEach, pure_bind, ← acceptAll_eq_forEach] at hchildren
      exact hroot.acceptAll definition.selectionSet hinhabited hchildren

/-- The destructor answers the operation. -/
theorem visitQuery_answers {library : AstLibrary} {definition : OperationDefinition}
    (state : DocumentState) {after : DocumentState} {value : Json} {result : PUnit}
    (hstore : SameOutlines state.store reference)
    (hresult : state.result = .object [(GqlQueryVisitor.visitorName, value)])
    (hinhabited : Inhabited manager reference (visitsAll manager none definition.selectionSet))
    (hvisit : ObmcGqlVisitor.visitQuery library depth manager definition state =
      .ok result after) :
    SameOutlines after.store reference ∧
      ∃ document, after.result = .object [(GqlQueryVisitor.visitorName, document)] ∧
        Answers (.object none GqlQueryVisitor.visitorName definition.selectionSet) document := by
  simp only [ObmcGqlVisitor.visitQuery, acceptOperation_eq] at hvisit
  cases hwalk : definition.accept (GqlQueryVisitor.visitor depth manager)
      ⟨state.store, [.root GqlQueryVisitor.visitorName]⟩ with
  | error failure walked =>
      rw [hwalk] at hvisit
      cases failure with
      | raised exception =>
          cases hdestroy : GqlQueryVisitor.destroy depth walked <;>
            simp only [hdestroy] at hvisit <;> cases hvisit
      | nullDereference => cases hvisit
      | undefinedBehaviour cause => cases hvisit
      | stackExhausted => cases hvisit
      | terminated => cases hvisit
  | ok _ walked =>
      rw [hwalk] at hvisit
      obtain ⟨hwalked, builder, hbuilders, hentity, -, hcollected⟩ :=
        at_operation hstore hinhabited hwalk
      simp only [GqlQueryVisitor.destroy, hbuilders] at hvisit
      cases hfragment : builder.getFragment depth walked.store with
      | error failure store =>
          simp only [hfragment] at hvisit
          cases failure <;> cases hvisit
      | ok document store =>
          simp only [hfragment] at hvisit
          cases hvisit
          have hkeys : builderKeys reference builder.entityObject ≠ [] := by
            rw [hentity]
            exact List.cons_ne_nil _ _
          obtain ⟨hlast, hanswers⟩ := Collected.getFragment
            (.object none GqlQueryVisitor.visitorName definition.selectionSet)
            hcollected hwalked hkeys hfragment
          refine ⟨hlast, document, ?_, hanswers⟩
          rw [hresult]
          rfl

/-- A visited operation takes the place of the operations before it. -/
theorem Answered.visitOperationDefinition {library : AstLibrary} {visited : List OperationDefinition}
    {definition : OperationDefinition} {state after : DocumentState} {descend : Bool}
    (hanswered : Answered reference visited state)
    (hinhabited : Inhabited manager reference (visitsAll manager none definition.selectionSet))
    (hvisit : ObmcGqlVisitor.visitOperationDefinition library depth manager definition state =
      .ok descend after) :
    Answered reference (visited ++ [definition]) after := by
  rw [ObmcGqlVisitor.visitOperationDefinition, Fallible.bind_get] at hvisit
  obtain ⟨pushed, hpush⟩ := Snapshot.pushBack_unsupported hanswered.isAnswer definition.operation
  rw [hpush] at hvisit
  by_cases hquery : definition.operation = GqlQueryVisitor.visitorName
  · obtain ⟨value, hplaced⟩ := Snapshot.pushBack_answer hanswered.isAnswer
    rw [hquery, hplaced] at hpush
    cases hpush
    rw [if_pos hquery] at hvisit
    change (ObmcGqlVisitor.visitQuery library depth manager definition >>= fun _ => pure true)
      { state with result := .object [(GqlQueryVisitor.visitorName, value)] } = _ at hvisit
    obtain ⟨_, next, hwalked, hreturn⟩ := Fallible.bind_eq_ok hvisit
    cases hreturn
    obtain ⟨hstore, document, hresult, hanswers⟩ :=
      visitQuery_answers ⟨state.store, .object [(GqlQueryVisitor.visitorName, value)]⟩
        hanswered.sameOutlines rfl hinhabited hwalked
    refine ⟨hstore, .inr ⟨document, hresult⟩, fun last hlast => ?_⟩
    rw [List.getLast?_concat] at hlast
    cases hlast
    exact ⟨document, hresult, hanswers⟩
  · rw [if_neg hquery] at hvisit
    cases hvisit

/-- The visited definitions of a document. -/
theorem Answered.forEach_accept {library : AstLibrary} {visited : List OperationDefinition}
    {document : Document} {state after : DocumentState} {result : PUnit}
    (hanswered : Answered reference visited state)
    (hinhabited : Inhabited manager reference (documentVisits manager document))
    (hwalk : Fallible.forEach (Definition.accept (ObmcGqlVisitor.visitor library depth manager))
      document state = .ok result after) :
    Answered reference (visited ++ operations document) after := by
  induction document generalizing visited state with
  | nil =>
      cases hwalk
      simpa [operations] using hanswered
  | cons definition document ih =>
      obtain ⟨_, next, hfirst, hrest⟩ := Fallible.bind_eq_ok hwalk
      have hlater : Inhabited manager reference (documentVisits manager document) :=
        fun name entity hmem => hinhabited name entity (by
          rw [documentVisits, List.flatMap_cons]
          exact List.mem_append_right _ hmem)
      cases definition with
      | fragment name selectionSet =>
          rw [Definition.accept, acceptAll_eq_forEach, Fallible.forEach_idle fun selection _ =>
            Snapshot.accept_documentVisitor library depth manager selection state] at hfirst
          cases hfirst
          exact ih hanswered hlater hrest
      | operation definition =>
          rw [Definition.accept, Snapshot.accept_operation_eq] at hfirst
          obtain ⟨descend, last, hvisit, hreturn⟩ := Fallible.bind_eq_ok hfirst
          cases hreturn
          have hnext := hanswered.visitOperationDefinition (fun name entity hmem =>
            hinhabited name entity (by
              rw [documentVisits, List.flatMap_cons, Definition.visits]
              exact List.mem_append_left _ (List.mem_append_right _ hmem))) hvisit
          have hlast := ih hnext hlater hrest
          rwa [List.append_assoc] at hlast

/-- Every entity the document names has an instance. -/
def HasInstances (manager : EntityManager) (store : EntityStore) (document : Document) : Prop :=
  ∀ name entity, .object name ∈ documentVisits manager document →
    manager.entityDictionary.find? name = some entity →
    (store.objects entity).instances.values ≠ []

theorem HasInstances.inhabited {store : EntityStore} {document : Document}
    (hinstances : HasInstances manager store document) :
    Inhabited manager store (documentVisits manager document) := by
  intro name entity hmem hfound hkeys
  obtain ⟨inst, hinst⟩ := List.exists_mem_of_ne_nil _ (hinstances name entity hmem hfound)
  have hown : inst.getHash ∈ inst.outline.values :=
    OrderedMap.mem_values_iff.mpr ⟨inst.getHash, by rw [find?_outline, if_pos rfl]⟩
  have hshown : inst.getHash ∈ shownHashes store entity :=
    List.mem_flatMap.mpr ⟨inst, hinst, hown⟩
  rw [shownKeys, List.map_eq_nil_iff] at hkeys
  rw [hkeys] at hshown
  cases hshown

/-- The request answers with data. -/
def AnswersData (response after : Response) (data : Json) : Prop :=
  after.body = response.body ++ [.object [(GraphqlRouter.respFieldData, data)]]

/-- Every path of every operation occurs in the data. -/
def Complete (document : Document) (data : Json) : Prop :=
  ∀ definition ∈ operations document, ∀ path,
    SelectedPath document definition.selectionSet path →
      Occurs (GqlQueryVisitor.visitorName :: path) data

/-- The last operation leads along every path of every operation. -/
def Kept (document : Document) : Prop :=
  ∀ definition ∈ operations document, ∀ path,
    SelectedPath document definition.selectionSet path →
      ∃ last, (operations document).getLast? = some last ∧
        Delivered path (fieldsOf last.selectionSet)

/-- The data of a request is complete exactly when the last operation leads along every
selected path. -/
theorem run_complete_iff (library : AstLibrary) (depth : ℕ) (manager : EntityManager)
    (document : Document) {state after : GraphqlRouter.Answering} {data : Json}
    (hinstances : HasInstances manager state.store document)
    (hrun : GraphqlRouter.run library depth manager (some document) state = .ok ⟨⟩ after)
    (hdata : AnswersData state.response after.response data) :
    Complete document data ↔ Kept document := by
  have hstart : Answered state.store [] ⟨state.store, .emptyObject⟩ :=
    ⟨fun _ _ => rfl, .inl rfl, fun definition hlast => by cases hlast⟩
  have hvisited : ∃ visited, Answered state.store (operations document) visited ∧
      visited.result = data := by
    simp only [GraphqlRouter.run, GraphqlRouter.visit, acceptDocument_eq] at hrun
    cases hwalk : Fallible.forEach
        (Definition.accept (ObmcGqlVisitor.visitor library depth manager)) document
        ⟨state.store, .emptyObject⟩ with
    | ok _ visited =>
        rw [hwalk] at hrun
        cases hrun
        exact ⟨visited, hstart.forEach_accept hinstances.inhabited hwalk, (pushed_inj hdata).2⟩
    | error failure visited =>
        rw [hwalk] at hrun
        split at hrun
        · next hresult => cases hresult
        · next gqlException answered hresult =>
            -- an error is pushed under another name
            cases hrun
            exact absurd (pushed_inj hdata).1.symm respField_ne
        · cases hrun
  obtain ⟨visited, hanswered, rfl⟩ := hvisited
  cases hlast : (operations document).getLast? with
  | none =>
      have hnone : operations document = [] := List.getLast?_eq_none_iff.mp hlast
      simp [Complete, Kept, hnone]
  | some last =>
      obtain ⟨value, hresult, hanswers⟩ := hanswered.answers last hlast
      have hpath : ∀ path, Occurs (GqlQueryVisitor.visitorName :: path) visited.result ↔
          ∃ found, some last = some found ∧ Delivered path (fieldsOf found.selectionSet) := by
        intro path
        have hquery : (Json.object [(GqlQueryVisitor.visitorName, value)]).member?
            GqlQueryVisitor.visitorName = some value := by
          simp [Json.member?]
        rw [hresult, Occurs]
        simp only [listed, List.mem_singleton, forall_eq, hquery, Option.some.injEq,
          exists_eq_left']
        exact hanswers path
      simp only [Complete, Kept, hlast, hpath]

/-- A document that passes over a fixed store is answered with its data. -/
theorem run_answersData {view : EntityId → List Instance} (state : GraphqlRouter.Answering)
    (hfixed : FixedDuringRequest depth manager view state.store) (library : AstLibrary)
    (document : Document)
    (hpasses : (snapshotOf manager view state.store).verdictDefinitions document = .passes) :
    ∃ after, GraphqlRouter.run library depth manager (some document) state = .ok ⟨⟩ after ∧
      AnswersData state.response after.response
        ((snapshotOf manager view state.store).data document) := by
  have hrun := Snapshot.run_spec hfixed.steady library (some document)
    (Relation.ReflTransGen.refl : Relation.ReflTransGen (Enumerates depth manager) state.store
      state.store)
  rw [Snapshot.verdictDocument, hpasses] at hrun
  obtain ⟨store, hanswer⟩ := hrun
  exact ⟨_, hanswer, rfl⟩

end Answer

section Sample

def boardOperation : OperationDefinition where
  selectionSet := [.object none "Board" [.field none "Name"]]

def firstOperation : OperationDefinition where
  selectionSet := [.object (some "First") "Board" [.field none "Name"]]

/-- The path of an object field with one scalar field. -/
theorem selectedPath_single {document : Document} {fieldAlias : Option String}
    {name scalar : String} {path : List String}
    (hpath : SelectedPath document [.object fieldAlias name [.field none scalar]] path) :
    path = [fieldAlias.getD name, scalar] := by
  cases hpath with
  | object hmem hrest =>
      cases List.mem_singleton.mp hmem
      cases hrest with
      | scalar hmem =>
          cases List.mem_singleton.mp hmem
          rfl
      | object hmem _ => cases List.mem_singleton.mp hmem
      | inlineFragment hmem _ => cases List.mem_singleton.mp hmem
      | fragmentSpread hmem _ _ => cases List.mem_singleton.mp hmem
  | scalar hmem => cases List.mem_singleton.mp hmem
  | inlineFragment hmem _ => cases List.mem_singleton.mp hmem
  | fragmentSpread hmem _ _ => cases List.mem_singleton.mp hmem

theorem hasInstances_boards (document : Document) :
    HasInstances boardManager boardStore document :=
  fun _ _ _ _ => List.cons_ne_nil _ _

theorem fixed_boards :
    let _ : StdHash := ⟨64, fun text => BitVec.ofNat 64 text.utf8ByteSize⟩
    FixedDuringRequest 1 boardManager
      (fun _ => [leftBoard.toInstance, rightmostBoard.toInstance]) boardStore := by
  intro _
  exact fixedDuringRequest_of_settled (.unlinked rfl fun _ => rfl) fun name entity _ =>
    ⟨Nat.one_pos, viewOf_unlinked _ rfl⟩

/-- Two boards that are asked for once. -/
theorem run_complete_iff_boards :
    let _ : StdHash := ⟨64, fun text => BitVec.ofNat 64 text.utf8ByteSize⟩
    ∃ after data, GraphqlRouter.run .depthFirst 1 boardManager (some [.operation boardOperation])
        ⟨boardStore, {}⟩ = .ok ⟨⟩ after ∧ AnswersData {} after.response data ∧
      Complete [.operation boardOperation] data := by
  intro _
  obtain ⟨after, hrun, hdata⟩ := run_answersData ⟨boardStore, {}⟩ fixed_boards
    .depthFirst [.operation boardOperation] (by decide)
  refine ⟨after, _, hrun, hdata, (run_complete_iff .depthFirst 1 boardManager _
    (hasInstances_boards _) hrun hdata).mpr ?_⟩
  intro definition hdefinition path hpath
  cases List.mem_singleton.mp hdefinition
  rw [selectedPath_single hpath]
  exact ⟨boardOperation, rfl, _, rfl, _, rfl, trivial⟩

/-- The second of two operations is the answer. -/
theorem first_operation_dropped :
    ¬∀ (_ : StdHash) (library : AstLibrary) (depth : ℕ) (manager : EntityManager)
      (document : Document) (state after : GraphqlRouter.Answering) (data : Json),
      HasInstances manager state.store document →
      GraphqlRouter.run library depth manager (some document) state = .ok ⟨⟩ after →
      AnswersData state.response after.response data → Complete document data := by
  intro hclaim
  let hash : StdHash := ⟨64, fun text => BitVec.ofNat 64 text.utf8ByteSize⟩
  obtain ⟨after, hrun, hdata⟩ := run_answersData ⟨boardStore, {}⟩ fixed_boards
    .depthFirst [.operation firstOperation, .operation boardOperation] (by decide)
  have hcomplete := hclaim hash .depthFirst 1 boardManager _ ⟨boardStore, {}⟩ after _
    (hasInstances_boards _) hrun hdata
  have hpath := hcomplete firstOperation List.mem_cons_self ["First", "Name"]
    (.object (List.mem_singleton_self _) (.scalar (List.mem_singleton_self _)))
  obtain ⟨query, hquery, hmembers⟩ := hpath _ (List.mem_singleton_self _)
  cases hquery
  obtain ⟨first, hfirst, -⟩ := hmembers _ (List.mem_singleton_self _)
  cases hfirst

end Sample

end Delivery

end ObmcWebapp.Graphql
