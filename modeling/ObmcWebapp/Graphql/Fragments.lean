/-
# Fragments over a steady store

A request sees the entities through enumerations. `Snapshot` is what these show: the
instances of each entity, or that a rule fails. A store is steady when it keeps showing
the same snapshot, however often it is enumerated.

Over a steady store every operation of a builder has a closed form: the fragment is
determined by the instances and, for each of them, the members added so far.
-/

import ObmcWebapp.Graphql.Builder

namespace ObmcWebapp.Graphql

open ObmcWebapp.Core ObmcWebapp.Entities

variable [StdHash]

/-- What a request sees of the entities. -/
structure Snapshot where
  manager : EntityManager
  members : EntityId → OrderedMap MemberName EntityMember
  /-- The instances an enumeration shows. -/
  view : EntityId → List Instance
  /-- An enumeration ends as a rule does that fails. -/
  raises : EntityId → Bool

/-- What nothing on the way to the answer catches: the exception of the application, and
undefined behaviour. -/
inductive Uncaught : Failure → Prop
  | obmcApp (what : String) : Uncaught (.raised (.obmcApp what))
  | undefinedBehaviour (cause : Undefined) : Uncaught (.undefinedBehaviour cause)

omit [StdHash] in
theorem Uncaught.ne_gql {failure : Failure} (huncaught : Uncaught failure) (error : GqlException) :
    failure ≠ .raised (.gql error) := by
  cases huncaught <;> simp

namespace Snapshot

/-- The entity has a name a query can use. -/
def Registered (snapshot : Snapshot) (entity : EntityId) : Prop :=
  ∃ name, snapshot.manager.entityDictionary.find? name = some entity

/-- Stores of a kind keep showing the snapshot: an enumeration of a registered entity
shows what the snapshot says and leaves a store of the kind. -/
structure Steady (snapshot : Snapshot) (depth : ℕ) (kind : EntityStore → Prop) : Prop where
  members : ∀ {store}, kind store → ∀ entity,
    (store.objects entity).members = snapshot.members entity
  notAvailable : ∀ {store}, kind store → store.notAvailable = .notAvailable
  enumerates : ∀ {store}, kind store → ∀ entity, snapshot.Registered entity →
    snapshot.raises entity = false → ∃ after,
      getInstances depth entity none store = .ok (snapshot.view entity) after ∧ kind after
  throws : ∀ {store}, kind store → ∀ entity, snapshot.Registered entity →
    snapshot.raises entity = true → ∃ failure after,
      getInstances depth entity none store = .error failure after ∧ Uncaught failure

end Snapshot

/-- Objects with the given members under their keys. -/
def objects (entries : List (String × List (String × Json))) : Json :=
  .object (entries.map fun entry => (entry.1, .object entry.2))

/-- The fragment of instances with the members listed for each; of two instances of one
hash the first counts. -/
def fragmentOf (instances : List Instance) (pairs : Instance → List (String × Json)) : Json :=
  objects (Entries.keyed hashKey (fun inst => Entries.ofList (pairs inst)) instances)

/-- What a finished builder gives. -/
def shape (instances : List Instance) (pairs : Instance → List (String × Json)) : Json :=
  match instances with
  | [] => .emptyObject
  | [inst] => .ofMembers (pairs inst)
  | instances => .array (fragmentOf instances pairs).elements

omit [StdHash] in
theorem objects_insertOrAssign (key : String) (members : List (String × Json))
    (entries : List (String × List (String × Json))) :
    objects (Entries.insertOrAssign key members entries) =
      .object (Entries.insertOrAssign key (.object members)
        (entries.map fun entry => (entry.1, .object entry.2))) := by
  rw [objects, Entries.map_insertOrAssign fun _ members => Json.object members]

omit [StdHash] in
theorem pushBackAt_objects {key : String} {entries : List (String × List (String × Json))}
    {members : List (String × Json)} (name : String) (value : Json)
    (hheld : entries.lookup key = some members) :
    (objects entries).pushBackAt key name value =
      .ok (objects (Entries.insertOrAssign key (Entries.emplace name value members) entries)) := by
  have hobject : (entries.map fun entry => (entry.1, Json.object entry.2)).lookup key =
      some (.object members) := by
    rw [Entries.lookup_mapValue fun _ members => Json.object members, hheld]
    rfl
  rw [objects, Json.pushBackAt_object name value hobject, objects_insertOrAssign]

theorem initFragment_eq (instances : List Instance) :
    GqlObjectBuild.initFragment instances = .ok (fragmentOf instances fun _ => []) := by
  have hfold : ∀ entries : List (String × List (String × Json)),
      instances.foldlM (fun (fragment : Json) inst =>
        fragment.assign (hashKey inst) .emptyObject) (objects entries) =
        Except.ok (objects (instances.foldl (fun entries inst =>
          Entries.insertOrAssign (hashKey inst) [] entries) entries)) := by
    induction instances with
    | nil => exact fun entries => rfl
    | cons inst instances ih =>
        intro entries
        have hassign : (objects entries).assign (hashKey inst) .emptyObject =
            .ok (objects (Entries.insertOrAssign (hashKey inst) [] entries)) := by
          rw [objects_insertOrAssign, objects, Json.assign_object]
          rfl
        rw [List.foldlM_cons, hassign]
        exact ih _
  have hinit := hfold []
  rw [Entries.foldl_insertOrAssign_const] at hinit
  exact hinit

/-- The value a scalar field adds for an instance. -/
def fieldValue (inst : Instance) (fieldName : String) : Json :=
  (Instance.getField .notAvailable inst fieldName).toJson

/-- Adding the values of some instances to the objects under their keys. -/
theorem forEach_supplementValue {store : EntityStore} (hstore : store.notAvailable = .notAvailable)
    (fieldName : String) (member : EntityMember) (builder : GqlObjectBuild)
    {instances : List Instance} {entries : List (String × List (String × Json))}
    (hheld : ∀ inst ∈ instances, (entries.lookup (hashKey inst)).isSome) :
    Fallible.forEach (GqlObjectBuild.supplementValue fieldName member) instances
        ⟨store, { builder with fragment := objects entries }⟩ =
      .ok ⟨⟩ ⟨store, { builder with
        fragment := objects (Entries.updateEach hashKey (fun inst members =>
          Entries.emplace fieldName (fieldValue inst member.name) members) instances entries) }⟩ := by
  induction instances generalizing entries with
  | nil => rfl
  | cons inst instances ih =>
      obtain ⟨members, hmembers⟩ := Option.isSome_iff_exists.mp (hheld inst (by simp))
      have hpush := pushBackAt_objects fieldName (fieldValue inst member.name) hmembers
      have hfirst : GqlObjectBuild.supplementValue fieldName member inst
          ⟨store, { builder with fragment := objects entries }⟩ =
            .ok ⟨⟩ ⟨store, { builder with
              fragment := objects (Entries.insertOrAssign (hashKey inst)
                (Entries.emplace fieldName (fieldValue inst member.name) members) entries) }⟩ := by
        simp only [GqlObjectBuild.supplementValue, hstore]
        rw [← fieldValue, hpush]
      rw [Fallible.forEach, Fallible.bind_ok hfirst, ih]
      · simp only [Entries.updateEach, List.foldl_cons, hmembers]
      · intro later hlater
        rw [Entries.lookup_insertOrAssign]
        split_ifs
        · rfl
        · exact hheld later (List.mem_cons_of_mem _ hlater)

/-- A scalar field adds its value to the members of every instance. -/
theorem updateEach_fragment (instances : List Instance)
    (pairs : Instance → List (String × Json)) (fieldName : String) (member : MemberName) :
    Entries.updateEach hashKey (fun inst members =>
        Entries.emplace fieldName (fieldValue inst member) members) instances
        (Entries.keyed hashKey (fun inst => Entries.ofList (pairs inst)) instances) =
      Entries.keyed hashKey (fun inst =>
        Entries.ofList (pairs inst ++ [(fieldName, fieldValue inst member)])) instances := by
  rw [Entries.updateEach_keyed]
  · simp only [Entries.ofList_append]
  · intro first later members
    exact Entries.emplace_emplace _ _ _ _

/-- What `push_back` makes of an item that takes it. -/
def pushedInto (fieldName : String) (value item : Json) : Json :=
  match item.pushBack fieldName value with
  | .ok pushed => pushed
  | .error _ => item

omit [StdHash] in
/-- The fragment of a child is pushed into every item. -/
theorem supplementChild_eq {builder : GqlObjectBuild} {entries : List (String × Json)}
    {fieldName : String} {childJsonNode : Json} (hfragment : builder.fragment = .object entries)
    (hpush : ∀ item ∈ entries, ∃ pushed, item.2.pushBack fieldName childJsonNode = .ok pushed) :
    builder.supplementChild fieldName childJsonNode =
      .ok { builder with
        fragment := .object (entries.map fun item =>
          (item.1, pushedInto fieldName childJsonNode item.2)) } := by
  have hitem : ∀ item ∈ entries, (item.2.pushBack fieldName childJsonNode).map (item.1, ·) =
      .ok (item.1, pushedInto fieldName childJsonNode item.2) := by
    intro item hmem
    obtain ⟨pushed, hpushed⟩ := hpush item hmem
    rw [pushedInto, hpushed]
    rfl
  simp only [GqlObjectBuild.supplementChild, hfragment, Fallible.mapM_eq_ok hitem]

omit [StdHash] in
/-- A finished child adds its fragment to the members under every key. -/
theorem supplementChild_objects (fieldName : String) (childJsonNode : Json)
    (builder : GqlObjectBuild) (entries : List (String × List (String × Json))) :
    GqlObjectBuild.supplementChild fieldName childJsonNode
        { builder with fragment := objects entries } =
      .ok { builder with
        fragment := objects (entries.map fun entry =>
          (entry.1, Entries.emplace fieldName childJsonNode entry.2)) } := by
  have hpush : ∀ item ∈ entries.map (fun entry => (entry.1, Json.object entry.2)),
      ∃ pushed, item.2.pushBack fieldName childJsonNode = .ok pushed := by
    intro item hmem
    obtain ⟨entry, -, rfl⟩ := List.mem_map.mp hmem
    exact ⟨_, rfl⟩
  rw [supplementChild_eq rfl hpush]
  simp only [objects, List.map_map]
  rfl

theorem supplementChild_fragment (fieldName : String) (childJsonNode : Json)
    (builder : GqlObjectBuild) (instances : List Instance)
    (pairs : Instance → List (String × Json)) :
    GqlObjectBuild.supplementChild fieldName childJsonNode
        { builder with fragment := fragmentOf instances pairs } =
      .ok { builder with
        fragment := fragmentOf instances fun inst => pairs inst ++ [(fieldName, childJsonNode)] } := by
  simp only [fragmentOf, supplementChild_objects,
    Entries.map_keyed (fun members => Entries.emplace fieldName childJsonNode members),
    Entries.ofList_append]

section Keyed

variable {holds after : String → Option Json → Prop} {fragment : Json}

/-- What a fragment holds under each key. -/
def Keyed (holds : String → Option Json → Prop) (fragment : Json) : Prop :=
  ∃ entries : List (String × Json), fragment = .object entries ∧ Entries.Sorted entries ∧
    ∀ key, holds key (entries.lookup key)

omit [StdHash] in
theorem Keyed.imp (hkeyed : Keyed holds fragment)
    (himp : ∀ key held, holds key held → after key held) : Keyed after fragment := by
  obtain ⟨entries, hfragment, hsorted, hholds⟩ := hkeyed
  exact ⟨entries, hfragment, hsorted, fun key => himp key _ (hholds key)⟩

omit [StdHash] in
/-- The item of one key takes a member; an absent item is null before. -/
theorem Keyed.pushBackAt (hkeyed : Keyed holds fragment) {key fieldName : String} {value : Json}
    (hpush : ∀ held, holds key held → ∃ next,
      (held.getD .null).pushBack fieldName value = .ok next ∧ after key (some next))
    (hother : ∀ other held, other ≠ key → holds other held → after other held) :
    ∃ pushed, fragment.pushBackAt key fieldName value = .ok pushed ∧ Keyed after pushed := by
  obtain ⟨entries, rfl, hsorted, hholds⟩ := hkeyed
  obtain ⟨next, hnext, hafter⟩ := hpush _ (hholds key)
  refine ⟨.object (Entries.insertOrAssign key next entries), ?_, _, rfl,
    Entries.sorted_insertOrAssign key next hsorted, fun wanted => ?_⟩
  · simp only [Json.pushBackAt, hnext]
    rfl
  · rw [Entries.lookup_insertOrAssign]
    by_cases hwanted : wanted = key
    · rw [if_pos hwanted, hwanted]
      exact hafter
    · rw [if_neg hwanted]
      exact hother wanted _ hwanted (hholds wanted)

omit [StdHash] in
/-- Every item takes the fragment of a child. -/
theorem Keyed.supplementChild {builder : GqlObjectBuild} (hkeyed : Keyed holds builder.fragment)
    {fieldName : String} {value : Json} (habsent : ∀ key, holds key none → after key none)
    (hpush : ∀ key item, holds key (some item) → ∃ next,
      item.pushBack fieldName value = .ok next ∧ after key (some next)) :
    ∃ pushed, builder.supplementChild fieldName value = .ok { builder with fragment := pushed } ∧
      Keyed after pushed := by
  obtain ⟨entries, hfragment, hsorted, hholds⟩ := hkeyed
  have hitem : ∀ item ∈ entries, ∃ next, item.2.pushBack fieldName value = .ok next := by
    intro item hmem
    have hheld := hholds item.1
    rw [(Entries.mem_iff_lookup hsorted).mp hmem] at hheld
    obtain ⟨next, hnext, -⟩ := hpush item.1 item.2 hheld
    exact ⟨next, hnext⟩
  refine ⟨_, supplementChild_eq hfragment hitem, _, rfl,
    Entries.sorted_mapValue (fun _ json => pushedInto fieldName value json) hsorted, fun key => ?_⟩
  rw [Entries.lookup_mapValue fun _ json => pushedInto fieldName value json]
  have hheld := hholds key
  cases hlookup : entries.lookup key with
  | none =>
      rw [hlookup] at hheld
      exact habsent key hheld
  | some item =>
      rw [hlookup] at hheld
      obtain ⟨next, hnext, hafter⟩ := hpush key item hheld
      rw [Option.map_some, pushedInto, hnext]
      exact hafter

/-- A new fragment has an empty object under the key of each instance. -/
theorem keyed_initFragment (instances : List Instance) :
    ∃ fragment, GqlObjectBuild.initFragment instances = .ok fragment ∧
      Keyed (fun key held =>
        held = if key ∈ instances.map hashKey then some .emptyObject else none) fragment := by
  refine ⟨_, initFragment_eq instances, _, rfl, ?_, fun key => ?_⟩
  · exact Entries.sorted_mapValue (fun _ members => Json.object members)
      (Entries.sorted_keyed _ _ _)
  · rw [Entries.lookup_mapValue fun _ members => Json.object members, Entries.lookup_keyed]
    cases hfound : instances.find? fun inst => decide (hashKey inst = key) with
    | none =>
        have habsent : key ∉ instances.map hashKey := by
          simpa using List.find?_eq_none.mp hfound
        rw [if_neg habsent]
        rfl
    | some inst =>
        have hkey : hashKey inst = key := by simpa using List.find?_some hfound
        rw [if_pos (hkey ▸ List.mem_map_of_mem (List.mem_of_find?_eq_some hfound))]
        rfl

/-- The instances of a scalar field, one after the other: what holds of the keys that were
visited grows by one key at a time. -/
theorem forEach_supplementValue_visits (holds : List String → Json → Prop) {fieldName : String}
    {member : EntityMember} {instances : List Instance}
    (hvisit : ∀ inst ∈ instances, ∀ (visited : List String) (fragment : Json) (value : FieldType),
      holds visited fragment → ∃ pushed,
        fragment.pushBackAt (hashKey inst) fieldName value.toJson = .ok pushed ∧
          holds (visited ++ [hashKey inst]) pushed)
    {visited : List String} (state : Building) (hstart : holds visited state.builder.fragment) :
    ∃ pushed, Fallible.forEach (GqlObjectBuild.supplementValue fieldName member) instances state =
        .ok ⟨⟩ { state with builder := { state.builder with fragment := pushed } } ∧
      holds (visited ++ instances.map hashKey) pushed := by
  induction instances generalizing visited state with
  | nil => exact ⟨state.builder.fragment, rfl, by simpa using hstart⟩
  | cons inst instances ih =>
      obtain ⟨pushed, hpush, hpushed⟩ := hvisit inst List.mem_cons_self visited _
        (Instance.getField state.store.notAvailable inst member.name) hstart
      have hfirst : GqlObjectBuild.supplementValue fieldName member inst state =
          .ok ⟨⟩ { state with builder := { state.builder with fragment := pushed } } := by
        simp only [GqlObjectBuild.supplementValue, hpush]
      obtain ⟨last, hrest, hlast⟩ := ih
        (fun inst hmem => hvisit inst (List.mem_cons_of_mem _ hmem))
        { state with builder := { state.builder with fragment := pushed } } hpushed
      refine ⟨last, ?_, ?_⟩
      · rw [Fallible.forEach, Fallible.bind_ok hfirst, hrest]
      · rw [List.append_assoc] at hlast
        exact hlast

end Keyed

section Steady

variable {snapshot : Snapshot} {depth : ℕ} {kind : EntityStore → Prop}
  (hsteady : snapshot.Steady depth kind) {store : EntityStore} (hstore : kind store)
  {entity : EntityId} (hregistered : snapshot.Registered entity)

include hsteady hstore hregistered

theorem create_eq (hquiet : snapshot.raises entity = false) (objectName : String) :
    ∃ after, GqlObjectBuild.create depth objectName entity store =
      .ok { name := objectName, entityObject := some entity
            fragment := fragmentOf (snapshot.view entity) fun _ => [] } after ∧ kind after := by
  obtain ⟨after, henumerate, hafter⟩ := hsteady.enumerates hstore entity hregistered hquiet
  refine ⟨after, ?_, hafter⟩
  rw [GqlObjectBuild.create, Fallible.bind_ok henumerate, initFragment_eq]
  rfl

theorem create_throws (hraises : snapshot.raises entity = true) (objectName : String) :
    ∃ failure after, GqlObjectBuild.create depth objectName entity store =
      .error failure after ∧ Uncaught failure := by
  obtain ⟨failure, after, henumerate, huncaught⟩ :=
    hsteady.throws hstore entity hregistered hraises
  exact ⟨failure, after, Fallible.bind_error henumerate, huncaught⟩

theorem supplement_eq (hquiet : snapshot.raises entity = false) {fieldName : String}
    {member : EntityMember} (hmember : (snapshot.members entity).find? fieldName = some member)
    (builder : GqlObjectBuild) (pairs : Instance → List (String × Json)) :
    ∃ after, GqlObjectBuild.supplement depth fieldName
        ⟨store, { builder with
          entityObject := some entity, fragment := fragmentOf (snapshot.view entity) pairs }⟩ =
      .ok ⟨⟩ ⟨after, { builder with
          entityObject := some entity
          fragment := fragmentOf (snapshot.view entity) fun inst =>
            pairs inst ++ [(fieldName, fieldValue inst fieldName)] }⟩ ∧ kind after := by
  obtain ⟨after, henumerate, hafter⟩ := hsteady.enumerates hstore entity hregistered hquiet
  have hfound : (store.objects entity).getMember fieldName = .ok member := by
    rw [Entity.getMember, hsteady.members hstore, hmember]
  have hname : member.name = fieldName := by
    apply (store.objects entity).named
    rw [hsteady.members hstore, hmember]
  refine ⟨after, ?_, hafter⟩
  have hheld : ∀ inst ∈ snapshot.view entity,
      ((Entries.keyed hashKey (fun inst => Entries.ofList (pairs inst))
        (snapshot.view entity)).lookup (hashKey inst)).isSome := by
    intro inst hinst
    rw [Entries.lookup_keyed, Option.isSome_map, List.find?_isSome]
    exact ⟨inst, hinst, by simp⟩
  have hloop := forEach_supplementValue (hsteady.notAvailable hafter) fieldName member
    { builder with entityObject := some entity } hheld
  rw [hname, updateEach_fragment] at hloop
  simp only [GqlObjectBuild.supplement, fragmentOf, objects]
  apply Fallible.mapError_ok
  simp only [hfound]
  have hzoom : Fallible.zoom Building.store (fun store state => { state with store := store })
      (getInstances depth entity none)
      ⟨store, { builder with
        entityObject := some entity, fragment := fragmentOf (snapshot.view entity) pairs }⟩ =
        .ok (snapshot.view entity) ⟨after, { builder with
          entityObject := some entity, fragment := fragmentOf (snapshot.view entity) pairs }⟩ :=
    Fallible.zoom_ok henumerate
  exact (Fallible.bind_ok hzoom).trans hloop

omit hregistered in
theorem supplement_unknown {fieldName : String}
    (hmember : (snapshot.members entity).find? fieldName = none)
    (builder : GqlObjectBuild) (pairs : Instance → List (String × Json)) :
    GqlObjectBuild.supplement depth fieldName
        ⟨store, { builder with
          entityObject := some entity, fragment := fragmentOf (snapshot.view entity) pairs }⟩ =
      .error (.raised (.gql (.invalidArgument fieldName "Field not found")))
        ⟨store, { builder with
          entityObject := some entity, fragment := fragmentOf (snapshot.view entity) pairs }⟩ := by
  have hmissing : (store.objects entity).getMember fieldName =
      .error (.entity ("The object Member <" ++ fieldName ++ "> not found")) := by
    rw [Entity.getMember, hsteady.members hstore, hmember]
  simp only [GqlObjectBuild.supplement, fragmentOf, objects, hmissing]
  rfl

theorem getFragment_eq (hquiet : snapshot.raises entity = false) {builder : GqlObjectBuild}
    {pairs : Instance → List (String × Json)} (hentity : builder.entityObject = some entity)
    (hfragment : builder.fragment = fragmentOf (snapshot.view entity) pairs) :
    ∃ after, builder.getFragment depth store = .ok (shape (snapshot.view entity) pairs) after ∧
      kind after := by
  obtain ⟨single, hsingle, hkind⟩ := hsteady.enumerates hstore entity hregistered hquiet
  obtain ⟨many, hmany, hafter⟩ := hsteady.enumerates hkind entity hregistered hquiet
  simp only [GqlObjectBuild.getFragment, hentity, hfragment]
  cases hview : snapshot.view entity with
  | nil =>
      rw [hview] at hsingle hmany
      refine ⟨many, Fallible.mapError_ok ?_, hafter⟩
      rw [Fallible.bind_ok hsingle, if_neg (by simp), Fallible.bind_ok hmany, if_neg (by simp)]
      rfl
  | cons inst rest =>
      cases rest with
      | nil =>
          rw [hview] at hsingle
          refine ⟨single, Fallible.mapError_ok ?_, hkind⟩
          rw [Fallible.bind_ok hsingle, if_pos List.length_singleton]
          rfl
      | cons second rest =>
          rw [hview] at hsingle hmany
          refine ⟨many, Fallible.mapError_ok ?_, hafter⟩
          rw [Fallible.bind_ok hsingle, if_neg (by simp), Fallible.bind_ok hmany,
            if_pos (by simp)]
          rfl

end Steady

theorem supplement_root (depth : ℕ) (fieldName : String) {store : EntityStore}
    {builder : GqlObjectBuild} {entries : List (String × List (String × Json))}
    (hroot : builder.entityObject = none) (hfragment : builder.fragment = objects entries) :
    GqlObjectBuild.supplement depth fieldName ⟨store, builder⟩ =
      .error .nullDereference ⟨store, builder⟩ := by
  simp only [GqlObjectBuild.supplement, hroot, hfragment, objects]

theorem getFragment_root (depth : ℕ) {store : EntityStore} {builder : GqlObjectBuild}
    {name : String} {members : List (String × Json)} (hroot : builder.entityObject = none)
    (hfragment : builder.fragment = objects [(name, members)]) :
    builder.getFragment depth store = .ok (.object members) store := by
  simp only [GqlObjectBuild.getFragment, hroot, hfragment]
  rfl

section Sample

def boardQuery : DBusQuery where
  searchPropertiesMap := OrderedMap.empty
  formatters := OrderedMap.empty
  defaultFieldsValue := OrderedMap.empty

/-- A store whose entities have one member and show some boards. -/
def showingBoards (instances : OrderedMap ℕ DBusInstance) : EntityStore where
  objects _ :=
    { name := "Board"
      members := OrderedMap.ofList [("Name", { name := "Name" })]
      instances := instances
      providers := []
      named := named_single "Name" }
  notAvailable := .notAvailable

end Sample

end ObmcWebapp.Graphql
