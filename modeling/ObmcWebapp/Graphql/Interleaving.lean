/-
# Refreshes during a query

A builder takes the instances of its entity when it is constructed, again for every
scalar field, and again when its fragment is taken. Brokers publish between these
callbacks, so an instance may be there for some of them only.

An instance that was not there at construction has no object in the fragment: the first
scalar field that meets it makes it an array, and so do all later ones. An instance that
goes away leaves an object without the later fields. The fragment is taken by the number
of instances shown at the end, whatever it holds then.
-/

import ObmcWebapp.Entities.Outlines
import ObmcWebapp.Graphql.Fragments
import ObmcWebapp.Library.Execution

namespace ObmcWebapp.Graphql

open ObmcWebapp.Core ObmcWebapp.Entities

namespace Interleaving

/-- A callback that added to the fragment: the field name, and for a scalar field the
keys of the instances that were there. -/
inductive Observed
  | scalar (fieldName : String) (shown : List String)
  | child (fieldName : String)

namespace Observed

def fieldName : Observed → String
  | scalar fieldName _ => fieldName
  | child fieldName => fieldName

/-- A callback that met the instance of a key. The fragment of a child goes to all. -/
def Meets (key : String) : Observed → Prop
  | scalar _ shown => key ∈ shown
  | child _ => True

end Observed

/-- The key was there at construction or at some scalar field. -/
def Seen (created : List String) (observed : List Observed) (key : String) : Prop :=
  key ∈ created ∨ ∃ fieldName shown, .scalar fieldName shown ∈ observed ∧ key ∈ shown

/-- Some callback gave the instance of a key a member. -/
def Given (observed : List Observed) (key fieldName : String) : Prop :=
  ∃ callback ∈ observed, callback.Meets key ∧ callback.fieldName = fieldName

/-- The instance of a key was there at construction and for every field. -/
def Whole (created : List String) (observed : List Observed) (key : String) : Prop :=
  key ∈ created ∧ ∀ callback ∈ observed, Given observed key callback.fieldName

/-- The instance of a key was there at construction and for no field. -/
def Bare (created : List String) (observed : List Observed) (key : String) : Prop :=
  key ∈ created ∧ ∀ callback ∈ observed, ¬callback.Meets key

section Seen

variable {created : List String} {observed : List Observed} {key : String}

theorem seen_append (last : List Observed) :
    Seen created (observed ++ last) key ↔
      Seen created observed key ∨
        ∃ fieldName shown, .scalar fieldName shown ∈ last ∧ key ∈ shown := by
  simp only [Seen, List.mem_append, or_and_right, exists_or, or_assoc]

@[simp]
theorem seen_append_scalar (fieldName : String) (shown : List String) :
    Seen created (observed ++ [.scalar fieldName shown]) key ↔
      Seen created observed key ∨ key ∈ shown := by
  rw [seen_append]
  simp

@[simp]
theorem seen_append_child (fieldName : String) :
    Seen created (observed ++ [.child fieldName]) key ↔ Seen created observed key := by
  rw [seen_append]
  simp

@[simp]
theorem given_append_singleton (callback : Observed) (wanted : String) :
    Given (observed ++ [callback]) key wanted ↔
      Given observed key wanted ∨ callback.Meets key ∧ callback.fieldName = wanted := by
  simp only [Given, List.mem_append, List.mem_singleton, or_and_right, exists_or, exists_eq_left]

end Seen

/-- What a fragment holds of the instance of a key. -/
inductive Holds (created : List String) (observed : List Observed) (key : String) :
    Option Json → Prop
  | absent (hunseen : ¬Seen created observed key) : Holds created observed key none
  | object {members : List (String × Json)} (hcreated : key ∈ created)
      (hgiven : ∀ wanted, (members.lookup wanted).isSome ↔ Given observed key wanted) :
      Holds created observed key (some (.object members))
  | array {items inner : List Json} (hcreated : key ∉ created) (hseen : Seen created observed key)
      (hinner : .array inner ∈ items) : Holds created observed key (some (.array items))

/-- A fragment holds what the callbacks made of it. -/
def Tracks (created : List String) (observed : List Observed) (fragment : Json) : Prop :=
  ∃ entries : List (String × Json), fragment = .object entries ∧ Entries.Sorted entries ∧
    ∀ key, Holds created observed key (entries.lookup key)

namespace Holds

variable {created : List String} {observed : List Observed} {key : String} {held : Option Json}

/-- What is held of a key depends on whether it was seen and what it was given. -/
theorem congr {other : List Observed} (hheld : Holds created observed key held)
    (hseen : Seen created observed key ↔ Seen created other key)
    (hgiven : ∀ wanted, Given observed key wanted ↔ Given other key wanted) :
    Holds created other key held := by
  cases hheld with
  | absent hunseen => exact .absent fun hother => hunseen (hseen.mpr hother)
  | object hcreated hheld => exact .object hcreated fun wanted => (hheld wanted).trans (hgiven wanted)
  | array hcreated hheld hinner => exact .array hcreated (hseen.mp hheld) hinner

theorem isSome_iff (hheld : Holds created observed key held) :
    held.isSome ↔ Seen created observed key := by
  cases hheld with
  | absent hunseen => simpa using hunseen
  | object hcreated hgiven => exact ⟨fun _ => .inl hcreated, fun _ => rfl⟩
  | array hcreated hseen hinner => exact ⟨fun _ => hseen, fun _ => rfl⟩

/-- A scalar field that met the instance of a key: an absent item becomes an array. -/
theorem pushScalar {fieldName : String} {shown : List String}
    (hheld : Holds created (observed ++ [.scalar fieldName shown]) key held) (value : Json) :
    ∃ pushed, (held.getD .null).pushBack fieldName value = .ok pushed ∧
      Holds created (observed ++ [.scalar fieldName (shown ++ [key])]) key (some pushed) := by
  cases hheld with
  | absent hunseen =>
      refine ⟨_, rfl, .array (fun hcreated => hunseen (.inl hcreated)) (by simp)
        (List.mem_singleton_self _)⟩
  | @object members hcreated hgiven =>
      refine ⟨_, rfl, .object hcreated fun wanted => ?_⟩
      rw [Entries.lookup_emplace]
      by_cases hwanted : wanted = fieldName
      · simp [hwanted, Observed.Meets, Observed.fieldName]
      · rw [if_neg hwanted, hgiven]
        simp [Observed.fieldName, Ne.symm hwanted]
  | array hcreated hseen hinner =>
      exact ⟨_, rfl, .array hcreated (by simp) (List.mem_append_left _ hinner)⟩

/-- The fragment of a child goes to what is held. -/
theorem pushChild {json : Json}
    (hheld : Holds created observed key (some json)) (fieldName : String) (value : Json) :
    ∃ pushed, json.pushBack fieldName value = .ok pushed ∧
      Holds created (observed ++ [.child fieldName]) key (some pushed) := by
  cases hheld with
  | object hcreated hgiven =>
      refine ⟨_, rfl, .object hcreated fun wanted => ?_⟩
      rw [Entries.lookup_emplace]
      by_cases hwanted : wanted = fieldName
      · simp [hwanted, Observed.Meets, Observed.fieldName]
      · rw [if_neg hwanted, hgiven]
        simp [Observed.fieldName, Ne.symm hwanted]
  | array hcreated hseen hinner =>
      exact ⟨_, rfl, .array hcreated (by simpa using hseen) (List.mem_append_left _ hinner)⟩

end Holds

section Callbacks

variable {created : List String} {observed : List Observed} {fragment : Json}

/-- Before its first instance a scalar field has met none. -/
theorem Tracks.scalar_nil (htracks : Tracks created observed fragment) (fieldName : String) :
    Tracks created (observed ++ [.scalar fieldName []]) fragment :=
  Keyed.imp htracks fun key held hheld => hheld.congr (by simp) (by simp [Observed.Meets])

/-- One instance of a scalar field. -/
theorem Tracks.pushBackAt {fieldName : String} {shown : List String}
    (htracks : Tracks created (observed ++ [.scalar fieldName shown]) fragment) (key : String)
    (value : Json) :
    ∃ pushed, fragment.pushBackAt key fieldName value = .ok pushed ∧
      Tracks created (observed ++ [.scalar fieldName (shown ++ [key])]) pushed := by
  apply Keyed.pushBackAt htracks
  · exact fun held hheld => hheld.pushScalar value
  · intro other held hother hheld
    apply hheld.congr
    · simp [hother]
    · simp [Observed.Meets, Observed.fieldName, hother]

/-- The fragment of a child. -/
theorem Tracks.supplementChild {builder : GqlObjectBuild}
    (htracks : Tracks created observed builder.fragment) (fieldName : String) (value : Json) :
    ∃ pushed, builder.supplementChild fieldName value = .ok { builder with fragment := pushed } ∧
      Tracks created (observed ++ [.child fieldName]) pushed := by
  apply Keyed.supplementChild htracks
  · intro key habsent
    cases habsent with
    | absent hunseen => exact .absent (by simpa using hunseen)
  · exact fun key item hheld => hheld.pushChild fieldName value

variable [StdHash]

/-- The instances of a scalar field, one after the other. -/
theorem forEach_supplementValue_tracks {fieldName : String} (member : EntityMember)
    (instances : List Instance) (state : Building)
    (htracks : Tracks created observed state.builder.fragment) :
    ∃ pushed, Fallible.forEach (GqlObjectBuild.supplementValue fieldName member) instances state =
        .ok ⟨⟩ { state with builder := { state.builder with fragment := pushed } } ∧
      Tracks created (observed ++ [.scalar fieldName (instances.map hashKey)]) pushed :=
  forEach_supplementValue_visits
    (fun visited => Tracks created (observed ++ [.scalar fieldName visited]))
    (fun inst _ _ _ value hvisited => hvisited.pushBackAt (hashKey inst) value.toJson) state
    (htracks.scalar_nil fieldName)

end Callbacks

/-- An object with exactly these names. -/
def HasExactly (names : List String) : Json → Prop
  | .object members => ∀ name, name ∈ members.map Prod.fst ↔ name ∈ names
  | _ => False

/-- Nothing, one object, or a list of objects, each with exactly these names. -/
def WellShaped (names : List String) : Json → Prop
  | .array items => ∀ item ∈ items, HasExactly names item
  | json => json = .emptyObject ∨ HasExactly names json

/-- The names that were selected. -/
def selected (observed : List Observed) : List String := observed.map Observed.fieldName

section Shape

variable {created : List String} {observed : List Observed} {key : String} {json : Json}

theorem Holds.hasExactly_iff (hheld : Holds created observed key (some json)) :
    HasExactly (selected observed) json ↔ Whole created observed key := by
  cases hheld with
  | @object members hcreated hgiven =>
      have hnames : ∀ name, name ∈ members.map Prod.fst ↔ Given observed key name := fun name =>
        Entries.lookup_isSome_iff.symm.trans (hgiven name)
      constructor
      · intro hexactly
        refine ⟨hcreated, fun callback hmem => ?_⟩
        rw [← hnames, hexactly]
        exact List.mem_map_of_mem hmem
      · intro hwhole name
        rw [hnames]
        constructor
        · rintro ⟨callback, hmem, -, rfl⟩
          exact List.mem_map_of_mem hmem
        · intro hname
          obtain ⟨callback, hmem, rfl⟩ := List.mem_map.mp hname
          exact hwhole.2 callback hmem
  | array hcreated hseen hinner => exact ⟨False.elim, fun hwhole => hcreated hwhole.1⟩

theorem Holds.wellShaped_iff (hheld : Holds created observed key (some json)) :
    WellShaped (selected observed) json ↔
      Whole created observed key ∨ Bare created observed key := by
  have hexactly := hheld.hasExactly_iff
  cases hheld with
  | @object members hcreated hgiven =>
      have hempty : Json.object members = .emptyObject ↔ Bare created observed key := by
        constructor
        · intro hsame
          obtain rfl : members = [] := Json.object.inj hsame
          exact ⟨hcreated, fun callback hmem hmeets => by
            simpa using (hgiven callback.fieldName).mpr ⟨callback, hmem, hmeets, rfl⟩⟩
        · intro hbare
          cases members with
          | nil => rfl
          | cons member members =>
              obtain ⟨callback, hmem, hmeets, -⟩ := (hgiven member.1).mp (by simp)
              exact absurd hmeets (hbare.2 callback hmem)
      show Json.object members = .emptyObject ∨ HasExactly _ _ ↔ _
      rw [hempty, hexactly, or_comm]
  | @array items inner hcreated hseen hinner =>
      constructor
      · intro hshaped
        exact (hshaped _ hinner).elim
      · rintro (hwhole | hbare)
        · exact absurd hwhole.1 hcreated
        · exact absurd hbare.1 hcreated

end Shape

/-! ## Runs of a builder -/

section Runs

variable [StdHash]

/-- The keys of the instances an enumeration of the entity shows. -/
def shownKeys (store : EntityStore) (entity : EntityId) : List String :=
  (shownHashes store entity).map toString

/-- A builder at work, and the history of its callbacks. -/
structure Progress where
  building : Building
  created : List String
  observed : List Observed := []
  /-- An exception is on its way to the destructor. -/
  unwound : Bool := false

/-- What happens between and in the callbacks. -/
inductive Change
  | publish (target : EntityId) (instances : List DBusInstance)
  /-- Another builder, or another request, enumerates an entity. -/
  | enumerate (depth : ℕ) (target : EntityId)
  | scalar (fieldName : String)
  | child (fieldName : String) (fragment : Json)
  /-- An exception outside of `supplement`. -/
  | raise

/-- The step a label stands for. After an exception there are no more callbacks. -/
inductive Steps (depth : ℕ) (entity : EntityId) : Progress → Change → Progress → Prop
  | publish {state : Progress} {target : EntityId} {instances : List DBusInstance} :
      Steps depth entity state (.publish target instances)
        { state with building :=
          { state.building with store := state.building.store.setInstances target instances } }
  | enumerate {state : Progress} {otherDepth : ℕ} {target : EntityId} {after : EntityStore}
      (hleaves : Fallible.Leaves (fun left => left = after)
        (getInstances otherDepth target none state.building.store)) :
      Steps depth entity state (.enumerate otherDepth target)
        { state with building := { state.building with store := after } }
  | scalar {state : Progress} {fieldName : String} {after : Building}
      (hquiet : state.unwound = false)
      (hsupplement : GqlObjectBuild.supplement depth fieldName state.building = .ok ⟨⟩ after) :
      Steps depth entity state (.scalar fieldName)
        { state with
          building := after
          observed := state.observed ++
            [.scalar fieldName (shownKeys state.building.store entity)] }
  | scalarRaised {state : Progress} {fieldName : String} {failure : Failure} {after : Building}
      (hquiet : state.unwound = false)
      (hsupplement : GqlObjectBuild.supplement depth fieldName state.building =
        .error failure after) :
      Steps depth entity state (.scalar fieldName) { state with building := after, unwound := true }
  | child {state : Progress} {fieldName : String} {fragment : Json} {builder : GqlObjectBuild}
      (hquiet : state.unwound = false)
      (hsupplement : state.building.builder.supplementChild fieldName fragment = .ok builder) :
      Steps depth entity state (.child fieldName fragment)
        { state with
          building := { state.building with builder := builder }
          observed := state.observed ++ [.child fieldName] }
  | raise {state : Progress} (hquiet : state.unwound = false) :
      Steps depth entity state .raise { state with unwound := true }

/-- A run starts with the construction of a builder of the entity. -/
def machine (depth : ℕ) (entity : EntityId) : Machine Progress Change where
  initial state := ∃ (store : EntityStore) (objectName : String) (builder : GqlObjectBuild)
    (after : EntityStore) (fieldAlias : Option String),
    GqlObjectBuild.create depth objectName entity store = .ok builder after ∧
      state = { building := ⟨after, { builder with fieldAlias := fieldAlias }⟩
                created := shownKeys store entity }
  step := Steps depth entity

/-- The builder is one of the entity, and its fragment holds what the callbacks made of
it. -/
structure Accounted (entity : EntityId) (state : Progress) : Prop where
  entityObject : state.building.builder.entityObject = some entity
  tracks : Tracks state.created state.observed state.building.builder.fragment

theorem map_hashKey {store : EntityStore} {entity : EntityId} {shown : List Instance}
    (hshown : shown.map Instance.getHash = shownHashes store entity) :
    shown.map hashKey = shownKeys store entity := by
  rw [shownKeys, ← hshown, List.map_map]
  rfl

theorem initFragment_tracks (instances : List Instance) :
    ∃ fragment, GqlObjectBuild.initFragment instances = .ok fragment ∧
      Tracks (instances.map hashKey) [] fragment := by
  obtain ⟨fragment, hinit, hkeyed⟩ := keyed_initFragment instances
  refine ⟨fragment, hinit, hkeyed.imp fun key held hheld => ?_⟩
  by_cases hcreated : key ∈ instances.map hashKey
  · rw [hheld, if_pos hcreated]
    exact .object hcreated fun wanted => by simp [Given]
  · rw [hheld, if_neg hcreated]
    exact .absent (by simpa [Seen] using hcreated)

theorem create_tracks {depth : ℕ} {objectName : String} {entity : EntityId}
    {store after : EntityStore} {builder : GqlObjectBuild}
    (hcreate : GqlObjectBuild.create depth objectName entity store = .ok builder after) :
    builder.entityObject = some entity ∧ Tracks (shownKeys store entity) [] builder.fragment := by
  rw [GqlObjectBuild.create] at hcreate
  obtain ⟨instances, next, henumerate, hrest⟩ := Fallible.bind_eq_ok hcreate
  have hsame : SameOutlines store store := fun _ _ => rfl
  have hshown := getInstances_outlines depth entity hsame
  rw [henumerate] at hshown
  obtain ⟨fragment, hinit, htracks⟩ := initFragment_tracks instances
  rw [hinit] at hrest
  cases hrest
  refine ⟨rfl, ?_⟩
  rw [← map_hashKey hshown.1]
  exact htracks

/-- A scalar field adds what it meets, or leaves the builder as it is. -/
theorem supplement_tracks (depth : ℕ) {entity : EntityId} {created : List String}
    {observed : List Observed} {state : Building} (fieldName : String)
    (hentity : state.builder.entityObject = some entity)
    (htracks : Tracks created observed state.builder.fragment) :
    match GqlObjectBuild.supplement depth fieldName state with
    | .ok _ after => after.builder.entityObject = some entity ∧
        Tracks created (observed ++ [.scalar fieldName (shownKeys state.store entity)])
          after.builder.fragment
    | .error _ after => after.builder = state.builder := by
  have htracks' := htracks
  obtain ⟨entries, hfragment, -, -⟩ := htracks'
  simp only [GqlObjectBuild.supplement, hfragment, hentity]
  cases hmember : (state.store.objects entity).getMember fieldName with
  | error exception => rfl
  | ok member =>
      have hstore : SameOutlines state.store state.store := fun _ _ => rfl
      have hshown := getInstances_outlines depth entity hstore
      cases henumerate : getInstances depth entity none state.store with
      | error failure next =>
          have hzoom : Fallible.zoom Building.store (fun store state => { state with store := store })
              (getInstances depth entity none) state = .error failure { state with store := next } :=
            Fallible.zoom_error henumerate
          rw [Fallible.mapError_error (Fallible.bind_error hzoom)]
      | ok instances next =>
          rw [henumerate] at hshown
          have hzoom : Fallible.zoom Building.store (fun store state => { state with store := store })
              (getInstances depth entity none) state = .ok instances { state with store := next } :=
            Fallible.zoom_ok henumerate
          obtain ⟨pushed, hloop, hpushed⟩ := forEach_supplementValue_tracks member instances
            { state with store := next } htracks
          rw [Fallible.mapError_ok ((Fallible.bind_ok hzoom).trans hloop)]
          refine ⟨hentity, ?_⟩
          rw [← map_hashKey hshown.1]
          exact hpushed

theorem accounted_invariant (depth : ℕ) (entity : EntityId) :
    (machine depth entity).Invariant (Accounted entity) where
  start := by
    rintro state ⟨store, objectName, builder, after, fieldAlias, hcreate, rfl⟩
    obtain ⟨hentity, htracks⟩ := create_tracks hcreate
    exact ⟨hentity, htracks⟩
  preserved := by
    intro state change next haccounted hstep
    cases hstep with
    | publish => exact ⟨haccounted.entityObject, haccounted.tracks⟩
    | enumerate hleaves => exact ⟨haccounted.entityObject, haccounted.tracks⟩
    | @scalar fieldName after hquiet hsupplement =>
        have hspec := supplement_tracks depth fieldName haccounted.entityObject haccounted.tracks
        rw [hsupplement] at hspec
        exact ⟨hspec.1, hspec.2⟩
    | @scalarRaised fieldName failure after hquiet hsupplement =>
        have hspec := supplement_tracks depth fieldName haccounted.entityObject haccounted.tracks
        rw [hsupplement] at hspec
        have hbuilder : after.builder = state.building.builder := hspec
        exact ⟨hbuilder ▸ haccounted.entityObject, hbuilder ▸ haccounted.tracks⟩
    | @child fieldName fragment builder hquiet hsupplement =>
        obtain ⟨pushed, hresult, htracks⟩ := haccounted.tracks.supplementChild fieldName fragment
        rw [hsupplement] at hresult
        cases hresult
        exact ⟨haccounted.entityObject, htracks⟩
    | raise => exact ⟨haccounted.entityObject, haccounted.tracks⟩

/-- The enumerations of `getFragment` return. -/
def Finishes (depth : ℕ) (entity : EntityId) (store : EntityStore) : Prop :=
  ∃ single next, getInstances depth entity none store = .ok single next ∧
    (single.length ≠ 1 → ∃ many last, getInstances depth entity none next = .ok many last)

/-- The fragment an answer takes is well shaped, and `back` is not taken of an empty
one, also by the destructor. -/
def Uncorrupted (depth : ℕ) (state : Progress) : Prop :=
  match state.building.builder.getFragment depth state.building.store with
  | .ok json _ => state.unwound = false → WellShaped (selected state.observed) json
  | .error failure _ => failure ≠ .undefinedBehaviour .emptyBack

/-- What was there at the end was there at every callback: for one instance, what is at
the greatest key ever seen was there always, or for no field at all; for more, everything
that was seen. -/
def Consistent (entity : EntityId) (state : Progress) : Prop :=
  ((shownKeys state.building.store entity).length = 1 →
    ∃ key, Seen state.created state.observed key ∧
      (∀ other, Seen state.created state.observed other → other ≤ key) ∧
      (state.unwound = false →
        Whole state.created state.observed key ∨ Bare state.created state.observed key)) ∧
  (1 < (shownKeys state.building.store entity).length → state.unwound = false →
    ∀ key, Seen state.created state.observed key → Whole state.created state.observed key)

omit [StdHash] in
theorem fragmentFailure_ne {failure : Failure} (name : String)
    (hfailure : failure ≠ .undefinedBehaviour .emptyBack) :
    GqlObjectBuild.fragmentFailure name failure ≠ .undefinedBehaviour .emptyBack := by
  unfold GqlObjectBuild.fragmentFailure
  split
  · simp
  · exact hfailure

/-- One instance is shown at the end. -/
theorem uncorrupted_single {depth : ℕ} {entity : EntityId} {state : Progress}
    (haccounted : Accounted entity state) {single : List Instance} {next : EntityStore}
    (henumerate : getInstances depth entity none state.building.store = .ok single next)
    (hsingle : single.length = 1)
    (hshown : (shownKeys state.building.store entity).length = single.length) :
    Uncorrupted depth state ↔ Consistent entity state := by
  obtain ⟨entries, hfragment, hsorted, hholds⟩ := haccounted.tracks
  have hone : (shownKeys state.building.store entity).length = 1 := hshown.trans hsingle
  have hseen : ∀ key, (entries.lookup key).isSome ↔ Seen state.created state.observed key :=
    fun key => (hholds key).isSome_iff
  have hresult : ∀ result, GqlObjectBuild.backOf (.object entries) next = result →
      state.building.builder.getFragment depth state.building.store =
        Fallible.mapError (GqlObjectBuild.fragmentFailure state.building.builder.name)
          (fun _ => result) next := by
    intro result hback
    rw [GqlObjectBuild.getFragment, haccounted.entityObject, hfragment]
    simp only [Fallible.mapError]
    rw [Fallible.bind_ok henumerate, if_pos hsingle, hback]
  cases hlast : entries.getLast? with
  | none =>
      -- nothing was ever seen
      have hnone : entries = [] := List.getLast?_eq_none_iff.mp hlast
      have hback : GqlObjectBuild.backOf (.object entries) next =
          .error (.undefinedBehaviour .emptyBack) next := by
        rw [hnone]
        rfl
      have hcorrupted : ¬Uncorrupted depth state := by
        rw [Uncorrupted, hresult _ hback]
        exact fun hne => hne rfl
      refine iff_of_false hcorrupted fun hconsistent => ?_
      obtain ⟨key, hkey, -⟩ := hconsistent.1 hone
      rw [← hseen, hnone] at hkey
      cases hkey
  | some last =>
      obtain ⟨key, json⟩ := last
      obtain ⟨hfound, hgreatest⟩ := (Entries.getLast?_eq_some_iff hsorted).mp hlast
      have hback : GqlObjectBuild.backOf (.object entries) next = .ok json next := by
        rw [GqlObjectBuild.backOf, Json.back?, hlast]
        rfl
      have hshape := hholds key
      rw [hfound] at hshape
      have huncorrupted : Uncorrupted depth state ↔
          (state.unwound = false → WellShaped (selected state.observed) json) := by
        rw [Uncorrupted, hresult _ hback]
        rfl
      rw [huncorrupted, hshape.wellShaped_iff]
      constructor
      · intro hwhole
        refine ⟨fun _ => ⟨key, hshape.isSome_iff.mp rfl, fun other hother => ?_, hwhole⟩,
          fun hmany => by omega⟩
        exact hgreatest other ((hseen other).mpr hother)
      · intro hconsistent
        obtain ⟨greatest, hkey, hmost, hwhole⟩ := hconsistent.1 hone
        have hsame : greatest = key :=
          le_antisymm (hgreatest greatest ((hseen greatest).mpr hkey))
            (hmost key (hshape.isSome_iff.mp rfl))
        rw [← hsame]
        exact hwhole

/-- None or several instances are shown at the end. -/
theorem uncorrupted_several {depth : ℕ} {entity : EntityId} {state : Progress}
    (haccounted : Accounted entity state) {single many : List Instance} {next last : EntityStore}
    (hfirst : getInstances depth entity none state.building.store = .ok single next)
    (hsecond : getInstances depth entity none next = .ok many last) (hsingle : single.length ≠ 1)
    (hshown : (shownKeys state.building.store entity).length = single.length)
    (hagain : many.length = single.length) :
    Uncorrupted depth state ↔ Consistent entity state := by
  obtain ⟨entries, hfragment, hsorted, hholds⟩ := haccounted.tracks
  have hresult : state.building.builder.getFragment depth state.building.store =
      .ok (if many.length > 1 then .array (Json.object entries).elements else .emptyObject) last := by
    rw [GqlObjectBuild.getFragment, haccounted.entityObject, hfragment]
    apply Fallible.mapError_ok
    show (getInstances depth entity none >>= _) _ = _
    rw [Fallible.bind_ok hfirst, if_neg hsingle, Fallible.bind_ok hsecond]
    split_ifs <;> rfl
  rw [Uncorrupted, hresult]
  by_cases hmany : many.length > 1
  · simp only [if_pos hmany]
    constructor
    · intro hshaped
      refine ⟨fun hone => absurd (hshown.symm.trans hone) hsingle, fun _ hquiet key hkey => ?_⟩
      have hheld := hholds key
      obtain ⟨json, hfound⟩ := Option.isSome_iff_exists.mp (hheld.isSome_iff.mpr hkey)
      rw [hfound] at hheld
      rw [← hheld.hasExactly_iff]
      exact hshaped hquiet json
        (List.mem_map_of_mem ((Entries.mem_iff_lookup hsorted).mpr hfound))
    · intro hconsistent hquiet json hjson
      obtain ⟨⟨key, held⟩, hmem, rfl⟩ := List.mem_map.mp hjson
      have hheld := hholds key
      rw [(Entries.mem_iff_lookup hsorted).mp hmem] at hheld
      rw [hheld.hasExactly_iff]
      exact hconsistent.2 (by omega) hquiet key (hheld.isSome_iff.mp rfl)
  · simp only [if_neg hmany]
    exact iff_of_true (fun _ => .inl rfl) ⟨fun hone => by omega, fun hlarge => by omega⟩

/-- In every run the fragment is uncorrupted exactly when, unless an enumeration at its
end fails, what is shown at the end was there at every callback. -/
theorem uncorrupted_iff_consistent {depth : ℕ} {entity : EntityId} {state : Progress}
    (hreach : (machine depth entity).Reachable state) :
    Uncorrupted depth state ↔
      (Finishes depth entity state.building.store → Consistent entity state) := by
  have haccounted := (accounted_invariant depth entity).of_reachable hreach
  have hsame : SameOutlines state.building.store state.building.store := fun _ _ => rfl
  have hfails := getInstances_failsAs depth entity none
  have hfirstHashes := getInstances_outlines depth entity hsame
  cases hfirst : getInstances depth entity none state.building.store with
  | error failure next =>
      have hresult : state.building.builder.getFragment depth state.building.store =
          .error (GqlObjectBuild.fragmentFailure state.building.builder.name failure) next := by
        rw [GqlObjectBuild.getFragment, haccounted.entityObject]
        exact Fallible.mapError_error (Fallible.bind_error hfirst)
      have hnever : ¬Finishes depth entity state.building.store := by
        rintro ⟨single, middle, hsingle, -⟩
        rw [hfirst] at hsingle
        cases hsingle
      rw [Uncorrupted, hresult]
      exact iff_of_true (fragmentFailure_ne _ (hfails _ _ _ hfirst)) fun hfinishes =>
        absurd hfinishes hnever
  | ok single next =>
      rw [hfirst] at hfirstHashes
      have hshown : (shownKeys state.building.store entity).length = single.length := by
        rw [← map_hashKey hfirstHashes.1, List.length_map]
      by_cases hsingle : single.length = 1
      · have hfinishes : Finishes depth entity state.building.store :=
          ⟨single, next, hfirst, fun hne => absurd hsingle hne⟩
        rw [uncorrupted_single haccounted hfirst hsingle hshown]
        exact ⟨fun hconsistent _ => hconsistent, fun himp => himp hfinishes⟩
      · have hsecondHashes := getInstances_outlines depth entity hfirstHashes.2
        cases hsecond : getInstances depth entity none next with
        | error failure last =>
            have hresult : state.building.builder.getFragment depth state.building.store =
                .error (GqlObjectBuild.fragmentFailure state.building.builder.name failure) last := by
              rw [GqlObjectBuild.getFragment, haccounted.entityObject]
              apply Fallible.mapError_error
              show (getInstances depth entity none >>= _) _ = _
              rw [Fallible.bind_ok hfirst, if_neg hsingle, Fallible.bind_error hsecond]
            have hnever : ¬Finishes depth entity state.building.store := by
              rintro ⟨found, middle, hfound, hagain⟩
              rw [hfirst] at hfound
              cases hfound
              obtain ⟨many, last', hmany⟩ := hagain hsingle
              rw [hsecond] at hmany
              cases hmany
            rw [Uncorrupted, hresult]
            exact iff_of_true (fragmentFailure_ne _ (hfails _ _ _ hsecond)) fun hfinishes =>
              absurd hfinishes hnever
        | ok many last =>
            rw [hsecond] at hsecondHashes
            have hagain : many.length = single.length := by
              rw [← hshown, ← map_hashKey hsecondHashes.1, List.length_map]
            have hfinishes : Finishes depth entity state.building.store :=
              ⟨single, next, hfirst, fun _ => ⟨many, last, hsecond⟩⟩
            rw [uncorrupted_several haccounted hfirst hsecond hsingle hshown hagain]
            exact ⟨fun hconsistent _ => hconsistent, fun himp => himp hfinishes⟩

end Runs

section Sample

def board : DBusInstance := .create "svc" "/board" boardQuery

def emptyStore : EntityStore := showingBoards OrderedMap.empty

/-- A builder over a board that is published again during the query. -/
theorem uncorrupted_iff_consistent_board :
    ∃ (_ : StdHash) (state : Progress), (machine 1 0).Reachable state ∧
      selected state.observed = ["Chassis"] ∧ Uncorrupted 1 state := by
  let hash : StdHash := ⟨64, fun _ => 0⟩
  have hstart := Machine.Reachable.start (M := machine 1 0)
    ⟨emptyStore.setInstances 0 [board], "Board", _, _, none, rfl, rfl⟩
  have hchild := hstart.next (.child rfl rfl : Steps 1 0 _ (.child "Chassis" .emptyObject) _)
  have hreach := hchild.next (.publish : Steps 1 0 _ (.publish 0 [board]) _)
  refine ⟨hash, _, hreach, rfl, (uncorrupted_iff_consistent hreach).mpr fun _ => ⟨fun _ => ?_, ?_⟩⟩
  · have hcreated : shownKeys (emptyStore.setInstances 0 [board]) 0 = ["0"] := by decide
    have hboard : "0" ∈ shownKeys (emptyStore.setInstances 0 [board]) 0 := by
      rw [hcreated]
      exact List.mem_singleton_self _
    refine ⟨"0", .inl hboard, ?_, fun _ => .inl ⟨hboard, fun callback hmem => ?_⟩⟩
    · rintro other (hother | ⟨fieldName, shown, hmem, -⟩)
      · have honly : other ∈ shownKeys (emptyStore.setInstances 0 [board]) 0 := hother
        rw [hcreated] at honly
        exact le_of_eq (List.mem_singleton.mp honly)
      · cases List.mem_singleton.mp hmem
    · refine ⟨callback, hmem, ?_, rfl⟩
      rw [List.mem_singleton.mp hmem]
      trivial
  · intro hmany
    exact absurd hmany (by decide)

/-- The answer is a list of a list. -/
def nestedAnswer [StdHash] (depth : ℕ) (state : Progress) : Bool :=
  match state.building.builder.getFragment depth state.building.store with
  | .ok (.array (.array _ :: _)) _ => true
  | _ => false

theorem not_uncorrupted_of_nestedAnswer [StdHash] {depth : ℕ} {state : Progress}
    (hnested : nestedAnswer depth state = true) (hquiet : state.unwound = false) :
    ¬Uncorrupted depth state := by
  rw [nestedAnswer] at hnested
  split at hnested
  · next hfragment =>
      rw [Uncorrupted, hfragment]
      exact fun hshaped => hshaped hquiet _ List.mem_cons_self
  · cases hnested

/-- A board that appears after the construction makes its fragment an array. -/
theorem late_instance :
    ¬∀ (_ : StdHash) (depth : ℕ) (entity : EntityId) (state : Progress),
      (machine depth entity).Reachable state → Uncorrupted depth state := by
  intro hclaim
  let hash : StdHash := ⟨64, fun _ => 0⟩
  have hstart := Machine.Reachable.start (M := machine 1 0)
    ⟨emptyStore, "Board", _, _, none, rfl, rfl⟩
  have hpublished := hstart.next (.publish : Steps 1 0 _ (.publish 0 [board]) _)
  have hreach := hpublished.next (.scalar rfl rfl : Steps 1 0 _ (.scalar "Name") _)
  exact not_uncorrupted_of_nestedAnswer (by decide +kernel) rfl (hclaim hash 1 0 _ hreach)

end Sample

end Interleaving

end ObmcWebapp.Graphql
