/-
# The status of a sensor

An enumeration of the sensors is to give each of them the highest severity among OK and
what the status instances of the provider report on its path. Severities form a linear
order, so the order in which the instances are applied would play no role, and neither
would the status a sensor had before: it is reset to OK first.

What happens is decided by the first instance that meets a sensor, in the order the
sensors and for each the status instances are visited. If its status is unknown the
enumeration throws, as it is to do. If it is known the enumeration reads a destroyed name.
Only when no instance meets a sensor does the enumeration return.
-/

import ObmcWebapp.Entities.SensorLinks

namespace ObmcWebapp.Entities

open ObmcWebapp.Core definitions

namespace Sensors

/-- The status and the causer of an instance, where it has them, are strings. -/
def StringFields (supplementing : Instance) : Prop :=
  ∀ member ∈ [status.fieldStatus, status.fieldObjectCauthPath], ∀ value,
    supplementing.memberInstances.find? member = some value → ∃ text, value = .string text

theorem StringFields.status {supplementing : Instance} (hstrings : StringFields supplementing) :
    ∃ text, Instance.getField .notAvailable supplementing status.fieldStatus = .string text := by
  unfold Instance.getField
  cases hfound : supplementing.memberInstances.find? status.fieldStatus with
  | none => exact ⟨_, rfl⟩
  | some value => exact hstrings _ (by simp) value hfound

/-- A sensor with the status of a severity. -/
def withStatus (target : Instance) (severity : Severity) : Instance :=
  target.supplementOrUpdate status.fieldStatus (.string severity.name)

/-- How the comparison of what an instance reports with an OK sensor ends. -/
def meeting (supplementing : Instance) : RuleFailure :=
  match Instance.getField .notAvailable supplementing status.fieldStatus with
  | .string candidate => comparison candidate Severity.ok.name
  | _ => .destroyedName

/-- A reported severity meets the sensor with a read of a destroyed name. -/
theorem meeting_of_reported {supplementing : Instance} {severity : Severity}
    (hreported : Status.reported supplementing = some severity) :
    meeting supplementing = .destroyedName := by
  obtain ⟨text, htext, hseverity⟩ := Status.reported_eq_some_iff.mp hreported
  rw [meeting, htext]
  exact comparison_known hseverity (Severity.ofStatus?_name .ok)

theorem meeting_of_unknown {supplementing : Instance} (hstrings : StringFields supplementing)
    (hunknown : Status.reported supplementing = none) :
    ∃ what, meeting supplementing = .raised (.obmcApp what) := by
  obtain ⟨text, htext⟩ := hstrings.status
  rw [Status.reported, htext] at hunknown
  rw [meeting, htext]
  exact comparison_unknown (.inl hunknown)

/-- The rule with one instance and a reset sensor. -/
theorem effect_reset {supplementing target : Instance} {path : String}
    (hstrings : StringFields supplementing)
    (hpath : target.memberInstances.find? metaObjectPath = some (.string path)) :
    effect linkStatus supplementing (withStatus target .ok) =
      if Status.Blames path supplementing then .error (meeting supplementing)
      else .ok (withStatus target .ok) := by
  have hne : metaObjectPath ≠ status.fieldStatus := by decide
  have hown : Instance.getField .notAvailable (withStatus target .ok) metaObjectPath =
      .string path := by
    simp [Instance.getField, withStatus, hne, hpath]
  have hstatus : Instance.getField .notAvailable (withStatus target .ok) status.fieldStatus =
      .string Severity.ok.name := by
    simp [Instance.getField, withStatus]
  obtain ⟨text, htext⟩ := hstrings.status
  split_ifs with hblames
  · rw [effect_of_concerns (concerns_iff.mpr ⟨⟨path, hown, hblames⟩, htext, hstatus⟩), meeting,
      htext]
  · apply effect_of_not_concerned
    rintro ⟨candidate, current, hconcerns⟩
    obtain ⟨⟨named, hnamed, hcauser⟩, -, -⟩ := concerns_iff.mp hconcerns
    cases hown.symm.trans hnamed
    exact hblames hcauser

/-- The instances that report on a path, in the order the provider shows them. -/
def blaming (supplements : List Instance) (path : String) : List Instance :=
  supplements.filter fun supplementing => Status.Blames path supplementing

/-- All instances together leave a reset sensor as it is, or end as the first one that
reports on it does. -/
theorem linkAll_reset {supplements : List Instance} {target : Instance} {path : String}
    (hstrings : ∀ supplementing ∈ supplements, StringFields supplementing)
    (hpath : target.memberInstances.find? metaObjectPath = some (.string path)) :
    linkAll (statusLinks supplements) (withStatus target .ok) =
      (blaming supplements path).head?.elim (.ok (withStatus target .ok)) fun supplementing =>
        .error (meeting supplementing) := by
  induction supplements with
  | nil => rfl
  | cons first supplements ih =>
      have hrest := ih fun later hlater => hstrings later (List.mem_cons_of_mem _ hlater)
      rw [statusLinks, List.map_cons, linkAll, List.foldlM_cons,
        effect_reset (hstrings first List.mem_cons_self) hpath, blaming, List.filter_cons]
      by_cases hblames : Status.Blames path first
      · simp [hblames]
        rfl
      · simp only [hblames, decide_false, if_false, Bool.false_eq_true]
        exact hrest

section Enumerating

variable [StdHash]

/-- A published sensor: it has the query of the sensors and its path among its fields,
and none of its children is another object. -/
structure IsSensor (inst : DBusInstance) : Prop where
  dbusQuery : inst.dbusQuery = query
  objectPath : inst.memberInstances.find? metaObjectPath = some (.string inst.objectPath)
  children : ∀ hash child, inst.complexInstances.find? hash = some child → hash = inst.getHash

/-- A published sensor with the highest severity reported on it. -/
def statused (supplements : List Instance) (inst : DBusInstance) : DBusInstance :=
  { inst with toInstance := withStatus inst.toInstance (Status.highest supplements inst.objectPath) }

/-- A published sensor with the status OK. -/
def resetStatus (inst : DBusInstance) : DBusInstance :=
  { inst with toInstance := withStatus inst.toInstance .ok }

theorem getHash_resetStatus (inst : DBusInstance) :
    (resetStatus inst).getHash = inst.getHash := by
  simp [Instance.getHash, resetStatus, withStatus]

omit [StdHash] in
theorem initDefaultFieldsValue_withStatus {inst : Instance}
    (hdefault : inst.dbusQuery.defaultFieldsValue =
      OrderedMap.ofList [(status.fieldStatus, .string Status.statusOK)]) :
    inst.initDefaultFieldsValue = withStatus inst .ok :=
  Instance.initDefaultFieldsValue_single (by rw [hdefault]; rfl)

namespace IsSensor

variable {inst : DBusInstance} (hsensor : IsSensor inst)

include hsensor

theorem reset : inst.initDefaultFieldsValue = resetStatus inst := by
  rw [DBusInstance.initDefaultFieldsValue, initDefaultFieldsValue_withStatus, resetStatus]
  rw [hsensor.dbusQuery]
  rfl

/-- The sensor is its only element. -/
theorem elements : inst.initDefaultFieldsValue.elements =
    OrderedMap.empty.insertOrAssign inst.getHash (withStatus inst.toInstance .ok) := by
  ext1 wanted
  rw [hsensor.reset, find?_elements, OrderedMap.find?_insertOrAssign, getHash_resetStatus]
  split_ifs with hown
  · rfl
  · cases hfound : inst.complexInstances.find? wanted with
    | none => exact hfound
    | some child => exact absurd (hsensor.children wanted child hfound) hown

end IsSensor

/-- A provider without providers of its own, which shows some instances. -/
structure Shows (provider : EntityId) (supplements : List Instance) (store : EntityStore) :
    Prop where
  notAvailable : store.notAvailable = .notAvailable
  unlinked : (store.objects provider).providers = []
  exposures : exposures store provider = supplements

theorem supplementAll_statuses {provider : EntityId} {supplements : List Instance}
    {store : EntityStore} (hshows : Shows provider supplements store) (depth : ℕ)
    (element : Instance) :
    Fallible.Follows RuleFailure.failure
      (fun _ next outcome => next = ⟨store.resetInstances provider, outcome⟩)
      (linkAll (statusLinks supplements) element)
      (Supplementing.supplementAll (fun provider => getInstances (depth + 1) provider none)
        [(provider, linkStatus)] ⟨store, element⟩) := by
  have henumerate := getInstances_reset hshows.unlinked depth
  rw [show (store.objects provider).instances.values.flatMap exposed = supplements from
    hshows.exposures] at henumerate
  have happly : ∀ supplementing ∈ supplements, ∀ state element,
      state = ⟨store.resetInstances provider, element⟩ →
      Fallible.Follows RuleFailure.failure
        (fun _ next outcome => next = ⟨store.resetInstances provider, outcome⟩)
        (effect linkStatus supplementing element)
        (Supplementing.applyRule linkStatus supplementing state) := by
    rintro supplementing - state element rfl
    have hshared : (⟨store.resetInstances provider, element⟩ : Supplementing).store.notAvailable =
        .notAvailable := hshows.notAvailable
    exact applyRule_effect linkStatus_keepsNotAvailable supplementing hshared
  have hwalk := Fallible.forEach_follows happly
    (show (⟨store.resetInstances provider, element⟩ : Supplementing) = ⟨_, element⟩ from rfl)
  have hlinks : linkAll (statusLinks supplements) element = supplements.foldlM
      (fun target supplementing => effect linkStatus supplementing target) element := by
    rw [linkAll, statusLinks, List.foldlM_map]
  have hsupplement : Supplementing.supplementAll
      (fun provider => getInstances (depth + 1) provider none) [(provider, linkStatus)]
      ⟨store, element⟩ =
        Fallible.forEach (Supplementing.applyRule linkStatus) supplements
          ⟨store.resetInstances provider, element⟩ := by
    unfold Supplementing.supplementAll Supplementing.supplementInstance
    rw [Fallible.forEach, Fallible.forEach, bind_pure_unit, Fallible.bind_ok
      (Fallible.zoom_ok henumerate)]
  rw [hlinks, hsupplement]
  exact hwalk

/-- The visit of a sensor follows the links of the reset sensor. -/
theorem visitInstance_statuses {provider : EntityId} {supplements : List Instance}
    {store : EntityStore} (hshows : Shows provider supplements store) {stored : ℕ × DBusInstance}
    (hsensor : IsSensor stored.2) (depth : ℕ) (sensors : EntityId) :
    Fallible.Follows RuleFailure.failure
      (fun value next outcome => value = outcome ∧
        next = (store.resetInstances provider).putInstance sensors stored.1 (resetStatus stored.2))
      ((linkAll (statusLinks supplements) (withStatus stored.2.toInstance .ok)).map fun shown =>
        [shown])
      (Visiting.visitInstance (fun provider => getInstances (depth + 1) provider none)
        [(provider, linkStatus)] none sensors stored store) := by
  have hsupplement := supplementAll_statuses hshows depth (withStatus stored.2.toInstance .ok)
  have hput : (⟨store, resetStatus stored.2⟩ : Visiting).putElement stored.2.getHash
      ⟨store.resetInstances provider, withStatus stored.2.toInstance .ok⟩ =
        ⟨store.resetInstances provider, resetStatus stored.2⟩ := by
    rw [Visiting.putElement, if_pos (getHash_resetStatus stored.2).symm]
    rfl
  unfold Visiting.visitInstance
  simp only [Fallible.zoom, hsensor.elements]
  simp only [OrderedMap.insertOrAssign, OrderedMap.empty, Entries.insertOrAssign,
    Fallible.collect, bind_assoc, pure_bind]
  cases hlink : linkAll (statusLinks supplements) (withStatus stored.2.toInstance .ok) with
  | ok after =>
      obtain rfl := eq_of_linkAll hlink
      rw [hlink] at hsupplement
      obtain ⟨value, next, hresult, rfl⟩ := hsupplement
      have hvisit : Visiting.visitElement (fun provider => getInstances (depth + 1) provider none)
          [(provider, linkStatus)] none (stored.2.getHash, withStatus stored.2.toInstance .ok)
          ⟨store, stored.2.initDefaultFieldsValue⟩ =
            .ok (some (withStatus stored.2.toInstance .ok))
              ⟨store.resetInstances provider, resetStatus stored.2⟩ := by
        rw [hsensor.reset]
        simp only [Visiting.visitElement, hresult, hput]
        rfl
      rw [Fallible.bind_ok hvisit]
      exact ⟨_, _, rfl, rfl, rfl⟩
  | error failed =>
      rw [hlink] at hsupplement
      obtain ⟨next, hresult⟩ := hsupplement
      have hvisit : ∃ after, Visiting.visitElement
          (fun provider => getInstances (depth + 1) provider none) [(provider, linkStatus)] none
          (stored.2.getHash, withStatus stored.2.toInstance .ok)
          ⟨store, stored.2.initDefaultFieldsValue⟩ = .error failed.failure after := by
        simp only [Visiting.visitElement, hresult]
        exact ⟨_, rfl⟩
      obtain ⟨after, hvisit⟩ := hvisit
      rw [Fallible.bind_error hvisit]
      exact ⟨_, rfl⟩

/-! ## The enumeration of the sensors -/

/-- A sensors entity with its status provider. -/
structure Panel (store : EntityStore) (sensors provider : EntityId) : Prop where
  notAvailable : store.notAvailable = .notAvailable
  linked : (store.objects sensors).providers = [(provider, linkStatus)]
  unlinked : (store.objects provider).providers = []
  sensor : ∀ inst ∈ (store.objects sensors).instances.values, IsSensor inst
  statusObject : ∀ inst ∈ (store.objects provider).instances.values,
    inst.dbusQuery = Status.query
  strings : ∀ supplementing ∈ exposures store provider, StringFields supplementing

/-- What the enumeration shows when every status can be read. -/
def statusedSensors (store : EntityStore) (sensors provider : EntityId) : List Instance :=
  (store.objects sensors).instances.values.map fun inst =>
    (statused (exposures store provider) inst).toInstance

/-- The store after an enumeration that returns: without sensors the provider is not
asked. -/
def resetStore (store : EntityStore) (sensors provider : EntityId) : EntityStore :=
  if (store.objects sensors).instances.entries = [] then store
  else (store.resetInstances provider).mapInstances sensors resetStatus

/-- The status instances that meet a sensor, in the order of the visits. -/
def meetings (store : EntityStore) (sensors provider : EntityId) : List Instance :=
  (store.objects sensors).instances.values.flatMap fun inst =>
    blaming (exposures store provider) inst.objectPath

theorem meetings_eq_nil_iff {store : EntityStore} {sensors provider : EntityId} :
    meetings store sensors provider = [] ↔
      ∀ inst ∈ (store.objects sensors).instances.values,
        ∀ supplementing ∈ exposures store provider,
          ¬ Status.Blames inst.objectPath supplementing := by
  simp [meetings, blaming, List.flatMap_eq_nil_iff]

/-- Where no instance meets a sensor the highest severities are OK. -/
theorem statusedSensors_of_unmet {store : EntityStore} {sensors provider : EntityId}
    (hunmet : meetings store sensors provider = []) :
    statusedSensors store sensors provider =
      (store.objects sensors).instances.values.map fun inst => (resetStatus inst).toInstance := by
  rw [meetings_eq_nil_iff] at hunmet
  apply List.map_congr_left
  intro inst hinst
  rw [statused, resetStatus, Status.highest_eq_ok (hunmet inst hinst)]

/-- A reset in between changes nothing of what an entity exposes. -/
theorem exposures_resetInstances (store : EntityStore) (provider : EntityId) :
    exposures (store.resetInstances provider) provider = exposures store provider := by
  have hexposed : ∀ inst : DBusInstance, exposed inst.initDefaultFieldsValue = exposed inst := by
    intro inst
    simp only [exposed, DBusInstance.initDefaultFieldsValue, initDefaultFieldsValue_again]
  simp [exposures, EntityStore.resetInstances, EntityStore.mapInstances,
    OrderedMap.values_mapValue, List.flatMap_map, hexposed]

omit [StdHash] in
theorem resetInstances_again (store : EntityStore) (provider : EntityId) :
    (store.resetInstances provider).resetInstances provider = store.resetInstances provider := by
  have hagain : ∀ inst : DBusInstance,
      inst.initDefaultFieldsValue.initDefaultFieldsValue = inst.initDefaultFieldsValue := by
    intro inst
    simp only [DBusInstance.initDefaultFieldsValue, initDefaultFieldsValue_again]
  have hvalues : ((store.objects provider).instances.mapValue
        fun _ inst => inst.initDefaultFieldsValue).mapValue
      (fun _ inst => inst.initDefaultFieldsValue) =
      (store.objects provider).instances.mapValue fun _ inst => inst.initDefaultFieldsValue := by
    ext1 wanted
    simp only [OrderedMap.find?_mapValue, Option.map_map, Function.comp_def, hagain]
  simp [EntityStore.resetInstances, EntityStore.mapInstances, hvalues]

namespace Panel

variable {store : EntityStore} {sensors provider : EntityId}
  (hpanel : Panel store sensors provider)

include hpanel

theorem ne : provider ≠ sensors := by
  intro hsame
  have hunlinked := hpanel.unlinked
  rw [hsame, hpanel.linked] at hunlinked
  cases hunlinked

theorem shows : Shows provider (exposures store provider) store where
  notAvailable := hpanel.notAvailable
  unlinked := hpanel.unlinked
  exposures := rfl

/-- What one visit leaves shows the same. -/
theorem shows_step {state : EntityStore} (hshows : Shows provider (exposures store provider) state)
    (hash : ℕ) (inst : DBusInstance) :
    Shows provider (exposures store provider)
      ((state.resetInstances provider).putInstance sensors hash inst) where
  notAvailable := hshows.notAvailable
  unlinked := by
    simp [EntityStore.putInstance, EntityStore.resetInstances, EntityStore.mapInstances,
      hpanel.ne, hshows.unlinked]
  exposures := by
    have hprovider : ((state.resetInstances provider).putInstance sensors hash inst).objects
        provider = (state.resetInstances provider).objects provider := by
      simp [EntityStore.putInstance, hpanel.ne]
    rw [Entities.exposures, hprovider]
    exact (exposures_resetInstances state provider).trans hshows.exposures

/-- Visiting the sensors one by one, each time resetting the provider first, comes to one
reset and one rewriting. -/
theorem foldl_visits (rewritten : DBusInstance → DBusInstance) :
    (store.objects sensors).instances.entries.foldl (fun state stored =>
        (state.resetInstances provider).putInstance sensors stored.1 (rewritten stored.2)) store =
      if (store.objects sensors).instances.entries = [] then store
      else (store.resetInstances provider).mapInstances sensors rewritten := by
  have hput : ∀ (state : EntityStore) hash inst, state.resetInstances provider = state →
      (state.putInstance sensors hash inst).resetInstances provider =
        state.putInstance sensors hash inst := by
    intro state hash inst hreset
    have hobjects := congrArg EntityStore.objects hreset
    simp only [EntityStore.resetInstances, EntityStore.mapInstances] at hobjects
    simp only [EntityStore.putInstance, EntityStore.resetInstances, EntityStore.mapInstances,
      Function.update_of_ne hpanel.ne]
    rw [Function.update_comm hpanel.ne.symm, hobjects]
  have hfold : ∀ (items : List (ℕ × DBusInstance)) (state : EntityStore),
      state.resetInstances provider = state →
      items.foldl (fun state stored =>
        (state.resetInstances provider).putInstance sensors stored.1 (rewritten stored.2)) state =
      items.foldl (fun state stored =>
        state.putInstance sensors stored.1 (rewritten stored.2)) state := by
    intro items
    induction items with
    | nil => exact fun state _ => rfl
    | cons stored items ih =>
        intro state hreset
        rw [List.foldl_cons, List.foldl_cons, hreset]
        exact ih _ (hput state stored.1 (rewritten stored.2) hreset)
  have hsensors : (store.resetInstances provider).objects sensors = store.objects sensors := by
    simp [EntityStore.resetInstances, EntityStore.mapInstances, hpanel.ne.symm]
  have hentries := EntityStore.foldl_putInstance_entries (store.resetInstances provider) sensors
    rewritten
  rw [hsensors] at hentries
  rw [← hentries]
  cases (store.objects sensors).instances.entries with
  | nil => rfl
  | cons stored items =>
      rw [if_neg (List.cons_ne_nil _ _), List.foldl_cons, List.foldl_cons]
      exact hfold items _ (hput _ stored.1 _ (resetInstances_again store provider))

/-- The enumeration of the sensors ends as the first instance that meets one of them does. -/
theorem getInstances_statuses {depth : ℕ} (hdepth : 2 ≤ depth) :
    match (meetings store sensors provider).head? with
    | none => getInstances depth sensors none store =
        .ok (statusedSensors store sensors provider) (resetStore store sensors provider)
    | some supplementing => ∃ after,
        getInstances depth sensors none store = .error (meeting supplementing).failure after := by
  obtain ⟨depth, rfl⟩ : ∃ rest, depth = rest + 1 + 1 := ⟨depth - 2, by omega⟩
  let visits (visited : List (ℕ × DBusInstance)) : EntityStore :=
    visited.foldl (fun state stored =>
      (state.resetInstances provider).putInstance sensors stored.1 (resetStatus stored.2)) store
  have hvisit : ∀ visited stored rest,
      [] ++ (store.objects sensors).instances.entries = visited ++ stored :: rest → ∀ state,
      Shows provider (exposures store provider) state ∧ state = visits visited →
      Fallible.Follows RuleFailure.failure
        (fun value next outcome => value = outcome ∧
          Shows provider (exposures store provider) next ∧ next = visits (visited ++ [stored]))
        ((linkAll (statusLinks (exposures store provider))
          (withStatus stored.2.toInstance .ok)).map fun shown => [shown])
        (Visiting.visitInstance (fun provider => getInstances (depth + 1) provider none)
          (store.objects sensors).providers none sensors stored state) := by
    rintro visited stored rest hsplit state ⟨hshows, hstate⟩
    have hmem : stored ∈ (store.objects sensors).instances.entries := by
      rw [← List.nil_append (store.objects sensors).instances.entries, hsplit]
      simp
    have hfollows := visitInstance_statuses hshows (hpanel.sensor _ (List.mem_map_of_mem hmem))
      depth sensors
    rw [hpanel.linked]
    apply hfollows.imp
    rintro value next outcome ⟨hvalue, rfl⟩
    refine ⟨hvalue, hpanel.shows_step hshows _ _, ?_⟩
    simp only [visits, List.foldl_append, List.foldl_cons, List.foldl_nil, hstate]
  have hcollect := Fallible.collect_follows hvisit ⟨hpanel.shows, rfl⟩
  have hmeaning : (store.objects sensors).instances.entries.mapM (fun stored =>
      (linkAll (statusLinks (exposures store provider))
        (withStatus stored.2.toInstance .ok)).map fun shown => [shown]) =
      (meetings store sensors provider).head?.elim
        (.ok ((store.objects sensors).instances.entries.map fun stored =>
          [(resetStatus stored.2).toInstance])) fun supplementing =>
        .error (meeting supplementing) := by
    rw [meetings, OrderedMap.values, List.flatMap_map]
    apply Fallible.mapM_head?
    intro stored hmem
    rw [linkAll_reset hpanel.strings (hpanel.sensor _ (List.mem_map_of_mem hmem)).objectPath]
    cases (blaming (exposures store provider) stored.2.objectPath).head? <;> rfl
  rw [hmeaning] at hcollect
  cases hmeet : (meetings store sensors provider).head? with
  | none =>
      rw [hmeet] at hcollect
      obtain ⟨values, next, hresult, rfl, -, rfl⟩ := hcollect
      simp only
      rw [getInstances_succ, Fallible.bind_ok hresult, Fallible.pure_apply,
        statusedSensors_of_unmet (List.head?_eq_none_iff.mp hmeet), resetStore,
        ← hpanel.foldl_visits]
      congr 1
      rw [OrderedMap.values, List.map_map, ← List.flatMap_def]
      exact List.map_eq_flatMap.symm
  | some supplementing =>
      rw [hmeet] at hcollect
      obtain ⟨next, hresult⟩ := hcollect
      simp only
      rw [getInstances_succ, Fallible.bind_error hresult]
      exact ⟨_, rfl⟩

end Panel

/-- Two published instances that differ in their status at most. -/
structure SameButStatus (first second : DBusInstance) : Prop where
  object : SameObject first.toInstance second.toInstance
  fields : ∀ member, member ≠ status.fieldStatus →
    first.memberInstances.find? member = second.memberInstances.find? member
  children : first.complexInstances = second.complexInstances

omit [StdHash] in
theorem SameButStatus.refl (inst : DBusInstance) : SameButStatus inst inst :=
  ⟨⟨rfl, rfl, rfl⟩, fun _ _ => rfl, rfl⟩

omit [StdHash] in
theorem sameButStatus_withStatus (inst : DBusInstance) (severity : Severity) :
    SameButStatus { inst with toInstance := withStatus inst.toInstance severity } inst where
  object := ⟨by simp [withStatus], by simp [withStatus], by simp [withStatus]⟩
  fields member hmember := by simp [withStatus, hmember]
  children := rfl

omit [StdHash] in
/-- The status an instance had does not show in the one it is given. -/
theorem SameButStatus.withStatus_eq {first second : DBusInstance}
    (hsame : SameButStatus first second) (severity : Severity) :
    withStatus first.toInstance severity = withStatus second.toInstance severity := by
  have hobject : SameObject (withStatus first.toInstance severity)
      (withStatus second.toInstance severity) :=
    ((sameButStatus_withStatus first severity).object.trans hsame.object).trans
      (sameButStatus_withStatus second severity).object.symm
  apply hobject.eq
  intro member
  by_cases hmember : member = status.fieldStatus
  · simp [withStatus, hmember]
  · simpa [withStatus, hmember] using hsame.fields member hmember

theorem SameButStatus.isSensor {first second : DBusInstance} (hsame : SameButStatus first second)
    (hsensor : IsSensor second) : IsSensor first where
  dbusQuery := hsame.object.dbusQuery.trans hsensor.dbusQuery
  objectPath := by
    rw [hsame.fields metaObjectPath (by decide), hsensor.objectPath, hsame.object.objectPath]
  children hash child hfound := by
    rw [hsame.children] at hfound
    exact (hsensor.children hash child hfound).trans hsame.object.getHash.symm

/-- The published instances of an entity in two stores differ in their statuses at most. -/
def SameButStatuses (first second : EntityStore) (entity : EntityId) : Prop :=
  ∀ hash, Option.Rel SameButStatus ((first.objects entity).instances.find? hash)
    ((second.objects entity).instances.find? hash)

omit [StdHash] in
theorem SameButStatuses.mem {first second : EntityStore} {entity : EntityId}
    (hsame : SameButStatuses first second entity) {inst : DBusInstance}
    (hinst : inst ∈ (first.objects entity).instances.values) :
    ∃ other ∈ (second.objects entity).instances.values, SameButStatus inst other := by
  obtain ⟨hash, hfound⟩ := OrderedMap.mem_values_iff.mp hinst
  have hrel := hsame hash
  rw [hfound] at hrel
  cases hother : (second.objects entity).instances.find? hash with
  | none => rw [hother] at hrel; cases hrel
  | some other =>
      rw [hother] at hrel
      cases hrel with
      | some hrel => exact ⟨other, OrderedMap.mem_values_iff.mpr ⟨hash, hother⟩, hrel⟩

section Related

variable {first second : EntityStore} {sensors provider : EntityId}
  (hvisible : (exposures first provider).Perm (exposures second provider))
  (hsame : SameButStatuses first second sensors)

include hvisible hsame

/-- Neither the order of the provider's instances nor the earlier statuses show. -/
theorem statusedSensors_congr :
    statusedSensors first sensors provider = statusedSensors second sensors provider := by
  have hstatused : ∀ inst other : DBusInstance, SameButStatus inst other →
      (statused (exposures first provider) inst).toInstance =
        (statused (exposures second provider) other).toInstance := by
    intro inst other hrel
    simp only [statused, Status.highest_perm hvisible, hrel.object.objectPath]
    exact hrel.withStatus_eq _
  have hmap : (first.objects sensors).instances.mapValue
        (fun _ inst => (statused (exposures first provider) inst).toInstance) =
      (second.objects sensors).instances.mapValue
        fun _ inst => (statused (exposures second provider) inst).toInstance := by
    ext1 hash
    rw [OrderedMap.find?_mapValue, OrderedMap.find?_mapValue]
    have hrel := hsame hash
    generalize (first.objects sensors).instances.find? hash = left at hrel ⊢
    generalize (second.objects sensors).instances.find? hash = right at hrel ⊢
    cases hrel with
    | some hrel => exact congrArg some (hstatused _ _ hrel)
    | none => rfl
  rw [statusedSensors, statusedSensors, ← OrderedMap.values_mapValue, hmap,
    OrderedMap.values_mapValue]

theorem unmet_of_related (hunmet : meetings second sensors provider = []) :
    meetings first sensors provider = [] := by
  rw [meetings_eq_nil_iff] at hunmet ⊢
  intro inst hinst supplementing hmem
  obtain ⟨other, hother, hrel⟩ := hsame.mem hinst
  rw [hrel.object.objectPath]
  exact hunmet other hother supplementing (hvisible.mem_iff.mp hmem)

end Related

namespace Panel

variable {store : EntityStore} {sensors provider : EntityId}
  (hpanel : Panel store sensors provider)

include hpanel

/-- An enumeration changes statuses only, in whatever entity. -/
theorem resetStore_same (entity : EntityId) :
    SameButStatuses (resetStore store sensors provider) store entity := by
  intro hash
  unfold resetStore
  split_ifs with hnone
  · cases (store.objects entity).instances.find? hash with
    | none => exact .none
    | some inst => exact .some (SameButStatus.refl inst)
  · by_cases hsensors : entity = sensors
    · subst hsensors
      cases hfound : (store.objects entity).instances.find? hash with
      | none =>
          simp [EntityStore.mapInstances, EntityStore.resetInstances, hpanel.ne.symm, hfound]
      | some inst =>
          simp only [EntityStore.mapInstances, EntityStore.resetInstances,
            Function.update_of_ne hpanel.ne.symm, Function.update_self, OrderedMap.find?_mapValue,
            hfound, Option.map_some]
          exact .some (sameButStatus_withStatus inst _)
    · by_cases hprovider : entity = provider
      · subst hprovider
        cases hfound : (store.objects entity).instances.find? hash with
        | none =>
            simp [EntityStore.mapInstances, EntityStore.resetInstances, hpanel.ne, hfound]
        | some inst =>
            have hquery := hpanel.statusObject inst (OrderedMap.mem_values_iff.mpr ⟨hash, hfound⟩)
            have hreset : inst.initDefaultFieldsValue =
                { inst with toInstance := withStatus inst.toInstance .ok } := by
              rw [DBusInstance.initDefaultFieldsValue, initDefaultFieldsValue_withStatus]
              rw [hquery]
              rfl
            simp only [EntityStore.mapInstances, EntityStore.resetInstances,
              Function.update_of_ne hpanel.ne, Function.update_self, OrderedMap.find?_mapValue,
              hfound, Option.map_some, hreset]
            exact .some (sameButStatus_withStatus inst _)
      · simp only [EntityStore.mapInstances, EntityStore.resetInstances,
          Function.update_of_ne hsensors, Function.update_of_ne hprovider]
        cases (store.objects entity).instances.find? hash with
        | none => exact .none
        | some inst => exact .some (SameButStatus.refl inst)

theorem exposures_resetStore :
    exposures (resetStore store sensors provider) provider = exposures store provider := by
  unfold resetStore
  split_ifs with hnone
  · rfl
  · have hprovider : ((store.resetInstances provider).mapInstances sensors resetStatus).objects
        provider = (store.resetInstances provider).objects provider := by
      simp [EntityStore.mapInstances, hpanel.ne]
    rw [exposures, hprovider]
    exact exposures_resetInstances store provider

/-- The published sensors are left as they are shown. -/
theorem values_resetStore (hunmet : meetings store sensors provider = []) :
    ((resetStore store sensors provider).objects sensors).instances.values.map
        DBusInstance.toInstance = statusedSensors store sensors provider := by
  rw [statusedSensors_of_unmet hunmet]
  unfold resetStore
  split_ifs with hnone
  · simp [OrderedMap.values, hnone]
  · simp [EntityStore.mapInstances, EntityStore.resetInstances, hpanel.ne.symm,
      OrderedMap.values_mapValue, Function.comp_def]

theorem resetStore_panel : Panel (resetStore store sensors provider) sensors provider where
  notAvailable := by
    unfold resetStore
    split_ifs <;> exact hpanel.notAvailable
  linked := by
    unfold resetStore
    split_ifs
    · exact hpanel.linked
    · simp [EntityStore.mapInstances, EntityStore.resetInstances, hpanel.ne.symm, hpanel.linked]
  unlinked := by
    unfold resetStore
    split_ifs
    · exact hpanel.unlinked
    · simp [EntityStore.mapInstances, EntityStore.resetInstances, hpanel.ne, hpanel.unlinked]
  sensor inst hinst := by
    obtain ⟨other, hother, hsame⟩ := (hpanel.resetStore_same sensors).mem hinst
    exact hsame.isSensor (hpanel.sensor other hother)
  statusObject inst hinst := by
    obtain ⟨other, hother, hsame⟩ := (hpanel.resetStore_same provider).mem hinst
    exact hsame.object.dbusQuery.trans (hpanel.statusObject other hother)
  strings supplementing hmem := by
    rw [hpanel.exposures_resetStore] at hmem
    exact hpanel.strings supplementing hmem

end Panel

/-- A status on a sensor's path cannot be read. -/
def Unreadable (supplements : List Instance) (inst : DBusInstance) : Prop :=
  ∃ supplementing ∈ supplements, Status.Blames inst.objectPath supplementing ∧
    Status.reported supplementing = none

/-- What an enumeration of the sensors is to do. It throws exactly when a status on one of
them cannot be read. Otherwise every sensor is shown and left with the highest severity
reported on it, nothing but statuses has changed, a further enumeration shows the same,
and so does one of any store that differs in the order of the provider's instances and in
the statuses of the sensors. -/
def ShowsHighest (depth : ℕ) (store : EntityStore) (sensors provider : EntityId) : Prop :=
  ((∃ what after, getInstances depth sensors none store =
      .error (.raised (.obmcApp what)) after) ↔
    ∃ inst ∈ (store.objects sensors).instances.values,
      Unreadable (exposures store provider) inst) ∧
  ((∃ what after, getInstances depth sensors none store =
      .error (.raised (.obmcApp what)) after) ∨
    ∃ after, getInstances depth sensors none store =
        .ok (statusedSensors store sensors provider) after ∧
      (after.objects sensors).instances.values.map DBusInstance.toInstance =
        statusedSensors store sensors provider ∧
      (∀ entity, SameButStatuses after store entity) ∧
      (∃ last, getInstances depth sensors none after =
        .ok (statusedSensors store sensors provider) last) ∧
      ∀ other, Panel other sensors provider →
        (exposures other provider).Perm (exposures store provider) →
        SameButStatuses other store sensors →
        ∃ last, getInstances depth sensors none other =
          .ok (statusedSensors store sensors provider) last)

namespace Panel

variable {store : EntityStore} {sensors provider : EntityId}
  (hpanel : Panel store sensors provider)

include hpanel

theorem showsHighest_of_unmet (hunmet : meetings store sensors provider = []) {depth : ℕ}
    (hdepth : 2 ≤ depth) : ShowsHighest depth store sensors provider := by
  have hresult : ∀ other, Panel other sensors provider → meetings other sensors provider = [] →
      getInstances depth sensors none other =
        .ok (statusedSensors other sensors provider) (resetStore other sensors provider) := by
    intro other hother hnone
    have hends := hother.getInstances_statuses hdepth
    rwa [hnone] at hends
  have hrelated : ∀ other, Panel other sensors provider →
      (exposures other provider).Perm (exposures store provider) →
      SameButStatuses other store sensors →
      ∃ last, getInstances depth sensors none other =
        .ok (statusedSensors store sensors provider) last := by
    intro other hother hvisible hsame
    rw [← statusedSensors_congr hvisible hsame]
    exact ⟨_, hresult other hother (unmet_of_related hvisible hsame hunmet)⟩
  have hown := hresult store hpanel hunmet
  refine ⟨⟨?_, ?_⟩, .inr ⟨_, hown, hpanel.values_resetStore hunmet, hpanel.resetStore_same, ?_,
    hrelated⟩⟩
  · rintro ⟨what, after, herror⟩
    rw [hown] at herror
    cases herror
  · rintro ⟨inst, hinst, supplementing, hmem, hblames, -⟩
    exact absurd hblames (meetings_eq_nil_iff.mp hunmet inst hinst supplementing hmem)
  · exact hrelated _ hpanel.resetStore_panel (List.Perm.of_eq hpanel.exposures_resetStore)
      (hpanel.resetStore_same sensors)

theorem showsHighest_of_unknown {supplementing : Instance}
    (hmeeting : (meetings store sensors provider).head? = some supplementing)
    (hunknown : Status.reported supplementing = none) {depth : ℕ} (hdepth : 2 ≤ depth) :
    ShowsHighest depth store sensors provider := by
  obtain ⟨inst, hinst, hblaming⟩ := List.mem_flatMap.mp (List.mem_of_mem_head? hmeeting)
  obtain ⟨hmem, hblames⟩ := List.mem_filter.mp hblaming
  have hends := hpanel.getInstances_statuses hdepth
  rw [hmeeting] at hends
  obtain ⟨after, herror⟩ := hends
  obtain ⟨what, hwhat⟩ := meeting_of_unknown (hpanel.strings supplementing hmem) hunknown
  rw [hwhat] at herror
  have hunreadable : Unreadable (exposures store provider) inst :=
    ⟨supplementing, hmem, by simpa using hblames, hunknown⟩
  exact ⟨⟨fun _ => ⟨inst, hinst, hunreadable⟩, fun _ => ⟨what, after, herror⟩⟩,
    .inl ⟨what, after, herror⟩⟩

/-- A sensor that meets a known status first has no status at all. -/
theorem not_showsHighest_of_reported {supplementing : Instance} {severity : Severity}
    (hmeeting : (meetings store sensors provider).head? = some supplementing)
    (hreported : Status.reported supplementing = some severity) {depth : ℕ}
    (hdepth : 2 ≤ depth) : ¬ ShowsHighest depth store sensors provider := by
  have hends := hpanel.getInstances_statuses hdepth
  rw [hmeeting] at hends
  obtain ⟨after, herror⟩ := hends
  rw [meeting_of_reported hreported] at herror
  rintro ⟨-, ⟨what, thrown, hthrown⟩ | ⟨shown, hshown, -⟩⟩
  · cases herror.symm.trans hthrown
  · cases herror.symm.trans hshown

end Panel

/-- An enumeration of the sensors does what it is to do exactly when no instance meets a
sensor, or the first that meets one has an unknown status. -/
theorem sensors_show_highest_iff {store : EntityStore} {sensors provider : EntityId}
    (hpanel : Panel store sensors provider) {depth : ℕ} (hdepth : 2 ≤ depth) :
    ShowsHighest depth store sensors provider ↔
      ∀ supplementing ∈ (meetings store sensors provider).head?,
        Status.reported supplementing = none := by
  cases hmeeting : (meetings store sensors provider).head? with
  | none =>
      have hunmet := List.head?_eq_none_iff.mp hmeeting
      exact iff_of_true (hpanel.showsHighest_of_unmet hunmet hdepth) nofun
  | some supplementing =>
      cases hreported : Status.reported supplementing with
      | none =>
          refine iff_of_true (hpanel.showsHighest_of_unknown hmeeting hreported hdepth) ?_
          rintro other hother
          cases hother
          exact hreported
      | some severity =>
          refine iff_of_false (hpanel.not_showsHighest_of_reported hmeeting hreported hdepth) ?_
          intro hall
          cases hreported.symm.trans (hall supplementing rfl)

/-- The child of an association that reports on an object. -/
def sampleReport (causer : String) : Instance :=
  ((Instance.create "svc" causer Status.query).supplementOrUpdate status.fieldStatus
    (.string "critical")).supplementOrUpdate status.fieldObjectCauthPath (.string causer)

def sampleStatusObject (causer : String) : DBusInstance :=
  { DBusInstance.create "svc" "/fault" Status.query with
    complexInstances := OrderedMap.empty.emplace 1 (sampleReport causer) }

/-- The sensor `/s`, and a status object with one report. -/
def panelStore (causer : String) : EntityStore where
  objects entity :=
    { name := "Sensors"
      members := OrderedMap.empty
      instances := OrderedMap.empty.emplace 0
        (if entity = 0 then DBusInstance.create "svc" "/s" query else sampleStatusObject causer)
      providers := if entity = 0 then [(1, linkStatus)] else []
      named := named_empty }
  notAvailable := .notAvailable

omit [StdHash] in
theorem sampleReport_strings (causer : String) : StringFields (sampleReport causer) := by
  intro member hmember value hfound
  rcases List.mem_pair.mp hmember with rfl | rfl
  · exact ⟨_, (Option.some.inj hfound).symm⟩
  · exact ⟨_, (Option.some.inj hfound).symm⟩

omit [StdHash] in
/-- What the status object shows. -/
theorem exposures_panelStore (causer : String) :
    let _ : StdHash := ⟨64, fun _ => 0⟩
    exposures (panelStore causer) 1 =
      [withStatus (sampleStatusObject causer).toInstance .ok, sampleReport causer] := by
  intro _
  have hreset : (sampleStatusObject causer).toInstance.initDefaultFieldsValue =
      withStatus (sampleStatusObject causer).toInstance .ok := initDefaultFieldsValue_withStatus rfl
  have hhash : (sampleStatusObject causer).initDefaultFieldsValue.getHash = 0 := by
    show (DBusInstance.create "svc" "/fault" Status.query).initDefaultFieldsValue.getHash = 0
    decide
  have hexposed : exposed (sampleStatusObject causer) =
      [withStatus (sampleStatusObject causer).toInstance .ok, sampleReport causer] := by
    rw [exposed, DBusInstance.elements, hhash, DBusInstance.initDefaultFieldsValue, hreset]
    rfl
  rw [← hexposed]
  exact List.append_nil _

omit [StdHash] in
theorem panelStore_panel (causer : String) :
    let _ : StdHash := ⟨64, fun _ => 0⟩
    Panel (panelStore causer) 0 1 := by
  intro _
  constructor
  · rfl
  · rfl
  · rfl
  · intro inst hinst
    cases List.mem_singleton.mp hinst
    refine ⟨rfl, rfl, ?_⟩
    intro childHash child hchild
    cases hchild
  · intro inst hinst
    cases List.mem_singleton.mp hinst
    rfl
  · intro supplementing hmem
    rw [exposures_panelStore] at hmem
    rcases List.mem_pair.mp hmem with rfl | rfl
    · intro member hmember value hfound
      rcases List.mem_pair.mp hmember with rfl | rfl
      · exact ⟨_, (Option.some.inj hfound).symm⟩
      · cases hfound
    · exact sampleReport_strings causer

omit [StdHash] in
/-- The report on another object leaves the sensor OK. -/
theorem sensors_show_highest_iff_aside :
    let _ : StdHash := ⟨64, fun _ => 0⟩
    ShowsHighest 2 (panelStore "/t") 0 1 := by
  intro _
  apply (sensors_show_highest_iff (panelStore_panel "/t") le_rfl).mpr
  have hunmet : meetings (panelStore "/t") 0 1 = [] := by
    rw [meetings_eq_nil_iff, exposures_panelStore]
    intro inst hinst
    cases List.mem_singleton.mp hinst
    decide
  rw [hunmet]
  nofun

omit [StdHash] in
/-- A critical report on the sensor gives it no status. -/
theorem critical_status_undefined :
    ¬ ∀ (_ : StdHash) (store : EntityStore) (sensors provider : EntityId) (depth : ℕ),
      Panel store sensors provider → 2 ≤ depth → ShowsHighest depth store sensors provider := by
  intro hclaim
  let hash : StdHash := ⟨64, fun _ => 0⟩
  have hpanel := panelStore_panel "/s"
  have hmeeting : (meetings (panelStore "/s") 0 1).head? = some (sampleReport "/s") := by
    rw [meetings, exposures_panelStore]
    rfl
  have hreported : Status.reported (sampleReport "/s") = some .critical := by decide
  exact hpanel.not_showsHighest_of_reported hmeeting hreported le_rfl
    (hclaim hash (panelStore "/s") 0 1 2 hpanel le_rfl)

end Enumerating

end Sensors

end ObmcWebapp.Entities
