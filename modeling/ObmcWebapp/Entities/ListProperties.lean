/-
# List valued properties

An element of a list of strings or doubles becomes a child of the instance, filled
through the dictionary under the name of the member. The child has the path and the
service of its parent, and with them the parent's hash. So of several elements the last
stays, and in an enumeration it gives way to the parent: whatever the provider links, the
delivery of a list leaves everything an entity exposes as it is without the list.
-/

import ObmcWebapp.Entities.Creation
import ObmcWebapp.Entities.Inventory
import ObmcWebapp.Entities.Settling

namespace ObmcWebapp.Entities

open ObmcWebapp.Core definitions

/-- The elements that are captured one by one. -/
def ComplexVariant.elements? : ComplexVariant → Option (List FieldType)
  | .strings values => some (values.map .string)
  | .doubles values => some (values.map .double)
  | .associations _ => none

variable [StdHash]

/-- Two instances of one object with the same fields, and the same children but for one
under the hash of the object. -/
structure SameShown (first second : DBusInstance) : Prop where
  toInstance : first.toInstance = second.toInstance
  children : ∀ hash, hash ≠ first.getHash →
    first.complexInstances.find? hash = second.complexInstances.find? hash

namespace SameShown

variable {first second third : DBusInstance}

theorem refl (inst : DBusInstance) : SameShown inst inst := ⟨rfl, fun _ _ => rfl⟩

theorem getHash (hsame : SameShown first second) : first.getHash = second.getHash :=
  congrArg Instance.getHash hsame.toInstance

theorem trans (hfirst : SameShown first second) (hsecond : SameShown second third) :
    SameShown first third where
  toInstance := hfirst.toInstance.trans hsecond.toInstance
  children hash hhash :=
    (hfirst.children hash hhash).trans (hsecond.children hash (hfirst.getHash ▸ hhash))

theorem initDefaultFieldsValue (hsame : SameShown first second) :
    SameShown first.initDefaultFieldsValue second.initDefaultFieldsValue where
  toInstance := congrArg Instance.initDefaultFieldsValue hsame.toInstance
  children hash hhash := hsame.children hash fun hown =>
    hhash (hown.trans (initDefaultFieldsValue_sameObject first.toInstance).getHash.symm)

/-- An enumeration visits the same elements of both. -/
theorem elements (hsame : SameShown first second) : first.elements = second.elements := by
  ext1 wanted
  rw [find?_elements, find?_elements, ← hsame.getHash]
  split_ifs with hown
  · rw [hsame.toInstance]
  · exact hsame.children wanted hown

theorem tracks : DBusInstance.Tracks SameShown where
  object hsame := by
    rw [hsame.toInstance]
    exact ⟨rfl, rfl, rfl⟩
  supplementOrUpdate {first second} hsame member value := by
    refine ⟨by rw [hsame.toInstance], fun hash hhash => hsame.children hash fun hown => hhash ?_⟩
    simpa [Instance.getHash] using hown
  clear hsame := ⟨hsame.toInstance, fun _ _ => rfl⟩
  insertComplex {first second} hsame child := by
    refine ⟨hsame.toInstance, fun hash hhash => ?_⟩
    simp only [DBusInstance.insertComplex, OrderedMap.find?_insertOrAssign,
      hsame.children hash hhash]

end SameShown

omit [StdHash] in
/-- A child is filled when the formatters accept what is delivered to it. -/
theorem fillEntries_ok {query : DBusQuery} {properties : OrderedMap PropertyName FieldType}
    (haccepts : ∀ property value, properties.find? property = some value →
      ∃ formatted, query.processScalarFormatters property value = .ok formatted)
    (entries : List (PropertyName × MemberName)) {inst : Instance}
    (hquery : inst.dbusQuery = query) :
    ∃ filled, Fallible.forEach (Instance.fillMember properties) entries inst = .ok ⟨⟩ filled ∧
      SameObject filled inst := by
  induction entries generalizing inst with
  | nil => exact ⟨inst, rfl, rfl, rfl, rfl⟩
  | cons entry entries ih =>
      have hfirst : ∃ next, Instance.fillMember properties entry inst = .ok ⟨⟩ next ∧
          SameObject next inst := by
        rw [Instance.fillMember]
        cases hfound : properties.find? entry.1 with
        | none => exact ⟨inst, rfl, rfl, rfl, rfl⟩
        | some value =>
            obtain ⟨formatted, hformat⟩ := haccepts entry.1 value hfound
            rw [← hquery] at hformat
            simp only [hformat]
            exact ⟨_, rfl, by simp, by simp, by simp⟩
      obtain ⟨next, hnext, hsame⟩ := hfirst
      obtain ⟨filled, hfilled, hrest⟩ := ih (hsame.dbusQuery.trans hquery)
      exact ⟨filled, (Fallible.bind_ok hnext).trans hfilled, hrest.trans hsame⟩

/-- A list is captured under the hash of the object. -/
theorem captureComplexDBusProperty_sameShown {member : MemberName} {values : List FieldType}
    {inst : DBusInstance}
    (haccepts : ∀ value ∈ values,
      ∃ formatted, inst.dbusQuery.processScalarFormatters member value = .ok formatted) :
    ∃ after, DBusInstance.captureComplexDBusProperty member values inst = .ok ⟨⟩ after ∧
      SameShown inst after := by
  induction values generalizing inst with
  | nil => exact ⟨inst, rfl, SameShown.refl inst⟩
  | cons value values ih =>
      have hdelivered : ∀ property found,
          (OrderedMap.empty.emplace member value).find? property = some found →
          ∃ formatted, inst.dbusQuery.processScalarFormatters property found = .ok formatted := by
        intro property found hfound
        rw [OrderedMap.find?_emplace] at hfound
        split_ifs at hfound with hproperty
        · cases hfound
          rw [hproperty]
          exact haccepts value (by simp)
        · cases hfound
      obtain ⟨filled, hfilled, hsame⟩ := fillEntries_ok hdelivered
        (inst.dbusQuery.getPropertyMemberDict member).entries
        (show (Instance.create inst.serviceName inst.objectPath inst.dbusQuery).dbusQuery =
          inst.dbusQuery from rfl)
      have hcapture : DBusInstance.captureChild
          (Instance.create inst.serviceName inst.objectPath inst.dbusQuery) member
          (OrderedMap.empty.emplace member value) inst = .ok ⟨⟩ (inst.insertComplex filled) := by
        rw [DBusInstance.captureChild, Instance.fillMembers]
        have hcreated : (Instance.create inst.serviceName inst.objectPath
          inst.dbusQuery).dbusQuery = inst.dbusQuery := rfl
        rw [hcreated, hfilled]
      have hhidden : SameShown inst (inst.insertComplex filled) := by
        refine ⟨rfl, fun hash hhash => ?_⟩
        have hown : filled.getHash = inst.getHash := hsame.getHash
        rw [DBusInstance.insertComplex, OrderedMap.find?_insertOrAssign, hown, if_neg hhash]
      have haccepts' : ∀ value ∈ values, ∃ formatted, (inst.insertComplex
          filled).dbusQuery.processScalarFormatters member value = .ok formatted :=
        fun value hmem => haccepts value (List.mem_cons_of_mem _ hmem)
      obtain ⟨after, hafter, hrest⟩ := ih haccepts'
      exact ⟨after, (Fallible.bind_ok hcapture).trans hafter, hhidden.trans hrest⟩

/-- A list among the delivered properties of an interface, which its formatters pass on
as a list whose elements the formatters of the member accept. -/
structure ListDelivery (query : DBusQuery) (interface : InterfaceName) (member : MemberName)
    (properties : DBusPropertiesMap) (values : List FieldType) where
  property : PropertyName
  delivered : DbusVariant
  list : ComplexVariant
  entry : (query.getPropertyMemberDict interface).find? property = some member
  value : properties.find? property = some delivered
  formatted : query.processFormatters property delivered = .ok (.complex list)
  elements : list.elements? = some values
  accepts : ∀ value ∈ values,
    ∃ formatted, query.processScalarFormatters member value = .ok formatted

/-- The other properties of the delivery. -/
def ListDelivery.others {query : DBusQuery} {interface : InterfaceName} {member : MemberName}
    {properties : DBusPropertiesMap} {values : List FieldType}
    (delivery : ListDelivery query interface member properties values) : DBusPropertiesMap :=
  properties.filter fun name _ => decide (name ≠ delivery.property)

/-- Filling the member of the list leaves in sight what was there. -/
theorem fillMember_list_sameShown {query : DBusQuery} {interface : InterfaceName}
    {member : MemberName} {properties : DBusPropertiesMap} {values : List FieldType}
    (delivery : ListDelivery query interface member properties values) {inst : DBusInstance}
    (hquery : inst.dbusQuery = query) :
    ∃ after, DBusInstance.fillMember properties (delivery.property, member) inst =
      .ok ⟨⟩ after ∧ SameShown inst after := by
  have haccepts := delivery.accepts
  rw [← hquery] at haccepts
  obtain ⟨after, hafter, hhidden⟩ := captureComplexDBusProperty_sameShown haccepts
  have hresolve : DBusInstance.resolveDBusVariant member (.complex delivery.list) inst =
      .ok ⟨⟩ after := by
    have helements := delivery.elements
    revert helements
    cases delivery.list with
    | strings values => intro helements; cases helements; exact hafter
    | doubles values => intro helements; cases helements; exact hafter
    | associations values => intro helements; cases helements
  refine ⟨after, ?_, hhidden⟩
  rw [DBusInstance.fillMember]
  simp only [delivery.value, hquery, delivery.formatted]
  exact hresolve

/-- A delivery with a list shows what it shows without it. -/
theorem fillMembers_sameShown {interface : InterfaceName} {member : MemberName}
    {properties : DBusPropertiesMap} {values : List FieldType} {inst others : DBusInstance}
    (delivery : ListDelivery inst.dbusQuery interface member properties values)
    (hothers : DBusInstance.fillMembers interface delivery.others inst = .ok ⟨⟩ others) :
    ∃ after, DBusInstance.fillMembers interface properties inst = .ok ⟨⟩ after ∧
      SameShown others after := by
  have hstart : SameShown inst inst ∧ inst.dbusQuery = inst.dbusQuery :=
    ⟨SameShown.refl inst, rfl⟩
  rw [DBusInstance.fillMembers] at hothers ⊢
  have hvisit : ∀ entry ∈ (inst.dbusQuery.getPropertyMemberDict interface).entries,
      ∀ first second next : DBusInstance,
      (SameShown first second ∧ second.dbusQuery = inst.dbusQuery) →
      DBusInstance.fillMember delivery.others entry first = .ok ⟨⟩ next →
      ∃ after, DBusInstance.fillMember properties entry second = .ok ⟨⟩ after ∧
        SameShown next after ∧ after.dbusQuery = inst.dbusQuery := by
    rintro ⟨name, kept⟩ hentry first second next ⟨hsame, hquery⟩ hfirst
    by_cases hname : name = delivery.property
    · -- the list itself: the walk without it does nothing here
      subst hname
      have hkept : kept = member := by
        have hfound := OrderedMap.mem_entries_iff.mp hentry
        rw [delivery.entry] at hfound
        exact (Option.some.inj hfound).symm
      have hskipped : delivery.others.find? delivery.property = none := by
        simp [ListDelivery.others]
      rw [DBusInstance.fillMember] at hfirst
      simp only [hskipped] at hfirst
      cases hfirst
      obtain ⟨after, hafter, hhidden⟩ := fillMember_list_sameShown delivery hquery
      exact ⟨after, hkept ▸ hafter, hsame.trans hhidden,
        (DBusInstance.fillMember_fields hafter).1.trans hquery⟩
    · have hother : delivery.others.find? name = properties.find? name := by
        rw [ListDelivery.others, OrderedMap.find?_filter]
        cases properties.find? name <;> simp [hname]
      obtain ⟨after, hafter, hnext⟩ := SameShown.tracks.fillMember hother hsame hfirst
      exact ⟨after, hafter, hnext,
        (DBusInstance.fillMember_fields hafter).1.trans hquery⟩
  obtain ⟨after, hafter, hsame, -⟩ := Fallible.forEach_related
    (fun first second : DBusInstance => SameShown first second ∧
      second.dbusQuery = inst.dbusQuery) hvisit hstart hothers
  exact ⟨after, hafter, hsame⟩

/-- An enumeration of the entity shows an instance with the value in a field. -/
def Exposes (depth : ℕ) (store : EntityStore) (entity : EntityId) (member : MemberName)
    (value : FieldType) : Prop :=
  ∃ shown after, getInstances (depth + 1) entity none store = .ok shown after ∧
    ∃ inst ∈ shown, inst.memberInstances.find? member = some value

/-- The published objects of an entity, reset, and their children with other hashes than
their own can all be supplemented by what the providers hold, and one of them has the value
in a field then. -/
def Held (store : EntityStore) (entity : EntityId) (member : MemberName) (value : FieldType) :
    Prop :=
  (∀ element ∈ exposures store entity,
    ∃ after, linkAll (linksOf store (exposures store) entity) element = .ok after) ∧
  ∃ element ∈ exposures store entity,
    ∃ after, linkAll (linksOf store (exposures store) entity) element = .ok after ∧
      after.memberInstances.find? member = some value

/-- When enumerations settle, the entity exposes what its published objects hold. -/
theorem exposes_iff_held {store : EntityStore} (linkage : Linkage store)
    (hshows : linkage.shows = exposures store) {depth : ℕ} {entity : EntityId}
    (hdepth : linkage.rank entity ≤ depth) (member : MemberName) (value : FieldType) :
    Exposes depth store entity member value ↔ Held store entity member value := by
  have hfollows := linkage.getInstances_follows (depth + 1) (Nat.lt_succ_of_le hdepth)
    linkage.settled_origin
  have hview : linkage.view entity =
      (exposures store entity).mapM (linkAll (linksOf store (exposures store) entity)) := by
    rw [Linkage.view, viewOf, hshows]
    exact Fallible.map_flatten_mapM _ exposed
  rw [hview] at hfollows
  rw [Held, ← Fallible.exists_mapM_mem_iff, Exposes]
  constructor
  · rintro ⟨shown, after, hshown, hvalue⟩
    rw [hshown] at hfollows
    refine ⟨shown, ?_, hvalue⟩
    cases hmapM : (exposures store entity).mapM
        (linkAll (linksOf store (exposures store) entity)) with
    | ok outcomes =>
        rw [hmapM] at hfollows
        obtain ⟨_, _, hresult, rfl, -⟩ := hfollows
        cases hresult
        rfl
    | error failed =>
        rw [hmapM] at hfollows
        obtain ⟨_, hresult⟩ := hfollows
        cases hresult
  · rintro ⟨shown, hmapM, hvalue⟩
    rw [hmapM] at hfollows
    obtain ⟨_, after, hresult, rfl, -⟩ := hfollows
    exact ⟨_, after, hresult, hvalue⟩

/-- Two stores whose published instances show the same. -/
structure SameStore (first second : EntityStore) : Prop where
  notAvailable : first.notAvailable = second.notAvailable
  providers : ∀ entity, (first.objects entity).providers = (second.objects entity).providers
  instances : ∀ entity, List.Forall₂
    (fun stored other => stored.1 = other.1 ∧ SameShown stored.2 other.2)
    (first.objects entity).instances.entries (second.objects entity).instances.entries

theorem SameStore.refl (store : EntityStore) : SameStore store store :=
  ⟨rfl, fun _ => rfl, fun _ => List.forall₂_same.mpr fun stored _ => ⟨rfl, .refl stored.2⟩⟩

theorem SameStore.putInstance {first second : EntityStore} (hsame : SameStore first second)
    (entity : EntityId) (hash : ℕ) {inst other : DBusInstance} (hinst : SameShown inst other) :
    SameStore (first.putInstance entity hash inst) (second.putInstance entity hash other) := by
  refine ⟨hsame.notAvailable, fun wanted => ?_, fun wanted => ?_⟩
  · simpa using hsame.providers wanted
  · have hinstances := hsame.instances wanted
    by_cases hwanted : wanted = entity
    · subst hwanted
      rw [EntityStore.instances_putInstance, EntityStore.instances_putInstance]
      exact Entries.forall₂_insertOrAssign hash hinstances hinst
    · rwa [first.objects_putInstance_of_ne entity wanted hash inst hwanted,
        second.objects_putInstance_of_ne entity wanted hash other hwanted]

/-- The same element is supplemented over stores that show the same. -/
structure SameSupplementing (hash : ℕ) (first second : Supplementing) : Prop where
  store : SameStore first.store second.store
  element : first.element = second.element
  getHash : first.element.getHash = hash

/-- Instances that show the same are visited over stores that do. -/
structure SameVisiting (hash : ℕ) (first second : Visiting) : Prop where
  store : SameStore first.store second.store
  inst : SameShown first.inst second.inst
  getHash : first.inst.getHash = hash

section Enumerating

open Fallible

variable {enumerate : EntityId → EStateM Failure EntityStore (List Instance)}
  (henumerate : ∀ provider first second, SameStore first second →
    Alike SameStore (enumerate provider first) (enumerate provider second))

theorem applyRule_alike (rule : ProviderLinkRule) (supplementing : Instance) {hash : ℕ}
    {first second : Supplementing} (hsame : SameSupplementing hash first second) :
    Alike (SameSupplementing hash) (Supplementing.applyRule rule supplementing first)
      (Supplementing.applyRule rule supplementing second) := by
  have hlink : first.toLink = second.toLink := by
    rw [Supplementing.toLink, Supplementing.toLink, hsame.element, hsame.store.notAvailable]
  have hput (link : LinkState) :
      SameSupplementing hash (first.putLink link) (second.putLink link) := by
    refine ⟨⟨rfl, hsame.store.providers, hsame.store.instances⟩, ?_, hsame.getHash⟩
    rw [Supplementing.putLink, Supplementing.putLink, hsame.element]
  unfold Supplementing.applyRule
  rw [hlink]
  cases rule supplementing second.toLink with
  | ok value link => exact .ok (hput link)
  | error exception link => exact .error (hput link)

include henumerate

theorem supplementAll_alike (providers : List (EntityId × ProviderLinkRule)) {hash : ℕ}
    {first second : Supplementing} (hsame : SameSupplementing hash first second) :
    Alike (SameSupplementing hash) (Supplementing.supplementAll enumerate providers first)
      (Supplementing.supplementAll enumerate providers second) := by
  apply forEach_alike _ hsame
  intro provider _ state other hstate
  apply Alike.bind
  · apply Alike.zoom (henumerate provider.1 _ _ hstate.store)
    exact fun next next' hnext => ⟨hnext, hstate.element, hstate.getHash⟩
  · intro instances next next' hnext
    exact forEach_alike (fun supplementing _ _ _ => applyRule_alike provider.2 supplementing) hnext

theorem visitElement_alike (providers : List (EntityId × ProviderLinkRule))
    (condition : Option Condition) {element : ℕ × Instance} {hash : ℕ}
    (hself : element.1 = hash → element.2.getHash = hash) {first second : Visiting}
    (hsame : SameVisiting hash first second) :
    Alike (SameVisiting hash) (Visiting.visitElement enumerate providers condition element first)
      (Visiting.visitElement enumerate providers condition element second) := by
  have hput {state other : Supplementing} (hstate : SameSupplementing element.2.getHash state other) :
      SameVisiting hash (first.putElement element.1 state) (second.putElement element.1 other) := by
    have hsecond : second.inst.getHash = hash := hsame.inst.getHash.symm.trans hsame.getHash
    unfold Visiting.putElement
    rw [hsame.getHash, hsecond]
    by_cases hown : element.1 = hash
    · have hhash : state.element.getHash = hash := hstate.getHash.trans (hself hown)
      rw [if_pos hown, if_pos hown]
      refine ⟨hstate.store, ⟨hstate.element, fun wanted hwanted => ?_⟩, hhash⟩
      apply hsame.inst.children wanted
      rwa [hsame.getHash, ← hhash]
    · rw [if_neg hown, if_neg hown]
      refine ⟨hstate.store, ⟨hsame.inst.toInstance, fun wanted hwanted => ?_⟩, hsame.getHash⟩
      simp only [OrderedMap.find?_insertOrAssign, hsame.inst.children wanted hwanted,
        hstate.element]
  have hsupplement := supplementAll_alike henumerate providers
    (show SameSupplementing element.2.getHash ⟨first.store, element.2⟩
      ⟨second.store, element.2⟩ from ⟨hsame.store, rfl, rfl⟩)
  unfold Visiting.visitElement
  generalize Supplementing.supplementAll enumerate providers ⟨first.store, element.2⟩ = result,
    Supplementing.supplementAll enumerate providers ⟨second.store, element.2⟩ = result'
    at hsupplement
  cases hsupplement with
  | ok hstate =>
      simp only [hstate.element, hstate.store.notAvailable]
      exact .ok (hput hstate)
  | error hstate => exact .error (hput hstate)

theorem visitInstance_alike (providers : List (EntityId × ProviderLinkRule))
    (condition : Option Condition) (entity : EntityId) {stored stored' : ℕ × DBusInstance}
    (hkey : stored.1 = stored'.1) (hinst : SameShown stored.2 stored'.2)
    {first second : EntityStore} (hsame : SameStore first second) :
    Alike SameStore (Visiting.visitInstance enumerate providers condition entity stored first)
      (Visiting.visitInstance enumerate providers condition entity stored' second) := by
  have hreset := hinst.initDefaultFieldsValue
  have hself : ∀ element ∈ stored.2.initDefaultFieldsValue.elements.entries,
      element.1 = stored.2.initDefaultFieldsValue.getHash →
      element.2.getHash = stored.2.initDefaultFieldsValue.getHash := by
    rintro ⟨hash, child⟩ hmem rfl
    have hfound := OrderedMap.mem_entries_iff.mp hmem
    rw [find?_elements, if_pos rfl] at hfound
    rw [← Option.some.inj hfound]
  have hpairs : List.Forall₂ (fun element other => element = other ∧
      element ∈ stored.2.initDefaultFieldsValue.elements.entries)
      stored.2.initDefaultFieldsValue.elements.entries
      stored.2.initDefaultFieldsValue.elements.entries :=
    List.forall₂_same.mpr fun element hmem => ⟨rfl, hmem⟩
  have hcollect : Alike (SameVisiting stored.2.initDefaultFieldsValue.getHash)
      (collect (Visiting.visitElement enumerate providers condition)
        stored.2.initDefaultFieldsValue.elements.entries
        ⟨first, stored.2.initDefaultFieldsValue⟩)
      (collect (Visiting.visitElement enumerate providers condition)
        stored.2.initDefaultFieldsValue.elements.entries
        ⟨second, stored'.2.initDefaultFieldsValue⟩) := by
    apply collect_alike hpairs _ ⟨hsame, hreset, rfl⟩
    rintro element _ ⟨rfl, hmem⟩ state other hstate
    exact visitElement_alike henumerate providers condition (hself element hmem) hstate
  unfold Visiting.visitInstance
  rw [← hreset.elements, ← hkey]
  have hput : ∀ next next', SameVisiting stored.2.initDefaultFieldsValue.getHash next next' →
      SameStore (next.store.putInstance entity stored.1 next.inst)
        (next'.store.putInstance entity stored.1 next'.inst) :=
    fun _ _ hnext => hnext.store.putInstance entity stored.1 hnext.inst
  refine Alike.zoom ?_ hput
  exact Alike.bind hcollect fun visited next next' hnext => .ok hnext

omit henumerate in
/-- An enumeration runs alike over stores that show the same. -/
theorem getInstances_alike (depth : ℕ) (entity : EntityId) (condition : Option Condition)
    {first second : EntityStore} (hsame : SameStore first second) :
    Alike SameStore (getInstances depth entity condition first)
      (getInstances depth entity condition second) := by
  induction depth generalizing entity condition first second with
  | zero => exact .error hsame
  | succ depth ih =>
      have hproviders := hsame.providers entity
      rw [getInstances_succ, getInstances_succ, hproviders]
      apply Alike.bind
      · apply collect_alike (hsame.instances entity) _ hsame
        rintro stored stored' ⟨hkey, hinst⟩ state other hstate
        exact visitInstance_alike (fun provider _ _ => ih provider none) _ condition entity hkey
          hinst hstate
      · exact fun visited next next' hnext => .ok hnext

end Enumerating

/-- Stores that show the same expose the same. -/
theorem SameStore.exposes_iff {first second : EntityStore} (hsame : SameStore first second)
    (depth : ℕ) (entity : EntityId) (member : MemberName) (value : FieldType) :
    Exposes depth first entity member value ↔ Exposes depth second entity member value := by
  have halike := getInstances_alike (depth + 1) entity none hsame
  unfold Exposes
  generalize getInstances (depth + 1) entity none first = result,
    getInstances (depth + 1) entity none second = result' at halike
  cases halike with
  | ok hrel => simp
  | error hrel => simp

/-- Of two lists of values, the entity exposes all of the first and nothing of the second
that is not in the first. -/
def Lists (exposes : FieldType → Prop) (values earlier : List FieldType) : Prop :=
  (∀ value ∈ values, exposes value) ∧ ∀ value ∈ earlier, value ∉ values → ¬ exposes value

/-- The delivery of a list leaves what the entity exposes as it is without the list. -/
theorem exposes_delivered {store : EntityStore} {entity : EntityId} {interface : InterfaceName}
    {member : MemberName} {properties : DBusPropertiesMap} {values : List FieldType}
    {inst others : DBusInstance}
    (delivery : ListDelivery inst.dbusQuery interface member properties values)
    (hothers : DBusInstance.fillMembers interface delivery.others inst = .ok ⟨⟩ others)
    (depth hash : ℕ) :
    ∃ after, DBusInstance.fillMembers interface properties inst = .ok ⟨⟩ after ∧
      Exposes depth (store.putInstance entity hash after) entity member =
        Exposes depth (store.putInstance entity hash others) entity member := by
  obtain ⟨after, hafter, hsame⟩ := fillMembers_sameShown delivery hothers
  have hstore := (SameStore.refl store).putInstance entity hash hsame
  exact ⟨after, hafter, funext fun value => propext
    (hstore.exposes_iff depth entity member value).symm⟩

omit [StdHash]

def relationObject : DBusInstance :=
  DBusInstance.create Relation.serviceName "/assoc" Relation.query

def endpoints (paths : List String) : DBusPropertiesMap :=
  OrderedMap.empty.emplace Relation.namePropertyEndpoint (.complex (.strings paths))

def endpointsDelivery (paths : List String) :
    ListDelivery relationObject.dbusQuery Relation.interfaceName relations.fieldEndpoint
      (endpoints paths) (paths.map .string) where
  property := Relation.namePropertyEndpoint
  delivered := .complex (.strings paths)
  list := .strings paths
  entry := by decide
  value := rfl
  formatted := rfl
  elements := rfl
  accepts := fun value _ => ⟨value, rfl⟩

theorem fillMembers_endpointsOthers [StdHash] (paths : List String) :
    DBusInstance.fillMembers Relation.interfaceName (endpointsDelivery paths).others
      relationObject = .ok ⟨⟩ relationObject := rfl

end ObmcWebapp.Entities
