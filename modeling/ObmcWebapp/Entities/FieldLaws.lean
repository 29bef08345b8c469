/-
# Laws on fields

A law says which values a member may hold in the objects of a query. Whatever fills an
instance writes under the dictionary, the formatters or the defaults of its query, so it
is enough to look at these once: a query under a law creates, fills and resets only
instances that obey the law, the children of list valued properties included.

An enumeration supplements what it visits by rules. When these keep the laws of all
objects as well, so does the enumeration, and what it shows obeys the law of its object.
-/

import ObmcWebapp.Entities.Creation
import ObmcWebapp.Entities.HashIdentity

namespace ObmcWebapp.Entities

open ObmcWebapp.Core definitions

/-- Which values a member of the object under a path may hold. -/
abbrev FieldLaw := ObjectPath → MemberName → FieldType → Prop

/-- An instance of a query that carries its path and its service, and whose other fields
obey a law. -/
structure Obeys (law : FieldLaw) (query : DBusQuery) (inst : Instance) : Prop where
  dbusQuery : inst.dbusQuery = query
  objectPath : inst.memberInstances.find? metaObjectPath = some (.string inst.objectPath)
  objectService : inst.memberInstances.find? metaObjectService = some (.string inst.serviceName)
  fields : ∀ {member value}, member ≠ metaObjectPath → member ≠ metaObjectService →
    inst.memberInstances.find? member = some value → law inst.objectPath member value

/-- A law allows a write: of a value to a member other than the two every instance has. -/
structure FieldLaw.Allows (law : FieldLaw) (path : ObjectPath) (member : MemberName)
    (value : FieldType) : Prop where
  ne_path : member ≠ metaObjectPath
  ne_service : member ≠ metaObjectService
  law : law path member value

/-- A query whose properties and defaults a law allows, whatever the bus delivers. -/
structure DBusQuery.Under (query : DBusQuery) (law : FieldLaw) : Prop where
  default : ∀ field ∈ query.defaultFieldsValue.entries, ∀ path, law.Allows path field.1 field.2
  property : ∀ {interface entry}, entry ∈ (query.getPropertyMemberDict interface).entries →
    ∀ {value formatted}, query.processFormatters entry.1 value = .ok (.scalar formatted) →
    ∀ path, law.Allows path entry.2 formatted

variable {law : FieldLaw} {query : DBusQuery}

namespace Obeys

variable {inst : Instance}

/-- An allowed write keeps the law. -/
theorem supplementOrUpdate (hobeys : Obeys law query inst) {member : MemberName}
    {value : FieldType} (hallows : law.Allows inst.objectPath member value) :
    Obeys law query (inst.supplementOrUpdate member value) where
  dbusQuery := by simpa using hobeys.dbusQuery
  objectPath := by simpa [hallows.ne_path.symm] using hobeys.objectPath
  objectService := by simpa [hallows.ne_service.symm] using hobeys.objectService
  fields := by
    intro other found hpath hservice hfound
    rw [Instance.supplementOrUpdate_objectPath]
    rw [Instance.find?_supplementOrUpdate] at hfound
    split_ifs at hfound with hother
    · cases hfound
      rw [hother]
      exact hallows.law
    · exact hobeys.fields hpath hservice hfound

/-- A new instance has no other fields. -/
theorem create (law : FieldLaw) (query : DBusQuery) (serviceName objectPath : String) :
    Obeys law query (.create serviceName objectPath query) where
  dbusQuery := rfl
  objectPath := (EntityQuery.find?_create serviceName objectPath query).1
  objectService := (EntityQuery.find?_create serviceName objectPath query).2
  fields := by
    intro member value hpath hservice hfound
    simp [Instance.create, hpath, hservice] at hfound

/-- The defaults are writes the law allows. -/
theorem initDefaultFieldsValue (hobeys : Obeys law query inst) (hunder : query.Under law) :
    Obeys law query inst.initDefaultFieldsValue := by
  have hfold : ∀ fields : List (MemberName × FieldType),
      (∀ field ∈ fields, ∀ path, law.Allows path field.1 field.2) →
      ∀ start : Instance, Obeys law query start →
      Obeys law query
        (fields.foldl (fun inst field => inst.supplementOrUpdate field.1 field.2) start) := by
    intro fields
    induction fields with
    | nil => exact fun _ start hstart => hstart
    | cons field fields ih =>
        intro hallows start hstart
        rw [List.foldl_cons]
        apply ih fun later hlater => hallows later (List.mem_cons_of_mem _ hlater)
        exact hstart.supplementOrUpdate (hallows field (List.mem_cons_self ..) _)
  rw [Instance.initDefaultFieldsValue, hobeys.dbusQuery]
  exact hfold _ hunder.default inst hobeys

/-- Filling an instance from scalars writes under the dictionary only. -/
theorem fillMembers (hobeys : Obeys law query inst) (hunder : query.Under law)
    (interface : InterfaceName) (properties : OrderedMap PropertyName FieldType) :
    Fallible.Leaves (Obeys law query) (inst.fillMembers interface properties) := by
  rw [Instance.fillMembers, hobeys.dbusQuery]
  apply Fallible.forEach_preserves _ hobeys
  intro entry hentry state hstate
  rw [Instance.fillMember]
  cases properties.find? entry.1 with
  | none => exact hstate
  | some value =>
      have hquery := hstate.dbusQuery
      cases hformat : state.dbusQuery.processScalarFormatters entry.1 value with
      | error exception =>
          simp only [hformat]
          exact hstate
      | ok formatted =>
          simp only [hformat]
          rw [hquery] at hformat
          have hscalar : query.processFormatters entry.1 (.scalar value) =
              .ok (.scalar formatted) := by
            rw [DBusQuery.processFormatters_scalar, hformat]
            rfl
          exact hstate.supplementOrUpdate (hunder.property hentry hscalar _)

end Obeys

/-- An instance obeys a law together with its children. -/
structure ObeysAll (law : FieldLaw) (query : DBusQuery) (inst : DBusInstance) : Prop where
  self : Obeys law query inst.toInstance
  children : ∀ {hash child}, inst.complexInstances.find? hash = some child → Obeys law query child

namespace ObeysAll

variable {inst : DBusInstance}

/-- What an enumeration visits of the instance. -/
theorem element [StdHash] (hobeys : ObeysAll law query inst) {hash : ℕ} {element : Instance}
    (hfound : inst.elements.find? hash = some element) : Obeys law query element := by
  rw [DBusInstance.elements, OrderedMap.find?_insertOrAssign] at hfound
  split_ifs at hfound
  · cases hfound
    exact hobeys.self
  · exact hobeys.children hfound

theorem initDefaultFieldsValue (hobeys : ObeysAll law query inst) (hunder : query.Under law) :
    ObeysAll law query inst.initDefaultFieldsValue where
  self := hobeys.self.initDefaultFieldsValue hunder
  children := hobeys.children

variable [StdHash]

theorem insertComplex (hobeys : ObeysAll law query inst) {child : Instance}
    (hchild : Obeys law query child) : ObeysAll law query (inst.insertComplex child) where
  self := hobeys.self
  children := by
    intro hash found hfound
    rw [DBusInstance.insertComplex, OrderedMap.find?_insertOrAssign] at hfound
    split_ifs at hfound
    · cases hfound
      exact hchild
    · exact hobeys.children hfound

theorem captureChild (hobeys : ObeysAll law query inst) (hunder : query.Under law)
    {child : Instance} (hchild : Obeys law query child) (interface : InterfaceName)
    (properties : OrderedMap PropertyName FieldType) :
    Fallible.Leaves (ObeysAll law query)
      (DBusInstance.captureChild child interface properties inst) := by
  have hfill := hchild.fillMembers hunder interface properties
  rw [DBusInstance.captureChild]
  cases hresult : child.fillMembers interface properties with
  | ok value filled =>
      rw [hresult] at hfill
      exact hobeys.insertComplex hfill
  | error exception filled => exact hobeys

/-- A property of a list becomes children of the query, any other one a field. -/
theorem resolveDBusVariant (hobeys : ObeysAll law query inst) (hunder : query.Under law)
    {member : MemberName} {value : DbusVariant}
    (hscalar : ∀ formatted, value = .scalar formatted →
      law.Allows inst.objectPath member formatted) :
    Fallible.Leaves (ObeysAll law query) (DBusInstance.resolveDBusVariant member value inst) := by
  have hlist : ∀ values : List FieldType, Fallible.Leaves (ObeysAll law query)
      (DBusInstance.captureComplexDBusProperty member values inst) := by
    intro values
    apply Fallible.forEach_preserves _ hobeys
    intro value _ state hstate
    apply hstate.captureChild hunder
    rw [hstate.self.dbusQuery]
    exact .create law query _ _
  cases value with
  | scalar formatted =>
      exact ⟨hobeys.self.supplementOrUpdate (hscalar formatted rfl), hobeys.children⟩
  | complex value =>
      cases value with
      | strings values => exact hlist _
      | doubles values => exact hlist _
      | associations values =>
          have hcleared : ObeysAll law query { inst with complexInstances := OrderedMap.empty } :=
            ⟨hobeys.self, nofun⟩
          apply Fallible.forEach_preserves _ hcleared
          intro association _ state hstate
          apply hstate.captureChild hunder
          rw [hstate.self.dbusQuery]
          exact .create law query _ _

theorem fillMembers (hobeys : ObeysAll law query inst) (hunder : query.Under law)
    (interface : InterfaceName) (properties : DBusPropertiesMap) :
    Fallible.Leaves (ObeysAll law query)
      (DBusInstance.fillMembers interface properties inst) := by
  rw [DBusInstance.fillMembers, hobeys.self.dbusQuery]
  apply Fallible.forEach_preserves _ hobeys
  intro entry hentry state hstate
  rw [DBusInstance.fillMember]
  cases properties.find? entry.1 with
  | none => exact hstate
  | some value =>
      have hquery := hstate.self.dbusQuery
      cases hformat : state.dbusQuery.processFormatters entry.1 value with
      | error exception =>
          simp only [hformat]
          exact hstate
      | ok formatted =>
          simp only [hformat]
          rw [hquery] at hformat
          apply hstate.resolveDBusVariant hunder
          rintro scalar rfl
          exact hunder.property hentry hformat _

/-- An element that is written back. -/
theorem putElement {visiting : Visiting} (hobeys : ObeysAll law query visiting.inst) {hash : ℕ}
    {supplemented : Supplementing} (helement : Obeys law query supplemented.element) :
    ObeysAll law query (visiting.putElement hash supplemented).inst := by
  rw [Visiting.putElement]
  split_ifs
  · exact ⟨helement, hobeys.children⟩
  · refine ⟨hobeys.self, ?_⟩
    intro key found hfound
    rw [OrderedMap.find?_insertOrAssign] at hfound
    split_ifs at hfound
    · cases hfound
      exact helement
    · exact hobeys.children hfound

end ObeysAll

namespace EntityQuery

variable [StdHash] {query : EntityQuery} {replies : BusReplies}

/-- Static fields that keep a law. -/
def StaticUnder (query : EntityQuery) (law : FieldLaw) : Prop :=
  ∀ inst after, ObeysAll law query.dbusQuery inst →
    query.supplementByStaticFields inst = .ok after → ObeysAll law query.dbusQuery after

/-- What fills an instance step by step from properties fills it under the law. -/
theorem obeysAll_of_foldlM (hunder : query.dbusQuery.Under law) {α : Type} {items : List α}
    {interface : α → InterfaceName} {properties : DBusInstance → α → DBusPropertiesMap}
    {inst filled : DBusInstance} (hobeys : ObeysAll law query.dbusQuery inst)
    (hfill : items.foldlM (fun inst item =>
      resulting (DBusInstance.fillMembers (interface item) (properties inst item)) inst) inst =
        .ok filled) : ObeysAll law query.dbusQuery filled := by
  induction items generalizing inst with
  | nil =>
      cases hfill
      exact hobeys
  | cons item items ih =>
      rw [List.foldlM_cons] at hfill
      cases hfirst : resulting (DBusInstance.fillMembers (interface item) (properties inst item))
          inst with
      | error exception =>
          rw [hfirst] at hfill
          cases hfill
      | ok next =>
          rw [hfirst] at hfill
          have hnext := hobeys.fillMembers hunder (interface item) (properties inst item)
          rw [resulting_eq_ok.mp hfirst] at hnext
          exact ih hnext hfill

/-- Whatever the bus replies, a query under a law creates instances that obey it. -/
theorem process_obeys (hunder : query.dbusQuery.Under law) (hstatic : query.StaticUnder law)
    {instances : List DBusInstance} (hprocess : query.process replies = .ok instances) :
    ∀ inst ∈ instances, ObeysAll law query.dbusQuery inst := by
  have hcreate : ∀ (serviceName objectPath : String),
      ObeysAll law query.dbusQuery (.create serviceName objectPath query.dbusQuery) :=
    fun serviceName objectPath => ⟨.create law query.dbusQuery serviceName objectPath, nofun⟩
  have hmade : ∀ {α : Type} {items : List α} {make : α → Except Exception DBusInstance},
      (∀ item inst, make item = .ok inst → ObeysAll law query.dbusQuery inst) →
      items.mapM make = .ok instances → ∀ inst ∈ instances, ObeysAll law query.dbusQuery inst := by
    intro α items make hmake hall inst hmem
    obtain ⟨item, -, hitem⟩ := (Fallible.exists_of_forall₂
      (Fallible.mapM_eq_ok_iff.mp hall)).2 inst hmem
    exact hmake item inst hitem
  rw [process] at hprocess
  cases hkind : query.kind with
  | findObject service =>
      rw [hkind] at hprocess
      simp only [processFindObject] at hprocess
      cases hmapper : replies.getSubTree with
      | error exception =>
          rw [hmapper] at hprocess
          cases hprocess
      | ok mapperResponse =>
          rw [hmapper] at hprocess
          apply hmade _ hprocess
          intro object inst hinst
          obtain ⟨filled, hfill, hsupplement⟩ := createInstance_eq_ok hinst
          exact hstatic _ _ (obeysAll_of_foldlM hunder (hcreate _ _) hfill) hsupplement
  | introspectService service =>
      rw [hkind] at hprocess
      simp only [processIntrospectService] at hprocess
      cases hmanaged : replies.getManagedObjects service with
      | error exception =>
          rw [hmanaged] at hprocess
          cases hprocess
      | ok interfacesResponse =>
          rw [hmanaged] at hprocess
          apply hmade _ hprocess
          intro object inst hinst
          cases hfill : object.2.foldlM (fun inst interface =>
              resulting (DBusInstance.fillMembers interface.1 interface.2) inst)
              (DBusInstance.create service object.1 query.dbusQuery) with
          | error exception =>
              rw [hfill] at hinst
              cases hinst
          | ok filled =>
              rw [hfill] at hinst
              exact hstatic _ _ (obeysAll_of_foldlM hunder (hcreate _ _) hfill) hinst

end EntityQuery

/-- A rule that keeps the law of its targets and leaves the field object of absent members
alone. -/
def KeepsLaw (law : FieldLaw) (query : DBusQuery) (rule : ProviderLinkRule) : Prop :=
  ∀ supplementing target, Obeys law query target →
    Fallible.Leaves (fun link : LinkState => link.notAvailable = .notAvailable ∧
        Obeys law query { target with memberInstances := link.target.memberInstances })
      (rule supplementing ⟨target, .notAvailable⟩)

/-- A store whose published instances obey the laws of their objects, and whose rules keep
them. -/
structure EntityStore.Under (laws : EntityId → FieldLaw) (queries : EntityId → DBusQuery)
    (store : EntityStore) : Prop where
  published : ∀ {entity hash inst}, (store.objects entity).instances.find? hash = some inst →
    ObeysAll (laws entity) (queries entity) inst
  linked : ∀ entity, ∀ provider ∈ (store.objects entity).providers,
    KeepsLaw (laws entity) (queries entity) provider.2
  notAvailable : store.notAvailable = .notAvailable

section Enumerations

variable {laws : EntityId → FieldLaw} {queries : EntityId → DBusQuery} {entity : EntityId}

/-- Publishing other instances that obey the law. -/
theorem EntityStore.Under.withInstances {store : EntityStore} (hunder : store.Under laws queries)
    {instances : OrderedMap ℕ DBusInstance}
    (hobeys : ∀ {hash inst}, instances.find? hash = some inst →
      ObeysAll (laws entity) (queries entity) inst) :
    EntityStore.Under laws queries { store with
      objects := Function.update store.objects entity
        { store.objects entity with instances := instances } } where
  published := by
    intro other hash inst hfound
    by_cases hother : other = entity
    · subst hother
      simp only [Function.update_self] at hfound
      exact hobeys hfound
    · simp only [Function.update_of_ne hother] at hfound
      exact hunder.published hfound
  linked := by
    intro other provider hprovider
    rw [(EntityStore.update_instances entity other store.objects instances).2] at hprovider
    exact hunder.linked other provider hprovider
  notAvailable := hunder.notAvailable

theorem EntityStore.Under.putInstance {store : EntityStore} (hunder : store.Under laws queries)
    (hash : ℕ) {inst : DBusInstance} (hobeys : ObeysAll (laws entity) (queries entity) inst) :
    (store.putInstance entity hash inst).Under laws queries := by
  apply hunder.withInstances
  intro key found hfound
  rw [OrderedMap.find?_insertOrAssign] at hfound
  split_ifs at hfound
  · cases hfound
    exact hobeys
  · exact hunder.published hfound

/-- An element of an object that is supplemented, and the store meanwhile. -/
def Supplementing.Under (laws : EntityId → FieldLaw) (queries : EntityId → DBusQuery)
    (entity : EntityId) (state : Supplementing) : Prop :=
  state.store.Under laws queries ∧ Obeys (laws entity) (queries entity) state.element

/-- An instance of an object that is visited, and the store meanwhile. -/
def Visiting.Under (laws : EntityId → FieldLaw) (queries : EntityId → DBusQuery)
    (entity : EntityId) (state : Visiting) : Prop :=
  state.store.Under laws queries ∧ ObeysAll (laws entity) (queries entity) state.inst

/-- A rule acts on an element under the law. -/
theorem applyRule_under {rule : ProviderLinkRule}
    (hrule : KeepsLaw (laws entity) (queries entity) rule) (supplementing : Instance)
    {state : Supplementing} (hstate : state.Under laws queries entity) :
    Fallible.Leaves (Supplementing.Under laws queries entity)
      (Supplementing.applyRule rule supplementing state) := by
  obtain ⟨hstore, helement⟩ := hstate
  have hleaves := hrule supplementing state.element helement
  have hlink : state.toLink = ⟨state.element, .notAvailable⟩ := by
    rw [Supplementing.toLink, hstore.notAvailable]
  have hput : ∀ link : LinkState, link.notAvailable = .notAvailable ∧
      Obeys (laws entity) (queries entity)
        { state.element with memberInstances := link.target.memberInstances } →
      (state.putLink link).Under laws queries entity :=
    fun link hkept => ⟨⟨hstore.published, hstore.linked, hkept.1⟩, hkept.2⟩
  rw [Supplementing.applyRule, hlink]
  cases hresult : rule supplementing ⟨state.element, .notAvailable⟩ with
  | ok value link =>
      rw [hresult] at hleaves
      exact hput link hleaves
  | error exception link =>
      rw [hresult] at hleaves
      exact hput link hleaves

/-- Supplementing keeps the law when the enumerations of the providers keep the store under
the laws. -/
theorem supplementAll_under {enumerate : EntityId → EStateM Failure EntityStore (List Instance)}
    {providers : List (EntityId × ProviderLinkRule)}
    (henumerate : ∀ provider ∈ providers, ∀ store : EntityStore, store.Under laws queries →
      Fallible.Leaves (EntityStore.Under laws queries) (enumerate provider.1 store))
    (hlinked : ∀ provider ∈ providers, KeepsLaw (laws entity) (queries entity) provider.2)
    {state : Supplementing} (hstate : state.Under laws queries entity) :
    Fallible.Leaves (Supplementing.Under laws queries entity)
      (Supplementing.supplementAll enumerate providers state) := by
  apply Fallible.forEach_preserves _ hstate
  intro provider hprovider state hstate
  have henumerated : Fallible.Leaves (Supplementing.Under laws queries entity)
      (Fallible.zoom Supplementing.store (fun store state => { state with store := store })
        (enumerate provider.1) state) :=
    (henumerate provider hprovider state.store hstate.1).zoom fun _ hnext => ⟨hnext, hstate.2⟩
  apply henumerated.bind
  exact fun instances next hnext => Fallible.forEach_preserves
    (fun supplementing _ _ => applyRule_under (hlinked provider hprovider) supplementing) hnext

variable [StdHash]

/-- What a visited element is shown as obeys the law. -/
theorem visitElement_under {enumerate : EntityId → EStateM Failure EntityStore (List Instance)}
    {providers : List (EntityId × ProviderLinkRule)}
    (henumerate : ∀ provider ∈ providers, ∀ store : EntityStore, store.Under laws queries →
      Fallible.Leaves (EntityStore.Under laws queries) (enumerate provider.1 store))
    (hlinked : ∀ provider ∈ providers, KeepsLaw (laws entity) (queries entity) provider.2)
    (condition : Option Condition) {element : ℕ × Instance}
    (helement : Obeys (laws entity) (queries entity) element.2) {state : Visiting}
    (hstate : state.Under laws queries entity) :
    Fallible.Returns (fun shown => ∀ inst ∈ shown, Obeys (laws entity) (queries entity) inst)
      (Visiting.Under laws queries entity)
      (Visiting.visitElement enumerate providers condition element state) := by
  have hleaves := supplementAll_under henumerate hlinked
    (show Supplementing.Under laws queries entity ⟨state.store, element.2⟩
      from ⟨hstate.1, helement⟩)
  rw [Visiting.visitElement]
  cases hresult : Supplementing.supplementAll enumerate providers ⟨state.store, element.2⟩ with
  | ok value supplemented =>
      rw [hresult] at hleaves
      refine ⟨?_, hleaves.1, hstate.2.putElement hleaves.2⟩
      intro inst hshown
      split_ifs at hshown
      · cases hshown
        exact hleaves.2
      · cases hshown
  | error failure supplemented =>
      rw [hresult] at hleaves
      exact ⟨hleaves.1, hstate.2.putElement hleaves.2⟩

theorem visitInstance_under {enumerate : EntityId → EStateM Failure EntityStore (List Instance)}
    {providers : List (EntityId × ProviderLinkRule)}
    (hqueries : (queries entity).Under (laws entity))
    (henumerate : ∀ provider ∈ providers, ∀ store : EntityStore, store.Under laws queries →
      Fallible.Leaves (EntityStore.Under laws queries) (enumerate provider.1 store))
    (hlinked : ∀ provider ∈ providers, KeepsLaw (laws entity) (queries entity) provider.2)
    (condition : Option Condition) {stored : ℕ × DBusInstance}
    (hstored : ObeysAll (laws entity) (queries entity) stored.2) {store : EntityStore}
    (hstore : store.Under laws queries) :
    Fallible.Returns (fun shown => ∀ inst ∈ shown, Obeys (laws entity) (queries entity) inst)
      (EntityStore.Under laws queries)
      (Visiting.visitInstance enumerate providers condition entity stored store) := by
  have hreset := hstored.initDefaultFieldsValue hqueries
  have hwalk := Fallible.collect_returns
    (fun element helement state hstate => visitElement_under henumerate hlinked condition
      (hreset.element (OrderedMap.mem_entries_iff.mp helement)) hstate)
    (show Visiting.Under laws queries entity ⟨store, stored.2.initDefaultFieldsValue⟩
      from ⟨hstore, hreset⟩)
  rw [Visiting.visitInstance]
  apply Fallible.Returns.zoom
  · apply hwalk.bind
    intro visited next hvisited hnext
    refine ⟨?_, hnext⟩
    intro inst hshown
    obtain ⟨shown, hmem, rfl⟩ := List.mem_filterMap.mp hshown
    obtain ⟨element, -, hobeys⟩ := (Fallible.exists_of_forall₂ hvisited).2 _ hmem
    exact hobeys inst rfl
  · exact fun visited hvisited => hvisited.1.putInstance _ hvisited.2

/-- Enumerations show instances that obey the laws and keep the store under them, however
deep they nest and also when they fail. -/
theorem getInstances_under (hqueries : ∀ entity, (queries entity).Under (laws entity))
    (depth : ℕ) (entity : EntityId) (condition : Option Condition) {store : EntityStore}
    (hstore : store.Under laws queries) :
    Fallible.Returns (fun shown => ∀ inst ∈ shown, Obeys (laws entity) (queries entity) inst)
      (EntityStore.Under laws queries) (getInstances depth entity condition store) := by
  induction depth generalizing entity condition store with
  | zero => exact hstore
  | succ depth ih =>
      have hnested : ∀ provider ∈ (store.objects entity).providers, ∀ store : EntityStore,
          store.Under laws queries → Fallible.Leaves (EntityStore.Under laws queries)
            (getInstances depth provider.1 none store) :=
        fun provider _ store hunder => (ih provider.1 none hunder).leaves
      have hvisit : ∀ stored ∈ (store.objects entity).instances.entries,
          ∀ state : EntityStore, state.Under laws queries →
          Fallible.Returns (fun shown => ∀ inst ∈ shown, Obeys (laws entity) (queries entity) inst)
            (EntityStore.Under laws queries)
            (Visiting.visitInstance (fun provider => getInstances depth provider none)
              (store.objects entity).providers condition entity stored state) :=
        fun stored hmem state hstate => visitInstance_under (hqueries entity) hnested
          (hstore.linked entity) condition
          (hstore.published (OrderedMap.mem_entries_iff.mp hmem)) hstate
      rw [getInstances_succ]
      apply (Fallible.collect_returns hvisit hstore).bind
      intro visited next hvisited hnext
      refine ⟨?_, hnext⟩
      intro inst hshown
      obtain ⟨shown, hmem, hinst⟩ := List.mem_flatten.mp hshown
      obtain ⟨stored, -, hobeys⟩ := (Fallible.exists_of_forall₂ hvisited).2 shown hmem
      exact hobeys inst hinst

end Enumerations

end ObmcWebapp.Entities
