/-
# Entities and their enumeration

Entities and supplement providers are objects with members, published instances
and the providers linked to them; two registries give them names. `getInstances`
walks the published instances in hash order. Each is reset to its default fields,
then it and its children are supplemented: for every linked provider, the
provider's own instances are enumerated and the link rule is applied to each.

An enumeration changes the instances it visits, and these changes stay when a rule
throws. Enumerations nest along the provider links, so `getInstances` is given
the number of nested calls the stack has room for.
-/

import ObmcWebapp.Entities.Instance

namespace ObmcWebapp.Entities

open ObmcWebapp.Core definitions

/-- An entity or provider object. -/
abbrev EntityId := ℕ

/-- A member of an entity and its static value. -/
structure EntityMember where
  name : MemberName
  value : FieldType := FieldType.notAvailable

abbrev CompareCallback := FieldType → FieldType → Bool

/-- A condition on instances: for each rule its member, its value and the compare. -/
structure Condition where
  rules : List ((MemberName × FieldType) × CompareCallback) := []

namespace Condition

def addRule (condition : Condition) (member : MemberName) (value : FieldType)
    (compare : CompareCallback) : Condition :=
  ⟨condition.rules ++ [((member, value), compare)]⟩

/-- `fieldValueCompare`: the field is looked up before the rule's member name is
unpacked, under the empty name. -/
def check (notAvailable : FieldType) (condition : Condition) (inst : Instance) : Bool :=
  condition.rules.foldl
    (fun result rule => result && rule.2 (Instance.getField notAvailable inst "") rule.1.2) true

end Condition

/-- What a link rule can change: the fields of its target and, through `getField`
of an absent member, the field object shared by all instances. -/
structure LinkState where
  target : Instance
  notAvailable : FieldType

/-- `getField(member)->setValue(value)` on the target. -/
def LinkState.setField (link : LinkState) (member : MemberName) (value : FieldType) : LinkState :=
  if link.target.hasField member then
    { link with target := link.target.supplementOrUpdate member value }
  else { link with notAvailable := value }

/-- How a rule ends without a value: by an exception, or by reading what is destroyed. -/
inductive RuleFailure
  | raised (exception : Exception)
  | destroyedName
  deriving DecidableEq

def RuleFailure.failure : RuleFailure → Failure
  | raised exception => .raised exception
  | destroyedName => .undefinedBehaviour .destroyedName

@[simp]
theorem RuleFailure.failure_ne_stackExhausted (failed : RuleFailure) :
    failed.failure ≠ .stackExhausted := by
  cases failed <;> simp [failure]

@[simp]
theorem RuleFailure.failure_ne_emptyBack (failed : RuleFailure) :
    failed.failure ≠ .undefinedBehaviour .emptyBack := by
  cases failed <;> simp [failure]

/-- A rule is given the supplementing instance and acts on the target. -/
abbrev ProviderLinkRule := Instance → EStateM RuleFailure LinkState PUnit

structure Entity where
  name : String
  members : OrderedMap MemberName EntityMember
  instances : OrderedMap ℕ DBusInstance
  providers : List (EntityId × ProviderLinkRule)
  /-- A member is registered under its own name. -/
  named : ∀ name member, members.find? name = some member → member.name = name

theorem named_empty (name : MemberName) (member : EntityMember)
    (hfound : (OrderedMap.empty : OrderedMap MemberName EntityMember).find? name = some member) :
    member.name = name := by
  cases hfound

/-- One member that is registered under its own name. -/
theorem named_single (own name : MemberName) (member : EntityMember)
    (hfound : (OrderedMap.ofList [(own, ({ name := own } : EntityMember))]).find? name =
      some member) : member.name = name := by
  rw [OrderedMap.find?_ofList, Entries.lookup_cons] at hfound
  split_ifs at hfound with hname
  · cases hfound
    exact hname.symm
  · cases hfound

/-- The state all requests and brokers share: the entity objects and the one
field object of absent members. -/
structure EntityStore where
  objects : EntityId → Entity
  notAvailable : FieldType

/-- The two registries of names. -/
structure EntityManager where
  entityDictionary : OrderedMap String EntityId
  supplementProviders : OrderedMap String EntityId

def EntityManager.getEntity (manager : EntityManager) (name : String) :
    Except Exception EntityId :=
  match manager.entityDictionary.find? name with
  | some entity => .ok entity
  | none => .error (.entity ("The Object <" ++ name ++ "> not found"))

def Entity.getMember (entity : Entity) (name : MemberName) : Except Exception EntityMember :=
  match entity.members.find? name with
  | some member => .ok member
  | none => .error (.entity ("The object Member <" ++ name ++ "> not found"))

namespace EntityStore

/-- Write back one published instance of an entity. -/
def putInstance (store : EntityStore) (entity : EntityId) (hash : ℕ) (inst : DBusInstance) :
    EntityStore :=
  { store with
    objects := Function.update store.objects entity
      { store.objects entity with
        instances := (store.objects entity).instances.insertOrAssign hash inst } }

/-- Rewrite every published instance of an entity. -/
def mapInstances (store : EntityStore) (entity : EntityId)
    (rewritten : DBusInstance → DBusInstance) : EntityStore :=
  { store with
    objects := Function.update store.objects entity
      { store.objects entity with
        instances := (store.objects entity).instances.mapValue fun _ => rewritten } }

/-- Reset every published instance of an entity to its defaults. -/
def resetInstances (store : EntityStore) (entity : EntityId) : EntityStore :=
  store.mapInstances entity DBusInstance.initDefaultFieldsValue

/-- Writing back instances of an entity one by one. -/
theorem foldl_putInstance (store : EntityStore) (entity : EntityId)
    (written : DBusInstance → DBusInstance) (items : List (ℕ × DBusInstance)) :
    items.foldl (fun store stored => store.putInstance entity stored.1 (written stored.2)) store =
      { store with
        objects := Function.update store.objects entity
          { store.objects entity with
            instances := OrderedMap.assignAll Prod.fst (fun stored => written stored.2) items
              (store.objects entity).instances } } := by
  induction items generalizing store with
  | nil => simp [OrderedMap.assignAll]
  | cons stored items ih =>
      rw [List.foldl_cons, ih]
      simp [putInstance, OrderedMap.assignAll]

/-- Writing back all instances of an entity rewrites them. -/
theorem foldl_putInstance_entries (store : EntityStore) (entity : EntityId)
    (written : DBusInstance → DBusInstance) :
    (store.objects entity).instances.entries.foldl
        (fun store stored => store.putInstance entity stored.1 (written stored.2)) store =
      store.mapInstances entity written := by
  have hassign := OrderedMap.assignAll_entries (store.objects entity).instances
    fun _ inst => written inst
  rw [foldl_putInstance, hassign, mapInstances]

/-- `setInstances`: replace all published instances of an entity. -/
def setInstances [StdHash] (store : EntityStore) (entity : EntityId)
    (instances : List DBusInstance) : EntityStore :=
  { store with
    objects := Function.update store.objects entity
      { store.objects entity with
        instances := instances.foldl
          (fun stored inst => stored.insertOrAssign inst.getHash inst) OrderedMap.empty } }

section Frame

variable (store : EntityStore) (entity other : EntityId) (instances : List DBusInstance) (hash : ℕ)
  (inst : DBusInstance)

/-- Other published instances of an entity leave the rest of every object as it is. -/
theorem update_instances (objects : EntityId → Entity) (published : OrderedMap ℕ DBusInstance) :
    (Function.update objects entity { objects entity with instances := published } other).members =
        (objects other).members ∧
      (Function.update objects entity { objects entity with instances := published } other).providers =
        (objects other).providers := by
  by_cases hother : other = entity
  · subst hother
    simp
  · simp [hother]

@[simp]
theorem members_putInstance :
    ((store.putInstance entity hash inst).objects other).members = (store.objects other).members :=
  (update_instances entity other store.objects _).1

@[simp]
theorem providers_putInstance :
    ((store.putInstance entity hash inst).objects other).providers =
      (store.objects other).providers :=
  (update_instances entity other store.objects _).2

@[simp]
theorem instances_putInstance :
    ((store.putInstance entity hash inst).objects entity).instances =
      (store.objects entity).instances.insertOrAssign hash inst := by
  simp [putInstance]

theorem objects_putInstance_of_ne (hother : other ≠ entity) :
    (store.putInstance entity hash inst).objects other = store.objects other :=
  Function.update_of_ne hother _ _

@[simp]
theorem providers_setInstances [StdHash] :
    ((store.setInstances entity instances).objects other).providers =
      (store.objects other).providers :=
  (update_instances entity other store.objects _).2

end Frame

end EntityStore

/-- The store and the element that is being supplemented. -/
structure Supplementing where
  store : EntityStore
  element : Instance

namespace Supplementing

def toLink (state : Supplementing) : LinkState := ⟨state.element, state.store.notAvailable⟩

/-- A rule changes fields only: service, path and query of the target are constant. -/
def putLink (state : Supplementing) (link : LinkState) : Supplementing where
  store := { state.store with notAvailable := link.notAvailable }
  element := { state.element with memberInstances := link.target.memberInstances }

/-- Invoke a rule on the element. -/
def applyRule (rule : ProviderLinkRule) (supplementing : Instance) :
    EStateM Failure Supplementing PUnit := fun state =>
  match rule supplementing state.toLink with
  | .ok _ link => .ok ⟨⟩ (state.putLink link)
  | .error failed link => .error failed.failure (state.putLink link)

/-- `supplementInstance`: enumerate the provider, then apply the rule to each of its
instances. -/
def supplementInstance (enumerate : EStateM Failure EntityStore (List Instance))
    (rule : ProviderLinkRule) : EStateM Failure Supplementing PUnit := do
  let instances ← Fallible.zoom Supplementing.store
    (fun store state => { state with store := store }) enumerate
  Fallible.forEach (applyRule rule) instances

/-- Supplement the element by every linked provider. -/
def supplementAll (enumerate : EntityId → EStateM Failure EntityStore (List Instance))
    (providers : List (EntityId × ProviderLinkRule)) : EStateM Failure Supplementing PUnit :=
  Fallible.forEach (fun provider => supplementInstance (enumerate provider.1) provider.2) providers

end Supplementing

/-- The store and the published instance that is being visited. -/
structure Visiting where
  store : EntityStore
  inst : DBusInstance

namespace Visiting

variable [StdHash]

/-- Write an element back: under the instance's own hash it is the instance itself. -/
def putElement (state : Visiting) (hash : ℕ) (supplemented : Supplementing) : Visiting where
  store := supplemented.store
  inst :=
    if hash = state.inst.getHash then { state.inst with toInstance := supplemented.element }
    else { state.inst with
      complexInstances := state.inst.complexInstances.insertOrAssign hash supplemented.element }

/-- Supplement one element and test it. -/
def visitElement (enumerate : EntityId → EStateM Failure EntityStore (List Instance))
    (providers : List (EntityId × ProviderLinkRule)) (condition : Option Condition)
    (element : ℕ × Instance) : EStateM Failure Visiting (Option Instance) := fun state =>
  match Supplementing.supplementAll enumerate providers ⟨state.store, element.2⟩ with
  | .ok _ supplemented =>
      let passes := condition.all fun condition =>
        condition.check supplemented.store.notAvailable supplemented.element
      .ok (if passes then some supplemented.element else none)
        (state.putElement element.1 supplemented)
  | .error failure supplemented => .error failure (state.putElement element.1 supplemented)

/-- Reset one published instance to its defaults and visit its elements. -/
def visitInstance (enumerate : EntityId → EStateM Failure EntityStore (List Instance))
    (providers : List (EntityId × ProviderLinkRule)) (condition : Option Condition)
    (entity : EntityId) (stored : ℕ × DBusInstance) :
    EStateM Failure EntityStore (List Instance) :=
  let inst := stored.2.initDefaultFieldsValue
  Fallible.zoom (fun store => ⟨store, inst⟩)
    (fun visited _ => visited.store.putInstance entity stored.1 visited.inst)
    (do
      let visited ← Fallible.collect (visitElement enumerate providers condition)
        inst.elements.entries
      return visited.reduceOption)

end Visiting

/-- `getInstances`, with room for `depth` nested enumerations. -/
def getInstances [StdHash] : ℕ → EntityId → Option Condition →
    EStateM Failure EntityStore (List Instance)
  | 0, _, _ => throw .stackExhausted
  | depth + 1, entity, condition => do
      let store ← get
      let visited ← Fallible.collect
        (Visiting.visitInstance (fun provider => getInstances depth provider none)
          (store.objects entity).providers condition entity)
        (store.objects entity).instances.entries
      return visited.flatten

/-- An enumeration visits the instances that are published when it starts. -/
theorem getInstances_succ [StdHash] (depth : ℕ) (entity : EntityId) (condition : Option Condition)
    (store : EntityStore) :
    getInstances (depth + 1) entity condition store =
      (do
        let visited ← Fallible.collect
          (Visiting.visitInstance (fun provider => getInstances depth provider none)
            (store.objects entity).providers condition entity)
          (store.objects entity).instances.entries
        return visited.flatten : EStateM Failure EntityStore (List Instance)) store := by
  rw [getInstances, Fallible.bind_get]

section Unlinked

variable [StdHash]

/-- What an enumeration shows of one published instance when nothing supplements
it: its children and itself, reset to its defaults. -/
def exposed (inst : DBusInstance) : List Instance := inst.initDefaultFieldsValue.elements.values

/-- The elements of the published instances, reset to their defaults. -/
def exposures (store : EntityStore) (entity : EntityId) : List Instance :=
  (store.objects entity).instances.values.flatMap exposed

/-- An element nothing supplements is written back as it was. -/
theorem putElement_same {state : Visiting} {hash : ℕ} {element : Instance}
    (hfound : state.inst.elements.find? hash = some element) :
    state.putElement hash ⟨state.store, element⟩ = state := by
  rw [DBusInstance.elements, OrderedMap.find?_insertOrAssign] at hfound
  unfold Visiting.putElement
  split_ifs at hfound ⊢ with hown
  · cases hfound
    rfl
  · rw [OrderedMap.insertOrAssign_of_find? hfound]

theorem visitInstance_unlinked (enumerate : EntityId → EStateM Failure EntityStore (List Instance))
    (entity : EntityId) (stored : ℕ × DBusInstance) (store : EntityStore) :
    Visiting.visitInstance enumerate [] none entity stored store =
      .ok (exposed stored.2) (store.putInstance entity stored.1 stored.2.initDefaultFieldsValue) := by
  obtain ⟨start, hstart⟩ : ∃ start, stored.2.initDefaultFieldsValue = start := ⟨_, rfl⟩
  have hcollect : Fallible.collect (Visiting.visitElement enumerate [] none)
      start.elements.entries ⟨store, start⟩ =
        .ok (start.elements.entries.map fun element => some element.2) ⟨store, start⟩ := by
    have hvisit : ∀ element ∈ start.elements.entries, ∀ state : Visiting, state.inst = start →
        Visiting.visitElement enumerate [] none element state = .ok (some element.2) state ∧
          state.inst = start := by
      rintro element hmem state rfl
      have hsame := putElement_same (OrderedMap.mem_entries_iff.mp hmem)
      exact ⟨congrArg (EStateM.Result.ok (some element.2)) hsame, rfl⟩
    have hfold : Fallible.collect (Visiting.visitElement enumerate [] none)
        start.elements.entries ⟨store, start⟩ =
          .ok (start.elements.entries.map fun element => some element.2)
            (start.elements.entries.foldl (fun state _ => state) ⟨store, start⟩) :=
      Fallible.collect_ok hvisit rfl
    rwa [List.foldl_fixed] at hfold
  have hreduce : (start.elements.entries.map fun element => some element.2).reduceOption =
      exposed stored.2 := by
    show List.filterMap id _ = _
    simp [List.filterMap_map, exposed, OrderedMap.values, hstart]
  have hwalk : (do
      let visited ← Fallible.collect (Visiting.visitElement enumerate [] none)
        start.elements.entries
      return visited.reduceOption : EStateM Failure Visiting (List Instance)) ⟨store, start⟩ =
        .ok (exposed stored.2) ⟨store, start⟩ := by
    rw [Fallible.bind_ok hcollect, hreduce]
    rfl
  unfold Visiting.visitInstance
  simp only [hstart, Fallible.zoom, hwalk]

/-- Without providers an enumeration lists what each published instance exposes, and
resets the instances. -/
theorem getInstances_reset {store : EntityStore} {entity : EntityId}
    (hproviders : (store.objects entity).providers = []) (depth : ℕ) :
    getInstances (depth + 1) entity none store =
      .ok ((store.objects entity).instances.values.flatMap exposed)
        (store.resetInstances entity) := by
  have hvisit : ∀ stored ∈ (store.objects entity).instances.entries,
      ∀ state : EntityStore, True →
      Visiting.visitInstance (fun provider => getInstances depth provider none)
        (store.objects entity).providers none entity stored state =
          .ok (exposed stored.2)
            (state.putInstance entity stored.1 stored.2.initDefaultFieldsValue) ∧ True := by
    intro stored _ state _
    rw [hproviders]
    exact ⟨visitInstance_unlinked _ entity stored state, trivial⟩
  rw [getInstances_succ, Fallible.bind_ok (Fallible.collect_ok hvisit trivial),
    Fallible.pure_apply,
    EntityStore.foldl_putInstance_entries store entity DBusInstance.initDefaultFieldsValue,
    EntityStore.resetInstances]
  congr 1
  rw [OrderedMap.values, List.flatMap_map, List.flatMap_def]

/-- Without providers an enumeration returns. -/
theorem getInstances_unlinked {store : EntityStore} {entity : EntityId}
    (hproviders : (store.objects entity).providers = []) (depth : ℕ) :
    ∃ after, getInstances (depth + 1) entity none store =
      .ok ((store.objects entity).instances.values.flatMap exposed) after :=
  ⟨_, getInstances_reset hproviders depth⟩

end Unlinked

end ObmcWebapp.Entities
