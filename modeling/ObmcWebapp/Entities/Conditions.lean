/-
# Conditions on an enumeration

A condition is a list of rules, each a member, a value and a compare. An
enumeration under a condition is meant to keep the instances on which every rule
holds of the rule's own member. `check` looks its field up before the rule is
unpacked, under the empty name, so what it tests is another field.

Instances are returned by reference and an absent field reads the one shared field
object, so a returned instance is kept here together with what that object held
when the instance was tested: a `Reading`.
-/

import Mathlib.Data.List.ReduceOption
import ObmcWebapp.Entities.Manager

namespace ObmcWebapp.Entities

open ObmcWebapp.Core

/-- The comparison of two doubles: a NaN equals nothing and the two zeros are equal. -/
def doubleEqual (left right : Double) : Bool :=
  let magnitude (value : Double) : UInt64 := value.bits &&& 0x7FFFFFFFFFFFFFFF
  let isNumber (value : Double) : Bool := magnitude value ≤ 0x7FF0000000000000
  isNumber left && isNumber right &&
    (left.bits == right.bits || (magnitude left == 0 && magnitude right == 0))

/-- `==` of two field values: the alternatives agree, and the values in them. -/
def FieldType.equal : FieldType → FieldType → Bool
  | .double left, .double right => doubleEqual left right
  | left, right => decide (left = right)

def relationCompareEqual : CompareCallback := fun inst value => inst.equal value

/-- The arguments of one call of `addRule`. -/
structure Rule where
  member : MemberName
  value : FieldType
  compare : CompareCallback

namespace Condition

/-- The condition a sequence of `addRule` calls builds. -/
def build (rules : List Rule) : Condition :=
  rules.foldl (fun condition rule => condition.addRule rule.member rule.value rule.compare) {}

theorem rules_build (rules : List Rule) :
    (build rules).rules = rules.map fun rule => ((rule.member, rule.value), rule.compare) := by
  have hfold : ∀ condition : Condition,
      (rules.foldl (fun condition rule =>
        condition.addRule rule.member rule.value rule.compare) condition).rules =
      condition.rules ++ rules.map fun rule => ((rule.member, rule.value), rule.compare) := by
    induction rules with
    | nil => exact fun condition => (List.append_nil _).symm
    | cons rule rules ih =>
        intro condition
        rw [List.foldl_cons, ih]
        simp [addRule]
  exact (hfold {}).trans (List.nil_append _)

/-- `check` without its accumulator: every compare sees the field of the empty name. -/
theorem check_eq_all (notAvailable : FieldType) (condition : Condition) (inst : Instance) :
    condition.check notAvailable inst =
      condition.rules.all fun rule => rule.2 (inst.getField notAvailable "") rule.1.2 := by
  have hfold : ∀ (rules : List ((MemberName × FieldType) × CompareCallback)) (result : Bool),
      rules.foldl (fun result rule =>
        result && rule.2 (inst.getField notAvailable "") rule.1.2) result =
      (result && rules.all fun rule => rule.2 (inst.getField notAvailable "") rule.1.2) := by
    intro rules
    induction rules with
    | nil => simp
    | cons rule rules ih => simp [ih, Bool.and_assoc]
  exact (hfold condition.rules true).trans (Bool.true_and _)

end Condition

/-- An instance as an enumeration shows it, with what its absent fields read. -/
structure Reading where
  inst : Instance
  notAvailable : FieldType

namespace Reading

def field (reading : Reading) (member : MemberName) : FieldType :=
  reading.inst.getField reading.notAvailable member

/-- Whether the instance is kept under a condition that may be absent. -/
def passes (condition : Option Condition) (reading : Reading) : Bool :=
  condition.all fun condition => condition.check reading.notAvailable reading.inst

/-- Every rule's compare is true of the field of the rule's own member. -/
def meets (rules : List Rule) (reading : Reading) : Bool :=
  rules.all fun rule => rule.compare (reading.field rule.member) rule.value

/-- Every rule's compare is true of the field of the empty name. -/
def meetsUnnamed (rules : List Rule) (reading : Reading) : Bool :=
  rules.all fun rule => rule.compare (reading.field "") rule.value

theorem passes_build (rules : List Rule) (reading : Reading) :
    reading.passes (some (Condition.build rules)) = reading.meetsUnnamed rules := by
  rw [passes, Option.all_some, Condition.check_eq_all, Condition.rules_build, List.all_map]
  rfl

end Reading

section Enumerating

variable [StdHash]

namespace Visiting

/-- `visitElement`, returning the reading the condition is tested on. -/
def readElement (enumerate : EntityId → EStateM Failure EntityStore (List Instance))
    (providers : List (EntityId × ProviderLinkRule)) (condition : Option Condition)
    (element : ℕ × Instance) : EStateM Failure Visiting (Option Reading) := fun state =>
  match Supplementing.supplementAll enumerate providers ⟨state.store, element.2⟩ with
  | .ok _ supplemented =>
      let reading : Reading := ⟨supplemented.element, supplemented.store.notAvailable⟩
      .ok (if reading.passes condition then some reading else none)
        (state.putElement element.1 supplemented)
  | .error failure supplemented => .error failure (state.putElement element.1 supplemented)

/-- `visitInstance` with the readings of its elements. -/
def readInstance (enumerate : EntityId → EStateM Failure EntityStore (List Instance))
    (providers : List (EntityId × ProviderLinkRule)) (condition : Option Condition)
    (entity : EntityId) (stored : ℕ × DBusInstance) :
    EStateM Failure EntityStore (List Reading) :=
  let inst := stored.2.initDefaultFieldsValue
  Fallible.zoom (fun store => ⟨store, inst⟩)
    (fun visited _ => visited.store.putInstance entity stored.1 visited.inst)
    (List.reduceOption <$> Fallible.collect (readElement enumerate providers condition)
      inst.elements.entries)

end Visiting

/-- `getInstances` with the reading of every instance it returns. -/
def getReadings : ℕ → EntityId → Option Condition → EStateM Failure EntityStore (List Reading)
  | 0, _, _ => throw .stackExhausted
  | depth + 1, entity, condition => do
      let store ← get
      List.flatten <$> Fallible.collect
        (Visiting.readInstance (fun provider => getInstances depth provider none)
          (store.objects entity).providers condition entity)
        (store.objects entity).instances.entries

namespace Visiting

variable (enumerate : EntityId → EStateM Failure EntityStore (List Instance))
  (providers : List (EntityId × ProviderLinkRule)) (condition : Option Condition)

variable {enumerate providers} in
theorem readElement_ok {element : ℕ × Instance} {state : Visiting} {supplemented : Supplementing}
    (hsupplement : Supplementing.supplementAll enumerate providers ⟨state.store, element.2⟩ =
      .ok ⟨⟩ supplemented) :
    readElement enumerate providers condition element state =
      .ok (if Reading.passes condition ⟨supplemented.element, supplemented.store.notAvailable⟩
        then some ⟨supplemented.element, supplemented.store.notAvailable⟩ else none)
        (state.putElement element.1 supplemented) := by
  simp only [readElement, hsupplement]

variable {enumerate providers} in
theorem readElement_error {element : ℕ × Instance} {state : Visiting} {failure : Failure}
    {supplemented : Supplementing}
    (hsupplement : Supplementing.supplementAll enumerate providers ⟨state.store, element.2⟩ =
      .error failure supplemented) :
    readElement enumerate providers condition element state =
      .error failure (state.putElement element.1 supplemented) := by
  simp only [readElement, hsupplement]

theorem visitElement_eq (element : ℕ × Instance) :
    visitElement enumerate providers condition element =
      Option.map Reading.inst <$> readElement enumerate providers condition element := by
  funext state
  cases hsupplement :
      Supplementing.supplementAll enumerate providers ⟨state.store, element.2⟩ with
  | error failure supplemented =>
      rw [Fallible.map_error (readElement_error condition hsupplement)]
      simp only [visitElement, hsupplement]
  | ok value supplemented =>
      rw [Fallible.map_ok (readElement_ok condition hsupplement)]
      cases hpasses : Reading.passes condition
          ⟨supplemented.element, supplemented.store.notAvailable⟩ with
      | false =>
          rw [Reading.passes] at hpasses
          simp [visitElement, hsupplement, hpasses]
      | true =>
          rw [Reading.passes] at hpasses
          simp [visitElement, hsupplement, hpasses]

/-- An element is read the same way under every condition, which only decides whether
the reading is kept. -/
theorem readElement_filter (element : ℕ × Instance) :
    readElement enumerate providers condition element =
      Option.filter (Reading.passes condition) <$>
        readElement enumerate providers none element := by
  funext state
  cases hsupplement :
      Supplementing.supplementAll enumerate providers ⟨state.store, element.2⟩ with
  | error failure supplemented =>
      rw [Fallible.map_error (readElement_error none hsupplement)]
      exact readElement_error condition hsupplement
  | ok value supplemented =>
      rw [Fallible.map_ok (readElement_ok none hsupplement)]
      exact readElement_ok condition hsupplement

omit [StdHash] in
theorem reduceOption_map_filter (passes : Reading → Bool) (visited : List (Option Reading)) :
    (visited.map (Option.filter passes)).reduceOption = visited.reduceOption.filter passes := by
  induction visited with
  | nil => rfl
  | cons reading visited ih =>
      cases reading with
      | none => exact ih
      | some reading =>
          rw [List.map_cons, List.reduceOption_cons_of_some, List.filter_cons, ← ih]
          cases hpasses : passes reading with
          | false => simp [Option.filter, hpasses, List.reduceOption_cons_of_none]
          | true => simp [Option.filter, hpasses, List.reduceOption_cons_of_some]

theorem visitInstance_eq (entity : EntityId) (stored : ℕ × DBusInstance) :
    visitInstance enumerate providers condition entity stored =
      List.map Reading.inst <$> readInstance enumerate providers condition entity stored := by
  unfold visitInstance readInstance
  simp only [funext (visitElement_eq enumerate providers condition), Fallible.collect_map]
  rw [← Fallible.zoom_map]
  congr 1
  simp [Functor.map_map, List.reduceOption_map]

theorem readInstance_filter (entity : EntityId) (stored : ℕ × DBusInstance) :
    readInstance enumerate providers condition entity stored =
      List.filter (Reading.passes condition) <$>
        readInstance enumerate providers none entity stored := by
  unfold readInstance
  simp only [funext (readElement_filter enumerate providers condition), Fallible.collect_map]
  rw [← Fallible.zoom_map]
  congr 1
  simp [Functor.map_map, reduceOption_map_filter]

end Visiting

/-- Forgetting what absent fields read gives the enumeration itself. -/
theorem getInstances_eq_getReadings (depth : ℕ) (entity : EntityId)
    (condition : Option Condition) :
    getInstances depth entity condition =
      List.map Reading.inst <$> getReadings depth entity condition := by
  cases depth with
  | zero => rfl
  | succ depth =>
      have hvisit : ∀ store : EntityStore,
          Visiting.visitInstance (fun provider => getInstances depth provider none)
            (store.objects entity).providers condition entity =
          fun stored => List.map Reading.inst <$>
            Visiting.readInstance (fun provider => getInstances depth provider none)
              (store.objects entity).providers condition entity stored :=
        fun store => funext fun stored => Visiting.visitInstance_eq _ _ condition entity stored
      unfold getInstances getReadings
      simp [hvisit, Fallible.collect_map, Functor.map_map, List.map_flatten]

/-- A condition filters, by what its check makes of each reading. -/
theorem getReadings_filter (depth : ℕ) (entity : EntityId) (condition : Option Condition) :
    getReadings depth entity condition =
      List.filter (Reading.passes condition) <$> getReadings depth entity none := by
  cases depth with
  | zero => rfl
  | succ depth =>
      have hread : ∀ store : EntityStore,
          Visiting.readInstance (fun provider => getInstances depth provider none)
            (store.objects entity).providers condition entity =
          fun stored => List.filter (Reading.passes condition) <$>
            Visiting.readInstance (fun provider => getInstances depth provider none)
              (store.objects entity).providers none entity stored :=
        fun store => funext fun stored => Visiting.readInstance_filter _ _ condition entity stored
      unfold getReadings
      simp [hread, Fallible.collect_map, Functor.map_map, List.filter_flatten]

/-- The enumeration under a condition is the enumeration without one, filtered by the
rules on their own members; it fails when that one fails, and changes the same. -/
def FiltersExactly (depth : ℕ) (entity : EntityId) (rules : List Rule) (store : EntityStore) :
    Prop :=
  getReadings depth entity (some (Condition.build rules)) store =
    (List.filter (Reading.meets rules) <$> getReadings depth entity none) store

omit [StdHash] in
theorem filter_eq_filter_iff {α : Type} {first second : α → Bool} {items : List α} :
    items.filter first = items.filter second ↔ ∀ item ∈ items, first item = second item := by
  constructor
  · intro hsame item hmem
    have hiff : item ∈ items.filter first ↔ item ∈ items.filter second := by rw [hsame]
    simpa [hmem] using hiff
  · exact fun hall => List.filter_congr hall

/-- A condition filters exactly when on every instance of the entity the rules come out
on the field of the empty name as they do on their own members. -/
theorem filters_exactly_iff (depth : ℕ) (entity : EntityId) (rules : List Rule)
    (store : EntityStore) :
    (∀ condition, getInstances depth entity condition store =
      (List.map Reading.inst <$> getReadings depth entity condition) store) ∧
    (FiltersExactly depth entity rules store ↔
      ∀ all after, getReadings depth entity none store = .ok all after →
        ∀ reading ∈ all, reading.meetsUnnamed rules = reading.meets rules) := by
  refine ⟨fun condition => by rw [getInstances_eq_getReadings], ?_⟩
  have hpasses : Reading.passes (some (Condition.build rules)) = Reading.meetsUnnamed rules :=
    funext (Reading.passes_build rules)
  rw [FiltersExactly, getReadings_filter, hpasses]
  cases hall : getReadings depth entity none store with
  | error failure after =>
      rw [Fallible.map_error hall, Fallible.map_error hall]
      simp
  | ok all after =>
      rw [Fallible.map_ok hall, Fallible.map_ok hall]
      constructor
      · intro hsame found left hfound
        cases hfound
        injection hsame with hfilter
        exact filter_eq_filter_iff.mp hfilter
      · intro hagree
        rw [filter_eq_filter_iff.mpr (hagree all after rfl)]

/-- An entity with one published instance, the object `/s` of one service. -/
def oneObjectStore : EntityStore where
  objects _ :=
    { name := "Objects"
      members := OrderedMap.empty
      instances := OrderedMap.empty.emplace 0 (DBusInstance.create "svc" "/s"
        ⟨OrderedMap.empty, OrderedMap.empty, OrderedMap.empty⟩)
      providers := []
      named := named_empty }
  notAvailable := .notAvailable

omit [StdHash] in
/-- The one object is not returned under the condition that its path is its path. -/
theorem own_path_refused :
    ∃ (_ : StdHash), ¬ FiltersExactly 1 0
      [⟨definitions.metaObjectPath, .string "/s", relationCompareEqual⟩] oneObjectStore := by
  let hash : StdHash := ⟨64, fun _ => 0⟩
  refine ⟨hash, fun hexact => ?_⟩
  let count : EStateM.Result Failure EntityStore (List Reading) → ℕ := fun result =>
    match result with
    | .ok readings _ => readings.length
    | .error _ _ => 0
  have hcount := congrArg count hexact
  revert hcount
  decide

end Enumerating

end ObmcWebapp.Entities
