/-
# Enumerations that terminate

Supplementing an element enumerates the linked providers, and a provider is an object
that may be linked to providers itself. An enumeration that needs more nested calls than
there is room for exhausts the stack. If more room never helps, it does not terminate.

Which instances are published matters as well: without instances nothing is supplemented.
The enumerations of an entity terminate for all instances exactly when descent along the
provider links ends below it.
-/

import ObmcWebapp.Entities.HashIdentity
import ObmcWebapp.Library.Acyclic

namespace ObmcWebapp.Entities

open ObmcWebapp.Core

section Room

variable {enumerate full : EntityId → EStateM Failure EntityStore (List Instance)}
  (henumerate : ∀ provider store,
    Fallible.CutOff .stackExhausted (enumerate provider store) (full provider store))
  (providers : List (EntityId × ProviderLinkRule))

include henumerate

theorem supplementAll_cutOff (state : Supplementing) :
    Fallible.CutOff .stackExhausted (Supplementing.supplementAll enumerate providers state)
      (Supplementing.supplementAll full providers state) := by
  apply Fallible.forEach_cutOff
  intro provider _ state
  apply Fallible.CutOff.bind
  · exact Fallible.CutOff.zoom (henumerate provider.1 state.store)
  · exact fun instances next => .inl rfl

variable [StdHash] (condition : Option Condition)

theorem visitElement_cutOff (element : ℕ × Instance) (state : Visiting) :
    Fallible.CutOff .stackExhausted
      (Visiting.visitElement enumerate providers condition element state)
      (Visiting.visitElement full providers condition element state) := by
  unfold Visiting.visitElement
  rcases supplementAll_cutOff henumerate providers ⟨state.store, element.2⟩ with
    hsame | ⟨supplemented, hcut⟩
  · rw [hsame]
    exact .inl rfl
  · rw [hcut]
    exact .inr ⟨_, rfl⟩

theorem visitInstance_cutOff (entity : EntityId) (stored : ℕ × DBusInstance) (store : EntityStore) :
    Fallible.CutOff .stackExhausted
      (Visiting.visitInstance enumerate providers condition entity stored store)
      (Visiting.visitInstance full providers condition entity stored store) := by
  unfold Visiting.visitInstance
  apply Fallible.CutOff.zoom
  apply Fallible.CutOff.bind
  · apply Fallible.collect_cutOff
    exact fun element _ => visitElement_cutOff henumerate providers condition element
  · exact fun visited next => .inl rfl

omit henumerate in
/-- An enumeration with less room is cut off or ends as one with more room does. -/
theorem getInstances_cutOff {room depth : ℕ} (hroom : room ≤ depth) (entity : EntityId)
    (condition : Option Condition) (store : EntityStore) :
    Fallible.CutOff .stackExhausted (getInstances room entity condition store)
      (getInstances depth entity condition store) := by
  induction room generalizing depth entity condition store with
  | zero => exact .inr ⟨store, rfl⟩
  | succ room ih =>
      obtain ⟨depth, rfl⟩ : ∃ more, depth = more + 1 := ⟨depth - 1, by omega⟩
      have hnested : ∀ provider store, Fallible.CutOff .stackExhausted
          (getInstances room provider none store) (getInstances depth provider none store) :=
        fun provider store => ih (by omega) provider none store
      rw [getInstances_succ, getInstances_succ]
      apply Fallible.CutOff.bind
      · apply Fallible.collect_cutOff
        exact fun stored _ => visitInstance_cutOff hnested _ condition entity stored
      · exact fun visited next => .inl rfl

end Room

section Terminates

variable [StdHash]

/-- The enumeration terminates: from some room on it ends in the same way, and not
because the stack is exhausted. Each nested call walks finite lists, so a bound on the
nesting bounds the number of calls. -/
def Terminates (store : EntityStore) (entity : EntityId) (condition : Option Condition) : Prop :=
  ∃ room result, (∀ after, result ≠ .error .stackExhausted after) ∧
    ∀ depth, room ≤ depth → getInstances depth entity condition store = result

/-- It is enough that some room is not exhausted. -/
theorem terminates_iff_exists_room {store : EntityStore} {entity : EntityId}
    {condition : Option Condition} :
    Terminates store entity condition ↔
      ∃ room, ∀ after, getInstances room entity condition store ≠ .error .stackExhausted after := by
  constructor
  · rintro ⟨room, result, hended, hstable⟩
    exact ⟨room, by rwa [hstable room le_rfl]⟩
  · rintro ⟨room, hended⟩
    refine ⟨room, _, hended, fun depth hroom => ?_⟩
    rcases getInstances_cutOff hroom entity condition store with hsame | ⟨after, hcut⟩
    · exact hsame.symm
    · exact absurd hcut (hended after)

end Terminates

/-- Replace the published instances of every object. -/
def EntityStore.publish [StdHash] (store : EntityStore)
    (instances : EntityId → List DBusInstance) : EntityStore :=
  { store with
    objects := fun object => (store.setInstances object (instances object)).objects object }

/-- The provider is linked to the entity. -/
def Supplements (store : EntityStore) (provider entity : EntityId) : Prop :=
  ∃ linkRule, (provider, linkRule) ∈ (store.objects entity).providers

theorem supplements_publish [StdHash] (store : EntityStore)
    (instances : EntityId → List DBusInstance) :
    Supplements (store.publish instances) = Supplements store := by
  funext provider entity
  simp [Supplements, EntityStore.publish]

/-- The stores link the same providers. -/
def SameLinks (store reference : EntityStore) : Prop :=
  ∀ entity, (store.objects entity).providers = (reference.objects entity).providers

theorem SameLinks.putInstance {store reference : EntityStore} (hsame : SameLinks store reference)
    (entity : EntityId) (hash : ℕ) (inst : DBusInstance) :
    SameLinks (store.putInstance entity hash inst) reference := fun other =>
  (store.providers_putInstance entity other hash inst).trans (hsame other)

section Ends

variable [StdHash] {reference : EntityStore}

/-- Where descent along the provider links ends, all room from some room on is enough. -/
theorem eventually_ends {entity : EntityId} (hacc : Acc (Supplements reference) entity) :
    ∀ᶠ depth in Filter.atTop, ∀ condition store, SameLinks store reference →
      StoreEnds id (SameLinks · reference)
        (fun failure after => failure ≠ .stackExhausted ∧ SameLinks after reference)
        (getInstances depth entity condition store) := by
  induction hacc with
  | intro entity _ ih =>
      have hproviders : ∀ᶠ depth in Filter.atTop,
          ∀ provider ∈ (reference.objects entity).providers, ∀ condition store,
            SameLinks store reference → StoreEnds id (SameLinks · reference)
              (fun failure after => failure ≠ .stackExhausted ∧ SameLinks after reference)
              (getInstances depth provider.1 condition store) := by
        apply (Filter.eventually_all_finite (List.finite_toSet _)).mpr
        exact fun provider hprovider => ih provider.1 ⟨provider.2, hprovider⟩
      obtain ⟨room, hroom⟩ := Filter.eventually_atTop.mp hproviders
      rw [Filter.eventually_atTop]
      refine ⟨room + 1, fun depth hdepth condition store hsame => ?_⟩
      obtain ⟨depth, rfl⟩ : ∃ nested, depth = nested + 1 := ⟨depth - 1, by omega⟩
      have hnested := hroom depth (by omega)
      rw [← hsame entity] at hnested
      apply getInstances_ends condition
      · exact fun provider hprovider state hstate => hnested provider hprovider none state hstate
      · intro provider _ supplementing state hstate
        exact applyRule_ends provider.2 supplementing state (fun _ _ _ => hstate)
          fun _ _ _ => ⟨by simp, hstate⟩
      · exact fun state hash inst hstate => hstate.putInstance entity hash inst
      · exact fun _ state hash inst hfailed => ⟨hfailed.1, hfailed.2.putInstance entity hash inst⟩
      · exact hsame

theorem terminates_of_acc {store : EntityStore} {entity : EntityId}
    (hacc : Acc (Supplements store) entity) (condition : Option Condition) :
    Terminates store entity condition := by
  obtain ⟨room, hroom⟩ := (eventually_ends hacc).exists
  have hends := hroom condition store fun _ => rfl
  rw [terminates_iff_exists_room]
  refine ⟨room, fun after hexhausted => ?_⟩
  rw [hexhausted] at hends
  exact hends.1 rfl

end Ends

/-- The computation exhausts the stack. -/
abbrev Exhausted {σ α : Type} (view : σ → EntityStore) : EStateM.Result Failure σ α → Prop :=
  StoreEnds view (fun _ => False) fun failure _ => failure = .stackExhausted

/-- The computation exhausts the stack, or it leaves the store as it is. -/
abbrev Leaving {σ α : Type} (view : σ → EntityStore) (store : EntityStore) :
    EStateM.Result Failure σ α → Prop :=
  StoreEnds view (fun after => after = store) fun failure _ => failure = .stackExhausted

theorem Exhausted.leaving {σ α : Type} {view : σ → EntityStore} {result : EStateM.Result Failure σ α}
    (hexhausted : Exhausted view result) (store : EntityStore) : Leaving view store result :=
  hexhausted.imp (fun _ _ hreturned => hreturned.elim) fun _ _ hfailed => hfailed

/-- The provider shows nothing, or enumerating it exhausts the stack. -/
def Silent (enumerate : EStateM Failure EntityStore (List Instance)) (store : EntityStore) : Prop :=
  enumerate store = .ok [] store ∨ Exhausted id (enumerate store)

section Supplement

variable {enumerate : EStateM Failure EntityStore (List Instance)} {rule : ProviderLinkRule}
  {state : Supplementing}

theorem supplementInstance_exhausted (hexhausted : Exhausted id (enumerate state.store)) :
    Exhausted Supplementing.store (Supplementing.supplementInstance enumerate rule state) := by
  have hzoom : Exhausted Supplementing.store
      (Fallible.zoom Supplementing.store (fun store state => { state with store := store })
        enumerate state) :=
    Fallible.Ends.zoom hexhausted (fun _ _ hreturned => hreturned) fun _ _ hfailed => hfailed
  exact hzoom.bind_never

/-- Nothing is written before the stack is exhausted. -/
theorem supplementInstance_leaving (hsilent : Silent enumerate state.store) :
    Leaving Supplementing.store state.store
      (Supplementing.supplementInstance enumerate rule state) := by
  rcases hsilent with hidle | hexhausted
  · have hzoom : Fallible.zoom Supplementing.store (fun store state => { state with store := store })
        enumerate state = .ok [] state := Fallible.zoom_ok hidle
    rw [Supplementing.supplementInstance, Fallible.bind_ok hzoom]
    rfl
  · exact (supplementInstance_exhausted hexhausted).leaving state.store

end Supplement

section Exhausts

variable [StdHash] {store : EntityStore}

/-- Without instances an enumeration shows nothing, whatever is linked. -/
theorem getInstances_unpublished {entity : EntityId}
    (hunpublished : (store.objects entity).instances.entries = []) (depth : ℕ)
    (condition : Option Condition) :
    getInstances (depth + 1) entity condition store = .ok [] store := by
  rw [getInstances_succ, hunpublished]
  rfl

/-- Supplementing the first instance exhausts the stack if one provider does and none
shows anything. -/
theorem getInstances_succ_exhausted {depth : ℕ} {entity : EntityId} (condition : Option Condition)
    (hpublished : (store.objects entity).instances.entries ≠ [])
    (hsilent : ∀ provider ∈ (store.objects entity).providers,
      Silent (getInstances depth provider.1 none) store)
    (hexhausted : ∃ provider ∈ (store.objects entity).providers,
      Exhausted id (getInstances depth provider.1 none store)) :
    Exhausted id (getInstances (depth + 1) entity condition store) := by
  have hsupplement : ∀ state : Supplementing, state.store = store → Exhausted Supplementing.store
      (Supplementing.supplementAll (fun provider => getInstances depth provider none)
        (store.objects entity).providers state) := by
    intro state hstate
    obtain ⟨provider, hprovider, hexhausted⟩ := hexhausted
    have hleaving : ∀ provider ∈ (store.objects entity).providers, ∀ state : Supplementing,
        state.store = store → Leaving Supplementing.store store
          (Supplementing.supplementInstance (getInstances depth provider.1 none) provider.2
            state) := by
      rintro provider hprovider state rfl
      exact supplementInstance_leaving (hsilent provider hprovider)
    have hnever : ∀ state : Supplementing, state.store = store → Exhausted Supplementing.store
        (Supplementing.supplementInstance (getInstances depth provider.1 none) provider.2 state) := by
      rintro state rfl
      exact supplementInstance_exhausted hexhausted
    exact Fallible.forEach_fails hleaving ⟨provider, hprovider, hnever⟩ hstate
  have hvisit : ∀ stored ∈ (store.objects entity).instances.entries, Exhausted id
      (Visiting.visitInstance (fun provider => getInstances depth provider none)
        (store.objects entity).providers condition entity stored store) := by
    intro stored _
    apply visitInstance_ends
    · apply Fallible.collect_never (OrderedMap.insertOrAssign_ne_nil _ _ _)
      exact fun element _ => visitElement_ends condition element (hsupplement _ rfl)
    · exact fun _ _ hreturned => hreturned
    · exact fun _ _ _ hfailed => hfailed
  rw [getInstances_succ]
  exact (Fallible.collect_never hpublished hvisit).bind_never

/-- If the objects that publish something are those below which the provider links do not
end, their enumerations exhaust the stack, whatever room there is. -/
theorem getInstances_exhausted
    (hpublished : ∀ object, (store.objects object).instances.entries = [] ↔
      Acc (Supplements store) object)
    (depth : ℕ) {entity : EntityId} (hendless : ¬Acc (Supplements store) entity)
    (condition : Option Condition) : Exhausted id (getInstances depth entity condition store) := by
  induction depth generalizing entity condition with
  | zero => rfl
  | succ depth ih =>
      apply getInstances_succ_exhausted
      · exact fun hempty => hendless ((hpublished entity).mp hempty)
      · intro provider _
        by_cases hacc : Acc (Supplements store) provider.1
        · cases depth with
          | zero => exact .inr rfl
          | succ depth =>
              exact .inl (getInstances_unpublished ((hpublished provider.1).mpr hacc) depth none)
        · exact .inr (ih hacc none)
      · obtain ⟨endless, hnotAcc, linkRule, hlinked⟩ := exists_not_acc_lt_of_not_acc hendless
        exact ⟨_, hlinked, ih hnotAcc none⟩

theorem not_terminates_of_endless
    (hpublished : ∀ object, (store.objects object).instances.entries = [] ↔
      Acc (Supplements store) object)
    {entity : EntityId} (hendless : ¬Acc (Supplements store) entity) (condition : Option Condition) :
    ¬Terminates store entity condition := by
  rw [terminates_iff_exists_room]
  rintro ⟨room, hended⟩
  obtain ⟨failure, after, hresult, rfl⟩ :=
    (getInstances_exhausted hpublished room hendless condition).exists_error
  exact hended after hresult

/-- The enumerations of an entity terminate for all published instances exactly when descent
along the provider links ends below it. -/
theorem terminates_iff_acc {entity : EntityId} (condition : Option Condition) :
    (∀ instances, Terminates (store.publish instances) entity condition) ↔
      Acc (Supplements store) entity := by
  constructor
  · intro hterminates
    by_contra hendless
    classical
    let instances : EntityId → List DBusInstance := fun object =>
      if Acc (Supplements store) object then [] else [bareInstance "/"]
    have hpublished : ∀ object, ((store.publish instances).objects object).instances.entries = [] ↔
        Acc (Supplements (store.publish instances)) object := by
      intro object
      rw [supplements_publish]
      by_cases hacc : Acc (Supplements store) object
      · refine iff_of_true ?_ hacc
        simp [EntityStore.publish, EntityStore.setInstances, instances, hacc, OrderedMap.empty]
      · refine iff_of_false ?_ hacc
        simp [EntityStore.publish, EntityStore.setInstances, instances, hacc,
          OrderedMap.insertOrAssign_ne_nil]
    rw [← supplements_publish store instances] at hendless
    exact not_terminates_of_endless hpublished hendless condition (hterminates instances)
  · intro hacc instances
    rw [← supplements_publish store instances] at hacc
    exact terminates_of_acc hacc condition

end Exhausts

end ObmcWebapp.Entities
