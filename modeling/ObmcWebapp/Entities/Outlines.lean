/-
# The hashes an enumeration keeps

An enumeration supplements the fields of the elements it visits and writes them back. It
keeps the objects: in every store it leaves, also by an exception, each entity has the
same published instances with the same elements up to fields. What it returns has the
hashes of the elements, in their order.
-/

import ObmcWebapp.Entities.Settling

namespace ObmcWebapp.Entities

open ObmcWebapp.Core

variable [StdHash]

/-- The hashes of the elements of an instance, each under its key. -/
def DBusInstance.outline (inst : DBusInstance) : OrderedMap ℕ ℕ :=
  inst.elements.mapValue fun _ element => element.getHash

theorem find?_outline (inst : DBusInstance) (wanted : ℕ) :
    inst.outline.find? wanted =
      if wanted = inst.getHash then some inst.getHash
      else (inst.complexInstances.find? wanted).map fun child => child.getHash := by
  rw [DBusInstance.outline, OrderedMap.find?_mapValue, find?_elements]
  split_ifs <;> rfl

@[simp]
theorem outline_initDefaultFieldsValue (inst : DBusInstance) :
    inst.initDefaultFieldsValue.outline = inst.outline := by
  have hhash : inst.initDefaultFieldsValue.getHash = inst.getHash :=
    (initDefaultFieldsValue_sameObject inst.toInstance).getHash
  ext1 wanted
  rw [find?_outline, find?_outline, hhash]
  rfl

/-- Writing back an element with its hash keeps the outline. -/
theorem outline_putElement {inst : DBusInstance} {hash : ℕ} {element : Instance}
    (hfound : inst.outline.find? hash = some element.getHash) :
    (inst.putElement hash element).outline = inst.outline ∧
      (inst.putElement hash element).getHash = inst.getHash := by
  rw [find?_outline] at hfound
  by_cases hown : hash = inst.getHash
  · rw [if_pos hown] at hfound
    have hhash : element.getHash = inst.getHash := (Option.some.inj hfound).symm
    have hput : (inst.putElement hash element) = { inst with toInstance := element } := by
      rw [DBusInstance.putElement, if_pos hown]
    rw [hput]
    refine ⟨?_, hhash⟩
    ext1 wanted
    rw [find?_outline, find?_outline, hhash]
  · rw [if_neg hown] at hfound
    have hput : inst.putElement hash element = { inst with
        complexInstances := inst.complexInstances.insertOrAssign hash element } := by
      rw [DBusInstance.putElement, if_neg hown]
    rw [hput]
    refine ⟨?_, rfl⟩
    ext1 wanted
    rw [find?_outline, find?_outline, OrderedMap.find?_insertOrAssign]
    by_cases hwanted : wanted = hash
    · subst hwanted
      rw [if_neg hown, if_neg hown, if_pos rfl, hfound]
      rfl
    · rw [if_neg hwanted]

/-- The hashes an enumeration of an entity shows. -/
def shownHashes (store : EntityStore) (entity : EntityId) : List ℕ :=
  (store.objects entity).instances.values.flatMap fun inst => inst.outline.values

/-- The stores publish the same objects. -/
def SameOutlines (store reference : EntityStore) : Prop :=
  ∀ entity hash, ((store.objects entity).instances.find? hash).map DBusInstance.outline =
    ((reference.objects entity).instances.find? hash).map DBusInstance.outline

theorem shownHashes_eq {store reference : EntityStore} (hsame : SameOutlines store reference)
    (entity : EntityId) : shownHashes store entity = shownHashes reference entity := by
  have houtlines : (store.objects entity).instances.mapValue (fun _ inst => inst.outline) =
      (reference.objects entity).instances.mapValue fun _ inst => inst.outline := by
    ext1 wanted
    rw [OrderedMap.find?_mapValue, OrderedMap.find?_mapValue]
    exact hsame entity wanted
  have hvalues := congrArg OrderedMap.values houtlines
  rw [OrderedMap.values_mapValue, OrderedMap.values_mapValue] at hvalues
  rw [shownHashes, shownHashes, List.flatMap_def, List.flatMap_def]
  congr 1
  have hlists := congrArg (List.map OrderedMap.values) hvalues
  rw [List.map_map, List.map_map] at hlists
  exact hlists

theorem SameOutlines.putInstance {store reference : EntityStore}
    (hsame : SameOutlines store reference) {entity : EntityId} {hash : ℕ} {inst : DBusInstance}
    (hfound : ((reference.objects entity).instances.find? hash).map DBusInstance.outline =
      some inst.outline) :
    SameOutlines (store.putInstance entity hash inst) reference := by
  intro other wanted
  by_cases hother : other = entity
  · subst hother
    rw [EntityStore.instances_putInstance, OrderedMap.find?_insertOrAssign]
    by_cases hwanted : wanted = hash
    · rw [if_pos hwanted, hwanted, hfound, Option.map_some]
    · rw [if_neg hwanted]
      exact hsame other wanted
  · rw [store.objects_putInstance_of_ne entity other hash inst hother]
    exact hsame other wanted

variable {reference : EntityStore}

/-- Supplementing an element keeps the objects of the store and the element's own. -/
theorem supplementAll_outlines {enumerate : EntityId → EStateM Failure EntityStore (List Instance)}
    (henumerate : ∀ provider store, SameOutlines store reference →
      Fallible.Leaves (fun after => SameOutlines after reference) (enumerate provider store))
    (providers : List (EntityId × ProviderLinkRule)) {state : Supplementing}
    (hstate : SameOutlines state.store reference) :
    Fallible.Leaves (fun after : Supplementing =>
        SameOutlines after.store reference ∧ SameObject after.element state.element)
      (Supplementing.supplementAll enumerate providers state) := by
  have hrule : ∀ (rule : ProviderLinkRule) (supplementing : Instance) (next : Supplementing),
      SameOutlines next.store reference ∧ SameObject next.element state.element →
      Fallible.Leaves (fun after : Supplementing =>
          SameOutlines after.store reference ∧ SameObject after.element state.element)
        (Supplementing.applyRule rule supplementing next) := by
    rintro rule supplementing next ⟨hstore, helement⟩
    unfold Supplementing.applyRule
    cases rule supplementing next.toLink with
    | ok value link =>
        exact ⟨hstore, ⟨helement.serviceName, helement.objectPath, helement.dbusQuery⟩⟩
    | error exception link =>
        exact ⟨hstore, ⟨helement.serviceName, helement.objectPath, helement.dbusQuery⟩⟩
  have hprovider : ∀ provider ∈ providers, ∀ next : Supplementing,
      SameOutlines next.store reference ∧ SameObject next.element state.element →
      Fallible.Leaves (fun after : Supplementing =>
          SameOutlines after.store reference ∧ SameObject after.element state.element)
        (Supplementing.supplementInstance (enumerate provider.1) provider.2 next) := by
    rintro provider - next ⟨hstore, helement⟩
    apply Fallible.Leaves.bind
    · exact Fallible.Leaves.zoom (henumerate provider.1 next.store hstore)
        fun after hafter => ⟨hafter, helement⟩
    · intro instances last hlast
      exact Fallible.forEach_preserves (fun supplementing _ => hrule provider.2 supplementing) hlast
  exact Fallible.forEach_preserves hprovider ⟨hstate, ⟨rfl, rfl, rfl⟩⟩

omit [StdHash] in
/-- Visits that all show their element. -/
theorem sameObject_reduceOption {elements : List (ℕ × Instance)} {visited : List (Option Instance)}
    (hvisited : List.Forall₂ (fun element (shown : Option Instance) =>
      ∃ supplemented, shown = some supplemented ∧ SameObject supplemented element.2)
        elements visited) :
    List.Forall₂ SameObject visited.reduceOption (elements.map Prod.snd) := by
  induction hvisited with
  | nil => exact .nil
  | cons hfirst _ ih =>
      obtain ⟨supplemented, rfl, hsame⟩ := hfirst
      exact .cons hsame ih

/-- A published instance is written back with its outline, and its elements are shown. -/
theorem visitInstance_outlines {enumerate : EntityId → EStateM Failure EntityStore (List Instance)}
    (henumerate : ∀ provider store, SameOutlines store reference →
      Fallible.Leaves (fun after => SameOutlines after reference) (enumerate provider store))
    (providers : List (EntityId × ProviderLinkRule)) (entity : EntityId)
    {stored : ℕ × DBusInstance} {store : EntityStore} (hstore : SameOutlines store reference)
    (hfound : ((reference.objects entity).instances.find? stored.1).map DBusInstance.outline =
      some stored.2.outline) :
    Fallible.Returns (fun shown => List.Forall₂ SameObject shown (exposed stored.2))
      (fun after => SameOutlines after reference)
      (Visiting.visitInstance enumerate providers none entity stored store) := by
  let inst := stored.2.initDefaultFieldsValue
  let kept : Visiting → Prop := fun state =>
    SameOutlines state.store reference ∧ state.inst.outline = stored.2.outline
  have helement : ∀ element ∈ inst.elements.entries, ∀ state, kept state →
      Fallible.Returns (fun shown : Option Instance =>
          ∃ supplemented, shown = some supplemented ∧ SameObject supplemented element.2)
        kept (Visiting.visitElement enumerate providers none element state) := by
    rintro element hmem state ⟨hstate, houtline⟩
    have hkept := supplementAll_outlines henumerate providers
      (show SameOutlines (⟨state.store, element.2⟩ : Supplementing).store reference from hstate)
    have hput : ∀ supplemented : Supplementing, SameOutlines supplemented.store reference ∧
        SameObject supplemented.element element.2 → kept (state.putElement element.1 supplemented) := by
      rintro supplemented ⟨hsupplemented, hsame⟩
      have hheld : state.inst.outline.find? element.1 = some supplemented.element.getHash := by
        rw [houtline, ← outline_initDefaultFieldsValue, DBusInstance.outline,
          OrderedMap.find?_mapValue, OrderedMap.mem_entries_iff.mp hmem, Option.map_some,
          hsame.getHash]
      exact ⟨hsupplemented, (outline_putElement hheld).1.trans houtline⟩
    unfold Visiting.visitElement
    cases hresult : Supplementing.supplementAll enumerate providers ⟨state.store, element.2⟩ with
    | ok value supplemented =>
        rw [hresult] at hkept
        exact ⟨⟨supplemented.element, rfl, hkept.2⟩, hput supplemented hkept⟩
    | error failure supplemented =>
        rw [hresult] at hkept
        exact hput supplemented hkept
  have hwalk := Fallible.collect_returns helement
    (show kept ⟨store, inst⟩ from ⟨hstore, outline_initDefaultFieldsValue stored.2⟩)
  unfold Visiting.visitInstance
  apply Fallible.Returns.zoom
  · apply Fallible.Returns.bind hwalk
    intro visited next hvisited hnext
    exact ⟨sameObject_reduceOption hvisited, hnext⟩
  · rintro next ⟨hnext, houtline⟩
    exact hnext.putInstance (hfound.trans (congrArg some houtline.symm))

/-- An enumeration shows the elements of the published instances, and the objects stay. -/
theorem getInstances_shows (depth : ℕ) (entity : EntityId) {store : EntityStore}
    (hstore : SameOutlines store reference) :
    Fallible.Returns (fun shown => List.Forall₂ SameObject shown
        ((store.objects entity).instances.values.flatMap exposed))
      (fun after => SameOutlines after reference) (getInstances depth entity none store) := by
  induction depth generalizing entity store with
  | zero => exact hstore
  | succ depth ih =>
      have henumerate : ∀ provider store, SameOutlines store reference →
          Fallible.Leaves (fun after => SameOutlines after reference)
            (getInstances depth provider none store) :=
        fun provider store hsame => (ih provider hsame).leaves
      have hvisit : ∀ stored ∈ (store.objects entity).instances.entries, ∀ state,
          SameOutlines state reference →
          Fallible.Returns (fun shown => List.Forall₂ SameObject shown (exposed stored.2))
            (fun after => SameOutlines after reference)
            (Visiting.visitInstance (fun provider => getInstances depth provider none)
              (store.objects entity).providers none entity stored state) := by
        intro stored hmem state hstate
        apply visitInstance_outlines henumerate _ _ hstate
        rw [← hstore entity stored.1, OrderedMap.mem_entries_iff.mp hmem]
        rfl
      rw [getInstances_succ]
      apply Fallible.Returns.bind (Fallible.collect_returns hvisit hstore)
      intro visited last hvisited hlast
      refine ⟨?_, hlast⟩
      rw [OrderedMap.values, List.flatMap_map, List.flatMap_def]
      apply List.rel_flatten
      rw [List.forall₂_map_right_iff]
      exact hvisited.flip

/-- What an enumeration shows has the hashes of the elements, and the objects stay. -/
theorem getInstances_outlines (depth : ℕ) (entity : EntityId) {store : EntityStore}
    (hstore : SameOutlines store reference) :
    Fallible.Returns (fun shown : List Instance =>
        shown.map Instance.getHash = shownHashes reference entity)
      (fun after => SameOutlines after reference) (getInstances depth entity none store) := by
  have hshows := getInstances_shows depth entity hstore
  cases hresult : getInstances depth entity none store with
  | error failure after =>
      rw [hresult] at hshows
      exact hshows
  | ok shown after =>
      rw [hresult] at hshows
      refine ⟨?_, hshows.2⟩
      have hhashes : shown.map Instance.getHash =
          ((store.objects entity).instances.values.flatMap exposed).map Instance.getHash := by
        rw [← List.forall₂_eq_eq_eq, List.forall₂_map_left_iff, List.forall₂_map_right_iff]
        exact hshows.1.imp fun _ _ hsame => hsame.getHash
      have houtline : ∀ inst, (exposed inst).map Instance.getHash = inst.outline.values := by
        intro inst
        rw [← outline_initDefaultFieldsValue, DBusInstance.outline, OrderedMap.values_mapValue]
        rfl
      show shown.map Instance.getHash = shownHashes reference entity
      rw [hhashes, ← shownHashes_eq hstore, shownHashes, List.map_flatMap]
      simp only [houtline]

/-- An enumeration fails as a rule does, or when the stack is exhausted. -/
theorem getInstances_failsAs (depth : ℕ) (entity : EntityId) (condition : Option Condition) :
    Fallible.FailsAs (fun failure => failure ≠ .undefinedBehaviour .emptyBack)
      (getInstances depth entity condition) := by
  have hends : ∀ store, StoreEnds id (fun _ => True)
      (fun failure _ => failure ≠ .undefinedBehaviour .emptyBack)
      (getInstances depth entity condition store) := by
    induction depth generalizing entity condition with
    | zero => exact fun store => by simp [getInstances, Fallible.Ends]
    | succ depth ih =>
        intro store
        apply getInstances_ends condition
        · exact fun provider _ state _ => ih provider.1 none state
        · intro provider _ supplementing state _
          exact applyRule_ends provider.2 supplementing state (fun _ _ _ => trivial)
            fun failed _ _ => failed.failure_ne_emptyBack
        · exact fun _ _ _ _ => trivial
        · exact fun _ _ _ _ hfailed => hfailed
        · trivial
  exact Fallible.failsAs_iff_ends.mpr hends

end ObmcWebapp.Entities
