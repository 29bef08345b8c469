/-
# Enumerations that settle

An enumeration writes: it resets the published instances, and the link rules change
what they supplement. Under three conditions it nevertheless always shows the same.
Provider links do not form a cycle, no rule touches the field object of absent members,
and supplementing an element a second time, also after a reset, gives what it gave
the first time.

A `Linkage` collects these conditions for a store. They give every entity a view, a
pure function of the published instances, and a store is settled when its enumerations
show the views. Enumerating a settled store shows the view and leaves a settled store,
or fails as the view does.
-/

import ObmcWebapp.Entities.Enumeration

namespace ObmcWebapp.Entities

open ObmcWebapp.Core

/-- The rule leaves the field object of absent members at its first value. -/
def KeepsNotAvailable (rule : ProviderLinkRule) : Prop :=
  ∀ supplementing target,
    Fallible.Leaves (fun link : LinkState => link.notAvailable = .notAvailable)
      (rule supplementing ⟨target, .notAvailable⟩)

/-- What a rule makes of its target. -/
def effect (rule : ProviderLinkRule) (supplementing target : Instance) :
    Except RuleFailure Instance :=
  match rule supplementing ⟨target, .notAvailable⟩ with
  | .ok _ link => .ok { target with memberInstances := link.target.memberInstances }
  | .error failed _ => .error failed

/-- Invoking a rule on an element makes of it what the rule does, and leaves the store. -/
theorem applyRule_effect {rule : ProviderLinkRule} (hkeeps : KeepsNotAvailable rule)
    (supplementing : Instance) {state : Supplementing}
    (hshared : state.store.notAvailable = .notAvailable) :
    Fallible.Follows RuleFailure.failure (fun _ next outcome => next = ⟨state.store, outcome⟩)
      (effect rule supplementing state.element)
      (Supplementing.applyRule rule supplementing state) := by
  have hleaves := hkeeps supplementing state.element
  have hlink : state.toLink = ⟨state.element, .notAvailable⟩ := by
    rw [Supplementing.toLink, hshared]
  unfold Supplementing.applyRule effect
  rw [hlink]
  cases hresult : rule supplementing ⟨state.element, .notAvailable⟩ with
  | ok value link =>
      rw [hresult] at hleaves
      have hstore : ({ state.store with notAvailable := link.notAvailable } : EntityStore) =
          state.store := by
        rw [show link.notAvailable = state.store.notAvailable from hleaves.trans hshared.symm]
      exact ⟨_, _, rfl, by rw [Supplementing.putLink, hstore]⟩
  | error failed link => exact ⟨_, rfl⟩

/-- What some rules, each with an instance to apply it with, make of a target. -/
def linkAll (links : List (ProviderLinkRule × Instance)) (target : Instance) :
    Except RuleFailure Instance :=
  links.foldlM (fun target link => effect link.1 link.2 target) target

/-- Supplementing changes fields only. -/
structure SameObject (first second : Instance) : Prop where
  serviceName : first.serviceName = second.serviceName
  objectPath : first.objectPath = second.objectPath
  dbusQuery : first.dbusQuery = second.dbusQuery

theorem SameObject.getHash [StdHash] {first second : Instance} (hsame : SameObject first second) :
    first.getHash = second.getHash := by
  rw [Instance.getHash, Instance.getHash, hsame.serviceName, hsame.objectPath]

theorem SameObject.symm {first second : Instance} (hsame : SameObject first second) :
    SameObject second first :=
  ⟨hsame.serviceName.symm, hsame.objectPath.symm, hsame.dbusQuery.symm⟩

theorem SameObject.trans {first second third : Instance} (hfirst : SameObject first second)
    (hsecond : SameObject second third) : SameObject first third :=
  ⟨hfirst.serviceName.trans hsecond.serviceName, hfirst.objectPath.trans hsecond.objectPath,
    hfirst.dbusQuery.trans hsecond.dbusQuery⟩

theorem effect_sameObject {rule : ProviderLinkRule} {supplementing target after : Instance}
    (heffect : effect rule supplementing target = .ok after) : SameObject after target := by
  unfold effect at heffect
  split at heffect
  · cases heffect
    exact ⟨rfl, rfl, rfl⟩
  · cases heffect

theorem linkAll_sameObject {links : List (ProviderLinkRule × Instance)} {target after : Instance}
    (hlink : linkAll links target = .ok after) : SameObject after target := by
  induction links generalizing target with
  | nil =>
      cases hlink
      exact ⟨rfl, rfl, rfl⟩
  | cons link links ih =>
      rw [linkAll, List.foldlM_cons] at hlink
      cases hfirst : effect link.1 link.2 target with
      | error failed => rw [hfirst] at hlink; cases hlink
      | ok middle =>
          rw [hfirst] at hlink
          exact (ih hlink).trans (effect_sameObject hfirst)

theorem initDefaultFieldsValue_sameObject (inst : Instance) :
    SameObject inst.initDefaultFieldsValue inst := by
  have hfold : ∀ (fields : List (MemberName × FieldType)) (start : Instance),
      SameObject (fields.foldl (fun inst field => inst.supplementOrUpdate field.1 field.2) start)
        start := by
    intro fields
    induction fields with
    | nil => exact fun start => ⟨rfl, rfl, rfl⟩
    | cons field fields ih =>
        intro start
        exact (ih _).trans ⟨by simp, by simp, by simp⟩
  exact hfold _ inst

/-- Two instances of one object with the same fields are equal. -/
theorem SameObject.eq {first second : Instance} (hsame : SameObject first second)
    (hfields : ∀ member, first.memberInstances.find? member =
      second.memberInstances.find? member) : first = second := by
  obtain ⟨service, path, query, fields⟩ := first
  obtain ⟨service', path', query', fields'⟩ := second
  obtain ⟨rfl, rfl, rfl⟩ := hsame
  congr
  ext1 member
  exact hfields member

/-- A second reset in a row changes nothing. -/
theorem initDefaultFieldsValue_again (inst : Instance) :
    inst.initDefaultFieldsValue.initDefaultFieldsValue = inst.initDefaultFieldsValue := by
  have hsame := initDefaultFieldsValue_sameObject inst
  apply (initDefaultFieldsValue_sameObject _).eq
  intro member
  rw [Instance.find?_initDefaultFieldsValue, hsame.dbusQuery, Instance.find?_initDefaultFieldsValue,
    ← Option.or_assoc, Option.or_self]

/-- Supplementing settles: an element that was supplemented stays as it is, and one that
is reset in between gets back to where it was. -/
structure Settles (links : List (ProviderLinkRule × Instance)) : Prop where
  again : ∀ target after : Instance, linkAll links target = .ok after →
    linkAll links after = .ok after
  reset : ∀ target after : Instance, linkAll links target.initDefaultFieldsValue = .ok after →
    linkAll links after.initDefaultFieldsValue = .ok after

/-- Without rules there is nothing to settle. -/
theorem settles_nil : Settles [] where
  again target after hlink := by
    cases hlink
    rfl
  reset target after hlink := by
    cases hlink
    rw [initDefaultFieldsValue_again]
    rfl

/-- What the rules make of an element, or the element itself when one of them fails. -/
def settle (links : List (ProviderLinkRule × Instance)) (target : Instance) : Instance :=
  match linkAll links target with
  | .ok after => after
  | .error _ => target

theorem settle_eq {links : List (ProviderLinkRule × Instance)} {target after : Instance}
    (hlink : linkAll links target = .ok after) : settle links target = after := by
  rw [settle, hlink]

theorem settle_sameObject (links : List (ProviderLinkRule × Instance)) (target : Instance) :
    SameObject (settle links target) target := by
  unfold settle
  split
  · next hlink => exact linkAll_sameObject hlink
  · exact ⟨rfl, rfl, rfl⟩

section Published

variable [StdHash]

/-- What an enumeration shows of one published instance. -/
def shownWith (links : List (ProviderLinkRule × Instance)) (inst : DBusInstance) :
    Except RuleFailure (List Instance) :=
  inst.initDefaultFieldsValue.elements.values.mapM (linkAll links)

/-- Write an element of an instance back. -/
def DBusInstance.putElement (inst : DBusInstance) (hash : ℕ) (element : Instance) : DBusInstance :=
  if hash = inst.getHash then { inst with toInstance := element }
  else { inst with complexInstances := inst.complexInstances.insertOrAssign hash element }

/-- An instance whose elements have been supplemented. -/
def settledInst (links : List (ProviderLinkRule × Instance)) (inst : DBusInstance) : DBusInstance :=
  inst.initDefaultFieldsValue.elements.entries.foldl
    (fun inst element => inst.putElement element.1 (settle links element.2))
    inst.initDefaultFieldsValue

/-- Writing back some elements of an instance, each under its own key. -/
theorem foldl_putElement {supplemented : Instance → Instance}
    (hsame : ∀ element, SameObject (supplemented element) element)
    {elements : List (ℕ × Instance)} (hnodup : (elements.map Prod.fst).Nodup)
    {inst : DBusInstance} (hself : ∀ child, (inst.getHash, child) ∈ elements →
      child = inst.toInstance) :
    let after := elements.foldl
      (fun inst element => inst.putElement element.1 (supplemented element.2)) inst
    after.toInstance =
      (if inst.getHash ∈ elements.map Prod.fst then supplemented inst.toInstance
        else inst.toInstance) ∧
    ∀ wanted, after.complexInstances.find? wanted =
      if wanted = inst.getHash then inst.complexInstances.find? wanted
      else ((elements.lookup wanted).map supplemented).or
        (inst.complexInstances.find? wanted) := by
  induction elements generalizing inst with
  | nil => exact ⟨rfl, fun wanted => by simp⟩
  | cons element elements ih =>
      obtain ⟨hash, child⟩ := element
      rw [List.map_cons, List.nodup_cons] at hnodup
      have habsent : elements.lookup hash = none :=
        Entries.lookup_eq_none_iff.mpr fun entry hmem heq =>
          hnodup.1 (List.mem_map.mpr ⟨entry, hmem, heq⟩)
      rw [List.foldl_cons]
      by_cases hown : hash = inst.getHash
      · -- the element is the instance itself, and no later one is
        subst hown
        obtain ⟨next, hput⟩ : ∃ next, inst.putElement inst.getHash (supplemented child) = next :=
          ⟨_, rfl⟩
        have hchild : child = inst.toInstance := hself child (by simp)
        have hnext : next = { inst with toInstance := supplemented inst.toInstance } := by
          rw [← hput, DBusInstance.putElement, if_pos rfl, hchild]
        have hhash : next.getHash = inst.getHash := by
          rw [hnext]
          exact (hsame _).getHash
        obtain ⟨htoInstance, hcomplex⟩ := @ih hnodup.2 next fun later hlater => by
          rw [hhash] at hlater
          exact absurd (List.mem_map_of_mem hlater) hnodup.1
        rw [hput]
        rw [hhash, if_neg hnodup.1] at htoInstance
        refine ⟨htoInstance.trans (by simp [hnext]), fun wanted => ?_⟩
        rw [hcomplex, hhash, Entries.lookup_cons, hnext]
        split_ifs <;> rfl
      · obtain ⟨next, hput⟩ : ∃ next, inst.putElement hash (supplemented child) = next :=
          ⟨_, rfl⟩
        have hnext : next = { inst with
            complexInstances := inst.complexInstances.insertOrAssign hash (supplemented child) } := by
          rw [← hput, DBusInstance.putElement, if_neg hown]
        have hhash : next.getHash = inst.getHash := by rw [hnext]
        obtain ⟨htoInstance, hcomplex⟩ := @ih hnodup.2 next fun later hlater => by
          rw [hnext]
          rw [hhash] at hlater
          exact hself later (List.mem_cons_of_mem _ hlater)
        rw [hput]
        rw [hhash] at htoInstance
        refine ⟨?_, fun wanted => ?_⟩
        · rw [htoInstance, hnext]
          simp only [List.map_cons, List.mem_cons, Ne.symm hown, false_or]
        rw [hcomplex, hhash, Entries.lookup_cons, hnext, OrderedMap.find?_insertOrAssign]
        by_cases hwanted : wanted = hash
        · subst hwanted
          simp [hown, habsent]
        · simp [hwanted]

/-- What is visited of an instance is found under the key of an element. -/
theorem find?_elements (inst : DBusInstance) (wanted : ℕ) :
    inst.elements.find? wanted =
      if wanted = inst.getHash then some inst.toInstance
      else inst.complexInstances.find? wanted := by
  rw [DBusInstance.elements, OrderedMap.find?_insertOrAssign]

/-- A supplemented instance, reset, has the supplemented elements of the reset one, with
itself reset once more. -/
theorem elements_settledInst (links : List (ProviderLinkRule × Instance)) (inst : DBusInstance) :
    (settledInst links inst).initDefaultFieldsValue.elements =
      inst.initDefaultFieldsValue.elements.mapValue fun hash element =>
        if hash = inst.initDefaultFieldsValue.getHash then
          (settle links element).initDefaultFieldsValue
        else settle links element := by
  obtain ⟨start, hstart⟩ : ∃ start, inst.initDefaultFieldsValue = start := ⟨_, rfl⟩
  have hnodup : (start.elements.entries.map Prod.fst).Nodup :=
    List.pairwise_map.mpr (start.elements.sorted.imp ne_of_lt)
  have hself : ∀ child, (start.getHash, child) ∈ start.elements.entries →
      child = start.toInstance := by
    intro child hmem
    rw [OrderedMap.mem_entries_iff, find?_elements, if_pos rfl] at hmem
    exact (Option.some.inj hmem).symm
  obtain ⟨htoInstance, hcomplex⟩ := foldl_putElement (settle_sameObject links) hnodup hself
  obtain ⟨after, hafter⟩ : ∃ after, settledInst links inst = after := ⟨_, rfl⟩
  have hfold : start.elements.entries.foldl (fun inst element =>
      inst.putElement element.1 (settle links element.2)) start = after := by
    rw [← hafter, settledInst, hstart]
  have hpresent : start.getHash ∈ start.elements.entries.map Prod.fst :=
    List.mem_map_of_mem (OrderedMap.mem_entries_iff.mpr
      ((find?_elements start start.getHash).trans (if_pos rfl)))
  rw [hfold, if_pos hpresent] at htoInstance
  simp only [hfold] at hcomplex
  have hhash : after.initDefaultFieldsValue.getHash = start.getHash := by
    have hsettled := settle_sameObject links start.toInstance
    rw [← htoInstance] at hsettled
    exact (initDefaultFieldsValue_sameObject _).getHash.trans hsettled.getHash
  rw [hafter, hstart]
  ext wanted
  rw [find?_elements, hhash, OrderedMap.find?_mapValue, find?_elements]
  by_cases hwanted : wanted = start.getHash
  · simp only [if_pos hwanted, Option.map_some, ← htoInstance]
    rfl
  · simp only [if_neg hwanted]
    have hkept : after.initDefaultFieldsValue.complexInstances = after.complexInstances := rfl
    have hlookup : start.elements.entries.lookup wanted = start.complexInstances.find? wanted :=
      (find?_elements start wanted).trans (if_neg hwanted)
    rw [hkept, hcomplex, if_neg hwanted, hlookup]
    cases start.complexInstances.find? wanted <;> rfl

/-- Supplementing an instance again shows what it showed. -/
theorem shownWith_settledInst {links : List (ProviderLinkRule × Instance)}
    (hsettles : Settles links) {inst : DBusInstance} {shown : List Instance}
    (hshown : shownWith links inst = .ok shown) :
    shownWith links (settledInst links inst) = .ok shown := by
  have hlinked : ∀ element ∈ inst.initDefaultFieldsValue.elements.values,
      linkAll links element = .ok (settle links element) := by
    intro element hmem
    obtain ⟨after, hafter⟩ := Fallible.exists_ok_of_mapM hshown element hmem
    rw [settle_eq hafter, hafter]
  have hfirst := Fallible.mapM_eq_ok hlinked
  rw [← shownWith, hshown] at hfirst
  rw [shownWith, elements_settledInst, hfirst, OrderedMap.values, OrderedMap.mapValue,
    List.map_map, List.mapM_map, OrderedMap.values, List.map_map]
  apply Fallible.mapM_eq_ok
  intro entry hentry
  have hentryLinked := hlinked entry.2 (List.mem_map_of_mem hentry)
  simp only [Function.comp_apply]
  split_ifs with hown
  · -- the entry is the instance itself
    have hself : inst.toInstance.initDefaultFieldsValue = entry.2 := by
      have hfound := OrderedMap.mem_entries_iff.mp hentry
      rw [find?_elements, if_pos hown] at hfound
      exact Option.some.inj hfound
    rw [← hself] at hentryLinked ⊢
    exact hsettles.reset _ _ hentryLinked
  · exact hsettles.again _ _ hentryLinked

end Published

/-! ## Settled stores -/

section Settled

variable [StdHash]

/-- The rules of an entity with the instances its providers show. -/
def linksOf (origin : EntityStore) (shows : EntityId → List Instance) (entity : EntityId) :
    List (ProviderLinkRule × Instance) :=
  (origin.objects entity).providers.flatMap fun provider =>
    (shows provider.1).map fun supplementing => (provider.2, supplementing)

/-- What an enumeration of an entity shows when its providers show the given instances. -/
def viewOf (origin : EntityStore) (shows : EntityId → List Instance) (entity : EntityId) :
    Except RuleFailure (List Instance) :=
  ((origin.objects entity).instances.values.mapM (shownWith (linksOf origin shows entity))).map
    List.flatten

/-- The conditions under which the enumerations of a store settle. -/
structure Linkage (origin : EntityStore) where
  /-- What the enumerations of the providers show. -/
  shows : EntityId → List Instance
  /-- How deep the provider links of an entity go. -/
  rank : EntityId → ℕ
  notAvailable : origin.notAvailable = .notAvailable
  descends : ∀ entity, ∀ provider ∈ (origin.objects entity).providers,
    rank provider.1 < rank entity
  keeps : ∀ entity, ∀ provider ∈ (origin.objects entity).providers, KeepsNotAvailable provider.2
  shown : ∀ entity, ∀ provider ∈ (origin.objects entity).providers,
    viewOf origin shows provider.1 = .ok (shows provider.1)
  settles : ∀ entity, Settles (linksOf origin shows entity)

/-- A view is missing exactly when an element cannot be supplemented, and then for the
failure of such an element. -/
theorem exists_of_viewOf_error {origin : EntityStore} {shows : EntityId → List Instance}
    {entity : EntityId} {failed : RuleFailure}
    (herror : viewOf origin shows entity = .error failed) :
    ∃ target ∈ (origin.objects entity).instances.values.flatMap exposed,
      linkAll (linksOf origin shows entity) target = .error failed := by
  unfold viewOf at herror
  cases hlist : (origin.objects entity).instances.values.mapM
    (shownWith (linksOf origin shows entity)) with
  | ok shown => rw [hlist] at herror; cases herror
  | error failed =>
      rw [hlist] at herror
      cases herror
      obtain ⟨inst, hinst, hshown⟩ := Fallible.exists_error_of_mapM hlist
      obtain ⟨target, htarget, hlink⟩ := Fallible.exists_error_of_mapM hshown
      exact ⟨target, List.mem_flatMap.mpr ⟨inst, hinst, htarget⟩, hlink⟩

theorem viewOf_error_of_exists {origin : EntityStore} {shows : EntityId → List Instance}
    {entity : EntityId} {target : Instance} {failed : RuleFailure}
    (htarget : target ∈ (origin.objects entity).instances.values.flatMap exposed)
    (hlink : linkAll (linksOf origin shows entity) target = .error failed) :
    ∃ missing, viewOf origin shows entity = .error missing := by
  obtain ⟨inst, hinst, hexposed⟩ := List.mem_flatMap.mp htarget
  unfold viewOf
  cases hlist : (origin.objects entity).instances.values.mapM
    (shownWith (linksOf origin shows entity)) with
  | error missing => exact ⟨missing, rfl⟩
  | ok shown =>
      obtain ⟨elements, hshown⟩ := Fallible.exists_ok_of_mapM hlist inst hinst
      obtain ⟨after, hafter⟩ := Fallible.exists_ok_of_mapM hshown target hexposed
      rw [hlink] at hafter
      cases hafter

namespace Linkage

variable {origin : EntityStore} (linkage : Linkage origin)

def links (entity : EntityId) : List (ProviderLinkRule × Instance) :=
  linksOf origin linkage.shows entity

/-- What an enumeration of an entity shows. -/
def view (entity : EntityId) : Except RuleFailure (List Instance) :=
  viewOf origin linkage.shows entity

/-- The enumerations of the store show what those of the origin do. -/
structure Settled (store : EntityStore) : Prop where
  members : ∀ entity, (store.objects entity).members = (origin.objects entity).members
  providers : ∀ entity, (store.objects entity).providers = (origin.objects entity).providers
  notAvailable : store.notAvailable = .notAvailable
  instances : ∀ entity hash,
    ((store.objects entity).instances.find? hash).map (shownWith (linkage.links entity)) =
      ((origin.objects entity).instances.find? hash).map (shownWith (linkage.links entity))

theorem settled_origin : linkage.Settled origin where
  members _ := rfl
  providers _ := rfl
  notAvailable := linkage.notAvailable
  instances _ _ := rfl

variable {linkage} {store : EntityStore}

/-- Writing back an instance that shows the same leaves a settled store. -/
theorem Settled.putInstance (hsettled : linkage.Settled store) {entity : EntityId} {hash : ℕ}
    {inst : DBusInstance} (hshown : some (shownWith (linkage.links entity) inst) =
      ((origin.objects entity).instances.find? hash).map (shownWith (linkage.links entity))) :
    linkage.Settled (store.putInstance entity hash inst) := by
  constructor
  · exact fun other => (store.members_putInstance entity other hash inst).trans (hsettled.members other)
  · exact fun other =>
      (store.providers_putInstance entity other hash inst).trans (hsettled.providers other)
  · exact hsettled.notAvailable
  · intro other wanted
    by_cases hsame : other = entity
    · subst hsame
      rw [EntityStore.instances_putInstance, OrderedMap.find?_insertOrAssign]
      by_cases hwanted : wanted = hash
      · rw [if_pos hwanted, hwanted]
        exact hshown
      · rw [if_neg hwanted]
        exact hsettled.instances other wanted
    · rw [store.objects_putInstance_of_ne entity other hash inst hsame, hsettled.instances]

/-- A settled store has the view of the origin. -/
theorem Settled.mapM_shownWith (hsettled : linkage.Settled store) (entity : EntityId) :
    (store.objects entity).instances.values.mapM (shownWith (linkage.links entity)) =
      (origin.objects entity).instances.values.mapM (shownWith (linkage.links entity)) := by
  have hmap : (store.objects entity).instances.mapValue
      (fun _ => shownWith (linkage.links entity)) =
        (origin.objects entity).instances.mapValue
          fun _ => shownWith (linkage.links entity) := by
    ext hash
    rw [OrderedMap.find?_mapValue, OrderedMap.find?_mapValue, hsettled.instances]
  have hvalues : (store.objects entity).instances.values.map (shownWith (linkage.links entity)) =
      (origin.objects entity).instances.values.map (shownWith (linkage.links entity)) := by
    rw [← OrderedMap.values_mapValue, hmap, OrderedMap.values_mapValue]
  have hmapM : ∀ instances : List DBusInstance,
      instances.mapM (shownWith (linkage.links entity)) =
        (instances.map (shownWith (linkage.links entity))).mapM id := by
    intro instances
    rw [List.mapM_map]
    rfl
  rw [hmapM, hmapM, hvalues]

/-- The enumerations of the providers of an entity show what the linkage says. -/
def ProvidersShow (linkage : Linkage origin)
    (enumerate : EntityId → EStateM Failure EntityStore (List Instance))
    (entity : EntityId) : Prop :=
  ∀ provider ∈ (origin.objects entity).providers, ∀ store, linkage.Settled store →
    ∃ after, enumerate provider.1 store = .ok (linkage.shows provider.1) after ∧
      linkage.Settled after

/-- A state in which an element has been supplemented to some value. -/
def Reached (linkage : Linkage origin) (state : Supplementing) (element : Instance) : Prop :=
  linkage.Settled state.store ∧ state.element = element

theorem applyRule_follows {rule : ProviderLinkRule} (hkeeps : KeepsNotAvailable rule)
    (supplementing : Instance) {state : Supplementing} {element : Instance}
    (hstate : linkage.Reached state element) :
    Fallible.Follows RuleFailure.failure (fun _ next outcome => linkage.Reached next outcome)
      (effect rule supplementing element) (Supplementing.applyRule rule supplementing state) := by
  obtain ⟨hsettled, rfl⟩ := hstate
  have happly := applyRule_effect hkeeps supplementing hsettled.notAvailable
  cases heffect : effect rule supplementing state.element with
  | ok outcome =>
      rw [heffect] at happly
      obtain ⟨value, next, hresult, rfl⟩ := happly
      exact ⟨value, _, hresult, hsettled, rfl⟩
  | error failed =>
      rw [heffect] at happly
      exact happly

/-- The rules are applied provider by provider. -/
theorem linkAll_links (entity : EntityId) (element : Instance) :
    linkAll (linkage.links entity) element =
      (origin.objects entity).providers.foldlM (fun target provider =>
        (linkage.shows provider.1).foldlM
          (fun target supplementing => effect provider.2 supplementing target) target) element := by
  rw [linkAll, links, linksOf]
  induction (origin.objects entity).providers generalizing element with
  | nil => rfl
  | cons provider providers ih =>
      rw [List.flatMap_cons, List.foldlM_append, List.foldlM_cons, List.foldlM_map]
      congr 1
      funext next
      exact ih next

theorem supplementAll_follows
    {enumerate : EntityId → EStateM Failure EntityStore (List Instance)} {entity : EntityId}
    (henumerate : linkage.ProvidersShow enumerate entity)
    {state : Supplementing} {element : Instance} (hstate : linkage.Reached state element) :
    Fallible.Follows RuleFailure.failure (fun _ next outcome => linkage.Reached next outcome)
      (linkAll (linkage.links entity) element)
      (Supplementing.supplementAll enumerate (origin.objects entity).providers state) := by
  have hprovider : ∀ provider ∈ (origin.objects entity).providers, ∀ state element,
      linkage.Reached state element →
      Fallible.Follows RuleFailure.failure (fun _ next outcome => linkage.Reached next outcome)
        ((linkage.shows provider.1).foldlM
          (fun target supplementing => effect provider.2 supplementing target) element)
        (Supplementing.supplementInstance (enumerate provider.1) provider.2 state) := by
    intro provider hmem state element hstate
    obtain ⟨after, hresult, hafter⟩ := henumerate provider hmem state.store hstate.1
    unfold Supplementing.supplementInstance
    rw [Fallible.bind_ok (Fallible.zoom_ok hresult)]
    apply Fallible.forEach_follows
    · intro supplementing _ state element hstate
      exact applyRule_follows (linkage.keeps entity provider hmem) supplementing hstate
    · exact ⟨hafter, hstate.2⟩
  rw [linkAll_links]
  exact Fallible.forEach_follows hprovider hstate

/-- The walk over the elements of an instance has come this far. -/
def Walking (linkage : Linkage origin) (entity : EntityId) (start : DBusInstance)
    (visited : List (ℕ × Instance)) (state : Visiting) : Prop :=
  linkage.Settled state.store ∧
  state.inst = visited.foldl (fun inst element =>
    inst.putElement element.1 (settle (linkage.links entity) element.2)) start

theorem visitElement_follows
    {enumerate : EntityId → EStateM Failure EntityStore (List Instance)} {entity : EntityId}
    (henumerate : linkage.ProvidersShow enumerate entity) {start : DBusInstance}
    {visited : List (ℕ × Instance)} (element : ℕ × Instance) {state : Visiting}
    (hstate : linkage.Walking entity start visited state) :
    Fallible.Follows RuleFailure.failure
      (fun value next outcome => value = outcome ∧
        linkage.Walking entity start (visited ++ [element]) next)
      ((linkAll (linkage.links entity) element.2).map some)
      (Visiting.visitElement enumerate (origin.objects entity).providers none element state) := by
  have hsupplement := supplementAll_follows henumerate
    (show linkage.Reached ⟨state.store, element.2⟩ element.2 from ⟨hstate.1, rfl⟩)
  unfold Visiting.visitElement
  cases hlink : linkAll (linkage.links entity) element.2 with
  | ok after =>
      rw [hlink] at hsupplement
      obtain ⟨value, supplemented, hresult, hsettled, rfl⟩ := hsupplement
      rw [hresult]
      refine ⟨_, _, rfl, rfl, hsettled, ?_⟩
      rw [List.foldl_append, List.foldl_cons, List.foldl_nil, ← hstate.2, settle_eq hlink]
      rfl
  | error failed =>
      rw [hlink] at hsupplement
      obtain ⟨supplemented, hresult⟩ := hsupplement
      rw [hresult]
      exact ⟨_, rfl⟩

theorem visitInstance_follows
    {enumerate : EntityId → EStateM Failure EntityStore (List Instance)} {entity : EntityId}
    (henumerate : linkage.ProvidersShow enumerate entity) {stored : ℕ × DBusInstance}
    (hstored : some (shownWith (linkage.links entity) stored.2) =
      ((origin.objects entity).instances.find? stored.1).map (shownWith (linkage.links entity)))
    (hsettled : linkage.Settled store) :
    Fallible.Follows RuleFailure.failure
      (fun value next outcome => value = outcome ∧ linkage.Settled next)
      (shownWith (linkage.links entity) stored.2)
      (Visiting.visitInstance enumerate (origin.objects entity).providers none entity stored
        store) := by
  obtain ⟨start, hstart⟩ : ∃ start, stored.2.initDefaultFieldsValue = start := ⟨_, rfl⟩
  have hmeaning : shownWith (linkage.links entity) stored.2 =
      (do
        let outcomes ← start.elements.entries.mapM
          fun element => (linkAll (linkage.links entity) element.2).map some
        return outcomes.reduceOption) := by
    rw [Fallible.mapM_some_reduceOption fun element : ℕ × Instance =>
      linkAll (linkage.links entity) element.2, shownWith, OrderedMap.values, List.mapM_map, hstart]
    rfl
  have hwalk : Fallible.Follows RuleFailure.failure
      (fun value next outcome => value = outcome ∧
        linkage.Walking entity start start.elements.entries next)
      (shownWith (linkage.links entity) stored.2)
      ((do
        let visited ← Fallible.collect (Visiting.visitElement enumerate
          (origin.objects entity).providers none) start.elements.entries
        return visited.reduceOption : EStateM Failure Visiting (List Instance))
        ⟨store, start⟩) := by
    have hbegin : linkage.Walking entity start [] ⟨store, start⟩ := ⟨hsettled, rfl⟩
    rw [hmeaning]
    apply Fallible.Follows.bind
    · apply Fallible.collect_follows _ hbegin
      exact fun visited element rest _ state hstate =>
        visitElement_follows henumerate element hstate
    · rintro visited next outcomes ⟨rfl, hnext⟩
      exact ⟨_, next, rfl, rfl, hnext⟩
  unfold Visiting.visitInstance
  rw [hstart]
  apply Fallible.Follows.zoom
  · exact hwalk
  · rintro value visited outcome hshown ⟨rfl, hvisited, hinst⟩
    refine ⟨rfl, hvisited.putInstance ?_⟩
    have hsame : visited.inst = settledInst (linkage.links entity) stored.2 := by
      rw [hinst, settledInst, hstart]
    have hsettles : Settles (linkage.links entity) := linkage.settles entity
    rw [hsame, shownWith_settledInst hsettles hshown, ← hshown, hstored]

/-- An enumeration of a settled store shows the view and leaves a settled store, or
fails as the view does. -/
theorem getInstances_follows (depth : ℕ) {entity : EntityId} (hdepth : linkage.rank entity < depth)
    (hsettled : linkage.Settled store) :
    Fallible.Follows RuleFailure.failure
      (fun value next outcome => value = outcome ∧ linkage.Settled next) (linkage.view entity)
      (getInstances depth entity none store) := by
  induction depth generalizing entity store with
  | zero => cases hdepth
  | succ depth ih =>
      have hproviders : linkage.ProvidersShow
          (fun provider => getInstances depth provider none) entity := by
        intro provider hmem store hsettled
        have hrank : linkage.rank provider.1 < depth :=
          lt_of_lt_of_le (linkage.descends entity provider hmem) (Nat.lt_succ_iff.mp hdepth)
        have hview : linkage.view provider.1 = .ok (linkage.shows provider.1) :=
          linkage.shown entity provider hmem
        have henumerate := ih hrank hsettled
        rw [hview] at henumerate
        obtain ⟨value, after, hresult, rfl, hafter⟩ := henumerate
        exact ⟨after, hresult, hafter⟩
      have hvisit : ∀ visited stored rest,
          [] ++ (store.objects entity).instances.entries = visited ++ stored :: rest →
          ∀ state, linkage.Settled state →
          Fallible.Follows RuleFailure.failure
            (fun value next outcome => value = outcome ∧ linkage.Settled next)
            (shownWith (linkage.links entity) stored.2)
            (Visiting.visitInstance (fun provider => getInstances depth provider none)
              (store.objects entity).providers none entity stored state) := by
        intro visited stored rest hsplit state hstate
        have hmem : stored ∈ (store.objects entity).instances.entries := by
          rw [← List.nil_append (store.objects entity).instances.entries, hsplit]
          simp
        have hstored := hsettled.instances entity stored.1
        rw [OrderedMap.mem_entries_iff.mp hmem] at hstored
        rw [hsettled.providers]
        exact visitInstance_follows hproviders hstored hstate
      have hview : linkage.view entity = (do
          let visited ← (store.objects entity).instances.entries.mapM
            fun stored => shownWith (linkage.links entity) stored.2
          return visited.flatten) := by
        have hentries : ((store.objects entity).instances.entries.mapM
            fun stored => shownWith (linkage.links entity) stored.2) =
              (store.objects entity).instances.values.mapM
                (shownWith (linkage.links entity)) := by
          rw [OrderedMap.values, List.mapM_map]
          rfl
        rw [hentries, hsettled.mapM_shownWith]
        rfl
      rw [hview]
      rw [getInstances_succ]
      apply Fallible.Follows.bind
      · exact Fallible.collect_follows hvisit hsettled
      · rintro visited next outcomes ⟨rfl, hnext⟩
        exact ⟨_, next, rfl, rfl, hnext⟩

end Linkage

/-- Without provider links every enumeration settles. -/
def Linkage.unlinked {origin : EntityStore} (hnotAvailable : origin.notAvailable = .notAvailable)
    (hproviders : ∀ entity, (origin.objects entity).providers = []) : Linkage origin where
  shows _ := []
  rank _ := 0
  notAvailable := hnotAvailable
  descends entity provider hmem := by
    rw [hproviders] at hmem
    cases hmem
  keeps entity provider hmem := by
    rw [hproviders] at hmem
    cases hmem
  shown entity provider hmem := by
    rw [hproviders] at hmem
    cases hmem
  settles entity := by
    rw [linksOf, hproviders]
    exact settles_nil

/-- Without links an instance shows what it exposes. -/
theorem shownWith_nil (inst : DBusInstance) : shownWith [] inst = .ok (exposed inst) := by
  have hall : inst.initDefaultFieldsValue.elements.values.mapM (linkAll []) =
      .ok (inst.initDefaultFieldsValue.elements.values.map id) :=
    Fallible.mapM_eq_ok fun _ _ => rfl
  rw [List.map_id] at hall
  exact hall

/-- An entity without providers shows what its published instances expose. -/
theorem viewOf_unlinked {origin : EntityStore} (shows : EntityId → List Instance)
    {entity : EntityId} (hproviders : (origin.objects entity).providers = []) :
    viewOf origin shows entity =
      .ok ((origin.objects entity).instances.values.flatMap exposed) := by
  have hlinks : linksOf origin shows entity = [] := by rw [linksOf, hproviders]; rfl
  rw [viewOf, hlinks, Fallible.mapM_eq_ok fun inst _ => shownWith_nil inst, List.flatMap_def]
  rfl

end Settled

end ObmcWebapp.Entities
