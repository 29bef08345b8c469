/-
# Listeners over refreshes

A refresh of a watch broker creates instances, registers one match for each interface
of the property dictionary of each instance, and publishes the instances in place of
the earlier ones. An instance owns its matches, and the closure of each match holds the
instance. An instance is destroyed when neither the entity nor a closure holds it, and
its matches are deregistered with it.

A match of an instance is therefore enough to keep the instance, and with it the match.
Nothing that was bound to a listener is ever destroyed: the matches of all refreshes
stay registered.
-/

import ObmcWebapp.Entities.Sensors

namespace ObmcWebapp.Brokers

open ObmcWebapp.Entities

namespace Listeners

variable [StdHash]

/-- An instance object. -/
structure Object where
  id : ℕ
  inst : DBusInstance

/-- The interfaces of the property dictionary of an instance. -/
def Object.interfaces (object : Object) : List InterfaceName :=
  object.inst.dbusQuery.searchPropertiesMap.keys

/-- A registered match object. -/
structure Match where
  /-- The instance in whose list of listeners it is. -/
  owner : ℕ
  interface : InterfaceName
  /-- The instance its closure holds. -/
  self : ℕ
  deriving DecidableEq

/-- The instances and matches that are not destroyed, and the instance map of the
entity. -/
@[ext]
structure State where
  objects : List Object := []
  registered : List Match := []
  published : OrderedMap ℕ Object := OrderedMap.empty
  nextId : ℕ := 0

/-- `bindListeners`. -/
def bindListeners (object : Object) : List Match :=
  object.interfaces.map fun interface => ⟨object.id, interface, object.id⟩

/-- `setInstances`. -/
def setInstances (objects : List Object) : OrderedMap ℕ Object :=
  OrderedMap.index (fun object => object.inst.getHash) objects

/-- Created instances are new objects. -/
def number (first : ℕ) (created : List DBusInstance) : List Object :=
  (created.zipIdx first).map fun numbered => ⟨numbered.2, numbered.1⟩

namespace State

/-- The entity or the closure of a match holds an instance. -/
def holds (state : State) (object : Object) : Bool :=
  (state.published.values.any fun published => decide (published.id = object.id)) ||
    state.registered.any fun listener => decide (listener.self = object.id)

/-- Destroy the instances nothing holds, with the matches they own. -/
def destroyUnheld (state : State) : State :=
  let objects := state.objects.filter state.holds
  { state with
    objects := objects
    registered := state.registered.filter fun listener =>
      objects.any fun object => decide (object.id = listener.owner) }

/-- Destroying some instances may free others, at most as often as there are instances. -/
def destroyAll : ℕ → State → State
  | 0, state => state
  | rounds + 1, state => destroyAll rounds state.destroyUnheld

def release (state : State) : State := destroyAll state.objects.length state

/-- A refresh of the broker whose query created some instances. -/
def refresh (state : State) (created : List DBusInstance) : State :=
  let objects := number state.nextId created
  release
    { objects := state.objects ++ objects
      registered := state.registered ++ objects.flatMap bindListeners
      published := setInstances objects
      nextId := state.nextId + created.length }

/-- A run of refreshes. -/
def run (refreshes : List (List DBusInstance)) : State := refreshes.foldl refresh {}

end State

omit [StdHash] in
theorem mem_bindListeners {object : Object} {listener : Match} :
    listener ∈ bindListeners object ↔
      listener.owner = object.id ∧ listener.self = object.id ∧
        listener.interface ∈ object.interfaces := by
  obtain ⟨owner, interface, self⟩ := listener
  simp only [bindListeners, List.mem_map, Match.mk.injEq]
  constructor
  · rintro ⟨found, hfound, rfl, rfl, rfl⟩
    exact ⟨rfl, rfl, hfound⟩
  · rintro ⟨rfl, rfl, hmem⟩
    exact ⟨interface, hmem, rfl, rfl, rfl⟩

namespace State

/-- All matches of some created instances are registered, and the instances that have
matches are there. -/
structure Keeps (created : List Object) (state : State) : Prop where
  registered : state.registered = created.flatMap bindListeners
  listening : ∀ object ∈ created, object.interfaces ≠ [] → object ∈ state.objects

variable {created : List Object} {state : State}

omit [StdHash] in
/-- A match of an instance holds it. -/
theorem Keeps.holds (hkeeps : Keeps created state) {object : Object} (hmem : object ∈ created)
    (hinterfaces : object.interfaces ≠ []) : state.holds object = true := by
  obtain ⟨interface, hinterface⟩ := List.exists_mem_of_ne_nil _ hinterfaces
  have hlistener : (⟨object.id, interface, object.id⟩ : Match) ∈ state.registered := by
    rw [hkeeps.registered]
    exact List.mem_flatMap.mpr ⟨object, hmem, mem_bindListeners.mpr ⟨rfl, rfl, hinterface⟩⟩
  rw [State.holds, Bool.or_eq_true]
  exact .inr (List.any_eq_true.mpr ⟨_, hlistener, by simp⟩)

omit [StdHash] in
/-- So no match is ever deregistered. -/
theorem Keeps.destroyUnheld (hkeeps : Keeps created state) :
    Keeps created state.destroyUnheld := by
  have hlistening : ∀ object ∈ created, object.interfaces ≠ [] →
      object ∈ state.objects.filter state.holds := fun object hmem hinterfaces =>
    List.mem_filter.mpr ⟨hkeeps.listening object hmem hinterfaces, hkeeps.holds hmem hinterfaces⟩
  refine ⟨?_, hlistening⟩
  rw [← hkeeps.registered]
  apply List.filter_eq_self.mpr
  intro listener hlistener
  rw [hkeeps.registered] at hlistener
  obtain ⟨object, hmem, hbound⟩ := List.mem_flatMap.mp hlistener
  obtain ⟨howner, -, hinterface⟩ := mem_bindListeners.mp hbound
  exact List.any_eq_true.mpr ⟨object,
    hlistening object hmem (List.ne_nil_of_mem hinterface), by simp [howner]⟩

omit [StdHash] in
theorem Keeps.destroyAll (hkeeps : Keeps created state) (rounds : ℕ) :
    Keeps created (destroyAll rounds state) := by
  induction rounds generalizing state with
  | zero => exact hkeeps
  | succ rounds ih => exact ih hkeeps.destroyUnheld

omit [StdHash] in
theorem destroyAll_published (rounds : ℕ) (state : State) :
    (State.destroyAll rounds state).published = state.published ∧
      (State.destroyAll rounds state).nextId = state.nextId := by
  induction rounds generalizing state with
  | zero => exact ⟨rfl, rfl⟩
  | succ rounds ih => exact ih state.destroyUnheld

end State

section Published

omit [StdHash] in
theorem number_append (first : ℕ) (before after : List DBusInstance) :
    number first (before ++ after) = number first before ++ number (first + before.length) after := by
  rw [number, List.zipIdx_append, List.map_append, Nat.add_comm]
  rfl

omit [StdHash] in
theorem number_map_inst (first : ℕ) (created : List DBusInstance) :
    (number first created).map Object.inst = created := by
  rw [number, List.map_map]
  exact List.zipIdx_map_fst first created

omit [StdHash] in
theorem number_map_id (first : ℕ) (created : List DBusInstance) :
    (number first created).map Object.id = List.range' first created.length := by
  rw [number, List.map_map]
  exact List.zipIdx_map_snd first created

omit [StdHash] in
theorem number_nodup (first : ℕ) (created : List DBusInstance) :
    ((number first created).map Object.id).Nodup := by
  rw [number_map_id]
  exact List.nodup_range'

/-- An instance is not published when a later one has its hash. -/
theorem not_mem_setInstances_iff {objects : List Object} (hids : (objects.map Object.id).Nodup)
    {object : Object} (hmem : object ∈ objects) :
    object ∉ (setInstances objects).values ↔
      ∃ before after, objects = before ++ object :: after ∧
        ∃ later ∈ after, later.inst.getHash = object.inst.getHash := by
  rw [setInstances, OrderedMap.mem_values_index_iff, OrderedMap.find?_index]
  constructor
  · intro hother
    obtain ⟨before, after, rfl⟩ := List.append_of_mem hmem
    refine ⟨before, after, rfl, ?_⟩
    by_contra hnone
    apply hother
    rw [List.find?_eq_some_iff_append]
    refine ⟨by simp, after.reverse, before.reverse, by simp, fun later hlater => ?_⟩
    have hne : later.inst.getHash ≠ object.inst.getHash := fun hsame =>
      hnone ⟨later, List.mem_reverse.mp hlater, hsame⟩
    simpa using hne
  · rintro ⟨before, after, rfl, later, hlater, hsame⟩ hfound
    have hreverse : (before ++ object :: after).reverse =
        after.reverse ++ (object :: before.reverse) := by simp
    have hlast : (after.reverse.find? fun candidate =>
        decide (candidate.inst.getHash = object.inst.getHash)).isSome :=
      List.find?_isSome.mpr ⟨later, List.mem_reverse.mpr hlater, by simp [hsame]⟩
    obtain ⟨last, hlast⟩ := Option.isSome_iff_exists.mp hlast
    rw [hreverse, List.find?_append, hlast, Option.some_or] at hfound
    obtain rfl := Option.some.inj hfound
    have hafter : last ∈ after := List.mem_reverse.mp (List.mem_of_find?_eq_some hlast)
    rw [List.map_append, List.map_cons] at hids
    have hfresh := (List.nodup_cons.mp (List.nodup_append.mp hids).2.1).1
    exact hfresh (List.mem_map_of_mem hafter)

end Published

/-- Every instance that was created in a run. -/
def createdIn (refreshes : List (List DBusInstance)) : List Object := number 0 refreshes.flatten

/-- An instance that was created in a run and is not published at its end: a later refresh
has replaced it, or a later instance of its refresh has its hash. -/
inductive Superseded : List (List DBusInstance) → DBusInstance → Prop
  | replaced {earlier : List (List DBusInstance)} {created : List DBusInstance}
      {inst : DBusInstance} (hmem : inst ∈ earlier.flatten) :
      Superseded (earlier ++ [created]) inst
  | displaced {earlier : List (List DBusInstance)} {before after : List DBusInstance}
      {inst later : DBusInstance} (hlater : later ∈ after) (hhash : later.getHash = inst.getHash) :
      Superseded (earlier ++ [before ++ inst :: after]) inst

/-- The matches are one for each interface of each published instance. -/
def ExactlyPublished (state : State) : Prop :=
  state.registered.Perm (state.published.values.flatMap bindListeners)

theorem run_append (earlier : List (List DBusInstance)) (created : List DBusInstance) :
    State.run (earlier ++ [created]) = (State.run earlier).refresh created := by
  rw [State.run, List.foldl_append]
  rfl

/-- All matches of all refreshes are registered. -/
theorem run_keeps (refreshes : List (List DBusInstance)) :
    (State.run refreshes).Keeps (createdIn refreshes) ∧
      (State.run refreshes).nextId = refreshes.flatten.length := by
  induction refreshes using List.reverseRecOn with
  | nil => exact ⟨⟨rfl, nofun⟩, rfl⟩
  | append_singleton earlier created ih =>
      obtain ⟨hkeeps, hnext⟩ := ih
      have hcreated : createdIn (earlier ++ [created]) =
          createdIn earlier ++ number (State.run earlier).nextId created := by
        rw [createdIn, List.flatten_append, List.flatten_singleton, number_append, hnext,
          Nat.zero_add]
        rfl
      rw [run_append, State.refresh, State.release]
      refine ⟨State.Keeps.destroyAll ⟨?_, ?_⟩ _, ?_⟩
      · rw [hcreated, List.flatMap_append, ← hkeeps.registered]
      · intro object hmem hinterfaces
        rw [hcreated, List.mem_append] at hmem
        rw [List.mem_append]
        exact hmem.imp (fun hearlier => hkeeps.listening object hearlier hinterfaces) id
      · rw [(State.destroyAll_published _ _).2, hnext, List.flatten_append, List.length_append,
          List.flatten_singleton]

theorem run_published (earlier : List (List DBusInstance)) (created : List DBusInstance) :
    (State.run (earlier ++ [created])).published =
      setInstances (number earlier.flatten.length created) := by
  rw [run_append, State.refresh, State.release, (State.destroyAll_published _ _).1,
    (run_keeps earlier).2]

omit [StdHash] in
theorem createdIn_append (earlier : List (List DBusInstance)) (created : List DBusInstance) :
    createdIn (earlier ++ [created]) =
      createdIn earlier ++ number earlier.flatten.length created := by
  rw [createdIn, List.flatten_append, List.flatten_singleton, number_append, Nat.zero_add]
  rfl

/-- What a run created and does not publish at its end has been superseded. -/
theorem superseded_of_unpublished {refreshes : List (List DBusInstance)} {object : Object}
    (hmem : object ∈ createdIn refreshes)
    (hunpublished : object ∉ (State.run refreshes).published.values) :
    Superseded refreshes object.inst := by
  induction refreshes using List.reverseRecOn with
  | nil => cases hmem
  | append_singleton earlier created _ =>
      rw [createdIn_append, List.mem_append] at hmem
      rw [run_published] at hunpublished
      rcases hmem with hearlier | hnew
      · refine .replaced ?_
        rw [← number_map_inst 0 earlier.flatten]
        exact List.mem_map_of_mem hearlier
      · obtain ⟨before, after, hobjects, later, hlater, hhash⟩ :=
          (not_mem_setInstances_iff (number_nodup _ _) hnew).mp hunpublished
        have hcreated : created = before.map Object.inst ++ object.inst :: after.map Object.inst := by
          rw [← number_map_inst earlier.flatten.length created, hobjects, List.map_append,
            List.map_cons]
        rw [hcreated]
        exact .displaced (List.mem_map_of_mem hlater) hhash

/-- A superseded instance was created and is not published at the end of the run. -/
theorem Superseded.unpublished {refreshes : List (List DBusInstance)} {inst : DBusInstance}
    (hsuperseded : Superseded refreshes inst) :
    ∃ object ∈ createdIn refreshes,
      object ∉ (State.run refreshes).published.values ∧ object.inst = inst := by
  cases hsuperseded with
  | @replaced earlier created _ hmem =>
      rw [← number_map_inst 0 earlier.flatten, List.mem_map] at hmem
      obtain ⟨object, hobject, rfl⟩ := hmem
      refine ⟨object, ?_, ?_, rfl⟩
      · rw [createdIn_append]
        exact List.mem_append_left _ hobject
      · rw [run_published]
        intro hpublished
        -- the new objects have later numbers
        have hnew := List.mem_map_of_mem (f := Object.id) (OrderedMap.mem_of_mem_values_index hpublished)
        have hold := List.mem_map_of_mem (f := Object.id) hobject
        rw [number_map_id, List.mem_range'] at hnew hold
        omega
  | @displaced earlier before after inst later hlater hhash =>
      obtain ⟨rest, hrest⟩ : ∃ rest, rest = number
          (earlier.flatten.length + before.length + [inst].length) after := ⟨_, rfl⟩
      have hobjects : number earlier.flatten.length (before ++ inst :: after) =
          number earlier.flatten.length before ++
            ⟨earlier.flatten.length + before.length, inst⟩ :: rest := by
        rw [number_append, ← List.singleton_append, number_append, hrest]
        rfl
      have hmem : (⟨earlier.flatten.length + before.length, inst⟩ : Object) ∈
          number earlier.flatten.length (before ++ inst :: after) := by
        rw [hobjects]
        simp
      refine ⟨⟨earlier.flatten.length + before.length, inst⟩, ?_, ?_, rfl⟩
      · rw [createdIn_append]
        exact List.mem_append_right _ hmem
      · rw [run_published, not_mem_setInstances_iff (number_nodup _ _) hmem]
        rw [← number_map_inst (earlier.flatten.length + before.length + [inst].length) after,
          ← hrest, List.mem_map] at hlater
        obtain ⟨object, hobject, rfl⟩ := hlater
        exact ⟨_, rest, hobjects, object, hobject, hhash⟩

/-- The instances of a run that are not published at its end are the superseded ones. -/
theorem superseded_iff (refreshes : List (List DBusInstance)) (inst : DBusInstance) :
    (∃ object ∈ createdIn refreshes,
      object ∉ (State.run refreshes).published.values ∧ object.inst = inst) ↔
      Superseded refreshes inst := by
  constructor
  · rintro ⟨object, hmem, hunpublished, rfl⟩
    exact superseded_of_unpublished hmem hunpublished
  · exact Superseded.unpublished

/-- The matches are those of the published instances exactly when no other instance has
any. -/
theorem exactlyPublished_iff (refreshes : List (List DBusInstance)) :
    ExactlyPublished (State.run refreshes) ↔
      ∀ object ∈ createdIn refreshes, object ∉ (State.run refreshes).published.values →
        object.interfaces = [] := by
  classical
  obtain ⟨published, hpublished⟩ : ∃ published,
    (State.run refreshes).published.values = published := ⟨_, rfl⟩
  obtain ⟨created, hcreated⟩ : ∃ created, createdIn refreshes = created := ⟨_, rfl⟩
  have hnodup : published.Nodup ∧ ∀ object ∈ published, object ∈ created := by
    rw [← hpublished, ← hcreated]
    induction refreshes using List.reverseRecOn with
    | nil => exact ⟨List.nodup_nil, nofun⟩
    | append_singleton earlier last _ =>
        rw [run_published]
        refine ⟨OrderedMap.nodup_values_index _, fun object hmem => ?_⟩
        rw [createdIn, List.flatten_append, List.flatten_singleton, number_append, Nat.zero_add]
        exact List.mem_append_right _ (OrderedMap.mem_of_mem_values_index hmem)
  have hdistinct : created.Nodup := by
    rw [← hcreated]
    exact List.Nodup.of_map _ (number_nodup 0 refreshes.flatten)
  have hshown : (created.filter fun object => decide (object ∈ published)).Perm published := by
    rw [List.perm_ext_iff_of_nodup (hdistinct.filter _) hnodup.1]
    intro object
    simp only [List.mem_filter, decide_eq_true_eq]
    exact ⟨And.right, fun hmem => ⟨hnodup.2 object hmem, hmem⟩⟩
  have hall : (created.flatMap bindListeners).Perm (published.flatMap bindListeners ++
      (created.filter fun object => !decide (object ∈ published)).flatMap bindListeners) := by
    have hparts := (List.filter_append_perm (fun object => decide (object ∈ published)) created).symm
    refine (hparts.flatMap_right bindListeners).trans ?_
    rw [List.flatMap_append]
    exact (hshown.flatMap_right bindListeners).append_right _
  rw [ExactlyPublished, (run_keeps refreshes).1.registered, hpublished, hcreated]
  have hempty : (created.flatMap bindListeners).Perm (published.flatMap bindListeners) ↔
      (created.filter fun object => !decide (object ∈ published)).flatMap bindListeners = [] := by
    constructor
    · intro hperm
      have hlength := (hall.symm.trans hperm).length_eq
      rw [List.length_append] at hlength
      exact List.length_eq_zero_iff.mp (by omega)
    · intro hnone
      rw [hnone, List.append_nil] at hall
      exact hall
  rw [hempty, List.flatMap_eq_nil_iff]
  constructor
  · intro hnone object hmem hunpublished
    have hobject := hnone object (List.mem_filter.mpr ⟨hmem, by simpa using hunpublished⟩)
    exact List.map_eq_nil_iff.mp hobject
  · intro hnone object hmem
    obtain ⟨hobject, hunpublished⟩ := List.mem_filter.mp hmem
    exact List.map_eq_nil_iff.mpr (hnone object hobject (by simpa using hunpublished))

/-- After a run of refreshes the registered matches are exactly those of the published
instances if and only if no superseded instance was created with a property
dictionary. -/
theorem exactlyPublished_iff_superseded_bare (refreshes : List (List DBusInstance)) :
    ExactlyPublished (State.run refreshes) ↔
      ∀ inst, Superseded refreshes inst → inst.dbusQuery.searchPropertiesMap.keys = [] := by
  rw [exactlyPublished_iff]
  constructor
  · intro hnone inst hsuperseded
    obtain ⟨object, hmem, hunpublished, rfl⟩ := (superseded_iff refreshes inst).mpr hsuperseded
    exact hnone object hmem hunpublished
  · intro hbare object hmem hunpublished
    exact hbare object.inst ((superseded_iff refreshes _).mp ⟨object, hmem, hunpublished, rfl⟩)

/-- One sensor that is found by each of two refreshes. -/
def twoRefreshes : List (List DBusInstance) :=
  [[DBusInstance.create "svc" "/s" Sensors.query], [DBusInstance.create "svc" "/s" Sensors.query]]

omit [StdHash] in
/-- The matches of the first refresh stay registered. -/
theorem twoRefreshes_accumulate :
    ¬∀ (_ : StdHash) (refreshes : List (List DBusInstance)),
      ExactlyPublished (State.run refreshes) := by
  intro hclaim
  let hash : StdHash := ⟨64, fun _ => 0⟩
  have hlength := (hclaim hash twoRefreshes).length_eq
  have hregistered : (State.run twoRefreshes).registered.length = 6 := by decide
  have hpublished :
      ((State.run twoRefreshes).published.values.flatMap bindListeners).length = 3 := by decide
  rw [hregistered, hpublished] at hlength
  cases hlength

end Listeners

end ObmcWebapp.Brokers
