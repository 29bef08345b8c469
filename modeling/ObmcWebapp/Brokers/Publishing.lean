/-
# What a refresh publishes

A finding query creates one instance for each pair of path and service the mapper lists
and the service filter lets through. After a refresh the entity holds these instances
and no others, each with what the interfaces of its object delivered.

The reply of the mapper has no order that shows: neither that of its paths nor that of
the interfaces of a service changes the instances held, or whether one can be created.
-/

import ObmcWebapp.Brokers.CaptureLoop
import ObmcWebapp.Entities.Creation

namespace ObmcWebapp.Brokers

open ObmcWebapp.Core ObmcWebapp.Entities definitions

namespace Publishing

/-- A `GetSubTree` reply. -/
abbrev SubTree := List (ObjectPath × List (ServiceName × List InterfaceName))

/-- A path, a service of it, and the interfaces it has there. -/
abbrev Listed := ObjectPath × ServiceName × List InterfaceName

def listed (reply : SubTree) : List Listed :=
  reply.flatMap fun object => object.2.map fun info => (object.1, info.1, info.2)

/-- What the service filter lets through. -/
def passing (service : Option ServiceName) (reply : SubTree) : List Listed :=
  (listed reply).filter fun object => service.all (· = object.2.1)

/-- Two listings of one pair of path and service, up to the order of the interfaces. -/
def SameListed (first second : Listed) : Prop :=
  first.1 = second.1 ∧ first.2.1 = second.2.1 ∧ first.2.2.Perm second.2.2

/-- The same reply with its paths, and the interfaces of each service, in another
order. -/
def Rearranged (reply other : SubTree) : Prop :=
  ∃ middle : SubTree, List.Forall₂ (fun first second => first.1 = second.1 ∧
    List.Forall₂ (fun info info' => info.1 = info'.1 ∧ info.2.Perm info'.2) first.2 second.2)
      reply middle ∧ middle.Perm other

/-- Each list has the pairs of the other. -/
def SamePairs (objects others : List Listed) : Prop :=
  (∀ object ∈ objects, ∃ other ∈ others, SameListed object other) ∧
    ∀ other ∈ others, ∃ object ∈ objects, SameListed object other

theorem passing_eq (service : Option ServiceName) (reply : SubTree) :
    passing service reply = reply.flatMap fun object =>
      (object.2.filter fun info => service.all (· = info.1)).map fun info =>
        (object.1, info.1, info.2) := by
  rw [passing, listed, List.filter_flatMap]
  congr 1
  funext object
  rw [List.filter_map]
  rfl

theorem forall₂_listed {reply middle : SubTree}
    (hsame : List.Forall₂ (fun first second => first.1 = second.1 ∧
      List.Forall₂ (fun info info' => info.1 = info'.1 ∧ info.2.Perm info'.2) first.2 second.2)
        reply middle) :
    List.Forall₂ SameListed (listed reply) (listed middle) := by
  induction hsame with
  | nil => exact .nil
  | @cons first second reply middle hfirst hrest ih =>
      obtain ⟨hpath, hservices⟩ := hfirst
      rw [listed, listed, List.flatMap_cons, List.flatMap_cons]
      apply List.rel_append _ ih
      rw [List.forall₂_map_left_iff, List.forall₂_map_right_iff]
      exact hservices.imp fun info info' hinfo => ⟨hpath, hinfo.1, hinfo.2⟩

theorem samePairs_of_rearranged {reply other : SubTree} (hrearranged : Rearranged reply other)
    (service : Option ServiceName) : SamePairs (passing service reply) (passing service other) := by
  obtain ⟨middle, hsame, hperm⟩ := hrearranged
  have hpassing : List.Forall₂ SameListed (passing service reply) (passing service middle) := by
    apply List.rel_filter _ (forall₂_listed hsame)
    rintro first second ⟨-, hservice, -⟩
    show service.all (· = first.2.1) = true ↔ service.all (· = second.2.1) = true
    rw [hservice]
  have hmem : ∀ object, object ∈ passing service middle ↔ object ∈ passing service other :=
    fun object => ((hperm.flatMap_right _).filter _).mem_iff
  obtain ⟨hforward, hbackward⟩ := Fallible.exists_of_forall₂ hpassing
  constructor
  · intro object hobject
    obtain ⟨found, hfound, hlisting⟩ := hforward object hobject
    exact ⟨found, (hmem found).mp hfound, hlisting⟩
  · intro found hfound
    exact hbackward found ((hmem found).mpr hfound)

section Held

variable [StdHash]

/-- The hash of a listed pair. -/
def hashOf (object : Listed) : ℕ := objectHash object.2.1 object.1

/-- The pairs of a reply have distinct hashes. -/
def DistinctHashes (reply : SubTree) : Prop := ((listed reply).map hashOf).Nodup

instance (reply : SubTree) : Decidable (DistinctHashes reply) :=
  inferInstanceAs (Decidable (List.Nodup _))

theorem DistinctHashes.passing {reply : SubTree} (hhashes : DistinctHashes reply)
    (service : Option ServiceName) : ((passing service reply).map hashOf).Nodup :=
  (List.filter_sublist.map hashOf).nodup hhashes

theorem DistinctHashes.rearranged {reply other : SubTree} (hhashes : DistinctHashes reply)
    (hrearranged : Rearranged reply other) : DistinctHashes other := by
  obtain ⟨middle, hsame, hperm⟩ := hrearranged
  have hmap : (listed reply).map hashOf = (listed middle).map hashOf := by
    rw [← List.forall₂_eq_eq_eq, List.forall₂_map_left_iff, List.forall₂_map_right_iff]
    apply (forall₂_listed hsame).imp
    rintro first second ⟨hpath, hservice, -⟩
    rw [hashOf, hashOf, hpath, hservice]
  rw [DistinctHashes, hmap] at hhashes
  exact ((hperm.flatMap_right _).map hashOf).nodup_iff.mp hhashes

variable {query : EntityQuery} {replies : BusReplies} {service : Option ServiceName}
  {reply : SubTree}

/-- `createInstance` for a listed pair. -/
def create (query : EntityQuery) (replies : BusReplies) (object : Listed) :
    Except Exception DBusInstance :=
  query.createInstance replies object.2.1 object.1 object.2.2

theorem process_eq (hkind : query.kind = .findObject service)
    (hreply : replies.getSubTree = .ok reply) :
    query.process replies = (passing service reply).mapM (create query replies) := by
  rw [EntityQuery.process, hkind, passing_eq]
  show query.processFindObject service replies = _
  rw [EntityQuery.processFindObject, hreply]
  rfl

/-- The listeners do not change what a query created. -/
theorem refresh_eq_ok {broker : EntityDbusBroker} {entityName : String} {turn : CaptureLoop.Turn}
    {instances : List DBusInstance} (hquery : broker.entityQuery = some query)
    (hrefresh : CaptureLoop.refresh broker entityName turn = .ok instances) :
    query.process turn.replies = .ok instances := by
  simp only [CaptureLoop.refresh, hquery] at hrefresh
  cases hcreated : query.process turn.replies with
  | error exception =>
      rw [hcreated] at hrefresh
      cases hrefresh
  | ok created =>
      rw [hcreated] at hrefresh
      cases hwatch : broker.watch with
      | false =>
          rw [hwatch] at hrefresh
          exact hrefresh
      | true =>
          rw [hwatch] at hrefresh
          cases hlisten : created.forM turn.bindListeners with
          | error exception => simp [hlisten, bind, Except.bind] at hrefresh
          | ok _ => simpa [hlisten, bind, Except.bind, pure, Except.pure] using hrefresh

/-- A successful refresh publishes what the query created. -/
theorem tryProcess_eq_ok_true {id : ℕ} {turn : CaptureLoop.Turn}
    {state after : CaptureLoop.CaptureState}
    (hprocess : CaptureLoop.tryProcess id turn state = .ok true after)
    (hquery : (state.brokers id).entityQuery = some query) :
    ∃ instances, query.process turn.replies = .ok instances ∧
      (after.store.objects (state.brokers id).entity).instances =
        OrderedMap.index (fun inst => inst.getHash) instances := by
  simp only [CaptureLoop.tryProcess] at hprocess
  split_ifs at hprocess with hlock htimeout
  · cases hprocess
  · cases hprocess
  · cases hrefresh : CaptureLoop.refresh (state.brokers id)
        (state.store.objects (state.brokers id).entity).name turn with
    | error exception =>
        rw [hrefresh] at hprocess
        cases hprocess
    | ok instances =>
        rw [hrefresh] at hprocess
        cases hprocess
        refine ⟨instances, refresh_eq_ok hquery hrefresh, ?_⟩
        simp [CaptureLoop.CaptureState.complete, EntityStore.setInstances, OrderedMap.index,
          OrderedMap.assignAll]

/-- The entity holds the instances that were created, each under the hash of its pair. -/
theorem find?_published (hnamed : query.WellNamed) {objects : List Listed}
    (hhashes : (objects.map hashOf).Nodup) {instances : List DBusInstance}
    (hcreated : objects.mapM (create query replies) = .ok instances) {hash : ℕ}
    {inst : DBusInstance} :
    (OrderedMap.index (fun inst => inst.getHash) instances).find? hash = some inst ↔
      ∃ object ∈ objects, hashOf object = hash ∧ create query replies object = .ok inst := by
  have hall := Fallible.mapM_eq_ok_iff.mp hcreated
  have hhash : ∀ object inst, create query replies object = .ok inst →
      hashOf object = inst.getHash := by
    intro object inst hcreate
    have hreads := EntityQuery.createInstance_reads hnamed hcreate
    rw [hashOf, Instance.getHash, hreads.serviceName_eq, hreads.objectPath_eq]
  have hmap : objects.map hashOf = instances.map fun inst => inst.getHash := by
    rw [← List.forall₂_eq_eq_eq, List.forall₂_map_left_iff, List.forall₂_map_right_iff]
    exact hall.imp hhash
  rw [hmap] at hhashes
  rw [OrderedMap.find?_index_iff_of_nodup hhashes]
  obtain ⟨hforward, hbackward⟩ := Fallible.exists_of_forall₂ hall
  constructor
  · rintro ⟨hmem, rfl⟩
    obtain ⟨object, hobject, hcreate⟩ := hbackward inst hmem
    exact ⟨object, hobject, hhash object inst hcreate, hcreate⟩
  · rintro ⟨object, hobject, rfl, hcreate⟩
    obtain ⟨found, hfound, hsame⟩ := hforward object hobject
    rw [hcreate] at hsame
    obtain rfl := Except.ok.inj hsame
    exact ⟨hfound, (hhash object inst hcreate).symm⟩

/-- An entity holds what the passing pairs of a reply gave, one instance for each. -/
structure Publishes (query : EntityQuery) (service : Option ServiceName) (replies : BusReplies)
    (reply : SubTree) (held : OrderedMap ℕ DBusInstance) : Prop where
  pairs : (held.values.map fun inst => (inst.objectPath, inst.serviceName)).Perm
    ((passing service reply).map fun object => (object.1, object.2.1))
  /-- Nothing of an earlier set remains. -/
  created : ∀ inst ∈ held.values, ∃ object ∈ passing service reply,
    create query replies object = .ok inst
  reads : ∀ object ∈ passing service reply, ∃ inst ∈ held.values,
    query.Reads replies object.2.1 object.1 object.2.2 inst

theorem publishes_created (hnamed : query.WellNamed) (hhashes : DistinctHashes reply)
    {instances : List DBusInstance}
    (hcreated : (passing service reply).mapM (create query replies) = .ok instances) :
    Publishes query service replies reply
      (OrderedMap.index (fun inst => inst.getHash) instances) := by
  have hall := Fallible.mapM_eq_ok_iff.mp hcreated
  obtain ⟨hforward, hbackward⟩ := Fallible.exists_of_forall₂ hall
  have hreads : ∀ object inst, create query replies object = .ok inst →
      query.Reads replies object.2.1 object.1 object.2.2 inst := fun object inst hcreate =>
    EntityQuery.createInstance_reads hnamed hcreate
  have hkeys : (passing service reply).map hashOf = instances.map fun inst => inst.getHash := by
    rw [← List.forall₂_eq_eq_eq, List.forall₂_map_left_iff, List.forall₂_map_right_iff]
    apply hall.imp
    intro object inst hcreate
    rw [hashOf, Instance.getHash, (hreads object inst hcreate).serviceName_eq,
      (hreads object inst hcreate).objectPath_eq]
  have hpairs : (passing service reply).map (fun object => (object.1, object.2.1)) =
      instances.map fun inst => (inst.objectPath, inst.serviceName) := by
    rw [← List.forall₂_eq_eq_eq, List.forall₂_map_left_iff, List.forall₂_map_right_iff]
    apply hall.imp
    intro object inst hcreate
    rw [(hreads object inst hcreate).serviceName_eq, (hreads object inst hcreate).objectPath_eq]
  have hperm : (OrderedMap.index (fun inst : DBusInstance => inst.getHash) instances).values.Perm
      instances := OrderedMap.perm_values_index (hkeys ▸ hhashes.passing service)
  refine ⟨?_, ?_, ?_⟩
  · rw [hpairs]
    exact hperm.map _
  · intro inst hinst
    exact hbackward inst (hperm.mem_iff.mp hinst)
  · intro object hobject
    obtain ⟨inst, hinst, hcreate⟩ := hforward object hobject
    exact ⟨inst, hperm.mem_iff.mpr hinst, hreads object inst hcreate⟩

/-- An order of the reply in which every instance can be created is as good as any. -/
theorem created_rearranged (hnamed : query.WellNamed) {objects others : List Listed}
    (hsame : SamePairs objects others) {instances : List DBusInstance}
    (hcreated : objects.mapM (create query replies) = .ok instances) :
    ∃ instances', others.mapM (create query replies) = .ok instances' := by
  cases hothers : others.mapM (create query replies) with
  | ok instances' => exact ⟨instances', rfl⟩
  | error exception =>
      obtain ⟨other, hother, hfailed⟩ := Fallible.exists_error_of_mapM hothers
      obtain ⟨object, hobject, hpath, hservice, hperm⟩ := hsame.2 other hother
      obtain ⟨inst, hcreate⟩ := Fallible.exists_ok_of_mapM hcreated object hobject
      rw [create, hpath, hservice] at hcreate
      obtain ⟨inst', hcreate', -⟩ := EntityQuery.createInstance_perm hnamed hperm hcreate
      rw [create, hcreate'] at hfailed
      cases hfailed

/-- Under each hash the two orders hold one instance, up to its children. -/
theorem held_rearranged (hnamed : query.WellNamed) {objects others : List Listed}
    (hhashes : (objects.map hashOf).Nodup) (hhashes' : (others.map hashOf).Nodup)
    (hsame : SamePairs objects others) {instances instances' : List DBusInstance}
    (hcreated : objects.mapM (create query replies) = .ok instances)
    (hcreated' : others.mapM (create query replies) = .ok instances') (hash : ℕ) :
    ((OrderedMap.index (fun inst => inst.getHash) instances').find? hash).map
        DBusInstance.toInstance =
      ((OrderedMap.index (fun inst => inst.getHash) instances).find? hash).map
        DBusInstance.toInstance := by
  have hcarry : ∀ object ∈ objects, ∀ inst, create query replies object = .ok inst →
      ∃ inst', (OrderedMap.index (fun inst : DBusInstance => inst.getHash) instances').find?
          (hashOf object) = some inst' ∧ inst'.toInstance = inst.toInstance := by
    intro object hobject inst hcreate
    obtain ⟨other, hother, hpath, hservice, hperm⟩ := hsame.1 object hobject
    obtain ⟨inst', hcreate', hfields⟩ := EntityQuery.createInstance_perm hnamed hperm hcreate
    refine ⟨inst', (find?_published hnamed hhashes' hcreated').mpr ⟨other, hother, ?_, ?_⟩, hfields⟩
    · rw [hashOf, hashOf, hpath, hservice]
    · rw [create, ← hpath, ← hservice, hcreate']
  cases hfound : (OrderedMap.index (fun inst : DBusInstance => inst.getHash) instances).find? hash with
  | some inst =>
      obtain ⟨object, hobject, rfl, hcreate⟩ := (find?_published hnamed hhashes hcreated).mp hfound
      obtain ⟨inst', hfound', hfields⟩ := hcarry object hobject inst hcreate
      rw [hfound', Option.map_some, Option.map_some, hfields]
  | none =>
      cases hfound' : (OrderedMap.index (fun inst : DBusInstance => inst.getHash) instances').find?
          hash with
      | none => rfl
      | some inst' =>
          obtain ⟨other, hother, rfl, -⟩ := (find?_published hnamed hhashes' hcreated').mp hfound'
          obtain ⟨object, hobject, hpath, hservice, -⟩ := hsame.2 other hother
          obtain ⟨inst, hcreate⟩ := Fallible.exists_ok_of_mapM hcreated object hobject
          have hheld := (find?_published hnamed hhashes hcreated).mpr ⟨object, hobject, rfl, hcreate⟩
          rw [hashOf, hpath, hservice] at hheld
          rw [hashOf, hheld] at hfound
          cases hfound

/-- A successful refresh publishes exactly what the mapper listed and the filter let
through, and no order of the reply shows in what is held. -/
theorem tryProcess_publishes {id : ℕ} {turn : CaptureLoop.Turn}
    {state after : CaptureLoop.CaptureState}
    (hquery : (state.brokers id).entityQuery = some query)
    (hkind : query.kind = .findObject service) (hnamed : query.WellNamed)
    (hreply : turn.replies.getSubTree = .ok reply) (hhashes : DistinctHashes reply)
    (hprocess : CaptureLoop.tryProcess id turn state = .ok true after) :
    Publishes query service turn.replies reply
        (after.store.objects (state.brokers id).entity).instances ∧
    ∀ other, Rearranged reply other →
      (∃ instances,
        query.process { turn.replies with getSubTree := .ok other } = .ok instances) ∧
      ∀ (id' : ℕ) (turn' : CaptureLoop.Turn) (state' after' : CaptureLoop.CaptureState),
        (state'.brokers id').entityQuery = some query →
        turn'.replies = { turn.replies with getSubTree := .ok other } →
        CaptureLoop.tryProcess id' turn' state' = .ok true after' →
        ∀ hash,
          ((after'.store.objects (state'.brokers id').entity).instances.find? hash).map
              DBusInstance.toInstance =
            ((after.store.objects (state.brokers id).entity).instances.find? hash).map
              DBusInstance.toInstance := by
  obtain ⟨instances, hcreated, hheld⟩ := tryProcess_eq_ok_true hprocess hquery
  rw [process_eq hkind hreply] at hcreated
  rw [hheld]
  refine ⟨publishes_created hnamed hhashes hcreated, fun other hrearranged => ?_⟩
  have hsame := samePairs_of_rearranged hrearranged service
  have hother : query.process { turn.replies with getSubTree := .ok other } =
      (passing service other).mapM (create query turn.replies) := process_eq hkind rfl
  refine ⟨?_, fun id' turn' state' after' hquery' hreplies hprocess' hash => ?_⟩
  · rw [hother]
    exact created_rearranged hnamed hsame hcreated
  · obtain ⟨instances', hcreated', hheld'⟩ := tryProcess_eq_ok_true hprocess' hquery'
    rw [hreplies, hother] at hcreated'
    rw [hheld']
    exact held_rearranged hnamed (hhashes.passing service)
      ((hhashes.rearranged hrearranged).passing service) hsame hcreated hcreated' hash

end Held

/-- The mapper lists one fan, whose unit cannot be read. -/
def fanReplies : BusReplies where
  getSubTree := .ok [("/xyz/openbmc_project/sensors/fan_tach/fan0",
    [("xyz.openbmc_project.FanSensor", [Sensors.sensorValueInterface])])]
  getAll _ _ _ := OrderedMap.ofList [("Value", .scalar (.int64 1200))]
  getManagedObjects _ := .ok []

def fanTurn : CaptureLoop.Turn where
  checkNow := 1
  recheckNow := 1
  replies := fanReplies
  bindListeners _ := .ok ⟨⟩
  recordNow := 1

/-- A broker of the sensors that never ran. -/
def fanState : CaptureLoop.CaptureState where
  brokers _ :=
    { timeout := 0, watch := true, entity := 3, entityQuery := some Sensors.entityQuery }
  store :=
    { objects := fun _ =>
        { name := "Sensors", members := OrderedMap.empty, instances := OrderedMap.empty,
          providers := [], named := named_empty }
      notAvailable := .notAvailable }
  visits := []

/-- The fan is held with the value it delivered. -/
theorem tryProcess_publishes_fan :
    ∃ (_ : StdHash) (after : CaptureLoop.CaptureState) (reply : SubTree),
      CaptureLoop.tryProcess 0 fanTurn fanState = .ok true after ∧
      fanReplies.getSubTree = .ok reply ∧
      Publishes Sensors.entityQuery none fanReplies reply (after.store.objects 3).instances := by
  let hash : StdHash := ⟨64, fun _ => 0⟩
  obtain ⟨after, hprocess⟩ : ∃ after,
    CaptureLoop.tryProcess 0 fanTurn fanState = .ok true after := ⟨_, rfl⟩
  exact ⟨hash, after, _, hprocess, rfl,
    (tryProcess_publishes rfl rfl Sensors.wellNamed rfl (by decide) hprocess).1⟩

end Publishing

end ObmcWebapp.Brokers
