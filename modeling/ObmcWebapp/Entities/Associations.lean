/-
# The associations of a status provider object

The list of associations of one object becomes its children: one for each
association, under the hash of the endpoint and the service, with the source as
`Status` and the endpoint as `Causer`. An enumeration shows the children and the
object, the object under its own hash.

Two associations with one endpoint share a hash, so the later one replaces the
earlier; and an association whose endpoint is the object itself gives way to the
object. All other associations are shown.
-/

import ObmcWebapp.Entities.Status

namespace ObmcWebapp.Entities

open ObmcWebapp.Core definitions

namespace Associations

variable [StdHash]

/-- An object as the status query creates it: it has no causer of its own. -/
structure ProviderObject (inst : DBusInstance) : Prop where
  query : inst.dbusQuery = Status.query
  causer : inst.memberInstances.find? status.fieldObjectCauthPath = none

/-- An instance shows an association. -/
def Shows (inst : Instance) (association : DBusAssociation) : Prop :=
  inst.memberInstances.find? status.fieldStatus = some (.string association.1) ∧
  inst.memberInstances.find? status.fieldObjectCauthPath = some (.string association.2.2)

/-- Every association is shown, and apart from the object nothing else is. -/
def NoAssociationLost (self : Instance) (associations : List DBusAssociation)
    (shown : List Instance) : Prop :=
  (∀ association ∈ associations, ∃ inst ∈ shown, Shows inst association) ∧
  (∀ inst ∈ shown, inst = self ∨ ∃ association ∈ associations, Shows inst association)

/-- No endpoint is the object's own path, and an endpoint has one source. -/
def Distinguishable (objectPath : String) (associations : List DBusAssociation) : Prop :=
  (∀ association ∈ associations, association.2.2 ≠ objectPath) ∧
  (∀ first ∈ associations, ∀ second ∈ associations,
    first.2.2 = second.2.2 → first.1 = second.1)

/-- Objects of the service at the listed paths have different hashes. -/
def HashesDiffer (serviceName : String) (paths : List String) : Prop :=
  ∀ first ∈ paths, ∀ second ∈ paths,
    objectHash serviceName first = objectHash serviceName second → first = second

/-- The child of an association. -/
def childOf (inst : Instance) (association : DBusAssociation) : Instance :=
  ((Instance.create inst.serviceName association.2.2 inst.dbusQuery).supplementOrUpdate
    status.fieldObjectCauthPath (.string association.2.2)).supplementOrUpdate
      status.fieldStatus (.string association.1)

omit [StdHash] in
theorem childOf_shows (inst : Instance) (association : DBusAssociation) :
    Shows (childOf inst association) association := by
  have hne : status.fieldObjectCauthPath ≠ status.fieldStatus := by decide
  simp [Shows, childOf, hne]

theorem childOf_getHash (inst : Instance) (association : DBusAssociation) :
    (childOf inst association).getHash = objectHash inst.serviceName association.2.2 := by
  simp [childOf, Instance.getHash, Instance.create]

omit [StdHash] in
/-- Filling the child of an association. -/
theorem fillMembers_child {inst : Instance} (hquery : inst.dbusQuery = Status.query)
    (association : DBusAssociation) :
    (Instance.create inst.serviceName association.2.2 inst.dbusQuery).fillMembers
      relations.fieldAssociations (DBusInstance.associationProperties association) =
        .ok ⟨⟩ (childOf inst association) := by
  have hentries : (Status.query.getPropertyMemberDict relations.fieldAssociations).entries =
      [(relations.fieldEndpoint, status.fieldObjectCauthPath),
        (relations.fieldSource, status.fieldStatus)] := by decide
  have hendpoint : (DBusInstance.associationProperties association).find?
      relations.fieldEndpoint = some (.string association.2.2) := by
    rw [DBusInstance.associationProperties, OrderedMap.find?_ofList]
    rfl
  have hsource : (DBusInstance.associationProperties association).find?
      relations.fieldSource = some (.string association.1) := by
    simp [DBusInstance.associationProperties]
  have hformat : ∀ property value,
      Status.query.processScalarFormatters property value = .ok value := fun _ _ => rfl
  unfold Instance.fillMembers
  have hcreated : (Instance.create inst.serviceName association.2.2 inst.dbusQuery).dbusQuery =
    Status.query := hquery
  have hcauser : Instance.fillMember (DBusInstance.associationProperties association)
      (relations.fieldEndpoint, status.fieldObjectCauthPath)
      (Instance.create inst.serviceName association.2.2 inst.dbusQuery) =
        .ok ⟨⟩ ((Instance.create inst.serviceName association.2.2 inst.dbusQuery).supplementOrUpdate
          status.fieldObjectCauthPath (.string association.2.2)) := by
    simp [Instance.fillMember, hendpoint, hcreated, hformat]
  have hstatus : Instance.fillMember (DBusInstance.associationProperties association)
      (relations.fieldSource, status.fieldStatus)
      ((Instance.create inst.serviceName association.2.2 inst.dbusQuery).supplementOrUpdate
        status.fieldObjectCauthPath (.string association.2.2)) =
        .ok ⟨⟩ (childOf inst association) := by
    simp [Instance.fillMember, hsource, hcreated, hformat, childOf]
  rw [hcreated, hentries]
  exact (Fallible.bind_ok hcauser).trans (Fallible.bind_ok hstatus)

/-- Capturing the children of a list of associations, one after the other. -/
theorem forEach_captureAssociation {associations : List DBusAssociation} {inst : DBusInstance}
    (hquery : inst.dbusQuery = Status.query) :
    Fallible.forEach (DBusInstance.captureAssociation relations.fieldAssociations) associations
        inst =
      .ok ⟨⟩ { inst with
        complexInstances := OrderedMap.assignAll
          (fun association => objectHash inst.serviceName association.2.2)
          (childOf inst.toInstance) associations inst.complexInstances } := by
  induction associations generalizing inst with
  | nil => rfl
  | cons association associations ih =>
      have hfirst : DBusInstance.captureAssociation relations.fieldAssociations association inst =
          .ok ⟨⟩ (inst.insertComplex (childOf inst.toInstance association)) := by
        unfold DBusInstance.captureAssociation DBusInstance.captureChild
        rw [fillMembers_child hquery]
      have hkept : (inst.insertComplex (childOf inst.toInstance association)).dbusQuery =
          Status.query := hquery
      refine (Fallible.bind_ok hfirst).trans ((ih hkept).trans ?_)
      simp [DBusInstance.insertComplex, OrderedMap.assignAll, childOf_getHash]

/-- The object after its associations were delivered. -/
def capturedFrom (inst : DBusInstance) (associations : List DBusAssociation) : DBusInstance :=
  { inst with
    complexInstances := OrderedMap.assignAll
      (fun association => objectHash inst.serviceName association.2.2)
      (childOf inst.toInstance) associations OrderedMap.empty }

theorem fillMembers_associations {inst : DBusInstance} (hquery : inst.dbusQuery = Status.query)
    {properties : DBusPropertiesMap} {associations : List DBusAssociation}
    (hdelivered : properties.find? Status.namePropertyAssociations =
      some (.complex (.associations associations))) :
    DBusInstance.fillMembers Status.definitionInterface properties inst =
      .ok ⟨⟩ (capturedFrom inst associations) := by
  have hentries : (Status.query.getPropertyMemberDict Status.definitionInterface).entries =
      [(Status.namePropertyAssociations, relations.fieldAssociations)] := by decide
  have hformat : ∀ property value,
      Status.query.processFormatters property value = .ok value := fun _ _ => rfl
  have hcleared : ({ inst with complexInstances := OrderedMap.empty } : DBusInstance).dbusQuery =
      Status.query := hquery
  have hresolve : DBusInstance.resolveDBusVariant relations.fieldAssociations
      (.complex (.associations associations)) inst = .ok ⟨⟩ (capturedFrom inst associations) :=
    forEach_captureAssociation hcleared
  have hfill : DBusInstance.fillMember properties
      (Status.namePropertyAssociations, relations.fieldAssociations) inst =
        .ok ⟨⟩ (capturedFrom inst associations) := by
    simp only [DBusInstance.fillMember, hdelivered, hquery, hformat, hresolve]
  unfold DBusInstance.fillMembers
  rw [hquery, hentries]
  exact Fallible.bind_ok hfill

omit [StdHash] in
/-- The reset of the object sets its status. -/
theorem initDefault_object {inst : Instance} (hquery : inst.dbusQuery = Status.query) :
    inst.initDefaultFieldsValue =
      inst.supplementOrUpdate status.fieldStatus (.string Status.statusOK) := by
  apply Instance.initDefaultFieldsValue_single
  rw [hquery]
  decide

/-- The object itself, as an enumeration shows it. -/
def self (inst : DBusInstance) : Instance := inst.toInstance.initDefaultFieldsValue

/-- An enumeration shows the object and those children that are not stored under the
object's own hash. -/
theorem mem_exposed_iff {inst : DBusInstance} (hquery : inst.dbusQuery = Status.query)
    {associations : List DBusAssociation} {shown : Instance} :
    shown ∈ exposed (capturedFrom inst associations) ↔
      shown = self inst ∨ ∃ key ≠ inst.getHash,
        (capturedFrom inst associations).complexInstances.find? key = some shown := by
  have hhash : (capturedFrom inst associations).initDefaultFieldsValue.getHash =
      inst.getHash := by
    have hself : (capturedFrom inst associations).initDefaultFieldsValue.toInstance =
        inst.toInstance.supplementOrUpdate status.fieldStatus (.string Status.statusOK) :=
      initDefault_object hquery
    simp [Instance.getHash, hself]
  unfold exposed DBusInstance.elements
  rw [OrderedMap.mem_values_iff, hhash]
  simp only [OrderedMap.find?_insertOrAssign]
  constructor
  · rintro ⟨key, hfound⟩
    split_ifs at hfound with hkey
    · exact .inl (Option.some.inj hfound).symm
    · exact .inr ⟨key, hkey, hfound⟩
  · rintro (rfl | ⟨key, hkey, hfound⟩)
    · exact ⟨inst.getHash, if_pos rfl⟩
    · exact ⟨key, (if_neg hkey).trans hfound⟩

/-- A stored child is that of an association of the list. -/
theorem stored_child {inst : DBusInstance} {associations : List DBusAssociation} {key : ℕ}
    {shown : Instance}
    (hfound : (capturedFrom inst associations).complexInstances.find? key = some shown) :
    ∃ association ∈ associations, objectHash inst.serviceName association.2.2 = key ∧
      childOf inst.toInstance association = shown := by
  rcases OrderedMap.find?_assignAll hfound with hitem | hnone
  · exact hitem
  · cases hnone

/-- Under the hash of an association some child is stored. -/
theorem exists_stored (inst : DBusInstance) {associations : List DBusAssociation}
    {association : DBusAssociation} (hmem : association ∈ associations) :
    ∃ stored ∈ associations,
      objectHash inst.serviceName stored.2.2 = objectHash inst.serviceName association.2.2 ∧
      (capturedFrom inst associations).complexInstances.find?
        (objectHash inst.serviceName association.2.2) = some (childOf inst.toInstance stored) :=
  OrderedMap.find?_assignAll_of_mem hmem

omit [StdHash] in
theorem shows_unique {inst : Instance} {first second : DBusAssociation} (hfirst : Shows inst first)
    (hsecond : Shows inst second) : first.1 = second.1 ∧ first.2.2 = second.2.2 := by
  have hstatus := hfirst.1.symm.trans hsecond.1
  have hcauser := hfirst.2.symm.trans hsecond.2
  simpa using And.intro hstatus hcauser

omit [StdHash] in
/-- The object shows no association. -/
theorem self_not_shows {inst : DBusInstance} (hobject : ProviderObject inst)
    (association : DBusAssociation) : ¬ Shows (self inst) association := by
  have hne : status.fieldObjectCauthPath ≠ status.fieldStatus := by decide
  rintro ⟨-, hcauser⟩
  rw [self, initDefault_object hobject.query, Instance.find?_supplementOrUpdate, if_neg hne,
    hobject.causer] at hcauser
  cases hcauser

/-- An association is shown exactly when its endpoint is not the object and the child
under its hash has its source. -/
theorem exists_shows_iff {inst : DBusInstance} (hobject : ProviderObject inst)
    {associations : List DBusAssociation}
    (hhashes : HashesDiffer inst.serviceName
      (inst.objectPath :: associations.map fun association => association.2.2))
    {association : DBusAssociation} (hmem : association ∈ associations) :
    (∃ shown ∈ exposed (capturedFrom inst associations), Shows shown association) ↔
      association.2.2 ≠ inst.objectPath ∧
        ∃ stored ∈ associations, stored.2.2 = association.2.2 ∧ stored.1 = association.1 ∧
          (capturedFrom inst associations).complexInstances.find?
            (objectHash inst.serviceName association.2.2) =
              some (childOf inst.toInstance stored) := by
  have hendpoint : association.2.2 ∈
      inst.objectPath :: associations.map fun association => association.2.2 :=
    List.mem_cons_of_mem _ (List.mem_map_of_mem hmem)
  constructor
  · rintro ⟨shown, hshown, hshows⟩
    rcases (mem_exposed_iff hobject.query).mp hshown with rfl | ⟨key, hkey, hfound⟩
    · exact absurd hshows (self_not_shows hobject association)
    · obtain ⟨stored, hstored, rfl, rfl⟩ := stored_child hfound
      obtain ⟨hsource, hsame⟩ := shows_unique (childOf_shows inst.toInstance stored) hshows
      refine ⟨fun hself => hkey ?_, stored, hstored, hsame, hsource, hsame ▸ hfound⟩
      rw [hsame, hself]
      rfl
  · rintro ⟨hother, stored, hstored, hsame, hsource, hfound⟩
    refine ⟨childOf inst.toInstance stored, (mem_exposed_iff hobject.query).mpr
      (.inr ⟨_, fun hhash => hother ?_, hfound⟩), ?_⟩
    · exact hhashes _ hendpoint _ (by simp) hhash
    · have hshows := childOf_shows inst.toInstance stored
      rw [Shows, hsource, hsame] at hshows
      exact hshows

/-- After a list of associations was delivered to an object, an enumeration of the
provider shows all of them, and apart from the object nothing else, exactly when no
endpoint is the object itself and each endpoint has one source. -/
theorem noAssociationLost_iff_distinguishable {inst : DBusInstance}
    (hobject : ProviderObject inst) {properties : DBusPropertiesMap}
    {associations : List DBusAssociation}
    (hdelivered : properties.find? Status.namePropertyAssociations =
      some (.complex (.associations associations)))
    (hhashes : HashesDiffer inst.serviceName
      (inst.objectPath :: associations.map fun association => association.2.2)) :
    ∃ captured,
      DBusInstance.fillMembers Status.definitionInterface properties inst = .ok ⟨⟩ captured ∧
      (∀ (store : EntityStore) (provider : EntityId) (depth : ℕ),
        (store.objects provider).providers = [] →
        ∃ after, getInstances (depth + 1) provider none store =
          .ok ((store.objects provider).instances.values.flatMap exposed) after) ∧
      (NoAssociationLost (self inst) associations (exposed captured) ↔
        Distinguishable inst.objectPath associations) := by
  refine ⟨capturedFrom inst associations, fillMembers_associations hobject.query hdelivered,
    fun store provider depth hproviders => getInstances_unlinked hproviders depth, ?_⟩
  constructor
  · rintro ⟨hall, -⟩
    have hshown := fun association hmem =>
      (exists_shows_iff hobject hhashes hmem).mp (hall association hmem)
    refine ⟨fun association hmem => (hshown association hmem).1, ?_⟩
    intro first hfirst second hsecond hsame
    -- both are shown by the one child stored under the hash of the endpoint
    obtain ⟨-, storedFirst, -, -, hsource, hfound⟩ := hshown first hfirst
    obtain ⟨-, storedSecond, -, -, hsource', hfound'⟩ := hshown second hsecond
    rw [hsame, hfound'] at hfound
    have hchild := childOf_shows inst.toInstance storedFirst
    rw [← Option.some.inj hfound] at hchild
    have hsources := (shows_unique (childOf_shows inst.toInstance storedSecond) hchild).1
    rw [← hsource, ← hsource', hsources]
  · rintro ⟨hother, hone⟩
    refine ⟨fun association hmem => (exists_shows_iff hobject hhashes hmem).mpr
      ⟨hother association hmem, ?_⟩, fun shown hshown => ?_⟩
    · obtain ⟨stored, hstored, hhash, hfound⟩ := exists_stored inst hmem
      have hsame : stored.2.2 = association.2.2 := hhashes _
        (List.mem_cons_of_mem _ (List.mem_map_of_mem hstored)) _
        (List.mem_cons_of_mem _ (List.mem_map_of_mem hmem)) hhash
      exact ⟨stored, hstored, hsame, hone stored hstored association hmem hsame, hfound⟩
    · rcases (mem_exposed_iff hobject.query).mp hshown with rfl | ⟨key, -, hfound⟩
      · exact .inl rfl
      · obtain ⟨stored, hstored, -, rfl⟩ := stored_child hfound
        exact .inr ⟨stored, hstored, childOf_shows inst.toInstance stored⟩

/-- An object of the provider, freshly created. -/
def sampleObject : DBusInstance := DBusInstance.create "svc" "/fault" Status.query

omit [StdHash] in
theorem sampleObject_provider : ProviderObject sampleObject := ⟨rfl, by decide⟩

/-- A hash that tells texts of different lengths apart. -/
@[reducible]
def lengthHash : StdHash := ⟨64, fun text => BitVec.ofNat 64 text.utf8ByteSize⟩

def sampleProperties (associations : List DBusAssociation) : DBusPropertiesMap :=
  OrderedMap.ofList [(Status.namePropertyAssociations, .complex (.associations associations))]

omit [StdHash] in
/-- Two sensors with one association each are both shown. -/
theorem noAssociationLost_iff_distinguishable_sample :
    ∃ (_ : StdHash) (captured : DBusInstance),
      NoAssociationLost (self sampleObject) [("Warning", "", "/s"), ("Critical", "", "/fan")]
        (exposed captured) := by
  let _ : StdHash := lengthHash
  have hhashes : HashesDiffer "svc" ["/fault", "/s", "/fan"] := by
    unfold HashesDiffer
    decide
  have hdelivered : (sampleProperties [("Warning", "", "/s"), ("Critical", "", "/fan")]).find?
      Status.namePropertyAssociations =
        some (.complex (.associations [("Warning", "", "/s"), ("Critical", "", "/fan")])) := rfl
  obtain ⟨captured, -, -, hiff⟩ := noAssociationLost_iff_distinguishable
    sampleObject_provider hdelivered hhashes
  refine ⟨lengthHash, captured, hiff.mpr ?_⟩
  unfold Distinguishable
  decide

omit [StdHash] in
/-- Of two associations of one endpoint with different sources the first is lost. -/
theorem association_lost_on_shared_endpoint :
    ¬ ∀ (_ : StdHash) (inst : DBusInstance) (properties : DBusPropertiesMap)
      (associations : List DBusAssociation), ProviderObject inst →
      properties.find? Status.namePropertyAssociations =
        some (.complex (.associations associations)) →
      HashesDiffer inst.serviceName
        (inst.objectPath :: associations.map fun association => association.2.2) →
      ∀ captured,
        DBusInstance.fillMembers Status.definitionInterface properties inst = .ok ⟨⟩ captured →
        NoAssociationLost (self inst) associations (exposed captured) := by
  intro hclaim
  let _ : StdHash := lengthHash
  let associations : List DBusAssociation := [("Critical", "", "/s"), ("Warning", "", "/s")]
  have hhashes : HashesDiffer "svc" ["/fault", "/s", "/s"] := by
    unfold HashesDiffer
    decide
  have hfill := fillMembers_associations sampleObject_provider.query
    (rfl : (sampleProperties associations).find? Status.namePropertyAssociations = _)
  obtain ⟨hshown, -⟩ := hclaim lengthHash sampleObject (sampleProperties associations) associations
    sampleObject_provider rfl hhashes _ hfill
  obtain ⟨inst, hmem, hstatus, -⟩ := hshown ("Critical", "", "/s") (by simp [associations])
  have hstatuses : (exposed (capturedFrom sampleObject associations)).map (fun inst =>
      inst.memberInstances.find? status.fieldStatus) =
        [some (.string "OK"), some (.string "Warning")] := by decide
  have hlisted := List.mem_map_of_mem
    (f := fun inst : Instance => inst.memberInstances.find? status.fieldStatus) hmem
  rw [hstatuses, hstatus] at hlisted
  revert hlisted
  decide

end Associations

end ObmcWebapp.Entities
