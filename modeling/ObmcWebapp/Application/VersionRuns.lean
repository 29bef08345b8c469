/-
# The server versions over runs

The versions of the server are written into its published instances by an enumeration
and stay there. The version query has no default fields, so nothing resets them. As
long as the provider has an instance of a purpose, every enumeration writes the member
of that purpose anew; once the last such instance is gone, the old version is shown.

A run changes the provider, by signals and by publications, and enumerates the server.
Its state carries what was shown, until the provider changes again.
-/

import ObmcWebapp.Application.Requests

namespace ObmcWebapp.Application

open ObmcWebapp.Core ObmcWebapp.Entities definitions

namespace ServerVersions

/-- The member of the server for each of the two purposes. -/
def tracked : List (MemberName × String) :=
  [(version.fieldVersionBmc, Version.purposeBmc), (version.fieldVersionBios, Version.purposeBios)]

/-- What a member of an instance reads as. -/
def reads (inst : Instance) (member : MemberName) : FieldType :=
  Instance.getField .notAvailable inst member

/-- A provider instance of a purpose. -/
def HasPurpose (purpose : String) (inst : Instance) : Prop :=
  reads inst version.fieldPurpose = .string purpose

theorem getPurpose_of_string {inst : Instance} {purpose : String} (hpurpose : HasPurpose purpose inst) :
    Version.getPurpose .notAvailable inst =
      .ok ((Version.purposes.find? purpose).getD .unknown) := by
  have hfield : (Instance.getField .notAvailable inst version.fieldPurpose).getStringValue =
      .ok purpose := by
    rw [show Instance.getField .notAvailable inst version.fieldPurpose = .string purpose from
      hpurpose]
    rfl
  rw [Version.getPurpose, hfield]
  rfl

theorem find?_purposes (purpose : String) :
    Version.purposes.find? purpose =
      if purpose = Version.purposeBmc then some .bmc
      else if purpose = Version.purposeBios then some .bios else none := by
  rw [Version.purposes, OrderedMap.find?_ofList]
  simp only [Entries.lookup_cons, List.lookup_nil]

/-- A version instance updates the member of its purpose. -/
theorem versionUpdate_eq_some_iff {inst : Instance} {member : MemberName} {value : FieldType} :
    Server.versionUpdate inst = some (member, value) ↔
      ∃ purpose, (member, purpose) ∈ tracked ∧ HasPurpose purpose inst ∧
        value = reads inst version.fieldVersion := by
  constructor
  · intro hupdate
    cases hfield : (Instance.getField .notAvailable inst version.fieldPurpose).getStringValue with
    | error exception =>
        rw [Server.versionUpdate, Version.getPurpose, hfield] at hupdate
        cases hupdate
    | ok purpose =>
        have hpurpose : HasPurpose purpose inst := FieldType.getStringValue_eq_ok_iff.mp hfield
        rw [Server.versionUpdate, getPurpose_of_string hpurpose, find?_purposes] at hupdate
        split_ifs at hupdate with hbmc hbios
        · cases hupdate
          exact ⟨purpose, by simp [tracked, hbmc], hpurpose, rfl⟩
        · cases hupdate
          exact ⟨purpose, by simp [tracked, hbios], hpurpose, rfl⟩
        · cases hupdate
  · rintro ⟨purpose, htracked, hpurpose, rfl⟩
    rw [Server.versionUpdate, getPurpose_of_string hpurpose, find?_purposes]
    simp only [tracked, List.mem_cons, List.not_mem_nil, or_false, Prod.mk.injEq] at htracked
    rcases htracked with ⟨rfl, rfl⟩ | ⟨rfl, rfl⟩
    · rfl
    · rfl

/-- The purpose of a tracked member. -/
theorem tracked_injective {member : MemberName} {first second : String}
    (hfirst : (member, first) ∈ tracked) (hsecond : (member, second) ∈ tracked) :
    first = second := by
  simp only [tracked, List.mem_cons, List.not_mem_nil, or_false, Prod.mk.injEq] at hfirst hsecond
  rcases hfirst with ⟨rfl, rfl⟩ | ⟨rfl, rfl⟩
  · rcases hsecond with ⟨-, rfl⟩ | ⟨hmember, -⟩
    · rfl
    · exact absurd hmember (by decide)
  · rcases hsecond with ⟨hmember, -⟩ | ⟨-, rfl⟩
    · exact absurd hmember (by decide)
    · rfl

/-- After the updates of some versions, a tracked member reads as the last version of its
purpose, or as before when there is none. -/
theorem reads_updateAll {member : MemberName} {purpose : String}
    (htracked : (member, purpose) ∈ tracked) (versions : List Instance) (target : Instance) :
    (∃ supplementing ∈ versions, HasPurpose purpose supplementing ∧
      reads (updateAll (versions.filterMap Server.versionUpdate) target) member =
        reads supplementing version.fieldVersion) ∨
    ((∀ supplementing ∈ versions, ¬HasPurpose purpose supplementing) ∧
      reads (updateAll (versions.filterMap Server.versionUpdate) target) member =
        reads target member) := by
  cases hlast : (versions.filterMap Server.versionUpdate).reverse.lookup member with
  | some value =>
      have hmem : (member, value) ∈ (versions.filterMap Server.versionUpdate).reverse := by
        obtain ⟨before, after, hsplit, -⟩ := List.lookup_eq_some_iff.mp hlast
        rw [hsplit]
        simp
      rw [List.mem_reverse, List.mem_filterMap] at hmem
      obtain ⟨supplementing, hsupplementing, hupdate⟩ := hmem
      obtain ⟨other, hother, hpurpose, rfl⟩ := versionUpdate_eq_some_iff.mp hupdate
      rw [tracked_injective hother htracked] at hpurpose
      refine .inl ⟨supplementing, hsupplementing, hpurpose, ?_⟩
      rw [reads, Instance.getField, find?_updateAll, hlast]
      rfl
  | none =>
      refine .inr ⟨?_, ?_⟩
      · intro supplementing hsupplementing hpurpose
        have hupdate := versionUpdate_eq_some_iff.mpr ⟨purpose, htracked, hpurpose, rfl⟩
        rw [Entries.lookup_eq_none_iff] at hlast
        exact hlast _ (List.mem_reverse.mpr
          (List.mem_filterMap.mpr ⟨supplementing, hsupplementing, hupdate⟩)) rfl
      · rw [reads, Instance.getField, find?_updateAll, hlast]
        rfl

section Enumeration

variable [StdHash] {store : EntityStore} (hconfigured : Configured store)

include hconfigured

/-- An enumeration of the server shows its instances with the versions. -/
theorem view_server :
    (linkage hconfigured).view serverEntity = .ok ((exposures store serverEntity).map
      (updateAll ((exposures store versionProvider).filterMap Server.versionUpdate))) := by
  have hlinks : linksOf store (exposures store) serverEntity =
      (exposures store versionProvider).map fun supplementing =>
        (Server.linkVersions, supplementing) := by
    rw [linksOf, hconfigured.providers]
    exact List.flatMap_singleton _ _
  have hshown : ∀ inst ∈ (store.objects serverEntity).instances.values,
      shownWith (linksOf store (exposures store) serverEntity) inst = .ok ((exposed inst).map
        (updateAll ((exposures store versionProvider).filterMap Server.versionUpdate))) := by
    intro inst _
    rw [hlinks, shownWith]
    exact Fallible.mapM_eq_ok fun target _ => linkAll_versions _ target
  have hflat : (exposures store serverEntity).map
      (updateAll ((exposures store versionProvider).filterMap Server.versionUpdate)) =
      ((store.objects serverEntity).instances.values.map fun inst => (exposed inst).map
        (updateAll ((exposures store versionProvider).filterMap
          Server.versionUpdate))).flatten := by
    rw [← List.flatMap_def]
    exact List.map_flatMap
  show viewOf store (exposures store) serverEntity = _
  rw [viewOf, Fallible.mapM_eq_ok hshown, hflat]
  rfl

/-- A settled store has the same version instances. -/
theorem exposures_versions {after : EntityStore} (hsettled : (linkage hconfigured).Settled after) :
    exposures after versionProvider = exposures store versionProvider := by
  have hproviders : (store.objects versionProvider).providers = [] := by
    rw [hconfigured.providers]
    rfl
  have hview := hsettled.mapM_shownWith versionProvider
  have hlinks : (linkage hconfigured).links versionProvider = [] := by
    rw [Linkage.links, linksOf, hproviders]
    rfl
  rw [hlinks, Fallible.mapM_eq_ok fun inst _ => shownWith_nil inst,
    Fallible.mapM_eq_ok fun inst _ => shownWith_nil inst] at hview
  rw [exposures, exposures, List.flatMap_def, List.flatMap_def, Except.ok.inj hview]

/-- The enumeration returns, and leaves the version instances as they are. -/
theorem getInstances_server (depth : ℕ) :
    ∃ after, getInstances (depth + 2) serverEntity none store =
      .ok ((exposures store serverEntity).map
        (updateAll ((exposures store versionProvider).filterMap Server.versionUpdate))) after ∧
      Configured after ∧ exposures after versionProvider = exposures store versionProvider := by
  have hfollows := Linkage.getInstances_follows (depth + 2)
    (rank_lt hconfigured depth serverEntity) (Linkage.settled_origin (linkage hconfigured))
  rw [view_server hconfigured] at hfollows
  obtain ⟨shown, after, hresult, rfl, hsettled⟩ := hfollows
  refine ⟨after, hresult, ?_, exposures_versions hconfigured hsettled⟩
  exact ⟨fun entity => (hsettled.members entity).trans (hconfigured.members entity),
    fun entity => (hsettled.providers entity).trans (hconfigured.providers entity),
    hsettled.notAvailable⟩

end Enumeration

section Runs

variable [StdHash]

/-- The store, and what the last enumeration of the server showed if the provider has not
changed since. -/
structure Watched where
  store : EntityStore
  shown : Option (List Instance)

inductive Change
  /-- A signal lists changed properties of an instance of the provider. -/
  | propertiesChanged (hash : ℕ) (interface : InterfaceName) (changed : DBusPropertiesMap)
  | publish (instances : List DBusInstance)
  | enumerate (depth : ℕ)

inductive Steps : Watched → Change → Watched → Prop
  | propertiesChanged {state : Watched} {hash : ℕ} {interface : InterfaceName}
      {changed : DBusPropertiesMap} {inst filled : DBusInstance}
      (hfound : (state.store.objects versionProvider).instances.find? hash = some inst)
      (hfill : Fallible.Leaves (fun left => left = filled)
        (DBusInstance.fillMembers interface changed inst)) :
      Steps state (.propertiesChanged hash interface changed)
        ⟨state.store.putInstance versionProvider hash filled, none⟩
  | publish {state : Watched} {instances : List DBusInstance} :
      Steps state (.publish instances) ⟨state.store.setInstances versionProvider instances, none⟩
  | enumerate {state : Watched} {depth : ℕ} {shown : List Instance} {after : EntityStore}
      (hresult : getInstances (depth + 2) serverEntity none state.store = .ok shown after) :
      Steps state (.enumerate depth) ⟨after, some shown⟩

/-- A run starts with a registered store, whatever is published. -/
def machine : Machine Watched Change where
  initial state := Configured state.store ∧ state.shown = none
  step := Steps

/-- A server instance shows the version of a provider instance of the purpose, and "N/A"
when there is none. -/
def Follows (provider : List Instance) (target : Instance) (member : MemberName)
    (purpose : String) : Prop :=
  (∃ supplementing ∈ provider, HasPurpose purpose supplementing ∧
    reads target member = reads supplementing version.fieldVersion) ∨
  ((∀ supplementing ∈ provider, ¬HasPurpose purpose supplementing) ∧
    reads target member = .string "N/A")

/-- What was shown follows the provider. -/
def VersionsFollow (state : Watched) : Prop :=
  ∀ shown ∈ state.shown, ∀ target ∈ shown, ∀ member purpose, (member, purpose) ∈ tracked →
    Follows (exposures state.store versionProvider) target member purpose

/-- For each purpose the provider has an instance, or the member still reads "N/A"
everywhere. -/
def Fresh (store : EntityStore) : Prop :=
  ∀ member purpose, (member, purpose) ∈ tracked →
    (∃ supplementing ∈ exposures store versionProvider, HasPurpose purpose supplementing) ∨
    ∀ target ∈ exposures store serverEntity, reads target member = .string "N/A"

/-- An enumeration meets a fresh store. -/
def Allowed (state : Watched) : Change → Prop
  | .enumerate _ => Fresh state.store
  | _ => True

theorem configured_invariant : machine.Invariant fun state => Configured state.store where
  start hinitial := hinitial.1
  preserved := by
    intro state change next hconfigured hstep
    cases hstep with
    | propertiesChanged hfound hfill => exact hconfigured.withInstances _ _
    | publish => exact hconfigured.withInstances _ _
    | @enumerate depth shown after hresult =>
        obtain ⟨left, hleft, hafter, -⟩ := getInstances_server hconfigured depth
        rw [hresult] at hleft
        cases hleft
        exact hafter

/-- An enumeration shows what follows the provider exactly when the store it meets is
fresh. -/
theorem versionsFollow_enumerate {state next : Watched} {depth : ℕ}
    (hconfigured : Configured state.store) (hstep : Steps state (.enumerate depth) next) :
    VersionsFollow next ↔ Fresh state.store := by
  cases hstep with
  | @enumerate _ shown after hresult =>
      obtain ⟨left, hleft, -, hprovider⟩ := getInstances_server hconfigured depth
      rw [hresult] at hleft
      cases hleft
      constructor
      · intro hfollow member purpose htracked
        by_cases hpurpose : ∃ supplementing ∈ exposures state.store versionProvider,
            HasPurpose purpose supplementing
        · exact .inl hpurpose
        · refine .inr fun target htarget => ?_
          have htold := hfollow _ rfl _ (List.mem_map_of_mem htarget) member purpose htracked
          rw [hprovider] at htold
          rcases htold with ⟨supplementing, hmem, hhas, -⟩ | ⟨-, hreads⟩
          · exact absurd ⟨supplementing, hmem, hhas⟩ hpurpose
          rcases reads_updateAll htracked (exposures state.store versionProvider) target with
            ⟨supplementing, hmem, hhas, -⟩ | ⟨-, hkept⟩
          · exact absurd ⟨supplementing, hmem, hhas⟩ hpurpose
          · rw [← hkept, hreads]
      · intro hfresh shown hshown updated hupdated member purpose htracked
        cases hshown
        obtain ⟨target, htarget, rfl⟩ := List.mem_map.mp hupdated
        rw [hprovider]
        rcases reads_updateAll htracked (exposures state.store versionProvider) target with
          hfound | ⟨hnone, hkept⟩
        · exact .inl hfound
        · rcases hfresh member purpose htracked with ⟨supplementing, hmem, hhas⟩ | hreads
          · exact absurd hhas (hnone supplementing hmem)
          · exact .inr ⟨hnone, hkept.trans (hreads target htarget)⟩

/-- In a run whose enumerations meet fresh stores, what is shown follows the provider;
any other enumeration shows a version that does not. -/
theorem versionsFollow_iff_fresh :
    (∀ state : Watched, (machine.restrict Allowed).Reachable state → VersionsFollow state) ∧
    ∀ (state next : Watched) (depth : ℕ), machine.Reachable state →
      machine.step state (.enumerate depth) next →
      (VersionsFollow next ↔ Fresh state.store) := by
  have hstep : ∀ (state next : Watched) (depth : ℕ), machine.Reachable state →
      machine.step state (.enumerate depth) next →
      (VersionsFollow next ↔ Fresh state.store) := fun state next depth hreach hstep =>
    versionsFollow_enumerate (configured_invariant.of_reachable hreach) hstep
  have hinvariant : (machine.restrict Allowed).Invariant fun state =>
      Configured state.store ∧ VersionsFollow state := by
    constructor
    · rintro state ⟨hconfigured, hshown⟩
      refine ⟨hconfigured, fun shown hmem => ?_⟩
      rw [hshown] at hmem
      cases hmem
    · rintro state change next ⟨hconfigured, -⟩ ⟨hallowed, htaken⟩
      refine ⟨configured_invariant.preserved hconfigured htaken, ?_⟩
      cases htaken with
      | propertiesChanged hfound hfill =>
          intro shown hmem
          cases hmem
      | publish =>
          intro shown hmem
          cases hmem
      | enumerate hresult =>
          exact (versionsFollow_enumerate hconfigured (.enumerate hresult)).mpr hallowed
  exact ⟨fun state hreach => (hinvariant.of_reachable hreach).2, hstep⟩

/-- The firmware of the BMC. -/
def bmcFirmware : DBusInstance :=
  let created := DBusInstance.create "xyz.openbmc_project.Software.BMC.Updater"
    "/xyz/openbmc_project/software/a1" Version.query
  { created with
    toInstance := (created.toInstance.supplementOrUpdate version.fieldVersion
      (.string "2.9")).supplementOrUpdate version.fieldPurpose (.string Version.purposeBmc) }

/-- A store with one server. -/
def servedStore : EntityStore :=
  initEntityMap.setInstances serverEntity
    [DBusInstance.create "xyz.openbmc_project.Inventory.Manager"
      "/xyz/openbmc_project/inventory/system/chassis" Server.query]

theorem servedStore_configured : Configured servedStore := by
  have hinitial : Configured initEntityMap := ⟨fun _ => rfl, fun _ => rfl, rfl⟩
  exact hinitial.withInstances serverEntity _

/-- The store an enumeration of the server leaves. -/
def enumerated (store : EntityStore) : EntityStore :=
  match getInstances 2 serverEntity none store with
  | .ok _ after => after
  | .error _ after => after

/-- An enumeration is a step of a run. -/
theorem steps_enumerate {store : EntityStore} (shown : Option (List Instance))
    (hconfigured : Configured store) :
    Steps ⟨store, shown⟩ (.enumerate 0) ⟨enumerated store, some ((exposures store serverEntity).map
      (updateAll ((exposures store versionProvider).filterMap Server.versionUpdate)))⟩ := by
  obtain ⟨after, hresult, -⟩ := getInstances_server hconfigured 0
  have hafter : enumerated store = after := by
    rw [enumerated, hresult]
  rw [hafter]
  exact .enumerate hresult

/-- The store in which the firmware was shown and is gone. -/
def abandonedStore : EntityStore :=
  (enumerated (servedStore.setInstances versionProvider [bmcFirmware])).setInstances
    versionProvider []

/-- The firmware is published, and the server is enumerated. -/
theorem published_reachable :
    machine.Reachable ⟨servedStore.setInstances versionProvider [bmcFirmware], none⟩ := by
  have hstart : machine.Reachable ⟨servedStore, none⟩ := .start ⟨servedStore_configured, rfl⟩
  exact hstart.next .publish

/-- Then the firmware goes away. -/
theorem abandoned_reachable : machine.Reachable ⟨abandonedStore, none⟩ := by
  have hconfigured := configured_invariant.of_reachable published_reachable
  exact (published_reachable.next (steps_enumerate none hconfigured)).next .publish

omit [StdHash] in
/-- The firmware that is there is shown. -/
theorem versionsFollow_iff_fresh_firmware :
    ∃ (_ : StdHash) (state : Watched),
      state.store = enumerated (servedStore.setInstances versionProvider [bmcFirmware]) ∧
      state.shown.isSome ∧ VersionsFollow state := by
  let hash : StdHash := ⟨64, fun _ => 0⟩
  have hstep := steps_enumerate none
    (configured_invariant.of_reachable published_reachable)
  refine ⟨hash, _, rfl, rfl, (versionsFollow_iff_fresh.2 _ _ 0 published_reachable hstep).mpr ?_⟩
  have hprovider : (exposures (servedStore.setInstances versionProvider [bmcFirmware])
      versionProvider).map (fun inst => reads inst version.fieldPurpose) =
        [.string Version.purposeBmc] := by decide
  have hserver : (exposures (servedStore.setInstances versionProvider [bmcFirmware])
      serverEntity).map (fun inst => reads inst version.fieldVersionBios) = [.string "N/A"] := by
    decide
  intro member purpose htracked
  simp only [tracked, List.mem_cons, List.not_mem_nil, or_false, Prod.mk.injEq] at htracked
  rcases htracked with ⟨rfl, rfl⟩ | ⟨rfl, rfl⟩
  · left
    obtain ⟨firmware, hfirmware, hpurpose⟩ := List.map_eq_singleton_iff.mp hprovider
    exact ⟨firmware, by rw [hfirmware]; simp, hpurpose⟩
  · right
    obtain ⟨server, hshown, hreads⟩ := List.map_eq_singleton_iff.mp hserver
    rw [hshown]
    simpa using hreads

omit [StdHash] in
/-- The version of a firmware that is gone is shown. -/
theorem stale_version :
    ¬∀ (_ : StdHash) (state : Watched), machine.Reachable state → VersionsFollow state := by
  intro hclaim
  let hash : StdHash := ⟨64, fun _ => 0⟩
  have hconfigured := configured_invariant.of_reachable abandoned_reachable
  have hstep := steps_enumerate none hconfigured
  have hfollow := hclaim hash _ (abandoned_reachable.next hstep)
  have hfresh := (versionsFollow_enumerate hconfigured hstep).mp hfollow
  have hprovider : (exposures abandonedStore versionProvider).length = 0 := by decide
  have hserver : (exposures abandonedStore serverEntity).map
      (fun inst => reads inst version.fieldVersionBmc) = [.string "2.9"] := by decide
  obtain ⟨server, hshown, hreads⟩ := List.map_eq_singleton_iff.mp hserver
  rcases hfresh version.fieldVersionBmc Version.purposeBmc (by simp [tracked]) with
    ⟨firmware, hmem, -⟩ | hall
  · rw [List.length_eq_zero_iff.mp hprovider] at hmem
    cases hmem
  · have hnone := hall server (by rw [hshown]; simp)
    rw [hreads] at hnone
    exact absurd hnone (by decide)

end Runs

end ServerVersions

end ObmcWebapp.Application
