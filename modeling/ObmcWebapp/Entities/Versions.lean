/-
# The version provider and the server version rule

The objects of the version provider carry a version and a purpose. The rule
`linkVersions` writes the version to the member of the server that belongs to the
purpose. A purpose that is not a string or is not known leaves the server alone.

Since the rule never reads the server, some versions in a row are a list of updates,
of which the last one for a member counts.
-/

import ObmcWebapp.Entities.Inventory
import ObmcWebapp.Entities.Settling

namespace ObmcWebapp.Entities

open ObmcWebapp.Core definitions

namespace Version

def versionInterfaceName : InterfaceName := "xyz.openbmc_project.Software.Version"
def namePropertyVersion : PropertyName := "Version"
def namePropertyPurpose : PropertyName := "Purpose"

def purposeBios : String := "xyz.openbmc_project.Software.Version.VersionPurpose.Host"
def purposeBmc : String := "xyz.openbmc_project.Software.Version.VersionPurpose.BMC"

inductive VersionPurpose
  | bmc
  | bios
  | unknown
  deriving DecidableEq, Repr

def purposes : OrderedMap String VersionPurpose :=
  OrderedMap.ofList [(purposeBmc, .bmc), (purposeBios, .bios)]

/-- `getPurpose`. -/
def getPurpose (notAvailable : FieldType) (inst : Instance) : Except Exception VersionPurpose := do
  let inputPurpose ← (Instance.getField notAvailable inst version.fieldPurpose).getStringValue
  return (purposes.find? inputPurpose).getD .unknown

/-- The `Version` query of the provider. -/
def query : DBusQuery where
  searchPropertiesMap := OrderedMap.ofList
    [(versionInterfaceName, OrderedMap.ofList
        [(namePropertyVersion, version.fieldVersion),
          (namePropertyPurpose, version.fieldPurpose)])]
  formatters := OrderedMap.empty
  defaultFieldsValue := OrderedMap.empty

def entityQuery : EntityQuery where
  kind := .findObject none
  dbusQuery := query

end Version

namespace Server

/-- `purposeToMemberName`. -/
def purposeToMemberName : Version.VersionPurpose → Option MemberName
  | .bmc => some version.fieldVersionBmc
  | .bios => some version.fieldVersionBios
  | .unknown => none

/-- `linkVersions`. -/
def linkVersions : ProviderLinkRule := fun supplementing link =>
  match Version.getPurpose link.notAvailable supplementing with
  -- the only exception the purpose can raise is caught and logged
  | .error _ => .ok ⟨⟩ link
  | .ok .unknown => .ok ⟨⟩ link
  | .ok purpose =>
      match purposeToMemberName purpose with
      | none => .error (.raised (.invalidType "Version Purpose")) link
      | some member =>
          .ok ⟨⟩ { link with
            target := link.target.supplementOrUpdate member
              (Instance.getField link.notAvailable supplementing version.fieldVersion) }

/-- The update a version instance makes. -/
def versionUpdate (supplementing : Instance) : Option (MemberName × FieldType) :=
  match Version.getPurpose .notAvailable supplementing with
  | .ok purpose =>
      (purposeToMemberName purpose).map fun member =>
        (member, Instance.getField .notAvailable supplementing version.fieldVersion)
  | .error _ => none

/-- The rule makes its update or leaves everything alone; it never throws. -/
theorem linkVersions_eq (supplementing target : Instance) :
    linkVersions supplementing ⟨target, .notAvailable⟩ =
      .ok ⟨⟩ ⟨(versionUpdate supplementing).elim target fun update =>
        target.supplementOrUpdate update.1 update.2, .notAvailable⟩ := by
  unfold linkVersions versionUpdate
  cases Version.getPurpose .notAvailable supplementing with
  | error exception => rfl
  | ok purpose => cases purpose <;> rfl

theorem linkVersions_keepsNotAvailable : KeepsNotAvailable linkVersions := by
  intro supplementing target
  rw [linkVersions_eq]
  rfl

theorem effect_linkVersions (supplementing target : Instance) :
    effect linkVersions supplementing target =
      .ok ((versionUpdate supplementing).elim target fun update =>
        target.supplementOrUpdate update.1 update.2) := by
  rw [effect, linkVersions_eq]
  cases versionUpdate supplementing with
  | none => rfl
  | some update => simp [Instance.supplementOrUpdate_eq]

end Server

/-- Make some updates from left to right. -/
def updateAll (updates : List (MemberName × FieldType)) (inst : Instance) : Instance :=
  updates.foldl (fun inst update => inst.supplementOrUpdate update.1 update.2) inst

/-- The last update of a member counts. -/
theorem find?_updateAll (updates : List (MemberName × FieldType)) (inst : Instance)
    (wanted : MemberName) :
    (updateAll updates inst).memberInstances.find? wanted =
      (updates.reverse.lookup wanted).or (inst.memberInstances.find? wanted) := by
  induction updates generalizing inst with
  | nil => rfl
  | cons update updates ih =>
      have hstep : updateAll (update :: updates) inst =
          updateAll updates (inst.supplementOrUpdate update.1 update.2) := rfl
      rw [hstep, ih, List.reverse_cons, List.lookup_append, Entries.lookup_cons,
        Instance.find?_supplementOrUpdate, Option.or_assoc]
      split_ifs <;> rfl

theorem updateAll_sameObject (updates : List (MemberName × FieldType)) (inst : Instance) :
    SameObject (updateAll updates inst) inst := by
  induction updates generalizing inst with
  | nil => exact ⟨rfl, rfl, rfl⟩
  | cons update updates ih => exact (ih _).trans ⟨by simp, by simp, by simp⟩

/-- Rules that make fixed updates settle. -/
theorem settles_of_updates {links : List (ProviderLinkRule × Instance)}
    {updates : List (MemberName × FieldType)}
    (hlinks : ∀ target, linkAll links target = .ok (updateAll updates target)) : Settles links where
  again target after hlink := by
    rw [hlinks] at hlink ⊢
    cases hlink
    congr 1
    apply (updateAll_sameObject _ _).eq
    intro member
    rw [find?_updateAll, find?_updateAll, ← Option.or_assoc, Option.or_self]
  reset target after hlink := by
    rw [hlinks] at hlink ⊢
    cases hlink
    congr 1
    have hafter := updateAll_sameObject updates target.initDefaultFieldsValue
    apply SameObject.eq
    · exact (updateAll_sameObject _ _).trans (initDefaultFieldsValue_sameObject _)
    · intro member
      rw [find?_updateAll, Instance.find?_initDefaultFieldsValue, hafter.dbusQuery,
        (initDefaultFieldsValue_sameObject target).dbusQuery, find?_updateAll,
        Instance.find?_initDefaultFieldsValue]
      cases updates.reverse.lookup member with
      | some value => rfl
      | none => cases target.dbusQuery.defaultFieldsValue.find? member <;> rfl

/-- Some versions in a row make their updates in a row. -/
theorem linkAll_versions (supplements : List Instance) (target : Instance) :
    linkAll (supplements.map fun supplementing => (Server.linkVersions, supplementing)) target =
      .ok (updateAll (supplements.filterMap Server.versionUpdate) target) := by
  induction supplements generalizing target with
  | nil => rfl
  | cons supplementing supplements ih =>
      have hfirst := Server.effect_linkVersions supplementing target
      rw [List.map_cons, linkAll, List.foldlM_cons, hfirst, List.filterMap_cons]
      cases Server.versionUpdate supplementing with
      | none => exact ih target
      | some update => exact ih _

/-- The version rule settles, whatever the provider shows. -/
theorem settles_versions (supplements : List Instance) :
    Settles (supplements.map fun supplementing => (Server.linkVersions, supplementing)) :=
  settles_of_updates (linkAll_versions supplements)

end ObmcWebapp.Entities
