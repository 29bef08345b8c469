/-
# The sensors query and its status rule

`linkStatus` compares four fields: the path of the sensor, the causer and the status
of the supplementing instance, and the current status of the sensor. When one of
them is not a string the rule does nothing. When the causer is not the sensor's
path it does nothing either. Otherwise the higher of the two statuses is to be written
to the sensor. An unknown one throws before anything is written, and for two known ones
the rule reads a name that is destroyed, which is undefined behaviour.
-/

import ObmcWebapp.Entities.Queries
import ObmcWebapp.Entities.Status

namespace ObmcWebapp.Entities

open ObmcWebapp.Core definitions

namespace Sensors

def sensorThresholdWarningInterface : InterfaceName :=
  "xyz.openbmc_project.Sensor.Threshold.Warning"
def sensorThresholdCriticalInterface : InterfaceName :=
  "xyz.openbmc_project.Sensor.Threshold.Critical"
def sensorValueInterface : InterfaceName := "xyz.openbmc_project.Sensor.Value"

def namePropertyUnit : PropertyName := "Unit"
def defaultUnitLabel : String := "Unit"

def sensorUnitsMap : OrderedMap String String :=
  OrderedMap.ofList
    [("xyz.openbmc_project.Sensor.Value.Unit.DegreesC", "°C"),
      ("xyz.openbmc_project.Sensor.Value.Unit.Volts", "Volts"),
      ("xyz.openbmc_project.Sensor.Value.Unit.RPMS", "RPM"),
      ("xyz.openbmc_project.Sensor.Value.Unit.Meters", "Meters"),
      ("xyz.openbmc_project.Sensor.Value.Unit.Amperes", "Amperes"),
      ("xyz.openbmc_project.Sensor.Value.Unit.Watts", "Watts"),
      ("xyz.openbmc_project.Sensor.Value.Unit.Joules", "Joules"),
      ("xyz.openbmc_project.Sensor.Value.Unit.Percent", "%")]

/-- `formatSensorUnit`: a known unit gets its label, any other string the default
one, and a value that is not a string is rejected. -/
def formatSensorUnit : FormatterFn where
  onScalar _ value :=
    match value with
    | .string unit => .ok (.string ((sensorUnitsMap.find? unit).getD defaultUnitLabel))
    | _ => .error (.invalidArgument "Invalid value type of Sensor Unit property")
  onComplex _ _ := .error (.invalidArgument "Invalid value type of Sensor Unit property")

/-- The `Sensors` query. -/
def query : DBusQuery where
  searchPropertiesMap := OrderedMap.ofList
    [(sensorValueInterface, OrderedMap.ofList
        [("Value", sensors.fieldValue), (namePropertyUnit, sensors.fieldUnit)]),
      (sensorThresholdWarningInterface, OrderedMap.ofList
        [("WarningLow", sensors.fieldLowWarning), ("WarningHigh", sensors.fieldHighWarning)]),
      (sensorThresholdCriticalInterface, OrderedMap.ofList
        [("CriticalHigh", sensors.fieldHightCritical),
          ("CriticalLow", sensors.fieldLowCritical)])]
  formatters := OrderedMap.ofList [(namePropertyUnit, [formatSensorUnit])]
  defaultFieldsValue := OrderedMap.ofList [(status.fieldStatus, .string Status.statusOK)]

/-- `setSensorName`. -/
def setSensorName (inst : DBusInstance) : Except Exception DBusInstance := do
  let name ← getNameFromLastSegmentObjectPath inst.objectPath
  let supplemented ← inst.toInstance.supplement sensors.fieldName (.string name)
  return { inst with toInstance := supplemented }

/-- The sensors of every service. -/
def entityQuery : EntityQuery where
  kind := .findObject none
  dbusQuery := query
  supplementByStaticFields := setSensorName

/-- The four strings `linkStatus` reads: target path, causer, candidate, current. -/
def readStatuses (supplementing : Instance) (link : LinkState) :
    Except Exception (String × String × String × String) := do
  let targetObjectPath ←
    (Instance.getField link.notAvailable link.target metaObjectPath).getStringValue
  let causer ←
    (Instance.getField link.notAvailable supplementing status.fieldObjectCauthPath).getStringValue
  let candidate ←
    (Instance.getField link.notAvailable supplementing status.fieldStatus).getStringValue
  let current ←
    (Instance.getField link.notAvailable link.target status.fieldStatus).getStringValue
  return (targetObjectPath, causer, candidate, current)

/-- `linkStatus`, when reading a destroyed name gives some text or has no meaning. -/
def linkStatusReading (read : Status.DestroyedName → Option String) : ProviderLinkRule :=
  fun supplementing link =>
    match readStatuses supplementing link with
    -- the only exception a read can raise is caught and logged
    | .error _ => .ok ⟨⟩ link
    | .ok (targetObjectPath, causer, candidate, current) =>
        if targetObjectPath ≠ causer then .ok ⟨⟩ link
        else
          match Status.getHigherStatus current candidate with
          | .error exception => .error (.raised exception) link
          | .ok higher =>
              match read higher with
              | none => .error .destroyedName link
              | some text => .ok ⟨⟩ (link.setField status.fieldStatus (.string text))

/-- `linkStatus`: nothing can be said of what a destroyed name reads as. -/
def linkStatus : ProviderLinkRule := linkStatusReading fun _ => none

/-- The reads succeed exactly when the four fields are strings. -/
theorem readStatuses_eq_ok_iff {supplementing : Instance} {link : LinkState}
    {path causer candidate current : String} :
    readStatuses supplementing link = .ok (path, causer, candidate, current) ↔
      Instance.getField link.notAvailable link.target metaObjectPath = .string path ∧
      Instance.getField link.notAvailable supplementing status.fieldObjectCauthPath =
        .string causer ∧
      Instance.getField link.notAvailable supplementing status.fieldStatus =
        .string candidate ∧
      Instance.getField link.notAvailable link.target status.fieldStatus = .string current := by
  simp only [← FieldType.getStringValue_eq_ok_iff]
  unfold readStatuses
  constructor
  · intro hread
    simp only [bind, Except.bind] at hread
    split at hread; · cases hread
    split at hread; · cases hread
    split at hread; · cases hread
    split at hread; · cases hread
    cases hread
    exact ⟨‹_›, ‹_›, ‹_›, ‹_›⟩
  · rintro ⟨hpath, hcauser, hcandidate, hcurrent⟩
    rw [hpath, hcauser, hcandidate, hcurrent]
    rfl

/-- A supplementing instance concerns a target when the fields the rule reads are
strings and the causer is the target's path; then these are the statuses to
compare. -/
def Concerns (supplementing : Instance) (link : LinkState) (candidate current : String) : Prop :=
  ∃ path, readStatuses supplementing link = .ok (path, path, candidate, current)

/-- The rule leaves everything alone for an instance that does not concern its
target. -/
theorem linkStatusReading_of_not_concerns (read : Status.DestroyedName → Option String)
    {supplementing : Instance} {link : LinkState}
    (hnone : ∀ candidate current, ¬ Concerns supplementing link candidate current) :
    linkStatusReading read supplementing link = .ok ⟨⟩ link := by
  unfold linkStatusReading
  cases hread : readStatuses supplementing link with
  | error exception => rfl
  | ok fields =>
      obtain ⟨path, causer, candidate, current⟩ := fields
      have hne : path ≠ causer := fun heq => hnone candidate current ⟨path, heq ▸ hread⟩
      simp [hne]

theorem linkStatusReading_of_concerns (read : Status.DestroyedName → Option String)
    {supplementing : Instance} {link : LinkState} {candidate current : String}
    (hconcerns : Concerns supplementing link candidate current) :
    linkStatusReading read supplementing link =
      match Status.getHigherStatus current candidate with
      | .error exception => .error (.raised exception) link
      | .ok higher =>
          match read higher with
          | none => .error .destroyedName link
          | some text => .ok ⟨⟩ (link.setField status.fieldStatus (.string text)) := by
  obtain ⟨path, hread⟩ := hconcerns
  simp [linkStatusReading, hread]

end Sensors

end ObmcWebapp.Entities
