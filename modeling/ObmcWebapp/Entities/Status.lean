/-
# The status provider and the sensor status rule

The objects of the status provider carry associations; each becomes a child whose
`Status` is the association's source and whose `Causer` is its endpoint. The rule
`linkStatus` is meant to raise the status of the sensor a child names to the higher of
the two, and throws on a status it does not know.

The abstract view is a linear order of three severities: a status names one in any
letter case, and what `getHigherStatus` refers to is the maximum under its canonical
name. The name itself is gone by then. The function copies the two entries of its table
and returns a reference into one of the copies, which are destroyed when it returns.
-/

import ObmcWebapp.Core.Utils
import ObmcWebapp.Entities.Manager

namespace ObmcWebapp.Entities

open ObmcWebapp.Core definitions

/-- The three statuses by priority. -/
inductive Severity
  | ok
  | warning
  | critical
  deriving DecidableEq, Repr

namespace Severity

/-- The priority column of `statusPriority`. -/
def priority : Severity → ℕ
  | ok => 0
  | warning => 1
  | critical => 2

theorem priority_injective : Function.Injective priority := by
  intro first second heq
  cases first <;> cases second <;> simp_all [priority]

instance : LinearOrder Severity := LinearOrder.lift' priority priority_injective

/-- The canonical name of a severity. -/
def name : Severity → String
  | ok => "OK"
  | warning => "Warning"
  | critical => "Critical"

/-- The severity a status names, in any letter case. -/
def ofStatus? (status : String) : Option Severity :=
  if toLower status = "ok" then some ok
  else if toLower status = "warning" then some warning
  else if toLower status = "critical" then some critical
  else none

@[simp]
theorem ofStatus?_name (severity : Severity) : ofStatus? severity.name = some severity := by
  cases severity <;> decide

theorem ok_le (severity : Severity) : ok ≤ severity := Nat.zero_le severity.priority

end Severity

namespace Status

def definitionInterface : InterfaceName := "xyz.openbmc_project.Association.Definitions"
def namePropertyAssociations : PropertyName := "Associations"

def statusOK : String := "OK"
def statusWarning : String := "Warning"
def statusCritical : String := "Critical"

/-- The `Status` query of the provider. -/
def query : DBusQuery where
  searchPropertiesMap := OrderedMap.ofList
    [(definitionInterface, OrderedMap.ofList
        [(namePropertyAssociations, relations.fieldAssociations)]),
      (relations.fieldAssociations, OrderedMap.ofList
        [(relations.fieldSource, status.fieldStatus),
          (relations.fieldEndpoint, status.fieldObjectCauthPath)])]
  formatters := OrderedMap.empty
  defaultFieldsValue := OrderedMap.ofList [(status.fieldStatus, .string statusOK)]

/-- `statusPriority`, keyed by the lower case names. -/
def statusPriority : OrderedMap String (ℕ × String) :=
  OrderedMap.ofList
    [("ok", 0, statusOK), ("warning", 1, statusWarning), ("critical", 2, statusCritical)]

/-- A reference to a name that is destroyed; `text` is what the name was. -/
structure DestroyedName where
  text : String
  deriving DecidableEq

/-- `getHigherStatus`: an unknown status on either side throws. -/
def getHigherStatus (left right : String) : Except Exception DestroyedName :=
  match statusPriority.find? (toLower left), statusPriority.find? (toLower right) with
  | some leftPair, some rightPair =>
      -- both pairs are local copies
      .ok ⟨if leftPair.1 ≥ rightPair.1 then leftPair.2 else rightPair.2⟩
  | _, _ =>
      .error (.obmcApp ("The one of comparing status fields has an unknown value. Left=" ++
        left ++ ", Right=" ++ right))

theorem statusPriority_find? (status : String) :
    statusPriority.find? (toLower status) =
      (Severity.ofStatus? status).map fun severity => (severity.priority, severity.name) := by
  have hentries : statusPriority.entries =
      [("critical", 2, statusCritical), ("ok", 0, statusOK), ("warning", 1, statusWarning)] := by
    decide
  rw [OrderedMap.find?, hentries]
  simp only [Entries.lookup_cons, List.lookup_nil, Severity.ofStatus?]
  split_ifs <;> simp_all [Severity.priority, Severity.name, statusOK, statusWarning, statusCritical]

/-- On known statuses `getHigherStatus` refers to the name of the maximum. -/
theorem getHigherStatus_known {left right : String} {leftSeverity rightSeverity : Severity}
    (hleft : Severity.ofStatus? left = some leftSeverity)
    (hright : Severity.ofStatus? right = some rightSeverity) :
    getHigherStatus left right = .ok ⟨(max leftSeverity rightSeverity).name⟩ := by
  rw [getHigherStatus, statusPriority_find?, statusPriority_find?, hleft, hright]
  by_cases hle : rightSeverity ≤ leftSeverity
  · have hpriority : leftSeverity.priority ≥ rightSeverity.priority := hle
    simp [hpriority, max_eq_left hle]
  · have hpriority : ¬ leftSeverity.priority ≥ rightSeverity.priority := hle
    simp [hpriority, max_eq_right (le_of_not_ge hle)]

/-- An unknown status on either side makes `getHigherStatus` throw. -/
theorem getHigherStatus_unknown {left right : String}
    (hunknown : Severity.ofStatus? left = none ∨ Severity.ofStatus? right = none) :
    getHigherStatus left right =
      .error (.obmcApp ("The one of comparing status fields has an unknown value. Left=" ++
        left ++ ", Right=" ++ right)) := by
  rw [getHigherStatus, statusPriority_find?, statusPriority_find?]
  rcases hunknown with hleft | hright
  · rw [hleft]; rfl
  · rw [hright]
    cases Severity.ofStatus? left <;> rfl

/-- What is compared names a severity. -/
theorem known_of_getHigherStatus {left right : String} {higher : DestroyedName}
    (hhigher : getHigherStatus left right = .ok higher) :
    ∃ severity, Severity.ofStatus? left = some severity := by
  cases hleft : Severity.ofStatus? left with
  | some severity => exact ⟨severity, rfl⟩
  | none =>
      rw [getHigherStatus_unknown (.inl hleft)] at hhigher
      cases hhigher

/-- The severity an instance reports, if its status names one. -/
def reported (supplementing : Instance) : Option Severity :=
  match Instance.getField .notAvailable supplementing status.fieldStatus with
  | .string text => Severity.ofStatus? text
  | _ => none

theorem reported_eq_some_iff {supplementing : Instance} {severity : Severity} :
    reported supplementing = some severity ↔
      ∃ text, Instance.getField .notAvailable supplementing status.fieldStatus = .string text ∧
        Severity.ofStatus? text = some severity := by
  unfold reported
  cases Instance.getField .notAvailable supplementing status.fieldStatus <;> simp

/-- The instance reports on the object of the path. -/
def Blames (path : String) (supplementing : Instance) : Prop :=
  Instance.getField .notAvailable supplementing status.fieldObjectCauthPath = .string path

instance (path : String) : DecidablePred (Blames path) := fun supplementing =>
  inferInstanceAs (Decidable (Instance.getField .notAvailable supplementing
    status.fieldObjectCauthPath = .string path))

/-- What some instances report on the object of a path. -/
def reports (supplements : List Instance) (path : String) : List Severity :=
  (supplements.filter fun supplementing => Blames path supplementing).filterMap reported

/-- The highest severity among OK and the reported ones. -/
def highest (supplements : List Instance) (path : String) : Severity :=
  (reports supplements path).foldl max .ok

theorem mem_reports_iff {supplements : List Instance} {path : String} {severity : Severity} :
    severity ∈ reports supplements path ↔
      ∃ supplementing ∈ supplements, Blames path supplementing ∧
        reported supplementing = some severity := by
  simp [reports, List.mem_filterMap, and_assoc]

/-- It is one of the severities it is taken from and the highest of them. -/
theorem isGreatest_highest (supplements : List Instance) (path : String) :
    IsGreatest {severity | severity = .ok ∨ severity ∈ reports supplements path}
      (highest supplements path) := by
  unfold highest
  induction reports supplements path using List.reverseRecOn with
  | nil => exact ⟨.inl rfl, fun severity hmem => by simp_all⟩
  | append_singleton severities last ih =>
      rw [List.foldl_append, List.foldl_cons, List.foldl_nil]
      constructor
      · rcases max_choice (severities.foldl max .ok) last with hmax | hmax
        · rw [hmax]
          exact ih.1.imp_right fun hmem => List.mem_append_left _ hmem
        · rw [hmax]
          exact .inr (by simp)
      · rintro severity (rfl | hmem)
        · exact Severity.ok_le _
        · rcases List.mem_append.mp hmem with hmem | hmem
          · exact (ih.2 (.inr hmem)).trans (le_max_left _ _)
          · rw [List.mem_singleton.mp hmem]
            exact le_max_right _ _

/-- The order of the instances does not matter. -/
theorem highest_perm {first second : List Instance} (hperm : first.Perm second)
    (path : String) : highest first path = highest second path := by
  have hreports : (reports first path).Perm (reports second path) :=
    (hperm.filter _).filterMap reported
  exact hreports.foldl_eq _

/-- One more instance that reports a severity. -/
theorem highest_append {supplementing : Instance} {severity : Severity}
    (hreported : reported supplementing = some severity) (supplements : List Instance)
    (path : String) :
    highest (supplements ++ [supplementing]) path =
      if Blames path supplementing then max (highest supplements path) severity
      else highest supplements path := by
  have hsplit : reports (supplements ++ [supplementing]) path =
      reports supplements path ++ reports [supplementing] path := by
    rw [reports, List.filter_append, List.filterMap_append]
    rfl
  rw [highest, hsplit, List.foldl_append, ← highest]
  split_ifs with hblames
  · simp [reports, hblames, hreported]
  · simp [reports, hblames]

/-- More instances report at least as much. -/
theorem highest_mono {first second : List Instance} (hsubset : first ⊆ second) (path : String) :
    highest first path ≤ highest second path := by
  apply (isGreatest_highest second path).2
  apply (isGreatest_highest first path).1.imp_right
  rw [mem_reports_iff, mem_reports_iff]
  rintro ⟨supplementing, hmem, hreport⟩
  exact ⟨supplementing, hsubset hmem, hreport⟩

/-- Without an instance that reports on the path its severity is OK. -/
theorem highest_eq_ok {supplements : List Instance} {path : String}
    (hnone : ∀ supplementing ∈ supplements, ¬ Blames path supplementing) :
    highest supplements path = .ok := by
  have hfilter : (supplements.filter fun supplementing => Blames path supplementing) = [] := by
    rw [List.filter_eq_nil_iff]
    simpa using hnone
  rw [highest, reports, hfilter]
  rfl

end Status

end ObmcWebapp.Entities
