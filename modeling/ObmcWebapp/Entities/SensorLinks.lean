/-
# Linking all status instances to a sensor

The rule `linkStatus` is applied to a sensor once for each status instance. For an
instance that does not concern the sensor it does nothing, and for one that does it never
writes a status: it throws when one of the two statuses is unknown, and what follows is
undefined when both are known. Whatever the provider shows, the rules therefore leave an
element as it is or fail, and they fail exactly when some instance concerns the element.
-/

import ObmcWebapp.Entities.Sensors
import ObmcWebapp.Entities.Settling

namespace ObmcWebapp.Entities

open ObmcWebapp.Core definitions

namespace Sensors

/-- The rule with each of the status instances. -/
def statusLinks (supplements : List Instance) : List (ProviderLinkRule × Instance) :=
  supplements.map fun supplementing => (linkStatus, supplementing)

/-- A status instance concerns an element: the rule compares their statuses. -/
def Concerned (supplementing target : Instance) : Prop :=
  ∃ candidate current, Concerns supplementing ⟨target, .notAvailable⟩ candidate current

theorem concerns_iff {supplementing target : Instance} {candidate current : String} :
    Concerns supplementing ⟨target, .notAvailable⟩ candidate current ↔
      (∃ path, Instance.getField .notAvailable target metaObjectPath = .string path ∧
        Instance.getField .notAvailable supplementing status.fieldObjectCauthPath =
          .string path) ∧
      Instance.getField .notAvailable supplementing status.fieldStatus = .string candidate ∧
      Instance.getField .notAvailable target status.fieldStatus = .string current := by
  constructor
  · rintro ⟨path, hread⟩
    obtain ⟨hpath, hcauser, hcandidate, hcurrent⟩ := readStatuses_eq_ok_iff.mp hread
    exact ⟨⟨path, hpath, hcauser⟩, hcandidate, hcurrent⟩
  · rintro ⟨⟨path, hpath, hcauser⟩, hcandidate, hcurrent⟩
    exact ⟨path, readStatuses_eq_ok_iff.mpr ⟨hpath, hcauser, hcandidate, hcurrent⟩⟩

/-- How comparing two statuses ends. -/
def comparison (candidate current : String) : RuleFailure :=
  match Status.getHigherStatus current candidate with
  | .error exception => .raised exception
  | .ok _ => .destroyedName

/-- Known statuses are compared, and then the destroyed name is read. -/
theorem comparison_known {candidate current : String} {reported held : Severity}
    (hreported : Severity.ofStatus? candidate = some reported)
    (hheld : Severity.ofStatus? current = some held) :
    comparison candidate current = .destroyedName := by
  rw [comparison, Status.getHigherStatus_known hheld hreported]

/-- An unknown status throws. -/
theorem comparison_unknown {candidate current : String}
    (hunknown : Severity.ofStatus? candidate = none ∨ Severity.ofStatus? current = none) :
    ∃ what, comparison candidate current = .raised (.obmcApp what) := by
  rw [comparison, Status.getHigherStatus_unknown hunknown.symm]
  exact ⟨_, rfl⟩

/-- A comparison throws the exception of the application or reads the destroyed name. -/
theorem comparison_cases (candidate current : String) :
    comparison candidate current = .destroyedName ∨
      ∃ what, comparison candidate current = .raised (.obmcApp what) := by
  cases hreported : Severity.ofStatus? candidate with
  | none => exact .inr (comparison_unknown (.inl hreported))
  | some reported =>
      cases hheld : Severity.ofStatus? current with
      | none => exact .inr (comparison_unknown (.inr hheld))
      | some held => exact .inl (comparison_known hreported hheld)

theorem linkStatus_of_concerns {supplementing : Instance} {link : LinkState}
    {candidate current : String} (hconcerns : Concerns supplementing link candidate current) :
    linkStatus supplementing link = .error (comparison candidate current) link := by
  rw [linkStatus, linkStatusReading_of_concerns _ hconcerns, comparison]
  cases Status.getHigherStatus current candidate <;> rfl

/-- The rule writes nothing. -/
theorem linkStatus_leaves (supplementing : Instance) (link : LinkState) :
    Fallible.Leaves (fun left => left = link) (linkStatus supplementing link) := by
  by_cases hconcerns : ∃ candidate current, Concerns supplementing link candidate current
  · obtain ⟨candidate, current, hconcerns⟩ := hconcerns
    rw [linkStatus_of_concerns hconcerns]
    rfl
  · rw [linkStatus, linkStatusReading_of_not_concerns _ fun candidate current hsome =>
      hconcerns ⟨candidate, current, hsome⟩]
    rfl

/-- A known status is not that of an absent member. -/
theorem hasField_of_known {target : Instance} {text : String} {severity : Severity}
    (hfield : Instance.getField .notAvailable target status.fieldStatus = .string text)
    (hknown : Severity.ofStatus? text = some severity) :
    target.hasField status.fieldStatus = true := by
  by_contra hnone
  have habsent : target.memberInstances.find? status.fieldStatus = none := by
    simpa [Instance.hasField, OrderedMap.contains] using hnone
  rw [Instance.getField, habsent] at hfield
  cases hfield
  have hunknown : Severity.ofStatus? "N/A" = none := by decide
  cases hunknown.symm.trans hknown

/-- Whatever a destroyed name reads as, an absent status is not written. -/
theorem linkStatusReading_keepsNotAvailable (read : Status.DestroyedName → Option String) :
    KeepsNotAvailable (linkStatusReading read) := by
  intro supplementing target
  by_cases hconcerned : Concerned supplementing target
  · obtain ⟨candidate, current, hconcerns⟩ := hconcerned
    rw [linkStatusReading_of_concerns read hconcerns]
    cases hhigher : Status.getHigherStatus current candidate with
    | error exception => rfl
    | ok higher =>
        cases hread : read higher with
        | none => simp only [hread]; rfl
        | some text =>
            obtain ⟨severity, hknown⟩ := Status.known_of_getHigherStatus hhigher
            have hfield := hasField_of_known (concerns_iff.mp hconcerns).2.2 hknown
            simp only [hread, LinkState.setField, hfield, if_true]
            rfl
  · rw [linkStatusReading_of_not_concerns read fun candidate current hsome =>
      hconcerned ⟨candidate, current, hsome⟩]
    rfl

theorem linkStatus_keepsNotAvailable : KeepsNotAvailable linkStatus :=
  linkStatusReading_keepsNotAvailable fun _ => none

theorem effect_of_concerns {supplementing target : Instance} {candidate current : String}
    (hconcerns : Concerns supplementing ⟨target, .notAvailable⟩ candidate current) :
    effect linkStatus supplementing target = .error (comparison candidate current) := by
  rw [effect, linkStatus_of_concerns hconcerns]

theorem effect_of_not_concerned {supplementing target : Instance}
    (hnone : ¬ Concerned supplementing target) :
    effect linkStatus supplementing target = .ok target := by
  rw [effect, linkStatus, linkStatusReading_of_not_concerns _ fun candidate current hsome =>
    hnone ⟨candidate, current, hsome⟩]

/-- Instances of which none concerns the element leave it as it is. -/
theorem linkAll_of_not_concerned {supplements : List Instance} {target : Instance}
    (hnone : ∀ supplementing ∈ supplements, ¬ Concerned supplementing target) :
    linkAll (statusLinks supplements) target = .ok target := by
  induction supplements with
  | nil => rfl
  | cons first supplements ih =>
      rw [statusLinks, List.map_cons, linkAll, List.foldlM_cons,
        effect_of_not_concerned (hnone first List.mem_cons_self)]
      exact ih fun later hlater => hnone later (List.mem_cons_of_mem _ hlater)

/-- The rules fail exactly when an instance concerns the element, and then with a
comparison. -/
theorem linkAll_error_of_concerned {supplements : List Instance} {target : Instance}
    (hconcerned : ∃ supplementing ∈ supplements, Concerned supplementing target) :
    ∃ candidate current,
      linkAll (statusLinks supplements) target = .error (comparison candidate current) := by
  induction supplements with
  | nil =>
      obtain ⟨supplementing, hmem, -⟩ := hconcerned
      cases hmem
  | cons first supplements ih =>
      rw [statusLinks, List.map_cons, linkAll, List.foldlM_cons]
      by_cases hfirst : Concerned first target
      · obtain ⟨candidate, current, hconcerns⟩ := hfirst
        rw [effect_of_concerns hconcerns]
        exact ⟨candidate, current, rfl⟩
      · rw [effect_of_not_concerned hfirst]
        obtain ⟨supplementing, hmem, hlater⟩ := hconcerned
        rcases List.mem_cons.mp hmem with rfl | hmem
        · exact absurd hlater hfirst
        · exact ih ⟨supplementing, hmem, hlater⟩

/-- What the rules leave is what they were given. -/
theorem eq_of_linkAll {supplements : List Instance} {target after : Instance}
    (hlink : linkAll (statusLinks supplements) target = .ok after) : after = target := by
  by_cases hconcerned : ∃ supplementing ∈ supplements, Concerned supplementing target
  · obtain ⟨candidate, current, herror⟩ := linkAll_error_of_concerned hconcerned
    rw [herror] at hlink
    cases hlink
  · rw [linkAll_of_not_concerned fun supplementing hmem hown =>
      hconcerned ⟨supplementing, hmem, hown⟩] at hlink
    exact (Except.ok.inj hlink).symm

/-- The status rule settles, whatever the provider shows. -/
theorem settles_statuses (supplements : List Instance) : Settles (statusLinks supplements) where
  again target after hlink := by
    obtain rfl := eq_of_linkAll hlink
    exact hlink
  reset target after hlink := by
    obtain rfl := eq_of_linkAll hlink
    rw [initDefaultFieldsValue_again]
    exact hlink

/-- The rules fail exactly when an instance concerns the element. -/
theorem linkAll_error_iff (supplements : List Instance) (target : Instance) :
    (∃ failed, linkAll (statusLinks supplements) target = .error failed) ↔
      ∃ supplementing ∈ supplements, Concerned supplementing target := by
  constructor
  · rintro ⟨failed, herror⟩
    by_contra hnone
    rw [linkAll_of_not_concerned fun supplementing hmem hown =>
      hnone ⟨supplementing, hmem, hown⟩] at herror
    cases herror
  · intro hconcerned
    obtain ⟨candidate, current, herror⟩ := linkAll_error_of_concerned hconcerned
    exact ⟨_, herror⟩

/-- What the rules fail with. -/
theorem linkAll_error_cases {supplements : List Instance} {target : Instance}
    {failed : RuleFailure} (herror : linkAll (statusLinks supplements) target = .error failed) :
    failed = .destroyedName ∨ ∃ what, failed = .raised (.obmcApp what) := by
  obtain ⟨candidate, current, hcomparison⟩ :=
    linkAll_error_of_concerned ((linkAll_error_iff supplements target).mp ⟨failed, herror⟩)
  cases hcomparison.symm.trans herror
  exact comparison_cases candidate current

end Sensors

end ObmcWebapp.Entities
