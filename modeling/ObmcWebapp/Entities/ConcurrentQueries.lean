/-
# Concurrent status queries of one sensor

The evaluation of the sensors rewrites the shared instance in several steps: it
resets the status to its default, applies the status rule once for each instance
of the provider, and only then is the field read. Nothing keeps two requests from
interleaving these steps on one sensor.

A link that concerns the sensor writes what a destroyed name is read as, which may be
any text. With one such instance in the provider some run reads no status at all, so
the queries are safe exactly when no instance concerns the sensor.

Even if every destroyed name still reads as it was, the queries disturb each other. The
state records, as history, which provider instances were linked since the last reset.
The status of the sensor is then at every moment the maximum over this history, so what
a query reads is decided by the links that follow the last reset of any query.
-/

import ObmcWebapp.Entities.Sensors
import ObmcWebapp.Library.Execution

namespace ObmcWebapp.Entities

open ObmcWebapp.Core definitions

namespace ConcurrentQueries

variable {ι : Type} [DecidableEq ι]

/-- Where one query stands. -/
inductive QueryPc
  | idle
  /-- The sensor was reset and this many provider instances were linked. -/
  | linking (next : ℕ)
  | read (status : FieldType)
  | failed (failure : RuleFailure)
  deriving DecidableEq

/-- What a destroyed name is read as: what it was, or any text. -/
inductive ReadAs
  | itself
  | other (text : String)
  deriving DecidableEq

def ReadAs.text : ReadAs → Status.DestroyedName → String
  | itself, name => name.text
  | other text, _ => text

/-- One elementary step of one query. -/
inductive QueryStep (ι : Type)
  | reset (query : ι)
  | link (query : ι) (readAs : ReadAs)
  | readStatus (query : ι)
  deriving DecidableEq

/-- The step reads no destroyed name as something else. -/
def QueryStep.Intact : QueryStep ι → Prop
  | link _ readAs => readAs = .itself
  | _ => True

instance : DecidablePred (QueryStep.Intact (ι := ι))
  | .link _ readAs => inferInstanceAs (Decidable (readAs = .itself))
  | .reset _ => isTrue trivial
  | .readStatus _ => isTrue trivial

/-- The sensor shared by the queries, their positions, and the history of links. -/
structure QueryState (ι : Type) where
  sensor : LinkState
  pc : ι → QueryPc
  /-- History: the provider instances linked since the last reset. -/
  linked : List Instance

/-- Run one step, if the query is at it. -/
def next (provider : List Instance) (state : QueryState ι) :
    QueryStep ι → Option (QueryState ι)
  | .reset query =>
      match state.pc query with
      | .idle | .read _ =>
          some {
            sensor := { state.sensor with target := state.sensor.target.initDefaultFieldsValue }
            pc := Function.update state.pc query (.linking 0)
            linked := [] }
      | _ => none
  | .link query readAs =>
      match state.pc query with
      | .linking position =>
          match provider[position]? with
          | some supplementing =>
              match Sensors.linkStatusReading (fun name => some (readAs.text name)) supplementing
                state.sensor with
              | .ok _ sensor =>
                  some {
                    sensor := sensor
                    pc := Function.update state.pc query (.linking (position + 1))
                    linked := state.linked ++ [supplementing] }
              | .error failure sensor =>
                  some {
                    sensor := sensor
                    pc := Function.update state.pc query (.failed failure)
                    linked := state.linked }
          | none => none
      | _ => none
  | .readStatus query =>
      match state.pc query with
      | .linking position =>
          if position = provider.length then
            some { state with
              pc := Function.update state.pc query (.read
                (Instance.getField state.sensor.notAvailable state.sensor.target
                  status.fieldStatus)) }
          else none
      | _ => none

/-- Interleaved queries of one sensor over a fixed list of provider instances. -/
def machine (ι : Type) [DecidableEq ι] (provider : List Instance) (sensor : LinkState) :
    Machine (QueryState ι) (QueryStep ι) :=
  Machine.ofNext (fun state => state = ⟨sensor, fun _ => .idle, []⟩) (next provider)

/-- Every provider instance has a known status. -/
def KnownStatuses (provider : List Instance) : Prop :=
  ∀ supplementing ∈ provider, ∃ severity, Status.reported supplementing = some severity

/-- A sensor instance as the query builds it. -/
structure IsSensor (path : String) (sensor : LinkState) : Prop where
  query : sensor.target.dbusQuery = Sensors.query
  path : sensor.target.memberInstances.find? metaObjectPath = some (.string path)
  shared : sensor.notAvailable = .notAvailable

/-- What was read names at least a severity. -/
def AtLeast (severity : Severity) (status : FieldType) : Prop :=
  ∃ text named, status = .string text ∧ Severity.ofStatus? text = some named ∧ severity ≤ named

/-- Every query that has read a status read at least a severity. -/
def NeverUnderReports (severity : Severity) (state : QueryState ι) : Prop :=
  ∀ query status, state.pc query = .read status → AtLeast severity status

theorem atLeast_name_iff {severity current : Severity} :
    AtLeast severity (.string current.name) ↔ severity ≤ current := by
  constructor
  · rintro ⟨text, named, htext, hnamed, hle⟩
    cases htext
    rw [Severity.ofStatus?_name] at hnamed
    cases hnamed
    exact hle
  · exact fun hle => ⟨current.name, current, rfl, Severity.ofStatus?_name current, hle⟩

theorem initDefault_sensor {inst : Instance} (hquery : inst.dbusQuery = Sensors.query) :
    inst.initDefaultFieldsValue =
      inst.supplementOrUpdate status.fieldStatus (.string Severity.ok.name) := by
  apply Instance.initDefaultFieldsValue_single
  rw [hquery]
  decide

theorem metaObjectPath_ne_fieldStatus : metaObjectPath ≠ status.fieldStatus := by decide

/-- A reset sensor is OK. -/
theorem IsSensor.reset {path : String} {sensor : LinkState} (hsensor : IsSensor path sensor) :
    IsSensor path { sensor with target := sensor.target.initDefaultFieldsValue } ∧
      sensor.target.initDefaultFieldsValue.memberInstances.find? status.fieldStatus =
        some (.string Severity.ok.name) := by
  rw [initDefault_sensor hsensor.query]
  refine ⟨⟨?_, ?_, hsensor.shared⟩, ?_⟩
  · simp [hsensor.query]
  · simp [hsensor.path, metaObjectPath_ne_fieldStatus]
  · simp

/-- The rule keeps the sensor a sensor. An instance on its path leaves it with what the
name of the maximum is read as, any other one as it was. -/
theorem linkStatusReading_known {path : String} {link : LinkState} {supplementing : Instance}
    {current severity : Severity} (hsensor : IsSensor path link)
    (hcurrent : link.target.memberInstances.find? status.fieldStatus =
      some (.string current.name))
    (hreported : Status.reported supplementing = some severity) (readAs : ReadAs) :
    ∃ after, Sensors.linkStatusReading (fun name => some (readAs.text name)) supplementing link =
        .ok ⟨⟩ after ∧ IsSensor path after ∧
      after.target.memberInstances.find? status.fieldStatus = some (.string
        (if Status.Blames path supplementing then readAs.text ⟨(max current severity).name⟩
          else current.name)) := by
  have hpathField : Instance.getField link.notAvailable link.target metaObjectPath =
      .string path := by simp [Instance.getField, hsensor.path]
  have hstatusField : Instance.getField link.notAvailable link.target status.fieldStatus =
      .string current.name := by simp [Instance.getField, hcurrent]
  by_cases hblames : Status.Blames path supplementing
  · obtain ⟨candidate, hcandidate, hseverity⟩ := Status.reported_eq_some_iff.mp hreported
    have hconcerns : Sensors.Concerns supplementing link candidate current.name := by
      refine ⟨path, Sensors.readStatuses_eq_ok_iff.mpr ⟨hpathField, ?_, ?_, hstatusField⟩⟩
      · rw [hsensor.shared]
        exact hblames
      · rw [hsensor.shared]
        exact hcandidate
    have hhas : link.target.hasField status.fieldStatus = true := by
      simp [Instance.hasField, hcurrent]
    rw [Sensors.linkStatusReading_of_concerns _ hconcerns,
      Status.getHigherStatus_known (Severity.ofStatus?_name current) hseverity]
    refine ⟨_, rfl, ⟨?_, ?_, ?_⟩, ?_⟩
    · simp [LinkState.setField, hhas, hsensor.query]
    · simp [LinkState.setField, hhas, hsensor.path, metaObjectPath_ne_fieldStatus]
    · simp [LinkState.setField, hhas, hsensor.shared]
    · simp [LinkState.setField, hhas, hblames]
  · refine ⟨link, Sensors.linkStatusReading_of_not_concerns _ ?_, hsensor, ?_⟩
    · rintro candidate status ⟨named, hread⟩
      obtain ⟨hnamed, hcauser, -, -⟩ := Sensors.readStatuses_eq_ok_iff.mp hread
      rw [hpathField] at hnamed
      cases hnamed
      rw [hsensor.shared] at hcauser
      exact hblames hcauser
    · rw [if_neg hblames, hcurrent]

/-- Before the first reset nothing is known about the status; afterwards it is the
maximum over the links since the last reset. -/
structure Tracked (provider : List Instance) (path : String) (state : QueryState ι) : Prop where
  sensor : IsSensor path state.sensor
  linked : state.linked ⊆ provider
  status : (∃ query position, state.pc query = .linking position) →
    state.sensor.target.memberInstances.find? status.fieldStatus =
      some (.string (Status.highest state.linked path).name)

/-- The history holds an instance that reports the highest severity of the
provider, if any severity above OK is reported at all. -/
def Raised (provider : List Instance) (path : String) (state : QueryState ι) : Prop :=
  Status.highest provider path = .ok ∨
    ∃ supplementing ∈ state.linked, Status.Blames path supplementing ∧
      Status.reported supplementing = some (Status.highest provider path)

omit [DecidableEq ι] in
theorem raised_iff {provider : List Instance} {path : String} {state : QueryState ι}
    (hlinked : state.linked ⊆ provider) :
    Raised provider path state ↔
      Status.highest state.linked path = Status.highest provider path := by
  have hmono := Status.highest_mono hlinked path
  have hgreatest := Status.isGreatest_highest state.linked path
  rw [Raised, ← Status.mem_reports_iff]
  constructor
  · rintro (hok | hmem)
    · exact le_antisymm hmono (hok ▸ Severity.ok_le _)
    · exact le_antisymm hmono (hgreatest.2 (.inr hmem))
  · intro heq
    rw [← heq]
    exact hgreatest.1

/-- Every step of a query: a reset, a link that stays within the provider, a link
that fails, or a read of the current status after the last link. -/
theorem next_cases {provider : List Instance} {state after : QueryState ι}
    {label : QueryStep ι} (hnext : next provider state label = some after) :
    (∃ query, label = .reset query ∧ after =
      { sensor := { state.sensor with target := state.sensor.target.initDefaultFieldsValue }
        pc := Function.update state.pc query (.linking 0)
        linked := [] }) ∨
    (∃ query readAs position supplementing sensor, label = .link query readAs ∧
      state.pc query = .linking position ∧ supplementing ∈ provider ∧
      Sensors.linkStatusReading (fun name => some (readAs.text name)) supplementing
        state.sensor = .ok ⟨⟩ sensor ∧ after =
      { sensor := sensor
        pc := Function.update state.pc query (.linking (position + 1))
        linked := state.linked ++ [supplementing] }) ∨
    (∃ query readAs position supplementing failure sensor, label = .link query readAs ∧
      state.pc query = .linking position ∧ supplementing ∈ provider ∧
      Sensors.linkStatusReading (fun name => some (readAs.text name)) supplementing
        state.sensor = .error failure sensor) ∨
    (∃ query position, label = .readStatus query ∧ state.pc query = .linking position ∧ after =
      { state with
        pc := Function.update state.pc query (.read
          (Instance.getField state.sensor.notAvailable state.sensor.target
            status.fieldStatus)) }) := by
  cases label with
  | reset query =>
      simp only [next] at hnext
      split at hnext
      · exact .inl ⟨query, rfl, (Option.some.inj hnext).symm⟩
      · exact .inl ⟨query, rfl, (Option.some.inj hnext).symm⟩
      · cases hnext
  | link query readAs =>
      simp only [next] at hnext
      split at hnext
      · next position hpc =>
        split at hnext
        · next supplementing hget =>
          have hmem := List.mem_of_getElem? hget
          split at hnext
          · next sensor hlink =>
            exact .inr (.inl ⟨query, readAs, position, supplementing, sensor, rfl, hpc, hmem,
              hlink, (Option.some.inj hnext).symm⟩)
          · next failure sensor hlink =>
            exact .inr (.inr (.inl ⟨query, readAs, position, supplementing, failure, sensor, rfl,
              hpc, hmem, hlink⟩))
        · cases hnext
      · cases hnext
  | readStatus query =>
      simp only [next] at hnext
      split at hnext
      · next position hpc =>
        split at hnext
        · exact .inr (.inr (.inr ⟨query, position, rfl, hpc, (Option.some.inj hnext).symm⟩))
        · cases hnext
      · cases hnext

section Steps

variable {provider : List Instance} {path : String} (hknown : KnownStatuses provider)

/-- The step writes the name that was meant, or none at all. -/
def Harmless (provider : List Instance) (path : String) (label : QueryStep ι) : Prop :=
  label.Intact ∨ ∀ supplementing ∈ provider, ¬ Status.Blames path supplementing

include hknown

/-- While a query is between its reset and its read, a harmless link cannot fail and
extends the history. -/
theorem Tracked.link {state : QueryState ι} (htracked : Tracked provider path state)
    {query : ι} {position : ℕ} (hpc : state.pc query = .linking position) {readAs : ReadAs}
    (hharmless : Harmless provider path (.link query readAs))
    {supplementing : Instance} (hmem : supplementing ∈ provider) :
    ∃ sensor, Sensors.linkStatusReading (fun name => some (readAs.text name)) supplementing
        state.sensor = .ok ⟨⟩ sensor ∧
      Tracked provider path
        { sensor := sensor
          pc := Function.update state.pc query (.linking (position + 1))
          linked := state.linked ++ [supplementing] } := by
  have hcurrent := htracked.status ⟨query, position, hpc⟩
  obtain ⟨severity, hreported⟩ := hknown supplementing hmem
  obtain ⟨sensor, hlink, hsensor, hstatus⟩ :=
    linkStatusReading_known htracked.sensor hcurrent hreported readAs
  refine ⟨sensor, hlink, hsensor, ?_, fun _ => ?_⟩
  · exact List.append_subset.mpr ⟨htracked.linked, fun other hother => List.mem_singleton.mp hother ▸ hmem⟩
  · rw [hstatus, Status.highest_append hreported]
    split_ifs with hblames
    · obtain rfl : readAs = .itself :=
        hharmless.resolve_right fun hnone => hnone supplementing hmem hblames
      rfl
    · rfl

theorem tracked_next {state after : QueryState ι} {label : QueryStep ι}
    (htracked : Tracked provider path state) (hharmless : Harmless provider path label)
    (hnext : next provider state label = some after) : Tracked provider path after := by
  rcases next_cases hnext with
    ⟨query, rfl, rfl⟩ | ⟨query, readAs, position, supplementing, sensor, rfl, hpc, hmem, hlink, rfl⟩ |
    ⟨query, readAs, position, supplementing, failure, sensor, rfl, hpc, hmem, hlink⟩ |
    ⟨query, position, rfl, hpc, rfl⟩
  · obtain ⟨hsensor, hstatus⟩ := htracked.sensor.reset
    exact ⟨hsensor, List.nil_subset _, fun _ => hstatus⟩
  · obtain ⟨linkedSensor, hlinked, hafter⟩ := htracked.link hknown hpc hharmless hmem
    rw [hlink] at hlinked
    cases hlinked
    exact hafter
  · obtain ⟨linkedSensor, hlinked, -⟩ := htracked.link hknown hpc hharmless hmem
    rw [hlink] at hlinked
    cases hlinked
  · exact ⟨htracked.sensor, htracked.linked, fun _ => htracked.status ⟨query, position, hpc⟩⟩

omit hknown [DecidableEq ι] in
/-- What a read returns: the highest severity of the history. -/
theorem read_eq_highest {state : QueryState ι} (htracked : Tracked provider path state)
    {query : ι} {position : ℕ} (hpc : state.pc query = .linking position) :
    Instance.getField state.sensor.notAvailable state.sensor.target status.fieldStatus =
      .string (Status.highest state.linked path).name := by
  simp [Instance.getField, htracked.status ⟨query, position, hpc⟩]

/-- A step reads the highest severity if what it reads has been raised. -/
theorem neverUnderReports_next {state after : QueryState ι} {label : QueryStep ι}
    (htracked : Tracked provider path state)
    (hnever : NeverUnderReports (Status.highest provider path) state)
    (hharmless : Harmless provider path label)
    (hraised : (∃ query, label = .readStatus query) → Raised provider path state)
    (hstep : next provider state label = some after) :
    NeverUnderReports (Status.highest provider path) after := by
  intro reader status hread
  rcases next_cases hstep with
    ⟨query, rfl, rfl⟩ |
    ⟨query, readAs, position, supplementing, after, rfl, hpc, hmem, hlink, rfl⟩ |
    ⟨query, readAs, position, supplementing, failure, after, rfl, hpc, hmem, hlink⟩ |
    ⟨query, position, rfl, hpc, rfl⟩
  · by_cases hreader : reader = query
    · simp [hreader] at hread
    · exact hnever reader status (by simpa [Function.update_of_ne hreader] using hread)
  · by_cases hreader : reader = query
    · simp [hreader] at hread
    · exact hnever reader status (by simpa [Function.update_of_ne hreader] using hread)
  · obtain ⟨linkedSensor, hlinked, -⟩ := htracked.link hknown hpc hharmless hmem
    rw [hlink] at hlinked
    cases hlinked
  · by_cases hreader : reader = query
    · have hhighest := (raised_iff htracked.linked).mp (hraised ⟨query, rfl⟩)
      simp only [hreader, Function.update_self, read_eq_highest htracked hpc, hhighest] at hread
      cases hread
      exact atLeast_name_iff.mpr le_rfl
    · exact hnever reader status (by simpa [Function.update_of_ne hreader] using hread)

omit hknown in
/-- A read of what has not been raised under-reports. -/
theorem not_neverUnderReports_of_not_raised {state after : QueryState ι} {query : ι}
    (htracked : Tracked provider path state)
    (hstep : next provider state (.readStatus query) = some after)
    (hraised : ¬ Raised provider path state) :
    ¬ NeverUnderReports (Status.highest provider path) after := by
  intro hnever
  rcases next_cases hstep with
    ⟨_, hlabel, _⟩ | ⟨_, _, _, _, _, hlabel, _⟩ | ⟨_, _, _, _, _, _, hlabel, _⟩ |
    ⟨reader, position, hlabel, hpc, rfl⟩
  · cases hlabel
  · cases hlabel
  · cases hlabel
  · have hle := hnever reader _ (Function.update_self _ _ _)
    rw [read_eq_highest htracked hpc, atLeast_name_iff] at hle
    exact hraised ((raised_iff htracked.linked).mpr
      (le_antisymm (Status.highest_mono htracked.linked path) hle))

omit hknown [DecidableEq ι] in
theorem tracked_start {sensor : LinkState} (hsensor : IsSensor path sensor) :
    Tracked provider path (⟨sensor, fun _ => .idle, []⟩ : QueryState ι) := by
  refine ⟨hsensor, List.nil_subset _, ?_⟩
  rintro ⟨query, position, hpc⟩
  cases hpc

/-- The history is tracked along runs of harmless steps. -/
theorem tracked_reachable {sensor : LinkState} (hsensor : IsSensor path sensor)
    {allowed : QueryState ι → QueryStep ι → Prop}
    (hallowed : ∀ state label, allowed state label → Harmless provider path label)
    {state : QueryState ι}
    (hreach : ((machine ι provider sensor).restrict allowed).Reachable state) :
    Tracked provider path state := by
  have hinvariant : ((machine ι provider sensor).restrict allowed).Invariant
      (Tracked provider path) := by
    constructor
    · rintro state rfl
      exact tracked_start hsensor
    · rintro state label after htracked ⟨hlabel, hstep⟩
      exact tracked_next hknown htracked (hallowed state label hlabel) hstep
  exact hinvariant.of_reachable hreach

/-- In runs of harmless steps in which each read is of what has been raised, no query
under-reports. -/
theorem neverUnderReports_of_raised {sensor : LinkState} (hsensor : IsSensor path sensor)
    {allowed : QueryState ι → QueryStep ι → Prop}
    (hallowed : ∀ state label, allowed state label → Harmless provider path label)
    (hraises : ∀ state query, allowed state (.readStatus query) → Raised provider path state)
    {state : QueryState ι}
    (hreach : ((machine ι provider sensor).restrict allowed).Reachable state) :
    NeverUnderReports (Status.highest provider path) state := by
  suffices hinvariant : ((machine ι provider sensor).restrict allowed).Invariant fun state =>
      Tracked provider path state ∧ NeverUnderReports (Status.highest provider path) state from
    (hinvariant.of_reachable hreach).2
  constructor
  · rintro state rfl
    exact ⟨tracked_start hsensor, fun query status hpc => by cases hpc⟩
  · rintro state label after ⟨htracked, hnever⟩ ⟨hlabel, hstep⟩
    have hharmless := hallowed state label hlabel
    refine ⟨tracked_next hknown htracked hharmless hstep,
      neverUnderReports_next hknown htracked hnever hharmless ?_ hstep⟩
    rintro ⟨query, rfl⟩
    exact hraises state query hlabel

end Steps

section Garbage

variable {provider : List Instance} {path : String} {sensor : LinkState}

/-- A query that stands before the rest of the provider may link the first of it. -/
theorem reachable_link {state : QueryState ι} {query : ι} {done rest : List Instance}
    {first : Instance} (hprovider : provider = done ++ first :: rest)
    (hreach : (machine ι provider sensor).Reachable state)
    (hpc : state.pc query = .linking done.length) {readAs : ReadAs} {linked : LinkState}
    (hlink : Sensors.linkStatusReading (fun name => some (readAs.text name)) first state.sensor =
      .ok ⟨⟩ linked) :
    ∃ after, (machine ι provider sensor).Reachable after ∧
      after.pc query = .linking (done ++ [first]).length ∧ after.sensor = linked := by
  have hget : provider[done.length]? = some first := by simp [hprovider]
  have hnext : next provider state (.link query readAs) = some
      { sensor := linked
        pc := Function.update state.pc query (.linking (done.length + 1))
        linked := state.linked ++ [first] } := by
    simp only [next, hpc, hget, hlink]
  exact ⟨_, hreach.next hnext, by simp, rfl⟩

/-- Instances that report on other paths leave the sensor as it is. -/
theorem reachable_quiet {query : ι} {rest : List Instance}
    (hquiet : ∀ supplementing ∈ rest, ¬ Status.Blames path supplementing) :
    ∀ {done : List Instance} {state : QueryState ι}, provider = done ++ rest →
      (machine ι provider sensor).Reachable state → state.pc query = .linking done.length →
      IsSensor path state.sensor →
      ∃ after, (machine ι provider sensor).Reachable after ∧
        after.pc query = .linking provider.length ∧ after.sensor = state.sensor := by
  induction rest with
  | nil =>
      intro done state hprovider hreach hpc _
      rw [List.append_nil] at hprovider
      exact ⟨state, hreach, hprovider ▸ hpc, rfl⟩
  | cons first rest ih =>
      intro done state hprovider hreach hpc hsensor
      have hlink : Sensors.linkStatusReading (fun name => some (ReadAs.itself.text name)) first
          state.sensor = .ok ⟨⟩ state.sensor := by
        apply Sensors.linkStatusReading_of_not_concerns
        rintro candidate current ⟨named, hread⟩
        obtain ⟨hnamed, hcauser, -, -⟩ := Sensors.readStatuses_eq_ok_iff.mp hread
        rw [Instance.getField, hsensor.path] at hnamed
        cases hnamed
        rw [hsensor.shared] at hcauser
        exact hquiet first List.mem_cons_self hcauser
      obtain ⟨middle, hmiddle, hpc, hsame⟩ := reachable_link hprovider hreach hpc hlink
      rw [List.append_cons] at hprovider
      obtain ⟨after, hafter, hpc, hsensor⟩ := ih (fun later hlater =>
        hquiet later (List.mem_cons_of_mem _ hlater)) hprovider hmiddle hpc (hsame ▸ hsensor)
      exact ⟨after, hafter, hpc, hsensor.trans hsame⟩

/-- When some instance reports on the sensor, the last one to do so can leave it without a
status. -/
theorem reachable_garbage (hknown : KnownStatuses provider) {query : ι} {rest : List Instance}
    (hblames : ∃ supplementing ∈ rest, Status.Blames path supplementing) :
    ∀ {done : List Instance} {state : QueryState ι}, provider = done ++ rest →
      (machine ι provider sensor).Reachable state → state.pc query = .linking done.length →
      IsSensor path state.sensor →
      state.sensor.target.memberInstances.find? status.fieldStatus =
        some (.string Severity.ok.name) →
      ∃ after, (machine ι provider sensor).Reachable after ∧
        after.pc query = .linking provider.length ∧
        after.sensor.target.memberInstances.find? status.fieldStatus = some (.string "") := by
  induction rest with
  | nil =>
      obtain ⟨supplementing, hmem, -⟩ := hblames
      cases hmem
  | cons first rest ih =>
      intro done state hprovider hreach hpc hsensor hstatus
      have hmem : first ∈ provider := by simp [hprovider]
      obtain ⟨severity, hreported⟩ := hknown first hmem
      have hstep := linkStatusReading_known hsensor hstatus hreported
      by_cases hlater : ∃ supplementing ∈ rest, Status.Blames path supplementing
      · -- so far the sensor keeps OK
        obtain ⟨linked, hlink, hlinked, hheld⟩ := hstep (.other Severity.ok.name)
        rw [ReadAs.text, ite_self] at hheld
        obtain ⟨middle, hmiddle, hpc, hsame⟩ := reachable_link hprovider hreach hpc hlink
        rw [List.append_cons] at hprovider
        exact ih hlater hprovider hmiddle hpc (hsame ▸ hlinked) (hsame ▸ hheld)
      · have hfirst : Status.Blames path first := by
          obtain ⟨supplementing, hmem, hown⟩ := hblames
          rcases List.mem_cons.mp hmem with rfl | hmem
          · exact hown
          · exact absurd ⟨supplementing, hmem, hown⟩ hlater
        obtain ⟨linked, hlink, hlinked, hheld⟩ := hstep (.other "")
        rw [ReadAs.text, if_pos hfirst] at hheld
        obtain ⟨middle, hmiddle, hpc, hsame⟩ := reachable_link hprovider hreach hpc hlink
        rw [List.append_cons] at hprovider
        obtain ⟨after, hafter, hpc, hkept⟩ := reachable_quiet
          (fun supplementing hmem hown => hlater ⟨supplementing, hmem, hown⟩) hprovider hmiddle hpc
          (hsame ▸ hlinked)
        exact ⟨after, hafter, hpc, by rw [hkept, hsame, hheld]⟩

/-- One instance that reports on the sensor is enough for a query to read no status. -/
theorem not_neverUnderReports_of_blames [Nonempty ι] (hsensor : IsSensor path sensor)
    (hknown : KnownStatuses provider)
    (hblames : ∃ supplementing ∈ provider, Status.Blames path supplementing)
    (severity : Severity) :
    ∃ state : QueryState ι, (machine ι provider sensor).Reachable state ∧
      ¬ NeverUnderReports severity state := by
  obtain ⟨query⟩ := ‹Nonempty ι›
  have hstart : (machine ι provider sensor).Reachable ⟨sensor, fun _ => .idle, []⟩ := .start rfl
  have hreset := hstart.next (show next provider _ (.reset query) = some _ from rfl)
  obtain ⟨hafter, hstatus⟩ := hsensor.reset
  obtain ⟨state, hreach, hpc, hgarbage⟩ := reachable_garbage hknown hblames
    (List.nil_append provider).symm hreset (Function.update_self query _ _) hafter hstatus
  have hread : next provider state (.readStatus query) = some { state with
      pc := Function.update state.pc query (.read
        (Instance.getField state.sensor.notAvailable state.sensor.target status.fieldStatus)) } := by
    simp only [next, hpc, if_pos]
  refine ⟨_, hreach.next hread, fun hnever => ?_⟩
  obtain ⟨text, named, htext, hnamed, -⟩ := hnever query _ (Function.update_self _ _ _)
  rw [Instance.getField, hgarbage] at htext
  cases htext
  have hunknown : Severity.ofStatus? "" = none := by decide
  cases hunknown.symm.trans hnamed

end Garbage

/-- No query under-reports in any run exactly when no instance of the provider concerns the
sensor. Where every destroyed name still reads as it was, no query does if each read is
preceded, since the last reset of any query, by the link of an instance of the highest
severity, and a read that is not preceded by one does under-report. -/
theorem neverUnderReports_iff [Nonempty ι] (provider : List Instance) (sensor : LinkState)
    (path : String) (hsensor : IsSensor path sensor) (hknown : KnownStatuses provider) :
    ((∀ state : QueryState ι, (machine ι provider sensor).Reachable state →
        NeverUnderReports (Status.highest provider path) state) ↔
      ∀ supplementing ∈ provider, ¬ Status.Blames path supplementing) ∧
    (∀ state : QueryState ι,
      ((machine ι provider sensor).restrict fun state label => label.Intact ∧
        ((∃ query, label = .readStatus query) → Raised provider path state)).Reachable state →
      NeverUnderReports (Status.highest provider path) state) ∧
    (∀ (state after : QueryState ι) (query : ι),
      ((machine ι provider sensor).restrict fun _ label => label.Intact).Reachable state →
      (machine ι provider sensor).step state (.readStatus query) after →
      ¬ Raised provider path state →
      ¬ NeverUnderReports (Status.highest provider path) after) := by
  refine ⟨⟨?_, ?_⟩, ?_, ?_⟩
  · intro hnever supplementing hmem hblames
    obtain ⟨state, hreach, hunder⟩ := not_neverUnderReports_of_blames (ι := ι) hsensor hknown
      ⟨supplementing, hmem, hblames⟩ (Status.highest provider path)
    exact hunder (hnever state hreach)
  · intro hnone state hreach
    have hall : ((machine ι provider sensor).restrict fun _ _ => True).Reachable state := by
      have hsame : (machine ι provider sensor).restrict (fun _ _ => True) =
          machine ι provider sensor := by
        simp [Machine.restrict]
      rwa [hsame]
    exact neverUnderReports_of_raised hknown hsensor (fun _ _ _ => .inr hnone)
      (fun _ _ _ => .inl (Status.highest_eq_ok hnone)) hall
  · intro state hreach
    exact neverUnderReports_of_raised hknown hsensor (fun _ _ hlabel => .inl hlabel.1)
      (fun _ query hlabel => hlabel.2 ⟨query, rfl⟩) hreach
  · intro state after query hreach hstep hraised
    exact not_neverUnderReports_of_not_raised
      (tracked_reachable hknown hsensor (fun _ _ hlabel => .inl hlabel) hreach) hstep hraised

/-- A sensor at the path `/s`. -/
def sampleSensor : LinkState where
  target := Instance.create "svc" "/s" Sensors.query
  notAvailable := FieldType.notAvailable

/-- One critical association of an object. -/
def sampleProvider (causer : String) : List Instance :=
  [((Instance.create "svc" "/s" Status.query).supplementOrUpdate status.fieldObjectCauthPath
    (.string causer)).supplementOrUpdate status.fieldStatus (.string Status.statusCritical)]

theorem sampleSensor_isSensor : IsSensor "/s" sampleSensor := ⟨rfl, by decide, rfl⟩

theorem sampleProvider_known (causer : String) : KnownStatuses (sampleProvider causer) := by
  intro supplementing hmem
  rw [List.mem_singleton.mp hmem]
  refine ⟨.critical, Status.reported_eq_some_iff.mpr ⟨Status.statusCritical, ?_, by decide⟩⟩
  simp [Instance.getField]

/-- Two overlapping queries. -/
def overlappingSteps : List (QueryStep Bool) :=
  [.reset false, .link false .itself, .reset true, .readStatus false]

/-- A critical association of another object leaves what overlapping queries read. -/
theorem neverUnderReports_iff_sample :
    ∃ state : QueryState Bool,
      (machine Bool (sampleProvider "/t") sampleSensor).Reachable state ∧
      state.pc false = .read (.string Severity.ok.name) ∧
      NeverUnderReports (Status.highest (sampleProvider "/t") "/s") state := by
  have hnone : ∀ supplementing ∈ sampleProvider "/t", ¬ Status.Blames "/s" supplementing := by
    decide
  have hpc : (overlappingSteps.foldlM (next (sampleProvider "/t"))
      ⟨sampleSensor, fun _ => .idle, []⟩).map (fun state => state.pc false) =
        some (.read (.string Severity.ok.name)) := by decide
  obtain ⟨state, hrun, hread⟩ := Option.map_eq_some_iff.mp hpc
  have hreach : (machine Bool (sampleProvider "/t") sampleSensor).Reachable state :=
    Machine.Reachable.of_foldlM rfl hrun
  exact ⟨state, hreach, hread, (neverUnderReports_iff (sampleProvider "/t") sampleSensor "/s"
    sampleSensor_isSensor (sampleProvider_known "/t")).1.mpr hnone state hreach⟩

/-- A second query resets the sensor after the first has linked the critical
association and before it reads; the name of the severity reads as it was. -/
theorem underReports_overlapping :
    ¬ ∀ (provider : List Instance) (sensor : LinkState) (path : String),
      IsSensor path sensor → KnownStatuses provider →
      ∀ state : QueryState Bool,
        ((machine Bool provider sensor).restrict fun _ label => label.Intact).Reachable state →
        NeverUnderReports (Status.highest provider path) state := by
  intro hclaim
  have hpc : (overlappingSteps.foldlM
      (Machine.guarded (fun _ label => label.Intact) (next (sampleProvider "/s")))
      ⟨sampleSensor, fun _ => .idle, []⟩).map (fun state => state.pc false) =
        some (.read (.string Severity.ok.name)) := by decide
  obtain ⟨state, hrun, hread⟩ := Option.map_eq_some_iff.mp hpc
  have hreach : ((machine Bool (sampleProvider "/s") sampleSensor).restrict
      fun _ label => label.Intact).Reachable state := by
    rw [machine, Machine.restrict_ofNext]
    exact Machine.Reachable.of_foldlM rfl hrun
  have hnever := hclaim _ _ "/s" sampleSensor_isSensor (sampleProvider_known "/s") state hreach
    false _ hread
  have hhighest : Status.highest (sampleProvider "/s") "/s" = .critical := by decide
  rw [atLeast_name_iff, hhighest] at hnever
  exact absurd hnever (by decide)

end ConcurrentQueries

end ObmcWebapp.Entities
