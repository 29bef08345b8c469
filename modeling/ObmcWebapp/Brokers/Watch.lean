/-
# Watching an object

A refresh with a watch reads an object with one `GetAll` call for each of its
interfaces, then registers a match for each interface of the query, and then
publishes the instance. From its registration on, a match is given the
`PropertiesChanged` signals of its interface in the order they were sent, and fills
the instance with the values they list as changed. The names they list as
invalidated are not read.

The service may change its properties between any two of these steps. What it
changes after the `GetAll` and before the registration, and what it only
invalidates, never gets to the cache; every other change does.

A formatter that throws ends the process, so the steps here are those that fill the
instance.
-/

import ObmcWebapp.Entities.Sensors
import ObmcWebapp.Library.Execution

namespace ObmcWebapp.Brokers

open ObmcWebapp.Core ObmcWebapp.Entities definitions

namespace Watch

variable [StdHash]

/-- A `PropertiesChanged` signal. -/
structure Signal where
  interface : InterfaceName
  changed : DBusPropertiesMap
  invalidated : List PropertyName

structure WatchState where
  /-- The properties of the object at the service. -/
  object : InterfaceName → DBusPropertiesMap
  inst : DBusInstance
  /-- The interfaces that are still to be read. -/
  toQuery : List InterfaceName
  /-- The interfaces a match is still to be registered for. -/
  toBind : List InterfaceName
  listeners : List InterfaceName
  published : Bool
  /-- The signals sent to the matches and not delivered yet, oldest first. -/
  inFlight : List Signal

inductive WatchStep
  /-- The service gives an interface new properties and lists the changed ones, with
  their values unless they are to be listed as invalidated. -/
  | change (interface : InterfaceName) (current : DBusPropertiesMap)
      (invalidated : List PropertyName)
  | getAll
  | bindListener
  | setInstances
  | deliver

/-- The properties listed with their values. -/
def listedChanges (old current : DBusPropertiesMap) (invalidated : List PropertyName) :
    DBusPropertiesMap :=
  current.filter fun property value =>
    decide (property ∉ invalidated) && decide (old.find? property ≠ some value)

def next (state : WatchState) : WatchStep → Option WatchState
  | .change interface current invalidated =>
      some { state with
        object := Function.update state.object interface current
        inFlight :=
          if interface ∈ state.listeners then
            state.inFlight ++
              [⟨interface, listedChanges (state.object interface) current invalidated,
                invalidated⟩]
          else state.inFlight }
  | .getAll =>
      match state.toQuery with
      | [] => none
      | interface :: rest =>
          match DBusInstance.fillMembers interface (state.object interface) state.inst with
          | .ok _ inst => some { state with inst := inst, toQuery := rest }
          | .error _ _ => none
  | .bindListener =>
      match state.toQuery, state.toBind with
      | [], interface :: rest =>
          some { state with toBind := rest, listeners := state.listeners ++ [interface] }
      | _, _ => none
  | .setInstances =>
      if state.toQuery = [] ∧ state.toBind = [] then some { state with published := true }
      else none
  | .deliver =>
      match state.inFlight with
      | [] => none
      | signal :: rest =>
          match DBusInstance.fillMembers signal.interface signal.changed state.inst with
          | .ok _ inst => some { state with inst := inst, inFlight := rest }
          | .error _ _ => none

/-- The refresh of one object of a service that offers the listed interfaces. -/
def machine (query : DBusQuery) (service : ServiceName) (path : ObjectPath)
    (interfaces : List InterfaceName) : Machine WatchState WatchStep :=
  Machine.ofNext (fun state => ∃ object, state =
    { object := object
      inst := DBusInstance.create service path query
      toQuery := interfaces
      toBind := query.searchPropertiesMap.keys
      listeners := []
      published := false
      inFlight := [] }) next

/-- A property that alone is kept under a member. -/
structure Watched (query : DBusQuery) (interface : InterfaceName) (property : PropertyName)
    (member : MemberName) : Prop where
  mapped : (query.getPropertyMemberDict interface).find? property = some member
  only : ∀ other named, (query.getPropertyMemberDict other).find? named = some member →
    other = interface ∧ named = property

/-- The member holds the formatted value the property has at the service. -/
def Cached (query : DBusQuery) (interface : InterfaceName) (property : PropertyName)
    (member : MemberName) (state : WatchState) : Prop :=
  ∀ value formatted, (state.object interface).find? property = some value →
    query.processFormatters property value = .ok (.scalar formatted) →
    state.inst.memberInstances.find? member = some formatted

/-- A published instance is exact when no signal is in flight. -/
def Coherent (query : DBusQuery) (interface : InterfaceName) (property : PropertyName)
    (member : MemberName) (state : WatchState) : Prop :=
  state.published = true → state.inFlight = [] → Cached query interface property member state

/-- The service changes the property only before it is read, or once its match is
registered and listing it as changed. -/
def ChangesListed (interface : InterfaceName) (property : PropertyName) (state : WatchState) :
    WatchStep → Prop
  | .change other current invalidated =>
      other = interface → current.find? property ≠ (state.object interface).find? property →
        interface ∈ state.toQuery ∨ (interface ∈ state.listeners ∧ property ∉ invalidated)
  | _ => True

instance (interface : InterfaceName) (property : PropertyName) (state : WatchState)
    (label : WatchStep) : Decidable (ChangesListed interface property state label) :=
  match label with
  | .change other current invalidated =>
      inferInstanceAs (Decidable (other = interface →
        current.find? property ≠ (state.object interface).find? property →
          interface ∈ state.toQuery ∨ (interface ∈ state.listeners ∧ property ∉ invalidated)))
  | .getAll => .isTrue trivial
  | .bindListener => .isTrue trivial
  | .setInstances => .isTrue trivial
  | .deliver => .isTrue trivial

section Listed

variable (interface : InterfaceName) (property : PropertyName)

/-- The value a signal lists for the property. -/
def listed (signal : Signal) : Option DbusVariant :=
  if signal.interface = interface then signal.changed.find? property else none

/-- The value the last signal that lists the property gives it. -/
def lastListed : List Signal → Option DbusVariant
  | [] => none
  | signal :: rest => (lastListed rest).or (listed interface property signal)

omit [StdHash] in
theorem lastListed_append (signals : List Signal) (signal : Signal) :
    lastListed interface property (signals ++ [signal]) =
      (listed interface property signal).or (lastListed interface property signals) := by
  induction signals with
  | nil => simp [lastListed]
  | cons head rest ih => simp [lastListed, ih, Option.or_assoc]

end Listed

/-- Once its interface was read, the property is exact, or the last signal in flight
that lists it will make it so. -/
structure Tracked (query : DBusQuery) (interface : InterfaceName) (property : PropertyName)
    (member : MemberName) (state : WatchState) : Prop where
  sameQuery : state.inst.dbusQuery = query
  reading : state.toQuery ≠ [] → state.listeners = [] ∧ state.inFlight = []
  pending : interface ∉ state.toQuery →
    ∀ value, lastListed interface property state.inFlight = some value →
      ∀ current, (state.object interface).find? property = some current → current = value
  exact : interface ∉ state.toQuery → lastListed interface property state.inFlight = none →
    Cached query interface property member state

variable {query : DBusQuery} {interface : InterfaceName} {property : PropertyName}
  {member : MemberName} {state after : WatchState}

/-- Filling from properties that do not list the watched one leaves its member. -/
theorem fillMembers_frame (hwatched : Watched query interface property member)
    {other : InterfaceName} {properties : DBusPropertiesMap} {inst filled : DBusInstance}
    (hquery : inst.dbusQuery = query)
    (hfill : DBusInstance.fillMembers other properties inst = .ok ⟨⟩ filled)
    (habsent : other = interface → properties.find? property = none) :
    filled.dbusQuery = query ∧
      filled.memberInstances.find? member = inst.memberInstances.find? member := by
  obtain ⟨hkept, hframe⟩ := DBusInstance.fillEntries_frame hfill
  refine ⟨hkept.trans hquery, hframe member ?_⟩
  rintro ⟨named, target⟩ hentry rfl
  rw [hquery, OrderedMap.mem_entries_iff] at hentry
  obtain ⟨hother, rfl⟩ := hwatched.only other named hentry
  exact habsent hother

/-- Filling from properties that list the watched one sets its member. -/
theorem fillMembers_sets (hwatched : Watched query interface property member)
    {properties : DBusPropertiesMap} {inst filled : DBusInstance}
    (hquery : inst.dbusQuery = query)
    (hfill : DBusInstance.fillMembers interface properties inst = .ok ⟨⟩ filled)
    {value : DbusVariant} {formatted : FieldType} (hvalue : properties.find? property = some value)
    (hformat : query.processFormatters property value = .ok (.scalar formatted)) :
    filled.memberInstances.find? member = some formatted := by
  have hentry : (property, member) ∈
      (inst.dbusQuery.getPropertyMemberDict interface).entries := by
    rw [hquery, OrderedMap.mem_entries_iff]
    exact hwatched.mapped
  refine DBusInstance.fillEntries_sets hfill hentry ?_ hvalue (hquery ▸ hformat)
  rintro ⟨named, target⟩ hnamed rfl
  rw [hquery, OrderedMap.mem_entries_iff] at hnamed
  exact (hwatched.only interface named hnamed).2

omit [StdHash] in
/-- A change of the watched interface lists the property when it differs and is not
invalidated. -/
theorem listed_change (old current : DBusPropertiesMap) (invalidated : List PropertyName) :
    listed interface property
        ⟨interface, listedChanges old current invalidated, invalidated⟩ =
      (current.find? property).filter fun value =>
        decide (property ∉ invalidated) && decide (old.find? property ≠ some value) := by
  simp [listed, listedChanges]

omit [StdHash] in
theorem lastListed_of_unlisted {signals : List Signal} {signal : Signal}
    (hlisted : listed interface property signal = none) :
    lastListed interface property (signals ++ [signal]) = lastListed interface property signals := by
  rw [lastListed_append, hlisted, Option.none_or]

/-- What a change does to the queue of the matches. -/
theorem inFlight_change {other : InterfaceName} {current : DBusPropertiesMap}
    {invalidated : List PropertyName}
    (hstep : next state (.change other current invalidated) = some after) :
    after.object = Function.update state.object other current ∧ after.inst = state.inst ∧
      after.toQuery = state.toQuery ∧ after.listeners = state.listeners ∧
      after.inFlight = if other ∈ state.listeners then state.inFlight ++
        [⟨other, listedChanges (state.object other) current invalidated, invalidated⟩]
      else state.inFlight := by
  cases hstep
  exact ⟨rfl, rfl, rfl, rfl, rfl⟩

/-- Unless the interface is still to be read, a change leaves the property and its last
listed value alone, removes it, or lists its value. -/
theorem change_cases {other : InterfaceName} {current : DBusPropertiesMap}
    {invalidated : List PropertyName}
    (hallowed : ChangesListed interface property state (.change other current invalidated))
    (hstep : next state (.change other current invalidated) = some after) :
    interface ∈ state.toQuery ∨
      ((after.object interface).find? property = (state.object interface).find? property ∧
        lastListed interface property after.inFlight =
          lastListed interface property state.inFlight) ∨
      (after.object interface).find? property = none ∨
      (after.object interface).find? property =
        lastListed interface property after.inFlight := by
  obtain ⟨hobject, -, -, -, hinFlight⟩ := inFlight_change hstep
  by_cases hother : interface = other
  · subst hother
    have hnew : after.object interface = current := by simp [hobject]
    by_cases hsame : current.find? property = (state.object interface).find? property
    · refine .inr (.inl ⟨by rw [hnew, hsame], ?_⟩)
      rw [hinFlight]
      split_ifs with hlistening
      · refine lastListed_of_unlisted ?_
        rw [listed_change, ← hsame]
        cases current.find? property <;> simp
      · rfl
    · rcases hallowed rfl hsame with hquerying | ⟨hlistening, hvalid⟩
      · exact .inl hquerying
      · refine .inr (.inr ?_)
        rw [hnew, hinFlight, if_pos hlistening]
        cases hvalue : current.find? property with
        | none => exact .inl rfl
        | some value =>
            rw [hvalue] at hsame
            have hdiffers : (state.object interface).find? property ≠ some value :=
              Ne.symm hsame
            rw [lastListed_append, listed_change, hvalue]
            simp [hvalid, hdiffers, Option.filter]
  · refine .inr (.inl ⟨by simp [hobject, hother], ?_⟩)
    rw [hinFlight]
    split_ifs with hlistening
    · exact lastListed_of_unlisted (by simp [listed, Ne.symm hother])
    · rfl

theorem tracked_change (htracked : Tracked query interface property member state)
    {other : InterfaceName} {current : DBusPropertiesMap} {invalidated : List PropertyName}
    (hallowed : ChangesListed interface property state (.change other current invalidated))
    (hstep : next state (.change other current invalidated) = some after) :
    Tracked query interface property member after := by
  obtain ⟨hobject, hinst, htoQuery, hlisteners, hinFlight⟩ := inFlight_change hstep
  have hreading : after.toQuery ≠ [] → after.listeners = [] ∧ after.inFlight = [] := by
    intro hquerying
    obtain ⟨hnone, hempty⟩ := htracked.reading (htoQuery ▸ hquerying)
    rw [hlisteners, hinFlight, hnone]
    exact ⟨rfl, by simpa using hempty⟩
  rcases change_cases hallowed hstep with hquerying | ⟨hsame, hlast⟩ | hgone | hlast
  · exact ⟨by rw [hinst]; exact htracked.sameQuery, hreading,
      fun hread => absurd (htoQuery ▸ hquerying) hread,
      fun hread => absurd (htoQuery ▸ hquerying) hread⟩
  · refine ⟨by rw [hinst]; exact htracked.sameQuery, hreading, ?_, ?_⟩
    · rw [htoQuery, hlast, hsame]
      exact htracked.pending
    · intro hread hnone value formatted hvalue hformat
      rw [hinst]
      exact htracked.exact (htoQuery ▸ hread) (hlast ▸ hnone) value formatted (hsame ▸ hvalue) hformat
  · refine ⟨by rw [hinst]; exact htracked.sameQuery, hreading, ?_, ?_⟩
    · intro _ value _ current hcurrent
      rw [hgone] at hcurrent
      cases hcurrent
    · intro _ _ value formatted hvalue
      rw [hgone] at hvalue
      cases hvalue
  · refine ⟨by rw [hinst]; exact htracked.sameQuery, hreading, ?_, ?_⟩
    · intro _ value hvalue current hcurrent
      rw [hlast, hvalue] at hcurrent
      exact (Option.some.inj hcurrent).symm
    · intro _ hnone value formatted hvalue
      rw [hlast, hnone] at hvalue
      cases hvalue

theorem tracked_getAll (hwatched : Watched query interface property member)
    (htracked : Tracked query interface property member state)
    (hstep : next state .getAll = some after) :
    Tracked query interface property member after := by
  simp only [next] at hstep
  cases htoQuery : state.toQuery with
  | nil => simp [htoQuery] at hstep
  | cons other rest =>
      obtain ⟨hlisteners, hempty⟩ := htracked.reading (by simp [htoQuery])
      simp only [htoQuery] at hstep
      cases hfill : DBusInstance.fillMembers other (state.object other) state.inst with
      | error exception filled => rw [hfill] at hstep; cases hstep
      | ok value filled =>
          rw [hfill] at hstep
          cases hstep
          have hkept := (DBusInstance.fillEntries_frame hfill).1
          refine ⟨hkept.trans htracked.sameQuery, fun _ => ⟨hlisteners, hempty⟩, ?_, ?_⟩
          · intro _ value hvalue
            simp [hempty, lastListed] at hvalue
          · intro hread hnone value formatted hvalue hformat
            by_cases hother : interface = other
            · subst hother
              exact fillMembers_sets hwatched htracked.sameQuery hfill hvalue hformat
            · have hframe := fillMembers_frame hwatched htracked.sameQuery hfill
                fun heq => absurd heq.symm hother
              rw [hframe.2]
              refine htracked.exact ?_ hnone value formatted hvalue hformat
              rw [htoQuery]
              exact List.not_mem_cons_of_ne_of_not_mem hother hread

theorem tracked_deliver (hwatched : Watched query interface property member)
    (htracked : Tracked query interface property member state)
    (hstep : next state .deliver = some after) :
    Tracked query interface property member after := by
  simp only [next] at hstep
  cases hinFlight : state.inFlight with
  | nil => simp [hinFlight] at hstep
  | cons signal rest =>
      simp only [hinFlight] at hstep
      cases hfill : DBusInstance.fillMembers signal.interface signal.changed state.inst with
      | error exception filled => rw [hfill] at hstep; cases hstep
      | ok value filled =>
          rw [hfill] at hstep
          cases hstep
          have hkept := (DBusInstance.fillEntries_frame hfill).1
          refine ⟨hkept.trans htracked.sameQuery, ?_, ?_, ?_⟩
          · intro hquerying
            have hempty := (htracked.reading hquerying).2
            rw [hinFlight] at hempty
            cases hempty
          · intro hread value hvalue
            exact htracked.pending hread value (by simp [hinFlight, lastListed, hvalue])
          · intro hread hnone value formatted hvalue hformat
            cases hlisted : listed interface property signal with
            | none =>
                have hframe := fillMembers_frame hwatched htracked.sameQuery hfill
                  fun heq => by simpa [listed, heq] using hlisted
                rw [hframe.2]
                exact htracked.exact hread (by simp [hinFlight, lastListed, hnone, hlisted])
                  value formatted hvalue hformat
            | some last =>
                have hlast : value = last := htracked.pending hread last
                  (by simp [hinFlight, lastListed, hnone, hlisted]) value hvalue
                unfold listed at hlisted
                split_ifs at hlisted with hinterface
                rw [hinterface] at hfill
                exact fillMembers_sets hwatched htracked.sameQuery hfill (hlast ▸ hlisted) hformat

theorem tracked_next (hwatched : Watched query interface property member)
    (htracked : Tracked query interface property member state) {label : WatchStep}
    (hallowed : ChangesListed interface property state label)
    (hstep : next state label = some after) :
    Tracked query interface property member after := by
  cases label with
  | change other current invalidated => exact tracked_change htracked hallowed hstep
  | getAll => exact tracked_getAll hwatched htracked hstep
  | bindListener =>
      simp only [next] at hstep
      split at hstep
      · next hread _ =>
        cases hstep
        exact ⟨htracked.sameQuery, fun hquerying => absurd hread hquerying, htracked.pending,
          htracked.exact⟩
      · cases hstep
  | setInstances =>
      simp only [next] at hstep
      split_ifs at hstep
      cases hstep
      exact ⟨htracked.sameQuery, htracked.reading, htracked.pending, htracked.exact⟩
  | deliver => exact tracked_deliver hwatched htracked hstep

/-- Nothing is published before everything was read. -/
def ReadFirst (state : WatchState) : Prop := state.published = true → state.toQuery = []

theorem readFirst_next (hread : ReadFirst state) {label : WatchStep}
    (hstep : next state label = some after) : ReadFirst after := by
  cases label with
  | change other current invalidated => cases hstep; exact hread
  | getAll =>
      simp only [next] at hstep
      split at hstep
      · cases hstep
      · next other rest htoQuery =>
        split at hstep
        · cases hstep
          intro hpublished
          rw [hread hpublished] at htoQuery
          cases htoQuery
        · cases hstep
  | bindListener =>
      simp only [next] at hstep
      split at hstep
      · cases hstep; exact hread
      · cases hstep
  | setInstances =>
      simp only [next] at hstep
      split_ifs at hstep with hdone
      cases hstep
      exact fun _ => hdone.1
  | deliver =>
      simp only [next] at hstep
      split at hstep
      · cases hstep
      · split at hstep
        · cases hstep; exact hread
        · cases hstep

/-- Along every run in which the service changes the watched property only before its
interface is read, or after its match is registered and listing it as changed, the
published instance is exact whenever no signal is in flight. -/
theorem coherent_of_changesListed (query : DBusQuery) (service : ServiceName)
    (path : ObjectPath) (interfaces : List InterfaceName) (interface : InterfaceName)
    (property : PropertyName) (member : MemberName)
    (hwatched : Watched query interface property member) (hinterface : interface ∈ interfaces)
    (state : WatchState)
    (hreach : ((machine query service path interfaces).restrict
      (ChangesListed interface property)).Reachable state) :
    Coherent query interface property member state := by
  have hinvariant : ((machine query service path interfaces).restrict
      (ChangesListed interface property)).Invariant fun state =>
        Tracked query interface property member state ∧ ReadFirst state := by
    constructor
    · rintro state ⟨object, rfl⟩
      exact ⟨⟨rfl, fun _ => ⟨rfl, rfl⟩, fun hread => absurd hinterface hread,
        fun hread => absurd hinterface hread⟩, nofun⟩
    · rintro state label after ⟨htracked, hread⟩ ⟨hallowed, hstep⟩
      exact ⟨tracked_next hwatched htracked hallowed hstep, readFirst_next hread hstep⟩
  obtain ⟨htracked, hread⟩ := hinvariant.of_reachable hreach
  intro hpublished hquiet
  refine htracked.exact ?_ ?_
  · rw [hread hpublished]
    exact List.not_mem_nil
  · rw [hquiet]
    rfl

omit [StdHash] in
/-- A property of the query is watched when no other entry names its member. -/
theorem watched_of_entries
    (hmapped : (query.getPropertyMemberDict interface).find? property = some member)
    (honly : ∀ dictionary ∈ query.searchPropertiesMap.entries, ∀ entry ∈ dictionary.2.entries,
      entry.2 = member → dictionary.1 = interface ∧ entry.1 = property) :
    Watched query interface property member := by
  refine ⟨hmapped, fun other named hother => ?_⟩
  unfold DBusQuery.getPropertyMemberDict at hother
  cases hdictionary : query.searchPropertiesMap.find? other with
  | none => simp [hdictionary] at hother
  | some dictionary =>
      rw [hdictionary, Option.getD_some] at hother
      exact honly (other, dictionary) (OrderedMap.mem_entries_iff.mpr hdictionary) (named, member)
        (OrderedMap.mem_entries_iff.mpr hother) rfl

omit [StdHash] in
theorem watched_reading :
    Watched Sensors.query Sensors.sensorValueInterface "Value" sensors.fieldValue :=
  watched_of_entries (by decide) (by decide)

/-- The properties of a sensor with the given reading. -/
def sampleReading (bits : UInt64) : DBusPropertiesMap :=
  OrderedMap.ofList [("Value", .scalar (.double ⟨bits⟩))]

/-- The refresh of one sensor object that offers a reading of one. -/
def sampleState : WatchState where
  object _ := sampleReading 1
  inst := DBusInstance.create "svc" "/s" Sensors.query
  toQuery := [Sensors.sensorValueInterface]
  toBind := Sensors.query.searchPropertiesMap.keys
  listeners := []
  published := false
  inFlight := []

omit [StdHash] in
/-- The reading is changed once everything is registered: the change is listed and
delivered. -/
theorem coherent_of_changesListed_reading :
    ∃ (_ : StdHash) (state : WatchState), state.published = true ∧ state.inFlight = [] ∧
      state.inst.memberInstances.find? sensors.fieldValue = some (.double ⟨2⟩) ∧
      Coherent Sensors.query Sensors.sensorValueInterface "Value" sensors.fieldValue state := by
  let _ : StdHash := ⟨64, fun _ => 0⟩
  let steps : List WatchStep :=
    [.getAll, .bindListener, .bindListener, .bindListener, .setInstances,
      .change Sensors.sensorValueInterface (sampleReading 2) [], .deliver]
  have hlast : (steps.foldlM (Machine.guarded
      (ChangesListed Sensors.sensorValueInterface "Value") next) sampleState).map (fun state =>
        (state.published, state.inFlight.length,
          state.inst.memberInstances.find? sensors.fieldValue)) =
      some (true, 0, some (.double ⟨2⟩)) := by decide
  obtain ⟨state, hrun, hfacts⟩ := Option.map_eq_some_iff.mp hlast
  simp only [Prod.mk.injEq, List.length_eq_zero_iff] at hfacts
  obtain ⟨hpublished, hquiet, hcached⟩ := hfacts
  have hreach : ((machine Sensors.query "svc" "/s" [Sensors.sensorValueInterface]).restrict
      (ChangesListed Sensors.sensorValueInterface "Value")).Reachable state := by
    unfold machine
    rw [Machine.restrict_ofNext]
    exact Machine.Reachable.of_foldlM ⟨fun _ => sampleReading 1, rfl⟩ hrun
  exact ⟨⟨64, fun _ => 0⟩, state, hpublished, hquiet, hcached, coherent_of_changesListed Sensors.query "svc"
    "/s" [Sensors.sensorValueInterface] Sensors.sensorValueInterface "Value" sensors.fieldValue
    watched_reading (by simp) state hreach⟩

omit [StdHash] in
/-- The service changes the reading after the `GetAll` and before the registration. -/
theorem stale_reading :
    ¬ ∀ (_ : StdHash) (query : DBusQuery) (service : ServiceName) (path : ObjectPath)
      (interfaces : List InterfaceName) (interface : InterfaceName) (property : PropertyName)
      (member : MemberName), Watched query interface property member → interface ∈ interfaces →
      ∀ state : WatchState, (machine query service path interfaces).Reachable state →
        Coherent query interface property member state := by
  intro hclaim
  let hash : StdHash := ⟨64, fun _ => 0⟩
  let steps : List WatchStep :=
    [.getAll, .change Sensors.sensorValueInterface (sampleReading 2) [], .bindListener,
      .bindListener, .bindListener, .setInstances]
  have hlast : (steps.foldlM next sampleState).map (fun state =>
      (state.published, state.inFlight.length,
        (state.object Sensors.sensorValueInterface).find? "Value",
        state.inst.memberInstances.find? sensors.fieldValue)) =
      some (true, 0, some (.scalar (.double ⟨2⟩)), some (.double ⟨1⟩)) := by decide
  obtain ⟨state, hrun, hfacts⟩ := Option.map_eq_some_iff.mp hlast
  simp only [Prod.mk.injEq, List.length_eq_zero_iff] at hfacts
  obtain ⟨hpublished, hquiet, hvalue, hcached⟩ := hfacts
  have hreach : (machine Sensors.query "svc" "/s" [Sensors.sensorValueInterface]).Reachable
      state := Machine.Reachable.of_foldlM ⟨fun _ => sampleReading 1, rfl⟩ hrun
  have hexact := hclaim hash Sensors.query "svc" "/s" [Sensors.sensorValueInterface]
    Sensors.sensorValueInterface "Value" sensors.fieldValue watched_reading (by simp) state hreach
    hpublished hquiet _ (.double ⟨2⟩) hvalue (by decide)
  rw [hcached] at hexact
  cases hexact

end Watch

end ObmcWebapp.Brokers
