/-
# Objects of several services on one path

An instance is one object of one service, and its hash is that of the path and the
service. Its matches are those of the path and of the interfaces of its dictionary. They
admit the signals of every service that has an object on the path, and the handler fills
the instance with whatever an admitted signal reports.

So a signal of another service is written to the instance like one of its own. It leaves
the instance as it is exactly when its last write to each field and under each hash is
what the instance holds already.
-/

import ObmcWebapp.Entities.Sensors
import ObmcWebapp.Entities.Writes

namespace ObmcWebapp.Brokers

open ObmcWebapp.Core ObmcWebapp.Entities definitions

variable [StdHash]

namespace SharedPaths

/-- What a `PropertiesChanged` signal says. -/
structure Report where
  interface : InterfaceName
  changed : DBusPropertiesMap

/-- A `PropertiesChanged` signal on the bus. -/
structure BusSignal where
  sender : ServiceName
  path : ObjectPath
  report : Report

/-- `rules::propertiesChanged`. -/
structure MatchRule where
  path : ObjectPath
  interface : InterfaceName

/-- The bus looks at the path and the first argument of the signal. -/
def MatchRule.admits (rule : MatchRule) (signal : BusSignal) : Bool :=
  decide (signal.path = rule.path) && decide (signal.report.interface = rule.interface)

/-- The rules `bindListeners` registers. -/
def bindListeners (inst : DBusInstance) : List MatchRule :=
  inst.dbusQuery.searchPropertiesMap.keys.map fun interface => ⟨inst.objectPath, interface⟩

/-- The callback of a match. -/
def handle (report : Report) : EStateM Exception DBusInstance PUnit :=
  DBusInstance.fillMembers report.interface report.changed

/-- The callbacks the bus calls for a signal. -/
def deliver (signal : BusSignal) : EStateM Exception DBusInstance PUnit := fun inst =>
  Fallible.forEach (fun rule : MatchRule =>
    if rule.admits signal then handle signal.report else pure ⟨⟩) (bindListeners inst) inst

/-- Signals that are delivered one after the other. -/
def deliverAll (signals : List BusSignal) : EStateM Exception DBusInstance PUnit :=
  Fallible.forEach deliver signals

/-- The signals of a service for one of its objects. -/
def sentBy (service : ServiceName) (path : ObjectPath) (reports : List Report) : List BusSignal :=
  reports.map fun report => ⟨service, path, report⟩

/-- However far the signals are delivered, the fields and children of the instance are
those it had. -/
def Undisturbed (inst : DBusInstance) (signals : List BusSignal) : Prop :=
  ∀ before later, signals = before ++ later →
    Fallible.Leaves (fun after => after = inst) (deliverAll before inst)

/-- The writes of a report to an instance. -/
def reportWrites (inst : DBusInstance) (report : Report) : Writes :=
  fillWrites inst.toInstance report.interface report.changed

/-- What is reported up to the first exception is what the instance holds already. -/
def NothingNew (inst : DBusInstance) : List Report → Prop
  | [] => True
  | report :: reports =>
      Write.Known (reportWrites inst report).writes inst ∧
        ((reportWrites inst report).raised = none → NothingNew inst reports)

/-- Of the matches for distinct interfaces at most one is called. -/
theorem forEach_admits {path : ObjectPath} {interfaces : List InterfaceName}
    (hnodup : interfaces.Nodup) (signal : BusSignal) :
    Fallible.forEach (fun rule : MatchRule =>
        if rule.admits signal then handle signal.report else pure ⟨⟩)
      (interfaces.map fun interface => ⟨path, interface⟩) =
      if signal.path = path ∧ signal.report.interface ∈ interfaces then handle signal.report
      else pure ⟨⟩ := by
  induction interfaces with
  | nil => simp [Fallible.forEach]
  | cons interface interfaces ih =>
      obtain ⟨hfresh, hnodup⟩ := List.nodup_cons.mp hnodup
      rw [List.map_cons, Fallible.forEach, ih hnodup]
      by_cases hpath : signal.path = path
      · by_cases hinterface : signal.report.interface = interface
        · simp [MatchRule.admits, hpath, hinterface, hfresh]
        · simp [MatchRule.admits, hpath, hinterface]
      · simp [MatchRule.admits, hpath]

/-- A signal for the path of an instance performs its writes, whoever sent it. -/
theorem deliver_eq (sender : ServiceName) (report : Report) (inst : DBusInstance) :
    deliver ⟨sender, inst.objectPath, report⟩ inst = (reportWrites inst report).result inst := by
  rw [deliver, bindListeners, forEach_admits (OrderedMap.nodup_keys _)]
  by_cases hinterface : report.interface ∈ inst.dbusQuery.searchPropertiesMap.keys
  · rw [if_pos ⟨rfl, hinterface⟩]
    exact DBusInstance.fillMembers_eq report.interface report.changed inst
  · rw [if_neg fun hadmits => hinterface hadmits.2, reportWrites, fillWrites,
      DBusQuery.getPropertyMemberDict, OrderedMap.find?_of_not_mem_keys hinterface]
    rfl

/-- The state a report leaves, with or without an exception. -/
theorem leaves_deliver_iff (sender : ServiceName) (report : Report) (inst : DBusInstance) :
    Fallible.Leaves (fun after => after = inst)
        (deliver ⟨sender, inst.objectPath, report⟩ inst) ↔
      Write.Known (reportWrites inst report).writes inst := by
  rw [deliver_eq, ← Write.applyAll_eq_self_iff, Writes.result]
  cases (reportWrites inst report).raised <;> rfl

theorem undisturbed_cons_iff (inst : DBusInstance) (sender : ServiceName) (report : Report)
    (reports : List Report) :
    Undisturbed inst (sentBy sender inst.objectPath (report :: reports)) ↔
      Write.Known (reportWrites inst report).writes inst ∧
        ((reportWrites inst report).raised = none →
          Undisturbed inst (sentBy sender inst.objectPath reports)) := by
  have hleaves := leaves_deliver_iff sender report inst
  have hresult : deliver ⟨sender, inst.objectPath, report⟩ inst =
      (reportWrites inst report).result inst := deliver_eq sender report inst
  rw [show sentBy sender inst.objectPath (report :: reports) =
    ⟨sender, inst.objectPath, report⟩ :: sentBy sender inst.objectPath reports from rfl]
  generalize (⟨sender, inst.objectPath, report⟩ : BusSignal) = signal at hleaves hresult ⊢
  rw [Writes.result] at hresult
  constructor
  · intro hundisturbed
    have hfirst := hundisturbed [signal] _ rfl
    rw [show deliverAll [signal] = deliver signal by simp [deliverAll, Fallible.forEach],
      hleaves] at hfirst
    refine ⟨hfirst, fun hraised before later hreports => ?_⟩
    have hmore := hundisturbed (signal :: before) later (by rw [hreports, List.cons_append])
    rw [hraised, (Write.applyAll_eq_self_iff _ _).mpr hfirst] at hresult
    rwa [deliverAll, Fallible.forEach, Fallible.bind_ok hresult] at hmore
  · rintro ⟨hknown, hrest⟩ before later hsignals
    rw [(Write.applyAll_eq_self_iff _ _).mpr hknown] at hresult
    cases before with
    | nil => exact rfl
    | cons first before =>
        rw [List.cons_append, List.cons.injEq] at hsignals
        obtain ⟨rfl, hreports⟩ := hsignals
        rw [deliverAll, Fallible.forEach]
        cases hraised : (reportWrites inst report).raised with
        | none =>
            rw [hraised] at hresult
            rw [Fallible.bind_ok hresult]
            exact hrest hraised before later hreports
        | some exception =>
            rw [hraised] at hresult
            rw [Fallible.bind_error hresult]
            exact rfl

/-- Signals of another service leave the instance of a service alone exactly when they
report, up to the first exception, what the instance holds already. -/
theorem undisturbed_iff_nothingNew (inst : DBusInstance) (other : ServiceName)
    (reports : List Report) :
    Undisturbed inst (sentBy other inst.objectPath reports) ↔ NothingNew inst reports := by
  induction reports with
  | nil =>
      refine ⟨fun _ => trivial, fun _ before later hsignals => ?_⟩
      obtain ⟨rfl, -⟩ := List.append_eq_nil_iff.mp hsignals.symm
      exact rfl
  | cons report reports ih => rw [undisturbed_cons_iff, NothingNew, ih]

omit [StdHash] in
/-- Two services have a sensor on one path, and the second reports its reading. -/
theorem reading_of_other_service :
    ∃ (_ : StdHash) (inst : DBusInstance) (other : ServiceName) (reports : List Report),
      inst.serviceName = "svc.a" ∧ other = "svc.b" ∧
      inst.memberInstances.find? sensors.fieldValue = some (.double ⟨1⟩) ∧
      ¬ Undisturbed inst (sentBy other inst.objectPath reports) := by
  let reading (bits : UInt64) : DBusPropertiesMap :=
    OrderedMap.ofList [("Value", .scalar (.double ⟨bits⟩))]
  let hash : StdHash := ⟨64, fun _ => 0⟩
  let inst : DBusInstance :=
    { DBusInstance.create "svc.a" "/s" Sensors.query with
      toInstance := (Instance.create "svc.a" "/s" Sensors.query).supplementOrUpdate
        sensors.fieldValue (.double ⟨1⟩) }
  let report : Report := ⟨Sensors.sensorValueInterface, reading 2⟩
  have hheld : inst.memberInstances.find? sensors.fieldValue = some (.double ⟨1⟩) := by decide
  refine ⟨hash, inst, "svc.b", [report], rfl, rfl, hheld, ?_⟩
  intro hundisturbed
  have hwritten : Write.lastField sensors.fieldValue (reportWrites inst report).writes =
      some (.double ⟨2⟩) := by decide
  have hknown := ((undisturbed_cons_iff inst "svc.b" report []).mp hundisturbed).1.1 _ _ hwritten
  rw [hheld] at hknown
  cases hknown

end SharedPaths

end ObmcWebapp.Brokers
