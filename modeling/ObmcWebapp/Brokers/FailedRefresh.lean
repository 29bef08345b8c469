/-
# A refresh that fails

A refresh works on objects: the instances the query creates, the matches it registers for
them, the instance map of the entity, the record of the broker and its lock. Any of its
calls may raise, when part of the work is done: some instances are created and the last
of them is half filled, or some of the matches are registered.

Until it publishes, a refresh only adds objects and matches. The instance map holds
pointers to objects that were there before, so whatever is raised leaves what it shows
alone; the record is written last, and the lock is released on every path.
-/

import ObmcWebapp.Brokers.CaptureLoop
import ObmcWebapp.Library.Execution

namespace ObmcWebapp.Brokers

open ObmcWebapp.Core ObmcWebapp.Entities

variable [StdHash]

namespace FailedRefresh

/-- An instance object. Only a query of another kind creates a foreign one. -/
inductive InstanceObject
  | dbus (inst : DBusInstance)
  | foreign (hash : ℕ)

def InstanceObject.getHash : InstanceObject → ℕ
  | dbus inst => inst.getHash
  | foreign hash => hash

/-- The query of a broker. One that is not a D-Bus query raises, or returns instances of
its own. -/
inductive BrokerQuery
  | dbus (query : EntityQuery)
  | foreign (outcome : Except Exception (List InstanceObject))

/-- The broker with its lock, the instance map of its entity, and the objects. A pointer
to an instance is its position among the objects. -/
structure RefreshState where
  broker : Broker
  guardMutex : Bool
  entityName : String
  entityQuery : Option BrokerQuery
  instances : OrderedMap ℕ ℕ
  objects : List InstanceObject
  listeners : List (ℕ × InterfaceName)

/-- What one call of `tryProcess` meets. -/
structure RefreshTurn where
  now : ℤ
  replies : BusReplies
  /-- How the construction of a match ends. -/
  registers : DBusInstance → InterfaceName → Except Exception PUnit
  recordNow : ℤ

/-- `std::make_shared`. -/
def allocate (object : InstanceObject) : EStateM Exception RefreshState ℕ := fun state =>
  .ok state.objects.length { state with objects := state.objects ++ [object] }

/-- Run a member function of an instance object. -/
def onInstance (id : ℕ) (action : EStateM Exception DBusInstance PUnit) :
    EStateM Exception RefreshState PUnit := fun state =>
  match state.objects[id]? with
  | some (.dbus inst) =>
      match action inst with
      | .ok _ after => .ok ⟨⟩ { state with objects := state.objects.set id (.dbus after) }
      | .error exception after =>
          .error exception { state with objects := state.objects.set id (.dbus after) }
  | _ => .ok ⟨⟩ state

/-- Create an instance and run member functions of it. -/
def buildInstance (start : DBusInstance) (actions : List (EStateM Exception DBusInstance PUnit)) :
    EStateM Exception RefreshState ℕ := do
  let id ← allocate (.dbus start)
  Fallible.forEach (onInstance id) actions
  return id

/-- `supplementByStaticFields` on an instance object. -/
def supplementByStaticFields (query : EntityQuery) : EStateM Exception DBusInstance PUnit :=
  fun inst =>
    match query.supplementByStaticFields inst with
    | .ok after => .ok ⟨⟩ after
    | .error exception => .error exception inst

/-- Ask an interface for its properties and fill the instance from the reply. -/
def askInterface (replies : BusReplies) (interface : InterfaceName) :
    EStateM Exception DBusInstance PUnit := fun inst =>
  DBusInstance.fillMembers interface (EntityQuery.queryProperties replies inst interface) inst

/-- `createInstance`. -/
def createInstance (query : EntityQuery) (replies : BusReplies) (serviceName : ServiceName)
    (objectPath : ObjectPath) (interfaces : List InterfaceName) :
    EStateM Exception RefreshState ℕ :=
  buildInstance (DBusInstance.create serviceName objectPath query.dbusQuery)
    (interfaces.map (askInterface replies) ++ [supplementByStaticFields query])

/-- The instance of one managed object. -/
def introspectInstance (query : EntityQuery) (serviceName : ServiceName)
    (object : ObjectPath × List (InterfaceName × DBusPropertiesMap)) :
    EStateM Exception RefreshState ℕ :=
  buildInstance (DBusInstance.create serviceName object.1 query.dbusQuery)
    (object.2.map (fun interface => DBusInstance.fillMembers interface.1 interface.2) ++
      [supplementByStaticFields query])

/-- `process` of a D-Bus query. -/
def processQuery (query : EntityQuery) (replies : BusReplies) :
    EStateM Exception RefreshState (List ℕ) :=
  match query.kind with
  | .findObject service =>
      match replies.getSubTree with
      | .error exception => throw exception
      | .ok mapperResponse =>
          Fallible.collect (fun object : ObjectPath × ServiceName × List InterfaceName =>
              createInstance query replies object.2.1 object.1 object.2.2)
            (mapperResponse.flatMap fun object =>
              (object.2.filter fun info => service.all (· = info.1)).map fun info =>
                (object.1, info.1, info.2))
  | .introspectService service =>
      match replies.getManagedObjects service with
      | .error exception => throw exception
      | .ok interfacesResponse =>
          Fallible.collect (introspectInstance query service) interfacesResponse

/-- `process`. -/
def process (replies : BusReplies) : BrokerQuery → EStateM Exception RefreshState (List ℕ)
  | .dbus query => processQuery query replies
  | .foreign (.error exception) => throw exception
  | .foreign (.ok objects) => Fallible.collect allocate objects

/-- The match of one interface. -/
def registerMatch (turn : RefreshTurn) (id : ℕ) (inst : DBusInstance) (interface : InterfaceName) :
    EStateM Exception RefreshState PUnit := fun state =>
  match turn.registers inst interface with
  | .ok _ => .ok ⟨⟩ { state with listeners := state.listeners ++ [(id, interface)] }
  | .error exception => .error exception state

/-- `bindListeners`. -/
def bindListeners (turn : RefreshTurn) (id : ℕ) (inst : DBusInstance) :
    EStateM Exception RefreshState PUnit :=
  Fallible.forEach (registerMatch turn id inst) inst.dbusQuery.searchPropertiesMap.keys

/-- One turn of the loop over the created instances. -/
def watchInstance (turn : RefreshTurn) (id : ℕ) : EStateM Exception RefreshState PUnit :=
  fun state =>
    match state.objects[id]? with
    | some (.dbus inst) => bindListeners turn id inst state
    | _ => .error (.logicError ("At the DBusBroker the entity query accepted instance which is " ++
        "not DBusInstance.")) state

/-- The matches of the created instances, if the broker watches. -/
def watchInstances (turn : RefreshTurn) (ids : List ℕ) : EStateM Exception RefreshState PUnit :=
  fun state =>
    if state.broker.watch then Fallible.forEach (watchInstance turn) ids state
    else .ok ⟨⟩ state

/-- Everything before the publication. -/
def prepare (turn : RefreshTurn) (query : BrokerQuery) :
    EStateM Exception RefreshState (List ℕ) := do
  let ids ← process turn.replies query
  watchInstances turn ids
  return ids

/-- The insertion of one instance. -/
def insertInstance (objects : List InstanceObject) (instances : OrderedMap ℕ ℕ) (id : ℕ) :
    OrderedMap ℕ ℕ :=
  match objects[id]? with
  | some object => instances.insertOrAssign object.getHash id
  | none => instances

/-- `setInstances`. -/
def setInstances (ids : List ℕ) (state : RefreshState) : RefreshState :=
  { state with instances := ids.foldl (insertInstance state.objects) OrderedMap.empty }

def setExecutionTime (now : ℤ) (state : RefreshState) : RefreshState :=
  { state with broker := state.broker.setExecutionTime now }

/-- `tryProcess` once it has the lock. -/
def processLocked (turn : RefreshTurn) : EStateM Exception RefreshState Bool := fun state =>
  if state.broker.isTimeout turn.now = false then .ok false state
  else
    match state.entityQuery with
    | none => .error (.obmcApp ("Query not registried! Entity=" ++ state.entityName)) state
    | some query =>
        match prepare turn query state with
        | .error exception after => .error exception after
        | .ok ids prepared => .ok true (setExecutionTime turn.recordNow (setInstances ids prepared))

/-- `tryProcess`. The lock is released by the destructor of the guard. -/
def tryProcess (turn : RefreshTurn) : EStateM Exception RefreshState Bool := fun state =>
  if state.guardMutex then .ok false state
  else
    match processLocked turn { state with guardMutex := true } with
    | .ok done after => .ok done { after with guardMutex := false }
    | .error exception after => .error exception { after with guardMutex := false }

/-- The later state has more objects and matches, and is otherwise the earlier one. -/
structure Grows (state after : RefreshState) : Prop where
  broker : after.broker = state.broker
  guardMutex : after.guardMutex = state.guardMutex
  entityName : after.entityName = state.entityName
  entityQuery : after.entityQuery = state.entityQuery
  instances : after.instances = state.instances
  objects : state.objects <+: after.objects
  listeners : state.listeners <+: after.listeners

omit [StdHash] in
theorem Grows.refl (state : RefreshState) : Grows state state :=
  ⟨rfl, rfl, rfl, rfl, rfl, List.prefix_refl _, List.prefix_refl _⟩

omit [StdHash] in
theorem Grows.trans {first second third : RefreshState} (hfirst : Grows first second)
    (hsecond : Grows second third) : Grows first third where
  broker := hsecond.broker.trans hfirst.broker
  guardMutex := hsecond.guardMutex.trans hfirst.guardMutex
  entityName := hsecond.entityName.trans hfirst.entityName
  entityQuery := hsecond.entityQuery.trans hfirst.entityQuery
  instances := hsecond.instances.trans hfirst.instances
  objects := hfirst.objects.trans hsecond.objects
  listeners := hfirst.listeners.trans hsecond.listeners

omit [StdHash] in
/-- More objects. -/
theorem Grows.allocated (state : RefreshState) (objects : List InstanceObject) :
    Grows state { state with objects := state.objects ++ objects } :=
  ⟨rfl, rfl, rfl, rfl, rfl, List.prefix_append _ _, List.prefix_refl _⟩

/-- Run member functions of one instance. -/
def performAll : List (EStateM Exception DBusInstance PUnit) → EStateM Exception DBusInstance PUnit
  | [] => pure ⟨⟩
  | action :: actions => do
      action
      performAll actions

/-- The outcome of member functions as that of the state whose last object they change. -/
def placed (state : RefreshState) :
    EStateM.Result Exception DBusInstance PUnit → EStateM.Result Exception RefreshState PUnit
  | .ok _ inst => .ok ⟨⟩ { state with objects := state.objects ++ [.dbus inst] }
  | .error exception inst =>
      .error exception { state with objects := state.objects ++ [.dbus inst] }

omit [StdHash] in
theorem onInstance_last (state : RefreshState) (action : EStateM Exception DBusInstance PUnit)
    (inst : DBusInstance) :
    onInstance state.objects.length action
      { state with objects := state.objects ++ [.dbus inst] } = placed state (action inst) := by
  simp only [onInstance, List.getElem?_concat_length]
  cases action inst <;> simp [placed]

omit [StdHash] in
/-- Member functions of the last object change that object only. -/
theorem forEach_onInstance (state : RefreshState)
    (actions : List (EStateM Exception DBusInstance PUnit)) (inst : DBusInstance) :
    Fallible.forEach (onInstance state.objects.length) actions
        { state with objects := state.objects ++ [.dbus inst] } =
      placed state (performAll actions inst) := by
  induction actions generalizing inst with
  | nil => rfl
  | cons action actions ih =>
      have hfirst := onInstance_last state action inst
      rw [Fallible.forEach, performAll]
      cases haction : action inst with
      | ok value after =>
          rw [haction] at hfirst
          rw [Fallible.bind_ok hfirst, ih, Fallible.bind_ok haction]
      | error exception after =>
          rw [haction] at hfirst
          rw [Fallible.bind_error hfirst, Fallible.bind_error haction]
          rfl

/-- The state with more objects. -/
def RefreshState.grow (state : RefreshState) (objects : List InstanceObject) : RefreshState :=
  { state with objects := state.objects ++ objects }

/-- One object is created, or an exception is raised, as the outcome says. -/
structure Creates {β : Type} (wrap : β → InstanceObject)
    (action : EStateM Exception RefreshState ℕ) (outcome : Except Exception β) : Prop where
  created : ∀ {result}, outcome = .ok result → ∀ state : RefreshState,
    action state = .ok state.objects.length (state.grow [wrap result])
  raised : ∀ {exception}, outcome = .error exception → ∀ state : RefreshState,
    ∃ objects, action state = .error exception (state.grow objects)

/-- Objects are created one after the other, or an exception is raised. -/
structure CreatesAll {β : Type} (wrap : β → InstanceObject)
    (action : EStateM Exception RefreshState (List ℕ)) (outcome : Except Exception (List β)) :
    Prop where
  created : ∀ {results}, outcome = .ok results → ∀ state : RefreshState,
    action state = .ok (List.range' state.objects.length results.length)
      (state.grow (results.map wrap))
  raised : ∀ {exception}, outcome = .error exception → ∀ state : RefreshState,
    ∃ objects, action state = .error exception (state.grow objects)

omit [StdHash] in
theorem RefreshState.grow_grow (state : RefreshState) (objects more : List InstanceObject) :
    (state.grow objects).grow more = state.grow (objects ++ more) := by
  simp [grow]

omit [StdHash] in
theorem creates_buildInstance (start : DBusInstance)
    (actions : List (EStateM Exception DBusInstance PUnit)) :
    Creates .dbus (buildInstance start actions)
      (EntityQuery.resulting (performAll actions) start) := by
  have hbuild : ∀ state : RefreshState, buildInstance start actions state =
      (Fallible.forEach (onInstance state.objects.length) actions >>= fun _ =>
        pure state.objects.length) (state.grow [.dbus start]) := fun _ => rfl
  rw [EntityQuery.resulting]
  cases hperform : performAll actions start with
  | ok value inst =>
      constructor
      · rintro result ⟨⟩ state
        have hwalk := forEach_onInstance state actions start
        rw [hperform] at hwalk
        rw [hbuild]
        exact Fallible.bind_ok hwalk
      · rintro exception ⟨⟩
  | error raised inst =>
      constructor
      · rintro result ⟨⟩
      · rintro exception ⟨⟩ state
        have hwalk := forEach_onInstance state actions start
        rw [hperform] at hwalk
        refine ⟨[.dbus inst], ?_⟩
        rw [hbuild]
        exact Fallible.bind_error hwalk

omit [StdHash] in
theorem createsAll_collect {α β : Type} {wrap : β → InstanceObject}
    {visit : α → EStateM Exception RefreshState ℕ} {meaning : α → Except Exception β}
    {items : List α} (hvisit : ∀ item, Creates wrap (visit item) (meaning item)) :
    CreatesAll wrap (Fallible.collect visit items) (items.mapM meaning) := by
  induction items with
  | nil =>
      constructor
      · rintro results ⟨⟩ state
        show EStateM.Result.ok [] state = .ok [] (state.grow [])
        simp [RefreshState.grow]
      · rintro exception ⟨⟩
  | cons item items ih =>
      rw [List.mapM_cons]
      cases hitem : meaning item with
      | error exception =>
          constructor
          · rintro results ⟨⟩
          · rintro _ ⟨⟩ state
            obtain ⟨objects, hraised⟩ := (hvisit item).raised hitem state
            exact ⟨objects, Fallible.bind_error hraised⟩
      | ok result =>
          have hfirst := (hvisit item).created hitem
          cases hitems : items.mapM meaning with
          | error exception =>
              constructor
              · rintro results ⟨⟩
              · rintro _ ⟨⟩ state
                obtain ⟨objects, hraised⟩ := ih.raised hitems (state.grow [wrap result])
                refine ⟨[wrap result] ++ objects, ?_⟩
                rw [Fallible.collect, Fallible.bind_ok (hfirst state), ← RefreshState.grow_grow]
                exact Fallible.bind_error hraised
          | ok results =>
              constructor
              · rintro _ ⟨⟩ state
                have hrest := ih.created hitems (state.grow [wrap result])
                rw [Fallible.collect, Fallible.bind_ok (hfirst state), Fallible.bind_ok hrest,
                  RefreshState.grow_grow]
                have hnext : (state.grow [wrap result]).objects.length =
                    state.objects.length + 1 := by
                  simp [RefreshState.grow]
                rw [hnext]
                rfl
              · rintro exception ⟨⟩

omit [StdHash] in
theorem createsAll_throw {β : Type} {wrap : β → InstanceObject} (exception : Exception) :
    CreatesAll wrap (throw exception) (.error exception) := by
  constructor
  · rintro results ⟨⟩
  · rintro _ ⟨⟩ state
    refine ⟨[], ?_⟩
    rw [RefreshState.grow, List.append_nil]
    rfl

omit [StdHash] in
/-- The outcome of filling an instance and supplementing it. -/
theorem resulting_filled (query : EntityQuery) {α : Type}
    (fill : α → EStateM Exception DBusInstance PUnit) (items : List α) (start : DBusInstance) :
    EntityQuery.resulting (performAll (items.map fill ++ [supplementByStaticFields query])) start =
      (items.foldlM (fun inst item => EntityQuery.resulting (fill item) inst) start >>=
        query.supplementByStaticFields) := by
  induction items generalizing start with
  | nil =>
      show EntityQuery.resulting (do supplementByStaticFields query; pure ⟨⟩) start =
        query.supplementByStaticFields start
      cases hstatic : query.supplementByStaticFields start with
      | ok after =>
          have hok : supplementByStaticFields query start = .ok ⟨⟩ after := by
            rw [supplementByStaticFields, hstatic]
          rw [EntityQuery.resulting, Fallible.bind_ok hok]
          rfl
      | error exception =>
          have herror : supplementByStaticFields query start = .error exception start := by
            rw [supplementByStaticFields, hstatic]
          rw [EntityQuery.resulting, Fallible.bind_error herror]
  | cons item items ih =>
      rw [List.map_cons, List.cons_append, performAll, List.foldlM_cons]
      cases hfill : fill item start with
      | ok value filled =>
          have hrest := ih filled
          rw [EntityQuery.resulting] at hrest
          have hfirst : EntityQuery.resulting (fill item) start = .ok filled := by
            rw [EntityQuery.resulting, hfill]
          rw [EntityQuery.resulting, Fallible.bind_ok hfill, hrest, hfirst]
          rfl
      | error exception filled =>
          have hfirst : EntityQuery.resulting (fill item) start = .error exception := by
            rw [EntityQuery.resulting, hfill]
          rw [EntityQuery.resulting, Fallible.bind_error hfill, hfirst]
          rfl

theorem creates_createInstance (query : EntityQuery) (replies : BusReplies)
    (serviceName : ServiceName) (objectPath : ObjectPath) (interfaces : List InterfaceName) :
    Creates .dbus (createInstance query replies serviceName objectPath interfaces)
      (query.createInstance replies serviceName objectPath interfaces) := by
  have hbuild := creates_buildInstance
    (DBusInstance.create serviceName objectPath query.dbusQuery)
    (interfaces.map (askInterface replies) ++ [supplementByStaticFields query])
  rw [resulting_filled] at hbuild
  exact hbuild

/-- A D-Bus query creates what it returns. -/
theorem createsAll_processQuery (query : EntityQuery) (replies : BusReplies) :
    CreatesAll .dbus (processQuery query replies) (query.process replies) := by
  rw [processQuery, EntityQuery.process]
  cases query.kind with
  | findObject service =>
      cases hreply : replies.getSubTree with
      | error exception =>
          simp only [EntityQuery.processFindObject, hreply]
          exact createsAll_throw exception
      | ok mapperResponse =>
          simp only [EntityQuery.processFindObject, hreply]
          exact createsAll_collect fun object => creates_createInstance query replies _ _ _
  | introspectService service =>
      cases hreply : replies.getManagedObjects service with
      | error exception =>
          simp only [EntityQuery.processIntrospectService, hreply]
          exact createsAll_throw exception
      | ok interfacesResponse =>
          simp only [EntityQuery.processIntrospectService, hreply]
          apply createsAll_collect
          intro object
          have hbuild := creates_buildInstance
            (DBusInstance.create service object.1 query.dbusQuery)
            (object.2.map (fun interface => DBusInstance.fillMembers interface.1 interface.2) ++
              [supplementByStaticFields query])
          rw [resulting_filled] at hbuild
          exact hbuild

omit [StdHash] in
theorem creates_allocate (object : InstanceObject) :
    Creates id (allocate object) (.ok object) := by
  constructor
  · rintro result ⟨⟩ state
    rfl
  · rintro exception ⟨⟩

omit [StdHash] in
theorem CreatesAll.leaves_grows {β : Type} {wrap : β → InstanceObject}
    {action : EStateM Exception RefreshState (List ℕ)} {outcome : Except Exception (List β)}
    (hcreates : CreatesAll wrap action outcome) (state : RefreshState) :
    Fallible.Leaves (Grows state) (action state) := by
  cases houtcome : outcome with
  | ok results =>
      rw [hcreates.created houtcome]
      exact Grows.allocated state _
  | error exception =>
      obtain ⟨objects, hraised⟩ := hcreates.raised houtcome state
      rw [hraised]
      exact Grows.allocated state objects

theorem process_grows (replies : BusReplies) (query : BrokerQuery) (state : RefreshState) :
    Fallible.Leaves (Grows state) (process replies query state) := by
  cases query with
  | dbus query => exact (createsAll_processQuery query replies).leaves_grows state
  | foreign outcome =>
      cases outcome with
      | error exception => exact Grows.refl state
      | ok objects =>
          have hcreates : CreatesAll id (Fallible.collect allocate objects)
              (objects.mapM Except.ok) := createsAll_collect creates_allocate
          exact hcreates.leaves_grows state

omit [StdHash] in
/-- Registering matches only adds matches. -/
theorem watchInstances_grows (turn : RefreshTurn) (ids : List ℕ) (state : RefreshState) :
    Fallible.Leaves (Grows state) (watchInstances turn ids state) := by
  rw [watchInstances]
  split_ifs
  swap
  · exact Grows.refl state
  apply Fallible.forEach_preserves _ (Grows.refl state)
  intro id _ current hgrows
  rw [watchInstance]
  cases hobject : current.objects[id]? with
  | none => exact hgrows
  | some object =>
      cases object with
      | foreign hash => exact hgrows
      | dbus inst =>
          apply Fallible.forEach_preserves _ hgrows
          intro interface _ registered hregistered
          rw [registerMatch]
          cases turn.registers inst interface with
          | error exception => exact hregistered
          | ok value =>
              exact hregistered.trans
                ⟨rfl, rfl, rfl, rfl, rfl, List.prefix_refl _, List.prefix_append _ _⟩

theorem prepare_grows (turn : RefreshTurn) (query : BrokerQuery) (state : RefreshState) :
    Fallible.Leaves (Grows state) (prepare turn query state) := by
  apply (process_grows turn.replies query state).bind
  intro ids created hcreated
  have hwatched : Fallible.Leaves (Grows state) (watchInstances turn ids created) :=
    (watchInstances_grows turn ids created).imp fun _ hgrows => hcreated.trans hgrows
  apply Fallible.Leaves.bind hwatched
  exact fun _ _ hgrows => hgrows

/-- A call under the lock does nothing, raises and has only added objects and matches, or
publishes. -/
theorem processLocked_cases (turn : RefreshTurn) (state : RefreshState) :
    processLocked turn state = .ok false state ∨
    (∃ exception after, Grows state after ∧ processLocked turn state = .error exception after) ∨
    ∃ ids prepared, Grows state prepared ∧ processLocked turn state =
      .ok true (setExecutionTime turn.recordNow (setInstances ids prepared)) := by
  rw [processLocked]
  split_ifs
  · exact .inl rfl
  · cases state.entityQuery with
    | none => exact .inr (.inl ⟨_, state, Grows.refl state, rfl⟩)
    | some query =>
        have hgrows := prepare_grows turn query state
        cases hprepare : prepare turn query state with
        | ok ids prepared =>
            rw [hprepare] at hgrows
            simp only [hprepare]
            exact .inr (.inr ⟨ids, prepared, hgrows, rfl⟩)
        | error exception after =>
            rw [hprepare] at hgrows
            simp only [hprepare]
            exact .inr (.inl ⟨exception, after, hgrows, rfl⟩)

/-! ## A failed refresh -/

/-- The call left the instance map and everything it shows, the recorded time and what
follows for the schedule, and the lock is free. -/
structure Intact (state after : RefreshState) : Prop where
  instances : after.instances = state.instances
  shown : ∀ hash id, state.instances.find? hash = some id →
    ∃ object, state.objects[id]? = some object ∧ after.objects[id]? = some object
  lastExecutionTime : after.broker.lastExecutionTime = state.broker.lastExecutionTime
  guardMutex : after.guardMutex = false
  due : ∀ now, state.broker.isTimeout now = true → after.broker.isTimeout now = true

/-- The instance map points to objects. -/
def PointsToObjects (state : RefreshState) : Prop :=
  ∀ hash id, state.instances.find? hash = some id → id < state.objects.length

/-- What happens to the broker and its objects: a call, whatever its end, a signal for one of
the objects, or an enumeration of the entity that rewrites a published one. -/
inductive RefreshStep
  | turn (turn : RefreshTurn)
  | signal (id : ℕ) (interface : InterfaceName) (changed : DBusPropertiesMap)
  | rewrite (hash : ℕ) (inst : DBusInstance)

/-- An enumeration resets an instance and lets the link rules write to it, so it may leave
any instance behind the pointer. -/
def rewriteInstance (hash : ℕ) (inst : DBusInstance) (state : RefreshState) : RefreshState :=
  match state.instances.find? hash with
  | some id => { state with objects := state.objects.set id (.dbus inst) }
  | none => state

def next (state : RefreshState) : RefreshStep → Option RefreshState
  | .turn turn => some (Fallible.left (tryProcess turn state))
  | .signal id interface changed =>
      some (Fallible.left (onInstance id (DBusInstance.fillMembers interface changed) state))
  | .rewrite hash inst => some (rewriteInstance hash inst state)

/-- Brokers whose entity has no instances yet. -/
def machine : Machine RefreshState RefreshStep :=
  Machine.ofNext (fun state => state.instances = OrderedMap.empty) next

omit [StdHash] in
theorem onInstance_length (id : ℕ) (action : EStateM Exception DBusInstance PUnit)
    (state : RefreshState) :
    Fallible.Leaves (fun after : RefreshState => after.instances = state.instances ∧
      after.objects.length = state.objects.length) (onInstance id action state) := by
  rw [onInstance]
  cases hobject : state.objects[id]? with
  | none => exact ⟨rfl, rfl⟩
  | some object =>
      cases object with
      | foreign hash => exact ⟨rfl, rfl⟩
      | dbus inst =>
          cases haction : action inst with
          | ok value after => simp [haction, Fallible.Leaves]
          | error exception after => simp [haction, Fallible.Leaves]

omit [StdHash] in
theorem rewriteInstance_length (hash : ℕ) (inst : DBusInstance) (state : RefreshState) :
    (rewriteInstance hash inst state).instances = state.instances ∧
      (rewriteInstance hash inst state).objects.length = state.objects.length := by
  rw [rewriteInstance]
  split
  · exact ⟨rfl, List.length_set ..⟩
  · exact ⟨rfl, rfl⟩

/-- The instance map has objects, each under its hash. -/
def Keyed (state : RefreshState) : Prop :=
  ∀ hash pointer, state.instances.find? hash = some pointer →
    ∃ object, state.objects[pointer]? = some object ∧ object.getHash = hash

theorem Keyed.pointsToObjects {state : RefreshState} (hkeyed : Keyed state) :
    PointsToObjects state := by
  intro hash pointer hfound
  obtain ⟨object, hobject, -⟩ := hkeyed hash pointer hfound
  exact (List.getElem?_eq_some_iff.mp hobject).1

/-- A publication has each object under its hash. -/
theorem keyed_setInstances (ids : List ℕ) (state : RefreshState) :
    Keyed (setInstances ids state) := by
  have hfold : ∀ ids : List ℕ, ∀ hash pointer,
      (ids.foldl (insertInstance state.objects) OrderedMap.empty).find? hash = some pointer →
      ∃ object, state.objects[pointer]? = some object ∧ object.getHash = hash := by
    intro ids
    induction ids using List.reverseRecOn with
    | nil => exact fun hash pointer hfound => absurd hfound (by simp)
    | append_singleton ids last ih =>
        intro hash pointer hfound
        rw [List.foldl_append, List.foldl_cons, List.foldl_nil, insertInstance] at hfound
        cases hobject : state.objects[last]? with
        | none =>
            simp only [hobject] at hfound
            exact ih hash pointer hfound
        | some object =>
            simp only [hobject, OrderedMap.find?_insertOrAssign] at hfound
            split_ifs at hfound with hhash
            · cases hfound
              exact ⟨object, hobject, hhash.symm⟩
            · exact ih hash pointer hfound
  exact hfold ids

omit [StdHash] in
theorem Grows.pointsToObjects {state after : RefreshState} (hgrows : Grows state after)
    (hpoints : PointsToObjects state) : PointsToObjects after := by
  intro hash id hfound
  rw [hgrows.instances] at hfound
  exact lt_of_lt_of_le (hpoints hash id hfound) hgrows.objects.length_le

/-- How a call ends: it does nothing, it raises and has only added objects and matches, or
it publishes. -/
theorem tryProcess_cases (turn : RefreshTurn) (state : RefreshState) :
    tryProcess turn state = .ok false state ∨
    (state.guardMutex = false ∧ ∃ exception after, Grows state after ∧
      tryProcess turn state = .error exception after) ∨
    (state.guardMutex = false ∧ ∃ ids prepared, Grows state prepared ∧
      tryProcess turn state =
        .ok true (setExecutionTime turn.recordNow (setInstances ids prepared))) := by
  rw [tryProcess]
  cases hlocked : state.guardMutex with
  | true => exact .inl rfl
  | false =>
      have hunlock : ∀ after, Grows { state with guardMutex := true } after →
          Grows state { after with guardMutex := false } := fun after hgrows =>
        ⟨hgrows.broker, hlocked.symm, hgrows.entityName, hgrows.entityQuery, hgrows.instances,
          hgrows.objects, hgrows.listeners⟩
      rw [if_neg Bool.false_ne_true]
      rcases processLocked_cases turn { state with guardMutex := true } with hidle |
        ⟨exception, after, hgrows, hraised⟩ | ⟨ids, prepared, hgrows, hpublished⟩
      · rw [hidle, ← hlocked]
        exact .inl rfl
      · rw [hraised]
        exact .inr (.inl ⟨rfl, exception, _, hunlock after hgrows, rfl⟩)
      · rw [hpublished]
        exact .inr (.inr ⟨rfl, ids, _, hunlock prepared hgrows, rfl⟩)

theorem machine_invariant :
    (machine : Machine RefreshState RefreshStep).Invariant PointsToObjects where
  start {state} hinitial hash id hfound := by
    rw [show state.instances = OrderedMap.empty from hinitial] at hfound
    cases hfound
  preserved {state label after} hpoints hstep := by
    cases label with
    | turn turn =>
        cases hstep
        rcases tryProcess_cases turn state with hidle | ⟨-, exception, grown, hgrows, hraised⟩ |
          ⟨-, ids, prepared, hgrows, hpublished⟩
        · rw [hidle]
          exact hpoints
        · rw [hraised]
          exact hgrows.pointsToObjects hpoints
        · rw [hpublished]
          exact (keyed_setInstances ids prepared).pointsToObjects
    | signal id interface changed =>
        cases hstep
        have hkept := (onInstance_length id (DBusInstance.fillMembers interface changed)
          state).of_left
        intro hash pointer hfound
        rw [hkept.1] at hfound
        rw [hkept.2]
        exact hpoints hash pointer hfound
    | rewrite visited inst =>
        cases hstep
        have hkept := rewriteInstance_length visited inst state
        intro hash pointer hfound
        rw [hkept.1] at hfound
        rw [hkept.2]
        exact hpoints hash pointer hfound

/-- In every state a broker reaches, whatever a refresh raises, wherever it raises it, the
published instances with their fields and the recorded time are as they were, the lock is
free, and a broker that was due is due. -/
theorem failed_refresh_intact {state after : RefreshState} {turn : RefreshTurn}
    {exception : Exception} (hreach : (machine : Machine RefreshState RefreshStep).Reachable state)
    (hraised : tryProcess turn state = .error exception after) : Intact state after := by
  have hpoints := machine_invariant.of_reachable hreach
  rcases tryProcess_cases turn state with hidle | ⟨hfree, raised, grown, hgrows, hresult⟩ |
    ⟨-, ids, prepared, -, hpublished⟩
  · rw [hidle] at hraised
    cases hraised
  · rw [hresult] at hraised
    cases hraised
    refine ⟨hgrows.instances, fun hash id hfound => ?_, by rw [hgrows.broker],
      hgrows.guardMutex.trans hfree, fun now hdue => hgrows.broker ▸ hdue⟩
    obtain ⟨more, hmore⟩ := hgrows.objects
    have hid := hpoints hash id hfound
    refine ⟨state.objects[id], List.getElem?_eq_getElem hid, ?_⟩
    rw [← hmore, List.getElem?_append_left hid, List.getElem?_eq_getElem hid]
  · rw [hpublished] at hraised
    cases hraised

omit [StdHash] in
/-- The first refresh publishes one instance, and the mapper fails in the second. -/
theorem failed_refresh_intact_mapper :
    ∃ (_ : StdHash) (state after : RefreshState) (turn : RefreshTurn) (exception : Exception),
      state.instances.find? 0 = some 0 ∧ tryProcess turn state = .error exception after ∧
      Intact state after := by
  let hash : StdHash := ⟨64, fun _ => 0⟩
  let query : EntityQuery :=
    ⟨.findObject none, ⟨OrderedMap.empty, OrderedMap.empty, OrderedMap.empty⟩, Except.ok⟩
  let start : RefreshState :=
    { broker := { timeout := 10, watch := true }, guardMutex := false, entityName := "Sensors"
      entityQuery := some (.dbus query), instances := OrderedMap.empty, objects := []
      listeners := [] }
  let reply (subTree : Except Exception (List (ObjectPath × List (ServiceName × List InterfaceName))))
      (now : ℤ) : RefreshTurn :=
    ⟨now, ⟨subTree, fun _ _ _ => OrderedMap.empty, fun _ => .ok []⟩, fun _ _ => .ok ⟨⟩, now⟩
  let first := reply (.ok [("/fan", [("svc", [])])]) 100
  let second := reply (.error (.obmcApp "ERROR of mapper call")) 200
  let state := Fallible.left (tryProcess first start)
  have hstart : (machine : Machine RefreshState RefreshStep).Reachable start :=
    Machine.Reachable.start (show start.instances = OrderedMap.empty from rfl)
  have hfirst : next start (.turn first) = some state := rfl
  have hreach : (machine : Machine RefreshState RefreshStep).Reachable state := hstart.next hfirst
  have hheld : state.instances.find? 0 = some 0 := by decide
  have hraised : tryProcess second state =
      .error (.obmcApp "ERROR of mapper call") (Fallible.left (tryProcess second state)) := rfl
  exact ⟨hash, state, _, second, _, hheld, hraised, failed_refresh_intact hreach hraised⟩

/-! ## The turn of the polling loop -/

/-- The turn of the loop in which a call is made. -/
def loopTurn (state : RefreshState) (turn : RefreshTurn) : CaptureLoop.Turn where
  checkNow := turn.now
  lockFree := !state.guardMutex
  recheckNow := turn.now
  replies := turn.replies
  bindListeners inst := inst.dbusQuery.searchPropertiesMap.keys.forM (turn.registers inst)
  recordNow := turn.recordNow

/-- The objects behind the broker of the loop and the instances of its entity. -/
structure Represents (id : ℕ) (state : RefreshState) (loop : CaptureLoop.CaptureState) : Prop where
  broker : state.broker = (loop.brokers id).toBroker
  entityQuery : state.entityQuery = (loop.brokers id).entityQuery.map .dbus
  entityName : state.entityName = (loop.store.objects (loop.brokers id).entity).name
  pointers : PointsToObjects state
  instances : ∀ hash, (state.instances.find? hash).bind (fun pointer => state.objects[pointer]?) =
    ((loop.store.objects (loop.brokers id).entity).instances.find? hash).map .dbus

/-- Pointers to instance objects. -/
abbrev PointTo (state : RefreshState) (ids : List ℕ) (instances : List DBusInstance) : Prop :=
  List.Forall₂ (fun id inst => state.objects[id]? = some (.dbus inst)) ids instances

omit [StdHash] in
theorem pointTo_created (state : RefreshState) (instances : List DBusInstance) :
    PointTo (state.grow (instances.map .dbus))
      (List.range' state.objects.length instances.length) instances := by
  rw [PointTo, List.forall₂_iff_get]
  refine ⟨by simp, fun index hid hinst => ?_⟩
  simp [RefreshState.grow, List.getElem?_append_right]

omit [StdHash] in
theorem Represents.grows {id : ℕ} {state after : RefreshState} {loop : CaptureLoop.CaptureState}
    (hrepresents : Represents id state loop) (hgrows : Grows state after) :
    Represents id after loop := by
  refine ⟨hgrows.broker.trans hrepresents.broker, hgrows.entityQuery.trans hrepresents.entityQuery,
    hgrows.entityName.trans hrepresents.entityName, hgrows.pointsToObjects hrepresents.pointers,
    fun hash => ?_⟩
  rw [← hrepresents.instances, hgrows.instances]
  cases hfound : state.instances.find? hash with
  | none => rfl
  | some pointer =>
      obtain ⟨more, hmore⟩ := hgrows.objects
      rw [Option.bind_some, Option.bind_some, ← hmore,
        List.getElem?_append_left (hrepresents.pointers hash pointer hfound)]

omit [StdHash] in
/-- The matches of an instance are registered up to the first exception. -/
theorem bindListeners_spec (turn : RefreshTurn) (id : ℕ) (inst : DBusInstance)
    (interfaces : List InterfaceName) (state : RefreshState) :
    ∃ listeners, Fallible.forEach (registerMatch turn id inst) interfaces state =
      match interfaces.forM (turn.registers inst) with
      | .ok _ => .ok ⟨⟩ { state with listeners := listeners }
      | .error exception => .error exception { state with listeners := listeners } := by
  induction interfaces generalizing state with
  | nil => exact ⟨state.listeners, rfl⟩
  | cons interface interfaces ih =>
      rw [Fallible.forEach, List.forM]
      cases hregister : turn.registers inst interface with
      | error exception =>
          have hraised : registerMatch turn id inst interface state = .error exception state := by
            rw [registerMatch, hregister]
          exact ⟨state.listeners, Fallible.bind_error hraised⟩
      | ok value =>
          have hregistered : registerMatch turn id inst interface state =
              .ok ⟨⟩ { state with listeners := state.listeners ++ [(id, interface)] } := by
            rw [registerMatch, hregister]
          obtain ⟨listeners, hrest⟩ :=
            ih { state with listeners := state.listeners ++ [(id, interface)] }
          exact ⟨listeners, (Fallible.bind_ok hregistered).trans hrest⟩

omit [StdHash] in
/-- The matches of all created instances are registered up to the first exception. -/
theorem watchAll_spec (turn : RefreshTurn) {ids : List ℕ} {instances : List DBusInstance}
    {state : RefreshState} (hpoint : PointTo state ids instances) :
    ∃ listeners, Fallible.forEach (watchInstance turn) ids state =
      match instances.forM fun inst =>
        inst.dbusQuery.searchPropertiesMap.keys.forM (turn.registers inst) with
      | .ok _ => .ok ⟨⟩ { state with listeners := listeners }
      | .error exception => .error exception { state with listeners := listeners } := by
  have hwalk : ∀ listeners, ∃ listeners', Fallible.forEach (watchInstance turn) ids
      { state with listeners := listeners } =
      match instances.forM fun inst =>
        inst.dbusQuery.searchPropertiesMap.keys.forM (turn.registers inst) with
      | .ok _ => .ok ⟨⟩ { state with listeners := listeners' }
      | .error exception => .error exception { state with listeners := listeners' } := by
    induction hpoint with
    | nil => exact fun listeners => ⟨listeners, rfl⟩
    | @cons id inst ids instances hobject hrest ih =>
        intro listeners
        rw [Fallible.forEach, List.forM]
        have hwatch : watchInstance turn id { state with listeners := listeners } =
            bindListeners turn id inst { state with listeners := listeners } := by
          simp only [watchInstance, hobject]
        obtain ⟨bound, hbound⟩ := bindListeners_spec turn id inst
          inst.dbusQuery.searchPropertiesMap.keys { state with listeners := listeners }
        rw [← bindListeners, ← hwatch] at hbound
        cases hregister : inst.dbusQuery.searchPropertiesMap.keys.forM (turn.registers inst) with
        | error exception =>
            rw [hregister] at hbound
            exact ⟨bound, Fallible.bind_error hbound⟩
        | ok value =>
            rw [hregister] at hbound
            obtain ⟨last, hlast⟩ := ih bound
            exact ⟨last, (Fallible.bind_ok hbound).trans hlast⟩
  exact hwalk state.listeners

/-- A publication shows the instances. -/
theorem setInstances_shows {ids : List ℕ} {instances : List DBusInstance} {state : RefreshState}
    (hpoint : PointTo state ids instances) (hash : ℕ) :
    ((setInstances ids state).instances.find? hash).bind (fun pointer => state.objects[pointer]?) =
      ((instances.foldl (fun stored inst => stored.insertOrAssign inst.getHash inst)
        (OrderedMap.empty : OrderedMap ℕ DBusInstance)).find? hash).map .dbus := by
  have hfold : ∀ (pointers : OrderedMap ℕ ℕ) (shown : OrderedMap ℕ DBusInstance),
      (∀ hash, (pointers.find? hash).bind (fun pointer => state.objects[pointer]?) =
        (shown.find? hash).map .dbus) →
      ∀ hash, ((ids.foldl (insertInstance state.objects) pointers).find? hash).bind
          (fun pointer => state.objects[pointer]?) =
        ((instances.foldl (fun stored inst => stored.insertOrAssign inst.getHash inst)
          shown).find? hash).map .dbus := by
    induction hpoint with
    | nil => exact fun pointers shown hshown => hshown
    | @cons id inst ids instances hobject hrest ih =>
        intro pointers shown hshown
        rw [List.foldl_cons, List.foldl_cons]
        apply ih
        intro wanted
        simp only [insertInstance, hobject, OrderedMap.find?_insertOrAssign,
          InstanceObject.getHash]
        by_cases hwanted : wanted = inst.getHash
        · rw [if_pos hwanted, if_pos hwanted, Option.bind_some, hobject]
          rfl
        · rw [if_neg hwanted, if_neg hwanted]
          exact hshown wanted
  exact hfold _ _ (fun hash => rfl) hash

/-- Before the publication the loop has the same instances, or the same exception. -/
theorem prepare_spec (turn : RefreshTurn) (asked : RefreshState) {query : EntityQuery}
    {state : RefreshState} {broker : EntityDbusBroker} (hbroker : state.broker = broker.toBroker)
    (hquery : broker.entityQuery = some query) (entityName : String) :
    match CaptureLoop.refresh broker entityName (loopTurn asked turn) with
    | .ok instances => ∃ ids prepared, prepare turn (.dbus query) state = .ok ids prepared ∧
        PointTo prepared ids instances
    | .error exception => ∃ prepared,
        prepare turn (.dbus query) state = .error exception prepared := by
  have hcreates := createsAll_processQuery query turn.replies
  simp only [CaptureLoop.refresh, hquery, loopTurn, ← hbroker]
  cases hprocess : query.process turn.replies with
  | error exception =>
      obtain ⟨objects, hraised⟩ := hcreates.raised hprocess state
      exact ⟨_, Fallible.bind_error hraised⟩
  | ok instances =>
      have hpoint := pointTo_created state instances
      have hcreated : process turn.replies (.dbus query) state =
          .ok (List.range' state.objects.length instances.length)
            (state.grow (instances.map .dbus)) := hcreates.created hprocess state
      have hwatches : (state.grow (instances.map .dbus)).broker.watch = state.broker.watch := rfl
      generalize List.range' state.objects.length instances.length = ids at hpoint hcreated
      generalize state.grow (instances.map .dbus) = created at hpoint hcreated hwatches
      have hrest : prepare turn (.dbus query) state =
          (watchInstances turn ids >>= fun _ => pure ids) created := Fallible.bind_ok hcreated
      rw [hrest]
      cases hwatch : state.broker.watch with
      | false =>
          have hidle : watchInstances turn ids created = .ok ⟨⟩ created := by
            rw [watchInstances, hwatches, hwatch, if_neg Bool.false_ne_true]
          exact ⟨ids, created, Fallible.bind_ok hidle, hpoint⟩
      | true =>
          obtain ⟨listeners, hlisten⟩ := watchAll_spec turn hpoint
          have hwatched : watchInstances turn ids created =
              Fallible.forEach (watchInstance turn) ids created := by
            rw [watchInstances, hwatches, hwatch, if_pos rfl]
          rw [hlisten] at hwatched
          cases hforM : instances.forM fun inst : DBusInstance =>
              inst.dbusQuery.searchPropertiesMap.keys.forM (turn.registers inst) with
          | error exception =>
              rw [hforM] at hwatched
              simp only [bind, Except.bind, if_true, hforM]
              exact ⟨_, Fallible.bind_error hwatched⟩
          | ok value =>
              rw [hforM] at hwatched
              simp only [bind, Except.bind, if_true, hforM]
              exact ⟨ids, _, Fallible.bind_ok hwatched, hpoint⟩

/-- A publication on the objects is the completion of the loop. -/
theorem Represents.complete {id : ℕ} {state : RefreshState} {loop : CaptureLoop.CaptureState}
    (hrepresents : Represents id state loop) {ids : List ℕ} {instances : List DBusInstance}
    (hpoint : PointTo state ids instances) (now : ℤ) :
    Represents id (setExecutionTime now (setInstances ids state))
      (loop.complete id ⟨instances, now⟩) := by
  refine ⟨?_, ?_, ?_, (keyed_setInstances ids state).pointsToObjects, fun hash => ?_⟩
  · simp [setExecutionTime, setInstances, CaptureLoop.CaptureState.complete,
      CaptureLoop.setExecutionTime, hrepresents.broker]
  · simp [setExecutionTime, setInstances, CaptureLoop.CaptureState.complete,
      CaptureLoop.setExecutionTime, hrepresents.entityQuery]
  · simp [setExecutionTime, setInstances, CaptureLoop.CaptureState.complete,
      CaptureLoop.setExecutionTime, EntityStore.setInstances, hrepresents.entityName]
  · have hshown := setInstances_shows hpoint hash
    have hkept : (setInstances ids state).objects = state.objects := rfl
    simpa [setExecutionTime, CaptureLoop.CaptureState.complete, CaptureLoop.setExecutionTime,
      EntityStore.setInstances, hkept] using hshown

/-- A call under the lock is the call of the loop. -/
theorem processLocked_refines {id : ℕ} {state : RefreshState} {loop : CaptureLoop.CaptureState}
    (hrepresents : Represents id state loop) (turn : RefreshTurn) {asked : RefreshState}
    (hfree : asked.guardMutex = false) :
    match CaptureLoop.tryProcess id (loopTurn asked turn) loop with
    | .ok done next => ∃ after, processLocked turn state = .ok done after ∧
        Represents id after next
    | .error exception next => ∃ after, processLocked turn state = .error exception after ∧
        Represents id after next := by
  have hlock : (loopTurn asked turn).lockFree = true := by
    rw [loopTurn, hfree]
    rfl
  have hnow : (loopTurn asked turn).recheckNow = turn.now := rfl
  have hrecord : (loopTurn asked turn).recordNow = turn.recordNow := rfl
  simp only [CaptureLoop.tryProcess, hlock, hnow, hrecord, Bool.true_eq_false, if_false,
    ← hrepresents.broker]
  rw [processLocked]
  cases hdue : state.broker.isTimeout turn.now with
  | false => exact ⟨state, rfl, hrepresents⟩
  | true =>
      simp only [Bool.true_eq_false, if_false]
      have hstateQuery := hrepresents.entityQuery
      cases hquery : (loop.brokers id).entityQuery with
      | none =>
          rw [hquery] at hstateQuery
          simp only [CaptureLoop.refresh, hquery, hstateQuery, Option.map_none,
            hrepresents.entityName]
          exact ⟨state, rfl, hrepresents⟩
      | some query =>
          rw [hquery] at hstateQuery
          have hprepare := prepare_spec turn asked hrepresents.broker hquery
            (loop.store.objects (loop.brokers id).entity).name
          have hgrows := prepare_grows turn (.dbus query) state
          simp only [hstateQuery, Option.map_some]
          cases hrefresh : CaptureLoop.refresh (loop.brokers id)
              (loop.store.objects (loop.brokers id).entity).name (loopTurn asked turn) with
          | error exception =>
              rw [hrefresh] at hprepare
              obtain ⟨prepared, hraised⟩ := hprepare
              rw [hraised] at hgrows ⊢
              exact ⟨prepared, rfl, hrepresents.grows hgrows⟩
          | ok instances =>
              rw [hrefresh] at hprepare
              obtain ⟨ids, prepared, hprepared, hpoint⟩ := hprepare
              rw [hprepared] at hgrows ⊢
              exact ⟨_, rfl, (hrepresents.grows hgrows).complete hpoint turn.recordNow⟩

/-- A call on the objects is the call of the loop. -/
theorem tryProcess_refines {id : ℕ} {state : RefreshState} {loop : CaptureLoop.CaptureState}
    (hrepresents : Represents id state loop) (turn : RefreshTurn) :
    match CaptureLoop.tryProcess id (loopTurn state turn) loop with
    | .ok done next => ∃ after, tryProcess turn state = .ok done after ∧ Represents id after next
    | .error exception next => ∃ after, tryProcess turn state = .error exception after ∧
        Represents id after next := by
  have hrelock : ∀ (locked : Bool) {after : RefreshState} {next : CaptureLoop.CaptureState},
      Represents id after next → Represents id { after with guardMutex := locked } next :=
    fun _ _ _ hafter =>
      ⟨hafter.broker, hafter.entityQuery, hafter.entityName, hafter.pointers, hafter.instances⟩
  rw [tryProcess]
  cases hlocked : state.guardMutex with
  | true =>
      simp only [CaptureLoop.tryProcess, loopTurn, hlocked, Bool.not_true, if_true]
      exact ⟨state, rfl, hrepresents⟩
  | false =>
      have hentered := processLocked_refines (hrelock true hrepresents) turn hlocked
      cases hprocess : CaptureLoop.tryProcess id (loopTurn state turn) loop with
      | ok done next =>
          rw [hprocess] at hentered
          obtain ⟨after, hafter, hrepresented⟩ := hentered
          exact ⟨_, by rw [hafter]; rfl, hrelock false hrepresented⟩
      | error exception next =>
          rw [hprocess] at hentered
          obtain ⟨after, hafter, hrepresented⟩ := hentered
          exact ⟨_, by rw [hafter]; rfl, hrelock false hrepresented⟩

end FailedRefresh

end ObmcWebapp.Brokers
