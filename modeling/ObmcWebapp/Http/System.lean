/-
# The running application

The server and the map of entities run together. Callbacks of the library follow the steps
of the map, the refreshes and signals of the brokers among them, and whatever changes the
sessions, in any order, and each is taken whole: nothing else happens to the map while a
request is answered. Without that, a refresh between two enumerations of one request can
lead to an answer that no map stands for.

In such a run every enumeration of a request settles, and an accepted request is answered by
what its document denotes. No callback changes what a document denotes, whatever it writes
to the map: asked again before the next refresh, the same is answered.
-/

import ObmcWebapp.Application.Snapshots
import ObmcWebapp.Graphql.Frame
import ObmcWebapp.Http.ServerRuns

namespace ObmcWebapp.Http

open ObmcWebapp.Core ObmcWebapp.Entities ObmcWebapp.Graphql ObmcWebapp.Service
  ObmcWebapp.Application

variable [StdHash]

namespace Processing

variable {library : AstLibrary} {depth : ℕ} {manager : EntityManager}
  {holds : EntityStore → Prop}

omit [StdHash] in
/-- The sessions and the authentication are no part of the map. -/
theorem onServing_preserves {α : Type} {action : EStateM Exception (Serving EntityStore) α}
    (haction : ∀ serving, Fallible.Leaves
      (fun after : Serving EntityStore => after.world = serving.world) (action serving)) :
    Fallible.Preserves (fun state : Processing => holds state.serving.world)
      (onServing action) := by
  intro state hstate
  have hleaves := haction state.serving
  rw [onServing, Fallible.zoom, Fallible.rethrow]
  cases hresult : action state.serving with
  | ok value serving =>
      rw [hresult] at hleaves
      have hkept : holds serving.world := Eq.mpr (congrArg holds hleaves) hstate
      exact hkept
  | error exception serving =>
      rw [hresult] at hleaves
      have hkept : holds serving.world := Eq.mpr (congrArg holds hleaves) hstate
      exact hkept

/-- A call keeps what every enumeration keeps. -/
theorem process_preserves
    (henumerate : ∀ entity, Fallible.Preserves holds (getInstances depth entity none))
    (call : ProcessCall) :
    Fallible.Preserves (fun state : Processing => holds state.serving.world)
      (process library depth manager call) := by
  have hany : ∀ {ε σ α : Type} (result : EStateM.Result ε σ α),
      Fallible.Leaves (fun _ : σ => True) result := by
    intro ε σ α result
    cases result <;> trivial
  apply Fallible.Preserves.bind
  · exact onServing_preserves fun serving => (hany _).zoom fun _ _ => rfl
  · intro _
    apply Fallible.Preserves.bind
    · exact onServing_preserves fun serving => (hany _).zoom fun _ _ => rfl
    · intro accepted
      cases accepted with
      | false => exact .pure PUnit.unit
      | true =>
          intro state hstate
          rw [if_pos rfl, runHandler]
          split_ifs
          · exact hstate
          · exact (run_preserves henumerate library _ state.answering hstate).zoom
              fun _ hnext => hnext

end Processing

namespace System

/-- What happens: a callback, a step of the map, or others change the sessions. -/
inductive Event
  | callback (callback : Server.Callback)
  | entities (step : StoreStep)
  | sessions (service : ServiceState)

/-- The steps that are callbacks of the library. -/
def FromLibrary : Server.Callback → Prop
  | .others _ _ => False
  | _ => True

section Machine

variable (parsers : BodyParsers) (dump : Json → Bytes) (library : AstLibrary) (depth : ℕ)

/-- The stack has room for an enumeration of an entity and one of its provider. -/
inductive Steps : Server → Event → Server → Prop
  | callback {server after : Server} {callback : Server.Callback} (hlibrary : FromLibrary callback)
      (hnext : Server.next parsers dump library (depth + 2) entityManager server callback =
        some after) : Steps server (.callback callback) after
  | entities {server : Server} {step : StoreStep} {store : EntityStore}
      (hstep : Application.Steps server.store step store) :
      Steps server (.entities step) { server with store }
  | sessions {server : Server} (service : ServiceState) :
      Steps server (.sessions service) { server with service }

/-- The application from its start. -/
def machine : Machine Server Event where
  initial server := server.service = {} ∧ (∀ id, server.connections id = none) ∧
    server.store = initEntityMap
  step := Steps parsers dump library depth

end Machine

variable {parsers : BodyParsers} {dump : Json → Bytes} {library : AstLibrary} {depth : ℕ}
  {server : Server}

/-- A run of the application is one of the server among arbitrary others. -/
theorem server_of_reachable (hreach : (machine parsers dump library depth).Reachable server) :
    (Server.machine parsers dump library (depth + 2) entityManager).Reachable server := by
  have hstart : ∀ {server : Server}, (machine parsers dump library depth).initial server →
      (Server.machine parsers dump library (depth + 2) entityManager).initial server :=
    fun hinitial => ⟨hinitial.1, hinitial.2.1⟩
  apply Machine.Reachable.project hstart _ hreach
  intro state event next _ htaken
  cases htaken with
  | callback _ hnext => exact .inr ⟨_, hnext⟩
  | @entities _ store _ => exact .inr ⟨.others state.service store, rfl⟩
  | sessions service => exact .inr ⟨.others service state.store, rfl⟩

/-- A callback keeps what every enumeration keeps of the map. -/
theorem next_preserves {holds : EntityStore → Prop}
    (henumerate : ∀ entity, Fallible.Preserves holds (getInstances (depth + 2) entity none))
    {callback : Server.Callback} (hlibrary : FromLibrary callback) {after : Server}
    (hnext : Server.next parsers dump library (depth + 2) entityManager server callback =
      some after) (hstore : holds server.store) : holds after.store := by
  cases callback with
  | accept id environment contentType =>
      rw [Server.next] at hnext
      split at hnext
      · cases hnext
        exact hstore
      · cases hnext
  | inHandler id received =>
      obtain ⟨connection, -, rfl⟩ := Option.map_eq_some_iff.mp hnext
      exact hstore
  | inProcessor id =>
      obtain ⟨connection, left, -, -, rfl⟩ := Server.next_inProcessor hnext
      exact hstore
  | response id moment =>
      obtain ⟨connection, -, rfl⟩ := Server.next_response hnext
      rw [Server.response]
      split
      · next router session _ _ =>
          have hleaves : Fallible.Leaves (fun state : Processing => holds state.serving.world)
              (Processing.process library (depth + 2) entityManager
                (moment.call connection.environment) (server.processing session router)) :=
            Processing.process_preserves henumerate _ _ hstore
          cases hprocess : Processing.process library (depth + 2) entityManager
              (moment.call connection.environment) (server.processing session router) with
          | ok value left =>
              rw [hprocess] at hleaves
              exact hleaves
          | error failure left =>
              rw [hprocess] at hleaves
              exact hleaves
      · exact hstore
  | others service store => exact hlibrary.elim

/-- The map of the application is configured, also while requests enumerate it. -/
theorem configured_of_reachable (hreach : (machine parsers dump library depth).Reachable server) :
    Configured server.store := by
  have hconfigured := storeMachine_configured
  have hinvariant : (machine parsers dump library depth).Invariant
      fun server => Configured server.store := by
    constructor
    · exact fun hinitial => hconfigured.start hinitial.2.2
    · intro state event next hstore htaken
      cases htaken with
      | callback hlibrary hnext =>
          apply next_preserves _ hlibrary hnext hstore
          exact fun entity store hstore =>
            configured_undisturbed.getInstances (depth + 2) entity none hstore
      | entities hstep => exact hconfigured.preserved hstore hstep
      | sessions service => exact hstore
  exact hinvariant.of_reachable hreach

/-- A sequence of callbacks extends a run. -/
theorem run_callbacks {callbacks : List Server.Callback}
    (hlibrary : ∀ callback ∈ callbacks, FromLibrary callback) {before : Server} :
    ∀ {events : List Event} {server after : Server},
      (machine parsers dump library depth).Run before events server →
      callbacks.foldlM (Server.next parsers dump library (depth + 2) entityManager) server =
        some after →
      (machine parsers dump library depth).Run before (events ++ callbacks.map .callback) after := by
  induction callbacks with
  | nil =>
      intro events server after hrun hfold
      cases hfold
      rwa [List.map_nil, List.append_nil]
  | cons callback callbacks ih =>
      intro events server after hrun hfold
      rw [List.foldlM_cons] at hfold
      obtain ⟨mid, hnext, hrest⟩ := Option.bind_eq_some_iff.mp hfold
      have htaken := hrun.extend (.callback (hlibrary callback (List.mem_cons_self ..)) hnext)
      rw [List.map_cons, ← List.singleton_append, ← List.append_assoc]
      exact ih (fun later hlater => hlibrary later (List.mem_cons_of_mem _ hlater)) htaken hrest

/-- No step of the map itself. -/
def Event.Quiet : Event → Prop
  | .entities _ => False
  | _ => True

/-- Without steps of the map itself, requests see at the end what they saw before. -/
theorem requestSnapshot_of_run {before : Server} {events : List Event}
    (hreach : (machine parsers dump library depth).Reachable before)
    (hrun : (machine parsers dump library depth).Run before events server)
    (hquiet : ∀ event ∈ events, event.Quiet) :
    Configured server.store ∧ requestSnapshot server.store = requestSnapshot before.store := by
  induction hrun with
  | refl => exact ⟨configured_of_reachable hreach, rfl⟩
  | extend prior taken ih =>
      have hlast := ih fun event hevent => hquiet event (List.mem_append_left _ hevent)
      have hkeeps : ∀ entity, Fallible.Preserves
          (fun store => Configured store ∧
            requestSnapshot store = requestSnapshot before.store)
          (getInstances (depth + 2) entity none) := by
        rintro entity store ⟨hstore, hsnapshot⟩
        apply (requestSnapshot_getInstances depth entity hstore).imp
        exact fun after hafter => ⟨hafter.1, hafter.2.trans hsnapshot⟩
      cases taken with
      | callback hlibrary hnext => exact next_preserves hkeeps hlibrary hnext hlast
      | entities hstep => exact (hquiet _ (List.mem_append_right _ (List.mem_singleton_self _))).elim
      | sessions service => exact hlast

/-- The response a document stands for over a store; none when its request fails. -/
def denoted (store : EntityStore) (gqlNode : GqlNode) : Option Response :=
  let snapshot := requestSnapshot store
  match snapshot.verdictDocument gqlNode with
  | .passes => some ((({} : Response).push (.object [(GraphqlRouter.respFieldData,
      snapshot.data (gqlNode.getD []))])).setStatus .ok)
  | .answered error => some ((({} : Response).push (.object [(GraphqlRouter.respFieldError,
      error.whatJson)])).setStatus .ok)
  | .fails => none

/-- Over a configured store, `run` answers what the document denotes. -/
theorem run_denoted (library : AstLibrary) (depth : ℕ) {store : EntityStore}
    (hconfigured : Configured store) (gqlNode : GqlNode) :
    match denoted store gqlNode with
    | some response => ∃ after,
        GraphqlRouter.run library (depth + 2) entityManager gqlNode ⟨store, {}⟩ =
          .ok ⟨⟩ ⟨after, response⟩
    | none => ∃ failure after,
        GraphqlRouter.run library (depth + 2) entityManager gqlNode ⟨store, {}⟩ =
          .error failure after := by
  have hrun := Snapshot.run_spec (steady_of_configured hconfigured depth) library gqlNode
    (show (linkage hconfigured).Settled (⟨store, {}⟩ : GraphqlRouter.Answering).store
      from Linkage.settled_origin (linkage hconfigured))
  have hmanager : (requestSnapshot store).manager = entityManager := rfl
  rw [hmanager] at hrun
  rw [denoted]
  cases hverdict : (requestSnapshot store).verdictDocument gqlNode with
  | passes =>
      rw [hverdict] at hrun
      exact hrun
  | answered error =>
      rw [hverdict] at hrun
      exact hrun
  | fails =>
      rw [hverdict] at hrun
      exact hrun

/-- The callback shows one message with the response, or, without one, it is none with a
defined end or fails and shows nothing. -/
def Shows (dump : Json → Bytes) (tm : Tm) (id : ℕ) (after : Option Server) :
    Option Response → Prop
  | some response => ∃ left, after = some left ∧
      left.observed id = some (written dump tm response, .completed)
  | none => ∀ left, after = some left → left.observed id = some ([], .failed)

/-- In every run, an accepted request to a route shows what its document denotes since the
last step of the map itself, written as one message, and is not answered when it denotes
nothing; the document comes from a body of the connection, and the other connections are
left alone. -/
theorem accepted_denotes {before : Server} {events : List Event}
    (hreach : (machine parsers dump library depth).Reachable before)
    (hrun : (machine parsers dump library depth).Run before events server)
    (hquiet : ∀ event ∈ events, event.Quiet) {id : ℕ}
    {connection : Connection} (hlive : server.live? id = some connection) {router : RouterObject}
    (hrouter : connection.router = some router)
    (huri : connection.environment.requestUri ∈ routes) {moment : Moment}
    (haccepted : Router.Accepted (moment.call connection.environment)
      (⟨server.service, none, {}, ()⟩ : Serving Unit)) :
    let gqlNode := router.handler.getD none
    let after := Server.next parsers dump library (depth + 2) entityManager server
      (.response id moment)
    (∀ document ∈ gqlNode, ∃ body ∈ connection.bodies, ParsesTo parsers body document) ∧
    Shows dump moment.tm id after (denoted before.store gqlNode) ∧
    ∀ left, after = some left → ∀ other ≠ id, left.connections other = server.connections other := by
  intro gqlNode after
  obtain ⟨hconfigured, hsnapshot⟩ := requestSnapshot_of_run hreach hrun hquiet
  have hpending := (Server.sound_of_reachable (server_of_reachable (hreach.run hrun))).pending hlive
  obtain ⟨session, hrequest, hstate⟩ := Server.processing_of_pending server hpending hrouter
  obtain ⟨serving, hresponse, hprocess⟩ :=
    Processing.process_of_accepted library (depth + 2) entityManager haccepted
  have hcall := hprocess server.store router.handler
  rw [← hstate, Processing.runHandler, if_neg (by simp [Moment.call, huri])] at hcall
  have hrun := run_denoted library depth hconfigured gqlNode
  have hanswering : (Processing.withWorld server.store router.handler serving).answering =
      ⟨server.store, {}⟩ := by
    rw [Processing.answering, Processing.withWorld, hresponse]
  have hsame : denoted before.store gqlNode = denoted server.store gqlNode := by
    rw [denoted, denoted, hsnapshot]
  rw [hsame]
  refine ⟨fun document => hpending.own_document hrouter, ?_, ?_⟩
  · cases hdenoted : denoted server.store gqlNode with
    | some response =>
        rw [hdenoted] at hrun
        obtain ⟨answered, hrun⟩ := hrun
        rw [← hanswering] at hrun
        have hleft := hcall.trans (Fallible.zoom_ok hrun)
        have hresponds : server.responds library (depth + 2) entityManager moment connection =
            true := by
          simp only [Server.responds, hrouter, hrequest, hleft]
        refine ⟨server.response dump library (depth + 2) entityManager moment id connection, ?_, ?_⟩
        · show (server.live? id).bind _ = _
          rw [hlive, Option.bind_some, if_pos hresponds]
        · simp only [Server.response, hrouter, hrequest, hleft, Server.observed_putProcessing,
            hpending.silent, List.nil_append]
          rfl
    | none =>
        rw [hdenoted] at hrun
        obtain ⟨failure, answered, hrun⟩ := hrun
        rw [← hanswering] at hrun
        have hleft := hcall.trans (Fallible.zoom_error hrun)
        intro left hnext
        obtain ⟨found, hfound, rfl⟩ := Server.next_response hnext
        obtain rfl : connection = found := Option.some.inj (hlive.symm.trans hfound)
        simp only [Server.response, hrouter, hrequest, hleft, Server.observed_putProcessing,
          hpending.silent]
  · intro left hnext other hother
    obtain ⟨found, hfound, rfl⟩ := Server.next_response hnext
    obtain rfl : connection = found := Option.some.inj (hlive.symm.trans hfound)
    rw [Server.response]
    split
    · split <;> exact Server.connections_put_of_ne _ _ hother
    · rfl

def chassisDocument : Document :=
  [.operation { selectionSet := [.object none "Chassis" [.field none "Type"]] }]

/-- The body `{}` asks for the type of the chassis. -/
def chassisParsers : BodyParsers where
  parse body := if body = [123, 125] then
    some (.object [("query", .string "{ Chassis { Type } }")]) else none
  parseString _ := some chassisDocument
  parse_empty := rfl

def chassisToken : String := "abcdefghijklmnopqrst"

def chassisEnvironment : Environment where
  requestMethod := .get
  others := OrderedMap.ofList [(Authorization.xAuthToken, chassisToken)]
  cookies := []
  authorization := ""
  userAgent := ""
  requestUri := "/api/graphql"

/-- The sessions hold the one of the request. -/
def chassisService : ServiceState where
  systemUuid := some "bmc"
  store := { authTokens := OrderedMap.ofList [(chassisToken, {
    uniqueId := "1", sessionToken := chassisToken, username := "root", csrfToken := chassisToken })] }

def chassisCallbacks : List Server.Callback := [
  .accept 0 chassisEnvironment "application/json",
  .inHandler 0 [123, 125],
  .inProcessor 0]

def chassisMoment : Moment where
  construction := Router.uuidFile
  reading := Router.uuidFile
  clock := ⟨⟨5, 6⟩, ⟨5, 6⟩, ⟨5, 6⟩⟩
  isPermitted := true
  tm := Server.firstMoment.tm

omit [StdHash] in
/-- The request for the type of the chassis shows the denotation of its document. -/
theorem accepted_denotes_chassis :
    let _ : StdHash := ⟨64, fun _ => 0⟩
    ∃ (server after : Server) (response : Response),
      (machine chassisParsers (fun _ => []) .depthFirst 0).Reachable server ∧
      denoted initEntityMap (some chassisDocument) = some response ∧
      Server.next chassisParsers (fun _ => []) .depthFirst 2 entityManager server
        (.response 0 chassisMoment) = some after ∧
      after.observed 0 = some (written (fun _ => []) chassisMoment.tm response, .completed) := by
  intro _
  have hfold : ∃ server connection router, chassisCallbacks.foldlM
      (Server.next chassisParsers (fun _ => []) .depthFirst 2 entityManager)
      { Server.atStart initEntityMap with service := chassisService } = some server ∧
      server.live? 0 = some connection ∧ connection.router = some router ∧
      router.handler = some (some chassisDocument) ∧
      connection.environment = chassisEnvironment ∧ server.service = chassisService :=
    ⟨_, _, _, rfl, rfl, rfl, rfl, rfl, rfl⟩
  obtain ⟨server, connection, router, hfold, hlive, hrouter, hhandler, henvironment, hservice⟩ :=
    hfold
  have hlibrary : ∀ callback ∈ chassisCallbacks, FromLibrary callback := by
    simp [chassisCallbacks, FromLibrary]
  have hstart : (machine chassisParsers (fun _ => []) .depthFirst 0).Reachable
    (Server.atStart initEntityMap) := .start ⟨rfl, fun _ => rfl, rfl⟩
  have hrun := run_callbacks hlibrary ((Machine.Run.refl (Server.atStart initEntityMap)).extend
    (.sessions chassisService)) hfold
  have hquiet : ∀ event ∈ [] ++ [Event.sessions chassisService] ++ chassisCallbacks.map .callback,
      event.Quiet := by
    simp [chassisCallbacks, Event.Quiet]
  have haccepted : Router.Accepted (chassisMoment.call connection.environment)
      (⟨server.service, none, {}, ()⟩ : Serving Unit) := by
    rw [henvironment, hservice]
    exact ⟨_, _, rfl, rfl⟩
  obtain ⟨response, hdenoted⟩ : ∃ response, denoted initEntityMap (some chassisDocument) =
      some response := ⟨_, rfl⟩
  obtain ⟨-, hshown, -⟩ := accepted_denotes hstart hrun hquiet hlive hrouter
    (henvironment ▸ List.mem_singleton.mpr rfl) haccepted
  have hstore : (Server.atStart initEntityMap).store = initEntityMap := rfl
  rw [hhandler, Option.getD_some, hstore, hdenoted] at hshown
  obtain ⟨after, hnext, hobserved⟩ := hshown
  exact ⟨server, after, response, hstart.run hrun, hdenoted, hnext, hobserved⟩

end System

end ObmcWebapp.Http
