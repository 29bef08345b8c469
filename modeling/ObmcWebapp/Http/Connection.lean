/-
# Connections

The FastCGI library makes a connection for each request and calls it back: `inHandler`
for every part of the body, `inProcessor` once the body is complete, `response` for the
answer. The callbacks of different connections follow each other in any order, and in
between brokers change the published entities and others the sessions. A connection whose
`response` returned true gets no more callbacks, and neither does one that an exception
left.

A callback is taken whole, as one step: while it runs, nothing else touches the sessions
or the entities. The program does not ensure that. Its threads share both without a lock,
and a refresh may come between two enumerations of one request. What is said of steps is
said of the runs in which callbacks and refreshes do not overlap. A callback with undefined
behaviour is no step either, so no run goes beyond one.

The output of a connection is what its callbacks write. That `inProcessor` returned false
only tells the library that the body was not taken; the library may then answer the
client itself, and that is left out.

The request and the router are made on the way. The router keeps the response and the
handler; the handler parses the body before anyone is authenticated and answers only
after that.
-/

import ObmcWebapp.Application.RequestBodies
import ObmcWebapp.Http.Message
import ObmcWebapp.Library.Execution
import ObmcWebapp.Service.Responding

namespace ObmcWebapp.Http

open ObmcWebapp.Core ObmcWebapp.Entities ObmcWebapp.Graphql ObmcWebapp.Service
  ObmcWebapp.Application

/-- The router: its response and the handler it made, by the document of the handler. -/
structure RouterObject where
  response : Response := {}
  handler : Option GqlNode := none

/-- What became of a connection. -/
inductive Phase
  | live
  /-- `response` returned true. -/
  | completed
  /-- An exception left a callback. -/
  | failed
  deriving DecidableEq, Repr

structure Connection where
  environment : Environment
  contentType : String
  postBuffer : List UInt8 := []
  /-- The request object, by its session. -/
  request : Option (Option UserSession) := none
  router : Option RouterObject := none
  /-- What the connection wrote. -/
  out : Bytes := []
  phase : Phase := .live
  /-- History: the bodies that were given to the handler. -/
  bodies : List (List UInt8) := []

/-- What a call of `response` meets. -/
structure Moment where
  construction : Service.Reading
  reading : Service.Reading
  clock : Authorization.AuthClock
  isPermitted : Bool
  tm : Tm

/-- The call of `process` at a moment. -/
def Moment.call (moment : Moment) (environment : Environment) : ProcessCall where
  construction := moment.construction
  reading := moment.reading
  environment := environment
  clock := moment.clock
  isPermitted := moment.isPermitted

namespace Connection

/-- The request as the handler sees it. -/
def postRequest (connection : Connection) : PostRequest where
  environment := connection.environment
  contentType := connection.contentType
  postBuffer := connection.postBuffer

/-- `inHandler`, after the library kept the part of the body. -/
def inHandler (received : List UInt8) (connection : Connection) : Connection :=
  { connection with
    postBuffer := connection.postBuffer ++ received
    request := some (connection.request.getD none) }

/-- `router->preHandler()`. -/
def preHandler (parsers : BodyParsers) (router : RouterObject) (connection : Connection) :
    EStateM.Result Failure Connection Bool :=
  let given := { connection with bodies := connection.bodies ++ [connection.postBuffer] }
  match Application.preHandler parsers connection.postRequest router.handler with
  | .ok accepted handler => .ok accepted { given with router := some { router with handler } }
  | .error failure handler => .error failure { given with router := some { router with handler } }

/-- `inProcessor`. -/
def inProcessor (parsers : BodyParsers) : EStateM Failure Connection Bool := fun connection =>
  if connection.contentType = "" then .ok false connection
  else
    match connection.request with
    | none => .ok false connection
    | some _ =>
        let router := connection.router.getD {}
        if validate connection.postRequest then preHandler parsers router connection
        else .ok false { connection with router := some router }

end Connection

/-- What `process` works on. -/
structure Processing where
  serving : Serving EntityStore
  handler : Option GqlNode

namespace Processing

def onServing {α : Type} (action : EStateM Exception (Serving EntityStore) α) :
    EStateM Failure Processing α :=
  Fallible.zoom serving (fun serving state => { state with serving := serving })
    (Fallible.rethrow .raised action)

def answering (state : Processing) : GraphqlRouter.Answering :=
  ⟨state.serving.world, state.serving.response⟩

/-- Keep the handler that answered, with what it did. -/
def putAnswering (answered : GraphqlRouter.Answering) (state : Processing) : Processing where
  serving := { state.serving with world := answered.store, response := answered.response }
  handler := some (state.handler.getD none)

variable [StdHash] (library : AstLibrary) (depth : ℕ) (manager : EntityManager)

/-- Run the handler of the router, or the one of the route; a URI without a route is left
with the response as it is. -/
def runHandler (environment : Environment) : EStateM Failure Processing PUnit := fun state =>
  if state.handler.isNone && !routes.contains environment.requestUri then .ok ⟨⟩ state
  else
    Fallible.zoom answering putAnswering
      (GraphqlRouter.run library depth manager (state.handler.getD none)) state

/-- `Router::process` with the GraphQL handler. -/
def process (call : ProcessCall) : EStateM Failure Processing PUnit := do
  onServing (Router.readConfig call)
  let accepted ← onServing (Router.authenticate call)
  if accepted then runHandler library depth manager call.environment else pure ⟨⟩

end Processing

structure Server where
  service : ServiceState := {}
  store : EntityStore
  connections : ℕ → Option Connection

namespace Server

def put (server : Server) (id : ℕ) (connection : Connection) : Server :=
  { server with connections := Function.update server.connections id (some connection) }

@[simp]
theorem connections_put (server : Server) (id : ℕ) (connection : Connection) :
    (server.put id connection).connections id = some connection := by
  simp [put]

theorem connections_put_of_ne (server : Server) {id other : ℕ} (connection : Connection)
    (hother : other ≠ id) :
    (server.put id connection).connections other = server.connections other := by
  simp [put, hother]

/-- What `process` meets of a connection. -/
def processing (server : Server) (session : Option UserSession) (router : RouterObject) :
    Processing :=
  ⟨⟨server.service, session, router.response, server.store⟩, router.handler⟩

/-- What a callback left of the processing. -/
def putProcessing (server : Server) (id : ℕ) (connection : Connection) (left : Processing) :
    Server :=
  { server with service := left.serving.service, store := left.serving.world }.put id
    { connection with
      request := some left.serving.session
      router := some ⟨left.serving.response, left.handler⟩ }

variable [StdHash] (parsers : BodyParsers) (dump : Json → Bytes) (library : AstLibrary)
  (depth : ℕ) (manager : EntityManager)

/-- `response`: without a router it returns false; otherwise it processes the request and
writes the response. What stands here for a processing without a defined end means
nothing; see `responds`. -/
def response (moment : Moment) (id : ℕ) (connection : Connection) (server : Server) : Server :=
  match connection.router, connection.request with
  | some router, some session =>
      match Processing.process library depth manager (moment.call connection.environment)
        (server.processing session router) with
      | .ok _ left => server.putProcessing id
          { connection with
            out := connection.out ++ written dump moment.tm left.serving.response
            phase := .completed }
          { left with serving :=
            { left.serving with response := withHeaders dump moment.tm left.serving.response } }
      | .error _ left => server.putProcessing id { connection with phase := .failed } left
  | _, _ => server

/-- The processing that `response` does ends in a defined way. -/
def responds (moment : Moment) (connection : Connection) (server : Server) : Bool :=
  match connection.router, connection.request with
  | some router, some session =>
      match Processing.process library depth manager (moment.call connection.environment)
        (server.processing session router) with
      | .ok _ _ => true
      | .error failure _ => failure.Defined
  | _, _ => true

/-- `inProcessor`, after which the library drops the body. -/
def inProcessor (id : ℕ) (connection : Connection) (server : Server) : Option Server :=
  match Connection.inProcessor parsers connection with
  | .ok _ left => some (server.put id { left with postBuffer := [] })
  | .error failure left =>
      if failure.Defined then some (server.put id { left with phase := .failed }) else none

/-- The steps of the library, and those of others, which may change in any way what the
connections share. -/
inductive Callback
  | accept (id : ℕ) (environment : Environment) (contentType : String)
  | inHandler (id : ℕ) (received : List UInt8)
  | inProcessor (id : ℕ)
  | response (id : ℕ) (moment : Moment)
  | others (service : ServiceState) (store : EntityStore)

/-- The connection a callback may be made on. -/
def live? (server : Server) (id : ℕ) : Option Connection :=
  (server.connections id).filter fun connection => connection.phase = .live

/-- What a whole callback leaves, if it ends in a defined way. -/
def next (server : Server) : Callback → Option Server
  | .accept id environment contentType =>
      match server.connections id with
      | none => some (server.put id { environment, contentType })
      | some _ => none
  | .inHandler id received =>
      (server.live? id).map fun connection => server.put id (connection.inHandler received)
  | .inProcessor id =>
      (server.live? id).bind fun connection => server.inProcessor parsers id connection
  | .response id moment =>
      (server.live? id).bind fun connection =>
        if server.responds library depth manager moment connection then
          some (server.response dump library depth manager moment id connection)
        else none
  | .others service store => some { server with service, store }

variable {parsers dump library depth manager}

/-- A step of `inProcessor` puts its connection back. -/
theorem next_inProcessor {server after : Server} {id : ℕ}
    (hnext : next parsers dump library depth manager server (.inProcessor id) = some after) :
    ∃ connection left, server.live? id = some connection ∧
      server.inProcessor parsers id connection = some after ∧ after = server.put id left := by
  obtain ⟨connection, hlive, hleft⟩ := Option.bind_eq_some_iff.mp hnext
  have hdone := hleft
  rw [Server.inProcessor] at hleft
  split at hleft
  · exact ⟨connection, _, hlive, hdone, (Option.some.inj hleft).symm⟩
  · split_ifs at hleft
    exact ⟨connection, _, hlive, hdone, (Option.some.inj hleft).symm⟩

/-- A step of `response` is that of the connection, with a defined end. -/
theorem next_response {server after : Server} {id : ℕ} {moment : Moment}
    (hnext : next parsers dump library depth manager server (.response id moment) = some after) :
    ∃ connection, server.live? id = some connection ∧
      server.response dump library depth manager moment id connection = after := by
  obtain ⟨connection, hlive, hleft⟩ := Option.bind_eq_some_iff.mp hnext
  split_ifs at hleft
  exact ⟨connection, hlive, Option.some.inj hleft⟩

variable (parsers dump library depth manager)

/-- The server from its start, without connections. -/
def machine : Machine Server Callback :=
  .ofNext (fun server => server.service = {} ∧ ∀ id, server.connections id = none)
    (next parsers dump library depth manager)

end Server

end ObmcWebapp.Http
