/-
# Runs of the server

Every connection of a running server has written nothing, or exactly one message that
reads back, however the callbacks of the connections and the steps of the others
interleave. What the message says depends on the own request of the connection: on its
sessions, its URI and a body that it received itself.
-/

import ObmcWebapp.Http.Answers

namespace ObmcWebapp.Http

open ObmcWebapp.Core ObmcWebapp.Entities ObmcWebapp.Graphql ObmcWebapp.Service
  ObmcWebapp.Application ObmcWebapp.Service.Authorization

/-- The document of a body. -/
def ParsesTo (parsers : BodyParsers) (body : List UInt8) (document : Document) : Prop :=
  ∃ members query, parsers.parse (cString body) = some (.object members) ∧
    members.lookup "query" = some (.string query) ∧
    parsers.parseString (cText query) = some document

theorem rejectBody_leaves (request : PostRequest) (gqlNode : GqlNode) :
    Fallible.Leaves (fun after => after = gqlNode) (rejectBody request gqlNode) := by
  rw [rejectBody]
  split_ifs <;> rfl

/-- The handler keeps its document or takes that of the body. -/
theorem preHandlers_leaves (parsers : BodyParsers) (request : PostRequest) (gqlNode : GqlNode) :
    Fallible.Leaves (fun after : GqlNode => ∀ document, after = some document →
      gqlNode = some document ∨ ParsesTo parsers request.postBuffer document)
      (preHandlers parsers request gqlNode) := by
  by_cases hquery : HasQuery parsers request.postBuffer
  · obtain ⟨members, query, hparse, hlookup⟩ := hquery
    rw [preHandlers_of_query hparse hlookup]
    exact fun document hdocument => .inr ⟨members, query, hparse, hlookup, hdocument⟩
  -- without a query the document stays
  suffices hsame : Fallible.Leaves (fun after => after = gqlNode)
      (preHandlers parsers request gqlNode) from by
    apply hsame.imp
    rintro after rfl document hdocument
    exact .inl hdocument
  by_cases hbuffer : request.postBuffer = []
  · rw [preHandlers_of_nil hbuffer]
    rfl
  by_cases hkeys : TakesKeys parsers request.postBuffer
  · rw [preHandlers_of_keys hbuffer hkeys hquery]
    exact rejectBody_leaves request gqlNode
  · simp only [TakesKeys, not_forall, not_or] at hkeys
    obtain ⟨value, hparse, hobject, hnull⟩ := hkeys
    rw [preHandlers_raises hparse hobject hnull]
    rfl

/-- The router has a handler for a route only, and its document comes from a body. -/
theorem preHandler_leaves (parsers : BodyParsers) (request : PostRequest)
    (handler : Option GqlNode) :
    Fallible.Leaves (fun after : Option GqlNode =>
      (after.isSome → handler.isSome ∨ request.environment.requestUri ∈ routes) ∧
      ∀ document, after = some (some document) →
        handler = some (some document) ∨ ParsesTo parsers request.postBuffer document)
      (Application.preHandler parsers request handler) := by
  rw [Application.preHandler]
  split_ifs with hunrouted
  · exact ⟨.inl, fun _ hsame => .inl hsame⟩
  · apply Fallible.Leaves.zoom
    · exact preHandlers_leaves parsers request (handler.getD none)
    intro after hafter
    constructor
    · intro _
      rw [← List.contains_iff_mem]
      cases handler <;> simp_all
    · intro document hdocument
      apply (hafter document (Option.some.inj hdocument)).imp_left
      intro hkept
      cases handler with
      | none => cases hkept
      | some kept => exact congrArg some hkept

/-- The response of a message that a connection writes. -/
inductive Answer (environment : Environment) : Response → Prop
  | unauthorized : Answer environment (refuse environment {})
  | notFound : Answer environment {}
  | answered {response : Response} (hanswered : Answered response) : Answer environment response

/-- The headers of an answer stay on their lines. -/
theorem Answer.plain {environment : Environment} {response : Response}
    (hanswer : Answer environment response) : ∀ entry ∈ response.headers, PlainHeader entry := by
  intro entry hmem
  cases hanswer with
  | unauthorized =>
      rw [refuse] at hmem
      split_ifs at hmem
      · rw [List.mem_singleton.mp hmem]
        exact ⟨by decide, by decide, by decide⟩
      · cases hmem
  | notFound => cases hmem
  | answered hanswered =>
      cases hanswered
      cases hmem

namespace Connection

/-- A connection that still gets callbacks: nobody is authenticated, nothing is answered,
and the router, made for a request, has a handler of its route, with the document of a
body the connection received. -/
structure Pending (parsers : BodyParsers) (connection : Connection) : Prop where
  silent : connection.out = []
  session : ∀ session ∈ connection.request, session = none
  response : ∀ router ∈ connection.router, router.response = {}
  request : connection.router.isSome → connection.request.isSome
  route : ∀ router ∈ connection.router, router.handler.isSome →
    connection.environment.requestUri ∈ routes
  document : ∀ router ∈ connection.router, ∀ document, router.handler = some (some document) →
    ∃ body ∈ connection.bodies, ParsesTo parsers body document

/-- What the callbacks keep of a connection. -/
inductive Sound (parsers : BodyParsers) (dump : Json → Bytes) (connection : Connection) : Prop
  | live (hphase : connection.phase = .live) (hpending : connection.Pending parsers)
  | completed (hphase : connection.phase = .completed) {tm : Tm} {response : Response}
      (hanswer : Answer connection.environment response)
      (hout : connection.out = written dump tm response)
  | failed (hphase : connection.phase = .failed) (hout : connection.out = [])

variable {parsers : BodyParsers} {dump : Json → Bytes} {connection : Connection}

theorem Sound.pending (hsound : connection.Sound parsers dump)
    (hlive : connection.phase = .live) : connection.Pending parsers := by
  cases hsound with
  | live hphase hpending => exact hpending
  | completed hphase => rw [hlive] at hphase; cases hphase
  | failed hphase => rw [hlive] at hphase; cases hphase

/-- The document of the handler comes from a body. -/
theorem Pending.own_document (hpending : connection.Pending parsers) {router : RouterObject}
    (hrouter : connection.router = some router) {document : Document}
    (hmem : document ∈ router.handler.getD none) :
    ∃ body ∈ connection.bodies, ParsesTo parsers body document := by
  apply hpending.document router hrouter document
  cases hhandler : router.handler with
  | none => simp [hhandler] at hmem
  | some gqlNode => simpa [hhandler] using hmem

theorem Pending.inHandler (hpending : connection.Pending parsers) (received : List UInt8) :
    (connection.inHandler received).Pending parsers where
  silent := hpending.silent
  session := by
    rintro session hmem
    cases hrequest : connection.request with
    | none => simpa [Connection.inHandler, hrequest] using hmem.symm
    | some held =>
        have hheld := hpending.session held (by simp [hrequest])
        simpa [Connection.inHandler, hrequest, hheld, eq_comm] using hmem
  response := hpending.response
  request := fun _ => rfl
  route := hpending.route
  document := hpending.document

/-- A router that was made for the request, or is made now. -/
theorem Pending.made (hpending : connection.Pending parsers) (hrequest : connection.request.isSome) :
    ({ connection with router := some (connection.router.getD {}) } : Connection).Pending parsers := by
  cases hrouter : connection.router with
  | some router =>
      have hsame : ({ connection with router := some router } : Connection) = connection := by
        rw [← hrouter]
      exact hsame ▸ hpending
  | none =>
      have hnew : ∀ router ∈ some ({} : RouterObject), router = {} := by
        rintro router hmem
        exact (Option.some.inj hmem).symm
      exact {
        silent := hpending.silent
        session := hpending.session
        response := fun router hmem => by rw [hnew router hmem]
        request := fun _ => hrequest
        route := fun router hmem hsome => by rw [hnew router hmem] at hsome; cases hsome
        document := fun router hmem _ hsome => by rw [hnew router hmem] at hsome; cases hsome }

/-- What the handler does to a connection with a router. -/
theorem Pending.preHandler {router : RouterObject}
    (hpending : ({ connection with router := some router } : Connection).Pending parsers) :
    Fallible.Leaves (fun after : Connection =>
      after.Pending parsers ∧ after.phase = connection.phase)
      (preHandler parsers router connection) := by
  have hleaves := preHandler_leaves parsers connection.postRequest router.handler
  have hafter : ∀ handler : Option GqlNode,
      ((handler.isSome → router.handler.isSome ∨ connection.environment.requestUri ∈ routes) ∧
        ∀ document, handler = some (some document) → router.handler = some (some document) ∨
          ParsesTo parsers connection.postBuffer document) →
      ({ connection with
          bodies := connection.bodies ++ [connection.postBuffer]
          router := some { router with handler } } : Connection).Pending parsers := by
    rintro handler ⟨hroute, hdocument⟩
    exact {
      silent := hpending.silent
      session := hpending.session
      response := by
        rintro made hmem
        cases hmem
        exact hpending.response router rfl
      request := fun _ => hpending.request rfl
      route := by
        rintro made hmem hsome
        cases hmem
        exact (hroute hsome).elim (hpending.route router rfl) id
      document := by
        rintro made hmem document hsome
        cases hmem
        rcases hdocument document hsome with hkept | hparses
        · obtain ⟨body, hbody, hparses⟩ := hpending.document router rfl document hkept
          exact ⟨body, List.mem_append_left _ hbody, hparses⟩
        · exact ⟨connection.postBuffer, by simp, hparses⟩ }
  rw [Connection.preHandler]
  cases hresult : Application.preHandler parsers connection.postRequest router.handler with
  | ok accepted handler =>
      rw [hresult] at hleaves
      exact ⟨hafter handler hleaves, rfl⟩
  | error failure handler =>
      rw [hresult] at hleaves
      exact ⟨hafter handler hleaves, rfl⟩

theorem Pending.inProcessor (hpending : connection.Pending parsers) :
    Fallible.Leaves (fun after : Connection =>
      after.Pending parsers ∧ after.phase = connection.phase)
      (inProcessor parsers connection) := by
  rw [Connection.inProcessor]
  cases hrequest : connection.request with
  | none => split_ifs <;> exact ⟨hpending, rfl⟩
  | some session =>
      have hmade := hpending.made (hrequest ▸ rfl)
      split_ifs
      · exact ⟨hpending, rfl⟩
      · exact hmade.preHandler
      · rw [hrequest] at hmade
        exact ⟨hmade, rfl⟩

end Connection

/-! ## Runs -/

namespace Server

/-- What the callbacks keep of every connection. -/
def Sound (parsers : BodyParsers) (dump : Json → Bytes) (server : Server) : Prop :=
  ∀ id, ∀ connection ∈ server.connections id, connection.Sound parsers dump

variable {parsers : BodyParsers} {dump : Json → Bytes} {server : Server}

theorem Sound.put (hsound : server.Sound parsers dump) {id : ℕ} {connection : Connection}
    (hconnection : connection.Sound parsers dump) : (server.put id connection).Sound parsers dump := by
  intro other held hmem
  by_cases hsame : other = id
  · rw [hsame, connections_put, Option.mem_def, Option.some.injEq] at hmem
    exact hmem ▸ hconnection
  · rw [connections_put_of_ne _ _ hsame] at hmem
    exact hsound other held hmem

theorem live?_eq_some_iff {id : ℕ} {connection : Connection} :
    server.live? id = some connection ↔
      server.connections id = some connection ∧ connection.phase = .live := by
  simp [live?, Option.filter_eq_some_iff]

theorem Sound.pending (hsound : server.Sound parsers dump) {id : ℕ} {connection : Connection}
    (hlive : server.live? id = some connection) : connection.Pending parsers := by
  obtain ⟨hconnection, hphase⟩ := live?_eq_some_iff.mp hlive
  exact (hsound id connection hconnection).pending hphase

theorem Sound.inProcessor (hsound : server.Sound parsers dump) {id : ℕ} {connection : Connection}
    (hlive : server.live? id = some connection) {after : Server}
    (hdone : server.inProcessor parsers id connection = some after) :
    after.Sound parsers dump := by
  have hleaves := (hsound.pending hlive).inProcessor
  have hphase := (live?_eq_some_iff.mp hlive).2
  rw [Server.inProcessor] at hdone
  cases hresult : Connection.inProcessor parsers connection with
  | ok accepted left =>
      rw [hresult] at hleaves hdone
      obtain ⟨hpending, hsame⟩ := hleaves
      cases hdone
      exact hsound.put (.live (hsame.trans hphase) { hpending with })
  | error failure left =>
      rw [hresult] at hleaves
      simp only [hresult] at hdone
      split_ifs at hdone
      cases hdone
      exact hsound.put (.failed rfl hleaves.1.silent)

variable [StdHash] {library : AstLibrary} {depth : ℕ} {manager : EntityManager}

omit [StdHash] in
/-- The processing of a connection that still gets callbacks starts afresh. -/
theorem fresh_processing {connection : Connection} (hpending : connection.Pending parsers)
    {session : Option UserSession} {router : RouterObject}
    (hrequest : connection.request = some session) (hrouter : connection.router = some router) :
    (server.processing session router).Fresh where
  session := hpending.session session hrequest
  response := hpending.response router hrouter

/-- The three ways a call ends are the three answers. -/
theorem answer_of_verdict {call : ProcessCall} {read : SessionStore} {state left : Processing}
    (hverdict : Processing.Verdict library depth manager call read state left) :
    Answer call.environment left.serving.response := by
  cases hverdict with
  | unauthorized hnobody hresponse hworld => exact hresponse ▸ .unauthorized
  | notFound hpermitted hsession hhandler huri hresponse hworld => exact hresponse ▸ .notFound
  | answered hpermitted hsession hhandler hrun => exact .answered (answered_of_run hrun)

theorem Sound.response (hsound : server.Sound parsers dump) {id : ℕ} {connection : Connection}
    (hlive : server.live? id = some connection) (moment : Moment) :
    (server.response dump library depth manager moment id connection).Sound parsers dump := by
  have hpending := hsound.pending hlive
  rw [Server.response]
  cases hrouter : connection.router with
  | none => exact hsound
  | some router =>
      cases hrequest : connection.request with
      | none => exact hsound
      | some session =>
          have hfresh : (server.processing session router).Fresh :=
            fresh_processing hpending hrequest hrouter
          have hothers : ∀ service store,
              ({ server with service, store } : Server).Sound parsers dump := fun _ _ => hsound
          simp only
          cases hprocess : Processing.process library depth manager
            (moment.call connection.environment) (server.processing session router) with
          | error failure left =>
              exact (hothers _ _).put (.failed rfl hpending.silent)
          | ok value left =>
              obtain ⟨read, -, hverdict⟩ := Processing.verdict_of_process hfresh hprocess
              have hout : connection.out ++ written dump moment.tm left.serving.response =
                  written dump moment.tm left.serving.response := by
                rw [hpending.silent, List.nil_append]
              exact (hothers _ _).put (.completed rfl (answer_of_verdict hverdict) hout)

/-- Every step keeps every connection sound. -/
theorem sound_next {after : Server} {callback : Callback} (hsound : server.Sound parsers dump)
    (hnext : next parsers dump library depth manager server callback = some after) :
    after.Sound parsers dump := by
  cases callback with
  | accept id environment contentType =>
      rw [next] at hnext
      split at hnext
      · cases hnext
        apply hsound.put
        apply Connection.Sound.live rfl
        constructor <;> simp
      · cases hnext
  | inHandler id received =>
      obtain ⟨connection, hlive, rfl⟩ := Option.map_eq_some_iff.mp hnext
      have hphase := (live?_eq_some_iff.mp hlive).2
      exact hsound.put (.live hphase ((hsound.pending hlive).inHandler received))
  | inProcessor id =>
      obtain ⟨connection, _, hlive, hdone, -⟩ := next_inProcessor hnext
      exact hsound.inProcessor hlive hdone
  | response id moment =>
      obtain ⟨connection, hlive, rfl⟩ := next_response hnext
      exact hsound.response hlive moment
  | others service store =>
      cases hnext
      exact hsound

theorem sound_of_reachable
    (hreach : (machine parsers dump library depth manager).Reachable server) :
    server.Sound parsers dump := by
  have hinvariant : (machine parsers dump library depth manager).Invariant
      (Sound parsers dump) := by
    constructor
    · rintro state ⟨-, hnone⟩ id connection hmem
      rw [hnone id] at hmem
      cases hmem
    · exact sound_next
  exact hinvariant.of_reachable hreach

/-- In every run each connection has written nothing, or it is completed and has written one
message: whatever follows, it reads back and ends exactly there, its length header is the
length of its body, and its status is one of three. -/
theorem message_of_reachable
    (hreach : (machine parsers dump library depth manager).Reachable server) {id : ℕ}
    {connection : Connection} (hconnection : server.connections id = some connection) :
    (connection.phase ≠ .completed ∧ connection.out = []) ∨
    (connection.phase = .completed ∧ ∃ message : Message,
      (∀ rest, messageFormat.read (connection.out ++ rest) = some (message, rest)) ∧
      contentLengthOf message.headers = message.body.length ∧
      (message.status = .ok ∨
        (message.status = .unauthorized ∨ message.status = .notFound) ∧ message.body = [])) := by
  cases sound_of_reachable hreach id connection hconnection with
  | live hphase hpending => exact .inl ⟨by simp [hphase], hpending.silent⟩
  | failed hphase hout => exact .inl ⟨by simp [hphase], hout⟩
  | @completed hphase tm response hanswer hout =>
      refine .inr ⟨hphase, messageOf dump tm response, ?_, ?_, ?_⟩
      · intro rest
        rw [hout]
        exact read_written dump tm hanswer.plain rest
      · exact contentLengthOf_messageOf dump tm hanswer.plain
      · cases hanswer with
        | unauthorized =>
            obtain ⟨hstatus, hbody⟩ := refuse_status connection.environment
            simp only [messageOf, internalBuffer, hstatus, hbody]
            exact .inr ⟨.inl rfl, rfl⟩
        | notFound => exact .inr ⟨.inr rfl, rfl⟩
        | answered hanswered =>
            cases hanswered
            exact .inl rfl

/-- Parsers that accept nothing. -/
def noParsers : BodyParsers where
  parse _ := none
  parseString _ := none
  parse_empty := rfl

def atStart (store : EntityStore) : Server where
  store := store
  connections _ := none

/-- A request without credentials, up to its answer. -/
def anonymousCallbacks : List Callback := [
  .accept 0 (Router.callWith "").environment "application/json",
  .inHandler 0 [123, 125],
  .inProcessor 0]

def firstMoment : Moment where
  construction := Router.uuidFile
  reading := Router.uuidFile
  clock := (Router.callWith "").clock
  isPermitted := true
  tm := { weekDay := 4, monthDay := 1, month := 0, year := 1970, hour := 0, minute := 0, second := 1 }

omit [StdHash] in
/-- The message of a request without credentials. -/
theorem message_of_reachable_anonymous :
    let _ : StdHash := ⟨64, fun _ => 0⟩
    ∃ server connection, (machine noParsers (fun _ => []) .depthFirst 1 entityManager).Reachable
        server ∧ server.connections 0 = some connection ∧ connection.phase = .completed ∧
      ∃ message : Message, ∀ rest,
        messageFormat.read (connection.out ++ rest) = some (message, rest) := by
  intro _
  have hrun : ∃ server connection, (anonymousCallbacks ++ [Callback.response 0 firstMoment]).foldlM
      (next noParsers (fun _ => []) .depthFirst 1 entityManager) (atStart initEntityMap) =
        some server ∧ server.connections 0 = some connection ∧ connection.phase = .completed :=
    ⟨_, _, rfl, rfl, rfl⟩
  obtain ⟨server, connection, hfold, hconnection, hphase⟩ := hrun
  have hreach : (machine noParsers (fun _ => []) .depthFirst 1 entityManager).Reachable server :=
    .of_foldlM ⟨rfl, fun _ => rfl⟩ hfold
  refine ⟨server, connection, hreach, hconnection, hphase, ?_⟩
  rcases message_of_reachable hreach hconnection with ⟨hother, -⟩ | ⟨-, message, hread, -⟩
  · exact absurd hphase hother
  · exact ⟨message, hread⟩

/-! ## Why a connection answers what it does -/

/-- The response a connection gives at a moment, by the sessions its call met, its URI and
the bodies it received. -/
structure Justified (parsers : BodyParsers) (library : AstLibrary) (depth : ℕ)
    (manager : EntityManager) (read : SessionStore) (connection : Connection) (moment : Moment)
    (before after : EntityStore) (response : Response) : Prop where
  unauthorized : response.status = .unauthorized ↔
    ¬ ∃ session, FirstSatisfied moment.clock connection.environment read session
  notFound : response.status = .notFound ↔
    (∃ session, FirstSatisfied moment.clock connection.environment read session) ∧
      connection.environment.requestUri ∉ routes
  ok : response.status = .ok ↔
    (∃ session, FirstSatisfied moment.clock connection.environment read session) ∧
      connection.environment.requestUri ∈ routes
  permitted : response.status ≠ .unauthorized → moment.isPermitted = true
  unanswered : response.status ≠ .ok → response.body = [] ∧ after = before
  answered : response.status = .ok → ∃ gqlNode : GqlNode,
    (∀ document ∈ gqlNode, ∃ body ∈ connection.bodies, ParsesTo parsers body document) ∧
      GraphqlRouter.run library depth manager gqlNode ⟨before, {}⟩ = .ok ⟨⟩ ⟨after, response⟩

/-- A verdict on the request of a connection justifies the response. -/
theorem justified_of_verdict {connection : Connection} (hpending : connection.Pending parsers)
    {session : Option UserSession} {router : RouterObject}
    (hrouter : connection.router = some router) {moment : Moment} {read : SessionStore}
    {left : Processing}
    (hverdict : Processing.Verdict library depth manager (moment.call connection.environment) read
      (server.processing session router) left) :
    Justified parsers library depth manager read connection moment server.store
      left.serving.world left.serving.response := by
  cases hverdict with
  | unauthorized hnobody hresponse hworld =>
      obtain ⟨hstatus, hbody⟩ := refuse_status connection.environment
      rw [hresponse]
      exact {
        unauthorized := iff_of_true hstatus hnobody
        notFound := iff_of_false (hstatus ▸ nofun) fun hsession => hnobody hsession.1
        ok := iff_of_false (hstatus ▸ nofun) fun hsession => hnobody hsession.1
        permitted := fun hother => absurd hstatus hother
        unanswered := fun _ => ⟨hbody, hworld⟩
        answered := fun hok => absurd (hstatus.symm.trans hok) nofun }
  | notFound hpermitted hsession hhandler huri hresponse hworld =>
      rw [hresponse]
      exact {
        unauthorized := iff_of_false nofun (not_not_intro hsession)
        notFound := iff_of_true rfl ⟨hsession, huri⟩
        ok := iff_of_false nofun fun hrouted => huri hrouted.2
        permitted := fun _ => hpermitted
        unanswered := fun _ => ⟨rfl, hworld⟩
        answered := nofun }
  | answered hpermitted hsession hhandler hrun =>
      have hstatus : left.serving.response.status = .ok := (answered_of_run hrun).status
      have huri : connection.environment.requestUri ∈ routes :=
        hhandler.elim (hpending.route router hrouter) id
      exact {
        unauthorized := iff_of_false (by simp [hstatus]) (not_not_intro hsession)
        notFound := iff_of_false (by simp [hstatus]) fun hunrouted => hunrouted.2 huri
        ok := iff_of_true hstatus ⟨hsession, huri⟩
        permitted := fun _ => hpermitted
        unanswered := fun hother => absurd hstatus hother
        answered := fun _ => ⟨router.handler.getD none,
          fun document => hpending.own_document hrouter, hrun⟩ }

/-- What the processing at a moment works on, before it reads the sessions. -/
def met (server : Server) : Serving EntityStore := ⟨server.service, none, {}, server.store⟩

omit [StdHash] in
theorem serving_processing {session : Option UserSession} {router : RouterObject}
    (hfresh : (server.processing session router).Fresh) :
    (server.processing session router).serving = server.met := by
  have hsession := hfresh.session
  have hresponse := hfresh.response
  simp only [processing] at hsession hresponse ⊢
  rw [hsession, hresponse, met]

/-- In every run, when `response` completes a connection, it wrote a response that the
sessions, the URI and the bodies of the connection justify, and left the others alone. -/
theorem justified_of_reachable
    (hreach : (machine parsers dump library depth manager).Reachable server) {id : ℕ}
    {connection : Connection} (hlive : server.live? id = some connection) {moment : Moment}
    {after : Server} {answered : Connection}
    (hnext : next parsers dump library depth manager server (.response id moment) = some after)
    (hanswered : after.connections id = some answered) (hphase : answered.phase = .completed) :
    (∃ read response,
      Router.readConfig (moment.call connection.environment) server.met = .ok ⟨⟩ read ∧
      answered.out = written dump moment.tm response ∧
      Justified parsers library depth manager read.service.store connection moment server.store
        after.store response) ∧
    ∀ other ≠ id, after.connections other = server.connections other := by
  have hpending := (sound_of_reachable hreach).pending hlive
  obtain ⟨found, hfound, hnext⟩ := next_response hnext
  obtain rfl : connection = found := Option.some.inj (hlive.symm.trans hfound)
  rw [Server.response] at hnext
  have hstill : after ≠ server := by
    rintro rfl
    rw [(live?_eq_some_iff.mp hlive).1, Option.some.injEq] at hanswered
    rw [← hanswered, (live?_eq_some_iff.mp hlive).2] at hphase
    cases hphase
  cases hrouter : connection.router with
  | none =>
      simp only [hrouter] at hnext
      exact absurd hnext.symm hstill
  | some router =>
      cases hrequest : connection.request with
      | none =>
          simp only [hrouter, hrequest] at hnext
          exact absurd hnext.symm hstill
      | some session =>
          simp only [hrouter, hrequest] at hnext
          have hfresh : (server.processing session router).Fresh :=
            fresh_processing hpending hrequest hrouter
          cases hprocess : Processing.process library depth manager
            (moment.call connection.environment) (server.processing session router) with
          | error failure left =>
              simp only [hprocess] at hnext
              rw [← hnext, putProcessing, connections_put, Option.some.injEq] at hanswered
              rw [← hanswered] at hphase
              cases hphase
          | ok value left =>
              obtain ⟨read, hread, hverdict⟩ := Processing.verdict_of_process hfresh hprocess
              rw [serving_processing hfresh] at hread
              simp only [hprocess] at hnext
              constructor
              · refine ⟨read, left.serving.response, hread, ?_, ?_⟩
                · rw [← hnext, putProcessing, connections_put, Option.some.injEq] at hanswered
                  rw [← hanswered]
                  show connection.out ++ _ = _
                  rw [hpending.silent, List.nil_append]
                · rw [← hnext]
                  exact justified_of_verdict hpending hrouter hverdict
              · intro other hother
                rw [← hnext, putProcessing, connections_put_of_ne _ _ hother]

omit [StdHash] in
/-- The request without credentials is answered in the only way there is. -/
theorem justified_of_reachable_anonymous :
    let _ : StdHash := ⟨64, fun _ => 0⟩
    ∃ (answered : Connection) (response : Response), answered.phase = .completed ∧
      answered.out = written (fun _ => []) firstMoment.tm response ∧
      (response.status ≠ .unauthorized → firstMoment.isPermitted = true) := by
  intro _
  have hrun : ∃ server connection after answered, anonymousCallbacks.foldlM
      (next noParsers (fun _ => []) .depthFirst 1 entityManager) (atStart initEntityMap) =
        some server ∧ server.live? 0 = some connection ∧
      next noParsers (fun _ => []) .depthFirst 1 entityManager server (.response 0 firstMoment) =
        some after ∧ after.connections 0 = some answered ∧ answered.phase = .completed :=
    ⟨_, _, _, _, rfl, rfl, rfl, rfl, rfl⟩
  obtain ⟨server, connection, after, answered, hfold, hlive, hnext, hanswered, hphase⟩ := hrun
  obtain ⟨⟨read, response, -, hout, hjustified⟩, -⟩ := justified_of_reachable
    (.of_foldlM ⟨rfl, fun _ => rfl⟩ hfold) hlive hnext hanswered hphase
  exact ⟨answered, response, hphase, hout, hjustified.permitted⟩

/-- What a client sees of its connection. -/
def observed (server : Server) (id : ℕ) : Option (Bytes × Phase) :=
  (server.connections id).map fun connection => (connection.out, connection.phase)

omit [StdHash] in
theorem observed_putProcessing (id : ℕ) (connection : Connection) (left : Processing) :
    (server.putProcessing id connection left).observed id =
      some (connection.out, connection.phase) := by
  rw [observed, putProcessing, connections_put]
  rfl

omit [StdHash] in
/-- A call on a connection that still gets callbacks works on the shared state alone. -/
theorem processing_of_pending (server : Server) {connection : Connection}
    (hpending : connection.Pending parsers) {router : RouterObject}
    (hrouter : connection.router = some router) :
    ∃ session, connection.request = some session ∧ server.processing session router =
      ⟨⟨server.service, none, {}, server.store⟩, router.handler⟩ := by
  have hsome : connection.router.isSome := hrouter ▸ rfl
  obtain ⟨session, hrequest⟩ := Option.isSome_iff_exists.mp (hpending.request hsome)
  refine ⟨session, hrequest, ?_⟩
  rw [processing, hpending.session session hrequest, hpending.response router hrouter]

/-- How a request that is not accepted ends depends on the sessions and its environment
alone. -/
theorem response_of_refused (parsers : BodyParsers) (dump : Json → Bytes) (library : AstLibrary)
    (depth : ℕ) (manager : EntityManager) {service : ServiceState} {environment : Environment}
    {moment : Moment}
    (hrefused : ¬ Router.Accepted (moment.call environment)
      (⟨service, none, {}, ()⟩ : Serving Unit)) :
    ∃ seen last, ∀ (server : Server) (id : ℕ) (connection : Connection),
      connection.Pending parsers → connection.router.isSome →
      connection.environment = environment → server.service = service →
      let after := server.response dump library depth manager moment id connection
      after.observed id = some seen ∧ after.service = last ∧ after.store = server.store := by
  rcases Processing.process_of_refused library depth manager hrefused with
    ⟨failure, serving, hprocess⟩ | ⟨serving, -, hprocess⟩
  · refine ⟨([], .failed), serving.service, ?_⟩
    rintro server id connection hpending hsome rfl rfl
    obtain ⟨router, hrouter⟩ := Option.isSome_iff_exists.mp hsome
    obtain ⟨session, hrequest, hstate⟩ := processing_of_pending server hpending hrouter
    simp only [Server.response, hrequest, hrouter, hstate, hprocess, observed_putProcessing,
      hpending.silent, true_and]
    exact ⟨rfl, rfl⟩
  · refine ⟨(written dump moment.tm serving.response, .completed), serving.service, ?_⟩
    rintro server id connection hpending hsome rfl rfl
    obtain ⟨router, hrouter⟩ := Option.isSome_iff_exists.mp hsome
    obtain ⟨session, hrequest, hstate⟩ := processing_of_pending server hpending hrouter
    simp only [Server.response, hrequest, hrouter, hstate, hprocess, observed_putProcessing,
      hpending.silent, List.nil_append]
    exact ⟨rfl, rfl, rfl⟩

/-- A request that is not accepted shows nothing of what is published, of its own body or
of the other connections: after any two runs that left the sessions alike, its connection
shows the same, and nothing is published or run for it. -/
theorem refused_alike {first second : Server}
    (hfirst : (machine parsers dump library depth manager).Reachable first)
    (hsecond : (machine parsers dump library depth manager).Reachable second)
    (hservice : first.service = second.service) {id other : ℕ} {connection like : Connection}
    (hlive : first.live? id = some connection) (hlike : second.live? other = some like)
    (henvironment : connection.environment = like.environment)
    (hrouter : connection.router.isSome = like.router.isSome) {moment : Moment}
    (hrefused : ¬ Router.Accepted (moment.call connection.environment)
      (⟨first.service, none, {}, ()⟩ : Serving Unit)) :
    let after := first.response dump library depth manager moment id connection
    let after' := second.response dump library depth manager moment other like
    after.observed id = after'.observed other ∧ after.service = after'.service ∧
      after.store = first.store ∧ after'.store = second.store := by
  intro after after'
  have hpending := (sound_of_reachable hfirst).pending hlive
  have hpending' := (sound_of_reachable hsecond).pending hlike
  cases hrouted : connection.router.isSome with
  | true =>
      obtain ⟨seen, last, hends⟩ :=
        response_of_refused parsers dump library depth manager hrefused
      obtain ⟨hseen, hlast, hstore⟩ := hends first id connection hpending hrouted rfl rfl
      obtain ⟨hseen', hlast', hstore'⟩ := hends second other like hpending'
        (hrouter.symm.trans hrouted) henvironment.symm hservice.symm
      exact ⟨hseen.trans hseen'.symm, hlast.trans hlast'.symm, hstore, hstore'⟩
  | false =>
      have hnone := Option.not_isSome_iff_eq_none.mp (Bool.eq_false_iff.mp hrouted)
      have hnone' := Option.not_isSome_iff_eq_none.mp
        (Bool.eq_false_iff.mp (hrouter.symm.trans hrouted))
      obtain ⟨hconnection, hphase⟩ := live?_eq_some_iff.mp hlive
      obtain ⟨hconnection', hphase'⟩ := live?_eq_some_iff.mp hlike
      have hsame : after = first := by simp only [after, Server.response, hnone]
      have hsame' : after' = second := by simp only [after', Server.response, hnone']
      rw [hsame, hsame', observed, observed, hconnection, hconnection']
      simp [hservice, hpending.silent, hpending'.silent, hphase, hphase']

omit [StdHash] in
/-- The request without credentials is answered alike with and without entities. -/
theorem refused_alike_anonymous :
    let _ : StdHash := ⟨64, fun _ => 0⟩
    ∃ (first second : Server) (connection like : Connection), first.store = initEntityMap ∧
      second.store = { initEntityMap with notAvailable := .string "" } ∧
      (first.response (fun _ => []) .depthFirst 1 entityManager firstMoment 0
          connection).observed 0 =
        (second.response (fun _ => []) .depthFirst 1 entityManager firstMoment 0
          like).observed 0 := by
  intro _
  have hrun : ∀ store, ∃ server connection, anonymousCallbacks.foldlM
      (next noParsers (fun _ => []) .depthFirst 1 entityManager) (atStart store) = some server ∧
      server.live? 0 = some connection ∧ connection.router.isSome = true ∧
      connection.environment = (Router.callWith "").environment ∧ server.service = {} ∧
      server.store = store := fun _ => ⟨_, _, rfl, rfl, rfl, rfl, rfl, rfl⟩
  obtain ⟨first, connection, hfold, hlive, hrouter, henvironment, hservice, hstore⟩ :=
    hrun initEntityMap
  obtain ⟨second, like, hfold', hlike, hrouter', henvironment', hservice', hstore'⟩ :=
    hrun { initEntityMap with notAvailable := .string "" }
  have hrefused : ¬ Router.Accepted (firstMoment.call (Router.callWith "").environment)
      (⟨{}, none, {}, ()⟩ : Serving Unit) := by
    rintro ⟨read, after, hread, hauth⟩
    have hconfig : Router.readConfig (Router.callWith "") (⟨{}, none, {}, ()⟩ : Serving Unit) =
      .ok ⟨⟩ ⟨⟨some "bmc", {}⟩, none, {}, ()⟩ := rfl
    cases hconfig.symm.trans hread
    cases hauth
  rw [← henvironment, ← hservice] at hrefused
  have halike := refused_alike (.of_foldlM ⟨rfl, fun _ => rfl⟩ hfold)
    (.of_foldlM ⟨rfl, fun _ => rfl⟩ hfold') (hservice.trans hservice'.symm) hlive hlike
    (henvironment.trans henvironment'.symm) (hrouter.trans hrouter'.symm) hrefused
  exact ⟨first, second, connection, like, hstore, hstore', halike.1⟩

end Server

end ObmcWebapp.Http
