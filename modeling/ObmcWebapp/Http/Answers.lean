/-
# How a request is answered

Processing a fresh request, when nothing is thrown, ends in one of three ways, and the
sessions alone decide between the first and the other two. Without a session the response
is unauthorized: its headers depend on the user agent, and no handler was run. With a
session it is the empty one a response starts with, for a URI without a handler, or what
the handler answered: one object with data or an error.
-/

import ObmcWebapp.Application.Requests
import ObmcWebapp.Http.Connection

namespace ObmcWebapp.Service.Authorization

open ObmcWebapp.Core

/-- A response with a refusal in it. -/
def refuse (environment : Environment) (response : Response) : Response :=
  let refused := response.setStatus .unauthorized
  if environment.userAgent = "" then refused.setHeader wwwAuthenticate authBasic else refused

theorem refuse_status (environment : Environment) :
    (refuse environment {}).status = .unauthorized ∧ (refuse environment {}).body = [] := by
  rw [refuse]
  split_ifs <;> exact ⟨rfl, rfl⟩

theorem attemptAuthorization_response (clock : LoginClock) (environment : Environment)
    (state : AuthState) :
    Fallible.Leaves (fun after : AuthState => after.response = state.response)
      (attemptAuthorization clock environment state) := by
  simp only [attemptAuthorization]
  split_ifs
  · exact attempt_response _ _ state
  · exact rfl
  · exact rfl
  · exact rfl

/-- What authentication decides about a fresh request, with what it leaves. -/
theorem authenticate_decides {clock : AuthClock} {environment : Environment}
    {isPermitted accepted : Bool} {state after : AuthState} (hnone : state.session = none)
    (hok : authenticate clock environment isPermitted state = .ok accepted after) :
    if accepted then
      isPermitted = true ∧ (∃ session, FirstSatisfied clock environment state.store session) ∧
        after.response = state.response
    else
      (¬ ∃ session, FirstSatisfied clock environment state.store session) ∧
        after.response = refuse environment state.response := by
  have hstart : (modify (attemptTokens clock environment) : EStateM Exception AuthState PUnit)
      state = .ok ⟨⟩ (attemptTokens clock environment state) := rfl
  have hmethods := methods_spec clock environment hnone
  rw [authenticate, Fallible.bind_ok hstart] at hok
  obtain ⟨_, attached, hattached, hdecide⟩ := Fallible.bind_eq_ok hok
  have hresponse := attemptAuthorization_response clock.token environment
    (attemptTokens clock environment state)
  rw [hattached] at hmethods hresponse
  have hsame : attached.response = state.response :=
    hresponse.trans (attemptTokens_response clock environment state)
  cases accepted with
  | true =>
      obtain ⟨hpermitted, ⟨session, hsession⟩, rfl⟩ := decideSession_eq_true_iff.mp hdecide
      exact ⟨hpermitted, ⟨session, (hmethods session).mp hsession⟩, hsame⟩
  | false =>
      cases hsession : attached.session with
      | some session => cases isPermitted <;> simp [decideSession, hsession] at hdecide
      | none =>
          simp only [decideSession, hsession] at hdecide
          cases hdecide
          constructor
          · rintro ⟨session, hsatisfied⟩
            rw [(hmethods session).mpr hsatisfied] at hsession
            cases hsession
          · rw [← hsame]
            rfl

end ObmcWebapp.Service.Authorization

namespace ObmcWebapp.Http

open ObmcWebapp.Core ObmcWebapp.Entities ObmcWebapp.Graphql ObmcWebapp.Service
  ObmcWebapp.Application ObmcWebapp.Service.Authorization

/-- A response with one object in it, which has data or an error. -/
inductive Answered : Response → Prop
  | object {field : String} (value : Json)
      (hfield : field = GraphqlRouter.respFieldData ∨ field = GraphqlRouter.respFieldError) :
      Answered ((({} : Response).push (.object [(field, value)])).setStatus .ok)

theorem Answered.status {response : Response} (hanswered : Answered response) :
    response.status = .ok := by
  cases hanswered
  rfl

theorem respond_eq (field : String) (value : Json) (state : GraphqlRouter.Answering) :
    GraphqlRouter.respond field value state = .ok ⟨⟩ { state with
      response := (state.response.push (.object [(field, value)])).setStatus .ok } := rfl

variable [StdHash]

/-- A run that returns has answered. -/
theorem answered_of_run {library : AstLibrary} {depth : ℕ} {manager : EntityManager}
    {gqlNode : GqlNode} {store : EntityStore} {after : GraphqlRouter.Answering}
    (hrun : GraphqlRouter.run library depth manager gqlNode ⟨store, {}⟩ = .ok ⟨⟩ after) :
    Answered after.response := by
  rw [GraphqlRouter.run] at hrun
  split at hrun
  · rw [respond_eq, EStateM.Result.ok.injEq] at hrun
    rw [← hrun.2]
    exact .object _ (.inl rfl)
  · rw [respond_eq, EStateM.Result.ok.injEq] at hrun
    rw [← hrun.2]
    exact .object _ (.inr rfl)
  · cases hrun

namespace Processing

/-- A request that was just constructed. -/
structure Fresh (state : Processing) : Prop where
  session : state.serving.session = none
  response : state.serving.response = {}

section Verdict

variable (library : AstLibrary) (depth : ℕ) (manager : EntityManager) (call : ProcessCall)

/-- How a call ends that met the sessions of a store. -/
inductive Verdict (read : SessionStore) (state left : Processing) : Prop
  /-- The request has no session. Nothing was run and nothing was published. -/
  | unauthorized
      (hnobody : ¬ ∃ session, FirstSatisfied call.clock call.environment read session)
      (hresponse : left.serving.response = refuse call.environment {})
      (hworld : left.serving.world = state.serving.world)
  /-- The request has a session, but its URI has no handler. -/
  | notFound (hpermitted : call.isPermitted = true)
      (hsession : ∃ session, FirstSatisfied call.clock call.environment read session)
      (hhandler : state.handler = none) (huri : call.environment.requestUri ∉ routes)
      (hresponse : left.serving.response = {})
      (hworld : left.serving.world = state.serving.world)
  /-- The request has a session and the handler was run, on the document it was left with
  and what is published. -/
  | answered (hpermitted : call.isPermitted = true)
      (hsession : ∃ session, FirstSatisfied call.clock call.environment read session)
      (hhandler : state.handler.isSome ∨ call.environment.requestUri ∈ routes)
      (hrun : GraphqlRouter.run library depth manager (state.handler.getD none)
        ⟨state.serving.world, {}⟩ = .ok ⟨⟩ ⟨left.serving.world, left.serving.response⟩)

variable {library depth manager call}

omit [StdHash] in
theorem onServing_eq_ok {α : Type} {action : EStateM Exception (Serving EntityStore) α}
    {state after : Processing} {value : α} (hok : onServing action state = .ok value after) :
    action state.serving = .ok value after.serving ∧ after.handler = state.handler := by
  rw [onServing, Fallible.zoom] at hok
  split at hok
  next returned serving hreturned =>
    rw [EStateM.Result.ok.injEq] at hok
    rw [← hok.1, ← hok.2]
    exact ⟨Fallible.rethrow_eq_ok_iff.mp hreturned, rfl⟩
  next => cases hok

theorem runHandler_eq_ok {environment : Environment} {state left : Processing}
    (hok : runHandler library depth manager environment state = .ok ⟨⟩ left) :
    (state.handler = none ∧ environment.requestUri ∉ routes ∧ left = state) ∨
    ((state.handler.isSome ∨ environment.requestUri ∈ routes) ∧
      GraphqlRouter.run library depth manager (state.handler.getD none) state.answering =
        .ok ⟨⟩ left.answering) := by
  rw [runHandler] at hok
  split_ifs at hok with hunrouted
  · rw [Bool.and_eq_true, Option.isNone_iff_eq_none, Bool.not_eq_true', ← Bool.not_eq_true,
      List.contains_iff_mem] at hunrouted
    cases hok
    exact .inl ⟨hunrouted.1, hunrouted.2, rfl⟩
  · have hrouted : state.handler.isSome ∨ environment.requestUri ∈ routes := by
      rw [← List.contains_iff_mem]
      cases hhandler : state.handler <;> simp_all
    rw [Fallible.zoom] at hok
    split at hok
    next answered hanswered =>
      cases hok
      exact .inr ⟨hrouted, hanswered⟩
    next => cases hok

/-- A call that returns on a fresh request ends in one of the three ways. -/
theorem verdict_of_process {state left : Processing} (hfresh : state.Fresh)
    (hok : process library depth manager call state = .ok ⟨⟩ left) :
    ∃ read, Router.readConfig call state.serving = .ok ⟨⟩ read ∧
      Verdict library depth manager call read.service.store state left := by
  rw [process] at hok
  obtain ⟨_, afterRead, hread, hok⟩ := Fallible.bind_eq_ok hok
  obtain ⟨accepted, afterAuth, hauth, hok⟩ := Fallible.bind_eq_ok hok
  obtain ⟨hread, hreadHandler⟩ := onServing_eq_ok hread
  obtain ⟨hauth, hauthHandler⟩ := onServing_eq_ok hauth
  refine ⟨afterRead.serving, hread, ?_⟩
  -- reading the file changes nothing but the sessions
  have hkept : afterRead.serving.session = none ∧ afterRead.serving.response = {} ∧
      afterRead.serving.world = state.serving.world := by
    rw [Router.readConfig, Fallible.zoom] at hread
    split at hread
    next =>
      rw [EStateM.Result.ok.injEq] at hread
      rw [← hread.2]
      exact ⟨hfresh.session, hfresh.response, rfl⟩
    next => cases hread
  rw [Router.authenticate, Fallible.zoom] at hauth
  split at hauth
  next decided authState hdecided =>
    have hnone : (Router.authState afterRead.serving).session = none := hkept.1
    have hdecision := authenticate_decides hnone hdecided
    rw [EStateM.Result.ok.injEq] at hauth
    obtain ⟨rfl, hserving⟩ := hauth
    have hworld : afterAuth.serving.world = state.serving.world := by
      rw [← hserving]
      exact hkept.2.2
    have hresponse : afterAuth.serving.response = authState.response := by
      rw [← hserving]
      rfl
    have hempty : (Router.authState afterRead.serving).response = {} := hkept.2.1
    rw [hempty, ← hresponse] at hdecision
    cases decided with
    | false =>
        rw [if_neg Bool.false_ne_true] at hdecision hok
        cases hok
        exact .unauthorized hdecision.1 hdecision.2 hworld
    | true =>
        rw [if_pos rfl] at hdecision hok
        obtain ⟨hpermitted, hsession, hresponse⟩ := hdecision
        have hhandler : afterAuth.handler = state.handler := hauthHandler.trans hreadHandler
        rcases runHandler_eq_ok hok with ⟨hnone, huri, rfl⟩ | ⟨hrouted, hrun⟩
        · exact .notFound hpermitted hsession (hhandler ▸ hnone) huri hresponse hworld
        · rw [hhandler] at hrouted hrun
          rw [answering, hresponse, hworld] at hrun
          exact .answered hpermitted hsession hrouted hrun
  next => cases hauth

/-- A processing with other published entities and another handler. -/
def withWorld (world : EntityStore) (handler : Option GqlNode) (serving : Serving Unit) :
    Processing :=
  ⟨⟨serving.service, serving.session, serving.response, world⟩, handler⟩

/-- What is published and the handler have no part in a call that is not accepted. -/
theorem process_of_refused (library : AstLibrary) (depth : ℕ) (manager : EntityManager)
    {call : ProcessCall} {service : ServiceState}
    (hrefused : ¬ Router.Accepted call (⟨service, none, {}, ()⟩ : Serving Unit)) :
    (∃ failure serving, ∀ world handler, process library depth manager call
      ⟨⟨service, none, {}, world⟩, handler⟩ = .error failure (withWorld world handler serving)) ∨
    ∃ serving, serving.response = refuse call.environment {} ∧
      ∀ world handler, process library depth manager call ⟨⟨service, none, {}, world⟩, handler⟩ =
        .ok ⟨⟩ (withWorld world handler serving) := by
  cases hread : ServiceState.readData call.construction call.reading service with
  | error exception read =>
      refine .inl ⟨.raised exception, ⟨read, none, {}, ()⟩, fun world handler => ?_⟩
      apply Fallible.bind_error
      simp [onServing, Router.readConfig, Fallible.zoom, Fallible.rethrow, hread, withWorld]
  | ok value read =>
      have hconfig : ∀ world handler, onServing (Router.readConfig call)
          ⟨⟨service, none, {}, world⟩, handler⟩ =
            .ok ⟨⟩ (⟨⟨read, none, {}, world⟩, handler⟩ : Processing) := by
        intro world handler
        simp [onServing, Router.readConfig, Fallible.zoom, Fallible.rethrow, hread]
      have hzoom : Router.readConfig call (⟨service, none, {}, ()⟩ : Serving Unit) =
          .ok ⟨⟩ ⟨read, none, {}, ()⟩ := Fallible.zoom_ok hread
      cases hauth : Authorization.authenticate call.clock call.environment call.isPermitted
        ⟨read.store, none, {}⟩ with
      | error exception after =>
          refine .inl ⟨.raised exception,
            ⟨{ read with store := after.store }, after.session, after.response, ()⟩,
            fun world handler => ?_⟩
          rw [process, Fallible.bind_ok (hconfig world handler)]
          apply Fallible.bind_error
          simp [onServing, Router.authenticate, Router.authState, Router.putAuthState,
            Fallible.zoom, Fallible.rethrow, hauth, withWorld]
      | ok accepted after =>
          have hdecision := authenticate_decides rfl hauth
          cases accepted with
          | true =>
              have haccepted : Router.authenticate call (⟨read, none, {}, ()⟩ : Serving Unit) =
                  .ok true ⟨{ read with store := after.store }, after.session, after.response, ()⟩ :=
                Fallible.zoom_ok hauth
              exact absurd ⟨_, _, hzoom, haccepted⟩ hrefused
          | false =>
              refine .inr ⟨⟨{ read with store := after.store }, after.session, after.response, ()⟩,
                hdecision.2, fun world handler => ?_⟩
              have hauthenticated : onServing (Router.authenticate call)
                  ⟨⟨read, none, {}, world⟩, handler⟩ = .ok false (withWorld world handler
                    ⟨{ read with store := after.store }, after.session, after.response, ()⟩) := by
                simp [onServing, Router.authenticate, Router.authState, Router.putAuthState,
                  Fallible.zoom, Fallible.rethrow, hauth, withWorld]
              rw [process, Fallible.bind_ok (hconfig world handler),
                Fallible.bind_ok hauthenticated]
              rfl

/-- A call that is accepted runs the handler of its route over what is published. -/
theorem process_of_accepted (library : AstLibrary) (depth : ℕ) (manager : EntityManager)
    {call : ProcessCall} {service : ServiceState}
    (haccepted : Router.Accepted call (⟨service, none, {}, ()⟩ : Serving Unit)) :
    ∃ serving : Serving Unit, serving.response = {} ∧
      ∀ world handler, process library depth manager call ⟨⟨service, none, {}, world⟩, handler⟩ =
        runHandler library depth manager call.environment (withWorld world handler serving) := by
  obtain ⟨read, after, hread, hauth⟩ := haccepted
  rw [Router.readConfig, Fallible.zoom] at hread
  split at hread
  next value stored hstored =>
    cases hread
    rw [Router.authenticate, Fallible.zoom] at hauth
    split at hauth
    next accepted authenticated hdecided =>
      cases hauth
      have hdecision := authenticate_decides rfl hdecided
      rw [if_pos rfl] at hdecision
      refine ⟨Router.putAuthState authenticated ⟨stored, none, {}, ()⟩, hdecision.2.2,
        fun world handler => ?_⟩
      have hconfig : onServing (Router.readConfig call) ⟨⟨service, none, {}, world⟩, handler⟩ =
          .ok ⟨⟩ (⟨⟨stored, none, {}, world⟩, handler⟩ : Processing) := by
        simp [onServing, Router.readConfig, Fallible.zoom, Fallible.rethrow, hstored]
      have hauthenticated : onServing (Router.authenticate call)
          ⟨⟨stored, none, {}, world⟩, handler⟩ = .ok true (withWorld world handler
            (Router.putAuthState authenticated ⟨stored, none, {}, ()⟩)) := by
        simp only [onServing, Router.authenticate, Router.authState, Fallible.zoom,
          Fallible.rethrow] at hdecided ⊢
        rw [hdecided]
        rfl
      rw [process, Fallible.bind_ok hconfig, Fallible.bind_ok hauthenticated]
      rfl
    next => cases hauth
  next => cases hread

end Verdict

end Processing

end ObmcWebapp.Http
