/-
# Processing a request

`process` reads the session file again, authenticates the request, and only then
looks up and runs the handler of the route. A handler works on the response and on
a world of its own; the session store is not part of it.

That a refused request runs no handler is stated by comparison: its outcome is the
same whatever the handlers do.
-/

import ObmcWebapp.Service.Authorization
import ObmcWebapp.Service.Configuration

namespace ObmcWebapp.Service

open ObmcWebapp.Core

/-- What one request changes: the service, the session attached to it, its response,
and the world its handler works on. -/
structure Serving (ω : Type) where
  service : ServiceState
  session : Option UserSession
  response : Response
  world : ω

/-- `run` of a route handler. -/
abbrev RouteHandler (ω : Type) :=
  Environment → Option UserSession → EStateM Exception (ω × Response) PUnit

/-- What a call of `process` meets: the file, the request, the clock and the boot
flag. -/
structure ProcessCall where
  /-- The read of the constructor, if this is the first call. -/
  construction : Reading
  reading : Reading
  environment : Environment
  clock : Authorization.AuthClock
  isPermitted : Bool

namespace Router

variable {ω : Type}

/-- `getConfig().readData()`. -/
def readConfig (call : ProcessCall) : EStateM Exception (Serving ω) PUnit :=
  Fallible.zoom Serving.service (fun service serving => { serving with service := service })
    (ServiceState.readData call.construction call.reading)

/-- What `authenticate` works on. -/
def authState (serving : Serving ω) : Authorization.AuthState :=
  ⟨serving.service.store, serving.session, serving.response⟩

def putAuthState (state : Authorization.AuthState) (serving : Serving ω) : Serving ω :=
  { serving with
    service := { serving.service with store := state.store }
    session := state.session
    response := state.response }

def authenticate (call : ProcessCall) : EStateM Exception (Serving ω) Bool :=
  Fallible.zoom authState putAuthState
    (Authorization.authenticate call.clock call.environment call.isPermitted)

/-- Run the handler `preHandler` made, or else the one registered for the URI. -/
def runHandler (routes : OrderedMap String (RouteHandler ω)) (handler : Option (RouteHandler ω))
    (call : ProcessCall) : EStateM Exception (Serving ω) PUnit := fun serving =>
  match handler.or (routes.find? call.environment.requestUri) with
  | none => .ok ⟨⟩ serving
  | some run =>
      Fallible.zoom (fun serving => (serving.world, serving.response))
        (fun part serving => { serving with world := part.1, response := part.2 })
        (run call.environment serving.session) serving

/-- `process`. -/
def process (routes : OrderedMap String (RouteHandler ω)) (handler : Option (RouteHandler ω))
    (call : ProcessCall) : EStateM Exception (Serving ω) PUnit := do
  readConfig call
  let accepted ← authenticate call
  if accepted then runHandler routes handler call else pure ⟨⟩

/-- The call gets as far as an accepted authentication. -/
def Accepted (call : ProcessCall) (serving : Serving ω) : Prop :=
  ∃ read after, readConfig call serving = .ok ⟨⟩ read ∧ authenticate call read = .ok true after

/-- No handler had a part in the outcome of a call, and nothing was pushed to the
body. -/
def NoHandlerRuns (call : ProcessCall) (serving : Serving ω) : Prop :=
  ∀ (routes routes' : OrderedMap String (RouteHandler ω))
    (handler handler' : Option (RouteHandler ω)),
    process routes handler call serving = process routes' handler' call serving ∧
    Fallible.Leaves (fun after : Serving ω => after.response.body = serving.response.body)
      (process routes handler call serving)

theorem attemptAuthorization_body (clock : LoginClock) (environment : Environment)
    (state : Authorization.AuthState) :
    Fallible.Leaves
      (fun after : Authorization.AuthState => after.response.body = state.response.body)
      (Authorization.attemptAuthorization clock environment state) := by
  simp only [Authorization.attemptAuthorization]
  split_ifs
  · show (Authorization.attempt _ _ state).response.body = state.response.body
    rw [Authorization.attempt_response]
  · exact rfl
  · exact rfl
  · exact rfl

theorem decideSession_body (environment : Environment) (isPermitted : Bool)
    (state : Authorization.AuthState) :
    Fallible.Leaves
      (fun after : Authorization.AuthState => after.response.body = state.response.body)
      (Authorization.decideSession environment isPermitted state) := by
  simp only [Authorization.decideSession]
  split_ifs
  · exact rfl
  · exact rfl
  · exact rfl
  · exact rfl

/-- Authentication pushes nothing. -/
theorem authenticate_body (clock : Authorization.AuthClock) (environment : Environment)
    (isPermitted : Bool) (state : Authorization.AuthState) :
    Fallible.Leaves
      (fun after : Authorization.AuthState => after.response.body = state.response.body)
      (Authorization.authenticate clock environment isPermitted state) := by
  unfold Authorization.authenticate
  apply Fallible.Leaves.bind
  · show (Authorization.attemptTokens clock environment state).response.body = state.response.body
    rw [Authorization.attemptTokens_response]
  · intro _ tried htried
    apply Fallible.Leaves.bind
    · have hbody := attemptAuthorization_body clock.token environment tried
      rw [htried] at hbody
      exact hbody
    · intro _ attached hattached
      have hbody := decideSession_body environment isPermitted attached
      rw [hattached] at hbody
      exact hbody

/-- A request that is not accepted runs no handler. -/
theorem noHandlerRuns_of_refused {call : ProcessCall} {serving : Serving ω}
    (hrefused : ¬ Accepted call serving) : NoHandlerRuns call serving := by
  have hread : Fallible.Leaves
      (fun after : Serving ω => after.response.body = serving.response.body)
      (readConfig call serving) := by
    have hany : Fallible.Leaves (fun _ : ServiceState => True)
        (ServiceState.readData call.construction call.reading serving.service) := by
      cases ServiceState.readData call.construction call.reading serving.service <;> trivial
    exact Fallible.Leaves.zoom hany fun _ _ => rfl
  intro routes routes' handler handler'
  unfold process
  cases hconfig : readConfig call serving with
  | error exception after =>
      rw [hconfig] at hread
      rw [Fallible.bind_error hconfig, Fallible.bind_error hconfig]
      exact ⟨rfl, hread⟩
  | ok value read =>
      rw [hconfig] at hread
      have hbody : Fallible.Leaves
          (fun after : Serving ω => after.response.body = serving.response.body)
          (authenticate call read) := by
        apply Fallible.Leaves.zoom (authenticate_body _ _ _ _)
        intro next hnext
        exact hnext.trans hread
      rw [Fallible.bind_ok hconfig, Fallible.bind_ok hconfig]
      cases hauth : authenticate call read with
      | error exception after =>
          rw [hauth] at hbody
          rw [Fallible.bind_error hauth, Fallible.bind_error hauth]
          exact ⟨rfl, hbody⟩
      | ok accepted after =>
          rw [hauth] at hbody
          rw [Fallible.bind_ok hauth, Fallible.bind_ok hauth]
          cases accepted with
          | false => exact ⟨rfl, hbody⟩
          | true => exact absurd ⟨read, after, hconfig, hauth⟩ hrefused

/-- The decision is exact. A fresh request is accepted exactly when the BMC permits it
and one of the three methods is satisfied, each on the store it meets; the session
attached is that of the first satisfied method; when the logins read one clock, every
method may be judged on the store the request met; and a request that is not accepted
runs no handler. -/
theorem authentication_exact :
    (∀ (clock : Authorization.AuthClock) (environment : Environment) (isPermitted : Bool)
      (store : SessionStore) (response : Response),
      ((∃ after, Authorization.authenticate clock environment isPermitted
          ⟨store, none, response⟩ = .ok true after) ↔
        isPermitted = true ∧
        ((∃ session, Authorization.XtokenSatisfied clock.xtoken environment store session) ∨
          (∃ session, Authorization.CookieSatisfied clock.cookie environment
            (Authorization.storeAfterXtoken clock environment store) session) ∨
          (∃ session, Authorization.TokenSatisfied clock.token environment
            (Authorization.storeAfterCookie clock environment store) session))) ∧
      (∀ after, Authorization.authenticate clock environment isPermitted
          ⟨store, none, response⟩ = .ok true after →
        ∃ session, after.session = some session ∧
          Authorization.FirstSatisfied clock environment store session)) ∧
    (∀ (clock : Authorization.AuthClock) (environment : Environment) (isPermitted : Bool)
      (store : SessionStore) (response : Response),
      clock.cookie.sweep = clock.xtoken.sweep → clock.token.sweep = clock.xtoken.sweep →
      ((∃ after, Authorization.authenticate clock environment isPermitted
          ⟨store, none, response⟩ = .ok true after) ↔
        isPermitted = true ∧
        ((∃ session, Authorization.XtokenSatisfied clock.xtoken environment store session) ∨
          (∃ session, Authorization.CookieSatisfied clock.cookie environment store session) ∨
          (∃ session, Authorization.TokenSatisfied clock.token environment store session)))) ∧
    (∀ (call : ProcessCall) (serving : Serving ω), ¬ Accepted call serving →
      NoHandlerRuns call serving) := by
  have hexact : ∀ (clock : Authorization.AuthClock) (environment : Environment)
      (isPermitted : Bool) (store : SessionStore) (response : Response), _ :=
    fun clock environment isPermitted store response =>
      Authorization.authenticate_eq_true_iff clock environment isPermitted
        (show (⟨store, none, response⟩ : Authorization.AuthState).session = none from rfl)
  simp only [Authorization.exists_firstSatisfied_iff] at hexact
  constructor
  · exact hexact
  · constructor
    · intro clock environment isPermitted store response hcookie htoken
      have hjudged := Authorization.satisfied_iff_of_one_clock environment store hcookie htoken
      rw [(hexact clock environment isPermitted store response).1]
      simp only [fun session => (hjudged session).1, fun session => (hjudged session).2]
    · exact fun call serving hrefused => noHandlerRuns_of_refused hrefused

/-- A request that presents a live X-Auth-Token. -/
theorem authentication_exact_xtoken :
    let token := "abcdefghijklmnopqrst"
    let held : UserSession := {
      uniqueId := "1", sessionToken := token, username := "root", csrfToken := token }
    let store : SessionStore := { authTokens := OrderedMap.ofList [(token, held)] }
    let environment : Environment := {
      requestMethod := .get, others := OrderedMap.ofList [(Authorization.xAuthToken, token)],
      cookies := [], authorization := "", userAgent := "", requestUri := "/graphql" }
    let clock : Authorization.AuthClock := ⟨⟨5, 6⟩, ⟨5, 6⟩, ⟨5, 6⟩⟩
    ∃ after, Authorization.authenticate clock environment true ⟨store, none, {}⟩ =
        .ok true after ∧
      ∃ session, after.session = some session ∧
        Authorization.FirstSatisfied clock environment store session := by
  intro token held store environment clock
  have hexact := @authentication_exact Unit
  have hsatisfied : Authorization.XtokenSatisfied clock.xtoken environment store
      { held with lastUpdated := 6 } := by
    apply And.intro rfl
    exact ⟨token, rfl, by decide, by decide, rfl⟩
  obtain ⟨after, hok⟩ := (hexact.2.1 clock environment true store {} rfl rfl).mpr
    ⟨rfl, .inl ⟨_, hsatisfied⟩⟩
  exact ⟨after, hok, (hexact.1 clock environment true store {}).2 after hok⟩

end Router

end ObmcWebapp.Service
