/-
# Authentication of a request

Three methods may attach a session to a request, each only when no earlier one did:
the X-Auth-Token header, the SESSION cookie, and an Authorization value that starts
with the Token scheme. The cookie method alone asks for the CSRF token of the session
when the request does not just get something.

A request with a session is refused while the BMC boots; a request without one is
answered as unauthorized; and the Basic scheme throws.
-/

import ObmcWebapp.Core.Response
import ObmcWebapp.Library.Fallible
import ObmcWebapp.Service.Session

namespace ObmcWebapp.Service

open ObmcWebapp.Core

inductive RequestMethod
  | error | head | get | post | put | delete | trace | options | connect
  deriving DecidableEq, Repr

/-- The part of the request environment the service reads. -/
structure Environment where
  requestMethod : RequestMethod
  /-- The headers the server has no field for, by name. -/
  others : OrderedMap String String
  /-- The cookies in the order of the container; a lookup takes the first. -/
  cookies : List (String × String)
  authorization : String
  userAgent : String
  requestUri : String

namespace Authorization

def xXSRFToken : String := "HTTP_X_XSRF_TOKEN"
def xAuthToken : String := "HTTP_X_Auth_Token"
def authBasic : String := "Basic "
def authToken : String := "Token "
def cookieSession : String := "SESSION"
def wwwAuthenticate : String := "WWW-Authenticate"

/-- `starts_with`. -/
def startsWith (text scheme : String) : Bool := scheme.toList.isPrefixOf text.toList

/-- `substr` from the end of a scheme on. -/
def afterScheme (text scheme : String) : String :=
  String.ofList (text.toList.drop scheme.toList.length)

/-- The clock readings of the logins of the three methods. -/
structure AuthClock where
  xtoken : LoginClock
  cookie : LoginClock
  token : LoginClock
  deriving DecidableEq, Repr

/-- The readings of the sweeps. -/
def AuthClock.sweeps (clock : AuthClock) : List ℤ :=
  [clock.xtoken.sweep, clock.cookie.sweep, clock.token.sweep]

/-- `performTokenAuth`. -/
def performTokenAuth (clock : LoginClock) (authHeader : String) (store : SessionStore) :
    Option UserSession × SessionStore :=
  store.loginSessionByToken clock (afterScheme authHeader authToken)

/-- `performXtokenAuth`. -/
def performXtokenAuth (clock : LoginClock) (environment : Environment) (store : SessionStore) :
    Option UserSession × SessionStore :=
  match environment.others.find? xAuthToken with
  -- `at` throws, which is caught and logged
  | none => (none, store)
  | some token => if token = "" then (none, store) else store.loginSessionByToken clock token

/-- The CSRF rule of the cookie method. -/
def csrfAccepted (environment : Environment) (session : UserSession) : Bool :=
  if environment.requestMethod = .get then true
  else
    match environment.others.find? xXSRFToken with
    | none => false
    | some csrf =>
        if csrf = "" ∨ session.csrfToken = "" then false
        else if csrf.utf8ByteSize ≠ sessionTokenSize then false
        else decide (csrf = session.csrfToken)

/-- `performCookieAuth`. -/
def performCookieAuth (clock : LoginClock) (environment : Environment) (store : SessionStore) :
    Option UserSession × SessionStore :=
  match environment.cookies.lookup cookieSession with
  | none => (none, store)
  | some token =>
      match store.loginSessionByToken clock token with
      | (none, after) => (none, after)
      | (some session, after) =>
          (if csrfAccepted environment session then some session else none, after)

/-- The store, the session attached to the request, and the response. -/
structure AuthState where
  store : SessionStore
  session : Option UserSession
  response : Response

/-- Try a method if it is enabled and the request has no session yet. -/
def attempt (enabled : Bool) (perform : SessionStore → Option UserSession × SessionStore)
    (state : AuthState) : AuthState :=
  if state.session.isNone && enabled then
    { state with session := (perform state.store).1, store := (perform state.store).2 }
  else state

/-- The branch on the Authorization value. -/
def attemptAuthorization (clock : LoginClock) (environment : Environment) :
    EStateM Exception AuthState PUnit := fun state =>
  let config := state.store.authMethodsConfig
  if state.session.isNone && decide (environment.authorization ≠ "") then
    if startsWith environment.authorization authToken && config.sessionToken then
      .ok ⟨⟩ (attempt true (performTokenAuth clock environment.authorization) state)
    else if startsWith environment.authorization authBasic && config.basic then
      .error (.notImplemented "Basic athorization not supported by BMC WEBAPP") state
    else .ok ⟨⟩ state
  else .ok ⟨⟩ state

/-- The decision once every method was tried. -/
def decideSession (environment : Environment) (isPermitted : Bool) :
    EStateM Exception AuthState Bool := fun state =>
  if state.session.isSome && !isPermitted then
    .error (.obmcApp "authorization temporary restricted") state
  else if state.session.isNone then
    let refused := state.response.setStatus .unauthorized
    .ok false { state with
      response :=
        if environment.userAgent = "" then refused.setHeader wwwAuthenticate authBasic
        else refused }
  else .ok true state

/-- The methods in turn; the flags are those of the store. -/
def attemptTokens (clock : AuthClock) (environment : Environment) (state : AuthState) :
    AuthState :=
  let afterXtoken := attempt state.store.authMethodsConfig.xtoken
    (performXtokenAuth clock.xtoken environment) state
  attempt afterXtoken.store.authMethodsConfig.cookie
    (performCookieAuth clock.cookie environment) afterXtoken

/-- `authenticate`, where `isPermitted` is what the session's check of the boot flag
gives. -/
def authenticate (clock : AuthClock) (environment : Environment) (isPermitted : Bool) :
    EStateM Exception AuthState Bool := do
  modify (attemptTokens clock environment)
  attemptAuthorization clock.token environment
  decideSession environment isPermitted

/-- A token is live for a login: it has the right length and the store finds it. -/
def Live (clock : LoginClock) (token : String) (store : SessionStore) (session : UserSession) :
    Prop :=
  token.utf8ByteSize = sessionTokenSize ∧
    (store.loginSessionByToken clock token).1 = some session

/-- The X-Auth-Token method gives the session. -/
def XtokenSatisfied (clock : LoginClock) (environment : Environment) (store : SessionStore)
    (session : UserSession) : Prop :=
  store.authMethodsConfig.xtoken = true ∧
    ∃ token, environment.others.find? xAuthToken = some token ∧ token ≠ "" ∧
      Live clock token store session

/-- The request needs no CSRF token, or presents that of the session. -/
def CsrfPresented (environment : Environment) (session : UserSession) : Prop :=
  environment.requestMethod = .get ∨
    ∃ csrf, environment.others.find? xXSRFToken = some csrf ∧ csrf ≠ "" ∧
      csrf.utf8ByteSize = sessionTokenSize ∧ csrf = session.csrfToken

/-- The cookie method gives the session. -/
def CookieSatisfied (clock : LoginClock) (environment : Environment) (store : SessionStore)
    (session : UserSession) : Prop :=
  store.authMethodsConfig.cookie = true ∧
    ∃ token, environment.cookies.lookup cookieSession = some token ∧
      Live clock token store session ∧ CsrfPresented environment session

/-- The Token scheme gives the session. -/
def TokenSatisfied (clock : LoginClock) (environment : Environment) (store : SessionStore)
    (session : UserSession) : Prop :=
  store.authMethodsConfig.sessionToken = true ∧
    startsWith environment.authorization authToken = true ∧
      Live clock (afterScheme environment.authorization authToken) store session

theorem live_iff {clock : LoginClock} {token : String} {store : SessionStore}
    {session : UserSession} :
    Live clock token store session ↔
      (store.loginSessionByToken clock token).1 = some session := by
  constructor
  · exact And.right
  · intro hlogin
    exact ⟨(SessionStore.loginSessionByToken_eq_some_iff.mp hlogin).1, hlogin⟩

theorem csrfAccepted_iff {environment : Environment} {session : UserSession} :
    csrfAccepted environment session = true ↔ CsrfPresented environment session := by
  rw [csrfAccepted, CsrfPresented]
  by_cases hget : environment.requestMethod = .get
  · simp [hget]
  · cases environment.others.find? xXSRFToken with
    | none => simp [hget]
    | some csrf =>
        simp only [hget, if_false, false_or, Option.some.injEq, exists_eq_left']
        split_ifs with hempty hsize
        · constructor
          · exact nofun
          · rintro ⟨hfilled, -, hsame⟩
            exact (hempty.elim hfilled fun hnone => hfilled (hsame.trans hnone)).elim
        · simp [hsize]
        · push Not at hempty hsize
          simp [hempty.1, hsize]

theorem performXtokenAuth_iff {clock : LoginClock} {environment : Environment}
    {store : SessionStore} {session : UserSession}
    (henabled : store.authMethodsConfig.xtoken = true) :
    (performXtokenAuth clock environment store).1 = some session ↔
      XtokenSatisfied clock environment store session := by
  rw [performXtokenAuth, XtokenSatisfied]
  cases hheader : environment.others.find? xAuthToken with
  | none => simp
  | some token =>
      by_cases hempty : token = ""
      · simp [hempty]
      · simp [hempty, henabled, live_iff]

/-- With a cookie the method is the login of its value, filtered by the CSRF rule. -/
theorem performCookieAuth_of_cookie {clock : LoginClock} {environment : Environment}
    {store : SessionStore} {token : String}
    (hcookie : environment.cookies.lookup cookieSession = some token) :
    performCookieAuth clock environment store =
      ((store.loginSessionByToken clock token).1.filter (csrfAccepted environment),
        (store.loginSessionByToken clock token).2) := by
  simp only [performCookieAuth, hcookie]
  cases store.loginSessionByToken clock token with
  | mk found after =>
      cases found with
      | none => rfl
      | some session => simp only [Option.filter]

theorem performCookieAuth_iff {clock : LoginClock} {environment : Environment}
    {store : SessionStore} {session : UserSession}
    (henabled : store.authMethodsConfig.cookie = true) :
    (performCookieAuth clock environment store).1 = some session ↔
      CookieSatisfied clock environment store session := by
  rw [CookieSatisfied]
  cases hcookie : environment.cookies.lookup cookieSession with
  | none => simp [performCookieAuth, hcookie]
  | some token =>
      rw [performCookieAuth_of_cookie hcookie, Option.filter_eq_some_iff, csrfAccepted_iff]
      simp [henabled, live_iff]

theorem performTokenAuth_iff {clock : LoginClock} {environment : Environment}
    {store : SessionStore} {session : UserSession}
    (henabled : store.authMethodsConfig.sessionToken = true)
    (hscheme : startsWith environment.authorization authToken = true) :
    (performTokenAuth clock environment.authorization store).1 = some session ↔
      TokenSatisfied clock environment store session := by
  simp [performTokenAuth, TokenSatisfied, henabled, hscheme, live_iff]

/-- The store the cookie method meets. -/
def storeAfterXtoken (clock : AuthClock) (environment : Environment) (store : SessionStore) :
    SessionStore :=
  if store.authMethodsConfig.xtoken then (performXtokenAuth clock.xtoken environment store).2
  else store

/-- The store the Token scheme meets. -/
def storeAfterCookie (clock : AuthClock) (environment : Environment) (store : SessionStore) :
    SessionStore :=
  let met := storeAfterXtoken clock environment store
  if met.authMethodsConfig.cookie then (performCookieAuth clock.cookie environment met).2
  else met

/-- The session of the first satisfied method, each method judged on the store it
meets. -/
def FirstSatisfied (clock : AuthClock) (environment : Environment) (store : SessionStore)
    (session : UserSession) : Prop :=
  XtokenSatisfied clock.xtoken environment store session ∨
  (¬ (∃ earlier, XtokenSatisfied clock.xtoken environment store earlier) ∧
    CookieSatisfied clock.cookie environment (storeAfterXtoken clock environment store) session) ∨
  (¬ (∃ earlier, XtokenSatisfied clock.xtoken environment store earlier) ∧
    ¬ (∃ earlier, CookieSatisfied clock.cookie environment
      (storeAfterXtoken clock environment store) earlier) ∧
    TokenSatisfied clock.token environment (storeAfterCookie clock environment store) session)

/-! ## The decision -/

theorem attempt_of_session {enabled : Bool}
    {perform : SessionStore → Option UserSession × SessionStore} {state : AuthState}
    {session : UserSession} (hsession : state.session = some session) :
    attempt enabled perform state = state := by
  simp [attempt, hsession]

/-- On a request without a session an attempt gives what the enabled method gives. -/
theorem attempt_session {enabled : Bool}
    {perform : SessionStore → Option UserSession × SessionStore} {state : AuthState}
    {session : UserSession} (hnone : state.session = none) :
    (attempt enabled perform state).session = some session ↔
      enabled = true ∧ (perform state.store).1 = some session := by
  cases enabled <;> simp [attempt, hnone]

theorem attempt_store (enabled : Bool)
    (perform : SessionStore → Option UserSession × SessionStore) {state : AuthState}
    (hnone : state.session = none) :
    (attempt enabled perform state).store =
      if enabled then (perform state.store).2 else state.store := by
  cases enabled <;> simp [attempt, hnone]

theorem attempt_response (enabled : Bool)
    (perform : SessionStore → Option UserSession × SessionStore) (state : AuthState) :
    (attempt enabled perform state).response = state.response := by
  rw [attempt]
  split_ifs <;> rfl

theorem attempt_xtoken (clock : LoginClock) (environment : Environment) {state : AuthState}
    (hnone : state.session = none) (session : UserSession) :
    (attempt state.store.authMethodsConfig.xtoken (performXtokenAuth clock environment)
      state).session = some session ↔
      XtokenSatisfied clock environment state.store session := by
  rw [attempt_session hnone]
  constructor
  · rintro ⟨henabled, hsession⟩
    exact (performXtokenAuth_iff henabled).mp hsession
  · intro hsatisfied
    exact ⟨hsatisfied.1, (performXtokenAuth_iff hsatisfied.1).mpr hsatisfied⟩

theorem attempt_cookie (clock : LoginClock) (environment : Environment) {state : AuthState}
    (hnone : state.session = none) (session : UserSession) :
    (attempt state.store.authMethodsConfig.cookie (performCookieAuth clock environment)
      state).session = some session ↔
      CookieSatisfied clock environment state.store session := by
  rw [attempt_session hnone]
  constructor
  · rintro ⟨henabled, hsession⟩
    exact (performCookieAuth_iff henabled).mp hsession
  · intro hsatisfied
    exact ⟨hsatisfied.1, (performCookieAuth_iff hsatisfied.1).mpr hsatisfied⟩

/-- What the first two methods attach to a fresh request. -/
theorem attemptTokens_session (clock : AuthClock) (environment : Environment) {state : AuthState}
    (hnone : state.session = none) (session : UserSession) :
    (attemptTokens clock environment state).session = some session ↔
      XtokenSatisfied clock.xtoken environment state.store session ∨
      (¬ (∃ earlier, XtokenSatisfied clock.xtoken environment state.store earlier) ∧
        CookieSatisfied clock.cookie environment
          (storeAfterXtoken clock environment state.store) session) := by
  have hxtoken := attempt_xtoken clock.xtoken environment hnone
  have hstore := attempt_store state.store.authMethodsConfig.xtoken
    (performXtokenAuth clock.xtoken environment) hnone
  unfold attemptTokens
  generalize attempt state.store.authMethodsConfig.xtoken
    (performXtokenAuth clock.xtoken environment) state = afterXtoken at hxtoken hstore ⊢
  have hmet : afterXtoken.store = storeAfterXtoken clock environment state.store := hstore
  cases hsession : afterXtoken.session with
  | some attached =>
      have hsatisfied := (hxtoken attached).mp hsession
      simp only [attempt_of_session hsession]
      rw [hxtoken session]
      constructor
      · exact Or.inl
      · rintro (hsame | ⟨hnever, -⟩)
        · exact hsame
        · exact absurd ⟨attached, hsatisfied⟩ hnever
  | none =>
      have hnever : ¬ ∃ earlier, XtokenSatisfied clock.xtoken environment state.store earlier := by
        rintro ⟨earlier, hearlier⟩
        rw [(hxtoken earlier).mpr hearlier] at hsession
        cases hsession
      rw [← hmet, attempt_cookie clock.cookie environment hsession session]
      constructor
      · exact fun hcookie => .inr ⟨hnever, hcookie⟩
      · rintro (hsatisfied | ⟨-, hcookie⟩)
        · exact absurd ⟨session, hsatisfied⟩ hnever
        · exact hcookie

theorem attemptTokens_response (clock : AuthClock) (environment : Environment)
    (state : AuthState) :
    (attemptTokens clock environment state).response = state.response := by
  simp only [attemptTokens, attempt_response]

/-- Without a session after the first two methods, the Token scheme meets the store
they leave. -/
theorem attemptTokens_store (clock : AuthClock) (environment : Environment) {state : AuthState}
    (hnone : state.session = none)
    (hstill : (attemptTokens clock environment state).session = none) :
    (attemptTokens clock environment state).store =
      storeAfterCookie clock environment state.store := by
  have hmet : (attempt state.store.authMethodsConfig.xtoken
      (performXtokenAuth clock.xtoken environment) state).store =
        storeAfterXtoken clock environment state.store := attempt_store _ _ hnone
  unfold attemptTokens at hstill ⊢
  generalize attempt state.store.authMethodsConfig.xtoken
    (performXtokenAuth clock.xtoken environment) state = afterXtoken at hmet hstill ⊢
  have hsession : afterXtoken.session = none := by
    cases hattached : afterXtoken.session with
    | none => rfl
    | some attached =>
        rw [attempt_of_session hattached, hattached] at hstill
        cases hstill
  rw [attempt_store _ _ hsession, hmet]
  rfl

theorem startsWith_empty : startsWith "" authToken = false := by decide

/-- The last method, when the others attached nothing: unless the Basic scheme throws, it
attaches the session of the token. -/
theorem attemptAuthorization_spec (clock : LoginClock) (environment : Environment)
    {tried : AuthState} (htried : tried.session = none) :
    match attemptAuthorization clock environment tried with
    | .ok _ after => ∀ session, after.session = some session ↔
        TokenSatisfied clock environment tried.store session
    | .error _ _ => ¬ ∃ session, TokenSatisfied clock environment tried.store session := by
  by_cases hscheme : startsWith environment.authorization authToken = true ∧
      tried.store.authMethodsConfig.sessionToken = true
  · have hfilled : environment.authorization ≠ "" := by
      intro hempty
      rw [hempty, startsWith_empty] at hscheme
      exact absurd hscheme.1 Bool.false_ne_true
    have hok : attemptAuthorization clock environment tried = .ok ⟨⟩
        (attempt true (performTokenAuth clock environment.authorization) tried) := by
      simp [attemptAuthorization, htried, hfilled, hscheme.1, hscheme.2]
    rw [hok]
    intro session
    rw [attempt_session htried, performTokenAuth_iff hscheme.2 hscheme.1]
    simp
  · have hnever : ∀ session, ¬ TokenSatisfied clock environment tried.store session :=
      fun session htoken => hscheme ⟨htoken.2.1, htoken.1⟩
    have hskip : (startsWith environment.authorization authToken &&
        tried.store.authMethodsConfig.sessionToken) = false := by
      rw [Bool.eq_false_iff, ne_eq, Bool.and_eq_true]
      exact hscheme
    simp only [attemptAuthorization, hskip, Bool.false_eq_true, if_false]
    split_ifs
    · exact fun ⟨session, htoken⟩ => hnever session htoken
    · intro session
      simp [htried, hnever session]
    · intro session
      simp [htried, hnever session]

/-- The three methods together: unless the Basic scheme throws, they attach the
session of the first satisfied one. -/
theorem methods_spec (clock : AuthClock) (environment : Environment) {state : AuthState}
    (hnone : state.session = none) :
    match attemptAuthorization clock.token environment (attemptTokens clock environment state) with
    | .ok _ after => ∀ session, after.session = some session ↔
        FirstSatisfied clock environment state.store session
    | .error _ _ => ¬ ∃ session, FirstSatisfied clock environment state.store session := by
  have hfirst := attemptTokens_session clock environment hnone
  have hstore := attemptTokens_store clock environment hnone
  generalize attemptTokens clock environment state = tried at hfirst hstore ⊢
  cases htried : tried.session with
  | some attached =>
      have hok : attemptAuthorization clock.token environment tried = .ok ⟨⟩ tried := by
        simp [attemptAuthorization, htried]
      rw [hok]
      intro session
      rw [hfirst session]
      constructor
      · exact Or.imp id Or.inl
      · rintro (hxtoken | hcookie | ⟨hnoXtoken, hnoCookie, -⟩)
        · exact .inl hxtoken
        · exact .inr hcookie
        · rcases (hfirst attached).mp htried with hxtoken | ⟨-, hcookie⟩
          · exact absurd ⟨attached, hxtoken⟩ hnoXtoken
          · exact absurd ⟨attached, hcookie⟩ hnoCookie
  | none =>
      have hnoXtoken :
          ¬ ∃ earlier, XtokenSatisfied clock.xtoken environment state.store earlier := by
        rintro ⟨earlier, hearlier⟩
        have hattached := (hfirst earlier).mpr (.inl hearlier)
        rw [htried] at hattached
        cases hattached
      have hnoCookie : ¬ ∃ earlier, CookieSatisfied clock.cookie environment
          (storeAfterXtoken clock environment state.store) earlier := by
        rintro ⟨earlier, hearlier⟩
        have hattached := (hfirst earlier).mpr (.inr ⟨hnoXtoken, hearlier⟩)
        rw [htried] at hattached
        cases hattached
      have honly : ∀ session, FirstSatisfied clock environment state.store session ↔
          TokenSatisfied clock.token environment tried.store session := by
        intro session
        rw [hstore htried]
        constructor
        · rintro (hxtoken | ⟨-, hcookie⟩ | ⟨-, -, htoken⟩)
          · exact absurd ⟨session, hxtoken⟩ hnoXtoken
          · exact absurd ⟨session, hcookie⟩ hnoCookie
          · exact htoken
        · exact fun htoken => .inr (.inr ⟨hnoXtoken, hnoCookie, htoken⟩)
      simp only [honly]
      exact attemptAuthorization_spec clock.token environment htried

/-- The decision accepts exactly a permitted request with a session. -/
theorem decideSession_eq_true_iff {environment : Environment} {isPermitted : Bool}
    {state after : AuthState} :
    decideSession environment isPermitted state = .ok true after ↔
      isPermitted = true ∧ (∃ session, state.session = some session) ∧ after = state := by
  cases hsession : state.session with
  | none => simp [decideSession, hsession]
  | some session =>
      cases isPermitted with
      | false => simp [decideSession, hsession]
      | true => simp [decideSession, hsession, eq_comm]

/-- A request is accepted exactly when the BMC permits it and some method is
satisfied; the session attached is that of the first satisfied method. -/
theorem authenticate_eq_true_iff (clock : AuthClock) (environment : Environment)
    (isPermitted : Bool) {state : AuthState} (hnone : state.session = none) :
    ((∃ after, authenticate clock environment isPermitted state = .ok true after) ↔
      isPermitted = true ∧
        ∃ session, FirstSatisfied clock environment state.store session) ∧
    (∀ after, authenticate clock environment isPermitted state = .ok true after →
      ∃ session, after.session = some session ∧
        FirstSatisfied clock environment state.store session) := by
  have hmethods := methods_spec clock environment hnone
  have hstart : (modify (attemptTokens clock environment) : EStateM Exception AuthState PUnit)
      state = .ok ⟨⟩ (attemptTokens clock environment state) := rfl
  unfold authenticate
  rw [Fallible.bind_ok hstart]
  cases htried : attemptAuthorization clock.token environment
      (attemptTokens clock environment state) with
  | error exception after =>
      rw [htried] at hmethods
      rw [Fallible.bind_error htried]
      constructor
      · constructor
        · rintro ⟨after, hok⟩
          cases hok
        · exact fun hpermitted => absurd hpermitted.2 hmethods
      · intro after hok
        cases hok
  | ok value after =>
      rw [htried] at hmethods
      rw [Fallible.bind_ok htried]
      simp only [decideSession_eq_true_iff]
      constructor
      · constructor
        · rintro ⟨-, hpermitted, ⟨session, hsession⟩, -⟩
          exact ⟨hpermitted, session, (hmethods session).mp hsession⟩
        · rintro ⟨hpermitted, session, hsatisfied⟩
          exact ⟨after, hpermitted, ⟨session, (hmethods session).mpr hsatisfied⟩, rfl⟩
      · rintro _ ⟨-, ⟨session, hsession⟩, rfl⟩
        exact ⟨session, hsession, (hmethods session).mp hsession⟩

/-- Some method is satisfied exactly when one of the three is, each on the store it
meets. -/
theorem exists_firstSatisfied_iff {clock : AuthClock} {environment : Environment}
    {store : SessionStore} :
    (∃ session, FirstSatisfied clock environment store session) ↔
      (∃ session, XtokenSatisfied clock.xtoken environment store session) ∨
      (∃ session, CookieSatisfied clock.cookie environment
        (storeAfterXtoken clock environment store) session) ∨
      (∃ session, TokenSatisfied clock.token environment
        (storeAfterCookie clock environment store) session) := by
  constructor
  · rintro ⟨session, hxtoken | ⟨-, hcookie⟩ | ⟨-, -, htoken⟩⟩
    · exact .inl ⟨session, hxtoken⟩
    · exact .inr (.inl ⟨session, hcookie⟩)
    · exact .inr (.inr ⟨session, htoken⟩)
  · intro hsome
    by_cases hxtoken : ∃ session, XtokenSatisfied clock.xtoken environment store session
    · exact hxtoken.imp fun session hsession => .inl hsession
    · by_cases hcookie : ∃ session, CookieSatisfied clock.cookie environment
          (storeAfterXtoken clock environment store) session
      · exact hcookie.imp fun session hsession => .inr (.inl ⟨hxtoken, hsession⟩)
      · obtain ⟨session, htoken⟩ := (hsome.resolve_left hxtoken).resolve_left hcookie
        exact ⟨session, .inr (.inr ⟨hxtoken, hcookie, htoken⟩)⟩

/-! ## What authentication does to the store -/

/-- The request presents a token through one of the methods. -/
def Presents (environment : Environment) (token : String) : Prop :=
  environment.others.find? xAuthToken = some token ∨
  environment.cookies.lookup cookieSession = some token ∨
  (startsWith environment.authorization authToken = true ∧
    afterScheme environment.authorization authToken = token)

theorem kept_performXtokenAuth (clock : LoginClock) (environment : Environment)
    (store : SessionStore) : SessionStore.Kept store (performXtokenAuth clock environment store).2 := by
  rw [performXtokenAuth]
  cases environment.others.find? xAuthToken with
  | none => exact .refl store
  | some token =>
      by_cases hempty : token = ""
      · simpa [hempty] using SessionStore.Kept.refl store
      · simpa [hempty] using SessionStore.kept_loginSessionByToken clock token store

theorem kept_performCookieAuth (clock : LoginClock) (environment : Environment)
    (store : SessionStore) : SessionStore.Kept store (performCookieAuth clock environment store).2 := by
  cases hcookie : environment.cookies.lookup cookieSession with
  | none =>
      simp only [performCookieAuth, hcookie]
      exact .refl store
  | some token =>
      rw [performCookieAuth_of_cookie hcookie]
      exact SessionStore.kept_loginSessionByToken clock token store

theorem kept_attempt (enabled : Bool) {perform : SessionStore → Option UserSession × SessionStore}
    (hperform : ∀ store, SessionStore.Kept store (perform store).2) (state : AuthState) :
    SessionStore.Kept state.store (attempt enabled perform state).store := by
  rw [attempt]
  split_ifs
  · exact hperform state.store
  · exact .refl state.store

theorem kept_attemptTokens (clock : AuthClock) (environment : Environment) (state : AuthState) :
    SessionStore.Kept state.store (attemptTokens clock environment state).store := by
  have hxtoken := kept_attempt state.store.authMethodsConfig.xtoken
    (kept_performXtokenAuth clock.xtoken environment) state
  exact hxtoken.trans (kept_attempt _ (kept_performCookieAuth clock.cookie environment) _)

theorem kept_attemptAuthorization (clock : LoginClock) (environment : Environment)
    (state : AuthState) :
    Fallible.Leaves (fun after : AuthState => SessionStore.Kept state.store after.store)
      (attemptAuthorization clock environment state) := by
  have hperform : ∀ store, SessionStore.Kept store
      (performTokenAuth clock environment.authorization store).2 :=
    fun store => SessionStore.kept_loginSessionByToken clock _ store
  simp only [attemptAuthorization]
  split_ifs
  · exact kept_attempt true hperform state
  · exact .refl state.store
  · exact .refl state.store
  · exact .refl state.store

theorem decideSession_store (environment : Environment) (isPermitted : Bool)
    (state : AuthState) :
    Fallible.Leaves (fun after : AuthState => after.store = state.store)
      (decideSession environment isPermitted state) := by
  simp only [decideSession]
  split_ifs
  · exact rfl
  · exact rfl
  · exact rfl
  · exact rfl

/-- Authentication adds no session. -/
theorem kept_authenticate (clock : AuthClock) (environment : Environment) (isPermitted : Bool)
    (state : AuthState) :
    Fallible.Leaves (fun after : AuthState => SessionStore.Kept state.store after.store)
      (authenticate clock environment isPermitted state) := by
  unfold authenticate
  apply Fallible.Leaves.bind
  · exact kept_attemptTokens clock environment state
  · intro _ tried htried
    apply Fallible.Leaves.bind
    · apply (kept_attemptAuthorization clock.token environment tried).imp
      exact fun attached hattached => htried.trans hattached
    · intro _ attached hattached
      apply (decideSession_store environment isPermitted attached).imp
      intro after hafter
      rw [hafter]
      exact hattached

/-- The session of the first satisfied method was held under a token the request
presents. -/
theorem held_of_firstSatisfied {clock : AuthClock} {environment : Environment}
    {store : SessionStore} {session : UserSession}
    (hfirst : FirstSatisfied clock environment store session) :
    ∃ token stored time, Presents environment token ∧
      store.authTokens.find? token = some stored ∧
      session = { stored with lastUpdated := time } := by
  have hxtokenKept : SessionStore.Kept store (storeAfterXtoken clock environment store) := by
    rw [storeAfterXtoken]
    split_ifs
    · exact kept_performXtokenAuth clock.xtoken environment store
    · exact .refl store
  have hcookieKept : SessionStore.Kept store (storeAfterCookie clock environment store) := by
    simp only [storeAfterCookie]
    split_ifs
    · exact hxtokenKept.trans (kept_performCookieAuth clock.cookie environment _)
    · exact hxtokenKept
  have hlive : ∀ {login : LoginClock} {token : String} {met : SessionStore},
      SessionStore.Kept store met → Live login token met session →
        ∃ stored time, store.authTokens.find? token = some stored ∧
          session = { stored with lastUpdated := time } := by
    intro login token met hkept hlive
    obtain ⟨middle, time, hmiddle, rfl⟩ := SessionStore.held_of_login hlive.2
    obtain ⟨stored, earlier, hstored, rfl⟩ := hkept token middle hmiddle
    exact ⟨stored, time, hstored, rfl⟩
  rcases hfirst with hxtoken | ⟨-, hcookie⟩ | ⟨-, -, htoken⟩
  · obtain ⟨-, token, hheader, -, hfound⟩ := hxtoken
    exact ⟨token, (hlive (.refl store) hfound).imp fun _ htime => htime.imp fun _ hheld =>
      ⟨.inl hheader, hheld⟩⟩
  · obtain ⟨-, token, hheader, hfound, -⟩ := hcookie
    exact ⟨token, (hlive hxtokenKept hfound).imp fun _ htime => htime.imp fun _ hheld =>
      ⟨.inr (.inl hheader), hheld⟩⟩
  · obtain ⟨-, hscheme, hfound⟩ := htoken
    exact ⟨_, (hlive hcookieKept hfound).imp fun _ htime => htime.imp fun _ hheld =>
      ⟨.inr (.inr ⟨hscheme, rfl⟩), hheld⟩⟩

@[simp]
theorem loginSessionByToken_authMethodsConfig (clock : LoginClock) (token : String)
    (store : SessionStore) :
    (store.loginSessionByToken clock token).2.authMethodsConfig = store.authMethodsConfig := by
  simp only [SessionStore.loginSessionByToken]
  split_ifs
  · simp
  · cases (store.applySessionTimeouts clock.sweep).authTokens.find? token <;> simp

/-- A store that agrees with another on the flags and on what logins of a moment
find. -/
def SameLogins (sweep : ℤ) (store met : SessionStore) : Prop :=
  met.authMethodsConfig = store.authMethodsConfig ∧
    ∀ (later : LoginClock) (wanted : String), later.sweep = sweep →
      (met.loginSessionByToken later wanted).1 = (store.loginSessionByToken later wanted).1

theorem SameLogins.refl (sweep : ℤ) (store : SessionStore) : SameLogins sweep store store :=
  ⟨rfl, fun _ _ _ => rfl⟩

/-- A login keeps the agreement. -/
theorem SameLogins.login {clock : LoginClock} {store met : SessionStore}
    (hmet : SameLogins clock.sweep store met) (token : String) :
    SameLogins clock.sweep store (met.loginSessionByToken clock token).2 := by
  constructor
  · rw [loginSessionByToken_authMethodsConfig, hmet.1]
  · intro later wanted hsame
    rw [SessionStore.login_loginSessionByToken clock later token wanted met hsame,
      hmet.2 later wanted hsame]

theorem sameLogins_storeAfterXtoken (clock : AuthClock) (environment : Environment)
    (store : SessionStore) :
    SameLogins clock.xtoken.sweep store (storeAfterXtoken clock environment store) := by
  have hkept := SameLogins.refl clock.xtoken.sweep store
  rw [storeAfterXtoken]
  split_ifs
  · rw [performXtokenAuth]
    cases environment.others.find? xAuthToken with
    | none => exact hkept
    | some token =>
        by_cases hempty : token = ""
        · simpa [hempty] using hkept
        · simpa [hempty] using hkept.login token
  · exact hkept

theorem sameLogins_storeAfterCookie (clock : AuthClock) (environment : Environment)
    (store : SessionStore) (hsame : clock.cookie.sweep = clock.xtoken.sweep) :
    SameLogins clock.xtoken.sweep store (storeAfterCookie clock environment store) := by
  have hmet := sameLogins_storeAfterXtoken clock environment store
  simp only [storeAfterCookie]
  split_ifs
  · cases hcookie : environment.cookies.lookup cookieSession with
    | none =>
        simp only [performCookieAuth, hcookie]
        exact hmet
    | some token =>
        rw [performCookieAuth_of_cookie hcookie]
        rw [← hsame] at hmet ⊢
        exact hmet.login token
  · exact hmet

/-- When the logins read one clock, each method may be judged on the store the request
met. -/
theorem satisfied_iff_of_one_clock {clock : AuthClock} (environment : Environment)
    (store : SessionStore) (hcookie : clock.cookie.sweep = clock.xtoken.sweep)
    (htoken : clock.token.sweep = clock.xtoken.sweep) (session : UserSession) :
    (CookieSatisfied clock.cookie environment (storeAfterXtoken clock environment store)
        session ↔ CookieSatisfied clock.cookie environment store session) ∧
    (TokenSatisfied clock.token environment (storeAfterCookie clock environment store)
        session ↔ TokenSatisfied clock.token environment store session) := by
  obtain ⟨hconfig, hlogins⟩ := sameLogins_storeAfterXtoken clock environment store
  obtain ⟨hconfig', hlogins'⟩ := sameLogins_storeAfterCookie clock environment store hcookie
  constructor
  · simp only [CookieSatisfied, Live, hconfig, hlogins clock.cookie _ hcookie]
  · simp only [TokenSatisfied, Live, hconfig', hlogins' clock.token _ htoken]

end Authorization

end ObmcWebapp.Service
