/-
# What a refused request does to idle times

A login restarts the idle time of the session it finds before anything else is decided
about the request. The CSRF rule of the cookie method, the boot flag and the Basic
scheme come later, so a request may be refused after a session was restarted for it.

The logins of one call are at most three, each with the token its method presents. From
these the time every session shows afterwards is known beforehand: the reading of the
last login that presented its token, and otherwise the time it had.
-/

import ObmcWebapp.Service.Authorization

namespace ObmcWebapp.Service

open ObmcWebapp.Core

namespace Authorization

/-- The token the X-Auth-Token method logs in with. -/
def xtokenOf (environment : Environment) (store : SessionStore) : Option String :=
  if store.authMethodsConfig.xtoken then
    (environment.others.find? xAuthToken).filter fun token => decide (token ≠ "")
  else none

/-- The token the cookie method logs in with. -/
def cookieOf (environment : Environment) (store : SessionStore) : Option String :=
  if store.authMethodsConfig.cookie then environment.cookies.lookup cookieSession else none

/-- The token the Token scheme logs in with. -/
def tokenOf (environment : Environment) (store : SessionStore) : Option String :=
  if startsWith environment.authorization authToken && store.authMethodsConfig.sessionToken then
    some (afterScheme environment.authorization authToken)
  else none

/-- When a login with the presented token restarts a session. -/
def restartOf (clock : LoginClock) (presented : Option String) (token : String) : Option ℤ :=
  if presented = some token ∧ token.utf8ByteSize = sessionTokenSize then some clock.touch else none

/-- When the last login of a call that presents a token restarts its session. A method
that attaches a session is the last. -/
def restartedAt (clock : AuthClock) (environment : Environment) (store : SessionStore)
    (token : String) : Option ℤ :=
  if store.authMethodsConfig.xtoken &&
      (performXtokenAuth clock.xtoken environment store).1.isSome then
    restartOf clock.xtoken (xtokenOf environment store) token
  else if store.authMethodsConfig.cookie && (performCookieAuth clock.cookie environment
      (storeAfterXtoken clock environment store)).1.isSome then
    restartOf clock.cookie (cookieOf environment store) token
  else
    (restartOf clock.token (tokenOf environment store) token).or
      (restartOf clock.cookie (cookieOf environment store) token)

/-- The store after a login with the presented token, if there is one. -/
def loginWith (clock : LoginClock) (presented : Option String) (store : SessionStore) :
    SessionStore :=
  presented.elim store fun token => (store.loginSessionByToken clock token).2

theorem performXtokenAuth_store (clock : LoginClock) (environment : Environment)
    (store : SessionStore) :
    (if store.authMethodsConfig.xtoken then (performXtokenAuth clock environment store).2
      else store) = loginWith clock (xtokenOf environment store) store := by
  unfold xtokenOf performXtokenAuth loginWith
  split_ifs
  · cases environment.others.find? xAuthToken with
    | none => rfl
    | some token => by_cases hempty : token = "" <;> simp [hempty, Option.filter]
  · rfl

theorem performCookieAuth_store (clock : LoginClock) (environment : Environment)
    (store : SessionStore) :
    (if store.authMethodsConfig.cookie then (performCookieAuth clock environment store).2
      else store) = loginWith clock (cookieOf environment store) store := by
  unfold cookieOf loginWith
  split_ifs
  · cases hcookie : environment.cookies.lookup cookieSession with
    | none => simp [performCookieAuth, hcookie]
    | some token => simp [performCookieAuth_of_cookie hcookie]
  · rfl

/-- Every session of the later store was in the earlier one and shows the given time, or
that it had. -/
def Timed (store met : SessionStore) (restarts : String → Option ℤ) : Prop :=
  ∀ token session, met.authTokens.find? token = some session →
    ∃ stored, store.authTokens.find? token = some stored ∧
      session.lastUpdated = (restarts token).getD stored.lastUpdated

theorem Timed.refl (store : SessionStore) : Timed store store fun _ => none :=
  fun _ session hfound => ⟨session, hfound, rfl⟩

/-- A login restarts the session of its token. -/
theorem Timed.loginWith {store met : SessionStore} {restarts : String → Option ℤ}
    (htimed : Timed store met restarts) (clock : LoginClock) (presented : Option String) :
    Timed store (loginWith clock presented met) fun token =>
      (restartOf clock presented token).or (restarts token) := by
  intro token session hfound
  cases presented with
  | none =>
      obtain ⟨stored, hstored, htime⟩ := htimed token session hfound
      exact ⟨stored, hstored, by simpa [restartOf] using htime⟩
  | some own =>
      rw [Authorization.loginWith, Option.elim_some, SessionStore.find?_loginSessionByToken] at hfound
      by_cases hown : token = own ∧ own.utf8ByteSize = sessionTokenSize
      · obtain ⟨rfl, hsize⟩ := hown
        rw [if_pos ⟨rfl, hsize⟩, Option.map_eq_some_iff] at hfound
        obtain ⟨middle, hmiddle, rfl⟩ := hfound
        obtain ⟨stored, hstored, -⟩ := htimed token middle (SessionStore.find?_of_swept hmiddle)
        exact ⟨stored, hstored, by simp [restartOf, hsize]⟩
      · rw [if_neg hown] at hfound
        obtain ⟨stored, hstored, htime⟩ :=
          htimed token session (SessionStore.find?_of_swept hfound)
        have hother : ¬ (some own = some token ∧ token.utf8ByteSize = sessionTokenSize) := by
          rintro ⟨hsame, hsize⟩
          cases hsame
          exact hown ⟨rfl, hsize⟩
        exact ⟨stored, hstored, by simpa only [restartOf, if_neg hother, Option.none_or] using htime⟩

/-- A login that finds nothing restarts nothing. -/
theorem Timed.loginWith_none {store met : SessionStore} {restarts : String → Option ℤ}
    (htimed : Timed store met restarts) {clock : LoginClock} {presented : Option String}
    (hnone : ∀ token, presented = some token → (met.loginSessionByToken clock token).1 = none) :
    Timed store (Authorization.loginWith clock presented met) restarts := by
  intro token session hfound
  cases presented with
  | none => exact htimed token session hfound
  | some own =>
      rw [Authorization.loginWith, Option.elim_some, SessionStore.find?_loginSessionByToken] at hfound
      by_cases hown : token = own ∧ own.utf8ByteSize = sessionTokenSize
      · rw [if_pos hown, Option.map_eq_some_iff] at hfound
        obtain ⟨middle, hmiddle, -⟩ := hfound
        have hlogin := SessionStore.loginSessionByToken_eq_some_iff.mpr
          ⟨hown.2, middle, hmiddle, rfl⟩
        rw [hnone own rfl] at hlogin
        cases hlogin
      · rw [if_neg hown] at hfound
        exact htimed token session (SessionStore.find?_of_swept hfound)

theorem storeAfterXtoken_eq (clock : AuthClock) (environment : Environment)
    (store : SessionStore) :
    storeAfterXtoken clock environment store =
      loginWith clock.xtoken (xtokenOf environment store) store :=
  performXtokenAuth_store clock.xtoken environment store

@[simp]
theorem storeAfterXtoken_authMethodsConfig (clock : AuthClock) (environment : Environment)
    (store : SessionStore) :
    (storeAfterXtoken clock environment store).authMethodsConfig = store.authMethodsConfig :=
  (sameLogins_storeAfterXtoken clock environment store).1

theorem storeAfterCookie_eq (clock : AuthClock) (environment : Environment)
    (store : SessionStore) :
    storeAfterCookie clock environment store =
      loginWith clock.cookie (cookieOf environment store)
        (storeAfterXtoken clock environment store) := by
  have hmethod := performCookieAuth_store clock.cookie environment
    (storeAfterXtoken clock environment store)
  have hpresented : cookieOf environment (storeAfterXtoken clock environment store) =
      cookieOf environment store := by
    rw [cookieOf, storeAfterXtoken_authMethodsConfig, cookieOf]
  rw [hpresented] at hmethod
  exact hmethod

@[simp]
theorem storeAfterCookie_authMethodsConfig (clock : AuthClock) (environment : Environment)
    (store : SessionStore) :
    (storeAfterCookie clock environment store).authMethodsConfig = store.authMethodsConfig := by
  rw [storeAfterCookie_eq, loginWith]
  cases cookieOf environment store <;> simp

/-- The X-Auth-Token method attaches no session: the login of its token finds none. -/
theorem login_xtokenOf_none {clock : LoginClock} {environment : Environment}
    {store : SessionStore}
    (hnever : (store.authMethodsConfig.xtoken &&
      (performXtokenAuth clock environment store).1.isSome) = false) (token : String)
    (hpresented : xtokenOf environment store = some token) :
    (store.loginSessionByToken clock token).1 = none := by
  rw [xtokenOf] at hpresented
  split_ifs at hpresented with henabled
  obtain ⟨hheader, hfilled⟩ := Option.filter_eq_some_iff.mp hpresented
  have hfilled : token ≠ "" := of_decide_eq_true hfilled
  rw [henabled, Bool.true_and, performXtokenAuth, hheader] at hnever
  simpa [hfilled] using hnever

section Attempts

variable (clock : AuthClock) (environment : Environment)

/-- The X-Auth-Token method attaches a session. -/
def xtokenAttaches (store : SessionStore) : Bool :=
  store.authMethodsConfig.xtoken && (performXtokenAuth clock.xtoken environment store).1.isSome

/-- The cookie method attaches a session to a request that has none when it is tried. -/
def cookieAttaches (store : SessionStore) : Bool :=
  store.authMethodsConfig.cookie && (performCookieAuth clock.cookie environment
    (storeAfterXtoken clock environment store)).1.isSome

variable {clock environment} {store : SessionStore} {state : AuthState}

theorem restartedAt_of_xtoken (hxtoken : xtokenAttaches clock environment store = true) :
    restartedAt clock environment store =
      restartOf clock.xtoken (xtokenOf environment store) :=
  funext fun _ => if_pos hxtoken

theorem restartedAt_of_cookie (hxtoken : xtokenAttaches clock environment store = false)
    (hcookie : cookieAttaches clock environment store = true) :
    restartedAt clock environment store =
      restartOf clock.cookie (cookieOf environment store) := by
  funext token
  exact (if_neg (Bool.eq_false_iff.mp hxtoken)).trans (if_pos hcookie)

theorem restartedAt_of_neither (hxtoken : xtokenAttaches clock environment store = false)
    (hcookie : cookieAttaches clock environment store = false) :
    restartedAt clock environment store = fun token =>
      (restartOf clock.token (tokenOf environment store) token).or
        (restartOf clock.cookie (cookieOf environment store) token) := by
  funext token
  exact (if_neg (Bool.eq_false_iff.mp hxtoken)).trans (if_neg (Bool.eq_false_iff.mp hcookie))

theorem timed_storeAfterXtoken : Timed store (storeAfterXtoken clock environment store)
    (restartOf clock.xtoken (xtokenOf environment store)) := by
  have htimed := (Timed.refl store).loginWith clock.xtoken (xtokenOf environment store)
  simp only [Option.or_none] at htimed
  rw [storeAfterXtoken_eq]
  exact htimed

/-- When the first method attaches nothing, only the cookie's session is restarted. -/
theorem timed_storeAfterCookie (hxtoken : xtokenAttaches clock environment store = false) :
    Timed store (storeAfterCookie clock environment store)
      (restartOf clock.cookie (cookieOf environment store)) := by
  have hmet : Timed store (storeAfterXtoken clock environment store) fun _ => none := by
    rw [storeAfterXtoken_eq]
    exact (Timed.refl store).loginWith_none (login_xtokenOf_none hxtoken)
  have htimed := hmet.loginWith clock.cookie (cookieOf environment store)
  simp only [Option.or_none] at htimed
  rw [storeAfterCookie_eq]
  exact htimed

theorem attempt_isSome (enabled : Bool)
    (perform : SessionStore → Option UserSession × SessionStore) (hnone : state.session = none) :
    (attempt enabled perform state).session.isSome =
      (enabled && (perform state.store).1.isSome) := by
  cases enabled <;> simp [attempt, hnone]

/-- When the first method attaches a session, no other is tried. -/
theorem attemptTokens_of_xtoken (hnone : state.session = none)
    (hxtoken : xtokenAttaches clock environment state.store = true) :
    (attemptTokens clock environment state).session ≠ none ∧
      (attemptTokens clock environment state).store =
        storeAfterXtoken clock environment state.store := by
  have hsome := (attempt_isSome _ (performXtokenAuth clock.xtoken environment) hnone).trans hxtoken
  have hstore : (attempt state.store.authMethodsConfig.xtoken
      (performXtokenAuth clock.xtoken environment) state).store =
        storeAfterXtoken clock environment state.store := attempt_store _ _ hnone
  obtain ⟨attached, hattached⟩ := Option.isSome_iff_exists.mp hsome
  have hkept : attemptTokens clock environment state =
      attempt state.store.authMethodsConfig.xtoken
        (performXtokenAuth clock.xtoken environment) state := attempt_of_session hattached
  rw [hkept]
  exact ⟨Option.isSome_iff_ne_none.mp hsome, hstore⟩

/-- When it does not, the cookie method decides whether a session is attached. -/
theorem attemptTokens_of_not_xtoken (hnone : state.session = none)
    (hxtoken : xtokenAttaches clock environment state.store = false) :
    (attemptTokens clock environment state).session.isSome =
        cookieAttaches clock environment state.store ∧
      (attemptTokens clock environment state).store =
        storeAfterCookie clock environment state.store := by
  have hstore : (attempt state.store.authMethodsConfig.xtoken
      (performXtokenAuth clock.xtoken environment) state).store =
        storeAfterXtoken clock environment state.store := attempt_store _ _ hnone
  have hstill : (attempt state.store.authMethodsConfig.xtoken
      (performXtokenAuth clock.xtoken environment) state).session = none := by
    rw [← Option.isNone_iff_eq_none, ← Option.isSome_eq_false_iff, attempt_isSome _ _ hnone]
    exact hxtoken
  unfold attemptTokens
  constructor
  · rw [attempt_isSome _ _ hstill, hstore, storeAfterXtoken_authMethodsConfig, cookieAttaches]
  · rw [attempt_store _ _ hstill, hstore, storeAfterCookie]

variable (clock environment) in
/-- The store after the two token methods, and when its sessions were restarted. -/
theorem timed_attemptTokens (hnone : state.session = none) :
    ((attemptTokens clock environment state).session = none →
      (attemptTokens clock environment state).store.authMethodsConfig =
        state.store.authMethodsConfig ∧
      Timed state.store (attemptTokens clock environment state).store
        (restartOf clock.cookie (cookieOf environment state.store)) ∧
      restartedAt clock environment state.store = fun token =>
        (restartOf clock.token (tokenOf environment state.store) token).or
          (restartOf clock.cookie (cookieOf environment state.store) token)) ∧
    ((attemptTokens clock environment state).session ≠ none →
      Timed state.store (attemptTokens clock environment state).store
        (restartedAt clock environment state.store)) := by
  cases hxtoken : xtokenAttaches clock environment state.store with
  | true =>
      obtain ⟨hattached, hstore⟩ := attemptTokens_of_xtoken hnone hxtoken
      refine ⟨fun hnever => absurd hnever hattached, fun _ => ?_⟩
      rw [hstore, restartedAt_of_xtoken hxtoken]
      exact timed_storeAfterXtoken
  | false =>
      obtain ⟨hsession, hstore⟩ := attemptTokens_of_not_xtoken hnone hxtoken
      have htimed := timed_storeAfterCookie hxtoken
      rw [hstore]
      constructor
      · intro hnever
        rw [hnever] at hsession
        exact ⟨storeAfterCookie_authMethodsConfig clock environment state.store, htimed,
          restartedAt_of_neither hxtoken hsession.symm⟩
      · intro hsome
        rw [restartedAt_of_cookie hxtoken (hsession.symm.trans (Option.isSome_iff_ne_none.mpr hsome))]
        exact htimed

end Attempts

theorem timed_attemptAuthorization (clock : LoginClock) (environment : Environment)
    {tried : AuthState} {store : SessionStore} {restarts : String → Option ℤ}
    (hnone : tried.session = none)
    (hconfig : tried.store.authMethodsConfig = store.authMethodsConfig)
    (htimed : Timed store tried.store restarts) :
    Fallible.Leaves (fun after : AuthState => Timed store after.store fun token =>
      (restartOf clock (tokenOf environment store) token).or (restarts token))
      (attemptAuthorization clock environment tried) := by
  have hunpresented : ∀ token, restartOf clock none token = none := fun token => by
    simp [restartOf]
  have hlogin := htimed.loginWith clock (tokenOf environment store)
  simp only [attemptAuthorization, hnone, hconfig]
  cases hscheme : startsWith environment.authorization authToken &&
      store.authMethodsConfig.sessionToken with
  | true =>
      have hpresented : tokenOf environment store =
          some (afterScheme environment.authorization authToken) := by
        rw [tokenOf, hscheme, if_pos rfl]
      have hfilled : environment.authorization ≠ "" := by
        intro hempty
        rw [hempty, startsWith_empty] at hscheme
        cases hscheme
      rw [hpresented] at hlogin ⊢
      simpa [hfilled, attempt, hnone, performTokenAuth, Fallible.Leaves, loginWith] using hlogin
  | false =>
      have hpresented : tokenOf environment store = none := by
        rw [tokenOf, hscheme, if_neg Bool.false_ne_true]
      simp only [hpresented, hunpresented, Option.none_or]
      split_ifs
      all_goals first | exact htimed | contradiction

/-- Whatever authentication comes to, it leaves every session with the time of the last
login that presented its token, or with the time it had. -/
theorem timed_authenticate (clock : AuthClock) (environment : Environment) (isPermitted : Bool)
    {state : AuthState} (hnone : state.session = none) :
    Fallible.Leaves (fun after : AuthState =>
      Timed state.store after.store (restartedAt clock environment state.store))
      (authenticate clock environment isPermitted state) := by
  have hstart : (modify (attemptTokens clock environment) : EStateM Exception AuthState PUnit)
      state = .ok ⟨⟩ (attemptTokens clock environment state) := rfl
  obtain ⟨hstill, hattached⟩ := timed_attemptTokens clock environment hnone
  unfold authenticate
  rw [Fallible.bind_ok hstart]
  apply Fallible.Leaves.bind
  · cases htried : (attemptTokens clock environment state).session with
    | none =>
        obtain ⟨hconfig, htimed, hrestarts⟩ := hstill htried
        rw [hrestarts]
        exact timed_attemptAuthorization clock.token environment htried hconfig htimed
    | some attached =>
        have hok : attemptAuthorization clock.token environment
            (attemptTokens clock environment state) =
              .ok ⟨⟩ (attemptTokens clock environment state) := by
          simp [attemptAuthorization, htried]
        rw [hok]
        have hsome : (attemptTokens clock environment state).session ≠ none := by
          rw [htried]
          exact Option.some_ne_none _
        exact hattached hsome
  · intro _ tried htimed
    apply (decideSession_store environment isPermitted tried).imp
    intro after hafter
    rw [hafter]
    exact htimed

/-- Authentication does not return true: it returns false or throws. -/
def RefusedWith (result : EStateM.Result Exception AuthState Bool) (after : AuthState) : Prop :=
  result = .ok false after ∨ ∃ exception, result = .error exception after

/-- A session that a refused request leaves in the store shows the time it had exactly
when no login of the request presented its token, or did so at that very time. -/
theorem refused_extends_iff (clock : AuthClock) (environment : Environment)
    (isPermitted : Bool) {state after : AuthState} (hnone : state.session = none)
    (hrefused : RefusedWith (authenticate clock environment isPermitted state) after)
    {token : String} {session : UserSession}
    (hremains : after.store.authTokens.find? token = some session) :
    ∃ stored, state.store.authTokens.find? token = some stored ∧
      (session.lastUpdated = stored.lastUpdated ↔
        ∀ time, restartedAt clock environment state.store token = some time →
          time = stored.lastUpdated) := by
  have htimed := timed_authenticate clock environment isPermitted hnone
  have hleft : Timed state.store after.store (restartedAt clock environment state.store) := by
    rcases hrefused with hresult | ⟨exception, hresult⟩
    · rw [hresult] at htimed
      exact htimed
    · rw [hresult] at htimed
      exact htimed
  obtain ⟨stored, hstored, htime⟩ := hleft token session hremains
  refine ⟨stored, hstored, ?_⟩
  rw [htime]
  cases restartedAt clock environment state.store token with
  | none => simp
  | some time => simp

/-- A session that was last used at 0. -/
def sampleSession : UserSession where
  uniqueId := "1"
  sessionToken := "abcdefghijklmnopqrst"
  username := "user"
  csrfToken := "tsrqponmlkjihgfedcba"

/-- A store with the session, and a request that has none yet. -/
def sampleState : AuthState where
  store.authTokens := OrderedMap.empty.emplace sampleSession.sessionToken sampleSession
  session := none
  response := {}

/-- A request that presents the session's cookie, and no CSRF token. -/
def cookieRequest (method : RequestMethod) : Environment where
  requestMethod := method
  others := OrderedMap.empty
  cookies := [(cookieSession, "abcdefghijklmnopqrst")]
  authorization := ""
  userAgent := ""
  requestUri := "/"

def sampleClock : AuthClock := ⟨⟨5, 5⟩, ⟨5, 5⟩, ⟨5, 5⟩⟩

/-- The store the POST request leaves. -/
def storeAfterPost : SessionStore :=
  (sampleState.store.loginSessionByToken sampleClock.cookie sampleSession.sessionToken).2

theorem authenticate_post : ∃ after,
    authenticate sampleClock (cookieRequest .post) true sampleState = .ok false after ∧
      after.store = storeAfterPost :=
  ⟨_, rfl, rfl⟩

theorem storeAfterPost_find? :
    storeAfterPost.authTokens.find? sampleSession.sessionToken =
      some { sampleSession with lastUpdated := 5 } := by decide

/-- The POST request is refused, and the session is not left with the time it had. -/
theorem refused_extends_iff_post :
    ∃ stored, sampleState.store.authTokens.find? sampleSession.sessionToken = some stored ∧
      ({ sampleSession with lastUpdated := 5 } : UserSession).lastUpdated ≠ stored.lastUpdated := by
  obtain ⟨after, hresult, hstore⟩ := authenticate_post
  have hremains : after.store.authTokens.find? sampleSession.sessionToken =
      some { sampleSession with lastUpdated := 5 } := by
    rw [hstore]
    exact storeAfterPost_find?
  obtain ⟨stored, hstored, hiff⟩ := refused_extends_iff sampleClock (cookieRequest .post) true
    (show sampleState.session = none from rfl) (.inl hresult) hremains
  refine ⟨stored, hstored, fun hsame => ?_⟩
  have hrestarted : restartedAt sampleClock (cookieRequest .post) sampleState.store
      sampleSession.sessionToken = some 5 := by decide
  have htime := hiff.mp hsame 5 hrestarted
  have hzero : stored = sampleSession := (Option.some.inj hstored).symm
  rw [hzero] at htime
  cases htime

/-- A request that is refused restarts a session. -/
theorem refused_post_restarts :
    ¬ ∀ (clock : AuthClock) (environment : Environment) (isPermitted : Bool)
      (state after : AuthState), state.session = none →
      RefusedWith (authenticate clock environment isPermitted state) after →
      ∀ token stored session, state.store.authTokens.find? token = some stored →
        after.store.authTokens.find? token = some session →
          session.lastUpdated = stored.lastUpdated := by
  intro hclaim
  obtain ⟨after, hresult, hstore⟩ := authenticate_post
  have hremains : after.store.authTokens.find? sampleSession.sessionToken =
      some { sampleSession with lastUpdated := 5 } := by
    rw [hstore]
    exact storeAfterPost_find?
  have hsame := hclaim sampleClock (cookieRequest .post) true sampleState after rfl
    (.inl hresult) _ sampleSession _ rfl hremains
  cases hsame

end Authorization

end ObmcWebapp.Service
