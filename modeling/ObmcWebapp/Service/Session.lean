/-
# User sessions

A session is restored from a JSON record, is found by its token and leaves the
store when a sweep finds it idle for the timeout. Sweeps are throttled: one is made
only when more than a second has passed since the last. A login sweeps, looks the
token up if it has the right length, and restarts the idle time of what it found.

Times are nanoseconds of the steady clock. The timeout is kept in seconds and is
converted to 64 bit nanoseconds for the comparison, with wrap-around.
-/

import ObmcWebapp.Core.Json

namespace ObmcWebapp.Service

open ObmcWebapp.Core

/-- `sessionTokenSize`, in bytes. -/
def sessionTokenSize : ℕ := 20

inductive PersistenceType
  | timeout
  | singleRequest
  deriving DecidableEq, Repr

inductive ConfigFileStorageType
  | configLongTermStorage
  | configCurrentBmcSession
  | configCurrentServiceSession
  deriving DecidableEq, Repr

structure UserSession where
  uniqueId : String := ""
  sessionToken : String := ""
  username : String := ""
  csrfToken : String := ""
  clientIp : String := ""
  lastUpdated : ℤ := 0
  persistence : PersistenceType := .timeout
  storageType : ConfigFileStorageType := .configCurrentServiceSession
  deriving DecidableEq, Repr

namespace UserSession

/-- Who the session is for: its id, its user and its CSRF token. -/
def identity (session : UserSession) : String × String × String :=
  (session.uniqueId, session.username, session.csrfToken)

/-- One member of a record: a string under a known name sets its field. -/
def readField (session : UserSession) (element : String × Json) : UserSession :=
  match element.2.getString? with
  | none => session
  | some value =>
      if element.1 = "unique_id" then { session with uniqueId := value }
      else if element.1 = "session_token" then { session with sessionToken := value }
      else if element.1 = "csrf_token" then { session with csrfToken := value }
      else if element.1 = "username" then { session with username := value }
      else if element.1 = "client_ip" then { session with clientIp := value }
      else session

/-- `fromJson` at a reading of the clock: none when a required field is missing. -/
def fromJson (now : ℤ) (record : Json) : Option UserSession :=
  let session := record.items.foldl readField {}
  if session.uniqueId = "" ∨ session.username = "" ∨ session.sessionToken = "" ∨
      session.csrfToken = "" then none
  else some { session with lastUpdated := now, persistence := .timeout }

end UserSession

/-- The enabled authentication methods. -/
structure AuthConfigMethods where
  xtoken : Bool := true
  cookie : Bool := true
  sessionToken : Bool := true
  basic : Bool := true
  tls : Bool := false
  deriving DecidableEq, Repr

namespace AuthConfigMethods

def readFlag (config : AuthConfigMethods) (element : String × Json) : AuthConfigMethods :=
  match element.2.getBool? with
  | none => config
  | some value =>
      if element.1 = "XToken" then { config with xtoken := value }
      else if element.1 = "Cookie" then { config with cookie := value }
      else if element.1 = "SessionToken" then { config with sessionToken := value }
      else if element.1 = "BasicAuth" then { config with basic := value }
      else if element.1 = "TLS" then { config with tls := value }
      else config

/-- `fromJson`. -/
def fromJson (config : AuthConfigMethods) (record : Json) : AuthConfigMethods :=
  record.items.foldl readFlag config

end AuthConfigMethods

/-- The two readings of the clock in a login: for the sweep and for the session. -/
structure LoginClock where
  sweep : ℤ
  touch : ℤ
  deriving DecidableEq, Repr

structure SessionStore where
  authTokens : OrderedMap String UserSession := OrderedMap.empty
  lastTimeoutUpdate : ℤ := 0
  timeoutInSeconds : Int64 := 3600
  authMethodsConfig : AuthConfigMethods := {}

namespace SessionStore

def nanosecondsPerSecond : ℤ := 1000000000

/-- The timeout as the comparison converts it. -/
def timeoutInNanoseconds (store : SessionStore) : ℤ := (store.timeoutInSeconds * 1000000000).toInt

/-- A session has been idle for the timeout. -/
def expired (store : SessionStore) (timeNow : ℤ) (session : UserSession) : Bool :=
  decide (timeNow - session.lastUpdated ≥ store.timeoutInNanoseconds)

/-- A sweep is due. -/
def sweepDue (store : SessionStore) (timeNow : ℤ) : Bool :=
  decide (timeNow - store.lastTimeoutUpdate > nanosecondsPerSecond)

/-- `applySessionTimeouts`. -/
def applySessionTimeouts (timeNow : ℤ) (store : SessionStore) : SessionStore :=
  if store.sweepDue timeNow then
    { store with
      lastTimeoutUpdate := timeNow
      authTokens := store.authTokens.filter fun _ session => !store.expired timeNow session }
  else store

/-- `loginSessionByToken`: the session found, and the store afterwards. -/
def loginSessionByToken (clock : LoginClock) (token : String) (store : SessionStore) :
    Option UserSession × SessionStore :=
  let swept := store.applySessionTimeouts clock.sweep
  if token.utf8ByteSize ≠ sessionTokenSize then (none, swept)
  else
    match swept.authTokens.find? token with
    | none => (none, swept)
    | some session =>
        let touched := { session with lastUpdated := clock.touch }
        (some touched, { swept with authTokens := swept.authTokens.insertOrAssign token touched })

/-- `getSessionByUid`. The container gives its sessions in an order of its own, here in
that of their tokens. -/
def getSessionByUid (timeNow : ℤ) (uid : String) (store : SessionStore) :
    Option UserSession × SessionStore :=
  let swept := store.applySessionTimeouts timeNow
  (swept.authTokens.values.find? fun session => decide (session.uniqueId = uid), swept)

/-- `getUniqueIds`. -/
def getUniqueIds (timeNow : ℤ) (getAll : Bool) (type : PersistenceType) (store : SessionStore) :
    List String × SessionStore :=
  let swept := store.applySessionTimeouts timeNow
  let chosen := swept.authTokens.values.filter fun session =>
    getAll || decide (type = session.persistence)
  (chosen.map UserSession.uniqueId, swept)

/-- `updateSessionTimeout`. -/
def updateSessionTimeout (newTimeoutInSeconds : Int64) (store : SessionStore) : SessionStore :=
  { store with timeoutInSeconds := newTimeoutInSeconds }

@[simp]
theorem applySessionTimeouts_authMethodsConfig (timeNow : ℤ) (store : SessionStore) :
    (store.applySessionTimeouts timeNow).authMethodsConfig = store.authMethodsConfig := by
  rw [applySessionTimeouts]
  split_ifs <;> rfl

@[simp]
theorem applySessionTimeouts_timeoutInSeconds (timeNow : ℤ) (store : SessionStore) :
    (store.applySessionTimeouts timeNow).timeoutInSeconds = store.timeoutInSeconds := by
  rw [applySessionTimeouts]
  split_ifs <;> rfl

/-- A sweep that is due keeps the sessions that have not expired. -/
theorem find?_applySessionTimeouts (timeNow : ℤ) (store : SessionStore) (token : String) :
    (store.applySessionTimeouts timeNow).authTokens.find? token =
      if store.sweepDue timeNow then
        (store.authTokens.find? token).filter fun session => !store.expired timeNow session
      else store.authTokens.find? token := by
  rw [applySessionTimeouts]
  split_ifs
  · exact OrderedMap.find?_filter _ _ _
  · rfl

/-- What a sweep leaves was there before. -/
theorem find?_of_swept {timeNow : ℤ} {store : SessionStore} {token : String}
    {session : UserSession}
    (hfound : (store.applySessionTimeouts timeNow).authTokens.find? token = some session) :
    store.authTokens.find? token = some session := by
  rw [find?_applySessionTimeouts] at hfound
  split_ifs at hfound
  · exact (Option.filter_eq_some_iff.mp hfound).1
  · exact hfound

/-- A token logs in when it has the right length and its session survives the
sweep. -/
theorem loginSessionByToken_eq_some_iff {clock : LoginClock} {token : String}
    {store : SessionStore} {session : UserSession} :
    (store.loginSessionByToken clock token).1 = some session ↔
      token.utf8ByteSize = sessionTokenSize ∧
      ∃ stored, (store.applySessionTimeouts clock.sweep).authTokens.find? token = some stored ∧
        session = { stored with lastUpdated := clock.touch } := by
  rw [loginSessionByToken]
  by_cases hsize : token.utf8ByteSize = sessionTokenSize
  · cases (store.applySessionTimeouts clock.sweep).authTokens.find? token with
    | none => simp [hsize]
    | some stored => simp [hsize, eq_comm]
  · simp [hsize]

/-- A login changes the store by a sweep and by restarting the idle time of the
token. -/
theorem find?_loginSessionByToken (clock : LoginClock) (token wanted : String)
    (store : SessionStore) :
    (store.loginSessionByToken clock token).2.authTokens.find? wanted =
      if wanted = token ∧ token.utf8ByteSize = sessionTokenSize then
        ((store.applySessionTimeouts clock.sweep).authTokens.find? token).map fun stored =>
          { stored with lastUpdated := clock.touch }
      else (store.applySessionTimeouts clock.sweep).authTokens.find? wanted := by
  rw [loginSessionByToken]
  by_cases hsize : token.utf8ByteSize = sessionTokenSize
  · by_cases hwanted : wanted = token
    · cases hfound : (store.applySessionTimeouts clock.sweep).authTokens.find? token with
      | none => simp [hsize, hwanted, hfound]
      | some stored => simp [hsize, hwanted]
    · cases (store.applySessionTimeouts clock.sweep).authTokens.find? token with
      | none => simp [hsize, hwanted]
      | some stored => simp [hsize, hwanted]
  · simp [hsize]

/-- Every session a store holds was held before, with everything but its idle time. -/
def Kept (before after : SessionStore) : Prop :=
  ∀ token session, after.authTokens.find? token = some session →
    ∃ stored time, before.authTokens.find? token = some stored ∧
      session = { stored with lastUpdated := time }

theorem Kept.refl (store : SessionStore) : Kept store store :=
  fun _ session hfound => ⟨session, session.lastUpdated, hfound, rfl⟩

theorem Kept.trans {first second third : SessionStore} (hfirst : Kept first second)
    (hsecond : Kept second third) : Kept first third := by
  intro token session hfound
  obtain ⟨middle, time, hmiddle, rfl⟩ := hsecond token session hfound
  obtain ⟨stored, earlier, hstored, rfl⟩ := hfirst token middle hmiddle
  exact ⟨stored, time, hstored, rfl⟩

/-- What is absent stays absent. -/
theorem Kept.absent {before after : SessionStore} (hkept : Kept before after) {token : String}
    (habsent : before.authTokens.find? token = none) : after.authTokens.find? token = none := by
  cases hfound : after.authTokens.find? token with
  | none => rfl
  | some session =>
      obtain ⟨stored, time, hstored, -⟩ := hkept token session hfound
      rw [habsent] at hstored
      cases hstored

theorem kept_loginSessionByToken (clock : LoginClock) (token : String) (store : SessionStore) :
    Kept store (store.loginSessionByToken clock token).2 := by
  intro wanted session hfound
  rw [find?_loginSessionByToken] at hfound
  by_cases htouched : wanted = token ∧ token.utf8ByteSize = sessionTokenSize
  · rw [if_pos htouched, Option.map_eq_some_iff] at hfound
    obtain ⟨stored, hstored, rfl⟩ := hfound
    rw [htouched.1]
    exact ⟨stored, clock.touch, find?_of_swept hstored, rfl⟩
  · rw [if_neg htouched] at hfound
    exact ⟨session, session.lastUpdated, find?_of_swept hfound, rfl⟩

/-- A login that succeeds gives a session the store held under the token. -/
theorem held_of_login {clock : LoginClock} {token : String} {store : SessionStore}
    {session : UserSession} (hlogin : (store.loginSessionByToken clock token).1 = some session) :
    ∃ stored time, store.authTokens.find? token = some stored ∧
      session = { stored with lastUpdated := time } := by
  obtain ⟨-, stored, hstored, rfl⟩ := loginSessionByToken_eq_some_iff.mp hlogin
  exact ⟨stored, clock.touch, find?_of_swept hstored, rfl⟩

/-- At one reading of the clock a second sweep changes nothing. -/
theorem sweepDue_loginSessionByToken (clock : LoginClock) (token : String)
    (store : SessionStore) :
    (store.loginSessionByToken clock token).2.sweepDue clock.sweep = false := by
  have hswept : (store.applySessionTimeouts clock.sweep).sweepDue clock.sweep = false := by
    rw [applySessionTimeouts]
    by_cases hdue : store.sweepDue clock.sweep = true
    · rw [if_pos hdue]
      simp [sweepDue, nanosecondsPerSecond]
    · rw [if_neg hdue]
      exact Bool.eq_false_iff.mpr hdue
  have hstamp : (store.loginSessionByToken clock token).2.lastTimeoutUpdate =
      (store.applySessionTimeouts clock.sweep).lastTimeoutUpdate := by
    simp only [loginSessionByToken]
    split_ifs
    · rfl
    · cases (store.applySessionTimeouts clock.sweep).authTokens.find? token <;> rfl
  rw [sweepDue, hstamp]
  exact hswept

/-- A login does not change what a second login of the same moment finds. -/
theorem login_loginSessionByToken (clock later : LoginClock) (token wanted : String)
    (store : SessionStore) (hsame : later.sweep = clock.sweep) :
    ((store.loginSessionByToken clock token).2.loginSessionByToken later wanted).1 =
      (store.loginSessionByToken later wanted).1 := by
  have hkept : ((store.loginSessionByToken clock token).2.applySessionTimeouts later.sweep) =
      (store.loginSessionByToken clock token).2 := by
    rw [applySessionTimeouts, hsame, sweepDue_loginSessionByToken]
    rfl
  ext session
  rw [loginSessionByToken_eq_some_iff,
    loginSessionByToken_eq_some_iff, hkept, find?_loginSessionByToken, hsame]
  by_cases htouched : wanted = token ∧ token.utf8ByteSize = sessionTokenSize
  · simp [htouched.1, htouched.2]
  · simp only [htouched, if_false]

end SessionStore

end ObmcWebapp.Service
