/-
# Requests that end without an answer

On a booted BMC, with a file that supplies the system UUID, neither the reads nor the
decision throw, but for one request: when neither the header nor the cookie gave a
session, an Authorization value of the Basic scheme throws while that scheme is enabled,
which it is by default. The server offers this very scheme to a client it refuses.

Every other request without a live session is answered as unauthorized, with an empty
body.
-/

import ObmcWebapp.Service.Router

namespace ObmcWebapp.Service

open ObmcWebapp.Core

namespace ConfigFile

/-- The document of the file is an object with a system UUID. The members of an object
are in key order. -/
def SuppliesUuid (reading : Reading) : Prop :=
  ∃ members systemUuid, reading.file = .parsed (.object members) ∧ Entries.Sorted members ∧
    members.lookup keySystemUUID = some (.string systemUuid) ∧ systemUuid ≠ ""

/-- The store after a read. -/
def takeOver (reading : Reading) (store : SessionStore) : SessionStore :=
  ((itemsOf reading.file).foldl (readItem reading.now) ⟨"", store⟩).store

/-- A member of the document changes the store in a way that does not depend on the
system UUID. -/
theorem readItem_store (now : ℤ) (state : ConfigState) (systemUuid : String)
    (item : String × Json) :
    (readItem now { state with systemUuid := systemUuid } item).store =
      (readItem now state item).store := by
  simp only [readItem]
  split_ifs
  · rfl
  · rfl
  · rfl
  · rfl
  · cases item.2.getInt64? <;> rfl
  · rfl

theorem readItems_store (now : ℤ) (items : List (String × Json)) {first second : ConfigState}
    (hstore : first.store = second.store) :
    (items.foldl (readItem now) first).store = (items.foldl (readItem now) second).store := by
  induction items generalizing first second with
  | nil => exact hstore
  | cons item items ih =>
      apply ih
      have hsame : first = { second with systemUuid := first.systemUuid } := by
        rw [← hstore]
      rw [hsame]
      exact readItem_store now second first.systemUuid item

theorem readItem_systemUuid_of_ne (now : ℤ) (state : ConfigState) (item : String × Json)
    (hother : item.1 ≠ keySystemUUID) :
    (readItem now state item).systemUuid = state.systemUuid := by
  simp only [readItem, hother, if_false]
  split_ifs
  · rfl
  · rfl
  · rfl
  · cases item.2.getInt64? <;> rfl
  · rfl

theorem readItem_systemUuid (now : ℤ) (state : ConfigState) (value : Json) :
    (readItem now state (keySystemUUID, value)).systemUuid =
      value.getString?.getD state.systemUuid := by
  have hrevision : keySystemUUID ≠ keyRevision := by decide
  simp only [readItem, hrevision, if_false, if_true]

/-- The system UUID of the document is taken over. -/
theorem readItems_systemUuid (now : ℤ) {items : List (String × Json)} {systemUuid : String}
    (hsorted : Entries.Sorted items)
    (hlookup : items.lookup keySystemUUID = some (.string systemUuid)) (state : ConfigState) :
    (items.foldl (readItem now) state).systemUuid = systemUuid := by
  rw [Entries.foldl_part keySystemUUID (fun state : ConfigState => state.systemUuid)
    (fun (value : Json) old => value.getString?.getD old) (readItem_systemUuid_of_ne now)
    (readItem_systemUuid now) hsorted state, hlookup]
  rfl

/-- A read of a file that supplies the system UUID returns. -/
theorem readData_of_suppliesUuid {reading : Reading} (hsupplies : SuppliesUuid reading)
    (state : ConfigState) :
    ∃ systemUuid, readData reading state =
      .ok ⟨⟩ ⟨systemUuid, takeOver reading state.store⟩ := by
  obtain ⟨members, systemUuid, hfile, hsorted, hlookup, hfilled⟩ := hsupplies
  have hitems : itemsOf reading.file = members := by
    rw [hfile]
    rfl
  have huuid := readItems_systemUuid reading.now hsorted hlookup state
  have hstore : ((itemsOf reading.file).foldl (readItem reading.now) state).store =
      takeOver reading state.store := readItems_store reading.now _ rfl
  refine ⟨systemUuid, ?_⟩
  simp only [readData, hitems, huuid, if_neg hfilled]
  rw [← hstore, hitems, ← huuid]

end ConfigFile

namespace ServiceState

/-- The store after the reads of a call: the first call constructs the configuration
object before. -/
def storeRead (construction reading : Reading) (state : ServiceState) : SessionStore :=
  match state.systemUuid with
  | some _ => ConfigFile.takeOver reading state.store
  | none => ConfigFile.takeOver reading (ConfigFile.takeOver construction state.store)

/-- The reads of files that supply the system UUID return. -/
theorem readData_of_suppliesUuid {construction reading : Reading}
    (hconstruction : ConfigFile.SuppliesUuid construction)
    (hreading : ConfigFile.SuppliesUuid reading) (state : ServiceState) :
    ∃ systemUuid, readData construction reading state =
      .ok ⟨⟩ ⟨systemUuid, storeRead construction reading state⟩ := by
  have hreread : ∀ (systemUuid : String) (met : ServiceState), ∃ after,
      reread reading systemUuid met = .ok ⟨⟩ ⟨after, ConfigFile.takeOver reading met.store⟩ := by
    intro systemUuid met
    obtain ⟨after, hread⟩ :=
      ConfigFile.readData_of_suppliesUuid hreading ⟨systemUuid, met.store⟩
    exact ⟨some after, by rw [reread, hread]⟩
  cases huuid : state.systemUuid with
  | some systemUuid =>
      simp only [readData, storeRead, huuid]
      exact hreread systemUuid state
  | none =>
      simp only [readData, storeRead, huuid]
      obtain ⟨systemUuid, hread⟩ :=
        ConfigFile.readData_of_suppliesUuid hconstruction ⟨"", state.store⟩
      have hconstruct : construct construction state = .ok systemUuid
          ⟨some systemUuid, ConfigFile.takeOver construction state.store⟩ := by
        rw [construct, hread]
      rw [Fallible.bind_ok hconstruct]
      exact hreread systemUuid _

end ServiceState

namespace Authorization

/-- Neither the header nor the cookie gives a session, and the Authorization value is of
the Basic scheme, which is enabled. -/
structure BasicRequested (clock : AuthClock) (environment : Environment)
    (store : SessionStore) : Prop where
  noXtoken : ¬ ∃ session, XtokenSatisfied clock.xtoken environment store session
  noCookie : ¬ ∃ session, CookieSatisfied clock.cookie environment
    (storeAfterXtoken clock environment store) session
  scheme : startsWith environment.authorization authBasic = true
  enabled : store.authMethodsConfig.basic = true

theorem performXtokenAuth_authMethodsConfig (clock : LoginClock) (environment : Environment)
    (store : SessionStore) :
    (performXtokenAuth clock environment store).2.authMethodsConfig = store.authMethodsConfig := by
  rw [performXtokenAuth]
  cases environment.others.find? xAuthToken with
  | none => rfl
  | some token =>
      simp only
      split_ifs
      · rfl
      · exact loginSessionByToken_authMethodsConfig clock token store

theorem performCookieAuth_authMethodsConfig (clock : LoginClock) (environment : Environment)
    (store : SessionStore) :
    (performCookieAuth clock environment store).2.authMethodsConfig = store.authMethodsConfig := by
  cases hcookie : environment.cookies.lookup cookieSession with
  | none => simp only [performCookieAuth, hcookie]
  | some token =>
      rw [performCookieAuth_of_cookie hcookie]
      exact loginSessionByToken_authMethodsConfig clock token store

theorem attempt_authMethodsConfig (enabled : Bool)
    {perform : SessionStore → Option UserSession × SessionStore}
    (hperform : ∀ store, (perform store).2.authMethodsConfig = store.authMethodsConfig)
    (state : AuthState) :
    (attempt enabled perform state).store.authMethodsConfig = state.store.authMethodsConfig := by
  rw [attempt]
  split_ifs
  · exact hperform state.store
  · rfl

theorem attemptTokens_authMethodsConfig (clock : AuthClock) (environment : Environment)
    (state : AuthState) :
    (attemptTokens clock environment state).store.authMethodsConfig =
      state.store.authMethodsConfig := by
  rw [attemptTokens, attempt_authMethodsConfig _
    (performCookieAuth_authMethodsConfig clock.cookie environment)]
  exact attempt_authMethodsConfig _ (performXtokenAuth_authMethodsConfig clock.xtoken environment) _

/-- A value of the Basic scheme is not of the Token scheme. -/
theorem not_token_of_basic {authorization : String}
    (hbasic : startsWith authorization authBasic = true) :
    startsWith authorization authToken = false := by
  rw [Bool.eq_false_iff]
  intro htoken
  obtain ⟨rest, hrest⟩ := List.isPrefixOf_iff_prefix.mp hbasic
  obtain ⟨other, hother⟩ := List.isPrefixOf_iff_prefix.mp htoken
  rw [← hrest] at hother
  have htokenHead : authToken.toList.head? = some 'T' := by decide
  have hbasicHead : authBasic.toList.head? = some 'B' := by decide
  have hhead := congrArg List.head? hother
  rw [List.head?_append, List.head?_append, htokenHead, hbasicHead] at hhead
  exact absurd (Option.some.inj hhead) (by decide)

/-- The first two methods leave a request without a session exactly when neither is
satisfied. -/
theorem attemptTokens_isNone_iff (clock : AuthClock) (environment : Environment)
    {state : AuthState} (hnone : state.session = none) :
    (attemptTokens clock environment state).session = none ↔
      (¬ ∃ session, XtokenSatisfied clock.xtoken environment state.store session) ∧
      ¬ ∃ session, CookieSatisfied clock.cookie environment
        (storeAfterXtoken clock environment state.store) session := by
  have hsession := attemptTokens_session clock environment hnone
  rw [Option.eq_none_iff_forall_ne_some]
  constructor
  · intro hstill
    have hxtoken : ¬ ∃ session, XtokenSatisfied clock.xtoken environment state.store session := by
      rintro ⟨session, hsatisfied⟩
      exact hstill session ((hsession session).mpr (.inl hsatisfied))
    refine ⟨hxtoken, ?_⟩
    rintro ⟨session, hsatisfied⟩
    exact hstill session ((hsession session).mpr (.inr ⟨hxtoken, hsatisfied⟩))
  · rintro ⟨hxtoken, hcookie⟩ session hattached
    rcases (hsession session).mp hattached with hsatisfied | ⟨-, hsatisfied⟩
    · exact hxtoken ⟨session, hsatisfied⟩
    · exact hcookie ⟨session, hsatisfied⟩

/-- The branch on the Authorization value throws exactly for an enabled Basic scheme. -/
theorem attemptAuthorization_ok_iff (clock : LoginClock) (environment : Environment)
    (state : AuthState) :
    (∃ after, attemptAuthorization clock environment state = .ok ⟨⟩ after) ↔
      ¬ (state.session = none ∧ startsWith environment.authorization authBasic = true ∧
        state.store.authMethodsConfig.basic = true) := by
  cases hsession : state.session with
  | some session => simp [attemptAuthorization, hsession]
  | none =>
      cases hbasic : startsWith environment.authorization authBasic with
      | false =>
          simp only [attemptAuthorization, hsession, hbasic]
          split_ifs <;> simp_all
      | true =>
          have hfilled : environment.authorization ≠ "" := by
            intro hempty
            rw [hempty] at hbasic
            revert hbasic
            decide
          have htoken := not_token_of_basic hbasic
          cases henabled : state.store.authMethodsConfig.basic <;>
            simp [attemptAuthorization, hsession, hbasic, htoken, hfilled, henabled]

/-- On a booted BMC authentication of a fresh request returns unless the request uses the
enabled Basic scheme. -/
theorem authenticate_ok_iff (clock : AuthClock) (environment : Environment) {state : AuthState}
    (hnone : state.session = none) :
    (∃ accepted after, authenticate clock environment true state = .ok accepted after) ↔
      ¬ BasicRequested clock environment state.store := by
  have htried : (modify (attemptTokens clock environment) : EStateM Exception AuthState PUnit)
      state = .ok ⟨⟩ (attemptTokens clock environment state) := rfl
  have hbranch := attemptAuthorization_ok_iff clock.token environment
    (attemptTokens clock environment state)
  rw [attemptTokens_isNone_iff clock environment hnone, attemptTokens_authMethodsConfig] at hbranch
  have hcondition : ¬ BasicRequested clock environment state.store ↔
      ∃ after, attemptAuthorization clock.token environment
        (attemptTokens clock environment state) = .ok ⟨⟩ after := by
    rw [hbranch, not_iff_not]
    constructor
    · rintro ⟨hxtoken, hcookie, hscheme, henabled⟩
      exact ⟨⟨hxtoken, hcookie⟩, hscheme, henabled⟩
    · rintro ⟨⟨hxtoken, hcookie⟩, hscheme, henabled⟩
      exact ⟨hxtoken, hcookie, hscheme, henabled⟩
  rw [hcondition, authenticate, Fallible.bind_ok htried]
  constructor
  · rintro ⟨accepted, after, hok⟩
    obtain ⟨_, attached, hattached, -⟩ := Fallible.bind_eq_ok hok
    exact ⟨attached, hattached⟩
  · rintro ⟨attached, hattached⟩
    rw [Fallible.bind_ok hattached, decideSession]
    cases hsession : attached.session with
    | none => exact ⟨_, _, rfl⟩
    | some session => exact ⟨true, attached, rfl⟩

/-- A request that no method gives a session is answered as unauthorized. -/
theorem authenticate_unauthorized {clock : AuthClock} {environment : Environment}
    {isPermitted accepted : Bool} {state after : AuthState} (hnone : state.session = none)
    (hsatisfied : ¬ ∃ session, FirstSatisfied clock environment state.store session)
    (hok : authenticate clock environment isPermitted state = .ok accepted after) :
    accepted = false ∧ after.response.status = .unauthorized := by
  have htried : (modify (attemptTokens clock environment) : EStateM Exception AuthState PUnit)
      state = .ok ⟨⟩ (attemptTokens clock environment state) := rfl
  have hmethods := methods_spec clock environment hnone
  rw [authenticate, Fallible.bind_ok htried] at hok
  obtain ⟨_, attached, hattached, hdecide⟩ := Fallible.bind_eq_ok hok
  rw [hattached] at hmethods
  have hstill : attached.session = none := by
    rw [Option.eq_none_iff_forall_ne_some]
    exact fun session hsession => hsatisfied ⟨session, (hmethods session).mp hsession⟩
  simp only [decideSession, hstill] at hdecide
  cases hdecide
  refine ⟨rfl, ?_⟩
  show (if environment.userAgent = "" then _ else _ : Response).status = .unauthorized
  split_ifs <;> rfl

end Authorization

namespace Router

variable {ω : Type}

/-- A request that was just constructed. -/
structure Fresh (serving : Serving ω) : Prop where
  session : serving.session = none
  response : serving.response = {}

/-- Nothing is thrown before the handler, and without a live session the call returns with
the unauthorized response and an empty body, whatever the handlers. -/
def Responds (call : ProcessCall) (serving : Serving ω) : Prop :=
  ∃ read accepted after, readConfig call serving = .ok ⟨⟩ read ∧
    authenticate call read = .ok accepted after ∧
    ((¬ ∃ session, Authorization.FirstSatisfied call.clock call.environment
        read.service.store session) →
      after.response.status = .unauthorized ∧ after.response.body = [] ∧
      ∀ routes handler, process routes handler call serving = .ok ⟨⟩ after)

/-- On a booted BMC a fresh request whose files supply the system UUID is responded to
exactly when it does not fall back to the enabled Basic scheme. -/
theorem responds_iff_not_basicRequested (call : ProcessCall) (serving : Serving ω)
    (hfresh : Fresh serving) (hpermitted : call.isPermitted = true)
    (hconstruction : ConfigFile.SuppliesUuid call.construction)
    (hreading : ConfigFile.SuppliesUuid call.reading) :
    Responds call serving ↔
      ¬ Authorization.BasicRequested call.clock call.environment
        (ServiceState.storeRead call.construction call.reading serving.service) := by
  obtain ⟨systemUuid, hread⟩ :=
    ServiceState.readData_of_suppliesUuid hconstruction hreading serving.service
  have hconfig : readConfig call serving = .ok ⟨⟩ { serving with service :=
      ⟨systemUuid, ServiceState.storeRead call.construction call.reading serving.service⟩ } :=
    Fallible.zoom_ok hread
  generalize hread : ({ serving with service :=
    ⟨systemUuid, ServiceState.storeRead call.construction call.reading serving.service⟩ } :
      Serving ω) = read at hconfig
  have hstore : (authState read).store =
      ServiceState.storeRead call.construction call.reading serving.service := by
    rw [← hread]
    rfl
  have hnone : (authState read).session = none := by
    rw [← hread]
    exact hfresh.session
  have hreturns := Authorization.authenticate_ok_iff call.clock call.environment hnone
  rw [hstore] at hreturns
  rw [← hreturns]
  constructor
  · rintro ⟨other, accepted, after, hother, hauth, -⟩
    rw [hconfig] at hother
    cases hother
    rw [authenticate, Fallible.zoom, hpermitted] at hauth
    cases hresult : Authorization.authenticate call.clock call.environment true
      (authState read) with
    | ok value next => exact ⟨value, next, rfl⟩
    | error exception next =>
        rw [hresult] at hauth
        cases hauth
  · rintro ⟨accepted, next, hok⟩
    have hauth : authenticate call read = .ok accepted (putAuthState next read) := by
      rw [authenticate, hpermitted]
      exact Fallible.zoom_ok hok
    refine ⟨read, accepted, putAuthState next read, hconfig, hauth, ?_⟩
    intro hnobody
    obtain ⟨rfl, hstatus⟩ := Authorization.authenticate_unauthorized hnone hnobody hok
    have hbody := authenticate_body call.clock call.environment true (authState read)
    rw [hok] at hbody
    refine ⟨hstatus, ?_, ?_⟩
    · have hempty : (authState read).response.body = [] := by
        rw [← hread]
        exact congrArg Response.body hfresh.response
      exact hbody.trans hempty
    · intro routes handler
      rw [process, Fallible.bind_ok hconfig, Fallible.bind_ok hauth]
      rfl

/-- A file with nothing but the system UUID. -/
def uuidFile : Reading where
  now := 1
  file := .parsed (.object [(ConfigFile.keySystemUUID, .string "bmc")])

theorem suppliesUuid_uuidFile : ConfigFile.SuppliesUuid uuidFile := by
  refine ⟨_, "bmc", rfl, ?_, rfl, by decide⟩
  exact List.pairwise_singleton _ _

/-- The first request of a service, with an Authorization value. -/
def callWith (authorization : String) : ProcessCall where
  construction := uuidFile
  reading := uuidFile
  environment := {
    requestMethod := .get
    others := OrderedMap.empty
    cookies := []
    authorization := authorization
    userAgent := ""
    requestUri := "/graphql" }
  clock := ⟨⟨1, 1⟩, ⟨1, 1⟩, ⟨1, 1⟩⟩
  isPermitted := true

/-- A request without credentials is responded to. -/
theorem responds_iff_not_basicRequested_anonymous :
    Responds (callWith "") (⟨{}, none, {}, ()⟩ : Serving Unit) := by
  have hiff := responds_iff_not_basicRequested (callWith "") (⟨{}, none, {}, ()⟩ : Serving Unit)
    ⟨rfl, rfl⟩ rfl suppliesUuid_uuidFile suppliesUuid_uuidFile
  apply hiff.mpr
  intro hbasic
  have hscheme : Authorization.startsWith "" Authorization.authBasic = false := by decide
  exact absurd hbasic.scheme (Bool.eq_false_iff.mp hscheme)

/-- An Authorization value of the Basic scheme throws. -/
theorem basic_not_responded :
    Fresh (⟨{}, none, {}, ()⟩ : Serving Unit) ∧ ConfigFile.SuppliesUuid uuidFile ∧
    ¬ Responds (callWith "Basic cm9vdDpyb290") (⟨{}, none, {}, ()⟩ : Serving Unit) := by
  refine ⟨⟨rfl, rfl⟩, suppliesUuid_uuidFile, ?_⟩
  rintro ⟨read, accepted, after, hread, hauth, -⟩
  have hconfig : readConfig (callWith "Basic cm9vdDpyb290")
      (⟨{}, none, {}, ()⟩ : Serving Unit) = .ok ⟨⟩ ⟨⟨some "bmc", {}⟩, none, {}, ()⟩ := rfl
  rw [hconfig] at hread
  cases hread
  have hthrows : authenticate (callWith "Basic cm9vdDpyb290")
      (⟨⟨some "bmc", {}⟩, none, {}, ()⟩ : Serving Unit) =
        .error (.notImplemented "Basic athorization not supported by BMC WEBAPP")
          ⟨⟨some "bmc", {}⟩, none, {}, ()⟩ := rfl
  rw [hthrows] at hauth
  cases hauth

end Router

end ObmcWebapp.Service
