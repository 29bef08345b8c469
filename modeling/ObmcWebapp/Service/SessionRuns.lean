/-
# Runs of requests over the session file

A run is a sequence of `process` calls, each meeting the file as it is at that
moment. The history of a run keeps, for every call whose reads returned, the store the
reads left, the session accepted and the store authentication left.

Two properties of runs are studied here. Revocation: what the store holds after a read
is what the file lists, and so is what a call accepts. Expiry: a session that was swept
for being idle is not accepted again. A read only ever adds sessions, so each of them
holds under a condition on what the read meets, and fails where the condition does.
-/

import ObmcWebapp.Library.Execution
import ObmcWebapp.Service.Router

namespace ObmcWebapp.Service

open ObmcWebapp.Core

namespace SessionRuns

variable {ω : Type}

/-- A request: its call, and the handler that was made for it beforehand. -/
structure Request (ω : Type) where
  call : ProcessCall
  handler : Option (RouteHandler ω) := none

/-- What a call did to the sessions. -/
structure Served where
  call : ProcessCall
  /-- The store the reads of the file left. -/
  held : SessionStore
  /-- The session of an accepted request. -/
  accepted : Option UserSession
  /-- The store authentication left. -/
  left : SessionStore

/-- The service between two requests, and the calls served so far. -/
structure State (ω : Type) where
  service : ServiceState := {}
  world : ω
  history : List Served := []

/-- A request starts with no session and a fresh response. -/
def serving (state : State ω) : Serving ω := ⟨state.service, none, {}, state.world⟩

/-- The store and the session an authentication leaves. -/
def Served.ofAuthentication (call : ProcessCall) (held : SessionStore) :
    EStateM.Result Exception (Serving ω) Bool → Served
  | .ok true after => ⟨call, held, after.session, after.service.store⟩
  | .ok false after => ⟨call, held, none, after.service.store⟩
  | .error _ after => ⟨call, held, none, after.service.store⟩

/-- What a call does to the sessions; nothing is authenticated when a read throws. -/
def observe (call : ProcessCall) (serving : Serving ω) : Option Served :=
  match Router.readConfig call serving with
  | .ok _ read =>
      some (.ofAuthentication call read.service.store (Router.authenticate call read))
  | .error _ _ => none

/-- The state a computation leaves. -/
def leftBy {α : Type} : EStateM.Result Exception (Serving ω) α → Serving ω
  | .ok _ after => after
  | .error _ after => after

/-- One request. -/
def serve (routes : OrderedMap String (RouteHandler ω)) (state : State ω)
    (request : Request ω) : State ω :=
  let after := leftBy (Router.process routes request.handler request.call (serving state))
  { service := after.service
    world := after.world
    history := state.history ++ (observe request.call (serving state)).toList }

/-- Requests one after the other, from the boot of the service on. -/
def machine (routes : OrderedMap String (RouteHandler ω)) : Machine (State ω) (Request ω) :=
  .ofNext (fun state => state.service = {} ∧ state.history = [])
    fun state request => some (serve routes state request)

/-- The two ways a request goes: the reads throw, or they return and authentication
works on the store they left. -/
inductive Effect (service : ServiceState) (call : ProcessCall) :
    Option Served → ServiceState → Prop
  | /-- A read throws. -/
    unread {exception : Exception} {after : ServiceState}
      (hread : ServiceState.readData call.construction call.reading service =
        .error exception after) : Effect service call none after
  | /-- The reads return. -/
    served {read : ServiceState} {served : Served}
      (hread : ServiceState.readData call.construction call.reading service = .ok ⟨⟩ read)
      (hcall : served.call = call) (hheld : served.held = read.store)
      (hkept : SessionStore.Kept read.store served.left)
      (haccepted : ∀ session, served.accepted = some session →
        ∃ token stored time, Authorization.Presents call.environment token ∧
          read.store.authTokens.find? token = some stored ∧
          session = { stored with lastUpdated := time }) :
      Effect service call (some served) ⟨read.systemUuid, served.left⟩

/-- A handler leaves the service alone. -/
theorem runHandler_service (routes : OrderedMap String (RouteHandler ω))
    (handler : Option (RouteHandler ω)) (call : ProcessCall) (serving : Serving ω) :
    (leftBy (Router.runHandler routes handler call serving)).service = serving.service := by
  simp only [Router.runHandler]
  cases handler.or (routes.find? call.environment.requestUri) with
  | none => rfl
  | some run =>
      simp only [Fallible.zoom]
      cases run call.environment serving.session (serving.world, serving.response) <;> rfl

theorem serve_effect (routes : OrderedMap String (RouteHandler ω)) (state : State ω)
    (request : Request ω) :
    Effect state.service request.call (observe request.call (serving state))
      (serve routes state request).service := by
  cases hread : ServiceState.readData request.call.construction request.call.reading
      state.service with
  | error exception after =>
      have hconfig : Router.readConfig request.call (serving state) =
          .error exception { serving state with service := after } := Fallible.zoom_error hread
      simp only [observe, hconfig, serve, Router.process, Fallible.bind_error hconfig]
      exact .unread hread
  | ok value read =>
      have hconfig : Router.readConfig request.call (serving state) =
          .ok ⟨⟩ { serving state with service := read } := Fallible.zoom_ok hread
      simp only [observe, hconfig, serve, Router.process, Fallible.bind_ok hconfig]
      have hkept := Authorization.kept_authenticate request.call.clock request.call.environment
        request.call.isPermitted ⟨read.store, none, {}⟩
      have hfresh : (⟨read.store, none, {}⟩ : Authorization.AuthState).session = none := rfl
      have hexact := (Authorization.authenticate_eq_true_iff request.call.clock
        request.call.environment request.call.isPermitted hfresh).2
      cases hauth : Authorization.authenticate request.call.clock request.call.environment
          request.call.isPermitted ⟨read.store, none, {}⟩ with
      | error exception after =>
          rw [hauth] at hkept
          have hrefused : Router.authenticate request.call
              { serving state with service := read } = .error exception
                (Router.putAuthState after { serving state with service := read }) :=
            Fallible.zoom_error hauth
          rw [Fallible.bind_error hrefused, hrefused]
          exact .served hread rfl rfl hkept nofun
      | ok accepted after =>
          rw [hauth] at hkept
          have hdone : Router.authenticate request.call
              { serving state with service := read } = .ok accepted
                (Router.putAuthState after { serving state with service := read }) :=
            Fallible.zoom_ok hauth
          rw [Fallible.bind_ok hdone, hdone]
          cases accepted with
          | false => exact .served hread rfl rfl hkept nofun
          | true =>
              rw [if_pos rfl, runHandler_service]
              apply Effect.served hread rfl rfl
              · exact hkept
              · intro session hsession
                obtain ⟨first, hfirst, hsatisfied⟩ := hexact after hauth
                have hsame : first = session := Option.some.inj (hfirst.symm.trans hsession)
                rw [← hsame]
                exact Authorization.held_of_firstSatisfied hsatisfied

/-- Every session is held under its own token and came from the file. -/
def OfFile (store : SessionStore) : Prop :=
  ∀ token session, store.authTokens.find? token = some session →
    session.sessionToken = token ∧ session.storageType = .configCurrentBmcSession

theorem OfFile.kept {before after : SessionStore} (hbefore : OfFile before)
    (hkept : SessionStore.Kept before after) : OfFile after := by
  intro token session hfound
  obtain ⟨stored, time, hstored, rfl⟩ := hkept token session hfound
  exact hbefore token stored hstored

theorem OfFile.readData {service : ServiceState} (hservice : OfFile service.store)
    (construction reading : Reading) :
    Fallible.Leaves (fun after : ServiceState => OfFile after.store)
      (ServiceState.readData construction reading service) := by
  apply (ServiceState.readData_source construction reading service).imp
  intro after hsource token session hfound
  rcases hsource token session hfound with hbefore | ⟨read, -, hrecord⟩
  · exact hservice token session hbefore
  · exact ConfigFile.record?_spec hrecord

/-- What every run keeps about the service: the sessions came from the file, and a
call was served only with a configuration object. -/
structure Sound (state : State ω) : Prop where
  ofFile : OfFile state.service.store
  constructed : state.history ≠ [] → state.service.systemUuid.isSome

/-- A read never loses the configuration object. -/
theorem systemUuid_readData (construction reading : Reading) {service : ServiceState}
    (hconstructed : service.systemUuid.isSome) :
    Fallible.Leaves (fun after : ServiceState => after.systemUuid.isSome)
      (ServiceState.readData construction reading service) := by
  obtain ⟨systemUuid, huuid⟩ := Option.isSome_iff_exists.mp hconstructed
  simp only [ServiceState.readData, huuid]
  exact (ServiceState.find?_reread reading systemUuid service).imp fun _ hafter => hafter.1

theorem Sound.serve {state : State ω} (hsound : Sound state)
    (routes : OrderedMap String (RouteHandler ω)) (request : Request ω) :
    Sound (serve routes state request) := by
  have heffect := serve_effect routes state request
  have hfile := hsound.ofFile.readData request.call.construction request.call.reading
  have hhistory : (SessionRuns.serve routes state request).history =
      state.history ++ (observe request.call (serving state)).toList := rfl
  generalize observe request.call (serving state) = observed at heffect hhistory
  generalize SessionRuns.serve routes state request = after at heffect hhistory ⊢
  obtain ⟨service, world, history⟩ := after
  cases heffect with
  | unread hread =>
      rw [hread] at hfile
      apply Sound.mk hfile
      intro hnonempty
      have hbefore : state.history ≠ [] := by
        intro hempty
        simp [hempty] at hhistory
        exact hnonempty hhistory
      have hkeep := systemUuid_readData request.call.construction request.call.reading
        (hsound.constructed hbefore)
      rw [hread] at hkeep
      exact hkeep
  | served hread hcall hheld hkept haccepted =>
      rw [hread] at hfile
      apply Sound.mk
      · exact hfile.kept hkept
      · exact fun _ => (ServiceState.find?_readData_ok hread).1

theorem sound_of_reachable {routes : OrderedMap String (RouteHandler ω)} {state : State ω}
    (hreach : (machine routes).Reachable state) : Sound state := by
  have hinvariant : (machine routes).Invariant Sound := by
    constructor
    · intro state hinitial
      obtain ⟨hservice, hhistory⟩ := hinitial
      constructor
      · intro token session hfound
        rw [hservice] at hfound
        cases hfound
      · exact fun hnonempty => absurd hhistory hnonempty
    · intro state request next hsound hstep
      cases hstep
      exact hsound.serve routes request
  exact hinvariant.of_reachable hreach

/-! ## Revocation -/

/-- The call authenticated a request with a token. -/
def Served.Accepts (served : Served) (token : String) : Prop :=
  ∃ session, served.accepted = some session ∧ session.sessionToken = token

/-- The session of the file's storage type a store holds under a token. -/
def sessionOfFile (store : SessionStore) (token : String) : Option UserSession :=
  (store.authTokens.find? token).filter fun session =>
    decide (session.storageType = .configCurrentBmcSession)

/-- The sessions of the file's storage type are the valid records of the file. -/
def Exact (reading : Reading) (store : SessionStore) : Prop :=
  ∀ token, (sessionOfFile store token).map UserSession.identity =
    (ConfigFile.record? reading token).map UserSession.identity

/-- A call honours the file it has just read. -/
structure Honoured (served : Served) : Prop where
  /-- A token the file does not list is not accepted. -/
  revoked : ∀ token, ConfigFile.record? served.call.reading token = none →
    ¬ served.Accepts token
  /-- An accepted session is that of the record in the file. -/
  listed : ∀ session record, served.accepted = some session →
    ConfigFile.record? served.call.reading session.sessionToken = some record →
    session.identity = record.identity
  /-- The store holds the valid records of the file. -/
  exact : Exact served.call.reading served.held

/-- Every session of a store is that of a record the file lists. -/
def Current (reading : Reading) (store : SessionStore) : Prop :=
  ∀ token session, store.authTokens.find? token = some session →
    ∃ record, ConfigFile.record? reading token = some record ∧
      session.identity = record.identity

/-- The read of a call removes and replaces no session the store holds at that
moment. -/
def ReadsCurrent (state : State ω) (request : Request ω) : Prop :=
  Current request.call.reading
    (ServiceState.storeMet request.call.construction state.service)

theorem OfFile.sessionOfFile {store : SessionStore} (hstore : OfFile store) (token : String) :
    sessionOfFile store token = store.authTokens.find? token := by
  rw [SessionRuns.sessionOfFile]
  cases hfound : store.authTokens.find? token with
  | none => rfl
  | some session => simp [(hstore token session hfound).2]

/-- The store after a read is the file exactly when the store the read met was
current. -/
theorem exact_iff_current {service read : ServiceState} {construction reading : Reading}
    (hservice : OfFile service.store)
    (hread : ServiceState.readData construction reading service = .ok ⟨⟩ read) :
    Exact reading read.store ↔ Current reading (ServiceState.storeMet construction service) := by
  have hfile : OfFile read.store := by
    have hleaves := hservice.readData construction reading
    rw [hread] at hleaves
    exact hleaves
  have hfind := (ServiceState.find?_readData_ok hread).2
  simp only [Exact, hfile.sessionOfFile, hfind]
  constructor
  · intro hexact token session hfound
    have hsame := hexact token
    rw [hfound, Option.some_or] at hsame
    obtain ⟨record, hrecord, hidentity⟩ := Option.map_eq_some_iff.mp hsame.symm
    exact ⟨record, hrecord, hidentity.symm⟩
  · intro hcurrent token
    cases hfound : (ServiceState.storeMet construction service).authTokens.find? token with
    | none => rfl
    | some session =>
        obtain ⟨record, hrecord, hidentity⟩ := hcurrent token session hfound
        rw [hrecord, Option.some_or, Option.map_some, Option.map_some, hidentity]

/-- A call whose read met a current store honours the file, and no other does. -/
theorem honoured_iff_current {state : State ω} (hsound : Sound state) {request : Request ω}
    {served : Served} (hserved : observe request.call (serving state) = some served) :
    Honoured served ↔ ReadsCurrent state request := by
  have heffect := serve_effect OrderedMap.empty state request
  rw [hserved] at heffect
  generalize (serve OrderedMap.empty state request).service = after at heffect
  cases heffect with
  | served hread hcall hheld hkept haccepted =>
      have hexact := exact_iff_current hsound.ofFile hread
      have hfile : OfFile served.held := by
        have hleaves := hsound.ofFile.readData request.call.construction request.call.reading
        rw [hread] at hleaves
        rw [hheld]
        exact hleaves
      rw [← hheld] at hexact haccepted
      constructor
      · intro hhonoured
        have hstore := hhonoured.exact
        rw [hcall] at hstore
        exact hexact.mp hstore
      · intro hcurrent
        have hstore : Exact served.call.reading served.held := by
          rw [hcall]
          exact hexact.mpr hcurrent
        have hrecord : ∀ session, served.accepted = some session →
            (ConfigFile.record? served.call.reading session.sessionToken).map
              UserSession.identity = some session.identity := by
          intro session hsession
          obtain ⟨token, stored, time, -, hstored, rfl⟩ := haccepted session hsession
          have htoken : stored.sessionToken = token := (hfile token stored hstored).1
          have hlisted := hstore token
          rw [hfile.sessionOfFile, hstored] at hlisted
          rw [htoken]
          exact hlisted.symm
        apply Honoured.mk
        · rintro token hnone ⟨session, hsession, rfl⟩
          have hlisted := hrecord session hsession
          rw [hnone] at hlisted
          cases hlisted
        · intro session record hsession hfound
          have hlisted := hrecord session hsession
          rw [hfound] at hlisted
          exact (Option.some.inj hlisted).symm
        · exact hstore

/-- In every run whose reads meet current stores each call honours the file; a call
whose read does not meet one never does. -/
theorem revocation_honoured_of_readsCurrent (routes : OrderedMap String (RouteHandler ω)) :
    (∀ state, ((machine routes).restrict ReadsCurrent).Reachable state →
      ∀ served ∈ state.history, Honoured served) ∧
    (∀ state request served, (machine routes).Reachable state →
      observe request.call (serving state) = some served →
      ¬ ReadsCurrent state request → ¬ Honoured served) := by
  constructor
  · have hinvariant : ((machine routes).restrict ReadsCurrent).Invariant fun state =>
        Sound state ∧ ∀ served ∈ state.history, Honoured served := by
      constructor
      · intro state hinitial
        have hreach := Machine.Reachable.start (M := machine routes) hinitial
        apply And.intro (sound_of_reachable hreach)
        intro served hmem
        rw [hinitial.2] at hmem
        cases hmem
      · intro state request next hstate hstep
        obtain ⟨hsound, hhonoured⟩ := hstate
        obtain ⟨hcurrent, htaken⟩ := hstep
        cases htaken
        apply And.intro (hsound.serve routes request)
        intro served hmem
        rcases List.mem_append.mp hmem with hbefore | hlast
        · exact hhonoured served hbefore
        · exact (honoured_iff_current hsound (Option.mem_toList.mp hlast)).mpr hcurrent
    exact fun state hreach => (hinvariant.of_reachable hreach).2
  · intro state request served hreach hserved hstale hhonoured
    exact hstale ((honoured_iff_current (sound_of_reachable hreach) hserved).mp hhonoured)

/-- A well-formed file: it has a system UUID, and its valid records have different
tokens. -/
def WellFormed (reading : Reading) : Prop :=
  (∃ data uuid, reading.file = .parsed data ∧
    data.member? ConfigFile.keySystemUUID = some (.string uuid) ∧ uuid ≠ "") ∧
  (ConfigFile.records reading).Pairwise fun first second =>
    first.sessionToken ≠ second.sessionToken

/-- Both reads of a call find a well-formed file. -/
def ReadsWellFormed (request : Request ω) : Prop :=
  WellFormed request.call.construction ∧ WellFormed request.call.reading

/-- A file that lists some records. -/
def fileOf (records : List Json) : FileContent :=
  .parsed (.ofMembers [(ConfigFile.keySystemUUID, .string "bmc"),
    (ConfigFile.keySessions, .array records)])

theorem member?_fileOf (records : List Json) :
    (Json.ofMembers [(ConfigFile.keySystemUUID, .string "bmc"),
      (ConfigFile.keySessions, .array records)]).member? ConfigFile.keySystemUUID =
        some (.string "bmc") := by
  rw [Json.ofMembers, Json.member?, Entries.lookup_ofList]
  rfl

/-- The record of a session of root. -/
def recordOf (token : String) : Json :=
  .ofMembers [("unique_id", .string "1"), ("session_token", .string token),
    ("username", .string "root"), ("csrf_token", .string "csrf")]

/-- A request for a page with a token, whose reads and logins see one clock. -/
def requestAt (time : ℤ) (file : FileContent) (token : String) : Request ω where
  call := {
    construction := ⟨time, file⟩
    reading := ⟨time, file⟩
    environment := {
      requestMethod := .get
      others := OrderedMap.ofList [(Authorization.xAuthToken, token)]
      cookies := []
      authorization := ""
      userAgent := ""
      requestUri := "/" }
    clock := ⟨⟨time, time⟩, ⟨time, time⟩, ⟨time, time⟩⟩
    isPermitted := true }

/-- The service of the samples: no routes, and handlers that work on nothing. -/
def booted : State Unit := { world := () }

/-- The file lists a session, a later file does not, and its token is accepted. -/
theorem revoked_session_accepted :
    ¬ ∀ state : State Unit,
      ((machine OrderedMap.empty).restrict fun _ request => ReadsWellFormed request).Reachable
        state → ∀ served ∈ state.history, Honoured served := by
  intro hclaim
  let token := "abcdefghijklmnopqrst"
  let login : Request Unit := requestAt 1 (fileOf [recordOf token]) token
  let revoked : Request Unit := requestAt 2 (fileOf []) token
  have hlogin : WellFormed login.call.reading := by
    apply And.intro ⟨_, "bmc", rfl, member?_fileOf _, by decide⟩
    decide
  have hrevoked : WellFormed revoked.call.reading := by
    apply And.intro ⟨_, "bmc", rfl, member?_fileOf _, by decide⟩
    decide
  have hbooted : ((machine OrderedMap.empty).restrict
      fun _ request => ReadsWellFormed request).Reachable booted := .start ⟨rfl, rfl⟩
  have hreach : ((machine OrderedMap.empty).restrict
      fun _ request => ReadsWellFormed request).Reachable
        (serve OrderedMap.empty (serve OrderedMap.empty booted login) revoked) :=
    (hbooted.next ⟨⟨hlogin, hlogin⟩, rfl⟩).next ⟨⟨hrevoked, hrevoked⟩, rfl⟩
  have haccepted : ((observe revoked.call (serving (serve OrderedMap.empty booted login))).map
      fun served => (served.accepted.map UserSession.sessionToken,
        (ConfigFile.record? served.call.reading token).isNone)) = some (some token, true) := by
    decide
  obtain ⟨served, hserved, hboth⟩ := Option.map_eq_some_iff.mp haccepted
  obtain ⟨hsession, habsent⟩ := Prod.mk.inj hboth
  have hmem : served ∈ (serve OrderedMap.empty
      (serve OrderedMap.empty booted login) revoked).history :=
    List.mem_append_right _ (Option.mem_toList.mpr hserved)
  exact (hclaim _ hreach served hmem).revoked token (Option.isNone_iff_eq_none.mp habsent)
    (Option.map_eq_some_iff.mp hsession)

/-- A first call that reads one file twice. -/
theorem readsCurrent_booted (request : Request Unit)
    (hsame : request.call.construction = request.call.reading) : ReadsCurrent booted request := by
  intro token session hfound
  rcases ServiceState.storeMet_source hfound with hbefore | hrecord
  · cases hbefore
  · rw [hsame] at hrecord
    exact ⟨session, hrecord, rfl⟩

/-- The first login of a session the file lists. -/
theorem revocation_honoured_of_readsCurrent_login :
    let token := "abcdefghijklmnopqrst"
    let login : Request Unit := requestAt 1 (fileOf [recordOf token]) token
    (serve OrderedMap.empty booted login).history.length = 1 ∧
      ∀ served ∈ (serve OrderedMap.empty booted login).history, Honoured served := by
  intro token login
  constructor
  · decide
  · apply (revocation_honoured_of_readsCurrent OrderedMap.empty).1
    have hbooted : ((machine OrderedMap.empty).restrict ReadsCurrent).Reachable booted :=
      .start ⟨rfl, rfl⟩
    exact hbooted.next ⟨readsCurrent_booted login rfl, rfl⟩

/-! ## Expiry -/

/-- A call that presented a token was refused, and the session of the token, idle for
the timeout at one of its sweeps, is gone. -/
structure Served.Expires (served : Served) (token : String) : Prop where
  presented : Authorization.Presents served.call.environment token
  refused : served.accepted = none
  swept : served.left.authTokens.find? token = none
  idle : ∃ session, served.held.authTokens.find? token = some session ∧
    ∃ sweep ∈ served.call.clock.sweeps, served.held.expired sweep session = true

/-- A token whose session expired is not accepted later. -/
def StaysExpired (history : List Served) : Prop :=
  history.Pairwise fun earlier later => ∀ token, earlier.Expires token → ¬ later.Accepts token

/-- The read of a call finds no record of a token whose session expired. -/
def ReadsNoExpired (state : State ω) (request : Request ω) : Prop :=
  ∀ earlier ∈ state.history, ∀ token, earlier.Expires token →
    ConfigFile.record? request.call.reading token = none

/-- The expired tokens of a run are not in the store, and stayed expired so far. -/
structure ExpiryKept (state : State ω) : Prop where
  sound : Sound state
  absent : ∀ earlier ∈ state.history, ∀ token, earlier.Expires token →
    state.service.store.authTokens.find? token = none
  stays : StaysExpired state.history

/-- After the first served call the last read meets the store as it is. -/
theorem storeMet_of_constructed {construction : Reading} {service : ServiceState}
    (hconstructed : service.systemUuid.isSome) :
    ServiceState.storeMet construction service = service.store := by
  obtain ⟨systemUuid, huuid⟩ := Option.isSome_iff_exists.mp hconstructed
  simp only [ServiceState.storeMet, huuid]

/-- A token that is absent and not listed stays absent when the reads throw. -/
theorem absent_of_unread {construction reading : Reading} {service after : ServiceState}
    {exception : Exception} {token : String} (hconstructed : service.systemUuid.isSome)
    (hread : ServiceState.readData construction reading service = .error exception after)
    (habsent : service.store.authTokens.find? token = none)
    (hunlisted : ConfigFile.record? reading token = none) :
    after.store.authTokens.find? token = none := by
  obtain ⟨systemUuid, huuid⟩ := Option.isSome_iff_exists.mp hconstructed
  simp only [ServiceState.readData, huuid] at hread
  have hfind := ServiceState.find?_reread reading systemUuid service
  rw [hread] at hfind
  rw [hfind.2 token, habsent, hunlisted]
  rfl

theorem ExpiryKept.serve {state : State ω} (hkeptExpired : ExpiryKept state)
    (routes : OrderedMap String (RouteHandler ω)) {request : Request ω}
    (hreads : ReadsNoExpired state request) : ExpiryKept (serve routes state request) := by
  have hsound := hkeptExpired.sound.serve routes request
  have heffect := serve_effect routes state request
  have hhistory : (SessionRuns.serve routes state request).history =
      state.history ++ (observe request.call (serving state)).toList := rfl
  generalize observe request.call (serving state) = observed at heffect hhistory
  generalize SessionRuns.serve routes state request = after at heffect hhistory hsound ⊢
  obtain ⟨service, world, history⟩ := after
  have hconstructed : ∀ earlier ∈ state.history, state.service.systemUuid.isSome :=
    fun earlier hmem => hkeptExpired.sound.constructed (List.ne_nil_of_mem hmem)
  cases heffect with
  | unread hread =>
      have hsame : history = state.history := by simpa using hhistory
      subst hsame
      apply ExpiryKept.mk hsound
      · intro earlier hmem token hexpired
        exact absent_of_unread (hconstructed earlier hmem) hread
          (hkeptExpired.absent earlier hmem token hexpired) (hreads earlier hmem token hexpired)
      · exact hkeptExpired.stays
  | @served read served hread hcall hheld hkept haccepted =>
      have hsame : history = state.history ++ [served] := hhistory
      subst hsame
      have habsent : ∀ earlier ∈ state.history, ∀ token, earlier.Expires token →
          read.store.authTokens.find? token = none := by
        intro earlier hmem token hexpired
        rw [(ServiceState.find?_readData_ok hread).2 token,
          storeMet_of_constructed (hconstructed earlier hmem),
          hkeptExpired.absent earlier hmem token hexpired, hreads earlier hmem token hexpired]
        rfl
      have hfile : OfFile read.store := by
        have hleaves := hkeptExpired.sound.ofFile.readData request.call.construction
          request.call.reading
        rw [hread] at hleaves
        exact hleaves
      apply ExpiryKept.mk hsound
      · intro earlier hmem token hexpired
        rcases List.mem_append.mp hmem with hbefore | hlast
        · exact hkept.absent (habsent earlier hbefore token hexpired)
        · rw [List.mem_singleton.mp hlast] at hexpired
          exact hexpired.swept
      · apply List.pairwise_append.mpr
        refine ⟨hkeptExpired.stays, List.pairwise_singleton _ _, ?_⟩
        intro earlier hmem later hlater token hexpired haccepts
        rw [List.mem_singleton.mp hlater] at haccepts
        obtain ⟨session, hsession, htoken⟩ := haccepts
        obtain ⟨presented, stored, time, -, hstored, rfl⟩ := haccepted session hsession
        have hsame : stored.sessionToken = presented := (hfile presented stored hstored).1
        rw [← hsame, show stored.sessionToken = token from htoken,
          habsent earlier hmem token hexpired] at hstored
        cases hstored

/-- A permitted request whose X-Auth-Token is live is accepted with the session of the
token. -/
theorem accepted_of_xtokenSatisfied {state : State ω} {request : Request ω} {served : Served}
    {session : UserSession} (hserved : observe request.call (serving state) = some served)
    (hpermitted : request.call.isPermitted = true)
    (hsatisfied : Authorization.XtokenSatisfied request.call.clock.xtoken
      request.call.environment served.held session) :
    served.accepted = some session := by
  cases hread : ServiceState.readData request.call.construction request.call.reading
      state.service with
  | error exception after =>
      have hconfig : Router.readConfig request.call (serving state) =
          .error exception { serving state with service := after } := Fallible.zoom_error hread
      simp [observe, hconfig] at hserved
  | ok value read =>
      have hconfig : Router.readConfig request.call (serving state) =
          .ok ⟨⟩ { serving state with service := read } := Fallible.zoom_ok hread
      have hofAuth : Served.ofAuthentication request.call read.store
          (Router.authenticate request.call { serving state with service := read }) = served := by
        simpa [observe, hconfig] using hserved
      have hheld : served.held = read.store := by
        rw [← hofAuth]
        cases Router.authenticate request.call { serving state with service := read } with
        | error exception after => rfl
        | ok accepted after => cases accepted <;> rfl
      rw [hheld] at hsatisfied
      have hfresh : (⟨read.store, none, {}⟩ : Authorization.AuthState).session = none := rfl
      obtain ⟨hexact, hattached⟩ := Authorization.authenticate_eq_true_iff request.call.clock
        request.call.environment request.call.isPermitted hfresh
      obtain ⟨after, hauth⟩ := hexact.mpr ⟨hpermitted, session, .inl hsatisfied⟩
      have hdone : Router.authenticate request.call { serving state with service := read } =
          .ok true (Router.putAuthState after { serving state with service := read }) :=
        Fallible.zoom_ok hauth
      obtain ⟨first, hfirst, hmethod⟩ := hattached after hauth
      have hsame : first = session := by
        rcases hmethod with hxtoken | ⟨hnever, -⟩ | ⟨hnever, -⟩
        · obtain ⟨-, token, hheader, -, -, hlogin⟩ := hsatisfied
          obtain ⟨-, token', hheader', -, -, hlogin'⟩ := hxtoken
          rw [hheader, Option.some.injEq] at hheader'
          subst hheader'
          exact Option.some.inj (hlogin'.symm.trans hlogin)
        · exact absurd ⟨session, hsatisfied⟩ hnever
        · exact absurd ⟨session, hsatisfied⟩ hnever
      rw [← hofAuth, hdone, ← hsame]
      exact hfirst

/-- When the file still lists an expired token, presenting it logs in again. -/
theorem expired_token_revived {state : State ω} {request : Request ω} {earlier served : Served}
    {token : String} {record : UserSession} (hkept : ExpiryKept state)
    (hmem : earlier ∈ state.history) (hexpired : earlier.Expires token)
    (hserved : observe request.call (serving state) = some served)
    (hrecord : ConfigFile.record? request.call.reading token = some record)
    (hsize : token.utf8ByteSize = sessionTokenSize)
    (hheader : request.call.environment.others.find? Authorization.xAuthToken = some token)
    (henabled : served.held.authMethodsConfig.xtoken = true)
    (hpermitted : request.call.isPermitted = true)
    (hfresh : served.held.expired request.call.clock.xtoken.sweep record = false) :
    served.Accepts token := by
  have hconstructed := hkept.sound.constructed (List.ne_nil_of_mem hmem)
  have heffect := serve_effect OrderedMap.empty state request
  rw [hserved] at heffect
  generalize (serve OrderedMap.empty state request).service = after at heffect
  have hfound : served.held.authTokens.find? token = some record := by
    cases heffect with
    | served hread hcall hheld _ _ =>
        rw [hheld, (ServiceState.find?_readData_ok hread).2 token,
          storeMet_of_constructed hconstructed, hkept.absent earlier hmem token hexpired, hrecord]
        rfl
  have hswept : (served.held.applySessionTimeouts request.call.clock.xtoken.sweep).authTokens.find?
      token = some record := by
    rw [SessionStore.find?_applySessionTimeouts, hfound]
    split_ifs
    · simp [hfresh]
    · rfl
  have hlive : Authorization.Live request.call.clock.xtoken token served.held
      { record with lastUpdated := request.call.clock.xtoken.touch } := by
    apply And.intro hsize
    exact SessionStore.loginSessionByToken_eq_some_iff.mpr ⟨hsize, record, hswept, rfl⟩
  have hnonempty : token ≠ "" := by
    rintro rfl
    exact absurd hsize (by decide)
  have haccepted := accepted_of_xtokenSatisfied hserved hpermitted
    ⟨henabled, token, hheader, hnonempty, hlive⟩
  exact ⟨_, haccepted, (ConfigFile.record?_spec hrecord).1⟩

theorem expiryKept_of_reachable {routes : OrderedMap String (RouteHandler ω)} {state : State ω}
    (hreach : ((machine routes).restrict ReadsNoExpired).Reachable state) : ExpiryKept state := by
  have hinvariant : ((machine routes).restrict ReadsNoExpired).Invariant ExpiryKept := by
    constructor
    · intro state hinitial
      apply ExpiryKept.mk (sound_of_reachable (.start (M := machine routes) hinitial))
      · intro earlier hmem
        rw [hinitial.2] at hmem
        cases hmem
      · rw [hinitial.2]
        exact List.Pairwise.nil
    · intro state request next hkept hstep
      obtain ⟨hreads, htaken⟩ := hstep
      cases htaken
      exact hkept.serve routes hreads
  exact hinvariant.of_reachable hreach

/-- In every run whose reads find no record of an expired token, no expired token is
accepted again; and when a read of such a run does find one, the token logs in again,
as long as the X-Auth-Token method is enabled. -/
theorem stays_expired_of_readsNoExpired (routes : OrderedMap String (RouteHandler ω)) :
    (∀ state, ((machine routes).restrict ReadsNoExpired).Reachable state →
      StaysExpired state.history) ∧
    (∀ (state : State ω) (request : Request ω) (earlier served : Served) (token : String)
      (record : UserSession),
      ((machine routes).restrict ReadsNoExpired).Reachable state →
      earlier ∈ state.history → earlier.Expires token →
      observe request.call (serving state) = some served →
      ConfigFile.record? request.call.reading token = some record →
      token.utf8ByteSize = sessionTokenSize →
      request.call.environment.others.find? Authorization.xAuthToken = some token →
      served.held.authMethodsConfig.xtoken = true → request.call.isPermitted = true →
      served.held.expired request.call.clock.xtoken.sweep record = false →
      ¬ StaysExpired (serve routes state request).history) := by
  constructor
  · exact fun state hreach => (expiryKept_of_reachable hreach).stays
  · intro state request earlier served token record hreach hmem hexpired hserved hrecord hsize
      hheader henabled hpermitted hfresh hstays
    have haccepts := expired_token_revived (expiryKept_of_reachable hreach) hmem hexpired
      hserved hrecord hsize hheader henabled hpermitted hfresh
    have hlater : served ∈ (observe request.call (serving state)).toList :=
      Option.mem_toList.mpr hserved
    exact (List.pairwise_append.mp hstays).2.2 earlier hmem served hlater token hexpired haccepts

/-- A session that expires after the file dropped it. -/
theorem stays_expired_of_readsNoExpired_dropped :
    let token := "abcdefghijklmnopqrst"
    let login : Request Unit := requestAt 1 (fileOf [recordOf token]) token
    let idle : Request Unit := requestAt 3600000000001 (fileOf []) token
    let again : Request Unit := requestAt 3600000000002 (fileOf []) token
    let expired := serve OrderedMap.empty (serve OrderedMap.empty booted login) idle
    let last := serve OrderedMap.empty expired again
    last.history.length = 3 ∧ StaysExpired last.history := by
  intro token login idle again expired last
  constructor
  · decide
  · apply (stays_expired_of_readsNoExpired OrderedMap.empty).1
    have hbooted : ((machine OrderedMap.empty).restrict ReadsNoExpired).Reachable booted :=
      .start ⟨rfl, rfl⟩
    have hunlisted : ∀ (state : State Unit) (time : ℤ),
        ReadsNoExpired state (requestAt time (fileOf []) token) := by
      intro state time earlier hmem presented hexpired
      have hnone : ConfigFile.records ⟨time, fileOf []⟩ = [] := by rfl
      show (ConfigFile.records ⟨time, fileOf []⟩).find? _ = none
      rw [hnone]
      rfl
    have hlogin : ((machine OrderedMap.empty).restrict ReadsNoExpired).Reachable
        (serve OrderedMap.empty booted login) := by
      apply hbooted.next (And.intro _ rfl)
      intro earlier hmem
      cases hmem
    have hexpired : ((machine OrderedMap.empty).restrict ReadsNoExpired).Reachable expired :=
      hlogin.next ⟨hunlisted _ _, rfl⟩
    exact hexpired.next ⟨hunlisted _ _, rfl⟩

/-- The clock readings of a call, in the order they are made. -/
def times (call : ProcessCall) : List ℤ :=
  [call.construction.now, call.reading.now, call.clock.xtoken.sweep, call.clock.xtoken.touch,
    call.clock.cookie.sweep, call.clock.cookie.touch, call.clock.token.sweep,
    call.clock.token.touch]

/-- A call over an unchanged file: its reads return, the clock never goes back, and the
timeout is fixed. -/
structure Steady (file : FileContent) (timeout : Int64) (state : State ω)
    (request : Request ω) : Prop where
  construction : request.call.construction.file = file
  reading : request.call.reading.file = file
  ordered : ((state.history.map Served.call ++ [request.call]).flatMap times).Pairwise (· ≤ ·)
  timeout : (observe request.call (serving state)).map
    (fun served => served.held.timeoutInSeconds) = some timeout

/-- The session of a file expires, is swept, and is back with the next read. -/
theorem expired_session_accepted :
    ¬ ∀ (file : FileContent) (timeout : Int64), 0 < timeout → ∀ state : State Unit,
      ((machine OrderedMap.empty).restrict (Steady file timeout)).Reachable state →
        StaysExpired state.history := by
  intro hclaim
  let token := "abcdefghijklmnopqrst"
  let file := fileOf [recordOf token]
  let login : Request Unit := requestAt 1 file token
  let idle : Request Unit := requestAt 3600000000001 file token
  let again : Request Unit := requestAt 3600000000002 file token
  let first := serve OrderedMap.empty booted login
  let second := serve OrderedMap.empty first idle
  let third := serve OrderedMap.empty second again
  have hbooted : ((machine OrderedMap.empty).restrict (Steady file 3600)).Reachable booted :=
    .start ⟨rfl, rfl⟩
  have hfirst : ((machine OrderedMap.empty).restrict (Steady file 3600)).Reachable first :=
    hbooted.next ⟨⟨rfl, rfl, by decide, by decide⟩, rfl⟩
  have hsecond : ((machine OrderedMap.empty).restrict (Steady file 3600)).Reachable second :=
    hfirst.next ⟨⟨rfl, rfl, by decide, by decide⟩, rfl⟩
  have hthird : ((machine OrderedMap.empty).restrict (Steady file 3600)).Reachable third :=
    hsecond.next ⟨⟨rfl, rfl, by decide, by decide⟩, rfl⟩
  -- the second call is refused and sweeps the session
  have hexpires : (observe idle.call (serving first)).map (fun served =>
      (served.accepted.isNone, (served.left.authTokens.find? token).isNone,
        (served.held.authTokens.find? token).map (served.held.expired 3600000000001))) =
      some (true, true, some true) := by
    decide
  -- the third call reads the record again and accepts it
  have haccepts : (observe again.call (serving second)).map (fun served =>
      served.accepted.map UserSession.sessionToken) = some (some token) := by
    decide
  obtain ⟨served, hserved, hexpires⟩ := Option.map_eq_some_iff.mp hexpires
  obtain ⟨hrefused, hrest⟩ := Prod.mk.inj hexpires
  obtain ⟨hswept, hidle⟩ := Prod.mk.inj hrest
  obtain ⟨session, hsession, hexpired⟩ := Option.map_eq_some_iff.mp hidle
  obtain ⟨later, hlater, haccepted⟩ := Option.map_eq_some_iff.mp haccepts
  have hcall : served.call = idle.call := by
    have heffect := serve_effect OrderedMap.empty first idle
    rw [hserved] at heffect
    generalize (serve OrderedMap.empty first idle).service = after at heffect
    cases heffect with
    | served _ hcall _ _ _ => exact hcall
  have hmem : served ∈ second.history :=
    List.mem_append_right _ (Option.mem_toList.mpr hserved)
  have hstays := hclaim file 3600 (by decide) third hthird
  apply (List.pairwise_append.mp hstays).2.2 served hmem later (Option.mem_toList.mpr hlater) token
  · constructor
    · rw [hcall]
      exact .inl (by decide)
    · exact Option.isNone_iff_eq_none.mp hrefused
    · exact Option.isNone_iff_eq_none.mp hswept
    · refine ⟨session, hsession, 3600000000001, ?_, hexpired⟩
      rw [hcall]
      decide
  · exact Option.map_eq_some_iff.mp haccepted

end SessionRuns

end ObmcWebapp.Service
