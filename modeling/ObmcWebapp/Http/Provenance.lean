/-
# Where sessions come from

The service issues no sessions of its own. As long as nothing else changes them, every
session it holds is, but for the idle time, a record of a session file that some call has
read, and a request is accepted only when it presents the token of such a record. The
token has the right length; a cookie needs the CSRF token of the record besides, unless
the request is a GET.
-/

import ObmcWebapp.Http.System
import ObmcWebapp.Service.Persistence
import ObmcWebapp.Service.SessionRuns

namespace ObmcWebapp.Service

open ObmcWebapp.Core

/-- A record of a file has all that is required. -/
theorem ConfigFile.record?_complete {reading : Reading} {token : String} {session : UserSession}
    (hrecord : record? reading token = some session) : session.Complete := by
  have hmem : session ∈ records reading := List.mem_of_find?_eq_some hrecord
  obtain ⟨item, -, hitem⟩ := List.mem_flatMap.mp hmem
  split_ifs at hitem
  · obtain ⟨parsed, hparsed, rfl⟩ := List.mem_map.mp hitem
    obtain ⟨json, -, hjson⟩ := List.mem_filterMap.mp hparsed
    rw [UserSession.fromJson] at hjson
    split_ifs at hjson with hmissing
    cases hjson
    push Not at hmissing
    exact ⟨hmissing.1, hmissing.2.1, hmissing.2.2.1, hmissing.2.2.2⟩
  · cases hitem

namespace Authorization

/-- The request presents what a method asks for a session. -/
inductive Presented (environment : Environment) (session : UserSession) : Prop
  | xtoken (hheader : environment.others.find? xAuthToken = some session.sessionToken)
  | cookie (hcookie : environment.cookies.lookup cookieSession = some session.sessionToken)
      (hcsrf : CsrfPresented environment session)
  | token (hscheme : startsWith environment.authorization authToken = true)
      (htoken : afterScheme environment.authorization authToken = session.sessionToken)

/-- The session of the first satisfied method is one of the store, and its own token, of the
right length, was presented. -/
theorem presented_of_firstSatisfied {clock : AuthClock} {environment : Environment}
    {store : SessionStore} {session : UserSession}
    (hown : ∀ token stored, store.authTokens.find? token = some stored →
      stored.sessionToken = token)
    (hfirst : FirstSatisfied clock environment store session) :
    session.sessionToken.utf8ByteSize = sessionTokenSize ∧ Presented environment session ∧
      ∃ stored time, store.authTokens.find? session.sessionToken = some stored ∧
        session = { stored with lastUpdated := time } := by
  have hxtokenKept : SessionStore.Kept store (storeAfterXtoken clock environment store) := by
    rw [storeAfterXtoken]
    split_ifs
    · exact kept_performXtokenAuth clock.xtoken environment store
    · exact .refl store
  have hcookieKept : SessionStore.Kept store (storeAfterCookie clock environment store) := by
    simp only [storeAfterCookie]
    split_ifs
    · exact hxtokenKept.trans (kept_performCookieAuth clock.cookie environment _)
    · exact hxtokenKept
  have hlive : ∀ {login : LoginClock} {token : String} {met : SessionStore},
      SessionStore.Kept store met → Live login token met session →
        token = session.sessionToken ∧ session.sessionToken.utf8ByteSize = sessionTokenSize ∧
        ∃ stored time, store.authTokens.find? session.sessionToken = some stored ∧
          session = { stored with lastUpdated := time } := by
    intro login token met hkept hlive
    obtain ⟨middle, time, hmiddle, rfl⟩ := SessionStore.held_of_login hlive.2
    obtain ⟨stored, earlier, hstored, rfl⟩ := hkept token middle hmiddle
    have htoken : stored.sessionToken = token := hown token stored hstored
    subst htoken
    exact ⟨rfl, hlive.1, stored, time, hstored, rfl⟩
  rcases hfirst with ⟨-, token, hheader, -, hfound⟩ | ⟨-, -, token, hheader, hfound, hcsrf⟩ |
    ⟨-, -, -, hscheme, hfound⟩
  · obtain ⟨rfl, hsize, hheld⟩ := hlive (.refl store) hfound
    exact ⟨hsize, .xtoken hheader, hheld⟩
  · obtain ⟨rfl, hsize, hheld⟩ := hlive hxtokenKept hfound
    exact ⟨hsize, .cookie hheader hcsrf, hheld⟩
  · obtain ⟨htoken, hsize, hheld⟩ := hlive hcookieKept hfound
    exact ⟨hsize, .token hscheme htoken, hheld⟩

end Authorization

end ObmcWebapp.Service

namespace ObmcWebapp.Http

open ObmcWebapp.Core ObmcWebapp.Entities ObmcWebapp.Graphql ObmcWebapp.Service
  ObmcWebapp.Application

/-- The session is, but for its idle time, the record of its token in one of the files. -/
def Listed (files : Service.Reading → Prop) (session : UserSession) : Prop :=
  ∃ file, files file ∧ ∃ record time,
    ConfigFile.record? file session.sessionToken = some record ∧
    session = { record with lastUpdated := time }

/-- Every session is held under its own token and listed. -/
def AllListed (files : Service.Reading → Prop) (store : SessionStore) : Prop :=
  ∀ token session, store.authTokens.find? token = some session →
    session.sessionToken = token ∧ Listed files session

variable {files : Service.Reading → Prop} {moment : Moment}

theorem Listed.complete {session : UserSession} (hlisted : Listed files session) :
    session.Complete := by
  obtain ⟨file, -, record, time, hrecord, hsession⟩ := hlisted
  have hcomplete : record.Complete := ConfigFile.record?_complete hrecord
  rw [hsession]
  exact ⟨hcomplete.uniqueId, hcomplete.username, hcomplete.sessionToken, hcomplete.csrfToken⟩

theorem Listed.touch {session : UserSession} (hlisted : Listed files session) (time : ℤ) :
    Listed files { session with lastUpdated := time } := by
  obtain ⟨file, hfile, record, earlier, hrecord, hsession⟩ := hlisted
  exact ⟨file, hfile, record, time, hrecord, by rw [hsession]⟩

theorem AllListed.mono {store : SessionStore} {later : Service.Reading → Prop}
    (hlisted : AllListed files store) (hlater : ∀ file, files file → later file) :
    AllListed later store := by
  intro token session hfound
  obtain ⟨htoken, file, hfile, hrecord⟩ := hlisted token session hfound
  exact ⟨htoken, file, hlater file hfile, hrecord⟩

theorem AllListed.kept {before after : SessionStore} (hlisted : AllListed files before)
    (hkept : SessionStore.Kept before after) : AllListed files after := by
  intro token session hfound
  obtain ⟨stored, time, hstored, rfl⟩ := hkept token session hfound
  obtain ⟨htoken, hstored⟩ := hlisted token stored hstored
  exact ⟨htoken, hstored.touch time⟩

/-- The call reads only the files. -/
def ReadsOnly (moment : Moment) (service : ServiceState) (files : Service.Reading → Prop) : Prop :=
  ∀ file, ServiceState.ReadBy moment.construction moment.reading service file → files file

theorem AllListed.readData {service : ServiceState} (hlisted : AllListed files service.store)
    (hreads : ReadsOnly moment service files) :
    Fallible.Leaves (fun after : ServiceState => AllListed files after.store)
      (ServiceState.readData moment.construction moment.reading service) := by
  apply (ServiceState.readData_source moment.construction moment.reading service).imp
  intro after hsource token session hfound
  rcases hsource token session hfound with hbefore | ⟨file, hread, hrecord⟩
  · exact hlisted token session hbefore
  · obtain ⟨rfl, -⟩ := ConfigFile.record?_spec hrecord
    exact ⟨rfl, file, hreads file hread, session, session.lastUpdated, hrecord, rfl⟩

/-- An accepted call has credentials for a session of the store or of a file it reads. -/
theorem AllListed.accepted {service : ServiceState} (hlisted : AllListed files service.store)
    (hreads : ReadsOnly moment service files) {environment : Environment}
    (haccepted : Router.Accepted (moment.call environment)
      (⟨service, none, {}, ()⟩ : Serving Unit)) :
    ∃ session, Listed files session ∧ session.Complete ∧
      session.sessionToken.utf8ByteSize = sessionTokenSize ∧
      Authorization.Presented environment session := by
  obtain ⟨read, after, hread, hauth⟩ := haccepted
  rw [Router.readConfig, Fallible.zoom] at hread
  split at hread
  next value stored hstored =>
    cases hread
    rw [Router.authenticate, Fallible.zoom] at hauth
    split at hauth
    next accepted authenticated hdecided =>
      cases hauth
      have hread : AllListed files stored.store := by
        have hleaves := hlisted.readData hreads
        have hok : ServiceState.readData moment.construction moment.reading service =
          .ok PUnit.unit stored := hstored
        rw [hok] at hleaves
        exact hleaves
      have hdecision := Authorization.authenticate_decides rfl hdecided
      rw [if_pos rfl] at hdecision
      obtain ⟨-, ⟨session, hfirst⟩, -⟩ := hdecision
      obtain ⟨hsize, hpresented, held, time, hheld, rfl⟩ :=
        Authorization.presented_of_firstSatisfied
          (fun token held hfound => (hread token held hfound).1) hfirst
      have hrecord := (hread _ held hheld).2.touch time
      exact ⟨_, hrecord, hrecord.complete, hsize, hpresented⟩
    next => cases hauth
  next => cases hread

variable [StdHash]

/-- A call keeps the sessions listed, whatever it ends in. -/
theorem Processing.process_listed (library : AstLibrary) (depth : ℕ) (manager : EntityManager)
    (environment : Environment) {state : Processing}
    (hreads : ReadsOnly moment state.serving.service files)
    (hstate : AllListed files state.serving.service.store) :
    Fallible.Leaves (fun after : Processing => AllListed files after.serving.service.store)
      (Processing.process library depth manager (moment.call environment) state) := by
  have honServing : ∀ {α : Type} {action : EStateM Exception (Serving EntityStore) α}
      {state : Processing},
      Fallible.Leaves (fun serving => AllListed files serving.service.store)
        (action state.serving) →
      Fallible.Leaves (fun after : Processing => AllListed files after.serving.service.store)
        (Processing.onServing action state) := by
    intro α action state hleaves
    rw [Processing.onServing, Fallible.zoom, Fallible.rethrow]
    cases hresult : action state.serving with
    | ok value serving => rw [hresult] at hleaves; exact hleaves
    | error exception serving => rw [hresult] at hleaves; exact hleaves
  apply Fallible.Leaves.bind
  · apply honServing
    exact (hstate.readData hreads).zoom fun _ hafter => hafter
  · intro _ read hread
    apply Fallible.Leaves.bind
    · apply honServing
      apply (Authorization.kept_authenticate _ _ _ (Router.authState read.serving)).zoom
      exact fun after hkept => AllListed.kept hread hkept
    · intro accepted authenticated hauthenticated
      cases accepted with
      | false => exact hauthenticated
      | true =>
          rw [if_pos rfl, Processing.runHandler]
          split_ifs
          · exact hauthenticated
          · rw [Fallible.zoom]
            split
            · exact hauthenticated
            · exact hauthenticated

namespace System

/-- Nothing but the calls changes the sessions. -/
def Event.Unaided : Event → Prop
  | .sessions _ => False
  | _ => True

/-- An answer of a connection with a router reads a file. -/
inductive Event.Reads (server : Server) : Event → Service.Reading → Prop
  | response {id : ℕ} {moment : Moment} {file : Service.Reading} {connection : Connection}
      (hlive : server.live? id = some connection) (hrouter : connection.router.isSome)
      (hread : ServiceState.ReadBy moment.construction moment.reading server.service file) :
      Reads server (.callback (.response id moment)) file

variable {parsers : BodyParsers} {dump : Json → Bytes} {library : AstLibrary} {depth : ℕ}

/-- Some answer of the run has read the file. -/
def Met (parsers : BodyParsers) (dump : Json → Bytes) (library : AstLibrary) (depth : ℕ)
    (first : Server) (events : List Event) (file : Service.Reading) : Prop :=
  ∃ before event after server, events = before ++ event :: after ∧
    (machine parsers dump library depth).Run first before server ∧ event.Reads server file

theorem Met.extend {first : Server} {events : List Event} {file : Service.Reading}
    (hmet : Met parsers dump library depth first events file) (last : Event) :
    Met parsers dump library depth first (events ++ [last]) file := by
  obtain ⟨before, event, after, server, rfl, hrun, hreads⟩ := hmet
  exact ⟨before, event, after ++ [last], server, by simp, hrun, hreads⟩

/-- A step keeps the sessions listed, with the files it reads. -/
theorem listed_of_step {server after : Server} {event : Event}
    (htaken : (machine parsers dump library depth).step server event after)
    (hunaided : event.Unaided) (hlisted : AllListed files server.service.store)
    (hreads : ∀ file, event.Reads server file → files file) :
    AllListed files after.service.store := by
  cases htaken with
  | sessions service => exact hunaided.elim
  | entities hstep => exact hlisted
  | @callback _ callback hlibrary hnext =>
      cases callback with
      | others service store => exact hlibrary.elim
      | accept id environment contentType =>
          rw [Server.next] at hnext
          split at hnext
          · cases hnext
            exact hlisted
          · cases hnext
      | inHandler id received =>
          obtain ⟨connection, -, rfl⟩ := Option.map_eq_some_iff.mp hnext
          exact hlisted
      | inProcessor id =>
          obtain ⟨connection, left, -, -, rfl⟩ := Server.next_inProcessor hnext
          exact hlisted
      | response id moment =>
          obtain ⟨connection, hlive, rfl⟩ := Server.next_response hnext
          rw [Server.response]
          split
          · next router session hrouter _ =>
              have honly : ReadsOnly moment (server.processing session router).serving.service
                  files := fun file hread => hreads file (.response hlive (hrouter ▸ rfl) hread)
              have hleaves := Processing.process_listed library (depth + 2) entityManager
                connection.environment honly hlisted
              cases hprocess : Processing.process library (depth + 2) entityManager
                  (moment.call connection.environment) (server.processing session router) with
              | ok value left => rw [hprocess] at hleaves; exact hleaves
              | error failure left => rw [hprocess] at hleaves; exact hleaves
          · exact hlisted

/-- From the start on, the sessions are listed in the files the run has read. -/
theorem listed_of_run {first server : Server} {events : List Event}
    (hinitial : (machine parsers dump library depth).initial first)
    (hrun : (machine parsers dump library depth).Run first events server)
    (hunaided : ∀ event ∈ events, event.Unaided) :
    AllListed (Met parsers dump library depth first events) server.service.store := by
  induction hrun with
  | refl =>
      intro token session hfound
      rw [hinitial.1] at hfound
      cases hfound
  | @extend server after events event prior taken ih =>
      have hbefore := ih fun event hevent => hunaided event (List.mem_append_left _ hevent)
      apply listed_of_step taken (hunaided _ (List.mem_append_right _ (List.mem_singleton_self _)))
      · exact hbefore.mono fun file hmet => hmet.extend event
      · exact fun file hreads => ⟨events, event, [], server, rfl, prior, hreads⟩

/-- In every run in which nothing but the calls changes the sessions, each session held is
listed under its token in a session file the run has read, and every accepted call presents
the token of a complete record of such a file, or of one it reads itself. -/
theorem sessions_from_files {first server : Server} {events : List Event}
    (hinitial : (machine parsers dump library depth).initial first)
    (hrun : (machine parsers dump library depth).Run first events server)
    (hunaided : ∀ event ∈ events, event.Unaided) :
    AllListed (Met parsers dump library depth first events) server.service.store ∧
    ∀ (moment : Moment) (environment : Environment),
      Router.Accepted (moment.call environment) (⟨server.service, none, {}, ()⟩ : Serving Unit) →
      ∃ session, Listed (fun file => Met parsers dump library depth first events file ∨
          ServiceState.ReadBy moment.construction moment.reading server.service file) session ∧
        session.Complete ∧ session.sessionToken.utf8ByteSize = sessionTokenSize ∧
        Authorization.Presented environment session := by
  have hlisted := listed_of_run hinitial hrun hunaided
  refine ⟨hlisted, fun moment environment haccepted => ?_⟩
  exact (hlisted.mono fun _ => .inl).accepted (fun _ => .inr) haccepted

/-- A moment at which the file lists the session of the request for the chassis. -/
def listingMoment : Moment where
  construction := ⟨5, SessionRuns.fileOf [SessionRuns.recordOf chassisToken]⟩
  reading := ⟨5, SessionRuns.fileOf [SessionRuns.recordOf chassisToken]⟩
  clock := ⟨⟨5, 6⟩, ⟨5, 6⟩, ⟨5, 6⟩⟩
  isPermitted := true
  tm := Server.firstMoment.tm

/-- The session as the file has it. -/
def listedService : ServiceState where
  systemUuid := some "bmc"
  store := { authTokens := OrderedMap.ofList [(chassisToken, {
    uniqueId := "1", sessionToken := chassisToken, username := "root", csrfToken := "csrf"
    lastUpdated := 5, storageType := .configCurrentBmcSession })] }

omit [StdHash] in
/-- A request without credentials is answered while the file lists a session; once the file
lists none, a request with its token is accepted. -/
theorem sessions_from_files_chassis :
    let _ : StdHash := ⟨64, fun _ => 0⟩
    ∃ (events : List Event) (server : Server) (session : UserSession),
      (machine chassisParsers (fun _ => []) .depthFirst 0).Run (Server.atStart initEntityMap)
        events server ∧
      (server.observed 0).map (·.2) = some .completed ∧
      ConfigFile.records chassisMoment.reading = [] ∧
      Listed (fun file => Met chassisParsers (fun _ => []) .depthFirst 0
        (Server.atStart initEntityMap) events file ∨ ServiceState.ReadBy
          chassisMoment.construction chassisMoment.reading server.service file) session ∧
      Authorization.Presented chassisEnvironment session := by
  intro _
  let callbacks := Server.anonymousCallbacks ++ [.response 0 listingMoment]
  obtain ⟨server, hfold, hcompleted, hservice⟩ : ∃ server, callbacks.foldlM
      (Server.next chassisParsers (fun _ => []) .depthFirst 2 entityManager)
      (Server.atStart initEntityMap) = some server ∧
      (server.observed 0).map (·.2) = some .completed ∧ server.service = listedService :=
    ⟨_, rfl, rfl, rfl⟩
  have haccepted : Router.Accepted (chassisMoment.call chassisEnvironment)
      (⟨server.service, none, {}, ()⟩ : Serving Unit) := by
    rw [hservice]
    exact ⟨_, _, rfl, rfl⟩
  have hlibrary : ∀ callback ∈ callbacks, FromLibrary callback := by
    simp [callbacks, Server.anonymousCallbacks, FromLibrary]
  have hrun := run_callbacks hlibrary (Machine.Run.refl (Server.atStart initEntityMap)) hfold
  have hsessions := sessions_from_files
    (show (machine chassisParsers (fun _ => []) .depthFirst 0).initial
      (Server.atStart initEntityMap) from ⟨rfl, fun _ => rfl, rfl⟩) hrun
    (by simp [callbacks, Server.anonymousCallbacks, Event.Unaided])
  obtain ⟨session, hlisted, -, -, hpresented⟩ := hsessions.2 _ _ haccepted
  exact ⟨_, server, session, hrun, hcompleted, rfl, hlisted, hpresented⟩

end System

end ObmcWebapp.Http
