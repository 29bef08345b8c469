/-
# The shared session file

Another process writes the file; this one reads it again before every request. A
read takes the system UUID, the authentication flags and the timeout over from the
file, and adds the sessions of its valid records to the store under tokens that are
not there yet. It neither removes nor changes a session the store holds.

The configuration object is constructed by the first request, which therefore reads
the file twice.
-/

import ObmcWebapp.Core.Exceptions
import ObmcWebapp.Library.Fallible
import ObmcWebapp.Service.Session

namespace ObmcWebapp.Service

open ObmcWebapp.Core

/-- What opening and parsing the file gives. -/
inductive FileContent
  | absent
  | discarded
  | parsed (data : Json)

/-- One read of the file, at a reading of the clock. -/
structure Reading where
  now : ℤ
  file : FileContent

/-- The system UUID of the configuration object and the session store. -/
structure ConfigState where
  systemUuid : String
  store : SessionStore

namespace ConfigFile

def keyRevision : String := "revision"
def keyAuthConfig : String := "auth_config"
def keySystemUUID : String := "system_uuid"
def keyTimeout : String := "timeout"
def keySessions : String := "sessions"

/-- The sessions of the valid records of a list, as the file's storage type. -/
def restored (now : ℤ) (sessions : Json) : List UserSession :=
  (sessions.elements.filterMap (UserSession.fromJson now)).map fun session =>
    { session with storageType := .configCurrentBmcSession }

/-- `authTokens.emplace` for each session in turn. -/
def emplaceSessions (sessions : List UserSession) (store : SessionStore) : SessionStore :=
  { store with
    authTokens := sessions.foldl (fun tokens session =>
      tokens.emplace session.sessionToken session) store.authTokens }

/-- One member of the document. The revision is read and dropped. -/
def readItem (now : ℤ) (state : ConfigState) (item : String × Json) : ConfigState :=
  if item.1 = keyRevision then state
  else if item.1 = keySystemUUID then
    { state with systemUuid := item.2.getString?.getD state.systemUuid }
  else if item.1 = keyAuthConfig then
    { state with store := { state.store with
        authMethodsConfig := state.store.authMethodsConfig.fromJson item.2 } }
  else if item.1 = keySessions then
    { state with store := emplaceSessions (restored now item.2) state.store }
  else if item.1 = keyTimeout then
    match item.2.getInt64? with
    | none => state
    | some timeout => { state with store := state.store.updateSessionTimeout timeout }
  else state

/-- The members of the document; a file that cannot be opened or parsed has none. -/
def itemsOf : FileContent → List (String × Json)
  | .parsed data => data.items
  | _ => []

/-- `readData`, which throws when no system UUID was ever captured. -/
def readData (reading : Reading) : EStateM Exception ConfigState PUnit := fun state =>
  let after := (itemsOf reading.file).foldl (readItem reading.now) state
  if after.systemUuid = "" then
    .error (.obmcApp "The actual Sysyten UUID is not captured.") after
  else .ok ⟨⟩ after

end ConfigFile

/-- The global state of the service: the system UUID of the configuration object, once
it is constructed, and the session store. -/
structure ServiceState where
  systemUuid : Option String := none
  store : SessionStore := {}

namespace ServiceState

/-- Run `readData` on the constructed object. -/
def reread (reading : Reading) (systemUuid : String) :
    EStateM Exception ServiceState PUnit := fun state =>
  match ConfigFile.readData reading ⟨systemUuid, state.store⟩ with
  | .ok _ after => .ok ⟨⟩ ⟨some after.systemUuid, after.store⟩
  | .error exception after => .error exception ⟨some after.systemUuid, after.store⟩

/-- The constructor of the configuration object. When it throws there is no object
yet, but what the store took over stays. -/
def construct (reading : Reading) : EStateM Exception ServiceState String := fun state =>
  match ConfigFile.readData reading ⟨"", state.store⟩ with
  | .ok _ after => .ok after.systemUuid ⟨some after.systemUuid, after.store⟩
  | .error exception after => .error exception ⟨none, after.store⟩

/-- `getConfig().readData()`. -/
def readData (construction reading : Reading) : EStateM Exception ServiceState PUnit :=
  fun state =>
    match state.systemUuid with
    | some systemUuid => reread reading systemUuid state
    | none => (construct construction >>= reread reading) state

end ServiceState

namespace ConfigFile

/-- The valid records of a file. -/
def records (reading : Reading) : List UserSession :=
  (itemsOf reading.file).flatMap fun item =>
    if item.1 = keySessions then restored reading.now item.2 else []

/-- The first valid record of a file for a token. -/
def record? (reading : Reading) (token : String) : Option UserSession :=
  (records reading).find? fun session => decide (session.sessionToken = token)

theorem find?_emplaceSessions (sessions : List UserSession) (store : SessionStore)
    (token : String) :
    (emplaceSessions sessions store).authTokens.find? token =
      (store.authTokens.find? token).or
        (sessions.find? fun session => decide (session.sessionToken = token)) := by
  induction sessions generalizing store with
  | nil => simp [emplaceSessions]
  | cons session sessions ih =>
      have hstep : emplaceSessions (session :: sessions) store = emplaceSessions sessions
          { store with
            authTokens := store.authTokens.emplace session.sessionToken session } := rfl
      rw [hstep, ih, OrderedMap.find?_emplace, List.find?_cons]
      by_cases htoken : token = session.sessionToken
      · subst htoken
        cases store.authTokens.find? session.sessionToken <;> simp
      · have hother : decide (session.sessionToken = token) = false := by
          simpa using Ne.symm htoken
        simp [htoken, hother]

/-- One member of the document leaves the tokens alone, or adds its valid records. -/
theorem find?_readItem (now : ℤ) (state : ConfigState) (item : String × Json) (token : String) :
    (readItem now state item).store.authTokens.find? token =
      (state.store.authTokens.find? token).or
        ((if item.1 = keySessions then restored now item.2 else []).find? fun session =>
          decide (session.sessionToken = token)) := by
  have hrevision : keySessions ≠ keyRevision := by decide
  have huuid : keySessions ≠ keySystemUUID := by decide
  have hauth : keySessions ≠ keyAuthConfig := by decide
  by_cases hsessions : item.1 = keySessions
  · simp only [readItem, hsessions, hrevision, huuid, hauth, if_false, if_true]
    exact find?_emplaceSessions _ _ _
  · have hkept : (readItem now state item).store.authTokens = state.store.authTokens := by
      simp only [readItem, hsessions, if_false]
      split_ifs
      · rfl
      · rfl
      · rfl
      · cases item.2.getInt64? <;> rfl
      · rfl
    simp [hkept, hsessions]

theorem find?_readItems (now : ℤ) (items : List (String × Json)) (state : ConfigState)
    (token : String) :
    (items.foldl (readItem now) state).store.authTokens.find? token =
      (state.store.authTokens.find? token).or
        ((items.flatMap fun item =>
          if item.1 = keySessions then restored now item.2 else []).find? fun session =>
            decide (session.sessionToken = token)) := by
  induction items generalizing state with
  | nil => simp
  | cons item items ih =>
      rw [List.foldl_cons, ih, find?_readItem, List.flatMap_cons, List.find?_append, Option.or_assoc]

/-- A record found for a token is a session of that token and of the file's type. -/
theorem record?_spec {reading : Reading} {token : String} {session : UserSession}
    (hrecord : record? reading token = some session) :
    session.sessionToken = token ∧ session.storageType = .configCurrentBmcSession := by
  constructor
  · simpa using List.find?_some hrecord
  · have hmem : session ∈ records reading := List.mem_of_find?_eq_some hrecord
    obtain ⟨item, -, hitem⟩ := List.mem_flatMap.mp hmem
    by_cases hsessions : item.1 = keySessions
    · rw [if_pos hsessions] at hitem
      obtain ⟨parsed, -, rfl⟩ := List.mem_map.mp hitem
      rfl
    · rw [if_neg hsessions] at hitem
      cases hitem

/-- A read adds the valid records under absent tokens, also when it throws. -/
theorem find?_readData (reading : Reading) (state : ConfigState) :
    Fallible.Leaves (fun after : ConfigState => ∀ token,
      after.store.authTokens.find? token =
        (state.store.authTokens.find? token).or (record? reading token))
      (readData reading state) := by
  simp only [readData]
  split_ifs
  · exact find?_readItems reading.now (itemsOf reading.file) state
  · exact find?_readItems reading.now (itemsOf reading.file) state

end ConfigFile

namespace ServiceState

theorem find?_reread (reading : Reading) (systemUuid : String) (state : ServiceState) :
    Fallible.Leaves (fun after : ServiceState => after.systemUuid.isSome ∧ ∀ token,
      after.store.authTokens.find? token =
        (state.store.authTokens.find? token).or (ConfigFile.record? reading token))
      (reread reading systemUuid state) := by
  have hread := ConfigFile.find?_readData reading ⟨systemUuid, state.store⟩
  simp only [reread]
  cases hresult : ConfigFile.readData reading ⟨systemUuid, state.store⟩ with
  | ok value after =>
      rw [hresult] at hread
      exact ⟨rfl, hread⟩
  | error exception after =>
      rw [hresult] at hread
      exact ⟨rfl, hread⟩

theorem find?_construct (reading : Reading) (state : ServiceState) :
    Fallible.Leaves (fun after : ServiceState => ∀ token,
      after.store.authTokens.find? token =
        (state.store.authTokens.find? token).or (ConfigFile.record? reading token))
      (construct reading state) := by
  have hread := ConfigFile.find?_readData reading ⟨"", state.store⟩
  simp only [construct]
  cases hresult : ConfigFile.readData reading ⟨"", state.store⟩ with
  | ok value after =>
      rw [hresult] at hread
      exact hread
  | error exception after =>
      rw [hresult] at hread
      exact hread

/-- The store the last read of a call meets: the first call constructs the
configuration object before. -/
def storeMet (construction : Reading) (state : ServiceState) : SessionStore :=
  match state.systemUuid with
  | some _ => state.store
  | none =>
      match construct construction state with
      | .ok _ after => after.store
      | .error _ after => after.store

/-- A read that returns leaves a configuration object and adds the valid records to the
store it met. -/
theorem find?_readData_ok {construction reading : Reading} {state after : ServiceState}
    (hread : readData construction reading state = .ok ⟨⟩ after) :
    after.systemUuid.isSome ∧ ∀ token,
      after.store.authTokens.find? token =
        ((storeMet construction state).authTokens.find? token).or
          (ConfigFile.record? reading token) := by
  have hreread : ∀ (systemUuid : String) (met : ServiceState),
      reread reading systemUuid met = .ok ⟨⟩ after →
        after.systemUuid.isSome ∧ ∀ token, after.store.authTokens.find? token =
          (met.store.authTokens.find? token).or (ConfigFile.record? reading token) := by
    intro systemUuid met hok
    have hleaves := find?_reread reading systemUuid met
    rw [hok] at hleaves
    exact hleaves
  cases huuid : state.systemUuid with
  | some systemUuid =>
      simp only [readData, storeMet, huuid] at hread ⊢
      exact hreread systemUuid state hread
  | none =>
      simp only [readData, huuid] at hread
      obtain ⟨systemUuid, constructed, hconstruct, hok⟩ := Fallible.bind_eq_ok hread
      simp only [storeMet, huuid, hconstruct]
      exact hreread systemUuid constructed hok

/-- What the last read meets was there before or comes from the construction. -/
theorem storeMet_source {construction : Reading} {state : ServiceState} {token : String}
    {session : UserSession}
    (hfound : (storeMet construction state).authTokens.find? token = some session) :
    state.store.authTokens.find? token = some session ∨
      ConfigFile.record? construction token = some session := by
  cases huuid : state.systemUuid with
  | some systemUuid =>
      simp only [storeMet, huuid] at hfound
      exact .inl hfound
  | none =>
      have hconstruct := find?_construct construction state
      simp only [storeMet, huuid] at hfound
      cases hresult : construct construction state with
      | ok systemUuid constructed =>
          rw [hresult] at hconstruct hfound
          rw [hconstruct token, Option.or_eq_some_iff] at hfound
          exact hfound.imp id And.right
      | error exception constructed =>
          rw [hresult] at hconstruct hfound
          rw [hconstruct token, Option.or_eq_some_iff] at hfound
          exact hfound.imp id And.right

/-- What a call reads: the file of the constructor while there is no configuration object,
and its own file once there is one. -/
inductive ReadBy (construction reading : Reading) (state : ServiceState) : Reading → Prop
  | constructor (hnone : state.systemUuid = none) : ReadBy construction reading state construction
  | reread (hmade : state.systemUuid = none →
      ∃ systemUuid after, construct construction state = .ok systemUuid after) :
      ReadBy construction reading state reading

/-- What a call holds after its reads, it held before or read from a file. -/
theorem readData_source (construction reading : Reading) (state : ServiceState) :
    Fallible.Leaves (fun after : ServiceState => ∀ token session,
      after.store.authTokens.find? token = some session →
        state.store.authTokens.find? token = some session ∨
        ∃ read, ReadBy construction reading state read ∧
          ConfigFile.record? read token = some session)
      (readData construction reading state) := by
  have hreread : ∀ (systemUuid : String) (met : ServiceState),
      Fallible.Leaves (fun after : ServiceState => ∀ token session,
        after.store.authTokens.find? token = some session →
          met.store.authTokens.find? token = some session ∨
          ConfigFile.record? reading token = some session)
        (reread reading systemUuid met) := by
    intro systemUuid met
    apply (find?_reread reading systemUuid met).imp
    intro after hafter token session hfound
    rw [hafter.2 token, Option.or_eq_some_iff] at hfound
    exact hfound.imp id And.right
  cases huuid : state.systemUuid with
  | some systemUuid =>
      have hread : ReadBy construction reading state reading :=
        .reread fun hnone => by rw [huuid] at hnone; cases hnone
      simp only [readData, huuid]
      apply (hreread systemUuid state).imp
      exact fun after hafter token session hfound =>
        (hafter token session hfound).imp id fun hrecord => ⟨reading, hread, hrecord⟩
  | none =>
      have hread : ReadBy construction reading state construction := .constructor huuid
      simp only [readData, huuid]
      have hconstruct := find?_construct construction state
      cases hresult : construct construction state with
      | error exception constructed =>
          rw [hresult] at hconstruct
          rw [Fallible.bind_error hresult]
          intro token session hfound
          rw [hconstruct token, Option.or_eq_some_iff] at hfound
          exact hfound.imp id fun hrecord => ⟨construction, hread, hrecord.2⟩
      | ok systemUuid constructed =>
          rw [hresult] at hconstruct
          rw [Fallible.bind_ok hresult]
          apply (hreread systemUuid constructed).imp
          intro after hafter token session hfound
          rcases hafter token session hfound with hbefore | hrecord
          · rw [hconstruct token, Option.or_eq_some_iff] at hbefore
            exact hbefore.imp id fun hbuilt => ⟨construction, hread, hbuilt.2⟩
          · exact .inr ⟨reading, .reread fun _ => ⟨systemUuid, constructed, hresult⟩, hrecord⟩

end ServiceState

end ObmcWebapp.Service
