/-
# Persisted configuration

For each storage type that is kept in a file, a list of handlers assembles the document.
The handlers of the long term storage write every item, and a fresh process reads back
what was written. Those of the current BMC session, the only type that is read, write no
system UUID, and a fresh process refuses a document without one.
-/

import ObmcWebapp.Core.Records
import ObmcWebapp.Service.Configuration

namespace ObmcWebapp.Service

open ObmcWebapp.Core

namespace UserSession

/-- The members of the record `populateSessions` writes. -/
def recordFields (session : UserSession) : List (String × String) :=
  [("unique_id", session.uniqueId), ("session_token", session.sessionToken),
    ("username", session.username), ("csrf_token", session.csrfToken),
    ("client_ip", session.clientIp)]

/-- The session has everything a record must have. -/
structure Complete (session : UserSession) : Prop where
  uniqueId : session.uniqueId ≠ ""
  username : session.username ≠ ""
  sessionToken : session.sessionToken ≠ ""
  csrfToken : session.csrfToken ≠ ""

/-- A member of a record changes the field of its name. -/
theorem recordFields_readField (session : UserSession) (element : String × Json) :
    (readField session element).recordFields = session.recordFields.map fun field =>
      (field.1, if element.1 = field.1 then element.2.getString?.getD field.2 else field.2) := by
  simp only [readField, recordFields]
  cases element.2.getString? with
  | none => simp
  | some value =>
      simp only [List.map_cons, List.map_nil, Option.getD_some]
      split_ifs <;> simp_all

def recordFormat : RecordFormat UserSession String where
  fields := recordFields
  read := readField
  toJson := .string
  ofJson? := Json.getString?
  names _ _ := rfl
  nodup _ := by simp [recordFields]
  fields_read := recordFields_readField
  ofJson?_toJson _ := rfl

/-- A complete session is read back from its record, with a new idle time. -/
theorem fromJson_write (now : ℤ) {session : UserSession} (hcomplete : session.Complete) :
    ∃ parsed, fromJson now (recordFormat.write session).reparsed = some parsed ∧
      parsed.recordFields = session.recordFields ∧ parsed.persistence = .timeout := by
  have hread : ((recordFormat.write session).reparsed.items.foldl readField {}).recordFields =
      session.recordFields := recordFormat.fields_readAll_write {} session
  rw [fromJson]
  generalize (recordFormat.write session).reparsed.items.foldl readField {} = read at hread ⊢
  have hfields := hread
  simp only [recordFields, List.cons.injEq, Prod.mk.injEq, true_and, and_true] at hfields
  obtain ⟨huniqueId, hsessionToken, husername, hcsrfToken, -⟩ := hfields
  have hfilled : ¬(read.uniqueId = "" ∨ read.username = "" ∨ read.sessionToken = "" ∨
      read.csrfToken = "") := by
    rw [huniqueId, husername, hsessionToken, hcsrfToken]
    simp [hcomplete.uniqueId, hcomplete.username, hcomplete.sessionToken, hcomplete.csrfToken]
  exact ⟨_, if_neg hfilled, hread, rfl⟩

end UserSession

namespace AuthConfigMethods

/-- The members `populateAuthConfig` writes. -/
def flags (config : AuthConfigMethods) : List (String × Bool) :=
  [("XToken", config.xtoken), ("Cookie", config.cookie), ("SessionToken", config.sessionToken),
    ("BasicAuth", config.basic), ("TLS", config.tls)]

theorem flags_injective {first second : AuthConfigMethods} (hflags : first.flags = second.flags) :
    first = second := by
  simp only [flags, List.cons.injEq, Prod.mk.injEq, true_and, and_true] at hflags
  cases first
  cases second
  simpa using hflags

theorem flags_readFlag (config : AuthConfigMethods) (element : String × Json) :
    (readFlag config element).flags = config.flags.map fun field =>
      (field.1, if element.1 = field.1 then element.2.getBool?.getD field.2 else field.2) := by
  simp only [readFlag, flags]
  cases element.2.getBool? with
  | none => simp
  | some value =>
      simp only [List.map_cons, List.map_nil, Option.getD_some]
      split_ifs <;> simp_all

def recordFormat : RecordFormat AuthConfigMethods Bool where
  fields := flags
  read := readFlag
  toJson := .boolean
  ofJson? := Json.getBool?
  names _ _ := rfl
  nodup _ := by simp [flags]
  fields_read := flags_readFlag
  ofJson?_toJson _ := rfl

/-- What was written is read back, whatever the flags were. -/
theorem fromJson_write (start config : AuthConfigMethods) :
    start.fromJson (recordFormat.write config).reparsed = config :=
  flags_injective (recordFormat.fields_readAll_write start config)

end AuthConfigMethods

namespace ConfigFile

def jsonRevision : UInt64 := 1

def populateRevision (_ : ConfigState) (config : Json) : Except String Json :=
  config.assign keyRevision (.numberUnsigned jsonRevision)

def populateSystemUUID (state : ConfigState) (config : Json) : Except String Json :=
  config.assign keySystemUUID (.string state.systemUuid)

def populateAuthConfig (state : ConfigState) (config : Json) : Except String Json :=
  config.assign keyAuthConfig
    (AuthConfigMethods.recordFormat.write state.store.authMethodsConfig)

def populateTimeout (state : ConfigState) (config : Json) : Except String Json :=
  config.assign keyTimeout (.numberInteger state.store.timeoutInSeconds)

/-- The sessions that are kept in the file of a storage type. -/
def persisted (storageType : ConfigFileStorageType) (store : SessionStore) :
    OrderedMap String UserSession :=
  store.authTokens.filter fun _ session =>
    decide (session.persistence ≠ .singleRequest ∧ session.storageType = storageType)

/-- The container gives its sessions in an order of its own, here in that of their
tokens. -/
def populateSessions (storageType : ConfigFileStorageType) (state : ConfigState)
    (config : Json) : Except String Json :=
  config.assign keySessions
    (.array ((persisted storageType state.store).values.map UserSession.recordFormat.write))

/-- The handlers of a storage type, if it has any. -/
def configPopulatHandlersDict :
    ConfigFileStorageType → Option (List (ConfigState → Json → Except String Json))
  | .configLongTermStorage =>
      some [populateRevision, populateAuthConfig, populateSystemUUID, populateTimeout,
        populateSessions .configLongTermStorage]
  | .configCurrentBmcSession =>
      some [populateRevision, populateSessions .configCurrentBmcSession]
  | .configCurrentServiceSession => none

/-- The document the handlers of a storage type assemble. -/
def assemble (storageType : ConfigFileStorageType) (state : ConfigState) : Except String Json :=
  ((configPopulatHandlersDict storageType).getD []).foldlM
    (fun config populate => populate state config) .null

/-- The sessions of the valid records of a list, as a storage type. -/
def restoredOf (storageType : ConfigFileStorageType) (now : ℤ) (sessions : Json) :
    List UserSession :=
  (sessions.elements.filterMap (UserSession.fromJson now)).map fun session =>
    { session with storageType := storageType }

/-- One member of the document: the storage type is that of the sessions. -/
def readItemOf (storageType : ConfigFileStorageType) (now : ℤ) (state : ConfigState)
    (item : String × Json) : ConfigState :=
  if item.1 = keySessions then
    { state with store := emplaceSessions (restoredOf storageType now item.2) state.store }
  else readItem now state item

/-- `readData` of a storage type. -/
def readDataOf (storageType : ConfigFileStorageType) (reading : Reading) :
    EStateM Exception ConfigState PUnit := fun state =>
  let after := (itemsOf reading.file).foldl (readItemOf storageType reading.now) state
  if after.systemUuid = "" then
    .error (.obmcApp "The actual Sysyten UUID is not captured.") after
  else .ok ⟨⟩ after

theorem readItemOf_configCurrentBmcSession : readItemOf .configCurrentBmcSession = readItem := by
  funext now state item
  rw [readItemOf]
  split_ifs with hsessions
  · simp only [readItem, hsessions]
    rfl
  · rfl

section Parts

variable (storageType : ConfigFileStorageType) (now : ℤ)

/-- A member of the document sets the item of its name and no other. -/
theorem readItemOf_eq (state : ConfigState) (item : String × Json) :
    readItemOf storageType now state item =
      { systemUuid :=
          if item.1 = keySystemUUID then item.2.getString?.getD state.systemUuid
          else state.systemUuid
        store := { state.store with
          authMethodsConfig :=
            if item.1 = keyAuthConfig then state.store.authMethodsConfig.fromJson item.2
            else state.store.authMethodsConfig
          timeoutInSeconds :=
            if item.1 = keyTimeout then item.2.getInt64?.getD state.store.timeoutInSeconds
            else state.store.timeoutInSeconds
          authTokens :=
            if item.1 = keySessions then
              (emplaceSessions (restoredOf storageType now item.2) state.store).authTokens
            else state.store.authTokens } } := by
  obtain ⟨name, value⟩ := item
  simp only [readItemOf, readItem]
  by_cases hsessions : name = keySessions
  · subst hsessions
    rfl
  by_cases hrevision : name = keyRevision
  · subst hrevision
    rfl
  by_cases huuid : name = keySystemUUID
  · subst huuid
    rfl
  by_cases hauth : name = keyAuthConfig
  · subst hauth
    rfl
  by_cases htimeout : name = keyTimeout
  · subst htimeout
    cases value.getInt64? <;> rfl
  · simp [hsessions, hrevision, huuid, hauth, htimeout]

variable {items : List (String × Json)} (hsorted : Entries.Sorted items) (state : ConfigState)
include hsorted

/-- The document sets an item through the member of its name. -/
theorem readAllOf_systemUuid :
    (items.foldl (readItemOf storageType now) state).systemUuid =
      ((items.lookup keySystemUUID).bind Json.getString?).getD state.systemUuid := by
  rw [Entries.foldl_part keySystemUUID (fun state : ConfigState => state.systemUuid)
    (fun (value : Json) old => value.getString?.getD old)
    (fun state item hne => by simp [readItemOf_eq, hne])
    (fun state value => by simp [readItemOf_eq]) hsorted state]
  cases items.lookup keySystemUUID <;> rfl

theorem readAllOf_authMethodsConfig :
    (items.foldl (readItemOf storageType now) state).store.authMethodsConfig =
      ((items.lookup keyAuthConfig).map state.store.authMethodsConfig.fromJson).getD
        state.store.authMethodsConfig := by
  rw [Entries.foldl_part keyAuthConfig (fun state : ConfigState => state.store.authMethodsConfig)
    (fun (value : Json) old => old.fromJson value)
    (fun state item hne => by simp [readItemOf_eq, hne])
    (fun state value => by simp [readItemOf_eq]) hsorted state]
  cases items.lookup keyAuthConfig <;> rfl

theorem readAllOf_timeoutInSeconds :
    (items.foldl (readItemOf storageType now) state).store.timeoutInSeconds =
      ((items.lookup keyTimeout).bind Json.getInt64?).getD state.store.timeoutInSeconds := by
  rw [Entries.foldl_part keyTimeout (fun state : ConfigState => state.store.timeoutInSeconds)
    (fun (value : Json) old => value.getInt64?.getD old)
    (fun state item hne => by simp [readItemOf_eq, hne])
    (fun state value => by simp [readItemOf_eq]) hsorted state]
  cases items.lookup keyTimeout <;> rfl

theorem readAllOf_authTokens :
    (items.foldl (readItemOf storageType now) state).store.authTokens =
      (emplaceSessions (((items.lookup keySessions).map (restoredOf storageType now)).getD [])
        state.store).authTokens := by
  rw [Entries.foldl_part keySessions (fun state : ConfigState => state.store.authTokens)
    (fun (value : Json) old =>
      (emplaceSessions (restoredOf storageType now value) { authTokens := old }).authTokens)
    (fun state item hne => by simp [readItemOf_eq, hne])
    (fun state value => by simp [readItemOf_eq, emplaceSessions]) hsorted state]
  cases items.lookup keySessions <;> rfl

end Parts

/-- What a file keeps of a session, with the type of its storage and its persistence. -/
def kept (session : UserSession) :
    List (String × String) × ConfigFileStorageType × PersistenceType :=
  (session.recordFields, session.storageType, session.persistence)

/-- The sessions of a store are complete and are stored under their tokens. -/
structure WellStored (store : SessionStore) : Prop where
  complete : ∀ token session, store.authTokens.find? token = some session → session.Complete
  own : ∀ token session, store.authTokens.find? token = some session →
    session.sessionToken = token

theorem find?_persisted {storageType : ConfigFileStorageType} {store : SessionStore}
    {token : String} {session : UserSession} :
    (persisted storageType store).find? token = some session ↔
      store.authTokens.find? token = some session ∧
        session.persistence = .timeout ∧ session.storageType = storageType := by
  rw [persisted, OrderedMap.find?_filter, Option.filter_eq_some_iff, decide_eq_true_eq]
  cases session.persistence <;> simp

/-- The records of complete sessions of one type are all read back. -/
theorem kept_restoredOf_write (storageType : ConfigFileStorageType) (now : ℤ)
    {sessions : List UserSession}
    (hsessions : ∀ session ∈ sessions, session.Complete ∧
      session.persistence = .timeout ∧ session.storageType = storageType) :
    (restoredOf storageType now
      (Json.array (sessions.map UserSession.recordFormat.write)).reparsed).map kept =
        sessions.map kept := by
  rw [Json.reparsed_array]
  induction sessions with
  | nil => rfl
  | cons session sessions ih =>
      obtain ⟨hcomplete, hpersistence, htype⟩ := hsessions session (by simp)
      obtain ⟨parsed, hparsed, hfields, htimeout⟩ := UserSession.fromJson_write now hcomplete
      have hrest := ih fun later hlater => hsessions later (List.mem_cons_of_mem _ hlater)
      simp only [restoredOf, Json.elements] at hrest ⊢
      rw [List.map_cons, List.map_cons, List.filterMap_cons, hparsed]
      simp only [List.map_cons, hrest, List.cons.injEq, and_true]
      show (parsed.recordFields, storageType, parsed.persistence) = kept session
      rw [hfields, htimeout, kept, htype, hpersistence]

/-- What is restored under a token from the records of a well stored store. -/
theorem kept_emplaceSessions_persisted (storageType : ConfigFileStorageType) (now : ℤ)
    {store : SessionStore} (hstored : WellStored store) (token : String) :
    (((emplaceSessions (restoredOf storageType now
        (Json.array ((persisted storageType store).values.map
          UserSession.recordFormat.write)).reparsed) {}).authTokens.find? token).map kept) =
      ((persisted storageType store).find? token).map kept := by
  have hvalues : ∀ session ∈ (persisted storageType store).values, session.Complete ∧
      session.persistence = .timeout ∧ session.storageType = storageType := by
    intro session hmem
    obtain ⟨key, hfound⟩ := OrderedMap.mem_values_iff.mp hmem
    obtain ⟨hfound, hkept⟩ := find?_persisted.mp hfound
    exact ⟨hstored.complete key session hfound, hkept⟩
  have hown : ∀ key session, (persisted storageType store).find? key = some session →
      session.sessionToken = key := fun key session hfound =>
    hstored.own key session (find?_persisted.mp hfound).1
  -- the token is part of what is kept
  have htoken : (fun session : UserSession => decide (session.sessionToken = token)) =
      (fun what : List (String × String) × ConfigFileStorageType × PersistenceType =>
        decide (what.1.lookup "session_token" = some token)) ∘ kept := by
    funext session
    simp [kept, UserSession.recordFields, Entries.lookup_cons]
  have hfind : (emplaceSessions (restoredOf storageType now
      (Json.array ((persisted storageType store).values.map
        UserSession.recordFormat.write)).reparsed) {}).authTokens.find? token =
      (restoredOf storageType now (Json.array ((persisted storageType store).values.map
        UserSession.recordFormat.write)).reparsed).find? fun session =>
          decide (session.sessionToken = token) := by
    rw [find?_emplaceSessions]
    rfl
  rw [hfind, ← OrderedMap.find?_values hown, htoken, ← List.find?_map, ← List.find?_map,
    kept_restoredOf_write storageType now hvalues]

/-- The members the handlers of the long term storage write. -/
def longTermMembers (state : ConfigState) : List (String × Json) :=
  Entries.insertOrAssign keySessions
    (.array ((persisted .configLongTermStorage state.store).values.map
      UserSession.recordFormat.write))
    (Entries.insertOrAssign keyTimeout (.numberInteger state.store.timeoutInSeconds)
      (Entries.insertOrAssign keySystemUUID (.string state.systemUuid)
        (Entries.insertOrAssign keyAuthConfig
          (AuthConfigMethods.recordFormat.write state.store.authMethodsConfig)
          [(keyRevision, .numberUnsigned jsonRevision)])))

/-- The members the handlers of the current BMC session write. -/
def currentBmcMembers (state : ConfigState) : List (String × Json) :=
  Entries.insertOrAssign keySessions
    (.array ((persisted .configCurrentBmcSession state.store).values.map
      UserSession.recordFormat.write))
    [(keyRevision, .numberUnsigned jsonRevision)]

theorem assemble_configLongTermStorage (state : ConfigState) :
    assemble .configLongTermStorage state = .ok (.object (longTermMembers state)) := rfl

theorem assemble_configCurrentBmcSession (state : ConfigState) :
    assemble .configCurrentBmcSession state = .ok (.object (currentBmcMembers state)) := rfl

theorem sorted_longTermMembers (state : ConfigState) :
    Entries.Sorted (longTermMembers state) := by
  repeat apply Entries.sorted_insertOrAssign
  exact List.pairwise_singleton _ _

theorem sorted_currentBmcMembers (state : ConfigState) :
    Entries.Sorted (currentBmcMembers state) := by
  apply Entries.sorted_insertOrAssign
  exact List.pairwise_singleton _ _

theorem lookup_longTermMembers (state : ConfigState) :
    (longTermMembers state).lookup keySystemUUID = some (.string state.systemUuid) ∧
    (longTermMembers state).lookup keyAuthConfig =
      some (AuthConfigMethods.recordFormat.write state.store.authMethodsConfig) ∧
    (longTermMembers state).lookup keyTimeout =
      some (.numberInteger state.store.timeoutInSeconds) ∧
    (longTermMembers state).lookup keySessions =
      some (.array ((persisted .configLongTermStorage state.store).values.map
        UserSession.recordFormat.write)) := by
  simp only [longTermMembers, Entries.lookup_insertOrAssign]
  exact ⟨rfl, rfl, rfl, rfl⟩

theorem lookup_currentBmcMembers (state : ConfigState) :
    (currentBmcMembers state).lookup keySystemUUID = none := by
  rw [currentBmcMembers, Entries.lookup_insertOrAssign]
  rfl

/-! ## The round trip -/

/-- A read restored what the document holds of a state: the sessions of the type that
time out, and every other item the handlers of the type wrote. -/
structure Restored (storageType : ConfigFileStorageType) (document : Json)
    (before after : ConfigState) : Prop where
  sessions : ∀ token, (after.store.authTokens.find? token).map kept =
    ((before.store.authTokens.find? token).filter fun session =>
      decide (session.persistence = .timeout ∧ session.storageType = storageType)).map kept
  authConfig : (document.member? keyAuthConfig).isSome →
    after.store.authMethodsConfig = before.store.authMethodsConfig
  systemUuid : (document.member? keySystemUUID).isSome → after.systemUuid = before.systemUuid
  timeout : (document.member? keyTimeout).isSome →
    after.store.timeoutInSeconds = before.store.timeoutInSeconds

/-- The state of a fresh process after it read the text of a document. -/
def readBack (storageType : ConfigFileStorageType) (now : ℤ) (members : List (String × Json)) :
    ConfigState :=
  (members.map fun member => (member.1, member.2.reparsed)).foldl
    (readItemOf storageType now) ⟨"", {}⟩

section RoundTrip

-- the text of a document, and what parsing a text gives
variable (dump : Json → String) (parse : String → FileContent)

/-- A fresh process restores what the handlers of the type assembled. -/
def RoundTrips (now : ℤ) (storageType : ConfigFileStorageType) (state : ConfigState) : Prop :=
  ∃ document after, assemble storageType state = .ok document ∧
    readDataOf storageType ⟨now, parse (dump document)⟩ ⟨"", {}⟩ = .ok ⟨⟩ after ∧
    Restored storageType document state after

variable {dump parse}

theorem readDataOf_text {storageType : ConfigFileStorageType} {now : ℤ}
    {members : List (String × Json)}
    (hparse : parse (dump (.object members)) = .parsed (Json.object members).reparsed) :
    readDataOf storageType ⟨now, parse (dump (.object members))⟩ ⟨"", {}⟩ =
      if (readBack storageType now members).systemUuid = "" then
        .error (.obmcApp "The actual Sysyten UUID is not captured.")
          (readBack storageType now members)
      else .ok ⟨⟩ (readBack storageType now members) := by
  have hitems : itemsOf (parse (dump (.object members))) =
      members.map fun member => (member.1, member.2.reparsed) := by
    rw [hparse]
    exact Json.items_reparsed_object members
  simp only [readDataOf, hitems]
  rfl

theorem restored_configLongTermStorage (now : ℤ) {state : ConfigState}
    (hstored : WellStored state.store) :
    (readBack .configLongTermStorage now (longTermMembers state)).systemUuid = state.systemUuid ∧
    Restored .configLongTermStorage (.object (longTermMembers state)) state
      (readBack .configLongTermStorage now (longTermMembers state)) := by
  have hsorted : Entries.Sorted
      ((longTermMembers state).map fun member => (member.1, member.2.reparsed)) :=
    Entries.sorted_mapValue (fun _ value => Json.reparsed value) (sorted_longTermMembers state)
  have hlookup : ∀ name, ((longTermMembers state).map fun member =>
      (member.1, member.2.reparsed)).lookup name =
        ((longTermMembers state).lookup name).map Json.reparsed := fun name =>
    Entries.lookup_mapValue (fun _ value => Json.reparsed value) name _
  obtain ⟨huuid, hauth, htimeout, hsessions⟩ := lookup_longTermMembers state
  have hreadUuid := readAllOf_systemUuid .configLongTermStorage now hsorted ⟨"", {}⟩
  have hreadAuth := readAllOf_authMethodsConfig .configLongTermStorage now hsorted ⟨"", {}⟩
  have hreadTimeout := readAllOf_timeoutInSeconds .configLongTermStorage now hsorted ⟨"", {}⟩
  have hreadTokens := readAllOf_authTokens .configLongTermStorage now hsorted ⟨"", {}⟩
  rw [hlookup, huuid] at hreadUuid
  rw [hlookup, hauth, Option.map_some, Option.map_some, Option.getD_some,
    AuthConfigMethods.fromJson_write] at hreadAuth
  rw [hlookup, htimeout, Option.map_some, Option.bind_some, Json.getInt64?_reparsed,
    Option.getD_some] at hreadTimeout
  rw [hlookup, hsessions, Option.map_some, Option.map_some, Option.getD_some] at hreadTokens
  refine ⟨hreadUuid, ?_, fun _ => hreadAuth, fun _ => hreadUuid, fun _ => hreadTimeout⟩
  intro token
  have hkept := kept_emplaceSessions_persisted .configLongTermStorage now hstored token
  rw [readBack, hreadTokens, hkept, persisted, OrderedMap.find?_filter]
  congr 2
  funext session
  cases session.persistence <;> simp

/-- The handlers of the current BMC session write no system UUID. -/
theorem readBack_configCurrentBmcSession (now : ℤ) (state : ConfigState) :
    (readBack .configCurrentBmcSession now (currentBmcMembers state)).systemUuid = "" := by
  have hsorted : Entries.Sorted
      ((currentBmcMembers state).map fun member => (member.1, member.2.reparsed)) :=
    Entries.sorted_mapValue (fun _ value => Json.reparsed value) (sorted_currentBmcMembers state)
  rw [readBack, readAllOf_systemUuid _ now hsorted,
    Entries.lookup_mapValue (fun _ value => Json.reparsed value), lookup_currentBmcMembers]
  rfl

variable (dump parse)

/-- A fresh process refuses what the handlers of the current BMC session assembled. -/
theorem not_roundTrips_configCurrentBmcSession (now : ℤ) (state : ConfigState)
    (hparse : ∀ document, assemble .configCurrentBmcSession state = .ok document →
      parse (dump document) = .parsed document.reparsed) :
    ¬RoundTrips dump parse now .configCurrentBmcSession state := by
  rintro ⟨document, after, hassemble, hread, -⟩
  obtain rfl : Json.object (currentBmcMembers state) = document := Except.ok.inj hassemble
  rw [readDataOf_text (hparse _ hassemble), readBack_configCurrentBmcSession, if_pos rfl] at hread
  cases hread

/-- The documents of the long term storage round trip, those of the current BMC session
never do. -/
theorem roundTrips_iff_longTerm (now : ℤ) (storageType : ConfigFileStorageType)
    (state : ConfigState) (hhandlers : (configPopulatHandlersDict storageType).isSome)
    (hstored : WellStored state.store) (hfilled : state.systemUuid ≠ "")
    (hparse : ∀ document, assemble storageType state = .ok document →
      parse (dump document) = .parsed document.reparsed) :
    RoundTrips dump parse now storageType state ↔ storageType = .configLongTermStorage := by
  cases storageType with
  | configLongTermStorage =>
      obtain ⟨huuid, hrestored⟩ := restored_configLongTermStorage now hstored
      refine iff_of_true ⟨_, _, assemble_configLongTermStorage state, ?_, hrestored⟩ rfl
      rw [readDataOf_text (hparse _ (assemble_configLongTermStorage state)), huuid,
        if_neg hfilled]
  | configCurrentBmcSession =>
      exact iff_of_false (not_roundTrips_configCurrentBmcSession dump parse now state hparse)
        (by simp)
  | configCurrentServiceSession => cases hhandlers

end RoundTrip

/-- A session kept in the file of a storage type. -/
def storedSession (storageType : ConfigFileStorageType) : UserSession where
  uniqueId := "FSWf4p00ec"
  sessionToken := "0vAFsNVEBlCvTXnjI0YQ"
  username := "admin"
  csrfToken := "8Bu750MWYvQfn5exstuo"
  storageType := storageType

def storedState (storageType : ConfigFileStorageType) : ConfigState where
  systemUuid := "9973d1cb-f97b-4258-a65e-26cc66e0b013"
  store.authTokens := OrderedMap.empty.insertOrAssign "0vAFsNVEBlCvTXnjI0YQ"
    (storedSession storageType)

/-- The record of that session in a file. -/
def storedRecord : Json := .object [("client_ip", .string ""),
  ("csrf_token", .string "8Bu750MWYvQfn5exstuo"),
  ("session_token", .string "0vAFsNVEBlCvTXnjI0YQ"), ("unique_id", .string "FSWf4p00ec"),
  ("username", .string "admin")]

def longTermText : String :=
  "\x7b\"auth_config\":\x7b\"BasicAuth\":true,\"Cookie\":true,\"SessionToken\":true,\"TLS\":false," ++
  "\"XToken\":true\x7d,\"revision\":1,\"sessions\":[\x7b\"client_ip\":\"\"," ++
  "\"csrf_token\":\"8Bu750MWYvQfn5exstuo\",\"session_token\":\"0vAFsNVEBlCvTXnjI0YQ\"," ++
  "\"unique_id\":\"FSWf4p00ec\",\"username\":\"admin\"\x7d]," ++
  "\"system_uuid\":\"9973d1cb-f97b-4258-a65e-26cc66e0b013\",\"timeout\":3600\x7d"

def longTermDocument : Json := .object [
  ("auth_config", .object [("BasicAuth", .boolean true), ("Cookie", .boolean true),
    ("SessionToken", .boolean true), ("TLS", .boolean false), ("XToken", .boolean true)]),
  ("revision", .numberUnsigned 1), ("sessions", .array [storedRecord]),
  ("system_uuid", .string "9973d1cb-f97b-4258-a65e-26cc66e0b013"),
  ("timeout", .numberUnsigned 3600)]

def currentBmcText : String :=
  "\x7b\"revision\":1,\"sessions\":[\x7b\"client_ip\":\"\"," ++
  "\"csrf_token\":\"8Bu750MWYvQfn5exstuo\",\"session_token\":\"0vAFsNVEBlCvTXnjI0YQ\"," ++
  "\"unique_id\":\"FSWf4p00ec\",\"username\":\"admin\"\x7d]\x7d"

def currentBmcDocument : Json := .object [("revision", .numberUnsigned 1),
  ("sessions", .array [storedRecord])]

/-- Parse the text of a known document. -/
def parseText (known : String) (document : Json) (text : String) : FileContent :=
  if text = known then .parsed document else .discarded

theorem parseText_storedState {storageType : ConfigFileStorageType} {members : List (String × Json)}
    (hassembled : assemble storageType (storedState storageType) = .ok (.object members))
    (known : String) (document : Json)
    (hassemble : assemble storageType (storedState storageType) = .ok document) :
    parseText known (Json.object members).reparsed known = .parsed document.reparsed := by
  rw [hassembled] at hassemble
  obtain rfl := Except.ok.inj hassemble
  exact if_pos rfl

theorem wellStored_storedState (storageType : ConfigFileStorageType) :
    WellStored (storedState storageType).store := by
  have hstored : ∀ token session,
      (storedState storageType).store.authTokens.find? token = some session →
        token = "0vAFsNVEBlCvTXnjI0YQ" ∧ session = storedSession storageType := by
    intro token session hfound
    simp only [storedState, OrderedMap.find?_insertOrAssign, OrderedMap.find?_empty] at hfound
    split_ifs at hfound with htoken
    exact ⟨htoken, (Option.some.inj hfound).symm⟩
  constructor
  · intro token session hfound
    obtain ⟨-, rfl⟩ := hstored token session hfound
    constructor <;> simp [storedSession]
  · intro token session hfound
    obtain ⟨rfl, rfl⟩ := hstored token session hfound
    rfl

/-- The documents as they are read back. -/
theorem longTermDocument_eq :
    (Json.object (longTermMembers (storedState .configLongTermStorage))).reparsed =
      longTermDocument := rfl

theorem currentBmcDocument_eq :
    (Json.object (currentBmcMembers (storedState .configCurrentBmcSession))).reparsed =
      currentBmcDocument := rfl

theorem roundTrips_iff_longTerm_admin :
    RoundTrips (fun _ => longTermText) (parseText longTermText longTermDocument) 7
      .configLongTermStorage (storedState .configLongTermStorage) :=
  (roundTrips_iff_longTerm _ _ 7 .configLongTermStorage (storedState .configLongTermStorage) rfl
    (wellStored_storedState _) (by simp [storedState])
    (longTermDocument_eq ▸
      parseText_storedState (assemble_configLongTermStorage _) longTermText)).mpr rfl

/-- The one session of the current BMC session is written, and its document refused. -/
theorem currentBmc_not_roundTrips :
    (configPopulatHandlersDict .configCurrentBmcSession).isSome ∧
    WellStored (storedState .configCurrentBmcSession).store ∧
    (storedState .configCurrentBmcSession).systemUuid ≠ "" ∧
    (∀ document, assemble .configCurrentBmcSession (storedState .configCurrentBmcSession) =
      .ok document →
        parseText currentBmcText currentBmcDocument currentBmcText = .parsed document.reparsed) ∧
    ¬RoundTrips (fun _ => currentBmcText) (parseText currentBmcText currentBmcDocument) 7
      .configCurrentBmcSession (storedState .configCurrentBmcSession) := by
  have hparse : ∀ document,
      assemble .configCurrentBmcSession (storedState .configCurrentBmcSession) = .ok document →
        parseText currentBmcText currentBmcDocument currentBmcText = .parsed document.reparsed :=
    currentBmcDocument_eq ▸
      parseText_storedState (assemble_configCurrentBmcSession _) currentBmcText
  exact ⟨rfl, wellStored_storedState _, by simp [storedState], hparse,
    not_roundTrips_configCurrentBmcSession (fun _ => currentBmcText) _ 7 _ hparse⟩

end ConfigFile

end ObmcWebapp.Service
