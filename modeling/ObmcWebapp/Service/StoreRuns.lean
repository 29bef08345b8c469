/-
# Runs of the session store

Calls of the session store come at times that never go back. A call sweeps before it
does anything else, but at most once a second, so that a session may outlive its
timeout by the throttle and no longer. Between two sweeps nothing but an insertion
brings a token in, and a session that is used often enough is never swept.

The clock of the process starts at zero, as does the stamp of the last sweep.
-/

import ObmcWebapp.Library.Execution
import ObmcWebapp.Service.Session

namespace ObmcWebapp.Service

open ObmcWebapp.Core

namespace SessionStore

/-- The calls of the store, apart from the time at which they sweep. A login reads the
clock once more for the session it found. -/
inductive StoreOperation
  | insert (token : String) (session : UserSession)
  | loginSessionByToken (token : String) (touch : ℤ)
  | getSessionByUid (uid : String)
  | getUniqueIds (getAll : Bool) (type : PersistenceType)
  | applySessionTimeouts

structure StoreCall where
  time : ℤ
  operation : StoreOperation

/-- The store and the last reading of the clock. -/
structure TimedStore where
  clock : ℤ
  store : SessionStore

/-- Insert a session that was used just now, under a token the store does not hold. -/
def insert? (timeNow : ℤ) (token : String) (session : UserSession) (store : SessionStore) :
    Option SessionStore :=
  if store.authTokens.contains token then none
  else some { store with
    authTokens := store.authTokens.emplace token { session with lastUpdated := timeNow } }

/-- One call. Times do not go back. -/
def next (state : TimedStore) (call : StoreCall) : Option TimedStore :=
  if call.time < state.clock then none
  else
    match call.operation with
    | .insert token session =>
        (state.store.insert? call.time token session).map fun store => ⟨call.time, store⟩
    | .loginSessionByToken token touch =>
        if touch < call.time then none
        else some ⟨touch, (state.store.loginSessionByToken ⟨call.time, touch⟩ token).2⟩
    | .getSessionByUid uid => some ⟨call.time, (state.store.getSessionByUid call.time uid).2⟩
    | .getUniqueIds getAll type =>
        some ⟨call.time, (state.store.getUniqueIds call.time getAll type).2⟩
    | .applySessionTimeouts => some ⟨call.time, state.store.applySessionTimeouts call.time⟩

/-- The calls of a store that starts empty and keeps its timeout. -/
def machine (timeout : Int64) : Machine TimedStore StoreCall :=
  Machine.ofNext (fun state => state = ⟨0, { timeoutInSeconds := timeout }⟩) next

/-- A call brings a token in. -/
def StoreOperation.Inserts : StoreOperation → Prop
  | .insert _ _ => True
  | _ => False

/-- A call inserts or it sweeps and then, if it is a login, restarts the idle time of the
session it found. -/
theorem next_cases {state after : TimedStore} {call : StoreCall}
    (hnext : next state call = some after) :
    state.clock ≤ call.time ∧ call.time ≤ after.clock ∧
    ((∃ token session, call.operation = .insert token session ∧
        state.store.authTokens.find? token = none ∧ after = ⟨call.time, { state.store with
          authTokens := state.store.authTokens.emplace token
            { session with lastUpdated := call.time } }⟩) ∨
      (∃ token, call.operation = .loginSessionByToken token after.clock ∧
        after.store = (state.store.loginSessionByToken ⟨call.time, after.clock⟩ token).2) ∨
      (¬ call.operation.Inserts ∧
        (∀ token touch, call.operation ≠ .loginSessionByToken token touch) ∧
        after = ⟨call.time, state.store.applySessionTimeouts call.time⟩)) := by
  rw [next] at hnext
  by_cases hback : call.time < state.clock
  · rw [if_pos hback] at hnext
    cases hnext
  · rw [if_neg hback] at hnext
    apply And.intro (not_lt.mp hback)
    cases hoperation : call.operation with
    | insert token session =>
        simp only [hoperation, insert?] at hnext
        by_cases hheld : state.store.authTokens.contains token = true
        · rw [if_pos hheld] at hnext
          cases hnext
        · rw [if_neg hheld] at hnext
          cases hnext
          have hfree : state.store.authTokens.find? token = none := by
            simpa [OrderedMap.contains] using hheld
          exact ⟨le_refl _, .inl ⟨token, session, rfl, hfree, rfl⟩⟩
    | loginSessionByToken token touch =>
        simp only [hoperation] at hnext
        by_cases hearly : touch < call.time
        · rw [if_pos hearly] at hnext
          cases hnext
        · rw [if_neg hearly] at hnext
          cases hnext
          exact ⟨not_lt.mp hearly, .inr (.inl ⟨token, rfl, rfl⟩)⟩
    | getSessionByUid uid =>
        simp only [hoperation] at hnext
        cases hnext
        exact ⟨le_refl _, .inr (.inr ⟨id, by simp, rfl⟩)⟩
    | getUniqueIds getAll type =>
        simp only [hoperation] at hnext
        cases hnext
        exact ⟨le_refl _, .inr (.inr ⟨id, by simp, rfl⟩)⟩
    | applySessionTimeouts =>
        simp only [hoperation] at hnext
        cases hnext
        exact ⟨le_refl _, .inr (.inr ⟨id, by simp, rfl⟩)⟩

theorem kept_applySessionTimeouts (timeNow : ℤ) (store : SessionStore) :
    Kept store (store.applySessionTimeouts timeNow) :=
  fun _ session hfound => ⟨session, session.lastUpdated, find?_of_swept hfound, rfl⟩

/-- A call that does not insert adds no token. -/
theorem kept_next {state after : TimedStore} {call : StoreCall}
    (hnext : next state call = some after) (hoperation : ¬ call.operation.Inserts) :
    Kept state.store after.store := by
  obtain ⟨-, -, ⟨token, session, hinsert, -⟩ | ⟨token, -, hstore⟩ | ⟨-, -, rfl⟩⟩ :=
    next_cases hnext
  · rw [hinsert] at hoperation
    exact absurd trivial hoperation
  · rw [hstore]
    exact kept_loginSessionByToken _ token state.store
  · exact kept_applySessionTimeouts _ state.store

/-- What holds of every store a run reaches: at the last sweep no session had been idle
for the timeout. -/
structure SweptInTime (timeout : Int64) (state : TimedStore) : Prop where
  timeoutInSeconds : state.store.timeoutInSeconds = timeout
  swept : state.store.lastTimeoutUpdate ≤ state.clock
  fresh : ∀ token session, state.store.authTokens.find? token = some session →
    state.store.lastTimeoutUpdate - session.lastUpdated < state.store.timeoutInNanoseconds

theorem loginSessionByToken_lastTimeoutUpdate (clock : LoginClock) (token : String)
    (store : SessionStore) :
    (store.loginSessionByToken clock token).2.lastTimeoutUpdate =
        (store.applySessionTimeouts clock.sweep).lastTimeoutUpdate ∧
      (store.loginSessionByToken clock token).2.timeoutInSeconds = store.timeoutInSeconds := by
  simp only [loginSessionByToken]
  split_ifs
  · exact ⟨rfl, by simp⟩
  · cases (store.applySessionTimeouts clock.sweep).authTokens.find? token <;> exact ⟨rfl, by simp⟩

/-- A sweep, due or not, leaves a stamp that is at most the throttle behind. -/
theorem applySessionTimeouts_lastTimeoutUpdate (timeNow : ℤ) {store : SessionStore}
    (hstamp : store.lastTimeoutUpdate ≤ timeNow) :
    (store.applySessionTimeouts timeNow).lastTimeoutUpdate ≤ timeNow ∧
      timeNow - (store.applySessionTimeouts timeNow).lastTimeoutUpdate ≤ nanosecondsPerSecond := by
  rw [applySessionTimeouts]
  by_cases hdue : store.sweepDue timeNow = true
  · rw [if_pos hdue]
    simp [nanosecondsPerSecond]
  · rw [if_neg hdue]
    refine ⟨hstamp, ?_⟩
    simpa [sweepDue] using hdue

/-- What a sweep leaves was not idle for the timeout at the stamp it leaves. -/
theorem fresh_applySessionTimeouts {timeNow : ℤ} {store : SessionStore}
    (hfresh : ∀ token session, store.authTokens.find? token = some session →
      store.lastTimeoutUpdate - session.lastUpdated < store.timeoutInNanoseconds)
    {token : String} {session : UserSession}
    (hfound : (store.applySessionTimeouts timeNow).authTokens.find? token = some session) :
    (store.applySessionTimeouts timeNow).lastTimeoutUpdate - session.lastUpdated <
      store.timeoutInNanoseconds := by
  rw [find?_applySessionTimeouts] at hfound
  rw [applySessionTimeouts]
  by_cases hdue : store.sweepDue timeNow = true
  · rw [if_pos hdue] at hfound ⊢
    have hkept := (Option.filter_eq_some_iff.mp hfound).2
    simpa [expired] using hkept
  · rw [if_neg hdue] at hfound ⊢
    exact hfresh token session hfound

section Bounds

variable {timeout : Int64}

/-- A positive timeout that does not overflow is what the comparison converts it to. -/
theorem timeoutInNanoseconds_eq {store : SessionStore} (hpositive : 0 < timeout.toInt)
    (hsmall : timeout.toInt * nanosecondsPerSecond < 2 ^ 63)
    (htimeout : store.timeoutInSeconds = timeout) :
    store.timeoutInNanoseconds = timeout.toInt * nanosecondsPerSecond := by
  have hfactor : (1000000000 : Int64).toInt = nanosecondsPerSecond := by decide
  rw [timeoutInNanoseconds, htimeout, Int64.toInt_mul, hfactor]
  rw [nanosecondsPerSecond] at hsmall ⊢
  apply Int.bmod_eq_of_le <;> omega

theorem sweptInTime_next (hpositive : 0 < timeout.toInt)
    (hsmall : timeout.toInt * nanosecondsPerSecond < 2 ^ 63) {state after : TimedStore}
    {call : StoreCall} (hswept : SweptInTime timeout state)
    (hnext : next state call = some after) : SweptInTime timeout after := by
  have hlimit := timeoutInNanoseconds_eq hpositive hsmall hswept.timeoutInSeconds
  have hstays : 0 < state.store.timeoutInNanoseconds := by
    rw [hlimit, nanosecondsPerSecond]
    omega
  obtain ⟨hclock, hafter, hcases⟩ := next_cases hnext
  have hstamp := hswept.swept.trans hclock
  have hthrottle := applySessionTimeouts_lastTimeoutUpdate call.time hstamp
  rcases hcases with ⟨token, session, -, hfree, rfl⟩ | ⟨token, -, hstore⟩ | ⟨-, -, rfl⟩
  · constructor
    · exact hswept.timeoutInSeconds
    · exact hstamp
    · intro wanted found hfound
      show state.store.lastTimeoutUpdate - found.lastUpdated < state.store.timeoutInNanoseconds
      simp only [OrderedMap.find?_emplace, hfree, Option.getD_none] at hfound
      by_cases hwanted : wanted = token
      · rw [if_pos hwanted] at hfound
        cases hfound
        show state.store.lastTimeoutUpdate - call.time < state.store.timeoutInNanoseconds
        omega
      · rw [if_neg hwanted] at hfound
        exact hswept.fresh wanted found hfound
  · obtain ⟨hupdated, hseconds⟩ :=
      loginSessionByToken_lastTimeoutUpdate ⟨call.time, after.clock⟩ token state.store
    constructor
    · rw [hstore, hseconds]
      exact hswept.timeoutInSeconds
    · rw [hstore, hupdated]
      exact hthrottle.1.trans hafter
    · intro wanted found hfound
      have hsame : after.store.timeoutInNanoseconds = state.store.timeoutInNanoseconds := by
        rw [timeoutInNanoseconds, timeoutInNanoseconds, hstore, hseconds]
      rw [hsame, hstore, hupdated]
      rw [hstore, find?_loginSessionByToken] at hfound
      by_cases htouched : wanted = token ∧ token.utf8ByteSize = sessionTokenSize
      · rw [if_pos htouched, Option.map_eq_some_iff] at hfound
        obtain ⟨stored, -, rfl⟩ := hfound
        have hbefore : (state.store.applySessionTimeouts call.time).lastTimeoutUpdate ≤
            after.clock := hthrottle.1.trans hafter
        apply lt_of_le_of_lt _ hstays
        exact sub_nonpos_of_le hbefore
      · rw [if_neg htouched] at hfound
        exact fresh_applySessionTimeouts hswept.fresh hfound
  · constructor
    · rw [applySessionTimeouts_timeoutInSeconds]
      exact hswept.timeoutInSeconds
    · exact hthrottle.1
    · intro wanted found hfound
      have hsame : (state.store.applySessionTimeouts call.time).timeoutInNanoseconds =
          state.store.timeoutInNanoseconds := by
        rw [timeoutInNanoseconds, timeoutInNanoseconds, applySessionTimeouts_timeoutInSeconds]
      show (state.store.applySessionTimeouts call.time).lastTimeoutUpdate - _ < _
      rw [hsame]
      exact fresh_applySessionTimeouts hswept.fresh hfound

theorem sweptInTime_of_reachable (hpositive : 0 < timeout.toInt)
    (hsmall : timeout.toInt * nanosecondsPerSecond < 2 ^ 63) {state : TimedStore}
    (hreach : (machine timeout).Reachable state) : SweptInTime timeout state := by
  have hinvariant : (machine timeout).Invariant (SweptInTime timeout) := by
    constructor
    · rintro state rfl
      exact ⟨rfl, le_refl _, by simp⟩
    · exact fun hswept hstep => sweptInTime_next hpositive hsmall hswept hstep
  exact hinvariant.of_reachable hreach

/-- A session a login returns had been idle for less than the timeout and the throttle. -/
theorem idle_of_login (hpositive : 0 < timeout.toInt)
    (hsmall : timeout.toInt * nanosecondsPerSecond < 2 ^ 63) {state : TimedStore}
    (hswept : SweptInTime timeout state) {clock : LoginClock} (hclock : state.clock ≤ clock.sweep)
    {token : String} {session : UserSession}
    (hlogin : (state.store.loginSessionByToken clock token).1 = some session) :
    ∃ stored, state.store.authTokens.find? token = some stored ∧
      clock.sweep - stored.lastUpdated <
        timeout.toInt * nanosecondsPerSecond + nanosecondsPerSecond := by
  obtain ⟨-, stored, hstored, -⟩ := loginSessionByToken_eq_some_iff.mp hlogin
  refine ⟨stored, find?_of_swept hstored, ?_⟩
  have hfresh := fresh_applySessionTimeouts hswept.fresh hstored
  have hthrottle := (applySessionTimeouts_lastTimeoutUpdate clock.sweep
    (hswept.swept.trans hclock)).2
  rw [timeoutInNanoseconds_eq hpositive hsmall hswept.timeoutInSeconds] at hfresh
  omega

/-- When the session of a token was last used, after a call. -/
def usedAt (token : String) (last : ℤ) (call : StoreCall) : ℤ :=
  match call.operation with
  | .loginSessionByToken presented touch =>
      if presented = token ∧ token.utf8ByteSize = sessionTokenSize then touch else last
  | _ => last

/-- When the session of a token was last used, after some calls. -/
def lastUse (token : String) (start : ℤ) (calls : List StoreCall) : ℤ :=
  calls.foldl (usedAt token) start

/-- At every call the session of a token has been idle for less than the limit. -/
def StaysFresh (limit : ℤ) (token : String) (start : ℤ) (calls : List StoreCall) : Prop :=
  ∀ before call after, calls = before ++ call :: after →
    call.time - lastUse token start before < limit

theorem StaysFresh.before {limit : ℤ} {token : String} {start : ℤ} {calls : List StoreCall}
    {call : StoreCall} (hfresh : StaysFresh limit token start (calls ++ [call])) :
    StaysFresh limit token start calls := by
  intro before earlier after hsplit
  apply hfresh before earlier (after ++ [call])
  rw [hsplit, List.append_assoc, List.cons_append]

/-- A sweep keeps a session that has not been idle for the timeout. -/
theorem find?_applySessionTimeouts_of_fresh {timeNow : ℤ} {store : SessionStore} {token : String}
    {session : UserSession} (hfound : store.authTokens.find? token = some session)
    (hfresh : timeNow - session.lastUpdated < store.timeoutInNanoseconds) :
    (store.applySessionTimeouts timeNow).authTokens.find? token = some session := by
  rw [find?_applySessionTimeouts, hfound]
  have hkept : store.expired timeNow session = false := by simpa [expired] using hfresh
  split_ifs
  · rw [Option.filter_some, hkept]
    rfl
  · rfl

/-- A call keeps the session of a token that has not been idle for the timeout. -/
theorem held_next {state after : TimedStore} {call : StoreCall} {token : String}
    {session : UserSession} (hnext : next state call = some after)
    (hfound : state.store.authTokens.find? token = some session)
    (hfresh : call.time - session.lastUpdated < state.store.timeoutInNanoseconds) :
    after.store.authTokens.find? token =
      some { session with lastUpdated := usedAt token session.lastUpdated call } := by
  have hswept := find?_applySessionTimeouts_of_fresh hfound hfresh
  obtain ⟨-, -, ⟨inserted, new, hoperation, hfree, rfl⟩ | ⟨presented, hoperation, hstore⟩ |
    ⟨hnone, hother, rfl⟩⟩ := next_cases hnext
  · have hother : token ≠ inserted := by
      intro hsame
      rw [hsame, hfree] at hfound
      cases hfound
    simp [usedAt, hoperation, hother, hfound]
  · rw [hstore, find?_loginSessionByToken, usedAt, hoperation]
    by_cases hsame : presented = token
    · subst hsame
      by_cases hsize : presented.utf8ByteSize = sessionTokenSize
      · simp [hsize, hswept]
      · simp [hsize, hswept]
    · have hunlike : ¬ token = presented := fun heq => hsame heq.symm
      simp [hsame, hunlike, hswept]
  · have hlast : usedAt token session.lastUpdated call = session.lastUpdated := by
      rw [usedAt]
      cases hoperation : call.operation with
      | loginSessionByToken presented touch => exact absurd hoperation (hother presented touch)
      | insert inserted new => rfl
      | getSessionByUid uid => rfl
      | getUniqueIds getAll type => rfl
      | applySessionTimeouts => rfl
    rw [hlast]
    exact hswept

/-- A session that is never idle for the timeout stays. -/
theorem held_of_run (hpositive : 0 < timeout.toInt)
    (hsmall : timeout.toInt * nanosecondsPerSecond < 2 ^ 63) {first last : TimedStore}
    {calls : List StoreCall} (hrun : (machine timeout).Run first calls last)
    (hswept : SweptInTime timeout first) {token : String} {session : UserSession}
    (hfound : first.store.authTokens.find? token = some session)
    (hfresh : StaysFresh (timeout.toInt * nanosecondsPerSecond) token session.lastUpdated calls) :
    SweptInTime timeout last ∧ last.store.authTokens.find? token =
      some { session with lastUpdated := lastUse token session.lastUpdated calls } := by
  induction hrun with
  | refl => exact ⟨hswept, hfound⟩
  | @extend middle after calls call prior taken ih =>
      obtain ⟨hmiddle, hheld⟩ := ih hfresh.before
      have hidle := hfresh calls call [] rfl
      rw [← timeoutInNanoseconds_eq hpositive hsmall hmiddle.timeoutInSeconds] at hidle
      refine ⟨sweptInTime_next hpositive hsmall hmiddle taken, ?_⟩
      rw [held_next taken hheld hidle, lastUse, lastUse, List.foldl_append]
      rfl

/-- A login finds a session of a token of the right length that is not idle for the
timeout. -/
theorem login_of_fresh {clock : LoginClock} {store : SessionStore} {token : String}
    {session : UserSession} (hfound : store.authTokens.find? token = some session)
    (hfresh : clock.sweep - session.lastUpdated < store.timeoutInNanoseconds)
    (hsize : token.utf8ByteSize = sessionTokenSize) :
    (store.loginSessionByToken clock token).1 = some { session with lastUpdated := clock.touch } :=
  loginSessionByToken_eq_some_iff.mpr
    ⟨hsize, session, find?_applySessionTimeouts_of_fresh hfound hfresh, rfl⟩

/-- Over every run with a fixed timeout that does not overflow, a login returns only
sessions that were idle for less than the timeout and the throttle of the sweep; a session
that since its insertion has been idle for less than the timeout at every call is still
held, and found by a token of the right length; and only insertions add a token. -/
theorem expiry_bounded (timeout : Int64) (hpositive : 0 < timeout.toInt)
    (hsmall : timeout.toInt * nanosecondsPerSecond < 2 ^ 63) :
    (∀ state, (machine timeout).Reachable state → ∀ (clock : LoginClock) (token : String)
      (session : UserSession), state.clock ≤ clock.sweep →
      (state.store.loginSessionByToken clock token).1 = some session →
        ∃ stored, state.store.authTokens.find? token = some stored ∧
          clock.sweep - stored.lastUpdated <
            timeout.toInt * nanosecondsPerSecond + nanosecondsPerSecond) ∧
    (∀ state inserted last token session timeNow calls, (machine timeout).Reachable state →
      (machine timeout).step state ⟨timeNow, .insert token session⟩ inserted →
      (machine timeout).Run inserted calls last →
      StaysFresh (timeout.toInt * nanosecondsPerSecond) token timeNow calls →
        last.store.authTokens.find? token =
            some { session with lastUpdated := lastUse token timeNow calls } ∧
        ∀ clock : LoginClock,
          clock.sweep - lastUse token timeNow calls < timeout.toInt * nanosecondsPerSecond →
          token.utf8ByteSize = sessionTokenSize →
          (last.store.loginSessionByToken clock token).1 =
            some { session with lastUpdated := clock.touch }) ∧
    (∀ state call after, (machine timeout).step state call after → ¬ call.operation.Inserts →
      ∀ token, after.store.authTokens.contains token = true →
        state.store.authTokens.contains token = true) := by
  constructor
  · intro state hreach clock token session hclock hlogin
    have hswept := sweptInTime_of_reachable hpositive hsmall hreach
    exact idle_of_login hpositive hsmall hswept hclock hlogin
  constructor
  · intro state inserted last token session timeNow calls hreach hstep hrun hfresh
    have hinserted : inserted.store.authTokens.find? token =
        some { session with lastUpdated := timeNow } := by
      obtain ⟨-, -, ⟨other, new, hoperation, hfree, rfl⟩ | ⟨other, hoperation, -⟩ |
        ⟨hnone, -, -⟩⟩ := next_cases hstep
      · cases hoperation
        simp [hfree]
      · cases hoperation
      · exact absurd trivial hnone
    have hswept := sweptInTime_of_reachable hpositive hsmall (hreach.next hstep)
    obtain ⟨hlast, hheld⟩ := held_of_run hpositive hsmall hrun hswept hinserted hfresh
    refine ⟨hheld, fun clock hidle hsize => ?_⟩
    apply login_of_fresh hheld _ hsize
    rw [timeoutInNanoseconds_eq hpositive hsmall hlast.timeoutInSeconds]
    exact hidle
  · intro state call after hstep hoperation token hafter
    obtain ⟨session, hsession⟩ := OrderedMap.contains_eq_true_iff.mp hafter
    obtain ⟨stored, time, hstored, -⟩ := kept_next hstep hoperation token session hsession
    exact OrderedMap.contains_eq_true_iff.mpr ⟨stored, hstored⟩

end Bounds

/-- A store with one session of an hour, used at 5 s and swept at a given time. -/
def storeSweptAt (stamp : ℤ) : SessionStore where
  timeoutInSeconds := 3600
  lastTimeoutUpdate := stamp
  authTokens := OrderedMap.empty.emplace "abcdefghijklmnopqrst"
    { uniqueId := "1", lastUpdated := 5000000000 }

/-- A session inserted at 5 s survives the sweep at 3604 s, and a login at 3605 s, which
makes no sweep, returns it after its whole hour. -/
theorem expiry_bounded_throttled :
    let token := "abcdefghijklmnopqrst"
    let store := storeSweptAt 3604000000000
    (∃ session, store.authTokens.find? token = some session) ∧
    (∃ found, (store.loginSessionByToken ⟨3605000000000, 3605000000000⟩ token).1 = some found) ∧
    (∃ stored, store.authTokens.find? token = some stored ∧
      (3605000000000 : ℤ) - stored.lastUpdated <
        (3600 : Int64).toInt * nanosecondsPerSecond + nanosecondsPerSecond) ∧
    ¬ store.authTokens.contains "other" = true := by
  intro token store
  have hbounds := expiry_bounded 3600 (by decide) (by decide)
  have hstart : (machine 3600).Reachable ⟨0, { timeoutInSeconds := 3600 }⟩ := .start rfl
  have hinsert : (machine 3600).step ⟨0, { timeoutInSeconds := 3600 }⟩
      ⟨5000000000, .insert "abcdefghijklmnopqrst" { uniqueId := "1" }⟩
      ⟨5000000000, storeSweptAt 0⟩ := by rfl
  have hsweep : (machine 3600).step ⟨5000000000, storeSweptAt 0⟩
      ⟨3604000000000, .applySessionTimeouts⟩ ⟨3604000000000, storeSweptAt 3604000000000⟩ := by rfl
  have hlogin : ((storeSweptAt 3604000000000).loginSessionByToken
      ⟨3605000000000, 3605000000000⟩ "abcdefghijklmnopqrst").1 =
        some { uniqueId := "1", lastUpdated := 3605000000000 } := by rfl
  have hfresh : StaysFresh ((3600 : Int64).toInt * nanosecondsPerSecond) token 5000000000
      [⟨3604000000000, .applySessionTimeouts⟩] := by
    intro before call after hsplit
    cases before with
    | nil =>
        cases hsplit
        decide
    | cons head rest => simp at hsplit
  have hrun := (Machine.Run.refl (M := machine 3600) ⟨5000000000, storeSweptAt 0⟩).extend hsweep
  have hheld := (hbounds.2.1 _ _ _ token _ 5000000000 _ hstart hinsert hrun hfresh).1
  refine ⟨⟨_, hheld⟩, ⟨_, hlogin⟩, ?_, ?_⟩
  · exact hbounds.1 _ ((hstart.next hinsert).next hsweep) _ token _
      (show (3604000000000 : ℤ) ≤ 3605000000000 by norm_num) hlogin
  · intro hother
    have hbefore := hbounds.2.2 _ _ _ hsweep id "other" hother
    revert hbefore
    decide

end SessionStore

end ObmcWebapp.Service
