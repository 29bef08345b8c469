/-
# The range of the session timeout

The timeout of the session file is any JSON integer. Its bits are read as signed seconds,
and the sweep compares the idle time with them in 64 bit nanoseconds, so that the limit is
the number of nanoseconds wrapped to 64 bits. It is the timeout the file states exactly
when that number is not wrapped.
-/

import ObmcWebapp.Service.Persistence
import ObmcWebapp.Service.StoreRuns

namespace ObmcWebapp.Service

open ObmcWebapp.Core

/-- The number a JSON integer denotes. -/
def integer? : Json → Option ℤ
  | .numberInteger value => some value.toInt
  | .numberUnsigned value => some value.toNat
  | _ => none

/-- An integer is read with its bits. -/
theorem getInt64?_of_integer? {number : Json} {seconds : ℤ} (hinteger : integer? number = some seconds) :
    ∃ timeout, number.getInt64? = some timeout ∧ timeout.toInt = seconds.bmod (2 ^ 64) := by
  cases number with
  | numberInteger value =>
      cases hinteger
      exact ⟨value, rfl, value.toInt_bmod.symm⟩
  | numberUnsigned value =>
      cases hinteger
      refine ⟨value.toInt64, rfl, ?_⟩
      show value.toBitVec.toInt = _
      rw [BitVec.toInt_eq_toNat_bmod]
      rfl
  | null => cases hinteger
  | boolean value => cases hinteger
  | numberFloat value => cases hinteger
  | string value => cases hinteger
  | array items => cases hinteger
  | object members => cases hinteger

namespace SessionStore

/-- The limit of a store that was given a JSON integer. -/
theorem timeoutInNanoseconds_of_integer? {number : Json} {seconds : ℤ} {store : SessionStore}
    (hinteger : integer? number = some seconds)
    (htimeout : some store.timeoutInSeconds = number.getInt64?) :
    store.timeoutInNanoseconds = (seconds * nanosecondsPerSecond).bmod (2 ^ 64) := by
  obtain ⟨timeout, hbits, hvalue⟩ := getInt64?_of_integer? hinteger
  have hsame : store.timeoutInSeconds = timeout := Option.some.inj (htimeout.trans hbits)
  have hfactor : (1000000000 : Int64).toInt = nanosecondsPerSecond := by decide
  rw [timeoutInNanoseconds, hsame, Int64.toInt_mul, hfactor, hvalue, Int.bmod_mul_bmod]

end SessionStore

namespace ConfigFile

/-- The document of the file is an object with this timeout. The members of an object are
in key order. -/
def SuppliesTimeout (reading : Reading) (number : Json) : Prop :=
  ∃ members, reading.file = .parsed (.object members) ∧ Entries.Sorted members ∧
    members.lookup keyTimeout = some number

/-- A timeout that is an integer is taken over, also when the read throws. -/
theorem SuppliesTimeout.taken {reading : Reading} {number : Json} {seconds : ℤ}
    (hsupplies : SuppliesTimeout reading number) (hinteger : integer? number = some seconds)
    (state : ConfigState) :
    Fallible.Leaves (fun after : ConfigState => some after.store.timeoutInSeconds = number.getInt64?)
      (readData reading state) := by
  obtain ⟨members, hfile, hsorted, htimeout⟩ := hsupplies
  obtain ⟨timeout, hbits, -⟩ := getInt64?_of_integer? hinteger
  have hread := readAllOf_timeoutInSeconds .configCurrentBmcSession reading.now hsorted state
  rw [readItemOf_configCurrentBmcSession, htimeout, Option.bind_some, hbits, Option.getD_some]
    at hread
  simp only [readData, hfile, itemsOf, Json.items]
  split_ifs
  · rw [hbits]
    exact congrArg some hread
  · rw [hbits]
    exact congrArg some hread

/-- After a read of the timeout, no sweep erases a session that was idle for less than that
many seconds. Idle times are 64 bit nanoseconds. -/
def KeepsFresh (number : Json) (seconds : ℤ) : Prop :=
  ∀ reading state, SuppliesTimeout reading number →
    Fallible.Leaves (fun after : ConfigState => ∀ timeNow token session,
      after.store.authTokens.find? token = some session →
      -2 ^ 63 ≤ timeNow - session.lastUpdated → timeNow - session.lastUpdated < 2 ^ 63 →
      timeNow - session.lastUpdated < seconds * SessionStore.nanosecondsPerSecond →
      (after.store.applySessionTimeouts timeNow).authTokens.find? token = some session)
      (readData reading state)

/-- A file with a timeout and nothing else. -/
def timeoutFile (number : Json) : Reading := ⟨0, .parsed (.object [(keyTimeout, number)])⟩

/-- A session that is idle, in a store whose sweep is due. -/
def idleStore (idle : ℤ) : SessionStore where
  authTokens := OrderedMap.ofList [("token", { lastUpdated := -idle })]
  lastTimeoutUpdate := -2 * SessionStore.nanosecondsPerSecond

/-- A timeout keeps fresh sessions exactly when what is below it is below the limit. -/
theorem keepsFresh_iff_limit {number : Json} {seconds : ℤ}
    (hinteger : integer? number = some seconds) :
    KeepsFresh number seconds ↔
      ∀ idle : ℤ, -2 ^ 63 ≤ idle → idle < 2 ^ 63 →
        idle < seconds * SessionStore.nanosecondsPerSecond →
        idle < (seconds * SessionStore.nanosecondsPerSecond).bmod (2 ^ 64) := by
  constructor
  · intro hkeeps idle hlow hhigh hidle
    have hsupplies : SuppliesTimeout (timeoutFile number) number :=
      ⟨_, rfl, List.pairwise_singleton _ _, rfl⟩
    have htaken := hsupplies.taken hinteger ⟨"uuid", idleStore idle⟩
    have hkept := hkeeps _ ⟨"uuid", idleStore idle⟩ hsupplies
    obtain ⟨timeout, hbits, -⟩ := getInt64?_of_integer? hinteger
    have hread : readData (timeoutFile number) ⟨"uuid", idleStore idle⟩ =
        .ok ⟨⟩ ⟨"uuid", (idleStore idle).updateSessionTimeout timeout⟩ := by
      simp [readData, timeoutFile, itemsOf, Json.items, readItem, hbits, keyRevision,
        keySystemUUID, keyAuthConfig, keySessions, keyTimeout]
    rw [hread] at htaken hkept
    have hfound := hkept 0 "token" { lastUpdated := -idle } rfl
    rw [zero_sub, neg_neg] at hfound
    have hswept := hfound hlow hhigh hidle
    have hdue : ((idleStore idle).updateSessionTimeout timeout).sweepDue 0 = true := by
      show decide (0 - -2 * SessionStore.nanosecondsPerSecond >
        SessionStore.nanosecondsPerSecond) = true
      decide
    rw [SessionStore.find?_applySessionTimeouts, if_pos hdue, Option.filter_eq_some_iff] at hswept
    have hnot := hswept.2
    rw [SessionStore.expired, SessionStore.timeoutInNanoseconds_of_integer? hinteger htaken,
      zero_sub, neg_neg] at hnot
    simpa using hnot
  · intro hlimit reading state hsupplies
    apply (hsupplies.taken hinteger state).imp
    intro after htaken timeNow token session hfound hlow hhigh hidle
    have hkept : after.store.expired timeNow session = false := by
      rw [SessionStore.expired, SessionStore.timeoutInNanoseconds_of_integer? hinteger htaken]
      exact decide_eq_false (not_le.mpr (hlimit _ hlow hhigh hidle))
    rw [SessionStore.find?_applySessionTimeouts, hfound]
    split_ifs
    · simp [hkept]
    · rfl

/-- A positive limit is above every idle time below it exactly when it is not wrapped. -/
theorem below_bmod_iff {limit : ℤ} (hpositive : 0 < limit) :
    (∀ idle : ℤ, -2 ^ 63 ≤ idle → idle < 2 ^ 63 → idle < limit → idle < limit.bmod (2 ^ 64)) ↔
      limit < 2 ^ 63 := by
  constructor
  · intro hbelow
    by_contra hlarge
    -- the longest idle time that 64 bits hold
    have hlongest := hbelow (2 ^ 63 - 1) (by norm_num) (by norm_num) (by omega)
    have hwrapped : limit.bmod (2 ^ 64) < (2 ^ 64 + 1) / 2 := Int.bmod_lt (by norm_num)
    omega
  · intro hsmall idle _ _ hidle
    have hsame : limit.bmod (2 ^ 64) = limit := by
      apply Int.bmod_eq_of_le <;> omega
    rwa [hsame]

/-- A positive timeout keeps fresh sessions exactly when its nanoseconds fit in 64 bits. -/
theorem keepsFresh_iff_fits {number : Json} {seconds : ℤ}
    (hinteger : integer? number = some seconds) (hpositive : 0 < seconds) :
    KeepsFresh number seconds ↔ seconds * SessionStore.nanosecondsPerSecond < 2 ^ 63 := by
  have hlimit : 0 < seconds * SessionStore.nanosecondsPerSecond :=
    mul_pos hpositive (by decide)
  rw [keepsFresh_iff_limit hinteger, below_bmod_iff hlimit]

/-- The default timeout of an hour, as a file gives it. -/
theorem keepsFresh_iff_fits_hour : KeepsFresh (.numberUnsigned 3600) 3600 := by
  have hiff := keepsFresh_iff_fits (show integer? (.numberUnsigned 3600) = some 3600 from rfl)
    (by norm_num)
  exact hiff.mpr (by decide)

/-- A timeout of 317 years erases a session that was used just now. -/
theorem long_timeout_erases : ¬ KeepsFresh (.numberUnsigned 10000000000) 10000000000 := by
  rw [keepsFresh_iff_limit rfl]
  intro hlimit
  have hnow := hlimit 0 (by norm_num) (by norm_num) (by decide)
  revert hnow
  decide

end ConfigFile

end ObmcWebapp.Service
