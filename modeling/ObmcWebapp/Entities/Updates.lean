/-
# Updates of an instance

After its construction an instance is filled again whenever a signal reports changed
properties, and rules set further members in between. The fields are determined by the
history of these updates: what a member shows was given by the last update that gives it
anything.

For a query whose properties have distinct members, an update gives a mapped member
something exactly when it carries the property of that member on its interface. So the
last call that carried the property decides, whatever else was carried before or after.
-/

import ObmcWebapp.Entities.Creation

namespace ObmcWebapp.Entities

open ObmcWebapp.Core definitions

/-- A change of an instance after its construction. -/
inductive Update
  | fillMembers (interface : InterfaceName) (properties : DBusPropertiesMap)
  | supplementOrUpdate (member : MemberName) (value : FieldType)

namespace Update

/-- The value an update carries for a property of an interface. -/
def carried? (interface : InterfaceName) (property : PropertyName) : Update → Option DbusVariant
  | fillMembers reported properties =>
      if reported = interface then properties.find? property else none
  | supplementOrUpdate _ _ => none

/-- The field an update gives to a member. -/
def given? (query : DBusQuery) (member : MemberName) : Update → Option FieldType
  | fillMembers interface properties => query.delivered? interface properties member
  | supplementOrUpdate updated value => if member = updated then some value else none

/-- The formatters of a property, each applied to what the one before it made of the value. -/
def formatAll (query : DBusQuery) (property : PropertyName) (value : DbusVariant) :
    Except Exception DbusVariant :=
  ((query.formatters.find? property).getD []).foldlM
    (fun formatted (formatter : FormatterFn) => formatter.invoke property formatted) value

/-- The formatters make scalars of the carried values of the dictionary, and other updates
set members that neither the dictionary nor the constructor has. -/
def Accepted (query : DBusQuery) : Update → Prop
  | fillMembers interface properties => ∀ property member value,
      (query.getPropertyMemberDict interface).find? property = some member →
      properties.find? property = some value →
      ∃ formatted, formatAll query property value = .ok (.scalar formatted)
  | supplementOrUpdate member _ => member ∉ metaObjectPath :: metaObjectService :: query.members

/-- The value the last update that carried a property carried. -/
def lastCarried (interface : InterfaceName) (property : PropertyName) (updates : List Update) :
    Option DbusVariant :=
  updates.reverse.findSome? (carried? interface property)

/-- The field the last update that gave a member anything gave it. -/
def lastGiven (query : DBusQuery) (member : MemberName) (updates : List Update) :
    Option FieldType :=
  updates.reverse.findSome? (given? query member)

theorem lastCarried_append (interface : InterfaceName) (property : PropertyName)
    (before later : List Update) :
    lastCarried interface property (before ++ later) =
      (lastCarried interface property later).or (lastCarried interface property before) := by
  simp [lastCarried]

theorem lastGiven_append (query : DBusQuery) (member : MemberName) (before later : List Update) :
    lastGiven query member (before ++ later) =
      (lastGiven query member later).or (lastGiven query member before) := by
  simp [lastGiven]

section Given

variable {query : DBusQuery} (hdistinct : query.DistinctMembers)

include hdistinct

/-- An update gives a mapped member what its property is formatted to. -/
theorem given?_mapped {interface : InterfaceName} {property : PropertyName} {member : MemberName}
    (hentry : (query.getPropertyMemberDict interface).find? property = some member)
    {update : Update} (haccepted : update.Accepted query) :
    (update.carried? interface property = none → update.given? query member = none) ∧
    ∀ value, update.carried? interface property = some value →
      ∃ formatted, formatAll query property value = .ok (.scalar formatted) ∧
        update.given? query member = some formatted := by
  have hmem := OrderedMap.mem_entries_iff.mpr hentry
  cases update with
  | fillMembers reported properties =>
      rw [carried?, given?]
      by_cases hreported : reported = interface
      · subst hreported
        rw [if_pos rfl, hdistinct.delivered?_eq hentry, DBusQuery.scalar?]
        constructor
        · intro hnone
          rw [hnone]
        · intro value hvalue
          obtain ⟨formatted, hformat⟩ := haccepted property member value hentry hvalue
          refine ⟨formatted, hformat, ?_⟩
          have hprocess : query.processFormatters property value = .ok (.scalar formatted) :=
            (query.processFormatters_eq property value).trans hformat
          simp only [hvalue, hprocess]
      · rw [if_neg hreported]
        refine ⟨fun _ => ?_, fun value hnone => (Option.some_ne_none value hnone.symm).elim⟩
        -- only the property's own interface has an entry for the member
        apply Option.bind_eq_none_iff.mpr
        intro entry hfound
        have hmember : entry.2 = member := by simpa using List.find?_some hfound
        exact absurd (hdistinct.interface_eq (List.mem_of_find?_eq_some hfound) hmem hmember)
          hreported
  | supplementOrUpdate updated value =>
      refine ⟨fun _ => if_neg ?_, fun value hnone => (Option.some_ne_none value hnone.symm).elim⟩
      rintro rfl
      obtain ⟨dict, hdict, hin⟩ := DBusQuery.mem_entries_of_dict hmem
      have hmember : member ∈ query.members :=
        List.mem_flatMap.mpr ⟨(interface, dict), hdict, List.mem_map_of_mem hin⟩
      exact haccepted (List.mem_cons_of_mem _ (List.mem_cons_of_mem _ hmember))

/-- The members every instance is created with are given nothing. -/
theorem given?_meta {update : Update} (haccepted : update.Accepted query) :
    update.given? query metaObjectPath = none ∧
    update.given? query metaObjectService = none := by
  cases update with
  | fillMembers interface properties => exact hdistinct.delivered?_meta interface properties
  | supplementOrUpdate updated value =>
      constructor
      · apply if_neg
        rintro rfl
        exact haccepted List.mem_cons_self
      · apply if_neg
        rintro rfl
        exact haccepted (List.mem_cons_of_mem _ List.mem_cons_self)

variable {updates : List Update} (haccepted : ∀ update ∈ updates, update.Accepted query)

include haccepted

/-- The last update that carried the property of a member gave the member last. -/
theorem lastGiven_mapped {interface : InterfaceName} {property : PropertyName}
    {member : MemberName}
    (hentry : (query.getPropertyMemberDict interface).find? property = some member) :
    (lastCarried interface property updates = none → lastGiven query member updates = none) ∧
    ∀ value, lastCarried interface property updates = some value →
      ∃ formatted, formatAll query property value = .ok (.scalar formatted) ∧
        lastGiven query member updates = some formatted := by
  induction updates using List.reverseRecOn with
  | nil => exact ⟨fun _ => rfl, nofun⟩
  | append_singleton before last ih =>
      obtain ⟨hnone, hsome⟩ := ih fun update hmem => haccepted update (by simp [hmem])
      obtain ⟨hlastNone, hlastSome⟩ :=
        given?_mapped hdistinct hentry (haccepted last (by simp))
      rw [lastCarried_append, lastGiven_append]
      have hcarried : lastCarried interface property [last] = last.carried? interface property := by
        simp [lastCarried]
      have hgiven : lastGiven query member [last] = last.given? query member := by
        simp [lastGiven]
      rw [hcarried, hgiven]
      cases hlast : last.carried? interface property with
      | none =>
          rw [hlastNone hlast, Option.none_or, Option.none_or]
          exact ⟨hnone, hsome⟩
      | some carried =>
          obtain ⟨formatted, hformat, hfield⟩ := hlastSome carried hlast
          rw [hfield, Option.some_or, Option.some_or]
          refine ⟨nofun, ?_⟩
          rintro value ⟨⟩
          exact ⟨formatted, hformat, rfl⟩

theorem lastGiven_meta :
    lastGiven query metaObjectPath updates = none ∧
    lastGiven query metaObjectService updates = none := by
  constructor
  · apply List.findSome?_eq_none_iff.mpr
    intro update hmem
    exact (given?_meta hdistinct (haccepted update (List.mem_reverse.mp hmem))).1
  · apply List.findSome?_eq_none_iff.mpr
    intro update hmem
    exact (given?_meta hdistinct (haccepted update (List.mem_reverse.mp hmem))).2

end Given

end Update

namespace DBusInstance

variable [StdHash]

/-- Apply one update. -/
def update : Update → EStateM Exception DBusInstance PUnit
  | .fillMembers interface properties => fillMembers interface properties
  | .supplementOrUpdate member value => fun inst =>
      .ok ⟨⟩ { inst with toInstance := inst.toInstance.supplementOrUpdate member value }

/-- Apply updates one after the other. -/
def updateAll (updates : List Update) : EStateM Exception DBusInstance PUnit :=
  Fallible.forEach update updates

omit [StdHash] in
theorem find?_of_mem_dict {query : DBusQuery} {interface : InterfaceName}
    {entry : PropertyName × MemberName}
    (hentry : entry ∈ (query.getPropertyMemberDict interface).entries) :
    (query.getPropertyMemberDict interface).find? entry.1 = some entry.2 :=
  OrderedMap.mem_entries_iff.mp hentry

/-- Filling reads the properties of the dictionary only. -/
theorem fillMembers_congr {interface : InterfaceName} {properties other : DBusPropertiesMap}
    {inst : DBusInstance}
    (hagree : ∀ property member,
      (inst.dbusQuery.getPropertyMemberDict interface).find? property = some member →
      properties.find? property = other.find? property) :
    fillMembers interface properties inst = fillMembers interface other inst := by
  have hwalk : Fallible.forEach (fillMember properties)
      (inst.dbusQuery.getPropertyMemberDict interface).entries =
        Fallible.forEach (fillMember other)
          (inst.dbusQuery.getPropertyMemberDict interface).entries := by
    apply Fallible.forEach_congr
    intro entry hentry
    funext state
    rw [fillMember, fillMember, hagree _ _ (find?_of_mem_dict hentry)]
  rw [fillMembers, fillMembers, hwalk]

/-- A call that carries nothing of the dictionary changes nothing. -/
theorem fillMembers_idle {interface : InterfaceName} {properties : DBusPropertiesMap}
    {inst : DBusInstance}
    (habsent : ∀ property member,
      (inst.dbusQuery.getPropertyMemberDict interface).find? property = some member →
      properties.find? property = none) :
    fillMembers interface properties inst = .ok ⟨⟩ inst := by
  rw [fillMembers]
  apply Fallible.forEach_idle
  intro entry hentry
  rw [fillMember, habsent _ _ (find?_of_mem_dict hentry)]

/-- Values that are formatted to scalars fill an instance. -/
theorem fillMembers_accepted {interface : InterfaceName} {properties : DBusPropertiesMap}
    {inst : DBusInstance}
    (haccepted : (Update.fillMembers interface properties).Accepted inst.dbusQuery) :
    ∃ after, fillMembers interface properties inst = .ok ⟨⟩ after := by
  have hentries : ∀ entries : List (PropertyName × MemberName),
      (∀ entry ∈ entries, entry ∈ (inst.dbusQuery.getPropertyMemberDict interface).entries) →
      ∀ state : DBusInstance, state.dbusQuery = inst.dbusQuery →
        ∃ after, Fallible.forEach (fillMember properties) entries state = .ok ⟨⟩ after := by
    intro entries
    induction entries with
    | nil => exact fun _ state _ => ⟨state, rfl⟩
    | cons entry entries ih =>
        intro hdict state hquery
        have hfirst : ∃ middle, fillMember properties entry state = .ok ⟨⟩ middle := by
          rw [fillMember]
          cases hfound : properties.find? entry.1 with
          | none => exact ⟨state, rfl⟩
          | some value =>
              obtain ⟨formatted, hformat⟩ := haccepted _ _ value
                (find?_of_mem_dict (hdict entry List.mem_cons_self)) hfound
              have hprocess := inst.dbusQuery.processFormatters_eq entry.1 value
              rw [← Update.formatAll, hformat] at hprocess
              rw [hquery]
              simp only [hprocess]
              exact ⟨_, rfl⟩
        obtain ⟨middle, hmiddle⟩ := hfirst
        rw [Fallible.forEach, Fallible.bind_ok hmiddle]
        apply ih (fun later hlater => hdict later (List.mem_cons_of_mem _ hlater))
        exact (find?_fillMember hmiddle).1.dbusQuery.trans hquery
  exact hentries _ (fun _ hentry => hentry) inst rfl

theorem update_accepted {change : Update} {inst : DBusInstance}
    (haccepted : change.Accepted inst.dbusQuery) : ∃ after, update change inst = .ok ⟨⟩ after := by
  cases change with
  | fillMembers interface properties => exact fillMembers_accepted haccepted
  | supplementOrUpdate member value => exact ⟨_, rfl⟩

/-- An update gives each member what it gives, and leaves the others. -/
theorem find?_update {change : Update} {inst after : DBusInstance}
    (hdistinct : inst.dbusQuery.DistinctMembers) (hupdate : update change inst = .ok ⟨⟩ after) :
    SameObject after.toInstance inst.toInstance ∧
    ∀ wanted, after.memberInstances.find? wanted =
      (change.given? inst.dbusQuery wanted).or (inst.memberInstances.find? wanted) := by
  cases change with
  | fillMembers interface properties => exact find?_fillMembers hdistinct hupdate
  | supplementOrUpdate member value =>
      cases hupdate
      refine ⟨⟨by simp, by simp, by simp⟩, fun wanted => ?_⟩
      rw [Instance.find?_supplementOrUpdate, Update.given?]
      split_ifs <;> rfl

/-- Accepted updates go through, and each member shows what it was given last. -/
theorem find?_updateAll {updates : List Update} {inst : DBusInstance}
    (hdistinct : inst.dbusQuery.DistinctMembers)
    (haccepted : ∀ change ∈ updates, change.Accepted inst.dbusQuery) :
    ∃ after, updateAll updates inst = .ok ⟨⟩ after ∧
      SameObject after.toInstance inst.toInstance ∧
      ∀ wanted, after.memberInstances.find? wanted =
        (Update.lastGiven inst.dbusQuery wanted updates).or
          (inst.memberInstances.find? wanted) := by
  induction updates generalizing inst with
  | nil => exact ⟨inst, rfl, ⟨rfl, rfl, rfl⟩, fun wanted => rfl⟩
  | cons change updates ih =>
      obtain ⟨middle, hfirst⟩ := update_accepted (haccepted change List.mem_cons_self)
      obtain ⟨hsame, hfields⟩ := find?_update hdistinct hfirst
      have hlater : ∀ later ∈ updates, later.Accepted middle.dbusQuery := by
        intro later hmem
        rw [hsame.dbusQuery]
        exact haccepted later (List.mem_cons_of_mem _ hmem)
      obtain ⟨after, hrest, hrestSame, hrestFields⟩ := ih (hsame.dbusQuery ▸ hdistinct) hlater
      refine ⟨after, ?_, hrestSame.trans hsame, fun wanted => ?_⟩
      · rw [updateAll, Fallible.forEach, Fallible.bind_ok hfirst]
        exact hrest
      · have hgiven : Update.lastGiven inst.dbusQuery wanted [change] =
            change.given? inst.dbusQuery wanted := by
          simp [Update.lastGiven]
        rw [hrestFields, hfields, hsame.dbusQuery, ← List.singleton_append,
          Update.lastGiven_append, hgiven, Option.or_assoc]

theorem updateAll_append (before later : List Update) :
    updateAll (before ++ later) = updateAll before >>= fun _ => updateAll later :=
  Fallible.forEach_append update before later

/-- No update removes a member. -/
theorem hasField_updateAll {updates : List Update} {inst after : DBusInstance}
    (hdistinct : inst.dbusQuery.DistinctMembers)
    (haccepted : ∀ change ∈ updates, change.Accepted inst.dbusQuery)
    (hupdate : updateAll updates inst = .ok ⟨⟩ after) {member : MemberName}
    (hfield : inst.hasField member = true) : after.hasField member = true := by
  obtain ⟨same, hsame, -, hfields⟩ := find?_updateAll hdistinct haccepted
  rw [hupdate] at hsame
  cases hsame
  rw [Instance.hasField, OrderedMap.contains] at hfield ⊢
  rw [hfields, Option.isSome_or, hfield, Bool.or_true]

omit [StdHash] in
/-- A member of the dictionary is absent at first. -/
theorem find?_create_mapped {query : DBusQuery} {interface : InterfaceName}
    {property : PropertyName} {member : MemberName} (hdistinct : query.DistinctMembers)
    (hentry : (query.getPropertyMemberDict interface).find? property = some member)
    {serviceName objectPath : String} :
    (create serviceName objectPath query).memberInstances.find? member = none := by
  obtain ⟨hpath, hservice⟩ := hdistinct.ne_meta (OrderedMap.mem_entries_iff.mpr hentry)
  simp [create, Instance.create, hpath, hservice]

/-- The last update wins. Whatever accepted updates an instance of a query with distinct
members receives, a mapped member shows what the formatters of its property, in order, made
of the value that was carried last, and is absent if its property was never carried; the
meta members keep what the constructor gave them; no member is removed; and what is outside
of the dictionary changes nothing. -/
theorem last_update_wins (query : DBusQuery) (serviceName objectPath : String)
    (updates : List Update) (hdistinct : query.DistinctMembers)
    (haccepted : ∀ change ∈ updates, change.Accepted query) :
    ∃ after, updateAll updates (.create serviceName objectPath query) = .ok ⟨⟩ after ∧
      (∀ interface property member,
        (query.getPropertyMemberDict interface).find? property = some member →
        (Update.lastCarried interface property updates = none →
          after.memberInstances.find? member = none) ∧
        ∀ value, Update.lastCarried interface property updates = some value →
          ∃ formatted, ((query.formatters.find? property).getD []).foldlM
              (fun formatted (formatter : FormatterFn) => formatter.invoke property formatted)
              value = .ok (.scalar formatted) ∧
            after.memberInstances.find? member = some formatted) ∧
      after.memberInstances.find? metaObjectPath = some (.string objectPath) ∧
      after.memberInstances.find? metaObjectService = some (.string serviceName) ∧
      (∀ before later, updates = before ++ later →
        ∃ middle, updateAll before (.create serviceName objectPath query) = .ok ⟨⟩ middle ∧
          ∀ member, middle.hasField member = true → after.hasField member = true) ∧
      (∀ (inst : DBusInstance) interface (properties other : DBusPropertiesMap),
        inst.dbusQuery = query →
        ((∀ property member, (query.getPropertyMemberDict interface).find? property =
            some member → properties.find? property = other.find? property) →
          fillMembers interface properties inst = fillMembers interface other inst) ∧
        ((∀ property member, (query.getPropertyMemberDict interface).find? property =
            some member → properties.find? property = none) →
          fillMembers interface properties inst = .ok ⟨⟩ inst)) := by
  have hall : ∀ updates : List Update, (∀ change ∈ updates, change.Accepted query) →
      ∃ after, updateAll updates (create serviceName objectPath query) = .ok ⟨⟩ after ∧
        SameObject after.toInstance (Instance.create serviceName objectPath query) ∧
        ∀ wanted, after.memberInstances.find? wanted =
          (Update.lastGiven query wanted updates).or
            ((create serviceName objectPath query).memberInstances.find? wanted) :=
    fun updates haccepted => find?_updateAll hdistinct haccepted
  obtain ⟨after, hupdate, -, hfields⟩ := hall updates haccepted
  obtain ⟨hpath, hservice⟩ := EntityQuery.find?_create serviceName objectPath query
  obtain ⟨hgivenPath, hgivenService⟩ := Update.lastGiven_meta hdistinct haccepted
  refine ⟨after, hupdate, ?_, ?_, ?_, ?_, ?_⟩
  · intro interface property member hentry
    obtain ⟨hnone, hsome⟩ := Update.lastGiven_mapped hdistinct haccepted hentry
    constructor
    · intro hcarried
      rw [hfields, hnone hcarried, Option.none_or]
      exact find?_create_mapped hdistinct hentry
    · intro value hcarried
      obtain ⟨formatted, hformat, hgiven⟩ := hsome value hcarried
      exact ⟨formatted, hformat, by rw [hfields, hgiven, Option.some_or]⟩
  · rw [hfields, hgivenPath, Option.none_or, hpath]
  · rw [hfields, hgivenService, Option.none_or, hservice]
  · rintro before later rfl
    obtain ⟨middle, hbefore, hsame, -⟩ :=
      hall before fun change hmem => haccepted change (List.mem_append_left _ hmem)
    refine ⟨middle, hbefore, fun member hfield => ?_⟩
    have hquery : middle.dbusQuery = query := hsame.dbusQuery
    have hlater : updateAll later middle = .ok ⟨⟩ after := by
      rw [updateAll_append, Fallible.bind_ok hbefore] at hupdate
      exact hupdate
    apply hasField_updateAll (hquery ▸ hdistinct) ?_ hlater hfield
    rw [hquery]
    exact fun change hmem => haccepted change (List.mem_append_right _ hmem)
  · rintro inst interface properties other rfl
    exact ⟨fillMembers_congr, fillMembers_idle⟩

omit [StdHash] in
/-- A property with two formatters, changed twice with another member set in between. -/
theorem last_update_wins_single :
    let _ : StdHash := ⟨64, fun _ => 0⟩
    let upper : FormatterFn := ⟨fun _ _ => .ok (.string "OK"), fun _ value => .ok (.complex value)⟩
    let marked : FormatterFn := ⟨fun _ value => .ok (if value = .string "OK" then
      .string "OK!" else value), fun _ value => .ok (.complex value)⟩
    let dict : OrderedMap PropertyName MemberName := OrderedMap.empty.emplace "State" "Status"
    let query : DBusQuery := ⟨OrderedMap.empty.emplace "Health" dict,
      OrderedMap.empty.emplace "State" [upper, marked], OrderedMap.empty⟩
    let changed (text : String) : Update :=
      .fillMembers "Health" (OrderedMap.empty.emplace "State" (.scalar (.string text)))
    let updates : List Update :=
      [changed "bad", .supplementOrUpdate "Name" (.string "fan"), changed "ok"]
    ∃ after, updateAll updates (.create "service" "/fan" query) = .ok ⟨⟩ after ∧
      after.memberInstances.find? "Status" = some (.string "OK!") := by
  intro _ upper marked dict query changed updates
  have hfill : ∀ text, (changed text).Accepted query := by
    intro text property member value hentry hvalue
    have hcarried : property = "State" ∧ DbusVariant.scalar (.string text) = value := by
      simpa [OrderedMap.find?_emplace] using hvalue
    obtain ⟨rfl, rfl⟩ := hcarried
    exact ⟨.string "OK!", rfl⟩
  have hname : (Update.supplementOrUpdate "Name" (.string "fan")).Accepted query := by
    show "Name" ∉ metaObjectPath :: metaObjectService :: query.members
    decide
  have haccepted : ∀ change ∈ updates, change.Accepted query := by
    simp only [updates, List.forall_mem_cons]
    exact ⟨hfill "bad", hname, hfill "ok", fun _ hmem => absurd hmem List.not_mem_nil⟩
  obtain ⟨after, hupdate, hmapped, -⟩ :=
    last_update_wins query "service" "/fan" updates (by decide) haccepted
  obtain ⟨formatted, hformat, hfield⟩ := (hmapped "Health" "State" "Status" rfl).2 _ rfl
  have hok : formatted = .string "OK!" := by
    have hread : Update.formatAll query "State" (.scalar (.string "ok")) =
        .ok (.scalar (.string "OK!")) := rfl
    rw [← Update.formatAll, hread] at hformat
    cases hformat
    rfl
  exact ⟨after, hupdate, hok ▸ hfield⟩

end DBusInstance

end ObmcWebapp.Entities
