/-
# The fields of a created instance

Creating an instance asks each interface of an object for its properties. When no two
properties of the dictionary share a member, each delivered scalar sets its own member,
so the fields do not depend on the order of the interfaces, and neither does whether a
formatter throws.

The children of an instance are another matter: those of two list valued properties may
replace each other.
-/

import ObmcWebapp.Entities.Sensors
import ObmcWebapp.Entities.Settling

namespace ObmcWebapp.Entities

open ObmcWebapp.Core definitions

namespace DBusQuery

/-- The members of the dictionary. -/
def members (query : DBusQuery) : List MemberName :=
  query.searchPropertiesMap.entries.flatMap fun interface => interface.2.values

/-- No two properties have one member, and none has a member every instance is created
with. -/
def DistinctMembers (query : DBusQuery) : Prop :=
  (metaObjectPath :: metaObjectService :: query.members).Nodup

instance (query : DBusQuery) : Decidable query.DistinctMembers :=
  inferInstanceAs (Decidable (List.Nodup _))

/-- The field a delivered property gives. -/
def scalar? (query : DBusQuery) (properties : DBusPropertiesMap) (property : PropertyName) :
    Option FieldType :=
  match properties.find? property with
  | none => none
  | some value =>
      match query.processFormatters property value with
      | .ok (.scalar formatted) => some formatted
      | _ => none

/-- The field the properties of an interface give to a member. -/
def delivered? (query : DBusQuery) (interface : InterfaceName) (properties : DBusPropertiesMap)
    (member : MemberName) : Option FieldType :=
  ((query.getPropertyMemberDict interface).entries.find? fun entry =>
    decide (entry.2 = member)).bind fun entry => query.scalar? properties entry.1

theorem mem_entries_of_dict {query : DBusQuery} {interface : InterfaceName}
    {entry : PropertyName × MemberName}
    (hentry : entry ∈ (query.getPropertyMemberDict interface).entries) :
    ∃ dict, (interface, dict) ∈ query.searchPropertiesMap.entries ∧ entry ∈ dict.entries := by
  rw [getPropertyMemberDict] at hentry
  cases hfound : query.searchPropertiesMap.find? interface with
  | none =>
      rw [hfound] at hentry
      cases hentry
  | some dict =>
      rw [hfound] at hentry
      exact ⟨dict, OrderedMap.mem_entries_iff.mpr hfound, hentry⟩

namespace DistinctMembers

variable {query : DBusQuery} (hdistinct : query.DistinctMembers)

include hdistinct

theorem members_nodup : query.members.Nodup :=
  (List.nodup_cons.mp (List.nodup_cons.mp hdistinct).2).2

theorem dict_nodup (interface : InterfaceName) :
    ((query.getPropertyMemberDict interface).entries.map Prod.snd).Nodup := by
  rw [getPropertyMemberDict]
  cases hfound : query.searchPropertiesMap.find? interface with
  | none => exact List.nodup_nil
  | some dict =>
      have hmembers := (List.nodup_flatMap.mp hdistinct.members_nodup).1
      exact hmembers (interface, dict) (OrderedMap.mem_entries_iff.mpr hfound)

theorem ne_meta {interface : InterfaceName} {entry : PropertyName × MemberName}
    (hentry : entry ∈ (query.getPropertyMemberDict interface).entries) :
    entry.2 ≠ metaObjectPath ∧ entry.2 ≠ metaObjectService := by
  obtain ⟨dict, hdict, hmem⟩ := mem_entries_of_dict hentry
  have hmember : entry.2 ∈ query.members :=
    List.mem_flatMap.mpr ⟨(interface, dict), hdict, List.mem_map_of_mem hmem⟩
  obtain ⟨hpath, hservice⟩ := List.nodup_cons.mp hdistinct
  refine ⟨fun hsame => hpath ?_, fun hsame => (List.nodup_cons.mp hservice).1 ?_⟩
  · rw [← hsame]
    exact List.mem_cons_of_mem _ hmember
  · rw [← hsame]
    exact hmember

/-- A member belongs to one interface. -/
theorem interface_eq {first second : InterfaceName} {entry other : PropertyName × MemberName}
    (hfirst : entry ∈ (query.getPropertyMemberDict first).entries)
    (hsecond : other ∈ (query.getPropertyMemberDict second).entries)
    (hmember : entry.2 = other.2) : first = second := by
  by_contra hne
  obtain ⟨dict, hdict, hentry⟩ := mem_entries_of_dict hfirst
  obtain ⟨dict', hdict', hother⟩ := mem_entries_of_dict hsecond
  have hpairwise := (List.nodup_flatMap.mp hdistinct.members_nodup).2
  have hsymm : Std.Symm (Function.onFun List.Disjoint
      fun interface : InterfaceName × OrderedMap PropertyName MemberName => interface.2.values) :=
    ⟨fun _ _ hdisjoint => List.Disjoint.symm hdisjoint⟩
  have hdisjoint := hpairwise.forall hdict hdict' fun hsame => hne (congrArg Prod.fst hsame)
  exact hdisjoint (List.mem_map_of_mem hentry) (hmember ▸ List.mem_map_of_mem hother)

theorem delivered?_interface {first second : InterfaceName} {properties other : DBusPropertiesMap}
    {member : MemberName} {value value' : FieldType}
    (hfirst : query.delivered? first properties member = some value)
    (hsecond : query.delivered? second other member = some value') : first = second := by
  obtain ⟨entry, hentry, -⟩ := Option.bind_eq_some_iff.mp hfirst
  obtain ⟨entry', hentry', -⟩ := Option.bind_eq_some_iff.mp hsecond
  have hmember : entry.2 = member := by simpa using List.find?_some hentry
  have hmember' : entry'.2 = member := by simpa using List.find?_some hentry'
  exact hdistinct.interface_eq (List.mem_of_find?_eq_some hentry)
    (List.mem_of_find?_eq_some hentry') (hmember.trans hmember'.symm)

/-- A property of the dictionary is delivered to its member. -/
theorem delivered?_eq {interface : InterfaceName} {property : PropertyName} {member : MemberName}
    (hentry : (query.getPropertyMemberDict interface).find? property = some member)
    (properties : DBusPropertiesMap) :
    query.delivered? interface properties member = query.scalar? properties property := by
  have hmem := OrderedMap.mem_entries_iff.mpr hentry
  cases hfound : (query.getPropertyMemberDict interface).entries.find? fun entry =>
      decide (entry.2 = member) with
  | none =>
      exact absurd (decide_eq_true rfl) (List.find?_eq_none.mp hfound _ hmem)
  | some entry =>
      have hmember : entry.2 = member := by simpa using List.find?_some hfound
      have hsame : entry = (property, member) := List.inj_on_of_nodup_map
        (hdistinct.dict_nodup interface) (List.mem_of_find?_eq_some hfound) hmem hmember
      rw [delivered?, hfound, hsame]
      rfl

/-- The members every instance is created with are not delivered. -/
theorem delivered?_meta (interface : InterfaceName) (properties : DBusPropertiesMap) :
    query.delivered? interface properties metaObjectPath = none ∧
    query.delivered? interface properties metaObjectService = none := by
  constructor
  · apply Option.bind_eq_none_iff.mpr
    intro entry hentry
    have hmember : entry.2 = metaObjectPath := by simpa using List.find?_some hentry
    exact absurd hmember (hdistinct.ne_meta (List.mem_of_find?_eq_some hentry)).1
  · apply Option.bind_eq_none_iff.mpr
    intro entry hentry
    have hmember : entry.2 = metaObjectService := by simpa using List.find?_some hentry
    exact absurd hmember (hdistinct.ne_meta (List.mem_of_find?_eq_some hentry)).2

end DistinctMembers

end DBusQuery

namespace DBusInstance

variable [StdHash] {properties : DBusPropertiesMap}

/-- An entry of the dictionary gives its member the delivered field, if there is one. -/
theorem find?_fillMember {entry : PropertyName × MemberName} {inst after : DBusInstance}
    (hfill : fillMember properties entry inst = .ok ⟨⟩ after) :
    SameObject after.toInstance inst.toInstance ∧
    ∀ wanted, after.memberInstances.find? wanted =
      if wanted = entry.2 then
        (inst.dbusQuery.scalar? properties entry.1).or (inst.memberInstances.find? wanted)
      else inst.memberInstances.find? wanted := by
  rw [fillMember] at hfill
  cases hfound : properties.find? entry.1 with
  | none =>
      simp only [hfound] at hfill
      cases hfill
      refine ⟨⟨rfl, rfl, rfl⟩, fun wanted => ?_⟩
      simp [DBusQuery.scalar?, hfound]
  | some value =>
      simp only [hfound] at hfill
      cases hformat : inst.dbusQuery.processFormatters entry.1 value with
      | error exception =>
          simp only [hformat] at hfill
          cases hfill
      | ok formatted =>
          simp only [hformat] at hfill
          cases formatted with
          | scalar scalar =>
              cases hfill
              refine ⟨⟨by simp, by simp, by simp⟩, fun wanted => ?_⟩
              simp [DBusQuery.scalar?, hfound, hformat]
          | complex complex =>
              have hsame := resolveComplex_toInstance hfill
              refine ⟨by rw [hsame]; exact ⟨rfl, rfl, rfl⟩, fun wanted => ?_⟩
              simp [DBusQuery.scalar?, hfound, hformat, hsame]

theorem find?_fillEntries {entries : List (PropertyName × MemberName)}
    (hnodup : (entries.map Prod.snd).Nodup) {inst after : DBusInstance}
    (hfill : Fallible.forEach (fillMember properties) entries inst = .ok ⟨⟩ after) :
    SameObject after.toInstance inst.toInstance ∧
    ∀ wanted, after.memberInstances.find? wanted =
      ((entries.find? fun entry => decide (entry.2 = wanted)).bind fun entry =>
        inst.dbusQuery.scalar? properties entry.1).or (inst.memberInstances.find? wanted) := by
  induction entries generalizing inst with
  | nil =>
      cases hfill
      exact ⟨⟨rfl, rfl, rfl⟩, fun wanted => rfl⟩
  | cons entry entries ih =>
      rw [Fallible.forEach] at hfill
      obtain ⟨_, middle, hfirst, hrest⟩ := Fallible.bind_eq_ok hfill
      obtain ⟨hsame, hfields⟩ := find?_fillMember hfirst
      obtain ⟨hfresh, hnodup⟩ := List.nodup_cons.mp hnodup
      obtain ⟨hrestSame, hrestFields⟩ := ih hnodup hrest
      refine ⟨hrestSame.trans hsame, fun wanted => ?_⟩
      rw [hrestFields, hfields, hsame.dbusQuery, List.find?_cons]
      by_cases hwanted : entry.2 = wanted
      · have hnone : entries.find? (fun later => decide (later.2 = wanted)) = none := by
          rw [List.find?_eq_none]
          intro later hlater hsame
          apply hfresh
          rw [hwanted, ← of_decide_eq_true hsame]
          exact List.mem_map_of_mem hlater
        simp [hwanted, hnone]
      · simp [hwanted, Ne.symm hwanted]

/-- The properties of an interface give the members their delivered fields. -/
theorem find?_fillMembers {interface : InterfaceName} {inst after : DBusInstance}
    (hdistinct : inst.dbusQuery.DistinctMembers)
    (hfill : fillMembers interface properties inst = .ok ⟨⟩ after) :
    SameObject after.toInstance inst.toInstance ∧
    ∀ wanted, after.memberInstances.find? wanted =
      (inst.dbusQuery.delivered? interface properties wanted).or
        (inst.memberInstances.find? wanted) :=
  find?_fillEntries (hdistinct.dict_nodup interface) hfill

/-- A relation between instances of one object that filling both of them alike keeps. -/
structure Tracks (rel : DBusInstance → DBusInstance → Prop) : Prop where
  object : ∀ {first second}, rel first second → SameObject first.toInstance second.toInstance
  supplementOrUpdate : ∀ {first second}, rel first second → ∀ member value,
    rel { first with toInstance := first.toInstance.supplementOrUpdate member value }
      { second with toInstance := second.toInstance.supplementOrUpdate member value }
  clear : ∀ {first second}, rel first second →
    rel { first with complexInstances := OrderedMap.empty }
      { second with complexInstances := OrderedMap.empty }
  insertComplex : ∀ {first second}, rel first second → ∀ child,
    rel (first.insertComplex child) (second.insertComplex child)

namespace Tracks

variable {rel : DBusInstance → DBusInstance → Prop} (htracks : Tracks rel)
  {first second next : DBusInstance}

include htracks

/-- Whether a child can be captured does not depend on the instance. -/
theorem captureChild {child : Instance} {interface : InterfaceName}
    {fields : OrderedMap PropertyName FieldType} (hrel : rel first second)
    (hfirst : DBusInstance.captureChild child interface fields first = .ok ⟨⟩ next) :
    ∃ after, DBusInstance.captureChild child interface fields second = .ok ⟨⟩ after ∧
      rel next after := by
  rw [DBusInstance.captureChild] at hfirst ⊢
  cases hfill : child.fillMembers interface fields with
  | ok value filled =>
      rw [hfill] at hfirst
      cases hfirst
      exact ⟨_, rfl, htracks.insertComplex hrel filled⟩
  | error exception filled =>
      rw [hfill] at hfirst
      cases hfirst

theorem resolveDBusVariant {member : MemberName} {value : DbusVariant} (hrel : rel first second)
    (hfirst : DBusInstance.resolveDBusVariant member value first = .ok ⟨⟩ next) :
    ∃ after, DBusInstance.resolveDBusVariant member value second = .ok ⟨⟩ after ∧
      rel next after := by
  have hscalars : ∀ values : List FieldType,
      captureComplexDBusProperty member values first = .ok ⟨⟩ next →
      ∃ after, captureComplexDBusProperty member values second = .ok ⟨⟩ after ∧
        rel next after := by
    intro values hvalues
    apply Fallible.forEach_related rel _ hrel hvalues
    intro value _ first second next hrel hcapture
    obtain ⟨hservice, hpath, hquery⟩ := htracks.object hrel
    have hchild : Instance.create second.serviceName second.objectPath second.dbusQuery =
        Instance.create first.serviceName first.objectPath first.dbusQuery := by
      rw [hservice, hpath, hquery]
    show ∃ after, DBusInstance.captureChild (Instance.create second.serviceName
      second.objectPath second.dbusQuery) member _ second = _ ∧ _
    rw [hchild]
    exact htracks.captureChild hrel hcapture
  cases value with
  | scalar value =>
      cases hfirst
      exact ⟨_, rfl, htracks.supplementOrUpdate hrel member value⟩
  | complex value =>
      cases value with
      | strings values => exact hscalars _ hfirst
      | doubles values => exact hscalars _ hfirst
      | associations values =>
          apply Fallible.forEach_related rel _ (htracks.clear hrel) hfirst
          intro association _ first second next hrel hcapture
          obtain ⟨hservice, -, hquery⟩ := htracks.object hrel
          have hchild : Instance.create second.serviceName association.2.2 second.dbusQuery =
              Instance.create first.serviceName association.2.2 first.dbusQuery := by
            rw [hservice, hquery]
          rw [captureAssociation, hchild]
          exact htracks.captureChild hrel hcapture

/-- An entry of the dictionary with the same delivered value on both sides. -/
theorem fillMember {other : DBusPropertiesMap} {entry : PropertyName × MemberName}
    (hsame : properties.find? entry.1 = other.find? entry.1) (hrel : rel first second)
    (hfirst : DBusInstance.fillMember properties entry first = .ok ⟨⟩ next) :
    ∃ after, DBusInstance.fillMember other entry second = .ok ⟨⟩ after ∧ rel next after := by
  rw [DBusInstance.fillMember, hsame] at hfirst
  rw [DBusInstance.fillMember]
  cases hfound : other.find? entry.1 with
  | none =>
      simp only [hfound] at hfirst
      cases hfirst
      exact ⟨second, rfl, hrel⟩
  | some value =>
      simp only [hfound] at hfirst
      cases hformat : first.dbusQuery.processFormatters entry.1 value with
      | error exception =>
          simp only [hformat] at hfirst
          cases hfirst
      | ok formatted =>
          simp only [hformat] at hfirst
          rw [(htracks.object hrel).dbusQuery] at hformat
          simp only [hformat]
          exact htracks.resolveDBusVariant hrel hfirst

theorem fillMembers {interface : InterfaceName} (hrel : rel first second)
    (hfirst : DBusInstance.fillMembers interface properties first = .ok ⟨⟩ next) :
    ∃ after, DBusInstance.fillMembers interface properties second = .ok ⟨⟩ after ∧
      rel next after := by
  rw [DBusInstance.fillMembers] at hfirst ⊢
  rw [← (htracks.object hrel).dbusQuery]
  apply Fallible.forEach_related rel _ hrel hfirst
  exact fun entry _ first second next hrel hfill => htracks.fillMember rfl hrel hfill

end Tracks

/-- Instances of one object. -/
def Related (first second : DBusInstance) : Prop :=
  SameObject first.toInstance second.toInstance

theorem related_tracks : Tracks Related where
  object hrel := hrel
  supplementOrUpdate hrel member value := ⟨by simp [hrel.serviceName], by simp [hrel.objectPath],
    by simp [hrel.dbusQuery]⟩
  clear hrel := hrel
  insertComplex hrel _ := hrel

/-- Whether an instance can be filled depends on its object only. -/
theorem fillMembers_related {interface : InterfaceName} {first second next : DBusInstance}
    (hrel : Related first second)
    (hfirst : fillMembers interface properties first = .ok ⟨⟩ next) :
    ∃ after, fillMembers interface properties second = .ok ⟨⟩ after ∧ Related next after :=
  related_tracks.fillMembers hrel hfirst

/-- No formatter threw while an instance was filled. -/
theorem formatted_of_fillMembers {interface : InterfaceName} {inst after : DBusInstance}
    (hfill : fillMembers interface properties inst = .ok ⟨⟩ after)
    {property : PropertyName} {member : MemberName} {value : DbusVariant}
    (hentry : (inst.dbusQuery.getPropertyMemberDict interface).find? property = some member)
    (hvalue : properties.find? property = some value) :
    ∃ formatted, inst.dbusQuery.processFormatters property value = .ok formatted := by
  have hmem := OrderedMap.mem_entries_iff.mpr hentry
  rw [fillMembers] at hfill
  generalize (inst.dbusQuery.getPropertyMemberDict interface).entries = entries at hmem hfill
  clear hentry
  induction entries generalizing inst with
  | nil => cases hmem
  | cons entry entries ih =>
      rw [Fallible.forEach] at hfill
      obtain ⟨_, middle, hfirst, hrest⟩ := Fallible.bind_eq_ok hfill
      rcases List.mem_cons.mp hmem with rfl | hmem
      · simp only [fillMember, hvalue] at hfirst
        cases hformat : inst.dbusQuery.processFormatters property value with
        | ok formatted => exact ⟨formatted, rfl⟩
        | error exception =>
            simp only [hformat] at hfirst
            cases hfirst
      · rw [← (find?_fillMember hfirst).1.dbusQuery]
        exact ih hmem hrest

end DBusInstance

/-! ## Creating an instance -/

namespace EntityQuery

variable [StdHash] {query : EntityQuery} {replies : BusReplies}

/-- Ask the listed interfaces one after the other. -/
def fillAll (replies : BusReplies) (interfaces : List InterfaceName) (inst : DBusInstance) :
    Except Exception DBusInstance :=
  interfaces.foldlM (fun inst interface =>
    resulting (DBusInstance.fillMembers interface (queryProperties replies inst interface)) inst) inst

/-- The field an interface of the object of an instance gives to a member. -/
def replied? (replies : BusReplies) (inst : DBusInstance) (interface : InterfaceName)
    (member : MemberName) : Option FieldType :=
  inst.dbusQuery.delivered? interface (queryProperties replies inst interface) member

omit [StdHash] in
theorem resulting_eq_ok {action : EStateM Exception DBusInstance PUnit} {inst after : DBusInstance} :
    resulting action inst = .ok after ↔ action inst = .ok ⟨⟩ after := by
  rw [resulting]
  cases action inst with
  | ok value filled => simp
  | error exception filled => simp

omit [StdHash] in
theorem queryProperties_related {first second : DBusInstance}
    (hrel : DBusInstance.Related first second) (interface : InterfaceName) :
    queryProperties replies first interface = queryProperties replies second interface := by
  rw [queryProperties, queryProperties, hrel.serviceName, hrel.objectPath]

omit [StdHash] in
theorem replied?_related {first second : DBusInstance} (hrel : DBusInstance.Related first second)
    (interface : InterfaceName) :
    replied? replies first interface = replied? replies second interface := by
  funext member
  rw [replied?, replied?, queryProperties_related hrel, hrel.dbusQuery]

theorem fillAll_cons {interface : InterfaceName} {interfaces : List InterfaceName}
    {inst after : DBusInstance} (hfill : fillAll replies (interface :: interfaces) inst = .ok after) :
    ∃ middle, DBusInstance.fillMembers interface (queryProperties replies inst interface) inst =
      .ok ⟨⟩ middle ∧ fillAll replies interfaces middle = .ok after := by
  rw [fillAll, List.foldlM_cons] at hfill
  cases hfirst : resulting
      (DBusInstance.fillMembers interface (queryProperties replies inst interface)) inst with
  | error exception =>
      rw [hfirst] at hfill
      cases hfill
  | ok middle =>
      rw [hfirst] at hfill
      exact ⟨middle, resulting_eq_ok.mp hfirst, hfill⟩

/-- The fields after all interfaces were asked: what some interface gives, or else what was
there. -/
theorem find?_fillAll {interfaces : List InterfaceName} {inst after : DBusInstance}
    (hdistinct : inst.dbusQuery.DistinctMembers) (hfill : fillAll replies interfaces inst = .ok after) :
    DBusInstance.Related after inst ∧
    ∀ wanted value, after.memberInstances.find? wanted = some value ↔
      (∃ interface ∈ interfaces, replied? replies inst interface wanted = some value) ∨
      ((∀ interface ∈ interfaces, replied? replies inst interface wanted = none) ∧
        inst.memberInstances.find? wanted = some value) := by
  induction interfaces generalizing inst with
  | nil =>
      cases hfill
      exact ⟨⟨rfl, rfl, rfl⟩, fun wanted value => by simp⟩
  | cons interface interfaces ih =>
      obtain ⟨middle, hfirst, hrest⟩ := fillAll_cons hfill
      obtain ⟨hsame, hfields⟩ := DBusInstance.find?_fillMembers hdistinct hfirst
      obtain ⟨hrestSame, hrestFields⟩ := ih (hsame.dbusQuery ▸ hdistinct) hrest
      refine ⟨hrestSame.trans hsame, fun wanted value => ?_⟩
      have hreplied : ∀ other, replied? replies middle other = replied? replies inst other :=
        fun other => replied?_related hsame other
      have hfirstField : middle.memberInstances.find? wanted =
          (replied? replies inst interface wanted).or (inst.memberInstances.find? wanted) :=
        hfields wanted
      simp only [hrestFields, hreplied, hfirstField, List.mem_cons, exists_eq_or_imp,
        forall_eq_or_imp]
      cases hown : replied? replies inst interface wanted with
      | none => simp
      | some own =>
          -- another interface that gives the member is the same
          have hlater : ∀ later ∈ interfaces, ∀ other,
              replied? replies inst later wanted = some other → other = own := by
            intro later _ other hother
            have hinterface := hdistinct.delivered?_interface hother hown
            rw [hinterface, hown] at hother
            exact (Option.some.inj hother).symm
          simp only [Option.some_or, reduceCtorEq, false_and, or_false]
          constructor
          · rintro (⟨later, hmem, hgiven⟩ | ⟨-, hsome⟩)
            · exact .inr ⟨later, hmem, hgiven⟩
            · exact .inl hsome
          · rintro (hsome | ⟨later, hmem, hgiven⟩)
            · obtain rfl := Option.some.inj hsome
              by_cases hgiven : ∃ later ∈ interfaces, replied? replies inst later wanted ≠ none
              · obtain ⟨later, hmem, hne⟩ := hgiven
                obtain ⟨other, hother⟩ := Option.ne_none_iff_exists'.mp hne
                exact .inl ⟨later, hmem, hlater later hmem other hother ▸ hother⟩
              · push Not at hgiven
                exact .inr ⟨hgiven, rfl⟩
            · exact .inl ⟨later, hmem, hgiven⟩

/-- The interfaces can be asked exactly when each of them can be asked first. -/
theorem fillAll_ok_iff {interfaces : List InterfaceName} {inst : DBusInstance}
    (hdistinct : inst.dbusQuery.DistinctMembers) :
    (∃ after, fillAll replies interfaces inst = .ok after) ↔
      ∀ interface ∈ interfaces, ∃ after,
        DBusInstance.fillMembers interface (queryProperties replies inst interface) inst =
          .ok ⟨⟩ after := by
  induction interfaces generalizing inst with
  | nil => exact ⟨fun _ => nofun, fun _ => ⟨inst, rfl⟩⟩
  | cons interface interfaces ih =>
      constructor
      · rintro ⟨after, hfill⟩
        obtain ⟨middle, hfirst, hrest⟩ := fillAll_cons hfill
        have hsame : DBusInstance.Related middle inst :=
          (DBusInstance.find?_fillMembers hdistinct hfirst).1
        have hlater := (ih (hsame.dbusQuery ▸ hdistinct)).mp ⟨after, hrest⟩
        intro wanted hmem
        rcases List.mem_cons.mp hmem with rfl | hmem
        · exact ⟨middle, hfirst⟩
        · obtain ⟨filled, hfilled⟩ := hlater wanted hmem
          rw [queryProperties_related hsame] at hfilled
          obtain ⟨other, hother, -⟩ := DBusInstance.fillMembers_related hsame hfilled
          exact ⟨other, hother⟩
      · intro hall
        obtain ⟨middle, hfirst⟩ := hall interface (by simp)
        have hsame : DBusInstance.Related middle inst :=
          (DBusInstance.find?_fillMembers hdistinct hfirst).1
        have hlater : ∀ later ∈ interfaces, ∃ after,
            DBusInstance.fillMembers later (queryProperties replies middle later) middle =
              .ok ⟨⟩ after := by
          intro later hmem
          obtain ⟨filled, hfilled⟩ := hall later (List.mem_cons_of_mem _ hmem)
          rw [queryProperties_related hsame]
          obtain ⟨other, hother, -⟩ := DBusInstance.fillMembers_related hsame.symm hfilled
          exact ⟨other, hother⟩
        obtain ⟨after, hafter⟩ := (ih (hsame.dbusQuery ▸ hdistinct)).mpr hlater
        refine ⟨after, ?_⟩
        rw [fillAll, List.foldlM_cons, resulting_eq_ok.mpr hfirst]
        exact hafter

/-- The order in which the interfaces are asked does not show in the instance. -/
theorem fillAll_perm {interfaces other : List InterfaceName} {inst after : DBusInstance}
    (hdistinct : inst.dbusQuery.DistinctMembers) (hperm : interfaces.Perm other)
    (hfill : fillAll replies interfaces inst = .ok after) :
    ∃ after', fillAll replies other inst = .ok after' ∧ after'.toInstance = after.toInstance := by
  have hall := (fillAll_ok_iff hdistinct).mp ⟨after, hfill⟩
  obtain ⟨after', hfill'⟩ := (fillAll_ok_iff hdistinct).mpr fun interface hmem =>
    hall interface (hperm.mem_iff.mpr hmem)
  obtain ⟨hsame, hfields⟩ := find?_fillAll hdistinct hfill
  obtain ⟨hsame', hfields'⟩ := find?_fillAll hdistinct hfill'
  refine ⟨after', hfill', SameObject.eq (hsame'.trans hsame.symm) fun member => ?_⟩
  ext value
  rw [hfields, hfields']
  simp only [hperm.mem_iff]

/-- Supplementing by static fields keeps the object and the fields that were read, and
does not look at the children. -/
structure StaticFields (supplement : DBusInstance → Except Exception DBusInstance) : Prop where
  kept : ∀ inst after, supplement inst = .ok after →
    SameObject after.toInstance inst.toInstance ∧
    ∀ member value, inst.memberInstances.find? member = some value →
      after.memberInstances.find? member = some value
  fields : ∀ first second after, first.toInstance = second.toInstance →
    supplement first = .ok after →
    ∃ other, supplement second = .ok other ∧ other.toInstance = after.toInstance

omit [StdHash] in
theorem staticFields_none : StaticFields Except.ok where
  kept inst after hok := by
    cases hok
    exact ⟨⟨rfl, rfl, rfl⟩, fun _ _ hfound => hfound⟩
  fields first second after hsame hok := by
    cases hok
    exact ⟨second, rfl, hsame.symm⟩

/-- A query whose properties have distinct members and whose static fields are added to
what was read. -/
structure WellNamed (query : EntityQuery) : Prop where
  distinct : query.dbusQuery.DistinctMembers
  static : StaticFields query.supplementByStaticFields

/-- An instance is the object of the service and holds what the properties of its
interfaces gave. -/
structure Reads (query : EntityQuery) (replies : BusReplies) (serviceName : ServiceName)
    (objectPath : ObjectPath) (interfaces : List InterfaceName) (inst : DBusInstance) : Prop where
  serviceName_eq : inst.serviceName = serviceName
  objectPath_eq : inst.objectPath = objectPath
  metaPath : inst.memberInstances.find? metaObjectPath = some (.string objectPath)
  metaService : inst.memberInstances.find? metaObjectService = some (.string serviceName)
  delivered : ∀ interface ∈ interfaces, ∀ property member value,
    (query.dbusQuery.getPropertyMemberDict interface).find? property = some member →
    (replies.getAll serviceName objectPath interface).find? property =
      some (.scalar value) →
    ∃ formatted, query.dbusQuery.processScalarFormatters property value = .ok formatted ∧
      inst.memberInstances.find? member = some formatted

theorem createInstance_eq (query : EntityQuery) (replies : BusReplies) (serviceName : ServiceName)
    (objectPath : ObjectPath) (interfaces : List InterfaceName) :
    query.createInstance replies serviceName objectPath interfaces =
      fillAll replies interfaces (.create serviceName objectPath query.dbusQuery) >>=
        query.supplementByStaticFields := rfl

theorem createInstance_eq_ok {serviceName : ServiceName} {objectPath : ObjectPath}
    {interfaces : List InterfaceName} {inst : DBusInstance}
    (hcreate : query.createInstance replies serviceName objectPath interfaces = .ok inst) :
    ∃ filled, fillAll replies interfaces (.create serviceName objectPath query.dbusQuery) =
        .ok filled ∧ query.supplementByStaticFields filled = .ok inst := by
  rw [createInstance_eq] at hcreate
  cases hfill : fillAll replies interfaces (.create serviceName objectPath query.dbusQuery) with
  | error exception =>
      rw [hfill] at hcreate
      cases hcreate
  | ok filled =>
      rw [hfill] at hcreate
      exact ⟨filled, rfl, hcreate⟩

omit [StdHash] in
/-- The fields a created instance starts with. -/
theorem find?_create (serviceName : ServiceName) (objectPath : ObjectPath) (query : DBusQuery) :
    (DBusInstance.create serviceName objectPath query).memberInstances.find? metaObjectPath =
        some (.string objectPath) ∧
    (DBusInstance.create serviceName objectPath query).memberInstances.find? metaObjectService =
        some (.string serviceName) := by
  have hne : metaObjectPath ≠ metaObjectService := by decide
  simp [DBusInstance.create, Instance.create, hne, hne.symm]

theorem createInstance_reads (hnamed : query.WellNamed) {serviceName : ServiceName}
    {objectPath : ObjectPath} {interfaces : List InterfaceName} {inst : DBusInstance}
    (hcreate : query.createInstance replies serviceName objectPath interfaces = .ok inst) :
    query.Reads replies serviceName objectPath interfaces inst := by
  obtain ⟨filled, hfill, hstatic⟩ := createInstance_eq_ok hcreate
  obtain ⟨hsame, hkept⟩ := hnamed.static.kept filled inst hstatic
  have hdistinct : (DBusInstance.create serviceName objectPath
      query.dbusQuery).dbusQuery.DistinctMembers := hnamed.distinct
  obtain ⟨hobject, hfields⟩ := find?_fillAll hdistinct hfill
  obtain ⟨hpath, hservice⟩ := find?_create serviceName objectPath query.dbusQuery
  refine ⟨hsame.serviceName.trans hobject.serviceName, hsame.objectPath.trans hobject.objectPath,
    ?_, ?_, ?_⟩
  · apply hkept
    rw [hfields]
    exact .inr ⟨fun interface _ => (hdistinct.delivered?_meta interface _).1, hpath⟩
  · apply hkept
    rw [hfields]
    exact .inr ⟨fun interface _ => (hdistinct.delivered?_meta interface _).2, hservice⟩
  · intro interface hmem property member value hentry hvalue
    -- the interface could be asked first, so its formatters did not throw
    obtain ⟨asked, hasked⟩ := (fillAll_ok_iff hdistinct).mp ⟨filled, hfill⟩ interface hmem
    obtain ⟨given, hgiven⟩ := DBusInstance.formatted_of_fillMembers hasked hentry hvalue
    have hscalar : (query.dbusQuery.processScalarFormatters property value).map .scalar =
        .ok given := (DBusQuery.processFormatters_scalar _ property value).symm.trans hgiven
    cases hformat : query.dbusQuery.processScalarFormatters property value with
    | error exception =>
        rw [hformat] at hscalar
        cases hscalar
    | ok formatted =>
        refine ⟨formatted, rfl, hkept _ _ ?_⟩
        rw [hfields]
        refine .inl ⟨interface, hmem, ?_⟩
        have hread : query.dbusQuery.processFormatters property (.scalar value) =
            .ok (.scalar formatted) := by
          rw [DBusQuery.processFormatters_scalar, hformat]
          rfl
        show query.dbusQuery.delivered? interface _ member = some formatted
        rw [hnamed.distinct.delivered?_eq hentry, DBusQuery.scalar?]
        show (match (replies.getAll serviceName objectPath interface).find? property with
          | none => none
          | some value => match query.dbusQuery.processFormatters property value with
            | .ok (.scalar formatted) => some formatted
            | _ => none) = some formatted
        rw [hvalue]
        simp only [hread]

/-- The order of the interfaces does not show in a created instance. -/
theorem createInstance_perm (hnamed : query.WellNamed) {serviceName : ServiceName}
    {objectPath : ObjectPath} {interfaces other : List InterfaceName}
    (hperm : interfaces.Perm other) {inst : DBusInstance}
    (hcreate : query.createInstance replies serviceName objectPath interfaces = .ok inst) :
    ∃ inst', query.createInstance replies serviceName objectPath other = .ok inst' ∧
      inst'.toInstance = inst.toInstance := by
  obtain ⟨filled, hfill, hstatic⟩ := createInstance_eq_ok hcreate
  obtain ⟨filled', hfill', hsame⟩ := fillAll_perm hnamed.distinct hperm hfill
  obtain ⟨inst', hstatic', hfields⟩ := hnamed.static.fields filled filled' inst hsame.symm hstatic
  refine ⟨inst', ?_, hfields⟩
  rw [createInstance_eq, hfill']
  exact hstatic'

end EntityQuery

namespace Sensors

open EntityQuery

/-- The name of a sensor is added to its fields, or rejected. -/
theorem staticFields_setSensorName : StaticFields setSensorName where
  kept inst after hok := by
    rw [setSensorName] at hok
    cases hname : getNameFromLastSegmentObjectPath inst.objectPath with
    | error exception =>
        rw [hname] at hok
        cases hok
    | ok name =>
        rw [hname] at hok
        cases hpresent : inst.memberInstances.contains sensors.fieldName with
        | true => simp [Instance.supplement, hpresent, bind, Except.bind] at hok
        | false =>
            simp only [Instance.supplement, hpresent, bind, Except.bind, Bool.false_eq_true,
              if_false, pure, Except.pure] at hok
            cases hok
            refine ⟨⟨rfl, rfl, rfl⟩, fun member value hfound => ?_⟩
            have hne : member ≠ sensors.fieldName := by
              rintro rfl
              rw [OrderedMap.contains, hfound] at hpresent
              cases hpresent
            simpa [OrderedMap.find?_emplace, hne] using hfound
  fields first second after hsame hok := by
    rw [setSensorName] at hok ⊢
    rw [← hsame]
    cases hname : getNameFromLastSegmentObjectPath first.objectPath with
    | error exception =>
        rw [hname] at hok
        cases hok
    | ok name =>
        rw [hname] at hok
        cases hpresent : first.toInstance.supplement sensors.fieldName (.string name) with
        | error exception => simp [hpresent, bind, Except.bind] at hok
        | ok supplemented =>
            simp only [hpresent, bind, Except.bind, pure, Except.pure] at hok ⊢
            cases hok
            exact ⟨_, rfl, rfl⟩

theorem wellNamed : entityQuery.WellNamed where
  distinct := by decide
  static := staticFields_setSensorName

end Sensors

end ObmcWebapp.Entities
