/-
# The constructs of a document in the order they are visited

A document is a list of visits: operations, their variables, and the fields with the
entity they are looked up in. Each visit is let pass, refused with a GraphQL error, or
hazardous: it ends the request without an answer. The request is answered when every
hazardous visit comes after a refused one.
-/

import ObmcWebapp.Graphql.Answer

namespace ObmcWebapp.Graphql

open ObmcWebapp.Core ObmcWebapp.Entities

/-- One construct of a document. -/
inductive Visit
  | operation (operation : String)
  | variableDefinition (name : String)
  /-- A scalar field, with the entity of the selection set it stands in. -/
  | scalar (enclosing : Option EntityId) (fieldName : String)
  | object (name : String)

section Visits

variable (manager : EntityManager)

mutual

/-- The visits of a selection; an alias of a scalar field is looked up in its place. -/
def Selection.visits (enclosing : Option EntityId) : Selection → List Visit
  | .field fieldAlias name => [.scalar enclosing (fieldAlias.getD name)]
  | .object _ name selectionSet =>
      .object name :: visitsAll (manager.entityDictionary.find? name) selectionSet
  | .fragmentSpread _ => []
  | .inlineFragment selectionSet => visitsAll enclosing selectionSet

def visitsAll (enclosing : Option EntityId) : List Selection → List Visit
  | [] => []
  | selection :: selections => selection.visits enclosing ++ visitsAll enclosing selections

end

/-- The visits of a definition; a fragment has none. -/
def Definition.visits : Definition → List Visit
  | .operation definition =>
      .operation definition.operation :: definition.variableDefinitions.map .variableDefinition ++
        visitsAll manager none definition.selectionSet
  | .fragment _ _ => []

/-- The visits of a document. -/
def documentVisits (document : Document) : List Visit :=
  document.flatMap (Definition.visits manager)

end Visits

namespace Snapshot

variable (snapshot : Snapshot)

/-- The visit is answered with a GraphQL error. -/
def Refused : Visit → Prop
  | .operation operation => operation ≠ GqlQueryVisitor.visitorName
  | .variableDefinition _ => True
  | .scalar (some entity) fieldName => (snapshot.members entity).contains fieldName = false
  | .scalar none _ => False
  | .object name => snapshot.manager.entityDictionary.find? name = none

/-- The visit ends the request: a scalar field of the operation itself has no entity, and
the entity of a field with a selection set cannot be enumerated when a rule throws. -/
def Hazardous : Visit → Prop
  | .scalar none _ => True
  | .object name => ∃ entity, snapshot.manager.entityDictionary.find? name = some entity ∧
      snapshot.raises entity = true
  | _ => False

/-- Every hazardous visit comes after a refused one. -/
def RefusedFirst (visits : List Visit) : Prop :=
  ∀ before visit after, visits = before ++ visit :: after → snapshot.Hazardous visit →
    ∃ earlier ∈ before, snapshot.Refused earlier

/-- The verdict on one visit. -/
def judge : Visit → Verdict
  | .operation operation =>
      if operation = GqlQueryVisitor.visitorName then .passes
      else .answered (.notSupported operation)
  | .variableDefinition _ => .answered (.notSupported "GQL Variable definition temporarry not supported")
  | .scalar (some entity) fieldName =>
      if (snapshot.members entity).contains fieldName then .passes
      else .answered (.invalidArgument fieldName "Field not found")
  | .scalar none _ => .fails
  | .object name =>
      match snapshot.manager.entityDictionary.find? name with
      | none => .answered (.astError ("The Object <" ++ name ++ "> not found"))
      | some entity => if snapshot.raises entity then .fails else .passes

/-- The verdict on some visits in a row. -/
def judgeAll : List Visit → Verdict
  | [] => .passes
  | visit :: visits => (snapshot.judge visit).andThen (judgeAll visits)

theorem judgeAll_append (first second : List Visit) :
    snapshot.judgeAll (first ++ second) =
      (snapshot.judgeAll first).andThen (snapshot.judgeAll second) := by
  induction first with
  | nil => rfl
  | cons visit visits ih =>
      rw [List.cons_append, judgeAll, judgeAll, ih]
      cases snapshot.judge visit <;> rfl

mutual

/-- The verdict on a selection is that on its visits. -/
theorem verdict_eq_judgeAll (enclosing : Option EntityId) (selection : Selection) :
    snapshot.verdict enclosing selection =
      snapshot.judgeAll (selection.visits snapshot.manager enclosing) := by
  cases selection with
  | field fieldAlias name =>
      rw [Selection.visits, judgeAll, judgeAll, Verdict.andThen_passes]
      cases enclosing <;> rfl
  | object fieldAlias name selectionSet =>
      rw [verdict, Selection.visits, judgeAll, judge]
      cases hfound : snapshot.manager.entityDictionary.find? name with
      | none => rfl
      | some entity =>
          simp only
          split_ifs with hraises
          · rfl
          · exact verdictAll_eq_judgeAll (some entity) selectionSet
  | fragmentSpread name => rfl
  | inlineFragment selectionSet =>
      rw [verdict, Selection.visits]
      exact verdictAll_eq_judgeAll enclosing selectionSet

theorem verdictAll_eq_judgeAll (enclosing : Option EntityId) (selections : List Selection) :
    snapshot.verdictAll enclosing selections =
      snapshot.judgeAll (visitsAll snapshot.manager enclosing selections) := by
  cases selections with
  | nil => rfl
  | cons selection selections =>
      rw [verdictAll, visitsAll, judgeAll_append, verdict_eq_judgeAll, verdictAll_eq_judgeAll]

end

theorem verdictDefinition_eq_judgeAll (definition : Definition) :
    snapshot.verdictDefinition definition =
      snapshot.judgeAll (definition.visits snapshot.manager) := by
  cases definition with
  | fragment name selectionSet => rfl
  | operation definition =>
      rw [verdictDefinition, Definition.visits, List.cons_append, judgeAll, judge]
      split_ifs with hquery
      · rw [verdictQuery]
        cases definition.variableDefinitions with
        | nil => exact verdictAll_eq_judgeAll snapshot none definition.selectionSet
        | cons variableName rest => rfl
      · rfl

theorem verdictDefinitions_eq_judgeAll (document : Document) :
    snapshot.verdictDefinitions document =
      snapshot.judgeAll (documentVisits snapshot.manager document) := by
  induction document with
  | nil => rfl
  | cons definition document ih =>
      rw [verdictDefinitions, documentVisits, List.flatMap_cons, judgeAll_append,
        verdictDefinition_eq_judgeAll, ih]
      rfl

/-- A visit passes, is refused or is hazardous. -/
theorem judge_cases (visit : Visit) :
    (snapshot.judge visit = .passes ∧ ¬ snapshot.Refused visit ∧ ¬ snapshot.Hazardous visit) ∨
    ((∃ error, snapshot.judge visit = .answered error) ∧ snapshot.Refused visit ∧
      ¬ snapshot.Hazardous visit) ∨
    (snapshot.judge visit = .fails ∧ ¬ snapshot.Refused visit ∧ snapshot.Hazardous visit) := by
  cases visit with
  | operation operation =>
      by_cases hquery : operation = GqlQueryVisitor.visitorName
      · exact .inl ⟨if_pos hquery, fun hrefused => hrefused hquery, id⟩
      · exact .inr (.inl ⟨⟨_, if_neg hquery⟩, hquery, id⟩)
  | variableDefinition name => exact .inr (.inl ⟨⟨_, rfl⟩, trivial, id⟩)
  | scalar enclosing fieldName =>
      cases enclosing with
      | none => exact .inr (.inr ⟨rfl, id, trivial⟩)
      | some entity =>
          cases hmember : (snapshot.members entity).contains fieldName with
          | true =>
              refine .inl ⟨if_pos hmember, ?_, id⟩
              intro hrefused
              rw [Refused, hmember] at hrefused
              cases hrefused
          | false => exact .inr (.inl ⟨⟨_, if_neg (by simp [hmember])⟩, hmember, id⟩)
  | object name =>
      simp only [judge, Refused, Hazardous]
      cases hfound : snapshot.manager.entityDictionary.find? name with
      | none => simp
      | some entity =>
          cases hraises : snapshot.raises entity with
          | true => simp [hraises]
          | false => simp [hraises]

/-- Some visits do not fail exactly when a refused one comes before every hazardous one. -/
theorem judgeAll_ne_fails_iff (visits : List Visit) :
    snapshot.judgeAll visits ≠ .fails ↔ snapshot.RefusedFirst visits := by
  induction visits with
  | nil =>
      refine ⟨fun _ before visit after hsplit => ?_, fun _ => nofun⟩
      simp at hsplit
  | cons first visits ih =>
      rw [judgeAll]
      rcases snapshot.judge_cases first with
        ⟨hjudge, hrefused, hhazardous⟩ | ⟨⟨error, hjudge⟩, hrefused, hhazardous⟩ |
          ⟨hjudge, hrefused, hhazardous⟩
      · have hpass : (Verdict.passes).andThen (snapshot.judgeAll visits) =
            snapshot.judgeAll visits := rfl
        rw [hjudge, hpass, ih]
        constructor
        · intro hrest before visit after hsplit hvisit
          cases before with
          | nil =>
              cases hsplit
              exact absurd hvisit hhazardous
          | cons head before =>
              cases hsplit
              obtain ⟨earlier, hmem, hearlier⟩ := hrest before visit after rfl hvisit
              exact ⟨earlier, List.mem_cons_of_mem _ hmem, hearlier⟩
        · intro hall before visit after hsplit hvisit
          obtain ⟨earlier, hmem, hearlier⟩ :=
            hall (first :: before) visit after (by rw [hsplit]; rfl) hvisit
          rcases List.mem_cons.mp hmem with rfl | hmem
          · exact absurd hearlier hrefused
          · exact ⟨earlier, hmem, hearlier⟩
      · have hstop : (Verdict.answered error).andThen (snapshot.judgeAll visits) =
            .answered error := rfl
        rw [hjudge, hstop]
        refine ⟨fun _ before visit after hsplit hvisit => ?_, fun _ => nofun⟩
        cases before with
        | nil =>
            cases hsplit
            exact absurd hvisit hhazardous
        | cons head before =>
            cases hsplit
            exact ⟨first, by simp, hrefused⟩
      · have hstop : (Verdict.fails).andThen (snapshot.judgeAll visits) = .fails := rfl
        rw [hjudge, hstop]
        refine ⟨fun hpasses => absurd rfl hpasses, fun hall => ?_⟩
        obtain ⟨earlier, hmem, -⟩ := hall [] first visits rfl hhazardous
        cases hmem

/-- No visit is refused or hazardous. -/
def Passes (visits : List Visit) : Prop :=
  ∀ visit ∈ visits, ¬snapshot.Refused visit ∧ ¬snapshot.Hazardous visit

theorem judgeAll_eq_passes_iff (visits : List Visit) :
    snapshot.judgeAll visits = .passes ↔ snapshot.Passes visits := by
  induction visits with
  | nil => simp [judgeAll, Passes]
  | cons visit visits ih =>
      rw [judgeAll]
      rcases snapshot.judge_cases visit with
        ⟨hjudge, hrefused, hhazardous⟩ | ⟨⟨error, hjudge⟩, hrefused, hhazardous⟩ |
          ⟨hjudge, hrefused, hhazardous⟩
      · have hpass : (Verdict.passes).andThen (snapshot.judgeAll visits) =
            snapshot.judgeAll visits := rfl
        rw [hjudge, hpass, ih]
        simp [Passes, hrefused, hhazardous]
      · rw [hjudge]
        apply iff_of_false
        · intro hstop
          cases hstop
        · exact fun hpasses => (hpasses visit List.mem_cons_self).1 hrefused
      · rw [hjudge]
        apply iff_of_false
        · intro hstop
          cases hstop
        · exact fun hpasses => (hpasses visit List.mem_cons_self).2 hhazardous

/-- An error is answered for a refused visit. -/
theorem exists_refused_of_judgeAll {visits : List Visit} {error : GqlException}
    (hanswered : snapshot.judgeAll visits = .answered error) :
    ∃ visit ∈ visits, snapshot.Refused visit := by
  induction visits with
  | nil => cases hanswered
  | cons visit visits ih =>
      rw [judgeAll] at hanswered
      rcases snapshot.judge_cases visit with
        ⟨hjudge, -, -⟩ | ⟨-, hrefused, -⟩ | ⟨hjudge, -, -⟩
      · rw [hjudge] at hanswered
        obtain ⟨later, hmem, hrefused⟩ := ih hanswered
        exact ⟨later, List.mem_cons_of_mem _ hmem, hrefused⟩
      · exact ⟨visit, List.mem_cons_self, hrefused⟩
      · rw [hjudge] at hanswered
        cases hanswered

end Snapshot

end ObmcWebapp.Graphql
