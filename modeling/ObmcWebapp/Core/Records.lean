/-
# Records of named fields

A record is written as an object with one member a field and is read member by member:
a member of the right type under the name of a field sets it, every other member is
skipped. What was written is read back, whatever the record held before.

The text between writing and reading is the JSON library's. Reading it back gives the
same values, but for integers: those that are not negative come back as unsigned.
-/

import ObmcWebapp.Core.Json

namespace ObmcWebapp.Core

namespace Json

mutual

/-- A value as it is read back from its text. -/
def reparsed : Json → Json
  | .numberInteger value =>
      if 0 ≤ value then .numberUnsigned value.toUInt64 else .numberInteger value
  | .array items => .array (reparsedItems items)
  | .object members => .object (reparsedMembers members)
  | other => other

def reparsedItems : List Json → List Json
  | [] => []
  | item :: items => item.reparsed :: reparsedItems items

def reparsedMembers : List (String × Json) → List (String × Json)
  | [] => []
  | (name, value) :: members => (name, value.reparsed) :: reparsedMembers members

end

theorem reparsedItems_eq_map (items : List Json) : reparsedItems items = items.map reparsed := by
  induction items with
  | nil => rfl
  | cons item items ih => rw [reparsedItems, ih, List.map_cons]

theorem reparsedMembers_eq_map (members : List (String × Json)) :
    reparsedMembers members = members.map fun member => (member.1, member.2.reparsed) := by
  induction members with
  | nil => rfl
  | cons member members ih => rw [reparsedMembers, ih, List.map_cons]

theorem reparsed_array (items : List Json) :
    (Json.array items).reparsed = .array (items.map reparsed) := by
  rw [reparsed, reparsedItems_eq_map]

theorem items_reparsed_object (members : List (String × Json)) :
    (Json.object members).reparsed.items =
      members.map fun member => (member.1, member.2.reparsed) := by
  rw [reparsed, reparsedMembers_eq_map]
  rfl

/-- A signed value is read back whatever its sign. -/
theorem getInt64?_reparsed (value : Int64) :
    (Json.numberInteger value).reparsed.getInt64? = some value := by
  rw [reparsed]
  split_ifs <;> rfl

end Json

/-- How the fields of a record are written and read. -/
structure RecordFormat (ρ τ : Type*) where
  fields : ρ → List (String × τ)
  read : ρ → String × Json → ρ
  toJson : τ → Json
  ofJson? : Json → Option τ
  /-- The names of the fields are the same in all records, and distinct. -/
  names : ∀ first second : ρ, (fields first).map Prod.fst = (fields second).map Prod.fst
  nodup : ∀ record : ρ, ((fields record).map Prod.fst).Nodup
  /-- A member sets the field of its name. -/
  fields_read : ∀ (record : ρ) (element : String × Json),
    fields (read record element) = (fields record).map fun field =>
      (field.1, if element.1 = field.1 then (ofJson? element.2).getD field.2 else field.2)
  ofJson?_toJson : ∀ value : τ, ofJson? (toJson value).reparsed = some value

namespace RecordFormat

variable {ρ τ : Type*} (format : RecordFormat ρ τ)

/-- The object with one member a field. -/
def write (record : ρ) : Json :=
  .ofMembers ((format.fields record).map fun field => (field.1, format.toJson field.2))

theorem items_write (record : ρ) :
    (format.write record).reparsed.items =
      (Entries.ofList ((format.fields record).map fun field =>
        (field.1, format.toJson field.2))).map fun member => (member.1, member.2.reparsed) :=
  Json.items_reparsed_object _

theorem lookup_items_write (record : ρ) (name : String) :
    (format.write record).reparsed.items.lookup name =
      ((format.fields record).lookup name).map fun value => (format.toJson value).reparsed := by
  rw [items_write, Entries.lookup_mapValue (fun _ value => Json.reparsed value),
    Entries.lookup_ofList, Entries.lookup_mapValue (fun _ value => format.toJson value),
    Option.map_map]
  rfl

theorem sorted_items_write (record : ρ) :
    Entries.Sorted (format.write record).reparsed.items := by
  rw [items_write]
  exact Entries.sorted_mapValue (fun _ value => Json.reparsed value) (Entries.sorted_ofList _)

theorem lookup_fields_read (record : ρ) (element : String × Json) (name : String) :
    (format.fields (format.read record element)).lookup name =
      ((format.fields record).lookup name).map fun value =>
        if element.1 = name then (format.ofJson? element.2).getD value else value := by
  rw [format.fields_read, Entries.lookup_mapValue fun field value =>
    if element.1 = field then (format.ofJson? element.2).getD value else value]

/-- What was written is read back. -/
theorem fields_readAll_write (start record : ρ) :
    format.fields ((format.write record).reparsed.items.foldl format.read start) =
      format.fields record := by
  apply Entries.eq_of_keys_of_lookup (format.names _ _) (format.nodup _)
  intro name
  have hother : ∀ (read : ρ) (element : String × Json), element.1 ≠ name →
      (format.fields (format.read read element)).lookup name = (format.fields read).lookup name := by
    intro read element hne
    simp [lookup_fields_read, hne]
  have hown : ∀ (read : ρ) (value : Json),
      (format.fields (format.read read (name, value))).lookup name =
        ((format.fields read).lookup name).map fun old => (format.ofJson? value).getD old := by
    intro read value
    simp [lookup_fields_read]
  rw [Entries.foldl_part name (fun read => (format.fields read).lookup name)
    (fun value old => old.map fun text => (format.ofJson? value).getD text)
    hother hown (format.sorted_items_write record) start, lookup_items_write]
  have hpresent : ((format.fields start).lookup name).isSome ↔
      ((format.fields record).lookup name).isSome := by
    rw [Entries.lookup_isSome_iff, Entries.lookup_isSome_iff, format.names start record]
  cases hfield : (format.fields record).lookup name with
  | none =>
      have hnone : (format.fields start).lookup name = none := by
        rw [← Option.not_isSome_iff_eq_none, hpresent, hfield]
        simp
      rw [hnone]
      rfl
  | some value =>
      obtain ⟨old, hold⟩ := Option.isSome_iff_exists.mp (hpresent.mpr (by simp [hfield]))
      simp [hold, format.ofJson?_toJson]

end RecordFormat

end ObmcWebapp.Core
