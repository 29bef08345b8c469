/-
# JSON values

The part of the JSON library the program relies on: a value, the member
insertion of `push_back` on a two element initializer list, the assignment and
the insertion through `operator[]`, `back`, the iteration of `items()` and of a
range `for`, and the typed `get_ptr` accessors. An object keeps its members in
key order, as the underlying ordered map does, and `push_back` on an object
ignores a name that is already present.
-/

import Mathlib.Data.String.Basic
import ObmcWebapp.Library.OrderedMap

namespace ObmcWebapp.Core

/-- An IEEE double, kept as its bits: no operation of the program computes with
one. -/
structure Double where
  bits : UInt64
  deriving DecidableEq, Repr

inductive Json
  | null
  | boolean (value : Bool)
  | numberInteger (value : Int64)
  | numberUnsigned (value : UInt64)
  | numberFloat (value : Double)
  | string (value : String)
  | array (items : List Json)
  | object (members : List (String × Json))

namespace Json

/-- The library's name of the type a value has. -/
def typeName : Json → String
  | null => "null"
  | boolean _ => "boolean"
  | numberInteger _ | numberUnsigned _ | numberFloat _ => "number"
  | string _ => "string"
  | array _ => "array"
  | object _ => "object"

/-- The empty object. -/
def emptyObject : Json := object []

/-- The object with the listed members; of two members of one name the first
stays. -/
def ofMembers (members : List (String × Json)) : Json := object (Entries.ofList members)

/-- `push_back({name, value})`. Only an object takes the pair as a member; a null
value first becomes an array, and an array appends the pair as a nested array. -/
def pushBack (json : Json) (name : String) (value : Json) : Except String Json :=
  match json with
  | object members => .ok (object (Entries.emplace name value members))
  | null => .ok (array [array [string name, value]])
  | array items => .ok (array (items ++ [array [string name, value]]))
  | other => .error ("cannot use push_back() with " ++ other.typeName)

/-- `json[key] = value`. -/
def assign (json : Json) (key : String) (value : Json) : Except String Json :=
  match json with
  | object members => .ok (object (Entries.insertOrAssign key value members))
  | null => .ok (object [(key, value)])
  | other => .error ("cannot use operator[] with a string argument with " ++ other.typeName)

/-- `json[key].push_back({name, value})`: an absent key is first given null. -/
def pushBackAt (json : Json) (key name : String) (value : Json) : Except String Json :=
  match json with
  | object members => do
      let item ← ((members.lookup key).getD null).pushBack name value
      return object (Entries.insertOrAssign key item members)
  | null => do
      let item ← null.pushBack name value
      return object [(key, item)]
  | other => .error ("cannot use operator[] with a string argument with " ++ other.typeName)

/-- `back()` on an object or an array; there is none in an empty one. -/
def back? : Json → Option Json
  | object members => members.getLast?.map Prod.snd
  | array items => items.getLast?
  | _ => none

/-- `back() = value`. -/
def assignBack (json : Json) (value : Json) : Json :=
  match json with
  | object members =>
      object (members.dropLast ++ (members.getLast?.map fun member => (member.1, value)).toList)
  | array items => array (items.dropLast ++ (items.getLast?.map fun _ => value).toList)
  | other => other

/-- The values a range `for` visits. -/
def elements : Json → List Json
  | null => []
  | object members => members.map Prod.snd
  | array items => items
  | other => [other]

/-- The key and value pairs `items()` visits: an array is keyed by its indices and
a primitive is one item with an empty key. -/
def items : Json → List (String × Json)
  | null => []
  | object members => members
  | array items => items.mapIdx fun index item => (toString index, item)
  | other => [("", other)]

def getString? : Json → Option String
  | string value => some value
  | _ => none

def getBool? : Json → Option Bool
  | boolean value => some value
  | _ => none

/-- `get_ptr<int64_t*>` accepts both integer kinds and reads the stored bits as
signed. -/
def getInt64? : Json → Option Int64
  | numberInteger value => some value
  | numberUnsigned value => some value.toInt64
  | _ => none

/-- The member of an object under a name. -/
def member? (name : String) : Json → Option Json
  | object members => members.lookup name
  | _ => none

@[simp]
theorem pushBack_object (name : String) (value : Json) (members : List (String × Json)) :
    (object members).pushBack name value = .ok (object (Entries.emplace name value members)) := rfl

@[simp]
theorem assign_object (key : String) (value : Json) (members : List (String × Json)) :
    (object members).assign key value =
      .ok (object (Entries.insertOrAssign key value members)) := rfl

/-- Pushing under a key that holds an object inserts the member in that object. -/
theorem pushBackAt_object {key : String} {members held : List (String × Json)}
    (name : String) (value : Json) (hheld : members.lookup key = some (object held)) :
    (object members).pushBackAt key name value =
      .ok (object (Entries.insertOrAssign key
        (object (Entries.emplace name value held)) members)) := by
  simp [pushBackAt, hheld]

end Json

end ObmcWebapp.Core
