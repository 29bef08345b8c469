/-
# Field values and D-Bus values

A field of an instance holds one of ten scalar types. A D-Bus property holds a
scalar, a list of strings or of doubles, or a list of associations. The member
and provider names are those of `definitions.hpp`.
-/

import ObmcWebapp.Core.Exceptions

namespace ObmcWebapp.Entities

open ObmcWebapp.Core

abbrev MemberName := String
abbrev InterfaceName := String
abbrev PropertyName := String

/-- `IEntityMember::IInstance::FieldType`. -/
inductive FieldType
  | string (value : String)
  | int64 (value : Int64)
  | uint64 (value : UInt64)
  | double (value : Double)
  | int32 (value : Int32)
  | uint32 (value : UInt32)
  | int16 (value : Int16)
  | uint16 (value : UInt16)
  | uint8 (value : UInt8)
  | bool (value : Bool)
  deriving DecidableEq, Repr

namespace FieldType

/-- `std::get<std::string>`, which throws on any other alternative. -/
def getStringValue : FieldType → Except Exception String
  | string value => .ok value
  | _ => .error .badVariantAccess

/-- The JSON value a field is written as. -/
def toJson : FieldType → Json
  | string value => .string value
  | int64 value => .numberInteger value
  | uint64 value => .numberUnsigned value
  | double value => .numberFloat value
  | int32 value => .numberInteger value.toInt64
  | uint32 value => .numberUnsigned value.toUInt64
  | int16 value => .numberInteger value.toInt64
  | uint16 value => .numberUnsigned value.toUInt64
  | uint8 value => .numberUnsigned value.toUInt64
  | bool value => .boolean value

/-- `fieldValueNotAvailable`. -/
def notAvailable : FieldType := string "N/A"

theorem getStringValue_eq_ok_iff {value : FieldType} {text : String} :
    value.getStringValue = .ok text ↔ value = string text := by
  cases value <;> simp [getStringValue]

end FieldType

/-- One association: source, destination and endpoint. -/
abbrev DBusAssociation := String × String × String

/-- The property types that do not fit a field. -/
inductive ComplexVariant
  | associations (value : List DBusAssociation)
  | strings (value : List String)
  | doubles (value : List Double)
  deriving DecidableEq, Repr

/-- `DbusVariantType`. -/
inductive DbusVariant
  | scalar (value : FieldType)
  | complex (value : ComplexVariant)
  deriving DecidableEq, Repr

abbrev DBusPropertiesMap := OrderedMap PropertyName DbusVariant

namespace definitions

def metaObjectPath : MemberName := "__meta_field__object_path"
def metaObjectService : MemberName := "__meta_field__object_service"

namespace sensors
def fieldName : MemberName := "Name"
def fieldValue : MemberName := "Reading"
def fieldUnit : MemberName := "Unit"
def fieldLowCritical : MemberName := "LowCritical"
def fieldLowWarning : MemberName := "LowWarning"
def fieldHighWarning : MemberName := "HighWarning"
def fieldHightCritical : MemberName := "HighCritical"
end sensors

namespace relations
def fieldAssociations : MemberName := "Associations"
def fieldEndpoint : MemberName := "Endpoint"
def fieldSource : MemberName := "Source"
def fieldDestination : MemberName := "Destination"
end relations

namespace status
def fieldStatus : MemberName := "Status"
def fieldObjectCauthPath : MemberName := "Causer"
end status

namespace version
def fieldVersion : MemberName := "Version"
def fieldPurpose : MemberName := "Purpose"
def fieldVersionBios : MemberName := "BiosVersion"
def fieldVersionBmc : MemberName := "BmcVersion"
end version

end definitions

end ObmcWebapp.Entities
