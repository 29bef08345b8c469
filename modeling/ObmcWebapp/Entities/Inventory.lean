/-
# The inventory queries

The queries of the server, the chassis, the baseboard and the relations. All but the
last find their objects by an inventory interface and share the properties of the asset
decorator; the relations are read from the object mapper itself.
-/

import ObmcWebapp.Entities.Queries

namespace ObmcWebapp.Entities

open ObmcWebapp.Core

namespace definitions

def fieldName : MemberName := "Name"
def fieldType : MemberName := "Type"
def fieldModel : MemberName := "Model"
def fieldManufacturer : MemberName := "Manufacturer"
def fieldSerialNumber : MemberName := "SerialNumber"
def fieldPartNumber : MemberName := "PartNumber"

end definitions

open definitions

namespace assets

def assetInterface : InterfaceName := "xyz.openbmc_project.Inventory.Decorator.Asset"

def propertyManufacturer : PropertyName := "Manufacturer"
def propertyModel : PropertyName := "Model"
def propertyPartNumber : PropertyName := "PartNumber"
def propertySerialNumber : PropertyName := "SerialNumber"

/-- The asset properties of an item with a model. -/
def properties : OrderedMap PropertyName MemberName :=
  OrderedMap.ofList
    [(propertyManufacturer, fieldManufacturer), (propertyModel, fieldModel),
      (propertySerialNumber, fieldSerialNumber), (propertyPartNumber, fieldPartNumber)]

end assets

/-- The query of an item that has a name, a type and the asset properties. -/
def itemQuery (itemInterface : InterfaceName) : DBusQuery where
  searchPropertiesMap := OrderedMap.ofList
    [(itemInterface, OrderedMap.ofList [("Name", fieldName), ("Type", fieldType)]),
      (assets.assetInterface, assets.properties)]
  formatters := OrderedMap.empty
  defaultFieldsValue := OrderedMap.empty

namespace Server

def chassisInterface : InterfaceName := "xyz.openbmc_project.Inventory.Item.Chassis"

/-- The `Server` query. -/
def query : DBusQuery := itemQuery chassisInterface

def entityQuery : EntityQuery where
  kind := .findObject none
  dbusQuery := query

end Server

namespace Baseboard

def boardInterface : InterfaceName := "xyz.openbmc_project.Inventory.Item.Board"

/-- The `Baseboard` query. -/
def query : DBusQuery := itemQuery boardInterface

def entityQuery : EntityQuery where
  kind := .findObject none
  dbusQuery := query

end Baseboard

namespace Chassis

def yadroInterface : InterfaceName := "com.yadro.Platform"

def namePropertyType : PropertyName := "ChassisType"
def namePropertyPartNumber : PropertyName := "ChassisPartNumber"

def chassisTypeOther : String := "Other"

def chassisTypesNames : OrderedMap String String := OrderedMap.ofList [("23", "Rack Mount")]

/-- `formatChassisType`: a known type gets its name, any other string the default one, and
a value that is not a string is rejected. -/
def formatChassisType : FormatterFn where
  onScalar _ value :=
    match value with
    | .string chassisType =>
        .ok (.string ((chassisTypesNames.find? chassisType).getD chassisTypeOther))
    | _ => .error (.invalidArgument "Invalid value type of ChassisType property")
  onComplex _ _ := .error (.invalidArgument "Invalid value type of ChassisType property")

/-- The `Chassis` query. -/
def query : DBusQuery where
  searchPropertiesMap := OrderedMap.ofList
    [(yadroInterface, OrderedMap.ofList
        [(namePropertyType, fieldType), (namePropertyPartNumber, fieldPartNumber)]),
      (assets.assetInterface, OrderedMap.ofList
        [(assets.propertyManufacturer, fieldManufacturer)])]
  formatters := OrderedMap.ofList [(namePropertyType, [formatChassisType])]
  defaultFieldsValue := OrderedMap.empty

def entityQuery : EntityQuery where
  kind := .findObject none
  dbusQuery := query

end Chassis

namespace Relation

def serviceName : ServiceName := "xyz.openbmc_project.ObjectMapper"
def interfaceName : InterfaceName := "xyz.openbmc_project.Association"
def namePropertyEndpoint : PropertyName := "endpoints"

/-- The `Relation` query. -/
def query : DBusQuery where
  searchPropertiesMap := OrderedMap.ofList
    [(interfaceName, OrderedMap.ofList [(namePropertyEndpoint, relations.fieldEndpoint)])]
  formatters := OrderedMap.empty
  defaultFieldsValue := OrderedMap.empty

def entityQuery : EntityQuery where
  kind := .introspectService serviceName
  dbusQuery := query

end Relation

end ObmcWebapp.Entities
