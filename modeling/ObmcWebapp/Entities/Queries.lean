/-
# Queries that create instances

A query reads the objects of the bus and creates one instance for each pair of
object and service. The finding query asks the mapper for the objects and then
each object for the properties of its interfaces; the introspecting query gets
everything from one service in one reply.

A failing mapper call, a formatter that rejects a value and a static field that
cannot be supplemented leave `process` as exceptions. A failing `GetAll` does not:
it is logged, and the instance goes without the properties it did not read.
-/

import ObmcWebapp.Core.Utils
import ObmcWebapp.Entities.Instance

namespace ObmcWebapp.Entities

open ObmcWebapp.Core definitions

abbrev ServiceName := String
abbrev ObjectPath := String

/-- What the bus answers while one query is processed. -/
structure BusReplies where
  getSubTree : Except Exception (List (ObjectPath × List (ServiceName × List InterfaceName)))
  /-- What is read of a `GetAll` reply, up to the exception that ends the call or the
  reading early. -/
  getAll : ServiceName → ObjectPath → InterfaceName → DBusPropertiesMap
  getManagedObjects : ServiceName →
    Except Exception (List (ObjectPath × List (InterfaceName × DBusPropertiesMap)))

/-- The two kinds of query. The finding one may be limited to a service. -/
inductive QueryKind
  | findObject (service : Option ServiceName)
  | introspectService (service : ServiceName)

structure EntityQuery where
  kind : QueryKind
  dbusQuery : DBusQuery
  supplementByStaticFields : DBusInstance → Except Exception DBusInstance := Except.ok

namespace EntityQuery

variable [StdHash]

/-- `queryProperties`: the exception is caught and logged. -/
def queryProperties (replies : BusReplies) (inst : DBusInstance) (interface : InterfaceName) :
    DBusPropertiesMap :=
  replies.getAll inst.serviceName inst.objectPath interface

/-- Turn a computation on an instance into its result. -/
def resulting (action : EStateM Exception DBusInstance PUnit) (inst : DBusInstance) :
    Except Exception DBusInstance :=
  match action inst with
  | .ok _ filled => .ok filled
  | .error exception _ => .error exception

/-- `createInstance`. -/
def createInstance (query : EntityQuery) (replies : BusReplies) (serviceName : ServiceName)
    (objectPath : ObjectPath) (interfaces : List InterfaceName) :
    Except Exception DBusInstance := do
  let filled ← interfaces.foldlM
    (fun inst interface =>
      resulting (DBusInstance.fillMembers interface (queryProperties replies inst interface)) inst)
    (DBusInstance.create serviceName objectPath query.dbusQuery)
  query.supplementByStaticFields filled

/-- `FindObjectDBusQuery::process`. -/
def processFindObject (query : EntityQuery) (service : Option ServiceName)
    (replies : BusReplies) : Except Exception (List DBusInstance) := do
  let mapperResponse ← replies.getSubTree
  let found := mapperResponse.flatMap fun object =>
    (object.2.filter fun info => service.all (· = info.1)).map fun info =>
      (object.1, info.1, info.2)
  found.mapM fun object => query.createInstance replies object.2.1 object.1 object.2.2

/-- `IntrospectServiceDBusQuery::process`. -/
def processIntrospectService (query : EntityQuery) (service : ServiceName)
    (replies : BusReplies) : Except Exception (List DBusInstance) := do
  let interfacesResponse ← replies.getManagedObjects service
  interfacesResponse.mapM fun object => do
    let filled ← object.2.foldlM
      (fun inst interface => resulting (DBusInstance.fillMembers interface.1 interface.2) inst)
      (DBusInstance.create service object.1 query.dbusQuery)
    query.supplementByStaticFields filled

/-- `process`. -/
def process (query : EntityQuery) (replies : BusReplies) :
    Except Exception (List DBusInstance) :=
  match query.kind with
  | .findObject service => query.processFindObject service replies
  | .introspectService service => query.processIntrospectService service replies

end EntityQuery

end ObmcWebapp.Entities
