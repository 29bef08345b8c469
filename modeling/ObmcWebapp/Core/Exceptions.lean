/-
# Exceptions and hard failures

`Exception` lists what the program throws, with the payload of each class.
`Failure` adds the ends that no handler sees: a null pointer is dereferenced, the
language leaves undefined what happens, the call stack is used up, or an exception
leaves a destructor or a thread and the process is terminated.
-/

import ObmcWebapp.Core.Json

namespace ObmcWebapp.Core

/-- `GqlException` and its subclasses, with the arguments of their constructors. -/
inductive GqlException
  | invalidArgument (arg desc : String)
  | internalError (error : String)
  | notSupported (entity : String)
  | astError (error : String)
  deriving DecidableEq, Repr

namespace GqlException

/-- `addField` on the error object. -/
def addField (field data : String) (error : List (String × Json)) : List (String × Json) :=
  Entries.emplace field (.string data) error

/-- The constructor of the base class. -/
def base (target description : String) : List (String × Json) :=
  addField "Description" description (addField "Target" target [])

/-- The JSON object that `whatJson` returns. -/
def whatJson : GqlException → Json
  | invalidArgument arg desc => .object (addField "Argument" arg (base "Invalid Argument" desc))
  | internalError error => .object (base "Graphql internal impelenetation error" error)
  | notSupported entity =>
      .object (addField "Operation" entity (base "Operation" "Not Supported"))
  | astError error => .object (addField "AST" error (base "GraphQL" "GraphQL AST error"))

end GqlException

/-- What the program throws. `jsonType` is the `type_error` of the JSON library and
`dbus` any exception of the D-Bus library. -/
inductive Exception
  | obmcApp (what : String)
  | notImplemented (target : String)
  | invalidType (member : String)
  | entity (what : String)
  | gql (error : GqlException)
  | outOfRange
  | invalidArgument (what : String)
  | logicError (what : String)
  | badVariantAccess
  | jsonType (what : String)
  | dbus (what : String)
  deriving DecidableEq, Repr

/-- What the program does that has no defined behaviour. -/
inductive Undefined
  /-- `back()` of an empty container. -/
  | emptyBack
  /-- A reference is read after its object was destroyed. -/
  | destroyedName
  /-- A buffer is read past its end for a terminating NUL. -/
  | overRead
  deriving DecidableEq, Repr

/-- How an evaluation ends without a value. Only `raised` can be handled. -/
inductive Failure
  | raised (exception : Exception)
  | nullDereference
  | undefinedBehaviour (cause : Undefined)
  | stackExhausted
  | terminated
  deriving DecidableEq, Repr

/-- The failure leaves no doubt about what the program has done. -/
def Failure.Defined : Failure → Prop
  | undefinedBehaviour _ => False
  | _ => True

instance : DecidablePred Failure.Defined
  | .raised _ => .isTrue trivial
  | .nullDereference => .isTrue trivial
  | .undefinedBehaviour _ => .isFalse id
  | .stackExhausted => .isTrue trivial
  | .terminated => .isTrue trivial

end ObmcWebapp.Core
