/-
# The bodies of requests

The body of a request is parsed while the connection still has it, before anyone is
authenticated. The parse of the JSON text and the one of the query report what they do
not accept by a value. Between the two the handler asks the parsed value for its query,
outside the handler of exceptions, and a value that is neither an object nor null raises
there. Nothing in the router or the connection catches it.

A body without a query is rejected, and logged as a C string from a buffer that nothing
terminates. The logger is always on, so unless the client put a NUL into the body the read
goes on behind the buffer. Of what is logged only this read is modelled.

The two parsers are parameters. Both read a C string, so that a body and a query end
before their first NUL.
-/

import ObmcWebapp.Graphql.Handler
import ObmcWebapp.Service.Authorization

namespace ObmcWebapp.Application

open ObmcWebapp.Core ObmcWebapp.Entities ObmcWebapp.Graphql ObmcWebapp.Service

/-- What a connection has of a request once the body is complete. -/
structure PostRequest where
  environment : Environment
  contentType : String
  postBuffer : List UInt8

/-- The parsers the handler calls. -/
structure BodyParsers where
  /-- `json::parse` with exceptions off; a discarded value is `none`. -/
  parse : List UInt8 → Option Json
  /-- `parseString`; a null document is `none`. -/
  parseString : String → Option Document
  /-- An empty text is no JSON. -/
  parse_empty : parse [] = none

/-- What `c_str()` shows of a buffer. -/
def cString (buffer : List UInt8) : List UInt8 := buffer.takeWhile (· ≠ 0)

/-- What `c_str()` shows of a string. -/
def cText (text : String) : String := String.ofList (text.toList.takeWhile (· ≠ '\x00'))

/-- `json[key]` as a value; an absent key is first given null. -/
def subscript (json : Json) (key : String) : Except String Json :=
  match json with
  | .object members => .ok ((members.lookup key).getD .null)
  | .null => .ok .null
  | other => .error ("cannot use operator[] with a string argument with " ++ other.typeName)

/-- The document a `GraphqlRouter` keeps for its run. -/
abbrev GqlNode := Option Document

/-- Log a body that is not accepted, from its first byte to a NUL. -/
def rejectBody (request : PostRequest) : EStateM Failure GqlNode Bool :=
  if 0 ∈ request.postBuffer then pure true else throw (.undefinedBehaviour .overRead)

/-- Parse the query, if it is a string, and keep the document. -/
def parseQuery (parsers : BodyParsers) (request : PostRequest) (query : Json) :
    EStateM Failure GqlNode Bool :=
  match query.getString? with
  | none => rejectBody request
  | some astData => fun _ => .ok true (parsers.parseString (cText astData))

/-- `GraphqlRouter::preHandlers`. -/
def preHandlers (parsers : BodyParsers) (request : PostRequest) : EStateM Failure GqlNode Bool :=
  if request.postBuffer.isEmpty then pure true
  else
    match parsers.parse (cString request.postBuffer) with
    | none => rejectBody request
    | some jsonData => jsonResult (subscript jsonData "query") >>= parseQuery parsers request

/-- The URIs a handler is registered for. -/
def routes : List String := ["/api/graphql"]

/-- `Router::preHandler`, on the handler the router has made. -/
def preHandler (parsers : BodyParsers) (request : PostRequest) :
    EStateM Failure (Option GqlNode) Bool := fun handler =>
  if handler.isNone && !routes.contains request.environment.requestUri then .ok true handler
  else
    Fallible.zoom (fun made => made.getD none) (fun gqlNode _ => some gqlNode)
      (preHandlers parsers request) handler

/-- `Request::validate`. -/
def validate (request : PostRequest) : Bool :=
  request.contentType ≠ "" && ["application/json", "text/plain"].contains request.contentType

/-- `Connection::inProcessor`, after `inHandler` made the request. -/
def inProcessor (parsers : BodyParsers) (request : PostRequest) :
    EStateM Failure (Option GqlNode) Bool :=
  if request.contentType = "" then pure false
  else if validate request then preHandler parsers request
  else pure false

/-- Whatever the handler fails with leaves the connection. -/
theorem inProcessor_raises {parsers : BodyParsers} {request : PostRequest} {failure : Failure}
    {gqlNode : GqlNode} (hvalid : validate request = true)
    (hroute : request.environment.requestUri ∈ routes)
    (hraises : preHandlers parsers request none = .error failure gqlNode) :
    inProcessor parsers request none = .error failure (some gqlNode) := by
  have hcontent : request.contentType ≠ "" := by
    intro hempty
    simp [validate, hempty] at hvalid
  have hregistered : routes.contains request.environment.requestUri = true :=
    List.contains_iff_mem.mpr hroute
  rw [inProcessor, if_neg hcontent, if_pos hvalid, preHandler, hregistered]
  simp [Fallible.zoom, hraises]

theorem preHandlers_of_nil {parsers : BodyParsers} {request : PostRequest}
    (hempty : request.postBuffer = []) : preHandlers parsers request = pure true := by
  rw [preHandlers, hempty]
  rfl

theorem isEmpty_eq_false {request : PostRequest} (hbuffer : request.postBuffer ≠ []) :
    request.postBuffer.isEmpty = false := by
  rwa [List.isEmpty_eq_false_iff]

theorem preHandlers_of_none {parsers : BodyParsers} {request : PostRequest}
    (hbuffer : request.postBuffer ≠ [])
    (hparse : parsers.parse (cString request.postBuffer) = none) :
    preHandlers parsers request = rejectBody request := by
  rw [preHandlers, isEmpty_eq_false hbuffer, hparse]
  rfl

theorem preHandlers_of_some {parsers : BodyParsers} {request : PostRequest} {value : Json}
    (hparse : parsers.parse (cString request.postBuffer) = some value) :
    preHandlers parsers request =
      jsonResult (subscript value "query") >>= parseQuery parsers request := by
  have hbuffer : request.postBuffer ≠ [] := by
    intro hempty
    rw [hempty, show cString [] = [] from rfl, parsers.parse_empty] at hparse
    cases hparse
  rw [preHandlers, isEmpty_eq_false hbuffer, hparse]
  rfl

/-- The body is an object with a string as its query. -/
def HasQuery (parsers : BodyParsers) (body : List UInt8) : Prop :=
  ∃ members query, parsers.parse (cString body) = some (.object members) ∧
    members.lookup "query" = some (.string query)

/-- The text of the body, if it is JSON at all, is an object or null. -/
def TakesKeys (parsers : BodyParsers) (body : List UInt8) : Prop :=
  ∀ value, parsers.parse (cString body) = some value →
    value.typeName = "object" ∨ value.typeName = "null"

/-- A body that takes keys and has no query is rejected. -/
theorem preHandlers_of_keys {parsers : BodyParsers} {request : PostRequest}
    (hbuffer : request.postBuffer ≠ []) (hkeys : TakesKeys parsers request.postBuffer)
    (hquery : ¬ HasQuery parsers request.postBuffer) :
    preHandlers parsers request = rejectBody request := by
  cases hparse : parsers.parse (cString request.postBuffer) with
  | none => exact preHandlers_of_none hbuffer hparse
  | some value =>
      rw [preHandlers_of_some hparse]
      cases value with
      | object members =>
          have hother : ((members.lookup "query").getD .null).getString? = none := by
            cases hlookup : members.lookup "query" with
            | none => rfl
            | some member =>
                cases member with
                | string query => exact absurd ⟨members, query, hparse, hlookup⟩ hquery
                | _ => rfl
          funext gqlNode
          show parseQuery parsers request ((members.lookup "query").getD .null) gqlNode = _
          rw [parseQuery, hother]
      | null => rfl
      | _ => simpa [Json.typeName] using hkeys _ hparse

/-- The query of a body is parsed. -/
theorem preHandlers_of_query {parsers : BodyParsers} {request : PostRequest}
    {members : List (String × Json)} {query : String}
    (hparse : parsers.parse (cString request.postBuffer) = some (.object members))
    (hquery : members.lookup "query" = some (.string query)) (gqlNode : GqlNode) :
    preHandlers parsers request gqlNode = .ok true (parsers.parseString (cText query)) := by
  rw [preHandlers_of_some hparse]
  show parseQuery parsers request ((members.lookup "query").getD .null) gqlNode = _
  rw [hquery]
  rfl

/-- A body of another type raises. -/
theorem preHandlers_raises {parsers : BodyParsers} {request : PostRequest} {value : Json}
    (hparse : parsers.parse (cString request.postBuffer) = some value)
    (hobject : value.typeName ≠ "object") (hnull : value.typeName ≠ "null") (gqlNode : GqlNode) :
    preHandlers parsers request gqlNode = .error (.raised (.jsonType
      ("cannot use operator[] with a string argument with " ++ value.typeName))) gqlNode := by
  have hsubscript : subscript value "query" =
      .error ("cannot use operator[] with a string argument with " ++ value.typeName) := by
    cases value with
    | object members => exact absurd rfl hobject
    | null => exact absurd rfl hnull
    | _ => rfl
  rw [preHandlers_of_some hparse, hsubscript]
  exact Fallible.bind_error (Fallible.throw_apply _ _)

variable [StdHash]

/-- The body is an object whose query parses. -/
def IsGqlBody (parsers : BodyParsers) (body : List UInt8) : Prop :=
  ∃ members query document, parsers.parse (cString body) = some (.object members) ∧
    members.lookup "query" = some (.string query) ∧
    parsers.parseString (cText query) = some document

/-- The run pushes an object with an error and nothing else. -/
def AnswersError (gqlNode : GqlNode) : Prop :=
  ∀ (library : AstLibrary) (depth : ℕ) (manager : EntityManager)
    (state : GraphqlRouter.Answering), ∃ error,
      GraphqlRouter.run library depth manager gqlNode state = .ok ⟨⟩ { state with
        response := (state.response.push
          (.object [(GraphqlRouter.respFieldError, error)])).setStatus .ok }

/-- The handler accepts the request, has a document exactly when the body is one, and
answers with an error when it is not. -/
def BodyHandled (parsers : BodyParsers) (request : PostRequest) : Prop :=
  ∃ gqlNode, preHandlers parsers request none = .ok true gqlNode ∧
    (gqlNode.isSome ↔ IsGqlBody parsers request.postBuffer) ∧
    (¬ IsGqlBody parsers request.postBuffer → AnswersError gqlNode)

/-- Without a document the run answers with an error. -/
theorem answersError_none : AnswersError none :=
  fun _ _ _ _ => ⟨_, rfl⟩

/-- A handler that is left without a document for a body that is none. -/
theorem bodyHandled_of_none {parsers : BodyParsers} {request : PostRequest}
    (haccepts : preHandlers parsers request none = .ok true none)
    (hquery : ¬ HasQuery parsers request.postBuffer) : BodyHandled parsers request := by
  refine ⟨none, haccepts, ?_, fun _ => answersError_none⟩
  refine ⟨fun hsome => absurd hsome Bool.false_ne_true, ?_⟩
  rintro ⟨members, query, document, hparse, hlookup, -⟩
  exact absurd ⟨members, query, hparse, hlookup⟩ hquery

/-- A body with a query is handled. -/
theorem bodyHandled_of_query {parsers : BodyParsers} {request : PostRequest}
    (hquery : HasQuery parsers request.postBuffer) : BodyHandled parsers request := by
  obtain ⟨members, query, hparse, hlookup⟩ := hquery
  have hgql : (parsers.parseString (cText query)).isSome ↔
      IsGqlBody parsers request.postBuffer := by
    rw [Option.isSome_iff_exists]
    constructor
    · rintro ⟨document, hdocument⟩
      exact ⟨members, query, document, hparse, hlookup, hdocument⟩
    · rintro ⟨own, text, document, hown, htext, hdocument⟩
      rw [hparse, Option.some.injEq, Json.object.injEq] at hown
      rw [← hown, hlookup, Option.some.injEq, Json.string.injEq] at htext
      rw [htext]
      exact ⟨document, hdocument⟩
  refine ⟨_, preHandlers_of_query hparse hlookup none, hgql, fun hnot => ?_⟩
  rw [← hgql, Option.not_isSome_iff_eq_none] at hnot
  rw [hnot]
  exact answersError_none

/-- What does no harm: an empty body, an object with a query, and a body with a NUL whose
text takes keys. -/
def Harmless (parsers : BodyParsers) (body : List UInt8) : Prop :=
  body = [] ∨ HasQuery parsers body ∨ 0 ∈ body ∧ TakesKeys parsers body

/-- The handler deals with exactly the harmless bodies, whoever sends them. -/
theorem bodies_handled_iff (parsers : BodyParsers) (request : PostRequest) :
    BodyHandled parsers request ↔ Harmless parsers request.postBuffer := by
  by_cases hquery : HasQuery parsers request.postBuffer
  · exact iff_of_true (bodyHandled_of_query hquery) (.inr (.inl hquery))
  by_cases hbuffer : request.postBuffer = []
  · refine iff_of_true (bodyHandled_of_none ?_ hquery) (.inl hbuffer)
    rw [preHandlers_of_nil hbuffer]
    rfl
  constructor
  · rintro ⟨gqlNode, haccepts, -⟩
    have hkeys : TakesKeys parsers request.postBuffer := by
      intro value hparse
      by_contra hother
      rw [not_or] at hother
      rw [preHandlers_raises hparse hother.1 hother.2] at haccepts
      cases haccepts
    rw [preHandlers_of_keys hbuffer hkeys hquery, rejectBody] at haccepts
    split_ifs at haccepts with hnul
    · exact .inr (.inr ⟨hnul, hkeys⟩)
    · cases haccepts
  · intro hharmless
    obtain ⟨hnul, hkeys⟩ := (hharmless.resolve_left hbuffer).resolve_left hquery
    refine bodyHandled_of_none ?_ hquery
    rw [preHandlers_of_keys hbuffer hkeys hquery, rejectBody, if_pos hnul]
    rfl

omit [StdHash] in
/-- Two bodies that anyone may send: an empty array raises through the connection, and a
text that is no JSON is read past its end. -/
theorem bodies_not_handled :
    let parsers : BodyParsers := {
      parse := fun text => if text = [91, 93] then some (.array []) else none
      parseString := fun _ => none
      parse_empty := rfl }
    let environment : Environment := {
      requestMethod := .post, others := OrderedMap.empty, cookies := [], authorization := "",
      userAgent := "", requestUri := "/api/graphql" }
    let request (postBuffer : List UInt8) : PostRequest :=
      ⟨environment, "application/json", postBuffer⟩
    let raised : Failure := .raised (.jsonType
      "cannot use operator[] with a string argument with array")
    (∀ hash : StdHash, ¬ @BodyHandled hash parsers (request [91, 93]) ∧
        ¬ @BodyHandled hash parsers (request [120])) ∧
      inProcessor parsers (request [91, 93]) none = .error raised (some none) ∧
      inProcessor parsers (request [120]) none =
        .error (.undefinedBehaviour .overRead) (some none) := by
  intro parsers environment request raised
  have hraises : preHandlers parsers (request [91, 93]) none = .error raised none := rfl
  have hoverRead : preHandlers parsers (request [120]) none =
      .error (.undefinedBehaviour .overRead) none := rfl
  refine ⟨fun hash => ⟨?_, ?_⟩, inProcessor_raises (by decide) (by decide) hraises,
    inProcessor_raises (by decide) (by decide) hoverRead⟩
  · rintro ⟨gqlNode, haccepts, -⟩
    rw [hraises] at haccepts
    cases haccepts
  · rintro ⟨gqlNode, haccepts, -⟩
    rw [hoverRead] at haccepts
    cases haccepts

end ObmcWebapp.Application
