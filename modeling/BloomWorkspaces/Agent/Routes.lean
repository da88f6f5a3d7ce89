import BloomWorkspaces.Agent.GuestProtocol
import BloomWorkspaces.Jobs.StructuredJobSpec
import BloomWorkspaces.Library.UriComponent

/-!
# The routes of the node agent

How the agent finds the handler of a request, the parameters in its path and the fields of its query:
the router of express with its pattern syntax, and `querystring.parse`.
-/

namespace Bloom

inductive WireMethod
  | get
  | post
  | put
  | delete
  deriving DecidableEq, Repr

/-- The request line that the agent reads. The target has no fragment. -/
structure WireRequest where
  method : WireMethod
  target : JsText
  deriving DecidableEq

namespace AgentRouter

/-- The handlers of `startAgent`, in the order in which they are registered. -/
inductive Endpoint
  | health
  | create
  | status
  | stop
  | listFiles
  | readFile
  | writeFile
  | deleteFile
  | destroyVolume
  | startJob
  | jobStatus
  | cancelJob
  | bloomStatus
  | connections
  | ceremonyPending
  | ceremonyApprove
  | issueSsh
  | revokeSsh
  deriving DecidableEq, Repr

/-- A part of the pattern of a route. -/
inductive PathPart
  | literal (text : JsText)
  | param

structure Route where
  method : WireMethod
  path : List PathPart
  endpoint : Endpoint

def literal (text : String) : PathPart := .literal (jsText text)

def routes : List Route :=
  [⟨.get, [literal "v1", literal "health"], .health⟩,
   ⟨.post, [literal "v1", literal "workspaces"], .create⟩,
   ⟨.get, [literal "v1", literal "workspaces", .param], .status⟩,
   ⟨.delete, [literal "v1", literal "workspaces", .param], .stop⟩,
   ⟨.get, [literal "v1", literal "workspaces", .param, literal "files"], .listFiles⟩,
   ⟨.get, [literal "v1", literal "workspaces", .param, literal "files", literal "content"], .readFile⟩,
   ⟨.put, [literal "v1", literal "workspaces", .param, literal "files"], .writeFile⟩,
   ⟨.delete, [literal "v1", literal "workspaces", .param, literal "files"], .deleteFile⟩,
   ⟨.delete, [literal "v1", literal "volumes", .param], .destroyVolume⟩,
   ⟨.post, [literal "v1", literal "workspaces", .param, literal "jobs"], .startJob⟩,
   ⟨.get, [literal "v1", literal "workspaces", .param, literal "jobs", .param], .jobStatus⟩,
   ⟨.delete, [literal "v1", literal "workspaces", .param, literal "jobs", .param], .cancelJob⟩,
   ⟨.get, [literal "v1", literal "workspaces", .param, literal "bloom"], .bloomStatus⟩,
   ⟨.get, [literal "v1", literal "workspaces", .param, literal "connections"], .connections⟩,
   ⟨.get, [literal "v1", literal "workspaces", .param, literal "ceremony"], .ceremonyPending⟩,
   ⟨.post, [literal "v1", literal "workspaces", .param, literal "ceremony", .param, literal "approve"],
    .ceremonyApprove⟩,
   ⟨.post, [literal "v1", literal "workspaces", .param, literal "connections", literal "ssh"], .issueSsh⟩,
   ⟨.delete, [literal "v1", literal "workspaces", .param, literal "connections", literal "ssh", .param],
    .revokeSsh⟩]

/-! ### The path -/

/-- Literals are compared without regard to the case of ASCII letters. -/
def lowerUnit (u : UInt16) : UInt16 := if 65 ≤ u ∧ u ≤ 90 then u + 32 else u

/-- A pattern and the segments of a path; a parameter takes one segment that is not empty, and a slash may
stand at the end. -/
def matchParts : List PathPart → List JsText → Option (List JsText)
  | [], [] => some []
  | [], [last] => if last = [] then some [] else none
  | .literal text :: parts, segment :: segments =>
    if segment.map lowerUnit = text.map lowerUnit then matchParts parts segments else none
  | .param :: parts, segment :: segments =>
    if segment = [] then none else (matchParts parts segments).map (segment :: ·)
  | _, _ => none

/-- What follows the slash at the start, by slashes. -/
def pathSegments (pathname : JsText) : Option (List JsText) :=
  match pathname.splitOn JsText.slash with
  | [] :: segments => some segments
  | _ => none

/-! ### The query -/

/-- `unescapeBuffer` -/
def unescapeBuffer : JsText → List UInt8
  | 37 :: a :: b :: rest =>
    match UriComponent.escapedByte a b with
    | some byte => byte :: unescapeBuffer rest
    | none => 37 :: unescapeBuffer (a :: b :: rest)
  | u :: rest => UInt8.ofNat u.toNat :: unescapeBuffer rest
  | [] => []

/-- `querystring.unescape` -/
def unescape (text : JsText) : JsText :=
  (UriComponent.decode text).getD (Utf16.encode (Utf8.toText (unescapeBuffer text)))

def plusToSpace (text : JsText) : JsText := text.map fun u => if u = 43 then 32 else u

/-- A field without `=` has an empty value. -/
def parseField (field : JsText) : JsText × JsText :=
  (unescape (plusToSpace (field.takeWhile (· ≠ 61))),
    unescape (plusToSpace (field.dropWhile (· ≠ 61)).tail))

/-- `querystring.parse` -/
def parseQuery (query : JsText) : List (JsText × JsText) :=
  (((query.splitOn 38).filter (· ≠ [])).take 1000).map parseField

/-! ### Dispatch -/

/-- What the handler of a request reads from its target. -/
structure Handled where
  endpoint : Endpoint
  params : List JsText
  query : List (JsText × JsText)
  deriving DecidableEq

inductive Routed
  | handled (h : Handled)
  | badRequest
  | notFound
  deriving DecidableEq

/-- The routes are tried in order. One whose path matches but has a parameter without a decoding is an
error, and no route after it is taken. -/
def dispatch (method : WireMethod) (segments : List JsText) (query : List (JsText × JsText)) :
    Bool → List Route → Routed
  | failed, [] => if failed then .badRequest else .notFound
  | failed, route :: routes =>
    match matchParts route.path segments with
    | none => dispatch method segments query failed routes
    | some raw =>
      match raw.mapM UriComponent.decode with
      | none => dispatch method segments query true routes
      | some params =>
        if failed = false ∧ route.method = method then .handled ⟨route.endpoint, params, query⟩
        else dispatch method segments query failed routes

/-- The handling of a request that carries the token of the agent. -/
def route (request : WireRequest) : Routed :=
  match pathSegments (request.target.takeWhile (· ≠ 63)) with
  | some segments =>
    dispatch request.method segments (parseQuery (request.target.dropWhile (· ≠ 63)).tail) false routes
  | none => .notFound

end AgentRouter

end Bloom
