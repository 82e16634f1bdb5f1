import Pooler.Spec.Text

/-! Route plans: what a route's match declaration compiles to, and the conflict check over the
compiled routes. -/

namespace Pooler

open Lib

/-- What the router takes from the `http` crate: which methods and header names it accepts, how it
parses an authority, and which header values it can read as text. -/
structure HttpCrate where
  validMethod : Text → Bool
  validMethod_get : validMethod "GET".toList = true
  headerName : String → Option String
  parseAuthority : Text → Option (Text × Option ℕ)
  HeaderValue : Type
  toStr : HeaderValue → Option Text

structure SourceLabel where
  source : String
  (line column : Option ℕ)
  path : String
  deriving DecidableEq

inductive ConfigError where
  | invalid (label : SourceLabel) (message : String)
  | routeConflict (firstRoute : String) (first : SourceLabel) (secondRoute : String) (second : SourceLabel)
  deriving DecidableEq

/-! ### Paths -/

variable (value : Text)

def validPath : Bool := value.head? = some '/' && !value.contains '?'

/-- A path without a query. -/
structure RoutePath where
  text : Text
  valid : validPath text = true
  deriving DecidableEq

/-- `is_template_segment` of the compiler: a parameter name in braces. -/
def isTemplateSegment (segment : Text) : Bool :=
  segment.length > 2 && segment.head? = some '{' && segment.getLast? = some '}' &&
    segment.tail.dropLast.all (fun c => c.isAlphanum || c = '_' || c = '-')

def segments (path : Text) : List Text := path.splitOn '/'

def validTemplate (path : Text) : Bool :=
  (segments path).tail.all (fun segment => !(segment.contains '{' || segment.contains '}') || isTemplateSegment segment)

/-- A path whose braces all belong to parameters. -/
structure TemplatePath extends RoutePath where
  template : validTemplate text = true
  deriving DecidableEq

inductive PathPattern where
  | exact (path : RoutePath)
  | template (path : TemplatePath)
  | pathPrefix (path : RoutePath)
  | any
  deriving DecidableEq

def PathPattern.specificity : PathPattern → ℕ
  | .exact _ => 3
  | .template _ => 2
  | .pathPrefix _ => 1
  | .any => 0

variable (label : SourceLabel)

def makePath : Except ConfigError RoutePath :=
  if h : validPath (trim value) = true then .ok ⟨trim value, h⟩
  else .error (.invalid label "route path must be absolute and query-free")

/-- `valid_template_path`. -/
def makeTemplatePath : Except ConfigError TemplatePath := do
  let path ← makePath value label
  if h : validTemplate path.text = true then .ok ⟨path, h⟩
  else .error (.invalid label "route path template contains an invalid parameter")

/-! ### Content types -/

def isTokenChar (c : Char) : Bool := c.isAlphanum || "!#$%&'*+-.^_`|~".toList.contains c

def wellFormedMediaType : Bool :=
  match splitOnce '/' value with
  | none => false
  | some (mediaType, subtype) =>
    !(value.isEmpty || value.any isControl || value.any isWhitespace || value.count '/' ≠ 1 ||
      mediaType.isEmpty || subtype.isEmpty ||
      (mediaType ≠ ['*'] && !mediaType.all isTokenChar) ||
      (subtype ≠ ['*'] && !subtype.all isTokenChar))

/-- Only a whole range may leave the type open. -/
def wildcardAllowed : Bool :=
  match splitOnce '/' value with
  | none => false
  | some (mediaType, subtype) => !(mediaType = ['*'] && subtype ≠ ['*'])

/-- What stands before the parameters, trimmed and in lower case. -/
def normalizeContentType : Text := lowercase (trim (value.takeWhile (· ≠ ';')))

/-- A media type or a media range, in lower case. -/
structure MediaType where
  text : Text
  lower : lowercase text = text
  wellFormed : wellFormedMediaType text = true
  wildcard : wildcardAllowed text = true
  deriving DecidableEq

/-- `normalize_content_type` of the compiler. -/
def makeMediaType : Except ConfigError MediaType :=
  if hw : wellFormedMediaType (normalizeContentType value) = true then
    if hs : wildcardAllowed (normalizeContentType value) = true then
      .ok ⟨normalizeContentType value, by simp [normalizeContentType, lowercase], hw, hs⟩
    else .error (.invalid label "content type wildcard must be */* or type/*")
  else .error (.invalid label "content type must be a valid media type")

/-! ### Matchers -/

/-- A match declaration as it stands in the configuration. -/
structure MatchConfig where
  methods : List Text := []
  (method host path pathTemplate pathPrefix : Option Text := none)
  headers : Table String Text := ∅
  contentTypes : List Text := []
  websocket : Option Bool := none

variable (http : HttpCrate)

/-- A method in its canonical spelling. -/
structure RouteMethod where
  text : Text
  upper : uppercase text = text
  valid : http.validMethod text = true
  deriving DecidableEq

structure MatchPlan where
  methods : List (RouteMethod http)
  host : Option Text
  path : PathPattern
  headers : Table String Text
  contentTypes : List MediaType
  websocket : Option Bool

def normalizeAuthority (value : Text) : Option (Text × Option ℕ) :=
  (http.parseAuthority (trim value)).map (fun (host, port) => (lowercase (host.rdropWhile (· = '.')), port))

def canonicalAuthority (value : Text) : Option Text :=
  (normalizeAuthority http value).map (fun (host, port) =>
    match port with
    | none => host
    | some port => host ++ ':' :: (Nat.repr port).toList)

def makeMethod (value : Text) (label : SourceLabel) : Except ConfigError (RouteMethod http) :=
  if h : http.validMethod (uppercase (trim value)) = true then
    .ok ⟨uppercase (trim value), by simp [uppercase], h⟩
  else .error (.invalid label "invalid route method")

def compilePath (declaration : MatchConfig) (label : SourceLabel) : Except ConfigError PathPattern :=
  if declaration.path.toList.length + declaration.pathTemplate.toList.length +
      declaration.pathPrefix.toList.length > 1 then
    .error (.invalid label "choose only one route path matcher")
  else match declaration.path, declaration.pathTemplate, declaration.pathPrefix with
    | some path, _, _ => (makePath path label).map .exact
    | none, some path, _ => (makeTemplatePath path label).map .template
    | none, none, some path => (makePath path label).map .pathPrefix
    | none, none, none => .ok .any

def compileHost (host : Option Text) (label : SourceLabel) : Except ConfigError (Option Text) :=
  match host with
  | none => .ok none
  | some value =>
    match canonicalAuthority http value with
    | some canonical => .ok (some canonical)
    | none => .error (.invalid label "route host must be a valid HTTP authority")

/-- The headers in the order of their declared names; of two spellings of a name the later stands. -/
def compileHeaders (values : Table String Text) (label : SourceLabel) : Except ConfigError (Table String Text) :=
  values.toList.foldlM (fun headers (name, value) =>
    match http.headerName name with
    | none => .error (.invalid label "invalid route header name")
    | some name =>
      if value.contains '\r' || value.contains '\n' then
        .error (.invalid label "route header contains a newline")
      else .ok (headers.insert name (trim value))) ∅

def compileMatch (declaration : MatchConfig) (label : SourceLabel) : Except ConfigError (MatchPlan http) := do
  let methods ← (declaration.methods ++ declaration.method.toList).mapM (makeMethod http · label)
  let path ← compilePath declaration label
  let host ← compileHost http declaration.host label
  let headers ← compileHeaders http declaration.headers label
  let contentTypes ← declaration.contentTypes.mapM (makeMediaType · label)
  .ok { methods := methods.eraseDups, host, path, headers
        contentTypes := contentTypes.eraseDups, websocket := declaration.websocket }

structure RoutePlan where
  (id listener : String)
  matcher : MatchPlan http
  priority : ℤ
  order : ℕ
  source : SourceLabel

variable {http}

def RoutePlan.headerSpecificity (r : RoutePlan http) : ℕ := r.matcher.headers.size

/-- The routes are of one listener and neither takes precedence. -/
def equalPrecedence (first second : RoutePlan http) : Bool :=
  first.listener = second.listener &&
    first.matcher.path.specificity = second.matcher.path.specificity &&
    first.headerSpecificity = second.headerSpecificity && first.priority = second.priority

/-! ### Overlap -/

def methodsOverlap (first second : List (RouteMethod http)) : Bool :=
  first.isEmpty || second.isEmpty || first.any (fun method => second.contains method)

variable (http) in
def authoritiesOverlap : Option Text → Option Text → Bool
  | some first, some second =>
    match normalizeAuthority http first, normalizeAuthority http second with
    | some (host1, port1), some (host2, port2) => host1 = host2 && (port1 = none || port2 = none || port1 = port2)
    | _, _ => false
  | _, _ => true

def boolsOverlap (first second : Option Bool) : Bool := first.isNone || second.isNone || first = second

def mapsOverlap (first second : Table String Text) : Bool :=
  first.toList.all (fun (key, value) => second[key]?.all (· = value)) &&
    second.toList.all (fun (key, value) => first[key]?.all (· = value))

def mediaTypesOverlap (first second : Text) : Bool :=
  match splitOnce '/' first, splitOnce '/' second with
  | some (firstType, firstSubtype), some (secondType, secondSubtype) =>
    if first = "*/*".toList || second = "*/*".toList then true
    else
      let firstWildcard := firstSubtype = ['*'] && firstType ≠ ['*']
      let secondWildcard := secondSubtype = ['*'] && secondType ≠ ['*']
      if firstWildcard || secondWildcard then firstType = secondType else first = second
  | _, _ => false

def contentTypesOverlap (first second : List MediaType) : Bool :=
  first.isEmpty || second.isEmpty || first.any (fun a => second.any (fun b => mediaTypesOverlap a.text b.text))

def prefixMatches (start path : Text) : Bool :=
  if start = ['/'] || path = start then true
  else if start.getLast? = some '/' then start.isPrefixOf path
  else (stripPrefix start path).any (fun remaining => remaining.head? = some '/')

/-- `is_template_segment` of the matcher, which takes any text in braces. -/
def isBracedSegment (segment : Text) : Bool :=
  segment.head? = some '{' && segment.getLast? = some '}' && segment.length > 2

def segmentMatches (template path : Text) : Bool := if isBracedSegment template then !path.isEmpty else template = path

def templateMatches (template path : Text) : Bool :=
  (segments template).length = (segments path).length &&
    ((segments template).zip (segments path)).all (fun (template, path) => segmentMatches template path)

def templateTemplatesOverlap (first second : Text) : Bool :=
  (segments first).tail.length = (segments second).tail.length &&
    ((segments first).tail.zip (segments second).tail).all (fun (first, second) =>
      first = second || isTemplateSegment first || isTemplateSegment second)

def templatePrefixOverlap (template start : Text) : Bool :=
  (segments start).tail.length ≤ (segments template).tail.length &&
    ((segments template).tail.zip (segments start).tail).all (fun (template, start) =>
      isTemplateSegment template || template = start)

def pathsOverlap : PathPattern → PathPattern → Bool
  | .any, _ | _, .any => true
  | .exact a, .exact b => a.text = b.text
  | .pathPrefix a, .pathPrefix b => prefixMatches a.text b.text || prefixMatches b.text a.text
  | .exact path, .pathPrefix start | .pathPrefix start, .exact path => prefixMatches start.text path.text
  | .template path, .pathPrefix start | .pathPrefix start, .template path => templatePrefixOverlap path.text start.text
  | .exact path, .template template | .template template, .exact path => templateMatches template.text path.text
  | .template a, .template b => templateTemplatesOverlap a.text b.text

def routesOverlap (first second : RoutePlan http) : Bool :=
  methodsOverlap first.matcher.methods second.matcher.methods &&
    authoritiesOverlap http first.matcher.host second.matcher.host &&
    pathsOverlap first.matcher.path second.matcher.path &&
    mapsOverlap first.matcher.headers second.matcher.headers &&
    contentTypesOverlap first.matcher.contentTypes second.matcher.contentTypes &&
    boolsOverlap first.matcher.websocket second.matcher.websocket

/-- `detect_conflicts`: every route against every later one, the first conflict is reported. -/
def detectConflicts : List (RoutePlan http) → Except ConfigError Unit
  | [] => .ok ()
  | first :: rest =>
    match rest.find? (fun second => equalPrecedence first second && routesOverlap first second) with
    | some second => .error (.routeConflict first.id first.source second.id second.source)
    | none => detectConflicts rest

def compareRoutes (first second : RoutePlan http) : Ordering :=
  (compare second.matcher.path.specificity first.matcher.path.specificity).then <|
    (compare second.headerSpecificity first.headerSpecificity).then <|
    (compare second.priority first.priority).then (compare first.order second.order)

/-- The last steps of `compile`: the routes are checked against each other and sorted. -/
def compileRoutes (routes : List (RoutePlan http)) : Except ConfigError (List (RoutePlan http)) := do
  detectConflicts routes
  .ok (routes.insertionSort fun first second => compareRoutes first second ≠ .gt)

end Pooler
