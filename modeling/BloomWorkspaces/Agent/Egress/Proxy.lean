import BloomWorkspaces.Agent.Egress.Policy

/-!
# Connections of the egress proxy

The options with which the proxy connects to an approved destination, for a plain HTTP request and
for a tunnel. Both dial the approved address, and the hostname only appears in the Host header.
-/

namespace Bloom

/-- `IncomingHttpHeaders` in order; a repeated header may have several values. -/
abbrev Headers := List (List Char × List (List Char))

structure HttpRequest where
  method : Option (List Char)
  headers : Headers

structure RequestUrl where
  pathname : List Char
  search : List Char

structure RequestOptions where
  protocol : List Char
  host : List Char
  family : ℕ
  port : ℤ
  method : Option (List Char)
  path : List Char
  headers : Headers
  agent : Bool

structure ConnectOptions where
  host : List Char
  port : ℤ
  family : ℕ

/-- The characters that `trim` removes. -/
def isJsSpace (c : Char) : Bool :=
  c.toNat ∈ [9, 10, 11, 12, 13, 32, 160, 5760, 8232, 8233, 8239, 8287, 12288, 65279] ||
    (8192 ≤ c.toNat && c.toNat ≤ 8202)

def trim (text : List Char) : List Char :=
  ((text.dropWhile isJsSpace).reverse.dropWhile isJsSpace).reverse

def hopByHop : List (List Char) := [
  "connection".toList,
  "keep-alive".toList,
  "proxy-authenticate".toList,
  "proxy-authorization".toList,
  "proxy-connection".toList,
  "te".toList,
  "trailer".toList,
  "transfer-encoding".toList,
  "upgrade".toList]

namespace Headers

def get (headers : Headers) (name : List Char) : Option (List (List Char)) := headers.lookup name

/-- Assign a property: a header that exists keeps its place. -/
def set (name value : List Char) : Headers → Headers
  | [] => [(name, [value])]
  | header :: rest => if header.1 = name then (name, [value]) :: rest else header :: set name value rest

end Headers

/-- The headers that the request names in its `connection` header. -/
def connectionTokens (headers : Headers) : List (List Char) :=
  (((headers.get "connection".toList).getD [[]]).flatMap (·.splitOn ',')).map
    fun value => Ascii.toLower (trim value)

def hostHeader (destination : ApprovedDestination) : List Char :=
  if destination.port = 80 then destination.hostname
  else destination.hostname ++ ':' :: (toString destination.port).toList

def sanitizeHeaders (headers : Headers) (destination : ApprovedDestination) : Headers :=
  let sanitized := headers.filter fun header =>
    Ascii.toLower header.1 ∉ hopByHop && Ascii.toLower header.1 ∉ connectionTokens headers &&
      Ascii.toLower header.1 ≠ "host".toList
  Headers.set "via".toList "1.1 bloom-egress".toList
    (Headers.set "host".toList (hostHeader destination) sanitized)

def createHttpUpstreamOptions (destination : ApprovedDestination) (request : HttpRequest)
    (url : RequestUrl) : RequestOptions where
  protocol := "http:".toList
  host := destination.address
  family := destination.family
  port := destination.port
  method := request.method
  path := url.pathname ++ url.search
  headers := sanitizeHeaders request.headers destination
  agent := false

def createConnectOptions (destination : ApprovedDestination) : ConnectOptions where
  host := destination.address
  port := destination.port
  family := destination.family

/-! ### The Host header -/

namespace Headers

lemma get_set (name value : List Char) (headers : Headers) :
    (headers.set name value).get name = some [value] := by
  induction headers with
  | nil => simp [set, get]
  | cons header rest ih =>
    by_cases hname : header.1 = name
    · simp [set, get, hname]
    · have hne : (name == header.1) = false := by simpa using Ne.symm hname
      rw [set, if_neg hname, get, List.lookup_cons, hne]
      exact ih

lemma get_set_of_ne {name other : List Char} (h : other ≠ name) (value : List Char)
    (headers : Headers) : (headers.set other value).get name = headers.get name := by
  have hother : (name == other) = false := by simpa using Ne.symm h
  induction headers with
  | nil => simp [set, get, Ne.symm h]
  | cons header rest ih =>
    by_cases hname : header.1 = other
    · rw [set, if_pos hname, get, get, List.lookup_cons, List.lookup_cons, hother, hname, hother]
    · rw [set, if_neg hname, get, get, List.lookup_cons, List.lookup_cons]
      cases name == header.1 with
      | true => rfl
      | false => exact ih

end Headers

lemma sanitizeHeaders_host (headers : Headers) (destination : ApprovedDestination) :
    (sanitizeHeaders headers destination).get "host".toList = some [hostHeader destination] := by
  have hne : "via".toList ≠ "host".toList := by decide
  rw [sanitizeHeaders, Headers.get_set_of_ne hne, Headers.get_set]

/-! ### Approved destinations -/

/-- What `approve` promises about a destination. -/
structure Approved (domainToASCII : List Char → List Char) (options : EgressPolicyOptions)
    (port : JsNumber) (protocol : EgressProtocol) (answers : List ResolvedAddress)
    (destination : ApprovedDestination) : Prop where
  not_ip : isIP destination.hostname = 0
  allowlisted : ∃ pattern ∈ options.allowedHosts.getD [],
    MatchesPattern domainToASCII destination.hostname pattern
  port_eq : port = some destination.port
  port_allowed : port ∈ options.ports protocol
  public_answers : ∀ answer ∈ answers, isIP answer.address = answer.family ∧
    isPublicAddress answer.address = true
  answer_mem : destination.toResolvedAddress ∈ answers
  connect_host : (createConnectOptions destination).host = destination.address ∧
    isPublicAddress (createConnectOptions destination).host = true
  http_host : ∀ request url,
    (createHttpUpstreamOptions destination request url).host = destination.address ∧
      isPublicAddress (createHttpUpstreamOptions destination request url).host = true ∧
      (createHttpUpstreamOptions destination request url).headers.get "host".toList =
        some [hostHeader destination]

/-- Whatever the resolver answers, an approved destination is allowlisted, every address it could be
dialled at is public, and it is dialled at the approved one. -/
theorem approve_ok {domainToASCII : List Char → List Char} {options : EgressPolicyOptions}
    {policy : EgressPolicy} {host : List Char} {port : JsNumber} {protocol : EgressProtocol}
    {answers : List ResolvedAddress} {destination : ApprovedDestination}
    (hpolicy : EgressPolicy.new domainToASCII options = .ok policy)
    (h : policy.approve domainToASCII host port protocol (some answers) = .ok destination) :
    Approved domainToASCII options port protocol answers destination := by
  obtain ⟨hpatterns, hports⟩ := new_ok hpolicy
  obtain ⟨hostname, number, approved, hnormal, hip, ⟨parsed, hparsed, hmatch⟩, hvalid, hport,
    hanswers, rfl⟩ := EgressPolicy.approve_cases h
  obtain ⟨-, -, hlabels, -⟩ := normalizeHostname_ok hnormal
  obtain ⟨hmem, hpublic⟩ := approveAnswers_ok hanswers
  obtain ⟨pattern, hpattern, hparse⟩ := hpatterns parsed hparsed
  have hhost : isPublicAddress approved.address = true := (hpublic approved hmem).2
  constructor
  · exact hip
  · exact ⟨pattern, hpattern, matchesPattern_of_hostMatches hparse hlabels hmatch⟩
  · exact (validatePort_ok hvalid).1
  · rw [← hports]
    exact hport
  · exact hpublic
  · exact hmem
  · exact ⟨rfl, hhost⟩
  · exact fun request url => ⟨rfl, hhost, sanitizeHeaders_host _ _⟩

def registryOptions : EgressPolicyOptions := ⟨some ["*.npmjs.org".toList], none, none, none⟩

def registryAnswers : List ResolvedAddress :=
  [⟨"104.16.24.34".toList, 4⟩, ⟨"2606:4700::6810:1822".toList, 6⟩]

/-- A registry below a wildcard, with two public answers. -/
theorem approve_ok_registry : ∃ policy destination,
    EgressPolicy.new id registryOptions = .ok policy ∧
    policy.approve id "registry.npmjs.org".toList (some 443) .connect (some registryAnswers) =
      .ok destination ∧
    Approved id registryOptions (some 443) .connect registryAnswers destination := by
  have hrun : (match EgressPolicy.new id registryOptions with
      | .error _ => false
      | .ok policy => (policy.approve id "registry.npmjs.org".toList (some 443) .connect
          (some registryAnswers)).isOk) = true := by
    decide +kernel
  split at hrun
  · cases hrun
  · rename_i policy hpolicy
    cases happroved : policy.approve id "registry.npmjs.org".toList (some 443) .connect
        (some registryAnswers) with
    | error failure =>
      rw [happroved] at hrun
      cases hrun
    | ok destination => exact ⟨policy, destination, hpolicy, happroved, approve_ok hpolicy happroved⟩

end Bloom
