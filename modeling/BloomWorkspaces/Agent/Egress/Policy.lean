import BloomWorkspaces.Agent.Egress.Address
import BloomWorkspaces.Library.JsNumber
import Mathlib.Data.List.Infix

/-!
# The egress policy

`EgressPolicy` decides which destinations a workspace may reach. `domainToASCII` of `node:url` is a
parameter; its result is ASCII, where lower case is character by character. The answer of the
resolver is an argument of `approve`.
-/

namespace Bloom

inductive EgressErrorCode
  | invalidAuthority
  | credentialsForbidden
  | ipLiteralForbidden
  | hostnameForbidden
  | portForbidden
  | dnsFailed
  | dnsEmpty
  | addressForbidden
  deriving DecidableEq, Repr

structure EgressPolicyError where
  code : EgressErrorCode
  message : String
  deriving DecidableEq, Repr

inductive EgressProtocol
  | http
  | connect
  deriving DecidableEq, Repr

structure ResolvedAddress where
  address : List Char
  family : ℕ
  deriving DecidableEq, Repr

structure ApprovedDestination extends ResolvedAddress where
  hostname : List Char
  port : ℤ
  protocol : EgressProtocol
  deriving DecidableEq, Repr

/-! ### Hostnames -/

def isLabelChar (c : Char) : Bool := c.isDigit || ('a' ≤ c && c ≤ 'z')

/-- `^[a-z0-9](?:[a-z0-9-]{0,61}[a-z0-9])?$` -/
def isLabel (label : List Char) : Bool :=
  1 ≤ label.length && label.length ≤ 63 && label.all (fun c => isLabelChar c || c = '-') &&
    label.head?.any isLabelChar && label.getLast?.any isLabelChar

def isLocalName (hostname : List Char) : Bool :=
  hostname = "localhost".toList || ".localhost".toList.isSuffixOf hostname ||
    ".local".toList.isSuffixOf hostname || ".internal".toList.isSuffixOf hostname ||
    hostname = "home.arpa".toList || ".home.arpa".toList.isSuffixOf hostname

def withoutFinalDot (input : List Char) : List Char :=
  if input.getLast? = some '.' then input.dropLast else input

/-- The labels of a hostname. -/
def labels (hostname : List Char) : List (List Char) := hostname.splitOn '.'

def normalizeHostname (domainToASCII : List Char → List Char) (input : List Char) :
    Except EgressPolicyError (List Char) :=
  let hostname := Ascii.toLower (domainToASCII (withoutFinalDot input))
  if hostname.length = 0 || 253 < hostname.length || ['.', '.'] <:+: hostname ||
      !(labels hostname).all isLabel then
    .error ⟨.invalidAuthority, "Malformed destination hostname"⟩
  else if isLocalName hostname then
    .error ⟨.hostnameForbidden, "Local destination names are forbidden"⟩
  else .ok hostname

structure HostPattern where
  hostname : List Char
  includeSubdomains : Bool
  deriving DecidableEq, Repr

def parseHostPattern (domainToASCII : List Char → List Char) (input : List Char) :
    Except EgressPolicyError HostPattern :=
  let includeSubdomains := ['*', '.'].isPrefixOf input
  match normalizeHostname domainToASCII (if includeSubdomains then input.drop 2 else input) with
  | .error failure => .error failure
  | .ok hostname => .ok ⟨hostname, includeSubdomains⟩

def hostMatches (hostname : List Char) (pattern : HostPattern) : Bool :=
  if pattern.includeSubdomains then
    pattern.hostname.length < hostname.length && ('.' :: pattern.hostname).isSuffixOf hostname
  else hostname = pattern.hostname

/-! ### The policy -/

structure EgressPolicyOptions where
  allowedHosts : Option (List (List Char))
  allowedHttpPorts : Option (List JsNumber)
  allowedConnectPorts : Option (List JsNumber)
  dnsTimeoutMs : Option JsNumber

/-- The ports that the options allow for a protocol. -/
def EgressPolicyOptions.ports (options : EgressPolicyOptions) : EgressProtocol → List JsNumber
  | .http => options.allowedHttpPorts.getD [some 80]
  | .connect => options.allowedConnectPorts.getD [some 443]

structure EgressPolicy where
  hostPatterns : List HostPattern
  httpPorts : List JsNumber
  connectPorts : List JsNumber
  dnsTimeoutMs : ℤ

/-- What the constructor throws. -/
inductive PolicyFailure
  | policy (error : EgressPolicyError)
  | plain (message : String)
  deriving DecidableEq, Repr

def validatePort (port : JsNumber) : Except EgressPolicyError ℤ :=
  match port with
  | none => .error ⟨.invalidAuthority, "Invalid destination port"⟩
  | some n =>
    if n < 1 ∨ 65535 < n then .error ⟨.invalidAuthority, "Invalid destination port"⟩ else .ok n

def validatePositiveInteger (value : JsNumber) (name : String) : Except PolicyFailure ℤ :=
  match value with
  | none => .error (.plain (name ++ " must be a positive integer"))
  | some n =>
    if n < 1 ∨ 2 ^ 53 ≤ n then .error (.plain (name ++ " must be a positive integer")) else .ok n

/-- The constructor of `EgressPolicy`. -/
def EgressPolicy.new (domainToASCII : List Char → List Char) (options : EgressPolicyOptions) :
    Except PolicyFailure EgressPolicy :=
  match (options.allowedHosts.getD []).mapM (parseHostPattern domainToASCII) with
  | .error failure => .error (.policy failure)
  | .ok hostPatterns =>
    match (options.ports .http ++ options.ports .connect).mapM validatePort with
    | .error failure => .error (.policy failure)
    | .ok _ =>
      match validatePositiveInteger (options.dnsTimeoutMs.getD (some 5000)) "dnsTimeoutMs" with
      | .error failure => .error failure
      | .ok dnsTimeoutMs =>
        .ok ⟨hostPatterns, options.ports .http, options.ports .connect, dnsTimeoutMs⟩

def EgressPolicy.ports (policy : EgressPolicy) : EgressProtocol → List JsNumber
  | .http => policy.httpPorts
  | .connect => policy.connectPorts

/-- The answers of the resolver in their order; the first unsafe one throws. -/
def checkAnswers : List ResolvedAddress → Except EgressPolicyError Unit
  | [] => .ok ()
  | answer :: rest =>
    if isIP answer.address ≠ answer.family || !isPublicAddress answer.address then
      .error ⟨.addressForbidden, "Destination DNS returned a non-public address"⟩
    else checkAnswers rest

/-- The second half of `approve`; the resolution is `none` when the lookup rejects or times out. -/
def approveAnswers (resolution : Option (List ResolvedAddress)) :
    Except EgressPolicyError ResolvedAddress :=
  match resolution with
  | none => .error ⟨.dnsFailed, "Destination DNS resolution failed"⟩
  | some [] => .error ⟨.dnsEmpty, "Destination DNS returned no addresses"⟩
  | some (approved :: rest) =>
    match checkAnswers (approved :: rest) with
    | .error failure => .error failure
    | .ok () => .ok approved

def EgressPolicy.approve (policy : EgressPolicy) (domainToASCII : List Char → List Char)
    (host : List Char) (port : JsNumber) (protocol : EgressProtocol)
    (resolution : Option (List ResolvedAddress)) : Except EgressPolicyError ApprovedDestination :=
  match normalizeHostname domainToASCII host with
  | .error failure => .error failure
  | .ok hostname =>
    if isIP hostname ≠ 0 then
      .error ⟨.ipLiteralForbidden, "IP-literal destinations are forbidden"⟩
    else if policy.hostPatterns.any (hostMatches hostname) = false then
      .error ⟨.hostnameForbidden, "Destination hostname is not allowlisted"⟩
    else
      match validatePort port with
      | .error failure => .error failure
      | .ok number =>
        if port ∉ policy.ports protocol then
          .error ⟨.portForbidden, "Destination port is not allowed for this protocol"⟩
        else
          match approveAnswers resolution with
          | .error failure => .error failure
          | .ok approved => .ok ⟨approved, hostname, number, protocol⟩

/-! ### What passes the checks -/

section Checks

variable {domainToASCII : List Char → List Char} {input hostname : List Char}

/-- A normalised hostname consists of well-formed labels and is no local name. -/
lemma normalizeHostname_ok (h : normalizeHostname domainToASCII input = .ok hostname) :
    hostname = Ascii.toLower (domainToASCII (withoutFinalDot input)) ∧ hostname.length ≤ 253 ∧
      (∀ label ∈ labels hostname, isLabel label = true) ∧ isLocalName hostname = false := by
  simp only [normalizeHostname] at h
  split_ifs at h with hform hlocal
  cases h
  simp only [Bool.or_eq_true, decide_eq_true_eq, Bool.not_eq_true', not_or, Bool.not_eq_false,
    List.all_eq_true] at hform
  exact ⟨rfl, by omega, hform.2, by simpa using hlocal⟩

lemma isLabel_ne_nil {label : List Char} (h : isLabel label = true) : label ≠ [] := by
  rintro rfl
  simp [isLabel] at h

lemma mapM_ok {α β ε : Type} {f : α → Except ε β} {as : List α} {bs : List β}
    (h : as.mapM f = .ok bs) : ∀ b ∈ bs, ∃ a ∈ as, f a = .ok b := by
  induction as generalizing bs with
  | nil =>
    cases h
    intro b hb
    cases hb
  | cons a as ih =>
    rw [List.mapM_cons] at h
    cases ha : f a with
    | error e =>
      rw [ha] at h
      cases h
    | ok b =>
      cases hrest : as.mapM f with
      | error e =>
        rw [ha, hrest] at h
        cases h
      | ok rest =>
        rw [ha, hrest] at h
        cases h
        intro b' hb'
        rcases List.mem_cons.mp hb' with rfl | hmem
        · exact ⟨a, List.mem_cons_self, ha⟩
        · obtain ⟨a', ha', hf⟩ := ih hrest b' hmem
          exact ⟨a', List.mem_cons_of_mem a ha', hf⟩

/-- The hostname is that of an exact pattern, or it adds whole labels in front of a `*.` pattern. -/
inductive MatchesPattern (domainToASCII : List Char → List Char) (hostname : List Char) :
    List Char → Prop
  | exact {pattern : List Char} (hexact : ¬ ['*', '.'] <+: pattern)
      (hname : normalizeHostname domainToASCII pattern = .ok hostname) :
      MatchesPattern domainToASCII hostname pattern
  | subdomain {base base' : List Char} {front : List (List Char)}
      (hbase : normalizeHostname domainToASCII base = .ok base')
      (hlabels : labels hostname = front ++ labels base') (hfront : front ≠ [])
      (hwhole : ∀ label ∈ front, isLabel label = true) :
      MatchesPattern domainToASCII hostname ('*' :: '.' :: base)

/-- A suffix that starts with a dot is a suffix of whole labels. -/
lemma labels_append_dot (front base : List Char) :
    labels (front ++ '.' :: base) = labels front ++ labels base :=
  List.splitOn_append_cons_self front base

lemma matchesPattern_of_hostMatches {pattern : List Char} {parsed : HostPattern}
    (hparse : parseHostPattern domainToASCII pattern = .ok parsed)
    (hlabels : ∀ label ∈ labels hostname, isLabel label = true)
    (hmatch : hostMatches hostname parsed = true) :
    MatchesPattern domainToASCII hostname pattern := by
  simp only [parseHostPattern] at hparse
  split at hparse
  · cases hparse
  · rename_i base hbase
    cases hparse
    cases hstar : ['*', '.'].isPrefixOf pattern with
    | false =>
      rw [hstar] at hbase
      simp only [hostMatches, hstar, Bool.false_eq_true, if_false, decide_eq_true_eq] at hmatch
      refine .exact ?_ (hmatch ▸ hbase)
      intro hprefix
      rw [List.isPrefixOf_iff_prefix.mpr hprefix] at hstar
      cases hstar
    | true =>
      rw [hstar] at hbase
      obtain ⟨rest, rfl⟩ := List.isPrefixOf_iff_prefix.mp hstar
      simp only [hostMatches, hstar, if_true, Bool.and_eq_true] at hmatch
      obtain ⟨front, rfl⟩ := List.isSuffixOf_iff_suffix.mp hmatch.2
      rw [labels_append_dot] at hlabels
      refine .subdomain hbase (labels_append_dot front base) (List.splitOn_ne_nil _ _) ?_
      intro label hlabel
      exact hlabels label (List.mem_append_left _ hlabel)

lemma validatePort_ok {port : JsNumber} {number : ℤ} (h : validatePort port = .ok number) :
    port = some number ∧ 1 ≤ number ∧ number ≤ 65535 := by
  cases port with
  | none => cases h
  | some n =>
    simp only [validatePort] at h
    split_ifs at h with hrange
    cases h
    exact ⟨rfl, by omega, by omega⟩

lemma checkAnswers_ok {answers : List ResolvedAddress} (h : checkAnswers answers = .ok ()) :
    ∀ answer ∈ answers, isIP answer.address = answer.family ∧
      isPublicAddress answer.address = true := by
  induction answers with
  | nil =>
    intro answer hanswer
    cases hanswer
  | cons first rest ih =>
    simp only [checkAnswers] at h
    split_ifs at h with hunsafe
    simp only [ne_eq, Bool.or_eq_true, decide_eq_true_eq, Bool.not_eq_true', not_or, not_not,
      Bool.not_eq_false] at hunsafe
    intro answer hanswer
    rcases List.mem_cons.mp hanswer with rfl | hmem
    · exact hunsafe
    · exact ih h answer hmem

lemma approveAnswers_ok {answers : List ResolvedAddress} {approved : ResolvedAddress}
    (h : approveAnswers (some answers) = .ok approved) :
    approved ∈ answers ∧ ∀ answer ∈ answers, isIP answer.address = answer.family ∧
      isPublicAddress answer.address = true := by
  cases answers with
  | nil => cases h
  | cons first rest =>
    simp only [approveAnswers] at h
    split at h
    · cases h
    · rename_i hchecked
      cases h
      exact ⟨List.mem_cons_self, checkAnswers_ok hchecked⟩

/-- The checks that a destination has passed. -/
lemma EgressPolicy.approve_cases {policy : EgressPolicy} {host : List Char} {port : JsNumber}
    {protocol : EgressProtocol} {resolution : Option (List ResolvedAddress)}
    {destination : ApprovedDestination}
    (h : policy.approve domainToASCII host port protocol resolution = .ok destination) :
    ∃ hostname number approved, normalizeHostname domainToASCII host = .ok hostname ∧
      isIP hostname = 0 ∧ (∃ pattern ∈ policy.hostPatterns, hostMatches hostname pattern = true) ∧
      validatePort port = .ok number ∧ port ∈ policy.ports protocol ∧
      approveAnswers resolution = .ok approved ∧
      destination = ⟨approved, hostname, number, protocol⟩ := by
  simp only [approve] at h
  split at h
  · cases h
  · rename_i hostname hnormal
    by_cases hip : isIP hostname = 0
    · by_cases hlisted : policy.hostPatterns.any (hostMatches hostname) = true
      · rw [if_neg (not_not.mpr hip), if_neg (by simp [hlisted])] at h
        split at h
        · cases h
        · rename_i number hvalid
          by_cases hport : port ∈ policy.ports protocol
          · rw [if_neg (not_not.mpr hport)] at h
            split at h
            · cases h
            · rename_i approved hanswers
              cases h
              exact ⟨hostname, number, approved, hnormal, hip, List.any_eq_true.mp hlisted, hvalid,
                hport, hanswers, rfl⟩
          · rw [if_pos hport] at h
            cases h
      · rw [if_neg (not_not.mpr hip), if_pos (by simpa using hlisted)] at h
        cases h
    · rw [if_pos hip] at h
      cases h

lemma new_ok {options : EgressPolicyOptions} {policy : EgressPolicy}
    (h : EgressPolicy.new domainToASCII options = .ok policy) :
    (∀ parsed ∈ policy.hostPatterns, ∃ pattern ∈ options.allowedHosts.getD [],
      parseHostPattern domainToASCII pattern = .ok parsed) ∧
    ∀ protocol, policy.ports protocol = options.ports protocol := by
  simp only [EgressPolicy.new] at h
  split at h
  · cases h
  · rename_i hostPatterns hpatterns
    split at h
    · cases h
    · split at h
      · cases h
      · cases h
        refine ⟨mapM_ok hpatterns, fun protocol => ?_⟩
        cases protocol <;> rfl

end Checks

end Bloom
