import BloomWorkspaces.Ssh.Contracts
import BloomWorkspaces.Ssh.GatewayOrigin
import BloomWorkspaces.Library.Checked

/-!
# The arguments of the proxy helper

`bloom-ssh-proxy` reads its arguments as pairs of a flag and a value into a plain object.
-/

namespace Bloom

open Checked UrlHost

structure ProxyOptions where
  origin : String
  workspace : String
  lease : String
  mode : String
  tokenFile : String
  deriving DecidableEq, Repr

/-- What every plain object has of its prototype. -/
def inheritedNames : List String :=
  ["constructor", "__defineGetter__", "__defineSetter__", "hasOwnProperty", "__lookupGetter__",
    "__lookupSetter__", "isPrototypeOf", "propertyIsEnumerable", "toString", "valueOf", "__proto__",
    "toLocaleString"]

/-- `flag.slice(2)` -/
def flagName (flag : String) : String := String.ofList (flag.toList.drop 2)

/-- The loop over the arguments; a value that is missing is `undefined`. -/
def readFlags (values : List (String × String)) : List String → Except String (List (String × String))
  | [] => .ok values
  | [_] => .error "Invalid SSH proxy arguments"
  | flag :: value :: rest =>
    if flag.toList.take 2 ≠ ['-', '-'] ∨ flagName flag ∈ inheritedNames ∨
        (values.lookup (flagName flag)).isSome then
      .error "Invalid SSH proxy arguments"
    else readFlags (values ++ [(flagName flag, value)]) rest

/-- The regular expression `UUID` is that of a workspace id. -/
def isUuid (id : String) : Bool := isWorkspaceId id

/-- A value that is absent is as false as an empty one. -/
def optionValue (values : List (String × String)) (name : String) : String :=
  (values.lookup name).getD ""

/-- What `parse` of the helper makes of the object. -/
def checkProxyValues (p : Parser) (isUrl : List Char → List Char → Bool)
    (values : List (String × String)) : Except String ProxyOptions := do
  let origin := optionValue values "origin"
  let workspace := optionValue values "workspace"
  let lease := optionValue values "lease"
  let mode := optionValue values "mode"
  let tokenFile := optionValue values "token-file"
  rejectIf (values.length ≠ 5 ∨ origin = "" ∨ workspace = "" ∨ lease = "" ∨ mode = "" ∨ tokenFile = "")
    "Missing SSH proxy arguments"
  match Url.parse p isUrl origin.toList with
  | none => .error "Invalid URL"
  | some (.other _) => .error "SSH proxy requires an HTTPS origin"
  | some (.special url) =>
    rejectIf (url.scheme ≠ httpsScheme ∨ url.origin ≠ origin.toList ∨ url.username ≠ [] ∨
      url.password ≠ []) "SSH proxy requires an HTTPS origin"
    rejectIf (isUuid workspace = false ∨ isUuid lease = false) "Invalid SSH proxy lease scope"
    rejectIf (mode ≠ "shell" ∧ mode ≠ "nfs") "Invalid SSH proxy mode"
    return ⟨String.ofList url.origin, lowerCase workspace, lowerCase lease, mode, tokenFile⟩

/-- `parse` of the helper. -/
def parseProxyArguments (p : Parser) (isUrl : List Char → List Char → Bool) (argv : List String) :
    Except String ProxyOptions := do
  checkProxyValues p isUrl (← readFlags [] argv)

/-- The object that holds the options. -/
def proxyValues (o : ProxyOptions) : List (String × String) :=
  [("origin", o.origin), ("workspace", o.workspace), ("lease", o.lease), ("mode", o.mode),
    ("token-file", o.tokenFile)]

/-- The five pairs in the order in which the client plan writes them. -/
def proxyArguments (o : ProxyOptions) : List String :=
  ["--origin", o.origin, "--workspace", o.workspace, "--lease", o.lease, "--mode", o.mode,
    "--token-file", o.tokenFile]

/-! ### UUIDs -/

section Uuid

variable {pattern : List (Char → Bool)} {text : List Char} {id : String}

lemma all_zipWith_map {f : Char → Char}
    (hf : ∀ accepts ∈ pattern, ∀ c, accepts c = true → accepts (f c) = true)
    (h : (List.zipWith (fun accepts c => accepts c) pattern text).all (fun accepted => accepted) = true) :
    (List.zipWith (fun accepts c => accepts c) pattern (text.map f)).all (fun accepted => accepted) =
      true := by
  induction pattern generalizing text with
  | nil => rfl
  | cons accepts pattern ih =>
    cases text with
    | nil => rfl
    | cons c text =>
      rw [List.zipWith_cons_cons, List.all_cons, Bool.and_eq_true] at h
      rw [List.map_cons, List.zipWith_cons_cons, List.all_cons, Bool.and_eq_true]
      exact ⟨hf accepts List.mem_cons_self c h.1,
        ih (fun other hother => hf other (List.mem_cons_of_mem _ hother)) h.2⟩

lemma exists_of_all_zipWith (hlength : text.length = pattern.length)
    (h : (List.zipWith (fun accepts c => accepts c) pattern text).all (fun accepted => accepted) = true) :
    ∀ c ∈ text, ∃ accepts ∈ pattern, accepts c = true := by
  induction pattern generalizing text with
  | nil =>
    intro c hc
    rw [List.length_eq_zero_iff.mp hlength] at hc
    cases hc
  | cons accepts pattern ih =>
    cases text with
    | nil =>
      intro c hc
      cases hc
    | cons first text =>
      rw [List.zipWith_cons_cons, List.all_cons, Bool.and_eq_true] at h
      intro c hc
      rcases List.mem_cons.mp hc with rfl | hc
      · exact ⟨accepts, List.mem_cons_self, h.1⟩
      · obtain ⟨other, hother, haccepted⟩ := ih (by simpa using hlength) h.2 c hc
        exact ⟨other, List.mem_cons_of_mem _ hother, haccepted⟩

/-- A class that does not depend on the case, of hexadecimal digits and dashes. -/
def IsCaseless (accepts : Char → Bool) : Prop :=
  ∀ c, accepts c = true → accepts c.toLower = true ∧ (Ascii.isHexDigit c = true ∨ c = '-')

lemma isCaseless_hexDigit : IsCaseless Ascii.isHexDigit := by
  intro c hc
  refine ⟨?_, Or.inl hc⟩
  rw [Ascii.isHexDigit, (Ascii.toLower_of_isHexDigit hc).1, Bool.true_or]

lemma isCaseless_dash : IsCaseless isDash := by
  intro c hc
  obtain rfl : c = '-' := of_decide_eq_true hc
  exact ⟨rfl, Or.inr rfl⟩

lemma isCaseless_of_idPattern : ∀ accepts ∈ idPattern, IsCaseless accepts := by
  have hhex : ∀ n, ∀ accepts ∈ List.replicate n Ascii.isHexDigit, IsCaseless accepts :=
    fun n accepts hmem => List.eq_of_mem_replicate hmem ▸ isCaseless_hexDigit
  have hfour : IsCaseless fun c => c = '4' := by
    intro c hc
    obtain rfl : c = '4' := of_decide_eq_true hc
    exact ⟨rfl, Or.inl rfl⟩
  have hvariant : IsCaseless fun c => c ∈ ['8', '9', 'a', 'b', 'A', 'B'] := by
    have hall : (['8', '9', 'a', 'b', 'A', 'B'].all fun c =>
        decide (c.toLower ∈ ['8', '9', 'a', 'b', 'A', 'B']) && Ascii.isHexDigit c) = true := by decide
    intro c hc
    have hclass := List.all_eq_true.mp hall c (of_decide_eq_true hc)
    rw [Bool.and_eq_true] at hclass
    exact ⟨hclass.1, Or.inl hclass.2⟩
  simp only [idPattern, List.forall_mem_append, List.forall_mem_cons]
  exact ⟨⟨⟨⟨hhex 8, isCaseless_dash, hhex 4⟩, isCaseless_dash, hfour, hhex 3⟩, isCaseless_dash, hvariant,
    hhex 3⟩, isCaseless_dash, hhex 12⟩

/-- A UUID does not depend on the case of its digits. -/
lemma isUuid_lowerCase (h : isUuid id = true) : isUuid (lowerCase id) = true := by
  rw [isUuid, isWorkspaceId, Bool.and_eq_true, decide_eq_true_eq] at h ⊢
  rw [lowerCase, String.toList_ofList, Ascii.toLower, List.length_map]
  exact ⟨h.1, all_zipWith_map (fun accepts hmem c hc => (isCaseless_of_idPattern accepts hmem c hc).1) h.2⟩

/-- The characters of a UUID. -/
lemma isUuid_char (h : isUuid id = true) : ∀ c ∈ id.toList, Ascii.isHexDigit c = true ∨ c = '-' := by
  rw [isUuid, isWorkspaceId, Bool.and_eq_true, decide_eq_true_eq] at h
  intro c hc
  obtain ⟨accepts, hmem, haccepted⟩ := exists_of_all_zipWith h.1 h.2 c hc
  exact (isCaseless_of_idPattern accepts hmem c haccepted).2

end Uuid

/-! ### What the helper accepts -/

lemma readFlags_proxyArguments (o : ProxyOptions) :
    readFlags [] (proxyArguments o) = .ok (proxyValues o) := rfl

lemma lowerCase_lowerCase (text : String) : lowerCase (lowerCase text) = lowerCase text := by
  rw [lowerCase, lowerCase, String.toList_ofList, Ascii.toLower_toLower]

lemma ne_empty_of_isUuid {id : String} (h : isUuid id = true) : id ≠ "" := by
  rintro rfl
  exact absurd h (by decide)

/-- The helper accepts the options of a plan as they are. -/
lemma parseProxyArguments_proxyArguments {p : Parser} {isUrl : List Char → List Char → Bool}
    {o : ProxyOptions} {host : List Char} {port : Option ℕ}
    (horigin : o.origin.toList = (originUrl host port).origin)
    (hparse : Url.parse p isUrl o.origin.toList = some (.special (originUrl host port)))
    (hworkspace : isUuid o.workspace = true) (hlease : isUuid o.lease = true)
    (hlower : lowerCase o.workspace = o.workspace ∧ lowerCase o.lease = o.lease)
    (hmode : o.mode = "shell" ∨ o.mode = "nfs") (htokenFile : o.tokenFile ≠ "") :
    parseProxyArguments p isUrl (proxyArguments o) = .ok o := by
  have hne : o.origin ≠ "" := by
    intro hnil
    rw [hnil] at horigin
    cases horigin
  have hmodeNe : o.mode ≠ "" := by
    rcases hmode with hmode | hmode
    · rw [hmode]
      decide
    · rw [hmode]
      decide
  have htext : String.ofList (originUrl host port).origin = o.origin := by
    rw [← horigin, String.ofList_toList]
  have hpresent : ¬((proxyValues o).length ≠ 5 ∨ o.origin = "" ∨ o.workspace = "" ∨ o.lease = "" ∨
      o.mode = "" ∨ o.tokenFile = "") := by
    simp [proxyValues, hne, ne_empty_of_isUuid hworkspace, ne_empty_of_isUuid hlease, hmodeNe, htokenFile]
  have hurl : ¬((originUrl host port).scheme ≠ httpsScheme ∨
      (originUrl host port).origin ≠ o.origin.toList ∨ (originUrl host port).username ≠ [] ∨
      (originUrl host port).password ≠ []) := by
    simp [originUrl, horigin]
  have hscope : ¬(isUuid o.workspace = false ∨ isUuid o.lease = false) := by
    simp [hworkspace, hlease]
  have hknown : ¬(o.mode ≠ "shell" ∧ o.mode ≠ "nfs") := by
    tauto
  obtain ⟨hlowerWorkspace, hlowerLease⟩ := hlower
  have hcheck : checkProxyValues p isUrl (proxyValues o) = .ok o := by
    have hO : optionValue (proxyValues o) "origin" = o.origin := rfl
    have hW : optionValue (proxyValues o) "workspace" = o.workspace := rfl
    have hL : optionValue (proxyValues o) "lease" = o.lease := rfl
    have hM : optionValue (proxyValues o) "mode" = o.mode := rfl
    have hT : optionValue (proxyValues o) "token-file" = o.tokenFile := rfl
    simp only [checkProxyValues, hO, hW, hL, hM, hT, rejectIf_of_not hpresent, hparse,
      rejectIf_of_not hurl, rejectIf_of_not hscope, rejectIf_of_not hknown, hlowerWorkspace, hlowerLease,
      htext]
    rfl
  rw [parseProxyArguments, readFlags_proxyArguments]
  exact hcheck

end Bloom
