import BloomWorkspaces.Jobs.StructuredJobSpec
import BloomWorkspaces.Library.Shell
import BloomWorkspaces.Ssh.ProxyArguments

/-!
# The plan of the SSH client

`ssh` runs the proxy helper through a shell, after it has expanded its percent tokens, and nothing in the
command is quoted: `createSshClientArgv` limits each part to characters that both leave alone.
-/

namespace Bloom

open Checked UrlHost

/-! ### The plan -/

/-- What is checked against an ASCII alphabet is a `String`. -/
structure SshClientPlanInput where
  gatewayOrigin : JsText
  workspaceId : String
  leaseId : String
  mode : String
  proxyHelperPath : String
  tokenFilePath : String
  privateKeyPath : JsText
  certificatePath : JsText
  knownHostsPath : JsText
  deriving DecidableEq, Repr

/-- The regular expression `LEASE_ID` is that of a workspace id. -/
def isLeaseId (id : String) : Bool := isUuid id

def isPathChar (c : Char) : Bool := c.isAlphanum || c ∈ ['.', '_', '/', '-']

/-- `SAFE_POSIX_PROXY_PATH` -/
def isSafePosixProxyPath (value : String) : Bool :=
  match value.toList with
  | '/' :: rest => rest ≠ [] && rest.all isPathChar
  | _ => false

/-- `SAFE_WINDOWS_PROXY_PATH` -/
def isSafeWindowsProxyPath (value : String) : Bool :=
  match value.toList with
  | drive :: ':' :: '/' :: rest => drive.isAlpha && rest ≠ [] && rest.all isPathChar
  | _ => false

def safeProxyPath (value label : String) : Except String String := do
  rejectIf ((isSafePosixProxyPath value = false ∧ isSafeWindowsProxyPath value = false) ∨
    ['.', '.'] <:+: value.toList) (label ++ " path is not safe for ProxyCommand")
  return value

def localPath (value : JsText) (label : String) : Except String JsText := do
  rejectIf (value = [] ∨ 4096 < value.length ∨ 0 ∈ value ∨ 10 ∈ value ∨ 13 ∈ value)
    ("Invalid " ++ label ++ " path")
  return value

/-- The command that the shell gets. -/
def proxyCommand (helper origin workspaceId leaseId mode tokenFile : String) : String :=
  helper ++ " --origin " ++ origin ++ " --workspace " ++ workspaceId ++ " --lease " ++ leaseId ++
    " --mode " ++ mode ++ " --token-file " ++ tokenFile

def createSshClientArgv (p : Parser) (isUrl : List Char → List Char → Bool)
    (input : SshClientPlanInput) : Except String (List JsText) := do
  let workspaceId ← normalizeWorkspaceId input.workspaceId
  let mode ← normalizeAccessMode input.mode
  rejectIf (isLeaseId input.leaseId = false) "Invalid SSH lease id"
  let origin ← normalizeHttpsOrigin p isUrl input.gatewayOrigin
  let helper ← safeProxyPath input.proxyHelperPath "SSH proxy helper"
  let tokenFile ← safeProxyPath input.tokenFilePath "SSH token file"
  let command :=
    proxyCommand helper (String.ofList origin) workspaceId (lowerCase input.leaseId) mode.text tokenFile
  let key ← localPath input.privateKeyPath "private key"
  let certificate ← localPath input.certificatePath "certificate"
  let knownHosts ← localPath input.knownHostsPath "known hosts"
  return [
    jsText "ssh",
    jsText "-o", jsText ("ProxyCommand=" ++ command),
    jsText "-o", jsText "BatchMode=yes",
    jsText "-o", jsText "IdentitiesOnly=yes",
    jsText "-o", jsText "StrictHostKeyChecking=yes",
    jsText "-o", jsText "UserKnownHostsFile=" ++ knownHosts,
    jsText "-o", jsText "CertificateFile=" ++ certificate,
    jsText "-o", jsText ("HostKeyAlias=bloom-" ++ workspaceId),
    jsText "-o", jsText "ServerAliveInterval=20",
    jsText "-o", jsText "ServerAliveCountMax=2",
    jsText "-i", key,
    jsText ("workspace@bloom-" ++ workspaceId)]

/-! ### What is accepted -/

/-- The characters that end up in the command, beside the spaces between its words. -/
def isWordChar (c : Char) : Bool := c.isAlphanum || c ∈ ['.', '_', '/', '-', ':']

def IsWord (text : String) : Prop := text ≠ "" ∧ ∀ c ∈ text.toList, isWordChar c = true

section Accepted

variable {p : Parser} {isUrl : List Char → List Char → Bool} {input : SshClientPlanInput}

lemma isWordChar_of_isPathChar {c : Char} (h : isPathChar c = true) : isWordChar c = true := by
  simp only [isPathChar, isWordChar, Bool.or_eq_true, decide_eq_true_eq] at h ⊢
  exact h.imp_right fun hmem => List.mem_append_left [':'] hmem

lemma isWordChar_of_range {c : Char} (h : c.isDigit = true ∨ ('a' ≤ c ∧ c ≤ 'z') ∨ 'A' ≤ c ∧ c ≤ 'Z') :
    isWordChar c = true := by
  have halnum : c.isAlphanum = true := by
    delta Char.isAlphanum Char.isAlpha Char.isUpper Char.isLower
    simp only [Bool.or_eq_true, Bool.and_eq_true, decide_eq_true_eq]
    rcases h with hdigit | hlower | hupper
    · exact Or.inr hdigit
    · exact Or.inl (Or.inr hlower)
    · exact Or.inl (Or.inl hupper)
  rw [isWordChar, halnum, Bool.true_or]

lemma isWordChar_of_isOriginChar {c : Char} (h : isOriginChar c = true) : isWordChar c = true := by
  simp only [isOriginChar, Bool.or_eq_true, Bool.and_eq_true, decide_eq_true_eq] at h
  rcases h with ((hlower | hdigit) | rfl) | rfl
  · exact isWordChar_of_range (Or.inr (Or.inl hlower))
  · exact isWordChar_of_range (Or.inl hdigit)
  · rfl
  · rfl

lemma isWordChar_of_uuid {c : Char} (h : Ascii.isHexDigit c = true ∨ c = '-') : isWordChar c = true := by
  simp only [Ascii.isHexDigit, Bool.or_eq_true, Bool.and_eq_true, decide_eq_true_eq] at h
  rcases h with ((hdigit | hlower) | hupper) | rfl
  · exact isWordChar_of_range (Or.inl hdigit)
  · have hbound : 'f' ≤ 'z' := by decide
    exact isWordChar_of_range (Or.inr (Or.inl ⟨hlower.1, Char.le_trans hlower.2 hbound⟩))
  · have hbound : 'F' ≤ 'Z' := by decide
    exact isWordChar_of_range (Or.inr (Or.inr ⟨hupper.1, Char.le_trans hupper.2 hbound⟩))
  · rfl

lemma isWord_of_posix {value : String} (h : isSafePosixProxyPath value = true) : IsWord value := by
  rw [isSafePosixProxyPath] at h
  split at h
  · rename_i rest hpath
    rw [Bool.and_eq_true] at h
    refine ⟨fun hnil => ?_, fun c hc => ?_⟩
    · rw [hnil] at hpath
      cases hpath
    · rw [hpath] at hc
      rcases List.mem_cons.mp hc with rfl | hc
      · rfl
      · exact isWordChar_of_isPathChar (List.all_eq_true.mp h.2 c hc)
  · cases h

lemma isWord_of_windows {value : String} (h : isSafeWindowsProxyPath value = true) : IsWord value := by
  rw [isSafeWindowsProxyPath] at h
  split at h
  · rename_i drive rest hpath
    rw [Bool.and_eq_true, Bool.and_eq_true] at h
    refine ⟨fun hnil => ?_, fun c hc => ?_⟩
    · rw [hnil] at hpath
      cases hpath
    · rw [hpath] at hc
      simp only [List.mem_cons] at hc
      rcases hc with rfl | rfl | rfl | hc
      · rw [isWordChar, Char.isAlphanum, h.1.1, Bool.true_or, Bool.true_or]
      · rfl
      · rfl
      · exact isWordChar_of_isPathChar (List.all_eq_true.mp h.2 c hc)
  · cases h

lemma safeProxyPath_yields (value label : String) :
    Yields (fun _ => True) (fun path => path = value ∧ IsWord value) (safeProxyPath value label) := by
  apply Yields.bind (Yields.rejectIf trivial)
  intro _ haccepted
  rw [not_or, not_and_or, Bool.not_eq_false, Bool.not_eq_false] at haccepted
  exact ⟨rfl, haccepted.1.elim isWord_of_posix isWord_of_windows⟩

lemma normalizeWorkspaceId_yields (value : String) :
    Yields (fun _ => True) (fun id => isUuid value = true ∧ id = lowerCase value)
      (normalizeWorkspaceId value) := by
  rw [normalizeWorkspaceId]
  split
  · rename_i haccepted
    exact ⟨haccepted, rfl⟩
  · trivial

lemma normalizeAccessMode_yields (value : String) :
    Yields (fun _ => True) (fun mode => mode.text = value ∧ (value = "shell" ∨ value = "nfs"))
      (normalizeAccessMode value) := by
  rw [normalizeAccessMode]
  split_ifs with hshell hnfs
  · exact ⟨hshell.symm, Or.inl hshell⟩
  · exact ⟨hnfs.symm, Or.inr hnfs⟩
  · trivial

/-- What an accepted input is, and the command of its plan. -/
structure PlansCommand (p : Parser) (isUrl : List Char → List Char → Bool) (input : SshClientPlanInput)
    (argv : List JsText) : Prop where
  workspaceId : isUuid input.workspaceId = true
  leaseId : isUuid input.leaseId = true
  mode : input.mode = "shell" ∨ input.mode = "nfs"
  helper : IsWord input.proxyHelperPath
  tokenFile : IsWord input.tokenFilePath
  command : ∃ origin, normalizeHttpsOrigin p isUrl input.gatewayOrigin = .ok origin ∧
    argv[1]? = some (jsText "-o") ∧ argv[2]? = some (jsText ("ProxyCommand=" ++
      proxyCommand input.proxyHelperPath (String.ofList origin) (lowerCase input.workspaceId)
        (lowerCase input.leaseId) input.mode input.tokenFilePath))

lemma createSshClientArgv_yields (p : Parser) (isUrl : List Char → List Char → Bool)
    (input : SshClientPlanInput) :
    Yields (fun _ => True) (PlansCommand p isUrl input) (createSshClientArgv p isUrl input) := by
  apply Yields.bind (normalizeWorkspaceId_yields _)
  rintro workspaceId ⟨hworkspaceId, rfl⟩
  apply Yields.bind (normalizeAccessMode_yields _)
  rintro mode ⟨htext, hmode⟩
  apply Yields.bind (Yields.rejectIf trivial)
  intro _ hleaseId
  have horigin : Yields (fun _ => True) (fun origin => normalizeHttpsOrigin p isUrl input.gatewayOrigin =
      .ok origin) (normalizeHttpsOrigin p isUrl input.gatewayOrigin) := by
    cases normalizeHttpsOrigin p isUrl input.gatewayOrigin with
    | ok origin => rfl
    | error e => trivial
  have hlocal : ∀ (value : JsText) (label : String),
      Yields (fun _ => True) (fun _ => True) (localPath value label) := by
    intro value label
    cases localPath value label with
    | ok path => trivial
    | error e => trivial
  apply Yields.bind horigin
  intro origin horigin
  apply Yields.bind (safeProxyPath_yields _ _)
  rintro helper ⟨rfl, hhelper⟩
  apply Yields.bind (safeProxyPath_yields _ _)
  rintro tokenFile ⟨rfl, htokenFile⟩
  apply Yields.bind (hlocal _ _)
  intro key _
  apply Yields.bind (hlocal _ _)
  intro certificate _
  apply Yields.bind (hlocal _ _)
  intro knownHosts _
  exact {
    workspaceId := hworkspaceId
    leaseId := by simpa [isLeaseId] using hleaseId
    mode := hmode
    helper := hhelper
    tokenFile := htokenFile
    command := ⟨origin, horigin, rfl, by rw [← htext]; rfl⟩ }

end Accepted

/-! ### The command -/

section Command

open Shell

/-- What is not plain to the shell, and the percent sign. -/
def commandSpecials : List Char :=
  ['&', '|', ';', '<', '>', '(', ')', '\n', '*', '?', '[', '~', '\\', '\'', '"', '$', '`', '#', ' ', '\t', '%']

lemma isPlain_of_isWordChar {c : Char} (h : isWordChar c = true) : isPlain c = true ∧ c ≠ '%' := by
  have hall : (commandSpecials.all fun d => !isWordChar d) = true := by decide
  have hne : ∀ d ∈ commandSpecials, c ≠ d := by
    rintro d hd rfl
    have hspecial := List.all_eq_true.mp hall c hd
    rw [h] at hspecial
    exact absurd hspecial (by decide)
  simp only [commandSpecials, List.forall_mem_cons] at hne
  simp [isPlain, isOperatorStart, isSpecial, hne]

/-- The options that the command hands to the helper. -/
def plannedOptions (input : SshClientPlanInput) (origin : List Char) : ProxyOptions where
  origin := String.ofList origin
  workspace := lowerCase input.workspaceId
  lease := lowerCase input.leaseId
  mode := input.mode
  tokenFile := input.tokenFilePath

/-- The words that the plan writes itself. -/
def planWords : List String :=
  ["--origin", "--workspace", "--lease", "--mode", "--token-file", "shell", "nfs"]

lemma planWords_all : (planWords.all fun word => word ≠ "" && word.toList.all isWordChar) = true := by
  decide

/-- Words of word characters pass the percent expansion and the shell as they are. -/
lemma tokens_words {words : List String} (h : ∀ word ∈ words, IsWord word)
    (value : Char → Option (List Char)) :
    (percentExpand value ([' '].intercalate (words.map String.toList))).bind tokens =
      some (words.map fun word => Token.plain word.toList) := by
  have hwords : ∀ text ∈ words.map String.toList, text ≠ [] ∧ ∀ c ∈ text, isWordChar c = true := by
    intro text htext
    obtain ⟨word, hword, rfl⟩ := List.mem_map.mp htext
    exact ⟨fun hnil => (h word hword).1 (String.toList_eq_nil_iff.mp hnil), (h word hword).2⟩
  rw [percentExpand_intercalate value fun text htext hmem =>
    (isPlain_of_isWordChar ((hwords text htext).2 '%' hmem)).2 rfl]
  rw [Option.bind_some, tokens_intercalate, List.map_map]
  · rfl
  · exact fun text htext => ⟨(hwords text htext).1,
      fun c hc => (isPlain_of_isWordChar ((hwords text htext).2 c hc)).1⟩

lemma toList_proxyCommand (helper : String) (o : ProxyOptions) :
    (proxyCommand helper o.origin o.workspace o.lease o.mode o.tokenFile).toList =
      [' '].intercalate ((helper :: proxyArguments o).map String.toList) := by
  simp [proxyCommand, proxyArguments, String.toList_append, List.intercalate_cons_cons]

lemma isWord_lowerCase {id : String} (h : isUuid id = true) : IsWord (lowerCase id) :=
  ⟨ne_empty_of_isUuid (isUuid_lowerCase h),
    fun c hc => isWordChar_of_uuid (isUuid_char (isUuid_lowerCase h) c hc)⟩

lemma isWord_origin {host : List Char} {port : Option ℕ} (h : ∀ c ∈ host, isOriginChar c = true) :
    IsWord (String.ofList (originUrl host port).origin) := by
  have htext : (originUrl host port).origin =
      "https://".toList ++ (host ++ Url.portText port) := by
    rw [Url.Record.origin, originUrl, List.append_assoc]
    rfl
  have hscheme : "https://".toList.all isWordChar = true := by decide
  refine ⟨fun hnil => ?_, fun c hc => ?_⟩
  · have hlist := congrArg String.toList hnil
    rw [String.toList_ofList, htext] at hlist
    cases hlist
  · rw [String.toList_ofList, htext, List.mem_append, List.mem_append] at hc
    rcases hc with hc | hc | hc
    · exact List.all_eq_true.mp hscheme c hc
    · exact isWordChar_of_isOriginChar (h c hc)
    · rcases Url.mem_portText hc with rfl | hdigit
      · rfl
      · exact isWordChar_of_range (Or.inl hdigit)

variable {p : Parser} {isUrl : List Char → List Char → Bool} {input : SshClientPlanInput}
  {argv : List JsText}

/-- The `ProxyCommand` of an accepted input is, for `ssh` and then for the shell, the helper and the flags
with their values, each a word of literal characters. The helper reads the options from these words. -/
theorem proxyCommand_words (hp : p.Ok) (hidna : p.Idempotent)
    (h : createSshClientArgv p isUrl input = .ok argv) (value : Char → Option (List Char)) :
    ∃ origin command, normalizeHttpsOrigin p isUrl input.gatewayOrigin = .ok origin ∧
      argv[1]? = some (jsText "-o") ∧ argv[2]? = some (jsText ("ProxyCommand=" ++ command)) ∧
      (percentExpand value command.toList).bind tokens =
        some ((input.proxyHelperPath :: proxyArguments (plannedOptions input origin)).map
          fun word => Token.plain word.toList) ∧
      parseProxyArguments p isUrl (proxyArguments (plannedOptions input origin)) =
        .ok (plannedOptions input origin) := by
  have hplan := Yields.of_eq_ok (createSshClientArgv_yields p isUrl input) h
  obtain ⟨origin, horigin, hoption, hcommand⟩ := hplan.command
  obtain ⟨host, port, rfl, hhost, hparse⟩ := parse_normalizeHttpsOrigin hp hidna horigin isUrl
  refine ⟨_, _, horigin, hoption, hcommand, ?_, ?_⟩
  · have htext := toList_proxyCommand input.proxyHelperPath
      (plannedOptions input (originUrl host port).origin)
    simp only [plannedOptions] at htext
    rw [htext]
    refine tokens_words ?_ value
    have hflags : ∀ flag ∈ planWords, IsWord flag := by
      intro flag hflag
      have hword := List.all_eq_true.mp planWords_all flag hflag
      rw [Bool.and_eq_true, decide_eq_true_eq] at hword
      exact ⟨hword.1, List.all_eq_true.mp hword.2⟩
    have hmode : IsWord input.mode := by
      rcases hplan.mode with hmode | hmode
      · exact hmode ▸ hflags "shell" (by simp [planWords])
      · exact hmode ▸ hflags "nfs" (by simp [planWords])
    simp only [proxyArguments, List.forall_mem_cons]
    simp only [planWords, List.forall_mem_cons] at hflags
    obtain ⟨hflagOrigin, hflagWorkspace, hflagLease, hflagMode, hflagTokenFile, -⟩ := hflags
    exact ⟨hplan.helper, hflagOrigin, isWord_origin hhost, hflagWorkspace,
      isWord_lowerCase hplan.workspaceId, hflagLease, isWord_lowerCase hplan.leaseId, hflagMode, hmode,
      hflagTokenFile, hplan.tokenFile, nofun⟩
  · refine parseProxyArguments_proxyArguments String.toList_ofList ?_ (isUuid_lowerCase hplan.workspaceId)
      (isUuid_lowerCase hplan.leaseId) ⟨lowerCase_lowerCase _, lowerCase_lowerCase _⟩ hplan.mode
      hplan.tokenFile.1
    simp only [plannedOptions, String.toList_ofList]
    exact hparse

/-- A parser that knows plain names only. -/
def nameParser : Parser := ⟨fun _ => [], fun _ => []⟩

lemma nameParser_ok : nameParser.Ok where
  idna_lower := fun _ => rfl
  idna_ascii := fun _ _ => Or.inl rfl
  ipv6_bracket := fun _ => Or.inl rfl

/-- The paths that stay out of the command may hold anything but a newline. -/
def gatewayPlan : SshClientPlanInput where
  gatewayOrigin := jsText "https://Bloom.example:8443/"
  workspaceId := "018F4FA6-69D2-4A7A-8F44-E5A19E9517F0"
  leaseId := "018f4fa6-69d2-4a7a-9f44-e5a19e9517f1"
  mode := "shell"
  proxyHelperPath := "/opt/bloom/bloom-ssh-proxy"
  tokenFilePath := "C:/tokens/lease"
  privateKeyPath := jsText "/keys/id; true"
  certificatePath := jsText "/keys/$(id)"
  knownHostsPath := jsText "/keys/known hosts"

theorem proxyCommand_words_gateway :
    ∃ (argv : List JsText) (origin : List Char) (command : String),
      createSshClientArgv nameParser (fun _ _ => false) gatewayPlan = .ok argv ∧
      argv[2]? = some (jsText ("ProxyCommand=" ++ command)) ∧
      (percentExpand (fun _ => none) command.toList).bind tokens =
        some ((gatewayPlan.proxyHelperPath :: proxyArguments (plannedOptions gatewayPlan origin)).map
          fun word => Token.plain word.toList) ∧
      parseProxyArguments nameParser (fun _ _ => false) (proxyArguments (plannedOptions gatewayPlan origin)) =
        .ok (plannedOptions gatewayPlan origin) := by
  have hworkspaceId : normalizeWorkspaceId gatewayPlan.workspaceId =
      .ok "018f4fa6-69d2-4a7a-8f44-e5a19e9517f0" := by decide +kernel
  have hleaseId : ¬isLeaseId gatewayPlan.leaseId = false := by decide +kernel
  have horigin : normalizeHttpsOrigin nameParser (fun _ _ => false) gatewayPlan.gatewayOrigin =
      .ok "https://bloom.example:8443".toList := by decide +kernel
  have hhelper : safeProxyPath gatewayPlan.proxyHelperPath "SSH proxy helper" =
      .ok gatewayPlan.proxyHelperPath := by decide +kernel
  have htokenFile : safeProxyPath gatewayPlan.tokenFilePath "SSH token file" =
      .ok gatewayPlan.tokenFilePath := by decide +kernel
  obtain ⟨argv, haccepted⟩ : ∃ argv, createSshClientArgv nameParser (fun _ _ => false) gatewayPlan =
      .ok argv := by
    simp only [createSshClientArgv, hworkspaceId, rejectIf_of_not hleaseId, horigin, hhelper, htokenFile]
    exact ⟨_, rfl⟩
  obtain ⟨origin, command, -, -, hcommand, hwords, hparsed⟩ :=
    proxyCommand_words nameParser_ok (fun _ => rfl) haccepted fun _ => none
  exact ⟨argv, origin, command, haccepted, hcommand, hwords, hparsed⟩

end Command

end Bloom
