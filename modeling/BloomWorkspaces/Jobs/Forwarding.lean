import BloomWorkspaces.Jobs.StartRequest

/-!
# Forwarding of jobs

From the body that the control plane accepts to the validation of the guest: the schemas and size
limits that a specification passes on its way.
-/

namespace Bloom

/-! ### The hops -/

/-- A body, with what `JSON.parse` makes of it. -/
structure JobBody where
  bytes : List UInt8
  value : JsValue

/-- `express.json` with a limit in bytes. -/
def expressJson (limit : ℕ) (body : JobBody) : Option JsValue :=
  if limit < body.bytes.length then none else some body.value

def controlBodyLimit : ℕ := 64 * 1024

def agentBodyLimit : ℕ := 16 * 1024

/-- The control plane on a body. -/
def acceptJobBody (body : JobBody) : Option StructuredJobSpec :=
  (expressJson controlBodyLimit body).bind parseStructuredJobSpec

/-- The body of `AgentClient.startJob`. -/
def StructuredJobSpec.body (spec : StructuredJobSpec) : JobBody :=
  ⟨Utf8.encode spec.text, spec.toValue⟩

/-- Where a job stops on its way. -/
inductive JobRefusal
  | agentBody
  | agentSchema
  | guestJobs
  | guestRequest
  | guestFrame
  | guestDecoder
  | guest (error : ControlError)
  deriving DecidableEq

def orRefuse {α : Type} (refusal : JobRefusal) : Option α → Except JobRefusal α
  | none => .error refusal
  | some a => .ok a

/-- The way of an accepted specification, with the ids that `GuestJobs.start` draws. -/
def forwardJob (id : RequestId) (jobId : RandomUuid) (spec : StructuredJobSpec) :
    Except JobRefusal StartSpec := do
  let received ← orRefuse .agentBody (expressJson agentBodyLimit spec.body)
  let parsed ← orRefuse .agentSchema (parseStructuredJobSpec received)
  let job ← orRefuse .guestJobs (parseStructuredJobSpec parsed.toValue)
  Checked.rejectIf (isStartRequest jobId job = false) .guestRequest
  let _ ← orRefuse .guestFrame (encodeGuestFrame (startRequestText id jobId job))
  let raw ← orRefuse .guestDecoder (decodeStartRequest id jobId job)
  (startFromRequest raw).mapError .guest

/-- Every hop accepts what it gets. -/
def Forwards (id : RequestId) (jobId : RandomUuid) (spec : StructuredJobSpec) : Prop :=
  ∃ start, forwardJob id jobId spec = .ok start

/-- A string that stands for a text of at most `limit` bytes. -/
def fitsBytes (limit : ℕ) (s : JsText) : Bool :=
  (Utf16.decode s).any fun text => (Utf8.encode text).length ≤ limit

/-- The body fits the limit of the agent, and every string the limit that the guest has for its
bytes. -/
structure Forwardable (spec : StructuredJobSpec) : Prop where
  body : JsonText.size spec.text ≤ agentBodyLimit
  argv : ∀ arg ∈ spec.argv, fitsBytes 4096 arg = true
  cwd : fitsBytes 1024 spec.cwd = true
  environment : ∀ p ∈ spec.environment, fitsBytes 8192 p.2 = true

/-! ### Strings -/

section Strings

variable {units : JsText} {s : String} {limit : ℕ}

/-- The guest reads the text that a string stands for. -/
lemma guestString_eq_some_iff : guestString units = some s ↔ Utf16.encode s.toList = units := by
  constructor
  · intro h
    obtain ⟨text, htext, rfl⟩ := Option.map_eq_some_iff.mp h
    rw [String.toList_ofList]
    exact Utf16.encode_of_decode htext
  · rintro rfl
    rw [guestString, Utf16.decode_encode, Option.map_some, String.ofList_toList]

lemma fitsBytes_iff :
    fitsBytes limit units = true ↔ ∃ s, guestString units = some s ∧ s.utf8ByteSize ≤ limit := by
  rw [fitsBytes, Option.any_eq_true]
  constructor
  · rintro ⟨text, htext, hlength⟩
    have hsize := Utf8.length_encode (String.ofList text)
    rw [String.toList_ofList] at hsize
    refine ⟨String.ofList text, by rw [guestString, htext, Option.map_some], ?_⟩
    rw [← hsize]
    exact of_decide_eq_true hlength
  · rintro ⟨s, hs, hlength⟩
    refine ⟨s.toList, ?_, decide_eq_true ?_⟩
    · rw [← guestString_eq_some_iff.mp hs, Utf16.decode_encode]
    · rw [Utf8.length_encode]
      exact hlength

lemma hasNul_guestString (h : guestString units = some s) (hnul : 0 ∉ units) : hasNul s = false := by
  rw [hasNul, decide_eq_false_iff_not]
  intro hmem
  rw [← guestString_eq_some_iff.mp h] at hnul
  exact hnul ((Utf16.mem_encode (by decide : ('\x00').val.toNat < 55296)).mpr hmem)

lemma guestString_ne_empty (h : guestString units = some s) (hunits : 1 ≤ units.length) : s ≠ "" := by
  rintro rfl
  rw [← guestString_eq_some_iff.mp h] at hunits
  exact absurd hunits (by decide)

lemma byteLength_guestString (h : guestString units = some s) :
    Utf16.byteLength units = s.utf8ByteSize := by
  have hdecode : Utf16.decode units = some s.toList := by
    rw [← guestString_eq_some_iff.mp h, Utf16.decode_encode]
  rw [Utf16.byteLength_of_decode hdecode, Utf8.length_encode]

end Strings

/-! ### Names of variables -/

section Names

variable {name : JsText} {u : UInt16}

lemma isBare_of_isNameChar {c : Char} (h : isNameChar c = true) : JsonText.isBare c = true := by
  simp only [isNameChar, Bool.or_eq_true, decide_eq_true_eq] at h
  rcases h with halnum | rfl
  · exact JsonText.isBare_of_isAlphanum halnum
  · decide

/-- No surrogate is taken for a character of a name. -/
lemma toNat_lt_of_isNameChar (h : isNameChar (unitChar u) = true) : u.toNat < 55296 := by
  have hbare := isBare_of_isNameChar h
  simp only [JsonText.isBare, Bool.and_eq_true, decide_eq_true_eq] at hbare
  by_cases hvalid : u.toNat < 55296 ∨ 57343 < u.toNat ∧ u.toNat < 1114112
  · have hval : (unitChar u).val.toNat = u.toNat := Utf16.val_ofNat hvalid
    omega
  · have hzero : (unitChar u).val.toNat = 0 := by
      have hinvalid : ¬u.toNat.isValidChar := hvalid
      rw [unitChar, Char.ofNat, dif_neg hinvalid]
      rfl
    omega

lemma isNameChar_of_isJobEnvName (h : isJobEnvName name = true) :
    ∀ u ∈ name, isNameChar (unitChar u) = true := by
  simp only [isJobEnvName, Bool.and_eq_true, List.all_eq_true] at h
  obtain ⟨⟨hhead, htail⟩, -⟩ := h
  cases name with
  | nil => exact fun u hu => absurd hu List.not_mem_nil
  | cons first rest =>
    intro u hu
    rcases List.mem_cons.mp hu with rfl | hin
    · rw [List.head?_cons, Option.any_some] at hhead
      simp only [isNameStart, Bool.or_eq_true] at hhead
      simp only [isNameChar, Char.isAlphanum, Bool.or_eq_true]
      exact hhead.imp Or.inl id
    · exact htail u hin

lemma guestString_name (h : isJobEnvName name = true) :
    guestString name = some (String.ofList (name.map unitChar)) := by
  rw [guestString, Utf16.decode_of_plain fun u hu =>
    toNat_lt_of_isNameChar (isNameChar_of_isJobEnvName h u hu)]
  rfl

lemma isEnvName_guestString (h : isJobEnvName name = true) :
    isEnvName (String.ofList (name.map unitChar)) = true := by
  simp only [isJobEnvName, Bool.and_eq_true, List.all_eq_true, decide_eq_true_eq] at h
  obtain ⟨⟨hhead, htail⟩, hlength⟩ := h
  simp only [isEnvName, Bool.and_eq_true, String.toList_ofList, List.all_eq_true, decide_eq_true_eq,
    List.length_map, List.head?_map, Option.any_map]
  refine ⟨⟨hhead, ?_⟩, hlength⟩
  rw [← List.map_tail]
  intro c hc
  obtain ⟨u, hu, rfl⟩ := List.mem_map.mp hc
  exact htail u hu

/-- The two lists of names and prefixes are one. -/
lemma isAllowlisted_guestString (hname : isJobEnvName name = true)
    (h : isAllowlistedJobEnvironmentName name = true) :
    isAllowlisted (String.ofList (name.map unitChar)) = true := by
  have hencode := guestString_eq_some_iff.mp (guestString_name hname)
  rw [String.toList_ofList] at hencode
  rw [isAllowlistedJobEnvironmentName, Bool.or_eq_true] at h
  rw [isAllowlisted, Bool.or_eq_true]
  rcases h with hexact | hprefixed
  · refine Or.inl ?_
    rw [List.contains_iff_mem, List.mem_map] at hexact
    obtain ⟨known, hknown, hjs⟩ := hexact
    have hsame : known.toList = name.map unitChar :=
      Utf16.encode_injective (hjs.trans hencode.symm)
    rw [List.contains_iff_mem, ← hsame, String.ofList_toList]
    exact hknown
  · refine Or.inr ?_
    obtain ⟨units, hunits, hstart⟩ := List.any_eq_true.mp hprefixed
    obtain ⟨p, hp, rfl⟩ := List.mem_map.mp hunits
    have hplain : ∀ p ∈ userEnvironmentPrefixes, (jsText p).map unitChar = p.toList := by decide
    obtain ⟨rest, hrest⟩ := List.isPrefixOf_iff_prefix.mp hstart
    refine List.any_eq_true.mpr ⟨p, hp, List.isPrefixOf_iff_prefix.mpr ⟨rest.map unitChar, ?_⟩⟩
    rw [String.toList_ofList, ← hrest, List.map_append, hplain p hp]

end Names

/-! ### Directories -/

section Directories

variable {path : JsText} {s : String}

/-- Both schemas of the host accept the same directories. -/
lemma isWorkspaceDirectory_of_isRelativeJobPath (h : isRelativeJobPath path = true) :
    path = JsText.dot ∨ isRelativePath path = true := by
  simp only [isRelativeJobPath, Bool.and_eq_true, Bool.or_eq_true, decide_eq_true_eq,
    Bool.not_eq_true', Bool.or_eq_false_iff, decide_eq_false_iff_not, List.all_eq_true] at h
  obtain ⟨⟨hshort, hlong⟩, hdot | ⟨⟨⟨⟨hzero, hbackslash⟩, -⟩, -⟩, hparts⟩⟩ := h
  · exact Or.inl hdot
  · refine Or.inr ?_
    have hsafe : isSafeWorkspacePath path = true := by
      refine isSafeWorkspacePath_iff.mpr ⟨hzero, hbackslash, fun segment hsegment => ?_⟩
      obtain ⟨⟨hnil, hone⟩, htwo⟩ := hparts segment hsegment
      exact ⟨hnil, hone, htwo⟩
    simp only [isRelativePath, Bool.and_eq_true, decide_eq_true_eq]
    exact ⟨⟨hshort, hlong⟩, hsafe⟩

/-- The guest accepts the directory when its bytes are few enough. -/
lemma validateWorkspaceDirectory_cwd (h : isRelativeJobPath path = true)
    (hs : guestString path = some s) (hlength : s.utf8ByteSize ≤ 1024) :
    ∃ parts, validateWorkspaceDirectory (.string s) = .ok parts := by
  have hencode := guestString_eq_some_iff.mp hs
  rcases isWorkspaceDirectory_of_isRelativeJobPath h with rfl | hrelative
  · have hdot : s.toList = ['.'] := Utf16.encode_injective (hencode.trans (by decide))
    refine ⟨[], ?_⟩
    rw [validateWorkspaceDirectory, if_pos]
    rw [Json.asStr, ← s.ofList_toList, hdot]
  · simp only [isRelativePath, Bool.and_eq_true] at hrelative
    have hsafe := hrelative.2
    rw [← hencode] at hsafe
    rw [validateWorkspaceDirectory]
    split
    · exact ⟨_, rfl⟩
    · exact ⟨_, validateRelativePath_eq_ok (isRelativePath_of_safe hsafe hlength)⟩

end Directories

/-! ### What the guest reads -/

section Reading

variable {spec : StructuredJobSpec} {argv : List String} {environment : List (String × String)}

lemma guestVariable_eq_some_iff {p : JsText × JsText} {q : String × String} :
    guestVariable p = some q ↔ (Utf16.encode q.1.toList, Utf16.encode q.2.toList) = p := by
  rw [Prod.ext_iff, ← guestString_eq_some_iff, ← guestString_eq_some_iff]
  constructor
  · intro h
    obtain ⟨name, hname, h⟩ := Option.bind_eq_some_iff.mp h
    obtain ⟨value, hvalue, h⟩ := Option.bind_eq_some_iff.mp h
    cases h
    exact ⟨hname, hvalue⟩
  · rintro ⟨hname, hvalue⟩
    rw [guestVariable, hname, hvalue]
    rfl

lemma mapM_guestString_iff {items : List JsText} {strings : List String} :
    items.mapM guestString = some strings ↔
      (strings.map fun s => Utf16.encode s.toList) = items :=
  Checked.mapM_eq_some_iff fun _ _ => guestString_eq_some_iff

lemma mapM_guestVariable_iff {items : List (JsText × JsText)} {vars : List (String × String)} :
    items.mapM guestVariable = some vars ↔
      (vars.map fun q => (Utf16.encode q.1.toList, Utf16.encode q.2.toList)) = items :=
  Checked.mapM_eq_some_iff fun _ _ => guestVariable_eq_some_iff

/-- The bytes that the two sides count are the same. -/
lemma byteLength_encode (s : String) : Utf16.byteLength (Utf16.encode s.toList) = s.utf8ByteSize :=
  byteLength_guestString (guestString_eq_some_iff.mpr rfl)

lemma validateArgv_argv (hread : spec.argv.mapM guestString = some argv)
    (hfits : ∀ arg ∈ spec.argv, fitsBytes 4096 arg = true) :
    validateArgv (.array (argv.map .string)) = .ok argv := by
  have hencode := mapM_guestString_iff.mp hread
  have hvalid := spec.argv_valid
  simp only [isArgv, Bool.and_eq_true, List.all_eq_true, decide_eq_true_eq] at hvalid
  obtain ⟨⟨⟨hitems, hsome⟩, hmany⟩, hsum⟩ := hvalid
  rw [← hencode, List.length_map] at hsome hmany
  rw [← hencode, List.map_map] at hsum
  have hbytes : (argv.map (Utf16.byteLength ∘ fun s => Utf16.encode s.toList)) =
      argv.map String.utf8ByteSize := List.map_congr_left fun s _ => byteLength_encode s
  rw [hbytes] at hsum
  rw [validateArgv, List.length_map, if_neg (by omega)]
  refine validateArguments_eq_ok (fun s hs => ?_) (by omega)
  have hmem : Utf16.encode s.toList ∈ spec.argv := by
    rw [← hencode]
    exact List.mem_map_of_mem hs
  have hself : guestString (Utf16.encode s.toList) = some s := guestString_eq_some_iff.mpr rfl
  have hitem := hitems _ hmem
  simp only [isArgument, Bool.and_eq_true, decide_eq_true_eq] at hitem
  obtain ⟨s', hs', hlength⟩ := fitsBytes_iff.mp (hfits _ hmem)
  obtain rfl := Option.some.inj (hself.symm.trans hs')
  exact ⟨guestString_ne_empty hself hitem.1.1, hasNul_guestString hself hitem.2, hlength⟩

lemma validateEnvironment_environment (hread : spec.environment.mapM guestVariable = some environment)
    (hfits : ∀ p ∈ spec.environment, fitsBytes 8192 p.2 = true) :
    validateEnvironment (.object ((sortVariables environment).map fun p => (p.1, .string p.2))) =
      .ok (sortVariables environment) := by
  have hencode := mapM_guestVariable_iff.mp hread
  have hsorted : (sortVariables environment).Perm environment := List.perm_insertionSort _ _
  have hvalid := spec.environment_valid
  simp only [isJobEnvironment, Bool.and_eq_true, List.all_eq_true, decide_eq_true_eq] at hvalid
  obtain ⟨⟨⟨hitems, hmany⟩, hallowed⟩, hsum⟩ := hvalid
  rw [← hencode, List.length_map] at hmany
  rw [← hencode, List.map_map] at hsum
  have hbytes : (environment.map (variableBytes ∘
      fun q => (Utf16.encode q.1.toList, Utf16.encode q.2.toList))) =
      environment.map fun p => p.1.utf8ByteSize + p.2.utf8ByteSize :=
    List.map_congr_left fun p _ => by
      simp only [Function.comp_apply, variableBytes, byteLength_encode]
  rw [hbytes, ← (hsorted.map _).sum_eq] at hsum
  rw [validateEnvironment, List.length_map, hsorted.length_eq, if_neg (by omega)]
  refine validateVariables_eq_ok (fun p hp => ?_) (by omega)
  have hmem : (Utf16.encode p.1.toList, Utf16.encode p.2.toList) ∈ spec.environment := by
    rw [← hencode]
    exact List.mem_map.mpr ⟨p, hsorted.mem_iff.mp hp, rfl⟩
  obtain ⟨hname, hvalue⟩ := hitems _ hmem
  simp only [isJobEnvValue, Bool.and_eq_true, decide_eq_true_eq] at hvalue
  have hnameSelf : guestString (Utf16.encode p.1.toList) = some p.1 := guestString_eq_some_iff.mpr rfl
  have hvalueSelf : guestString (Utf16.encode p.2.toList) = some p.2 :=
    guestString_eq_some_iff.mpr rfl
  have hnameText := Option.some.inj (hnameSelf.symm.trans (guestString_name hname))
  obtain ⟨val, hval, hlength⟩ := fitsBytes_iff.mp (hfits _ hmem)
  obtain rfl := Option.some.inj (hvalueSelf.symm.trans hval)
  refine ⟨?_, ?_, hasNul_guestString hvalueSelf hvalue.2, hlength⟩
  · rw [hnameText]
    exact isEnvName_guestString hname
  · rw [hnameText]
    exact isAllowlisted_guestString hname (hallowed _ hmem)

/-- The strings of a specification that can be forwarded are read. -/
lemma exists_decodeStartRequest (id : RequestId) (jobId : RandomUuid) (h : Forwardable spec) :
    ∃ argv cwd environment, spec.argv.mapM guestString = some argv ∧
      guestString spec.cwd = some cwd ∧ cwd.utf8ByteSize ≤ 1024 ∧
      spec.environment.mapM guestVariable = some environment ∧
      decodeStartRequest id jobId spec =
        some (startRequestJson id jobId argv cwd environment spec.timeoutMs) := by
  have hvalid := spec.environment_valid
  simp only [isJobEnvironment, Bool.and_eq_true, List.all_eq_true] at hvalid
  have hargs : ∀ arg ∈ spec.argv, ∃ s, guestString arg = some s := by
    intro arg harg
    obtain ⟨s, hs, -⟩ := fitsBytes_iff.mp (h.argv arg harg)
    exact ⟨s, hs⟩
  have hvars : ∀ p ∈ spec.environment, ∃ q, guestVariable p = some q := by
    intro p hp
    have hname := guestString_name (hvalid.1.1.1 p hp).1
    obtain ⟨val, hval, -⟩ := fitsBytes_iff.mp (h.environment p hp)
    refine ⟨(String.ofList (p.1.map unitChar), val), ?_⟩
    rw [guestVariable, hname, hval]
    rfl
  obtain ⟨argv, hargv⟩ := Checked.exists_mapM hargs
  obtain ⟨cwd, hcwd, hlength⟩ := fitsBytes_iff.mp h.cwd
  obtain ⟨environment, henvironment⟩ := Checked.exists_mapM hvars
  refine ⟨argv, cwd, environment, hargv, hcwd, hlength, henvironment, ?_⟩
  rw [decodeStartRequest, hargv, hcwd, henvironment]
  rfl

end Reading

/-! ### The guest's checks -/

section Guest

variable {id : RequestId} {jobId : RandomUuid} {argv : List String} {cwd : String}
  {environment : List (String × String)} {timeoutMs : ℕ}

lemma validateRequest_startRequestJson :
    validateRequest (startRequestJson id jobId argv cwd environment timeoutMs) = .ok () := by
  have hid : isRequestId (String.ofList id.chars) = true := by
    obtain ⟨hsome, hmany, hchars⟩ := id.valid
    simp only [isRequestId, Bool.and_eq_true, decide_eq_true_eq, List.all_eq_true,
      String.toList_ofList]
    exact ⟨⟨hsome, hmany⟩, hchars⟩
  exact validateRequest_object rfl rfl hid rfl (by decide) rfl

lemma startFromRequest_startRequestJson :
    startFromRequest (startRequestJson id jobId argv cwd environment timeoutMs) =
      JobEngine.validateStart (.string jobId.text) (.array (argv.map .string)) (.string cwd)
        (.object ((sortVariables environment).map fun p => (p.1, .string p.2)))
        (.number (some (timeoutMs : ℤ))) := by
  rw [startFromRequest, Checked.bind_ok validateRequest_startRequestJson]
  rfl

lemma validateJobId_randomUuid (jobId : RandomUuid) :
    validateJobId (.string jobId.text) = .ok jobId.text := by
  simp only [validateJobId, Json.asStr, jobId.canonical]
  rw [if_neg (by simp)]

end Guest

/-! ### The way of a specification -/

section Way

variable {id : RequestId} {jobId : RandomUuid} {spec : StructuredJobSpec}

/-- The schema of the request asks for no more than that of the job. -/
lemma isStartRequest_of_spec (jobId : RandomUuid) (spec : StructuredJobSpec) :
    isStartRequest jobId spec = true := by
  have huuid : isZodUuid jobId.text.toList = true :=
    isZodUuid_of_isUuidText (validateJobId_ok (validateJobId_randomUuid jobId))
  have hargv := spec.argv_valid
  have henvironment := spec.environment_valid
  have htimeout := spec.timeout_valid
  have hcwd : isWorkspaceDirectory spec.cwd = true := by
    rw [isWorkspaceDirectory, Bool.or_eq_true, decide_eq_true_eq]
    exact isWorkspaceDirectory_of_isRelativeJobPath spec.cwd_valid
  simp only [isArgv, isArgument, Bool.and_eq_true, List.all_eq_true, decide_eq_true_eq] at hargv
  simp only [isJobEnvironment, isJobEnvValue, Bool.and_eq_true, List.all_eq_true,
    decide_eq_true_eq] at henvironment
  obtain ⟨⟨⟨hitems, hsome⟩, hmany⟩, -⟩ := hargv
  obtain ⟨⟨⟨hvars, hfew⟩, -⟩, -⟩ := henvironment
  simp only [isStartRequest, Bool.and_eq_true, List.all_eq_true, decide_eq_true_eq]
  exact ⟨⟨⟨⟨huuid, ⟨fun arg harg => (hitems arg harg).1, hsome⟩, hmany⟩, hcwd⟩,
    fun p hp => ⟨(hvars p hp).1, (hvars p hp).2.1⟩, hfew⟩, htimeout⟩

/-- A body that fits makes a frame that fits. -/
lemma startRequest_fits (id : RequestId) (jobId : RandomUuid)
    (h : JsonText.size spec.text ≤ agentBodyLimit) :
    ∃ frame, encodeGuestFrame (startRequestText id jobId spec) = some frame := by
  have huuid := validateJobId_ok (validateJobId_randomUuid jobId)
  simp only [isUuidText, hasUuidShape, Bool.and_eq_true, decide_eq_true_eq] at huuid
  have hunits : (Utf16.encode jobId.text.toList).length ≤ 72 := by
    have hle := Utf16.length_encode_le jobId.text.toList
    omega
  have hjobId := JsonText.size_string_le (Utf16.encode jobId.text.toList)
  have hfield := size_jsonField (by decide : "jobId".toList.all JsonText.isBare = true)
    (jsonString jobId.text)
  have hrequest := size_requestText_le id
    (by decide : "job.start".toList.all JsonText.isBare = true)
    (jsonField "jobId" (jsonString jobId.text) :: spec.jsonFields)
  have hbody := JsonText.sum_size_le_object spec.jsonFields
  have hlengths : "jobId".toList.length = 5 ∧ "job.start".toList.length = 9 := by decide
  have hcount : spec.jsonFields.length = 4 := rfl
  have hlimit : agentBodyLimit = 16384 := rfl
  have hframe : maxGuestFrameBytes = 393216 := rfl
  rw [List.map_cons, List.sum_cons, List.length_cons] at hrequest
  rw [StructuredJobSpec.text] at h
  rw [jsonString] at hfield hrequest
  apply encodeGuestFrame_fits
  rw [startRequestText, jsonString]
  omega

lemma expressJson_agent :
    expressJson agentBodyLimit spec.body =
      if agentBodyLimit < JsonText.size spec.text then none else some spec.toValue := rfl

lemma forwardJob_oversized (h : agentBodyLimit < JsonText.size spec.text) :
    forwardJob id jobId spec = .error .agentBody := by
  rw [forwardJob, expressJson_agent, if_pos h]
  rfl

/-- Beyond the limit of the agent only the guest can refuse. -/
lemma forwardJob_eq (h : JsonText.size spec.text ≤ agentBodyLimit) :
    forwardJob id jobId spec = (do
      let raw ← orRefuse .guestDecoder (decodeStartRequest id jobId spec)
      (startFromRequest raw).mapError .guest) := by
  obtain ⟨frame, hframe⟩ := startRequest_fits id jobId h
  have hschema := isStartRequest_of_spec jobId spec
  rw [forwardJob, expressJson_agent, if_neg (Nat.not_lt.mpr h)]
  simp only [orRefuse, bind, Except.bind, spec.parse_toValue, hframe]
  rw [Checked.rejectIf_of_not (by rw [hschema]; decide)]

/-- What the guest makes of a specification that can be forwarded. -/
lemma validateStart_forwardable (jobId : RandomUuid) {argv : List String} {cwd : String}
    {environment : List (String × String)} (h : Forwardable spec)
    (hargv : spec.argv.mapM guestString = some argv) (hcwd : guestString spec.cwd = some cwd)
    (hlength : cwd.utf8ByteSize ≤ 1024)
    (henvironment : spec.environment.mapM guestVariable = some environment) :
    ∃ start, JobEngine.validateStart (.string jobId.text) (.array (argv.map .string)) (.string cwd)
      (.object ((sortVariables environment).map fun p => (p.1, .string p.2)))
      (.number (some (spec.timeoutMs : ℤ))) = .ok start := by
  obtain ⟨parts, hparts⟩ := validateWorkspaceDirectory_cwd spec.cwd_valid hcwd hlength
  have htimeout := spec.timeout_valid
  have hmax : maxJobTimeoutMs = 7200000 := rfl
  have hinteger : validateInteger (.number (some (spec.timeoutMs : ℤ))) 1000 maxJobTimeoutMs
      "job timeout" = .ok (spec.timeoutMs : ℤ) := by
    apply validateInteger_eq_ok
    · omega
    · omega
    · omega
    · omega
  rw [JobEngine.validateStart, Checked.bind_ok (validateJobId_randomUuid jobId),
    Checked.bind_ok (validateArgv_argv hargv h.argv), Checked.bind_ok hparts,
    Checked.bind_ok hinteger,
    Checked.bind_ok (validateEnvironment_environment henvironment h.environment)]
  exact ⟨_, rfl⟩

/-- What the guest has accepted was within its limits. -/
lemma fitsBytes_of_validateStart {jobId' timeout : Json} {argv : List String} {cwd : String}
    {environment : List (String × String)} {start : StartSpec}
    (hargv : spec.argv.mapM guestString = some argv) (hcwd : guestString spec.cwd = some cwd)
    (henvironment : spec.environment.mapM guestVariable = some environment)
    (h : JobEngine.validateStart jobId' (.array (argv.map .string)) (.string cwd)
      (.object ((sortVariables environment).map fun p => (p.1, .string p.2))) timeout = .ok start) :
    (∀ arg ∈ spec.argv, fitsBytes 4096 arg = true) ∧ fitsBytes 1024 spec.cwd = true ∧
      ∀ p ∈ spec.environment, fitsBytes 8192 p.2 = true := by
  rw [JobEngine.validateStart] at h
  obtain ⟨_, -, h⟩ := Checked.of_bind_ok h
  obtain ⟨argv', hargv', h⟩ := Checked.of_bind_ok h
  obtain ⟨parts, hparts, h⟩ := Checked.of_bind_ok h
  obtain ⟨_, -, h⟩ := Checked.of_bind_ok h
  obtain ⟨environment', henvironment', -⟩ := Checked.of_bind_ok h
  refine ⟨?_, fitsBytes_iff.mpr ⟨cwd, hcwd, utf8ByteSize_of_validateWorkspaceDirectory hparts⟩, ?_⟩
  · intro arg harg
    rw [← mapM_guestString_iff.mp hargv] at harg
    obtain ⟨s, hs, rfl⟩ := List.mem_map.mp harg
    rw [validateArgv] at hargv'
    split at hargv'
    · cases hargv'
    · obtain ⟨s', hs', hvalid⟩ := validateArguments_ok hargv' _ (List.mem_map_of_mem hs)
      obtain rfl := Option.some.inj hs'
      exact fitsBytes_iff.mpr ⟨s, guestString_eq_some_iff.mpr rfl, hvalid.length_le⟩
  · intro p hp
    rw [← mapM_guestVariable_iff.mp henvironment] at hp
    obtain ⟨q, hq, rfl⟩ := List.mem_map.mp hp
    have hsorted : q ∈ sortVariables environment :=
      (List.perm_insertionSort (fun p q : String × String => p.1 ≤ q.1) environment).mem_iff.mpr hq
    rw [validateEnvironment] at henvironment'
    split at henvironment'
    · cases henvironment'
    · obtain ⟨val, hval, hvalid⟩ := validateVariables_ok henvironment' _
        (List.mem_map.mpr ⟨q, hsorted, rfl⟩)
      obtain rfl := Option.some.inj hval
      exact fitsBytes_iff.mpr ⟨q.2, guestString_eq_some_iff.mpr rfl, hvalid.length_le⟩

end Way

/-- Every hop accepts exactly the specifications that can be forwarded. -/
theorem forwards_iff (id : RequestId) (jobId : RandomUuid) (spec : StructuredJobSpec) :
    Forwards id jobId spec ↔ Forwardable spec := by
  constructor
  · rintro ⟨start, hstart⟩
    have hbody : JsonText.size spec.text ≤ agentBodyLimit := by
      by_contra hlarge
      rw [forwardJob_oversized (by omega)] at hstart
      cases hstart
    rw [forwardJob_eq hbody] at hstart
    obtain ⟨raw, hraw, hstart⟩ := Checked.of_bind_ok hstart
    have hdecode : decodeStartRequest id jobId spec = some raw := by
      cases h : decodeStartRequest id jobId spec with
      | none =>
        rw [h] at hraw
        cases hraw
      | some raw' =>
        rw [h] at hraw
        cases hraw
        rfl
    obtain ⟨argv, hargv, hread⟩ := Option.bind_eq_some_iff.mp hdecode
    obtain ⟨cwd, hcwd, hread⟩ := Option.bind_eq_some_iff.mp hread
    obtain ⟨environment, henvironment, hread⟩ := Option.bind_eq_some_iff.mp hread
    cases hread
    rw [startFromRequest_startRequestJson] at hstart
    cases hvalid : JobEngine.validateStart (.string jobId.text) (.array (argv.map .string))
        (.string cwd) (.object ((sortVariables environment).map fun p => (p.1, .string p.2)))
        (.number (some (spec.timeoutMs : ℤ))) with
    | error e =>
      rw [hvalid] at hstart
      cases hstart
    | ok start' =>
      obtain ⟨hargs, hdirectory, hvars⟩ :=
        fitsBytes_of_validateStart hargv hcwd henvironment hvalid
      exact ⟨hbody, hargs, hdirectory, hvars⟩
  · intro h
    obtain ⟨argv, cwd, environment, hargv, hcwd, hlength, henvironment, hdecode⟩ :=
      exists_decodeStartRequest id jobId h
    obtain ⟨start, hstart⟩ :=
      validateStart_forwardable jobId h hargv hcwd hlength henvironment
    refine ⟨start, ?_⟩
    rw [forwardJob_eq h.body, hdecode]
    simp only [orRefuse, bind, Except.bind]
    rw [startFromRequest_startRequestJson, hstart]
    rfl

/-- The control plane accepts a specification as it writes it. -/
lemma StructuredJobSpec.acceptJobBody_body (spec : StructuredJobSpec)
    (h : JsonText.size spec.text ≤ controlBodyLimit) : acceptJobBody spec.body = some spec := by
  have hbytes : ¬controlBodyLimit < spec.body.bytes.length := Nat.not_lt.mpr h
  rw [acceptJobBody, expressJson, if_neg hbytes, Option.bind_some]
  show parseStructuredJobSpec spec.toValue = some spec
  exact spec.parse_toValue

/-- If the control plane accepts the body, every hop accepts its job. -/
def BodyForwards (id : RequestId) (jobId : RandomUuid) (body : JobBody) : Prop :=
  ∀ spec, acceptJobBody body = some spec → Forwards id jobId spec

/-- The job of a body is forwarded exactly when it fits the body limit of the agent and the byte limits
of the guest. -/
theorem bodyForwards_iff (id : RequestId) (jobId : RandomUuid) (body : JobBody) :
    BodyForwards id jobId body ↔ ∀ spec, acceptJobBody body = some spec → Forwardable spec :=
  forall_congr' fun spec => imp_congr_right fun _ => forwards_iff id jobId spec

def zeroUuid : RandomUuid := ⟨"00000000-0000-4000-8000-000000000000", by decide +kernel⟩

def longArgument : JsText := Utf16.encode (List.replicate 4000 'x')

lemma isBare_longArgument : ∀ c ∈ List.replicate 4000 'x', JsonText.isBare c = true := by
  intro c hc
  rw [List.eq_of_mem_replicate hc]
  decide

lemma size_longArgument : JsonText.size (JsonText.string longArgument) = 4002 := by
  rw [longArgument, JsonText.size_string_of_bare isBare_longArgument, List.length_replicate]

lemma byteLength_longArgument : Utf16.byteLength longArgument = 4000 := by
  have hascii : ∀ c ∈ List.replicate 4000 'x', c.val.toNat < 128 := by
    intro c hc
    rw [List.eq_of_mem_replicate hc]
    decide
  rw [longArgument, Utf16.byteLength_of_decode (Utf16.decode_encode _)]
  exact (JsonText.size_of_ascii hascii).trans (List.length_replicate)

/-- Five arguments of 4000 characters. -/
def wideSpec : StructuredJobSpec where
  argv := List.replicate 5 longArgument
  cwd := JsText.dot
  environment := []
  timeoutMs := 1000
  argv_valid := by
    have hvalid : isArgument longArgument = true := by decide +kernel
    rw [isArgv, List.map_replicate, byteLength_longArgument]
    simp [hvalid]
  cwd_valid := by decide
  environment_valid := by decide
  names_nodup := List.nodup_nil
  timeout_valid := by decide

/-- The size of a body from its arguments and its other fields. -/
lemma size_text_bounds (spec : StructuredJobSpec) {items rest : ℕ}
    (hitems : ((spec.argv.map JsonText.string).map JsonText.size).sum = items)
    (hrest : (spec.jsonFields.tail.map JsonText.size).sum = rest) :
    items < JsonText.size spec.text ∧
      JsonText.size spec.text ≤ items + rest + spec.argv.length + 20 := by
  have hlow := JsonText.sum_size_le_array (spec.argv.map JsonText.string)
  have hhigh := JsonText.size_array_le (spec.argv.map JsonText.string)
  have hargv := size_jsonField (by decide : "argv".toList.all JsonText.isBare = true)
    (JsonText.array (spec.argv.map JsonText.string))
  have hkey : "argv".toList.length = 4 := rfl
  have hobject := JsonText.sum_size_le_object spec.jsonFields
  have hobject' := JsonText.size_object_le spec.jsonFields
  have hcons : (spec.jsonFields.map JsonText.size).sum =
      JsonText.size (jsonField "argv" (JsonText.array (spec.argv.map JsonText.string))) + rest := by
    rw [← hrest]
    rfl
  have hfour : spec.jsonFields.length = 4 := rfl
  rw [List.length_map] at hhigh
  rw [StructuredJobSpec.text]
  omega

/-- The body of the specification lies between the two limits. -/
lemma size_wideSpec :
    agentBodyLimit < JsonText.size wideSpec.text ∧ JsonText.size wideSpec.text ≤ controlBodyLimit := by
  have hargs : wideSpec.argv.map JsonText.string =
      List.replicate 5 (JsonText.string longArgument) := List.map_replicate
  have hitems : ((wideSpec.argv.map JsonText.string).map JsonText.size).sum = 20010 := by
    rw [hargs, List.map_replicate, size_longArgument, List.sum_replicate_nat]
  have hrest : (wideSpec.jsonFields.tail.map JsonText.size).sum = 41 := by decide +kernel
  have hlength : wideSpec.argv.length = 5 := List.length_replicate
  have hlimits : agentBodyLimit = 16384 ∧ controlBodyLimit = 65536 := ⟨rfl, rfl⟩
  have hbounds := size_text_bounds wideSpec hitems hrest
  omega

theorem not_bodyForwards_wideSpec : ¬∀ id jobId body, BodyForwards id jobId body := by
  intro h
  have haccepted : acceptJobBody wideSpec.body = some wideSpec :=
    wideSpec.acceptJobBody_body size_wideSpec.2
  obtain ⟨start, hstart⟩ := h default zeroUuid wideSpec.body wideSpec haccepted
  rw [forwardJob_oversized size_wideSpec.1] at hstart
  cases hstart

end Bloom
