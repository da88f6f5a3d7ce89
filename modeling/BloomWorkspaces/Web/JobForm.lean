import BloomWorkspaces.Jobs.Forwarding
import BloomWorkspaces.Library.JsString

/-!
# The form for a job

What the page makes of the fields of its form, and what becomes of the request that it then sends: the page
has limits of its own, which are not those of every hop behind it.
-/

namespace Bloom

/-! ### The checks of the page -/

/-- The form. `argv` is what `JSON.parse` makes of the text, `none` where it throws, and `timeout` is `Number` of
the text. -/
structure JobForm where
  argv : Option JsValue
  cwd : JsText
  environment : List (JsText × JsText)
  timeout : JsNumber

namespace JobForm

def isArgvItem : JsValue → Bool
  | .string item => item ≠ [] && 0 ∉ item
  | _ => false

def parseStructuredArgv : Option JsValue → Except JsText (List JsText)
  | none => .error (jsText "Arguments must be valid JSON, for example [\"npm\", \"test\"].")
  | some (.array items) =>
    if items = [] ∨ 64 < items.length ∨ ¬items.all isArgvItem then
      .error (jsText "Arguments must be a JSON array of 1–64 non-empty strings.")
    else
      let value := items.filterMap JsValue.readString
      if value.any (4096 < ·.length) ∨ 32 * 1024 < (value.map Utf16.byteLength).sum then
        .error (jsText "Arguments exceed the job size limit.")
      else .ok value
  | some _ => .error (jsText "Arguments must be a JSON array of 1–64 non-empty strings.")

def normalizeWorkspacePath (source : JsText) (allowRoot : Bool) : Except JsText JsText :=
  let path := JsString.trim source
  if allowRoot ∧ path = JsText.dot then .ok path
  else if path = [] ∨ 4096 < path.length ∨ path.head? = some JsText.slash ∨ path.getLast? = some JsText.slash ∨
      92 ∈ path ∨ 0 ∈ path then
    .error (jsText "Use a relative path below /workspace.")
  else if (path.splitOn JsText.slash).any fun part =>
      part = [] || part = JsText.dot || part = JsText.dotDot then
    .error (jsText "The path cannot contain empty, . or .. segments.")
  else .ok path

def environmentNames : List String := [
  "CI", "DEBUG", "FORCE_COLOR", "LANG", "LC_ALL", "LOG_LEVEL", "NODE_ENV", "NO_COLOR",
  "PYTHONUNBUFFERED", "RUST_BACKTRACE", "RUST_LOG", "TERM", "TZ"]

def environmentPrefixes : List String := ["APP_", "JOB_", "TEST_"]

def isAllowlistedEnvironmentName (name : JsText) : Bool :=
  isJobEnvName name &&
    ((environmentNames.map jsText).contains name ||
      (environmentPrefixes.map jsText).any fun p => p.isPrefixOf name)

/-- A turn of the loop in `buildJobEnvironment`, with the environment and its bytes. -/
def addRow (built : List (JsText × JsText) × ℕ) (row : JsText × JsText) :
    Except JsText (List (JsText × JsText) × ℕ) :=
  let name := JsString.trim row.1
  if name = [] ∧ row.2 = [] then .ok built
  else if ¬isAllowlistedEnvironmentName name then
    .error ((if name = [] then jsText "Environment name" else name) ++
      jsText " is not allowlisted. Use a listed name or APP_, JOB_, or TEST_ prefix.")
  else if built.1.any fun p => p.1 = name then .error (name ++ jsText " is duplicated.")
  else if 0 ∈ row.2 ∨ 8192 < row.2.length then
    .error (name ++ jsText " has an invalid or oversized value.")
  else .ok (built.1 ++ [(name, row.2)], built.2 + Utf16.byteLength (name ++ row.2))

def buildJobEnvironment (rows : List (JsText × JsText)) : Except JsText (List (JsText × JsText)) := do
  let built ← rows.foldlM addRow ([], 0)
  if 64 < built.1.length ∨ 32 * 1024 < built.2 then .error (jsText "Environment exceeds the job limit.")
  else .ok built.1

/-- `MAX_JOB_TIMEOUT_MS` of the page -/
def maxTimeoutMs : ℕ := 2 * 60 * 60000

def parseTimeoutSeconds : JsNumber → Except JsText ℕ
  | some seconds =>
    if seconds < 1 ∨ (maxTimeoutMs / 1000 : ℕ) < seconds then
      .error (jsText "Timeout must be between 1 second and 2 hours.")
    else .ok (seconds * 1000).toNat
  | none => .error (jsText "Timeout must be between 1 second and 2 hours.")

end JobForm

/-- The specification that the page sends. -/
structure JobDraft where
  argv : List JsText
  cwd : JsText
  environment : List (JsText × JsText)
  timeoutMs : ℕ
  deriving DecidableEq

/-- The beginning of `startJob`. -/
def JobForm.draft (form : JobForm) : Except JsText JobDraft := do
  let argv ← parseStructuredArgv form.argv
  let cwd ← normalizeWorkspacePath form.cwd true
  let environment ← buildJobEnvironment form.environment
  let timeoutMs ← parseTimeoutSeconds form.timeout
  return ⟨argv, cwd, environment, timeoutMs⟩

namespace JobDraft

/-- `JSON.stringify(spec)` -/
def text (draft : JobDraft) : List Char :=
  JsonText.object
    [jsonField "argv" (JsonText.array (draft.argv.map JsonText.string)),
      jsonField "cwd" (JsonText.string draft.cwd),
      jsonField "environment"
        (JsonText.object (draft.environment.map fun p => JsonText.field p.1 (JsonText.string p.2))),
      jsonField "timeoutMs" (JsonText.number draft.timeoutMs)]

def fields (draft : JobDraft) : List (JsText × JsValue) :=
  [(jsText "argv", .array (draft.argv.map .string)), (jsText "cwd", .string draft.cwd),
    (jsText "environment", .object (draft.environment.map fun p => (p.1, .string p.2))),
    (jsText "timeoutMs", .number (some (draft.timeoutMs : ℤ)))]

/-- What the control plane reads of it. -/
def toValue (draft : JobDraft) : JsValue := .object draft.fields

def body (draft : JobDraft) : JobBody := ⟨Utf8.encode draft.text, draft.toValue⟩

/-- The request of the page is accepted by every hop. -/
def Starts (id : RequestId) (jobId : RandomUuid) (draft : JobDraft) : Prop :=
  ∃ spec, acceptJobBody draft.body = some spec ∧ Forwards id jobId spec

/-- The request fits the body limit of the agent, and every string the limit that the guest has for its
bytes. -/
structure Fits (draft : JobDraft) : Prop where
  body : JsonText.size draft.text ≤ agentBodyLimit
  argv : ∀ arg ∈ draft.argv, fitsBytes 4096 arg = true
  cwd : fitsBytes 1024 draft.cwd = true
  environment : ∀ p ∈ draft.environment, fitsBytes 8192 p.2 = true

end JobDraft

/-! ### What the page lets through -/

namespace JobForm

variable {form : JobForm} {draft : JobDraft}

lemma length_filterMap_readString {items : List JsValue} (h : items.all isArgvItem = true) :
    (items.filterMap JsValue.readString).length = items.length ∧
      ∀ item ∈ items.filterMap JsValue.readString, item ≠ [] ∧ 0 ∉ item := by
  induction items with
  | nil => exact ⟨rfl, fun _ hmem => absurd hmem List.not_mem_nil⟩
  | cons item items ih =>
    rw [List.all_cons, Bool.and_eq_true] at h
    obtain ⟨hlength, hitems⟩ := ih h.2
    cases item with
    | string text =>
      have htext := h.1
      simp only [isArgvItem, Bool.and_eq_true, decide_eq_true_eq] at htext
      have hread : (JsValue.string text :: items).filterMap JsValue.readString =
          text :: items.filterMap JsValue.readString := rfl
      rw [hread, List.length_cons, List.length_cons, hlength]
      refine ⟨rfl, fun item hmem => ?_⟩
      rcases List.mem_cons.mp hmem with rfl | hmem
      · exact htext
      · exact hitems item hmem
    | null => cases h.1
    | bool b => cases h.1
    | number n => cases h.1
    | array items => cases h.1
    | object fields => cases h.1

lemma isArgv_of_parse {value : Option JsValue} {argv : List JsText} (h : parseStructuredArgv value = .ok argv) :
    isArgv argv = true := by
  revert h
  fun_cases parseStructuredArgv value with
  | case4 items hitems argv hsize =>
    intro h
    obtain rfl := Except.ok.inj h
    simp only [not_or, not_not] at hitems
    obtain ⟨hne, hmany, hall⟩ := hitems
    obtain ⟨hlength, hread⟩ := length_filterMap_readString hall
    change argv.length = items.length at hlength
    have hpos := List.length_pos_iff.mpr hne
    simp only [not_or, List.any_eq_true, not_exists, not_and, decide_eq_true_eq, not_lt] at hsize
    simp only [isArgv, Bool.and_eq_true, decide_eq_true_eq, List.all_eq_true]
    refine ⟨⟨⟨fun item hmem => ?_, by omega⟩, by omega⟩, hsize.2⟩
    have hitem := hread item hmem
    have hchars := List.length_pos_iff.mpr hitem.1
    simp only [isArgument, Bool.and_eq_true, decide_eq_true_eq]
    exact ⟨⟨hchars, hsize.1 item hmem⟩, hitem.2⟩
  | case1 => exact fun h => by cases h
  | case2 => exact fun h => by cases h
  | case3 => exact fun h => by cases h
  | case5 => exact fun h => by cases h

/-- The page has a limit of its own for paths. -/
lemma isRelativeJobPath_iff {source path : JsText} (h : normalizeWorkspacePath source true = .ok path) :
    isRelativeJobPath path = true ↔ path.length ≤ 1024 := by
  simp only [normalizeWorkspacePath] at h
  split_ifs at h with hroot hshape hparts
  · obtain rfl := Except.ok.inj h
    rw [hroot.2]
    decide
  · obtain rfl := Except.ok.inj h
    generalize JsString.trim source = path at hshape hparts
    simp only [not_or] at hshape
    obtain ⟨hne, -, hfirst, hlast, hbackslash, hnul⟩ := hshape
    have hpos := List.length_pos_iff.mpr hne
    have hsegments : ((path.splitOn JsText.slash).all fun part =>
        part ≠ [] && part ≠ JsText.dot && part ≠ JsText.dotDot) = true := by
      rw [List.all_eq_true]
      intro part hmem
      rw [List.any_eq_true, not_exists] at hparts
      have hpart := hparts part
      simp only [hmem, true_and, Bool.or_eq_true, decide_eq_true_eq, not_or] at hpart
      simp only [Bool.and_eq_true, decide_eq_true_eq]
      exact hpart
    rw [isRelativeJobPath, hsegments]
    simp only [hnul, hbackslash, hfirst, hlast, decide_false, Bool.or_false, Bool.not_false, Bool.and_true,
      Bool.or_true, Bool.and_eq_true, decide_eq_true_eq]
    omega

/-- A turn of the loop keeps what the schema asks. -/
structure Built (built : List (JsText × JsText) × ℕ) : Prop where
  names : ∀ p ∈ built.1, isJobEnvName p.1 = true ∧ isAllowlistedJobEnvironmentName p.1 = true
  values : ∀ p ∈ built.1, isJobEnvValue p.2 = true
  nodup : (built.1.map Prod.fst).Nodup
  bytes : built.2 = (built.1.map variableBytes).sum

lemma toWellFormed_append {name : JsText} (h : ∀ u ∈ name, u.toNat < 55296) (value : JsText) :
    Utf16.toWellFormed (name ++ value) = Utf16.toWellFormed name ++ Utf16.toWellFormed value := by
  induction name with
  | nil => rfl
  | cons u name ih =>
    have hu := h u List.mem_cons_self
    rw [List.cons_append, Utf16.toWellFormed_plain (Or.inl hu), Utf16.toWellFormed_plain (Or.inl hu),
      ih fun v hv => h v (List.mem_cons_of_mem _ hv), List.cons_append]

/-- A name has no surrogates, so its bytes and those of its value add up. -/
lemma byteLength_append {name : JsText} (h : isJobEnvName name = true) (value : JsText) :
    Utf16.byteLength (name ++ value) = variableBytes (name, value) := by
  have hplain : ∀ u ∈ name, u.toNat < 55296 := fun u hu =>
    toNat_lt_of_isNameChar (isNameChar_of_isJobEnvName h u hu)
  rw [variableBytes, Utf16.byteLength, toWellFormed_append hplain, Utf8.encode, List.flatMap_append,
    List.length_append]
  rfl

lemma built_addRow {built built' : List (JsText × JsText) × ℕ} {row : JsText × JsText} (h : Built built)
    (hrow : addRow built row = .ok built') : Built built' := by
  simp only [addRow] at hrow
  generalize JsString.trim row.1 = name at hrow
  split_ifs at hrow with hblank hallowed hduplicate hvalue
  · obtain rfl := Except.ok.inj hrow
    exact h
  · obtain rfl := Except.ok.inj hrow
    rw [isAllowlistedEnvironmentName, Bool.and_eq_true] at hallowed
    obtain ⟨hname, hlisted⟩ := hallowed
    rw [not_or, not_lt] at hvalue
    refine ⟨?_, ?_, ?_, ?_⟩
    · intro p hmem
      rcases List.mem_append.mp hmem with hmem | hmem
      · exact h.names p hmem
      · obtain rfl := List.mem_singleton.mp hmem
        exact ⟨hname, hlisted⟩
    · intro p hmem
      rcases List.mem_append.mp hmem with hmem | hmem
      · exact h.values p hmem
      · obtain rfl := List.mem_singleton.mp hmem
        simp only [isJobEnvValue, Bool.and_eq_true, decide_eq_true_eq]
        exact ⟨hvalue.2, hvalue.1⟩
    · rw [List.map_append, List.nodup_append]
      refine ⟨h.nodup, List.nodup_singleton _, ?_⟩
      rintro key hkey key' hkey' rfl
      obtain ⟨p, hp, rfl⟩ := List.mem_map.mp hkey
      rw [List.map_singleton, List.mem_singleton] at hkey'
      exact hduplicate (List.any_eq_true.mpr ⟨p, hp, decide_eq_true hkey'⟩)
    · rw [List.map_append, List.sum_append, List.map_singleton, List.sum_singleton, h.bytes,
        byteLength_append hname]

lemma isJobEnvironment_of_build {rows environment : List (JsText × JsText)}
    (h : buildJobEnvironment rows = .ok environment) :
    isJobEnvironment environment = true ∧ (environment.map Prod.fst).Nodup := by
  obtain ⟨built, hbuilt, hlimits⟩ := Checked.of_bind_ok h
  have hok : Built built := Checked.of_foldlM_ok (fun _ _ _ => built_addRow) hbuilt
    ⟨fun _ hmem => absurd hmem List.not_mem_nil, fun _ hmem => absurd hmem List.not_mem_nil,
      List.nodup_nil, rfl⟩
  split_ifs at hlimits with hlarge
  obtain rfl := Except.ok.inj hlimits
  rw [not_or, not_lt, not_lt, hok.bytes] at hlarge
  refine ⟨?_, hok.nodup⟩
  simp only [isJobEnvironment, Bool.and_eq_true, decide_eq_true_eq, List.all_eq_true]
  exact ⟨⟨⟨fun p hmem => ⟨(hok.names p hmem).1, hok.values p hmem⟩, hlarge.1⟩,
    fun p hmem => (hok.names p hmem).2⟩, hlarge.2⟩

lemma timeout_of_parse {seconds : JsNumber} {timeoutMs : ℕ} (h : parseTimeoutSeconds seconds = .ok timeoutMs) :
    1000 ≤ timeoutMs ∧ timeoutMs ≤ maxJobTimeoutMs := by
  cases seconds with
  | none => cases h
  | some seconds =>
    simp only [parseTimeoutSeconds] at h
    split_ifs at h with hbounds
    obtain rfl := Except.ok.inj h
    have hmax : maxTimeoutMs = 7200000 := rfl
    have hmax' : maxJobTimeoutMs = 7200000 := rfl
    omega

/-- What the page asks of a form is what the schema of the control plane asks, but for the length of the
directory. -/
structure Passes (draft : JobDraft) : Prop where
  argv : isArgv draft.argv = true
  cwd : isRelativeJobPath draft.cwd = true ↔ draft.cwd.length ≤ 1024
  environment : isJobEnvironment draft.environment = true
  nodup : (draft.environment.map Prod.fst).Nodup
  timeout : 1000 ≤ draft.timeoutMs ∧ draft.timeoutMs ≤ maxJobTimeoutMs

lemma passes_of_draft (h : form.draft = .ok draft) : Passes draft := by
  obtain ⟨argv, hargv, h⟩ := Checked.of_bind_ok h
  obtain ⟨cwd, hcwd, h⟩ := Checked.of_bind_ok h
  obtain ⟨environment, henvironment, h⟩ := Checked.of_bind_ok h
  obtain ⟨timeoutMs, htimeoutMs, h⟩ := Checked.of_bind_ok h
  obtain rfl := Except.ok.inj h
  obtain ⟨henv, hnodup⟩ := isJobEnvironment_of_build henvironment
  exact ⟨isArgv_of_parse hargv, isRelativeJobPath_iff hcwd, henv, hnodup, timeout_of_parse htimeoutMs⟩

/-- The draft as the specification that the control plane makes of it. -/
def Passes.spec (h : Passes draft) (hcwd : draft.cwd.length ≤ 1024) : StructuredJobSpec where
  argv := draft.argv
  cwd := draft.cwd
  environment := draft.environment
  timeoutMs := draft.timeoutMs
  argv_valid := h.argv
  cwd_valid := h.cwd.mpr hcwd
  environment_valid := h.environment
  names_nodup := h.nodup
  timeout_valid := h.timeout

lemma parse_toValue (h : Passes draft) (hcwd : draft.cwd.length ≤ 1024) :
    parseStructuredJobSpec draft.toValue = some (h.spec hcwd) := by
  have hvalue : (h.spec hcwd).toValue = draft.toValue := rfl
  rw [← hvalue]
  exact (h.spec hcwd).parse_toValue

lemma cwd_of_check {argv : List JsText} {cwd : JsText} {environment : List (JsText × JsText)} {timeoutMs : ℕ}
    {spec : StructuredJobSpec} (h : checkJobSpec argv cwd environment timeoutMs = some spec) : spec.cwd = cwd := by
  rw [checkJobSpec] at h
  split_ifs at h
  rw [← Option.some.inj h]

lemma cwd_of_parse {spec : StructuredJobSpec} (h : parseStructuredJobSpec draft.toValue = some spec) :
    spec.cwd = draft.cwd := by
  have hkeys : draft.fields.map Prod.fst = jobSpecKeys := rfl
  rw [JobDraft.toValue, parseStructuredJobSpec, JsObject.ofFields_of_nodup (by rw [hkeys]; decide)] at h
  split_ifs at h
  obtain ⟨argv, -, h⟩ := Option.bind_eq_some_iff.mp h
  obtain ⟨cwd, hcwd, h⟩ := Option.bind_eq_some_iff.mp h
  obtain ⟨environment, -, h⟩ := Option.bind_eq_some_iff.mp h
  obtain ⟨timeoutMs, -, h⟩ := Option.bind_eq_some_iff.mp h
  rw [cwd_of_check h]
  exact (Option.some.inj hcwd).symm

lemma length_le_of_fits {limit : ℕ} {s : JsText} (h : fitsBytes limit s = true) : s.length ≤ limit := by
  obtain ⟨text, htext, hlength⟩ := (Option.any_eq_true _ _).mp h
  have hunits := Utf16.length_encode_le_bytes text
  rw [Utf16.encode_of_decode htext] at hunits
  exact hunits.trans (of_decide_eq_true hlength)

end JobForm

/-- Every hop accepts the request of a form exactly when it fits the body limit of the agent, which is a quarter
of that of the control plane, and the byte limits of the guest, where the page counts characters. -/
theorem starts_iff (id : RequestId) (jobId : RandomUuid) (form : JobForm) (draft : JobDraft)
    (h : form.draft = .ok draft) : draft.Starts id jobId ↔ draft.Fits := by
  have hpasses := JobForm.passes_of_draft h
  constructor
  · rintro ⟨spec, haccepted, hforwards⟩
    obtain ⟨value, hvalue, hparsed⟩ := Option.bind_eq_some_iff.mp haccepted
    rw [expressJson] at hvalue
    split_ifs at hvalue
    obtain rfl := Option.some.inj hvalue
    have hcwd := hpasses.cwd.mp (JobForm.cwd_of_parse hparsed ▸ spec.cwd_valid)
    have hspec := (JobForm.parse_toValue hpasses hcwd).symm.trans hparsed
    obtain rfl := Option.some.inj hspec
    have hfits := (forwards_iff id jobId _).mp hforwards
    exact ⟨hfits.body, hfits.argv, hfits.cwd, hfits.environment⟩
  · intro hfits
    have hcwd := JobForm.length_le_of_fits hfits.cwd
    have hbody : JsonText.size draft.text ≤ controlBodyLimit := hfits.body.trans (by decide)
    refine ⟨hpasses.spec hcwd, ?_, (forwards_iff id jobId _).mpr
      ⟨hfits.body, hfits.argv, hfits.cwd, hfits.environment⟩⟩
    have hbytes : ¬controlBodyLimit < draft.body.bytes.length := Nat.not_lt.mpr hbody
    rw [acceptJobBody, expressJson, if_neg hbytes, Option.bind_some]
    exact JobForm.parse_toValue hpasses hcwd

/-- `["npm", "test"]` in the workspace itself, with a variable and an empty row. -/
def JobForm.npmTest : JobForm where
  argv := some (.array [.string (jsText "npm"), .string (jsText "test")])
  cwd := jsText " . "
  environment := [(jsText "CI", jsText "1"), ([], [])]
  timeout := some 60

def JobDraft.npmTest : JobDraft :=
  ⟨[jsText "npm", jsText "test"], JsText.dot, [(jsText "CI", jsText "1")], 60000⟩

theorem starts_iff_npmTest :
    JobForm.npmTest.draft = .ok JobDraft.npmTest ∧
      (JobDraft.npmTest.Starts default zeroUuid ↔ JobDraft.npmTest.Fits) :=
  have hdraft : JobForm.npmTest.draft = .ok JobDraft.npmTest := by decide +kernel
  ⟨hdraft, starts_iff default zeroUuid JobForm.npmTest JobDraft.npmTest hdraft⟩

end Bloom
