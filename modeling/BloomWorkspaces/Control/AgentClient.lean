import BloomWorkspaces.Agent.Routes
import Mathlib.Data.List.TakeWhile

/-!
# The client of the node agent

The request lines of `AgentClient`. The router of the agent reads each of them back as the call it was
written for, with the same identifiers and the same path, whatever characters these contain.
-/

namespace Bloom

open AgentRouter

/-- A call of the agent with what stands in the target of its request. -/
inductive AgentCall
  | health
  | create
  | status (id : JsText)
  | stop (id : JsText)
  | listFiles (id path : JsText)
  | readFile (id path : JsText)
  | writeFile (id path : JsText)
  | deleteFile (id path : JsText)
  | destroyVolume (id : JsText)
  | startJob (id : JsText)
  | jobStatus (id jobId : JsText) (offset maxBytes : ℕ)
  | cancelJob (id jobId : JsText)
  | bloomStatus (id : JsText)
  | ceremonyPending (id : JsText)
  | ceremonyApprove (id txId : JsText)
  | connections (id : JsText)
  | issueSsh (id : JsText)
  | revokeSsh (id leaseId : JsText)
  deriving DecidableEq

namespace AgentClient

/-- `/v1/workspaces/${encodeURIComponent(id)}/files` and the like. -/
def pathText (parts : List JsText) : JsText := parts.flatMap fun part => JsText.slash :: part

def workspacePath (id : JsText) (rest : List JsText) : JsText :=
  pathText (jsText "v1" :: jsText "workspaces" :: id :: rest)

def numberText (n : ℕ) : JsText := Utf16.encode (Nat.toDigits 10 n)

def filePath (id path : JsText) (content : Bool) : Option JsText := do
  let id ← UriComponent.encode id
  let path ← UriComponent.encode path
  let files := jsText "files" :: if content then [jsText "content"] else []
  pure (workspacePath id files ++ jsText "?path=" ++ path)

/-- The method and the path of a call; `encodeURIComponent` throws on a lone surrogate. -/
def request : AgentCall → Option WireRequest
  | .health => pure ⟨.get, pathText [jsText "v1", jsText "health"]⟩
  | .create => pure ⟨.post, pathText [jsText "v1", jsText "workspaces"]⟩
  | .status id => do pure ⟨.get, workspacePath (← UriComponent.encode id) []⟩
  | .stop id => do pure ⟨.delete, workspacePath (← UriComponent.encode id) []⟩
  | .listFiles id path => do pure ⟨.get, ← filePath id path false⟩
  | .readFile id path => do pure ⟨.get, ← filePath id path true⟩
  | .writeFile id path => do pure ⟨.put, ← filePath id path false⟩
  | .deleteFile id path => do pure ⟨.delete, ← filePath id path false⟩
  | .destroyVolume id => do
    pure ⟨.delete, pathText [jsText "v1", jsText "volumes", ← UriComponent.encode id]⟩
  | .startJob id => do pure ⟨.post, workspacePath (← UriComponent.encode id) [jsText "jobs"]⟩
  | .jobStatus id jobId offset maxBytes => do
    let id ← UriComponent.encode id
    let jobId ← UriComponent.encode jobId
    pure ⟨.get, workspacePath id [jsText "jobs", jobId] ++ jsText "?offset=" ++ numberText offset ++
      jsText "&maxBytes=" ++ numberText maxBytes⟩
  | .cancelJob id jobId => do
    let id ← UriComponent.encode id
    let jobId ← UriComponent.encode jobId
    pure ⟨.delete, workspacePath id [jsText "jobs", jobId]⟩
  | .bloomStatus id => do pure ⟨.get, workspacePath (← UriComponent.encode id) [jsText "bloom"]⟩
  | .ceremonyPending id => do pure ⟨.get, workspacePath (← UriComponent.encode id) [jsText "ceremony"]⟩
  | .ceremonyApprove id txId => do
    let id ← UriComponent.encode id
    let txId ← UriComponent.encode txId
    pure ⟨.post, workspacePath id [jsText "ceremony", txId, jsText "approve"]⟩
  | .connections id => do pure ⟨.get, workspacePath (← UriComponent.encode id) [jsText "connections"]⟩
  | .issueSsh id => do
    pure ⟨.post, workspacePath (← UriComponent.encode id) [jsText "connections", jsText "ssh"]⟩
  | .revokeSsh id leaseId => do
    let id ← UriComponent.encode id
    let leaseId ← UriComponent.encode leaseId
    pure ⟨.delete, workspacePath id [jsText "connections", jsText "ssh", leaseId]⟩

end AgentClient

/-! ### What a call is about -/

namespace AgentCall

def endpoint : AgentCall → Endpoint
  | health => .health
  | create => .create
  | status _ => .status
  | stop _ => .stop
  | listFiles .. => .listFiles
  | readFile .. => .readFile
  | writeFile .. => .writeFile
  | deleteFile .. => .deleteFile
  | destroyVolume _ => .destroyVolume
  | startJob _ => .startJob
  | jobStatus .. => .jobStatus
  | cancelJob .. => .cancelJob
  | bloomStatus _ => .bloomStatus
  | ceremonyPending _ => .ceremonyPending
  | ceremonyApprove .. => .ceremonyApprove
  | connections _ => .connections
  | issueSsh _ => .issueSsh
  | revokeSsh .. => .revokeSsh

/-- The identifiers in the path. -/
def params : AgentCall → List JsText
  | health | create => []
  | status id | stop id | listFiles id _ | readFile id _ | writeFile id _ | deleteFile id _
  | destroyVolume id | startJob id | bloomStatus id | ceremonyPending id | connections id
  | issueSsh id => [id]
  | jobStatus id jobId _ _ | cancelJob id jobId => [id, jobId]
  | ceremonyApprove id txId => [id, txId]
  | revokeSsh id leaseId => [id, leaseId]

def query : AgentCall → List (JsText × JsText)
  | listFiles _ path | readFile _ path | writeFile _ path | deleteFile _ path => [(jsText "path", path)]
  | jobStatus _ _ offset maxBytes =>
    [(jsText "offset", AgentClient.numberText offset), (jsText "maxBytes", AgentClient.numberText maxBytes)]
  | _ => []

def handled (call : AgentCall) : Handled := ⟨call.endpoint, call.params, call.query⟩

end AgentCall

/-! ### Reading a target -/

namespace AgentRouter

variable {parts : List JsText} {query text component key value id id' : JsText}
variable {fields values : List (JsText × JsText)}

/-- A part of a path holds neither a slash nor a question mark. -/
def IsSegment (part : JsText) : Prop := JsText.slash ∉ part ∧ (63 : UInt16) ∉ part

lemma isSegment_component (h : UriComponent.encode text = some component) : IsSegment component :=
  ⟨UriComponent.not_mem_component (d := '/') (by decide) h,
    UriComponent.not_mem_component (d := '?') (by decide) h⟩

lemma splitOn_pathText (h : ∀ part ∈ parts, IsSegment part) :
    (AgentClient.pathText parts).splitOn JsText.slash = [] :: parts := by
  have hjoin : ∀ parts : List JsText,
      [JsText.slash].intercalate ([] :: parts) = AgentClient.pathText parts := by
    intro parts
    induction parts with
    | nil => rfl
    | cons part parts ih =>
      rw [List.intercalate_cons_cons, List.nil_append]
      cases parts with
      | nil => simp [AgentClient.pathText, List.intercalate]
      | cons part' parts =>
        rw [List.intercalate_cons_cons, List.nil_append] at ih
        rw [List.intercalate_cons_cons, AgentClient.pathText, List.flatMap_cons, ← AgentClient.pathText, ← ih]
        simp
  rw [← hjoin parts]
  refine List.splitOn_intercalate _ (fun part hpart => ?_) (List.cons_ne_nil _ _)
  rcases List.mem_cons.mp hpart with rfl | hmem
  · exact List.not_mem_nil
  · exact (h part hmem).1

lemma ne_of_mem_pathText (h : ∀ part ∈ parts, IsSegment part) :
    ∀ u ∈ AgentClient.pathText parts, decide (u ≠ 63) = true := by
  intro u hu
  obtain ⟨part, hpart, hin⟩ := List.mem_flatMap.mp hu
  rw [decide_eq_true_iff]
  rintro rfl
  rcases List.mem_cons.mp hin with heq | htail
  · exact absurd heq (by decide)
  · exact (h part hpart).2 htail

/-- The router sees the parts that the client has joined. -/
lemma route_pathText (method : WireMethod) (h : ∀ part ∈ parts, IsSegment part) :
    route ⟨method, AgentClient.pathText parts⟩ = dispatch method parts [] false routes := by
  have hpath := ne_of_mem_pathText h
  rw [route, List.takeWhile_eq_self_iff.mpr hpath, List.dropWhile_eq_nil_iff.mpr hpath, pathSegments,
    splitOn_pathText h]
  rfl

lemma route_query (method : WireMethod) (h : ∀ part ∈ parts, IsSegment part) (query : JsText) :
    route ⟨method, AgentClient.pathText parts ++ 63 :: query⟩ =
      dispatch method parts (parseQuery query) false routes := by
  have hpath := ne_of_mem_pathText h
  have htake : (AgentClient.pathText parts ++ 63 :: query).takeWhile (· ≠ 63) = AgentClient.pathText parts := by
    rw [List.takeWhile_append_of_pos hpath, List.takeWhile_cons_of_neg (by simp), List.append_nil]
  have hdrop : (AgentClient.pathText parts ++ 63 :: query).dropWhile (· ≠ 63) = 63 :: query := by
    rw [List.dropWhile_append_of_pos hpath, List.dropWhile_cons_of_neg (by simp)]
  rw [route, htake, hdrop, pathSegments, splitOn_pathText h]
  rfl

/-! ### Reading a query -/

/-- A field as it is written, with the components of its name and its value. -/
def fieldText (field : JsText × JsText) : JsText := field.1 ++ 61 :: field.2

/-- `field` is written for the pair `value`. -/
def Writes (field value : JsText × JsText) : Prop :=
  UriComponent.encode value.1 = some field.1 ∧ UriComponent.encode value.2 = some field.2

lemma unescape_component (h : UriComponent.encode text = some component) :
    unescape (plusToSpace component) = text := by
  have hplus : plusToSpace component = component := by
    rw [plusToSpace]
    refine (List.map_congr_left fun u hu => if_neg ?_).trans (List.map_id component)
    rintro rfl
    exact UriComponent.not_mem_component (d := '+') (by decide) h hu
  rw [hplus, unescape, UriComponent.decode_encode h, Option.getD_some]

lemma parseField_fieldText {field value : JsText × JsText} (h : Writes field value) :
    parseField (fieldText field) = value := by
  have hname : ∀ u ∈ field.1, decide (u ≠ 61) = true := by
    intro u hu
    rw [decide_eq_true_iff]
    rintro rfl
    exact UriComponent.not_mem_component (d := '=') (by decide) h.1 hu
  have htake : (fieldText field).takeWhile (· ≠ 61) = field.1 := by
    rw [fieldText, List.takeWhile_append_of_pos hname, List.takeWhile_cons_of_neg (by simp), List.append_nil]
  have hdrop : (fieldText field).dropWhile (· ≠ 61) = 61 :: field.2 := by
    rw [fieldText, List.dropWhile_append_of_pos hname, List.dropWhile_cons_of_neg (by simp)]
  rw [parseField, htake, hdrop, List.tail_cons, unescape_component h.1, unescape_component h.2]

lemma not_mem_fieldText {field value : JsText × JsText} (h : Writes field value) :
    (38 : UInt16) ∉ fieldText field := by
  intro hmem
  rcases List.mem_append.mp hmem with hname | hrest
  · exact UriComponent.not_mem_component (d := '&') (by decide) h.1 hname
  · rcases List.mem_cons.mp hrest with heq | hvalue
    · exact absurd heq (by decide)
    · exact UriComponent.not_mem_component (d := '&') (by decide) h.2 hvalue

lemma exists_of_writes (h : List.Forall₂ Writes fields values) :
    ∀ field ∈ fields, ∃ value, Writes field value := by
  induction h with
  | nil => exact fun field hfield => absurd hfield List.not_mem_nil
  | @cons field value _ _ hwrites _ ih =>
    intro field' hfield
    rcases List.mem_cons.mp hfield with rfl | hmem
    · exact ⟨value, hwrites⟩
    · exact ih field' hmem

/-- The fields of a query come back in their order. -/
lemma parseQuery_fieldText (h : List.Forall₂ Writes fields values) (hne : fields ≠ [])
    (hlen : fields.length ≤ 1000) : parseQuery ([38].intercalate (fields.map fieldText)) = values := by
  have hand : ∀ field ∈ fields.map fieldText, (38 : UInt16) ∉ field := by
    intro text htext hmem
    obtain ⟨field, hfield, rfl⟩ := List.mem_map.mp htext
    obtain ⟨value, hwrites⟩ := exists_of_writes h field hfield
    exact not_mem_fieldText hwrites hmem
  have hall : ∀ field ∈ fields.map fieldText, decide (field ≠ []) = true := by
    intro text htext
    obtain ⟨field, -, rfl⟩ := List.mem_map.mp htext
    simp [fieldText]
  rw [parseQuery, List.splitOn_intercalate _ hand (by simpa using hne), List.filter_eq_self.mpr hall,
    List.take_of_length_le (by rwa [List.length_map]), List.map_map]
  clear hne hlen hand hall
  induction h with
  | nil => rfl
  | cons hwrites _ ih => rw [List.map_cons, Function.comp_apply, parseField_fieldText hwrites, ih]

/-! ### Finding the handler -/

/-- The words of the routes. -/
def words : List String :=
  ["v1", "health", "workspaces", "files", "content", "volumes", "jobs", "bloom", "connections", "ceremony",
    "approve", "ssh"]

lemma lower_word_inj : ∀ word ∈ words, ∀ word' ∈ words,
    ((jsText word).map lowerUnit = (jsText word').map lowerUnit ↔ word = word') := by decide +kernel

lemma word_ne_nil : ∀ word ∈ words, jsText word ≠ [] := by decide +kernel

lemma isSegment_word : ∀ word ∈ words, IsSegment (jsText word) := by
  have hunreserved : ∀ word ∈ words, word.toList.all UriComponent.isUnreserved = true := by decide +kernel
  intro word hword
  exact isSegment_component (UriComponent.encode_unreserved (hunreserved word hword))

end AgentRouter

/-! ### The parts of a request -/

namespace AgentCall

open AgentClient

variable {call call' : AgentCall} {r : WireRequest} {query : List (JsText × JsText)}

/-- The texts of a call that its request has the components of. -/
def texts : AgentCall → List JsText
  | listFiles id path | readFile id path | writeFile id path | deleteFile id path => [id, path]
  | call => call.params

def method : AgentCall → WireMethod
  | create | startJob _ | ceremonyApprove .. | issueSsh _ => .post
  | stop _ | deleteFile .. | destroyVolume _ | cancelJob .. | revokeSsh .. => .delete
  | writeFile .. => .put
  | _ => .get

def component (text : JsText) : JsText := (UriComponent.encode text).getD []

/-- The segments of the path. -/
def parts : AgentCall → List JsText
  | health => [jsText "v1", jsText "health"]
  | create => [jsText "v1", jsText "workspaces"]
  | status id | stop id => [jsText "v1", jsText "workspaces", component id]
  | listFiles id _ | writeFile id _ | deleteFile id _ =>
    [jsText "v1", jsText "workspaces", component id, jsText "files"]
  | readFile id _ => [jsText "v1", jsText "workspaces", component id, jsText "files", jsText "content"]
  | destroyVolume id => [jsText "v1", jsText "volumes", component id]
  | startJob id => [jsText "v1", jsText "workspaces", component id, jsText "jobs"]
  | jobStatus id jobId _ _ | cancelJob id jobId =>
    [jsText "v1", jsText "workspaces", component id, jsText "jobs", component jobId]
  | bloomStatus id => [jsText "v1", jsText "workspaces", component id, jsText "bloom"]
  | ceremonyPending id => [jsText "v1", jsText "workspaces", component id, jsText "ceremony"]
  | ceremonyApprove id txId =>
    [jsText "v1", jsText "workspaces", component id, jsText "ceremony", component txId, jsText "approve"]
  | connections id => [jsText "v1", jsText "workspaces", component id, jsText "connections"]
  | issueSsh id => [jsText "v1", jsText "workspaces", component id, jsText "connections", jsText "ssh"]
  | revokeSsh id leaseId =>
    [jsText "v1", jsText "workspaces", component id, jsText "connections", jsText "ssh", component leaseId]

/-- The fields of the query. -/
def fields : AgentCall → List (JsText × JsText)
  | listFiles _ path | readFile _ path | writeFile _ path | deleteFile _ path =>
    [(jsText "path", component path)]
  | jobStatus _ _ offset maxBytes =>
    [(jsText "offset", numberText offset), (jsText "maxBytes", numberText maxBytes)]
  | _ => []

/-- The target that has these segments and these fields. -/
def target (parts : List JsText) : List (JsText × JsText) → JsText
  | [] => pathText parts
  | field :: fields => pathText parts ++ 63 :: [38].intercalate ((field :: fields).map fieldText)

/-- Every text has a component. -/
def Encodes (call : AgentCall) : Prop := ∀ text ∈ call.texts, UriComponent.encode text = some (component text)

lemma encodes_iff : call.Encodes ↔ ∀ text ∈ call.texts, UriComponent.encode text ≠ none := by
  refine ⟨fun h text htext => by rw [h text htext]; exact Option.some_ne_none _, fun h text htext => ?_⟩
  obtain ⟨units, hunits⟩ := Option.ne_none_iff_exists'.mp (h text htext)
  rw [component, hunits, Option.getD_some]

lemma request_of_encodes (h : call.Encodes) :
    request call = some ⟨call.method, target call.parts call.fields⟩ := by
  have hpath : jsText "?path=" = 63 :: (jsText "path" ++ [61]) := by decide
  have hoffset : jsText "?offset=" = 63 :: (jsText "offset" ++ [61]) := by decide
  have hmax : jsText "&maxBytes=" = 38 :: (jsText "maxBytes" ++ [61]) := by decide
  cases call <;> simp [Encodes, texts, params] at h <;>
    simp [request, h, method, target, parts, fields, workspacePath, filePath, fieldText, pathText,
      List.intercalate, hpath, hoffset, hmax]

lemma request_of_not_encodes (h : ¬call.Encodes) : request call = none := by
  rw [encodes_iff] at h
  push Not at h
  obtain ⟨text, htext, hnone⟩ := h
  cases call with
  | health | create => exact absurd htext List.not_mem_nil
  | status | stop | destroyVolume | startJob | bloomStatus | ceremonyPending | connections | issueSsh =>
    obtain rfl := List.mem_singleton.mp htext
    simp [request, hnone]
  | listFiles | readFile | writeFile | deleteFile | jobStatus | cancelJob | ceremonyApprove | revokeSsh =>
    simp only [texts, params, List.mem_cons, List.not_mem_nil, or_false] at htext
    rcases htext with rfl | rfl <;> simp [request, filePath, hnone]

lemma isSegment_parts (h : call.Encodes) : ∀ part ∈ call.parts, IsSegment part := by
  have hword := isSegment_word
  have htext : ∀ text ∈ call.texts, IsSegment (component text) :=
    fun text htext => isSegment_component (h text htext)
  simp only [words, List.forall_mem_cons] at hword
  cases call <;> simp [texts, params] at htext <;> simp [parts, hword, htext]

lemma encode_numberText (n : ℕ) : UriComponent.encode (numberText n) = some (numberText n) := by
  refine UriComponent.encode_unreserved (List.all_eq_true.mpr fun c hc => ?_)
  have hdigit := Nat.isDigit_of_mem_toDigits (by decide) (by decide) hc
  rw [UriComponent.isUnreserved, Char.isAlphanum, hdigit, Bool.or_true, Bool.true_or]

lemma encode_word : ∀ word ∈ ["path", "offset", "maxBytes"],
    UriComponent.encode (jsText word) = some (jsText word) := by
  have hunreserved : ∀ word ∈ ["path", "offset", "maxBytes"],
      word.toList.all UriComponent.isUnreserved = true := by decide +kernel
  exact fun word hword => UriComponent.encode_unreserved (hunreserved word hword)

lemma writes_fields (h : call.Encodes) : List.Forall₂ Writes call.fields call.query := by
  have hword := encode_word
  simp only [List.forall_mem_cons] at hword
  cases call <;> simp [Encodes, texts, params] at h <;>
    simp [fields, query, Writes, hword, encode_numberText, h]

/-- No route before that of the call takes its path, whatever its identifiers are. -/
lemma dispatch_parts (h : call.Encodes) : dispatch call.method call.parts query false routes =
    if [] ∈ call.params then .notFound else .handled ⟨call.endpoint, call.params, query⟩ := by
  have hword := word_ne_nil
  have hlower := lower_word_inj
  simp only [words] at hlower
  have hempty : component [] = [] := by decide +kernel
  have hnil : ∀ text ∈ call.texts, (component text = [] ↔ text = []) :=
    fun text htext => UriComponent.encode_eq_nil_iff (h text htext)
  have hdecode : ∀ text ∈ call.texts, UriComponent.decode (component text) = some text :=
    fun text htext => UriComponent.decode_encode (h text htext)
  simp only [words, List.forall_mem_cons] at hword
  cases call with
  | health | create =>
    simp [method, parts, params, endpoint, routes, literal, dispatch, matchParts, hlower]
  | status id | stop id | destroyVolume id | startJob id | bloomStatus id | ceremonyPending id
  | connections id | issueSsh id | listFiles id | readFile id | writeFile id | deleteFile id =>
    simp only [texts, params, List.forall_mem_cons] at hnil hdecode
    by_cases hid : id = [] <;>
      simp [method, parts, params, endpoint, routes, literal, dispatch, matchParts, hword, hlower,
        hempty, hnil, hdecode, hid]
  | jobStatus id id' | cancelJob id id' | ceremonyApprove id id' | revokeSsh id id' =>
    simp only [texts, params, List.forall_mem_cons] at hnil hdecode
    by_cases hid : id = [] <;> by_cases hid' : id' = [] <;>
      simp [method, parts, params, endpoint, routes, literal, dispatch, matchParts, hlower, hempty, hnil,
        hdecode, hid, hid']

lemma encodes_of_request (h : request call = some r) : call.Encodes := by
  by_contra hnot
  rw [request_of_not_encodes hnot] at h
  exact absurd h.symm (Option.some_ne_none r)

lemma request_eq_none_iff : request call = none ↔ ∃ text ∈ call.texts, Utf16.decode text = none := by
  have hnone : request call = none ↔ ¬call.Encodes := by
    refine ⟨fun h hencodes => ?_, request_of_not_encodes⟩
    rw [request_of_encodes hencodes] at h
    exact absurd h (Option.some_ne_none _)
  rw [hnone, encodes_iff]
  simp only [ne_eq, UriComponent.encode_eq_none_iff, not_forall, not_not, exists_prop]

/-- The agent reads a request back as the call that it is made for. -/
lemma route_of_request (h : request call = some r) :
    route r = if [] ∈ call.params then .notFound else .handled call.handled := by
  have hencodes := encodes_of_request h
  rw [request_of_encodes hencodes, Option.some_inj] at h
  subst h
  have hparts := isSegment_parts hencodes
  have hwrites := writes_fields hencodes
  rw [handled]
  cases hfields : call.fields with
  | nil =>
    rw [hfields, List.forall₂_nil_left_iff] at hwrites
    rw [target, route_pathText _ hparts, dispatch_parts hencodes, hwrites]
  | cons field fields =>
    have hlen : call.fields.length ≤ 1000 := by cases call <;> simp [AgentCall.fields]
    have hquery : parseQuery ([38].intercalate (call.fields.map fieldText)) = call.query :=
      parseQuery_fieldText hwrites (hfields ▸ List.cons_ne_nil _ _) hlen
    rw [hfields] at hquery
    rw [target, route_query _ hparts, hquery, dispatch_parts hencodes]

lemma numberText_inj {m n : ℕ} : numberText m = numberText n ↔ m = n := by
  refine ⟨fun h => ?_, congrArg numberText⟩
  have hdigits := congrArg (Nat.ofDigitChars 10 · 0) (Utf16.encode_injective h)
  simpa only [Nat.ofDigitChars_toDigits (show 1 < 10 by decide) (Nat.le_refl 10)] using hdigits

lemma handled_injective (h : call.handled = call'.handled) : call = call' := by
  simp only [handled, Handled.mk.injEq] at h
  cases call <;> cases call' <;> simp [endpoint, params, query, numberText_inj, and_assoc] at h ⊢ <;> exact h

end AgentCall

/-- A call has no request exactly when one of its texts has a lone surrogate. The agent reads a request
as the call it was made for, with its texts unchanged, and no other call has that request; with an empty
identifier it reaches no handler. -/
theorem AgentClient.request_addresses (call : AgentCall) :
    (request call = none ↔ ∃ text ∈ call.texts, Utf16.decode text = none) ∧
      ∀ r, request call = some r →
        (route r = if [] ∈ call.params then .notFound else .handled call.handled) ∧
          ([] ∉ call.params → ∀ call', request call' = some r → call' = call) := by
  refine ⟨AgentCall.request_eq_none_iff, fun r hrequest =>
    ⟨AgentCall.route_of_request hrequest, fun hids call' hrequest' => ?_⟩⟩
  have hroute := AgentCall.route_of_request hrequest
  have hroute' := AgentCall.route_of_request hrequest'
  rw [if_neg hids] at hroute
  rw [hroute] at hroute'
  split at hroute'
  · cases hroute'
  · exact (AgentCall.handled_injective (Routed.handled.inj hroute')).symm

theorem AgentClient.request_addresses_listFiles :
    route ⟨.get, jsText "/v1/workspaces/a%2Fb/files?path=%2Fx%20%2B1"⟩ =
      .handled ⟨.listFiles, [jsText "a/b"], [(jsText "path", jsText "/x +1")]⟩ := by
  have hroute := ((AgentClient.request_addresses (.listFiles (jsText "a/b") (jsText "/x +1"))).2
    ⟨.get, jsText "/v1/workspaces/a%2Fb/files?path=%2Fx%20%2B1"⟩ (by decide +kernel)).1
  rw [if_neg (by decide)] at hroute
  exact hroute

end Bloom
