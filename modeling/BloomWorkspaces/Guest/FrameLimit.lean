import BloomWorkspaces.Guest.ResponseSize

/-!
# Responses and the limit of a frame

Listings and pending ceremonies are bounded by their entries, not by their bytes. What they take in a frame
is a sum over what the directory has, or over what Bloom answers.
-/

namespace Bloom

namespace GuestControl

open Action

/-! ### Bytes -/

/-- The bytes of a string with its quotes and escapes. -/
def quotedBytes (s : String) : ℕ := JsonText.size (jsonString s)

/-- The digits of a number of 64 bits. -/
def wordDigits (n : ℤ) : ℕ := (Nat.toDigits 10 (n % 2 ^ 64).toNat).length

/-- What an entry takes in a listing, with a separator. -/
def entryBytes (mtime : ℤ) (entry : WorkspaceFiles.ListEntry) : ℕ :=
  42 + wordDigits (WorkspaceFiles.modifiedAt mtime) + quotedBytes (String.ofList (Utf8.toText entry.path)) +
    wordDigits entry.size + (kindName entry.kind).toList.length

/-- What a pending request takes, but for its URL. -/
def planBytes (wallet chain id planMd : String) : ℕ :=
  52 + quotedBytes wallet + quotedBytes chain + quotedBytes id + quotedBytes planMd

/-- A URL that is not there is `null`. -/
def urlBytes (url : Option String) : ℕ := url.elim 4 quotedBytes

/-! ### Listings -/

def listedEntry (t : WorkspaceTree) (dir : TreePath) (pathPrefix name : FileName) :
    Option WorkspaceFiles.ListEntry :=
  (t.node (dir ++ [name])).map fun n => ⟨pathPrefix ++ name, WorkspaceFiles.entryKind n, n.size⟩

/-- The entries of a directory: what is under the texts of its names, in their order. -/
def listedEntries (t : WorkspaceTree) (parts : List String) : List WorkspaceFiles.ListEntry :=
  (WorkspaceFiles.sortedNames (t.readdir (.inside (parts.map WorkspaceFiles.fileName)))).filterMap
    (listedEntry t (parts.map WorkspaceFiles.fileName) (WorkspaceFiles.listPrefix parts))

/-! ### Conversations -/

/-- What the answer to an ask adds to the response. -/
def Ask.bytes (s : BloomSocket) : Ask → Except ControlError IpcValue → ℕ
  | plan wallet chain id, .ok result =>
    planBytes wallet chain id ((truncateStr (planText result) maxOutboxPlanBytes).getD "")
  | challenge _ _ _, reply => urlBytes (reply.toOption.bind (ceremonyUrl s))
  | _, _ => 0

/-- The rest of a walk adds so many bytes. -/
inductive Walk.Adds (s : BloomSocket) : Walk → ℕ → Prop
  | done (frames : List (List Char)) : Adds s ⟨[], frames⟩ 0
  | next {ask : Ask} {todo : List Ask} {frames : List (List Char)} {w : Walk} {n : ℕ} :
    Walk.step s ⟨ask :: todo, frames⟩ () = some w → Adds s w n →
    Adds s ⟨ask :: todo, frames⟩ (ask.bytes s (Walk.reply s frames ask) + n)

/-! ### The limit -/

/-- The entries of a listing, or the answers of Bloom, leave room for the rest of the response. -/
structure FitsFrame (d : Daemon) (raw : Json) (g : GuestState) : Prop where
  list : operationOf raw = "fs.list" →
    ∀ parts, validateWorkspaceDirectory (raw.index "path") = .ok parts →
      (requestId raw).toList.length + 53 + ((listedEntries g.files.tree parts).map fun entry =>
        entryBytes (d.mtime entry.path) entry).sum ≤ Client.maxFrameBytes
  pending : operationOf raw = "ceremony.pending" →
    ∀ n, Walk.Adds d.surroundings.bloom .initial n →
      (requestId raw).toList.length + 56 + n ≤ Client.maxFrameBytes

/-! ### Sizes of objects -/

section Sizes

/-- The fields of an object, each with its quotes, its colon and a separator. -/
def fieldsBytes : List (String × Json) → ℕ
  | [] => 0
  | (key, value) :: fields => key.toList.length + JsonText.size value.text + 4 + fieldsBytes fields

variable {fields : List (String × Json)} {items : List Json} {id : String} {n : ℕ}

lemma sum_fieldTexts (hbare : (fields.map Prod.fst).all fun key => key.toList.all JsonText.isBare) :
    ((Json.fieldTexts fields).map JsonText.size).sum + (Json.fieldTexts fields).length =
      fieldsBytes fields := by
  induction fields with
  | nil => rfl
  | cons field fields ih =>
    obtain ⟨key, value⟩ := field
    rw [List.map_cons, List.all_cons, Bool.and_eq_true] at hbare
    have hkey : key.toList.all JsonText.isBare = true := hbare.1
    have hfield := size_jsonField hkey value.text
    have hrest := ih hbare.2
    simp only [Json.fieldTexts_cons, List.map_cons, List.sum_cons, List.length_cons, fieldsBytes]
    omega

lemma size_objectText {field : String × Json} {keys : List String}
    (hbare : keys.all fun key => key.toList.all JsonText.isBare)
    (hkeys : (field :: fields).map Prod.fst = keys) :
    JsonText.size (Json.object (field :: fields)).text = fieldsBytes (field :: fields) + 1 := by
  rw [← hkeys] at hbare
  have hsum := sum_fieldTexts hbare
  have hpos : 0 < (Json.fieldTexts (field :: fields)).length := Nat.succ_pos _
  rw [Json.text_object, JsonText.size_object]
  omega

lemma itemTexts_eq (items : List Json) : Json.itemTexts items = items.map Json.text := by
  induction items with
  | nil => rfl
  | cons item items ih => rw [Json.itemTexts, ih, List.map_cons]

/-- An array fits if each of its items does with a separator. -/
lemma size_arrayText_le_iff (hn : 2 ≤ n) : JsonText.size (Json.array items).text ≤ n ↔
    1 + (items.map fun item => JsonText.size item.text + 1).sum ≤ n := by
  have hsum : (items.map fun item => JsonText.size item.text + 1).sum =
      ((items.map Json.text).map JsonText.size).sum + items.length := by
    induction items with
    | nil => rfl
    | cons item items ih =>
      simp only [List.map_cons, List.sum_cons, List.length_cons, ih]
      omega
  show JsonText.size (JsonText.array (Json.itemTexts items)) ≤ n ↔ _
  rw [JsonText.size_array, itemTexts_eq, hsum, List.length_map]
  cases items with
  | nil => exact ⟨fun _ => Nat.le_of_succ_le hn, fun _ => hn⟩
  | cons item items =>
    simp only [List.length_cons]
    omega

lemma size_wordText (n : ℤ) : JsonText.size (jsonWord n).text = wordDigits n := by
  have hnonneg : 0 ≤ n % 2 ^ 64 := Int.emod_nonneg n (by decide)
  have htext : (jsonWord n).text = JsonText.number (n % 2 ^ 64).natAbs :=
    JsonText.integer_of_nonneg hnonneg
  have hnat : (n % 2 ^ 64).natAbs = (n % 2 ^ 64).toNat := by omega
  rw [htext, hnat, JsonText.number, wordDigits]
  refine JsonText.size_of_ascii fun c hc => ?_
  have hdigit := Nat.isDigit_of_mem_toDigits (by decide) (by decide) hc
  simp only [Char.isDigit, Bool.and_eq_true, decide_eq_true_eq] at hdigit
  exact Nat.lt_of_le_of_lt (UInt32.le_iff_toNat_le.mp hdigit.2) (by decide)

lemma size_entryJson (mtime : ℤ) (entry : WorkspaceFiles.ListEntry) :
    JsonText.size (entryJson mtime entry).text + 1 = entryBytes mtime entry := by
  have hkind : JsonText.size (Json.string (kindName entry.kind)).text =
      (kindName entry.kind).toList.length + 2 :=
    size_bareText (by cases entry.kind <;> decide)
  have hlengths : "modifiedAt".toList.length = 10 ∧ "path".toList.length = 4 ∧
      "size".toList.length = 4 ∧ "type".toList.length = 4 := by decide
  have hpath : JsonText.size (jsonPath entry.path).text =
      quotedBytes (String.ofList (Utf8.toText entry.path)) := rfl
  rw [entryJson, size_objectText (by decide : ["modifiedAt", "path", "size", "type"].all _) rfl]
  simp only [fieldsBytes, size_wordText, hkind, hpath, entryBytes]
  omega

lemma size_pendingJson (request : PendingRequest) : JsonText.size (pendingJson request).text + 1 =
    planBytes request.wallet request.chain request.id request.planMd + urlBytes request.ceremonyUrl := by
  have hurl : JsonText.size (request.ceremonyUrl.elim Json.null .string).text =
      urlBytes request.ceremonyUrl := by
    cases request.ceremonyUrl with
    | none => decide
    | some url => rfl
  have hlengths : "ceremonyUrl".toList.length = 11 ∧ "chain".toList.length = 5 ∧
      "id".toList.length = 2 ∧ "planMd".toList.length = 6 ∧ "wallet".toList.length = 6 := by decide
  have hstring : ∀ s : String, JsonText.size (Json.string s).text = quotedBytes s := fun _ => rfl
  rw [pendingJson,
    size_objectText (by decide : ["ceremonyUrl", "chain", "id", "planMd", "wallet"].all _) rfl]
  simp only [fieldsBytes, hurl, hstring, planBytes]
  omega

lemma length_frameOf_okJson (hid : isRequestId id = true) (result : Json) :
    (frameOf (okJson id result)).length = id.toList.length + 42 + JsonText.size result.text := by
  have hbare : id.toList.all JsonText.isBare = true := by
    simp only [isRequestId, Bool.and_eq_true, List.all_eq_true] at hid
    exact List.all_eq_true.mpr fun c hc => isBare_of_isIdChar (hid.2 c hc)
  have hidSize := size_bareText hbare
  have hlengths : "id".toList.length = 2 ∧ "ok".toList.length = 2 ∧ "result".toList.length = 6 ∧
      "version".toList.length = 7 := by decide
  have htrue : JsonText.size (Json.bool true).text = 4 := by decide
  have hone : JsonText.size (Json.number (some 1)).text = 1 := by decide
  rw [length_frameOf, okJson, size_objectText (by decide : ["id", "ok", "result", "version"].all _) rfl]
  simp only [fieldsBytes, hidSize, htrue, hone]
  omega

end Sizes

/-! ### What a listing has -/

section Listings

variable {t : WorkspaceTree} {k k' : Kernel} {path : Json} {parts : List String}
  {entries : List WorkspaceFiles.ListEntry}

/-- Without its time a record is an entry. -/
lemma filterMap_recordOf (clock : WorkspaceFiles.Clock) (t : WorkspaceTree) (dir : TreePath)
    (pathPrefix : FileName) (names : List FileName) :
    (names.filterMap (WorkspaceFiles.recordOf clock t dir pathPrefix)).map
      WorkspaceFiles.FileRecord.toListEntry = names.filterMap (listedEntry t dir pathPrefix) := by
  rw [List.map_filterMap]
  refine List.filterMap_congr fun name _ => ?_
  rw [WorkspaceFiles.recordOf, WorkspaceFiles.stat, listedEntry, Option.map_map, Option.map_map]
  rfl

lemma gives_listEntries (t : WorkspaceTree) (parts : List String) :
    Gives t (WorkspaceFiles.listEntries (.inside (parts.map WorkspaceFiles.fileName))
      (WorkspaceFiles.listPrefix parts)
      (WorkspaceFiles.sortedNames (t.readdir (.inside (parts.map WorkspaceFiles.fileName)))))
      (.ok (listedEntries t parts)) t := by
  have hclock : -(2 ^ 63) ≤ (0 : ℤ) ∧ (0 : ℤ) < 2 ^ 63 := by decide
  rw [WorkspaceFiles.listEntries_eq (WorkspaceFiles.stoppedClock 0 hclock), listedEntries,
    ← filterMap_recordOf (WorkspaceFiles.stoppedClock 0 hclock)]
  exact Ends.bind_ok
    (WorkspaceFiles.gives_fileRecords fun name hname => WorkspaceFiles.isStep_of_mem_sortedNames hname)
    (Ends.pure _)

/-- A listing fails, or has the entries of its directory. -/
lemma list_cases (t : WorkspaceTree) (path : Json) :
    (∃ e, Gives t (WorkspaceFiles.list path) (.error (.error e)) t) ∨
      ∃ parts, validateWorkspaceDirectory path = .ok parts ∧
        Gives t (WorkspaceFiles.list path) (.ok (listedEntries t parts)) t := by
  cases hvalid : validateWorkspaceDirectory path with
  | error e =>
    rw [WorkspaceFiles.list, hvalid]
    exact Or.inl ⟨e, Ends.bind_error (Ends.throw _)⟩
  | ok parts =>
    have hparts := (named_of_validateWorkspaceDirectory hvalid).2
    rw [WorkspaceFiles.list, hvalid]
    by_cases hdir : t.node (parts.map WorkspaceFiles.fileName) = some .directory
    · have hopen := gives_openDirectory_existing false hparts hdir
      have hdot : Gives t (openat .listing (.inside (parts.map WorkspaceFiles.fileName)) dot
          { directory := true }) (.ok (.ok (.inside (parts.map WorkspaceFiles.fileName)))) t :=
        gives_openat_dot hdir rfl rfl
      by_cases hcount : WorkspaceFiles.maxListEntries < (WorkspaceFiles.sortedNames
          (t.readdir (.inside (parts.map WorkspaceFiles.fileName)))).length
      · refine Or.inl ⟨.limitExceeded "directory contains too many entries", ?_⟩
        refine Ends.bind_ok (Ends.pure parts) (Ends.bind_ok hopen (Ends.bind_ok hdot ?_))
        refine Ends.bind_ok (gives_readdir _) ?_
        rw [if_pos hcount]
        exact Ends.throw _
      · refine Or.inr ⟨parts, rfl, ?_⟩
        refine Ends.bind_ok (Ends.pure parts) (Ends.bind_ok hopen (Ends.bind_ok hdot ?_))
        refine Ends.bind_ok (gives_readdir _) ?_
        rw [if_neg hcount]
        exact gives_listEntries t parts
    · obtain ⟨e, hopen⟩ := gives_openDirectory_missing hparts hdir
      exact Or.inl ⟨e, Ends.bind_ok (Ends.pure parts) (Ends.bind_error hopen)⟩

end Listings

/-! ### What Bloom answers -/

/-- A program makes the asks before all others, and what it pushes takes the bytes that their answers
add. -/
def Writes (s : BloomSocket) (x : Ipc (List PendingRequest)) (asks : List Ask) : Prop :=
  ∀ todo frames, Post (fun found frames' => ∀ n, Walk.Adds s ⟨todo, frames'⟩ n →
    Walk.Adds s ⟨asks ++ todo, frames⟩ ((found.map fun request =>
      JsonText.size (pendingJson request).text + 1).sum + n)) (fun _ _ => True) (outcome x frames)

section Writes

variable {s : BloomSocket} {α : Type}

lemma Walk.Adds.unique {w : Walk} {n n' : ℕ} (h : Walk.Adds s w n) (h' : Walk.Adds s w n') : n = n' := by
  induction h generalizing n' with
  | done frames =>
    cases h'
    rfl
  | next hstep _ ih =>
    cases h' with
    | next hstep' hrest =>
      rw [hstep] at hstep'
      cases hstep'
      rw [ih hrest]

lemma writes_nil : Writes s (pure []) [] := by
  intro todo frames n hn
  simpa using hn

lemma writes_collect {body : α → Ipc (List PendingRequest)} {asks : α → List Ask}
    (h : ∀ a, Writes s (body a) (asks a)) (items : List α) :
    Writes s (collect body items) (items.flatMap asks) := by
  induction items with
  | nil => exact writes_nil
  | cons a rest ih =>
    intro todo frames
    rw [collect, List.flatMap_cons, List.append_assoc, post_bind]
    refine (h a (rest.flatMap asks ++ todo) frames).mono ?_ fun _ _ _ => trivial
    intro found frames' hfound
    rw [post_bind]
    refine (ih todo frames').mono ?_ fun _ _ _ => trivial
    intro others frames'' hothers n hn
    have hall := hfound _ (hothers n hn)
    rw [← Nat.add_assoc, ← List.sum_append, ← List.map_append] at hall
    exact hall

/-- A listing adds nothing itself. -/
lemma writes_listing {method path : String} {f : IpcValue → Ipc (List PendingRequest)} {ask : Ask}
    (hframe : ask.frame = ipcFrame method path) (hnothing : ∀ reply, ask.bytes s reply = 0)
    (hf : ∀ listing, Writes s (f listing) (ask.next listing)) :
    Writes s (do f (← orFault (← bloomIpc s method path))) [ask] := by
  intro todo frames
  have hcall : outcome (bloomIpc s method path) frames =
      (.ok (Walk.reply s frames ask), frames ++ [ask.frame]) := by
    rw [Walk.reply, hframe]
    rfl
  rw [post_bind, hcall, post_ok]
  cases hreply : Walk.reply s frames ask with
  | error error => trivial
  | ok listing =>
    refine (hf listing todo _).mono ?_ fun _ _ _ => trivial
    intro found frames' hfound n hn
    have hstep : Walk.step s ⟨ask :: todo, frames⟩ () =
        some ⟨ask.next listing ++ todo, frames ++ [ask.frame]⟩ := by
      simp only [Walk.step, hreply]
    have hadds := Walk.Adds.next hstep (hfound n hn)
    rw [hnothing, Nat.zero_add] at hadds
    exact hadds

lemma writes_transaction (wallet chain id : String) :
    Writes s (pendingTransaction s wallet chain id)
      [.plan wallet chain id, .challenge wallet chain id] := by
  intro todo frames
  unfold pendingTransaction
  have hcall : outcome (bloomIpc s "read" (planPath wallet chain id)) frames =
      (.ok (Walk.reply s frames (.plan wallet chain id)),
        frames ++ [(Ask.plan wallet chain id).frame]) := rfl
  rw [post_bind, hcall, post_ok]
  cases hreply : Walk.reply s frames (.plan wallet chain id) with
  | error error => trivial
  | ok result =>
    show Post _ _ (outcome (cutPlan (planText result) >>= _) _)
    rw [post_bind, cutPlan]
    cases hcut : truncateStr (planText result) maxOutboxPlanBytes with
    | none => trivial
    | some planMd =>
      intro n hn
      have hplan : Walk.step s ⟨.plan wallet chain id :: .challenge wallet chain id :: todo, frames⟩ () =
          some ⟨.challenge wallet chain id :: todo, frames ++ [(Ask.plan wallet chain id).frame]⟩ := by
        simp only [Walk.step, hreply]
        rfl
      have hchallenge : Walk.step s
          ⟨.challenge wallet chain id :: todo, frames ++ [(Ask.plan wallet chain id).frame]⟩ () =
          some ⟨todo, frames ++ [(Ask.plan wallet chain id).frame] ++
            [(Ask.challenge wallet chain id).frame]⟩ := by
        simp only [Walk.step]
        split
        · rfl
        · rfl
      have hadds := Walk.Adds.next hplan (Walk.Adds.next hchallenge hn)
      have hbytes : Ask.bytes s (.plan wallet chain id) (Walk.reply s frames (.plan wallet chain id)) =
          planBytes wallet chain id planMd := by
        rw [hreply, Ask.bytes, hcut, Option.getD_some]
      rw [hbytes, ← Nat.add_assoc] at hadds
      rw [List.map_singleton, List.sum_singleton, size_pendingJson]
      exact hadds

lemma writes_chain (wallet chain : String) :
    Writes s (pendingOfChain s wallet chain) [.pending wallet chain] :=
  writes_listing rfl (fun _ => rfl) fun _ => writes_collect (writes_transaction wallet chain) _

lemma writes_wallet (wallet : String) : Writes s (pendingOfWallet s wallet) [.chains wallet] := by
  refine writes_listing rfl (fun _ => rfl) fun listing => ?_
  rw [Ask.next, List.map_eq_flatMap]
  exact writes_collect (writes_chain wallet) _

lemma writes_ceremonyPending : Writes s (ceremonyPending s) [.wallets] := by
  refine writes_listing rfl (fun _ => rfl) fun listing => ?_
  rw [Ask.next, List.map_eq_flatMap]
  exact writes_collect writes_wallet _

end Writes

/-! ### The law -/

section Law

variable {d : Daemon} {e : Surroundings} {raw : Json} {g : GuestState} {id : String}
  {result : OperationResult}

lemma post_list (e : Surroundings) (raw : Json) (g : GuestState) :
    Post (fun result _ => ∃ parts, validateWorkspaceDirectory (raw.index "path") = .ok parts ∧
      result = .files (listedEntries g.files.tree parts)) (fun _ _ => True)
      (outcome (perform e raw "fs.list") g) := by
  show Post _ _ (outcome (convertNames _ false >>= fun _ => resultOf _ (onFiles _)) g)
  rw [convertNames_directory, post_bind, outcome_pure, post_ok, resultOf, post_bind, onFiles, post_zoom]
  have hfree := WorkspaceFiles.lockFree_list (raw.index "path")
  rcases list_cases g.files.tree (raw.index "path") with ⟨error, hgives⟩ | ⟨parts, hvalid, hgives⟩
  · obtain ⟨k, hrun, -⟩ := hfree.outcome hgives rfl
    rw [hrun]
    trivial
  · obtain ⟨k, hrun, -⟩ := hfree.outcome hgives rfl
    rw [hrun]
    exact ⟨parts, hvalid, rfl⟩

lemma post_pending (e : Surroundings) (raw : Json) (g : GuestState) :
    Post (fun result _ => ∃ pending, result = .requests pending ∧
      Walk.Adds e.bloom .initial (pending.map fun request =>
        JsonText.size (pendingJson request).text + 1).sum) (fun _ _ => True)
      (outcome (perform e raw "ceremony.pending") g) := by
  show Post _ _ (outcome (resultOf _ (onBloom _)) g)
  rw [resultOf, post_bind, onBloom, post_zoom]
  refine (writes_ceremonyPending [] []).mono ?_ fun _ _ _ => trivial
  intro pending frames hpending
  exact ⟨pending, rfl, hpending 0 (.done frames)⟩

/-- What a response of success comes from. -/
lemma handle_ok (h : (handle e raw g).1 = .ok (.ok id result)) :
    id = requestId raw ∧ ∃ g', outcome (perform e raw (operationOf raw)) g = (.ok result, g') := by
  unfold handle at h
  split at h
  · rename_i result' g' hrun
    rw [Except.ok.injEq, Response.ok.injEq] at h
    obtain ⟨rfl, rfl⟩ := h
    refine ⟨rfl, g', ?_⟩
    rw [dispatch] at hrun
    cases hvalid : validateRequest raw with
    | error error =>
      rw [hvalid] at hrun
      cases hrun
    | ok _ =>
      rw [hvalid] at hrun
      exact hrun
  · split at h <;> cases h
  · cases h

lemma length_requestId_le (raw : Json) : (requestId raw).toList.length ≤ 64 := by
  have hid := isRequestId_requestId raw
  simp only [isRequestId, Bool.and_eq_true, decide_eq_true_eq] at hid
  exact hid.1.2

lemma length_response (raw : Json) (mtime : FileName → ℤ) (result : OperationResult) :
    (frameOf ((Response.ok (requestId raw) result).json mtime)).length =
      (requestId raw).toList.length + 42 + JsonText.size (result.json mtime).text :=
  length_frameOf_okJson (isRequestId_requestId raw) _

/-- An object with nothing but an array. -/
lemma size_arrayField_le_iff {key : String} (hbare : key.toList.all JsonText.isBare = true)
    (items : List Json) {n : ℕ} (hn : key.toList.length + 7 ≤ n) :
    JsonText.size (Json.object [(key, .array items)]).text ≤ n ↔
      key.toList.length + 6 + (items.map fun item => JsonText.size item.text + 1).sum ≤ n := by
  have hkeys : [key].all fun key => key.toList.all JsonText.isBare := by
    rw [List.all_cons, hbare]
    rfl
  have hroom : 2 ≤ n - (key.toList.length + 5) := by omega
  have harray : JsonText.size (Json.array items).text ≤ n - (key.toList.length + 5) ↔
      1 + (items.map fun item => JsonText.size item.text + 1).sum ≤ n - (key.toList.length + 5) :=
    size_arrayText_le_iff hroom
  rw [size_objectText hkeys rfl]
  simp only [fieldsBytes]
  omega

lemma length_files_le_iff (raw : Json) (mtime : FileName → ℤ) (entries : List WorkspaceFiles.ListEntry) :
    (frameOf ((Response.ok (requestId raw) (.files entries)).json mtime)).length ≤ Client.maxFrameBytes ↔
      (requestId raw).toList.length + 53 +
        (entries.map fun entry => entryBytes (mtime entry.path) entry).sum ≤ Client.maxFrameBytes := by
  have hid := length_requestId_le raw
  have hmax : Client.maxFrameBytes = 393216 := rfl
  have hkey : "files".toList.length = 5 := by decide
  have hroom : "files".toList.length + 7 ≤
      Client.maxFrameBytes - ((requestId raw).toList.length + 42) := by omega
  have hsize := size_arrayField_le_iff (by decide : "files".toList.all JsonText.isBare = true)
    (entries.map fun entry => entryJson (mtime entry.path) entry) hroom
  simp only [List.map_map, Function.comp_def, size_entryJson] at hsize
  rw [length_response]
  simp only [OperationResult.json]
  omega

lemma length_requests_le_iff (raw : Json) (mtime : FileName → ℤ) (pending : List PendingRequest) :
    (frameOf ((Response.ok (requestId raw) (.requests pending)).json mtime)).length ≤
      Client.maxFrameBytes ↔ (requestId raw).toList.length + 56 + (pending.map fun request =>
        JsonText.size (pendingJson request).text + 1).sum ≤ Client.maxFrameBytes := by
  have hid := length_requestId_le raw
  have hmax : Client.maxFrameBytes = 393216 := rfl
  have hkey : "requests".toList.length = 8 := by decide
  have hroom : "requests".toList.length + 7 ≤
      Client.maxFrameBytes - ((requestId raw).toList.length + 42) := by omega
  have hsize := size_arrayField_le_iff (by decide : "requests".toList.all JsonText.isBare = true)
    (pending.map pendingJson) hroom
  simp only [List.map_map, Function.comp_def] at hsize
  rw [length_response]
  simp only [OperationResult.json]
  omega

/-- A response of success fits if and only if its entries, or the answers of Bloom, leave room. -/
lemma length_le_iff (hgenuine : d.surroundings.IsGenuine)
    (h : (handle d.surroundings raw g).1 = .ok (.ok id result)) :
    (frameOf ((Response.ok id result).json d.mtime)).length ≤ Client.maxFrameBytes ↔
      FitsFrame d raw g := by
  obtain ⟨rfl, g', hrun⟩ := handle_ok h
  by_cases hlist : operationOf raw = "fs.list"
  · have hpost := post_list d.surroundings raw g
    rw [← hlist, hrun] at hpost
    obtain ⟨parts, hvalid, rfl⟩ := hpost
    rw [length_files_le_iff]
    refine ⟨fun hfits => ⟨fun _ parts' hvalid' => ?_, fun hpending => ?_⟩, fun hfits => ?_⟩
    · rw [hvalid] at hvalid'
      cases hvalid'
      exact hfits
    · rw [hlist] at hpending
      exact absurd hpending (by decide)
    · exact hfits.list hlist parts hvalid
  · by_cases hceremony : operationOf raw = "ceremony.pending"
    · have hpost := post_pending d.surroundings raw g
      rw [← hceremony, hrun] at hpost
      obtain ⟨pending, rfl, hadds⟩ := hpost
      rw [length_requests_le_iff]
      refine ⟨fun hfits => ⟨fun h => absurd h hlist, fun _ n hn => ?_⟩, fun hfits => ?_⟩
      · rw [hn.unique hadds]
        exact hfits
      · exact hfits.pending hceremony _ hadds
    · have hroom : HasRoom (result.json d.mtime) :=
        (finds_perform hgenuine hlist hceremony).of_ok (congrArg Prod.fst hrun)
      have hid := length_requestId_le raw
      have hmax : Client.maxFrameBytes = 393216 := rfl
      rw [HasRoom] at hroom
      rw [length_response]
      refine ⟨fun _ => ⟨fun h => absurd h hlist, fun h => absurd h hceremony⟩, fun _ => ?_⟩
      omega

end Law

/-! ### A pending transaction -/

/-- The largest plan whose characters are all written as escapes. -/
def controlPlan : List Char := List.replicate maxOutboxPlanBytes '\x01'

def listingReply : IpcValue := .object [("result", .object [("entries", .array [
  .object [("name", .string "1"), ("type", .string "dir")]])])]

def planReply (plan : List Char) : IpcValue := .object [("result", .object [
  ("bytes_b64", .string (String.ofList (Base64.encode (Utf8.encode plan))))])]

/-- One transaction is pending, with a plan and no challenge. -/
def planSocket (plan : List Char) : BloomSocket where
  exchange frames :=
    if frames.length ≤ 3 then .written [.received (Utf8.encode (listingReply.text ++ ['\n']))]
    else if frames.length = 4 then .written [.received (Utf8.encode ((planReply plan).text ++ ['\n']))]
    else .noSocket
  fromSlice bytes :=
    some (if bytes = Utf8.encode (listingReply.text ++ ['\n']) then listingReply else planReply plan)

def planDaemon (plan : List Char) : Daemon where
  surroundings := guestWith (planSocket plan)
  fromSlice _ := none
  mtime _ := 0

section Plans

variable {plan : List Char} {s : BloomSocket} {frames : List (List Char)}

lemma isGenuine_guestWith (bloom : BloomSocket) : (guestWith bloom).IsGenuine where
  hostKey text h := by
    obtain rfl := Option.some.inj h
    decide
  jobs request :=
    ⟨.initial, .receive .stdio (.cancel .null), .initial, Transition.Leads.refl _, trivial, rfl⟩

lemma size_control (n : ℕ) :
    JsonText.size (JsonText.quoteUnits (Utf16.encode (List.replicate n '\x01'))) = 6 * n := by
  induction n with
  | zero => rfl
  | succ n ih =>
    have hchar : Utf16.encodeChar '\x01' = [1] := by decide
    have hplain : (1 : UInt16).toNat < 55296 ∨ 57343 < (1 : UInt16).toNat := by decide
    have hquote : JsonText.size (JsonText.quoteChar (Char.ofNat (1 : UInt16).toNat)) = 6 := by decide
    rw [List.replicate_succ, Utf16.encode_cons, hchar, List.singleton_append,
      JsonText.quoteUnits_plain hplain, JsonText.size_append, hquote, ih]
    omega

lemma quotedBytes_controlPlan :
    quotedBytes (String.ofList controlPlan) = 6 * maxOutboxPlanBytes + 2 := by
  have hquote : JsonText.size ['"'] = 1 := by decide
  rw [quotedBytes, jsonString, String.toList_ofList, JsonText.string, JsonText.size_append,
    JsonText.size_append, hquote, controlPlan, size_control]
  omega

lemma utf8ByteSize_controlPlan : (String.ofList controlPlan).utf8ByteSize = maxOutboxPlanBytes := by
  have hascii : JsonText.size controlPlan = controlPlan.length := by
    refine JsonText.size_of_ascii fun c hc => ?_
    rw [List.eq_of_mem_replicate hc]
    decide
  rw [← Utf8.length_encode, String.toList_ofList]
  exact hascii.trans List.length_replicate

lemma readResponse_single (bytes : List UInt8) : readResponse [] [.received bytes] = .ok bytes := by
  unfold readResponse readResponse
  split_ifs with hempty
  · rw [hempty]
  · rfl
  · rfl
  · rfl

lemma fromUTF8?_encode (text : List Char) :
    String.fromUTF8? ⟨(Utf8.encode text).toArray⟩ = some (String.ofList text) := by
  have hbytes : (⟨(Utf8.encode text).toArray⟩ : ByteArray) = (String.ofList text).toByteArray := by
    rw [Utf8.encode_eq]
  rw [hbytes, String.fromUTF8?, dif_pos (String.ofList text).isValidUTF8]
  rfl

lemma planText_planReply (plan : List Char) : planText (.object [
    ("bytes_b64", .string (String.ofList (Base64.encode (Utf8.encode plan))))]) = String.ofList plan := by
  have hdecode : standardDecode (String.ofList (Base64.encode (Utf8.encode plan))) =
      some (Utf8.encode plan) := by
    rw [standardDecode, String.toList_ofList, Base64.decode_encode, Base64.isBase64_encode, Bool.true_and,
      if_pos (decide_eq_true rfl)]
  have hfield : bytesField (.object [
      ("bytes_b64", .string (String.ofList (Base64.encode (Utf8.encode plan))))]) =
        some (String.ofList (Base64.encode (Utf8.encode plan))) := rfl
  rw [planText, hfield, Option.getD_some, hdecode, Option.bind_some, fromUTF8?_encode, Option.getD_some]

/-- A reply of one chunk. -/
lemma reply_of_written {bytes : List UInt8} {decoded : IpcValue}
    (h : s.exchange frames = .written [.received bytes]) (hdecode : s.fromSlice bytes = some decoded) :
    s.reply frames = ipcResult decoded := by
  rw [BloomSocket.reply, h]
  simp only [Checked.bind_ok (readResponse_single bytes), hdecode]

lemma reply_listing (plan : List Char) (h : frames.length ≤ 3) :
    (planSocket plan).reply frames = .ok (.object [("entries", .array [
      .object [("name", .string "1"), ("type", .string "dir")]])]) := by
  have hexchange : (planSocket plan).exchange frames =
      .written [.received (Utf8.encode (listingReply.text ++ ['\n']))] := if_pos h
  have hdecode : (planSocket plan).fromSlice (Utf8.encode (listingReply.text ++ ['\n'])) =
      some listingReply := congrArg some (if_pos rfl)
  rw [reply_of_written hexchange hdecode]
  rfl

/-- An object with one field that needs no escape. -/
lemma text_single {key : String} (h : key.toList.all JsonText.isBare = true) (value : IpcValue) :
    (IpcValue.object [(key, value)]).text =
      '{' :: '"' :: (key.toList ++ '"' :: ':' :: (value.text ++ ['}'])) := by
  have htext : (IpcValue.object [(key, value)]).text = JsonText.object [jsonField key value.text] := rfl
  rw [htext, JsonText.object, List.intercalate_singleton, jsonField, JsonText.field, JsonText.string,
    JsonText.quoteUnits_of_bare (List.all_eq_true.mp h)]
  simp only [List.cons_append, List.nil_append, List.append_assoc]

/-- The names of the fields differ. -/
lemma text_planReply_ne (plan : List Char) : (planReply plan).text ≠ listingReply.text := by
  intro hsame
  have hresult : "result".toList.all JsonText.isBare = true := by decide
  rw [planReply, listingReply, text_single hresult, text_single hresult,
    text_single (by decide : "bytes_b64".toList.all JsonText.isBare = true),
    text_single (by decide : "entries".toList.all JsonText.isBare = true)] at hsame
  have hbytes : "bytes_b64".toList = 'b' :: "ytes_b64".toList := by decide
  have hentries : "entries".toList = 'e' :: "ntries".toList := by decide
  simp only [List.cons_append, List.cons.injEq, List.append_cancel_left_eq, hbytes, hentries,
    true_and] at hsame
  exact absurd hsame.1 (by decide)

lemma reply_plan (plan : List Char) (h : frames.length = 4) :
    (planSocket plan).reply frames = .ok (.object [
      ("bytes_b64", .string (String.ofList (Base64.encode (Utf8.encode plan))))]) := by
  have hbytes : Utf8.encode ((planReply plan).text ++ ['\n']) ≠
      Utf8.encode (listingReply.text ++ ['\n']) := by
    intro hsame
    exact text_planReply_ne plan (List.append_cancel_right (Utf8.encode_injective hsame))
  have hexchange : (planSocket plan).exchange frames =
      .written [.received (Utf8.encode ((planReply plan).text ++ ['\n']))] := by
    show (if frames.length ≤ 3 then _ else _) = _
    rw [if_neg (by omega), if_pos h]
  have hdecode : (planSocket plan).fromSlice (Utf8.encode ((planReply plan).text ++ ['\n'])) =
      some (planReply plan) := congrArg some (if_neg hbytes)
  rw [reply_of_written hexchange hdecode]
  rfl

lemma reply_challenge (plan : List Char) (h : 4 < frames.length) :
    (planSocket plan).reply frames = .error ⟨.unavailable, "Bloom IPC socket is not available"⟩ := by
  have hexchange : (planSocket plan).exchange frames = .noSocket := by
    show (if frames.length ≤ 3 then _ else _) = _
    rw [if_neg (by omega), if_neg (by omega)]
  rw [BloomSocket.reply, hexchange]

/-- A listing of one directory. -/
lemma outcome_listing {method path : String} {f : IpcValue → Ipc (List PendingRequest)} {listing : IpcValue}
    (h : s.reply (frames ++ [ipcFrame method path]) = .ok listing) :
    outcome (do f (← orFault (← bloomIpc s method path))) frames =
      outcome (f listing) (frames ++ [ipcFrame method path]) := by
  have hcall : outcome (bloomIpc s method path) frames =
      (.ok (.ok listing), frames ++ [ipcFrame method path]) := by
    rw [← h]
    rfl
  rw [outcome_bind_ok hcall]
  exact outcome_bind_ok rfl

/-- A program that pushes the requests. -/
def Pushes (x : Ipc (List PendingRequest)) (frames : List (List Char)) (found : List PendingRequest) : Prop :=
  ∃ frames', outcome x frames = (.ok found, frames')

lemma pushes_collect {α : Type} {body : α → Ipc (List PendingRequest)} {a : α} {found : List PendingRequest}
    (h : Pushes (body a) frames found) : Pushes (collect body [a]) frames found := by
  obtain ⟨frames', hrun⟩ := h
  refine ⟨frames', ?_⟩
  rw [collect, outcome_bind_ok hrun, collect, outcome_bind_ok (outcome_pure [] frames'), outcome_pure,
    List.append_nil]

lemma pushes_listing {method path : String} {f : IpcValue → Ipc (List PendingRequest)} {listing : IpcValue}
    {found : List PendingRequest} (h : s.reply (frames ++ [ipcFrame method path]) = .ok listing)
    (hf : Pushes (f listing) (frames ++ [ipcFrame method path]) found) :
    Pushes (do f (← orFault (← bloomIpc s method path))) frames found := by
  obtain ⟨frames', hrun⟩ := hf
  exact ⟨frames', (outcome_listing h).trans hrun⟩

lemma pushes_pending (hplan : (String.ofList plan).utf8ByteSize ≤ maxOutboxPlanBytes) :
    Pushes (ceremonyPending (planSocket plan)) [] [⟨"1", "1", "1", String.ofList plan, none⟩] := by
  refine pushes_listing (reply_listing plan (by decide)) ?_
  refine pushes_collect ?_
  refine pushes_listing (reply_listing plan (by decide)) ?_
  refine pushes_collect ?_
  refine pushes_listing (reply_listing plan (by decide)) ?_
  refine pushes_collect ?_
  refine pushes_listing (reply_plan plan (by decide)) ?_
  have hcut : cutPlan (String.ofList plan) = pure (String.ofList plan) := by
    rw [cutPlan, truncateStr, if_pos hplan]
  rw [planText_planReply, hcut]
  have hchallenge : ∀ frames : List (List Char), frames.length = 4 →
      outcome (bloomIpc (planSocket plan) "read" (challengePath "1" "1" "1")) frames =
        (.ok (.error ⟨.unavailable, "Bloom IPC socket is not available"⟩),
          frames ++ [ipcFrame "read" (challengePath "1" "1" "1")]) := by
    intro frames hframes
    have hlong : 4 < (frames ++ [ipcFrame "read" (challengePath "1" "1" "1")]).length := by
      rw [List.length_append, hframes]
      decide
    rw [← reply_challenge plan hlong]
    rfl
  exact ⟨_, (outcome_bind_ok rfl).trans (outcome_bind_ok (hchallenge _ (by decide)))⟩

lemma handle_pending (hplan : (String.ofList plan).utf8ByteSize ≤ maxOutboxPlanBytes) :
    (handle (planDaemon plan).surroundings ceremonyRequest idleState).1 =
      .ok (.ok "1" (.requests [⟨"1", "1", "1", String.ofList plan, none⟩])) := by
  obtain ⟨frames, hrun⟩ := pushes_pending hplan
  have hvalid : validateRequest ceremonyRequest = .ok () := by rfl
  have hdispatch : outcome (dispatch (planDaemon plan).surroundings ceremonyRequest) idleState =
      (.ok (.requests [⟨"1", "1", "1", String.ofList plan, none⟩]), idleState) := by
    have hbloom : outcome (onBloom (ceremonyPending (planSocket plan))) idleState =
        (.ok [⟨"1", "1", "1", String.ofList plan, none⟩], idleState) := outcome_zoom_ok hrun
    rw [dispatch, hvalid]
    exact (outcome_bind_ok rfl).trans (outcome_bind_ok hbloom)
  have hid : requestId ceremonyRequest = "1" := by decide
  rw [handle, hdispatch, hid]

/-- A plan that is larger than a frame is not sent. -/
lemma encodeResponse_pending_ne {mtime : FileName → ℤ}
    (h : Client.maxFrameBytes < quotedBytes (String.ofList plan)) :
    encodeResponse ((Response.ok "1" (.requests [⟨"1", "1", "1", String.ofList plan, none⟩])).json mtime) ≠
      frameOf ((Response.ok "1" (.requests [⟨"1", "1", "1", String.ofList plan, none⟩])).json mtime) := by
  intro hsent
  have hid : requestId ceremonyRequest = "1" := by decide
  have hlength := length_encodeResponse_le
    (Response.index_id_json mtime (.ok "1" (.requests [⟨"1", "1", "1", String.ofList plan, none⟩])))
    (by decide : isRequestId "1" = true)
  have hfits := length_requests_le_iff ceremonyRequest mtime
    [⟨"1", "1", "1", String.ofList plan, none⟩]
  rw [hid, ← hsent, List.map_singleton, List.sum_singleton, size_pendingJson] at hfits
  have hroom := hfits.mp hlength
  simp only [planBytes] at hroom
  omega

end Plans

/-! ### The replacement of a response -/

section Replacement

variable {d : Daemon} {raw : Json} {g : GuestState} {id : String} {result : OperationResult}

/-- A response of success is sent where it fits, and replaced by an error where it does not. -/
theorem encodeResponse_ok (hgenuine : d.surroundings.IsGenuine)
    (h : (handle d.surroundings raw g).1 = .ok (.ok id result)) :
    (FitsFrame d raw g →
      (frameOf ((Response.ok id result).json d.mtime)).length ≤ Client.maxFrameBytes ∧
        encodeResponse ((Response.ok id result).json d.mtime) =
          frameOf ((Response.ok id result).json d.mtime)) ∧
    (¬FitsFrame d raw g →
      Client.maxFrameBytes < (frameOf ((Response.ok id result).json d.mtime)).length ∧
        encodeResponse ((Response.ok id result).json d.mtime) =
          frameOf (errorJson id .internal "guest response exceeded the frame limit")) := by
  have hiff := length_le_iff hgenuine h
  constructor
  · intro hfits
    have hlength := hiff.mpr hfits
    exact ⟨hlength, if_neg (Nat.not_lt.mpr hlength)⟩
  · intro hlarge
    have hlength := Nat.lt_of_not_le (mt hiff.mp hlarge)
    refine ⟨hlength, ?_⟩
    rw [encodeResponse, if_pos hlength, Response.index_id_json]
    rfl

/-- The response with a short plan. -/
def shortResponse : Json := Response.json (fun _ => 0) (.ok "1" (.requests [⟨"1", "1", "1", "ok", none⟩]))

theorem encodeResponse_ok_short : encodeResponse shortResponse = frameOf shortResponse := by
  have hgenuine : (planDaemon ['o', 'k']).surroundings.IsGenuine := isGenuine_guestWith _
  have hplan : (String.ofList ['o', 'k']).utf8ByteSize ≤ maxOutboxPlanBytes := by decide
  have hresponse := handle_pending hplan
  have hshort : (frameOf shortResponse).length ≤ Client.maxFrameBytes := by decide +kernel
  exact ((encodeResponse_ok hgenuine hresponse).1 ((length_le_iff hgenuine hresponse).mp hshort)).2

/-- One plan within its limit is too large for a frame. -/
theorem not_encodeResponse_ok : ¬∀ (d : Daemon) (raw : Json) (g : GuestState) (id : String)
    (result : OperationResult), d.surroundings.IsGenuine →
    (handle d.surroundings raw g).1 = .ok (.ok id result) →
      encodeResponse ((Response.ok id result).json d.mtime) =
        frameOf ((Response.ok id result).json d.mtime) := by
  intro h
  have hlarge : Client.maxFrameBytes < quotedBytes (String.ofList controlPlan) := by
    rw [quotedBytes_controlPlan]
    decide
  have hresponse := handle_pending (Nat.le_of_eq utf8ByteSize_controlPlan)
  exact encodeResponse_pending_ne hlarge
    (h (planDaemon controlPlan) ceremonyRequest idleState _ _ (isGenuine_guestWith _) hresponse)

end Replacement

end GuestControl

end Bloom
