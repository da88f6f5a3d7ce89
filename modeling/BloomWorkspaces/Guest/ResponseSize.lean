import BloomWorkspaces.Agent.PathValidators
import BloomWorkspaces.Guest.JobReplies
import BloomWorkspaces.Guest.Protocol
import Mathlib.Data.List.Flatten

/-!
# Sizes of results

What the operations other than `fs.list` and `ceremony.pending` return fits into a frame.
-/

namespace Bloom

namespace GuestControl

open Action

/-- What the calls of the guest can find: the public host key is checked where it is read, and the answers
about jobs come from a run of the engine. -/
structure Surroundings.IsGenuine (e : Surroundings) : Prop where
  hostKey : ∀ text, e.connections.hostKey = some text → text.utf8ByteSize ≤ 1024
  jobs : ∀ request, JobEngine.GivesInRun (e.jobs request).answer

/-- The result leaves room for the rest of its response. -/
def HasRoom (result : Json) : Prop := JsonText.size result.text ≤ 390000

/-! ### Values -/

section Values

variable {fields : List (String × Json)} {bounds : List ℕ} {keys : List String}

lemma HasRoom.of_fields (hshort : keys.all Client.isShortKey = true)
    (hsizes : Client.SizesWithin fields bounds) (hkeys : fields.map Prod.fst = keys)
    (hroom : bounds.sum + 24 * bounds.length + 2 ≤ 390000) : HasRoom (.object fields) :=
  Nat.le_trans (size_object_le hshort hsizes hkeys) hroom

lemma size_word_le (n : ℤ) : JsonText.size (jsonWord n).text ≤ 20 := by
  have htext : (jsonWord n).text = JsonText.number (n % 2 ^ 64).natAbs :=
    JsonText.integer_of_nonneg (Int.emod_nonneg n (by decide))
  rw [htext]
  exact JsonText.size_number_le (by decide) (by omega)

lemma size_optionalNumber_le (n : Option ℕ) : JsonText.size (optionalNumber n).text ≤ 20 := by
  cases n with
  | none => exact (by decide : JsonText.size (Json.text .null) ≤ 20)
  | some n => exact size_word_le n

lemma size_base64_le {bytes : List UInt8} (h : bytes.length ≤ maxFileChunkBytes) :
    JsonText.size (jsonBytes (Base64.encode bytes)).text ≤ 349530 := by
  rw [jsonBytes, Json.text_string, jsonString, String.toList_ofList]
  exact size_chunk_le h

lemma size_text_le {text : String} {n : ℕ} (h : text.utf8ByteSize ≤ n) :
    JsonText.size (Json.string text).text ≤ 6 * n + 2 := by
  have hsize := size_jsonString_le text
  rw [Json.text_string]
  omega

/-- A character takes four bytes at most. -/
lemma size_chars_le {text : String} {n : ℕ} (h : text.toList.length ≤ n) :
    JsonText.size (Json.string text).text ≤ 24 * n + 2 := by
  have hbytes := Utf8.length_encode_le text.toList
  have hsize := size_text_le (Nat.le_refl text.utf8ByteSize)
  rw [Utf8.length_encode] at hbytes
  omega

lemma size_uuid_le {id : String} (h : isUuidText id.toList = true) :
    JsonText.size (Json.string id).text ≤ 866 := by
  simp only [isUuidText, hasUuidShape, Bool.and_eq_true, decide_eq_true_eq] at h
  exact size_chars_le (Nat.le_of_eq h.1.1.1)

lemma size_evmAddress_le {address : String} (h : Connections.isEvmAddress address = true) :
    JsonText.size (Json.string address).text ≤ 1010 := by
  have hlength : address.toList.length ≤ 42 := by
    rw [Connections.isEvmAddress] at h
    split at h
    · rename_i digits hdigits
      simp only [Bool.and_eq_true, decide_eq_true_eq] at h
      rw [hdigits, List.length_cons, List.length_cons, h.1]
    · cases h
  exact size_chars_le hlength

lemma size_stateName_le (state : JobState) : JsonText.size (Json.string (stateName state)).text ≤ 22 := by
  cases state <;> exact Client.size_name_le (by decide)

end Values

/-! ### Results -/

section Results

lemma hasRoom_hello : HasRoom hello := by
  rw [HasRoom]
  decide +kernel

lemma hasRoom_readJson {reply : WorkspaceFiles.ReadReply} {bytes : List UInt8}
    (hpath : reply.path.utf8ByteSize ≤ 1024) (hbytes : bytes.length ≤ maxFileChunkBytes)
    (hdata : reply.data = Base64.encode bytes) : HasRoom (readJson reply) := by
  have hkeys : ["data", "eof", "nextOffset", "offset", "path",
      "size"].all Client.isShortKey = true := by decide
  refine HasRoom.of_fields hkeys (.cons (hdata ▸ size_base64_le hbytes) (.cons (Client.size_bool_le _)
    (.cons (size_word_le _) (.cons (size_word_le _) (.cons (size_text_le hpath)
    (.cons (size_word_le _) .nil)))))) rfl ?_
  decide

lemma hasRoom_writeJson {reply : WorkspaceFiles.WriteReply} (hpath : reply.path.utf8ByteSize ≤ 1024) :
    HasRoom (writeJson reply) := by
  have hkeys : ["nextOffset", "path", "quotaBytes", "size", "usedBytes"].all Client.isShortKey =
      true := by decide
  refine HasRoom.of_fields hkeys (.cons (size_word_le _) (.cons (size_text_le hpath) (.cons (size_word_le _)
    (.cons (size_word_le _) (.cons (size_word_le _) .nil))))) rfl ?_
  decide

lemma hasRoom_deleteJson {reply : WorkspaceFiles.DeleteReply} (hpath : reply.path.utf8ByteSize ≤ 1024) :
    HasRoom (deleteJson reply) := by
  have hkeys : ["deleted", "path", "quotaBytes", "usedBytes"].all Client.isShortKey = true := by
    decide
  refine HasRoom.of_fields hkeys (.cons (Client.size_bool_le true) (.cons (size_text_le hpath)
    (.cons (size_word_le _) (.cons (size_word_le _) .nil)))) rfl ?_
  decide

lemma size_logsJson_le {logs : Except String LogChunk} (h : IsLogs logs) :
    JsonText.size (logsJson logs).text ≤ 350000 := by
  cases logs with
  | error message =>
    obtain rfl : message = "log cursor is beyond the current log end" := h
    exact (by decide +kernel : JsonText.size (logsJson (.error
      "log cursor is beyond the current log end")).text ≤ 350000)
  | ok chunk =>
    obtain ⟨hencoding, bytes, hbytes, hdata⟩ := h
    have hkeys : ["data", "encoding", "endOffset", "eof", "nextOffset", "offset",
      "truncatedBefore"].all Client.isShortKey = true := by decide
    have hname : JsonText.size (Json.string chunk.encoding).text ≤ 22 := by
      rw [hencoding]
      exact Client.size_name_le (by decide)
    refine Nat.le_trans (size_object_le hkeys (.cons (hdata ▸ size_base64_le hbytes)
      (.cons hname (.cons (size_word_le _)
      (.cons (Client.size_bool_le _) (.cons (size_word_le _) (.cons (size_word_le _)
      (.cons (Client.size_bool_le _) .nil))))))) rfl) ?_
    decide

lemma hasRoom_jobJson {reply : JobReply} (h : reply.IsBounded) : HasRoom (jobJson reply) := by
  have hkeys : ["createdAt", "exitCode", "finishedAt", "jobId", "logs",
      "signal", "startedAt", "state", "timeoutMs"].all Client.isShortKey = true := by decide
  refine HasRoom.of_fields hkeys (.cons (size_word_le _) (.cons (size_optionalNumber_le _)
    (.cons (size_optionalNumber_le _) (.cons (size_uuid_le h.jobId) (.cons (size_logsJson_le h.logs)
    (.cons (size_optionalNumber_le _) (.cons (size_optionalNumber_le _)
    (.cons (size_stateName_le _) (.cons (size_word_le _) .nil))))))))) rfl ?_
  decide

end Results

/-! ### Operations -/

section Operations

variable {α β : Type} {e : Surroundings} {raw path : Json} {mtime : FileName → ℤ}

/-- What the program returns, whatever may end it before. -/
def Finds {σ ε : Type} (Q : α → Prop) (x : ExceptT ε (StateM σ) α) : Prop :=
  Yields (fun _ => True) Q x

lemma finds_bind {σ ε : Type} {Q : β → Prop} {x : ExceptT ε (StateM σ) α}
    {f : α → ExceptT ε (StateM σ) β} (h : ∀ a, Finds Q (f a)) : Finds Q (x >>= f) :=
  Yields.bind (Yields.any x) fun a _ => h a

lemma finds_zoom {σ τ ε δ : Type} {part : σ → τ} {put : τ → σ → σ} {lift : ε → δ} {Q : α → Prop}
    {x : ExceptT ε (StateM τ) α} (hx : Finds Q x) : Finds Q (zoom part put lift x) := by
  intro s
  rw [post_zoom]
  exact hx (part s)

lemma finds_withWriteLock {Q : α → Prop} {x : FileAction α} (hx : Finds Q x) :
    Finds Q (withWriteLock x) := by
  intro k
  have hpost := hx k
  cases hlocked : k.locked with
  | true =>
    rw [outcome_withWriteLock_locked hlocked]
    trivial
  | false =>
    rcases hrun : outcome x k with ⟨r, k'⟩
    rw [hrun] at hpost
    by_cases hr : r = .error .blocked
    · subst hr
      rw [outcome_withWriteLock_blocked hlocked hrun]
      trivial
    · rw [outcome_withWriteLock hlocked hrun hr]
      exact hpost

lemma finds_orThrow (x : Except ControlError α) : Finds (fun a => x = .ok a) (WorkspaceFiles.orThrow x) := by
  cases x with
  | ok a => exact Yields.pure rfl
  | error error => exact Yields.throw trivial

/-- The path of a reply is the one of the request. -/
lemma size_joinParts_le {parts : List String} (h : validateRelativePath path = .ok parts) :
    (joinParts parts).utf8ByteSize ≤ 1024 := by
  obtain ⟨s, hs, hpath, -⟩ := validateRelativePath_ok h
  have hsame : validateRelativePath (.string s) = .ok parts := by
    rw [← h, validateRelativePath, validateRelativePath, hs]
    rfl
  rw [joinParts_eq hsame]
  exact hpath.length_le

lemma finds_read (offset maxBytes : Json) :
    Finds (fun reply => HasRoom (readJson reply)) (WorkspaceFiles.read path offset maxBytes) := by
  refine Yields.bind (finds_orThrow _) fun parts hparts => ?_
  refine Yields.bind (finds_orThrow _) fun start _ => ?_
  refine Yields.bind (finds_orThrow _) fun limit hlimit => ?_
  have hmax := (validateInteger_ok hlimit).2
  refine finds_bind fun fd => ?_
  refine finds_bind fun n => ?_
  refine finds_bind fun contents => ?_
  split_ifs
  · exact Yields.throw trivial
  · exact Yields.throw trivial
  · refine Yields.bind (P := fun buf => buf.length ≤ maxFileChunkBytes) ?_ fun buf hbuf => ?_
    · refine Yields.modifyGet fun k => ?_
      exact Nat.le_trans (List.length_take_le _ _) (Int.toNat_le.mpr hmax)
    · exact Yields.pure (hasRoom_readJson (size_joinParts_le hparts) hbuf rfl)

lemma finds_write (quota : WorkspaceFiles.Quota) (pwrites : List ℕ) (offset data truncate : Json) :
    Finds (fun reply => HasRoom (writeJson reply))
      (WorkspaceFiles.write quota pwrites path offset data truncate) := by
  refine Yields.bind (finds_orThrow _) fun r hr => ?_
  have hpath := size_joinParts_le (WorkspaceFiles.writeFields_ok hr).1
  refine finds_withWriteLock (finds_bind fun fd => ?_)
  refine finds_bind fun _ => ?_
  refine finds_bind fun n => ?_
  refine finds_bind fun contents => ?_
  refine finds_bind fun used => ?_
  split_ifs
  · exact Yields.throw trivial
  · refine finds_bind fun _ => ?_
    refine finds_bind fun _ => ?_
    refine finds_bind fun after => ?_
    exact Yields.pure (hasRoom_writeJson hpath)

lemma finds_delete (quota : WorkspaceFiles.Quota) (recursive : Json) :
    Finds (fun reply => HasRoom (deleteJson reply)) (WorkspaceFiles.delete quota path recursive) := by
  refine Yields.bind (finds_orThrow _) fun parts hparts => ?_
  split_ifs
  · exact Yields.throw trivial
  · refine finds_withWriteLock (finds_bind fun parent => ?_)
    refine finds_bind fun found => ?_
    refine finds_bind fun n => ?_
    refine finds_bind fun _ => ?_
    refine finds_bind fun removed => ?_
    refine finds_bind fun _ => ?_
    refine finds_bind fun used => ?_
    exact Yields.pure (hasRoom_deleteJson (size_joinParts_le hparts))

/-- A status, whatever the identity is. -/
lemma hasRoom_status {available isMounted : Bool} {identity : Json}
    (hidentity : JsonText.size identity.text ≤ 1100) : HasRoom (.object [
      ("available", .bool available),
      ("capabilities", .object [
        ("bloomRead", .bool available),
        ("files", .bool true),
        ("jobs", .bool true),
        ("transactions", .bool false),
        ("walletSigning", .bool false)]),
      ("helper", .object [
        ("name", .string "bloom-workspace"), ("protocolVersion", .number (some protocolVersion))]),
      ("identity", identity),
      ("mount", .object [("mounted", .bool isMounted), ("path", .string "/bloom")])]) := by
  have hcapabilities := size_object_le
    (by decide : ["bloomRead", "files", "jobs", "transactions", "walletSigning"].all
      Client.isShortKey = true)
    (.cons (Client.size_bool_le available) (.cons (Client.size_bool_le true)
      (.cons (Client.size_bool_le true) (.cons (Client.size_bool_le false)
      (.cons (Client.size_bool_le false) .nil))))) rfl
  have hhelper := size_object_le
    (by decide : ["name", "protocolVersion"].all Client.isShortKey = true)
    (.cons (Client.size_name_le (by decide : Client.isShortKey "bloom-workspace" = true))
      (.cons Client.size_version_le .nil)) rfl
  have hmount := size_object_le (by decide : ["mounted", "path"].all Client.isShortKey = true)
    (.cons (Client.size_bool_le isMounted)
      (.cons (Client.size_name_le (by decide : Client.isShortKey "/bloom" = true)) .nil)) rfl
  have hkeys : ["available", "capabilities", "helper", "identity", "mount"].all
      Client.isShortKey = true := by decide
  refine HasRoom.of_fields hkeys (.cons (Client.size_bool_le available) (.cons hcapabilities
    (.cons hhelper (.cons hidentity (.cons hmount .nil))))) rfl ?_
  decide

lemma finds_bloomStatus : Finds HasRoom (bloomStatus e) := by
  refine Yields.bind (finds_zoom yields_watchIdentity) fun found hfound => ?_
  cases found with
  | none =>
    have hnull : JsonText.size (Json.text .null) ≤ 1100 := by decide
    exact Yields.pure (hasRoom_status hnull)
  | some address =>
    have haddress := size_evmAddress_le (hfound address rfl)
    have hsize := size_object_le (by decide : ["address", "kind"].all Client.isShortKey = true)
      (.cons haddress (.cons (Client.size_name_le (by decide : Client.isShortKey "watch" = true)) .nil)) rfl
    exact Yields.pure (hasRoom_status (Nat.le_trans hsize (by decide)))

/-! ### Connections -/

lemma sublist_of_mem_splitOnP {p : Char → Bool} {chars word : List Char} (h : word ∈ chars.splitOnP p) :
    word.Sublist chars := by
  induction chars generalizing word with
  | nil =>
    rw [List.splitOnP_nil, List.mem_singleton] at h
    rw [h]
  | cons c chars ih =>
    rw [List.splitOnP_cons_eq_if_modifyHead] at h
    split at h
    · rcases List.mem_cons.mp h with rfl | hrest
      · exact List.nil_sublist _
      · exact (ih hrest).cons c
    · obtain ⟨first, rest, hsplit⟩ := List.exists_cons_of_ne_nil (List.splitOnP_ne_nil p chars)
      rw [hsplit, List.modifyHead_cons] at h
      have hfirst : ∀ w ∈ first :: rest, w.Sublist chars := fun w hw => ih (hsplit ▸ hw)
      rcases List.mem_cons.mp h with rfl | hrest
      · exact (hfirst first List.mem_cons_self).cons_cons c
      · exact (hfirst word (List.mem_cons_of_mem _ hrest)).cons c

lemma utf8ByteSize_le_of_sublist {word : List Char} {text : String} (h : word.Sublist text.toList) :
    (String.ofList word).utf8ByteSize ≤ text.utf8ByteSize := by
  rw [← Utf8.length_encode, ← Utf8.length_encode, String.toList_ofList]
  exact (h.flatMap String.utf8EncodeChar).length_le

/-- A text of at most two words. -/
lemma utf8ByteSize_hostKey_le {text hostKey : String} (h : Connections.hostKeyText text = some hostKey) :
    hostKey.utf8ByteSize ≤ 2 * text.utf8ByteSize + 1 := by
  rw [Connections.hostKeyText] at h
  split at h
  · have hwords : ∀ word ∈ ((text.toList.splitOnP Connections.isWhitespace).filter (· ≠ [])).take 2,
        (String.ofList word).utf8ByteSize ≤ text.utf8ByteSize := fun word hword =>
      utf8ByteSize_le_of_sublist (sublist_of_mem_splitOnP
        (List.mem_filter.mp (List.mem_of_mem_take hword)).1)
    have hlength := List.length_take_le 2 ((text.toList.splitOnP Connections.isWhitespace).filter (· ≠ []))
    revert h hwords hlength
    generalize ((text.toList.splitOnP Connections.isWhitespace).filter (· ≠ [])).take 2 = words
    intro h hwords hlength
    obtain rfl := Option.some.inj h
    match words with
    | [] => exact Nat.zero_le _
    | [first] =>
      have hfirst := hwords first List.mem_cons_self
      show (String.ofList first).utf8ByteSize ≤ _
      omega
    | [first, second] =>
      have hfirst := hwords first List.mem_cons_self
      have hsecond := hwords second (List.mem_cons_of_mem _ List.mem_cons_self)
      have hspace : " ".utf8ByteSize = 1 := by decide
      show (String.ofList first ++ " " ++ String.ofList second).utf8ByteSize ≤ _
      rw [String.utf8ByteSize_append, String.utf8ByteSize_append, hspace]
      omega
  · cases h

lemma size_hostKey_le {text hostKey : String} (htext : text.utf8ByteSize ≤ 1024)
    (h : Connections.hostKeyText text = some hostKey) :
    JsonText.size (Json.string hostKey).text ≤ 12300 := by
  have hbytes := utf8ByteSize_hostKey_le h
  have hsize := size_text_le (Nat.le_refl hostKey.utf8ByteSize)
  omega

lemma hasRoom_connectionStatus (hgenuine : e.IsGenuine) (conn : Connections.ConnectionState)
    {workspaceId : String} (hid : Connections.isGuestWorkspaceId workspaceId = true) (nfs : Bool) :
    HasRoom (Connections.connectionStatus e.connections conn workspaceId nfs) := by
  rw [Connections.connectionStatus]
  split
  · rw [HasRoom]
    decide +kernel
  · rename_i hostKey hkey
    obtain ⟨text, htext, hkey⟩ := Option.bind_eq_some_iff.mp hkey
    have hhost := size_hostKey_le (hgenuine.hostKey text htext) hkey
    have huuid : isUuidText workspaceId.toList = true := (Bool.and_eq_true_iff.mp hid).1
    have hport : JsonText.size (if nfs then Json.number (some 2049) else .null).text ≤ 4 := by
      cases nfs
      · decide
      · decide
    have hnfs := fun available => size_object_le
      (by decide : ["available", "port"].all Client.isShortKey = true)
      (.cons (Client.size_bool_le available) (.cons hport .nil)) rfl
    have hnumber : JsonText.size (Json.number (some 22)).text ≤ 4 := by decide
    have hssh := fun available => size_object_le
      (by decide : ["available", "hostKey", "port"].all Client.isShortKey = true)
      (.cons (Client.size_bool_le available) (.cons hhost (.cons hnumber .nil))) rfl
    have hkeys : ["nfs", "ssh", "workspaceId"].all Client.isShortKey = true := by decide
    refine HasRoom.of_fields hkeys (.cons (hnfs _) (.cons (hssh _) (.cons (size_uuid_le huuid) .nil)))
      rfl ?_
    decide

lemma finds_onError {Q : α → Prop} {body : Connections.Control α}
    {handler : ControlError → Connections.Control α} (hbody : Finds Q body)
    (hhandler : ∀ error, Finds Q (handler error)) : Finds Q (Connections.onError body handler) := by
  refine Yields.tryCatch hbody fun halt _ => ?_
  cases halt with
  | error error => exact hhandler error
  | blocked => exact Yields.throw trivial

lemma finds_withConn {Q : α → Prop} {body : Connections.Control α} (hbody : Finds Q body) :
    Finds Q (Connections.withConn body) := by
  refine finds_bind fun _ => ?_
  refine Yields.bind (finds_onError hbody fun error => ?_) fun a ha => ?_
  · exact finds_bind fun _ => Yields.throw trivial
  · exact finds_bind fun _ => Yields.pure ha

lemma finds_startDaemons (hgenuine : e.IsGenuine) {fields : Connections.ConfigureFields}
    (hid : Connections.isGuestWorkspaceId fields.workspaceId = true) :
    Finds HasRoom (Connections.startDaemons e.connections fields) := by
  unfold Connections.startDaemons
  split
  · exact Yields.throw trivial
  · rename_i pid _
    have hlast : Finds HasRoom (show Connections.Control Json from do
        modify (Connections.Controller.setConn fun conn =>
          { conn with sshd := some pid, scope := some fields.scope })
        let c ← get
        pure (Connections.connectionStatus e.connections c.conn fields.workspaceId fields.nfsEnabled)) :=
      finds_bind fun _ => finds_bind fun c =>
        Yields.pure (hasRoom_connectionStatus hgenuine c.conn hid _)
    refine finds_bind fun _ => ?_
    split_ifs
    · exact finds_bind fun _ => finds_bind fun _ => hlast
    · exact hlast

lemma finds_configureFields : Finds (fun fields : Connections.ConfigureFields =>
    Connections.isGuestWorkspaceId fields.workspaceId = true)
      (Connections.liftResult (Connections.configureFields raw)) := by
  cases hfields : Connections.configureFields raw with
  | ok fields => exact Yields.pure (Connections.configureFields_ok hfields).1.2
  | error error => exact Yields.throw trivial

lemma finds_configureConnections (hgenuine : e.IsGenuine) :
    Finds HasRoom (Connections.configureConnections e.connections raw) := by
  refine finds_withConn ?_
  refine Yields.bind finds_configureFields fun fields hid => ?_
  refine finds_bind fun c => ?_
  split
  · split_ifs
    · exact Yields.pure (hasRoom_connectionStatus hgenuine _ hid _)
    · exact Yields.throw trivial
  · exact finds_bind fun _ => finds_startDaemons hgenuine hid

end Operations

/-! ### Every other operation -/

section Perform

variable {α : Type} {e : Surroundings} {raw : Json} {mtime : FileName → ℤ}

/-- The response to the result leaves room. -/
def RoomyResult (mtime : FileName → ℤ) (result : OperationResult) : Prop := HasRoom (result.json mtime)

lemma finds_resultOf {Q : α → Prop} {x : Dispatch α} {f : α → OperationResult} (hx : Finds Q x)
    (hf : ∀ a, Q a → RoomyResult mtime (f a)) : Finds (RoomyResult mtime) (resultOf f x) :=
  Yields.bind hx fun a ha => Yields.pure (hf a ha)

lemma finds_jobRequest (hgenuine : e.IsGenuine) (request : JobRequest) :
    Finds (RoomyResult mtime) (jobRequest e request) := by
  rw [jobRequest]
  cases hanswer : (e.jobs request).answer with
  | error error => exact Yields.throw trivial
  | ok reply =>
    have hgiven := hgenuine.jobs request
    rw [hanswer] at hgiven
    exact Yields.pure (hasRoom_jobJson (JobEngine.isBounded_of_givesInRun hgiven))

lemma finds_perform (hgenuine : e.IsGenuine) {operation : String} (hlist : operation ≠ "fs.list")
    (hceremony : operation ≠ "ceremony.pending") :
    Finds (RoomyResult mtime) (perform e raw operation) := by
  unfold perform
  split
  · exact Yields.pure hasRoom_hello
  · exact absurd rfl hlist
  · exact finds_bind fun _ => finds_resultOf (finds_zoom (finds_read _ _)) fun _ h => h
  · exact finds_bind fun _ => finds_resultOf (finds_zoom (finds_write _ _ _ _ _)) fun _ h => h
  · exact finds_bind fun _ => finds_resultOf (finds_zoom (finds_delete _ _)) fun _ h => h
  · exact finds_bind fun _ => finds_jobRequest hgenuine _
  · exact finds_jobRequest hgenuine _
  · exact finds_jobRequest hgenuine _
  · exact finds_resultOf finds_bloomStatus fun _ h => h
  · exact finds_resultOf (finds_zoom (finds_configureConnections hgenuine)) fun _ h => h
  · exact absurd rfl hceremony
  · exact Yields.throw trivial

end Perform

end GuestControl

end Bloom
