import BloomWorkspaces.Agent.GuestChannel

/-!
# Uploads and downloads

`GuestWorkspace.write` and `read` with the file operations of the guest at the other end. The ids of
the requests are an arbitrary stream.
-/

namespace Bloom

open Action

/-! ### Requests -/

/-- The schema `Base64Chunk`. -/
def isBase64Chunk (value : List Char) : Bool :=
  value.length ≤ (maxFileChunkBytes + 2) / 3 * 4 + 4 && Base64.isBase64 value &&
    Base64.encode (Base64.decode value) = value && (Base64.decode value).length ≤ maxFileChunkBytes

def readRequest (path : JsText) (offset : ℕ) : PathRequest WorkspaceFiles.ReadReply where
  path := path
  valid := isRelativePath path && offset ≤ maxSafeInteger
  operation := "fs.read"
  fields := [jsonField "path" (JsonText.string path), jsonField "offset" (JsonText.number offset),
    jsonField "maxBytes" (JsonText.number maxFileChunkBytes)]
  serve guestPath :=
    WorkspaceFiles.read guestPath (.number (some offset)) (.number (some maxFileChunkBytes))
  result reply := [jsonField "data" (JsonText.string (Utf16.encode reply.data)),
    jsonField "eof" (JsonText.bool reply.eof),
    jsonField "nextOffset" (JsonText.number reply.nextOffset),
    jsonField "offset" (JsonText.number reply.offset), jsonField "path" (jsonString reply.path),
    jsonField "size" (JsonText.number reply.size)]

def writeRequest (quota : WorkspaceFiles.Quota) (pwrites : List ℕ) (path : JsText) (offset : ℕ)
    (data : List Char) (truncate : Bool) : PathRequest WorkspaceFiles.WriteReply where
  path := path
  valid := isRelativePath path && offset ≤ maxSafeInteger && isBase64Chunk data
  operation := "fs.write"
  fields := [jsonField "path" (JsonText.string path), jsonField "offset" (JsonText.number offset),
    jsonField "data" (JsonText.string (Utf16.encode data)),
    jsonField "truncate" (JsonText.bool truncate)]
  serve guestPath :=
    WorkspaceFiles.write quota pwrites guestPath (.number (some offset)) (.string (String.ofList data))
      (.bool truncate)
  result reply := [jsonField "nextOffset" (JsonText.number reply.nextOffset),
    jsonField "path" (jsonString reply.path),
    jsonField "quotaBytes" (JsonText.number reply.quotaBytes),
    jsonField "size" (JsonText.number reply.size),
    jsonField "usedBytes" (JsonText.integer reply.usedBytes)]

/-- A reply to `fs.read` under the schema `ReadChunk`. -/
def parseReadChunk (reply : WorkspaceFiles.ReadReply) : ReadReply :=
  if h : reply.offset ≤ maxSafeInteger ∧ reply.nextOffset ≤ maxSafeInteger ∧
      reply.size ≤ maxReadBytes then
    .ok ⟨reply.path, reply.offset, reply.nextOffset, reply.size, reply.eof, reply.data, h.1, h.2.1,
      h.2.2⟩
  else .error .schema

/-- A reply to `fs.write` that passes the schema `WriteChunk`. -/
structure WriteChunk where
  path : JsText
  size : ℕ
  nextOffset : ℕ
  usedBytes : ℕ
  quotaBytes : ℕ

def parseWriteChunk (reply : WorkspaceFiles.WriteReply) : Except ReadFailure WriteChunk :=
  if reply.size ≤ maxSafeInteger ∧ reply.nextOffset ≤ maxSafeInteger ∧
      0 ≤ reply.usedBytes ∧ reply.usedBytes ≤ maxSafeInteger ∧
      0 < reply.quotaBytes ∧ reply.quotaBytes ≤ maxSafeInteger then
    .ok ⟨Utf16.encode reply.path.toList, reply.size, reply.nextOffset, reply.usedBytes.toNat,
      reply.quotaBytes⟩
  else .error .schema

/-! ### Uploads -/

structure WorkspaceFileWrite where
  size : ℕ
  usedBytes : ℕ
  quotaBytes : ℕ
  deriving DecidableEq, Repr

/-- The offset of an upload, and the tree of the guest. -/
structure Upload where
  offset : ℕ
  tree : WorkspaceTree

namespace Upload

/-- `contents.subarray(offset, Math.min(contents.length, offset + MAX_FILE_CHUNK_BYTES))` -/
def chunk (u : Upload) (contents : List UInt8) : List UInt8 :=
  (contents.drop u.offset).take maxFileChunkBytes

/-- The turn of the loop after the reply to its request. -/
def receive (u : Upload) (path : JsText) (contents : List UInt8) (final : WriteChunk) :
    Upload × Option (Except ReadFailure WorkspaceFileWrite) :=
  if final.path ≠ path ∨ final.nextOffset ≠ u.offset + (u.chunk contents).length then
    (u, some (.error (invalidResponse "Guest returned an inconsistent upload response")))
  else if final.nextOffset < contents.length then ({ u with offset := final.nextOffset }, none)
  else if final.size ≠ contents.length then
    ({ u with offset := final.nextOffset },
      some (.error (invalidResponse "Guest did not commit the complete upload")))
  else
    ({ u with offset := final.nextOffset },
      some (.ok ⟨final.size, final.usedBytes, final.quotaBytes⟩))

/-- One turn of the loop of `write`; `pwrites` is what the calls of the guest for this chunk take. -/
def turn (quota : WorkspaceFiles.Quota) (id : RequestId) (pwrites : List ℕ) (path : JsText)
    (contents : List UInt8) (u : Upload) : Upload × Option (Except ReadFailure WorkspaceFileWrite) :=
  let request := writeRequest quota pwrites path u.offset (Base64.encode (u.chunk contents)) (u.offset = 0)
  let (reply, tree) := request.send id u.tree
  match reply.bind parseWriteChunk with
  | .error failure => ({ u with tree := tree }, some (.error failure))
  | .ok final => { u with tree := tree }.receive path contents final

end Upload

/-- The upload to `path` after at most `n` requests. -/
def uploadLoop (quota : WorkspaceFiles.Quota) (ids : ℕ → RequestId) (pwrites : ℕ → List ℕ)
    (path : JsText) (contents : List UInt8) (t : WorkspaceTree) :
    ℕ → Upload × Option (Except ReadFailure WorkspaceFileWrite)
  | 0 => (⟨0, t⟩, none)
  | n + 1 =>
    match uploadLoop quota ids pwrites path contents t n with
    | (u, some outcome) => (u, some outcome)
    | (u, none) => u.turn quota (ids n) (pwrites n) path contents

/-! ### Downloads -/

/-- The variables of a download, and the tree of the guest. -/
structure Download where
  transfer : Transfer
  tree : WorkspaceTree

/-- One turn of the loop of `read`. A reply names its path by the text that the path stands for. -/
def Download.turn (id : RequestId) (path : JsText) (d : Download) :
    Download × Option (Except ReadFailure (List UInt8)) :=
  let (reply, tree) := (readRequest path d.transfer.offset).send id d.tree
  let (transfer, outcome) := d.transfer.receive (String.ofList ((Utf16.decode path).getD []))
    (reply.bind parseReadChunk)
  (⟨transfer, tree⟩, outcome)

/-- The download of `path` after at most `n` requests. -/
def downloadLoop (ids : ℕ → RequestId) (path : JsText) (t : WorkspaceTree) :
    ℕ → Download × Option (Except ReadFailure (List UInt8))
  | 0 => (⟨.start, t⟩, none)
  | n + 1 =>
    match downloadLoop ids path t n with
    | (d, some outcome) => (d, some outcome)
    | (d, none) => d.turn (ids n) path

/-! ### Paths -/

/-- The components of the path that a text names. -/
def components (text : List Char) : TreePath := (text.splitOn '/').map Utf8.encode

/-- An accepted path that stands for a text which is not too long for the guest. -/
structure Addresses (path : JsText) (text : List Char) : Prop where
  accepted : isRelativePath path = true
  decoded : Utf16.decode path = some text
  bytes : (Utf8.encode text).length ≤ 1024

/-- The parts of the path that the guest splits a text into. -/
def guestParts (text : List Char) : List String := (text.splitOn '/').map String.ofList

section Paths

variable {path : JsText} {text : List Char}

lemma map_fileName_guestParts (text : List Char) :
    (guestParts text).map WorkspaceFiles.fileName = components text := by
  rw [guestParts, components, List.map_map]
  refine List.map_congr_left fun part _ => ?_
  simp [WorkspaceFiles.fileName]

lemma joinParts_guestParts (text : List Char) :
    joinParts (guestParts text) = String.ofList text := by
  have hparts : (guestParts text).map String.toList = text.splitOn '/' := by
    rw [guestParts, List.map_map]
    conv_rhs => rw [← List.map_id (text.splitOn '/')]
    refine List.map_congr_left fun part _ => ?_
    simp
  rw [joinParts, hparts, List.intercalate_splitOn]

lemma length_guestParts (text : List Char) : (guestParts text).length = (components text).length := by
  rw [← map_fileName_guestParts, List.length_map]

lemma isRelativePath_length (h : isRelativePath path = true) : path.length ≤ 1024 := by
  simp only [isRelativePath, Bool.and_eq_true, decide_eq_true_eq] at h
  exact h.1.2

lemma utf8ByteSize_ofList (text : List Char) :
    (String.ofList text).utf8ByteSize = (Utf8.encode text).length := by
  rw [← Utf8.length_encode, String.toList_ofList]

lemma isRelativePath_ofList (haccepted : isRelativePath path = true)
    (hdecoded : Utf16.decode path = some text) (hbytes : (Utf8.encode text).length ≤ 1024) :
    IsRelativePath (String.ofList text) := by
  simp only [isRelativePath, Bool.and_eq_true, decide_eq_true_eq] at haccepted
  refine isRelativePath_of_safe ?_ ?_
  · rw [String.toList_ofList, Utf16.encode_of_decode hdecoded]
    exact haccepted.2
  · rw [utf8ByteSize_ofList]
    exact hbytes

namespace Addresses

lemma isRelativePath (h : Addresses path text) : IsRelativePath (String.ofList text) :=
  isRelativePath_ofList h.accepted h.decoded h.bytes

lemma validate (h : Addresses path text) :
    validateRelativePath (.string (String.ofList text)) = .ok (guestParts text) := by
  rw [validateRelativePath_eq_ok h.isRelativePath, pathParts, String.toList_ofList]
  rfl

lemma encode_text (h : Addresses path text) : Utf16.encode (String.ofList text).toList = path := by
  rw [String.toList_ofList, Utf16.encode_of_decode h.decoded]

/-- A component is a name for the file system unless it is too long. -/
lemma plain (h : Addresses path text) {name : FileName} (hname : name ∈ components text)
    (hlength : name.length ≤ 255) : isPlainName name = true := by
  have hpath := h.isRelativePath
  obtain ⟨part, hpart, rfl⟩ := List.mem_map.mp hname
  have hin : part ∈ pathParts (String.ofList text) := by
    rw [pathParts, String.toList_ofList]
    exact hpart
  have hparts := hpath.parts part hin
  have hstep := isStep_encode hparts.2 (slash_not_mem_of_mem_pathParts hin)
  have hzero : (0 : UInt8) ∉ Utf8.encode part := by
    intro hmem
    have hchar : '\x00' ∈ part := Utf8.mem_of_mem_encode (by decide) hmem
    have hnul := hpath.noNul
    rw [hasNul, decide_eq_false_iff_not, String.toList_ofList] at hnul
    exact hnul (Ascii.mem_of_mem_splitOn hpart hchar)
  simp only [isPlainName, Bool.and_eq_true, decide_eq_true_eq, Bool.not_eq_true', ne_eq]
  refine ⟨⟨⟨⟨⟨Utf8.encode_ne_nil hparts.1, hstep.ne_dot⟩, hstep.ne_dotDot⟩, hlength⟩, ?_⟩,
    hstep.noSlash⟩
  rw [← Bool.not_eq_true, List.contains_iff_mem]
  exact hzero

end Addresses

end Paths

/-! ### Frames -/

section Frames

variable {path : JsText} {text : List Char} {offset : ℕ} {id : RequestId}

lemma size_path_le (h : isRelativePath path = true) :
    JsonText.size (JsonText.string path) ≤ 6146 := by
  have hlength := isRelativePath_length h
  have hsize := JsonText.size_string_le path
  omega

lemma size_safeInteger_le (h : offset ≤ maxSafeInteger) : JsonText.size (JsonText.number offset) ≤ 16 :=
  JsonText.size_number_le (by decide) (Nat.lt_of_le_of_lt h (by decide))

/-- The text of a chunk. -/
lemma size_chunk_le {chunk : List UInt8} (h : chunk.length ≤ maxFileChunkBytes) :
    JsonText.size (JsonText.string (Utf16.encode (Base64.encode chunk))) ≤ 349530 := by
  have hbare : ∀ c ∈ Base64.encode chunk, JsonText.isBare c = true := by
    have hdigit : ∀ n < 64, JsonText.isBare (Base64.digit n) = true := by decide
    intro c hc
    rcases Base64.mem_encode hc with rfl | ⟨n, hn, rfl⟩
    · decide
    · exact hdigit n hn
  have hmax : maxFileChunkBytes = 262144 := rfl
  rw [JsonText.size_string_of_bare hbare, Base64.length_encode]
  omega

/-- A field with a short key that needs no escape. -/
lemma size_shortField {key : String} {value : List Char} {n : ℕ} (hvalue : JsonText.size value ≤ n)
    (hbare : key.toList.all JsonText.isBare = true) (hlength : key.toList.length ≤ 20) :
    JsonText.size (jsonField key value) ≤ n + 23 := by
  have hfield := size_jsonField hbare value
  omega

lemma frame_readRequest (haccepted : isRelativePath path = true) (hoffset : offset ≤ maxSafeInteger) :
    ∃ frame, encodeGuestFrame (requestText id (readRequest path offset).operation
      (readRequest path offset).fields) = some frame := by
  have hsize := size_requestText_le id (by decide : "fs.read".toList.all JsonText.isBare = true)
    (readRequest path offset).fields
  have hpath := size_shortField (size_path_le haccepted) (by decide : "path".toList.all _ = true)
    (by decide)
  have hoffsetField := size_shortField (size_safeInteger_le hoffset)
    (by decide : "offset".toList.all _ = true) (by decide)
  have hlimit := size_shortField (size_safeInteger_le (by decide : maxFileChunkBytes ≤ maxSafeInteger))
    (by decide : "maxBytes".toList.all _ = true) (by decide)
  have hname : "fs.read".toList.length = 7 := by decide
  have hmax : maxGuestFrameBytes = 393216 := rfl
  simp only [readRequest, List.map_cons, List.map_nil, List.sum_cons, List.sum_nil,
    List.length_cons, List.length_nil] at hsize
  refine encodeGuestFrame_fits ?_
  simp only [readRequest]
  omega

lemma frame_writeRequest (quota : WorkspaceFiles.Quota) (pwrites : List ℕ) {chunk : List UInt8} (truncate : Bool)
    (haccepted : isRelativePath path = true) (hoffset : offset ≤ maxSafeInteger)
    (hchunk : chunk.length ≤ maxFileChunkBytes) :
    ∃ frame, encodeGuestFrame (requestText id
      (writeRequest quota pwrites path offset (Base64.encode chunk) truncate).operation
      (writeRequest quota pwrites path offset (Base64.encode chunk) truncate).fields) = some frame := by
  have hsize := size_requestText_le id (by decide : "fs.write".toList.all JsonText.isBare = true)
    (writeRequest quota pwrites path offset (Base64.encode chunk) truncate).fields
  have hpath := size_shortField (size_path_le haccepted) (by decide : "path".toList.all _ = true)
    (by decide)
  have hoffsetField := size_shortField (size_safeInteger_le hoffset)
    (by decide : "offset".toList.all _ = true) (by decide)
  have hdata := size_shortField (size_chunk_le hchunk) (by decide : "data".toList.all _ = true) (by decide)
  have htruncate := size_shortField (JsonText.size_bool_le truncate)
    (by decide : "truncate".toList.all _ = true) (by decide)
  have hname : "fs.write".toList.length = 8 := by decide
  have hmax : maxGuestFrameBytes = 393216 := rfl
  simp only [writeRequest, List.map_cons, List.map_nil, List.sum_cons, List.sum_nil,
    List.length_cons, List.length_nil] at hsize
  refine encodeGuestFrame_fits ?_
  simp only [writeRequest]
  omega

lemma frame_readReply {reply : WorkspaceFiles.ReadReply} {chunk : List UInt8}
    (haccepted : isRelativePath (Utf16.encode reply.path.toList) = true)
    (hdata : reply.data = Base64.encode chunk) (hchunk : chunk.length ≤ maxFileChunkBytes)
    (hoffset : reply.offset ≤ maxSafeInteger) (hnext : reply.nextOffset ≤ maxSafeInteger)
    (hlength : reply.size ≤ maxSafeInteger) :
    ∃ frame, encodeGuestFrame (responseText id ((readRequest path offset).result reply)) =
      some frame := by
  have hsize := size_responseText_le id ((readRequest path offset).result reply)
  have hdataField := size_shortField (hdata ▸ size_chunk_le hchunk)
    (by decide : "data".toList.all _ = true) (by decide)
  have heof := size_shortField (JsonText.size_bool_le reply.eof) (by decide : "eof".toList.all _ = true)
    (by decide)
  have hnextField := size_shortField (size_safeInteger_le hnext)
    (by decide : "nextOffset".toList.all _ = true) (by decide)
  have hoffsetField := size_shortField (size_safeInteger_le hoffset)
    (by decide : "offset".toList.all _ = true) (by decide)
  have hpath := size_shortField (size_path_le haccepted) (by decide : "path".toList.all _ = true)
    (by decide)
  have hlengthField := size_shortField (size_safeInteger_le hlength)
    (by decide : "size".toList.all _ = true) (by decide)
  have hmax : maxGuestFrameBytes = 393216 := rfl
  simp only [readRequest, List.map_cons, List.map_nil, List.sum_cons, List.sum_nil,
    List.length_cons, List.length_nil, jsonString] at hsize
  refine encodeGuestFrame_fits ?_
  simp only [readRequest, jsonString]
  omega

lemma frame_writeReply (quota : WorkspaceFiles.Quota) {pwrites : List ℕ} {data : List Char} {truncate : Bool}
    {reply : WorkspaceFiles.WriteReply}
    (haccepted : isRelativePath (Utf16.encode reply.path.toList) = true)
    (hlength : reply.size ≤ maxSafeInteger) (hnext : reply.nextOffset ≤ maxSafeInteger)
    (hpos : 0 ≤ reply.usedBytes) (hused : reply.usedBytes ≤ maxSafeInteger)
    (hquota : reply.quotaBytes ≤ maxSafeInteger) :
    ∃ frame, encodeGuestFrame (responseText id
      ((writeRequest quota pwrites path offset data truncate).result reply)) = some frame := by
  have hsize := size_responseText_le id ((writeRequest quota pwrites path offset data truncate).result reply)
  have hnextField := size_shortField (size_safeInteger_le hnext)
    (by decide : "nextOffset".toList.all _ = true) (by decide)
  have hpath := size_shortField (size_path_le haccepted) (by decide : "path".toList.all _ = true)
    (by decide)
  have hquotaField := size_shortField (size_safeInteger_le hquota)
    (by decide : "quotaBytes".toList.all _ = true) (by decide)
  have hlengthField := size_shortField (size_safeInteger_le hlength)
    (by decide : "size".toList.all _ = true) (by decide)
  have husedField := size_shortField (size_safeInteger_le (by omega : reply.usedBytes.natAbs ≤ _))
    (by decide : "usedBytes".toList.all _ = true) (by decide)
  have hmax : maxGuestFrameBytes = 393216 := rfl
  simp only [writeRequest, List.map_cons, List.map_nil, List.sum_cons, List.sum_nil,
    List.length_cons, List.length_nil, jsonString, JsonText.integer_of_nonneg hpos] at hsize
  refine encodeGuestFrame_fits ?_
  simp only [writeRequest, jsonString, JsonText.integer_of_nonneg hpos]
  omega

end Frames

/-! ### Replies -/

section Replies

variable {path : JsText} {text : List Char} {offset : ℕ} {id : RequestId} {t t' : WorkspaceTree}
  {contents chunk : List UInt8} {quota : WorkspaceFiles.Quota} {truncate : Bool} {used : ℕ}
  {pwrites : List ℕ}

/-- The reply to the read of a chunk. -/
lemma send_readRequest (id : RequestId) (h : Addresses path text)
    (hlength : 2 ≤ (components text).length)
    (hnode : t.node (components text) = some (.file contents))
    (hsize : contents.length ≤ maxReadBytes) (hoffset : offset ≤ contents.length) :
    (readRequest path offset).send id t =
      (.ok (readReply (guestParts text) contents offset maxFileChunkBytes), t) := by
  have hmax : maxReadBytes = WorkspaceFiles.maxFileBytes := rfl
  have hsafe : maxReadBytes ≤ maxSafeInteger := by decide
  have hlimit : validateInteger (.number (some maxFileChunkBytes)) 1
      WorkspaceFiles.maxFileChunkBytes "file read size" = .ok (maxFileChunkBytes : ℤ) := by
    decide +kernel
  have hread := gives_read h.validate (WorkspaceFiles.validateOffset (by omega)) hlimit
    (by rw [length_guestParts]; exact hlength) (by rw [map_fileName_guestParts]; exact hnode) hsize
    hoffset
  have hvalid : (readRequest path offset).valid = true := by
    simp only [readRequest, h.accepted, Bool.true_and, decide_eq_true_eq]
    omega
  have htaken : ((contents.drop offset).take maxFileChunkBytes).length ≤
      contents.length - offset := by
    rw [List.length_take, List.length_drop]
    exact Nat.min_le_right _ _
  rw [send_eq hvalid (frame_readRequest h.accepted (by omega)) h.decoded hread,
    receiveResponse_ok (frame_readReply ?_ rfl (List.length_take_le _ _) ?_ ?_ ?_)]
  · show isRelativePath (Utf16.encode (joinParts (guestParts text)).toList) = true
    rw [joinParts_guestParts, h.encode_text]
    exact h.accepted
  · show offset ≤ _
    omega
  · show offset + _ ≤ _
    omega
  · show contents.length ≤ _
    omega

lemma isBase64Chunk_encode (h : chunk.length ≤ maxFileChunkBytes) :
    isBase64Chunk (Base64.encode chunk) = true := by
  have hmax : maxFileChunkBytes = 262144 := rfl
  simp only [isBase64Chunk, Base64.decode_encode, Base64.isBase64_encode, Base64.length_encode,
    Bool.and_eq_true, decide_eq_true_eq]
  refine ⟨⟨⟨?_, trivial⟩, trivial⟩, h⟩
  omega

lemma valid_writeRequest (haccepted : isRelativePath path = true) (hoffset : offset ≤ maxSafeInteger)
    (hchunk : chunk.length ≤ maxFileChunkBytes) :
    (writeRequest quota pwrites path offset (Base64.encode chunk) truncate).valid = true := by
  simp only [writeRequest, haccepted, isBase64Chunk_encode hchunk, Bool.true_and, Bool.and_true,
    decide_eq_true_eq]
  exact hoffset

/-- The fields of the write of a chunk. -/
def chunkFields (text : List Char) (offset : ℕ) (chunk : List UInt8) (truncate : Bool) :
    WorkspaceFiles.WriteFields :=
  ⟨guestParts text, offset, chunk, truncate⟩

lemma writeFields_chunk (h : Addresses path text) (hchunk : chunk.length ≤ maxFileChunkBytes)
    (hsize : offset + chunk.length ≤ maxReadBytes) (htruncate : truncate = true → offset = 0) :
    WorkspaceFiles.writeFields (.string (String.ofList text)) (.number (some offset))
      (.string (String.ofList (Base64.encode chunk))) (.bool truncate) =
        .ok (chunkFields text offset chunk truncate) :=
  WorkspaceFiles.writeFields_encode h.validate hchunk hsize htruncate

/-- A path that the guest cannot take is refused and changes nothing. -/
lemma send_writeRequest_unaddressed (hno : ∀ text, ¬ Addresses path text)
    (hoffset : offset ≤ maxSafeInteger) (hchunk : chunk.length ≤ maxFileChunkBytes) :
    ∃ failure, (writeRequest quota pwrites path offset (Base64.encode chunk) truncate).send id t =
      (.error failure, t) := by
  cases haccepted : isRelativePath path with
  | false =>
    refine ⟨_, send_invalid ?_⟩
    simp only [writeRequest, haccepted, Bool.false_and]
  | true =>
    cases hdecoded : Utf16.decode path with
    | none => exact send_no_text hdecoded
    | some text =>
      have hlong : ¬(Utf8.encode text).length ≤ 1024 := fun hbytes =>
        hno text ⟨haccepted, hdecoded, hbytes⟩
      have hfields : ∃ e, WorkspaceFiles.writeFields (.string (String.ofList text))
          (.number (some offset)) (.string (String.ofList (Base64.encode chunk)))
          (.bool truncate) = .error e := by
        cases hresult : WorkspaceFiles.writeFields (.string (String.ofList text))
            (.number (some offset)) (.string (String.ofList (Base64.encode chunk)))
            (.bool truncate) with
        | error e => exact ⟨e, rfl⟩
        | ok r =>
          obtain ⟨s, hs, hpath, -⟩ := validateRelativePath_ok (WorkspaceFiles.writeFields_parts hresult)
          obtain rfl := Option.some.inj hs
          have hle := hpath.length_le
          rw [utf8ByteSize_ofList] at hle
          exact absurd hle hlong
      obtain ⟨e, he⟩ := hfields
      exact ⟨_, send_eq (valid_writeRequest haccepted hoffset hchunk)
        (frame_writeRequest quota pwrites truncate haccepted hoffset hchunk) hdecoded
        (gives_write_invalid he)⟩

/-- A request that reaches the guest. -/
lemma send_writeRequest {result : Except Halt WorkspaceFiles.WriteReply} {locked : Bool}
    (h : Addresses path text) (hchunk : chunk.length ≤ maxFileChunkBytes)
    (hsize : offset + chunk.length ≤ maxReadBytes)
    (hgives : Ends Kernel.shown (t, false) (WorkspaceFiles.write quota pwrites
      (.string (String.ofList text)) (.number (some offset))
      (.string (String.ofList (Base64.encode chunk))) (.bool truncate)) result (t', locked)) :
    (writeRequest quota pwrites path offset (Base64.encode chunk) truncate).send id t =
      (receiveResponse id (writeRequest quota pwrites path offset (Base64.encode chunk) truncate).result
        result, t') := by
  have hsafe : maxReadBytes ≤ maxSafeInteger := by decide
  exact send_eq (valid_writeRequest h.accepted (by omega) hchunk)
    (frame_writeRequest quota pwrites truncate h.accepted (by omega) hchunk) h.decoded hgives

/-- A path that does not lead to a regular file is refused, and what is there stays. -/
lemma send_writeRequest_unwritable (h : Addresses path text)
    (hchunk : chunk.length ≤ maxFileChunkBytes) (hsize : offset + chunk.length ≤ maxReadBytes)
    (htruncate : truncate = true → offset = 0) (hwritable : ¬ t.Writable (components text)) :
    ∃ failure t', (writeRequest quota pwrites path offset (Base64.encode chunk) truncate).send id t =
      (.error failure, t') ∧ t'.node (components text) = t.node (components text) := by
  rw [← map_fileName_guestParts] at hwritable ⊢
  obtain ⟨t', -, hnode, ⟨e, hgives⟩ | ⟨hgives, -⟩⟩ :=
    gives_write_unwritable quota pwrites (writeFields_chunk h hchunk hsize htruncate) hwritable
  · exact ⟨_, t', send_writeRequest h hchunk hsize hgives, hnode⟩
  · exact ⟨_, t', send_writeRequest h hchunk hsize hgives, hnode⟩

/-- A write whose accounting fails, or goes beyond the quota, opens its target and no more. -/
lemma send_writeRequest_refused (h : Addresses path text) (hchunk : chunk.length ≤ maxFileChunkBytes)
    (hsize : offset + chunk.length ≤ maxReadBytes) (htruncate : truncate = true → offset = 0)
    (hwritable : t.Writable (components text))
    (hrefused : ∀ used, (t.prepared (components text)).usedBytes = .ok used →
      (quota.bytes : ℤ) < (chunkFields text offset chunk truncate).accounted used
        (t.contentsAt (components text)).length) :
    ∃ failure, (writeRequest quota pwrites path offset (Base64.encode chunk) truncate).send id t =
      (.error failure, t.prepared (components text)) := by
  rw [← map_fileName_guestParts] at hwritable hrefused ⊢
  have hfields := writeFields_chunk h hchunk hsize htruncate
  have hnode := hwritable.node_prepared
  cases hused : (t.prepared ((guestParts text).map WorkspaceFiles.fileName)).usedBytes with
  | error e =>
    obtain rfl := usedBytes_error hused
    exact ⟨_, send_writeRequest h hchunk hsize
      (gives_write hfields hwritable (gives_writeChunk_unaccounted hnode hused) (by simp))⟩
  | ok used =>
    exact ⟨_, send_writeRequest h hchunk hsize
      (gives_write hfields hwritable (gives_writeChunk_refused hnode hused (hrefused used hused)) (by simp))⟩

/-- A write of which a call fails leaves what the calls before it have written. -/
lemma send_writeRequest_failed (h : Addresses path text)
    (hchunk : chunk.length ≤ maxFileChunkBytes)
    (hsize : offset + chunk.length ≤ maxReadBytes) (htruncate : truncate = true → offset = 0)
    (hwritable : t.Writable (components text))
    (hused : (t.prepared (components text)).usedBytes = .ok used)
    (hquota : (chunkFields text offset chunk truncate).accounted used
      (t.contentsAt (components text)).length ≤ quota.bytes)
    (hfailed : ¬Completes pwrites chunk.length) :
    ∃ failure, (writeRequest quota pwrites path offset (Base64.encode chunk) truncate).send id t =
      (.error failure, (t.prepared (components text)).setContents (components text)
        ((chunkFields text offset chunk truncate).partly pwrites (t.contentsAt (components text)))) := by
  rw [← map_fileName_guestParts] at hwritable hused hquota ⊢
  exact ⟨_, send_writeRequest h hchunk hsize (gives_write (writeFields_chunk h hchunk hsize htruncate)
    hwritable (gives_writeChunk_failed hwritable.node_prepared hused hquota hfailed) (by simp))⟩

/-- A write that is carried out. -/
lemma send_writeRequest_granted (id : RequestId) (h : Addresses path text)
    (hchunk : chunk.length ≤ maxFileChunkBytes)
    (hsize : offset + chunk.length ≤ maxReadBytes) (htruncate : truncate = true → offset = 0)
    (hwritable : t.Writable (components text))
    (hused : (t.prepared (components text)).usedBytes = .ok used)
    (hquota : (chunkFields text offset chunk truncate).accounted used
      (t.contentsAt (components text)).length ≤ quota.bytes)
    (hdone : Completes pwrites chunk.length) :
    (writeRequest quota pwrites path offset (Base64.encode chunk) truncate).send id t =
      (receiveResponse id (writeRequest quota pwrites path offset (Base64.encode chunk) truncate).result
        (.ok ((chunkFields text offset chunk truncate).reply quota used
          (t.contentsAt (components text)))),
        (t.prepared (components text)).setContents (components text)
          ((chunkFields text offset chunk truncate).written (t.contentsAt (components text)))) := by
  rw [← map_fileName_guestParts] at hwritable hused hquota ⊢
  exact send_writeRequest h hchunk hsize (gives_write (writeFields_chunk h hchunk hsize htruncate)
    hwritable (gives_writeChunk_ok hwritable.node_prepared hused hquota hdone) (by simp))

end Replies

end Bloom
