import BloomWorkspaces.Library.Base64
import Mathlib.Algebra.Group.Nat.Defs
import Mathlib.Data.List.Basic
import Mathlib.Order.Basic

/-!
# Reading a file from the guest

`GuestWorkspace.read` asks the guest for one chunk after the other until a reply says `eof`. The guest
is not trusted, so the replies to the successive requests are an arbitrary stream.
-/

namespace Bloom

def maxSafeInteger : ℕ := 2 ^ 53 - 1

def maxFileChunkBytes : ℕ := 256 * 1024

/-- The largest `size` that the schema of a reply lets through. -/
def maxReadBytes : ℕ := 8 * 1024 * 1024

structure RuntimeDataError where
  message : String
  status : ℕ
  deriving DecidableEq, Repr

/-- A reply to `fs.read` that passes the schema `ReadChunk`. -/
structure ReadChunk where
  path : String
  offset : ℕ
  nextOffset : ℕ
  size : ℕ
  eof : Bool
  data : List Char
  offset_le : offset ≤ maxSafeInteger
  nextOffset_le : nextOffset ≤ maxSafeInteger
  size_le : size ≤ maxReadBytes

/-- What ends a read early: a `RuntimeDataError`, or the error of a reply that fails the schema. -/
inductive ReadFailure
  | data (error : RuntimeDataError)
  | schema
  deriving DecidableEq, Repr

/-- What one turn of the loop gets from `ReadChunk.parse(await this.request(...))`. -/
abbrev ReadReply := Except ReadFailure ReadChunk

def invalidResponse (message : String) : ReadFailure := .data ⟨message, 501⟩

def canonicalBase64 (value : List Char) : Except ReadFailure (List UInt8) :=
  if Base64.isBase64 value = false then .error (invalidResponse "Guest returned invalid base64")
  else if Base64.encode (Base64.decode value) ≠ value then
    .error (invalidResponse "Guest returned non-canonical base64")
  else .ok (Base64.decode value)

/-- `Buffer.concat` with a total length: what is missing is filled with zeros. -/
def bufferConcat (chunks : List (List UInt8)) (totalLength : ℕ) : List UInt8 :=
  chunks.flatten.take totalLength ++ List.replicate (totalLength - chunks.flatten.length) 0

/-- The local variables of `read`. -/
structure Transfer where
  chunks : List (List UInt8)
  offset : ℕ
  expectedSize : Option ℕ
  deriving DecidableEq, Repr

namespace Transfer

def start : Transfer := ⟨[], 0, none⟩

/-- The bytes that the chunks of a transfer hold in memory. -/
def accumulated (t : Transfer) : ℕ := t.chunks.flatten.length

def push (t : Transfer) (result : ReadChunk) (chunk : List UInt8) : Transfer :=
  { chunks := t.chunks ++ [chunk], offset := result.nextOffset, expectedSize := some result.size }

/-- The turn of the loop after the chunk has been pushed. -/
def finish (t : Transfer) (result : ReadChunk) (chunk : List UInt8) :
    Option (Except ReadFailure (List UInt8)) :=
  if result.eof then
    if t.offset ≠ result.size then
      some (.error (invalidResponse "Guest ended the file response early"))
    else some (.ok (bufferConcat t.chunks t.offset))
  else if chunk.length = 0 then
    some (.error (invalidResponse "Guest file transfer made no progress"))
  else none

/-- One turn of the loop; it ends the read when it has an outcome. -/
def receive (path : String) (t : Transfer) (reply : ReadReply) :
    Transfer × Option (Except ReadFailure (List UInt8)) :=
  match reply with
  | .error failure => (t, some (.error failure))
  | .ok result =>
    if result.path ≠ path ∨ result.offset ≠ t.offset ∨
        (t.expectedSize ≠ none ∧ some result.size ≠ t.expectedSize) then
      (t, some (.error (invalidResponse "Guest returned an inconsistent file response")))
    else
      match canonicalBase64 result.data with
      | .error failure => ({ t with expectedSize := some result.size }, some (.error failure))
      | .ok chunk =>
        if maxFileChunkBytes < chunk.length ∨ result.nextOffset ≠ t.offset + chunk.length then
          ({ t with expectedSize := some result.size },
            some (.error (invalidResponse "Guest returned an invalid file chunk")))
        else (t.push result chunk, (t.push result chunk).finish result chunk)

end Transfer

/-- The read of `path` after at most `n` requests. -/
def readLoop (path : String) (replies : ℕ → ReadReply) :
    ℕ → Transfer × Option (Except ReadFailure (List UInt8))
  | 0 => (.start, none)
  | n + 1 =>
    match readLoop path replies n with
    | (t, some outcome) => (t, some outcome)
    | (t, none) => t.receive path (replies n)

/-! ### Consistent replies -/

/-- The bytes of a reply. -/
def payload : ReadReply → List UInt8
  | .ok result => Base64.decode result.data
  | .error _ => []

/-- The bytes of the first `n` replies. -/
def received (replies : ℕ → ReadReply) (n : ℕ) : List UInt8 :=
  (List.range n).flatMap fun i => payload (replies i)

/-- `result` continues a transfer of `path` that has come to `offset` and has announced `size`. -/
structure Continues (path : String) (offset : ℕ) (size : Option ℕ) (result : ReadChunk) : Prop where
  path_eq : result.path = path
  offset_eq : result.offset = offset
  size_eq : size = none ∨ size = some result.size
  isBase64 : Base64.isBase64 result.data = true
  canonical : Base64.encode (Base64.decode result.data) = result.data
  length_le : (Base64.decode result.data).length ≤ maxFileChunkBytes
  nextOffset_eq : result.nextOffset = offset + (Base64.decode result.data).length

/-- The replies up to the `n`-th, which is `result`, are one consistent transfer that goes on. -/
inductive Consistent (path : String) (replies : ℕ → ReadReply) : ℕ → ReadChunk → Prop
  | first {result : ReadChunk} (hreply : replies 0 = .ok result)
      (hnew : Continues path 0 none result) : Consistent path replies 0 result
  | next {n : ℕ} {last result : ReadChunk} (hlast : Consistent path replies n last)
      (heof : last.eof = false) (hdata : Base64.decode last.data ≠ [])
      (hreply : replies (n + 1) = .ok result)
      (hnew : Continues path last.nextOffset (some last.size) result) :
      Consistent path replies (n + 1) result

/-- No consistent transfer of the guest reaches beyond the largest size. -/
def WithinLimit (path : String) (replies : ℕ → ReadReply) : Prop :=
  ∀ n result, Consistent path replies n result → result.nextOffset ≤ maxReadBytes

/-- The read stops, stays within the largest size all along, and what it returns is the data of the
replies, with the length that the first of them announced. -/
structure BoundedRead (path : String) (replies : ℕ → ReadReply) : Prop where
  stops : ∃ n ≤ maxReadBytes + 1, (readLoop path replies n).2 ≠ none
  accumulated_le : ∀ n, (readLoop path replies n).1.accumulated ≤ maxReadBytes
  returned : ∀ n contents, (readLoop path replies n).2 = some (.ok contents) →
    ∃ first, replies 0 = .ok first ∧ contents.length = first.size ∧
      ∃ k ≤ n, contents = received replies k

/-! ### One turn of the loop -/

section Turn

variable {path : String} {replies : ℕ → ReadReply} {t : Transfer} {result : ReadChunk} {n : ℕ}

lemma canonicalBase64_ok {value : List Char} {chunk : List UInt8}
    (h : canonicalBase64 value = .ok chunk) :
    Base64.isBase64 value = true ∧ Base64.encode (Base64.decode value) = value ∧
      Base64.decode value = chunk := by
  unfold canonicalBase64 at h
  split_ifs at h with hform hcanon
  cases h
  exact ⟨by simpa using hform, by simpa using hcanon, rfl⟩

namespace Transfer

lemma receive_continues (h : Continues path t.offset t.expectedSize result) :
    t.receive path (.ok result) = (t.push result (Base64.decode result.data),
      (t.push result (Base64.decode result.data)).finish result (Base64.decode result.data)) := by
  have hsame : ¬ (result.path ≠ path ∨ result.offset ≠ t.offset ∨
      (t.expectedSize ≠ none ∧ some result.size ≠ t.expectedSize)) := by
    rintro (hpath | hoffset | ⟨hsome, hsize⟩)
    · exact hpath h.path_eq
    · exact hoffset h.offset_eq
    · cases h.size_eq with
      | inl hnone => exact hsome hnone
      | inr heq => exact hsize heq.symm
  have hchunk : canonicalBase64 result.data = .ok (Base64.decode result.data) := by
    simp [canonicalBase64, h.isBase64, h.canonical]
  have hvalid : ¬ (maxFileChunkBytes < (Base64.decode result.data).length ∨
      result.nextOffset ≠ t.offset + (Base64.decode result.data).length) := by
    rintro (hlength | hnext)
    · exact absurd h.length_le (by omega)
    · exact hnext h.nextOffset_eq
  simp only [receive, if_neg hsame, hchunk, if_neg hvalid]

/-- A reply that does not continue the transfer ends it, and no chunk is kept. -/
lemma receive_cases (path : String) (t : Transfer) (reply : ReadReply) :
    (∃ result, reply = .ok result ∧ Continues path t.offset t.expectedSize result) ∨
      ∃ failure, (t.receive path reply).2 = some (.error failure) ∧
        (t.receive path reply).1.chunks = t.chunks ∧
        (t.receive path reply).1.offset = t.offset := by
  cases reply with
  | error failure => exact Or.inr ⟨failure, rfl, rfl, rfl⟩
  | ok result =>
    simp only [receive]
    split_ifs with hsame
    · exact Or.inr ⟨_, rfl, rfl, rfl⟩
    · cases hchunk : canonicalBase64 result.data with
      | error failure => exact Or.inr ⟨failure, rfl, rfl, rfl⟩
      | ok chunk =>
        obtain ⟨hform, hcanon, rfl⟩ := canonicalBase64_ok hchunk
        dsimp only
        split_ifs with hvalid
        · exact Or.inr ⟨_, rfl, rfl, rfl⟩
        · push Not at hsame hvalid
          refine Or.inl ⟨result, rfl, hsame.1, hsame.2.1, ?_, hform, hcanon, by omega, hvalid.2⟩
          by_cases hnone : t.expectedSize = none
          · exact Or.inl hnone
          · exact Or.inr (hsame.2.2 hnone).symm

lemma accumulated_push (t : Transfer) (result : ReadChunk) (chunk : List UInt8) :
    (t.push result chunk).accumulated = t.accumulated + chunk.length := by
  simp [accumulated, push]

lemma finish_goes_on {chunk : List UInt8} (heof : result.eof = false) (hdata : chunk ≠ []) :
    t.finish result chunk = none := by
  have hlength : chunk.length ≠ 0 := by simpa using hdata
  simp [finish, heof, hlength]

lemma finish_none {chunk : List UInt8} (h : t.finish result chunk = none) :
    result.eof = false ∧ chunk ≠ [] := by
  unfold finish at h
  split_ifs at h with heof hoffset hlength
  exact ⟨by simpa using heof, by simpa using hlength⟩

/-- The total length is that of the chunks, so nothing is cut off or filled in. -/
lemma finish_ok {chunk contents : List UInt8} (htotal : t.accumulated = t.offset)
    (h : t.finish result chunk = some (.ok contents)) :
    contents = t.chunks.flatten ∧ contents.length = result.size := by
  have hconcat : bufferConcat t.chunks t.offset = t.chunks.flatten := by
    rw [bufferConcat, ← htotal, accumulated, List.take_length, Nat.sub_self, List.replicate_zero,
      List.append_nil]
  by_cases heof : result.eof = true
  · by_cases hoffset : t.offset = result.size
    · simp only [finish, if_pos heof, hoffset, ne_eq, not_true_eq_false, if_false] at h
      rw [← hoffset, hconcat] at h
      cases h
      exact ⟨rfl, htotal.trans hoffset⟩
    · simp [finish, heof, hoffset] at h
  · by_cases hlength : chunk.length = 0
    · simp [finish, heof, hlength] at h
    · simp [finish, heof, hlength] at h

end Transfer

lemma received_succ (replies : ℕ → ReadReply) (n : ℕ) :
    received replies (n + 1) = received replies n ++ payload (replies n) := by
  simp [received, List.range_succ]

lemma readLoop_succ (h : readLoop path replies n = (t, none)) :
    readLoop path replies (n + 1) = t.receive path (replies n) := by
  simp [readLoop, h]

lemma readLoop_stopped {outcome : Except ReadFailure (List UInt8)}
    (h : readLoop path replies n = (t, some outcome)) :
    readLoop path replies (n + 1) = (t, some outcome) := by
  simp [readLoop, h]

/-! ### The loop follows the consistent replies -/

/-- All replies of a consistent transfer announce the size of the first. -/
lemma Consistent.size_eq (h : Consistent path replies n result) :
    ∃ first, replies 0 = .ok first ∧ first.size = result.size := by
  induction h with
  | first hreply hnew => exact ⟨_, hreply, rfl⟩
  | next hlast heof hdata hreply hnew ih =>
    obtain ⟨first, hfirst, hsize⟩ := ih
    refine ⟨first, hfirst, ?_⟩
    cases hnew.size_eq with
    | inl hnone => cases hnone
    | inr heq =>
      rw [hsize]
      exact Option.some.inj heq

/-- The loop is still running when the replies before have been consistent. -/
lemma Consistent.reached (h : Consistent path replies n result) :
    ∃ t, readLoop path replies n = (t, none) ∧ replies n = .ok result ∧
      Continues path t.offset t.expectedSize result := by
  induction h with
  | first hreply hnew => exact ⟨.start, rfl, hreply, hnew⟩
  | @next n last result hlast heof hdata hreply hnew ih =>
    obtain ⟨t, hloop, hlastReply, hcont⟩ := ih
    refine ⟨t.push last (Base64.decode last.data), ?_, hreply, hnew⟩
    rw [readLoop_succ hloop, hlastReply, Transfer.receive_continues hcont,
      Transfer.finish_goes_on heof hdata]

lemma Consistent.pushed (h : Consistent path replies n result) :
    (readLoop path replies (n + 1)).1.offset = result.nextOffset := by
  obtain ⟨t, hloop, hreply, hnew⟩ := h.reached
  rw [readLoop_succ hloop, hreply, Transfer.receive_continues hnew]
  rfl

/-- The state of a loop that is still running after `n` requests. -/
def Going (path : String) (replies : ℕ → ReadReply) : ℕ → Transfer → Prop
  | 0, t => t = .start
  | n + 1, t => ∃ last, Consistent path replies n last ∧ last.eof = false ∧
      Base64.decode last.data ≠ [] ∧ t.offset = last.nextOffset ∧ t.expectedSize = some last.size

lemma Going.consistent (h : Going path replies n t) (hreply : replies n = .ok result)
    (hnew : Continues path t.offset t.expectedSize result) :
    Consistent path replies n result := by
  cases n with
  | zero =>
    have hstart : t = .start := h
    subst hstart
    exact .first hreply hnew
  | succ n =>
    obtain ⟨last, hlast, heof, hdata, hoffset, hsize⟩ := h
    rw [hoffset, hsize] at hnew
    exact .next hlast heof hdata hreply hnew

/-- What is known of the loop after `n` requests. While it runs every request has brought a byte. -/
structure Progress (path : String) (replies : ℕ → ReadReply) (n : ℕ)
    (s : Transfer × Option (Except ReadFailure (List UInt8))) : Prop where
  total : s.1.accumulated = s.1.offset
  offset_le : WithinLimit path replies → s.1.offset ≤ maxReadBytes
  running : s.2 = none →
    Going path replies n s.1 ∧ s.1.chunks.flatten = received replies n ∧ n ≤ s.1.offset
  returned : ∀ contents, s.2 = some (.ok contents) → ∃ m < n, ∃ result,
    Consistent path replies m result ∧ contents = received replies (m + 1) ∧
      contents.length = result.size

lemma Progress.start (path : String) (replies : ℕ → ReadReply) :
    Progress path replies 0 (.start, none) where
  total := rfl
  offset_le _ := Nat.zero_le _
  running _ := ⟨rfl, rfl, Nat.zero_le _⟩
  returned contents h := by cases h

lemma Progress.stay {outcome : Except ReadFailure (List UInt8)}
    (h : Progress path replies n (t, some outcome)) :
    Progress path replies (n + 1) (t, some outcome) where
  total := h.total
  offset_le := h.offset_le
  running hnone := by cases hnone
  returned contents hok := by
    obtain ⟨m, hm, hrest⟩ := h.returned contents hok
    exact ⟨m, Nat.lt_succ_of_lt hm, hrest⟩

/-- A reply that continues the transfer. -/
lemma Progress.push (h : Progress path replies n (t, none)) (hreply : replies n = .ok result)
    (hnew : Continues path t.offset t.expectedSize result) :
    Progress path replies (n + 1) (t.receive path (replies n)) := by
  obtain ⟨hgoing, hflat, hn⟩ := h.running rfl
  have hcons : Consistent path replies n result := hgoing.consistent hreply hnew
  have htotal : (t.push result (Base64.decode result.data)).accumulated = result.nextOffset := by
    rw [Transfer.accumulated_push, h.total, hnew.nextOffset_eq]
  have hdata : (t.push result (Base64.decode result.data)).chunks.flatten =
      received replies (n + 1) := by
    rw [received_succ, hreply, ← hflat]
    simp [Transfer.push, payload]
  rw [hreply, Transfer.receive_continues hnew]
  refine ⟨htotal, fun hlimit => hlimit n result hcons, ?_, ?_⟩
  · intro hnone
    obtain ⟨heof, hbytes⟩ := Transfer.finish_none hnone
    refine ⟨⟨result, hcons, heof, hbytes, rfl, rfl⟩, hdata, ?_⟩
    have hpos : 0 < (Base64.decode result.data).length := List.length_pos_iff.mpr hbytes
    show n + 1 ≤ result.nextOffset
    rw [hnew.nextOffset_eq]
    have hle : n ≤ t.offset := hn
    omega
  · intro contents hok
    obtain ⟨hcontents, hlength⟩ := Transfer.finish_ok htotal hok
    exact ⟨n, Nat.lt_succ_self n, result, hcons, hcontents.trans hdata, hlength⟩

lemma Progress.receive (h : Progress path replies n (t, none)) :
    Progress path replies (n + 1) (t.receive path (replies n)) := by
  cases Transfer.receive_cases path t (replies n) with
  | inl hcont =>
    obtain ⟨result, hreply, hnew⟩ := hcont
    exact h.push hreply hnew
  | inr hend =>
    obtain ⟨failure, houtcome, hchunks, hoffset⟩ := hend
    refine ⟨?_, ?_, ?_, ?_⟩
    · rw [Transfer.accumulated, hchunks, hoffset]
      exact h.total
    · intro hlimit
      rw [hoffset]
      exact h.offset_le hlimit
    · intro hnone
      rw [houtcome] at hnone
      cases hnone
    · intro contents hok
      rw [houtcome] at hok
      cases hok

lemma readLoop_progress (path : String) (replies : ℕ → ReadReply) (n : ℕ) :
    Progress path replies n (readLoop path replies n) := by
  induction n with
  | zero => exact Progress.start path replies
  | succ n ih =>
    cases hloop : readLoop path replies n with
    | mk t outcome =>
      rw [hloop] at ih
      cases outcome with
      | none =>
        rw [readLoop_succ hloop]
        exact ih.receive
      | some outcome =>
        rw [readLoop_stopped hloop]
        exact ih.stay

lemma BoundedRead.nextOffset_le (h : BoundedRead path replies)
    (hcons : Consistent path replies n result) : result.nextOffset ≤ maxReadBytes := by
  have hle := h.accumulated_le (n + 1)
  rw [(readLoop_progress path replies (n + 1)).total, hcons.pushed] at hle
  exact hle

end Turn

/-- A read is bounded exactly when no consistent reply of the guest reaches beyond the largest size. -/
theorem boundedRead_iff (path : String) (replies : ℕ → ReadReply) :
    BoundedRead path replies ↔ WithinLimit path replies := by
  constructor
  · intro h n result hcons
    exact h.nextOffset_le hcons
  · intro hlimit
    refine ⟨⟨maxReadBytes + 1, Nat.le_refl _, ?_⟩, ?_, ?_⟩
    · intro hnone
      have hprogress := readLoop_progress path replies (maxReadBytes + 1)
      obtain ⟨-, -, hn⟩ := hprogress.running hnone
      exact absurd (hprogress.offset_le hlimit) (by omega)
    · intro n
      have hprogress := readLoop_progress path replies n
      rw [hprogress.total]
      exact hprogress.offset_le hlimit
    · intro n contents hok
      obtain ⟨m, hm, result, hcons, hcontents, hlength⟩ :=
        (readLoop_progress path replies n).returned contents hok
      obtain ⟨first, hfirst, hsize⟩ := hcons.size_eq
      exact ⟨first, hfirst, hlength.trans hsize.symm, m + 1, hm, hcontents⟩

/-! ### A guest that goes on forever -/

/-- A guest that announces an empty file and answers every request with one more byte. -/
def endlessGuest (n : ℕ) : ReadReply :=
  if h : n + 1 ≤ maxSafeInteger then
    .ok ⟨"file", n, n + 1, 0, false, ['A', 'A', '=', '='], by omega, h, Nat.zero_le _⟩
  else .error .schema

lemma endlessGuest_consistent (n : ℕ) (h : n + 1 ≤ maxSafeInteger) :
    ∃ result, Consistent "file" endlessGuest n result ∧ result.eof = false ∧
      Base64.decode result.data ≠ [] ∧ result.nextOffset = n + 1 ∧ result.size = 0 := by
  have hone : Base64.decode ['A', 'A', '=', '='] = [0] := rfl
  induction n with
  | zero =>
    refine ⟨_, .first (dif_pos h) ⟨rfl, rfl, Or.inl rfl, rfl, rfl, ?_, rfl⟩, rfl, ?_, rfl, rfl⟩
    · rw [hone]
      decide
    · rw [hone]
      exact List.cons_ne_nil _ _
  | succ n ih =>
    obtain ⟨last, hlast, heof, hdata, hnext, hsize⟩ := ih (by omega)
    refine ⟨_, .next hlast heof hdata (dif_pos h) ⟨rfl, hnext.symm, Or.inr ?_, rfl, rfl, ?_, ?_⟩,
      rfl, ?_, rfl, rfl⟩
    · rw [hsize]
    · rw [hone]
      decide
    · rw [hnext]
      rfl
    · rw [hone]
      exact List.cons_ne_nil _ _

theorem not_boundedRead_endlessGuest : ¬ BoundedRead "file" endlessGuest := by
  intro h
  obtain ⟨result, hcons, -, -, hnext, -⟩ :=
    endlessGuest_consistent maxReadBytes (by decide)
  have hle := h.nextOffset_le hcons
  omega

/-! ### A guest that serves a file -/

/-- The `n`-th chunk of a file. -/
def fileChunk (file : List UInt8) (n : ℕ) : List UInt8 :=
  (file.drop (n * maxFileChunkBytes)).take maxFileChunkBytes

lemma min_length_le {file : List UInt8} (offset : ℕ) (h : file.length ≤ maxReadBytes) :
    min offset file.length ≤ maxSafeInteger := by
  have hsafe : maxReadBytes ≤ maxSafeInteger := by decide
  omega

/-- The `n`-th reply of a guest that serves `file`. -/
def honestChunk (path : String) (file : List UInt8) (h : file.length ≤ maxReadBytes) (n : ℕ) :
    ReadChunk where
  path := path
  offset := min (n * maxFileChunkBytes) file.length
  nextOffset := min ((n + 1) * maxFileChunkBytes) file.length
  size := file.length
  eof := file.length ≤ (n + 1) * maxFileChunkBytes
  data := Base64.encode (fileChunk file n)
  offset_le := min_length_le _ h
  nextOffset_le := min_length_le _ h
  size_le := h

def honestGuest (path : String) (file : List UInt8) (h : file.length ≤ maxReadBytes) (n : ℕ) :
    ReadReply :=
  .ok (honestChunk path file h n)

section HonestGuest

variable {path : String} {file : List UInt8} {n : ℕ} (h : file.length ≤ maxReadBytes)

lemma length_fileChunk (file : List UInt8) (n : ℕ) :
    (fileChunk file n).length = min maxFileChunkBytes (file.length - n * maxFileChunkBytes) := by
  rw [fileChunk, List.length_take, List.length_drop]

lemma received_honestGuest (n : ℕ) :
    received (honestGuest path file h) n = file.take (n * maxFileChunkBytes) := by
  induction n with
  | zero => simp [received]
  | succ n ih =>
    have hpayload : payload (honestGuest path file h n) = fileChunk file n :=
      Base64.decode_encode _
    rw [received_succ, ih, hpayload, fileChunk, Nat.succ_mul, List.take_add]

/-- The chunk continues a transfer that has come to its offset. -/
lemma honestChunk_continues {size : Option ℕ} (hoffset : n * maxFileChunkBytes ≤ file.length)
    (hsize : size = none ∨ size = some file.length) :
    Continues path (n * maxFileChunkBytes) size (honestChunk path file h n) := by
  have hdata : Base64.decode (honestChunk path file h n).data = fileChunk file n :=
    Base64.decode_encode _
  refine ⟨rfl, Nat.min_eq_left hoffset, hsize, Base64.isBase64_encode _, ?_, ?_, ?_⟩
  · rw [hdata]
    rfl
  · rw [hdata, length_fileChunk]
    exact Nat.min_le_left _ _
  · rw [hdata, length_fileChunk]
    show min ((n + 1) * maxFileChunkBytes) file.length = _
    rw [Nat.succ_mul]
    omega

lemma honestGuest_consistent (hn : n * maxFileChunkBytes < file.length ∨ n = 0) :
    Consistent path (honestGuest path file h) n (honestChunk path file h n) := by
  induction n with
  | zero =>
    refine .first rfl ?_
    have hcont : Continues path (0 * maxFileChunkBytes) none (honestChunk path file h 0) :=
      honestChunk_continues h (by omega) (Or.inl rfl)
    rw [Nat.zero_mul] at hcont
    exact hcont
  | succ n ih =>
    have hlt : (n + 1) * maxFileChunkBytes < file.length := by
      cases hn with
      | inl hlt => exact hlt
      | inr hzero => cases hzero
    have hprev : n * maxFileChunkBytes < file.length := by
      rw [Nat.succ_mul] at hlt
      omega
    have hnext : (honestChunk path file h n).nextOffset = (n + 1) * maxFileChunkBytes :=
      Nat.min_eq_left (by omega)
    have hdata : Base64.decode (honestChunk path file h n).data = fileChunk file n :=
      Base64.decode_encode _
    refine .next (ih (Or.inl hprev)) ?_ ?_ rfl ?_
    · exact decide_eq_false (by omega)
    · rw [hdata]
      intro hnil
      have hlength := length_fileChunk file n
      rw [hnil, List.length_nil] at hlength
      have hpos : 0 < maxFileChunkBytes := by decide
      omega
    · rw [hnext]
      exact honestChunk_continues h (by omega) (Or.inr rfl)

/-- Each file has a last chunk. -/
lemma exists_last_chunk (file : List UInt8) :
    ∃ n, (n = 0 ∨ n * maxFileChunkBytes < file.length) ∧
      file.length ≤ (n + 1) * maxFileChunkBytes := by
  have hpos : 0 < maxFileChunkBytes := by decide
  refine ⟨(file.length - 1) / maxFileChunkBytes, ?_, ?_⟩
  · by_cases hempty : file.length = 0
    · left
      rw [hempty]
      exact Nat.zero_div _
    · right
      have hle := Nat.div_mul_le_self (file.length - 1) maxFileChunkBytes
      omega
  · have hlt := Nat.lt_div_mul_add (a := file.length - 1) hpos
    rw [Nat.succ_mul]
    omega

/-- A file of at most the largest size is read as it is. -/
theorem readLoop_honestGuest :
    ∃ n, (readLoop path (honestGuest path file h) n).2 = some (.ok file) := by
  obtain ⟨n, hn, hlast⟩ := exists_last_chunk file
  have hcons : Consistent path (honestGuest path file h) n (honestChunk path file h n) :=
    honestGuest_consistent h hn.symm
  obtain ⟨t, hloop, hreply, hnew⟩ := hcons.reached
  have heof : (honestChunk path file h n).eof = true := decide_eq_true hlast
  have hnext : (honestChunk path file h n).nextOffset = (honestChunk path file h n).size :=
    Nat.min_eq_right hlast
  obtain ⟨contents, hcontents⟩ : ∃ contents,
      (readLoop path (honestGuest path file h) (n + 1)).2 = some (.ok contents) := by
    rw [readLoop_succ hloop, hreply, Transfer.receive_continues hnew]
    simp [Transfer.finish, Transfer.push, heof, hnext]
  obtain ⟨m, hm, result, hresult, hdata, hlength⟩ :=
    (readLoop_progress path (honestGuest path file h) (n + 1)).returned contents hcontents
  refine ⟨n + 1, ?_⟩
  rw [hcontents]
  obtain ⟨first, hfirst, hsize⟩ := hresult.size_eq
  have hfirstSize : first.size = file.length := by
    cases hfirst
    rfl
  rw [received_honestGuest] at hdata
  have hfull : file.length ≤ (m + 1) * maxFileChunkBytes := by
    rw [hdata, List.length_take] at hlength
    omega
  rw [hdata, List.take_of_length_le hfull]

end HonestGuest

end Bloom
