import BloomWorkspaces.Guest.Validate
import BloomWorkspaces.Library.Base64

/-!
# The log ring of a job

`LogRing` keeps the last bytes of a job's output under absolute offsets. The fields of the structure
say what the offsets mean, so a ring that contradicts them cannot be built.
-/

namespace Bloom

def maxLogBytes : ℕ := 1024 * 1024

structure LogRing where
  buf : List UInt8
  startOffset : ℕ
  endOffset : ℕ
  length_le : buf.length ≤ maxLogBytes
  offsets : startOffset + buf.length = endOffset

namespace LogRing

def empty : LogRing := ⟨[], 0, 0, Nat.zero_le _, rfl⟩

/-- `append`: what exceeds the size of the ring is dropped at the front. -/
def append (ring : LogRing) (chunk : List UInt8) : LogRing where
  buf := (ring.buf ++ chunk).drop ((ring.buf ++ chunk).length - maxLogBytes)
  startOffset := ring.startOffset + ((ring.buf ++ chunk).length - maxLogBytes)
  endOffset := ring.endOffset + chunk.length
  length_le := by
    rw [List.length_drop]
    omega
  offsets := by
    have h := ring.offsets
    rw [List.length_drop, List.length_append]
    omega

@[simp] lemma append_endOffset (ring : LogRing) (chunk : List UInt8) :
    (ring.append chunk).endOffset = ring.endOffset + chunk.length := rfl

end LogRing

/-- What `slice` answers; the host gets it as the `logs` of a job. -/
structure LogChunk where
  offset : ℕ
  nextOffset : ℕ
  endOffset : ℕ
  truncatedBefore : Bool
  eof : Bool
  encoding : String
  data : List Char
  deriving DecidableEq

namespace LogRing

/-- The bytes that `slice` encodes, from an offset within the ring. -/
def chunkAt (ring : LogRing) (offset maximum : ℕ) : List UInt8 :=
  (ring.buf.drop (offset - ring.startOffset)).take maximum

def slice (ring : LogRing) (requestedOffset maximum : ℕ) (terminal : Bool) :
    Except ControlError LogChunk :=
  if ring.endOffset < requestedOffset then
    .error (.invalidRequest "log cursor is beyond the current log end")
  else
    let offset := max requestedOffset ring.startOffset
    let chunk := ring.chunkAt offset maximum
    .ok {
      offset := offset
      nextOffset := offset + chunk.length
      endOffset := ring.endOffset
      truncatedBefore := requestedOffset < ring.startOffset
      eof := terminal && offset + chunk.length = ring.endOffset
      encoding := "base64"
      data := Base64.encode chunk }

lemma length_chunkAt (ring : LogRing) {offset : ℕ} (maximum : ℕ) (hstart : ring.startOffset ≤ offset) :
    (ring.chunkAt offset maximum).length = min maximum (ring.endOffset - offset) := by
  have hoffsets := ring.offsets
  rw [chunkAt, List.length_take, List.length_drop]
  omega

end LogRing

/-! ### The log under the ring -/

namespace LogRing

variable {ring : LogRing} {output chunk : List UInt8} {logs : LogChunk} {cursor maximum : ℕ}

/-- The ring keeps the end of what the job has written. -/
structure Keeps (ring : LogRing) (output : List UInt8) : Prop where
  endOffset : ring.endOffset = output.length
  buf : ring.buf = output.drop ring.startOffset

lemma append_buf (ring : LogRing) (chunk : List UInt8) : (ring.append chunk).buf =
    (ring.buf ++ chunk).drop ((ring.buf ++ chunk).length - maxLogBytes) := by
  rw [append]

lemma append_startOffset (ring : LogRing) (chunk : List UInt8) : (ring.append chunk).startOffset =
    ring.startOffset + ((ring.buf ++ chunk).length - maxLogBytes) := by
  rw [append]

lemma Keeps.empty : Keeps .empty [] := ⟨rfl, rfl⟩

lemma Keeps.start_le (h : ring.Keeps output) : ring.startOffset ≤ output.length := by
  have hoffsets := ring.offsets
  rw [h.endOffset] at hoffsets
  omega

lemma Keeps.append (h : ring.Keeps output) (chunk : List UInt8) :
    (ring.append chunk).Keeps (output ++ chunk) where
  endOffset := by rw [append_endOffset, h.endOffset, List.length_append]
  buf := by
    rw [append_buf, append_startOffset, ← List.drop_drop, List.drop_append_of_le_length h.start_le, ← h.buf]

lemma Keeps.foldl_append (h : ring.Keeps output) (chunks : List (List UInt8)) :
    (chunks.foldl LogRing.append ring).Keeps (output ++ chunks.flatten) := by
  induction chunks generalizing ring output with
  | nil =>
    rw [List.flatten_nil, List.append_nil]
    exact h
  | cons chunk chunks ih =>
    rw [List.foldl_cons, List.flatten_cons, ← List.append_assoc]
    exact ih (h.append chunk)

/-- What `slice` answers within the log. -/
lemma Keeps.slice (h : ring.Keeps output) {terminal : Bool}
    (hslice : ring.slice cursor maximum terminal = .ok logs) :
    logs.offset = max cursor ring.startOffset ∧
      logs.nextOffset = min (max cursor ring.startOffset + maximum) output.length ∧
      logs.offset ≤ logs.nextOffset ∧
      Base64.decode logs.data = (output.take logs.nextOffset).drop logs.offset := by
  rw [LogRing.slice] at hslice
  split_ifs at hslice with hbeyond
  obtain rfl := Except.ok.inj hslice
  have hstart := h.start_le
  have hend := h.endOffset
  have hlength := ring.length_chunkAt maximum (Nat.le_max_right cursor ring.startOffset)
  rw [hend] at hbeyond hlength
  have hbytes : ring.chunkAt (max cursor ring.startOffset) maximum =
      (output.drop (max cursor ring.startOffset)).take maximum := by
    rw [chunkAt, h.buf, List.drop_drop]
    congr 2
    omega
  refine ⟨rfl, ?_, Nat.le_add_right _ _, ?_⟩
  · simp only [hlength]
    omega
  · simp only [Base64.decode_encode, hbytes, List.drop_take]
    rw [Nat.add_sub_cancel_left, List.length_take, List.take_eq_take_min]

end LogRing

end Bloom
