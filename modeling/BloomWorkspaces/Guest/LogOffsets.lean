import BloomWorkspaces.Guest.Logs
import Mathlib.Data.List.Chain
import Mathlib.Data.UInt

/-!
# The offsets of the log ring in 64 bits

`LogInner` is the ring with the offsets of the source, which wrap around in a release build, and a `slice`
that panics where its range is out of bounds. As long as neither the log nor the sum in `slice` reaches
`2 ^ 64`, it refines `LogRing`.
-/

namespace Bloom

structure LogInner where
  buf : List UInt8
  startOffset : UInt64
  endOffset : UInt64
  deriving DecidableEq

namespace LogInner

def new : LogInner := ⟨[], 0, 0⟩

def append (inner : LogInner) (chunk : List UInt8) : LogInner :=
  if chunk = [] then inner
  else
    let buf := inner.buf ++ chunk
    let overflow := buf.length - maxLogBytes
    { buf := buf.drop overflow
      startOffset := inner.startOffset + UInt64.ofNat overflow
      endOffset := inner.endOffset + UInt64.ofNat chunk.length }

/-- `None` is the panic of `&inner.buf[relative..end]`. -/
def slice (inner : LogInner) (requestedOffset maximum : UInt64) (terminal : Bool) :
    Option (Except ControlError LogChunk) :=
  if inner.endOffset < requestedOffset then
    some (.error (.invalidRequest "log cursor is beyond the current log end"))
  else
    let offset := max requestedOffset inner.startOffset
    let relative := offset - inner.startOffset
    let stop := min (relative + maximum) (UInt64.ofNat inner.buf.length)
    if stop < relative ∨ inner.buf.length < stop.toNat then none
    else
      let chunk := (inner.buf.take stop.toNat).drop relative.toNat
      let nextOffset := offset + UInt64.ofNat chunk.length
      some (.ok {
        offset := offset.toNat
        nextOffset := nextOffset.toNat
        endOffset := inner.endOffset.toNat
        truncatedBefore := requestedOffset < inner.startOffset
        eof := terminal && nextOffset = inner.endOffset
        encoding := "base64"
        data := Base64.encode chunk })

end LogInner

/-- The operations on a log, in the order in which they take its lock. -/
inductive LogOperation
  | append (chunk : List UInt8)
  | slice (requestedOffset maximum : UInt64) (terminal : Bool)

/-- A slice reads the ring and leaves it as it is. -/
def LogInner.after (inner : LogInner) : LogOperation → LogInner
  | .append chunk => inner.append chunk
  | .slice _ _ _ => inner

def LogInner.run (operations : List LogOperation) : LogInner := operations.foldl LogInner.after .new

def LogOperation.appended : LogOperation → List UInt8
  | .append chunk => chunk
  | .slice _ _ _ => []

/-- Everything that was appended. -/
def appendedBytes (operations : List LogOperation) : List UInt8 :=
  operations.flatMap LogOperation.appended

/-- The chunk is the part of the log that was asked for, but for what the ring had to drop. -/
structure LogChunk.Shows (logs : LogChunk) (output : List UInt8) (requestedOffset maximum : ℕ) :
    Prop where
  offset : logs.offset = max requestedOffset (output.length - maxLogBytes)
  nextOffset : logs.nextOffset = min (logs.offset + maximum) output.length
  data : Base64.decode logs.data = (output.take logs.nextOffset).drop logs.offset
  truncatedBefore : logs.truncatedBefore = true ↔ requestedOffset < logs.offset
  endOffset : logs.endOffset = output.length

/-- The slices from a cursor on, each at the next offset of the one before it, until one reaches the end;
there is no result where a slice fails or the end is not reached within the given number of slices. -/
def LogInner.slices (inner : LogInner) (maximum : UInt64) (terminal : Bool) :
    ℕ → UInt64 → Option (List LogChunk)
  | 0, _ => none
  | count + 1, cursor =>
    match inner.slice cursor maximum terminal with
    | some (.ok logs) =>
      if logs.nextOffset = logs.endOffset then some [logs]
      else (inner.slices maximum terminal count (UInt64.ofNat logs.nextOffset)).map (logs :: ·)
    | _ => none

/-- The chunks follow on each other, and together they are the log from the given offset to its end. -/
structure Enumerates (output : List UInt8) (offset : ℕ) (pages : List LogChunk) : Prop where
  first : ∀ logs ∈ pages.head?, logs.offset = offset
  follows : pages.IsChain fun logs next => next.offset = logs.nextOffset
  last : ∀ logs ∈ pages.getLast?, logs.nextOffset = output.length
  bytes : (pages.flatMap fun logs => Base64.decode logs.data) = output.drop offset

/-! ### The ring under the 64 bits -/

/-- The 64-bit ring has not wrapped around. -/
structure LogInner.Refines (inner : LogInner) (ring : LogRing) : Prop where
  buf : inner.buf = ring.buf
  startOffset : inner.startOffset.toNat = ring.startOffset
  endOffset : inner.endOffset.toNat = ring.endOffset

section Refinement

variable {inner : LogInner} {ring : LogRing} {output chunk : List UInt8} {operations : List LogOperation}

lemma LogRing.append_nil (ring : LogRing) : ring.append [] = ring := by
  have hlength := ring.length_le
  simp [LogRing.append, Nat.sub_eq_zero_of_le hlength]

lemma LogInner.Refines.append (h : inner.Refines ring)
    (hfits : ring.endOffset + chunk.length < 2 ^ 64) : (inner.append chunk).Refines (ring.append chunk) := by
  by_cases hchunk : chunk = []
  · rw [hchunk, LogInner.append, if_pos rfl, LogRing.append_nil]
    exact h
  · have hoffsets := ring.offsets
    have hlength : (inner.buf ++ chunk).length = ring.buf.length + chunk.length := by
      rw [List.length_append, h.buf]
    rw [LogInner.append, if_neg hchunk]
    refine ⟨?_, ?_, ?_⟩
    · rw [LogRing.append_buf, h.buf]
    · rw [LogRing.append_startOffset, UInt64.toNat_add, UInt64.toNat_ofNat', h.startOffset, h.buf,
        List.length_append]
      omega
    · rw [LogRing.append_endOffset, UInt64.toNat_add, UInt64.toNat_ofNat', h.endOffset]
      omega

/-- The ring over the naturals that has taken the same appends. -/
def LogRing.run (operations : List LogOperation) : LogRing :=
  operations.foldl (fun ring operation => ring.append operation.appended) .empty

lemma LogRing.keeps_run (operations : List LogOperation) :
    (LogRing.run operations).Keeps (appendedBytes operations) := by
  have h := LogRing.Keeps.empty.foldl_append (operations.map LogOperation.appended)
  rwa [List.foldl_map, List.nil_append, ← List.flatMap_def] at h

/-- The ring has dropped exactly what exceeds its size. -/
lemma LogRing.startOffset_run (operations : List LogOperation) :
    (LogRing.run operations).startOffset = (LogRing.run operations).endOffset - maxLogBytes := by
  induction operations using List.reverseRecOn with
  | nil => rfl
  | append_singleton operations operation ih =>
    have hoffsets := (LogRing.run operations).offsets
    have hlength := (LogRing.run operations).length_le
    have hlast : LogRing.run (operations ++ [operation]) =
        (LogRing.run operations).append operation.appended := List.foldl_concat ..
    rw [hlast, LogRing.append_startOffset, LogRing.append_endOffset, List.length_append]
    omega

lemma LogRing.startOffset_eq (operations : List LogOperation) :
    (LogRing.run operations).startOffset = (appendedBytes operations).length - maxLogBytes := by
  rw [startOffset_run, (keeps_run operations).endOffset]

/-- The run lemma: below `2 ^ 64` bytes the offsets are those of the ring over the naturals. -/
lemma LogInner.refines_run (hlength : (appendedBytes operations).length < 2 ^ 64) :
    (LogInner.run operations).Refines (LogRing.run operations) := by
  induction operations using List.reverseRecOn with
  | nil => exact ⟨rfl, rfl, rfl⟩
  | append_singleton operations operation ih =>
    rw [appendedBytes, List.flatMap_append, List.length_append, List.flatMap_singleton] at hlength
    have hbefore : (appendedBytes operations).length + operation.appended.length < 2 ^ 64 := hlength
    have hrefines := ih (by omega)
    rw [← (LogRing.keeps_run operations).endOffset] at hbefore
    rw [LogInner.run, LogRing.run, List.foldl_concat, List.foldl_concat]
    cases operation with
    | append chunk => exact hrefines.append hbefore
    | slice requestedOffset maximum terminal =>
      change (LogInner.run operations).Refines ((LogRing.run operations).append [])
      rw [LogRing.append_nil]
      exact hrefines

/-- The offset that a run has reached counts the appended bytes in 64 bits. -/
lemma LogInner.endOffset_run (operations : List LogOperation) :
    (LogInner.run operations).endOffset = UInt64.ofNat (appendedBytes operations).length := by
  induction operations using List.reverseRecOn with
  | nil => rfl
  | append_singleton operations operation ih =>
    rw [appendedBytes, List.flatMap_append, List.length_append, List.flatMap_singleton, UInt64.ofNat_add,
      ← appendedBytes, ← ih, LogInner.run, List.foldl_concat, ← LogInner.run]
    cases operation with
    | append chunk =>
      by_cases hchunk : chunk = []
      · rw [hchunk]
        exact (UInt64.add_zero _).symm
      · simp only [after, LogInner.append, if_neg hchunk, LogOperation.appended]
    | slice requestedOffset maximum terminal => exact (UInt64.add_zero _).symm

/-! ### Slices -/

lemma LogInner.endOffset_of_slice {requestedOffset maximum : UInt64} {terminal : Bool} {logs : LogChunk}
    (h : inner.slice requestedOffset maximum terminal = some (.ok logs)) :
    logs.endOffset = inner.endOffset.toNat := by
  simp only [LogInner.slice] at h
  split_ifs at h with hbeyond hrange
  · cases h
  · obtain rfl := Except.ok.inj (Option.some.inj h)
    rfl

variable {requestedOffset maximum : UInt64} {terminal : Bool} {logs : LogChunk}

/-- How far into the ring a slice begins. -/
def LogRing.relative (ring : LogRing) (requestedOffset : ℕ) : ℕ :=
  max requestedOffset ring.startOffset - ring.startOffset

lemma LogRing.relative_le (hrequested : requestedOffset.toNat ≤ ring.endOffset) :
    ring.relative requestedOffset.toNat ≤ ring.buf.length := by
  have hoffsets := ring.offsets
  rw [relative]
  omega

lemma LogInner.Refines.relative (h : inner.Refines ring) (requestedOffset : UInt64) :
    (max requestedOffset inner.startOffset - inner.startOffset).toNat =
      ring.relative requestedOffset.toNat := by
  have hle : inner.startOffset ≤ max requestedOffset inner.startOffset := by
    rw [UInt64.le_iff_toNat_le, UInt64.toNat_max]
    exact Nat.le_max_right _ _
  rw [UInt64.toNat_sub_of_le _ _ hle, UInt64.toNat_max, h.startOffset, LogRing.relative]

/-- The sum `relative + maximum` decides: below `2 ^ 64` the slice is that of the ring, and from there on
it has wrapped around to less than `relative`, and the range of the slice ends before it begins. -/
lemma LogInner.Refines.slice (h : inner.Refines ring)
    (hrequested : requestedOffset.toNat ≤ ring.endOffset) :
    inner.slice requestedOffset maximum terminal =
      if ring.relative requestedOffset.toNat + maximum.toNat < 2 ^ 64 then
        some (ring.slice requestedOffset.toNat maximum.toNat terminal)
      else none := by
  have hoffsets := ring.offsets
  have hsize := ring.length_le
  have hmaximum := maximum.toNat_lt
  have hrelative := h.relative requestedOffset
  have hinside := LogRing.relative_le hrequested
  have hoffset : (max requestedOffset inner.startOffset).toNat =
      max requestedOffset.toNat ring.startOffset := by
    rw [UInt64.toNat_max, h.startOffset]
  have hwithin : ¬inner.endOffset < requestedOffset := by
    rw [UInt64.lt_iff_toNat_lt, h.endOffset]
    exact Nat.not_lt.mpr hrequested
  have hstop : (min (max requestedOffset inner.startOffset - inner.startOffset + maximum)
        (UInt64.ofNat ring.buf.length)).toNat =
      min ((ring.relative requestedOffset.toNat + maximum.toNat) % 2 ^ 64) ring.buf.length := by
    rw [UInt64.toNat_min, UInt64.toNat_add, hrelative, UInt64.toNat_ofNat']
    congr 1
    exact Nat.mod_eq_of_lt (lt_of_le_of_lt hsize (by decide))
  rw [LogInner.slice, if_neg hwithin]
  simp only [h.buf, UInt64.lt_iff_toNat_lt, hstop, hrelative]
  by_cases hfits : ring.relative requestedOffset.toNat + maximum.toNat < 2 ^ 64
  · have hchunk : (ring.buf.take (min (ring.relative requestedOffset.toNat + maximum.toNat)
          ring.buf.length)).drop (ring.relative requestedOffset.toNat) =
        ring.chunkAt (max requestedOffset.toNat ring.startOffset) maximum.toNat := by
      rw [← List.take_eq_take_min, List.drop_take, Nat.add_sub_cancel_left, LogRing.chunkAt, LogRing.relative]
    have hlength := ring.length_chunkAt maximum.toNat (Nat.le_max_right requestedOffset.toNat ring.startOffset)
    have hnext : (max requestedOffset inner.startOffset + UInt64.ofNat (ring.chunkAt
          (max requestedOffset.toNat ring.startOffset) maximum.toNat).length).toNat =
        max requestedOffset.toNat ring.startOffset + (ring.chunkAt
          (max requestedOffset.toNat ring.startOffset) maximum.toNat).length := by
      have hend := inner.endOffset.toNat_lt
      rw [h.endOffset] at hend
      rw [UInt64.toNat_add, hoffset, UInt64.toNat_ofNat', hlength]
      omega
    rw [if_pos hfits, Nat.mod_eq_of_lt hfits, if_neg (by omega), hchunk, LogRing.slice,
      if_neg (Nat.not_lt.mpr hrequested)]
    simp only [hnext, hoffset, h.startOffset, h.endOffset, ← UInt64.toNat_inj]
  · rw [if_neg hfits, if_pos]
    left
    omega

lemma LogRing.Keeps.slice_ok (h : ring.Keeps output) {requested : ℕ} (maximum : ℕ) (terminal : Bool)
    (hrequested : requested ≤ output.length) :
    ∃ logs, ring.slice requested maximum terminal = .ok logs ∧
      logs.offset = max requested ring.startOffset ∧
      logs.nextOffset = min (logs.offset + maximum) output.length ∧
      Base64.decode logs.data = (output.take logs.nextOffset).drop logs.offset ∧
      (logs.truncatedBefore = true ↔ requested < logs.offset) ∧ logs.endOffset = output.length := by
  have hwithin : ¬ring.endOffset < requested := by
    rw [h.endOffset]
    exact Nat.not_lt.mpr hrequested
  obtain ⟨logs, hlogs⟩ : ∃ logs, ring.slice requested maximum terminal = .ok logs := by
    rw [LogRing.slice, if_neg hwithin]
    exact ⟨_, rfl⟩
  obtain ⟨hoffset, hnext, -, hdata⟩ := h.slice hlogs
  refine ⟨logs, hlogs, hoffset, by rw [hnext, hoffset], hdata, ?_, ?_⟩
  · rw [hoffset]
    rw [LogRing.slice, if_neg hwithin] at hlogs
    obtain rfl := Except.ok.inj hlogs
    simp
  · rw [LogRing.slice, if_neg hwithin] at hlogs
    obtain rfl := Except.ok.inj hlogs
    exact h.endOffset

/-- Slices from a cursor on reach the end: each of them is the last one or brings the cursor forward. -/
lemma LogInner.Refines.slices (h : inner.Refines ring) (hkeeps : ring.Keeps output)
    (hmaximum : 1 ≤ maximum.toNat) (count : ℕ) :
    ∀ cursor : UInt64, cursor.toNat ≤ output.length → output.length < cursor.toNat + count →
      ring.relative cursor.toNat + maximum.toNat < 2 ^ 64 →
      ∃ pages, inner.slices maximum terminal count cursor = some pages ∧
        Enumerates output (max cursor.toNat ring.startOffset) pages := by
  induction count with
  | zero =>
    intro cursor hcursor hcount
    omega
  | succ count ih =>
    intro cursor hcursor hcount hfits
    obtain ⟨logs, hlogs, hoffset, hnext, hdata, -, hend⟩ :=
      hkeeps.slice_ok maximum.toNat terminal hcursor
    have hslice : inner.slice cursor maximum terminal = some (.ok logs) := by
      rw [h.slice (hcursor.trans_eq hkeeps.endOffset.symm), if_pos hfits, hlogs]
    have hstart := hkeeps.start_le
    by_cases hlast : logs.nextOffset = logs.endOffset
    · refine ⟨[logs], by rw [LogInner.slices, hslice]; simp only [if_pos hlast], ?_, ?_, ?_, ?_⟩
      · rintro first ⟨⟩
        exact hoffset
      · exact .singleton logs
      · rintro last ⟨⟩
        exact hlast.trans hend
      · rw [List.flatMap_singleton, hdata, hlast, hend, List.take_length, hoffset]
    · have hbefore : logs.nextOffset = logs.offset + maximum.toNat := by omega
      have hcursor' : (UInt64.ofNat logs.nextOffset).toNat = logs.nextOffset := by
        have hbound := inner.endOffset.toNat_lt
        rw [h.endOffset, hkeeps.endOffset] at hbound
        rw [UInt64.toNat_ofNat', Nat.mod_eq_of_lt (by omega)]
      have hoffsets := ring.offsets
      have hsize := ring.length_le
      rw [hkeeps.endOffset] at hoffsets
      obtain ⟨pages, hpages, henumerates⟩ := ih (UInt64.ofNat logs.nextOffset)
        (by omega) (by omega) (by rw [hcursor', LogRing.relative, maxLogBytes] at *; omega)
      rw [hcursor', max_eq_left (by omega)] at henumerates
      refine ⟨logs :: pages, ?_, ?_, ?_, ?_, ?_⟩
      · rw [LogInner.slices, hslice]
        simp only [if_neg hlast, hpages, Option.map_some]
      · rintro first ⟨⟩
        exact hoffset
      · exact List.isChain_cons.mpr ⟨henumerates.first, henumerates.follows⟩
      · intro last hmem
        rw [List.getLast?_cons] at hmem
        cases hnil : pages.getLast? with
        | none =>
          have hempty := henumerates.bytes
          rw [List.getLast?_eq_none_iff.mp hnil, List.flatMap_nil, eq_comm, List.drop_eq_nil_iff] at hempty
          omega
        | some final =>
          rw [hnil] at hmem
          exact henumerates.last last (by rw [hnil]; exact hmem)
      · have hsplit := List.take_append_drop maximum.toNat (output.drop logs.offset)
        rw [List.drop_drop, ← hbefore] at hsplit
        rw [List.flatMap_cons, henumerates.bytes, hdata, List.drop_take, hbefore, Nat.add_sub_cancel_left,
          ← hbefore, hsplit, hoffset]

end Refinement

/-- Below `2 ^ 64` appended bytes, a slice from an offset in the log shows what was asked for, and the
slices from its next offset on enumerate what the ring has kept, provided that the sum of the source does not
wrap around: the bytes before the offset in the ring and the maximum together are less than `2 ^ 64`. -/
theorem LogInner.slices_exact (operations : List LogOperation)
    (hlength : (appendedBytes operations).length < 2 ^ 64) (requestedOffset maximum : UInt64)
    (terminal : Bool) (hrequested : requestedOffset.toNat ≤ (appendedBytes operations).length)
    (hmaximum : 1 ≤ maximum.toNat)
    (hfits : requestedOffset.toNat - ((appendedBytes operations).length - maxLogBytes) + maximum.toNat <
      2 ^ 64) :
    (∃ logs, (LogInner.run operations).slice requestedOffset maximum terminal = some (.ok logs) ∧
      logs.Shows (appendedBytes operations) requestedOffset.toNat maximum.toNat) ∧
    ∃ pages, (LogInner.run operations).slices maximum terminal ((appendedBytes operations).length + 1)
        requestedOffset = some pages ∧
      Enumerates (appendedBytes operations)
        (max requestedOffset.toNat ((appendedBytes operations).length - maxLogBytes)) pages := by
  have hrefines := LogInner.refines_run hlength
  have hkeeps := LogRing.keeps_run operations
  have hstart := LogRing.startOffset_eq operations
  have hsum : (LogRing.run operations).relative requestedOffset.toNat + maximum.toNat < 2 ^ 64 := by
    rw [LogRing.relative, hstart]
    omega
  constructor
  · obtain ⟨logs, hlogs, hoffset, hnext, hdata, htruncated, hend⟩ :=
      hkeeps.slice_ok maximum.toNat terminal hrequested
    refine ⟨logs, ?_, ⟨?_, hnext, hdata, htruncated, hend⟩⟩
    · rw [hrefines.slice (hrequested.trans_eq hkeeps.endOffset.symm), if_pos hsum, hlogs]
    · rw [hoffset, hstart]
  · rw [← hstart]
    exact hrefines.slices hkeeps hmaximum _ requestedOffset hrequested (by omega) hsum

/-- Two chunks of three bytes, read from the second byte on in slices of two. -/
theorem LogInner.slices_exact_threeSlices :
    (∃ logs, (LogInner.run [.append [104, 101, 108], .append [108, 111, 10]]).slice 1 2 true = some (.ok logs) ∧
      logs.Shows [104, 101, 108, 108, 111, 10] 1 2) ∧
    ∃ pages, (LogInner.run [.append [104, 101, 108], .append [108, 111, 10]]).slices 2 true 7 1 = some pages ∧
      Enumerates [104, 101, 108, 108, 111, 10] 1 pages ∧ pages.length = 3 := by
  obtain ⟨hslice, pages, hpages, henumerates⟩ :=
    LogInner.slices_exact [.append [104, 101, 108], .append [108, 111, 10]] (by decide) 1 2 true (by decide)
      (by decide) (by decide)
  have hcount : ((LogInner.run [.append [104, 101, 108], .append [108, 111, 10]]).slices 2 true 7 1).map
      List.length = some 3 := by decide +kernel
  refine ⟨hslice, pages, hpages, henumerates, ?_⟩
  have hthree := (congrArg (Option.map List.length) hpages).symm.trans hcount
  exact Option.some.inj hthree

/-- With a maximum of `2 ^ 64 - 1` the slice from the end of a log of one byte panics; and after four
chunks of `2 ^ 62` bytes the end offset is `0`. -/
theorem LogInner.slice_wraps :
    (¬∃ logs, (LogInner.run [.append [46]]).slice 1 18446744073709551615 false = some (.ok logs) ∧
      logs.Shows (appendedBytes [.append [46]]) 1 18446744073709551615) ∧
    ¬∃ logs, (LogInner.run (List.replicate 4 (.append (List.replicate (2 ^ 62) 46)))).slice 0 1 false =
        some (.ok logs) ∧
      logs.Shows (appendedBytes (List.replicate 4 (.append (List.replicate (2 ^ 62) 46)))) 0 1 := by
  constructor
  · rintro ⟨logs, hlogs, -⟩
    have hpanic : (LogInner.run [.append [46]]).slice 1 18446744073709551615 false = none := by decide
    rw [hpanic] at hlogs
    exact Option.some_ne_none _ hlogs.symm
  · rintro ⟨logs, hlogs, hshows⟩
    have hbytes : (appendedBytes
        (List.replicate 4 (.append (List.replicate (2 ^ 62) 46)))).length = 2 ^ 64 := by
      simp only [appendedBytes, List.length_flatMap, List.map_replicate, LogOperation.appended,
        List.length_replicate]
      decide
    have hend := hshows.endOffset
    rw [LogInner.endOffset_of_slice hlogs, LogInner.endOffset_run, hbytes] at hend
    exact absurd hend (by decide)

end Bloom
