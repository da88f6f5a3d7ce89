import BloomWorkspaces.Jobs.Status

/-!
# The event stream of a job

The handler of `GET …/jobs/:jobId/events` polls the status of the job from a cursor, sends each answer
and ends with the first one whose state is terminal. The log grows between the polls, and its ring drops
what is old. The last poll takes one more chunk, however much of the log is unread.
-/

namespace Bloom

/-! ### The handler -/

/-- `64 * 1024` -/
def eventChunkBytes : ℕ := 64 * 1024

/-- A poll of the handler: what the job has written since the last one, the job that the guest finds
(its log is the ring), and whether the answer gets back to the handler. -/
structure Poll where
  appended : List (List UInt8)
  job : Job
  answered : Bool

def Poll.ring (before : LogRing) (p : Poll) : LogRing := p.appended.foldl LogRing.append before

def Poll.status (before : LogRing) (offset : ℕ) (p : Poll) : JobReply :=
  JobEngine.statusOfInner { p.job with logs := p.ring before } offset eventChunkBytes

/-- How the handler leaves its loop; `pending` is a stream whose client may still be there. -/
inductive StreamEnd
  | pending
  | terminal
  | failed
  deriving DecidableEq, Repr

/-- The polls that were made and the logs of the events that were sent. -/
structure EventStream where
  made : List Poll
  sent : List LogChunk
  ending : StreamEnd

def eventStream (before : LogRing) (offset : ℕ) : List Poll → EventStream
  | [] => ⟨[], [], .pending⟩
  | p :: polls =>
    if p.answered && isJobStatus (p.status before offset) then
      match (p.status before offset).logs with
      | .error _ => ⟨[p], [], .failed⟩
      | .ok logs =>
        if (p.status before offset).state.isTerminal then ⟨[p], [logs], .terminal⟩
        else
          let rest := eventStream (p.ring before) logs.nextOffset polls
          ⟨p :: rest.made, logs :: rest.sent, rest.ending⟩
    else ⟨[p], [], .failed⟩

/-! ### The log that is due -/

/-- What the job has written by the last of the polls. -/
def written (polls : List Poll) : List UInt8 := polls.flatMap fun p => p.appended.flatten

/-- The rings that the polls find. -/
def rings (before : LogRing) : List Poll → List LogRing
  | [] => []
  | p :: polls => p.ring before :: rings (p.ring before) polls

/-- The chunks are the log from the cursor on: each of them begins where the one before it has ended, or at
the truncation point of its ring where that is further on. -/
inductive Delivers (output : List UInt8) : ℕ → List LogRing → List LogChunk → ℕ → Prop
  | nil (cursor : ℕ) : Delivers output cursor [] [] cursor
  | cons {cursor final : ℕ} {ring : LogRing} {rings : List LogRing} {logs : LogChunk}
      {sent : List LogChunk} (hoffset : logs.offset = max cursor ring.startOffset)
      (hnext : logs.offset ≤ logs.nextOffset)
      (hdata : Base64.decode logs.data = (output.take logs.nextOffset).drop logs.offset)
      (hrest : Delivers output logs.nextOffset rings sent final) :
      Delivers output cursor (ring :: rings) (logs :: sent) final

/-- The bytes of the events. -/
def sentBytes (sent : List LogChunk) : List UInt8 := sent.flatMap fun logs => Base64.decode logs.data

/-- The retained log from the start offset to the end, in order and without a gap but for what a ring had
dropped. -/
structure SendsRetainedLog (output : List UInt8) (start : ℕ) (rings : List LogRing)
    (sent : List LogChunk) : Prop where
  delivers : Delivers output start rings sent output.length
  /-- Where no ring had dropped unread bytes, this is the whole log. -/
  whole : ∀ first ∈ rings.head?, sent.IsChain (fun logs next => next.offset = logs.nextOffset) →
    sentBytes sent = output.drop (max start first.startOffset)

/-- At the last poll the unread part of the ring fits in one chunk; `cursor` is the offset of the first. -/
def LastFits (cursor : ℕ) : List LogRing → Prop
  | [] => True
  | [ring] => ring.endOffset ≤ max cursor ring.startOffset + eventChunkBytes
  | ring :: rings => LastFits (min (max cursor ring.startOffset + eventChunkBytes) ring.endOffset) rings

instance decidableLastFits : ∀ (cursor : ℕ) (rings : List LogRing), Decidable (LastFits cursor rings)
  | _, [] => inferInstanceAs (Decidable True)
  | cursor, [ring] =>
    inferInstanceAs (Decidable (ring.endOffset ≤ max cursor ring.startOffset + eventChunkBytes))
  | cursor, ring :: next :: rings =>
    decidableLastFits (min (max cursor ring.startOffset + eventChunkBytes) ring.endOffset) (next :: rings)

section Delivery

variable {output : List UInt8} {cursor final final' start : ℕ} {ring : LogRing} {rings' : List LogRing}
  {sent : List LogChunk} {polls : List Poll}

/-- The chunks tell where they end. -/
lemma Delivers.final_eq (h : Delivers output cursor rings' sent final)
    (h' : Delivers output cursor rings' sent final') : final = final' := by
  induction h with
  | nil => cases h' with
    | nil => rfl
  | cons _ _ _ _ ih => cases h' with
    | cons _ _ _ hrest => exact ih hrest

lemma Delivers.le_final (h : Delivers output cursor rings' sent final) : cursor ≤ final := by
  induction h with
  | nil => exact Nat.le_refl _
  | cons hoffset hnext _ _ ih => omega

/-- Chunks without gaps are one piece of the log. -/
lemma Delivers.sentBytes_eq (h : Delivers output cursor (ring :: rings') sent final)
    (hchain : sent.IsChain fun logs next => next.offset = logs.nextOffset) :
    sentBytes sent = (output.take final).drop (max cursor ring.startOffset) := by
  generalize hrings : ring :: rings' = all at h
  induction h generalizing ring rings' with
  | nil => cases hrings
  | @cons cursor final ring₀ rings₀ logs sent hoffset hnext hdata hrest ih =>
    obtain ⟨rfl, rfl⟩ := List.cons.inj hrings
    rw [sentBytes, List.flatMap_cons, hdata, ← hoffset]
    cases hrest with
    | nil => rw [List.flatMap_nil, List.append_nil]
    | @cons _ _ ring₁ rings₁ logs₁ sent₁ hoffset₁ hnext₁ hdata₁ hrest₁ =>
      obtain ⟨hjoined, htail⟩ := List.isChain_cons_cons.mp hchain
      have hfinal := (Delivers.cons hoffset₁ hnext₁ hdata₁ hrest₁).le_final
      have hrest := ih htail rfl
      rw [sentBytes, ← hoffset₁, hjoined] at hrest
      rw [hrest]
      -- the chunk is the part of the log in front of the rest
      have hsplit := List.take_append_drop (logs.nextOffset - logs.offset) ((output.take final).drop logs.offset)
      rw [← hsplit, List.drop_drop, List.take_drop, List.take_take]
      congr 3
      · omega
      · omega

/-- The logs of a status are a slice of the ring. -/
lemma slice_of_status {before : LogRing} {p : Poll} {logs : LogChunk}
    (h : (p.status before cursor).logs = .ok logs) :
    (p.ring before).slice cursor eventChunkBytes p.job.state.isTerminal = .ok logs := by
  rw [Poll.status, JobEngine.statusOfInner] at h
  simp only at h
  split at h
  · rename_i chunk hchunk
    rw [hchunk, Except.ok.inj h]
  · cases h

/-- A turn of the loop in a stream that ends with a terminal state. -/
lemma eventStream_cons {before : LogRing} {p : Poll}
    (h : (eventStream before cursor (p :: polls)).ending = .terminal) :
    ∃ logs, (p.ring before).slice cursor eventChunkBytes p.job.state.isTerminal = .ok logs ∧
      (eventStream before cursor (p :: polls) = ⟨[p], [logs], .terminal⟩ ∨
        (eventStream (p.ring before) logs.nextOffset polls).ending = .terminal ∧
        eventStream before cursor (p :: polls) =
          ⟨p :: (eventStream (p.ring before) logs.nextOffset polls).made,
            logs :: (eventStream (p.ring before) logs.nextOffset polls).sent, .terminal⟩) := by
  rw [eventStream] at h ⊢
  by_cases hanswered : (p.answered && isJobStatus (p.status before cursor)) = true
  · rw [if_pos hanswered] at h ⊢
    cases hlogs : (p.status before cursor).logs with
    | error e =>
      simp only [hlogs] at h
      cases h
    | ok logs =>
      refine ⟨logs, slice_of_status hlogs, ?_⟩
      simp only [hlogs] at h ⊢
      by_cases hterminal : (p.status before cursor).state.isTerminal = true
      · rw [if_pos hterminal]
        exact Or.inl rfl
      · rw [if_neg hterminal] at h ⊢
        exact Or.inr ⟨h, by rw [h]⟩
  · rw [if_neg hanswered] at h
    cases h

lemma made_ne_nil {before : LogRing} (h : (eventStream before cursor polls).ending = .terminal) :
    (eventStream before cursor polls).made ≠ [] := by
  cases polls with
  | nil => cases h
  | cons p polls =>
    obtain ⟨logs, -, hrun | ⟨-, hrun⟩⟩ := eventStream_cons h
    all_goals
      rw [hrun]
      exact List.cons_ne_nil _ _

lemma written_cons (p : Poll) (polls : List Poll) :
    written (p :: polls) = p.appended.flatten ++ written polls := List.flatMap_cons

/-- The part of the log that a chunk shows does not change when the log grows. -/
lemma take_drop_append {rest : List UInt8} {offset next : ℕ} (h : next ≤ output.length) :
    (output.take next).drop offset = ((output ++ rest).take next).drop offset := by
  rw [List.take_append_of_le_length h]

/-- What the handler sends, and where it stops. -/
lemma eventStream_delivers {before : LogRing} (hkeeps : before.Keeps output)
    (h : (eventStream before cursor polls).ending = .terminal) :
    ∃ final, Delivers (output ++ written (eventStream before cursor polls).made) cursor
      (rings before (eventStream before cursor polls).made) (eventStream before cursor polls).sent final ∧
      (final = (output ++ written (eventStream before cursor polls).made).length ↔
        LastFits cursor (rings before (eventStream before cursor polls).made)) := by
  induction polls generalizing before cursor output with
  | nil => cases h
  | cons p polls ih =>
    obtain ⟨logs, hslice, hrun⟩ := eventStream_cons h
    have hafter : (p.ring before).Keeps (output ++ p.appended.flatten) := hkeeps.foldl_append p.appended
    have hend := hafter.endOffset
    obtain ⟨hoffset, hnext, hle, hdata⟩ := hafter.slice hslice
    have hwithin : logs.nextOffset ≤ (output ++ p.appended.flatten).length := by
      rw [hnext]
      exact Nat.min_le_right _ _
    rcases hrun with hlast | ⟨hterminal, hmore⟩
    · rw [hlast]
      have hwritten : output ++ written [p] = output ++ p.appended.flatten := by
        rw [written_cons, written, List.flatMap_nil, List.append_nil]
      simp only [rings, hwritten]
      refine ⟨logs.nextOffset, .cons hoffset hle hdata (.nil _), ?_⟩
      rw [LastFits, hnext, hend]
      omega
    · obtain ⟨final, hdelivers, hfits⟩ := ih hafter hterminal
      rw [hmore]
      rw [List.append_assoc, ← written_cons] at hdelivers hfits
      have hne := made_ne_nil hterminal
      simp only [rings]
      refine ⟨final, .cons hoffset hle ?_ hdelivers, ?_⟩
      · rw [hdata, take_drop_append hwithin, written_cons, List.append_assoc]
      · rw [hfits]
        obtain ⟨next, made, hmade⟩ := List.exists_cons_of_ne_nil hne
        rw [hmade]
        simp only [rings, LastFits]
        rw [hnext, hend]

/-- A stream that ends with a terminal state sends the retained log exactly when the last chunk is large
enough for what is unread. -/
theorem sendsRetainedLog_iff (h : (eventStream .empty start polls).ending = .terminal) :
    SendsRetainedLog (written (eventStream .empty start polls).made) start
      (rings .empty (eventStream .empty start polls).made) (eventStream .empty start polls).sent ↔
    LastFits start (rings .empty (eventStream .empty start polls).made) := by
  obtain ⟨final, hdelivers, hfits⟩ := eventStream_delivers LogRing.Keeps.empty h
  rw [List.nil_append] at hdelivers hfits
  rw [← hfits]
  constructor
  · exact fun hsends => hdelivers.final_eq hsends.delivers
  · rintro rfl
    refine ⟨hdelivers, fun first hfirst hchain => ?_⟩
    obtain ⟨rest, hrings⟩ := List.head?_eq_some_iff.mp hfirst
    rw [hrings] at hdelivers
    rw [hdelivers.sentBytes_eq hchain, List.take_length]

end Delivery

/-! ### A job that ends with much to read -/

section Burst

/-- A job that has succeeded, with the log of its ring. -/
def doneJob : Job where
  ref := 0
  jobId := "00000000-0000-4000-8000-000000000000"
  timeoutMs := 60000
  createdAt := 0
  state := .succeeded
  startedAt := some 1
  finishedAt := some 2
  exitCode := some 0
  signalNumber := none
  pid := some 100
  cancelRequested := false
  logs := .empty
  waiter := .absent
  place := .retained

lemma doneJob_ok : doneJob.Ok where
  jobId := by decide
  timeout := by decide
  finished := rfl
  started := rfl
  unqueued := by decide
  exit_zero := fun _ => rfl
  exit_lt := fun n hn => by
    obtain rfl := Option.some_inj.mp hn
    decide
  signal_range := fun n hn => absurd hn (Option.some_ne_none n).symm

lemma doneJob_fits : doneJob.Fits where
  createdAt := Nat.zero_le _
  startedAt := fun n hn => by
    obtain rfl := Option.some_inj.mp hn
    decide
  finishedAt := fun n hn => by
    obtain rfl := Option.some_inj.mp hn
    decide
  logs := Nat.zero_le _

/-- The only poll of a job that has written `size` bytes. -/
def burst (size : ℕ) : Poll := ⟨[List.replicate size 46], doneJob, true⟩

lemma keeps_burst (size : ℕ) : ((burst size).ring .empty).Keeps (List.replicate size 46) := by
  have h := LogRing.Keeps.empty.foldl_append [List.replicate size 46]
  rw [List.nil_append, List.flatten_singleton] at h
  exact h

lemma startOffset_burst {size : ℕ} (hsize : size ≤ maxLogBytes) :
    ((burst size).ring .empty).startOffset = 0 := by
  change (LogRing.empty.append (List.replicate size 46)).startOffset = 0
  rw [LogRing.append_startOffset, List.length_append, List.length_replicate]
  change 0 + (0 + size - maxLogBytes) = 0
  omega

lemma eventStream_burst {size : ℕ} (hsize : size ≤ maxSafeInteger) : ∃ logs,
    eventStream .empty 0 [burst size] = ⟨[burst size], [logs], .terminal⟩ := by
  have hend : ((burst size).ring .empty).endOffset = size :=
    (keeps_burst size).endOffset.trans List.length_replicate
  have hok : Job.Ok { doneJob with logs := (burst size).ring .empty } :=
    JobEngine.logs_ok (fun _ => (burst size).ring .empty) doneJob doneJob_ok
  have hfits : Job.Fits { doneJob with logs := (burst size).ring .empty } :=
    ⟨doneJob_fits.createdAt, doneJob_fits.startedAt, doneJob_fits.finishedAt, hend.trans_le hsize⟩
  have hstatus : isJobStatus ((burst size).status .empty 0) = true :=
    (JobEngine.isJobStatus_statusOfInner hok (by decide)).mpr ⟨rfl, Nat.zero_le _, hfits⟩
  have hfield : isLogsField ((burst size).status .empty 0).logs = true :=
    (isLogsField_statusOfInner (by decide)).mpr ⟨Nat.zero_le _, hfits.logs⟩
  cases hlogs : ((burst size).status .empty 0).logs with
  | error e =>
    rw [hlogs] at hfield
    cases hfield
  | ok logs =>
    have hterminal : ((burst size).status .empty 0).state.isTerminal = true := rfl
    refine ⟨logs, ?_⟩
    rw [eventStream, if_pos (by rw [hstatus]; rfl)]
    simp only [hlogs]
    rw [if_pos hterminal]

/-- The same job while it runs. -/
def runningJob : Job := { doneJob with state := .running, finishedAt := none, exitCode := none }

/-- Three polls of a job that writes three bytes before the first of them and three before the last. -/
def growingPolls : List Poll :=
  [⟨[[97, 98, 99]], runningJob, true⟩, ⟨[], runningJob, true⟩, ⟨[[100], [101, 102]], doneJob, true⟩]

theorem sendsRetainedLog_iff_growing :
    (eventStream .empty 1 growingPolls).sent.map (fun logs => (logs.offset, logs.nextOffset)) =
      [(1, 3), (3, 3), (3, 6)] ∧
    SendsRetainedLog (written (eventStream .empty 1 growingPolls).made) 1
      (rings .empty (eventStream .empty 1 growingPolls).made) (eventStream .empty 1 growingPolls).sent := by
  have hterminal : (eventStream .empty 1 growingPolls).ending = .terminal := by decide +kernel
  have hfits : LastFits 1 (rings .empty (eventStream .empty 1 growingPolls).made) := by decide +kernel
  exact ⟨by decide +kernel, (sendsRetainedLog_iff hterminal).mpr hfits⟩

lemma not_sends_burst {size : ℕ} (hlarge : eventChunkBytes < size) (hsize : size ≤ maxLogBytes) :
    ¬SendsRetainedLog (written (eventStream .empty 0 [burst size]).made) 0
      (rings .empty (eventStream .empty 0 [burst size]).made) (eventStream .empty 0 [burst size]).sent := by
  intro hsends
  obtain ⟨logs, hrun⟩ := eventStream_burst (Nat.le_trans hsize (by decide))
  obtain ⟨final, hdelivers, hfits⟩ := eventStream_delivers LogRing.Keeps.empty (by rw [hrun])
  rw [List.nil_append] at hdelivers hfits
  have hlast := hfits.mp (hdelivers.final_eq hsends.delivers)
  have hend := (keeps_burst size).endOffset
  rw [List.length_replicate] at hend
  rw [hrun] at hlast
  simp only [rings, LastFits, hend, startOffset_burst hsize] at hlast
  omega

/-- One byte more than a chunk. -/
theorem not_sendsRetainedLog_burst : ¬∀ (start : ℕ) (polls : List Poll),
    (eventStream .empty start polls).ending = .terminal →
      SendsRetainedLog (written (eventStream .empty start polls).made) start
        (rings .empty (eventStream .empty start polls).made) (eventStream .empty start polls).sent := by
  intro hall
  have hsize : eventChunkBytes + 1 ≤ maxSafeInteger := by decide
  obtain ⟨logs, hrun⟩ := eventStream_burst hsize
  exact not_sends_burst (Nat.lt_succ_self _) (by decide) (hall 0 _ (by rw [hrun]))

end Burst

end Bloom
