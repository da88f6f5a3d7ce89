import BloomWorkspaces.Jobs.EventStream
import BloomWorkspaces.Library.TextDecoder
import BloomWorkspaces.Library.Transition

/-!
# The log of a job in the browser

The page that has started a job follows it by the events of the control plane, and by polls once the events
have failed, while the job writes, the handler of the events polls the guest, and answers to a cancel come in
between. What the page shows is the log from its start on, with a mark wherever the ring of the guest has
dropped what was not read.
-/

namespace Bloom

/-- What the page reads of a `JobStatus`. -/
structure JobStatusValue where
  state : JobState
  logs : LogChunk
  deriving DecidableEq

/-- `JobStatus.parse` -/
def parseJobStatus (reply : JobReply) : Option JobStatusValue :=
  if isJobStatus reply then reply.logs.toOption.map fun logs => ⟨reply.state, logs⟩ else none

/-- A text that `appendJobLog` has added to `job-output`. -/
inductive LogEntry
  | log (text : List Char)
  | truncated
  deriving DecidableEq

namespace LogEntry

def content : LogEntry → List Char
  | log text => text
  | truncated => "\n[older logs were truncated]\n".toList

def isTruncated : LogEntry → Bool
  | log _ => false
  | truncated => true

def logText : LogEntry → List Char
  | log text => text
  | truncated => []

end LogEntry

/-- `jobEvents` is whether there is an `EventSource`, and `jobPollTimer` whether the timer is set. -/
structure JobPage where
  activeJob : Option JobStatusValue
  jobLogOffset : ℕ
  jobLogDecoder : TextDecoder
  output : List LogEntry
  jobEvents : Bool
  jobPollTimer : Bool

namespace JobPage

/-- The page as `startJob` resets it. -/
def reset : JobPage := ⟨none, 0, .new, [], false, false⟩

def textContent (page : JobPage) : List Char := page.output.flatMap (·.content)

/-- The output without the marks. -/
def logText (page : JobPage) : List Char := page.output.flatMap (·.logText)

def appendJobLog (page : JobPage) (entry : LogEntry) : JobPage :=
  { page with output := page.output ++ [entry] }

def closeJobStream (page : JobPage) : JobPage := { page with jobEvents := false, jobPollTimer := false }

/-- `appendJobLog(decodeBase64(…))` and the new offset. -/
def appendData (page : JobPage) (logs : LogChunk) : JobPage :=
  let decoded := page.jobLogDecoder.decode (Base64.decode logs.data) !logs.eof
  { page.appendJobLog (.log decoded.1) with jobLogDecoder := decoded.2, jobLogOffset := logs.nextOffset }

def applyJobStatus (page : JobPage) (status : JobStatusValue) : JobPage :=
  let logs := status.logs
  let page := { page with activeJob := some status }
  let page :=
    if logs.truncatedBefore ∧ page.jobLogOffset < logs.offset then page.appendJobLog .truncated else page
  let page :=
    if page.jobLogOffset < logs.nextOffset ∧ logs.data ≠ [] then page.appendData logs else page
  if status.state.isTerminal then page.closeJobStream else page

/-- The state of the last status is terminal, or there is none. -/
def isOver (page : JobPage) : Bool := page.activeJob.all (·.state.isTerminal)

end JobPage

/-- A request of the page: it is `asked` until the guest has answered it. -/
inductive PageRequest (α β : Type)
  | idle
  | asked (argument : α)
  | answered (reply : β)

/-- The page, and the job that it has started. `handler` is the cursor of the loop that sends the events,
`events` are those under way, `cancelling` counts the cancels that the guest has not answered, and `cancelled`
are their answers under way. `written` is history: all that the job has written. -/
structure JobWatch where
  job : Job
  written : List UInt8
  starting : PageRequest Unit JobReply
  handler : Option ℕ
  events : List JobStatusValue
  poll : PageRequest ℕ JobReply
  cancelling : ℕ
  cancelled : List JobReply
  page : JobPage

namespace JobWatch

/-- `startJob` has sent its request. -/
def begin (job : Job) : JobWatch := ⟨job, [], .asked (), none, [], .idle, 0, [], .reset⟩

def write (w : JobWatch) (chunk : List UInt8) : JobWatch :=
  { w with job := { w.job with logs := w.job.logs.append chunk }, written := w.written ++ chunk }

/-- `streamJob`, which the answer to the start leads to. -/
def streamJob (w : JobWatch) (page : JobPage) : JobWatch :=
  { w with
    starting := .idle
    handler := some page.jobLogOffset
    page := { page.closeJobStream with jobEvents := true } }

/-- A turn of the loop in the handler of the events. -/
def sendEvent (w : JobWatch) (cursor : ℕ) : JobWatch :=
  (parseJobStatus (JobEngine.statusOfInner w.job cursor eventChunkBytes)).elim { w with handler := none }
    fun status =>
      { w with
        events := w.events ++ [status]
        handler := if status.state.isTerminal then none else some status.logs.nextOffset }

/-- The poll of `fallbackJobPolling` begins with the offset of the page. -/
def startPoll (w : JobWatch) (page : JobPage) : JobWatch :=
  { w with page := page, poll := .asked page.jobLogOffset }

/-- `jobEvents.onerror` -/
def onError (w : JobWatch) : JobWatch :=
  if w.page.isOver then { w with page := w.page.closeJobStream } else w.startPoll w.page.closeJobStream

def pollArrives (w : JobWatch) (reply : JobReply) : JobWatch :=
  (parseJobStatus reply).elim { w with poll := .idle } fun status =>
    let page := w.page.applyJobStatus status
    { w with
      poll := .idle
      page := if status.state.isTerminal then page else { page with jobPollTimer := true } }

def answerCancel (w : JobWatch) (logOffset : ℕ) : JobWatch :=
  { w with
    cancelling := w.cancelling - 1
    cancelled := w.cancelled ++ [JobEngine.statusOfInner w.job logOffset 1] }

/-- The guest's `cancel`: what the job writes between the reading of the end of its log and the slice is
`chunk`. -/
def cancelAnswers (w : JobWatch) (chunk : List UInt8) : JobWatch :=
  (if w.job.state.isTerminal then w else w.write chunk).answerCancel w.job.logs.endOffset

def cancelArrives (w : JobWatch) (k : ℕ) (reply : JobReply) : JobWatch :=
  { w with
    cancelled := w.cancelled.eraseIdx k
    page := ((parseJobStatus reply).map w.page.applyJobStatus).getD w.page }

inductive Event
  | write (chunk : List UInt8)
  | finish (outcome : JobOutcome) (now : ℕ)
  | startAnswers
  | startArrives
  | handlerPolls
  | handlerFails
  | eventArrives
  | eventsFail
  | pollAnswers
  | pollArrives
  | pollFails
  | timerFires
  | cancel
  | cancelAnswers (chunk : List UInt8)
  | cancelArrives (k : ℕ)

/-- A job that has ended writes no more. A start that is refused leads to nothing. -/
def step (w : JobWatch) : Event → Option JobWatch
  | .write chunk => if w.job.state.isTerminal then none else some (w.write chunk)
  | .finish outcome now =>
    if w.job.state.isTerminal then none else some { w with job := JobEngine.finishJob w.job outcome now }
  | .startAnswers =>
    match w.starting with
    | .asked _ => some { w with starting := .answered (JobEngine.statusOfInner w.job 0 maxLogChunkBytes) }
    | _ => none
  | .startArrives =>
    match w.starting with
    | .answered reply => (parseJobStatus reply).map fun status => w.streamJob (w.page.applyJobStatus status)
    | _ => none
  | .handlerPolls => w.handler.map w.sendEvent
  | .handlerFails => w.handler.map fun _ => { w with handler := none }
  | .eventArrives =>
    match w.events with
    | status :: events =>
      if w.page.jobEvents then some { w with events := events, page := w.page.applyJobStatus status } else none
    | [] => none
  | .eventsFail => if w.page.jobEvents then some w.onError else none
  | .pollAnswers =>
    match w.poll with
    | .asked offset =>
      some { w with poll := .answered (JobEngine.statusOfInner w.job offset maxLogChunkBytes) }
    | _ => none
  | .pollArrives =>
    match w.poll with
    | .answered reply => some (w.pollArrives reply)
    | _ => none
  | .pollFails => some { w with poll := .idle }
  | .timerFires =>
    if w.page.jobPollTimer then some (w.startPoll { w.page with jobPollTimer := false }) else none
  | .cancel => if w.page.isOver then none else some { w with cancelling := w.cancelling + 1 }
  | .cancelAnswers chunk => if w.cancelling = 0 then none else some (w.cancelAnswers chunk)
  | .cancelArrives k => (w.cancelled[k]?).map fun reply => w.cancelArrives k reply

end JobWatch

/-! ### What a page has been sent -/

/-- The page has been sent `received` and stands at `cursor` of what the job has written; `marks` has a `false`
for each piece, and a `true` for each gap before one. A gap is only where the ring had dropped the bytes. -/
inductive Received (written : List UInt8) : List Bool → List UInt8 → ℕ → Prop
  | nil : Received written [] [] 0
  | next {marks : List Bool} {received bytes : List UInt8} {cursor : ℕ}
      (h : Received written marks received cursor) (hbytes : bytes <+: written.drop cursor) :
      Received written (marks ++ [false]) (received ++ bytes) (cursor + bytes.length)
  | gap {marks : List Bool} {received bytes : List UInt8} {cursor offset : ℕ}
      (h : Received written marks received cursor) (hcursor : cursor < offset)
      (hdropped : offset + maxLogBytes ≤ written.length) (hbytes : bytes <+: written.drop offset) :
      Received written (marks ++ [true, false]) (received ++ bytes) (offset + bytes.length)

namespace Received

variable {written chunk received : List UInt8} {marks : List Bool} {cursor : ℕ}

lemma append (h : Received written marks received cursor) (chunk : List UInt8) :
    Received (written ++ chunk) marks received cursor := by
  induction h with
  | nil => exact .nil
  | next _ hbytes ih =>
    refine ih.next (hbytes.trans ?_)
    rw [List.drop_append]
    exact List.prefix_append _ _
  | gap _ hcursor hdropped hbytes ih =>
    refine ih.gap hcursor ?_ (hbytes.trans ?_)
    · rw [List.length_append]
      omega
    · rw [List.drop_append]
      exact List.prefix_append _ _

/-- Without gaps it is the log. -/
lemma eq_take (h : Received written marks received cursor) (hmarks : true ∉ marks) :
    received = written.take cursor := by
  induction h with
  | nil => rfl
  | next _ hbytes ih =>
    have hfront := ih fun hmem => hmarks (List.mem_append_left _ hmem)
    rw [List.take_add, ← hfront, ← List.prefix_iff_eq_take.mp hbytes]
  | gap => exact absurd (List.mem_append_right _ List.mem_cons_self) hmarks

end Received

/-- What the page shows is the text of what it has been sent, but for at most one character that is not
complete. The pieces follow each other in the log, and where they do not, the page shows that. -/
structure ShowsLog (w : JobWatch) : Prop where
  log : ∃ received missing, missing.length ≤ 1 ∧
    Received w.written (w.page.output.map (·.isTruncated)) received w.page.jobLogOffset ∧
      w.page.logText ++ missing = TextDecoder.dropBom (Utf8.toText received)
  whole : (∀ entry ∈ w.page.output, entry.isTruncated = false) → ∃ missing, missing.length ≤ 1 ∧
    w.page.textContent ++ missing = TextDecoder.dropBom (Utf8.toText (w.written.take w.page.jobLogOffset))

/-! ### Answers -/

/-- The logs answer a request from `cursor` on; `ended` is whether the job has ended. -/
structure Answers (written : List UInt8) (ended : Bool) (cursor : ℕ) (logs : LogChunk) : Prop where
  le : cursor ≤ logs.offset
  data : ∃ bytes, logs.data = Base64.encode bytes ∧ bytes <+: written.drop logs.offset ∧
    logs.nextOffset = logs.offset + bytes.length ∧ (cursor < logs.offset → bytes ≠ [])
  truncated : logs.truncatedBefore = true ↔ cursor < logs.offset
  dropped : cursor < logs.offset → logs.offset + maxLogBytes ≤ written.length
  eof : logs.eof = true → ended = true ∧ logs.nextOffset = written.length

lemma Answers.append {written : List UInt8} {ended ended' : Bool} {cursor : ℕ} {logs : LogChunk}
    (h : Answers written ended cursor logs) (chunk : List UInt8) (hchunk : ended = true → chunk = [])
    (hover : ended = true → ended' = true) : Answers (written ++ chunk) ended' cursor logs where
  le := h.le
  data := by
    obtain ⟨bytes, hdata, hbytes, hnext, hgap⟩ := h.data
    refine ⟨bytes, hdata, hbytes.trans ?_, hnext, hgap⟩
    rw [List.drop_append]
    exact List.prefix_append _ _
  truncated := h.truncated
  dropped hlt := by
    rw [List.length_append]
    exact Nat.le_trans (h.dropped hlt) (Nat.le_add_right _ _)
  eof heof := by
    obtain ⟨hend, hnext⟩ := h.eof heof
    rw [hchunk hend, List.append_nil]
    exact ⟨hover hend, hnext⟩

/-- A slice of the ring of the job answers. -/
lemma answers_of_slice {written : List UInt8} {ring : LogRing} {cursor maximum : ℕ} {ended : Bool}
    {logs : LogChunk} (hkeeps : ring.Keeps written) (hstart : ring.startOffset = written.length - maxLogBytes)
    (hmaximum : 0 < maximum) (h : ring.slice cursor maximum ended = .ok logs) :
    Answers written ended cursor logs := by
  obtain ⟨hoffset, hnext, hle, hdata⟩ := hkeeps.slice h
  have hend := hkeeps.endOffset
  rw [LogRing.slice] at h
  split_ifs at h with hbeyond
  obtain rfl := Except.ok.inj h
  simp only [Base64.decode_encode] at hoffset hnext hle hdata
  have hgap : cursor < max cursor ring.startOffset → ring.startOffset + maxLogBytes = written.length := by
    intro hlt
    omega
  refine ⟨Nat.le_max_left _ _, ⟨_, rfl, ?_, rfl, ?_⟩, ?_, ?_, ?_⟩
  · rw [hdata, List.drop_take]
    exact List.take_prefix _ _
  · intro hlt hnil
    change cursor < max cursor ring.startOffset at hlt
    simp only [hnil, List.length_nil, Nat.add_zero] at hnext
    have hsize : 0 < maxLogBytes := by decide
    have hfull := hgap hlt
    omega
  · change decide (cursor < ring.startOffset) = true ↔ cursor < max cursor ring.startOffset
    rw [decide_eq_true_eq]
    omega
  · intro hlt
    change cursor < max cursor ring.startOffset at hlt
    change max cursor ring.startOffset + maxLogBytes ≤ written.length
    have hfull := hgap hlt
    omega
  · intro heof
    simp only [Bool.and_eq_true, decide_eq_true_eq] at heof
    exact ⟨heof.1, heof.2.trans hend⟩

lemma answers_of_parse {written : List UInt8} {job : Job} {cursor maximum : ℕ} {status : JobStatusValue}
    (hkeeps : job.logs.Keeps written) (hstart : job.logs.startOffset = written.length - maxLogBytes)
    (hmaximum : 0 < maximum)
    (h : parseJobStatus (JobEngine.statusOfInner job cursor maximum) = some status) :
    Answers written job.state.isTerminal cursor status.logs := by
  rw [parseJobStatus] at h
  split_ifs at h
  obtain ⟨logs, hlogs, rfl⟩ := Option.map_eq_some_iff.mp h
  rw [JobEngine.statusOfInner] at hlogs
  simp only at hlogs
  split at hlogs
  · next chunk hchunk =>
    obtain rfl := Option.some.inj hlogs
    exact answers_of_slice hkeeps hstart hmaximum hchunk
  · cases hlogs

/-! ### The page -/

namespace JobPage

variable {page : JobPage} {written received : List UInt8} {ended : Bool} {status : JobStatusValue}

def marks (page : JobPage) : List Bool := page.output.map (·.isTruncated)

/-- The page shows what it has been sent. After the last piece of the log of a job the decoder has nothing more
to read. -/
def Shows (written : List UInt8) (ended : Bool) (page : JobPage) : Prop :=
  ∃ received, Received written page.marks received page.jobLogOffset ∧
    (page.jobLogDecoder.Reads received page.logText ∨
      page.logText = TextDecoder.dropBom (Utf8.toText received) ∧ ended = true ∧
        page.jobLogOffset = written.length)

lemma shows_reset : reset.Shows [] ended := ⟨[], .nil, Or.inl TextDecoder.reads_new⟩

lemma Shows.append (h : page.Shows written ended) (chunk : List UInt8) (hchunk : ended = true → chunk = [])
    {ended' : Bool} (hover : ended = true → ended' = true) : page.Shows (written ++ chunk) ended' := by
  obtain ⟨received, hreceived, hreads | ⟨htext, hend, hoffset⟩⟩ := h
  · exact ⟨received, hreceived.append chunk, Or.inl hreads⟩
  · refine ⟨received, hreceived.append chunk, Or.inr ⟨htext, hover hend, ?_⟩⟩
    rw [hchunk hend, List.append_nil]
    exact hoffset

/-- Only the output, the offset and the decoder matter. -/
lemma Shows.congr {page' : JobPage} (h : page.Shows written ended) (houtput : page'.output = page.output)
    (hoffset : page'.jobLogOffset = page.jobLogOffset) (hdecoder : page'.jobLogDecoder = page.jobLogDecoder) :
    page'.Shows written ended := by
  rw [Shows, marks, logText] at h ⊢
  rw [houtput, hoffset, hdecoder]
  exact h

/-- The part of `applyJobStatus` that shows the log. -/
def showLogs (page : JobPage) (logs : LogChunk) : JobPage :=
  let page :=
    if logs.truncatedBefore ∧ page.jobLogOffset < logs.offset then page.appendJobLog .truncated else page
  if page.jobLogOffset < logs.nextOffset ∧ logs.data ≠ [] then page.appendData logs else page

lemma applyJobStatus_eq (page : JobPage) (status : JobStatusValue) :
    page.applyJobStatus status =
      if status.state.isTerminal then ({ page with activeJob := some status }.showLogs status.logs).closeJobStream
      else { page with activeJob := some status }.showLogs status.logs := rfl

lemma marks_appendData (page : JobPage) (logs : LogChunk) :
    (page.appendData logs).marks = page.marks ++ [false] := by
  rw [marks, marks, appendData, appendJobLog, List.map_append]
  rfl

lemma logText_appendData (page : JobPage) (logs : LogChunk) :
    (page.appendData logs).logText =
      page.logText ++ (page.jobLogDecoder.decode (Base64.decode logs.data) !logs.eof).1 := by
  simp [logText, appendData, appendJobLog, LogEntry.logText]

lemma marks_mark (page : JobPage) : (page.appendJobLog .truncated).marks = page.marks ++ [true] := by
  rw [marks, marks, appendJobLog, List.map_append]
  rfl

lemma logText_mark (page : JobPage) : (page.appendJobLog .truncated).logText = page.logText := by
  simp [logText, appendJobLog, LogEntry.logText]

/-- A piece that begins where the page stands, or where its mark says. -/
lemma shows_appendData {logs : LogChunk} {bytes : List UInt8}
    (hreads : page.jobLogDecoder.Reads received page.logText) (hdata : logs.data = Base64.encode bytes)
    (hreceived : Received written (page.marks ++ [false]) (received ++ bytes) logs.nextOffset)
    (heof : logs.eof = true → ended = true ∧ logs.nextOffset = written.length) :
    (page.appendData logs).Shows written ended := by
  refine ⟨received ++ bytes, ?_, ?_⟩
  · rw [marks_appendData]
    exact hreceived
  · rw [logText_appendData, hdata, Base64.decode_encode]
    by_cases hlast : logs.eof = true
    · rw [hlast]
      exact Or.inr ⟨hreads.decode_flush bytes, heof hlast⟩
    · rw [Bool.not_eq_true] at hlast
      rw [hlast]
      refine Or.inl ?_
      rw [appendData, hdata, Base64.decode_encode, hlast]
      exact hreads.decode_stream bytes

lemma Shows.showLogs {logs : LogChunk} (h : page.Shows written ended)
    (hlogs : Answers written ended page.jobLogOffset logs) :
    (page.showLogs logs).Shows written ended ∧ (page.showLogs logs).jobLogOffset = logs.nextOffset := by
  obtain ⟨bytes, hdata, hbytes, hnext, hgap⟩ := hlogs.data
  have hle := hlogs.le
  rw [JobPage.showLogs]
  by_cases hnil : bytes = []
  · have hoffset : page.jobLogOffset = logs.offset := by
      by_contra hne
      exact hgap (by omega) hnil
    have hmark : ¬(logs.truncatedBefore = true ∧ page.jobLogOffset < logs.offset) := by omega
    rw [hnil, List.length_nil, Nat.add_zero] at hnext
    simp only [if_neg hmark]
    rw [if_neg (by omega)]
    exact ⟨h, by omega⟩
  have hlength : 0 < bytes.length := List.length_pos_iff.mpr hnil
  have hdata' : logs.data ≠ [] := by
    intro hempty
    have hdecode := congrArg Base64.decode (hempty.symm.trans hdata)
    rw [Base64.decode_encode] at hdecode
    exact hnil hdecode.symm
  obtain ⟨received, hreceived, hreads | ⟨-, -, hend⟩⟩ := h
  · by_cases hlt : page.jobLogOffset < logs.offset
    · have hmark : logs.truncatedBefore = true ∧ page.jobLogOffset < logs.offset :=
        ⟨hlogs.truncated.mpr hlt, hlt⟩
      simp only [if_pos hmark]
      have hmore : (page.appendJobLog .truncated).jobLogOffset < logs.nextOffset ∧ logs.data ≠ [] :=
        ⟨by change page.jobLogOffset < logs.nextOffset; omega, hdata'⟩
      rw [if_pos hmore]
      have hmarked : (page.appendJobLog .truncated).jobLogDecoder.Reads received
          (page.appendJobLog .truncated).logText := by
        rw [logText_mark]
        exact hreads
      refine ⟨shows_appendData hmarked hdata ?_ hlogs.eof, rfl⟩
      rw [marks_mark, hnext, List.append_assoc]
      exact hreceived.gap hlt (hlogs.dropped hlt) hbytes
    · have hmark : ¬(logs.truncatedBefore = true ∧ page.jobLogOffset < logs.offset) := fun h => hlt h.2
      have hoffset : logs.offset = page.jobLogOffset := by omega
      simp only [if_neg hmark]
      rw [if_pos ⟨by omega, hdata'⟩]
      refine ⟨shows_appendData hreads hdata ?_ hlogs.eof, rfl⟩
      rw [hnext, hoffset]
      rw [hoffset] at hbytes
      exact hreceived.next hbytes
  · -- the log has ended where the page stands
    have hprefix := hbytes.length_le
    rw [List.length_drop] at hprefix
    omega

lemma Shows.applyJobStatus (h : page.Shows written ended)
    (hlogs : Answers written ended page.jobLogOffset status.logs) :
    (page.applyJobStatus status).Shows written ended ∧
      (page.applyJobStatus status).jobLogOffset = status.logs.nextOffset := by
  have hactive : { page with activeJob := some status }.Shows written ended := h.congr rfl rfl rfl
  have hshow := hactive.showLogs hlogs
  rw [applyJobStatus_eq]
  split
  · exact ⟨hshow.1.congr rfl rfl rfl, hshow.2⟩
  · exact hshow

/-- An answer without data and without a mark changes nothing of the log. -/
lemma Shows.applyJobStatus_empty (h : page.Shows written ended) (hdata : status.logs.data = [])
    (hmark : status.logs.truncatedBefore = false) :
    (page.applyJobStatus status).Shows written ended ∧
      (page.applyJobStatus status).jobLogOffset = page.jobLogOffset := by
  have hshow : { page with activeJob := some status }.showLogs status.logs =
      { page with activeJob := some status } := by
    rw [JobPage.showLogs, hmark, hdata]
    simp
  rw [applyJobStatus_eq, hshow]
  split
  · exact ⟨h.congr rfl rfl rfl, rfl⟩
  · exact ⟨h.congr rfl rfl rfl, rfl⟩

lemma showLogs_jobEvents (page : JobPage) (logs : LogChunk) :
    (page.showLogs logs).jobEvents = page.jobEvents ∧ (page.showLogs logs).jobPollTimer = page.jobPollTimer := by
  rw [showLogs]
  split_ifs <;> exact ⟨rfl, rfl⟩

lemma jobEvents_applyJobStatus (page : JobPage) (status : JobStatusValue) :
    (page.applyJobStatus status).jobEvents = (page.jobEvents && !status.state.isTerminal) := by
  rw [applyJobStatus_eq]
  split
  · next hterminal =>
    rw [hterminal, Bool.not_true, Bool.and_false]
    rfl
  · next hterminal =>
    rw [Bool.eq_false_iff.mpr hterminal, Bool.not_false, Bool.and_true, (showLogs_jobEvents _ _).1]

lemma jobPollTimer_applyJobStatus (page : JobPage) (status : JobStatusValue) :
    (page.applyJobStatus status).jobPollTimer = (page.jobPollTimer && !status.state.isTerminal) := by
  rw [applyJobStatus_eq]
  split
  · next hterminal =>
    rw [hterminal, Bool.not_true, Bool.and_false]
    rfl
  · next hterminal =>
    rw [Bool.eq_false_iff.mpr hterminal, Bool.not_false, Bool.and_true, (showLogs_jobEvents _ _).2]

end JobPage

/-! ### Runs -/

namespace JobWatch

open Transition

variable {w w' : JobWatch} {written : List UInt8} {ended : Bool} {handler : Option ℕ} {cursor : ℕ}

/-- The events follow each other, and the handler goes on after the last one. -/
def Follow (written : List UInt8) (ended : Bool) (handler : Option ℕ) : ℕ → List JobStatusValue → Prop
  | cursor, [] => ∀ next, handler = some next → next = cursor
  | cursor, status :: events =>
    Answers written ended cursor status.logs ∧ Follow written ended handler status.logs.nextOffset events

lemma Follow.append {events : List JobStatusValue} (h : Follow written ended handler cursor events)
    (chunk : List UInt8) (hchunk : ended = true → chunk = []) {ended' : Bool}
    (hover : ended = true → ended' = true) : Follow (written ++ chunk) ended' handler cursor events := by
  induction events generalizing cursor with
  | nil => exact h
  | cons status events ih => exact ⟨h.1.append chunk hchunk hover, ih h.2⟩

lemma Follow.stop {events : List JobStatusValue} (h : Follow written ended handler cursor events) :
    Follow written ended none cursor events := by
  induction events generalizing cursor with
  | nil => exact fun _ hnone => absurd hnone (Option.some_ne_none _).symm
  | cons status events ih => exact ⟨h.1, ih h.2⟩

/-- The handler sends one more event. -/
lemma Follow.snoc {events : List JobStatusValue} {next : ℕ} {status : JobStatusValue}
    (h : Follow written ended (some next) cursor events) (hlogs : Answers written ended next status.logs)
    {handler' : Option ℕ} (hhandler : ∀ n, handler' = some n → n = status.logs.nextOffset) :
    Follow written ended handler' cursor (events ++ [status]) := by
  induction events generalizing cursor with
  | nil =>
    obtain rfl := h next rfl
    exact ⟨hlogs, hhandler⟩
  | cons first events ih => exact ⟨h.1, ih h.2⟩

/-- What is under way to the page from a poll. -/
def PollFits (written : List UInt8) (ended : Bool) (offset : ℕ) : PageRequest ℕ JobReply → Prop
  | .idle => True
  | .asked argument => argument = offset
  | .answered reply => ∀ status, parseJobStatus reply = some status → Answers written ended offset status.logs

/-- The answer to a cancel that no byte has come into. -/
def Silent (reply : JobReply) : Prop :=
  ∀ status, parseJobStatus reply = some status →
    status.logs.data = [] ∧ status.logs.truncatedBefore = false

/-- Nothing but the start is under way. -/
structure Unstarted (w : JobWatch) : Prop where
  page : w.page = .reset
  handler : w.handler = none
  events : w.events = []
  poll : w.poll = .idle
  cancelling : w.cancelling = 0
  cancelled : w.cancelled = []

structure Inv (w : JobWatch) : Prop where
  keeps : w.job.logs.Keeps w.written
  start : w.job.logs.startOffset = w.written.length - maxLogBytes
  shows : w.page.Shows w.written w.job.state.isTerminal
  unstarted : w.starting ≠ .idle → Unstarted w
  starting : ∀ reply, w.starting = .answered reply → ∀ status, parseJobStatus reply = some status →
    Answers w.written w.job.state.isTerminal 0 status.logs
  events : w.page.jobEvents = true →
    Follow w.written w.job.state.isTerminal w.handler w.page.jobLogOffset w.events ∧ w.poll = .idle
  poll : PollFits w.written w.job.state.isTerminal w.page.jobLogOffset w.poll
  timer : w.page.jobPollTimer = true → w.page.jobEvents = false ∧ w.poll = .idle
  cancelled : ∀ reply ∈ w.cancelled, Silent reply

lemma inv_begin {job : Job} (hlogs : job.logs = .empty) : (begin job).Inv where
  keeps := by
    change job.logs.Keeps []
    rw [hlogs]
    exact LogRing.Keeps.empty
  start := by
    change job.logs.startOffset = 0 - maxLogBytes
    rw [hlogs]
    rfl
  shows := JobPage.shows_reset
  unstarted _ := ⟨rfl, rfl, rfl, rfl, rfl, rfl⟩
  starting _ h := by cases h
  events h := by cases h
  poll := trivial
  timer h := by cases h
  cancelled _ h := by cases h

/-- The job writes or ends. -/
lemma Inv.grow (h : w.Inv) {job : Job} {chunk : List UInt8}
    (hkeeps : job.logs.Keeps (w.written ++ chunk))
    (hstart : job.logs.startOffset = (w.written ++ chunk).length - maxLogBytes)
    (hchunk : w.job.state.isTerminal = true → chunk = [])
    (hover : w.job.state.isTerminal = true → job.state.isTerminal = true) :
    Inv { w with job := job, written := w.written ++ chunk } where
  keeps := hkeeps
  start := hstart
  shows := h.shows.append chunk hchunk hover
  unstarted hstarting :=
    have hunstarted := h.unstarted hstarting
    ⟨hunstarted.page, hunstarted.handler, hunstarted.events, hunstarted.poll, hunstarted.cancelling,
      hunstarted.cancelled⟩
  starting reply hreply status hstatus := (h.starting reply hreply status hstatus).append chunk hchunk hover
  events hevents := ⟨(h.events hevents).1.append chunk hchunk hover, (h.events hevents).2⟩
  poll := by
    have hpoll := h.poll
    cases hrequest : w.poll with
    | idle => trivial
    | asked argument =>
      rw [hrequest] at hpoll
      exact hpoll
    | answered reply =>
      rw [hrequest] at hpoll
      exact fun status hstatus => (hpoll status hstatus).append chunk hchunk hover
  timer := h.timer
  cancelled := h.cancelled

lemma startOffset_append {ring : LogRing} (hkeeps : ring.Keeps written)
    (hstart : ring.startOffset = written.length - maxLogBytes) (chunk : List UInt8) :
    (ring.append chunk).startOffset = (written ++ chunk).length - maxLogBytes := by
  rw [LogRing.append_startOffset, List.length_append, List.length_append, hkeeps.buf, List.length_drop, hstart]
  omega

lemma inv_write (h : w.Inv) (hrunning : ¬w.job.state.isTerminal = true) (chunk : List UInt8) :
    (w.write chunk).Inv :=
  h.grow (h.keeps.append chunk) (startOffset_append h.keeps h.start chunk) (fun hover => absurd hover hrunning)
    fun hover => hover

lemma inv_finish (h : w.Inv) (outcome : JobOutcome) (now : ℕ) :
    Inv { w with job := JobEngine.finishJob w.job outcome now } := by
  have hgrow := @Inv.grow w h (JobEngine.finishJob w.job outcome now) []
  rw [List.append_nil] at hgrow
  exact hgrow h.keeps h.start (fun _ => rfl) fun _ => outcome.terminal

/-- What is reported of the job from a cursor answers. -/
lemma Inv.answers (h : w.Inv) {maximum : ℕ} (hmaximum : 0 < maximum) {status : JobStatusValue}
    (hstatus : parseJobStatus (JobEngine.statusOfInner w.job cursor maximum) = some status) :
    Answers w.written w.job.state.isTerminal cursor status.logs :=
  answers_of_parse h.keeps h.start hmaximum hstatus

lemma inv_startAnswers (h : w.Inv) (hstarting : w.starting = .asked ()) :
    Inv { w with starting := .answered (JobEngine.statusOfInner w.job 0 maxLogChunkBytes) } where
  keeps := h.keeps
  start := h.start
  shows := h.shows
  unstarted _ := by
    have hunstarted := h.unstarted (by rw [hstarting]; simp)
    exact ⟨hunstarted.page, hunstarted.handler, hunstarted.events, hunstarted.poll, hunstarted.cancelling,
      hunstarted.cancelled⟩
  starting reply hreply status hstatus := by
    obtain rfl := PageRequest.answered.inj hreply
    exact h.answers (by decide) hstatus
  events := h.events
  poll := h.poll
  timer := h.timer
  cancelled := h.cancelled

lemma inv_startArrives (h : w.Inv) {reply : JobReply} (hstarting : w.starting = .answered reply)
    {status : JobStatusValue} (hstatus : parseJobStatus reply = some status) :
    (w.streamJob (w.page.applyJobStatus status)).Inv := by
  have hunstarted := h.unstarted (by rw [hstarting]; simp)
  have hlogs := h.starting reply hstarting status hstatus
  have hoffset : w.page.jobLogOffset = 0 := by
    rw [hunstarted.page]
    rfl
  rw [← hoffset] at hlogs
  have happly := h.shows.applyJobStatus hlogs
  refine ⟨h.keeps, h.start, happly.1.congr rfl rfl rfl, fun hidle => absurd rfl hidle, ?_, ?_, ?_, ?_,
    h.cancelled⟩
  · intro reply' hreply'
    cases hreply'
  · intro _
    change Follow w.written w.job.state.isTerminal (some (w.page.applyJobStatus status).jobLogOffset)
      (w.page.applyJobStatus status).jobLogOffset w.events ∧ w.poll = .idle
    rw [hunstarted.events]
    exact ⟨fun next hnext => (Option.some.inj hnext).symm, hunstarted.poll⟩
  · change PollFits _ _ _ w.poll
    rw [hunstarted.poll]
    trivial
  · intro htimer
    cases htimer

lemma inv_sendEvent (h : w.Inv) (hhandler : w.handler = some cursor) : (w.sendEvent cursor).Inv := by
  have hstarted : w.starting = .idle := by
    by_contra hne
    rw [(h.unstarted hne).handler] at hhandler
    cases hhandler
  rw [sendEvent]
  cases hstatus : parseJobStatus (JobEngine.statusOfInner w.job cursor eventChunkBytes) with
  | some status =>
    rw [Option.elim_some]
    have hlogs := h.answers (by decide) hstatus
    refine ⟨h.keeps, h.start, h.shows, fun hne => absurd hstarted hne, h.starting, ?_, h.poll, h.timer,
      h.cancelled⟩
    intro hevents
    obtain ⟨hfollow, hidle⟩ := h.events hevents
    rw [hhandler] at hfollow
    refine ⟨hfollow.snoc hlogs fun next hnext => ?_, hidle⟩
    by_cases hterminal : status.state.isTerminal = true
    · rw [if_pos hterminal] at hnext
      cases hnext
    · rw [if_neg hterminal] at hnext
      exact (Option.some.inj hnext).symm
  | none =>
    rw [Option.elim_none]
    refine ⟨h.keeps, h.start, h.shows, fun hne => absurd hstarted hne, h.starting, ?_, h.poll, h.timer,
      h.cancelled⟩
    exact fun hevents => ⟨(h.events hevents).1.stop, (h.events hevents).2⟩

lemma inv_handlerFails (h : w.Inv) : Inv { w with handler := none } where
  keeps := h.keeps
  start := h.start
  shows := h.shows
  unstarted hne := { h.unstarted hne with handler := rfl }
  starting := h.starting
  events hevents := ⟨(h.events hevents).1.stop, (h.events hevents).2⟩
  poll := h.poll
  timer := h.timer
  cancelled := h.cancelled

lemma Inv.started_of_jobEvents (h : w.Inv) (hevents : w.page.jobEvents = true) : w.starting = .idle := by
  by_contra hne
  rw [(h.unstarted hne).page] at hevents
  cases hevents

lemma Inv.started_of_poll (h : w.Inv) (hpoll : w.poll ≠ .idle) : w.starting = .idle := by
  by_contra hne
  exact hpoll (h.unstarted hne).poll

lemma Inv.closed_of_poll (h : w.Inv) (hpoll : w.poll ≠ .idle) :
    w.page.jobEvents = false ∧ w.page.jobPollTimer = false := by
  constructor
  · exact Bool.eq_false_iff.mpr fun hevents => hpoll (h.events hevents).2
  · exact Bool.eq_false_iff.mpr fun htimer => hpoll (h.timer htimer).2

lemma inv_eventArrives (h : w.Inv) {status : JobStatusValue} {events : List JobStatusValue}
    (hevents : w.events = status :: events) (hopen : w.page.jobEvents = true) :
    Inv { w with events := events, page := w.page.applyJobStatus status } := by
  obtain ⟨hfollow, hidle⟩ := h.events hopen
  rw [hevents] at hfollow
  have happly := h.shows.applyJobStatus hfollow.1
  refine ⟨h.keeps, h.start, happly.1, fun hne => absurd (h.started_of_jobEvents hopen) hne, h.starting, ?_, ?_,
    ?_, h.cancelled⟩
  · intro _
    change Follow _ _ _ (w.page.applyJobStatus status).jobLogOffset events ∧ _
    rw [happly.2]
    exact ⟨hfollow.2, hidle⟩
  · change PollFits _ _ _ w.poll
    rw [hidle]
    trivial
  · intro htimer
    change (w.page.applyJobStatus status).jobPollTimer = true at htimer
    rw [JobPage.jobPollTimer_applyJobStatus, Bool.and_eq_true] at htimer
    have hclosed := (h.timer htimer.1).1
    rw [hopen] at hclosed
    cases hclosed

lemma inv_onError (h : w.Inv) (hopen : w.page.jobEvents = true) : w.onError.Inv := by
  have hstarted := h.started_of_jobEvents hopen
  rw [onError]
  split
  · refine ⟨h.keeps, h.start, h.shows.congr rfl rfl rfl, fun hne => absurd hstarted hne, h.starting, ?_, h.poll,
      ?_, h.cancelled⟩
    · intro hevents
      cases hevents
    · intro htimer
      cases htimer
  · refine ⟨h.keeps, h.start, h.shows.congr rfl rfl rfl, fun hne => absurd hstarted hne, h.starting, ?_, rfl, ?_,
      h.cancelled⟩
    · intro hevents
      cases hevents
    · intro htimer
      cases htimer

lemma inv_pollAnswers (h : w.Inv) {offset : ℕ} (hpoll : w.poll = .asked offset) :
    Inv { w with poll := .answered (JobEngine.statusOfInner w.job offset maxLogChunkBytes) } := by
  have hbusy : w.poll ≠ .idle := by
    rw [hpoll]
    simp
  obtain ⟨hevents, htimer⟩ := h.closed_of_poll hbusy
  have hoffset := h.poll
  rw [hpoll] at hoffset
  obtain rfl : offset = w.page.jobLogOffset := hoffset
  refine ⟨h.keeps, h.start, h.shows, fun hne => absurd (h.started_of_poll hbusy) hne, h.starting, ?_, ?_, ?_,
    h.cancelled⟩
  · intro hopen
    exact absurd (hevents.symm.trans hopen) Bool.false_ne_true
  · exact fun status hstatus => h.answers (by decide) hstatus
  · intro hset
    exact absurd (htimer.symm.trans hset) Bool.false_ne_true

lemma inv_idle (h : w.Inv) : Inv { w with poll := .idle } where
  keeps := h.keeps
  start := h.start
  shows := h.shows
  unstarted hne := { h.unstarted hne with poll := rfl }
  starting := h.starting
  events hevents := ⟨(h.events hevents).1, rfl⟩
  poll := trivial
  timer htimer := ⟨(h.timer htimer).1, rfl⟩
  cancelled := h.cancelled

lemma inv_pollArrives (h : w.Inv) {reply : JobReply} (hpoll : w.poll = .answered reply) :
    (w.pollArrives reply).Inv := by
  have hbusy : w.poll ≠ .idle := by
    rw [hpoll]
    simp
  have hstarted := h.started_of_poll hbusy
  obtain ⟨hevents, htimer⟩ := h.closed_of_poll hbusy
  rw [JobWatch.pollArrives]
  cases hstatus : parseJobStatus reply with
  | some status =>
    rw [Option.elim_some]
    have hlogs := h.poll
    rw [hpoll] at hlogs
    have happly := h.shows.applyJobStatus (hlogs status hstatus)
    have hclosed : (w.page.applyJobStatus status).jobEvents = false := by
      rw [JobPage.jobEvents_applyJobStatus, hevents]
      rfl
    by_cases hterminal : status.state.isTerminal = true
    · simp only [if_pos hterminal]
      refine ⟨h.keeps, h.start, happly.1, fun hne => absurd hstarted hne, h.starting, ?_, trivial,
        fun _ => ⟨hclosed, rfl⟩, h.cancelled⟩
      exact fun hopen => absurd (hclosed.symm.trans hopen) Bool.false_ne_true
    · simp only [if_neg hterminal]
      refine ⟨h.keeps, h.start, happly.1.congr rfl rfl rfl, fun hne => absurd hstarted hne, h.starting, ?_,
        trivial, fun _ => ⟨hclosed, rfl⟩, h.cancelled⟩
      exact fun hopen => absurd (hclosed.symm.trans hopen) Bool.false_ne_true
  | none => exact inv_idle h

lemma inv_timerFires (h : w.Inv) (htimer : w.page.jobPollTimer = true) :
    (w.startPoll { w.page with jobPollTimer := false }).Inv := by
  have hstarted : w.starting = .idle := by
    by_contra hne
    rw [(h.unstarted hne).page] at htimer
    cases htimer
  refine ⟨h.keeps, h.start, h.shows.congr rfl rfl rfl, fun hne => absurd hstarted hne, h.starting, ?_, rfl, ?_,
    h.cancelled⟩
  · exact fun hopen => absurd ((h.timer htimer).1.symm.trans hopen) Bool.false_ne_true
  · intro hset
    cases hset

lemma inv_cancel (h : w.Inv) (hover : ¬w.page.isOver = true) :
    Inv { w with cancelling := w.cancelling + 1 } where
  keeps := h.keeps
  start := h.start
  shows := h.shows
  unstarted hne := by
    rw [(h.unstarted hne).page] at hover
    exact absurd rfl hover
  starting := h.starting
  events := h.events
  poll := h.poll
  timer := h.timer
  cancelled := h.cancelled

/-- At the end of the log there is nothing to send. -/
lemma silent_of_end {job : Job} {maximum : ℕ} :
    Silent (JobEngine.statusOfInner job job.logs.endOffset maximum) := by
  intro status hstatus
  rw [parseJobStatus] at hstatus
  split_ifs at hstatus
  obtain ⟨logs, hlogs, rfl⟩ := Option.map_eq_some_iff.mp hstatus
  have hoffsets := job.logs.offsets
  have hchunk : job.logs.chunkAt (max job.logs.endOffset job.logs.startOffset) maximum = [] := by
    rw [LogRing.chunkAt, List.drop_of_length_le (by omega), List.take_nil]
  have hstart : ¬job.logs.endOffset < job.logs.startOffset := by omega
  simp only [JobEngine.statusOfInner, LogRing.slice, lt_irrefl, if_false, hchunk] at hlogs
  obtain rfl := Option.some.inj hlogs
  exact ⟨rfl, decide_eq_false hstart⟩

lemma inv_answerCancel (h : w.Inv) (hcancelling : w.cancelling ≠ 0) {logOffset : ℕ}
    (hend : logOffset = w.job.logs.endOffset) : (w.answerCancel logOffset).Inv := by
  subst hend
  refine ⟨h.keeps, h.start, h.shows, fun hne => absurd (h.unstarted hne).cancelling hcancelling, h.starting,
    h.events, h.poll, h.timer, ?_⟩
  intro reply hmem
  rcases List.mem_append.mp hmem with hmem | hmem
  · exact h.cancelled reply hmem
  · obtain rfl := List.mem_singleton.mp hmem
    exact silent_of_end

lemma cancelling_setJob (w : JobWatch) (job : Job) (written : List UInt8) :
    { w with job := job, written := written }.cancelling = w.cancelling := rfl

lemma cancelling_write (w : JobWatch) (chunk : List UInt8) : (w.write chunk).cancelling = w.cancelling :=
  cancelling_setJob w _ _

lemma endOffset_write (w : JobWatch) (chunk : List UInt8) :
    (w.write chunk).job.logs.endOffset = w.job.logs.endOffset + chunk.length :=
  LogRing.append_endOffset w.job.logs chunk

/-- The guest answers a cancel, and the job has written nothing meanwhile. -/
lemma inv_cancelAnswers (h : w.Inv) (hcancelling : w.cancelling ≠ 0) : (w.cancelAnswers []).Inv := by
  rw [cancelAnswers]
  split
  · exact inv_answerCancel h hcancelling rfl
  · next hrunning =>
    refine inv_answerCancel (inv_write h hrunning []) ?_ ?_
    · rw [cancelling_write]
      exact hcancelling
    · rw [endOffset_write, List.length_nil, Nat.add_zero]

lemma inv_cancelArrives (h : w.Inv) {k : ℕ} {reply : JobReply} (hreply : w.cancelled[k]? = some reply) :
    (w.cancelArrives k reply).Inv := by
  have hmem := List.mem_of_getElem? hreply
  have hsilent := h.cancelled reply hmem
  have hstarted : w.starting = .idle := by
    by_contra hne
    rw [(h.unstarted hne).cancelled] at hmem
    cases hmem
  have hcancelled : ∀ reply ∈ w.cancelled.eraseIdx k, Silent reply := fun reply' hin =>
    h.cancelled reply' (List.mem_of_mem_eraseIdx hin)
  rw [cancelArrives]
  cases hstatus : parseJobStatus reply with
  | none =>
    exact ⟨h.keeps, h.start, h.shows, fun hne => absurd hstarted hne, h.starting, h.events, h.poll, h.timer,
      hcancelled⟩
  | some status =>
    obtain ⟨hdata, hmark⟩ := hsilent status hstatus
    obtain ⟨hshows, hoffset⟩ := h.shows.applyJobStatus_empty hdata hmark
    rw [Option.map_some, Option.getD_some]
    refine ⟨h.keeps, h.start, hshows, fun hne => absurd hstarted hne, h.starting, ?_, ?_, ?_, hcancelled⟩
    · intro hevents
      change (w.page.applyJobStatus status).jobEvents = true at hevents
      rw [JobPage.jobEvents_applyJobStatus, Bool.and_eq_true] at hevents
      change Follow _ _ _ (w.page.applyJobStatus status).jobLogOffset _ ∧ _
      rw [hoffset]
      exact h.events hevents.1
    · change PollFits _ _ (w.page.applyJobStatus status).jobLogOffset _
      rw [hoffset]
      exact h.poll
    · intro htimer
      change (w.page.applyJobStatus status).jobPollTimer = true at htimer
      rw [JobPage.jobPollTimer_applyJobStatus, Bool.and_eq_true] at htimer
      obtain ⟨hclosed, hidle⟩ := h.timer htimer.1
      refine ⟨?_, hidle⟩
      change (w.page.applyJobStatus status).jobEvents = false
      rw [JobPage.jobEvents_applyJobStatus, hclosed]
      rfl

/-- The job writes nothing while the guest answers a cancel. -/
def quiet (_ : JobWatch) : Event → Bool
  | .cancelAnswers chunk => chunk.isEmpty
  | _ => true

lemma inv_step {event : Event} (h : w.Inv) (hquiet : quiet w event = true) (hstep : w.step event = some w') :
    w'.Inv := by
  cases event with
  | write chunk =>
    simp only [step, Option.ite_none_left_eq_some, Option.some.injEq] at hstep
    obtain ⟨hrunning, rfl⟩ := hstep
    exact inv_write h hrunning chunk
  | finish outcome now =>
    simp only [step, Option.ite_none_left_eq_some, Option.some.injEq] at hstep
    obtain ⟨-, rfl⟩ := hstep
    exact inv_finish h outcome now
  | startAnswers =>
    simp only [step] at hstep
    split at hstep
    · next hstarting =>
      cases hstep
      exact inv_startAnswers h hstarting
    · cases hstep
  | startArrives =>
    simp only [step] at hstep
    split at hstep
    · next reply hstarting =>
      obtain ⟨status, hstatus, rfl⟩ := Option.map_eq_some_iff.mp hstep
      exact inv_startArrives h hstarting hstatus
    · cases hstep
  | handlerPolls =>
    obtain ⟨cursor, hhandler, rfl⟩ := Option.map_eq_some_iff.mp hstep
    exact inv_sendEvent h hhandler
  | handlerFails =>
    obtain ⟨cursor, -, rfl⟩ := Option.map_eq_some_iff.mp hstep
    exact inv_handlerFails h
  | eventArrives =>
    simp only [step] at hstep
    split at hstep
    · next status events hevents =>
      simp only [Option.ite_none_right_eq_some, Option.some.injEq] at hstep
      obtain ⟨hopen, rfl⟩ := hstep
      exact inv_eventArrives h hevents hopen
    · cases hstep
  | eventsFail =>
    simp only [step, Option.ite_none_right_eq_some, Option.some.injEq] at hstep
    obtain ⟨hopen, rfl⟩ := hstep
    exact inv_onError h hopen
  | pollAnswers =>
    simp only [step] at hstep
    split at hstep
    · next offset hpoll =>
      cases hstep
      exact inv_pollAnswers h hpoll
    · cases hstep
  | pollArrives =>
    simp only [step] at hstep
    split at hstep
    · next reply hpoll =>
      cases hstep
      exact inv_pollArrives h hpoll
    · cases hstep
  | pollFails =>
    cases hstep
    exact inv_idle h
  | timerFires =>
    simp only [step, Option.ite_none_right_eq_some, Option.some.injEq] at hstep
    obtain ⟨htimer, rfl⟩ := hstep
    exact inv_timerFires h htimer
  | cancel =>
    simp only [step, Option.ite_none_left_eq_some, Option.some.injEq] at hstep
    obtain ⟨hover, rfl⟩ := hstep
    exact inv_cancel h hover
  | cancelAnswers chunk =>
    obtain rfl := List.isEmpty_iff.mp hquiet
    simp only [step, Option.ite_none_left_eq_some, Option.some.injEq] at hstep
    obtain ⟨hcancelling, rfl⟩ := hstep
    exact inv_cancelAnswers h hcancelling
  | cancelArrives k =>
    obtain ⟨reply, hreply, rfl⟩ := Option.map_eq_some_iff.mp hstep
    exact inv_cancelArrives h hreply

lemma logText_eq_textContent {page : JobPage} (h : ∀ entry ∈ page.output, entry.isTruncated = false) :
    page.textContent = page.logText := by
  rw [JobPage.textContent, JobPage.logText]
  apply List.flatMap_congr
  intro entry hmem
  have hlog := h entry hmem
  cases entry with
  | log text => rfl
  | truncated => cases hlog

lemma Inv.showsLog (h : w.Inv) : ShowsLog w := by
  obtain ⟨received, hreceived, htext⟩ := h.shows
  have hmissing : ∃ missing, missing.length ≤ 1 ∧
      w.page.logText ++ missing = TextDecoder.dropBom (Utf8.toText received) := by
    rcases htext with hreads | ⟨htext, -, -⟩
    · obtain ⟨missing, hlength, hall⟩ := hreads.exists_missing
      exact ⟨missing, hlength, hall.symm⟩
    · exact ⟨[], Nat.zero_le 1, by rw [List.append_nil, htext]⟩
  obtain ⟨missing, hlength, hall⟩ := hmissing
  refine ⟨⟨received, missing, hlength, hreceived, hall⟩, fun hmarks => ⟨missing, hlength, ?_⟩⟩
  have htake : received = w.written.take w.page.jobLogOffset := by
    apply hreceived.eq_take
    rw [JobPage.marks, List.mem_map]
    rintro ⟨entry, hmem, hmark⟩
    exact Bool.false_ne_true ((hmarks entry hmem).symm.trans hmark)
  rw [← htake, logText_eq_textContent hmarks, hall]

/-- The page shows the log in every run in which the job writes nothing while the guest answers a cancel. -/
theorem showsLog_of_leads {job : Job} (hlogs : job.logs = .empty)
    (h : Leads step (fun w event => quiet w event = true) (begin job) w) : ShowsLog w :=
  (Leads.invariant Inv h (inv_begin hlogs) fun _ _ _ hinv hquiet hstep => inv_step hinv hquiet hstep).showsLog

def freshJob : Job := { doneJob with state := .running, finishedAt := none, exitCode := none }

/-- A character comes in two pieces, by the start and by an event, and the page goes on with a poll. -/
def splitRun : List Event :=
  [.write [226, 130], .startAnswers, .startArrives, .write [172], .handlerPolls, .cancel, .cancelAnswers [],
    .eventArrives, .cancelArrives 0, .eventsFail, .write [33], .pollAnswers, .pollArrives]

theorem showsLog_of_leads_split : ∃ w, exec (guard step quiet) (begin freshJob) splitRun = some w ∧
    w.page.textContent = ['€', '!'] ∧ ShowsLog w := by
  have hrun : (exec (guard step quiet) (begin freshJob) splitRun).map (fun w => w.page.textContent) =
      some ['€', '!'] := by decide +kernel
  obtain ⟨w, hw, htext⟩ := Option.map_eq_some_iff.mp hrun
  exact ⟨w, hw, htext, showsLog_of_leads rfl (leads_of_exec_guard hw)⟩

/-- A byte that comes between the reading of the end and the slice makes the page pass over what is before
it. -/
def cancelRun : List Event :=
  [.startAnswers, .startArrives, .write [97], .cancel, .cancelAnswers [98], .cancelArrives 0, .handlerPolls,
    .eventArrives]

theorem not_showsLog_cancel : ∃ w, Leads step anyStep (begin freshJob) w ∧ w.written = [97, 98] ∧
    w.page.textContent = ['b'] ∧ w.page.jobLogOffset = 2 ∧ ¬ShowsLog w := by
  have hrun : (exec step (begin freshJob) cancelRun).map (fun w =>
      (w.written, w.page.textContent, w.page.jobLogOffset, w.page.output)) =
        some ([97, 98], ['b'], 2, [.log ['b']]) := by decide +kernel
  obtain ⟨w, hw, hfields⟩ := Option.map_eq_some_iff.mp hrun
  simp only [Prod.mk.injEq] at hfields
  obtain ⟨hwritten, htext, hoffset, houtput⟩ := hfields
  refine ⟨w, leads_of_exec hw, hwritten, htext, hoffset, fun hshows => ?_⟩
  have hmarks : ∀ entry ∈ w.page.output, entry.isTruncated = false := by
    rw [houtput]
    intro entry hmem
    obtain rfl := List.mem_singleton.mp hmem
    rfl
  obtain ⟨missing, -, hall⟩ := hshows.whole hmarks
  have hlog : TextDecoder.dropBom (Utf8.toText [97, 98]) = ['a', 'b'] := by decide +kernel
  rw [htext, hwritten, hoffset, List.take_of_length_le (Nat.le_refl 2), hlog] at hall
  exact absurd (List.cons.inj hall).1 (by decide)

end JobWatch

end Bloom
