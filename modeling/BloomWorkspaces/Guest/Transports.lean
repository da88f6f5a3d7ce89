import BloomWorkspaces.Guest.Protocol

/-!
# The transports of the guest

The loops of `serve_stdio` and of `serve_sockets`, over all that they read. They are compared on frames
that are one line.
-/

namespace Bloom

namespace GuestControl

/-! ### Services -/

/-- Why a transport serves no longer. -/
inductive Ending
  | waiting
  | returned
  | crashed (crash : Crash)
  deriving DecidableEq, Repr

/-- What a transport writes, one entry for each answer, and the state that it leaves. -/
structure Service where
  written : List (List UInt8)
  ending : Ending
  state : GuestState

/-- A service that has answered before. -/
def Service.after (response : List UInt8) (service : Service) : Service :=
  { service with written := response :: service.written }

/-- Every frame has circumstances of its own. -/
def Daemon.before (d : Daemon) (later : ℕ → Daemon) : ℕ → Daemon
  | 0 => d
  | n + 1 => later n

/-! ### Standard input -/

/-- `read_line`: a line with its newline, and what is after it. -/
def readLine (input : List UInt8) : List UInt8 × List UInt8 :=
  match input.dropWhile (· ≠ lineFeed) with
  | [] => (input, [])
  | _ :: rest => (input.takeWhile (· ≠ lineFeed) ++ [lineFeed], rest)

def tooLarge : List UInt8 :=
  encodeResponse (errorJson "invalid" .limitExceeded "guest protocol frame is too large")

/-- The body of the loop of `serve_stdio`. -/
def serveLine (d : Daemon) (buf : List UInt8) (g : GuestState) :
    Except Crash (List UInt8) × GuestState :=
  if Client.maxFrameBytes + 2 < buf.length then (.ok tooLarge, g) else processFrame d buf g

lemma length_readLine_lt {input : List UInt8} (h : (readLine input).1 ≠ []) :
    (readLine input).2.length < input.length := by
  unfold readLine at h ⊢
  split
  · rename_i hrest
    rw [hrest] at h
    exact List.length_pos_of_ne_nil h
  · rename_i rest hrest
    have hle := (List.dropWhile_suffix (· ≠ lineFeed) (l := input)).length_le
    rw [hrest, List.length_cons] at hle
    exact hle

/-- A line that is no UTF-8 ends the loop, as the end of the input does. -/
def serveStdio (d : ℕ → Daemon) (input : List UInt8) (g : GuestState) : Service :=
  if _h : (readLine input).1 = [] then ⟨[], .returned, g⟩
  else
    match Utf8.decode (readLine input).1 with
    | none => ⟨[], .returned, g⟩
    | some _ =>
      match serveLine (d 0) (readLine input).1 g with
      | (.error crash, g') => ⟨[], .crashed crash, g'⟩
      | (.ok response, g') =>
        (serveStdio (fun n => d (n + 1)) (readLine input).2 g').after response
termination_by input.length
decreasing_by exact length_readLine_lt ‹_›

/-! ### Sockets -/

/-- The loop over the reads of a connection; an empty one is its end. -/
def receive (frame : List UInt8) : List (List UInt8) → List UInt8
  | [] => frame
  | buf :: reads =>
    if buf = [] then frame
    else if Client.maxFrameBytes < (frame ++ buf).length then frame ++ buf
    else if lineFeed ∈ frame ++ buf then frame ++ buf
    else receive (frame ++ buf) reads

/-- The connections come one after another, each with its reads. -/
def serveSockets (d : ℕ → Daemon) : List (List (List UInt8)) → GuestState → Service
  | [], g => ⟨[], .waiting, g⟩
  | reads :: connections, g =>
    match processFrame (d 0) (receive [] reads) g with
    | (.error crash, g') => ⟨[], .crashed crash, g'⟩
    | (.ok response, g') => (serveSockets (fun n => d (n + 1)) connections g').after response

/-- The reads that bring a frame: none takes more than the buffer holds. -/
structure Brings (reads : List (List UInt8)) (frame : List UInt8) : Prop where
  bytes : reads.flatten = frame
  nonempty : ∀ buf ∈ reads, buf ≠ []
  fits : ∀ buf ∈ reads, buf.length ≤ 64 * 1024

/-! ### The same service -/

/-- Both transports answer the frame with one response of one line, and go on as after no frame. -/
def ServesAlike (d : Daemon) (frame : Line) (g : GuestState) : Prop :=
  ∃ (response : Line) (g' : GuestState), response.bytes.length ≤ Client.maxFrameBytes ∧
    (∀ later input, serveStdio (d.before later) (frame.bytes ++ input) g =
      (serveStdio later input g').after response.bytes) ∧
    ∀ later reads connections, Brings reads frame.bytes →
      serveSockets (d.before later) (reads :: connections) g =
        (serveSockets later connections g').after response.bytes

/-- The frame is a text, and the request in it, where there is one, is answerable. -/
structure IsServable (d : Daemon) (frame : Line) (g : GuestState) : Prop where
  text : (Utf8.decode frame.bytes).isSome = true
  answerable : frame.bytes.length ≤ Client.maxFrameBytes →
    ∀ request, d.fromSlice frame.body = some request → IsAnswerable d.surroundings request g

/-! ### Frames -/

section Frames

variable {d : Daemon} {g g' : GuestState} {frame : Line} {bytes response : List UInt8}
  {reads : List (List UInt8)}

lemma processFrame_error {error : ControlError} (h : decodeFrame d bytes = .error error) :
    processFrame d bytes g =
      (.ok (encodeResponse (errorJson "invalid" error.code error.message)), g) := by
  rw [processFrame, h]

lemma processFrame_ok {request : Json} (h : decodeFrame d bytes = .ok request) :
    processFrame d bytes g = ((handle d.surroundings request g).1.map
      fun response => encodeResponse (response.json d.mtime), (handle d.surroundings request g).2) := by
  rw [processFrame, h]

lemma processFrame_of_large (h : Client.maxFrameBytes < bytes.length) :
    processFrame d bytes g = (.ok tooLarge, g) := by
  have hdecode : decodeFrame d bytes =
      .error (.limitExceeded "guest protocol frame is too large") := if_pos h
  rw [processFrame_error hdecode]
  rfl

lemma serveLine_eq (d : Daemon) (bytes : List UInt8) (g : GuestState) :
    serveLine d bytes g = processFrame d bytes g := by
  rw [serveLine]
  split
  · rename_i hlarge
    rw [processFrame_of_large (by omega)]
  · rfl

lemma decodeFrame_line (h : frame.bytes.length ≤ Client.maxFrameBytes) :
    decodeFrame d frame.bytes = (d.fromSlice frame.body).elim
      (.error (.invalidRequest "guest protocol frame is not valid UTF-8 JSON")) .ok := by
  have hlast : frame.bytes.getLast? = some lineFeed := List.getLast?_concat
  have hbody : frame.bytes.dropLast = frame.body := List.dropLast_concat
  rw [decodeFrame, if_neg (Nat.not_lt.mpr h), if_neg (not_not_intro hlast), hbody]
  cases d.fromSlice frame.body with
  | none => rfl
  | some request => rfl

/-- A response is one line within the limit. -/
lemma processFrame_response (h : (processFrame d bytes g).1 = .ok response) :
    ∃ line : Line, line.bytes = response ∧ response.length ≤ Client.maxFrameBytes := by
  have hresponse : ∃ json id, json.index "id" = .string id ∧ isRequestId id = true ∧
      encodeResponse json = response := by
    cases hdecode : decodeFrame d bytes with
    | error error =>
      rw [processFrame_error hdecode, Except.ok.injEq] at h
      exact ⟨_, _, index_id_errorJson _ _ _, by decide, h⟩
    | ok request =>
      rw [processFrame_ok hdecode] at h
      cases hanswer : (handle d.surroundings request g).1 with
      | error crash =>
        rw [hanswer] at h
        cases h
      | ok answer =>
        rw [hanswer] at h
        change Except.ok (encodeResponse (answer.json d.mtime)) = _ at h
        rw [Except.ok.injEq] at h
        refine ⟨_, _, answer.index_id_json d.mtime, ?_, h⟩
        rw [id_of_handle hanswer]
        exact isRequestId_requestId request
  obtain ⟨json, id, hindex, hid, rfl⟩ := hresponse
  obtain ⟨line, hline⟩ := exists_line_encodeResponse json
  exact ⟨line, hline, length_encodeResponse_le hindex hid⟩

end Frames

/-! ### Reads -/

section Reads

variable {d : Daemon} {g g' : GuestState} {frame : Line} {later : ℕ → Daemon}
  {response : List UInt8} {reads : List (List UInt8)}

lemma readLine_line (frame : Line) (input : List UInt8) :
    readLine (frame.bytes ++ input) = (frame.bytes, input) := by
  have hbody : ∀ b ∈ frame.body, decide (b ≠ lineFeed) = true := by
    intro b hb
    exact decide_eq_true fun heq => frame.single (heq ▸ hb)
  have hbytes : frame.bytes ++ input = frame.body ++ lineFeed :: input := by
    rw [Line.bytes, List.append_assoc, List.singleton_append]
  rw [readLine, hbytes, List.dropWhile_append_of_pos hbody, List.takeWhile_append_of_pos hbody]
  simp only [List.dropWhile_cons, List.takeWhile_cons, ne_eq, not_true_eq_false, decide_false,
    Bool.false_eq_true, if_false, List.append_nil]
  rfl

/-- Nothing follows the newline of a line. -/
lemma Line.eq_nil_of_mem {front rest : List UInt8} (h : front ++ rest = frame.bytes)
    (hmem : lineFeed ∈ front) : rest = [] := by
  by_contra hne
  rw [← List.dropLast_concat_getLast hne, ← List.append_assoc, Line.bytes] at h
  have hbody := (List.append_inj' h rfl).1
  exact frame.single (hbody ▸ List.mem_append_left _ hmem)

/-- The reads end with the frame, or once it is too large. -/
lemma receive_brings (h : Brings reads frame.bytes) :
    receive [] reads = frame.bytes ∨ Client.maxFrameBytes < (receive [] reads).length ∧
      Client.maxFrameBytes < frame.bytes.length := by
  suffices hloop : ∀ (reads : List (List UInt8)) (received : List UInt8),
      received ++ reads.flatten = frame.bytes → (∀ buf ∈ reads, buf ≠ []) →
      receive received reads = frame.bytes ∨ Client.maxFrameBytes < (receive received reads).length ∧
        Client.maxFrameBytes < frame.bytes.length from hloop reads [] h.bytes h.nonempty
  intro reads
  induction reads with
  | nil =>
    intro received hbytes _
    rw [List.flatten_nil, List.append_nil] at hbytes
    exact Or.inl hbytes
  | cons buf reads ih =>
    intro received hbytes hnonempty
    rw [List.flatten_cons, ← List.append_assoc] at hbytes
    rw [receive, if_neg (hnonempty buf List.mem_cons_self)]
    split_ifs with hlarge hline
    · have hle := (List.prefix_append (received ++ buf) reads.flatten).length_le
      rw [hbytes] at hle
      exact Or.inr ⟨hlarge, Nat.lt_of_lt_of_le hlarge hle⟩
    · have hrest := Line.eq_nil_of_mem hbytes hline
      rw [hrest, List.append_nil] at hbytes
      exact Or.inl hbytes
    · exact ih (received ++ buf) hbytes fun b hb => hnonempty b (List.mem_cons_of_mem _ hb)

/-- A connection that brings a frame is answered as the frame is. -/
lemma processFrame_receive (h : Brings reads frame.bytes) :
    processFrame d (receive [] reads) g = processFrame d frame.bytes g := by
  rcases receive_brings h with heq | ⟨hreceived, hframe⟩
  · rw [heq]
  · rw [processFrame_of_large hreceived, processFrame_of_large hframe]

/-! ### Turns -/

lemma serveSockets_ok {d : ℕ → Daemon} (connections : List (List (List UInt8)))
    (h : processFrame (d 0) (receive [] reads) g = (.ok response, g')) :
    serveSockets d (reads :: connections) g =
      (serveSockets (fun n => d (n + 1)) connections g').after response := by
  rw [serveSockets, h]

lemma serveStdio_ok (input : List UInt8) (htext : (Utf8.decode frame.bytes).isSome = true)
    (h : processFrame d frame.bytes g = (.ok response, g')) :
    serveStdio (d.before later) (frame.bytes ++ input) g =
      (serveStdio later input g').after response := by
  have hne : frame.bytes ≠ [] := List.append_ne_nil_of_right_ne_nil _ (List.cons_ne_nil _ _)
  obtain ⟨text, htext⟩ := Option.isSome_iff_exists.mp htext
  rw [serveStdio, readLine_line, dif_neg hne]
  simp only [htext, Daemon.before, serveLine_eq, h]

/-- Where there is no text, or no response, nothing is written. -/
lemma written_serveStdio (input : List UInt8)
    (h : Utf8.decode frame.bytes = none ∨ ∃ crash, (processFrame d frame.bytes g).1 = .error crash) :
    (serveStdio (d.before later) (frame.bytes ++ input) g).written = [] := by
  have hne : frame.bytes ≠ [] := List.append_ne_nil_of_right_ne_nil _ (List.cons_ne_nil _ _)
  rw [serveStdio, readLine_line, dif_neg hne]
  cases htext : Utf8.decode frame.bytes with
  | none => rfl
  | some text =>
    rcases h with hnone | ⟨crash, hcrash⟩
    · rw [hnone] at htext
      cases htext
    · simp only [Daemon.before, serveLine_eq]
      split
      · rfl
      · rename_i hresponse
        rw [hresponse] at hcrash
        cases hcrash

end Reads

/-! ### The law -/

section Law

variable {d : Daemon} {frame : Line} {g : GuestState}

end Law

/-! ### A frame that is no text -/

/-- A daemon that cannot read its frames. -/
def unreadable : Daemon where
  surroundings := guestWith (constantSocket .null)
  fromSlice _ := none
  mtime _ := 0

/-- A byte that is in no text. -/
def brokenLine : Line := ⟨[255], by decide⟩

end GuestControl

end Bloom
