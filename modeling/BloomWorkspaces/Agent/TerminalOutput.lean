import BloomWorkspaces.Agent.GuestProtocol
import BloomWorkspaces.Library.ByteArea
import BloomWorkspaces.Library.Utf8Stream

/-!
# Output of a Firecracker terminal

The data handler of `connectTerminal`, and `emitOutput`, of `FirecrackerRuntime`. The guest answers the
connection with a line, and everything after it is output. Each chunk of the output is decoded by itself,
so a character that arrives in two chunks is lost.
-/

namespace Bloom

/-- `MAX_HISTORY` -/
def maxHistory : ℕ := 256 * 1024

/-- `chunk.toString()` -/
def bufferText (chunk : List UInt8) : JsText := Utf16.encode (Utf8.toText chunk)

/-- `chunk.toString("binary")` has a character for each byte. -/
def binaryText (chunk : List UInt8) : String := String.ofList (chunk.map fun b => Char.ofNat b.toNat)

def newline : UInt8 := 10

/-- `OK ` -/
def handshakeOk : List UInt8 := [79, 75, 32]

/-- What the data handler of one socket keeps, and the history of the instance. `handshake` is kept as the
bytes of its binary text; `rejected` is the error that the socket is destroyed with; `messages` are the
`data` of the output messages. -/
structure TerminalOutput where
  handshake : List UInt8
  connected : Bool
  rejected : Option String
  history : JsText
  messages : List JsText
  deriving DecidableEq, Repr

namespace TerminalOutput

def initial : TerminalOutput := ⟨[], false, none, [], []⟩

/-- `slice(-MAX_HISTORY)` is what `rtake` gives. -/
def emitOutput (s : TerminalOutput) (data : JsText) : TerminalOutput :=
  { s with history := (s.history ++ data).rtake maxHistory, messages := s.messages ++ [data] }

/-- `socket.on("data", …)`; a destroyed socket has no more data. -/
def onData (s : TerminalOutput) (chunk : List UInt8) : TerminalOutput :=
  if s.rejected.isSome then s
  else if s.connected then s.emitOutput (bufferText chunk)
  else
    let handshake := s.handshake ++ chunk
    if newline ∉ handshake then { s with handshake := handshake }
    else
      let response := handshake.takeWhile (· ≠ newline)
      if ¬handshakeOk <+: response then
        { s with
          handshake := handshake
          rejected := some ("vsock rejected terminal: " ++ binaryText response) }
      else
        let remainder := handshake.drop (response.length + 1)
        let opened := { s with handshake := handshake, connected := true }
        if remainder.isEmpty then opened else opened.emitOutput (bufferText remainder)

def run (chunks : List (List UInt8)) : TerminalOutput := chunks.foldl onData initial

/-- The concatenation of the output strings. -/
def output (s : TerminalOutput) : JsText := s.messages.flatten

/-- The chunks without the line that answers the connection. -/
def afterHandshake : List (List UInt8) → List (List UInt8)
  | [] => []
  | chunk :: chunks =>
    if newline ∈ chunk then (chunk.dropWhile (· ≠ newline)).tail :: chunks else afterHandshake chunks

variable {s : TerminalOutput} {chunk hello body : List UInt8} {chunks : List (List UInt8)}

/-! ### Text -/

lemma bufferText_nil : bufferText [] = [] := rfl

lemma flatMap_bufferText (chunks : List (List UInt8)) :
    chunks.flatMap bufferText = Utf16.encode (chunks.flatMap Utf8.toText) := by
  induction chunks with
  | nil => rfl
  | cons chunk chunks ih =>
    rw [List.flatMap_cons, List.flatMap_cons, Utf16.encode_append, ih]
    rfl

lemma encode_inj {text text' : List Char} : Utf16.encode text = Utf16.encode text' ↔ text = text' := by
  constructor
  · intro h
    have hdecode := congrArg Utf16.decode h
    rw [Utf16.decode_encode, Utf16.decode_encode] at hdecode
    exact Option.some.inj hdecode
  · rintro rfl
    rfl

/-! ### Messages -/

lemma output_emitOutput (s : TerminalOutput) (data : JsText) :
    (s.emitOutput data).output = s.output ++ data := by
  simp [output, emitOutput]

lemma history_emitOutput (s : TerminalOutput) (data : JsText) :
    (s.emitOutput data).history = (s.history ++ data).rtake maxHistory := by rw [emitOutput]

lemma rejected_emitOutput (s : TerminalOutput) (data : JsText) :
    (s.emitOutput data).rejected = s.rejected := by rw [emitOutput]

lemma connected_emitOutput (s : TerminalOutput) (data : JsText) :
    (s.emitOutput data).connected = s.connected := by rw [emitOutput]

/-- The history is the end of the output. -/
def Remembered (s : TerminalOutput) : Prop := s.history = s.output.rtake maxHistory

lemma remembered_emitOutput (h : s.Remembered) (data : JsText) : (s.emitOutput data).Remembered := by
  rw [Remembered] at h ⊢
  rw [history_emitOutput, output_emitOutput, h, ByteArea.rtake_append_rtake]

lemma remembered_onData (h : s.Remembered) (chunk : List UInt8) : (s.onData chunk).Remembered := by
  rw [onData]
  split
  · exact h
  split
  · exact remembered_emitOutput h _
  simp only
  split
  · exact h
  split
  · exact h
  split
  · exact h
  · exact remembered_emitOutput (s := { s with handshake := s.handshake ++ chunk, connected := true }) h _

/-- The history is the end of what was emitted, in every run. -/
theorem remembered_run (chunks : List (List UInt8)) : (run chunks).Remembered := by
  have hrun : ∀ s : TerminalOutput, s.Remembered → (chunks.foldl onData s).Remembered := by
    induction chunks with
    | nil => exact fun s h => h
    | cons chunk chunks ih => exact fun s h => ih _ (remembered_onData h chunk)
  exact hrun initial rfl

/-! ### The handshake -/

/-- The answer of the guest is not complete. -/
structure Waiting (s : TerminalOutput) : Prop where
  kept : s.rejected = none
  unconnected : s.connected = false
  line : newline ∉ s.handshake

lemma waiting_initial : initial.Waiting := ⟨rfl, rfl, List.not_mem_nil⟩

lemma onData_waiting (h : s.Waiting) (hchunk : newline ∉ chunk) :
    s.onData chunk = { s with handshake := s.handshake ++ chunk } := by
  rw [onData, h.kept, h.unconnected]
  simp only [Option.isSome_none, Bool.false_eq_true, if_false]
  apply if_pos
  rw [List.mem_append]
  exact fun hmem => hmem.elim h.line hchunk

lemma Waiting.onData (h : s.Waiting) (hchunk : newline ∉ chunk) : (s.onData chunk).Waiting := by
  rw [onData_waiting h hchunk]
  refine ⟨h.kept, h.unconnected, ?_⟩
  rw [List.mem_append]
  exact fun hmem => hmem.elim h.line hchunk

/-- The first newline of a text. -/
lemma takeWhile_line (hline : newline ∉ hello) (rest : List UInt8) :
    (hello ++ newline :: rest).takeWhile (· ≠ newline) = hello := by
  rw [List.takeWhile_append_of_pos]
  · simp
  · intro b hb
    simpa using fun heq : b = newline => hline (heq ▸ hb)

lemma onData_answer (h : s.Waiting) (hline : newline ∉ hello)
    (hchunk : s.handshake ++ chunk = hello ++ newline :: body) :
    s.onData chunk =
      if ¬handshakeOk <+: hello then
        { s with
          handshake := hello ++ newline :: body
          rejected := some ("vsock rejected terminal: " ++ binaryText hello) }
      else
        if body.isEmpty then { s with handshake := hello ++ newline :: body, connected := true }
        else { s with handshake := hello ++ newline :: body, connected := true }.emitOutput
          (bufferText body) := by
  rw [onData, h.kept, h.unconnected]
  simp only [Option.isSome_none, Bool.false_eq_true, if_false]
  have hmem : ¬newline ∉ hello ++ newline :: body := by simp
  have hdrop : (hello ++ newline :: body).drop (hello.length + 1) = body := by
    rw [List.drop_append, List.drop_of_length_le (Nat.le_succ _), Nat.add_sub_cancel_left]
    rfl
  rw [hchunk, if_neg hmem, takeWhile_line hline, hdrop]

lemma onData_connected (hkept : s.rejected = none) (hconnected : s.connected = true)
    (chunk : List UInt8) : s.onData chunk = s.emitOutput (bufferText chunk) := by
  rw [onData, hkept, hconnected]
  rfl

lemma run_connected (hkept : s.rejected = none) (hconnected : s.connected = true)
    (chunks : List (List UInt8)) :
    (chunks.foldl onData s).output = s.output ++ chunks.flatMap bufferText := by
  induction chunks generalizing s with
  | nil => simp
  | cons chunk chunks ih =>
    have hkept' := (rejected_emitOutput s (bufferText chunk)).trans hkept
    have hconnected' := (connected_emitOutput s (bufferText chunk)).trans hconnected
    rw [List.foldl_cons, onData_connected hkept hconnected, ih hkept' hconnected', output_emitOutput,
      List.flatMap_cons, List.append_assoc]

lemma run_rejected (h : s.rejected.isSome) (chunks : List (List UInt8)) : chunks.foldl onData s = s := by
  induction chunks with
  | nil => rfl
  | cons chunk chunks ih =>
    have hstay : s.onData chunk = s := if_pos h
    rw [List.foldl_cons, hstay, ih]

lemma dropWhile_line (hline : newline ∉ hello) (rest : List UInt8) :
    (hello ++ newline :: rest).dropWhile (· ≠ newline) = newline :: rest := by
  rw [List.dropWhile_append_of_pos]
  · simp
  · intro b hb
    simpa using fun heq : b = newline => hline (heq ▸ hb)

/-- The newline of the handshake comes with the first chunk that has one. -/
lemma exists_line {rest : List UInt8} (hline : newline ∉ hello) (hwaiting : newline ∉ s.handshake)
    (hmem : newline ∈ chunk) (hstream : s.handshake ++ (chunk ++ rest) = hello ++ newline :: body) :
    ∃ front back, newline ∉ front ∧ chunk = front ++ newline :: back ∧ s.handshake ++ front = hello ∧
      back ++ rest = body := by
  obtain ⟨front, back, rfl, hfront⟩ := List.eq_append_cons_of_mem hmem
  have hstart : newline ∉ s.handshake ++ front := by
    rw [List.mem_append]
    exact fun hmem => hmem.elim hwaiting hfront
  have hsplit : (s.handshake ++ front) ++ newline :: (back ++ rest) = hello ++ newline :: body := by
    rw [← hstream]
    simp
  have hhello : s.handshake ++ front = hello := by
    rw [← takeWhile_line hstart (back ++ rest), hsplit, takeWhile_line hline]
  rw [hhello] at hsplit
  exact ⟨front, back, hfront, rfl, hhello, List.tail_eq_of_cons_eq (List.append_cancel_left hsplit)⟩

lemma afterHandshake_line {front back : List UInt8} (hfront : newline ∉ front)
    (chunks : List (List UInt8)) :
    afterHandshake ((front ++ newline :: back) :: chunks) = back :: chunks := by
  rw [afterHandshake, if_pos (List.mem_append_right _ List.mem_cons_self), dropWhile_line hfront]
  rfl

/-- After the handshake every chunk is decoded by itself. -/
lemma run_waiting (h : s.Waiting) (hline : newline ∉ hello) (hok : handshakeOk <+: hello)
    (hstream : s.handshake ++ chunks.flatten = hello ++ newline :: body) :
    (chunks.foldl onData s).output = s.output ++ (afterHandshake chunks).flatMap bufferText ∧
      (afterHandshake chunks).flatten = body := by
  induction chunks generalizing s with
  | nil =>
    rw [List.flatten_nil, List.append_nil] at hstream
    have hmem : newline ∈ s.handshake := by
      rw [hstream]
      exact List.mem_append_right _ List.mem_cons_self
    exact absurd hmem h.line
  | cons chunk chunks ih =>
    rw [List.flatten_cons] at hstream
    by_cases hmem : newline ∈ chunk
    · obtain ⟨front, back, hfront, rfl, hhello, hbody⟩ := exists_line hline h.line hmem hstream
      have hchunk : s.handshake ++ (front ++ newline :: back) = hello ++ newline :: back := by
        rw [← hhello, List.append_assoc]
      rw [List.foldl_cons, onData_answer h hline hchunk, if_neg (not_not.mpr hok),
        afterHandshake_line hfront, List.flatten_cons, List.flatMap_cons]
      refine ⟨?_, hbody⟩
      generalize hopened : { s with handshake := hello ++ newline :: back, connected := true } = opened
      have hkept : opened.rejected = none := by
        rw [← hopened]
        exact h.kept
      have hconnected : opened.connected = true := by rw [← hopened]
      have houtput : opened.output = s.output := by
        rw [← hopened]
        rfl
      split
      · next hempty =>
        rw [List.isEmpty_iff.mp hempty, bufferText_nil, run_connected hkept hconnected, houtput]
        rfl
      · rw [run_connected ((rejected_emitOutput _ _).trans hkept)
          ((connected_emitOutput _ _).trans hconnected), output_emitOutput, houtput, List.append_assoc]
    · rw [List.foldl_cons]
      have hnext : (s.onData chunk).handshake ++ chunks.flatten = hello ++ newline :: body := by
        rw [onData_waiting h hmem, ← hstream, List.append_assoc]
      have houtput : (s.onData chunk).output = s.output := by
        rw [onData_waiting h hmem]
        rfl
      have hafter : afterHandshake (chunk :: chunks) = afterHandshake chunks := if_neg hmem
      rw [hafter, ← houtput]
      exact ih (h.onData hmem) hnext

lemma run_output (hline : newline ∉ hello) (hok : handshakeOk <+: hello)
    (hstream : chunks.flatten = hello ++ newline :: body) :
    (run chunks).output = Utf16.encode ((afterHandshake chunks).flatMap Utf8.toText) ∧
      (afterHandshake chunks).flatten = body := by
  have hrun := run_waiting waiting_initial hline hok hstream
  rw [← flatMap_bufferText]
  exact hrun

/-- A guest that has not answered, or not with `OK `, has no output. -/
theorem run_silent (h : ∀ hello body, chunks.flatten = hello ++ newline :: body → newline ∉ hello →
    ¬handshakeOk <+: hello) : (run chunks).output = [] := by
  have hrun : ∀ s : TerminalOutput, s.Waiting → s.output = [] →
      (∀ hello body, s.handshake ++ chunks.flatten = hello ++ newline :: body → newline ∉ hello →
        ¬handshakeOk <+: hello) → (chunks.foldl onData s).output = [] := by
    clear h
    induction chunks with
    | nil => exact fun s _ hempty _ => hempty
    | cons chunk chunks ih =>
      intro s hs hempty hrefused
      rw [List.foldl_cons]
      by_cases hmem : newline ∈ chunk
      · obtain ⟨front, back, rfl, hfront⟩ := List.eq_append_cons_of_mem hmem
        have hline : newline ∉ s.handshake ++ front := by
          rw [List.mem_append]
          exact fun hin => hin.elim hs.line hfront
        have hchunk : s.handshake ++ (front ++ newline :: back) =
            (s.handshake ++ front) ++ newline :: back := (List.append_assoc _ _ _).symm
        have hanswer : ¬handshakeOk <+: s.handshake ++ front := by
          apply hrefused _ (back ++ chunks.flatten) _ hline
          simp
        rw [onData_answer hs hline hchunk, if_pos hanswer, run_rejected rfl]
        exact hempty
      · apply ih _ (hs.onData hmem)
        · rw [onData_waiting hs hmem]
          exact hempty
        · rw [onData_waiting hs hmem]
          intro hello body hstream
          apply hrefused hello body
          rw [← hstream, List.flatten_cons, List.append_assoc]
  exact hrun initial waiting_initial rfl h

/-! ### The decoding of the stream -/

/-- The output strings are the decoding of what the guest sent after its answer exactly when no chunk of it
ends within a character that the next bytes go on with. -/
theorem decoded_iff_uncut (hstream : chunks.flatten = hello ++ newline :: body)
    (hline : newline ∉ hello) (hok : handshakeOk <+: hello) :
    (run chunks).output = bufferText body ↔ Utf8.Uncut (afterHandshake chunks) := by
  obtain ⟨houtput, hbody⟩ := run_output hline hok hstream
  rw [houtput, ← hbody, bufferText, encode_inj]
  exact Utf8.flatMap_toText_iff _

/-- A line and a first character share a chunk, and a second one comes whole. -/
theorem decoded_iff_uncut_shared :
    (run [[79, 75], [32, 53, 10, 104], [195, 169]]).output = bufferText [104, 195, 169] := by
  have hline : newline ∉ [79, 75, 32, 53] := by decide
  exact (decoded_iff_uncut rfl hline (by decide)).mpr ⟨by decide, by decide, trivial⟩

/-- The two bytes of a character come in two chunks. -/
theorem not_decoded : ¬∀ (chunks : List (List UInt8)) (hello body : List UInt8),
    chunks.flatten = hello ++ newline :: body → newline ∉ hello → handshakeOk <+: hello →
      (run chunks).output = bufferText body := by
  intro h
  have hstream : [[79, 75, 32, 53, 10], [195], [169]].flatten = [79, 75, 32, 53] ++ newline :: [195, 169] :=
    rfl
  have hline : newline ∉ [79, 75, 32, 53] := by decide
  have hall := h _ _ _ hstream hline (by decide)
  obtain ⟨houtput, -⟩ := run_output hline (by decide) hstream
  rw [houtput, bufferText, encode_inj] at hall
  have huncut := (Utf8.flatMap_toText_iff [[], [195], [169]]).mp hall
  exact huncut.2.1 (by decide)

end TerminalOutput

end Bloom
