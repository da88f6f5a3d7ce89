import BloomWorkspaces.Agent.TerminalInput
import BloomWorkspaces.Agent.TerminalOutput

/-!
# Terminals of a pty

The terminal of one instance of `PtyRuntime` and the sockets that `attachTerminal` has attached to it, in
any order of output, input, attaches and closes. A socket that comes late gets the end of what it has missed,
and from then on everything.
-/

namespace Bloom

inductive TerminalMessage
  | output (data : JsText)
  | closed (reason : JsText)
  deriving DecidableEq

namespace TerminalMessage

def data : TerminalMessage → JsText
  | output data => data
  | closed _ => []

def isClosed : TerminalMessage → Bool
  | output _ => false
  | closed _ => true

end TerminalMessage

/-- The messages of a client, before the bound that the schema has for `data`. -/
inductive TerminalRequest
  | input (data : JsText)
  | resize (cols rows : ℤ)
  deriving DecidableEq

/-- The calls that the process gets. -/
inductive PtyCall
  | write (data : JsText)
  | resize (cols rows : ℤ)
  deriving DecidableEq

namespace TerminalRequest

/-- `z.string().max(65_536)` -/
def valid : TerminalRequest → Bool
  | input data => data.length ≤ 65536
  | resize _ _ => true

end TerminalRequest

/-- A socket as the agent sees it: `isOpen` is `readyState === OPEN`, and `closeCode` is the code that the
agent has closed it with. `joined` is history: how much the process had written when the socket was attached,
and `none` for a socket that was refused. -/
structure AttachedSocket where
  isOpen : Bool
  sent : List TerminalMessage
  closeCode : Option ℕ
  joined : Option ℕ
  deriving DecidableEq

/-- `listeners` are the positions of sockets in `sockets`. `output` is history: all that the process has
written. -/
structure PtyTerminal where
  state : InstanceState
  history : JsText
  listeners : List ℕ
  sockets : List AttachedSocket
  calls : List PtyCall
  output : JsText

namespace AttachedSocket

def close (socket : AttachedSocket) (code : ℕ) : AttachedSocket :=
  if socket.isOpen then { socket with isOpen := false, closeCode := some code } else socket

/-- The other end has closed the socket, or begun to. -/
def leave (socket : AttachedSocket) : AttachedSocket := { socket with isOpen := false }

/-- The listener that `attachTerminal` puts on the messages. -/
def onMessage (socket : AttachedSocket) (message : TerminalMessage) : AttachedSocket :=
  if socket.isOpen then
    let sent := { socket with sent := socket.sent ++ [message] }
    if message.isClosed then sent.close 1000 else sent
  else socket

/-- The text that a socket has shown. -/
def shown (socket : AttachedSocket) : JsText := socket.sent.flatMap (·.data)

end AttachedSocket

namespace PtyTerminal

def initial : PtyTerminal := ⟨.running, [], [], [], [], []⟩

/-- `events.emit("message", message)` -/
def emit (t : PtyTerminal) (message : TerminalMessage) : PtyTerminal :=
  { t with
    sockets := t.sockets.mapIdx fun k socket =>
      if k ∈ t.listeners then socket.onMessage message else socket }

/-- `child.onData` -/
def onData (t : PtyTerminal) (data : JsText) : PtyTerminal :=
  { t with history := (t.history ++ data).rtake maxHistory, output := t.output ++ data }.emit (.output data)

/-- `child.onExit` -/
def onExit (t : PtyTerminal) (success : Bool) (reason : JsText) : PtyTerminal :=
  let state : InstanceState :=
    if t.state = .running then if success then .stopped else .failed else t.state
  { t with state := state }.emit (.closed reason)

def stop (t : PtyTerminal) (reason : JsText) : PtyTerminal :=
  if t.state = .running then { t with state := .stopped }.emit (.closed reason) else t

/-- The timer of `forgetLater`, which is only set for an instance that no longer runs. -/
def forget (t : PtyTerminal) : PtyTerminal :=
  if t.state = .running then t else { t with history := [], listeners := [] }

/-- `attachTerminal` for a socket that has just been opened. -/
def attachTerminal (t : PtyTerminal) : PtyTerminal :=
  if t.state = .running then
    let socket : AttachedSocket := ⟨true, [], none, some t.output.length⟩
    { t with
      listeners := t.listeners ++ [t.sockets.length]
      sockets := t.sockets ++ [if t.history = [] then socket else socket.onMessage (.output t.history)] }
  else
    let socket : AttachedSocket := ⟨true, [], none, none⟩
    { t with sockets := t.sockets ++ [socket.close 1011] }

def setSocket (t : PtyTerminal) (k : ℕ) (f : AttachedSocket → AttachedSocket) : PtyTerminal :=
  { t with sockets := t.sockets.modify k f }

/-- `runtime.write`; `none` is a throw. -/
def write (t : PtyTerminal) (data : JsText) : Option PtyTerminal :=
  if maxTerminalInput < Utf16.byteLength data ∨ t.state ≠ .running then none
  else some { t with calls := t.calls ++ [.write data] }

def resize (t : PtyTerminal) (cols rows : ℤ) : PtyTerminal :=
  if t.state = .running then
    { t with calls := t.calls ++ [.resize (max 20 (min 300 cols)) (max 5 (min 120 rows))] }
  else t

/-- The handler of `message` of the socket `k`; a text that is no request is `none`. -/
def onRequest (t : PtyTerminal) (k : ℕ) (request? : Option TerminalRequest) : PtyTerminal :=
  match request?.filter (·.valid) with
  | some (.input data) => (t.write data).getD (t.setSocket k (·.close 1008))
  | some (.resize cols rows) => t.resize cols rows
  | none => t.setSocket k (·.close 1008)

inductive Event
  | data (data : JsText)
  | exit (success : Bool) (reason : JsText)
  | stop (reason : JsText)
  | forget
  | attach
  | request (k : ℕ) (request? : Option TerminalRequest)
  | leave (k : ℕ)
  | closed (k : ℕ)

/-- A socket that was refused has no handlers. A socket leaves `OPEN` before its event `close`, and its
requests may come in between. -/
def step (t : PtyTerminal) : Event → Option PtyTerminal
  | .data data => some (t.onData data)
  | .exit success reason => some (t.onExit success reason)
  | .stop reason => some (t.stop reason)
  | .forget => some t.forget
  | .attach => some t.attachTerminal
  | .request k request? =>
    if (t.sockets[k]?.bind (·.joined)).isSome then some (t.onRequest k request?) else none
  | .leave k => some (t.setSocket k (·.leave))
  | .closed k => some { t.setSocket k (·.leave) with listeners := t.listeners.erase k }

end PtyTerminal

/-! ### What a socket has shown -/

/-- The calls keep to the bounds of the terminal. -/
def PtyCall.Within : PtyCall → Prop
  | write data => Utf16.byteLength data ≤ maxTerminalInput
  | resize cols rows => 20 ≤ cols ∧ cols ≤ 300 ∧ 5 ≤ rows ∧ rows ≤ 120

/-- A socket that was attached when `joined` units of the output had been written has shown the last of them,
as many as the history has room for, and what came later up to some point; while it is open, that point is
now. It is open until the terminal ends, and the message `closed` is its last one. -/
structure Follows (output : JsText) (state : InstanceState) (socket : AttachedSocket) (joined : ℕ) : Prop where
  shows : ∃ upto, joined ≤ upto ∧ upto ≤ output.length ∧
    socket.shown = (output.take upto).drop (joined - maxHistory) ∧
      (socket.isOpen = true → upto = output.length)
  running : socket.isOpen = true → state = .running
  unclosed : socket.isOpen = true → socket.closeCode = none ∧ ∀ message ∈ socket.sent, message.isClosed = false
  closed_last : ∀ message ∈ socket.sent.dropLast, message.isClosed = false
  closed_code : ∀ message ∈ socket.sent, message.isClosed = true → socket.closeCode = some 1000

namespace Follows

variable {output : JsText} {state : InstanceState} {socket : AttachedSocket} {joined : ℕ}

lemma onMessage_of_not_open (message : TerminalMessage) (hopen : ¬socket.isOpen = true) :
    socket.onMessage message = socket := if_neg hopen

lemma of_not_open (hopen : ¬socket.isOpen = true)
    (hshows : ∃ upto, joined ≤ upto ∧ upto ≤ output.length ∧
      socket.shown = (output.take upto).drop (joined - maxHistory))
    (hlast : ∀ message ∈ socket.sent.dropLast, message.isClosed = false)
    (hcode : ∀ message ∈ socket.sent, message.isClosed = true → socket.closeCode = some 1000) :
    Follows output state socket joined where
  shows :=
    let ⟨upto, hjoined, hupto, hshown⟩ := hshows
    ⟨upto, hjoined, hupto, hshown, fun hop => absurd hop hopen⟩
  running hop := absurd hop hopen
  unclosed hop := absurd hop hopen
  closed_last := hlast
  closed_code := hcode

lemma exists_upto (h : Follows output state socket joined) :
    ∃ upto, joined ≤ upto ∧ upto ≤ output.length ∧
      socket.shown = (output.take upto).drop (joined - maxHistory) := by
  obtain ⟨upto, hjoined, hupto, hshown, -⟩ := h.shows
  exact ⟨upto, hjoined, hupto, hshown⟩

/-- A socket that is not open keeps what it has shown. -/
lemma append_of_not_open (h : Follows output state socket joined) (hopen : ¬socket.isOpen = true)
    (data : JsText) (state' : InstanceState) : Follows (output ++ data) state' socket joined := by
  obtain ⟨upto, hjoined, hupto, hshown⟩ := h.exists_upto
  refine of_not_open hopen ⟨upto, hjoined, ?_, ?_⟩ h.closed_last h.closed_code
  · rw [List.length_append]
    exact hupto.trans (Nat.le_add_right _ _)
  · rw [hshown, List.take_append_of_le_length hupto]

lemma after_end (h : Follows output state socket joined) (hopen : ¬socket.isOpen = true)
    (state' : InstanceState) : Follows output state' socket joined := by
  have hkeep := h.append_of_not_open hopen [] state'
  rwa [List.append_nil] at hkeep

lemma after_data (h : Follows output state socket joined) (data : JsText) :
    Follows (output ++ data) state (socket.onMessage (.output data)) joined := by
  by_cases hopen : socket.isOpen = true
  · obtain ⟨upto, hjoined, -, hshown, hnow⟩ := h.shows
    obtain rfl := hnow hopen
    have hsocket : socket.onMessage (.output data) = { socket with sent := socket.sent ++ [.output data] } :=
      if_pos hopen
    rw [hsocket]
    refine ⟨⟨(output ++ data).length, ?_, le_rfl, ?_, fun _ => rfl⟩, h.running, ?_, ?_, ?_⟩
    · rw [List.length_append]
      exact hjoined.trans (Nat.le_add_right _ _)
    · have hnew : AttachedSocket.shown { socket with sent := socket.sent ++ [.output data] } =
          socket.shown ++ data := by
        simp [AttachedSocket.shown, TerminalMessage.data]
      rw [hnew, hshown, List.take_length, List.take_length,
        List.drop_append_of_le_length ((Nat.sub_le _ _).trans hjoined)]
    · intro _
      refine ⟨(h.unclosed hopen).1, fun message hmem => ?_⟩
      rcases List.mem_append.mp hmem with hmem | hmem
      · exact (h.unclosed hopen).2 message hmem
      · obtain rfl := List.mem_singleton.mp hmem
        rfl
    · rw [List.dropLast_concat]
      exact (h.unclosed hopen).2
    · intro message hmem hclosed
      rcases List.mem_append.mp hmem with hmem | hmem
      · exact h.closed_code message hmem hclosed
      · obtain rfl := List.mem_singleton.mp hmem
        cases hclosed
  · rw [onMessage_of_not_open _ hopen]
    exact h.append_of_not_open hopen data state

lemma after_closed (h : Follows output state socket joined) (reason : JsText) (state' : InstanceState) :
    Follows output state' (socket.onMessage (.closed reason)) joined := by
  by_cases hopen : socket.isOpen = true
  · obtain ⟨upto, hjoined, hupto, hshown⟩ := h.exists_upto
    have hsocket : socket.onMessage (.closed reason) =
        { socket with isOpen := false, sent := socket.sent ++ [.closed reason], closeCode := some 1000 } := by
      simp [AttachedSocket.onMessage, AttachedSocket.close, hopen, TerminalMessage.isClosed]
    rw [hsocket]
    refine of_not_open Bool.false_ne_true ⟨upto, hjoined, hupto, ?_⟩ ?_ fun _ _ _ => rfl
    · rw [← hshown]
      simp [AttachedSocket.shown, TerminalMessage.data]
    · rw [List.dropLast_concat]
      exact (h.unclosed hopen).2
  · rw [onMessage_of_not_open _ hopen]
    exact h.after_end hopen state'

lemma after_leave (h : Follows output state socket joined) : Follows output state socket.leave joined :=
  of_not_open Bool.false_ne_true h.exists_upto h.closed_last h.closed_code

lemma after_close (h : Follows output state socket joined) (code : ℕ) :
    Follows output state (socket.close code) joined := by
  by_cases hopen : socket.isOpen = true
  · have hsocket : socket.close code = { socket.leave with closeCode := some code } := if_pos hopen
    rw [hsocket]
    refine of_not_open Bool.false_ne_true h.exists_upto h.closed_last fun message hmem hclosed => ?_
    exact absurd hclosed (by simp [(h.unclosed hopen).2 message hmem])
  · have hsocket : socket.close code = socket := if_neg hopen
    rwa [hsocket]

/-- The first message of a socket is the end of the output that there was. -/
lemma after_attach (output : JsText) :
    Follows output .running
      (if output.rtake maxHistory = [] then ⟨true, [], none, some output.length⟩
      else AttachedSocket.onMessage ⟨true, [], none, some output.length⟩ (.output (output.rtake maxHistory)))
      output.length := by
  split
  · next hempty =>
    refine ⟨⟨output.length, le_rfl, le_rfl, ?_, fun _ => rfl⟩, fun _ => rfl,
      fun _ => ⟨rfl, by simp⟩, by simp, by simp⟩
    rw [List.take_length]
    exact hempty.symm
  · refine ⟨⟨output.length, le_rfl, le_rfl, ?_, fun _ => rfl⟩, fun _ => rfl, fun _ => ⟨rfl, ?_⟩, ?_, ?_⟩
    · simp [AttachedSocket.shown, AttachedSocket.onMessage, TerminalMessage.isClosed, TerminalMessage.data,
        List.rtake]
    all_goals simp [AttachedSocket.onMessage, TerminalMessage.isClosed]

end Follows

namespace PtyTerminal

open Transition

variable {t t' : PtyTerminal}

/-- The invariant of a terminal. -/
structure Faithful (t : PtyTerminal) : Prop where
  history_length : t.history.length ≤ maxHistory
  remembers : t.state = .running → t.history = t.output.rtake maxHistory
  listens : ∀ k socket, t.sockets[k]? = some socket → socket.isOpen = true → k ∈ t.listeners
  follows : ∀ socket ∈ t.sockets, ∀ joined, socket.joined = some joined →
    Follows t.output t.state socket joined
  refused : ∀ socket ∈ t.sockets, socket.joined = none →
    socket.sent = [] ∧ socket.isOpen = false
  within : ∀ call ∈ t.calls, call.Within

lemma faithful_initial : initial.Faithful where
  history_length := Nat.zero_le _
  remembers _ := rfl
  listens _ _ h := by cases h
  follows _ h := by cases h
  refused _ h := by cases h
  within _ h := by cases h

/-- Who is open listens, so a message goes to every socket. -/
lemma sockets_emit (hlistens : ∀ k socket, t.sockets[k]? = some socket → socket.isOpen = true → k ∈ t.listeners)
    (message : TerminalMessage) : (t.emit message).sockets = t.sockets.map (·.onMessage message) := by
  apply List.ext_getElem?
  intro k
  simp only [emit, List.getElem?_mapIdx, List.getElem?_map]
  cases hsocket : t.sockets[k]? with
  | none => rfl
  | some socket =>
    simp only [Option.map_some]
    split
    · rfl
    · next hnot =>
      rw [Follows.onMessage_of_not_open _ fun hopen => hnot (hlistens k socket hsocket hopen)]

lemma joined_onMessage (socket : AttachedSocket) (message : TerminalMessage) :
    (socket.onMessage message).joined = socket.joined := by
  simp only [AttachedSocket.onMessage, AttachedSocket.close]
  split_ifs <;> rfl

lemma isOpen_of_onMessage {socket : AttachedSocket} {message : TerminalMessage}
    (h : (socket.onMessage message).isOpen = true) : socket.isOpen = true := by
  by_contra hopen
  rw [Follows.onMessage_of_not_open message hopen] at h
  exact hopen h

/-- A change of the sockets that opens none and lets each follow the terminal. -/
lemma Faithful.of_map (h : Faithful t) {f : AttachedSocket → AttachedSocket}
    (hsockets : t'.sockets = t.sockets.map f) (hlisteners : t'.listeners = t.listeners)
    (hcalls : t'.calls = t.calls) (hlength : t'.history.length ≤ maxHistory)
    (hremembers : t'.state = .running → t'.history = t'.output.rtake maxHistory)
    (hjoined : ∀ socket, (f socket).joined = socket.joined)
    (hopen : ∀ socket, (f socket).isOpen = true → socket.isOpen = true)
    (hkeep : ∀ socket, socket.isOpen = false → f socket = socket)
    (hfollows : ∀ socket joined, Follows t.output t.state socket joined →
      Follows t'.output t'.state (f socket) joined) : Faithful t' where
  history_length := hlength
  remembers := hremembers
  listens k socket hsocket hop := by
    rw [hsockets, List.getElem?_map, Option.map_eq_some_iff] at hsocket
    obtain ⟨old, hold, rfl⟩ := hsocket
    rw [hlisteners]
    exact h.listens k old hold (hopen old hop)
  follows socket hmem joined hj := by
    rw [hsockets, List.mem_map] at hmem
    obtain ⟨old, hold, rfl⟩ := hmem
    rw [hjoined] at hj
    exact hfollows old joined (h.follows old hold joined hj)
  refused socket hmem hj := by
    rw [hsockets, List.mem_map] at hmem
    obtain ⟨old, hold, rfl⟩ := hmem
    rw [hjoined] at hj
    obtain ⟨hsent, hshut⟩ := h.refused old hold hj
    rw [hkeep old hshut]
    exact ⟨hsent, hshut⟩
  within := by
    rw [hcalls]
    exact h.within

lemma onMessage_of_shut (message : TerminalMessage) (socket : AttachedSocket) (h : socket.isOpen = false) :
    socket.onMessage message = socket :=
  Follows.onMessage_of_not_open message (by rw [h]; exact Bool.false_ne_true)

lemma length_rtake_le (text : JsText) : (text.rtake maxHistory).length ≤ maxHistory := by
  rw [List.rtake, List.length_drop]
  omega

lemma faithful_shown (h : Faithful t) {data history : JsText} (hlength : history.length ≤ maxHistory)
    (hremembers : t.state = .running → history = (t.output ++ data).rtake maxHistory) :
    Faithful ({ t with history := history, output := t.output ++ data }.emit (.output data)) := by
  have hsockets := sockets_emit (t := { t with history := history, output := t.output ++ data }) h.listens
    (.output data)
  exact h.of_map hsockets rfl rfl hlength hremembers (joined_onMessage · _) (fun _ => isOpen_of_onMessage)
    (fun socket => onMessage_of_shut _ socket) fun socket joined hsocket => hsocket.after_data data

lemma faithful_onData (h : Faithful t) (data : JsText) : Faithful (t.onData data) := by
  have hlength := length_rtake_le (t.history ++ data)
  have hremembers : t.state = .running →
      (t.history ++ data).rtake maxHistory = (t.output ++ data).rtake maxHistory := by
    intro hrunning
    rw [h.remembers hrunning, ByteArea.rtake_append_rtake]
  exact faithful_shown h hlength hremembers

/-- The message `closed` of a terminal that has ended. -/
lemma faithful_ended (h : Faithful t) {state : InstanceState} (hended : state ≠ .running) (reason : JsText) :
    Faithful ({ t with state := state }.emit (.closed reason)) := by
  have hsockets := sockets_emit (t := { t with state := state }) h.listens (.closed reason)
  refine h.of_map hsockets rfl rfl h.history_length ?_ (joined_onMessage · _)
    (fun _ => isOpen_of_onMessage) (fun socket => onMessage_of_shut _ socket) ?_
  · exact fun hrunning => absurd hrunning hended
  · exact fun socket joined hsocket => hsocket.after_closed reason state

lemma faithful_onExit (h : Faithful t) (success : Bool) (reason : JsText) :
    Faithful (t.onExit success reason) := by
  apply faithful_ended h
  split
  · cases success
    · exact InstanceState.noConfusion
    · exact InstanceState.noConfusion
  · next hrunning => exact hrunning

lemma faithful_stop (h : Faithful t) (reason : JsText) : Faithful (t.stop reason) := by
  rw [stop]
  split
  · exact faithful_ended h InstanceState.noConfusion reason
  · exact h

lemma faithful_forget (h : Faithful t) : Faithful t.forget := by
  rw [forget]
  split
  · exact h
  · next hrunning =>
    refine ⟨Nat.zero_le _, fun hr => absurd hr hrunning, ?_, h.follows, h.refused, h.within⟩
    intro k socket hsocket hopen
    exfalso
    have hmem := List.mem_of_getElem? hsocket
    cases hj : socket.joined with
    | none => exact Bool.false_ne_true ((h.refused socket hmem hj).2.symm.trans hopen)
    | some joined => exact hrunning ((h.follows socket hmem joined hj).running hopen)

lemma faithful_attachTerminal (h : Faithful t) : Faithful t.attachTerminal := by
  rw [attachTerminal]
  split
  · next hrunning =>
    refine ⟨h.history_length, h.remembers, ?_, ?_, ?_, h.within⟩
    · intro k socket hsocket hopen
      rw [List.mem_append, List.mem_singleton]
      by_cases hlt : k < t.sockets.length
      · rw [List.getElem?_append_left hlt] at hsocket
        exact Or.inl (h.listens k socket hsocket hopen)
      · have hlength := (List.getElem?_eq_some_iff.mp hsocket).1
        rw [List.length_append, List.length_singleton] at hlength
        exact Or.inr (by omega)
    · intro socket hmem joined hj
      rcases List.mem_append.mp hmem with hmem | hmem
      · exact h.follows socket hmem joined hj
      · obtain rfl := List.mem_singleton.mp hmem
        rw [h.remembers hrunning] at hj ⊢
        have hlength : t.output.length = joined := by
          split at hj
          · exact Option.some.inj hj
          · rw [joined_onMessage] at hj
            exact Option.some.inj hj
        subst hlength
        have hattach := Follows.after_attach t.output
        rw [← hrunning] at hattach
        exact hattach
    · intro socket hmem hj
      rcases List.mem_append.mp hmem with hmem | hmem
      · exact h.refused socket hmem hj
      · obtain rfl := List.mem_singleton.mp hmem
        split at hj
        · cases hj
        · rw [joined_onMessage] at hj
          cases hj
  · refine ⟨h.history_length, h.remembers, ?_, ?_, ?_, h.within⟩
    · intro k socket hsocket hopen
      by_cases hlt : k < t.sockets.length
      · rw [List.getElem?_append_left hlt] at hsocket
        exact h.listens k socket hsocket hopen
      · rw [List.getElem?_append_right (Nat.not_lt.mp hlt)] at hsocket
        obtain rfl := List.mem_singleton.mp (List.mem_of_getElem? hsocket)
        cases hopen
    · intro socket hmem joined hj
      rcases List.mem_append.mp hmem with hmem | hmem
      · exact h.follows socket hmem joined hj
      · obtain rfl := List.mem_singleton.mp hmem
        cases hj
    · intro socket hmem hj
      rcases List.mem_append.mp hmem with hmem | hmem
      · exact h.refused socket hmem hj
      · obtain rfl := List.mem_singleton.mp hmem
        exact ⟨rfl, rfl⟩

lemma getElem?_setSocket {j k : ℕ} {f : AttachedSocket → AttachedSocket} {socket : AttachedSocket} :
    (t.setSocket k f).sockets[j]? = some socket ↔
      ∃ old, t.sockets[j]? = some old ∧ (if k = j then f old else old) = socket := by
  simp only [setSocket, List.getElem?_modify, Option.map_eq_map, Option.map_eq_some_iff]

/-- A change of one socket that does not open it. -/
lemma Faithful.setSocket (h : Faithful t) (k : ℕ) {f : AttachedSocket → AttachedSocket}
    (hjoined : ∀ socket, (f socket).joined = socket.joined)
    (hopen : ∀ socket, (f socket).isOpen = true → socket.isOpen = true)
    (hsent : ∀ socket, (f socket).sent = socket.sent)
    (hfollows : ∀ socket joined, Follows t.output t.state socket joined →
      Follows t.output t.state (f socket) joined) : Faithful (t.setSocket k f) := by
  have hmem : ∀ socket ∈ (t.setSocket k f).sockets, socket ∈ t.sockets ∨ ∃ old ∈ t.sockets, socket = f old := by
    intro socket hmem
    obtain ⟨j, hj⟩ := List.mem_iff_getElem?.mp hmem
    obtain ⟨old, hold, rfl⟩ := getElem?_setSocket.mp hj
    have hin := List.mem_of_getElem? hold
    split
    · exact Or.inr ⟨old, hin, rfl⟩
    · exact Or.inl hin
  refine ⟨h.history_length, h.remembers, ?_, ?_, ?_, h.within⟩
  · intro j socket hj hop
    obtain ⟨old, hold, rfl⟩ := getElem?_setSocket.mp hj
    split at hop
    · exact h.listens j old hold (hopen old hop)
    · exact h.listens j old hold hop
  · intro socket hin joined hj
    rcases hmem socket hin with hin | ⟨old, hold, rfl⟩
    · exact h.follows socket hin joined hj
    · rw [hjoined] at hj
      exact hfollows old joined (h.follows old hold joined hj)
  · intro socket hin hj
    rcases hmem socket hin with hin | ⟨old, hold, rfl⟩
    · exact h.refused socket hin hj
    · rw [hjoined] at hj
      obtain ⟨hnone, hshut⟩ := h.refused old hold hj
      refine ⟨(hsent old).trans hnone, Bool.eq_false_iff.mpr fun hop => ?_⟩
      exact Bool.false_ne_true (hshut.symm.trans (hopen old hop))

lemma faithful_leave (h : Faithful t) (k : ℕ) : Faithful (t.setSocket k (·.leave)) :=
  h.setSocket k (fun _ => rfl) (fun _ hop => absurd hop Bool.false_ne_true) (fun _ => rfl)
    fun _ _ hsocket => hsocket.after_leave

lemma faithful_close (h : Faithful t) (k code : ℕ) : Faithful (t.setSocket k (·.close code)) := by
  refine h.setSocket k ?_ ?_ ?_ fun _ _ hsocket => hsocket.after_close code
  all_goals
    intro socket
    simp only [AttachedSocket.close]
    split_ifs <;> simp_all

lemma faithful_closed (h : Faithful t) (k : ℕ) :
    Faithful { t.setSocket k (·.leave) with listeners := t.listeners.erase k } := by
  have hleave := faithful_leave h k
  refine ⟨h.history_length, h.remembers, ?_, hleave.follows, hleave.refused, h.within⟩
  intro j socket hj hop
  by_cases hjk : j = k
  · subst hjk
    obtain ⟨old, -, rfl⟩ := getElem?_setSocket.mp hj
    rw [if_pos rfl] at hop
    cases hop
  · exact (List.mem_erase_of_ne hjk).mpr (hleave.listens j socket hj hop)

lemma faithful_call (h : Faithful t) {call : PtyCall} (hcall : call.Within) :
    Faithful { t with calls := t.calls ++ [call] } := by
  refine ⟨h.history_length, h.remembers, h.listens, h.follows, h.refused, ?_⟩
  intro call' hmem
  rcases List.mem_append.mp hmem with hmem | hmem
  · exact h.within call' hmem
  · obtain rfl := List.mem_singleton.mp hmem
    exact hcall

lemma faithful_write {data : JsText} (h : Faithful t) (hwrite : t.write data = some t') : Faithful t' := by
  simp only [write, Option.ite_none_left_eq_some, Option.some.injEq] at hwrite
  obtain ⟨hbounds, rfl⟩ := hwrite
  exact faithful_call h (Nat.not_lt.mp fun hlt => hbounds (Or.inl hlt))

lemma faithful_resize (h : Faithful t) (cols rows : ℤ) : Faithful (t.resize cols rows) := by
  rw [resize]
  split
  · have hcall : (PtyCall.resize (max 20 (min 300 cols)) (max 5 (min 120 rows))).Within := by
      rw [PtyCall.Within]
      omega
    exact faithful_call h hcall
  · exact h

lemma faithful_onRequest (h : Faithful t) (k : ℕ) (request? : Option TerminalRequest) :
    Faithful (t.onRequest k request?) := by
  rw [onRequest]
  split
  · next data hrequest =>
    cases hwrite : t.write data with
    | none => exact faithful_close h k 1008
    | some t' => exact faithful_write h hwrite
  · exact faithful_resize h _ _
  · exact faithful_close h k 1008

/-- Every step keeps the invariant. -/
lemma faithful_step {event : Event} (h : Faithful t) (hstep : t.step event = some t') : Faithful t' := by
  cases event with
  | data data =>
    cases hstep
    exact faithful_onData h data
  | exit success reason =>
    cases hstep
    exact faithful_onExit h success reason
  | stop reason =>
    cases hstep
    exact faithful_stop h reason
  | forget =>
    cases hstep
    exact faithful_forget h
  | attach =>
    cases hstep
    exact faithful_attachTerminal h
  | request k request? =>
    simp only [step, Option.ite_none_right_eq_some, Option.some.injEq] at hstep
    obtain ⟨-, rfl⟩ := hstep
    exact faithful_onRequest h k request?
  | leave k =>
    cases hstep
    exact faithful_leave h k
  | closed k =>
    cases hstep
    exact faithful_closed h k

/-- In every run of a terminal each socket that was attached has shown the end of what came before it and,
without a gap, what came after it, for as long as it was open; it is told of the end once. -/
theorem faithful_of_leads (h : Leads step anyStep initial t) : Faithful t :=
  Leads.invariant Faithful h faithful_initial fun _ _ _ hf _ hstep => faithful_step hf hstep

/-- A socket comes between two outputs, asks for a size, and sees the process exit. -/
def lateSocket : List Event :=
  [.data [104], .attach, .data [105], .request 0 (some (.resize 1000 1)), .exit true []]

theorem faithful_of_leads_late : ∃ t : PtyTerminal, exec step initial lateSocket = some t ∧
    t.sockets = [⟨false, [.output [104], .output [105], .closed []], some 1000, some 1⟩] ∧
      t.calls = [.resize 300 5] ∧ Faithful t := by
  have hrun : exec step initial lateSocket = some _ := rfl
  exact ⟨_, hrun, by decide, by decide, faithful_of_leads (leads_of_exec hrun)⟩

end PtyTerminal

end Bloom
