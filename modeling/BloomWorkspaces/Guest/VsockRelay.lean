import BloomWorkspaces.Library.ByteArea
import BloomWorkspaces.Library.Transition
import Mathlib.Algebra.Group.Nat.Defs
import Mathlib.Data.List.Basic

/-!
# The terminal relay of the guest

`bloom-vsock-agent.c`: one loop around `poll` between the shell and one client, with the end of the output
as the history that a new client is sent first. A new client takes the place of the old one in the middle
of a round, and the result that `poll` gave for the old one is then taken for it.
-/

namespace Bloom

open ByteArea

/-- `BUFFER_SIZE` -/
@[irreducible] def relayHistorySize : ℕ := 262144

/-- The size of the buffers of `read`. -/
def relayReadSize : ℕ := 8192

/-- `size_t` -/
def sizeModulus : ℕ := 2 ^ 64

lemma relayReadSize_le : relayReadSize ≤ relayHistorySize := by
  unfold relayReadSize relayHistorySize
  decide

/-- The difference of two values of `size_t`. -/
def sizeSub (a b : ℕ) : ℕ := (a + sizeModulus - b) % sizeModulus

lemma sizeSub_eq {a b : ℕ} (ha : a < sizeModulus) (h : b ≤ a) : sizeSub a b = a - b := by
  rw [sizeSub, Nat.sub_add_comm h, Nat.add_mod_right, Nat.mod_eq_of_lt (by omega)]

lemma relayHistorySize_lt : relayHistorySize < sizeModulus / 4 := by
  unfold relayHistorySize
  decide

/-- `history` and `history_len` -/
structure RelayHistory where
  area : ℕ → UInt8
  len : ℕ

namespace RelayHistory

def empty : RelayHistory := ⟨fun _ => 0, 0⟩

/-- What the history holds. -/
def held (h : RelayHistory) : List UInt8 := bytes h.area 0 h.len

/-- `none` where a copy leaves the bounds. -/
def remember (h : RelayHistory) (data : List UInt8) : Option RelayHistory :=
  let total := (h.len + data.length) % sizeModulus
  if relayHistorySize < total then
    let remove := sizeSub total relayHistorySize
    let kept := sizeSub h.len remove
    (memmove relayHistorySize h.area 0 remove kept).bind fun moved =>
      (memcpy relayHistorySize moved kept data).map fun copied => ⟨copied, (kept + data.length) % sizeModulus⟩
  else
    (memcpy relayHistorySize h.area h.len data).map fun copied => ⟨copied, total⟩

variable {h : RelayHistory} {data : List UInt8}

lemma length_held (h : RelayHistory) : h.held.length = h.len := length_bytes _ _ _

/-- No copy leaves the bounds, and the history is the end of what was remembered. -/
theorem remember_bounds (hlen : h.len ≤ relayHistorySize) (hdata : data.length ≤ relayHistorySize) :
    ∃ h', h.remember data = some h' ∧ h'.len ≤ relayHistorySize ∧
      h'.held = (h.held ++ data).rtake relayHistorySize := by
  have hsize := relayHistorySize_lt
  have htotal : (h.len + data.length) % sizeModulus = h.len + data.length :=
    Nat.mod_eq_of_lt (by omega)
  rw [remember]
  simp only [htotal]
  split
  · next hfull =>
    have hremove : sizeSub (h.len + data.length) relayHistorySize = h.len + data.length - relayHistorySize :=
      sizeSub_eq (by omega) (by omega)
    have hkept : sizeSub h.len (h.len + data.length - relayHistorySize) = relayHistorySize - data.length := by
      rw [sizeSub_eq (by omega) (by omega)]
      omega
    have hall : relayHistorySize - data.length + data.length = relayHistorySize := Nat.sub_add_cancel hdata
    rw [hremove, hkept, hall, Nat.mod_eq_of_lt (by omega)]
    have htarget : 0 + (relayHistorySize - data.length) ≤ relayHistorySize := by omega
    have hsource : h.len + data.length - relayHistorySize + (relayHistorySize - data.length) ≤
        relayHistorySize := by omega
    obtain ⟨moved, hmoved, hstart⟩ := memmove_bounds h.area htarget hsource
    obtain ⟨copied, hcopied, hbytes⟩ := memcpy_bounds moved (Nat.le_of_eq hall)
    refine ⟨⟨copied, relayHistorySize⟩, ?_, Nat.le_refl _, ?_⟩
    · rw [hmoved, Option.bind_some, hcopied]
      rfl
    · have hend : bytes moved 0 (relayHistorySize - data.length) =
          h.held.drop (h.len + data.length - relayHistorySize) := by
        rw [hstart, bytes_eq_drop, held]
        congr 2
        omega
      rw [hall, hend] at hbytes
      rw [held, hbytes, List.rtake, List.length_append, length_held,
        List.drop_append_of_le_length (by rw [length_held]; omega)]
  · next hroom =>
    obtain ⟨copied, hcopied, hbytes⟩ := memcpy_bounds h.area (Nat.not_lt.mp hroom)
    refine ⟨⟨copied, h.len + data.length⟩, ?_, Nat.not_lt.mp hroom, ?_⟩
    · rw [hcopied]
      rfl
    · rw [rtake_of_le (by rw [List.length_append, length_held]; exact Nat.not_lt.mp hroom)]
      exact hbytes

end RelayHistory

/-- What a call of `write` returns. -/
inductive WriteResult
  | interrupted
  | failed
  | wrote (n : ℕ)
  deriving DecidableEq, Repr

/-- `write_all`, from the results of its calls of `write`: what was written, and whether it was all. `none`
when these cannot be the results. -/
def writeAll : List WriteResult → List UInt8 → Option (List UInt8 × Bool)
  | [], data => if data.isEmpty then some ([], true) else none
  | result :: results, data =>
    if data.isEmpty then none
    else
      match result with
      | .interrupted => writeAll results data
      | .failed => if results.isEmpty then some ([], false) else none
      | .wrote n =>
        if n = 0 then if results.isEmpty then some ([], false) else none
        else if data.length < n then none
        else (writeAll results (data.drop n)).map fun (written, whole) => (data.take n ++ written, whole)

/-- What a call of `read` does; `ended` is a result of 0 or less, and `blocks` waits for data. -/
inductive RelayReadResult
  | data (bytes : List UInt8)
  | ended
  | blocks
  deriving DecidableEq, Repr

/-- The descriptors that the loop reads from: the pseudo-terminal of the nth shell, and the nth connection
that was accepted. -/
inductive RelaySource
  | shell (n : ℕ)
  | connection (n : ℕ)
  deriving DecidableEq, Repr

/-- What a read of `source` may do when `poll` has reported `polled`. -/
def RelayReadResult.possible (polled : Option RelaySource) (source : RelaySource) : RelayReadResult → Bool
  | .data bytes => !bytes.isEmpty && bytes.length ≤ relayReadSize
  | .ended => true
  | .blocks => polled ≠ some source

/-- A connection, with how much output there was when it was accepted, and all that was written to it. -/
structure RelayConnection where
  number : ℕ
  start : ℕ
  sent : List UInt8
  deriving DecidableEq, Repr

/-- A connection that was closed: how much output there was then, and whether a write to it had failed. -/
structure ClosedConnection where
  connection : RelayConnection
  finish : ℕ
  failed : Bool
  deriving DecidableEq, Repr

/-- A call of `read`, with the descriptor that this round's `poll` was given in its place. -/
structure RelayRead where
  source : RelaySource
  polled : Option RelaySource
  deriving DecidableEq, Repr

/-- The variables of `main`. `output` is all that was remembered, which begins with the banner; `typed` is
what was written to the shells; `overrun` is set by a copy that leaves the bounds of the history, `blocked` by
a read that waits, and `stopped` when the loop is left. -/
structure VsockRelay where
  history : RelayHistory
  shell : ℕ
  client : Option RelayConnection
  accepted : ℕ
  closed : List ClosedConnection
  output : List UInt8
  typed : List UInt8
  reads : List RelayRead
  overrun : Bool
  blocked : Bool
  stopped : Bool

structure Revents where
  pollin : Bool
  pollhup : Bool
  pollerr : Bool
  deriving DecidableEq, Repr

/-- What the system calls of one round return; those that are not made do not matter. `exited` is `waitpid`
that reports the shell, and `restarted` a `start_shell` that succeeds. -/
structure RelayRound where
  listener : Revents
  master : Revents
  client : Revents
  accepts : Bool
  historyWrites : List WriteResult
  shellRead : RelayReadResult
  outputWrites : List WriteResult
  exited : Bool
  restarted : Bool
  clientRead : RelayReadResult
  inputWrites : List WriteResult
  deriving DecidableEq, Repr

namespace VsockRelay

def banner : List UInt8 :=
  "\r\nBloom vsock terminal ready. Check persistence capabilities; do not enter secrets.\r\n".toList.map
    fun c => UInt8.ofNat c.toNat

/-- Before the loop. -/
def initial : VsockRelay where
  history := (RelayHistory.empty.remember banner).getD .empty
  shell := 0
  client := none
  accepted := 0
  closed := []
  output := banner
  typed := []
  reads := []
  overrun := (RelayHistory.empty.remember banner).isNone
  blocked := false
  stopped := false

/-- `close(client); client = -1` -/
def closeClient (s : VsockRelay) (failed : Bool) : VsockRelay :=
  match s.client with
  | none => s
  | some c => { s with client := none, closed := s.closed ++ [⟨c, s.output.length, failed⟩] }

/-- `if (client >= 0 && write_all(client, data, length) < 0) { close(client); client = -1; }` -/
def sendClient (s : VsockRelay) (results : List WriteResult) (data : List UInt8) : Option VsockRelay :=
  match s.client with
  | none => some s
  | some c =>
    (writeAll results data).map fun (written, whole) =>
      let sent := { s with client := some { c with sent := c.sent ++ written } }
      if whole then sent else sent.closeClient true

/-- The listener. -/
def acceptClient (s : VsockRelay) (r : RelayRound) : Option VsockRelay :=
  if r.listener.pollin && r.accepts then
    let closed := s.closeClient false
    let opened := { closed with
      client := some ⟨s.accepted, s.output.length, []⟩
      accepted := s.accepted + 1 }
    if s.history.len ≠ 0 then opened.sendClient r.historyWrites s.history.held else some opened
  else some s

/-- The pseudo-terminal; the loop is left when no shell can be started. -/
def readShell (s : VsockRelay) (r : RelayRound) : Option VsockRelay :=
  if r.master.pollin || r.master.pollhup then
    let source := RelaySource.shell s.shell
    if !RelayReadResult.possible (some source) source r.shellRead then none
    else
      let logged : VsockRelay := { s with reads := s.reads ++ [⟨source, some source⟩] }
      match r.shellRead with
      | .data bytes =>
        match s.history.remember bytes with
        | none => some { logged with overrun := true, stopped := true }
        | some history =>
          { logged with history := history, output := s.output ++ bytes }.sendClient r.outputWrites bytes
      | .ended =>
        if r.exited then
          if r.restarted then some { logged with shell := s.shell + 1 } else some { logged with stopped := true }
        else some logged
      | .blocks => some { logged with blocked := true, stopped := true }
  else some s

/-- The client; `polled` is the one that `poll` was given. -/
def readClient (s : VsockRelay) (polled : Option RelaySource) (r : RelayRound) : Option VsockRelay :=
  match s.client with
  | none => some s
  | some c =>
    if r.client.pollin || r.client.pollhup || r.client.pollerr then
      let source := RelaySource.connection c.number
      if !RelayReadResult.possible polled source r.clientRead then none
      else
        let logged : VsockRelay := { s with reads := s.reads ++ [⟨source, polled⟩] }
        match r.clientRead with
        | .data bytes =>
          (writeAll r.inputWrites bytes).map fun (written, _) => { logged with typed := s.typed ++ written }
        | .ended => some (logged.closeClient false)
        | .blocks => some { logged with blocked := true, stopped := true }
    else some s

/-- What `poll` was given for the client. -/
def polledClient (s : VsockRelay) : Option RelaySource := s.client.map fun c => .connection c.number

/-- One time around the loop; `interrupted` and `failed` are the errors of `poll`, which reports nothing for a
negative descriptor. -/
inductive Event
  | interrupted
  | failed
  | round (r : RelayRound)
  deriving DecidableEq, Repr

def step (s : VsockRelay) : Event → Option VsockRelay
  | .interrupted => if s.stopped then none else some s
  | .failed => if s.stopped then none else some { s with stopped := true }
  | .round r =>
    if s.stopped || s.client.isNone && (r.client.pollin || r.client.pollhup || r.client.pollerr) then none
    else
      (s.acceptClient r).bind fun accepted =>
        (accepted.readShell r).bind fun relayed =>
          if relayed.stopped then some relayed else relayed.readClient s.polledClient r

/-! ### The law of the relay -/

/-- What a connection that was accepted after `start` bytes of output is sent until there are `finish`. -/
def stream (output : List UInt8) (start finish : ℕ) : List UInt8 :=
  (output.take start).rtake relayHistorySize ++ (output.take finish).drop start

/-- The history is the end of the output, no copy has left its bounds, each connection was sent the history and
what came after it until it was closed, and each read was of a descriptor that `poll` had reported. -/
structure Relayed (s : VsockRelay) : Prop where
  history : s.history.held = s.output.rtake relayHistorySize
  inBounds : s.overrun = false
  client : ∀ c, s.client = some c → c.sent = stream s.output c.start s.output.length
  closed : ∀ d ∈ s.closed, d.connection.sent <+: stream s.output d.connection.start d.finish ∧
    (d.failed = false → d.connection.sent = stream s.output d.connection.start d.finish)
  polled : ∀ r ∈ s.reads, r.polled = some r.source
  free : s.blocked = false

/-- The round accepts a connection that is the client when the turn of the client comes: the history is
written to it, and so is the output of the round, and the shell does not end for good. -/
def replacesClient (s : VsockRelay) (r : RelayRound) : Bool :=
  r.listener.pollin && r.accepts &&
    !(s.history.len ≠ 0 && (writeAll r.historyWrites s.history.held).any fun x => !x.2) &&
    !((r.master.pollin || r.master.pollhup) &&
      match r.shellRead with
      | .data bytes => (writeAll r.outputWrites bytes).any fun x => !x.2
      | .ended => r.exited && !r.restarted
      | .blocks => false)

/-- A round in which `poll` reports the client does not put another one in its place. -/
def keepsPolled (s : VsockRelay) : Event → Bool
  | .round r => !((r.client.pollin || r.client.pollhup || r.client.pollerr) && s.replacesClient r)
  | .interrupted | .failed => true

variable {s s' : VsockRelay} {c : RelayConnection} {results : List WriteResult} {data output : List UInt8}
  {r : RelayRound} {start finish : ℕ}

/-! ### Writing -/

lemma writeAll_spec {written : List UInt8} {whole : Bool} (h : writeAll results data = some (written, whole)) :
    written <+: data ∧ (whole = true → written = data) := by
  induction results generalizing data written with
  | nil =>
    rw [writeAll] at h
    split at h
    · next hempty =>
      cases h
      rw [List.isEmpty_iff.mp hempty]
      exact ⟨List.prefix_refl _, fun _ => rfl⟩
    · cases h
  | cons result results ih =>
    cases result with
    | interrupted =>
      rw [writeAll] at h
      split_ifs at h
      exact ih h
    | failed =>
      rw [writeAll] at h
      split_ifs at h
      cases h
      exact ⟨List.nil_prefix, nofun⟩
    | wrote n =>
      rw [writeAll] at h
      split_ifs at h
      · cases h
        exact ⟨List.nil_prefix, nofun⟩
      · obtain ⟨⟨rest, whole'⟩, hrest, heq⟩ := Option.map_eq_some_iff.mp h
        cases heq
        obtain ⟨hfront, hwhole⟩ := ih hrest
        constructor
        · conv_rhs => rw [← List.take_append_drop n data]
          exact (List.prefix_append_right_inj _).mpr hfront
        · intro hall
          rw [hwhole hall, List.take_append_drop]

/-! ### Streams -/

lemma stream_self (output : List UInt8) :
    stream output output.length output.length = output.rtake relayHistorySize := by
  rw [stream, List.take_length, List.drop_length, List.append_nil]

/-- Later output does not change what was to be sent before. -/
lemma stream_append (hstart : start ≤ finish) (hfinish : finish ≤ output.length) (data : List UInt8) :
    stream (output ++ data) start finish = stream output start finish := by
  rw [stream, stream, List.take_append_of_le_length (Nat.le_trans hstart hfinish),
    List.take_append_of_le_length hfinish]

lemma stream_extend (hstart : start ≤ output.length) (data : List UInt8) :
    stream (output ++ data) start (output ++ data).length = stream output start output.length ++ data := by
  rw [stream, stream, List.take_append_of_le_length hstart, List.take_length, List.take_length,
    List.drop_append_of_le_length hstart, List.append_assoc]

/-! ### Clients -/

/-- What the loop keeps, apart from the client. -/
structure Recorded (s : VsockRelay) : Prop where
  len : s.history.len ≤ relayHistorySize
  history : s.history.held = s.output.rtake relayHistorySize
  inBounds : s.overrun = false
  closed : ∀ d ∈ s.closed, d.connection.start ≤ d.finish ∧ d.finish ≤ s.output.length ∧
    d.connection.sent <+: stream s.output d.connection.start d.finish ∧
    (d.failed = false → d.connection.sent = stream s.output d.connection.start d.finish)

/-- The client would be up to date if it were sent `data`. -/
def Behind (s : VsockRelay) (data : List UInt8) : Prop :=
  ∀ c, s.client = some c →
    c.start ≤ s.output.length ∧ c.sent ++ data = stream s.output c.start s.output.length

lemma Recorded.closeClient (h : s.Recorded) (failed : Bool)
    (hclient : ∀ c, s.client = some c → c.start ≤ s.output.length ∧
      c.sent <+: stream s.output c.start s.output.length ∧
      (failed = false → c.sent = stream s.output c.start s.output.length)) :
    (s.closeClient failed).Recorded ∧ (s.closeClient failed).client = none := by
  rw [VsockRelay.closeClient]
  split
  · next hnone => exact ⟨h, hnone⟩
  · next c hc =>
    refine ⟨⟨h.len, h.history, h.inBounds, ?_⟩, rfl⟩
    intro d hd
    rcases List.mem_append.mp hd with hd | hd
    · exact h.closed d hd
    · obtain rfl := List.mem_singleton.mp hd
      obtain ⟨hstart, hfront, hall⟩ := hclient c hc
      exact ⟨hstart, Nat.le_refl _, hfront, hall⟩

lemma sendClient_cases (h : s.sendClient results data = some s') :
    (s.client = none ∧ s' = s) ∨
      ∃ c written whole, s.client = some c ∧ writeAll results data = some (written, whole) ∧
        s' = if whole then { s with client := some { c with sent := c.sent ++ written } }
          else { s with client := some { c with sent := c.sent ++ written } }.closeClient true := by
  rw [sendClient] at h
  split at h
  · next hnone => exact Or.inl ⟨hnone, (Option.some.inj h).symm⟩
  · next c hc =>
    obtain ⟨⟨written, whole⟩, hwrite, heq⟩ := Option.map_eq_some_iff.mp h
    exact Or.inr ⟨c, written, whole, hc, hwrite, heq.symm⟩

lemma Recorded.sendClient (h : s.Recorded) (hbehind : s.Behind data)
    (hs : s.sendClient results data = some s') : s'.Recorded ∧ s'.Behind [] := by
  rcases sendClient_cases hs with ⟨hnone, rfl⟩ | ⟨c, written, whole, hc, hwrite, rfl⟩
  · refine ⟨h, fun c hc => ?_⟩
    rw [hnone] at hc
    cases hc
  · obtain ⟨hfront, hwhole⟩ := writeAll_spec hwrite
    obtain ⟨hstart, hsent⟩ := hbehind c hc
    cases whole with
    | true =>
      refine ⟨⟨h.len, h.history, h.inBounds, h.closed⟩, fun c' hc' => ?_⟩
      cases hc'
      rw [hwhole rfl, List.append_nil]
      exact ⟨hstart, hsent⟩
    | false =>
      have hrecorded : Recorded { s with client := some { c with sent := c.sent ++ written } } :=
        ⟨h.len, h.history, h.inBounds, h.closed⟩
      obtain ⟨hclosed, hnone⟩ := hrecorded.closeClient true fun c' hc' => by
        cases hc'
        refine ⟨hstart, ?_, nofun⟩
        rw [← hsent]
        exact (List.prefix_append_right_inj _).mpr hfront
      refine ⟨hclosed, fun c' hc' => ?_⟩
      rw [if_neg Bool.false_ne_true, hnone] at hc'
      cases hc'

lemma Behind.upToDate (h : s.Behind []) (hc : s.client = some c) :
    c.start ≤ s.output.length ∧ c.sent = stream s.output c.start s.output.length := by
  have hbehind := h c hc
  rwa [List.append_nil] at hbehind

/-- A client that is up to date is closed. -/
lemma Recorded.closeUpToDate (h : s.Recorded) (hbehind : s.Behind []) :
    (s.closeClient false).Recorded ∧ (s.closeClient false).client = none := by
  apply h.closeClient
  intro c hc
  obtain ⟨hstart, hsent⟩ := hbehind.upToDate hc
  exact ⟨hstart, hsent ▸ List.prefix_refl _, fun _ => hsent⟩

/-- What a step on the client alone leaves as it is. -/
structure Untouched (s s' : VsockRelay) : Prop where
  history : s'.history = s.history
  output : s'.output = s.output
  shell : s'.shell = s.shell
  reads : s'.reads = s.reads
  blocked : s'.blocked = s.blocked
  stopped : s'.stopped = s.stopped

lemma Untouched.refl (s : VsockRelay) : Untouched s s := ⟨rfl, rfl, rfl, rfl, rfl, rfl⟩

lemma Untouched.trans {s'' : VsockRelay} (h : Untouched s s') (h' : Untouched s' s'') : Untouched s s'' :=
  ⟨h'.history.trans h.history, h'.output.trans h.output, h'.shell.trans h.shell, h'.reads.trans h.reads,
    h'.blocked.trans h.blocked, h'.stopped.trans h.stopped⟩

lemma untouched_closeClient (s : VsockRelay) (failed : Bool) : Untouched s (s.closeClient failed) := by
  rw [closeClient]
  split
  · exact Untouched.refl s
  · exact ⟨rfl, rfl, rfl, rfl, rfl, rfl⟩

lemma untouched_sendClient (h : s.sendClient results data = some s') : Untouched s s' := by
  rcases sendClient_cases h with ⟨-, rfl⟩ | ⟨c, written, whole, -, -, rfl⟩
  · exact Untouched.refl s'
  · have hsent : Untouched s { s with client := some { c with sent := c.sent ++ written } } :=
      ⟨rfl, rfl, rfl, rfl, rfl, rfl⟩
    split
    · exact hsent
    · exact hsent.trans (untouched_closeClient _ _)

/-- The client after a write is the one before it. -/
lemma client_sendClient (h : s.sendClient results data = some s') (hc : s'.client = some c) :
    ∃ c₀, s.client = some c₀ ∧ c₀.number = c.number ∧ ∃ written, writeAll results data = some (written, true) := by
  rcases sendClient_cases h with ⟨hnone, rfl⟩ | ⟨c₀, written, whole, hc₀, hwrite, rfl⟩
  · rw [hnone] at hc
    cases hc
  · cases whole with
    | true =>
      cases hc
      exact ⟨c₀, hc₀, rfl, written, hwrite⟩
    | false => cases hc

/-! ### The listener -/

lemma acceptClient_cases (h : s.acceptClient r = some s') :
    ((r.listener.pollin && r.accepts) = false ∧ s' = s) ∨
      (r.listener.pollin && r.accepts) = true ∧ ∃ opened : VsockRelay,
        opened = { s.closeClient false with
          client := some ⟨s.accepted, s.output.length, []⟩
          accepted := s.accepted + 1 } ∧
        (s.history.len ≠ 0 ∧ opened.sendClient r.historyWrites s.history.held = some s' ∨
          s.history.len = 0 ∧ s' = opened) := by
  rw [acceptClient] at h
  split at h
  · next haccept =>
    refine Or.inr ⟨haccept, _, rfl, ?_⟩
    simp only at h
    split_ifs at h with hlen
    · exact Or.inl ⟨hlen, h⟩
    · exact Or.inr ⟨not_not.mp hlen, (Option.some.inj h).symm⟩
  · next haccept => exact Or.inl ⟨Bool.eq_false_iff.mpr haccept, (Option.some.inj h).symm⟩

lemma untouched_acceptClient (h : s.acceptClient r = some s') : Untouched s s' := by
  rcases acceptClient_cases h with ⟨-, rfl⟩ | ⟨-, opened, hopened, hsent⟩
  · exact Untouched.refl s'
  · have hclosed := untouched_closeClient s false
    have hstart : Untouched s opened := by
      rw [hopened]
      exact ⟨hclosed.history, hclosed.output, hclosed.shell, hclosed.reads, hclosed.blocked, hclosed.stopped⟩
    rcases hsent with ⟨-, hsent⟩ | ⟨-, rfl⟩
    · exact hstart.trans (untouched_sendClient hsent)
    · exact hstart

lemma Recorded.acceptClient (h : s.Recorded) (hbehind : s.Behind []) (hs : s.acceptClient r = some s') :
    s'.Recorded ∧ s'.Behind [] := by
  rcases acceptClient_cases hs with ⟨-, rfl⟩ | ⟨-, opened, hopened, hsent⟩
  · exact ⟨h, hbehind⟩
  · obtain ⟨hclosed, -⟩ := h.closeUpToDate hbehind
    have houtput := (untouched_closeClient s false).output
    have hrecorded : opened.Recorded := by
      rw [hopened]
      exact ⟨hclosed.len, hclosed.history, hclosed.inBounds, hclosed.closed⟩
    have hnew : opened.Behind s.history.held := by
      rw [hopened]
      intro c hc
      cases hc
      show s.output.length ≤ (s.closeClient false).output.length ∧
        s.history.held = stream (s.closeClient false).output s.output.length
          (s.closeClient false).output.length
      rw [houtput, stream_self]
      exact ⟨Nat.le_refl _, h.history⟩
    rcases hsent with ⟨-, hsent⟩ | ⟨hlen, rfl⟩
    · exact hrecorded.sendClient hnew hsent
    · have hempty : s.history.held = [] := by
        rw [← List.length_eq_zero_iff, RelayHistory.length_held, hlen]
      rw [hempty] at hnew
      exact ⟨hrecorded, hnew⟩

/-! ### The shell -/

lemma length_le_of_possible {polled : Option RelaySource} {source : RelaySource} {read : RelayReadResult}
    {bytes : List UInt8} (h : RelayReadResult.possible polled source read = true) (hread : read = .data bytes) :
    bytes.length ≤ relayHistorySize := by
  subst hread
  obtain ⟨-, hlen⟩ := Bool.and_eq_true_iff.mp h
  have hread := of_decide_eq_true hlen
  have hsize := relayReadSize_le
  omega

/-- What the turn of the shell does when `poll` reports its pseudo-terminal. -/
lemma readShell_cases (h : s.Recorded) (hs : s.readShell r = some s') :
    (r.master.pollin || r.master.pollhup) = false ∧ s' = s ∨
      (r.master.pollin || r.master.pollhup) = true ∧ ∃ logged : VsockRelay,
      logged = { s with reads := s.reads ++ [⟨.shell s.shell, some (.shell s.shell)⟩] } ∧
      ((∃ bytes history, r.shellRead = .data bytes ∧ history.len ≤ relayHistorySize ∧
          history.held = (s.history.held ++ bytes).rtake relayHistorySize ∧
          { logged with history := history, output := s.output ++ bytes }.sendClient r.outputWrites bytes =
            some s') ∨
        r.shellRead = .ended ∧ (r.exited && !r.restarted) = false ∧
          (s' = logged ∨ s' = { logged with shell := s.shell + 1 }) ∨
        r.shellRead = .ended ∧ s' = { logged with stopped := true }) := by
  rw [readShell] at hs
  split at hs
  · next hready =>
    refine Or.inr ⟨hready, _, rfl, ?_⟩
    simp only at hs
    split at hs
    · cases hs
    · next hpossible =>
      simp only [Bool.not_eq_true, Bool.not_eq_false'] at hpossible
      split at hs
      · next bytes hread =>
        obtain ⟨history, hhistory, hlen, hheld⟩ :=
          RelayHistory.remember_bounds h.len (length_le_of_possible hpossible hread)
        rw [hhistory] at hs
        exact Or.inl ⟨bytes, history, hread, hlen, hheld, hs⟩
      · next hread =>
        cases hexited : r.exited with
        | false =>
          rw [hexited, if_neg Bool.false_ne_true] at hs
          exact Or.inr (Or.inl ⟨hread, rfl, Or.inl (Option.some.inj hs).symm⟩)
        | true =>
          cases hrestarted : r.restarted with
          | false =>
            rw [hexited, hrestarted, if_pos rfl, if_neg Bool.false_ne_true] at hs
            exact Or.inr (Or.inr ⟨hread, (Option.some.inj hs).symm⟩)
          | true =>
            rw [hexited, hrestarted, if_pos rfl, if_pos rfl] at hs
            exact Or.inr (Or.inl ⟨hread, rfl, Or.inr (Option.some.inj hs).symm⟩)
      · next hread =>
        rw [hread] at hpossible
        exact absurd rfl (of_decide_eq_true hpossible)
  · next hready => exact Or.inl ⟨Bool.eq_false_iff.mpr hready, (Option.some.inj hs).symm⟩

/-- Output is remembered, and the client has still to be sent it. -/
lemma Recorded.extend {history : RelayHistory} (h : s.Recorded) (hbehind : s.Behind [])
    (hlen : history.len ≤ relayHistorySize)
    (hheld : history.held = (s.history.held ++ data).rtake relayHistorySize) (reads : List RelayRead) :
    Recorded { s with history := history, output := s.output ++ data, reads := reads } ∧
      Behind { s with history := history, output := s.output ++ data, reads := reads } data := by
  refine ⟨⟨hlen, ?_, h.inBounds, ?_⟩, ?_⟩
  · rw [hheld, h.history, rtake_append_rtake]
  · intro d hd
    obtain ⟨hstart, hfinish, hsent⟩ := h.closed d hd
    refine ⟨hstart, ?_, ?_⟩
    · show d.finish ≤ (s.output ++ data).length
      rw [List.length_append]
      omega
    · rw [stream_append hstart hfinish]
      exact hsent
  · intro c hc
    obtain ⟨hstart, hsent⟩ := hbehind.upToDate hc
    show c.start ≤ (s.output ++ data).length ∧
      c.sent ++ data = stream (s.output ++ data) c.start (s.output ++ data).length
    rw [stream_extend hstart, hsent]
    refine ⟨?_, rfl⟩
    rw [List.length_append]
    omega

lemma Recorded.readShell (h : s.Recorded) (hbehind : s.Behind []) (hs : s.readShell r = some s') :
    s'.Recorded ∧ s'.Behind [] := by
  rcases readShell_cases h hs with ⟨-, rfl⟩ | ⟨-, logged, rfl, hturn⟩
  · exact ⟨h, hbehind⟩
  rcases hturn with ⟨bytes, history, -, hlen, hheld, hsent⟩ | ⟨-, -, rfl | rfl⟩ | ⟨-, rfl⟩
  · obtain ⟨hrecorded, hlate⟩ := h.extend hbehind hlen hheld _
    exact hrecorded.sendClient hlate hsent
  all_goals exact ⟨⟨h.len, h.history, h.inBounds, h.closed⟩, hbehind⟩

/-- Every read so far was of what `poll` had reported, and none waits. -/
structure Watched (s : VsockRelay) : Prop where
  polled : ∀ read ∈ s.reads, read.polled = some read.source
  free : s.blocked = false

lemma Watched.untouched (h : s.Watched) (hs : Untouched s s') : s'.Watched where
  polled := by
    rw [hs.reads]
    exact h.polled
  free := hs.blocked.trans h.free

lemma Watched.log (h : s.Watched) (source : RelaySource) (s' : VsockRelay)
    (hreads : s'.reads = s.reads ++ [⟨source, some source⟩]) (hblocked : s'.blocked = s.blocked) :
    s'.Watched where
  polled read hread := by
    rw [hreads] at hread
    rcases List.mem_append.mp hread with hread | hread
    · exact h.polled read hread
    · rw [List.mem_singleton.mp hread]
  free := hblocked.trans h.free

lemma Watched.readShell (h : s.Watched) (hrecorded : s.Recorded) (hs : s.readShell r = some s') :
    s'.Watched := by
  rcases readShell_cases hrecorded hs with ⟨-, rfl⟩ | ⟨-, logged, rfl, hturn⟩
  · exact h
  rcases hturn with ⟨bytes, history, -, -, -, hsent⟩ | ⟨-, -, rfl | rfl⟩ | ⟨-, rfl⟩
  · refine Watched.untouched ?_ (untouched_sendClient hsent)
    exact h.log _ _ rfl rfl
  all_goals exact h.log _ _ rfl rfl

/-- The client after the turn of the shell is the one before it, and what was read was written to it. -/
lemma client_readShell (h : s.Recorded) (hs : s.readShell r = some s') (hc : s'.client = some c)
    (hgoing : s'.stopped = false) :
    (∃ c₀, s.client = some c₀ ∧ c₀.number = c.number) ∧
      ((r.master.pollin || r.master.pollhup) &&
        match r.shellRead with
        | .data bytes => (writeAll r.outputWrites bytes).any fun x => !x.2
        | .ended => r.exited && !r.restarted
        | .blocks => false) = false := by
  rcases readShell_cases h hs with ⟨hready, rfl⟩ | ⟨hready, logged, rfl, hturn⟩
  · exact ⟨⟨c, hc, rfl⟩, by rw [hready, Bool.false_and]⟩
  rcases hturn with ⟨bytes, history, hread, -, -, hsent⟩ | ⟨hread, hexit, rfl | rfl⟩ | ⟨-, rfl⟩
  · obtain ⟨c₀, hc₀, hnumber, written, hwrite⟩ := client_sendClient hsent hc
    refine ⟨⟨c₀, hc₀, hnumber⟩, ?_⟩
    rw [hready, hread]
    simp [hwrite]
  · refine ⟨⟨c, hc, rfl⟩, ?_⟩
    rw [hready, hread]
    exact hexit
  · refine ⟨⟨c, hc, rfl⟩, ?_⟩
    rw [hready, hread]
    exact hexit
  · cases hgoing

/-! ### The client -/

lemma readClient_cases {polled : Option RelaySource} (hs : s.readClient polled r = some s') :
    s' = s ∨ ∃ c, s.client = some c ∧ (r.client.pollin || r.client.pollhup || r.client.pollerr) = true ∧
      ∃ logged : VsockRelay,
        logged = { s with reads := s.reads ++ [⟨.connection c.number, polled⟩] } ∧
        ((∃ typed, s' = { logged with typed := typed }) ∨ s' = logged.closeClient false ∨
          polled ≠ some (.connection c.number) ∧ s' = { logged with blocked := true, stopped := true }) := by
  rw [readClient] at hs
  split at hs
  · exact Or.inl (Option.some.inj hs).symm
  · next c hc =>
    split at hs
    · next hready =>
      refine Or.inr ⟨c, hc, hready, _, rfl, ?_⟩
      simp only at hs
      split at hs
      · cases hs
      · next hpossible =>
        simp only [Bool.not_eq_true, Bool.not_eq_false'] at hpossible
        split at hs
        · obtain ⟨⟨written, whole⟩, -, heq⟩ := Option.map_eq_some_iff.mp hs
          exact Or.inl ⟨_, heq.symm⟩
        · exact Or.inr (Or.inl (Option.some.inj hs).symm)
        · next hread =>
          rw [hread] at hpossible
          exact Or.inr (Or.inr ⟨of_decide_eq_true hpossible, (Option.some.inj hs).symm⟩)
    · exact Or.inl (Option.some.inj hs).symm

lemma Recorded.readClient {polled : Option RelaySource} (h : s.Recorded) (hbehind : s.Behind [])
    (hs : s.readClient polled r = some s') : s'.Recorded ∧ s'.Behind [] := by
  rcases readClient_cases hs with rfl | ⟨c, -, -, logged, rfl, hturn⟩
  · exact ⟨h, hbehind⟩
  have hlogged : Recorded { s with reads := s.reads ++ [⟨.connection c.number, polled⟩] } :=
    ⟨h.len, h.history, h.inBounds, h.closed⟩
  rcases hturn with ⟨typed, rfl⟩ | rfl | ⟨-, rfl⟩
  · exact ⟨⟨h.len, h.history, h.inBounds, h.closed⟩, hbehind⟩
  · obtain ⟨hclosed, hnone⟩ := hlogged.closeUpToDate hbehind
    refine ⟨hclosed, fun c' hc' => ?_⟩
    rw [hnone] at hc'
    cases hc'
  · exact ⟨⟨h.len, h.history, h.inBounds, h.closed⟩, hbehind⟩

/-- A client that is the one `poll` was given is read without waiting. -/
lemma Watched.readClient {polled : Option RelaySource} (h : s.Watched)
    (hpolled : ∀ c, s.client = some c → (r.client.pollin || r.client.pollhup || r.client.pollerr) = true →
      polled = some (.connection c.number)) (hs : s.readClient polled r = some s') : s'.Watched := by
  rcases readClient_cases hs with rfl | ⟨c, hc, hready, logged, rfl, hturn⟩
  · exact h
  have hsame := hpolled c hc hready
  rw [hsame] at hturn
  rcases hturn with ⟨typed, rfl⟩ | rfl | ⟨hother, -⟩
  · exact h.log _ _ rfl rfl
  · refine Watched.untouched ?_ (untouched_closeClient _ _)
    exact h.log _ _ rfl rfl
  · exact absurd rfl hother

/-- The client that the round is left with is the one that `poll` was given, unless it was replaced. -/
lemma polledClient_of_kept {accepted relayed : VsockRelay} (h : s.Recorded) (hbehind : s.Behind [])
    (haccepted : s.acceptClient r = some accepted) (hrelayed : accepted.readShell r = some relayed)
    (hgoing : relayed.stopped = false) (hc : relayed.client = some c) (hkept : s.replacesClient r = false) :
    s.polledClient = some (.connection c.number) := by
  obtain ⟨hrecorded, -⟩ := h.acceptClient hbehind haccepted
  obtain ⟨⟨c₀, hc₀, hnumber⟩, hshell⟩ := client_readShell hrecorded hrelayed hc hgoing
  rcases acceptClient_cases haccepted with ⟨-, rfl⟩ | ⟨haccept, opened, hopened, hsent⟩
  · rw [polledClient, hc₀, Option.map_some, hnumber]
  · exfalso
    have hhistory : (s.history.len ≠ 0 &&
        (writeAll r.historyWrites s.history.held).any fun x => !x.2) = false := by
      rcases hsent with ⟨-, hsent⟩ | ⟨hlen, -⟩
      · obtain ⟨-, -, -, written, hwrite⟩ := client_sendClient hsent hc₀
        rw [hwrite]
        simp
      · simp [hlen]
    rw [replacesClient, haccept, hhistory, hshell] at hkept
    cases hkept

/-! ### Runs -/

lemma initial_eq : ∃ history : RelayHistory, RelayHistory.empty.remember banner = some history ∧
    history.len ≤ relayHistorySize ∧ history.held = banner.rtake relayHistorySize := by
  have hbanner : banner.length ≤ relayHistorySize := by
    unfold relayHistorySize
    decide
  exact RelayHistory.remember_bounds (Nat.zero_le _) hbanner

lemma recorded_initial : initial.Recorded ∧ initial.Behind [] := by
  obtain ⟨history, hremember, hlen, hheld⟩ := initial_eq
  refine ⟨⟨?_, ?_, ?_, fun d hd => ?_⟩, fun c hc => ?_⟩
  · rw [initial, hremember]
    exact hlen
  · rw [initial, hremember]
    exact hheld
  · rw [initial, hremember]
    rfl
  · cases hd
  · cases hc

lemma step_cases {r : RelayRound} (hs : s.step (.round r) = some s') :
    ∃ accepted relayed, s.acceptClient r = some accepted ∧ accepted.readShell r = some relayed ∧
      (relayed.stopped = true ∧ s' = relayed ∨
        relayed.stopped = false ∧ relayed.readClient s.polledClient r = some s') := by
  simp only [step] at hs
  split at hs
  · cases hs
  obtain ⟨accepted, haccepted, hs⟩ := Option.bind_eq_some_iff.mp hs
  obtain ⟨relayed, hrelayed, hs⟩ := Option.bind_eq_some_iff.mp hs
  refine ⟨accepted, relayed, haccepted, hrelayed, ?_⟩
  cases hstopped : relayed.stopped with
  | true =>
    rw [hstopped, if_pos rfl] at hs
    exact Or.inl ⟨rfl, (Option.some.inj hs).symm⟩
  | false =>
    rw [hstopped, if_neg Bool.false_ne_true] at hs
    exact Or.inr ⟨rfl, hs⟩

lemma Recorded.step {e : Event} (h : s.Recorded) (hbehind : s.Behind []) (hs : s.step e = some s') :
    s'.Recorded ∧ s'.Behind [] := by
  cases e with
  | interrupted =>
    simp only [VsockRelay.step] at hs
    split_ifs at hs
    cases hs
    exact ⟨h, hbehind⟩
  | failed =>
    simp only [VsockRelay.step] at hs
    split_ifs at hs
    cases hs
    exact ⟨⟨h.len, h.history, h.inBounds, h.closed⟩, hbehind⟩
  | round r =>
    obtain ⟨accepted, relayed, haccepted, hrelayed, hturn⟩ := step_cases hs
    obtain ⟨hrecorded, hbehind'⟩ := h.acceptClient hbehind haccepted
    have hkept := hrecorded.readShell hbehind' hrelayed
    rcases hturn with ⟨-, rfl⟩ | ⟨-, hread⟩
    · exact hkept
    · exact hkept.1.readClient hkept.2 hread

lemma Watched.step {e : Event} (h : s.Watched) (hrecorded : s.Recorded) (hbehind : s.Behind [])
    (hkept : s.keepsPolled e = true) (hs : s.step e = some s') : s'.Watched := by
  cases e with
  | interrupted =>
    simp only [VsockRelay.step] at hs
    split_ifs at hs
    cases hs
    exact h
  | failed =>
    simp only [VsockRelay.step] at hs
    split_ifs at hs
    cases hs
    exact ⟨h.polled, h.free⟩
  | round r =>
    obtain ⟨accepted, relayed, haccepted, hrelayed, hturn⟩ := step_cases hs
    have hshell := Watched.readShell (h.untouched (untouched_acceptClient haccepted))
      (hrecorded.acceptClient hbehind haccepted).1 hrelayed
    rcases hturn with ⟨-, rfl⟩ | ⟨hgoing, hread⟩
    · exact hshell
    · refine hshell.readClient (fun c hc hready => ?_) hread
      have hsame : s.replacesClient r = false := by
        rw [keepsPolled, hready, Bool.true_and] at hkept
        simpa using hkept
      exact polledClient_of_kept hrecorded hbehind haccepted hrelayed hgoing hc hsame

/-- The history and the streams of the connections are kept in every run. -/
theorem recorded_of_leads (h : Transition.Leads step Transition.anyStep initial s) :
    s.Recorded ∧ s.Behind [] :=
  h.invariant (fun t => t.Recorded ∧ t.Behind []) recorded_initial fun _ _ _ ht _ hs => ht.1.step ht.2 hs

lemma Recorded.relayed (h : s.Recorded) (hbehind : s.Behind []) (hwatched : s.Watched) : s.Relayed where
  history := h.history
  inBounds := h.inBounds
  client _ hc := (hbehind.upToDate hc).2
  closed d hd := (h.closed d hd).2.2
  polled := hwatched.polled
  free := hwatched.free

/-- In every run in which no round puts another connection in the place of a client that `poll` has reported,
the history, the streams and the reads are as they should be. -/
theorem relayed_of_keepsPolled (h : Transition.Leads step (fun s e => s.keepsPolled e = true) initial s) :
    s.Relayed := by
  have hall : s.Recorded ∧ s.Behind [] ∧ s.Watched := by
    refine h.invariant (fun t => t.Recorded ∧ t.Behind [] ∧ t.Watched)
      ⟨recorded_initial.1, recorded_initial.2, nofun, rfl⟩ ?_
    rintro t e t' ⟨hrecorded, hbehind, hwatched⟩ hkept hs
    obtain ⟨hrecorded', hbehind'⟩ := hrecorded.step hbehind hs
    exact ⟨hrecorded', hbehind', hwatched.step hrecorded hbehind hkept hs⟩
  exact hall.1.relayed hall.2.1 hall.2.2

/-- A round in which nothing happens. -/
def quietRound : RelayRound where
  listener := ⟨false, false, false⟩
  master := ⟨false, false, false⟩
  client := ⟨false, false, false⟩
  accepts := false
  historyWrites := []
  shellRead := .ended
  outputWrites := []
  exited := false
  restarted := false
  clientRead := .ended
  inputWrites := []

/-- A connection is accepted that the history, of `n` bytes, is written to. -/
def acceptRound (n : ℕ) : RelayRound :=
  { quietRound with listener := ⟨true, false, false⟩, accepts := true, historyWrites := [.wrote n] }

/-- A client is served together with the shell, and replaced in the next round. -/
theorem relayed_of_keepsPolled_served : ∃ s : VsockRelay, s.Relayed ∧ s.reads.length = 2 ∧ s.accepted = 2 := by
  let served := { quietRound with
    master := ⟨true, false, false⟩
    shellRead := .data [104, 105]
    outputWrites := [.interrupted, .wrote 1, .wrote 1]
    client := ⟨true, false, false⟩
    clientRead := .data [108]
    inputWrites := [.wrote 1] }
  have hrun : (Transition.exec (Transition.guard step keepsPolled) initial
      [.round (acceptRound 85), .round served, .round (acceptRound 87)]).map
        (fun s => (s.reads.length, s.accepted)) = some (2, 2) := by decide +kernel
  obtain ⟨s, hs, hseen⟩ := Option.map_eq_some_iff.mp hrun
  obtain ⟨hreads, haccepted⟩ := Prod.mk.inj hseen
  exact ⟨s, relayed_of_keepsPolled (Transition.leads_of_exec_guard hs), hreads, haccepted⟩

/-- The result of the old client is taken for the new one, which has sent nothing yet. -/
theorem not_relayed : ¬∀ s, Transition.Leads step Transition.anyStep initial s → s.Relayed := by
  intro hall
  let replaced := { acceptRound 85 with client := ⟨true, false, false⟩, clientRead := .blocks }
  have hrun : (Transition.exec step initial [.round (acceptRound 85), .round replaced]).map
      (fun s => s.blocked) = some true := by decide +kernel
  obtain ⟨s, hs, hblocked⟩ := Option.map_eq_some_iff.mp hrun
  have hfree := (hall s (Transition.leads_of_exec hs)).free
  rw [hblocked] at hfree
  cases hfree

end VsockRelay

end Bloom
