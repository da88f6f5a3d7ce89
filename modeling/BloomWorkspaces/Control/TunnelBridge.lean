import BloomWorkspaces.Library.Transition
import Mathlib.Data.List.Basic

/-!
# The bridge of an SSH tunnel

`bridgeBinaryWebSockets` between the client and the agent. A message that finds a limit exceeded is dropped
and its sender closed, but the handlers stay: what the sender had sent before the close arrives after it,
and is forwarded when the limit is no longer exceeded.
-/

namespace Bloom

def maxTunnelBuffer : ℕ := 1024 * 1024

def maxPendingMessages : ℕ := 32

/-- `readyState` -/
inductive ReadyState
  | connecting
  | opened
  | closing
  | closed
  deriving DecidableEq, Repr

/-- `close` -/
def ReadyState.close : ReadyState → ReadyState
  | .connecting | .opened | .closing => .closing
  | .closed => .closed

/-- A WebSocket emits messages until its close event, also after a call of `close`. -/
def ReadyState.emits : ReadyState → Bool
  | .opened | .closing => true
  | .connecting | .closed => false

/-- A bridge with the binary messages that each side has emitted, what each was sent, and whether bytes were
dropped on their way there. -/
structure TunnelBridge where
  client : ReadyState
  upstream : ReadyState
  pending : List (List UInt8)
  pendingBytes : ℕ
  fromClient : List (List UInt8)
  toUpstream : List UInt8
  clientDropped : Bool
  fromUpstream : List (List UInt8)
  toClient : List UInt8
  upstreamDropped : Bool
  deriving DecidableEq, Repr

namespace TunnelBridge

/-- The client is open when `handleUpgrade` calls back. -/
def initial : TunnelBridge := ⟨.opened, .connecting, [], 0, [], [], false, [], [], false⟩

def closeClient (s : TunnelBridge) : TunnelBridge := { s with client := s.client.close }

def closeUpstream (s : TunnelBridge) : TunnelBridge := { s with upstream := s.upstream.close }

/-- The handler of the open event of the upstream. -/
def openUpstream (s : TunnelBridge) : TunnelBridge :=
  { s with
    upstream := .opened
    toUpstream := s.toUpstream ++ s.pending.flatten
    pending := []
    pendingBytes := 0 }

def dropFromClient (s : TunnelBridge) (message : List UInt8) : TunnelBridge :=
  { s with clientDropped := s.clientDropped || message ≠ [] }

def dropFromUpstream (s : TunnelBridge) (message : List UInt8) : TunnelBridge :=
  { s with upstreamDropped := s.upstreamDropped || message ≠ [] }

/-- The handler of a binary message of the client; `buffered` is `upstream.bufferedAmount`. -/
def receiveFromClient (s : TunnelBridge) (message : List UInt8) (buffered : ℕ) : TunnelBridge :=
  match s.upstream with
  | .connecting =>
    let counted := { s with pendingBytes := s.pendingBytes + message.length }
    if maxPendingMessages ≤ s.pending.length ∨ maxTunnelBuffer < counted.pendingBytes then
      (counted.dropFromClient message).closeClient
    else { counted with pending := s.pending ++ [message] }
  | .opened =>
    if maxTunnelBuffer ≤ buffered then (s.dropFromClient message).closeClient
    else { s with toUpstream := s.toUpstream ++ message }
  | .closing | .closed => s.dropFromClient message

/-- The handler of a binary message of the upstream; `buffered` is `client.bufferedAmount`. -/
def receiveFromUpstream (s : TunnelBridge) (message : List UInt8) (buffered : ℕ) : TunnelBridge :=
  match s.client with
  | .opened =>
    if maxTunnelBuffer ≤ buffered then (s.dropFromUpstream message).closeUpstream
    else { s with toClient := s.toClient ++ message }
  | .connecting | .closing | .closed => s.dropFromUpstream message

inductive Event
  | upstreamOpens
  | clientMessage (data : List UInt8) (binary : Bool) (buffered : ℕ)
  | upstreamMessage (data : List UInt8) (binary : Bool) (buffered : ℕ)
  | clientCloses
  | upstreamCloses
  | clientFails
  | upstreamFails
  deriving DecidableEq, Repr

def step (s : TunnelBridge) : Event → Option TunnelBridge
  | .upstreamOpens => if s.upstream = .connecting then some s.openUpstream else none
  | .clientMessage data binary buffered =>
    if s.client.emits then
      if binary then
        some ({ s with fromClient := s.fromClient ++ [data] }.receiveFromClient data buffered)
      else some s.closeClient
    else none
  | .upstreamMessage data binary buffered =>
    if s.upstream.emits then
      if binary then
        some ({ s with fromUpstream := s.fromUpstream ++ [data] }.receiveFromUpstream data buffered)
      else some s.closeUpstream
    else none
  | .clientCloses =>
    if s.client = .closed then none else some { s.closeUpstream with client := .closed }
  | .upstreamCloses =>
    if s.upstream = .closed then none else some { s.closeClient with upstream := .closed }
  | .clientFails | .upstreamFails => some s.closeClient.closeUpstream

/-! ### The law of the streams -/

/-- Each side was sent a prefix of what the other one has emitted. -/
structure Prefixes (s : TunnelBridge) : Prop where
  upstream : s.toUpstream <+: s.fromClient.flatten
  client : s.toClient <+: s.fromUpstream.flatten

/-- No bytes are sent on, or queued, behind bytes that were dropped. -/
def noHole (s : TunnelBridge) : Event → Prop
  | .clientMessage data true buffered => s.clientDropped = true → data ≠ [] →
    (s.upstream = .connecting → maxPendingMessages ≤ s.pending.length ∨
      maxTunnelBuffer < s.pendingBytes + data.length) ∧
    (s.upstream = .opened → maxTunnelBuffer ≤ buffered)
  | .upstreamMessage data true buffered => s.upstreamDropped = true → data ≠ [] →
    s.client = .opened → maxTunnelBuffer ≤ buffered
  | _ => True

/-- What was sent and what waits is what has come in, up to the first bytes that were dropped. -/
structure Sent (s : TunnelBridge) : Prop where
  upstream : s.toUpstream ++ s.pending.flatten <+: s.fromClient.flatten
  complete : s.clientDropped = false → s.toUpstream ++ s.pending.flatten = s.fromClient.flatten
  flushed : s.upstream = .opened → s.pending = []
  client : s.toClient <+: s.fromUpstream.flatten
  returned : s.upstreamDropped = false → s.toClient = s.fromUpstream.flatten

lemma Sent.prefixes {s : TunnelBridge} (h : Sent s) : Prefixes s :=
  ⟨(List.prefix_append _ _).trans h.upstream, h.client⟩

variable {s s' : TunnelBridge} {message : List UInt8} {buffered : ℕ}

lemma sent_initial : Sent initial :=
  ⟨List.prefix_refl _, fun _ => rfl, nofun, List.prefix_refl _, fun _ => rfl⟩

@[simp] lemma close_ne_opened (r : ReadyState) : r.close ≠ .opened := by
  cases r <;> decide

lemma Sent.closeClient (h : Sent s) : Sent s.closeClient :=
  ⟨h.upstream, h.complete, h.flushed, h.client, h.returned⟩

lemma Sent.closeUpstream (h : Sent s) : Sent s.closeUpstream :=
  ⟨h.upstream, h.complete, fun hopened => absurd hopened (close_ne_opened _), h.client, h.returned⟩

/-- The flags of the two ends do not matter to what was sent, unless the upstream opens. -/
lemma Sent.withEnds (h : Sent s) (client upstream : ReadyState)
    (hopened : upstream = .opened → s.upstream = .opened) :
    Sent { s with client := client, upstream := upstream } :=
  ⟨h.upstream, h.complete, fun hup => h.flushed (hopened hup), h.client, h.returned⟩

lemma Sent.openUpstream (h : Sent s) : Sent s.openUpstream where
  upstream := by simpa [TunnelBridge.openUpstream] using h.upstream
  complete hdropped := by simpa [TunnelBridge.openUpstream] using h.complete hdropped
  flushed _ := rfl
  client := h.client
  returned := h.returned

/-- A message of the client is dropped. -/
lemma Sent.dropFromClient (h : Sent s) (pendingBytes : ℕ) (message : List UInt8) :
    Sent ({ s with
      pendingBytes := pendingBytes
      fromClient := s.fromClient ++ [message] }.dropFromClient message) where
  upstream := by
    show s.toUpstream ++ s.pending.flatten <+: (s.fromClient ++ [message]).flatten
    rw [List.flatten_append]
    exact h.upstream.trans (List.prefix_append _ _)
  complete hdropped := by
    obtain ⟨hwhole, hempty⟩ := Bool.or_eq_false_iff.mp hdropped
    have hmessage : message = [] := not_not.mp (of_decide_eq_false hempty)
    show s.toUpstream ++ s.pending.flatten = (s.fromClient ++ [message]).flatten
    simp [h.complete hwhole, hmessage]
  flushed := h.flushed
  client := h.client
  returned := h.returned

lemma Sent.dropFromUpstream (h : Sent s) (message : List UInt8) :
    Sent ({ s with fromUpstream := s.fromUpstream ++ [message] }.dropFromUpstream message) where
  upstream := h.upstream
  complete := h.complete
  flushed := h.flushed
  client := by
    show s.toClient <+: (s.fromUpstream ++ [message]).flatten
    rw [List.flatten_append]
    exact h.client.trans (List.prefix_append _ _)
  returned hdropped := by
    obtain ⟨hwhole, hempty⟩ := Bool.or_eq_false_iff.mp hdropped
    have hmessage : message = [] := not_not.mp (of_decide_eq_false hempty)
    show s.toClient = (s.fromUpstream ++ [message]).flatten
    simp [h.returned hwhole, hmessage]

/-- Bytes that are appended behind a gap are none. -/
lemma prefix_extend {sent received : List UInt8} {dropped : Bool} (hfront : sent <+: received)
    (hcomplete : dropped = false → sent = received) (h : dropped = true → message = []) :
    sent ++ message <+: received ++ message ∧
      (dropped = false → sent ++ message = received ++ message) := by
  cases dropped with
  | false =>
    rw [hcomplete rfl]
    exact ⟨List.prefix_refl _, fun _ => rfl⟩
  | true =>
    rw [h rfl, List.append_nil, List.append_nil]
    exact ⟨hfront, nofun⟩

lemma Sent.receiveFromClient (h : Sent s)
    (hkept : s.noHole (.clientMessage message true buffered)) :
    Sent ({ s with fromClient := s.fromClient ++ [message] }.receiveFromClient message buffered) := by
  rw [TunnelBridge.receiveFromClient]
  split
  · rename_i hup
    dsimp only at hup ⊢
    split_ifs with hlimit
    · exact (h.dropFromClient _ message).closeClient
    · have hempty : s.clientDropped = true → message = [] := fun hdropped =>
        not_not.mp fun hne => hlimit ((hkept hdropped hne).1 hup)
      obtain ⟨hfront, hwhole⟩ := prefix_extend h.upstream h.complete hempty
      refine ⟨?_, ?_, ?_, h.client, h.returned⟩
      · simpa using hfront
      · simpa using hwhole
      · intro hopened
        rw [hup] at hopened
        cases hopened
  · rename_i hup
    dsimp only at hup ⊢
    split_ifs with hlimit
    · exact (h.dropFromClient _ message).closeClient
    · have hempty : s.clientDropped = true → message = [] := fun hdropped =>
        not_not.mp fun hne => hlimit ((hkept hdropped hne).2 hup)
      obtain ⟨hfront, hwhole⟩ := prefix_extend h.upstream h.complete hempty
      rw [h.flushed hup] at hfront hwhole
      refine ⟨?_, ?_, fun _ => h.flushed hup, h.client, h.returned⟩
      · simpa [h.flushed hup] using hfront
      · simpa [h.flushed hup] using hwhole
  · exact h.dropFromClient _ message
  · exact h.dropFromClient _ message

lemma Sent.receiveFromUpstream (h : Sent s)
    (hkept : s.noHole (.upstreamMessage message true buffered)) :
    Sent ({ s with fromUpstream := s.fromUpstream ++ [message] }.receiveFromUpstream message
      buffered) := by
  rw [TunnelBridge.receiveFromUpstream]
  split
  · rename_i hopened
    dsimp only at hopened ⊢
    split_ifs with hlimit
    · exact (h.dropFromUpstream message).closeUpstream
    · have hempty : s.upstreamDropped = true → message = [] := fun hdropped =>
        not_not.mp fun hne => hlimit (hkept hdropped hne hopened)
      obtain ⟨hfront, hwhole⟩ := prefix_extend h.client h.returned hempty
      refine ⟨h.upstream, h.complete, h.flushed, ?_, ?_⟩
      · simpa using hfront
      · simpa using hwhole
  · exact h.dropFromUpstream message
  · exact h.dropFromUpstream message
  · exact h.dropFromUpstream message

lemma Sent.step {e : Event} (h : Sent s) (hkept : s.noHole e) (hs : s.step e = some s') : Sent s' := by
  cases e with
  | upstreamOpens =>
    simp only [TunnelBridge.step] at hs
    split_ifs at hs
    cases hs
    exact h.openUpstream
  | clientMessage data binary buffered =>
    simp only [TunnelBridge.step] at hs
    split_ifs at hs with hemits hbinary
    · cases hs
      subst hbinary
      exact h.receiveFromClient hkept
    · cases hs
      exact h.closeClient
  | upstreamMessage data binary buffered =>
    simp only [TunnelBridge.step] at hs
    split_ifs at hs with hemits hbinary
    · cases hs
      subst hbinary
      exact h.receiveFromUpstream hkept
    · cases hs
      exact h.closeUpstream
  | clientCloses =>
    simp only [TunnelBridge.step] at hs
    split_ifs at hs
    cases hs
    exact h.withEnds _ _ fun hopened => absurd hopened (close_ne_opened _)
  | upstreamCloses =>
    simp only [TunnelBridge.step] at hs
    split_ifs at hs
    cases hs
    exact h.withEnds _ _ nofun
  | clientFails =>
    cases hs
    exact h.closeClient.closeUpstream
  | upstreamFails =>
    cases hs
    exact h.closeClient.closeUpstream

/-- In every run in which no bytes are sent on behind bytes that were dropped, each side is sent a prefix of
what the other one has emitted. -/
theorem prefixes_of_noHole (h : Transition.Leads step noHole initial s) : s.Prefixes :=
  (h.invariant Sent sent_initial fun _ _ _ hsent hkept hs => hsent.step hkept hs).prefixes

/-- A message is queued, sent when the upstream opens, and followed by one that meets backpressure. -/
theorem prefixes_of_noHole_backpressure :
    Prefixes ⟨.closing, .opened, [], 0, [[1], [2]], [1], true, [], [], false⟩ := by
  refine prefixes_of_noHole (s := ⟨.closing, .opened, [], 0, [[1], [2]], [1], true, [], [], false⟩) ?_
  have hqueued : Transition.Leads step noHole initial
      ⟨.opened, .connecting, [[1]], 1, [[1]], [], false, [], [], false⟩ :=
    Transition.Leads.single (a := .clientMessage [1] true 0) nofun rfl
  have hopened : Transition.Leads step noHole initial
      ⟨.opened, .opened, [], 0, [[1]], [1], false, [], [], false⟩ :=
    hqueued.tail (a := .upstreamOpens) trivial rfl
  exact hopened.tail (a := .clientMessage [2] true maxTunnelBuffer) nofun rfl

/-- The second of two messages is sent on although the first one was dropped. -/
theorem not_prefixes : ¬∀ s, Transition.Leads step Transition.anyStep initial s → s.Prefixes := by
  intro hall
  have hexec : Transition.exec step initial
      [.upstreamOpens, .clientMessage [1] true maxTunnelBuffer, .clientMessage [2] true 0] =
        some ⟨.closing, .opened, [], 0, [[1], [2]], [2], true, [], [], false⟩ := rfl
  have hrun := Transition.leads_of_exec hexec
  exact absurd (hall _ hrun).upstream (by decide)

end TunnelBridge

end Bloom
