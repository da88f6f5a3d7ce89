import BloomWorkspaces.Agent.Egress.Connect

/-!
# The byte limit of the egress proxy

`handleHttp` from the approval of the destination on, and what `handleConnect` relays. One counter meters both
directions; its listeners are registered before the pipes, and destroy the streams that the pipes would write
to.
-/

namespace Bloom

namespace HandleHttp

open HandleConnect (statusFor deadlineReached)

/-! ### The handler -/

def parseContentLength : Option (List Char) → Except Thrown (Option ℕ)
  | none => .ok none
  | some digits =>
    if digits = ['0'] ∨ digits ≠ [] ∧ digits.head? ≠ some '0' ∧ digits.all Char.isDigit then
      if Ascii.decimalNumber digits < 2 ^ 53 then .ok (some (Ascii.decimalNumber digits))
      else .error (.plain "invalid-content-length")
    else .error (.plain "invalid-content-length")

/-- The response of the upstream. -/
inductive UpstreamResponse
  | awaited
  | piped
  | destroyed
  deriving DecidableEq, Repr

/-- The variables of the handler and the streams that it pipes. `status` is what `writeHead` was given, and
`audit` the last event: the bytes of a completed request, or the error of a denied one. -/
structure HttpTransfer where
  bytes : ℕ
  requestDestroyed : Bool
  upstreamDestroyed : Bool
  upstreamResponse : UpstreamResponse
  responseDestroyed : Bool
  status : Option ℕ
  transferError : Option Thrown
  deadlineError : Bool
  audit : Option (Except Thrown ℕ)
  toUpstream : List UInt8
  toClient : List UInt8
  deriving Repr

namespace HttpTransfer

/-- The bytes of the bodies that were relayed. -/
def relayed (s : HttpTransfer) : ℕ := s.toUpstream.length + s.toClient.length

/-- The `catch` of the handler. -/
def caught (s : HttpTransfer) (error : Thrown) : HttpTransfer :=
  let s := { s with upstreamDestroyed := true, audit := some (.error error) }
  if s.status.isNone then { s with status := some (statusFor error) } else { s with responseDestroyed := true }

/-- Up to the first wait, when the destination is approved; the upstream of a refused request was never
created, and takes nothing. -/
def begin (maxBytes : ℤ) (deadlineError : Bool) (contentLength : Option (List Char)) : HttpTransfer :=
  let s : HttpTransfer :=
    ⟨0, deadlineError, false, .awaited, deadlineError, none, none, deadlineError, none, [], []⟩
  match parseContentLength contentLength with
  | .error e => s.caught e
  | .ok length =>
    if length.any fun n => maxBytes < n then s.caught (.plain "request-byte-limit")
    else if deadlineError then s.caught deadlineReached
    else s

/-- `request.on("data", …)` -/
def meterRequest (maxBytes : ℤ) (chunk : List UInt8) (s : HttpTransfer) : HttpTransfer :=
  let s := { s with bytes := s.bytes + chunk.length }
  if maxBytes < s.bytes then { s with upstreamDestroyed := true } else s

/-- `request.pipe(activeUpstream)` -/
def pipeRequest (chunk : List UInt8) (s : HttpTransfer) : HttpTransfer :=
  if s.upstreamDestroyed then s else { s with toUpstream := s.toUpstream ++ chunk }

/-- `upstreamResponse.on("data", …)` -/
def meterResponse (maxBytes : ℤ) (chunk : List UInt8) (s : HttpTransfer) : HttpTransfer :=
  let s := { s with bytes := s.bytes + chunk.length }
  if maxBytes < s.bytes then
    { s with
      transferError := some (.plain "response-byte-limit")
      upstreamResponse := .destroyed
      responseDestroyed := true }
  else s

/-- `upstreamResponse.pipe(response)` -/
def pipeResponse (chunk : List UInt8) (s : HttpTransfer) : HttpTransfer :=
  if s.responseDestroyed then s else { s with toClient := s.toClient ++ chunk }

/-- The listeners of an event run in the order in which they were registered. -/
def runListeners (listeners : List (HttpTransfer → HttpTransfer)) (s : HttpTransfer) : HttpTransfer :=
  listeners.foldl (fun s listener => listener s) s

/-- `activeUpstream.once("response", …)` -/
def onResponse (maxBytes : ℤ) (statusCode : ℕ) (contentLength : Option (List Char)) (s : HttpTransfer) :
    HttpTransfer :=
  match parseContentLength contentLength with
  | .error e => { s with transferError := some e, upstreamResponse := .destroyed, status := some 502 }
  | .ok length =>
    if length.any fun n => maxBytes < n + s.bytes then
      { s with
        transferError := some (.plain "response-byte-limit")
        upstreamResponse := .destroyed
        status := some 413 }
    else { s with upstreamResponse := .piped, status := some statusCode }

/-- What follows `finishedHttp`. -/
def complete (s : HttpTransfer) : HttpTransfer :=
  if s.deadlineError then s.caught deadlineReached
  else
    match s.transferError with
    | some e => s.caught e
    | none => { s with audit := some (.ok s.bytes) }

/-- The events of the streams; an upstream fails on its own, by a timer or because it was destroyed with an
error, and `finished` is the end of the response or its close. -/
inductive Event
  | requestData (chunk : List UInt8)
  | response (statusCode : ℕ) (contentLength : Option (List Char))
  | responseData (chunk : List UInt8)
  | responseFailed (error : Thrown)
  | upstreamFailed (error : Thrown)
  | finished
  | deadline
  deriving DecidableEq, Repr

/-- The streams go on when the handler is over. -/
def step (maxBytes : ℤ) (s : HttpTransfer) : Event → Option HttpTransfer
  | .requestData chunk =>
    if s.requestDestroyed then none
    else some (runListeners [meterRequest maxBytes chunk, pipeRequest chunk] s)
  | .response statusCode contentLength =>
    if s.upstreamDestroyed || s.upstreamResponse ≠ .awaited then none
    else some (onResponse maxBytes statusCode contentLength s)
  | .responseData chunk =>
    if s.upstreamResponse = .piped then
      some (runListeners [meterResponse maxBytes chunk, pipeResponse chunk] s)
    else none
  | .responseFailed error =>
    if s.upstreamResponse = .piped then
      some { s with
        transferError := some error
        upstreamResponse := .destroyed
        responseDestroyed := true }
    else none
  | .upstreamFailed error =>
    some (if s.audit.isNone then s.caught error else { s with upstreamDestroyed := true })
  | .finished => if s.audit.isNone then some s.complete else none
  | .deadline =>
    if s.audit.isNone then
      some { s with
        deadlineError := true
        requestDestroyed := true
        upstreamDestroyed := true
        responseDestroyed := true }
    else none

/-! ### The bytes of a request -/

variable {maxBytes : ℤ} {s s' : HttpTransfer} {chunk : List UInt8} {e : Event} {error : Thrown}

/-- What was relayed was counted, and is within the limit. -/
structure Metered (maxBytes : ℤ) (s : HttpTransfer) : Prop where
  counted : s.relayed ≤ s.bytes
  limited : (s.relayed : ℤ) ≤ maxBytes

/-- The flags of the streams do not matter. -/
lemma Metered.congr (h : Metered maxBytes s) (hbytes : s'.bytes = s.bytes)
    (hupstream : s'.toUpstream = s.toUpstream) (hclient : s'.toClient = s.toClient) :
    Metered maxBytes s' := by
  constructor
  · rw [relayed, hbytes, hupstream, hclient]
    exact h.counted
  · rw [relayed, hupstream, hclient]
    exact h.limited

lemma Metered.caught (h : Metered maxBytes s) (error : Thrown) : Metered maxBytes (s.caught error) := by
  rw [HttpTransfer.caught]
  simp only
  split
  · exact h.congr rfl rfl rfl
  · exact h.congr rfl rfl rfl

lemma metered_begin (hmax : 0 < maxBytes) (deadlineError : Bool) (contentLength : Option (List Char)) :
    Metered maxBytes (begin maxBytes deadlineError contentLength) := by
  have hstart : Metered maxBytes
      ⟨0, deadlineError, false, .awaited, deadlineError, none, none, deadlineError, none, [], []⟩ :=
    ⟨Nat.le_refl 0, Int.le_of_lt hmax⟩
  rw [begin]
  split
  · exact hstart.caught _
  split
  · exact hstart.caught _
  split
  · exact hstart.caught _
  · exact hstart

/-- A chunk is counted, and relayed as a whole or not at all. -/
lemma Metered.count {n : ℕ} (h : Metered maxBytes s) (hbytes : s'.bytes = s.bytes + n)
    (hrelayed : s'.relayed = s.relayed ∨ s'.relayed = s.relayed + n ∧ ¬maxBytes < (s.bytes + n : ℕ)) :
    Metered maxBytes s' := by
  have hcounted := h.counted
  have hlimited := h.limited
  constructor
  · omega
  · omega

/-- The chunk that exceeds the limit finds the upstream destroyed. -/
lemma Metered.requestData (h : Metered maxBytes s) (chunk : List UInt8) :
    Metered maxBytes (runListeners [meterRequest maxBytes chunk, pipeRequest chunk] s) := by
  show Metered maxBytes (pipeRequest chunk (meterRequest maxBytes chunk s))
  rw [meterRequest]
  simp only
  split
  · rw [pipeRequest, if_pos rfl]
    exact h.count rfl (Or.inl rfl)
  · next hroom =>
    rw [pipeRequest]
    split
    · exact h.count rfl (Or.inl rfl)
    · refine h.count rfl (Or.inr ⟨?_, hroom⟩)
      show (s.toUpstream ++ chunk).length + s.toClient.length = s.relayed + chunk.length
      rw [List.length_append, relayed]
      omega

/-- The chunk that exceeds the limit finds the response destroyed. -/
lemma Metered.responseData (h : Metered maxBytes s) (chunk : List UInt8) :
    Metered maxBytes (runListeners [meterResponse maxBytes chunk, pipeResponse chunk] s) := by
  show Metered maxBytes (pipeResponse chunk (meterResponse maxBytes chunk s))
  rw [meterResponse]
  simp only
  split
  · rw [pipeResponse, if_pos rfl]
    exact h.count rfl (Or.inl rfl)
  · next hroom =>
    rw [pipeResponse]
    split
    · exact h.count rfl (Or.inl rfl)
    · refine h.count rfl (Or.inr ⟨?_, hroom⟩)
      show s.toUpstream.length + (s.toClient ++ chunk).length = s.relayed + chunk.length
      rw [List.length_append, relayed]
      omega

lemma Metered.onResponse (h : Metered maxBytes s) (statusCode : ℕ) (contentLength : Option (List Char)) :
    Metered maxBytes (HttpTransfer.onResponse maxBytes statusCode contentLength s) := by
  rw [HttpTransfer.onResponse]
  split
  · exact h.congr rfl rfl rfl
  split
  · exact h.congr rfl rfl rfl
  · exact h.congr rfl rfl rfl

lemma Metered.complete (h : Metered maxBytes s) : Metered maxBytes s.complete := by
  rw [HttpTransfer.complete]
  split
  · exact h.caught _
  split
  · exact h.caught _
  · exact h.congr rfl rfl rfl

lemma Metered.step (h : Metered maxBytes s) (hs : s.step maxBytes e = some s') : Metered maxBytes s' := by
  cases e with
  | requestData chunk =>
    simp only [HttpTransfer.step] at hs
    split_ifs at hs
    cases hs
    exact h.requestData chunk
  | response statusCode contentLength =>
    simp only [HttpTransfer.step] at hs
    split_ifs at hs
    cases hs
    exact h.onResponse statusCode contentLength
  | responseData chunk =>
    simp only [HttpTransfer.step] at hs
    split_ifs at hs
    cases hs
    exact h.responseData chunk
  | responseFailed error =>
    simp only [HttpTransfer.step] at hs
    split_ifs at hs
    cases hs
    exact h.congr rfl rfl rfl
  | upstreamFailed error =>
    simp only [HttpTransfer.step] at hs
    cases hs
    split
    · exact h.caught error
    · exact h.congr rfl rfl rfl
  | finished =>
    simp only [HttpTransfer.step] at hs
    split_ifs at hs
    cases hs
    exact h.complete
  | deadline =>
    simp only [HttpTransfer.step] at hs
    split_ifs at hs
    cases hs
    exact h.congr rfl rfl rfl

end HttpTransfer

end HandleHttp

namespace HandleConnect

/-! ### The bytes of a tunnel -/

/-- What a step relays: the ClientHello when the upstream is connected, and then every chunk whose pipe, which
comes after the meter, finds its destination alive. -/
def delivered (s : ConnectState) (e : ConnectEvent) (s' : ConnectState) : ℕ :=
  match e, s.phase with
  | .connected, .connecting clientHello => clientHello.length
  | .clientData chunk, .tunnelling _ => if s'.upstream.all (·.destroyed) then 0 else chunk.length
  | .upstreamData size, .tunnelling _ => if s'.client.destroyed then 0 else size
  | _, _ => 0

/-- The handler with the number of bytes that it has relayed. -/
structure MeteredConnect where
  state : ConnectState
  relayed : ℕ

def meteredStep (p : ProxySettings) (m : MeteredConnect) (e : ConnectEvent) : Option MeteredConnect :=
  (step p m.state e).map fun s' => ⟨s', m.relayed + delivered m.state e s'⟩

/-- What is known of `n` relayed bytes in each phase. -/
def Accounted (p : ProxySettings) (n : ℕ) : Phase → Prop
  | .approving _ _ _ => n = 0
  | .receiving _ buffered => n = 0 ∧ (buffered.length : ℤ) ≤ p.maxBytes
  | .connecting clientHello => n = 0 ∧ (clientHello.length : ℤ) ≤ p.maxBytes
  | .tunnelling bytes => n ≤ bytes ∧ (bytes : ℤ) ≤ p.maxBytes
  | .over _ => (n : ℤ) ≤ p.maxBytes

variable {p : ProxySettings} {s s' : ConnectState} {n : ℕ}

lemma Accounted.le (hmax : 0 < p.maxBytes) {phase : Phase} (h : Accounted p n phase) :
    (n : ℤ) ≤ p.maxBytes := by
  cases phase with
  | approving hostname port head =>
    rw [Accounted] at h
    omega
  | receiving hostname buffered =>
    rw [Accounted] at h
    omega
  | connecting clientHello =>
    rw [Accounted] at h
    omega
  | tunnelling bytes =>
    rw [Accounted] at h
    omega
  | _ => exact h

lemma accounted_caught (h : (n : ℤ) ≤ p.maxBytes) (s : ConnectState) (error : Thrown) :
    Accounted p n (caught s error).phase := by
  rw [caught]
  split_ifs
  · exact h
  · exact h
  · exact h

lemma accounted_failHello (h : (n : ℤ) ≤ p.maxBytes) (s : ConnectState) (error : Thrown) :
    Accounted p n (failHello s error).phase := accounted_caught h _ _

lemma helloLimit_le (p : ProxySettings) : p.helloLimit ≤ p.maxBytes := Int.min_le_right _ _

lemma accounted_receiveHello (hmax : 0 < p.maxBytes) (s : ConnectState) (hostname : List Char)
    (head : List UInt8) : Accounted p 0 (receiveHello p s hostname head).phase := by
  have hlimit := helloLimit_le p
  rw [receiveHello]
  split
  · exact accounted_caught (Int.le_of_lt hmax) _ _
  · next hfits =>
    have hhead : (head.length : ℤ) ≤ p.maxBytes := by omega
    split
    · exact accounted_caught (Int.le_of_lt hmax) _ _
    · exact ⟨rfl, hhead⟩
    · exact ⟨rfl, hhead⟩

lemma accounted_receiveData (hmax : 0 < p.maxBytes) (s : ConnectState) (hostname : List Char)
    (buffered chunk : List UInt8) : Accounted p 0 (receiveData p s hostname buffered chunk).phase := by
  have hlimit := helloLimit_le p
  rw [receiveData]
  split
  · exact accounted_failHello (Int.le_of_lt hmax) _ _
  · next hfits =>
    have hlength : ((buffered ++ chunk).length : ℤ) ≤ p.maxBytes := by
      rw [List.length_append]
      omega
    split
    · exact accounted_failHello (Int.le_of_lt hmax) _ _
    · exact ⟨rfl, hlength⟩
    · exact ⟨rfl, hlength⟩

lemma accounted_onDecision (hmax : 0 < p.maxBytes) (s : ConnectState) (hostname : List Char) (port : ℤ)
    (head : List UInt8) (answers : Option (List ResolvedAddress)) :
    Accounted p 0 (onDecision p s hostname port head answers).phase := by
  rw [onDecision]
  split
  · exact accounted_caught (Int.le_of_lt hmax) _ _
  split
  · exact accounted_caught (Int.le_of_lt hmax) _ _
  · exact accounted_receiveHello hmax _ _ _

lemma accounted_onConnect (hmax : 0 < p.maxBytes) (hasCapacity : Bool) (r : ConnectRequest) :
    Accounted p 0 (onConnect p hasCapacity r).phase := by
  have hover : ∀ s error, Accounted p 0 (caught s error).phase :=
    accounted_caught (Int.le_of_lt hmax)
  rw [onConnect]
  simp only
  split
  · exact Int.le_of_lt hmax
  split
  · exact hover _ _
  split
  · exact hover _ _
  split
  · split
    · rfl
    · exact hover _ _
  · rfl

lemma accounted_completeTunnel (h : (n : ℤ) ≤ p.maxBytes) (s : ConnectState) :
    Accounted p n (completeTunnel s).phase := by
  rw [completeTunnel]
  split
  · exact accounted_caught h _ _
  · exact h

/-- The meter counts a chunk, and relays it only where the limit is kept. -/
lemma accounted_meter {bytes size m : ℕ} (h : Accounted p n (.tunnelling bytes))
    (hsize : m ≤ size) (hdead : p.maxBytes < bytes + size → m = 0) :
    Accounted p (n + m) (meter p s bytes size).phase := by
  obtain ⟨hcounted, hlimited⟩ := h
  rw [meter]
  split
  · next hfull =>
    rw [hdead hfull]
    apply accounted_caught
    omega
  · show n + m ≤ bytes + size ∧ ((bytes + size : ℕ) : ℤ) ≤ p.maxBytes
    omega

lemma upstream_caught (s : ConnectState) (error : Thrown) :
    (caught s error).upstream.all (·.destroyed) = true := by
  have hdestroyed : (s.upstream.map EventSocket.destroy).all (·.destroyed) = true := by
    cases s.upstream <;> rfl
  rw [caught]
  split_ifs
  · exact hdestroyed
  · exact hdestroyed
  · exact hdestroyed

lemma client_caught (hclient : s.client.destroyed = true) (error : Thrown) :
    (caught s error).client.destroyed = true := by
  rw [caught, if_pos hclient]
  exact hclient

/-- Where the meter finds the limit exceeded, both sockets are destroyed. -/
lemma meter_exceeded {bytes size : ℕ} (h : p.maxBytes < bytes + size) :
    (meter p s bytes size).upstream.all (·.destroyed) = true ∧
      (meter p s bytes size).client.destroyed = true := by
  rw [meter, if_pos h]
  exact ⟨upstream_caught _ _, client_caught EventSocket.fail_destroyed _⟩

lemma accounted_clientError (hmax : 0 < p.maxBytes) (h : Accounted p n s.phase) (error : Thrown) :
    Accounted p n (clientError s error).phase := by
  have hn := h.le hmax
  rw [clientError]
  split
  · exact accounted_failHello hn _ _
  · exact accounted_caught hn _ _
  · exact h

lemma accounted_upstreamError (hmax : 0 < p.maxBytes) (h : Accounted p n s.phase) (u : EventSocket)
    (error : Thrown) : Accounted p n (upstreamError s u error).phase := by
  have hn := h.le hmax
  rw [upstreamError]
  split
  · exact accounted_caught hn _ _
  · exact accounted_caught hn _ _
  · exact h

/-- A step that relays nothing. -/
lemma accounted_silent {e : ConnectEvent} (hsilent : delivered s e s' = 0)
    (h : Accounted p n s'.phase) : Accounted p (n + delivered s e s') s'.phase := by
  rw [hsilent]
  exact h

lemma delivered_connected {clientHello : List UInt8} (h : s.phase = .connecting clientHello) :
    delivered s .connected s' = clientHello.length := by
  unfold delivered
  rw [h]

lemma delivered_hello {hostname : List Char} {buffered chunk : List UInt8}
    (h : s.phase = .receiving hostname buffered) : delivered s (.clientData chunk) s' = 0 := by
  unfold delivered
  rw [h]

lemma delivered_clientData {bytes : ℕ} (h : s.phase = .tunnelling bytes) (chunk : List UInt8) :
    delivered s (.clientData chunk) s' =
      if s'.upstream.all (·.destroyed) then 0 else chunk.length := by
  unfold delivered
  rw [h]

lemma delivered_upstreamData {bytes : ℕ} (h : s.phase = .tunnelling bytes) (size : ℕ) :
    delivered s (.upstreamData size) s' = if s'.client.destroyed then 0 else size := by
  unfold delivered
  rw [h]

lemma ite_zero_le {c : Prop} [Decidable c] (size : ℕ) : (if c then 0 else size) ≤ size := by
  split
  · exact Nat.zero_le _
  · exact Nat.le_refl _

lemma accounted_step {e : ConnectEvent} (hmax : 0 < p.maxBytes) (h : Accounted p n s.phase)
    (hs : step p s e = some s') : Accounted p (n + delivered s e s') s'.phase := by
  have hn := h.le hmax
  cases e with
  | decided answers =>
    apply accounted_silent rfl
    simp only [step] at hs
    split at hs
    · next hphase =>
      cases hs
      rw [hphase] at h
      rw [show n = 0 from h]
      exact accounted_onDecision hmax _ _ _ _ _
    · cases hs
  | clientData chunk =>
    simp only [step] at hs
    split at hs
    · cases hs
    split at hs
    · next hphase =>
      cases hs
      rw [hphase] at h
      rw [delivered_hello hphase, h.1]
      exact accounted_receiveData hmax _ _ _ _
    · next bytes hphase =>
      cases hs
      rw [hphase] at h
      rw [delivered_clientData hphase]
      exact accounted_meter h (ite_zero_le _) fun hfull => if_pos (meter_exceeded hfull).1
    · cases hs
  | clientEnded =>
    apply accounted_silent rfl
    simp only [step] at hs
    split at hs
    · cases hs
    split at hs
    · cases hs
      exact accounted_failHello hn _ _
    · cases hs
      exact h
  | clientClosed =>
    apply accounted_silent rfl
    simp only [step] at hs
    split at hs
    · cases hs
      exact accounted_failHello hn _ _
    · cases hs
      exact accounted_completeTunnel hn _
    · cases hs
      exact h
  | clientFailed error =>
    apply accounted_silent rfl
    simp only [step] at hs
    split at hs
    · cases hs
    · cases hs
      exact accounted_clientError hmax h _
  | clientIdle =>
    apply accounted_silent rfl
    simp only [step] at hs
    split at hs
    · cases hs
    · cases hs
      exact accounted_clientError hmax h _
  | helloTimeout =>
    apply accounted_silent rfl
    simp only [step] at hs
    split at hs
    · cases hs
      exact accounted_failHello hn _ _
    · cases hs
  | connected =>
    simp only [step] at hs
    split at hs
    · next clientHello upstream hphase hupstream =>
      split at hs
      · cases hs
      · cases hs
        rw [hphase] at h
        rw [delivered_connected hphase, h.1, Nat.zero_add]
        exact ⟨Nat.le_refl _, h.2⟩
    · cases hs
  | connectTimeout =>
    apply accounted_silent rfl
    simp only [step] at hs
    split at hs
    · cases hs
      exact accounted_caught hn _ _
    · cases hs
  | upstreamData size =>
    simp only [step] at hs
    split at hs
    · next bytes hphase =>
      split at hs
      · cases hs
      · cases hs
        rw [hphase] at h
        rw [delivered_upstreamData hphase]
        exact accounted_meter h (ite_zero_le _) fun hfull => if_pos (meter_exceeded hfull).2
    · cases hs
  | upstreamClosed =>
    apply accounted_silent rfl
    simp only [step] at hs
    split at hs
    · cases hs
      exact accounted_completeTunnel hn _
    · cases hs
      exact h
  | upstreamFailed error =>
    apply accounted_silent rfl
    simp only [step] at hs
    split at hs
    · split at hs
      · cases hs
      · cases hs
        exact accounted_upstreamError hmax h _ _
    · cases hs
  | deadline =>
    apply accounted_silent rfl
    simp only [step] at hs
    split at hs
    · cases hs
    · cases hs
      exact h

end HandleConnect

/-! ### The limit -/

/-- Whatever comes in, in whatever order, a proxied request and a tunnel relay no more than `maxBytes` in both
directions together. -/
theorem relayed_le_maxBytes (p : HandleConnect.ProxySettings) (hmax : 0 < p.maxBytes) :
    (∀ deadlineError contentLength (s : HandleHttp.HttpTransfer),
      Transition.Leads (HandleHttp.HttpTransfer.step p.maxBytes) Transition.anyStep
        (.begin p.maxBytes deadlineError contentLength) s → (s.relayed : ℤ) ≤ p.maxBytes) ∧
    ∀ hasCapacity r (m : HandleConnect.MeteredConnect),
      Transition.Leads (HandleConnect.meteredStep p) Transition.anyStep
        ⟨HandleConnect.onConnect p hasCapacity r, 0⟩ m → (m.relayed : ℤ) ≤ p.maxBytes := by
  constructor
  · intro deadlineError contentLength s h
    have hmetered := h.invariant (HandleHttp.HttpTransfer.Metered p.maxBytes)
      (HandleHttp.HttpTransfer.metered_begin hmax _ _) fun _ _ _ ht _ hs => ht.step hs
    exact hmetered.limited
  · intro hasCapacity r m h
    have haccounted := h.invariant (fun m => HandleConnect.Accounted p m.relayed m.state.phase)
      (HandleConnect.accounted_onConnect hmax _ _) ?_
    · exact haccounted.le hmax
    · intro m e m' hm _ hs
      obtain ⟨s', hstep, rfl⟩ := Option.map_eq_some_iff.mp hs
      exact HandleConnect.accounted_step hmax hm hstep

namespace HandleConnect

def smallProxy : ProxySettings := { registryProxy with maxBytes := 300 }

def registryHello : List UInt8 :=
  encodings (inTwoRecords 3 (minimalHello ("registry.npmjs.org".toList.map fun c => UInt8.ofNat c.toNat)).frame)

end HandleConnect

/-- A response and a tunnel that exceed a limit of 300 bytes with their last chunk. -/
theorem relayed_le_maxBytes_crossed :
    (∃ s, Transition.exec (HandleHttp.HttpTransfer.step 300) (.begin 300 false none)
        [.requestData (.replicate 200 0), .response 200 none, .responseData (.replicate 90 0),
          .responseData (.replicate 20 0)] = some s ∧ s.relayed = 290 ∧ (s.relayed : ℤ) ≤ 300) ∧
    ∃ m, Transition.exec (HandleConnect.meteredStep HandleConnect.smallProxy)
        ⟨HandleConnect.onConnect HandleConnect.smallProxy true HandleConnect.registryRequest, 0⟩
        [.decided (some registryAnswers), .clientData HandleConnect.registryHello, .connected,
          .upstreamData 180, .clientData (.replicate 200 0)] = some m ∧
      m.relayed = HandleConnect.registryHello.length + 180 ∧ (m.relayed : ℤ) ≤ 300 := by
  have hhttp : (Transition.exec (HandleHttp.HttpTransfer.step 300) (.begin 300 false none)
      [.requestData (.replicate 200 0), .response 200 none, .responseData (.replicate 90 0),
        .responseData (.replicate 20 0)]).map (fun s => s.relayed) = some 290 := by decide +kernel
  have hconnect : (Transition.exec (HandleConnect.meteredStep HandleConnect.smallProxy)
      ⟨HandleConnect.onConnect HandleConnect.smallProxy true HandleConnect.registryRequest, 0⟩
      [.decided (some registryAnswers), .clientData HandleConnect.registryHello, .connected,
        .upstreamData 180, .clientData (.replicate 200 0)]).map (fun m => m.relayed) =
      some (HandleConnect.registryHello.length + 180) := by decide +kernel
  obtain ⟨s, hs, hrelayed⟩ := Option.map_eq_some_iff.mp hhttp
  obtain ⟨m, hm, hrelayed'⟩ := Option.map_eq_some_iff.mp hconnect
  have hmax : 0 < HandleConnect.smallProxy.maxBytes := by decide
  have hlaw := relayed_le_maxBytes HandleConnect.smallProxy hmax
  exact ⟨⟨s, hs, hrelayed, hlaw.1 _ _ _ (Transition.leads_of_exec hs)⟩,
    ⟨m, hm, hrelayed', hlaw.2 _ _ _ (Transition.leads_of_exec hm)⟩⟩

end Bloom
