import BloomWorkspaces.Agent.Egress.Proxy
import BloomWorkspaces.Agent.Egress.ServerName
import BloomWorkspaces.Library.EventEmitter
import BloomWorkspaces.Library.Transition

/-!
# Proxied CONNECT requests

`handleConnect` between the events of its two sockets. Node has taken its own listeners off the client
socket by then. A socket that is destroyed emits no error any more.
-/

namespace Bloom

namespace HandleConnect

open EventEmitter

/-! ### Sockets -/

/-- Who listens to the errors of a socket. -/
inductive ErrorListener
  | hello
  | connect
  | tunnel
  | pipe
  deriving DecidableEq, Repr

/-- A socket with its listeners, and whether it has emitted an error that none of them took. -/
structure EventSocket where
  destroyed : Bool
  listeners : List (Listener ErrorListener)
  uncaught : Bool
  deriving DecidableEq, Repr

namespace EventSocket

def fresh : EventSocket := ⟨false, [], false⟩

/-- `once("error", …)` -/
def once (name : ErrorListener) (s : EventSocket) : EventSocket :=
  { s with listeners := s.listeners ++ [⟨name, .once⟩] }

/-- `off("error", …)` -/
def off (name : ErrorListener) (s : EventSocket) : EventSocket :=
  { s with listeners := s.listeners.filter fun l => l.name ≠ name }

/-- The socket becomes the destination of a pipe, whose listener is put first. -/
def pipeTo (s : EventSocket) : EventSocket :=
  { s with listeners := ⟨.pipe, .yields⟩ :: s.listeners }

def destroy (s : EventSocket) : EventSocket := { s with destroyed := true }

/-- The socket is destroyed with an error, and emits it. -/
def fail (s : EventSocket) : EventSocket :=
  if s.destroyed then s
  else ⟨true, (emit s.listeners).2, s.uncaught || !(emit s.listeners).1⟩

end EventSocket

/-! ### The handler -/

/-- What `createEgressProxy` is given. -/
structure ProxySettings where
  domainToASCII : List Char → List Char
  policy : EgressPolicy
  maxBytes : ℤ
  maxClientHelloBytes : Option ℤ

def ProxySettings.helloLimit (p : ProxySettings) : ℤ :=
  min (p.maxClientHelloBytes.getD (64 * 1024)) p.maxBytes

structure ConnectRequest where
  headers : Headers
  url : Option (List Char)
  head : List UInt8

/-- Where the handler waits, or the status of its reply once it is over. -/
inductive Phase
  | approving (hostname : List Char) (port : ℤ) (head : List UInt8)
  | receiving (hostname : List Char) (buffered : List UInt8)
  | connecting (clientHello : List UInt8)
  | tunnelling (bytes : ℕ)
  | over (reply : Option ℕ)
  deriving DecidableEq, Repr

structure ConnectState where
  phase : Phase
  client : EventSocket
  upstream : Option EventSocket
  tunnelAccepted : Bool
  deadlineError : Bool
  deriving DecidableEq, Repr

def rejectProxyCredentials (headers : Headers) : Except EgressPolicyError Unit :=
  if (headers.get "proxy-authorization".toList).isSome || (headers.get "authorization".toList).isSome ||
      (headers.get "cookie".toList).isSome then
    .error ⟨.credentialsForbidden, "Credentials in the proxy request are forbidden"⟩
  else .ok ()

def statusFor : Thrown → ℕ
  | .policy error => if error.code = .dnsFailed then 502 else 403
  | .tls _ _ => 403
  | .plain message => if "byte-limit".toList <:+: message.toList then 413 else 502
  | .outOfBounds => 502
  | .outOfFuel => 502

/-- The `catch` of the handler. -/
def caught (s : ConnectState) (error : Thrown) : ConnectState :=
  let upstream := s.upstream.map EventSocket.destroy
  if s.client.destroyed then { s with upstream := upstream, phase := .over none }
  else if s.tunnelAccepted then
    { s with upstream := upstream, client := s.client.destroy, phase := .over none }
  else { s with upstream := upstream, phase := .over (some (statusFor error)) }

/-- The handler of `connect`, up to its first wait. The policy refuses some requests before it asks the
resolver. -/
def onConnect (p : ProxySettings) (hasCapacity : Bool) (r : ConnectRequest) : ConnectState :=
  let s : ConnectState := ⟨.over (some 503), .fresh, none, false, false⟩
  if hasCapacity = false then s
  else
    match rejectProxyCredentials r.headers with
    | .error e => caught s (.policy e)
    | .ok () =>
      match parseProxyAuthority p.domainToASCII (r.url.getD []) none with
      | .error e => caught s (.policy e)
      | .ok (hostname, port) =>
        match p.policy.approve p.domainToASCII hostname (some port) .connect none with
        | .error e =>
          if e.code = .dnsFailed then { s with phase := .approving hostname port r.head }
          else caught s (.policy e)
        | .ok _ => { s with phase := .approving hostname port r.head }

/-- From the call of `connectTcp` to the end of `waitForConnect`. -/
def startUpstream (s : ConnectState) (clientHello : List UInt8) : ConnectState :=
  { s with
    phase := .connecting clientHello
    upstream := some (EventSocket.fresh.once .connect) }

/-- `receiveTlsClientHello`, up to its wait. -/
def receiveHello (p : ProxySettings) (s : ConnectState) (hostname : List Char) (head : List UInt8) :
    ConnectState :=
  if p.helloLimit < 256 ∨ p.helloLimit < head.length then caught s tooLarge
  else
    match inspectTlsClientHello p.domainToASCII head hostname (some p.helloLimit) with
    | .error e => caught s e
    | .ok (.complete _) => startUpstream s head
    | .ok .incomplete => { s with client := s.client.once .hello, phase := .receiving hostname head }

/-- The `fail` of `receiveTlsClientHello`, which takes its listeners off. -/
def failHello (s : ConnectState) (error : Thrown) : ConnectState :=
  caught { s with client := s.client.off .hello } error

/-- The `onData` of `receiveTlsClientHello`. -/
def receiveData (p : ProxySettings) (s : ConnectState) (hostname : List Char)
    (buffered chunk : List UInt8) : ConnectState :=
  if p.helloLimit - buffered.length < chunk.length then failHello s tooLarge
  else
    match inspectTlsClientHello p.domainToASCII (buffered ++ chunk) hostname (some p.helloLimit) with
    | .error e => failHello s e
    | .ok (.complete _) =>
      startUpstream { s with client := s.client.off .hello } (buffered ++ chunk)
    | .ok .incomplete => { s with phase := .receiving hostname (buffered ++ chunk) }

def deadlineReached : Thrown := .plain "connection-deadline"

/-- What follows the decision of the policy. -/
def onDecision (p : ProxySettings) (s : ConnectState) (hostname : List Char) (port : ℤ)
    (head : List UInt8) (answers : Option (List ResolvedAddress)) : ConnectState :=
  match p.policy.approve p.domainToASCII hostname (some port) .connect answers with
  | .error e => caught s (.policy e)
  | .ok _ =>
    if s.deadlineError then caught s deadlineReached
    else receiveHello p { s with tunnelAccepted := true } hostname head

/-- Both pipes are set up, and `waitForTunnelClose` waits. -/
def startTunnel (s : ConnectState) (upstream : EventSocket) (clientHello : List UInt8) :
    ConnectState :=
  { s with
    phase := .tunnelling clientHello.length
    client := s.client.pipeTo.once .tunnel
    upstream := some (upstream.pipeTo.once .tunnel) }

/-- The `meter` of the tunnel. -/
def meter (p : ProxySettings) (s : ConnectState) (bytes size : ℕ) : ConnectState :=
  if p.maxBytes < bytes + size then
    caught { s with upstream := s.upstream.map EventSocket.fail, client := s.client.fail }
      (.plain "tunnel-byte-limit")
  else { s with phase := .tunnelling (bytes + size) }

/-- What follows the end of `waitForTunnelClose`. -/
def completeTunnel (s : ConnectState) : ConnectState :=
  if s.deadlineError then caught s deadlineReached
  else
    { s with
      client := s.client.destroy
      upstream := s.upstream.map EventSocket.destroy
      phase := .over none }

/-- The client socket emits an error. -/
def clientError (s : ConnectState) (error : Thrown) : ConnectState :=
  match s.phase with
  | .receiving _ _ => failHello { s with client := s.client.fail } error
  | .tunnelling _ => caught { s with client := s.client.fail } error
  | _ => { s with client := s.client.fail }

/-- The upstream socket emits an error. -/
def upstreamError (s : ConnectState) (upstream : EventSocket) (error : Thrown) : ConnectState :=
  match s.phase with
  | .connecting _ => caught { s with upstream := some upstream.fail } error
  | .tunnelling _ => caught { s with upstream := some upstream.fail } error
  | _ => { s with upstream := some upstream.fail }

/-! ### Events -/

inductive ConnectEvent
  | decided (answers : Option (List ResolvedAddress))
  | clientData (chunk : List UInt8)
  | clientEnded
  | clientClosed
  | clientFailed (error : Thrown)
  | clientIdle
  | helloTimeout
  | connected
  | connectTimeout
  | upstreamData (size : ℕ)
  | upstreamClosed
  | upstreamFailed (error : Thrown)
  | deadline
  deriving DecidableEq, Repr

def closedBeforeHello : Thrown := .plain "client-closed-before-client-hello"

/-- One event. The idle timer of the client runs from the acceptance of the tunnel on, that of the
upstream ends in an error of the upstream; the deadline is cleared when the handler is over. -/
def step (p : ProxySettings) (s : ConnectState) : ConnectEvent → Option ConnectState
  | .decided answers =>
    match s.phase with
    | .approving hostname port head => some (onDecision p s hostname port head answers)
    | _ => none
  | .clientData chunk =>
    if s.client.destroyed then none
    else
      match s.phase with
      | .receiving hostname buffered => some (receiveData p s hostname buffered chunk)
      | .tunnelling bytes => some (meter p s bytes chunk.length)
      | _ => none
  | .clientEnded =>
    if s.client.destroyed then none
    else
      match s.phase with
      | .receiving _ _ => some (failHello s closedBeforeHello)
      | _ => some s
  | .clientClosed =>
    let s' := { s with client := s.client.destroy }
    match s.phase with
    | .receiving _ _ => some (failHello s' closedBeforeHello)
    | .tunnelling _ => some (completeTunnel s')
    | _ => some s'
  | .clientFailed error => if s.client.destroyed then none else some (clientError s error)
  | .clientIdle =>
    if s.client.destroyed || !s.tunnelAccepted then none
    else some (clientError s (.plain "client-idle-timeout"))
  | .helloTimeout =>
    match s.phase with
    | .receiving _ _ => some (failHello s (.plain "client-hello-timeout"))
    | _ => none
  | .connected =>
    match s.phase, s.upstream with
    | .connecting clientHello, some upstream =>
      if upstream.destroyed then none else some (startTunnel s upstream clientHello)
    | _, _ => none
  | .connectTimeout =>
    match s.phase with
    | .connecting _ => some (caught s (.plain "upstream-connect-timeout"))
    | _ => none
  | .upstreamData size =>
    match s.phase with
    | .tunnelling bytes => if s.upstream.all (·.destroyed) then none else some (meter p s bytes size)
    | _ => none
  | .upstreamClosed =>
    let s' := { s with upstream := s.upstream.map EventSocket.destroy }
    match s.phase with
    | .tunnelling _ => some (completeTunnel s')
    | _ => some s'
  | .upstreamFailed error =>
    match s.upstream with
    | some upstream => if upstream.destroyed then none else some (upstreamError s upstream error)
    | none => none
  | .deadline =>
    match s.phase with
    | .over _ => none
    | _ =>
      some { s with
        deadlineError := true
        client := s.client.destroy
        upstream := s.upstream.map EventSocket.destroy }

/-! ### The law -/

/-- Every error that was emitted has been taken by a listener. -/
def ConnectState.handled (s : ConnectState) : Bool :=
  !s.client.uncaught && s.upstream.all fun u => !u.uncaught

/-- The client has no error but while its ClientHello is read or the tunnel is open. -/
def covered (s : ConnectState) : ConnectEvent → Bool
  | .clientFailed _ | .clientIdle =>
    match s.phase with
    | .receiving _ _ | .tunnelling _ => true
    | _ => false
  | _ => true

/-! ### Listeners -/

namespace EventSocket

variable {s : EventSocket} {name : ErrorListener}

@[simp] lemma once_destroyed : (s.once name).destroyed = s.destroyed := rfl

@[simp] lemma once_uncaught : (s.once name).uncaught = s.uncaught := rfl

@[simp] lemma off_destroyed : (s.off name).destroyed = s.destroyed := rfl

@[simp] lemma off_uncaught : (s.off name).uncaught = s.uncaught := rfl

@[simp] lemma pipeTo_destroyed : s.pipeTo.destroyed = s.destroyed := rfl

@[simp] lemma pipeTo_uncaught : s.pipeTo.uncaught = s.uncaught := rfl

@[simp] lemma destroy_destroyed : s.destroy.destroyed = true := rfl

@[simp] lemma destroy_uncaught : s.destroy.uncaught = s.uncaught := rfl

@[simp] lemma fail_destroyed : s.fail.destroyed = true := by
  unfold fail
  split
  · assumption
  · rfl

lemma fail_uncaught_of_taken (h : s.destroyed = true ∨ (emit s.listeners).1 = true) :
    s.fail.uncaught = s.uncaught := by
  unfold fail
  split
  · rfl
  · rename_i hlive
    rcases h with hdestroyed | htaken
    · exact absurd hdestroyed hlive
    · simp [htaken]

lemma fail_uncaught_of_nil (hlive : s.destroyed = false) (h : s.listeners = []) :
    s.fail.uncaught = true := by
  simp [fail, hlive, h]

end EventSocket

/-- The listeners of the client in each phase. -/
def Phase.clientListeners : Phase → List (Listener ErrorListener)
  | .receiving _ _ => [⟨.hello, .once⟩]
  | .tunnelling _ => [⟨.pipe, .yields⟩, ⟨.tunnel, .once⟩]
  | _ => []

/-- Those of the upstream where there is one that is not destroyed; the listener of `waitForConnect`
stays attached. -/
def Phase.upstreamListeners : Phase → Option (List (Listener ErrorListener))
  | .connecting _ => some [⟨.connect, .once⟩]
  | .tunnelling _ => some [⟨.pipe, .yields⟩, ⟨.connect, .once⟩, ⟨.tunnel, .once⟩]
  | _ => none

def Phase.isAccepted : Phase → Bool
  | .receiving _ _ | .connecting _ | .tunnelling _ => true
  | _ => false

/-- There is no upstream yet. -/
def Phase.isEarly : Phase → Bool
  | .approving _ _ _ | .receiving _ _ => true
  | _ => false

structure Inv (s : ConnectState) : Prop where
  client : s.client.destroyed = true ∨ s.client.listeners = s.phase.clientListeners
  upstream : ∀ u ∈ s.upstream, u.destroyed = true ∨ s.phase.upstreamListeners = some u.listeners
  accepted : s.phase.isAccepted = true → s.tunnelAccepted = true
  early : s.phase.isEarly = true → s.upstream = none

/-- What a part of a step comes to, where `ok` says whether its errors are taken. -/
structure Becomes (s s' : ConnectState) (ok : Bool) : Prop where
  inv : Inv s'
  handled : s'.handled = (s.handled && ok)

section Steps

variable {p : ProxySettings} {s s' : ConnectState} {e : Thrown}

lemma handled_of_eq (hclient : s'.client.uncaught = s.client.uncaught)
    (hupstream : s'.upstream.all (fun u => !u.uncaught) = s.upstream.all fun u => !u.uncaught) :
    s'.handled = s.handled := by
  rw [ConnectState.handled, ConnectState.handled, hclient, hupstream]

lemma all_destroy (u : Option EventSocket) :
    (u.map EventSocket.destroy).all (fun u => !u.uncaught) = u.all fun u => !u.uncaught := by
  cases u <;> rfl

/-- The handler is over. -/
lemma inv_over {reply : Option ℕ} (hphase : s.phase = .over reply)
    (hclient : s.client.destroyed = true ∨ s.client.listeners = [])
    (hupstream : ∀ u ∈ s.upstream, u.destroyed = true) : Inv s := by
  constructor
  · rw [hphase]
    exact hclient
  · exact fun u hu => Or.inl (hupstream u hu)
  · rw [hphase]
    exact nofun
  · rw [hphase]
    exact nofun

lemma destroyed_of_mem_map {u : EventSocket} {o : Option EventSocket}
    (h : u ∈ o.map EventSocket.destroy) : u.destroyed = true := by
  obtain ⟨v, -, rfl⟩ := Option.map_eq_some_iff.mp (Option.mem_def.mp h)
  rfl

lemma becomes_caught (h : s.client.destroyed = true ∨ s.client.listeners = [] ∨ s.tunnelAccepted = true) :
    Becomes s (caught s e) true := by
  rw [caught]
  split
  · rename_i hdestroyed
    refine ⟨inv_over rfl (Or.inl hdestroyed) fun _ => destroyed_of_mem_map, ?_⟩
    rw [Bool.and_true]
    exact handled_of_eq rfl (all_destroy _)
  · rename_i hlive
    split
    · refine ⟨inv_over rfl (Or.inl rfl) fun _ => destroyed_of_mem_map, ?_⟩
      rw [Bool.and_true]
      exact handled_of_eq rfl (all_destroy _)
    · rename_i hrefused
      have hnil : s.client.listeners = [] := by
        rcases h with hdestroyed | hnil | haccepted
        · exact absurd hdestroyed hlive
        · exact hnil
        · exact absurd haccepted hrefused
      refine ⟨inv_over rfl (Or.inr hnil) fun _ => destroyed_of_mem_map, ?_⟩
      rw [Bool.and_true]
      exact handled_of_eq rfl (all_destroy _)

/-- A step that begins where another one has led. -/
lemma Becomes.of_eq {t : ConnectState} {ok : Bool} (h : Becomes t s' true)
    (hhandled : t.handled = (s.handled && ok)) : Becomes s s' ok := by
  refine ⟨h.inv, ?_⟩
  rw [h.handled, hhandled, Bool.and_true]

lemma becomes_failHello (haccepted : s.tunnelAccepted = true) : Becomes s (failHello s e) true := by
  have hcaught : Becomes { s with client := s.client.off .hello } (failHello s e) true :=
    becomes_caught (Or.inr (Or.inr haccepted))
  refine hcaught.of_eq ?_
  rw [Bool.and_true]
  exact handled_of_eq rfl rfl

lemma becomes_startUpstream {clientHello : List UInt8}
    (hclient : s.client.destroyed = true ∨ s.client.listeners = []) (hnone : s.upstream = none)
    (haccepted : s.tunnelAccepted = true) : Becomes s (startUpstream s clientHello) true := by
  refine ⟨⟨hclient, ?_, fun _ => haccepted, nofun⟩, ?_⟩
  · rintro u ⟨⟩
    exact Or.inr rfl
  · rw [Bool.and_true]
    have hupstream : (startUpstream s clientHello).upstream.all (fun u => !u.uncaught) =
        s.upstream.all fun u => !u.uncaught := by
      rw [hnone]
      rfl
    exact handled_of_eq rfl hupstream

lemma becomes_receiveHello {hostname : List Char} {head : List UInt8}
    (hclient : s.client.destroyed = true ∨ s.client.listeners = []) (hnone : s.upstream = none)
    (haccepted : s.tunnelAccepted = true) : Becomes s (receiveHello p s hostname head) true := by
  unfold receiveHello
  split
  · exact becomes_caught (Or.inr (Or.inr haccepted))
  · split
    · exact becomes_caught (Or.inr (Or.inr haccepted))
    · exact becomes_startUpstream hclient hnone haccepted
    · refine ⟨⟨?_, ?_, fun _ => haccepted, fun _ => hnone⟩, ?_⟩
      · rcases hclient with hdestroyed | hnil
        · exact Or.inl hdestroyed
        · refine Or.inr ?_
          show s.client.listeners ++ _ = _
          rw [hnil]
          rfl
      · rw [hnone]
        exact nofun
      · rw [Bool.and_true]
        exact handled_of_eq rfl rfl

lemma becomes_receiveData {hostname : List Char} {buffered chunk : List UInt8} (hinv : Inv s)
    (hphase : s.phase = .receiving hostname buffered) :
    Becomes s (receiveData p s hostname buffered chunk) true := by
  have haccepted : s.tunnelAccepted = true := hinv.accepted (by rw [hphase]; rfl)
  have hnone : s.upstream = none := hinv.early (by rw [hphase]; rfl)
  have hclient := hinv.client
  rw [hphase] at hclient
  unfold receiveData
  split
  · exact becomes_failHello haccepted
  · split
    · exact becomes_failHello haccepted
    · have hoff : s.client.destroyed = true ∨ (s.client.off .hello).listeners = [] := by
        rcases hclient with hdestroyed | hlisteners
        · exact Or.inl hdestroyed
        · refine Or.inr ?_
          show s.client.listeners.filter _ = []
          rw [hlisteners]
          rfl
      have hstart : Becomes { s with client := s.client.off .hello }
          (startUpstream { s with client := s.client.off .hello } (buffered ++ chunk)) true :=
        becomes_startUpstream hoff hnone haccepted
      refine hstart.of_eq ?_
      rw [Bool.and_true]
      exact handled_of_eq rfl rfl
    · refine ⟨⟨hclient, ?_, fun _ => haccepted, fun _ => hnone⟩, ?_⟩
      · rw [hnone]
        exact nofun
      · rw [Bool.and_true]
        exact handled_of_eq rfl rfl

lemma becomes_onDecision {hostname : List Char} {port : ℤ} {head : List UInt8}
    {answers : Option (List ResolvedAddress)} (hinv : Inv s)
    (hphase : s.phase = .approving hostname port head) :
    Becomes s (onDecision p s hostname port head answers) true := by
  have hnone : s.upstream = none := hinv.early (by rw [hphase]; rfl)
  have hclient := hinv.client
  rw [hphase] at hclient
  have hcaught : ∀ error, Becomes s (caught s error) true := by
    intro error
    apply becomes_caught
    rcases hclient with hdestroyed | hnil
    · exact Or.inl hdestroyed
    · exact Or.inr (Or.inl hnil)
  unfold onDecision
  split
  · exact hcaught _
  · split
    · exact hcaught _
    · have hreceive : Becomes { s with tunnelAccepted := true }
          (receiveHello p { s with tunnelAccepted := true } hostname head) true :=
        becomes_receiveHello hclient hnone rfl
      refine hreceive.of_eq ?_
      rw [Bool.and_true]
      exact handled_of_eq rfl rfl

/-- The errors of the client, phase by phase. -/
lemma taken_of_tunnel (hinv : Inv s) {bytes : ℕ} (hphase : s.phase = .tunnelling bytes) :
    s.client.fail.uncaught = s.client.uncaught := by
  apply EventSocket.fail_uncaught_of_taken
  have hclient := hinv.client
  rw [hphase] at hclient
  rcases hclient with hdestroyed | hlisteners
  · exact Or.inl hdestroyed
  · rw [hlisteners]
    exact Or.inr (emit_taken_of_concat [⟨.pipe, .yields⟩] rfl)

lemma taken_of_upstream (hinv : Inv s) {u : EventSocket} (hu : s.upstream = some u) :
    u.fail.uncaught = u.uncaught := by
  apply EventSocket.fail_uncaught_of_taken
  rcases hinv.upstream u hu with hdestroyed | hlisteners
  · exact Or.inl hdestroyed
  · refine Or.inr ?_
    cases hphase : s.phase with
    | connecting clientHello =>
      rw [hphase] at hlisteners
      rw [← Option.some.inj hlisteners]
      exact emit_taken_of_concat [] rfl
    | tunnelling bytes =>
      rw [hphase] at hlisteners
      rw [← Option.some.inj hlisteners]
      exact emit_taken_of_concat [⟨.pipe, .yields⟩, ⟨.connect, .once⟩] rfl
    | _ =>
      rw [hphase] at hlisteners
      cases hlisteners

lemma all_fail (hinv : Inv s) :
    (s.upstream.map EventSocket.fail).all (fun u => !u.uncaught) =
      s.upstream.all fun u => !u.uncaught := by
  cases hu : s.upstream with
  | none => rfl
  | some u =>
    show (!u.fail.uncaught) = !u.uncaught
    rw [taken_of_upstream hinv hu]

lemma becomes_meter {bytes size : ℕ} (hinv : Inv s) (hphase : s.phase = .tunnelling bytes) :
    Becomes s (meter p s bytes size) true := by
  have haccepted : s.tunnelAccepted = true := hinv.accepted (by rw [hphase]; rfl)
  unfold meter
  split
  · have hcaught : Becomes
        { s with upstream := s.upstream.map EventSocket.fail, client := s.client.fail }
        (caught { s with upstream := s.upstream.map EventSocket.fail, client := s.client.fail }
          (.plain "tunnel-byte-limit")) true :=
      becomes_caught (Or.inl EventSocket.fail_destroyed)
    refine hcaught.of_eq ?_
    rw [Bool.and_true]
    exact handled_of_eq (taken_of_tunnel hinv hphase) (all_fail hinv)
  · have hclient := hinv.client
    have hupstream := hinv.upstream
    rw [hphase] at hclient hupstream
    refine ⟨⟨hclient, hupstream, fun _ => haccepted, nofun⟩, ?_⟩
    rw [Bool.and_true]
    exact handled_of_eq rfl rfl

lemma becomes_completeTunnel (h : s.client.destroyed = true ∨ s.tunnelAccepted = true) :
    Becomes s (completeTunnel s) true := by
  unfold completeTunnel
  split
  · apply becomes_caught
    rcases h with hdestroyed | haccepted
    · exact Or.inl hdestroyed
    · exact Or.inr (Or.inr haccepted)
  · refine ⟨inv_over rfl (Or.inl rfl) fun _ => destroyed_of_mem_map, ?_⟩
    rw [Bool.and_true]
    exact handled_of_eq rfl (all_destroy _)

lemma becomes_startTunnel {u : EventSocket} {clientHello : List UInt8} (hinv : Inv s)
    (hphase : s.phase = .connecting clientHello) (hu : s.upstream = some u) :
    Becomes s (startTunnel s u clientHello) true := by
  have haccepted : s.tunnelAccepted = true := hinv.accepted (by rw [hphase]; rfl)
  have hclient := hinv.client
  have hupstream := hinv.upstream u hu
  rw [hphase] at hclient hupstream
  refine ⟨⟨?_, ?_, fun _ => haccepted, nofun⟩, ?_⟩
  · rcases hclient with hdestroyed | hnil
    · exact Or.inl hdestroyed
    · refine Or.inr ?_
      show ⟨.pipe, .yields⟩ :: s.client.listeners ++ _ = _
      rw [hnil]
      rfl
  · rintro v ⟨⟩
    rcases hupstream with hdestroyed | hlisteners
    · exact Or.inl hdestroyed
    · refine Or.inr ?_
      show some _ = some (⟨.pipe, .yields⟩ :: u.listeners ++ _)
      rw [← Option.some.inj hlisteners]
      rfl
  · rw [Bool.and_true]
    refine handled_of_eq rfl ?_
    rw [hu]
    rfl

/-- Where no one listens, the error is not taken. -/
lemma becomes_uncaught {t : ConnectState} (hlive : s.client.destroyed = false)
    (hnil : s.client.listeners = []) (hinv : Inv t) (hclient : t.client = s.client.fail) :
    Becomes s t false := by
  refine ⟨hinv, ?_⟩
  rw [Bool.and_false, ConnectState.handled, hclient, EventSocket.fail_uncaught_of_nil hlive hnil]
  rfl

/-- An error of the client is taken in two phases. -/
lemma becomes_clientError (hinv : Inv s) (hlive : s.client.destroyed = false) :
    Becomes s (clientError s e) (covered s .clientIdle) := by
  have hlisteners : s.client.listeners = s.phase.clientListeners := by
    rcases hinv.client with hdestroyed | hlisteners
    · rw [hlive] at hdestroyed
      cases hdestroyed
    · exact hlisteners
  have hquiet : s.client.listeners = [] → Becomes s { s with client := s.client.fail } false :=
    fun hnil => becomes_uncaught hlive hnil
      ⟨Or.inl EventSocket.fail_destroyed, hinv.upstream, hinv.accepted, hinv.early⟩ rfl
  unfold clientError covered
  cases hphase : s.phase with
  | receiving hostname buffered =>
    have hfail : Becomes { s with client := s.client.fail }
        (failHello { s with client := s.client.fail } e) true :=
      becomes_failHello (hinv.accepted (by rw [hphase]; rfl))
    refine hfail.of_eq ?_
    rw [Bool.and_true]
    refine handled_of_eq (EventSocket.fail_uncaught_of_taken (Or.inr ?_)) rfl
    rw [hlisteners, hphase]
    exact emit_taken_of_concat [] rfl
  | tunnelling bytes =>
    have hcaught : Becomes { s with client := s.client.fail }
        (caught { s with client := s.client.fail } e) true :=
      becomes_caught (Or.inl EventSocket.fail_destroyed)
    refine hcaught.of_eq ?_
    rw [Bool.and_true]
    exact handled_of_eq (taken_of_tunnel hinv hphase) rfl
  | _ =>
    rw [hphase] at hlisteners hquiet
    exact hquiet hlisteners

/-- Every error of the upstream is taken. -/
lemma becomes_upstreamError {u : EventSocket} (hinv : Inv s) (hu : s.upstream = some u)
    (hlive : u.destroyed = false) : Becomes s (upstreamError s u e) true := by
  have htaken : ({ s with upstream := some u.fail } : ConnectState).handled = (s.handled && true) := by
    rw [Bool.and_true]
    refine handled_of_eq rfl ?_
    rw [hu]
    show (!u.fail.uncaught) = !u.uncaught
    rw [taken_of_upstream hinv hu]
  unfold upstreamError
  cases hphase : s.phase with
  | connecting clientHello =>
    have hcaught : Becomes { s with upstream := some u.fail }
        (caught { s with upstream := some u.fail } e) true :=
      becomes_caught (Or.inr (Or.inr (hinv.accepted (by rw [hphase]; rfl))))
    exact hcaught.of_eq htaken
  | tunnelling bytes =>
    have hcaught : Becomes { s with upstream := some u.fail }
        (caught { s with upstream := some u.fail } e) true :=
      becomes_caught (Or.inr (Or.inr (hinv.accepted (by rw [hphase]; rfl))))
    exact hcaught.of_eq htaken
  | _ =>
    rcases hinv.upstream u hu with hdestroyed | hlisteners
    · rw [hlive] at hdestroyed
      cases hdestroyed
    · rw [hphase] at hlisteners
      cases hlisteners

end Steps

/-! ### Runs -/

section Runs

variable {p : ProxySettings} {s s' : ConnectState} {event : ConnectEvent}

lemma Becomes.refl (hinv : Inv s) : Becomes s s true := ⟨hinv, (Bool.and_true _).symm⟩

/-- The client is destroyed without an error. -/
lemma Inv.destroyClient (hinv : Inv s) :
    Becomes s { s with client := s.client.destroy } true := by
  refine ⟨⟨Or.inl rfl, hinv.upstream, hinv.accepted, hinv.early⟩, ?_⟩
  rw [Bool.and_true]
  exact handled_of_eq rfl rfl

lemma Inv.destroyUpstream (hinv : Inv s) :
    Becomes s { s with upstream := s.upstream.map EventSocket.destroy } true := by
  refine ⟨⟨hinv.client, fun u hu => Or.inl (destroyed_of_mem_map hu), hinv.accepted, ?_⟩, ?_⟩
  · intro hearly
    show s.upstream.map _ = none
    rw [hinv.early hearly]
    rfl
  · rw [Bool.and_true]
    exact handled_of_eq rfl (all_destroy _)

lemma becomes_step (hinv : Inv s) (h : step p s event = some s') :
    Becomes s s' (covered s event) := by
  have haccepted : s.phase.isAccepted = true → s.tunnelAccepted = true := hinv.accepted
  cases event with
  | decided answers =>
    simp only [step] at h
    split at h
    · rename_i hphase
      cases h
      exact becomes_onDecision hinv hphase
    · cases h
  | clientData chunk =>
    simp only [step] at h
    split at h
    · cases h
    · split at h
      · rename_i hphase
        cases h
        exact becomes_receiveData hinv hphase
      · rename_i hphase
        cases h
        exact becomes_meter hinv hphase
      · cases h
  | clientEnded =>
    simp only [step] at h
    split at h
    · cases h
    · split at h
      · rename_i hphase
        cases h
        exact becomes_failHello (haccepted (by rw [hphase]; rfl))
      · cases h
        exact Becomes.refl hinv
  | clientClosed =>
    have hdestroy := hinv.destroyClient
    simp only [step] at h
    split at h
    · rename_i hphase
      cases h
      have hfail : Becomes { s with client := s.client.destroy }
          (failHello { s with client := s.client.destroy } closedBeforeHello) true :=
        becomes_failHello (haccepted (by rw [hphase]; rfl))
      exact hfail.of_eq hdestroy.handled
    · cases h
      have hcomplete : Becomes { s with client := s.client.destroy }
          (completeTunnel { s with client := s.client.destroy }) true :=
        becomes_completeTunnel (Or.inl rfl)
      exact hcomplete.of_eq hdestroy.handled
    · cases h
      exact hdestroy
  | clientFailed error =>
    simp only [step] at h
    split at h
    · cases h
    · rename_i hlive
      cases h
      exact becomes_clientError hinv (by simpa using hlive)
  | clientIdle =>
    simp only [step] at h
    split at h
    · cases h
    · rename_i hlive
      cases h
      rw [Bool.or_eq_true, not_or] at hlive
      exact becomes_clientError hinv (by simpa using hlive.1)
  | helloTimeout =>
    simp only [step] at h
    split at h
    · rename_i hphase
      cases h
      exact becomes_failHello (haccepted (by rw [hphase]; rfl))
    · cases h
  | connected =>
    simp only [step] at h
    split at h
    · rename_i hphase hu
      split at h
      · cases h
      · cases h
        exact becomes_startTunnel hinv hphase hu
    · cases h
  | connectTimeout =>
    simp only [step] at h
    split at h
    · rename_i hphase
      cases h
      exact becomes_caught (Or.inr (Or.inr (haccepted (by rw [hphase]; rfl))))
    · cases h
  | upstreamData size =>
    simp only [step] at h
    split at h
    · rename_i hphase
      split at h
      · cases h
      · cases h
        exact becomes_meter hinv hphase
    · cases h
  | upstreamClosed =>
    have hdestroy := hinv.destroyUpstream
    simp only [step] at h
    split at h
    · rename_i hphase
      cases h
      have hcomplete : Becomes { s with upstream := s.upstream.map EventSocket.destroy }
          (completeTunnel { s with upstream := s.upstream.map EventSocket.destroy }) true :=
        becomes_completeTunnel (Or.inr (haccepted (by rw [hphase]; rfl)))
      exact hcomplete.of_eq hdestroy.handled
    · cases h
      exact hdestroy
  | upstreamFailed error =>
    simp only [step] at h
    split at h
    · rename_i u hu
      split at h
      · cases h
      · rename_i hlive
        cases h
        exact becomes_upstreamError hinv hu (by simpa using hlive)
    · cases h
  | deadline =>
    have hboth : Becomes s { s with
        deadlineError := true
        client := s.client.destroy
        upstream := s.upstream.map EventSocket.destroy } true := by
      obtain ⟨hinv', hhandled⟩ := hinv.destroyUpstream
      refine ⟨⟨Or.inl rfl, hinv'.upstream, hinv'.accepted, hinv'.early⟩, hhandled⟩
    simp only [step] at h
    split at h
    · cases h
    · cases h
      exact hboth

lemma inv_onConnect (p : ProxySettings) (hasCapacity : Bool) (r : ConnectRequest) :
    Inv (onConnect p hasCapacity r) ∧ (onConnect p hasCapacity r).handled = true := by
  have hcaught : ∀ error, Inv (caught ⟨.over (some 503), .fresh, none, false, false⟩ error) ∧
      (caught ⟨.over (some 503), .fresh, none, false, false⟩ error).handled = true := by
    intro error
    have hbecomes : Becomes ⟨.over (some 503), .fresh, none, false, false⟩
        (caught ⟨.over (some 503), .fresh, none, false, false⟩ error) true :=
      becomes_caught (Or.inr (Or.inl rfl))
    exact ⟨hbecomes.inv, hbecomes.handled⟩
  have happroving : ∀ hostname port,
      Inv ⟨.approving hostname port r.head, .fresh, none, false, false⟩ :=
    fun hostname port => ⟨Or.inr rfl, nofun, nofun, fun _ => rfl⟩
  unfold onConnect
  split
  · exact ⟨inv_over rfl (Or.inr rfl) nofun, rfl⟩
  · split
    · exact hcaught _
    · split
      · exact hcaught _
      · split
        · split
          · exact ⟨happroving _ _, rfl⟩
          · exact hcaught _
        · exact ⟨happroving _ _, rfl⟩

/-- An error that was not taken is never forgotten, and the covered steps are those that take all. -/
lemma exec_guard_iff {events : List ConnectEvent} (hinv : Inv s)
    (h : Transition.exec (step p) s events = some s') :
    s'.handled = true ↔
      s.handled = true ∧ Transition.exec (Transition.guard (step p) covered) s events = some s' := by
  induction events generalizing s with
  | nil =>
    cases h
    exact ⟨fun hhandled => ⟨hhandled, rfl⟩, fun hboth => hboth.1⟩
  | cons event rest ih =>
    simp only [Transition.exec] at h ⊢
    cases hstep : step p s event with
    | none =>
      rw [hstep] at h
      cases h
    | some t =>
      rw [hstep] at h
      have hbecomes := becomes_step hinv hstep
      rw [ih hbecomes.inv h, hbecomes.handled, Transition.guard]
      cases hcovered : covered s event with
      | true => simp [hstep]
      | false => simp

/-- In every order of events, every error of both sockets is taken by a listener if and only if the
client has no error outside the two phases that listen to it. -/
theorem handled_iff_covered {hasCapacity : Bool} {r : ConnectRequest} {events : List ConnectEvent}
    (h : Transition.exec (step p) (onConnect p hasCapacity r) events = some s) :
    s.handled = true ↔
      Transition.exec (Transition.guard (step p) covered) (onConnect p hasCapacity r) events =
        some s := by
  obtain ⟨hinv, hhandled⟩ := inv_onConnect p hasCapacity r
  rw [exec_guard_iff hinv h, hhandled]
  exact ⟨fun hboth => hboth.2, fun hguarded => ⟨rfl, hguarded⟩⟩

end Runs

/-! ### A reset of the guest -/

def registryProxy : ProxySettings where
  domainToASCII := id
  policy := ⟨[⟨"npmjs.org".toList, true⟩], [some 80], [some 443], 5000⟩
  maxBytes := 128 * 1024 * 1024
  maxClientHelloBytes := some (64 * 1024)

def registryRequest : ConnectRequest := ⟨[], some "registry.npmjs.org:443".toList, []⟩

def reset : Thrown := .plain "read ECONNRESET"

/-- While the ClientHello is read, a reset is taken. -/
theorem handled_reading : ∃ s,
    Transition.exec (step registryProxy) (onConnect registryProxy true registryRequest)
      [.decided (some registryAnswers), .clientFailed reset] = some s ∧ s.handled = true := by
  have hrun : (Transition.exec (Transition.guard (step registryProxy) covered)
      (onConnect registryProxy true registryRequest)
      [.decided (some registryAnswers), .clientFailed reset]).isSome = true := by
    decide +kernel
  have hsame : Transition.exec (step registryProxy) (onConnect registryProxy true registryRequest)
      [.decided (some registryAnswers), .clientFailed reset] =
        Transition.exec (Transition.guard (step registryProxy) covered)
          (onConnect registryProxy true registryRequest)
          [.decided (some registryAnswers), .clientFailed reset] := by
    decide +kernel
  obtain ⟨s, hs⟩ := Option.isSome_iff_exists.mp hrun
  exact ⟨s, hsame.trans hs, (handled_iff_covered (hsame.trans hs)).mpr hs⟩

/-- While the policy decides, it is not. -/
theorem not_handled_approving :
    ¬∀ (p : ProxySettings) (hasCapacity : Bool) (r : ConnectRequest) (events : List ConnectEvent)
      (s : ConnectState), Transition.exec (step p) (onConnect p hasCapacity r) events = some s →
        s.handled = true := by
  intro h
  have hrun : (Transition.exec (step registryProxy) (onConnect registryProxy true registryRequest)
      [.clientFailed reset]).any (fun s => !s.handled) = true := by
    decide +kernel
  obtain ⟨s, hs, hnot⟩ := (Option.any_eq_true _ _).mp hrun
  rw [h _ _ _ _ _ hs] at hnot
  cases hnot

end HandleConnect

end Bloom
