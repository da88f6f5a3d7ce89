import BloomWorkspaces.Agent.GuestProtocol
import BloomWorkspaces.Agent.PtyRuntime
import BloomWorkspaces.Library.Table
import BloomWorkspaces.Library.Transition

/-!
# Input of a Firecracker terminal

`write` and `connectTerminal` of `FirecrackerRuntime`. Input goes to the socket of the terminal, or it waits
in `pendingInput` for the next one. A write is appended to the queue before the bound of the queue is
checked, so a write that is refused there stays in the queue.
-/

namespace Bloom

def maxTerminalInput : ℕ := 64 * 1024

/-- A socket of `connectTerminal`: it is `connected` once the guest has accepted it, and `ending` when it
has not closed yet and takes no more input. -/
inductive TerminalSocket
  | connecting
  | connected
  | ending
  | closed
  deriving DecidableEq, Repr

/-- The fields of an `Instance` that its terminal input goes through. `sockets` are all that were made,
which `socket` names by position; `accepted` are the writes that did not throw, and `handed` is what the
sockets were given. -/
structure TerminalInput where
  state : InstanceState
  pendingInput : JsText
  socket : Option ℕ
  connecting : Bool
  sockets : List TerminalSocket
  accepted : List JsText
  handed : JsText
  deriving DecidableEq, Repr

namespace TerminalInput

def initial : TerminalInput := ⟨.running, [], none, false, [], [], []⟩

/-- `instance.socket?.writable` -/
def writable (s : TerminalInput) : Bool := s.socket.any fun n => s.sockets[n]? = some .connected

def connectTerminal (s : TerminalInput) : TerminalInput :=
  if s.socket.isSome || s.connecting || s.state ≠ .running then s
  else { s with connecting := true, sockets := s.sockets ++ [.connecting] }

/-- `socket.write` -/
def hand (s : TerminalInput) (data : JsText) : TerminalInput := { s with handed := s.handed ++ data }

/-- `write`, with the message that it throws. -/
def write (s : TerminalInput) (data : JsText) : TerminalInput × Option String :=
  if maxTerminalInput < Utf16.byteLength data then (s, some "Terminal input is too large")
  else if s.state ≠ .running then (s, some "Workspace is not running")
  else if s.writable then (s.hand data, none)
  else
    let queued := { s with pendingInput := s.pendingInput ++ data }
    if maxTerminalInput < Utf16.byteLength queued.pendingInput then
      (queued, some "Terminal input queue is full")
    else (queued.connectTerminal, none)

/-- The answer of the guest begins with `OK `. -/
def accept (s : TerminalInput) (n : ℕ) : TerminalInput :=
  { s with
    connecting := false
    socket := some n
    sockets := s.sockets.set n .connected
    handed := s.handed ++ s.pendingInput
    pendingInput := [] }

/-- The close event of a socket; the handler of the error event before it only resets `connecting`. -/
def close (s : TerminalInput) (n : ℕ) : TerminalInput :=
  { s with
    connecting := false
    socket := if s.socket = some n then none else s.socket
    sockets := s.sockets.set n .closed }

/-- `connect` is `connectTerminal` from `attach` or from a timer; `leave` ends the instance. -/
inductive Event
  | write (data : JsText)
  | connect
  | accept (n : ℕ)
  | finish (n : ℕ)
  | close (n : ℕ)
  | leave (state : InstanceState)
  deriving DecidableEq, Repr

def step (s : TerminalInput) : Event → Option TerminalInput
  | .write data =>
    let (written, thrown) := s.write data
    some (if thrown.isNone then { written with accepted := written.accepted ++ [data] } else written)
  | .connect => some s.connectTerminal
  | .accept n => if s.sockets[n]? = some .connecting then some (s.accept n) else none
  | .finish n =>
    if s.sockets[n]? = some .connected then some { s with sockets := s.sockets.set n .ending } else none
  | .close n =>
    match s.sockets[n]? with
    | none | some .closed => none
    | _ => some (s.close n)
  | .leave state => if state = .running then none else some { s with state := state }

/-! ### The law of the input -/

/-- The socket has not closed. -/
def Live (s : TerminalInput) (n : ℕ) : Prop :=
  ∃ phase, s.sockets[n]? = some phase ∧ phase ≠ TerminalSocket.closed

/-- What was accepted is handed on in order or waits in a queue within its bound, and there is one socket
at a time. -/
structure InputKept (s : TerminalInput) : Prop where
  bounded : Utf16.byteLength s.pendingInput ≤ maxTerminalInput
  ordered : s.handed ++ s.pendingInput = s.accepted.flatten
  sole : ∀ n m, s.Live n → s.Live m → n = m

/-- A write that has to wait finds room in the queue. -/
def queueFits (s : TerminalInput) : Event → Prop
  | .write data => Utf16.byteLength data ≤ maxTerminalInput → s.state = .running → s.writable = false →
    Utf16.byteLength (s.pendingInput ++ data) ≤ maxTerminalInput
  | _ => True

/-! ### Sockets -/

/-- The fields of the instance name the one socket that has not closed. -/
structure Linked (s : TerminalInput) : Prop where
  sole : ∀ n m, s.Live n → s.Live m → n = m
  named : ∀ n, s.Live n → s.socket = some n ∨ s.connecting = true
  flushed : s.writable = true → s.pendingInput = []

variable {s s' : TerminalInput} {data : JsText} {n m : ℕ}

lemma linked_initial : Linked initial where
  sole := by
    rintro n m ⟨phase, hphase, -⟩
    cases hphase
  named := by
    rintro n ⟨phase, hphase, -⟩
    cases hphase
  flushed _ := rfl

/-- A socket that is set to another phase. -/
lemma live_of_set {phase : TerminalSocket}
    (h : ∃ p, (s.sockets.set n phase)[m]? = some p ∧ p ≠ .closed) :
    s.Live m ∨ m = n ∧ phase ≠ .closed := by
  obtain ⟨p, hp, hopen⟩ := h
  by_cases hm : n = m
  · subst hm
    by_cases hlt : n < s.sockets.length
    · rw [List.getElem?_set_self hlt, Option.some_inj] at hp
      exact .inr ⟨rfl, hp ▸ hopen⟩
    · rw [List.getElem?_eq_none (by rw [List.length_set]; omega)] at hp
      cases hp
  · rw [List.getElem?_set_ne hm] at hp
    exact .inl ⟨p, hp, hopen⟩

lemma writable_iff : s.writable = true ↔
    ∃ n, s.socket = some n ∧ s.sockets[n]? = some .connected := by
  rw [writable]
  cases s.socket with
  | none => simp
  | some n => simp

lemma Linked.connect (h : Linked s) : Linked s.connectTerminal := by
  rw [connectTerminal]
  split_ifs with hbusy
  · exact h
  · simp only [Bool.or_eq_true, not_or, decide_eq_true_eq, Option.isSome_iff_exists, not_exists] at hbusy
    obtain ⟨⟨hsocket, hconnecting⟩, -⟩ := hbusy
    have hnone : ∀ m, ¬s.Live m := by
      intro m hm
      rcases h.named m hm with hnamed | hflag
      · exact hsocket m hnamed
      · exact hconnecting hflag
    have hlast : ∀ m, Live { s with connecting := true, sockets := s.sockets ++ [.connecting] } m →
        m = s.sockets.length := by
      rintro m ⟨phase, hphase, hopen⟩
      rcases Table.getElem?_concat_cases hphase with hold | ⟨rfl, -⟩
      · exact absurd ⟨phase, hold, hopen⟩ (hnone m)
      · rfl
    refine ⟨?_, ?_, ?_⟩
    · intro n m hn hm
      rw [hlast n hn, hlast m hm]
    · exact fun _ _ => .inr rfl
    · intro hwritable
      obtain ⟨m, hnamed, -⟩ := writable_iff.mp hwritable
      exact absurd hnamed (hsocket m)

lemma Linked.accept (h : Linked s) (hn : s.sockets[n]? = some .connecting) : Linked (s.accept n) := by
  have hlive : s.Live n := ⟨_, hn, nofun⟩
  have honly : ∀ m, (s.accept n).Live m → m = n := by
    intro m hm
    rcases live_of_set hm with hold | ⟨heq, -⟩
    · exact h.sole m n hold hlive
    · exact heq
  refine ⟨?_, ?_, ?_⟩
  · intro m m' hm hm'
    rw [honly m hm, honly m' hm']
  · intro m hm
    exact .inl (by rw [honly m hm]; rfl)
  · exact fun _ => rfl

lemma Linked.finish (h : Linked s) (hn : s.sockets[n]? = some .connected) :
    Linked { s with sockets := s.sockets.set n .ending } := by
  have hlive : s.Live n := ⟨_, hn, nofun⟩
  have hold : ∀ m, Live { s with sockets := s.sockets.set n .ending } m → s.Live m := by
    intro m hm
    rcases live_of_set hm with hm | ⟨rfl, -⟩
    · exact hm
    · exact hlive
  refine ⟨?_, ?_, ?_⟩
  · exact fun m m' hm hm' => h.sole m m' (hold m hm) (hold m' hm')
  · exact fun m hm => h.named m (hold m hm)
  · intro hwritable
    obtain ⟨m, hsocket, hm⟩ := writable_iff.mp hwritable
    have hne : n ≠ m := by
      rintro rfl
      rw [List.getElem?_set_self (List.getElem?_eq_some_iff.mp hn).1] at hm
      cases hm
    rw [List.getElem?_set_ne hne] at hm
    exact h.flushed (writable_iff.mpr ⟨m, hsocket, hm⟩)

lemma Linked.close (h : Linked s) (hn : s.Live n) : Linked (s.close n) := by
  have hnone : ∀ m, ¬(s.close n).Live m := by
    intro m hm
    rcases live_of_set hm with hold | ⟨-, hclosed⟩
    · obtain ⟨phase, hphase, hopen⟩ := hm
      obtain rfl := h.sole m n hold hn
      obtain ⟨_, hopened, -⟩ := hold
      rw [TerminalInput.close] at hphase
      rw [List.getElem?_set_self (List.getElem?_eq_some_iff.mp hopened).1, Option.some_inj] at hphase
      exact hopen hphase.symm
    · exact hclosed rfl
  refine ⟨fun m m' hm => absurd hm (hnone m), fun m hm => absurd hm (hnone m), ?_⟩
  intro hwritable
  obtain ⟨m, -, hm⟩ := writable_iff.mp hwritable
  exact absurd ⟨_, hm, nofun⟩ (hnone m)

/-! ### Writes -/

@[simp] lemma pendingInput_connectTerminal : s.connectTerminal.pendingInput = s.pendingInput := by
  rw [connectTerminal]
  split_ifs <;> rfl

@[simp] lemma accepted_connectTerminal : s.connectTerminal.accepted = s.accepted := by
  rw [connectTerminal]
  split_ifs <;> rfl

@[simp] lemma handed_connectTerminal : s.connectTerminal.handed = s.handed := by
  rw [connectTerminal]
  split_ifs <;> rfl

/-- The ways of a write: refused, handed on, queued, or refused after it was queued. -/
lemma write_cases (s : TerminalInput) (data : JsText) :
    (∃ message, s.write data = (s, some message)) ∨
    (s.writable = true ∧ s.write data = (s.hand data, none)) ∨
    (s.writable = false ∧ Utf16.byteLength (s.pendingInput ++ data) ≤ maxTerminalInput ∧
      s.write data =
        ({ s with pendingInput := s.pendingInput ++ data }.connectTerminal, none)) ∨
    (¬s.queueFits (.write data) ∧ maxTerminalInput < Utf16.byteLength (s.pendingInput ++ data) ∧
      s.write data =
        ({ s with pendingInput := s.pendingInput ++ data }, some "Terminal input queue is full")) := by
  simp only [TerminalInput.write]
  split_ifs with hlarge hstopped hwritable hfull
  · exact .inl ⟨_, rfl⟩
  · exact .inl ⟨_, rfl⟩
  · exact .inr (.inl ⟨hwritable, rfl⟩)
  · rw [Bool.not_eq_true] at hwritable
    refine .inr (.inr (.inr ⟨fun hfits => ?_, hfull, rfl⟩))
    exact absurd (hfits (Nat.not_lt.mp hlarge) (not_not.mp hstopped) hwritable) (Nat.not_le.mpr hfull)
  · rw [Bool.not_eq_true] at hwritable
    exact .inr (.inr (.inl ⟨hwritable, Nat.not_lt.mp hfull, rfl⟩))

lemma Linked.queue (h : Linked s) (hwritable : s.writable = false) (pendingInput : JsText) :
    Linked { s with pendingInput := pendingInput } :=
  ⟨h.sole, h.named, fun hopen => absurd (hwritable.symm.trans hopen) Bool.false_ne_true⟩

lemma Linked.step {e : Event} (h : Linked s) (hs : s.step e = some s') : Linked s' := by
  cases e with
  | write data =>
    simp only [TerminalInput.step, Option.some_inj] at hs
    subst hs
    rcases s.write_cases data with ⟨message, hwrite⟩ | ⟨hwritable, hwrite⟩ |
      ⟨hwritable, hfits, hwrite⟩ | ⟨hover, hfull, hwrite⟩
    · rw [hwrite]
      exact h
    · rw [hwrite]
      exact ⟨h.sole, h.named, h.flushed⟩
    · rw [hwrite]
      have hconnect := (h.queue hwritable (s.pendingInput ++ data)).connect
      exact ⟨hconnect.sole, hconnect.named, hconnect.flushed⟩
    · rw [hwrite]
      by_cases hopen : s.writable = true
      · exact absurd (fun _ _ hclosed => absurd (hclosed.symm.trans hopen) Bool.false_ne_true) hover
      · exact h.queue (Bool.not_eq_true _ ▸ hopen) _
  | connect =>
    cases hs
    exact h.connect
  | accept n =>
    simp only [TerminalInput.step] at hs
    split_ifs at hs with hn
    cases hs
    exact h.accept hn
  | finish n =>
    simp only [TerminalInput.step] at hs
    split_ifs at hs with hn
    cases hs
    exact h.finish hn
  | close n =>
    simp only [TerminalInput.step] at hs
    split at hs
    · cases hs
    · cases hs
    · rename_i hnone hclosed
      cases hs
      obtain ⟨phase, hphase⟩ := Option.ne_none_iff_exists'.mp hnone
      exact h.close ⟨phase, hphase, fun heq => hclosed (heq ▸ hphase)⟩
  | leave state =>
    simp only [TerminalInput.step] at hs
    split_ifs at hs
    cases hs
    exact ⟨h.sole, h.named, h.flushed⟩

/-! ### The order of the input -/

/-- What becomes of the queue, of what was handed on and of what was accepted in one step. -/
lemma step_moves {e : Event} (h : Linked s) (hs : s.step e = some s') :
    (s'.handed ++ s'.pendingInput = s.handed ++ s.pendingInput ∧ s'.accepted = s.accepted ∧
      (s'.pendingInput = s.pendingInput ∨ s'.pendingInput = [])) ∨
    (∃ data, s'.handed ++ s'.pendingInput = s.handed ++ s.pendingInput ++ data ∧
      s'.accepted = s.accepted ++ [data] ∧
      (Utf16.byteLength s'.pendingInput ≤ maxTerminalInput ∨ s'.pendingInput = s.pendingInput)) ∨
    (∃ data, ¬s.queueFits e ∧ s'.handed = s.handed ∧ s'.pendingInput = s.pendingInput ++ data ∧
      s'.accepted = s.accepted ∧ maxTerminalInput < Utf16.byteLength s'.pendingInput) := by
  cases e with
  | write data =>
    simp only [TerminalInput.step, Option.some_inj] at hs
    subst hs
    rcases s.write_cases data with ⟨message, hwrite⟩ | ⟨hwritable, hwrite⟩ |
      ⟨hwritable, hfits, hwrite⟩ | ⟨hover, hfull, hwrite⟩
    · rw [hwrite]
      exact .inl ⟨rfl, rfl, .inl rfl⟩
    · rw [hwrite]
      refine .inr (.inl ⟨data, ?_, rfl, .inr rfl⟩)
      simp [hand, h.flushed hwritable]
    · rw [hwrite]
      exact .inr (.inl ⟨data, by simp, by simp, .inl (by simpa using hfits)⟩)
    · rw [hwrite]
      exact .inr (.inr ⟨data, hover, rfl, rfl, rfl, hfull⟩)
  | connect =>
    cases hs
    exact .inl ⟨by simp, by simp, .inl (by simp)⟩
  | accept n =>
    simp only [TerminalInput.step] at hs
    split_ifs at hs with hn
    cases hs
    exact .inl ⟨by simp [TerminalInput.accept], rfl, .inr rfl⟩
  | finish n =>
    simp only [TerminalInput.step] at hs
    split_ifs at hs with hn
    cases hs
    exact .inl ⟨rfl, rfl, .inl rfl⟩
  | close n =>
    simp only [TerminalInput.step] at hs
    split at hs
    · cases hs
    · cases hs
    · cases hs
      exact .inl ⟨rfl, rfl, .inl rfl⟩
  | leave state =>
    simp only [TerminalInput.step] at hs
    split_ifs at hs
    cases hs
    exact .inl ⟨rfl, rfl, .inl rfl⟩

/-- More was queued or handed on than was accepted. -/
def Surplus (s : TerminalInput) : Prop :=
  s.accepted.flatten.length < (s.handed ++ s.pendingInput).length

/-- Whatever happens, no accepted input is lost, and a queue beyond its bound holds refused input. -/
structure Complete (s : TerminalInput) : Prop where
  linked : Linked s
  accepted_le : s.accepted.flatten.length ≤ (s.handed ++ s.pendingInput).length
  surplus : maxTerminalInput < Utf16.byteLength s.pendingInput → s.Surplus

lemma complete_initial : Complete initial :=
  ⟨linked_initial, Nat.le_refl _, fun h => absurd h (by decide)⟩

lemma byteLength_nil_le : Utf16.byteLength [] ≤ maxTerminalInput := Nat.zero_le _

/-- A surplus never goes away. -/
lemma Surplus.step {e : Event} (h : s.Surplus) (hlinked : Linked s) (hs : s.step e = some s') :
    s'.Surplus := by
  rw [Surplus] at h ⊢
  rcases step_moves hlinked hs with ⟨htotal, haccepted, -⟩ | ⟨data, htotal, haccepted, -⟩ |
    ⟨data, -, hhanded, hpending, haccepted, -⟩
  · rw [htotal, haccepted]
    exact h
  · rw [htotal, haccepted]
    simp only [List.flatten_append, List.flatten_singleton, List.length_append] at h ⊢
    omega
  · rw [hhanded, hpending, haccepted]
    simp only [List.length_append] at h ⊢
    omega

lemma Complete.step {e : Event} (h : Complete s) (hs : s.step e = some s') : Complete s' := by
  refine ⟨h.linked.step hs, ?_, ?_⟩
  · have hle := h.accepted_le
    rcases step_moves h.linked hs with ⟨htotal, haccepted, -⟩ | ⟨data, htotal, haccepted, -⟩ |
      ⟨data, -, hhanded, hpending, haccepted, -⟩
    · rw [htotal, haccepted]
      exact hle
    · rw [htotal, haccepted]
      simp only [List.flatten_append, List.flatten_singleton, List.length_append] at hle ⊢
      omega
    · rw [hhanded, hpending, haccepted]
      simp only [List.length_append] at hle ⊢
      omega
  · intro hfull
    -- a queue that was full before has its surplus; otherwise this step has overflown it
    by_cases hbefore : maxTerminalInput < Utf16.byteLength s.pendingInput
    · exact (h.surplus hbefore).step h.linked hs
    · rcases step_moves h.linked hs with ⟨-, -, hsame | hnil⟩ | ⟨data, -, -, hle | hsame⟩ |
        ⟨data, -, hhanded, hpending, haccepted, -⟩
      · exact absurd (hsame ▸ hfull) hbefore
      · exact absurd (hnil ▸ hfull) (Nat.not_lt.mpr byteLength_nil_le)
      · exact absurd hfull (Nat.not_lt.mpr hle)
      · exact absurd (hsame ▸ hfull) hbefore
      · have hne : data ≠ [] := by
          rintro rfl
          rw [List.append_nil] at hpending
          exact hbefore (hpending ▸ hfull)
        have hpos := List.length_pos_iff.mpr hne
        have hle := h.accepted_le
        rw [Surplus, hhanded, hpending, haccepted]
        simp only [List.length_append] at hle ⊢
        omega

lemma complete_of_leads {allowed : TerminalInput → Event → Prop}
    (h : Transition.Leads TerminalInput.step allowed initial s) : Complete s :=
  h.invariant Complete complete_initial fun _ _ _ hcomplete _ hs => hcomplete.step hs

/-- A write that overflows the queue leaves a surplus. -/
lemma surplus_of_overflow {e : Event} (h : Complete s) (hover : ¬s.queueFits e)
    (hs : s.step e = some s') : s'.Surplus := by
  cases e with
  | write data =>
    refine (h.step hs).surplus ?_
    simp only [queueFits, Classical.not_imp, Nat.not_le] at hover
    obtain ⟨hlarge, hrunning, hwritable, hfull⟩ := hover
    simp only [TerminalInput.step, TerminalInput.write, if_neg (Nat.not_lt.mpr hlarge), hrunning,
      hwritable, if_pos hfull, Option.some_inj] at hs
    subst hs
    exact hfull
  | connect | accept _ | finish _ | close _ | leave _ => exact absurd trivial hover

/-- The queue and the order are kept in every run whose writes fit the queue, and no write of it that throws
changes the queue. -/
lemma inputKept_of_fits (h : Transition.Leads TerminalInput.step queueFits initial s) :
    InputKept s := by
  have hkept : Utf16.byteLength s.pendingInput ≤ maxTerminalInput ∧
      s.handed ++ s.pendingInput = s.accepted.flatten ∧ Linked s := by
    refine h.invariant (fun s => Utf16.byteLength s.pendingInput ≤ maxTerminalInput ∧
      s.handed ++ s.pendingInput = s.accepted.flatten ∧ Linked s)
      ⟨byteLength_nil_le, rfl, linked_initial⟩ ?_
    rintro t e t' ⟨hbounded, hordered, hlinked⟩ hfits hs
    refine ⟨?_, ?_, hlinked.step hs⟩
    · rcases step_moves hlinked hs with ⟨-, -, hsame | hnil⟩ | ⟨data, -, -, hle | hsame⟩ |
        ⟨data, hover, -⟩
      · rw [hsame]
        exact hbounded
      · rw [hnil]
        exact byteLength_nil_le
      · exact hle
      · rw [hsame]
        exact hbounded
      · exact absurd hfits hover
    · rcases step_moves hlinked hs with ⟨htotal, haccepted, -⟩ | ⟨data, htotal, haccepted, -⟩ |
        ⟨data, hover, -⟩
      · rw [htotal, haccepted, hordered]
      · rw [htotal, haccepted, hordered, List.flatten_append, List.flatten_singleton]
      · exact absurd hfits hover
  exact ⟨hkept.1, hkept.2.1, hkept.2.2.sole⟩

/-- The queue stays within its bound, a write that throws does not change it and the input is handed on as
it was accepted, in every run in which each write that has to wait fits the queue; after a write that does
not, the terminal is given input that was refused. -/
theorem inputKept_unless_overflow (s : TerminalInput) :
    (Transition.Leads step queueFits initial s → s.InputKept ∧
      ∀ data message, s.queueFits (.write data) → (s.write data).2 = some message →
        (s.write data).1.pendingInput = s.pendingInput) ∧
    ∀ e s' s'', Transition.Leads step Transition.anyStep initial s → ¬s.queueFits e →
      s.step e = some s' → Transition.Leads step Transition.anyStep s' s'' → ¬s''.InputKept := by
  constructor
  · intro h
    refine ⟨inputKept_of_fits h, fun data message hfits hthrown => ?_⟩
    rcases s.write_cases data with ⟨_, hwrite⟩ | ⟨-, hwrite⟩ | ⟨-, -, hwrite⟩ | ⟨hover, -⟩
    · rw [hwrite]
    · rw [hwrite] at hthrown
      cases hthrown
    · rw [hwrite] at hthrown
      cases hthrown
    · exact absurd hfits hover
  · intro e s' s'' h hover hs h' hkept
    have hcomplete := complete_of_leads h
    have hlost : s''.Surplus ∧ Linked s'' := by
      refine h'.invariant (fun s => s.Surplus ∧ Linked s)
        ⟨surplus_of_overflow hcomplete hover hs, hcomplete.linked.step hs⟩ ?_
      exact fun _ _ _ ⟨hsurplus, hlinked⟩ _ hs => ⟨hsurplus.step hlinked hs, hlinked.step hs⟩
    have hlength := hlost.1
    rw [Surplus, hkept.ordered] at hlength
    exact Nat.lt_irrefl _ hlength

/-- The terminal after a first write of `n` letters, which waits for the socket. -/
def filled (n : ℕ) : TerminalInput where
  state := .running
  pendingInput := List.replicate n 97
  socket := none
  connecting := true
  sockets := [.connecting]
  accepted := [List.replicate n 97]
  handed := []

lemma length_encode_replicate (n : ℕ) : (Utf8.encode (List.replicate n 'a')).length = n := by
  induction n with
  | zero => rfl
  | succ n ih =>
    rw [List.replicate_succ, Utf8.encode_cons, List.length_append, ih]
    exact Nat.add_comm _ _

lemma byteLength_replicate (n : ℕ) : Utf16.byteLength (List.replicate n 97) = n := by
  have htext : Utf16.toWellFormed (List.replicate n 97) = List.replicate n 'a' := by
    induction n with
    | zero => rfl
    | succ n ih =>
      rw [List.replicate_succ, Utf16.toWellFormed_plain (by decide), ih]
      rfl
  rw [Utf16.byteLength, htext, length_encode_replicate]

lemma step_fill {n : ℕ} (h : n ≤ maxTerminalInput) :
    initial.step (.write (List.replicate n 97)) = some (filled n) := by
  have hbounded : ¬maxTerminalInput < Utf16.byteLength (List.replicate n 97) := by
    rw [byteLength_replicate]
    exact Nat.not_lt.mpr h
  have hwrite : initial.write (List.replicate n 97) =
      ({ initial with pendingInput := List.replicate n 97 }.connectTerminal, none) := by
    rw [write, if_neg hbounded, if_neg (by decide : ¬initial.state ≠ .running),
      if_neg (by decide)]
    exact if_neg hbounded
  rw [step, hwrite]
  rfl

/-- A write can always be made. -/
lemma exists_step_write (s : TerminalInput) (data : JsText) : ∃ s', s.step (.write data) = some s' :=
  ⟨_, rfl⟩

/-- A letter does not fit a queue that is full to its bound. -/
lemma filled_overflows : ¬(filled maxTerminalInput).queueFits (.write [97]) := by
  intro hfits
  have hletter : Utf16.byteLength [97] ≤ maxTerminalInput := by decide
  have hle := hfits hletter rfl rfl
  have hlength : Utf16.byteLength ((filled maxTerminalInput).pendingInput ++ [97]) =
      maxTerminalInput + 1 := by
    rw [filled, ← List.replicate_succ', byteLength_replicate]
  omega

theorem inputKept_unless_overflow_filled :
    (filled 1).InputKept ∧ ∀ s', (filled maxTerminalInput).step (.write [97]) = some s' → ¬s'.InputKept := by
  constructor
  · refine ((inputKept_unless_overflow _).1 (Transition.Leads.single ?_ (step_fill (by decide : 1 ≤ _)))).1
    exact fun _ _ _ => by decide
  · intro s' hs
    exact (inputKept_unless_overflow _).2 _ _ _
      (Transition.Leads.single trivial (step_fill (Nat.le_refl _))) filled_overflows hs
      (Transition.Leads.refl _)

/-- A second write overflows the queue: it is refused and stays in the queue. -/
theorem not_inputKept : ¬∀ s, Transition.Leads step Transition.anyStep initial s → s.InputKept := by
  intro hall
  have hfilled : Transition.Leads step Transition.anyStep initial (filled maxTerminalInput) :=
    Transition.Leads.single trivial (step_fill (Nat.le_refl _))
  obtain ⟨s, hs⟩ := exists_step_write (filled maxTerminalInput) [97]
  have hsurplus := surplus_of_overflow (complete_of_leads hfilled) filled_overflows hs
  rw [Surplus, (hall s (hfilled.tail trivial hs)).ordered] at hsurplus
  exact Nat.lt_irrefl _ hsurplus

end TerminalInput

end Bloom
