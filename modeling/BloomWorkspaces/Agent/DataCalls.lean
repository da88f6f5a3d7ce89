import BloomWorkspaces.Agent.DataQuota
import BloomWorkspaces.Library.Transition

/-!
# Calls of the data files

`WorkspaceDataFiles` with `serialized`, its lock made of promises. The calls of one root take turns in the
order in which they were made, whatever they come to. What they report and leave behind is right as long as
each of them can tell what it does to the bytes in use.
-/

namespace Bloom

open DataFiles

inductive CallStatus
  | waiting
  | running (rest : DataRoutine DataReply)
  | settled (result : Except DataError DataReply)

namespace CallStatus

def isWaiting : CallStatus → Bool
  | waiting => true
  | _ => false

def isRunning : CallStatus → Bool
  | running _ => true
  | _ => false

def isSettled : CallStatus → Bool
  | settled _ => true
  | _ => false

/-- The reply of a call that is about to settle. -/
def reply : CallStatus → Option DataReply
  | running (.returns reply) => some reply
  | _ => none

lemma eq_of_reply {status : CallStatus} {a : DataReply} (h : status.reply = some a) :
    status = running (.returns a) := by
  unfold reply at h
  split at h
  · rw [Option.some.inj h]
  · cases h

end CallStatus

/-- A call of `serialized`. It waits for the promise `queued` of the call `previous`, if there is one, and
`resolved` says that its own `queued` has been resolved. -/
structure SerializedCall where
  root : String
  request : DataRequest
  previous : Option ℕ
  status : CallStatus
  resolved : Bool

/-- The data roots, the map `locks`, whose promises are named by their calls, the calls of `serialized` and
those that are rejected without it. -/
structure WorkspaceDataFiles where
  roots : String → DataRoot
  locks : String → Option ℕ
  calls : List SerializedCall
  refused : List (String × DataRequest)

namespace WorkspaceDataFiles

def initial (roots : String → DataRoot) : WorkspaceDataFiles := ⟨roots, fun _ => none, [], []⟩

inductive Event
  | call (root : String) (request : DataRequest)
  | begins (n : ℕ)
  | answers (n : ℕ) (answer : Answer)
  | settles (n : ℕ)
  | resolves (n : ℕ)
  deriving DecidableEq

/-- `write` looks at the size of the contents before it waits for its turn. -/
def isTooLarge : DataRequest → Bool
  | .write _ contents => maxFileTransferBytes < contents.length
  | .delete _ => false

/-- The promise `previous` has been resolved; without one it is `Promise.resolve()`. -/
def previousResolved (s : WorkspaceDataFiles) (c : SerializedCall) : Bool :=
  match c.previous with
  | none => true
  | some m => s.calls[m]?.any (·.resolved)

def setCall (s : WorkspaceDataFiles) (n : ℕ) (c : SerializedCall) : WorkspaceDataFiles :=
  { s with calls := s.calls.set n c }

/-- `serialized` up to its first `await`. -/
def enqueue (s : WorkspaceDataFiles) (root : String) (request : DataRequest) : WorkspaceDataFiles :=
  { s with
    locks := Function.update s.locks root (some s.calls.length)
    calls := s.calls ++ [⟨root, request, s.locks root, .waiting, false⟩] }

/-- The `finally` block of `serialized`. -/
def settle (s : WorkspaceDataFiles) (n : ℕ) (c : SerializedCall) (result : Except DataError DataReply) :
    WorkspaceDataFiles :=
  { s.setCall n { c with status := .settled result } with
    locks := if s.locks c.root = some n then Function.update s.locks c.root none else s.locks }

def step (quota : String → ℕ) (s : WorkspaceDataFiles) : Event → Option WorkspaceDataFiles
  | .call root request =>
    if isTooLarge request then some { s with refused := s.refused ++ [(root, request)] }
    else some (s.enqueue root request)
  | .begins n =>
    match s.calls[n]? with
    | none => none
    | some c =>
      if c.status.isWaiting && s.previousResolved c then
        some (s.setCall n { c with status := .running (c.request.routine (quota c.root)) })
      else none
  | .answers n answer =>
    match s.calls[n]? with
    | none => none
    | some c =>
      match c.status with
      | .running (.await effect next) =>
        some
          { s.setCall n { c with status := .running (next answer (s.roots c.root)) } with
            roots := Function.update s.roots c.root (effect answer (s.roots c.root)) }
      | _ => none
  | .settles n =>
    match s.calls[n]? with
    | none => none
    | some c =>
      match c.status with
      | .running (.returns reply) => some (s.settle n c (.ok reply))
      | .running (.throws e) => some (s.settle n c (.error e))
      | _ => none
  | .resolves n =>
    match s.calls[n]? with
    | none => none
    | some c =>
      if c.status.isSettled && !c.resolved && s.previousResolved c then
        some (s.setCall n { c with resolved := true })
      else none

variable {quota : String → ℕ} {s s' : WorkspaceDataFiles} {c c' : SerializedCall} {n m : ℕ} {root : String}

/-! ### Turns -/

/-- The calls of the root that were made before the call `n` have been settled. -/
def Before (s : WorkspaceDataFiles) (n : ℕ) (root : String) : Prop :=
  ∀ (k : ℕ) (c : SerializedCall), k < n → s.calls[k]? = some c → c.root = root → c.status.isSettled = true

/-- The promises of the calls of one root form a chain. -/
structure Chain (s : WorkspaceDataFiles) : Prop where
  previous : ∀ (n : ℕ) (c : SerializedCall) (m : ℕ), s.calls[n]? = some c → c.previous = some m →
    m < n ∧ (∃ d, s.calls[m]? = some d ∧ SerializedCall.root d = c.root) ∧
      ∀ (k : ℕ) (d : SerializedCall), m < k → k < n → s.calls[k]? = some d → d.root ≠ c.root
  first : ∀ (n : ℕ) (c : SerializedCall), s.calls[n]? = some c → c.previous = none → s.Before n c.root
  started : ∀ (n : ℕ) (c : SerializedCall), s.calls[n]? = some c → c.status.isWaiting = false →
    s.Before n c.root
  resolved : ∀ (n : ℕ) (c : SerializedCall), s.calls[n]? = some c → c.resolved = true →
    c.status.isSettled = true

/-- The call is the last one of the root, and has not been settled. -/
def Last (s : WorkspaceDataFiles) (root : String) (n : ℕ) : Prop :=
  ∃ c : SerializedCall, s.calls[n]? = some c ∧ c.root = root ∧ c.status.isSettled = false ∧
    ∀ (k : ℕ) (d : SerializedCall), n < k → s.calls[k]? = some d → d.root ≠ root

/-- The map holds the ends of the chains. -/
structure Queue (s : WorkspaceDataFiles) : Prop where
  chain : s.Chain
  locked : ∀ root n, s.locks root = some n → s.Last root n
  free : ∀ root, s.locks root = none →
    ∀ (k : ℕ) (c : SerializedCall), s.calls[k]? = some c → c.root = root → c.status.isSettled = true

lemma queue_initial (roots : String → DataRoot) : (initial roots).Queue where
  chain := {
    previous := fun n c m hc => by cases hc
    first := fun n c hc => by cases hc
    started := fun n c hc => by cases hc
    resolved := fun n c hc => by cases hc }
  locked root n hlock := by cases hlock
  free root _ k c hc := by cases hc

lemma getElem?_setCall {d : SerializedCall} {k : ℕ} (h : (s.setCall n c').calls[k]? = some d) :
    k = n ∧ d = c' ∨ k ≠ n ∧ s.calls[k]? = some d := by
  by_cases hk : n = k
  · subst hk
    left
    rw [setCall, List.getElem?_set_self'] at h
    obtain ⟨old, hold, rfl⟩ := Option.map_eq_some_iff.mp h
    exact ⟨rfl, rfl⟩
  · rw [setCall, List.getElem?_set_ne hk] at h
    exact .inr ⟨Ne.symm hk, h⟩

lemma setCall_self (hc : s.calls[n]? = some c) : (s.setCall n c').calls[n]? = some c' := by
  rw [setCall, List.getElem?_set_self (List.getElem?_eq_some_iff.mp hc).1]

/-- A call comes on: it keeps its place, and what has been settled stays so. -/
structure Advances (c c' : SerializedCall) : Prop where
  root : c'.root = c.root
  previous : c'.previous = c.previous
  settled : c.status.isSettled = true → c'.status.isSettled = true

lemma Before.setCall {k : ℕ} (h : s.Before k root) (hc : s.calls[n]? = some c) (hadv : Advances c c') :
    (s.setCall n c').Before k root := by
  intro j d hj hd hroot
  rcases getElem?_setCall hd with ⟨rfl, rfl⟩ | ⟨-, hold⟩
  · exact hadv.settled (h _ c hj hc (hadv.root.symm.trans hroot))
  · exact h j d hj hold hroot

lemma Chain.setCall (h : s.Chain) (hc : s.calls[n]? = some c) (hadv : Advances c c')
    (hstarted : c'.status.isWaiting = false → s.Before n c.root)
    (hresolved : c'.resolved = true → c'.status.isSettled = true) : (s.setCall n c').Chain := by
  refine ⟨fun k d m hd hm => ?_, fun k d hd hnone => ?_, fun k d hd hwaiting => ?_, fun k d hd hflag => ?_⟩
  · have hchain : m < k ∧ (∃ e : SerializedCall, s.calls[m]? = some e ∧ e.root = d.root) ∧
        ∀ (j : ℕ) (e : SerializedCall), m < j → j < k → s.calls[j]? = some e → e.root ≠ d.root := by
      rcases getElem?_setCall hd with ⟨rfl, rfl⟩ | ⟨-, hold⟩
      · rw [hadv.root]
        exact h.previous _ c m hc (hadv.previous.symm.trans hm)
      · exact h.previous k d m hold hm
    obtain ⟨hlt, ⟨e, he, heroot⟩, hbetween⟩ := hchain
    refine ⟨hlt, ?_, fun j e' hmj hjk he' => ?_⟩
    · by_cases hmn : m = n
      · subst hmn
        rw [hc] at he
        cases he
        exact ⟨c', setCall_self hc, hadv.root.trans heroot⟩
      · refine ⟨e, ?_, heroot⟩
        rw [WorkspaceDataFiles.setCall, List.getElem?_set_ne (Ne.symm hmn), he]
    · rcases getElem?_setCall he' with ⟨rfl, rfl⟩ | ⟨-, hold⟩
      · rw [hadv.root]
        exact hbetween _ c hmj hjk hc
      · exact hbetween j e' hmj hjk hold
  · rcases getElem?_setCall hd with ⟨rfl, rfl⟩ | ⟨-, hold⟩
    · rw [hadv.root]
      exact (h.first _ c hc (hadv.previous.symm.trans hnone)).setCall hc hadv
    · exact (h.first k d hold hnone).setCall hc hadv
  · rcases getElem?_setCall hd with ⟨rfl, rfl⟩ | ⟨-, hold⟩
    · rw [hadv.root]
      exact (hstarted hwaiting).setCall hc hadv
    · exact (h.started k d hold hwaiting).setCall hc hadv
  · rcases getElem?_setCall hd with ⟨rfl, rfl⟩ | ⟨-, hold⟩
    · exact hresolved hflag
    · exact h.resolved k d hold hflag

lemma Last.setCall {k : ℕ} (h : s.Last root k) (hc : s.calls[n]? = some c) (hadv : Advances c c')
    (hsettled : k = n → c'.status.isSettled = false) : (s.setCall n c').Last root k := by
  obtain ⟨d, hd, hroot, hunsettled, hlast⟩ := h
  have hlast' : ∀ (j : ℕ) (e : SerializedCall), k < j → (s.setCall n c').calls[j]? = some e →
      e.root ≠ root := by
    intro j e hj he
    rcases getElem?_setCall he with ⟨rfl, rfl⟩ | ⟨-, hold⟩
    · rw [hadv.root]
      exact hlast _ c hj hc
    · exact hlast j e hj hold
  by_cases hsame : k = n
  · have hnew := hsettled hsame
    subst hsame
    rw [hc] at hd
    cases hd
    exact ⟨c', setCall_self hc, hadv.root.trans hroot, hnew, hlast'⟩
  · refine ⟨d, ?_, hroot, hunsettled, hlast'⟩
    rw [WorkspaceDataFiles.setCall, List.getElem?_set_ne (Ne.symm hsame), hd]

/-- A step of a call that does not settle it leaves the map alone. -/
lemma Queue.setCall (h : s.Queue) (hc : s.calls[n]? = some c) (hadv : Advances c c')
    (hsettled : c'.status.isSettled = c.status.isSettled)
    (hstarted : c'.status.isWaiting = false → s.Before n c.root)
    (hresolved : c'.resolved = true → c'.status.isSettled = true) : (s.setCall n c').Queue := by
  refine ⟨h.chain.setCall hc hadv hstarted hresolved, fun root k hlock => ?_,
    fun root hnone k d hd hroot => ?_⟩
  · have hlast := h.locked root k hlock
    refine hlast.setCall hc hadv fun hsame => ?_
    subst hsame
    obtain ⟨d, hd, -, hunsettled, -⟩ := hlast
    rw [hc] at hd
    cases hd
    exact hsettled.trans hunsettled
  · rcases getElem?_setCall hd with ⟨rfl, rfl⟩ | ⟨-, hold⟩
    · exact hadv.settled (h.free root hnone _ c hc (hadv.root.symm.trans hroot))
    · exact h.free root hnone k d hold hroot

/-- A call that settles gives up the place in the map that it still has. -/
lemma Queue.settle (h : s.Queue) (hc : s.calls[n]? = some c) (hwaiting : c.status.isWaiting = false)
    (result : Except DataError DataReply) : (s.settle n c result).Queue := by
  have hadv : Advances c { c with status := .settled result } := ⟨rfl, rfl, fun _ => rfl⟩
  have hbefore := h.chain.started n c hc hwaiting
  have hchain := h.chain.setCall hc hadv (fun _ => hbefore) fun _ => rfl
  refine ⟨⟨hchain.previous, hchain.first, hchain.started, hchain.resolved⟩, fun root k hlock => ?_,
    fun root hnone k d hd hroot => ?_⟩
  · -- Whoever is still in the map is not the call that settles.
    have hkept : s.locks root = some k ∧ k ≠ n := by
      simp only [WorkspaceDataFiles.settle] at hlock
      have hroot : s.locks root = some n → root = c.root := by
        intro hown
        obtain ⟨d, hd, hdroot, -⟩ := h.locked root n hown
        rw [hc] at hd
        cases hd
        exact hdroot.symm
      split_ifs at hlock with hown
      · by_cases hsame : root = c.root
        · rw [hsame, Function.update_self] at hlock
          cases hlock
        · rw [Function.update_of_ne hsame] at hlock
          refine ⟨hlock, ?_⟩
          rintro rfl
          exact hsame (hroot hlock)
      · refine ⟨hlock, ?_⟩
        rintro rfl
        rw [hroot hlock] at hlock
        exact hown hlock
    exact (h.locked root k hkept.1).setCall hc hadv fun hsame => absurd hsame hkept.2
  · rcases getElem?_setCall hd with ⟨rfl, rfl⟩ | ⟨hne, hold⟩
    · rfl
    · by_cases hfree : s.locks root = none
      · exact h.free root hfree k d hold hroot
      · -- The map held the call that settles, the last one of its root.
        simp only [WorkspaceDataFiles.settle] at hnone
        have hown : s.locks c.root = some n ∧ root = c.root := by
          split_ifs at hnone with hown
          · refine ⟨hown, ?_⟩
            by_contra hsame
            rw [Function.update_of_ne hsame] at hnone
            exact hfree hnone
          · exact absurd hnone hfree
        obtain ⟨-, -, -, -, hlast⟩ := h.locked c.root n hown.1
        rcases Nat.lt_or_gt_of_ne hne with hlt | hgt
        · exact hbefore k d hlt hold (hroot.trans hown.2)
        · exact absurd (hroot.trans hown.2) (hlast k d hgt hold)

/-- The calls after a new one are the old ones and the new one. -/
lemma getElem?_enqueue {d : SerializedCall} {k : ℕ} {request : DataRequest}
    (h : (s.enqueue root request).calls[k]? = some d) :
    s.calls[k]? = some d ∨ k = s.calls.length ∧ d = ⟨root, request, s.locks root, .waiting, false⟩ :=
  Table.getElem?_concat_cases h

lemma enqueue_old {d : SerializedCall} {k : ℕ} {request : DataRequest} (h : s.calls[k]? = some d) :
    (s.enqueue root request).calls[k]? = some d := by
  rw [enqueue, List.getElem?_append_left (List.getElem?_eq_some_iff.mp h).1, h]

lemma Before.enqueue {k : ℕ} {root' : String} (h : s.Before k root') (hk : k ≤ s.calls.length)
    (request : DataRequest) : (s.enqueue root request).Before k root' := by
  intro j d hj hd hroot
  rcases getElem?_enqueue hd with hold | ⟨rfl, -⟩
  · exact h j d hj hold hroot
  · exact absurd hk (by omega)

lemma Queue.enqueue (h : s.Queue) (root : String) (request : DataRequest) :
    (s.enqueue root request).Queue := by
  have hlt : ∀ {k : ℕ} {d : SerializedCall}, s.calls[k]? = some d → k < s.calls.length := fun hd =>
    (List.getElem?_eq_some_iff.mp hd).1
  refine ⟨⟨fun k d m hd hm => ?_, fun k d hd hnone => ?_, fun k d hd hwaiting => ?_, fun k d hd hflag => ?_⟩,
    fun root' k hlock => ?_, fun root' hnone k d hd hroot => ?_⟩
  · rcases getElem?_enqueue hd with hd' | ⟨rfl, rfl⟩
    · obtain ⟨hmk, ⟨e, he, heroot⟩, hbetween⟩ := h.chain.previous k d m hd' hm
      refine ⟨hmk, ⟨e, enqueue_old he, heroot⟩, fun j e' hmj hjk he' => ?_⟩
      rcases getElem?_enqueue he' with he'' | ⟨rfl, -⟩
      · exact hbetween j e' hmj hjk he''
      · exact absurd (hlt hd') (by omega)
    · obtain ⟨e, he, heroot, -, hlast⟩ := h.locked root m hm
      refine ⟨hlt he, ⟨e, enqueue_old he, heroot⟩, fun j e' hmj hjk he' => ?_⟩
      rcases getElem?_enqueue he' with he'' | ⟨rfl, -⟩
      · exact hlast j e' hmj he''
      · exact absurd hjk (Nat.lt_irrefl _)
  · rcases getElem?_enqueue hd with hd' | ⟨rfl, rfl⟩
    · exact (h.chain.first k d hd' hnone).enqueue (hlt hd').le request
    · have hbefore : s.Before s.calls.length root := fun j e _ he heroot => h.free root hnone j e he heroot
      exact hbefore.enqueue (Nat.le_refl _) request
  · rcases getElem?_enqueue hd with hd' | ⟨rfl, rfl⟩
    · exact (h.chain.started k d hd' hwaiting).enqueue (hlt hd').le request
    · cases hwaiting
  · rcases getElem?_enqueue hd with hd' | ⟨rfl, rfl⟩
    · exact h.chain.resolved k d hd' hflag
    · cases hflag
  · have hkey : Function.update s.locks root (some s.calls.length) root' = some k := hlock
    by_cases hsame : root' = root
    · subst hsame
      rw [Function.update_self, Option.some_inj] at hkey
      subst hkey
      refine ⟨_, List.getElem?_concat_length, rfl, rfl, fun j e hj he => ?_⟩
      rcases getElem?_enqueue he with he' | ⟨rfl, -⟩
      · exact absurd (hlt he') (by omega)
      · exact absurd hj (Nat.lt_irrefl _)
    · rw [Function.update_of_ne hsame] at hkey
      obtain ⟨e, he, heroot, hunsettled, hlast⟩ := h.locked root' k hkey
      refine ⟨e, enqueue_old he, heroot, hunsettled, fun j e' hj he' => ?_⟩
      rcases getElem?_enqueue he' with he'' | ⟨-, rfl⟩
      · exact hlast j e' hj he''
      · exact Ne.symm hsame
  · have hkey : Function.update s.locks root (some s.calls.length) root' = none := hnone
    by_cases hsame : root' = root
    · subst hsame
      rw [Function.update_self] at hkey
      cases hkey
    · rw [Function.update_of_ne hsame] at hkey
      rcases getElem?_enqueue hd with hd' | ⟨-, rfl⟩
      · exact h.free root' hkey k d hd' hroot
      · exact absurd hroot.symm hsame

lemma Queue.of_eq (h : s.Queue) (hcalls : s'.calls = s.calls) (hlocks : s'.locks = s.locks) : s'.Queue := by
  obtain ⟨roots, locks, calls, refused⟩ := s
  obtain ⟨roots', locks', calls', refused'⟩ := s'
  cases hcalls
  cases hlocks
  exact ⟨⟨h.chain.previous, h.chain.first, h.chain.started, h.chain.resolved⟩, h.locked, h.free⟩

lemma isWaiting_eq_false_of_isSettled {status : CallStatus} (h : status.isSettled = true) :
    status.isWaiting = false := by
  cases status with
  | settled result => rfl
  | waiting => cases h
  | running rest => cases h

/-- The promise that a call waits for is resolved after the calls before it. -/
lemma Queue.before_of_previousResolved (h : s.Queue) (hc : s.calls[n]? = some c)
    (hprevious : s.previousResolved c = true) : s.Before n c.root := by
  cases hlink : c.previous with
  | none => exact h.chain.first n c hc hlink
  | some m =>
    obtain ⟨hlt, ⟨d, hd, hroot⟩, hbetween⟩ := h.chain.previous n c m hc hlink
    rw [previousResolved, hlink] at hprevious
    simp only [hd, Option.any_some] at hprevious
    have hsettled := h.chain.resolved m d hd hprevious
    have hbefore := h.chain.started m d hd (isWaiting_eq_false_of_isSettled hsettled)
    intro k e hk he heroot
    rcases Nat.lt_trichotomy k m with hkm | rfl | hmk
    · exact hbefore k e hkm he (heroot.trans hroot.symm)
    · rw [hd] at he
      cases he
      exact hsettled
    · exact absurd heroot (hbetween k e hmk hk he)

lemma Queue.step {e : Event} (h : s.Queue) (hs : s.step quota e = some s') : s'.Queue := by
  cases e with
  | call root request =>
    simp only [WorkspaceDataFiles.step] at hs
    split_ifs at hs
    · cases hs
      exact h.of_eq rfl rfl
    · cases hs
      exact h.enqueue root request
  | begins n =>
    simp only [WorkspaceDataFiles.step] at hs
    split at hs
    · cases hs
    · rename_i c hc
      split_ifs at hs with hready
      cases hs
      rw [Bool.and_eq_true] at hready
      have hunsettled : c.status.isSettled = false := by
        cases hstatus : c.status with
        | waiting => rfl
        | running rest => rfl
        | settled result => simp [hstatus, CallStatus.isWaiting] at hready
      refine h.setCall hc ⟨rfl, rfl, ?_⟩ ?_ (fun _ => h.before_of_previousResolved hc hready.2) ?_
      · rw [hunsettled]
        nofun
      · exact hunsettled.symm
      · intro hflag
        have hsettled := h.chain.resolved n c hc hflag
        rw [hunsettled] at hsettled
        cases hsettled
  | answers n answer =>
    simp only [WorkspaceDataFiles.step] at hs
    split at hs
    · cases hs
    · rename_i c hc
      split at hs
      · rename_i effect next hstatus
        cases hs
        have hunsettled : c.status.isSettled = false := by rw [hstatus]; rfl
        have hqueue : (s.setCall n { c with status := .running (next answer (s.roots c.root)) }).Queue := by
          refine h.setCall hc ⟨rfl, rfl, ?_⟩ hunsettled.symm ?_ ?_
          · rw [hunsettled]
            nofun
          · exact fun _ => h.chain.started n c hc (by rw [hstatus]; rfl)
          · intro hflag
            have hsettled := h.chain.resolved n c hc hflag
            rw [hunsettled] at hsettled
            cases hsettled
        exact hqueue.of_eq rfl rfl
      · cases hs
  | settles n =>
    simp only [WorkspaceDataFiles.step] at hs
    split at hs
    · cases hs
    · rename_i c hc
      split at hs
      · rename_i reply hstatus
        cases hs
        exact h.settle hc (by rw [hstatus]; rfl) _
      · rename_i e hstatus
        cases hs
        exact h.settle hc (by rw [hstatus]; rfl) _
      · cases hs
  | resolves n =>
    simp only [WorkspaceDataFiles.step] at hs
    split at hs
    · cases hs
    · rename_i c hc
      split_ifs at hs with hready
      cases hs
      rw [Bool.and_eq_true, Bool.and_eq_true] at hready
      have hsettled := hready.1.1
      refine h.setCall hc ⟨rfl, rfl, fun h => h⟩ rfl (fun hwaiting => h.chain.started n c hc hwaiting) ?_
      exact fun _ => hsettled

lemma queue_of_leads {allowed : WorkspaceDataFiles → Event → Prop} {roots : String → DataRoot}
    (h : Transition.Leads (step quota) allowed (initial roots) s) : s.Queue :=
  h.invariant Queue (queue_initial roots) fun _ _ _ hqueue _ hs => hqueue.step hs

/-- Of two calls of one root that have both begun, the earlier one has been settled. -/
lemma Queue.alone (h : s.Queue) (hc : s.calls[m]? = some c) (hc' : s.calls[n]? = some c')
    (hroot : c.root = c'.root) (hrunning : c.status.isRunning = true)
    (hrunning' : c'.status.isRunning = true) : m = n := by
  have hstarted : ∀ {status : CallStatus}, status.isRunning = true →
      status.isWaiting = false ∧ status.isSettled = false := by
    intro status hstatus
    cases status with
    | running rest => exact ⟨rfl, rfl⟩
    | waiting => cases hstatus
    | settled result => cases hstatus
  rcases Nat.lt_trichotomy m n with hlt | heq | hgt
  · have hsettled := h.chain.started n c' hc' (hstarted hrunning').1 m c hlt hc hroot
    rw [(hstarted hrunning).2] at hsettled
    cases hsettled
  · exact heq
  · have hsettled := h.chain.started m c hc (hstarted hrunning).1 n c' hgt hc' hroot.symm
    rw [(hstarted hrunning').2] at hsettled
    cases hsettled

/-! ### Waiting calls -/

/-- Promises of calls of the root before the call `n` are resolved. -/
def resolvesBefore (n : ℕ) (root : String) (s : WorkspaceDataFiles) (e : Event) : Prop :=
  ∃ m d, m < n ∧ e = .resolves m ∧ s.calls[m]? = some d ∧ SerializedCall.root d = root

/-- Nothing but promises has been resolved. -/
def OnlyResolves (s s' : WorkspaceDataFiles) : Prop :=
  ∀ (k : ℕ) (c : SerializedCall), s.calls[k]? = some c → ∃ c' : SerializedCall, s'.calls[k]? = some c' ∧
    c'.root = c.root ∧ c'.previous = c.previous ∧ c'.status = c.status

lemma OnlyResolves.trans {s'' : WorkspaceDataFiles} (h : s.OnlyResolves s') (h' : s'.OnlyResolves s'') :
    s.OnlyResolves s'' := by
  intro k c hc
  obtain ⟨d, hd, hroot, hprevious, hstatus⟩ := h k c hc
  obtain ⟨e, he, hroot', hprevious', hstatus'⟩ := h' k d hd
  exact ⟨e, he, hroot'.trans hroot, hprevious'.trans hprevious, hstatus'.trans hstatus⟩

lemma onlyResolves_setCall (hc : s.calls[n]? = some c) :
    s.OnlyResolves (s.setCall n { c with resolved := true }) := by
  intro k d hd
  by_cases hk : n = k
  · subst hk
    rw [hc] at hd
    cases hd
    exact ⟨_, setCall_self hc, rfl, rfl, rfl⟩
  · exact ⟨d, by rw [setCall, List.getElem?_set_ne hk, hd], rfl, rfl, rfl⟩

/-- The promise of a call whose turn is over is resolved after those before it. -/
lemma Queue.exists_resolved (h : s.Queue) (quota : String → ℕ) (hc : s.calls[m]? = some c)
    (hsettled : c.status.isSettled = true) (hlt : m < n) (hroot : c.root = root) :
    ∃ s', Transition.Leads (WorkspaceDataFiles.step quota) (resolvesBefore n root) s s' ∧
      s.OnlyResolves s' ∧ ∃ c', s'.calls[m]? = some c' ∧ SerializedCall.resolved c' = true := by
  induction m using Nat.strong_induction_on generalizing c with
  | _ m ih =>
    have hbefore := h.chain.started m c hc (isWaiting_eq_false_of_isSettled hsettled)
    -- The promise that this call has waited for is resolved first.
    obtain ⟨s₁, hlead, honly, hready⟩ : ∃ s₁,
        Transition.Leads (WorkspaceDataFiles.step quota) (resolvesBefore n root) s s₁ ∧
          s.OnlyResolves s₁ ∧
            ∀ c₁ : SerializedCall, c₁.previous = c.previous → s₁.previousResolved c₁ = true := by
      cases hprevious : c.previous with
      | none =>
        refine ⟨s, Transition.Leads.refl s, fun k d hd => ⟨d, hd, rfl, rfl, rfl⟩, fun c₁ h₁ => ?_⟩
        rw [previousResolved, h₁]
      | some k =>
        obtain ⟨hk, ⟨d, hd, hdroot⟩, -⟩ := h.chain.previous m c k hc hprevious
        obtain ⟨s₁, hlead, honly, d', hd', hresolved⟩ :=
          ih k hk hd (hbefore k d hk hd hdroot) (hk.trans hlt) (hdroot.trans hroot)
        refine ⟨s₁, hlead, honly, fun c₁ h₁ => ?_⟩
        rw [previousResolved, h₁]
        simp only [hd', Option.any_some, hresolved]
    obtain ⟨c₁, hc₁, hroot₁, hprevious₁, hstatus₁⟩ := honly m c hc
    by_cases hdone : c₁.resolved = true
    · exact ⟨s₁, hlead, honly, c₁, hc₁, hdone⟩
    · have hstep : s₁.step quota (.resolves m) = some (s₁.setCall m { c₁ with resolved := true }) := by
        simp only [WorkspaceDataFiles.step, hc₁]
        rw [if_pos]
        simp [hstatus₁, hsettled, hdone, hready c₁ hprevious₁]
      refine ⟨_, hlead.tail ⟨m, c₁, hlt, rfl, hc₁, hroot₁.trans hroot⟩ hstep,
        honly.trans (onlyResolves_setCall hc₁), _, setCall_self hc₁, rfl⟩

/-- A call begins once the calls of its root before it have been settled. -/
lemma Queue.exists_begins (h : s.Queue) (hc : s.calls[n]? = some c) (hwaiting : c.status.isWaiting = true)
    (hbefore : s.Before n c.root) :
    ∃ s', Transition.Leads (WorkspaceDataFiles.step quota) (resolvesBefore n c.root) s s' ∧
      (s'.step quota (.begins n)).isSome = true := by
  cases hprevious : c.previous with
  | none =>
    refine ⟨s, Transition.Leads.refl s, ?_⟩
    simp only [WorkspaceDataFiles.step, hc]
    rw [if_pos (by simp [hwaiting, previousResolved, hprevious])]
    rfl
  | some m =>
    obtain ⟨hlt, ⟨d, hd, hroot⟩, -⟩ := h.chain.previous n c m hc hprevious
    obtain ⟨s', hlead, honly, d', hd', hresolved⟩ :=
      h.exists_resolved quota hd (hbefore m d hlt hd hroot) hlt hroot
    obtain ⟨c', hc', -, hprevious', hstatus'⟩ := honly n c hc
    refine ⟨s', hlead, ?_⟩
    have hready : (c'.status.isWaiting && s'.previousResolved c') = true := by
      rw [previousResolved, hprevious', hprevious, hstatus', hwaiting]
      simp only [hd', Option.any_some, hresolved, Bool.and_self]
    simp only [WorkspaceDataFiles.step, hc']
    rw [if_pos hready]
    rfl

/-- The calls of each root take turns: one runs at a time, in the order in which they were made. A call waits
for those of its own root only, whatever they come to, and the map is empty when there is nothing to wait
for. -/
structure Serialized (quota : String → ℕ) (s : WorkspaceDataFiles) : Prop where
  alone : ∀ (m n : ℕ) (c c' : SerializedCall), s.calls[m]? = some c → s.calls[n]? = some c' →
    c.root = c'.root → c.status.isRunning = true → c'.status.isRunning = true → m = n
  ordered : ∀ (m n : ℕ) (c c' : SerializedCall), m < n → s.calls[m]? = some c → s.calls[n]? = some c' →
    c.root = c'.root → c'.status.isWaiting = false → c.status.isSettled = true
  unblocked : ∀ (n : ℕ) (c : SerializedCall), s.calls[n]? = some c → c.status.isWaiting = true →
    (∀ (k : ℕ) (d : SerializedCall), k < n → s.calls[k]? = some d → d.root = c.root →
      d.status.isSettled = true) →
    ∃ s', Transition.Leads (step quota) (resolvesBefore n c.root) s s' ∧
      (s'.step quota (.begins n)).isSome = true
  empty : (∀ c ∈ s.calls, (SerializedCall.status c).isSettled = true) → ∀ root, s.locks root = none

lemma Queue.serialized (h : s.Queue) (quota : String → ℕ) : Serialized quota s where
  alone _ _ _ _ hc hc' hroot := h.alone hc hc' hroot
  ordered m n c c' hlt hc hc' hroot hwaiting := h.chain.started n c' hc' hwaiting m c hlt hc hroot
  unblocked _ _ hc hwaiting hbefore := h.exists_begins hc hwaiting hbefore
  empty hall root := by
    cases hlock : s.locks root with
    | none => rfl
    | some n =>
      obtain ⟨c, hc, -, hunsettled, -⟩ := h.locked root n hlock
      rw [hall c (List.mem_of_getElem? hc)] at hunsettled
      cases hunsettled

/-! ### Quotas -/

/-- Every root is within its quota, and a call that is about to settle reports the bytes in use. -/
structure Accounted (quota : String → ℕ) (s : WorkspaceDataFiles) : Prop where
  within : ∀ root, (s.roots root).bytes ≤ quota root
  exact : ∀ (n : ℕ) (c : SerializedCall) (reply : DataReply), s.calls[n]? = some c →
    c.status = .running (.returns reply) →
      reply.quotaBytes = quota c.root ∧ reply.usedBytes = (s.roots c.root).bytes
  finished : ∀ (n : ℕ) (c : SerializedCall), s.calls[n]? = some c → c.status ≠ .settled (.error .unfinished)

/-- A call that begins can tell what it does to the bytes in use. -/
def reckons (s : WorkspaceDataFiles) : Event → Bool
  | .begins n => s.calls[n]?.all fun c => c.request.reckons (s.roots c.root)
  | _ => true

/-- The running calls do what they should, from here on. -/
structure Keeps (quota : String → ℕ) (s : WorkspaceDataFiles) : Prop where
  within : ∀ root, (s.roots root).bytes ≤ quota root
  running : ∀ (n : ℕ) (c : SerializedCall) (rest : DataRoutine DataReply), s.calls[n]? = some c →
    c.status = .running rest → rest.Ensures (fun r => r.bytes ≤ quota c.root) (Exact (quota c.root))
      (Within (quota c.root)) (s.roots c.root)
  finished : ∀ (n : ℕ) (c : SerializedCall), s.calls[n]? = some c → c.status ≠ .settled (.error .unfinished)

lemma Keeps.accounted (h : s.Keeps quota) : s.Accounted quota where
  within := h.within
  exact n c reply hc hstatus := by
    obtain ⟨hquota, hused, -⟩ := h.running n c _ hc hstatus
    exact ⟨hquota, hused⟩
  finished := h.finished

lemma keeps_initial {roots : String → DataRoot} (hroots : ∀ root, (roots root).bytes ≤ quota root) :
    (initial roots).Keeps quota where
  within := hroots
  running n c rest hc := by cases hc
  finished n c hc := by cases hc

/-- A call has moved, and no root with it. -/
lemma Keeps.setCall (h : s.Keeps quota) (hroot : c'.root = c.root)
    (hrunning : ∀ rest, c'.status = .running rest → rest.Ensures (fun r => r.bytes ≤ quota c.root)
      (Exact (quota c.root)) (Within (quota c.root)) (s.roots c.root))
    (hfinished : c'.status ≠ .settled (.error .unfinished)) : (s.setCall n c').Keeps quota where
  within := h.within
  running k d rest hd hstatus := by
    rcases getElem?_setCall hd with ⟨rfl, rfl⟩ | ⟨-, hold⟩
    · rw [hroot]
      exact hrunning rest hstatus
    · exact h.running k d rest hold hstatus
  finished k d hd := by
    rcases getElem?_setCall hd with ⟨rfl, rfl⟩ | ⟨-, hold⟩
    · exact hfinished
    · exact h.finished k d hold

lemma Keeps.of_eq (h : s.Keeps quota) (hcalls : s'.calls = s.calls) (hroots : s'.roots = s.roots) :
    s'.Keeps quota := by
  obtain ⟨roots, locks, calls, refused⟩ := s
  obtain ⟨roots', locks', calls', refused'⟩ := s'
  cases hcalls
  cases hroots
  exact ⟨h.within, h.running, h.finished⟩

/-- An awaited call of the file system is answered: only the root of this call changes, on which no other
call runs. -/
lemma Keeps.answer {effect : Answer → DataRoot → DataRoot}
    {next : Answer → DataRoot → DataRoutine DataReply}
    (h : s.Keeps quota) (hqueue : s.Queue) (hc : s.calls[n]? = some c)
    (hstatus : c.status = .running (.await effect next)) (answer : Answer) :
    WorkspaceDataFiles.Keeps quota
      { s.setCall n { c with status := .running (next answer (s.roots c.root)) } with
        roots := Function.update s.roots c.root (effect answer (s.roots c.root)) } := by
  obtain ⟨hwithin, hnext⟩ := h.running n c _ hc hstatus answer
  refine ⟨fun root => ?_, fun k d rest hd hrunning => ?_, fun k d hd => ?_⟩
  · by_cases hroot : root = c.root
    · subst hroot
      show (Function.update s.roots c.root _ c.root).bytes ≤ _
      rw [Function.update_self]
      exact hwithin
    · show (Function.update s.roots c.root _ root).bytes ≤ _
      rw [Function.update_of_ne hroot]
      exact h.within root
  · show rest.Ensures _ _ _ (Function.update s.roots c.root _ d.root)
    rcases getElem?_setCall hd with ⟨rfl, rfl⟩ | ⟨hne, hold⟩
    · simp only [CallStatus.running.injEq] at hrunning
      subst hrunning
      rw [Function.update_self]
      exact hnext
    · have hroot : d.root ≠ c.root := fun hsame =>
        hne (hqueue.alone hold hc hsame (by rw [hrunning]; rfl) (by rw [hstatus]; rfl))
      rw [Function.update_of_ne hroot]
      exact h.running k d rest hold hrunning
  · rcases getElem?_setCall hd with ⟨rfl, rfl⟩ | ⟨-, hold⟩
    · nofun
    · exact h.finished k d hold

lemma Keeps.step {e : Event} (h : s.Keeps quota) (hqueue : s.Queue) (hreckons : s.reckons e = true)
    (hs : s.step quota e = some s') : s'.Keeps quota := by
  cases e with
  | call root request =>
    simp only [WorkspaceDataFiles.step] at hs
    split_ifs at hs
    · cases hs
      exact h.of_eq rfl rfl
    · cases hs
      refine ⟨h.within, fun k d rest hd hstatus => ?_, fun k d hd => ?_⟩
      · rcases getElem?_enqueue hd with hold | ⟨-, rfl⟩
        · exact h.running k d rest hold hstatus
        · cases hstatus
      · rcases getElem?_enqueue hd with hold | ⟨-, rfl⟩
        · exact h.finished k d hold
        · nofun
  | begins n =>
    simp only [WorkspaceDataFiles.step] at hs
    split at hs
    · cases hs
    · rename_i c hc
      split_ifs at hs
      cases hs
      rw [reckons, hc, Option.all_some] at hreckons
      refine h.setCall rfl (fun rest hrest => ?_) nofun
      simp only [CallStatus.running.injEq] at hrest
      rw [← hrest]
      exact DataRequest.ensures (h.within c.root) hreckons
  | answers n answer =>
    simp only [WorkspaceDataFiles.step] at hs
    split at hs
    · cases hs
    · rename_i c hc
      split at hs
      · rename_i effect next hstatus
        cases hs
        exact h.answer hqueue hc hstatus answer
      · cases hs
  | settles n =>
    simp only [WorkspaceDataFiles.step] at hs
    split at hs
    · cases hs
    · rename_i c hc
      split at hs
      · cases hs
        refine (h.setCall rfl (fun rest hrest => ?_) fun hsettled => ?_).of_eq rfl rfl
        · cases hrest
        · cases hsettled
      · rename_i e hstatus
        cases hs
        have hfailed := (h.running n c _ hc hstatus).1
        refine (h.setCall rfl (fun rest hrest => by cases hrest) ?_).of_eq rfl rfl
        intro hsettled
        simp only [CallStatus.settled.injEq, Except.error.injEq] at hsettled
        exact hfailed hsettled
      · cases hs
  | resolves n =>
    simp only [WorkspaceDataFiles.step] at hs
    split at hs
    · cases hs
    · rename_i c hc
      split_ifs at hs
      cases hs
      exact h.setCall rfl (fun rest hrest => h.running n c rest hc hrest) (h.finished n c hc)

/-- Calls of one root take turns in every run. In a run in which each call can tell, when it begins, what it
does to the bytes in use, every root stays within its quota and every reply reports the bytes in use. -/
theorem serialized_and_accounted {roots : String → DataRoot}
    (hroots : ∀ root, (roots root).bytes ≤ quota root) :
    (∀ s, Transition.Leads (step quota) Transition.anyStep (initial roots) s → s.Serialized quota) ∧
      ∀ s, Transition.Leads (step quota) (fun s e => s.reckons e = true) (initial roots) s →
        s.Accounted quota := by
  constructor
  · intro s h
    exact (queue_of_leads h).serialized quota
  · intro s h
    have hboth : s.Queue ∧ s.Keeps quota := by
      refine h.invariant (fun s => s.Queue ∧ s.Keeps quota) ⟨queue_initial roots, keeps_initial hroots⟩ ?_
      rintro t e t' ⟨hqueue, hkeeps⟩ hreckons hs
      exact ⟨hqueue.step hs, hkeeps.step hqueue hreckons hs⟩
    exact hboth.2.accounted

/-! ### Runs on a small root -/

/-- A root with the file `a`, of one byte. -/
def oneFile : DataRoot where
  kind := .directory
  tree :=
    { entries := [⟨[], [97], 0, .file [1]⟩]
      slot := List.length
      room := fun _ _ => true
      nodup := by decide
      plain := by decide
      closed := by decide
      linked := by decide }

/-- Two overlapping writes, of which the first fails when a byte has been written, and meanwhile a delete in
another root. -/
def overlappingCalls : List Event :=
  [.call "root" (.write [98] [2, 3]), .call "root" (.write [97] [4, 5]), .begins 0,
    .call "other" (.delete [97]), .begins 2] ++ List.replicate 6 (.answers 0 .done) ++
  [.answers 2 .done, .answers 0 (.fails 1), .answers 0 .done, .settles 0, .resolves 0, .begins 1] ++
  List.replicate 9 (.answers 1 .done)

theorem serialized_and_accounted_overlapping :
    ∃ s, Transition.exec (Transition.guard (step fun _ => 3) reckons) (initial fun _ => oneFile)
        overlappingCalls = some s ∧
      s.calls.map (fun c => c.status.reply) = [none, some ⟨some 2, 3, 3⟩, none] ∧
      (s.roots "root").bytes = 3 ∧ s.Serialized (fun _ => 3) ∧ s.Accounted fun _ => 3 := by
  have hrun : (Transition.exec (Transition.guard (step fun _ => 3) reckons) (initial fun _ => oneFile)
      overlappingCalls).map (fun s => (s.calls.map fun c => c.status.reply, (s.roots "root").bytes)) =
        some ([none, some ⟨some 2, 3, 3⟩, none], 3) := by
    decide +kernel
  obtain ⟨s, hs, hend⟩ := Option.map_eq_some_iff.mp hrun
  have hroots : ∀ _ : String, oneFile.bytes ≤ 3 := fun _ => by decide +kernel
  have hleads := Transition.leads_of_exec_guard hs
  refine ⟨s, hs, (Prod.mk.inj hend).1, (Prod.mk.inj hend).2, ?_, ?_⟩
  · exact (serialized_and_accounted hroots).1 s (hleads.mono fun _ _ _ => trivial)
  · exact (serialized_and_accounted hroots).2 s hleads

/-- The same file with a second name `b`. -/
def linkedFile : DataRoot where
  kind := .directory
  tree :=
    { entries := [⟨[], [97], 0, .file [1]⟩, ⟨[], [98], 0, .file [1]⟩]
      slot := List.length
      room := fun _ _ => true
      nodup := by decide
      plain := by decide
      closed := by decide
      linked := by decide }

/-- Two bytes written to `a` are two bytes in use, but the old size counts for `b` in the reply. -/
theorem not_accounted :
    ¬∀ (quota : String → ℕ) (roots : String → DataRoot) (s : WorkspaceDataFiles),
      (∀ root, (roots root).bytes ≤ quota root) →
        Transition.Leads (step quota) Transition.anyStep (initial roots) s → s.Accounted quota := by
  intro hall
  have hrun : (Transition.exec (step fun _ => 3) (initial fun _ => linkedFile)
      ([.call "root" (.write [97] [1, 2]), .begins 0] ++ List.replicate 9 (.answers 0 .done))).map
        (fun s => (s.calls[0]?.map fun c => (c.root, c.status.reply), (s.roots "root").bytes)) =
          some (some ("root", some ⟨some 2, 3, 3⟩), 2) := by
    decide +kernel
  obtain ⟨s, hs, hend⟩ := Option.map_eq_some_iff.mp hrun
  obtain ⟨hcall, hbytes⟩ := Prod.mk.inj hend
  obtain ⟨c, hc, hreply⟩ := Option.map_eq_some_iff.mp hcall
  obtain ⟨hroot, hreply⟩ := Prod.mk.inj hreply
  have haccounted := hall (fun _ => 3) (fun _ => linkedFile) s (fun _ => by decide +kernel)
    (Transition.leads_of_exec hs)
  have hused := (haccounted.exact 0 c _ hc (CallStatus.eq_of_reply hreply)).2
  rw [hroot, hbytes] at hused
  exact absurd hused (by decide)

end WorkspaceDataFiles

end Bloom
