import BloomWorkspaces.Agent.PtyRuntime
import BloomWorkspaces.Library.Ascii
import Mathlib.Data.Finset.Erase
import Mathlib.Data.Finset.Insert

/-!
# The uids of jailed Firecracker machines

`FirecrackerRuntime` behind the jailer. Each machine runs under a uid of its own, which the cleanup of
the machine gives back. The cleanup runs once for `stop` and once for the exit event, and each run
waits for the egress proxy to close before it deletes the uid.
-/

namespace Bloom

def isDash (c : Char) : Bool := c = '-'

/-- The classes of the characters of an id: a version 4 UUID. -/
def idPattern : List (Char → Bool) :=
  List.replicate 8 Ascii.isHexDigit ++ isDash :: List.replicate 4 Ascii.isHexDigit ++
    isDash :: (fun c => c = '4') :: List.replicate 3 Ascii.isHexDigit ++
    isDash :: (fun c => c ∈ ['8', '9', 'a', 'b', 'A', 'B']) :: List.replicate 3 Ascii.isHexDigit ++
    isDash :: List.replicate 12 Ascii.isHexDigit

/-- The regular expression `ID`. -/
def isWorkspaceId (id : String) : Bool :=
  id.toList.length = idPattern.length &&
    (List.zipWith (fun accepts c => accepts c) idPattern id.toList).all fun accepted => accepted

/-- Where the search for a free uid starts. -/
def firstUid (id : String) : ℕ :=
  30000 + Ascii.hexNumber (id.toList.take 8) % 20000

def nextUid (uid : ℕ) : ℕ := 30000 + (uid - 29999) % 20000

/-- `while (this.allocatedUids.has(uid)) uid = …`, for at most `fuel` turns. -/
def probe (allocated : Finset ℕ) : ℕ → ℕ → Option ℕ
  | 0, _ => none
  | fuel + 1, uid => if uid ∈ allocated then probe allocated fuel (nextUid uid) else some uid

/-- The uid that `prepareJailed` takes; without a free uid its loop does not end. -/
def takeUid (allocated : Finset ℕ) (id : String) : Option ℕ := probe allocated 20000 (firstUid id)

/-- One run of the cleanup. It is `closing` while it awaits the egress proxy, and `freed` covers the
removal of the directories, which touches no uid. -/
inductive Cleanup
  | idle
  | closing
  | freed
  | failed
  deriving DecidableEq, Repr

inductive CleanupRun
  | stop
  | exit
  deriving DecidableEq, Repr

/-- The process of a machine; `reported` once its exit event has been handled. -/
inductive MachineProcess
  | alive
  | ended
  | reported
  deriving DecidableEq, Repr

/-- An `Instance` with its process and the cleanups that `stop` and the exit event run. -/
structure Machine where
  uid : ℕ
  state : InstanceState
  process : MachineProcess
  stopCleanup : Cleanup
  exitCleanup : Cleanup
  idle_of_running : state = .running → stopCleanup = .idle ∧ exitCleanup = .idle
  idle_of_unreported : process ≠ .reported → exitCleanup = .idle
  deriving DecidableEq

/-- A call of `create` and how far it has come. -/
inductive Creation
  | checking (id : String)
  | preparing (id : String) (uid : ℕ)
  | failed (uid : Option ℕ)
  | spawned (id : String) (machine : Machine)
  deriving DecidableEq

namespace Machine

def start (uid : ℕ) (started : Bool) : Machine where
  uid := uid
  state := .running
  process := if started then .alive else .ended
  stopCleanup := .idle
  exitCleanup := .idle
  idle_of_running _ := ⟨rfl, rfl⟩
  idle_of_unreported _ := rfl

def processEnds (machine : Machine) (h : machine.process = .alive) : Machine :=
  { machine with
    process := .ended
    idle_of_unreported := fun _ => machine.idle_of_unreported (by rw [h]; decide) }

/-- The handler of the error event. -/
def fail (machine : Machine) : Machine :=
  { machine with
    state := .failed
    idle_of_running := fun h => by cases h }

def stop (machine : Machine) : Machine :=
  { machine with
    state := .stopped
    stopCleanup := .closing
    idle_of_running := fun h => by cases h }

/-- The handler of the exit event. -/
def exit (machine : Machine) (success : Bool) : Machine :=
  { machine with
    process := .reported
    state := if machine.state = .running then (if success then .stopped else .failed)
      else machine.state
    exitCleanup := .closing
    idle_of_running := by
      intro h
      split_ifs at h with hrunning
      exact absurd h hrunning
    idle_of_unreported := fun h => absurd rfl h }

def cleanup (machine : Machine) : CleanupRun → Cleanup
  | .stop => machine.stopCleanup
  | .exit => machine.exitCleanup

/-- A cleanup that was closing goes on to `phase`. -/
def setCleanup (machine : Machine) (run : CleanupRun) (phase : Cleanup)
    (h : machine.cleanup run = .closing) : Machine :=
  match run with
  | .stop =>
    { machine with
      stopCleanup := phase
      idle_of_running := fun hrunning => by
        have hidle := (machine.idle_of_running hrunning).1
        rw [cleanup, hidle] at h
        cases h }
  | .exit =>
    { machine with
      exitCleanup := phase
      idle_of_running := fun hrunning => by
        have hidle := (machine.idle_of_running hrunning).2
        rw [cleanup, hidle] at h
        cases h
      idle_of_unreported := fun hprocess => by
        have hidle := machine.idle_of_unreported hprocess
        rw [cleanup, hidle] at h
        cases h }

/-- A cleanup of the machine has deleted its uid. -/
def released (machine : Machine) : Bool :=
  machine.stopCleanup = .freed || machine.exitCleanup = .freed

/-- A cleanup of the machine can still delete its uid. -/
def outstanding (machine : Machine) : Bool :=
  machine.process ≠ .reported || machine.stopCleanup = .closing || machine.exitCleanup = .closing

end Machine

namespace Creation

/-- The uid that the call has been given. -/
def uid? : Creation → Option ℕ
  | checking _ => none
  | preparing _ uid => some uid
  | failed uid => uid
  | spawned _ machine => some machine.uid

def released : Creation → Bool
  | spawned _ machine => machine.released
  | checking _ | preparing _ _ | failed _ => false

def outstanding : Creation → Bool
  | spawned _ machine => machine.outstanding
  | checking _ | preparing _ _ | failed _ => false

/-- The machine is being prepared, or its process is alive. -/
def inUse : Creation → Bool
  | preparing _ _ => true
  | spawned _ machine => machine.process = .alive
  | checking _ | failed _ => false

end Creation

/-- `creations` are the calls of `create` in their order; a call is named by its position. -/
structure FirecrackerRuntime where
  creations : List Creation
  instances : String → Option ℕ
  allocatedUids : Finset ℕ

/-- `validateStorage` throws. -/
def refusesStorage (storage : RuntimeStorage) : Bool :=
  storage.mode = .persistent || storage.volumeId.isSome

namespace FirecrackerRuntime

def initial : FirecrackerRuntime := ⟨[], fun _ => none, ∅⟩

def setCreation (s : FirecrackerRuntime) (call : ℕ) (creation : Creation) : FirecrackerRuntime :=
  { s with creations := s.creations.set call creation }

/-- The turns of the event loop. `sweep`, `close` and a failed readiness check act through `stop`. -/
inductive Event
  | create (now : ℕ) (spec : RuntimeSpec)
  | allocate (call : ℕ)
  | prepareFailed (call : ℕ)
  | spawn (call : ℕ) (started : Bool)
  | processEnds (call : ℕ)
  | error (call : ℕ)
  | exit (call : ℕ) (success : Bool)
  | stop (id : String)
  | closed (call : ℕ) (run : CleanupRun)
  | closeFailed (call : ℕ) (run : CleanupRun)
  | forget (call : ℕ)
  deriving DecidableEq

def step (s : FirecrackerRuntime) : Event → Option FirecrackerRuntime
  | .create now spec =>
    if isWorkspaceId spec.id = false ∨ spec.leaseExpiresAt ≤ now ∨ (s.instances spec.id).isSome ∨
        refusesStorage spec.storage then some s
    else some { s with creations := s.creations ++ [.checking spec.id] }
  | .allocate call =>
    match s.creations[call]? with
    | some (.checking id) =>
      match takeUid s.allocatedUids id with
      | some uid => some { s.setCreation call (.preparing id uid) with
          allocatedUids := insert uid s.allocatedUids }
      | none => none
    | _ => none
  | .prepareFailed call =>
    -- the uid is not given back
    match s.creations[call]? with
    | some (.checking _) => some (s.setCreation call (.failed none))
    | some (.preparing _ uid) => some (s.setCreation call (.failed (some uid)))
    | _ => none
  | .spawn call started =>
    match s.creations[call]? with
    | some (.preparing id uid) => some { s.setCreation call (.spawned id (.start uid started)) with
        instances := Function.update s.instances id (some call) }
    | _ => none
  | .processEnds call =>
    match s.creations[call]? with
    | some (.spawned id machine) =>
      if h : machine.process = .alive then
        some (s.setCreation call (.spawned id (machine.processEnds h)))
      else none
    | _ => none
  | .error call =>
    match s.creations[call]? with
    | some (.spawned id machine) =>
      some (s.setCreation call (.spawned id machine.fail))
    | _ => none
  | .exit call success =>
    match s.creations[call]? with
    | some (.spawned id machine) =>
      if machine.process = .ended then
        some (s.setCreation call (.spawned id (machine.exit success)))
      else none
    | _ => none
  | .stop id =>
    -- SIGKILL is sent, and the process ends at some later time
    match (s.instances id).bind fun call => (s.creations[call]?).map fun creation => (call, creation) with
    | some (call, .spawned id machine) =>
      if machine.state = .running then some (s.setCreation call (.spawned id machine.stop))
      else some s
    | _ => some s
  | .closed call run =>
    match s.creations[call]? with
    | some (.spawned id machine) =>
      if h : machine.cleanup run = .closing then
        some { s.setCreation call (.spawned id (machine.setCleanup run .freed h)) with
          allocatedUids := s.allocatedUids.erase machine.uid }
      else none
    | _ => none
  | .closeFailed call run =>
    match s.creations[call]? with
    | some (.spawned id machine) =>
      if h : machine.cleanup run = .closing then
        some (s.setCreation call (.spawned id (machine.setCleanup run .failed h)))
      else none
    | _ => none
  | .forget call =>
    match s.creations[call]? with
    | some (.spawned id machine) =>
      if (machine.process = .reported ∨ machine.stopCleanup = .freed) ∧
          s.instances id = some call then
        some { s with instances := Function.update s.instances id none }
      else none
    | _ => none

/-- No two machines that are being prepared or alive have the same uid. -/
def Exclusive (s : FirecrackerRuntime) : Prop :=
  ∀ (c d : ℕ) (m n : Creation), s.creations[c]? = some m → s.creations[d]? = some n →
    m.inUse = true → n.inUse = true → m.uid? = n.uid? → c = d

/-- A cleanup that is done in `s` leaves the uids of the other machines allocated. -/
def CleanupsKeepOthers (s : FirecrackerRuntime) : Prop :=
  ∀ c run s', s.step (.closed c run) = some s' →
    ∀ (d : ℕ) (n : Creation) (uid : ℕ), s.creations[d]? = some n → d ≠ c → n.uid? = some uid → n.released = false →
      uid ∈ s'.allocatedUids

/-- `prepareJailed` does not take a uid that one cleanup of an earlier machine has given back while the
other cleanup of that machine is still to come. -/
def takesCleanUid (s : FirecrackerRuntime) : Event → Bool
  | .allocate call =>
    match s.creations[call]? with
    | some (.checking id) =>
      match takeUid s.allocatedUids id with
      | some uid => s.creations.all fun m =>
          !(m.uid? = some uid && m.released && m.outstanding)
      | none => true
    | _ => true
  | _ => true

/-! ### Taking a uid -/

lemma probe_not_mem {allocated : Finset ℕ} {fuel uid taken : ℕ}
    (h : probe allocated fuel uid = some taken) : taken ∉ allocated := by
  induction fuel generalizing uid with
  | zero => cases h
  | succ fuel ih =>
    simp only [probe] at h
    split_ifs at h with hmem
    · exact ih h
    · cases h
      exact hmem

/-- The search visits the uids of the range in turn. -/
lemma probe_none {allocated : Finset ℕ} {fuel start : ℕ}
    (h : probe allocated fuel (30000 + start % 20000) = none) :
    ∀ k < fuel, 30000 + (start + k) % 20000 ∈ allocated := by
  induction fuel generalizing start with
  | zero =>
    intro k hk
    cases hk
  | succ fuel ih =>
    simp only [probe] at h
    split_ifs at h with hmem
    intro k hk
    cases k with
    | zero => exact hmem
    | succ k =>
      have hnext : nextUid (30000 + start % 20000) = 30000 + (start + 1) % 20000 := by
        rw [nextUid]
        omega
      rw [hnext] at h
      have hin := ih h k (by omega)
      rw [show start + (k + 1) = start + 1 + k by omega]
      exact hin

/-- The search gives up only where the loop of the source never ends: no uid is free. -/
lemma takeUid_none {allocated : Finset ℕ} {id : String} (h : takeUid allocated id = none) :
    ∀ uid, 30000 ≤ uid → uid < 50000 → uid ∈ allocated := by
  intro uid hlow hhigh
  rw [takeUid, firstUid] at h
  generalize Ascii.hexNumber (id.toList.take 8) = start at h
  have hin := probe_none h ((uid - 30000 + 20000 - start % 20000) % 20000)
    (Nat.mod_lt _ (by decide))
  have huid : 30000 + (start + (uid - 30000 + 20000 - start % 20000) % 20000) % 20000 = uid := by
    omega
  rw [huid] at hin
  exact hin

end FirecrackerRuntime

/-! ### Machines that can still touch their uid -/

namespace Machine

variable {machine : Machine}

lemma released_of_running (h : machine.state = .running) : machine.released = false := by
  obtain ⟨hstop, hexit⟩ := machine.idle_of_running h
  simp [released, hstop, hexit]

lemma released_stop (h : machine.state = .running) : machine.stop.released = false := by
  obtain ⟨hstop, hexit⟩ := machine.idle_of_running h
  simp [released, stop, hexit]

lemma released_exit (h : machine.process = .ended) (success : Bool) :
    (machine.exit success).released = machine.released := by
  have hidle := machine.idle_of_unreported (by rw [h]; decide)
  rw [released, released, hidle]
  rfl

lemma outstanding_of_closing {run : CleanupRun} (h : machine.cleanup run = .closing) :
    machine.outstanding = true := by
  cases run with
  | stop =>
    have hclosing : machine.stopCleanup = .closing := h
    simp [outstanding, hclosing]
  | exit =>
    have hclosing : machine.exitCleanup = .closing := h
    simp [outstanding, hclosing]

lemma uid_setCleanup {run : CleanupRun} (phase : Cleanup) (h : machine.cleanup run = .closing) :
    (machine.setCleanup run phase h).uid = machine.uid := by
  cases run <;> rfl

lemma released_setCleanup_freed {run : CleanupRun} (h : machine.cleanup run = .closing) :
    (machine.setCleanup run .freed h).released = true := by
  cases run <;> simp [released, setCleanup]

lemma released_setCleanup_failed {run : CleanupRun} (h : machine.cleanup run = .closing) :
    (machine.setCleanup run .failed h).released = machine.released := by
  cases run with
  | stop =>
    have hclosing : machine.stopCleanup = .closing := h
    rw [released, released, hclosing]
    rfl
  | exit =>
    have hclosing : machine.exitCleanup = .closing := h
    rw [released, released, hclosing]
    rfl

end Machine

/-- The call has a uid that it has not given back, or that one of its cleanups can still delete. -/
def Creation.engaged (creation : Creation) : Bool := !creation.released || creation.outstanding

lemma Creation.engaged_of_inUse {creation : Creation} (h : creation.inUse = true) :
    creation.engaged = true := by
  cases creation with
  | checking id => cases h
  | preparing id uid => rfl
  | failed uid => cases h
  | spawned id machine =>
    have halive : machine.process = .alive := by simpa [inUse] using h
    simp [engaged, outstanding, Machine.outstanding, halive]

namespace FirecrackerRuntime

/-- What one turn of the event loop can do to the calls and the uids. -/
inductive Change (s : FirecrackerRuntime) (e : Event) : FirecrackerRuntime → Prop
  | none {s' : FirecrackerRuntime} (hcreations : s'.creations = s.creations)
      (huids : s'.allocatedUids = s.allocatedUids) : Change s e s'
  | added {s' : FirecrackerRuntime} {id : String}
      (hcreations : s'.creations = s.creations ++ [.checking id])
      (huids : s'.allocatedUids = s.allocatedUids) : Change s e s'
  | moved {s' : FirecrackerRuntime} {call : ℕ} {m m' : Creation}
      (hm : s.creations[call]? = some m) (hcreations : s'.creations = s.creations.set call m')
      (huids : s'.allocatedUids = s.allocatedUids) (huid : m'.uid? = m.uid?)
      (hreleased : m'.released = m.released)
      (hengaged : m'.engaged = true → m.engaged = true) : Change s e s'
  | taken {s' : FirecrackerRuntime} {call uid : ℕ} {id : String} (he : e = .allocate call)
      (hm : s.creations[call]? = some (.checking id)) (htake : takeUid s.allocatedUids id = some uid)
      (hcreations : s'.creations = s.creations.set call (.preparing id uid))
      (huids : s'.allocatedUids = insert uid s.allocatedUids) : Change s e s'
  | freed {s' : FirecrackerRuntime} {call uid : ℕ} {run : CleanupRun} {m m' : Creation}
      (he : e = .closed call run) (hm : s.creations[call]? = some m) (hcreations : s'.creations = s.creations.set call m')
      (huids : s'.allocatedUids = s.allocatedUids.erase uid) (hout : m.outstanding = true)
      (hold : m.uid? = some uid) (hnew : m'.uid? = some uid) (hreleased : m'.released = true) :
      Change s e s'

lemma step_change {s s' : FirecrackerRuntime} {e : Event} (hs : s.step e = some s') :
    Change s e s' := by
  cases e with
  | create now spec =>
    simp only [step] at hs
    split_ifs at hs with hrefused
    · cases hs
      exact .none rfl rfl
    · cases hs
      exact .added rfl rfl
  | allocate call =>
    simp only [step] at hs
    split at hs
    · rename_i id hm
      split at hs
      · rename_i uid htake
        cases hs
        exact .taken rfl hm htake rfl rfl
      · cases hs
    · cases hs
  | prepareFailed call =>
    simp only [step] at hs
    split at hs
    · rename_i id hm
      cases hs
      exact .moved hm rfl rfl rfl rfl fun _ => rfl
    · rename_i id uid hm
      cases hs
      exact .moved hm rfl rfl rfl rfl fun _ => rfl
    · cases hs
  | spawn call started =>
    simp only [step] at hs
    split at hs
    · rename_i id uid hm
      cases hs
      exact .moved hm rfl rfl rfl rfl fun _ => rfl
    · cases hs
  | processEnds call =>
    simp only [step] at hs
    split at hs
    · rename_i id machine hm
      split_ifs at hs with halive
      cases hs
      refine .moved hm rfl rfl rfl rfl fun _ => Creation.engaged_of_inUse ?_
      simpa [Creation.inUse] using halive
    · cases hs
  | error call =>
    simp only [step] at hs
    split at hs
    · rename_i id machine hm
      cases hs
      exact .moved hm rfl rfl rfl rfl fun h => h
    · cases hs
  | exit call success =>
    simp only [step] at hs
    split at hs
    · rename_i id machine hm
      split_ifs at hs with hended
      cases hs
      refine .moved hm rfl rfl rfl (Machine.released_exit hended success) fun _ => ?_
      simp [Creation.engaged, Creation.outstanding, Machine.outstanding, hended]
    · cases hs
  | stop id =>
    simp only [step] at hs
    split at hs
    · rename_i call id machine hcall
      split_ifs at hs with hrunning
      · cases hs
        obtain ⟨call', -, hm⟩ := Option.bind_eq_some_iff.mp hcall
        obtain ⟨creation, hcreation, hpair⟩ := Option.map_eq_some_iff.mp hm
        cases hpair
        refine .moved hcreation rfl rfl rfl ?_ fun _ => ?_
        · exact (Machine.released_stop hrunning).trans (Machine.released_of_running hrunning).symm
        · simp [Creation.engaged, Creation.released, Machine.released_of_running hrunning]
      · cases hs
        exact .none rfl rfl
    · cases hs
      exact .none rfl rfl
  | closed call run =>
    simp only [step] at hs
    split at hs
    · rename_i id machine hm
      split_ifs at hs with hclosing
      cases hs
      refine .freed rfl hm rfl rfl (Machine.outstanding_of_closing hclosing) rfl ?_
        (Machine.released_setCleanup_freed hclosing)
      exact congrArg some (Machine.uid_setCleanup .freed hclosing)
    · cases hs
  | closeFailed call run =>
    simp only [step] at hs
    split at hs
    · rename_i id machine hm
      split_ifs at hs with hclosing
      cases hs
      refine .moved hm rfl rfl ?_ (Machine.released_setCleanup_failed hclosing) fun _ => ?_
      · exact congrArg some (Machine.uid_setCleanup .failed hclosing)
      · have hout := Machine.outstanding_of_closing hclosing
        simp [Creation.engaged, Creation.outstanding, hout]
    · cases hs
  | forget call =>
    simp only [step] at hs
    split at hs
    · split_ifs at hs with hdone
      cases hs
      exact .none rfl rfl
    · cases hs

/-! ### Every uid has one owner -/

lemma getElem?_set_cases {l : List Creation} {call c : ℕ} {m' n : Creation}
    (h : (l.set call m')[c]? = some n) : (c = call ∧ n = m') ∨ (c ≠ call ∧ l[c]? = some n) := by
  by_cases hc : call = c
  · subst hc
    rw [List.getElem?_set_self'] at h
    cases hold : l[call]? with
    | none =>
      rw [hold] at h
      cases h
    | some m =>
      rw [hold] at h
      cases h
      exact Or.inl ⟨rfl, rfl⟩
  · rw [List.getElem?_set_ne hc] at h
    exact Or.inr ⟨Ne.symm hc, h⟩

/-- A uid that has not been given back is allocated, and no two calls are engaged with one uid. -/
structure Owned (s : FirecrackerRuntime) : Prop where
  held : ∀ (c : ℕ) (m : Creation) (uid : ℕ), s.creations[c]? = some m → m.uid? = some uid →
    m.released = false → uid ∈ s.allocatedUids
  exclusive : ∀ (c d : ℕ) (m n : Creation) (uid : ℕ), s.creations[c]? = some m →
    s.creations[d]? = some n → m.engaged = true → n.engaged = true → m.uid? = some uid →
    n.uid? = some uid → c = d

section Owned

variable {s s' : FirecrackerRuntime} {call uid : ℕ} {m m' : Creation}

/-- A call that keeps its uid and does not engage with it anew. -/
lemma Owned.set (h : Owned s) (hm : s.creations[call]? = some m)
    (hcreations : s'.creations = s.creations.set call m')
    (hheld : ∀ (c : ℕ) (n : Creation) (uid : ℕ), s'.creations[c]? = some n → n.uid? = some uid →
      n.released = false → uid ∈ s'.allocatedUids)
    (huid : m'.uid? = m.uid?) (hengaged : m'.engaged = true → m.engaged = true) : Owned s' := by
  have hbefore : ∀ (c : ℕ) (n : Creation), s'.creations[c]? = some n → n.engaged = true →
      ∃ n', s.creations[c]? = some n' ∧ n'.engaged = true ∧ n'.uid? = n.uid? := by
    intro c n hn hneng
    rw [hcreations] at hn
    rcases getElem?_set_cases hn with ⟨rfl, rfl⟩ | ⟨-, hn⟩
    · exact ⟨m, hm, hengaged hneng, huid.symm⟩
    · exact ⟨n, hn, hneng, rfl⟩
  refine ⟨hheld, fun c d n n' uid hn hn' heng heng' hu hu' => ?_⟩
  obtain ⟨k, hk, hkeng, hkuid⟩ := hbefore c n hn heng
  obtain ⟨k', hk', hkeng', hkuid'⟩ := hbefore d n' hn' heng'
  exact h.exclusive c d k k' uid hk hk' hkeng hkeng' (hkuid.trans hu) (hkuid'.trans hu')

lemma Owned.moved (h : Owned s) (hm : s.creations[call]? = some m)
    (hcreations : s'.creations = s.creations.set call m')
    (huids : s'.allocatedUids = s.allocatedUids) (huid : m'.uid? = m.uid?)
    (hreleased : m'.released = m.released)
    (hengaged : m'.engaged = true → m.engaged = true) : Owned s' := by
  refine h.set hm hcreations (fun c n uid hn hu hrel => ?_) huid hengaged
  rw [huids]
  rw [hcreations] at hn
  rcases getElem?_set_cases hn with ⟨rfl, rfl⟩ | ⟨-, hn⟩
  · exact h.held c m uid hm (huid ▸ hu) (hreleased ▸ hrel)
  · exact h.held c n uid hn hu hrel

/-- A cleanup deletes a uid that no other call is engaged with. -/
lemma Owned.keeps (h : Owned s) (hm : s.creations[call]? = some m) (hout : m.outstanding = true)
    (hold : m.uid? = some uid) {c : ℕ} {n : Creation} {uid' : ℕ}
    (hn : s.creations[c]? = some n) (hc : c ≠ call) (hu : n.uid? = some uid')
    (hrel : n.released = false) : uid' ∈ s.allocatedUids.erase uid := by
  refine Finset.mem_erase.mpr ⟨?_, h.held c n uid' hn hu hrel⟩
  rintro rfl
  refine hc (h.exclusive c call n m uid' hn hm ?_ ?_ hu hold)
  · simp [Creation.engaged, hrel]
  · simp [Creation.engaged, hout]

lemma Owned.freed (h : Owned s) (hm : s.creations[call]? = some m)
    (hcreations : s'.creations = s.creations.set call m')
    (huids : s'.allocatedUids = s.allocatedUids.erase uid) (hout : m.outstanding = true)
    (hold : m.uid? = some uid) (hnew : m'.uid? = some uid) (hreleased : m'.released = true) :
    Owned s' := by
  refine h.set hm hcreations (fun c n uid' hn hu hrel => ?_) (hnew.trans hold.symm) fun _ => ?_
  · rw [huids]
    rw [hcreations] at hn
    rcases getElem?_set_cases hn with ⟨rfl, rfl⟩ | ⟨hc, hn⟩
    · rw [hreleased] at hrel
      cases hrel
    · exact h.keeps hm hout hold hn hc hu hrel
  · simp [Creation.engaged, hout]

/-- A uid is taken that is free and that no cleanup to come can delete. -/
lemma Owned.taken {id : String} (h : Owned s) (hm : s.creations[call]? = some (.checking id))
    (hfree : uid ∉ s.allocatedUids)
    (hclean : ∀ n ∈ s.creations, n.uid? = some uid → n.released = true → n.outstanding = false)
    (hcreations : s'.creations = s.creations.set call (.preparing id uid))
    (huids : s'.allocatedUids = insert uid s.allocatedUids) : Owned s' := by
  have hidle : ∀ (c : ℕ) (n : Creation), s.creations[c]? = some n → n.engaged = true →
      n.uid? ≠ some uid := by
    intro c n hn heng hu
    cases hrel : n.released with
    | false => exact hfree (h.held c n uid hn hu hrel)
    | true =>
      have hout := hclean n (List.mem_of_getElem? hn) hu hrel
      simp [Creation.engaged, hrel, hout] at heng
  constructor
  · intro c n uid' hn hu hrel
    rw [huids]
    rw [hcreations] at hn
    rcases getElem?_set_cases hn with ⟨rfl, rfl⟩ | ⟨-, hn⟩
    · cases hu
      exact Finset.mem_insert_self _ _
    · exact Finset.mem_insert_of_mem (h.held c n uid' hn hu hrel)
  · intro c d n n' uid' hn hn' heng heng' hu hu'
    rw [hcreations] at hn hn'
    rcases getElem?_set_cases hn with ⟨rfl, rfl⟩ | ⟨-, hk⟩
    · cases hu
      rcases getElem?_set_cases hn' with ⟨rfl, rfl⟩ | ⟨-, hk'⟩
      · rfl
      · exact absurd hu' (hidle d n' hk' heng')
    · rcases getElem?_set_cases hn' with ⟨rfl, rfl⟩ | ⟨-, hk'⟩
      · cases hu'
        exact absurd hu (hidle c n hk heng)
      · exact h.exclusive c d n n' uid' hk hk' heng heng' hu hu'

/-- A call that has just started has no uid. -/
lemma Owned.added {id : String} (h : Owned s)
    (hcreations : s'.creations = s.creations ++ [.checking id])
    (huids : s'.allocatedUids = s.allocatedUids) : Owned s' := by
  have hbefore : ∀ (c : ℕ) (n : Creation) (uid : ℕ), s'.creations[c]? = some n →
      n.uid? = some uid → s.creations[c]? = some n := by
    intro c n uid hn hu
    rw [hcreations, List.getElem?_append] at hn
    split_ifs at hn with hc
    · exact hn
    · have hmem := List.mem_of_getElem? hn
      rw [List.mem_singleton] at hmem
      rw [hmem] at hu
      cases hu
  refine ⟨fun c n uid hn hu hrel => ?_, fun c d n n' uid hn hn' heng heng' hu hu' => ?_⟩
  · rw [huids]
    exact h.held c n uid (hbefore c n uid hn hu) hu hrel
  · exact h.exclusive c d n n' uid (hbefore c n uid hn hu) (hbefore d n' uid hn' hu') heng heng' hu hu'

lemma takesCleanUid_allocate {id : String} (h : s.takesCleanUid (.allocate call) = true)
    (hm : s.creations[call]? = some (.checking id)) (htake : takeUid s.allocatedUids id = some uid) :
    ∀ n ∈ s.creations, n.uid? = some uid → n.released = true → n.outstanding = false := by
  intro n hn hu hrel
  simp only [takesCleanUid, hm, htake, List.all_eq_true] at h
  have hn' := h n hn
  simpa [hu, hrel] using hn'

theorem Owned.step {e : Event} (h : Owned s) (hclean : s.takesCleanUid e = true)
    (hs : s.step e = some s') : Owned s' := by
  cases step_change hs with
  | none hcreations huids =>
    refine ⟨fun c m uid hm hu hrel => ?_, fun c d m n uid hm hn => ?_⟩
    · rw [huids]
      exact h.held c m uid (hcreations ▸ hm) hu hrel
    · exact h.exclusive c d m n uid (hcreations ▸ hm) (hcreations ▸ hn)
  | added hcreations huids => exact h.added hcreations huids
  | moved hm hcreations huids huid hreleased hengaged =>
    exact h.moved hm hcreations huids huid hreleased hengaged
  | taken he hm htake hcreations huids =>
    subst he
    exact h.taken hm (probe_not_mem htake) (takesCleanUid_allocate hclean hm htake) hcreations huids
  | freed he hm hcreations huids hout hold hnew hreleased =>
    exact h.freed hm hcreations huids hout hold hnew hreleased

lemma owned_initial : Owned initial := by
  refine ⟨fun c m uid hm => ?_, fun c d m n uid hm => ?_⟩ <;> cases hm

lemma Owned.exclusiveUids (h : Owned s) : s.Exclusive := by
  intro c d m n hm hn huse huse' hu
  cases hold : m.uid? with
  | none =>
    cases m with
    | preparing id uid => cases hold
    | spawned id machine => cases hold
    | checking id | failed uid => cases huse
  | some uid =>
    exact h.exclusive c d m n uid hm hn (Creation.engaged_of_inUse huse)
      (Creation.engaged_of_inUse huse') hold (hu ▸ hold)

lemma Owned.cleanupsKeepOthers (h : Owned s) : s.CleanupsKeepOthers := by
  intro c run s' hs d n uid hn hd hu hrel
  have hheld := h.held d n uid hn hu hrel
  cases step_change hs with
  | none _ huids => exact huids ▸ hheld
  | added _ huids => exact huids ▸ hheld
  | moved _ _ huids => exact huids ▸ hheld
  | taken he => cases he
  | freed he hm _ huids hout hold =>
    cases he
    rw [huids]
    exact h.keeps hm hout hold hn hd hu hrel

end Owned

/-- In every run in which no create takes a uid with a cleanup still to come, the machines that are
being prepared or alive have different uids, and no cleanup frees the uid of another machine. -/
theorem uids_exclusive {s : FirecrackerRuntime}
    (h : Transition.Leads step (fun s e => s.takesCleanUid e = true) initial s) :
    s.Exclusive ∧ s.CleanupsKeepOthers := by
  have howned : Owned s := Transition.Leads.invariant Owned h owned_initial
    fun _ _ _ hinv hclean hs => hinv.step hclean hs
  exact ⟨howned.exclusiveUids, howned.cleanupsKeepOthers⟩

/-- A disposable workspace whose lease ends at 1. -/
def disposableSpec (id : String) : RuntimeSpec := ⟨id, 1, "0xab", ⟨.disposable, none, 1⟩⟩

/-- The uid of a stopped machine is taken again after both its cleanups. -/
theorem uids_exclusive_after_cleanups :
    ∃ s : FirecrackerRuntime, s.creations[1]? =
        some (.preparing "00000000-0000-4000-8000-000000000002" 30000) ∧
      s.Exclusive ∧ s.CleanupsKeepOthers := by
  have hrun : ∃ s, Transition.exec (Transition.guard step takesCleanUid) initial
      [.create 0 (disposableSpec "00000000-0000-4000-8000-000000000001"), .allocate 0,
        .spawn 0 true, .stop "00000000-0000-4000-8000-000000000001", .processEnds 0, .exit 0 false,
        .closed 0 .exit, .closed 0 .stop,
        .create 0 (disposableSpec "00000000-0000-4000-8000-000000000002"), .allocate 1] = some s ∧
      s.creations[1]? = some (.preparing "00000000-0000-4000-8000-000000000002" 30000) :=
    ⟨_, rfl, by decide⟩
  obtain ⟨s, hs, hpreparing⟩ := hrun
  exact ⟨s, hpreparing, uids_exclusive (Transition.leads_of_exec_guard hs)⟩

/-- The second cleanup of the first machine frees the uid of the second, and a third gets it too. -/
theorem not_exclusive_between_cleanups :
    ¬∀ s, Transition.Leads step Transition.anyStep initial s →
      s.Exclusive ∧ s.CleanupsKeepOthers := by
  intro h
  have hrun : ∃ s, Transition.exec step initial
      [.create 0 (disposableSpec "00000000-0000-4000-8000-000000000001"), .allocate 0,
        .spawn 0 true, .stop "00000000-0000-4000-8000-000000000001", .processEnds 0, .exit 0 false,
        .closed 0 .exit, .create 0 (disposableSpec "00000000-0000-4000-8000-000000000002"),
        .allocate 1, .closed 0 .stop,
        .create 0 (disposableSpec "00000000-0000-4000-8000-000000000003"), .allocate 2] = some s ∧
      s.creations[1]? = some (.preparing "00000000-0000-4000-8000-000000000002" 30000) ∧
      s.creations[2]? = some (.preparing "00000000-0000-4000-8000-000000000003" 30000) :=
    ⟨_, rfl, by decide, by decide⟩
  obtain ⟨s, hs, hsecond, hthird⟩ := hrun
  have hsame := (h s (Transition.leads_of_exec hs)).1 1 2 _ _ hsecond hthird rfl rfl rfl
  cases hsame

end FirecrackerRuntime

end Bloom
