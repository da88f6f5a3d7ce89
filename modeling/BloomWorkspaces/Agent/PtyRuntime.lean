import BloomWorkspaces.Control.Workspaces.Basic
import Mathlib.Logic.Function.Basic

/-!
# The runtime of the node agent

`PtyRuntime` behind the HTTP routes of the agent. A `create` call is suspended twice: while
`command` prepares the virtual machine, and after the spawn while its guest is set up. `status` and
`stop` run to completion on arrival; SIGKILL ends a process at once.
-/

namespace Bloom

/-- `Instance["state"]`, a `RuntimeState` other than `missing`. -/
inductive InstanceState
  | running
  | stopped
  | failed
  deriving DecidableEq, Repr

def InstanceState.runtimeState : InstanceState → RuntimeState
  | running => .running
  | stopped => .stopped
  | failed => .failed

structure Instance where
  process : ℕ
  leaseExpiresAt : ℕ
  state : InstanceState
  deriving DecidableEq, Repr

inductive AgentReply
  | created (state : RuntimeState)
  | status (state : RuntimeState)
  | stopped
  | destroyed
  | failed (message : String)
  deriving DecidableEq, Repr

/-- `preparing` and `starting` hold the `create` calls before and after their spawn. `processes` lists
the processes that run on the node with their workspaces; `spawned` numbers them. A call is named
by the index of its request. -/
structure Node where
  instances : String → Option Instance
  preparing : List (ℕ × RuntimeSpec)
  starting : List (ℕ × RuntimeSpec)
  processes : List (ℕ × String)
  spawned : ℕ
  received : List ℕ
  replies : List (ℕ × AgentReply)

namespace Node

def initial : Node := ⟨fun _ => none, [], [], [], 0, [], []⟩

def reply (node : Node) (call : ℕ) (answer : AgentReply) : Node :=
  { node with replies := node.replies ++ [(call, answer)] }

def setInstance (node : Node) (id : String) (instance? : Option Instance) : Node :=
  { node with instances := Function.update node.instances id instance? }

def status (node : Node) (id : String) : RuntimeState :=
  match node.instances id with
  | some inst => inst.state.runtimeState
  | none => .missing

def stop (node : Node) (id : String) : Node :=
  match node.instances id with
  | some inst =>
    if inst.state = .running then
      { node.setInstance id (some { inst with state := .stopped }) with
        processes := node.processes.filter (·.1 ≠ inst.process) }
    else node
  | none => node

/-- `create` up to its preparation. An instance that exists is left alone. -/
def create (node : Node) (now call : ℕ) (spec : RuntimeSpec) : Node :=
  if spec.leaseExpiresAt ≤ now then node.reply call (.failed "Lease is already expired")
  else if (node.instances spec.id).isSome then { node with starting := node.starting ++ [(call, spec)] }
  else { node with preparing := node.preparing ++ [(call, spec)] }

/-- A request arrives. -/
def receive (node : Node) (now call : ℕ) (request : AgentRequest) : Node :=
  let received := { node with received := call :: node.received }
  match request with
  | .create spec => received.create now call spec
  | .status id => received.reply call (.status (received.status id))
  | .stop id => (received.stop id).reply call .stopped
  | .destroyVolume _ => received.reply call .destroyed

/-- The preparation is done: spawn the process and register the instance. -/
def spawn (node : Node) (call : ℕ) (spec : RuntimeSpec) : Node :=
  { node.setInstance spec.id (some ⟨node.spawned, spec.leaseExpiresAt, .running⟩) with
    preparing := node.preparing.filter (·.1 ≠ call)
    starting := node.starting ++ [(call, spec)]
    processes := (node.spawned, spec.id) :: node.processes
    spawned := node.spawned + 1 }

/-- The preparation or the spawn throws. -/
def prepareFailed (node : Node) (call : ℕ) (message : String) : Node :=
  { node with preparing := node.preparing.filter (·.1 ≠ call) }.reply call (.failed message)

/-- The guest is set up, and `create` answers. -/
def ready (node : Node) (call : ℕ) (spec : RuntimeSpec) : Node :=
  { node with starting := node.starting.filter (·.1 ≠ call) }.reply call
    (.created (node.status spec.id))

/-- The setup of the guest fails, and `create` stops what it has started. -/
def setupFailed (node : Node) (call : ℕ) (spec : RuntimeSpec) (message : String) : Node :=
  ({ node with starting := node.starting.filter (·.1 ≠ call) }.stop spec.id).reply call
    (.failed message)

/-- `onExit` of a process. -/
def exit (node : Node) (process : ℕ) (id : String) (success : Bool) : Node :=
  let ended := { node with processes := node.processes.filter (·.1 ≠ process) }
  match node.instances id with
  | some inst =>
    if inst.process = process ∧ inst.state = .running then
      ended.setInstance id (some { inst with state := if success then .stopped else .failed })
    else ended
  | none => ended

/-- One turn of `sweep`. -/
def sweep (node : Node) (now : ℕ) (id : String) : Node :=
  match node.instances id with
  | some inst => if inst.leaseExpiresAt ≤ now then node.stop id else node
  | none => node

/-- The timer of `forgetLater`, which is only set for an instance that no longer runs. -/
def forget (node : Node) (id : String) : Node :=
  match node.instances id with
  | some inst => if inst.state = .running then node else node.setInstance id none
  | none => node

/-! ### Steps that spawn nothing -/

/-- The call has not arrived, or it is being prepared. -/
def Pending (node : Node) (call : ℕ) : Prop :=
  call ∉ node.received ∨ call ∈ node.preparing.map (·.1)

/-- A process that runs is the process of the running instance of its workspace. -/
def Coherent (node : Node) : Prop :=
  ∀ p ∈ node.processes, ∃ inst, node.instances p.2 = some inst ∧ inst.process = p.1 ∧
    inst.state = .running

/-- From `node` to `node'` nothing was answered, spawned or prepared. -/
structure Frame (node node' : Node) : Prop where
  received : ∀ call ∈ node.received, call ∈ node'.received
  preparing : ∀ e ∈ node'.preparing, e ∈ node.preparing
  instances : ∀ id inst', node'.instances id = some inst' → ∃ inst, node.instances id = some inst
  processes : ∀ p ∈ node'.processes, p ∈ node.processes
  replies : node'.replies = node.replies
  coherent : node.Coherent → node'.Coherent

namespace Frame

variable {node node' node'' : Node}

lemma refl (node : Node) : Frame node node :=
  ⟨fun _ h => h, fun _ h => h, fun _ inst h => ⟨inst, h⟩, fun _ h => h, rfl, fun h => h⟩

lemma trans (h : Frame node node') (h' : Frame node' node'') : Frame node node'' where
  received := fun call hcall => h'.received call (h.received call hcall)
  preparing := fun e he => h.preparing e (h'.preparing e he)
  instances := by
    intro id inst hinst
    obtain ⟨inst', hinst'⟩ := h'.instances id inst hinst
    exact h.instances id inst' hinst'
  processes := fun p hp => h.processes p (h'.processes p hp)
  replies := h'.replies.trans h.replies
  coherent := fun hc => h'.coherent (h.coherent hc)

lemma pending (h : Frame node node') {call : ℕ} (hp : node'.Pending call) : node.Pending call := by
  rcases hp with hnew | hpreparing
  · exact .inl fun hold => hnew (h.received call hold)
  · obtain ⟨e, he, rfl⟩ := List.mem_map.mp hpreparing
    exact .inr (List.mem_map_of_mem (h.preparing e he))

end Frame

lemma frame_receive (node : Node) (call : ℕ) :
    Frame node { node with received := call :: node.received } :=
  ⟨fun _ h => List.mem_cons_of_mem _ h, fun _ h => h, fun _ inst h => ⟨inst, h⟩, fun _ h => h, rfl,
    fun h => h⟩

/-- A `create` call is no longer preparing. -/
lemma frame_prepared (node : Node) (call : ℕ) :
    Frame node { node with preparing := node.preparing.filter (·.1 ≠ call) } :=
  ⟨fun _ h => h, fun _ h => (List.mem_filter.mp h).1, fun _ inst h => ⟨inst, h⟩, fun _ h => h, rfl,
    fun h => h⟩

/-- The setup of a guest begins or ends. -/
lemma frame_starting (node : Node) (starting : List (ℕ × RuntimeSpec)) :
    Frame node { node with starting := starting } :=
  ⟨fun _ h => h, fun _ h => h, fun _ inst h => ⟨inst, h⟩, fun _ h => h, rfl, fun h => h⟩

lemma frame_stop (node : Node) (id : String) : Frame node (node.stop id) := by
  unfold stop
  split
  · rename_i inst hinst
    split
    · refine ⟨fun _ h => h, fun _ h => h, fun x inst' hx => ?_, fun p hp => ?_, rfl, fun hc p hp => ?_⟩
      · by_cases hxid : x = id
        · exact ⟨inst, hxid ▸ hinst⟩
        · exact ⟨inst', by simpa [setInstance, hxid] using hx⟩
      · exact (List.mem_filter.mp hp).1
      · obtain ⟨hmem, hne⟩ := List.mem_filter.mp hp
        obtain ⟨inst', hinst', hprocess, hrunning⟩ := hc p hmem
        have hother : p.2 ≠ id := by
          rintro rfl
          rw [hinst] at hinst'
          cases hinst'
          simp [hprocess] at hne
        exact ⟨inst', by simpa [setInstance, hother] using hinst', hprocess, hrunning⟩
    · exact .refl node
  · exact .refl node

lemma frame_exit (node : Node) (process : ℕ) (id : String) (success : Bool) :
    Frame node (node.exit process id success) := by
  have hended : Frame node { node with processes := node.processes.filter (·.1 ≠ process) } := by
    refine ⟨fun _ h => h, fun _ h => h, fun _ inst h => ⟨inst, h⟩, fun p hp => ?_, rfl,
      fun hc p hp => hc p ?_⟩
    · exact (List.mem_filter.mp hp).1
    · exact (List.mem_filter.mp hp).1
  simp only [exit]
  split
  · rename_i inst hinst
    split
    · rename_i hcurrent
      refine ⟨fun _ h => h, fun _ h => h, fun x inst' hx => ?_, hended.processes, rfl, fun hc p hp => ?_⟩
      · by_cases hxid : x = id
        · exact ⟨inst, hxid ▸ hinst⟩
        · exact ⟨inst', by simpa [setInstance, hxid] using hx⟩
      · obtain ⟨hmem, hne⟩ := List.mem_filter.mp hp
        obtain ⟨inst', hinst', hprocess, hrunning⟩ := hc p hmem
        have hother : p.2 ≠ id := by
          rintro rfl
          rw [hinst] at hinst'
          cases hinst'
          simp [← hprocess, hcurrent.1] at hne
        exact ⟨inst', by simpa [setInstance, hother] using hinst', hprocess, hrunning⟩
    · exact hended
  · exact hended

lemma frame_sweep (node : Node) (now : ℕ) (id : String) : Frame node (node.sweep now id) := by
  unfold sweep
  split
  · split
    · exact frame_stop node id
    · exact .refl node
  · exact .refl node

lemma frame_forget (node : Node) (id : String) : Frame node (node.forget id) := by
  unfold forget
  split
  · rename_i inst hinst
    split
    · exact .refl node
    · rename_i hended
      refine ⟨fun _ h => h, fun _ h => h, fun x inst' hx => ?_, fun _ h => h, rfl, fun hc p hp => ?_⟩
      · by_cases hxid : x = id
        · simp [setInstance, hxid] at hx
        · exact ⟨inst', by simpa [setInstance, hxid] using hx⟩
      · obtain ⟨inst', hinst', hprocess, hrunning⟩ := hc p hp
        have hother : p.2 ≠ id := by
          rintro rfl
          rw [hinst] at hinst'
          cases hinst'
          exact hended hrunning
        exact ⟨inst', by simpa [setInstance, hother] using hinst', hprocess, hrunning⟩
  · exact .refl node

/-- After `stop` no process of the workspace runs. -/
lemma stop_quiet {node : Node} (hc : node.Coherent) (id : String) :
    ∀ p ∈ (node.stop id).processes, p.2 ≠ id := by
  intro p hp hid
  obtain ⟨inst, hinst, hprocess, hrunning⟩ := hc p ((frame_stop node id).processes p hp)
  rw [hid] at hinst
  rw [stop, hinst] at hp
  simp only [hrunning, if_true] at hp
  have hne := (List.mem_filter.mp hp).2
  simp [hprocess] at hne

/-- Where `status` does not answer `running`, no process of the workspace runs. -/
lemma status_quiet {node : Node} (hc : node.Coherent) {id : String}
    (hstatus : node.status id ≠ .running) : ∀ p ∈ node.processes, p.2 ≠ id := by
  intro p hp hid
  obtain ⟨inst, hinst, -, hrunning⟩ := hc p hp
  rw [hid] at hinst
  rw [status, hinst] at hstatus
  simp [hrunning, InstanceState.runtimeState] at hstatus

/-- A spawn keeps the node coherent when no process of the workspace runs. -/
lemma coherent_spawn {node : Node} (hc : node.Coherent) {call : ℕ} {spec : RuntimeSpec}
    (hquiet : ∀ p ∈ node.processes, p.2 ≠ spec.id) : (node.spawn call spec).Coherent := by
  intro p hp
  rcases List.mem_cons.mp hp with rfl | hold
  · exact ⟨⟨node.spawned, spec.leaseExpiresAt, .running⟩, by simp [spawn, setInstance], rfl, rfl⟩
  · obtain ⟨inst, hinst, hprocess, hrunning⟩ := hc p hold
    exact ⟨inst, by simpa [spawn, setInstance, hquiet p hold] using hinst, hprocess, hrunning⟩

end Node

end Bloom
