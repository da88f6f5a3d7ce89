import BloomWorkspaces.Agent.FirecrackerRuntime
import BloomWorkspaces.Agent.GuestWorkspace
import BloomWorkspaces.Library.Table
import BloomWorkspaces.Library.Transition

/-!
# The sessions of the virtual machines

`QemuRuntime`, on top of `PtyRuntime`, and `FirecrackerRuntime` keep the same table of sessions: `create`
looks for an instance of the id, prepares the machine over several awaits, spawns it and only then
enters it in the table. A call that is prepared when another one has entered the id drops the session of
that one from the table, and nothing can stop its process any more.
-/

namespace Bloom

/-! ### Calls and sessions -/

/-- The runtime class of the node. -/
inductive VmKind
  | qemu
  | firecracker (jailed : Bool)
  deriving DecidableEq, Repr

/-- `volumeDirectory`; `VOLUME_ID` is the same expression as `ID`. -/
def volumeDirectory (dataDir volumeId : String) : Except RuntimeDataError String :=
  if isWorkspaceId volumeId then .ok (dataDir ++ "/volumes/" ++ volumeId)
  else .error ⟨"Invalid volume id", 400⟩

def validateStorage (kind : VmKind) (dataDir : String) (storage : RuntimeStorage) :
    Except RuntimeDataError Unit :=
  match storage.mode, storage.volumeId with
  | .persistent, volumeId => do
    let _ ← volumeDirectory dataDir (volumeId.getD "")
    if kind = .firecracker true then
      throw ⟨"Persistent data disks are unsupported with the Firecracker jailer", 501⟩
  | .disposable, some _ => throw ⟨"Disposable storage cannot name a persistent volume", 400⟩
  | .disposable, none => pure ()

/-- A process that was spawned, with its `Instance`. -/
structure VmInstance where
  id : String
  leaseExpiresAt : ℕ
  storage : RuntimeStorage
  state : InstanceState
  alive : Bool
  deriving DecidableEq, Repr

/-- A call of `create`: it prepares the machine, waits for its guest, or awaits the `stop` of its `catch`
block. -/
inductive VmCreate
  | preparing (spec : RuntimeSpec)
  | waiting (spec : RuntimeSpec)
  | releasing (spec : RuntimeSpec)
  | settled
  deriving DecidableEq, Repr

/-- The call has not settled. -/
def VmCreate.spec? : VmCreate → Option RuntimeSpec
  | preparing spec | waiting spec | releasing spec => some spec
  | settled => none

/-- `vms` lists the processes in the order of their spawns and `creations` the calls of `create`; the
table `instances` names a process by its position. `removing` are the volumes whose directory is being
removed, `begun` those whose removal has ever begun. -/
structure VmRuntime where
  creations : List VmCreate
  vms : List VmInstance
  instances : String → Option ℕ
  storage : List (String × RuntimeStorage)
  removing : List String
  begun : List String

namespace VmRuntime

def initial : VmRuntime := ⟨[], [], fun _ => none, [], [], []⟩

def setCreation (s : VmRuntime) (call : ℕ) (creation : VmCreate) : VmRuntime :=
  { s with creations := s.creations.set call creation }

def setVm (s : VmRuntime) (n : ℕ) (vm : VmInstance) : VmRuntime := { s with vms := s.vms.set n vm }

/-- `this.storage.set`. -/
def setStorage (s : VmRuntime) (id : String) (storage : RuntimeStorage) : VmRuntime :=
  { s with storage := (id, storage) :: s.storage.filter fun entry => entry.1 ≠ id }

/-- `this.storage.delete`. -/
def deleteStorage (s : VmRuntime) (id : String) : VmRuntime :=
  { s with storage := s.storage.filter fun entry => entry.1 ≠ id }

/-- The entry of the table. -/
def session (s : VmRuntime) (id : String) : Option VmInstance := (s.instances id).bind (s.vms[·]?)

def status (s : VmRuntime) (id : String) : RuntimeState :=
  match s.session id with
  | some vm => vm.state.runtimeState
  | none => .missing

/-! ### The methods -/

/-- `stop` up to its cleanup. SIGKILL ends a process at once. -/
def stop (s : VmRuntime) (id : String) : VmRuntime :=
  match s.instances id with
  | none => s
  | some n =>
    match s.vms[n]? with
    | none => s
    | some vm =>
      if vm.state = .running then s.setVm n { vm with state := .stopped, alive := false } else s

/-- The ids that `sweep` stops. -/
def expired (s : VmRuntime) (now : ℕ) : List String :=
  (s.vms.map (·.id)).filter fun id =>
    (s.session id).any fun vm => vm.state = .running ∧ vm.leaseExpiresAt ≤ now

def sweep (s : VmRuntime) (now : ℕ) : VmRuntime := (s.expired now).foldl stop s

/-- The `catch` block of `QemuRuntime.create`, up to its `await`. -/
def failCreate (s : VmRuntime) (call : ℕ) (spec : RuntimeSpec) : VmRuntime :=
  (s.stop spec.id).setCreation call (.releasing spec)

/-- `create` up to its first `await`. `QemuRuntime` remembers the storage before `PtyRuntime.create`
checks the call, `FirecrackerRuntime` after its own checks. -/
def create (kind : VmKind) (dataDir : String) (s : VmRuntime) (now : ℕ) (spec : RuntimeSpec) :
    VmRuntime :=
  let invalid : Prop := isWorkspaceId spec.id = false ∨ spec.leaseExpiresAt ≤ now
  match kind with
  | .qemu =>
    match validateStorage .qemu dataDir spec.storage with
    | .error _ => s
    | .ok () =>
      let remembered := s.setStorage spec.id spec.storage
      if invalid then
        let stopped := remembered.stop spec.id
        { stopped with creations := stopped.creations ++ [.releasing spec] }
      else if (s.instances spec.id).isSome then
        { remembered with creations := s.creations ++ [.waiting spec] }
      else { remembered with creations := s.creations ++ [.preparing spec] }
  | .firecracker jailed =>
    if invalid then s
    else if (s.instances spec.id).isSome then s
    else
      match validateStorage (.firecracker jailed) dataDir spec.storage with
      | .error _ => s
      | .ok () =>
        { s.setStorage spec.id spec.storage with creations := s.creations ++ [.preparing spec] }

/-- The machine is prepared: spawn it and enter it in the table. -/
def spawn (s : VmRuntime) (call : ℕ) (spec : RuntimeSpec) (started : Bool) : VmRuntime :=
  { s.setCreation call (.waiting spec) with
    vms := s.vms ++ [⟨spec.id, spec.leaseExpiresAt, spec.storage, .running, started⟩]
    instances := Function.update s.instances spec.id (some s.vms.length) }

/-- The check of `destroyVolume`: a running workspace is remembered with the volume. -/
def isAttached (s : VmRuntime) (volumeId : String) : Bool :=
  s.storage.any fun entry => entry.2.volumeId = some volumeId ∧ s.status entry.1 = .running

/-- `destroyVolume` up to the removal of the directory. -/
def destroyVolume (dataDir : String) (s : VmRuntime) (volumeId : String) :
    Except RuntimeDataError Unit × VmRuntime :=
  if s.isAttached volumeId then (.error ⟨"Volume is attached to a running workspace", 409⟩, s)
  else match volumeDirectory dataDir volumeId with
    | .error error => (.error error, s)
    | .ok _ =>
      (.ok (), { s with removing := volumeId :: s.removing, begun := volumeId :: s.begun })

/-! ### Steps -/

inductive Event
  | create (now : ℕ) (spec : RuntimeSpec)
  | prepareFailed (call : ℕ)
  | spawn (call : ℕ) (started : Bool)
  | spawnFailed (call : ℕ)
  | ready (call : ℕ)
  | notReady (call : ℕ)
  | released (call : ℕ)
  | processEnds (process : ℕ)
  | error (process : ℕ)
  | exit (process : ℕ) (success : Bool)
  | stop (id : String)
  | sweep (now : ℕ)
  | forget (process : ℕ)
  | destroyVolume (volumeId : String)
  | removed (volumeId : String)
  deriving DecidableEq

/-- A `create` that is suspended in its preparation. -/
def preparing? (s : VmRuntime) (call : ℕ) : Option RuntimeSpec :=
  match s.creations[call]? with
  | some (.preparing spec) => some spec
  | _ => none

def waiting? (s : VmRuntime) (call : ℕ) : Option RuntimeSpec :=
  match s.creations[call]? with
  | some (.waiting spec) => some spec
  | _ => none

def releasing? (s : VmRuntime) (call : ℕ) : Option RuntimeSpec :=
  match s.creations[call]? with
  | some (.releasing spec) => some spec
  | _ => none

/-- The preparation has thrown. -/
def prepareFailed (kind : VmKind) (s : VmRuntime) (call : ℕ) (spec : RuntimeSpec) : VmRuntime :=
  match kind with
  | .qemu => s.failCreate call spec
  | .firecracker _ => (s.deleteStorage spec.id).setCreation call .settled

/-- The spawn has thrown; `PtyRuntime` has run the cleanup of the command by then, and
`FirecrackerRuntime` catches nothing. -/
def spawnFailed (kind : VmKind) (s : VmRuntime) (call : ℕ) (spec : RuntimeSpec) : VmRuntime :=
  match kind with
  | .qemu => s.failCreate call spec
  | .firecracker _ => s.setCreation call .settled

/-- The handler of the exit event. -/
def exited (vm : VmInstance) (success : Bool) : VmInstance :=
  if vm.state = .running then { vm with state := if success then .stopped else .failed } else vm

def step (kind : VmKind) (dataDir : String) (s : VmRuntime) : Event → Option VmRuntime
  | .create now spec => some (create kind dataDir s now spec)
  | .prepareFailed call => (s.preparing? call).map (prepareFailed kind s call)
  | .spawn call started =>
    -- a terminal process always starts, also where its program cannot be executed
    if kind = .qemu ∧ started = false then none
    else (s.preparing? call).map fun spec => s.spawn call spec started
  | .spawnFailed call => (s.preparing? call).map (spawnFailed kind s call)
  | .ready call => (s.waiting? call).map fun _ => s.setCreation call .settled
  | .notReady call => (s.waiting? call).map (s.failCreate call)
  | .released call =>
    (s.releasing? call).map fun spec => (s.deleteStorage spec.id).setCreation call .settled
  | .processEnds process => (s.vms[process]?).map fun vm => s.setVm process { vm with alive := false }
  | .error process =>
    -- the child process could not be started
    match s.vms[process]? with
    | some vm =>
      if kind ≠ .qemu ∧ vm.alive = false then some (s.setVm process { vm with state := .failed })
      else none
    | none => none
  | .exit process success =>
    match s.vms[process]? with
    | some vm => if vm.alive then none else some (s.setVm process (exited vm success))
    | none => none
  | .stop id => some (s.stop id)
  | .sweep now => some (s.sweep now)
  | .forget process =>
    -- the timer of an instance that was stopped or has exited
    match s.vms[process]? with
    | some vm =>
      if vm.state ≠ .running ∧ s.instances vm.id = some process then
        some { s with instances := Function.update s.instances vm.id none }
      else none
    | none => none
  | .destroyVolume volumeId => some (s.destroyVolume dataDir volumeId).2
  | .removed volumeId =>
    if volumeId ∈ s.removing then some { s with removing := s.removing.erase volumeId } else none

/-- The states of every run whose steps meet a condition. -/
def Reachable (kind : VmKind) (dataDir : String) (allowed : VmRuntime → Event → Prop)
    (s : VmRuntime) : Prop :=
  Transition.Leads (step kind dataDir) allowed .initial s

/-! ### The law of the table -/

/-- A live process is the one of the running session of its id. -/
def Recorded (s : VmRuntime) : Prop :=
  ∀ (n : ℕ) (vm : VmInstance), s.vms[n]? = some vm → vm.alive = true →
    s.instances vm.id = some n ∧ vm.state = .running

/-- At most one live process for each id, which is the one in the table, and `stop` and `sweep` end what
they are to end. -/
structure Controlled (s : VmRuntime) : Prop where
  single : ∀ (m n : ℕ) (vm vm' : VmInstance), s.vms[m]? = some vm → s.vms[n]? = some vm' → vm.alive = true →
    vm'.alive = true → vm.id = vm'.id → m = n
  recorded : s.Recorded
  stops : ∀ id, ∀ vm ∈ (s.stop id).vms, vm.id = id → vm.alive = false
  sweeps : ∀ now, ∀ vm ∈ (s.sweep now).vms, vm.alive = true → now < vm.leaseExpiresAt

/-- A machine is only spawned when no session of its id runs. -/
def spawnsAlone (s : VmRuntime) : Event → Bool
  | .spawn call _ => (s.preparing? call).all fun spec => s.status spec.id ≠ .running
  | _ => true

/-- From `s` to `s'` the table stayed, and processes ended or went on as they were. -/
structure Wanes (s s' : VmRuntime) : Prop where
  instances : s'.instances = s.instances
  vms : ∀ (n : ℕ) (vm' : VmInstance), s'.vms[n]? = some vm' →
    ∃ vm, s.vms[n]? = some vm ∧ vm'.id = vm.id ∧ (vm'.alive = true → vm' = vm)

namespace Wanes

variable {s s' s'' : VmRuntime}

lemma keep (hvms : s'.vms = s.vms) (hinstances : s'.instances = s.instances) : Wanes s s' := by
  refine ⟨hinstances, fun n vm hvm => ?_⟩
  rw [hvms] at hvm
  exact ⟨vm, hvm, rfl, fun _ => rfl⟩

lemma refl (s : VmRuntime) : Wanes s s := keep rfl rfl

lemma trans (h : Wanes s s') (h' : Wanes s' s'') : Wanes s s'' := by
  refine ⟨h'.instances.trans h.instances, fun n vm'' hvm'' => ?_⟩
  obtain ⟨vm', hvm', hid', hsame'⟩ := h'.vms n vm'' hvm''
  obtain ⟨vm, hvm, hid, hsame⟩ := h.vms n vm' hvm'
  refine ⟨vm, hvm, hid'.trans hid, fun halive => ?_⟩
  have heq := hsame' halive
  exact heq.trans (hsame (heq ▸ halive))

/-- One process ends, or its session changes after it has ended. -/
lemma setVm {n : ℕ} {vm vm' : VmInstance} (hvm : s.vms[n]? = some vm) (hid : vm'.id = vm.id)
    (halive : vm'.alive = true → vm' = vm) : Wanes s (s.setVm n vm') := by
  refine ⟨rfl, fun m x hx => ?_⟩
  by_cases hm : n = m
  · subst hm
    have hlt : n < s.vms.length := (List.getElem?_eq_some_iff.mp hvm).1
    have hx' : (s.vms.set n vm')[n]? = some x := hx
    rw [List.getElem?_set_self hlt] at hx'
    cases hx'
    exact ⟨vm, hvm, hid, halive⟩
  · have hx' : (s.vms.set n vm')[m]? = some x := hx
    rw [List.getElem?_set_ne hm] at hx'
    exact ⟨x, hx', rfl, fun _ => rfl⟩

lemma recorded (h : Wanes s s') (hr : s.Recorded) : s'.Recorded := by
  intro n vm' hvm' halive
  obtain ⟨vm, hvm, -, hsame⟩ := h.vms n vm' hvm'
  obtain rfl := hsame halive
  rw [h.instances]
  exact hr n vm' hvm halive

end Wanes

section Stopping

variable {s : VmRuntime}

lemma wanes_stop (s : VmRuntime) (id : String) : Wanes s (s.stop id) := by
  unfold stop
  split
  · exact .refl s
  · split
    · exact .refl s
    · rename_i vm hvm
      split
      · exact .setVm hvm rfl fun halive => by cases halive
      · exact .refl s

lemma wanes_foldl_stop (ids : List String) (s : VmRuntime) : Wanes s (ids.foldl stop s) := by
  induction ids generalizing s with
  | nil => exact .refl s
  | cons id ids ih => exact (wanes_stop s id).trans (ih _)

lemma stop_ends (hr : s.Recorded) (id : String) :
    ∀ vm ∈ (s.stop id).vms, vm.id = id → vm.alive = false := by
  intro vm' hvm' hid
  obtain ⟨n, hn⟩ := List.mem_iff_getElem?.mp hvm'
  by_contra hdead
  have halive : vm'.alive = true := by simpa using hdead
  obtain ⟨vm, hvm, -, hsame⟩ := (wanes_stop s id).vms n vm' hn
  obtain rfl := hsame halive
  obtain ⟨hinstance, hrunning⟩ := hr n vm' hvm halive
  rw [hid] at hinstance
  simp only [stop, hinstance, hvm, hrunning, if_true] at hn
  have hlt : n < s.vms.length := (List.getElem?_eq_some_iff.mp hvm).1
  have hset : (s.vms.set n { vm' with state := .stopped, alive := false })[n]? = some vm' := hn
  rw [List.getElem?_set_self hlt] at hset
  have heq := Option.some.inj hset
  rw [← heq] at halive
  cases halive

lemma foldl_stop_ends {ids : List String} {id : String} (hr : s.Recorded) (hid : id ∈ ids) :
    ∀ vm ∈ (ids.foldl stop s).vms, vm.id = id → vm.alive = false := by
  induction ids generalizing s with
  | nil => cases hid
  | cons first ids ih =>
    intro vm' hvm' hvmid
    rcases List.mem_cons.mp hid with rfl | htail
    · obtain ⟨n, hn⟩ := List.mem_iff_getElem?.mp hvm'
      by_contra hdead
      have halive : vm'.alive = true := by simpa using hdead
      obtain ⟨vm, hvm, -, hsame⟩ := (wanes_foldl_stop ids (s.stop id)).vms n vm' hn
      obtain rfl := hsame halive
      have hended := stop_ends hr id vm' (List.mem_of_getElem? hvm) hvmid
      rw [halive] at hended
      cases hended
    · exact ih ((wanes_stop s first).recorded hr) htail vm' hvm' hvmid

lemma sweep_ends (hr : s.Recorded) (now : ℕ) :
    ∀ vm ∈ (s.sweep now).vms, vm.alive = true → now < vm.leaseExpiresAt := by
  intro vm' hvm' halive
  by_contra hexpired
  obtain ⟨n, hn⟩ := List.mem_iff_getElem?.mp hvm'
  obtain ⟨vm, hvm, -, hsame⟩ := (wanes_foldl_stop (s.expired now) s).vms n vm' hn
  obtain rfl := hsame halive
  obtain ⟨hinstance, hrunning⟩ := hr n vm' hvm halive
  have hmem : vm'.id ∈ s.expired now := by
    refine List.mem_filter.mpr ⟨List.mem_map_of_mem (List.mem_of_getElem? hvm), ?_⟩
    simp [session, hinstance, hvm, hrunning, not_lt.mp hexpired]
  have hended := foldl_stop_ends hr hmem vm' hvm' rfl
  rw [halive] at hended
  cases hended

end Stopping

lemma Recorded.controlled {s : VmRuntime} (h : s.Recorded) : s.Controlled where
  single := by
    intro m n vm vm' hm hn halive halive' hid
    have hfirst := (h m vm hm halive).1
    have hsecond := (h n vm' hn halive').1
    rw [hid, hsecond] at hfirst
    exact (Option.some.inj hfirst).symm
  recorded := h
  stops := stop_ends h
  sweeps := sweep_ends h

/-! ### Steps that keep the law -/

section Steps

variable {kind : VmKind} {dataDir : String} {s s' : VmRuntime}

lemma wanes_failCreate (s : VmRuntime) (call : ℕ) (spec : RuntimeSpec) :
    Wanes s (s.failCreate call spec) :=
  (wanes_stop s spec.id).trans (.keep rfl rfl)

lemma wanes_create (s : VmRuntime) (now : ℕ) (spec : RuntimeSpec) :
    Wanes s (create kind dataDir s now spec) := by
  unfold create
  cases kind with
  | qemu =>
    dsimp only
    split
    · exact .refl s
    · split
      · have hremembered : Wanes s (s.setStorage spec.id spec.storage) := .keep rfl rfl
        exact (hremembered.trans (wanes_stop _ _)).trans (.keep rfl rfl)
      · split
        · exact .keep rfl rfl
        · exact .keep rfl rfl
  | firecracker jailed =>
    dsimp only
    split
    · exact .refl s
    · split
      · exact .refl s
      · split
        · exact .refl s
        · exact .keep rfl rfl

lemma Recorded.spawn {call : ℕ} {spec : RuntimeSpec} {started : Bool} (h : s.Recorded)
    (hstatus : s.status spec.id ≠ .running) : (s.spawn call spec started).Recorded := by
  intro n vm hvm halive
  have hvm' : (s.vms ++ [⟨spec.id, spec.leaseExpiresAt, spec.storage, .running, started⟩])[n]? =
      some vm := hvm
  rcases Table.getElem?_concat_cases hvm' with hvm' | ⟨hn, rfl⟩
  · obtain ⟨hinstance, hrunning⟩ := h n vm hvm' halive
    have hother : vm.id ≠ spec.id := by
      intro hid
      apply hstatus
      rw [status, session, ← hid, hinstance]
      simp [hvm', hrunning, InstanceState.runtimeState]
    refine ⟨?_, hrunning⟩
    simpa [VmRuntime.spawn, Function.update_of_ne hother] using hinstance
  · refine ⟨?_, rfl⟩
    simp [VmRuntime.spawn, hn]

lemma Recorded.forget {n : ℕ} {vm : VmInstance} (h : s.Recorded) (hvm : s.vms[n]? = some vm)
    (hended : vm.state ≠ .running) (hinstance : s.instances vm.id = some n) :
    Recorded { s with instances := Function.update s.instances vm.id none } := by
  intro m vm' hvm' halive
  obtain ⟨hinstance', hrunning⟩ := h m vm' hvm' halive
  have hother : vm'.id ≠ vm.id := by
    intro hid
    rw [hid, hinstance] at hinstance'
    cases hinstance'
    have hsame : vm = vm' := Option.some.inj (hvm.symm.trans hvm')
    exact hended (hsame ▸ hrunning)
  refine ⟨?_, hrunning⟩
  simpa [Function.update_of_ne hother] using hinstance'

/-- The handler of the error event. -/
lemma setVm_of_error {process : ℕ} (hs : step kind dataDir s (.error process) = some s') :
    ∃ vm', Wanes s (s.setVm process vm') ∧ s' = s.setVm process vm' := by
  simp only [step] at hs
  split at hs
  · rename_i vm hvm
    split at hs
    · rename_i hdead
      cases hs
      refine ⟨{ vm with state := .failed }, .setVm hvm rfl fun halive => ?_, rfl⟩
      rw [show vm.alive = true from halive] at hdead
      exact absurd hdead.2 Bool.noConfusion
    · cases hs
  · cases hs

/-- The handler of the exit event. -/
lemma setVm_of_exit {process : ℕ} {success : Bool}
    (hs : step kind dataDir s (.exit process success) = some s') :
    ∃ vm', Wanes s (s.setVm process vm') ∧ s' = s.setVm process vm' := by
  simp only [step] at hs
  split at hs
  · rename_i vm hvm
    split at hs
    · cases hs
    · rename_i hdead
      cases hs
      refine ⟨exited vm success, .setVm hvm ?_ fun halive => ?_, rfl⟩
      · unfold exited
        split <;> rfl
      · have hsame : (exited vm success).alive = vm.alive := by
          unfold exited
          split <;> rfl
        exact absurd (hsame ▸ halive) hdead
  · cases hs

/-- What a step does to the processes and the table. -/
inductive Effect (s : VmRuntime) (e : Event) : VmRuntime → Prop
  | wanes {s' : VmRuntime} (h : Wanes s s') : Effect s e s'
  | spawned {call : ℕ} {spec : RuntimeSpec} {started : Bool} (he : e = .spawn call started)
      (hcall : s.preparing? call = some spec) : Effect s e (s.spawn call spec started)
  | forgotten {n : ℕ} {vm : VmInstance} (hvm : s.vms[n]? = some vm) (hended : vm.state ≠ .running)
      (hinstance : s.instances vm.id = some n) :
      Effect s e { s with instances := Function.update s.instances vm.id none }

theorem step_effect {e : Event} (hs : step kind dataDir s e = some s') : Effect s e s' := by
  cases e with
  | create now spec =>
    cases hs
    exact .wanes (wanes_create s now spec)
  | prepareFailed call =>
    obtain ⟨spec, -, rfl⟩ := Option.map_eq_some_iff.mp hs
    cases kind with
    | qemu => exact .wanes (wanes_failCreate s call spec)
    | firecracker jailed => exact .wanes (.keep rfl rfl)
  | spawn call started =>
    simp only [step] at hs
    split at hs
    · cases hs
    · obtain ⟨spec, hcall, rfl⟩ := Option.map_eq_some_iff.mp hs
      exact .spawned rfl hcall
  | spawnFailed call =>
    obtain ⟨spec, -, rfl⟩ := Option.map_eq_some_iff.mp hs
    cases kind with
    | qemu => exact .wanes (wanes_failCreate s call spec)
    | firecracker jailed => exact .wanes (.keep rfl rfl)
  | ready call =>
    obtain ⟨spec, -, rfl⟩ := Option.map_eq_some_iff.mp hs
    exact .wanes (.keep rfl rfl)
  | notReady call =>
    obtain ⟨spec, -, rfl⟩ := Option.map_eq_some_iff.mp hs
    exact .wanes (wanes_failCreate s call spec)
  | released call =>
    obtain ⟨spec, -, rfl⟩ := Option.map_eq_some_iff.mp hs
    exact .wanes (.keep rfl rfl)
  | processEnds process =>
    obtain ⟨vm, hvm, rfl⟩ := Option.map_eq_some_iff.mp hs
    exact .wanes (.setVm hvm rfl fun halive => by cases halive)
  | error process =>
    obtain ⟨vm', hw, rfl⟩ := setVm_of_error hs
    exact .wanes hw
  | exit process success =>
    obtain ⟨vm', hw, rfl⟩ := setVm_of_exit hs
    exact .wanes hw
  | stop id =>
    cases hs
    exact .wanes (wanes_stop s id)
  | sweep now =>
    cases hs
    exact .wanes (wanes_foldl_stop _ s)
  | forget process =>
    simp only [step] at hs
    split at hs
    · rename_i vm hvm
      split at hs
      · rename_i hended
        cases hs
        exact .forgotten hvm hended.1 hended.2
      · cases hs
    · cases hs
  | destroyVolume volumeId =>
    cases hs
    refine .wanes ?_
    unfold destroyVolume
    split
    · exact .refl s
    · split
      · exact .refl s
      · exact .keep rfl rfl
  | removed volumeId =>
    simp only [step] at hs
    split at hs
    · cases hs
      exact .wanes (.keep rfl rfl)
    · cases hs

theorem Recorded.step {e : Event} (h : s.Recorded) (he : s.spawnsAlone e = true)
    (hs : VmRuntime.step kind dataDir s e = some s') : s'.Recorded := by
  cases step_effect hs with
  | wanes hw => exact hw.recorded h
  | spawned heq hcall =>
    subst heq
    rw [spawnsAlone, hcall, Option.all_some, decide_eq_true_eq] at he
    exact h.spawn he
  | forgotten hvm hended hinstance => exact h.forget hvm hended hinstance

lemma recorded_initial : initial.Recorded := by
  intro n vm hvm
  cases hvm

/-- In a run that spawns a machine only while no session of its id runs, every live process can be
stopped by its id and by its lease. -/
theorem controlled_of_spawnsAlone
    (h : Reachable kind dataDir (fun s e => s.spawnsAlone e = true) s) : s.Controlled := by
  have hrecorded : s.Recorded :=
    Transition.Leads.invariant Recorded h recorded_initial fun _ _ _ ht he hs => ht.step he hs
  exact hrecorded.controlled

/-- A workspace that is created again, in the same terms, after it was stopped and forgotten. -/
theorem controlled_again :
    ∃ s : VmRuntime, s.vms.map (·.alive) = [false, true] ∧ s.Controlled := by
  have hrun : ∃ s, Transition.exec (Transition.guard (step .qemu "data") spawnsAlone) initial
      [.create 0 (FirecrackerRuntime.disposableSpec "00000000-0000-4000-8000-000000000001"),
        .spawn 0 true, .ready 0, .stop "00000000-0000-4000-8000-000000000001", .forget 0,
        .create 0 (FirecrackerRuntime.disposableSpec "00000000-0000-4000-8000-000000000001"),
        .spawn 1 true] = some s ∧ s.vms.map (·.alive) = [false, true] := ⟨_, rfl, by decide⟩
  obtain ⟨s, hs, hvms⟩ := hrun
  exact ⟨s, hvms, controlled_of_spawnsAlone (Transition.leads_of_exec_guard hs)⟩

/-- A request that is sent again while its machine is being prepared starts a second machine, and the
table forgets the first. -/
theorem not_controlled_retried_create :
    ¬∀ s, Reachable .qemu "data" Transition.anyStep s → s.Controlled := by
  intro h
  have hrun : ∃ s, Transition.exec (step .qemu "data") initial
      [.create 0 (FirecrackerRuntime.disposableSpec "00000000-0000-4000-8000-000000000001"),
        .create 0 (FirecrackerRuntime.disposableSpec "00000000-0000-4000-8000-000000000001"),
        .spawn 0 true, .spawn 1 true] = some s ∧ ∃ vm, s.vms[0]? = some vm ∧ vm.alive = true ∧
      s.instances vm.id = some 1 := ⟨_, rfl, _, rfl, rfl, by decide⟩
  obtain ⟨s, hs, vm, hvm, halive, hinstance⟩ := hrun
  have hrecorded := ((h s (Transition.leads_of_exec hs)).recorded 0 vm hvm halive).1
  rw [hinstance] at hrecorded
  cases hrecorded

end Steps

end VmRuntime

end Bloom
