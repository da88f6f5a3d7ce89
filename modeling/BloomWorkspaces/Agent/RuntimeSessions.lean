import BloomWorkspaces.Agent.SessionTable
import BloomWorkspaces.Agent.VmRuntime

/-!
# The sessions of the runtimes

The tables of `VmRuntime` and `FirecrackerRuntime`. Their entries name processes, and a process that another
one has replaced in the table can change it no more.
-/

namespace Bloom

/-! ### The sessions of the virtual machines -/

namespace VmRuntime

open SessionTable (Entries TurnsInto)
open SessionTable.Entries (Moves)

variable {kind : VmKind} {dataDir : String} {s s' : VmRuntime} {entered : String → Prop} {n : ℕ}
  {vm vm' : VmInstance}

def entries (s : VmRuntime) : Entries where
  instances := s.instances
  process n := (s.vms[n]?).map fun vm => (vm.id, vm.state)

def sessions (s : VmRuntime) : SessionTable := s.entries.sessions

lemma sessions_eq (s : VmRuntime) (id : String) : s.sessions id = (s.session id).map VmInstance.state := by
  simp only [sessions, Entries.sessions, entries, session]
  cases s.instances id with
  | none => simp
  | some n => simp [Function.comp_def]

lemma status_eq_running (s : VmRuntime) (id : String) :
    s.status id = .running ↔ s.sessions id = some .running := by
  rw [status, sessions_eq]
  cases s.session id with
  | none => simp
  | some vm => cases hstate : vm.state <;> simp [hstate, InstanceState.runtimeState]

lemma process_of_vm (hvm : s.vms[n]? = some vm) : s.entries.process n = some (vm.id, vm.state) := by
  simp [entries, hvm]

lemma process_setVm (hvm : s.vms[n]? = some vm) :
    (s.setVm n vm').entries.process = Function.update s.entries.process n (some (vm'.id, vm'.state)) := by
  have hlt : n < s.vms.length := (List.getElem?_eq_some_iff.mp hvm).1
  funext m
  by_cases hm : m = n
  · simp [entries, setVm, hm, hlt]
  · simp [entries, setVm, hm, List.getElem?_set_ne (Ne.symm hm)]

lemma moves_keep (hvms : s'.vms = s.vms) (hinstances : s'.instances = s.instances) :
    Moves entered s.entries s'.entries :=
  .keep hinstances fun m p hp => by simpa [entries, hvms] using hp

lemma moves_setVm (hvm : s.vms[n]? = some vm) (hid : vm'.id = vm.id)
    (hfollows : ∀ t : SessionTable, t vm.id = some vm.state →
      TurnsInto entered t (Function.update t vm.id (some vm'.state))) :
    Moves entered s.entries (s.setVm n vm').entries :=
  .change (process_of_vm hvm) rfl (hid ▸ process_setVm hvm) hfollows

lemma sessions_stop (hnamed : s.entries.Named) (id : String) :
    (s.stop id).sessions = s.sessions.stop id := by
  unfold stop
  cases hid : s.instances id with
  | none => exact (SessionTable.stop_of_ne_running (by simp [sessions_eq, session, hid])).symm
  | some n =>
    obtain ⟨state, hstate⟩ := hnamed id n hid
    obtain ⟨vm, hvm, hpair⟩ := Option.map_eq_some_iff.mp hstate
    obtain ⟨rfl, rfl⟩ : vm.id = id ∧ vm.state = state := by simpa using hpair
    simp only [hvm]
    split_ifs with hrunning
    · exact Entries.sessions_stop hnamed hid (hrunning ▸ process_of_vm hvm) rfl (process_setVm hvm)
    · exact (SessionTable.stop_of_ne_running (by simp [sessions_eq, session, hid, hvm, hrunning])).symm

lemma moves_stop (s : VmRuntime) (id : String) : Moves entered s.entries (s.stop id).entries := by
  unfold stop
  split
  · exact .refl _
  · split
    · exact .refl _
    · rename_i vm hvm
      split_ifs with hrunning
      · exact moves_setVm hvm rfl fun t ht => .stopped (hrunning ▸ ht)
      · exact .refl _

lemma moves_foldl_stop (ids : List String) (s : VmRuntime) :
    Moves entered s.entries (ids.foldl stop s).entries := by
  induction ids generalizing s with
  | nil => exact .refl _
  | cons id ids ih => exact (moves_stop s id).trans (ih _)

lemma moves_failCreate (s : VmRuntime) (call : ℕ) (spec : RuntimeSpec) :
    Moves entered s.entries (s.failCreate call spec).entries :=
  (moves_stop s spec.id).trans (moves_keep rfl rfl)

lemma moves_create (s : VmRuntime) (now : ℕ) (spec : RuntimeSpec) :
    Moves entered s.entries (create kind dataDir s now spec).entries := by
  unfold create
  cases kind with
  | qemu =>
    dsimp only
    split
    · exact .refl _
    · split_ifs
      · have hremembered : Moves entered s.entries (s.setStorage spec.id spec.storage).entries :=
          moves_keep rfl rfl
        exact (hremembered.trans (moves_stop _ _)).trans (moves_keep rfl rfl)
      · exact moves_keep rfl rfl
      · exact moves_keep rfl rfl
  | firecracker jailed =>
    dsimp only
    split_ifs
    · exact .refl _
    · exact .refl _
    · split
      · exact .refl _
      · exact moves_keep rfl rfl

lemma moves_spawn {call : ℕ} {spec : RuntimeSpec} {started : Bool} (hspec : entered spec.id) :
    Moves entered s.entries (s.spawn call spec started).entries := by
  refine .enter hspec rfl (by simp [entries, spawn]) fun m p hp => ?_
  obtain ⟨vm, hvm, rfl⟩ := Option.map_eq_some_iff.mp hp
  have hlt : m < s.vms.length := (List.getElem?_eq_some_iff.mp hvm).1
  simp [entries, spawn, List.getElem?_append_left hlt, hvm]

/-- The handler of the exit event. -/
lemma moves_exited (hvm : s.vms[n]? = some vm) (success : Bool) :
    Moves entered s.entries (s.setVm n (exited vm success)).entries := by
  unfold exited
  by_cases hrunning : vm.state = .running
  · rw [if_pos hrunning]
    exact moves_setVm hvm rfl fun t ht => .exited (hrunning ▸ ht) success
  · rw [if_neg hrunning]
    exact moves_setVm hvm rfl fun t ht => .same ht

/-- The ids that an event enters in the table. -/
def enters (s : VmRuntime) (e : Event) (id : String) : Prop :=
  ∃ call started spec, e = .spawn call started ∧ s.preparing? call = some spec ∧ spec.id = id

lemma moves_of_step {e : Event} (hs : step kind dataDir s e = some s') :
    Moves (s.enters e) s.entries s'.entries := by
  cases e with
  | create now spec =>
    cases hs
    exact moves_create s now spec
  | prepareFailed call =>
    obtain ⟨spec, -, rfl⟩ := Option.map_eq_some_iff.mp hs
    cases kind with
    | qemu => exact moves_failCreate s call spec
    | firecracker jailed => exact moves_keep rfl rfl
  | spawn call started =>
    simp only [step] at hs
    split_ifs at hs
    obtain ⟨spec, hcall, rfl⟩ := Option.map_eq_some_iff.mp hs
    exact moves_spawn ⟨call, started, spec, rfl, hcall, rfl⟩
  | spawnFailed call =>
    obtain ⟨spec, -, rfl⟩ := Option.map_eq_some_iff.mp hs
    cases kind with
    | qemu => exact moves_failCreate s call spec
    | firecracker jailed => exact moves_keep rfl rfl
  | ready call =>
    obtain ⟨spec, -, rfl⟩ := Option.map_eq_some_iff.mp hs
    exact moves_keep rfl rfl
  | notReady call =>
    obtain ⟨spec, -, rfl⟩ := Option.map_eq_some_iff.mp hs
    exact moves_failCreate s call spec
  | released call =>
    obtain ⟨spec, -, rfl⟩ := Option.map_eq_some_iff.mp hs
    exact moves_keep rfl rfl
  | processEnds process =>
    obtain ⟨vm, hvm, rfl⟩ := Option.map_eq_some_iff.mp hs
    exact moves_setVm hvm rfl fun t ht => .same ht
  | error process =>
    simp only [step] at hs
    split at hs
    · rename_i vm hvm
      split_ifs at hs
      cases hs
      exact moves_setVm hvm rfl fun t ht => .failed ht
    · cases hs
  | exit process success =>
    simp only [step] at hs
    split at hs
    · rename_i vm hvm
      split_ifs at hs
      cases hs
      exact moves_exited hvm success
    · cases hs
  | stop id =>
    cases hs
    exact moves_stop s id
  | sweep now =>
    cases hs
    exact moves_foldl_stop _ s
  | forget process =>
    simp only [step] at hs
    split at hs
    · rename_i vm hvm
      split_ifs at hs with hforget
      cases hs
      exact .forget (process_of_vm hvm) hforget.1 hforget.2 rfl rfl
    · cases hs
  | destroyVolume volumeId =>
    cases hs
    unfold destroyVolume
    split_ifs
    · exact .refl _
    · split
      · exact .refl _
      · exact moves_keep rfl rfl
  | removed volumeId =>
    simp only [step] at hs
    split_ifs at hs
    cases hs
    exact moves_keep rfl rfl

lemma named_of_reachable {allowed : VmRuntime → Event → Prop} (h : Reachable kind dataDir allowed s) :
    s.entries.Named := by
  refine Transition.Leads.invariant (fun s => s.entries.Named) h (fun id n hn => ?_) fun _ _ _ ht _ hs =>
    (moves_of_step hs).named ht
  cases hn

/-- The table of the virtual machines follows, and only a spawn enters an id. -/
theorem follows_of_step {allowed : VmRuntime → Event → Prop} {e : Event}
    (h : Reachable kind dataDir allowed s) (hs : step kind dataDir s e = some s') :
    TurnsInto (s.enters e) s.sessions s'.sessions :=
  (moves_of_step hs).follows (named_of_reachable h)

/-- A workspace only begins to be reported as running when a process is spawned for it. -/
theorem enters_of_status {allowed : VmRuntime → Event → Prop} {e : Event} {id : String}
    (h : Reachable kind dataDir allowed s) (hs : step kind dataDir s e = some s')
    (hbefore : s.status id ≠ .running) (hafter : s'.status id = .running) : s.enters e id := by
  rw [Ne, status_eq_running] at hbefore
  rw [status_eq_running] at hafter
  exact (SessionTable.running_of_follows (follows_of_step h hs) hafter).resolve_left hbefore

/-- A stop does to the table what a stop is to do. -/
theorem sessions_stop_of_reachable {allowed : VmRuntime → Event → Prop}
    (h : Reachable kind dataDir allowed s) (id : String) : (s.stop id).sessions = s.sessions.stop id :=
  sessions_stop (named_of_reachable h) id

end VmRuntime

/-! ### The sessions of the jailed machines -/

/-- The session that the call has spawned. -/
def Creation.session : Creation → Option (String × InstanceState)
  | spawned id machine => some (id, machine.state)
  | checking _ | preparing _ _ | failed _ => none

namespace Machine

variable {machine : Machine}

/-- A machine whose exit was handled has no session that runs. -/
def Settled (machine : Machine) : Prop := machine.process = .reported → machine.state ≠ .running

lemma settled_start (uid : ℕ) (started : Bool) : (start uid started).Settled := by
  cases started <;> simp [Settled, start]

lemma state_exit (machine : Machine) (success : Bool) : (machine.exit success).state =
    if machine.state = .running then (if success then .stopped else .failed) else machine.state := rfl

lemma settled_exit (success : Bool) : (machine.exit success).Settled := by
  intro _
  rw [state_exit]
  split_ifs with hrunning
  · simp
  · simp
  · exact hrunning

lemma state_setCleanup {run : CleanupRun} (phase : Cleanup) (h : machine.cleanup run = .closing) :
    (machine.setCleanup run phase h).state = machine.state := by
  cases run <;> rfl

lemma Settled.setCleanup {run : CleanupRun} (hsettled : machine.Settled) (phase : Cleanup)
    (h : machine.cleanup run = .closing) : (machine.setCleanup run phase h).Settled := by
  cases run <;> exact hsettled

end Machine

namespace FirecrackerRuntime

open SessionTable (Entries TurnsInto)
open SessionTable.Entries (Moves)

variable {s s' : FirecrackerRuntime} {entered : String → Prop} {call : ℕ} {creation creation' : Creation}
  {id : String} {machine machine' : Machine}

def entries (s : FirecrackerRuntime) : Entries where
  instances := s.instances
  process call := (s.creations[call]?).bind Creation.session

def sessions (s : FirecrackerRuntime) : SessionTable := s.entries.sessions

/-- The exits that were handled have ended their sessions. -/
def Settled (s : FirecrackerRuntime) : Prop :=
  ∀ id machine, .spawned id machine ∈ s.creations → machine.Settled

/-- The table follows, and the exits that were handled have ended their sessions. -/
structure Steps (entered : String → Prop) (s s' : FirecrackerRuntime) : Prop where
  moves : Moves entered s.entries s'.entries
  settled : s'.Settled

lemma Steps.refl (h : s.Settled) : Steps entered s s := ⟨.refl _, h⟩

lemma Steps.congr {s'' : FirecrackerRuntime} (h : Steps entered s s') (hcreations : s''.creations = s'.creations)
    (hinstances : s''.instances = s'.instances) : Steps entered s s'' where
  moves := by
    have hsame : s''.entries = s'.entries := by simp [entries, hcreations, hinstances]
    exact hsame ▸ h.moves
  settled := by
    rw [Settled, hcreations]
    exact h.settled

lemma Settled.set (h : s.Settled)
    (hcreation : ∀ id machine, creation = .spawned id machine → machine.Settled) :
    (s.setCreation call creation).Settled := by
  intro id machine hmem
  rcases List.mem_or_eq_of_mem_set hmem with hold | heq
  · exact h id machine hold
  · exact hcreation id machine heq.symm

lemma process_of_creation (hm : s.creations[call]? = some creation) :
    s.entries.process call = creation.session := by
  simp [entries, hm]

lemma process_setCreation (hm : s.creations[call]? = some creation) :
    (s.setCreation call creation').entries.process =
      Function.update s.entries.process call creation'.session := by
  have hlt : call < s.creations.length := (List.getElem?_eq_some_iff.mp hm).1
  funext c
  by_cases hc : c = call
  · simp [entries, setCreation, hc, hlt]
  · simp [entries, setCreation, hc, List.getElem?_set_ne (Ne.symm hc)]

/-- A call that has spawned nothing goes on. -/
lemma process_unspawned (hm : s.creations[call]? = some creation) (hnone : creation.session = none) :
    ∀ c p, s.entries.process c = some p → (s.setCreation call creation').entries.process c = some p := by
  intro c p hp
  have hc : c ≠ call := by
    rintro rfl
    rw [process_of_creation hm, hnone] at hp
    cases hp
  simpa [process_setCreation hm, hc] using hp

lemma steps_unspawned (h : s.Settled) (hm : s.creations[call]? = some creation)
    (hnone : creation.session = none) (hnone' : creation'.session = none) :
    Steps entered s (s.setCreation call creation') where
  moves := .keep rfl (process_unspawned hm hnone)
  settled := by
    refine h.set fun id machine heq => ?_
    rw [heq] at hnone'
    cases hnone'

lemma steps_machine (h : s.Settled) (hm : s.creations[call]? = some (.spawned id machine))
    (hmachine : machine.Settled → machine'.Settled)
    (hfollows : ∀ t : SessionTable, t id = some machine.state →
      TurnsInto entered t (Function.update t id (some machine'.state))) :
    Steps entered s (s.setCreation call (.spawned id machine')) where
  moves := .change (process_of_creation hm) rfl (process_setCreation hm) hfollows
  settled := by
    refine h.set fun id' machine'' heq => ?_
    cases heq
    exact hmachine (h id machine (List.mem_of_getElem? hm))

lemma steps_create (h : s.Settled) (id : String) :
    Steps entered s { s with creations := s.creations ++ [.checking id] } where
  moves := by
    refine .keep rfl fun c p hp => ?_
    obtain ⟨creation, hcreation, hsession⟩ := Option.bind_eq_some_iff.mp hp
    have hlt : c < s.creations.length := (List.getElem?_eq_some_iff.mp hcreation).1
    simp [entries, List.getElem?_append_left hlt, hcreation, hsession]
  settled := by
    intro id machine hmem
    exact h id machine (by simpa using hmem)

lemma steps_exit (h : s.Settled) (hm : s.creations[call]? = some (.spawned id machine)) (success : Bool) :
    Steps entered s (s.setCreation call (.spawned id (machine.exit success))) := by
  refine steps_machine h hm (fun _ => Machine.settled_exit success) fun t ht => ?_
  rw [Machine.state_exit]
  by_cases hrunning : machine.state = .running
  · rw [if_pos hrunning]
    exact .exited (hrunning ▸ ht) success
  · rw [if_neg hrunning]
    exact .same ht

lemma steps_cleanup {run : CleanupRun} (h : s.Settled)
    (hm : s.creations[call]? = some (.spawned id machine)) (phase : Cleanup)
    (hclosing : machine.cleanup run = .closing) :
    Steps entered s (s.setCreation call (.spawned id (machine.setCleanup run phase hclosing))) := by
  refine steps_machine h hm (fun hsettled => hsettled.setCleanup phase hclosing) fun t ht => ?_
  rw [Machine.state_setCleanup]
  exact .same ht

/-- The ids that an event enters in the table. -/
def enters (s : FirecrackerRuntime) (e : Event) (id : String) : Prop :=
  ∃ call started uid, e = .spawn call started ∧ s.creations[call]? = some (.preparing id uid)

lemma steps_of_step {e : Event} (h : s.Settled) (hs : s.step e = some s') : Steps (s.enters e) s s' := by
  cases e with
  | create now spec =>
    simp only [step] at hs
    split_ifs at hs
    · cases hs
      exact .refl h
    · cases hs
      exact steps_create h spec.id
  | allocate call =>
    simp only [step] at hs
    split at hs
    · rename_i id hm
      split at hs
      · cases hs
        exact (steps_unspawned h hm rfl rfl).congr rfl rfl
      · cases hs
    · cases hs
  | prepareFailed call =>
    simp only [step] at hs
    split at hs
    · rename_i id hm
      cases hs
      exact steps_unspawned h hm rfl rfl
    · rename_i id uid hm
      cases hs
      exact steps_unspawned h hm rfl rfl
    · cases hs
  | spawn call started =>
    simp only [step] at hs
    split at hs
    · rename_i id uid hm
      cases hs
      constructor
      · refine .enter ⟨call, started, uid, rfl, hm⟩ rfl ?_ (process_unspawned hm rfl)
        exact (congrFun (process_setCreation hm) call).trans (by simp [Creation.session, Machine.start])
      · refine h.set fun id machine heq => ?_
        cases heq
        exact Machine.settled_start _ started
    · cases hs
  | processEnds call =>
    simp only [step] at hs
    split at hs
    · rename_i id machine hm
      split_ifs at hs
      cases hs
      exact steps_machine h hm (by simp [Machine.Settled, Machine.processEnds]) fun t ht => .same ht
    · cases hs
  | error call =>
    simp only [step] at hs
    split at hs
    · rename_i id machine hm
      cases hs
      exact steps_machine h hm (by simp [Machine.Settled, Machine.fail]) fun t ht => .failed ht
    · cases hs
  | exit call success =>
    simp only [step] at hs
    split at hs
    · rename_i id machine hm
      split_ifs at hs
      cases hs
      exact steps_exit h hm success
    · cases hs
  | stop id =>
    simp only [step] at hs
    split at hs
    · rename_i call id machine hm
      obtain ⟨c, -, hc⟩ := Option.bind_eq_some_iff.mp hm
      obtain ⟨creation, hcreation, hpair⟩ := Option.map_eq_some_iff.mp hc
      cases hpair
      split_ifs at hs with hrunning
      · cases hs
        exact steps_machine h hcreation (by simp [Machine.Settled, Machine.stop]) fun t ht =>
          .stopped (hrunning ▸ ht)
      · cases hs
        exact .refl h
    · cases hs
      exact .refl h
  | closed call run =>
    simp only [step] at hs
    split at hs
    · rename_i id machine hm
      split_ifs at hs with hclosing
      cases hs
      exact (steps_cleanup h hm .freed hclosing).congr rfl rfl
    · cases hs
  | closeFailed call run =>
    simp only [step] at hs
    split at hs
    · rename_i id machine hm
      split_ifs at hs with hclosing
      cases hs
      exact steps_cleanup h hm .failed hclosing
    · cases hs
  | forget call =>
    simp only [step] at hs
    split at hs
    · rename_i id machine hm
      split_ifs at hs with hforget
      cases hs
      refine ⟨.forget (process_of_creation hm) ?_ hforget.2 rfl rfl, h⟩
      rcases hforget.1 with hreported | hfreed
      · exact h id machine (List.mem_of_getElem? hm) hreported
      · intro hrunning
        have hidle := (machine.idle_of_running hrunning).1
        simp [hidle] at hfreed
    · cases hs

/-- What a run keeps of the table. -/
lemma named_of_leads (h : Transition.Leads step Transition.anyStep initial s) :
    s.entries.Named ∧ s.Settled := by
  refine Transition.Leads.invariant (fun s => s.entries.Named ∧ s.Settled) h ⟨fun id n hn => ?_, ?_⟩ ?_
  · cases hn
  · simp [Settled, initial]
  · intro t e t' ht _ hs
    have hsteps := steps_of_step ht.2 hs
    exact ⟨hsteps.moves.named ht.1, hsteps.settled⟩

/-- The table of the jailed machines follows, and only a spawn enters an id. -/
theorem follows_of_step {e : Event} (h : Transition.Leads step Transition.anyStep initial s)
    (hs : s.step e = some s') : TurnsInto (s.enters e) s.sessions s'.sessions :=
  (steps_of_step (named_of_leads h).2 hs).moves.follows (named_of_leads h).1

/-- A stop does to the table what a stop is to do. -/
theorem sessions_stop_of_leads (h : Transition.Leads step Transition.anyStep initial s)
    (hs : s.step (.stop id) = some s') : s'.sessions = s.sessions.stop id := by
  have hnamed := (named_of_leads h).1
  simp only [step] at hs
  cases hid : s.instances id with
  | none =>
    simp only [hid, Option.bind_none] at hs
    cases hs
    exact (SessionTable.stop_of_ne_running (by simp [sessions, Entries.sessions, entries, hid])).symm
  | some call =>
    obtain ⟨state, hstate⟩ := hnamed id call hid
    obtain ⟨creation, hcreation, hsession⟩ := Option.bind_eq_some_iff.mp hstate
    cases creation with
    | checking id' | preparing id' uid | failed uid => cases hsession
    | spawned id' machine =>
      cases hsession
      simp only [hid, hcreation, Option.bind_some, Option.map_some] at hs
      split_ifs at hs with hrunning
      · cases hs
        exact Entries.sessions_stop hnamed hid (hrunning ▸ hstate) rfl (process_setCreation hcreation)
      · cases hs
        refine (SessionTable.stop_of_ne_running ?_).symm
        simp [sessions, Entries.sessions, entries, hid, hcreation, Creation.session, hrunning]

end FirecrackerRuntime

end Bloom
