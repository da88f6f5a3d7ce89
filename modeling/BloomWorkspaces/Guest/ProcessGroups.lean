import BloomWorkspaces.Guest.JobProcesses

/-!
# The process groups of all jobs

Jobs, the groups of their processes and those of other programs of the guest. A signal is sent to a
remembered number. The kernel gives the number of a group out again once no process of the group is left
and its leader has been reaped.
-/

namespace Bloom

/-- The process that a job was spawned as. -/
inductive Leader
  | running
  | zombie
  | reaped
  deriving DecidableEq, Repr

/-- A job with its threads and its process group, in which `members` processes are left beside the
leader. -/
structure JobGroup where
  job : Job
  thread : WaitThread
  grace : GracePeriod
  leader : Leader
  members : ℕ

inductive GroupOwner
  | job (ref : ℕ)
  | other
  deriving DecidableEq, Repr

/-- A call of `signal_group` for the job `meant`, and whose group it has reached. -/
structure SentSignal where
  meant : ℕ
  signal : Signal
  reached : Option GroupOwner
  deriving DecidableEq, Repr

/-- The jobs stand at their references; `others` are the groups that belong to no job. -/
structure ProcessGroups where
  jobs : List JobGroup
  others : List ℕ
  sent : List SentSignal

namespace JobGroup

def launched (ref : ℕ) (spec : StartSpec) (createdAt pid startedAt : ℕ) : JobGroup where
  job := { JobEngine.spawnedJob ref spec createdAt pid startedAt with waiter := .waiting }
  thread := .initial
  grace := .notStarted
  leader := .running
  members := 0

/-- The kernel still has the group. -/
def isHeld (g : JobGroup) : Bool := g.leader ≠ .reaped || 0 < g.members

def holds (pgid : ℕ) (g : JobGroup) : Bool := g.isHeld && g.job.pid = some pgid

/-- The kernel answers a `waitpid` on the leader by what has become of it; the call may also fail. -/
def answers (env : JobEnvironment) (g : JobGroup) : Bool :=
  match g.thread.pc with
  | .waitpid | .grace (_ + 1) =>
    match env.waitpid g.thread.waitpids with
    | .running => g.leader = .running
    | .reaped _ => g.leader = .zombie
    | .failed => true
  | _ => true

/-- The next step of the wait thread reaps the leader; the `waitpid` behind SIGKILL waits for it. -/
def reaps (env : JobEnvironment) (g : JobGroup) : Bool :=
  match g.thread.pc with
  | .waitpid | .grace (_ + 1) =>
    match env.waitpid g.thread.waitpids with
    | .reaped _ => true
    | _ => false
  | .grace 0 => true
  | _ => false

def wait (env : JobEnvironment) (g : JobGroup) : JobGroup :=
  { g with
    thread := g.thread.step env
    leader := if g.reaps env then .reaped else g.leader }

/-- What the wait thread sends in its next step. -/
def waitSignals (env : JobEnvironment) (g : JobGroup) : List Signal :=
  (g.thread.step env).signals.drop g.thread.signals.length

def decide (g : JobGroup) : JobGroup :=
  { g with job := { g.job with
    waiter := .deciding (jobOutcome g.thread.timedOut g.job.cancelRequested g.thread.status) } }

/-- `cancel` and `close` look at the state and at the number under the lock of the job. -/
def isSignalled (g : JobGroup) : Bool := !g.job.state.isTerminal && g.job.pid.isSome

def cancel (appended : List UInt8) (g : JobGroup) : JobGroup :=
  { g with
    job := JobEngine.requestCancel appended g.job
    grace := if g.job.cancelRequested then g.grace else .running }

end JobGroup

inductive GroupEvent
  | start (spec : StartSpec) (createdAt pid startedAt : ℕ)
  | openGroup (pgid : ℕ)
  | closeGroup (pgid : ℕ)
  | fork (ref : ℕ)
  | exit (ref : ℕ)
  | leaderExit (ref : ℕ)
  | wait (ref : ℕ)
  | decide (ref : ℕ)
  | publish (ref now : ℕ)
  | cancel (ref : ℕ) (appended : List UInt8)
  | graceOver (ref : ℕ)
  | close (ref : ℕ)

namespace ProcessGroups

def initial : ProcessGroups := ⟨[], [], []⟩

/-- Whose group has a number. -/
def owner (s : ProcessGroups) (pgid : ℕ) : Option GroupOwner :=
  match s.jobs.findIdx? (JobGroup.holds pgid) with
  | some ref => some (.job ref)
  | none => if pgid ∈ s.others then some .other else none

def modify (s : ProcessGroups) (ref : ℕ) (f : JobGroup → JobGroup) : ProcessGroups :=
  { s with jobs := s.jobs.modify ref f }

/-- `signal_group` with the number that the job has recorded. -/
def signalGroup (s : ProcessGroups) (ref : ℕ) (g : JobGroup) (signal : Signal) : ProcessGroups :=
  match g.job.pid with
  | some pid => { s with sent := s.sent ++ [⟨ref, signal, s.owner pid⟩] }
  | none => s

/-- A step of one job. -/
def stepJob (envs : ℕ → JobEnvironment) (s : ProcessGroups) (ref : ℕ) (g : JobGroup) :
    GroupEvent → Option ProcessGroups
  | .fork _ =>
    if g.leader = .running ∨ 0 < g.members then
      some (s.modify ref fun g => { g with members := g.members + 1 })
    else none
  | .exit _ =>
    if 0 < g.members then some (s.modify ref fun g => { g with members := g.members - 1 }) else none
  | .leaderExit _ =>
    if g.leader = .running then some (s.modify ref fun g => { g with leader := .zombie }) else none
  | .wait _ =>
    if g.thread.pc = .finished ∨ g.answers (envs ref) = false then none
    else
      some (((g.waitSignals (envs ref)).foldl (fun s signal => s.signalGroup ref g signal) s).modify ref
        (JobGroup.wait (envs ref)))
  | .decide _ =>
    if g.thread.pc = .finished ∧ g.job.waiter = .waiting then some (s.modify ref JobGroup.decide)
    else none
  | .publish _ now =>
    match g.job.waiter with
    | .deciding outcome =>
      some (s.modify ref fun g => { g with job := JobEngine.finishJob g.job outcome now })
    | _ => none
  | .cancel _ appended =>
    if g.isSignalled then
      some ((s.signalGroup ref g .term).modify ref (JobGroup.cancel appended))
    else some s
  | .graceOver _ =>
    if g.grace = .running then
      some ((s.signalGroup ref g .kill).modify ref fun g => { g with grace := .elapsed })
    else none
  | .close _ => if g.isSignalled then some (s.signalGroup ref g .kill) else some s
  | _ => none

/-- The job of an event. -/
def refOf : GroupEvent → ℕ
  | .start _ _ _ _ | .openGroup _ | .closeGroup _ => 0
  | .fork ref | .exit ref | .leaderExit ref | .wait ref | .decide ref | .publish ref _
  | .cancel ref _ | .graceOver ref | .close ref => ref

/-- The kernel gives a number to a new group only where none has it. -/
def step (envs : ℕ → JobEnvironment) (s : ProcessGroups) : GroupEvent → Option ProcessGroups
  | .start spec createdAt pid startedAt =>
    if s.owner pid = none then
      some { s with
        jobs := s.jobs ++ [.launched s.jobs.length spec createdAt pid startedAt] }
    else none
  | .openGroup pgid =>
    if s.owner pgid = none then some { s with others := pgid :: s.others } else none
  | .closeGroup pgid => some { s with others := s.others.filter (· ≠ pgid) }
  | event =>
    match s.jobs[refOf event]? with
    | some g => s.stepJob envs (refOf event) g event
    | none => none

/-- No signal has reached a group of another job or of no job. -/
def SignalsOwn (s : ProcessGroups) : Prop :=
  ∀ sent ∈ s.sent, ∀ owner, sent.reached = some owner → owner = .job sent.meant

/-- Where `cancel`, the thread that it spawns or `close` sends a signal, the group of the job is still
there: its leader has not been reaped, or a process of it is left. -/
def groupHeld (s : ProcessGroups) : GroupEvent → Bool
  | .cancel ref _ | .close ref => (s.jobs[ref]?).all fun g => !g.isSignalled || g.isHeld
  | .graceOver ref => (s.jobs[ref]?).all fun g => g.isHeld
  | _ => true

/-! ### Owners -/

variable {envs : ℕ → JobEnvironment} {s s' : ProcessGroups} {e : GroupEvent} {ref pid pgid : ℕ}
  {g : JobGroup}

/-- No job still has a number that has no owner. -/
lemma not_holds_of_owner (h : s.owner pgid = none) : ∀ g ∈ s.jobs, g.holds pgid = false := by
  rw [owner] at h
  split at h
  · cases h
  · rename_i hnone
    exact List.findIdx?_eq_none_iff.mp hnone

/-- Two jobs do not have one number at the same time. -/
def Distinct (s : ProcessGroups) : Prop :=
  ∀ (i j : ℕ) (g g' : JobGroup) (pgid : ℕ), s.jobs[i]? = some g → s.jobs[j]? = some g' → g.holds pgid = true →
    g'.holds pgid = true → i = j

/-- The number of a group that is held is that of its job. -/
lemma owner_of_held (h : s.Distinct) (hg : s.jobs[ref]? = some g) (hheld : g.isHeld = true)
    (hpid : g.job.pid = some pid) : s.owner pid = some (.job ref) := by
  have hholds : g.holds pid = true := by
    rw [JobGroup.holds, hheld, hpid, decide_eq_true rfl]
    rfl
  cases hfound : s.jobs.findIdx? (JobGroup.holds pid) with
  | none =>
    have hnone := List.findIdx?_eq_none_iff.mp hfound g (List.mem_of_getElem? hg)
    rw [hholds] at hnone
    cases hnone
  | some i =>
    obtain ⟨hlt, hi, -⟩ := List.findIdx?_eq_some_iff_getElem.mp hfound
    obtain rfl : i = ref := h i ref _ g pid (List.getElem?_eq_getElem hlt) hg hi hholds
    rw [owner, hfound]

/-! ### Steps -/

/-- What a step does to its job: the number stays, a group that is gone does not come back, and a leader
is reaped by the last poll of the wait thread. -/
structure Keeps (g g' : JobGroup) : Prop where
  pid_eq : g'.job.pid = g.job.pid
  held : g'.isHeld = true → g.isHeld = true
  waiting : g'.thread.pc.isFinal = false →
    g.thread.pc.isFinal = false ∧ (g.leader ≠ .reaped → g'.leader ≠ .reaped)

/-- A signal for a job whose group is held, or whose leader is not yet reaped. -/
structure Sends (s : ProcessGroups) (ref : ℕ) (g : JobGroup) (sent : SentSignal) : Prop where
  meant_eq : sent.meant = ref
  reached_eq : ∃ pid, g.job.pid = some pid ∧ sent.reached = s.owner pid
  held : g.isHeld = true ∨ g.thread.pc.isFinal = false

/-- What a step can do. -/
inductive Moves (s s' : ProcessGroups) : Prop
  | start (spec : StartSpec) (createdAt pid startedAt : ℕ) (howner : s.owner pid = none)
      (hs : s' = { s with
        jobs := s.jobs ++ [.launched s.jobs.length spec createdAt pid startedAt] })
  | others (hjobs : s'.jobs = s.jobs) (hsent : s'.sent = s.sent)
  | job {ref : ℕ} {g : JobGroup} {f : JobGroup → JobGroup} {sent : List SentSignal}
      (hg : s.jobs[ref]? = some g) (hjobs : s'.jobs = s.jobs.modify ref f)
      (hsent : s'.sent = s.sent ++ sent) (hkeeps : Keeps g (f g))
      (hsends : ∀ x ∈ sent, Sends s ref g x)

lemma Keeps.refl (g : JobGroup) : Keeps g g := ⟨rfl, id, fun h => ⟨h, id⟩⟩

/-- Only what does not matter here has changed. -/
lemma Keeps.of_eq {g' : JobGroup} (hpid : g'.job.pid = g.job.pid) (hthread : g'.thread = g.thread)
    (hleader : g'.leader = g.leader) (hmembers : g'.members = g.members) : Keeps g g' where
  pid_eq := hpid
  held := by
    rw [JobGroup.isHeld, JobGroup.isHeld, hleader, hmembers]
    exact id
  waiting := by
    rw [hthread, hleader]
    exact fun h => ⟨h, id⟩

/-- The thread stops waiting where it has reaped the leader. -/
lemma isFinal_of_reaps {env : JobEnvironment} (h : g.reaps env = true) :
    (g.thread.step env).pc.isFinal = true := by
  rw [WaitThread.step]
  simp only [JobGroup.reaps] at h
  split at h
  · rename_i hpc
    rw [hpc]
    simp only
    split at h
    · rename_i status hanswer
      rw [hanswer]
      rfl
    · cases h
  · rename_i left hpc
    rw [hpc]
    simp only
    split at h
    · rename_i status hanswer
      rw [hanswer]
      rfl
    · cases h
  · rename_i hpc
    rw [hpc]
    rfl
  · cases h

/-- A thread that has stopped waiting does not begin again. -/
lemma isFinal_of_step {env : JobEnvironment} {t : WaitThread} (h : (t.step env).pc.isFinal = false) :
    t.pc.isFinal = false := by
  cases WaitThread.step_moves env t with
  | quiet _ _ _ _ hfinal =>
    rw [← Bool.not_eq_true]
    intro hpc
    rw [hfinal hpc] at h
    cases h
  | expires _ hpc => rw [hpc]; rfl
  | polls _ _ hpc => rw [hpc]; rfl
  | reaps _ _ hpc => rw [hpc]; rfl
  | kills _ _ hpc => rw [hpc]; rfl

/-- The wait thread sends its signals before it has reaped the leader. -/
lemma isFinal_of_waitSignals {env : JobEnvironment} {signal : Signal} (h : signal ∈ g.waitSignals env) :
    g.thread.pc.isFinal = false := by
  have hsame : (g.thread.step env).signals = g.thread.signals → False := by
    intro hsignals
    rw [JobGroup.waitSignals, hsignals, List.drop_length] at h
    cases h
  cases WaitThread.step_moves env g.thread with
  | quiet hsignals => exact (hsame hsignals).elim
  | expires _ hpc => rw [hpc]; rfl
  | polls hsignals => exact (hsame hsignals).elim
  | reaps hsignals => exact (hsame hsignals).elim
  | kills _ _ hpc => rw [hpc]; rfl

lemma Keeps.wait (env : JobEnvironment) (g : JobGroup) : Keeps g (g.wait env) where
  pid_eq := rfl
  held := by
    simp only [JobGroup.isHeld, JobGroup.wait, Bool.or_eq_true]
    split_ifs
    · exact fun h => Or.inr (h.resolve_left (by decide))
    · exact id
  waiting := by
    intro h
    have hreaps : ¬g.reaps env = true := by
      intro hreaps
      rw [show (g.wait env).thread = g.thread.step env from rfl, isFinal_of_reaps hreaps] at h
      cases h
    refine ⟨isFinal_of_step h, fun hleader => ?_⟩
    rw [JobGroup.wait, if_neg hreaps]
    exact hleader

/-- A signal of a job that has a number. -/
lemma signalGroup_moves (ref : ℕ) (signal : Signal) (hheld : g.isHeld = true ∨ g.thread.pc.isFinal = false) :
    ∃ sent, s.signalGroup ref g signal = { s with sent := s.sent ++ sent } ∧
      ∀ x ∈ sent, Sends s ref g x := by
  rw [signalGroup]
  split
  · rename_i pid hpid
    refine ⟨[⟨ref, signal, s.owner pid⟩], rfl, ?_⟩
    intro x hx
    obtain rfl := List.mem_singleton.mp hx
    exact ⟨rfl, ⟨pid, hpid, rfl⟩, hheld⟩
  · exact ⟨[], by rw [List.append_nil], fun x hx => absurd hx List.not_mem_nil⟩

/-- The signals of a step of the wait thread. -/
lemma signalGroups_moves (ref : ℕ) (signals : List Signal)
    (hheld : ∀ signal ∈ signals, g.isHeld = true ∨ g.thread.pc.isFinal = false) :
    ∃ sent, signals.foldl (fun s signal => s.signalGroup ref g signal) s =
        { s with sent := s.sent ++ sent } ∧ ∀ x ∈ sent, Sends s ref g x := by
  induction signals generalizing s with
  | nil => exact ⟨[], by rw [List.append_nil]; rfl, fun x hx => absurd hx List.not_mem_nil⟩
  | cons signal signals ih =>
    obtain ⟨sent, hs, hsends⟩ :=
      signalGroup_moves (s := s) ref signal (hheld signal List.mem_cons_self)
    obtain ⟨sent', hs', hsends'⟩ := ih (s := { s with sent := s.sent ++ sent })
      fun signal' hin => hheld signal' (List.mem_cons_of_mem _ hin)
    refine ⟨sent ++ sent', ?_, fun x hx => ?_⟩
    · rw [List.foldl_cons, hs, hs', List.append_assoc]
    · rcases List.mem_append.mp hx with hx | hx
      · exact hsends x hx
      · obtain ⟨hmeant, hreached, hheld'⟩ := hsends' x hx
        exact ⟨hmeant, hreached, hheld'⟩

/-- What a step of a job can do. -/
lemma stepJob_moves (hg : s.jobs[ref]? = some g) (href : refOf e = ref)
    (hallowed : s.groupHeld e = true) (hs : s.stepJob envs ref g e = some s') : Moves s s' := by
  cases e with
  | start => cases hs
  | openGroup => cases hs
  | closeGroup => cases hs
  | fork ref' =>
    simp only [stepJob] at hs
    split_ifs at hs with halive
    obtain rfl := Option.some_inj.mp hs
    refine .job hg rfl (List.append_nil _).symm ⟨rfl, fun _ => ?_, fun h => ⟨h, id⟩⟩
      fun x hx => absurd hx List.not_mem_nil
    simp only [JobGroup.isHeld, Bool.or_eq_true, decide_eq_true_eq]
    rcases halive with hrunning | hmembers
    · exact Or.inl (by rw [hrunning]; decide)
    · exact Or.inr hmembers
  | exit ref' =>
    simp only [stepJob] at hs
    split_ifs at hs with hmembers
    obtain rfl := Option.some_inj.mp hs
    refine .job hg rfl (List.append_nil _).symm ⟨rfl, fun _ => ?_, fun h => ⟨h, id⟩⟩
      fun x hx => absurd hx List.not_mem_nil
    simp only [JobGroup.isHeld, Bool.or_eq_true, decide_eq_true_eq]
    exact Or.inr hmembers
  | leaderExit ref' =>
    simp only [stepJob] at hs
    split_ifs at hs with hrunning
    obtain rfl := Option.some_inj.mp hs
    refine .job hg rfl (List.append_nil _).symm ⟨rfl, fun _ => ?_, fun h => ⟨h, fun _ => by simp⟩⟩
      fun x hx => absurd hx List.not_mem_nil
    rw [JobGroup.isHeld, hrunning]
    rfl
  | wait ref' =>
    simp only [stepJob] at hs
    split_ifs at hs
    obtain rfl := Option.some_inj.mp hs
    obtain ⟨sent, hsent, hsends⟩ := signalGroups_moves (s := s) (g := g) ref
      (g.waitSignals (envs ref)) fun signal hin => Or.inr (isFinal_of_waitSignals hin)
    rw [hsent]
    exact .job hg rfl rfl (Keeps.wait (envs ref) g) hsends
  | decide ref' =>
    simp only [stepJob] at hs
    split_ifs at hs
    obtain rfl := Option.some_inj.mp hs
    exact .job hg rfl (List.append_nil _).symm (Keeps.of_eq rfl rfl rfl rfl)
      fun x hx => absurd hx List.not_mem_nil
  | publish ref' now =>
    simp only [stepJob] at hs
    split at hs
    · obtain rfl := Option.some_inj.mp hs
      exact .job hg rfl (List.append_nil _).symm (Keeps.of_eq rfl rfl rfl rfl)
        fun x hx => absurd hx List.not_mem_nil
    · cases hs
  | cancel ref' appended =>
    obtain rfl : ref' = ref := href
    simp only [groupHeld, hg, Option.all_some, Bool.or_eq_true] at hallowed
    simp only [stepJob] at hs
    split_ifs at hs with hsignalled
    · obtain rfl := Option.some_inj.mp hs
      obtain ⟨sent, hsent, hsends⟩ := signalGroup_moves (s := s) (g := g) ref' .term
        (Or.inl (hallowed.resolve_left (by rw [hsignalled]; decide)))
      rw [hsent]
      exact .job hg rfl rfl (Keeps.of_eq rfl rfl rfl rfl) hsends
    · obtain rfl := Option.some_inj.mp hs
      exact .others rfl rfl
  | graceOver ref' =>
    obtain rfl : ref' = ref := href
    simp only [groupHeld, hg, Option.all_some] at hallowed
    simp only [stepJob] at hs
    split_ifs at hs
    obtain rfl := Option.some_inj.mp hs
    obtain ⟨sent, hsent, hsends⟩ := signalGroup_moves (s := s) (g := g) ref' .kill (Or.inl hallowed)
    rw [hsent]
    exact .job hg rfl rfl (Keeps.of_eq rfl rfl rfl rfl) hsends
  | close ref' =>
    obtain rfl : ref' = ref := href
    simp only [groupHeld, hg, Option.all_some, Bool.or_eq_true] at hallowed
    simp only [stepJob] at hs
    split_ifs at hs with hsignalled
    · obtain rfl := Option.some_inj.mp hs
      obtain ⟨sent, hsent, hsends⟩ := signalGroup_moves (s := s) (g := g) ref' .kill
        (Or.inl (hallowed.resolve_left (by rw [hsignalled]; decide)))
      rw [hsent]
      exact .job hg (by rw [List.modify_id]) rfl (Keeps.refl g) hsends
    · obtain rfl := Option.some_inj.mp hs
      exact .others rfl rfl

lemma step_moves (hallowed : s.groupHeld e = true) (hs : s.step envs e = some s') : Moves s s' := by
  have hjob : ∀ ref, refOf e = ref → (match s.jobs[ref]? with
      | some g => s.stepJob envs ref g e
      | none => none) = some s' → Moves s s' := by
    intro ref href hmatch
    split at hmatch
    · rename_i g hg
      exact stepJob_moves hg href hallowed hmatch
    · cases hmatch
  cases e with
  | start spec createdAt pid startedAt =>
    simp only [step] at hs
    split_ifs at hs with howner
    exact .start spec createdAt pid startedAt howner (Option.some_inj.mp hs).symm
  | openGroup pgid =>
    simp only [step] at hs
    split_ifs at hs
    obtain rfl := Option.some_inj.mp hs
    exact .others rfl rfl
  | closeGroup pgid =>
    obtain rfl := Option.some_inj.mp hs
    exact .others rfl rfl
  | fork ref => exact hjob ref rfl hs
  | exit ref => exact hjob ref rfl hs
  | leaderExit ref => exact hjob ref rfl hs
  | wait ref => exact hjob ref rfl hs
  | decide ref => exact hjob ref rfl hs
  | publish ref now => exact hjob ref rfl hs
  | cancel ref appended => exact hjob ref rfl hs
  | graceOver ref => exact hjob ref rfl hs
  | close ref => exact hjob ref rfl hs

/-! ### The invariant -/

/-- What holds in every run whose signals are for groups that are held. -/
structure Inv (s : ProcessGroups) : Prop where
  distinct : s.Distinct
  waiting : ∀ (i : ℕ) (g : JobGroup), s.jobs[i]? = some g → g.thread.pc.isFinal = false →
    g.leader ≠ .reaped
  own : s.SignalsOwn

lemma Inv.initial : Inv initial where
  distinct := by
    intro i j g g' pgid hg
    simp [ProcessGroups.initial] at hg
  waiting := by
    intro i g hg
    simp [ProcessGroups.initial] at hg
  own := fun sent hsent => absurd hsent List.not_mem_nil

/-- The jobs of a step of one of them come from the jobs before. -/
lemma exists_of_modify {f : JobGroup → JobGroup} {i : ℕ} {g' : JobGroup} (hg : s.jobs[ref]? = some g)
    (hkeeps : Keeps g (f g)) (hi : (s.jobs.modify ref f)[i]? = some g') :
    ∃ g₀, s.jobs[i]? = some g₀ ∧ Keeps g₀ g' := by
  rw [List.getElem?_modify] at hi
  obtain ⟨g₀, hg₀, hsame⟩ := Option.map_eq_some_iff.mp hi
  refine ⟨g₀, hg₀, ?_⟩
  split_ifs at hsame with href
  · obtain rfl : ref = i := href
    obtain rfl := Option.some_inj.mp (hg.symm.trans hg₀)
    rw [← hsame]
    exact hkeeps
  · rw [← hsame]
    exact Keeps.refl g₀

lemma Keeps.holds {g' : JobGroup} (h : Keeps g g') (hholds : g'.holds pgid = true) :
    g.holds pgid = true := by
  rw [JobGroup.holds, Bool.and_eq_true, h.pid_eq] at hholds
  rw [JobGroup.holds, Bool.and_eq_true]
  exact ⟨h.held hholds.1, hholds.2⟩

/-- A new job is apart from the others. -/
lemma Inv.start (h : Inv s) {spec : StartSpec} {createdAt pid startedAt : ℕ}
    (howner : s.owner pid = none) :
    Inv { s with jobs := s.jobs ++ [.launched s.jobs.length spec createdAt pid startedAt] } where
  distinct := by
    have hnew : ∀ (i : ℕ) (g : JobGroup) (pgid : ℕ), s.jobs[i]? = some g → g.holds pgid = true →
        (JobGroup.launched s.jobs.length spec createdAt pid startedAt).holds pgid = true → False := by
      intro i g pgid hg hholds hlaunched
      simp only [JobGroup.holds, Bool.and_eq_true, decide_eq_true_eq] at hlaunched
      obtain rfl : pid = pgid := Option.some_inj.mp hlaunched.2
      rw [not_holds_of_owner howner g (List.mem_of_getElem? hg)] at hholds
      cases hholds
    intro i j g g' pgid hg hg' hholds hholds'
    rcases Table.getElem?_concat_cases hg with hg | ⟨hi, rfl⟩
    · rcases Table.getElem?_concat_cases hg' with hg' | ⟨hj, rfl⟩
      · exact h.distinct i j g g' pgid hg hg' hholds hholds'
      · exact (hnew i g pgid hg hholds hholds').elim
    · rcases Table.getElem?_concat_cases hg' with hg' | ⟨hj, rfl⟩
      · exact (hnew j g' pgid hg' hholds' hholds).elim
      · rw [hi, hj]
  waiting := by
    intro i g hg hpc
    rcases Table.getElem?_concat_cases hg with hg | ⟨hi, rfl⟩
    · exact h.waiting i g hg hpc
    · simp [JobGroup.launched]
  own := h.own

/-- A step of one job. -/
lemma Inv.job {f : JobGroup → JobGroup} {sent : List SentSignal} (h : Inv s)
    (hg : s.jobs[ref]? = some g) (hjobs : s'.jobs = s.jobs.modify ref f)
    (hsent : s'.sent = s.sent ++ sent) (hkeeps : Keeps g (f g)) (hsends : ∀ x ∈ sent, Sends s ref g x) :
    Inv s' where
  distinct := by
    intro i j g₁ g₂ pgid hi hj hholds hholds'
    rw [hjobs] at hi hj
    obtain ⟨g₁', hi', hkeeps₁⟩ := exists_of_modify hg hkeeps hi
    obtain ⟨g₂', hj', hkeeps₂⟩ := exists_of_modify hg hkeeps hj
    exact h.distinct i j g₁' g₂' pgid hi' hj' (hkeeps₁.holds hholds) (hkeeps₂.holds hholds')
  waiting := by
    intro i g' hi hpc
    rw [hjobs] at hi
    obtain ⟨g₀, hi', hkeeps₀⟩ := exists_of_modify hg hkeeps hi
    obtain ⟨hpc₀, hleader⟩ := hkeeps₀.waiting hpc
    exact hleader (h.waiting i g₀ hi' hpc₀)
  own := by
    intro x hx o howner
    rw [hsent] at hx
    rcases List.mem_append.mp hx with hx | hx
    · exact h.own x hx o howner
    · obtain ⟨hmeant, ⟨pid, hpid, hreached⟩, hheld⟩ := hsends x hx
      -- a leader that is not yet reaped keeps its group
      have hgroup : g.isHeld = true := by
        refine hheld.elim id fun hpc => ?_
        rw [JobGroup.isHeld, decide_eq_true (h.waiting ref g hg hpc)]
        rfl
      rw [hreached, owner_of_held h.distinct hg hgroup hpid] at howner
      rw [hmeant]
      exact (Option.some_inj.mp howner).symm

lemma Inv.step (h : Inv s) (hallowed : s.groupHeld e = true) (hs : s.step envs e = some s') :
    Inv s' := by
  cases step_moves hallowed hs with
  | start spec createdAt pid startedAt howner hs' =>
    rw [hs']
    exact h.start howner
  | others hjobs hsent =>
    refine ⟨?_, ?_, ?_⟩
    · rw [Distinct, hjobs]
      exact h.distinct
    · rw [hjobs]
      exact h.waiting
    · rw [SignalsOwn, hsent]
      exact h.own
  | job hg hjobs hsent hkeeps hsends => exact h.job hg hjobs hsent hkeeps hsends

/-- In a run in which `cancel`, the threads that it spawns and `close` send their signals while the group
of their job is held, every signal reaches the group of the job that it is meant for. -/
theorem signalsOwn_of_groupHeld (envs : ℕ → JobEnvironment) (s : ProcessGroups)
    (h : Transition.Leads (step envs) (fun s e => s.groupHeld e = true) initial s) :
    s.SignalsOwn :=
  (Transition.Leads.invariant Inv h Inv.initial fun _ _ _ ht hallowed hs => ht.step hallowed hs).own

/-- `cancel` before the leader exits, and its thread while a child is left. -/
theorem signalsOwn_of_groupHeld_child : ∃ s : ProcessGroups, s.SignalsOwn ∧
    s.sent = [⟨0, .term, some (.job 0)⟩, ⟨0, .kill, some (.job 0)⟩] := by
  have hrun : ∃ s, Transition.exec (Transition.guard (step fun _ => JobProcesses.termEnvironment)
      groupHeld) initial
      [.start JobProcesses.makeSpec 0 100 0, .fork 0, .cancel 0 [], .leaderExit 0, .graceOver 0] =
        some s ∧ s.sent = [⟨0, .term, some (.job 0)⟩, ⟨0, .kill, some (.job 0)⟩] := ⟨_, rfl, rfl⟩
  obtain ⟨s, hs, hsent⟩ := hrun
  exact ⟨s, signalsOwn_of_groupHeld _ s (Transition.leads_of_exec_guard hs), hsent⟩

lemma exitClock_sleep (n : ℕ) : 10 * n + 10 ≤ 10 * (n + 1) := by omega

/-- The leader is gone at the first poll. -/
def exitEnvironment : JobEnvironment where
  timeoutMs := 1000
  startedAt := 0
  stdout := fun _ => .wouldBlock
  stderr := fun _ => .wouldBlock
  waitpid := fun _ => .reaped 15
  killedStatus := 9
  clock := fun n => 10 * n
  clock_sleep := exitClock_sleep

/-- A job is cancelled and ends at once, and the next job gets its number before the grace period is
over. -/
def reuseEvents : List GroupEvent :=
  [.start JobProcesses.makeSpec 0 100 0, .cancel 0 [], .leaderExit 0, .wait 0, .wait 0, .wait 0, .wait 0,
    .wait 0, .decide 0, .publish 0 20, .start JobProcesses.makeSpec 30 100 30, .graceOver 0]

/-- The SIGKILL of a cancelled job reaches the next one. -/
theorem not_signalsOwn : ¬∀ (envs : ℕ → JobEnvironment) (s : ProcessGroups),
    Transition.Leads (step envs) Transition.anyStep initial s → s.SignalsOwn := by
  intro h
  have hrun : ∃ s, Transition.exec (step fun _ => exitEnvironment) initial reuseEvents = some s ∧
      s.sent = [⟨0, .term, some (.job 0)⟩, ⟨0, .kill, some (.job 1)⟩] := ⟨_, rfl, rfl⟩
  obtain ⟨s, hs, hsent⟩ := hrun
  have hown := h _ s (Transition.leads_of_exec hs) ⟨0, .kill, some (.job 1)⟩ (by rw [hsent]; simp) _ rfl
  cases hown

end ProcessGroups

end Bloom
