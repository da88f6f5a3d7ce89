import BloomWorkspaces.Guest.JobEngine
import BloomWorkspaces.Guest.WaitLoop

/-!
# The processes of a job

The process group of a job next to its wait thread, to `cancel` and to the thread that `cancel` spawns.
The members fork and exit as they like, whatever signals they get. The wait thread looks at the leader
alone, so the others outlive a job that has timed out if the leader is gone before SIGKILL.
-/

namespace Bloom

/-- A member of the process group, with the signals that `signal_group` has sent to it. -/
structure GroupProcess where
  exited : Bool
  termSent : Bool
  killSent : Bool
  deriving DecidableEq, Repr

namespace GroupProcess

def forked : GroupProcess := ⟨false, false, false⟩

def signal : Signal → GroupProcess → GroupProcess
  | .term, p => { p with termSent := true }
  | .kill, p => { p with killSent := true }

def exit (p : GroupProcess) : GroupProcess := { p with exited := true }

/-- The process has exited or has been sent SIGKILL. -/
def isSettled (p : GroupProcess) : Bool := p.exited || p.killSent

@[simp] lemma isSettled_kill (p : GroupProcess) : (signal .kill p).isSettled = true := by
  simp [isSettled, signal]

@[simp] lemma isSettled_term (p : GroupProcess) : (signal .term p).isSettled = p.isSettled := rfl

@[simp] lemma isSettled_exit (p : GroupProcess) : p.exit.isSettled = true := by
  simp [isSettled, exit]

end GroupProcess

/-- The sleep of the thread that `cancel` spawns. -/
inductive GracePeriod
  | notStarted
  | running
  | elapsed
  deriving DecidableEq, Repr

/-- The leader is the first process of the group. -/
structure JobProcesses where
  job : Job
  thread : WaitThread
  group : List GroupProcess
  grace : GracePeriod

namespace JobProcesses

def launched (ref : ℕ) (spec : StartSpec) (createdAt pid startedAt : ℕ) : JobProcesses where
  job := { JobEngine.spawnedJob ref spec createdAt pid startedAt with waiter := .waiting }
  thread := .initial
  group := [.forked]
  grace := .notStarted

end JobProcesses

inductive ProcessEvent
  | fork (parent : ℕ)
  | exit (member : ℕ)
  | wait
  | decide
  | publish (now : ℕ)
  | cancel (appended : List UInt8)
  | graceOver

namespace JobProcesses

/-- `signal_group` -/
def signalGroup (signal : Signal) (group : List GroupProcess) : List GroupProcess :=
  group.map (GroupProcess.signal signal)

def leaderExited (s : JobProcesses) : Bool := s.group.head?.any (·.exited)

/-- The kernel answers a `waitpid` on the leader by what has become of it; the call may also fail. -/
def answers (env : JobEnvironment) (s : JobProcesses) : Bool :=
  match s.thread.pc with
  | .waitpid | .grace (_ + 1) =>
    match env.waitpid s.thread.waitpids with
    | .running => !s.leaderExited
    | .reaped _ => s.leaderExited
    | .failed => true
  | _ => true

/-- The group after a step of the wait thread; the `waitpid` behind SIGKILL returns once the leader has
exited. -/
def groupAfter (s : JobProcesses) (thread : WaitThread) : List GroupProcess :=
  let signalled := (thread.signals.drop s.thread.signals.length).foldl
    (fun group signal => signalGroup signal group) s.group
  if s.thread.pc = .grace 0 then signalled.modify 0 GroupProcess.exit else signalled

/-- `cancel` under the lock of the job. -/
def cancel (appended : List UInt8) (s : JobProcesses) : JobProcesses :=
  if s.job.state.isTerminal ∨ s.job.pid = none then s
  else
    { s with
      job := JobEngine.requestCancel appended s.job
      group := signalGroup .term s.group
      grace := if s.job.cancelRequested then s.grace else .running }

/-- A process that has been sent SIGKILL does not return from `fork`. -/
def step (env : JobEnvironment) (s : JobProcesses) : ProcessEvent → Option JobProcesses
  | .fork parent =>
    match s.group[parent]? with
    | some p => if p.isSettled then none else some { s with group := s.group ++ [.forked] }
    | none => none
  | .exit member => some { s with group := s.group.modify member GroupProcess.exit }
  | .wait =>
    if s.thread.pc = .finished ∨ s.answers env = false then none
    else
      some { s with thread := s.thread.step env, group := s.groupAfter (s.thread.step env) }
  | .decide =>
    if s.thread.pc = .finished ∧ s.job.waiter = .waiting then
      some { s with job := { s.job with
        waiter := .deciding (jobOutcome s.thread.timedOut s.job.cancelRequested s.thread.status) } }
    else none
  | .publish now =>
    match s.job.waiter with
    | .deciding outcome => some { s with job := JobEngine.finishJob s.job outcome now }
    | _ => none
  | .cancel appended => some (s.cancel appended)
  | .graceOver =>
    if s.grace = .running then
      some { s with
        group := if s.job.pid.isSome then signalGroup .kill s.group else s.group
        grace := .elapsed }
    else none

/-- Every process of the group has exited or has been sent SIGKILL. -/
def Settled (s : JobProcesses) : Prop := ∀ p ∈ s.group, p.isSettled = true

/-- A job that has timed out leaves no process behind, and a job that was cancelled leaves none once the grace
period is over, which has begun. -/
structure Contained (s : JobProcesses) : Prop where
  timedOut : s.job.state = .timedOut → s.Settled
  cancelled : s.job.state = .cancelled → s.grace ≠ .notStarted ∧ (s.grace = .elapsed → s.Settled)

/-- When a poll behind SIGTERM finds the leader gone and no one has asked for `cancel`, the others are gone
as well or have been sent SIGKILL. -/
def leaderLast (env : JobEnvironment) (s : JobProcesses) : ProcessEvent → Bool
  | .wait =>
    match s.thread.pc with
    | .grace (_ + 1) =>
      env.waitpid s.thread.waitpids = .running || s.job.cancelRequested || s.group.all (·.isSettled)
    | _ => true
  | _ => true

end JobProcesses

/-! ### The wait thread -/

namespace Pc

def isGrace : Pc → Bool
  | .grace _ => true
  | _ => false

/-- The leader is known to be gone. -/
def isFinal : Pc → Bool
  | .finalStdout | .finalStderr | .finished => true
  | _ => false

end Pc

namespace WaitThread

variable {env : JobEnvironment} {t : WaitThread}

lemma readStdout_cases (env : JobEnvironment) (next : Pc) (t : WaitThread) :
    ((t.readStdout env next).pc = t.pc ∨ (t.readStdout env next).pc = next) ∧
      (t.readStdout env next).signals = t.signals ∧
      (t.readStdout env next).timedOut = t.timedOut := by
  rw [readStdout]
  split
  · exact ⟨Or.inl rfl, rfl, rfl⟩
  all_goals exact ⟨Or.inr rfl, rfl, rfl⟩

lemma readStderr_cases (env : JobEnvironment) (next : Pc) (t : WaitThread) :
    ((t.readStderr env next).pc = t.pc ∨ (t.readStderr env next).pc = next) ∧
      (t.readStderr env next).signals = t.signals ∧
      (t.readStderr env next).timedOut = t.timedOut := by
  rw [readStderr]
  split
  · exact ⟨Or.inl rfl, rfl, rfl⟩
  all_goals exact ⟨Or.inr rfl, rfl, rfl⟩

/-- What a step does to the signals and to the phase of the thread. -/
inductive Moves (env : JobEnvironment) (t t' : WaitThread) : Prop
  | quiet (hsignals : t'.signals = t.signals) (htimed : t'.timedOut = t.timedOut)
      (hgrace : t.pc.isGrace = false) (hgrace' : t'.pc.isGrace = false)
      (hfinal : t.pc.isFinal = true → t'.pc.isFinal = true)
  | expires (hsignals : t'.signals = t.signals ++ [.term]) (hpc : t.pc = .deadline)
      (hpc' : t'.pc.isGrace = true)
  | polls (hsignals : t'.signals = t.signals) (htimed : t'.timedOut = t.timedOut)
      {left : ℕ} (hpc : t.pc = .grace (left + 1)) (hpc' : t'.pc.isGrace = true)
  | reaps (hsignals : t'.signals = t.signals) (htimed : t'.timedOut = t.timedOut)
      {left : ℕ} (hpc : t.pc = .grace (left + 1)) (hanswer : env.waitpid t.waitpids ≠ .running)
      (hpc' : t'.pc = .finalStdout)
  | kills (hsignals : t'.signals = t.signals ++ [.kill]) (htimed : t'.timedOut = t.timedOut)
      (hpc : t.pc = .grace 0) (hpc' : t'.pc = .finalStdout)

lemma moves_of_cases {next : Pc} {t' : WaitThread}
    (h : (t'.pc = t.pc ∨ t'.pc = next) ∧ t'.signals = t.signals ∧ t'.timedOut = t.timedOut)
    (hgrace : t.pc.isGrace = false) (hnext : next.isGrace = false)
    (hfinal : t.pc.isFinal = true → next.isFinal = true) : Moves env t t' := by
  obtain ⟨hpc | hpc, hsignals, htimed⟩ := h
  · exact .quiet hsignals htimed hgrace (by rw [hpc, hgrace]) fun h => by rw [hpc, h]
  · exact .quiet hsignals htimed hgrace (by rw [hpc, hnext]) fun h => by rw [hpc, hfinal h]

lemma step_moves (env : JobEnvironment) (t : WaitThread) : Moves env t (step env t) := by
  rw [step]
  cases hpc : t.pc with
  | drainStdout => exact moves_of_cases (readStdout_cases env _ t) (by rw [hpc]; rfl) rfl (by simp [hpc, Pc.isFinal])
  | drainStderr => exact moves_of_cases (readStderr_cases env _ t) (by rw [hpc]; rfl) rfl (by simp [hpc, Pc.isFinal])
  | waitpid =>
    simp only
    split
    all_goals exact .quiet rfl rfl (by rw [hpc]; rfl) rfl (by simp [hpc, Pc.isFinal])
  | deadline =>
    simp only
    split_ifs
    · exact .expires rfl hpc rfl
    · exact .quiet rfl rfl (by rw [hpc]; rfl) rfl (by simp [hpc, Pc.isFinal])
  | sleep => exact .quiet rfl rfl (by rw [hpc]; rfl) rfl (by simp [hpc, Pc.isFinal])
  | grace left =>
    cases left with
    | zero => exact .kills rfl rfl hpc rfl
    | succ left =>
      simp only
      split
      · exact .polls rfl rfl hpc rfl
      · rename_i status hanswer
        exact .reaps rfl rfl hpc (by rw [hanswer]; simp) rfl
      · rename_i hanswer
        exact .reaps rfl rfl hpc (by rw [hanswer]; simp) rfl
  | finalStdout => exact moves_of_cases (readStdout_cases env _ t) (by rw [hpc]; rfl) rfl (fun _ => rfl)
  | finalStderr => exact moves_of_cases (readStderr_cases env _ t) (by rw [hpc]; rfl) rfl (fun _ => rfl)
  | finished => exact .quiet rfl rfl (by rw [hpc]; rfl) (by rw [hpc]; rfl) id

end WaitThread

namespace JobProcesses

variable {env : JobEnvironment} {s s' : JobProcesses} {e : ProcessEvent} {group : List GroupProcess}

/-! ### Settled groups -/

lemma settled_signalGroup (signal : Signal) (h : ∀ p ∈ group, p.isSettled = true) :
    ∀ p ∈ signalGroup signal group, p.isSettled = true := by
  intro p hp
  obtain ⟨q, hq, rfl⟩ := List.mem_map.mp hp
  cases signal with
  | term => exact h q hq
  | kill => exact GroupProcess.isSettled_kill q

lemma settled_kill (group : List GroupProcess) : ∀ p ∈ signalGroup .kill group, p.isSettled = true := by
  intro p hp
  obtain ⟨q, -, rfl⟩ := List.mem_map.mp hp
  exact GroupProcess.isSettled_kill q

lemma settled_modify (member : ℕ) (h : ∀ p ∈ group, p.isSettled = true) :
    ∀ p ∈ group.modify member GroupProcess.exit, p.isSettled = true := by
  intro p hp
  obtain ⟨i, hi⟩ := List.mem_iff_getElem?.mp hp
  rw [List.getElem?_modify] at hi
  obtain ⟨q, hq, hpq⟩ := Option.map_eq_some_iff.mp hi
  split_ifs at hpq
  · rw [← hpq]
    exact GroupProcess.isSettled_exit q
  · rw [← hpq]
    exact h q (List.mem_of_getElem? hq)

lemma groupAfter_same {t' : WaitThread} (hsignals : t'.signals = s.thread.signals)
    (hpc : s.thread.pc ≠ .grace 0) : s.groupAfter t' = s.group := by
  simp only [groupAfter, hsignals, List.drop_length, List.foldl_nil]
  exact if_neg hpc

lemma groupAfter_signal {t' : WaitThread} {signal : Signal}
    (hsignals : t'.signals = s.thread.signals ++ [signal]) :
    s.groupAfter t' = if s.thread.pc = .grace 0 then
      (signalGroup signal s.group).modify 0 GroupProcess.exit else signalGroup signal s.group := by
  simp only [groupAfter, hsignals, List.drop_left, List.foldl_cons, List.foldl_nil]

/-- A step of the wait thread keeps the group settled. -/
lemma settled_groupAfter {t' : WaitThread} (h : WaitThread.Moves env s.thread t') (hsettled : s.Settled) :
    ∀ p ∈ s.groupAfter t', p.isSettled = true := by
  cases h with
  | quiet hsignals _ hgrace =>
    rw [groupAfter_same hsignals fun hpc => by simp [hpc, Pc.isGrace] at hgrace]
    exact hsettled
  | expires hsignals hpc =>
    rw [groupAfter_signal hsignals, hpc]
    exact settled_signalGroup _ hsettled
  | polls hsignals _ hpc =>
    rw [groupAfter_same hsignals (by simp [hpc])]
    exact hsettled
  | reaps hsignals _ hpc =>
    rw [groupAfter_same hsignals (by simp [hpc])]
    exact hsettled
  | kills hsignals _ hpc =>
    rw [groupAfter_signal hsignals, if_pos hpc]
    exact settled_modify 0 (settled_kill s.group)

/-- A settled group stays settled: none of its processes can fork. -/
lemma Settled.step (h : s.Settled) (hs : s.step env e = some s') : s'.Settled := by
  cases e with
  | fork parent =>
    simp only [JobProcesses.step] at hs
    split at hs
    · rename_i p hp
      rw [if_pos (h p (List.mem_of_getElem? hp))] at hs
      cases hs
    · cases hs
  | exit member =>
    obtain rfl := Option.some_inj.mp hs
    exact settled_modify member h
  | wait =>
    simp only [JobProcesses.step] at hs
    split_ifs at hs
    obtain rfl := Option.some_inj.mp hs
    exact settled_groupAfter (WaitThread.step_moves env s.thread) h
  | decide =>
    simp only [JobProcesses.step] at hs
    split_ifs at hs
    obtain rfl := Option.some_inj.mp hs
    exact h
  | publish now =>
    simp only [JobProcesses.step] at hs
    split at hs
    · obtain rfl := Option.some_inj.mp hs
      exact h
    · cases hs
  | cancel appended =>
    obtain rfl := Option.some_inj.mp hs
    rw [cancel]
    split_ifs
    · exact h
    all_goals exact settled_signalGroup .term h
  | graceOver =>
    simp only [JobProcesses.step] at hs
    split_ifs at hs with hrunning hpid
    · obtain rfl := Option.some_inj.mp hs
      exact settled_kill s.group
    · obtain rfl := Option.some_inj.mp hs
      exact h

/-! ### What has been decided -/

/-- What holds of a job while its wait thread runs, and after. -/
structure Inv (s : JobProcesses) : Prop where
  spawned : s.job.pid.isSome = true
  elapsed : s.grace = .elapsed → s.Settled
  requested : s.job.cancelRequested = true → s.grace ≠ .notStarted
  expired : s.thread.timedOut = true → s.thread.pc.isGrace = true ∨
    s.thread.pc.isFinal = true ∧ (s.job.cancelRequested = true ∨ s.Settled)
  decided : ∀ outcome, s.job.waiter = .deciding outcome →
    (outcome.state = .timedOut → s.Settled) ∧ (outcome.state = .cancelled → s.job.cancelRequested = true)
  published : (s.job.state = .timedOut → s.Settled) ∧
    (s.job.state = .cancelled → s.job.cancelRequested = true)

lemma jobOutcome_timedOut {timedOut cancelRequested : Bool} {status : ℕ}
    (h : (jobOutcome timedOut cancelRequested status).state = .timedOut) :
    timedOut = true ∧ cancelRequested = false := by
  rw [jobOutcome] at h
  split_ifs at h with htimed
  simpa using htimed

lemma jobOutcome_cancelled {timedOut cancelRequested : Bool} {status : ℕ}
    (h : (jobOutcome timedOut cancelRequested status).state = .cancelled) : cancelRequested = true := by
  rw [jobOutcome] at h
  split_ifs at h with htimed hcancel
  exact hcancel

lemma Inv.launched (ref : ℕ) (spec : StartSpec) (createdAt pid startedAt : ℕ) :
    Inv (launched ref spec createdAt pid startedAt) where
  spawned := rfl
  elapsed := nofun
  requested := nofun
  expired := nofun
  decided := nofun
  published := ⟨nofun, nofun⟩

/-- Only the group has changed. -/
lemma Inv.of_group (h : Inv s) (hsettled : s.Settled → ∀ p ∈ group, p.isSettled = true) :
    Inv { s with group := group } where
  spawned := h.spawned
  elapsed := fun hover => hsettled (h.elapsed hover)
  requested := h.requested
  expired := fun htimed => (h.expired htimed).imp_right fun ⟨hfinal, hgone⟩ =>
    ⟨hfinal, hgone.imp_right hsettled⟩
  decided := fun outcome hdeciding =>
    ⟨fun htimed => hsettled ((h.decided outcome hdeciding).1 htimed), (h.decided outcome hdeciding).2⟩
  published := ⟨fun htimed => hsettled (h.published.1 htimed), h.published.2⟩

/-- A step of the wait thread. -/
lemma Inv.wait {t' : WaitThread} (h : Inv s) (hmoves : WaitThread.Moves env s.thread t')
    (hallowed : s.leaderLast env .wait = true) : Inv { s with thread := t', group := s.groupAfter t' } := by
  have hgroup := h.of_group (settled_groupAfter hmoves)
  refine { hgroup with expired := fun htimed => ?_ }
  cases hmoves with
  | quiet _ hsame hgrace _ hfinal =>
    rcases hgroup.expired (hsame ▸ htimed) with hpc | ⟨hpc, hgone⟩
    · exact absurd hpc (by rw [hgrace]; exact Bool.false_ne_true)
    · exact Or.inr ⟨hfinal hpc, hgone⟩
  | expires _ _ hpc' => exact Or.inl hpc'
  | polls _ _ _ hpc' => exact Or.inl hpc'
  | reaps hsignals _ hpc hanswer hpc' =>
    refine Or.inr ⟨by rw [hpc']; rfl, ?_⟩
    simp only [leaderLast, hpc, Bool.or_eq_true, decide_eq_true_eq, List.all_eq_true] at hallowed
    rcases hallowed with (hrunning | hcancel) | hall
    · exact absurd hrunning hanswer
    · exact Or.inl hcancel
    · refine Or.inr ?_
      have hsame : s.groupAfter t' = s.group := groupAfter_same hsignals (by simp [hpc])
      intro p hp
      exact hall p (hsame ▸ hp)
  | kills hsignals _ hpc hpc' =>
    refine Or.inr ⟨by rw [hpc']; rfl, Or.inr ?_⟩
    intro p hp
    simp only at hp
    rw [groupAfter_signal hsignals, if_pos hpc] at hp
    exact settled_modify 0 (settled_kill s.group) p hp

lemma Inv.cancel (h : Inv s) (appended : List UInt8) : Inv (s.cancel appended) := by
  rw [JobProcesses.cancel]
  split_ifs with hnot hrequested
  · exact h
  · exact { h.of_group (settled_signalGroup .term) with
      requested := fun _ => h.requested hrequested
      expired := fun htimed => (h.expired htimed).imp_right fun ⟨hfinal, _⟩ => ⟨hfinal, Or.inl rfl⟩
      decided := fun outcome hdeciding =>
        ⟨fun htimed => settled_signalGroup .term ((h.decided outcome hdeciding).1 htimed), fun _ => rfl⟩
      published := ⟨fun htimed => settled_signalGroup .term (h.published.1 htimed), fun _ => rfl⟩ }
  · exact { h.of_group (settled_signalGroup .term) with
      elapsed := nofun
      requested := fun _ => nofun
      expired := fun htimed => (h.expired htimed).imp_right fun ⟨hfinal, _⟩ => ⟨hfinal, Or.inl rfl⟩
      decided := fun outcome hdeciding =>
        ⟨fun htimed => settled_signalGroup .term ((h.decided outcome hdeciding).1 htimed), fun _ => rfl⟩
      published := ⟨fun htimed => settled_signalGroup .term (h.published.1 htimed), fun _ => rfl⟩ }

lemma Inv.step (h : Inv s) (hallowed : s.leaderLast env e = true) (hs : s.step env e = some s') :
    Inv s' := by
  have hsettled : s.Settled → s'.Settled := fun hset => hset.step hs
  cases e with
  | fork parent =>
    simp only [JobProcesses.step] at hs
    split at hs
    · split_ifs at hs
      obtain rfl := Option.some_inj.mp hs
      exact h.of_group hsettled
    · cases hs
  | exit member =>
    obtain rfl := Option.some_inj.mp hs
    exact h.of_group hsettled
  | wait =>
    simp only [JobProcesses.step] at hs
    split_ifs at hs
    obtain rfl := Option.some_inj.mp hs
    exact h.wait (WaitThread.step_moves env s.thread) hallowed
  | decide =>
    simp only [JobProcesses.step] at hs
    split_ifs at hs with hfinished
    obtain rfl := Option.some_inj.mp hs
    refine { h with decided := fun outcome hdeciding => ?_ }
    obtain rfl := Waiter.deciding.inj hdeciding
    refine ⟨fun htimed => ?_, jobOutcome_cancelled⟩
    obtain ⟨hexpired, hcancel⟩ := jobOutcome_timedOut htimed
    rcases h.expired hexpired with hgrace | ⟨-, hrequested | hgone⟩
    · rw [hfinished.1] at hgrace
      cases hgrace
    · rw [hcancel] at hrequested
      cases hrequested
    · exact hgone
  | publish now =>
    simp only [JobProcesses.step] at hs
    split at hs
    · rename_i outcome hdeciding
      obtain rfl := Option.some_inj.mp hs
      exact { h with decided := nofun, published := h.decided outcome hdeciding }
    · cases hs
  | cancel appended =>
    obtain rfl := Option.some_inj.mp hs
    exact h.cancel appended
  | graceOver =>
    simp only [JobProcesses.step] at hs
    rw [if_pos h.spawned] at hs
    split_ifs at hs with hrunning
    obtain rfl := Option.some_inj.mp hs
    exact { h.of_group fun _ => settled_kill s.group with
      elapsed := fun _ => settled_kill s.group
      requested := fun _ => nofun }

/-- In a run whose polls find the leader gone last, what has timed out is gone or killed, and so is what was
cancelled once the grace period is over. -/
theorem contained_of_leaderLast {ref createdAt pid startedAt : ℕ} {spec : StartSpec}
    (h : Transition.Leads (JobProcesses.step env) (fun s e => s.leaderLast env e = true)
      (launched ref spec createdAt pid startedAt) s) : Contained s := by
  have hinv : Inv s := Transition.Leads.invariant Inv h (Inv.launched ref spec createdAt pid startedAt)
    fun t e t' ht hallowed hs => ht.step hallowed hs
  exact ⟨hinv.published.1, fun hcancelled => ⟨hinv.requested (hinv.published.2 hcancelled), hinv.elapsed⟩⟩

/-! ### A leader that dies on SIGTERM -/

/-- The leader is gone at the first poll behind SIGTERM. -/
def termEnvironment : JobEnvironment where
  timeoutMs := 1000
  startedAt := 0
  stdout := fun _ => .wouldBlock
  stderr := fun _ => .wouldBlock
  waitpid := fun n => if n = 0 then .running else .reaped 15
  killedStatus := 9
  clock := fun n => 1000 + 10 * n
  clock_sleep := fun n => by omega

def makeSpec : StartSpec := ⟨"build", ["make"], ".", 1000, []⟩

/-- From the launch to SIGTERM, and from the death of the leader to the report. -/
def termEvents : List ProcessEvent :=
  [.wait, .wait, .wait, .wait, .exit 0, .wait, .wait, .wait, .decide, .publish 1020]

/-- A leader that only SIGKILL ends. -/
def killEnvironment : JobEnvironment := { termEnvironment with waitpid := fun _ => .running }

/-- A child is forked; the wait thread sends SIGTERM, polls a hundred times and sends SIGKILL. -/
def killEvents : List ProcessEvent :=
  .fork 0 :: List.replicate 107 .wait ++ [.decide, .publish 2100]

theorem contained_of_leaderLast_child : ∃ s, Contained s ∧ s.job.state = .timedOut ∧
    s.group = [⟨true, true, true⟩, ⟨false, true, true⟩] := by
  have hrun : ∃ s, Transition.exec (Transition.guard (JobProcesses.step killEnvironment)
      (leaderLast killEnvironment)) (launched 0 makeSpec 0 100 0) killEvents = some s ∧
      s.job.state = .timedOut ∧ s.group = [⟨true, true, true⟩, ⟨false, true, true⟩] := ⟨_, rfl, rfl, rfl⟩
  obtain ⟨s, hs, hend⟩ := hrun
  exact ⟨s, contained_of_leaderLast (Transition.leads_of_exec_guard hs), hend⟩

/-- A child that ignores SIGTERM outlives its job. -/
theorem not_contained_child : ¬∀ (env : JobEnvironment) (ref : ℕ) (spec : StartSpec)
    (createdAt pid startedAt : ℕ) (s : JobProcesses),
    Transition.Leads (JobProcesses.step env) Transition.anyStep
      (launched ref spec createdAt pid startedAt) s → Contained s := by
  intro h
  have hrun : ∃ s, Transition.exec (JobProcesses.step termEnvironment)
      (launched 0 makeSpec 0 100 0) (.fork 0 :: termEvents) = some s ∧
      s.job.state = .timedOut ∧ s.group = [⟨true, true, false⟩, ⟨false, true, false⟩] := ⟨_, rfl, rfl, rfl⟩
  obtain ⟨s, hs, hstate, hgroup⟩ := hrun
  have hsettled := (h termEnvironment 0 makeSpec 0 100 0 s (Transition.leads_of_exec hs)).timedOut hstate
  have hchild := hsettled ⟨false, true, false⟩ (by rw [hgroup]; simp)
  cases hchild

end JobProcesses

end Bloom
