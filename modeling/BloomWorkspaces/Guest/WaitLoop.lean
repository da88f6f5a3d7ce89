import BloomWorkspaces.Guest.Logs
import Mathlib.Logic.Function.Iterate
import Mathlib.Order.Basic
import Mathlib.Order.Nat

/-!
# The wait thread of a job

The thread that `JobEngine::start` spawns drains the pipes of the job, polls `waitpid` and compares
the clock with the deadline. Every system call is one step, and the answers of the kernel to the
successive calls are streams, so a job may behave in any way and a drain need not end.
-/

namespace Bloom

/-- The result of one `read`; `ok []` is the end of the file. -/
inductive ReadResult
  | ok (bytes : List UInt8)
  | wouldBlock
  | error
  deriving DecidableEq, Repr

/-- The drain loops go on after this result. -/
def ReadResult.hasData : ReadResult → Bool
  | ok bytes => bytes ≠ []
  | wouldBlock | error => false

inductive WaitResult
  | running
  | reaped (status : ℕ)
  | failed
  deriving DecidableEq, Repr

inductive Signal
  | term
  | kill
  deriving DecidableEq, Repr

/-- What the kernel answers to the `n`-th call of each kind. The clock is read once in each turn of the
loop, and between two turns the thread sleeps for 10 ms. -/
structure JobEnvironment where
  timeoutMs : ℕ
  startedAt : ℕ
  stdout : ℕ → ReadResult
  stderr : ℕ → ReadResult
  waitpid : ℕ → WaitResult
  killedStatus : ℕ
  clock : ℕ → ℕ
  clock_sleep : ∀ n, clock n + 10 ≤ clock (n + 1)

def JobEnvironment.deadline (env : JobEnvironment) : ℕ := env.startedAt + env.timeoutMs

/-- Where the thread is; `grace` counts the polls that are left after SIGTERM. -/
inductive Pc
  | drainStdout
  | drainStderr
  | waitpid
  | deadline
  | sleep
  | grace (left : ℕ)
  | finalStdout
  | finalStderr
  | finished
  deriving DecidableEq, Repr

structure WaitThread where
  pc : Pc
  stdoutReads : ℕ
  stderrReads : ℕ
  waitpids : ℕ
  checks : ℕ
  logs : LogRing
  status : ℕ
  timedOut : Bool
  signals : List Signal

namespace WaitThread

def initial : WaitThread := ⟨.drainStdout, 0, 0, 0, 0, .empty, 0, false, []⟩

/-- One `read` of `drain_nonblocking` or `drain_blocking` on stdout; `next` is where the loop exits. -/
def readStdout (env : JobEnvironment) (next : Pc) (t : WaitThread) : WaitThread :=
  match env.stdout t.stdoutReads with
  | .ok (byte :: bytes) =>
    { t with stdoutReads := t.stdoutReads + 1, logs := t.logs.append (byte :: bytes) }
  | .ok [] | .wouldBlock | .error => { t with stdoutReads := t.stdoutReads + 1, pc := next }

/-- The same on stderr. -/
def readStderr (env : JobEnvironment) (next : Pc) (t : WaitThread) : WaitThread :=
  match env.stderr t.stderrReads with
  | .ok (byte :: bytes) =>
    { t with stderrReads := t.stderrReads + 1, logs := t.logs.append (byte :: bytes) }
  | .ok [] | .wouldBlock | .error => { t with stderrReads := t.stderrReads + 1, pc := next }

def step (env : JobEnvironment) (t : WaitThread) : WaitThread :=
  match t.pc with
  | .drainStdout => t.readStdout env .drainStderr
  | .drainStderr => t.readStderr env .waitpid
  | .waitpid =>
    let polled := { t with waitpids := t.waitpids + 1 }
    match env.waitpid t.waitpids with
    | .running => { polled with pc := .deadline }
    | .reaped status => { polled with status := status, pc := .finalStdout }
    | .failed => { polled with status := 0, pc := .finalStdout }
  | .deadline =>
    let checked := { t with checks := t.checks + 1 }
    if env.deadline ≤ env.clock t.checks then
      { checked with timedOut := true, signals := t.signals ++ [.term], pc := .grace 100 }
    else { checked with pc := .sleep }
  | .sleep => { t with pc := .drainStdout }
  | .grace 0 =>
    { t with signals := t.signals ++ [.kill], status := env.killedStatus, pc := .finalStdout }
  | .grace (left + 1) =>
    let polled := { t with waitpids := t.waitpids + 1 }
    match env.waitpid t.waitpids with
    | .running => { polled with pc := .grace left }
    | .reaped status => { polled with status := status, pc := .finalStdout }
    | .failed => { polled with pc := .finalStdout }
  | .finalStdout => t.readStdout env .finalStderr
  | .finalStderr => t.readStderr env .finished
  | .finished => t

def run (env : JobEnvironment) (n : ℕ) : WaitThread := (step env)^[n] initial

/-- Some read from number `start` on returns no data. -/
def Drained (pipe : ℕ → ReadResult) (start : ℕ) : Prop := ∃ n, start ≤ n ∧ (pipe n).hasData = false

/-- Every iteration gets to `waitpid`, and to the deadline check where the job still runs; a job that
never exits gets SIGTERM at the first check that finds the deadline passed. -/
structure Prompt (env : JobEnvironment) : Prop where
  checks : ∀ n, (run env n).pc = .drainStdout → ∃ k, (run env (n + k)).pc = .waitpid ∧
    (env.waitpid (run env (n + k)).waitpids = .running → (run env (n + k + 1)).pc = .deadline)
  signalled : (∀ n, env.waitpid n = .running) → ∃ n, .term ∈ (run env n).signals ∧
    ∀ i, i + 1 < (run env n).checks → env.clock i < env.deadline

/-! ### Drains -/

variable {env : JobEnvironment} {t : WaitThread}

lemma run_add (env : JobEnvironment) (n k : ℕ) : run env (n + k) = (step env)^[k] (run env n) := by
  rw [run, run, Nat.add_comm, Function.iterate_add_apply]

lemma step_drainStdout (h : t.pc = .drainStdout) : step env t = t.readStdout env .drainStderr := by
  simp only [step, h]

lemma step_drainStderr (h : t.pc = .drainStderr) : step env t = t.readStderr env .waitpid := by
  simp only [step, h]

lemma readStdout_data {next : Pc} (h : (env.stdout t.stdoutReads).hasData = true) :
    ∃ logs, t.readStdout env next = { t with stdoutReads := t.stdoutReads + 1, logs := logs } := by
  unfold readStdout
  split
  · exact ⟨_, rfl⟩
  all_goals simp_all [ReadResult.hasData]

lemma readStdout_end {next : Pc} (h : (env.stdout t.stdoutReads).hasData = false) :
    t.readStdout env next = { t with stdoutReads := t.stdoutReads + 1, pc := next } := by
  unfold readStdout
  split
  · simp_all [ReadResult.hasData]
  all_goals rfl

lemma readStderr_data {next : Pc} (h : (env.stderr t.stderrReads).hasData = true) :
    ∃ logs, t.readStderr env next = { t with stderrReads := t.stderrReads + 1, logs := logs } := by
  unfold readStderr
  split
  · exact ⟨_, rfl⟩
  all_goals simp_all [ReadResult.hasData]

lemma readStderr_end {next : Pc} (h : (env.stderr t.stderrReads).hasData = false) :
    t.readStderr env next = { t with stderrReads := t.stderrReads + 1, pc := next } := by
  unfold readStderr
  split
  · simp_all [ReadResult.hasData]
  all_goals rfl

lemma Drained.of_le {pipe : ℕ → ReadResult} {m n : ℕ} (h : Drained pipe n) (hle : m ≤ n) :
    Drained pipe m := by
  obtain ⟨k, hk, hdata⟩ := h
  exact ⟨k, le_trans hle hk, hdata⟩

lemma drainStdout_ends (t : WaitThread) (hpc : t.pc = .drainStdout) (h : Drained env.stdout t.stdoutReads) :
    ∃ k reads logs, (step env)^[k] t =
      { t with pc := .drainStderr, stdoutReads := reads, logs := logs } := by
  obtain ⟨n, hn, hend⟩ := h
  -- induction on the number of reads up to the one that ends the drain
  induction hd : n - t.stdoutReads generalizing t with
  | zero =>
    obtain rfl : n = t.stdoutReads := by omega
    refine ⟨1, t.stdoutReads + 1, t.logs, ?_⟩
    rw [Function.iterate_one, step_drainStdout hpc, readStdout_end hend]
  | succ d ih =>
    by_cases hdata : (env.stdout t.stdoutReads).hasData = true
    · obtain ⟨logs, hread⟩ := readStdout_data hdata
      obtain ⟨k, reads, logs', hk⟩ := ih
        { t with stdoutReads := t.stdoutReads + 1, logs := logs } hpc (by simp only; omega) (by simp only; omega)
      refine ⟨k + 1, reads, logs', ?_⟩
      rw [Function.iterate_succ_apply, step_drainStdout hpc, hread, hk]
    · refine ⟨1, t.stdoutReads + 1, t.logs, ?_⟩
      rw [Function.iterate_one, step_drainStdout hpc, readStdout_end (by simpa using hdata)]

lemma drainStderr_ends (t : WaitThread) (hpc : t.pc = .drainStderr) (h : Drained env.stderr t.stderrReads) :
    ∃ k reads logs, (step env)^[k] t =
      { t with pc := .waitpid, stderrReads := reads, logs := logs } := by
  obtain ⟨n, hn, hend⟩ := h
  induction hd : n - t.stderrReads generalizing t with
  | zero =>
    obtain rfl : n = t.stderrReads := by omega
    refine ⟨1, t.stderrReads + 1, t.logs, ?_⟩
    rw [Function.iterate_one, step_drainStderr hpc, readStderr_end hend]
  | succ d ih =>
    by_cases hdata : (env.stderr t.stderrReads).hasData = true
    · obtain ⟨logs, hread⟩ := readStderr_data hdata
      obtain ⟨k, reads, logs', hk⟩ := ih
        { t with stderrReads := t.stderrReads + 1, logs := logs } hpc (by simp only; omega) (by simp only; omega)
      refine ⟨k + 1, reads, logs', ?_⟩
      rw [Function.iterate_succ_apply, step_drainStderr hpc, hread, hk]
    · refine ⟨1, t.stderrReads + 1, t.logs, ?_⟩
      rw [Function.iterate_one, step_drainStderr hpc, readStderr_end (by simpa using hdata)]

/-- Both drains end, and nothing but the read counters and the log has changed. -/
lemma iteration_ends (hpc : t.pc = .drainStdout) (hout : Drained env.stdout t.stdoutReads)
    (herr : Drained env.stderr t.stderrReads) :
    ∃ k out err logs, (step env)^[k] t =
      { t with pc := .waitpid, stdoutReads := out, stderrReads := err, logs := logs } := by
  obtain ⟨k, out, logs, hk⟩ := drainStdout_ends t hpc hout
  obtain ⟨k', err, logs', hk'⟩ := drainStderr_ends
    { t with pc := .drainStderr, stdoutReads := out, logs := logs } rfl herr
  refine ⟨k' + k, out, err, logs', ?_⟩
  rw [Function.iterate_add_apply, hk, hk']

/-- The thread is in a drain that will not end. -/
def Stuck (env : JobEnvironment) (t : WaitThread) : Prop :=
  (t.pc = .drainStdout ∧ ¬(Drained env.stdout t.stdoutReads ∧ Drained env.stderr t.stderrReads)) ∨
    (t.pc = .drainStderr ∧ ¬Drained env.stderr t.stderrReads)

lemma Stuck.step (h : Stuck env t) : Stuck env (step env t) := by
  rcases h with ⟨hpc, hnot⟩ | ⟨hpc, hnot⟩
  · rw [step_drainStdout hpc]
    by_cases hdata : (env.stdout t.stdoutReads).hasData = true
    · obtain ⟨logs, hread⟩ := readStdout_data hdata
      rw [hread]
      exact .inl ⟨hpc, fun hboth => hnot ⟨hboth.1.of_le (Nat.le_succ _), hboth.2⟩⟩
    · have hend : (env.stdout t.stdoutReads).hasData = false := by simpa using hdata
      rw [readStdout_end hend]
      exact .inr ⟨rfl, fun herr => hnot ⟨⟨_, le_rfl, hend⟩, herr⟩⟩
  · have hdata : (env.stderr t.stderrReads).hasData = true := by
      by_contra hend
      exact hnot ⟨_, le_rfl, by simpa using hend⟩
    obtain ⟨logs, hread⟩ := readStderr_data hdata
    rw [step_drainStderr hpc, hread]
    exact .inr ⟨hpc, fun herr => hnot (herr.of_le (Nat.le_succ _))⟩

lemma Stuck.iterate (h : Stuck env t) (k : ℕ) : Stuck env ((WaitThread.step env)^[k] t) := by
  induction k with
  | zero => exact h
  | succ k ih =>
    rw [Function.iterate_succ_apply']
    exact ih.step

lemma Stuck.pc_ne (h : Stuck env t) : t.pc ≠ .waitpid := by
  rcases h with ⟨hpc, -⟩ | ⟨hpc, -⟩ <;> simp [hpc]

/-- From the top of an iteration the thread gets to `waitpid` exactly when both drains end. -/
theorem iteration_iff (hpc : t.pc = .drainStdout) :
    (∃ k, ((step env)^[k] t).pc = .waitpid) ↔
      Drained env.stdout t.stdoutReads ∧ Drained env.stderr t.stderrReads := by
  constructor
  · rintro ⟨k, hk⟩
    by_contra hnot
    have hstuck : Stuck env t := .inl ⟨hpc, hnot⟩
    exact (hstuck.iterate k).pc_ne hk
  · rintro ⟨hout, herr⟩
    obtain ⟨k, out, err, logs, hk⟩ := iteration_ends hpc hout herr
    exact ⟨k, by rw [hk]⟩

/-! ### The deadline -/

/-- Every iteration that the thread begins finds the ends of both drains ahead. -/
def DrainsEnd (env : JobEnvironment) : Prop :=
  ∀ n, (run env n).pc = .drainStdout →
    Drained env.stdout (run env n).stdoutReads ∧ Drained env.stderr (run env n).stderrReads

lemma clock_ge (env : JobEnvironment) (n : ℕ) : n ≤ env.clock n := by
  induction n with
  | zero => exact Nat.zero_le _
  | succ n ih =>
    have hsleep := env.clock_sleep n
    omega

/-- While the job runs and the deadline is ahead, the thread starts iteration after iteration. -/
lemma iteration_starts (hends : DrainsEnd env) (hruns : ∀ n, env.waitpid n = .running) (i : ℕ)
    (hearly : ∀ j < i, env.clock j < env.deadline) :
    ∃ n, (run env n).pc = .drainStdout ∧ (run env n).checks = i ∧ (run env n).signals = [] := by
  induction i with
  | zero => exact ⟨0, rfl, rfl, rfl⟩
  | succ i ih =>
    obtain ⟨n, hpc, hchecks, hsignals⟩ := ih fun j hj => hearly j (Nat.lt_succ_of_lt hj)
    obtain ⟨hout, herr⟩ := hends n hpc
    obtain ⟨k, out, err, logs, hk⟩ := iteration_ends hpc hout herr
    refine ⟨n + (3 + k), ?_⟩
    have hlt : ¬env.deadline ≤ env.clock i := Nat.not_le.mpr (hearly i (Nat.lt_succ_self i))
    have hafter : run env (n + (3 + k)) =
        step env (step env (step env
          { run env n with pc := .waitpid, stdoutReads := out, stderrReads := err, logs := logs })) := by
      rw [run_add, Function.iterate_add_apply, hk]
      rfl
    rw [hafter]
    simp [step, hruns, hlt, hchecks, hsignals]

lemma signalled_of_drainsEnd (hends : DrainsEnd env) (hruns : ∀ n, env.waitpid n = .running) :
    ∃ n, .term ∈ (run env n).signals ∧
      ∀ i, i + 1 < (run env n).checks → env.clock i < env.deadline := by
  -- the first check that finds the deadline passed
  have hpasses : ∃ i, env.deadline ≤ env.clock i := ⟨env.deadline, clock_ge env _⟩
  have hearly : ∀ j < Nat.find hpasses, env.clock j < env.deadline := by
    intro j hj
    exact Nat.not_le.mp (Nat.find_min hpasses hj)
  obtain ⟨n, hpc, hchecks, hsignals⟩ := iteration_starts hends hruns (Nat.find hpasses) hearly
  obtain ⟨hout, herr⟩ := hends n hpc
  obtain ⟨k, out, err, logs, hk⟩ := iteration_ends hpc hout herr
  have hpassed : env.deadline ≤ env.clock (Nat.find hpasses) := Nat.find_spec hpasses
  have hafter : run env (n + (2 + k)) = step env (step env
      { run env n with pc := .waitpid, stdoutReads := out, stderrReads := err, logs := logs }) := by
    rw [run_add, Function.iterate_add_apply, hk]
    rfl
  refine ⟨n + (2 + k), ?_⟩
  rw [hafter]
  simp only [step, hruns, hpassed, if_true, hchecks]
  refine ⟨by simp, fun i hi => hearly i (by omega)⟩

/-- The wait loop is prompt exactly when the drains of every iteration end. -/
theorem prompt_iff (env : JobEnvironment) : Prompt env ↔ DrainsEnd env := by
  constructor
  · intro h n hpc
    obtain ⟨k, hk, -⟩ := h.checks n hpc
    rw [run_add] at hk
    exact (iteration_iff hpc).mp ⟨k, hk⟩
  · intro h
    refine ⟨fun n hpc => ?_, signalled_of_drainsEnd h⟩
    obtain ⟨k, hk⟩ := (iteration_iff hpc).mpr (h n hpc)
    refine ⟨k, by rw [run_add]; exact hk, fun hruns => ?_⟩
    have hafter : run env (n + k + 1) = step env (run env (n + k)) := by
      rw [run, run, Function.iterate_succ_apply']
    have hpc' : (run env (n + k)).pc = .waitpid := by
      rw [run_add]
      exact hk
    rw [hafter, step, hpc', hruns]

/-- `yes`, with a timeout of one second. -/
def yesEnvironment : JobEnvironment where
  timeoutMs := 1000
  startedAt := 0
  stdout := fun _ => .ok [121, 10]
  stderr := fun _ => .wouldBlock
  waitpid := fun _ => .running
  killedStatus := 0
  clock := fun n => 10 * n
  clock_sleep := fun n => by omega

theorem not_prompt_yes : ¬∀ env, Prompt env := by
  intro h
  obtain ⟨k, hk, -⟩ := (h yesEnvironment).checks 0 rfl
  have hstuck : Stuck yesEnvironment (run yesEnvironment 0) := by
    refine .inl ⟨rfl, fun hdrained => ?_⟩
    obtain ⟨n, -, hend⟩ := hdrained.1
    cases hend
  rw [run_add] at hk
  exact (hstuck.iterate k).pc_ne hk

end WaitThread

end Bloom
