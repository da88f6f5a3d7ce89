import BloomWorkspaces.Guest.JobEngine

/-!
# The table of jobs

The limits, the keys and the order list over all interleavings of the two threads. `start` checks its
limits in one section and inserts its job in another, so they hold as long as its checks leave room for
the start of the other thread.
-/

namespace Bloom

lemma Transport.other_ne (t : Transport) : t.other ≠ t := by
  cases t <;> simp [Transport.other]

namespace Handler

/-- The id of a start that has passed its limit check and has no job yet. -/
def starting : Handler → Option String
  | .prune spec | .checkRetained spec | .launch spec => some spec.jobId
  | _ => none

/-- The id and the reference of a job that is not in the table yet. -/
def inserting : Handler → Option (String × ℕ)
  | .insert jobId ref _ => some (jobId, ref)
  | _ => none

/-- The key that is not in the order list yet. -/
def pushing : Handler → Option String
  | .push jobId _ _ => some jobId
  | _ => none

/-- The start has passed the check of the retained jobs and its job is not in the table yet. -/
def isEntering : Handler → Bool
  | .launch _ | .insert _ _ _ => true
  | _ => false

/-- The id that a start of the thread is about to put into the table. -/
def claim (h : Handler) : Option String := h.starting.or (h.inserting.map (·.1))

lemma starting_eq_none {h : Handler} {launched : String × ℕ}
    (hinserting : h.inserting = some launched) : h.starting = none := by
  cases h with
  | insert jobId ref reply => rfl
  | _ => cases hinserting

end Handler

namespace JobEngine

variable {s s' : JobEngine}

/-- A start of the thread has a job that is not terminal, or may still make one. -/
def mayActivate (s : JobEngine) (h : Handler) : Bool :=
  h.starting.isSome ||
    h.inserting.any fun launched => (s.deref launched.2).any fun job => !job.state.isTerminal

/-- A start passes a check only if there is room for the start of the other thread as well, and for a
job id that the other one does not claim. -/
def leavesRoom (s : JobEngine) : Event → Bool
  | .checkLimits t =>
    match s.handler t with
    | .checkLimits spec =>
      !(s.checkLimits spec.jobId).isOk ||
        ((s.handler t.other).claim ≠ some spec.jobId &&
          s.active + (s.mayActivate (s.handler t.other)).toNat < maxActiveJobs)
    | _ => true
  | .checkRetained t =>
    maxRetainedJobs ≤ s.len || s.len + (s.handler t.other).isEntering.toNat < maxRetainedJobs
  | _ => true

/-- The keys stand in the order list once, except for one that a start is about to push. A job that was
never pruned is the only one that was started with its id. -/
structure TableOk (s : JobEngine) : Prop where
  active : (s.jobs.countP fun job => !job.state.isTerminal) ≤ maxActiveJobs
  retained : s.len ≤ maxRetainedJobs
  named : ∀ job ∈ s.jobs, ∀ job' ∈ s.jobs, job.jobId = job'.jobId → job.place ≠ .pruned →
    job'.place ≠ .pruned → job = job'
  ordered : ∀ job ∈ s.jobs, job.place = .retained →
    (∀ t, (s.handler t).pushing ≠ some job.jobId) → s.order.count job.jobId = 1
  keys : ∀ id ∈ s.order, (s.get id).isSome

/-! ### Both threads -/

/-- The sum of a quantity over the threads. -/
def total (s : JobEngine) (f : Handler → ℕ) : ℕ := f (s.handler .stdio) + f (s.handler .socket)

lemma total_eq (s : JobEngine) (f : Handler → ℕ) (t : Transport) :
    s.total f = f (s.handler t) + f (s.handler t.other) := by
  cases t with
  | stdio => rfl
  | socket => exact Nat.add_comm _ _

@[simp] lemma setHandler_self (s : JobEngine) (t : Transport) (h : Handler) :
    (s.setHandler t h).handler t = h := Function.update_self _ _ _

@[simp] lemma setHandler_other (s : JobEngine) (t : Transport) (h : Handler) :
    (s.setHandler t h).handler t.other = s.handler t.other :=
  Function.update_of_ne (Transport.other_ne t) _ _

lemma total_setHandler (s : JobEngine) (f : Handler → ℕ) (t : Transport) (h : Handler) :
    (s.setHandler t h).total f = f h + f (s.handler t.other) := by
  rw [total_eq _ f t, setHandler_self, setHandler_other]

/-- The keys that are or will be in the order list. -/
def queue (s : JobEngine) : List String :=
  s.order ++ ((s.handler .stdio).pushing.toList ++ (s.handler .socket).pushing.toList)

lemma queue_perm (s : JobEngine) (t : Transport) :
    s.queue.Perm (s.order ++ ((s.handler t).pushing.toList ++ (s.handler t.other).pushing.toList)) := by
  cases t with
  | stdio => exact List.Perm.refl _
  | socket => exact List.Perm.append_left _ List.perm_append_comm

lemma queue_setHandler (s : JobEngine) (t : Transport) (h : Handler) :
    (s.setHandler t h).queue.Perm
      (s.order ++ (h.pushing.toList ++ (s.handler t.other).pushing.toList)) := by
  have hperm := (s.setHandler t h).queue_perm t
  rw [setHandler_self, setHandler_other] at hperm
  exact hperm

/-! ### The invariant -/

def isNamed (jobId : String) (job : Job) : Bool := job.jobId = jobId && job.place ≠ .pruned

def isLaunched (jobId : String) (ref : ℕ) (job : Job) : Bool :=
  job.place = .launched && job.jobId = jobId && job.ref = ref

/-- Every start counts against the limits from its checks on, and every key has one owner. -/
structure Inv (s : JobEngine) : Prop where
  refs : (s.jobs.map (·.ref)).Nodup
  refs_lt : ∀ job ∈ s.jobs, job.ref < s.jobs.length
  unreplaced : ∀ job ∈ s.jobs, job.place ≠ .replaced
  held : ∀ job ∈ s.jobs, job.state.isTerminal = false → job.place ≠ .pruned
  launched : ∀ id ref, s.jobs.countP (isLaunched id ref) =
    s.total fun h => (h.inserting = some (id, ref) : Bool).toNat
  named : ∀ id, s.jobs.countP (isNamed id) + s.total (fun h => (h.starting = some id : Bool).toNat) ≤ 1
  active : s.jobs.countP (fun job => !job.state.isTerminal) +
    s.total (fun h => h.starting.isSome.toNat) ≤ maxActiveJobs
  entries : s.len + s.total (fun h => h.isEntering.toNat) ≤ maxRetainedJobs
  queue_nodup : s.queue.Nodup
  mem_queue : ∀ id, id ∈ s.queue ↔ ∃ job ∈ s.jobs, inTable id job = true

lemma inv_initial : Inv initial where
  refs := List.nodup_nil
  refs_lt := by simp [initial]
  unreplaced := by simp [initial]
  held := by simp [initial]
  launched id ref := by simp [initial, total, Handler.inserting]
  named id := by simp [initial, total, Handler.starting]
  active := by simp [initial, total, Handler.starting]
  entries := by simp [initial, total, len, Handler.isEntering]
  queue_nodup := by simp [initial, queue, Handler.pushing]
  mem_queue id := by simp [initial, queue, Handler.pushing]

/-! ### Changes of one thread -/

/-- A thread moves on and keeps the job that it holds and the key that it pushes. -/
lemma Inv.setHandler {t : Transport} {h : Handler} (hinv : Inv s)
    (hinserting : h.inserting = (s.handler t).inserting)
    (hpushing : h.pushing = (s.handler t).pushing)
    (hnamed : ∀ id, s.jobs.countP (isNamed id) + ((h.starting = some id : Bool).toNat +
      ((s.handler t.other).starting = some id : Bool).toNat) ≤ 1)
    (hactive : s.jobs.countP (fun job => !job.state.isTerminal) +
      (h.starting.isSome.toNat + (s.handler t.other).starting.isSome.toNat) ≤ maxActiveJobs)
    (hentries : s.len + (h.isEntering.toNat + (s.handler t.other).isEntering.toNat) ≤
      maxRetainedJobs) :
    Inv (s.setHandler t h) := by
  have hqueue : (s.setHandler t h).queue.Perm s.queue := by
    refine (s.queue_setHandler t h).trans ?_
    rw [hpushing]
    exact (s.queue_perm t).symm
  refine ⟨hinv.refs, hinv.refs_lt, hinv.unreplaced, hinv.held, fun id ref => ?_, fun id => ?_, ?_, ?_,
    ?_, fun id => ?_⟩
  · have hlaunched := hinv.launched id ref
    rw [total_eq _ _ t] at hlaunched
    rw [total_setHandler, hinserting]
    exact hlaunched
  · rw [total_setHandler]
    exact hnamed id
  · rw [total_setHandler]
    exact hactive
  · rw [total_setHandler]
    exact hentries
  · exact hqueue.nodup_iff.mpr hinv.queue_nodup
  · rw [hqueue.mem_iff]
    exact hinv.mem_queue id

/-- A thread may give up what it has not made a job of. -/
lemma Inv.release {t : Transport} {h : Handler} (hinv : Inv s) (hstarting : h.starting = none)
    (hentering : h.isEntering = false) (hinserting : h.inserting = (s.handler t).inserting)
    (hpushing : h.pushing = (s.handler t).pushing) : Inv (s.setHandler t h) := by
  refine hinv.setHandler hinserting hpushing (fun id => ?_) ?_ ?_
  · have hnamed := hinv.named id
    rw [total_eq _ _ t] at hnamed
    rw [hstarting]
    simp only [reduceCtorEq, decide_false, Bool.toNat_false, Nat.zero_add]
    omega
  · have hactive := hinv.active
    rw [total_eq _ _ t] at hactive
    rw [hstarting, Option.isSome_none, Bool.toNat_false, Nat.zero_add]
    omega
  · have hentries := hinv.entries
    rw [total_eq _ _ t] at hentries
    rw [hentering, Bool.toNat_false, Nat.zero_add]
    omega

/-! ### Changes of jobs -/

/-- A change of jobs that keeps their ids and revives none. -/
structure Keeps (f : Job → Job) : Prop where
  ref : ∀ job, (f job).ref = job.ref
  jobId : ∀ job, (f job).jobId = job.jobId
  terminal : ∀ job, (f job).state.isTerminal = false → job.state.isTerminal = false

lemma Keeps.ite {f : Job → Job} (hf : Keeps f) (p : Job → Bool) :
    Keeps fun job => if p job then f job else job where
  ref job := by
    split
    · exact hf.ref job
    · rfl
  jobId job := by
    split
    · exact hf.jobId job
    · rfl
  terminal job hrunning := by
    split at hrunning
    · exact hf.terminal job hrunning
    · exact hrunning

lemma countP_map_eq {f : Job → Job} {q : Job → Bool} {jobs : List Job}
    (hq : ∀ job ∈ jobs, q (f job) = q job) : (jobs.map f).countP q = jobs.countP q := by
  rw [List.countP_map]
  exact List.countP_congr fun job hjob => by rw [Function.comp_apply, hq job hjob]

lemma countP_map_le {f : Job → Job} {q : Job → Bool} {jobs : List Job}
    (hq : ∀ job ∈ jobs, q (f job) = true → q job = true) :
    (jobs.map f).countP q ≤ jobs.countP q := by
  rw [List.countP_map]
  exact List.countP_mono_left hq

section Map

variable {f : Job → Job} (hinv : Inv s) (hf : Keeps f)

include hinv hf

lemma Inv.refs_map : ((s.jobs.map f).map (·.ref)).Nodup := by
  have hrefs : (s.jobs.map f).map (·.ref) = s.jobs.map (·.ref) := by
    rw [List.map_map]
    exact List.map_congr_left fun job _ => hf.ref job
  rw [hrefs]
  exact hinv.refs

lemma Inv.refs_lt_map : ∀ job ∈ s.jobs.map f, job.ref < (s.jobs.map f).length := by
  intro job hjob
  obtain ⟨old, hold, rfl⟩ := List.mem_map.mp hjob
  rw [hf.ref, List.length_map]
  exact hinv.refs_lt old hold

lemma Inv.active_map : (s.jobs.map f).countP (fun job => !job.state.isTerminal) +
    s.total (fun h => h.starting.isSome.toNat) ≤ maxActiveJobs := by
  refine Nat.le_trans (Nat.add_le_add_right (countP_map_le fun job _ hrunning => ?_) _) hinv.active
  rw [Bool.not_eq_true'] at hrunning ⊢
  exact hf.terminal job hrunning

end Map

/-- Jobs change and none of them moves. -/
lemma Inv.mapJobs {f : Job → Job} (hinv : Inv s) (hf : Keeps f)
    (hplace : ∀ job, (f job).place = job.place) : Inv { s with jobs := s.jobs.map f } where
  refs := hinv.refs_map hf
  refs_lt := hinv.refs_lt_map hf
  unreplaced job hjob := by
    obtain ⟨old, hold, rfl⟩ := List.mem_map.mp hjob
    rw [hplace]
    exact hinv.unreplaced old hold
  held job hjob hrunning := by
    obtain ⟨old, hold, rfl⟩ := List.mem_map.mp hjob
    rw [hplace]
    exact hinv.held old hold (hf.terminal old hrunning)
  launched id ref := by
    rw [countP_map_eq fun job _ => by rw [isLaunched, isLaunched, hplace, hf.jobId, hf.ref]]
    exact hinv.launched id ref
  named id := by
    rw [countP_map_eq fun job _ => by rw [isNamed, isNamed, hplace, hf.jobId]]
    exact hinv.named id
  active := hinv.active_map hf
  entries := by
    rw [len, countP_map_eq fun job _ => by rw [hplace]]
    exact hinv.entries
  queue_nodup := hinv.queue_nodup
  mem_queue id := by
    refine (hinv.mem_queue id).trans ⟨?_, ?_⟩
    · rintro ⟨job, hjob, hkey⟩
      refine ⟨f job, List.mem_map_of_mem hjob, ?_⟩
      rw [inTable, hplace, hf.jobId]
      exact hkey
    · rintro ⟨job', hjob', hkey⟩
      obtain ⟨job, hjob, rfl⟩ := List.mem_map.mp hjob'
      rw [inTable, hplace, hf.jobId] at hkey
      exact ⟨job, hjob, hkey⟩

lemma Inv.updateJob {f : Job → Job} (hinv : Inv s) (hf : Keeps f)
    (hplace : ∀ job, (f job).place = job.place) (ref : ℕ) : Inv (s.updateJob ref f) := by
  refine hinv.mapJobs (hf.ite fun job => job.ref = ref) fun job => ?_
  split
  · exact hplace job
  · rfl

/-! ### Pruning -/

lemma inTable_iff {id : String} {job : Job} :
    inTable id job = true ↔ job.place = .retained ∧ job.jobId = id := by
  rw [inTable, Bool.and_eq_true, decide_eq_true_eq, decide_eq_true_eq]

lemma isNamed_iff {id : String} {job : Job} :
    isNamed id job = true ↔ job.jobId = id ∧ job.place ≠ .pruned := by
  rw [isNamed, Bool.and_eq_true, decide_eq_true_eq, decide_eq_true_eq]

lemma isLaunched_iff {id : String} {ref : ℕ} {job : Job} :
    isLaunched id ref job = true ↔ job.place = .launched ∧ job.jobId = id ∧ job.ref = ref := by
  rw [isLaunched, Bool.and_eq_true, Bool.and_eq_true, decide_eq_true_eq, decide_eq_true_eq,
    decide_eq_true_eq, and_assoc]

lemma get_eq_some {jobId : String} {job : Job} (h : s.get jobId = some job) :
    job ∈ s.jobs ∧ job.place = .retained ∧ job.jobId = jobId :=
  ⟨List.mem_of_find?_eq_some h, inTable_iff.mp (List.find?_some h)⟩

/-- A key has one owner. -/
lemma Inv.eq_of_jobId (hinv : Inv s) {job job' : Job} (hjob : job ∈ s.jobs) (hjob' : job' ∈ s.jobs)
    (hid : job.jobId = job'.jobId) (hplace : job.place ≠ .pruned) (hplace' : job'.place ≠ .pruned) :
    job = job' :=
  Table.eq_of_countP_le_one (Nat.le_trans (Nat.le_add_right _ _) (hinv.named job'.jobId)) hjob hjob'
    (isNamed_iff.mpr ⟨hid, hplace⟩) (isNamed_iff.mpr ⟨rfl, hplace'⟩)

/-- A terminal job of the order list may be pruned. -/
lemma Inv.removeJob {id : String} {job : Job} (hinv : Inv s) (hid : id ∈ s.order)
    (hget : s.get id = some job) (hterminal : job.state.isTerminal = true) :
    Inv (s.removeJob id) := by
  obtain ⟨hjob, hplace, hkey⟩ := get_eq_some hget
  have hqueue : (s.removeJob id).queue = s.queue.filter (· ≠ id) := by
    have hfresh : ∀ x ∈ (s.handler .stdio).pushing.toList ++ (s.handler .socket).pushing.toList,
        decide (x ≠ id) = true := by
      intro x hx
      rw [decide_eq_true_eq]
      rintro rfl
      exact (List.disjoint_of_nodup_append hinv.queue_nodup) hid hx
    rw [queue, queue, List.filter_append, List.filter_eq_self.mpr hfresh]
    rfl
  have hmoved : Keeps fun job => { job with place := .pruned } :=
    ⟨fun _ => rfl, fun _ => rfl, fun _ hrunning => hrunning⟩
  have hkeeps := hmoved.ite (inTable id)
  have hplaces : ∀ old : Job, ∀ place ≠ JobPlace.pruned,
      (if inTable id old then { old with place := .pruned } else old : Job).place = place →
        inTable id old = false ∧ old.place = place := by
    intro old place hne hold
    split at hold
    · exact absurd hold.symm hne
    · rename_i hout
      exact ⟨Bool.eq_false_iff.mpr hout, hold⟩
  refine ⟨hinv.refs_map hkeeps, hinv.refs_lt_map hkeeps, fun job' hjob' hreplaced => ?_,
    fun job' hjob' hrunning => ?_, fun id' ref' => ?_, fun id' => ?_, hinv.active_map hkeeps, ?_, ?_,
    fun id' => ?_⟩
  · obtain ⟨old, hold, rfl⟩ := List.mem_map.mp hjob'
    exact hinv.unreplaced old hold (hplaces old .replaced (by simp) hreplaced).2
  · obtain ⟨old, hold, rfl⟩ := List.mem_map.mp hjob'
    have hheld := hinv.held old hold (hkeeps.terminal old hrunning)
    by_cases hin : inTable id old = true
    · have hsame := hinv.eq_of_jobId hold hjob ((inTable_iff.mp hin).2.trans hkey.symm) hheld
        (by rw [hplace]; simp)
      have hrunning' := hkeeps.terminal old hrunning
      rw [hsame, hterminal] at hrunning'
      cases hrunning'
    · rw [if_neg hin]
      exact hheld
  · refine (countP_map_eq fun old _ => ?_).trans (hinv.launched id' ref')
    rw [Bool.eq_iff_iff, isLaunched_iff, isLaunched_iff, hkeeps.jobId, hkeeps.ref]
    refine and_congr_left fun _ => ⟨fun h => (hplaces old .launched (by simp) h).2, fun h => ?_⟩
    rw [if_neg]
    · exact h
    · rw [inTable_iff, h]
      simp
  · refine Nat.le_trans (Nat.add_le_add_right (countP_map_le fun old _ hnew => ?_) _) (hinv.named id')
    rw [isNamed_iff] at hnew ⊢
    rw [hkeeps.jobId] at hnew
    refine ⟨hnew.1, fun hpruned => hnew.2 ?_⟩
    split
    · rfl
    · exact hpruned
  · refine Nat.le_trans (Nat.add_le_add_right (countP_map_le fun old _ hnew => ?_) _) hinv.entries
    rw [decide_eq_true_eq] at hnew ⊢
    exact (hplaces old .retained (by simp) hnew).2
  · rw [hqueue]
    exact hinv.queue_nodup.filter _
  · rw [hqueue, List.mem_filter, hinv.mem_queue id', decide_eq_true_eq]
    constructor
    · rintro ⟨⟨old, hold, hin⟩, hne⟩
      refine ⟨_, List.mem_map_of_mem hold, ?_⟩
      rw [if_neg]
      · exact hin
      · intro hother
        exact hne ((inTable_iff.mp hin).2.symm.trans (inTable_iff.mp hother).2)
    · rintro ⟨job', hjob', hin⟩
      obtain ⟨old, hold, rfl⟩ := List.mem_map.mp hjob'
      rw [inTable_iff, hkeeps.jobId] at hin
      obtain ⟨hout, hretained⟩ := hplaces old .retained (by simp) hin.1
      refine ⟨⟨old, hold, inTable_iff.mpr ⟨hretained, hin.2⟩⟩, ?_⟩
      rintro rfl
      rw [Bool.eq_false_iff] at hout
      exact hout (inTable_iff.mpr ⟨hretained, hin.2⟩)

lemma Inv.pruneLoop (turns : ℕ) (hinv : Inv s) : Inv (pruneLoop turns s) := by
  induction turns generalizing s with
  | zero => exact hinv
  | succ turns ih =>
    rw [JobEngine.pruneLoop]
    split
    · exact hinv
    · split
      · rename_i id hfound
        have hterminal := List.find?_some hfound
        obtain ⟨job, hget, hjob⟩ := (Option.any_eq_true _ _).mp hterminal
        exact ih (hinv.removeJob (List.mem_of_find?_eq_some hfound) hget hjob)
      · exact hinv

lemma len_removeJob_lt {id : String} {job : Job} (hget : s.get id = some job) :
    (s.removeJob id).len < s.len := by
  obtain ⟨hjob, hplace, hkey⟩ := get_eq_some hget
  rw [len, len, JobEngine.removeJob, Table.updateWhere, List.countP_map]
  refine Table.countP_lt_countP (fun old _ hretained => ?_) hjob ?_ (decide_eq_true hplace)
  · rw [Function.comp_apply, decide_eq_true_eq] at hretained
    split at hretained
    · cases hretained
    · exact decide_eq_true hretained
  · rw [Function.comp_apply, if_pos (inTable_iff.mpr ⟨hplace, hkey⟩)]
    rfl

/-- The loop ends because it is done. -/
lemma pruneLoop_done (turns : ℕ) (s : JobEngine) (hturns : s.len ≤ turns) :
    (JobEngine.pruneLoop turns s).len < maxRetainedJobs ∨
      (JobEngine.pruneLoop turns s).findTerminal = none := by
  induction turns generalizing s with
  | zero => exact .inl (Nat.lt_of_le_of_lt hturns (by decide))
  | succ turns ih =>
    rw [JobEngine.pruneLoop]
    split
    · left
      assumption
    · split
      · rename_i id hfound
        have hterminal := List.find?_some hfound
        obtain ⟨job, hget, -⟩ := (Option.any_eq_true _ _).mp hterminal
        exact ih _ (Nat.le_of_lt_succ (Nat.lt_of_lt_of_le (len_removeJob_lt hget) hturns))
      · right
        assumption

lemma pruneLoop_handler (turns : ℕ) (s : JobEngine) :
    (JobEngine.pruneLoop turns s).handler = s.handler := by
  induction turns generalizing s with
  | zero => rfl
  | succ turns ih =>
    rw [JobEngine.pruneLoop]
    split
    · rfl
    · split
      · exact ih _
      · rfl

/-! ### Starting -/

lemma Inv.countP_ref_le_one (hinv : Inv s) (ref : ℕ) (p : Job → Bool)
    (hp : ∀ job ∈ s.jobs, p job = true → job.ref = ref) : s.jobs.countP p ≤ 1 :=
  Table.countP_key_le_one hinv.refs ref hp

/-- A start makes its job, which the table does not have yet. -/
lemma Inv.launch {t : Transport} {spec : StartSpec} {job : Job} {reply : Option JobReply}
    (hinv : Inv s) (hhandler : s.handler t = .launch spec) (href : job.ref = s.jobs.length)
    (hid : job.jobId = spec.jobId) (hplace : job.place = .launched) :
    Inv ({ s with jobs := s.jobs ++ [job] }.setHandler t (.insert spec.jobId job.ref reply)) := by
  have hqueue : ({ s with jobs := s.jobs ++ [job] }.setHandler t
      (.insert spec.jobId job.ref reply)).queue.Perm s.queue := by
    refine (queue_setHandler _ t _).trans ?_
    have hperm := s.queue_perm t
    rw [hhandler] at hperm
    exact hperm.symm
  refine ⟨?_, fun job' hjob' => ?_, fun job' hjob' => ?_, fun job' hjob' => ?_, fun id ref => ?_,
    fun id => ?_, ?_, ?_, ?_, fun id => ?_⟩
  · show ((s.jobs ++ [job]).map (·.ref)).Nodup
    rw [List.map_append]
    refine List.nodup_append'.mpr ⟨hinv.refs, List.nodup_singleton _,
      List.disjoint_singleton.mpr fun hmem => ?_⟩
    obtain ⟨old, hold, heq⟩ := List.mem_map.mp hmem
    have hsame : old.ref = job.ref := heq
    have hlt := hinv.refs_lt old hold
    omega
  · show job'.ref < (s.jobs ++ [job]).length
    rw [List.length_append, List.length_singleton]
    rcases List.mem_append.mp hjob' with hold | hnew
    · exact Nat.lt_succ_of_lt (hinv.refs_lt job' hold)
    · rw [List.mem_singleton.mp hnew, href]
      exact Nat.lt_succ_self _
  · rcases List.mem_append.mp hjob' with hold | hnew
    · exact hinv.unreplaced job' hold
    · rw [List.mem_singleton.mp hnew, hplace]
      simp
  · rcases List.mem_append.mp hjob' with hold | hnew
    · exact hinv.held job' hold
    · rw [List.mem_singleton.mp hnew, hplace]
      simp
  · have hlaunched := hinv.launched id ref
    rw [total_eq _ _ t, hhandler] at hlaunched
    rw [total_setHandler]
    show (s.jobs ++ [job]).countP _ = _
    rw [List.countP_append, List.countP_singleton, hlaunched]
    by_cases hsame : spec.jobId = id ∧ job.ref = ref
    · rw [if_pos (isLaunched_iff.mpr ⟨hplace, hid.trans hsame.1, hsame.2⟩), hsame.1, hsame.2]
      simp [Handler.inserting, Nat.add_comm]
    · rw [if_neg]
      · simp [Handler.inserting, hsame]
      · rw [isLaunched_iff, hid]
        exact fun h => hsame h.2
  · have hnamed := hinv.named id
    rw [total_eq _ _ t, hhandler] at hnamed
    rw [total_setHandler]
    show (s.jobs ++ [job]).countP _ + _ ≤ 1
    rw [List.countP_append, List.countP_singleton]
    by_cases hsame : spec.jobId = id
    · simp only [Handler.starting, hsame, decide_true, Bool.toNat_true, reduceCtorEq, decide_false,
        Bool.toNat_false] at hnamed ⊢
      split <;> omega
    · rw [if_neg]
      · simp only [Handler.starting, Option.some.injEq, hsame, decide_false, Bool.toNat_false,
          reduceCtorEq] at hnamed ⊢
        exact hnamed
      · rw [isNamed_iff, hid]
        exact fun h => hsame h.1
  · have hactive := hinv.active
    rw [total_eq _ _ t, hhandler] at hactive
    rw [total_setHandler]
    show (s.jobs ++ [job]).countP _ + _ ≤ maxActiveJobs
    rw [List.countP_append, List.countP_singleton]
    simp only [Handler.starting, Option.isSome_some, Option.isSome_none, Bool.toNat_true,
      Bool.toNat_false] at hactive ⊢
    split <;> omega
  · have hentries := hinv.entries
    rw [total_eq _ _ t, hhandler] at hentries
    rw [total_setHandler]
    show (s.jobs ++ [job]).countP _ + _ ≤ maxRetainedJobs
    rw [List.countP_append, List.countP_singleton, if_neg (by rw [hplace]; simp)]
    exact hentries
  · rw [hqueue.nodup_iff]
    exact hinv.queue_nodup
  · rw [hqueue.mem_iff, hinv.mem_queue id]
    refine ⟨fun ⟨old, hold, hin⟩ => ⟨old, List.mem_append_left _ hold, hin⟩, ?_⟩
    rintro ⟨job', hjob', hin⟩
    rcases List.mem_append.mp hjob' with hold | hnew
    · exact ⟨job', hold, hin⟩
    · rw [List.mem_singleton.mp hnew, inTable_iff, hplace] at hin
      cases hin.1

/-- A launched job is put into the table, where its key is free. -/
lemma Inv.insertJob {t : Transport} {id : String} {ref : ℕ} {reply : Option JobReply}
    (hinv : Inv s) (hhandler : s.handler t = .insert id ref reply) :
    Inv ((s.insertJob id ref).setHandler t (.push id ref reply)) := by
  have hcount : ∀ id' ref', s.jobs.countP (isLaunched id' ref') =
      (((some (id, ref) : Option (String × ℕ)) = some (id', ref') : Bool).toNat +
        ((s.handler t.other).inserting = some (id', ref') : Bool).toNat) := by
    intro id' ref'
    have hlaunched := hinv.launched id' ref'
    rw [total_eq _ _ t, hhandler] at hlaunched
    exact hlaunched
  obtain ⟨job, hjob, hlaunched⟩ : ∃ job ∈ s.jobs, isLaunched id ref job = true := by
    refine List.countP_pos_iff.mp ?_
    rw [hcount, decide_eq_true rfl]
    exact Nat.add_pos_left Nat.one_pos _
  obtain ⟨hplace, hid, href⟩ := isLaunched_iff.mp hlaunched
  have hfree : ∀ old ∈ s.jobs, inTable id old = false := by
    intro old hold
    rw [Bool.eq_false_iff]
    intro hin
    obtain ⟨hretained, hkey⟩ := inTable_iff.mp hin
    have hsame := hinv.eq_of_jobId hold hjob (hkey.trans hid.symm) (by rw [hretained]; simp)
      (by rw [hplace]; simp)
    rw [hsame, hplace] at hretained
    cases hretained
  have hthis : ∀ old ∈ s.jobs, old.ref = ref → old = job := fun old hold heq =>
    Table.eq_of_key_eq hinv.refs hold hjob (heq.trans href.symm)
  let f : Job → Job := fun job => if (job.ref = ref : Bool) then { job with place := .retained } else job
  have hnew : ∀ old ∈ s.jobs, old.ref ≠ ref → f old = old := fun old _ hne =>
    if_neg (by rw [decide_eq_true_eq]; exact hne)
  have hnewJob : ∀ old ∈ s.jobs, old.ref = ref → f old = { job with place := .retained } := by
    intro old hold heq
    rw [hthis old hold heq]
    exact if_pos (decide_eq_true href)
  have hjobs : (s.insertJob id ref).jobs = s.jobs.map f := by
    refine List.map_congr_left fun old hold => ?_
    by_cases heq : old.ref = ref
    · rw [hnewJob old hold heq, if_pos heq, hthis old hold heq]
    · rw [hnew old hold heq, if_neg heq, hfree old hold]
      rfl
  have hmoved : Keeps fun job => { job with place := .retained } :=
    ⟨fun _ => rfl, fun _ => rfl, fun _ hrunning => hrunning⟩
  have hkeeps : Keeps f := hmoved.ite fun job => job.ref = ref
  have hqueue : ((s.insertJob id ref).setHandler t (.push id ref reply)).queue.Perm
      (id :: s.queue) := by
    refine (queue_setHandler _ t _).trans ?_
    have hperm := s.queue_perm t
    rw [hhandler] at hperm
    exact List.perm_middle.trans (hperm.symm.cons id)
  refine ⟨?_, ?_, fun job' hjob' => ?_, fun job' hjob' hrunning => ?_, fun id' ref' => ?_,
    fun id' => ?_, ?_, ?_, ?_, fun id' => ?_⟩
  · exact hjobs ▸ hinv.refs_map hkeeps
  · exact hjobs ▸ hinv.refs_lt_map hkeeps
  · rw [show ((s.insertJob id ref).setHandler t _).jobs = _ from hjobs] at hjob'
    obtain ⟨old, hold, rfl⟩ := List.mem_map.mp hjob'
    by_cases heq : old.ref = ref
    · rw [hnewJob old hold heq]
      simp
    · rw [hnew old hold heq]
      exact hinv.unreplaced old hold
  · rw [show ((s.insertJob id ref).setHandler t _).jobs = _ from hjobs] at hjob'
    obtain ⟨old, hold, rfl⟩ := List.mem_map.mp hjob'
    by_cases heq : old.ref = ref
    · rw [hnewJob old hold heq]
      simp
    · rw [hnew old hold heq] at hrunning ⊢
      exact hinv.held old hold hrunning
  · rw [total_setHandler]
    show (s.insertJob id ref).jobs.countP _ = _
    rw [hjobs]
    have hbefore := hcount id' ref'
    by_cases hsame : (id, ref) = (id', ref')
    · obtain ⟨rfl, rfl⟩ := Prod.mk.inj hsame
      have hone := hinv.countP_ref_le_one ref (isLaunched id ref) fun old _ h =>
        (isLaunched_iff.mp h).2.2
      rw [decide_eq_true rfl, Bool.toNat_true] at hbefore
      rw [List.countP_eq_zero.mpr]
      · show 0 = 0 + ((s.handler t.other).inserting = some (id, ref) : Bool).toNat
        omega
      · intro job' hjob' hin
        obtain ⟨old, hold, rfl⟩ := List.mem_map.mp hjob'
        obtain ⟨hlaunched', -, href'⟩ := isLaunched_iff.mp hin
        rw [hkeeps.ref] at href'
        rw [hnewJob old hold href'] at hlaunched'
        cases hlaunched'
    · rw [decide_eq_false (fun h => hsame (Option.some.inj h))] at hbefore
      rw [countP_map_eq]
      · exact hbefore
      · intro old hold
        by_cases heq : old.ref = ref
        · have hnot : isLaunched id' ref' job = false := by
            rw [Bool.eq_false_iff, Ne, isLaunched_iff, hid, href]
            exact fun h => hsame (Prod.ext h.2.1 h.2.2)
          rw [hnewJob old hold heq, hthis old hold heq, hnot]
          rfl
        · rw [hnew old hold heq]
  · rw [total_setHandler]
    show (s.insertJob id ref).jobs.countP _ + _ ≤ 1
    have hnamed := hinv.named id'
    rw [total_eq _ _ t, hhandler] at hnamed
    rw [hjobs, countP_map_eq]
    · exact hnamed
    · intro old hold
      by_cases heq : old.ref = ref
      · rw [hnewJob old hold heq, hthis old hold heq, isNamed, isNamed, hplace]
        rfl
      · rw [hnew old hold heq]
  · rw [total_setHandler]
    have hactive := hinv.active_map hkeeps
    rw [total_eq _ _ t, hhandler] at hactive
    show (s.insertJob id ref).jobs.countP _ + _ ≤ maxActiveJobs
    rw [hjobs]
    exact hactive
  · rw [total_setHandler]
    have hentries := hinv.entries
    rw [total_eq _ _ t, hhandler] at hentries
    show (s.insertJob id ref).jobs.countP _ + _ ≤ maxRetainedJobs
    have hmore : (s.jobs.map f).countP (fun job => job.place = .retained) ≤
        s.jobs.countP (fun job => job.place = .retained) +
          s.jobs.countP (fun job => job.ref = ref) := by
      rw [List.countP_map]
      refine Table.countP_le_add fun old hold hin => ?_
      by_cases heq : old.ref = ref
      · exact .inr (decide_eq_true heq)
      · rw [Function.comp_apply, hnew old hold heq] at hin
        exact .inl hin
    have hone := hinv.countP_ref_le_one ref (fun old => old.ref = ref) fun old _ h =>
      of_decide_eq_true h
    rw [hjobs]
    show _ + (false.toNat + (s.handler t.other).isEntering.toNat) ≤ maxRetainedJobs
    have hbefore : s.jobs.countP (fun job => job.place = .retained) +
        (1 + (s.handler t.other).isEntering.toNat) ≤ maxRetainedJobs := hentries
    rw [Bool.toNat_false]
    omega
  · rw [hqueue.nodup_iff, List.nodup_cons]
    refine ⟨fun hmem => ?_, hinv.queue_nodup⟩
    obtain ⟨old, hold, hin⟩ := (hinv.mem_queue id).mp hmem
    rw [hfree old hold] at hin
    cases hin
  · rw [hqueue.mem_iff, List.mem_cons, hinv.mem_queue id']
    show _ ↔ ∃ job ∈ (s.insertJob id ref).jobs, _
    rw [hjobs]
    constructor
    · rintro (rfl | ⟨old, hold, hin⟩)
      · refine ⟨_, List.mem_map_of_mem hjob, ?_⟩
        rw [hnewJob job hjob href]
        exact inTable_iff.mpr ⟨rfl, hid⟩
      · refine ⟨_, List.mem_map_of_mem hold, ?_⟩
        rw [hnew old hold]
        · exact hin
        · intro heq
          rw [hthis old hold heq, inTable_iff, hplace] at hin
          cases hin.1
    · rintro ⟨job', hjob', hin⟩
      obtain ⟨old, hold, rfl⟩ := List.mem_map.mp hjob'
      by_cases heq : old.ref = ref
      · rw [hnewJob old hold heq, inTable_iff] at hin
        exact .inl (hid.symm.trans hin.2).symm
      · rw [hnew old hold heq] at hin
        exact .inr ⟨old, hold, hin⟩

/-- A key comes to the end of the order list. -/
lemma Inv.push {t : Transport} {id : String} {ref : ℕ} {reply : Option JobReply} {h : Handler}
    (hinv : Inv s) (hhandler : s.handler t = .push id ref reply) (hstarting : h.starting = none)
    (hentering : h.isEntering = false) (hinserting : h.inserting = none)
    (hpushing : h.pushing = none) :
    Inv ({ s with order := s.order ++ [id] }.setHandler t h) := by
  have hqueue : ({ s with order := s.order ++ [id] }.setHandler t h).queue.Perm s.queue := by
    refine (queue_setHandler _ t _).trans ?_
    have hperm := s.queue_perm t
    rw [hhandler] at hperm
    rw [hpushing]
    show ((s.order ++ [id]) ++ ([] ++ _)).Perm _
    rw [List.append_assoc]
    exact hperm.symm
  refine ⟨hinv.refs, hinv.refs_lt, hinv.unreplaced, hinv.held, fun id' ref' => ?_, fun id' => ?_, ?_,
    ?_, ?_, fun id' => ?_⟩
  · have hlaunched := hinv.launched id' ref'
    rw [total_eq _ _ t, hhandler] at hlaunched
    rw [total_setHandler, hinserting]
    exact hlaunched
  · have hnamed := hinv.named id'
    rw [total_eq _ _ t, hhandler] at hnamed
    rw [total_setHandler, hstarting]
    exact hnamed
  · have hactive := hinv.active
    rw [total_eq _ _ t, hhandler] at hactive
    rw [total_setHandler, hstarting]
    exact hactive
  · have hentries := hinv.entries
    rw [total_eq _ _ t, hhandler] at hentries
    rw [total_setHandler, hentering]
    exact hentries
  · rw [hqueue.nodup_iff]
    exact hinv.queue_nodup
  · rw [hqueue.mem_iff]
    exact hinv.mem_queue id'

/-! ### Checks -/

lemma Inv.deref_eq (hinv : Inv s) {job : Job} (hjob : job ∈ s.jobs) :
    s.deref job.ref = some job := by
  cases hfound : s.deref job.ref with
  | none => exact absurd (decide_eq_true rfl) (List.find?_eq_none.mp hfound job hjob)
  | some found =>
    have hsame : found.ref = job.ref := by
      have hkey := List.find?_some hfound
      exact of_decide_eq_true hkey
    rw [Table.eq_of_key_eq hinv.refs (List.mem_of_find?_eq_some hfound) hjob hsame]

/-- A launched job is in the hands of a thread. -/
lemma Inv.inserting_eq (hinv : Inv s) {t : Transport} (hnone : (s.handler t).inserting = none)
    {job : Job} (hjob : job ∈ s.jobs) (hplace : job.place = .launched) :
    (s.handler t.other).inserting = some (job.jobId, job.ref) := by
  have hpos : 0 < s.jobs.countP (isLaunched job.jobId job.ref) :=
    List.countP_pos_iff.mpr ⟨job, hjob, isLaunched_iff.mpr ⟨hplace, rfl, rfl⟩⟩
  rw [hinv.launched, total_eq _ _ t, hnone] at hpos
  by_contra hother
  rw [decide_eq_false hother] at hpos
  simp at hpos

/-- The jobs that are not terminal are in the table, or in the hands of the other thread. -/
lemma Inv.countP_running_le (hinv : Inv s) {t : Transport} (hnone : (s.handler t).inserting = none) :
    s.jobs.countP (fun job => !job.state.isTerminal) +
        (s.handler t.other).starting.isSome.toNat ≤
      s.active + (s.mayActivate (s.handler t.other)).toNat := by
  have hsplit : s.jobs.countP (fun job => !job.state.isTerminal) ≤ s.active +
      s.jobs.countP (fun job => job.place = .launched && !job.state.isTerminal) := by
    refine Table.countP_le_add fun job hjob hrunning => ?_
    have hheld := hinv.held job hjob (by rwa [Bool.not_eq_true'] at hrunning)
    have hunreplaced := hinv.unreplaced job hjob
    cases hplace : job.place with
    | launched => exact .inr (by rw [hrunning]; rfl)
    | retained => exact .inl (by rw [hrunning]; rfl)
    | pruned => exact absurd hplace hheld
    | replaced => exact absurd hplace hunreplaced
  by_cases hrunning : ∃ job ∈ s.jobs, job.place = .launched ∧ job.state.isTerminal = false
  · obtain ⟨job, hjob, hplace, hstate⟩ := hrunning
    have hinserting := hinv.inserting_eq hnone hjob hplace
    have hone : s.jobs.countP (fun job => job.place = .launched && !job.state.isTerminal) ≤ 1 := by
      refine hinv.countP_ref_le_one job.ref _ fun job' hjob' hlaunched => ?_
      rw [Bool.and_eq_true, decide_eq_true_eq] at hlaunched
      have hinserting' := hinv.inserting_eq hnone hjob' hlaunched.1
      rw [hinserting] at hinserting'
      exact (Prod.mk.inj (Option.some.inj hinserting')).2.symm
    have hmay : s.mayActivate (s.handler t.other) = true := by
      rw [mayActivate, hinserting, Option.any_some, hinv.deref_eq hjob, Option.any_some, hstate]
      exact Bool.or_true _
    rw [hmay, Handler.starting_eq_none hinserting, Bool.toNat_true, Option.isSome_none,
      Bool.toNat_false]
    omega
  · have hzero : s.jobs.countP (fun job => job.place = .launched && !job.state.isTerminal) = 0 := by
      refine List.countP_eq_zero.mpr fun job hjob hlaunched => hrunning ⟨job, hjob, ?_⟩
      rw [Bool.and_eq_true, decide_eq_true_eq, Bool.not_eq_true'] at hlaunched
      exact hlaunched
    have hle : (s.handler t.other).starting.isSome.toNat ≤
        (s.mayActivate (s.handler t.other)).toNat := by
      rw [mayActivate]
      cases (s.handler t.other).starting with
      | none => exact Nat.zero_le _
      | some id => exact Nat.le_refl 1
    omega

/-- A start that passes the limit check where there is room. -/
lemma Inv.checkLimits {t : Transport} {spec : StartSpec} (hinv : Inv s)
    (hhandler : s.handler t = .checkLimits spec) (hok : s.checkLimits spec.jobId = .ok ())
    (hclaim : (s.handler t.other).claim ≠ some spec.jobId)
    (hroom : s.active + (s.mayActivate (s.handler t.other)).toNat < maxActiveJobs) :
    Inv (s.setHandler t (.prune spec)) := by
  have hnone : (s.handler t).inserting = none := by rw [hhandler]; rfl
  have habsent : s.get spec.jobId = none := by
    rw [JobEngine.checkLimits] at hok
    split at hok
    · cases hok
    · rename_i hget
      exact Option.not_isSome_iff_eq_none.mp hget
  have hfree : s.jobs.countP (isNamed spec.jobId) = 0 := by
    refine List.countP_eq_zero.mpr fun job hjob hnamed => ?_
    obtain ⟨hid, hplace⟩ := isNamed_iff.mp hnamed
    have hunreplaced := hinv.unreplaced job hjob
    cases hwhere : job.place with
    | launched =>
      have hinserting := hinv.inserting_eq hnone hjob hwhere
      refine hclaim ?_
      rw [Handler.claim, Handler.starting_eq_none hinserting, hinserting, hid]
      rfl
    | retained =>
      exact List.find?_eq_none.mp habsent job hjob (inTable_iff.mpr ⟨hwhere, hid⟩)
    | pruned => exact hplace hwhere
    | replaced => exact hunreplaced hwhere
  have hother : (s.handler t.other).starting ≠ some spec.jobId := by
    intro hstarting
    refine hclaim ?_
    rw [Handler.claim, hstarting]
    rfl
  refine hinv.setHandler ?_ ?_ (fun id => ?_) ?_ ?_
  · rw [hhandler]
    rfl
  · rw [hhandler]
    rfl
  · by_cases hsame : spec.jobId = id
    · rw [← hsame, hfree, decide_eq_false hother]
      simp [Handler.starting]
    · have hnamed := hinv.named id
      rw [total_eq _ _ t, hhandler] at hnamed
      rw [decide_eq_false]
      · exact hnamed
      · simpa [Handler.starting] using hsame
  · have hle := hinv.countP_running_le hnone
    show _ + (1 + _) ≤ maxActiveJobs
    omega
  · have hentries := hinv.entries
    rw [total_eq _ _ t, hhandler] at hentries
    exact hentries

/-- A start that passes the check of the retained jobs where there is room. -/
lemma Inv.checkRetained {t : Transport} {spec : StartSpec} (hinv : Inv s)
    (hhandler : s.handler t = .checkRetained spec)
    (hroom : s.len + (s.handler t.other).isEntering.toNat < maxRetainedJobs) :
    Inv (s.setHandler t (.launch spec)) := by
  refine hinv.setHandler ?_ ?_ (fun id => ?_) ?_ ?_
  · rw [hhandler]
    rfl
  · rw [hhandler]
    rfl
  · have hnamed := hinv.named id
    rw [total_eq _ _ t, hhandler] at hnamed
    exact hnamed
  · have hactive := hinv.active
    rw [total_eq _ _ t, hhandler] at hactive
    exact hactive
  · show _ + (1 + _) ≤ maxRetainedJobs
    omega

lemma Inv.prune {t : Transport} {spec : StartSpec} (hinv : Inv s)
    (hhandler : s.handler t = .prune spec) : Inv (s.setHandler t (.checkRetained spec)) := by
  refine hinv.setHandler ?_ ?_ (fun id => ?_) ?_ ?_
  · rw [hhandler]
    rfl
  · rw [hhandler]
    rfl
  · have hnamed := hinv.named id
    rw [total_eq _ _ t, hhandler] at hnamed
    exact hnamed
  · have hactive := hinv.active
    rw [total_eq _ _ t, hhandler] at hactive
    exact hactive
  · have hentries := hinv.entries
    rw [total_eq _ _ t, hhandler] at hentries
    exact hentries

/-! ### Runs -/

/-- What `receive` leaves in a state: the state itself, or a thread that has nothing of a start yet. -/
lemma receive_cases (s : JobEngine) (t : Transport) (request : JobRequest) :
    (s.receive t request).1 = s ∨ ∃ h : Handler, (s.receive t request).1 = s.setHandler t h ∧
      h.starting = none ∧ h.isEntering = false ∧ h.inserting = none ∧ h.pushing = none := by
  cases request with
  | start jobId argv cwd environment timeoutMs =>
    rw [receive]
    split
    · exact .inl rfl
    · exact .inr ⟨_, rfl, rfl, rfl, rfl, rfl⟩
  | status jobId logOffset maxBytes =>
    simp only [receive]
    split
    · exact .inl rfl
    · split
      · exact .inl rfl
      · exact .inr ⟨_, rfl, rfl, rfl, rfl, rfl⟩
  | cancel jobId =>
    rw [receive]
    split
    · exact .inl rfl
    · split
      · exact .inl rfl
      · exact .inr ⟨_, rfl, rfl, rfl, rfl, rfl⟩

lemma keeps_logs (logs : Job → LogRing) : Keeps fun job => { job with logs := logs job } :=
  ⟨fun _ => rfl, fun _ => rfl, fun _ hrunning => hrunning⟩

lemma keeps_waiter (waiter : Job → Waiter) : Keeps fun job => { job with waiter := waiter job } :=
  ⟨fun _ => rfl, fun _ => rfl, fun _ hrunning => hrunning⟩

lemma keeps_finishJob (outcome : JobOutcome) (now : ℕ) : Keeps fun job => finishJob job outcome now := by
  refine ⟨fun _ => rfl, fun _ => rfl, fun job hrunning => ?_⟩
  rw [finishJob, outcome.terminal] at hrunning
  cases hrunning

lemma keeps_requestCancel (appended : List UInt8) : Keeps (requestCancel appended) :=
  ⟨fun _ => rfl, fun _ => rfl, fun _ hrunning => hrunning⟩

lemma Inv.cancelJob (hinv : Inv s) {t : Transport} {ref : ℕ} (hhandler : s.handler t = .cancel ref)
    (job : Job) (appended : List UInt8) : Inv (s.cancelJob t job appended).1 := by
  have hanswered : Inv (s.setHandler t .idle) :=
    hinv.release rfl rfl (by rw [hhandler]; rfl) (by rw [hhandler]; rfl)
  rw [JobEngine.cancelJob]
  split
  · exact hanswered
  · split
    · exact hanswered
    · exact hanswered.updateJob (keeps_requestCancel appended) (fun _ => rfl) job.ref

lemma Inv.step {event : Event} (hinv : Inv s) (hroom : s.leavesRoom event = true)
    (hstep : s.step event = some s') : Inv s' := by
  rw [JobEngine.step] at hstep
  obtain ⟨r, hrespond, rfl⟩ := Option.map_eq_some_iff.mp hstep
  cases event with
  | receive t request =>
    simp only [respond] at hrespond
    split at hrespond
    · rename_i hidle
      obtain rfl := Option.some.inj hrespond
      rcases s.receive_cases t request with heq | ⟨h, heq, hstarting, hentering, hins, hpush⟩
      · rw [heq]
        exact hinv
      · rw [heq]
        exact hinv.release hstarting hentering (by rw [hidle]; exact hins)
          (by rw [hidle]; exact hpush)
    · cases hrespond
  | checkLimits t =>
    simp only [respond] at hrespond
    split at hrespond
    · rename_i spec hhandler
      split at hrespond
      · obtain rfl := Option.some.inj hrespond
        exact hinv.release rfl rfl (by rw [hhandler]; rfl) (by rw [hhandler]; rfl)
      · rename_i hok
        obtain rfl := Option.some.inj hrespond
        simp only [leavesRoom, hhandler, hok, Except.isOk, Except.toBool, Bool.not_true,
          Bool.false_or, Bool.and_eq_true, decide_eq_true_eq] at hroom
        exact hinv.checkLimits hhandler hok hroom.1 hroom.2
    · cases hrespond
  | prune t =>
    simp only [respond] at hrespond
    split at hrespond
    · rename_i spec hhandler
      obtain rfl := Option.some.inj hrespond
      refine (hinv.pruneLoop s.len).prune ?_
      rw [pruneLoop_handler]
      exact hhandler
    · cases hrespond
  | checkRetained t =>
    simp only [respond] at hrespond
    split at hrespond
    · rename_i spec hhandler
      split at hrespond
      · obtain rfl := Option.some.inj hrespond
        exact hinv.release rfl rfl (by rw [hhandler]; rfl) (by rw [hhandler]; rfl)
      · rename_i hlen
        obtain rfl := Option.some.inj hrespond
        rw [leavesRoom, decide_eq_false hlen, Bool.false_or, decide_eq_true_eq] at hroom
        exact hinv.checkRetained hhandler hroom
    · cases hrespond
  | launch t createdAt launch =>
    simp only [respond] at hrespond
    split at hrespond
    · rename_i spec hhandler
      obtain rfl := Option.some.inj hrespond
      cases launch with
      | noDirectory error =>
        exact hinv.release rfl rfl (by rw [hhandler]; rfl) (by rw [hhandler]; rfl)
      | failed error finishedAt => exact hinv.launch hhandler rfl rfl rfl
      | spawned pid startedAt => exact hinv.launch hhandler rfl rfl rfl
    · cases hrespond
  | insert t =>
    simp only [respond] at hrespond
    split at hrespond
    · rename_i id ref reply hhandler
      obtain rfl := Option.some.inj hrespond
      exact hinv.insertJob hhandler
    · cases hrespond
  | push t =>
    simp only [respond] at hrespond
    split at hrespond
    · rename_i id ref reply hhandler
      obtain rfl := Option.some.inj hrespond
      exact hinv.push hhandler rfl rfl rfl rfl
    · rename_i id ref hhandler
      obtain rfl := Option.some.inj hrespond
      have hpushed := hinv.push hhandler (h := .report ref 0 maxLogChunkBytes) rfl rfl rfl rfl
      exact hpushed.updateJob (keeps_waiter fun _ => .waiting) (fun _ => rfl) ref
    · cases hrespond
  | report t =>
    simp only [respond] at hrespond
    split at hrespond
    · rename_i ref logOffset maxBytes hhandler
      obtain ⟨job, -, rfl⟩ := Option.map_eq_some_iff.mp hrespond
      exact hinv.release rfl rfl (by rw [hhandler]; rfl) (by rw [hhandler]; rfl)
    · cases hrespond
  | cancel t appended =>
    simp only [respond] at hrespond
    split at hrespond
    · rename_i ref hhandler
      obtain ⟨job, -, rfl⟩ := Option.map_eq_some_iff.mp hrespond
      exact hinv.cancelJob hhandler job appended
    · cases hrespond
  | output ref chunk =>
    simp only [respond] at hrespond
    split at hrespond
    · obtain rfl := Option.some.inj hrespond
      exact hinv.updateJob (keeps_logs fun job => job.logs.append chunk) (fun _ => rfl) ref
    · cases hrespond
  | waiterReads ref timedOut status =>
    simp only [respond] at hrespond
    split at hrespond
    · obtain rfl := Option.some.inj hrespond
      exact hinv.updateJob
        (keeps_waiter fun job => .deciding (jobOutcome timedOut job.cancelRequested status))
        (fun _ => rfl) ref
    · cases hrespond
  | waiterWrites ref now =>
    simp only [respond] at hrespond
    split at hrespond
    · rename_i outcome _
      obtain rfl := Option.some.inj hrespond
      exact hinv.updateJob (keeps_finishJob outcome now) (fun _ => rfl) ref
    · cases hrespond

def Reachable (allowed : JobEngine → Event → Prop) : JobEngine → Prop :=
  Transition.Leads step allowed initial

lemma Reachable.inv (h : Reachable (fun s event => s.leavesRoom event = true) s) : Inv s :=
  Transition.Leads.invariant Inv h inv_initial fun _ _ _ hinv hroom hstep => hinv.step hroom hstep

/-- The table stays within its limits and its order list with it, as long as no start passes a check
without room for the start of the other thread. -/
theorem tableOk_of_leavesRoom (h : Reachable (fun s event => s.leavesRoom event = true) s) :
    TableOk s := by
  have hinv := h.inv
  refine ⟨Nat.le_trans (Nat.le_add_right _ _) hinv.active,
    Nat.le_trans (Nat.le_add_right _ _) hinv.entries,
    fun job hjob job' hjob' hid hplace hplace' => hinv.eq_of_jobId hjob hjob' hid hplace hplace',
    fun job hjob hretained hpushed => ?_, fun id hid => ?_⟩
  · have hmem := (hinv.mem_queue job.jobId).mpr ⟨job, hjob, inTable_iff.mpr ⟨hretained, rfl⟩⟩
    refine List.count_eq_one_of_mem (List.Nodup.of_append_left hinv.queue_nodup) ?_
    rcases List.mem_append.mp hmem with horder | hpushing
    · exact horder
    · rcases List.mem_append.mp hpushing with hstdio | hsocket
      · exact absurd (Option.mem_toList.mp hstdio) (hpushed .stdio)
      · exact absurd (Option.mem_toList.mp hsocket) (hpushed .socket)
  · rw [get, List.find?_isSome]
    exact (hinv.mem_queue id).mp (List.mem_append_left _ hid)

/-! ### Two starts at once -/

def demoStart (jobId : String) : JobRequest :=
  .start (.string jobId) (.array [.string "true"]) (.string ".") (.object []) (.number (some 1000))

/-- A start of each thread, both of which check the limits before either inserts its job. -/
def demoBothStart : List Event := [
  .receive .stdio (demoStart "00000000-0000-4000-8000-000000000001"),
  .receive .socket (demoStart "00000000-0000-4000-8000-000000000002"),
  .checkLimits .stdio, .checkLimits .socket, .prune .stdio, .prune .socket,
  .checkRetained .stdio, .checkRetained .socket,
  .launch .stdio 0 (.spawned 1 0), .launch .socket 0 (.spawned 2 0),
  .insert .stdio, .insert .socket, .push .stdio, .push .socket, .report .stdio, .report .socket]

theorem tableOk_of_leavesRoom_bothStart :
    ∃ s, Transition.exec (Transition.guard step leavesRoom) initial demoBothStart = some s ∧
      s.len = 2 ∧ TableOk s := by
  have hrun : (Transition.exec (Transition.guard step leavesRoom) initial demoBothStart).map len =
      some 2 := by
    decide +kernel
  obtain ⟨s, hs, hlen⟩ := Option.map_eq_some_iff.mp hrun
  exact ⟨s, hs, hlen, tableOk_of_leavesRoom (Transition.leads_of_exec_guard hs)⟩

/-- One job that runs already. -/
def demoRunning : List Event := [
  .receive .stdio (demoStart "00000000-0000-4000-8000-000000000000"), .checkLimits .stdio,
  .prune .stdio, .checkRetained .stdio, .launch .stdio 0 (.spawned 3 0), .insert .stdio,
  .push .stdio, .report .stdio]

/-- Both starts find one active job and pass, so that three are active. -/
theorem not_tableOk : ¬∀ s, Reachable Transition.anyStep s → TableOk s := by
  intro hall
  have hrun : (Transition.exec step initial (demoRunning ++ demoBothStart)).map
      (fun s => s.jobs.countP fun job => !job.state.isTerminal) = some 3 := by
    decide +kernel
  obtain ⟨s, hs, hcount⟩ := Option.map_eq_some_iff.mp hrun
  have hactive := (hall s (Transition.leads_of_exec hs)).active
  rw [hcount] at hactive
  exact absurd hactive (by decide)

end JobEngine

end Bloom
