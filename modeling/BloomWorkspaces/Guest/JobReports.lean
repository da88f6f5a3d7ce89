import BloomWorkspaces.Guest.JobTable
import Mathlib.Data.List.Find

/-!
# What is reported of a job

A job is reported by the start that launched it, by `status` and by `cancel`, while its wait thread appends
to its log and ends it. The last append comes before the end, and after the end nothing of the job changes
but its place.
-/

namespace Bloom

/-- The job that a thread is about to answer for. -/
def Handler.subject : Handler → Option ℕ
  | .push _ ref (some _) => some ref
  | .report ref _ _ => some ref
  | .cancel ref => some ref
  | _ => none

/-- The job that a thread is about to enter into the table, with its reply if the launch has failed. -/
def Handler.entering : Handler → Option (ℕ × Option JobReply)
  | .insert _ ref reply => some (ref, reply)
  | .push _ ref reply => some (ref, reply)
  | _ => none

namespace JobEngine

/-- The thread that takes the step; the wait threads have none. -/
def Event.thread : Event → Option Transport
  | .receive t _ | .checkLimits t | .prune t | .checkRetained t | .launch t _ _ | .insert t | .push t |
    .report t | .cancel t _ => some t
  | .output _ _ | .waiterReads _ _ _ | .waiterWrites _ _ => none

/-- The report of a job that a step makes. -/
def report (s : JobEngine) (event : Event) : Option (ℕ × JobReply) :=
  match s.respond event with
  | some (_, some (.ok reply)) => (event.thread.bind fun t => (s.handler t).subject).map fun ref => (ref, reply)
  | _ => none

/-- A step that is not enabled is no step. -/
def next (s : JobEngine) (event : Event) : JobEngine := (s.step event).getD s

def run (s : JobEngine) (events : List Event) : JobEngine := events.foldl next s

/-- The reports of one job along a run. -/
def reportsOf (ref : ℕ) : JobEngine → List Event → List JobReply
  | _, [] => []
  | s, event :: events =>
    ((s.report event).toList.filter fun r => r.1 = ref).map Prod.snd ++ reportsOf ref (s.next event) events

end JobEngine

/-- What must not change once it is terminal. -/
def JobReply.ending (r : JobReply) : JobState × Option ℕ × Option ℕ × Option ℕ :=
  (r.state, r.finishedAt, r.exitCode, r.signal)

def Job.ending (job : Job) : JobState × Option ℕ × Option ℕ × Option ℕ :=
  (job.state, job.finishedAt, job.exitCode, job.signalNumber)

/-- The law on the reports of one job in the order in which they are made. -/
structure ReportsInOrder (reports : List JobReply) : Prop where
  states : ∃ before after, reports = before ++ after ∧ (∀ r ∈ before, r.state = .running) ∧
    ∀ r ∈ after, r.state.isTerminal = true
  settled : reports.Pairwise fun r r' => r.state.isTerminal = true → r'.ending = r.ending
  logs : reports.Pairwise fun r r' => ∀ chunk chunk', r.logs = .ok chunk → chunk.eof = true →
    r'.logs = .ok chunk' → chunk'.endOffset = chunk.endOffset

/-- What the reports of a job have told stays true of it. -/
structure StillTrue (reports : List JobReply) (job : Job) : Prop where
  ending : ∀ r ∈ reports, r.state.isTerminal = true → job.ending = r.ending
  logs : ∀ r ∈ reports, ∀ chunk, r.logs = .ok chunk → chunk.eof = true →
    job.logs.endOffset = chunk.endOffset ∧ chunk.nextOffset = chunk.endOffset

namespace JobEngine

variable {s s' : JobEngine} {job job' : Job} {ref : ℕ}

/-! ### Lives of jobs -/

/-- The job has not changed but for its place and a request to cancel it. -/
def Same (job job' : Job) : Prop :=
  job' = { job with place := job'.place, cancelRequested := job'.cancelRequested }

/-- A job runs, or it has ended and its wait thread with it. -/
def Lives (job : Job) : Prop :=
  job.state = .running ∨ job.state.isTerminal = true ∧ job.waiter = .absent

/-- What a step may make of a job. -/
structure Turns (job job' : Job) : Prop where
  ref : job'.ref = job.ref
  lives : Lives job'
  same : job.state.isTerminal = true → Same job job'

lemma Same.refl (job : Job) : Same job job := rfl

lemma Turns.refl (h : Lives job) : Turns job job := ⟨rfl, h, fun _ => .refl job⟩

lemma Same.lives (h : Same job job') (hlives : Lives job) : Lives job' := by
  rw [h]
  exact hlives

lemma Same.turns (h : Same job job') (hlives : Lives job) : Turns job job' :=
  ⟨by rw [h], h.lives hlives, fun _ => h⟩

lemma Same.reply (h : Same job job') (logOffset maxBytes : ℕ) :
    statusOfInner job' logOffset maxBytes = statusOfInner job logOffset maxBytes := by
  rw [h]
  rfl

/-- The state of a job that a thread is about to enter into the table. -/
def Enters (job : Job) (reply : Option JobReply) : Prop :=
  job.waiter = .absent ∧
    match reply with
    | none => job.state = .running
    | some r => job.state.isTerminal = true ∧ r = statusOfInner job 0 maxLogChunkBytes

lemma Same.enters {reply : Option JobReply} (h : Same job job') (henters : Enters job reply) :
    Enters job' reply := by
  rw [h]
  exact henters

/-- The jobs are numbered, each of them lives, and those that are about to be entered are as their threads
have left them. -/
structure Orderly (s : JobEngine) : Prop where
  numbered : s.jobs.map Job.ref = List.range s.jobs.length
  lives : ∀ job ∈ s.jobs, Lives job
  entering : ∀ t ref reply, (s.handler t).entering = some (ref, reply) →
    ∃ job, s.deref ref = some job ∧ Enters job reply
  apart : ∀ t ref reply reply', (s.handler t).entering = some (ref, reply) →
    (s.handler t.other).entering ≠ some (ref, reply')

lemma orderly_initial : Orderly initial := by
  refine ⟨rfl, fun job hjob => absurd hjob List.not_mem_nil, ?_, ?_⟩
  · intro t ref reply h
    cases h
  · intro t ref reply reply' h
    cases h

lemma Orderly.deref_iff (h : Orderly s) : s.deref ref = some job ↔ job ∈ s.jobs ∧ job.ref = ref := by
  have hnodup : (s.jobs.map Job.ref).Nodup := by
    rw [h.numbered]
    exact List.nodup_range
  exact Table.find?_key_eq_some hnodup

lemma Orderly.deref_length (h : Orderly s) : s.deref s.jobs.length = none := by
  rw [Option.eq_none_iff_forall_ne_some]
  intro job hjob
  obtain ⟨hmem, href⟩ := h.deref_iff.mp hjob
  have hlt : job.ref ∈ s.jobs.map Job.ref := List.mem_map_of_mem hmem
  rw [h.numbered, List.mem_range] at hlt
  omega

/-- Every job of the first state is there in the second one, and what has become of it. -/
def Advances (s s' : JobEngine) : Prop :=
  ∀ ref job, s.deref ref = some job → ∃ job', s'.deref ref = some job' ∧ Turns job job'

section Steps

variable {f : Job → Job} {order : List String} {handler : Transport → Handler}

lemma deref_map (hturns : ∀ job ∈ s.jobs, Turns job (f job)) (ref : ℕ) :
    JobEngine.deref ⟨s.jobs.map f, order, handler⟩ ref = (s.deref ref).map f := by
  rw [deref, deref, List.find?_map]
  congr 1
  refine List.find?_congr fun job hjob => ?_
  rw [Function.comp_apply, (hturns job hjob).ref]

/-- A step that changes jobs, and not those that a thread is about to enter. -/
lemma Orderly.map (h : Orderly s) (hturns : ∀ job ∈ s.jobs, Turns job (f job))
    (hentering : ∀ t ref reply, (handler t).entering = some (ref, reply) →
      (s.handler t).entering = some (ref, reply) ∧ ∀ job ∈ s.jobs, job.ref = ref → Same job (f job)) :
    Orderly ⟨s.jobs.map f, order, handler⟩ ∧ Advances s ⟨s.jobs.map f, order, handler⟩ := by
  refine ⟨⟨?_, ?_, ?_, ?_⟩, ?_⟩
  · rw [List.map_map, List.length_map, ← h.numbered]
    exact List.map_congr_left fun job hjob => (hturns job hjob).ref
  · intro job' hjob'
    obtain ⟨job, hjob, rfl⟩ := List.mem_map.mp hjob'
    exact (hturns job hjob).lives
  · intro t ref reply hentry
    obtain ⟨hbefore, hsame⟩ := hentering t ref reply hentry
    obtain ⟨job, hjob, henters⟩ := h.entering t ref reply hbefore
    obtain ⟨hmem, href⟩ := h.deref_iff.mp hjob
    exact ⟨f job, by rw [deref_map hturns, hjob, Option.map_some], (hsame job hmem href).enters henters⟩
  · intro t ref reply reply' hentry hother
    exact h.apart t ref reply reply' (hentering t ref reply hentry).1 (hentering t.other ref reply' hother).1
  · intro ref job hjob
    exact ⟨f job, by rw [deref_map hturns, hjob, Option.map_some], hturns job (h.deref_iff.mp hjob).1⟩

/-- A step of one thread that changes nothing of a job but its place. -/
lemma Orderly.mapSame (h : Orderly s) {t : Transport} {after : Handler} (hsame : ∀ job ∈ s.jobs, Same job (f job))
    (hafter : ∀ entry, after.entering = some entry → (s.handler t).entering = some entry) :
    Orderly ⟨s.jobs.map f, order, Function.update s.handler t after⟩ ∧
      Advances s ⟨s.jobs.map f, order, Function.update s.handler t after⟩ := by
  refine h.map (fun job hjob => (hsame job hjob).turns (h.lives job hjob)) fun t' ref reply hentry =>
    ⟨?_, fun job hjob _ => hsame job hjob⟩
  by_cases ht : t' = t
  · subst ht
    rw [Function.update_self] at hentry
    exact hafter _ hentry
  · rwa [Function.update_of_ne ht] at hentry

/-- A step of one thread that leaves the jobs as they are. -/
lemma Orderly.setHandler (h : Orderly s) {t : Transport} {after : Handler}
    (hafter : ∀ entry, after.entering = some entry → (s.handler t).entering = some entry) :
    Orderly ⟨s.jobs, order, Function.update s.handler t after⟩ ∧
      Advances s ⟨s.jobs, order, Function.update s.handler t after⟩ := by
  have hmap : Orderly ⟨s.jobs.map fun job => job, order, Function.update s.handler t after⟩ ∧
      Advances s ⟨s.jobs.map fun job => job, order, Function.update s.handler t after⟩ :=
    h.mapSame (fun job _ => .refl job) hafter
  rwa [List.map_id'] at hmap

/-- A start has launched a job, which no thread but its own knows. -/
lemma Orderly.launch (h : Orderly s) {t : Transport} {id : String} {reply : Option JobReply}
    (href : job.ref = s.jobs.length) (hlives : Lives job) (henters : Enters job reply) :
    Orderly ({ s with jobs := s.jobs ++ [job] }.setHandler t (.insert id job.ref reply)) ∧
      Advances s ({ s with jobs := s.jobs ++ [job] }.setHandler t (.insert id job.ref reply)) := by
  have hderef : ∀ ref, JobEngine.deref
      ({ s with jobs := s.jobs ++ [job] }.setHandler t (.insert id job.ref reply)) ref =
        (s.deref ref).or ([job].find? fun job => job.ref = ref) := fun ref => List.find?_append
  have hold : ∀ ref old, s.deref ref = some old → JobEngine.deref
      ({ s with jobs := s.jobs ++ [job] }.setHandler t (.insert id job.ref reply)) ref = some old := by
    intro ref old hjob
    rw [hderef, hjob, Option.some_or]
  have hnew : JobEngine.deref
      ({ s with jobs := s.jobs ++ [job] }.setHandler t (.insert id job.ref reply)) job.ref = some job := by
    rw [hderef, href, h.deref_length, Option.none_or]
    exact List.find?_cons_of_pos (decide_eq_true href)
  have hfresh : ∀ t' reply', (s.handler t').entering ≠ some (job.ref, reply') := by
    intro t' reply' hentry
    obtain ⟨old, hjob, -⟩ := h.entering t' job.ref reply' hentry
    rw [href, h.deref_length] at hjob
    cases hjob
  have hframe : ∀ t', t' ≠ t → (JobEngine.setHandler { s with jobs := s.jobs ++ [job] } t
      (.insert id job.ref reply)).handler t' = s.handler t' := fun t' ht => Function.update_of_ne ht _ _
  refine ⟨⟨?_, ?_, ?_, ?_⟩, fun ref old hjob => ⟨old, hold ref old hjob, .refl (h.lives old (h.deref_iff.mp hjob).1)⟩⟩
  · show (s.jobs ++ [job]).map Job.ref = _
    rw [List.map_append, h.numbered]
    show _ ++ [job.ref] = List.range (s.jobs ++ [job]).length
    rw [href, List.length_append, List.length_singleton, List.range_succ]
  · intro job' hjob'
    rcases List.mem_append.mp hjob' with hmem | hmem
    · exact h.lives job' hmem
    · rw [List.mem_singleton.mp hmem]
      exact hlives
  · intro t' ref reply' hentry
    by_cases ht : t' = t
    · subst ht
      rw [setHandler_self] at hentry
      obtain ⟨rfl, rfl⟩ := Prod.mk.inj (Option.some.inj hentry)
      exact ⟨job, hnew, henters⟩
    · rw [hframe t' ht] at hentry
      obtain ⟨old, hjob, hold'⟩ := h.entering t' ref reply' hentry
      exact ⟨old, hold ref old hjob, hold'⟩
  · intro t' ref reply₁ reply₂ hentry hother
    by_cases ht : t' = t
    · subst ht
      rw [setHandler_self] at hentry
      rw [setHandler_other] at hother
      obtain ⟨rfl, rfl⟩ := Prod.mk.inj (Option.some.inj hentry)
      exact hfresh _ _ hother
    · rw [hframe t' ht] at hentry
      by_cases ht' : t'.other = t
      · rw [← ht', setHandler_self] at hother
        obtain ⟨rfl, rfl⟩ := Prod.mk.inj (Option.some.inj hother)
        exact hfresh _ _ hentry
      · rw [hframe t'.other ht'] at hother
        exact h.apart t' ref reply₁ reply₂ hentry hother

/-- A step that changes one job. -/
lemma Orderly.updateJob (h : Orderly s) (hjob : s.deref ref = some job) (hturns : Turns job (f job))
    (hhandler : ∀ t entry, (handler t).entering = some entry → (s.handler t).entering = some entry)
    (hentering : ∀ t reply, (handler t).entering = some (ref, reply) → Same job (f job)) :
    Orderly ⟨(s.updateJob ref f).jobs, order, handler⟩ ∧
      Advances s ⟨(s.updateJob ref f).jobs, order, handler⟩ := by
  have honly : ∀ job' ∈ s.jobs, job'.ref = ref → job' = job := by
    intro job' hmem href
    have hjob' := h.deref_iff.mpr ⟨hmem, href⟩
    rw [hjob] at hjob'
    exact (Option.some.inj hjob').symm
  refine h.map (fun job' hmem => ?_) fun t ref' reply hentry =>
    ⟨hhandler t _ hentry, fun job' hmem href' => ?_⟩
  · by_cases href : job'.ref = ref
    · rw [if_pos (decide_eq_true href), honly job' hmem href]
      exact hturns
    · rw [if_neg (by simpa using href)]
      exact .refl (h.lives job' hmem)
  · by_cases href : job'.ref = ref
    · rw [if_pos (decide_eq_true href), honly job' hmem href]
      exact hentering t reply (by rwa [← href, href'])
    · rw [if_neg (by simpa using href)]
      exact .refl job'

end Steps

/-- A thread that has nothing to enter leaves it to the other one. -/
lemma entering_update {t t' : Transport} {after : Handler} {entry : ℕ × Option JobReply}
    (hafter : after.entering = none)
    (hentry : (Function.update s.handler t after t').entering = some entry) :
    t' ≠ t ∧ (s.handler t').entering = some entry := by
  by_cases ht : t' = t
  · subst ht
    rw [Function.update_self, hafter] at hentry
    cases hentry
  · rw [Function.update_of_ne ht] at hentry
    exact ⟨ht, hentry⟩

lemma pruneLoop_jobs (turns : ℕ) (s : JobEngine) : ∃ f order, (∀ job, Same job (f job)) ∧
    s.pruneLoop turns = ⟨s.jobs.map f, order, s.handler⟩ := by
  induction turns generalizing s with
  | zero => exact ⟨id, s.order, Same.refl, by rw [List.map_id, pruneLoop]⟩
  | succ turns ih =>
    rw [pruneLoop]
    split
    · exact ⟨id, s.order, Same.refl, by rw [List.map_id]⟩
    · split
      · rename_i id _
        obtain ⟨f, order, hsame, heq⟩ := ih (s.removeJob id)
        refine ⟨_, order, fun job => ?_, by rw [heq, removeJob, Table.updateWhere, List.map_map]⟩
        rw [Function.comp_apply]
        split
        · exact hsame { job with place := .pruned }
        · exact hsame job
      · exact ⟨id, s.order, Same.refl, by rw [List.map_id]⟩

/-- A job whose wait thread is there runs. -/
lemma Lives.running (h : Lives job) (hwaiter : job.waiter ≠ .absent) : job.state = .running :=
  h.resolve_right fun hended => hwaiter hended.2

lemma turns_of_running (hrunning : job.state = .running) (href : job'.ref = job.ref)
    (hlives : Lives job') : Turns job job' := by
  refine ⟨href, hlives, fun hterminal => ?_⟩
  rw [hrunning] at hterminal
  cases hterminal

/-- A thread does not enter a job whose wait thread is there. -/
lemma Orderly.not_entering (h : Orderly s) (hjob : s.deref ref = some job) (hwaiter : job.waiter ≠ .absent)
    (t : Transport) (reply : Option JobReply) : (s.handler t).entering ≠ some (ref, reply) := by
  intro hentry
  obtain ⟨job', hjob', henters⟩ := h.entering t ref reply hentry
  rw [hjob] at hjob'
  obtain rfl := Option.some.inj hjob'
  exact hwaiter henters.1

/-- A step of a wait thread. -/
lemma Orderly.waiter (h : Orderly s) {f : Job → Job} (hjob : s.deref ref = some job)
    (hwaiter : job.waiter ≠ .absent) (href : (f job).ref = job.ref) (hlives : Lives (f job)) :
    Orderly (s.updateJob ref f) ∧ Advances s (s.updateJob ref f) :=
  h.updateJob hjob (turns_of_running
      ((h.lives job (h.deref_iff.mp hjob).1).running hwaiter) href hlives)
    (fun _ _ hentry => hentry) fun t reply hentry => absurd hentry (h.not_entering hjob hwaiter t reply)

lemma Orderly.cancelJob (h : Orderly s) {t : Transport} (hjob : s.deref ref = some job) (appended : List UInt8) :
    Orderly (s.cancelJob t job appended).1 ∧ Advances s (s.cancelJob t job appended).1 := by
  have hidle : ∀ entry, Handler.idle.entering = some entry → (s.handler t).entering = some entry := by
    intro entry hentry
    cases hentry
  obtain ⟨hmem, href⟩ := h.deref_iff.mp hjob
  rw [JobEngine.cancelJob]
  split
  · exact h.setHandler hidle
  · rename_i hterminal
    split
    · exact h.setHandler hidle
    · have hlives := h.lives job hmem
      have hrunning := hlives.resolve_right fun hended => hterminal hended.1
      rw [href]
      refine h.updateJob hjob (turns_of_running hrunning rfl (.inl hrunning))
        (fun t' entry hentry => (entering_update rfl hentry).2) fun t' reply hentry => ?_
      obtain ⟨-, hbefore⟩ := entering_update rfl hentry
      obtain ⟨job', hjob', hwaiter, -⟩ := h.entering t' ref reply hbefore
      rw [hjob] at hjob'
      obtain rfl := Option.some.inj hjob'
      rw [Same, requestCancel, if_neg (by rw [hwaiter]; decide)]

lemma Orderly.step {event : Event} {answer : Option Answer} (h : Orderly s)
    (hrespond : s.respond event = some (s', answer)) : Orderly s' ∧ Advances s s' := by
  cases event with
  | receive t request =>
    simp only [respond] at hrespond
    split at hrespond
    · have hs' : s' = (s.receive t request).1 := by rw [Option.some.inj hrespond]
      rcases s.receive_cases t request with heq | ⟨handler, heq, -, -, hinserting, hpushing⟩
      · rw [hs', heq]
        exact ⟨h, fun ref job hjob => ⟨job, hjob, .refl (h.lives job (h.deref_iff.mp hjob).1)⟩⟩
      · rw [hs', heq]
        refine h.setHandler fun entry hentry => ?_
        cases handler with
        | insert => cases hinserting
        | push => cases hpushing
        | _ => cases hentry
    · cases hrespond
  | checkLimits t =>
    simp only [respond] at hrespond
    split at hrespond
    · split at hrespond
      all_goals
        obtain ⟨rfl, -⟩ := Prod.mk.inj (Option.some.inj hrespond)
        exact h.setHandler fun entry hentry => by cases hentry
    · cases hrespond
  | prune t =>
    simp only [respond] at hrespond
    split at hrespond
    · obtain ⟨rfl, -⟩ := Prod.mk.inj (Option.some.inj hrespond)
      obtain ⟨f, order, hsame, heq⟩ := s.pruneLoop_jobs s.len
      rw [pruneTerminalJobs, heq]
      exact h.mapSame (fun job _ => hsame job) fun entry hentry => by cases hentry
    · cases hrespond
  | checkRetained t =>
    simp only [respond] at hrespond
    split at hrespond
    · split at hrespond
      all_goals
        obtain ⟨rfl, -⟩ := Prod.mk.inj (Option.some.inj hrespond)
        exact h.setHandler fun entry hentry => by cases hentry
    · cases hrespond
  | launch t createdAt launch =>
    simp only [respond] at hrespond
    split at hrespond
    · rename_i spec _
      have hs' : s' = (s.launchJob t spec createdAt launch).1 := by rw [Option.some.inj hrespond]
      rw [hs']
      cases launch with
      | noDirectory error => exact h.setHandler fun entry hentry => by cases hentry
      | failed error finishedAt => exact h.launch rfl (.inr ⟨rfl, rfl⟩) ⟨rfl, rfl, rfl⟩
      | spawned pid startedAt => exact h.launch rfl (.inl rfl) ⟨rfl, rfl⟩
    · cases hrespond
  | insert t =>
    simp only [respond] at hrespond
    split at hrespond
    · rename_i id ref reply hhandler
      obtain ⟨rfl, -⟩ := Prod.mk.inj (Option.some.inj hrespond)
      refine h.mapSame (fun job _ => ?_) fun entry hentry => ?_
      · split
        · rfl
        · split <;> rfl
      · rw [hhandler]
        exact hentry
    · cases hrespond
  | push t =>
    simp only [respond] at hrespond
    split at hrespond
    · obtain ⟨rfl, -⟩ := Prod.mk.inj (Option.some.inj hrespond)
      exact h.setHandler fun entry hentry => by cases hentry
    · rename_i id ref hhandler
      obtain ⟨rfl, -⟩ := Prod.mk.inj (Option.some.inj hrespond)
      have hentering : (s.handler t).entering = some (ref, none) := by rw [hhandler]; rfl
      obtain ⟨job, hjob, -, hrunning⟩ := h.entering t ref none hentering
      have hlives := h.lives job (h.deref_iff.mp hjob).1
      refine h.updateJob hjob (turns_of_running hrunning rfl (.inl hrunning))
        (fun t' entry hentry => (entering_update rfl hentry).2) fun t' reply hentry => ?_
      obtain ⟨ht, hentry'⟩ := entering_update rfl hentry
      have hothers : t' = t.other := by
        cases t <;> cases t' <;> first | rfl | exact absurd rfl ht
      rw [hothers] at hentry'
      exact absurd hentry' (h.apart t ref none reply hentering)
    · cases hrespond
  | report t =>
    simp only [respond] at hrespond
    split at hrespond
    · obtain ⟨job, -, heq⟩ := Option.map_eq_some_iff.mp hrespond
      obtain ⟨rfl, -⟩ := Prod.mk.inj heq
      exact h.setHandler fun entry hentry => by cases hentry
    · cases hrespond
  | cancel t appended =>
    simp only [respond] at hrespond
    split at hrespond
    · obtain ⟨job, hjob, heq⟩ := Option.map_eq_some_iff.mp hrespond
      have hs' : s' = (s.cancelJob t job appended).1 := by rw [heq]
      rw [hs']
      exact h.cancelJob hjob appended
    · cases hrespond
  | output ref chunk =>
    simp only [respond] at hrespond
    split at hrespond
    · rename_i hwaiter
      obtain ⟨job, hjob, hwaiting⟩ := Option.map_eq_some_iff.mp hwaiter
      obtain ⟨rfl, -⟩ := Prod.mk.inj (Option.some.inj hrespond)
      have hpresent : job.waiter ≠ .absent := by rw [hwaiting]; decide
      exact h.waiter hjob hpresent rfl (.inl ((h.lives job (h.deref_iff.mp hjob).1).running hpresent))
    · cases hrespond
  | waiterReads ref timedOut status =>
    simp only [respond] at hrespond
    split at hrespond
    · rename_i hwaiter
      obtain ⟨job, hjob, hwaiting⟩ := Option.map_eq_some_iff.mp hwaiter
      obtain ⟨rfl, -⟩ := Prod.mk.inj (Option.some.inj hrespond)
      have hpresent : job.waiter ≠ .absent := by rw [hwaiting]; decide
      exact h.waiter hjob hpresent rfl (.inl ((h.lives job (h.deref_iff.mp hjob).1).running hpresent))
    · cases hrespond
  | waiterWrites ref now =>
    simp only [respond] at hrespond
    split at hrespond
    · rename_i outcome hwaiter
      obtain ⟨job, hjob, hdeciding⟩ := Option.map_eq_some_iff.mp hwaiter
      obtain ⟨rfl, -⟩ := Prod.mk.inj (Option.some.inj hrespond)
      have hpresent : job.waiter ≠ .absent := by rw [hdeciding]; simp
      exact h.waiter hjob hpresent rfl (.inr ⟨outcome.terminal, rfl⟩)
    · cases hrespond

/-! ### Reports -/

/-- What a report says of its job. -/
structure Tells (job : Job) (r : JobReply) : Prop where
  ending : r.ending = job.ending
  logs : ∀ chunk, r.logs = .ok chunk → chunk.endOffset = job.logs.endOffset ∧
    (chunk.eof = true → job.state.isTerminal = true ∧ chunk.nextOffset = job.logs.endOffset)

lemma tells_statusOfInner (job : Job) (logOffset maxBytes : ℕ) :
    Tells job (statusOfInner job logOffset maxBytes) := by
  refine ⟨rfl, fun chunk hchunk => ?_⟩
  simp only [statusOfInner, LogRing.slice] at hchunk
  split at hchunk
  · rename_i logs hslice
    obtain rfl := Except.ok.inj hchunk
    split_ifs at hslice
    obtain rfl := Except.ok.inj hslice
    refine ⟨rfl, fun heof => ?_⟩
    rw [Bool.and_eq_true, decide_eq_true_eq] at heof
    exact heof
  · cases hchunk

lemma Orderly.next (h : Orderly s) (event : Event) : Orderly (s.next event) ∧ Advances s (s.next event) := by
  rw [JobEngine.next, JobEngine.step]
  cases hrespond : s.respond event with
  | none => exact ⟨h, fun ref job hjob => ⟨job, hjob, .refl (h.lives job (h.deref_iff.mp hjob).1)⟩⟩
  | some answer => exact h.step hrespond

lemma deref_updateJob {f : Job → Job} (hf : ∀ job, (f job).ref = job.ref) (hjob : s.deref ref = some job) :
    (s.updateJob ref f).deref ref = some (f job) := by
  have hsame : (fun job : Job => decide (job.ref = ref)) ∘
      (fun job : Job => if decide (job.ref = ref) then f job else job) = fun job => decide (job.ref = ref) := by
    funext job
    rw [Function.comp_apply]
    split
    · rw [hf]
    · rfl
  rw [deref] at hjob
  have href := List.find?_some hjob
  rw [deref, updateJob, Table.updateWhere, List.find?_map, hsame, hjob, Option.map_some, if_pos href]

lemma Orderly.report_cancelJob {t : Transport} {r : JobReply} {appended : List UInt8} (h : Orderly s)
    (hjob : s.deref ref = some job) (hcancel : s.cancelJob t job appended = (s', some (.ok r))) :
    ∃ job', s'.deref ref = some job' ∧ Tells job' r := by
  obtain ⟨-, href⟩ := h.deref_iff.mp hjob
  by_cases hterminal : job.state.isTerminal = true
  · rw [JobEngine.cancelJob, if_pos hterminal] at hcancel
    obtain ⟨rfl, hanswer⟩ := Prod.mk.inj hcancel
    obtain rfl := Except.ok.inj (Option.some.inj hanswer)
    exact ⟨job, hjob, tells_statusOfInner job _ 1⟩
  · rw [JobEngine.cancelJob, if_neg hterminal] at hcancel
    by_cases hpid : job.pid = none
    · rw [if_pos hpid] at hcancel
      cases hcancel
    · rw [if_neg hpid, href] at hcancel
      obtain ⟨rfl, hanswer⟩ := Prod.mk.inj hcancel
      obtain rfl := Except.ok.inj (Option.some.inj hanswer)
      exact ⟨requestCancel appended job, deref_updateJob (fun _ => rfl) hjob, tells_statusOfInner _ _ 1⟩

/-- A report tells what the job has come to by its step. -/
lemma Orderly.report {event : Event} {r : JobReply} (h : Orderly s) (hreport : s.report event = some (ref, r)) :
    ∃ job, (s.next event).deref ref = some job ∧ Tells job r := by
  rw [JobEngine.report] at hreport
  split at hreport
  · rename_i s' reply hrespond
    have hnext : s.next event = s' := by rw [JobEngine.next, JobEngine.step, hrespond]; rfl
    obtain ⟨ref', hsubject, heq⟩ := Option.map_eq_some_iff.mp hreport
    obtain ⟨rfl, rfl⟩ := Prod.mk.inj heq
    obtain ⟨t, hthread, hsubject⟩ := Option.bind_eq_some_iff.mp hsubject
    rw [hnext]
    cases hhandler : s.handler t with
    | push id ref failed =>
      rw [hhandler] at hsubject
      cases failed with
      | none => cases hsubject
      | some failed =>
        obtain rfl := Option.some.inj hsubject
        obtain ⟨job, hjob, -, -, rfl⟩ := h.entering t ref (some failed) (by rw [hhandler]; rfl)
        cases event with
        | push t' =>
          obtain rfl := Option.some.inj hthread
          rw [respond, hhandler] at hrespond
          obtain ⟨rfl, hanswer⟩ := Prod.mk.inj (Option.some.inj hrespond)
          obtain rfl := Except.ok.inj (Option.some.inj hanswer)
          exact ⟨job, hjob, tells_statusOfInner job 0 maxLogChunkBytes⟩
        | output ref chunk | waiterReads ref timedOut status | waiterWrites ref now => cases hthread
        | _ =>
          obtain rfl := Option.some.inj hthread
          rw [respond, hhandler] at hrespond
          cases hrespond
    | report ref logOffset maxBytes =>
      rw [hhandler] at hsubject
      obtain rfl := Option.some.inj hsubject
      cases event with
      | report t' =>
        obtain rfl := Option.some.inj hthread
        rw [respond, hhandler] at hrespond
        obtain ⟨job, hjob, heq⟩ := Option.map_eq_some_iff.mp hrespond
        obtain ⟨rfl, hanswer⟩ := Prod.mk.inj heq
        obtain rfl := Except.ok.inj (Option.some.inj hanswer)
        exact ⟨job, hjob, tells_statusOfInner job logOffset maxBytes⟩
      | output ref chunk | waiterReads ref timedOut status | waiterWrites ref now => cases hthread
      | _ =>
        obtain rfl := Option.some.inj hthread
        rw [respond, hhandler] at hrespond
        cases hrespond
    | cancel ref =>
      rw [hhandler] at hsubject
      obtain rfl := Option.some.inj hsubject
      cases event with
      | cancel t' appended =>
        obtain rfl := Option.some.inj hthread
        rw [respond, hhandler] at hrespond
        obtain ⟨job, hjob, hcancel⟩ := Option.map_eq_some_iff.mp hrespond
        exact h.report_cancelJob hjob hcancel
      | output ref chunk | waiterReads ref timedOut status | waiterWrites ref now => cases hthread
      | _ =>
        obtain rfl := Option.some.inj hthread
        rw [respond, hhandler] at hrespond
        cases hrespond
    | _ =>
      rw [hhandler] at hsubject
      cases hsubject
  · cases hreport

/-! ### Runs -/

lemma Same.trans {job₁ job₂ job₃ : Job} (h : Same job₁ job₂) (h' : Same job₂ job₃) : Same job₁ job₃ := by
  rw [Same] at h h' ⊢
  rw [h', h]

lemma Turns.trans {job₁ job₂ job₃ : Job} (h : Turns job₁ job₂) (h' : Turns job₂ job₃) : Turns job₁ job₃ := by
  refine ⟨h'.ref.trans h.ref, h'.lives, fun hterminal => ?_⟩
  have hsame := h.same hterminal
  refine hsame.trans (h'.same ?_)
  rw [hsame]
  exact hterminal

lemma Orderly.run (h : Orderly s) (events : List Event) : Orderly (s.run events) ∧ Advances s (s.run events) := by
  induction events generalizing s with
  | nil => exact ⟨h, fun ref job hjob => ⟨job, hjob, .refl (h.lives job (h.deref_iff.mp hjob).1)⟩⟩
  | cons event events ih =>
    obtain ⟨hnext, hadvances⟩ := h.next event
    obtain ⟨hrun, hadvances'⟩ := ih hnext
    refine ⟨hrun, fun ref job hjob => ?_⟩
    obtain ⟨job', hjob', hturns⟩ := hadvances ref job hjob
    obtain ⟨job'', hjob'', hturns'⟩ := hadvances' ref job' hjob'
    exact ⟨job'', hjob'', hturns.trans hturns'⟩

lemma reportsOf_cons (ref : ℕ) (s : JobEngine) (event : Event) (events : List Event) :
    reportsOf ref s (event :: events) = reportsOf ref (s.next event) events ∨
      ∃ r, s.report event = some (ref, r) ∧
        reportsOf ref s (event :: events) = r :: reportsOf ref (s.next event) events := by
  rw [reportsOf]
  cases hreport : s.report event with
  | none => exact .inl rfl
  | some report =>
    obtain ⟨ref', r⟩ := report
    by_cases href : ref' = ref
    · subst href
      exact .inr ⟨r, rfl, by simp⟩
    · exact .inl (by simp [href])

/-- A report of a run tells of the job between the two ends of the run. -/
lemma Orderly.reportsOf {events : List Event} {r : JobReply} (h : Orderly s)
    (hr : r ∈ reportsOf ref s events) : ∃ job', Lives job' ∧ Tells job' r ∧
      (∀ job, s.deref ref = some job → Turns job job') ∧
      ∃ last, (s.run events).deref ref = some last ∧ Turns job' last := by
  induction events generalizing s with
  | nil => cases hr
  | cons event events ih =>
    obtain ⟨hnext, hadvances⟩ := h.next event
    have hlater : r ∈ JobEngine.reportsOf ref (s.next event) events → ∃ job', Lives job' ∧ Tells job' r ∧
        (∀ job, s.deref ref = some job → Turns job job') ∧
        ∃ last, (s.run (event :: events)).deref ref = some last ∧ Turns job' last := by
      intro hmem
      obtain ⟨job', hlives, htells, hfrom, hlast⟩ := ih hnext hmem
      refine ⟨job', hlives, htells, fun job hjob => ?_, hlast⟩
      obtain ⟨mid, hmid, hturns⟩ := hadvances ref job hjob
      exact hturns.trans (hfrom mid hmid)
    rcases reportsOf_cons ref s event events with heq | ⟨r', hreport, heq⟩
    · rw [heq] at hr
      exact hlater hr
    · rw [heq] at hr
      rcases List.mem_cons.mp hr with rfl | hmem
      · obtain ⟨job', hjob', htells⟩ := h.report hreport
        refine ⟨job', hnext.lives job' (hnext.deref_iff.mp hjob').1, htells, fun job hjob => ?_,
          (hnext.run events).2 ref job' hjob'⟩
        obtain ⟨mid, hmid, hturns⟩ := hadvances ref job hjob
        rw [hjob'] at hmid
        rwa [Option.some.inj hmid]
      · exact hlater hmem

/-- What a later report may say. -/
structure Follows (r r' : JobReply) : Prop where
  settled : r.state.isTerminal = true → r'.ending = r.ending
  logs : ∀ chunk chunk', r.logs = .ok chunk → chunk.eof = true →
    r'.logs = .ok chunk' → chunk'.endOffset = chunk.endOffset

lemma Tells.state {r : JobReply} (h : Tells job r) : r.state = job.state := congrArg Prod.fst h.ending

lemma Same.ending (h : Same job job') : job'.ending = job.ending := by
  rw [h]
  rfl

lemma Same.logs (h : Same job job') : job'.logs = job.logs := by
  rw [h]

lemma Tells.follows {r r' : JobReply} (h : Tells job r) (h' : Tells job' r') (hturns : Turns job job') :
    Follows r r' := by
  refine ⟨fun hterminal => ?_, fun chunk chunk' hchunk heof hchunk' => ?_⟩
  · rw [h.state] at hterminal
    rw [h.ending, h'.ending, (hturns.same hterminal).ending]
  · obtain ⟨hend, hstops⟩ := h.logs chunk hchunk
    obtain ⟨hterminal, -⟩ := hstops heof
    rw [(h'.logs chunk' hchunk').1, (hturns.same hterminal).logs, hend]

lemma Orderly.pairwise (h : Orderly s) (events : List Event) (ref : ℕ) :
    (JobEngine.reportsOf ref s events).Pairwise Follows := by
  induction events generalizing s with
  | nil => exact List.Pairwise.nil
  | cons event events ih =>
    have hnext := (h.next event).1
    rcases reportsOf_cons ref s event events with heq | ⟨r, hreport, heq⟩
    · rw [heq]
      exact ih hnext
    · rw [heq]
      refine List.pairwise_cons.mpr ⟨fun r' hr' => ?_, ih hnext⟩
      obtain ⟨job, hjob, htells⟩ := h.report hreport
      obtain ⟨job', -, htells', hfrom, -⟩ := hnext.reportsOf hr'
      exact htells.follows htells' (hfrom job hjob)

end JobEngine

/-- Reports of a job that runs come first. -/
lemma exists_running_terminal {reports : List JobReply}
    (hstates : ∀ r ∈ reports, r.state = .running ∨ r.state.isTerminal = true)
    (hsettled : reports.Pairwise fun r r' => r.state.isTerminal = true → r'.ending = r.ending) :
    ∃ before after, reports = before ++ after ∧ (∀ r ∈ before, r.state = .running) ∧
      ∀ r ∈ after, r.state.isTerminal = true := by
  induction reports with
  | nil => exact ⟨[], [], rfl, by simp, by simp⟩
  | cons r reports ih =>
    obtain ⟨hr, hpairs⟩ := List.pairwise_cons.mp hsettled
    rcases hstates r List.mem_cons_self with hrunning | hterminal
    · obtain ⟨before, after, rfl, hbefore, hafter⟩ :=
        ih (fun r' hr' => hstates r' (List.mem_cons_of_mem _ hr')) hpairs
      exact ⟨r :: before, after, rfl, List.forall_mem_cons.mpr ⟨hrunning, hbefore⟩, hafter⟩
    · refine ⟨[], r :: reports, rfl, by simp, List.forall_mem_cons.mpr ⟨hterminal, fun r' hr' => ?_⟩⟩
      have hstate : r'.state = r.state := congrArg Prod.fst (hr r' hr' hterminal)
      rw [hstate]
      exact hterminal

lemma ReportsInOrder.of_pairwise {reports : List JobReply}
    (hstates : ∀ r ∈ reports, r.state = .running ∨ r.state.isTerminal = true)
    (hpairs : reports.Pairwise JobEngine.Follows) : ReportsInOrder reports :=
  ⟨exists_running_terminal hstates (hpairs.imp JobEngine.Follows.settled),
    hpairs.imp JobEngine.Follows.settled, hpairs.imp JobEngine.Follows.logs⟩

namespace JobEngine

/-- A job is reported as running until it is reported as ended, and what was reported of its end, and of the
end of its log, stays. -/
theorem reports_inOrder :
    (∀ events ref, ReportsInOrder (reportsOf ref initial events)) ∧
      ∀ events ref job, (run initial events).deref ref = some job →
        StillTrue (reportsOf ref initial events) job := by
  refine ⟨fun events ref => ?_, fun events ref job hjob => ?_⟩
  · refine ReportsInOrder.of_pairwise (fun r hr => ?_) (orderly_initial.pairwise events ref)
    obtain ⟨job', hlives, htells, -⟩ := orderly_initial.reportsOf hr
    rw [htells.state]
    exact hlives.imp_right And.left
  · refine ⟨fun r hr hterminal => ?_, fun r hr chunk hchunk heof => ?_⟩
    · obtain ⟨job', -, htells, -, last, hlast, hturns⟩ := orderly_initial.reportsOf hr
      rw [hjob] at hlast
      obtain rfl := Option.some.inj hlast
      rw [htells.state] at hterminal
      rw [(hturns.same hterminal).ending, htells.ending]
    · obtain ⟨job', -, htells, -, last, hlast, hturns⟩ := orderly_initial.reportsOf hr
      rw [hjob] at hlast
      obtain rfl := Option.some.inj hlast
      obtain ⟨hend, hstops⟩ := htells.logs chunk hchunk
      obtain ⟨hterminal, hnext⟩ := hstops heof
      rw [(hturns.same hterminal).logs, hend, hnext]
      exact ⟨rfl, rfl⟩

/-- One job that is started, ends and is asked for. -/
example : (reportsOf 0 initial (demoRunning ++ [.output 0 [104, 105], .waiterReads 0 false 0,
      .waiterWrites 0 7, .receive .socket (.status (.string "00000000-0000-4000-8000-000000000000")
        (.number (some 0)) (.number (some 10))), .report .socket])).map JobReply.ending =
    [(.running, none, none, none), (.succeeded, some 7, some 0, none)] := by
  decide +kernel

end JobEngine

end Bloom
