import BloomWorkspaces.Guest.JobReports

/-!
# A start that fails

`start` prunes the table before it knows that it will enter a job. What it has pruned stays pruned when the
table is still full or when the directory of the job cannot be opened.
-/

namespace Bloom

namespace JobEngine

variable {s : JobEngine} {id : String}

/-- A job enters the table and the order list. -/
def enter (s : JobEngine) (jobId : String) (job : Job) : JobEngine :=
  let s := { s with jobs := s.jobs ++ [job] }.insertJob jobId job.ref
  { s with order := s.order ++ [jobId] }

/-- `start` from its first line to its answer, when no other thread works in between. -/
def start (s : JobEngine) (jobId argv cwd environment timeoutMs : Json) (createdAt : ℕ) (launch : Launch) :
    JobEngine × Answer :=
  match validateStart jobId argv cwd environment timeoutMs with
  | .error e => (s, .error e)
  | .ok spec =>
    match s.checkLimits spec.jobId with
    | .error e => (s, .error e)
    | .ok () =>
      let s := s.pruneTerminalJobs
      if maxRetainedJobs ≤ s.len then
        (s, .error (.limitExceeded "workspace has too many retained jobs"))
      else
        match launch with
        | .noDirectory e => (s, .error e)
        | .failed error finishedAt =>
          let job := failedJob s.jobs.length spec createdAt error finishedAt
          (s.enter spec.jobId job, .ok (statusOfInner job 0 maxLogChunkBytes))
        | .spawned pid startedAt =>
          let job := spawnedJob s.jobs.length spec createdAt pid startedAt
          ((s.enter spec.jobId job).updateJob job.ref fun job => { job with waiter := .waiting },
            .ok (statusOfInner job 0 maxLogChunkBytes))

/-- The steps of a thread up to its answer. -/
def call (s : JobEngine) : List Event → JobEngine × Option Answer
  | [] => (s, none)
  | event :: events =>
    match s.respond event with
    | none => (s, none)
    | some (s', none) => s'.call events
    | some (s', some answer) => (s', some answer)

/-- The sections of `start` in their order. -/
def startEvents (t : Transport) (request : JobRequest) (createdAt : ℕ) (launch : Launch) : List Event :=
  [.receive t request, .checkLimits t, .prune t, .checkRetained t, .launch t createdAt launch, .insert t,
    .push t, .report t]

/-- The table and the order list are the same. -/
def SameTable (s s' : JobEngine) : Prop := (∀ id, s'.get id = s.get id) ∧ s'.order = s.order

/-- The id is in the order list and its job is terminal. -/
def isPrunable (s : JobEngine) (id : String) : Bool :=
  id ∈ s.order && (s.get id).any fun job => job.state.isTerminal

/-- The jobs of the table that pruning cannot take out. -/
def unprunable (s : JobEngine) : ℕ :=
  s.jobs.countP fun job => job.place = .retained && !s.isPrunable job.jobId

/-- The request passes every check up to the pruning of a full table, which takes a job out, and then no
place is free or the directory of the job cannot be opened. -/
def EvictsInVain (s : JobEngine) (jobId argv cwd environment timeoutMs : Json) (launch : Launch) : Prop :=
  (∃ spec, validateStart jobId argv cwd environment timeoutMs = .ok spec ∧ s.checkLimits spec.jobId = .ok ()) ∧
    maxRetainedJobs ≤ s.len ∧ (∃ id, s.isPrunable id = true) ∧
    (maxRetainedJobs ≤ s.unprunable ∨ ∃ e, launch = .noDirectory e)

/-! ### Pruning -/

lemma findTerminal_eq_none : s.findTerminal = none ↔ ∀ id, s.isPrunable id = false := by
  rw [findTerminal, List.find?_eq_none]
  constructor
  · intro h id
    rw [Bool.eq_false_iff]
    intro hprunable
    rw [isPrunable, Bool.and_eq_true, decide_eq_true_eq] at hprunable
    exact h id hprunable.1 hprunable.2
  · intro h id hid hterminal
    have hprunable := h id
    rw [isPrunable, decide_eq_true hid, Bool.true_and] at hprunable
    rw [hprunable] at hterminal
    cases hterminal

lemma isPrunable_of_findTerminal (h : s.findTerminal = some id) : s.isPrunable id = true := by
  have hterminal := List.find?_some h
  rw [isPrunable, decide_eq_true (List.mem_of_find?_eq_some h), Bool.true_and]
  exact hterminal

lemma pruneLoop_of_lt (turns : ℕ) (h : s.len < maxRetainedJobs) : pruneLoop turns s = s := by
  cases turns with
  | zero => rfl
  | succ turns => rw [pruneLoop, if_pos h]

lemma pruneLoop_of_none (turns : ℕ) (h : s.findTerminal = none) : pruneLoop turns s = s := by
  cases turns with
  | zero => rfl
  | succ turns =>
    rw [pruneLoop, h]
    exact ite_self s

lemma pruneLoop_order (turns : ℕ) (s : JobEngine) (h : id ∈ (pruneLoop turns s).order) : id ∈ s.order := by
  induction turns generalizing s with
  | zero => exact h
  | succ turns ih =>
    rw [pruneLoop] at h
    split at h
    · exact h
    · split at h
      · exact List.mem_of_mem_filter (ih _ h)
      · exact h

/-- A full table in which a job can be pruned loses that job. -/
lemma exists_pruned (hlen : maxRetainedJobs ≤ s.len) (hprunable : s.isPrunable id = true) :
    ∃ id, id ∈ s.order ∧ id ∉ s.pruneTerminalJobs.order := by
  cases hfound : s.findTerminal with
  | none =>
    rw [findTerminal_eq_none.mp hfound id] at hprunable
    cases hprunable
  | some first =>
    refine ⟨first, List.mem_of_find?_eq_some hfound, fun hmem => ?_⟩
    obtain ⟨turns, hturns⟩ := Nat.exists_eq_succ_of_ne_zero (Nat.ne_of_gt (Nat.lt_of_lt_of_le (by decide) hlen))
    rw [pruneTerminalJobs, hturns, Nat.succ_eq_add_one, pruneLoop, if_neg (Nat.not_lt.mpr hlen), hfound] at hmem
    have hfilter := List.of_mem_filter (pruneLoop_order turns _ hmem)
    simp at hfilter

/-! ### What pruning cannot take out -/

lemma get_removeJob (s : JobEngine) {id' : String} (hne : id' ≠ id) : (s.removeJob id).get id' = s.get id' := by
  have hsame : inTable id' ∘ (fun job => if inTable id job then { job with place := .pruned } else job) =
      inTable id' := by
    funext job
    rw [Function.comp_apply]
    split
    · rename_i hin
      rw [inTable_iff] at hin
      rw [Bool.eq_iff_iff, inTable_iff, inTable_iff, hin.2]
      simp [hne.symm]
    · rfl
  rw [get, removeJob, Table.updateWhere, List.find?_map, hsame]
  cases hget : s.jobs.find? (inTable id') with
  | none => rw [get, hget, Option.map_none]
  | some job =>
    have hin := inTable_iff.mp (List.find?_some hget)
    rw [get, hget, Option.map_some, if_neg]
    rw [inTable_iff]
    rintro ⟨-, hid⟩
    exact hne (hin.2.symm.trans hid)

lemma isPrunable_removeJob (s : JobEngine) {id' : String} (hne : id' ≠ id) :
    (s.removeJob id).isPrunable id' = s.isPrunable id' := by
  rw [isPrunable, isPrunable, get_removeJob s hne]
  congr 1
  simp [removeJob, hne]

lemma unprunable_removeJob (h : s.isPrunable id = true) : (s.removeJob id).unprunable = s.unprunable := by
  rw [unprunable, unprunable]
  have hjobs : (s.removeJob id).jobs = s.jobs.map fun job =>
      if inTable id job then { job with place := .pruned } else job := rfl
  rw [hjobs, List.countP_map]
  refine List.countP_congr fun job hjob => ?_
  rw [← Bool.eq_iff_iff, Function.comp_apply]
  split
  · rename_i hin
    rw [(inTable_iff.mp hin).2, h]
    simp
  · rename_i hout
    by_cases hplace : job.place = .retained
    · have hne : job.jobId ≠ id := fun hid => hout (inTable_iff.mpr ⟨hplace, hid⟩)
      rw [isPrunable_removeJob s hne]
    · rw [decide_eq_false hplace, Bool.false_and, Bool.false_and]

lemma unprunable_pruneLoop (turns : ℕ) (s : JobEngine) : (pruneLoop turns s).unprunable = s.unprunable := by
  induction turns generalizing s with
  | zero => rfl
  | succ turns ih =>
    rw [pruneLoop]
    split
    · rfl
    · split
      · rename_i id hfound
        rw [ih, unprunable_removeJob (isPrunable_of_findTerminal hfound)]
      · rfl

lemma unprunable_le_len (s : JobEngine) : s.unprunable ≤ s.len := by
  refine List.countP_mono_left fun job _ hjob => ?_
  rw [Bool.and_eq_true] at hjob
  exact hjob.1

lemma len_eq_unprunable (h : s.findTerminal = none) : s.len = s.unprunable := by
  refine List.countP_congr fun job _ => ?_
  rw [findTerminal_eq_none.mp h, Bool.not_false, Bool.and_true]

/-- The table stays full exactly if too much of it cannot be pruned. -/
lemma full_iff_unprunable (s : JobEngine) :
    maxRetainedJobs ≤ s.pruneTerminalJobs.len ↔ maxRetainedJobs ≤ s.unprunable := by
  have hkept : s.pruneTerminalJobs.unprunable = s.unprunable := unprunable_pruneLoop s.len s
  constructor
  · intro hfull
    rcases pruneLoop_done s.len s (Nat.le_refl _) with hlt | hnone
    · exact absurd hlt (Nat.not_lt.mpr hfull)
    · rw [← hkept, pruneTerminalJobs, ← len_eq_unprunable hnone]
      exact hfull
  · intro hfull
    rw [← hkept] at hfull
    exact Nat.le_trans hfull (unprunable_le_len _)

/-! ### The sections of a start -/

section Sections

variable {t : Transport} {event : Event} {events : List Event} {h h' : Handler} {spec : StartSpec}

lemma call_none {s' : JobEngine} (hrespond : s.respond event = some (s', none)) :
    s.call (event :: events) = s'.call events := by
  rw [call, hrespond]

lemma call_some {s' : JobEngine} {answer : Answer} (hrespond : s.respond event = some (s', some answer)) :
    s.call (event :: events) = (s', some answer) := by
  rw [call, hrespond]

lemma setHandler_setHandler : (s.setHandler t h).setHandler t h' = s.setHandler t h' := by
  simp only [setHandler, Function.update_idem]

lemma setHandler_idle (hidle : s.handler t = .idle) : s.setHandler t .idle = s := by
  rw [setHandler, ← hidle, Function.update_eq_self]

lemma pruneLoop_setHandler (turns : ℕ) (s : JobEngine) :
    pruneLoop turns (s.setHandler t h) = (pruneLoop turns s).setHandler t h := by
  induction turns generalizing s with
  | zero => rfl
  | succ turns ih =>
    rw [pruneLoop, pruneLoop]
    have hlen : (s.setHandler t h).len = s.len := rfl
    have hfound : (s.setHandler t h).findTerminal = s.findTerminal := rfl
    rw [hlen, hfound]
    split
    · rfl
    · split
      · rename_i id _
        exact ih (s.removeJob id)
      · rfl

lemma respond_checkLimits (s : JobEngine) (t : Transport) (spec : StartSpec) :
    (s.setHandler t (.checkLimits spec)).respond (.checkLimits t) =
    match s.checkLimits spec.jobId with
    | .error e => some (s.setHandler t .idle, some (.error e))
    | .ok () => some (s.setHandler t (.prune spec), none) := by
  rw [respond, setHandler_self]
  simp only [setHandler_setHandler]
  rfl

lemma respond_prune : (s.setHandler t (.prune spec)).respond (.prune t) =
    some (s.pruneTerminalJobs.setHandler t (.checkRetained spec), none) := by
  rw [respond, setHandler_self, pruneTerminalJobs, pruneLoop_setHandler]
  simp only [setHandler_setHandler]
  rfl

lemma respond_checkRetained (s : JobEngine) (t : Transport) (spec : StartSpec) :
    (s.setHandler t (.checkRetained spec)).respond (.checkRetained t) =
    if maxRetainedJobs ≤ s.len then
      some (s.setHandler t .idle, some (.error (.limitExceeded "workspace has too many retained jobs")))
    else some (s.setHandler t (.launch spec), none) := by
  rw [respond, setHandler_self]
  simp only [setHandler_setHandler]
  rfl

lemma respond_launch (createdAt : ℕ) (launch : Launch) :
    (s.setHandler t (.launch spec)).respond (.launch t createdAt launch) =
      some (s.launchJob t spec createdAt launch) := by
  rw [respond, setHandler_self]
  cases launch with
  | noDirectory e => simp only [launchJob, setHandler_setHandler]
  | failed error finishedAt => simp only [launchJob, setHandler, Function.update_idem]
  | spawned pid startedAt => simp only [launchJob, setHandler, Function.update_idem]

lemma respond_insert {jobId : String} {ref : ℕ} {reply : Option JobReply} :
    (s.setHandler t (.insert jobId ref reply)).respond (.insert t) =
      some ((s.insertJob jobId ref).setHandler t (.push jobId ref reply), none) := by
  rw [respond, setHandler_self]
  simp only [insertJob, setHandler, Function.update_idem]

lemma respond_push_some {jobId : String} {ref : ℕ} {reply : JobReply} :
    (s.setHandler t (.push jobId ref (some reply))).respond (.push t) =
      some ({ s with order := s.order ++ [jobId] }.setHandler t .idle, some (.ok reply)) := by
  rw [respond, setHandler_self]
  simp only [setHandler, Function.update_idem]

lemma respond_push_none {jobId : String} {ref : ℕ} :
    (s.setHandler t (.push jobId ref none)).respond (.push t) =
      some (({ s with order := s.order ++ [jobId] }.updateJob ref
        fun job => { job with waiter := .waiting }).setHandler t (.report ref 0 maxLogChunkBytes), none) := by
  rw [respond, setHandler_self]
  simp only [updateJob, setHandler, Function.update_idem]

lemma respond_report {job : Job} {ref logOffset maxBytes : ℕ} (hjob : s.deref ref = some job) :
    (s.setHandler t (.report ref logOffset maxBytes)).respond (.report t) =
      some (s.setHandler t .idle, some (.ok (statusOfInner job logOffset maxBytes))) := by
  have hderef : (s.setHandler t (.report ref logOffset maxBytes)).deref ref = some job := hjob
  rw [respond, setHandler_self]
  simp only [hderef, setHandler_setHandler, Option.map_some]

lemma deref_enter (s : JobEngine) (jobId : String) (job : Job) (hnone : s.deref job.ref = none) :
    (s.enter jobId job).deref job.ref = some { job with place := .retained } := by
  have hsame : (fun job' : Job => decide (job'.ref = job.ref)) ∘ (fun job' : Job =>
      if job'.ref = job.ref then { job' with place := .retained }
      else if inTable jobId job' then { job' with place := .replaced } else job') =
        fun job' => decide (job'.ref = job.ref) := by
    funext job'
    rw [Function.comp_apply]
    split
    · rfl
    · split <;> rfl
  have hself : [job].find? (fun job' => decide (job'.ref = job.ref)) = some job := by simp
  rw [deref] at hnone ⊢
  rw [enter, insertJob, List.find?_map, hsame, List.find?_append, hnone, Option.none_or, hself,
    Option.map_some, if_pos rfl]

end Sections

/-- A start is its sections one after the other. -/
theorem call_start (horderly : Orderly s) {t : Transport} (hidle : s.handler t = .idle)
    (jobId argv cwd environment timeoutMs : Json) (createdAt : ℕ) (launch : Launch) :
    s.call (startEvents t (.start jobId argv cwd environment timeoutMs) createdAt launch) =
      ((s.start jobId argv cwd environment timeoutMs createdAt launch).1,
        some (s.start jobId argv cwd environment timeoutMs createdAt launch).2) := by
  have hreceive : s.respond (.receive t (.start jobId argv cwd environment timeoutMs)) =
      some (s.receive t (.start jobId argv cwd environment timeoutMs)) := by
    rw [respond, hidle]
  rw [receive] at hreceive
  rw [startEvents, start]
  cases hspec : validateStart jobId argv cwd environment timeoutMs with
  | error e =>
    rw [hspec] at hreceive
    exact call_some hreceive
  | ok spec =>
    rw [hspec] at hreceive
    rw [call_none hreceive]
    simp only
    have hcheck := respond_checkLimits s t spec
    cases hlimits : s.checkLimits spec.jobId with
    | error e =>
      rw [hlimits] at hcheck
      rw [call_some hcheck, setHandler_idle hidle]
    | ok u =>
      rw [hlimits] at hcheck
      rw [call_none hcheck, call_none respond_prune]
      have hpruned : s.pruneTerminalJobs.handler t = .idle := by
        rw [pruneTerminalJobs, pruneLoop_handler, hidle]
      have hfresh : s.pruneTerminalJobs.deref s.pruneTerminalJobs.jobs.length = none := by
        obtain ⟨f, order, hsame, heq⟩ := s.pruneLoop_jobs s.len
        rw [pruneTerminalJobs, heq, deref_map fun job hjob => (hsame job).turns (horderly.lives job hjob),
          List.length_map, horderly.deref_length, Option.map_none]
      generalize s.pruneTerminalJobs = s' at hpruned hfresh ⊢
      have hretained := respond_checkRetained s' t spec
      simp only
      split
      · rename_i hfull
        rw [if_pos hfull] at hretained
        rw [call_some hretained, setHandler_idle hpruned]
      · rename_i hroom
        rw [if_neg hroom] at hretained
        rw [call_none hretained]
        cases launch with
        | noDirectory e => rw [call_some (respond_launch createdAt _), setHandler_idle hpruned]
        | failed error finishedAt =>
          rw [call_none (respond_launch createdAt _), call_none respond_insert, call_some respond_push_some]
          exact Prod.ext (setHandler_idle hpruned) rfl
        | spawned pid startedAt =>
          have hjob := deref_updateJob (s := s'.enter spec.jobId (spawnedJob s'.jobs.length spec createdAt pid startedAt))
            (f := fun job => { job with waiter := .waiting }) (fun _ => rfl)
            (s'.deref_enter spec.jobId (spawnedJob s'.jobs.length spec createdAt pid startedAt) hfresh)
          rw [call_none (respond_launch createdAt _), call_none respond_insert, call_none respond_push_none]
          refine (call_some (respond_report hjob)).trans ?_
          exact Prod.ext (setHandler_idle hpruned) rfl

/-! ### Failure -/

section Start

variable {jobId argv cwd environment timeoutMs : Json} {createdAt : ℕ} {launch : Launch}

lemma SameTable.refl (s : JobEngine) : SameTable s s := ⟨fun _ => rfl, rfl⟩

/-- What a start has pruned in vain is gone. -/
lemma EvictsInVain.evicts (h : s.EvictsInVain jobId argv cwd environment timeoutMs launch) :
    (s.start jobId argv cwd environment timeoutMs createdAt launch).2.isOk = false ∧
      ¬SameTable s (s.start jobId argv cwd environment timeoutMs createdAt launch).1 := by
  obtain ⟨⟨spec, hspec, hlimits⟩, hlen, ⟨id, hprunable⟩, hfails⟩ := h
  obtain ⟨pruned, hmem, hgone⟩ := exists_pruned hlen hprunable
  have hchanged : ¬SameTable s s.pruneTerminalJobs := by
    intro hsame
    rw [hsame.2] at hgone
    exact hgone hmem
  rw [start, hspec]
  simp only [hlimits]
  split
  · exact ⟨rfl, hchanged⟩
  · rename_i hroom
    rcases hfails with hfull | ⟨e, rfl⟩
    · exact absurd ((full_iff_unprunable s).mpr hfull) hroom
    · exact ⟨rfl, hchanged⟩

lemma sameTable_of_not_evictsInVain (h : ¬s.EvictsInVain jobId argv cwd environment timeoutMs launch)
    (herror : (s.start jobId argv cwd environment timeoutMs createdAt launch).2.isOk = false) :
    SameTable s (s.start jobId argv cwd environment timeoutMs createdAt launch).1 := by
  rw [start] at herror ⊢
  cases hspec : validateStart jobId argv cwd environment timeoutMs with
  | error e => exact .refl s
  | ok spec =>
    rw [hspec] at herror
    cases hlimits : s.checkLimits spec.jobId with
    | error e => 
      simp only [hlimits]
      exact .refl s
    | ok u =>
      simp only [hlimits] at herror ⊢
      have hkeeps : (maxRetainedJobs ≤ s.unprunable ∨ ∃ e, launch = .noDirectory e) → s.pruneTerminalJobs = s := by
        intro hfails
        by_cases hlen : maxRetainedJobs ≤ s.len
        · refine pruneLoop_of_none _ (findTerminal_eq_none.mpr fun id => Bool.eq_false_iff.mpr fun hprunable => ?_)
          exact h ⟨⟨spec, hspec, hlimits⟩, hlen, ⟨id, hprunable⟩, hfails⟩
        · exact pruneLoop_of_lt _ (Nat.lt_of_not_le hlen)
      split
      · rename_i hfull
        rw [hkeeps (.inl ((full_iff_unprunable s).mp hfull))]
        exact .refl s
      · rename_i hroom
        rw [if_neg hroom] at herror
        cases launch with
        | noDirectory e =>
          simp only
          rw [hkeeps (.inr ⟨e, rfl⟩)]
          exact .refl s
        | failed error finishedAt => cases herror
        | spawned pid startedAt => cases herror

/-- A start that fails leaves the table and the order list as they were exactly if it does not evict in vain. -/
theorem start_unchanged_iff (s : JobEngine) (jobId argv cwd environment timeoutMs : Json) (createdAt : ℕ)
    (launch : Launch) :
    ((s.start jobId argv cwd environment timeoutMs createdAt launch).2.isOk = false →
        SameTable s (s.start jobId argv cwd environment timeoutMs createdAt launch).1) ↔
      ¬s.EvictsInVain jobId argv cwd environment timeoutMs launch := by
  constructor
  · intro h hevicts
    exact hevicts.evicts.2 (h hevicts.evicts.1)
  · exact fun h herror => sameTable_of_not_evictsInVain h herror

end Start

/-- A job whose process could not be launched. -/
def demoFailed (n : ℕ) : Job :=
  { failedJob n ⟨"00000000-0000-4000-8000-0000000000" ++ toString (n + 10), ["true"], ".", 1000, []⟩ 0
      "No such file or directory (os error 2)" 0 with
    place := .retained }

/-- A full table. -/
def demoFull : JobEngine :=
  { initial with
    jobs := (List.range maxRetainedJobs).map demoFailed
    order := (List.range maxRetainedJobs).map fun n => (demoFailed n).jobId }

/-- A start in a directory that does not exist evicts a job from the full table. -/
theorem start_evicts : ¬∀ (s : JobEngine) (jobId argv cwd environment timeoutMs : Json) (createdAt : ℕ)
    (launch : Launch), (s.start jobId argv cwd environment timeoutMs createdAt launch).2.isOk = false →
      SameTable s (s.start jobId argv cwd environment timeoutMs createdAt launch).1 := by
  intro hall
  have hevicts : demoFull.EvictsInVain (.string "00000000-0000-4000-8000-000000000099") (.array [.string "true"])
      (.string "missing") (.object []) (.number (some 1000))
      (.noDirectory (.notFound "workspace operation failed")) := by
    refine ⟨⟨⟨"00000000-0000-4000-8000-000000000099", ["true"], "missing", 1000, []⟩, ?_, ?_⟩, ?_,
      ⟨(demoFailed 0).jobId, ?_⟩, .inr ⟨_, rfl⟩⟩
    · decide +kernel
    · decide +kernel
    · decide +kernel
    · decide +kernel
  exact absurd (hall demoFull _ _ _ _ _ 0 _ hevicts.evicts.1) hevicts.evicts.2

end JobEngine

end Bloom
