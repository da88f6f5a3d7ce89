import BloomWorkspaces.Guest.ErrorMessages
import BloomWorkspaces.Guest.JobReports

/-!
# The replies of the job engine

Job ids are UUIDs and log chunks are within their limit in every reply that an engine gives, whatever the
two threads have done before.
-/

namespace Bloom

open Action

/-- A chunk of a log within its limit, or the error in its place. -/
def IsLogs : Except String LogChunk → Prop
  | .error message => message = "log cursor is beyond the current log end"
  | .ok chunk => chunk.encoding = "base64" ∧
    ∃ bytes, bytes.length ≤ maxLogChunkBytes ∧ chunk.data = Base64.encode bytes

structure JobReply.IsBounded (reply : JobReply) : Prop where
  jobId : isUuidText reply.jobId.toList = true
  logs : IsLogs reply.logs

/-- What a thread holds leads to a bounded reply. -/
def Handler.IsBounded : Handler → Prop
  | .idle => True
  | .checkLimits spec => isUuidText spec.jobId.toList = true
  | .prune spec => isUuidText spec.jobId.toList = true
  | .checkRetained spec => isUuidText spec.jobId.toList = true
  | .launch spec => isUuidText spec.jobId.toList = true
  | .insert _ _ reply => ∀ r ∈ reply, r.IsBounded
  | .push _ _ reply => ∀ r ∈ reply, r.IsBounded
  | .report _ _ maxBytes => maxBytes ≤ maxLogChunkBytes
  | .cancel _ => True

namespace JobEngine

structure Bounded (s : JobEngine) : Prop where
  jobs : ∀ job ∈ s.jobs, isUuidText job.jobId.toList = true
  handlers : ∀ t, (s.handler t).IsBounded

/-- An answer that an engine gives in a run from its start. -/
def GivesInRun (answer : Answer) : Prop :=
  ∃ s event s', Reachable Transition.anyStep s ∧ FromFiles event ∧
    s.respond event = some (s', some answer)

/-- An answer with a reply has a bounded one. -/
def BoundedAnswer (answer : Option Answer) : Prop := ∀ reply, answer = some (.ok reply) → reply.IsBounded

variable {s s' : JobEngine} {t : Transport} {job : Job} {f : Job → Job} {ref : ℕ}

/-! ### Replies -/

lemma isBounded_statusOfInner (hid : isUuidText job.jobId.toList = true) (logOffset : ℕ) {maxBytes : ℕ}
    (hmax : maxBytes ≤ maxLogChunkBytes) : (statusOfInner job logOffset maxBytes).IsBounded := by
  refine ⟨hid, ?_⟩
  simp only [statusOfInner, LogRing.slice]
  split_ifs with hend
  · rfl
  · refine ⟨rfl, _, ?_, rfl⟩
    rw [LogRing.chunkAt]
    exact Nat.le_trans (List.length_take_le _ _) hmax

lemma boundedAnswer_none : BoundedAnswer none := fun _ h => absurd h nofun

lemma boundedAnswer_error (e : ControlError) : BoundedAnswer (some (.error e)) :=
  fun _ h => absurd h nofun

lemma boundedAnswer_ok {reply : JobReply} (h : reply.IsBounded) : BoundedAnswer (some (.ok reply)) := by
  intro reply' heq
  cases heq
  exact h

/-! ### States -/

lemma bounded_initial : Bounded initial where
  jobs _ h := absurd h List.not_mem_nil
  handlers _ := trivial

lemma Bounded.setHandler (h : Bounded s) {after : Handler} (hafter : after.IsBounded) :
    Bounded (s.setHandler t after) := by
  refine ⟨h.jobs, fun t' => ?_⟩
  show (Function.update s.handler t after t').IsBounded
  by_cases ht : t' = t
  · rw [ht, Function.update_self]
    exact hafter
  · rw [Function.update_of_ne ht]
    exact h.handlers t'

/-- Jobs keep their ids. -/
lemma Bounded.map (h : Bounded s) (hid : ∀ job, (f job).jobId = job.jobId) (order : List String) :
    Bounded ⟨s.jobs.map f, order, s.handler⟩ := by
  refine ⟨?_, h.handlers⟩
  intro job' hjob'
  obtain ⟨job, hjob, rfl⟩ := List.mem_map.mp hjob'
  rw [hid]
  exact h.jobs job hjob

lemma Bounded.updateJob (h : Bounded s) (hid : ∀ job, (f job).jobId = job.jobId) (ref : ℕ) :
    Bounded (s.updateJob ref f) := by
  refine h.map (fun job => ?_) s.order
  split
  · exact hid job
  · rfl

lemma Bounded.insertJob (h : Bounded s) (jobId : String) (ref : ℕ) : Bounded (s.insertJob jobId ref) := by
  refine h.map (fun job => ?_) s.order
  split_ifs
  · rfl
  · rfl
  · rfl

lemma Bounded.pushOrder (h : Bounded s) (order : List String) : Bounded { s with order := order } :=
  ⟨h.jobs, h.handlers⟩

lemma Bounded.prune (h : Bounded s) : Bounded s.pruneTerminalJobs := by
  obtain ⟨f, order, hsame, heq⟩ := pruneLoop_jobs s.len s
  rw [pruneTerminalJobs, heq]
  refine h.map (fun job => ?_) order
  rw [hsame job]

lemma Bounded.launched (h : Bounded s) (hid : isUuidText job.jobId.toList = true) :
    Bounded { s with jobs := s.jobs ++ [job] } := by
  refine ⟨fun job' hjob' => ?_, h.handlers⟩
  rcases List.mem_append.mp hjob' with hold | hnew
  · exact h.jobs job' hold
  · rw [List.mem_singleton.mp hnew]
    exact hid

lemma Bounded.jobId_of_deref (h : Bounded s) (hjob : s.deref ref = some job) :
    isUuidText job.jobId.toList = true := h.jobs job (List.mem_of_find?_eq_some hjob)

/-! ### Steps -/

lemma isUuidText_of_validateStart {jobId argv cwd environment timeoutMs : Json} {spec : StartSpec}
    (h : validateStart jobId argv cwd environment timeoutMs = .ok spec) :
    isUuidText spec.jobId.toList = true := by
  obtain ⟨id, hid, h⟩ := Checked.of_bind_ok h
  obtain ⟨args, -, h⟩ := Checked.of_bind_ok h
  obtain ⟨parts, -, h⟩ := Checked.of_bind_ok h
  obtain ⟨timeout, -, h⟩ := Checked.of_bind_ok h
  obtain ⟨vars, -, h⟩ := Checked.of_bind_ok h
  cases h
  exact validateJobId_ok hid

lemma Bounded.receive (h : Bounded s) (request : JobRequest) :
    Bounded (s.receive t request).1 ∧ BoundedAnswer (s.receive t request).2 := by
  cases request with
  | start jobId argv cwd environment timeoutMs =>
    simp only [JobEngine.receive]
    split
    · exact ⟨h, boundedAnswer_error _⟩
    · rename_i spec hspec
      exact ⟨h.setHandler (isUuidText_of_validateStart hspec), boundedAnswer_none⟩
  | status jobId logOffset maxBytes =>
    simp only [JobEngine.receive]
    split
    · exact ⟨h, boundedAnswer_error _⟩
    · rename_i id offset size hvalidated
      split
      · exact ⟨h, boundedAnswer_error _⟩
      · refine ⟨h.setHandler ?_, boundedAnswer_none⟩
        obtain ⟨_, -, hvalidated⟩ := Checked.of_bind_ok hvalidated
        obtain ⟨_, -, hvalidated⟩ := Checked.of_bind_ok hvalidated
        obtain ⟨size', hsize, hvalidated⟩ := Checked.of_bind_ok hvalidated
        cases hvalidated
        exact Int.toNat_le.mpr (validateInteger_ok hsize).2
  | cancel jobId =>
    simp only [JobEngine.receive]
    split
    · exact ⟨h, boundedAnswer_error _⟩
    · split
      · exact ⟨h, boundedAnswer_error _⟩
      · exact ⟨h.setHandler trivial, boundedAnswer_none⟩

lemma Bounded.launchJob (h : Bounded s) {spec : StartSpec} (hid : isUuidText spec.jobId.toList = true)
    (createdAt : ℕ) (launch : Launch) :
    Bounded (s.launchJob t spec createdAt launch).1 ∧
      BoundedAnswer (s.launchJob t spec createdAt launch).2 := by
  cases launch with
  | noDirectory e => exact ⟨h.setHandler trivial, boundedAnswer_error e⟩
  | failed error finishedAt =>
    refine ⟨(h.launched ?_).setHandler ?_, boundedAnswer_none⟩
    · exact hid
    · have hjob : isUuidText
          (failedJob s.jobs.length spec createdAt error finishedAt).jobId.toList = true := hid
      intro reply hreply
      rw [← Option.some.inj hreply]
      exact isBounded_statusOfInner hjob 0 (Nat.le_refl maxLogChunkBytes)
  | spawned pid startedAt =>
    refine ⟨(h.launched ?_).setHandler ?_, boundedAnswer_none⟩
    · exact hid
    · exact fun _ hreply => absurd hreply nofun

lemma Bounded.cancelJob (h : Bounded s) (hid : isUuidText job.jobId.toList = true)
    (appended : List UInt8) :
    Bounded (s.cancelJob t job appended).1 ∧ BoundedAnswer (s.cancelJob t job appended).2 := by
  have hidle : Bounded (s.setHandler t .idle) := h.setHandler trivial
  simp only [JobEngine.cancelJob]
  split_ifs
  · exact ⟨hidle, boundedAnswer_ok (isBounded_statusOfInner hid _ (by decide))⟩
  · exact ⟨hidle, boundedAnswer_error _⟩
  · have hjob : isUuidText (requestCancel appended job).jobId.toList = true := hid
    refine ⟨hidle.updateJob ?_ _, boundedAnswer_ok (isBounded_statusOfInner hjob _ (by decide))⟩
    exact fun _ => rfl

/-- Every step keeps the bounds, and what it answers is within them. -/
lemma Bounded.respond {event : Event} {answer : Option Answer} (h : Bounded s)
    (hrespond : s.respond event = some (s', answer)) : Bounded s' ∧ BoundedAnswer answer := by
  suffices hresult : ∀ result, s.respond event = some result → Bounded result.1 ∧ BoundedAnswer result.2
    from hresult _ hrespond
  intro result hrespond
  cases event with
  | receive t request =>
    simp only [JobEngine.respond] at hrespond
    split at hrespond
    · cases hrespond
      exact h.receive request
    · cases hrespond
  | checkLimits t =>
    simp only [JobEngine.respond] at hrespond
    split at hrespond
    · rename_i spec hhandler
      have hbound := h.handlers t
      rw [hhandler] at hbound
      split at hrespond
      · cases hrespond
        exact ⟨h.setHandler trivial, boundedAnswer_error _⟩
      · cases hrespond
        exact ⟨h.setHandler hbound, boundedAnswer_none⟩
    · cases hrespond
  | prune t =>
    simp only [JobEngine.respond] at hrespond
    split at hrespond
    · rename_i spec hhandler
      have hbound := h.handlers t
      rw [hhandler] at hbound
      cases hrespond
      exact ⟨h.prune.setHandler hbound, boundedAnswer_none⟩
    · cases hrespond
  | checkRetained t =>
    simp only [JobEngine.respond] at hrespond
    split at hrespond
    · rename_i spec hhandler
      have hbound := h.handlers t
      rw [hhandler] at hbound
      split at hrespond
      · cases hrespond
        exact ⟨h.setHandler trivial, boundedAnswer_error _⟩
      · cases hrespond
        exact ⟨h.setHandler hbound, boundedAnswer_none⟩
    · cases hrespond
  | launch t createdAt launch =>
    simp only [JobEngine.respond] at hrespond
    split at hrespond
    · rename_i spec hhandler
      have hbound := h.handlers t
      rw [hhandler] at hbound
      cases hrespond
      exact h.launchJob hbound createdAt launch
    · cases hrespond
  | insert t =>
    simp only [JobEngine.respond] at hrespond
    split at hrespond
    · rename_i jobId ref reply hhandler
      have hbound := h.handlers t
      rw [hhandler] at hbound
      cases hrespond
      exact ⟨(h.insertJob jobId ref).setHandler hbound, boundedAnswer_none⟩
    · cases hrespond
  | push t =>
    simp only [JobEngine.respond] at hrespond
    split at hrespond
    · rename_i jobId ref reply hhandler
      have hbound := h.handlers t
      rw [hhandler] at hbound
      cases hrespond
      exact ⟨(h.pushOrder _).setHandler trivial, boundedAnswer_ok (hbound reply rfl)⟩
    · cases hrespond
      refine ⟨((h.pushOrder _).updateJob ?_ _).setHandler ?_, boundedAnswer_none⟩
      · exact fun _ => rfl
      · exact Nat.le_refl maxLogChunkBytes
    · cases hrespond
  | report t =>
    simp only [JobEngine.respond] at hrespond
    split at hrespond
    · rename_i ref logOffset maxBytes hhandler
      have hbound := h.handlers t
      rw [hhandler] at hbound
      obtain ⟨job, hjob, rfl⟩ := Option.map_eq_some_iff.mp hrespond
      exact ⟨h.setHandler trivial,
        boundedAnswer_ok (isBounded_statusOfInner (h.jobId_of_deref hjob) _ hbound)⟩
    · cases hrespond
  | cancel t appended =>
    simp only [JobEngine.respond] at hrespond
    split at hrespond
    · obtain ⟨job, hjob, rfl⟩ := Option.map_eq_some_iff.mp hrespond
      exact h.cancelJob (h.jobId_of_deref hjob) appended
    · cases hrespond
  | output ref chunk =>
    simp only [JobEngine.respond] at hrespond
    split at hrespond
    · cases hrespond
      refine ⟨h.updateJob ?_ ref, boundedAnswer_none⟩
      exact fun _ => rfl
    · cases hrespond
  | waiterReads ref timedOut status =>
    simp only [JobEngine.respond] at hrespond
    split at hrespond
    · cases hrespond
      refine ⟨h.updateJob ?_ ref, boundedAnswer_none⟩
      exact fun _ => rfl
    · cases hrespond
  | waiterWrites ref now =>
    simp only [JobEngine.respond] at hrespond
    split at hrespond
    · cases hrespond
      refine ⟨h.updateJob ?_ ref, boundedAnswer_none⟩
      exact fun _ => rfl
    · cases hrespond

lemma Reachable.bounded (h : Reachable Transition.anyStep s) : Bounded s := by
  refine Transition.Leads.invariant Bounded h bounded_initial fun s event s' hs _ hstep => ?_
  obtain ⟨⟨_, answer⟩, hrespond, rfl⟩ := Option.map_eq_some_iff.mp hstep
  exact (hs.respond hrespond).1

/-- Every reply of a run is bounded. -/
lemma isBounded_of_givesInRun {reply : JobReply} (h : GivesInRun (.ok reply)) : reply.IsBounded := by
  obtain ⟨s, event, s', hreachable, -, hrespond⟩ := h
  exact (hreachable.bounded.respond hrespond).2 reply rfl

end JobEngine

end Bloom
