import BloomWorkspaces.Control.Workspaces.Capacity
import BloomWorkspaces.System.Lifecycle

/-!
# Settled workspaces stay quiet

A workspace is `Dead` when it has left the queue, no `create` for it is outstanding and none of its
processes runs. That is stable under every step of the two parties, so it is enough that a row only
becomes `stopped` or `failed` when its workspace is dead. The answer to a hasty request gives no such
guarantee, and the run at the end shows that it is acted on.
-/

namespace Bloom

namespace System

variable {config : Config} {capabilities : Option WorkspaceDataCapabilities} {s s' : System}
  {id : String}

/-- No `create` of the workspace is outstanding and none will be sent. -/
structure Retired (s : System) (id : String) : Prop where
  begun : s.service.Begun id
  settled : ¬s.Outstanding id

structure Dead (s : System) (id : String) : Prop extends Retired s id where
  quiet : s.Quiet id

/-- What holds between any two steps of the two parties, whatever the order. -/
structure Sound (config : Config) (s : System) : Prop where
  service : Service.Consistent config .initial s.service
  preparing : ∀ call spec, (call, spec) ∈ s.node.preparing →
    s.service.sent[call]? = some (.create spec) ∧ call ∈ s.node.received
  instances : ∀ id inst, s.node.instances id = some inst → s.Retired id
  processes : ∀ p ∈ s.node.processes, ∃ inst, s.node.instances p.2 = some inst ∧
    inst.process = p.1 ∧ inst.state = .running
  stopped : ∀ call, (call, .stopped) ∈ s.node.replies → call ∉ s.hasty →
    ∃ id, s.service.sent[call]? = some (.stop id) ∧ s.Dead id
  status : ∀ call state, (call, .status state) ∈ s.node.replies → state ≠ .running → call ∉ s.hasty →
    ∃ id, s.service.sent[call]? = some (.status id) ∧ s.Dead id

/-! ### Outstanding creates -/

lemma outstanding_iff : s.Outstanding id ↔ ∃ call,
    s.service.sent[call]?.bind AgentRequest.createId = some id ∧ s.node.Pending call := by
  constructor
  · rintro ⟨call, -, hcreate, hpending⟩
    exact ⟨call, hcreate, hpending⟩
  · rintro ⟨call, hcreate, hpending⟩
    obtain ⟨q, hq, -⟩ := Option.bind_eq_some_iff.mp hcreate
    have hlt := (List.getElem?_eq_some_iff.mp hq).1
    exact ⟨call, List.mem_range.mpr hlt, hcreate, hpending⟩

/-- Two `create` requests for one workspace are the same request. -/
lemma create_unique {start s : Service} (h : Service.Consistent config start s) {i j : ℕ}
    (hi : s.sent[i]?.bind AgentRequest.createId = some id)
    (hj : s.sent[j]?.bind AgentRequest.createId = some id) : i = j := by
  have hnodup : s.createIds.Nodup := by
    rw [h.core.claims_eq]
    exact h.core.claims_nodup
  exact Table.eq_of_filterMap_nodup hnodup hi hj

lemma mem_createIds {s : Service} :
    id ∈ s.createIds ↔ ∃ call : ℕ, s.sent[call]?.bind AgentRequest.createId = some id := by
  rw [Service.createIds, List.mem_filterMap]
  constructor
  · rintro ⟨q, hq, hid⟩
    obtain ⟨call, hcall⟩ := List.mem_iff_getElem?.mp hq
    exact ⟨call, by rw [hcall]; exact hid⟩
  · rintro ⟨call, hcall⟩
    obtain ⟨q, hq, hid⟩ := Option.bind_eq_some_iff.mp hcall
    exact ⟨q, List.mem_of_getElem? hq, hid⟩

lemma getElem?_mono {l l' : List AgentRequest} (h : l <+: l') {call : ℕ} {q : AgentRequest}
    (hq : l[call]? = some q) : l'[call]? = some q := by
  obtain ⟨rest, rfl⟩ := h
  rw [List.getElem?_append_left (List.getElem?_eq_some_iff.mp hq).1, hq]

/-! ### Dead workspaces stay dead -/

/-- What any step leaves true, and where the processes after it come from. -/
structure Passes (s s' : System) : Prop where
  retired : ∀ id, s.Retired id → s'.Retired id
  processes : ∀ p ∈ s'.node.processes, p ∈ s.node.processes ∨ s.Outstanding p.2

lemma Passes.dead (h : Passes s s') (hd : s.Dead id) : s'.Dead id where
  toRetired := h.retired id hd.toRetired
  quiet := by
    rintro p hp rfl
    rcases h.processes p hp with hold | hnew
    · exact hd.quiet p hold rfl
    · exact hd.settled hnew

/-- A step of the node that makes no further call pending. -/
lemma Passes.node (hservice : s'.service = s.service)
    (hpending : ∀ call, s'.node.Pending call → s.node.Pending call)
    (hprocesses : ∀ p ∈ s'.node.processes, p ∈ s.node.processes ∨ s.Outstanding p.2) :
    Passes s s' := by
  refine ⟨fun id hr => ⟨hservice ▸ hr.begun, fun ho => hr.settled ?_⟩, hprocesses⟩
  obtain ⟨call, hcreate, hcall⟩ := outstanding_iff.mp ho
  exact outstanding_iff.mpr ⟨call, hservice ▸ hcreate, hpending call hcall⟩

lemma Passes.frame {node : Node} (hf : s.node.Frame node) (hasty : List ℕ) :
    Passes s ⟨s.service, node, hasty⟩ :=
  .node rfl (fun _ hp => hf.pending hp) fun p hp => .inl (hf.processes p hp)

/-- A step of the service sends no `create` for a workspace that has left the queue. -/
lemma Passes.control {service : Service} (hs : Service.Consistent config .initial s.service)
    (hs' : Service.Consistent config .initial service) (ha : s.service.Advance service) :
    Passes s { s with service := service } := by
  refine ⟨fun id hr => ⟨ha.begun id hr.begun, fun ho => hr.settled ?_⟩, fun p hp => .inl hp⟩
  obtain ⟨call, hcreate, hpending⟩ := outstanding_iff.mp ho
  have hnew : id ∈ service.claims := by
    rw [← hs'.core.claims_eq]
    exact mem_createIds.mpr ⟨call, hcreate⟩
  have hold := ha.claims id hr.begun hnew
  rw [← hs.core.claims_eq] at hold
  obtain ⟨call', hcall'⟩ := mem_createIds.mp hold
  obtain ⟨q, hq, hid⟩ := Option.bind_eq_some_iff.mp hcall'
  have hsame : call' = call := by
    refine create_unique hs' ?_ hcreate
    rw [getElem?_mono ha.sent hq]
    exact hid
  exact outstanding_iff.mpr ⟨call, hsame ▸ hcall', hpending⟩

/-! ### The invariant -/

lemma Sound.control {service : Service} (h : Sound config s)
    (hs' : Service.Consistent config .initial service) (ha : s.service.Advance service) :
    Sound config { s with service := service } := by
  have hpasses : Passes s { s with service := service } := .control h.service hs' ha
  refine ⟨hs', fun call spec he => ?_, fun id inst hinst => hpasses.retired id (h.instances id inst hinst),
    h.processes, fun call hreply hhasty => ?_, fun call state hreply hstate hhasty => ?_⟩
  · obtain ⟨hsent, hreceived⟩ := h.preparing call spec he
    exact ⟨getElem?_mono ha.sent hsent, hreceived⟩
  · obtain ⟨id, hsent, hdead⟩ := h.stopped call hreply hhasty
    exact ⟨id, getElem?_mono ha.sent hsent, hpasses.dead hdead⟩
  · obtain ⟨id, hsent, hdead⟩ := h.status call state hreply hstate hhasty
    exact ⟨id, getElem?_mono ha.sent hsent, hpasses.dead hdead⟩

/-- A step of the node that neither answers nor spawns. -/
lemma Sound.frame {node : Node} {hasty : List ℕ} (h : Sound config s) (hf : s.node.Frame node)
    (hhasty : ∀ call ∈ s.hasty, call ∈ hasty) : Sound config ⟨s.service, node, hasty⟩ := by
  have hpasses := Passes.frame hf hasty
  refine ⟨h.service, fun call spec he => ?_, fun id inst hinst => ?_, hf.coherent h.processes,
    fun call hreply hnot => ?_, fun call state hreply hstate hnot => ?_⟩
  · obtain ⟨hsent, hreceived⟩ := h.preparing call spec (hf.preparing _ he)
    exact ⟨hsent, hf.received call hreceived⟩
  · obtain ⟨inst', hinst'⟩ := hf.instances id inst hinst
    exact hpasses.retired id (h.instances id inst' hinst')
  · have hreply' : (call, .stopped) ∈ s.node.replies := hf.replies ▸ hreply
    obtain ⟨id, hsent, hdead⟩ := h.stopped call hreply' fun hin => hnot (hhasty call hin)
    exact ⟨id, hsent, hpasses.dead hdead⟩
  · have hreply' : (call, .status state) ∈ s.node.replies := hf.replies ▸ hreply
    obtain ⟨id, hsent, hdead⟩ := h.status call state hreply' hstate fun hin => hnot (hhasty call hin)
    exact ⟨id, hsent, hpasses.dead hdead⟩

/-- An answer that is only good news when the workspace is dead. -/
lemma Sound.reply {call : ℕ} {answer : AgentReply} (h : Sound config s)
    (hstopped : answer = .stopped → call ∉ s.hasty →
      ∃ id, s.service.sent[call]? = some (.stop id) ∧ s.Dead id)
    (hstatus : ∀ state, answer = .status state → state ≠ .running → call ∉ s.hasty →
      ∃ id, s.service.sent[call]? = some (.status id) ∧ s.Dead id) :
    Sound config { s with node := s.node.reply call answer } := by
  have hpasses : Passes s { s with node := s.node.reply call answer } :=
    .node rfl (fun _ hp => hp) fun p hp => .inl hp
  refine ⟨h.service, h.preparing, fun id inst hinst => hpasses.retired id (h.instances id inst hinst),
    h.processes, fun c hreply hnot => ?_, fun c state hreply hstate hnot => ?_⟩
  · rcases List.mem_append.mp hreply with hold | hnew
    · obtain ⟨id, hsent, hdead⟩ := h.stopped c hold hnot
      exact ⟨id, hsent, hpasses.dead hdead⟩
    · cases List.mem_singleton.mp hnew
      obtain ⟨id, hsent, hdead⟩ := hstopped rfl hnot
      exact ⟨id, hsent, hpasses.dead hdead⟩
  · rcases List.mem_append.mp hreply with hold | hnew
    · obtain ⟨id, hsent, hdead⟩ := h.status c state hold hstate hnot
      exact ⟨id, hsent, hpasses.dead hdead⟩
    · cases List.mem_singleton.mp hnew
      obtain ⟨id, hsent, hdead⟩ := hstatus state rfl hstate hnot
      exact ⟨id, hsent, hpasses.dead hdead⟩

/-- An answer to a `create` or to a `destroyVolume` says nothing about the end of a workspace. -/
lemma Sound.replyOther {call : ℕ} {answer : AgentReply} (h : Sound config s)
    (hstopped : answer ≠ .stopped) (hstatus : ∀ state, answer ≠ .status state) :
    Sound config { s with node := s.node.reply call answer } :=
  h.reply (fun heq => absurd heq hstopped) fun state heq => absurd heq (hstatus state)

/-! ### Arrival of a request -/

/-- A `create` arrives for the first time. -/
lemma Sound.receiveCreate {call : ℕ} {spec : RuntimeSpec} {hasty : List ℕ} (h : Sound config s)
    (hsent : s.service.sent[call]? = some (.create spec)) (hnew : call ∉ s.node.received)
    (hhasty : ∀ call ∈ s.hasty, call ∈ hasty) :
    Sound config ⟨s.service, s.node.receive s.service.now call (.create spec), hasty⟩ := by
  have hreceived := h.frame (Node.frame_receive s.node call) hhasty
  simp only [Node.receive, Node.create]
  split_ifs
  · exact hreceived.replyOther (by simp) (by simp)
  · exact hreceived.frame (Node.frame_starting _ _) fun _ hin => hin
  · have hpasses : Passes s ⟨s.service, { s.node with
        received := call :: s.node.received
        preparing := s.node.preparing ++ [(call, spec)] }, hasty⟩ := by
      refine .node rfl (fun c hp => ?_) fun p hp => .inl hp
      rcases hp with hnot | hpreparing
      · exact .inl fun hin => hnot (List.mem_cons_of_mem _ hin)
      · rw [List.map_append, List.mem_append] at hpreparing
        rcases hpreparing with hold | hlast
        · exact .inr hold
        · obtain rfl := List.mem_singleton.mp hlast
          exact .inl hnew
    refine ⟨h.service, fun c spec' he => ?_, fun id inst hinst =>
      hpasses.retired id (h.instances id inst hinst), h.processes, fun c hreply hnot => ?_,
      fun c state hreply hstate hnot => ?_⟩
    · rcases List.mem_append.mp he with hold | hlast
      · obtain ⟨hsent', hreceived'⟩ := h.preparing c spec' hold
        exact ⟨hsent', List.mem_cons_of_mem _ hreceived'⟩
      · cases List.mem_singleton.mp hlast
        exact ⟨hsent, List.mem_cons_self⟩
    · obtain ⟨id, hsent', hdead⟩ := h.stopped c hreply fun hin => hnot (hhasty c hin)
      exact ⟨id, hsent', hpasses.dead hdead⟩
    · obtain ⟨id, hsent', hdead⟩ := h.status c state hreply hstate fun hin => hnot (hhasty c hin)
      exact ⟨id, hsent', hpasses.dead hdead⟩

/-- A request about a workspace is only sent once its row has left the queue. -/
lemma Sound.begun {call : ℕ} {request : AgentRequest} (h : Sound config s)
    (hsent : s.service.sent[call]? = some request) (hid : request.workspaceId = some id) :
    s.service.Begun id :=
  h.service.core.sent_begun request (List.mem_of_getElem? hsent) id hid

lemma Sound.receiveStop {call : ℕ} {hasty : List ℕ} (h : Sound config s)
    (hsent : s.service.sent[call]? = some (.stop id)) (hhasty : ∀ call ∈ s.hasty, call ∈ hasty)
    (hrecorded : s.Outstanding id → call ∈ hasty) :
    Sound config ⟨s.service, s.node.receive s.service.now call (.stop id), hasty⟩ := by
  have hframe := (Node.frame_receive s.node call).trans (Node.frame_stop _ id)
  have hpasses := Passes.frame hframe hasty
  refine (h.frame hframe hhasty).reply (fun _ hnot => ⟨id, hsent, ?_⟩) (by simp)
  have hretired : s.Retired id := ⟨h.begun hsent rfl, fun ho => hnot (hrecorded ho)⟩
  have hcoherent := (Node.frame_receive s.node call).coherent h.processes
  exact ⟨hpasses.retired id hretired, Node.stop_quiet hcoherent id⟩

lemma Sound.receiveStatus {call : ℕ} {hasty : List ℕ} (h : Sound config s)
    (hsent : s.service.sent[call]? = some (.status id)) (hhasty : ∀ call ∈ s.hasty, call ∈ hasty)
    (hrecorded : s.Outstanding id → call ∈ hasty) :
    Sound config ⟨s.service, s.node.receive s.service.now call (.status id), hasty⟩ := by
  have hframe := Node.frame_receive s.node call
  have hpasses := Passes.frame hframe hasty
  refine (h.frame hframe hhasty).reply (by simp) fun state hanswer hstate hnot => ⟨id, hsent, ?_⟩
  have hretired : s.Retired id := ⟨h.begun hsent rfl, fun ho => hnot (hrecorded ho)⟩
  cases hanswer
  exact ⟨hpasses.retired id hretired, Node.status_quiet h.processes hstate⟩

lemma Sound.spawn {call : ℕ} {spec : RuntimeSpec} (h : Sound config s)
    (hmem : (call, spec) ∈ s.node.preparing) :
    Sound config { s with node := s.node.spawn call spec } ∧
      Passes s { s with node := s.node.spawn call spec } := by
  obtain ⟨hsent, hreceived⟩ := h.preparing call spec hmem
  have hcreate : s.service.sent[call]?.bind AgentRequest.createId = some spec.id := by
    rw [hsent]
    rfl
  have houtstanding : s.Outstanding spec.id :=
    outstanding_iff.mpr ⟨call, hcreate, .inr (List.mem_map_of_mem hmem)⟩
  have hquiet : ∀ p ∈ s.node.processes, p.2 ≠ spec.id := by
    intro p hp hid
    obtain ⟨inst, hinst, -⟩ := h.processes p hp
    exact (h.instances p.2 inst hinst).settled (hid ▸ houtstanding)
  have hpasses : Passes s { s with node := s.node.spawn call spec } := by
    refine .node rfl (fun c hp => ?_) fun p hp => ?_
    · rcases hp with hnot | hpreparing
      · exact .inl hnot
      · obtain ⟨e, he, rfl⟩ := List.mem_map.mp hpreparing
        exact .inr (List.mem_map_of_mem (List.mem_filter.mp he).1)
    · rcases List.mem_cons.mp hp with rfl | hold
      · exact .inr houtstanding
      · exact .inl hold
  refine ⟨⟨h.service, fun c spec' he => ?_, fun id inst hinst => ?_,
    Node.coherent_spawn h.processes hquiet, fun c hreply hnot => ?_,
    fun c state hreply hstate hnot => ?_⟩, hpasses⟩
  · exact h.preparing c spec' (List.mem_filter.mp he).1
  · by_cases hid : id = spec.id
    · -- the call was the only `create` of the workspace, and it is not pending any more
      subst hid
      refine ⟨h.begun hsent rfl, fun ho => ?_⟩
      obtain ⟨c, hc, hpending⟩ := outstanding_iff.mp ho
      obtain rfl := create_unique h.service hc hcreate
      rcases hpending with hnot | hpreparing
      · exact hnot hreceived
      · obtain ⟨e, he, heq⟩ := List.mem_map.mp hpreparing
        have hne := (List.mem_filter.mp he).2
        simp [heq] at hne
    · refine hpasses.retired id (h.instances id inst ?_)
      simpa [Node.spawn, Node.setInstance, hid] using hinst
  · obtain ⟨id, hsent', hdead⟩ := h.stopped c hreply hnot
    exact ⟨id, hsent', hpasses.dead hdead⟩
  · obtain ⟨id, hsent', hdead⟩ := h.status c state hreply hstate hnot
    exact ⟨id, hsent', hpasses.dead hdead⟩

lemma mem_of_lookup {β : Type} {l : List (ℕ × β)} {call : ℕ} {b : β} (h : l.lookup call = some b) :
    (call, b) ∈ l := by
  obtain ⟨l₁, l₂, rfl, -⟩ := List.lookup_eq_some_iff.mp h
  exact List.mem_append_right _ List.mem_cons_self

lemma passes_receive {call : ℕ} {request : AgentRequest} {hasty : List ℕ}
    (hnew : call ∉ s.node.received) :
    Passes s ⟨s.service, s.node.receive s.service.now call request, hasty⟩ := by
  have hreceived := Node.frame_receive s.node call
  cases request with
  | status id => exact .node rfl (fun _ hp => hreceived.pending hp) fun p hp => .inl hp
  | stop id =>
    have hframe := hreceived.trans (Node.frame_stop _ id)
    exact .node rfl (fun _ hp => hframe.pending hp) fun p hp => .inl (hframe.processes p hp)
  | destroyVolume volumeId => exact .node rfl (fun _ hp => hreceived.pending hp) fun p hp => .inl hp
  | create spec =>
    simp only [Node.receive, Node.create]
    split_ifs
    · exact .node rfl (fun _ hp => hreceived.pending hp) fun p hp => .inl hp
    · exact .node rfl (fun _ hp => hreceived.pending hp) fun p hp => .inl hp
    · refine .node rfl (fun c hp => ?_) fun p hp => .inl hp
      rcases hp with hnot | hpreparing
      · exact .inl fun hin => hnot (List.mem_cons_of_mem _ hin)
      · rw [List.map_append, List.mem_append] at hpreparing
        rcases hpreparing with hold | hlast
        · exact .inr hold
        · obtain rfl := List.mem_singleton.mp hlast
          exact .inl hnew

/-- The invariant is kept by every step, and every step keeps dead workspaces dead. -/
theorem Sound.step {a : Action} (h : Sound config s)
    (hs : step config capabilities s a = some s') : Sound config s' ∧ Passes s s' := by
  cases a with
  | control action =>
    simp only [System.step] at hs
    split at hs
    · split at hs
      · rename_i service hservice
        cases hs
        have hs' := h.service.step hservice
        have ha := h.service.advance_step hservice
        exact ⟨h.control hs' ha, .control h.service hs' ha⟩
      · cases hs
    · cases hs
  | receive call =>
    simp only [System.step] at hs
    split at hs
    · rename_i request hsent
      split at hs
      · cases hs
      · rename_i hnew
        cases hs
        refine ⟨?_, passes_receive hnew⟩
        have hhasty : ∀ c ∈ s.hasty, c ∈ if s.isHasty request then call :: s.hasty else s.hasty := by
          intro c hc
          split
          · exact List.mem_cons_of_mem _ hc
          · exact hc
        cases request with
        | create spec => exact h.receiveCreate hsent hnew hhasty
        | status id =>
          refine h.receiveStatus hsent hhasty fun ho => ?_
          rw [if_pos (by simpa [isHasty] using ho)]
          exact List.mem_cons_self
        | stop id =>
          refine h.receiveStop hsent hhasty fun ho => ?_
          rw [if_pos (by simpa [isHasty] using ho)]
          exact List.mem_cons_self
        | destroyVolume volumeId =>
          exact (h.frame (Node.frame_receive s.node call) hhasty).replyOther (by simp) (by simp)
    · cases hs
  | spawn call =>
    simp only [System.step] at hs
    split at hs
    · rename_i spec hlookup
      cases hs
      exact h.spawn (mem_of_lookup hlookup)
    · cases hs
  | prepareFailed call message =>
    simp only [System.step] at hs
    split at hs
    · cases hs
      have hframe := Node.frame_prepared s.node call
      refine ⟨(h.frame hframe fun _ hin => hin).replyOther (by simp) (by simp), ?_⟩
      exact .node rfl (fun _ hp => hframe.pending hp) fun p hp => .inl hp
    · cases hs
  | ready call =>
    simp only [System.step] at hs
    split at hs
    · cases hs
      have hframe := Node.frame_starting s.node (s.node.starting.filter (·.1 ≠ call))
      refine ⟨(h.frame hframe fun _ hin => hin).replyOther (by simp) (by simp), ?_⟩
      exact .node rfl (fun _ hp => hframe.pending hp) fun p hp => .inl hp
    · cases hs
  | setupFailed call message =>
    simp only [System.step] at hs
    split at hs
    · rename_i spec _
      cases hs
      have hfinished := Node.frame_starting s.node (s.node.starting.filter (·.1 ≠ call))
      have hframe := hfinished.trans (Node.frame_stop _ spec.id)
      refine ⟨(h.frame hframe fun _ hin => hin).replyOther (by simp) (by simp), ?_⟩
      exact .node rfl (fun _ hp => hframe.pending hp) fun p hp => .inl (hframe.processes p hp)
    · cases hs
  | exit process success =>
    simp only [System.step] at hs
    split at hs
    · rename_i id _
      cases hs
      have hframe := Node.frame_exit s.node process id success
      exact ⟨h.frame hframe fun _ hin => hin, .frame hframe s.hasty⟩
    · cases hs
  | sweep id =>
    cases hs
    have hframe := Node.frame_sweep s.node s.service.now id
    exact ⟨h.frame hframe fun _ hin => hin, .frame hframe s.hasty⟩
  | forget id =>
    cases hs
    have hframe := Node.frame_forget s.node id
    exact ⟨h.frame hframe fun _ hin => hin, .frame hframe s.hasty⟩

lemma sound_initial : Sound config .initial := by
  refine ⟨Service.consistent_initial, ?_, ?_, ?_, ?_, ?_⟩
  · intro call spec he
    cases he
  · intro id inst hinst
    cases hinst
  · intro p hp
    cases hp
  · intro call hreply
    cases hreply
  · intro call state hreply
    cases hreply

/-! ### Settled rows -/

/-- Every row that is `stopped` or `failed` belongs to a dead workspace. -/
def Settled (s : System) : Prop :=
  ∀ r ∈ s.service.db.workspaces, r.state.isActive = false → s.Dead r.id

/-- An answer that settles a row, given by the node in order, is about a dead workspace. -/
lemma Sound.dead_of_settles {a : Service.Action} (h : Sound config s) (hanswered : s.answered a = true)
    (horder : s.settledInOrder (.control a) = true) (hsettles : s.service.settles a id) :
    s.Dead id := by
  rcases hsettles with ⟨operation, op, rfl, hop, rfl⟩ | ⟨state, row, rest, call, rfl, hstate, hpc, rfl⟩
  · simp only [answered, settledInOrder, hop, decide_eq_true_eq] at hanswered horder
    obtain ⟨id, hsent, hdead⟩ := h.stopped op.call hanswered horder
    have hrow := h.service.core.operations op (List.mem_of_getElem? hop)
    rw [hsent] at hrow
    cases hrow
    exact hdead
  · simp only [answered, settledInOrder, hpc, decide_eq_true_eq, hstate, false_or] at hanswered horder
    obtain ⟨id, hsent, hdead⟩ := h.status call state hanswered hstate horder
    have hrow := h.service.suspended
    simp only [Service.Suspended, hpc] at hrow
    rw [hsent] at hrow
    cases hrow.1
    exact hdead

theorem Settled.step {a : Action} (hsound : Sound config s) (h : Settled s)
    (ha : s.settledInOrder a = true) (hs : step config capabilities s a = some s') :
    Settled s' := by
  have hpasses := (hsound.step hs).2
  intro r' hr' hinactive
  by_cases hcontrol : ∃ action, a = .control action
  · obtain ⟨action, rfl⟩ := hcontrol
    simp only [System.step] at hs
    split at hs
    · rename_i hanswered
      split at hs
      · rename_i service hservice
        cases hs
        rcases Service.inactive_origin hservice hr' hinactive with ⟨r, hr, hid, hbefore⟩ | hsettles
        · exact hid ▸ hpasses.dead (h r hr hbefore)
        · exact hpasses.dead (hsound.dead_of_settles hanswered ha hsettles)
      · cases hs
    · cases hs
  · have hservice : s'.service = s.service := by
      cases a with
      | control action => exact absurd ⟨action, rfl⟩ hcontrol
      | receive call | spawn call | prepareFailed call message | ready call
      | setupFailed call message | exit process success =>
        simp only [System.step] at hs
        split at hs
        · first
          | (cases hs; rfl)
          | (split at hs <;> cases hs; rfl)
        · cases hs
      | sweep id | forget id =>
        cases hs
        rfl
    exact hpasses.dead (h r' (hservice ▸ hr') hinactive)

/-- In every run in which the control plane settles workspaces in order, no process runs for a
workspace that is `stopped` or `failed`, then or at any later time. -/
theorem terminated_of_settledInOrder
    (h : Transition.Leads (step config capabilities) (fun s a => s.settledInOrder a = true)
      .initial s) : Terminated config capabilities s := by
  have hboth : Sound config s ∧ Settled s := by
    refine Transition.Leads.invariant (fun t => Sound config t ∧ Settled t) h ⟨sound_initial, ?_⟩
      fun t a t' ht ha hs => ⟨(ht.1.step hs).1, ht.2.step ht.1 ha hs⟩
    intro r hr
    cases hr
  intro r hr hinactive s' hlater
  have hlast : Sound config s' ∧ s'.Dead r.id :=
    Transition.Leads.invariant (fun t => Sound config t ∧ t.Dead r.id) hlater
      ⟨hboth.1, hboth.2 r hr hinactive⟩
      fun t a t' ht _ hs => ⟨(ht.1.step hs).1, (ht.1.step hs).2.dead ht.2⟩
  exact hlast.2.quiet

/-- A workspace that was set up before its owner stops it. -/
theorem terminated_of_settledInOrder_stop_running :
    ∃ s, (∃ r ∈ s.service.db.workspaces, r.state = .stopped) ∧
      Transition.Leads (step .default none) (fun s a => s.settledInOrder a = true) .initial s ∧
      Terminated .default none s := by
  have hrun : ∃ s, Transition.exec (Transition.guard (step .default none) settledInOrder) .initial
      [.control (.create "0xab" "network" none "w1" "v1"), .receive 0, .spawn 0, .ready 0,
        .control (.createReply (.ok ())), .control (.stopCurrent "0xab"), .receive 1,
        .control (.stopReply 0 (.ok ()))] = some s ∧
      ∃ r ∈ s.service.db.workspaces, r.state = .stopped := ⟨_, rfl, by decide⟩
  obtain ⟨s, hs, hstopped⟩ := hrun
  have hleads := Transition.leads_of_exec_guard hs
  exact ⟨s, hstopped, hleads, terminated_of_settledInOrder hleads⟩

theorem not_terminated_while_preparing :
    ¬∀ s, Transition.Leads (step .default none) Transition.anyStep .initial s →
      Terminated .default none s := by
  intro h
  have hrun : ∃ s, Transition.exec (step .default none) .initial
      [.control (.create "0xab" "network" none "w1" "v1"), .receive 0,
        .control (.stopCurrent "0xab"), .receive 1, .control (.stopReply 0 (.ok ()))] = some s ∧
      (∃ r ∈ s.service.db.workspaces, r.id = "w1" ∧ r.state.isActive = false) ∧
      ∃ s', step .default none s (.spawn 0) = some s' ∧ (0, "w1") ∈ s'.node.processes :=
    ⟨_, rfl, by decide, _, rfl, by decide⟩
  obtain ⟨s, hs, ⟨r, hr, hid, hinactive⟩, s', hspawn, hprocess⟩ := hrun
  have hquiet := h s (Transition.leads_of_exec hs) r hr hinactive s'
    (Transition.Leads.single trivial hspawn)
  exact hquiet _ hprocess hid.symm

end System

end Bloom
