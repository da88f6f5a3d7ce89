import BloomWorkspaces.Agent.PathCalls
import BloomWorkspaces.Jobs.StructuredJobSpec
import BloomWorkspaces.Library.UriComponent

/-!
# Approval of a ceremony

`approve` of `RealBloom`, which the process runtime runs with the string of the route as it is. It removes
what stands at a joined path, first in one chain and then in the next ones as long as that fails.
-/

namespace Bloom

/-- `WALLET_NAME` -/
def walletName : JsText := jsText "workspace-login"

/-- The directory of temporary files is absolute, and so is the home below it. -/
structure RealBloom where
  home : JsText
  absolute : home.head? = some JsText.slash

namespace RealBloom

def walletOutbox (b : RealBloom) : JsText := posixJoin [b.home, jsText "outbox", walletName]

def requestPath (b : RealBloom) (chain txId : JsText) : JsText :=
  posixJoin [b.walletOutbox, chain, jsText "pending", txId]

/-- The loop of `approve`. -/
def approveIn (b : RealBloom) (txId : JsText) : List JsText → PathRoutine Bool
  | [] => pure false
  | chain :: rest => do
    match ← (NodeFs.rm (b.requestPath chain txId)).attempt with
    | .ok _ => pure true
    | .error _ => b.approveIn txId rest

def approve (b : RealBloom) (txId : JsText) : PathRoutine Bool := do
  match ← (NodeFs.readdir b.walletOutbox).attempt with
  | .ok chains => b.approveIn txId chains
  | .error _ => pure false

end RealBloom

/-! ### The route -/

/-- What the process runtime keeps of its workspaces; `mockRequests` are the requests of the store that
stands in for the guest where there is no `RealBloom`. -/
structure ProcessRuntime where
  running : String → Bool
  realBloomInstances : String → Option RealBloom
  mockCeremony : Bool
  mockRequests : String → JsText → Bool

/-- `guestRequest` for `ceremony.approve`: neither the route nor the runtime parses the request with the
schema of the protocol. -/
def ProcessRuntime.ceremonyApprove (r : ProcessRuntime) (id : String) (txId : JsText) : PathRoutine Unit :=
  if r.running id = false then .throws (.data ⟨"Workspace is not running", 409⟩)
  else
    match r.realBloomInstances id with
    | some realBloom => do
      if ← realBloom.approve txId then pure ()
      else .throws (.data ⟨"Ceremony request not found", 404⟩)
    | none =>
      if r.mockCeremony = false then
        .throws (.data ⟨"The process runtime has no guest control service", 501⟩)
      else if r.mockRequests id txId then pure ()
      else .throws (.data ⟨"Ceremony request not found", 404⟩)

/-- The route gets a segment of the path; the router refuses one that has no decoding. -/
def ProcessRuntime.approveRoute (r : ProcessRuntime) (id : String) (segment : JsText) : PathRoutine Unit :=
  match UriComponent.decode segment with
  | some txId => r.ceremonyApprove id txId
  | none => .throws .io

namespace RealBloom

open WorkspaceTree

/-! ### One child -/

/-- The object is the child with the name `txId` of the pending directory of a chain, or below it. -/
def AtChild (b : RealBloom) (t : WorkspaceTree) (txId : JsText) (chain : FileName) (p : TreePath) : Prop :=
  ∃ base, t.realpath b.home = some base ∧
    base ++ [(jsText "outbox").toFileName, walletName.toFileName, chain, (jsText "pending").toFileName,
      txId.toFileName] <+: p

/-- All that is lost was in one child. -/
def OneChild (b : RealBloom) (t : WorkspaceTree) (txId : JsText) (s : WorkspaceTree) : Prop :=
  ∃ chain, ∀ p, t.Lost s p → b.AtChild t txId chain p

/-- Whatever calls fail, nothing but one child is removed. -/
def RemovesOneChild (b : RealBloom) (t : WorkspaceTree) (txId : JsText) : Prop :=
  (b.approve txId).Ensures (b.OneChild t txId) (fun _ => b.OneChild t txId) (fun _ => b.OneChild t txId) t

/-- Where two chains lead to different children, nothing in the first can be lost while the path of the
second still leads to an object. -/
structure KeepsToOneChild (b : RealBloom) (t : WorkspaceTree) (txId : JsText) (chains : List JsText) :
    Prop where
  own : ∀ chain ∈ chains, ∀ target,
    t.rmTarget (b.requestPath chain txId) = some (some target) → ∃ c, b.AtChild t txId c target
  single : chains.Pairwise fun chain later => ∀ target target',
    t.rmTarget (b.requestPath chain txId) = some (some target) →
    t.rmTarget (b.requestPath later txId) = some (some target') →
      (∃ c, b.AtChild t txId c target ∧ b.AtChild t txId c target') ∨
      ∀ p, target <+: p → p ≠ target → (t.node p).isSome →
        ∀ found, (t.without p.isPrefixOf).rmTarget (b.requestPath later txId) ≠ some (some found)

variable {b : RealBloom} {s t : WorkspaceTree} {txId : JsText} {c c' : FileName} {p q : TreePath}

lemma AtChild.below (h : b.AtChild t txId c p) (hpq : p <+: q) : b.AtChild t txId c q := by
  obtain ⟨base, hbase, hprefix⟩ := h
  exact ⟨base, hbase, hprefix.trans hpq⟩

lemma AtChild.unique (h : b.AtChild t txId c p) (h' : b.AtChild t txId c' p) : c = c' := by
  obtain ⟨base, hbase, hprefix⟩ := h
  obtain ⟨base', hbase', hprefix'⟩ := h'
  rw [hbase] at hbase'
  cases hbase'
  have hsame := (List.prefix_of_prefix_length_le hprefix hprefix' (by simp)).eq_of_length (by simp)
  simpa using hsame

/-! ### What the loop ensures -/

section Loop

variable {I : WorkspaceTree → Prop} {Q : Bool → WorkspaceTree → Prop} {E : PathError → WorkspaceTree → Prop}
  {chain : JsText} {rest : List JsText}

lemma ensures_approve : (b.approve txId).Ensures I Q E t ↔ I t ∧ Q false t ∧
    ∀ chains, t.list b.walletOutbox = some chains → (b.approveIn txId chains).Ensures I Q E t := by
  rw [approve, Routine.ensures_bind, Routine.ensures_attempt, NodeFs.readdir, Routine.ensures_await]
  cases hlist : t.list b.walletOutbox with
  | none =>
    constructor
    · exact fun h => ⟨(h .done).1, (h .done).2, nofun⟩
    · exact fun h answer => ⟨h.1, by cases answer <;> exact h.2.1⟩
  | some chains =>
    constructor
    · intro h
      refine ⟨(h .done).1, (h (.fails fun _ => false)).2, ?_⟩
      rintro _ ⟨⟩
      exact (h .done).2
    · intro h answer
      refine ⟨h.1, ?_⟩
      cases answer with
      | done => exact h.2.2 chains rfl
      | fails removed => exact h.2.1

lemma ensures_approveIn_cons : (b.approveIn txId (chain :: rest)).Ensures I Q E s ↔
    (I (s.afterRm (b.requestPath chain txId) .done) ∧
      (if (s.rmTarget (b.requestPath chain txId)).isSome then
        Q true (s.afterRm (b.requestPath chain txId) .done)
      else (b.approveIn txId rest).Ensures I Q E (s.afterRm (b.requestPath chain txId) .done))) ∧
    ∀ removed, I (s.afterRm (b.requestPath chain txId) (.fails removed)) ∧
      (b.approveIn txId rest).Ensures I Q E (s.afterRm (b.requestPath chain txId) (.fails removed)) := by
  rw [approveIn, Routine.ensures_bind, Routine.ensures_attempt, NodeFs.rm, Routine.ensures_await]
  cases s.rmTarget (b.requestPath chain txId) with
  | none =>
    constructor
    · exact fun h => ⟨⟨(h .done).1, (h .done).2⟩, fun removed => h (.fails removed)⟩
    · intro h answer
      cases answer with
      | done => exact h.1
      | fails removed => exact h.2 removed
  | some target =>
    constructor
    · exact fun h => ⟨⟨(h .done).1, (h .done).2⟩, fun removed => h (.fails removed)⟩
    · intro h answer
      cases answer with
      | done => exact h.1
      | fails removed => exact h.2 removed

end Loop

/-! ### One child at most -/

section Confined

variable {chain : JsText} {rest chains : List JsText} {answer : PathAnswer} {target : TreePath}

/-- What the rest of the loop may still do: nothing is lost yet, or the other chains lead to nothing outside
the child from which something is lost. -/
def Open (b : RealBloom) (t : WorkspaceTree) (txId : JsText) (rest : List JsText) (s : WorkspaceTree) : Prop :=
  (∀ p, ¬t.Lost s p) ∨ ∃ c, (∀ p, t.Lost s p → b.AtChild t txId c p) ∧
    ∀ chain ∈ rest, ∀ target, s.rmTarget (b.requestPath chain txId) = some (some target) →
      b.AtChild t txId c target

lemma Open.oneChild (h : b.Open t txId rest s) : b.OneChild t txId s := by
  rcases h with hnothing | ⟨c, hlost, -⟩
  · exact ⟨[], fun p hp => absurd hp (hnothing p)⟩
  · exact ⟨c, hlost⟩

lemma Open.tail (h : b.Open t txId (chain :: rest) s) : b.Open t txId rest s := by
  rcases h with hnothing | ⟨c, hlost, hrest⟩
  · exact Or.inl hnothing
  · exact Or.inr ⟨c, hlost, fun chain hchain => hrest chain (List.mem_cons_of_mem _ hchain)⟩

lemma KeepsToOneChild.tail (h : b.KeepsToOneChild t txId (chain :: rest)) : b.KeepsToOneChild t txId rest :=
  ⟨fun chain hchain => h.own chain (List.mem_cons_of_mem _ hchain), (List.pairwise_cons.mp h.single).2⟩

/-- The chain leads to one child, and all that is lost was there. -/
lemma exists_child (hkeeps : b.KeepsToOneChild t txId (chain :: rest)) (hs : s.Within t)
    (hopen : b.Open t txId (chain :: rest) s)
    (htarget : s.rmTarget (b.requestPath chain txId) = some (some target)) :
    ∃ c, b.AtChild t txId c target ∧ ∀ p, t.Lost s p → b.AtChild t txId c p := by
  rcases hopen with hnothing | ⟨c, hlost, hrest⟩
  · obtain ⟨c, hc⟩ :=
      hkeeps.own chain List.mem_cons_self target (rmTarget_mono hs htarget)
    exact ⟨c, hc, fun p hp => absurd hp (hnothing p)⟩
  · exact ⟨c, hrest chain List.mem_cons_self target htarget, hlost⟩

/-- Nothing outside the child is lost in a turn of the loop. -/
lemma atChild_of_lost (hc : b.AtChild t txId c target) (hlost : ∀ p, t.Lost s p → b.AtChild t txId c p)
    (htarget : s.rmTarget (b.requestPath chain txId) = some (some target))
    (hp : t.Lost (s.afterRm (b.requestPath chain txId) answer) p) : b.AtChild t txId c p := by
  by_cases hbefore : t.Lost s p
  · exact hlost p hbefore
  · exact hc.below (lost_afterRm htarget (hp.since hbefore)).1

lemma oneChild_afterRm (hkeeps : b.KeepsToOneChild t txId (chain :: rest)) (hs : s.Within t)
    (hopen : b.Open t txId (chain :: rest) s) :
    b.OneChild t txId (s.afterRm (b.requestPath chain txId) answer) := by
  by_cases hsome : ∃ target, s.rmTarget (b.requestPath chain txId) = some (some target)
  · obtain ⟨target, htarget⟩ := hsome
    obtain ⟨c, hc, hlost⟩ := exists_child hkeeps hs hopen htarget
    exact ⟨c, fun p hp => atChild_of_lost hc hlost htarget hp⟩
  · rw [afterRm_none (not_exists.mp hsome)]
    exact hopen.oneChild

/-- After a call of `rm` that has failed the other chains lead to nothing outside the child. -/
lemma open_fails {removed : TreePath → Bool} (hkeeps : b.KeepsToOneChild t txId (chain :: rest))
    (hs : s.Within t) (hopen : b.Open t txId (chain :: rest) s) :
    b.Open t txId rest (s.afterRm (b.requestPath chain txId) (.fails removed)) := by
  have hwithin := s.afterRm_within (b.requestPath chain txId) (.fails removed)
  by_cases hsome : ∃ target, s.rmTarget (b.requestPath chain txId) = some (some target)
  · obtain ⟨target, htarget⟩ := hsome
    rcases hopen with hnothing | ⟨c, hlost, hrest⟩
    · obtain ⟨c, hc, hlost⟩ := exists_child hkeeps hs (Or.inl hnothing) htarget
      by_cases hany : ∃ p, t.Lost (s.afterRm (b.requestPath chain txId) (.fails removed)) p
      · obtain ⟨p, hp⟩ := hany
        refine Or.inr ⟨c, fun q hq => atChild_of_lost hc hlost htarget hq, ?_⟩
        intro later hlater target' htarget'
        -- What the call has removed is not on the way of the other path.
        have hnow : s.Lost (s.afterRm (b.requestPath chain txId) (.fails removed)) p :=
          WorkspaceTree.Lost.since hp (hnothing p)
        obtain ⟨hbelow, hne⟩ := lost_afterRm htarget hnow
        have hfound := rmTarget_mono ((hwithin.trans hs).without_of_lost hp) htarget'
        rcases (List.pairwise_cons.mp hkeeps.single).1 later hlater target target'
          (rmTarget_mono hs htarget)
          (rmTarget_mono (hwithin.trans hs) htarget') with ⟨c', hc', hsame⟩ | hnone
        · rw [hc.unique hc']
          exact hsame
        · exact absurd hfound (hnone p hbelow (hne nofun) hp.1 target')
      · exact Or.inl (not_exists.mp hany)
    · have hc := hrest chain List.mem_cons_self target htarget
      refine Or.inr ⟨c, fun p hp => atChild_of_lost hc hlost htarget hp, ?_⟩
      intro later hlater target' htarget'
      exact hrest later (List.mem_cons_of_mem _ hlater) target'
        (rmTarget_mono hwithin htarget')
  · rw [afterRm_none (not_exists.mp hsome)]
    exact hopen.tail

lemma ensures_approveIn (hkeeps : b.KeepsToOneChild t txId chains) (hs : s.Within t)
    (hopen : b.Open t txId chains s) :
    (b.approveIn txId chains).Ensures (b.OneChild t txId) (fun _ => b.OneChild t txId)
      (fun _ => b.OneChild t txId) s := by
  induction chains generalizing s with
  | nil => exact hopen.oneChild
  | cons chain rest ih =>
    rw [ensures_approveIn_cons]
    refine ⟨⟨oneChild_afterRm hkeeps hs hopen, ?_⟩, fun removed =>
      ⟨oneChild_afterRm hkeeps hs hopen, ?_⟩⟩
    · split_ifs with hsome
      · exact oneChild_afterRm hkeeps hs hopen
      · have hnone : ∀ target, s.rmTarget (b.requestPath chain txId) ≠ some (some target) := by
          intro target htarget
          rw [htarget] at hsome
          exact hsome rfl
        rw [afterRm_none hnone]
        exact ih hkeeps.tail hs hopen.tail
    · exact ih hkeeps.tail ((s.afterRm_within _ _).trans hs) (open_fails hkeeps hs hopen)

end Confined

/-! ### More than one child -/

section Escapes

variable {I : WorkspaceTree → Prop} {Q : Bool → WorkspaceTree → Prop} {E : PathError → WorkspaceTree → Prop}
  {chain : JsText} {first rest chains : List JsText}

/-- The calls for the first chains may all fail at once. -/
lemma ensures_skip (h : (b.approveIn txId (first ++ rest)).Ensures I Q E s) :
    (b.approveIn txId rest).Ensures I Q E s := by
  induction first with
  | nil => exact h
  | cons chain first ih =>
    have hnext := ((ensures_approveIn_cons.mp h).2 fun _ => false).2
    rw [afterRm_fails] at hnext
    exact ih hnext

/-- The call for any chain may be the one that removes something. -/
lemma ensures_done (h : (b.approveIn txId chains).Ensures I Q E s) (hchain : chain ∈ chains) :
    I (s.afterRm (b.requestPath chain txId) .done) := by
  obtain ⟨first, rest, rfl⟩ := List.append_of_mem hchain
  exact (ensures_approveIn_cons.mp (ensures_skip h)).1.1

lemma keepsToOneChild_of_ensures
    (h : (b.approveIn txId chains).Ensures (b.OneChild t txId) (fun _ => b.OneChild t txId)
      (fun _ => b.OneChild t txId) t) : b.KeepsToOneChild t txId chains := by
  induction chains with
  | nil => exact ⟨fun chain hchain => absurd hchain List.not_mem_nil, List.Pairwise.nil⟩
  | cons chain rest ih =>
    have hskip : (b.approveIn txId ([chain] ++ rest)).Ensures (b.OneChild t txId)
      (fun _ => b.OneChild t txId) (fun _ => b.OneChild t txId) t := h
    have hrest := ih (ensures_skip hskip)
    have hown : ∀ target, t.rmTarget (b.requestPath chain txId) = some (some target) →
        ∃ c, b.AtChild t txId c target := by
      intro target htarget
      obtain ⟨c, hc⟩ := ensures_done h List.mem_cons_self
      exact ⟨c, hc target (lost_target htarget)⟩
    refine ⟨fun chain' hchain' => ?_, List.pairwise_cons.mpr ⟨?_, hrest.single⟩⟩
    · rcases List.mem_cons.mp hchain' with rfl | hmem
      · exact hown
      · exact hrest.own chain' hmem
    · intro later hlater target target' htarget htarget'
      refine or_iff_not_imp_right.mpr fun hescapes => ?_
      push Not at hescapes
      obtain ⟨p, hbelow, hne, hnode, found, hfound⟩ := hescapes
      -- The call for the first chain fails and removes `p`, and the other one succeeds.
      have hfails := ((ensures_approveIn_cons.mp h).2 p.isPrefixOf).2
      rw [afterRm_below htarget hbelow hne] at hfails
      obtain ⟨c, hc⟩ := ensures_done hfails hlater
      have hp : p ≠ [] := by
        rintro rfl
        exact hne (List.prefix_nil.mp hbelow).symm
      have hlostp := (lost_self hp hnode).mono
        ((t.without p.isPrefixOf).afterRm_within (b.requestPath later txId) .done)
      have hsame : found = target' := by
        have hmono := rmTarget_mono (t.within_without p.isPrefixOf) hfound
        rw [htarget'] at hmono
        cases hmono
        rfl
      subst hsame
      have hlost : t.Lost ((t.without p.isPrefixOf).afterRm (b.requestPath later txId) .done) found :=
        ⟨isSome_of_rmTarget htarget', (lost_target hfound).2⟩
      obtain ⟨c', hc'⟩ := hown target htarget
      rw [(hc'.below hbelow).unique (hc p hlostp)] at hc'
      exact ⟨c, hc', hc found hlost⟩

end Escapes

/-! ### Requests that are names -/

section Names

variable {names chains : List (List Char)} {chain name : List Char} {target : TreePath}

/-- The names on the way to the pending directory of a chain. -/
def pendingNames (names : List (List Char)) (chain : List Char) : List (List Char) :=
  names ++ ["outbox".toList, "workspace-login".toList, chain, "pending".toList]

lemma requestPath_names (hne : names ≠ []) (hhome : b.home = absolutePath names)
    (hnames : ∀ n ∈ names, IsName n) (hchain : IsName chain) (hname : IsName name) :
    (∀ n ∈ pendingNames names chain ++ [name], IsName n) ∧
      b.requestPath (Utf16.encode chain) (Utf16.encode name) =
        absolutePath (pendingNames names chain ++ [name]) := by
  have hconstant : IsName "outbox".toList ∧ IsName "workspace-login".toList ∧ IsName "pending".toList := by
    decide +kernel
  have houtbox : ∀ n ∈ names ++ ["outbox".toList, "workspace-login".toList], IsName n := by
    simp only [List.mem_append, List.mem_cons, List.not_mem_nil, or_false]
    rintro n (hn | rfl | rfl)
    · exact hnames n hn
    · exact hconstant.1
    · exact hconstant.2.1
  have hall : ∀ n ∈ (names ++ ["outbox".toList, "workspace-login".toList]) ++
      [chain, "pending".toList, name], IsName n := by
    simp only [List.mem_append, List.mem_cons, List.not_mem_nil, or_false] at houtbox ⊢
    rintro n (hn | rfl | rfl | rfl)
    · exact houtbox n hn
    · exact hchain
    · exact hconstant.2.2
    · exact hname
  have hwallet : b.walletOutbox = absolutePath (names ++ ["outbox".toList, "workspace-login".toList]) := by
    rw [walletOutbox, hhome, walletName, jsText, jsText, ← posixJoin_absolutePath hne houtbox,
      List.map_cons, List.map_singleton]
  have hlist : pendingNames names chain ++ [name] =
      (names ++ ["outbox".toList, "workspace-login".toList]) ++ [chain, "pending".toList, name] := by
    simp only [pendingNames, List.append_assoc, List.cons_append, List.nil_append]
  rw [hlist]
  refine ⟨hall, ?_⟩
  rw [requestPath, hwallet, jsText, ← posixJoin_absolutePath (by simp) hall, List.map_cons, List.map_cons,
    List.map_singleton]

/-- Where no link is on the way, a name leads to the child of the chain. -/
lemma atChild_of_name (hne : names ≠ []) (hhome : b.home = absolutePath names)
    (hnames : ∀ n ∈ names, IsName n) (hchain : IsName chain) (hname : IsName name)
    (hlinks : ∀ q, q <+: (pendingNames names chain).map Utf8.encode → ∀ link,
      t.node q ≠ some (.symlink link))
    (htarget : t.rmTarget (b.requestPath (Utf16.encode chain) (Utf16.encode name)) = some (some target)) :
    b.AtChild t (Utf16.encode name) (Utf8.encode chain) target := by
  obtain ⟨hall, hpath⟩ := requestPath_names hne hhome hnames hchain hname
  rw [hpath] at htarget
  obtain ⟨-, hlstat, -, n, hnode, -⟩ := rmTarget_eq_some.mp htarget
  rw [withoutSlash_absolutePath (by simp) hall] at hlstat
  have hway : ∀ q, q <+: (pendingNames names chain ++ [name]).map Utf8.encode →
      q ≠ (pendingNames names chain ++ [name]).map Utf8.encode → ∀ link, t.node q ≠ some (.symlink link) := by
    intro q hq hqne
    rw [List.map_append, List.map_singleton] at hq hqne
    exact hlinks q ((List.prefix_concat_iff.mp hq).resolve_left hqne)
  obtain rfl := eq_of_lstat hall hway hlstat
  have hsplit : pendingNames names chain ++ [name] =
      names ++ ["outbox".toList, "workspace-login".toList, chain, "pending".toList, name] := by
    simp only [pendingNames, List.append_assoc, List.cons_append, List.nil_append]
  rw [hsplit] at hall hlstat hnode ⊢
  have hhomeNode : t.node (names.map Utf8.encode) = some .directory := by
    refine node_prefix hnode ?_ ?_
    · rw [List.map_append]
      exact List.prefix_append _ _
    · simp
  refine ⟨names.map Utf8.encode, ?_, ?_⟩
  · rw [hhome]
    exact realpath_of_lstat hall hlstat hhomeNode
  · simp only [walletName, jsText, JsText.toFileName_encode, List.map_append, List.map_cons, List.map_nil]
    exact List.prefix_refl _

/-- The request is a name, no link is on the way to the pending directories, and at most one of them has a
child with the name. -/
structure LeadsDirectly (b : RealBloom) (t : WorkspaceTree) (names chains : List (List Char))
    (name : List Char) : Prop where
  home : b.home = absolutePath names
  below : names ≠ []
  homeNames : ∀ n ∈ names, IsName n
  chainNames : ∀ chain ∈ chains, IsName chain
  request : IsName name
  unlinked : ∀ chain ∈ chains, ∀ q, q <+: (pendingNames names chain).map Utf8.encode → ∀ link,
    t.node q ≠ some (.symlink link)
  one : chains.Pairwise fun chain later => ∀ target target',
    t.rmTarget (b.requestPath (Utf16.encode chain) (Utf16.encode name)) = some (some target) →
      t.rmTarget (b.requestPath (Utf16.encode later) (Utf16.encode name)) ≠ some (some target')

/-- A name that leads to one child directly keeps to it. -/
lemma keepsToOneChild_of_name (h : b.LeadsDirectly t names chains name) :
    b.KeepsToOneChild t (Utf16.encode name) (chains.map Utf16.encode) := by
  refine ⟨?_, List.pairwise_map.mpr (h.one.imp fun hnot target target' hfirst hlater => ?_)⟩
  · intro chain hchain target htarget
    obtain ⟨chain, hmem, rfl⟩ := List.mem_map.mp hchain
    exact ⟨_, atChild_of_name h.below h.home h.homeNames (h.chainNames chain hmem) h.request
      (h.unlinked chain hmem) htarget⟩
  · exact absurd hlater (hnot target target' hfirst)

/-- The paths of the chains lead to nothing that can be removed. -/
def LeadsNowhere (b : RealBloom) (t : WorkspaceTree) (txId : JsText) (chains : List JsText) : Prop :=
  ∀ chain ∈ chains, ∀ target, t.rmTarget (b.requestPath chain txId) ≠ some (some target)

lemma LeadsNowhere.keeps {chains : List JsText} (h : b.LeadsNowhere t txId chains) :
    b.KeepsToOneChild t txId chains := by
  refine ⟨fun chain hchain target htarget => absurd htarget (h chain hchain target), ?_⟩
  refine List.pairwise_of_forall_mem_list fun chain hchain later _ target target' htarget _ => ?_
  exact absurd htarget (h chain hchain target)

/-- A string that is no name of a file keeps to one child only where it leads to nothing. -/
lemma rmTarget_of_not_name {chains : List JsText} (h : b.KeepsToOneChild t txId chains)
    (hname : isPlainName txId.toFileName = false) : b.LeadsNowhere t txId chains := by
  intro chain hchain target htarget
  obtain ⟨c, base, -, hprefix⟩ := h.own chain hchain target htarget
  obtain ⟨-, -, -, n, hnode, -⟩ := rmTarget_eq_some.mp htarget
  have hchild : ∃ m, t.node (base ++ [(jsText "outbox").toFileName, walletName.toFileName, c,
      (jsText "pending").toFileName] ++ [txId.toFileName]) = some m := by
    rw [List.append_assoc]
    by_cases hsame : base ++ [(jsText "outbox").toFileName, walletName.toFileName, c,
        (jsText "pending").toFileName, txId.toFileName] = target
    · rw [← hsame] at hnode
      exact ⟨n, hnode⟩
    · exact ⟨_, node_prefix hnode hprefix hsame⟩
  obtain ⟨m, hm⟩ := hchild
  rw [plain_of_node hm] at hname
  cases hname

end Names

lemma removesOneChild : b.RemovesOneChild t txId ↔
    ∀ chains, t.list b.walletOutbox = some chains → b.KeepsToOneChild t txId chains := by
  have hstart : ∀ p, ¬t.Lost t p := by
    rintro p ⟨hsome, hnone⟩
    rw [hnone] at hsome
    cases hsome
  rw [RemovesOneChild, ensures_approve]
  constructor
  · exact fun h chains hchains => keepsToOneChild_of_ensures (h.2.2 chains hchains)
  · intro h
    have hnothing : b.OneChild t txId t := ⟨[], fun p hp => absurd hp (hstart p)⟩
    refine ⟨hnothing, hnothing, fun chains hchains => ?_⟩
    exact ensures_approveIn (h chains hchains) (WorkspaceTree.Within.refl t) (Or.inl hstart)

/-- Nothing but one child is removed exactly when the paths of the chains lead to nothing else. For a string
that is no name of a file they may lead to nothing at all; a name may be in the outbox of one chain, with no
link on the way. -/
theorem removesOneChild_iff (b : RealBloom) (t : WorkspaceTree) (txId : JsText) :
    (b.RemovesOneChild t txId ↔
      ∀ chains, t.list b.walletOutbox = some chains → b.KeepsToOneChild t txId chains) ∧
    (isPlainName txId.toFileName = false → (b.RemovesOneChild t txId ↔
      ∀ chains, t.list b.walletOutbox = some chains → b.LeadsNowhere t txId chains)) ∧
    ∀ names chains name, txId = Utf16.encode name →
      t.list b.walletOutbox = some (chains.map Utf16.encode) →
        b.LeadsDirectly t names chains name → b.RemovesOneChild t txId := by
  refine ⟨removesOneChild, fun hname => removesOneChild.trans ?_, ?_⟩
  · exact ⟨fun h chains hchains => rmTarget_of_not_name (h chains hchains) hname,
      fun h chains hchains => (h chains hchains).keeps⟩
  · rintro names chains name rfl hlist hdirect
    refine removesOneChild.mpr fun listed hlisted => ?_
    rw [hlist] at hlisted
    cases hlisted
    exact keepsToOneChild_of_name hdirect

/-! ### A request that leads out of the outbox -/

def homeNames : TreePath := [(jsText "tmp").toFileName, (jsText "home").toFileName]

/-- A home with one chain and a keystore. -/
def homeTree : WorkspaceTree where
  entries := [
    ⟨[], (jsText "tmp").toFileName, 1, .directory⟩,
    ⟨[(jsText "tmp").toFileName], (jsText "home").toFileName, 2, .directory⟩,
    ⟨homeNames, (jsText "keystore").toFileName, 3, .directory⟩,
    ⟨homeNames, (jsText "outbox").toFileName, 4, .directory⟩,
    ⟨homeNames ++ [(jsText "outbox").toFileName], walletName.toFileName, 5, .directory⟩,
    ⟨homeNames ++ [(jsText "outbox").toFileName, walletName.toFileName], (jsText "base").toFileName, 6,
      .directory⟩]
  slot := List.length
  room := fun _ _ => true
  nodup := by decide +kernel
  plain := by decide +kernel
  closed := by decide +kernel
  linked := by decide +kernel

def homeBloom : RealBloom := ⟨jsText "/tmp/home", by decide⟩

/-- A request for `..%2F..%2F..%2F..%2Fkeystore` removes the keystore. -/
theorem not_removesOneChild : ¬∀ (b : RealBloom) (t : WorkspaceTree) (segment txId : JsText),
    UriComponent.decode segment = some txId → b.RemovesOneChild t txId := by
  intro h
  have hdecode : UriComponent.decode (jsText "..%2F..%2F..%2F..%2Fkeystore") =
      some (jsText "../../../../keystore") := by decide +kernel
  have hremoves := h homeBloom homeTree _ _ hdecode
  rw [RemovesOneChild, ensures_approve] at hremoves
  have houtbox : homeBloom.walletOutbox = jsText "/tmp/home/outbox/workspace-login" := by decide +kernel
  have hlist : homeTree.list homeBloom.walletOutbox = some [jsText "base"] := by
    rw [houtbox]
    decide +kernel
  have hpath : homeBloom.requestPath (jsText "base") (jsText "../../../../keystore") =
      jsText "/tmp/home/keystore" := by decide +kernel
  have htarget : homeTree.rmTarget (homeBloom.requestPath (jsText "base") (jsText "../../../../keystore")) =
      some (some (homeNames ++ [(jsText "keystore").toFileName])) := by
    rw [hpath]
    decide +kernel
  obtain ⟨c, hc⟩ := ensures_done (hremoves.2.2 _ hlist) List.mem_cons_self
  obtain ⟨base, -, hprefix⟩ := hc _ (lost_target htarget)
  have hlength := hprefix.length_le
  simp only [homeNames, List.length_append, List.length_cons, List.length_nil] at hlength
  omega

/-! ### The route and `approve` -/

/-- What the route ensures of the tree is what `approve` ensures for the decoded segment. -/
theorem ensures_approveRoute {r : ProcessRuntime} {id : String} {segment : JsText}
    {I : WorkspaceTree → Prop} (hI : I t) :
    (r.approveRoute id segment).Ensures I (fun _ => I) (fun _ => I) t ↔
      (r.running id = true → ∀ b, r.realBloomInstances id = some b → ∀ txId,
        UriComponent.decode segment = some txId →
          (b.approve txId).Ensures I (fun _ => I) (fun _ => I) t) := by
  rw [ProcessRuntime.approveRoute]
  cases UriComponent.decode segment with
  | none => exact ⟨fun _ _ _ _ _ => nofun, fun _ => hI⟩
  | some txId =>
    simp only [ProcessRuntime.ceremonyApprove]
    by_cases hrunning : r.running id = false
    · rw [if_pos hrunning, hrunning]
      exact ⟨fun _ => nofun, fun _ => hI⟩
    · rw [if_neg hrunning]
      rw [Bool.not_eq_false] at hrunning
      cases r.realBloomInstances id with
      | none =>
        refine ⟨fun _ _ b => nofun, fun _ => ?_⟩
        split_ifs
        · exact hI
        · exact hI
        · exact hI
      | some b =>
        have hend : ∀ (approved : Bool) (s : WorkspaceTree),
            (if approved = true then pure () else
              Routine.throws (.data ⟨"Ceremony request not found", 404⟩) : PathRoutine Unit).Ensures I
                (fun _ => I) (fun _ => I) s = I s := by
          intro approved s
          cases approved <;> rfl
        simp only [Routine.ensures_bind, hend]
        constructor
        · rintro h - _ ⟨⟩ _ ⟨⟩
          exact h
        · exact fun h => h hrunning b rfl txId rfl

end RealBloom

end Bloom
