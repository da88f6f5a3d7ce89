import BloomWorkspaces.Control.Auth
import BloomWorkspaces.Library.SlidingWindow

/-!
# The rate of challenges

`GET /api/auth/challenge` counts the rows of `auth_challenges` that were issued in the last minute before
it issues another challenge. A request is handled without interruption, up to the signature check of
`verifyChallenge`. The history keeps what was issued, whatever becomes of the rows.
-/

namespace Bloom

open SlidingWindow

/-- A challenge that was sent to a client. -/
structure Grant where
  ipHash : String
  issuedAt : ℕ
  deriving DecidableEq, Repr

inductive ChallengeReply
  | refused (status : ℕ) (message : String)
  | constraint
  | issued (grant : Grant)
  deriving DecidableEq, Repr

def ChallengeReply.grants : ChallengeReply → List Grant
  | .issued grant => [grant]
  | .refused _ _ | .constraint => []

namespace AuthServer

/-- `SELECT COUNT(*) … WHERE issued_at > ?`, one minute before `now`, among the rows of some clients. -/
def countRecent (s : AuthServer) (client : String → Bool) (now : ℕ) : ℕ :=
  s.challenges.countP fun row => client row.ipHash && recent 60000 now row.issuedAt

/-- The handler of `GET /api/auth/challenge`, with the readings of the clock in their order. -/
def getChallenge (config : AuthConfig) (s : AuthServer) (countedAt countedGloballyAt now : ℕ)
    (nonce ipHash : String) : ChallengeReply × AuthServer :=
  if 10 ≤ s.countRecent (· = ipHash) countedAt then
    (.refused 429 "Too many authentication attempts", s)
  else if 1000 ≤ s.countRecent (fun _ => true) countedGloballyAt then
    (.refused 503 "Authentication is temporarily at capacity", s)
  else if nonce ∈ (s.keptChallenges now).map (·.nonce) then
    (.constraint, s.issueChallenge config now nonce ipHash)
  else (.issued ⟨ipHash, now⟩, s.issueChallenge config now nonce ipHash)

def Event.isIssue : Event → Bool
  | .issue _ _ _ => true
  | _ => false

/-- The readings of the clock. -/
def Event.times : Event → List ℕ
  | .issue now _ _ | .verify now _ _ | .signatureChecked now _ _ _ | .developmentLogin now _ _ _ |
    .maintenance now => [now]
  | .logout _ => []

end AuthServer

/-- The tables, the last reading of the clock and the challenges issued so far. -/
structure ChallengeLog where
  server : AuthServer
  clock : ℕ
  granted : List Grant

namespace ChallengeLog

def initial : ChallengeLog := ⟨.initial, 0, []⟩

/-- The requests and timers; challenges are issued by their handler only. -/
inductive Request
  | challenge (countedAt countedGloballyAt now : ℕ) (nonce ipHash : String)
  | other (event : AuthServer.Event)

def Request.times : Request → List ℕ
  | .challenge countedAt countedGloballyAt now _ _ => [countedAt, countedGloballyAt, now]
  | .other event => event.times

variable (library : AuthLibrary) (config : AuthConfig)

def step (s : ChallengeLog) (request : Request) : Option ChallengeLog :=
  let clock := request.times.getLastD s.clock
  match request with
  | .challenge countedAt countedGloballyAt now nonce ipHash =>
    let (reply, server) := s.server.getChallenge config countedAt countedGloballyAt now nonce ipHash
    some ⟨server, clock, s.granted ++ reply.grants⟩
  | .other event =>
    if event.isIssue then none
    else (s.server.step library config event).map fun server => ⟨server, clock, s.granted⟩

/-- The clock does not go back. -/
def inOrder (s : ChallengeLog) (request : Request) : Bool :=
  (s.clock :: request.times).Pairwise (· ≤ ·)

/-- When a challenge is about to be issued, the rows of the last minute are all unconsumed. -/
def keepsRecent (s : ChallengeLog) : Request → Bool
  | .challenge countedAt countedGloballyAt now _ ipHash =>
    10 ≤ s.server.countRecent (· = ipHash) countedAt ||
      1000 ≤ s.server.countRecent (fun _ => true) countedGloballyAt ||
      s.server.challenges.all fun row => row.consumedAt.isNone || !recent 60000 now row.issuedAt
  | .other _ => true

/-- In every minute at most 10 challenges go to one client and at most 1000 to all of them. -/
structure WithinLimits (granted : List Grant) : Prop where
  client : ∀ ipHash, Bounded Grant.issuedAt 60000 10 (fun g => g.ipHash = ipHash) granted
  all : Bounded Grant.issuedAt 60000 1000 (fun _ => true) granted

section Steps

variable {library config} {s s' : ChallengeLog} {server server' : AuthServer}

/-! ### The rows of the table -/

/-- What a step does to the challenges when it issues none. -/
lemma challenges_step {event : AuthServer.Event} (hissue : event.isIssue = false)
    (h : server.step library config event = some server') :
    server'.challenges = server.challenges ∨
      (∃ now nonce, server'.challenges = (server.consume now nonce).challenges) ∨
      ∃ now, event = .maintenance now ∧ server'.challenges =
        Table.deleteWhere (fun row => row.expiresAt < now) server.challenges := by
  cases event with
  | issue now nonce ipHash => cases hissue
  | verify now body ipHash =>
    simp only [AuthServer.step] at h
    split at h <;> cases h <;> exact Or.inl rfl
  | signatureChecked now call token csrfToken =>
    simp only [AuthServer.step] at h
    split at h
    · rename_i v _
      cases h
      unfold AuthServer.finishVerify
      split
      · exact Or.inl rfl
      · exact Or.inl rfl
      · refine Or.inr (Or.inl ⟨now, v.nonce, ?_⟩)
        split_ifs
        · rfl
        · unfold AuthServer.openSession
          split_ifs <;> rfl
    · cases h
  | developmentLogin now ipHash token csrfToken =>
    simp only [AuthServer.step] at h
    split_ifs at h <;> cases h <;> exact Or.inl rfl
  | logout token =>
    cases h
    exact Or.inl rfl
  | maintenance now =>
    cases h
    exact Or.inr (Or.inr ⟨now, rfl, rfl⟩)

/-- Consuming a challenge changes neither its client nor its dates. -/
lemma countP_consume (now : ℕ) (nonce : String) {q : ChallengeRow → Bool}
    (hq : ∀ row : ChallengeRow, q { row with consumedAt := some now } = q row) :
    (server.consume now nonce).challenges.countP q = server.challenges.countP q := by
  rw [AuthServer.consume, Table.updateWhere, List.countP_map]
  refine List.countP_congr fun row _ => ?_
  rw [Function.comp_apply]
  split_ifs
  · rw [hq]
  · rfl

/-- Deleting rows that are not counted. -/
lemma countP_deleteWhere_eq {deleted q : ChallengeRow → Bool} {rows : List ChallengeRow}
    (h : ∀ row ∈ rows, deleted row = true → q row = false) :
    (Table.deleteWhere deleted rows).countP q = rows.countP q := by
  rw [Table.deleteWhere, List.countP_filter]
  refine List.countP_congr fun row hrow => ?_
  cases hdeleted : deleted row with
  | false => simp
  | true => simp [h row hrow hdeleted]

/-! ### The invariant -/

/-- Every challenge that was issued in the last minute is still in the table. -/
structure Tracked (s : ChallengeLog) : Prop where
  recorded : ∀ (client : String → Bool) (now : ℕ), s.clock ≤ now →
    s.granted.countP (fun g => client g.ipHash && recent 60000 now g.issuedAt) ≤
      s.server.countRecent client now
  expiry : ∀ row ∈ s.server.challenges, row.expiresAt = row.issuedAt + 300000
  limits : WithinLimits s.granted

lemma tracked_initial : Tracked initial where
  recorded := fun _ _ _ => Nat.zero_le _
  expiry := fun _ hrow => absurd hrow List.not_mem_nil
  limits := ⟨fun _ => bounded_nil _, bounded_nil _⟩

/-- Nothing is issued, and what leaves the table is older than a minute. -/
lemma Tracked.frame (h : Tracked s) {server : AuthServer} {clock : ℕ} (hclock : s.clock ≤ clock)
    (hcount : ∀ client now, clock ≤ now →
      server.countRecent client now = s.server.countRecent client now)
    (hexpiry : ∀ row ∈ server.challenges, row.expiresAt = row.issuedAt + 300000) :
    Tracked ⟨server, clock, s.granted⟩ where
  recorded := by
    intro client now hnow
    rw [hcount client now hnow]
    exact h.recorded client now (Nat.le_trans hclock hnow)
  expiry := hexpiry
  limits := h.limits

lemma countRecent_keptChallenges {now : ℕ} (hexpiry : ∀ row ∈ server.challenges,
      row.expiresAt = row.issuedAt + 300000)
    (hkeeps : ∀ row ∈ server.challenges, row.consumedAt.isSome = true →
      recent 60000 now row.issuedAt = false) (client : String → Bool) {later : ℕ} (hle : now ≤ later) :
    (server.keptChallenges now).countP
        (fun row => client row.ipHash && recent 60000 later row.issuedAt) =
      server.countRecent client later := by
  refine countP_deleteWhere_eq fun row hrow hdeleted => ?_
  have hold : recent 60000 later row.issuedAt = false := by
    have hrowExpiry := hexpiry row hrow
    simp only [Bool.or_eq_true, decide_eq_true_eq] at hdeleted
    rcases hdeleted with hexpired | hconsumed
    · simp only [recent, decide_eq_false_iff_not]
      omega
    · have hnow := hkeeps row hrow hconsumed
      simp only [recent, decide_eq_false_iff_not] at hnow ⊢
      omega
  rw [hold, Bool.and_false]

/-- A request is refused, or the table has room for another challenge. -/
lemma getChallenge_cases (server : AuthServer) (config : AuthConfig)
    (countedAt countedGloballyAt now : ℕ) (nonce ipHash : String) :
    (∃ status message, server.getChallenge config countedAt countedGloballyAt now nonce ipHash =
      (.refused status message, server)) ∨
    (server.countRecent (· = ipHash) countedAt < 10 ∧
      server.countRecent (fun _ => true) countedGloballyAt < 1000 ∧
      server.getChallenge config countedAt countedGloballyAt now nonce ipHash =
        (if nonce ∈ (server.keptChallenges now).map (·.nonce) then .constraint
          else .issued ⟨ipHash, now⟩, server.issueChallenge config now nonce ipHash)) := by
  unfold AuthServer.getChallenge
  by_cases hclient : 10 ≤ server.countRecent (· = ipHash) countedAt
  · rw [if_pos hclient]
    exact Or.inl ⟨_, _, rfl⟩
  · by_cases hall : 1000 ≤ server.countRecent (fun _ => true) countedGloballyAt
    · rw [if_neg hclient, if_pos hall]
      exact Or.inl ⟨_, _, rfl⟩
    · rw [if_neg hclient, if_neg hall]
      refine Or.inr ⟨by omega, by omega, ?_⟩
      split_ifs <;> rfl

lemma challenges_issueChallenge (server : AuthServer) (config : AuthConfig) (now : ℕ)
    (nonce ipHash : String) :
    (server.issueChallenge config now nonce ipHash).challenges =
      if nonce ∈ (server.keptChallenges now).map (·.nonce) then server.keptChallenges now
      else server.keptChallenges now ++ [⟨nonce, config.host, config.origin, config.authChainId,
        ipHash, now, now + config.challengeTtlMs, none⟩] := by
  unfold AuthServer.issueChallenge
  split_ifs <;> rfl

/-- Fewer than `limit` challenges of the last minute are known to a counter that read the clock before. -/
lemma Tracked.room (h : Tracked s) (client : String → Bool) {counted now limit : ℕ}
    (hclock : s.clock ≤ now) (hcounted : counted ≤ now)
    (hroom : s.server.countRecent client counted < limit) :
    s.granted.countP (fun g => client g.ipHash && recent 60000 now g.issuedAt) < limit := by
  calc s.granted.countP (fun g => client g.ipHash && recent 60000 now g.issuedAt)
      ≤ s.server.countRecent client now := h.recorded client now hclock
    _ ≤ s.server.countRecent client counted := by
        refine List.countP_mono_left fun row _ hrow => ?_
        simp only [Bool.and_eq_true] at hrow ⊢
        exact ⟨hrow.1, recent_mono hcounted hrow.2⟩
    _ < limit := hroom

/-- A challenge is issued while the table remembers every other one of the last minute. -/
lemma Tracked.challenge {countedAt countedGloballyAt now : ℕ} {nonce ipHash : String} (h : Tracked s)
    (httl : config.challengeTtlMs = 300000)
    (horder : s.inOrder (.challenge countedAt countedGloballyAt now nonce ipHash) = true)
    (hkeeps : s.keepsRecent (.challenge countedAt countedGloballyAt now nonce ipHash) = true)
    (hs : s.step library config (.challenge countedAt countedGloballyAt now nonce ipHash) = some s') :
    Tracked s' := by
  obtain ⟨hcounted, hglobally, hnow⟩ :
      s.clock ≤ now ∧ countedAt ≤ now ∧ countedGloballyAt ≤ now := by
    have hsorted := of_decide_eq_true horder
    simp only [Request.times, List.pairwise_cons, List.mem_cons, List.not_mem_nil, or_false,
      forall_eq_or_imp, forall_eq] at hsorted
    exact ⟨hsorted.1.2.2, hsorted.2.1.2, hsorted.2.2.1⟩
  simp only [step, Request.times, List.getLastD_cons, List.getLastD_nil] at hs
  have hcases := getChallenge_cases s.server config countedAt countedGloballyAt now nonce ipHash
  rcases hcases with ⟨status, message, heq⟩ | ⟨hclient, hall, heq⟩
  · rw [heq] at hs
    cases hs
    have hsame : Tracked ⟨s.server, now, s.granted⟩ := h.frame hcounted (fun _ _ _ => rfl) h.expiry
    simpa [ChallengeReply.grants] using hsame
  · have hrecent : ∀ row ∈ s.server.challenges, row.consumedAt.isSome = true →
        recent 60000 now row.issuedAt = false := by
      simp only [keepsRecent, Bool.or_eq_true, decide_eq_true_eq, List.all_eq_true] at hkeeps
      intro row hrow hconsumed
      rcases hkeeps with (hfull | hfull) | hunconsumed
      · omega
      · omega
      · rcases hunconsumed row hrow with hnone | hold
        · rw [Option.isNone_iff_eq_none] at hnone
          rw [hnone] at hconsumed
          cases hconsumed
        · simpa using hold
    have hcount := countRecent_keptChallenges h.expiry hrecent
    have hkept : ∀ row ∈ s.server.keptChallenges now, row.expiresAt = row.issuedAt + 300000 :=
      fun row hrow => h.expiry row (Table.mem_deleteWhere.mp hrow).1
    rw [heq] at hs
    cases hs
    by_cases hnonce : nonce ∈ (s.server.keptChallenges now).map (·.nonce)
    · have hrows := challenges_issueChallenge s.server config now nonce ipHash
      rw [if_pos hnonce] at hrows
      have hsame : Tracked ⟨s.server.issueChallenge config now nonce ipHash, now, s.granted⟩ := by
        refine h.frame hcounted (fun client later hlater => ?_) (hrows ▸ hkept)
        rw [AuthServer.countRecent, hrows]
        exact hcount client hlater
      simpa [ChallengeReply.grants, hnonce] using hsame
    · have hrows := challenges_issueChallenge s.server config now nonce ipHash
      rw [if_neg hnonce] at hrows
      simp only [if_neg hnonce, ChallengeReply.grants]
      refine ⟨?_, ?_, ?_, ?_⟩
      · intro client later hlater
        simp only [AuthServer.countRecent, hrows, List.countP_append, List.countP_singleton]
        rw [hcount client hlater]
        exact Nat.add_le_add_right
          (h.recorded client later (Nat.le_trans hcounted hlater)) _
      · simp only [hrows]
        intro row hrow
        rcases List.mem_append.mp hrow with hold | hnew
        · exact hkept row hold
        · rw [List.mem_singleton.mp hnew, httl]
      · intro ipHash'
        refine (h.limits.client ipHash').concat fun hsame => ?_
        obtain rfl : ipHash = ipHash' := by simpa using hsame
        exact h.room (· = ipHash) hcounted hglobally hclient
      · exact h.limits.all.concat fun _ =>
          h.room (fun _ => true) hcounted hnow hall

/-- Requests and timers that issue nothing. -/
lemma Tracked.other {event : AuthServer.Event} (h : Tracked s)
    (horder : s.inOrder (.other event) = true)
    (hs : s.step library config (.other event) = some s') : Tracked s' := by
  have hsorted := of_decide_eq_true horder
  have hclock : s.clock ≤ (Request.other event).times.getLastD s.clock := by
    rcases List.eq_nil_or_concat (Request.other event).times with hnil | ⟨front, last, hlast⟩
    · rw [hnil]
      exact Nat.le_refl _
    · rw [hlast, List.concat_eq_append, List.getLastD_concat]
      rw [hlast, List.concat_eq_append] at hsorted
      exact (List.pairwise_cons.mp hsorted).1 last (List.mem_append_right _ List.mem_cons_self)
  simp only [step] at hs
  split_ifs at hs with hissue
  obtain ⟨server, hserver, rfl⟩ := Option.map_eq_some_iff.mp hs
  rcases challenges_step (by simpa using hissue) hserver with
    hsame | ⟨now, nonce, hconsume⟩ | ⟨now, rfl, hdelete⟩
  · refine h.frame hclock (fun client later _ => ?_) (hsame ▸ h.expiry)
    rw [AuthServer.countRecent, hsame, AuthServer.countRecent]
  · refine h.frame hclock (fun client later _ => ?_) ?_
    · rw [AuthServer.countRecent, hconsume]
      exact countP_consume now nonce fun _ => rfl
    · rw [hconsume]
      intro row' hrow'
      obtain ⟨row, hrow, rfl⟩ := Table.mem_updateWhere.mp hrow'
      split_ifs
      · exact h.expiry row hrow
      · exact h.expiry row hrow
  · refine h.frame hclock (fun client later hlater => ?_) ?_
    · rw [AuthServer.countRecent, hdelete]
      refine countP_deleteWhere_eq fun row hrow hexpired => ?_
      have hexpiry := h.expiry row hrow
      have hexpired' := of_decide_eq_true hexpired
      have hlater' : now ≤ later := hlater
      simp only [recent, Bool.and_eq_false_iff, decide_eq_false_iff_not]
      omega
    · rw [hdelete]
      intro row hrow
      exact h.expiry row (Table.mem_deleteWhere.mp hrow).1

theorem Tracked.step {request : Request} (h : Tracked s) (httl : config.challengeTtlMs = 300000)
    (horder : s.inOrder request = true) (hkeeps : s.keepsRecent request = true)
    (hs : s.step library config request = some s') : Tracked s' := by
  cases request with
  | challenge countedAt countedGloballyAt now nonce ipHash =>
    exact h.challenge httl horder hkeeps hs
  | other event => exact h.other horder hs

/-- With the lifetime that `loadConfig` sets, the limits hold in every run that issues challenges only
while no challenge of the last minute has been consumed. -/
theorem withinLimits_of_keepsRecent (httl : config.challengeTtlMs = 300000)
    (h : Transition.Leads (step library config)
      (fun s request => (s.inOrder request && s.keepsRecent request) = true) initial s) :
    WithinLimits s.granted := by
  have htracked : Tracked s := h.invariant Tracked tracked_initial
    fun t request t' ht hallowed hs => by
      rw [Bool.and_eq_true] at hallowed
      exact ht.step httl hallowed.1 hallowed.2 hs
  exact htracked.limits

end Steps

/-! ### Signing in between two challenges -/

open AuthServer (sampleLibrary sampleConfig sampleBody)

/-- A challenge is issued at `now`, without delay. -/
def challengeAt (now : ℕ) (nonce : String) : Request := .challenge now now now nonce "ip"

/-- A client signs in with the sample message, whose challenge was issued at second 1. -/
def signIn : List Request :=
  [challengeAt 1000 "0123456789abcdef", .other (.verify 2000 sampleBody "ip"),
    .other (.signatureChecked 2002 0 "token" "csrf")]

/-- A minute later the client may ask again. -/
theorem withinLimits_a_minute_later :
    ∃ s : ChallengeLog, s.granted = [⟨"ip", 1000⟩, ⟨"ip", 61000⟩] ∧ s.server.logins.length = 1 ∧
      WithinLimits s.granted := by
  have hrun : (Transition.exec (Transition.guard (step sampleLibrary sampleConfig)
      fun s request => s.inOrder request && s.keepsRecent request) initial
      (signIn ++ [challengeAt 61000 "n1"])).any
      (fun s => s.granted = [⟨"ip", 1000⟩, ⟨"ip", 61000⟩] ∧ s.server.logins.length = 1) = true := by
    decide +kernel
  obtain ⟨s, hs, hlast⟩ := (Option.any_eq_true _ _).mp hrun
  obtain ⟨hgranted, hlogins⟩ := of_decide_eq_true hlast
  exact ⟨s, hgranted, hlogins, withinLimits_of_keepsRecent rfl (Transition.leads_of_exec_guard hs)⟩

/-- The next request deletes the consumed challenge, so that a client gets eleven within three seconds. -/
theorem not_withinLimits_signIn :
    ¬∀ (library : AuthLibrary) (config : AuthConfig) (s : ChallengeLog),
      config.challengeTtlMs = 300000 →
      Transition.Leads (step library config) (fun s request => s.inOrder request = true) initial s →
      WithinLimits s.granted := by
  intro h
  have hrun : (Transition.exec (Transition.guard (step sampleLibrary sampleConfig) inOrder) initial
      (signIn ++ ["n1", "n2", "n3", "n4", "n5", "n6", "n7", "n8", "n9", "n10"].map
        (challengeAt 3000))).any
      (fun s => 10 < s.granted.countP fun g => g.ipHash = "ip" && within 60000 1000 g.issuedAt) =
        true := by
    decide +kernel
  obtain ⟨s, hs, hmany⟩ := (Option.any_eq_true _ _).mp hrun
  have hlimits := h sampleLibrary sampleConfig s rfl (Transition.leads_of_exec_guard hs)
  have hclient := hlimits.client "ip" 1000
  have hexceeded : 10 < s.granted.countP fun g => (g.ipHash = "ip" : Bool) &&
      within 60000 1000 g.issuedAt := of_decide_eq_true hmany
  exact absurd hclient (Nat.not_le.mpr hexceeded)

end ChallengeLog

end Bloom
