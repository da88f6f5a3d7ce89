import BloomWorkspaces.Library.Ascii
import BloomWorkspaces.Library.Table
import BloomWorkspaces.Library.Transition
import Mathlib.Algebra.Group.Int.Defs
import Mathlib.Algebra.GroupWithZero.Nat

/-!
# Signing in

`issueChallenge`, `verifyChallenge` and the other statements that change challenges and sessions.
A call of `verifyChallenge` is suspended once, while the signature is checked; everything else runs to
completion. The clock is an argument of each step and may show anything.
-/

namespace Bloom

/-- `getTime` of a date in milliseconds; an invalid date has none, and no comparison with it holds. -/
abbrev JsDate := Option ℤ

def JsDate.isAfter (date : JsDate) (time : ℤ) : Bool :=
  match date with
  | some t => time < t
  | none => false

def JsDate.isBefore (date : JsDate) (time : ℤ) : Bool :=
  match date with
  | some t => t < time
  | none => false

/-- The fields of a message that `parseSiweMessage` returns. -/
structure SiweMessage where
  address : Option String
  domain : Option String
  uri : Option String
  version : Option String
  nonce : Option String
  chainId : Option ℕ
  issuedAt : Option JsDate
  expirationTime : Option JsDate
  notBefore : Option JsDate

/-- The functions of `viem` and of the runtime library that signing in rests on. `none` is a throw. -/
structure AuthLibrary where
  parseSiweMessage : String → SiweMessage
  getAddress : String → Option String
  verifyMessage : (address message signature : String) → Option Bool
  tokenHash : String → String

/-- What signing in reads of `Config`; `host` and `origin` are those of `new URL(config.origin)`. -/
structure AuthConfig where
  host : String
  origin : String
  authChainId : ℕ
  challengeTtlMs : ℕ
  sessionTtlMs : ℕ
  devAuth : Bool
  publicMode : Bool

structure ChallengeRow where
  nonce : String
  domain : String
  uri : String
  chainId : ℕ
  ipHash : String
  issuedAt : ℕ
  expiresAt : ℕ
  consumedAt : Option ℕ
  deriving DecidableEq, Repr

structure SessionRow where
  tokenHash : String
  wallet : String
  csrfToken : String
  ipHash : String
  createdAt : ℕ
  expiresAt : ℕ
  deriving DecidableEq, Repr

inductive AuthFailure
  | auth (message : String)
  | library
  | constraint (table : String)
  deriving DecidableEq, Repr

/-- The local variables of a `verifyChallenge` that waits for its signature check. -/
structure Verification where
  nonce : String
  address : String
  message : String
  signature : String
  ipHash : String
  deriving DecidableEq, Repr

inductive VerifyCall
  | suspended (verification : Verification)
  | failed (failure : AuthFailure)
  | done (wallet csrfToken : String)
  deriving DecidableEq, Repr

/-- A session that `verifyChallenge` has created, with the call that it comes from. -/
structure Login where
  verification : Verification
  session : SessionRow
  deriving DecidableEq, Repr

/-- `issued` and `logins` are history. -/
structure AuthServer where
  challenges : List ChallengeRow
  sessions : List SessionRow
  calls : List VerifyCall
  issued : List String
  logins : List Login

/-- The length of a string in UTF-16 code units. -/
def jsLength (s : String) : ℕ := (s.toList.map fun c => if c.toNat < 65536 then 1 else 2).sum

/-- The schema `VerifyBody`. -/
def acceptsBody (message signature : String) : Bool :=
  1 ≤ jsLength message && jsLength message ≤ 4096 && jsLength signature ≤ 132 &&
    match signature.toList with
    | '0' :: 'x' :: digits => digits ≠ [] && digits.all Ascii.isHexDigit
    | _ => false

/-- A body that passes the schema; any other is refused before anything is read. -/
structure VerifyBody where
  message : String
  signature : String
  accepted : acceptsBody message signature = true

/-- A field that is missing or empty. -/
def isBlank (field : Option String) : Bool := field = none || field = some ""

/-- A time column that is null or zero. -/
def isUnset (time : Option ℕ) : Bool := time = none || time = some 0

namespace AuthServer

def initial : AuthServer := ⟨[], [], [], [], []⟩

variable (library : AuthLibrary) (config : AuthConfig)

/-- The challenges that `issueChallenge` keeps. -/
def keptChallenges (s : AuthServer) (now : ℕ) : List ChallengeRow :=
  Table.deleteWhere (fun row => row.expiresAt + 60000 < now || row.consumedAt.isSome) s.challenges

/-- `issueChallenge`; a nonce that is already in the table throws. -/
def issueChallenge (s : AuthServer) (now : ℕ) (nonce ipHash : String) : AuthServer :=
  if nonce ∈ (s.keptChallenges now).map (·.nonce) then
    { s with challenges := s.keptChallenges now }
  else { s with
    challenges := s.keptChallenges now ++ [{
      nonce := nonce
      domain := config.host
      uri := config.origin
      chainId := config.authChainId
      ipHash := ipHash
      issuedAt := now
      expiresAt := now + config.challengeTtlMs
      consumedAt := none }]
    issued := nonce :: s.issued }

/-- The challenge of a message, when the message and the client match it. -/
def readChallenge (s : AuthServer) (now : ℕ) (parsed : SiweMessage) (ipHash : String) :
    Except AuthFailure ChallengeRow :=
  if isBlank parsed.nonce || isBlank parsed.address || isBlank parsed.domain ||
      isBlank parsed.uri || isUnset parsed.chainId || parsed.version ≠ some "1" then
    .error (.auth "Malformed SIWE message")
  else
    match s.challenges.find? (fun row => parsed.nonce = some row.nonce) with
    | none => .error (.auth "Challenge expired or already used")
    | some challenge =>
      if !isUnset challenge.consumedAt || challenge.expiresAt < now then
        .error (.auth "Challenge expired or already used")
      else if challenge.ipHash ≠ ipHash then
        .error (.auth "Challenge was issued to a different client")
      else if parsed.domain ≠ some challenge.domain || parsed.uri ≠ some challenge.uri ||
          parsed.chainId ≠ some challenge.chainId then
        .error (.auth "SIWE audience mismatch")
      else .ok challenge

/-- The dates of a message against its challenge. -/
def checkDates (now : ℕ) (parsed : SiweMessage) (challenge : ChallengeRow) : Except AuthFailure Unit :=
  match parsed.issuedAt with
  | none => .error (.auth "SIWE issuance time mismatch")
  | some issuedAt =>
    if JsDate.isAfter (issuedAt.map fun t => ((t - (challenge.issuedAt : ℤ)).natAbs : ℤ)) 30000 then
      .error (.auth "SIWE issuance time mismatch")
    else if parsed.expirationTime.any (·.isBefore now) then .error (.auth "SIWE message expired")
    else if parsed.expirationTime.any (·.isAfter (challenge.expiresAt + 30000)) then
      .error (.auth "SIWE expiry exceeds challenge lifetime")
    else if parsed.notBefore.any (·.isAfter (now + 30000)) then
      .error (.auth "SIWE message is not active yet")
    else .ok ()

/-- `verifyChallenge` up to its signature check. -/
def beginVerify (s : AuthServer) (now : ℕ) (body : VerifyBody) (ipHash : String) :
    Except AuthFailure Verification :=
  match s.readChallenge now (library.parseSiweMessage body.message) ipHash with
  | .error failure => .error failure
  | .ok challenge =>
    match checkDates now (library.parseSiweMessage body.message) challenge with
    | .error failure => .error failure
    | .ok () =>
      match (library.parseSiweMessage body.message).address.bind library.getAddress with
      | none => .error .library
      | some address => .ok ⟨challenge.nonce, address, body.message, body.signature, ipHash⟩

def setCall (s : AuthServer) (call : ℕ) (outcome : VerifyCall) : AuthServer :=
  { s with calls := s.calls.set call outcome }

/-- `createSession`. -/
def createSession (now : ℕ) (token csrfToken wallet ipHash : String) : SessionRow where
  tokenHash := library.tokenHash token
  wallet := wallet.toLower
  csrfToken := csrfToken
  ipHash := ipHash
  createdAt := now
  expiresAt := now + config.sessionTtlMs

def isOpen (nonce : String) (row : ChallengeRow) : Bool := row.nonce = nonce && row.consumedAt = none

/-- `UPDATE auth_challenges SET consumed_at = ? WHERE nonce = ? AND consumed_at IS NULL`. -/
def consume (s : AuthServer) (now : ℕ) (nonce : String) : AuthServer :=
  { s with
    challenges :=
      Table.updateWhere (isOpen nonce) (fun row => { row with consumedAt := some now }) s.challenges }

/-- Insert the session of a verification whose challenge has been consumed. -/
def openSession (s : AuthServer) (call : ℕ) (v : Verification) (session : SessionRow) : AuthServer :=
  if session.tokenHash ∈ s.sessions.map (·.tokenHash) then
    s.setCall call (.failed (.constraint "sessions"))
  else
    { s.setCall call (.done v.address session.csrfToken) with
      sessions := s.sessions ++ [session]
      logins := s.logins ++ [⟨v, session⟩] }

/-- `verifyChallenge` after its signature check. -/
def finishVerify (s : AuthServer) (now call : ℕ) (v : Verification) (token csrfToken : String) :
    AuthServer :=
  match library.verifyMessage v.address v.message v.signature with
  | none => s.setCall call (.failed .library)
  | some false => s.setCall call (.failed (.auth "Invalid wallet signature"))
  | some true =>
    if s.challenges.countP (isOpen v.nonce) ≠ 1 then
      (s.consume now v.nonce).setCall call (.failed (.auth "Challenge was already used"))
    else
      (s.consume now v.nonce).openSession call v
        (createSession library config now token csrfToken v.address v.ipHash)

/-- The requests and timers that change the two tables. -/
inductive Event
  | issue (now : ℕ) (nonce ipHash : String)
  | verify (now : ℕ) (body : VerifyBody) (ipHash : String)
  | signatureChecked (now call : ℕ) (token csrfToken : String)
  | developmentLogin (now : ℕ) (ipHash token csrfToken : String)
  | logout (token : String)
  | maintenance (now : ℕ)

def step (s : AuthServer) : Event → Option AuthServer
  | .issue now nonce ipHash => some (s.issueChallenge config now nonce ipHash)
  | .verify now body ipHash =>
    match s.beginVerify library now body ipHash with
    | .ok verification => some { s with calls := s.calls ++ [.suspended verification] }
    | .error failure => some { s with calls := s.calls ++ [.failed failure] }
  | .signatureChecked now call token csrfToken =>
    match s.calls[call]? with
    | some (.suspended v) => some (s.finishVerify library config now call v token csrfToken)
    | _ => none
  | .developmentLogin now ipHash token csrfToken =>
    let session := createSession library config now token csrfToken
      "0x000000000000000000000000000000000000dEaD" ipHash
    if !config.devAuth || config.publicMode then some s
    else if session.tokenHash ∈ s.sessions.map (·.tokenHash) then some s
    else some { s with sessions := s.sessions ++ [session] }
  | .logout token =>
    some { s with
      sessions := Table.deleteWhere (fun row => row.tokenHash = library.tokenHash token) s.sessions }
  | .maintenance now =>
    some { s with
      challenges := Table.deleteWhere (fun row => row.expiresAt < now) s.challenges
      sessions := Table.deleteWhere (fun row => row.expiresAt < now) s.sessions }

/-- No nonce is issued twice. -/
def freshNonce (s : AuthServer) : Event → Bool
  | .issue _ nonce _ => nonce ∉ s.issued
  | _ => true

/-- The message contains the nonce, and its signature was verified for the address in it. -/
def SignedBy (v : Verification) : Prop :=
  (library.parseSiweMessage v.message).nonce = some v.nonce ∧
    (library.parseSiweMessage v.message).address.bind library.getAddress = some v.address ∧
    library.verifyMessage v.address v.message v.signature = some true

/-- The step adds `login` and turns the open challenge of its nonce into a consumed one. -/
structure Consumes (s s' : AuthServer) (login : Login) : Prop where
  logins_eq : s'.logins = s.logins ++ [login]
  session_mem : login.session ∈ s'.sessions
  was_open : ∃ row ∈ s.challenges, isOpen login.verification.nonce row = true
  closed : ∀ row ∈ s'.challenges, isOpen login.verification.nonce row = false

/-- Challenges are used once, by the holder of the address that the session names. -/
structure SingleUse (s : AuthServer) : Prop where
  once : ∀ nonce, s.logins.countP (fun login => login.verification.nonce = nonce) ≤ 1
  issued : ∀ login ∈ s.logins, login.verification.nonce ∈ s.issued
  signed : ∀ login ∈ s.logins, SignedBy library login.verification ∧
    login.session.wallet = login.verification.address.toLower
  consumes : ∀ e s', s.step library config e = some s' →
    s'.logins = s.logins ∨ ∃ login, Consumes s s' login

section Steps

variable {library config} {s s' : AuthServer} {v : Verification}

/-! ### What a verification knows -/

/-- The nonce and the address of a suspended call are those of its message. -/
def Parsed (library : AuthLibrary) (v : Verification) : Prop :=
  (library.parseSiweMessage v.message).nonce = some v.nonce ∧
    (library.parseSiweMessage v.message).address.bind library.getAddress = some v.address

lemma readChallenge_ok {now : ℕ} {parsed : SiweMessage} {ipHash : String} {challenge : ChallengeRow}
    (h : s.readChallenge now parsed ipHash = .ok challenge) :
    challenge ∈ s.challenges ∧ parsed.nonce = some challenge.nonce := by
  unfold readChallenge at h
  split_ifs at h
  split at h
  · cases h
  · rename_i row hfind
    split_ifs at h
    cases h
    exact ⟨List.mem_of_find?_eq_some hfind, by simpa using List.find?_some hfind⟩

lemma beginVerify_ok {now : ℕ} {body : VerifyBody} {ipHash : String}
    (h : s.beginVerify library now body ipHash = .ok v) : Parsed library v := by
  unfold beginVerify at h
  split at h
  · cases h
  · rename_i challenge hchallenge
    split at h
    · cases h
    · split at h
      · cases h
      · rename_i address haddress
        cases h
        exact ⟨(readChallenge_ok hchallenge).2, haddress⟩

/-! ### The invariant -/

/-- The challenge of a login is consumed for good, and what waits for its signature was parsed from
its message. -/
structure Sound (library : AuthLibrary) (s : AuthServer) : Prop where
  issued : ∀ row ∈ s.challenges, row.nonce ∈ s.issued
  logins_nodup : (s.logins.map (·.verification.nonce)).Nodup
  logins_issued : ∀ login ∈ s.logins, login.verification.nonce ∈ s.issued
  closed : ∀ login ∈ s.logins, ∀ row ∈ s.challenges, isOpen login.verification.nonce row = false
  parsed : ∀ v, .suspended v ∈ s.calls → Parsed library v
  signed : ∀ login ∈ s.logins, SignedBy library login.verification ∧
    login.session.wallet = login.verification.address.toLower

lemma sound_initial : Sound library initial := by
  refine ⟨?_, List.nodup_nil, ?_, ?_, ?_, ?_⟩ <;> intro x hx <;> cases hx

/-- Challenges that are dropped or consumed, and calls that end or have been parsed. -/
lemma Sound.frame (h : Sound library s) (hissued : s'.issued = s.issued)
    (hlogins : s'.logins = s.logins)
    (hrows : ∀ row' ∈ s'.challenges, ∃ row ∈ s.challenges, row'.nonce = row.nonce ∧
      (row'.consumedAt = none → row.consumedAt = none))
    (hcalls : ∀ v, .suspended v ∈ s'.calls → .suspended v ∈ s.calls ∨ Parsed library v) :
    Sound library s' := by
  refine ⟨?_, hlogins ▸ h.logins_nodup, ?_, ?_, ?_, hlogins ▸ h.signed⟩
  · intro row' hrow'
    obtain ⟨row, hrow, hnonce, -⟩ := hrows row' hrow'
    rw [hissued, hnonce]
    exact h.issued row hrow
  · rw [hlogins, hissued]
    exact h.logins_issued
  · rw [hlogins]
    intro login hlogin row' hrow'
    obtain ⟨row, hrow, hnonce, hopen⟩ := hrows row' hrow'
    have hclosed := h.closed login hlogin row hrow
    by_contra hstill
    simp only [isOpen, Bool.not_eq_false, Bool.and_eq_true, decide_eq_true_eq] at hstill
    simp [isOpen, ← hnonce, hstill.1, hopen hstill.2] at hclosed
  · intro v hv
    cases hcalls v hv with
    | inl hold => exact h.parsed v hold
    | inr hnew => exact hnew

lemma mem_deleteWhere_keeps {p : ChallengeRow → Bool} {rows : List ChallengeRow} {row' : ChallengeRow}
    (h : row' ∈ Table.deleteWhere p rows) : ∃ row ∈ rows, row'.nonce = row.nonce ∧
      (row'.consumedAt = none → row.consumedAt = none) :=
  ⟨row', (Table.mem_deleteWhere.mp h).1, rfl, fun hnone => hnone⟩

lemma Sound.issueChallenge {now : ℕ} {nonce ipHash : String} (h : Sound library s)
    (hfresh : nonce ∉ s.issued) : Sound library (s.issueChallenge config now nonce ipHash) := by
  unfold AuthServer.issueChallenge
  split_ifs with hmem
  · exact h.frame rfl rfl (fun row' hrow' => mem_deleteWhere_keeps hrow') fun v hv => Or.inl hv
  · refine ⟨?_, h.logins_nodup, ?_, ?_, h.parsed, h.signed⟩
    · intro row hrow
      rcases List.mem_append.mp hrow with hold | hnew
      · exact List.mem_cons_of_mem _ (h.issued row (Table.mem_deleteWhere.mp hold).1)
      · rw [List.mem_singleton.mp hnew]
        exact List.mem_cons_self
    · intro login hlogin
      exact List.mem_cons_of_mem _ (h.logins_issued login hlogin)
    · intro login hlogin row hrow
      rcases List.mem_append.mp hrow with hold | hnew
      · exact h.closed login hlogin row (Table.mem_deleteWhere.mp hold).1
      · rw [List.mem_singleton.mp hnew]
        have hne : nonce ≠ login.verification.nonce := by
          rintro rfl
          exact hfresh (h.logins_issued login hlogin)
        simp [isOpen, hne]

lemma consume_keeps {now : ℕ} {nonce : String} {row' : ChallengeRow}
    (h : row' ∈ (s.consume now nonce).challenges) : ∃ row ∈ s.challenges, row'.nonce = row.nonce ∧
      (row'.consumedAt = none → row.consumedAt = none) := by
  obtain ⟨row, hrow, rfl⟩ := Table.mem_updateWhere.mp h
  refine ⟨row, hrow, ?_⟩
  split_ifs
  · exact ⟨rfl, fun hnone => by cases hnone⟩
  · exact ⟨rfl, fun hnone => hnone⟩

lemma consume_closes {now : ℕ} {nonce : String} :
    ∀ row' ∈ (s.consume now nonce).challenges, isOpen nonce row' = false := by
  intro row' hrow'
  obtain ⟨row, hrow, rfl⟩ := Table.mem_updateWhere.mp hrow'
  split_ifs with hopen
  · simp [isOpen]
  · simpa using hopen

lemma mem_setCall {call : ℕ} {outcome : VerifyCall}
    (hended : ∀ v, outcome ≠ .suspended v) (h : .suspended v ∈ (s.setCall call outcome).calls) :
    .suspended v ∈ s.calls := by
  rcases List.mem_or_eq_of_mem_set h with hold | hnew
  · exact hold
  · exact absurd hnew.symm (hended v)

lemma Sound.setCall {call : ℕ} {outcome : VerifyCall} (h : Sound library s)
    (hended : ∀ v, outcome ≠ .suspended v) : Sound library (s.setCall call outcome) :=
  h.frame rfl rfl (fun row hrow => ⟨row, hrow, rfl, fun hnone => hnone⟩)
    fun _ hv => Or.inl (mem_setCall hended hv)

lemma Sound.consume {now : ℕ} {nonce : String} (h : Sound library s) :
    Sound library (s.consume now nonce) :=
  h.frame rfl rfl (fun _ hrow' => consume_keeps hrow') fun _ hv => Or.inl hv

/-- A login whose nonce was still open a moment ago. -/
lemma Sound.openSession {call : ℕ} {session : SessionRow} (h : Sound library s)
    (hclosed : ∀ row ∈ s.challenges, isOpen v.nonce row = false) (hissued : v.nonce ∈ s.issued)
    (hnew : v.nonce ∉ s.logins.map (·.verification.nonce)) (hsigned : SignedBy library v)
    (hwallet : session.wallet = v.address.toLower) :
    Sound library (s.openSession call v session) := by
  have hcall (outcome : VerifyCall) (hended : ∀ v, outcome ≠ .suspended v) :
      Sound library (s.setCall call outcome) := h.setCall hended
  unfold AuthServer.openSession
  split_ifs with hsession
  · exact hcall _ fun _ hv => by cases hv
  · have hdone := hcall (.done v.address session.csrfToken) fun _ hv => by cases hv
    refine ⟨hdone.issued, ?_, ?_, ?_, hdone.parsed, ?_⟩
    · rw [List.map_append, List.map_singleton]
      exact List.Nodup.append hdone.logins_nodup (List.nodup_singleton _)
        (List.disjoint_singleton.mpr hnew)
    · intro login hlogin
      rcases List.mem_append.mp hlogin with hold | hlast
      · exact hdone.logins_issued login hold
      · rw [List.mem_singleton.mp hlast]
        exact hissued
    · intro login hlogin row hrow
      rcases List.mem_append.mp hlogin with hold | hlast
      · exact hdone.closed login hold row hrow
      · rw [List.mem_singleton.mp hlast]
        exact hclosed row hrow
    · intro login hlogin
      rcases List.mem_append.mp hlogin with hold | hlast
      · exact hdone.signed login hold
      · rw [List.mem_singleton.mp hlast]
        exact ⟨hsigned, hwallet⟩

/-- While a challenge is open, no login has used its nonce. -/
lemma Sound.nonce_not_used (h : Sound library s) {row : ChallengeRow} {nonce : String}
    (hrow : row ∈ s.challenges) (hopen : isOpen nonce row = true) :
    nonce ∈ s.issued ∧ nonce ∉ s.logins.map (·.verification.nonce) := by
  constructor
  · have hnonce : row.nonce = nonce := by
      simp only [isOpen, Bool.and_eq_true, decide_eq_true_eq] at hopen
      exact hopen.1
    exact hnonce ▸ h.issued row hrow
  · intro hmem
    obtain ⟨login, hlogin, rfl⟩ := List.mem_map.mp hmem
    have hclosed := h.closed login hlogin row hrow
    rw [hopen] at hclosed
    cases hclosed

lemma Sound.finishVerify {now call : ℕ} {token csrfToken : String} (h : Sound library s)
    (hparsed : Parsed library v) :
    Sound library (s.finishVerify library config now call v token csrfToken) := by
  unfold AuthServer.finishVerify
  split
  · exact h.setCall fun _ hv => by cases hv
  · exact h.setCall fun _ hv => by cases hv
  · rename_i hvalid
    split_ifs with hcount
    · exact h.consume.setCall fun _ hv => by cases hv
    · have hpos : 0 < s.challenges.countP (isOpen v.nonce) := by omega
      obtain ⟨row, hrow, hopen⟩ := List.countP_pos_iff.mp hpos
      obtain ⟨hissued, hnew⟩ := h.nonce_not_used hrow hopen
      exact h.consume.openSession consume_closes hissued hnew ⟨hparsed.1, hparsed.2, hvalid⟩ rfl

/-- A request or timer that changes no challenge and no call. -/
lemma Sound.sessions (h : Sound library s) (sessions : List SessionRow) :
    Sound library { s with sessions := sessions } :=
  h.frame rfl rfl (fun row hrow => ⟨row, hrow, rfl, fun hnone => hnone⟩) fun _ hv => Or.inl hv

theorem Sound.step {e : Event} (h : Sound library s) (hfresh : s.freshNonce e = true)
    (hs : s.step library config e = some s') : Sound library s' := by
  cases e with
  | issue now nonce ipHash =>
    cases hs
    exact h.issueChallenge (by simpa [freshNonce] using hfresh)
  | verify now body ipHash =>
    simp only [AuthServer.step] at hs
    split at hs
    · rename_i v hbegin
      cases hs
      refine h.frame rfl rfl (fun row hrow => ⟨row, hrow, rfl, fun hnone => hnone⟩) fun w hw => ?_
      rcases List.mem_append.mp hw with hold | hlast
      · exact Or.inl hold
      · cases List.mem_singleton.mp hlast
        exact Or.inr (beginVerify_ok hbegin)
    · cases hs
      refine h.frame rfl rfl (fun row hrow => ⟨row, hrow, rfl, fun hnone => hnone⟩) fun w hw => ?_
      rcases List.mem_append.mp hw with hold | hlast
      · exact Or.inl hold
      · cases List.mem_singleton.mp hlast
  | signatureChecked now call token csrfToken =>
    simp only [AuthServer.step] at hs
    split at hs
    · rename_i v hcall
      cases hs
      exact h.finishVerify (h.parsed v (List.mem_of_getElem? hcall))
    · cases hs
  | developmentLogin now ipHash token csrfToken =>
    simp only [AuthServer.step] at hs
    split_ifs at hs
    · cases hs
      exact h
    · cases hs
      exact h
    · cases hs
      exact h.sessions _
  | logout token =>
    cases hs
    exact h.sessions _
  | maintenance now =>
    cases hs
    exact h.frame rfl rfl (fun row' hrow' => mem_deleteWhere_keeps hrow') fun _ hv => Or.inl hv

/-! ### Single use -/

/-- Only a signature check adds logins, and it consumes the challenge of the one it adds. -/
lemma step_logins {e : Event} (hs : s.step library config e = some s') :
    s'.logins = s.logins ∨ ∃ login, Consumes s s' login := by
  cases e with
  | issue now nonce ipHash =>
    cases hs
    left
    unfold AuthServer.issueChallenge
    split_ifs <;> rfl
  | verify now body ipHash =>
    simp only [AuthServer.step] at hs
    split at hs <;> cases hs <;> exact Or.inl rfl
  | signatureChecked now call token csrfToken =>
    simp only [AuthServer.step] at hs
    split at hs
    · rename_i v hcall
      cases hs
      unfold AuthServer.finishVerify
      split
      · exact Or.inl rfl
      · exact Or.inl rfl
      · split_ifs with hcount
        · exact Or.inl rfl
        · have hpos : 0 < s.challenges.countP (isOpen v.nonce) := by omega
          unfold AuthServer.openSession
          split_ifs with hsession
          · exact Or.inl rfl
          · exact Or.inr ⟨_, rfl, List.mem_append_right _ (List.mem_singleton_self _),
              List.countP_pos_iff.mp hpos, consume_closes⟩
    · cases hs
  | developmentLogin now ipHash token csrfToken =>
    simp only [AuthServer.step] at hs
    split_ifs at hs <;> cases hs <;> exact Or.inl rfl
  | logout token =>
    cases hs
    exact Or.inl rfl
  | maintenance now =>
    cases hs
    exact Or.inl rfl

/-- Whatever overlaps, a nonce that is never issued twice leads to at most one session, for the
address that signed it, and its challenge was open when it was consumed. -/
theorem singleUse (h : Transition.Leads (step library config) (fun s e => s.freshNonce e = true)
    initial s) : SingleUse library config s := by
  have hsound : Sound library s := Transition.Leads.invariant (Sound library) h sound_initial
    fun _ _ _ hinv hfresh hs => hinv.step hfresh hs
  refine ⟨fun nonce => ?_, hsound.logins_issued, hsound.signed, fun e s' hs => step_logins hs⟩
  exact Table.countP_key_le_one hsound.logins_nodup nonce fun login _ hnonce => by simpa using hnonce

end Steps

/-! ### Two verifications of one challenge -/

def sampleAddress : String := "0x7E5F4552091A69125d5DfCb7b8C2659029395Bdf"

/-- A message for a challenge issued one second after the epoch, and its signature by the holder of
the address. -/
def sampleBody : VerifyBody where
  message := "127.0.0.1:8787 wants you to sign in " ++ "with your Ethereum account:\n" ++
    "0x7E5F4552091A69125d5DfCb7b8C2659029395Bdf" ++ "\n\nURI: http://127.0.0.1:8787" ++
    "\nVersion: 1\nChain ID: 1\n" ++ "Nonce: 0123456789abcdef\n" ++
    "Issued At: 1970-01-01T00:00:01.000Z"
  signature := "0x4e097a7b18732c750d5d72526e747c32" ++ "e31f3e0e0ca5e15c8063f470655fa1b4" ++
    "395e86547fe8fdc745642dd0b4f8d782" ++ "8d05f673559e70ef95a9247cb292f3031b"
  accepted := by
    simp only [acceptsBody, jsLength, String.toList_append]
    decide +kernel

/-- The library functions on the sample message and the session token `token`. -/
def sampleLibrary : AuthLibrary where
  parseSiweMessage message :=
    if message = sampleBody.message then
      { address := some sampleAddress
        domain := some "127.0.0.1:8787"
        uri := some "http://127.0.0.1:8787"
        version := some "1"
        nonce := some "0123456789abcdef"
        chainId := some 1
        issuedAt := some (some 1000)
        expirationTime := none
        notBefore := none }
    else ⟨none, none, none, none, none, none, none, none, none⟩
  getAddress address := if address = sampleAddress then some address else none
  verifyMessage address message signature :=
    some (address = sampleAddress && message = sampleBody.message &&
      signature = sampleBody.signature)
  tokenHash token :=
    if token = "token" then "72fba116fd42a5f2c05a96d7f19fb0f3a53fe3b2c044530ca660e108d4771f74"
    else token

/-- `loadConfig` on an empty environment. -/
def sampleConfig : AuthConfig where
  host := "127.0.0.1:8787"
  origin := "http://127.0.0.1:8787"
  authChainId := 1
  challengeTtlMs := 300000
  sessionTtlMs := 43200000
  devAuth := false
  publicMode := false

/-- Of two overlapping verifications the second finds the challenge consumed. -/
theorem singleUse_overlapping : ∃ s, s.logins.length = 1 ∧
    s.calls[1]? = some (.failed (.auth "Challenge was already used")) ∧
    SingleUse sampleLibrary sampleConfig s := by
  have hrun : (Transition.exec
      (Transition.guard (step sampleLibrary sampleConfig) freshNonce) initial
      [.issue 1000 "0123456789abcdef" "ip", .verify 2000 sampleBody "ip",
        .verify 2001 sampleBody "ip", .signatureChecked 2002 0 "token" "csrf",
        .maintenance 2003, .signatureChecked 2004 1 "token" "csrf"]).any
      (fun s => s.logins.length = 1 ∧
        s.calls[1]? = some (.failed (.auth "Challenge was already used"))) = true := by
    decide +kernel
  obtain ⟨s, hs, hlast⟩ := (Option.any_eq_true _ _).mp hrun
  obtain ⟨hlogins, hcall⟩ := of_decide_eq_true hlast
  exact ⟨s, hlogins, hcall, singleUse (Transition.leads_of_exec_guard hs)⟩

end AuthServer

end Bloom
