import BloomWorkspaces.Control.Auth

/-!
# What an accepted message says

One call of `verifyChallenge`, on any table of challenges before the signature check and any after it.
No comparison with an invalid date holds, so the checks that refuse a date by a comparison let it pass.
-/

namespace Bloom

/-! ### Dates -/

lemma JsDate.isAfter_eq_false {date : JsDate} {time : ℤ} :
    date.isAfter time = false ↔ ∀ t, date = some t → t ≤ time := by
  cases date <;> simp [JsDate.isAfter]

lemma JsDate.isBefore_eq_false {date : JsDate} {time : ℤ} :
    date.isBefore time = false ↔ ∀ t, date = some t → time ≤ t := by
  cases date <;> simp [JsDate.isBefore]

lemma any_isAfter_eq_false {date : Option JsDate} {time : ℤ} :
    date.any (·.isAfter time) = false ↔ ∀ t, date = some (some t) → t ≤ time := by
  cases date <;> simp [JsDate.isAfter_eq_false]

lemma any_isBefore_eq_false {date : Option JsDate} {time : ℤ} :
    date.any (·.isBefore time) = false ↔ ∀ t, date = some (some t) → time ≤ t := by
  cases date <;> simp [JsDate.isBefore_eq_false]

/-- A field that is missing or holds a real instant. -/
def IsRealDate (date : Option JsDate) : Prop := ∀ d, date = some d → ∃ t, d = some t

/-- Every date that is written in the message is a real instant. -/
structure SiweMessage.DatesReal (message : SiweMessage) : Prop where
  issuedAt : IsRealDate message.issuedAt
  expirationTime : IsRealDate message.expirationTime
  notBefore : IsRealDate message.notBefore

namespace AuthServer

/-! ### A call of `verifyChallenge` -/

/-- What a call reads: `before` when it starts and `after` when its signature has been checked. -/
structure VerifyRun where
  before : AuthServer
  now : ℕ
  body : VerifyBody
  ipHash : String
  after : AuthServer
  resumedAt : ℕ
  call : ℕ
  token : String
  csrfToken : String

variable (library : AuthLibrary) (config : AuthConfig)

def VerifyRun.parsed (r : VerifyRun) : SiweMessage := library.parseSiweMessage r.body.message

/-- The call creates a session. -/
def VerifyRun.CreatesSession (r : VerifyRun) : Prop :=
  ∃ v login, r.before.beginVerify library r.now r.body r.ipHash = .ok v ∧
    (r.after.finishVerify library config r.resumedAt r.call v r.token r.csrfToken).logins =
      r.after.logins ++ [login]

/-- The signature of the message verifies for the address in it. -/
def VerifyRun.Signed (r : VerifyRun) : Prop :=
  ∃ address, (r.parsed library).address.bind library.getAddress = some address ∧
    library.verifyMessage address r.body.message r.body.signature = some true

/-- The message and its client are those of an open challenge that has not expired. -/
structure VerifyRun.Answers (r : VerifyRun) (challenge : ChallengeRow) : Prop where
  known : challenge ∈ r.before.challenges
  nonce : (r.parsed library).nonce = some challenge.nonce
  domain : (r.parsed library).domain = some challenge.domain
  uri : (r.parsed library).uri = some challenge.uri
  chainId : (r.parsed library).chainId = some challenge.chainId
  client : challenge.ipHash = r.ipHash
  unconsumed : isUnset challenge.consumedAt = true
  unexpired : r.now ≤ challenge.expiresAt
  still_open : ∃ row ∈ r.after.challenges, isOpen challenge.nonce row = true

/-- The dates of the message are real instants that fit those of the challenge. -/
structure VerifyRun.Timely (r : VerifyRun) (challenge : ChallengeRow) : Prop where
  issuedAt : ∃ t, (r.parsed library).issuedAt = some (some t) ∧
    ((t - (challenge.issuedAt : ℤ)).natAbs : ℤ) ≤ 30000
  expirationTime : ∀ d, (r.parsed library).expirationTime = some d →
    ∃ t, d = some t ∧ (r.now : ℤ) ≤ t ∧ t ≤ challenge.expiresAt + 30000
  notBefore : ∀ d, (r.parsed library).notBefore = some d → ∃ t, d = some t ∧ t ≤ r.now + 30000

/-- A session is only created for a message that answers a challenge in time and is signed. -/
def VerifyRun.Sound (r : VerifyRun) : Prop :=
  r.CreatesSession library config →
    ∃ challenge, r.Answers library challenge ∧ r.Timely library challenge ∧ r.Signed library

/-- The fields that a message must have. -/
structure Complete (parsed : SiweMessage) : Prop where
  nonce : isBlank parsed.nonce = false
  address : isBlank parsed.address = false
  domain : isBlank parsed.domain = false
  uri : isBlank parsed.uri = false
  chainId : isUnset parsed.chainId = false
  version : parsed.version = some "1"

/-- No check refuses the message, where an invalid date counts for none of them. -/
structure VerifyRun.Passes (r : VerifyRun) (challenge : ChallengeRow) : Prop where
  complete : Complete (r.parsed library)
  found : r.before.challenges.find? (fun row => (r.parsed library).nonce = some row.nonce) =
    some challenge
  unconsumed : isUnset challenge.consumedAt = true
  unexpired : r.now ≤ challenge.expiresAt
  client : challenge.ipHash = r.ipHash
  domain : (r.parsed library).domain = some challenge.domain
  uri : (r.parsed library).uri = some challenge.uri
  chainId : (r.parsed library).chainId = some challenge.chainId
  issuedAt : ∃ d, (r.parsed library).issuedAt = some d ∧
    ∀ t, d = some t → ((t - (challenge.issuedAt : ℤ)).natAbs : ℤ) ≤ 30000
  expirationTime : ∀ t, (r.parsed library).expirationTime = some (some t) →
    (r.now : ℤ) ≤ t ∧ t ≤ challenge.expiresAt + 30000
  notBefore : ∀ t, (r.parsed library).notBefore = some (some t) → t ≤ r.now + 30000
  signed : r.Signed library
  open_once : r.after.challenges.countP (isOpen challenge.nonce) = 1
  new_token : library.tokenHash r.token ∉ r.after.sessions.map (·.tokenHash)

section Calls

variable {library config} {s : AuthServer} {r : VerifyRun} {challenge : ChallengeRow} {v : Verification}
  {now : ℕ} {parsed : SiweMessage} {ipHash : String}

/-! ### The checks one by one -/

lemma readChallenge_eq_ok : s.readChallenge now parsed ipHash = .ok challenge ↔
    Complete parsed ∧ s.challenges.find? (fun row => parsed.nonce = some row.nonce) = some challenge ∧
      isUnset challenge.consumedAt = true ∧ now ≤ challenge.expiresAt ∧ challenge.ipHash = ipHash ∧
      parsed.domain = some challenge.domain ∧ parsed.uri = some challenge.uri ∧
      parsed.chainId = some challenge.chainId := by
  constructor
  · intro h
    unfold readChallenge at h
    split_ifs at h with hblank
    simp only [Bool.or_eq_true, decide_eq_true_eq, not_or, Bool.not_eq_true, not_not, ne_eq] at hblank
    obtain ⟨⟨⟨⟨⟨hnonce, haddress⟩, hdomain⟩, huri⟩, hchain⟩, hversion⟩ := hblank
    split at h
    · cases h
    · rename_i row hfind
      split_ifs at h with hused hclient haudience
      cases h
      simp only [Bool.or_eq_true, decide_eq_true_eq, not_or, Bool.not_eq_true', Bool.not_eq_false,
        not_not, ne_eq, Nat.not_lt] at hused hclient haudience
      exact ⟨⟨hnonce, haddress, hdomain, huri, hchain, hversion⟩, hfind, hused.1, hused.2, hclient,
        haudience.1.1, haudience.1.2, haudience.2⟩
  · rintro ⟨hcomplete, hfind, hunset, hexpiry, hclient, hdomain, huri, hchain⟩
    unfold readChallenge
    rw [if_neg (by simp [hcomplete.nonce, hcomplete.address, hcomplete.domain, hcomplete.uri,
      hcomplete.chainId, hcomplete.version])]
    simp only [hfind]
    rw [if_neg (by simp [hunset, Nat.not_lt.mpr hexpiry]), if_neg (not_not.mpr hclient),
      if_neg (by simp [hdomain, huri, hchain])]

lemma checkDates_eq_ok : checkDates now parsed challenge = .ok () ↔
    (∃ d, parsed.issuedAt = some d ∧
      ∀ t, d = some t → ((t - (challenge.issuedAt : ℤ)).natAbs : ℤ) ≤ 30000) ∧
    (∀ t, parsed.expirationTime = some (some t) →
      (now : ℤ) ≤ t ∧ t ≤ challenge.expiresAt + 30000) ∧
    ∀ t, parsed.notBefore = some (some t) → t ≤ now + 30000 := by
  have hafter : ∀ {issuedAt : JsDate}, JsDate.isAfter
      (issuedAt.map fun t => ((t - (challenge.issuedAt : ℤ)).natAbs : ℤ)) 30000 = false ↔
        ∀ t, issuedAt = some t → ((t - (challenge.issuedAt : ℤ)).natAbs : ℤ) ≤ 30000 := by
    intro issuedAt
    cases issuedAt <;> simp [JsDate.isAfter_eq_false]
  unfold checkDates
  constructor
  · intro h
    split at h
    · cases h
    · rename_i issuedAt hissued
      split_ifs at h with hissuance hexpired hexceeds hearly
      rw [Bool.not_eq_true] at hissuance hexpired hexceeds hearly
      refine ⟨⟨issuedAt, hissued, hafter.mp hissuance⟩, fun t ht => ⟨?_, ?_⟩, ?_⟩
      · exact any_isBefore_eq_false.mp hexpired t ht
      · exact any_isAfter_eq_false.mp hexceeds t ht
      · exact any_isAfter_eq_false.mp hearly
  · rintro ⟨⟨issuedAt, hissued, hclose⟩, hexpiration, hnotBefore⟩
    have hexpired := any_isBefore_eq_false.mpr fun t ht => (hexpiration t ht).1
    have hexceeds := any_isAfter_eq_false.mpr fun t ht => (hexpiration t ht).2
    have hearly := any_isAfter_eq_false.mpr hnotBefore
    simp only [hissued]
    rw [if_neg (by rw [hafter.mpr hclose]; exact Bool.false_ne_true), if_neg (by simp [hexpired]),
      if_neg (by simp [hexceeds]), if_neg (by simp [hearly])]

lemma beginVerify_eq_ok {body : VerifyBody} :
    s.beginVerify library now body ipHash = .ok v ↔
      ∃ challenge, s.readChallenge now (library.parseSiweMessage body.message) ipHash = .ok challenge ∧
        checkDates now (library.parseSiweMessage body.message) challenge = .ok () ∧
        ∃ address, (library.parseSiweMessage body.message).address.bind library.getAddress =
          some address ∧ v = ⟨challenge.nonce, address, body.message, body.signature, ipHash⟩ := by
  unfold beginVerify
  constructor
  · intro h
    split at h
    · cases h
    · rename_i challenge hchallenge
      split at h
      · cases h
      · rename_i hdates
        split at h
        · cases h
        · rename_i address haddress
          cases h
          exact ⟨challenge, hchallenge, hdates, address, haddress, rfl⟩
  · rintro ⟨challenge, hchallenge, hdates, address, haddress, rfl⟩
    simp only [hchallenge, hdates, haddress]

/-- The second half of a call creates a session when the signature is valid, the challenge still open
and the token new. -/
lemma finishVerify_creates {call : ℕ} {token csrfToken : String} :
    (∃ login, (s.finishVerify library config now call v token csrfToken).logins = s.logins ++ [login]) ↔
      library.verifyMessage v.address v.message v.signature = some true ∧
        s.challenges.countP (isOpen v.nonce) = 1 ∧
        library.tokenHash token ∉ s.sessions.map (·.tokenHash) := by
  have hnone : ∀ login, s.logins ≠ s.logins ++ [login] := by
    intro login h
    have hlength := congrArg List.length h
    simp at hlength
  unfold finishVerify
  constructor
  · rintro ⟨login, h⟩
    split at h
    · exact absurd h (hnone login)
    · exact absurd h (hnone login)
    · rename_i hvalid
      split_ifs at h with hcount
      · exact absurd h (hnone login)
      · unfold openSession at h
        split_ifs at h with hsession
        · exact absurd h (hnone login)
        · exact ⟨hvalid, by omega, hsession⟩
  · rintro ⟨hvalid, hcount, htoken⟩
    have hcreated : (createSession library config now token csrfToken v.address v.ipHash).tokenHash =
        library.tokenHash token := rfl
    refine ⟨⟨v, createSession library config now token csrfToken v.address v.ipHash⟩, ?_⟩
    simp only [hvalid]
    rw [if_neg (not_not.mpr hcount), openSession, if_neg (by rw [hcreated]; exact htoken)]
    rfl

/-! ### The whole call -/

lemma createsSession_iff : r.CreatesSession library config ↔ ∃ challenge, r.Passes library challenge := by
  constructor
  · rintro ⟨v, login, hbegin, hlogin⟩
    obtain ⟨challenge, hread, hdates, address, haddress, rfl⟩ := beginVerify_eq_ok.mp hbegin
    obtain ⟨hcomplete, hfind, hunset, hexpiry, hclient, hdomain, huri, hchain⟩ :=
      readChallenge_eq_ok.mp hread
    obtain ⟨hissued, hexpiration, hnotBefore⟩ := checkDates_eq_ok.mp hdates
    obtain ⟨hsigned, hcount, htoken⟩ := finishVerify_creates.mp ⟨login, hlogin⟩
    exact ⟨challenge, hcomplete, hfind, hunset, hexpiry, hclient, hdomain, huri, hchain, hissued,
      hexpiration, hnotBefore, ⟨address, haddress, hsigned⟩, hcount, htoken⟩
  · rintro ⟨challenge, h⟩
    obtain ⟨address, haddress, hsigned⟩ := h.signed
    have hread : r.before.readChallenge r.now (r.parsed library) r.ipHash = .ok challenge :=
      readChallenge_eq_ok.mpr ⟨h.complete, h.found, h.unconsumed, h.unexpired, h.client, h.domain,
        h.uri, h.chainId⟩
    have hdates : checkDates r.now (r.parsed library) challenge = .ok () :=
      checkDates_eq_ok.mpr ⟨h.issuedAt, h.expirationTime, h.notBefore⟩
    have hbegin := beginVerify_eq_ok.mpr ⟨challenge, hread, hdates, address, haddress, rfl⟩
    have hfinish := @finishVerify_creates library config r.after
      ⟨challenge.nonce, address, r.body.message, r.body.signature, r.ipHash⟩ r.resumedAt r.call r.token
      r.csrfToken
    obtain ⟨login, hlogin⟩ := hfinish.mpr ⟨hsigned, h.open_once, h.new_token⟩
    exact ⟨_, login, hbegin, hlogin⟩

lemma VerifyRun.Passes.answers (h : r.Passes library challenge) : r.Answers library challenge where
  known := List.mem_of_find?_eq_some h.found
  nonce := by simpa using List.find?_some h.found
  domain := h.domain
  uri := h.uri
  chainId := h.chainId
  client := h.client
  unconsumed := h.unconsumed
  unexpired := h.unexpired
  still_open := List.countP_pos_iff.mp (by rw [h.open_once]; exact Nat.one_pos)

/-- With real instants the comparisons say what they are there for. -/
lemma VerifyRun.Passes.timely (h : r.Passes library challenge) (hreal : (r.parsed library).DatesReal) :
    r.Timely library challenge where
  issuedAt := by
    obtain ⟨d, hd, hclose⟩ := h.issuedAt
    obtain ⟨t, rfl⟩ := hreal.issuedAt d hd
    exact ⟨t, hd, hclose t rfl⟩
  expirationTime := by
    intro d hd
    obtain ⟨t, rfl⟩ := hreal.expirationTime d hd
    exact ⟨t, rfl, h.expirationTime t hd⟩
  notBefore := by
    intro d hd
    obtain ⟨t, rfl⟩ := hreal.notBefore d hd
    exact ⟨t, rfl, h.notBefore t hd⟩

lemma VerifyRun.Timely.datesReal (h : r.Timely library challenge) : (r.parsed library).DatesReal where
  issuedAt := by
    obtain ⟨t, ht, -⟩ := h.issuedAt
    intro d hd
    exact ⟨t, Option.some.inj (hd.symm.trans ht)⟩
  expirationTime := by
    intro d hd
    obtain ⟨t, ht, -⟩ := h.expirationTime d hd
    exact ⟨t, ht⟩
  notBefore := by
    intro d hd
    obtain ⟨t, ht, -⟩ := h.notBefore d hd
    exact ⟨t, ht⟩

end Calls

/-- An accepted message says what it should exactly when its dates are real instants or another check
refuses it. -/
theorem sound_iff_datesReal (r : VerifyRun) :
    r.Sound library config ↔
      ((∃ challenge, r.Passes library challenge) → (r.parsed library).DatesReal) := by
  rw [VerifyRun.Sound, createsSession_iff]
  constructor
  · intro h hpasses
    obtain ⟨challenge, -, htimely, -⟩ := h hpasses
    exact htimely.datesReal
  · rintro h ⟨challenge, hpasses⟩
    exact ⟨challenge, hpasses.answers, hpasses.timely (h ⟨challenge, hpasses⟩), hpasses.signed⟩

/-! ### A message that never expires -/

/-- The sample message with the line `Expiration Time: never`. -/
def neverText : String := "127.0.0.1:8787 wants you to sign in " ++ "with your Ethereum account:\n" ++
  "0x7E5F4552091A69125d5DfCb7b8C2659029395Bdf" ++ "\n\nURI: http://127.0.0.1:8787" ++
  "\nVersion: 1\nChain ID: 1\n" ++ "Nonce: 0123456789abcdef\n" ++
  "Issued At: 1970-01-01T00:00:01.000Z\n" ++ "Expiration Time: never"

/-- Its signature by the holder of the address. -/
def neverSignature : String := "0x4e097a7b18732c750d5d72526e747c32" ++
  "e31f3e0e0ca5e15c8063f470655fa1b4" ++ "78d9694b07d29503ad5860c843b958d3" ++
  "d995428d1a6c486ade59bd3f2fcd05211c"

lemma acceptsBody_never : acceptsBody neverText neverSignature = true := by
  unfold neverText neverSignature acceptsBody jsLength
  simp only [String.toList_append]
  decide +kernel

def neverBody : VerifyBody := ⟨neverText, neverSignature, acceptsBody_never⟩

/-- What is parsed from it: `new Date("never")` is an invalid date. -/
def neverMessage : SiweMessage where
  address := some sampleAddress
  domain := some "127.0.0.1:8787"
  uri := some "http://127.0.0.1:8787"
  version := some "1"
  nonce := some "0123456789abcdef"
  chainId := some 1
  issuedAt := some (some 1000)
  expirationTime := some none
  notBefore := none

/-- The library functions on this message. -/
def neverLibrary : AuthLibrary where
  parseSiweMessage message :=
    if message = neverText then neverMessage
    else ⟨none, none, none, none, none, none, none, none, none⟩
  getAddress address := if address = sampleAddress then some address else none
  verifyMessage address message signature :=
    some (address = sampleAddress && message = neverText && signature = neverSignature)
  tokenHash := sampleLibrary.tokenHash

lemma parse_never : neverLibrary.parseSiweMessage neverText = neverMessage := by
  simp only [neverLibrary, if_true]

/-- The table after one challenge was issued. -/
def oneChallenge : AuthServer := initial.issueChallenge sampleConfig 1000 "0123456789abcdef" "ip"

/-- The message is signed and sent one second later. -/
def neverRun : VerifyRun where
  before := oneChallenge
  now := 2000
  body := neverBody
  ipHash := "ip"
  after := oneChallenge
  resumedAt := 2001
  call := 0
  token := "token"
  csrfToken := "csrf"

/-- A session is created for a message whose expiration time is no instant at all. -/
theorem not_sound_never :
    ¬∀ (library : AuthLibrary) (config : AuthConfig) (r : VerifyRun), r.Sound library config := by
  intro h
  have hparsed : neverRun.parsed neverLibrary = neverMessage := parse_never
  have hlogins : (neverRun.before.beginVerify neverLibrary neverRun.now neverRun.body
      neverRun.ipHash).toOption.any (fun v => (neverRun.after.finishVerify neverLibrary sampleConfig
        neverRun.resumedAt neverRun.call v neverRun.token neverRun.csrfToken).logins.length = 1) =
      true := by
    decide +kernel
  have hcreates : neverRun.CreatesSession neverLibrary sampleConfig := by
    obtain ⟨v, hv, hlength⟩ := (Option.any_eq_true _ _).mp hlogins
    obtain ⟨login, hlogin⟩ := List.length_eq_one_iff.mp (of_decide_eq_true hlength)
    cases hbegin : neverRun.before.beginVerify neverLibrary neverRun.now neverRun.body
        neverRun.ipHash with
    | error failure =>
      rw [hbegin] at hv
      cases hv
    | ok v' =>
      rw [hbegin] at hv
      cases hv
      exact ⟨v, login, hbegin, hlogin⟩
  obtain ⟨challenge, -, htimely, -⟩ := h neverLibrary sampleConfig neverRun hcreates
  obtain ⟨t, ht, -⟩ := htimely.expirationTime none (by rw [hparsed]; rfl)
  cases ht

end AuthServer

end Bloom
