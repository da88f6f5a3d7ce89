import BloomWorkspaces.Control.Auth
import BloomWorkspaces.Control.ClientIp
import BloomWorkspaces.Control.Cookies

/-!
# Sessions

Which requests a session admits, in any run of the control server. A session begins with a login, and it
ends with its lifetime or with a logout that the session itself admits.
-/

namespace Bloom

/-- What the middlewares read of a request. -/
structure ApiRequest where
  method : JsText
  remoteAddress : Option JsText
  forwardedFor : Option JsText
  origin : Option JsText
  cookie : Option JsText
  csrfToken : Option JsText

/-- What they read of `Config`; `originOf` is `new URL(header).origin`, which may throw. -/
structure WebConfig where
  origin : JsText
  trustedProxyHops : ℕ
  originOf : JsText → Option JsText

/-- `request.headers.origin` for a header that is missing or empty is no origin. -/
def validBrowserOrigin (web : WebConfig) (header : Option JsText) : Bool :=
  match header with
  | none | some [] => false
  | some header => web.originOf header = some web.origin

def safeEqual (left right : List Char) : Bool := Utf8.encode left = Utf8.encode right

lemma safeEqual_iff {left right : List Char} : safeEqual left right = true ↔ left = right := by
  rw [safeEqual, decide_eq_true_iff]
  exact ⟨Utf8.encode_injective, congrArg Utf8.encode⟩

/-- The methods that change something. -/
def isWrite (method : JsText) : Bool :=
  [jsText "POST", jsText "PUT", jsText "PATCH", jsText "DELETE"].any (· = method)

namespace Sessions

variable (library : AuthLibrary) (config : AuthConfig) (web : WebConfig)

/-- The token of the cookie; an empty one is none. -/
def sessionToken (cookie : Option JsText) : Option JsText :=
  (Cookies.get (Cookies.parse cookie) (jsText "bloom_session")).filter (· ≠ [])

/-- The hash of a token is that of its UTF-8 bytes. -/
def hashOf (token : JsText) : String := library.tokenHash (String.ofList (Utf16.toWellFormed token))

def readSession (s : AuthServer) (now : ℕ) (cookie : Option JsText) : Option SessionRow :=
  (sessionToken cookie).bind fun token =>
    s.sessions.find? fun row => row.tokenHash = hashOf library token && now < row.expiresAt

/-- What lets a request through to a handler behind `requireSession`, or the status of the refusal. -/
def requireSession (s : AuthServer) (now : ℕ) (request : ApiRequest) : Except ℕ SessionRow :=
  if isWrite request.method && !validBrowserOrigin web request.origin then .error 403
  else
    match ClientIp.clientIp request.remoteAddress request.forwardedFor web.trustedProxyHops with
    | .error _ => .error 500
    | .ok _ =>
      match readSession library s now request.cookie with
      | none => .error 401
      | some session =>
        if isWrite request.method &&
            !safeEqual (Utf16.toWellFormed (request.csrfToken.getD [])) session.csrfToken.toList then
          .error 403
        else .ok session

/-- A request for `POST /api/auth/logout`, or what else changes the tables. -/
inductive Event
  | server (event : AuthServer.Event)
  | logout (now : ℕ) (request : ApiRequest)

def asLogout (request : ApiRequest) : ApiRequest := { request with method := jsText "POST" }

/-- `clearSession` -/
def clearSession (s : AuthServer) (cookie : Option JsText) : AuthServer :=
  match sessionToken cookie with
  | some token =>
    { s with
      sessions := Table.deleteWhere (fun row => row.tokenHash = hashOf library token) s.sessions }
  | none => s

def step (s : AuthServer) : Event → Option AuthServer
  | .server (.logout _) => none
  | .server event => s.step library config event
  | .logout now request =>
    match requireSession library web s now (asLogout request) with
    | .ok _ => some (clearSession library s request.cookie)
    | .error _ => some s

/-! ### Lifetimes -/

/-- The event creates the session: a signature for its wallet has been verified and its challenge was
still open, or the development login is on. -/
def Opens (row : SessionRow) (s : AuthServer) : Event → Prop
  | .server (.signatureChecked now call token csrfToken) =>
    ∃ v, s.calls[call]? = some (.suspended v) ∧
      library.verifyMessage v.address v.message v.signature = some true ∧
      s.challenges.countP (AuthServer.isOpen v.nonce) = 1 ∧
      row = AuthServer.createSession library config now token csrfToken v.address v.ipHash ∧
      row.tokenHash ∉ s.sessions.map (·.tokenHash)
  | .server (.developmentLogin now ipHash token csrfToken) =>
    config.devAuth = true ∧ config.publicMode = false ∧
      row = AuthServer.createSession library config now token csrfToken
        "0x000000000000000000000000000000000000dEaD" ipHash ∧
      row.tokenHash ∉ s.sessions.map (·.tokenHash)
  | _ => False

/-- The event ends the session: its lifetime is over, or it is a logout that the session admits. -/
def Closes (row : SessionRow) (s : AuthServer) : Event → Prop
  | .server (.maintenance now) => row.expiresAt < now
  | .logout now request => requireSession library web s now (asLogout request) = .ok row
  | _ => False

/-- The request carries what the session asks for. -/
structure Carries (row : SessionRow) (now : ℕ) (request : ApiRequest) : Prop where
  origin : isWrite request.method = true → validBrowserOrigin web request.origin = true
  address : ∃ ip, ClientIp.clientIp request.remoteAddress request.forwardedFor web.trustedProxyHops = .ok ip
  token : ∃ token, sessionToken request.cookie = some token ∧ row.tokenHash = hashOf library token
  unexpired : now < row.expiresAt
  csrf : isWrite request.method = true →
    Utf16.toWellFormed (request.csrfToken.getD []) = row.csrfToken.toList

variable {library config web} {s s' : AuthServer} {row : SessionRow} {now : ℕ} {request : ApiRequest}
  {events : List Event}

/-- The primary key of the table. -/
def Keyed (s : AuthServer) : Prop := (s.sessions.map (·.tokenHash)).Nodup

lemma readSession_iff (hkeyed : Keyed s) {cookie : Option JsText} :
    readSession library s now cookie = some row ↔ row ∈ s.sessions ∧ now < row.expiresAt ∧
      ∃ token, sessionToken cookie = some token ∧ row.tokenHash = hashOf library token := by
  rw [readSession, Option.bind_eq_some_iff]
  constructor
  · rintro ⟨token, htoken, hfind⟩
    have hrow := List.find?_some hfind
    simp only [Bool.and_eq_true, decide_eq_true_eq] at hrow
    exact ⟨List.mem_of_find?_eq_some hfind, hrow.2, token, htoken, hrow.1⟩
  · rintro ⟨hmem, hexpires, token, htoken, hhash⟩
    refine ⟨token, htoken, ?_⟩
    obtain ⟨row', hfind⟩ : ∃ row', s.sessions.find? (fun row =>
        row.tokenHash = hashOf library token && now < row.expiresAt) = some row' := by
      rw [← Option.isSome_iff_exists, List.find?_isSome]
      exact ⟨row, hmem, by simp [hhash, hexpires]⟩
    have hrow' := List.find?_some hfind
    simp only [Bool.and_eq_true, decide_eq_true_eq] at hrow'
    have heq : row' = row :=
      Table.eq_of_key_eq hkeyed (List.mem_of_find?_eq_some hfind) hmem (hrow'.1.trans hhash.symm)
    rw [hfind, heq]

lemma requireSession_iff (hkeyed : Keyed s) : requireSession library web s now request = .ok row ↔
    row ∈ s.sessions ∧ Carries library web row now request := by
  constructor
  · intro h
    rw [requireSession] at h
    split_ifs at h with horigin
    split at h
    · cases h
    · rename_i ip hip
      split at h
      · cases h
      · rename_i session hsession
        split_ifs at h with hcsrf
        cases h
        obtain ⟨hmem, hexpires, htoken⟩ := (readSession_iff hkeyed).mp hsession
        refine ⟨hmem, ?_, ⟨ip, hip⟩, htoken, hexpires, ?_⟩
        · intro hwrite
          simpa [hwrite] using horigin
        · intro hwrite
          exact safeEqual_iff.mp (by simpa [hwrite] using hcsrf)
  · rintro ⟨hmem, horigin, ⟨ip, hip⟩, htoken, hexpires, hcsrf⟩
    have hsession := (readSession_iff hkeyed).mpr ⟨hmem, hexpires, htoken⟩
    have hallowed : (isWrite request.method && !validBrowserOrigin web request.origin) = false := by
      cases hwrite : isWrite request.method with
      | false => rfl
      | true => rw [horigin hwrite]; rfl
    have hmatches : (isWrite request.method &&
        !safeEqual (Utf16.toWellFormed (request.csrfToken.getD [])) row.csrfToken.toList) = false := by
      cases hwrite : isWrite request.method with
      | false => rfl
      | true => rw [safeEqual_iff.mpr (hcsrf hwrite)]; rfl
    rw [requireSession, hallowed, hip, hsession]
    simp only [Bool.false_eq_true, if_false, hmatches]

/-- What an event does to the table of sessions. -/
inductive Effect (s s' : AuthServer) (opens closes : SessionRow → Prop) : Prop
  | opened (new : SessionRow) (sessions_eq : s'.sessions = s.sessions ++ [new])
      (fresh : new.tokenHash ∉ s.sessions.map (·.tokenHash)) (opens_iff : ∀ row, opens row ↔ row = new)
      (not_closes : ∀ row, ¬closes row)
  | kept (sessions_eq : s'.sessions = s.sessions) (not_opens : ∀ row, ¬opens row)
      (not_closes : ∀ row ∈ s.sessions, ¬closes row)
  | deleted (gone : SessionRow → Bool) (sessions_eq : s'.sessions = Table.deleteWhere gone s.sessions)
      (not_opens : ∀ row, ¬opens row) (closes_iff : ∀ row ∈ s.sessions, closes row ↔ gone row = true)

namespace Effect

variable {opens closes : SessionRow → Prop}

lemma keyed (h : Effect s s' opens closes) (hkeyed : Keyed s) : Keyed s' := by
  cases h with
  | opened new heq hfresh _ _ =>
    rw [Keyed, heq, List.map_append, List.map_singleton]
    exact List.Nodup.append hkeyed (List.nodup_singleton _) (List.disjoint_singleton.mpr hfresh)
  | kept heq _ _ => rwa [Keyed, heq]
  | deleted gone heq _ _ =>
    rw [Keyed, heq]
    exact hkeyed.sublist (Table.map_deleteWhere_sublist gone _ _)

lemma mem_iff (h : Effect s s' opens closes) :
    row ∈ s'.sessions ↔ opens row ∨ row ∈ s.sessions ∧ ¬closes row := by
  cases h with
  | opened new heq _ hopens hcloses =>
    rw [heq, List.mem_append, List.mem_singleton, hopens, or_comm, and_iff_left (hcloses row)]
  | kept heq hopens hcloses =>
    rw [heq, or_iff_right (hopens row)]
    exact ⟨fun hmem => ⟨hmem, hcloses row hmem⟩, And.left⟩
  | deleted gone heq hopens hcloses =>
    rw [heq, or_iff_right (hopens row), Table.mem_deleteWhere]
    refine and_congr_right fun hmem => ?_
    rw [hcloses row hmem, Bool.not_eq_true]

end Effect

/-- The session of a verification, unless its signature or its challenge is refused. -/
lemma sessions_finishVerify {call : ℕ} {v : Verification} {token csrfToken : String} :
    (s.finishVerify library config now call v token csrfToken).sessions =
      if library.verifyMessage v.address v.message v.signature = some true ∧
          s.challenges.countP (AuthServer.isOpen v.nonce) = 1 ∧
          library.tokenHash token ∉ s.sessions.map (·.tokenHash) then
        s.sessions ++ [AuthServer.createSession library config now token csrfToken v.address v.ipHash]
      else s.sessions := by
  unfold AuthServer.finishVerify
  split
  · rename_i hverify
    rw [if_neg fun h => by rw [h.1] at hverify; cases hverify]
    rfl
  · rename_i hverify
    rw [if_neg fun h => by rw [h.1] at hverify; cases hverify]
    rfl
  · rename_i hverify
    split_ifs with hcount hopen hopen
    · exact absurd hopen.2.1 hcount
    · rfl
    · unfold AuthServer.openSession
      exact congrArg AuthServer.sessions (if_neg hopen.2.2)
    · have hused : library.tokenHash token ∈ s.sessions.map (·.tokenHash) := by
        by_contra hfresh
        exact hopen ⟨hverify, not_not.mp hcount, hfresh⟩
      exact (congrArg AuthServer.sessions (if_pos hused)).trans rfl

lemma effect_signatureChecked {call : ℕ} {token csrfToken : String}
    (hs : s.step library config (.signatureChecked now call token csrfToken) = some s') :
    Effect s s' (Opens library config · s (.server (.signatureChecked now call token csrfToken)))
      (Closes library web · s (.server (.signatureChecked now call token csrfToken))) := by
  simp only [AuthServer.step] at hs
  split at hs
  · rename_i v hcall
    cases hs
    have hsame : ∀ v', s.calls[call]? = some (.suspended v') → v' = v := by
      intro v' hcall'
      rw [hcall, Option.some_inj] at hcall'
      exact (VerifyCall.suspended.inj hcall').symm
    by_cases hopen : library.verifyMessage v.address v.message v.signature = some true ∧
      s.challenges.countP (AuthServer.isOpen v.nonce) = 1 ∧
        library.tokenHash token ∉ s.sessions.map (·.tokenHash)
    · refine .opened (AuthServer.createSession library config now token csrfToken v.address v.ipHash)
        (sessions_finishVerify.trans (if_pos hopen)) hopen.2.2 (fun row => ⟨?_, ?_⟩) fun _ h => h
      · rintro ⟨v', hcall', -, -, hrow, -⟩
        rw [hrow, hsame v' hcall']
      · rintro rfl
        exact ⟨v, hcall, hopen.1, hopen.2.1, rfl, hopen.2.2⟩
    · refine .kept (sessions_finishVerify.trans (if_neg hopen)) ?_ fun _ _ h => h
      rintro row ⟨v', hcall', hverify, hcount, rfl, hfresh⟩
      obtain rfl := hsame v' hcall'
      exact hopen ⟨hverify, hcount, hfresh⟩
  · cases hs

lemma effect_developmentLogin {ipHash token csrfToken : String}
    (hs : s.step library config (.developmentLogin now ipHash token csrfToken) = some s') :
    Effect s s' (Opens library config · s (.server (.developmentLogin now ipHash token csrfToken)))
      (Closes library web · s (.server (.developmentLogin now ipHash token csrfToken))) := by
  simp only [AuthServer.step] at hs
  split_ifs at hs with hoff hhash
  · cases hs
    refine .kept rfl ?_ fun _ _ h => h
    rintro row ⟨hdev, hpublic, -, -⟩
    rw [hdev, hpublic] at hoff
    exact absurd hoff (by decide)
  · cases hs
    refine .kept rfl ?_ fun _ _ h => h
    rintro row ⟨-, -, rfl, hfresh⟩
    exact hfresh hhash
  · cases hs
    refine .opened _ rfl hhash (fun row => ⟨fun h => h.2.2.1, ?_⟩) fun _ h => h
    rintro rfl
    simp only [Bool.or_eq_true, Bool.not_eq_true', not_or, Bool.not_eq_true, Bool.not_eq_false] at hoff
    exact ⟨hoff.1, hoff.2, rfl, hhash⟩

lemma effect_logout (hkeyed : Keyed s) (hs : step library config web s (.logout now request) = some s') :
    Effect s s' (Opens library config · s (.logout now request))
      (Closes library web · s (.logout now request)) := by
  rw [step] at hs
  split at hs
  · rename_i admitted hadmitted
    cases hs
    obtain ⟨hmem, hcarries⟩ := (requireSession_iff hkeyed).mp hadmitted
    obtain ⟨token, htoken, hhash⟩ := hcarries.token
    refine .deleted (fun row => row.tokenHash = hashOf library token) ?_ (fun _ h => h) fun row hrow => ?_
    · rw [clearSession, show sessionToken request.cookie = some token from htoken]
    · rw [decide_eq_true_iff, Closes, hadmitted, Except.ok.injEq]
      refine ⟨fun h => h ▸ hhash, fun h => ?_⟩
      exact Table.eq_of_key_eq hkeyed hmem hrow (hhash.trans h.symm)
  · rename_i status hrefused
    cases hs
    refine .kept rfl (fun _ h => h) fun row _ h => ?_
    rw [Closes, hrefused] at h
    cases h

lemma effect_step (hkeyed : Keyed s) {e : Event} (hs : step library config web s e = some s') :
    Effect s s' (Opens library config · s e) (Closes library web · s e) := by
  cases e with
  | logout now request => exact effect_logout hkeyed hs
  | server event =>
    cases event with
    | issue now nonce ipHash =>
      cases hs
      refine .kept ?_ (fun _ h => h) fun _ _ h => h
      rw [AuthServer.issueChallenge]
      split_ifs <;> rfl
    | verify now body ipHash =>
      simp only [step, AuthServer.step] at hs
      split at hs <;> cases hs <;> exact .kept rfl (fun _ h => h) fun _ _ h => h
    | signatureChecked now call token csrfToken => exact effect_signatureChecked hs
    | developmentLogin now ipHash token csrfToken => exact effect_developmentLogin hs
    | logout token => cases hs
    | maintenance now =>
      cases hs
      refine .deleted (fun row => row.expiresAt < now) rfl (fun _ h => h) fun row _ => ?_
      rw [decide_eq_true_iff]
      rfl

end Sessions

/-- In every run, a request is admitted exactly when it carries the token of a session that a login has
opened in that run and that was not closed since, with the CSRF token of that session and the origin of
the site where it changes something. -/
theorem Sessions.admitted_iff {library : AuthLibrary} {config : AuthConfig} {web : WebConfig} {s : AuthServer}
    {events : List Event} (hrun : Transition.exec (step library config web) .initial events = some s)
    (now : ℕ) (request : ApiRequest) (row : SessionRow) :
    requireSession library web s now request = .ok row ↔
      Carries library web row now request ∧
        Transition.Since (step library config web) (Opens library config row) (Closes library web row)
          .initial events := by
  have hkeyed : Keyed s := (Transition.leads_of_exec hrun).invariant Keyed List.nodup_nil
    fun _ _ _ ht _ hs => (effect_step ht hs).keyed ht
  have hlive := Transition.live_iff_since (fun t => row ∈ t.sessions) Keyed hrun List.nodup_nil
    (fun _ _ _ ht hs => (effect_step ht hs).keyed ht) fun _ _ _ ht hs => (effect_step ht hs).mem_iff
  have hinitial : row ∉ AuthServer.initial.sessions := List.not_mem_nil
  rw [requireSession_iff hkeyed, hlive, and_comm, or_iff_right fun h => hinitial h.1]

namespace Sessions

def sampleWeb : WebConfig := ⟨jsText "http://127.0.0.1:8787", 0, fun header => some header⟩

/-- A browser that is signed in creates something. -/
def sampleRequest : ApiRequest where
  method := jsText "POST"
  remoteAddress := some (jsText "::ffff:10.0.0.1")
  forwardedFor := none
  origin := some (jsText "http://127.0.0.1:8787")
  cookie := some (jsText "theme=dark; bloom_session=token")
  csrfToken := some (jsText "csrf")

end Sessions

theorem Sessions.admitted_iff_login : ∃ row : SessionRow,
    row.wallet = "0x7e5f4552091a69125d5dfcb7b8c2659029395bdf" ∧
      Transition.Since (step AuthServer.sampleLibrary AuthServer.sampleConfig sampleWeb)
        (Opens AuthServer.sampleLibrary AuthServer.sampleConfig row)
        (Closes AuthServer.sampleLibrary sampleWeb row) .initial
        [.server (.issue 1000 "0123456789abcdef" "ip"), .server (.verify 2000 AuthServer.sampleBody "ip"),
          .server (.signatureChecked 2002 0 "token" "csrf"), .server (.maintenance 2003)] := by
  have hrun : (Transition.exec (step AuthServer.sampleLibrary AuthServer.sampleConfig sampleWeb) .initial
      [.server (.issue 1000 "0123456789abcdef" "ip"), .server (.verify 2000 AuthServer.sampleBody "ip"),
        .server (.signatureChecked 2002 0 "token" "csrf"), .server (.maintenance 2003)]).any (fun s =>
          (requireSession AuthServer.sampleLibrary sampleWeb s 2004 sampleRequest).toOption.any fun row =>
            row.wallet = "0x7e5f4552091a69125d5dfcb7b8c2659029395bdf") = true := by
    decide +kernel
  obtain ⟨s, hs, hadmitted⟩ := (Option.any_eq_true _ _).mp hrun
  cases hrequest : requireSession AuthServer.sampleLibrary sampleWeb s 2004 sampleRequest with
  | error status =>
    rw [hrequest] at hadmitted
    cases hadmitted
  | ok row =>
    rw [hrequest] at hadmitted
    exact ⟨row, of_decide_eq_true hadmitted, ((admitted_iff hs 2004 sampleRequest row).mp hrequest).2⟩

end Bloom
