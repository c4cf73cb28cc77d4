import EShield.Node.Auth

/-!
# Who gets through to the handlers

Behind the middleware a request from outside holds one of the tokens, and one that may write holds the
admin token. What a wrong credential is does not show in the answer.
-/

namespace EShield.Node

variable {s : AuthState} {r r' : Request} {role : Role} {c admin : String}

/-! ## Tokens -/

theorem AuthState.token_withReadonly {token : String} (h : token ≠ "") (readonly : Option String) :
    (AuthState.withReadonly (some token) readonly).token = some token := by
  rw [AuthState.withReadonly, Option.filter_some, if_pos (decide_eq_true h)]

/-- A credential has a role if it is the token of the role. -/
theorem AuthState.token_of_roleOf (h : s.roleOf c = some role) :
    s.token = some c ∨ role = .readonly ∧ s.readonlyToken = some c := by
  have hany : ∀ {o : Option String}, (o.any fun token => constantTimeEq token c) = true →
      o = some c := by
    intro o ho
    cases o with
    | none => cases ho
    | some token => rw [of_decide_eq_true (show decide (token = c) = true from ho)]
  unfold roleOf at h
  split at h
  · cases h
  · split at h
    · rename_i htoken
      exact .inl (hany htoken)
    · split at h
      · rename_i hreadonly
        cases h
        exact .inr ⟨rfl, hany hreadonly⟩
      · cases h

/-! ## Requests -/

/-- The request is not one of the machine itself. -/
def External (r : Request) : Prop := isLoopback r.addr = false ∨ proxyHeadersPresent r = true

/-- The credential is none of the tokens. -/
def NoToken (s : AuthState) (r : Request) : Prop :=
  ∀ c ∈ r.provided, s.token ≠ some c ∧ s.readonlyToken ≠ some c

/-- A header that carries a credential. -/
def isCredential (h : String × List UInt8) : Bool := h.1 = "authorization" || h.1 = "cookie"

/-- The requests differ in nothing but the headers that carry credentials. -/
structure SameButCredentials (r r' : Request) : Prop where
  addr_eq : r'.addr = r.addr
  method_eq : r'.method = r.method
  path_eq : r'.path = r.path
  headers_eq : (r'.headers.filter fun h => !isCredential h) = r.headers.filter fun h => !isCredential h

theorem lookup_filter_other {headers : List (String × List UInt8)} {name : String}
    (hname : name ≠ "authorization" ∧ name ≠ "cookie") :
    (headers.filter fun h => !isCredential h).lookup name = headers.lookup name := by
  induction headers with
  | nil => rfl
  | cons h headers ih =>
    obtain ⟨key, value⟩ := h
    by_cases hkey : isCredential (key, value)
    · have hne : (name == key) = false := by
        refine beq_false_of_ne fun heq => ?_
        rw [isCredential, Bool.or_eq_true, decide_eq_true_eq, decide_eq_true_eq] at hkey
        exact hkey.elim (fun h => hname.1 (heq.trans h)) fun h => hname.2 (heq.trans h)
      rw [List.filter_cons_of_neg (by simp [hkey]), ih, List.lookup_cons, hne]
    · rw [List.filter_cons_of_pos (by simp [hkey]), List.lookup_cons, List.lookup_cons, ih]

theorem SameButCredentials.header_eq (h : SameButCredentials r r') {name : String}
    (hname : name ≠ "authorization" ∧ name ≠ "cookie") : r'.header name = r.header name := by
  rw [Request.header, Request.header, ← lookup_filter_other hname, h.headers_eq,
    lookup_filter_other hname]

theorem containsKey_eq (r : Request) (name : String) :
    r.containsKey name = (r.header name).isSome := by
  unfold Request.containsKey Request.header
  induction r.headers with
  | nil => rfl
  | cons h headers ih =>
    obtain ⟨key, value⟩ := h
    rw [List.any_cons, List.lookup_cons, ih]
    by_cases heq : key = name
    · rw [decide_eq_true heq, beq_iff_eq.2 heq.symm]
      rfl
    · rw [decide_eq_false heq, beq_false_of_ne (Ne.symm heq)]
      rfl

theorem SameButCredentials.isHtmlRoot_eq (h : SameButCredentials r r') :
    r'.isHtmlRoot = r.isHtmlRoot := by
  unfold Request.isHtmlRoot Request.headerStr
  rw [h.path_eq, h.header_eq (by decide)]

theorem SameButCredentials.external (h : SameButCredentials r r') (hr : External r) :
    External r' := by
  unfold External proxyHeadersPresent at hr ⊢
  simp only [containsKey_eq] at hr ⊢
  rw [h.addr_eq, h.header_eq (by decide), h.header_eq (by decide), h.header_eq (by decide)]
  exact hr

/-! ## The middleware -/

/-- What becomes of a request from outside once an admin token is configured. -/
theorem authMiddleware_of_external (hext : External r) (hadmin : s.token = some admin) :
    authMiddleware s r =
      match r.provided.bind s.roleOf with
      | some role =>
        if role = .readonly && !isSafe r.method && r.path ≠ logoutPath then
          .respond
            { status := 403
              error := some "read-only token: write operations are not permitted" }
        else .forward role
      | none =>
        if r.isHtmlRoot then .respond { status := 302, location := some "/login" }
        else .respond { status := 401, error := some "Unauthorized" } := by
  have hnot : (isLoopback r.addr && !proxyHeadersPresent r) = false := by
    rcases hext with hfar | hproxy
    · rw [hfar, Bool.false_and]
    · rw [hproxy, Bool.not_true, Bool.and_false]
  rw [authMiddleware, hnot, hadmin]
  rfl

/-- A request that is let through has a credential with the role, and the read-only role only for safe
methods and for the logout. -/
theorem role_of_forward (hext : External r) (hadmin : s.token = some admin)
    (h : authMiddleware s r = .forward role) :
    (∃ c, r.provided = some c ∧ s.roleOf c = some role) ∧
      (role = .readonly → isSafe r.method = true ∨ r.path = logoutPath) := by
  rw [authMiddleware_of_external hext hadmin] at h
  cases hrole : r.provided.bind s.roleOf with
  | none =>
    rw [hrole] at h
    dsimp only at h
    split at h
    · cases h
    · cases h
  | some role' =>
    rw [hrole] at h
    dsimp only at h
    split at h
    · cases h
    · rename_i hallowed
      cases h
      refine ⟨Option.bind_eq_some_iff.1 hrole, fun hreadonly => ?_⟩
      rw [hreadonly] at hallowed
      by_contra hnot
      rw [not_or] at hnot
      refine hallowed ?_
      rw [Bool.not_eq_true] at hnot
      rw [hnot.1, decide_eq_true hnot.2]
      rfl

/-- Without one of the tokens a request is not let through. -/
theorem authMiddleware_of_noToken (hext : External r) (hadmin : s.token = some admin)
    (hno : NoToken s r) :
    authMiddleware s r =
      if r.isHtmlRoot then .respond { status := 302, location := some "/login" }
      else .respond { status := 401, error := some "Unauthorized" } := by
  have hnone : r.provided.bind s.roleOf = none := by
    cases hprovided : r.provided with
    | none => rfl
    | some c =>
      cases hrole : s.roleOf c with
      | none => exact hrole
      | some role =>
        obtain ⟨htoken, hreadonly⟩ := hno c hprovided
        rcases AuthState.token_of_roleOf hrole with h | ⟨-, h⟩
        · exact absurd h htoken
        · exact absurd h hreadonly
  rw [authMiddleware_of_external hext hadmin, hnone]

theorem protectedRoute_logout {method : Method} {h : Handler}
    (hroute : protectedRoute logoutPath method = some h) : h = .logout := by
  have hlookup : protectedRoutes.lookup logoutPath = some [(.post, .logout)] := by decide
  rw [protectedRoute, hlookup, Option.bind_some, List.lookup_cons] at hroute
  split at hroute
  · exact (Option.some.inj hroute).symm
  · cases hroute

/-- With an admin token configured, of the requests from outside: a handler other than that of the
logout gets one that may write only with the admin token; every one that is let through has the admin
or the read-only token; and two that differ only in credentials, none of them a token, get the same
response. -/
theorem write_access_needs_admin_token (hadmin : s.token = some admin) :
    (∀ r, External r → ∀ role h, authMiddleware s r = .forward role →
        protectedRoute r.path r.method = some h → h ≠ .logout → isSafe r.method = false →
        r.provided = some admin) ∧
      (∀ r, External r → ∀ role, authMiddleware s r = .forward role →
        r.provided = some admin ∨ ∃ c ∈ s.readonlyToken, r.provided = some c) ∧
      ∀ r r', External r → SameButCredentials r r' → NoToken s r → NoToken s r' →
        authMiddleware s r' = authMiddleware s r ∧
          ∃ response, authMiddleware s r = .respond response := by
  have htoken : ∀ {r : Request} {role : Role}, External r → authMiddleware s r = .forward role →
      r.provided = some admin ∨
        role = .readonly ∧ ∃ c ∈ s.readonlyToken, r.provided = some c := by
    intro r role hext h
    obtain ⟨⟨c, hprovided, hrole⟩, -⟩ := role_of_forward hext hadmin h
    rcases AuthState.token_of_roleOf hrole with hc | ⟨hreadonly, hc⟩
    · rw [hadmin] at hc
      exact .inl (hprovided.trans hc.symm)
    · exact .inr ⟨hreadonly, c, hc, hprovided⟩
  refine ⟨?_, ?_, ?_⟩
  · intro r hext role h hforward hroute hlogout hmutates
    rcases htoken hext hforward with hprovided | ⟨hreadonly, -⟩
    · exact hprovided
    · rcases (role_of_forward hext hadmin hforward).2 hreadonly with hsafe | hpath
      · rw [hmutates] at hsafe
        cases hsafe
      · rw [hpath] at hroute
        exact absurd (protectedRoute_logout hroute) hlogout
  · intro r hext role hforward
    exact (htoken hext hforward).imp_right And.right
  · intro r r' hext hsame hno hno'
    rw [authMiddleware_of_noToken hext hadmin hno,
      authMiddleware_of_noToken (hsame.external hext) hadmin hno', hsame.isHtmlRoot_eq]
    refine ⟨rfl, ?_⟩
    split
    · exact ⟨_, rfl⟩
    · exact ⟨_, rfl⟩

/-- A request from outside to block an address, with a bearer token. -/
def blockRequest (token : String) : Request :=
  { addr := .v4 0xc0000201
    method := .post
    path := "/api/blacklist"
    headers := [("authorization", ("Bearer " ++ token).toUTF8.toList)] }

/-- With the token of the configuration it gets to its handler, and with no other. -/
theorem write_access_needs_admin_token_block :
    (authMiddleware (.withReadonly (some "secret") (some "watch")) (blockRequest "secret") =
        .forward .admin ∧
      (blockRequest "secret").provided = some "secret") ∧
      authMiddleware (.withReadonly (some "secret") (some "watch")) (blockRequest "guess") =
        authMiddleware (.withReadonly (some "secret") (some "watch")) (blockRequest "") := by
  have hadmin := AuthState.token_withReadonly (by decide : "secret" ≠ "") (some "watch")
  obtain ⟨hwrite, -, hsame⟩ := write_access_needs_admin_token hadmin
  have hforward : authMiddleware (.withReadonly (some "secret") (some "watch"))
      (blockRequest "secret") = .forward .admin := by decide +kernel
  refine ⟨⟨hforward, ?_⟩, ?_⟩
  · exact hwrite _ (.inl (by decide)) _ .blockIp hforward (by decide +kernel) (by decide) (by decide)
  · refine (hsame (blockRequest "") (blockRequest "guess") (.inl (by decide))
      ⟨rfl, rfl, rfl, by decide +kernel⟩ ?_ ?_).1
    · intro c hc
      have hprovided : (blockRequest "").provided = some "" := by decide +kernel
      cases hprovided.symm.trans hc
      decide +kernel
    · intro c hc
      have hprovided : (blockRequest "guess").provided = some "guess" := by decide +kernel
      cases hprovided.symm.trans hc
      decide +kernel

end EShield.Node
