import EShield.Lib.IpText
import EShield.Lib.Lines
import EShield.Lib.Text

/-!
# Access to the web API

The middleware in front of the protected routes: requests of the machine itself pass, all others need
the admin token, or for reading the read-only token. The headers of a request are those of the wire,
with names in lower case; of several headers of one name the first counts.
-/

namespace EShield.Node

open IpText Text

inductive Role where
  | admin | readonly
  deriving DecidableEq

inductive Method where
  | get | head | options | post | put | delete | patch | connect | trace
  | extension (name : String)
  deriving DecidableEq

/-! ## Tokens -/

structure AuthState where
  token : Option String
  readonlyToken : Option String

namespace AuthState

/-- An empty token is none. -/
def withReadonly (token readonly : Option String) : AuthState :=
  { token := token.filter (· ≠ ""), readonlyToken := readonly.filter (· ≠ "") }

/-- The comparison in constant time, of the bytes. -/
def constantTimeEq (a b : String) : Bool := a = b

def roleOf (s : AuthState) (provided : String) : Option Role :=
  if provided = "" then none
  else if s.token.any fun token => constantTimeEq token provided then some .admin
  else if s.readonlyToken.any fun token => constantTimeEq token provided then some .readonly
  else none

end AuthState

/-! ## Requests -/

structure Request where
  addr : IpAddr
  method : Method
  path : String
  headers : List (String × List UInt8)

namespace Request

def header (r : Request) (name : String) : Option (List UInt8) := r.headers.lookup name

def containsKey (r : Request) (name : String) : Bool := r.headers.any fun h => h.1 = name

/-- `HeaderValue::to_str`: the value as text, if it is visible ASCII. -/
def toStr (value : List UInt8) : Option (List Char) :=
  if value.all fun b => b = 9 || (32 ≤ b && b < 127) then
    some (value.map fun b => Char.ofNat b.toNat)
  else none

def headerStr (r : Request) (name : String) : Option (List Char) := (r.header name).bind toStr

/-- The token of a bearer authorization. -/
def fromHeader (r : Request) : Option (List Char) :=
  (r.headerStr "authorization").bind fun h =>
    if "Bearer ".toList.isPrefixOf h then some (h.drop 7) else none

/-- The value of the cookie `eshield-token`, if this is one. -/
def tokenCookie (cookie : List Char) : Option (List Char) :=
  match splitOnce '=' (Lines.trim cookie) with
  | some (name, value) => if name = "eshield-token".toList then some value else none
  | none => none

def fromCookie (r : Request) : Option (List Char) :=
  (r.headerStr "cookie").bind fun cookies => (cookies.splitOn ';').findSome? tokenCookie

/-- The credential that counts: that of the header before that of the cookies. -/
def provided (r : Request) : Option String :=
  (r.fromHeader.or r.fromCookie).map String.ofList

def isHtmlRoot (r : Request) : Bool :=
  r.path = "/" && (r.headerStr "accept").any fun accept => "text/html".toList <:+: accept

end Request

def isLoopback : IpAddr → Bool
  | .v4 addr => addr >>> 24 = 127
  | .v6 addr => addr = 1

def proxyHeadersPresent (r : Request) : Bool :=
  r.containsKey "x-forwarded-for" || r.containsKey "x-real-ip" || r.containsKey "forwarded"

/-! ## The middleware -/

structure Response where
  status : Nat
  location : Option String := none
  error : Option String := none
  deriving DecidableEq

/-- The request goes on to its handler under a role, or is answered. -/
inductive AuthOutcome where
  | forward (role : Role)
  | respond (response : Response)
  deriving DecidableEq

def isSafe (m : Method) : Bool := m = .get || m = .head || m = .options

def logoutPath : String := "/api/auth/logout"

def authMiddleware (s : AuthState) (r : Request) : AuthOutcome :=
  if isLoopback r.addr && !proxyHeadersPresent r then .forward .admin
  else
    match s.token with
    | none => .forward .admin
    | some _ =>
      match r.provided.bind s.roleOf with
      | some role =>
        if role = .readonly && !isSafe r.method && r.path ≠ logoutPath then
          .respond
            { status := 403
              error := some "read-only token: write operations are not permitted" }
        else .forward role
      | none =>
        if r.isHtmlRoot then .respond { status := 302, location := some "/login" }
        else .respond { status := 401, error := some "Unauthorized" }

/-! ## The protected routes -/

inductive Handler where
  | index | stats | metricsSeries | config | patchConfig | reloadConfig | authCheck | mapUsage
  | auditVerify | logout | resetToken | protectionModules | listBlacklist | blockIp | unblockIp
  | listWhitelist | allowCidr | disallowCidr | audit | auditStream | attackerSeries | attackEvents
  | packets | ipDetail | ipSeries | listPortAcl | setPortAcl | listProtectionProjects
  | setProtectionProjects | listL7Patterns | setL7Patterns | reloadGeoip | syncThreatIntel
  | hubStatus | hubProxyStats | hubProxyNodes | hubProxyPolicies | metrics
  deriving DecidableEq

def protectedRoutes : List (String × List (Method × Handler)) :=
  [ ("/", [(.get, .index)]),
    ("/api/stats", [(.get, .stats)]),
    ("/api/metrics/series", [(.get, .metricsSeries)]),
    ("/api/config", [(.get, .config), (.patch, .patchConfig)]),
    ("/api/config/reload", [(.post, .reloadConfig)]),
    ("/api/auth/check", [(.get, .authCheck)]),
    ("/api/map-usage", [(.get, .mapUsage)]),
    ("/api/audit/verify", [(.get, .auditVerify)]),
    ("/api/auth/logout", [(.post, .logout)]),
    ("/api/auth/reset-token", [(.post, .resetToken)]),
    ("/api/protection-modules", [(.get, .protectionModules)]),
    ("/api/blacklist", [(.get, .listBlacklist), (.post, .blockIp), (.delete, .unblockIp)]),
    ("/api/whitelist", [(.get, .listWhitelist), (.post, .allowCidr), (.delete, .disallowCidr)]),
    ("/api/audit", [(.get, .audit)]),
    ("/api/audit/stream", [(.get, .auditStream)]),
    ("/api/metrics/attacker-series", [(.get, .attackerSeries)]),
    ("/api/attack-events", [(.get, .attackEvents)]),
    ("/api/packets", [(.get, .packets)]),
    ("/api/ip-detail", [(.get, .ipDetail)]),
    ("/api/ip-series", [(.get, .ipSeries)]),
    ("/api/port-acl", [(.get, .listPortAcl), (.post, .setPortAcl)]),
    ("/api/protection-projects", [(.get, .listProtectionProjects), (.post, .setProtectionProjects)]),
    ("/api/l7-patterns", [(.get, .listL7Patterns), (.post, .setL7Patterns)]),
    ("/api/geoip/reload", [(.post, .reloadGeoip)]),
    ("/api/threat-intel/sync", [(.post, .syncThreatIntel)]),
    ("/api/hub/status", [(.get, .hubStatus)]),
    ("/api/hub/proxy/stats", [(.get, .hubProxyStats)]),
    ("/api/hub/proxy/nodes", [(.get, .hubProxyNodes)]),
    ("/api/hub/proxy/policies", [(.get, .hubProxyPolicies)]),
    ("/metrics", [(.get, .metrics)]) ]

/-- The handler of a request; one for GET also serves HEAD. -/
def protectedRoute (path : String) (method : Method) : Option Handler :=
  (protectedRoutes.lookup path).bind fun methods =>
    methods.lookup (if method = .head then .get else method)

end EShield.Node
