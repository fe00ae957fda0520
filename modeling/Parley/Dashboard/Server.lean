/-
The admin dashboard: its routes, the GitHub sign-in and the signed tokens.

The server keeps no state of its own.  A request carries what its handler reads
from outside: the cookies and the query, the clock readings, the nonce, the
answers of GitHub and the relay's statistics.  A handler returns the response it
writes.
-/

import Parley.Library.Text
import Parley.Library.Sha256
import Parley.Wire

namespace Parley.Admin

open Library
open Wire (Bytes)

/-- An instant, in seconds since the start of the year 1. -/
structure Time where
  sec : Int64
  deriving DecidableEq, Repr

def unixToInternal : Int64 := 62135596800

def Time.unix (t : Time) : Int64 :=
  t.sec - unixToInternal

def Time.add (t : Time) (seconds : Int64) : Time :=
  let sum := t.sec + seconds
  if decide (t.sec < sum) = decide (0 < seconds) then { sec := sum }
  else if 0 < seconds then { sec := Int64.maxValue }
  else { sec := -Int64.maxValue }

def sessionTTL : Int64 := 7 * 24 * 60 * 60

def stateTTL : Int64 := 10 * 60

inductive Route where
  | dashboard
  | data
  | login
  | callback
  | logout
  deriving DecidableEq, Repr

/-- What GitHub's endpoints decode to: the token for a code, and the login for a
token.  `none` is a failed request or an undecodable answer. -/
structure GitHub where
  accessToken : Bytes → Option Bytes
  login : Bytes → Option Bytes

inductive Method where
  | get
  | head
  | other
  deriving DecidableEq, Repr

structure Request where
  method : Method
  route : Route
  cookies : List (Bytes × Bytes)
  query : List (Bytes × Bytes)
  /-- The first clock reading of the handler. -/
  now : Time
  /-- Its second one: a callback reads the clock again when it sets the cookie. -/
  later : Time
  nonce : Vector UInt8 16
  github : GitHub
  stats : Bytes

inductive SameSite where
  | defaultMode
  | lax
  | strict
  | none
  deriving DecidableEq, Repr

structure Cookie where
  name : Bytes
  value : Bytes
  path : Bytes
  expires : Option Time
  maxAge : Int
  httpOnly : Bool
  secure : Bool
  sameSite : SameSite
  deriving DecidableEq, Repr

structure Response where
  status : Nat
  location : Option Bytes
  contentType : Option Bytes
  setCookie : Option Cookie
  body : Bytes
  deriving DecidableEq, Repr

def statusOK : Nat := 200
def statusFound : Nat := 302
def statusBadRequest : Nat := 400
def statusUnauthorized : Nat := 401
def statusForbidden : Nat := 403
def statusBadGateway : Nat := 502

def ok (contentType : String) (body : Bytes) : Response :=
  { status := statusOK
    location := none
    contentType := some (ascii contentType)
    setCookie := none
    body := body }

def httpError (message : String) (status : Nat) : Response :=
  { status := status
    location := none
    contentType := some (ascii "text/plain; charset=utf-8")
    setCookie := none
    body := ascii message ++ [10] }

def htmlEscape (text : Bytes) : Bytes :=
  text.flatMap (fun byte =>
    if byte = 38 then ascii "&amp;"
    else if byte = 60 then ascii "&lt;"
    else if byte = 62 then ascii "&gt;"
    else if byte = 34 then ascii "&#34;"
    else if byte = 39 then ascii "&#39;"
    else [byte])

/-- `http.Redirect` adds a note for a GET and its type for a HEAD too. -/
def redirect (method : Method) (location : Bytes) (setCookie : Option Cookie) : Response :=
  { status := statusFound
    location := some location
    contentType := if method = .other then none else some (ascii "text/html; charset=utf-8")
    setCookie := setCookie
    body :=
      if method = .get then
        ascii "<a href=\"" ++ htmlEscape location ++ ascii "\">Found</a>.\n\n"
      else [] }

def isTokenByte (byte : UInt8) : Bool :=
  let code := byte.toNat
  (65 ≤ code && code ≤ 90) || (97 ≤ code && code ≤ 122) || (48 ≤ code && code ≤ 57) ||
    (ascii "!#$%&'*+-.^_`|~").contains byte

def isToken (text : Bytes) : Bool := !text.isEmpty && text.all isTokenByte

/-- `http.SetCookie` drops a cookie whose name is not a token. -/
def httpSetCookie (cookie : Cookie) : Option Cookie :=
  if isToken cookie.name then some cookie else none

def getFirst (name : Bytes) (values : List (Bytes × Bytes)) : Option Bytes :=
  (values.find? (fun entry => entry.1 == name)).map Prod.snd

def upperHexDigit (value : Nat) : UInt8 :=
  if value < 10 then UInt8.ofNat (48 + value) else UInt8.ofNat (65 + (value - 10))

def unreserved (byte : UInt8) : Bool :=
  let code := byte.toNat
  (65 ≤ code && code ≤ 90) || (97 ≤ code && code ≤ 122) || (48 ≤ code && code ≤ 57) ||
    code == 45 || code == 46 || code == 95 || code == 126

def queryEscape (text : Bytes) : Bytes :=
  text.flatMap (fun byte =>
    if unreserved byte then [byte]
    else if byte = 32 then [43]
    else [37, upperHexDigit (byte.toNat / 16), upperHexDigit (byte.toNat % 16)])

def encodeValues (values : List (String × Bytes)) : Bytes :=
  [38].intercalate (values.map (fun entry => ascii entry.1 ++ 61 :: queryEscape entry.2))

structure Config where
  clientID : Bytes
  clientSecret : Bytes
  cookieKey : Bytes
  allow : List Bytes
  baseURL : Bytes
  appName : Bytes
  deriving DecidableEq, Repr

structure Dashboard where
  cfg : Config
  authorizeURL : Bytes
  cookieName : Bytes
  page : Bytes
  deriving DecidableEq, Repr

def defaultAppName : Bytes := ascii "parley"

/-- `render` is the embedded page with the brand of the application in it. -/
def new (render : Bytes → Bytes) (cfg : Config) : Dashboard :=
  let app := if cfg.appName = [] then defaultAppName else cfg.appName
  { cfg := cfg
    authorizeURL := ascii "https://github.com/login/oauth/authorize"
    cookieName := app ++ ascii "_admin"
    page := render (app ++ ascii " relay") }

/-- The Unicode-aware string functions the allowlist is compared with. -/
structure GoStrings where
  trimSpace : Bytes → Bytes
  equalFold : Bytes → Bytes → Bool

def dot : UInt8 := 46

def bar : UInt8 := 124

def slash : UInt8 := 47

def Dashboard.redirectURI (d : Dashboard) : Bytes :=
  (d.cfg.baseURL.reverse.dropWhile (fun byte => byte == slash)).reverse ++
    ascii "/auth/callback"

inductive OAuthError where
  | request
  | noToken
  | noLogin
  deriving DecidableEq, Repr

def nonempty (empty : OAuthError) : Option Bytes → Except OAuthError Bytes
  | none => .error .request
  | some [] => .error empty
  | some (first :: rest) => .ok (first :: rest)

def exchangeCode (github : GitHub) (code : Bytes) : Except OAuthError Bytes :=
  nonempty .noToken (github.accessToken code)

def fetchLogin (github : GitHub) (token : Bytes) : Except OAuthError Bytes :=
  nonempty .noLogin (github.login token)

def Dashboard.allowed (go : GoStrings) (d : Dashboard) (login : Bytes) : Bool :=
  d.cfg.allow.any (fun a => go.equalFold (go.trimSpace a) login)

def Dashboard.mac (d : Dashboard) (msg : Bytes) : Bytes :=
  Sha256.hmac d.cfg.cookieKey msg

def Dashboard.sign (d : Dashboard) (msg : Bytes) : Bytes :=
  base64Encode msg ++ dot :: base64Encode (d.mac msg)

def Dashboard.unsign (d : Dashboard) (tok : Bytes) : Option Bytes := do
  let (msgB64, sigB64) ← cut dot tok
  let msg ← base64Decode msgB64
  let sig ← base64Decode sigB64
  if sig = d.mac msg then some msg else none

/-- A message that names something and the Unix second at which it expires. -/
def expiring (name : Bytes) (exp : Int64) : Bytes :=
  name ++ bar :: formatInt exp.toInt

def unexpired (msg : Bytes) (now : Time) : Option Bytes := do
  let (name, expS) ← cut bar msg
  let exp ← parseInt64 expS
  if exp < now.unix.toInt then none else some name

def Dashboard.setCookie (d : Dashboard) (login : Bytes) (now : Time) : Cookie :=
  let exp := now.add sessionTTL
  { name := d.cookieName
    value := d.sign (expiring login exp.unix)
    path := ascii "/"
    expires := some exp
    maxAge := sessionTTL.toInt
    httpOnly := true
    secure := true
    sameSite := .lax }

def Dashboard.currentUser (d : Dashboard) (r : Request) : Option Bytes := do
  let ck ← getFirst d.cookieName r.cookies
  let msg ← d.unsign ck
  unexpired msg r.now

def Dashboard.newState (d : Dashboard) (nonce : Vector UInt8 16) (now : Time) : Bytes :=
  d.sign (expiring (hexEncode nonce.toList) (now.add stateTTL).unix)

def Dashboard.checkState (d : Dashboard) (state : Bytes) (now : Time) : Bool :=
  ((d.unsign state).bind (fun msg => unexpired msg now)).isSome

def Dashboard.handleDashboard (d : Dashboard) (r : Request) : Response :=
  match d.currentUser r with
  | none => redirect r.method (ascii "/auth/login") none
  | some _ => ok "text/html; charset=utf-8" d.page

def Dashboard.handleData (d : Dashboard) (r : Request) : Response :=
  match d.currentUser r with
  | none => httpError "unauthorized" statusUnauthorized
  | some _ => ok "application/json" r.stats

def Dashboard.handleLogin (d : Dashboard) (r : Request) : Response :=
  redirect r.method (d.authorizeURL ++ ascii "?" ++ encodeValues
    [("allow_signup", ascii "false"),
      ("client_id", d.cfg.clientID),
      ("redirect_uri", d.redirectURI),
      ("scope", ascii "read:user"),
      ("state", d.newState r.nonce r.now)]) none

def Dashboard.handleCallback (go : GoStrings) (d : Dashboard) (r : Request) : Response :=
  if d.checkState ((getFirst (ascii "state") r.query).getD []) r.now = false then
    httpError "bad or expired state" statusBadRequest
  else
    let code := (getFirst (ascii "code") r.query).getD []
    if code = [] then httpError "missing code" statusBadRequest
    else
      match exchangeCode r.github code with
      | .error _ => httpError "oauth exchange failed" statusBadGateway
      | .ok token =>
          match fetchLogin r.github token with
          | .error _ => httpError "could not read GitHub user" statusBadGateway
          | .ok login =>
              if d.allowed go login = false then httpError "not authorized" statusForbidden
              else
                redirect r.method (ascii "/dashboard")
                  (httpSetCookie (d.setCookie login r.later))

def Dashboard.handleLogout (d : Dashboard) (r : Request) : Response :=
  redirect r.method (ascii "/auth/login") (httpSetCookie
    { name := d.cookieName
      value := []
      path := ascii "/"
      expires := none
      maxAge := -1
      httpOnly := true
      secure := true
      sameSite := .lax })

/-- The routes of `Register`. -/
def Dashboard.handle (go : GoStrings) (d : Dashboard) (r : Request) : Response :=
  match r.route with
  | .dashboard => d.handleDashboard r
  | .data => d.handleData r
  | .login => d.handleLogin r
  | .callback => d.handleCallback go r
  | .logout => d.handleLogout r

end Parley.Admin
