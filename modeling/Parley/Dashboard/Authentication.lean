/-
Who is served by the dashboard.

Session cookies and OAuth state tokens are signed with one key in one format.
The results say exactly which requests for the page or the statistics are
served: those with a live session cookie, and those that present a live state
token as their cookie.
-/

import Parley.Dashboard.Server
import Parley.Library.Run

namespace Parley.Admin

open Library
open Wire (Bytes)

theorem unsign_sign (d : Dashboard) (msg : Bytes) : d.unsign (d.sign msg) = some msg := by
  have plain : dot ∉ base64Encode msg :=
    fun member => (base64Encode_plain msg dot member).2 rfl
  unfold Dashboard.unsign Dashboard.sign
  rw [cut_append dot _ _ plain]
  simp only [Option.bind_eq_bind, Option.bind_some, base64Decode_base64Encode, if_true]

theorem parseInt64_formatInt_toInt (exp : Int64) :
    parseInt64 (formatInt exp.toInt) = some exp.toInt :=
  parseInt64_formatInt exp.toInt exp.le_toInt exp.toInt_lt

theorem unexpired_expiring (name : Bytes) (exp : Int64) (now : Time) (plain : bar ∉ name) :
    unexpired (expiring name exp) now =
      if exp.toInt < now.unix.toInt then none else some name := by
  unfold unexpired expiring
  rw [cut_append bar name _ plain]
  simp only [Option.bind_eq_bind, Option.bind_some, parseInt64_formatInt_toInt]

theorem unexpired_expiring_of_mem (name : Bytes) (exp : Int64) (now : Time)
    (present : bar ∈ name) : unexpired (expiring name exp) now = none := by
  unfold unexpired expiring
  cases split : cut bar (name ++ bar :: formatInt exp.toInt) with
  | none => rfl
  | some parts =>
      have inside : bar ∈ parts.2 :=
        mem_after_of_cut_append bar name _ parts.1 parts.2 present split
      have unread : parseInt64 parts.2 = none := by
        cases parsed : parseInt64 parts.2 with
        | none => rfl
        | some value =>
            rcases parseInt64_range parts.2 value parsed bar inside with sign | sign | digit
            · exact absurd sign (by decide)
            · exact absurd sign (by decide)
            · exact absurd digit.2 (by decide)
      simp only [Option.bind_eq_bind, Option.bind_some, unread, Option.bind_none]

theorem unexpired_expiring_isSome_iff (name : Bytes) (exp : Int64) (now : Time) :
    (unexpired (expiring name exp) now).isSome ↔ bar ∉ name ∧ now.unix ≤ exp := by
  rw [Int64.le_iff_toInt_le]
  by_cases present : bar ∈ name
  · rw [unexpired_expiring_of_mem name exp now present]
    simp [present]
  · rw [unexpired_expiring name exp now present]
    split
    · rename_i late
      simp only [Option.isSome_none, Bool.false_eq_true, false_iff, not_and, Int.not_le]
      exact fun _ => late
    · rename_i early
      simp only [Option.isSome_some, true_iff]
      exact ⟨present, Int.not_lt.mp early⟩

theorem bar_not_mem_hexEncode (bytes : Bytes) : bar ∉ hexEncode bytes := by
  intro member
  rcases hexEncode_range bytes bar member with digit | letter
  · exact absurd digit.2 (by decide)
  · exact absurd letter.2 (by decide)

def Served (go : GoStrings) (d : Dashboard) (r : Request) : Prop :=
  (r.route = .dashboard ∨ r.route = .data) ∧ (d.handle go r).status = statusOK

instance (go : GoStrings) (d : Dashboard) (r : Request) : Decidable (Served go d r) :=
  inferInstanceAs (Decidable (_ ∧ _))

theorem served_iff (go : GoStrings) (d : Dashboard) (r : Request) :
    Served go d r ↔
      (r.route = .dashboard ∨ r.route = .data) ∧
        ∃ value msg, getFirst d.cookieName r.cookies = some value ∧
          d.unsign value = some msg ∧ (unexpired msg r.now).isSome := by
  have user : (d.currentUser r).isSome ↔
      ∃ value msg, getFirst d.cookieName r.cookies = some value ∧
        d.unsign value = some msg ∧ (unexpired msg r.now).isSome := by
    simp only [Dashboard.currentUser, Option.bind_eq_bind, Option.isSome_iff_exists,
      Option.bind_eq_some_iff]
    constructor
    · rintro ⟨login, value, found, msg, read, live⟩
      exact ⟨value, msg, found, read, login, live⟩
    · rintro ⟨value, msg, found, read, login, live⟩
      exact ⟨login, value, found, msg, read, live⟩
  unfold Served
  rw [← user]
  apply and_congr_right
  rintro (route | route)
  · simp only [Dashboard.handle, route, Dashboard.handleDashboard]
    cases d.currentUser r with
    | none => simp [redirect, statusFound, statusOK]
    | some login => simp [ok]
  · simp only [Dashboard.handle, route, Dashboard.handleData]
    cases d.currentUser r with
    | none => simp [httpError, statusUnauthorized, statusOK]
    | some login => simp [ok]

variable {d : Dashboard} {issuer r : Request} {cookie : Cookie} {go : GoStrings}

theorem served_of_signed (go : GoStrings) {name : Bytes} {exp : Int64}
    (route : r.route = .dashboard ∨ r.route = .data)
    (carried : getFirst d.cookieName r.cookies = some (d.sign (expiring name exp)))
    (plain : bar ∉ name) (live : r.now.unix ≤ exp) : Served go d r := by
  rw [served_iff]
  refine ⟨route, _, _, carried, unsign_sign d _, ?_⟩
  exact (unexpired_expiring_isSome_iff name exp r.now).mpr ⟨plain, live⟩

theorem checkState_newState (d : Dashboard) (nonce : Vector UInt8 16) (issued now : Time) :
    d.checkState (d.newState nonce issued) now = true ↔
      now.unix ≤ (issued.add stateTTL).unix := by
  unfold Dashboard.checkState Dashboard.newState
  rw [unsign_sign, Option.bind_some, unexpired_expiring_isSome_iff]
  exact and_iff_right (bar_not_mem_hexEncode _)

/-- The callback `issuer` was for an allowed login, and its response sets the
session cookie of that login. -/
def IssuesCookie (go : GoStrings) (d : Dashboard) (issuer : Request) (cookie : Cookie) : Prop :=
  issuer.route = .callback ∧
    ∃ code token login, getFirst (ascii "code") issuer.query = some code ∧
      exchangeCode issuer.github code = .ok token ∧ fetchLogin issuer.github token = .ok login ∧
      d.allowed go login = true ∧ cookie = d.setCookie login issuer.later ∧
      (d.handle go issuer).setCookie = some cookie

/-- The response to a sign-in request carries the token in its redirect. -/
def IssuesState (d : Dashboard) (issuer : Request) (token : Bytes) : Prop :=
  issuer.route = .login ∧ token = d.newState issuer.nonce issuer.now

/-- The tokens `sign` returned while the response was made. -/
def signed (go : GoStrings) (d : Dashboard) (issuer : Request) : List Bytes :=
  match issuer.route with
  | .login => [d.newState issuer.nonce issuer.now]
  | .callback => ((d.handle go issuer).setCookie.map Cookie.value).toList
  | _ => []

/-- The token a request presents to `unsign`. -/
def presented (d : Dashboard) (r : Request) : Option Bytes :=
  match r.route with
  | .dashboard => getFirst d.cookieName r.cookies
  | .data => getFirst d.cookieName r.cookies
  | .callback => some ((getFirst (ascii "state") r.query).getD [])
  | _ => none

/-- Requests are answered one after another; the log keeps those answered. -/
def answer (log : List Request) (r : Request) : Option (List Request) :=
  some (log ++ [r])

/-- Unforgeability: a token that verifies was returned by `sign` before. -/
def Unforged (go : GoStrings) (d : Dashboard) (log : List Request) (r : Request) : Prop :=
  ∀ token ∈ presented d r, (d.unsign token).isSome → token ∈ log.flatMap (signed go d)

instance (go : GoStrings) (d : Dashboard) (log : List Request) (r : Request) :
    Decidable (Unforged go d log r) :=
  inferInstanceAs (Decidable (∀ _ ∈ _, _ → _))

/-- Whoever is served presents a cookie that an earlier callback issued to an
allowed login, not after the second at which it expires. -/
def ServedAuthentic (go : GoStrings) (d : Dashboard) (log : List Request) (r : Request) : Prop :=
  Served go d r →
    ∃ issuer ∈ log, ∃ cookie exp, IssuesCookie go d issuer cookie ∧
      getFirst d.cookieName r.cookies = some cookie.value ∧
      cookie.expires = some exp ∧ r.now.unix ≤ exp.unix

/-- A request for the page or the statistics presents as its cookie a state
token of an earlier sign-in that is still live and was never issued as a
cookie. -/
def ReplaysState (go : GoStrings) (d : Dashboard) (log : List Request) (r : Request) : Prop :=
  (r.route = .dashboard ∨ r.route = .data) ∧
    ∃ issuer ∈ log, ∃ token, IssuesState d issuer token ∧
      getFirst d.cookieName r.cookies = some token ∧
      r.now.unix ≤ (issuer.now.add stateTTL).unix ∧
      ∀ other ∈ log, ∀ cookie, IssuesCookie go d other cookie → cookie.value ≠ token

theorem issuesCookie_of_setCookie (route : issuer.route = .callback)
    (sent : (d.handle go issuer).setCookie = some cookie) : IssuesCookie go d issuer cookie := by
  refine ⟨route, ?_⟩
  have kept := sent
  simp only [Dashboard.handle, route, Dashboard.handleCallback] at sent
  split at sent
  · cases sent
  · split at sent
    · cases sent
    · rename_i code
      cases query : getFirst (ascii "code") issuer.query with
      | none => exact absurd (by rw [query]; rfl) code
      | some text =>
          rw [query] at sent
          split at sent
          · cases sent
          · rename_i token exchanged
            split at sent
            · cases sent
            · rename_i login fetched
              split at sent
              · cases sent
              · rename_i allowed
                obtain ⟨_, same⟩ := Option.ite_none_right_eq_some.mp sent
                refine ⟨text, token, login, rfl, exchanged, fetched, ?_, ?_, kept⟩
                · exact Bool.not_eq_false _ ▸ allowed
                · exact (Option.some.inj same).symm

theorem mem_signed_iff (go : GoStrings) (d : Dashboard) (issuer : Request) (token : Bytes) :
    token ∈ signed go d issuer ↔
      IssuesState d issuer token ∨
        ∃ cookie, IssuesCookie go d issuer cookie ∧ cookie.value = token := by
  unfold signed
  constructor
  · intro member
    split at member
    · rename_i route
      exact Or.inl ⟨route, List.mem_singleton.mp member⟩
    · rename_i route
      rw [Option.mem_toList, Option.map_eq_some_iff] at member
      obtain ⟨cookie, sent, value⟩ := member
      exact Or.inr ⟨cookie, issuesCookie_of_setCookie route sent, value⟩
    · cases member
  · rintro (⟨route, same⟩ | ⟨cookie, ⟨route, _, _, _, _, _, _, _, _, sent⟩, value⟩)
    · rw [route, same]
      exact List.mem_singleton_self _
    · rw [route]
      simp only [sent, Option.map_some, value, Option.toList_some, List.mem_singleton]

/-- A cookie a callback issued is accepted until its expiry, unless the login
has a separator in it. -/
theorem unsign_issued_cookie (issued : IssuesCookie go d issuer cookie) :
    ∃ login exp, cookie.expires = some exp ∧
      d.unsign cookie.value = some (expiring login exp.unix) := by
  obtain ⟨_, _, _, login, _, _, _, _, same, _⟩ := issued
  refine ⟨login, issuer.later.add sessionTTL, ?_, ?_⟩
  · rw [same]
    rfl
  · rw [same]
    exact unsign_sign d _

theorem presented_eq_cookie (route : r.route = .dashboard ∨ r.route = .data) :
    presented d r = getFirst d.cookieName r.cookies := by
  unfold presented
  rcases route with route | route <;> rw [route]

/-- One request: it is served only with an authentic cookie exactly when it does
not replay a state token. -/
theorem servedAuthentic_iff (go : GoStrings) (d : Dashboard) (log : List Request) (r : Request)
    (unforged : Unforged go d log r) :
    ServedAuthentic go d log r ↔ ¬ReplaysState go d log r := by
  constructor
  · rintro authentic ⟨route, issuer, member, token, ⟨_, same⟩, carried, live, fresh⟩
    have served : Served go d r := by
      rw [same] at carried
      exact served_of_signed go route carried (bar_not_mem_hexEncode _) live
    obtain ⟨other, present, cookie, _, issued, found, _⟩ := authentic served
    exact fresh other present cookie issued (Option.some.inj (found.symm.trans carried))
  · intro notReplayed served
    obtain ⟨route, token, msg, carried, read, live⟩ := (served_iff go d r).mp served
    have known : token ∈ log.flatMap (signed go d) := by
      apply unforged token
      · rw [presented_eq_cookie route]
        exact carried
      · rw [read]
        rfl
    -- a token issued both as a state and as a cookie is authentic
    by_cases asCookie : ∃ issuer ∈ log, ∃ cookie, IssuesCookie go d issuer cookie ∧
        cookie.value = token
    · obtain ⟨issuer, member, cookie, issued, value⟩ := asCookie
      obtain ⟨login, exp, expires, content⟩ := unsign_issued_cookie issued
      rw [value, read] at content
      rw [Option.some.inj content, unexpired_expiring_isSome_iff] at live
      exact ⟨issuer, member, cookie, exp, issued, value ▸ carried, expires, live.2⟩
    · exfalso
      apply notReplayed
      obtain ⟨issuer, member, signedHere⟩ := List.mem_flatMap.mp known
      rcases (mem_signed_iff go d issuer token).mp signedHere with state | ⟨cookie, issued, value⟩
      · refine ⟨route, issuer, member, token, state, carried, ?_, ?_⟩
        · rw [state.2, Dashboard.newState, unsign_sign] at read
          rw [← Option.some.inj read, unexpired_expiring_isSome_iff] at live
          exact live.2
        · intro other present cookie issued value
          exact asCookie ⟨other, present, cookie, issued, value⟩
      · exact absurd ⟨issuer, member, cookie, issued, value⟩ asCookie

/-- In every sequence of requests without forged tokens, the page and the
statistics are served only for authentic, unexpired session cookies exactly
when no request replays a live state token as its cookie. -/
theorem served_authentic_iff_no_state_replayed (go : GoStrings) (d : Dashboard)
    (requests : List Request) (unforged : Along answer (Unforged go d) [] requests) :
    Along answer (ServedAuthentic go d) [] requests ↔
      Along answer (fun log r => ¬ReplaysState go d log r) [] requests :=
  Along.iff_of_imp (servedAuthentic_iff go d) unforged

def asciiStrings : GoStrings :=
  let fold := List.map (fun byte : UInt8 => if 65 ≤ byte ∧ byte ≤ 90 then byte + 32 else byte)
  let trim := List.dropWhile (fun byte : UInt8 => byte == 32)
  { trimSpace := fun text => (trim (trim text).reverse).reverse
    equalFold := fun left right => fold left == fold right }

def exampleDashboard : Dashboard :=
  new id
    { clientID := ascii "client"
      clientSecret := ascii "secret"
      cookieKey := ascii "0123456789abcdef0123456789abcdef"
      allow := [ascii " octocat"]
      baseURL := ascii "https://myapp.example.com/"
      appName := [] }

/-- A request at a Unix second, to which GitHub answers with the login
`Octocat`. -/
def requestAt (second : Int64) (route : Route) (cookie : Option Bytes)
    (query : List (Bytes × Bytes)) : Request :=
  let now : Time := { sec := unixToInternal + second }
  { method := .get
    route := route
    cookies := (cookie.map (fun value => (ascii "parley_admin", value))).toList
    query := query
    now := now
    later := now
    nonce := Vector.replicate 16 0xa7
    github :=
      { accessToken := fun _ => some (ascii "token")
        login := fun _ => some (ascii "Octocat") }
    stats := ascii "stats" }

def signIn : Request := requestAt 1700000000 .login none []

def stateToken : Bytes := exampleDashboard.newState signIn.nonce signIn.now

def signedIn : Request :=
  requestAt 1700000060 .callback none
    [(ascii "state", stateToken), (ascii "code", ascii "code")]

def sessionCookie : Cookie := exampleDashboard.setCookie (ascii "Octocat") signedIn.later

def visit : Request := requestAt 1700000120 .data (some sessionCookie.value) []

theorem signedIn_issuesCookie :
    IssuesCookie asciiStrings exampleDashboard signedIn sessionCookie := by
  apply issuesCookie_of_setCookie rfl
  have checked : exampleDashboard.checkState stateToken signedIn.now = true :=
    (checkState_newState exampleDashboard signIn.nonce signIn.now signedIn.now).mpr (by decide)
  have state : (getFirst (ascii "state") signedIn.query).getD [] = stateToken := rfl
  change (exampleDashboard.handleCallback asciiStrings signedIn).setCookie = some sessionCookie
  unfold Dashboard.handleCallback
  rw [state, checked]
  rfl

theorem visit_served_authentic :
    Served asciiStrings exampleDashboard visit ∧
      Along answer (ServedAuthentic asciiStrings exampleDashboard) []
        [signIn, signedIn, visit] := by
  have unforged : Along answer (Unforged asciiStrings exampleDashboard) []
      [signIn, signedIn, visit] := by
    refine ⟨?_, fun _ first => ⟨?_, fun _ second => ⟨?_, fun _ _ => trivial⟩⟩⟩
    · intro _ none
      cases none
    · cases first
      intro token same _
      cases same
      exact List.mem_singleton_self stateToken
    · cases first
      cases second
      intro token same _
      cases same
      apply List.mem_flatMap.mpr
      refine ⟨signedIn, by simp, (mem_signed_iff _ _ _ _).mpr (Or.inr ?_)⟩
      exact ⟨sessionCookie, signedIn_issuesCookie, rfl⟩
  refine ⟨served_of_signed _ (Or.inr rfl) rfl (by decide) (by decide), ?_⟩
  apply (served_authentic_iff_no_state_replayed asciiStrings exampleDashboard _ unforged).mpr
  refine ⟨?_, fun _ first => ⟨?_, fun _ second => ⟨?_, fun _ _ => trivial⟩⟩⟩
  · rintro ⟨route | route, _⟩ <;> cases route
  · rintro ⟨route | route, _⟩ <;> cases route
  · cases first
    cases second
    rintro ⟨_, _, _, token, _, carried, _, fresh⟩
    have same : sessionCookie.value = token := Option.some.inj carried
    exact fresh signedIn (by simp) sessionCookie signedIn_issuesCookie same

/-- The state token of a sign-in nobody completed, presented as a cookie. -/
def intruder : Request := requestAt 1700000120 .data (some stateToken) []

theorem state_token_opens_dashboard :
    ¬∀ (go : GoStrings) (d : Dashboard) (requests : List Request),
      Along answer (Unforged go d) [] requests →
        Along answer (ServedAuthentic go d) [] requests := by
  intro claimed
  have unforged : Along answer (Unforged asciiStrings exampleDashboard) []
      [signIn, intruder] := by
    refine ⟨?_, fun _ first => ⟨?_, fun _ _ => trivial⟩⟩
    · intro _ none
      cases none
    · cases first
      intro token same _
      cases same
      exact List.mem_singleton_self stateToken
  have served : Served asciiStrings exampleDashboard intruder :=
    served_of_signed _ (Or.inr rfl) rfl (bar_not_mem_hexEncode _) (by decide)
  have authentic := (claimed asciiStrings exampleDashboard _ unforged).2 [signIn] rfl
  obtain ⟨issuer, member, _, _, ⟨route, _⟩, _⟩ := authentic.1 served
  rw [List.mem_singleton.mp member] at route
  cases route

/-! ### A completed sign-in -/

/-- A sign-in works: an allowed login that comes back with its state in time is the
current user of every request with its cookie, until the cookie expires. -/
theorem sign_in_lasts (go : GoStrings) (d : Dashboard) (start callback : Request)
    (code token login : Bytes) (route : callback.route = .callback)
    (state : getFirst (ascii "state") callback.query = some (d.newState start.nonce start.now))
    (prompt : callback.now.unix ≤ (start.now.add stateTTL).unix)
    (coded : getFirst (ascii "code") callback.query = some code) (given : code ≠ [])
    (exchanged : exchangeCode callback.github code = .ok token)
    (fetched : fetchLogin callback.github token = .ok login)
    (allowed : d.allowed go login = true) (plain : bar ∉ login)
    (named : isToken d.cookieName = true) :
    ∃ cookie, (d.handle go callback).setCookie = some cookie ∧
      ∀ r : Request, getFirst d.cookieName r.cookies = some cookie.value →
        d.currentUser r =
          if (callback.later.add sessionTTL).unix.toInt < r.now.unix.toInt then none
          else some login := by
  have live := (checkState_newState d start.nonce start.now callback.now).mpr prompt
  refine ⟨d.setCookie login callback.later, ?_, fun r carried => ?_⟩
  · simp only [Dashboard.handle, route, Dashboard.handleCallback, state, coded, Option.getD_some,
      live, Bool.true_eq_false, if_false, if_neg given, exchanged, fetched, allowed]
    exact if_pos named
  · simp only [Dashboard.currentUser, carried, Option.bind_eq_bind, Option.bind_some,
      Dashboard.setCookie, unsign_sign, unexpired_expiring login _ r.now plain]

/-- Of the two requests with the cookie the second comes a week too late. -/
theorem sign_in_lasts_a_week :
    exampleDashboard.currentUser visit = some (ascii "Octocat") ∧
      exampleDashboard.currentUser (requestAt 1700700000 .data (some sessionCookie.value) []) =
        none := by
  obtain ⟨cookie, sent, user⟩ := sign_in_lasts asciiStrings exampleDashboard signIn signedIn
    (ascii "code") (ascii "token") (ascii "Octocat") rfl rfl (by decide) rfl (by decide) rfl rfl
    (by decide) (by decide) (by decide)
  obtain ⟨_, _, _, _, _, _, _, _, _, issued⟩ := signedIn_issuesCookie
  cases issued.symm.trans sent
  exact ⟨user visit rfl, user (requestAt 1700700000 .data (some sessionCookie.value) []) rfl⟩

end Parley.Admin
