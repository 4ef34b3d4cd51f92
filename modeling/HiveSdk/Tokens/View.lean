import HiveSdk.Drive.World
import HiveSdk.Errors.Refresh

/-!
# The tokens of a session

What an observer of the calls knows about the tokens of a connect: which set of tokens was accepted last, and whether the access token has been turned away since. The token endpoint and the drive may answer anything; of the clock it is only known that it has left the epoch behind. In this world a look at the token leads to a token that may be sent, or changes nothing, and a request with the token leads to a token that may be sent again, or to one that has expired.
-/

namespace HiveSdk

open Interaction

/-- The tokens of a response that `decode_access_token` accepts. -/
def acceptedTokens (json : Json) : Option TokenSet := do
  let tokenType ← json.stringItem (bytes "token_type")
  let _ ← json.stringItem (bytes "scope")
  let accessToken ← json.stringItem (bytes "access_token")
  let refreshToken ← json.stringItem (bytes "refresh_token")
  let _ ← json.sizeItem (bytes "expires_in")
  return ⟨tokenType, accessToken, refreshToken⟩

def Url.isToken : Url → Bool
  | .token _ => true
  | _ => false

/-- The last source of the tokens, what has been escaped last and to what, whether it is a token response that is waited for, the tokens in it, and whether the present token has been turned away: before the last request, and by the answer to it. -/
structure TokenView where
  source : TokenSet
  escaped : Option (Bytes × Bytes) := none
  asking : Bool := false
  received : Option TokenSet := none
  stale : Bool := false
  refused : Bool := false
  deriving DecidableEq, Repr

namespace TokenView

/-- The answer is 401 to a request that carried the token. A body that exceeds any memory never arrives. -/
def refuses (req : Request) (reply : Reply) : Bool :=
  req.headers.any (fun header => header.1 = authorization)
    && decide (reply.answered = some HttpStatus.unauthorized) && decide (reply.body.length < 2 ^ 60)

def observe (v : TokenView) : Entry Event Event.Answer → TokenView
  | ⟨.perform req, reply⟩ =>
      { v with asking := req.url.isToken, received := none, stale := v.stale || v.refused,
               refused := refuses req reply }
  -- an answer for which there is no memory is a failed transfer
  | ⟨.realloc _, false⟩ => { v with refused := false }
  | ⟨.cjsonParse _, json⟩ =>
      { v with asking := false, received := if v.asking then json.bind acceptedTokens else none }
  | ⟨.strdup _, false⟩ => { v with received := none }
  | ⟨.escape text, answer⟩ => { v with escaped := answer.map fun escaped => (text, escaped) }
  -- the tokens are taken over when the time of their expiry is set
  | ⟨.gettimeofday, _⟩ =>
      match v.received with
      | none => v
      | some tokens => { source := tokens }
  | _ => v

def mustRefresh (v : TokenView) : Bool := v.stale || v.refused

/-- The form for the token endpoint, with the present refresh token as it has just been escaped. -/
def Posts (v : TokenView) (req : Request) : Prop :=
  ∃ url clientId redirectUri value, v.escaped = some (v.source.refreshToken, value)
    ∧ req = { method := .post, url := .token url,
              body := tokenForm clientId redirectUri (bytes "refresh_token") value (bytes "refresh_token") }

/-- A request with the token carries the one accepted last, one to the drive is not made with a token that has been turned away, and one to the token endpoint posts the refresh token accepted last. -/
def Allows (v : TokenView) : Event → Prop
  | .perform req => (∀ value, (authorization, value) ∈ req.headers → value = v.source.accessToken)
      ∧ (req.url.isToken = false → v.mustRefresh = false) ∧ (req.url.isToken = true → v.Posts req)
  | _ => True

/-- The clock shows a time after the epoch. -/
def Clocked : (e : Event) → e.Answer → Prop
  | .gettimeofday, now => now.after ⟨0, 0⟩
  | _, _ => True

def world : World Event Event.Answer TokenView where
  pre := Allows
  step v e r u := Clocked e r ∧ u = v.observe ⟨e, r⟩

/-- The calls that the observer has no use for. -/
def IsQuiet : Event → Prop
  | .perform _ | .escape _ | .realloc _ | .cjsonParse _ | .strdup _ | .gettimeofday => False
  | _ => True

/-- The token is the one the observer knows, and has expired if it has been turned away. -/
structure Matches (v : TokenView) (token : OAuthToken) : Prop where
  tokenType : token.tokenType = some v.source.tokenType
  accessToken : token.accessToken = some v.source.accessToken
  refreshToken : token.refreshToken = some v.source.refreshToken
  expired : v.mustRefresh → token.expiresAt = ⟨0, 0⟩
  settled : v.received = none

theorem Matches.complete {v : TokenView} {token : OAuthToken} (h : v.Matches token) : token.Complete :=
  ⟨by rw [h.tokenType]; rfl, by rw [h.accessToken]; rfl, by rw [h.refreshToken]; rfl⟩

/-- Between two calls. -/
def Kept (p : Process OneDriveConnect) (v : TokenView) : Prop := v.Matches p.conn.token

/-- The token may be sent. -/
structure Ready (p : Process OneDriveConnect) (v : TokenView) : Prop where
  kept : Kept p v
  fresh : v.mustRefresh = false

/-! ### Calls -/

section
variable {σ : Type} {p : Process σ} {v : TokenView}

theorem wp_call_quiet {e : Event} (he : IsQuiet e) {Q : e.Answer → Process σ → TokenView → Prop}
    (h : ∀ r, Q r p v) : Proc.wp world (call e) Q p v := by
  rw [Proc.wp_call]
  constructor
  · cases e <;> first | exact trivial | exact he.elim
  · rintro r u ⟨-, rfl⟩
    have hsame : v.observe ⟨e, r⟩ = v := by
      cases e <;> first | rfl | exact he.elim
    rw [hsame]
    exact h r

/-- A program that makes quiet calls only. -/
theorem wp_of_guard {α : Type} {m : Hive σ α} {P : α → Process σ → Prop} {Q : α → Process σ → TokenView → Prop}
    (h : Proc.wp (World.guard IsQuiet) m (fun a p' _ => P a p') p ()) (hQ : ∀ a p', P a p' → Q a p' v) :
    Proc.wp world m Q p v := by
  refine Proc.wp_frame h (I := (· = v)) ?_ ?_ rfl ?_
  · intro u e _ he
    cases e <;> first | exact trivial | exact he.elim
  · rintro u e r t rfl he ⟨-, rfl⟩
    cases e <;> first | rfl | exact he.elim
  · rintro a p' u hP rfl
    exact hQ a p' hP

theorem wp_call_clock {Q : Timeval → Process σ → TokenView → Prop}
    (h : ∀ now : Timeval, now.after ⟨0, 0⟩ → Q now p (v.observe ⟨.gettimeofday, now⟩)) :
    Proc.wp world (call .gettimeofday) Q p v := by
  rw [Proc.wp_call]
  refine ⟨trivial, ?_⟩
  rintro now u ⟨hnow, rfl⟩
  exact h now hnow

theorem wp_call_escape {text : Bytes} {Q : Option Bytes → Process σ → TokenView → Prop}
    (h : ∀ answer, Q answer p (v.observe ⟨.escape text, answer⟩)) : Proc.wp world (call (.escape text)) Q p v := by
  rw [Proc.wp_call]
  refine ⟨trivial, ?_⟩
  rintro answer u ⟨-, rfl⟩
  exact h answer

end

/-! ### Requests -/

/-- What the observer knows after a request that ends with a code of curl. -/
structure Answered (v : TokenView) (req : Request) (rc : CurlCode) (reply : Reply) (u : TokenView) : Prop where
  arrived : rc = 0 → u = v.observe ⟨.perform req, reply⟩ ∧ reply.code = 0
  failed : rc ≠ 0 → u = { v.observe ⟨.perform req, reply⟩ with refused := false }

theorem answered_eq (reply : Reply) (hrefuses : reply.answered ≠ some HttpStatus.unauthorized)
    (v : TokenView) (req : Request) :
    { v.observe ⟨.perform req, reply⟩ with refused := false } = v.observe ⟨.perform req, reply⟩ := by
  simp [observe, refuses, hrefuses]

section
variable {σ : Type} {p : Process σ} {v : TokenView} {req : Request}

theorem wp_httpClientRequest (h : v.Allows (.perform req)) {Q : CurlCode × Reply → Process σ → TokenView → Prop}
    (hQ : ∀ rc reply u, Answered v req rc reply u → Q (rc, reply) p u) :
    Proc.wp world (httpClientRequest req) Q p v := by
  rw [httpClientRequest, Proc.wp_bind, Proc.wp_call]
  refine ⟨h, ?_⟩
  rintro reply u ⟨-, rfl⟩
  apply hQ
  refine ⟨fun hcode => ⟨rfl, hcode⟩, fun hcode => (answered_eq reply ?_ v req).symm⟩
  rw [Reply.answered, if_neg fun hboth => hcode hboth.1]
  simp

theorem wp_deliver {chunks : List Bytes} (hbody : v.refused → chunks.flatten.length < 2 ^ 60)
    {Q : ResponseBody × Bool → Process σ → TokenView → Prop} (hok : ∀ response, Q (response, true) p v)
    (hfail : ∀ response, Q (response, false) p { v with refused := false }) :
    Proc.wp world (deliver .empty chunks) Q p v := by
  by_cases hrefused : v.refused
  · have hempty : ResponseBody.empty.used + chunks.flatten.length < 2 ^ 60 := by
      simpa [ResponseBody.empty] using hbody hrefused
    refine HiveSdk.wp_deliver (fun _ => trivial) ?_ ResponseBody.empty_wellSized hempty
      (fun response _ _ _ => hok response) ?_
    · rintro n u ⟨-, rfl⟩
      rfl
    · rintro n u ⟨-, rfl⟩ response
      exact hfail response
  · have hfresh : v.refused = false := by simpa using hrefused
    have hsame : { v with refused := false } = v := by rw [← hfresh]
    rw [hsame] at hfail
    refine wp_deliver_any (I := (· = v)) (fun _ _ _ => trivial) ?_ rfl ?_
    · rintro u n ok t rfl ⟨-, rfl⟩
      cases ok with
      | true => rfl
      | false => exact hsame
    · rintro response ok u rfl
      cases ok with
      | true => exact hok response
      | false => exact hfail response

theorem wp_httpClientRequestBody (h : v.Allows (.perform req))
    {Q : CurlCode × Reply × ResponseBody → Process σ → TokenView → Prop}
    (hQ : ∀ rc reply response u, Answered v req rc reply u → Q (rc, reply, response) p u) :
    Proc.wp world (httpClientRequestBody req) Q p v := by
  rw [httpClientRequestBody, Proc.wp_bind, Proc.wp_call]
  refine ⟨h, ?_⟩
  rintro reply u ⟨-, rfl⟩
  rw [Proc.wp_bind]
  apply wp_deliver
  · intro hrefused
    simp only [observe, refuses, Bool.and_eq_true, decide_eq_true_eq] at hrefused
    exact hrefused.2
  · intro response
    apply hQ
    refine ⟨fun hcode => ⟨rfl, hcode⟩, fun hcode => (answered_eq reply ?_ v req).symm⟩
    rw [Reply.answered, if_neg fun hboth => hcode hboth.1]
    simp
  · intro response
    apply hQ
    have hfails : CurlE.writeError ≠ 0 := by decide
    exact ⟨fun hcode => absurd hcode hfails, fun _ => rfl⟩

end

/-! ### Requests with the token -/

section
variable {p : Process OneDriveConnect} {v u : TokenView} {req : Request}

/-- The observer may learn anything that is not about the source. -/
theorem Kept.of_view (h : Kept p v) (hsource : u.source = v.source) (hreceived : u.received = none)
    (hexpired : u.mustRefresh → p.conn.token.expiresAt = ⟨0, 0⟩) : Kept p u where
  tokenType := by rw [hsource]; exact h.tokenType
  accessToken := by rw [hsource]; exact h.accessToken
  refreshToken := by rw [hsource]; exact h.refreshToken
  expired := hexpired
  settled := hreceived

theorem Kept.escaped (h : Kept p v) (text : Bytes) (answer : Option Bytes) : Kept p (v.observe ⟨.escape text, answer⟩) :=
  h.of_view rfl h.settled h.expired

theorem Kept.conn {p' : Process OneDriveConnect} (h : Kept p v) (hconn : p'.conn = p.conn) : Kept p' v := by
  rw [Kept, hconn]
  exact h

theorem Ready.conn {p' : Process OneDriveConnect} (h : Ready p v) (hconn : p'.conn = p.conn) : Ready p' v :=
  ⟨h.kept.conn hconn, h.fresh⟩

/-- The token is sent, and may be sent again unless the request fails. -/
structure Sent {α : Type} (result : Except Int α) (p' : Process OneDriveConnect) (u : TokenView) : Prop where
  failed : ∀ rc, result = .error rc → rc < 0 ∧ Kept p' u
  arrived : ∀ a, result = .ok a → Ready p' u ∧ u.asking = false

theorem Sent.error {α : Type} {rc : Int} (hrc : rc < 0) (h : Kept p u) : Sent (.error rc : Except Int α) p u := by
  refine ⟨fun err herr => ?_, fun a ha => by cases ha⟩
  cases herr
  exact ⟨hrc, h⟩

theorem Sent.ok {α : Type} {a : α} (h : Ready p u) (hasking : u.asking = false) :
    Sent (.ok a : Except Int α) p u :=
  ⟨fun rc hrc => (by cases hrc), fun _ _ => ⟨h, hasking⟩⟩

theorem sent_checkReply {rc : CurlCode} {reply : Reply} (h : Ready p v) (hanswered : Answered v req rc reply u)
    (hurl : req.url.isToken = false) :
    Proc.wp world (checkReply rc reply) (fun result p' t => Sent result p' t) p u := by
  have hstale : (v.stale || v.refused) = false := h.fresh
  have hready : u.source = v.source → u.received = none → u.stale = (v.stale || v.refused) →
      u.refused = false → Ready p u := by
    intro hsource hreceived hbefore hrefused
    have hmust : u.mustRefresh = false := by rw [mustRefresh, hbefore, hstale, hrefused]; rfl
    refine ⟨h.kept.of_view hsource hreceived fun hneeds => ?_, hmust⟩
    rw [hmust] at hneeds
    cases hneeds
  simp only [checkReply, Proc.wp_ite, Proc.wp_pure]
  refine ⟨fun hne => ?_, fun hrc => ?_⟩
  · obtain rfl := hanswered.failed hne
    exact .error (fails_hiveCurlError rc).neg (hready rfl rfl rfl rfl).kept
  obtain ⟨rfl, hcode⟩ := hanswered.arrived (not_not.1 hrc)
  have hunrefused : reply.answered ≠ some HttpStatus.unauthorized → refuses req reply = false := by
    intro hne
    simp [refuses, hne]
  refine ⟨fun hne => ?_, fun hinfo => ⟨fun h401 => ?_, fun h401 => ?_⟩⟩
  · have hnone : reply.answered ≠ some HttpStatus.unauthorized := by
      rw [Reply.answered, if_neg fun hboth => hne hboth.2]
      simp
    exact .error (fails_hiveCurlError _).neg (hready rfl rfl rfl (hunrefused hnone)).kept
  · simp only [oauthTokenSetExpired, Proc.wp_bind, wp_getToken, wp_setToken, Proc.wp_pure]
    refine .error (fails_hiveGeneralError (by decide)).neg ?_
    exact ⟨h.kept.tokenType, h.kept.accessToken, h.kept.refreshToken, fun _ => rfl, rfl⟩
  · have hstatus : reply.answered ≠ some HttpStatus.unauthorized := by
      rw [Reply.answered, if_pos ⟨hcode, not_not.1 hinfo⟩]
      simpa using h401
    exact .ok (hready rfl rfl rfl (hunrefused hstatus)) hurl

theorem Sent.map {α β : Type} {result : Except Int α} (f : α → β) (h : Sent result p u) : Sent (result.map f) p u := by
  cases result with
  | error rc => exact .error (h.failed rc rfl).1 (h.failed rc rfl).2
  | ok a => exact .ok (h.arrived a rfl).1 (h.arrived a rfl).2

theorem sent_sendAuthorized {enable : Bool} (h : Ready p v) (hurl : req.url.isToken = false)
    (hheaders : ∀ value, (authorization, value) ∉ req.headers) :
    Proc.wp world (sendAuthorized req enable) (fun result p' u => Sent result p' u) p v := by
  simp only [sendAuthorized, Proc.wp_bind, wp_getToken, h.kept.accessToken]
  have hallowed : v.Allows (.perform
      { req with headers := req.headers ++ [(authorization, v.source.accessToken)] }) := by
    refine ⟨fun value hvalue => ?_, fun _ => h.fresh, fun htoken => absurd (htoken.symm.trans hurl) (by decide)⟩
    rcases List.mem_append.1 hvalue with hmem | hmem
    · exact absurd hmem (hheaders value)
    · exact (Prod.mk.inj (List.mem_singleton.1 hmem)).2
  rcases enable with _ | _
  · rw [if_neg Bool.false_ne_true, Proc.wp_bind]
    apply wp_httpClientRequest hallowed
    intro rc reply u hanswered
    dsimp only
    rw [Proc.wp_bind]
    exact Proc.wp_mono (fun result p' t hsent => hsent.map _) (sent_checkReply h hanswered hurl)
  · rw [if_pos rfl, Proc.wp_bind]
    apply wp_httpClientRequestBody hallowed
    intro rc reply response u hanswered
    dsimp only
    rw [Proc.wp_bind]
    exact Proc.wp_mono (fun result p' t hsent => hsent.map _) (sent_checkReply h hanswered hurl)

end

end TokenView

end HiveSdk
