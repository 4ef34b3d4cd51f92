import HiveSdk.Interaction.Observe
import HiveSdk.Errors.Codes

/-!
# Refreshes in any environment

Before an operation makes requests of its own it looks at the token. The guard worlds below say, once for all environments, which calls that can lead to and what it can come back with: a failed refresh leaves the connect as it was, and a successful one leaves a complete token.
-/

namespace HiveSdk

open Interaction

/-- Those of the calls below that reach nobody but the C library and cJSON. -/
def TokenLocal : Event → Prop
  | .gettimeofday | .escape _ | .realloc _ | .heapAfter _ | .cjsonParse _ | .strdup _ => True
  | .cjsonCreate | .cjsonPrint _ | .openFile _ .wronlyTruncCreat | .write _ _ => True
  | _ => False

/-- The calls that write the keystore. -/
def StoreCall : Event → Prop
  | .cjsonCreate | .cjsonPrint _ | .openFile _ .wronlyTruncCreat | .write _ _ => True
  | _ => False

/-- The calls that copy the members of a parsed token response. -/
def CopyCall : Event → Prop
  | .gettimeofday | .strdup _ => True
  | _ => False

/-- The request for new tokens. -/
def TokenRequest (req : Request) : Prop :=
  ∃ url body, req = { method := .post, url := .token url, body := body }

/-- The calls by which tokens are requested: requests go to the token endpoint only. -/
def TokenCall : Event → Prop
  | .perform req => TokenRequest req
  | .httpClientNew caller => caller = .refreshAccessToken ∨ caller = .redeemAccessToken
  | .undefined => True
  | e => TokenLocal e

/-- Those of them that come before a keystore is written. -/
def AskCall : Event → Prop
  | .perform req => TokenRequest req
  | .httpClientNew caller => caller = .refreshAccessToken ∨ caller = .redeemAccessToken
  | .gettimeofday | .escape _ | .realloc _ | .heapAfter _ | .cjsonParse _ | .strdup _ | .undefined => True
  | _ => False

theorem AskCall.tokenCall {e : Event} (h : AskCall e) : TokenCall e := by
  cases e <;> first | exact h | exact h.elim

theorem CopyCall.askCall {e : Event} (h : CopyCall e) : AskCall e := by
  cases e <;> first | exact h | exact h.elim

theorem TokenLocal.tokenCall {e : Event} (h : TokenLocal e) : TokenCall e := by
  cases e <;> first | exact h | exact h.elim

theorem StoreCall.tokenLocal {e : Event} (h : StoreCall e) : TokenLocal e := by
  cases e with
  | openFile path mode => cases mode <;> exact h
  | cjsonCreate | cjsonPrint | write => trivial
  | _ => exact h.elim

/-- What a token function returns: one of some errors with the connect as it was, or success with a complete token. -/
structure TokenResult (errors : Int → Prop) (p : Process OneDriveConnect) (rc : Int)
    (p' : Process OneDriveConnect) : Prop where
  failed : rc < 0 → errors rc ∧ p'.conn = p.conn
  succeeded : ¬ rc < 0 → rc = 0 ∧ p'.conn.token.Complete

/-- The same for a look at the token, which a valid token passes unchanged. -/
structure CheckResult (p : Process OneDriveConnect) (rc : Int) (p' : Process OneDriveConnect) :
    Prop where
  failed : rc < 0 → IntError rc ∧ p'.conn = p.conn
  succeeded : ¬ rc < 0 → rc = 0 ∧ (p'.conn = p.conn ∨ p'.conn.token.Complete)

namespace TokenResult

variable {errors : Int → Prop} {p p' : Process OneDriveConnect} {rc : Int}

theorem fails (hrc : Fails rc) (hconn : p'.conn = p.conn) : TokenResult Fails p rc p' :=
  ⟨fun _ => ⟨hrc, hconn⟩, fun h => absurd hrc.neg h⟩

theorem fail (hrc : IntError rc) (hconn : p'.conn = p.conn) : TokenResult IntError p rc p' :=
  ⟨fun _ => ⟨hrc, hconn⟩, fun h => absurd hrc.neg h⟩

theorem success (h : p'.conn.token.Complete) : TokenResult errors p 0 p' :=
  ⟨fun hneg => absurd hneg (by decide), fun _ => ⟨rfl, h⟩⟩

end TokenResult

section
variable {p : Process OneDriveConnect}

/-! ### Decoding a token response -/

/-- A token response is taken over as a whole or not at all. How the parser is called is left open. -/
theorem wp_decodeAccessToken_any {τ : Type} {W : World Event Event.Answer τ} {s : τ} {I : τ → Prop} {body : HeapBlock}
    {Q : Int → Process OneDriveConnect → τ → Prop}
    (hparse : ∀ P : Option Json → Process OneDriveConnect → τ → Prop, (∀ json t, I t → P json p t) →
      Proc.wp W (cjsonParse body) P p s)
    (hpre : ∀ t e, I t → CopyCall e → W.pre t e) (hstep : ∀ t e r u, I t → CopyCall e → W.step t e r u → I u)
    (hQ : ∀ rc p' t, I t → TokenResult Fails p rc p' → Q rc p' t) :
    Proc.wp W (decodeAccessToken body) Q p s := by
  have hbad : Fails (cInt (hiveGeneralError HiveErr.badJsonFormat)) :=
    fails_hiveGeneralError (by decide)
  have hstrdup {t : τ} {text : Bytes} {p : Process OneDriveConnect} {P : Bool → Process OneDriveConnect → τ → Prop}
      (ht : I t) (hP : ∀ ok e t, I t → P ok { p with errno := e } t) : Proc.wp W (strdup text) P p t := by
    rw [strdup, Proc.wp_bind, Proc.wp_call]
    refine ⟨hpre t _ ht trivial, fun ok u hu => ?_⟩
    have hI := hstep t _ ok u ht trivial hu
    cases ok with
    | false => exact hP false Errno.ENOMEM u hI
    | true => exact hP true p.errno u hI
  rw [decodeAccessToken, Proc.wp_bind]
  apply hparse
  intro json t₀ ht₀
  rcases json with _ | json
  · exact hQ _ _ _ ht₀ (.fails hbad rfl)
  dsimp only
  rcases json.stringItem (bytes "token_type") with _ | tokenType
  · exact hQ _ _ _ ht₀ (.fails hbad rfl)
  dsimp only
  rw [Proc.wp_bind]
  apply hstrdup ht₀
  intro ok e t₁ ht₁
  simp only [Proc.wp_ite, Proc.wp_bind, Proc.wp_pure, Proc.wp_get]
  refine ⟨fun _ => hQ _ _ _ ht₁ (.fails (fails_hiveSysError e) rfl), fun _ => ?_⟩
  rcases json.stringItem (bytes "scope") with _ | scope
  · exact hQ _ _ _ ht₁ (.fails hbad rfl)
  dsimp only
  rcases json.stringItem (bytes "access_token") with _ | accessToken
  · exact hQ _ _ _ ht₁ (.fails hbad rfl)
  dsimp only
  rw [Proc.wp_bind]
  apply hstrdup ht₁
  intro ok e t₂ ht₂
  simp only [Proc.wp_ite, Proc.wp_bind, Proc.wp_pure, Proc.wp_get]
  refine ⟨fun _ => hQ _ _ _ ht₂ (.fails (fails_hiveSysError e) rfl), fun _ => ?_⟩
  rcases json.stringItem (bytes "refresh_token") with _ | refreshToken
  · exact hQ _ _ _ ht₂ (.fails hbad rfl)
  dsimp only
  rw [Proc.wp_bind]
  apply hstrdup ht₂
  intro ok e t₃ ht₃
  simp only [Proc.wp_ite, Proc.wp_bind, Proc.wp_pure, Proc.wp_get]
  refine ⟨fun _ => hQ _ _ _ ht₃ (.fails (fails_hiveSysError e) rfl), fun _ => ?_⟩
  rcases json.sizeItem (bytes "expires_in") with _ | expiresIn
  · exact hQ _ _ _ ht₃ (.fails hbad rfl)
  dsimp only
  rw [Proc.wp_bind, Proc.wp_call]
  refine ⟨hpre t₃ _ ht₃ trivial, fun now t₄ ht₄ => ?_⟩
  simp only [Proc.wp_bind, wp_getToken, wp_setToken, Proc.wp_pure]
  exact hQ _ _ _ (hstep t₃ _ now t₄ ht₃ trivial ht₄) (.success ⟨rfl, rfl, rfl⟩)

theorem guard_decodeAccessToken {body : HeapBlock} :
    Proc.wp (World.guard AskCall) (decodeAccessToken body) (fun rc p' _ => TokenResult Fails p rc p') p () := by
  apply wp_decodeAccessToken_any (I := fun _ => True)
  · intro P hP
    exact wp_cjsonParse_any trivial (fun _ _ _ => rfl) trivial (fun _ => trivial) (fun _ _ _ _ => rfl)
      fun json => hP json () trivial
  · exact fun _ e _ he => he.askCall
  · exact fun _ _ _ _ _ _ _ => trivial
  · exact fun _ _ _ _ h => h

/-! ### Writing the keystore -/

private theorem wp_addItem {τ : Type} {W : World Event Event.Answer τ} {s : τ}
    {members : List (Bytes × Json)} {name : Bytes} {value : Json}
    {Q : List (Bytes × Json) → Process OneDriveConnect → τ → Prop} (hpre : W.pre s .cjsonCreate)
    (hquiet : ∀ r t, W.step s .cjsonCreate r t → t = s) (h : ∀ members', Q members' p s) :
    Proc.wp W (addItem members name value) Q p s := by
  rw [addItem, Proc.wp_bind, Proc.wp_call]
  refine ⟨hpre, fun created t hstep => ?_⟩
  obtain rfl := hquiet _ _ hstep
  rw [Proc.wp_ite]
  exact ⟨fun _ => h _, fun _ => h _⟩

/-- To write tokens back is to write some object to the keystore, or nothing. -/
theorem wp_writebackTokens_of {τ : Type} {W : World Event Event.Answer τ} {s : τ}
    {Q : Unit → Process OneDriveConnect → τ → Prop} (hpre : W.pre s .cjsonCreate)
    (hquiet : ∀ r t, W.step s .cjsonCreate r t → t = s)
    (hundefined : ¬ p.conn.token.Complete → W.pre s .undefined) (hnone : Q () p s)
    (hwrite : ∀ members, Proc.wp W (oauthWriteback (.object members)) (fun _ => Q ()) p s) :
    Proc.wp W writebackTokens Q p s := by
  simp only [writebackTokens, Proc.wp_bind, wp_getToken, Proc.wp_call]
  refine ⟨hpre, fun created t hstep => ?_⟩
  obtain rfl := hquiet _ _ hstep
  rw [Proc.wp_ite]
  refine ⟨fun _ => hnone, fun _ => ?_⟩
  rw [Proc.wp_bind]
  apply wp_addItem hpre hquiet
  intro members
  have hnever : ¬ p.conn.token.Complete → ∀ k : List (Bytes × Json) → Hive OneDriveConnect Unit,
      Proc.wp W (undefinedBehaviour >>= k) Q p t := by
    intro hnot k
    rw [Proc.wp_bind]
    exact (wp_undefinedBehaviour ..).2 (hundefined hnot)
  rcases p.conn.token.tokenType with _ | tokenType
  · dsimp only
    rw [Proc.wp_bind, Proc.wp_pure, Proc.wp_bind]
    exact hwrite members
  rcases haccess : p.conn.token.accessToken with _ | accessToken
  · apply hnever
    intro hcomplete
    have hsome := hcomplete.accessToken
    rw [haccess] at hsome
    cases hsome
  rcases hrefresh : p.conn.token.refreshToken with _ | refreshToken
  · apply hnever
    intro hcomplete
    have hsome := hcomplete.refreshToken
    rw [hrefresh] at hsome
    cases hsome
  simp only [Proc.wp_bind]
  apply wp_addItem hpre hquiet
  intro members₁
  rw [Proc.wp_bind]
  apply wp_addItem hpre hquiet
  intro members₂
  rw [Proc.wp_bind]
  apply wp_addItem hpre hquiet
  intro members₃
  rw [Proc.wp_bind]
  apply wp_addItem hpre hquiet
  intro members₄
  rw [Proc.wp_bind]
  exact hwrite members₄

private theorem guard_oauthWriteback {json : Json}
    {Q : Int → Process OneDriveConnect → Unit → Prop}
    (h : ∀ rc (p' : Process OneDriveConnect), p'.conn = p.conn → Q rc p' ()) :
    Proc.wp (World.guard StoreCall) (oauthWriteback json) Q p () := by
  rw [oauthWriteback, Proc.wp_bind, Proc.wp_guard_call]
  refine ⟨trivial, fun text => ?_⟩
  rcases text with _ | text
  · exact h _ p rfl
  simp only [Proc.wp_ite, Proc.wp_bind, Proc.wp_pure, wp_getConn]
  refine ⟨fun _ => h _ p rfl, fun _ => ?_⟩
  rw [Proc.wp_guard_call]
  refine ⟨trivial, fun opened => ?_⟩
  rcases opened with e | _
  · exact h _ _ rfl
  simp only [Proc.wp_bind]
  rw [Proc.wp_guard_call]
  refine ⟨trivial, fun written => ?_⟩
  rcases written with e | n <;> simp only [Proc.wp_bind, Proc.wp_ite, Proc.wp_pure, wp_setErrno,
    Proc.wp_get]
  · exact ⟨fun _ => h _ _ rfl, fun _ => h _ _ rfl⟩
  · exact ⟨fun _ => h _ _ rfl, fun _ => h _ _ rfl⟩

/-- Whether the keystore could be written leaves no trace in the connect. -/
theorem guard_writebackTokens_store {Q : Unit → Process OneDriveConnect → Unit → Prop}
    (hcomplete : p.conn.token.Complete)
    (h : ∀ p' : Process OneDriveConnect, p'.conn = p.conn → Q () p' ()) :
    Proc.wp (World.guard StoreCall) writebackTokens Q p () := by
  apply wp_writebackTokens_of
  · trivial
  · exact fun _ _ _ => rfl
  · exact fun hnot => absurd hcomplete hnot
  · exact h p rfl
  · intro members
    apply guard_oauthWriteback
    intro _ p' hp'
    exact h p' hp'

theorem guard_writebackTokens {Q : Unit → Process OneDriveConnect → Unit → Prop}
    (hcomplete : p.conn.token.Complete)
    (h : ∀ p' : Process OneDriveConnect, p'.conn = p.conn → Q () p' ()) :
    Proc.wp (World.guard TokenLocal) writebackTokens Q p () := by
  have hstore : Proc.wp (World.guard StoreCall) writebackTokens (fun _ p' _ => p'.conn = p.conn) p () :=
    guard_writebackTokens_store hcomplete fun _ h => h
  exact Proc.wp_guard_mono (fun _ => StoreCall.tokenLocal) hstore fun _ p' hconn => h p' hconn

/-! ### Refreshing -/

theorem guard_requestToken_ask {caller : Caller} {param grantType : Bytes} {value : Option Bytes}
    {bufSize : Nat} {ignoreInfo : Bool} (hcaller : AskCall (.httpClientNew caller)) :
    Proc.wp (World.guard AskCall) (requestToken caller param value grantType bufSize ignoreInfo)
      (fun rc p' _ => TokenResult IntError p rc p') p () := by
  have hmemory : IntError (cInt (hiveGeneralError HiveErr.outOfMemory)) :=
    intError_hiveMkError .general (by decide)
  simp only [requestToken, Proc.wp_bind, wp_getToken]
  rw [Proc.wp_guard_call]
  refine ⟨hcaller, fun created => ?_⟩
  simp only [Proc.wp_ite, Proc.wp_bind, Proc.wp_pure]
  refine ⟨fun _ => .fail hmemory rfl, fun _ => ?_⟩
  rw [Proc.wp_guard_call]
  refine ⟨trivial, fun clientId => ?_⟩
  rcases clientId with _ | clientId
  · exact .fail hmemory rfl
  dsimp only
  rw [Proc.wp_bind, Proc.wp_guard_call]
  refine ⟨trivial, fun redirectUri => ?_⟩
  rcases redirectUri with _ | redirectUri
  · exact .fail hmemory rfl
  rcases value with _ | value
  · exact (wp_undefinedBehaviour ..).2 trivial
  dsimp only
  rw [Proc.wp_bind, Proc.wp_guard_call]
  refine ⟨trivial, fun value => ?_⟩
  rcases value with _ | value
  · exact .fail hmemory rfl
  simp only [Proc.wp_ite, Proc.wp_bind, Proc.wp_pure]
  refine ⟨fun _ => .fail (intError_hiveMkError .general (by decide)) rfl, fun _ => ?_⟩
  apply wp_httpClientRequestBody_any
  · intro _ _ _ _
    exact True.intro
  · intro _ _ _ _ _
    rfl
  · exact ⟨_, _, rfl⟩
  intro reply _ _ rc response
  simp only [Proc.wp_ite, Proc.wp_pure]
  refine ⟨fun _ => .fail (intError_hiveMkError .curl (by omega)) rfl, fun _ => ?_⟩
  refine ⟨fun _ => .fail (intError_hiveMkError .curl (by omega)) rfl, fun _ => ?_⟩
  refine ⟨fun _ => .fail (intError_hiveHttpStatusError _) rfl, fun _ => ?_⟩
  rw [Proc.wp_bind, httpClientMoveResponseBody]
  by_cases hused : response.used = 0
  · rw [if_pos hused]
    exact (wp_undefinedBehaviour ..).2 trivial
  · rw [if_neg hused, Proc.wp_pure]
    refine Proc.wp_mono (fun rc p' _ h => ?_) guard_decodeAccessToken
    exact ⟨fun hneg => ⟨(h.failed hneg).1.toIntError, (h.failed hneg).2⟩, h.succeeded⟩

theorem guard_requestToken {caller : Caller} {param grantType : Bytes} {value : Option Bytes}
    {bufSize : Nat} {ignoreInfo : Bool} (hcaller : AskCall (.httpClientNew caller)) :
    Proc.wp (World.guard TokenCall) (requestToken caller param value grantType bufSize ignoreInfo)
      (fun rc p' _ => TokenResult IntError p rc p') p () :=
  Proc.wp_guard_mono (fun _ he => he.tokenCall) (guard_requestToken_ask hcaller) fun _ _ h => h

theorem guard_refreshAccessToken :
    Proc.wp (World.guard TokenCall) refreshAccessToken (fun rc p' _ => TokenResult IntError p rc p') p () := by
  simp only [refreshAccessToken, Proc.wp_bind, wp_getToken]
  refine Proc.wp_mono (fun rc p' _ h => ?_) (guard_requestToken (.inl rfl))
  rw [Proc.wp_ite, Proc.wp_pure]
  refine ⟨fun hneg => .fail (h.failed hneg).1 (h.failed hneg).2, fun hnneg => ?_⟩
  obtain ⟨-, hcomplete⟩ := h.succeeded hnneg
  rw [Proc.wp_bind]
  have hwriteback : Proc.wp (World.guard TokenLocal) writebackTokens
      (fun _ p'' _ => p''.conn = p'.conn) p' () := guard_writebackTokens hcomplete fun _ h => h
  refine Proc.wp_guard_mono (fun _ => TokenLocal.tokenCall) hwriteback fun _ p'' hconn => ?_
  exact .success (hconn ▸ hcomplete)

/-- A look at the token: it fails with nothing changed, finds the token valid, or renews it. -/
theorem guard_oauthTokenCheckExpire :
    Proc.wp (World.guard TokenCall) oauthTokenCheckExpire (fun rc p' _ => CheckResult p rc p') p () := by
  simp only [oauthTokenCheckExpire, Proc.wp_bind, wp_getToken]
  rw [Proc.wp_guard_call]
  refine ⟨trivial, fun now => ?_⟩
  simp only [Proc.wp_ite, Proc.wp_pure, Proc.wp_bind]
  have hvalid : CheckResult p 0 p := ⟨fun h => absurd h (by decide), fun _ => ⟨rfl, .inl rfl⟩⟩
  refine ⟨fun _ => hvalid, fun _ => ?_⟩
  refine Proc.wp_mono (fun rc p' _ h => ?_) guard_refreshAccessToken
  rw [Proc.wp_ite, Proc.wp_pure, Proc.wp_pure]
  refine ⟨fun hneg => ⟨h.failed, fun hnneg => absurd hneg hnneg⟩, fun hnneg => ?_⟩
  exact ⟨fun hneg => absurd hneg (by decide), fun _ => ⟨rfl, .inr (h.succeeded hnneg).2⟩⟩

/-! ### Requests with the token -/

theorem wp_checkReply {τ : Type} {W : World Event Event.Answer τ} {s : τ} {rc : CurlCode}
    {reply : Reply} {Q : Except Int StatusCode → Process OneDriveConnect → τ → Prop}
    (hok : rc = 0 → reply.info = 0 → reply.status ≠ HttpStatus.unauthorized →
      Q (.ok reply.status) p s)
    (hfail : ∀ err (p' : Process OneDriveConnect), Fails err →
      rc ≠ 0 ∨ reply.info ≠ 0 ∨ reply.status = HttpStatus.unauthorized → Q (.error err) p' s) :
    Proc.wp W (checkReply rc reply) Q p s := by
  simp only [checkReply, Proc.wp_ite, Proc.wp_pure]
  refine ⟨fun hne => hfail _ p (fails_hiveCurlError rc) (.inl hne), fun hrc => ?_⟩
  refine ⟨fun hne => hfail _ p (fails_hiveCurlError _) (.inr (.inl hne)), fun hinfo => ?_⟩
  refine ⟨fun h401 => ?_, fun h401 => hok (not_not.1 hrc) (not_not.1 hinfo) h401⟩
  simp only [oauthTokenSetExpired, Proc.wp_bind, wp_getToken, wp_setToken, Proc.wp_pure]
  exact hfail _ _ (fails_hiveGeneralError (by decide)) (.inr (.inr h401))

/-- A request with the token, in a world that does not care about allocations. -/
theorem wp_sendAuthorized_any {τ : Type} {W : World Event Event.Answer τ} {s : τ} {req : Request}
    {enable : Bool}
    {Q : Except Int (StatusCode × ResponseBody) → Process OneDriveConnect → τ → Prop}
    (hpre : ∀ headers reply t, W.step s (.perform { req with headers := headers }) reply t →
      ∀ n, W.pre t (.realloc n))
    (hquiet : ∀ t n ok u, W.step t (.realloc n) ok u → u = t) (hundefined : W.pre s .undefined)
    (hrequest : ∀ accessToken, W.pre s (.perform { req with headers := req.headers ++ [(authorization, accessToken)] }))
    (hok : ∀ headers reply t, W.step s (.perform { req with headers := headers }) reply t →
      ∀ status response, Q (.ok (status, response)) p t)
    (hfail : ∀ headers reply t, W.step s (.perform { req with headers := headers }) reply t →
      ∀ err (p' : Process OneDriveConnect), IntError err → Q (.error err) p' t) :
    Proc.wp W (sendAuthorized req enable) Q p s := by
  simp only [sendAuthorized, Proc.wp_bind, wp_getToken]
  rcases p.conn.token.accessToken with _ | accessToken
  · exact (wp_undefinedBehaviour ..).2 hundefined
  dsimp only
  rcases enable with _ | _
  · rw [if_neg Bool.false_ne_true, Proc.wp_bind, httpClientRequest, Proc.wp_bind, Proc.wp_call]
    refine ⟨hrequest _, fun reply t hstep => ?_⟩
    rw [Proc.wp_pure, Proc.wp_bind]
    apply wp_checkReply
    · intro _ _ _
      exact hok _ reply t hstep _ _
    · intro err p' herr _
      exact hfail _ reply t hstep err p' herr.toIntError
  · rw [if_pos rfl, Proc.wp_bind]
    apply wp_httpClientRequestBody_any (hpre _) hquiet (hrequest _)
    intro reply t hstep rc response
    dsimp only
    rw [Proc.wp_bind]
    apply wp_checkReply
    · intro _ _ _
      exact hok _ reply t hstep _ _
    · intro err p' herr _
      exact hfail _ reply t hstep err p' herr.toIntError

end

/-! ### A connect and two answers, as the runs below have them -/

def demoToken : OAuthToken where
  authorizeUrl := bytes "https://login.microsoftonline.com/common/oauth2/v2.0/authorize"
  tokenUrl := bytes "https://login.microsoftonline.com/common/oauth2/v2.0/token"
  clientId := bytes "client"
  scope := bytes "Files.ReadWrite.AppFolder"
  redirectUrl := bytes "http://localhost:12345"
  tokenType := some (bytes "Bearer")
  accessToken := some (bytes "A")
  refreshToken := some (bytes "R")
  expiresAt := ⟨100, 0⟩

def demoProcess : Process OneDriveConnect :=
  ⟨0, 0, ⟨demoToken, bytes "/data/.data/onedrive.json"⟩⟩

/-- What `hive_set_access_token_expired` leaves. -/
def expiredProcess : Process OneDriveConnect :=
  ⟨0, 0, ⟨{ demoToken with expiresAt := ⟨0, 0⟩ }, bytes "/data/.data/onedrive.json"⟩⟩

def demoTime : Timeval := ⟨50, 0⟩

def demoReply (status : StatusCode) (body : Bytes) : Reply :=
  ⟨if body = [] then [] else [body], 0, 0, status⟩

def infoText : Bytes :=
  bytes "\x7b\"size\":5,\"@microsoft.graph.downloadUrl\":\"https://dl.example/k\"\x7d"

def infoJson : Json := .object
  [(bytes "size", .number 5),
    (bytes "@microsoft.graph.downloadUrl", .string (bytes "https://dl.example/k"))]

/-- The block that an answer in one piece is collected in. -/
def collected (text : Bytes) : HeapBlock := (ResponseBody.empty.after [text]).block

/-- The first block is of 512 bytes, which is enough for the answers here. -/
theorem ResponseBody.newSize_empty {n : Nat} (h : n < 512) : ResponseBody.empty.newSize n = 512 := by
  have hn : cSize (((0 : Nat) : Int) + n) = n := by
    unfold cSize
    omega
  show growSize (cSize (((0 : Nat) : Int) + n)) 512 0 = 512
  rw [hn, growSize, if_neg (by omega), if_neg (by omega)]

theorem zero_mem_take {n : Nat} (h : n ≠ 0) : (0 : UInt8) ∈ [(0 : UInt8)].take n := by
  obtain ⟨m, rfl⟩ := Nat.exists_eq_succ_of_ne_zero h
  exact List.mem_cons_self

/-- An answer in one piece, from the network to the parser. -/
def collecting (text : Bytes) (json : Json) : Trace :=
  [⟨.realloc (ResponseBody.empty.newSize text.length), true⟩, ⟨.heapAfter (collected text), [0]⟩,
    ⟨.cjsonParse text, some json⟩]

/-- The body of an item information. -/
def receiving : Trace := collecting infoText infoJson

def tokenText : Bytes :=
  bytes "\x7b\"token_type\":\"Bearer\",\"scope\":\"Files.ReadWrite.AppFolder\",\"access_token\":\"B\",\"refresh_token\":\"S\",\"expires_in\":3600\x7d"

def tokenJson : Json := .object
  [(bytes "token_type", .string (bytes "Bearer")),
    (bytes "scope", .string (bytes "Files.ReadWrite.AppFolder")),
    (bytes "access_token", .string (bytes "B")), (bytes "refresh_token", .string (bytes "S")),
    (bytes "expires_in", .number 3600)]

def storedJson : Json := .object
  [(bytes "client_id", .string (bytes "client")), (bytes "token_type", .string (bytes "Bearer")),
    (bytes "access_token", .string (bytes "B")), (bytes "refresh_token", .string (bytes "S")),
    (bytes "expires_at", .number 3650)]

def storedText : Bytes :=
  bytes "\x7b\"client_id\":\"client\",\"token_type\":\"Bearer\",\"access_token\":\"B\",\"refresh_token\":\"S\",\"expires_at\":3650\x7d"

def refreshRequest : Request where
  method := .post
  url := .token demoToken.tokenUrl
  body := bytes "client_id=client&redirect_uri=http%3A%2F%2Flocalhost%3A12345&refresh_token=R&grant_type=refresh_token"

/-- A refresh, up to the answer to its request. -/
def refreshing (reply : Reply) : Trace :=
  [⟨.gettimeofday, demoTime⟩, ⟨.httpClientNew .refreshAccessToken, true⟩,
    ⟨.escape (bytes "client"), some (bytes "client")⟩,
    ⟨.escape (bytes "http://localhost:12345"), some (bytes "http%3A%2F%2Flocalhost%3A12345")⟩,
    ⟨.escape (bytes "R"), some (bytes "R")⟩, ⟨.perform refreshRequest, reply⟩]

/-- What follows when the refresh has been answered with new tokens. -/
def accepting : Trace :=
  collecting tokenText tokenJson ++ [⟨.strdup (bytes "Bearer"), true⟩,
    ⟨.strdup (bytes "B"), true⟩, ⟨.strdup (bytes "S"), true⟩, ⟨.gettimeofday, demoTime⟩,
    ⟨.cjsonCreate, true⟩, ⟨.cjsonCreate, true⟩, ⟨.cjsonCreate, true⟩, ⟨.cjsonCreate, true⟩,
    ⟨.cjsonCreate, true⟩, ⟨.cjsonCreate, true⟩, ⟨.cjsonPrint storedJson, some storedText⟩,
    ⟨.openFile (bytes "/data/.data/onedrive.json") .wronlyTruncCreat, Except.ok ()⟩,
    ⟨.write (bytes "/data/.data/onedrive.json") (storedText ++ [0]), Except.ok 102⟩]

def refreshedProcess : Process OneDriveConnect where
  hiveError := 0
  errno := 0
  conn.token := { demoToken with
    accessToken := some (bytes "B"), refreshToken := some (bytes "S"), expiresAt := ⟨3650, 0⟩ }
  conn.keystorePath := bytes "/data/.data/onedrive.json"

end HiveSdk
