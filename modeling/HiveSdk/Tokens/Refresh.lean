import HiveSdk.Tokens.View

/-!
# Looking at the token

Before each operation the token is looked at. What the token endpoint answers is taken over when every member that the source reads is there and could be copied, and then the observer has seen the same; in all other cases neither the token nor what the observer knows of it changes.
-/

namespace HiveSdk

open Interaction

namespace TokenView

section
variable {p : Process OneDriveConnect} {v : TokenView}

/-- What a look at the token leaves: after a failure the token as it was, and otherwise one that may be sent. -/
structure Checked (rc : Int) (p : Process OneDriveConnect) (v : TokenView) : Prop where
  failed : rc < 0 → Kept p v
  valid : ¬ rc < 0 → Ready p v

theorem Checked.fails {rc : Int} (hrc : rc < 0) (h : Kept p v) : Checked rc p v :=
  ⟨fun _ => h, fun hnneg => absurd hrc hnneg⟩

theorem Checked.success (h : Ready p v) : Checked 0 p v :=
  ⟨fun hneg => absurd hneg (by decide), fun _ => h⟩

/-- What is known of a response that has been received does not matter to the token. -/
theorem Kept.drop {p' : Process OneDriveConnect} {asking : Bool} (h : Kept p v) (hconn : p'.conn = p.conn) :
    Kept p' { v with asking := asking, received := none } :=
  Kept.conn (h.of_view (u := { v with asking := asking, received := none }) rfl rfl h.expired) hconn

/-! ### Decoding -/

/-- The response that the observer has read. -/
def reading (v : TokenView) (json : Json) : TokenView :=
  { v with asking := false, received := acceptedTokens json }

theorem wp_cjsonParse {body : HeapBlock} {Q : Option Json → Process OneDriveConnect → TokenView → Prop}
    (h : ∀ text json, Q json p (v.observe ⟨.cjsonParse text, json⟩)) :
    Proc.wp world (HiveSdk.cjsonParse body) Q p v := by
  rw [HiveSdk.cjsonParse, Proc.wp_bind]
  refine wp_call_quiet (e := .heapAfter body) trivial fun rest => ?_
  rw [Proc.wp_ite, Proc.wp_call, wp_undefinedBehaviour]
  refine ⟨fun _ => ⟨trivial, ?_⟩, fun _ => trivial⟩
  rintro json u ⟨-, rfl⟩
  exact h _ json

private theorem wp_strdup {text : Bytes} {Q : Bool → Process OneDriveConnect → TokenView → Prop}
    (hok : Q true p v) (hfail : ∀ e : Errno, Q false { p with errno := e } { v with received := none }) :
    Proc.wp world (strdup text) Q p v := by
  rw [strdup, Proc.wp_bind, Proc.wp_call]
  refine ⟨trivial, ?_⟩
  rintro ok u ⟨-, rfl⟩
  cases ok with
  | true => exact hok
  | false => exact hfail Errno.ENOMEM

private theorem wp_copied {text : Bytes} {rest : Hive OneDriveConnect Int}
    {Q : Int → Process OneDriveConnect → TokenView → Prop} (hok : Proc.wp world rest Q p v)
    (hfail : ∀ e : Errno, Q (cInt (hiveSysError e)) { p with errno := e } { v with received := none }) :
    Proc.wp world (do
      if !(← strdup text) then return cInt (hiveSysError (← get).errno)
      rest) Q p v := by
  rw [Proc.wp_bind]
  apply wp_strdup
  · rw [Proc.wp_ite]
    exact ⟨fun hmissing => absurd hmissing (by decide), fun _ => hok⟩
  · intro e
    simp only [Proc.wp_ite, Proc.wp_bind, Proc.wp_pure, Proc.wp_get]
    exact ⟨fun _ => hfail e, fun hcopied => absurd rfl hcopied⟩

/-- A response is taken over as a whole, and the observer sees that it is. -/
theorem checked_decodeAccessToken {body : HeapBlock} (h : Kept p v) (hasking : v.asking = true) :
    Proc.wp world (decodeAccessToken body) (fun rc p' u => Checked rc p' u) p v := by
  have hbad : cInt (hiveGeneralError HiveErr.badJsonFormat) < 0 := (fails_hiveGeneralError (by decide)).neg
  rw [decodeAccessToken, Proc.wp_bind]
  apply wp_cjsonParse
  intro text json
  have hparsed : v.observe ⟨.cjsonParse text, json⟩
      = { v with asking := false, received := json.bind acceptedTokens } := by
    simp [observe, hasking]
  rw [hparsed]
  rcases json with _ | json
  · exact .fails hbad (h.drop rfl)
  rw [Option.bind_some]
  -- a response in which a member is missing is accepted by neither
  have hdropped : acceptedTokens json = none → Kept p (v.reading json) := by
    intro hnone
    rw [reading, hnone]
    exact h.drop rfl
  have huncopied : ∀ e : Errno, Checked (cInt (hiveSysError e)) { p with errno := e }
      { v.reading json with received := none } := fun e => .fails (fails_hiveSysError e).neg (h.drop rfl)
  show Proc.wp world _ _ p (v.reading json)
  dsimp only
  rcases htype : json.stringItem (bytes "token_type") with _ | tokenType
  · exact .fails hbad (hdropped (by simp [acceptedTokens, htype]))
  dsimp only
  refine wp_copied ?_ huncopied
  rcases hscope : json.stringItem (bytes "scope") with _ | scope
  · exact .fails hbad (hdropped (by simp [acceptedTokens, htype, hscope]))
  dsimp only
  rcases haccess : json.stringItem (bytes "access_token") with _ | accessToken
  · exact .fails hbad (hdropped (by simp [acceptedTokens, htype, hscope, haccess]))
  dsimp only
  refine wp_copied ?_ huncopied
  rcases hrefresh : json.stringItem (bytes "refresh_token") with _ | refreshToken
  · exact .fails hbad (hdropped (by simp [acceptedTokens, htype, hscope, haccess, hrefresh]))
  dsimp only
  refine wp_copied ?_ huncopied
  rcases hexpires : json.sizeItem (bytes "expires_in") with _ | expiresIn
  · exact .fails hbad (hdropped (by simp [acceptedTokens, htype, hscope, haccess, hrefresh, hexpires]))
  dsimp only
  rw [Proc.wp_bind]
  apply wp_call_clock
  intro now hnow
  have haccepted : acceptedTokens json = some ⟨tokenType, accessToken, refreshToken⟩ := by
    simp [acceptedTokens, htype, hscope, haccess, hrefresh, hexpires]
  have hseen : (v.reading json).observe ⟨.gettimeofday, now⟩
      = { source := ⟨tokenType, accessToken, refreshToken⟩ } := by
    rw [reading, haccepted]
    rfl
  rw [hseen]
  simp only [Proc.wp_bind, wp_getToken, wp_setToken, Proc.wp_pure]
  refine .success ⟨⟨rfl, rfl, rfl, fun hneeds => ?_, rfl⟩, rfl⟩
  simp [mustRefresh] at hneeds

/-! ### Refreshing -/

theorem checked_requestToken {caller : Caller} {bufSize : Nat} {ignoreInfo : Bool} (h : Kept p v) :
    Proc.wp world
      (requestToken caller (bytes "refresh_token") (some v.source.refreshToken) (bytes "refresh_token") bufSize ignoreInfo)
      (fun rc p' u => Checked rc p' u) p v := by
  have hmemory : cInt (hiveGeneralError HiveErr.outOfMemory) < 0 := (fails_hiveGeneralError (by decide)).neg
  simp only [requestToken, Proc.wp_bind, wp_getToken]
  refine wp_call_quiet (e := .httpClientNew caller) trivial fun created => ?_
  simp only [Proc.wp_ite, Proc.wp_bind, Proc.wp_pure]
  refine ⟨fun _ => .fails hmemory h, fun _ => ?_⟩
  refine wp_call_escape fun clientId => ?_
  have hclient := h.escaped p.conn.token.clientId clientId
  rcases clientId with _ | clientId
  · exact .fails hmemory hclient
  dsimp only
  rw [Proc.wp_bind]
  refine wp_call_escape fun redirectUri => ?_
  have hredirect := hclient.escaped p.conn.token.redirectUrl redirectUri
  rcases redirectUri with _ | redirectUri
  · exact .fails hmemory hredirect
  dsimp only
  rw [Proc.wp_bind]
  refine wp_call_escape fun value => ?_
  have hescaped := hredirect.escaped v.source.refreshToken value
  rcases value with _ | value
  · exact .fails hmemory hescaped
  simp only [Proc.wp_ite, Proc.wp_bind, Proc.wp_pure]
  refine ⟨fun _ => .fails (fails_hiveGeneralError (by decide)).neg hescaped, fun _ => ?_⟩
  apply wp_httpClientRequestBody
  · exact ⟨fun _ hvalue => (by cases hvalue), fun hurl => (by cases hurl), fun _ => ⟨_, _, _, value, rfl, rfl⟩⟩
  intro rc reply response u hanswered
  -- the request carries no token, so whatever it is answered the token is not refused
  have hasked : u.source = v.source ∧ u.received = none ∧ u.mustRefresh = v.mustRefresh ∧ u.asking = true := by
    by_cases hrc : rc = 0
    · obtain ⟨rfl, -⟩ := hanswered.arrived hrc
      simp [observe, mustRefresh, refuses, Url.isToken]
    · obtain rfl := hanswered.failed hrc
      simp [observe, mustRefresh, Url.isToken]
  obtain ⟨hsource, hreceived, hneeds, hasking⟩ := hasked
  have hkept : Kept p u := h.of_view hsource hreceived fun hmust => h.expired (hneeds ▸ hmust)
  simp only [Proc.wp_ite, Proc.wp_pure]
  refine ⟨fun _ => .fails (fails_hiveCurlError rc).neg hkept, fun _ => ?_⟩
  refine ⟨fun _ => .fails (fails_hiveCurlError _).neg hkept, fun _ => ?_⟩
  refine ⟨fun _ => .fails (intError_hiveHttpStatusError _).neg hkept, fun _ => ?_⟩
  rw [Proc.wp_bind, httpClientMoveResponseBody]
  by_cases hused : response.used = 0
  · rw [if_pos hused]
    exact (wp_undefinedBehaviour ..).2 trivial
  · rw [if_neg hused, Proc.wp_pure]
    exact checked_decodeAccessToken hkept hasking

private theorem isQuiet_of_store {e : Event} (h : StoreCall e) : IsQuiet e := by
  cases e <;> first | exact trivial | exact h.elim

theorem checked_refreshAccessToken (h : Kept p v) :
    Proc.wp world refreshAccessToken (fun rc p' u => Checked rc p' u) p v := by
  simp only [refreshAccessToken, Proc.wp_bind, wp_getToken, h.refreshToken]
  refine Proc.wp_mono (fun rc p' u hchecked => ?_) (checked_requestToken h)
  rw [Proc.wp_ite, Proc.wp_pure]
  refine ⟨fun hneg => .fails hneg (hchecked.failed hneg), fun hnneg => ?_⟩
  have hready := hchecked.valid hnneg
  have hstore : Proc.wp (World.guard StoreCall) writebackTokens (fun _ p'' _ => p''.conn = p'.conn) p' () :=
    guard_writebackTokens_store hready.kept.complete fun _ hconn => hconn
  rw [Proc.wp_bind]
  apply wp_of_guard (Proc.wp_guard_mono (fun _ => isQuiet_of_store) hstore fun _ _ hconn => hconn)
  intro _ p'' hconn
  exact .success (hready.conn hconn)

/-- A look at the token. Once the token has been turned away it is not taken for valid at any time. -/
theorem checked_oauthTokenCheckExpire (h : Kept p v) :
    Proc.wp world oauthTokenCheckExpire (fun rc p' u => Checked rc p' u) p v := by
  simp only [oauthTokenCheckExpire, Proc.wp_bind, wp_getToken]
  apply wp_call_clock
  intro now hnow
  have hsame : v.observe ⟨.gettimeofday, now⟩ = v := by
    simp [observe, h.settled]
  rw [hsame]
  simp only [Proc.wp_ite, Proc.wp_pure, Proc.wp_bind]
  refine ⟨fun hvalid => .success ⟨h, ?_⟩, fun _ => ?_⟩
  · by_contra hmust
    rw [h.expired (by simpa using hmust), hnow] at hvalid
    exact absurd hvalid (by decide)
  refine Proc.wp_mono (fun rc p' u hchecked => ?_) (checked_refreshAccessToken h)
  rw [Proc.wp_ite, Proc.wp_pure, Proc.wp_pure]
  exact ⟨fun _ => hchecked, fun hnneg => .success (hchecked.valid hnneg)⟩

end

end TokenView

end HiveSdk
