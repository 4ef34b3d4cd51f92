import HiveSdk.Drive.World
import HiveSdk.Errors.Refresh

/-!
# Token refreshes in front of a drive

Every operation starts with a look at the clock and, when the token has expired, a refresh. The token endpoint may answer anything, so what matters is which results can come out: success, or an error code. One of the codes is special. A refresh answered with 404 gives the code by which the key functions recognise an absent item, and it is the only way to that code that does not lead past the drive.
-/

namespace HiveSdk

open Interaction OneDrive

/-! ### Refreshes -/

section
variable {env : Env} {p : Process OneDriveConnect} {s : Served}

theorem wp_call_local {σ : Type} {p : Process σ} {e : Event} (he : Env.isLocal e)
    {Q : e.Answer → Process σ → Served → Prop} :
    Proc.wp env.world (call e) Q p s ↔ ∀ r, env.Replies e r → Q r p s := by
  rw [Proc.wp_call]
  constructor
  · intro h r hr
    exact h.2 r s ((Env.step_local he).2 ⟨hr, rfl⟩)
  · intro h
    constructor
    · intro hne
      rcases hne with rfl | rfl <;> cases he
    · intro r t hstep
      obtain ⟨hr, rfl⟩ := (Env.step_local he).1 hstep
      exact h r hr

theorem wp_cjsonParse {σ : Type} {p : Process σ} {block : HeapBlock}
    {Q : Option Json → Process σ → Served → Prop} (hroom : env.reliable → block.spare ≠ 0)
    (h : ∀ rest json, json = env.parse (cString (block.contents ++ rest)) ∨ ¬ env.reliable ∧ json = none →
      Q json p s) : Proc.wp env.world (cjsonParse block) Q p s := by
  rw [cjsonParse, Proc.wp_bind, wp_call_local rfl]
  intro rest hrest
  rw [Proc.wp_ite, wp_call_local rfl, wp_undefinedBehaviour]
  refine ⟨fun _ json hjson => h rest json hjson, fun hopen _ hreliable => ?_⟩
  exact hopen (List.mem_append_right _ (hrest hreliable (hroom hreliable)))

/-- A transfer into a response body. -/
theorem wp_httpClientRequestBody {σ : Type} {p : Process σ} {req : Request}
    {Q : CurlCode × Reply × ResponseBody → Process σ → Served → Prop}
    (h : ∀ rc reply response t, env.Exchanges s req reply t → (rc = 0 → reply.code = 0) →
      (rc = 0 → reply.body.length < 2 ^ 60 → response.Holds reply) →
      (rc ≠ 0 → env.reliable → reply.code ≠ 0) → Q (rc, reply, response) p t) :
    Proc.wp env.world (httpClientRequestBody req) Q p s := by
  simp only [httpClientRequestBody, Proc.wp_bind, Proc.wp_call]
  refine ⟨by simp, fun reply t hreply => ?_⟩
  have hwrite : CurlE.writeError ≠ 0 := by decide
  have hpre : ∀ n, env.world.pre t (.realloc n) := fun n => by simp
  have hquiet : ∀ n ok u, env.world.step t (.realloc n) ok u → u = t := fun n ok u hstep =>
    ((Env.step_local rfl).1 hstep).2
  by_cases hsize : reply.body.length < 2 ^ 60
  · apply wp_deliver hpre (fun n u => hquiet n true u) ResponseBody.empty_wellSized
    · simpa [ResponseBody.empty, Reply.body] using hsize
    · intro response hused hcontents hafter
      exact h _ reply response t hreply (fun hrc => hrc)
        (fun _ _ => .of_delivered hused hcontents hafter) (fun hrc _ => hrc)
    · intro n u hfailed response
      obtain rfl := hquiet n false u hfailed
      have hincident : ¬ env.reliable := fun hreliable => by
        have hok := ((Env.step_local rfl).1 hfailed).1 hreliable
        cases hok
      exact h _ reply response _ hreply (fun hrc => absurd hrc hwrite)
        (fun hrc => absurd hrc hwrite) (fun _ hreliable => absurd hreliable hincident)
  · apply wp_deliver_any (I := (· = t))
    · rintro u n rfl
      exact hpre n
    · rintro u n ok v rfl hstep
      exact hquiet n ok v hstep
    · rfl
    rintro response taken u rfl
    refine h _ reply response _ hreply (fun hrc => ?_) (fun _ hsize' => absurd hsize' hsize)
      (fun _ hreliable => absurd (hreply.good hreliable).size hsize)
    rcases taken with _ | _
    · exact absurd hrc hwrite
    · exact hrc

/-- What is proved with a guard of local calls holds in the world of the drive. -/
private theorem wp_of_guard {α : Type} {m : Hive OneDriveConnect α}
    {P : α → Process OneDriveConnect → Prop} {Q : α → Process OneDriveConnect → Served → Prop}
    (h : Proc.wp (World.guard TokenLocal) m (fun a p' _ => P a p') p ())
    (hQ : ∀ a p', P a p' → Q a p' s) : Proc.wp env.world m Q p s := by
  have hlocal : ∀ e, TokenLocal e → Env.isLocal e := by
    intro e he
    cases e <;> first | rfl | exact he.elim
  have hpre : ∀ t e, t = s → TokenLocal e → env.world.pre t e := by
    intro t e _ he hne
    rcases hne with rfl | rfl <;> exact he.elim
  have hstep : ∀ t e r u, t = s → TokenLocal e → env.world.step t e r u → u = s := by
    rintro t e r u rfl he hstep
    exact ((Env.step_local (hlocal e he)).1 hstep).2
  refine Proc.wp_frame h hpre hstep rfl fun a p' t hP ht => ?_
  rw [ht]
  exact hQ a p' hP

theorem wp_decodeAccessToken {body : HeapBlock} {Q : Int → Process OneDriveConnect → Served → Prop}
    (hincident : ¬ env.reliable)
    (hok : ∀ p' : Process OneDriveConnect, p'.conn.token.Complete → Q 0 p' s)
    (hfail : ∀ rc (p' : Process OneDriveConnect), Fails rc → Q rc p' s) :
    Proc.wp env.world (decodeAccessToken body) Q p s := by
  have hlocal : ∀ e, CopyCall e → Env.isLocal e := by
    intro e he
    cases e <;> first | rfl | exact he.elim
  apply wp_decodeAccessToken_any (I := (· = s))
  · intro P hP
    apply wp_cjsonParse fun hreliable => absurd hreliable hincident
    exact fun _ json _ => hP json s rfl
  · exact fun _ _ _ _ _ => hincident
  · rintro t e r u rfl he hstep
    exact ((Env.step_local (hlocal e he)).1 hstep).2
  · rintro rc p' t rfl hresult
    by_cases hneg : rc < 0
    · exact hfail rc p' (hresult.failed hneg).1
    · obtain ⟨rfl, hcomplete⟩ := hresult.succeeded hneg
      exact hok p' hcomplete

/-- The request for new tokens. Its code for an absent item means a 404 of the token endpoint. -/
theorem wp_requestToken {caller : Caller} {param grantType : Bytes} {value : Option Bytes}
    {bufSize : Nat} {Q : Int → Process OneDriveConnect → Served → Prop} (hincident : ¬ env.reliable)
    (hok : ∀ (p' : Process OneDriveConnect) t req reply, env.Exchanges s req reply t →
      req.access = .token → reply.answered = some HttpStatus.ok → p'.conn.token.Complete →
      Q 0 p' t)
    (hnotFound : ∀ (p' : Process OneDriveConnect) t req reply, env.Exchanges s req reply t →
      req.access = .token → reply.answered = some HttpStatus.notFound →
      Q (cInt (hiveHttpStatusError HttpStatus.notFound)) p' t)
    (hfail : ∀ rc (p' : Process OneDriveConnect) t, Fails rc → t.drive = s.drive → Q rc p' t) :
    Proc.wp env.world (requestToken caller param value grantType bufSize false) Q p s := by
  have hmemory : ∀ p' t, t.drive = s.drive →
      Q (cInt (hiveGeneralError HiveErr.outOfMemory)) p' t :=
    fun p' t hdrive => hfail _ p' t (fails_hiveGeneralError (by decide)) hdrive
  simp only [requestToken, Proc.wp_bind, wp_getToken]
  rw [wp_call_local rfl]
  intro created _
  simp only [Proc.wp_ite, Proc.wp_bind, Proc.wp_pure]
  refine ⟨fun _ => hmemory _ _ rfl, fun _ => ?_⟩
  rw [wp_call_local rfl]
  intro clientId _
  rcases clientId with _ | clientId
  · exact hmemory _ _ rfl
  dsimp only
  rw [Proc.wp_bind, wp_call_local rfl]
  intro redirectUri _
  rcases redirectUri with _ | redirectUri
  · exact hmemory _ _ rfl
  rcases value with _ | value
  · exact (wp_undefinedBehaviour ..).2 fun _ => hincident
  dsimp only
  rw [Proc.wp_bind, wp_call_local rfl]
  intro value _
  rcases value with _ | value
  · exact hmemory _ _ rfl
  simp only [Proc.wp_ite, Proc.wp_bind, Proc.wp_pure]
  refine ⟨fun _ => hfail _ _ _ (fails_hiveGeneralError (by decide)) rfl, fun _ => ?_⟩
  apply wp_httpClientRequestBody
  intro rc reply response t hreply hrc hbody herr
  have hdrive : t.drive = s.drive := hreply.serves
  simp only [Proc.wp_ite, Proc.wp_pure]
  refine ⟨fun _ => hfail _ _ _ (fails_hiveCurlError rc) hdrive, fun hdone => ?_⟩
  refine ⟨fun _ => hfail _ _ _ (fails_hiveCurlError _) hdrive, fun hinfo => ?_⟩
  have hinfo : reply.info = 0 := by simpa using hinfo
  have hanswered : reply.answered = some reply.status :=
    if_pos ⟨hrc (not_not.1 hdone), hinfo⟩
  rw [if_neg (not_not.2 hinfo)]
  constructor
  · intro hstatus
    by_cases h404 : reply.status = HttpStatus.notFound
    · rw [h404]
      exact hnotFound _ t _ reply hreply rfl (hanswered.trans (congrArg some h404))
    · exact hfail _ _ _ (fails_hiveHttpStatusError h404) hdrive
  · intro hstatus
    rw [Proc.wp_bind, httpClientMoveResponseBody]
    by_cases hused : response.used = 0
    · rw [if_pos hused]
      exact (wp_undefinedBehaviour ..).2 fun _ => hincident
    · rw [if_neg hused]
      apply wp_decodeAccessToken hincident
      · intro p' hcomplete
        exact hok p' t _ reply hreply rfl
          (hanswered.trans (congrArg some (not_not.1 hstatus))) hcomplete
      · intro rc p' hrc
        exact hfail rc p' t hrc hdrive

/-- Whether the keystore could be written leaves no trace. -/
theorem wp_writebackTokens {Q : Unit → Process OneDriveConnect → Served → Prop}
    (hcomplete : p.conn.token.Complete)
    (h : ∀ p' : Process OneDriveConnect, p'.conn = p.conn → Q () p' s) :
    Proc.wp env.world writebackTokens Q p s := by
  have hguard : Proc.wp (World.guard TokenLocal) writebackTokens
      (fun _ p' _ => p'.conn = p.conn) p () := guard_writebackTokens hcomplete fun _ h => h
  apply wp_of_guard hguard
  intro _ p' hconn
  exact h p' hconn

/-- No reading of the clock finds the token expired. -/
def Env.Valid (env : Env) (token : OAuthToken) : Prop :=
  ∀ now, env.clock now → now.after token.expiresAt = false

/-- What a successful expiry check has done: nothing, or a refresh of an expired token. -/
inductive Env.Renewed (env : Env) (p : Process OneDriveConnect) (s : Served) :
    Process OneDriveConnect → Served → Prop
  | valid : Renewed env p s p s
  | refreshed {p' : Process OneDriveConnect} {t : Served} {req : Request} {reply : Reply}
      (hexpired : ¬ env.Valid p.conn.token)
      (hexchange : env.Exchanges s req reply t) (htoken : req.access = .token)
      (hok : reply.answered = some HttpStatus.ok) (hcomplete : p'.conn.token.Complete) :
      Renewed env p s p' t

private theorem wp_refreshAccessToken {Q : Int → Process OneDriveConnect → Served → Prop}
    (hincident : ¬ env.reliable)
    (hok : ∀ (p' : Process OneDriveConnect) t req reply, env.Exchanges s req reply t →
      req.access = .token → reply.answered = some HttpStatus.ok → p'.conn.token.Complete →
      Q 0 p' t)
    (hnotFound : ∀ (p' : Process OneDriveConnect) t req reply, env.Exchanges s req reply t →
      req.access = .token → reply.answered = some HttpStatus.notFound →
      Q (cInt (hiveHttpStatusError HttpStatus.notFound)) p' t)
    (hfail : ∀ rc (p' : Process OneDriveConnect) t, Fails rc → t.drive = s.drive → Q rc p' t) :
    Proc.wp env.world refreshAccessToken Q p s := by
  simp only [refreshAccessToken, Proc.wp_bind, wp_getToken]
  apply wp_requestToken hincident
  · intro p' t req reply hexchange htoken hanswered hcomplete
    rw [if_neg (by decide), Proc.wp_bind]
    apply wp_writebackTokens hcomplete
    intro p'' hconn
    exact hok p'' t req reply hexchange htoken hanswered (hconn ▸ hcomplete)
  · intro p' t req reply hexchange htoken hanswered
    rw [if_pos (intError_hiveHttpStatusError _).neg, Proc.wp_pure]
    exact hnotFound p' t req reply hexchange htoken hanswered
  · intro rc p' t hrc hdrive
    rw [if_pos hrc.neg, Proc.wp_pure]
    exact hfail rc p' t hrc hdrive

theorem wp_oauthTokenCheckExpire {Q : Int → Process OneDriveConnect → Served → Prop}
    (hvalid : env.reliable → env.Valid p.conn.token)
    (hok : ∀ p' t, env.Renewed p s p' t → Q 0 p' t)
    (hnotFound : ∀ (p' : Process OneDriveConnect) t req reply, ¬ env.Valid p.conn.token →
      env.Exchanges s req reply t → req.access = .token →
      reply.answered = some HttpStatus.notFound →
      Q (cInt (hiveHttpStatusError HttpStatus.notFound)) p' t)
    (hfail : ∀ rc (p' : Process OneDriveConnect) t, ¬ env.reliable → Fails rc →
      t.drive = s.drive → Q rc p' t) :
    Proc.wp env.world oauthTokenCheckExpire Q p s := by
  simp only [oauthTokenCheckExpire, Proc.wp_bind, wp_getToken]
  rw [wp_call_local rfl]
  intro now hnow
  simp only [Proc.wp_ite, Proc.wp_pure, Proc.wp_bind]
  refine ⟨fun _ => hok p s .valid, fun hafter => ?_⟩
  have hexpired : ¬ env.Valid p.conn.token := fun h => hafter (by simp [h now hnow])
  have hincident : ¬ env.reliable := fun h => hexpired (hvalid h)
  apply wp_refreshAccessToken hincident
  · intro p' t req reply hexchange htoken hanswered hcomplete
    rw [if_neg (by decide)]
    exact hok p' t (.refreshed hexpired hexchange htoken hanswered hcomplete)
  · intro p' t req reply hexchange htoken hanswered
    rw [if_pos (intError_hiveHttpStatusError _).neg, Proc.wp_pure]
    exact hnotFound p' t req reply hexpired hexchange htoken hanswered
  · intro rc p' t hrc hdrive
    rw [if_pos hrc.neg, Proc.wp_pure]
    exact hfail rc p' t hincident hrc hdrive

end

end HiveSdk
