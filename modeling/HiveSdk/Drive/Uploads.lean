import HiveSdk.Drive.Requests

/-!
# Uploads and deletions

The functions that change an item. An upload that returns success has stored exactly its content, in one request for a small content and through a session for a large one; whatever else happens, a negative result comes out. Here the environment need not be reliable in any way.
-/

namespace HiveSdk

open Interaction OneDrive

variable {env : Env} {p : Process OneDriveConnect} {s : Served}

/-- Exchanges with one upload, which is stored at `path`. -/
structure Stored (s t : Served) (path content : Bytes) (exchanged : List Exchange) : Prop where
  items : t.drive.items = Function.update s.drive.items path (some content)
  small : s.drive.Small → t.drive.Small
  callbacks : t.callbacks = s.callbacks
  history : t.history = s.history ++ exchanged
  puts : puts exchanged = [content]

theorem Quiet.stored {t u : Served} {path content : Bytes} {xs ys : List Exchange}
    (h : Quiet s t xs) (h' : Stored t u path content ys) : Stored s u path content (xs ++ ys) where
  items := by rw [h'.items, h.items]
  small := fun hsmall => h'.small (h.small hsmall)
  callbacks := h'.callbacks.trans h.callbacks
  history := by rw [h'.history, h.history, List.append_assoc]
  puts := by rw [puts_append, h.puts, h'.puts, List.nil_append]

private theorem stored_of_exchange {t : Served} {req : Request} {reply : Reply} {path : Bytes}
    (hexchange : env.Exchanges s req reply t) (hmethod : req.method = .put)
    (hstores : Env.Stores s.drive path req reply t.drive) (hstored : reply.stored) :
    Stored s t path req.body [(req, reply)] where
  items := by
    rw [Env.Stores, if_pos hstored] at hstores
    rw [hstores]
    rfl
  small := hexchange.small
  callbacks := hexchange.callbacks
  history := hexchange.history
  puts := by simp [HiveSdk.puts, hmethod]

/-! ### Small contents -/

private theorem wp_uploadFile {path content : Bytes}
    {Q : Int → Process OneDriveConnect → Served → Prop} (hincident : ¬ env.reliable)
    (hok : ∀ t exchanged, Stored s t path content exchanged → Q 0 p t)
    (hfail : ∀ rc (p' : Process OneDriveConnect) t, rc < 0 → Q rc p' t) :
    Proc.wp env.world (Item.uploadFile path content) Q p s := by
  simp only [Item.uploadFile, Proc.wp_bind, wp_formatUrl]
  refine ⟨fun _ => ⟨by simp, fun _ _ _ _ => hincident⟩, fun _ => ?_⟩
  apply wp_sendAuthorized fun hreliable => absurd hreliable hincident
  · intro headers status reply response t hexchange hanswered _
    simp only [Proc.wp_ite, Proc.wp_pure]
    refine ⟨fun _ => hfail _ p t (intError_hiveHttpStatusError _).neg, fun hstatus => ?_⟩
    have hstored : reply.stored := by
      by_cases hcreated : status = HttpStatus.created
      · exact .inr (hanswered.trans (congrArg some hcreated))
      · have hok : status = HttpStatus.ok := by
          by_contra hne
          exact hstatus ⟨hcreated, hne⟩
        exact .inl (hanswered.trans (congrArg some hok))
    exact hok t _ (stored_of_exchange hexchange rfl hexchange.serves hstored)
  · intro rc p' headers reply t _ hrc _
    exact hfail rc p' t hrc.neg

/-! ### Large contents -/

private theorem wp_buildCreateFolderRequestBody {name : Bytes}
    {Q : Option Bytes → Process OneDriveConnect → Served → Prop} (h : ∀ body, Q body p s) :
    Proc.wp env.world (Item.buildCreateFolderRequestBody name) Q p s := by
  rw [Item.buildCreateFolderRequestBody, Proc.wp_bind, wp_call_local rfl]
  intro _ _
  rw [Proc.wp_ite]
  refine ⟨fun _ => h none, fun _ => ?_⟩
  rw [Proc.wp_bind, wp_call_local rfl]
  intro _ _
  rw [Proc.wp_ite]
  refine ⟨fun _ => h none, fun _ => ?_⟩
  rw [Proc.wp_bind, wp_call_local rfl]
  intro _ _
  rw [Proc.wp_ite]
  refine ⟨fun _ => h none, fun _ => ?_⟩
  rw [wp_call_local rfl]
  intro body _
  exact h body

/-- Folders are created by requests that the drive of this model takes no notice of. -/
private theorem isRead_of_folder {req : Request} {dir : Bytes} (hmethod : req.method = .post)
    (hurl : req.url = if dir = [slash] then .appRootChildren else .item dir (bytes ":/children")) :
    req.access.isRead := by
  rw [Request.access, hmethod, hurl]
  by_cases hdir : dir = [slash]
  · rw [if_pos hdir]
    rfl
  · rw [if_neg hdir]
    rfl

private theorem wp_createFolder {path : Bytes}
    {Q : Int → Process OneDriveConnect → Served → Prop} (hincident : ¬ env.reliable)
    (hok : ∀ t exchanged, Quiet s t exchanged → Q 0 p t)
    (hfail : ∀ rc (p' : Process OneDriveConnect) t, rc < 0 → Q rc p' t) :
    Proc.wp env.world (Item.createFolder path) Q p s := by
  have hmemory : ∀ p' t, Q (cInt (hiveGeneralError HiveErr.outOfMemory)) p' t :=
    fun p' t => hfail _ p' t (fails_hiveGeneralError (by decide)).neg
  simp only [Item.createFolder, Proc.wp_bind, wp_formatUrl]
  refine ⟨fun _ => ⟨by simp, fun _ _ _ _ => hincident⟩, fun _ => ?_⟩
  apply wp_buildCreateFolderRequestBody
  intro body
  rcases body with _ | body
  · exact hmemory p s
  dsimp only
  rw [Proc.wp_bind]
  apply wp_sendAuthorized fun hreliable => absurd hreliable hincident
  · intro headers status reply response t hexchange hanswered _
    simp only [Proc.wp_ite, Proc.wp_pure]
    refine ⟨fun _ => hfail _ p t (intError_hiveHttpStatusError _).neg, fun _ => ?_⟩
    exact hok t _ (hexchange.quiet (isRead_of_folder rfl rfl) (by simp))
  · intro rc p' headers reply t _ hrc _
    exact hfail rc p' t hrc.neg

private theorem wp_createUploadSession {path : Bytes} {len : Nat}
    {Q : Except Int Bytes → Process OneDriveConnect → Served → Prop} (hincident : ¬ env.reliable)
    (hok : ∀ url t exchanged, Quiet s t exchanged → t.drive.uploads url = some path →
      Q (.ok url) p t)
    (hfail : ∀ rc (p' : Process OneDriveConnect) t, rc < 0 → Q (.error rc) p' t) :
    Proc.wp env.world (Item.createUploadSession path len) Q p s := by
  have hmemory : ∀ p' t, Q (.error (cInt (hiveGeneralError HiveErr.outOfMemory))) p' t :=
    fun p' t => hfail _ p' t (fails_hiveGeneralError (by decide)).neg
  simp only [Item.createUploadSession, Proc.wp_bind, wp_formatUrl]
  refine ⟨fun _ => ⟨by simp, fun _ _ _ _ => hincident⟩, fun _ => ?_⟩
  apply wp_sendAuthorized fun hreliable => absurd hreliable hincident
  · intro headers status reply response t hexchange hanswered hbody
    simp only [Proc.wp_ite, Proc.wp_pure, Proc.wp_bind]
    refine ⟨fun _ => hfail _ p t (intError_hiveHttpStatusError _).neg, fun hstatus => ?_⟩
    rw [not_not.1 hstatus] at hanswered
    have hserved : if reply.answered = some HttpStatus.ok then ∃ json url, env.Says reply json
        ∧ json.stringItem (bytes "uploadUrl") = some url ∧ t.drive
          = { s.drive with uploads := Function.update s.drive.uploads url (some path) }
        else t.drive = s.drive := hexchange.serves
    rw [if_pos hanswered] at hserved
    obtain ⟨json, url, hsays, hurl, hdrive⟩ := hserved
    have hholds := hbody rfl hsays.body_size
    rw [httpClientMoveResponseBody]
    by_cases hzero : response.used = 0
    · rw [if_pos hzero]
      exact (wp_undefinedBehaviour ..).2 fun _ => hincident
    rw [if_neg hzero, Proc.wp_pure]
    dsimp only
    rw [Proc.wp_bind]
    apply wp_cjsonParse fun hreliable => absurd hreliable hincident
    intro rest parsed hparsed
    rw [show response.block.contents = _ from hholds.contents, hsays.parses rest] at hparsed
    rcases hparsed with rfl | ⟨-, rfl⟩
    · dsimp only
      rw [hurl]
      simp only [Proc.wp_ite, Proc.wp_pure]
      refine ⟨fun _ => hfail _ p t (fails_hiveGeneralError (by decide)).neg, fun _ => ?_⟩
      apply hok url t _ (hexchange.quiet rfl (by simp))
      rw [hdrive]
      exact Function.update_self ..
    · exact hmemory p t
  · intro rc p' headers reply t _ hrc _
    exact hfail rc p' t hrc.neg

private theorem wp_uploadToSession {url path content : Bytes}
    {Q : Int → Process OneDriveConnect → Served → Prop}
    (hurl : s.drive.uploads url = some path)
    (hok : ∀ t exchanged, Stored s t path content exchanged → Q 0 p t)
    (hfail : ∀ rc (p' : Process OneDriveConnect) t, rc < 0 → Q rc p' t) :
    Proc.wp env.world (Item.uploadToSession url content) Q p s := by
  simp only [Item.uploadToSession, Proc.wp_bind, httpClientRequest, Proc.wp_call]
  refine ⟨by simp, fun reply t hexchange => ?_⟩
  simp only [Proc.wp_ite, Proc.wp_pure]
  refine ⟨fun _ => hfail _ p t (fails_hiveCurlError _).neg, fun hcode => ?_⟩
  refine ⟨fun _ => hfail _ p t (fails_hiveCurlError _).neg, fun hinfo => ?_⟩
  refine ⟨fun _ => hfail _ p t (intError_hiveHttpStatusError _).neg, fun hstatus => ?_⟩
  have hanswered : reply.answered = some reply.status := if_pos ⟨not_not.1 hcode, not_not.1 hinfo⟩
  have hstored : reply.stored := by
    by_cases hcreated : reply.status = HttpStatus.created
    · exact .inr (hanswered.trans (congrArg some hcreated))
    · have hok : reply.status = HttpStatus.ok := by
        by_contra hne
        exact hstatus ⟨hcreated, hne⟩
      exact .inl (hanswered.trans (congrArg some hok))
  have hserved := hexchange.serves
  simp only [Env.Serves, Request.access, hurl] at hserved
  exact hok t _ (stored_of_exchange hexchange rfl hserved hstored)

/-! ### Both -/

theorem wp_putFileFromBuffer {path content : Bytes}
    {Q : Int → Process OneDriveConnect → Served → Prop} (hincident : ¬ env.reliable)
    (hok : ∀ (p' : Process OneDriveConnect) t exchanged, env.Kept p p' →
      Stored s t path content exchanged → Q 0 p' t)
    (hfail : ∀ rc (p' : Process OneDriveConnect) t, rc < 0 → Q rc p' t) :
    Proc.wp env.world (Item.putFileFromBuffer content path) Q p s := by
  rw [Item.putFileFromBuffer, Proc.wp_bind]
  apply wp_oauthTokenCheckExpire fun hreliable => absurd hreliable hincident
  · intro p₁ t₁ hrenewed
    obtain ⟨hkept, -, xs, hquiet, -⟩ := hrenewed.spec
    rw [if_neg (by decide), Proc.wp_bind, wp_call_local rfl]
    intro created _
    simp only [Proc.wp_ite, Proc.wp_pure]
    refine ⟨fun _ => hfail _ p₁ t₁ (fails_hiveGeneralError (by decide)).neg, fun _ => ?_⟩
    constructor
    · intro _
      apply wp_uploadFile hincident
      · intro t ys hstored
        exact hok p₁ t _ hkept (hquiet.stored hstored)
      · exact hfail
    · intro _
      rw [Item.putThroughSession, Proc.wp_bind]
      apply wp_createFolder hincident
      · intro t₂ ys hquiet₂
        rw [if_neg (by decide), Proc.wp_bind]
        apply wp_createUploadSession hincident
        · intro url t₃ zs hquiet₃ hurl
          apply wp_uploadToSession hurl
          · intro t us hstored
            exact hok p₁ t _ hkept (((hquiet.trans hquiet₂).trans hquiet₃).stored hstored)
          · exact hfail
        · intro rc p' t hrc
          exact hfail rc p' t hrc
      · intro rc p' t hrc
        rw [if_pos hrc, Proc.wp_pure]
        exact hfail rc p' t hrc
  · intro p' t req reply _ _ _ _
    rw [if_pos (intError_hiveHttpStatusError _).neg, Proc.wp_pure]
    exact hfail _ p' t (intError_hiveHttpStatusError _).neg
  · intro rc p' t _ hrc _
    rw [if_pos hrc.neg, Proc.wp_pure]
    exact hfail rc p' t hrc.neg

/-! ### Deletions -/

/-- Exchanges after which `path` is absent; the drive has said so itself. -/
structure Removed (s t : Served) (path : Bytes) (exchanged : List Exchange) : Prop where
  items : t.drive.items = Function.update s.drive.items path none
  small : s.drive.Small → t.drive.Small
  callbacks : t.callbacks = s.callbacks
  history : t.history = s.history ++ exchanged
  not_refused : ¬ Refused exchanged

private theorem removed_of_exchange {t u : Served} {req : Request} {reply : Reply} {path : Bytes}
    {xs : List Exchange} (hquiet : Quiet s t xs) (hnot : ¬ Refused xs)
    (hexchange : env.Exchanges t req reply u) (haccess : req.access = .remove path)
    (hitems : u.drive.items = Function.update t.drive.items path none) :
    Removed s u path (xs ++ [(req, reply)]) where
  items := by rw [hitems, hquiet.items]
  small := fun hsmall => hexchange.small (hquiet.small hsmall)
  callbacks := hexchange.callbacks.trans hquiet.callbacks
  history := by rw [hexchange.history, hquiet.history, List.append_assoc]
  not_refused := by
    by_cases hnil : xs = []
    · subst hnil
      rintro ⟨x, hx, htoken, -⟩
      obtain rfl : (req, reply) = x := by simpa using hx
      rw [haccess] at htoken
      cases htoken
    · rw [refused_append hnil]
      exact hnot

theorem wp_deleteFile {path : Bytes} {Q : Int → Process OneDriveConnect → Served → Prop}
    (hincident : ¬ env.reliable)
    (hremoved : ∀ rc (p' : Process OneDriveConnect) t exchanged, env.Kept p p' →
      rc = 0 ∨ rc = cInt (hiveHttpStatusError HttpStatus.notFound) ∧ s.drive.items path = none →
      Removed s t path exchanged → Q rc p' t)
    (hrefused : ∀ (p' : Process OneDriveConnect) t exchanged, ¬ env.Valid p.conn.token →
      Quiet s t exchanged → Refused exchanged →
      Q (cInt (hiveHttpStatusError HttpStatus.notFound)) p' t)
    (hfail : ∀ rc (p' : Process OneDriveConnect) t, Fails rc → Q rc p' t) :
    Proc.wp env.world (Item.deleteFile path) Q p s := by
  rw [Item.deleteFile, Proc.wp_bind]
  apply wp_oauthTokenCheckExpire fun hreliable => absurd hreliable hincident
  · intro p₁ t₁ hrenewed
    obtain ⟨hkept, -, xs, hquiet, hnot⟩ := hrenewed.spec
    rw [if_neg (by decide), Proc.wp_bind, wp_call_local rfl]
    intro created _
    simp only [Proc.wp_ite, Proc.wp_pure, Proc.wp_bind, wp_formatUrl]
    refine ⟨fun _ => hfail _ p₁ t₁ (fails_hiveGeneralError (by decide)), fun _ => ?_⟩
    refine ⟨fun _ => ⟨by simp, fun _ _ _ _ => hincident⟩, fun _ => ?_⟩
    apply wp_sendAuthorized fun hreliable => absurd hreliable hincident
    · intro headers status reply response t hexchange hanswered _
      obtain ⟨habsent, hgone, -⟩ : (reply.answered = some HttpStatus.notFound →
          t₁.drive.items path = none ∧ t.drive = t₁.drive) ∧
        (reply.answered = some HttpStatus.noContent → t.drive = t₁.drive.remove path) ∧
        _ := hexchange.serves
      simp only [Proc.wp_ite, Proc.wp_pure]
      refine ⟨fun hne => ?_, fun hstatus => ?_⟩
      · by_cases h404 : status = HttpStatus.notFound
        · subst h404
          obtain ⟨hnone, hdrive⟩ := habsent hanswered
          have hitems : t.drive.items = Function.update t₁.drive.items path none := by
            rw [hdrive, ← hnone, Function.update_eq_self]
          have hnone₀ : s.drive.items path = none := hquiet.items ▸ hnone
          exact hremoved _ p₁ t _ hkept (.inr ⟨rfl, hnone₀⟩)
            (removed_of_exchange hquiet hnot hexchange rfl hitems)
        · exact hfail _ p₁ t (fails_hiveHttpStatusError h404)
      · rw [not_not.1 hstatus] at hanswered
        have hitems : t.drive.items = Function.update t₁.drive.items path none := by
          rw [hgone hanswered]
          rfl
        exact hremoved 0 p₁ t _ hkept (.inl rfl)
          (removed_of_exchange hquiet hnot hexchange rfl hitems)
    · intro rc p' headers reply t _ hrc _
      exact hfail rc p' t hrc
  · intro p' t req reply hexpired hexchange htoken hanswered
    rw [if_pos (intError_hiveHttpStatusError _).neg, Proc.wp_pure]
    have hmethod : req.method ≠ .put := by
      rw [Request.method_of_token htoken]
      decide
    exact hrefused p' t _ hexpired (hexchange.quiet (by rw [htoken]; rfl) hmethod)
      ⟨_, rfl, htoken, hanswered⟩
  · intro rc p' t _ hrc _
    rw [if_pos hrc.neg, Proc.wp_pure]
    exact hfail rc p' t hrc

end HiveSdk
