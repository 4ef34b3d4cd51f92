import HiveSdk.Drive.Token
import HiveSdk.Records.Filling

/-!
# Look-ups, downloads and uploads

One specification for every function that works on an item, against a drive that does not lie. The first hypothesis of each says what has to hold for the environment to be relied on; the others give what each kind of result means for the drive.
-/

namespace HiveSdk

open Interaction OneDrive Filling

variable {env : Env} {p : Process OneDriveConnect} {s : Served}

/-- The connect is the same unless its token has been found expired. -/
def Env.Kept (env : Env) (p p' : Process OneDriveConnect) : Prop :=
  env.Valid p.conn.token → p'.conn = p.conn

/-- What has to hold for a day without incidents: the token is there and valid. -/
structure Env.Ready (env : Env) (token : OAuthToken) : Prop where
  present : token.accessToken.isSome
  valid : env.Valid token

/-- A look-up: the item has been asked for, and the answer is not a refusal of the refresh. -/
structure Asked (s t : Served) (exchanged : List Exchange) : Prop extends Quiet s t exchanged where
  ne_nil : exchanged ≠ []
  not_refused : ¬ Refused exchanged

theorem Asked.after {t u : Served} {xs ys : List Exchange} (h : Asked t u ys) (hxs : Quiet s t xs)
    (hnot : ¬ Refused xs) : Asked s u (xs ++ ys) where
  toQuiet := hxs.trans h.toQuiet
  ne_nil := List.append_ne_nil_of_right_ne_nil xs h.ne_nil
  not_refused := by
    by_cases hnil : xs = []
    · rw [hnil]
      exact h.not_refused
    · rw [refused_append hnil]
      exact hnot

theorem Env.Renewed.spec {p' : Process OneDriveConnect} {t : Served} (h : env.Renewed p s p' t) :
    env.Kept p p' ∧ (env.Ready p.conn.token → env.Ready p'.conn.token)
      ∧ ∃ exchanged, Quiet s t exchanged ∧ ¬ Refused exchanged := by
  cases h with
  | valid =>
      refine ⟨fun _ => rfl, fun hready => hready, [], Quiet.refl s, ?_⟩
      rintro ⟨x, hx, -⟩
      cases hx
  | @refreshed p' t req reply hexpired hexchange htoken hok hcomplete =>
      refine ⟨fun hvalid => absurd hvalid hexpired, fun hready => absurd hready.valid hexpired,
        [(req, reply)], hexchange.quiet (by rw [htoken]; rfl) ?_, ?_⟩
      · rw [Request.method_of_token htoken]
        decide
      · rintro ⟨x, hx, -, h404⟩
        obtain rfl : (req, reply) = x := by simpa using hx
        rw [hok] at h404
        cases h404

theorem wp_sendAuthorized {req : Request} {enable : Bool}
    {Q : Except Int (StatusCode × ResponseBody) → Process OneDriveConnect → Served → Prop}
    (hready : env.reliable → p.conn.token.accessToken.isSome)
    (hok : ∀ headers status reply response t,
      env.Exchanges s { req with headers := headers } reply t → reply.answered = some status →
      (enable → reply.body.length < 2 ^ 60 → response.Holds reply) →
      Q (.ok (status, response)) p t)
    (hfail : ∀ rc (p' : Process OneDriveConnect) headers reply t,
      env.Exchanges s { req with headers := headers } reply t → Fails rc →
      (env.reliable → reply.answered = none ∨ reply.answered = some HttpStatus.unauthorized) →
      Q (.error rc) p' t) :
    Proc.wp env.world (sendAuthorized req enable) Q p s := by
  have hanswered : ∀ {reply : Reply}, reply.code = 0 → reply.info = 0 →
      reply.answered = some reply.status := fun hcode hinfo => if_pos ⟨hcode, hinfo⟩
  have hfailed : ∀ {reply : Reply},
      reply.code ≠ 0 ∨ reply.info ≠ 0 ∨ reply.status = HttpStatus.unauthorized →
      reply.answered = none ∨ reply.answered = some HttpStatus.unauthorized := by
    intro reply h
    by_cases hdone : reply.code = 0 ∧ reply.info = 0
    · right
      rw [hanswered hdone.1 hdone.2]
      simpa [hdone] using h
    · exact .inl (if_neg hdone)
  simp only [sendAuthorized, Proc.wp_bind, wp_getToken]
  rcases haccess : p.conn.token.accessToken with _ | accessToken
  · refine (wp_undefinedBehaviour ..).2 fun _ hreliable => ?_
    simpa [haccess] using hready hreliable
  dsimp only
  rcases enable with _ | _
  · rw [if_neg Bool.false_ne_true, Proc.wp_bind, httpClientRequest, Proc.wp_bind, Proc.wp_call]
    refine ⟨by simp, fun reply t hexchange => ?_⟩
    rw [Proc.wp_pure, Proc.wp_bind]
    apply wp_checkReply
    · intro hcode hinfo _
      exact hok _ _ reply _ t hexchange (hanswered hcode hinfo) fun h => absurd h Bool.false_ne_true
    · intro err p' herr h
      exact hfail err p' _ reply t hexchange herr fun _ => hfailed h
  · rw [if_pos rfl, Proc.wp_bind]
    apply wp_httpClientRequestBody
    intro rc reply response t hexchange hrc hbody hne
    dsimp only
    rw [Proc.wp_bind]
    apply wp_checkReply
    · intro hzero hinfo _
      exact hok _ _ reply response t hexchange (hanswered (hrc hzero) hinfo) fun _ => hbody hzero
    · intro err p' herr h
      apply hfail err p' _ reply t hexchange herr
      intro hreliable
      exact hfailed (h.imp_left fun hne' => hne hne' hreliable)

/-! ### Item information -/

/-- The answer to an item request is a look-up, not a refusal. -/
private theorem asked_info {t : Served} {req : Request} {reply : Reply} {path : Bytes}
    (hexchange : env.Exchanges s req reply t) (haccess : req.access = .info path)
    (hmethod : req.method = .get) : Asked s t [(req, reply)] where
  toQuiet := hexchange.quiet (by rw [haccess]; rfl) (by rw [hmethod]; decide)
  ne_nil := List.cons_ne_nil _ _
  not_refused := by
    rintro ⟨x, hx, htoken, -⟩
    obtain rfl : (req, reply) = x := by simpa using hx
    rw [haccess] at htoken
    cases htoken

/-- The client reads what it has asked for. -/
private theorem read_of_names (query : Item.InfoQuery) {d d' : Drive} {path : Bytes} {req : Request} {json : Json}
    {size : Int} (hquery : req.query = [(bytes "select", query.text)])
    (hsize : json.sizeItem (bytes "size") = some size) (hnames : Env.Names d path req json d') :
    ∃ info, query.read json = some info ∧ info.size = size
      ∧ (query = .sizeAndDownloadUrl → d'.downloads info.downloadUrl = some path) := by
  cases query with
  | size =>
      refine ⟨⟨size, []⟩, ?_, rfl, fun h => by cases h⟩
      simp [Item.InfoQuery.read, hsize]
  | sizeAndDownloadUrl =>
      have hselects : req.Selects (bytes "@microsoft.graph.downloadUrl") := by
        refine ⟨Item.InfoQuery.sizeAndDownloadUrl.text, ?_, ?_⟩
        · rw [hquery]
          exact List.mem_singleton_self _
        · decide
      rw [Env.Names] at hnames
      rcases hurl : json.stringItem (bytes "@microsoft.graph.downloadUrl") with _ | url <;> rw [hurl] at hnames
      · exact absurd hselects hnames.1
      · refine ⟨⟨size, url⟩, ?_, rfl, fun _ => ?_⟩
        · simp [Item.InfoQuery.read, hsize, hurl]
        · rw [show d' = _ from hnames]
          exact Function.update_self ..

theorem wp_getFileInfo {path : Bytes} {query : Item.InfoQuery}
    {Q : Except Int Item.FileInfo → Process OneDriveConnect → Served → Prop}
    (hready : env.reliable → p.conn.token.accessToken.isSome)
    (hfits : env.reliable → (Url.item path []).text.length < maxUrlLen)
    (hfound : ∀ content (info : Item.FileInfo) t exchanged, s.drive.items path = some content →
      info.size = content.length → content.length < 2 ^ 63 →
      (query = .sizeAndDownloadUrl → t.drive.downloads info.downloadUrl = some path) →
      Asked s t exchanged → Q (.ok info) p t)
    (habsent : ∀ t exchanged, s.drive.items path = none → Asked s t exchanged →
      Q (.error (cInt (hiveHttpStatusError HttpStatus.notFound))) p t)
    (hfail : ∀ rc (p' : Process OneDriveConnect) t, ¬ env.reliable → Fails rc → Q (.error rc) p' t) :
    Proc.wp env.world (Item.getFileInfo path query) Q p s := by
  simp only [Item.getFileInfo, Proc.wp_bind, wp_formatUrl]
  refine ⟨fun hlong => ⟨by simp, fun _ _ _ _ hreliable => absurd (hfits hreliable) (by omega)⟩, fun _ => ?_⟩
  apply wp_sendAuthorized hready
  · intro headers status reply response t hexchange hanswered hbody
    obtain ⟨habsent', hok, -⟩ : _ ∧ _ ∧ _ := hexchange.serves
    have hasked := asked_info hexchange rfl rfl
    simp only [Proc.wp_ite, Proc.wp_pure, Proc.wp_bind]
    refine ⟨fun hne => ?_, fun hstatus => ?_⟩
    · by_cases h404 : status = HttpStatus.notFound
      · subst h404
        exact habsent t _ (habsent' hanswered) hasked
      · refine hfail _ p t (fun hreliable => ?_) (fails_hiveHttpStatusError h404)
        rcases (hexchange.good hreliable).info path rfl with h | h <;> rw [h] at hanswered <;>
          obtain rfl := Option.some.inj hanswered
        · exact hne rfl
        · exact h404 rfl
    · rw [not_not] at hstatus
      subst hstatus
      obtain ⟨content, json, hitem, hsays, hsize, hnames⟩ := hok hanswered
      have hholds := hbody rfl hsays.body_size
      have hne : response.used ≠ 0 := by
        rw [hholds.used]
        exact fun h => hsays.body_ne_nil (List.length_eq_zero_iff.1 h)
      rw [httpClientMoveResponseBody, if_neg hne, Proc.wp_pure]
      dsimp only
      rw [Proc.wp_bind]
      apply wp_cjsonParse fun hreliable => hholds.spare_ne_zero ((hexchange.good hreliable).room path rfl)
      intro rest parsed hparsed
      rw [show response.block.contents = _ from hholds.contents, hsays.parses rest] at hparsed
      rcases hparsed with rfl | ⟨hincident, rfl⟩
      · obtain ⟨info, hread, hinfo, hdownload⟩ := read_of_names query rfl hsize hnames
        dsimp only
        rw [hread]
        have hbound := (Json.sizeItem_nonneg hsize).2
        exact hfound content info t _ hitem hinfo (by omega) hdownload hasked
      · exact hfail _ p t hincident (fails_hiveGeneralError (by decide))
  · intro rc p' headers reply t hexchange hrc hanswered
    refine hfail rc p' t (fun hreliable => ?_) hrc
    rcases (hexchange.good hreliable).info path rfl with h | h <;>
      rcases hanswered hreliable with h' | h' <;> rw [h] at h' <;> cases h'

theorem wp_getFileLength {path : Bytes} {Q : Exit → Process OneDriveConnect → Served → Prop}
    (hready : env.reliable → env.Ready p.conn.token)
    (hfits : env.reliable → (Url.item path []).text.length < maxUrlLen)
    (hfound : ∀ content (p' : Process OneDriveConnect) t exchanged,
      s.drive.items path = some content → env.Kept p p' → Asked s t exchanged →
      (env.reliable → env.Ready p'.conn.token) → content.length < 2 ^ 63 →
      Q (.length content.length) p' t)
    (habsent : ∀ (p' : Process OneDriveConnect) t exchanged, s.drive.items path = none →
      env.Kept p p' → Asked s t exchanged → (env.reliable → env.Ready p'.conn.token) →
      Q (.int (cInt (hiveHttpStatusError HttpStatus.notFound))) p' t)
    (hrefused : ∀ (p' : Process OneDriveConnect) t exchanged, ¬ env.Valid p.conn.token →
      Quiet s t exchanged → Refused exchanged →
      Q (.int (cInt (hiveHttpStatusError HttpStatus.notFound))) p' t)
    (hfail : ∀ rc (p' : Process OneDriveConnect) t, ¬ env.reliable → Fails rc → Q (.int rc) p' t)
    (hmemory : ∀ (p' : Process OneDriveConnect) t, ¬ env.reliable →
      (∃ exchanged, Quiet s t exchanged) →
      Q (.code (hiveGeneralError HiveErr.outOfMemory)) p' t) :
    Proc.wp env.world (Item.getFileLength path) Q p s := by
  rw [Item.getFileLength, Proc.wp_bind]
  apply wp_oauthTokenCheckExpire (fun hreliable => (hready hreliable).valid)
  · intro p₁ t₁ hrenewed
    obtain ⟨hkept, hready₁, exchanged, hquiet, hnot⟩ := hrenewed.spec
    rw [if_neg (by decide), Proc.wp_bind, wp_call_local rfl]
    intro created hcreated
    rcases created with _ | _
    · rw [if_pos (by decide), Proc.wp_pure]
      exact hmemory p₁ t₁ (fun hreliable => Bool.false_ne_true (hcreated hreliable)) ⟨_, hquiet⟩
    rw [if_neg (by decide), Proc.wp_bind]
    apply wp_getFileInfo (fun hreliable => (hready₁ (hready hreliable)).present) hfits
    · intro content info t ys hitem hsize hbound _ hasked
      dsimp only
      rw [Proc.wp_pure, hsize]
      rw [hquiet.items] at hitem
      exact hfound content p₁ t _ hitem hkept (hasked.after hquiet hnot)
        (fun hreliable => hready₁ (hready hreliable)) hbound
    · intro t ys hitem hasked
      dsimp only
      rw [Proc.wp_pure]
      rw [hquiet.items] at hitem
      exact habsent p₁ t _ hitem hkept (hasked.after hquiet hnot)
        fun hreliable => hready₁ (hready hreliable)
    · intro rc p' t hincident hrc
      exact hfail rc p' t hincident hrc
  · intro p' t req reply hexpired hexchange htoken hanswered
    rw [if_pos (intError_hiveHttpStatusError _).neg, Proc.wp_pure]
    have hmethod : req.method ≠ .put := by
      rw [Request.method_of_token htoken]
      decide
    refine hrefused p' t [(req, reply)] hexpired ?_ ⟨_, rfl, htoken, hanswered⟩
    exact hexchange.quiet (by rw [htoken]; rfl) hmethod
  · intro rc p' t hincident hrc _
    rw [if_pos hrc.neg, Proc.wp_pure]
    exact hfail rc p' t hincident hrc

/-! ### Downloads -/

/-- Stored one behind the other, the pieces fill the block from the front, or do not fit. -/
theorem storeChunks_filled {block xs : Bytes} {chunks : List Bytes}
    (hxs : xs.length ≤ block.length) : Item.storeChunks (filled block xs) xs.length chunks
      = if (xs ++ chunks.flatten).length ≤ block.length then
          some (filled block (xs ++ chunks.flatten))
        else none := by
  induction chunks generalizing xs with
  | nil =>
      rw [List.flatten_nil, List.append_nil, if_pos hxs]
      rfl
  | cons chunk chunks ih =>
      rw [Item.storeChunks, Item.writeAt, filled_append, length_filled hxs, List.flatten_cons,
        ← List.append_assoc]
      have hlength : (xs ++ chunk).length = xs.length + chunk.length := List.length_append
      by_cases hfits : xs.length + chunk.length ≤ block.length
      · rw [if_pos hfits, Option.bind_eq_bind, Option.bind_some, ← hlength]
        exact ih (hlength ▸ hfits)
      · rw [if_neg hfits, if_neg]
        · rfl
        · rw [List.length_append, hlength]
          omega

theorem storeChunks_body {block : Bytes} {reply : Reply} :
    Item.storeChunks block 0 reply.chunks
      = if reply.body.length ≤ block.length then some (filled block reply.body) else none := by
  have h : Item.storeChunks (filled block []) _ reply.chunks = _ := storeChunks_filled (Nat.zero_le _)
  exact h

theorem wp_downloadFile {url path block : Bytes}
    {Q : Int × Bytes → Process OneDriveConnect → Served → Prop}
    (hurl : s.drive.downloads url = some path)
    (hroom : env.reliable →
      ∃ content, s.drive.items path = some content ∧ content.length ≤ block.length)
    (hok : ∀ content t exchanged, s.drive.items path = some content → Quiet s t exchanged →
      content.length ≤ block.length → Q (0, content ++ block.drop content.length) p t)
    (hfail : ∀ rc block' t, ¬ env.reliable → IntError rc →
      Q (rc, block') p t) :
    Proc.wp env.world (Item.downloadFile url block) Q p s := by
  rw [Item.downloadFile, Proc.wp_bind, httpClientRequest, Proc.wp_bind, Proc.wp_call]
  refine ⟨by simp, fun reply t hexchange => ?_⟩
  obtain ⟨-, hserved⟩ : _ ∧ _ := hexchange.serves
  have hquiet := hexchange.quiet rfl (by simp)
  have hgood : env.reliable → reply.answered = some HttpStatus.ok := fun hreliable => by
    obtain ⟨content, hitem, -⟩ := hroom hreliable
    exact (hexchange.good hreliable).fetch url path content rfl hurl hitem
  rw [Proc.wp_pure]
  dsimp only
  rw [storeChunks_body]
  by_cases hlarge : reply.body.length ≤ block.length
  · rw [if_pos hlarge]
    simp only [Proc.wp_ite, Proc.wp_pure]
    have hnone : ¬ (reply.code = 0 ∧ reply.info = 0) → ¬ env.reliable := fun hne hreliable => by
      have hanswered := hgood hreliable
      rw [Reply.answered, if_neg hne] at hanswered
      cases hanswered
    refine ⟨fun hne => hfail _ _ t (hnone fun h => hne h.1) (fails_hiveCurlError _).toIntError,
      fun hcode => ?_⟩
    refine ⟨fun hne => hfail _ _ t (hnone fun h => hne h.2) (fails_hiveCurlError _).toIntError,
      fun hinfo => ?_⟩
    have hanswered : reply.answered = some reply.status :=
      if_pos ⟨not_not.1 hcode, not_not.1 hinfo⟩
    refine ⟨fun hne => ?_, fun hstatus => ?_⟩
    · refine hfail _ _ t (fun hreliable => ?_) (intError_hiveHttpStatusError _)
      rw [hgood hreliable] at hanswered
      exact hne (Option.some.inj hanswered).symm
    · rw [not_not.1 hstatus] at hanswered
      obtain ⟨path', content, hurl', hitem, hbody⟩ := hserved hanswered
      obtain rfl : path = path' := Option.some.inj (hurl.symm.trans hurl')
      rw [hbody] at hlarge ⊢
      exact hok content t _ hitem hquiet hlarge
  · rw [if_neg hlarge]
    refine (wp_undefinedBehaviour ..).2 fun _ hreliable => ?_
    obtain ⟨path', content, hurl', hitem, hbody⟩ := hserved (hgood hreliable)
    obtain rfl : path = path' := Option.some.inj (hurl.symm.trans hurl')
    obtain ⟨content', hitem', hle⟩ := hroom hreliable
    obtain rfl : content = content' := Option.some.inj (hitem.symm.trans hitem')
    exact hlarge (hbody ▸ hle)

/-- `buflen` may be any size; the check against it is signed. -/
theorem wp_getFileToBuffer {path block : Bytes} {buflen : Nat}
    {Q : Exit × Bytes → Process OneDriveConnect → Served → Prop}
    (hready : env.reliable → env.Ready p.conn.token)
    (hfits : env.reliable → (Url.item path []).text.length < maxUrlLen)
    (hroom : env.reliable → ∀ content, s.drive.items path = some content →
      content.length ≤ block.length ∧ (0 < cSsize buflen → (content.length : Int) ≤ cSsize buflen))
    (hread : ∀ content (p' : Process OneDriveConnect) t exchanged,
      s.drive.items path = some content → env.Kept p p' → Quiet s t exchanged →
      (env.reliable → env.Ready p'.conn.token) →
      Q (.length content.length, content ++ block.drop content.length) p' t)
    (habsent : ∀ block' (p' : Process OneDriveConnect) t, env.reliable →
      s.drive.items path = none → Q (.int (cInt (hiveHttpStatusError HttpStatus.notFound)), block') p' t)
    (hfail : ∀ rc block' (p' : Process OneDriveConnect) t, ¬ env.reliable → IntError rc →
      Q (.int rc, block') p' t)
    (hlarge : ∀ code block' (p' : Process OneDriveConnect) t, ¬ env.reliable → code < 2 ^ 24 →
      t.callbacks = s.callbacks → Q (.code (hiveGeneralError code), block') p' t) :
    Proc.wp env.world (Item.getFileToBuffer path block buflen) Q p s := by
  rw [Item.getFileToBuffer, Proc.wp_bind]
  apply wp_oauthTokenCheckExpire (fun hreliable => (hready hreliable).valid)
  · intro p₁ t₁ hrenewed
    obtain ⟨hkept, hready₁, xs, hquiet, -⟩ := hrenewed.spec
    rw [if_neg (by decide), Proc.wp_bind, wp_call_local rfl]
    intro created hcreated
    rcases created with _ | _
    · rw [if_pos (by decide), Proc.wp_pure]
      exact hlarge _ _ p₁ t₁ (fun hreliable => Bool.false_ne_true (hcreated hreliable)) (by decide)
        hquiet.callbacks
    rw [if_neg (by decide), Proc.wp_bind]
    apply wp_getFileInfo (fun hreliable => (hready₁ (hready hreliable)).present) hfits
    · intro content info t ys hitem hsize _ hdownload hasked
      have hitem₀ : s.drive.items path = some content := hquiet.items ▸ hitem
      have hitem₂ : t.drive.items path = some content := hasked.items ▸ hitem
      simp only [Proc.wp_ite, Proc.wp_pure]
      refine ⟨fun hsmall => ?_, fun _ => ⟨fun hzero => ?_, fun _ => ?_⟩⟩
      · refine hlarge _ _ p₁ t (fun hreliable => ?_) (by decide)
          (hasked.callbacks.trans hquiet.callbacks)
        have hle := (hroom hreliable content hitem₀).2 hsmall.1
        omega
      · have hnil : content = [] := List.length_eq_zero_iff.1 (by omega)
        subst hnil
        exact hread [] p₁ t _ hitem₀ hkept (hquiet.trans hasked.toQuiet)
          fun hreliable => hready₁ (hready hreliable)
      · rw [Proc.wp_bind]
        apply wp_downloadFile (hdownload rfl)
        · intro hreliable
          exact ⟨content, hitem₂, (hroom hreliable content hitem₀).1⟩
        · intro content' u zs hitem' hquiet' _
          obtain rfl : content = content' := Option.some.inj (hitem₂.symm.trans hitem')
          dsimp only
          rw [if_neg (by decide), Proc.wp_pure, hsize]
          exact hread content p₁ u _ hitem₀ hkept ((hquiet.trans hasked.toQuiet).trans hquiet')
            fun hreliable => hready₁ (hready hreliable)
        · intro rc block' u hincident hrc
          dsimp only
          rw [if_pos hrc.neg, Proc.wp_pure]
          exact hfail rc block' p₁ u hincident hrc
    · intro t ys hitem hasked
      dsimp only
      rw [Proc.wp_pure]
      by_cases hreliable : env.reliable
      · exact habsent _ p₁ t hreliable (hquiet.items ▸ hitem)
      · exact hfail _ _ p₁ t hreliable (intError_hiveHttpStatusError _)
    · intro rc p' t hincident hrc
      exact hfail rc _ p' t hincident hrc.toIntError
  · intro p' t req reply hexpired hexchange htoken hanswered
    rw [if_pos (intError_hiveHttpStatusError _).neg, Proc.wp_pure]
    exact hfail _ _ p' t (fun hreliable => hexpired (hready hreliable).valid)
      (intError_hiveHttpStatusError _)
  · intro rc p' t hincident hrc _
    rw [if_pos hrc.neg, Proc.wp_pure]
    exact hfail rc _ p' t hincident hrc.toIntError

/-! ### An answer in one piece -/

theorem demoReply_body (status : StatusCode) (text : Bytes) : (demoReply status text).body = text := by
  rw [Reply.body, demoReply]
  split
  case isTrue hnil => exact hnil.symm
  case isFalse => exact List.append_nil _

theorem demoReply_leavesRoom {status : StatusCode} {text : Bytes} (hne : text ≠ []) (h : text.length < 512) :
    (demoReply status text).LeavesRoom := by
  have hpos := List.length_pos_iff.2 hne
  have hroom : ResponseBody.empty.roomFor text = ResponseBody.empty.newSize text.length := if_pos hpos
  rw [Reply.LeavesRoom, demoReply_body, demoReply, if_neg hne, allocation, ResponseBody.after, ResponseBody.after,
    hroom, ResponseBody.newSize_empty h]
  exact h

theorem Env.replies_zero (env : Env) (block : HeapBlock) : env.Replies (.heapAfter block) [0] := by
  exact fun _ hroom => zero_mem_take hroom
end HiveSdk
