import HiveSdk.Names.Operations
import HiveSdk.Tokens.Refresh

/-!
# The token in the item functions

Each function looks at the token once and then makes one to four requests, with or without it. The 401 that is answered to a request with the token ends the function, so no second one follows it.
-/

namespace HiveSdk

open Interaction
open Proc (Preserves)

namespace TokenView

/-- The token may be sent, and no token response is waited for. -/
structure OnDrive (p : Process OneDriveConnect) (v : TokenView) : Prop where
  ready : Ready p v
  asking : v.asking = false

/-! ### Parts of the functions -/

section
variable {α : Type} {p : Process OneDriveConnect} {v : TokenView} {req : Request}

theorem preserves_quiet {I : Process OneDriveConnect → TokenView → Prop} {e : Event} (he : IsQuiet e) :
    Preserves world I (call e : Hive OneDriveConnect e.Answer) :=
  fun _ _ h => wp_call_quiet he fun _ => h

theorem preserves_undefinedBehaviour {I : Process OneDriveConnect → TokenView → Prop} :
    Preserves world I (undefinedBehaviour : Hive OneDriveConnect α) :=
  fun p v _ => (wp_undefinedBehaviour world p v _).2 trivial

theorem preserves_httpClientMoveResponseBody {I : Process OneDriveConnect → TokenView → Prop}
    {response : ResponseBody} :
    Preserves world I (httpClientMoveResponseBody response false : Hive OneDriveConnect _) := by
  rw [httpClientMoveResponseBody]
  exact .ite (fun _ => preserves_undefinedBehaviour) fun _ => .pure _

theorem onDrive_cjsonParse {block : HeapBlock} :
    Preserves world OnDrive (HiveSdk.cjsonParse block : Hive OneDriveConnect _) := by
  intro p v h
  apply wp_cjsonParse
  intro text json
  have hseen : v.observe ⟨.cjsonParse text, json⟩ = { v with asking := false, received := none } := by
    simp [observe, h.asking]
  rw [hseen]
  exact ⟨⟨h.ready.kept.drop rfl, h.ready.fresh⟩, rfl⟩

/-- A request without the token, to a URL that the drive has given. -/
theorem ready_httpClientRequest (hheaders : ∀ value, (authorization, value) ∉ req.headers)
    (hurl : req.url.isToken = false) :
    Preserves world Ready (httpClientRequest req : Hive OneDriveConnect _) := by
  intro p v h
  have hplain : ∀ reply, refuses req reply = false := by
    intro reply
    have hnone : req.headers.any (fun header => header.1 = authorization) = false := by
      rw [List.any_eq_false]
      intro header hheader hname
      have hsame : header.1 = authorization := by simpa using hname
      exact hheaders header.2 (hsame ▸ hheader)
    rw [refuses, hnone, Bool.false_and, Bool.false_and]
  have hstale : (v.stale || v.refused) = false := h.fresh
  apply wp_httpClientRequest
  · refine ⟨fun value hvalue => absurd hvalue (hheaders value), fun _ => h.fresh, fun htoken => ?_⟩
    exact absurd (htoken.symm.trans hurl) (by decide)
  intro rc reply u hanswered
  have hseen : u = v.observe ⟨.perform req, reply⟩ := by
    by_cases hrc : rc = 0
    · exact (hanswered.arrived hrc).1
    · rw [hanswered.failed hrc]
      simp [observe, hplain]
  have hfresh : u.mustRefresh = false := by simp [hseen, observe, mustRefresh, hplain, hstale]
  refine ⟨h.kept.of_view ?_ ?_ fun hneeds => ?_, hfresh⟩
  · rw [hseen]
    rfl
  · rw [hseen]
    rfl
  · rw [hfresh] at hneeds
    cases hneeds

theorem Ready.keeps {m : Hive OneDriveConnect α} (h : Ready p v) (hm : Preserves world Ready m) :
    Proc.wp world m (fun _ p' u => Kept p' u) p v :=
  Proc.wp_mono (fun _ _ _ hready => hready.kept) (hm p v h)

/-- A URL of the source's own. One that does not fit ends in undefined behaviour. -/
theorem wp_formatted {url : Url} {f : Url → Hive OneDriveConnect α}
    {Q : α → Process OneDriveConnect → TokenView → Prop} (h : Proc.wp world (f url) Q p v) :
    Proc.wp world (formatUrl url >>= f) Q p v := by
  rw [Proc.wp_bind, wp_formatUrl]
  exact ⟨fun _ => ⟨trivial, fun _ _ _ => trivial⟩, fun _ => h⟩

/-- A request with the token. -/
theorem wp_authorized (h : Ready p v) (hurl : req.url.isToken = false)
    (hheaders : ∀ value, (authorization, value) ∉ req.headers) {enable : Bool}
    {f : Except Int (StatusCode × ResponseBody) → Hive OneDriveConnect α}
    {Q : α → Process OneDriveConnect → TokenView → Prop}
    (herror : ∀ rc p' u, rc < 0 → Kept p' u → Proc.wp world (f (.error rc)) Q p' u)
    (hok : ∀ status response p' u, OnDrive p' u → Proc.wp world (f (.ok (status, response))) Q p' u) :
    Proc.wp world (sendAuthorized req enable >>= f) Q p v := by
  apply Proc.wp_bind_of (sent_sendAuthorized h hurl hheaders)
  intro result p' u hsent
  rcases result with rc | ⟨status, response⟩
  · exact herror rc p' u (hsent.failed rc rfl).1 (hsent.failed rc rfl).2
  · have harrived := hsent.arrived _ rfl
    exact hok status response p' u ⟨harrived.1, harrived.2⟩

/-- The start of each function that works on an item. -/
theorem kept_opened {caller : Caller} {denied : Int → α} {noClient : α} {rest : Hive OneDriveConnect α}
    (hrest : ∀ p v, Ready p v → Proc.wp world rest (fun _ p' u => Kept p' u) p v) :
    Preserves world Kept (do
      let rc ← oauthTokenCheckExpire
      if rc < 0 then return denied rc
      else do
        let created ← call (Event.httpClientNew caller)
        if !created then return noClient else rest) := by
  intro p v h
  apply Proc.wp_bind_of (checked_oauthTokenCheckExpire h)
  intro rc p' u hchecked
  rw [Proc.wp_ite, Proc.wp_pure, Proc.wp_bind]
  refine ⟨fun hneg => hchecked.failed hneg, fun hnneg => ?_⟩
  have hready := hchecked.valid hnneg
  refine wp_call_quiet (e := .httpClientNew caller) trivial fun created => ?_
  rw [Proc.wp_ite, Proc.wp_pure]
  exact ⟨fun _ => hready.kept, fun _ => hrest p' u hready⟩

end

/-! ### The item functions -/

/-- What is left where a function gives a result or an error: the token may be sent again after a result. -/
structure Left {α : Type} (result : Except Int α) (p : Process OneDriveConnect) (v : TokenView) : Prop where
  kept : Kept p v
  ready : ∀ a, result = .ok a → Ready p v

section
variable {α : Type} {p : Process OneDriveConnect} {v : TokenView}

theorem Left.of_onDrive (h : OnDrive p v) (result : Except Int α) : Left result p v :=
  ⟨h.ready.kept, fun _ _ => h.ready⟩

theorem Left.of_preserves {m : Hive OneDriveConnect (Except Int α)} (h : OnDrive p v)
    (hm : Preserves world OnDrive m) : Proc.wp world m (fun result p' u => Left result p' u) p v :=
  Proc.wp_mono (fun result _ _ honDrive => .of_onDrive honDrive result) (hm p v h)

theorem Left.error (h : Kept p v) (rc : Int) : Left (.error rc : Except Int α) p v :=
  ⟨h, fun _ herror => by cases herror⟩

end

namespace Item

section
variable {p : Process OneDriveConnect} {v : TokenView} {path content block : Bytes}

theorem preserves_buildCreateFolderRequestBody {I : Process OneDriveConnect → TokenView → Prop} {fname : Bytes} :
    Preserves world I (Item.buildCreateFolderRequestBody fname) := by
  have hcreate : Preserves world I (call .cjsonCreate : Hive OneDriveConnect _) := preserves_quiet trivial
  rw [Item.buildCreateFolderRequestBody]
  refine hcreate.bind fun _ => .ite (fun _ => .pure _) fun _ => ?_
  refine hcreate.bind fun _ => .ite (fun _ => .pure _) fun _ => ?_
  exact hcreate.bind fun _ => .ite (fun _ => .pure _) fun _ => preserves_quiet trivial

theorem checked_createFolder (h : Ready p v) :
    Proc.wp world (Item.createFolder path) (fun rc p' u => Checked rc p' u) p v := by
  have hmemory : cInt (hiveGeneralError HiveErr.outOfMemory) < 0 := (fails_hiveGeneralError (by decide)).neg
  have hcontentType : bytes "Content-Type" ≠ authorization := by decide
  apply wp_formatted
  apply Proc.wp_bind_of (preserves_buildCreateFolderRequestBody p v h)
  intro body p' u hready
  rcases body with _ | body
  · exact .fails hmemory hready.kept
  refine wp_authorized hready ?_ ?_ ?_ ?_
  · split <;> rfl
  · intro value hvalue
    exact hcontentType.symm (Prod.mk.inj (List.mem_singleton.1 hvalue)).1
  · exact fun rc p' u hneg hkept => .fails hneg hkept
  · intro status response p' u harrived
    dsimp only
    rw [Proc.wp_ite, Proc.wp_pure, Proc.wp_pure]
    exact ⟨fun _ => .fails (intError_hiveHttpStatusError _).neg harrived.ready.kept,
      fun _ => .success harrived.ready⟩

theorem kept_uploadFile (h : Ready p v) :
    Proc.wp world (Item.uploadFile path content) (fun _ p' u => Kept p' u) p v := by
  apply wp_formatted
  refine wp_authorized h rfl (fun _ hvalue => by cases hvalue) ?_ ?_
  · exact fun rc p' u _ hkept => hkept
  · intro status response p' u harrived
    dsimp only
    rw [Proc.wp_ite]
    exact ⟨fun _ => harrived.ready.kept, fun _ => harrived.ready.kept⟩

theorem left_createUploadSession {len : Nat} (h : Ready p v) :
    Proc.wp world (Item.createUploadSession path len) (fun result p' u => Left result p' u) p v := by
  apply wp_formatted
  refine wp_authorized h rfl (fun _ hvalue => by cases hvalue) ?_ ?_
  · exact fun rc p' u _ hkept => .error hkept rc
  intro status response p' u harrived
  refine Left.of_preserves harrived (.ite (fun _ => .pure _) fun _ => ?_)
  refine .bind preserves_httpClientMoveResponseBody fun body => ?_
  rcases body with _ | body
  · exact .pure _
  refine .bind onDrive_cjsonParse fun json => ?_
  rcases json with _ | json
  · exact .pure _
  dsimp only
  rcases json.stringItem (bytes "uploadUrl") with _ | uploadUrl
  · exact .pure _
  · exact .ite (fun _ => .pure _) fun _ => .pure _

theorem ready_uploadToSession {uploadUrl : Bytes} :
    Preserves world Ready (Item.uploadToSession uploadUrl content) := by
  have hothers : ∀ name ∈ [bytes "Content-Length", bytes "Content-Range", bytes "Transfer-Encoding",
      bytes "Expect"], name ≠ authorization := by decide
  refine .bind (ready_httpClientRequest (fun value hvalue => ?_) rfl) fun result => ?_
  · have hname : authorization ∈ [bytes "Content-Length", bytes "Content-Range", bytes "Transfer-Encoding",
        bytes "Expect"] := List.mem_map_of_mem (f := Prod.fst) hvalue
    exact hothers authorization hname rfl
  refine .ite (fun _ => .pure _) fun _ => .ite (fun _ => .pure _) fun _ => ?_
  exact .ite (fun _ => .pure _) fun _ => .pure _

theorem kept_putThroughSession (h : Ready p v) :
    Proc.wp world (Item.putThroughSession content path) (fun _ p' u => Kept p' u) p v := by
  apply Proc.wp_bind_of (checked_createFolder h)
  intro rc p₁ v₁ hchecked
  rw [Proc.wp_ite, Proc.wp_pure]
  refine ⟨fun hneg => hchecked.failed hneg, fun hnneg => ?_⟩
  apply Proc.wp_bind_of (left_createUploadSession (hchecked.valid hnneg))
  intro result p₂ v₂ hleft
  rcases result with rc | uploadUrl
  · exact hleft.kept
  · exact (hleft.ready uploadUrl rfl).keeps ready_uploadToSession

theorem kept_putFileFromBuffer : Preserves world Kept (Item.putFileFromBuffer content path) := by
  refine kept_opened fun p v h => ?_
  rw [Proc.wp_ite]
  exact ⟨fun _ => kept_uploadFile h, fun _ => kept_putThroughSession h⟩

theorem left_getFileInfo {query : Item.InfoQuery} (h : Ready p v) :
    Proc.wp world (Item.getFileInfo path query) (fun result p' u => Left result p' u) p v := by
  apply wp_formatted
  refine wp_authorized h rfl (fun _ hvalue => by cases hvalue) ?_ ?_
  · exact fun rc p' u _ hkept => .error hkept rc
  intro status response p' u harrived
  refine Left.of_preserves harrived (.ite (fun _ => .pure _) fun _ => ?_)
  refine .bind preserves_httpClientMoveResponseBody fun body => ?_
  rcases body with _ | body
  · exact .pure _
  refine .bind onDrive_cjsonParse fun json => ?_
  rcases json with _ | json
  · exact .pure _
  dsimp only
  rcases query.read json with _ | info
  · exact .pure _
  · exact .pure _

theorem kept_getFileLength : Preserves world Kept (Item.getFileLength path) := by
  refine kept_opened fun p v h => ?_
  apply Proc.wp_bind_of (left_getFileInfo h)
  intro result p' u hleft
  rcases result with rc | info
  · exact hleft.kept
  · exact hleft.kept

theorem ready_downloadFile {downloadUrl : Bytes} : Preserves world Ready (Item.downloadFile downloadUrl block) := by
  refine .bind (ready_httpClientRequest (fun _ hvalue => by cases hvalue) rfl) fun result => ?_
  dsimp only
  rcases Item.storeChunks block 0 result.2.chunks with _ | block'
  · exact preserves_undefinedBehaviour
  refine .ite (fun _ => .pure _) fun _ => .ite (fun _ => .pure _) fun _ => ?_
  exact .ite (fun _ => .pure _) fun _ => .pure _

theorem kept_getFileToBuffer {buflen : Nat} : Preserves world Kept (Item.getFileToBuffer path block buflen) := by
  refine kept_opened fun p v h => ?_
  apply Proc.wp_bind_of (left_getFileInfo h)
  intro result p' u hleft
  rcases result with rc | info
  · exact hleft.kept
  have hready : Ready p' u := hleft.ready info rfl
  dsimp only
  refine hready.keeps ?_
  split
  · exact .pure _
  refine .ite (fun _ => .pure _) fun _ => ready_downloadFile.bind fun fetched => ?_
  exact .ite (fun _ => .pure _) fun _ => .pure _

theorem kept_deleteFile : Preserves world Kept (Item.deleteFile path) := by
  refine kept_opened fun p v h => ?_
  apply wp_formatted
  refine wp_authorized h rfl (fun _ hvalue => by cases hvalue) ?_ ?_
  · exact fun rc p' u _ hkept => hkept
  · intro status response p' u harrived
    dsimp only
    rw [Proc.wp_ite]
    exact ⟨fun _ => harrived.ready.kept, fun _ => harrived.ready.kept⟩

end

end Item

end TokenView

end HiveSdk
