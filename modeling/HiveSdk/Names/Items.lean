import HiveSdk.Files.Agreement
import HiveSdk.Interaction.Within

/-!
# The URLs of the item functions

Each function that works on an item formats its URL from the path of the item, and a large upload also the URL of the folder around it. Every other request goes to a URL that the client has been given. The lemmas below follow the functions once, for any set of calls that contains the requests for these URLs.
-/

namespace HiveSdk

open Interaction
open Proc (Within Preserves)
open FolderService (folderUrl folderUrl_fits)

/-- A URL and its terminator fit the buffer. -/
def Url.Fits (url : Url) : Prop := url.text.length < maxUrlLen

instance (url : Url) : Decidable url.Fits := inferInstanceAs (Decidable (_ < _))

theorem item_fits_iff {path suffix : Bytes} :
    (Url.item path suffix).Fits ↔ appRoot.length + 1 + path.length + suffix.length < maxUrlLen := by
  rw [Url.Fits, Url.text, List.length_append, List.length_append, List.length_append]
  exact Iff.rfl

/-- What is no longer than a URL that fits. -/
theorem Url.Fits.of_le {path path' suffix suffix' : Bytes} (h : (Url.item path suffix).Fits)
    (hle : path'.length + suffix'.length ≤ path.length + suffix.length) :
    (Url.item path' suffix').Fits := by
  rw [item_fits_iff] at h ⊢
  omega

theorem path_short {path suffix : Bytes} (h : (Url.item path suffix).Fits) : path.length < pathMax := by
  rw [item_fits_iff, maxUrlLen] at h
  rw [pathMax]
  omega

theorem snprintf_of_fits {path suffix : Bytes} (h : (Url.item path suffix).Fits) :
    snprintf pathMax path = path := snprintf_eq_self (path_short h)

/-- The URLs that the source does not put together. -/
def Url.IsGiven : Url → Prop
  | .token _ | .upload _ | .download _ | .nextLink _ => True
  | _ => False

/-- The calls that depend on no URL of the source's own. -/
def IsAside : Event → Prop
  | .perform req => req.url.IsGiven
  | .urlOverrun _ => False
  | _ => True

theorem TokenCall.isAside {e : Event} (h : TokenCall e) : IsAside e := by
  cases e with
  | perform req =>
      obtain ⟨url, body, rfl⟩ := h
      exact trivial
  | urlOverrun text => exact h
  | _ => exact trivial

/-- A set of calls that is only about the URLs of the source's own. -/
def Indifferent (φ : Event → Prop) : Prop := ∀ e, IsAside e → φ e

/-- The calls that are no requests and do not come from a URL that is too long. -/
def IsPlain : Event → Prop
  | .perform _ | .urlOverrun _ => False
  | _ => True

/-- A set of calls that is only about the requests to the drive. -/
structure Unconcerned (φ : Event → Prop) : Prop where
  plain : ∀ e, IsPlain e → φ e
  token : ∀ req, TokenRequest req → φ (.perform req)

theorem Unconcerned.tokenCall {φ : Event → Prop} (hφ : Unconcerned φ) {e : Event} (he : TokenCall e) : φ e := by
  cases e with
  | perform req => exact hφ.token req he
  | urlOverrun text => exact he.elim
  | _ => exact hφ.plain _ trivial

theorem Indifferent.unconcerned {φ : Event → Prop} (hφ : Indifferent φ) : Unconcerned φ := by
  refine ⟨fun e he => ?_, fun req hreq => hφ _ (TokenCall.isAside hreq)⟩
  cases e with
  | perform req => exact he.elim
  | urlOverrun text => exact he.elim
  | _ => exact hφ _ trivial

/-- Formatting the URL and sending a request to it are among the calls. -/
structure Reaches (φ : Event → Prop) (url : Url) : Prop where
  overrun : ¬ url.Fits → φ (.urlOverrun url.text)
  perform : url.Fits → ∀ req : Request, req.url = url → φ (.perform req)

/-! ### Requests -/

section
variable {φ : Event → Prop} {α : Type}

theorem within_undefinedBehaviour {σ : Type} (hφ : Unconcerned φ) :
    Within φ (undefinedBehaviour : Hive σ α) :=
  fun p => (wp_undefinedBehaviour _ p () _).2 (hφ.plain _ trivial)

theorem within_formatUrl (hφ : Unconcerned φ) {url : Url} (h : Reaches φ url)
    {f : Url → Hive OneDriveConnect α} (hf : url.Fits → Within φ (f url)) :
    Within φ (formatUrl url >>= f) := by
  intro p
  rw [Proc.wp_bind, wp_formatUrl]
  constructor
  · intro hlong
    exact ⟨h.overrun (not_lt.2 hlong), fun _ _ _ => hφ.plain _ trivial⟩
  · intro hshort
    exact hf (not_le.1 hshort) p

theorem within_oauthTokenCheckExpire (hφ : Unconcerned φ) : Within φ oauthTokenCheckExpire := by
  intro p
  exact Proc.wp_guard_mono (fun _ he => hφ.tokenCall he) guard_oauthTokenCheckExpire fun _ _ _ => trivial

theorem within_sendAuthorized (hφ : Unconcerned φ) {req : Request} {enable : Bool}
    (hreq : ∀ headers, φ (.perform { req with headers := headers })) :
    Within φ (sendAuthorized req enable) := by
  intro p
  apply wp_sendAuthorized_any
  · exact fun _ _ _ _ _ => hφ.plain _ trivial
  · exact fun _ _ _ _ _ => rfl
  · exact hφ.plain _ trivial
  · exact fun _ => hreq _
  · exact fun _ _ _ _ _ _ => trivial
  · exact fun _ _ _ _ _ _ _ => trivial

/-- A URL of the source's own, and a request to it. -/
theorem within_formatted (hφ : Unconcerned φ) {url : Url} (h : Reaches φ url) {req : Url → Request}
    (hreq : (req url).url = url) {enable : Bool}
    {f : Except Int (StatusCode × ResponseBody) → Hive OneDriveConnect α} (hf : ∀ result, Within φ (f result)) :
    Within φ (formatUrl url >>= fun url => sendAuthorized (req url) enable >>= f) :=
  within_formatUrl hφ h fun hfits =>
    .bind (within_sendAuthorized hφ fun _ => h.perform hfits _ hreq) hf

theorem within_httpClientMoveResponseBody (hφ : Unconcerned φ) {response : ResponseBody} :
    Within φ (httpClientMoveResponseBody response false : Hive OneDriveConnect _) := by
  rw [httpClientMoveResponseBody]
  exact .ite (fun _ => within_undefinedBehaviour hφ) fun _ => .pure _

theorem within_cjsonParse (hφ : Unconcerned φ) {block : HeapBlock} :
    Within φ (cjsonParse block : Hive OneDriveConnect _) :=
  .bind (.call (hφ.plain _ trivial)) fun _ =>
    .ite (fun _ => .call (hφ.plain _ trivial)) fun _ => within_undefinedBehaviour hφ

theorem within_httpClientRequest {req : Request} (hreq : φ (.perform req)) :
    Within φ (httpClientRequest req : Hive OneDriveConnect _) :=
  .bind (.call hreq) fun _ => .pure _

/-! ### The item functions -/

namespace Item

theorem within_buildCreateFolderRequestBody (hφ : Unconcerned φ) {fname : Bytes} :
    Within φ (buildCreateFolderRequestBody fname) := by
  have hcreate : φ .cjsonCreate := hφ.plain _ trivial
  rw [buildCreateFolderRequestBody]
  refine .bind (.call hcreate) fun _ => .ite (fun _ => .pure _) fun _ => ?_
  refine .bind (.call hcreate) fun _ => .ite (fun _ => .pure _) fun _ => ?_
  exact .bind (.call hcreate) fun _ => .ite (fun _ => .pure _) fun _ => .call (hφ.plain _ trivial)

theorem within_createFolder (hφ : Unconcerned φ) {path : Bytes} (h : Reaches φ (folderUrl path)) :
    Within φ (createFolder path) := by
  refine within_formatUrl hφ h fun hfits => ?_
  refine .bind (within_buildCreateFolderRequestBody hφ) fun body => ?_
  rcases body with _ | body
  · exact .pure _
  refine .bind (within_sendAuthorized hφ fun _ => h.perform hfits _ rfl) fun result => ?_
  rcases result with rc | reply
  · exact .pure _
  · exact .ite (fun _ => .pure _) fun _ => .pure _

theorem within_uploadFile (hφ : Unconcerned φ) {path content : Bytes}
    (h : Reaches φ (.item path (bytes ":/content"))) : Within φ (uploadFile path content) := by
  refine within_formatted hφ h rfl fun result => ?_
  rcases result with rc | reply
  · exact .pure _
  · exact .ite (fun _ => .pure _) fun _ => .pure _

theorem within_createUploadSession (hφ : Unconcerned φ) {path : Bytes} {len : Nat}
    (h : Reaches φ (.item path (bytes ":/createUploadSession"))) :
    Within φ (createUploadSession path len) := by
  refine within_formatted hφ h rfl fun result => ?_
  rcases result with rc | reply
  · exact .pure _
  refine .ite (fun _ => .pure _) fun _ => .bind (within_httpClientMoveResponseBody hφ) fun body => ?_
  rcases body with _ | body
  · exact .pure _
  refine .bind (within_cjsonParse hφ) fun json => ?_
  rcases json with _ | json
  · exact .pure _
  dsimp only
  rcases json.stringItem (bytes "uploadUrl") with _ | uploadUrl
  · exact .pure _
  · exact .ite (fun _ => .pure _) fun _ => .pure _

theorem within_uploadToSession {uploadUrl content : Bytes}
    (hgiven : ∀ req : Request, req.url = .upload uploadUrl → φ (.perform req)) :
    Within φ (uploadToSession uploadUrl content) := by
  refine .bind (within_httpClientRequest (hgiven _ rfl)) fun result => .ite (fun _ => .pure _) fun _ => ?_
  exact .ite (fun _ => .pure _) fun _ => .ite (fun _ => .pure _) fun _ => .pure _

theorem within_putThroughSession (hφ : Unconcerned φ) {content path : Bytes}
    (hgiven : ∀ url, ∀ req : Request, req.url = .upload url → φ (.perform req)) (hfolder : Reaches φ (folderUrl (dirname path)))
    (h : Reaches φ (.item path (bytes ":/createUploadSession"))) :
    Within φ (putThroughSession content path) := by
  refine .bind (within_createFolder hφ hfolder) fun rc => .ite (fun _ => .pure _) fun _ => ?_
  refine .bind (within_createUploadSession hφ h) fun result => ?_
  rcases result with rc | uploadUrl
  · exact .pure _
  · exact within_uploadToSession (hgiven uploadUrl)

theorem within_getFileInfo (hφ : Unconcerned φ) {path : Bytes} {query : InfoQuery}
    (h : Reaches φ (.item path [])) : Within φ (getFileInfo path query) := by
  refine within_formatted hφ h rfl fun result => ?_
  rcases result with rc | reply
  · exact .pure _
  refine .ite (fun _ => .pure _) fun _ => .bind (within_httpClientMoveResponseBody hφ) fun body => ?_
  rcases body with _ | body
  · exact .pure _
  refine .bind (within_cjsonParse hφ) fun json => ?_
  rcases json with _ | json
  · exact .pure _
  dsimp only
  rcases query.read json with _ | info
  · exact .pure _
  · exact .pure _

/-- The start of each function that works on an item. -/
theorem within_opened (hφ : Unconcerned φ) {caller : Caller} {denied : Int → Hive OneDriveConnect α}
    {noClient rest : Hive OneDriveConnect α} (hdenied : ∀ rc, Within φ (denied rc))
    (hnoClient : Within φ noClient) (hrest : Within φ rest) :
    Within φ (do
      let rc ← oauthTokenCheckExpire
      if rc < 0 then denied rc
      else do
        let created ← call (Event.httpClientNew caller)
        if !created then noClient else rest) := by
  refine .bind (within_oauthTokenCheckExpire hφ) fun rc => .ite (fun _ => hdenied rc) fun _ => ?_
  exact .bind (.call (hφ.plain _ trivial)) fun _ => .ite (fun _ => hnoClient) fun _ => hrest

/-- What is put behind a path to upload a content to it. -/
def uploadSuffix (content : Bytes) : Bytes :=
  if content.length ≤ smallUpload then bytes ":/content" else bytes ":/createUploadSession"

theorem uploadSuffix_of_small {content : Bytes} (h : content.length ≤ smallUpload) :
    uploadSuffix content = bytes ":/content" := if_pos h

theorem uploadSuffix_length (content : Bytes) : (uploadSuffix content).length ≤ 21 := by
  have hsession : (bytes ":/createUploadSession").length = 21 := by decide
  have hcontent : (bytes ":/content").length = 9 := by decide
  rw [uploadSuffix]
  split
  · omega
  · omega

theorem within_putFileFromBuffer (hφ : Unconcerned φ) {path content : Bytes}
    (hgiven : ∀ url, ∀ req : Request, req.url = .upload url → φ (.perform req))
    (hfolder : smallUpload < content.length → Reaches φ (folderUrl (dirname path)))
    (h : Reaches φ (.item path (uploadSuffix content))) :
    Within φ (putFileFromBuffer content path) := by
  refine within_opened hφ (fun _ => .pure _) (.pure _) ?_
  by_cases hsmall : content.length ≤ smallUpload
  · rw [uploadSuffix, if_pos hsmall] at h
    rw [if_pos hsmall]
    exact within_uploadFile hφ h
  · rw [uploadSuffix, if_neg hsmall] at h
    rw [if_neg hsmall]
    exact within_putThroughSession hφ hgiven (hfolder (not_le.1 hsmall)) h

theorem within_getFileLength (hφ : Unconcerned φ) {path : Bytes} (h : Reaches φ (.item path [])) :
    Within φ (getFileLength path) := by
  refine within_opened hφ (fun _ => .pure _) (.pure _) (.bind (within_getFileInfo hφ h) fun result => ?_)
  rcases result with rc | info
  · exact .pure _
  · exact .pure _

theorem within_downloadFile (hφ : Unconcerned φ) {downloadUrl block : Bytes}
    (hgiven : ∀ req : Request, req.url = .download downloadUrl → φ (.perform req)) :
    Within φ (downloadFile downloadUrl block) := by
  refine .bind (within_httpClientRequest (hgiven _ rfl)) fun result => ?_
  dsimp only
  rcases storeChunks block 0 result.2.chunks with _ | block'
  · exact within_undefinedBehaviour hφ
  refine .ite (fun _ => .pure _) fun _ => .ite (fun _ => .pure _) fun _ => ?_
  exact .ite (fun _ => .pure _) fun _ => .pure _

theorem within_getFileToBuffer (hφ : Unconcerned φ) {path block : Bytes} {buflen : Nat}
    (hgiven : ∀ url, ∀ req : Request, req.url = .download url → φ (.perform req))
    (h : Reaches φ (.item path [])) : Within φ (getFileToBuffer path block buflen) := by
  refine within_opened hφ (fun _ => .pure _) (.pure _) (.bind (within_getFileInfo hφ h) fun result => ?_)
  rcases result with rc | info
  · exact .pure _
  dsimp only
  split
  · exact .pure _
  refine .ite (fun _ => .pure _) fun _ => ?_
  exact .bind (within_downloadFile hφ (hgiven _)) fun _ => .ite (fun _ => .pure _) fun _ => .pure _

theorem within_deleteFile (hφ : Unconcerned φ) {path : Bytes} (h : Reaches φ (.item path (bytes ":"))) :
    Within φ (deleteFile path) := by
  refine within_opened hφ (fun _ => .pure _) (.pure _) (within_formatted hφ h rfl fun result => ?_)
  rcases result with rc | reply
  · exact .pure _
  · exact .ite (fun _ => .pure _) fun _ => .pure _

end Item

end

/-! ### Calls of the item functions -/

/-- A call of one of the functions on an item, without the path. -/
inductive ItemCall
  | put (content : Bytes)
  | length
  | get (block : Bytes) (buflen : Nat)
  | delete

namespace ItemCall

/-- What the call puts behind the path. -/
def suffix : ItemCall → Bytes
  | put content => Item.uploadSuffix content
  | length | get _ _ => []
  | delete => bytes ":"

/-- The URLs that the call may format. -/
def Formats (path : Bytes) (c : ItemCall) (url : Url) : Prop :=
  url = .item path c.suffix
    ∨ (∃ content, c = .put content ∧ smallUpload < content.length) ∧ url = folderUrl (dirname path)

/-- The call preserves an invariant. -/
def Preserved {τ : Type} (W : World Event Event.Answer τ) (I : Process OneDriveConnect → τ → Prop)
    (path : Bytes) : ItemCall → Prop
  | put content => Preserves W I (Item.putFileFromBuffer content path)
  | length => Preserves W I (Item.getFileLength path)
  | get block buflen => Preserves W I (Item.getFileToBuffer path block buflen)
  | delete => Preserves W I (Item.deleteFile path)

/-- A call keeps to a set that contains what its URLs lead to. -/
theorem preserved_of_reaches {φ : Event → Prop} (hφ : Indifferent φ) {path : Bytes} {c : ItemCall}
    (h : ∀ url, c.Formats path url → Reaches φ url) :
    c.Preserved (World.guard φ) (fun _ _ => True) path := by
  have hitem := h _ (.inl rfl)
  have hgiven : ∀ req : Request, req.url.IsGiven → φ (.perform req) := fun req hreq => hφ (.perform req) hreq
  cases c with
  | put content =>
      apply Within.preserves
      apply Item.within_putFileFromBuffer hφ.unconcerned
      · exact fun url req hurl => hgiven req (hurl ▸ trivial)
      · exact fun hlarge => h _ (.inr ⟨⟨content, rfl, hlarge⟩, rfl⟩)
      · exact hitem
  | length => exact (Item.within_getFileLength hφ.unconcerned hitem).preserves
  | get block buflen =>
      apply Within.preserves
      exact Item.within_getFileToBuffer hφ.unconcerned (fun url req hurl => hgiven req (hurl ▸ trivial)) hitem
  | delete => exact (Item.within_deleteFile hφ.unconcerned hitem).preserves

end ItemCall

end HiveSdk
