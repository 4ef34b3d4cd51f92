import HiveSdk.Names.Operations

/-!
# Names and the URL buffers

The name of a file or a key comes from the application, goes behind the path of its folder, and is pasted into URLs by `sprintf`. The buffer is the same for all of them, what comes behind the path differs from request to request, and the checks on the way are made against the length of a path. So each operation has its longest URL, and a longest name for it.
-/

namespace HiveSdk

open Interaction
open Proc (Within)
open FolderService (folderUrl folderUrl_fits)

/-- The calls with which no URL buffer is overrun. -/
def InBounds : Event → Prop
  | .urlOverrun _ => False
  | _ => True

theorem indifferent_inBounds : Indifferent InBounds := by
  intro e he
  cases e <;> first | exact trivial | exact he

theorem reaches_inBounds {url : Url} (h : url.Fits) : Reaches InBounds url :=
  ⟨fun hlong => absurd h hlong, fun _ _ _ => trivial⟩

/-! ### What stays in bounds fits

Each answer that leads on to the next URL is one that may come, so a program that stays in bounds whatever the answers are has URLs that fit.
-/

section
variable {p : Process OneDriveConnect}

/-- The world of programs that have to stay in bounds. -/
abbrev bounded : World Event Event.Answer Unit := World.guard InBounds

theorem fits_of_formatUrl {url : Url} {Q : Url → Process OneDriveConnect → Unit → Prop}
    (h : Proc.wp bounded (formatUrl url) Q p ()) : url.Fits ∧ Q url p () := by
  rw [wp_formatUrl] at h
  by_cases hlong : url.text.length ≥ maxUrlLen
  · exact (h.1 hlong).1.elim
  · exact ⟨not_le.1 hlong, h.2 hlong⟩

/-- The clock may show the time at which the token runs out. -/
theorem passes_checkExpire {Q : Int → Process OneDriveConnect → Unit → Prop}
    (h : Proc.wp bounded oauthTokenCheckExpire Q p ()) : Q 0 p () := by
  simp only [oauthTokenCheckExpire, Proc.wp_bind, wp_getToken, Proc.wp_guard_call] at h
  have hvalid : Timeval.after p.conn.token.expiresAt p.conn.token.expiresAt = false := by
    simp [Timeval.after]
  have hpassed := h.2 p.conn.token.expiresAt
  rw [hvalid] at hpassed
  exact hpassed

theorem passes_opened {α : Type} {caller : Caller} {denied : Int → Hive OneDriveConnect α}
    {noClient rest : Hive OneDriveConnect α} {Q : α → Process OneDriveConnect → Unit → Prop}
    (h : Proc.wp bounded (do
      let rc ← oauthTokenCheckExpire
      if rc < 0 then denied rc
      else do
        let created ← call (Event.httpClientNew caller)
        if !created then noClient else rest) Q p ()) : Proc.wp bounded rest Q p () := by
  rw [Proc.wp_bind] at h
  have hvalid := passes_checkExpire h
  rw [if_neg (lt_irrefl 0), Proc.wp_bind, Proc.wp_guard_call] at hvalid
  exact hvalid.2 true

/-- Any status but 401 may come back for a request with a token. -/
theorem passes_sendAuthorized {req : Request} (status : StatusCode)
    (htoken : p.conn.token.accessToken.isSome) (hstatus : status ≠ HttpStatus.unauthorized)
    {Q : Except Int (StatusCode × ResponseBody) → Process OneDriveConnect → Unit → Prop}
    (h : Proc.wp bounded (sendAuthorized req false) Q p ()) :
    Q (.ok (status, ResponseBody.empty)) p () := by
  obtain ⟨accessToken, haccess⟩ := Option.isSome_iff_exists.1 htoken
  simp only [sendAuthorized, Proc.wp_bind, wp_getToken, haccess, if_neg Bool.false_ne_true,
    httpClientRequest, Proc.wp_guard_call, Proc.wp_pure] at h
  have hreply := h.2 ⟨[], 0, 0, status⟩
  simp only [checkReply, ne_eq, not_true_eq_false, if_false, if_neg hstatus] at hreply
  exact hreply

/-- A body of one zero byte, and memory for it, may come back too. -/
theorem passes_sendAuthorized_body {req : Request} (htoken : p.conn.token.accessToken.isSome)
    {Q : Except Int (StatusCode × ResponseBody) → Process OneDriveConnect → Unit → Prop}
    (h : Proc.wp bounded (sendAuthorized req true) Q p ()) :
    ∃ response : ResponseBody, response.used ≠ 0 ∧ 0 ∈ response.block.contents ∧ Q (.ok (HttpStatus.ok, response)) p () := by
  obtain ⟨accessToken, haccess⟩ := Option.isSome_iff_exists.1 htoken
  simp only [sendAuthorized, Proc.wp_bind, wp_getToken, haccess, if_pos, httpClientRequestBody,
    Proc.wp_guard_call] at h
  have hreply := h.2 ⟨[[0]], 0, 0, HttpStatus.ok⟩
  simp only [deliver, httpResponseBodyWriteCallback, Proc.wp_bind, Proc.wp_ite, Proc.wp_guard_call] at hreply
  have htaken := (((hreply.1 (by decide)).2 (by decide)).2 true).1 rfl
  have hused : (ResponseBody.empty.append [0] (ResponseBody.empty.newSize 1)).used ≠ 0 :=
    Nat.one_ne_zero
  refine ⟨_, hused, List.mem_singleton_self _, ?_⟩
  simp only [Proc.wp_pure, if_pos, checkReply, ne_eq, not_true_eq_false, if_false] at htaken
  exact htaken

namespace Item

theorem passes_createFolder {path : Bytes} (htoken : p.conn.token.accessToken.isSome)
    {Q : Int → Process OneDriveConnect → Unit → Prop}
    (h : Proc.wp bounded (createFolder path) Q p ()) : Q 0 p () := by
  rw [createFolder, Proc.wp_bind] at h
  have hbody := (fits_of_formatUrl h).2
  simp only [buildCreateFolderRequestBody, Proc.wp_bind, Proc.wp_ite, Proc.wp_guard_call] at hbody
  have hmade := ((((hbody.2 true).2 (by decide)).2 true).2 (by decide)).2 true
  have hsent := (hmade.2 (by decide)).2 (some [])
  dsimp only at hsent
  rw [Proc.wp_bind] at hsent
  exact passes_sendAuthorized HttpStatus.ok htoken (by decide) hsent

theorem fits_of_putFileFromBuffer {path content : Bytes} (htoken : p.conn.token.accessToken.isSome)
    {Q : Int → Process OneDriveConnect → Unit → Prop}
    (h : Proc.wp bounded (putFileFromBuffer content path) Q p ()) :
    (Url.item path (uploadSuffix content)).Fits := by
  have hrest := passes_opened h
  rw [uploadSuffix]
  by_cases hsmall : content.length ≤ smallUpload
  · rw [if_pos hsmall] at hrest ⊢
    rw [uploadFile, Proc.wp_bind] at hrest
    exact (fits_of_formatUrl hrest).1
  · rw [if_neg hsmall] at hrest ⊢
    rw [putThroughSession, Proc.wp_bind] at hrest
    have hcreated := passes_createFolder htoken hrest
    rw [if_neg (lt_irrefl 0), Proc.wp_bind, createUploadSession, Proc.wp_bind] at hcreated
    exact (fits_of_formatUrl hcreated).1

theorem passes_getFileInfo {path : Bytes} {query : InfoQuery} {json : Json} {info : FileInfo}
    (htoken : p.conn.token.accessToken.isSome) (hread : query.read json = some info)
    {Q : Except Int FileInfo → Process OneDriveConnect → Unit → Prop}
    (h : Proc.wp bounded (getFileInfo path query) Q p ()) :
    (Url.item path []).Fits ∧ Q (.ok info) p () := by
  rw [getFileInfo, Proc.wp_bind] at h
  obtain ⟨hfits, hsent⟩ := fits_of_formatUrl h
  refine ⟨hfits, ?_⟩
  rw [Proc.wp_bind] at hsent
  obtain ⟨response, hused, hzero, hbody⟩ := passes_sendAuthorized_body htoken hsent
  simp only [ne_eq, not_true_eq_false, if_false, Proc.wp_bind, httpClientMoveResponseBody,
    if_neg hused, Proc.wp_pure, cjsonParse, Proc.wp_ite, Proc.wp_guard_call] at hbody
  have hparsed := ((hbody.2 []).1 (List.mem_append_left _ hzero)).2 (some json)
  simp only [hread] at hparsed
  exact hparsed

theorem fits_of_getFileLength {path : Bytes} {Q : Exit → Process OneDriveConnect → Unit → Prop}
    (h : Proc.wp bounded (getFileLength path) Q p ()) : (Url.item path []).Fits := by
  have hrest := passes_opened h
  rw [Proc.wp_bind, getFileInfo, Proc.wp_bind] at hrest
  exact (fits_of_formatUrl hrest).1

theorem fits_of_getFileToBuffer {path block : Bytes} {buflen : Nat}
    {Q : Exit × Bytes → Process OneDriveConnect → Unit → Prop}
    (h : Proc.wp bounded (getFileToBuffer path block buflen) Q p ()) : (Url.item path []).Fits := by
  have hrest := passes_opened h
  rw [Proc.wp_bind, getFileInfo, Proc.wp_bind] at hrest
  exact (fits_of_formatUrl hrest).1

/-- An answer that announces `n` bytes. -/
def announcement (n : Nat) : Json :=
  .object [(bytes "size", .number n), (bytes "@microsoft.graph.downloadUrl", .string (bytes "u"))]

theorem passes_getFileLength {path : Bytes} (htoken : p.conn.token.accessToken.isSome)
    {Q : Exit → Process OneDriveConnect → Unit → Prop}
    (h : Proc.wp bounded (getFileLength path) Q p ()) : Q (.length smallUpload) p () := by
  have hrest := passes_opened h
  rw [Proc.wp_bind] at hrest
  have hread : InfoQuery.size.read (announcement smallUpload) = some ⟨smallUpload, []⟩ := by decide
  exact (passes_getFileInfo htoken hread hrest).2

theorem passes_getFileToBuffer {path block : Bytes} (htoken : p.conn.token.accessToken.isSome)
    {Q : Exit × Bytes → Process OneDriveConnect → Unit → Prop}
    (h : Proc.wp bounded (getFileToBuffer path block smallUpload) Q p ()) :
    Q (.length smallUpload, block) p () := by
  have hrest := passes_opened h
  rw [Proc.wp_bind] at hrest
  have hread : InfoQuery.sizeAndDownloadUrl.read (announcement smallUpload)
      = some ⟨smallUpload, bytes "u"⟩ := by decide
  have hinfo := (passes_getFileInfo htoken hread hrest).2
  have hroom : ¬ (cSsize smallUpload > 0 ∧ (smallUpload : Int) > cSsize smallUpload) := by decide
  have hsome : ¬ (smallUpload : Int) = 0 := by decide
  dsimp only at hinfo
  rw [if_neg hroom, if_neg hsome, Proc.wp_bind] at hinfo
  simp only [downloadFile, httpClientRequest, Proc.wp_bind, Proc.wp_guard_call] at hinfo
  have hreply := hinfo.2 ⟨[], 0, 0, HttpStatus.ok⟩
  simp only [Proc.wp_pure, storeChunks, ne_eq, not_true_eq_false, if_false] at hreply
  exact hreply

theorem fits_of_deleteFile {path : Bytes} {Q : Int → Process OneDriveConnect → Unit → Prop}
    (h : Proc.wp bounded (deleteFile path) Q p ()) : (Url.item path (bytes ":")).Fits := by
  have hrest := passes_opened h
  rw [Proc.wp_bind] at hrest
  exact (fits_of_formatUrl hrest).1

end Item

namespace OneDrive

/-- A single value is a small upload. -/
theorem record_small {value : Bytes} (h : value.length ≤ hiveMaxValueLen) :
    (htonl value.length ++ value).length ≤ smallUpload := by
  rw [hiveMaxValueLen] at h
  simp only [htonl, smallUpload, List.length_append, List.length_cons, List.length_nil]
  omega

theorem fits_of_setValue {key value : Bytes} (htoken : p.conn.token.accessToken.isSome)
    (hvalue : value.length ≤ hiveMaxValueLen) {Q : Int → Process OneDriveConnect → Unit → Prop}
    (h : Proc.wp bounded (setValue key value) Q p ()) :
    (Url.item (keyPath key) (bytes ":/content")).Fits := by
  rw [setValue, Proc.wp_bind, Proc.wp_guard_call] at h
  rw [← Item.uploadSuffix_of_small (record_small hvalue)]
  exact Item.fits_of_putFileFromBuffer htoken (h.2 true)

/-- A stored content of the size of a small upload sends the next value through a session. -/
theorem fits_of_putValue {key value : Bytes} (htoken : p.conn.token.accessToken.isSome)
    (hvalue : value.length ≤ hiveMaxValueLen)
    {Q : Int → Process OneDriveConnect → Unit → Prop}
    (h : Proc.wp bounded (putValue key value) Q p ()) :
    (Url.item (keyPath key) (bytes ":/createUploadSession")).Fits := by
  rw [putValue, Proc.wp_bind] at h
  have hsize := Item.passes_getFileLength htoken h
  have hfound : ¬ isNotFound (cInt (smallUpload : Int)) = true := by decide
  have hnonneg : ¬ (smallUpload : Int) < 0 := by decide
  have hpos : (smallUpload : Int) > 0 := by decide
  rw [if_neg hfound, if_neg hnonneg, appendValue, Proc.wp_bind, Proc.wp_guard_call] at hsize
  have hread := hsize.2 true
  rw [if_neg (by decide), if_pos hpos, Proc.wp_bind] at hread
  have hput := Item.passes_getFileToBuffer htoken hread
  have hcode : ¬ cInt (smallUpload : Int) < 0 := by decide
  have hsame : ¬ cInt (smallUpload : Int) ≠ cInt smallUpload := fun hne => hne rfl
  dsimp only at hput
  rw [if_neg hcode, if_neg hsame] at hput
  have hfits := Item.fits_of_putFileFromBuffer htoken hput
  have hlarge : ¬ ((List.replicate (cSize ((smallUpload : Int) + kvEntrySize + value.length)) (0 : UInt8)).take
      (smallUpload : Int).toNat ++ htonl value.length ++ value).length ≤ smallUpload := by
    have hwhole : cSize ((smallUpload : Int) + kvEntrySize + value.length)
        = smallUpload + kvEntrySize + value.length := by
      simp only [smallUpload, kvEntrySize, hiveMaxValueLen] at hvalue ⊢
      unfold cSize
      omega
    rw [hwhole, Int.toNat_natCast, List.length_append, List.length_append, List.length_take,
      List.length_replicate]
    simp only [htonl, List.length_cons, List.length_nil, kvEntrySize]
    omega
  rw [Item.uploadSuffix, if_neg hlarge] at hfits
  exact hfits

theorem fits_of_getValues {key : Bytes} {Q : Int → Process OneDriveConnect → Unit → Prop}
    (h : Proc.wp bounded (getValues key) Q p ()) : (Url.item (keyPath key) []).Fits := by
  rw [getValues, Proc.wp_bind] at h
  exact Item.fits_of_getFileLength h

theorem fits_of_deleteKey {key : Bytes} {Q : Int → Process OneDriveConnect → Unit → Prop}
    (h : Proc.wp bounded (deleteKey key) Q p ()) : (Url.item (keyPath key) (bytes ":")).Fits := by
  rw [deleteKey, Proc.wp_bind] at h
  exact Item.fits_of_deleteFile h

end OneDrive

end

/-! ### The operations -/

namespace Operation

/-- The longest text that the operation may put behind the path. -/
def suffix : Operation → Bytes
  | putFileFromBuffer content _ => Item.uploadSuffix content
  -- the size of a local file, or of what is stored under a key, is not known before
  | putFile _ | putValue _ _ _ => bytes ":/createUploadSession"
  | getFileLength | getFileToBuffer _ _ _ | getFile _ | getValues => []
  | deleteFile | deleteKey => bytes ":"
  | setValue _ _ _ => bytes ":/content"

/-- The length of the longest name for which the longest URL fits. -/
def longestName (op : Operation) : Nat :=
  maxUrlLen - 1 - (Url.item (op.dir ++ bytes "/") op.suffix).text.length

theorem suffix_length (op : Operation) : op.suffix.length ≤ 21 := by
  have hsession : (bytes ":/createUploadSession").length = 21 := by decide
  have hcontent : (bytes ":/content").length = 9 := by decide
  have hcolon : (bytes ":").length = 1 := by decide
  cases op with
  | putFileFromBuffer content _ =>
      rw [suffix, Item.uploadSuffix]
      split
      · omega
      · omega
  | _ =>
      simp only [suffix, List.length_nil]
      omega

theorem dir_length (op : Operation) : op.dir.length ≤ 10 := by
  have hfiles : filesDir.length = 6 := by decide
  have hkeys : keysDir.length = 10 := by decide
  cases op <;> simp only [dir] <;> omega

theorem fits_iff (op : Operation) (name : Name) :
    (Url.item (op.dir ++ bytes "/" ++ name.text) op.suffix).Fits
      ↔ name.text.length ≤ op.longestName := by
  have hdir := op.dir_length
  have hsuffix := op.suffix_length
  have hroot : appRoot.length = 57 := by decide
  have hcolon : (bytes ":").length = 1 := by decide
  have hslash : (bytes "/").length = 1 := by decide
  rw [Url.Fits, longestName, Url.text, Url.text, maxUrlLen]
  simp only [List.length_append]
  omega

/-- No call of the operation puts more behind the path. -/
theorem suffix_of_makes {op : Operation} {c : ItemCall} (h : op.Makes c) :
    c.suffix.length ≤ op.suffix.length := by
  have hlong : ∀ content, (Item.uploadSuffix content).length ≤ (bytes ":/createUploadSession").length :=
    Item.uploadSuffix_length
  cases op with
  | putFileFromBuffer content hsize =>
      cases c with
      | put content' =>
          obtain rfl : content' = content := h
          exact le_rfl
      | _ => exact h.elim
  | putFile source =>
      cases c with
      | put content => exact hlong content
      | _ => exact h.elim
  | putValue value hvalue hsize =>
      cases c with
      | put content => exact hlong content
      | delete => exact h.elim
      | _ => exact Nat.zero_le _
  | setValue value hvalue hsize =>
      cases c with
      | put content =>
          obtain rfl : content = OneDrive.htonl value.length ++ value := h
          exact (congrArg List.length (Item.uploadSuffix_of_small (OneDrive.record_small hsize))).le
      | _ => exact h.elim
  | deleteFile | deleteKey =>
      cases c with
      | delete => exact le_rfl
      | _ => exact h.elim
  | _ =>
      cases c with
      | length | get => exact Nat.zero_le _
      | _ => exact h.elim

section
variable {name : Name} {content : Bytes}

/-- A name that is short enough, or refused, keeps the operation in bounds. -/
theorem inBounds_run {op : Operation}
    (h : (Url.item (op.dir ++ bytes "/" ++ name.text) op.suffix).Fits ∨ op.Refuses name) :
    Within InBounds (op.run name) := by
  refine within_run indifferent_inBounds fun hkept c hmakes url hformats => ?_
  have hfits := h.resolve_right hkept
  have hpath : op.path name = op.dir ++ bytes "/" ++ name.text := snprintf_of_fits hfits
  rw [hpath] at hformats
  apply reaches_inBounds
  rcases hformats with rfl | ⟨⟨content, rfl, hlarge⟩, rfl⟩
  · exact hfits.of_le (Nat.add_le_add_left (suffix_of_makes hmakes) _)
  · have hsuffix : (ItemCall.put content).suffix = bytes ":/createUploadSession" := if_neg (not_le.2 hlarge)
    have hle := suffix_of_makes hmakes
    rw [hsuffix] at hle
    apply folderUrl_fits (List.append_ne_nil_of_right_ne_nil _ name.ne_nil)
    exact hfits.of_le (Nat.add_le_add_left hle _)

/-- A path that is refused, or has room for the URL of its item. -/
def Readable (name : Name) : Prop :=
  (Url.item (OneDrive.filePath name.text) []).Fits ∨ (OneDrive.filePath name.text).length ≥ pathMax

/-- A local file of any length may be found. -/
theorem passes_readLocalFile {σ : Type} {p : Process σ} {path data : Bytes}
    (hsize : data.length ≤ hiveMaxFileSize) {Q : Option Bytes → Process σ → Unit → Prop}
    (h : Proc.wp bounded (readLocalFile path) Q p ()) : Q (some data) p () := by
  have hlength : cSize (data.length : Int) = data.length := by
    rw [hiveMaxFileSize] at hsize
    unfold cSize
    omega
  rw [readLocalFile, Proc.wp_bind, Proc.wp_guard_call] at h
  have hopened := h.2 (.ok ())
  dsimp only at hopened
  rw [Proc.wp_bind, Proc.wp_guard_call] at hopened
  have hsought := hopened.2 data.length
  rw [hlength, if_neg (not_lt.2 hsize), Proc.wp_bind, Proc.wp_guard_call] at hsought
  have hread := hsought.2 true
  rw [if_neg (by decide), Proc.wp_bind, Proc.wp_guard_call] at hread
  have hdone := hread.2 (.ok data)
  dsimp only at hdone
  rw [if_neg (not_not.2 rfl)] at hdone
  exact hdone

private theorem fits_of_hivePutFileFromBuffer {p : Process OneDriveConnect}
    (hsize : content.length ≤ hiveMaxFileSize) (htoken : p.conn.token.accessToken.isSome)
    {Q : Int → Process OneDriveConnect → Unit → Prop}
    (h : Proc.wp bounded (hivePutFileFromBuffer (some OneDrive.table) (some content) content.length
      (some name.text)) Q p ()) :
    (Url.item (OneDrive.filePath name.text) (Item.uploadSuffix content)).Fits := by
  rw [hivePutFileFromBuffer_eq name hsize, dispatch, Proc.wp_bind] at h
  have hcut := Item.fits_of_putFileFromBuffer htoken h
  exact ((FolderService.fits_snprintf_iff (P := fun _ => True)).1 ⟨hcut, trivial⟩).1

private theorem fits_or_long {α : Type} {suffix : Bytes} {refused rest : Hive OneDriveConnect α}
    {Q : α → Process OneDriveConnect → Unit → Prop} {p : Process OneDriveConnect}
    (hrest : Proc.wp bounded rest Q p () → (Url.item (OneDrive.filePath name.text) suffix).Fits)
    (h : Proc.wp bounded (if (OneDrive.filePath name.text).length ≥ pathMax then refused else rest) Q p ()) :
    (Url.item (OneDrive.filePath name.text) suffix).Fits
      ∨ (OneDrive.filePath name.text).length ≥ pathMax := by
  by_cases hlong : (OneDrive.filePath name.text).length ≥ pathMax
  · exact .inr hlong
  · rw [if_neg hlong] at h
    exact .inl (hrest h)

private theorem readable_of_hiveGetFileLength {p : Process OneDriveConnect}
    {Q : Int → Process OneDriveConnect → Unit → Prop}
    (h : Proc.wp bounded (hiveGetFileLength (some OneDrive.table) (some name.text)) Q p ()) :
    Readable name := by
  rw [hiveGetFileLength_eq, dispatchLength, Proc.wp_bind, lengthOf, Proc.wp_bind,
    OneDrive.getFileLength] at h
  exact fits_or_long Item.fits_of_getFileLength h

/-- An operation that stays in bounds has a name that is short enough, or refuses it. -/
theorem fits_of_run {op : Operation} (h : Within InBounds (op.run name)) :
    (Url.item (op.dir ++ bytes "/" ++ name.text) op.suffix).Fits ∨ op.Refuses name := by
  have hwp := h demoProcess
  have htoken : demoProcess.conn.token.accessToken.isSome := rfl
  have hcut : ∀ {suffix}, (Url.item (OneDrive.keyPath name.text) suffix).Fits →
      (Url.item (keysDir ++ bytes "/" ++ name.text) suffix).Fits :=
    fun hfits => ((FolderService.fits_snprintf_iff (P := fun _ => True)).1 ⟨hfits, trivial⟩).1
  cases op with
  | putFileFromBuffer content hsize => exact .inl (fits_of_hivePutFileFromBuffer hsize htoken hwp)
  | putFile source =>
      rw [run, hivePutFile_eq, Proc.wp_bind] at hwp
      have hsize : (List.replicate (smallUpload + 1) (0 : UInt8)).length ≤ hiveMaxFileSize := by
        rw [List.length_replicate]
        decide
      have hput := fits_of_hivePutFileFromBuffer hsize htoken (passes_readLocalFile hsize hwp)
      rw [Item.uploadSuffix, if_neg (by rw [List.length_replicate]; omega)] at hput
      exact .inl hput
  | getFileLength => exact (readable_of_hiveGetFileLength hwp).imp id fun hlong => ⟨rfl, hlong⟩
  | getFileToBuffer block buflen hbuflen =>
      rw [run, Proc.wp_bind, hiveGetFileToBuffer_eq name hbuflen, dispatchBuffer, Proc.wp_bind,
        bufferOf, Proc.wp_bind, OneDrive.getFileToBuffer] at hwp
      exact (fits_or_long Item.fits_of_getFileToBuffer hwp).imp id fun hlong => ⟨rfl, hlong⟩
  | getFile dst =>
      rw [run, hiveGetFile_eq, Proc.wp_bind] at hwp
      exact (readable_of_hiveGetFileLength hwp).imp id fun hlong => ⟨rfl, hlong⟩
  | deleteFile =>
      rw [run, hiveDeleteFile_eq, dispatch, Proc.wp_bind, OneDrive.deleteFile] at hwp
      exact (fits_or_long Item.fits_of_deleteFile hwp).imp id fun hlong => ⟨rfl, hlong⟩
  | putValue value hvalue hsize =>
      rw [run, hivePutValue_eq name hvalue hsize, dispatch, Proc.wp_bind] at hwp
      exact .inl (hcut (OneDrive.fits_of_putValue htoken hsize hwp))
  | setValue value hvalue hsize =>
      rw [run, hiveSetValue_eq name hvalue hsize, dispatch, Proc.wp_bind] at hwp
      exact .inl (hcut (OneDrive.fits_of_setValue htoken hsize hwp))
  | getValues =>
      rw [run, hiveGetValues_eq, dispatch, Proc.wp_bind] at hwp
      exact .inl (hcut (OneDrive.fits_of_getValues hwp))
  | deleteKey =>
      rw [run, hiveDeleteKey_eq, dispatch, Proc.wp_bind] at hwp
      exact .inl (hcut (OneDrive.fits_of_deleteKey hwp))

end

end Operation

/-! ### Which names are safe -/

/-- No run of the operation overruns a URL buffer. -/
def Operation.UrlsFit (op : Operation) (name : Name) : Prop :=
  ∀ p tr text k, ¬ Steps (op.run name p) tr (.ask (.urlOverrun text) k)

theorem Operation.urlsFit_iff_within {op : Operation} {name : Name} :
    op.UrlsFit name ↔ Within InBounds (op.run name) := by
  rw [Proc.within_iff]
  constructor
  · intro h p tr e k hsteps
    cases e with
    | urlOverrun text => exact h p tr text k hsteps
    | _ => trivial
  · intro h p tr text k hsteps
    exact h p tr (.urlOverrun text) k hsteps

/-- Every URL that an operation formats fits its buffer if and only if the name is no longer than the longest URL of the operation allows, or so long that the operation refuses its path. -/
theorem urls_fit_iff (op : Operation) (name : Name) :
    op.UrlsFit name ↔ name.text.length ≤ op.longestName ∨ op.Refuses name := by
  rw [Operation.urlsFit_iff_within, ← Operation.fits_iff]
  exact ⟨Operation.fits_of_run, Operation.inBounds_run⟩

example : Operation.deleteKey.longestName = 953 := by decide

/-- A name of a thousand letters. -/
def thousandLetters : Name where
  text := List.replicate 1000 97
  ne_nil := List.replicate_succ_ne_nil
  zero_notMem := fun h => absurd (List.eq_of_mem_replicate h) (by decide)

/-- The deletion of a key whose name has a thousand letters. -/
theorem long_key_overruns : ¬ Operation.deleteKey.UrlsFit thousandLetters := by
  intro h
  have hfits := Operation.fits_of_run (Operation.urlsFit_iff_within.1 h)
  have hlength : thousandLetters.text.length = 1000 := List.length_replicate
  have hlongest : Operation.deleteKey.longestName < 1000 := by decide
  rw [Operation.fits_iff, hlength] at hfits
  rcases hfits with hshort | hrefuses
  · omega
  · exact Bool.false_ne_true hrefuses.1

end HiveSdk
