import HiveSdk.Files.Folders

/-!
# The two ways of uploading

A small content is put with one request, which creates the folders it needs. A large one is preceded by a request for the folder it goes into, and the answer that there is one already is an error to the source. So the large path works only where that folder is missing and the folder around it is not: on the first large upload to a folder, and on none after it.
-/

namespace HiveSdk

open Interaction OneDrive

/-! ### Paths -/

theorem dirname_length {path : Bytes} (h : path ≠ []) : (dirname path).length ≤ path.length := by
  have hpos : 0 < path.length := List.length_pos_iff.2 h
  have hdrop : ∀ q : Bytes, (q.reverse.dropWhile (· = slash)).reverse.length ≤ q.length := by
    intro q
    have hle := (List.dropWhile_sublist (l := q.reverse) (· = slash)).length_le
    simpa using hle
  have hrest : ∀ q : Bytes, (q.reverse.dropWhile (· ≠ slash)).reverse.length ≤ q.length := by
    intro q
    have hle := (List.dropWhile_sublist (l := q.reverse) (· ≠ slash)).length_le
    simpa using hle
  have hdot : (bytes ".").length = 1 := by decide
  have hslash : [slash].length = 1 := rfl
  have hdir := (hdrop ((((path.reverse.dropWhile (· = slash)).reverse).reverse.dropWhile
    (· ≠ slash)).reverse)).trans ((hrest _).trans (hdrop path))
  simp only [dirname]
  split
  · rw [hslash]
    omega
  · split
    · omega
    · split
      · omega
      · exact hdir

theorem dirname_ne_nil (path : Bytes) : dirname path ≠ [] := by
  have hdot : bytes "." ≠ [] := by decide
  simp only [dirname]
  split
  · split
    · exact hdot
    · exact List.cons_ne_nil _ _
  · split
    · exact hdot
    · split
      · exact List.cons_ne_nil _ _
      case isFalse hdir => exact hdir

theorem segments_slash : segments [slash] = [] := by decide

namespace FolderService

variable {service : FolderService} {p : Process OneDriveConnect} {s : Cloud}

/-! ### The requests of an upload -/

private theorem stored_ne_unauthorized (tree : FolderTree) (path : Bytes) :
    service.stored tree path ≠ HttpStatus.unauthorized := by
  rcases service.stored_ok tree path with h | h <;> rw [h] <;> decide

private theorem stored_accepted (tree : FolderTree) (path : Bytes) :
    ¬ (service.stored tree path ≠ HttpStatus.created ∧ service.stored tree path ≠ HttpStatus.ok) := by
  rintro ⟨hcreated, hok⟩
  exact (service.stored_ok tree path).elim hok hcreated

private theorem wp_uploadFile_iff {path content : Bytes} (htoken : p.conn.token.accessToken.isSome)
    {Q : Int → Process OneDriveConnect → Cloud → Prop} :
    Proc.wp service.serving (Item.uploadFile path content) Q p s
      ↔ (Url.item path (bytes ":/content")).text.length < maxUrlLen ∧ Q 0 p (s.put path content) := by
  have hput : Plain { method := .put, url := .item path (bytes ":/content"), body := content } :=
    ⟨fun _ h => (by cases h), fun h => (by cases h)⟩
  rw [Item.uploadFile, Proc.wp_bind, wp_formatUrl_iff, and_congr_right_iff]
  intro _
  rw [Proc.wp_bind, wp_sendAuthorized_iff htoken hput (stored_ne_unauthorized s.tree path)]
  show Proc.wp _ (if service.stored s.tree path ≠ HttpStatus.created
      ∧ service.stored s.tree path ≠ HttpStatus.ok then _ else _) Q p _ ↔ _
  rw [if_neg (stored_accepted s.tree path)]
  exact Iff.rfl

private theorem wp_buildBody_iff {name : Bytes}
    {Q : Option Bytes → Process OneDriveConnect → Cloud → Prop} :
    Proc.wp service.serving (Item.buildCreateFolderRequestBody name) Q p s
      ↔ Q (some (service.print (folderJson name))) p s := by
  have hcreate : ∀ ok (t : Cloud), service.world.step s .cjsonCreate ok t ↔ ok = true ∧ t = s :=
    fun _ _ => Iff.rfl
  simp only [Item.buildCreateFolderRequestBody, Proc.wp_bind]
  rw [wp_call_sure true hcreate, if_neg (by decide), Proc.wp_bind, wp_call_sure true hcreate,
    if_neg (by decide), Proc.wp_bind, wp_call_sure true hcreate, if_neg (by decide)]
  exact wp_call_sure _ fun _ _ => Iff.rfl

/-- The URL under which a folder is created. -/
def folderUrl (path : Bytes) : Url :=
  if dirname path = [slash] then .appRootChildren else .item (dirname path) (bytes ":/children")

/-- The folder around an item has a shorter URL than the item's upload session. -/
theorem folderUrl_fits {path : Bytes} (hpath : path ≠ [])
    (h : (Url.item path (bytes ":/createUploadSession")).text.length < maxUrlLen) :
    (folderUrl (dirname path)).text.length < maxUrlLen := by
  have hdir := (dirname_length (dirname_ne_nil path)).trans (dirname_length hpath)
  have hsession : (bytes ":/createUploadSession").length = 21 := by decide
  have hchildren : (bytes ":/children").length = 10 := by decide
  have hroot : (bytes "/children").length = 9 := by decide
  rw [folderUrl]
  split
  all_goals
    simp only [Url.text, List.length_append] at h ⊢
    omega

/-- The request with which a folder is created. -/
private def folderRequest (service : FolderService) (path : Bytes) : Request where
  method := .post
  url := folderUrl path
  headers := [(bytes "Content-Type", bytes "application/json")]
  body := service.print (folderJson (basename path))

private theorem folderRequest_access (path : Bytes) :
    (folderRequest service path).access = .other := by
  have hne : bytes ":/children" ≠ bytes ":/createUploadSession" := by decide
  by_cases hroot : dirname path = [slash]
  · simp only [Request.access, folderRequest, folderUrl, if_pos hroot]
  · simp only [Request.access, folderRequest, folderUrl, if_neg hroot, if_neg hne]

private theorem folderRequest_parent (path : Bytes) :
    (folderRequest service path).parent = some (segments (dirname path)) := by
  by_cases hroot : dirname path = [slash]
  · simp only [Request.parent, folderRequest, folderUrl, if_pos hroot]
    rw [hroot, segments_slash]
  · simp only [Request.parent, folderRequest, folderUrl, if_neg hroot, if_true]

private theorem respond_folderRequest (path : Bytes) :
    service.respond s (folderRequest service path)
      = create s (segments (dirname path)) (basename path) := by
  have hname : service.folderName (folderRequest service path).body = some (basename path) :=
    service.folderName_print _
  simp only [respond, folderRequest_access, folderRequest_parent, hname]

private theorem create_status (parent : List Bytes) (name : Bytes) :
    (create s parent name).1 = HttpStatus.created ∨ (create s parent name).1 = HttpStatus.notFound
      ∨ (create s parent name).1 = conflict := by
  rw [create]
  split
  · exact .inr (.inl rfl)
  · split
    · exact .inr (.inr rfl)
    · exact .inl rfl

private theorem wp_createFolder_iff {path : Bytes} (htoken : p.conn.token.accessToken.isSome)
    {Q : Int → Process OneDriveConnect → Cloud → Prop} :
    Proc.wp service.serving (Item.createFolder path) Q p s
      ↔ (folderUrl path).text.length < maxUrlLen
        ∧ Q (if (create s (segments (dirname path)) (basename path)).1 = HttpStatus.created then 0
            else cInt (hiveHttpStatusError (create s (segments (dirname path)) (basename path)).1)) p
          (create s (segments (dirname path)) (basename path)).2 := by
  have hplain : Plain (folderRequest service path) := by
    refine ⟨fun path' => ?_, ?_⟩
    all_goals
      rw [folderRequest_access]
      exact fun h => by cases h
  have hcreate := create_status (s := s) (segments (dirname path)) (basename path)
  have hstatus : (service.respond s (folderRequest service path)).1 ≠ HttpStatus.unauthorized := by
    rw [respond_folderRequest]
    rcases hcreate with h | h | h <;> rw [h] <;> decide
  have hok : (create s (segments (dirname path)) (basename path)).1 ≠ HttpStatus.ok := by
    rcases hcreate with h | h | h <;> rw [h] <;> decide
  simp only [Item.createFolder]
  rw [Proc.wp_bind]
  show Proc.wp _ (formatUrl (folderUrl path)) _ _ _ ↔ _
  rw [wp_formatUrl_iff, and_congr_right_iff]
  intro _
  rw [Proc.wp_bind, wp_buildBody_iff]
  dsimp only
  rw [Proc.wp_bind]
  show Proc.wp _ (sendAuthorized (folderRequest service path) false) _ _ _ ↔ _
  rw [wp_sendAuthorized_iff htoken hplain hstatus]
  dsimp only
  rw [respond_folderRequest]
  by_cases hcreated : (create s (segments (dirname path)) (basename path)).1 = HttpStatus.created
  · simp only [if_neg (not_and_of_not_left _ (not_not.2 hcreated)), if_pos hcreated]
    exact Iff.rfl
  · simp only [if_pos (And.intro hcreated hok), if_neg hcreated]
    rw [Proc.wp_pure]

/-- The content goes to the path for which the upload URL was handed out. -/
private theorem wp_uploadToSession_iff {uploadUrl path content : Bytes}
    (hurl : s.uploads uploadUrl = some path)
    {Q : Int → Process OneDriveConnect → Cloud → Prop} :
    Proc.wp service.serving (Item.uploadToSession uploadUrl content) Q p s
      ↔ Q 0 p (s.put path content) := by
  have hrespond : ∀ req : Request, req.access = .upload uploadUrl →
      service.respond s req = (service.stored s.tree path, s.put path req.body) := by
    intro req haccess
    simp only [respond, haccess, hurl]
  apply Proc.wp_responsive_iff
  simp only [Item.uploadToSession]
  rw [Proc.wp_bind]
  apply wp_request ⟨fun _ h => (by cases h), fun h => (by cases h)⟩
  intro reply hinfo hstatus
  rw [hrespond _ rfl] at hstatus ⊢
  simp only [Proc.wp_ite, Proc.wp_pure, hstatus]
  refine ⟨fun hne => absurd rfl hne, fun _ => ⟨fun hne => absurd hinfo hne, fun _ => ?_⟩⟩
  refine ⟨fun hrefused => ?_, fun _ => ⟨trivial, trivial, trivial⟩⟩
  exact absurd hrefused (stored_accepted s.tree path)

/-! ### Both ways of uploading -/

theorem create_created_iff {parent : List Bytes} {name : Bytes} :
    (create s parent name).1 = HttpStatus.created
      ↔ s.tree parent = some .folder ∧ s.tree (parent ++ [name]) = none := by
  rw [create]
  split
  case isTrue hparent => simp [hparent, HttpStatus.notFound, HttpStatus.created]
  case isFalse hparent =>
    split
    case isTrue hchild => simp [hchild, conflict, HttpStatus.created]
    case isFalse hchild => exact iff_of_true rfl ⟨not_not.1 hparent, not_not.1 hchild⟩

theorem create_created_drive {parent : List Bytes} {name : Bytes}
    (h : (create s parent name).1 = HttpStatus.created) :
    (create s parent name).2 = s.mkdir (parent ++ [name]) := by
  obtain ⟨hparent, hchild⟩ := create_created_iff.1 h
  rw [create, if_neg (not_not.2 hparent), if_neg (not_not.2 hchild)]

/-- The drive once an upload URL is handed out. -/
def announced (service : FolderService) (s : Cloud) (path : Bytes) : Cloud :=
  { s with uploads := Function.update s.uploads (service.session path) (some path) }

/-- Where no failure is accepted, each of the three requests has to be answered well. -/
private theorem wp_putThroughSession_iff {path content : Bytes} (hpath : path ≠ [])
    (htoken : p.conn.token.accessToken.isSome)
    {Q : Int → Process OneDriveConnect → Cloud → Prop} (hQ : ∀ rc < 0, ∀ p' t, ¬ Q rc p' t) :
    Proc.wp service.serving (Item.putThroughSession content path) Q p s
      ↔ (Url.item path (bytes ":/createUploadSession")).text.length < maxUrlLen
        ∧ (service.session path).length < maxUrlLen
        ∧ s.tree (segments (dirname (dirname path))) = some .folder
        ∧ s.tree (segments (dirname (dirname path)) ++ [basename (dirname path)]) = none
        ∧ Q 0 p (((announced service s path).mkdir
            (segments (dirname (dirname path)) ++ [basename (dirname path)])).put path content) := by
  simp only [Item.putThroughSession]
  rw [Proc.wp_bind, wp_createFolder_iff htoken]
  have hcreated := @create_created_iff s (segments (dirname (dirname path))) (basename (dirname path))
  by_cases hmade : (create s (segments (dirname (dirname path))) (basename (dirname path))).1
      = HttpStatus.created
  · rw [if_pos hmade, if_neg (lt_irrefl 0), create_created_drive hmade, Proc.wp_bind,
      wp_createUploadSession_iff htoken]
    have hurlNeg : cInt (hiveGeneralError HiveErr.bufferTooSmall) < 0 := cInt_hiveMkError_neg _ (by decide)
    by_cases hlong : (service.session path).length ≥ maxUrlLen
    · rw [if_pos hlong]
      dsimp only
      constructor
      · exact fun h => absurd h.2.2 (hQ _ hurlNeg _ _)
      · exact fun h => absurd h.2.1 (by omega)
    · rw [if_neg hlong]
      dsimp only
      have hsession : (Function.update s.uploads (service.session path) (some path)) (service.session path)
          = some path := Function.update_self ..
      rw [wp_uploadToSession_iff hsession]
      constructor
      · exact fun h => ⟨h.2.1, by omega, (hcreated.1 hmade).1, (hcreated.1 hmade).2, h.2.2⟩
      · exact fun h => ⟨folderUrl_fits hpath h.1, h.1, h.2.2.2.2⟩
  · have hneg : cInt (hiveHttpStatusError
        (create s (segments (dirname (dirname path))) (basename (dirname path))).1) < 0 := by
      rcases create_status (s := s) (segments (dirname (dirname path))) (basename (dirname path)) with
        h | h | h
      all_goals
        rw [h]
        exact cInt_hiveMkError_neg _ (by decide)
    rw [if_neg hmade]
    generalize cInt (hiveHttpStatusError
      (create s (segments (dirname (dirname path))) (basename (dirname path))).1) = rc at hneg ⊢
    rw [if_pos hneg]
    constructor
    · exact fun h => absurd h.2 (hQ rc hneg _ _)
    · exact fun h => absurd (hcreated.2 ⟨h.2.2.1, h.2.2.2.1⟩) hmade

/-! ### The public function -/

/-- In a URL buffer there is no room for a path that `snprintf` would cut. -/
theorem fits_snprintf_iff {path suffix : Bytes} {P : Bytes → Prop} :
    ((Url.item (snprintf pathMax path) suffix).text.length < maxUrlLen ∧ P (snprintf pathMax path))
      ↔ (Url.item path suffix).text.length < maxUrlLen ∧ P path := by
  by_cases hshort : path.length < pathMax
  · rw [snprintf_eq_self hshort]
  · have hcut : (snprintf pathMax path).length = 4095 := by
      rw [snprintf, List.length_take, pathMax]
      rw [pathMax] at hshort
      omega
    rw [pathMax] at hshort
    constructor
    · intro h
      have hfits := h.1
      simp only [Url.text, List.length_append, hcut, maxUrlLen] at hfits
      omega
    · intro h
      have hfits := h.1
      simp only [Url.text, List.length_append, maxUrlLen] at hfits
      omega

def putCall (content name : Bytes) : Hive OneDriveConnect Int :=
  hivePutFileFromBuffer (some OneDrive.table) (some content) content.length (some name)

private theorem wp_putCall_iff {content name : Bytes} (hname : name ≠ [])
    (hmax : content.length ≤ hiveMaxFileSize) {Q : Int → Process OneDriveConnect → Cloud → Prop} :
    Proc.wp service.serving (putCall content name) Q p s
      ↔ Proc.wp service.serving (Item.putFileFromBuffer content (snprintf pathMax (filePath name)))
          (fun rc p' t => if rc < 0 then Q (-1) { p' with hiveError := rc } t else Q 0 p' t) p s := by
  have hname' : nonEmpty (some name) = some name := by simp [nonEmpty, hname]
  have hargs : ¬ (((some content).isNone ∧ content.length ≠ 0) ∨ content.length > hiveMaxFileSize) := by
    simp [hmax]
  have hcontent : ((some content).getD []).take content.length = content := List.take_length
  unfold putCall hivePutFileFromBuffer
  rw [hname']
  dsimp only
  rw [if_neg hargs, hcontent]
  show Proc.wp _ (dispatch (some (OneDrive.putFileFromBuffer content name))) Q p s ↔ _
  rw [dispatch, Proc.wp_bind, OneDrive.putFileFromBuffer]
  have hpost : (fun rc : Int => Proc.wp service.serving (if rc < 0 then failWith rc else return 0) Q)
      = fun rc p' t => if rc < 0 then Q (-1) { p' with hiveError := rc } t else Q 0 p' t := by
    funext rc p' t
    by_cases hrc : rc < 0
    · rw [if_pos hrc, if_pos hrc]
      rfl
    · rw [if_neg hrc, if_neg hrc]
      rfl
  exact Iff.of_eq (congrArg (fun post => Proc.wp _ _ post p s) hpost)

/-- The check with which the call begins finds the token valid, or renews it. -/
def Authorised (service : FolderService) (p : Process OneDriveConnect) (s : Cloud) : Prop :=
  Proc.wp service.serving oauthTokenCheckExpire (fun rc _ _ => ¬ rc < 0) p s

/-- What is done behind the check, given that there is a token. -/
private def upload (content path : Bytes) : Hive OneDriveConnect Int :=
  if content.length ≤ smallUpload then Item.uploadFile path content
  else Item.putThroughSession content path

/-- Behind the check there is a token, and the drive is as it was. -/
private theorem wp_put_iff {content name : Bytes} (htoken : p.conn.token.accessToken.isSome)
    (hname : name ≠ []) (hmax : content.length ≤ hiveMaxFileSize)
    {Q : Int → Process OneDriveConnect → Cloud → Prop} (hQ : ∀ p' t, ¬ Q (-1) p' t) :
    Proc.wp service.serving (putCall content name) Q p s
      ↔ Proc.wp service.serving oauthTokenCheckExpire (fun rc p' t =>
          ¬ rc < 0 ∧ p'.conn.token.accessToken.isSome ∧ t = s
          ∧ Proc.wp service.serving (upload content (snprintf pathMax (filePath name)))
            (fun rc p' t => if rc < 0 then Q (-1) { p' with hiveError := rc } t else Q 0 p' t) p' s) p s := by
  rw [wp_putCall_iff hname hmax]
  simp only [Item.putFileFromBuffer]
  rw [Proc.wp_bind]
  constructor
  · intro h
    refine Prog.wp_mono (fun x t hboth => ?_) (Prog.wp_responsive_and h (check_result p s))
    obtain ⟨rc, p'⟩ := x
    obtain ⟨hput, hresult, rfl⟩ := hboth
    by_cases hrc : rc < 0
    · simp only [if_pos hrc, Proc.wp_pure] at hput
      exact absurd hput (hQ _ t)
    · rw [if_neg hrc, Proc.wp_bind, wp_call_sure true fun _ _ => Iff.rfl] at hput
      refine ⟨hrc, ?_, rfl, hput⟩
      obtain ⟨-, hconn | hcomplete⟩ := hresult.succeeded hrc
      · rw [hconn]
        exact htoken
      · exact hcomplete.accessToken
  · intro h
    refine Proc.wp_mono (fun rc p' t hboth => ?_) h
    obtain ⟨hrc, -, rfl, hrest⟩ := hboth
    rw [if_neg hrc, Proc.wp_bind, wp_call_sure true fun _ _ => Iff.rfl]
    exact hrest

/-- The call returns 0, whatever the servers answer. -/
def Puts (service : FolderService) (p : Process OneDriveConnect) (s : Cloud) (content name : Bytes) :
    Prop :=
  Proc.wp service.serving (putCall content name) (fun rc _ _ => rc = 0) p s

/-- The call returns 0 and leaves the drive as said, with a token as before. -/
def Leaves (service : FolderService) (p : Process OneDriveConnect) (s : Cloud) (content name : Bytes)
    (after : Cloud) : Prop :=
  Proc.wp service.serving (putCall content name) (fun rc p' t =>
    rc = 0 ∧ p'.conn.token.accessToken.isSome ∧ t = after) p s

/-- The upload succeeds under a condition, and what the drive is then. -/
private def Uploads (service : FolderService) (s : Cloud) (content name : Bytes) (C : Prop)
    (after : Cloud) : Prop :=
  ∀ (p : Process OneDriveConnect) (Q : Int → Process OneDriveConnect → Cloud → Prop),
    p.conn.token.accessToken.isSome → (∀ rc < 0, ∀ p' t, ¬ Q rc p' t) →
    (Proc.wp service.serving (upload content (snprintf pathMax (filePath name))) Q p s ↔ C ∧ Q 0 p after)

private theorem Uploads.leaves {content name : Bytes} {C : Prop} {after : Cloud}
    (h : Uploads service s content name C after) (htoken : p.conn.token.accessToken.isSome)
    (hname : name ≠ []) (hmax : content.length ≤ hiveMaxFileSize) (hauthorised : Authorised service p s)
    (hC : C) : Leaves service p s content name after := by
  rw [Leaves, wp_put_iff htoken hname hmax fun p' t h => absurd h.1 (by decide)]
  refine Prog.wp_mono (fun x t hboth => ?_) (Prog.wp_responsive_and hauthorised (check_result p s))
  obtain ⟨rc, p'⟩ := x
  obtain ⟨hrc, hresult, rfl⟩ := hboth
  have htoken' : p'.conn.token.accessToken.isSome := by
    obtain ⟨-, hconn | hcomplete⟩ := hresult.succeeded hrc
    · rw [hconn]
      exact htoken
    · exact hcomplete.accessToken
  refine ⟨hrc, htoken', rfl, (h p' _ htoken' ?_).2 ⟨hC, ?_⟩⟩
  · intro rc hneg p'' t hpost
    rw [if_pos hneg] at hpost
    exact absurd hpost.1 (by decide)
  · rw [if_neg (lt_irrefl 0)]
    exact ⟨rfl, htoken', rfl⟩

private theorem Uploads.puts_iff {content name : Bytes} {C : Prop} {after : Cloud}
    (h : Uploads service s content name C after) (htoken : p.conn.token.accessToken.isSome)
    (hmax : content.length ≤ hiveMaxFileSize) :
    Puts service p s content name ↔ Authorised service p s ∧ name ≠ [] ∧ C := by
  constructor
  · intro hputs
    by_cases hname : name = []
    · rw [hname] at hputs
      exact absurd (show (-1 : Int) = 0 from hputs) (by decide)
    · rw [Puts, wp_put_iff htoken hname hmax fun _ _ => by decide] at hputs
      refine ⟨Proc.wp_mono (fun rc p' t hpost => hpost.1) hputs, hname, ?_⟩
      obtain ⟨rc, p', t, -, htoken', -, hupload⟩ := Proc.exists_of_wp hputs
      refine ((h p' _ htoken' ?_).1 hupload).1
      intro rc hneg p'' t hpost
      rw [if_pos hneg] at hpost
      exact absurd hpost (by decide)
  · intro hC
    have hleaves := h.leaves htoken hC.2.1 hmax hC.1 hC.2.2
    exact Proc.wp_mono (fun rc p' t hpost => hpost.1) hleaves

/-! ### The two sizes -/

/-- A content of at most 4 MiB is put wherever its URL fits. -/
private theorem uploads_small {content name : Bytes} (hsmall : content.length ≤ smallUpload) :
    Uploads service s content name
      ((Url.item (filePath name) (bytes ":/content")).text.length < maxUrlLen)
      (s.put (filePath name) content) := by
  intro p Q htoken _
  rw [upload, if_pos hsmall, wp_uploadFile_iff htoken]
  exact fits_snprintf_iff (P := fun path => Q 0 p (s.put path content))

/-- Where a larger content is put. -/
structure PutsLarge (service : FolderService) (s : Cloud) (path : Bytes) : Prop where
  url : (Url.item path (bytes ":/createUploadSession")).text.length < maxUrlLen
  session : (service.session path).length < maxUrlLen
  around : s.tree (segments (dirname (dirname path))) = some .folder
  missing : s.tree (segments (dirname (dirname path)) ++ [basename (dirname path)]) = none

def afterLarge (service : FolderService) (s : Cloud) (path content : Bytes) : Cloud :=
  ((announced service s path).mkdir
    (segments (dirname (dirname path)) ++ [basename (dirname path)])).put path content

private theorem uploads_large {content name : Bytes} (hlarge : smallUpload < content.length) :
    Uploads service s content name (PutsLarge service s (filePath name))
      (afterLarge service s (filePath name) content) := by
  intro p Q htoken hQ
  have hpath : snprintf pathMax (filePath name) ≠ [] := by
    simp [snprintf, pathMax, filePath, show filesDir = bytes "/Files" from rfl, bytes]
  rw [upload, if_neg (not_le.2 hlarge), wp_putThroughSession_iff hpath htoken hQ]
  refine (fits_snprintf_iff (P := fun path => (service.session path).length < maxUrlLen
    ∧ s.tree (segments (dirname (dirname path))) = some .folder
    ∧ s.tree (segments (dirname (dirname path)) ++ [basename (dirname path)]) = none
    ∧ Q 0 p (afterLarge service s path content))).trans ⟨fun h => ?_, fun h => ?_⟩
  · obtain ⟨hurl, hsession, haround, hmissing, hpost⟩ := h
    exact ⟨⟨hurl, hsession, haround, hmissing⟩, hpost⟩
  · exact ⟨h.1.url, h.1.session, h.1.around, h.1.missing, h.2⟩

theorem PutsLarge.content_fits {path : Bytes} (h : PutsLarge service s path) :
    (Url.item path (bytes ":/content")).text.length < maxUrlLen := by
  have hcontent : (bytes ":/content").length = 9 := by decide
  have hsession : (bytes ":/createUploadSession").length = 21 := by decide
  have hurl := h.url
  simp only [Url.text, List.length_append] at hurl ⊢
  omega

/-- What the first upload made is in the way of the second. -/
private theorem not_putsLarge_afterLarge {path content : Bytes} :
    ¬ PutsLarge service (afterLarge service s path content) path := by
  intro h
  refine FolderTree.put_ne_none ?_ h.missing
  simp only [Cloud.mkdir, FolderTree.mkdir, Function.update_self]
  exact Option.some_ne_none _

/-! ### Agreement -/

/-- Where the call returns 0, the item of the name is the content. -/
def Stores (service : FolderService) (p : Process OneDriveConnect) (s : Cloud) (content name : Bytes) :
    Prop :=
  Proc.wp service.serving (putCall content name) (fun rc _ t =>
    rc = 0 ∧ t.tree (segments (filePath name)) = some (.file content)) p s

/-- The same content twice. -/
def PutsTwice (service : FolderService) (p : Process OneDriveConnect) (s : Cloud) (content name : Bytes) :
    Prop :=
  Proc.wp service.serving (do
    let rc ← putCall content name
    let rc' ← putCall content name
    return (rc, rc')) (fun rcs _ _ => rcs = (0, 0)) p s

/-- A name that a small content can be put under is one for a large content. -/
def NoWorseForLarge (service : FolderService) (p : Process OneDriveConnect) (s : Cloud) (name : Bytes) :
    Prop :=
  Authorised service p s → name ≠ [] →
    (Url.item (filePath name) (bytes ":/content")).text.length < maxUrlLen →
    PutsLarge service s (filePath name)

private theorem not_putsTwice {content name : Bytes} (htoken : p.conn.token.accessToken.isSome)
    (hlarge : smallUpload < content.length) (hmax : content.length ≤ hiveMaxFileSize) :
    ¬ PutsTwice service p s content name := by
  intro htwice
  rw [PutsTwice, Proc.wp_bind] at htwice
  -- a first call that fails is not mended by the second
  have hputs : Puts service p s content name := by
    refine Proc.wp_mono (fun rc p' t hsecond => ?_) htwice
    rw [Proc.wp_bind] at hsecond
    obtain ⟨rc', p'', u, hzero⟩ := Proc.exists_of_wp hsecond
    exact congrArg Prod.fst hzero
  obtain ⟨hauthorised, hname, hC⟩ := ((uploads_large hlarge).puts_iff htoken hmax).1 hputs
  have hleaves := (uploads_large hlarge).leaves htoken hname hmax hauthorised hC
  obtain ⟨-, ⟨rc, p'⟩, t, -, -, hsecond, -, htoken', rfl⟩ :=
    Prog.exists_run_of_wp (Prog.wp_and htwice hleaves)
  rw [Proc.wp_bind] at hsecond
  have hputs' : Puts service p' (afterLarge service s (filePath name) content) content name :=
    Proc.wp_mono (fun rc p' t h => congrArg Prod.snd h) hsecond
  exact not_putsLarge_afterLarge (((uploads_large hlarge).puts_iff htoken' hmax).1 hputs').2.2

theorem paths_agree_iff (service : FolderService) {p : Process OneDriveConnect} {s : Cloud}
    {name small large : Bytes} (htoken : p.conn.token.accessToken.isSome)
    (hsmall : small.length ≤ smallUpload) (hlarge : smallUpload < large.length)
    (hmax : large.length ≤ hiveMaxFileSize) :
    ((Puts service p s small name ↔ Puts service p s large name) ↔ NoWorseForLarge service p s name)
      ∧ (Puts service p s small name → Stores service p s small name)
      ∧ (Puts service p s large name → Stores service p s large name)
      ∧ ¬ PutsTwice service p s large name := by
  have hmax' : small.length ≤ hiveMaxFileSize := hsmall.trans (by decide)
  have hputsSmall := (@uploads_small service s small name hsmall).puts_iff htoken hmax'
  have hputsLarge := (@uploads_large service s large name hlarge).puts_iff htoken hmax
  refine ⟨?_, fun h => ?_, fun h => ?_, not_putsTwice htoken hlarge hmax⟩
  · rw [hputsSmall, hputsLarge]
    constructor
    · intro hagree hauthorised hname hurl
      exact (hagree.1 ⟨hauthorised, hname, hurl⟩).2.2
    · intro hworse
      exact ⟨fun h => ⟨h.1, h.2.1, hworse h.1 h.2.1 h.2.2⟩, fun h => ⟨h.1, h.2.1, h.2.2.content_fits⟩⟩
  · obtain ⟨hauthorised, hname, hurl⟩ := hputsSmall.1 h
    refine Proc.wp_mono (fun rc p' t hpost => ?_)
      ((uploads_small hsmall).leaves htoken hname hmax' hauthorised hurl)
    obtain ⟨hrc, -, rfl⟩ := hpost
    exact ⟨hrc, FolderTree.put_self⟩
  · obtain ⟨hauthorised, hname, hputs⟩ := hputsLarge.1 h
    refine Proc.wp_mono (fun rc p' t hpost => ?_)
      ((uploads_large hlarge).leaves htoken hname hmax hauthorised hputs)
    obtain ⟨hrc, -, rfl⟩ := hpost
    exact ⟨hrc, FolderTree.put_self⟩

/-! On a fresh drive the two agree, and once there is a folder for files they do not. -/

def demoUploadUrl : Bytes := bytes "https://up.example/1"

def demoSession : Json := .object [(bytes "uploadUrl", .string demoUploadUrl)]

def demoFolders : FolderService where
  env := { parse := fun _ => some demoSession, clock := fun now => now = demoTime, reliable := True }
  tokens _ := True
  print json := match json with
    | .object ((_, .string name) :: _) => name
    | _ => []
  folderName := some
  stored _ _ := HttpStatus.created
  session _ := demoUploadUrl
  folderName_print _ := rfl
  stored_ok _ _ := .inr rfl
  announces _ := ⟨demoReply 200 (bytes "x"), demoSession, rfl,
    ⟨by decide, by decide, fun _ => rfl⟩, demoReply_leavesRoom (by decide) (by decide), by decide⟩

def freshCloud : Cloud := ⟨fun q => if q = [] then some .folder else none, fun _ => none⟩

def usedCloud : Cloud :=
  ⟨fun q => if q = [] ∨ q = [bytes "Files"] then some .folder else none, fun _ => none⟩

def largeContent : Bytes := List.replicate (smallUpload + 1) 0

private theorem largeContent_length :
    smallUpload < largeContent.length ∧ largeContent.length ≤ hiveMaxFileSize := by
  rw [largeContent, List.length_replicate]
  exact ⟨Nat.lt_succ_self _, by decide⟩

/-- The token of the example is valid. -/
private theorem demoFolders_authorised (s : Cloud) : Authorised demoFolders demoProcess s := by
  simp only [Authorised, oauthTokenCheckExpire, Proc.wp_bind, wp_getToken, Proc.wp_call]
  refine ⟨⟨trivial, demoTime, s, rfl, rfl⟩, ?_⟩
  rintro now t ⟨rfl, rfl⟩
  exact lt_irrefl 0

theorem paths_agree_fresh :
    (Puts demoFolders demoProcess freshCloud [1] (bytes "a")
        ↔ Puts demoFolders demoProcess freshCloud largeContent (bytes "a"))
      ∧ ¬ PutsTwice demoFolders demoProcess freshCloud largeContent (bytes "a") := by
  have hputs : PutsLarge demoFolders freshCloud (filePath (bytes "a")) :=
    ⟨by decide, by decide, by decide, by decide⟩
  have hworse : NoWorseForLarge demoFolders demoProcess freshCloud (bytes "a") := fun _ _ _ => hputs
  have hsmall : [(1 : UInt8)].length ≤ smallUpload := by decide
  obtain ⟨hagree, -, -, htwice⟩ := paths_agree_iff demoFolders (p := demoProcess) (s := freshCloud)
    rfl hsmall largeContent_length.1 largeContent_length.2
  exact ⟨hagree.2 hworse, htwice⟩

theorem paths_disagree :
    ¬ (Puts demoFolders demoProcess usedCloud [1] (bytes "a")
      ↔ Puts demoFolders demoProcess usedCloud largeContent (bytes "a")) := by
  intro hagree
  have hsmall : [(1 : UInt8)].length ≤ smallUpload := by decide
  rw [(uploads_large largeContent_length.1).puts_iff rfl largeContent_length.2,
    (uploads_small hsmall).puts_iff rfl (by decide)] at hagree
  have hfits : bytes "a" ≠ []
      ∧ (Url.item (filePath (bytes "a")) (bytes ":/content")).text.length < maxUrlLen :=
    ⟨by decide, by decide⟩
  have hlarge := hagree.1 ⟨demoFolders_authorised usedCloud, hfits⟩
  exact absurd hlarge.2.2.missing (by decide)

end FolderService

end HiveSdk
