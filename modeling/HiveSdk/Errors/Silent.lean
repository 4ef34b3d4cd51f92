import HiveSdk.Connect.Blind
import HiveSdk.Names.Operations

/-!
# The functions of the tables

A backend function hands its error code to the public function that has called it. It does not store the code itself, and what the thread's `hive_error` holds makes no difference to it.
-/

namespace HiveSdk

open Interaction

variable {σ α β : Type}

/-! ### Requests with the token -/

theorem leavesError_formatUrl (url : Url) : LeavesError (formatUrl url) :=
  .ite (.bind (.call _) fun _ => leavesError_undefined) (.pure _)

theorem leavesError_oauthTokenSetExpired : LeavesError oauthTokenSetExpired :=
  leavesError_getToken fun _ => leavesError_setToken _

theorem leavesError_checkReply (rc : CurlCode) (reply : Reply) : LeavesError (checkReply rc reply) := by
  refine .ite (.pure _) (.ite (.pure _) (.ite ?_ (.pure _)))
  exact .bind leavesError_oauthTokenSetExpired fun _ => .pure _

theorem leavesError_sendAuthorized (req : Request) (enable : Bool) : LeavesError (sendAuthorized req enable) := by
  apply leavesError_getToken
  intro token
  rcases token.accessToken with _ | accessToken
  · exact leavesError_undefined
  refine .ite ?_ ?_
  · exact .bind (leavesError_httpClientRequestBody _) fun _ => .bind (leavesError_checkReply _ _) fun _ => .pure _
  · exact .bind (leavesError_httpClientRequest _) fun _ => .bind (leavesError_checkReply _ _) fun _ => .pure _

/-! ### The keystore -/

theorem leavesError_oauthWriteback (json : Json) : LeavesError (oauthWriteback json) := by
  apply Blind.bind (.call _)
  intro text
  rcases text with _ | text
  · exact .pure _
  refine .ite (.pure _) (leavesError_getConn fun conn => .bind (.call _) fun opened => ?_)
  rcases opened with e | _
  · exact .bind (leavesError_setErrno e) fun _ => .pure _
  apply Blind.bind (.call _)
  intro written
  have hrest : ∀ written : Int, LeavesError (do
      if written ≠ cInt (cInt text.length + 1) then return cInt (hiveSysError (← get).errno)
      return 0 : Hive OneDriveConnect Int) := fun written =>
    .ite (leavesError_getErrno (f := fun e => pure (cInt (hiveSysError e))) fun _ => .pure _) (.pure _)
  rcases written with e | n
  · exact .bind (leavesError_setErrno e) fun _ => .bind (.pure _) hrest
  · exact .bind (.pure _) hrest

theorem leavesError_addItem (members : List (Bytes × Json)) (name : Bytes) (value : Json) :
    LeavesError (addItem members name value) :=
  .bind (.call _) fun _ => .ite (.pure _) (.pure _)

theorem leavesError_writebackTokens : LeavesError writebackTokens := by
  have hrest : ∀ members, LeavesError (do
      let _ ← oauthWriteback (.object members)
      return ()) := fun members => .bind (leavesError_oauthWriteback _) fun _ => .pure _
  refine leavesError_getToken fun token => .bind (.call _) fun created => .ite (.pure _) ?_
  refine .bind (leavesError_addItem _ _ _) fun members => ?_
  rcases token.tokenType with _ | tokenType
  · exact .bind (.pure _) fun members => hrest members
  rcases token.accessToken with _ | accessToken
  · exact .bind leavesError_undefined fun members => hrest members
  rcases token.refreshToken with _ | refreshToken
  · exact .bind leavesError_undefined fun members => hrest members
  refine .bind (leavesError_addItem _ _ _) fun members => .bind (leavesError_addItem _ _ _) fun members => ?_
  refine .bind (leavesError_addItem _ _ _) fun members => .bind (leavesError_addItem _ _ _) fun members => ?_
  exact hrest members

/-! ### The token -/

theorem leavesError_refreshAccessToken : LeavesError refreshAccessToken := by
  refine leavesError_getToken fun token => .bind (leavesError_requestToken _ _ _ _ _ _) fun rc => ?_
  exact .ite (.pure _) (.bind leavesError_writebackTokens fun _ => .pure _)

theorem leavesError_oauthTokenCheckExpire : LeavesError oauthTokenCheckExpire := by
  refine leavesError_getToken fun token => .bind (.call _) fun now => .ite (.pure _) ?_
  exact .bind leavesError_refreshAccessToken fun rc => .ite (.pure _) (.pure _)

/-! ### OneDrive items -/

namespace Item

theorem leavesError_buildCreateFolderRequestBody (fname : Bytes) : LeavesError (buildCreateFolderRequestBody fname) := by
  refine .bind (.call _) fun _ => .ite (.pure _) (.bind (.call _) fun _ => .ite (.pure _) ?_)
  exact .bind (.call _) fun _ => .ite (.pure _) (.call _)

theorem leavesError_createFolder (path : Bytes) : LeavesError (createFolder path) := by
  refine .bind (leavesError_formatUrl _) fun url => .bind (leavesError_buildCreateFolderRequestBody _) fun body => ?_
  rcases body with _ | body
  · exact .pure _
  refine .bind (leavesError_sendAuthorized _ _) fun result => ?_
  rcases result with rc | reply
  · exact .pure _
  · exact .ite (.pure _) (.pure _)

theorem leavesError_uploadFile (path content : Bytes) : LeavesError (uploadFile path content) := by
  refine .bind (leavesError_formatUrl _) fun url => .bind (leavesError_sendAuthorized _ _) fun result => ?_
  rcases result with rc | reply
  · exact .pure _
  · exact .ite (.pure _) (.pure _)

theorem leavesError_createUploadSession (path : Bytes) (len : Nat) : LeavesError (createUploadSession path len) := by
  refine .bind (leavesError_formatUrl _) fun url => .bind (leavesError_sendAuthorized _ _) fun result => ?_
  rcases result with rc | reply
  · exact .pure _
  refine .ite (.pure _) (.bind (leavesError_moveResponseBody _ _) fun body => ?_)
  rcases body with _ | body
  · exact .pure _
  refine .bind (leavesError_cjsonParse _) fun json => ?_
  rcases json with _ | json
  · exact .pure _
  dsimp only
  rcases json.stringItem (bytes "uploadUrl") with _ | uploadUrl
  · exact .pure _
  · exact .ite (.pure _) (.pure _)

theorem leavesError_uploadToSession (uploadUrl content : Bytes) : LeavesError (uploadToSession uploadUrl content) :=
  .bind (leavesError_httpClientRequest _) fun _ =>
    .ite (.pure _) (.ite (.pure _) (.ite (.pure _) (.pure _)))

theorem leavesError_putThroughSession (content path : Bytes) : LeavesError (putThroughSession content path) := by
  refine .bind (leavesError_createFolder _) fun rc => .ite (.pure _) ?_
  refine .bind (leavesError_createUploadSession _ _) fun result => ?_
  rcases result with rc | uploadUrl
  · exact .pure _
  · exact leavesError_uploadToSession _ _

theorem leavesError_putFileFromBuffer (content path : Bytes) : LeavesError (putFileFromBuffer content path) := by
  refine .bind leavesError_oauthTokenCheckExpire fun rc => .ite (.pure _) (.bind (.call _) fun created => ?_)
  exact .ite (.pure _) (.ite (leavesError_uploadFile _ _) (leavesError_putThroughSession _ _))

theorem leavesError_getFileInfo (path : Bytes) (query : InfoQuery) : LeavesError (getFileInfo path query) := by
  refine .bind (leavesError_formatUrl _) fun url => .bind (leavesError_sendAuthorized _ _) fun result => ?_
  rcases result with rc | reply
  · exact .pure _
  refine .ite (.pure _) (.bind (leavesError_moveResponseBody _ _) fun body => ?_)
  rcases body with _ | body
  · exact .pure _
  refine .bind (leavesError_cjsonParse _) fun json => ?_
  rcases json with _ | json
  · exact .pure _
  dsimp only
  rcases query.read json with _ | info
  · exact .pure _
  · exact .pure _

theorem leavesError_getFileLength (path : Bytes) : LeavesError (getFileLength path) := by
  refine .bind leavesError_oauthTokenCheckExpire fun rc => .ite (.pure _) (.bind (.call _) fun created => ?_)
  refine .ite (.pure _) (.bind (leavesError_getFileInfo _ _) fun result => ?_)
  rcases result with rc | info
  · exact .pure _
  · exact .pure _

theorem leavesError_downloadFile (downloadUrl block : Bytes) : LeavesError (downloadFile downloadUrl block) := by
  refine .bind (leavesError_httpClientRequest _) fun result => ?_
  dsimp only
  rcases storeChunks block 0 result.2.chunks with _ | block'
  · exact leavesError_undefined
  · exact .ite (.pure _) (.ite (.pure _) (.ite (.pure _) (.pure _)))

theorem leavesError_getFileToBuffer (path block : Bytes) (buflen : Nat) : LeavesError (getFileToBuffer path block buflen) := by
  refine .bind leavesError_oauthTokenCheckExpire fun rc => .ite (.pure _) (.bind (.call _) fun created => ?_)
  refine .ite (.pure _) (.bind (leavesError_getFileInfo _ _) fun result => ?_)
  rcases result with rc | info
  · exact .pure _
  refine .ite (.pure _) (.ite (.pure _) (.bind (leavesError_downloadFile _ _) fun fetched => ?_))
  exact .ite (.pure _) (.pure _)

theorem leavesError_deleteFile (path : Bytes) : LeavesError (deleteFile path) := by
  refine .bind leavesError_oauthTokenCheckExpire fun rc => .ite (.pure _) (.bind (.call _) fun created => ?_)
  refine .ite (.pure _) (.bind (leavesError_formatUrl _) fun url => .bind (leavesError_sendAuthorized _ _) fun result => ?_)
  rcases result with rc | reply
  · exact .pure _
  · exact .ite (.pure _) (.pure _)

end Item

/-! ### The table of OneDrive -/

namespace OneDrive

theorem leavesError_notifyUserFiles (items : List Json) : LeavesError (notifyUserFiles items) := by
  induction items with
  | nil => exact .bind (.call _) fun _ => .pure _
  | cons item items ih =>
      rw [notifyUserFiles]
      rcases item.stringItem (bytes "name") with _ | name
      · exact leavesError_undefined
      · exact .bind (.call _) fun resume => .ite ih (.pure _)

theorem leavesError_listPages (pages : Nat) (url : Url) (array : List Json) :
    LeavesError (listPages pages url array) := by
  induction pages generalizing url array with
  | zero => exact .pure _
  | succ pages ih =>
      refine .bind (leavesError_sendAuthorized _ _) fun result => ?_
      rcases result with rc | reply
      · exact .pure _
      refine .ite (.pure _) (.bind (leavesError_moveResponseBody _ _) fun body => ?_)
      rcases body with _ | body
      · exact .pure _
      refine .bind (leavesError_cjsonParse _) fun json => ?_
      rcases json with _ | json
      · exact .pure _
      dsimp only
      rcases (json.getObjectItemCaseSensitive (bytes "value")).bind Json.asArray with _ | sub
      · exact .pure _
      refine .ite (.pure _) (.ite (.bind (leavesError_notifyUserFiles _) fun _ => .pure _) ?_)
      rcases json.stringItem (bytes "@odata.nextLink") with _ | next
      · exact .pure _
      · exact ih _ _

theorem leavesError_listFiles (pages : Nat) : LeavesError (listFiles pages) := by
  refine .bind leavesError_oauthTokenCheckExpire fun rc => .ite (.pure _) (.bind (.call _) fun created => ?_)
  refine .ite (.pure _) (.bind (leavesError_formatUrl _) fun url => .bind (.call _) fun created => ?_)
  exact .ite (.pure _) (leavesError_listPages _ _ _)

theorem leavesError_appendValue (path value : Bytes) (size : Int) : LeavesError (appendValue path value size) := by
  refine .bind (.call _) fun allocated => .ite (.pure _) (.ite ?_ (Item.leavesError_putFileFromBuffer _ _))
  refine .bind (Item.leavesError_getFileToBuffer _ _ _) fun result => .ite (.pure _) (.ite (.pure _) ?_)
  exact Item.leavesError_putFileFromBuffer _ _

theorem leavesError_putValue (key value : Bytes) : LeavesError (putValue key value) := by
  refine .bind (Item.leavesError_getFileLength _) fun exit => .ite (leavesError_appendValue _ _ _) ?_
  exact .ite (.pure _) (leavesError_appendValue _ _ _)

theorem leavesError_setValue (key value : Bytes) : LeavesError (setValue key value) :=
  .bind (.call _) fun _ => .ite (.pure _) (Item.leavesError_putFileFromBuffer _ _)

theorem leavesError_walkValues (key rest : Bytes) (dataLen : Int) : LeavesError (walkValues key rest dataLen) := by
  fun_induction walkValues key rest dataLen with
  | case1 | case2 => exact .pure _
  | case3 | case5 => exact leavesError_undefined
  | case4 _ _ _ _ _ _ _ _ _ _ _ ih => exact .bind (.call _) fun proceed => .ite (.pure _) ih

theorem leavesError_readValues (key : Bytes) (dataLen : Int) : LeavesError (readValues key dataLen) := by
  refine .ite (.pure _) (.ite (.pure _) (.bind (.call _) fun allocated => .ite (.pure _) ?_))
  refine .bind (Item.leavesError_getFileToBuffer _ _ _) fun result => ?_
  exact .ite (.pure _) (.ite (.pure _) (leavesError_walkValues _ _ _))

theorem leavesError_getValues (key : Bytes) : LeavesError (getValues key) := by
  refine .bind (Item.leavesError_getFileLength _) fun exit => .ite (leavesError_readValues _ _) ?_
  exact .ite (.pure _) (leavesError_readValues _ _)

theorem leavesError_deleteKey (key : Bytes) : LeavesError (deleteKey key) :=
  .bind (Item.leavesError_deleteFile _) fun _ => .ite (.pure _) (.pure _)

end OneDrive

/-! ### The table of IPFS -/

namespace Ipfs

theorem leavesError_setConn (conn : σ) : LeavesError (setConn conn) := .modify fun _ _ => rfl

theorem leavesError_checkReachable : LeavesError checkReachable := by
  refine leavesError_getConn fun conn => .ite (.pure _) (.bind (leavesError_selectBootstrap _) fun result => ?_)
  rcases result with ⟨rc, _ | selected⟩
  · exact .pure _
  · exact .bind (leavesError_setConn _) fun _ => .pure _

theorem leavesError_requestError (rc : CurlCode) : LeavesError (requestError rc) := by
  refine .ite (.bind ?_ fun _ => .pure _) (.pure _)
  exact leavesError_getConn fun conn => leavesError_setConn _

theorem leavesError_apiUrl (path : Bytes) : LeavesError (apiUrl path) :=
  leavesError_getConn fun _ => .pure _

theorem leavesError_putFileFromBuffer (content : Bytes) : LeavesError (putFileFromBuffer content) := by
  refine .bind leavesError_checkReachable fun rc => .ite (.pure _) (.bind (leavesError_apiUrl _) fun url => ?_)
  refine .bind (.call _) fun created => .ite (.pure _) (.bind (leavesError_httpClientRequestBody _) fun result => ?_)
  refine .ite (.bind (leavesError_requestError _) fun _ => .pure _) (.ite (.pure _) (.ite (.pure _) ?_))
  refine .bind (leavesError_moveResponseBody _ _) fun body => ?_
  rcases body with _ | body
  · exact .pure _
  refine .bind (leavesError_cjsonParse _) fun json => ?_
  rcases json with _ | json
  · exact .pure _
  dsimp only
  rcases json.stringItem (bytes "Hash") with _ | hash
  · exact .pure _
  · exact .ite (.pure _) (.pure _)

theorem leavesError_getFileLength (cid : Bytes) : LeavesError (getFileLength cid) := by
  refine .bind leavesError_checkReachable fun rc => .ite (.pure _) (.bind (leavesError_apiUrl _) fun url => ?_)
  refine .bind (.call _) fun created => .ite (.pure _) (.bind (leavesError_httpClientRequestBody _) fun result => ?_)
  refine .ite (.bind (leavesError_requestError _) fun _ => .pure _) (.ite (.pure _) (.ite (.pure _) ?_))
  refine .bind (leavesError_moveResponseBody _ _) fun body => ?_
  rcases body with _ | body
  · exact .pure _
  refine .bind (leavesError_cjsonParse _) fun json => ?_
  rcases json with _ | json
  · exact .pure _
  dsimp only
  rcases lsSize json cid with _ | fsize
  · exact .pure _
  · exact .pure _

theorem leavesError_getFileToBuffer (cid block : Bytes) (buflen : Nat) : LeavesError (getFileToBuffer cid block buflen) := by
  refine .bind (leavesError_getFileLength _) fun exit => .ite (.pure _) (.ite (.pure _) ?_)
  refine .bind leavesError_checkReachable fun rc => .ite (.pure _) (.bind (leavesError_apiUrl _) fun url => ?_)
  refine .bind (.call _) fun created => .ite (.pure _) (.bind (leavesError_httpClientRequest _) fun result => ?_)
  refine .ite (.bind (leavesError_requestError _) fun _ => .pure _) (.ite (.pure _) (.ite (.pure _) ?_))
  exact .ite (.pure _) (.pure _)

end Ipfs

end HiveSdk
