import HiveSdk.Model.OAuthToken

/-!
# The OneDrive backend

The operations of `onedrive.c`. The static functions that work on an item path, whose names start with two underscores in the source, are in the namespace `Item`; the functions of the connect's table, which format the path, are in `OneDrive`.
-/

namespace HiveSdk

open Interaction

def maxUrlLen : Nat := 1024
def pathMax : Nat := 4096
def hiveMaxValueLen : Nat := 32 * 1024
def hiveMaxFileSize : Nat := 32 * 1024 * 1024

/-- Above this size a content is uploaded through a session. -/
def smallUpload : Nat := 4 * 1024 * 1024

def authorization : Bytes := bytes "Authorization"

/-- `sprintf` into a buffer of `MAX_URL_LEN` bytes, which a longer text overruns. -/
def formatUrl (url : Url) : Hive OneDriveConnect Url := do
  if url.text.length ≥ maxUrlLen then
    call (Event.urlOverrun url.text)
    undefinedBehaviour
  else return url

@[simp] theorem wp_formatUrl {τ : Type} (W : World Event Event.Answer τ)
    (p : Process OneDriveConnect) (s : τ) (url : Url)
    (Q : Url → Process OneDriveConnect → τ → Prop) :
    Proc.wp W (formatUrl url) Q p s
      ↔ (url.text.length ≥ maxUrlLen → W.pre s (.urlOverrun url.text)
          ∧ ∀ r t, W.step s (.urlOverrun url.text) r t → W.pre t .undefined)
        ∧ (¬ url.text.length ≥ maxUrlLen → Q url p s) := by
  simp only [formatUrl, Proc.wp_ite, Proc.wp_bind, Proc.wp_call, wp_undefinedBehaviour, Proc.wp_pure]

/-- The checks after every request with the access token. -/
def checkReply (rc : CurlCode) (reply : Reply) : Hive OneDriveConnect (Except Int StatusCode) := do
  if rc ≠ 0 then return .error (cInt (hiveCurlError rc))
  if reply.info ≠ 0 then return .error (cInt (hiveCurlError reply.info))
  if reply.status = HttpStatus.unauthorized then
    oauthTokenSetExpired
    return .error (cInt (hiveGeneralError HiveErr.tryAgain))
  return .ok reply.status

/-- A request with the access token in its header. `enable` is `http_client_enable_response_body`. -/
def sendAuthorized (req : Request) (enable : Bool) :
    Hive OneDriveConnect (Except Int (StatusCode × ResponseBody)) := do
  let token ← getToken
  let some accessToken := token.accessToken | undefinedBehaviour
  let req := { req with headers := req.headers ++ [(authorization, accessToken)] }
  if enable then
    let (rc, reply, response) ← httpClientRequestBody req
    return (← checkReply rc reply).map (·, response)
  else
    let (rc, reply) ← httpClientRequest req
    return (← checkReply rc reply).map (·, ResponseBody.empty)

/-! ### Uploads -/

namespace Item

def buildCreateFolderRequestBody (fname : Bytes) : Hive OneDriveConnect (Option Bytes) := do
  if !(← call Event.cjsonCreate) then return none
  if !(← call Event.cjsonCreate) then return none
  if !(← call Event.cjsonCreate) then return none
  call (Event.cjsonPrint (.object [(bytes "name", .string fname), (bytes "folder", .object [])]))

def createFolder (path : Bytes) : Hive OneDriveConnect Int := do
  let dir := dirname path
  let url ← formatUrl (if dir = [slash] then .appRootChildren else .item dir (bytes ":/children"))
  let some body ← buildCreateFolderRequestBody (basename path)
    | return cInt (hiveGeneralError HiveErr.outOfMemory)
  let headers := [(bytes "Content-Type", bytes "application/json")]
  match ← sendAuthorized { method := .post, url := url, headers := headers, body := body } false with
  | .error rc => return rc
  | .ok (status, _) =>
      if status ≠ HttpStatus.created ∧ status ≠ HttpStatus.ok then
        return cInt (hiveHttpStatusError status)
      return 0

def uploadFile (filePath content : Bytes) : Hive OneDriveConnect Int := do
  let url ← formatUrl (.item filePath (bytes ":/content"))
  match ← sendAuthorized { method := .put, url := url, body := content } false with
  | .error rc => return rc
  | .ok (status, _) =>
      if status ≠ HttpStatus.created ∧ status ≠ HttpStatus.ok then
        return cInt (hiveHttpStatusError status)
      return 0

/-- `len` is the size of the caller's URL buffer. -/
def createUploadSession (filePath : Bytes) (len : Nat) :
    Hive OneDriveConnect (Except Int Bytes) := do
  let url ← formatUrl (.item filePath (bytes ":/createUploadSession"))
  match ← sendAuthorized { method := .post, url := url } true with
  | .error rc => return .error rc
  | .ok (status, response) =>
      if status ≠ HttpStatus.ok then return .error (cInt (hiveHttpStatusError status))
      let some body ← httpClientMoveResponseBody response false
        | return .error (cInt (hiveGeneralError HiveErr.outOfMemory))
      let some json ← cjsonParse body
        | return .error (cInt (hiveGeneralError HiveErr.outOfMemory))
      let some uploadUrl := json.stringItem (bytes "uploadUrl")
        | return .error (cInt (hiveGeneralError HiveErr.badJsonFormat))
      if uploadUrl.length ≥ len then
        return .error (cInt (hiveGeneralError HiveErr.bufferTooSmall))
      return .ok uploadUrl

def uploadToSession (uploadUrl content : Bytes) : Hive OneDriveConnect Int := do
  let len := content.length
  let range := bytes "bytes 0-" ++ decimal (len - 1) ++ bytes "/" ++ decimal len
  let headers := [(bytes "Content-Length", decimal len), (bytes "Content-Range", range),
    (bytes "Transfer-Encoding", []), (bytes "Expect", [])]
  let url := Url.upload uploadUrl
  let (rc, reply) ← httpClientRequest { method := .put, url := url, headers := headers, body := content }
  if rc ≠ 0 then return cInt (hiveCurlError rc)
  if reply.info ≠ 0 then return cInt (hiveCurlError reply.info)
  if reply.status ≠ HttpStatus.created ∧ reply.status ≠ HttpStatus.ok then
    return cInt (hiveHttpStatusError reply.status)
  return 0

/-- The three dependent requests of a large upload. -/
def putThroughSession (content path : Bytes) : Hive OneDriveConnect Int := do
  let rc ← createFolder (dirname path)
  if rc < 0 then return rc
  match ← createUploadSession path maxUrlLen with
  | .error rc => return rc
  | .ok uploadUrl => uploadToSession uploadUrl content

def putFileFromBuffer (content path : Bytes) : Hive OneDriveConnect Int := do
  let rc ← oauthTokenCheckExpire
  if rc < 0 then return rc
  if !(← call (Event.httpClientNew .putFileFromBuffer)) then
    return cInt (hiveGeneralError HiveErr.outOfMemory)
  if content.length ≤ smallUpload then uploadFile path content
  else putThroughSession content path

/-! ### Item information and downloads -/

/-- The two lists of fields that are selected. -/
inductive InfoQuery
  | size | sizeAndDownloadUrl
  deriving DecidableEq, Repr

def InfoQuery.text : InfoQuery → Bytes
  | .size => bytes "size"
  | .sizeAndDownloadUrl => bytes "size,@microsoft.graph.downloadUrl"

structure FileInfo where
  size : Int
  downloadUrl : Bytes
  deriving DecidableEq, Repr

/-- The members that the query asks for, when they are well formed. -/
def InfoQuery.read (query : InfoQuery) (json : Json) : Option FileInfo := do
  let size ← json.sizeItem (bytes "size")
  match query with
  | .size => return ⟨size, []⟩
  | .sizeAndDownloadUrl => do
      let url ← json.stringItem (bytes "@microsoft.graph.downloadUrl")
      return ⟨size, url⟩

def getFileInfo (filePath : Bytes) (query : InfoQuery) :
    Hive OneDriveConnect (Except Int FileInfo) := do
  let url ← formatUrl (.item filePath [])
  let select := [(bytes "select", query.text)]
  match ← sendAuthorized { method := .get, url := url, query := select } true with
  | .error rc => return .error rc
  | .ok (status, response) =>
      if status ≠ HttpStatus.ok then return .error (cInt (hiveHttpStatusError status))
      let some body ← httpClientMoveResponseBody response false
        | return .error (cInt (hiveGeneralError HiveErr.outOfMemory))
      let some json ← cjsonParse body
        | return .error (cInt (hiveGeneralError HiveErr.outOfMemory))
      let some info := query.read json
        | return .error (cInt (hiveGeneralError HiveErr.badJsonFormat))
      return .ok info

def getFileLength (filePath : Bytes) : Hive OneDriveConnect Exit := do
  let rc ← oauthTokenCheckExpire
  if rc < 0 then return .int rc
  if !(← call (Event.httpClientNew .getFileLength)) then
    return .code (hiveGeneralError HiveErr.outOfMemory)
  match ← getFileInfo filePath .size with
  | .error rc => return .int rc
  | .ok info => return .length info.size

/-- The memory block after a `memcpy` to an offset, if that stays inside. -/
def writeAt (block : Bytes) (offset : Nat) (chunk : Bytes) : Option Bytes :=
  if offset + chunk.length ≤ block.length then
    some (block.take offset ++ chunk ++ block.drop (offset + chunk.length))
  else none

/-- `__download_file_response_body_callback` over all pieces: each is stored behind the one before. -/
def storeChunks : Bytes → Nat → List Bytes → Option Bytes
  | block, _, [] => some block
  | block, offset, chunk :: chunks => do
      let block ← writeAt block offset chunk
      storeChunks block (offset + chunk.length) chunks

def downloadFile (downloadUrl block : Bytes) : Hive OneDriveConnect (Int × Bytes) := do
  let (rc, reply) ← httpClientRequest { method := .get, url := .download downloadUrl }
  let some block := storeChunks block 0 reply.chunks | undefinedBehaviour
  if rc ≠ 0 then return (cInt (hiveCurlError rc), block)
  if reply.info ≠ 0 then return (cInt (hiveCurlError reply.info), block)
  if reply.status ≠ HttpStatus.ok then return (cInt (hiveHttpStatusError reply.status), block)
  return (0, block)

/-- `block` is the memory that starts at `to`; it may be longer than `buflen`. -/
def getFileToBuffer (filePath block : Bytes) (buflen : Nat) :
    Hive OneDriveConnect (Exit × Bytes) := do
  let rc ← oauthTokenCheckExpire
  if rc < 0 then return (.int rc, block)
  if !(← call (Event.httpClientNew .getFileToBuffer)) then
    return (.code (hiveGeneralError HiveErr.outOfMemory), block)
  match ← getFileInfo filePath .sizeAndDownloadUrl with
  | .error rc => return (.int rc, block)
  | .ok info =>
      if cSsize buflen > 0 ∧ info.size > cSsize buflen then
        return (.code (hiveGeneralError HiveErr.bufferTooSmall), block)
      if info.size = 0 then return (.length 0, block)
      let (rc, block) ← downloadFile info.downloadUrl block
      if rc < 0 then return (.int rc, block)
      return (.length info.size, block)

def deleteFile (filePath : Bytes) : Hive OneDriveConnect Int := do
  let rc ← oauthTokenCheckExpire
  if rc < 0 then return rc
  if !(← call (Event.httpClientNew .deleteFile)) then
    return cInt (hiveGeneralError HiveErr.outOfMemory)
  let url ← formatUrl (.item filePath (bytes ":"))
  match ← sendAuthorized { method := .delete, url := url } false with
  | .error rc => return rc
  | .ok (status, _) =>
      if status ≠ HttpStatus.noContent then return cInt (hiveHttpStatusError status)
      return 0

end Item

/-! ### The functions of the table: files -/

namespace OneDrive

def filePath (filename : Bytes) : Bytes := filesDir ++ bytes "/" ++ filename

def putFileFromBuffer (content filename : Bytes) : Hive OneDriveConnect Int :=
  Item.putFileFromBuffer content (snprintf pathMax (filePath filename))

def getFileLength (filename : Bytes) : Hive OneDriveConnect Exit := do
  if (filePath filename).length ≥ pathMax then
    return .code (hiveGeneralError HiveErr.bufferTooSmall)
  Item.getFileLength (filePath filename)

def getFileToBuffer (filename block : Bytes) (buflen : Nat) :
    Hive OneDriveConnect (Exit × Bytes) := do
  if (filePath filename).length ≥ pathMax then
    return (.code (hiveGeneralError HiveErr.bufferTooSmall), block)
  Item.getFileToBuffer (filePath filename) block buflen

def deleteFile (filename : Bytes) : Hive OneDriveConnect Int := do
  if (filePath filename).length ≥ pathMax then
    return cInt (hiveGeneralError HiveErr.bufferTooSmall)
  Item.deleteFile (filePath filename)

/-! ### Listing -/

/-- The name of an item that is either a file or a folder. -/
def itemName (item : Json) : Option Bytes := do
  let name ← item.stringItem (bytes "name")
  match item.getObjectItemCaseSensitive (bytes "file"),
      item.getObjectItemCaseSensitive (bytes "folder") with
  | some file, none => if file.isObject then some name else none
  | none, some folder => if folder.isObject then some name else none
  | _, _ => none

/-- `__merge_array`: the items are moved one by one until one is malformed. -/
def mergeArray : (sub array : List Json) → Int × List Json
  | [], array => (0, array)
  | item :: sub, array =>
      if (itemName item).isNone then (cInt (hiveGeneralError HiveErr.badJsonFormat), array)
      else mergeArray sub (array ++ [item])

def notifyUserFiles : List Json → Hive OneDriveConnect Unit
  | [] => do
      let _ ← call (Event.filesCallback none)
  | item :: items => do
      let some name := item.stringItem (bytes "name") | undefinedBehaviour
      if ← call (Event.filesCallback (some name)) then notifyUserFiles items

/-- The paging loop. It gives `none` when it is still following links after `pages` pages. -/
def listPages : (pages : Nat) → Url → List Json → Hive OneDriveConnect (Option Int)
  | 0, _, _ => return none
  | pages + 1, url, array => do
      match ← sendAuthorized { method := .get, url := url } true with
      | .error rc => return some rc
      | .ok (status, response) =>
          if status ≠ HttpStatus.ok then return some (cInt (hiveHttpStatusError status))
          let some body ← httpClientMoveResponseBody response false
            | return some (cInt (hiveGeneralError HiveErr.outOfMemory))
          let some json ← cjsonParse body
            | return some (cInt (hiveGeneralError HiveErr.outOfMemory))
          let some sub := (json.getObjectItemCaseSensitive (bytes "value")).bind Json.asArray
            | return some (cInt (hiveGeneralError HiveErr.badJsonFormat))
          let (rc, array) := mergeArray sub array
          if rc < 0 then return some rc
          if (json.getObjectItemCaseSensitive (bytes "@odata.nextLink")).isNone then
            notifyUserFiles array
            return some 0
          let some next := json.stringItem (bytes "@odata.nextLink")
            | return some (cInt (hiveGeneralError HiveErr.badJsonFormat))
          listPages pages (.nextLink next) array

def listFiles (pages : Nat) : Hive OneDriveConnect (Option Int) := do
  let rc ← oauthTokenCheckExpire
  if rc < 0 then return some rc
  if !(← call (Event.httpClientNew .listFiles)) then
    return some (cInt (hiveGeneralError HiveErr.outOfMemory))
  let url ← formatUrl (.item filesDir (bytes ":/children"))
  if !(← call Event.cjsonCreate) then
    return some (cInt (hiveGeneralError HiveErr.outOfMemory))
  listPages pages url []

/-! ### The functions of the table: keys -/

/-- `sizeof(KVEntry)`. -/
def kvEntrySize : Nat := 4

/-- The bytes of `htonl(n)`. -/
def htonl (n : Nat) : Bytes :=
  [UInt8.ofNat (n / 2 ^ 24), UInt8.ofNat (n / 2 ^ 16), UInt8.ofNat (n / 2 ^ 8), UInt8.ofNat n]

/-- `ntohl` of four bytes in memory. -/
def ntohl (b₀ b₁ b₂ b₃ : UInt8) : Nat :=
  b₀.toNat * 2 ^ 24 + b₁.toNat * 2 ^ 16 + b₂.toNat * 2 ^ 8 + b₃.toNat

def keyPath (key : Bytes) : Bytes := snprintf pathMax (keysDir ++ bytes "/" ++ key)

/-- The test by which `put_value`, `get_values` and `delete_key` recognise an absent item. -/
def isNotFound (rc : Int) : Bool := cUInt rc = hiveHttpStatusError HttpStatus.notFound

/-- `put_value`, from the point where the present size is known. -/
def appendValue (path value : Bytes) (size : Int) : Hive OneDriveConnect Int := do
  let sizeNew := cSize (size + kvEntrySize + value.length)
  if !(← call (Event.alloc sizeNew)) then return cInt (hiveGeneralError HiveErr.outOfMemory)
  let block := List.replicate sizeNew (0 : UInt8)
  if size > 0 then
    let (exit, block) ← Item.getFileToBuffer path block (cSize size)
    let rc := cInt exit.value
    if rc < 0 then return rc
    if rc ≠ cInt size then
      return cInt (hiveGeneralError HiveErr.invalidPersistenceFile)
    Item.putFileFromBuffer (block.take size.toNat ++ htonl value.length ++ value) path
  else Item.putFileFromBuffer (block.take size.toNat ++ htonl value.length ++ value) path

def putValue (key value : Bytes) : Hive OneDriveConnect Int := do
  let path := keyPath key
  let size := (← Item.getFileLength path).value
  if isNotFound (cInt size) then appendValue path value 0
  else if size < 0 then return cInt size
  else appendValue path value size

def setValue (key value : Bytes) : Hive OneDriveConnect Int := do
  if !(← call (Event.alloc (kvEntrySize + value.length))) then
    return cInt (hiveGeneralError HiveErr.outOfMemory)
  Item.putFileFromBuffer (htonl value.length ++ value) (keyPath key)

/-- The record walk of `get_values`; `rest` is the buffer from the current record on. -/
def walkValues (key : Bytes) (rest : Bytes) (dataLen : Int) : Hive OneDriveConnect Int :=
  match rest with
  | b₀ :: b₁ :: b₂ :: b₃ :: body => do
      let valLen := ntohl b₀ b₁ b₂ b₃
      if valLen > hiveMaxValueLen then return cInt (hiveGeneralError HiveErr.badPersistentData)
      let dataLen := cSsize (dataLen - (kvEntrySize + valLen))
      if dataLen < 0 ∨ (dataLen > 0 ∧ dataLen ≤ kvEntrySize) then
        return cInt (hiveGeneralError HiveErr.badPersistentData)
      if body.length < valLen then undefinedBehaviour
      else
        let proceed ← call (Event.valuesCallback key (body.take valLen))
        if dataLen = 0 ∨ !proceed then return 0
        walkValues key (body.drop valLen) dataLen
  | _ => undefinedBehaviour
termination_by rest.length
decreasing_by
  simp only [List.length_drop, List.length_cons]
  omega

/-- `get_values`, from the point where the size is known. -/
def readValues (key : Bytes) (dataLen : Int) : Hive OneDriveConnect Int := do
  if dataLen > 0 ∧ dataLen ≤ kvEntrySize then
    return cInt (hiveGeneralError HiveErr.badPersistentData)
  if dataLen = 0 then return 0
  let size := cSize dataLen
  if !(← call (Event.alloc size)) then return cInt (hiveGeneralError HiveErr.outOfMemory)
  let (exit, block) ← Item.getFileToBuffer (keyPath key) (List.replicate size 0) size
  let rc := exit.value
  if rc < 0 then return cInt rc
  if rc ≠ dataLen then return cInt (hiveGeneralError HiveErr.invalidPersistenceFile)
  walkValues key block dataLen

def getValues (key : Bytes) : Hive OneDriveConnect Int := do
  let dataLen := (← Item.getFileLength (keyPath key)).value
  if isNotFound (cInt dataLen) then readValues key 0
  else if dataLen < 0 then return cInt dataLen
  else readValues key dataLen

def deleteKey (key : Bytes) : Hive OneDriveConnect Int := do
  let rc ← Item.deleteFile (keyPath key)
  if rc < 0 ∧ ¬ isNotFound rc then return rc
  return 0

def expireToken : Hive OneDriveConnect Int := do
  oauthTokenSetExpired
  return 0

end OneDrive

end HiveSdk
