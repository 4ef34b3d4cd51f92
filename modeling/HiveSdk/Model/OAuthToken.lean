import HiveSdk.Model.HttpClient
import HiveSdk.Model.Sandbird

/-!
# OAuth tokens

`oauth_token.c`, with `oauth_writeback` of the OneDrive backend as the only write-back callback there is.
-/

namespace HiveSdk

open Interaction

structure OAuthToken where
  authorizeUrl : Bytes
  tokenUrl : Bytes
  clientId : Bytes
  scope : Bytes
  redirectUrl : Bytes
  tokenType : Option Bytes
  accessToken : Option Bytes
  refreshToken : Option Bytes
  expiresAt : Timeval
  deriving DecidableEq, Repr

/-- The three strings of a token are there. -/
structure OAuthToken.Complete (token : OAuthToken) : Prop where
  tokenType : token.tokenType.isSome
  accessToken : token.accessToken.isSome
  refreshToken : token.refreshToken.isSome

structure OneDriveConnect where
  token : OAuthToken
  keystorePath : Bytes
  deriving DecidableEq, Repr

def getToken : Hive OneDriveConnect OAuthToken := do return (← getConn).token

def setToken (token : OAuthToken) : Hive OneDriveConnect Unit :=
  modify fun p => { p with conn := { p.conn with token := token } }

/-! ### Time -/

/-- `timercmp(a, b, >)`. -/
def Timeval.after (a b : Timeval) : Bool := if a.sec = b.sec then a.usec > b.usec else a.sec > b.sec

/-- `timeradd`. -/
def Timeval.add (a b : Timeval) : Timeval :=
  let usec := a.usec + b.usec
  if usec ≥ 1000000 then ⟨cSsize (a.sec + b.sec + 1), usec - 1000000⟩
  else ⟨cSsize (a.sec + b.sec), usec⟩

/-! ### The keystore -/

/-- `oauth_writeback`. -/
def oauthWriteback (json : Json) : Hive OneDriveConnect Int := do
  let some text ← call (Event.cjsonPrint json) | return cInt (hiveGeneralError HiveErr.outOfMemory)
  if text = [] then return cInt (hiveGeneralError HiveErr.outOfMemory)
  let path := (← getConn).keystorePath
  match ← call (Event.openFile path .wronlyTruncCreat) with
  | .error e => do
      setErrno e
      return cInt (hiveSysError e)
  | .ok () => do
      let data : Bytes := text ++ [0]
      let written ← match ← call (Event.write path data) with
        | .error e => do
            setErrno e
            pure (-1 : Int)
        | .ok n => pure (cInt n)
      if written ≠ cInt (cInt text.length + 1) then return cInt (hiveSysError (← get).errno)
      return 0

/-- `cJSON_AddStringToObject` and `cJSON_AddNumberToObject`, whose failure nobody looks at. -/
def addItem (members : List (Bytes × Json)) (name : Bytes) (value : Json) :
    Hive OneDriveConnect (List (Bytes × Json)) := do
  if ← call Event.cjsonCreate then return members ++ [(name, value)]
  return members

def writebackTokens : Hive OneDriveConnect Unit := do
  let token ← getToken
  if !(← call Event.cjsonCreate) then return
  let members ← addItem [] (bytes "client_id") (.string token.clientId)
  let members ← match token.tokenType with
    | none => pure members
    | some tokenType => match token.accessToken, token.refreshToken with
      | some accessToken, some refreshToken => do
          let members ← addItem members (bytes "token_type") (.string tokenType)
          let members ← addItem members (bytes "access_token") (.string accessToken)
          let members ← addItem members (bytes "refresh_token") (.string refreshToken)
          addItem members (bytes "expires_at") (.number (roundToDouble token.expiresAt.sec))
      | _, _ => undefinedBehaviour
  let _ ← oauthWriteback (.object members)

/-- The members that `restore_access_token` reads, when it finds them all. -/
structure StoredTokens where
  tokenType : Bytes
  accessToken : Bytes
  refreshToken : Bytes
  expiresAt : Int
  deriving DecidableEq, Repr

def storedTokens (json : Json) : Option StoredTokens := do
  let tokenType ← (json.getObjectItem (bytes "token_type")).bind Json.asString
  let accessToken ← (json.getObjectItem (bytes "access_token")).bind Json.asString
  let refreshToken ← (json.getObjectItem (bytes "refresh_token")).bind Json.asString
  let expiresAt ← (json.getObjectItem (bytes "expires_at")).bind Json.asNumber
  return ⟨tokenType, accessToken, refreshToken, doubleToLong expiresAt⟩

def restoreAccessToken {σ : Type} (json : Option Json) (token : OAuthToken) :
    Hive σ (Int × OAuthToken) := do
  let some json := json | return (0, token)
  if (json.getObjectItem (bytes "client_id")).bind Json.asString ≠ some token.clientId then
    return (cInt (hiveGeneralError HiveErr.badPersistentData), token)
  let some stored := storedTokens json | return (0, token)
  let token := { token with expiresAt := { token.expiresAt with sec := stored.expiresAt } }
  let size := stored.tokenType.length + 1 + (stored.accessToken.length + 1)
    + (stored.refreshToken.length + 1)
  if !(← call (Event.alloc size)) then
    setErrno Errno.ENOMEM
    return (cInt (hiveSysError Errno.ENOMEM), token)
  return (0, { token with
    tokenType := some stored.tokenType
    accessToken := some stored.accessToken
    refreshToken := some stored.refreshToken })

structure OAuthOptions where
  store : Option Json
  authorizeUrl : Bytes
  tokenUrl : Bytes
  clientId : Bytes
  scope : Bytes
  redirectUrl : Bytes

/-- The token that `rc_zalloc` and the copies of the options give. -/
def OAuthOptions.token (opts : OAuthOptions) : OAuthToken where
  authorizeUrl := opts.authorizeUrl
  tokenUrl := opts.tokenUrl
  clientId := opts.clientId
  scope := opts.scope
  redirectUrl := opts.redirectUrl
  tokenType := none
  accessToken := none
  refreshToken := none
  expiresAt := ⟨0, 0⟩

def oauthTokenNew {σ : Type} (opts : OAuthOptions) : Hive σ (Option OAuthToken) := do
  let size := opts.authorizeUrl.length + opts.tokenUrl.length + opts.clientId.length
    + opts.scope.length + opts.redirectUrl.length + 5
  if !(← call (Event.alloc size)) then
    hiveSetError (cInt (hiveGeneralError HiveErr.outOfMemory))
    return none
  -- a store that cannot be restored is only logged
  let (_, token) ← restoreAccessToken opts.store opts.token
  return some token

/-! ### The authorization code -/

/-- The flag and the buffer that `handle_auth_redirect` works on. -/
structure AuthRedirect where
  stop : Bool
  code : Bytes
  deriving DecidableEq, Repr

def handleAuthRedirect (path : Bytes) (a : AuthRedirect) (e : SbEvent) :
    Hive OneDriveConnect AuthRedirect := do
  match e with
  | .connect => return a
  | .close => return { a with stop := true }
  | .request reqPath stream =>
      if reqPath ≠ path then
        hiveSetError (cInt (hiveGeneralError HiveErr.badAddress))
        return a
      let (code, result) := Sb.getVar stream (bytes "code") a.code
      if result ≠ .success then
        hiveSetError (cInt (hiveGeneralError HiveErr.invalidCredential))
      return { a with code := code }

/-- The events of one poll. -/
def handleEvents (path : Bytes) : AuthRedirect → List SbEvent → Hive OneDriveConnect AuthRedirect
  | a, [] => return a
  | a, e :: es => do
      let a ← handleAuthRedirect path a e
      handleEvents path a es

/-- `while (!stopped) sb_poll_server(..)`. When the polls run out first, the loop is still waiting. -/
def pollUntilStopped (path : Bytes) :
    AuthRedirect → List (List SbEvent) → Hive OneDriveConnect AuthRedirect
  | a, polls =>
      if a.stop then return a
      else match polls with
        | [] => do
            let never ← call Event.diverge
            nomatch never
        | es :: polls => do
            let a ← handleEvents path a es
            pollUntilStopped path a polls

def authorizeCodeSize : Nat := 512

def getAuthorizeCode : Hive OneDriveConnect (Option Bytes) := do
  if !(← call (Event.httpClientNew .getAuthorizeCode)) then
    hiveSetError (cInt (hiveGeneralError HiveErr.outOfMemory))
    return none
  match ← call (Event.curlUrlGet .url) with
  | .error rc => do
      hiveSetError (cInt (hiveCurluError rc))
      return none
  | .ok _ =>
  match ← call (Event.curlUrlGet .host) with
  | .error rc => do
      hiveSetError (cInt (hiveCurluError rc))
      return none
  | .ok host =>
  match ← call (Event.curlUrlGet .port) with
  | .error rc => do
      hiveSetError (cInt (hiveCurluError rc))
      return none
  | .ok port =>
  match ← call (Event.curlUrlGet .path) with
  | .error rc => do
      hiveSetError (cInt (hiveCurluError rc))
      return none
  | .ok path =>
  -- no error is set when the server cannot be created
  if !(← call (Event.sbNewServer host port)) then return none
  match ← call Event.pthreadCreate with
  | .error e => do
      setErrno e
      hiveSetError (cInt (hiveSysError e))
      return none
  | .ok () => do
      let polls ← call Event.sbPollServer
      let a ← pollUntilStopped path ⟨false, List.replicate authorizeCodeSize 0⟩ polls
      let code := cString a.code
      return if code = [] then none else some code

/-! ### Redeeming and refreshing -/

/-- What `decode_access_token` takes over from a token response. -/
structure TokenSet where
  tokenType : Bytes
  accessToken : Bytes
  refreshToken : Bytes
  deriving DecidableEq, Repr

/-- `strdup`, which sets `errno` when it fails. -/
def strdup {σ : Type} (s : Bytes) : Hive σ Bool := do
  if ← call (Event.strdup s) then return true
  setErrno Errno.ENOMEM
  return false

def decodeAccessToken (body : HeapBlock) : Hive OneDriveConnect Int := do
  let badJson : Int := cInt (hiveGeneralError HiveErr.badJsonFormat)
  let some json ← cjsonParse body | return badJson
  let some tokenType := json.stringItem (bytes "token_type") | return badJson
  if !(← strdup tokenType) then return cInt (hiveSysError (← get).errno)
  let some _ := json.stringItem (bytes "scope") | return badJson
  let some accessToken := json.stringItem (bytes "access_token") | return badJson
  if !(← strdup accessToken) then return cInt (hiveSysError (← get).errno)
  let some refreshToken := json.stringItem (bytes "refresh_token") | return badJson
  if !(← strdup refreshToken) then return cInt (hiveSysError (← get).errno)
  let some expiresIn := json.sizeItem (bytes "expires_in") | return badJson
  let now ← call Event.gettimeofday
  let token ← getToken
  setToken { token with
    tokenType := some tokenType
    accessToken := some accessToken
    refreshToken := some refreshToken
    expiresAt := now.add ⟨expiresIn, 0⟩ }
  return 0

/-- The form that is posted to the token endpoint. -/
def tokenForm (clientId redirectUri param value grantType : Bytes) : Bytes :=
  bytes "client_id=" ++ clientId ++ bytes "&redirect_uri=" ++ redirectUri
    ++ bytes "&" ++ param ++ bytes "=" ++ value ++ bytes "&grant_type=" ++ grantType

/-- The common body of `redeem_access_token` and `refresh_access_token`: escape, post the form, decode the answer. `ignoreInfo` is the test `rc < 0` of the former, which no `CURLcode` meets. -/
def requestToken (caller : Caller) (param : Bytes) (value : Option Bytes) (grantType : Bytes)
    (bufSize : Nat) (ignoreInfo : Bool) : Hive OneDriveConnect Int := do
  let noMemory : Int := cInt (hiveGeneralError HiveErr.outOfMemory)
  let token ← getToken
  if !(← call (Event.httpClientNew caller)) then return noMemory
  let some clientId ← call (Event.escape token.clientId) | return noMemory
  let some redirectUri ← call (Event.escape token.redirectUrl) | return noMemory
  let some value := value | undefinedBehaviour
  let some value ← call (Event.escape value) | return noMemory
  let form := tokenForm clientId redirectUri param value grantType
  if form.length ≥ bufSize then return cInt (hiveGeneralError HiveErr.bufferTooSmall)
  let (rc, reply, response) ← httpClientRequestBody
    { method := .post, url := .token token.tokenUrl, body := form }
  if rc ≠ 0 then return cInt (hiveCurlError rc)
  if reply.info ≠ 0 ∧ !ignoreInfo then return cInt (hiveCurlError reply.info)
  let status := if reply.info ≠ 0 then 0 else reply.status
  if status ≠ HttpStatus.ok then return cInt (hiveHttpStatusError status)
  let some body ← httpClientMoveResponseBody response false | return noMemory
  decodeAccessToken body

def redeemAccessToken (code : Bytes) : Hive OneDriveConnect Int :=
  requestToken .redeemAccessToken (bytes "code") (some code) (bytes "authorization_code") 512 true

def refreshAccessToken : Hive OneDriveConnect Int := do
  let token ← getToken
  let rc ← requestToken .refreshAccessToken (bytes "refresh_token") token.refreshToken
    (bytes "refresh_token") 4096 false
  if rc < 0 then return rc
  writebackTokens
  return 0

def oauthTokenRequest : Hive OneDriveConnect Int := do
  let token ← getToken
  if token.accessToken.isSome then return 0
  let some code ← getAuthorizeCode | hiveGetError
  let rc ← redeemAccessToken code
  if rc < 0 then return rc
  writebackTokens
  return 0

def oauthTokenSetExpired : Hive OneDriveConnect Unit := do
  let token ← getToken
  setToken { token with expiresAt := ⟨0, 0⟩ }

def oauthTokenCheckExpire : Hive OneDriveConnect Int := do
  let token ← getToken
  let now ← call Event.gettimeofday
  if !now.after token.expiresAt then return 0
  let rc ← refreshAccessToken
  if rc < 0 then return rc
  return 0

@[simp] theorem wp_getToken {τ : Type} (W : World Event Event.Answer τ)
    (p : Process OneDriveConnect) (s : τ) (Q : OAuthToken → Process OneDriveConnect → τ → Prop) :
    Proc.wp W getToken Q p s ↔ Q p.conn.token p s := Iff.rfl

@[simp] theorem wp_setToken {τ : Type} (W : World Event Event.Answer τ)
    (p : Process OneDriveConnect) (s : τ) (token : OAuthToken)
    (Q : Unit → Process OneDriveConnect → τ → Prop) :
    Proc.wp W (setToken token) Q p s
      ↔ Q () { p with conn := { p.conn with token := token } } s := Iff.rfl

end HiveSdk
