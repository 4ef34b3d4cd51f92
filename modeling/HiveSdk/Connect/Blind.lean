import HiveSdk.Interaction.Relate
import HiveSdk.Model.Client

/-!
# What does not touch `hive_error`

Most functions under `hive_client_connect` hand their error code to the caller and leave the thread's `hive_error` alone. They do not look at it either, so what they do is the same whatever it holds.
-/

namespace HiveSdk

open Interaction

variable {σ τ α β : Type}

def withError (e : Int) (p : Process σ) : Process σ := { p with hiveError := e }

/-- The function neither reads nor writes `hive_error`. -/
abbrev LeavesError (m : Hive σ α) : Prop := Blind withError m

theorem leavesError_setErrno (e : Errno) : LeavesError (setErrno e : Hive σ Unit) :=
  .modify fun _ _ => rfl

theorem leavesError_getErrno {f : Errno → Hive σ α} (hf : ∀ n, LeavesError (f n)) :
    LeavesError (get >>= fun p => f p.errno) :=
  .get (fun p => hf p.errno) fun _ _ => rfl

theorem leavesError_getConn {f : σ → Hive σ α} (hf : ∀ conn, LeavesError (f conn)) :
    LeavesError (getConn >>= f) :=
  .get (fun p => hf p.conn) fun _ _ => rfl

theorem leavesError_getToken {f : OAuthToken → Hive OneDriveConnect α}
    (hf : ∀ token, LeavesError (f token)) : LeavesError (getToken >>= f) :=
  .get (fun p => hf p.conn.token) fun _ _ => rfl

theorem leavesError_setToken (token : OAuthToken) : LeavesError (setToken token) :=
  .modify fun _ _ => rfl

theorem leavesError_undefined : LeavesError (undefinedBehaviour : Hive σ α) :=
  .bind (.call _) fun never => (nomatch never)

/-! ### Directories and the keystore -/

theorem leavesError_mkdirInternal (path : Bytes) : LeavesError (mkdirInternal path : Hive σ Int) := by
  apply Blind.bind (.call _)
  intro answer
  rcases answer with e | st
  · apply Blind.bind (leavesError_setErrno e)
    intro _
    apply Blind.bind (.call _)
    intro made
    rcases made with e' | _
    · exact .bind (leavesError_setErrno e') fun _ => .pure _
    · exact .pure _
  · exact .ite (.pure _) (.bind (leavesError_setErrno _) fun _ => .pure _)

theorem leavesError_mkdirsLoop (done : Bytes) (component : Bool) (rest : Bytes) :
    LeavesError (mkdirsLoop done component rest : Hive σ Int) := by
  induction rest generalizing done component with
  | nil => exact .pure 0
  | cons c rest ih =>
      rw [mkdirsLoop]
      refine .ite (.ite ?_ (ih _ _)) (ih _ _)
      exact .bind (leavesError_mkdirInternal done) fun rc => .ite (.pure rc) (ih _ _)

theorem leavesError_mkdirs (path : Bytes) : LeavesError (mkdirs path : Hive σ Int) :=
  .bind (leavesError_mkdirsLoop _ _ _) fun rc => .ite (.pure rc) (leavesError_mkdirInternal path)

theorem leavesError_loadKeystoreInJson (path : Bytes) :
    LeavesError (loadKeystoreInJson path : Hive σ (Option Json)) := by
  have hfail : ∀ e, LeavesError (do
      setErrno e
      return none : Hive σ (Option Json)) := fun e => .bind (leavesError_setErrno e) fun _ => .pure none
  apply Blind.bind (.call _)
  intro answer
  rcases answer with e | st
  · exact hfail e
  refine .ite (hfail _) (.bind (.call _) fun opened => ?_)
  rcases opened with e | _
  · exact hfail e
  apply Blind.bind (.call _)
  intro data
  rcases data with e | data
  · exact hfail e
  refine .ite (.pure none) (.bind (.ite (.pure _) (.bind (.call _) fun _ => .pure _)) fun text => ?_)
  apply Blind.bind (.call _)
  intro json
  exact .ite (.bind (leavesError_setErrno _) fun _ => .pure json) (.pure json)

theorem leavesError_restoreAccessToken (json : Option Json) (token : OAuthToken) :
    LeavesError (restoreAccessToken json token : Hive σ (Int × OAuthToken)) := by
  unfold restoreAccessToken
  rcases json with _ | json
  · exact .pure _
  refine .ite (.pure _) ?_
  rcases storedTokens json with _ | stored
  · exact .pure _
  refine .bind (.call _) fun allocated => .ite ?_ (.pure _)
  exact .bind (leavesError_setErrno _) fun _ => .pure _

/-! ### Requests -/

theorem leavesError_writeCallback (r : ResponseBody) (chunk : Bytes) :
    LeavesError (httpResponseBodyWriteCallback r chunk : Hive σ (ResponseBody × Nat)) := by
  refine .ite (.ite (.pure _) ?_) (.pure _)
  exact .bind (.call _) fun grown => .ite (.pure _) (.pure _)

theorem leavesError_deliver (r : ResponseBody) (chunks : List Bytes) :
    LeavesError (deliver r chunks : Hive σ (ResponseBody × Bool)) := by
  induction chunks generalizing r with
  | nil => exact .pure _
  | cons chunk chunks ih =>
      apply Blind.bind (leavesError_writeCallback r chunk)
      intro x
      exact .ite (ih x.1) (.pure _)

theorem leavesError_httpClientRequest (req : Request) :
    LeavesError (httpClientRequest req : Hive σ (CurlCode × Reply)) :=
  .bind (.call _) fun _ => .pure _

theorem leavesError_httpClientRequestBody (req : Request) :
    LeavesError (httpClientRequestBody req : Hive σ (CurlCode × Reply × ResponseBody)) :=
  .bind (.call _) fun _ => .bind (leavesError_deliver _ _) fun _ => .pure _

theorem leavesError_moveResponseBody (r : ResponseBody) (len : Bool) :
    LeavesError (httpClientMoveResponseBody r len : Hive σ (Option HeapBlock)) :=
  .ite (.ite (.pure _) leavesError_undefined) (.pure _)

theorem leavesError_cjsonParse (block : HeapBlock) : LeavesError (cjsonParse block : Hive σ (Option Json)) :=
  .bind (.call _) fun _ => .ite (.call _) leavesError_undefined

/-! ### The token endpoint -/

theorem leavesError_strdup (text : Bytes) : LeavesError (strdup text : Hive σ Bool) := by
  refine .bind (.call _) fun copied => .ite (.pure _) ?_
  exact .bind (leavesError_setErrno _) fun _ => .pure _

theorem leavesError_decodeAccessToken (body : HeapBlock) : LeavesError (decodeAccessToken body) := by
  have hsys : LeavesError (do return cInt (hiveSysError (← get).errno) : Hive OneDriveConnect Int) :=
    leavesError_getErrno (f := fun e => pure (cInt (hiveSysError e))) fun _ => .pure _
  apply Blind.bind (leavesError_cjsonParse body)
  intro json
  rcases json with _ | json
  · exact .pure _
  dsimp only
  rcases json.stringItem (bytes "token_type") with _ | tokenType
  · exact .pure _
  refine .bind (leavesError_strdup tokenType) fun copied => .ite hsys ?_
  rcases json.stringItem (bytes "scope") with _ | scope
  · exact .pure _
  dsimp only
  rcases json.stringItem (bytes "access_token") with _ | accessToken
  · exact .pure _
  refine .bind (leavesError_strdup accessToken) fun copied => .ite hsys ?_
  rcases json.stringItem (bytes "refresh_token") with _ | refreshToken
  · exact .pure _
  refine .bind (leavesError_strdup refreshToken) fun copied => .ite hsys ?_
  rcases json.sizeItem (bytes "expires_in") with _ | expiresIn
  · exact .pure _
  refine .bind (.call _) fun now => leavesError_getToken fun token => ?_
  exact .bind (leavesError_setToken _) fun _ => .pure 0

theorem leavesError_requestToken (caller : Caller) (param : Bytes) (value : Option Bytes)
    (grantType : Bytes) (bufSize : Nat) (ignoreInfo : Bool) :
    LeavesError (requestToken caller param value grantType bufSize ignoreInfo) := by
  refine leavesError_getToken fun token => .bind (.call _) fun created => .ite (.pure _) ?_
  apply Blind.bind (.call _)
  intro clientId
  rcases clientId with _ | clientId
  · exact .pure _
  apply Blind.bind (.call _)
  intro redirectUri
  rcases redirectUri with _ | redirectUri
  · exact .pure _
  rcases value with _ | value
  · exact leavesError_undefined
  apply Blind.bind (.call _)
  intro escaped
  rcases escaped with _ | escaped
  · exact .pure _
  refine .ite (.pure _) (.bind (leavesError_httpClientRequestBody _) fun x => ?_)
  refine .ite (.pure _) (.ite (.pure _) (.ite (.pure _) ?_))
  apply Blind.bind (leavesError_moveResponseBody _ _)
  intro body
  rcases body with _ | body
  · exact .pure _
  · exact leavesError_decodeAccessToken body

theorem leavesError_redeemAccessToken (code : Bytes) : LeavesError (redeemAccessToken code) :=
  leavesError_requestToken _ _ _ _ _ _

/-! ### Bootstrap nodes -/

theorem leavesError_testReachable (ipaddr : Bytes) (port : Nat) :
    LeavesError (Ipfs.testReachable ipaddr port : Hive σ Int) := by
  refine .ite (.pure _) (.bind (.call _) fun created => .ite (.pure _) ?_)
  refine .bind (leavesError_httpClientRequest _) fun x => ?_
  exact .ite (.pure _) (.ite (.pure _) (.ite (.pure _) (.pure _)))

theorem leavesError_tryAddress (ip : Bytes) (port : Nat) :
    LeavesError (Ipfs.tryAddress ip port : Hive σ Bool) :=
  .ite (.pure _) (.bind (leavesError_testReachable ip port) fun _ => .pure _)

theorem leavesError_scanNodes (nodes : List RpcNode) (base steps i : Nat) :
    LeavesError (Ipfs.scanNodes nodes base steps i : Hive σ (Int × Option (Bytes × Nat))) := by
  induction steps generalizing i with
  | zero => exact .bind (.call _) fun never => (nomatch never)
  | succ steps ih =>
      rw [Ipfs.scanNodes]
      rcases nodes[i]? with _ | node
      · exact leavesError_undefined
      refine .bind (leavesError_tryAddress _ _) fun reached => .ite (.pure _) ?_
      refine .bind (leavesError_tryAddress _ _) fun reached => .ite (.pure _) ?_
      exact .ite (ih _) (.pure _)

theorem leavesError_selectBootstrap (nodes : List RpcNode) :
    LeavesError (Ipfs.selectBootstrap nodes : Hive σ (Int × Option (Bytes × Nat))) :=
  .bind (.call _) fun _ => leavesError_scanNodes _ _ _ _

end HiveSdk
