import HiveSdk.Model.Api
import Mathlib.Data.List.Infix

/-!
# Connecting to OneDrive

`mkdirs.c`, the keystore file and `onedrive_client_connect`.
-/

namespace HiveSdk

open Interaction

variable {σ τ α : Type}

/-! ### Directories -/

def mkdirInternal (path : Bytes) : Hive σ Int := do
  match ← call (Event.stat path) with
  | .error e => do
      setErrno e
      match ← call (Event.mkdir path) with
      | .error e => do
          setErrno e
          -- another process may have made it
          return if e = Errno.EEXIST then 0 else -1
      | .ok () => return 0
  | .ok st =>
      if st.isDir then return 0
      setErrno Errno.ENOTDIR
      return -1

/-- The loop of `mkdirs`: `done` is the part of the path before the cursor, and `component` says that the cursor is inside a component. -/
def mkdirsLoop : (done : Bytes) → (component : Bool) → (rest : Bytes) → Hive σ Int
  | _, _, [] => return 0
  | done, component, c :: rest =>
      if c = slash then
        if component then do
          let rc ← mkdirInternal done
          if rc ≠ 0 then return rc else mkdirsLoop (done ++ [c]) false rest
        else mkdirsLoop (done ++ [c]) false rest
      else mkdirsLoop (done ++ [c]) true rest

def mkdirs (path : Bytes) : Hive σ Int := do
  let rc ← mkdirsLoop [] false (path.take (pathMax - 1))
  if rc ≠ 0 then return rc
  mkdirInternal path

/-! ### The keystore -/

def keystoreBufSize : Nat := 4096

/-- The C string in the buffer. A file that fills the buffer without a terminator lets the parser read on past it. -/
def keystoreText (data : Bytes) : Hive σ Bytes := do
  let buf := data ++ List.replicate (keystoreBufSize - data.length) (0 : UInt8)
  if 0 ∈ buf then return cString buf
  let rest ← call (Event.stackAfter buf)
  return cString (buf ++ rest)

def loadKeystoreInJson (path : Bytes) : Hive σ (Option Json) := do
  match ← call (Event.stat path) with
  | .error e => do
      setErrno e
      return none
  | .ok st => do
      if st.size = 0 ∨ st.size > keystoreBufSize then
        setErrno Errno.ERANGE
        return none
      match ← call (Event.openFile path .rdonly) with
      | .error e => do
          setErrno e
          return none
      | .ok () => do
          match ← call (Event.read path st.size) with
          | .error e => do
              setErrno e
              return none
          | .ok data => do
              if data.length ≠ st.size then return none
              let text ← keystoreText data
              let json ← call (Event.cjsonParse text)
              if json.isNone then setErrno Errno.ENOMEM
              return json

/-! ### `onedrive_client_connect` -/

inductive BackendType
  | ipfs | oneDrive | ownCloud | butt
  deriving DecidableEq, Repr

structure OneDriveConnectOptions where
  backendType : BackendType
  clientId : Option Bytes
  redirectUrl : Option Bytes
  scope : Option Bytes
  callback : Bool
  deriving DecidableEq, Repr

/-- The options after the checks. -/
structure CheckedOptions where
  clientId : Bytes
  redirectUrl : Bytes
  scope : Bytes
  deriving DecidableEq, Repr

def OneDriveConnectOptions.check (opts : OneDriveConnectOptions) : Option CheckedOptions := do
  let clientId ← nonEmpty opts.clientId
  let redirectUrl ← nonEmpty opts.redirectUrl
  let scope ← nonEmpty opts.scope
  if bytes "Files.ReadWrite.AppFolder" <:+: scope ∧ opts.callback
      ∧ opts.backendType = .oneDrive then
    some ⟨clientId, redirectUrl, scope⟩
  else none

/-- Run a function of a connect that is being set up. -/
def withConn (conn : τ) (m : Hive τ α) : Hive σ (α × τ) := fun p => do
  let (a, p') ← m ⟨p.hiveError, p.errno, conn⟩
  pure ((a, p'.conn), ⟨p'.hiveError, p'.errno, p.conn⟩)

def urlOauth : Bytes := bytes "https://login.microsoftonline.com/common/oauth2/v2.0/"

def oauthOptions (opts : CheckedOptions) (store : Option Json) : OAuthOptions where
  store := store
  authorizeUrl := urlOauth ++ bytes "authorize"
  tokenUrl := urlOauth ++ bytes "token"
  clientId := opts.clientId
  scope := opts.scope
  redirectUrl := opts.redirectUrl

def keystorePath (dataLocation : Bytes) : Bytes := dataLocation ++ bytes "/.data/onedrive.json"

/-- The keystore, when there is one: `none` if it is there and cannot be loaded. -/
def openKeystore (path : Bytes) : Hive σ (Option (Option Json)) := do
  if !(← call (Event.access path)) then return some none
  match ← loadKeystoreInJson path with
  | some json => return some (some json)
  | none => do
      hiveSetError (cInt (hiveSysError (← get).errno))
      return none

def onedriveClientConnect (dataLocation : Bytes) (opts : OneDriveConnectOptions) :
    Hive σ (Option OneDriveConnect) := do
  let some checked := opts.check | do
    hiveSetError invalidArgs
    return none
  if !(← call (Event.alloc pathMax)) then
    hiveSetError (cInt (hiveGeneralError HiveErr.outOfMemory))
    return none
  let path := keystorePath dataLocation
  if path.length ≥ pathMax then
    hiveSetError invalidArgs
    return none
  let rc ← mkdirs (dirname path)
  let errno := (← get).errno
  if rc < 0 ∧ errno ≠ Errno.EEXIST then
    hiveSetError (cInt (hiveSysError errno))
    return none
  let some keystore ← openKeystore path | return none
  let some token ← oauthTokenNew (oauthOptions checked keystore) | return none
  let (rc, connect) ← withConn ⟨token, path⟩ oauthTokenRequest
  if rc < 0 then return none
  return some connect

theorem wp_withConn {W : World Event Event.Answer τ} {σ' : Type} (conn : σ') (m : Hive σ' α)
    (p : Process σ) (s : τ) (Q : α × σ' → Process σ → τ → Prop) :
    Proc.wp W (withConn conn m) Q p s
      ↔ Proc.wp W m (fun a p' => Q (a, p'.conn) ⟨p'.hiveError, p'.errno, p.conn⟩)
          ⟨p.hiveError, p.errno, conn⟩ s :=
  Prog.wp_bind_iff (m _) _ _

end HiveSdk
