import HiveSdk.Model.OneDrive
import HiveSdk.Model.Ipfs

/-!
# The public functions on a connect

`hive_file.c` and `hive_key.c`: argument checks, the dispatch through the connect's table, and the translation of a negative result into `-1` and `hive_error`. A pointer argument that may be null is an `Option`.
-/

namespace HiveSdk

open Interaction

/-- The table of a connect; a function that the backend lacks is `none`. -/
structure HiveConnect (σ : Type) where
  putFileFromBuffer : Option (Bytes → Bytes → Hive σ Int) := none
  getFileLength : Option (Bytes → Hive σ Int) := none
  getFileToBuffer : Option (Bytes → Bytes → Nat → Hive σ (Int × Bytes)) := none
  listFiles : Option (Nat → Hive σ (Option Int)) := none
  deleteFile : Option (Bytes → Hive σ Int) := none
  ipfsPutFileFromBuffer : Option (Bytes → Hive σ (Int × Option Bytes)) := none
  ipfsGetFileLength : Option (Bytes → Hive σ Int) := none
  ipfsGetFileToBuffer : Option (Bytes → Bytes → Nat → Hive σ (Int × Bytes)) := none
  putValue : Option (Bytes → Bytes → Hive σ Int) := none
  setValue : Option (Bytes → Bytes → Hive σ Int) := none
  getValues : Option (Bytes → Hive σ Int) := none
  deleteKey : Option (Bytes → Hive σ Int) := none
  expireToken : Option (Hive σ Int) := none

/-- The function of the table, from its exits. -/
def lengthOf {σ : Type} (m : Hive σ Exit) : Hive σ Int := do return (← m).value

def bufferOf {σ : Type} (m : Hive σ (Exit × Bytes)) : Hive σ (Int × Bytes) := do
  let (exit, block) ← m
  return (exit.value, block)

def OneDrive.table : HiveConnect OneDriveConnect where
  putFileFromBuffer := some OneDrive.putFileFromBuffer
  getFileLength := some fun filename => lengthOf (OneDrive.getFileLength filename)
  getFileToBuffer := some fun filename block buflen =>
    bufferOf (OneDrive.getFileToBuffer filename block buflen)
  listFiles := some OneDrive.listFiles
  deleteFile := some OneDrive.deleteFile
  putValue := some OneDrive.putValue
  setValue := some OneDrive.setValue
  getValues := some OneDrive.getValues
  deleteKey := some OneDrive.deleteKey
  expireToken := some OneDrive.expireToken

def Ipfs.table : HiveConnect IpfsConnect where
  ipfsPutFileFromBuffer := some Ipfs.putFileFromBuffer
  ipfsGetFileLength := some fun cid => lengthOf (Ipfs.getFileLength cid)
  ipfsGetFileToBuffer := some fun cid block buflen =>
    bufferOf (Ipfs.getFileToBuffer cid block buflen)

variable {σ : Type}

/-- `hive_set_error` and `-1`. -/
def failWith (err : Int) : Hive σ Int := do
  hiveSetError err
  return -1

def invalidArgs : Int := cInt (hiveGeneralError HiveErr.invalidArgs)
def notSupported : Int := cInt (hiveGeneralError HiveErr.notSupported)

/-- The way every `int` function of the table is called. -/
def dispatch (f : Option (Hive σ Int)) : Hive σ Int := do
  let some f := f | failWith notSupported
  let rc ← f
  if rc < 0 then failWith rc else return 0

theorem wp_dispatch {τ : Type} {W : World Event Event.Answer τ} {f : Hive σ Int} {p : Process σ}
    {s : τ} {Q : Int → Process σ → τ → Prop}
    (h : Proc.wp W f (fun rc p' t =>
      if rc < 0 then Q (-1) { p' with hiveError := rc } t else Q 0 p' t) p s) :
    Proc.wp W (dispatch (some f)) Q p s := by
  rw [dispatch, Proc.wp_bind]
  refine Proc.wp_mono (fun rc p' t hQ => ?_) h
  by_cases hrc : rc < 0
  · rw [if_pos hrc] at hQ ⊢
    exact hQ
  · rw [if_neg hrc] at hQ ⊢
    exact hQ

/-- The way the functions of the table that return a length are called. -/
def dispatchLength (f : Option (Hive σ Int)) : Hive σ Int := do
  let some f := f | failWith notSupported
  let rc ← f
  if rc < 0 then failWith (cInt rc) else return rc

/-- The same for the functions that also fill a buffer. -/
def dispatchBuffer (f : Option (Hive σ (Int × Bytes))) (block : Bytes) : Hive σ (Int × Bytes) := do
  let some f := f | do return (← failWith notSupported, block)
  let (rc, block) ← f
  if rc < 0 then return (← failWith (cInt rc), block) else return (rc, block)

/-- The string that a pointer designates, when it is neither null nor empty. -/
def nonEmpty (s : Option Bytes) : Option Bytes := s.filter (· ≠ [])

/-! ### Files -/

def hivePutFileFromBuffer (connect : Option (HiveConnect σ)) (source : Option Bytes) (length : Nat)
    (filename : Option Bytes) : Hive σ Int := do
  match connect, nonEmpty filename with
  | some connect, some filename =>
      if (source.isNone ∧ length ≠ 0) ∨ length > hiveMaxFileSize then failWith invalidArgs
      else
        let content := (source.getD []).take length
        dispatch (connect.putFileFromBuffer.map fun f => f content filename)
  | _, _ => failWith invalidArgs

def hiveGetFileLength (connect : Option (HiveConnect σ)) (filename : Option Bytes) :
    Hive σ Int := do
  match connect, nonEmpty filename with
  | some connect, some filename => dispatchLength (connect.getFileLength.map (· filename))
  | _, _ => failWith invalidArgs

/-- `dst` is the memory that starts at the pointer, `buflen` bytes at least. -/
def hiveGetFileToBuffer (connect : Option (HiveConnect σ)) (filename dst : Option Bytes)
    (buflen : Nat) : Hive σ (Int × Bytes) := do
  match connect, nonEmpty filename, dst with
  | some connect, some filename, some block =>
      if buflen = 0 then return (← failWith invalidArgs, block)
      else dispatchBuffer (connect.getFileToBuffer.map fun f => f filename block buflen) block
  | _, _, _ => do return (← failWith invalidArgs, dst.getD [])

def hiveDeleteFile (connect : Option (HiveConnect σ)) (filename : Option Bytes) : Hive σ Int := do
  match connect, nonEmpty filename with
  | some connect, some filename => dispatch (connect.deleteFile.map (· filename))
  | _, _ => failWith invalidArgs

/-- The callback is the environment; `callback` says whether the pointer is set. -/
def hiveListFiles (connect : Option (HiveConnect σ)) (callback : Bool) (pages : Nat) :
    Hive σ (Option Int) := do
  match connect, callback with
  | some connect, true => do
      let some f := connect.listFiles | do return some (← failWith notSupported)
      let some rc ← f pages | return none
      if rc < 0 then return some (← failWith rc) else return some 0
  | _, _ => do return some (← failWith invalidArgs)

/-- Reading the local file for `hive_put_file` and `hive_ipfs_put_file`. -/
def readLocalFile (path : Bytes) : Hive σ (Option Bytes) := do
  match ← call (Event.openFile path .rdonly) with
  | .error e => do
      setErrno e
      hiveSetError (cInt (hiveSysError e))
      return none
  | .ok () => do
      let fsize := cSize (← call (Event.lseekEnd path))
      if fsize > hiveMaxFileSize then
        hiveSetError (cInt (hiveGeneralError HiveErr.limitExceeded))
        return none
      if !(← call (Event.alloc fsize)) then
        hiveSetError (cInt (hiveGeneralError HiveErr.outOfMemory))
        return none
      match ← call (Event.read path fsize) with
      | .error e => do
          setErrno e
          hiveSetError (cInt (hiveSysError e))
          return none
      | .ok data => do
          if data.length ≠ fsize then
            hiveSetError (cInt (hiveSysError (← get).errno))
            return none
          return some data

def hivePutFile (connect : Option (HiveConnect σ)) (source filename : Option Bytes) :
    Hive σ Int := do
  match connect, nonEmpty source, nonEmpty filename with
  | some connect, some source, some filename => do
      let some data ← readLocalFile source | return -1
      hivePutFileFromBuffer (some connect) (some data) data.length (some filename)
  | _, _, _ => failWith invalidArgs

/-- `unlink`, whose result the source does not look at. -/
def unlink (path : Bytes) : Hive σ Unit := do
  match ← call (Event.unlink path) with
  | .error e => setErrno e
  | .ok () => return

/-- `write` of the first bytes of a buffer, with the result `-1` when it fails. -/
def writeBuffer (dst block : Bytes) (fsize : Int) : Hive σ Int := do
  -- a length beyond the end of the buffer
  if fsize > block.length then undefinedBehaviour
  match ← call (Event.write dst (block.take fsize.toNat)) with
  | .error e => do
      setErrno e
      return -1
  | .ok n => return n

/-- What `hive_get_file` and `hive_ipfs_get_file` do alike once they know the length: `fetch` fills a buffer of the given size, and `clear` is what they do about a write that falls short. -/
def createAndFill (dst : Bytes) (fsize : Int) (fetch : Nat → Hive σ (Int × Bytes))
    (clear : Hive σ Unit) : Hive σ Int := do
  match ← call (Event.openFile dst .wronlyCreatExcl) with
  | .error e => do
      setErrno e
      failWith (cInt (hiveSysError e))
  | .ok () => do
      if fsize = 0 then return 0
      let size := cSize fsize
      if !(← call (Event.alloc size)) then
        failWith (cInt (hiveGeneralError HiveErr.outOfMemory))
      else
        let (fsize, block) ← fetch size
        if fsize < 0 then return -1
        let nwr ← writeBuffer dst block fsize
        if nwr ≠ fsize then
          clear
          return -1
        else return fsize

/-- The file that a short write leaves is looked for under the remote name. -/
def hiveGetFile (connect : Option (HiveConnect σ)) (filename dst : Option Bytes) : Hive σ Int := do
  match connect, nonEmpty filename, nonEmpty dst with
  | some connect, some filename, some dst => do
      let fsize ← hiveGetFileLength (some connect) (some filename)
      if fsize < 0 then return -1
      createAndFill dst fsize
        (fun size => hiveGetFileToBuffer (some connect) (some filename) (some (List.replicate size 0)) size)
        (do
          unlink filename
          hiveSetError (cInt (hiveSysError (← get).errno)))
  | _, _, _ => failWith invalidArgs

/-! ### IPFS files -/

/-- `cid` says whether the pointer is set. What is written there is the second result. -/
def hiveIpfsPutFileFromBuffer (connect : Option (HiveConnect σ)) (source : Option Bytes) (length : Nat)
    (cid : Bool) : Hive σ (Int × Option Bytes) := do
  match connect, cid with
  | some connect, true =>
      if (source.isNone ∧ length ≠ 0) ∨ length > hiveMaxFileSize then
        return (← failWith invalidArgs, none)
      else
        let some f := connect.ipfsPutFileFromBuffer | return (← failWith notSupported, none)
        let (rc, hash) ← f ((source.getD []).take length)
        if rc < 0 then return (← failWith rc, hash) else return (0, hash)
  | _, _ => return (← failWith invalidArgs, none)

def hiveIpfsPutFile (connect : Option (HiveConnect σ)) (source : Option Bytes) (cid : Bool) :
    Hive σ (Int × Option Bytes) := do
  match connect, nonEmpty source, cid with
  | some connect, some source, true => do
      let some data ← readLocalFile source | return (-1, none)
      hiveIpfsPutFileFromBuffer (some connect) (some data) data.length true
  | _, _, _ => return (← failWith invalidArgs, none)

def hiveIpfsGetFileLength (connect : Option (HiveConnect σ)) (cid : Option Bytes) :
    Hive σ Int := do
  match connect, nonEmpty cid with
  | some connect, some cid => dispatchLength (connect.ipfsGetFileLength.map (· cid))
  | _, _ => failWith invalidArgs

def hiveIpfsGetFileToBuffer (connect : Option (HiveConnect σ)) (cid dst : Option Bytes)
    (buflen : Nat) : Hive σ (Int × Bytes) := do
  match connect, nonEmpty cid, dst with
  | some connect, some cid, some block =>
      if buflen = 0 then return (← failWith invalidArgs, block)
      else dispatchBuffer (connect.ipfsGetFileToBuffer.map fun f => f cid block buflen) block
  | _, _, _ => do return (← failWith invalidArgs, dst.getD [])

/-- The function of the table is called directly, and a short write is cleared away where it was made. -/
def hiveIpfsGetFile (connect : Option (HiveConnect σ)) (cid dst : Option Bytes) : Hive σ Int := do
  match connect, nonEmpty cid, nonEmpty dst with
  | some connect, some cid, some dst => do
      let fsize ← hiveIpfsGetFileLength (some connect) (some cid)
      if fsize < 0 then return -1
      createAndFill dst fsize
        (fun size => do
          let some f := connect.ipfsGetFileToBuffer | undefinedBehaviour
          let (fsize, block) ← f cid (List.replicate size 0) size
          if fsize < 0 then hiveSetError (cInt fsize)
          return (fsize, block))
        (do
          hiveSetError (cInt (hiveSysError (← get).errno))
          unlink dst)
  | _, _, _ => failWith invalidArgs

/-! ### Keys -/

/-- The check that `hive_put_value` and `hive_set_value` make of their value. -/
def checkedValue (value : Option Bytes) (length : Nat) : Option Bytes := do
  let value ← value
  if length = 0 ∨ length > hiveMaxValueLen then none else some (value.take length)

def hivePutValue (connect : Option (HiveConnect σ)) (key value : Option Bytes) (length : Nat) :
    Hive σ Int := do
  match connect, nonEmpty key, checkedValue value length with
  | some connect, some key, some value => dispatch (connect.putValue.map fun f => f key value)
  | _, _, _ => failWith invalidArgs

def hiveSetValue (connect : Option (HiveConnect σ)) (key value : Option Bytes) (length : Nat) :
    Hive σ Int := do
  match connect, nonEmpty key, checkedValue value length with
  | some connect, some key, some value => dispatch (connect.setValue.map fun f => f key value)
  | _, _, _ => failWith invalidArgs

def hiveGetValues (connect : Option (HiveConnect σ)) (key : Option Bytes) (callback : Bool) :
    Hive σ Int := do
  match connect, nonEmpty key, callback with
  | some connect, some key, true => dispatch (connect.getValues.map (· key))
  | _, _, _ => failWith invalidArgs

def hiveDeleteKey (connect : Option (HiveConnect σ)) (key : Option Bytes) : Hive σ Int := do
  match connect, nonEmpty key with
  | some connect, some key => dispatch (connect.deleteKey.map (· key))
  | _, _ => failWith invalidArgs

def hiveSetAccessTokenExpired (connect : Option (HiveConnect σ)) : Hive σ Int := do
  match connect with
  | some connect => if connect.expireToken.isNone then return 0 else dispatch connect.expireToken
  | none => failWith invalidArgs

end HiveSdk
