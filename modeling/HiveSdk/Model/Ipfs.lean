import HiveSdk.Model.HttpClient

/-!
# The IPFS backend

`ipfs_rpc.c`, which keeps one reachable node selected, and the operations of `ipfs.c` on it.
-/

namespace HiveSdk

open Interaction

structure RpcNode where
  ipv4 : Bytes
  ipv6 : Bytes
  port : Nat
  deriving DecidableEq, Repr

/-- The connect with its `ipfs_rpc`. No node is selected when `currentNodeIp` is empty. -/
structure IpfsConnect where
  currentNodeIp : Bytes
  currentNodePort : Nat
  rpcNodes : List RpcNode
  deriving DecidableEq, Repr

namespace Ipfs

def maxPathLen : Nat := 4096
def maxCidLen : Nat := 64

/-! ### Node selection -/

def testReachable {σ : Type} (ipaddr : Bytes) (port : Nat) : Hive σ Int := do
  let url := Url.node ipaddr port (bytes "/version")
  if url.text.length ≥ maxPathLen + 1 then return cInt (hiveGeneralError HiveErr.bufferTooSmall)
  if !(← call (Event.httpClientNew .testReachable)) then
    return cInt (hiveGeneralError HiveErr.outOfMemory)
  let (rc, reply) ← httpClientRequest { method := .post, url := url }
  if rc ≠ 0 then return cInt (hiveCurlError rc)
  if reply.info ≠ 0 then return cInt (hiveCurlError reply.info)
  if reply.status ≠ HttpStatus.ok then return cInt (hiveHttpStatusError reply.status)
  return 0

/-- One address of a node: an empty one is skipped. -/
def tryAddress {σ : Type} (ip : Bytes) (port : Nat) : Hive σ Bool := do
  if ip = [] then return false
  let rc ← testReachable ip port
  return rc = 0

/-- The scan from node `i`. `steps` bounds the passes of the loop, which ends at `base`. -/
def scanNodes {σ : Type} (nodes : List RpcNode) (base : Nat) :
    (steps i : Nat) → Hive σ (Int × Option (Bytes × Nat))
  | 0, _ => do
      let never ← call Event.diverge
      nomatch never
  | steps + 1, i => do
      let some node := nodes[i]? | undefinedBehaviour
      if ← tryAddress node.ipv4 node.port then return (0, some (node.ipv4, node.port))
      if ← tryAddress node.ipv6 node.port then return (0, some (node.ipv6, node.port))
      let i := (i + 1) % nodes.length
      if i ≠ base then scanNodes nodes base steps i
      else return (cInt (hiveGeneralError HiveErr.badBootstrapHost), none)

def selectBootstrap {σ : Type} (nodes : List RpcNode) : Hive σ (Int × Option (Bytes × Nat)) := do
  let base := (← call Event.rand) % nodes.length
  scanNodes nodes base nodes.length base

def checkReachable : Hive IpfsConnect Int := do
  let conn ← getConn
  if conn.currentNodeIp ≠ [] then return 0
  let (rc, selected) ← selectBootstrap conn.rpcNodes
  match selected with
  | some (ip, port) => do
      setConn { conn with currentNodeIp := ip, currentNodePort := port }
      return rc
  | none => return rc

def markNodeUnreachable : Hive IpfsConnect Unit := do
  let conn ← getConn
  setConn { conn with currentNodeIp := [] }

/-- `RC_NODE_UNREACHABLE`. -/
def nodeUnreachable (rc : CurlCode) : Bool :=
  rc = CurlE.couldntConnect ∨ rc = CurlE.remoteAccessDenied ∨ rc = CurlE.operationTimedout

/-- The error of a transfer that failed, as an `int`. -/
def requestError (rc : CurlCode) : Hive IpfsConnect Int := do
  if nodeUnreachable rc then
    markNodeUnreachable
    return cInt (hiveGeneralError HiveErr.tryAgain)
  return cInt (hiveCurlError rc)

/-! ### Operations -/

/-- The API URL of the selected node. -/
def apiUrl (path : Bytes) : Hive IpfsConnect Url := do
  let conn ← getConn
  return .node conn.currentNodeIp conn.currentNodePort path

def putFileFromBuffer (content : Bytes) : Hive IpfsConnect (Int × Option Bytes) := do
  let rc ← checkReachable
  if rc < 0 then return (rc, none)
  let url ← apiUrl (bytes "/api/v0/add")
  if !(← call (Event.httpClientNew .ipfsPutFileFromBuffer)) then
    return (cInt (hiveGeneralError HiveErr.outOfMemory), none)
  let mime := [(bytes "file", content)]
  let (rc, reply, response) ← httpClientRequestBody { method := .post, url := url, mime := mime }
  if rc ≠ 0 then return (← requestError rc, none)
  if reply.info ≠ 0 then return (cInt (hiveCurlError reply.info), none)
  if reply.status ≠ HttpStatus.ok then return (cInt (hiveHttpStatusError reply.status), none)
  let some body ← httpClientMoveResponseBody response false
    | return (cInt (hiveGeneralError HiveErr.outOfMemory), none)
  let some json ← cjsonParse body | return (cInt (hiveGeneralError HiveErr.outOfMemory), none)
  let some hash := json.stringItem (bytes "Hash")
    | return (cInt (hiveGeneralError HiveErr.badJsonFormat), none)
  if hash.length ≥ maxCidLen + 1 then
    return (cInt (hiveGeneralError HiveErr.badJsonFormat), none)
  return (0, some hash)

/-- The size of the object `cid` in an answer to `file/ls`. -/
def lsSize (json : Json) (cid : Bytes) : Option Int := do
  let objects ← (json.getObjectItemCaseSensitive (bytes "Objects")).filter (·.isObject)
  let object ← (objects.getObjectItemCaseSensitive cid).filter (·.isObject)
  object.sizeItem (bytes "Size")

def getFileLength (cid : Bytes) : Hive IpfsConnect Exit := do
  let rc ← checkReachable
  if rc < 0 then return .int rc
  let url ← apiUrl (bytes "/api/v0/file/ls")
  if !(← call (Event.httpClientNew .ipfsGetFileLength)) then
    return .code (hiveGeneralError HiveErr.outOfMemory)
  let query := [(bytes "arg", cid)]
  let (rc, reply, response) ← httpClientRequestBody { method := .post, url := url, query := query }
  if rc ≠ 0 then return .int (← requestError rc)
  if reply.info ≠ 0 then return .int (cInt (hiveCurlError reply.info))
  if reply.status ≠ HttpStatus.ok then return .int (cInt (hiveHttpStatusError reply.status))
  let some body ← httpClientMoveResponseBody response false
    | return .code (hiveGeneralError HiveErr.outOfMemory)
  let some json ← cjsonParse body | return .code (hiveGeneralError HiveErr.outOfMemory)
  let some fsize := lsSize json cid | return .code (hiveGeneralError HiveErr.badJsonFormat)
  return .length fsize

/-- `get_response_body_cb` over the pieces: the block, the bytes stored, and whether every piece was taken. -/
def storeBounded (bufsz : Nat) : Bytes → Nat → List Bytes → Bytes × Nat × Bool
  | block, actual, [] => (block, actual, true)
  | block, actual, chunk :: chunks =>
      if cSize (actual + chunk.length) > bufsz then
        -- the callback reports zero bytes, which only an empty piece survives
        if chunk = [] then storeBounded bufsz block actual chunks else (block, actual, false)
      else storeBounded bufsz
        (block.take actual ++ chunk ++ block.drop (actual + chunk.length))
        (cSize (actual + chunk.length)) chunks

def getFileToBuffer (cid block : Bytes) (buflen : Nat) : Hive IpfsConnect (Exit × Bytes) := do
  let fsize := (← getFileLength cid).value
  if fsize ≤ 0 then return (if fsize < 0 then .int fsize else .length fsize, block)
  if cSsize buflen > 0 ∧ fsize > cSsize buflen then
    return (.code (hiveGeneralError HiveErr.bufferTooSmall), block)
  let rc ← checkReachable
  if rc < 0 then return (.int rc, block)
  let url ← apiUrl (bytes "/api/v0/cat")
  if !(← call (Event.httpClientNew .ipfsGetFileToBuffer)) then
    return (.code (hiveGeneralError HiveErr.outOfMemory), block)
  let query := [(bytes "arg", cid)]
  let (rc, reply) ← httpClientRequest { method := .post, url := url, query := query }
  let (block, actual, taken) := storeBounded buflen block 0 reply.chunks
  let rc := if taken then rc else CurlE.writeError
  if rc ≠ 0 then return (.int (← requestError rc), block)
  if reply.info ≠ 0 then return (.code (hiveCurlError reply.info), block)
  if reply.status ≠ HttpStatus.ok then return (.code (hiveHttpStatusError reply.status), block)
  if cSize fsize ≠ actual then
    return (.code (hiveGeneralError HiveErr.badPersistentData), block)
  return (.length fsize, block)

end Ipfs

end HiveSdk
