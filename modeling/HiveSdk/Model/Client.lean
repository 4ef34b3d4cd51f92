import HiveSdk.Model.Connect

/-!
# Connecting a client

`ipfs_client_connect`, which copies the node table and looks for a first node, and `hive_client_connect`, which picks the function of the backend.
-/

namespace HiveSdk

open Interaction

variable {σ : Type}

/-! ### `ipfs_client_connect` -/

structure IpfsNode where
  ipv4 : Option Bytes
  ipv6 : Option Bytes
  port : Option Bytes
  deriving DecidableEq, Repr

structure IpfsConnectOptions where
  backendType : BackendType
  rpcNodes : List IpfsNode
  deriving DecidableEq, Repr

inductive AddressFamily
  | inet | inet6
  deriving DecidableEq, Repr

/-- Whether `inet_pton` takes the text for an address of the family. -/
abbrev InetPton := AddressFamily → Bytes → Bool

namespace Ipfs

def hiveMaxIpv4AddressLen : Nat := 15
def hiveMaxIpv6AddressLen : Nat := 47

/-- An address that is given fits its buffer and is well formed. -/
def checkAddress (inetPton : InetPton) (family : AddressFamily) (size : Nat) (ip : Bytes) : Bool :=
  ip = [] ∨ ip.length < size ∧ inetPton family ip

/-- One round of the loop over the options. -/
def checkNode (inetPton : InetPton) (node : IpfsNode) : Option RpcNode := do
  let ipv4 := node.ipv4.getD []
  let ipv6 := node.ipv6.getD []
  if ipv4 = [] ∧ ipv6 = [] then none
  if !checkAddress inetPton .inet (hiveMaxIpv4AddressLen + 1) ipv4 then none
  if !checkAddress inetPton .inet6 (hiveMaxIpv6AddressLen + 1) ipv6 then none
  let text ← nonEmpty node.port
  let (port, rest) := strtol text
  if rest ≠ [] then none
  if port < 1 ∨ port > 65535 then none
  some ⟨ipv4, ipv6, port.toNat⟩

def sizeofConnect : Nat := 128
def sizeofRpc : Nat := 64
def sizeofRpcNode : Nat := 66

def rpcNew (nodes : List RpcNode) : Hive σ (Option IpfsConnect) := do
  if !(← call (Event.alloc (sizeofRpc + sizeofRpcNode * nodes.length))) then
    hiveSetError (cInt (hiveGeneralError HiveErr.outOfMemory))
    return none
  let (rc, selected) ← selectBootstrap nodes
  if rc < 0 then
    hiveSetError rc
    return none
  let (ip, port) := selected.getD ([], 0)
  return some ⟨ip, port, nodes⟩

end Ipfs

def ipfsClientConnect (inetPton : InetPton) (opts : IpfsConnectOptions) :
    Hive σ (Option IpfsConnect) := do
  -- no exit up to `ipfs_rpc_new` sets an error
  if opts.rpcNodes = [] then return none
  let some nodes := opts.rpcNodes.mapM (Ipfs.checkNode inetPton) | return none
  if !(← call (Event.alloc Ipfs.sizeofConnect)) then return none
  Ipfs.rpcNew nodes

/-! ### `hive_client_connect` -/

/-- The options of the backends, which begin with the type of the backend. -/
inductive HiveConnectOptions
  | ipfs (opts : IpfsConnectOptions)
  | oneDrive (opts : OneDriveConnectOptions)
  deriving DecidableEq, Repr

def HiveConnectOptions.backendType : HiveConnectOptions → BackendType
  | ipfs opts => opts.backendType
  | oneDrive opts => opts.backendType

/-- A connect of either backend. -/
inductive Connection
  | ipfs (conn : IpfsConnect)
  | oneDrive (conn : OneDriveConnect)

/-- `client` is the data location of the client. -/
def hiveClientConnect (inetPton : InetPton) (client : Option Bytes)
    (opts : Option HiveConnectOptions) : Hive σ (Option Connection) := do
  match client, opts with
  | some dataLocation, some opts =>
      match opts.backendType, opts with
      | .ipfs, .ipfs opts => return (← ipfsClientConnect inetPton opts).map .ipfs
      | .oneDrive, .oneDrive opts =>
          return (← onedriveClientConnect dataLocation opts).map .oneDrive
      -- the structure is not the one that its first member announces
      | .ipfs, .oneDrive _ | .oneDrive, .ipfs _ => undefinedBehaviour
      | .ownCloud, _ | .butt, _ => do
          hiveSetError notSupported
          return none
  | _, _ => do
      hiveSetError invalidArgs
      return none

end HiveSdk
