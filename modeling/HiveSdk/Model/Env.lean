import HiveSdk.Interaction.World
import HiveSdk.Model.Error
import HiveSdk.Model.Json

/-!
# The environment of the library

The program is everything under `src/`; its calls are the calls it makes to code that is not: the C library, curl, cJSON and the callbacks of the application. Heap and stack contents that the source reads without having written them are calls too, and so is undefined behaviour, which has no answer. A URL that does not fit its buffer is seen before the undefined behaviour that it is.
-/

namespace HiveSdk

open Interaction

/-! ### HTTP -/

inductive HttpMethod
  | get | post | put | delete
  deriving DecidableEq, Repr

/-- A status line carries three digits. -/
abbrev StatusCode := Fin 1000

instance StatusCode.neZero : NeZero 1000 := ⟨by decide⟩

namespace HttpStatus

def ok : StatusCode := 200
def created : StatusCode := 201
def noContent : StatusCode := 204
def unauthorized : StatusCode := 401
def notFound : StatusCode := 404

end HttpStatus

/-- A `CURLcode`; zero is `CURLE_OK`. -/
abbrev CurlCode := Fin 128

/-- A `CURLUcode`; zero is `CURLUE_OK`. -/
abbrev CurluCode := Fin 128

instance CurlCode.neZero : NeZero 128 := ⟨by decide⟩

namespace CurlE

def couldntConnect : CurlCode := 7
def remoteAccessDenied : CurlCode := 9
def writeError : CurlCode := 23
def operationTimedout : CurlCode := 28

end CurlE

def myDrive : Bytes := bytes "https://graph.microsoft.com/v1.0/me/drive"
def appRoot : Bytes := myDrive ++ bytes "/special/approot"
def filesDir : Bytes := bytes "/Files"
def keysDir : Bytes := bytes "/KeyValues"

/-- The text of a request URL, by the way the source comes by it: one of its own templates, or a string it was given. -/
inductive Url
  | appRootChildren
  | item (path suffix : Bytes)
  | node (host : Bytes) (port : Nat) (path : Bytes)
  | token (text : Bytes)
  | upload (text : Bytes)
  | download (text : Bytes)
  | nextLink (text : Bytes)
  deriving DecidableEq, Repr

def Url.text : Url → Bytes
  | .appRootChildren => appRoot ++ bytes "/children"
  | .item path suffix => appRoot ++ bytes ":" ++ path ++ suffix
  | .node host port path => bytes "http://" ++ host ++ bytes ":" ++ decimal port ++ path
  | .token text | .upload text | .download text | .nextLink text => text

/-- What a client has been told to send when `curl_easy_perform` is called. -/
structure Request where
  method : HttpMethod
  url : Url
  query : List (Bytes × Bytes) := []
  headers : List (Bytes × Bytes) := []
  body : Bytes := []
  mime : List (Bytes × Bytes) := []
  deriving DecidableEq, Repr

/-- How a transfer ends: the pieces of the body in the order they are delivered, the result of `curl_easy_perform` if the write callback takes every piece, the result of `curl_easy_getinfo`, and the status. -/
structure Reply where
  chunks : List Bytes
  code : CurlCode
  info : CurlCode
  status : StatusCode
  deriving DecidableEq, Repr

/-! ### Calls -/

structure Timeval where
  sec : Int
  usec : Int
  deriving DecidableEq, Repr

abbrev Errno := Fin 4096

instance Errno.neZero : NeZero 4096 := ⟨by decide⟩

namespace Errno

def EEXIST : Errno := 17
def ENOTDIR : Errno := 20
def ENOMEM : Errno := 12
def ERANGE : Errno := 34

end Errno

structure FileStat where
  isDir : Bool
  size : Nat
  deriving DecidableEq, Repr

inductive OpenMode
  | rdonly | wronlyTruncCreat | wronlyCreatExcl
  deriving DecidableEq, Repr

/-- The functions that create an HTTP client. -/
inductive Caller
  | getAuthorizeCode | redeemAccessToken | refreshAccessToken
  | putFileFromBuffer | getFileLength | getFileToBuffer | deleteFile | listFiles
  | testReachable | ipfsPutFileFromBuffer | ipfsGetFileLength | ipfsGetFileToBuffer
  deriving DecidableEq, Repr

/-- A connection of the redirect server: the request it has received, and where its body starts. -/
structure SbStream where
  recvBuf : Bytes
  dataIdx : Nat
  deriving DecidableEq, Repr

inductive SbEvent
  | connect
  | close
  | request (path : Bytes) (stream : SbStream)
  deriving DecidableEq, Repr

/-- The parts of a URL that are read back from curl. -/
inductive UrlPart
  | url | host | port | path
  deriving DecidableEq, Repr

/-- A block on the heap: what has been written to it, and how many more bytes it has. -/
structure HeapBlock where
  contents : Bytes
  spare : Nat
  deriving DecidableEq, Repr

inductive Event
  | gettimeofday
  | rand
  | alloc (size : Nat)
  | realloc (size : Nat)
  | strdup (s : Bytes)
  | heapAfter (block : HeapBlock)
  | stackAfter (buf : Bytes)
  | httpClientNew (caller : Caller)
  | escape (data : Bytes)
  | curlUrlGet (part : UrlPart)
  | perform (req : Request)
  | cjsonParse (text : Bytes)
  | cjsonPrint (json : Json)
  | cjsonCreate
  | stat (path : Bytes)
  | access (path : Bytes)
  | mkdir (path : Bytes)
  | openFile (path : Bytes) (mode : OpenMode)
  | lseekEnd (path : Bytes)
  | read (path : Bytes) (count : Nat)
  | write (path : Bytes) (data : Bytes)
  | unlink (path : Bytes)
  | sbNewServer (host port : Bytes)
  | pthreadCreate
  | sbPollServer
  | filesCallback (name : Option Bytes)
  | valuesCallback (key value : Bytes)
  | urlOverrun (text : Bytes)
  | diverge
  | undefined

/-- The answers. A Boolean answer says that the call succeeded, or what a callback returned. An error is the `errno` that the failing call leaves behind; after `pthread_create`, whose own code the source does not keep, that may be an old one. -/
@[reducible] def Event.Answer : Event → Type
  | .gettimeofday => Timeval
  | .rand => Nat
  | .alloc _ | .realloc _ | .strdup _ | .httpClientNew _ | .cjsonCreate => Bool
  | .heapAfter _ | .stackAfter _ => Bytes
  | .escape _ => Option Bytes
  | .curlUrlGet _ => Except CurluCode Bytes
  | .perform _ => Reply
  | .cjsonParse _ => Option Json
  | .cjsonPrint _ => Option Bytes
  | .stat _ => Except Errno FileStat
  | .access _ => Bool
  | .mkdir _ | .openFile _ _ | .unlink _ => Except Errno Unit
  | .lseekEnd _ => Int
  | .read _ _ => Except Errno Bytes
  | .write _ _ => Except Errno Nat
  | .sbNewServer _ _ => Bool
  | .pthreadCreate => Except Errno Unit
  | .sbPollServer => List (List SbEvent)
  | .filesCallback _ | .valuesCallback _ _ => Bool
  | .urlOverrun _ => Unit
  | .diverge | .undefined => Empty

abbrev Trace := List (Entry Event Event.Answer)

/-- The state of a thread inside the library: its `hive_error`, its `errno`, and the connect it works on. -/
structure Process (σ : Type) where
  hiveError : Int
  errno : Errno
  conn : σ
  deriving DecidableEq, Repr

/-- A function of the library that works on a connect of type `σ`. -/
abbrev Hive (σ : Type) := Proc Event Event.Answer (Process σ)

variable {σ : Type}

def hiveSetError (err : Int) : Hive σ Unit := modify fun p => { p with hiveError := err }

def hiveGetError : Hive σ Int := do return (← get).hiveError

def setErrno (e : Errno) : Hive σ Unit := modify fun p => { p with errno := e }

def getConn : Hive σ σ := do return (← get).conn

def setConn (conn : σ) : Hive σ Unit := modify fun p => { p with conn := conn }

/-- Undefined behaviour: the run has no continuation. -/
def undefinedBehaviour {α : Type} : Hive σ α := do
  let never ← call Event.undefined
  nomatch never

section
variable {τ α : Type} (W : World Event Event.Answer τ) (p : Process σ) (s : τ)

@[simp] theorem wp_hiveSetError (err : Int) (Q : Unit → Process σ → τ → Prop) :
    Proc.wp W (hiveSetError err) Q p s ↔ Q () { p with hiveError := err } s := Iff.rfl

@[simp] theorem wp_setErrno (e : Errno) (Q : Unit → Process σ → τ → Prop) :
    Proc.wp W (setErrno e) Q p s ↔ Q () { p with errno := e } s := Iff.rfl

@[simp] theorem wp_getConn (Q : σ → Process σ → τ → Prop) :
    Proc.wp W getConn Q p s ↔ Q p.conn p s := Iff.rfl

@[simp] theorem wp_setConn (conn : σ) (Q : Unit → Process σ → τ → Prop) :
    Proc.wp W (setConn conn) Q p s ↔ Q () { p with conn := conn } s := Iff.rfl

@[simp] theorem wp_undefinedBehaviour (Q : α → Process σ → τ → Prop) :
    Proc.wp W undefinedBehaviour Q p s ↔ W.pre s .undefined := by
  simp only [undefinedBehaviour, Proc.wp_bind, Proc.wp_call, and_iff_left_iff_imp]
  exact fun _ never => never.elim

end

end HiveSdk
