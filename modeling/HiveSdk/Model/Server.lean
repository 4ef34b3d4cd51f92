import HiveSdk.Model.Sandbird

/-!
# The redirect server

The HTTP server in which the redirect of the login ends: its buffers, its connections, and one round of its loop. Memory, sockets, files, the clock and the handler are its environment. The handler is called with a connection and writes the response; what it writes is part of its answer.
-/

namespace HiveSdk

open Interaction

namespace Sb

/-! ### Results -/

def SB_ESUCCESS : Int := 0
def SB_EOUTOFMEM : Int := -2
def SB_EBADSTATE : Int := -4
def SB_EBADRESULT : Int := -5
def SB_ECANTOPEN : Int := -6
def SB_EFDTOOBIG : Int := -8

/-- The results of a handler. -/
def SB_RES_OK : Int := 0
def SB_RES_CLOSE : Int := 1

abbrev Socket := Nat

def FD_SETSIZE : Nat := 1024

/-! ### Connections -/

/-- The bytes that are in use, and how many there is room for. -/
structure Buffer where
  data : Bytes
  cap : Nat
  fits : data.length ≤ cap
  deriving DecidableEq, Repr

namespace Buffer

def init : Buffer := ⟨[], 0, le_rfl⟩

def shift (b : Buffer) (n : Nat) : Buffer where
  data := b.data.drop n
  cap := b.cap
  fits := by
    have h := b.fits
    rw [List.length_drop]
    omega

@[simp] theorem shift_data (b : Buffer) (n : Nat) : (b.shift n).data = b.data.drop n := rfl

/-- The buffer with `n` bytes of room, if it had less. -/
def grow (b : Buffer) (n : Nat) : Buffer := ⟨b.data, max b.cap n, le_max_of_le_left b.fits⟩

@[simp] theorem grow_data (b : Buffer) (n : Nat) : (b.grow n).data = b.data := rfl

/-- The buffer with other contents; what does not fit is left out. -/
def fill (b : Buffer) (data : Bytes) : Buffer := ⟨data.take b.cap, b.cap, List.length_take_le _ _⟩

@[simp] theorem fill_data (b : Buffer) (data : Bytes) : (b.fill data).data = data.take b.cap := rfl

end Buffer

inductive State
  | receivingHeader | receivingRequest | sendingStatus | sendingHeader | sendingData | sendingFile | closing
  deriving DecidableEq, Repr

/-- The states are compared by their place in the enumeration. -/
def State.code : State → Nat
  | receivingHeader => 0
  | receivingRequest => 1
  | sendingStatus => 2
  | sendingHeader => 3
  | sendingData => 4
  | sendingFile => 5
  | closing => 6

structure Stream where
  state : State
  initTime : Int
  lastActivity : Int
  expectedRecvLen : Nat
  dataIdx : Nat
  sockfd : Socket
  recvBuf : Buffer
  sendBuf : Buffer
  /-- A file is being sent. -/
  sendFp : Bool
  deriving DecidableEq, Repr

structure Server where
  /-- The connection that was accepted last comes first. -/
  streams : List Stream
  sockfd : Socket
  now : Int
  timeout : Int
  maxLifetime : Int
  maxRequestSize : Nat
  deriving DecidableEq, Repr

/-! ### The environment -/

/-- What the handler is called for. -/
inductive Notice
  | connect
  | close
  | request (method path : Bytes) (stream : SbStream)
  deriving DecidableEq, Repr

/-- The functions by which a handler writes the response. -/
inductive Output
  | sendStatus (code : Int) (msg : Bytes)
  | sendHeader (field val : Bytes)
  | sendFile (filename : Bytes)
  | write (data : Bytes)
  deriving DecidableEq, Repr

structure HandlerReply where
  outputs : List Output
  result : Int
  deriving DecidableEq, Repr

/-- Why there is nothing more to receive: nothing has come in yet, or the connection is at its end or has failed. -/
inductive RecvEnd
  | wouldBlock | disconnected
  deriving DecidableEq, Repr

inductive SendReply
  | sent (n : Nat)
  | wouldBlock | failed
  deriving DecidableEq, Repr

inductive Call
  | malloc
  | realloc (size : Nat)
  | select (reading writing : List Socket)
  | time
  /-- All calls of `recv` until one of them returns nothing. -/
  | recv (sock : Socket)
  | send (sock : Socket) (data : Bytes)
  /-- With the size of the file, when it can be opened. -/
  | fopen (sock : Socket) (filename : Bytes)
  | fread (sock : Socket) (size : Nat)
  | fclose
  /-- How many calls of `accept` will succeed. -/
  | backlog
  | accept
  | close (sock : Socket)
  | handle (sock : Socket) (notice : Notice)
  | diverge
  | undefined
  deriving DecidableEq, Repr

@[reducible] def Call.Answer : Call → Type
  | .malloc | .realloc _ => Bool
  | .select _ _ => List Socket × List Socket
  | .time => Int
  | .recv _ => List Bytes × RecvEnd
  | .send _ _ => SendReply
  | .fopen _ _ => Option Nat
  | .fread _ _ => Bytes
  | .fclose | .close _ => Unit
  | .backlog => Nat
  | .accept => Socket
  | .handle _ _ => HandlerReply
  | .diverge | .undefined => Empty

/-- A function that works on one connection. -/
abbrev Conn := Proc Call Call.Answer Stream

def setState (state : State) : Conn Unit := modify fun st => { st with state := state }

def setRecvBuf (b : Buffer) : Conn Unit := modify fun st => { st with recvBuf := b }

def setSendBuf (b : Buffer) : Conn Unit := modify fun st => { st with sendBuf := b }

/-! ### Buffers -/

section
variable {S : Type}

def bufferReserve (b : Buffer) (n : Nat) : Proc Call Call.Answer S (Int × Buffer) := do
  if b.cap ≥ n then return (SB_ESUCCESS, b)
  if !(← call (Call.realloc n)) then return (SB_EOUTOFMEM, b)
  return (SB_ESUCCESS, b.grow n)

/-- The room of a full buffer is doubled. -/
def bufferPushChar (b : Buffer) (chr : UInt8) : Proc Call Call.Answer S (Int × Buffer) := do
  if h : b.data.length < b.cap then
    return (SB_ESUCCESS, ⟨b.data ++ [chr], b.cap, by rwa [List.length_append]⟩)
  else
    let size := b.cap * 2 + (if b.cap = 0 then 1 else 0)
    if !(← call (Call.realloc size)) then return (SB_EOUTOFMEM, b)
    return (SB_ESUCCESS, ⟨b.data ++ [chr], size, by
      have h := b.fits
      simp only [List.length_append, List.length_singleton, size]
      split <;> omega⟩)

def bufferPushLoop (b : Buffer) : Bytes → Proc Call Call.Answer S (Int × Buffer)
  | [] => return (SB_ESUCCESS, b)
  | chr :: rest => do
      let (err, b) ← bufferPushChar b chr
      if err ≠ SB_ESUCCESS then return (err, b)
      bufferPushLoop b rest

/-- The contents are those from before when the buffer cannot be made large enough. -/
def bufferPushStr (b : Buffer) (text : Bytes) : Proc Call Call.Answer S (Int × Buffer) := do
  let (err, pushed) ← bufferPushLoop b text
  if err ≠ SB_ESUCCESS then return (err, ⟨b.data, max b.cap pushed.cap, le_max_of_le_left b.fits⟩)
  return (SB_ESUCCESS, pushed)

/-- Room for the terminator; it does not become a part of the contents. -/
def bufferNullTerminate (b : Buffer) : Proc Call Call.Answer S (Int × Buffer) := do
  let (err, pushed) ← bufferPushChar b 0
  if err ≠ SB_ESUCCESS then return (err, b)
  return (SB_ESUCCESS, ⟨b.data, max b.cap pushed.cap, le_max_of_le_left b.fits⟩)

end

/-! ### Reading a request -/

/-- Where the value of a header begins. The search does not end at a carriage return without a line feed. -/
inductive HeaderValue
  | found (value : Bytes)
  | absent
  | hangs
  deriving DecidableEq, Repr

/-- The beginning of the next line, if there is one. -/
def nextLine (str : Bytes) : Bytes :=
  let rest := str.dropWhile (· ≠ 13)
  if (bytes "\r\n").isPrefixOf rest then rest.drop 2 else rest

/-- The line has this field. -/
def isField (field str : Bytes) : Bool :=
  (field.map tolower).isPrefixOf (str.map tolower) ∧ str[field.length]? = some 58

/-- A search that goes on leaves fewer bytes each time, so it never needs more steps than there are bytes. -/
def findHeaderLoop (field : Bytes) : (room : Nat) → Bytes → HeaderValue
  | 0, _ => .absent
  | room + 1, str =>
      if str = [] ∨ (bytes "\r\n").isPrefixOf str then .absent
      else if isField field str then
        .found ((str.drop (field.length + 1)).dropWhile fun c => c = 32 ∨ c = 9)
      else if (nextLine str).length < str.length then findHeaderLoop field room (nextLine str)
      else .hangs

def findHeaderValue (field str : Bytes) : HeaderValue := findHeaderLoop field str.length str

/-- `sscanf` with `%u` into an `unsigned int`, and 0 for what is no number. -/
def strToUint (str : Bytes) : Nat :=
  let body := str.dropWhile isSpace
  let negative := body.head? = some 45
  let digits := if negative ∨ body.head? = some 43 then body.tail else body
  let number := digits.takeWhile HiveSdk.isDigit
  let value : Nat := number.foldl (fun n c => 10 * n + (c.toNat - 48)) 0
  let long := if value ≥ 2 ^ 64 then 2 ^ 64 - 1 else if negative then (2 ^ 64 - value) % 2 ^ 64 else value
  long % 2 ^ 32

/-- One `%15s`: the word, and what follows it. -/
def scanWord (str : Bytes) : Option (Bytes × Bytes) :=
  let body := str.dropWhile isSpace
  let word := (body.takeWhile fun c => ¬ isSpace c).take 15
  if word = [] then none else some (word, body.drop word.length)

structure RequestLine where
  method : Bytes
  /-- The request from its path on. -/
  target : Bytes
  ver : Bytes
  deriving DecidableEq, Repr

/-- `sscanf` with `%15s %n%*s %15s`. -/
def scanRequestLine (str : Bytes) : Option RequestLine := do
  let (method, rest) ← scanWord str
  let target := rest.dropWhile isSpace
  let skipped := target.takeWhile fun c => ¬ isSpace c
  if skipped = [] then none
  let (ver, _) ← scanWord (target.drop skipped.length)
  some ⟨method, target, ver⟩

def pathSize : Nat := 512

/-! ### Writing the response -/

/-- `%d`. -/
def signedDecimal (n : Int) : Bytes := if n < 0 then bytes "-" ++ decimal n.natAbs else decimal n.natAbs

def statusLine (code : Int) (msg : Bytes) : Bytes :=
  bytes "HTTP/1.1 " ++ signedDecimal code ++ bytes " " ++ msg ++ bytes "\r\n"

def headerLine (field val : Bytes) : Bytes := field ++ bytes ": " ++ val ++ bytes "\r\n"

def pushSend (text : Bytes) : Conn Int := do
  let (err, b) ← bufferPushStr (← get).sendBuf text
  setSendBuf b
  return err

def sendStatus (code : Int) (msg : Bytes) : Conn Int := do
  if (← get).state ≠ .sendingStatus then return SB_EBADSTATE
  let err ← pushSend (statusLine code msg)
  if err ≠ SB_ESUCCESS then return err
  setState .sendingHeader
  return SB_ESUCCESS

def sendHeader (field val : Bytes) : Conn Int := do
  if (← get).state.code > State.sendingHeader.code then return SB_EBADSTATE
  if (← get).state.code < State.sendingHeader.code then
    let err ← sendStatus 200 (bytes "OK")
    if err ≠ SB_ESUCCESS then return err
  pushSend (headerLine field val)

def finalizeHeader : Conn Int := do
  if (← get).state.code < State.sendingHeader.code then
    let err ← sendStatus 200 (bytes "OK")
    if err ≠ SB_ESUCCESS then return err
  let err ← pushSend (bytes "\r\n")
  if err ≠ SB_ESUCCESS then return err
  setState .sendingData
  return SB_ESUCCESS

/-- The size of the file is cut to an `unsigned`. -/
def sendFile (filename : Bytes) : Conn Int := do
  if (← get).state.code > State.sendingHeader.code then return SB_EBADSTATE
  match ← call (Call.fopen (← get).sockfd filename) with
  | none => return SB_ECANTOPEN
  | some size => do
      let err ← sendHeader (bytes "Content-Length") (decimal (size % 2 ^ 32))
      if err ≠ SB_ESUCCESS then
        call Call.fclose
        return err
      let err ← finalizeHeader
      if err ≠ SB_ESUCCESS then
        call Call.fclose
        return err
      modify fun st => { st with sendFp := true, state := .sendingFile }
      return SB_ESUCCESS

def write (data : Bytes) : Conn Int := do
  if (← get).state.code < State.sendingData.code then
    let err ← finalizeHeader
    if err ≠ SB_ESUCCESS then return err
  if (← get).state ≠ .sendingData then return SB_EBADSTATE
  pushSend data

def Output.run : Output → Conn Int
  | .sendStatus code msg => Sb.sendStatus code msg
  | .sendHeader field val => Sb.sendHeader field val
  | .sendFile filename => Sb.sendFile filename
  | .write data => Sb.write data

def runOutputs : List Output → Conn Unit
  | [] => return ()
  | output :: outputs => do
      let _ ← output.run
      runOutputs outputs

/-! ### One connection -/

def streamNew (now : Int) (sockfd : Socket) : Stream where
  state := .receivingHeader
  initTime := now
  lastActivity := now
  expectedRecvLen := 0
  dataIdx := 0
  sockfd := sockfd
  recvBuf := .init
  sendBuf := .init
  sendFp := false

def streamClose : Conn Unit := setState .closing

def streamEmit (notice : Notice) : Conn Int := do
  let reply ← call (Call.handle (← get).sockfd notice)
  runOutputs reply.outputs
  if reply.result < 0 then return reply.result
  if reply.result = SB_RES_CLOSE then
    streamClose
    return SB_ESUCCESS
  return if reply.result = SB_RES_OK then SB_ESUCCESS else SB_EBADRESULT

def streamDestroy : Conn Unit := do
  let _ ← streamEmit .close
  call (Call.close (← get).sockfd)
  if (← get).sendFp then call Call.fclose

def nullTerminateRecv : Conn Int := do
  let (err, b) ← bufferNullTerminate (← get).recvBuf
  setRecvBuf b
  return err

def handleRequest : Conn Int := do
  setState .sendingStatus
  let err ← nullTerminateRecv
  if err ≠ SB_ESUCCESS then return err
  let st ← get
  match scanRequestLine (cString st.recvBuf.data) with
  | none => do
      streamClose
      return SB_ESUCCESS
  | some line =>
      if ¬ (bytes "HTTP").isPrefixOf line.ver then
        streamClose
        return SB_ESUCCESS
      else
        let path := cString (urlDecode (List.replicate pathSize 0) line.target).1
        streamEmit (.request line.method path ⟨st.recvBuf.data, st.dataIdx⟩)

/-- One byte that has been received. When it is the last one that is needed, or there is no memory for it, there is a result. -/
def recvChar (chr : UInt8) : Conn (Option Int) := do
  let (err, b) ← bufferPushChar (← get).recvBuf chr
  setRecvBuf b
  if err ≠ SB_ESUCCESS then return some err
  if (← get).state = .receivingHeader ∧ bytes "\r\n\r\n" <:+ (← get).recvBuf.data then
    setState .receivingRequest
    let err ← nullTerminateRecv
    if err ≠ SB_ESUCCESS then return some err
    match findHeaderValue (bytes "Content-Length") (cString (← get).recvBuf.data) with
    | .hangs => do
        let never ← call Call.diverge
        nomatch never
    | .absent => return some (← handleRequest)
    | .found value =>
        modify fun st => { st with
          expectedRecvLen := st.recvBuf.data.length + strToUint value
          dataIdx := st.recvBuf.data.length }
  if (← get).expectedRecvLen = (← get).recvBuf.data.length then return some (← handleRequest)
  return none

def recvPiece : Bytes → Conn (Option Int)
  | [] => return none
  | chr :: rest => do
      match ← recvChar chr with
      | some err => return some err
      | none => recvPiece rest

def recvPieces (now : Int) (ending : RecvEnd) : List Bytes → Conn Int
  | [] => do
      if ending ≠ .wouldBlock then streamClose
      return SB_ESUCCESS
  | piece :: pieces => do
      modify fun st => { st with lastActivity := now }
      match ← recvPiece piece with
      | some err => return err
      | none => recvPieces now ending pieces

def streamRecv (now : Int) : Conn Int := do
  let (pieces, ending) ← call (Call.recv (← get).sockfd)
  recvPieces now ending pieces

def sendData (now : Int) : Conn Int := do
  match ← call (Call.send (← get).sockfd (← get).sendBuf.data) with
  | .sent n => do
      modify fun st => { st with sendBuf := st.sendBuf.shift n, lastActivity := now }
      return SB_ESUCCESS
  | .wouldBlock => return SB_ESUCCESS
  | .failed => do
      streamClose
      return SB_ESUCCESS

def fileChunk : Nat := 8192

def streamSend (now : Int) : Conn Int := do
  if (← get).sendBuf.data ≠ [] then sendData now
  else if (← get).sendFp then
    let (err, b) ← bufferReserve (← get).sendBuf fileChunk
    setSendBuf b
    if err ≠ SB_ESUCCESS then return err
    let data ← call (Call.fread (← get).sockfd b.cap)
    setSendBuf (b.fill data)
    if (b.fill data).data ≠ [] then sendData now
    else
      call Call.fclose
      modify fun st => { st with sendFp := false }
      return SB_ESUCCESS
  else
    streamClose
    return SB_ESUCCESS

/-! ### The server -/

abbrev Serving := Proc Call Call.Answer Server

def withStream {α : Type} (st : Stream) (m : Conn α) : Serving (α × Stream) := fun srv => do
  let x ← m st
  pure (x, srv)

/-- The connection has been idle for too long, or has existed for too long, or has received too much. -/
def overdue (srv : Server) (st : Stream) : Bool :=
  (srv.timeout ≠ 0 ∧ srv.now - st.lastActivity > srv.timeout / 1000)
    ∨ (srv.maxLifetime ≠ 0 ∧ srv.now - st.initTime > srv.maxLifetime / 1000)
    ∨ (srv.maxRequestSize ≠ 0 ∧ st.recvBuf.data.length ≥ srv.maxRequestSize)

/-- What a round does with one connection before it is found out whether it is to be destroyed. -/
def pollStream (srv : Server) (readable writable : List Socket) : Conn Int := do
  if (← get).sockfd ∈ readable then
    let err ← streamRecv srv.now
    if err ≠ SB_ESUCCESS then return err
  if (← get).sockfd ∈ writable then
    let err ← streamSend srv.now
    if err ≠ SB_ESUCCESS then return err
  if overdue srv (← get) then streamClose
  return SB_ESUCCESS

/-- After an error the rest of the connections has to wait for the next round. -/
def pollStreams (readable writable : List Socket) : List Stream → Serving (Int × List Stream)
  | [] => return (SB_ESUCCESS, [])
  | st :: rest => do
      let (err, st) ← withStream st (pollStream (← get) readable writable)
      if err ≠ SB_ESUCCESS then return (err, st :: rest)
      if st.state = .closing then
        let _ ← withStream st streamDestroy
        pollStreams readable writable rest
      else
        let (err, rest) ← pollStreams readable writable rest
        return (err, st :: rest)

def setStreams (streams : List Stream) : Serving Unit := modify fun srv => { srv with streams := streams }

/-- The descriptor that equals `FD_SETSIZE` is let through. -/
def acceptStreams : Nat → Serving Int
  | 0 => return SB_ESUCCESS
  | n + 1 => do
      let sockfd ← call Call.accept
      if sockfd > FD_SETSIZE then
        call (Call.close sockfd)
        return SB_EFDTOOBIG
      if !(← call Call.malloc) then
        call (Call.close sockfd)
        return SB_EOUTOFMEM
      let (err, st) ← withStream (streamNew (← get).now sockfd) (streamEmit .connect)
      setStreams (st :: (← get).streams)
      if err ≠ SB_ESUCCESS then return err
      acceptStreams n

def isSending (st : Stream) : Bool := st.state.code ≥ State.sendingStatus.code

/-- `FD_SET` is undefined for a descriptor that is too large. -/
def selectStreams : Serving (List Socket × List Socket) := do
  let srv ← get
  let reading := srv.sockfd :: (srv.streams.filter fun st => ¬ isSending st).map (·.sockfd)
  let writing := (srv.streams.filter isSending).map (·.sockfd)
  if ∃ sockfd ∈ reading ++ writing, sockfd ≥ FD_SETSIZE then
    let never ← call Call.undefined
    nomatch never
  call (Call.select reading writing)

def pollServer : Serving Int := do
  let (readable, writable) ← selectStreams
  let now ← call Call.time
  modify fun srv => { srv with now := now }
  let (err, streams) ← pollStreams readable writable (← get).streams
  setStreams streams
  if err ≠ SB_ESUCCESS then return err
  if (← get).sockfd ∈ readable then acceptStreams (← call Call.backlog) else return SB_ESUCCESS

/-- Round after round, whatever they return. -/
def pollRounds : Nat → Serving Unit
  | 0 => return ()
  | n + 1 => do
      let _ ← pollServer
      pollRounds n

def destroyStreams : List Stream → Serving Unit
  | [] => return ()
  | st :: rest => do
      let _ ← withStream st streamDestroy
      destroyStreams rest

def closeServer : Serving Unit := do
  destroyStreams (← get).streams
  setStreams []
  call (Call.close (← get).sockfd)

end Sb

end HiveSdk
