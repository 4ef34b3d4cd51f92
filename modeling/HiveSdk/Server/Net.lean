import HiveSdk.Interaction.Observe
import HiveSdk.Interaction.Preserves
import HiveSdk.Server.Request

/-!
# The network around the server

What the other side of a connection and the handler get to see of it, and the world in which the server runs: the kernel hands out descriptors that are free, and reports as ready only what it has been asked about. Everything else, memory included, may fail at any time. The preconditions of the world say when the server may touch a connection and when it may tell the handler about it.
-/

namespace HiveSdk

open Interaction

namespace Sb

/-! ### Connections from the outside -/

/-- What a response is made of: what the handler has written before its request and after it, and pieces of a file. -/
inductive Item
  | request
  | output (output : Output)
  | chunk (data : Bytes)
  deriving DecidableEq, Repr

structure Peer where
  /-- The handler has been told of the connection. -/
  announced : Bool
  /-- It has been told that the connection is closed. -/
  dismissed : Bool
  received : Bytes
  requests : List Notice
  items : List Item
  /-- What has come of the files that were opened for it: their sizes, where they are there. -/
  files : List (Option Nat)
  sent : Bytes
  deriving DecidableEq, Repr

namespace Peer

def new : Peer := ⟨false, false, [], [], [], [], []⟩

/-- The connection may be used. -/
def Served (p : Peer) : Prop := p.announced = true ∧ p.dismissed = false

/-- The handler may be given the notice. -/
def Awaits (p : Peer) : Notice → Prop
  | .connect => p.announced = false
  | .request .. => p.Served ∧ p.requests = []
  | .close => p.Served

/-- What the handler writes when the connection is closed comes too late for the response. -/
def notified (p : Peer) (notice : Notice) (outputs : List Output) : Peer where
  announced := true
  dismissed := p.dismissed || decide (notice = .close)
  received := p.received
  requests := match notice with
    | .request .. => p.requests ++ [notice]
    | _ => p.requests
  items := match notice with
    | .connect => p.items ++ outputs.map .output
    | .request .. => p.items ++ .request :: outputs.map .output
    | .close => p.items
  files := p.files
  sent := p.sent

def opened (p : Peer) (files : List (Option Nat)) : Peer := { p with files := p.files ++ files }

@[simp] theorem opened_nil (p : Peer) : p.opened [] = p := by
  rw [opened, List.append_nil]

@[simp] theorem opened_opened (p : Peer) (files files' : List (Option Nat)) :
    (p.opened files).opened files' = p.opened (files ++ files') := by
  simp [opened]

end Peer

structure Net where
  peers : Socket → Option Peer
  /-- The connections that have been closed. -/
  past : List Peer
  /-- There has not been enough memory. -/
  starved : Bool
  listening : Bool

namespace Net

def init : Net := ⟨fun _ => none, [], false, true⟩

/-- A connection as it is now, and whether memory has been short since. -/
def put (n : Net) (sock : Socket) (p : Peer) (short : Bool) : Net :=
  { n with peers := Function.update n.peers sock (some p), starved := n.starved || short }

def close (n : Net) (sock : Socket) (p : Peer) : Net :=
  { n with peers := Function.update n.peers sock none, past := n.past ++ [p] }

/-- The connections of a network, those that have been closed among them. -/
def Seen (n : Net) (p : Peer) : Prop := p ∈ n.past ∨ ∃ sock, n.peers sock = some p

variable {n : Net} {sock : Socket} {p q : Peer} {short short' : Bool}

@[simp] theorem put_self : (n.put sock p short).peers sock = some p := Function.update_self ..

theorem put_of_ne {sock' : Socket} (h : sock' ≠ sock) : (n.put sock p short).peers sock' = n.peers sock' :=
  Function.update_of_ne h ..

@[simp] theorem put_starved : (n.put sock p short).starved = (n.starved || short) := rfl

@[simp] theorem put_past : (n.put sock p short).past = n.past := rfl

@[simp] theorem put_listening : (n.put sock p short).listening = n.listening := rfl

@[simp] theorem put_put : (n.put sock p short).put sock q short' = n.put sock q (short || short') := by
  simp [put, Bool.or_assoc]

theorem put_eq_self (h : n.peers sock = some p) : n.put sock p false = n := by
  rw [put, ← h, Function.update_eq_self, Bool.or_false]

theorem close_of_ne {sock' : Socket} (h : sock' ≠ sock) : (n.close sock p).peers sock' = n.peers sock' :=
  Function.update_of_ne h ..

end Net

/-! ### The world -/

/-- The world of a server that listens on `l`. -/
def net (l : Socket) : World Call Call.Answer Net where
  pre n
    | .select reading writing => ∀ sock ∈ reading ++ writing, sock = l ∨ n.peers sock ≠ none
    | .recv sock => ∃ p, n.peers sock = some p ∧ p.Served ∧ p.requests = []
    | .send sock data => data ≠ [] ∧ ∃ p, n.peers sock = some p ∧ p.Served
    | .fopen sock _ => n.peers sock ≠ none
    | .fread sock _ => ∃ p, n.peers sock = some p ∧ p.Served
    | .handle sock notice => ∃ p, n.peers sock = some p ∧ p.Awaits notice
    | .close sock => if sock = l then n.listening = true ∧ ∀ other, n.peers other = none
        else ∃ p, n.peers sock = some p ∧ (p.announced = true → p.dismissed = true)
    | .backlog | .accept => n.listening = true
    | .diverge => n.starved = true ∨ ∃ sock p, n.peers sock = some p ∧ progress p.received = .hangs
    | .undefined => l ≥ FD_SETSIZE ∨ n.peers FD_SETSIZE ≠ none
    | _ => True
  step n e r n' := match e, r with
    | .realloc _, ok => n' = { n with starved := n.starved || !ok }
    | .select reading writing, ready => ready.1 ⊆ reading ∧ ready.2 ⊆ writing ∧ n' = n
    | .recv sock, input => ∃ p, n.peers sock = some p
        ∧ n' = n.put sock { p with received := p.received ++ input.1.flatten } false
    | .send sock data, .sent k => ∃ p, n.peers sock = some p ∧ k ≤ data.length
        ∧ n' = n.put sock { p with sent := p.sent ++ data.take k } false
    | .fopen sock _, file => ∃ p, n.peers sock = some p ∧ n' = n.put sock (p.opened [file]) false
    | .fread sock size, data => ∃ p, n.peers sock = some p
        ∧ n' = n.put sock { p with items := p.items ++ [.chunk (data.take size)] } false
    | .handle sock notice, reply => ∃ p, n.peers sock = some p
        ∧ n' = n.put sock (p.notified notice reply.outputs) false
    | .accept, sock => sock ≠ l ∧ n.peers sock = none ∧ n' = n.put sock .new false
    | .close sock, _ => if sock = l then n' = { n with listening := false }
        else ∃ p, n.peers sock = some p ∧ n' = n.close sock p
    | _, _ => n' = n

/-! ### Buffers -/

section
variable {S : Type} {l sock : Socket} {n : Net} {p : Peer} {short : Bool} {st : S} {b : Buffer}
  {Q : Int × Buffer → S → Net → Prop}

theorem wp_realloc {size : Nat} {Q : Bool → S → Net → Prop} (hok : Q true st (n.put sock p short))
    (hfail : Q false st (n.put sock p true)) :
    Proc.wp (net l) (call (Call.realloc size)) Q st (n.put sock p short) := by
  rw [Proc.wp_call]
  refine ⟨trivial, fun ok n' hstep => ?_⟩
  obtain rfl : n' = { n.put sock p short with starved := (n.starved || short) || !ok } := hstep
  cases ok with
  | true => simpa [Net.put] using hok
  | false => simpa [Net.put] using hfail

theorem wp_bufferPushChar {chr : UInt8}
    (hok : ∀ b' : Buffer, b'.data = b.data ++ [chr] → Q (SB_ESUCCESS, b') st (n.put sock p short))
    (hfail : Q (SB_EOUTOFMEM, b) st (n.put sock p true)) :
    Proc.wp (net l) (bufferPushChar b chr) Q st (n.put sock p short) := by
  rw [bufferPushChar]
  split
  · exact hok _ rfl
  · rw [Proc.wp_bind]
    apply wp_realloc
    · exact hok _ rfl
    · exact hfail

theorem wp_bufferPushLoop {text : Bytes}
    (hok : ∀ b' : Buffer, b'.data = b.data ++ text → Q (SB_ESUCCESS, b') st (n.put sock p short))
    (hfail : ∀ b', Q (SB_EOUTOFMEM, b') st (n.put sock p true)) :
    Proc.wp (net l) (bufferPushLoop b text) Q st (n.put sock p short) := by
  induction text generalizing b with
  | nil => exact hok b (List.append_nil _).symm
  | cons chr rest ih =>
      rw [bufferPushLoop, Proc.wp_bind]
      apply wp_bufferPushChar
      · intro b' hb'
        apply ih
        · intro b'' hb''
          exact hok b'' (by rw [hb'', hb', List.append_assoc, List.singleton_append])
      · exact hfail b

theorem wp_bufferPushStr {text : Bytes}
    (hok : ∀ b' : Buffer, b'.data = b.data ++ text → Q (SB_ESUCCESS, b') st (n.put sock p short))
    (hfail : ∀ b' : Buffer, b'.data = b.data → Q (SB_EOUTOFMEM, b') st (n.put sock p true)) :
    Proc.wp (net l) (bufferPushStr b text) Q st (n.put sock p short) := by
  rw [bufferPushStr, Proc.wp_bind]
  apply wp_bufferPushLoop
  · exact hok
  · exact fun b' => hfail _ rfl

theorem wp_bufferNullTerminate
    (hok : ∀ b' : Buffer, b'.data = b.data → Q (SB_ESUCCESS, b') st (n.put sock p short))
    (hfail : Q (SB_EOUTOFMEM, b) st (n.put sock p true)) :
    Proc.wp (net l) (bufferNullTerminate b) Q st (n.put sock p short) := by
  rw [bufferNullTerminate, Proc.wp_bind]
  apply wp_bufferPushChar
  · exact fun b' _ => hok _ rfl
  · exact hfail

theorem wp_bufferReserve {size : Nat}
    (hok : ∀ b' : Buffer, b'.data = b.data → Q (SB_ESUCCESS, b') st (n.put sock p short))
    (hfail : Q (SB_EOUTOFMEM, b) st (n.put sock p true)) :
    Proc.wp (net l) (bufferReserve b size) Q st (n.put sock p short) := by
  rw [bufferReserve]
  split
  · exact hok b rfl
  · rw [Proc.wp_bind]
    apply wp_realloc
    · exact hok _ rfl
    · exact hfail

end

end Sb

end HiveSdk
