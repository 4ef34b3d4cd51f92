import HiveSdk.Server.Net
import Mathlib.Order.BooleanAlgebra.Basic

/-!
# Responses

What the handler writes goes to the other side in order: one status line, then header lines, a blank line, and the body. A call that comes at the wrong time is refused and does nothing, one that comes in time does all it is for, and one that runs out of memory leaves the stages behind that it had come to, so what is in the buffer is always the beginning of a response.
-/

namespace HiveSdk

open Interaction

namespace Sb

/-! ### The responses there are -/

inductive Response
  | none
  | head (code : Int) (msg : Bytes) (headers : List (Bytes × Bytes))
  | full (code : Int) (msg : Bytes) (headers : List (Bytes × Bytes)) (body : Bytes)
  deriving DecidableEq, Repr

namespace Response

def headText (code : Int) (msg : Bytes) (headers : List (Bytes × Bytes)) : Bytes :=
  statusLine code msg ++ (headers.map fun header => headerLine header.1 header.2).flatten

def text : Response → Bytes
  | none => []
  | head code msg headers => headText code msg headers
  | full code msg headers body => headText code msg headers ++ bytes "\r\n" ++ body

def withStatus (code : Int) (msg : Bytes) : Response → Response
  | none => head code msg []
  | r => r

/-- The status line that is written when the handler has written none. -/
def begun : Response → Response := withStatus 200 (bytes "OK")

def withHeader (field val : Bytes) : Response → Response
  | head code msg headers => head code msg (headers ++ [(field, val)])
  | r => r

def ended : Response → Response
  | head code msg headers => full code msg headers []
  | r => r

def append (data : Bytes) : Response → Response
  | full code msg headers body => full code msg headers (body ++ data)
  | r => r

def after (r : Response) (stages : List (Response → Response)) : Response := stages.foldl (fun r f => f r) r

@[simp] theorem after_nil (r : Response) : r.after [] = r := rfl

theorem after_append (r : Response) (stages stages' : List (Response → Response)) :
    r.after (stages ++ stages') = (r.after stages).after stages' := List.foldl_append ..

/-- The states of a connection with this response. -/
def Matches : Response → State → Prop
  | none, state => state ∉ [.sendingHeader, .sendingData, .sendingFile]
  | head .., state => state = .sendingHeader ∨ state = .closing
  | full .., state => state = .sendingData ∨ state = .sendingFile ∨ state = .closing

def IsFull : Response → Prop
  | full .. => True
  | _ => False

theorem Matches.closing (r : Response) : r.Matches .closing := by
  cases r <;> simp [Matches]

end Response

/-- What a function of the handler does to the response, in stages. -/
def Output.stages (size : Nat) : Output → List (Response → Response)
  | .sendStatus code msg => [.withStatus code msg]
  | .sendHeader field val => [.begun, .withHeader field val]
  | .sendFile _ => [.begun, .withHeader contentLength (decimal (size % 2 ^ 32)), .begun, .ended]
  | .write data => [.begun, .ended, .append data]

/-- The states in which the function is not refused. -/
def Output.Timely (state : State) : Output → Prop
  | .sendStatus _ _ => state = .sendingStatus
  | .sendHeader _ _ | .sendFile _ => state = .sendingStatus ∨ state = .sendingHeader
  | .write _ => state = .sendingStatus ∨ state = .sendingHeader ∨ state = .sendingData

/-- The state that the function leads to. -/
def Output.next : Output → State
  | .sendStatus _ _ | .sendHeader _ _ => .sendingHeader
  | .sendFile _ => .sendingFile
  | .write _ => .sendingData

/-- The file that the function opens before it looks whether it has come too early. -/
def Output.opens (state : State) (file : Option Nat) : Output → List (Option Nat)
  | .sendFile _ => if state.code > State.sendingHeader.code then [] else [file]
  | _ => []

/-- What a function of the handler makes of a connection in this state with this response, and what comes of the files it opens. At the wrong time it does nothing, nor without the file it is to send; otherwise all stages are carried out. Only where there has not been enough memory it may get stuck on the way. -/
inductive Output.Does (starved : Bool) (o : Output) (state : State) (r : Response) :
    List (Option Nat) → State → Response → Prop
  | refused (hlate : ¬ o.Timely state) (file : Option Nat) : Does starved o state r (o.opens state file) state r
  | missing {filename : Bytes} (ho : o = .sendFile filename) : Does starved o state r (o.opens state none) state r
  | done (htimely : o.Timely state) (size : Nat) :
      Does starved o state r (o.opens state (some size)) o.next (r.after (o.stages size))
  | stuck (hstarved : starved = true) (size : Nat) {done rest : List (Response → Response)} (state' : State)
      (hstages : o.stages size = done ++ rest) : Does starved o state r (o.opens state (some size)) state' (r.after done)

/-- What the handler makes of a connection with one function after another. -/
inductive Writes (starved : Bool) : State → Response → List Output → List (Option Nat) → State → Response → Prop
  | nil (state : State) (r : Response) : Writes starved state r [] [] state r
  | cons {state state' state'' : State} {r r' r'' : Response} {o : Output} {outputs : List Output}
      {files files' : List (Option Nat)} (h : o.Does starved state r files state' r')
      (hrest : Writes starved state' r' outputs files' state'' r'') :
      Writes starved state r (o :: outputs) (files ++ files') state'' r''

/-- The response that these items make, in the state that the handler has left. Before the request has come in nothing can be written. -/
inductive Composed (starved : Bool) : List Item → List (Option Nat) → State → Response → Prop
  | nil : Composed starved [] [] .receivingHeader .none
  | request {items : List Item} {files : List (Option Nat)} {state : State} {r : Response}
      (h : Composed starved items files state r) : Composed starved (items ++ [.request]) files .sendingStatus r
  | output {items : List Item} {files files' : List (Option Nat)} {state state' : State} {r r' : Response} {o : Output}
      (h : Composed starved items files state r) (hdoes : o.Does starved state r files' state' r') :
      Composed starved (items ++ [.output o]) (files ++ files') state' r'
  | chunk {items : List Item} {files : List (Option Nat)} {state : State} {r : Response} (data : Bytes)
      (h : Composed starved items files state r) : Composed starved (items ++ [.chunk data]) files state (r.append data)

section
variable {starved starved' : Bool} {items : List Item} {outputs : List Output} {files files' : List (Option Nat)}
  {state state' : State} {r r' : Response}

theorem Output.Does.mono {o : Output} (h : o.Does starved state r files state' r') (hle : starved ≤ starved') :
    o.Does starved' state r files state' r' := by
  cases h with
  | refused hlate file => exact .refused hlate file
  | missing ho => exact .missing ho
  | done htimely size => exact .done htimely size
  | stuck hstarved size _ hstages => exact .stuck (Bool.eq_true_of_true_le (hstarved ▸ hle)) size _ hstages

theorem Writes.mono (h : Writes starved state r outputs files state' r') (hle : starved ≤ starved') :
    Writes starved' state r outputs files state' r' := by
  induction h with
  | nil state r => exact .nil state r
  | cons h _ ih => exact .cons (h.mono hle) ih

theorem Composed.mono (h : Composed starved items files state r) (hle : starved ≤ starved') :
    Composed starved' items files state r := by
  induction h with
  | nil => exact .nil
  | request _ ih => exact .request ih
  | output _ hdoes ih => exact .output ih (hdoes.mono hle)
  | chunk data _ ih => exact .chunk data ih

theorem Composed.writes (h : Composed starved items files state r) (hwrites : Writes starved state r outputs files' state' r') :
    Composed starved (items ++ outputs.map .output) (files ++ files') state' r' := by
  induction hwrites generalizing items files with
  | nil state r => simpa using h
  | cons hdoes _ ih =>
      have hall := ih (.output h hdoes)
      rwa [List.append_assoc, List.append_assoc] at hall

end

/-! ### Writing -/

theorem badState_ne : SB_EBADSTATE ≠ SB_ESUCCESS := by decide

theorem outOfMemory_ne : SB_EOUTOFMEM ≠ SB_ESUCCESS := by decide

/-- The connection holds a response of which a part is sent. -/
structure Stream.Holds (st : Stream) (sent : Bytes) (r : Response) : Prop where
  text : sent ++ st.sendBuf.data = r.text
  state : r.Matches st.state
  file : st.sendFp = true → r.IsFull

/-- Nothing has happened to the request, and a connection that is receiving goes on with it. -/
structure Stream.Frame (st st' : Stream) : Prop where
  recvBuf : st'.recvBuf = st.recvBuf
  dataIdx : st'.dataIdx = st.dataIdx
  expectedRecvLen : st'.expectedRecvLen = st.expectedRecvLen
  sockfd : st'.sockfd = st.sockfd
  lastActivity : st'.lastActivity = st.lastActivity
  initTime : st'.initTime = st.initTime
  receiving : isSending st = false → st'.state = st.state
  sending : isSending st = true → isSending st' = true

namespace Stream.Frame

variable {st st' st'' : Stream}

theorem refl (st : Stream) : st.Frame st := ⟨rfl, rfl, rfl, rfl, rfl, rfl, fun _ => rfl, fun h => h⟩

theorem isSending_eq (h : st.Frame st') : isSending st' = isSending st := by
  cases hsending : isSending st with
  | true => exact h.sending hsending
  | false => rw [isSending, h.receiving hsending, ← hsending, isSending]

theorem trans (h : st.Frame st') (h' : st'.Frame st'') : st.Frame st'' where
  recvBuf := h'.recvBuf.trans h.recvBuf
  dataIdx := h'.dataIdx.trans h.dataIdx
  expectedRecvLen := h'.expectedRecvLen.trans h.expectedRecvLen
  sockfd := h'.sockfd.trans h.sockfd
  lastActivity := h'.lastActivity.trans h.lastActivity
  initTime := h'.initTime.trans h.initTime
  receiving := fun hst => (h'.receiving (h.isSending_eq.trans hst)).trans (h.receiving hst)
  sending := fun hst => h'.sending (h.sending hst)

end Stream.Frame

/-- Of these stages the first ones have been carried out, and all of them unless memory has been short. -/
structure Carried (sent : Bytes) (r : Response) (stages : List (Response → Response)) (state : State)
    (st st' : Stream) (short : Bool) (err : Int) : Prop where
  frame : st.Frame st'
  starved : err ≠ SB_ESUCCESS → short = true
  result : ∃ done rest, stages = done ++ rest ∧ st'.Holds sent (r.after done)
    ∧ (err = SB_ESUCCESS → rest = [] ∧ st'.state = state)

section
variable {l sock : Socket} {n : Net} {p : Peer} {short : Bool} {st st' : Stream} {sent : Bytes}
  {r : Response} {stages stages' : List (Response → Response)} {state state' : State} {err : Int}
  {Q : Int → Stream → Net → Prop}

theorem Carried.fails (h : Carried sent r stages state st st' short err) (herr : err ≠ SB_ESUCCESS) :
    Carried sent r stages state' st st' short err := by
  obtain ⟨hframe, hstarved, done, rest, hstages, hholds, -⟩ := h
  exact ⟨hframe, hstarved, done, rest, hstages, hholds, fun hzero => absurd hzero herr⟩

/-- The stages of a function that has failed are the first ones of a longer list. -/
theorem Carried.widen (h : Carried sent r stages state st st' short err) (herr : err ≠ SB_ESUCCESS) :
    Carried sent r (stages ++ stages') state' st st' short err := by
  obtain ⟨hframe, hstarved, done, rest, rfl, hholds, -⟩ := h
  exact ⟨hframe, hstarved, done, rest ++ stages', List.append_assoc .., hholds, fun hzero => absurd hzero herr⟩

/-- One function after another. -/
theorem Carried.bind {st₁ : Stream} {short₁ : Bool} (h : Carried sent r stages state st st₁ short₁ SB_ESUCCESS)
    (h' : Carried sent (r.after stages) stages' state' st₁ st' short err) :
    Carried sent r (stages ++ stages') state' st st' short err := by
  obtain ⟨hframe, -, done, rest, rfl, hholds, hzero⟩ := h
  obtain ⟨rfl, -⟩ := hzero rfl
  obtain ⟨hframe', hstarved, done', rest', rfl, hholds', hzero'⟩ := h'
  refine ⟨hframe.trans hframe', hstarved, done ++ [] ++ done', rest', (List.append_assoc ..).symm, ?_, hzero'⟩
  rwa [Response.after_append]

theorem Carried.holds (h : Carried sent r stages state st st' short SB_ESUCCESS) : st'.Holds sent (r.after stages) := by
  obtain ⟨-, -, done, rest, rfl, hholds, hzero⟩ := h
  obtain ⟨rfl, -⟩ := hzero rfl
  rwa [List.append_nil]

theorem Carried.state_eq (h : Carried sent r stages state st st' short SB_ESUCCESS) : st'.state = state := by
  obtain ⟨-, -, done, rest, -, -, hzero⟩ := h
  exact (hzero rfl).2

theorem wp_pushSend {text : Bytes}
    (hok : ∀ b : Buffer, b.data = st.sendBuf.data ++ text →
      Q SB_ESUCCESS { st with sendBuf := b } (n.put sock p short))
    (hfail : ∀ b : Buffer, b.data = st.sendBuf.data →
      Q SB_EOUTOFMEM { st with sendBuf := b } (n.put sock p true)) :
    Proc.wp (net l) (pushSend text) Q st (n.put sock p short) := by
  simp only [pushSend, Proc.wp_bind, Proc.wp_get]
  apply wp_bufferPushStr
  · exact hok
  · exact hfail

/-- A stage that only appends to the buffer. -/
theorem wp_pushSend_stage {text : Bytes} {f : Response → Response} (h : st.Holds sent r)
    (htext : (f r).text = r.text ++ text) (hmatches : (f r).Matches st.state)
    (hfull : r.IsFull → (f r).IsFull)
    (hQ : ∀ err st' short', short ≤ short' → Carried sent r [f] st.state st st' short' err →
      Q err st' (n.put sock p short')) :
    Proc.wp (net l) (pushSend text) Q st (n.put sock p short) := by
  have hframe : ∀ b : Buffer, st.Frame { st with sendBuf := b } := fun b =>
    ⟨rfl, rfl, rfl, rfl, rfl, rfl, fun _ => rfl, fun hst => hst⟩
  apply wp_pushSend
  · intro b hb
    have hholds : Stream.Holds { st with sendBuf := b } sent (f r) := by
      refine ⟨?_, hmatches, fun hfile => hfull (h.file hfile)⟩
      rw [hb, htext, ← h.text, List.append_assoc]
    exact hQ _ _ _ le_rfl ⟨hframe b, fun hne => absurd rfl hne, [f], [], rfl, hholds, fun _ => ⟨rfl, rfl⟩⟩
  · intro b hb
    have hholds : Stream.Holds { st with sendBuf := b } sent r := ⟨by rw [hb]; exact h.text, h.state, h.file⟩
    exact hQ _ _ _ (Bool.le_true _) ⟨hframe b, fun _ => rfl, [], [f], rfl, hholds, fun hzero => absurd hzero outOfMemory_ne⟩

theorem eq_none_of_sendingStatus (h : st.Holds sent r) (hstate : st.state = .sendingStatus) : r = .none := by
  have hmatches := h.state
  rw [hstate] at hmatches
  cases r with
  | none => rfl
  | head code msg headers => simp [Response.Matches] at hmatches
  | full code msg headers body => simp [Response.Matches] at hmatches

theorem eq_head_of_sendingHeader (h : st.Holds sent r) (hstate : st.state = .sendingHeader) :
    ∃ code msg headers, r = .head code msg headers := by
  have hmatches := h.state
  rw [hstate] at hmatches
  cases r with
  | none => simp [Response.Matches] at hmatches
  | head code msg headers => exact ⟨code, msg, headers, rfl⟩
  | full code msg headers body => simp [Response.Matches] at hmatches

theorem eq_full_of_sendingData (h : st.Holds sent r) (hstate : st.state = .sendingData) :
    ∃ code msg headers body, r = .full code msg headers body := by
  have hmatches := h.state
  rw [hstate] at hmatches
  cases r with
  | none => simp [Response.Matches] at hmatches
  | head code msg headers => simp [Response.Matches] at hmatches
  | full code msg headers body => exact ⟨code, msg, headers, body, rfl⟩

/-- A connection that is receiving goes on with it, whatever state is meant for later. -/
theorem frame_setState {b : Buffer} (hst : isSending st = true) (hstate : state.code ≥ State.sendingStatus.code) :
    st.Frame { st with sendBuf := b, state := state } :=
  ⟨rfl, rfl, rfl, rfl, rfl, rfl, fun hnot => absurd (hst.symm.trans hnot) (by decide),
    fun _ => by simpa [isSending] using hstate⟩

theorem wp_sendStatus {code : Int} {msg : Bytes} (h : st.Holds sent r) (hstate : st.state = .sendingStatus)
    (hQ : ∀ err st' short', short ≤ short' → Carried sent r [.withStatus code msg] .sendingHeader st st' short' err →
      Q err st' (n.put sock p short')) :
    Proc.wp (net l) (sendStatus code msg) Q st (n.put sock p short) := by
  simp only [sendStatus, Proc.wp_bind, Proc.wp_get]
  rw [if_neg (by simp [hstate]), Proc.wp_bind]
  obtain rfl := eq_none_of_sendingStatus h hstate
  have hsending : isSending st = true := by simp [isSending, hstate, State.code]
  apply wp_pushSend
  · intro b hb
    have hholds : Stream.Holds { st with sendBuf := b, state := .sendingHeader } sent (.head code msg []) := by
      refine ⟨?_, .inl rfl, fun hfile => (h.file hfile).elim⟩
      rw [hb, ← List.append_assoc, h.text]
      simp [Response.text, Response.headText]
    exact hQ _ _ _ le_rfl ⟨frame_setState hsending (by decide), fun hne => absurd rfl hne, [.withStatus code msg], [], rfl,
      hholds, fun _ => ⟨rfl, rfl⟩⟩
  · intro b hb
    have hholds : Stream.Holds { st with sendBuf := b } sent .none := ⟨by rw [hb]; exact h.text, h.state, h.file⟩
    have hframe : st.Frame { st with sendBuf := b } := ⟨rfl, rfl, rfl, rfl, rfl, rfl, fun _ => rfl, fun hst => hst⟩
    exact hQ _ _ _ (Bool.le_true _) ⟨hframe, fun _ => rfl, [], [.withStatus code msg], rfl, hholds,
      fun hzero => absurd hzero outOfMemory_ne⟩

/-- The status line that is written before anything else. -/
theorem wp_begun {m : Conn Int} (h : st.Holds sent r) (hstate : st.state = .sendingStatus ∨ st.state = .sendingHeader)
    (hfail : ∀ err st' short', short ≤ short' → err ≠ SB_ESUCCESS → Carried sent r [.begun] .sendingHeader st st' short' err →
      Q err st' (n.put sock p short'))
    (hok : ∀ st' short', short ≤ short' → Carried sent r [.begun] .sendingHeader st st' short' SB_ESUCCESS →
      Proc.wp (net l) m Q st' (n.put sock p short')) :
    Proc.wp (net l) (do
      if (← get).state.code < State.sendingHeader.code then
        let err ← sendStatus 200 (bytes "OK")
        if err ≠ SB_ESUCCESS then return err
      m) Q st (n.put sock p short) := by
  simp only [Proc.wp_bind, Proc.wp_get]
  rcases hstate with hstate | hheader
  · rw [if_pos (by rw [hstate]; decide), Proc.wp_bind]
    apply wp_sendStatus h hstate
    intro err st' short' hshort hcarried
    by_cases herr : err = SB_ESUCCESS
    · subst herr
      rw [if_neg (by simp)]
      exact hok st' short' hshort hcarried
    · rw [if_pos herr]
      exact hfail err st' short' hshort herr hcarried
  · rw [if_neg (by rw [hheader]; decide)]
    obtain ⟨code, msg, headers, rfl⟩ := eq_head_of_sendingHeader h hheader
    exact hok st short le_rfl ⟨.refl st, fun hne => absurd rfl hne, [.begun], [], rfl, h, fun _ => ⟨rfl, hheader⟩⟩

theorem not_late_of_begun (hstate : st.state = .sendingStatus ∨ st.state = .sendingHeader) :
    ¬ st.state.code > State.sendingHeader.code := by
  rcases hstate with hstate | hstate <;> rw [hstate] <;> decide

theorem wp_sendHeader {field val : Bytes} (h : st.Holds sent r)
    (hstate : st.state = .sendingStatus ∨ st.state = .sendingHeader)
    (hQ : ∀ err st' short', short ≤ short' →
      Carried sent r [.begun, .withHeader field val] .sendingHeader st st' short' err → Q err st' (n.put sock p short')) :
    Proc.wp (net l) (sendHeader field val) Q st (n.put sock p short) := by
  rw [sendHeader]
  simp only [Proc.wp_bind, Proc.wp_get]
  rw [if_neg (not_late_of_begun hstate)]
  apply wp_begun h hstate
  · intro err st' short' hshort herr hcarried
    exact hQ err st' short' hshort (hcarried.widen herr)
  · intro st' short' hshort hcarried
    obtain ⟨code, msg, headers, hhead⟩ := eq_head_of_sendingHeader hcarried.holds hcarried.state_eq
    have hholds := hcarried.holds
    rw [hhead] at hholds
    apply wp_pushSend_stage hholds (f := .withHeader field val)
    · simp [Response.withHeader, Response.text, Response.headText]
    · exact .inl hcarried.state_eq
    · exact fun hfull => hfull
    · intro err st'' short'' hshort' hcarried'
      rw [hcarried.state_eq, ← hhead] at hcarried'
      exact hQ err st'' short'' (hshort.trans hshort') (hcarried.bind hcarried')

theorem wp_finalizeHeader (h : st.Holds sent r) (hstate : st.state = .sendingStatus ∨ st.state = .sendingHeader)
    (hQ : ∀ err st' short', short ≤ short' → Carried sent r [.begun, .ended] .sendingData st st' short' err →
      Q err st' (n.put sock p short')) :
    Proc.wp (net l) finalizeHeader Q st (n.put sock p short) := by
  rw [finalizeHeader]
  apply wp_begun h hstate
  · intro err st' short' hshort herr hcarried
    exact hQ err st' short' hshort (hcarried.widen herr)
  · intro st' short' hshort hcarried
    obtain ⟨code, msg, headers, hhead⟩ := eq_head_of_sendingHeader hcarried.holds hcarried.state_eq
    have hsending : isSending st' = true := by simp [isSending, hcarried.state_eq, State.code]
    have hholds := hcarried.holds
    rw [hhead] at hholds
    rw [Proc.wp_bind]
    apply wp_pushSend
    · intro b hb
      have hended : Stream.Holds { st' with sendBuf := b, state := .sendingData } sent (.full code msg headers []) := by
        refine ⟨?_, .inl rfl, fun _ => trivial⟩
        rw [hb, ← List.append_assoc, hholds.text]
        simp [Response.text]
      have hstage : Carried sent (r.after [.begun]) [.ended] .sendingData st' _ short' SB_ESUCCESS :=
        ⟨frame_setState hsending (by decide), fun hne => absurd rfl hne, [.ended], [], rfl, by rw [hhead]; exact hended,
          fun _ => ⟨rfl, rfl⟩⟩
      exact hQ _ _ _ hshort (hcarried.bind hstage)
    · intro b hb
      have hsame : Stream.Holds { st' with sendBuf := b } sent (r.after [.begun]) := by
        rw [hhead]
        exact ⟨by rw [hb]; exact hholds.text, hholds.state, hholds.file⟩
      have hframe : st'.Frame { st' with sendBuf := b } := ⟨rfl, rfl, rfl, rfl, rfl, rfl, fun _ => rfl, fun hst => hst⟩
      have hstage : Carried sent (r.after [.begun]) [.ended] .sendingData st' { st' with sendBuf := b } true SB_EOUTOFMEM :=
        ⟨hframe, fun _ => rfl, [], [.ended], rfl, hsame, fun hzero => absurd hzero outOfMemory_ne⟩
      exact hQ _ _ _ (Bool.le_true _) (hcarried.bind hstage)

theorem wp_fopen {filename : Bytes} {Q : Option Nat → Stream → Net → Prop}
    (h : ∀ file, Q file st (n.put sock (p.opened [file]) short)) :
    Proc.wp (net l) (call (Call.fopen sock filename)) Q st (n.put sock p short) := by
  rw [Proc.wp_call]
  refine ⟨by simp [net], fun file n' hstep => ?_⟩
  obtain ⟨q, hq, rfl⟩ := hstep
  obtain rfl := Option.some.inj (Net.put_self.symm.trans hq)
  rw [Net.put_put, Bool.or_false]
  exact h file

theorem wp_fclose {Q : Unit → Stream → Net → Prop} (h : Q () st n) : Proc.wp (net l) (call Call.fclose) Q st n := by
  rw [Proc.wp_call]
  refine ⟨trivial, fun reply n' hstep => ?_⟩
  rw [show n' = n from hstep]
  exact h

/-- The file is closed again when it cannot be sent. -/
theorem wp_sendFile {filename : Bytes} (h : st.Holds sent r) (hsock : st.sockfd = sock)
    (hstate : st.state = .sendingStatus ∨ st.state = .sendingHeader)
    (hmissing : ∀ err, Q err st (n.put sock (p.opened [none]) short))
    (hQ : ∀ size err st' short', short ≤ short' →
      Carried sent r (Output.stages size (.sendFile filename)) .sendingFile st st' short' err →
      Q err st' (n.put sock (p.opened [some size]) short')) :
    Proc.wp (net l) (sendFile filename) Q st (n.put sock p short) := by
  simp only [sendFile, Proc.wp_bind, Proc.wp_get]
  rw [if_neg (not_late_of_begun hstate), Proc.wp_bind, Proc.wp_get, Proc.wp_bind, hsock]
  apply wp_fopen
  intro file
  rcases file with _ | size
  · exact hmissing _
  · dsimp only
    rw [Proc.wp_bind]
    apply wp_sendHeader h hstate
    intro err st₁ short₁ hshort₁ hheader
    by_cases herr : err = SB_ESUCCESS
    · subst herr
      rw [if_neg (by simp), Proc.wp_bind]
      apply wp_finalizeHeader hheader.holds (.inr hheader.state_eq)
      intro err st₂ short₂ hshort₂ hfinal
      by_cases herr : err = SB_ESUCCESS
      · subst herr
        rw [if_neg (by simp)]
        have hboth := hheader.bind hfinal
        obtain ⟨code, msg, headers, body, hfull⟩ := eq_full_of_sendingData hboth.holds hboth.state_eq
        have hholds := hboth.holds
        rw [hfull] at hholds
        have hsending : isSending st₂ = true := by simp [isSending, hboth.state_eq, State.code]
        have hafter : r.after (Output.stages size (.sendFile filename)) = .full code msg headers body := hfull
        have hfile : Stream.Holds { st₂ with sendFp := true, state := .sendingFile } sent
            (r.after (Output.stages size (.sendFile filename))) := by
          rw [hafter]
          exact ⟨hholds.text, .inr (.inl rfl), fun _ => trivial⟩
        have hframe : st₂.Frame { st₂ with sendFp := true, state := .sendingFile } :=
          ⟨rfl, rfl, rfl, rfl, rfl, rfl, fun hnot => absurd (hsending.symm.trans hnot) (by decide), fun _ => by simp [isSending, State.code]⟩
        exact hQ size _ _ _ (hshort₁.trans hshort₂) ⟨hboth.frame.trans hframe, fun hne => absurd rfl hne, _, [],
          (List.append_nil _).symm, hfile, fun _ => ⟨rfl, rfl⟩⟩
      · rw [if_pos herr, Proc.wp_bind]
        apply wp_fclose
        exact hQ size _ _ _ (hshort₁.trans hshort₂) ((hheader.bind hfinal).fails herr)
    · rw [if_pos herr, Proc.wp_bind]
      apply wp_fclose
      exact hQ size _ _ _ hshort₁ (hheader.widen herr)

theorem wp_write {data : Bytes} (h : st.Holds sent r) (htimely : Output.Timely st.state (.write data))
    (hQ : ∀ err st' short', short ≤ short' → Carried sent r [.begun, .ended, .append data] .sendingData st st' short' err →
      Q err st' (n.put sock p short')) :
    Proc.wp (net l) (write data) Q st (n.put sock p short) := by
  -- the data are appended when there is a header before them
  have happend : ∀ st₁ short₁, short ≤ short₁ → Carried sent r [.begun, .ended] .sendingData st st₁ short₁ SB_ESUCCESS →
      Proc.wp (net l) (pushSend data) Q st₁ (n.put sock p short₁) := by
    intro st₁ short₁ hshort₁ hfinal
    obtain ⟨code, msg, headers, body, hfull⟩ := eq_full_of_sendingData hfinal.holds hfinal.state_eq
    have hholds := hfinal.holds
    rw [hfull] at hholds
    apply wp_pushSend_stage hholds (f := .append data)
    · simp [Response.append, Response.text]
    · exact .inl hfinal.state_eq
    · exact fun hfull => hfull
    · intro err st₂ short₂ hshort₂ hcarried
      rw [hfinal.state_eq, ← hfull] at hcarried
      exact hQ err st₂ short₂ (hshort₁.trans hshort₂) (hfinal.bind hcarried)
  simp only [write, Proc.wp_bind, Proc.wp_get]
  by_cases hdata : st.state = .sendingData
  · rw [if_neg (by simp [hdata]), Proc.wp_bind, Proc.wp_get, if_neg (by simp [hdata])]
    obtain ⟨code, msg, headers, body, rfl⟩ := eq_full_of_sendingData h hdata
    exact happend st short le_rfl ⟨.refl st, fun hne => absurd rfl hne, [.begun, .ended], [], rfl, h, fun _ => ⟨rfl, hdata⟩⟩
  · have hstate : st.state = .sendingStatus ∨ st.state = .sendingHeader :=
      htimely.imp_right fun hlater => hlater.resolve_right hdata
    have hearly : st.state.code < State.sendingData.code := by
      have hlate := not_late_of_begun hstate
      simp only [State.code] at hlate ⊢
      omega
    rw [if_pos hearly, Proc.wp_bind]
    apply wp_finalizeHeader h hstate
    intro err st₁ short₁ hshort₁ hfinal
    by_cases herr : err = SB_ESUCCESS
    · subst herr
      rw [if_neg (by simp), Proc.wp_bind, Proc.wp_get, if_neg (by simp [hfinal.state_eq])]
      exact happend st₁ short₁ hshort₁ hfinal
    · rw [if_pos herr]
      exact hQ err st₁ short₁ hshort₁ (hfinal.widen herr)

/-! ### Refusals -/

theorem wp_sendStatus_refused {code : Int} {msg : Bytes} (hlate : st.state ≠ .sendingStatus) (hQ : ∀ err, err ≠ SB_ESUCCESS → Q err st n) :
    Proc.wp (net l) (sendStatus code msg) Q st n := by
  simp only [sendStatus, Proc.wp_bind, Proc.wp_get]
  rw [if_pos hlate]
  exact hQ _ badState_ne

/-- Before the request has come in there is no status line to begin with. -/
theorem wp_begun_refused {m : Conn Int} (hlate : ¬ (st.state = .sendingStatus ∨ st.state = .sendingHeader))
    (hearly : ¬ st.state.code > State.sendingHeader.code) (hQ : ∀ err, err ≠ SB_ESUCCESS → Q err st n) :
    Proc.wp (net l) (do
      if (← get).state.code < State.sendingHeader.code then
        let err ← sendStatus 200 (bytes "OK")
        if err ≠ SB_ESUCCESS then return err
      m) Q st n := by
  have hbefore : st.state.code < State.sendingHeader.code := by
    obtain ⟨-, hheader⟩ := not_or.1 hlate
    cases hst : st.state <;> rw [hst] at hearly hheader <;> first | decide | exact absurd rfl hheader | exact absurd (by decide) hearly
  simp only [Proc.wp_bind, Proc.wp_get]
  rw [if_pos hbefore, Proc.wp_bind]
  apply wp_sendStatus_refused (not_or.1 hlate).1
  intro err herr
  rw [if_pos herr]
  exact hQ err herr

theorem wp_sendHeader_refused {field val : Bytes} (hlate : ¬ (st.state = .sendingStatus ∨ st.state = .sendingHeader))
    (hQ : ∀ err, err ≠ SB_ESUCCESS → Q err st n) : Proc.wp (net l) (sendHeader field val) Q st n := by
  rw [sendHeader]
  simp only [Proc.wp_bind, Proc.wp_get]
  split
  · exact hQ _ badState_ne
  · rename_i hearly
    exact wp_begun_refused hlate hearly hQ

/-- A function that is called at the wrong time leaves the connection as it is. -/
theorem wp_output_refused {o : Output} (hsock : st.sockfd = sock) (hlate : ¬ o.Timely st.state)
    (hQ : ∀ file err, Q err st (n.put sock (p.opened (o.opens st.state file)) short)) :
    Proc.wp (net l) o.run Q st (n.put sock p short) := by
  -- only a file is opened before its function is refused
  have hnothing : (∀ file, o.opens st.state file = []) → ∀ err, Q err st (n.put sock p short) := by
    intro hopens err
    have hend := hQ none err
    rwa [hopens none, Peer.opened_nil] at hend
  cases o with
  | sendStatus code msg => exact wp_sendStatus_refused hlate fun err _ => hnothing (fun _ => rfl) err
  | sendHeader field val => exact wp_sendHeader_refused hlate fun err _ => hnothing (fun _ => rfl) err
  | sendFile filename =>
      rw [Output.run, sendFile]
      simp only [Proc.wp_bind, Proc.wp_get]
      split
      · rename_i hafter
        exact hnothing (fun _ => if_pos hafter) _
      · rename_i hbefore
        have hopens : ∀ file, Output.opens st.state file (.sendFile filename) = [file] := fun _ => if_neg hbefore
        simp only [hopens] at hQ
        rw [Proc.wp_bind, Proc.wp_get, Proc.wp_bind, hsock]
        apply wp_fopen
        intro file
        rcases file with _ | size
        · exact hQ _ _
        · dsimp only
          rw [Proc.wp_bind]
          apply wp_sendHeader_refused hlate
          intro err herr
          rw [if_pos herr, Proc.wp_bind]
          apply wp_fclose
          exact hQ _ _
  | write data =>
      obtain ⟨hstatus, hlater⟩ := not_or.1 hlate
      obtain ⟨hheader, hdata⟩ := not_or.1 hlater
      have hlate' : ¬ (st.state = .sendingStatus ∨ st.state = .sendingHeader) := not_or.2 ⟨hstatus, hheader⟩
      rw [Output.run, write]
      simp only [Proc.wp_bind, Proc.wp_get]
      split
      · rename_i hearly
        rw [Proc.wp_bind, finalizeHeader]
        apply wp_begun_refused hlate'
        · simp only [State.code] at hearly ⊢
          omega
        · intro err herr
          rw [if_pos herr]
          exact hnothing (fun _ => rfl) err
      · rw [Proc.wp_bind, Proc.wp_get, if_pos hdata]
        exact hnothing (fun _ => rfl) _

/-! ### All functions -/

/-- Whatever the handler calls, it does what it is to do. -/
theorem wp_output {o : Output} (h : st.Holds sent r) (hsock : st.sockfd = sock)
    (hQ : ∀ files r' err st' short', short ≤ short' → o.Does (n.starved || short') st.state r files st'.state r' →
      st.Frame st' → st'.Holds sent r' → Q err st' (n.put sock (p.opened files) short')) :
    Proc.wp (net l) o.run Q st (n.put sock p short) := by
  by_cases htimely : o.Timely st.state
  · have hcarried : ∀ size err st' short', short ≤ short' → Carried sent r (o.stages size) o.next st st' short' err →
        Q err st' (n.put sock (p.opened (o.opens st.state (some size))) short') := by
      intro size err st' short' hshort hcarried
      by_cases herr : err = SB_ESUCCESS
      · subst herr
        apply hQ _ _ _ _ _ hshort ?_ hcarried.frame hcarried.holds
        rw [hcarried.state_eq]
        exact .done htimely size
      · obtain ⟨hframe, hstarved, done, rest, hstages, hholds, -⟩ := hcarried
        have hshort' : (n.starved || short') = true := by rw [hstarved herr, Bool.or_true]
        exact hQ _ _ _ _ _ hshort (.stuck hshort' size _ hstages) hframe hholds
    have hplain : (∀ size, o.opens st.state (some size) = []) → ∀ err st' short', short ≤ short' →
        Carried sent r (o.stages 0) o.next st st' short' err → Q err st' (n.put sock p short') := by
      intro hopens err st' short' hshort h'
      have hend := hcarried 0 err st' short' hshort h'
      rwa [hopens 0, Peer.opened_nil] at hend
    cases o with
    | sendStatus code msg => exact wp_sendStatus h htimely (hplain fun _ => rfl)
    | sendHeader field val => exact wp_sendHeader h htimely (hplain fun _ => rfl)
    | sendFile filename =>
        have hopens : ∀ file, Output.opens st.state file (.sendFile filename) = [file] :=
          fun _ => if_neg (not_late_of_begun htimely)
        simp only [hopens] at hcarried
        apply wp_sendFile h hsock htimely
        · intro err
          have hmissing := hQ _ r err st short le_rfl (.missing rfl) (.refl st) h
          rwa [hopens] at hmissing
        · exact hcarried
    | write data => exact wp_write h htimely (hplain fun _ => rfl)
  · apply wp_output_refused hsock htimely
    intro file err
    exact hQ _ _ _ _ _ le_rfl (.refused htimely file) (.refl st) h

theorem wp_runOutputs {outputs : List Output} {Q : Unit → Stream → Net → Prop} (h : st.Holds sent r) (hsock : st.sockfd = sock)
    (hQ : ∀ files r' st' short', short ≤ short' → Writes (n.starved || short') st.state r outputs files st'.state r' →
      st.Frame st' → st'.Holds sent r' → Q () st' (n.put sock (p.opened files) short')) :
    Proc.wp (net l) (runOutputs outputs) Q st (n.put sock p short) := by
  induction outputs generalizing st r p short with
  | nil =>
      have hend := hQ [] r st short le_rfl (.nil _ _) (.refl st) h
      rwa [Peer.opened_nil] at hend
  | cons o outputs ih =>
      rw [runOutputs, Proc.wp_bind]
      apply wp_output h hsock
      intro files r₁ err st₁ short₁ hshort₁ hdoes hframe hholds
      apply ih hholds (hframe.sockfd.trans hsock)
      intro files' r' st' short' hshort' hwrites hframe' hholds'
      rw [Peer.opened_opened]
      have hstarved : (n.starved || short₁) ≤ (n.starved || short') := sup_le_sup_left hshort' _
      exact hQ _ r' st' short' (hshort₁.trans hshort') (.cons (hdoes.mono hstarved) hwrites) (hframe.trans hframe') hholds'

end

end Sb

end HiveSdk
