import HiveSdk.Server.Response

/-!
# One connection

What the functions that work on one connection make of it. A connection is sound when the handler has been told of its request exactly when all of it has come in, and when what has been sent continues into what is waiting to be sent. Where memory has been short, bytes of the request may be missing, and only the order of the notices is left.
-/

namespace HiveSdk

open Interaction

namespace Sb

/-! ### Sound connections -/

theorem fed_of_le {starved short short' : Bool} (h : short ≤ short') (hfed : (starved || short') = false) :
    (starved || short) = false := by
  simp only [Bool.or_eq_false_iff] at hfed ⊢
  exact ⟨hfed.1, Bool.eq_false_of_le_false (hfed.2 ▸ h)⟩

def Stream.closed (st : Stream) : Stream := { st with state := .closing }

@[simp] theorem isSending_closed (st : Stream) : isSending st.closed = true := rfl

@[simp] theorem closed_sockfd (st : Stream) : st.closed.sockfd = st.sockfd := rfl

/-- The connection waits for the rest of a request of which this has come in. -/
def Waiting (st : Stream) (got : Bytes) : Prop :=
  st.recvBuf.data = got ∧ match progress got with
    | .header => st.state = .receivingHeader ∧ st.expectedRecvLen = 0 ∧ st.dataIdx = 0
    | .body dataIdx expected => st.state = .receivingRequest ∧ st.expectedRecvLen = expected ∧ st.dataIdx = dataIdx
    | _ => False

/-- The connection holds the response that the handler has written. -/
def Answers (starved : Bool) (p : Peer) (st : Stream) : Prop :=
  ∃ state r, Composed starved p.items p.files state r ∧ st.Holds p.sent r

structure Sound (starved : Bool) (p : Peer) (st : Stream) : Prop where
  served : p.Served
  answers : Answers starved p st
  fresh : isSending st = false → p.requests = []
  single : p.requests.length ≤ 1
  read : starved = false → p.requests = requestsIn p.received ∧ progress p.received ≠ .hangs
  waiting : starved = false → isSending st = false → Waiting st p.received

/-- What is left to say of a connection that has been closed. -/
structure Finished (starved : Bool) (p : Peer) : Prop where
  dismissed : p.announced = true → p.dismissed = true
  single : p.requests.length ≤ 1
  response : ∃ files state r, Composed starved p.items files state r ∧ files <+: p.files ∧ p.sent <+: r.text
  read : starved = false → p.requests = requestsIn p.received ∧ progress p.received ≠ .hangs

/-- The server is in the middle of what has come in: `rest` is still to be read. -/
structure Receiving (starved : Bool) (p : Peer) (st : Stream) (got rest : Bytes) : Prop where
  served : p.Served
  answers : Answers starved p st
  requests : p.requests = []
  receiving : isSending st = false
  waiting : starved = false → Waiting st got ∧ p.received = got ++ rest

section
variable {l sock : Socket} {n : Net} {p : Peer} {short starved : Bool} {st : Stream} {got rest : Bytes}

theorem Answers.closed (h : Answers starved p st) : Answers starved p st.closed := by
  obtain ⟨state, r, hcomposed, hholds⟩ := h
  exact ⟨state, r, hcomposed, hholds.text, .closing r, hholds.file⟩

theorem Answers.mono {starved' : Bool} (h : Answers starved p st) (hle : starved ≤ starved') : Answers starved' p st := by
  obtain ⟨state, r, hcomposed, hholds⟩ := h
  exact ⟨state, r, hcomposed.mono hle, hholds⟩

theorem starved_le (starved : Bool) {short short' : Bool} (h : short ≤ short') :
    (starved || short) ≤ (starved || short') := sup_le_sup_left h _

theorem Waiting.not_hangs (h : Waiting st got) : progress got ≠ .hangs := by
  intro hhangs
  have hprogress := h.2
  rw [hhangs] at hprogress
  exact hprogress

theorem Waiting.firstRequest_eq (h : Waiting st got) : firstRequest got = none := by
  have hprogress := h.2
  rw [firstRequest]
  split
  · rename_i hcomplete
    rw [hcomplete] at hprogress
    exact hprogress.elim
  · rfl

theorem Waiting.header (h : Waiting st got) (hstate : st.state = .receivingHeader) :
    progress got = .header ∧ st.expectedRecvLen = 0 ∧ st.dataIdx = 0 := by
  have hprogress := h.2
  rcases hgot : progress got with _ | ⟨dataIdx, expected⟩ | _ | _ <;> rw [hgot] at hprogress
  · exact ⟨rfl, hprogress.2⟩
  · rw [hstate] at hprogress
    cases hprogress.1
  · exact hprogress.elim
  · exact hprogress.elim

/-- Without memory nothing is known of the request. -/
theorem sound_of_starved (hstarved : starved = true) (hserved : p.Served) (hanswers : Answers starved p st)
    (hrequests : p.requests = []) : Sound starved p st where
  served := hserved
  answers := hanswers
  fresh := fun _ => hrequests
  single := by simp [hrequests]
  read := fun hfed => absurd (hstarved.symm.trans hfed) (by decide)
  waiting := fun hfed => absurd (hstarved.symm.trans hfed) (by decide)

/-- All that has come in has been read. -/
theorem Receiving.sound (h : Receiving starved p st got []) : Sound starved p st where
  served := h.served
  answers := h.answers
  fresh := fun _ => h.requests
  single := by simp [h.requests]
  read := by
    intro hfed
    obtain ⟨hwaiting, hreceived⟩ := h.waiting hfed
    rw [List.append_nil] at hreceived
    rw [hreceived, requestsIn_of_incomplete hwaiting.firstRequest_eq]
    exact ⟨h.requests, hwaiting.not_hangs⟩
  waiting := by
    intro hfed _
    obtain ⟨hwaiting, hreceived⟩ := h.waiting hfed
    rwa [hreceived, List.append_nil]

theorem Sound.mono {starved' : Bool} (h : Sound starved p st) (hle : starved ≤ starved') : Sound starved' p st where
  served := h.served
  answers := h.answers.mono hle
  fresh := h.fresh
  single := h.single
  read := fun hfed => h.read (Bool.eq_false_of_le_false (hfed ▸ hle))
  waiting := fun hfed => h.waiting (Bool.eq_false_of_le_false (hfed ▸ hle))

theorem Sound.closed (h : Sound starved p st) : Sound starved p st.closed where
  served := h.served
  answers := h.answers.closed
  fresh := fun hsending => by cases hsending
  single := h.single
  read := h.read
  waiting := fun _ hsending => by cases hsending

@[simp] theorem wp_streamClose {Q : Unit → Stream → Net → Prop} :
    Proc.wp (net l) streamClose Q st n ↔ Q () st.closed n := Iff.rfl

@[simp] theorem wp_setState {state : State} {Q : Unit → Stream → Net → Prop} :
    Proc.wp (net l) (setState state) Q st n ↔ Q () { st with state := state } n := Iff.rfl

@[simp] theorem wp_setRecvBuf {b : Buffer} {Q : Unit → Stream → Net → Prop} :
    Proc.wp (net l) (setRecvBuf b) Q st n ↔ Q () { st with recvBuf := b } n := Iff.rfl

@[simp] theorem wp_setSendBuf {b : Buffer} {Q : Unit → Stream → Net → Prop} :
    Proc.wp (net l) (setSendBuf b) Q st n ↔ Q () { st with sendBuf := b } n := Iff.rfl

/-! ### Notices -/

/-- The handler writes what it likes, and may have the connection closed. -/
theorem wp_streamEmit {notice : Notice} {r : Response} {Q : Int → Stream → Net → Prop} (hsock : st.sockfd = sock)
    (hawaits : p.Awaits notice) (hholds : st.Holds p.sent r)
    (hQ : ∀ err st' outputs files r' short', short ≤ short' → st.Frame st' →
      Writes (n.starved || short') st.state r outputs files st'.state r' → st'.Holds p.sent r' →
      Q err st' (n.put sock ((p.notified notice outputs).opened files) short')
        ∧ Q err st'.closed (n.put sock ((p.notified notice outputs).opened files) short')) :
    Proc.wp (net l) (streamEmit notice) Q st (n.put sock p short) := by
  simp only [streamEmit, Proc.wp_bind, Proc.wp_get, Proc.wp_call]
  rw [hsock]
  refine ⟨⟨p, Net.put_self, hawaits⟩, fun reply n' hstep => ?_⟩
  obtain ⟨q, hq, rfl⟩ := hstep
  obtain rfl := Option.some.inj (Net.put_self.symm.trans hq)
  rw [Net.put_put, Bool.or_false]
  apply wp_runOutputs hholds hsock
  intro files r' st' short' hshort hwrites hframe hholds'
  have hend := fun err => hQ err st' reply.outputs files r' short' hshort hframe hwrites hholds'
  split
  · exact (hend _).1
  · split
    · rw [Proc.wp_bind, wp_streamClose]
      exact (hend _).2
    · exact (hend _).1

theorem Answers.of_buffer (h : Answers starved p st) (b : Buffer) : Answers starved p { st with recvBuf := b } := by
  obtain ⟨state, r, hcomposed, hholds⟩ := h
  exact ⟨state, r, hcomposed, hholds.text, hholds.state, hholds.file⟩

/-- A connection that is receiving holds no response yet, so nothing depends on which state of the request it is in. -/
theorem Answers.of_receiving (h : Answers starved p st) (hreceiving : isSending st = false) {st' : Stream}
    (hstate : st'.state ∉ [State.sendingHeader, .sendingData, .sendingFile]) (hbuf : st'.sendBuf = st.sendBuf)
    (hfile : st'.sendFp = st.sendFp) : Answers starved p st' := by
  obtain ⟨state, r, hcomposed, hholds⟩ := h
  have hmatches := hholds.state
  cases r with
  | none =>
      refine ⟨state, .none, hcomposed, ?_, hstate, ?_⟩
      · rw [hbuf]
        exact hholds.text
      · rw [hfile]
        exact hholds.file
  | head code msg headers => rcases hmatches with hst | hst <;> simp [isSending, hst, State.code] at hreceiving
  | full code msg headers body =>
      rcases hmatches with hst | hst | hst <;> simp [isSending, hst, State.code] at hreceiving

/-! ### Receiving -/

theorem wp_nullTerminateRecv {Q : Int → Stream → Net → Prop}
    (hok : ∀ b : Buffer, b.data = st.recvBuf.data → Q SB_ESUCCESS { st with recvBuf := b } (n.put sock p short))
    (hfail : Q SB_EOUTOFMEM st (n.put sock p true)) :
    Proc.wp (net l) nullTerminateRecv Q st (n.put sock p short) := by
  simp only [nullTerminateRecv, Proc.wp_bind, Proc.wp_get]
  apply wp_bufferNullTerminate
  · exact hok
  · exact hfail

/-- The request that is in the buffer is handed to the handler, if its first line can be read. -/
theorem wp_handleRequest {Q : Int → Stream → Net → Prop} (hsock : st.sockfd = sock) (hserved : p.Served)
    (hanswers : Answers (n.starved || short) p st) (hrequests : p.requests = []) (hreceiving : isSending st = false)
    (hread : (n.starved || short) = false → firstRequest p.received = some ⟨st.recvBuf.data, st.dataIdx⟩)
    (hQ : ∀ err st' p' short', st'.sockfd = sock → Sound (n.starved || short') p' st' → Q err st' (n.put sock p' short')) :
    Proc.wp (net l) handleRequest Q st (n.put sock p short) := by
  have hanswers₁ : Answers (n.starved || short) p { st with state := .sendingStatus } :=
    hanswers.of_receiving hreceiving (by simp) rfl rfl
  -- with the request that has been read, nothing is left to be waited for
  have hsound : ∀ short' p' st', p'.Served → p'.received = p.received → Answers (n.starved || short') p' st' →
      isSending st' = true → short ≤ short' →
      p'.requests = (readRequest ⟨st.recvBuf.data, st.dataIdx⟩).toList → Sound (n.starved || short') p' st' := by
    intro short' p' st' hserved' hreceived' hanswers' hsending hshort hrequests'
    refine ⟨hserved', hanswers', fun hnot => absurd (hsending.symm.trans hnot) (by decide), ?_, fun hfed => ?_,
      fun _ hnot => absurd (hsending.symm.trans hnot) (by decide)⟩
    · rw [hrequests']
      cases readRequest ⟨st.recvBuf.data, st.dataIdx⟩ <;> simp
    · have hfirst := hread (fed_of_le hshort hfed)
      rw [hreceived', hrequests', requestsIn, hfirst]
      refine ⟨rfl, fun hhangs => ?_⟩
      rw [firstRequest, hhangs] at hfirst
      cases hfirst
  simp only [handleRequest, Proc.wp_bind, wp_setState]
  apply wp_nullTerminateRecv
  · intro b hb
    rw [if_neg (by simp), Proc.wp_bind, Proc.wp_get, hb]
    have hanswers₂ := hanswers₁.of_buffer b
    split
    · rename_i hline
      have hreadRequest : readRequest ⟨st.recvBuf.data, st.dataIdx⟩ = none := by
        simp only [readRequest, hline]
      rw [Proc.wp_bind, wp_streamClose]
      exact hQ _ _ _ _ hsock (hsound _ p _ hserved rfl hanswers₂.closed rfl le_rfl (by rw [hrequests, hreadRequest]; rfl))
    · rename_i line hline
      have hreadRequest : readRequest ⟨st.recvBuf.data, st.dataIdx⟩ = if (bytes "HTTP").isPrefixOf line.ver then
          some (.request line.method (cString (urlDecode (List.replicate pathSize 0) line.target).1)
            ⟨st.recvBuf.data, st.dataIdx⟩) else none := by
        simp only [readRequest, hline]
      by_cases hver : (bytes "HTTP").isPrefixOf line.ver = true
      · rw [if_neg (by simpa using hver)]
        rw [if_pos hver] at hreadRequest
        obtain ⟨state, r, hcomposed, hholds⟩ := hanswers₂
        refine wp_streamEmit ?_ ?_ hholds ?_
        · exact hsock
        · exact ⟨hserved, hrequests⟩
        intro err st' outputs files r' short' hshort hframe hwrites hholds'
        have hall := (hcomposed.mono (starved_le n.starved hshort)).request.writes hwrites
        rw [List.append_assoc] at hall
        generalize hnotice : Notice.request line.method _ _ = notice at *
        have hanswers' : Answers (n.starved || short') ((p.notified notice outputs).opened files) st' := by
          rw [← hnotice]
          exact ⟨st'.state, r', hall, hholds'⟩
        have hserved' : ((p.notified notice outputs).opened files).Served := by
          rw [← hnotice]
          exact ⟨rfl, by simp [Peer.opened, Peer.notified, hserved.2]⟩
        have hrequests' : ((p.notified notice outputs).opened files).requests
            = (readRequest ⟨st.recvBuf.data, st.dataIdx⟩).toList := by
          rw [hreadRequest, ← hnotice, Peer.opened, Peer.notified, hrequests]
          rfl
        have hsending : isSending st' = true := hframe.sending rfl
        have hsock' : st'.sockfd = sock := hframe.sockfd.trans hsock
        exact ⟨hQ _ _ _ _ hsock' (hsound _ _ _ hserved' rfl hanswers' hsending hshort hrequests'),
          hQ _ _ _ _ hsock' (hsound _ _ _ hserved' rfl hanswers'.closed rfl hshort hrequests')⟩
      · rw [if_pos hver, Proc.wp_bind, wp_streamClose]
        rw [if_neg hver] at hreadRequest
        exact hQ _ _ _ _ hsock (hsound _ p _ hserved rfl hanswers₂.closed rfl le_rfl (by rw [hrequests, hreadRequest]; rfl))
  · rw [if_pos (by decide)]
    exact hQ _ _ _ _ hsock (sound_of_starved (Bool.or_true _) hserved
      (hanswers₁.mono (starved_le n.starved (Bool.le_true short))) hrequests)

/-- With a byte that completes the request, this is the first request of all that has come in. -/
theorem firstRequest_of_complete {chr : UInt8} {dataIdx : Nat}
    (hcomplete : progress (got ++ [chr]) = .complete dataIdx (got.length + 1))
    (hreceived : p.received = got ++ chr :: rest) : firstRequest p.received = some ⟨got ++ [chr], dataIdx⟩ := by
  have hfirst : firstRequest (got ++ [chr]) = some ⟨got ++ [chr], dataIdx⟩ := by
    rw [firstRequest, hcomplete]
    dsimp only
    rw [List.take_of_length_le (by simp)]
  rw [hreceived, List.append_cons]
  exact firstRequest_append hfirst rest

/-- At the end of what is expected the request is handed over. -/
theorem wp_expected {Q : Option Int → Stream → Net → Prop} (hsock : st.sockfd = sock) (hserved : p.Served)
    (hanswers : Answers (n.starved || short) p st) (hrequests : p.requests = []) (hreceiving : isSending st = false)
    (hread : (n.starved || short) = false → st.expectedRecvLen = st.recvBuf.data.length →
      firstRequest p.received = some ⟨st.recvBuf.data, st.dataIdx⟩)
    (hmore : st.expectedRecvLen ≠ st.recvBuf.data.length → Q none st (n.put sock p short))
    (hend : ∀ err st' p' short', st'.sockfd = sock → Sound (n.starved || short') p' st' →
      Q (some err) st' (n.put sock p' short')) :
    Proc.wp (net l) (do
      if (← get).expectedRecvLen = (← get).recvBuf.data.length then return some (← handleRequest)
      return none) Q st (n.put sock p short) := by
  simp only [Proc.wp_bind, Proc.wp_get]
  by_cases hlength : st.expectedRecvLen = st.recvBuf.data.length
  · rw [if_pos hlength, Proc.wp_bind]
    exact wp_handleRequest hsock hserved hanswers hrequests hreceiving (fun hfed => hread hfed hlength) hend
  · rw [if_neg hlength]
    exact hmore hlength

/-- A byte that has been read leads to the next byte or to the request. -/
theorem wp_recvChar {chr : UInt8} {Q : Option Int → Stream → Net → Prop} (hsock : st.sockfd = sock)
    (h : Receiving (n.starved || short) p st got (chr :: rest))
    (hmore : ∀ st' short', st'.sockfd = sock → Receiving (n.starved || short') p st' (got ++ [chr]) rest →
      Q none st' (n.put sock p short'))
    (hend : ∀ err st' p' short', st'.sockfd = sock → Sound (n.starved || short') p' st' →
      Q (some err) st' (n.put sock p' short')) :
    Proc.wp (net l) (recvChar chr) Q st (n.put sock p short) := by
  have hshort : ∀ st' : Stream, st'.sockfd = sock → Answers (n.starved || short) p st' →
      Q (some SB_EOUTOFMEM) st' (n.put sock p true) := by
    intro st' hsock' hanswers'
    have hstarved := hanswers'.mono (starved_le n.starved (Bool.le_true short))
    exact hend _ _ _ _ hsock' (sound_of_starved (Bool.or_true _) h.served hstarved h.requests)
  have hreceived : (n.starved || short) = false → p.received = (got ++ [chr]) ++ rest := by
    intro hfed
    rw [(h.waiting hfed).2, List.append_cons]
  rw [recvChar]
  simp only [Proc.wp_bind, Proc.wp_get]
  apply wp_bufferPushChar
  · intro b hb
    rw [Proc.wp_bind, wp_setRecvBuf, if_neg (by simp)]
    simp only [Proc.wp_bind, Proc.wp_get]
    have hanswers := h.answers.of_buffer b
    by_cases hheader : st.state = .receivingHeader ∧ bytes "\r\n\r\n" <:+ b.data
    · rw [if_pos hheader, Proc.wp_bind, wp_setState]
      obtain ⟨hstate, hblank⟩ := hheader
      have hanswers' : Answers (n.starved || short) p { st with recvBuf := b, state := .receivingRequest } :=
        h.answers.of_receiving h.receiving (by simp) rfl rfl
      rw [Proc.wp_bind]
      apply wp_nullTerminateRecv
      · intro b' hb'
        dsimp only at hb'
        rw [if_neg (by simp)]
        simp only [Proc.wp_bind, Proc.wp_get]
        -- what the header says is said by the text that has come in
        have hprogress : (n.starved || short) = false → b'.data = got ++ [chr] ∧ st.dataIdx = 0
            ∧ progress (got ++ [chr]) = headerProgress (got ++ [chr]) := by
          intro hfed
          obtain ⟨hwaiting, -⟩ := h.waiting hfed
          have hdata : b.data = got ++ [chr] := by rw [hb, hwaiting.1]
          refine ⟨hb'.trans hdata, (hwaiting.header hstate).2.2, ?_⟩
          rw [progress_snoc_of_header (hwaiting.header hstate).1, if_pos (hdata ▸ hblank)]
        have hreceiving : isSending { st with recvBuf := b', state := .receivingRequest } = false := rfl
        rcases hvalue : findHeaderValue (bytes "Content-Length") (cString b'.data) with value | _ | _
        · simp only [Proc.wp_bind, Proc.wp_modify]
          refine wp_expected ?_ h.served ?_ h.requests ?_ ?_ ?_ hend
          · exact hsock
          · exact h.answers.of_receiving h.receiving (by simp) rfl rfl
          · rfl
          · intro hfed hlength
            obtain ⟨hdata, -, hend'⟩ := hprogress hfed
            have hzero : strToUint value = 0 := Nat.add_eq_left.1 hlength
            rw [headerProgress, ← hdata, contentLength, hvalue] at hend'
            simp only [hzero, if_true] at hend'
            dsimp only
            rw [hdata]
            apply firstRequest_of_complete ?_ (h.waiting hfed).2
            rw [← hdata, hend', hdata, List.length_append]
            rfl
          · intro hlength
            have hzero : strToUint value ≠ 0 := fun hzero => hlength (by rw [hzero, Nat.add_zero])
            apply hmore
            · exact hsock
            refine ⟨h.served, h.answers.of_receiving h.receiving (by simp) rfl rfl, h.requests, rfl, fun hfed => ?_⟩
            obtain ⟨hdata, -, hend'⟩ := hprogress hfed
            rw [headerProgress, ← hdata, contentLength, hvalue] at hend'
            simp only [hzero, if_false] at hend'
            refine ⟨⟨hdata, ?_⟩, hreceived hfed⟩
            rw [← hdata, hend']
            exact ⟨rfl, rfl, rfl⟩
        · rw [Proc.wp_bind]
          refine wp_handleRequest ?_ h.served ?_ h.requests hreceiving ?_ hend
          · exact hsock
          · exact hanswers'.of_buffer b'
          · intro hfed
            obtain ⟨hdata, hdataIdx, hend'⟩ := hprogress hfed
            rw [headerProgress, ← hdata, contentLength, hvalue] at hend'
            dsimp only at hend' ⊢
            rw [hdata, hdataIdx]
            apply firstRequest_of_complete ?_ (h.waiting hfed).2
            rw [← hdata, hend', hdata, List.length_append]
            rfl
        · rw [Proc.wp_bind, Proc.wp_call]
          refine ⟨?_, fun never => never.elim⟩
          cases hfed : n.starved || short with
          | true => exact .inl hfed
          | false =>
              obtain ⟨hdata, -, hend'⟩ := hprogress hfed
              rw [headerProgress, ← hdata, contentLength, hvalue] at hend'
              refine .inr ⟨sock, p, Net.put_self, ?_⟩
              rw [hreceived hfed, ← hdata]
              rw [progress_append (.inl hend'), hend']
      · rw [if_pos (by decide)]
        exact hshort _ hsock hanswers'
    · rw [if_neg hheader]
      refine wp_expected ?_ h.served hanswers h.requests ?_ ?_ ?_ hend
      · exact hsock
      · exact h.receiving
      · intro hfed hlength
        obtain ⟨hwaiting, hrest⟩ := h.waiting hfed
        have hdata : b.data = got ++ [chr] := by rw [hb, hwaiting.1]
        dsimp only at hlength ⊢
        rw [hdata, List.length_append] at hlength
        have hprogress := hwaiting.2
        rcases hgot : progress got with _ | ⟨dataIdx, expected⟩ | _ | _ <;> rw [hgot] at hprogress
        · rw [hprogress.2.1] at hlength
          cases hlength
        · obtain ⟨-, hexpected, rfl⟩ := hprogress
          rw [hdata]
          apply firstRequest_of_complete ?_ hrest
          have hlast : got.length + 1 = expected := by rw [← hexpected, hlength]; rfl
          rw [progress_snoc_of_body hgot, if_neg (by omega), hlast]
        · exact hprogress.elim
        · exact hprogress.elim
      · intro hlength
        refine hmore _ _ ?_ ⟨h.served, hanswers, h.requests, h.receiving, fun hfed => ⟨?_, hreceived hfed⟩⟩
        · exact hsock
        obtain ⟨hwaiting, -⟩ := h.waiting hfed
        have hdata : b.data = got ++ [chr] := by rw [hb, hwaiting.1]
        refine ⟨hdata, ?_⟩
        dsimp only at hlength ⊢
        rw [hdata, List.length_append] at hlength
        have hprogress := hwaiting.2
        rcases hgot : progress got with _ | ⟨dataIdx, expected⟩ | _ | _ <;> rw [hgot] at hprogress
        · have hblank : ¬ blankLine <:+ got ++ [chr] := fun hblank => hheader ⟨hprogress.1, hdata ▸ hblank⟩
          rw [progress_snoc_of_header hgot, if_neg hblank]
          exact hprogress
        · have hshorter := (of_progress_body hgot).1
          have hnot : expected ≠ got.length + 1 := fun heq => hlength (hprogress.2.1.trans heq)
          rw [progress_snoc_of_body hgot, if_pos (by omega)]
          exact hprogress
        · exact hprogress.elim
        · exact hprogress.elim
  · rw [Proc.wp_bind, wp_setRecvBuf, if_pos outOfMemory_ne]
    exact hshort _ hsock (h.answers.of_buffer _)

theorem wp_recvPiece {piece : Bytes} {Q : Option Int → Stream → Net → Prop} (hsock : st.sockfd = sock)
    (h : Receiving (n.starved || short) p st got (piece ++ rest))
    (hmore : ∀ st' short', st'.sockfd = sock → Receiving (n.starved || short') p st' (got ++ piece) rest →
      Q none st' (n.put sock p short'))
    (hend : ∀ err st' p' short', st'.sockfd = sock → Sound (n.starved || short') p' st' →
      Q (some err) st' (n.put sock p' short')) :
    Proc.wp (net l) (recvPiece piece) Q st (n.put sock p short) := by
  induction piece generalizing st got short with
  | nil => exact hmore st short hsock (by rwa [List.append_nil])
  | cons chr piece ih =>
      rw [recvPiece, Proc.wp_bind]
      apply wp_recvChar hsock h
      · intro st' short' hsock' h'
        apply ih hsock' h'
        intro st'' short'' hsock'' h''
        rw [← List.append_cons] at h''
        exact hmore st'' short'' hsock'' h''
      · exact hend

theorem Receiving.active {starved : Bool} (h : Receiving starved p st got rest) (now : Int) :
    Receiving starved p { st with lastActivity := now } got rest := by
  obtain ⟨state, r, hcomposed, hholds⟩ := h.answers
  exact ⟨h.served, ⟨state, r, hcomposed, hholds.text, hholds.state, hholds.file⟩, h.requests, h.receiving, h.waiting⟩

/-- How the network has cut the text into pieces does not matter. -/
theorem wp_recvPieces {now : Int} {ending : RecvEnd} {pieces : List Bytes} {Q : Int → Stream → Net → Prop}
    (hsock : st.sockfd = sock) (h : Receiving (n.starved || short) p st got pieces.flatten)
    (hQ : ∀ err st' p' short', st'.sockfd = sock → Sound (n.starved || short') p' st' →
      Q err st' (n.put sock p' short')) :
    Proc.wp (net l) (recvPieces now ending pieces) Q st (n.put sock p short) := by
  induction pieces generalizing st got short with
  | nil =>
      rw [recvPieces]
      have hsound := h.sound
      split
      · exact hQ _ _ _ _ hsock hsound.closed
      · exact hQ _ _ _ _ hsock hsound
  | cons piece pieces ih =>
      rw [recvPieces, Proc.wp_bind, Proc.wp_modify, Proc.wp_bind]
      refine wp_recvPiece ?_ (h.active now) ?_ hQ
      · exact hsock
      · exact fun st' short' hsock' h' => ih hsock' h'

theorem wp_streamRecv {now : Int} {Q : Int → Stream → Net → Prop} (hsock : st.sockfd = sock)
    (h : Sound (n.starved || short) p st) (hreceiving : isSending st = false)
    (hQ : ∀ err st' p' short', st'.sockfd = sock → Sound (n.starved || short') p' st' →
      Q err st' (n.put sock p' short')) :
    Proc.wp (net l) (streamRecv now) Q st (n.put sock p short) := by
  simp only [streamRecv, Proc.wp_bind, Proc.wp_get, Proc.wp_call]
  rw [hsock]
  refine ⟨⟨p, Net.put_self, h.served, h.fresh hreceiving⟩, fun input n' hstep => ?_⟩
  obtain ⟨q, hq, rfl⟩ := hstep
  obtain rfl := Option.some.inj (Net.put_self.symm.trans hq)
  rw [Net.put_put, Bool.or_false]
  have hfrom : Receiving (n.starved || short) { p with received := p.received ++ input.1.flatten } st
      p.received input.1.flatten :=
    ⟨h.served, h.answers, h.fresh hreceiving, hreceiving, fun hfed => ⟨h.waiting hfed hreceiving, rfl⟩⟩
  exact wp_recvPieces hsock hfrom hQ

/-! ### Sending -/

theorem wp_sendData {now : Int} {Q : Int → Stream → Net → Prop} (hsock : st.sockfd = sock)
    (h : Sound (n.starved || short) p st) (hdata : st.sendBuf.data ≠ [])
    (hQ : ∀ err st' p' short', st'.sockfd = sock → Sound (n.starved || short') p' st' →
      Q err st' (n.put sock p' short')) :
    Proc.wp (net l) (sendData now) Q st (n.put sock p short) := by
  simp only [sendData, Proc.wp_bind, Proc.wp_get, Proc.wp_call]
  rw [hsock]
  refine ⟨⟨hdata, p, Net.put_self, h.served⟩, fun reply n' hstep => ?_⟩
  cases reply with
  | sent k =>
      obtain ⟨q, hq, -, rfl⟩ := hstep
      obtain rfl := Option.some.inj (Net.put_self.symm.trans hq)
      rw [Net.put_put, Bool.or_false]
      obtain ⟨state, r, hcomposed, hholds⟩ := h.answers
      have hanswers : Answers (n.starved || short) { p with sent := p.sent ++ st.sendBuf.data.take k }
          { st with sendBuf := st.sendBuf.shift k, lastActivity := now } := by
        refine ⟨state, r, hcomposed, ?_, hholds.state, hholds.file⟩
        rw [← hholds.text, Buffer.shift_data, List.append_assoc, List.take_append_drop]
      apply hQ
      · exact hsock
      · exact ⟨h.served, hanswers, h.fresh, h.single, h.read, h.waiting⟩
  | wouldBlock =>
      obtain rfl := hstep
      exact hQ _ _ _ _ hsock h
  | failed =>
      obtain rfl := hstep
      exact hQ _ _ _ _ hsock h.closed

theorem wp_streamSend {now : Int} {Q : Int → Stream → Net → Prop} (hsock : st.sockfd = sock)
    (h : Sound (n.starved || short) p st)
    (hQ : ∀ err st' p' short', st'.sockfd = sock → Sound (n.starved || short') p' st' →
      Q err st' (n.put sock p' short')) :
    Proc.wp (net l) (streamSend now) Q st (n.put sock p short) := by
  subst hsock
  simp only [streamSend, Proc.wp_bind, Proc.wp_get]
  by_cases hdata : st.sendBuf.data = []
  · rw [if_neg (by simp [hdata]), Proc.wp_bind, Proc.wp_get]
    by_cases hfile : st.sendFp = true
    · rw [if_pos hfile]
      simp only [Proc.wp_bind, Proc.wp_get]
      apply wp_bufferReserve
      · intro b hb
        rw [Proc.wp_bind, wp_setSendBuf, if_neg (by simp)]
        simp only [Proc.wp_bind, Proc.wp_get, Proc.wp_call]
        refine ⟨⟨p, Net.put_self, h.served⟩, fun data n' hstep => ?_⟩
        obtain ⟨q, hq, rfl⟩ := hstep
        obtain rfl := Option.some.inj (Net.put_self.symm.trans hq)
        rw [Net.put_put, Bool.or_false, wp_setSendBuf]
        -- the response grows by what has been read
        have hread : Sound (n.starved || short) { p with items := p.items ++ [.chunk (data.take b.cap)] }
            { st with sendBuf := b.fill data } := by
          obtain ⟨state, r, hcomposed, hholds⟩ := h.answers
          have hfull := hholds.file hfile
          have htext := hholds.text
          rw [hdata, List.append_nil] at htext
          cases r with
          | none => exact hfull.elim
          | head code msg headers => exact hfull.elim
          | full code msg headers body =>
              refine ⟨h.served, ⟨state, _, hcomposed.chunk (data.take b.cap), ?_, hholds.state, fun _ => trivial⟩, h.fresh,
                h.single, h.read, h.waiting⟩
              rw [htext, Buffer.fill_data]
              simp [Response.append, Response.text]
        by_cases hmore : (b.fill data).data = []
        · rw [if_neg (not_not.2 hmore), Proc.wp_bind]
          apply wp_fclose
          obtain ⟨state, r, hcomposed, hholds⟩ := hread.answers
          apply hQ
          · rfl
          · exact ⟨hread.served, ⟨state, r, hcomposed, hholds.text, hholds.state, fun hnot => by cases hnot⟩, hread.fresh,
              hread.single, hread.read, hread.waiting⟩
        · rw [if_pos hmore]
          exact wp_sendData rfl hread hmore hQ
      · rw [Proc.wp_bind, wp_setSendBuf, if_pos outOfMemory_ne]
        apply hQ
        · rfl
        · rw [Bool.or_true]
          exact h.mono (Bool.le_true _)
    · rw [if_neg hfile]
      exact hQ _ _ _ _ rfl h.closed
  · rw [if_pos hdata]
    exact wp_sendData rfl h hdata hQ

/-! ### The end of a connection -/

theorem wp_close {S : Type} {st : S} {Q : Unit → S → Net → Prop} (hsock : sock ≠ l) (hdismissed : p.announced = true → p.dismissed = true)
    (hQ : Q () st ((n.put sock p short).close sock p)) :
    Proc.wp (net l) (call (Call.close sock)) Q st (n.put sock p short) := by
  have hpre : (net l).pre (n.put sock p short) (.close sock) := by
    rw [show (net l).pre (n.put sock p short) (.close sock) ↔ if sock = l then _ else _ from Iff.rfl, if_neg hsock]
    exact ⟨p, Net.put_self, hdismissed⟩
  rw [Proc.wp_call]
  refine ⟨hpre, fun reply n' hstep => ?_⟩
  rw [show (net l).step (n.put sock p short) (.close sock) reply n' ↔ if sock = l then _ else _ from Iff.rfl,
    if_neg hsock] at hstep
  obtain ⟨q, hq, rfl⟩ := hstep
  obtain rfl := Option.some.inj (Net.put_self.symm.trans hq)
  exact hQ

/-- The handler is told of the end before the descriptor is given back. What it writes then is not sent any more. -/
theorem wp_streamDestroy {Q : Unit → Stream → Net → Prop} (hsock : st.sockfd = sock) (hne : sock ≠ l)
    (h : Sound (n.starved || short) p st)
    (hQ : ∀ st' p' short', short ≤ short' → Finished (n.starved || short') p' →
      Q () st' ((n.put sock p' short').close sock p')) :
    Proc.wp (net l) streamDestroy Q st (n.put sock p short) := by
  obtain ⟨state, r, hcomposed, hholds⟩ := h.answers
  have hfinished : ∀ outputs files short', short ≤ short' →
      Finished (n.starved || short') ((p.notified .close outputs).opened files) := by
    intro outputs files short' hshort
    refine ⟨fun _ => by simp [Peer.opened, Peer.notified], h.single, ⟨p.files, state, r, ?_, ?_, ?_⟩,
      fun hfed => h.read (fed_of_le hshort hfed)⟩
    · exact hcomposed.mono (starved_le n.starved hshort)
    · exact List.prefix_append _ _
    · exact ⟨st.sendBuf.data, hholds.text⟩
  have hend : ∀ st' outputs files short', short ≤ short' → st'.sockfd = sock →
      Proc.wp (net l) (do
        call (Call.close (← get).sockfd)
        if (← get).sendFp then call Call.fclose) Q st'
          (n.put sock ((p.notified .close outputs).opened files) short') := by
    intro st' outputs files short' hshort hsock'
    simp only [Proc.wp_bind, Proc.wp_get]
    rw [hsock']
    apply wp_close hne (fun _ => by simp [Peer.opened, Peer.notified])
    have hclosed := hQ st' _ short' hshort (hfinished outputs files short' hshort)
    rw [Proc.wp_bind, Proc.wp_get]
    split
    · exact wp_fclose hclosed
    · exact hclosed
  have hawaits : p.Awaits .close := h.served
  rw [streamDestroy, Proc.wp_bind]
  apply wp_streamEmit hsock hawaits hholds
  intro err st' outputs files r' short' hshort hframe _ _
  exact ⟨hend st' outputs files short' hshort (hframe.sockfd.trans hsock),
    hend st'.closed outputs files short' hshort (hframe.sockfd.trans hsock)⟩

/-! ### One round -/

theorem wp_pollStream {srv : Server} {readable writable : List Socket} {Q : Int → Stream → Net → Prop}
    (hsock : st.sockfd = sock) (h : Sound (n.starved || short) p st) (hreadable : sock ∈ readable → isSending st = false)
    (hQ : ∀ err st' p' short', st'.sockfd = sock → Sound (n.starved || short') p' st' →
      Q err st' (n.put sock p' short')) :
    Proc.wp (net l) (pollStream srv readable writable) Q st (n.put sock p short) := by
  -- the connection is closed when it has lasted too long
  have hend : ∀ st' p' short', st'.sockfd = sock → Sound (n.starved || short') p' st' →
      Proc.wp (net l) (do
        if overdue srv (← get) then streamClose
        return SB_ESUCCESS) Q st' (n.put sock p' short') := by
    intro st' p' short' hsock' h'
    simp only [Proc.wp_bind, Proc.wp_get]
    split
    · exact hQ _ _ _ _ hsock' h'.closed
    · exact hQ _ _ _ _ hsock' h'
  have hsend : ∀ st' p' short', st'.sockfd = sock → Sound (n.starved || short') p' st' →
      Proc.wp (net l) (do
        if (← get).sockfd ∈ writable then
          let err ← streamSend srv.now
          if err ≠ SB_ESUCCESS then return err
        if overdue srv (← get) then streamClose
        return SB_ESUCCESS) Q st' (n.put sock p' short') := by
    intro st' p' short' hsock' h'
    rw [Proc.wp_bind, Proc.wp_get]
    split
    · rw [Proc.wp_bind]
      apply wp_streamSend hsock' h'
      intro err st'' p'' short'' hsock'' h''
      split
      · exact hQ _ _ _ _ hsock'' h''
      · exact hend st'' p'' short'' hsock'' h''
    · exact hend st' p' short' hsock' h'
  rw [pollStream, Proc.wp_bind, Proc.wp_get]
  split
  · rename_i hmem
    rw [Proc.wp_bind]
    apply wp_streamRecv hsock h (hreadable (hsock ▸ hmem))
    intro err st' p' short' hsock' h'
    split
    · exact hQ _ _ _ _ hsock' h'
    · exact hsend st' p' short' hsock' h'
  · exact hsend st p short hsock h

end

end Sb

end HiveSdk
