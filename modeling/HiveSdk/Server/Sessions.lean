import HiveSdk.Interaction.Replay
import HiveSdk.Server.Rounds

/-!
# Sessions of the server

A session is any number of rounds, with any outcome, and the end of the server. What is proved here holds for every handler, for every way in which the network cuts and orders what is sent, and for any number of connections at the same time: what the handler and the other sides see of a connection does not depend on the other connections.
-/

namespace HiveSdk

open Interaction

namespace Sb

/-- The loop of `get_authorize_code` with some number of rounds, and what follows it. -/
def session (rounds : Nat) : Serving Unit := do
  pollRounds rounds
  closeServer

section
variable {srv srv' : Server} {n : Net} {rounds : Nat} {tr : List (Entry Call Call.Answer)}

theorem running_init (hnew : srv.streams = []) : Running srv.sockfd .init srv.streams := by
  rw [hnew]
  exact ⟨List.nodup_nil, by simp, fun sock hopen => absurd rfl hopen, by simp, by simp, by simp [Net.init], rfl⟩

theorem running_of_run (hnew : srv.streams = []) (hrun : Run (pollRounds rounds srv) tr ((), srv'))
    (hacc : (net srv.sockfd).Accepts .init tr n) : Running srv.sockfd n srv'.streams := by
  have hspec : Proc.wp (net srv.sockfd) (pollRounds rounds) (fun _ srv' n => Running srv.sockfd n srv'.streams)
      srv .init := wp_pollRounds (running_init hnew) fun _ _ hrunning _ => hrunning
  have hrunning := Prog.wp_run hspec hrun hacc
  exact hrunning

theorem wp_session (hnew : srv.streams = []) : Proc.wp (net srv.sockfd) (session rounds)
    (fun _ _ n => (∀ sock, n.peers sock = none) ∧ n.listening = false ∧ ∀ p ∈ n.past, Finished n.starved p) srv .init := by
  rw [session, Proc.wp_bind]
  refine wp_pollRounds (running_init hnew) fun srv' n hrunning hsame => ?_
  rw [← hsame] at hrunning ⊢
  exact wp_closeServer hrunning fun n' hnone hlistening hpast => ⟨hnone, hlistening, hpast⟩

/-! ### The order of the calls -/

/-- Every call of every session is one that may be made when it is made. No descriptor is used before it has been accepted or after it has been given back; the handler is told of a connection before anything else, of at most one request on it, and of its end before the descriptor is given back, and of nothing after that. At the end everything is closed. -/
theorem server_orderly (hnew : srv.streams = []) (rounds : Nat) :
    (∀ tr e k n, Steps (session rounds srv) tr (.ask e k) → (net srv.sockfd).Accepts .init tr n →
      (net srv.sockfd).pre n e)
    ∧ ∀ tr srv' n, Run (session rounds srv) tr ((), srv') → (net srv.sockfd).Accepts .init tr n →
      (∀ sock, n.peers sock = none) ∧ n.listening = false
        ∧ ∀ p ∈ n.past, (p.announced = true → p.dismissed = true) ∧ p.requests.length ≤ 1 := by
  constructor
  · intro tr e k n hsteps hacc
    exact Prog.wp_steps (wp_session hnew) hsteps hacc
  · intro tr srv' n hrun hacc
    have hend := Prog.wp_run (wp_session hnew) hrun hacc
    obtain ⟨hnone, hlistening, hpast⟩ := hend
    exact ⟨hnone, hlistening, fun p hp => ⟨(hpast p hp).dismissed, (hpast p hp).single⟩⟩

/-! A visit: one connection, a request that comes in two pieces, and a handler that answers with a status. -/

def demoServer : Server := ⟨[], 3, 0, 30000, 0, 0⟩

def growing (sizes : List Nat) : List (Entry Call Call.Answer) := sizes.map fun size => ⟨.realloc size, true⟩

def arrival (pieces : List Bytes) : List (Entry Call Call.Answer) :=
  [⟨.select [3] [], ([3], [])⟩, ⟨.time, (0 : Int)⟩, ⟨.backlog, (1 : Nat)⟩, ⟨.accept, (5 : Nat)⟩, ⟨.malloc, true⟩,
    ⟨.handle 5 .connect, ⟨[], SB_RES_OK⟩⟩, ⟨.select [3, 5] [], ([5], [])⟩, ⟨.time, (0 : Int)⟩,
    ⟨.recv 5, (pieces, RecvEnd.wouldBlock)⟩]

/-- The text makes the one buffer grow, and the answer the other. -/
def visit (pieces : List Bytes) (sizes : List Nat) (notice : Notice) (reply : HandlerReply) : List (Entry Call Call.Answer) :=
  arrival pieces ++ growing sizes ++ [⟨.handle 5 notice, reply⟩] ++ growing [1, 2, 4, 8, 16, 32]

def visitor (pieces : List Bytes) (notice : Notice) (reply : HandlerReply) : Peer :=
  (⟨true, false, pieces.flatten, [], [], [], []⟩ : Peer).notified notice reply.outputs

theorem accepts_growing {l : Socket} (n : Net) (sizes : List Nat) : (net l).Accepts n (growing sizes) n := by
  induction sizes with
  | nil => exact .nil n
  | cons size sizes ih =>
      have hstep : (net l).step n (.realloc size) true n := by
        change n = { n with starved := n.starved || false }
        rw [Bool.or_false]
      exact .cons hstep ih

theorem arrival_accepted (pieces : List Bytes) :
    (net 3).Accepts .init (arrival pieces) (Net.init.put 5 ⟨true, false, pieces.flatten, [], [], [], []⟩ false) := by
  refine .cons ⟨by simp, by simp, rfl⟩ <| .cons rfl <| .cons rfl <| .cons ⟨by decide, rfl, rfl⟩ <| .cons rfl <|
    .cons ⟨.new, Net.put_self, rfl⟩ <| .cons ⟨by simp, by simp, rfl⟩ <| .cons rfl <| .cons ⟨_, Net.put_self, rfl⟩ ?_
  rw [Net.put_put, Net.put_put]
  exact .nil _

theorem visit_accepted (pieces : List Bytes) (sizes : List Nat) (notice : Notice) (reply : HandlerReply) :
    (net 3).Accepts .init (visit pieces sizes notice reply) (Net.init.put 5 (visitor pieces notice reply) false) := by
  have hrequest : ∀ p, (net 3).Accepts (Net.init.put 5 p false) [⟨.handle 5 notice, reply⟩]
      (Net.init.put 5 (p.notified notice reply.outputs) false) := by
    intro p
    refine .cons ⟨p, Net.put_self, rfl⟩ ?_
    rw [Net.put_put]
    exact .nil _
  exact World.accepts_append_iff.2 ⟨_, World.accepts_append_iff.2 ⟨_, World.accepts_append_iff.2
    ⟨_, arrival_accepted pieces, accepts_growing _ _⟩, hrequest _⟩, accepts_growing _ _⟩

/-- No other connection is seen. -/
theorem eq_visitor {p q : Peer} (h : (Net.init.put 5 p false).Seen q) : q = p := by
  rcases h with hpast | ⟨sock, hpeer⟩
  · cases hpast
  · by_cases hsock : sock = 5
    · subst hsock
      exact (Option.some.inj (Net.put_self.symm.trans hpeer)).symm
    · rw [Net.put_of_ne hsock] at hpeer
      cases hpeer

def demoPieces : List Bytes := [bytes "GET / HT", bytes "TP/1.1\r\n\r\n"]

def demoNotice : Notice := .request (bytes "GET") (bytes "/") ⟨demoPieces.flatten, 0⟩

def demoAnswer : HandlerReply := ⟨[.sendStatus 200 (bytes "OK")], SB_RES_OK⟩

def demoRounds : List (Entry Call Call.Answer) := visit demoPieces [1, 2, 4, 8, 16, 32] demoNotice demoAnswer

def demoPeer : Peer := visitor demoPieces demoNotice demoAnswer

theorem demoRounds_accepted : (net 3).Accepts .init demoRounds (Net.init.put 5 demoPeer false) := visit_accepted ..

/-- The network takes a part of the status line. -/
def sending : List (Entry Call Call.Answer) :=
  [⟨.select [3] [5], ([], [5])⟩, ⟨.time, (0 : Int)⟩, ⟨.send 5 (statusLine 200 (bytes "OK")), SendReply.sent 4⟩]

def Peer.greeted (p : Peer) : Peer := { p with sent := p.sent ++ (statusLine 200 (bytes "OK")).take 4 }

theorem sending_accepted (p : Peer) :
    (net 3).Accepts (Net.init.put 5 p false) sending (Net.init.put 5 p.greeted false) := by
  refine .cons ⟨by simp, by simp, rfl⟩ <| .cons rfl <| .cons ⟨p, Net.put_self, by decide, rfl⟩ ?_
  rw [Net.put_put]
  exact .nil _

def demoClosing : List (Entry Call Call.Answer) :=
  [⟨.handle 5 .close, ⟨[], SB_RES_OK⟩⟩, ⟨.close 5, ()⟩, ⟨.close 3, ()⟩]

theorem demoRounds_run : ∃ srv', Run (pollRounds 2 demoServer) demoRounds ((), srv') := by
  have hsome : ((pollRounds 2 demoServer).replay demoRounds).isSome = true := by decide +kernel
  obtain ⟨⟨_, srv'⟩, hreplay⟩ := Option.isSome_iff_exists.1 hsome
  exact ⟨srv', Prog.run_of_replay hreplay⟩

theorem demoClosing_accepted (p : Peer) : ∃ n, (net 3).Accepts (Net.init.put 5 p false) demoClosing n :=
  ⟨_, .cons ⟨p, Net.put_self, rfl⟩ <| .cons ⟨_, Net.put_self, rfl⟩ <| .cons rfl <| .nil _⟩

theorem demoVisit_orderly : ∃ n, Run (session 2 demoServer) (demoRounds ++ demoClosing) ((), demoServer)
    ∧ (net 3).Accepts .init (demoRounds ++ demoClosing) n
    ∧ (∀ sock, n.peers sock = none) ∧ n.listening = false
    ∧ ∀ p ∈ n.past, (p.announced = true → p.dismissed = true) ∧ p.requests.length ≤ 1 := by
  obtain ⟨n, hclosing⟩ := demoClosing_accepted demoPeer
  have hacc := World.accepts_append_iff.2 ⟨_, demoRounds_accepted, hclosing⟩
  have hrun : Run (session 2 demoServer) (demoRounds ++ demoClosing) ((), demoServer) :=
    Prog.run_of_replay (by decide +kernel)
  exact ⟨n, hrun, hacc, (server_orderly rfl 2).2 _ _ n hrun hacc⟩

/-! ### Requests -/

theorem Running.read {streams : List Stream} {l : Socket} {p : Peer} (h : Running l n streams) (hfed : n.starved = false)
    (hseen : n.Seen p) : p.requests = requestsIn p.received ∧ progress p.received ≠ .hangs := by
  rcases hseen with hpast | ⟨sock, hpeer⟩
  · exact (h.past p hpast).read hfed
  · obtain ⟨st, hst, rfl⟩ := h.known sock (by simp [hpeer])
    obtain ⟨q, hq, hsound⟩ := h.sound st hst
    obtain rfl := Option.some.inj (hpeer.symm.trans hq)
    exact hsound.read hfed

theorem Running.response {streams : List Stream} {l : Socket} {p : Peer} (h : Running l n streams) (hseen : n.Seen p) :
    ∃ files state r, Composed n.starved p.items files state r ∧ files <+: p.files ∧ p.sent <+: r.text := by
  rcases hseen with hpast | ⟨sock, hpeer⟩
  · exact (h.past p hpast).response
  · obtain ⟨st, hst, rfl⟩ := h.known sock (by simp [hpeer])
    obtain ⟨q, hq, hsound⟩ := h.sound st hst
    obtain rfl := Option.some.inj (hpeer.symm.trans hq)
    obtain ⟨state, r, hcomposed, hholds⟩ := hsound.answers
    exact ⟨p.files, state, r, hcomposed, List.prefix_rfl, hholds.text ▸ List.prefix_append _ _⟩

/-- As long as there is memory, the handler is given the request that a connection's text begins with, as soon as it is complete, and nothing else: how the network has cut the text into pieces, and in how many rounds they have been received, does not matter. -/
theorem requests_are_read (hnew : srv.streams = []) (hrun : Run (pollRounds rounds srv) tr ((), srv'))
    (hacc : (net srv.sockfd).Accepts .init tr n) (hfed : n.starved = false) {p : Peer} (hseen : n.Seen p) :
    p.requests = requestsIn p.received := ((running_of_run hnew hrun hacc).read hfed hseen).1

theorem demo_request_is_read : demoPeer.requests = requestsIn demoPieces.flatten := by
  obtain ⟨srv', hrun⟩ := demoRounds_run
  exact requests_are_read rfl hrun demoRounds_accepted rfl (.inr ⟨5, Net.put_self⟩)

/-! ### Responses -/

/-- What has been sent on a connection is the beginning of one response, the one that the handler has written: a status line, header lines, a blank line and a body, with nothing lost, repeated or out of order. What is missing waits in the buffer of the connection. As long as there is memory, each function that the handler calls in time is carried out whole, and each other one not at all. -/
theorem responses_are_written (hnew : srv.streams = []) (hrun : Run (pollRounds rounds srv) tr ((), srv'))
    (hacc : (net srv.sockfd).Accepts .init tr n) :
    (∀ p ∈ n.past, ∃ files state r, Composed n.starved p.items files state r ∧ files <+: p.files ∧ p.sent <+: r.text)
    ∧ ∀ sock p, n.peers sock = some p → ∃ st ∈ srv'.streams, st.sockfd = sock
      ∧ ∃ state r, Composed n.starved p.items p.files state r ∧ p.sent ++ st.sendBuf.data = r.text
        ∧ r.Matches st.state := by
  have h := running_of_run hnew hrun hacc
  refine ⟨fun p hp => (h.past p hp).response, fun sock p hpeer => ?_⟩
  obtain ⟨st, hst, rfl⟩ := h.known sock (by simp [hpeer])
  obtain ⟨q, hq, hsound⟩ := h.sound st hst
  obtain rfl := Option.some.inj (hpeer.symm.trans hq)
  obtain ⟨state, r, hcomposed, hholds⟩ := hsound.answers
  exact ⟨st, hst, rfl, state, r, hcomposed, hholds.text, hholds.state⟩

theorem demo_response_is_written : ∃ srv' : Server, ∃ st ∈ srv'.streams, st.sockfd = 5
    ∧ ∃ state r, Composed false demoPeer.items demoPeer.files state r ∧ demoPeer.greeted.sent ++ st.sendBuf.data = r.text
      ∧ r.Matches st.state := by
  have hsome : ((pollRounds 3 demoServer).replay (demoRounds ++ sending)).isSome = true := by decide +kernel
  obtain ⟨⟨_, srv'⟩, hreplay⟩ := Option.isSome_iff_exists.1 hsome
  have hacc := World.accepts_append_iff.2 ⟨_, demoRounds_accepted, sending_accepted demoPeer⟩
  exact ⟨srv', (responses_are_written rfl (Prog.run_of_replay hreplay) hacc).2 5 demoPeer.greeted Net.put_self⟩

/-! ### Where the server does not come back -/

/-- A single client can stop the server for good, with a carriage return that no line feed follows in a line of the header. Nothing else makes it loop without end, and it never gets past such a header. -/
theorem server_stalls (hnew : srv.streams = []) (rounds : Nat) :
    (∀ tr k n, Steps (session rounds srv) tr (.ask .diverge k) → (net srv.sockfd).Accepts .init tr n →
      n.starved = false → ∃ sock p, n.peers sock = some p ∧ Stalling p.received)
    ∧ ∀ tr srv' n, Run (pollRounds rounds srv) tr ((), srv') → (net srv.sockfd).Accepts .init tr n →
      n.starved = false → ∀ p, n.Seen p → ¬ Stalling p.received := by
  constructor
  · intro tr k n hsteps hacc hfed
    have hpre := Prog.wp_steps (wp_session hnew) hsteps hacc
    rcases hpre with hstarved | ⟨sock, p, hpeer, hhangs⟩
    · exact absurd (hstarved.symm.trans hfed) (by decide)
    · exact ⟨sock, p, hpeer, progress_hangs_iff.1 hhangs⟩
  · intro tr srv' n hrun hacc hfed p hseen hstalling
    exact ((running_of_run hnew hrun hacc).read hfed hseen).2 (progress_hangs_iff.2 hstalling)

/-- A line of a header with a lone carriage return. -/
def stuckPieces : List Bytes := [bytes "a\rb\r\n\r\n"]

private theorem stuck_steps : ∃ k, Steps (session 2 demoServer) (arrival stuckPieces ++ growing [1, 2, 4, 8])
    (.ask .diverge k) := Prog.steps_of_nextCall (by decide +kernel)

theorem demo_stalls : Stalling stuckPieces.flatten ∧ ¬ Stalling demoPieces.flatten := by
  obtain ⟨k, hsteps⟩ := stuck_steps
  have hacc := World.accepts_append_iff.2 ⟨_, arrival_accepted stuckPieces, accepts_growing _ [1, 2, 4, 8]⟩
  obtain ⟨sock, p, hpeer, hstalling⟩ := (server_stalls rfl 2).1 _ k _ hsteps hacc rfl
  rw [eq_visitor (.inr ⟨sock, hpeer⟩)] at hstalling
  obtain ⟨srv', hrun⟩ := demoRounds_run
  exact ⟨hstalling,
    (server_stalls rfl 2).2 _ srv' _ hrun demoRounds_accepted rfl demoPeer (.inr ⟨5, Net.put_self⟩)⟩

theorem pollServer_undefined {st : Stream} (hst : st ∈ srv.streams) (hlarge : st.sockfd ≥ FD_SETSIZE) :
    ∃ k, pollServer srv = .ask .undefined k := by
  have hset : ∃ sockfd ∈ (srv.sockfd :: (srv.streams.filter fun st => ¬ isSending st).map (·.sockfd))
      ++ (srv.streams.filter isSending).map (·.sockfd), sockfd ≥ FD_SETSIZE := by
    refine ⟨st.sockfd, ?_, hlarge⟩
    cases hsending : isSending st with
    | true => exact List.mem_append_right _ (List.mem_map_of_mem (List.mem_filter.2 ⟨hst, hsending⟩))
    | false =>
        apply List.mem_append_left
        apply List.mem_cons_of_mem
        exact List.mem_map_of_mem (List.mem_filter.2 ⟨hst, by simp [hsending]⟩)
  have hselect : selectStreams srv = (ite (∃ sockfd ∈ _, sockfd ≥ FD_SETSIZE) _ _ : Serving (List Socket × List Socket)) srv := rfl
  rw [if_pos hset] at hselect
  exact ⟨_, congrArg (Prog.bind · _) hselect⟩

/-- The check of the descriptor is off by one: the one that equals `FD_SETSIZE` is let through, and the next round sets a bit behind the end of the set. With every other descriptor the sets are large enough. -/
theorem descriptor_off_by_one (hnew : srv.streams = []) (hsmall : srv.sockfd < FD_SETSIZE) (rounds : Nat) :
    (∀ tr k n, Steps (session rounds srv) tr (.ask .undefined k) → (net srv.sockfd).Accepts .init tr n →
      n.peers FD_SETSIZE ≠ none)
    ∧ ∀ tr srv' n, Run (pollRounds rounds srv) tr ((), srv') → (net srv.sockfd).Accepts .init tr n →
      (∀ sock, n.peers sock ≠ none → sock ≤ FD_SETSIZE)
      ∧ (n.peers FD_SETSIZE ≠ none → ∃ k, pollServer srv' = .ask .undefined k) := by
  constructor
  · intro tr k n hsteps hacc
    have hpre := Prog.wp_steps (wp_session hnew) hsteps hacc
    rcases hpre with hlarge | hopen
    · exact absurd hlarge (Nat.not_le.2 hsmall)
    · exact hopen
  · intro tr srv' n hrun hacc
    have hrunning := running_of_run hnew hrun hacc
    constructor
    · intro sock hopen
      obtain ⟨st, hst, rfl⟩ := hrunning.known sock hopen
      exact hrunning.small st hst
    · intro hopen
      obtain ⟨st, hst, hsock⟩ := hrunning.known FD_SETSIZE hopen
      exact pollServer_undefined hst hsock.ge

/-! A connection whose descriptor is the first that does not fit. -/

def demoLarge : List (Entry Call Call.Answer) :=
  [⟨.select [3] [], ([3], [])⟩, ⟨.time, (0 : Int)⟩, ⟨.backlog, (1 : Nat)⟩, ⟨.accept, FD_SETSIZE⟩, ⟨.malloc, true⟩,
    ⟨.handle FD_SETSIZE .connect, ⟨[], SB_RES_OK⟩⟩]

theorem demoLarge_undefined : ∃ srv' k, Run (pollRounds 1 demoServer) demoLarge ((), srv')
    ∧ pollServer srv' = .ask .undefined k := by
  have hsome : ((pollRounds 1 demoServer).replay demoLarge).isSome = true := by decide +kernel
  obtain ⟨⟨_, srv'⟩, hreplay⟩ := Option.isSome_iff_exists.1 hsome
  have hrun := Prog.run_of_replay hreplay
  have hacc : (net 3).Accepts .init demoLarge
      (Net.init.put FD_SETSIZE ⟨true, false, [], [], [], [], []⟩ false) := by
    refine .cons ⟨by simp, by simp, rfl⟩ <| .cons rfl <| .cons rfl <| .cons ⟨by decide, rfl, rfl⟩ <| .cons rfl <|
      .cons ⟨.new, Net.put_self, rfl⟩ ?_
    rw [Net.put_put]
    exact .nil _
  have hopen : (Net.init.put FD_SETSIZE ⟨true, false, [], [], [], [], []⟩ false).peers FD_SETSIZE ≠ none := by simp
  obtain ⟨k, hk⟩ := ((descriptor_off_by_one rfl (by decide) 1).2 _ srv' _ hrun hacc).2 hopen
  exact ⟨srv', k, hrun, hk⟩

end

end Sb

end HiveSdk
