import HiveSdk.Server.Streams
import Mathlib.Data.List.Nodup

/-!
# Rounds of the server

All connections of the server at the same time, through any number of rounds and whatever the rounds return: a round that fails leaves the connections it has not come to for the next one. Every open descriptor belongs to exactly one connection of the list, so none is lost, and none is used after it has been given back.
-/

namespace HiveSdk

open Interaction

namespace Sb

structure Running (l : Socket) (n : Net) (streams : List Stream) : Prop where
  distinct : (streams.map (·.sockfd)).Nodup
  sound : ∀ st ∈ streams, ∃ p, n.peers st.sockfd = some p ∧ Sound n.starved p st
  known : ∀ sock, n.peers sock ≠ none → ∃ st ∈ streams, st.sockfd = sock
  small : ∀ st ∈ streams, st.sockfd ≤ FD_SETSIZE
  others : ∀ st ∈ streams, st.sockfd ≠ l
  past : ∀ p ∈ n.past, Finished n.starved p
  listening : n.listening = true

theorem Finished.mono {starved starved' : Bool} {p : Peer} (h : Finished starved p) (hle : starved ≤ starved') :
    Finished starved' p where
  dismissed := h.dismissed
  single := h.single
  response := by
    obtain ⟨files, state, r, hcomposed, hresponse⟩ := h.response
    exact ⟨files, state, r, hcomposed.mono hle, hresponse⟩
  read := fun hfed => h.read (Bool.eq_false_of_le_false (hfed ▸ hle))

namespace Running

variable {l sock : Socket} {n : Net} {p : Peer} {short : Bool} {st st' : Stream} {before later streams : List Stream}

/-- A connection is not one of the others. -/
theorem ne_of_mem (h : Running l n (before ++ st :: later)) {other : Stream} (hother : other ∈ before ++ later) :
    other.sockfd ≠ st.sockfd := by
  have hdistinct := h.distinct
  rw [List.map_append, List.map_cons, List.nodup_middle, List.nodup_cons, ← List.map_append] at hdistinct
  intro heq
  exact hdistinct.1 (heq ▸ List.mem_map_of_mem hother)

theorem mem_or {other : Stream} (h : other ∈ before ++ st :: later) : other = st ∨ other ∈ before ++ later := by
  rw [List.mem_append, List.mem_cons] at h
  rw [List.mem_append]
  rcases h with h | rfl | h
  · exact .inr (.inl h)
  · exact .inl rfl
  · exact .inr (.inr h)

theorem mem_of_others {other : Stream} (h : other ∈ before ++ later) : other ∈ before ++ st :: later := by
  rw [List.mem_append] at h
  rw [List.mem_append, List.mem_cons]
  rcases h with h | h
  · exact .inl h
  · exact .inr (.inr h)

/-- The others stay sound whatever becomes of one of them. -/
theorem sound_others (h : Running l n (before ++ st :: later)) (p' : Peer) (short' : Bool) {other : Stream}
    (hother : other ∈ before ++ later) : ∃ p, (n.put st.sockfd p' short').peers other.sockfd = some p
      ∧ Sound (n.starved || short') p other := by
  obtain ⟨p, hp, hsound⟩ := h.sound other (mem_of_others hother)
  refine ⟨p, ?_, hsound.mono (Bool.left_le_or _ _)⟩
  rw [Net.put_of_ne (h.ne_of_mem hother)]
  exact hp

/-- One connection has been worked on. -/
theorem update (h : Running l n (before ++ st :: later)) {p' : Peer} (hsock : st'.sockfd = st.sockfd)
    (hsound : Sound (n.starved || short) p' st') : Running l (n.put st.sockfd p' short) (before ++ st' :: later) := by
  have hsame : (before ++ st' :: later).map (·.sockfd) = (before ++ st :: later).map (·.sockfd) := by simp [hsock]
  have hpeers : ∀ sock, (n.put st.sockfd p' short).peers sock ≠ none → sock ∈ (before ++ st :: later).map (·.sockfd) := by
    intro sock hopen
    by_cases hown : sock = st.sockfd
    · subst hown
      exact List.mem_map_of_mem (by simp)
    · rw [Net.put_of_ne hown] at hopen
      obtain ⟨other, hmem, rfl⟩ := h.known sock hopen
      exact List.mem_map_of_mem hmem
  have hall : ∀ (P : Socket → Prop), (∀ other ∈ before ++ st :: later, P other.sockfd) →
      ∀ other ∈ before ++ st' :: later, P other.sockfd := by
    intro P hP other hother
    rcases mem_or hother with rfl | hmem
    · rw [hsock]
      exact hP st (by simp)
    · exact hP other (mem_of_others hmem)
  refine ⟨hsame ▸ h.distinct, fun other hother => ?_, fun sock hopen => ?_, hall (· ≤ FD_SETSIZE) h.small,
    hall (· ≠ l) h.others, fun q hq => (h.past q hq).mono (Bool.left_le_or _ _), h.listening⟩
  · rcases mem_or hother with rfl | hmem
    · rw [hsock]
      exact ⟨p', Net.put_self, hsound⟩
    · exact h.sound_others p' short hmem
  · have hmem := hpeers sock hopen
    rw [← hsame] at hmem
    obtain ⟨other, hother, heq⟩ := List.mem_map.1 hmem
    exact ⟨other, hother, heq⟩

/-- One connection has been closed. -/
theorem remove (h : Running l n (before ++ st :: later)) {p' : Peer} (hfinished : Finished (n.starved || short) p') :
    Running l ((n.put st.sockfd p' short).close st.sockfd p') (before ++ later) := by
  have hpeers : ∀ sock, sock ≠ st.sockfd →
      ((n.put st.sockfd p' short).close st.sockfd p').peers sock = n.peers sock := by
    intro sock hne
    rw [Net.close_of_ne hne, Net.put_of_ne hne]
  refine ⟨?_, fun other hother => ?_, fun sock hopen => ?_, fun other hother => h.small other (mem_of_others hother),
    fun other hother => h.others other (mem_of_others hother), fun q hq => ?_, h.listening⟩
  · have hdistinct := h.distinct
    rw [List.map_append, List.map_cons, List.nodup_middle, List.nodup_cons, ← List.map_append] at hdistinct
    exact hdistinct.2
  · obtain ⟨q, hq, hsound⟩ := h.sound_others p' short hother
    refine ⟨q, ?_, hsound⟩
    rw [hpeers _ (h.ne_of_mem hother)]
    rwa [Net.put_of_ne (h.ne_of_mem hother)] at hq
  · have hne : sock ≠ st.sockfd := by
      rintro rfl
      exact hopen (Function.update_self ..)
    rw [hpeers sock hne] at hopen
    obtain ⟨other, hmem, rfl⟩ := h.known sock hopen
    rcases mem_or hmem with rfl | hmem
    · exact absurd rfl hne
    · exact ⟨other, hmem, rfl⟩
  · rcases List.mem_append.1 hq with hq | hq
    · exact (h.past q hq).mono (Bool.left_le_or _ _)
    · rw [List.mem_singleton.1 hq]
      exact hfinished

/-- A connection has come in. -/
theorem add (h : Running l n streams) (hfree : n.peers sock = none) (hne : sock ≠ l) (hsmall : sock ≤ FD_SETSIZE)
    (hsock : st.sockfd = sock) (hsound : Sound (n.starved || short) p st) :
    Running l (n.put sock p short) (st :: streams) := by
  have hother : ∀ other ∈ streams, other.sockfd ≠ sock := by
    intro other hmem heq
    obtain ⟨q, hq, -⟩ := h.sound other hmem
    rw [heq, hfree] at hq
    cases hq
  refine ⟨?_, ?_, fun other hopen => ?_, ?_, ?_, fun q hq => (h.past q hq).mono (Bool.left_le_or _ _), h.listening⟩
  · rw [List.map_cons, List.nodup_cons]
    refine ⟨fun hmem => ?_, h.distinct⟩
    obtain ⟨other, hmem, heq⟩ := List.mem_map.1 hmem
    exact hother other hmem (heq.trans hsock)
  · rw [List.forall_mem_cons]
    refine ⟨⟨p, by rw [hsock]; exact Net.put_self, hsound⟩, fun other hmem => ?_⟩
    obtain ⟨q, hq, hsound'⟩ := h.sound other hmem
    exact ⟨q, by rwa [Net.put_of_ne (hother other hmem)], hsound'.mono (Bool.left_le_or _ _)⟩
  · by_cases hown : other = sock
    · exact ⟨st, List.mem_cons_self, hsock.trans hown.symm⟩
    · rw [Net.put_of_ne hown] at hopen
      obtain ⟨st', hmem, heq⟩ := h.known other hopen
      exact ⟨st', List.mem_cons_of_mem _ hmem, heq⟩
  · rw [List.forall_mem_cons, hsock]
    exact ⟨hsmall, h.small⟩
  · rw [List.forall_mem_cons, hsock]
    exact ⟨hne, h.others⟩

/-- A connection has come in that could not be kept. -/
theorem refuse (h : Running l n streams) (hfree : n.peers sock = none) :
    Running l ((n.put sock .new false).close sock .new) streams := by
  have hpeers : ((n.put sock .new false).close sock .new).peers = n.peers := by
    rw [Net.close, Net.put, Function.update_idem, ← hfree, Function.update_eq_self]
  have hstarved : ((n.put sock .new false).close sock .new).starved = n.starved := Bool.or_false _
  refine ⟨h.distinct, ?_, ?_, h.small, h.others, ?_, h.listening⟩
  · rw [hpeers, hstarved]
    exact h.sound
  · rw [hpeers]
    exact h.known
  · rw [hstarved]
    intro q hq
    rcases List.mem_append.1 hq with hq | hq
    · exact h.past q hq
    · rw [List.mem_singleton.1 hq]
      exact ⟨fun hannounced => absurd hannounced (by decide), by simp [Peer.new],
        ⟨[], _, .none, .nil, List.nil_prefix, List.nil_prefix⟩,
        fun _ => ⟨requestsIn_nil.symm, by simp [Peer.new, progress_nil]⟩⟩

end Running

/-! ### The functions of the server -/

section
variable {l : Socket} {n : Net} {srv : Server}

@[simp] theorem wp_withStream {α : Type} {W : World Call Call.Answer Net} {st : Stream} {m : Conn α}
    {Q : α × Stream → Server → Net → Prop} :
    Proc.wp W (withStream st m) Q srv n ↔ Proc.wp W m (fun a st' n' => Q (a, st') srv n') st n :=
  Prog.wp_bind_iff (m st) _ _

@[simp] theorem wp_setStreams {streams : List Stream} {Q : Unit → Server → Net → Prop} :
    Proc.wp (net l) (setStreams streams) Q srv n ↔ Q () { srv with streams := streams } n := Iff.rfl

theorem wp_pollStreams {readable writable : List Socket} {before streams : List Stream}
    {Q : Int × List Stream → Server → Net → Prop} (h : Running l n (before ++ streams))
    (hreadable : ∀ st ∈ streams, st.sockfd ∈ readable → isSending st = false)
    (hQ : ∀ err streams' n', Running l n' (before ++ streams') → Q (err, streams') srv n') :
    Proc.wp (net l) (pollStreams readable writable streams) Q srv n := by
  induction streams generalizing before n Q with
  | nil => exact hQ _ _ _ h
  | cons st rest ih =>
      obtain ⟨p, hp, hsound⟩ := h.sound st (by simp)
      have hn : n.put st.sockfd p false = n := Net.put_eq_self hp
      rw [pollStreams, Proc.wp_bind, Proc.wp_get, Proc.wp_bind, wp_withStream, ← hn]
      apply wp_pollStream rfl (by rwa [Bool.or_false]) (hreadable st (by simp))
      intro err st₁ p₁ short₁ hsock₁ hsound₁
      have hrunning := h.update hsock₁ hsound₁
      have hrest : ∀ other ∈ rest, other.sockfd ∈ readable → isSending other = false :=
        fun other hmem => hreadable other (List.mem_cons_of_mem _ hmem)
      dsimp only
      split
      · exact hQ _ _ _ hrunning
      · split
        · rw [Proc.wp_bind, wp_withStream]
          refine wp_streamDestroy hsock₁ ?_ hsound₁ ?_
          · rw [← hsock₁]
            exact hrunning.others st₁ (by simp)
          intro st₂ p₂ short₂ _ hfinished
          exact ih (h.remove hfinished) hrest hQ
        · rw [Proc.wp_bind]
          have hnext : Running l (n.put st.sockfd p₁ short₁) (before ++ [st₁] ++ rest) := by
            rw [List.append_assoc]
            exact hrunning
          refine ih hnext hrest fun err' streams' n' hrunning' => ?_
          rw [List.append_assoc] at hrunning'
          exact hQ err' (st₁ :: streams') n' hrunning'

/-- A connection that the handler has been told of waits for a request. -/
theorem sound_new {sock : Socket} {st : Stream} {now : Int} {starved : Bool} {outputs : List Output}
    {files : List (Option Nat)} (hframe : (streamNew now sock).Frame st)
    (hanswers : Answers starved ((Peer.new.notified .connect outputs).opened files) st) :
    Sound starved ((Peer.new.notified .connect outputs).opened files) st where
  served := ⟨rfl, rfl⟩
  answers := hanswers
  fresh := fun _ => rfl
  single := Nat.zero_le _
  read := fun _ => ⟨requestsIn_nil.symm, by simp [Peer.opened, Peer.notified, Peer.new, progress_nil]⟩
  waiting := fun _ _ => by
    have hprogress : progress ((Peer.new.notified .connect outputs).opened files).received = .header := progress_nil
    refine ⟨by rw [hframe.recvBuf]; rfl, ?_⟩
    rw [hprogress]
    exact ⟨hframe.receiving rfl, hframe.expectedRecvLen, hframe.dataIdx⟩

theorem wp_accept {Q : Socket → Server → Net → Prop} (h : n.listening = true)
    (hQ : ∀ sock, sock ≠ l → n.peers sock = none → Q sock srv (n.put sock .new false)) :
    Proc.wp (net l) (call Call.accept) Q srv n := by
  rw [Proc.wp_call]
  refine ⟨h, fun sock n' hstep => ?_⟩
  obtain ⟨hne, hfree, rfl⟩ := hstep
  exact hQ sock hne hfree

theorem wp_malloc {S : Type} {st : S} {Q : Bool → S → Net → Prop} (hQ : ∀ ok, Q ok st n) :
    Proc.wp (net l) (call Call.malloc) Q st n := by
  rw [Proc.wp_call]
  refine ⟨trivial, fun ok n' hstep => ?_⟩
  rw [show n' = n from hstep]
  exact hQ ok

theorem wp_acceptStreams {count : Nat} {Q : Int → Server → Net → Prop} (h : Running l n srv.streams)
    (hQ : ∀ err srv' n', Running l n' srv'.streams → srv'.sockfd = srv.sockfd → Q err srv' n') :
    Proc.wp (net l) (acceptStreams count) Q srv n := by
  induction count generalizing srv n with
  | zero => exact hQ _ _ _ h rfl
  | succ count ih =>
      rw [acceptStreams, Proc.wp_bind]
      apply wp_accept h.listening
      intro sock hne hfree
      have hrefused : ∀ err, Proc.wp (net l) (do
          call (Call.close sock)
          return err) Q srv (n.put sock .new false) := by
        intro err
        rw [Proc.wp_bind]
        apply wp_close hne (fun hannounced => absurd hannounced (by decide))
        exact hQ _ _ _ (h.refuse hfree) rfl
      split
      · exact hrefused _
      · rename_i hsmall
        rw [Proc.wp_bind]
        apply wp_malloc
        intro ok
        cases ok with
        | false => exact hrefused _
        | true =>
            simp only [Bool.not_true, Bool.false_eq_true, if_false]
            rw [Proc.wp_bind, Proc.wp_get, Proc.wp_bind, wp_withStream]
            have hawaits : Peer.new.Awaits .connect := rfl
            have hholds : (streamNew srv.now sock).Holds Peer.new.sent .none :=
              ⟨rfl, by simp [Response.Matches, streamNew], fun hfile => absurd hfile Bool.false_ne_true⟩
            refine wp_streamEmit rfl hawaits hholds fun err st outputs files r short _ hframe hwrites hholds' => ?_
            have hanswers : Answers (n.starved || short) ((Peer.new.notified .connect outputs).opened files) st :=
              ⟨st.state, r, Composed.nil.writes hwrites, hholds'⟩
            have hadd : ∀ st' : Stream, st'.sockfd = sock →
                Sound (n.starved || short) ((Peer.new.notified .connect outputs).opened files) st' →
                Proc.wp (net l) (do
                  setStreams (st' :: (← get).streams)
                  if err ≠ SB_ESUCCESS then return err
                  acceptStreams count) Q srv
                  (n.put sock ((Peer.new.notified .connect outputs).opened files) short) := by
              intro st' hsock hsound
              rw [Proc.wp_bind, Proc.wp_get, Proc.wp_bind, wp_setStreams]
              have hrunning := h.add hfree hne (not_lt.1 hsmall) hsock hsound
              split
              · exact hQ _ _ _ hrunning rfl
              · exact ih hrunning fun err' srv' n' hrunning' hsame => hQ err' srv' n' hrunning' hsame
            have hsound := sound_new hframe hanswers
            exact ⟨hadd st hframe.sockfd hsound, hadd st.closed hframe.sockfd hsound.closed⟩

theorem wp_selectStreams {Q : List Socket × List Socket → Server → Net → Prop} (h : Running srv.sockfd n srv.streams)
    (hQ : ∀ ready, (∀ st ∈ srv.streams, st.sockfd ∈ ready.1 → isSending st = false) → Q ready srv n) :
    Proc.wp (net srv.sockfd) selectStreams Q srv n := by
  have hopen : ∀ st ∈ srv.streams, n.peers st.sockfd ≠ none := by
    intro st hst
    obtain ⟨p, hp, -⟩ := h.sound st hst
    simp [hp]
  rw [selectStreams, Proc.wp_bind, Proc.wp_get]
  dsimp only
  split
  · rename_i hlarge
    rw [Proc.wp_bind, Proc.wp_call]
    refine ⟨?_, fun never => never.elim⟩
    obtain ⟨sock, hmem, hlarge⟩ := hlarge
    simp only [List.cons_append, List.mem_cons, List.mem_append, List.mem_map, List.mem_filter] at hmem
    rcases hmem with rfl | ⟨st, ⟨hst, -⟩, rfl⟩ | ⟨st, ⟨hst, -⟩, rfl⟩
    · exact .inl hlarge
    · exact .inr (le_antisymm (h.small st hst) hlarge ▸ hopen st hst)
    · exact .inr (le_antisymm (h.small st hst) hlarge ▸ hopen st hst)
  · rw [Proc.wp_call]
    refine ⟨fun sock hmem => ?_, fun ready n' hstep => ?_⟩
    · simp only [List.cons_append, List.mem_cons, List.mem_append, List.mem_map, List.mem_filter] at hmem
      rcases hmem with rfl | ⟨st, ⟨hst, -⟩, rfl⟩ | ⟨st, ⟨hst, -⟩, rfl⟩
      · exact .inl rfl
      · exact .inr (hopen st hst)
      · exact .inr (hopen st hst)
    · obtain ⟨hreading, -, rfl⟩ := hstep
      refine hQ ready fun st hst hready => ?_
      have hmem := hreading hready
      simp only [List.mem_cons, List.mem_map, List.mem_filter] at hmem
      rcases hmem with heq | ⟨other, ⟨hother, hreceiving⟩, heq⟩
      · exact absurd heq (h.others st hst)
      · obtain rfl := List.inj_on_of_nodup_map h.distinct hother hst heq
        simpa using hreceiving

theorem wp_pollServer {Q : Int → Server → Net → Prop} (h : Running srv.sockfd n srv.streams)
    (hQ : ∀ err srv' n', Running srv.sockfd n' srv'.streams → srv'.sockfd = srv.sockfd → Q err srv' n') :
    Proc.wp (net srv.sockfd) pollServer Q srv n := by
  rw [pollServer, Proc.wp_bind]
  apply wp_selectStreams h
  intro ready hready
  rw [Proc.wp_bind, Proc.wp_call]
  refine ⟨trivial, fun now n' hstep => ?_⟩
  obtain rfl : n' = n := hstep
  rw [Proc.wp_bind, Proc.wp_modify, Proc.wp_bind, Proc.wp_get, Proc.wp_bind]
  have hbegin : Running srv.sockfd n' ([] ++ srv.streams) := h
  refine wp_pollStreams hbegin hready fun err streams n' hrunning => ?_
  rw [Proc.wp_bind, wp_setStreams]
  split
  · exact hQ _ _ _ hrunning rfl
  · rw [Proc.wp_bind, Proc.wp_get]
    split
    · rw [Proc.wp_bind, Proc.wp_call]
      refine ⟨hrunning.listening, fun count n'' hstep' => ?_⟩
      obtain rfl : n'' = n' := hstep'
      exact wp_acceptStreams hrunning hQ
    · exact hQ _ _ _ hrunning rfl

theorem wp_pollRounds {count : Nat} {Q : Unit → Server → Net → Prop} (h : Running srv.sockfd n srv.streams)
    (hQ : ∀ srv' n', Running srv.sockfd n' srv'.streams → srv'.sockfd = srv.sockfd → Q () srv' n') :
    Proc.wp (net srv.sockfd) (pollRounds count) Q srv n := by
  induction count generalizing srv n with
  | zero => exact hQ srv n h rfl
  | succ count ih =>
      rw [pollRounds, Proc.wp_bind]
      refine wp_pollServer h fun err srv₁ n₁ hrunning hsame => ?_
      rw [← hsame] at hrunning ⊢
      exact ih hrunning fun srv₂ n₂ hrunning₂ hsame₂ => hQ srv₂ n₂ (hsame ▸ hrunning₂) (hsame₂.trans hsame)

theorem wp_destroyStreams {streams : List Stream} {Q : Unit → Server → Net → Prop} (h : Running l n streams)
    (hQ : ∀ n', Running l n' [] → Q () srv n') : Proc.wp (net l) (destroyStreams streams) Q srv n := by
  induction streams generalizing n with
  | nil => exact hQ n h
  | cons st rest ih =>
      obtain ⟨p, hp, hsound⟩ := h.sound st (by simp)
      rw [destroyStreams, Proc.wp_bind, wp_withStream, ← Net.put_eq_self hp]
      refine wp_streamDestroy rfl (h.others st (by simp)) (by rwa [Bool.or_false]) fun st' p' short' _ hfinished => ?_
      have hfirst : Running l n ([] ++ st :: rest) := h
      exact ih (hfirst.remove hfinished)

/-- In the end nothing is open any more. -/
theorem wp_closeServer {Q : Unit → Server → Net → Prop} (h : Running srv.sockfd n srv.streams)
    (hQ : ∀ n', (∀ sock, n'.peers sock = none) → n'.listening = false → (∀ p ∈ n'.past, Finished n'.starved p) →
      Q () { srv with streams := [] } n') : Proc.wp (net srv.sockfd) closeServer Q srv n := by
  rw [closeServer, Proc.wp_bind, Proc.wp_get, Proc.wp_bind]
  refine wp_destroyStreams h fun n' hrunning => ?_
  have hnone : ∀ sock, n'.peers sock = none := by
    intro sock
    by_contra hopen
    obtain ⟨st, hst, -⟩ := hrunning.known sock hopen
    cases hst
  rw [Proc.wp_bind, wp_setStreams, Proc.wp_bind, Proc.wp_get, Proc.wp_call]
  dsimp only
  have hpre : (net srv.sockfd).pre n' (.close srv.sockfd) := by
    rw [show (net srv.sockfd).pre n' (.close srv.sockfd) ↔ if srv.sockfd = srv.sockfd then _ else _ from Iff.rfl, if_pos rfl]
    exact ⟨hrunning.listening, hnone⟩
  refine ⟨hpre, fun reply n'' hstep => ?_⟩
  rw [show (net srv.sockfd).step n' (.close srv.sockfd) reply n'' ↔ if srv.sockfd = srv.sockfd then _ else _ from Iff.rfl,
    if_pos rfl] at hstep
  subst hstep
  exact hQ _ hnone rfl hrunning.past

end

end Sb

end HiveSdk
