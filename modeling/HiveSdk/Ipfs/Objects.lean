import HiveSdk.Ipfs.Network

/-!
# The operations of the backend on the network

One specification for each of the three functions of the backend. What succeeds has been told the truth by a node: a put gives the identifier of its content, and a look-up and a download are about the content of the identifier. The comparison at the end of a download is what makes a beginning of the content the whole of it. On a day without incidents, with a node selected, an object that the network has is found. Error codes that are returned as lengths are no smaller than 2^31.
-/

namespace HiveSdk.Ipfs

open Interaction Filling

/-- What a function of type `ssize_t` gives when it fails. -/
def Errs (n : Int) : Prop := n < 0 ∨ 2 ^ 31 ≤ n

theorem errs_int {rc : Int} (h : rc < 0) : Errs (Exit.int rc).value := .inl h

theorem errs_code (facility : Facility) {code : Nat} (hcode : code < 2 ^ 24) :
    Errs (Exit.code (hiveMkError facility code)).value := by
  right
  rw [show (Exit.code (hiveMkError facility code)).value = cSsize (hiveMkError facility code) from rfl,
    cSsize_hiveMkError facility hcode]
  omega

section
variable {env : Env} {p : Process IpfsConnect} {b : Blocks}

/-- The network is not touched by the search for a node, which only a day with incidents calls for. -/
theorem wp_search {Q : Int → Process IpfsConnect → Blocks → Prop}
    (hselected : env.reliable → p.conn.currentNodeIp ≠ [])
    (hok : ∀ p' : Process IpfsConnect, (env.reliable → p' = p) → Q 0 p' b)
    (hfail : ∀ rc, ¬ env.reliable → rc < 0 → Q rc p b) : Proc.wp env.network checkReachable Q p b := by
  simp only [checkReachable, Proc.wp_bind, wp_getConn, Proc.wp_ite, Proc.wp_pure]
  refine ⟨fun _ => hok p fun _ => rfl, fun hnone => ?_⟩
  have hincident : ¬ env.reliable := fun hreliable => hnone (hselected hreliable)
  have hprobes : Probes env.network p.conn.rpcNodes b fun _ _ => b := by
    refine ⟨fun e _ _ => hincident, fun e r t hstep he => ?_, fun _ _ _ _ => by simp, fun ip port reply t hstep => ?_⟩
    · have hlocal : Env.isLocal e := by
        cases e <;> first | rfl | exact he.elim | exact r.elim
      exact ((Env.network_local hlocal).1 hstep).2
    · have hother : Request.want { method := .post, url := .node ip port versionPath } = .other := rfl
      have hsame := (Env.network_perform.1 hstep).provides
      rw [Env.Provides, hother] at hsame
      rw [ite_self]
      exact hsame
  apply hprobes.selectBootstrap
  · intro ip port hne _
    dsimp only
    rw [Proc.wp_bind, wp_setConn, Proc.wp_pure]
    exact hok _ fun hreliable => absurd hreliable hincident
  · intro rc hrc
    exact hfail rc hincident hrc

theorem wp_lost {rc : CurlCode} {Q : Int → Process IpfsConnect → Blocks → Prop}
    (h : ∀ err p', err < 0 → Q err p' b) : Proc.wp env.network (requestError rc) Q p b :=
  wp_requestError fun err p' herr => h err p' herr.neg

theorem answered_eq {reply : Reply} (hcode : reply.code = 0) (hinfo : reply.info = 0) :
    reply.answered = some reply.status := if_pos ⟨hcode, hinfo⟩

theorem wp_putFileFromBuffer {content : Bytes} (hincident : ¬ env.reliable) :
    Proc.wp env.network (putFileFromBuffer content) (fun result _ b' =>
      result.1 < 0 ∨ result.1 = 0 ∧ ∃ cid, result.2 = some cid ∧ cid ≠ [] ∧ content ∈ b' cid) p b := by
  have hmemory : cInt (hiveGeneralError HiveErr.outOfMemory) < 0 := by decide
  have hformat : cInt (hiveGeneralError HiveErr.badJsonFormat) < 0 := by decide
  rw [putFileFromBuffer, Proc.wp_bind]
  apply wp_search (fun hreliable => absurd hreliable hincident)
  · intro p₁ _
    rw [if_neg (by decide), Proc.wp_bind, apiUrl, Proc.wp_bind, wp_getConn, Proc.wp_pure, Proc.wp_bind,
      wp_call_network rfl]
    intro created _
    rw [Proc.wp_ite, Proc.wp_pure, Proc.wp_bind]
    refine ⟨fun _ => .inl hmemory, fun _ => ?_⟩
    apply wp_requestBody
    intro rc reply response b' hfetched hkept
    have hstored := hfetched.provides
    rw [Env.Provides, show Request.want _ = .store content from rfl] at hstored
    simp only [Proc.wp_ite, Proc.wp_pure]
    refine ⟨fun _ => ?_, fun hrc => ⟨fun _ => ?_, fun hinfo => ⟨fun _ => ?_, fun hstatus => ?_⟩⟩⟩
    · rw [Proc.wp_bind]
      exact wp_lost fun err _ herr => .inl herr
    · exact .inl (intError_hiveMkError .curl (by omega)).neg
    · exact .inl (intError_hiveMkError .httpStatus (by omega)).neg
    have hrc := not_not.1 hrc
    have hanswered := answered_eq (hkept.code hrc) (not_not.1 hinfo)
    rw [not_not.1 hstatus] at hanswered
    obtain ⟨json, cid, hsays, hhash, hmem⟩ := hstored.2 hanswered
    rw [Proc.wp_bind]
    apply wp_httpClientMoveResponseBody fun _ => by simp [hincident]
    intro _
    dsimp only
    rw [Proc.wp_bind]
    apply wp_parse_says hsays (hkept.holds hrc hsays.body_size) fun hreliable => absurd hreliable hincident
    · dsimp only
      rw [hhash]
      dsimp only
      rw [Proc.wp_ite, Proc.wp_pure, Proc.wp_pure]
      exact ⟨fun _ => .inl hformat, fun _ => .inr ⟨rfl, cid, rfl, Json.stringItem_ne_nil hhash, hmem⟩⟩
    · intro _
      exact .inl hmemory
  · intro rc _ hrc
    rw [if_pos hrc, Proc.wp_pure]
    exact .inl hrc

/-- What makes it certain that an object is found: a node is selected, and the network has the object. -/
structure Found (conn : IpfsConnect) (b : Blocks) (cid : Bytes) : Prop where
  selected : conn.currentNodeIp ≠ []
  held : ∃ content, content ∈ b cid

theorem wp_getFileLength {cid : Bytes} {Q : Exit → Process IpfsConnect → Blocks → Prop}
    (hfound : env.reliable → Found p.conn b cid)
    (hok : ∀ content (p' : Process IpfsConnect) b', content ∈ b' cid → content.length < 2 ^ 63 →
      (env.reliable → p' = p) → Q (.length content.length) p' b')
    (hfail : ∀ exit p' b', ¬ env.reliable → Errs exit.value → Q exit p' b') :
    Proc.wp env.network (getFileLength cid) Q p b := by
  rw [getFileLength, Proc.wp_bind]
  apply wp_search fun hreliable => (hfound hreliable).selected
  · intro p₁ hsame
    rw [if_neg (by decide), Proc.wp_bind, apiUrl, Proc.wp_bind, wp_getConn, Proc.wp_pure, Proc.wp_bind,
      wp_call_network rfl]
    intro created hcreated
    rw [Proc.wp_ite, Proc.wp_pure, Proc.wp_bind]
    refine ⟨fun hnot => ?_, fun _ => ?_⟩
    · refine hfail _ _ _ (fun hreliable => ?_) (errs_code .general (by decide))
      rw [hcreated hreliable] at hnot
      cases hnot
    apply wp_requestBody
    intro rc reply response b' hfetched hkept
    have hsized := hfetched.provides
    rw [Env.Provides, show Request.want _ = .size cid from rfl] at hsized
    -- a node that has the object and no incident answers with its size
    have hgood : env.reliable → reply.answered = some HttpStatus.ok ∧ rc = 0 := by
      intro hreliable
      obtain ⟨content, hcontent⟩ := (hfound hreliable).held
      have hwhole := hfetched.whole hreliable
      have hanswered := hwhole.size cid content rfl hcontent
      refine ⟨hanswered, ?_⟩
      by_contra hrc
      have hcode := hkept.failed hrc hreliable hwhole.body_size
      rw [Reply.answered, if_neg fun h => hcode h.1] at hanswered
      cases hanswered
    have hlost : reply.answered ≠ some HttpStatus.ok ∨ rc ≠ 0 → ¬ env.reliable := by
      intro h hreliable
      obtain ⟨hanswered, hrc⟩ := hgood hreliable
      rcases h with h | h
      · exact h hanswered
      · exact h hrc
    simp only [Proc.wp_ite, Proc.wp_pure]
    refine ⟨fun hrc => ?_, fun hrc => ⟨fun hinfo => ?_, fun hinfo => ⟨fun hstatus => ?_, fun hstatus => ?_⟩⟩⟩
    · rw [Proc.wp_bind]
      exact wp_lost fun err p' herr => hfail _ _ _ (hlost (.inr hrc)) (errs_int herr)
    · refine hfail _ _ _ (hlost (.inl ?_)) (errs_int (intError_hiveMkError .curl (by omega)).neg)
      rw [Reply.answered, if_neg fun h => hinfo h.2]
      simp
    all_goals
      have hrc' := not_not.1 hrc
      have hanswered := answered_eq (hkept.code hrc') (not_not.1 hinfo)
    · refine hfail _ _ _ (hlost (.inl fun h => ?_)) (errs_int (intError_hiveMkError .httpStatus (by omega)).neg)
      exact hstatus (Option.some.inj (hanswered.symm.trans h))
    rw [not_not.1 hstatus] at hanswered
    obtain ⟨json, content, hsays, hsize, hmem⟩ := hsized.2 hanswered
    rw [Proc.wp_bind]
    apply wp_httpClientMoveResponseBody
    · intro hempty
      rw [(hkept.holds hrc' hsays.body_size).used] at hempty
      exact absurd (List.length_eq_zero_iff.1 hempty) hsays.body_ne_nil
    intro _
    dsimp only
    rw [Proc.wp_bind]
    apply wp_parse_says hsays (hkept.holds hrc' hsays.body_size)
      fun hreliable => (hfetched.whole hreliable).room cid rfl
    · dsimp only
      rw [hsize]
      have hsmall := (lsSize_bounds hsize).2
      exact hok content p₁ b' hmem (by omega) hsame
    · intro hincident
      exact hfail _ _ _ hincident (errs_code .general (by decide))
  · intro rc hincident hrc
    rw [if_pos hrc, Proc.wp_pure]
    exact hfail _ _ _ hincident (errs_int hrc)

/-- A buffer with room for the pieces takes all of them. -/
theorem accepted_of_fits {bufsz used : Nat} {chunks : List Bytes} (h : used + chunks.flatten.length ≤ bufsz) :
    accepted bufsz used chunks = chunks := by
  induction chunks generalizing used with
  | nil => rfl
  | cons chunk chunks ih =>
      rw [List.flatten_cons, List.length_append] at h
      rw [accepted, if_pos (by omega), ih (by omega)]

/-- A download into a buffer that lies in the address space. -/
structure Room (block : Bytes) (buflen : Nat) : Prop where
  pos : buflen ≠ 0
  le_block : buflen ≤ block.length
  addressable : block.length < 2 ^ 63

theorem Room.take {block : Bytes} {buflen : Nat} {chunks : List Bytes} (h : Room block buflen)
    (hchunks : ∀ chunk ∈ chunks, chunk.length < 2 ^ 32) :
    storeBounded buflen block 0 chunks = (filled block (accepted buflen 0 chunks).flatten,
      (accepted buflen 0 chunks).flatten.length, decide (accepted buflen 0 chunks = chunks)) := by
  have hlong := h.addressable
  have hle := h.le_block
  have haddressable : Addressable buflen chunks := by
    intro chunk hchunk
    have hsmall := hchunks chunk hchunk
    omega
  have hstored := (storeBounded_filled block [] (Nat.zero_le buflen) haddressable).1
  rw [filled_nil, List.length_nil, List.nil_append] at hstored
  exact hstored

/-- What is known of a size that a download goes by. -/
def Announced (env : Env) (b : Blocks) (cid : Bytes) (n : Int) : Prop :=
  (∃ content ∈ b cid, n = content.length ∧ content.length < 2 ^ 63) ∨ ¬ env.reliable ∧ Errs n

/-- The comparison with the size decides whether what has come is the content. -/
theorem whole_of_size {cid xs ys : Bytes} (hxs : xs ∈ b cid) (hys : ys ∈ b cid) {received : Bytes}
    (hfront : received <+: ys) (hlength : received.length = xs.length) : received = xs := by
  rw [Part.mem_unique hxs hys] at hlength ⊢
  exact hfront.eq_of_length hlength

theorem wp_getFileToBuffer {cid block : Bytes} {buflen : Nat}
    {Q : Exit × Bytes → Process IpfsConnect → Blocks → Prop} (hroomy : Room block buflen)
    (hfound : env.reliable → Found p.conn b cid)
    (hroom : env.reliable → ∀ content ∈ b cid, content.length ≤ buflen)
    (hok : ∀ content (p' : Process IpfsConnect) b', content ∈ b' cid →
      Q (.length content.length, filled block content) p' b')
    (hfail : ∀ exit block' p' b', ¬ env.reliable → Errs exit.value → Q (exit, block') p' b') :
    Proc.wp env.network (getFileToBuffer cid block buflen) Q p b := by
  have hlong := hroomy.addressable
  have hle := hroomy.le_block
  have hpos := hroomy.pos
  have hbuflen : cSsize buflen = buflen := cSsize_eq_self (by omega) (by omega)
  have hlookUp : Proc.wp env.network (getFileLength cid)
      (fun exit p₁ b₁ => Announced env b₁ cid exit.value ∧ (env.reliable → p₁ = p)) p b := by
    apply wp_getFileLength hfound
    · intro content p₁ b₁ hmem hsmall hsame
      exact ⟨.inl ⟨content, hmem, rfl, hsmall⟩, hsame⟩
    · intro exit p₁ b₁ hincident herrs
      exact ⟨.inr ⟨hincident, herrs⟩, fun hreliable => absurd hreliable hincident⟩
  rw [getFileToBuffer]
  apply Proc.wp_bind_of (Proc.wp_grown Env.network_grows hlookUp)
  rintro exit p₁ b₁ ⟨⟨hannounced, hsame⟩, hgrown⟩
  have hfound₁ : env.reliable → Found p₁.conn b₁ cid := by
    intro hreliable
    obtain ⟨content, hcontent⟩ := (hfound hreliable).held
    exact ⟨hsame hreliable ▸ (hfound hreliable).selected, content, Env.mem_of_le hgrown hcontent⟩
  -- on a day without incidents the size is that of the content, which has room
  have hsize : env.reliable → ∃ content ∈ b₁ cid, exit.value = content.length ∧ content.length ≤ buflen := by
    intro hreliable
    obtain ⟨content, hcontent⟩ := (hfound hreliable).held
    rcases hannounced with ⟨content', hmem, hvalue, _⟩ | ⟨hincident, _⟩
    · obtain rfl := Part.mem_unique (Env.mem_of_le hgrown hcontent) hmem
      exact ⟨content, hmem, hvalue, hroom hreliable content hcontent⟩
    · exact absurd hreliable hincident
  generalize exit.value = n at *
  rw [Proc.wp_ite, Proc.wp_pure, Proc.wp_ite, Proc.wp_pure, hbuflen]
  refine ⟨fun hnone => ?_, fun hsome => ⟨fun hlarge => ?_, fun _ => ?_⟩⟩
  · rcases hannounced with ⟨content, hmem, hvalue, _⟩ | ⟨hincident, herrs⟩
    · obtain rfl : content = [] := List.length_eq_zero_iff.1 (by omega)
      rw [if_neg (by omega), hvalue, ← filled_nil block]
      exact hok [] p₁ b₁ hmem
    · rw [if_pos (by unfold Errs at herrs; omega)]
      exact hfail _ _ _ _ hincident herrs
  · refine hfail _ _ _ _ (fun hreliable => ?_) (errs_code .general (by decide))
    obtain ⟨content, _, hvalue, hfit⟩ := hsize hreliable
    omega
  rw [Proc.wp_bind]
  apply wp_search fun hreliable => (hfound₁ hreliable).selected
  · intro p₂ _
    rw [if_neg (by decide), Proc.wp_bind, apiUrl, Proc.wp_bind, wp_getConn, Proc.wp_pure, Proc.wp_bind,
      wp_call_network rfl]
    intro created hcreated
    rw [Proc.wp_ite, Proc.wp_pure, Proc.wp_bind]
    refine ⟨fun hnot => ?_, fun _ => ?_⟩
    · refine hfail _ _ _ _ (fun hreliable => ?_) (errs_code .general (by decide))
      rw [hcreated hreliable] at hnot
      cases hnot
    rw [httpClientRequest, Proc.wp_bind, Proc.wp_call]
    refine ⟨by simp, fun reply b₂ hstep => ?_⟩
    have hfetched := Env.network_perform.1 hstep
    have hsent := hfetched.provides
    rw [Env.Provides, show Request.want _ = .content cid from rfl] at hsent
    rw [Proc.wp_pure]
    dsimp only
    rw [hroomy.take hfetched.pieces]
    dsimp only
    -- on a day without incidents the whole content comes, and all of it is taken
    have hgood : env.reliable → reply.answered = some HttpStatus.ok ∧ accepted buflen 0 reply.chunks = reply.chunks
        ∧ (reply.body.length : Int) = n := by
      intro hreliable
      obtain ⟨content, hmem, hvalue, hfit⟩ := hsize hreliable
      obtain ⟨hanswered, hbody⟩ := (hfetched.whole hreliable).content cid content rfl hmem
      refine ⟨hanswered, accepted_of_fits ?_, ?_⟩
      · rw [Nat.zero_add, show reply.chunks.flatten = reply.body from rfl, hbody]
        exact hfit
      · rw [hbody, hvalue]
    have hlost : reply.answered ≠ some HttpStatus.ok ∨ accepted buflen 0 reply.chunks ≠ reply.chunks
        ∨ (reply.body.length : Int) ≠ n → ¬ env.reliable := by
      intro h hreliable
      obtain ⟨hanswered, htaken, hvalue⟩ := hgood hreliable
      rcases h with h | h | h
      · exact h hanswered
      · exact h htaken
      · exact h hvalue
    have hunanswered : ¬ (reply.code = 0 ∧ reply.info = 0) → reply.answered ≠ some HttpStatus.ok := by
      intro hnot
      rw [Reply.answered, if_neg hnot]
      simp
    have hwrite : CurlE.writeError ≠ 0 := by decide
    simp only [Proc.wp_ite, Proc.wp_pure]
    refine ⟨fun hrc => ?_, fun hrc => ?_⟩
    · rw [Proc.wp_bind]
      refine wp_lost fun err p' herr => hfail _ _ _ _ (hlost ?_) (errs_int herr)
      by_cases htaken : accepted buflen 0 reply.chunks = reply.chunks
      · rw [if_pos (decide_eq_true htaken)] at hrc
        exact .inl (hunanswered fun h => hrc h.1)
      · exact .inr (.inl htaken)
    have htaken : accepted buflen 0 reply.chunks = reply.chunks := by
      by_contra hnot
      rw [if_neg (by simpa using hnot)] at hrc
      exact hrc hwrite
    rw [if_pos (decide_eq_true htaken)] at hrc
    refine ⟨fun hinfo => ?_, fun hinfo => ⟨fun hstatus => ?_, fun hstatus => ?_⟩⟩
    · exact hfail _ _ _ _ (hlost (.inl (hunanswered fun h => hinfo h.2))) (errs_code .curl (by omega))
    · have hanswered := answered_eq (not_not.1 hrc) (not_not.1 hinfo)
      refine hfail _ _ _ _ (hlost (.inl fun h => hstatus ?_)) (errs_code .httpStatus (by omega))
      exact Option.some.inj (hanswered.symm.trans h)
    have hanswered := answered_eq (not_not.1 hrc) (not_not.1 hinfo)
    rw [not_not.1 hstatus] at hanswered
    obtain ⟨hgrown₂, hsent⟩ := hsent
    obtain ⟨content₂, hmem₂, hfront⟩ := hsent hanswered
    rw [htaken, show reply.chunks.flatten = reply.body from rfl]
    rcases hannounced with ⟨content, hmem, hvalue, hsmall⟩ | ⟨hincident, herrs⟩
    · have hcount : cSize n = content.length := by
        rw [hvalue]
        exact cSize_eq_self (by omega)
      rw [hcount]
      refine ⟨fun hne => ?_, fun heq => ?_⟩
      · exact hfail _ _ _ _ (hlost (.inr (.inr fun h => hne (by omega)))) (errs_code .general (by decide))
      · have hmem' := Env.mem_of_le hgrown₂ hmem
        rw [whole_of_size hmem' hmem₂ hfront (not_not.1 heq).symm, hvalue]
        exact hok content p₂ b₂ hmem'
    · exact ⟨fun _ => hfail _ _ _ _ hincident (errs_code .general (by decide)),
        fun _ => hfail _ _ _ _ hincident herrs⟩
  · intro rc hincident hrc
    rw [if_pos hrc, Proc.wp_pure]
    exact hfail _ _ _ _ hincident (errs_int hrc)

end

end HiveSdk.Ipfs
