import HiveSdk.Files.RoundTrip
import HiveSdk.Ipfs.Objects

/-!
# One store behind all answers

A client that puts, looks up and downloads objects, over nodes that come and go and next to other clients. However its calls succeed and fail, all that they say is true of one store: the network as it is in the end. So an object that has been put comes back as it was under its identifier, whichever of the calls came first.
-/

namespace HiveSdk

open Interaction Filling

/-- The calls of a client. A source of no bytes may be a null pointer. -/
inductive ObjectCall
  | put (source : Option Bytes)
  | putFile (source : Bytes)
  | length (cid : Bytes)
  | toBuffer (cid block : Bytes) (buflen : Nat)
  deriving DecidableEq, Repr

namespace ObjectCall

/-- The public function, with its result and the bytes that it has written for its caller: an identifier or a buffer. -/
def call : ObjectCall → Hive IpfsConnect (Int × Option Bytes)
  | put source => hiveIpfsPutFileFromBuffer (some Ipfs.table) source (source.getD []).length true
  | putFile source => hiveIpfsPutFile (some Ipfs.table) (some source) true
  | length cid => do return (← hiveIpfsGetFileLength (some Ipfs.table) (some cid), none)
  | toBuffer cid block buflen => do
      let (n, block) ← hiveIpfsGetFileToBuffer (some Ipfs.table) (some cid) (some block) buflen
      return (n, some block)

/-- A buffer is as large as the caller says. -/
def Sound : ObjectCall → Prop
  | toBuffer _ block buflen => buflen ≤ block.length ∧ block.length < 2 ^ 63
  | _ => True

/-- What a put is about, given the local files. -/
def source (files : LocalFiles) : ObjectCall → Option Bytes
  | put source => some (source.getD [])
  | putFile source => files source
  | _ => none

/-- What the results say of the network. Lengths from 2^31 on may be error codes. -/
def Truly (files : LocalFiles) (b : Blocks) (op : ObjectCall) (result : Int × Option Bytes) : Prop :=
  match op, result with
  | put _, (rc, bytes) | putFile _, (rc, bytes) => rc = 0 → ∃ cid content, bytes = some cid ∧ cid ≠ []
      ∧ op.source files = some content ∧ content ∈ b cid
  | length cid, (n, _) => 0 ≤ n → n < 2 ^ 31 → ∃ content ∈ b cid, n = content.length
  | toBuffer cid block _, (n, bytes) => 0 ≤ n → n < 2 ^ 31 →
      ∃ content ∈ b cid, n = content.length ∧ bytes = some (filled block content)

/-- What has been said stays true. -/
theorem truly_mono {files : LocalFiles} {op : ObjectCall} {result : Int × Option Bytes} {b b' : Blocks} (hle : b ≤ b')
    (h : op.Truly files b result) : op.Truly files b' result := by
  have hmem : ∀ {cid content : Bytes}, content ∈ b cid → content ∈ b' cid := Env.mem_of_le hle
  cases op with
  | put source | putFile source =>
      intro hrc
      obtain ⟨cid, content, hbytes, hne, hsource, hcontent⟩ := h hrc
      exact ⟨cid, content, hbytes, hne, hsource, hmem hcontent⟩
  | length cid =>
      intro hpos hsmall
      obtain ⟨content, hcontent, hn⟩ := h hpos hsmall
      exact ⟨content, hmem hcontent, hn⟩
  | toBuffer cid block buflen =>
      intro hpos hsmall
      obtain ⟨content, hcontent, hn⟩ := h hpos hsmall
      exact ⟨content, hmem hcontent, hn⟩

end ObjectCall

theorem Env.adverse_incident {env : Env} : ¬ env.adverse.reliable := id

section
variable {env : Env} {files : LocalFiles} {p : Process IpfsConnect} {b : Blocks}

/-- What the caller of a failed function gets. -/
theorem errs_dispatched {n : Int} (herrs : Ipfs.Errs n) (hpos : ¬ n < 0) : ¬ (0 ≤ n ∧ n < 2 ^ 31) := by
  rw [Ipfs.Errs] at herrs
  omega

theorem wp_hiveIpfsPutFileFromBuffer (source : Option Bytes) (hincident : ¬ env.reliable) :
    Proc.wp env.network (hiveIpfsPutFileFromBuffer (some Ipfs.table) source (source.getD []).length true)
      (fun result _ b' => (ObjectCall.put source).Truly files b' result) p b := by
  have hminus : ¬ (-1 : Int) = 0 := by decide
  rw [hiveIpfsPutFileFromBuffer, Proc.wp_ite, Proc.wp_bind]
  refine ⟨fun _ h => absurd h hminus, fun _ => ?_⟩
  rw [List.take_length]
  show Proc.wp env.network (Ipfs.putFileFromBuffer (source.getD []) >>= _) _ p b
  apply Proc.wp_bind_of (Ipfs.wp_putFileFromBuffer hincident)
  rintro ⟨rc, hash⟩ p' b' hresult
  dsimp only at hresult ⊢
  rw [Proc.wp_ite, Proc.wp_bind]
  refine ⟨fun _ h => absurd h hminus, fun hrc _ => ?_⟩
  rcases hresult with hneg | ⟨_, cid, rfl, hne, hmem⟩
  · exact absurd hneg hrc
  · exact ⟨cid, source.getD [], rfl, hne, rfl, hmem⟩

theorem wp_hiveIpfsGetFileLength {cid : Bytes} {Q : Int → Process IpfsConnect → Blocks → Prop}
    (hfound : env.reliable → cid ≠ [] ∧ Ipfs.Found p.conn b cid)
    (hok : ∀ content (p' : Process IpfsConnect) b', content ∈ b' cid → content.length < 2 ^ 63 →
      (env.reliable → p' = p) → Q content.length p' b')
    (hfail : ∀ n p' b', ¬ env.reliable → ¬ (0 ≤ n ∧ n < 2 ^ 31) → Q n p' b') :
    Proc.wp env.network (hiveIpfsGetFileLength (some Ipfs.table) (some cid)) Q p b := by
  unfold hiveIpfsGetFileLength
  by_cases hcid : cid = []
  · subst hcid
    exact hfail (-1) _ b (fun hreliable => (hfound hreliable).1 rfl) (by omega)
  have hcid' : nonEmpty (some cid) = some cid := by simp [nonEmpty, hcid]
  rw [hcid']
  show Proc.wp env.network (dispatchLength (some (lengthOf (Ipfs.getFileLength cid)))) Q p b
  simp only [dispatchLength, lengthOf, Proc.wp_bind]
  apply Ipfs.wp_getFileLength fun hreliable => (hfound hreliable).2
  · intro content p' b' hmem hsmall hsame
    rw [Proc.wp_pure, if_neg (by simp), Proc.wp_pure]
    exact hok content p' b' hmem hsmall hsame
  · intro exit p' b' hincident herrs
    rw [Proc.wp_pure, Proc.wp_ite, Proc.wp_pure]
    exact ⟨fun _ => hfail (-1) _ b' hincident (by omega), fun hpos => hfail _ _ b' hincident (errs_dispatched herrs hpos)⟩

theorem wp_hiveIpfsGetFileToBuffer {cid block : Bytes} {buflen : Nat}
    {Q : Int × Bytes → Process IpfsConnect → Blocks → Prop}
    (hle : buflen ≤ block.length) (hlong : block.length < 2 ^ 63)
    (hfound : env.reliable → cid ≠ [] ∧ buflen ≠ 0 ∧ Ipfs.Found p.conn b cid)
    (hroom : env.reliable → ∀ content ∈ b cid, content.length ≤ buflen)
    (hok : ∀ content (p' : Process IpfsConnect) b', content ∈ b' cid →
      Q (content.length, filled block content) p' b')
    (hfail : ∀ n block' p' b', ¬ env.reliable → ¬ (0 ≤ n ∧ n < 2 ^ 31) → Q (n, block') p' b') :
    Proc.wp env.network (hiveIpfsGetFileToBuffer (some Ipfs.table) (some cid) (some block) buflen) Q p b := by
  unfold hiveIpfsGetFileToBuffer
  by_cases hcid : cid = []
  · subst hcid
    exact hfail (-1) _ _ b (fun hreliable => (hfound hreliable).1 rfl) (by omega)
  have hcid' : nonEmpty (some cid) = some cid := by simp [nonEmpty, hcid]
  rw [hcid']
  dsimp only
  rw [Proc.wp_ite]
  refine ⟨fun hzero => hfail (-1) _ _ b (fun hreliable => (hfound hreliable).2.1 hzero) (by omega), fun hpos => ?_⟩
  show Proc.wp env.network (dispatchBuffer (some (bufferOf (Ipfs.getFileToBuffer cid block buflen))) block) Q p b
  simp only [dispatchBuffer, bufferOf, Proc.wp_bind]
  apply Ipfs.wp_getFileToBuffer ⟨hpos, hle, hlong⟩ (fun hreliable => (hfound hreliable).2.2) hroom
  · intro content p' b' hmem
    dsimp only
    rw [Proc.wp_pure]
    dsimp only
    rw [if_neg (by simp), Proc.wp_pure]
    exact hok content p' b' hmem
  · intro exit block' p' b' hincident herrs
    dsimp only
    rw [Proc.wp_pure]
    dsimp only
    rw [Proc.wp_ite, Proc.wp_pure]
    exact ⟨fun _ => hfail (-1) _ _ b' hincident (by omega),
      fun hpos => hfail _ _ _ b' hincident (errs_dispatched herrs hpos)⟩

/-- Each call, next to local files that hold still. -/
theorem wp_objectCall (op : ObjectCall) (hincident : ¬ env.reliable) (hsound : op.Sound) :
    Proc.wp (env.network.prod files.still) op.call
      (fun result _ x => op.Truly files x.1 result) p (b, ()) := by
  have hstill : ∀ {α : Type} {m : Hive IpfsConnect α} {p' : Process IpfsConnect},
      Proc.wp files.still m (fun _ _ _ => True) p' () :=
    Proc.wp_of_forall (fun _ _ => trivial) fun _ _ _ => trivial
  cases op with
  | put source =>
      have hput : Proc.wp env.network (hiveIpfsPutFileFromBuffer (some Ipfs.table) source (source.getD []).length true)
          (fun result _ b' => (ObjectCall.put source).Truly files b' result) p b :=
        wp_hiveIpfsPutFileFromBuffer source hincident
      exact Proc.wp_prod hput hstill fun result p' t _ h _ => h
  | putFile source =>
      have hminus : ¬ (-1 : Int) = 0 := by decide
      rw [ObjectCall.call]
      unfold hiveIpfsPutFile
      by_cases hsource : source = []
      · subst hsource
        exact fun h => absurd h hminus
      have hsource' : nonEmpty (some source) = some source := by simp [nonEmpty, hsource]
      rw [hsource']
      dsimp only
      rw [Proc.wp_bind]
      apply LocalFiles.wp_readLocalFile
      · exact fun e he _ => hincident
      · exact fun e r t he hstep => ((Env.network_local he).1 hstep).2
      · exact fun p' h => absurd h hminus
      · intro data hdata
        have hput : Proc.wp env.network (hiveIpfsPutFileFromBuffer (some Ipfs.table) (some data) data.length true)
            (fun result _ b' => (ObjectCall.put (some data)).Truly files b' result) p b :=
          wp_hiveIpfsPutFileFromBuffer (some data) hincident
        refine Proc.wp_prod hput hstill fun result p' t _ h _ hrc => ?_
        obtain ⟨cid, content, hbytes, hne, hsource, hmem⟩ := h hrc
        exact ⟨cid, content, hbytes, hne, hdata.trans hsource, hmem⟩
  | length cid =>
      have hlength : Proc.wp env.network (ObjectCall.length cid).call
          (fun result _ b' => (ObjectCall.length cid).Truly files b' result) p b := by
        rw [ObjectCall.call, Proc.wp_bind]
        apply wp_hiveIpfsGetFileLength fun hreliable => absurd hreliable hincident
        · exact fun content p' b' hmem _ _ _ _ => ⟨content, hmem, rfl⟩
        · exact fun n p' b' _ hnot hpos hsmall => absurd ⟨hpos, hsmall⟩ hnot
      exact Proc.wp_prod hlength hstill fun result p' t _ h _ => h
  | toBuffer cid block buflen =>
      have hbuffer : Proc.wp env.network (ObjectCall.toBuffer cid block buflen).call
          (fun result _ b' => (ObjectCall.toBuffer cid block buflen).Truly files b' result) p b := by
        rw [ObjectCall.call, Proc.wp_bind]
        apply wp_hiveIpfsGetFileToBuffer hsound.1 hsound.2 (fun hreliable => absurd hreliable hincident)
          (fun hreliable => absurd hreliable hincident)
        · exact fun content p' b' hmem _ _ => ⟨content, hmem, rfl, rfl⟩
        · exact fun n block' p' b' _ hnot hpos hsmall => absurd ⟨hpos, hsmall⟩ hnot
      exact Proc.wp_prod hbuffer hstill fun result p' t _ h _ => h

end

theorem truly_of_session {env : Env} {files : LocalFiles} {calls : List ObjectCall}
    (hsound : ∀ op ∈ calls, op.Sound) {p p' : Process IpfsConnect} {tr : Trace}
    {results : List (Int × Option Bytes)} {b b' : Blocks}
    (hrun : Run (Proc.collect ObjectCall.call calls p) tr (results, p'))
    (haccepts : env.adverse.network.Accepts b tr b') (hfiles : ∀ entry ∈ tr, files.Answers entry.1 entry.2) :
    List.Forall₂ (fun op result => op.Truly files b' result) calls results := by
  have hgrows : (env.adverse.network.prod files.still).Grows :=
    Env.network_grows.prod fun _ _ _ _ _ => le_refl _
  have hsession : Proc.wp (env.adverse.network.prod files.still) (Proc.collect ObjectCall.call calls)
      (fun results _ x => List.Forall₂ (fun op result => op.Truly files x.1 result) calls results) p (b, ()) := by
    apply Proc.wp_collect hgrows
    · intro op result x y hle h
      exact ObjectCall.truly_mono hle.1 h
    · exact fun op hop _ _ => wp_objectCall op Env.adverse_incident (hsound op hop)
  have hresults := Prog.wp_run hsession hrun (World.prod_accepts haccepts (LocalFiles.still_accepts hfiles))
  exact hresults

/-- The calls of a session, whatever fails in them and whatever other clients do, only add to the network, and all their results are true of the network that they leave. -/
theorem ipfs_answers_agree (env : Env) {files : LocalFiles} {calls : List ObjectCall}
    (hsound : ∀ op ∈ calls, op.Sound) {p p' : Process IpfsConnect} {tr : Trace}
    {results : List (Int × Option Bytes)} {b b' : Blocks}
    (hrun : Run (Proc.collect ObjectCall.call calls p) tr (results, p'))
    (haccepts : env.adverse.network.Accepts b tr b') (hfiles : ∀ entry ∈ tr, files.Answers entry.1 entry.2) :
    b ≤ b' ∧ List.Forall₂ (fun op result => op.Truly files b' result) calls results :=
  ⟨haccepts.le Env.network_grows, truly_of_session hsound hrun haccepts hfiles⟩

/-! A put, and a download of what has been put. -/

def addText : Bytes := bytes "\x7b\"Hash\":\"a\"\x7d"

def addJson : Json := .object [(bytes "Hash", .string (bytes "a"))]

def nodeEnv : Env where
  parse text :=
    if lsText.isPrefixOf text then some lsJson else if addText.isPrefixOf text then some addJson else none
  clock _ := True
  reliable := True

def addRequest : Request where
  method := .post
  url := .node (bytes "127.0.0.1") 9095 (bytes "/api/v0/add")
  mime := [(bytes "file", hello)]

def adding : Trace :=
  [⟨.httpClientNew .ipfsPutFileFromBuffer, true⟩, ⟨.perform addRequest, demoReply 200 addText⟩,
    ⟨.realloc (ResponseBody.empty.newSize addText.length), true⟩, ⟨.heapAfter (collected addText), [0]⟩,
    ⟨.cjsonParse addText, some addJson⟩]

def demoCalls : List ObjectCall := [.put (some hello), .toBuffer demoFile [0, 0, 0, 0, 0, 0] 6]

/-- The network that has the one object. -/
def helloNetwork : Blocks := Function.update (fun _ => Part.none) demoFile (Part.some hello)

unseal growSize in
theorem demoSession_run : Run (Proc.collect ObjectCall.call demoCalls demoNode) (adding ++ fetching)
    ([(0, some demoFile), (5, some (hello ++ [0]))], demoNode) := by
  iterate 12 refine .ask _ _ _ ?_
  exact .refl _

theorem nodeEnv_parse_ls (rest : Bytes) : nodeEnv.parse (lsText ++ rest) = some lsJson := by
  have hls : lsText.isPrefixOf (lsText ++ rest) = true := List.isPrefixOf_iff_prefix.2 (List.prefix_append _ _)
  simp only [nodeEnv, hls, if_true]

theorem nodeEnv_parse_add (rest : Bytes) : nodeEnv.parse (addText ++ rest) = some addJson := by
  have hadd : addText.isPrefixOf (addText ++ rest) = true := List.isPrefixOf_iff_prefix.2 (List.prefix_append _ _)
  have hls : lsText.isPrefixOf (addText ++ rest) = false := rfl
  simp only [nodeEnv, hls, hadd, if_true]
  rfl

theorem mem_helloNetwork : hello ∈ helloNetwork demoFile := by
  rw [helloNetwork, Function.update_self]
  exact Part.mem_some hello

theorem demoSession_accepted : nodeEnv.adverse.network.Accepts (fun _ => Part.none) (adding ++ fetching)
    helloNetwork := by
  have hincident : ∀ {P : Prop}, nodeEnv.adverse.reliable → P := False.elim
  have hlocal : ∀ {b b' : Blocks} {e : Event} {r : e.Answer} {tr : Trace}, Env.isLocal e →
      nodeEnv.adverse.Replies e r → nodeEnv.adverse.network.Accepts b tr b' →
      nodeEnv.adverse.network.Accepts b (⟨e, r⟩ :: tr) b' :=
    fun he hr h => .cons ((Env.network_local he).2 ⟨hr, rfl⟩) h
  have hadd : nodeEnv.adverse.Fetches (fun _ => Part.none) addRequest (demoReply 200 addText) helloNetwork := by
    refine ⟨⟨fun _ => bot_le, fun _ => ⟨addJson, demoFile, ?_, by decide, mem_helloNetwork⟩⟩, by decide, hincident⟩
    exact Env.says_of_prefix (by decide) (by decide) (by decide) nodeEnv_parse_add
  have hls : nodeEnv.adverse.Fetches helloNetwork lsRequest (demoReply 200 lsText) helloNetwork := by
    refine ⟨⟨le_refl _, fun _ => ⟨lsJson, hello, ?_, by decide, mem_helloNetwork⟩⟩, by decide, hincident⟩
    exact Env.says_of_prefix (by decide) (by decide) (by decide) nodeEnv_parse_ls
  have hcat : nodeEnv.adverse.Fetches helloNetwork catRequest ⟨[bytes "hel", bytes "lo"], 0, 0, 200⟩ helloNetwork :=
    ⟨⟨le_refl _, fun _ => ⟨hello, mem_helloNetwork, by decide⟩⟩, by decide, hincident⟩
  exact hlocal rfl hincident <| .cons hadd <| hlocal rfl hincident <| hlocal rfl hincident <|
    hlocal rfl (.inl (nodeEnv_parse_add []).symm) <| hlocal rfl hincident <| .cons hls <| hlocal rfl hincident <|
    hlocal rfl hincident <| hlocal rfl (.inl (nodeEnv_parse_ls []).symm) <| hlocal rfl hincident <| .cons hcat <| .nil _

theorem demoCalls_sound : ∀ op ∈ demoCalls, op.Sound := by
  intro op hop
  simp only [demoCalls, List.mem_cons, List.not_mem_nil, or_false] at hop
  rcases hop with rfl | rfl
  · trivial
  · exact ⟨by decide, by decide⟩

/-- The session reads no local file. -/
theorem demoSession_files : ∀ entry ∈ adding ++ fetching, LocalFiles.Answers (fun _ => none) entry.1 entry.2 := by
  intro entry hentry
  simp only [adding, fetching, List.cons_append, List.nil_append, List.mem_cons, List.not_mem_nil, or_false] at hentry
  rcases hentry with rfl | rfl | rfl | rfl | rfl | rfl | rfl | rfl | rfl | rfl | rfl | rfl <;> trivial

theorem ipfs_answers_agree_hello : ∃ content ∈ helloNetwork demoFile, (5 : Int) = content.length
    ∧ some (hello ++ [0]) = some (filled [0, 0, 0, 0, 0, 0] content) := by
  have hagree := (ipfs_answers_agree nodeEnv demoCalls_sound demoSession_run demoSession_accepted demoSession_files).2
  rw [demoCalls, List.forall₂_cons, List.forall₂_cons] at hagree
  exact hagree.2.1 (by decide) (by decide)

end HiveSdk
