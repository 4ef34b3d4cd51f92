import Mathlib.Data.List.Forall2
import HiveSdk.Ipfs.Store

/-!
# Objects that come back

What a session has put is found again. Within the session a look-up or a download that succeeds cannot be about anything else; and on a day without incidents, with a node selected, the three functions that read an object all succeed, down to the local file that the last of them creates.
-/

namespace HiveSdk

open Interaction Filling

section
variable {env : Env} {files : LocalFiles} {p : Process IpfsConnect} {b : Blocks} {cid content : Bytes}

/-! ### Local files are left alone -/

/-- No operation of the backend touches a local file. -/
private theorem keeps_localFiles :
    Ipfs.Keeps (LocalFiles.world env) fun _ files' => files' = files := by
  have helsewhere : ∀ e, Ipfs.IsQuiet e → LocalFiles.isElsewhere e := by
    intro e he
    cases e <;> first | rfl | exact he.elim
  have hquiet : ∀ s e r t, (LocalFiles.world env).step s e r t → Ipfs.IsQuiet e → t = s :=
    fun s e r t hstep he => ((LocalFiles.step_elsewhere (helsewhere e he)).1 hstep).2
  refine ⟨fun _ _ _ => trivial, hquiet, ?_, ?_, fun _ _ hs => hs⟩
  · intro p s Q hs hok hfail
    simp only [Ipfs.checkReachable, Proc.wp_bind, wp_getConn, Proc.wp_ite, Proc.wp_pure]
    refine ⟨fun hne => hok p s hne hs, fun _ => ?_⟩
    have hprobes : Ipfs.Probes (LocalFiles.world env) p.conn.rpcNodes s fun _ _ => s := by
      refine ⟨fun _ _ => trivial, hquiet s, fun _ _ _ _ => trivial, fun ip port reply t hstep => ?_⟩
      rw [ite_self]
      exact ((LocalFiles.step_elsewhere rfl).1 hstep).2
    apply hprobes.selectBootstrap
    · intro ip port hne _
      dsimp only
      rw [Proc.wp_bind, wp_setConn, Proc.wp_pure]
      exact hok _ s hne hs
    · exact hfail
  · intro conn s req path _ _ _ _
    exact ⟨trivial, fun reply t hstep => ((LocalFiles.step_elsewhere rfl).1 hstep).2⟩

private theorem kept_lookUp (hcid : cid ≠ []) :
    Proc.wp (LocalFiles.world env) (hiveIpfsGetFileLength (some Ipfs.table) (some cid))
      (fun _ _ files' => files' = files) p files := by
  have hcid' : nonEmpty (some cid) = some cid := by simp [nonEmpty, hcid]
  unfold hiveIpfsGetFileLength
  rw [hcid']
  show Proc.wp _ (dispatchLength (some (lengthOf (Ipfs.getFileLength cid)))) _ p files
  simp only [dispatchLength, lengthOf, Proc.wp_bind]
  apply keeps_localFiles.getFileLength rfl
  intro exit p' files' hfiles
  rw [Proc.wp_pure, Proc.wp_ite]
  exact ⟨fun _ => hfiles, fun _ => hfiles⟩

private theorem kept_getFileToBuffer {block : Bytes} {buflen : Nat} :
    Proc.wp (LocalFiles.world env) (bufferOf (Ipfs.getFileToBuffer cid block buflen))
      (fun _ _ files' => files' = files) p files := by
  rw [bufferOf, Proc.wp_bind]
  exact Proc.wp_mono (fun _ _ _ h => h) (keeps_localFiles.getFileToBuffer rfl)

private theorem kept_download {block : Bytes} {buflen : Nat} (hcid : cid ≠ []) (hpos : buflen ≠ 0) :
    Proc.wp (LocalFiles.world env) (hiveIpfsGetFileToBuffer (some Ipfs.table) (some cid) (some block) buflen)
      (fun _ _ files' => files' = files) p files := by
  have hcid' : nonEmpty (some cid) = some cid := by simp [nonEmpty, hcid]
  unfold hiveIpfsGetFileToBuffer
  rw [hcid']
  dsimp only
  rw [if_neg hpos]
  show Proc.wp _ (dispatchBuffer (some (bufferOf (Ipfs.getFileToBuffer cid block buflen))) block) _ p files
  rw [dispatchBuffer]
  apply Proc.wp_bind_of kept_getFileToBuffer
  rintro ⟨n, block'⟩ p' files' hfiles
  dsimp only
  rw [Proc.wp_ite]
  exact ⟨fun _ => hfiles, fun _ => hfiles⟩

/-! ### Reading an object -/

/-- On a day without incidents, with a node selected, an object that the network has can be read. -/
structure Retrievable (env : Env) (p : Process IpfsConnect) (b : Blocks) (cid content : Bytes) : Prop where
  reliable : env.reliable
  cid_ne_nil : cid ≠ []
  selected : p.conn.currentNodeIp ≠ []
  held : content ∈ b cid

private theorem Retrievable.found (h : Retrievable env p b cid content) : Ipfs.Found p.conn b cid :=
  ⟨h.selected, content, h.held⟩

private theorem Retrievable.lookUp (h : Retrievable env p b cid content) :
    Proc.wp env.network (hiveIpfsGetFileLength (some Ipfs.table) (some cid)) (fun n p' b' =>
      n = content.length ∧ content.length < 2 ^ 63 ∧ Retrievable env p' b' cid content) p b := by
  have hlength : Proc.wp env.network (hiveIpfsGetFileLength (some Ipfs.table) (some cid)) (fun n p' b' =>
      ∃ content' ∈ b' cid, n = content'.length ∧ content'.length < 2 ^ 63 ∧ p' = p) p b := by
    apply wp_hiveIpfsGetFileLength fun _ => ⟨h.cid_ne_nil, h.found⟩
    · exact fun content' p' b' hmem hsmall hsame => ⟨content', hmem, rfl, hsmall, hsame h.reliable⟩
    · exact fun n p' b' hincident _ => absurd h.reliable hincident
  refine Proc.wp_mono (fun n p' b' hresult => ?_) (Proc.wp_grown Env.network_grows hlength)
  obtain ⟨⟨content', hmem, hn, hsmall, rfl⟩, hle⟩ := hresult
  have hheld := Env.mem_of_le hle h.held
  obtain rfl := Part.mem_unique hheld hmem
  exact ⟨hn, hsmall, h.reliable, h.cid_ne_nil, h.selected, hheld⟩

private theorem Retrievable.download {block : Bytes} {buflen : Nat} (h : Retrievable env p b cid content)
    (hroom : Ipfs.Room block buflen) (hfits : content.length ≤ buflen) :
    Proc.wp env.network (bufferOf (Ipfs.getFileToBuffer cid block buflen))
      (fun result _ _ => result = ((content.length : Int), filled block content)) p b := by
  have hroom' : env.reliable → ∀ content' ∈ b cid, content'.length ≤ buflen := by
    intro _ content' hmem
    rw [← Part.mem_unique h.held hmem]
    exact hfits
  have hbuffer : Proc.wp env.network (Ipfs.getFileToBuffer cid block buflen) (fun result _ b' =>
      ∃ content' ∈ b' cid, result = (.length content'.length, filled block content')) p b := by
    apply Ipfs.wp_getFileToBuffer hroom (fun _ => h.found) hroom'
    · exact fun content' p' b' hmem => ⟨content', hmem, rfl⟩
    · exact fun exit block' p' b' hincident _ => absurd h.reliable hincident
  rw [bufferOf]
  apply Proc.wp_bind_of (Proc.wp_grown Env.network_grows hbuffer)
  rintro result p' b' ⟨⟨content', hmem, rfl⟩, hle⟩
  rw [Part.mem_unique (Env.mem_of_le hle h.held) hmem]
  exact rfl

private theorem Retrievable.toBuffer {block : Bytes} {buflen : Nat} (h : Retrievable env p b cid content)
    (hroom : Ipfs.Room block buflen) (hfits : content.length ≤ buflen) :
    Proc.wp env.network (hiveIpfsGetFileToBuffer (some Ipfs.table) (some cid) (some block) buflen)
      (fun result _ _ => result = ((content.length : Int), filled block content)) p b := by
  have hcid : nonEmpty (some cid) = some cid := by simp [nonEmpty, h.cid_ne_nil]
  unfold hiveIpfsGetFileToBuffer
  rw [hcid]
  dsimp only
  rw [if_neg hroom.pos]
  show Proc.wp _ (dispatchBuffer (some (bufferOf (Ipfs.getFileToBuffer cid block buflen))) block) _ p b
  rw [dispatchBuffer]
  apply Proc.wp_bind_of (h.download hroom hfits)
  rintro result p' b' rfl
  dsimp only
  rw [if_neg (by omega)]
  exact rfl

/-- A local call, in both worlds. -/
private theorem wp_call_beside {e : Event} (he : Env.isLocal e)
    {Q : e.Answer → Process IpfsConnect → Blocks × LocalFiles → Prop}
    (h : ∀ r files', env.Replies e r → files.Step e r files' → Q r p (b, files')) :
    Proc.wp (env.network.prod (LocalFiles.world env)) (call e) Q p (b, files) := by
  rw [Proc.wp_call]
  refine ⟨⟨fun hne => ?_, trivial⟩, ?_⟩
  · rcases hne with rfl | rfl <;> cases he
  · rintro r ⟨b', files'⟩ ⟨hquiet, -, hstep⟩
    obtain ⟨hr, hsame⟩ := (Env.network_local he).1 hquiet
    rw [show b' = b from hsame]
    exact h r files' hr hstep

/-- The file is created, and written once. -/
private theorem Retrievable.toFile {dst : Bytes} (h : Retrievable env p b cid content) (hdst : dst ≠ [])
    (hnew : files dst = none) :
    Proc.wp (env.network.prod (LocalFiles.world env))
      (hiveIpfsGetFile (some Ipfs.table) (some cid) (some dst)) (fun n _ x =>
        n = content.length ∧ x.2 = Function.update files dst (some content)) p (b, files) := by
  have hcid : nonEmpty (some cid) = some cid := by simp [nonEmpty, h.cid_ne_nil]
  have hdst' : nonEmpty (some dst) = some dst := by simp [nonEmpty, hdst]
  unfold hiveIpfsGetFile
  rw [hcid, hdst']
  dsimp only
  rw [Proc.wp_bind]
  refine Proc.wp_prod h.lookUp (kept_lookUp h.cid_ne_nil) ?_
  intro n p₁ b₁ files₁ hlooked hkept
  obtain ⟨rfl, hsmall, h₁⟩ := hlooked
  rw [hkept, if_neg (by omega), createAndFill, Proc.wp_bind]
  apply wp_call_beside rfl
  intro opened files₂ _ hopen
  obtain ⟨rfl, rfl⟩ : opened = .ok () ∧ files₂ = Function.update files dst (some []) := hopen.1 hnew
  dsimp only
  rw [Proc.wp_ite]
  constructor
  · intro hzero
    have hnil : content = [] := List.length_eq_zero_iff.1 (by omega)
    subst hnil
    exact ⟨rfl, rfl⟩
  intro hpos
  have hsize : cSize (content.length : Int) = content.length := cSize_eq_self (by omega)
  rw [hsize, Proc.wp_bind]
  apply wp_call_beside rfl
  rintro allocated files₃ hallocated hsame
  obtain rfl : files₃ = Function.update files dst (some []) := hsame
  rw [hallocated h.reliable, if_neg (by decide), Proc.wp_bind]
  have hroom : Ipfs.Room (List.replicate content.length 0) content.length := by
    refine ⟨by omega, ?_, ?_⟩ <;> rw [List.length_replicate]
    exact hsmall
  show Proc.wp _ (bufferOf (Ipfs.getFileToBuffer cid (List.replicate content.length 0) content.length) >>= _) _ _ _
  rw [Proc.wp_bind]
  refine Proc.wp_prod (h₁.download hroom le_rfl) kept_getFileToBuffer ?_
  intro result p₄ b₄ files₄ hresult hkept₄
  have hfull : filled (List.replicate content.length 0) content = content := by
    rw [filled, List.drop_replicate, Nat.sub_self, List.replicate_zero, List.append_nil]
  rw [hresult, hkept₄, hfull]
  dsimp only
  rw [if_neg (by omega), Proc.wp_pure]
  dsimp only
  rw [if_neg (by omega), Proc.wp_bind, writeBuffer, if_neg (by omega), Int.toNat_natCast, List.take_length,
    Proc.wp_bind]
  apply wp_call_beside rfl
  intro written files₅ _ hwrite
  obtain ⟨rfl, rfl⟩ : written = .ok content.length ∧ _ := hwrite
  dsimp only
  rw [Proc.wp_pure, if_neg (by simp), Proc.wp_pure]
  refine ⟨rfl, ?_⟩
  rw [Function.update_self, Function.update_idem]
  rfl

end

/-! ### What is read after a session -/

/-- On a day without incidents nothing undefined happens in `m`, and what it gives and leaves in the local files is as `Q` says, however the network grows and the contents are cut into pieces. -/
structure Env.Retrieves {α : Type} (env : Env) (m : Prog Event Event.Answer α) (b : Blocks) (files : LocalFiles)
    (Q : α → LocalFiles → Prop) : Prop where
  defined : ∀ tr e k b' files', Steps m tr (.ask e k) → env.dependable.network.Accepts b tr b' →
    (LocalFiles.world env.dependable).Accepts files tr files' → e ≠ .undefined ∧ e ≠ .diverge
  result : ∀ tr a b' files', Run m tr a → env.dependable.network.Accepts b tr b' →
    (LocalFiles.world env.dependable).Accepts files tr files' → Q a files'

section
variable {env : Env} {files : LocalFiles} {p : Process IpfsConnect} {b : Blocks} {cid content : Bytes}

private theorem retrieves_of_wp {α : Type} {m : Hive IpfsConnect α}
    {P : α → Process IpfsConnect → Blocks × LocalFiles → Prop} {Q : α × Process IpfsConnect → LocalFiles → Prop}
    (h : Proc.wp (env.dependable.network.prod (LocalFiles.world env.dependable)) m P p (b, files))
    (hP : ∀ a p' x, P a p' x → Q (a, p') x.2) : env.Retrieves (m p) b files Q where
  defined := by
    intro tr e k b' files' hsteps haccepts hlocal
    have hpre := (Prog.wp_steps h hsteps (World.prod_accepts haccepts hlocal)).1
    exact ⟨fun heq => hpre (.inl heq) trivial, fun heq => hpre (.inr heq) trivial⟩
  result := by
    rintro tr ⟨a, p'⟩ b' files' hrun haccepts hlocal
    have hprog : (m p).wp (env.dependable.network.prod (LocalFiles.world env.dependable))
      (fun x => P x.1 x.2) (b, files) := h
    have hresult := Prog.wp_run hprog hrun (World.prod_accepts haccepts hlocal)
    exact hP a p' (b', files') hresult

/-- A function that leaves the local files alone. -/
private theorem retrieves_of_read {α : Type} {m : Hive IpfsConnect α} {P : α → Prop}
    (h : Proc.wp env.dependable.network m (fun a _ _ => P a) p b)
    (hkept : Proc.wp (LocalFiles.world env.dependable) m (fun _ _ files' => files' = files) p files) :
    env.Retrieves (m p) b files fun x files' => P x.1 ∧ files' = files := by
  have hboth : Proc.wp (env.dependable.network.prod (LocalFiles.world env.dependable)) m
      (fun a _ x => P a ∧ x.2 = files) p (b, files) :=
    Proc.wp_prod h hkept fun _ _ _ _ ha hfiles => ⟨ha, hfiles⟩
  exact retrieves_of_wp hboth fun _ _ _ h => h

/-- The three functions that read the object `cid`. -/
structure RetrievedAs (env : Env) (p : Process IpfsConnect) (b : Blocks) (cid content : Bytes) : Prop where
  length : ∀ files, env.Retrieves (hiveIpfsGetFileLength (some Ipfs.table) (some cid) p) b files
    fun x files' => x.1 = content.length ∧ files' = files
  buffer : ∀ files block buflen, max 1 content.length ≤ buflen → buflen ≤ block.length → block.length < 2 ^ 63 →
    env.Retrieves (hiveIpfsGetFileToBuffer (some Ipfs.table) (some cid) (some block) buflen p) b files
      fun x files' => x.1 = ((content.length : Int), filled block content) ∧ files' = files
  file : ∀ files dst, dst ≠ [] → files dst = none →
    env.Retrieves (hiveIpfsGetFile (some Ipfs.table) (some cid) (some dst) p) b files
      fun x files' => x.1 = content.length ∧ files' = Function.update files dst (some content)

theorem retrievedAs_of_mem (hcid : cid ≠ []) (hselected : p.conn.currentNodeIp ≠ []) (hmem : content ∈ b cid) :
    RetrievedAs env p b cid content := by
  have h : Retrievable env.dependable p b cid content := ⟨trivial, hcid, hselected, hmem⟩
  refine ⟨fun files => ?_, fun files block buflen hmax hle hlong => ?_, fun files dst hdst hnew => ?_⟩
  · have hlookUp := Proc.wp_mono (fun n _ _ hn => hn.1) h.lookUp
    exact retrieves_of_read hlookUp (kept_lookUp hcid)
  · have hroom : Ipfs.Room block buflen := ⟨by omega, hle, hlong⟩
    exact retrieves_of_read (h.toBuffer hroom (by omega)) (kept_download hcid hroom.pos)
  · exact retrieves_of_wp (h.toFile hdst hnew) fun _ _ _ h => h

end

theorem stored_of_truly {files : LocalFiles} {b : Blocks} {op : ObjectCall} {cid content : Bytes}
    (h : op.Truly files b (0, some cid)) (hsource : op.source files = some content) : cid ≠ [] ∧ content ∈ b cid := by
  cases op with
  | put source | putFile source =>
      obtain ⟨cid', content', hcid, hne, hcontent, hmem⟩ := h rfl
      obtain rfl := Option.some.inj hcid
      obtain rfl := Option.some.inj (hsource.symm.trans hcontent)
      exact ⟨hne, hmem⟩
  | length cid | toBuffer cid block buflen => cases hsource

/-- What a put has returned an identifier for comes back under it: to every look-up and every download of the session that succeeds, before the put or after it, and on a later day without incidents to all the functions that read. -/
theorem ipfs_round_trip (env : Env) {files : LocalFiles} {calls : List ObjectCall}
    (hsound : ∀ op ∈ calls, op.Sound) {p p' : Process IpfsConnect} {tr : Trace}
    {results : List (Int × Option Bytes)} {b b' : Blocks}
    (hrun : Run (Proc.collect ObjectCall.call calls p) tr (results, p'))
    (haccepts : env.adverse.network.Accepts b tr b') (hfiles : ∀ entry ∈ tr, files.Answers entry.1 entry.2)
    {op : ObjectCall} {cid content : Bytes} (hput : (op, (0, some cid)) ∈ calls.zip results)
    (hsource : op.source files = some content) :
    (∀ n bytes, (.length cid, (n, bytes)) ∈ calls.zip results → 0 ≤ n → n < 2 ^ 31 → n = content.length)
    ∧ (∀ block buflen n bytes, (.toBuffer cid block buflen, (n, bytes)) ∈ calls.zip results → 0 ≤ n → n < 2 ^ 31 →
        n = content.length ∧ bytes = some (filled block content))
    ∧ ∀ q : Process IpfsConnect, q.conn.currentNodeIp ≠ [] → RetrievedAs env q b' cid content := by
  have htruly := List.forall₂_iff_zip.1 (truly_of_session hsound hrun haccepts hfiles)
  obtain ⟨hcid, hmem⟩ := stored_of_truly (htruly.2 hput) hsource
  refine ⟨fun n bytes hread hpos hsmall => ?_, fun block buflen n bytes hread hpos hsmall => ?_,
    fun q hselected => retrievedAs_of_mem hcid hselected hmem⟩
  · obtain ⟨content', hmem', hn⟩ := htruly.2 hread hpos hsmall
    rw [hn, Part.mem_unique hmem hmem']
  · obtain ⟨content', hmem', hn, hbytes⟩ := htruly.2 hread hpos hsmall
    obtain rfl := Part.mem_unique hmem hmem'
    exact ⟨hn, hbytes⟩

/-! The object of a session comes down into a local file. -/

def bringing : Trace :=
  fetching.take 5 ++ [⟨.openFile downTarget .wronlyCreatExcl, .ok ()⟩, ⟨.alloc 5, true⟩] ++ fetching
    ++ [⟨.write downTarget hello, .ok 5⟩]

unseal growSize in
private theorem bringing_run :
    Run (hiveIpfsGetFile (some Ipfs.table) (some demoFile) (some downTarget) demoNode) bringing (5, demoNode) := by
  iterate 15 refine .ask _ _ _ ?_
  exact .refl _

private theorem bringing_network : nodeEnv.dependable.network.Accepts helloNetwork bringing helloNetwork := by
  have hlocal : ∀ {e : Event} {r : e.Answer} {tr : Trace}, Env.isLocal e →
      nodeEnv.dependable.Replies e r → nodeEnv.dependable.network.Accepts helloNetwork tr helloNetwork →
      nodeEnv.dependable.network.Accepts helloNetwork (⟨e, r⟩ :: tr) helloNetwork :=
    fun he hr h => .cons ((Env.network_local he).2 ⟨hr, rfl⟩) h
  have hls : nodeEnv.dependable.Fetches helloNetwork lsRequest (demoReply 200 lsText) helloNetwork := by
    refine ⟨⟨le_refl _, fun _ => ⟨lsJson, hello, ?_, by decide, mem_helloNetwork⟩⟩, by decide, fun _ => ?_⟩
    · exact Env.says_of_prefix (by decide) (by decide) (by decide) nodeEnv_parse_ls
    · refine ⟨by decide, fun _ _ _ _ => rfl, fun _ _ => demoReply_leavesRoom (by decide) (by decide),
        fun cid content hwant => ?_⟩
      cases (show Want.size demoFile = Want.content cid from hwant)
  have hcat : nodeEnv.dependable.Fetches helloNetwork catRequest ⟨[bytes "hel", bytes "lo"], 0, 0, 200⟩ helloNetwork := by
    refine ⟨⟨le_refl _, fun _ => ⟨hello, mem_helloNetwork, by decide⟩⟩, by decide, fun _ => ?_⟩
    refine ⟨by decide, fun cid content hwant => ?_, fun cid hwant => ?_, fun cid content hwant hmem => ⟨rfl, ?_⟩⟩
    · cases (show Want.content demoFile = Want.size cid from hwant)
    · cases (show Want.content demoFile = Want.size cid from hwant)
    · obtain rfl := Want.content.inj (show Want.content demoFile = Want.content cid from hwant)
      exact Part.mem_unique mem_helloNetwork hmem
  have hparse : some lsJson = nodeEnv.dependable.parse lsText := (nodeEnv_parse_ls []).symm
  have hzero : ∀ block, nodeEnv.dependable.Replies (.heapAfter block) [0] := Env.replies_zero _
  exact hlocal rfl (fun _ => rfl) <| .cons hls <| hlocal rfl (fun _ => rfl) <| hlocal rfl (hzero _) <|
    hlocal rfl (.inl hparse) <| hlocal rfl trivial <| hlocal rfl (fun _ => rfl) <| hlocal rfl (fun _ => rfl) <|
    .cons hls <| hlocal rfl (fun _ => rfl) <| hlocal rfl (hzero _) <| hlocal rfl (.inl hparse) <|
    hlocal rfl (fun _ => rfl) <| .cons hcat <| hlocal rfl trivial <| .nil _

private theorem bringing_files : ∃ files', (LocalFiles.world nodeEnv.dependable).Accepts (fun _ => none) bringing files' := by
  have helse : ∀ {files files' : LocalFiles} {e : Event} {r : e.Answer} {tr : Trace},
      LocalFiles.isElsewhere e → nodeEnv.dependable.Replies e r →
      (LocalFiles.world nodeEnv.dependable).Accepts files tr files' →
      (LocalFiles.world nodeEnv.dependable).Accepts files (⟨e, r⟩ :: tr) files' :=
    fun he hr h => .cons ((LocalFiles.step_elsewhere he).2 ⟨hr, rfl⟩) h
  have hparse : some lsJson = nodeEnv.dependable.parse lsText := (nodeEnv_parse_ls []).symm
  have hzero : ∀ block, nodeEnv.dependable.Replies (.heapAfter block) [0] := Env.replies_zero _
  exact ⟨_, helse rfl (fun _ => rfl) <| helse rfl trivial <| helse rfl (fun _ => rfl) <| helse rfl (hzero _) <|
    helse rfl (.inl hparse) <| .cons ⟨trivial, fun _ => ⟨rfl, rfl⟩, fun h => absurd rfl h⟩ <|
    helse rfl (fun _ => rfl) <| helse rfl (fun _ => rfl) <| helse rfl trivial <| helse rfl (fun _ => rfl) <|
    helse rfl (hzero _) <| helse rfl (.inl hparse) <| helse rfl (fun _ => rfl) <| helse rfl trivial <|
    .cons ⟨trivial, rfl, rfl⟩ <| .nil _⟩

theorem ipfs_round_trip_hello : ∃ files', nodeEnv.dependable.network.Accepts helloNetwork bringing helloNetwork
    ∧ (LocalFiles.world nodeEnv.dependable).Accepts (fun _ => none) bringing files'
    ∧ files' downTarget = some hello := by
  have hput : (ObjectCall.put (some hello), ((0 : Int), some demoFile))
      ∈ demoCalls.zip [(0, some demoFile), (5, some (hello ++ [0]))] := List.mem_cons_self
  have hback := ipfs_round_trip nodeEnv demoCalls_sound demoSession_run demoSession_accepted demoSession_files hput rfl
  have hreads := hback.2.2 demoNode (by decide)
  obtain ⟨files', hlocal⟩ := bringing_files
  have hfile := (hreads.file (fun _ => none) downTarget (by decide) rfl).result bringing _ helloNetwork files'
    bringing_run bringing_network hlocal
  refine ⟨files', bringing_network, hlocal, ?_⟩
  rw [hfile.2]
  exact Function.update_self ..

end HiveSdk
