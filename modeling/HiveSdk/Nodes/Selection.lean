import HiveSdk.Drive.World
import HiveSdk.Errors.Lengths
import HiveSdk.Model.Client

/-!
# The node that an IPFS connect talks to

A connect keeps one node selected, in two fields of which only the address is cleared when the node is lost. Two monitors watch the requests. The first follows the probes and allows a request to the API only at the address that has answered the latest successful probe; the invariant that carries it is that a selected address is that address, and one of the node table. The second follows the transfers, and finds that an operation whose transfer could not reach the node says so and leaves no node selected.
-/

namespace HiveSdk

open Interaction

namespace Ipfs

def versionPath : Bytes := bytes "/version"

/-- The paths of the API. -/
def apiPaths : List Bytes := [bytes "/api/v0/add", bytes "/api/v0/file/ls", bytes "/api/v0/cat"]

theorem apiPaths_ne {path : Bytes} (h : path ∈ apiPaths) : path ≠ versionPath := by
  rintro rfl
  exact absurd h (by decide)

/-- A request that only asks whether a node is there. -/
def IsProbe (req : Request) : Prop := ∃ ip port, req.url = .node ip port versionPath

/-- The address of the latest successful probe. -/
def probed (latest : Option (Bytes × Nat)) (entry : Entry Event Event.Answer) :
    Option (Bytes × Nat) :=
  match entry with
  | ⟨.perform req, reply⟩ =>
      match req.url with
      | .node ip port path =>
          if path = versionPath ∧ reply.answered = some HttpStatus.ok then some (ip, port)
          else latest
      | _ => latest
  | _ => latest

def latestProbe (tr : Trace) : Option (Bytes × Nat) := tr.foldl probed none

/-- A request to an address that is not empty and has answered the latest successful probe. -/
def GoesTo (latest : Option (Bytes × Nat)) (req : Request) : Prop :=
  ∃ ip port path, req.url = .node ip port path ∧ ip ≠ [] ∧ latest = some (ip, port)

/-- Whether a request may be sent. -/
def Allowed (latest : Option (Bytes × Nat)) : Event → Prop
  | .perform req => IsProbe req ∨ GoesTo latest req
  | _ => True

def probing : World Event Event.Answer (Option (Bytes × Nat)) := World.monitor Allowed probed

/-- An address and the port of one configured node. -/
def Configured (nodes : List RpcNode) (ip : Bytes) (port : Nat) : Prop :=
  ∃ node ∈ nodes, (ip = node.ipv4 ∨ ip = node.ipv6) ∧ port = node.port

/-- What holds between the calls: a selected address is a configured one, and the last one probed. -/
structure Selects (nodes : List RpcNode) (conn : IpfsConnect) (latest : Option (Bytes × Nat)) :
    Prop where
  table : conn.rpcNodes = nodes
  selected : conn.currentNodeIp ≠ [] → Configured nodes conn.currentNodeIp conn.currentNodePort
    ∧ latest = some (conn.currentNodeIp, conn.currentNodePort)

/-! ### The search -/

/-- The calls of a connect that are no requests. -/
def IsQuiet : Event → Prop
  | .alloc _ | .realloc _ | .heapAfter _ | .cjsonParse _ | .httpClientNew _ | .rand => True
  | .undefined | .diverge => True
  | _ => False

/-- A world that takes the probes of the configured addresses. After a successful one it is in the state `hit`. -/
structure Probes {τ : Type} (W : World Event Event.Answer τ) (nodes : List RpcNode) (s : τ)
    (hit : Bytes → Nat → τ) : Prop where
  free : ∀ e, IsQuiet e → W.pre s e
  quiet : ∀ e r t, W.step s e r t → IsQuiet e → t = s
  request : ∀ ip port, ip ≠ [] → Configured nodes ip port →
    W.pre s (.perform { method := .post, url := .node ip port versionPath })
  answer : ∀ ip port reply t, W.step s (.perform { method := .post, url := .node ip port versionPath }) reply t →
    t = if reply.answered = some HttpStatus.ok then hit ip port else s

section
variable {σ τ : Type} {W : World Event Event.Answer τ} {nodes : List RpcNode} {p : Process σ} {s : τ}
  {hit : Bytes → Nat → τ}

theorem Probes.testReachable (h : Probes W nodes s hit) {ip : Bytes} {port : Nat} (hne : ip ≠ [])
    (hconfigured : Configured nodes ip port) {Q : Int → Process σ → τ → Prop}
    (hok : Q 0 p (hit ip port)) (hfail : ∀ rc, rc < 0 → Q rc p s) :
    Proc.wp W (testReachable ip port) Q p s := by
  rw [Ipfs.testReachable, Proc.wp_ite, Proc.wp_pure]
  refine ⟨fun _ => hfail _ (cInt_hiveMkError_neg .general (by decide)), fun _ => ?_⟩
  rw [Proc.wp_bind, Proc.wp_call]
  refine ⟨h.free _ trivial, fun created t hstep => ?_⟩
  obtain rfl := h.quiet _ _ _ hstep trivial
  rw [Proc.wp_ite, Proc.wp_pure, Proc.wp_bind, httpClientRequest, Proc.wp_bind, Proc.wp_call]
  refine ⟨fun _ => hfail _ (cInt_hiveMkError_neg .general (by decide)), fun _ => ?_⟩
  refine ⟨h.request ip port hne hconfigured, fun reply u hstep => ?_⟩
  have hu := h.answer ip port reply u hstep
  rw [Proc.wp_pure]
  have hlost : reply.answered ≠ some HttpStatus.ok → ∀ rc, rc < 0 → Q rc p u := by
    intro hne rc hrc
    rw [hu, if_neg hne]
    exact hfail rc hrc
  have hnone : ¬ (reply.code = 0 ∧ reply.info = 0) → reply.answered ≠ some HttpStatus.ok := by
    intro hne
    rw [Reply.answered, if_neg hne]
    simp
  simp only [Proc.wp_ite, Proc.wp_pure]
  refine ⟨fun hcode => ?_, fun hcode => ⟨fun hinfo => ?_, fun hinfo => ⟨fun hstatus => ?_,
    fun hstatus => ?_⟩⟩⟩
  · exact hlost (hnone fun h => hcode h.1) _ (cInt_hiveMkError_neg .curl (by omega))
  · exact hlost (hnone fun h => hinfo h.2) _ (cInt_hiveMkError_neg .curl (by omega))
  · have hanswered : reply.answered = some reply.status := if_pos ⟨not_not.1 hcode, not_not.1 hinfo⟩
    refine hlost (fun h => hstatus ?_) _ (cInt_hiveMkError_neg .httpStatus (by omega))
    exact Option.some.inj (hanswered.symm.trans h)
  · have hanswered : reply.answered = some reply.status := if_pos ⟨not_not.1 hcode, not_not.1 hinfo⟩
    rw [not_not.1 hstatus] at hanswered
    show Q 0 p u
    rw [hu, if_pos hanswered]
    exact hok

private theorem Probes.tryAddress (h : Probes W nodes s hit) {ip : Bytes} {port : Nat}
    (hconfigured : Configured nodes ip port) {Q : Bool → Process σ → τ → Prop}
    (hok : ip ≠ [] → Q true p (hit ip port)) (hfail : Q false p s) :
    Proc.wp W (tryAddress ip port) Q p s := by
  rw [Ipfs.tryAddress, Proc.wp_ite, Proc.wp_pure, Proc.wp_bind]
  refine ⟨fun _ => hfail, fun hne => ?_⟩
  apply h.testReachable hne hconfigured
  · exact hok hne
  · intro rc hrc
    rw [Proc.wp_pure, decide_eq_false (by omega)]
    exact hfail

private theorem Probes.scanNodes (h : Probes W nodes s hit) {base steps i : Nat}
    {Q : Int × Option (Bytes × Nat) → Process σ → τ → Prop}
    (hok : ∀ ip port, ip ≠ [] → Configured nodes ip port → Q (0, some (ip, port)) p (hit ip port))
    (hfail : ∀ rc, rc < 0 → Q (rc, none) p s) :
    Proc.wp W (scanNodes nodes base steps i) Q p s := by
  induction steps generalizing i with
  | zero =>
      rw [Ipfs.scanNodes, Proc.wp_bind, Proc.wp_call]
      exact ⟨h.free _ trivial, fun never => never.elim⟩
  | succ steps ih =>
      rw [Ipfs.scanNodes]
      rcases hnode : nodes[i]? with _ | node
      · exact (wp_undefinedBehaviour ..).2 (h.free _ trivial)
      have hmem : node ∈ nodes := List.mem_of_getElem? hnode
      have hipv4 : Configured nodes node.ipv4 node.port := ⟨node, hmem, .inl rfl, rfl⟩
      have hipv6 : Configured nodes node.ipv6 node.port := ⟨node, hmem, .inr rfl, rfl⟩
      dsimp only
      rw [Proc.wp_bind]
      apply h.tryAddress hipv4
      · intro hne
        rw [if_pos rfl, Proc.wp_pure]
        exact hok _ _ hne hipv4
      rw [if_neg Bool.false_ne_true, Proc.wp_bind]
      apply h.tryAddress hipv6
      · intro hne
        rw [if_pos rfl, Proc.wp_pure]
        exact hok _ _ hne hipv6
      rw [if_neg Bool.false_ne_true]
      simp only [Proc.wp_ite, Proc.wp_pure]
      exact ⟨fun _ => ih, fun _ => hfail _ (cInt_hiveMkError_neg .general (by decide))⟩

theorem Probes.selectBootstrap (h : Probes W nodes s hit)
    {Q : Int × Option (Bytes × Nat) → Process σ → τ → Prop}
    (hok : ∀ ip port, ip ≠ [] → Configured nodes ip port → Q (0, some (ip, port)) p (hit ip port))
    (hfail : ∀ rc, rc < 0 → Q (rc, none) p s) :
    Proc.wp W (selectBootstrap nodes) Q p s := by
  rw [Ipfs.selectBootstrap, Proc.wp_bind, Proc.wp_call]
  refine ⟨h.free _ trivial, fun n t hstep => ?_⟩
  obtain rfl := h.quiet _ _ _ hstep trivial
  exact h.scanNodes hok hfail

/-- A connect that is made has selected an address that answered. -/
theorem Probes.connect {inetPton : InetPton} {opts : IpfsConnectOptions}
    (h : ∀ nodes, opts.rpcNodes.mapM (checkNode inetPton) = some nodes → Probes W nodes s hit) :
    Proc.wp W (ipfsClientConnect inetPton opts) (fun conn _ t => ∀ conn', conn = some conn' →
      ∃ nodes ip port, opts.rpcNodes.mapM (checkNode inetPton) = some nodes ∧ ip ≠ []
        ∧ Configured nodes ip port ∧ conn' = ⟨ip, port, nodes⟩ ∧ t = hit ip port) p s := by
  rw [ipfsClientConnect, Proc.wp_ite, Proc.wp_pure]
  refine ⟨fun _ => nofun, fun _ => ?_⟩
  rcases hnodes : opts.rpcNodes.mapM (checkNode inetPton) with _ | nodes
  · exact nofun
  have hprobes := h nodes hnodes
  dsimp only
  rw [Proc.wp_bind, Proc.wp_call]
  refine ⟨hprobes.free _ trivial, fun allocated t hstep => ?_⟩
  obtain rfl := hprobes.quiet _ _ _ hstep trivial
  rw [Proc.wp_ite, Proc.wp_pure, rpcNew, Proc.wp_bind, Proc.wp_call]
  refine ⟨fun _ => nofun, fun _ => ⟨hprobes.free _ trivial, fun allocated' u hstep => ?_⟩⟩
  obtain rfl := hprobes.quiet _ _ _ hstep trivial
  rw [Proc.wp_ite, Proc.wp_bind, wp_hiveSetError, Proc.wp_pure, Proc.wp_bind]
  refine ⟨fun _ => nofun, fun _ => ?_⟩
  apply hprobes.selectBootstrap
  · intro ip port hne hconfigured
    dsimp only
    rw [if_neg (by decide), Proc.wp_pure]
    intro conn' hconn
    obtain rfl := Option.some.inj hconn
    exact ⟨nodes, ip, port, rfl, hne, hconfigured, rfl, rfl⟩
  · intro rc hrc
    dsimp only
    rw [if_pos hrc, Proc.wp_bind, wp_hiveSetError, Proc.wp_pure]
    exact nofun

end

/-! ### The operations -/

/-- A world with an invariant of the connect that the parts of the operations keep: the calls that are no requests, the search for a node, a request to the API of the node that is selected, and the loss of a node. -/
structure Keeps {τ : Type} (W : World Event Event.Answer τ) (I : IpfsConnect → τ → Prop) : Prop where
  free : ∀ s e, IsQuiet e → W.pre s e
  quiet : ∀ s e r t, W.step s e r t → IsQuiet e → t = s
  search : ∀ {p : Process IpfsConnect} {s} {Q : Int → Process IpfsConnect → τ → Prop},
    I p.conn s → (∀ (p' : Process IpfsConnect) t, p'.conn.currentNodeIp ≠ [] → I p'.conn t → Q 0 p' t) →
    (∀ rc, rc < 0 → Q rc p s) → Proc.wp W checkReachable Q p s
  request : ∀ {conn s} {req : Request} {path}, I conn s → conn.currentNodeIp ≠ [] →
    req.url = .node conn.currentNodeIp conn.currentNodePort path → path ∈ apiPaths →
    W.pre s (.perform req) ∧ ∀ reply t, W.step s (.perform req) reply t → t = s
  lost : ∀ conn s, I conn s → I { conn with currentNodeIp := [] } s

section
variable {τ : Type} {W : World Event Event.Answer τ} {I : IpfsConnect → τ → Prop}
  {p : Process IpfsConnect} {s : τ}

private theorem Keeps.requestError (h : Keeps W I) {rc : CurlCode}
    {Q : Int → Process IpfsConnect → τ → Prop} (hs : I p.conn s)
    (hQ : ∀ err (p' : Process IpfsConnect), I p'.conn s → Q err p' s) :
    Proc.wp W (requestError rc) Q p s := by
  simp only [Ipfs.requestError, markNodeUnreachable, Proc.wp_ite, Proc.wp_bind, Proc.wp_pure, wp_getConn,
    wp_setConn]
  exact ⟨fun _ => hQ _ _ (h.lost _ _ hs), fun _ => hQ _ p hs⟩

/-- An API request whose body is kept. -/
private theorem Keeps.httpClientRequestBody (h : Keeps W I) {path : Bytes} {req : Request}
    {Q : CurlCode × Reply × ResponseBody → Process IpfsConnect → τ → Prop}
    (hs : I p.conn s) (hne : p.conn.currentNodeIp ≠ [])
    (hurl : req.url = .node p.conn.currentNodeIp p.conn.currentNodePort path)
    (hpath : path ∈ apiPaths) (hQ : ∀ rc reply response, Q (rc, reply, response) p s) :
    Proc.wp W (httpClientRequestBody req) Q p s := by
  obtain ⟨hrequest, hanswer⟩ := h.request hs hne hurl hpath
  apply wp_httpClientRequestBody_any
  · intro reply t _ n
    exact h.free _ _ trivial
  · intro t n ok u hstep
    exact h.quiet _ _ _ _ hstep trivial
  · exact hrequest
  · intro reply t hstep rc response
    rw [hanswer reply t hstep]
    exact hQ rc reply response

private theorem Keeps.cjsonParse (h : Keeps W I) {body : HeapBlock}
    {Q : Option Json → Process IpfsConnect → τ → Prop} (hQ : ∀ json, Q json p s) :
    Proc.wp W (cjsonParse body) Q p s :=
  wp_cjsonParse_any (h.free _ _ trivial) (fun _ _ hstep => h.quiet _ _ _ _ hstep trivial) (h.free _ _ trivial)
    (fun _ => h.free _ _ trivial) (fun _ _ _ hstep => h.quiet _ _ _ _ hstep trivial) hQ

private theorem Keeps.putFileFromBuffer (h : Keeps W I) {content : Bytes} (hs : I p.conn s) :
    Proc.wp W (putFileFromBuffer content) (fun _ p' t => I p'.conn t) p s := by
  rw [Ipfs.putFileFromBuffer, Proc.wp_bind]
  apply h.search hs
  · intro p₁ s₁ hne hs₁
    rw [if_neg (by decide), Proc.wp_bind, apiUrl, Proc.wp_bind, wp_getConn, Proc.wp_pure, Proc.wp_bind,
      Proc.wp_call]
    refine ⟨h.free _ _ trivial, fun created t hstep => ?_⟩
    obtain rfl := h.quiet _ _ _ _ hstep trivial
    rw [Proc.wp_ite, Proc.wp_pure, Proc.wp_bind]
    refine ⟨fun _ => hs₁, fun _ => ?_⟩
    apply h.httpClientRequestBody hs₁ hne rfl (by decide)
    intro rc reply response
    simp only [Proc.wp_ite, Proc.wp_pure]
    refine ⟨fun _ => ?_, fun _ => ⟨fun _ => hs₁, fun _ => ⟨fun _ => hs₁, fun _ => ?_⟩⟩⟩
    · rw [Proc.wp_bind]
      exact h.requestError hs₁ fun _ _ hs₂ => hs₂
    rw [Proc.wp_bind]
    apply wp_httpClientMoveResponseBody fun _ => h.free _ _ trivial
    intro _
    dsimp only
    rw [Proc.wp_bind]
    apply h.cjsonParse
    intro json
    rcases json with _ | json
    · exact hs₁
    dsimp only
    rcases json.stringItem (bytes "Hash") with _ | hash
    · exact hs₁
    rw [Proc.wp_ite]
    exact ⟨fun _ => hs₁, fun _ => hs₁⟩
  · intro rc hrc
    rw [if_pos hrc, Proc.wp_pure]
    exact hs

theorem Keeps.getFileLength (h : Keeps W I) {cid : Bytes}
    {Q : Exit → Process IpfsConnect → τ → Prop} (hs : I p.conn s)
    (hQ : ∀ exit (p' : Process IpfsConnect) t, I p'.conn t → Q exit p' t) :
    Proc.wp W (getFileLength cid) Q p s := by
  rw [Ipfs.getFileLength, Proc.wp_bind]
  apply h.search hs
  · intro p₁ s₁ hne hs₁
    have hall : ∀ exit, Q exit p₁ s₁ := fun exit => hQ exit p₁ s₁ hs₁
    rw [if_neg (by decide), Proc.wp_bind, apiUrl, Proc.wp_bind, wp_getConn, Proc.wp_pure, Proc.wp_bind,
      Proc.wp_call]
    refine ⟨h.free _ _ trivial, fun created t hstep => ?_⟩
    obtain rfl := h.quiet _ _ _ _ hstep trivial
    rw [Proc.wp_ite, Proc.wp_pure, Proc.wp_bind]
    refine ⟨fun _ => hall _, fun _ => ?_⟩
    apply h.httpClientRequestBody hs₁ hne rfl (by decide)
    intro rc reply response
    simp only [Proc.wp_ite, Proc.wp_pure]
    refine ⟨fun _ => ?_, fun _ => ⟨fun _ => hall _, fun _ => ⟨fun _ => hall _, fun _ => ?_⟩⟩⟩
    · rw [Proc.wp_bind]
      exact h.requestError hs₁ fun _ p₂ hs₂ => hQ _ p₂ t hs₂
    rw [Proc.wp_bind]
    apply wp_httpClientMoveResponseBody fun _ => h.free _ _ trivial
    intro _
    dsimp only
    rw [Proc.wp_bind]
    apply h.cjsonParse
    intro json
    rcases json with _ | json
    · exact hall _
    dsimp only
    rcases lsSize json cid with _ | fsize
    · exact hall _
    · exact hall _
  · intro rc hrc
    rw [if_pos hrc, Proc.wp_pure]
    exact hQ _ p s hs

theorem Keeps.getFileToBuffer (h : Keeps W I) {cid block : Bytes} {buflen : Nat}
    (hs : I p.conn s) :
    Proc.wp W (getFileToBuffer cid block buflen) (fun _ p' t => I p'.conn t) p s := by
  rw [Ipfs.getFileToBuffer, Proc.wp_bind]
  apply h.getFileLength hs
  intro exit p₁ s₁ hs₁
  rw [Proc.wp_ite, Proc.wp_pure, Proc.wp_ite, Proc.wp_pure]
  refine ⟨fun _ => hs₁, fun _ => ⟨fun _ => hs₁, fun _ => ?_⟩⟩
  rw [Proc.wp_bind]
  apply h.search hs₁
  · intro p₂ s₂ hne hs₂
    rw [if_neg (by decide), Proc.wp_bind, apiUrl, Proc.wp_bind, wp_getConn, Proc.wp_pure, Proc.wp_bind,
      Proc.wp_call]
    refine ⟨h.free _ _ trivial, fun created t hstep => ?_⟩
    obtain rfl := h.quiet _ _ _ _ hstep trivial
    rw [Proc.wp_ite, Proc.wp_pure, Proc.wp_bind, httpClientRequest, Proc.wp_bind, Proc.wp_call]
    refine ⟨fun _ => hs₂, fun _ => ?_⟩
    have hrequest : ∀ {req : Request}, req.url = .node p₂.conn.currentNodeIp p₂.conn.currentNodePort
        (bytes "/api/v0/cat") → _ := fun {_} hurl => h.request hs₂ hne hurl (by decide)
    refine ⟨(hrequest rfl).1, fun reply u hstep => ?_⟩
    obtain rfl := (hrequest rfl).2 reply u hstep
    rw [Proc.wp_pure]
    dsimp only
    simp only [Proc.wp_ite, Proc.wp_pure]
    refine ⟨fun _ => ?_, fun _ => ⟨fun _ => hs₂, fun _ => ⟨fun _ => hs₂, fun _ =>
      ⟨fun _ => hs₂, fun _ => hs₂⟩⟩⟩⟩
    rw [Proc.wp_bind]
    exact h.requestError hs₂ fun _ _ hs₃ => hs₃
  · intro rc hrc
    rw [if_pos hrc, Proc.wp_pure]
    exact hs₁

end

end Ipfs

/-- The operations of an IPFS connect. -/
inductive IpfsOp
  | put (content : Bytes)
  | length (cid : Bytes)
  | toBuffer (cid block : Bytes) (buflen : Nat)

namespace IpfsOp

/-- The function of the table. -/
def call : IpfsOp → Hive IpfsConnect Int
  | put content => Prod.fst <$> Ipfs.putFileFromBuffer content
  | length cid => lengthOf (Ipfs.getFileLength cid)
  | toBuffer cid block buflen => Prod.fst <$> bufferOf (Ipfs.getFileToBuffer cid block buflen)

def buflen : IpfsOp → Nat
  | put _ | length _ => 0
  | toBuffer _ _ buflen => buflen

end IpfsOp

namespace Ipfs

theorem Keeps.call {τ : Type} {W : World Event Event.Answer τ} {I : IpfsConnect → τ → Prop}
    (h : Keeps W I) (op : IpfsOp) {p : Process IpfsConnect} {s : τ} (hs : I p.conn s) :
    Proc.wp W op.call (fun _ p' t => I p'.conn t) p s := by
  cases op with
  | put content =>
      rw [IpfsOp.call, Proc.wp_map]
      exact h.putFileFromBuffer hs
  | length cid =>
      rw [IpfsOp.call, lengthOf, Proc.wp_bind]
      exact h.getFileLength hs fun _ _ _ ht => ht
  | toBuffer cid block buflen =>
      rw [IpfsOp.call, Proc.wp_map, bufferOf, Proc.wp_bind]
      exact h.getFileToBuffer hs

/-! ### The latest successful probe -/

section
variable {nodes : List RpcNode} {latest : Option (Bytes × Nat)}

private theorem probed_of_quiet {e : Event} {r : e.Answer} (h : IsQuiet e) :
    probed latest ⟨e, r⟩ = latest := by
  cases e <;> first | rfl | exact h.elim

private theorem allowed_of_quiet {e : Event} (h : IsQuiet e) : Allowed latest e := by
  cases e <;> first | exact trivial | exact h.elim

theorem probes_probing : Probes probing nodes latest fun ip port => some (ip, port) where
  free _ he := allowed_of_quiet he
  quiet _ _ _ hstep he := hstep.trans (probed_of_quiet he)
  request ip port _ _ := .inl ⟨ip, port, rfl⟩
  answer ip port reply t hstep := by
    rw [show t = _ from hstep]
    simp only [probed, true_and]

theorem Selects.cleared {conn : IpfsConnect} (h : Selects nodes conn latest) :
    Selects nodes { conn with currentNodeIp := [] } latest :=
  ⟨h.table, fun hne => absurd rfl hne⟩

theorem keeps_probing : Keeps probing (Selects nodes) where
  free _ _ he := allowed_of_quiet he
  quiet _ _ _ _ hstep he := hstep.trans (probed_of_quiet he)
  search := by
    intro p latest Q hs hok hfail
    simp only [checkReachable, Proc.wp_bind, wp_getConn, Proc.wp_ite, Proc.wp_pure]
    refine ⟨fun hne => hok p latest hne hs, fun _ => ?_⟩
    apply probes_probing.selectBootstrap
    · intro ip port hne hconfigured
      dsimp only
      rw [Proc.wp_bind, wp_setConn, Proc.wp_pure]
      rw [hs.table] at hconfigured
      exact hok _ _ hne ⟨hs.table, fun _ => ⟨hconfigured, rfl⟩⟩
    · exact hfail
  request := by
    intro conn latest req path hs hne hurl hpath
    refine ⟨.inr ⟨_, _, path, hurl, hne, (hs.selected hne).2⟩, fun reply t hstep => ?_⟩
    rw [show t = _ from hstep]
    simp only [probed, hurl, apiPaths_ne hpath, false_and, if_false]
  lost _ _ hs := hs.cleared

theorem probing_call (op : IpfsOp) {p : Process IpfsConnect} (hs : Selects nodes p.conn latest) :
    Proc.wp probing op.call (fun _ p' latest' => Selects nodes p'.conn latest') p latest :=
  keeps_probing.call op hs

end

end Ipfs

end HiveSdk
