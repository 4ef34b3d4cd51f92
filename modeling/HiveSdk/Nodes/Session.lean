import HiveSdk.Nodes.Selection

/-!
# Sessions with an IPFS node

What a connect does over its whole life: connecting, and then any operations one after another. The result of a transfer is not among the answers of the environment when the write callback gives up, so it is computed here from the pieces and from what `realloc` has answered.
-/

namespace HiveSdk

open Interaction

namespace Ipfs

/-- Whether the write callback of the HTTP client takes all of the pieces, when `realloc` answers in this way. -/
def takesAll : ResponseBody → List Bytes → List Bool → Bool
  | _, [], _ => true
  | r, chunk :: chunks, answers =>
      if cSize (r.sz - r.used) < chunk.length then
        if cSize (r.sz + chunk.length) < r.sz then false
        else if answers.head? = some true then
          takesAll (r.append chunk (r.newSize chunk.length)) chunks answers.tail
        else false
      else takesAll (r.append chunk r.sz) chunks answers

/-- The result of a transfer: that of curl, unless a write callback has given up. A file content is written into a buffer of `buflen` bytes. -/
def transferCode (buflen : Nat) (path : Bytes) (reply : Reply) (answers : List Bool) : CurlCode :=
  let taken := if path = catPath then (storeBounded buflen [] 0 reply.chunks).2.2
    else takesAll .empty reply.chunks answers
  if taken then reply.code else CurlE.writeError

/-- The transfers of one operation: whether an earlier one has failed to reach the node, and the latest with the answers of `realloc` since. -/
structure Transfers where
  lost : Bool := false
  latest : Option (Bytes × Reply) := none
  answers : List Bool := []

/-- Some transfer could not connect, was denied access or timed out. -/
def Transfers.failed (buflen : Nat) (t : Transfers) : Bool :=
  t.lost || t.latest.any fun x => nodeUnreachable (transferCode buflen x.1 x.2 t.answers)

def Transfers.observe (buflen : Nat) (t : Transfers) (entry : Entry Event Event.Answer) : Transfers :=
  match entry with
  | ⟨.perform req, reply⟩ =>
      match req.url with
      | .node _ _ path =>
          if path = versionPath then t
          else { lost := t.failed buflen, latest := some (path, reply), answers := [] }
      | _ => t
  | ⟨.realloc _, ok⟩ => { t with answers := t.answers ++ [ok] }
  | _ => t

def Transfers.of (buflen : Nat) (tr : Trace) : Transfers := tr.foldl (Transfers.observe buflen) {}

/-! ### What the transfers come to -/

section
variable {buflen : Nat} {p : Process IpfsConnect} {t : Transfers}

private theorem storeBounded_taken (block block' : Bytes) {bufsz used : Nat} {chunks : List Bytes} :
    (storeBounded bufsz block used chunks).2.2 = (storeBounded bufsz block' used chunks).2.2 := by
  induction chunks generalizing block block' used with
  | nil => rfl
  | cons chunk chunks ih =>
      rw [storeBounded, storeBounded]
      by_cases hlarge : cSize ((used : Int) + chunk.length) > bufsz
      · rw [if_pos hlarge, if_pos hlarge]
        by_cases hnil : chunk = []
        · rw [if_pos hnil, if_pos hnil]
          exact ih block block'
        · rw [if_neg hnil, if_neg hnil]
      · rw [if_neg hlarge, if_neg hlarge]
        exact ih _ _

private theorem transferring_deliver {chunks : List Bytes} {r : ResponseBody}
    {Q : ResponseBody × Bool → Process IpfsConnect → Transfers → Prop}
    (h : ∀ r' answers, Q (r', takesAll r chunks answers) p { t with answers := t.answers ++ answers }) :
    Proc.wp (World.observer (Transfers.observe buflen)) (deliver r chunks) Q p t := by
  induction chunks generalizing r t with
  | nil =>
      have hdone := h r []
      rw [List.append_nil] at hdone
      exact hdone
  | cons chunk chunks ih =>
      have hnext : ∀ (r' : ResponseBody) (answers : List Bool),
          (∀ answers', takesAll r (chunk :: chunks) (answers ++ answers') = takesAll r' chunks answers') →
          Proc.wp (World.observer (Transfers.observe buflen)) (deliver r' chunks) Q p
            { t with answers := t.answers ++ answers } := by
        intro r' answers htakes
        apply ih
        intro r'' answers'
        rw [List.append_assoc, ← htakes]
        exact h r'' (answers ++ answers')
      have hstay : ∀ r', (∀ answers', takesAll r (chunk :: chunks) answers' = takesAll r' chunks answers') →
          Proc.wp (World.observer (Transfers.observe buflen)) (deliver r' chunks) Q p t := by
        intro r' htakes
        have hsame := hnext r' [] fun answers' => htakes answers'
        rwa [List.append_nil] at hsame
      have hstop : ∀ (r' : ResponseBody) (answers : List Bool),
          takesAll r (chunk :: chunks) answers = false →
          Q (r', false) p { t with answers := t.answers ++ answers } := by
        intro r' answers hfalse
        rw [← hfalse]
        exact h r' answers
      rw [deliver, httpResponseBodyWriteCallback, Proc.wp_bind, Proc.wp_ite]
      constructor
      · intro hgrow
        have hne : ¬ 0 = chunk.length := by omega
        rw [Proc.wp_ite, Proc.wp_pure]
        refine ⟨fun hwrap => ?_, fun hroom => ?_⟩
        · dsimp only
          rw [if_neg hne, Proc.wp_pure]
          have hdone := hstop { r with used := 0 } [] (by rw [takesAll, if_pos hgrow, if_pos hwrap])
          rwa [List.append_nil] at hdone
        rw [Proc.wp_bind, Proc.wp_observer_call]
        intro ok
        rw [Proc.wp_ite, Proc.wp_pure, Proc.wp_pure]
        refine ⟨fun hok => ?_, fun hfailed => ?_⟩
        · obtain rfl : ok = true := hok
          dsimp only
          rw [if_pos rfl]
          apply hnext _ [true]
          intro answers'
          have hhead : ([true] ++ answers').head? = some true := rfl
          rw [takesAll, if_pos hgrow, if_neg hroom, if_pos hhead]
          rfl
        · obtain rfl : ok = false := by simpa using hfailed
          dsimp only
          rw [if_neg hne, Proc.wp_pure]
          apply hstop _ [false]
          rw [takesAll, if_pos hgrow, if_neg hroom, if_neg (by simp)]
      · intro hroomy
        rw [Proc.wp_pure]
        dsimp only
        rw [if_pos rfl]
        apply hstay
        intro answers'
        rw [takesAll, if_neg hroomy]

/-- An operation whose transfer has not reached the node fails in one way, and no node is left selected. -/
def Noticed (buflen : Nat) (rc : Int) (conn : IpfsConnect) (t : Transfers) : Prop :=
  t.failed buflen → rc = cInt (hiveGeneralError HiveErr.tryAgain) ∧ conn.currentNodeIp = []

private theorem noticed_of_not_failed {rc : Int} {conn : IpfsConnect} (h : t.failed buflen = false) :
    Noticed buflen rc conn t := by
  intro hfailed
  rw [h] at hfailed
  cases hfailed

private theorem nodeUnreachable_zero : nodeUnreachable 0 = false := by decide

private theorem transferring_checkReachable
    {Q : Int → Process IpfsConnect → Transfers → Prop} (h : ∀ rc p', Q rc p' t) :
    Proc.wp (World.observer (Transfers.observe buflen)) checkReachable Q p t := by
  have hignored : ∀ e r, NodeCall e → t.observe buflen ⟨e, r⟩ = t := by
    intro e r he
    cases e with
    | perform req =>
        obtain ⟨host, port, hurl⟩ := he
        have hversion : bytes "/version" = versionPath := rfl
        simp [Transfers.observe, hurl, hversion]
    | _ => first | rfl | exact he.elim
  exact Proc.wp_unobserved guard_checkReachable hignored fun rc p' _ => h rc p'

private theorem transferring_requestError {rc : CurlCode}
    {Q : Int → Process IpfsConnect → Transfers → Prop}
    (hlost : nodeUnreachable rc → Q (cInt (hiveGeneralError HiveErr.tryAgain))
      { p with conn := { p.conn with currentNodeIp := [] } } t)
    (hother : nodeUnreachable rc = false → Q (cInt (hiveCurlError rc)) p t) :
    Proc.wp (World.observer (Transfers.observe buflen)) (requestError rc) Q p t := by
  simp only [requestError, markNodeUnreachable, Proc.wp_ite, Proc.wp_bind, Proc.wp_pure, wp_getConn,
    wp_setConn]
  refine ⟨hlost, fun h => hother ?_⟩
  simpa using h

/-- After an API request the transfers have failed exactly if its result says so. -/
private theorem failed_after {path : Bytes} {reply : Reply} {answers : List Bool}
    (ht : t.failed buflen = false) : Transfers.failed buflen
        { lost := t.failed buflen, latest := some (path, reply), answers := answers }
      = nodeUnreachable (transferCode buflen path reply answers) := by
  rw [ht]
  simp only [Transfers.failed, Option.any_some, Bool.false_or]

/-- An API request whose body is kept, after which the transfers have failed exactly if its result says so. -/
private theorem transferring_httpClientRequestBody {path ip : Bytes} {port : Nat} {req : Request}
    {Q : CurlCode × Reply × ResponseBody → Process IpfsConnect → Transfers → Prop}
    (ht : t.failed buflen = false) (hurl : req.url = .node ip port path) (hpath : path ≠ versionPath)
    (hcat : path ≠ catPath)
    (h : ∀ rc reply response (t' : Transfers), t'.failed buflen = nodeUnreachable rc →
      Q (rc, reply, response) p t') :
    Proc.wp (World.observer (Transfers.observe buflen)) (httpClientRequestBody req) Q p t := by
  rw [httpClientRequestBody, Proc.wp_bind, Proc.wp_observer_call]
  intro reply
  have hobserve : t.observe buflen ⟨.perform req, reply⟩
      = { lost := t.failed buflen, latest := some (path, reply), answers := [] } := by
    simp only [Transfers.observe, hurl, hpath, if_false]
  rw [hobserve, Proc.wp_bind]
  apply transferring_deliver
  intro response answers
  apply h
  rw [failed_after ht, transferCode, if_neg hcat]
  rfl

private theorem transferring_cjsonParse {body : HeapBlock}
    {Q : Option Json → Process IpfsConnect → Transfers → Prop} (h : ∀ json, Q json p t) :
    Proc.wp (World.observer (Transfers.observe buflen)) (cjsonParse body) Q p t :=
  wp_cjsonParse_any trivial (fun _ _ hstep => hstep) trivial (fun _ => trivial) (fun _ _ _ hstep => hstep) h

private theorem transferring_putFileFromBuffer {content : Bytes} (ht : t.failed buflen = false) :
    Proc.wp (World.observer (Transfers.observe buflen)) (putFileFromBuffer content)
      (fun x p' t' => Noticed buflen x.1 p'.conn t') p t := by
  rw [putFileFromBuffer, Proc.wp_bind]
  apply transferring_checkReachable
  intro rc p₁
  rw [Proc.wp_ite, Proc.wp_pure, Proc.wp_bind, apiUrl, Proc.wp_bind, wp_getConn, Proc.wp_pure,
    Proc.wp_bind, Proc.wp_observer_call]
  refine ⟨fun _ => noticed_of_not_failed ht, fun _ created => ?_⟩
  rw [Proc.wp_ite, Proc.wp_pure, Proc.wp_bind]
  refine ⟨fun _ => noticed_of_not_failed ht, fun _ => ?_⟩
  apply transferring_httpClientRequestBody ht rfl (by decide) (by decide)
  intro rc reply response t' ht'
  rw [Proc.wp_ite, Proc.wp_bind]
  constructor
  · intro _
    apply transferring_requestError
    · exact fun _ _ => ⟨rfl, rfl⟩
    · intro hother
      exact noticed_of_not_failed (ht'.trans hother)
  intro hrc
  rw [not_not.1 hrc, nodeUnreachable_zero] at ht'
  have hdone : ∀ {rc p'}, Noticed buflen rc p' t' := fun {_ _} => noticed_of_not_failed ht'
  simp only [Proc.wp_ite, Proc.wp_pure]
  refine ⟨fun _ => hdone, fun _ => ⟨fun _ => hdone, fun _ => ?_⟩⟩
  rw [Proc.wp_bind]
  apply wp_httpClientMoveResponseBody fun _ => trivial
  intro _
  dsimp only
  rw [Proc.wp_bind]
  apply transferring_cjsonParse
  intro json
  rcases json with _ | json
  · exact hdone
  dsimp only
  rcases json.stringItem (bytes "Hash") with _ | hash
  · exact hdone
  rw [Proc.wp_ite]
  exact ⟨fun _ => hdone, fun _ => hdone⟩

private theorem transferring_getFileLength {cid : Bytes} (ht : t.failed buflen = false) :
    Proc.wp (World.observer (Transfers.observe buflen)) (getFileLength cid)
      (fun exit p' t' => Noticed buflen exit.value p'.conn t') p t := by
  rw [getFileLength, Proc.wp_bind]
  apply transferring_checkReachable
  intro rc p₁
  rw [Proc.wp_ite, Proc.wp_pure, Proc.wp_bind, apiUrl, Proc.wp_bind, wp_getConn, Proc.wp_pure,
    Proc.wp_bind, Proc.wp_observer_call]
  refine ⟨fun _ => noticed_of_not_failed ht, fun _ created => ?_⟩
  rw [Proc.wp_ite, Proc.wp_pure, Proc.wp_bind]
  refine ⟨fun _ => noticed_of_not_failed ht, fun _ => ?_⟩
  apply transferring_httpClientRequestBody ht rfl (by decide) (by decide)
  intro rc reply response t' ht'
  rw [Proc.wp_ite, Proc.wp_bind]
  constructor
  · intro _
    apply transferring_requestError
    · exact fun _ _ => ⟨rfl, rfl⟩
    · intro hother
      exact noticed_of_not_failed (ht'.trans hother)
  intro hrc
  rw [not_not.1 hrc, nodeUnreachable_zero] at ht'
  have hdone : ∀ {rc p'}, Noticed buflen rc p' t' := fun {_ _} => noticed_of_not_failed ht'
  simp only [Proc.wp_ite, Proc.wp_pure]
  refine ⟨fun _ => hdone, fun _ => ⟨fun _ => hdone, fun _ => ?_⟩⟩
  rw [Proc.wp_bind]
  apply wp_httpClientMoveResponseBody fun _ => trivial
  intro _
  dsimp only
  rw [Proc.wp_bind]
  apply transferring_cjsonParse
  intro json
  rcases json with _ | json
  · exact hdone
  dsimp only
  rcases lsSize json cid with _ | fsize
  · exact hdone
  · exact hdone

private theorem transferring_getFileToBuffer {cid block : Bytes} (ht : t.failed buflen = false) :
    Proc.wp (World.observer (Transfers.observe buflen)) (getFileToBuffer cid block buflen)
      (fun x p' t' => Noticed buflen x.1.value p'.conn t') p t := by
  rw [getFileToBuffer, Proc.wp_bind]
  refine Proc.wp_mono (fun exit p₁ t₁ hlength => ?_) (transferring_getFileLength ht)
  have htry : cInt (hiveGeneralError HiveErr.tryAgain) < 0 := cInt_hiveMkError_neg .general (by decide)
  rw [Proc.wp_ite, Proc.wp_pure]
  constructor
  · intro _ hfailed
    obtain ⟨hvalue, hip⟩ := hlength hfailed
    refine ⟨?_, hip⟩
    by_cases hneg : exit.value < 0
    · rw [if_pos hneg]
      exact hvalue
    · rw [if_neg hneg]
      exact hvalue
  intro hpos
  have ht₁ : t₁.failed buflen = false := by
    by_contra hne
    have hvalue := (hlength (by simpa using hne)).1
    omega
  rw [Proc.wp_ite, Proc.wp_pure, Proc.wp_bind]
  refine ⟨fun _ => noticed_of_not_failed ht₁, fun _ => ?_⟩
  apply transferring_checkReachable
  intro rc p₂
  rw [Proc.wp_ite, Proc.wp_pure, Proc.wp_bind, apiUrl, Proc.wp_bind, wp_getConn, Proc.wp_pure,
    Proc.wp_bind, Proc.wp_observer_call]
  refine ⟨fun _ => noticed_of_not_failed ht₁, fun _ created => ?_⟩
  rw [Proc.wp_ite, Proc.wp_pure, Proc.wp_bind, httpClientRequest, Proc.wp_bind,
    Proc.wp_observer_call]
  refine ⟨fun _ => noticed_of_not_failed ht₁, fun _ reply => ?_⟩
  rw [Proc.wp_pure]
  dsimp only
  have hcode : transferCode buflen catPath reply []
      = if (storeBounded buflen block 0 reply.chunks).2.2 then reply.code else CurlE.writeError := by
    rw [transferCode, if_pos rfl, storeBounded_taken [] block]
  have hfailed : Transfers.failed buflen
      { lost := t₁.failed buflen, latest := some (catPath, reply), answers := [] }
      = nodeUnreachable (if (storeBounded buflen block 0 reply.chunks).2.2 then reply.code
        else CurlE.writeError) := by
    rw [failed_after ht₁, hcode]
  rw [Proc.wp_ite, Proc.wp_bind]
  constructor
  · intro _
    apply transferring_requestError
    · exact fun _ _ => ⟨rfl, rfl⟩
    · intro hother
      exact noticed_of_not_failed (hfailed.trans hother)
  intro hrc
  rw [not_not.1 hrc, nodeUnreachable_zero] at hfailed
  have hdone : ∀ {rc conn}, Noticed buflen rc conn _ := fun {_ _} => noticed_of_not_failed hfailed
  simp only [Proc.wp_ite, Proc.wp_pure]
  exact ⟨fun _ => hdone, fun _ => ⟨fun _ => hdone, fun _ => ⟨fun _ => hdone, fun _ => hdone⟩⟩⟩

theorem transferring_call (op : IpfsOp) (ht : t.failed op.buflen = false) :
    Proc.wp (World.observer (Transfers.observe op.buflen)) op.call
      (fun rc p' t' => Noticed op.buflen rc p'.conn t') p t := by
  cases op with
  | put content =>
      rw [IpfsOp.call, Proc.wp_map]
      exact transferring_putFileFromBuffer ht
  | length cid =>
      rw [IpfsOp.call, lengthOf, Proc.wp_bind]
      exact transferring_getFileLength ht
  | toBuffer cid block buflen =>
      rw [IpfsOp.call, Proc.wp_map, bufferOf, Proc.wp_bind]
      exact transferring_getFileToBuffer ht

end

/-! ### Connecting -/

theorem probing_connect {σ : Type} {inetPton : InetPton} {opts : IpfsConnectOptions}
    {p : Process σ} :
    Proc.wp probing (ipfsClientConnect inetPton opts) (fun conn _ latest => ∀ conn', conn = some conn' →
      ∃ nodes, opts.rpcNodes.mapM (checkNode inetPton) = some nodes ∧ Selects nodes conn' latest)
      p none := by
  refine Proc.wp_mono (fun conn _ latest h conn' hconn => ?_) (Probes.connect fun _ _ => probes_probing)
  obtain ⟨nodes, ip, port, hnodes, -, hconfigured, rfl, rfl⟩ := h conn' hconn
  exact ⟨nodes, hnodes, rfl, fun _ => ⟨hconfigured, rfl⟩⟩

end Ipfs

open Ipfs

/-- A connect that has been made with these options, has gone through the trace and is now as `p` says. -/
inductive IpfsSession (inetPton : InetPton) (opts : IpfsConnectOptions) :
    Process IpfsConnect → Trace → Prop
  | connected {p p' : Process Unit} {conn : IpfsConnect} {tr : Trace}
      (hrun : Run (ipfsClientConnect inetPton opts p) tr (some conn, p')) :
      IpfsSession inetPton opts ⟨p'.hiveError, p'.errno, conn⟩ tr
  | called {p p' : Process IpfsConnect} {tr tr' : Trace} {rc : Int} (op : IpfsOp)
      (h : IpfsSession inetPton opts p tr) (hrun : Run (op.call p) tr' (rc, p')) :
      IpfsSession inetPton opts p' (tr ++ tr')

section
variable {inetPton : InetPton} {opts : IpfsConnectOptions} {p : Process IpfsConnect} {tr : Trace}

theorem latestProbe_append (tr tr' : Trace) :
    latestProbe (tr ++ tr') = tr'.foldl probed (latestProbe tr) := List.foldl_append

theorem probed_of_no_exchange {tr : Trace} {latest : Option (Bytes × Nat)} (h : exchanges tr = []) :
    tr.foldl probed latest = latest := by
  induction tr with
  | nil => rfl
  | cons entry tr ih =>
      obtain ⟨e, r⟩ := entry
      cases e with
      | perform req => cases h
      | _ => exact ih h

theorem IpfsSession.selects (h : IpfsSession inetPton opts p tr) :
    ∃ nodes, opts.rpcNodes.mapM (checkNode inetPton) = some nodes
      ∧ Selects nodes p.conn (latestProbe tr) := by
  induction h with
  | @connected p p' conn tr hrun =>
      have hspec := Prog.wp_run probing_connect hrun (World.monitor_accepts Allowed probed none tr)
      exact hspec conn rfl
  | @called p p' tr tr' rc op h hrun ih =>
      obtain ⟨nodes, hnodes, hs⟩ := ih
      have haccepts := World.monitor_accepts Allowed probed (latestProbe tr) tr'
      have hspec := Prog.wp_run (probing_call op hs) hrun haccepts
      rw [latestProbe_append]
      exact ⟨nodes, hnodes, hspec⟩

/-- What holds at every moment of a session: the node that is selected is a configured one, an API request goes to the address of the latest successful probe, and an operation that cannot reach its node says so, after which the next one begins with a probe. -/
theorem node_state_machine (h : IpfsSession inetPton opts p tr) :
    (∃ nodes, opts.rpcNodes.mapM (checkNode inetPton) = some nodes ∧ (p.conn.currentNodeIp = []
      ∨ Configured nodes p.conn.currentNodeIp p.conn.currentNodePort)) ∧
    ∀ (op : IpfsOp) tr',
      (∀ req k, Steps (op.call p) tr' (.ask (.perform req) k) →
        IsProbe req ∨ GoesTo (latestProbe (tr ++ tr')) req) ∧
      ∀ rc p', Run (op.call p) tr' (rc, p') → (Transfers.of op.buflen tr').failed op.buflen →
        rc = cInt (hiveGeneralError HiveErr.tryAgain) ∧
        ∀ (op' : IpfsOp) tr'' req k, Steps (op'.call p') tr'' (.ask (.perform req) k) →
          (exchanges tr'' = [] → IsProbe req) ∧ (IsProbe req ∨ GoesTo (latestProbe tr'') req) := by
  obtain ⟨nodes, hnodes, hs⟩ := h.selects
  refine ⟨⟨nodes, hnodes, ?_⟩, fun op tr' => ⟨fun req k hsteps => ?_, fun rc p' hrun hfailed => ?_⟩⟩
  · by_cases hip : p.conn.currentNodeIp = []
    · exact .inl hip
    · exact .inr (hs.selected hip).1
  · rw [latestProbe_append]
    exact Prog.wp_steps (probing_call op hs) hsteps
      (World.monitor_accepts Allowed probed (latestProbe tr) tr')
  · have hnoticed := Proc.observed (transferring_call op (t := {}) rfl) hrun
    obtain ⟨hrc, hip⟩ := hnoticed hfailed
    refine ⟨hrc, fun op' tr'' req k hsteps => ?_⟩
    have hs' : Selects p'.conn.rpcNodes p'.conn none := ⟨rfl, fun hne => absurd hip hne⟩
    have hallowed : IsProbe req ∨ GoesTo (latestProbe tr'') req :=
      Prog.wp_steps (probing_call op' hs') hsteps (World.monitor_accepts Allowed probed none tr'')
    refine ⟨fun hnone => hallowed.resolve_right ?_, hallowed⟩
    rintro ⟨ip, port, path, -, -, hlatest⟩
    rw [latestProbe, probed_of_no_exchange hnone] at hlatest
    cases hlatest

end

/-! One node, which answers the probe of the connect and is gone afterwards. -/

def demoPton : InetPton := fun family text => family = .inet ∧ text = bytes "127.0.0.1"

def demoNodeOptions : IpfsConnectOptions where
  backendType := .ipfs
  rpcNodes := [⟨some (bytes "127.0.0.1"), none, some (bytes "9095")⟩]

def probeRequest : Request where
  method := .post
  url := .node (bytes "127.0.0.1") 9095 versionPath

def connecting : Trace :=
  [⟨.alloc 128, true⟩, ⟨.alloc 130, true⟩, ⟨.rand, (7 : Nat)⟩, ⟨.httpClientNew .testReachable, true⟩,
    ⟨.perform probeRequest, demoReply 200 []⟩]

def selectedNode : IpfsConnect :=
  ⟨bytes "127.0.0.1", 9095, [⟨bytes "127.0.0.1", [], 9095⟩]⟩

private theorem demo_session :
    IpfsSession demoPton demoNodeOptions ⟨0, 0, selectedNode⟩ connecting := by
  have hrun : Run (ipfsClientConnect demoPton demoNodeOptions (⟨0, 0, ()⟩ : Process Unit)) connecting
      (some selectedNode, ⟨0, 0, ()⟩) := by
    iterate 5 refine .ask _ _ _ ?_
    exact .refl _
  exact .connected hrun

theorem node_state_machine_lost :
    ∃ p', Run ((IpfsOp.length demoFile).call ⟨0, 0, selectedNode⟩) lostNode
        (cInt (hiveGeneralError HiveErr.tryAgain), p')
      ∧ (Transfers.of 0 lostNode).failed 0
      ∧ ∀ (op' : IpfsOp) req k, Steps (op'.call p') [] (.ask (.perform req) k) → IsProbe req := by
  have hrun : Run ((IpfsOp.length demoFile).call ⟨0, 0, selectedNode⟩) lostNode
      (cInt (hiveGeneralError HiveErr.tryAgain), ⟨0, 0, { selectedNode with currentNodeIp := [] }⟩) := by
    iterate 2 refine .ask _ _ _ ?_
    exact .refl _
  have hfailed : (Transfers.of 0 lostNode).failed 0 = true := by decide
  refine ⟨_, hrun, hfailed, fun op' req k hsteps => ?_⟩
  have hnext := (((node_state_machine demo_session).2 (.length demoFile) lostNode).2 _ _ hrun hfailed).2
  exact (hnext op' [] req k hsteps).1 rfl

end HiveSdk
