import HiveSdk.Errors.Refresh
import HiveSdk.Model.Connect

/-!
# Errors of the functions that return a length

A function of type `int` turns every error code into a negative number. A function of type `ssize_t` does so only with the codes that have been in an `int` before: a code that it returns straight from the macro is a large positive number, which the callers take for a length. What follows says exactly when that happens, in terms of the arguments and of what the environment answered.
-/

namespace HiveSdk

open Interaction

/-! ### What has been answered -/

/-- The answers that decide which exit a length function takes: the clients that could not be created, what the parser made of the answer to the size request, and the answer to the request for the content. -/
structure Answers where
  refused : List Caller := []
  asked : Bool := false
  parsed : Option (Option Json) := none
  content : Option Reply := none

/-- The clients of the functions that return a length. -/
def Caller.returnsLength : Caller → Bool
  | .getFileLength | .getFileToBuffer | .ipfsGetFileLength | .ipfsGetFileToBuffer => true
  | _ => false

def lsPath : Bytes := bytes "/api/v0/file/ls"
def catPath : Bytes := bytes "/api/v0/cat"

/-- The request that asks for a size. -/
def Url.asksSize : Url → Bool
  | .item _ suffix => suffix = []
  | .node _ _ path => path = lsPath
  | _ => false

/-- The request for a content. -/
def Url.asksContent : Url → Bool
  | .node _ _ path => path = catPath
  | _ => false

def Answers.observe (a : Answers) (entry : Entry Event Event.Answer) : Answers :=
  match entry with
  | ⟨.httpClientNew caller, created⟩ =>
      if created || !caller.returnsLength then a else { a with refused := caller :: a.refused }
  | ⟨.perform req, reply⟩ =>
      { a with
        asked := a.asked || req.url.asksSize
        content := if req.url.asksContent then some reply else a.content }
  | ⟨.cjsonParse _, json⟩ => if a.asked then { a with parsed := some json } else a
  | _ => a

/-- What a trace answers. -/
def Answers.of (tr : Trace) : Answers := tr.foldl Answers.observe {}

/-! ### The straight exits -/

namespace OneDrive

/-- The exits of `get_file_length` that return a code as it is. -/
def StraightLength (filename : Bytes) (a : Answers) : Prop :=
  (filePath filename).length ≥ pathMax ∨ .getFileLength ∈ a.refused

/-- The same for `get_file_to_buffer`: the third is the check of the buffer's size. -/
def StraightBuffer (filename : Bytes) (buflen : Nat) (a : Answers) : Prop :=
  (filePath filename).length ≥ pathMax ∨ .getFileToBuffer ∈ a.refused ∨
    ∃ json info, a.parsed = some (some json) ∧
      Item.InfoQuery.sizeAndDownloadUrl.read json = some info ∧
      0 < cSsize buflen ∧ cSsize buflen < info.size

end OneDrive

namespace Ipfs

/-- The exits of `get_file_length` that return a code as it is: no client, no JSON, no size in it. -/
def StraightLength (cid : Bytes) (a : Answers) : Prop :=
  .ipfsGetFileLength ∈ a.refused ∨
    ∃ json, a.parsed = some json ∧ (json.bind fun json => lsSize json cid) = none

/-- What `get_file_to_buffer` takes for the size: an error code of the length function passes for one. -/
def announced (cid : Bytes) (a : Answers) : Option Int :=
  if .ipfsGetFileLength ∈ a.refused then some (cSsize (hiveGeneralError HiveErr.outOfMemory))
  else a.parsed.map fun json => match json with
    | none => cSsize (hiveGeneralError HiveErr.outOfMemory)
    | some json => (lsSize json cid).getD (cSsize (hiveGeneralError HiveErr.badJsonFormat))

/-- The checks after a complete transfer fail. -/
def Mismatch (buflen : Nat) (size : Int) (reply : Reply) : Prop :=
  let (_, actual, taken) := storeBounded buflen [] 0 reply.chunks
  taken ∧ reply.code = 0 ∧
    (reply.info ≠ 0 ∨ reply.status ≠ HttpStatus.ok ∨ cSize size ≠ actual)

/-- The straight exits of `get_file_to_buffer`. -/
def StraightBuffer (cid : Bytes) (buflen : Nat) (a : Answers) : Prop :=
  .ipfsGetFileToBuffer ∈ a.refused ∨
    (∃ size, announced cid a = some size ∧ 0 < cSsize buflen ∧ cSsize buflen < size) ∨
    ∃ size reply, announced cid a = some size ∧ a.content = some reply ∧ Mismatch buflen size reply

end Ipfs

/-! ### What the exits mean -/

def Exit.isStraight : Exit → Bool
  | .code _ => true
  | _ => false

/-- The error code of an exit, as `hive_get_error` gives it. -/
def Exit.errorCode : Exit → Option Int
  | .length _ => none
  | .int rc => some rc
  | .code err => some (cInt err)

/-- An exit with a length within bounds, a negative `int`, or a code of the macro. -/
def Exit.Sound (limit : Option Nat) : Exit → Prop
  | .length n => 0 ≤ n ∧ n < 2 ^ 63 ∧ ∀ l ∈ limit, n ≤ l
  | .int rc => IntError rc
  | .code err => ∃ facility code, code < 2 ^ 24 ∧ err = hiveMkError facility code

theorem Exit.Sound.of_neg {exit : Exit} {limit : Option Nat} (h : exit.Sound limit)
    (hneg : exit.value < 0) : IntError exit.value := by
  cases exit with
  | length n => exact absurd hneg (not_lt.2 h.1)
  | int rc => exact h
  | code err =>
      obtain ⟨facility, code, hcode, rfl⟩ := h
      have hvalue : (Exit.code (hiveMkError facility code)).value
        = 2 ^ 31 + facility.code * 2 ^ 24 + code := cSsize_hiveMkError facility hcode
      omega

theorem Exit.Sound.value_lt {exit : Exit} {limit : Option Nat} (h : exit.Sound limit) :
    exit.value < 2 ^ 63 := by
  cases exit with
  | length n => exact h.2.1
  | int rc =>
      have hneg : rc < 0 := IntError.neg h
      show rc < 2 ^ 63
      omega
  | code err =>
      obtain ⟨facility, code, hcode, rfl⟩ := h
      have hrange := facility.code_range
      have hvalue : (Exit.code (hiveMkError facility code)).value
        = 2 ^ 31 + facility.code * 2 ^ 24 + code := cSsize_hiveMkError facility hcode
      omega

theorem Exit.sound_general {limit : Option Nat} {code : Nat} (hcode : code < 2 ^ 24) :
    (Exit.code (hiveGeneralError code)).Sound limit := ⟨.general, code, hcode, rfl⟩

/-! ### OneDrive -/

/-- The world that keeps the answers. -/
abbrev answering : World Event Event.Answer Answers := World.observer Answers.observe

theorem Answers.observe_tokenCall {e : Event} (r : e.Answer) (h : TokenCall e) :
    Answers.observe {} ⟨e, r⟩ = {} := by
  cases e with
  | httpClientNew caller =>
      rcases h with rfl | rfl <;> simp [observe, Caller.returnsLength]
  | perform req =>
      obtain ⟨url, body, rfl⟩ : TokenRequest req := h
      rfl
  | _ => rfl

private theorem answering_realloc {a t : Answers} {n : Nat} {ok : Bool}
    (h : answering.step a (.realloc n) ok t) : t = a := h

section
variable {p : Process OneDriveConnect}

private theorem answering_checkExpire {Q : Int → Process OneDriveConnect → Answers → Prop}
    (hok : ∀ p', Q 0 p' {}) (hfail : ∀ rc p', IntError rc → Q rc p' {}) :
    Proc.wp answering oauthTokenCheckExpire Q p {} := by
  refine Proc.wp_unobserved guard_oauthTokenCheckExpire
    (fun e r he => Answers.observe_tokenCall r he) fun rc p' h => ?_
  by_cases hneg : rc < 0
  · exact hfail rc p' (h.failed hneg).1
  · rw [(h.succeeded hneg).1]
    exact hok p'

/-- The size that is announced is one that the parsed answer holds. -/
private theorem answering_getFileInfo {path : Bytes} {query : Item.InfoQuery}
    {Q : Except Int Item.FileInfo → Process OneDriveConnect → Answers → Prop}
    (hok : ∀ json info, query.read json = some info →
      Q (.ok info) p { asked := true, parsed := some (some json) })
    (hfail : ∀ rc p' (parsed : Option (Option Json)), IntError rc →
      (∀ json, parsed = some (some json) → query.read json = none) →
      Q (.error rc) p' { asked := true, parsed := parsed }) :
    Proc.wp answering (Item.getFileInfo path query) Q p {} := by
  have hgeneral : ∀ {code : Nat}, code < 2 ^ 24 → IntError (cInt (hiveGeneralError code)) :=
    fun hcode => intError_hiveMkError .general hcode
  simp only [Item.getFileInfo, Proc.wp_bind, wp_formatUrl]
  refine ⟨fun _ => ⟨trivial, fun _ _ _ => trivial⟩, fun _ => ?_⟩
  apply wp_sendAuthorized_any (fun _ _ _ _ _ => trivial) (fun _ _ _ _ h => answering_realloc h) trivial
    (fun _ => trivial)
  · intro headers reply t hstep status response
    obtain rfl : t = { asked := true } := hstep
    simp only [Proc.wp_ite, Proc.wp_pure, Proc.wp_bind]
    refine ⟨fun _ => hfail _ p none (intError_hiveHttpStatusError _) (fun _ h => by cases h),
      fun _ => ?_⟩
    rw [httpClientMoveResponseBody]
    by_cases hused : response.used = 0
    · rw [if_pos hused]
      exact (wp_undefinedBehaviour ..).2 trivial
    rw [if_neg hused, Proc.wp_pure]
    dsimp only
    rw [Proc.wp_bind, cjsonParse, Proc.wp_bind, Proc.wp_observer_call]
    intro rest
    rw [Proc.wp_ite, Proc.wp_observer_call, wp_undefinedBehaviour]
    refine ⟨fun _ json => ?_, fun _ => trivial⟩
    rcases json with _ | json
    · exact hfail _ p (some none) (hgeneral (by decide)) fun _ h => by cases h
    dsimp only
    rcases hread : query.read json with _ | info
    · refine hfail _ p (some (some json)) (hgeneral (by decide)) fun json' h => ?_
      cases h
      exact hread
    · exact hok json info hread
  · intro headers reply t hstep rc p' hrc
    obtain rfl : t = { asked := true } := hstep
    exact hfail rc p' none hrc fun _ h => by cases h

theorem Item.InfoQuery.sizeItem_of_read {query : Item.InfoQuery} {json : Json} {info : Item.FileInfo}
    (h : query.read json = some info) : json.sizeItem (bytes "size") = some info.size := by
  obtain ⟨size, hsize, hinfo⟩ := Option.bind_eq_some_iff.1 h
  cases query with
  | size =>
      cases hinfo
      exact hsize
  | sizeAndDownloadUrl =>
      obtain ⟨url, -, hinfo⟩ := Option.bind_eq_some_iff.1 hinfo
      cases hinfo
      exact hsize

private theorem read_size {query : Item.InfoQuery} {json : Json} {info : Item.FileInfo}
    (h : query.read json = some info) : 0 ≤ info.size ∧ info.size < 2 ^ 63 :=
  Json.sizeItem_nonneg (Item.InfoQuery.sizeItem_of_read h)

/-- A length that passes the check of the buffer's size fits. The check is skipped for a size that is negative as an `ssize_t`, which no length reaches. -/
private theorem le_of_checked {n : Int} {buflen : Nat} (hn : n < 2 ^ 63) (hpos : buflen ≠ 0)
    (hbuflen : buflen < 2 ^ 64) (hchecked : ¬ (cSsize buflen > 0 ∧ n > cSsize buflen)) :
    n ≤ buflen := by
  by_cases hsmall : buflen < 2 ^ 63
  · rw [cSsize_eq_self (by omega) (by omega)] at hchecked
    omega
  · omega

theorem OneDrive.exits_getFileLength (filename : Bytes) :
    Proc.wp answering (OneDrive.getFileLength filename)
      (fun exit _ a => exit.Sound none ∧ (exit.isStraight ↔ StraightLength filename a)) p {} := by
  rw [OneDrive.getFileLength, Proc.wp_ite, Proc.wp_pure]
  refine ⟨fun hlong => ⟨Exit.sound_general (by decide), iff_of_true rfl (.inl hlong)⟩, fun hfits => ?_⟩
  have hnot : ∀ a : Answers, a.refused = [] → ¬ StraightLength filename a := by
    intro a hrefused h
    rcases h with h | h
    · exact hfits h
    · rw [hrefused] at h
      cases h
  rw [Item.getFileLength, Proc.wp_bind]
  apply answering_checkExpire
  · intro p₁
    rw [if_neg (by decide), Proc.wp_bind, Proc.wp_observer_call]
    intro created
    rcases created with _ | _
    · rw [if_pos (by decide), Proc.wp_pure]
      refine ⟨Exit.sound_general (by decide), iff_of_true rfl (.inr ?_)⟩
      exact List.mem_singleton_self _
    rw [if_neg (by decide), Proc.wp_bind]
    apply answering_getFileInfo
    · intro json info hread
      dsimp only
      rw [Proc.wp_pure]
      obtain ⟨hlow, hhigh⟩ := read_size hread
      refine ⟨⟨hlow, hhigh, fun _ h => by cases h⟩, iff_of_false Bool.false_ne_true (hnot _ rfl)⟩
    · intro rc p' parsed hrc _
      exact ⟨hrc, iff_of_false Bool.false_ne_true (hnot _ rfl)⟩
  · intro rc p' hrc
    rw [if_pos hrc.neg, Proc.wp_pure]
    exact ⟨hrc, iff_of_false Bool.false_ne_true (hnot _ rfl)⟩

private theorem answering_downloadFile {url block : Bytes} {a : Answers}
    {Q : Int × Bytes → Process OneDriveConnect → Answers → Prop}
    (h : ∀ rc block', Returns rc → Q (rc, block') p a) :
    Proc.wp answering (Item.downloadFile url block) Q p a := by
  have hquiet : ∀ (req : Request) reply, req.url = .download url →
      Answers.observe a ⟨.perform req, reply⟩ = a := by
    intro req reply hurl
    simp [Answers.observe, hurl, Url.asksSize, Url.asksContent]
  simp only [Item.downloadFile, httpClientRequest, Proc.wp_bind]
  rw [Proc.wp_observer_call]
  intro reply
  rw [hquiet _ _ rfl, Proc.wp_pure]
  dsimp only
  rcases Item.storeChunks block 0 reply.chunks with _ | block'
  · exact (wp_undefinedBehaviour ..).2 trivial
  simp only [Proc.wp_ite, Proc.wp_pure]
  refine ⟨fun _ => h _ _ (returns_curl _), fun _ => ?_⟩
  refine ⟨fun _ => h _ _ (returns_curl _), fun _ => ?_⟩
  exact ⟨fun _ => h _ _ (returns_httpStatus _), fun _ => h _ _ (.inl rfl)⟩

theorem OneDrive.exits_getFileToBuffer (filename block : Bytes) {buflen : Nat}
    (hpos : buflen ≠ 0) (hbuflen : buflen < 2 ^ 64) :
    Proc.wp answering (OneDrive.getFileToBuffer filename block buflen)
      (fun x _ a => x.1.Sound (some buflen) ∧
        (x.1.isStraight ↔ StraightBuffer filename buflen a)) p {} := by
  rw [OneDrive.getFileToBuffer, Proc.wp_ite, Proc.wp_pure]
  refine ⟨fun hlong => ⟨Exit.sound_general (by decide), iff_of_true rfl (.inl hlong)⟩, fun hfits => ?_⟩
  have hnot : ∀ a : Answers, a.refused = [] →
      (∀ json info, a.parsed = some (some json) →
        Item.InfoQuery.sizeAndDownloadUrl.read json = some info →
        ¬ (cSsize buflen > 0 ∧ info.size > cSsize buflen)) →
      ¬ StraightBuffer filename buflen a := by
    intro a hrefused hparsed h
    rcases h with h | h | ⟨json, info, hjson, hread, h⟩
    · exact hfits h
    · rw [hrefused] at h
      cases h
    · exact hparsed json info hjson hread h
  rw [Item.getFileToBuffer, Proc.wp_bind]
  apply answering_checkExpire
  · intro p₁
    rw [if_neg (by decide), Proc.wp_bind, Proc.wp_observer_call]
    intro created
    rcases created with _ | _
    · rw [if_pos (by decide), Proc.wp_pure]
      refine ⟨Exit.sound_general (by decide), iff_of_true rfl (.inr (.inl ?_))⟩
      exact List.mem_singleton_self _
    rw [if_neg (by decide), Proc.wp_bind]
    apply answering_getFileInfo
    · intro json info hread
      have hbounds := read_size hread
      dsimp only
      rw [Proc.wp_ite, Proc.wp_pure]
      refine ⟨fun hlarge => ?_, fun hchecked => ?_⟩
      · refine ⟨Exit.sound_general (by decide), iff_of_true rfl (.inr (.inr ?_))⟩
        exact ⟨json, info, rfl, hread, hlarge⟩
      have hnot := hnot { asked := true, parsed := some (some json) } rfl (by
        intro json' info' hjson hread'
        cases hjson
        rw [hread] at hread'
        cases hread'
        exact hchecked)
      have hle := le_of_checked hbounds.2 hpos hbuflen hchecked
      rw [Proc.wp_ite, Proc.wp_pure, Proc.wp_bind]
      refine ⟨fun hzero => ?_, fun _ => ?_⟩
      · refine ⟨⟨by decide, by decide, fun l hl => ?_⟩, iff_of_false Bool.false_ne_true hnot⟩
        cases hl
        omega
      · apply answering_downloadFile
        intro rc block' hrc
        dsimp only
        rw [Proc.wp_ite, Proc.wp_pure, Proc.wp_pure]
        refine ⟨fun hneg => ⟨hrc.of_neg hneg, iff_of_false Bool.false_ne_true hnot⟩, fun _ => ?_⟩
        refine ⟨⟨hbounds.1, hbounds.2, fun l hl => ?_⟩, iff_of_false Bool.false_ne_true hnot⟩
        cases hl
        exact hle
    · intro rc p' parsed hrc hparsed
      refine ⟨hrc, iff_of_false Bool.false_ne_true (hnot _ rfl ?_)⟩
      intro json info hjson hread
      rw [hparsed json hjson] at hread
      cases hread
  · intro rc p' hrc
    rw [if_pos hrc.neg, Proc.wp_pure]
    exact ⟨hrc, iff_of_false Bool.false_ne_true (hnot _ rfl fun _ _ h => by cases h)⟩

end

/-! ### IPFS -/

namespace Ipfs

/-- The calls of the search for a reachable node. -/
def NodeCall : Event → Prop
  | .perform req => ∃ host port, req.url = .node host port (bytes "/version")
  | .httpClientNew caller => caller = .testReachable
  | .rand | .undefined | .diverge => True
  | _ => False

section
variable {p : Process IpfsConnect}

private theorem guard_testReachable {ipaddr : Bytes} {port : Nat}
    {Q : Int → Process IpfsConnect → Unit → Prop} (h : ∀ rc, Q rc p ()) :
    Proc.wp (World.guard NodeCall) (testReachable ipaddr port) Q p () := by
  rw [testReachable, Proc.wp_ite, Proc.wp_pure]
  refine ⟨fun _ => h _, fun _ => ?_⟩
  rw [Proc.wp_bind, Proc.wp_guard_call]
  refine ⟨rfl, fun created => ?_⟩
  rw [Proc.wp_ite, Proc.wp_pure, httpClientRequest, Proc.wp_bind, Proc.wp_bind, Proc.wp_guard_call]
  refine ⟨fun _ => h _, fun _ => ⟨⟨ipaddr, port, rfl⟩, fun reply => ?_⟩⟩
  simp only [Proc.wp_ite, Proc.wp_pure]
  exact ⟨fun _ => h _, fun _ => ⟨fun _ => h _, fun _ => ⟨fun _ => h _, fun _ => h _⟩⟩⟩

private theorem guard_tryAddress {ip : Bytes} {port : Nat}
    {Q : Bool → Process IpfsConnect → Unit → Prop} (h : ∀ ok, Q ok p ()) :
    Proc.wp (World.guard NodeCall) (tryAddress ip port) Q p () := by
  rw [tryAddress, Proc.wp_ite, Proc.wp_pure, Proc.wp_bind]
  refine ⟨fun _ => h _, fun _ => ?_⟩
  apply guard_testReachable
  intro rc
  exact h _

private theorem guard_scanNodes {nodes : List RpcNode} {base steps i : Nat}
    {Q : Int × Option (Bytes × Nat) → Process IpfsConnect → Unit → Prop}
    (h : ∀ rc selected, Returns rc → Q (rc, selected) p ()) :
    Proc.wp (World.guard NodeCall) (scanNodes nodes base steps i) Q p () := by
  induction steps generalizing i with
  | zero =>
      rw [scanNodes, Proc.wp_bind, Proc.wp_guard_call]
      exact ⟨trivial, fun never => never.elim⟩
  | succ steps ih =>
      rw [scanNodes]
      rcases nodes[i]? with _ | node
      · exact (wp_undefinedBehaviour ..).2 trivial
      dsimp only
      rw [Proc.wp_bind]
      apply guard_tryAddress
      intro ok
      rw [Proc.wp_ite, Proc.wp_pure, Proc.wp_bind]
      refine ⟨fun _ => h 0 _ (.inl rfl), fun _ => ?_⟩
      apply guard_tryAddress
      intro ok
      simp only [Proc.wp_ite, Proc.wp_pure]
      exact ⟨fun _ => h 0 _ (.inl rfl), fun _ => ⟨fun _ => ih,
        fun _ => h _ _ (returns_general (by decide))⟩⟩

theorem guard_checkReachable :
    Proc.wp (World.guard NodeCall) checkReachable (fun rc _ _ => Returns rc) p () := by
  simp only [checkReachable, Proc.wp_bind, wp_getConn, Proc.wp_ite, Proc.wp_pure]
  refine ⟨fun _ => .inl rfl, fun _ => ?_⟩
  rw [selectBootstrap, Proc.wp_bind, Proc.wp_guard_call]
  refine ⟨trivial, fun n => ?_⟩
  apply guard_scanNodes
  intro rc selected hrc
  rcases selected with _ | ⟨ip, port⟩
  · exact hrc
  · exact hrc

private theorem observe_nodeCall (a : Answers) {e : Event} (r : e.Answer) (h : NodeCall e) :
    a.observe ⟨e, r⟩ = a := by
  cases e with
  | httpClientNew caller =>
      obtain rfl : caller = .testReachable := h
      simp [Answers.observe, Caller.returnsLength]
  | perform req =>
      obtain ⟨host, port, hurl⟩ := h
      have hls : bytes "/version" ≠ lsPath := by decide
      have hcat : bytes "/version" ≠ catPath := by decide
      simp [Answers.observe, hurl, Url.asksSize, Url.asksContent, hls, hcat]
  | _ => first | rfl | exact h.elim

theorem answering_checkReachable {a : Answers}
    {Q : Int → Process IpfsConnect → Answers → Prop} (h : ∀ rc p', Returns rc → Q rc p' a) :
    Proc.wp answering checkReachable Q p a :=
  Proc.wp_unobserved guard_checkReachable (fun _ r he => observe_nodeCall a r he) h

theorem wp_requestError {τ : Type} {W : World Event Event.Answer τ} {s : τ} {rc : CurlCode}
    {Q : Int → Process IpfsConnect → τ → Prop} (h : ∀ err p', IntError err → Q err p' s) :
    Proc.wp W (requestError rc) Q p s := by
  simp only [requestError, markNodeUnreachable, Proc.wp_ite, Proc.wp_bind, Proc.wp_pure, wp_getConn,
    wp_setConn]
  exact ⟨fun _ => h _ _ (intError_hiveMkError .general (by decide)),
    fun _ => h _ _ (intError_hiveMkError .curl (by omega))⟩

/-- What an exit of `get_file_length` says about the answers. -/
structure Sized (cid : Bytes) (exit : Exit) (a : Answers) : Prop where
  sound : exit.Sound none
  straight : exit.isStraight ↔ StraightLength cid a
  announced : announced cid a = if exit.value < 0 then none else some exit.value
  content : a.content = none
  refused : .ipfsGetFileToBuffer ∉ a.refused

private theorem sized_int {cid : Bytes} {rc : Int} {a : Answers} (hrc : IntError rc)
    (hrefused : a.refused = []) (hparsed : a.parsed = none) (hcontent : a.content = none) :
    Sized cid (.int rc) a where
  sound := hrc
  straight := by
    refine iff_of_false Bool.false_ne_true fun h => ?_
    rcases h with h | ⟨json, h, -⟩
    · rw [hrefused] at h
      cases h
    · rw [hparsed] at h
      cases h
  announced := by
    rw [if_pos hrc.neg, announced, hrefused, hparsed]
    rfl
  content := hcontent
  refused := by
    rw [hrefused]
    decide

theorem lsSize_bounds {json : Json} {cid : Bytes} {size : Int}
    (h : lsSize json cid = some size) : 0 ≤ size ∧ size < 2 ^ 63 := by
  obtain ⟨objects, -, hobject⟩ := Option.bind_eq_some_iff.1 h
  obtain ⟨object, -, hsize⟩ := Option.bind_eq_some_iff.1 hobject
  exact Json.sizeItem_nonneg hsize

theorem exits_getFileLength (cid : Bytes) :
    Proc.wp answering (getFileLength cid) (fun exit _ a => Sized cid exit a) p {} := by
  rw [getFileLength, Proc.wp_bind]
  apply answering_checkReachable
  intro rc p₁ hrc
  simp only [Proc.wp_ite, Proc.wp_pure, Proc.wp_bind, apiUrl, wp_getConn]
  refine ⟨fun hneg => sized_int (hrc.of_neg hneg) rfl rfl rfl, fun _ => ?_⟩
  rw [Proc.wp_observer_call]
  intro created
  rcases created with _ | _
  · rw [if_pos (by decide), Proc.wp_pure]
    have hmem : Caller.ipfsGetFileLength ∈ [Caller.ipfsGetFileLength] := List.mem_singleton_self _
    exact ⟨Exit.sound_general (by decide), iff_of_true rfl (.inl hmem), if_pos hmem, rfl, by decide⟩
  rw [if_neg (by decide), Proc.wp_bind]
  apply wp_httpClientRequestBody_any (fun _ _ _ _ => trivial) (fun _ _ _ _ h => answering_realloc h)
    trivial
  intro reply t hstep rc response
  obtain rfl : t = { asked := true } := by
    rw [show t = Answers.observe {} _ from hstep]
    rfl
  simp only [Proc.wp_ite, Proc.wp_pure, Proc.wp_bind]
  refine ⟨fun _ => ?_, fun _ => ?_⟩
  · apply wp_requestError
    intro err p' herr
    exact sized_int herr rfl rfl rfl
  refine ⟨fun _ => sized_int (intError_hiveMkError .curl (by omega)) rfl rfl rfl, fun _ => ?_⟩
  refine ⟨fun _ => sized_int (intError_hiveHttpStatusError _) rfl rfl rfl, fun _ => ?_⟩
  rw [httpClientMoveResponseBody]
  by_cases hused : response.used = 0
  · rw [if_pos hused]
    exact (wp_undefinedBehaviour ..).2 trivial
  rw [if_neg hused, Proc.wp_pure]
  dsimp only
  rw [Proc.wp_bind, cjsonParse, Proc.wp_bind, Proc.wp_observer_call]
  intro rest
  rw [Proc.wp_ite, Proc.wp_observer_call, wp_undefinedBehaviour]
  refine ⟨fun _ json => ?_, fun _ => trivial⟩
  have hrefused : Caller.ipfsGetFileToBuffer ∉ ([] : List Caller) := List.not_mem_nil
  rcases json with _ | json
  · exact ⟨Exit.sound_general (by decide), iff_of_true rfl (.inr ⟨none, rfl, rfl⟩), rfl, rfl, hrefused⟩
  have hannounced : ∀ a : Answers, a.refused = [] → a.parsed = some (some json) →
      announced cid a
        = some ((lsSize json cid).getD (cSsize (hiveGeneralError HiveErr.badJsonFormat))) := by
    intro a hnone hparsed
    rw [announced, hnone, hparsed]
    rfl
  dsimp only
  rcases hsize : lsSize json cid with _ | size
  · refine ⟨Exit.sound_general (by decide), iff_of_true rfl (.inr ⟨some json, rfl, hsize⟩), ?_, rfl,
      hrefused⟩
    rw [hannounced _ rfl rfl, hsize]
    rfl
  · obtain ⟨hlow, hhigh⟩ := lsSize_bounds hsize
    refine ⟨⟨hlow, hhigh, fun _ h => by cases h⟩, iff_of_false Bool.false_ne_true ?_, ?_, rfl, hrefused⟩
    · intro h
      rcases h with h | ⟨parsed, hparsed, hnone⟩
      · cases h
      · cases hparsed
        cases hsize.symm.trans hnone
    · have hnneg : ¬ (Exit.length size).value < 0 := not_lt.2 hlow
      rw [hannounced _ rfl rfl, hsize, if_neg hnneg]
      rfl

/-- How much is taken does not depend on what is in the buffer. -/
private theorem storeBounded_counts {bufsz actual : Nat} {block block' : Bytes}
    {chunks : List Bytes} : (storeBounded bufsz block actual chunks).2
      = (storeBounded bufsz block' actual chunks).2 := by
  induction chunks generalizing block block' actual with
  | nil => rfl
  | cons chunk chunks ih =>
      rw [storeBounded, storeBounded]
      by_cases hfull : cSize (actual + chunk.length) > bufsz
      · rw [if_pos hfull, if_pos hfull]
        by_cases hnil : chunk = []
        · rw [if_pos hnil, if_pos hnil]
          exact ih
        · rw [if_neg hnil, if_neg hnil]
      · rw [if_neg hfull, if_neg hfull]
        exact ih

private theorem mismatch_iff {buflen actual : Nat} {size : Int} {reply : Reply} {block block' : Bytes}
    {taken : Bool} (h : storeBounded buflen block 0 reply.chunks = (block', actual, taken)) :
    Mismatch buflen size reply ↔ taken ∧ reply.code = 0 ∧
      (reply.info ≠ 0 ∨ reply.status ≠ HttpStatus.ok ∨ cSize size ≠ actual) := by
  have hcounts : (storeBounded buflen [] 0 reply.chunks).2 = (actual, taken) := by
    rw [storeBounded_counts, h]
  obtain ⟨b, hempty⟩ : ∃ b, storeBounded buflen [] 0 reply.chunks = (b, actual, taken) :=
    ⟨_, Prod.ext rfl hcounts⟩
  rw [Mismatch, hempty]

theorem exits_getFileToBuffer (cid block : Bytes) {buflen : Nat} (hpos : buflen ≠ 0)
    (hbuflen : buflen < 2 ^ 64) :
    Proc.wp answering (getFileToBuffer cid block buflen)
      (fun x _ a => x.1.Sound (some buflen) ∧ (x.1.isStraight ↔ StraightBuffer cid buflen a)) p {} := by
  rw [getFileToBuffer, Proc.wp_bind]
  refine Proc.wp_mono (fun exit p₁ a h => ?_) (exits_getFileLength cid)
  have hannounced := h.announced
  -- a small announcement before the request for the content has no straight exit
  have hearly : ∀ a' : Answers, a'.content = none → .ipfsGetFileToBuffer ∉ a'.refused →
      (∀ size, announced cid a' = some size → ¬ (cSsize buflen > 0 ∧ size > cSsize buflen)) →
      ¬ StraightBuffer cid buflen a' := by
    intro a' hcontent hrefused hsize hstraight
    rcases hstraight with h | ⟨size, h, hlarge⟩ | ⟨size, reply, -, h, -⟩
    · exact hrefused h
    · exact hsize size h hlarge
    · rw [hcontent] at h
      cases h
  rw [Proc.wp_ite, Proc.wp_pure]
  refine ⟨fun hnpos => ?_, fun hnnpos => ?_⟩
  · by_cases hneg : exit.value < 0
    · rw [if_pos hneg] at hannounced ⊢
      refine ⟨h.sound.of_neg hneg, iff_of_false Bool.false_ne_true (hearly a h.content h.refused ?_)⟩
      intro size hsize
      rw [hannounced] at hsize
      cases hsize
    · rw [if_neg hneg] at hannounced ⊢
      refine ⟨⟨not_lt.1 hneg, by omega, fun l _ => by omega⟩,
        iff_of_false Bool.false_ne_true (hearly a h.content h.refused ?_)⟩
      intro size hsize
      rw [hannounced] at hsize
      obtain rfl := Option.some.inj hsize
      omega
  rw [if_neg (by omega)] at hannounced
  rw [Proc.wp_ite, Proc.wp_pure]
  refine ⟨fun hlarge => ?_, fun hchecked => ?_⟩
  · refine ⟨Exit.sound_general (by decide), iff_of_true rfl (.inr (.inl ?_))⟩
    exact ⟨exit.value, hannounced, hlarge⟩
  have hnot := hearly a h.content h.refused fun size hsize => by
    rw [hannounced] at hsize
    obtain rfl := Option.some.inj hsize
    exact hchecked
  have hle := le_of_checked h.sound.value_lt hpos hbuflen hchecked
  rw [Proc.wp_bind]
  apply answering_checkReachable
  intro rc p₂ hrc
  simp only [Proc.wp_ite, Proc.wp_pure, Proc.wp_bind, apiUrl, wp_getConn]
  refine ⟨fun hneg => ⟨hrc.of_neg hneg, iff_of_false Bool.false_ne_true hnot⟩, fun _ => ?_⟩
  rw [Proc.wp_observer_call]
  intro created
  rcases created with _ | _
  · rw [if_pos (by decide), Proc.wp_pure]
    refine ⟨Exit.sound_general (by decide), iff_of_true rfl (.inl ?_)⟩
    exact List.mem_cons_self
  rw [if_neg (by decide), Proc.wp_bind, httpClientRequest, Proc.wp_bind, Proc.wp_observer_call]
  intro reply
  rw [Proc.wp_pure]
  dsimp only
  rcases hstore : storeBounded buflen block 0 reply.chunks with ⟨block', actual, taken⟩
  have hstraight : StraightBuffer cid buflen { a with content := some reply } ↔ taken ∧
      reply.code = 0 ∧ (reply.info ≠ 0 ∨ reply.status ≠ HttpStatus.ok ∨ cSize exit.value ≠ actual) := by
    constructor
    · intro hs
      rcases hs with hs | ⟨size, hs, hlarge⟩ | ⟨size, reply', hs, hreply, hs'⟩
      · exact absurd hs h.refused
      · obtain rfl := Option.some.inj (hannounced.symm.trans hs)
        exact absurd hlarge hchecked
      · obtain rfl := Option.some.inj (hannounced.symm.trans hs)
        obtain rfl := Option.some.inj hreply
        exact (mismatch_iff hstore).1 hs'
    · intro hs
      exact .inr (.inr ⟨exit.value, reply, hannounced, rfl, (mismatch_iff hstore).2 hs⟩)
  have hwrite : CurlE.writeError ≠ 0 := by decide
  rw [Proc.wp_ite, Proc.wp_bind]
  constructor
  · intro hfailed
    apply wp_requestError
    intro err p' herr
    refine ⟨herr, iff_of_false Bool.false_ne_true fun hs => ?_⟩
    obtain ⟨htaken, hcode, -⟩ := hstraight.1 hs
    rw [if_pos htaken] at hfailed
    exact hfailed hcode
  intro hdone
  have hdone : taken ∧ reply.code = 0 := by
    cases taken with
    | false => exact absurd (not_not.1 hdone) hwrite
    | true => exact ⟨rfl, not_not.1 hdone⟩
  simp only [Proc.wp_ite, Proc.wp_pure]
  refine ⟨fun hinfo => ?_, fun hinfo => ⟨fun hstatus => ?_, fun hstatus => ⟨fun hsize => ?_, fun hsize => ?_⟩⟩⟩
  · have hs := hstraight.2 ⟨hdone.1, hdone.2, .inl hinfo⟩
    exact ⟨⟨.curl, _, by omega, rfl⟩, iff_of_true rfl hs⟩
  · have hs := hstraight.2 ⟨hdone.1, hdone.2, .inr (.inl hstatus)⟩
    exact ⟨⟨.httpStatus, _, by omega, rfl⟩, iff_of_true rfl hs⟩
  · have hs := hstraight.2 ⟨hdone.1, hdone.2, .inr (.inr hsize)⟩
    exact ⟨Exit.sound_general (by decide), iff_of_true rfl hs⟩
  · refine ⟨⟨by omega, h.sound.value_lt, fun l hl => ?_⟩, iff_of_false Bool.false_ne_true fun hs => ?_⟩
    · cases hl
      exact hle
    · obtain ⟨-, -, hmiss⟩ := hstraight.1 hs
      exact hmiss.elim hinfo fun h => h.elim hstatus hsize

end

end Ipfs

/-! ### The public functions -/

section
variable {σ : Type} {p q : Process σ} {tr : Trace} {n : Int}

/-- What is promised of a public function that returns a length, for one run of it. The backend's function is missing when the arguments are not valid or the backend has no such function. -/
structure Reported (backend : Option (Hive σ Exit)) (p : Process σ) (tr : Trace)
    (limit : Option Nat) (n err : Int) : Prop where
  error : ∀ f ∈ backend, ∀ exit p' code, Run (f p) tr (exit, p') → exit.errorCode = some code →
    n = -1 ∧ err = code
  length : n ≠ -1 → 0 ≤ n ∧ ∀ l ∈ limit, n ≤ l

/-- The result of a call, from the exit of the backend's function. -/
def Exit.dispatched (exit : Exit) (p : Process σ) : Int × Process σ :=
  if exit.value < 0 then (-1, { p with hiveError := cInt exit.value }) else (exit.value, p)

theorem Exit.dispatched_length {m : Int} (hm : 0 ≤ m) (p : Process σ) :
    (Exit.length m).dispatched p = (m, p) := if_neg (not_lt.2 hm)

theorem Exit.dispatched_int {rc : Int} (hrc : IntError rc) (p : Process σ) :
    (Exit.int rc).dispatched p = (-1, { p with hiveError := rc }) := by
  rw [dispatched, if_pos hrc.neg, hrc.int]

theorem Exit.dispatched_code (facility : Facility) {code : Nat} (hcode : code < 2 ^ 24)
    (p : Process σ) : (Exit.code (hiveMkError facility code)).dispatched p
      = (((2 ^ 31 + facility.code * 2 ^ 24 + code : Nat) : Int), p) := by
  have hvalue : (Exit.code (hiveMkError facility code)).value
      = 2 ^ 31 + facility.code * 2 ^ 24 + code := cSsize_hiveMkError facility hcode
  rw [dispatched, hvalue, if_neg (by omega)]
  push_cast
  rfl

theorem dispatchLength_eq (f : Hive σ Exit) (p : Process σ) :
    dispatchLength (some (lengthOf f)) p = (fun x => x.1.dispatched x.2) <$> f p := by
  rw [map_eq_pure_bind]
  simp only [dispatchLength, lengthOf, bind_assoc, pure_bind]
  refine congrArg (Prog.bind (f p)) (funext fun x => ?_)
  by_cases hneg : x.1.value < 0
  · simp only [Exit.dispatched, if_pos hneg]
    rfl
  · simp only [Exit.dispatched, if_neg hneg]
    rfl

theorem dispatchBuffer_eq (f : Hive σ (Exit × Bytes)) (block : Bytes) (p : Process σ) :
    dispatchBuffer (some (bufferOf f)) block p = (fun x : (Exit × Bytes) × Process σ =>
      let (n, q) := x.1.1.dispatched x.2
      ((n, x.1.2), q)) <$> f p := by
  rw [map_eq_pure_bind]
  simp only [dispatchBuffer, bufferOf, bind_assoc, pure_bind]
  refine congrArg (Prog.bind (f p)) (funext fun x => ?_)
  by_cases hneg : x.1.1.value < 0
  · simp only [Exit.dispatched, if_pos hneg]
    rfl
  · simp only [Exit.dispatched, if_neg hneg]
    rfl

theorem run_dispatchLength {f : Hive σ Exit} {exit : Exit} {p' : Process σ}
    (h : Run (f p) tr (exit, p')) :
    Run (dispatchLength (some (lengthOf f)) p) tr (exit.dispatched p') := by
  rw [dispatchLength_eq]
  exact (run_map_iff _ _).2 ⟨_, h, rfl⟩

theorem run_dispatchBuffer {f : Hive σ (Exit × Bytes)} {exit : Exit} {block' : Bytes}
    {p' : Process σ} (block : Bytes) (h : Run (f p) tr ((exit, block'), p')) :
    Run (dispatchBuffer (some (bufferOf f)) block p) tr
      (((exit.dispatched p').1, block'), (exit.dispatched p').2) := by
  rw [dispatchBuffer_eq]
  exact (run_map_iff _ _).2 ⟨_, h, rfl⟩

theorem run_fst {f : Hive σ (Exit × Bytes)} {exit : Exit} {block : Bytes} {p' : Process σ}
    (h : Run (f p) tr ((exit, block), p')) : Run ((Prod.fst <$> f) p) tr (exit, p') :=
  (run_map_iff (f p) fun x => (x.1.1, x.2)).2 ⟨_, h, rfl⟩

theorem reported_dispatched {f : Hive σ Exit} {limit : Option Nat} {exit : Exit} {p' : Process σ}
    (hrun : Run (f p) tr (exit, p')) (hsound : exit.Sound limit) :
    Reported (some f) p tr limit (exit.dispatched p').1 (exit.dispatched p').2.hiveError
      ↔ ¬ exit.isStraight := by
  have hunique : ∀ {exit' : Exit} {p'' : Process σ}, Run (f p) tr (exit', p'') → exit' = exit :=
    fun h => congrArg Prod.fst (h.unique hrun)
  cases exit with
  | length m =>
      rw [Exit.dispatched_length hsound.1]
      refine iff_of_true ⟨?_, fun _ => ⟨hsound.1, hsound.2.2⟩⟩ Bool.false_ne_true
      intro f' hf exit' p'' code hrun' hcode
      obtain rfl := Option.some.inj hf
      obtain rfl := hunique hrun'
      cases hcode
  | int rc =>
      rw [Exit.dispatched_int hsound]
      refine iff_of_true ⟨?_, fun h => absurd rfl h⟩ Bool.false_ne_true
      intro f' hf exit' p'' code hrun' hcode
      obtain rfl := Option.some.inj hf
      obtain rfl := hunique hrun'
      obtain rfl := Option.some.inj hcode
      exact ⟨rfl, rfl⟩
  | code err =>
      obtain ⟨facility, code, hcode, rfl⟩ := hsound
      rw [Exit.dispatched_code facility hcode]
      refine iff_of_false (fun h => ?_) (not_not.2 rfl)
      have hresult := (h.error f rfl _ p' _ hrun rfl).1
      dsimp only at hresult
      omega

/-- A call with arguments that are not valid, or that the backend does not support. -/
theorem reported_failWith {limit : Option Nat} {err : Int} (hrun : Run (failWith err p) tr (n, q)) :
    Reported none p tr limit n q.hiveError := by
  obtain ⟨-, hresult⟩ := run_ret_iff.1 hrun
  obtain ⟨rfl, rfl⟩ := Prod.ext_iff.1 hresult
  exact ⟨fun _ hf => (nomatch hf), fun h => absurd rfl h⟩

private theorem reported_failWith_buffer {limit : Option Nat} {err : Int} {block block' : Bytes}
    (hrun : Run ((do return (← failWith err, block) : Hive σ (Int × Bytes)) p) tr
      ((n, block'), q)) : Reported none p tr limit n q.hiveError := by
  obtain ⟨-, hresult⟩ := run_ret_iff.1 hrun
  have hn : n = -1 := congrArg (fun x => x.1.1) hresult
  rw [hn]
  exact ⟨fun _ hf => (nomatch hf), fun h => absurd rfl h⟩

theorem reported_length_iff {f : Hive σ Exit} {straight : Answers → Prop}
    (hexits : Proc.wp answering f
      (fun exit _ a => exit.Sound none ∧ (exit.isStraight ↔ straight a)) p {})
    (hrun : Run (dispatchLength (some (lengthOf f)) p) tr (n, q)) :
    Reported (some f) p tr none n q.hiveError ↔ ¬ straight (Answers.of tr) := by
  rw [dispatchLength_eq] at hrun
  obtain ⟨⟨exit, p'⟩, hbackend, hresult⟩ := (run_map_iff _ _).1 hrun
  obtain ⟨hsound, hstraight⟩ := Proc.observed hexits hbackend
  obtain ⟨rfl, rfl⟩ := Prod.ext_iff.1 hresult
  exact (reported_dispatched hbackend hsound).trans (not_congr hstraight)

theorem reported_buffer_iff {f : Hive σ (Exit × Bytes)} {straight : Answers → Prop} {buflen : Nat}
    {block block' : Bytes}
    (hexits : Proc.wp answering f
      (fun x _ a => x.1.Sound (some buflen) ∧ (x.1.isStraight ↔ straight a)) p {})
    (hrun : Run (dispatchBuffer (some (bufferOf f)) block p) tr ((n, block'), q)) :
    Reported (some (Prod.fst <$> f)) p tr (some buflen) n q.hiveError
      ↔ ¬ straight (Answers.of tr) := by
  rw [dispatchBuffer_eq] at hrun
  obtain ⟨⟨⟨exit, block₁⟩, p'⟩, hbackend, hresult⟩ := (run_map_iff _ _).1 hrun
  obtain ⟨hsound, hstraight⟩ := Proc.observed hexits hbackend
  have hn : n = (exit.dispatched p').1 := congrArg (fun x => x.1.1) hresult
  have hq : q = (exit.dispatched p').2 := congrArg Prod.snd hresult
  rw [hn, hq]
  exact (reported_dispatched (run_fst hbackend) hsound).trans (not_congr hstraight)

end

/-- The function of the backend that a call with these arguments comes to. -/
def lengthBackend {σ : Type} (f : Bytes → Hive σ Exit) (name : Option Bytes) :
    Option (Hive σ Exit) := (nonEmpty name).map f

/-- The same for a call with a buffer. -/
def bufferBackend {σ : Type} (f : Bytes → Bytes → Nat → Hive σ (Exit × Bytes))
    (name dst : Option Bytes) (buflen : Nat) : Option (Hive σ Exit) :=
  match nonEmpty name, dst with
  | some name, some block => if buflen = 0 then none else some (Prod.fst <$> f name block buflen)
  | _, _ => none

section
variable {σ : Type} {p q : Process σ} {tr : Trace} {n : Int}

private theorem reported_call_length {f : Bytes → Hive σ Exit} {connect : HiveConnect σ}
    {straight : Bytes → Answers → Prop} {filename : Option Bytes}
    (htable : connect.getFileLength = some fun name => lengthOf (f name))
    (hexits : ∀ name, Proc.wp answering (f name)
      (fun exit _ a => exit.Sound none ∧ (exit.isStraight ↔ straight name a)) p {})
    (hrun : Run (hiveGetFileLength (some connect) filename p) tr (n, q)) :
    Reported (lengthBackend f filename) p tr none n q.hiveError ↔
      ∀ name ∈ nonEmpty filename, ¬ straight name (Answers.of tr) := by
  unfold lengthBackend
  unfold hiveGetFileLength at hrun
  generalize nonEmpty filename = name at hrun ⊢
  rcases name with _ | name
  · exact iff_of_true (reported_failWith hrun) fun _ h => (nomatch h)
  · dsimp only at hrun
    rw [htable] at hrun
    simpa using reported_length_iff (hexits name) hrun

private theorem reported_call_buffer {f : Bytes → Bytes → Nat → Hive σ (Exit × Bytes)}
    {connect : HiveConnect σ} {straight : Bytes → Answers → Prop} {filename dst : Option Bytes}
    {buflen : Nat} {block : Bytes}
    (htable : connect.getFileToBuffer = some fun name block buflen => bufferOf (f name block buflen))
    (hexits : ∀ name block, buflen ≠ 0 → Proc.wp answering (f name block buflen)
      (fun x _ a => x.1.Sound (some buflen) ∧ (x.1.isStraight ↔ straight name a)) p {})
    (hrun : Run (hiveGetFileToBuffer (some connect) filename dst buflen p) tr ((n, block), q)) :
    Reported (bufferBackend f filename dst buflen) p tr (some buflen) n q.hiveError ↔
      ∀ name ∈ nonEmpty filename, dst.isSome → buflen ≠ 0 → ¬ straight name (Answers.of tr) := by
  unfold bufferBackend
  unfold hiveGetFileToBuffer at hrun
  generalize nonEmpty filename = name at hrun ⊢
  rcases name with _ | name
  · exact iff_of_true (reported_failWith_buffer hrun) fun _ h => (nomatch h)
  rcases dst with _ | dst
  · exact iff_of_true (reported_failWith_buffer hrun) fun _ _ h => absurd h Bool.false_ne_true
  dsimp only at hrun ⊢
  by_cases hzero : buflen = 0
  · rw [if_pos hzero] at hrun ⊢
    exact iff_of_true (reported_failWith_buffer hrun) fun _ _ _ h => absurd hzero h
  · rw [if_neg hzero] at hrun ⊢
    rw [htable] at hrun
    simpa [hzero] using reported_buffer_iff (hexits name dst hzero) hrun

end

/-- The four functions report what is promised exactly when no straight exit is taken. -/
theorem lengths_reported_iff (tr : Trace) :
    (∀ filename p n q, Run (hiveGetFileLength (some OneDrive.table) filename p) tr (n, q) →
      (Reported (lengthBackend OneDrive.getFileLength filename) p tr none n q.hiveError ↔
        ∀ name ∈ nonEmpty filename, ¬ OneDrive.StraightLength name (Answers.of tr)))
    ∧ (∀ filename dst buflen p n block q, buflen < 2 ^ 64 →
      Run (hiveGetFileToBuffer (some OneDrive.table) filename dst buflen p) tr ((n, block), q) →
      (Reported (bufferBackend OneDrive.getFileToBuffer filename dst buflen) p tr (some buflen) n
        q.hiveError ↔ ∀ name ∈ nonEmpty filename, dst.isSome → buflen ≠ 0 →
          ¬ OneDrive.StraightBuffer name buflen (Answers.of tr)))
    ∧ (∀ cid p n q, Run (hiveIpfsGetFileLength (some Ipfs.table) cid p) tr (n, q) →
      (Reported (lengthBackend Ipfs.getFileLength cid) p tr none n q.hiveError ↔
        ∀ name ∈ nonEmpty cid, ¬ Ipfs.StraightLength name (Answers.of tr)))
    ∧ (∀ cid dst buflen p n block q, buflen < 2 ^ 64 →
      Run (hiveIpfsGetFileToBuffer (some Ipfs.table) cid dst buflen p) tr ((n, block), q) →
      (Reported (bufferBackend Ipfs.getFileToBuffer cid dst buflen) p tr (some buflen) n
        q.hiveError ↔ ∀ name ∈ nonEmpty cid, dst.isSome → buflen ≠ 0 →
          ¬ Ipfs.StraightBuffer name buflen (Answers.of tr))) := by
  refine ⟨?_, ?_, ?_, ?_⟩
  · intro filename p n q hrun
    exact reported_call_length rfl OneDrive.exits_getFileLength hrun
  · intro filename dst buflen p n block q hbuflen hrun
    exact reported_call_buffer rfl
      (fun name block hpos => OneDrive.exits_getFileToBuffer name block hpos hbuflen) hrun
  · intro cid p n q hrun
    have hexits : ∀ name, Proc.wp answering (Ipfs.getFileLength name)
        (fun exit _ a => exit.Sound none ∧ (exit.isStraight ↔ Ipfs.StraightLength name a)) p {} :=
      fun name => Proc.wp_mono (fun _ _ _ h => ⟨h.sound, h.straight⟩) (Ipfs.exits_getFileLength name)
    have hcall : hiveIpfsGetFileLength (some Ipfs.table) cid = hiveGetFileLength
        (some { getFileLength := Ipfs.table.ipfsGetFileLength }) cid := by
      unfold hiveIpfsGetFileLength hiveGetFileLength
      rcases nonEmpty cid with _ | name <;> rfl
    rw [hcall] at hrun
    exact reported_call_length rfl hexits hrun
  · intro cid dst buflen p n block q hbuflen hrun
    have hcall : hiveIpfsGetFileToBuffer (some Ipfs.table) cid dst buflen = hiveGetFileToBuffer
        (some { getFileToBuffer := Ipfs.table.ipfsGetFileToBuffer }) cid dst buflen := by
      unfold hiveIpfsGetFileToBuffer hiveGetFileToBuffer
      rcases nonEmpty cid with _ | name <;> rcases dst with _ | block <;> rfl
    rw [hcall] at hrun
    exact reported_call_buffer rfl
      (fun name block hpos => Ipfs.exits_getFileToBuffer name block hpos hbuflen) hrun

/-! A file whose server cannot be reached, and a file that is larger than the buffer. -/

def demoFile : Bytes := bytes "a"

def demoNode : Process IpfsConnect := ⟨0, 0, ⟨bytes "127.0.0.1", 9095, []⟩⟩

def unreachable : Reply := ⟨[], CurlE.couldntConnect, 0, 0⟩

def fileInfo (query : Item.InfoQuery) : Request where
  method := .get
  url := .item (OneDrive.filePath demoFile) []
  query := [(bytes "select", query.text)]
  headers := [(authorization, bytes "A")]

def lostSize : Trace :=
  [⟨.gettimeofday, demoTime⟩, ⟨.httpClientNew .getFileLength, true⟩,
    ⟨.perform (fileInfo .size), unreachable⟩]

def lostContent : Trace :=
  [⟨.gettimeofday, demoTime⟩, ⟨.httpClientNew .getFileToBuffer, true⟩,
    ⟨.perform (fileInfo .sizeAndDownloadUrl), unreachable⟩]

def lsRequest : Request where
  method := .post
  url := .node (bytes "127.0.0.1") 9095 lsPath
  query := [(bytes "arg", demoFile)]

def lostNode : Trace :=
  [⟨.httpClientNew .ipfsGetFileLength, true⟩, ⟨.perform lsRequest, unreachable⟩]

/-- Without a server each of the four functions returns `-1` and leaves the code. -/
theorem lengths_reported_unreachable :
    Reported (lengthBackend OneDrive.getFileLength (some demoFile)) demoProcess lostSize none (-1)
      (cInt (hiveCurlError 7))
    ∧ Reported (bufferBackend OneDrive.getFileToBuffer (some demoFile) (some [0, 0, 0]) 3) demoProcess
      lostContent (some 3) (-1) (cInt (hiveCurlError 7))
    ∧ Reported (lengthBackend Ipfs.getFileLength (some demoFile)) demoNode lostNode none (-1)
      (cInt (hiveGeneralError HiveErr.tryAgain))
    ∧ Reported (bufferBackend Ipfs.getFileToBuffer (some demoFile) (some [0, 0, 0]) 3) demoNode
      lostNode (some 3) (-1) (cInt (hiveGeneralError HiveErr.tryAgain)) := by
  have hsize : Run (OneDrive.getFileLength demoFile demoProcess) lostSize
      (.int (cInt (hiveCurlError 7)), demoProcess) := by
    iterate 3 refine .ask _ _ _ ?_
    exact .refl _
  have hcontent : Run (OneDrive.getFileToBuffer demoFile [0, 0, 0] 3 demoProcess) lostContent
      ((.int (cInt (hiveCurlError 7)), [0, 0, 0]), demoProcess) := by
    iterate 3 refine .ask _ _ _ ?_
    exact .refl _
  have hls : Run (Ipfs.getFileLength demoFile demoNode) lostNode
      (.int (cInt (hiveGeneralError HiveErr.tryAgain)), ⟨0, 0, ⟨[], 9095, []⟩⟩) := by
    iterate 2 refine .ask _ _ _ ?_
    exact .refl _
  have hcat : Run (Ipfs.getFileToBuffer demoFile [0, 0, 0] 3 demoNode) lostNode
      ((.int (cInt (hiveGeneralError HiveErr.tryAgain)), [0, 0, 0]), ⟨0, 0, ⟨[], 9095, []⟩⟩) := by
    iterate 2 refine .ask _ _ _ ?_
    exact .refl _
  have hcurl : IntError (cInt (hiveCurlError 7)) := intError_hiveMkError .curl (by decide)
  have htryAgain : IntError (cInt (hiveGeneralError HiveErr.tryAgain)) :=
    intError_hiveMkError .general (by decide)
  have hsize' : Run (hiveGetFileLength (some OneDrive.table) (some demoFile) demoProcess) lostSize
      (-1, { demoProcess with hiveError := cInt (hiveCurlError 7) }) := by
    have h := run_dispatchLength hsize
    rw [Exit.dispatched_int hcurl] at h
    exact h
  have hcontent' : Run (hiveGetFileToBuffer (some OneDrive.table) (some demoFile) (some [0, 0, 0]) 3
      demoProcess) lostContent
      ((-1, [0, 0, 0]), { demoProcess with hiveError := cInt (hiveCurlError 7) }) := by
    have h := run_dispatchBuffer [0, 0, 0] hcontent
    rw [Exit.dispatched_int hcurl] at h
    exact h
  have hls' : Run (hiveIpfsGetFileLength (some Ipfs.table) (some demoFile) demoNode) lostNode
      (-1, ⟨cInt (hiveGeneralError HiveErr.tryAgain), 0, ⟨[], 9095, []⟩⟩) := by
    have h := run_dispatchLength hls
    rw [Exit.dispatched_int htryAgain] at h
    exact h
  have hcat' : Run (hiveIpfsGetFileToBuffer (some Ipfs.table) (some demoFile) (some [0, 0, 0]) 3
      demoNode) lostNode
      ((-1, [0, 0, 0]), ⟨cInt (hiveGeneralError HiveErr.tryAgain), 0, ⟨[], 9095, []⟩⟩) := by
    have h := run_dispatchBuffer [0, 0, 0] hcat
    rw [Exit.dispatched_int htryAgain] at h
    exact h
  obtain ⟨hdriveLength, -, -, -⟩ := lengths_reported_iff lostSize
  obtain ⟨-, hdriveBuffer, -, -⟩ := lengths_reported_iff lostContent
  obtain ⟨-, -, hipfsLength, hipfsBuffer⟩ := lengths_reported_iff lostNode
  refine ⟨(hdriveLength _ _ _ _ hsize').2 ?_, (hdriveBuffer _ _ _ _ _ _ _ (by decide)
      hcontent').2 ?_,
    (hipfsLength _ _ _ _ hls').2 ?_, (hipfsBuffer _ _ _ _ _ _ _ (by decide)
      hcat').2 ?_⟩
  all_goals
    intro name hname
    obtain rfl : demoFile = name := Option.some.inj hname
  · intro h
    rcases h with h | h
    · exact absurd h (by decide)
    · cases h
  · intro _ _ h
    rcases h with h | h | ⟨_, _, h, _⟩
    · exact absurd h (by decide)
    · cases h
    · cases h
  · intro h
    rcases h with h | ⟨_, h, _⟩
    · cases h
    · cases h
  · intro _ _ h
    rcases h with h | ⟨_, h, _⟩ | ⟨_, _, h, _⟩
    · cases h
    · cases h
    · cases h

def smallBuffer : Trace :=
  [⟨.gettimeofday, demoTime⟩, ⟨.httpClientNew .getFileToBuffer, true⟩,
    ⟨.perform (fileInfo .sizeAndDownloadUrl), demoReply 200 infoText⟩] ++ receiving

unseal growSize in
set_option maxRecDepth 10000 in
private theorem smallBuffer_run :
    Run (OneDrive.getFileToBuffer demoFile [0, 0, 0] 3 demoProcess) smallBuffer
      ((.code (hiveGeneralError HiveErr.bufferTooSmall), [0, 0, 0]), demoProcess) := by
  iterate 6 refine .ask _ _ _ ?_
  exact .refl _

/-- A file of five bytes and a buffer of three: the code comes back as a length. -/
theorem small_buffer_unreported :
    Run (hiveGetFileToBuffer (some OneDrive.table) (some demoFile) (some [0, 0, 0]) 3 demoProcess)
      smallBuffer ((0x81000003, [0, 0, 0]), demoProcess)
    ∧ ¬ Reported (bufferBackend OneDrive.getFileToBuffer (some demoFile) (some [0, 0, 0]) 3)
      demoProcess smallBuffer (some 3) 0x81000003 demoProcess.hiveError := by
  constructor
  · have h := run_dispatchBuffer [0, 0, 0] smallBuffer_run
    have hcode : HiveErr.bufferTooSmall < 2 ^ 24 := by decide
    rw [hiveGeneralError, Exit.dispatched_code .general hcode] at h
    exact h
  · intro h
    have hresult := (h.error _ rfl _ _ _ (run_fst smallBuffer_run) rfl).1
    exact absurd hresult (by decide)

end HiveSdk
