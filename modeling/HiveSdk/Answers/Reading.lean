import HiveSdk.Answers.Body
import HiveSdk.Listing.Pages
import HiveSdk.Nodes.Selection

/-!
# Reading a JSON answer

Seven functions read a JSON answer: they send a request, check its status, take the body out of the client and have it parsed. The world below watches which answer is being read and what lies behind its body in memory. It allows undefined behaviour exactly while that is a success without a body, or one whose block holds no zero byte, and lets the parser be called on nothing but the body with what lies behind it; all seven keep to it, down to the fields of the parsed document.
-/

namespace HiveSdk

open Interaction

/-! ### The answer that is being read -/

def addPath : Bytes := bytes "/api/v0/add"

/-- The requests whose answers are parsed. -/
def Request.ReadsJson (req : Request) : Prop :=
  match req.url with
  | .item _ _ | .nextLink _ | .token _ => True
  | .node _ _ path => path = addPath ∨ path = lsPath
  | _ => False

/-- An answer, with what lies behind its body in memory once that has been looked at. -/
structure Answer where
  request : Request
  reply : Reply
  behind : Option Bytes := none

/-- An answer that has just arrived. -/
def Answer.of (req : Request) (reply : Reply) : Answer := { request := req, reply := reply }

/-- A success that brought no byte. -/
structure Answer.Empty (answer : Answer) : Prop where
  read : answer.request.ReadsJson
  answered : answer.reply.answered = some HttpStatus.ok
  empty : answer.reply.body = []

/-- A success whose block holds no zero byte: there is none in the body, and none behind it as far as the block goes. -/
structure Answer.Unterminated (answer : Answer) : Prop where
  read : answer.request.ReadsJson
  answered : answer.reply.answered = some HttpStatus.ok
  endless : ∃ behind, answer.behind = some behind
    ∧ 0 ∉ answer.reply.body ++ behind.take (allocation answer.reply.chunks - answer.reply.body.length)

/-- The answers that cannot be read. -/
def Answer.Fatal (answer : Answer) : Prop := answer.Empty ∨ answer.Unterminated

/-- The latest answer, as long as there have been no calls but those of its reader. -/
def answerRead (answer : Option Answer) (entry : Entry Event Event.Answer) : Option Answer :=
  match entry with
  | ⟨.perform req, reply⟩ => some (.of req reply)
  | ⟨.heapAfter _, behind⟩ => answer.map fun a => { a with behind := some behind }
  | ⟨.realloc _, _⟩ | ⟨.cjsonParse _, _⟩ | ⟨.strdup _, _⟩ | ⟨.filesCallback _, _⟩ => answer
  | _ => none

def answerOf (tr : Trace) : Option Answer := tr.foldl answerRead none

/-- The pieces of the answer can be counted. -/
def Counted (entry : Entry Event Event.Answer) : Prop :=
  match entry with
  | ⟨.perform _, reply⟩ => ResponseBody.Pieces reply.chunks
  | _ => True

/-- There is no answer that is being read, or it can be. -/
def Sound (answer : Option Answer) : Prop := ∀ a ∈ answer, ¬ a.Fatal

/-- What the parser reads of an answer. -/
def Answer.text (answer : Answer) (behind : Bytes) : Bytes := cString (answer.reply.body ++ behind)

/-- Undefined behaviour belongs to an answer that cannot be read, and to nothing else that has to do with an answer. -/
def MayCall (answer : Option Answer) : Event → Prop
  | .undefined => ∀ a ∈ answer, a.Fatal
  | .cjsonParse text => Sound answer ∧ ∃ a behind, answer = some a ∧ a.behind = some behind ∧ text = a.text behind
  | _ => Sound answer

theorem MayCall.sound {answer : Option Answer} {e : Event} (h : MayCall answer e) (he : e ≠ .undefined) :
    Sound answer := by
  cases e with
  | undefined => exact absurd rfl he
  | cjsonParse text => exact h.1
  | _ => exact h

def reading : World Event Event.Answer (Option Answer) where
  pre := MayCall
  step answer e r next := Counted ⟨e, r⟩ ∧ next = answerRead answer ⟨e, r⟩

theorem reading_accepts {tr : Trace} (h : ∀ entry ∈ tr, Counted entry) (answer : Option Answer) :
    reading.Accepts answer tr (tr.foldl answerRead answer) := by
  induction tr generalizing answer with
  | nil => exact .nil _
  | cons entry tr ih =>
      have hrest := ih (fun e he => h e (List.mem_cons_of_mem entry he)) (answerRead answer entry)
      exact .cons ⟨h entry List.mem_cons_self, rfl⟩ hrest

theorem Sound.none : Sound none := nofun

theorem Sound.of_unanswered {answer : Answer} (h : answer.reply.answered ≠ some HttpStatus.ok) :
    Sound (some answer) := by
  intro a ha hfatal
  cases ha
  rcases hfatal with hempty | hendless
  · exact h hempty.answered
  · exact h hendless.answered

/-- Nothing is known yet of what lies behind the body. -/
theorem Sound.of_body {req : Request} {reply : Reply} (h : reply.body ≠ []) : Sound (some (.of req reply)) := by
  intro a ha hfatal
  cases ha
  rcases hfatal with hempty | hendless
  · exact h hempty.empty
  · obtain ⟨behind, hbehind, -⟩ := hendless.endless
    cases hbehind

section
variable {σ : Type} {p : Process σ} {answer : Option Answer}

/-- A call that is not part of reading an answer. -/
theorem reading_call (e : Event) {Q : e.Answer → Process σ → Option Answer → Prop} (h : Sound answer)
    (hpre : MayCall answer e ↔ Sound answer) (hquiet : ∀ r, answerRead answer ⟨e, r⟩ = none)
    (hQ : ∀ r, Q r p none) : Proc.wp reading (call e) Q p answer := by
  rw [Proc.wp_call]
  refine ⟨hpre.2 h, fun r next hstep => ?_⟩
  rw [hstep.2, hquiet r]
  exact hQ r

/-- Without an answer to read there may be undefined behaviour of any other kind. -/
theorem reading_undefined {α : Type} {Q : α → Process σ → Option Answer → Prop} :
    Proc.wp reading undefinedBehaviour Q p none := (wp_undefinedBehaviour ..).2 nofun

/-- A request whose body is kept. -/
theorem reading_request {req : Request} {Q : CurlCode × Reply × ResponseBody → Process σ → Option Answer → Prop}
    (h : Sound answer)
    (hQ : ∀ rc reply response, (rc = 0 → reply.code = 0 ∧ response.Holds reply) →
      (rc ≠ 0 → Sound (some (.of req reply))) → Q (rc, reply, response) p (some (.of req reply))) :
    Proc.wp reading (httpClientRequestBody req) Q p answer := by
  rw [httpClientRequestBody, Proc.wp_bind, Proc.wp_call]
  refine ⟨h, fun reply next hstep => ?_⟩
  obtain ⟨hcounted, rfl⟩ := hstep
  rw [Proc.wp_bind]
  apply wp_deliver_after (I := (· = some (.of req reply))) _ _ rfl .empty hcounted
  · rintro t rfl _ hused hcontents
    have hholds : (ResponseBody.empty.after reply.chunks).Holds reply := .of_delivered hused hcontents rfl
    apply hQ reply.code reply (ResponseBody.empty.after reply.chunks) (fun hcode => ⟨hcode, hholds⟩)
    intro hcode
    apply Sound.of_unanswered
    have hlost : reply.answered = none := if_neg fun h => hcode h.1
    exact fun h => by cases hlost.symm.trans h
  · rintro hne r' t rfl
    exact hQ CurlE.writeError reply r' (fun hzero => absurd hzero (by decide)) fun _ => .of_body hne
  · rintro hne t n rfl
    exact Sound.of_body hne
  · rintro t n ok u rfl hstep
    exact hstep.2

/-- The body is asked for: without one the client stores through a null pointer. -/
theorem reading_move {req : Request} {reply : Reply} {response : ResponseBody}
    {Q : Option HeapBlock → Process σ → Option Answer → Prop} (hread : req.ReadsJson)
    (hanswered : reply.answered = some HttpStatus.ok) (hholds : response.Holds reply)
    (hQ : Sound (some (.of req reply)) → Q (some response.block) p (some (.of req reply))) :
    Proc.wp reading (httpClientMoveResponseBody response false) Q p (some (.of req reply)) := by
  apply wp_httpClientMoveResponseBody
  · intro hzero a ha
    cases ha
    exact .inl ⟨hread, hanswered, List.length_eq_zero_iff.1 (hholds.used.symm.trans hzero)⟩
  · intro hne
    apply hQ
    apply Sound.of_body
    intro hnil
    exact hne (hholds.used.trans (congrArg List.length hnil))

/-- The body is parsed, with what lies behind it, unless the block holds no zero. -/
theorem reading_cjsonParse {req : Request} {reply : Reply} {response : ResponseBody}
    {Q : Option Json → Process σ → Option Answer → Prop} (hread : req.ReadsJson)
    (hanswered : reply.answered = some HttpStatus.ok) (hholds : response.Holds reply)
    (h : Sound (some (.of req reply))) (hQ : ∀ json next, Sound next → Q json p next) :
    Proc.wp reading (cjsonParse response.block) Q p (some (.of req reply)) := by
  have hcontents : response.block.contents = reply.body := hholds.contents
  have hspare : response.block.spare = allocation reply.chunks - reply.body.length := by
    rw [← hholds.used, ← hholds.sz]
    rfl
  rw [cjsonParse, Proc.wp_bind, Proc.wp_call]
  refine ⟨h, fun behind next hstep => ?_⟩
  rw [hstep.2, Proc.wp_ite, wp_undefinedBehaviour, hcontents, hspare]
  refine ⟨fun hzero => ?_, fun hendless => ?_⟩
  · have hsound : Sound (some { Answer.of req reply with behind := some behind }) := by
      intro a ha hfatal
      cases ha
      rcases hfatal with hempty | hendless
      · exact h _ rfl (.inl ⟨hempty.read, hempty.answered, hempty.empty⟩)
      · obtain ⟨rest, hrest, hnot⟩ := hendless.endless
        cases hrest
        exact hnot hzero
    rw [Proc.wp_call]
    refine ⟨⟨hsound, _, behind, rfl, rfl, rfl⟩, fun json next' hstep' => ?_⟩
    rw [hstep'.2]
    exact hQ json _ hsound
  · intro a ha
    cases ha
    exact .inr ⟨hread, hanswered, behind, rfl, hendless⟩

end

/-! ### The token endpoint -/

section
variable {p : Process OneDriveConnect} {answer : Option Answer}

theorem reading_requestToken {caller : Caller} {param grantType : Bytes} {value : Option Bytes} {bufSize : Nat}
    {ignoreInfo : Bool} {Q : Int → Process OneDriveConnect → Option Answer → Prop} (h : Sound answer)
    (hQ : ∀ rc (p' : Process OneDriveConnect) next, Sound next → (¬ rc < 0 → p'.conn.token.Complete) → Q rc p' next) :
    Proc.wp reading (requestToken caller param value grantType bufSize ignoreInfo) Q p answer := by
  have hfail : ∀ rc next, rc < 0 → Sound next → Q rc p next :=
    fun rc next hrc hnext => hQ rc p next hnext fun hnneg => absurd hrc hnneg
  have hmemory : cInt (hiveGeneralError HiveErr.outOfMemory) < 0 := cInt_hiveMkError_neg .general (by decide)
  simp only [requestToken, Proc.wp_bind, wp_getToken]
  apply reading_call (.httpClientNew caller) h Iff.rfl (fun _ => rfl)
  intro created
  simp only [Proc.wp_ite, Proc.wp_bind, Proc.wp_pure]
  refine ⟨fun _ => hfail _ _ hmemory .none, fun _ => ?_⟩
  apply reading_call (.escape _) .none Iff.rfl (fun _ => rfl)
  intro clientId
  rcases clientId with _ | clientId
  · exact hfail _ _ hmemory .none
  dsimp only
  rw [Proc.wp_bind]
  apply reading_call (.escape _) .none Iff.rfl (fun _ => rfl)
  intro redirectUri
  rcases redirectUri with _ | redirectUri
  · exact hfail _ _ hmemory .none
  rcases value with _ | value
  · exact reading_undefined
  dsimp only
  rw [Proc.wp_bind]
  apply reading_call (.escape _) .none Iff.rfl (fun _ => rfl)
  intro value
  rcases value with _ | value
  · exact hfail _ _ hmemory .none
  simp only [Proc.wp_ite, Proc.wp_bind, Proc.wp_pure]
  refine ⟨fun _ => hfail _ _ (cInt_hiveMkError_neg .general (by decide)) .none, fun _ => ?_⟩
  apply reading_request .none
  intro rc reply response hok hfailed
  simp only [Proc.wp_ite, Proc.wp_pure]
  refine ⟨fun hrc => hfail _ _ (cInt_hiveMkError_neg .curl (by omega)) (hfailed hrc), fun hrc => ?_⟩
  obtain ⟨hcode, hholds⟩ := hok (not_not.1 hrc)
  have hunanswered : ∀ hne : ¬ (reply.info = 0 ∧ reply.status = HttpStatus.ok),
      reply.answered ≠ some HttpStatus.ok := by
    intro hne hanswered
    rw [Reply.answered] at hanswered
    split at hanswered
    case isTrue hdone => exact hne ⟨hdone.2, Option.some.inj hanswered⟩
    case isFalse => cases hanswered
  refine ⟨fun hinfo => ?_, fun _ => ⟨fun hstatus => ?_, fun hstatus => ?_⟩⟩
  · refine hfail _ _ (cInt_hiveMkError_neg .curl (by omega)) (.of_unanswered (hunanswered fun h => ?_))
    exact hinfo.1 h.1
  · refine hfail _ _ (cInt_hiveMkError_neg .httpStatus (by omega)) (.of_unanswered (hunanswered fun h => ?_))
    rw [if_neg (not_not.2 h.1)] at hstatus
    exact hstatus h.2
  have hinfo : reply.info = 0 := by
    by_contra hinfo
    rw [if_pos hinfo] at hstatus
    exact hstatus (by decide)
  rw [if_neg (not_not.2 hinfo)] at hstatus
  have hanswered : reply.answered = some HttpStatus.ok := by
    rw [Reply.answered, if_pos ⟨hcode, hinfo⟩, not_not.1 hstatus]
  rw [Proc.wp_bind]
  refine reading_move ?_ hanswered hholds ?_
  · exact trivial
  intro hsound
  dsimp only
  apply wp_decodeAccessToken_any (I := Sound)
  · exact fun P hP => reading_cjsonParse trivial hanswered hholds hsound hP
  · intro next e hnext he
    cases e <;> first | exact hnext | exact he.elim
  · intro next e r next' hnext he hstep
    rw [hstep.2]
    cases e <;> first | exact hnext | exact Sound.none | exact he.elim
  · intro rc p' next hnext hresult
    exact hQ rc p' next hnext fun hnneg => (hresult.succeeded hnneg).2

theorem reading_refreshAccessToken {Q : Int → Process OneDriveConnect → Option Answer → Prop}
    (h : Sound answer) (hQ : ∀ rc p' next, Sound next → Q rc p' next) :
    Proc.wp reading refreshAccessToken Q p answer := by
  simp only [refreshAccessToken, Proc.wp_bind, wp_getToken]
  apply reading_requestToken h
  intro rc p' next hnext hcomplete
  rw [Proc.wp_ite, Proc.wp_pure]
  refine ⟨fun _ => hQ _ _ _ hnext, fun hnneg => ?_⟩
  rw [Proc.wp_bind]
  have hwriteback : Proc.wp (World.guard StoreCall) writebackTokens (fun _ _ _ => True) p' () :=
    guard_writebackTokens_store (hcomplete hnneg) fun _ _ => trivial
  refine Proc.wp_frame (I := Sound) hwriteback ?_ ?_ hnext fun _ p'' next' _ hnext' => hQ _ _ _ hnext'
  · intro next e hnext he
    cases e <;> first | exact hnext | exact he.elim
  · intro next e r next' hnext he hstep
    rw [hstep.2]
    cases e <;> first | exact Sound.none | exact he.elim

theorem reading_oauthTokenCheckExpire {Q : Int → Process OneDriveConnect → Option Answer → Prop}
    (h : Sound answer) (hQ : ∀ rc p' next, Sound next → Q rc p' next) :
    Proc.wp reading oauthTokenCheckExpire Q p answer := by
  simp only [oauthTokenCheckExpire, Proc.wp_bind, wp_getToken]
  apply reading_call .gettimeofday h Iff.rfl (fun _ => rfl)
  intro now
  simp only [Proc.wp_ite, Proc.wp_pure, Proc.wp_bind]
  refine ⟨fun _ => hQ _ _ _ .none, fun _ => ?_⟩
  apply reading_refreshAccessToken .none
  intro rc p' next hnext
  rw [Proc.wp_ite, Proc.wp_pure, Proc.wp_pure]
  exact ⟨fun _ => hQ _ _ _ hnext, fun _ => hQ _ _ _ hnext⟩

/-! ### Requests with the token -/

/-- A request whose answer is read. Without a token it is not even sent. -/
theorem reading_sendAuthorized {req : Request}
    {Q : Except Int (StatusCode × ResponseBody) → Process OneDriveConnect → Option Answer → Prop}
    (h : Sound answer) (htoken : answer = none ∨ p.conn.token.accessToken.isSome)
    (hok : ∀ headers reply response, reply.answered = some reply.status → response.Holds reply →
      p.conn.token.accessToken.isSome →
      Q (.ok (reply.status, response)) p (some (.of { req with headers := headers } reply)))
    (hfail : ∀ err p' next, Sound next → Q (.error err) p' next) :
    Proc.wp reading (sendAuthorized req true) Q p answer := by
  simp only [sendAuthorized, Proc.wp_bind, wp_getToken]
  rcases haccess : p.conn.token.accessToken with _ | accessToken
  · rcases htoken with rfl | hsome
    · exact reading_undefined
    · rw [haccess] at hsome
      cases hsome
  dsimp only
  rw [if_true, Proc.wp_bind]
  apply reading_request h
  intro rc reply response hgood hfailed
  dsimp only
  rw [Proc.wp_bind]
  apply wp_checkReply
  · intro hrc hinfo _
    obtain ⟨hcode, hholds⟩ := hgood hrc
    exact hok _ reply response (if_pos ⟨hcode, hinfo⟩) hholds (haccess ▸ rfl)
  · intro err p' _ hwhy
    apply hfail
    by_cases hrc : rc = 0
    · apply Sound.of_unanswered
      intro (hanswered : reply.answered = some HttpStatus.ok)
      rw [Reply.answered] at hanswered
      split at hanswered
      case isTrue hdone =>
          rcases hwhy with hne | hinfo | h401
          · exact hne hrc
          · exact hinfo hdone.2
          · rw [h401] at hanswered
            exact absurd hanswered (by decide)
      case isFalse => cases hanswered
    · exact hfailed hrc

/-- What the readers do next: they check the status, ask for the body, and parse it. -/
theorem reading_parse {α : Type} {headers : List (Bytes × Bytes)} {req : Request} {reply : Reply} {response : ResponseBody}
    {refused noBody : α} {use : Option Json → Hive OneDriveConnect α}
    {Q : α → Process OneDriveConnect → Option Answer → Prop} (hread : req.ReadsJson)
    (hanswered : reply.answered = some reply.status) (hholds : response.Holds reply)
    (hrefused : Sound (some (.of { req with headers := headers } reply)) →
      Q refused p (some (.of { req with headers := headers } reply)))
    (huse : ∀ json next, Sound next → Proc.wp reading (use json) Q p next) :
    Proc.wp reading (do
      if reply.status ≠ HttpStatus.ok then return refused
      let some body ← httpClientMoveResponseBody response false | return noBody
      use (← cjsonParse body)) Q p (some (.of { req with headers := headers } reply)) := by
  rw [Proc.wp_ite, Proc.wp_pure]
  refine ⟨fun hstatus => hrefused (.of_unanswered ?_), fun hstatus => ?_⟩
  · exact fun h => hstatus (Option.some.inj (hanswered.symm.trans h))
  rw [not_not.1 hstatus] at hanswered
  rw [Proc.wp_bind]
  refine reading_move ?_ hanswered hholds ?_
  · exact hread
  intro hsound
  dsimp only
  rw [Proc.wp_bind]
  refine reading_cjsonParse ?_ hanswered hholds hsound huse
  exact hread

theorem reading_formatUrl {url : Url}
    {Q : Url → Process OneDriveConnect → Option Answer → Prop} (h : Q url p none) :
    Proc.wp reading (formatUrl url) Q p none := by
  rw [wp_formatUrl]
  refine ⟨fun _ => ⟨nofun, fun r next hnext => ?_⟩, fun _ => h⟩
  rw [hnext.2]
  exact (nofun : MayCall none .undefined)

theorem reading_createUploadSession {filePath : Bytes} {len : Nat} :
    Proc.wp reading (Item.createUploadSession filePath len) (fun _ _ next => Sound next) p none := by
  rw [Item.createUploadSession, Proc.wp_bind]
  apply reading_formatUrl
  rw [Proc.wp_bind]
  apply reading_sendAuthorized .none (.inl rfl)
  · intro headers reply response hanswered hholds _
    refine reading_parse ?_ hanswered hholds id ?_
    · exact trivial
    intro json next hsound
    rcases json with _ | json
    · exact hsound
    dsimp only
    rcases json.stringItem (bytes "uploadUrl") with _ | uploadUrl
    · exact hsound
    rw [Proc.wp_ite]
    exact ⟨fun _ => hsound, fun _ => hsound⟩
  · exact fun _ _ _ hnext => hnext

theorem reading_getFileInfo {filePath : Bytes} {query : Item.InfoQuery} :
    Proc.wp reading (Item.getFileInfo filePath query) (fun _ _ next => Sound next) p none := by
  rw [Item.getFileInfo, Proc.wp_bind]
  apply reading_formatUrl
  rw [Proc.wp_bind]
  apply reading_sendAuthorized .none (.inl rfl)
  · intro headers reply response hanswered hholds _
    refine reading_parse ?_ hanswered hholds id ?_
    · exact trivial
    intro json next hsound
    rcases json with _ | json
    · exact hsound
    dsimp only
    rcases query.read json with _ | info
    · exact hsound
    · exact hsound
  · exact fun _ _ _ hnext => hnext

/-- The names that the application is told have been looked at before. -/
theorem reading_notifyUserFiles {items : List Json} (h : Sound answer)
    (hitems : ∀ item ∈ items, (OneDrive.itemName item).isSome) :
    Proc.wp reading (OneDrive.notifyUserFiles items) (fun _ _ next => Sound next) p answer := by
  induction items generalizing answer with
  | nil =>
      rw [OneDrive.notifyUserFiles, Proc.wp_bind, Proc.wp_call]
      refine ⟨h, fun resume next hstep => ?_⟩
      rw [hstep.2]
      exact h
  | cons item items ih =>
      obtain ⟨name, hname⟩ := Option.isSome_iff_exists.1 (hitems item List.mem_cons_self)
      rw [OneDrive.notifyUserFiles, stringItem_of_itemName hname]
      dsimp only
      rw [Proc.wp_bind, Proc.wp_call]
      refine ⟨h, fun resume next hstep => ?_⟩
      rw [hstep.2, Proc.wp_ite]
      exact ⟨fun _ => ih h fun item' h' => hitems item' (List.mem_cons_of_mem item h'), fun _ => h⟩

theorem reading_listPages {pages : Nat} {url : Url} {array : List Json} (hurl : url.isPage)
    (h : Sound answer) (htoken : answer = none ∨ p.conn.token.accessToken.isSome)
    (harray : ∀ item ∈ array, (OneDrive.itemName item).isSome) :
    Proc.wp reading (OneDrive.listPages pages url array) (fun _ _ next => Sound next) p answer := by
  induction pages generalizing url array answer with
  | zero => exact h
  | succ pages ih =>
      rw [OneDrive.listPages, Proc.wp_bind]
      apply reading_sendAuthorized h htoken
      · intro headers reply response hanswered hholds hsome
        have hread : ({ method := .get, url := url } : Request).ReadsJson := by
          cases url <;> trivial
        apply reading_parse hread hanswered hholds id
        intro json next hsound
        rcases json with _ | json
        · exact hsound
        dsimp only
        rcases (json.getObjectItemCaseSensitive (bytes "value")).bind Json.asArray with _ | sub
        · exact hsound
        dsimp only
        by_cases hnamed : ∀ item ∈ sub, (OneDrive.itemName item).isSome
        · rw [mergeArray_of_named hnamed]
          dsimp only
          have hall : ∀ item ∈ array ++ sub, (OneDrive.itemName item).isSome := by
            intro item hitem
            exact (List.mem_append.1 hitem).elim (harray item) (hnamed item)
          simp only [Proc.wp_ite, Proc.wp_bind, Proc.wp_pure]
          refine ⟨fun _ => hsound, fun _ => ⟨fun _ => ?_, fun _ => ?_⟩⟩
          · exact reading_notifyUserFiles hsound hall
          · rcases json.stringItem (bytes "@odata.nextLink") with _ | next
            · exact hsound
            · exact ih rfl hsound (.inr hsome) hall
        · have hbad : cInt (hiveGeneralError HiveErr.badJsonFormat) < 0 := cInt_hiveMkError_neg .general (by decide)
          have hmerge : (OneDrive.mergeArray sub array).1 < 0 := (mergeArray_of_unnamed hnamed).trans_lt hbad
          rw [if_pos hmerge, Proc.wp_pure]
          exact hsound
      · exact fun _ _ _ hnext => hnext

end

/-! ### The nodes -/

namespace Ipfs

section
variable {σ : Type} {p : Process σ} {answer : Option Answer}

/-- The answer to a probe is looked at no further than its status. -/
private theorem reading_tryAddress {ip : Bytes} {port : Nat} {Q : Bool → Process σ → Option Answer → Prop}
    (h : Sound answer) (hQ : ∀ found next, Sound next → Q found p next) :
    Proc.wp reading (tryAddress ip port) Q p answer := by
  rw [tryAddress, Proc.wp_ite, Proc.wp_pure, Proc.wp_bind, testReachable]
  refine ⟨fun _ => hQ _ _ h, fun _ => ?_⟩
  simp only [Proc.wp_ite, Proc.wp_bind, Proc.wp_pure]
  refine ⟨fun _ => hQ _ _ h, fun _ => ?_⟩
  apply reading_call (.httpClientNew .testReachable) h Iff.rfl (fun _ => rfl)
  intro created
  rw [Proc.wp_ite, Proc.wp_pure, Proc.wp_bind, httpClientRequest, Proc.wp_bind, Proc.wp_call]
  refine ⟨fun _ => hQ _ _ .none, fun _ => ?_⟩
  refine ⟨Sound.none, fun reply next hstep => ?_⟩
  have hprobe : Sound next := by
    rw [hstep.2]
    intro a ha hfatal
    cases ha
    have hread : Request.ReadsJson { method := .post, url := .node ip port versionPath } :=
      hfatal.elim Answer.Empty.read Answer.Unterminated.read
    rcases hread with hadd | hls
    · exact absurd hadd (by decide)
    · exact absurd hls (by decide)
  simp only [Proc.wp_ite, Proc.wp_pure]
  exact ⟨fun _ => hQ _ _ hprobe, fun _ => ⟨fun _ => hQ _ _ hprobe, fun _ =>
    ⟨fun _ => hQ _ _ hprobe, fun _ => hQ _ _ hprobe⟩⟩⟩

private theorem reading_scanNodes {nodes : List RpcNode} {base steps i : Nat}
    {Q : Int × Option (Bytes × Nat) → Process σ → Option Answer → Prop} (h : Sound answer)
    (hi : answer = none ∨ i < nodes.length) (hQ : ∀ result next, Sound next → Q result p next) :
    Proc.wp reading (scanNodes nodes base steps i) Q p answer := by
  induction steps generalizing i answer with
  | zero =>
      rw [scanNodes, Proc.wp_bind, Proc.wp_call]
      exact ⟨h, fun never => never.elim⟩
  | succ steps ih =>
      rw [scanNodes]
      rcases hnode : nodes[i]? with _ | node
      · rcases hi with rfl | hlt
        · exact reading_undefined
        · exact absurd (List.getElem?_eq_none_iff.1 hnode) (by omega)
      obtain ⟨hlt, -⟩ := List.getElem?_eq_some_iff.1 hnode
      dsimp only
      rw [Proc.wp_bind]
      apply reading_tryAddress h
      intro found next hnext
      rw [Proc.wp_ite, Proc.wp_pure, Proc.wp_bind]
      refine ⟨fun _ => hQ _ _ hnext, fun _ => ?_⟩
      apply reading_tryAddress hnext
      intro found next hnext
      simp only [Proc.wp_ite, Proc.wp_pure]
      refine ⟨fun _ => hQ _ _ hnext, fun _ => ⟨fun _ => ?_, fun _ => hQ _ _ hnext⟩⟩
      exact ih hnext (.inr (Nat.mod_lt _ (by omega)))

private theorem reading_checkReachable {p : Process IpfsConnect}
    {Q : Int → Process IpfsConnect → Option Answer → Prop} (h : Sound answer)
    (hQ : ∀ rc p' next, Sound next → Q rc p' next) : Proc.wp reading checkReachable Q p answer := by
  simp only [checkReachable, Proc.wp_bind, wp_getConn, Proc.wp_ite, Proc.wp_pure]
  refine ⟨fun _ => hQ _ _ _ h, fun _ => ?_⟩
  rw [selectBootstrap, Proc.wp_bind]
  apply reading_call .rand h Iff.rfl (fun _ => rfl)
  intro n
  apply reading_scanNodes .none (.inl rfl)
  intro result next hnext
  obtain ⟨rc, selected⟩ := result
  rcases selected with _ | ⟨ip, port⟩
  · exact hQ _ _ _ hnext
  · exact hQ _ _ _ hnext

private theorem reading_requestError {p : Process IpfsConnect} {rc : CurlCode}
    {Q : Int → Process IpfsConnect → Option Answer → Prop} (hQ : ∀ err p', Q err p' answer) :
    Proc.wp reading (requestError rc) Q p answer := by
  simp only [requestError, markNodeUnreachable, Proc.wp_ite, Proc.wp_bind, Proc.wp_pure, wp_getConn, wp_setConn]
  exact ⟨fun _ => hQ _ _, fun _ => hQ _ _⟩

/-- A request to the API whose answer is parsed, up to the parsed document. -/
private theorem reading_api {α : Type} {p : Process IpfsConnect} {req : Request} {failed : Int → α} {noBody : α}
    {use : Option Json → Hive IpfsConnect α} {Q : α → Process IpfsConnect → Option Answer → Prop}
    (hread : req.ReadsJson) (h : Sound answer) (hfailed : ∀ rc p' next, Sound next → Q (failed rc) p' next)
    (huse : ∀ json next, Sound next → Proc.wp reading (use json) Q p next) :
    Proc.wp reading (do
      let (rc, reply, response) ← httpClientRequestBody req
      if rc ≠ 0 then return failed (← requestError rc)
      if reply.info ≠ 0 then return failed (cInt (hiveCurlError reply.info))
      if reply.status ≠ HttpStatus.ok then return failed (cInt (hiveHttpStatusError reply.status))
      let some body ← httpClientMoveResponseBody response false | return noBody
      use (← cjsonParse body)) Q p answer := by
  rw [Proc.wp_bind]
  apply reading_request h
  intro rc reply response hgood hbad
  simp only [Proc.wp_ite, Proc.wp_pure]
  refine ⟨fun hrc => ?_, fun hrc => ?_⟩
  · rw [Proc.wp_bind]
    exact reading_requestError fun err p' => hfailed _ _ _ (hbad hrc)
  obtain ⟨hcode, hholds⟩ := hgood (not_not.1 hrc)
  refine ⟨fun hinfo => hfailed _ _ _ (.of_unanswered ?_), fun hinfo => ?_⟩
  · have hlost : reply.answered = none := if_neg fun h => hinfo h.2
    exact fun h => by cases hlost.symm.trans h
  have hanswered : reply.answered = some reply.status := if_pos ⟨hcode, not_not.1 hinfo⟩
  refine ⟨fun hstatus => hfailed _ _ _ (.of_unanswered ?_), fun hstatus => ?_⟩
  · exact fun h => hstatus (Option.some.inj (hanswered.symm.trans h))
  rw [not_not.1 hstatus] at hanswered
  rw [Proc.wp_bind]
  apply reading_move hread hanswered hholds
  intro hsound
  dsimp only
  rw [Proc.wp_bind]
  exact reading_cjsonParse hread hanswered hholds hsound huse

theorem reading_putFileFromBuffer {p : Process IpfsConnect} {content : Bytes} :
    Proc.wp reading (putFileFromBuffer content) (fun _ _ next => Sound next) p none := by
  rw [putFileFromBuffer, Proc.wp_bind]
  apply reading_checkReachable .none
  intro rc p₁ next hnext
  rw [Proc.wp_ite, Proc.wp_pure, Proc.wp_bind, apiUrl, Proc.wp_bind, wp_getConn, Proc.wp_pure, Proc.wp_bind]
  refine ⟨fun _ => hnext, fun _ => ?_⟩
  apply reading_call (.httpClientNew .ipfsPutFileFromBuffer) hnext Iff.rfl (fun _ => rfl)
  intro created
  rw [Proc.wp_ite, Proc.wp_pure]
  refine ⟨fun _ => .none, fun _ => ?_⟩
  refine reading_api (.inl rfl) .none (fun rc p' next hnext => ?_) fun json next hnext => ?_
  · exact hnext
  rcases json with _ | json
  · exact hnext
  dsimp only
  rcases json.stringItem (bytes "Hash") with _ | hash
  · exact hnext
  rw [Proc.wp_ite]
  exact ⟨fun _ => hnext, fun _ => hnext⟩

theorem reading_getFileLength {p : Process IpfsConnect} {cid : Bytes} :
    Proc.wp reading (getFileLength cid) (fun _ _ next => Sound next) p none := by
  rw [getFileLength, Proc.wp_bind]
  apply reading_checkReachable .none
  intro rc p₁ next hnext
  rw [Proc.wp_ite, Proc.wp_pure, Proc.wp_bind, apiUrl, Proc.wp_bind, wp_getConn, Proc.wp_pure, Proc.wp_bind]
  refine ⟨fun _ => hnext, fun _ => ?_⟩
  apply reading_call (.httpClientNew .ipfsGetFileLength) hnext Iff.rfl (fun _ => rfl)
  intro created
  rw [Proc.wp_ite, Proc.wp_pure]
  refine ⟨fun _ => .none, fun _ => ?_⟩
  refine reading_api (.inr rfl) .none (fun rc p' next hnext => ?_) fun json next hnext => ?_
  · exact hnext
  rcases json with _ | json
  · exact hnext
  dsimp only
  rcases lsSize json cid with _ | fsize
  · exact hnext
  · exact hnext

end

end Ipfs

/-! ### All readers -/

/-- The functions that read a JSON answer, on a connect of type `σ`. -/
inductive JsonReader : Type → Type
  | createUploadSession (filePath : Bytes) (len : Nat) : JsonReader OneDriveConnect
  | getFileInfo (filePath : Bytes) (query : Item.InfoQuery) : JsonReader OneDriveConnect
  | listFiles (pages : Nat) : JsonReader OneDriveConnect
  | redeemAccessToken (code : Bytes) : JsonReader OneDriveConnect
  | refreshAccessToken : JsonReader OneDriveConnect
  | ipfsPut (content : Bytes) : JsonReader IpfsConnect
  | ipfsLength (cid : Bytes) : JsonReader IpfsConnect

namespace JsonReader

def call {σ : Type} : JsonReader σ → Hive σ Unit
  | createUploadSession filePath len => do
      let _ ← Item.createUploadSession filePath len
  | getFileInfo filePath query => do
      let _ ← Item.getFileInfo filePath query
  | listFiles pages => do
      let _ ← OneDrive.listFiles pages
  | redeemAccessToken code => do
      let _ ← HiveSdk.redeemAccessToken code
  | refreshAccessToken => do
      let _ ← HiveSdk.refreshAccessToken
  | ipfsPut content => do
      let _ ← Ipfs.putFileFromBuffer content
  | ipfsLength cid => do
      let _ ← Ipfs.getFileLength cid

theorem reading_call {σ : Type} (reader : JsonReader σ) {p : Process σ} :
    Proc.wp reading reader.call (fun _ _ next => Sound next) p none := by
  cases reader with
  | createUploadSession filePath len =>
      rw [call, Proc.wp_bind]
      exact reading_createUploadSession
  | getFileInfo filePath query =>
      rw [call, Proc.wp_bind]
      exact reading_getFileInfo
  | listFiles pages =>
      rw [call, Proc.wp_bind, OneDrive.listFiles, Proc.wp_bind]
      apply reading_oauthTokenCheckExpire .none
      intro rc p' next hnext
      rw [Proc.wp_ite, Proc.wp_pure, Proc.wp_bind]
      refine ⟨fun _ => hnext, fun _ => ?_⟩
      apply HiveSdk.reading_call (.httpClientNew .listFiles) hnext Iff.rfl (fun _ => rfl)
      intro created
      rw [Proc.wp_ite, Proc.wp_pure, Proc.wp_bind]
      refine ⟨fun _ => .none, fun _ => reading_formatUrl ?_⟩
      rw [Proc.wp_bind]
      apply HiveSdk.reading_call .cjsonCreate .none Iff.rfl (fun _ => rfl)
      intro created
      rw [Proc.wp_ite, Proc.wp_pure]
      exact ⟨fun _ => .none, fun _ => reading_listPages rfl .none (.inl rfl) (by simp)⟩
  | redeemAccessToken code =>
      rw [call, Proc.wp_bind]
      exact reading_requestToken .none fun _ _ _ hnext _ => hnext
  | refreshAccessToken =>
      rw [call, Proc.wp_bind]
      exact reading_refreshAccessToken .none fun _ _ _ hnext => hnext
  | ipfsPut content =>
      rw [call, Proc.wp_bind]
      exact Ipfs.reading_putFileFromBuffer
  | ipfsLength cid =>
      rw [call, Proc.wp_bind]
      exact Ipfs.reading_getFileLength

end JsonReader

/-- A connect whose node is selected. -/
def idleNode : Process IpfsConnect := ⟨0, 0, ⟨bytes "10.0.0.1", 9095, [⟨bytes "10.0.0.1", [], 9095⟩]⟩⟩

end HiveSdk
