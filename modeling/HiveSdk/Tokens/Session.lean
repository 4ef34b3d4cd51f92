import HiveSdk.Errors.Lengths
import HiveSdk.Model.Connect
import HiveSdk.Names.Apart
import HiveSdk.Tokens.Items

/-!
# Sessions

A session is any sequence of calls on one connect, with whatever the token endpoint and the drive answer. Between two calls the strings of the token are those of one source, and a token that has been turned away has expired. So the next call begins with a refresh, and until one succeeds no request goes to the drive.
-/

namespace HiveSdk

open Interaction
open Proc (Preserves)

/-- The calls on a connect. -/
inductive SessionCall
  | item (op : Operation) (name : Name)
  | listFiles (callback : Bool) (pages : Nat)
  | setAccessTokenExpired
  /-- Any of the functions, with arguments that it refuses. -/
  | refused (err : Int)

namespace SessionCall

def run : SessionCall → Hive OneDriveConnect (Option Int)
  | item op name => some <$> op.run name
  | listFiles callback pages => hiveListFiles (some OneDrive.table) callback pages
  | setAccessTokenExpired => some <$> hiveSetAccessTokenExpired (some OneDrive.table)
  | refused err => some <$> failWith err

/-- What the caller knows by the call itself. -/
def note (v : TokenView) : SessionCall → TokenView
  | setAccessTokenExpired => { v with stale := true }
  | _ => v

end SessionCall

namespace TokenView

/-! ### The calls -/

theorem aboutItems_kept : AboutItems world Kept := by
  refine ⟨fun p p' v hconn h => h.conn hconn, fun e he p v h => ?_⟩
  have hquiet : IsQuiet e := by
    cases e <;> first | exact trivial | exact he.elim
  exact (Proc.wp_call e _).1 (wp_call_quiet hquiet fun _ => h)

theorem kept_operation (op : Operation) (name : Name) : Preserves world Kept (op.run name) := by
  refine Operation.preserves_run aboutItems_kept fun _ c _ => ?_
  cases c with
  | put content => exact Item.kept_putFileFromBuffer
  | length => exact Item.kept_getFileLength
  | get block buflen => exact Item.kept_getFileToBuffer
  | delete => exact Item.kept_deleteFile

theorem preserves_notifyUserFiles {I : Process OneDriveConnect → TokenView → Prop} (items : List Json) :
    Preserves world I (OneDrive.notifyUserFiles items) := by
  induction items with
  | nil => exact (preserves_quiet (e := .filesCallback none) trivial).bind fun _ => .pure _
  | cons item items ih =>
      rw [OneDrive.notifyUserFiles]
      rcases item.stringItem (bytes "name") with _ | name
      · exact preserves_undefinedBehaviour
      · refine (preserves_quiet (e := .filesCallback (some name)) trivial).bind fun resume => ?_
        exact .ite (fun _ => ih) fun _ => .pure _

/-- The paging loop ends with the first answer that turns the token away. -/
theorem kept_listPages {pages : Nat} {url : Url} {array : List Json} {p : Process OneDriveConnect} {v : TokenView}
    (h : Ready p v) (hurl : url.isToken = false) :
    Proc.wp world (OneDrive.listPages pages url array) (fun _ p' u => Kept p' u) p v := by
  induction pages generalizing url array p v with
  | zero => exact h.kept
  | succ pages ih =>
      refine wp_authorized h hurl (fun _ hvalue => by cases hvalue) ?_ ?_
      · exact fun rc p' u _ hkept => hkept
      intro status response p' u harrived
      dsimp only
      rw [Proc.wp_ite, Proc.wp_pure]
      refine ⟨fun _ => harrived.ready.kept, fun _ => ?_⟩
      apply Proc.wp_bind_of (preserves_httpClientMoveResponseBody p' u harrived)
      intro body p₁ v₁ h₁
      rcases body with _ | body
      · exact h₁.ready.kept
      apply Proc.wp_bind_of (onDrive_cjsonParse p₁ v₁ h₁)
      intro json p₂ v₂ h₂
      have hdone : Kept p₂ v₂ := h₂.ready.kept
      rcases json with _ | json
      · exact hdone
      dsimp only
      rcases (json.getObjectItemCaseSensitive (bytes "value")).bind Json.asArray with _ | sub
      · exact hdone
      dsimp only
      rw [Proc.wp_ite, Proc.wp_pure, Proc.wp_ite]
      refine ⟨fun _ => hdone, fun _ => ⟨fun _ => ?_, fun _ => ?_⟩⟩
      · exact h₂.ready.keeps ((preserves_notifyUserFiles _).bind fun _ => .pure _)
      · rcases json.stringItem (bytes "@odata.nextLink") with _ | next
        · exact hdone
        · exact ih h₂.ready rfl

theorem kept_listFiles {pages : Nat} : Preserves world Kept (OneDrive.listFiles pages) := by
  refine kept_opened fun p v h => ?_
  apply wp_formatted
  rw [Proc.wp_bind]
  refine wp_call_quiet (e := .cjsonCreate) trivial fun created => ?_
  rw [Proc.wp_ite, Proc.wp_pure]
  exact ⟨fun _ => h.kept, fun _ => kept_listPages h rfl⟩

theorem kept_hiveListFiles {callback : Bool} {pages : Nat} :
    Preserves world Kept (hiveListFiles (some OneDrive.table) callback pages) := by
  have hfail : ∀ err, Preserves world Kept (some <$> failWith err : Hive OneDriveConnect (Option Int)) :=
    fun err => aboutItems_kept.preserves_failWith.map _
  cases callback with
  | false => exact hfail _
  | true =>
      refine kept_listFiles.bind fun result => ?_
      rcases result with _ | rc
      · exact .pure _
      · exact .ite (fun _ => hfail _) fun _ => .pure _

/-- What the caller knows after a call is true. -/
theorem kept_call (c : SessionCall) {p : Process OneDriveConnect} {v : TokenView} (h : Kept p v) :
    Proc.wp world c.run (fun _ p' u => Kept p' (c.note u)) p v := by
  cases c with
  | item op name => exact (kept_operation op name).map some p v h
  | listFiles callback pages => exact kept_hiveListFiles p v h
  | setAccessTokenExpired =>
      exact ⟨h.tokenType, h.accessToken, h.refreshToken, fun _ => rfl, h.settled⟩
  | refused err => exact (aboutItems_kept.preserves_failWith.map some) p v h

/-! ### Traces -/

/-- What the observer knows after a trace. -/
def after (v : TokenView) (tr : Trace) : TokenView := tr.foldl observe v

theorem world_accepts {tr : Trace} (h : ∀ entry ∈ tr, Clocked entry.1 entry.2) (v : TokenView) :
    world.Accepts v tr (v.after tr) := by
  induction tr generalizing v with
  | nil => exact .nil v
  | cons entry tr ih =>
      have hrest : ∀ entry' ∈ tr, Clocked entry'.1 entry'.2 := fun entry' h' => h entry' (List.mem_cons_of_mem _ h')
      exact .cons ⟨h entry List.mem_cons_self, rfl⟩ (ih hrest _)

/-- The tokens are those that the session has begun with, or come from one response. -/
def Sourced (source : TokenSet) (past : Trace) (tokens : TokenSet) : Prop :=
  tokens = source ∨ ∃ text json, ⟨.cjsonParse text, some json⟩ ∈ past ∧ acceptedTokens json = some tokens

/-- So are those that have been received and may be taken over. -/
structure Traced (source : TokenSet) (past : Trace) (v : TokenView) : Prop where
  present : Sourced source past v.source
  coming : ∀ tokens, v.received = some tokens → Sourced source past tokens

theorem Sourced.append {source tokens : TokenSet} {past : Trace} (h : Sourced source past tokens) (tr : Trace) :
    Sourced source (past ++ tr) tokens := by
  rcases h with hstart | ⟨text, json, hmem, haccepted⟩
  · exact .inl hstart
  · exact .inr ⟨text, json, List.mem_append_left tr hmem, haccepted⟩

theorem Traced.observe {source : TokenSet} {past : Trace} {v : TokenView} (h : Traced source past v)
    (entry : Entry Event Event.Answer) : Traced source (past ++ [entry]) (v.observe entry) := by
  obtain ⟨e, r⟩ := entry
  have hpresent := h.present.append [⟨e, r⟩]
  have hcoming : ∀ tokens, v.received = some tokens → Sourced source (past ++ [⟨e, r⟩]) tokens :=
    fun tokens htokens => (h.coming tokens htokens).append _
  cases e with
  | perform req => exact ⟨hpresent, fun tokens htokens => by cases htokens⟩
  | realloc n =>
      cases r with
      | true => exact ⟨hpresent, hcoming⟩
      | false => exact ⟨hpresent, hcoming⟩
  | strdup text =>
      cases r with
      | true => exact ⟨hpresent, hcoming⟩
      | false => exact ⟨hpresent, fun tokens htokens => by cases htokens⟩
  | cjsonParse text =>
      refine ⟨hpresent, fun tokens htokens => ?_⟩
      by_cases hasking : v.asking = true
      · rcases r with _ | json
        · simp [TokenView.observe, hasking] at htokens
        · refine .inr ⟨text, json, List.mem_append_right past List.mem_cons_self, ?_⟩
          simpa [TokenView.observe, hasking] using htokens
      · simp [TokenView.observe, hasking] at htokens
  | gettimeofday =>
      rw [TokenView.observe]
      rcases hreceived : v.received with _ | tokens
      · exact ⟨hpresent, hcoming⟩
      · exact ⟨hcoming tokens hreceived, fun tokens htokens => by cases htokens⟩
  | _ => exact ⟨hpresent, hcoming⟩

theorem Traced.after {source : TokenSet} {past : Trace} {v : TokenView} (h : Traced source past v) (tr : Trace) :
    Traced source (past ++ tr) (v.after tr) := by
  induction tr generalizing past v with
  | nil =>
      rw [List.append_nil]
      exact h
  | cons entry tr ih =>
      have hnext := ih (h.observe entry)
      rw [List.append_assoc, List.singleton_append] at hnext
      exact hnext

end TokenView

/-! ### Sessions -/

/-- The three strings, if they are there. -/
def OAuthToken.tokens (token : OAuthToken) : Option TokenSet := do
  let tokenType ← token.tokenType
  let accessToken ← token.accessToken
  let refreshToken ← token.refreshToken
  return ⟨tokenType, accessToken, refreshToken⟩

theorem OAuthToken.tokens_eq_some_iff {token : OAuthToken} {tokens : TokenSet} :
    token.tokens = some tokens ↔ token.tokenType = some tokens.tokenType
      ∧ token.accessToken = some tokens.accessToken ∧ token.refreshToken = some tokens.refreshToken := by
  rcases tokens with ⟨tokenType, accessToken, refreshToken⟩
  simp [OAuthToken.tokens, Option.bind_eq_some_iff]

/-- Calls, one after the other, that have come back, what has been seen of them, and what is known of the token then. -/
inductive Session (source : TokenSet) : Trace → Process OneDriveConnect → TokenView → Prop
  | start {p : Process OneDriveConnect} (h : p.conn.token.tokens = some source) :
      Session source [] p { source := source }
  | call {past tr : Trace} {p p' : Process OneDriveConnect} {v : TokenView} {result : Option Int} (c : SessionCall)
      (h : Session source past p v) (hrun : Run (c.run p) tr (result, p'))
      (hclock : ∀ entry ∈ tr, TokenView.Clocked entry.1 entry.2) :
      Session source (past ++ tr) p' (c.note (v.after tr))

section
variable {source : TokenSet} {past : Trace} {p : Process OneDriveConnect} {v : TokenView}

theorem Session.kept (h : Session source past p v) : TokenView.Kept p v := by
  induction h with
  | start hstart =>
      obtain ⟨htype, haccess, hrefresh⟩ := OAuthToken.tokens_eq_some_iff.1 hstart
      exact ⟨htype, haccess, hrefresh, fun hneeds => (by cases hneeds), rfl⟩
  | call c h hrun hclock ih =>
      have hresult := Prog.wp_run (TokenView.kept_call c ih) hrun (TokenView.world_accepts hclock _)
      exact hresult

theorem Session.traced (h : Session source past p v) : TokenView.Traced source past v := by
  induction h with
  | start hstart => exact ⟨.inl rfl, fun tokens htokens => by cases htokens⟩
  | @call past tr p p' v result c h hrun hclock ih =>
      have hafter := ih.after tr
      cases c with
      | setAccessTokenExpired => exact ⟨hafter.present, hafter.coming⟩
      | item | listFiles | refused => exact hafter

/-- Throughout a session: the strings of the token are those of one source, a refresh that fails changes nothing, and a request is made with the token of the last source and never to the drive while the token needs to be refreshed. -/
theorem session_invariant (h : Session source past p v) :
    p.conn.token.tokens = some v.source
    ∧ TokenView.Sourced source past v.source
    ∧ (∀ tr rc p', Run (oauthTokenCheckExpire p) tr (rc, p') → rc < 0 → p'.conn = p.conn)
    ∧ (∀ (c : SessionCall) tr e k, Steps (c.run p) tr (.ask e k) →
        (∀ entry ∈ tr, TokenView.Clocked entry.1 entry.2) → (v.after tr).Allows e) := by
  have hkept := h.kept
  refine ⟨?_, h.traced.present, ?_, ?_⟩
  · exact OAuthToken.tokens_eq_some_iff.2 ⟨hkept.tokenType, hkept.accessToken, hkept.refreshToken⟩
  · intro tr rc p' hrun hneg
    have hresult := Prog.wp_run (guard_oauthTokenCheckExpire (p := p)) hrun (World.guard_accepts TokenCall tr)
    exact (CheckResult.failed hresult hneg).2
  · intro c tr e k hsteps hclock
    exact Prog.wp_steps (TokenView.kept_call c hkept) hsteps (TokenView.world_accepts hclock v)

end

def demoTokens : TokenSet := ⟨bytes "Bearer", bytes "A", bytes "R"⟩

def lengthOfKey : SessionCall := .item .getFileLength plainKey

theorem session_expired : Session demoTokens [] expiredProcess { source := demoTokens, stale := true } := by
  have hrun : Run (SessionCall.setAccessTokenExpired.run demoProcess) [] (some 0, expiredProcess) := .refl _
  exact .call .setAccessTokenExpired (.start rfl) hrun (by simp)

/-- After `hive_set_access_token_expired` the next call refreshes the token. -/
theorem expired_session_refreshes : expiredProcess.conn.token.tokens = some demoTokens
    ∧ (TokenView.after { source := demoTokens, stale := true }
        ((refreshing (demoReply HttpStatus.ok [])).take 5)).Allows (.perform refreshRequest)
    ∧ ¬ TokenView.Allows { source := demoTokens, stale := true } (.perform (lengthRequest plainKey)) := by
  obtain ⟨htokens, -, -, hasks⟩ := session_invariant session_expired
  have hsteps : ∃ k, Steps (lengthOfKey.run expiredProcess) ((refreshing (demoReply HttpStatus.ok [])).take 5)
      (.ask (.perform refreshRequest) k) := by
    apply Exists.intro
    iterate 5 refine .ask _ _ _ ?_
    exact .refl _
  obtain ⟨k, hsteps⟩ := hsteps
  have hclock : ∀ entry ∈ (refreshing (demoReply HttpStatus.ok [])).take 5, TokenView.Clocked entry.1 entry.2 := by
    simp [refreshing, TokenView.Clocked]
    decide
  refine ⟨htokens, hasks lengthOfKey _ _ k hsteps hclock, fun hallowed => ?_⟩
  exact absurd (hallowed.2.1 rfl) (by decide)

/-! ### Answers that say nothing about the token -/

def fetchKey : SessionCall := .item (.getFileToBuffer (List.replicate 5 0) 5 (by decide)) plainKey

/-- A download whose URL is turned away. -/
def deniedDownload : Trace :=
  [⟨.gettimeofday, demoTime⟩, ⟨.httpClientNew .getFileToBuffer, true⟩,
    ⟨.perform { lengthRequest plainKey with query := [(bytes "select", Item.InfoQuery.sizeAndDownloadUrl.text)] },
      demoReply HttpStatus.ok infoText⟩]
    ++ receiving
    ++ [⟨.perform { method := .get, url := .download (bytes "https://dl.example/k") },
      demoReply HttpStatus.unauthorized []⟩]

/-- A request with the token that is turned away, with an answer there is no memory for. -/
def unreceivedDenial : Trace :=
  [⟨.gettimeofday, demoTime⟩, ⟨.httpClientNew .getFileLength, true⟩,
    ⟨.perform (lengthRequest plainKey), demoReply HttpStatus.unauthorized infoText⟩,
    ⟨.realloc (ResponseBody.empty.newSize infoText.length), false⟩]

unseal growSize in
private theorem deniedDownload_run :
    Run (OneDrive.getFileToBuffer plainKey.text (List.replicate 5 0) 5 demoProcess) deniedDownload
      ((.int (cInt (hiveHttpStatusError HttpStatus.unauthorized)), List.replicate 5 0), demoProcess) := by
  have hneg : cInt (hiveHttpStatusError HttpStatus.unauthorized) < 0 := by decide
  iterate 7 refine .ask _ _ _ ?_
  refine (run_bind_iff _ _).2 ⟨((cInt (hiveHttpStatusError HttpStatus.unauthorized), List.replicate 5 0),
    demoProcess), [], [], rfl, .refl _, ?_⟩
  dsimp only
  rw [if_pos hneg]
  exact .refl _

private theorem unreceivedDenial_run :
    Run (OneDrive.getFileLength plainKey.text demoProcess) unreceivedDenial
      (.int (cInt (hiveCurlError CurlE.writeError)), demoProcess) := by
  iterate 4 refine .ask _ _ _ ?_
  exact .refl _

/-- The drive has answered 401. -/
def isDenial : Entry Event Event.Answer → Bool
  | ⟨.perform req, reply⟩ => !req.url.isToken && reply.answered = some HttpStatus.unauthorized
  | _ => false

/-- The token endpoint has been asked. -/
def asksToken : Entry Event Event.Answer → Bool
  | ⟨.perform req, _⟩ => req.url.isToken
  | _ => false

/-- A session that has seen a 401 and no refresh, and whose next call asks the drive with the token that it has. -/
def AsksAgain (past : Trace) : Prop :=
  past.any isDenial ∧ past.any asksToken = false ∧ ∃ p v k, Session demoTokens past p v
    ∧ Steps (lengthOfKey.run p) [⟨.gettimeofday, demoTime⟩, ⟨.httpClientNew .getFileLength, true⟩]
        (.ask (.perform (lengthRequest plainKey)) k)

private theorem asksAgain_of_run {c : SessionCall} {past : Trace} {result : Option Int} {err : Int}
    (hrun : Run (c.run demoProcess) past (result, { demoProcess with hiveError := err }))
    (hclock : ∀ entry ∈ past, TokenView.Clocked entry.1 entry.2) (hdenied : past.any isDenial)
    (hunasked : past.any asksToken = false) : AsksAgain past := by
  have hsession : Session demoTokens ([] ++ past) { demoProcess with hiveError := err }
      (c.note (TokenView.after { source := demoTokens } past)) := .call c (.start rfl) hrun hclock
  have hasks : ∃ k, Steps (lengthOfKey.run { demoProcess with hiveError := err })
      [⟨.gettimeofday, demoTime⟩, ⟨.httpClientNew .getFileLength, true⟩]
      (.ask (.perform (lengthRequest plainKey)) k) := by
    apply Exists.intro
    iterate 2 refine .ask _ _ _ ?_
    exact .refl _
  obtain ⟨k, hasks⟩ := hasks
  exact ⟨hdenied, hunasked, _, _, k, hsession, hasks⟩

/-- The 401 of a download without the token, and one whose answer was not received, leave the token as it is. -/
theorem unauthorized_unnoticed : AsksAgain deniedDownload ∧ AsksAgain unreceivedDenial := by
  have hstatus : IntError (cInt (hiveHttpStatusError HttpStatus.unauthorized)) := intError_hiveHttpStatusError _
  have hcurl : IntError (cInt (hiveCurlError CurlE.writeError)) := intError_hiveMkError .curl (by decide)
  have hfetch : Run (fetchKey.run demoProcess) deniedDownload
      (some (-1), { demoProcess with hiveError := cInt (hiveHttpStatusError HttpStatus.unauthorized) }) := by
    have h := run_dispatchBuffer (List.replicate 5 0) deniedDownload_run
    rw [Exit.dispatched_int hstatus] at h
    have hrc := (run_map_iff _ fun x => (x.1.1, x.2)).2 ⟨_, h, rfl⟩
    exact (run_map_iff _ fun x => (some x.1, x.2)).2 ⟨_, hrc, rfl⟩
  have hlength : Run (lengthOfKey.run demoProcess) unreceivedDenial
      (some (-1), { demoProcess with hiveError := cInt (hiveCurlError CurlE.writeError) }) := by
    have h := run_dispatchLength unreceivedDenial_run
    rw [Exit.dispatched_int hcurl] at h
    exact (run_map_iff _ _).2 ⟨_, h, rfl⟩
  constructor
  · refine asksAgain_of_run hfetch ?_ (by decide) (by decide)
    simp [deniedDownload, receiving, collecting, TokenView.Clocked]
    decide
  · refine asksAgain_of_run hlength ?_ (by decide) (by decide)
    simp [unreceivedDenial, TokenView.Clocked]
    decide

end HiveSdk
