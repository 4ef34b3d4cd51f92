import HiveSdk.Drive.Store
import HiveSdk.Tokens.Session

/-!
# Where requests go

Besides the URLs of its own the client sends requests to URLs that the drive hands out: an upload URL, a download URL, the next page of a listing. Each of them is used at once, by the call that has asked for it and for what it has been asked for. There are ten kinds of requests in all, and nothing in them is left open: the refresh token has its place in the form for the token endpoint and nowhere else, and the access token goes along to the drive and to the next page, but not to an upload or a download URL.
-/

namespace HiveSdk

open Interaction
open Proc (Within Preserves)

/-- The URL of the last request, what the last answer has been parsed as, and what has been printed last. -/
structure Custody where
  asked : Option Url := none
  told : Option Json := none
  printed : Option (Json × Bytes) := none

namespace Custody

def observe (c : Custody) : Entry Event Event.Answer → Custody
  | ⟨.perform req, _⟩ => { asked := some req.url }
  | ⟨.cjsonParse _, json⟩ => { c with told := json }
  | ⟨.cjsonPrint json, text⟩ => { c with printed := text.map fun text => (json, text) }
  | _ => c

/-- The answer to the last request names the URL. -/
def Names (c : Custody) (asked : Url) (member url : Bytes) : Prop :=
  c.asked = some asked ∧ ∃ json, c.told = some json ∧ json.stringItem member = some url

/-- A page of the listing. -/
def IsPage : Url → Prop
  | .nextLink _ => True
  | url => url = .item filesDir (bytes ":/children")

/-- What is posted for a folder. -/
def folderJson (fname : Bytes) : Json := .object [(bytes "name", .string fname), (bytes "folder", .object [])]

def rangeHeaders (len : Nat) : List (Bytes × Bytes) :=
  [(bytes "Content-Length", decimal len),
    (bytes "Content-Range", bytes "bytes 0-" ++ decimal (len - 1) ++ bytes "/" ++ decimal len),
    (bytes "Transfer-Encoding", []), (bytes "Expect", [])]

/-- The requests that may be made with these tokens in a call on this path that uploads these contents: a URL that is not the client's own has just been named for it. -/
inductive Sanctions (c : Custody) (v : TokenView) (path : Bytes) (uploads : Bytes → Prop) : Request → Prop
  | refresh (url clientId redirectUri value : Bytes) (h : v.escaped = some (v.source.refreshToken, value)) :
      Sanctions c v path uploads
        { method := .post, url := .token url,
          body := tokenForm clientId redirectUri (bytes "refresh_token") value (bytes "refresh_token") }
  | info (query : Item.InfoQuery) :
      Sanctions c v path uploads
        { method := .get, url := .item path [], query := [(bytes "select", query.text)],
          headers := [(authorization, v.source.accessToken)] }
  | upload (content : Bytes) (h : uploads content) :
      Sanctions c v path uploads
        { method := .put, url := .item path (bytes ":/content"), headers := [(authorization, v.source.accessToken)],
          body := content }
  | delete :
      Sanctions c v path uploads
        { method := .delete, url := .item path (bytes ":"), headers := [(authorization, v.source.accessToken)] }
  | folder (body : Bytes) (h : c.printed = some (folderJson (basename (dirname path)), body)) :
      Sanctions c v path uploads
        { method := .post, url := FolderService.folderUrl (dirname path),
          headers := [(bytes "Content-Type", bytes "application/json"), (authorization, v.source.accessToken)], body := body }
  | session :
      Sanctions c v path uploads
        { method := .post, url := .item path (bytes ":/createUploadSession"), headers := [(authorization, v.source.accessToken)] }
  | uploadToSession (url content : Bytes) (h : uploads content)
      (hnames : c.Names (.item path (bytes ":/createUploadSession")) (bytes "uploadUrl") url) :
      Sanctions c v path uploads
        { method := .put, url := .upload url, headers := rangeHeaders content.length, body := content }
  | download (url : Bytes) (hnames : c.Names (.item path []) (bytes "@microsoft.graph.downloadUrl") url) :
      Sanctions c v path uploads { method := .get, url := .download url }
  | page :
      Sanctions c v path uploads
        { method := .get, url := .item filesDir (bytes ":/children"), headers := [(authorization, v.source.accessToken)] }
  | nextPage (page : Url) (url : Bytes) (hpage : IsPage page) (hnames : c.Names page (bytes "@odata.nextLink") url) :
      Sanctions c v path uploads
        { method := .get, url := .nextLink url, headers := [(authorization, v.source.accessToken)] }

def Allows (c : Custody) (path : Bytes) (uploads : Bytes → Prop) : Event → Prop
  | .perform req => ∃ v, c.Sanctions v path uploads req
  | _ => True

def world (path : Bytes) (uploads : Bytes → Prop) : World Event Event.Answer Custody where
  pre c := c.Allows path uploads
  step c e r c' := c' = c.observe ⟨e, r⟩

section
variable {path : Bytes} {uploads : Bytes → Prop} {α : Type} {p : Process OneDriveConnect} {c : Custody}

/-- Calls that are no requests may be made at any time. -/
theorem wp_free {e : Event} (he : ∀ c : Custody, c.Allows path uploads e)
    {Q : e.Answer → Process OneDriveConnect → Custody → Prop} (h : ∀ r, Q r p (c.observe ⟨e, r⟩)) :
    Proc.wp (world path uploads) (call e) Q p c := by
  rw [Proc.wp_call]
  refine ⟨he c, fun r t ht => ?_⟩
  rw [show t = c.observe ⟨e, r⟩ from ht]
  exact h r

theorem preserves_free {e : Event} (he : ∀ c : Custody, c.Allows path uploads e) :
    Preserves (world path uploads) (fun (_ : Process OneDriveConnect) _ => True) (call e) :=
  .call fun _ c _ => ⟨he c, fun _ _ _ => trivial⟩

theorem aboutItems_world : AboutItems (world path uploads) (fun (_ : Process OneDriveConnect) _ => True) := by
  refine ⟨fun _ _ _ _ h => h, fun e he _ c _ => ⟨?_, fun _ _ _ => trivial⟩⟩
  cases e <;> first | exact trivial | exact he.elim

/-! ### Answers -/

theorem wp_formatted {url : Url} {f : Url → Hive OneDriveConnect α} {Q : α → Process OneDriveConnect → Custody → Prop}
    (h : Proc.wp (world path uploads) (f url) Q p c) : Proc.wp (world path uploads) (formatUrl url >>= f) Q p c := by
  rw [Proc.wp_bind, wp_formatUrl]
  exact ⟨fun _ => ⟨trivial, fun _ _ _ => trivial⟩, fun _ => h⟩

/-- After a request with the token. -/
theorem wp_sendAuthorized {req : Request} {enable : Bool}
    {Q : Except Int (StatusCode × ResponseBody) → Process OneDriveConnect → Custody → Prop}
    (hreq : ∀ v : TokenView, c.Sanctions v path uploads
      { req with headers := req.headers ++ [(authorization, v.source.accessToken)] })
    (hok : ∀ status response, Q (.ok (status, response)) p { asked := some req.url })
    (hfail : ∀ err p' c', Q (.error err) p' c') : Proc.wp (world path uploads) (sendAuthorized req enable) Q p c := by
  apply wp_sendAuthorized_any
  · exact fun _ _ _ _ _ => trivial
  · intro t n allocated u hu
    exact hu
  · exact trivial
  · exact fun accessToken => ⟨_, hreq { source := ⟨[], accessToken, []⟩ }⟩
  · intro headers reply t ht status response
    rw [show t = { asked := some req.url } from ht]
    exact hok status response
  · exact fun _ _ t _ err p' _ => hfail err p' t

/-- The body of the answer, which leaves nothing to be said of the last request. -/
theorem wp_httpClientMoveResponseBody {response : ResponseBody} {Q : Option HeapBlock → Process OneDriveConnect → Custody → Prop}
    (h : ∀ body, Q body p c) : Proc.wp (world path uploads) (httpClientMoveResponseBody response false) Q p c := by
  rw [httpClientMoveResponseBody, Proc.wp_ite, if_neg Bool.false_ne_true, wp_undefinedBehaviour, Proc.wp_pure]
  exact ⟨fun _ => trivial, fun _ => h _⟩

theorem wp_cjsonParse {body : HeapBlock} {Q : Option Json → Process OneDriveConnect → Custody → Prop}
    (h : ∀ json, Q json p { c with told := json }) : Proc.wp (world path uploads) (HiveSdk.cjsonParse body) Q p c := by
  rw [HiveSdk.cjsonParse, Proc.wp_bind, Proc.wp_call]
  refine ⟨trivial, fun rest t ht => ?_⟩
  rw [show t = c from ht, Proc.wp_ite, Proc.wp_call, wp_undefinedBehaviour]
  refine ⟨fun _ => ⟨trivial, fun json u hu => ?_⟩, fun _ => trivial⟩
  rw [show u = { c with told := json } from hu]
  exact h json

/-- The form is posted to the token endpoint, with what the refresh token has been escaped to. -/
theorem wp_requestToken {value : Option Bytes} {bufSize : Nat} {ignoreInfo : Bool} :
    Proc.wp (world path uploads)
      (requestToken .refreshAccessToken (bytes "refresh_token") value (bytes "refresh_token") bufSize ignoreInfo)
      (fun rc p' _ => TokenResult IntError p rc p') p c := by
  have hmemory : IntError (cInt (hiveGeneralError HiveErr.outOfMemory)) :=
    intError_hiveMkError .general (by decide)
  rw [requestToken, Proc.wp_bind, wp_getToken, Proc.wp_bind]
  refine wp_free (fun _ => by trivial) fun created => ?_
  rw [Proc.wp_ite, Proc.wp_pure]
  refine ⟨fun _ => .fail hmemory rfl, fun _ => ?_⟩
  rw [Proc.wp_bind]
  refine wp_free (fun _ => by trivial) fun clientId => ?_
  rcases clientId with _ | clientId
  · exact .fail hmemory rfl
  dsimp only
  rw [Proc.wp_bind]
  refine wp_free (fun _ => by trivial) fun redirectUri => ?_
  rcases redirectUri with _ | redirectUri
  · exact .fail hmemory rfl
  rcases value with _ | text
  · exact (wp_undefinedBehaviour ..).2 trivial
  dsimp only
  rw [Proc.wp_bind]
  refine wp_free (fun _ => by trivial) fun escaped => ?_
  rcases escaped with _ | escaped
  · exact .fail hmemory rfl
  simp only [Proc.wp_ite, Proc.wp_bind, Proc.wp_pure]
  refine ⟨fun _ => .fail (intError_hiveMkError .general (by decide)) rfl, fun _ => ?_⟩
  apply wp_httpClientRequestBody_any
  · exact fun _ _ _ _ => trivial
  · exact fun t n allocated u hu => hu
  · exact ⟨{ source := ⟨[], [], text⟩, escaped := some (text, escaped) }, .refresh _ _ _ _ rfl⟩
  intro reply t _ rc response
  simp only [Proc.wp_ite, Proc.wp_pure]
  refine ⟨fun _ => .fail (intError_hiveMkError .curl (by omega)) rfl, fun _ => ?_⟩
  refine ⟨fun _ => .fail (intError_hiveMkError .curl (by omega)) rfl, fun _ => ?_⟩
  refine ⟨fun _ => .fail (intError_hiveHttpStatusError _) rfl, fun _ => ?_⟩
  rw [Proc.wp_bind]
  apply wp_httpClientMoveResponseBody
  intro body
  rcases body with _ | body
  · exact .fail hmemory rfl
  apply wp_decodeAccessToken_any (I := fun _ => True)
  · exact fun P hP => wp_cjsonParse fun json => hP json _ trivial
  · intro t e _ he
    cases e <;> first | exact trivial | exact he.elim
  · exact fun _ _ _ _ _ _ _ => trivial
  · exact fun rc p' t _ h => ⟨fun hneg => ⟨(h.failed hneg).1.toIntError, (h.failed hneg).2⟩, h.succeeded⟩

end

/-! ### The item functions -/

namespace Item

section
variable {path content block : Bytes} {uploads : Bytes → Prop} {p : Process OneDriveConnect} {c : Custody}

end

end Item

/-! ### Listing -/

section
variable {path : Bytes} {uploads : Bytes → Prop}

theorem preserves_notifyUserFiles (items : List Json) :
    Preserves (world path uploads) (fun _ _ => True) (OneDrive.notifyUserFiles items) := by
  have hcall : ∀ name, Preserves (world path uploads) (fun (_ : Process OneDriveConnect) _ => True) (call (.filesCallback name)) :=
    fun name => preserves_free fun _ => by trivial
  induction items with
  | nil => exact (hcall none).bind fun _ => .pure _
  | cons item items ih =>
      rw [OneDrive.notifyUserFiles]
      rcases item.stringItem (bytes "name") with _ | name
      · exact aboutItems_world.preserves_undefinedBehaviour
      · exact (hcall (some name)).bind fun resume => .ite (fun _ => ih) fun _ => .pure _

end

/-- What is known of the requests after a trace. -/
def after (tr : Trace) : Custody := tr.foldl observe {}

theorem world_accepts (path : Bytes) (uploads : Bytes → Prop) (tr : Trace) (c : Custody) :
    (world path uploads).Accepts c tr (tr.foldl observe c) := by
  induction tr generalizing c with
  | nil => exact .nil c
  | cons entry tr ih => exact .cons rfl (ih _)

end Custody

/-- The path that a call is about. -/
def SessionCall.path : SessionCall → Bytes
  | item op name => op.path name
  | _ => filesDir

/-- The contents that a call may upload: the caller's own, and for `put_file` and `put_value` what there is to be put. -/
def SessionCall.Uploads : SessionCall → Bytes → Prop
  | item op _, content => op.Makes (.put content)
  | _, _ => False

end HiveSdk
