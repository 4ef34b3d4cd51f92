import HiveSdk.Drive.Requests
import HiveSdk.Model.Api

/-!
# A drive with folders

The drive as a tree, on a day on which everything works and every request has one answer. A content that is put creates the folders it needs and replaces what is there; a folder that is asked for is created only in a folder, and only if there is nothing of its name. In such a world the functions of an upload can be computed, so their specifications here are equivalences.
-/

namespace HiveSdk

open Interaction OneDrive

/-! ### The tree -/

inductive Node
  | folder
  | file (content : Bytes)
  deriving DecidableEq, Repr

/-- The items by the names on the way to them. -/
abbrev FolderTree := List Bytes → Option Node

namespace FolderTree

def put (tree : FolderTree) (path : List Bytes) (content : Bytes) : FolderTree := fun q =>
  if q = path then some (.file content)
  else if q <+: path ∧ tree q = none then some .folder
  else tree q

def mkdir (tree : FolderTree) (path : List Bytes) : FolderTree :=
  Function.update tree path (some .folder)

variable {tree : FolderTree} {path q : List Bytes} {content : Bytes}

theorem put_self : tree.put path content path = some (.file content) := if_pos rfl

/-- What is there stays there, if not as it was. -/
theorem put_ne_none (h : tree q ≠ none) : tree.put path content q ≠ none := by
  rw [put]
  split
  · exact Option.some_ne_none _
  · split
    · exact Option.some_ne_none _
    · exact h

end FolderTree

/-! ### The service -/

def conflict : StatusCode := 409
def badRequest : StatusCode := 400

/-- What the client tells the drive about a folder. -/
def folderJson (name : Bytes) : Json :=
  .object [(bytes "name", .string name), (bytes "folder", .object [])]

/-- A clock and a parser, the answers of the token endpoint, the printer and how the drive reads what it prints, the status with which the drive confirms a content, and the upload URL of a path with the answer that carries it. -/
structure FolderService where
  env : Env
  tokens : Reply → Prop
  print : Json → Bytes
  folderName : Bytes → Option Bytes
  stored : FolderTree → Bytes → StatusCode
  session : Bytes → Bytes
  folderName_print : ∀ name, folderName (print (folderJson name)) = some name
  stored_ok : ∀ tree path, stored tree path = HttpStatus.ok ∨ stored tree path = HttpStatus.created
  announces : ∀ path, ∃ reply json, reply.answered = some HttpStatus.ok ∧ env.Says reply json
    ∧ reply.LeavesRoom ∧ json.stringItem (bytes "uploadUrl") = some (session path)

/-- The tree, and the upload URLs that have been handed out. -/
structure Cloud where
  tree : FolderTree
  uploads : Bytes → Option Bytes

def Cloud.put (s : Cloud) (path content : Bytes) : Cloud :=
  { s with tree := s.tree.put (segments path) content }

def Cloud.mkdir (s : Cloud) (path : List Bytes) : Cloud := { s with tree := s.tree.mkdir path }

/-- The folder in which a request asks for a folder. -/
def Request.parent (req : Request) : Option (List Bytes) :=
  match req.method, req.url with
  | .post, .appRootChildren => some []
  | .post, .item dir suffix => if suffix = bytes ":/children" then some (segments dir) else none
  | _, _ => none

namespace FolderService

/-- The creation of a folder. -/
def create (s : Cloud) (parent : List Bytes) (name : Bytes) : StatusCode × Cloud :=
  if s.tree parent ≠ some .folder then (HttpStatus.notFound, s)
  else if s.tree (parent ++ [name]) ≠ none then (conflict, s)
  else (HttpStatus.created, s.mkdir (parent ++ [name]))

variable (service : FolderService)

/-- The status of the answer, and the drive behind it. -/
def respond (s : Cloud) (req : Request) : StatusCode × Cloud :=
  match req.access with
  | .content path => (service.stored s.tree path, s.put path req.body)
  | .session path => (HttpStatus.ok,
      { s with uploads := Function.update s.uploads (service.session path) (some path) })
  | .upload url => match s.uploads url with
      | some path => (service.stored s.tree path, s.put path req.body)
      | none => (HttpStatus.notFound, s)
  | _ => match req.parent, service.folderName req.body with
      | some parent, some name => create s parent name
      | _, _ => (badRequest, s)

structure Exchange (s : Cloud) (req : Request) (reply : Reply) (t : Cloud) : Prop where
  answered : if req.access = .token then service.tokens reply
    else reply.answered = some (service.respond s req).1
  drive : t = (service.respond s req).2
  session : ∀ path, req.access = .session path → ∃ json, service.env.Says reply json
    ∧ reply.LeavesRoom ∧ json.stringItem (bytes "uploadUrl") = some (service.session path)

def world : World Event Event.Answer Cloud where
  pre _ _ := True
  step s e r t := match e, r with
    | .perform req, reply => service.Exchange s req reply t
    | .gettimeofday, now => service.env.clock now ∧ t = s
    | .alloc _, ok | .realloc _, ok | .httpClientNew _, ok | .cjsonCreate, ok => ok = true ∧ t = s
    | .escape _, text => text.isSome ∧ t = s
    | .strdup _, ok => ok = true ∧ t = s
    | .cjsonPrint json, text => text = some (service.print json) ∧ t = s
    | .heapAfter block, rest => (block.spare ≠ 0 → 0 ∈ rest.take block.spare) ∧ t = s
    | .cjsonParse text, json => json = service.env.parse text ∧ t = s
    | _, _ => t = s

/-- The world in which a function that meets its postcondition also returns. -/
abbrev serving : World Event Event.Answer Cloud := service.world.responsive

variable {service} {p : Process OneDriveConnect} {s : Cloud}

/-! ### Calls -/

/-- A call with one answer. -/
theorem wp_call_sure {e : Event} (a : e.Answer) (h : ∀ r t, service.world.step s e r t ↔ r = a ∧ t = s)
    {Q : e.Answer → Process OneDriveConnect → Cloud → Prop} :
    Proc.wp service.serving (call e) Q p s ↔ Q a p s := Proc.wp_responsive_call a trivial h Q

theorem wp_formatUrl_iff {url : Url} {Q : Url → Process OneDriveConnect → Cloud → Prop} :
    Proc.wp service.serving (formatUrl url) Q p s ↔ url.text.length < maxUrlLen ∧ Q url p s := by
  rw [wp_formatUrl]
  have hundefined : ¬ service.serving.pre s .undefined := fun h => h.2.elim fun never _ => never.elim
  constructor
  · intro h
    have hfits : ¬ url.text.length ≥ maxUrlLen := fun hlong => hundefined ((h.1 hlong).2 () s rfl)
    exact ⟨by omega, h.2 hfits⟩
  · intro h
    exact ⟨fun hlong => absurd h.1 (by omega), fun _ => h.2⟩

/-- A look at the token does not change the drive. -/
theorem check_result (p : Process OneDriveConnect) (s : Cloud) :
    Proc.wp service.world oauthTokenCheckExpire (fun rc p' t => CheckResult p rc p' ∧ t = s) p s := by
  refine Proc.wp_frame (I := (· = s)) guard_oauthTokenCheckExpire (fun _ _ _ _ => trivial) ?_ rfl
    fun rc p' t hresult ht => ⟨hresult, ht⟩
  rintro t e r u rfl he hstep
  cases e with
  | perform req =>
      obtain ⟨url, body, rfl⟩ := he
      exact hstep.drive
  | gettimeofday => exact hstep.2
  | realloc size => exact hstep.2
  | strdup text => exact hstep.2
  | heapAfter block => exact hstep.2
  | httpClientNew caller => exact hstep.2
  | escape text => exact hstep.2
  | cjsonParse text => exact hstep.2
  | cjsonPrint json => exact hstep.2
  | cjsonCreate => exact hstep.2
  | alloc size => exact he.elim
  | _ => exact hstep

/-! ### Requests -/

theorem respond_headers (s : Cloud) (req : Request) (headers : List (Bytes × Bytes)) :
    service.respond s { req with headers := headers } = service.respond s req := rfl

/-- A request that the drive answers with a status only. -/
structure Plain (req : Request) : Prop where
  not_session : ∀ path, req.access ≠ .session path
  not_token : req.access ≠ .token

private theorem exists_exchange {req : Request} (hplain : Plain req) :
    ∃ reply, service.Exchange s req reply (service.respond s req).2 := by
  refine ⟨⟨[], 0, 0, (service.respond s req).1⟩, ?_, rfl, fun path hsession => ?_⟩
  · rw [if_neg hplain.not_token]
    exact if_pos ⟨rfl, rfl⟩
  · exact absurd hsession (hplain.not_session path)

private theorem Exchange.finished {req : Request} {reply : Reply} {t : Cloud}
    (h : service.Exchange s req reply t) (hdrive : req.access ≠ .token) :
    reply.code = 0 ∧ reply.info = 0 ∧ reply.status = (service.respond s req).1 := by
  have hanswered := h.answered
  rw [if_neg hdrive, Reply.answered] at hanswered
  split at hanswered
  case isTrue hdone => exact ⟨hdone.1, hdone.2, Option.some.inj hanswered⟩
  case isFalse => cases hanswered

/-- A request whose answer nobody reads has only a status. -/
theorem wp_request {req : Request} (hplain : Plain req)
    {Q : CurlCode × Reply → Process OneDriveConnect → Cloud → Prop}
    (h : ∀ reply, reply.info = 0 → reply.status = (service.respond s req).1 →
      Q (0, reply) p (service.respond s req).2) :
    Proc.wp service.serving (httpClientRequest req) Q p s := by
  rw [httpClientRequest, Proc.wp_bind, Proc.wp_call]
  have hserved : ∃ reply, service.Exchange s req reply (service.respond s req).2 := exists_exchange hplain
  obtain ⟨reply, hreply⟩ := hserved
  refine ⟨⟨trivial, reply, _, hreply⟩, fun reply t hexchange => ?_⟩
  obtain ⟨hcode, hinfo, hstatus⟩ := hexchange.finished hplain.not_token
  rw [Proc.wp_pure, hcode, hexchange.drive]
  exact h reply hinfo hstatus

theorem wp_sendAuthorized_iff {req : Request} (htoken : p.conn.token.accessToken.isSome)
    (hplain : Plain req)
    (hstatus : (service.respond s req).1 ≠ HttpStatus.unauthorized)
    {Q : Except Int (StatusCode × ResponseBody) → Process OneDriveConnect → Cloud → Prop} :
    Proc.wp service.serving (sendAuthorized req false) Q p s
      ↔ Q (.ok ((service.respond s req).1, .empty)) p (service.respond s req).2 := by
  apply Proc.wp_responsive_iff
  obtain ⟨accessToken, haccess⟩ := Option.isSome_iff_exists.1 htoken
  simp only [sendAuthorized, Proc.wp_bind, wp_getToken, haccess]
  rw [if_neg Bool.false_ne_true, Proc.wp_bind]
  have hplain' : Plain { req with headers := req.headers ++ [(authorization, accessToken)] } :=
    ⟨hplain.not_session, hplain.not_token⟩
  apply wp_request hplain'
  intro reply hinfo hanswer
  rw [respond_headers] at hanswer ⊢
  simp only [Proc.wp_bind, Proc.wp_pure, checkReply, Proc.wp_ite]
  refine ⟨fun hne => absurd rfl hne, fun _ => ⟨fun hne => absurd hinfo hne, fun _ => ?_⟩⟩
  refine ⟨fun h401 => absurd (hanswer.symm.trans h401) hstatus, fun _ => ?_⟩
  rw [hanswer]
  exact ⟨rfl, trivial, rfl⟩

/-- The request for an upload session, with the answer that it is sure to get. -/
private theorem wp_requestSession {req : Request} {path : Bytes} (haccess : req.access = .session path)
    (htoken : p.conn.token.accessToken.isSome)
    {Q : Except Int (StatusCode × ResponseBody) → Process OneDriveConnect → Cloud → Prop}
    (h : ∀ reply json response, service.env.Says reply json → reply.LeavesRoom →
      json.stringItem (bytes "uploadUrl") = some (service.session path) → response.Holds reply →
      Q (.ok (HttpStatus.ok, response)) p (service.respond s req).2) :
    Proc.wp service.serving (sendAuthorized req true) Q p s := by
  have hstatus : (service.respond s req).1 = HttpStatus.ok := by rw [respond, haccess]
  have hdrive : req.access ≠ .token := fun htoken => by cases haccess.symm.trans htoken
  obtain ⟨accessToken, htoken⟩ := Option.isSome_iff_exists.1 htoken
  simp only [sendAuthorized, Proc.wp_bind, wp_getToken, htoken]
  rw [if_pos trivial, Proc.wp_bind, httpClientRequestBody, Proc.wp_bind, Proc.wp_call]
  constructor
  · obtain ⟨reply, json, hanswered, hread, hroom, hurl⟩ := service.announces path
    refine ⟨trivial, reply, (service.respond s req).2, ?_, rfl, fun path' haccess' => ?_⟩
    · rw [respond_headers, hanswered, hstatus]
      exact (if_neg hdrive).symm ▸ rfl
    · obtain rfl : path = path' := Access.session.inj (haccess.symm.trans haccess')
      exact ⟨json, hread, hroom, hurl⟩
  · intro reply t hexchange
    have hexchange' : service.Exchange s
        { req with headers := req.headers ++ [(authorization, accessToken)] } reply t := hexchange
    obtain ⟨hcode, hinfo, hreply⟩ := hexchange'.finished hdrive
    rw [respond_headers, hstatus] at hreply
    obtain ⟨json, hread, hroom, hurl⟩ := hexchange'.session path haccess
    rw [Proc.wp_bind]
    apply wp_deliver
    · exact fun n => ⟨trivial, true, t, rfl, rfl⟩
    · exact fun n u hstep => hstep.2
    · exact ResponseBody.empty_wellSized
    · have hsize := hread.body_size
      simpa [ResponseBody.empty, Reply.body] using hsize
    · intro response hused hcontents hafter
      rw [Proc.wp_pure, Proc.wp_bind]
      simp only [checkReply, Proc.wp_ite, Proc.wp_pure, Proc.wp_bind]
      refine ⟨fun hne => absurd hcode hne, fun _ => ⟨fun hne => absurd hinfo hne, fun _ => ?_⟩⟩
      refine ⟨fun h401 => absurd (hreply.symm.trans h401) (by decide), fun _ => ?_⟩
      rw [hreply, hexchange'.drive]
      exact h reply json response hread hroom hurl (.of_delivered hused hcontents hafter)
    · intro n u hfailed
      cases hfailed.1

/-- The answer with the upload URL is read to its end. -/
theorem wp_createUploadSession_iff {path : Bytes} {len : Nat}
    (htoken : p.conn.token.accessToken.isSome)
    {Q : Except Int Bytes → Process OneDriveConnect → Cloud → Prop} :
    Proc.wp service.serving (Item.createUploadSession path len) Q p s
      ↔ (Url.item path (bytes ":/createUploadSession")).text.length < maxUrlLen
        ∧ Q (if (service.session path).length ≥ len then
              .error (cInt (hiveGeneralError HiveErr.bufferTooSmall))
            else .ok (service.session path)) p
          { s with uploads := Function.update s.uploads (service.session path) (some path) } := by
  rw [Item.createUploadSession, Proc.wp_bind, wp_formatUrl_iff, and_congr_right_iff]
  intro _
  apply Proc.wp_responsive_iff
  have haccess : Request.access
      { method := .post, url := .item path (bytes ":/createUploadSession") } = .session path := rfl
  rw [Proc.wp_bind]
  apply wp_requestSession haccess htoken
  intro reply json response hread hroom hurl hholds
  dsimp only
  rw [if_neg (by simp), Proc.wp_bind]
  have hne : response.used ≠ 0 := by
    rw [hholds.used]
    exact fun h => hread.body_ne_nil (List.length_eq_zero_iff.1 h)
  apply wp_httpClientMoveResponseBody fun h => absurd h hne
  intro _
  dsimp only
  rw [cjsonParse, Proc.wp_bind, Proc.wp_bind, Proc.wp_call]
  obtain ⟨s', hs'⟩ : ∃ s', s' = (service.respond s
    { method := .post, url := .item path (bytes ":/createUploadSession") }).2 := ⟨_, rfl⟩
  rw [← hs']
  have hspare : response.block.spare ≠ 0 := hholds.spare_ne_zero hroom
  have hzero : ∀ rest t, service.world.step s' (.heapAfter response.block) rest t →
      0 ∈ response.block.contents ++ rest.take response.block.spare ∧ t = s' :=
    fun rest t hstep => ⟨List.mem_append_right _ (hstep.1 hspare), hstep.2⟩
  refine ⟨⟨trivial, [0], s', fun _ => zero_mem_take hspare, rfl⟩, ?_⟩
  intro rest t hstep
  obtain ⟨hmem, ht⟩ := hzero rest t hstep
  have hparse : ∀ json' u, service.world.step t (.cjsonParse (cString (response.block.contents ++ rest))) json' u
      ↔ json' = some json ∧ u = t := by
    intro json' u
    rw [← hread.parses rest, show response.block.contents = _ from hholds.contents]
    exact Iff.rfl
  rw [if_pos hmem, wp_call_sure (some json) hparse, ht]
  dsimp only
  rw [hurl]
  dsimp only
  rw [Proc.wp_ite, Proc.wp_pure, Proc.wp_pure]
  refine ⟨fun hlong => ⟨?_, rfl, hs'⟩, fun hshort => ⟨?_, rfl, hs'⟩⟩
  · rw [if_pos hlong]
  · rw [if_neg hshort]

end FolderService

end HiveSdk
