import HiveSdk.Drive.Store
import HiveSdk.Interaction.Concurrent
import HiveSdk.Names.Items

/-!
# The requests of a writer

The functions that change a key ask the drive what they want to know before they change it, and the change is their last request; once it is confirmed they return 0. `set_value` and `delete_key` want to know nothing. So what becomes of the item is decided between the first look at it and the last request.
-/

namespace HiveSdk

open Interaction OneDrive
open Proc (Within)

/-- A request that may change an item. -/
def isWrite : Event → Bool
  | .perform req => !req.access.isRead
  | _ => false

/-- What is answered depends on an item. -/
def Access.isLook : Access → Bool
  | .info _ | .fetch _ => true
  | _ => false

def isLook : Event → Bool
  | .perform req => req.access.isLook
  | _ => false

def isRequest : Event → Bool
  | .perform _ => true
  | _ => false

theorem isRequest_of_write {e : Event} (h : isWrite e = true) : isRequest e = true := by
  cases e <;> first | rfl | cases h

theorem isRequest_of_look {e : Event} (h : isLook e = true) : isRequest e = true := by
  cases e <;> first | rfl | cases h

/-! ### What is asked of a URL -/

section
variable {req : Request} {path suffix url : Bytes}

theorem isRead_of_item (hcontent : suffix ≠ bytes ":/content") (hremove : suffix ≠ bytes ":")
    (hurl : req.url = .item path suffix) : req.access.isRead = true := by
  obtain ⟨method, reqUrl, query, headers, body, mime⟩ := req
  obtain rfl : reqUrl = .item path suffix := hurl
  cases method with
  | get =>
      simp only [Request.access]
      split <;> rfl
  | post =>
      simp only [Request.access]
      split <;> rfl
  | put => simp only [Request.access, if_neg hcontent, Access.isRead]
  | delete => simp only [Request.access, if_neg hremove, Access.isRead]

theorem isLook_of_item (hsuffix : suffix ≠ []) (hurl : req.url = .item path suffix) :
    isLook (.perform req) = false := by
  obtain ⟨method, reqUrl, query, headers, body, mime⟩ := req
  obtain rfl : reqUrl = .item path suffix := hurl
  cases method with
  | get => simp only [isLook, Request.access, if_neg hsuffix, Access.isLook]
  | post | put | delete =>
      simp only [isLook, Request.access]
      split <;> rfl

theorem isRead_of_download (hurl : req.url = .download url) : req.access.isRead = true := by
  obtain ⟨method, reqUrl, query, headers, body, mime⟩ := req
  obtain rfl : reqUrl = .download url := hurl
  cases method <;> rfl

theorem isRead_of_folderUrl (hurl : req.url = FolderService.folderUrl path) : req.access.isRead = true := by
  rw [FolderService.folderUrl] at hurl
  split at hurl
  · obtain ⟨method, reqUrl, query, headers, body, mime⟩ := req
    obtain rfl : reqUrl = .appRootChildren := hurl
    cases method <;> rfl
  · exact isRead_of_item (by decide) (by decide) hurl

end

/-! ### Functions that change nothing -/

/-- The calls that leave the drive as it is. -/
def LeavesDrive (e : Event) : Prop := isWrite e = false

theorem unconcerned_leavesDrive : Unconcerned LeavesDrive := by
  refine ⟨fun e he => ?_, fun req hreq => ?_⟩
  · cases e with
    | perform req => exact he.elim
    | _ => rfl
  · obtain ⟨url, body, rfl⟩ := hreq
    rfl

theorem leavesDrive_of_isRead {req : Request} (h : req.access.isRead = true) : LeavesDrive (.perform req) := by
  rw [LeavesDrive, isWrite, h]
  rfl

theorem reaches_item {path suffix : Bytes} (hcontent : suffix ≠ bytes ":/content") (hremove : suffix ≠ bytes ":") :
    Reaches LeavesDrive (.item path suffix) :=
  ⟨fun _ => rfl, fun _ _ hurl => leavesDrive_of_isRead (isRead_of_item hcontent hremove hurl)⟩

theorem leavesDrive_getFileLength (path : Bytes) : Within LeavesDrive (Item.getFileLength path) :=
  Item.within_getFileLength unconcerned_leavesDrive (reaches_item (by decide) (by decide))

theorem leavesDrive_getFileToBuffer (path block : Bytes) (buflen : Nat) :
    Within LeavesDrive (Item.getFileToBuffer path block buflen) :=
  Item.within_getFileToBuffer unconcerned_leavesDrive
    (fun _ _ hurl => leavesDrive_of_isRead (isRead_of_download hurl)) (reaches_item (by decide) (by decide))

theorem leavesDrive_createFolder (path : Bytes) : Within LeavesDrive (Item.createFolder path) :=
  Item.within_createFolder unconcerned_leavesDrive
    ⟨fun _ => rfl, fun _ _ hurl => leavesDrive_of_isRead (isRead_of_folderUrl hurl)⟩

theorem leavesDrive_createUploadSession (path : Bytes) (len : Nat) :
    Within LeavesDrive (Item.createUploadSession path len) :=
  Item.within_createUploadSession unconcerned_leavesDrive (reaches_item (by decide) (by decide))

/-! ### The change comes last -/

/-- What has become of the request that may change an item: it has not been made yet, it has been made, or it has been confirmed in the plainest way. -/
inductive Change
  | pending
  | asked
  | confirmed

/-- The status that confirms a change. -/
def confirmedStatus : HttpMethod → StatusCode
  | .delete => HttpStatus.noContent
  | _ => HttpStatus.created

theorem confirmedStatus_ne_unauthorized (method : HttpMethod) : confirmedStatus method ≠ HttpStatus.unauthorized := by
  cases method <;> decide

def confirmation (method : HttpMethod) : Reply := ⟨[], 0, 0, confirmedStatus method⟩

namespace Change

def Allows : Change → Event → Prop
  | .pending, _ => True
  | .asked, e => isRequest e = false
  | .confirmed, _ => False

def observe (change : Change) : Entry Event Event.Answer → Change
  | ⟨.perform req, reply⟩ =>
      if req.access.isRead then change else if reply = confirmation req.method then .confirmed else .asked
  | _ => change

theorem observe_of_leaves {change : Change} {e : Event} (h : isWrite e = false) (r : e.Answer) :
    change.observe ⟨e, r⟩ = change := by
  cases e with
  | perform req =>
      have hread : req.access.isRead = true := by simpa [isWrite] using h
      exact if_pos hread
  | _ => rfl

theorem observe_of_write {change : Change} {req : Request} (h : isWrite (.perform req) = true) (reply : Reply) :
    change.observe ⟨.perform req, reply⟩ = if reply = confirmation req.method then .confirmed else .asked := by
  have hread : ¬ req.access.isRead = true := by simpa [isWrite] using h
  exact if_neg hread

theorem observe_ne_pending {change : Change} {entry : Entry Event Event.Answer}
    (h : change ≠ .pending ∨ isWrite entry.1 = true) : change.observe entry ≠ .pending := by
  obtain ⟨e, r⟩ := entry
  by_cases hwrite : isWrite e = true
  · cases e with
    | perform req =>
        rw [observe_of_write hwrite]
        split <;> simp
    | _ => cases hwrite
  · rw [observe_of_leaves (by simpa using hwrite) r]
    exact h.resolve_right hwrite

theorem reply_of_confirmed {req : Request} {reply : Reply}
    (h : Change.observe .pending ⟨.perform req, reply⟩ = .confirmed) : reply = confirmation req.method := by
  simp only [observe] at h
  split at h
  · cases h
  split at h
  case isTrue hreply => exact hreply
  · cases h

end Change

/-- The world in which no request may follow one that may change an item, and nothing at all its confirmation. -/
abbrev closing : World Event Event.Answer Change := World.monitor Change.Allows Change.observe

theorem closing_seals : closing.Seals (· ≠ .pending) isWrite isRequest where
  forbids change e hclosed hallowed := by
    cases change with
    | pending => exact absurd rfl hclosed
    | asked => exact hallowed
    | confirmed => exact hallowed.elim
  answers change e r := ⟨_, rfl, fun h => Change.observe_ne_pending h⟩

/-- A call whose change has been confirmed returns 0. -/
def Confirms (rc : Int) (_ : Process OneDriveConnect) (change : Change) : Prop := change = .confirmed → rc = 0

theorem confirms_pending {rc : Int} {p : Process OneDriveConnect} : Confirms rc p .pending := fun h => by cases h

section
variable {α : Type} {p : Process OneDriveConnect} {path content key value : Bytes}

theorem closing_of_leaves {m : Hive OneDriveConnect α} (h : Within LeavesDrive m)
    {Q : α → Process OneDriveConnect → Change → Prop} (hQ : ∀ a p', Q a p' .pending) :
    Proc.wp closing m Q p .pending := by
  refine Proc.wp_frame (h p) (I := (· = .pending)) ?_ ?_ rfl ?_
  · intro t e ht _
    rw [ht]
    trivial
  · intro t e r u ht he hu
    rw [show u = t.observe ⟨e, r⟩ from hu, Change.observe_of_leaves he, ht]
  · rintro a p' t - rfl
    exact hQ a p'

theorem closing_call {e : Event} (he : isRequest e = false) {Q : e.Answer → Process OneDriveConnect → Change → Prop}
    (hQ : ∀ r, Q r p .pending) : Proc.wp closing (call e) Q p .pending := by
  have hwrite : isWrite e = false := by
    cases e <;> first | rfl | cases he
  rw [Proc.wp_monitor_call]
  refine ⟨trivial, fun r => ?_⟩
  rw [Change.observe_of_leaves hwrite]
  exact hQ r

/-- The last request, whatever is answered. -/
theorem closing_sendAuthorized {url : Url} {req : Url → Request}
    {f : Except Int (StatusCode × ResponseBody) → Hive OneDriveConnect Int}
    (hf : ∀ result p' change,
      (change = .confirmed → result = .ok (confirmedStatus (req url).method, .empty)) →
      Proc.wp closing (f result) Confirms p' change) :
    Proc.wp closing (formatUrl url >>= fun url => sendAuthorized (req url) false >>= f) Confirms p .pending := by
  rw [Proc.wp_bind, wp_formatUrl]
  refine ⟨fun _ => ⟨trivial, fun r t ht => ?_⟩, fun _ => ?_⟩
  · rw [show t = .pending from ht]
    trivial
  simp only [Proc.wp_bind, sendAuthorized, wp_getToken]
  rcases p.conn.token.accessToken with _ | accessToken
  · exact (wp_undefinedBehaviour ..).2 trivial
  dsimp only
  rw [if_neg Bool.false_ne_true, Proc.wp_bind, httpClientRequest, Proc.wp_bind, Proc.wp_monitor_call]
  refine ⟨trivial, fun reply => ?_⟩
  rw [Proc.wp_pure, Proc.wp_bind]
  apply wp_checkReply
  · intro _ _ _
    rw [Proc.wp_pure]
    refine hf _ _ _ fun hconfirmed => ?_
    rw [Change.reply_of_confirmed hconfirmed]
    rfl
  · intro err p' _ hfailed
    rw [Proc.wp_pure]
    refine hf _ _ _ fun hconfirmed => ?_
    rw [Change.reply_of_confirmed hconfirmed] at hfailed
    rcases hfailed with hcode | hinfo | hstatus
    · exact absurd rfl hcode
    · exact absurd rfl hinfo
    · exact absurd hstatus (confirmedStatus_ne_unauthorized _)

theorem closing_uploadFile : Proc.wp closing (Item.uploadFile path content) Confirms p .pending := by
  apply closing_sendAuthorized
  intro result p' change hresult
  rcases result with rc | reply
  · exact fun hconfirmed => by cases hresult hconfirmed
  · dsimp only
    rw [Proc.wp_ite]
    refine ⟨fun hstatus hconfirmed => ?_, fun _ _ => rfl⟩
    obtain rfl := Except.ok.inj (hresult hconfirmed)
    exact absurd rfl hstatus.1

theorem closing_uploadToSession {url : Bytes} :
    Proc.wp closing (Item.uploadToSession url content) Confirms p .pending := by
  rw [Item.uploadToSession, Proc.wp_bind, httpClientRequest, Proc.wp_bind, Proc.wp_monitor_call]
  refine ⟨trivial, fun reply => ?_⟩
  simp only [Proc.wp_ite, Proc.wp_pure]
  refine ⟨fun hcode hconfirmed => ?_, fun _ => ⟨fun hinfo hconfirmed => ?_, fun _ =>
    ⟨fun hstatus hconfirmed => ?_, fun _ _ => rfl⟩⟩⟩
  all_goals obtain rfl := Change.reply_of_confirmed hconfirmed
  · exact absurd rfl hcode
  · exact absurd rfl hinfo
  · exact absurd rfl hstatus.1

theorem closing_putThroughSession : Proc.wp closing (Item.putThroughSession content path) Confirms p .pending := by
  have hfolder := leavesDrive_createFolder (dirname path)
  have hsession := leavesDrive_createUploadSession path maxUrlLen
  rw [Item.putThroughSession, Proc.wp_bind]
  refine closing_of_leaves hfolder fun rc p₁ => ?_
  rw [Proc.wp_ite, Proc.wp_pure, Proc.wp_bind]
  refine ⟨fun _ => confirms_pending, fun _ => closing_of_leaves hsession fun result p₂ => ?_⟩
  rcases result with rc | uploadUrl
  · exact confirms_pending (p := p₂)
  · exact closing_uploadToSession

theorem closing_opened {caller : Caller} {denied : Int → Int} {noClient : Int} {rest : Hive OneDriveConnect Int}
    (hrest : ∀ p, Proc.wp closing rest Confirms p .pending) :
    Proc.wp closing (do
      let rc ← oauthTokenCheckExpire
      if rc < 0 then return denied rc
      else do
        let created ← call (Event.httpClientNew caller)
        if !created then return noClient else rest) Confirms p .pending := by
  rw [Proc.wp_bind]
  refine closing_of_leaves (within_oauthTokenCheckExpire unconcerned_leavesDrive) fun rc p₁ => ?_
  rw [Proc.wp_ite, Proc.wp_pure, Proc.wp_bind]
  refine ⟨fun _ => confirms_pending, fun _ => closing_call rfl fun created => ?_⟩
  rw [Proc.wp_ite, Proc.wp_pure]
  exact ⟨fun _ => confirms_pending, fun _ => hrest p₁⟩

theorem closing_putFileFromBuffer :
    Proc.wp closing (Item.putFileFromBuffer content path) Confirms p .pending := by
  refine closing_opened fun p => ?_
  rw [Proc.wp_ite]
  exact ⟨fun _ => closing_uploadFile, fun _ => closing_putThroughSession⟩

theorem closing_deleteFile : Proc.wp closing (Item.deleteFile path) Confirms p .pending := by
  refine closing_opened fun p => closing_sendAuthorized fun result p' change hresult => ?_
  rcases result with rc | reply
  · exact fun hconfirmed => by cases hresult hconfirmed
  · dsimp only
    rw [Proc.wp_ite]
    refine ⟨fun hstatus hconfirmed => ?_, fun _ _ => rfl⟩
    obtain rfl := Except.ok.inj (hresult hconfirmed)
    exact absurd rfl hstatus

theorem closing_appendValue {size : Int} :
    Proc.wp closing (appendValue path value size) Confirms p .pending := by
  rw [appendValue, Proc.wp_bind]
  refine closing_call rfl fun allocated => ?_
  rw [Proc.wp_ite, Proc.wp_pure, Proc.wp_ite]
  refine ⟨fun _ => confirms_pending, fun _ => ⟨fun _ => ?_, fun _ => closing_putFileFromBuffer⟩⟩
  rw [Proc.wp_bind]
  refine closing_of_leaves (leavesDrive_getFileToBuffer _ _ _) fun fetched p₁ => ?_
  simp only [Proc.wp_ite, Proc.wp_pure]
  exact ⟨fun _ => confirms_pending, fun _ => ⟨fun _ => confirms_pending, fun _ => closing_putFileFromBuffer⟩⟩

theorem closing_putValue : Proc.wp closing (putValue key value) Confirms p .pending := by
  rw [putValue, Proc.wp_bind]
  refine closing_of_leaves (leavesDrive_getFileLength _) fun exit p₁ => ?_
  dsimp only
  rw [Proc.wp_ite, Proc.wp_ite, Proc.wp_pure]
  exact ⟨fun _ => closing_appendValue, fun _ => ⟨fun _ => confirms_pending, fun _ => closing_appendValue⟩⟩

theorem closing_setValue : Proc.wp closing (setValue key value) Confirms p .pending := by
  rw [setValue, Proc.wp_bind]
  refine closing_call rfl fun allocated => ?_
  rw [Proc.wp_ite, Proc.wp_pure]
  exact ⟨fun _ => confirms_pending, fun _ => closing_putFileFromBuffer⟩

theorem closing_deleteKey : Proc.wp closing (deleteKey key) Confirms p .pending := by
  rw [deleteKey, Proc.wp_bind]
  refine Proc.wp_mono (fun rc p' change hrc => ?_) closing_deleteFile
  rw [Proc.wp_ite]
  exact ⟨fun _ => hrc, fun _ _ => rfl⟩

theorem closing_dispatch {f : Hive OneDriveConnect Int} (h : Proc.wp closing f Confirms p .pending) :
    Proc.wp closing (dispatch (some f)) Confirms p .pending := by
  refine wp_dispatch (Proc.wp_mono (fun rc p' change hrc => ?_) h)
  split
  case isTrue hneg =>
    intro hconfirmed
    rw [hrc hconfirmed] at hneg
    cases hneg
  · exact fun _ => rfl

/-- After a request that may change an item a call makes no other, and if it is confirmed the call returns 0. -/
theorem closing_operation (op : KeyOp) : Proc.wp closing op.call Confirms p .pending := by
  have hfail : ∀ err, Proc.wp closing (failWith err) Confirms p .pending :=
    fun _ => confirms_pending (p := p)
  cases op with
  | put key value =>
      rw [KeyOp.call]
      unfold hivePutValue
      rcases nonEmpty (some key) with _ | k
      · exact hfail _
      rcases checkedValue (some value) value.length with _ | v
      · exact hfail _
      exact closing_dispatch closing_putValue
  | set key value =>
      rw [KeyOp.call]
      unfold hiveSetValue
      rcases nonEmpty (some key) with _ | k
      · exact hfail _
      rcases checkedValue (some value) value.length with _ | v
      · exact hfail _
      exact closing_dispatch closing_setValue
  | delete key =>
      rw [KeyOp.call]
      unfold hiveDeleteKey
      rcases nonEmpty (some key) with _ | k
      · exact hfail _
      exact closing_dispatch closing_deleteKey

theorem writes_last {op : KeyOp} {p : Process OneDriveConnect} {tr : Trace} {q : Prog Event Event.Answer (Int × Process OneDriveConnect)}
    (hsteps : Steps (op.call p) tr q) :
    tr.Pairwise fun x y => isWrite x.1 = true → isRequest y.1 = false :=
  (Prog.pairwise_of_sealing closing_seals (closing_operation op) hsteps).2

end

/-! ### Writers that do not look -/

/-- The calls whose answers do not depend on an item. -/
def Blind (e : Event) : Prop := isLook e = false

theorem unconcerned_blind : Unconcerned Blind := by
  refine ⟨fun e he => ?_, fun req hreq => ?_⟩
  · cases e with
    | perform req => exact he.elim
    | _ => rfl
  · obtain ⟨url, body, rfl⟩ := hreq
    rfl

theorem reaches_blind {path suffix : Bytes} (hsuffix : suffix ≠ []) : Reaches Blind (.item path suffix) :=
  ⟨fun _ => rfl, fun _ _ hurl => isLook_of_item hsuffix hurl⟩

/-- A value is small enough to be uploaded in one request. -/
theorem blind_setValue {key value : Bytes} (hvalue : value.length ≤ hiveMaxValueLen) :
    Within Blind (setValue key value) := by
  have hsmall : (htonl value.length ++ value).length ≤ smallUpload := by
    rw [List.length_append, htonl, smallUpload]
    rw [hiveMaxValueLen] at hvalue
    simp only [List.length_cons, List.length_nil]
    omega
  refine .bind (.call rfl) fun allocated => .ite (fun _ => .pure _) fun _ => ?_
  refine Item.within_opened unconcerned_blind (fun _ => .pure _) (.pure _) ?_
  rw [if_pos hsmall]
  exact Item.within_uploadFile unconcerned_blind (reaches_blind (by decide))

theorem blind_deleteKey {key : Bytes} : Within Blind (deleteKey key) :=
  .bind (Item.within_deleteFile unconcerned_blind (reaches_blind (by decide))) fun _ =>
    .ite (fun _ => .pure _) fun _ => .pure _

theorem blind_dispatch {f : Hive OneDriveConnect Int} (h : Within Blind f) : Within Blind (dispatch (some f)) :=
  .bind h fun _ => .ite (fun _ => fun _ => trivial) fun _ => .pure _

theorem blind_operation {op : KeyOp} (hput : ∀ key value, op ≠ .put key value) : Within Blind op.call := by
  have hfail : Within Blind (failWith invalidArgs : Hive OneDriveConnect Int) := fun _ => trivial
  cases op with
  | put key value => exact absurd rfl (hput key value)
  | set key value =>
      rw [KeyOp.call]
      unfold hiveSetValue
      rcases nonEmpty (some key) with _ | k
      · exact hfail
      rcases hvalue : checkedValue (some value) value.length with _ | v
      · exact hfail
      obtain ⟨rfl, hstorable⟩ := storable_of_checkedValue hvalue
      exact blind_dispatch (blind_setValue hstorable.2)
  | delete key =>
      rw [KeyOp.call]
      unfold hiveDeleteKey
      rcases nonEmpty (some key) with _ | k
      · exact hfail
      exact blind_dispatch blind_deleteKey

theorem looks_at_nothing {op : KeyOp} (hput : ∀ key value, op ≠ .put key value) {p : Process OneDriveConnect}
    {tr : Trace} {result : Int × Process OneDriveConnect} (hrun : Run (op.call p) tr result) :
    ∀ entry ∈ tr, isLook entry.1 = false :=
  Prog.guard_calls (blind_operation hput p) hrun

/-! ### What a call makes of the item -/

namespace KeyOp

/-- The item of the key after the operation. -/
def replace (item : Option Bytes) : KeyOp → Option Bytes
  | put _ value => some (item.getD [] ++ record value)
  | set _ value => some (record value)
  | delete _ => none

/-- The items after the operation. -/
def onItems (op : KeyOp) (items : Bytes → Option Bytes) : Bytes → Option Bytes :=
  Function.update items (keyPath op.key) (op.replace (items (keyPath op.key)))

/-- The public functions take the value. -/
def Takes : KeyOp → Prop
  | put _ value | set _ value => Storable value
  | delete _ => True

end KeyOp

/-- A call that returns 0, and does not begin with a refused refresh, has done what it is for. -/
theorem items_of_run {env : Env} {op : KeyOp} {p p' : Process OneDriveConnect} {s t : Served} {tr : Trace}
    (hsmall : s.drive.Small) (hrun : Run (op.call p) tr (0, p')) (haccepts : env.adverse.world.Accepts s tr t)
    (hrefused : ¬ Refused (exchanges tr)) :
    t.drive.items = op.onItems s.drive.items ∧ op.Takes := by
  have hspec : Proc.wp env.adverse.world op.call (fun rc _ t => rc = 0 → ∀ exchanged,
      t.history = s.history ++ exchanged → ¬ Refused exchanged →
      t.drive.items = op.onItems s.drive.items ∧ op.Takes) p s := by
    have hincident : ¬ env.adverse.reliable := fun h => h
    have hfailed : ¬ (-1 : Int) = 0 := by decide
    cases op with
    | put key value =>
        apply wp_hivePutValue hincident hsmall
        · intro k v content p' t xs hk hv _ hstored hcontent _ exchanged hhistory hnot
          obtain rfl : key = k := Option.some.inj hk
          obtain ⟨rfl, hstorable⟩ := storable_of_checkedValue hv
          obtain rfl : exchanged = xs := List.append_cancel_left (hhistory.symm.trans hstored.history)
          rcases hcontent with ⟨-, rfl⟩ | ⟨-, hrefused, -⟩
          · exact ⟨hstored.items, hstorable⟩
          · exact absurd hrefused hnot
        · exact fun _ _ h => absurd h hfailed
    | set key value =>
        apply wp_hiveSetValue hincident
        · intro k v p' t xs hk hv _ hstored _ exchanged _ _
          obtain rfl : key = k := Option.some.inj hk
          obtain ⟨rfl, hstorable⟩ := storable_of_checkedValue hv
          exact ⟨hstored.items, hstorable⟩
        · exact fun _ _ h => absurd h hfailed
    | delete key =>
        apply wp_hiveDeleteKey hincident
        · intro k p' t xs hk _ hremoved _ exchanged _ _
          obtain rfl : key = k := Option.some.inj hk
          exact ⟨hremoved.items, trivial⟩
        · intro k p' t xs _ _ hquiet hrefused _ exchanged hhistory hnot
          obtain rfl : exchanged = xs := List.append_cancel_left (hhistory.symm.trans hquiet.history)
          exact absurd hrefused hnot
        · exact fun _ _ h => absurd h hfailed
  exact Prog.wp_run hspec hrun haccepts rfl _ (Env.recorded haccepts).1 hrefused

end HiveSdk
