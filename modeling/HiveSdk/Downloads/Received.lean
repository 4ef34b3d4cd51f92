import HiveSdk.Drive.Requests
import HiveSdk.Errors.Lengths

/-!
# What a download writes and returns

A download goes through two servers: the drive announces a size, and the download URL sends the bytes. Nothing in the source compares the two, so both promises one would like to make of `__get_file_to_buffer` depend on the download URL: it stays inside the caller's buffer exactly when no more is sent than the buffer has room for, and what it returns is what it has received exactly when as much is sent as has been announced.
-/

namespace HiveSdk

open Interaction OneDrive Filling

/-- What a run has seen of a download: the sizes that were announced, the newest first, the answer of the download URL, and the contents that were sent afterwards. -/
structure Download where
  asked : Bool := false
  announced : List Int := []
  received : Option Reply := none
  uploaded : List Bytes := []

def Download.observe (d : Download) (entry : Entry Event Event.Answer) : Download :=
  match entry with
  | ⟨.perform req, reply⟩ =>
      match req.url with
      | .item _ [] => { d with asked := true }
      | .download _ => { d with received := some reply }
      | _ => if req.method = .put then { d with uploaded := req.body :: d.uploaded } else d
  | ⟨.cjsonParse _, json⟩ =>
      if d.asked then
        { d with
          asked := false
          announced := (json.bind fun json => json.sizeItem (bytes "size")).toList ++ d.announced }
      else d
  | _ => d

/-- What the run with this trace has seen. -/
def Download.of (tr : Trace) : Download := tr.foldl Download.observe {}

/-- Once the download URL has answered, the only call that may be made is the write behind the end of a buffer of `size` bytes. -/
def Download.world (size : Nat) : World Event Event.Answer Download where
  pre d e := ∀ reply ∈ d.received, size < reply.body.length ∧ e = .undefined
  step d e r d' := d' = d.observe ⟨e, r⟩

section
variable {p : Process OneDriveConnect} {d : Download} {size : Nat}

theorem Download.observe_tokenCall {e : Event} (r : e.Answer) (hasked : d.asked = false)
    (h : TokenCall e) : d.observe ⟨e, r⟩ = d := by
  cases e with
  | perform req =>
      obtain ⟨url, body, rfl⟩ : TokenRequest req := h
      rfl
  | cjsonParse text =>
      show (if d.asked then _ else d) = d
      rw [hasked]
      rfl
  | _ => rfl

theorem downloading_checkExpire {Q : Int → Process OneDriveConnect → Download → Prop}
    (hnone : d.received = none) (hasked : d.asked = false) (hok : ∀ p', Q 0 p' d)
    (hfail : ∀ rc p', IntError rc → Q rc p' d) :
    Proc.wp (Download.world size) oauthTokenCheckExpire Q p d := by
  have hpre : ∀ t e, t = d → TokenCall e → (Download.world size).pre t e := by
    rintro t e rfl - reply hreply
    rw [hnone] at hreply
    exact (nomatch hreply)
  have hstep : ∀ t e r u, t = d → TokenCall e → (Download.world size).step t e r u → u = d := by
    rintro t e r u rfl he hstep
    exact hstep.trans (Download.observe_tokenCall r hasked he)
  refine Proc.wp_frame guard_oauthTokenCheckExpire hpre hstep rfl fun rc p' t h ht => ?_
  rw [ht]
  by_cases hneg : rc < 0
  · exact hfail rc p' (h.failed hneg).1
  · rw [(h.succeeded hneg).1]
    exact hok p'

theorem downloading_getFileInfo {path : Bytes} {query : Item.InfoQuery}
    {Q : Except Int Item.FileInfo → Process OneDriveConnect → Download → Prop}
    (hnone : d.received = none)
    (hok : ∀ info : Item.FileInfo, 0 ≤ info.size → info.size < 2 ^ 63 →
      Q (.ok info) p { d with asked := false, announced := info.size :: d.announced })
    (hfail : ∀ rc p' (d' : Download), IntError rc → d'.received = none →
      d'.uploaded = d.uploaded → Q (.error rc) p' d') :
    Proc.wp (Download.world size) (Item.getFileInfo path query) Q p d := by
  have hgeneral : ∀ {code : Nat}, code < 2 ^ 24 → IntError (cInt (hiveGeneralError code)) :=
    fun hcode => intError_hiveMkError .general hcode
  have hfree : ∀ (d' : Download) e, d'.received = none → (Download.world size).pre d' e := by
    intro d' e hd' reply hreply
    rw [hd'] at hreply
    exact (nomatch hreply)
  simp only [Item.getFileInfo, Proc.wp_bind, wp_formatUrl]
  refine ⟨fun _ => ⟨hfree _ _ hnone, fun _ t hnext => hfree _ _ (hnext ▸ hnone)⟩, fun _ => ?_⟩
  apply wp_sendAuthorized_any
  · intro headers reply t hstep n
    obtain rfl : t = { d with asked := true } := hstep
    exact hfree _ _ hnone
  · intro t n ok u hstep
    exact hstep
  · exact hfree _ _ hnone
  · intro accessToken
    exact hfree _ _ hnone
  · intro headers reply t hstep status response
    obtain rfl : t = { d with asked := true } := hstep
    simp only [Proc.wp_ite, Proc.wp_pure, Proc.wp_bind]
    refine ⟨fun _ => hfail _ p _ (intError_hiveHttpStatusError _) hnone rfl, fun _ => ?_⟩
    rw [httpClientMoveResponseBody]
    by_cases hused : response.used = 0
    · rw [if_pos hused]
      exact (wp_undefinedBehaviour ..).2 (hfree _ _ hnone)
    rw [if_neg hused, Proc.wp_pure]
    dsimp only
    rw [Proc.wp_bind, cjsonParse, Proc.wp_bind, Proc.wp_call]
    refine ⟨hfree _ _ hnone, fun rest t hstep => ?_⟩
    obtain rfl : t = { d with asked := true } := hstep
    rw [Proc.wp_ite, Proc.wp_call, wp_undefinedBehaviour]
    refine ⟨fun _ => ⟨hfree _ _ hnone, fun json t hstep => ?_⟩, fun _ => hfree _ _ hnone⟩
    rcases json with _ | json
    · obtain rfl : t = { d with asked := false } := hstep
      exact hfail _ p _ (hgeneral (by decide)) hnone rfl
    obtain rfl : t = { d with
      asked := false
      announced := (json.sizeItem (bytes "size")).toList ++ d.announced } := hstep
    dsimp only
    rcases hread : query.read json with _ | info
    · exact hfail _ p _ (hgeneral (by decide)) hnone rfl
    · have hsize := Item.InfoQuery.sizeItem_of_read hread
      obtain ⟨hlow, hhigh⟩ := Json.sizeItem_nonneg hsize
      rw [hsize]
      exact hok info hlow hhigh
  · intro headers reply t hstep rc p' hrc
    obtain rfl : t = { d with asked := true } := hstep
    exact hfail rc p' _ hrc hnone rfl

/-- What `__get_file_to_buffer` leaves. A download, if there was one, is at the front of the block, and a length that is returned is the one that was announced. -/
structure Received (d : Download) (block : Bytes) (exit : Exit) (block' : Bytes) (d' : Download) :
    Prop where
  uploaded : d'.uploaded = d.uploaded
  unwritten : d'.received = none → block' = block
  asked : d'.received.isSome → d'.asked = false
  announced : d'.received.isSome → ∃ size, 0 < size ∧ d'.announced = size :: d.announced
  written : ∀ reply ∈ d'.received, reply.body.length ≤ block.length
    ∧ block' = filled block reply.body
  length : ∀ reply ∈ d'.received, ∀ n, exit = .length n ↔
    reply.answered = some HttpStatus.ok ∧ d'.announced = n :: d.announced

private theorem received_none {d d' : Download} {block : Bytes} {exit : Exit}
    (huploaded : d'.uploaded = d.uploaded) (hnone : d'.received = none) :
    Received d block exit block d' where
  uploaded := huploaded
  unwritten _ := rfl
  asked h := by
    rw [hnone] at h
    cases h
  announced h := by
    rw [hnone] at h
    cases h
  written reply hreply := by
    rw [hnone] at hreply
    cases hreply
  length reply hreply := by
    rw [hnone] at hreply
    cases hreply

private theorem downloading_downloadFile {url block : Bytes}
    {Q : Int × Bytes → Process OneDriveConnect → Download → Prop} (hnone : d.received = none)
    (h : ∀ rc reply, reply.body.length ≤ block.length →
      (rc = 0 ∧ reply.answered = some HttpStatus.ok ∨
        IntError rc ∧ reply.answered ≠ some HttpStatus.ok) →
      Q (rc, filled block reply.body) p { d with received := some reply }) :
    Proc.wp (Download.world block.length) (Item.downloadFile url block) Q p d := by
  rw [Item.downloadFile, Proc.wp_bind, httpClientRequest, Proc.wp_bind, Proc.wp_call]
  constructor
  · intro reply hreply
    rw [hnone] at hreply
    cases hreply
  intro reply t hstep
  obtain rfl : t = { d with received := some reply } := hstep
  rw [Proc.wp_pure]
  dsimp only
  rw [storeChunks_body]
  by_cases hfits : reply.body.length ≤ block.length
  · rw [if_pos hfits]
    simp only [Proc.wp_ite, Proc.wp_pure]
    refine ⟨fun hne => h _ reply hfits (.inr ⟨intError_hiveMkError .curl (by omega), ?_⟩),
      fun hcode => ⟨fun hne => h _ reply hfits (.inr ⟨intError_hiveMkError .curl (by omega), ?_⟩),
        fun hinfo => ?_⟩⟩
    · rw [Reply.answered, if_neg (fun h => hne h.1)]
      simp
    · rw [Reply.answered, if_neg (fun h => hne h.2)]
      simp
    have hanswered : reply.answered = some reply.status :=
      if_pos ⟨not_not.1 hcode, not_not.1 hinfo⟩
    refine ⟨fun hne => h _ reply hfits (.inr ⟨intError_hiveHttpStatusError _, ?_⟩),
      fun hok => h 0 reply hfits (.inl ⟨rfl, ?_⟩)⟩
    · rw [hanswered]
      exact fun h => hne (Option.some.inj h)
    · rw [hanswered, not_not.1 hok]
  · rw [if_neg hfits, wp_undefinedBehaviour]
    intro reply' hreply'
    obtain rfl : reply = reply' := Option.some.inj hreply'
    exact ⟨by omega, rfl⟩

theorem downloading_getFileToBuffer {path block : Bytes} {buflen : Nat}
    (hnone : d.received = none) (hasked : d.asked = false) :
    Proc.wp (Download.world block.length) (Item.getFileToBuffer path block buflen)
      (fun x _ d' => Received d block x.1 x.2 d') p d := by
  have hfree : ∀ (d' : Download) e, d'.received = none →
      (Download.world block.length).pre d' e := by
    intro d' e hd' reply hreply
    rw [hd'] at hreply
    cases hreply
  rw [Item.getFileToBuffer, Proc.wp_bind]
  apply downloading_checkExpire hnone hasked
  · intro p₁
    rw [if_neg (by decide), Proc.wp_bind, Proc.wp_call]
    refine ⟨hfree _ _ hnone, fun created t hstep => ?_⟩
    obtain rfl : t = d := hstep
    rcases created with _ | _
    · rw [if_pos (by decide), Proc.wp_pure]
      exact received_none rfl hnone
    rw [if_neg (by decide), Proc.wp_bind]
    apply downloading_getFileInfo hnone
    · intro info hlow _
      simp only [Proc.wp_ite, Proc.wp_pure, Proc.wp_bind]
      refine ⟨fun _ => received_none rfl hnone, fun _ => ⟨fun _ => received_none rfl hnone,
        fun hsize => ?_⟩⟩
      apply downloading_downloadFile
      · exact hnone
      intro rc reply hfits hrc
      rw [Proc.wp_ite, Proc.wp_pure, Proc.wp_pure]
      have hreceived : ∀ exit : Exit, (∀ n, exit = .length n ↔
            reply.answered = some HttpStatus.ok ∧ info.size :: t.announced = n :: t.announced) →
          Received t block exit (filled block reply.body)
            { t with asked := false, announced := info.size :: t.announced, received := some reply } := by
        intro exit hlength
        refine ⟨rfl, by simp, fun _ => rfl, fun _ => ⟨info.size, by omega, rfl⟩, ?_, ?_⟩
        · intro reply' hreply'
          obtain rfl : reply = reply' := Option.some.inj hreply'
          exact ⟨hfits, rfl⟩
        · intro reply' hreply'
          obtain rfl : reply = reply' := Option.some.inj hreply'
          exact hlength
      refine ⟨fun hneg => hreceived _ fun n => ?_, fun hnneg => hreceived _ fun n => ?_⟩
      · refine iff_of_false (by simp) fun h => ?_
        rcases hrc with ⟨rfl, -⟩ | ⟨-, hne⟩
        · cases hneg
        · exact hne h.1
      · rcases hrc with ⟨-, hok⟩ | ⟨hrc, -⟩
        · simp [hok]
        · exact absurd hrc.neg hnneg
    · intro rc p' d' _ hnone' huploaded
      exact received_none huploaded hnone'
  · intro rc p' hrc
    rw [if_pos hrc.neg, Proc.wp_pure]
    exact received_none rfl hnone

end

theorem Download.accepts (size : Nat) (tr : Trace) :
    (Download.world size).Accepts {} tr (Download.of tr) :=
  World.monitor_accepts (Download.world size).pre Download.observe {} tr

/-! ### Inside the buffer -/

/-- The run is about to store a piece behind the end of the buffer: the download URL has answered, and what comes next is undefined. -/
def Overruns {α : Type} (tr : Trace) (q : Prog Event Event.Answer α) : Prop :=
  (Download.of tr).received.isSome ∧ ∃ k, q = .ask .undefined k

section
variable {path block block' : Bytes} {p p' : Process OneDriveConnect} {tr : Trace}

/-- A download stays inside a buffer of `block.length` bytes exactly when no more than that is sent. -/
theorem download_inside_iff {q : Prog Event Event.Answer ((Exit × Bytes) × Process OneDriveConnect)}
    (h : Steps (Item.getFileToBuffer path block block.length p) tr q) :
    ¬ Overruns tr q ↔ ∀ reply ∈ (Download.of tr).received, reply.body.length ≤ block.length := by
  have hspec : (Item.getFileToBuffer path block block.length p).wp (Download.world block.length)
      (fun x d' => Received {} block x.1.1 x.1.2 d') {} := downloading_getFileToBuffer rfl rfl
  have haccepts := Download.accepts block.length tr
  cases q with
  | ret x =>
      have hreceived := Prog.wp_run hspec h haccepts
      refine iff_of_true ?_ fun reply hreply => (hreceived.written reply hreply).1
      rintro ⟨-, k, hq⟩
      cases hq
  | ask e k =>
      have hpre := Prog.wp_steps hspec h haccepts
      constructor
      · intro hinside reply hreply
        obtain ⟨-, rfl⟩ := hpre reply hreply
        exact absurd ⟨Option.isSome_iff_exists.2 ⟨reply, hreply⟩, k, rfl⟩ hinside
      · rintro hfits ⟨hsome, -⟩
        obtain ⟨reply, hreply⟩ := Option.isSome_iff_exists.1 hsome
        have hlong := (hpre reply hreply).1
        have hshort := hfits reply hreply
        omega

def downloadRequest : Request where
  method := .get
  url := .download (bytes "https://dl.example/k")

/-- A download of a file of five bytes, up to the answer of the download URL. -/
def downloading (reply : Reply) : Trace :=
  [⟨.gettimeofday, demoTime⟩, ⟨.httpClientNew .getFileToBuffer, true⟩,
    ⟨.perform (fileInfo .sizeAndDownloadUrl), demoReply 200 infoText⟩] ++ receiving ++
    [⟨.perform downloadRequest, reply⟩]

def wholeReply : Reply := demoReply 200 (bytes "hello")

def errorPage : Reply := demoReply 404 (bytes "not found")

def zeroes : Bytes := [0, 0, 0, 0, 0]

unseal growSize in
set_option maxRecDepth 10000 in
theorem wholeReply_run :
    Run (Item.getFileToBuffer (OneDrive.filePath demoFile) zeroes 5 demoProcess)
      (downloading wholeReply) ((.length 5, bytes "hello"), demoProcess) := by
  iterate 7 refine .ask _ _ _ ?_
  exact .refl _

/-- An honest download stays inside. -/
theorem download_inside_whole : (Download.of (downloading wholeReply)).received = some wholeReply
    ∧ wholeReply.body.length ≤ zeroes.length := by
  have hreceived : (Download.of (downloading wholeReply)).received = some wholeReply := rfl
  refine ⟨hreceived, (download_inside_iff wholeReply_run).1 ?_ wholeReply hreceived⟩
  rintro ⟨-, k, hq⟩
  cases hq

unseal growSize in
set_option maxRecDepth 10000 in
/-- The error page of a link that has expired is longer than the buffer. -/
theorem errorPage_overruns : ∃ q,
    Steps (Item.getFileToBuffer (OneDrive.filePath demoFile) zeroes zeroes.length demoProcess)
      (downloading errorPage) q ∧ Overruns (downloading errorPage) q := by
  have h : ∃ k, Steps (Item.getFileToBuffer (OneDrive.filePath demoFile) zeroes zeroes.length
      demoProcess) (downloading errorPage) (.ask .undefined k) := by
    refine ⟨?k, ?steps⟩
    case steps =>
      iterate 7 refine .ask _ _ _ ?_
      exact .refl _
  obtain ⟨k, h⟩ := h
  exact ⟨_, h, rfl, k, rfl⟩

end

end HiveSdk
