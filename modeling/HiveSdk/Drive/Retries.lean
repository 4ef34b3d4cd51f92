import HiveSdk.Drive.Keys
import HiveSdk.Errors.LookUps

/-!
# Calls that may be tried again

A 401 makes an operation fail with a code that asks the caller to try again. The code is honest: in none of the operations does a request that may have changed an item come before the one that was answered 401. So a caller may repeat the call as often as it likes, and what a put appends in the end is what a single put would have appended.
-/

namespace HiveSdk

open Interaction OneDrive

variable {env : Env} {p : Process OneDriveConnect} {s : Served}

/-! ### What a run may have changed -/

def HttpMethod.writes : HttpMethod → Bool
  | .put | .delete => true
  | .get | .post => false

/-- Whether a request has been sent that writes and was not turned away. -/
def touches (touched : Bool) (entry : Entry Event Event.Answer) : Bool :=
  match entry with
  | ⟨.perform req, reply⟩ =>
      touched || (req.method.writes && reply.answered ≠ some HttpStatus.unauthorized)
  | _ => touched

abbrev touching : World Event Event.Answer Bool := World.observer touches

def tryAgain : Int := cInt (hiveGeneralError HiveErr.tryAgain)

theorem ne_tryAgain (facility : Facility) {code : Nat} (hcode : code < 2 ^ 24)
    (hne : ¬ (facility = .general ∧ code = HiveErr.tryAgain)) :
    cInt (hiveMkError facility code) ≠ tryAgain :=
  fun h => hne (cInt_hiveMkError_injective hcode (by decide) h)

/-- The postcondition of all that follows. -/
def Unapplied (rc : Int) (touched : Bool) : Prop := rc = tryAgain → touched = false

theorem unapplied_of_ne {rc : Int} {touched : Bool} (h : rc ≠ tryAgain) : Unapplied rc touched :=
  fun hrc => absurd hrc h

theorem unapplied_curl (rc : CurlCode) (touched : Bool) :
    Unapplied (cInt (hiveCurlError rc)) touched :=
  unapplied_of_ne (ne_tryAgain .curl (by omega) nofun)

theorem unapplied_status (status : StatusCode) (touched : Bool) :
    Unapplied (cInt (hiveHttpStatusError status)) touched :=
  unapplied_of_ne (ne_tryAgain .httpStatus (by omega) nofun)

theorem unapplied_zero (touched : Bool) : Unapplied 0 touched := unapplied_of_ne (by decide)

theorem unapplied_untouched (rc : Int) : Unapplied rc false := fun _ => rfl

/-! ### The requests -/

/-- Calls that change no item. -/
def Harmless : Event → Prop
  | .perform req => req.method.writes = false
  | _ => True

theorem LookUpCall.harmless {e : Event} (h : LookUpCall e) : Harmless e := by
  cases e with
  | perform req =>
      rcases h with htoken | hread | h | h
      · obtain ⟨url, body, rfl⟩ : TokenRequest req := htoken
        rfl
      · have hget : req.method = .get := hread
        rw [Harmless, hget]
        rfl
      · cases h
      · cases h
  | _ => trivial

theorem touches_harmless (touched : Bool) {e : Event} (r : e.Answer) (h : Harmless e) :
    touches touched ⟨e, r⟩ = touched := by
  cases e with
  | perform req =>
      have hmethod : req.method.writes = false := h
      simp [touches, hmethod]
  | _ => rfl

theorem touching_harmless {α : Type} {m : Hive OneDriveConnect α} {φ : Event → Prop}
    {P : α → Process OneDriveConnect → Prop} {Q : α → Process OneDriveConnect → Bool → Prop}
    {touched : Bool} (hguard : Proc.wp (World.guard φ) m (fun a p' _ => P a p') p ())
    (hφ : ∀ e, φ e → Harmless e) (h : ∀ a p', P a p' → Q a p' touched) :
    Proc.wp touching m Q p touched :=
  Proc.wp_unobserved hguard (fun e r he => touches_harmless touched r (hφ e he)) h

/-- A request with the token. If it fails with the code in question, nothing has changed. -/
theorem touching_sendAuthorized {req : Request} {enable : Bool}
    {Q : Except Int (StatusCode × ResponseBody) → Process OneDriveConnect → Bool → Prop}
    (henable : enable = true → req.method.writes = false)
    (hok : ∀ status response touched, (req.method.writes = false → touched = false) →
      Q (.ok (status, response)) p touched)
    (hfail : ∀ rc (p' : Process OneDriveConnect) touched,
      (req.method.writes = false → touched = false) → Unapplied rc touched → Q (.error rc) p' touched) :
    Proc.wp touching (sendAuthorized req enable) Q p false := by
  simp only [sendAuthorized, Proc.wp_bind, wp_getToken]
  rcases p.conn.token.accessToken with _ | accessToken
  · exact (wp_undefinedBehaviour ..).2 trivial
  dsimp only
  have hquiet : ∀ reply : Reply, req.method.writes = false →
      touches false ⟨.perform { req with headers := req.headers ++ [(authorization, accessToken)] }, reply⟩
        = false := by
    intro reply hmethod
    simp [touches, hmethod]
  rcases enable with _ | _
  · rw [if_neg Bool.false_ne_true, Proc.wp_bind, httpClientRequest, Proc.wp_bind,
      Proc.wp_observer_call]
    intro reply
    rw [Proc.wp_pure, Proc.wp_bind]
    simp only [checkReply, Proc.wp_ite, Proc.wp_bind, Proc.wp_pure]
    refine ⟨fun _ => hfail _ p _ (hquiet reply) (unapplied_curl _ _), fun hcode => ?_⟩
    refine ⟨fun _ => hfail _ p _ (hquiet reply) (unapplied_curl _ _), fun hinfo => ?_⟩
    refine ⟨fun h401 => ?_, fun _ => hok _ _ _ (hquiet reply)⟩
    have hanswered : reply.answered = some HttpStatus.unauthorized := by
      rw [← h401]
      exact if_pos ⟨not_not.1 hcode, not_not.1 hinfo⟩
    simp only [oauthTokenSetExpired, Proc.wp_bind, wp_getToken, wp_setToken]
    apply hfail _ _ _ (hquiet reply)
    intro _
    simp [touches, hanswered]
  · have hmethod := henable rfl
    rw [if_pos rfl, Proc.wp_bind]
    apply wp_httpClientRequestBody_any
    · exact fun _ _ _ _ => trivial
    · exact fun _ _ _ _ hstep => hstep
    · trivial
    · intro reply touched hstep rc response
      have htouched : touched = false := hstep.trans (hquiet reply hmethod)
      subst htouched
      dsimp only
      rw [Proc.wp_bind]
      apply wp_checkReply
      · exact fun _ _ _ => hok _ _ _ fun _ => rfl
      · exact fun err p' _ _ => hfail err p' _ (fun _ => rfl) (unapplied_untouched err)

/-! ### Look-ups -/

private theorem touching_checkExpire {Q : Int → Process OneDriveConnect → Bool → Prop}
    (h : ∀ rc p', Q rc p' false) : Proc.wp touching oauthTokenCheckExpire Q p false :=
  touching_harmless guard_oauthTokenCheckExpire (fun _ he => LookUpCall.harmless (.inl he))
    fun rc p' _ => h rc p'

private theorem touching_getFileLength {path : Bytes}
    {Q : Exit → Process OneDriveConnect → Bool → Prop} (h : ∀ exit p', Q exit p' false) :
    Proc.wp touching (Item.getFileLength path) Q p false :=
  touching_harmless (P := fun _ _ => True) (Item.guard_getFileLength fun _ _ => trivial)
    (fun _ he => he.harmless) fun exit p' _ => h exit p'

private theorem touching_getFileToBuffer {path block : Bytes} {buflen : Nat}
    {Q : Exit × Bytes → Process OneDriveConnect → Bool → Prop} (h : ∀ result p', Q result p' false) :
    Proc.wp touching (Item.getFileToBuffer path block buflen) Q p false :=
  touching_harmless (P := fun _ _ => True) (Item.guard_getFileToBuffer fun _ _ => trivial)
    (fun _ he => he.harmless) fun result p' _ => h result p'

/-! ### Uploads -/

private theorem touching_uploadFile {path content : Bytes} :
    Proc.wp touching (Item.uploadFile path content) (fun rc _ => Unapplied rc) p false := by
  simp only [Item.uploadFile, Proc.wp_bind, wp_formatUrl]
  refine ⟨fun _ => ⟨trivial, fun _ _ _ => trivial⟩, fun _ => ?_⟩
  apply touching_sendAuthorized fun h => absurd h Bool.false_ne_true
  · intro status response touched _
    simp only [Proc.wp_ite, Proc.wp_pure]
    exact ⟨fun _ => unapplied_status _ _, fun _ => unapplied_zero _⟩
  · exact fun rc p' touched _ hrc => hrc

private theorem touching_buildBody {name : Bytes}
    {Q : Option Bytes → Process OneDriveConnect → Bool → Prop} (h : ∀ body, Q body p false) :
    Proc.wp touching (Item.buildCreateFolderRequestBody name) Q p false := by
  simp only [Item.buildCreateFolderRequestBody, Proc.wp_bind, Proc.wp_ite, Proc.wp_pure,
    Proc.wp_observer_call]
  exact fun _ => ⟨fun _ => h none, fun _ _ => ⟨fun _ => h none, fun _ _ =>
    ⟨fun _ => h none, fun _ body => h body⟩⟩⟩

private theorem touching_createFolder {path : Bytes}
    {Q : Int → Process OneDriveConnect → Bool → Prop} (h : ∀ rc p', Q rc p' false) :
    Proc.wp touching (Item.createFolder path) Q p false := by
  simp only [Item.createFolder, Proc.wp_bind, wp_formatUrl]
  refine ⟨fun _ => ⟨trivial, fun _ _ _ => trivial⟩, fun _ => ?_⟩
  apply touching_buildBody
  intro body
  rcases body with _ | body
  · exact h _ p
  dsimp only
  rw [Proc.wp_bind]
  apply touching_sendAuthorized fun _ => rfl
  · intro status response touched htouched
    rw [htouched rfl, Proc.wp_ite]
    exact ⟨fun _ => h _ p, fun _ => h _ p⟩
  · intro rc p' touched htouched _
    rw [htouched rfl]
    exact h _ p'

private theorem touching_createUploadSession {path : Bytes} {len : Nat}
    {Q : Except Int Bytes → Process OneDriveConnect → Bool → Prop} (h : ∀ result p', Q result p' false) :
    Proc.wp touching (Item.createUploadSession path len) Q p false := by
  simp only [Item.createUploadSession, Proc.wp_bind, wp_formatUrl]
  refine ⟨fun _ => ⟨trivial, fun _ _ _ => trivial⟩, fun _ => ?_⟩
  apply touching_sendAuthorized fun _ => rfl
  · intro status response touched htouched
    rw [htouched rfl]
    simp only [Proc.wp_ite, Proc.wp_pure, Proc.wp_bind]
    refine ⟨fun _ => h _ p, fun _ => ?_⟩
    apply wp_httpClientMoveResponseBody fun _ => trivial
    intro _
    dsimp only
    rw [Proc.wp_bind]
    apply wp_cjsonParse_any trivial (fun _ _ h => h) trivial (fun _ => trivial) fun _ _ _ h => h
    intro json
    rcases json with _ | json
    · exact h _ p
    dsimp only
    rcases json.stringItem (bytes "uploadUrl") with _ | url
    · exact h _ p
    · dsimp only
      rw [Proc.wp_ite]
      exact ⟨fun _ => h _ p, fun _ => h _ p⟩
  · intro rc p' touched htouched _
    rw [htouched rfl]
    exact h _ p'

/-- The upload to a session has no token to renew, and no reason to ask for another try. -/
private theorem touching_uploadToSession {url content : Bytes} {touched : Bool} :
    Proc.wp touching (Item.uploadToSession url content) (fun rc _ => Unapplied rc) p touched := by
  simp only [Item.uploadToSession, httpClientRequest, Proc.wp_bind, Proc.wp_observer_call]
  intro reply
  simp only [Proc.wp_ite, Proc.wp_pure]
  exact ⟨fun _ => unapplied_curl _ _, fun _ => ⟨fun _ => unapplied_curl _ _, fun _ =>
    ⟨fun _ => unapplied_status _ _, fun _ => unapplied_zero _⟩⟩⟩

theorem touching_putFileFromBuffer {path content : Bytes} :
    Proc.wp touching (Item.putFileFromBuffer content path) (fun rc _ => Unapplied rc) p false := by
  rw [Item.putFileFromBuffer, Proc.wp_bind]
  apply touching_checkExpire
  intro rc p₁
  simp only [Proc.wp_ite, Proc.wp_pure, Proc.wp_bind, Proc.wp_observer_call]
  refine ⟨fun _ => unapplied_untouched _, fun _ created => ?_⟩
  refine ⟨fun _ => unapplied_untouched _, fun _ => ⟨fun _ => touching_uploadFile, fun _ => ?_⟩⟩
  rw [Item.putThroughSession, Proc.wp_bind]
  apply touching_createFolder
  intro rc p₂
  rw [Proc.wp_ite, Proc.wp_bind]
  refine ⟨fun _ => unapplied_untouched _, fun _ => ?_⟩
  apply touching_createUploadSession
  intro result p₃
  rcases result with rc | url
  · exact unapplied_untouched _
  · exact touching_uploadToSession

/-! ### The six operations -/

private theorem touching_deleteFile {path : Bytes} :
    Proc.wp touching (Item.deleteFile path) (fun rc _ => Unapplied rc) p false := by
  rw [Item.deleteFile, Proc.wp_bind]
  apply touching_checkExpire
  intro rc p₁
  simp only [Proc.wp_ite, Proc.wp_pure, Proc.wp_bind, Proc.wp_observer_call, wp_formatUrl]
  refine ⟨fun _ => unapplied_untouched _, fun _ created => ?_⟩
  refine ⟨fun _ => unapplied_untouched _, fun _ => ⟨fun _ => ⟨trivial, fun _ _ _ => trivial⟩, fun _ => ?_⟩⟩
  apply touching_sendAuthorized fun h => absurd h Bool.false_ne_true
  · intro status response touched _
    simp only [Proc.wp_ite, Proc.wp_pure]
    exact ⟨fun _ => unapplied_status _ _, fun _ => unapplied_zero _⟩
  · exact fun rc p' touched _ hrc => hrc

private theorem touching_appendValue {path value : Bytes} {size : Int} :
    Proc.wp touching (appendValue path value size) (fun rc _ => Unapplied rc) p false := by
  simp only [appendValue, Proc.wp_bind, Proc.wp_observer_call, Proc.wp_ite, Proc.wp_pure]
  refine fun allocated => ⟨fun _ => unapplied_untouched _, fun _ => ⟨fun _ => ?_, fun _ =>
    touching_putFileFromBuffer⟩⟩
  apply touching_getFileToBuffer
  intro result p₁
  simp only [Proc.wp_ite, Proc.wp_pure]
  exact ⟨fun _ => unapplied_untouched _, fun _ => ⟨fun _ => unapplied_untouched _, fun _ =>
    touching_putFileFromBuffer⟩⟩

private theorem touching_putValue {key value : Bytes} :
    Proc.wp touching (putValue key value) (fun rc _ => Unapplied rc) p false := by
  rw [putValue, Proc.wp_bind]
  apply touching_getFileLength
  intro exit p₁
  simp only [Proc.wp_ite, Proc.wp_pure]
  exact ⟨fun _ => touching_appendValue, fun _ => ⟨fun _ => unapplied_untouched _, fun _ =>
    touching_appendValue⟩⟩

private theorem touching_setValue {key value : Bytes} :
    Proc.wp touching (setValue key value) (fun rc _ => Unapplied rc) p false := by
  simp only [setValue, Proc.wp_bind, Proc.wp_observer_call, Proc.wp_ite, Proc.wp_pure]
  exact fun allocated => ⟨fun _ => unapplied_untouched _, fun _ => touching_putFileFromBuffer⟩

private theorem touching_deleteKey {key : Bytes} :
    Proc.wp touching (deleteKey key) (fun rc _ => Unapplied rc) p false := by
  rw [deleteKey, Proc.wp_bind]
  refine Proc.wp_mono (fun rc p' touched h => ?_) touching_deleteFile
  rw [Proc.wp_ite, Proc.wp_pure, Proc.wp_pure]
  exact ⟨fun _ => h, fun _ => unapplied_zero _⟩

/-- The operations that change the drive, with all that an application can pass to them. -/
inductive Mutation
  | putFileFromBuffer (source : Option Bytes) (length : Nat) (name : Option Bytes)
  | deleteFile (name : Option Bytes)
  | putValue (key value : Option Bytes) (length : Nat)
  | setValue (key value : Option Bytes) (length : Nat)
  | deleteKey (key : Option Bytes)
  deriving DecidableEq, Repr

def Mutation.call : Mutation → Hive OneDriveConnect Int
  | putFileFromBuffer source length name =>
      hivePutFileFromBuffer (some OneDrive.table) source length name
  | deleteFile name => hiveDeleteFile (some OneDrive.table) name
  | putValue key value length => hivePutValue (some OneDrive.table) key value length
  | setValue key value length => hiveSetValue (some OneDrive.table) key value length
  | deleteKey key => hiveDeleteKey (some OneDrive.table) key

/-- A call that asks for another try has touched nothing. -/
private def Honest (rc : Int) (p' : Process OneDriveConnect) (touched : Bool) : Prop :=
  rc = -1 → p'.hiveError = tryAgain → touched = false

private theorem honest_dispatch {f : Hive OneDriveConnect Int}
    (h : Proc.wp touching f (fun rc _ => Unapplied rc) p false) :
    Proc.wp touching (dispatch (some f)) Honest p false := by
  apply wp_dispatch
  refine Proc.wp_mono (fun rc p' touched hrc => ?_) h
  by_cases hneg : rc < 0
  · rw [if_pos hneg]
    exact fun _ herror => hrc herror
  · rw [if_neg hneg]
    exact fun hzero => absurd hzero (by decide)

private theorem honest_invalidArgs : Proc.wp touching (failWith invalidArgs) Honest p false :=
  fun _ _ => rfl

theorem touching_mutation (op : Mutation) : Proc.wp touching op.call Honest p false := by
  cases op with
  | putFileFromBuffer source length name =>
      rw [Mutation.call]
      unfold hivePutFileFromBuffer
      rcases nonEmpty name with _ | name
      · exact honest_invalidArgs
      dsimp only
      rw [Proc.wp_ite]
      exact ⟨fun _ => honest_invalidArgs, fun _ => honest_dispatch touching_putFileFromBuffer⟩
  | deleteFile name =>
      rw [Mutation.call]
      unfold hiveDeleteFile
      rcases nonEmpty name with _ | name
      · exact honest_invalidArgs
      apply honest_dispatch
      show Proc.wp touching (OneDrive.deleteFile name) _ p false
      rw [OneDrive.deleteFile, Proc.wp_ite]
      exact ⟨fun _ => unapplied_untouched _, fun _ => touching_deleteFile⟩
  | putValue key value length =>
      rw [Mutation.call]
      unfold hivePutValue
      rcases nonEmpty key with _ | key
      · exact honest_invalidArgs
      rcases checkedValue value length with _ | value
      · exact honest_invalidArgs
      exact honest_dispatch touching_putValue
  | setValue key value length =>
      rw [Mutation.call]
      unfold hiveSetValue
      rcases nonEmpty key with _ | key
      · exact honest_invalidArgs
      rcases checkedValue value length with _ | value
      · exact honest_invalidArgs
      exact honest_dispatch touching_setValue
  | deleteKey key =>
      rw [Mutation.call]
      unfold hiveDeleteKey
      rcases nonEmpty key with _ | key
      · exact honest_invalidArgs
      exact honest_dispatch touching_deleteKey

/-! ### A drive on which a refusal has no effect -/

/-- The world of `env`, in which a request that is answered 401 leaves the drive alone. -/
def Env.firm (env : Env) : World Event Event.Answer Served where
  pre := env.world.pre
  step s e r t := env.world.step s e r t ∧ match e, r with
    | .perform _, reply => reply.answered = some HttpStatus.unauthorized → t.drive = s.drive
    | _, _ => True

theorem Env.firm_accepts {t : Served} {tr : Trace} (h : env.firm.Accepts s tr t) :
    env.world.Accepts s tr t := by
  induction h with
  | nil s => exact .nil s
  | cons hstep _ ih => exact .cons hstep.1 ih

theorem Request.isRead_of_method {req : Request} (h : req.method.writes = false) :
    req.access.isRead := by
  rw [Request.access]
  cases hmethod : req.method <;> rw [hmethod] at h <;> cases h
  all_goals
    cases req.url <;> dsimp only
    all_goals first
      | rfl
      | (split <;> rfl)

theorem foldl_touches (tr : Trace) : tr.foldl touches true = true := by
  induction tr with
  | nil => rfl
  | cons entry tr ih =>
      have hentry : touches true entry = true := by
        obtain ⟨e, r⟩ := entry
        cases e <;> rfl
      rw [List.foldl_cons, hentry, ih]

/-- A run that has touched nothing leaves every item as it was. -/
theorem items_of_untouched {t : Served} {tr : Trace} {touched : Bool}
    (haccepts : env.firm.Accepts s tr t) (h : tr.foldl touches touched = false) :
    t.drive.items = s.drive.items := by
  induction haccepts generalizing touched with
  | nil s => rfl
  | @cons s t u e r tr hstep hrest ih =>
      rw [List.foldl_cons] at h
      have hentry : touches touched ⟨e, r⟩ = false := by
        cases hb : touches touched ⟨e, r⟩ with
        | false => rfl
        | true =>
            rw [hb, foldl_touches] at h
            cases h
      rw [ih h]
      obtain ⟨hworld, hfirm⟩ := hstep
      cases e with
      | perform req =>
          by_cases h401 : r.answered = some HttpStatus.unauthorized
          · rw [hfirm h401]
          · have hmethod : req.method.writes = false := by
              simp only [touches, Bool.or_eq_false_iff, Bool.and_eq_false_iff] at hentry
              simpa [h401] using hentry.2
            have hput : req.method ≠ .put := by
              intro hput
              rw [hput] at hmethod
              cases hmethod
            have hexchange : env.Exchanges s req r t := hworld
            exact (hexchange.quiet (Request.isRead_of_method hmethod) hput).items
      | valuesCallback key value => rw [Env.step_valuesCallback.1 hworld]
      | undefined | diverge => exact r.elim
      | _ => rw [((Env.step_local rfl).1 hworld).2]

theorem Mutation.items_of_tryAgain {op : Mutation} {p' : Process OneDriveConnect} {t : Served}
    {tr : Trace} (hrun : Run (op.call p) tr (-1, p')) (hagain : p'.hiveError = tryAgain)
    (haccepts : env.firm.Accepts s tr t) : t.drive.items = s.drive.items := by
  have huntouched := Proc.observed (touching_mutation op) hrun
  exact items_of_untouched haccepts (huntouched rfl hagain)

/-! ### Trying again -/

/-- `n` calls one after another that all ask for another try. -/
inductive Retries (m : Hive OneDriveConnect Int) :
    Nat → Process OneDriveConnect → Trace → Process OneDriveConnect → Prop
  | zero (p : Process OneDriveConnect) : Retries m 0 p [] p
  | succ {n : Nat} {p q r : Process OneDriveConnect} {tr tr' : Trace}
      (hrun : Run (m p) tr (-1, q)) (hagain : q.hiveError = tryAgain)
      (hrest : Retries m n q tr' r) : Retries m (n + 1) p (tr ++ tr') r

theorem Retries.items {op : Mutation} {n : Nat} {q : Process OneDriveConnect} {t : Served}
    {tr : Trace} (h : Retries op.call n p tr q) (haccepts : env.firm.Accepts s tr t) :
    t.drive.items = s.drive.items := by
  induction h generalizing s with
  | zero p => rw [World.accepts_nil_iff.1 haccepts]
  | succ hrun hagain _ ih =>
      obtain ⟨u, hfirst, hrest⟩ := World.accepts_append_iff.1 haccepts
      rw [ih hrest, Mutation.items_of_tryAgain hrun hagain hfirst]

/-- No operation that asks for another try has changed an item. So after any number of such puts a successful one appends its value to what the key held before the first, unless it begins with a refresh that the token endpoint answers with 404, or the key's item is as long as an error code: then it replaces what the key held. -/
theorem try_again_iff (env : Env) {s : Served} :
    (∀ (op : Mutation) p tr p' t, Run (op.call p) tr (-1, p') → p'.hiveError = tryAgain →
      env.adverse.firm.Accepts s tr t → t.drive.items = s.drive.items) ∧
    (∀ n key value length p tr q tr' p' t u,
      Retries (hivePutValue (some OneDrive.table) (some key) (some value) length) n p tr q →
      Run (hivePutValue (some OneDrive.table) (some key) (some value) length q) tr' (0, p') →
      env.adverse.firm.Accepts s tr t → env.adverse.firm.Accepts t tr' u →
      (u.drive.items = Function.update s.drive.items (keyPath key)
          (some (s.drive.content (keyPath key) ++ record (value.take length)))
        ↔ ¬ (s.drive.content (keyPath key) ≠ []
          ∧ (Refused (exchanges tr') ∨ TakenForAbsent (s.drive.content (keyPath key)))))) := by
  constructor
  · intro op p tr p' t hrun hagain haccepts
    exact Mutation.items_of_tryAgain hrun hagain haccepts
  · intro n key value length p tr q tr' p' t u hretries hrun haccepts haccepts'
    have hretries' : Retries (Mutation.putValue (some key) (some value) length).call n p tr q := hretries
    have hitems := hretries'.items haccepts
    have hcontent : t.drive.content (keyPath key) = s.drive.content (keyPath key) := by
      rw [Drive.content, hitems, ← Drive.content]
    rw [← hcontent, ← hitems]
    have hworld := Env.firm_accepts haccepts'
    have hspec : Proc.wp env.adverse.world
        (hivePutValue (some OneDrive.table) (some key) (some value) length)
        (fun rc _ u => rc = 0 → ∀ exchanged, u.history = t.history ++ exchanged →
          (u.drive.items = Function.update t.drive.items (keyPath key)
              (some (t.drive.content (keyPath key) ++ record (value.take length)))
            ↔ ¬ (t.drive.content (keyPath key) ≠ []
              ∧ (Refused exchanged ∨ TakenForAbsent (t.drive.content (keyPath key)))))) q t := by
      apply wp_hivePutValue_of _ fun p' h => absurd h (by decide)
      intro k v hk hv
      obtain rfl : key = k := Option.some.inj hk
      obtain rfl : value.take length = v := checkedValue_eq hv
      apply wp_putValue_any fun h => h
      · intro content p' u xs _ hstored hwhat
        rw [if_neg (by decide)]
        intro _ exchanged hhistory
        obtain rfl : exchanged = xs := List.append_cancel_left (hhistory.symm.trans hstored.history)
        rw [hstored.items, Function.update_injective .. |>.eq_iff, Option.some.injEq,
          List.append_cancel_right_eq]
        rcases hwhat with ⟨hnot, htaken, hwhat⟩ | ⟨hlost, hwhat⟩
        · exact ⟨fun _ h => h.2.elim hnot htaken, fun _ => hwhat⟩
        · have hlost' : Refused exchanged ∨ TakenForAbsent (t.drive.content (keyPath key)) :=
            hlost.imp_left And.right
          rw [hwhat]
          exact ⟨fun h h' => h'.1 h.symm, fun h => (not_not.1 fun hne => h ⟨hne, hlost'⟩).symm⟩
      · intro rc p' u hrc
        rw [if_pos hrc]
        exact fun h => absurd h (by decide)
    exact Prog.wp_run hspec hrun hworld rfl _ (Env.recorded hworld).1

/-! The first put is turned away, the second begins with a refresh that is refused and ends well. On a drive without the key that is harmless, on a drive with the value `1` the value is lost. -/

def turnedAway : Trace :=
  [⟨.gettimeofday, demoTime⟩, ⟨.httpClientNew .getFileLength, true⟩,
    ⟨.perform demoInfo, demoReply 401 []⟩]

def askedAgain : Process OneDriveConnect := ⟨tryAgain, 0, expiredProcess.conn⟩

private theorem turnedAway_retries :
    Retries (hivePutValue (some OneDrive.table) (some demoKey) (some [7]) 1) 1 demoProcess turnedAway
      askedAgain := by
  have hrun : Run (hivePutValue (some OneDrive.table) (some demoKey) (some [7]) 1 demoProcess)
      turnedAway (-1, askedAgain) := by
    iterate 3 refine .ask _ _ _ ?_
    exact .refl _
  have hretries := Retries.succ hrun rfl (.zero askedAgain)
  rwa [List.append_nil] at hretries

unseal growSize in
set_option maxRecDepth 10000 in
private theorem lostPut_again :
    Run (hivePutValue (some OneDrive.table) (some demoKey) (some [7]) 1 askedAgain) lostPut
      (0, ⟨tryAgain, 0, refreshedProcess.conn⟩) := by
  iterate 31 refine .ask _ _ _ ?_
  exact .refl _

/-- Without a 401 there is nothing to assume about it. -/
theorem Env.firm_of_accepts {t : Served} {tr : Trace} (h : env.world.Accepts s tr t)
    (hnone : ∀ x ∈ exchanges tr, x.2.answered ≠ some HttpStatus.unauthorized) :
    env.firm.Accepts s tr t := by
  induction h with
  | nil s => exact .nil s
  | @cons s t u e r tr hstep _ ih =>
      cases e with
      | perform req =>
          have hfirst : r.answered ≠ some HttpStatus.unauthorized := hnone (req, r) List.mem_cons_self
          refine .cons ⟨hstep, fun h401 => absurd h401 hfirst⟩ (ih fun x hx => ?_)
          exact hnone x (List.mem_cons_of_mem _ hx)
      | _ => exact .cons ⟨hstep, trivial⟩ (ih hnone)

private theorem again_accepts {item : Option Bytes} :
    ∃ t u, refreshEnv.adverse.firm.Accepts (demoServed item) turnedAway t
      ∧ refreshEnv.adverse.firm.Accepts t lostPut u
      ∧ u.drive.items (keyPath demoKey) = some (record [7]) := by
  have hinfo : refreshEnv.adverse.Exchanges (demoServed item) demoInfo (demoReply 401 [])
      (Env.after (demoServed item) demoInfo (demoReply 401 []) (demoServed item).drive) :=
    ⟨⟨fun h => absurd h (by decide), fun h => absurd h (by decide), fun _ => rfl⟩, rfl, rfl, id,
      False.elim⟩
  have hfirst : refreshEnv.adverse.firm.Accepts (demoServed item) turnedAway _ :=
    .cons ⟨⟨rfl, rfl⟩, trivial⟩ <| .cons ⟨⟨nofun, rfl⟩, trivial⟩ <|
      .cons ⟨hinfo, fun _ => rfl⟩ <| .nil _
  obtain ⟨u, hsecond, hitem⟩ := lostPut_accepts _
  exact ⟨_, u, hfirst, Env.firm_of_accepts hsecond (by decide), hitem⟩

theorem try_again_first_value :
    ∃ t u, refreshEnv.adverse.firm.Accepts (demoServed none) turnedAway t
      ∧ refreshEnv.adverse.firm.Accepts t lostPut u ∧ t.drive.items = (demoServed none).drive.items
      ∧ u.drive.items = Function.update (demoServed none).drive.items (keyPath demoKey)
        (some (record [7])) := by
  obtain ⟨t, u, hfirst, hsecond, -⟩ := again_accepts
  have hboth := try_again_iff refreshEnv (s := demoServed none)
  have hrun : Run ((Mutation.putValue (some demoKey) (some [7]) 1).call demoProcess) turnedAway
      (-1, askedAgain) := by
    iterate 3 refine .ask _ _ _ ?_
    exact .refl _
  refine ⟨t, u, hfirst, hsecond, hboth.1 _ _ _ _ t hrun rfl hfirst, ?_⟩
  exact (hboth.2 1 demoKey [7] 1 _ _ _ _ _ t u turnedAway_retries lostPut_again hfirst hsecond).2
    fun h => h.1 rfl

theorem try_again_loses_value :
    ∃ t u, Retries (hivePutValue (some OneDrive.table) (some demoKey) (some [7]) 1) 1 demoProcess
        turnedAway askedAgain
      ∧ Run (hivePutValue (some OneDrive.table) (some demoKey) (some [7]) 1 askedAgain) lostPut
        (0, ⟨tryAgain, 0, refreshedProcess.conn⟩)
      ∧ refreshEnv.adverse.firm.Accepts (demoServed (some (record [1]))) turnedAway t
      ∧ refreshEnv.adverse.firm.Accepts t lostPut u
      ∧ (demoServed (some (record [1]))).drive.content (keyPath demoKey) = record [1]
      ∧ u.drive.content (keyPath demoKey) = record [7]
      ∧ u.drive.content (keyPath demoKey) ≠ record [1] ++ record [7] := by
  obtain ⟨t, u, hfirst, hsecond, hitem⟩ := again_accepts
  have hcontent := Drive.content_of_items hitem
  refine ⟨t, u, turnedAway_retries, lostPut_again, hfirst, hsecond, rfl, hcontent, ?_⟩
  rw [hcontent]
  decide

end HiveSdk
