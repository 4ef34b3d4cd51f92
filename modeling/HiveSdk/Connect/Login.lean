import HiveSdk.Errors.Refresh
import HiveSdk.Model.Connect

/-!
# Logging in

`onedrive_client_connect` up to the connect it returns. Without a usable keystore it asks the user for an authorization code through a local redirect server, and when no code comes back it takes `hive_error` for the reason. What follows says exactly when that goes wrong, in terms of the value that `hive_error` has before the call and of what the redirect server reports.
-/

namespace HiveSdk

open Interaction

/-! ### The redirect server -/

/-- What a request to the right path leaves in an empty buffer, and how the look-up of the code ends. -/
def codeOf (stream : SbStream) : Bytes × Sb.Result :=
  Sb.getVar stream (bytes "code") (List.replicate authorizeCodeSize 0)

/-- The events for which the handler sets `hive_error`. -/
def raises (path : Bytes) : SbEvent → Bool
  | .request reqPath stream => reqPath ≠ path ∨ (codeOf stream).2 ≠ .success
  | _ => false

/-- The string in the buffer after an event. -/
def codeAfter (path code : Bytes) : SbEvent → Bytes
  | .request reqPath stream => if reqPath = path then cString (codeOf stream).1 else code
  | _ => code

def SbEvent.isClose : SbEvent → Bool
  | .close => true
  | _ => false

/-- The events that are handled: those of all polls until one brings a close. -/
def handled : List (List SbEvent) → List SbEvent
  | [] => []
  | es :: polls => if es.any SbEvent.isClose then es else es ++ handled polls

/-- The wait ends: some poll brings a close. -/
def Closes (polls : List (List SbEvent)) : Prop := ∃ es ∈ polls, es.any SbEvent.isClose

/-- No error is raised, and there is no code in the end. -/
def Silent (path : Bytes) (polls : List (List SbEvent)) : Prop :=
  (∀ e ∈ handled polls, raises path e = false) ∧ (handled polls).foldl (codeAfter path) [] = []

namespace Sb

theorem urlDecodeLoop_length (room : Nat) (src : Bytes) : (urlDecodeLoop room src).1.length ≤ room := by
  fun_induction urlDecodeLoop room src <;> simp_all

theorem cString_terminated (text rest : Bytes) : cString (text ++ 0 :: rest) = cString text := by
  induction text with
  | nil => rfl
  | cons c text ih =>
      by_cases hc : c = 0
      · simp [cString, hc]
      · simpa [cString, hc] using ih

private theorem store_length {dst text : Bytes} (h : text.length < dst.length) :
    (store dst text).length = dst.length := by
  simp only [store, List.length_append, List.length_cons, List.length_drop]
  omega

private theorem urlDecode_spec {dst dst' src : Bytes} (hpos : 0 < dst.length)
    (hlength : dst.length = dst'.length) :
    (urlDecode dst src).1.length = dst.length ∧
      cString (urlDecode dst src).1 = cString (urlDecode dst' src).1 ∧
      (urlDecode dst src).2 = (urlDecode dst' src).2 := by
  have hroom := urlDecodeLoop_length (dst.length - 1) src
  simp only [urlDecode, ← hlength]
  refine ⟨store_length (by omega), ?_, trivial⟩
  rw [store, store, cString_terminated, cString_terminated]

/-- The bytes that the buffer held before do not matter. -/
theorem getVar_spec (st : SbStream) (name : Bytes) {dst dst' : Bytes} (hpos : 0 < dst.length)
    (hlength : dst.length = dst'.length) :
    (getVar st name dst).1.length = dst.length ∧
      cString (getVar st name dst).1 = cString (getVar st name dst').1 ∧
      (getVar st name dst).2 = (getVar st name dst').2 := by
  have hnone : (store dst []).length = dst.length ∧
      cString (store dst []) = cString (store dst' []) := by
    refine ⟨store_length hpos, ?_⟩
    rw [store, store, cString_terminated, cString_terminated]
  unfold getVar
  dsimp only
  split
  · exact ⟨hnone.1, hnone.2, rfl⟩
  · exact urlDecode_spec hpos hlength

end Sb

section
variable {τ : Type} {W : World Event Event.Answer τ} {p : Process OneDriveConnect} {s : τ}
  {path : Bytes}

/-- What some events have done: the buffer holds the string `code`, and `hive_error` is the one before unless an error was raised. -/
structure Heard (path : Bytes) (a : AuthRedirect) (p : Process OneDriveConnect) (es : List SbEvent)
    (a' : AuthRedirect) (p' : Process OneDriveConnect) : Prop where
  length : a'.code.length = authorizeCodeSize
  code : cString a'.code = es.foldl (codeAfter path) (cString a.code)
  silent : (∀ e ∈ es, raises path e = false) → p'.hiveError = p.hiveError
  raised : ¬ (∀ e ∈ es, raises path e = false) → p'.hiveError < 0
  conn : p'.conn = p.conn

theorem Heard.refl {a : AuthRedirect} (h : a.code.length = authorizeCodeSize) :
    Heard path a p [] a p :=
  ⟨h, rfl, fun _ => rfl, fun h => absurd (fun _ he => (nomatch he)) h, rfl⟩

theorem Heard.append {a a' a'' : AuthRedirect} {p' p'' : Process OneDriveConnect}
    {es es' : List SbEvent} (h : Heard path a p es a' p') (h' : Heard path a' p' es' a'' p'') :
    Heard path a p (es ++ es') a'' p'' where
  length := h'.length
  code := by rw [h'.code, h.code, List.foldl_append]
  silent := fun hsilent => by
    rw [h'.silent fun e he => hsilent e (List.mem_append_right _ he),
      h.silent fun e he => hsilent e (List.mem_append_left _ he)]
  raised := fun hraised => by
    by_cases hrest : ∀ e ∈ es', raises path e = false
    · rw [h'.silent hrest]
      refine h.raised fun hfirst => hraised fun e he => ?_
      rcases List.mem_append.1 he with he | he
      · exact hfirst e he
      · exact hrest e he
    · exact h'.raised hrest
  conn := h'.conn.trans h.conn

private theorem wp_handleAuthRedirect {a : AuthRedirect} {e : SbEvent}
    {Q : AuthRedirect → Process OneDriveConnect → τ → Prop}
    (hlength : a.code.length = authorizeCodeSize)
    (h : ∀ a' p', Heard path a p [e] a' p' → a'.stop = (a.stop || e.isClose) → Q a' p' s) :
    Proc.wp W (handleAuthRedirect path a e) Q p s := by
  have hquiet : raises path e = false → codeAfter path (cString a.code) e = cString a.code →
      Heard path a p [e] a p ∧ Heard path a p [e] { a with stop := true } p := by
    intro hraises hcode
    have hall : ∀ e' ∈ [e], raises path e' = false := by simpa using hraises
    exact ⟨⟨hlength, hcode.symm, fun _ => rfl, fun h => absurd hall h, rfl⟩,
      ⟨hlength, hcode.symm, fun _ => rfl, fun h => absurd hall h, rfl⟩⟩
  cases e with
  | connect => exact h a p (hquiet rfl rfl).1 (Bool.or_false _).symm
  | close => exact h _ p (hquiet rfl rfl).2 (Bool.or_true _).symm
  | request reqPath stream =>
      have hstop : ∀ code, ({ a with code := code } : AuthRedirect).stop
          = (a.stop || SbEvent.isClose (.request reqPath stream)) := fun _ => (Bool.or_false _).symm
      rw [handleAuthRedirect, Proc.wp_ite]
      constructor
      · intro hpath
        have hraises : raises path (.request reqPath stream) = true := by simp [raises, hpath]
        have hcode : cString a.code = codeAfter path (cString a.code) (.request reqPath stream) :=
          (if_neg hpath).symm
        have hneg : cInt (hiveGeneralError HiveErr.badAddress) < 0 :=
          cInt_hiveMkError_neg .general (by decide)
        refine h a _ ⟨hlength, hcode, fun h => ?_, fun _ => hneg, rfl⟩ (Bool.or_false _).symm
        rw [h _ (List.mem_singleton_self _)] at hraises
        cases hraises
      · intro hpath
        rw [not_not] at hpath
        have hsize : a.code.length = (List.replicate authorizeCodeSize (0 : UInt8)).length := by
          rw [hlength, List.length_replicate]
        have hpos : 0 < a.code.length := by
          rw [hlength]
          decide
        obtain ⟨hlen, hstring, hresult⟩ := Sb.getVar_spec stream (bytes "code") hpos hsize
        have hcode : cString (Sb.getVar stream (bytes "code") a.code).1
            = codeAfter path (cString a.code) (.request reqPath stream) := by
          rw [codeAfter, if_pos hpath, hstring]
          rfl
        have hraises : raises path (.request reqPath stream) = true
            ↔ (Sb.getVar stream (bytes "code") a.code).2 ≠ .success := by
          rw [hresult]
          simp [raises, hpath, codeOf]
        have hneg : cInt (hiveGeneralError HiveErr.invalidCredential) < 0 :=
          cInt_hiveMkError_neg .general (by decide)
        simp only [Proc.wp_bind, Proc.wp_ite, wp_hiveSetError, Proc.wp_pure]
        refine ⟨fun hfailed => ?_, fun hfound => ?_⟩
        · refine h _ _ ⟨hlen.trans hlength, hcode, fun h => ?_, fun _ => hneg, rfl⟩ (hstop _)
          exact absurd ((hraises.2 hfailed).symm.trans (h _ (List.mem_singleton_self _))) (by decide)
        · have hsilent : ∀ e ∈ [SbEvent.request reqPath stream], raises path e = false := by
            intro e he
            rw [List.mem_singleton.1 he, ← Bool.not_eq_true]
            exact fun h => hfound (hraises.1 h)
          exact h _ p ⟨hlen.trans hlength, hcode, fun _ => rfl, fun h => absurd hsilent h, rfl⟩ (hstop _)

theorem wp_handleEvents {a : AuthRedirect} {es : List SbEvent}
    {Q : AuthRedirect → Process OneDriveConnect → τ → Prop}
    (hlength : a.code.length = authorizeCodeSize)
    (h : ∀ a' p', Heard path a p es a' p' → a'.stop = (a.stop || es.any SbEvent.isClose) → Q a' p' s) :
    Proc.wp W (handleEvents path a es) Q p s := by
  induction es generalizing a p with
  | nil => exact h a p (Heard.refl hlength) (Bool.or_false _).symm
  | cons e es ih =>
      rw [handleEvents, Proc.wp_bind]
      apply wp_handleAuthRedirect hlength
      intro a' p' hfirst hstop
      apply ih hfirst.length
      intro a'' p'' hrest hstop'
      refine h a'' p'' (hfirst.append hrest) ?_
      rw [hstop', hstop, List.any_cons, Bool.or_assoc]

/-- The loop handles the events of `handled`, if it ends at all. -/
theorem wp_pollUntilStopped {a : AuthRedirect} {polls : List (List SbEvent)}
    {Q : AuthRedirect → Process OneDriveConnect → τ → Prop} (hpre : ¬ Closes polls → W.pre s .diverge)
    (hlength : a.code.length = authorizeCodeSize) (hstop : a.stop = false)
    (h : Closes polls → ∀ a' p', Heard path a p (handled polls) a' p' → Q a' p' s) :
    Proc.wp W (pollUntilStopped path a polls) Q p s := by
  induction polls generalizing a p with
  | nil =>
      rw [pollUntilStopped, if_neg (by simp [hstop]), Proc.wp_bind, Proc.wp_call]
      refine ⟨hpre fun hcloses => ?_, fun never => never.elim⟩
      obtain ⟨es, hes, -⟩ := hcloses
      cases hes
  | cons es polls ih =>
      rw [pollUntilStopped, if_neg (by simp [hstop]), Proc.wp_bind]
      apply wp_handleEvents hlength
      intro a' p' hheard hstop'
      rw [hstop, Bool.false_or] at hstop'
      rw [handled] at h
      by_cases hclose : es.any SbEvent.isClose
      · rw [if_pos hclose] at h
        unfold pollUntilStopped
        rw [if_pos (hstop'.trans hclose), Proc.wp_pure]
        exact h ⟨es, List.mem_cons_self, hclose⟩ a' p' hheard
      · rw [if_neg hclose] at h
        have hlater : Closes polls → Closes (es :: polls) :=
          fun hcloses => hcloses.imp fun es' hes' => ⟨List.mem_cons_of_mem es hes'.1, hes'.2⟩
        have hopen : ¬ Closes polls → ¬ Closes (es :: polls) := by
          intro hopen hcloses
          obtain ⟨es', hes', hclose'⟩ := hcloses
          rcases List.mem_cons.1 hes' with rfl | hes'
          · exact hclose hclose'
          · exact hopen ⟨es', hes', hclose'⟩
        apply ih (fun hnone => hpre (hopen hnone)) hheard.length (hstop'.trans (Bool.not_eq_true _ ▸ hclose))
        intro hcloses a'' p'' hrest
        exact h (hlater hcloses) a'' p'' (hheard.append hrest)

end

/-! ### Setting up -/

/-- The calls by which the keystore is looked for, loaded and taken over. -/
def KeystoreCall : Event → Prop
  | .stat _ | .access _ | .mkdir _ | .read _ _ | .stackAfter _ | .cjsonParse _ | .alloc _ => True
  | .openFile _ mode => mode = .rdonly
  | _ => False

/-- Only `errno` may differ. -/
structure SameButErrno {σ : Type} (p p' : Process σ) : Prop where
  hiveError : p'.hiveError = p.hiveError
  conn : p'.conn = p.conn

section
variable {σ : Type} {p : Process σ}

private theorem guard_mkdirInternal {path : Bytes} {Q : Int → Process σ → Unit → Prop}
    (h : ∀ rc p', SameButErrno p p' → Q rc p' ()) :
    Proc.wp (World.guard KeystoreCall) (mkdirInternal path) Q p () := by
  rw [mkdirInternal, Proc.wp_bind, Proc.wp_guard_call]
  refine ⟨trivial, fun answer => ?_⟩
  rcases answer with e | st
  · dsimp only
    rw [Proc.wp_bind, wp_setErrno, Proc.wp_bind, Proc.wp_guard_call]
    refine ⟨trivial, fun made => ?_⟩
    rcases made with e' | _
    · exact h _ _ ⟨rfl, rfl⟩
    · exact h _ _ ⟨rfl, rfl⟩
  · dsimp only
    rw [Proc.wp_ite, Proc.wp_pure]
    exact ⟨fun _ => h _ _ ⟨rfl, rfl⟩, fun _ => h _ _ ⟨rfl, rfl⟩⟩

private theorem guard_mkdirsLoop {done rest : Bytes} {component : Bool}
    {Q : Int → Process σ → Unit → Prop} (h : ∀ rc p', SameButErrno p p' → Q rc p' ()) :
    Proc.wp (World.guard KeystoreCall) (mkdirsLoop done component rest) Q p () := by
  induction rest generalizing done component p with
  | nil => exact h 0 p ⟨rfl, rfl⟩
  | cons c rest ih =>
      rw [mkdirsLoop, Proc.wp_ite, Proc.wp_ite, Proc.wp_bind]
      refine ⟨fun _ => ⟨fun _ => ?_, fun _ => ih h⟩, fun _ => ih h⟩
      apply guard_mkdirInternal
      intro rc p₁ hsame
      rw [Proc.wp_ite, Proc.wp_pure]
      refine ⟨fun _ => h rc p₁ hsame, fun _ => ih fun rc' p' hsame' => ?_⟩
      exact h rc' p' ⟨hsame'.hiveError.trans hsame.hiveError, hsame'.conn.trans hsame.conn⟩

theorem guard_mkdirs {path : Bytes} {Q : Int → Process σ → Unit → Prop}
    (h : ∀ rc p', SameButErrno p p' → Q rc p' ()) :
    Proc.wp (World.guard KeystoreCall) (mkdirs path) Q p () := by
  rw [mkdirs, Proc.wp_bind]
  apply guard_mkdirsLoop
  intro rc p₁ hsame
  rw [Proc.wp_ite, Proc.wp_pure]
  refine ⟨fun _ => h rc p₁ hsame, fun _ => guard_mkdirInternal fun rc' p' hsame' => ?_⟩
  exact h rc' p' ⟨hsame'.hiveError.trans hsame.hiveError, hsame'.conn.trans hsame.conn⟩

private theorem guard_keystoreText {data : Bytes} {Q : Bytes → Process σ → Unit → Prop}
    (h : ∀ text, Q text p ()) : Proc.wp (World.guard KeystoreCall) (keystoreText data) Q p () := by
  rw [keystoreText, Proc.wp_ite, Proc.wp_pure, Proc.wp_bind, Proc.wp_guard_call]
  exact ⟨fun _ => h _, fun _ => ⟨trivial, fun rest => h _⟩⟩

private theorem guard_loadKeystoreInJson {path : Bytes} {Q : Option Json → Process σ → Unit → Prop}
    (h : ∀ json p', SameButErrno p p' → Q json p' ()) :
    Proc.wp (World.guard KeystoreCall) (loadKeystoreInJson path) Q p () := by
  rw [loadKeystoreInJson, Proc.wp_bind, Proc.wp_guard_call]
  refine ⟨trivial, fun answer => ?_⟩
  rcases answer with e | st
  · exact h _ _ ⟨rfl, rfl⟩
  dsimp only
  rw [Proc.wp_ite, Proc.wp_bind, Proc.wp_bind, Proc.wp_guard_call]
  refine ⟨fun _ => h _ _ ⟨rfl, rfl⟩, fun _ => ⟨rfl, fun opened => ?_⟩⟩
  rcases opened with e | _
  · exact h _ _ ⟨rfl, rfl⟩
  dsimp only
  rw [Proc.wp_bind, Proc.wp_guard_call]
  refine ⟨trivial, fun data => ?_⟩
  rcases data with e | data
  · exact h _ _ ⟨rfl, rfl⟩
  dsimp only
  rw [Proc.wp_ite, Proc.wp_pure, Proc.wp_bind]
  refine ⟨fun _ => h _ _ ⟨rfl, rfl⟩, fun _ => ?_⟩
  apply guard_keystoreText
  intro text
  rw [Proc.wp_bind, Proc.wp_guard_call]
  refine ⟨trivial, fun json => ?_⟩
  rcases json with _ | json
  · exact h _ _ ⟨rfl, rfl⟩
  · exact h _ _ ⟨rfl, rfl⟩

theorem guard_openKeystore {path : Bytes}
    {Q : Option (Option Json) → Process σ → Unit → Prop} (hnone : ∀ p', Q none p' ())
    (hsome : ∀ keystore p', SameButErrno p p' → Q (some keystore) p' ()) :
    Proc.wp (World.guard KeystoreCall) (openKeystore path) Q p () := by
  rw [openKeystore, Proc.wp_bind, Proc.wp_guard_call]
  refine ⟨trivial, fun there => ?_⟩
  rw [Proc.wp_ite, Proc.wp_pure, Proc.wp_bind]
  refine ⟨fun _ => hsome _ _ ⟨rfl, rfl⟩, fun _ => ?_⟩
  apply guard_loadKeystoreInJson
  intro json p' hsame
  rcases json with _ | json
  · exact hnone _
  · exact hsome _ _ hsame

/-- A new token has all three strings or none of them. -/
theorem guard_oauthTokenNew {opts : OAuthOptions}
    {Q : Option OAuthToken → Process σ → Unit → Prop} (hnone : ∀ p', Q none p' ())
    (hsome : ∀ token p', SameButErrno p p' → token.Complete ∨ token.accessToken = none →
      Q (some token) p' ()) :
    Proc.wp (World.guard KeystoreCall) (oauthTokenNew opts) Q p () := by
  simp only [oauthTokenNew, Proc.wp_bind, Proc.wp_guard_call]
  refine ⟨trivial, fun allocated => ?_⟩
  simp only [Proc.wp_ite, Proc.wp_bind]
  refine ⟨fun _ => hnone _, fun _ => ?_⟩
  have hempty : opts.token.accessToken = none := rfl
  unfold restoreAccessToken
  rcases opts.store with _ | json
  · exact hsome _ _ ⟨rfl, rfl⟩ (.inr hempty)
  dsimp only
  rw [Proc.wp_ite, Proc.wp_pure]
  refine ⟨fun _ => hsome _ _ ⟨rfl, rfl⟩ (.inr hempty), fun _ => ?_⟩
  rcases storedTokens json with _ | stored
  · exact hsome _ _ ⟨rfl, rfl⟩ (.inr hempty)
  dsimp only
  rw [Proc.wp_bind, Proc.wp_guard_call]
  refine ⟨trivial, fun allocated => ?_⟩
  rw [Proc.wp_ite]
  exact ⟨fun _ => hsome _ _ ⟨rfl, rfl⟩ (.inr hempty),
    fun _ => hsome _ _ ⟨rfl, rfl⟩ (.inl ⟨rfl, rfl, rfl⟩)⟩

end

/-! ### What the redirect server reports -/

/-- The answers that decide how the request for a code ends. -/
structure Redirect where
  refused : Bool := false
  path : Option Bytes := none
  polls : Option (List (List SbEvent)) := none

def Redirect.observe (r : Redirect) (entry : Entry Event Event.Answer) : Redirect :=
  match entry with
  | ⟨.sbNewServer _ _, created⟩ => { r with refused := !created }
  | ⟨.curlUrlGet .path, .ok path⟩ => { r with path := some path }
  | ⟨.sbPollServer, polls⟩ => { r with polls := some polls }
  | _ => r

/-- What a trace reports. -/
def Redirect.of (tr : Trace) : Redirect := tr.foldl Redirect.observe {}

/-- The ways to end without a code and without an error: there is no server, or it reports neither. -/
def Redirect.Unnoticed (r : Redirect) : Prop :=
  r.refused = true ∨
    ∃ path polls, r.path = some path ∧ r.polls = some polls ∧ Silent path polls

/-- There is a code in the end. -/
def Redirect.Delivered (r : Redirect) : Prop :=
  ∃ path polls, r.path = some path ∧ r.polls = some polls
    ∧ (handled polls).foldl (codeAfter path) [] ≠ []

/-- The wait has ended with this string in the buffer. -/
def Redirect.Leaves (r : Redirect) (code : Bytes) : Prop :=
  ∃ path polls, r.path = some path ∧ r.polls = some polls ∧ Closes polls
    ∧ (handled polls).foldl (codeAfter path) [] = code

abbrev redirecting : World Event Event.Answer Redirect := World.observer Redirect.observe

/-- The calls by which an authorization code is asked for. -/
def AuthorizeCall : Event → Prop
  | .httpClientNew caller => caller = .getAuthorizeCode
  | .curlUrlGet _ | .sbNewServer _ _ | .pthreadCreate | .sbPollServer | .diverge => True
  | _ => False

theorem Redirect.observe_tokenCall (r : Redirect) {e : Event} (answer : e.Answer)
    (h : TokenCall e) : r.observe ⟨e, answer⟩ = r := by
  cases e <;> first | rfl | exact h.elim

theorem Redirect.observe_keystoreCall (r : Redirect) {e : Event} (answer : e.Answer)
    (h : KeystoreCall e) : r.observe ⟨e, answer⟩ = r := by
  cases e <;> first | rfl | exact h.elim

section
variable {p : Process OneDriveConnect}

/-- Nothing has been asked of the redirect server yet. -/
theorem Redirect.not_reported {r : Redirect} (hrefused : r.refused = false) (hpolls : r.polls = none) :
    ¬ r.Unnoticed ∧ ¬ r.Delivered := by
  constructor
  · intro h
    rcases h with h | ⟨path, polls, -, h, -⟩
    · rw [hrefused] at h
      cases h
    · rw [hpolls] at h
      cases h
  · intro h
    obtain ⟨path, polls, -, h, -⟩ := h
    rw [hpolls] at h
    cases h

theorem authorizing_getAuthorizeCode
    {Q : Option Bytes → Process OneDriveConnect → Redirect → Prop}
    (hcode : ∀ code p' r, ¬ r.Unnoticed → r.Delivered → r.Leaves code → Q (some code) p' r)
    (herror : ∀ err e conn r, ¬ r.Unnoticed ∧ ¬ r.Delivered → err < 0 → Q none ⟨err, e, conn⟩ r)
    (hunnoticed : ∀ p' r, r.Unnoticed → ¬ r.Delivered → p'.hiveError = p.hiveError →
      p'.conn = p.conn → Q none p' r) :
    Proc.wp (World.monitor (fun _ e => AuthorizeCall e) Redirect.observe) getAuthorizeCode Q p {} := by
  have hearly : ∀ r : Redirect, r.refused = false → r.polls = none → ¬ r.Unnoticed ∧ ¬ r.Delivered :=
    fun r => Redirect.not_reported
  have hcurlu : ∀ rc : CurluCode, cInt (hiveCurluError rc) < 0 := fun rc =>
    cInt_hiveMkError_neg .curlu (by omega)
  have hmemory : cInt (hiveGeneralError HiveErr.outOfMemory) < 0 :=
    cInt_hiveMkError_neg .general (by decide)
  have hsys : ∀ e : Errno, cInt (hiveSysError e) < 0 := fun e => cInt_hiveMkError_neg .sys (by omega)
  simp only [getAuthorizeCode, Proc.wp_bind, Proc.wp_monitor_call]
  refine ⟨rfl, fun created => ?_⟩
  rw [Proc.wp_ite]
  refine ⟨fun _ => herror _ _ _ _ (hearly _ rfl rfl) hmemory, fun _ => ?_⟩
  rw [Proc.wp_bind, Proc.wp_monitor_call]
  refine ⟨trivial, fun url => ?_⟩
  rcases url with rc | url
  · dsimp only
    rw [Proc.wp_bind, wp_hiveSetError, Proc.wp_pure]
    exact herror _ _ _ _ (hearly _ rfl rfl) (hcurlu rc)
  dsimp only
  rw [Proc.wp_bind, Proc.wp_monitor_call]
  refine ⟨trivial, fun host => ?_⟩
  rcases host with rc | host
  · dsimp only
    rw [Proc.wp_bind, wp_hiveSetError, Proc.wp_pure]
    exact herror _ _ _ _ (hearly _ rfl rfl) (hcurlu rc)
  dsimp only
  rw [Proc.wp_bind, Proc.wp_monitor_call]
  refine ⟨trivial, fun port => ?_⟩
  rcases port with rc | port
  · dsimp only
    rw [Proc.wp_bind, wp_hiveSetError, Proc.wp_pure]
    exact herror _ _ _ _ (hearly _ rfl rfl) (hcurlu rc)
  dsimp only
  rw [Proc.wp_bind, Proc.wp_monitor_call]
  refine ⟨trivial, fun path => ?_⟩
  rcases path with rc | path
  · dsimp only
    rw [Proc.wp_bind, wp_hiveSetError, Proc.wp_pure]
    exact herror _ _ _ _ (hearly _ rfl rfl) (hcurlu rc)
  dsimp only
  rw [Proc.wp_bind, Proc.wp_monitor_call]
  refine ⟨trivial, fun server => ?_⟩
  rcases server with _ | _
  · refine hunnoticed _ _ (.inl rfl) (fun h => ?_) rfl rfl
    obtain ⟨path', polls, -, h, -⟩ := h
    cases h
  rw [if_neg (by decide), Proc.wp_bind, Proc.wp_monitor_call]
  refine ⟨trivial, fun thread => ?_⟩
  rcases thread with e | _
  · dsimp only
    rw [Proc.wp_bind, wp_setErrno, Proc.wp_bind, wp_hiveSetError, Proc.wp_pure]
    exact herror _ _ _ _ (hearly _ rfl rfl) (hsys e)
  dsimp only
  rw [Proc.wp_bind, Proc.wp_monitor_call]
  refine ⟨trivial, fun polls => ?_⟩
  rw [Proc.wp_bind]
  apply wp_pollUntilStopped (fun _ => trivial) (List.length_replicate) rfl
  intro hcloses a p' hheard
  have hempty : cString (List.replicate authorizeCodeSize (0 : UInt8)) = [] := rfl
  have hcodes := hheard.code
  rw [hempty] at hcodes
  have hunnoticed_iff : ∀ r : Redirect, r.refused = false → r.path = some path →
      r.polls = some polls → (r.Unnoticed ↔ Silent path polls) := by
    intro r hrefused hpath hpolls
    constructor
    · intro h
      rcases h with h | ⟨path', polls', hpath', hpolls', h⟩
      · rw [hrefused] at h
        cases h
      · rw [hpath] at hpath'
        rw [hpolls] at hpolls'
        cases hpath'
        cases hpolls'
        exact h
    · intro h
      exact .inr ⟨path, polls, hpath, hpolls, h⟩
  have hdelivered_iff : ∀ r : Redirect, r.path = some path → r.polls = some polls →
      (r.Delivered ↔ (handled polls).foldl (codeAfter path) [] ≠ []) := by
    intro r hpath hpolls
    constructor
    · intro h
      obtain ⟨path', polls', hpath', hpolls', h⟩ := h
      rw [hpath] at hpath'
      rw [hpolls] at hpolls'
      cases hpath'
      cases hpolls'
      exact h
    · intro h
      exact ⟨path, polls, hpath, hpolls, h⟩
  by_cases hnil : cString a.code = []
  · have hpure : (if cString a.code = [] then none else some (cString a.code)) = none := if_pos hnil
    rw [hpure, Proc.wp_pure]
    by_cases hsilent : ∀ e ∈ handled polls, raises path e = false
    · refine hunnoticed p' _ ((hunnoticed_iff _ rfl rfl rfl).2 ⟨hsilent, hcodes.symm.trans hnil⟩)
        (fun h => ?_) (hheard.silent hsilent) hheard.conn
      exact (hdelivered_iff _ rfl rfl).1 h (hcodes.symm.trans hnil)
    · refine herror p'.hiveError p'.errno p'.conn _ ⟨fun h => ?_, fun h => ?_⟩ (hheard.raised hsilent)
      · exact hsilent ((hunnoticed_iff _ rfl rfl rfl).1 h).1
      · exact (hdelivered_iff _ rfl rfl).1 h (hcodes.symm.trans hnil)
  · have hpure : (if cString a.code = [] then none else some (cString a.code))
        = some (cString a.code) := if_neg hnil
    rw [hpure, Proc.wp_pure]
    refine hcode _ p' _ (fun h => ?_) ((hdelivered_iff _ rfl rfl).2 fun h => hnil (hcodes.trans h))
      ⟨path, polls, rfl, rfl, hcloses, hcodes.symm⟩
    exact hnil (hcodes.trans ((hunnoticed_iff _ rfl rfl rfl).1 h).2)

private theorem redirecting_getAuthorizeCode
    {Q : Option Bytes → Process OneDriveConnect → Redirect → Prop}
    (hcode : ∀ code p' r, ¬ r.Unnoticed → Q (some code) p' r)
    (herror : ∀ err e conn r, ¬ r.Unnoticed → err < 0 → Q none ⟨err, e, conn⟩ r)
    (hunnoticed : ∀ p' r, r.Unnoticed → p'.hiveError = p.hiveError → p'.conn = p.conn →
      Q none p' r) :
    Proc.wp redirecting getAuthorizeCode Q p {} := by
  have hspec : Proc.wp (World.monitor (fun _ e => AuthorizeCall e) Redirect.observe) getAuthorizeCode
      Q p {} :=
    authorizing_getAuthorizeCode (fun code p' r h _ _ => hcode code p' r h)
      (fun err e conn r h => herror err e conn r h.1) fun p' r h _ => hunnoticed p' r h
  refine Prog.wp_weaken ?_ ?_ hspec
  · exact fun _ _ _ => trivial
  · exact fun _ _ _ _ h => h

/-- The login: a token that comes out is complete, unless the redirect server failed unnoticed. -/
private theorem redirecting_oauthTokenRequest
    (htoken : p.conn.token.Complete ∨ p.conn.token.accessToken = none) :
    Proc.wp redirecting oauthTokenRequest (fun rc p' r =>
      (¬ rc < 0 → p'.conn.token.Complete) ↔ ¬ (0 ≤ p.hiveError ∧ r.Unnoticed)) p {} := by
  have hnot : ¬ ({} : Redirect).Unnoticed := (Redirect.not_reported rfl rfl).1
  rw [oauthTokenRequest, Proc.wp_bind, wp_getToken, Proc.wp_ite, Proc.wp_pure, Proc.wp_bind]
  constructor
  · intro hpresent
    refine iff_of_true (fun _ => ?_) fun h => hnot h.2
    rcases htoken with h | h
    · exact h
    · rw [h] at hpresent
      cases hpresent
  intro habsent
  have hincomplete : ¬ p.conn.token.Complete := fun h => habsent h.accessToken
  apply redirecting_getAuthorizeCode
  · intro code p₁ r hnoticed
    dsimp only
    rw [Proc.wp_bind]
    refine Proc.wp_unobserved (guard_requestToken (.inr rfl))
      (fun _ answer he => Redirect.observe_tokenCall r answer he) fun rc p₂ h => ?_
    rw [Proc.wp_ite, Proc.wp_pure]
    refine ⟨fun hneg => iff_of_true (fun h => absurd hneg h) fun h => hnoticed h.2, fun hnneg => ?_⟩
    obtain ⟨-, hcomplete⟩ := h.succeeded hnneg
    have hwriteback : Proc.wp (World.guard TokenLocal) writebackTokens
        (fun _ p' _ => p'.conn = p₂.conn) p₂ () := guard_writebackTokens hcomplete fun _ h => h
    rw [Proc.wp_bind]
    refine Proc.wp_unobserved hwriteback
      (fun _ answer he => Redirect.observe_tokenCall r answer he.tokenCall) fun _ p₃ hconn => ?_
    exact iff_of_true (fun _ => hconn ▸ hcomplete) fun h => hnoticed h.2
  · intro err e conn r hnoticed hneg
    exact iff_of_true (fun h => absurd hneg h) fun h => hnoticed h.2
  · intro p₁ r hunnoticed herror hconn
    have hresult : (¬ p₁.hiveError < 0 → p₁.conn.token.Complete) ↔ p.hiveError < 0 := by
      rw [herror, hconn]
      constructor
      · intro h
        by_contra hnneg
        exact hincomplete (h hnneg)
      · intro hneg hnneg
        exact absurd hneg hnneg
    show (¬ p₁.hiveError < 0 → p₁.conn.token.Complete) ↔ _
    rw [hresult]
    constructor
    · intro hneg h
      omega
    · intro h
      by_contra hnneg
      exact h ⟨not_lt.1 hnneg, hunnoticed⟩

end

/-- A connect that is returned is authenticated, unless `hive_error` was not negative before the call and the redirect server failed unnoticed. -/
theorem connect_authenticated_iff {σ : Type} {dataLocation : Bytes} {opts : OneDriveConnectOptions}
    {p p' : Process σ} {tr : Trace} {result : Option OneDriveConnect}
    (hrun : Run (onedriveClientConnect dataLocation opts p) tr (result, p')) :
    (∀ connect, result = some connect → connect.token.Complete)
      ↔ ¬ (0 ≤ p.hiveError ∧ (Redirect.of tr).Unnoticed) := by
  have hnot : ¬ ({} : Redirect).Unnoticed := (Redirect.not_reported rfl rfl).1
  have hnone : (∀ connect, (none : Option OneDriveConnect) = some connect → connect.token.Complete)
      ↔ ¬ (0 ≤ p.hiveError ∧ ({} : Redirect).Unnoticed) :=
    iff_of_true (fun _ h => (nomatch h)) fun h => hnot h.2
  have hspec : Proc.wp redirecting (onedriveClientConnect dataLocation opts) (fun result _ r =>
      (∀ connect, result = some connect → connect.token.Complete)
        ↔ ¬ (0 ≤ p.hiveError ∧ r.Unnoticed)) p {} := by
    have hignored : ∀ e answer, KeystoreCall e → ({} : Redirect).observe ⟨e, answer⟩ = {} :=
      fun _ answer he => Redirect.observe_keystoreCall {} answer he
    rw [onedriveClientConnect]
    rcases opts.check with _ | checked
    · exact hnone
    dsimp only
    rw [Proc.wp_bind, Proc.wp_observer_call]
    intro allocated
    rw [Proc.wp_ite, Proc.wp_bind, Proc.wp_ite, Proc.wp_bind, Proc.wp_bind]
    refine ⟨fun _ => hnone, fun _ => ⟨fun _ => hnone, fun _ => ?_⟩⟩
    refine Proc.wp_unobserved (guard_mkdirs fun _ _ h => h) hignored fun rc p₁ hsame₁ => ?_
    rw [Proc.wp_bind, Proc.wp_get, Proc.wp_ite, Proc.wp_bind, Proc.wp_bind]
    refine ⟨fun _ => hnone, fun _ => ?_⟩
    have hopen : Proc.wp (World.guard KeystoreCall) (openKeystore (keystorePath dataLocation))
        (fun keystore p' _ => keystore = none ∨ SameButErrno p₁ p') p₁ () :=
      guard_openKeystore (fun _ => .inl rfl) fun _ _ h => .inr h
    refine Proc.wp_unobserved hopen hignored fun keystore p₂ hkeystore => ?_
    rcases keystore with _ | keystore
    · exact hnone
    have hsame₂ := hkeystore.resolve_left (by simp)
    dsimp only
    have hnew : Proc.wp (World.guard KeystoreCall) (oauthTokenNew (oauthOptions checked keystore))
        (fun token p' _ => ∀ t ∈ token, SameButErrno p₂ p' ∧ (t.Complete ∨ t.accessToken = none))
        p₂ () :=
      guard_oauthTokenNew (fun _ _ h => (nomatch h)) fun token p' hsame htoken t ht => by
        rw [← Option.some.inj ht]
        exact ⟨hsame, htoken⟩
    rw [Proc.wp_bind]
    refine Proc.wp_unobserved hnew hignored fun token p₃ htoken => ?_
    rcases token with _ | token
    · exact hnone
    obtain ⟨hsame₃, htoken⟩ := htoken token rfl
    have herror : p₃.hiveError = p.hiveError :=
      hsame₃.hiveError.trans (hsame₂.hiveError.trans hsame₁.hiveError)
    dsimp only
    rw [Proc.wp_bind, wp_withConn]
    refine Proc.wp_mono (fun rc p₄ r hlogin => ?_) (redirecting_oauthTokenRequest htoken)
    rw [herror] at hlogin
    dsimp only
    rw [Proc.wp_ite, Proc.wp_pure, Proc.wp_pure, ← hlogin]
    refine ⟨fun hneg => iff_of_true (fun _ h => (nomatch h)) fun h => absurd hneg h, fun hnneg => ?_⟩
    constructor
    · intro h _
      exact h _ rfl
    · intro h connect hconnect
      rw [← Option.some.inj hconnect]
      exact h hnneg
  exact Proc.observed hspec hrun

/-! A start with a keystore, and a first start, on which the redirect server cannot be created. -/

def demoOptions : OneDriveConnectOptions where
  backendType := .oneDrive
  clientId := some (bytes "client")
  redirectUrl := some (bytes "http://localhost:12345")
  scope := some (bytes "Files.ReadWrite.AppFolder")
  callback := true

/-- A thread that has not used the library yet. -/
def freshThread : Process Unit := ⟨0, 0, ()⟩

def keystoreFile : Bytes := bytes "/data/.data/onedrive.json"

/-- The keystore is loaded, and its tokens are taken over. -/
def storedKeystore : Trace :=
  [⟨.alloc pathMax, true⟩, ⟨.stat (bytes "/data"), Except.ok ⟨true, 0⟩⟩,
    ⟨.stat (bytes "/data/.data"), Except.ok ⟨true, 0⟩⟩, ⟨.access keystoreFile, true⟩,
    ⟨.stat keystoreFile, Except.ok ⟨false, 102⟩⟩, ⟨.openFile keystoreFile .rdonly, Except.ok ()⟩,
    ⟨.read keystoreFile 102, Except.ok (storedText ++ [0])⟩, ⟨.cjsonParse storedText, some storedJson⟩,
    ⟨.alloc 178, true⟩, ⟨.alloc 11, true⟩]

set_option maxRecDepth 20000 in
private theorem storedKeystore_run :
    Run (onedriveClientConnect (bytes "/data") demoOptions freshThread) storedKeystore
      (some refreshedProcess.conn, freshThread) := by
  iterate 10 refine .ask _ _ _ ?_
  exact .refl _

theorem connect_authenticated_stored : refreshedProcess.conn.token.Complete := by
  have hnoticed : ¬ (Redirect.of storedKeystore).Unnoticed := by
    intro h
    rcases h with h | ⟨path, polls, h, -⟩
    · cases h
    · cases h
  exact (connect_authenticated_iff storedKeystore_run).2 (fun h => hnoticed h.2) _ rfl

/-- The directories are there and the keystore is not. -/
def noKeystore : Trace :=
  [⟨.alloc pathMax, true⟩, ⟨.stat (bytes "/data"), Except.ok ⟨true, 0⟩⟩,
    ⟨.stat (bytes "/data/.data"), Except.ok ⟨true, 0⟩⟩,
    ⟨.access keystoreFile, false⟩, ⟨.alloc 178, true⟩]

def redirectServer (created : Bool) : Trace :=
  [⟨.httpClientNew .getAuthorizeCode, true⟩,
    ⟨.curlUrlGet .url, Except.ok (bytes "https://login")⟩,
    ⟨.curlUrlGet .host, Except.ok (bytes "localhost")⟩, ⟨.curlUrlGet .port, Except.ok (bytes "12345")⟩,
    ⟨.curlUrlGet .path, Except.ok (bytes "/")⟩, ⟨.sbNewServer (bytes "localhost") (bytes "12345"), created⟩]

/-- The token of a connect that has not been authenticated. -/
def emptyToken : OAuthToken :=
  { demoToken with tokenType := none, accessToken := none, refreshToken := none, expiresAt := ⟨0, 0⟩ }

set_option maxRecDepth 10000 in
/-- The connect comes back without a token. -/
theorem connect_without_token :
    Run (onedriveClientConnect (bytes "/data") demoOptions freshThread)
        (noKeystore ++ redirectServer false)
        (some ⟨emptyToken, keystoreFile⟩, freshThread)
      ∧ ¬ emptyToken.Complete := by
  constructor
  · iterate 11 refine .ask _ _ _ ?_
    exact .refl _
  · intro h
    cases h.accessToken

end HiveSdk
