import HiveSdk.Connect.Blind
import HiveSdk.Connect.Login

/-!
# What a failed connect leaves in `hive_error`

A null pointer from `hive_client_connect` says nothing about the reason; that is what `hive_error` is for. An exit explains itself if the code in it is negative, is there whatever was there before the call, and comes from the step that failed. Two runs of the same call from different errors show whether a code was set: the exits that set one end in the same state, the others carry the difference along.
-/

namespace HiveSdk

open Interaction

variable {σ α β : Type}

/-! ### Steps that report -/

/-- The end of a step, from `p` and from the same state with the error `e`: a failure has set its own error, and a success has left the error alone. -/
inductive Ended (e : Int) : Option α × Process σ → Option α × Process σ → Prop
  | failed {p : Process σ} (hneg : p.hiveError < 0) : Ended e (none, p) (none, p)
  | passed (a : α) (p : Process σ) : Ended e (some a, p) (some a, withError e p)

/-- A step that sets an error exactly when it fails. -/
def Reports (m : Hive σ (Option α)) : Prop :=
  ∀ p e, Prog.Rel (Ended e) (m p) (m (withError e p))

theorem Reports.error {err : Int} (h : err < 0) : Reports (do
    hiveSetError err
    return none : Hive σ (Option α)) :=
  fun _ _ => .ret (.failed h)

theorem Reports.success (a : α) : Reports (pure (some a) : Hive σ (Option α)) :=
  fun p _ => .ret (.passed a p)

theorem Reports.after {m : Hive σ β} {f : β → Hive σ (Option α)} (h : LeavesError m)
    (hf : ∀ b, Reports (f b)) : Reports (m >>= f) := by
  intro p e
  apply Prog.Rel.bind (h p e)
  rintro x _ rfl
  exact hf x.1 x.2 e

theorem Reports.ite {c : Prop} [Decidable c] {m m' : Hive σ (Option α)} (h : Reports m)
    (h' : Reports m') : Reports (if c then m else m') := by
  split
  · exact h
  · exact h'

/-- What is done with `errno`. -/
theorem Reports.errno {f : Errno → Hive σ (Option α)} (hf : ∀ n, Reports (f n)) :
    Reports (get >>= fun p => f p.errno) := fun p e => hf p.errno p e

/-- A step after another one. -/
theorem Reports.bind {m : Hive σ (Option β)} {f : Option β → Hive σ (Option α)} (h : Reports m)
    (hnone : f none = pure none) (hf : ∀ b, Reports (f (some b))) : Reports (m >>= f) := by
  intro p e
  apply Prog.Rel.bind (h p e)
  rintro _ _ (hneg | ⟨b, q⟩)
  · show Prog.Rel _ (f none _) (f none _)
    rw [hnone]
    exact .ret (.failed hneg)
  · exact hf b q e

theorem Reports.failed {m : Hive σ (Option α)} (h : Reports m) {p p' : Process σ} {tr : Trace}
    (hrun : Run (m p) tr (none, p')) :
    p'.hiveError < 0 ∧ ∀ e, Run (m (withError e p)) tr (none, p') := by
  have hrel : ∀ e, Run (m (withError e p)) tr (none, p') ∧ p'.hiveError < 0 := by
    intro e
    obtain ⟨y, hrun', hy⟩ := (h p e).run hrun
    cases hy with
    | failed hneg => exact ⟨hrun', hneg⟩
  exact ⟨(hrel 0).2, fun e => (hrel e).1⟩

theorem Reports.passed {m : Hive σ (Option α)} (h : Reports m) {p p' : Process σ} {tr : Trace} {a : α}
    (hrun : Run (m p) tr (some a, p')) :
    p'.hiveError = p.hiveError ∧ ∀ e, Run (m (withError e p)) tr (some a, withError e p') := by
  have hrel : ∀ e, Run (m (withError e p)) tr (some a, withError e p') := by
    intro e
    obtain ⟨y, hrun', hy⟩ := (h p e).run hrun
    cases hy with
    | passed => exact hrun'
  have hsame : Run (m p) tr (some a, withError p.hiveError p') := hrel p.hiveError
  exact ⟨congrArg (fun x => x.2.hiveError) (hrun.unique hsame), hrel⟩

private theorem general_neg {code : Nat} (h : code < 2 ^ 24) : cInt (hiveGeneralError code) < 0 :=
  cInt_hiveMkError_neg .general h

private theorem sys_neg (e : Errno) : cInt (hiveSysError e) < 0 := cInt_hiveMkError_neg .sys (by omega)

/-! ### The steps of the backends -/

theorem reports_openKeystore (path : Bytes) : Reports (openKeystore path : Hive σ (Option (Option Json))) := by
  refine .after (.call _) fun there => .ite (.success _) ?_
  refine .after (leavesError_loadKeystoreInJson path) fun json => ?_
  rcases json with _ | json
  · exact Reports.errno (f := fun e => do
      hiveSetError (cInt (hiveSysError e))
      return none) fun e => .error (sys_neg e)
  · exact .success _

theorem reports_oauthTokenNew (opts : OAuthOptions) :
    Reports (oauthTokenNew opts : Hive σ (Option OAuthToken)) := by
  refine .after (.call _) fun allocated => .ite (.error (general_neg (by decide))) ?_
  exact .after (leavesError_restoreAccessToken _ _) fun x => .success x.2

theorem reports_rpcNew (nodes : List RpcNode) : Reports (Ipfs.rpcNew nodes : Hive σ (Option IpfsConnect)) := by
  refine .after (.call _) fun allocated => .ite (.error (general_neg (by decide))) ?_
  refine .after (leavesError_selectBootstrap nodes) fun x => ?_
  by_cases hneg : x.1 < 0
  · simp only [if_pos hneg]
    exact .error hneg
  · simp only [if_neg hneg]
    exact .success _

/-- `onedrive_client_connect` up to the token. -/
private def prepare (dataLocation : Bytes) (opts : OneDriveConnectOptions) : Hive σ (Option OAuthToken) :=
  match opts.check with
  | none => do
      hiveSetError invalidArgs
      return none
  | some checked => do
      if !(← call (Event.alloc pathMax)) then
        hiveSetError (cInt (hiveGeneralError HiveErr.outOfMemory))
        return none
      if (keystorePath dataLocation).length ≥ pathMax then
        hiveSetError invalidArgs
        return none
      let rc ← mkdirs (dirname (keystorePath dataLocation))
      let errno := (← get).errno
      if rc < 0 ∧ errno ≠ Errno.EEXIST then
        hiveSetError (cInt (hiveSysError errno))
        return none
      let some keystore ← openKeystore (keystorePath dataLocation) | return none
      oauthTokenNew (oauthOptions checked keystore)

/-- The rest of it. -/
private def login (dataLocation : Bytes) (token : OAuthToken) : Hive σ (Option OneDriveConnect) := do
  let (rc, connect) ← withConn ⟨token, keystorePath dataLocation⟩ oauthTokenRequest
  if rc < 0 then return none
  return some connect

private theorem onedriveClientConnect_eq (dataLocation : Bytes) (opts : OneDriveConnectOptions) :
    (onedriveClientConnect dataLocation opts : Hive σ (Option OneDriveConnect)) = (do
      let some token ← prepare dataLocation opts | return none
      login dataLocation token) := by
  rw [onedriveClientConnect, prepare]
  rcases opts.check with _ | checked
  · rfl
  dsimp only
  rw [bind_assoc]
  congr 1
  funext allocated
  rcases allocated with _ | _
  · rfl
  have hallocated : ¬ (!true) = true := by decide
  rw [if_neg hallocated, if_neg hallocated]
  by_cases hlong : (keystorePath dataLocation).length ≥ pathMax
  · rw [if_pos hlong, if_pos hlong]
    rfl
  rw [if_neg hlong, if_neg hlong, bind_assoc]
  congr 1
  funext rc
  rw [bind_assoc]
  congr 1
  funext p
  by_cases hmkdirs : rc < 0 ∧ p.errno ≠ Errno.EEXIST
  · rw [if_pos hmkdirs, if_pos hmkdirs]
    rfl
  rw [if_neg hmkdirs, if_neg hmkdirs, bind_assoc]
  congr 1
  funext keystore
  rcases keystore with _ | keystore <;> rfl

private theorem reports_prepare (dataLocation : Bytes) (opts : OneDriveConnectOptions) :
    Reports (prepare dataLocation opts : Hive σ (Option OAuthToken)) := by
  rw [prepare]
  rcases opts.check with _ | checked
  · exact .error (general_neg (by decide))
  refine .after (.call _) fun allocated => .ite (.error (general_neg (by decide))) ?_
  refine .ite (.error (general_neg (by decide))) (.after (leavesError_mkdirs _) fun rc => ?_)
  refine Reports.errno (f := fun e => if rc < 0 ∧ e ≠ Errno.EEXIST then do
      hiveSetError (cInt (hiveSysError e))
      return none else do
      let some keystore ← openKeystore (keystorePath dataLocation) | return none
      oauthTokenNew (oauthOptions checked keystore)) fun e => .ite (.error (sys_neg e)) ?_
  exact .bind (reports_openKeystore _) rfl fun keystore => reports_oauthTokenNew _

/-! ### The authorization code -/

/-- A function that may set an error but does not look at it: from two errors its ends are the same but for the error, if not the same altogether. -/
def Unaware (m : Hive σ α) : Prop :=
  ∀ p e, Prog.Rel (fun x y => x.1 = y.1 ∧ (y.2 = x.2 ∨ y.2 = withError e x.2)) (m p) (m (withError e p))

theorem Unaware.of_leaves {m : Hive σ α} (h : LeavesError m) : Unaware m := by
  intro p e
  apply (h p e).mono
  rintro x _ rfl
  exact ⟨rfl, .inr rfl⟩

theorem Unaware.setError (err : Int) : Unaware (hiveSetError err : Hive σ Unit) :=
  fun _ _ => .ret ⟨rfl, .inl rfl⟩

theorem Unaware.bind {m : Hive σ α} {f : α → Hive σ β} (h : Unaware m) (hf : ∀ a, Unaware (f a)) :
    Unaware (m >>= f) := by
  intro p e
  apply Prog.Rel.bind (h p e)
  rintro ⟨a, p₁⟩ ⟨b, q₁⟩ ⟨hresult, hstate⟩
  obtain rfl : a = b := hresult
  rcases hstate with hsame | hapart
  · obtain rfl : q₁ = p₁ := hsame
    exact .refl (fun x => ⟨rfl, .inl rfl⟩) _
  · obtain rfl : q₁ = withError e p₁ := hapart
    exact hf a p₁ e

theorem Unaware.ite {c : Prop} [Decidable c] {m m' : Hive σ α} (h : Unaware m) (h' : Unaware m') :
    Unaware (if c then m else m') := by
  split
  · exact h
  · exact h'

theorem Unaware.run {m : Hive σ α} (h : Unaware m) {p p' : Process σ} {tr : Trace} {a : α} (e : Int)
    (hrun : Run (m p) tr (a, p')) :
    ∃ q, Run (m (withError e p)) tr (a, q) ∧ (q = p' ∨ q = withError e p') := by
  obtain ⟨⟨_, q⟩, hrun', rfl, hq⟩ := (h p e).run hrun
  exact ⟨q, hrun', hq⟩

/-- Where every error makes the function end in a negative one, it makes it end in the same. -/
theorem Unaware.same {m : Hive σ α} (h : Unaware m) {p p' : Process σ} {tr : Trace} {a : α}
    (hrun : Run (m p) tr (a, p'))
    (hneg : ∀ e q, Run (m (withError e p)) tr (a, q) → q.hiveError < 0) (e : Int) :
    Run (m (withError e p)) tr (a, p') := by
  have hzero : ∀ q : Process σ, ¬ (withError 0 q).hiveError < 0 := fun _ => lt_irrefl 0
  -- a run from the error 0 ends in an error of its own, and in that of every other run
  obtain ⟨q₀, hrun₀, hq₀⟩ := h.run 0 hrun
  have hneg₀ := hneg 0 q₀ hrun₀
  have hp' : q₀ = p' := hq₀.resolve_right fun h => hzero p' (h ▸ hneg₀)
  obtain ⟨q, hrun', -⟩ := h.run e hrun
  obtain ⟨q₁, hrun₁, hq₁⟩ := h.run 0 hrun'
  have hsame : q₁ = q₀ := congrArg Prod.snd (hrun₁.unique hrun₀)
  have hq : q₁ = q := hq₁.resolve_right fun h => hzero q (h ▸ hsame ▸ hneg₀)
  rw [← hp', ← hsame, hq]
  exact hrun'

private theorem unaware_handleAuthRedirect (path : Bytes) (a : AuthRedirect) (e : SbEvent) :
    Unaware (handleAuthRedirect path a e) := by
  cases e with
  | connect => exact .of_leaves (.pure _)
  | close => exact .of_leaves (.pure _)
  | request reqPath stream =>
      refine .ite (.bind (.setError _) fun _ => .of_leaves (.pure _)) ?_
      exact .ite (.bind (.setError _) fun _ => .of_leaves (.pure _)) (.of_leaves (.pure _))

private theorem unaware_handleEvents (path : Bytes) (a : AuthRedirect) (es : List SbEvent) :
    Unaware (handleEvents path a es) := by
  induction es generalizing a with
  | nil => exact .of_leaves (.pure a)
  | cons e es ih => exact .bind (unaware_handleAuthRedirect path a e) ih

private theorem unaware_pollUntilStopped (path : Bytes) (a : AuthRedirect)
    (polls : List (List SbEvent)) : Unaware (pollUntilStopped path a polls) := by
  induction polls generalizing a with
  | nil =>
      rw [pollUntilStopped]
      exact .ite (.of_leaves (.pure a)) (.of_leaves (.bind (.call _) fun never => never.elim))
  | cons es polls ih =>
      rw [pollUntilStopped]
      exact .ite (.of_leaves (.pure a)) (.bind (unaware_handleEvents path a es) ih)

theorem unaware_getAuthorizeCode : Unaware getAuthorizeCode := by
  have hfail : ∀ err, Unaware (do
      hiveSetError err
      return none : Hive OneDriveConnect (Option Bytes)) :=
    fun err => .bind (.setError err) fun _ => .of_leaves (.pure none)
  refine .bind (.of_leaves (.call _)) fun created => .ite (hfail _) ?_
  apply Unaware.bind (.of_leaves (.call _))
  intro url
  rcases url with rc | url
  · exact hfail _
  apply Unaware.bind (.of_leaves (.call _))
  intro host
  rcases host with rc | host
  · exact hfail _
  apply Unaware.bind (.of_leaves (.call _))
  intro port
  rcases port with rc | port
  · exact hfail _
  apply Unaware.bind (.of_leaves (.call _))
  intro path
  rcases path with rc | path
  · exact hfail _
  refine .bind (.of_leaves (.call _)) fun server => .ite (.of_leaves (.pure none)) ?_
  apply Unaware.bind (.of_leaves (.call _))
  intro thread
  rcases thread with e | _
  · exact .bind (.of_leaves (leavesError_setErrno e)) fun _ => hfail _
  · refine .bind (.of_leaves (.call _)) fun polls => ?_
    exact .bind (unaware_pollUntilStopped path _ polls) fun a => .of_leaves (.pure _)

/-! ### How a login fails -/

/-- What is known of a request for a code from the reports of the redirect server. -/
inductive Asking (p : Process OneDriveConnect) (r : Redirect) :
    Option Bytes → Process OneDriveConnect → Prop
  | code (code : Bytes) (p' : Process OneDriveConnect) (hnoticed : ¬ r.Unnoticed)
      (hdelivered : r.Delivered) : Asking p r (some code) p'
  | error (p' : Process OneDriveConnect) (hnoticed : ¬ r.Unnoticed) (hdelivered : ¬ r.Delivered)
      (hneg : p'.hiveError < 0) : Asking p r none p'
  | unnoticed (p' : Process OneDriveConnect) (hunnoticed : r.Unnoticed) (hdelivered : ¬ r.Delivered)
      (hkept : p'.hiveError = p.hiveError) : Asking p r none p'

private theorem asking_of_run {p p' : Process OneDriveConnect} {tr : Trace} {o : Option Bytes}
    (hrun : Run (getAuthorizeCode p) tr (o, p')) :
    Asking p (Redirect.of tr) o p' ∧ ∀ entry ∈ tr, AuthorizeCall entry.1 := by
  have hspec : Proc.wp (World.monitor (fun _ e => AuthorizeCall e) Redirect.observe) getAuthorizeCode
      (fun o p' r => Asking p r o p') p {} :=
    authorizing_getAuthorizeCode (fun code p' r h h' _ => .code code p' h h')
      (fun err e conn r h hneg => .error _ h.1 h.2 hneg) fun p' r h hdelivered hkept _ =>
        .unnoticed p' h hdelivered hkept
  exact ⟨Proc.monitored hspec hrun, Prog.monitor_calls hspec hrun⟩

private theorem foldl_unobserved {φ : Event → Prop} (hφ : ∀ (r : Redirect) {e : Event} (answer : e.Answer),
    φ e → r.observe ⟨e, answer⟩ = r) {tr : Trace} (h : ∀ entry ∈ tr, φ entry.1) (r : Redirect) :
    tr.foldl Redirect.observe r = r := by
  induction tr with
  | nil => rfl
  | cons entry tr ih =>
      rw [List.foldl_cons, hφ r entry.2 (h entry List.mem_cons_self)]
      exact ih fun e he => h e (List.mem_cons_of_mem _ he)

private theorem prepare_calls {dataLocation : Bytes} {opts : OneDriveConnectOptions} {p p' : Process σ}
    {tr : Trace} {o : Option OAuthToken} (hrun : Run (prepare dataLocation opts p) tr (o, p')) :
    ∀ entry ∈ tr, KeystoreCall entry.1 := by
  have hspec : Proc.wp (World.guard KeystoreCall) (prepare dataLocation opts)
      (fun _ _ _ => True) p () := by
    rw [prepare]
    rcases opts.check with _ | checked
    · trivial
    dsimp only
    rw [Proc.wp_bind, Proc.wp_guard_call]
    refine ⟨trivial, fun allocated => ?_⟩
    rw [Proc.wp_ite, Proc.wp_ite, Proc.wp_bind (mkdirs _)]
    refine ⟨fun _ => trivial, fun _ => ⟨fun _ => trivial, fun _ => guard_mkdirs fun rc p₁ _ => ?_⟩⟩
    rw [Proc.wp_bind, Proc.wp_get, Proc.wp_ite, Proc.wp_bind (openKeystore _)]
    refine ⟨fun _ => trivial, fun _ => guard_openKeystore (fun _ => trivial) fun keystore p₂ _ => ?_⟩
    exact guard_oauthTokenNew (fun _ => trivial) fun _ _ _ _ => trivial
  exact Prog.guard_calls hspec hrun

private theorem redeem_calls {code : Bytes} {p p' : Process OneDriveConnect} {tr : Trace} {rc : Int}
    (hrun : Run (redeemAccessToken code p) tr (rc, p')) : ∀ entry ∈ tr, TokenCall entry.1 :=
  Prog.guard_calls (guard_requestToken (.inr rfl)) hrun

private theorem redeem_head {code : Bytes} {p p' : Process OneDriveConnect} {tr : Trace} {rc : Int}
    (hrun : Run (redeemAccessToken code p) tr (rc, p')) :
    ∃ created rest, tr = ⟨.httpClientNew .redeemAccessToken, created⟩ :: rest := by
  obtain ⟨created, rest, htr, -⟩ := run_ask_iff.1 hrun
  exact ⟨created, rest, htr⟩

/-- The ways in which `onedrive_client_connect` fails: before there is a token, without a code, and with a code that is not redeemed. -/
private inductive Failure (dataLocation : Bytes) (opts : OneDriveConnectOptions) (p p' : Process σ) :
    Trace → Prop
  | unprepared {tr : Trace} (hprepare : Run (prepare dataLocation opts p) tr (none, p')) :
      Failure dataLocation opts p p' tr
  | refused {tr₁ tr₂ : Trace} {token : OAuthToken} {q : Process σ} {c : Process OneDriveConnect}
      (hprepare : Run (prepare dataLocation opts p) tr₁ (some token, q))
      (habsent : token.accessToken = none)
      (hcode : Run (getAuthorizeCode ⟨q.hiveError, q.errno, ⟨token, keystorePath dataLocation⟩⟩) tr₂
        (none, c))
      (hneg : c.hiveError < 0) (hp' : p' = ⟨c.hiveError, c.errno, q.conn⟩) :
      Failure dataLocation opts p p' (tr₁ ++ tr₂)
  | unredeemed {tr₁ tr₂ tr₃ : Trace} {token : OAuthToken} {q : Process σ} {code : Bytes}
      {c d : Process OneDriveConnect} {rc : Int}
      (hprepare : Run (prepare dataLocation opts p) tr₁ (some token, q))
      (hcode : Run (getAuthorizeCode ⟨q.hiveError, q.errno, ⟨token, keystorePath dataLocation⟩⟩) tr₂
        (some code, c))
      (hredeem : Run (redeemAccessToken code c) tr₃ (rc, d)) :
      Failure dataLocation opts p p' (tr₁ ++ (tr₂ ++ tr₃))

private theorem request_failed {p p' : Process OneDriveConnect} {tr : Trace} {rc : Int}
    (hrun : Run (oauthTokenRequest p) tr (rc, p')) (hneg : rc < 0) :
    p.conn.token.accessToken = none
      ∧ (Run (getAuthorizeCode p) tr (none, p') ∧ rc = p'.hiveError
        ∨ ∃ code c tr₁ tr₂, tr = tr₁ ++ tr₂ ∧ Run (getAuthorizeCode p) tr₁ (some code, c)
          ∧ Run (redeemAccessToken code c) tr₂ (rc, p')) := by
  have hnneg : ¬ (0 : Int) < 0 := by decide
  obtain ⟨token, q, tr₁, tr₂, rfl, htoken, hrest⟩ := Proc.run_bind_iff.1 hrun
  obtain ⟨rfl, htoken⟩ := run_ret_iff.1 htoken
  cases htoken
  rcases haccess : p.conn.token.accessToken with _ | accessToken
  · rw [haccess, if_neg (by decide)] at hrest
    refine ⟨rfl, ?_⟩
    obtain ⟨o, c, tr₃, tr₄, rfl, hcode, hrest⟩ := Proc.run_bind_iff.1 hrest
    rcases o with _ | code
    · obtain ⟨rfl, hresult⟩ := run_ret_iff.1 hrest
      cases hresult
      rw [List.nil_append, List.append_nil]
      exact .inl ⟨hcode, rfl⟩
    · obtain ⟨rc', d, tr₅, tr₆, rfl, hredeem, hrest⟩ := Proc.run_bind_iff.1 hrest
      by_cases hrc : rc' < 0
      · rw [if_pos hrc] at hrest
        obtain ⟨rfl, hresult⟩ := run_ret_iff.1 hrest
        cases hresult
        rw [List.nil_append, List.append_nil]
        exact .inr ⟨code, c, tr₃, tr₅, rfl, hcode, hredeem⟩
      · rw [if_neg hrc] at hrest
        obtain ⟨_, _, tr₇, tr₈, rfl, -, hrest⟩ := Proc.run_bind_iff.1 hrest
        cases (run_ret_iff.1 hrest).2
        exact absurd hneg hnneg
  · rw [haccess, if_pos Option.isSome_some] at hrest
    cases (run_ret_iff.1 hrest).2
    exact absurd hneg hnneg

private theorem failure_of_run {dataLocation : Bytes} {opts : OneDriveConnectOptions} {p p' : Process σ}
    {tr : Trace} (hrun : Run (onedriveClientConnect dataLocation opts p) tr (none, p')) :
    Failure dataLocation opts p p' tr := by
  rw [onedriveClientConnect_eq] at hrun
  obtain ⟨o, q, tr₁, tr₂, rfl, hprepare, hrest⟩ := Proc.run_bind_iff.1 hrun
  rcases o with _ | token
  · obtain ⟨rfl, hq⟩ := run_ret_iff.1 hrest
    rw [List.append_nil]
    obtain rfl : p' = q := congrArg Prod.snd hq
    exact .unprepared hprepare
  obtain ⟨x, q', tr₃, tr₄, rfl, hconn, hreturn⟩ := Proc.run_bind_iff.1 hrest
  obtain ⟨x', tr₅, tr₆, rfl, hrequest, hleave⟩ := (run_bind_iff _ _).1 hconn
  obtain ⟨rfl, hx⟩ := run_ret_iff.1 hleave
  obtain ⟨rc, c⟩ := x'
  cases hx
  dsimp only at hreturn
  by_cases hneg : rc < 0
  · rw [if_pos hneg] at hreturn
    obtain ⟨rfl, hp'⟩ := run_ret_iff.1 hreturn
    rw [List.append_nil, List.append_nil]
    obtain ⟨habsent, ⟨hcode, hrc⟩ | ⟨code, d, tr₇, tr₈, rfl, hcode, hredeem⟩⟩ :=
      request_failed hrequest hneg
    · exact .refused hprepare habsent hcode (hrc ▸ hneg) (congrArg Prod.snd hp')
    · exact .unredeemed hprepare hcode hredeem
  · rw [if_neg hneg] at hreturn
    cases (run_ret_iff.1 hreturn).2

private theorem run_of_refused {dataLocation : Bytes} {opts : OneDriveConnectOptions} {p q : Process σ}
    {tr₁ tr₂ : Trace} {token : OAuthToken} {c : Process OneDriveConnect}
    (hprepare : Run (prepare dataLocation opts p) tr₁ (some token, q))
    (habsent : token.accessToken = none)
    (hcode : Run (getAuthorizeCode ⟨q.hiveError, q.errno, ⟨token, keystorePath dataLocation⟩⟩) tr₂
      (none, c)) (hneg : c.hiveError < 0) :
    Run (onedriveClientConnect dataLocation opts p) (tr₁ ++ tr₂)
      (none, ⟨c.hiveError, c.errno, q.conn⟩) := by
  have hrequest : Run (oauthTokenRequest ⟨q.hiveError, q.errno, ⟨token, keystorePath dataLocation⟩⟩) tr₂
      (c.hiveError, c) := by
    refine Proc.run_bind_iff.2 ⟨token, _, [], tr₂, rfl, .refl _, ?_⟩
    rw [habsent, if_neg (by decide)]
    exact Proc.run_bind_iff.2 ⟨none, c, tr₂, [], (List.append_nil _).symm, hcode, .refl _⟩
  rw [onedriveClientConnect_eq]
  refine Proc.run_bind_iff.2 ⟨some token, q, tr₁, tr₂, rfl, hprepare, ?_⟩
  refine Proc.run_bind_iff.2 ⟨(c.hiveError, c.conn), ⟨c.hiveError, c.errno, q.conn⟩, tr₂, [],
    (List.append_nil _).symm, ?_, ?_⟩
  · exact (run_bind_iff _ _).2 ⟨_, tr₂, [], (List.append_nil _).symm, hrequest, .refl _⟩
  · dsimp only
    rw [if_pos hneg]
    exact .refl _

/-! ### `hive_client_connect` -/

/-- A null pointer comes with a reason: the code is negative, it is there whatever `hive_error` was before, and if the call ended with the redemption of a code, which is the one step that is made after another that may set an error, the code is the one that this step leaves. -/
structure Explained (m : Hive σ (Option α)) (p p' : Process σ) (tr : Trace) : Prop where
  negative : p'.hiveError < 0
  fresh : ∀ e, Run (m (withError e p)) tr (none, p')
  own : ∀ code tr₁ tr₂ rc (q q' : Process OneDriveConnect), tr = tr₁ ++ tr₂ →
    Run (redeemAccessToken code q) tr₂ (rc, q') → q'.hiveError = p'.hiveError

private theorem redirect_prepared {tr₁ tr₂ : Trace} (h : ∀ entry ∈ tr₁, KeystoreCall entry.1) :
    Redirect.of (tr₁ ++ tr₂) = Redirect.of tr₂ := by
  rw [Redirect.of, List.foldl_append, foldl_unobserved Redirect.observe_keystoreCall h]
  rfl

private theorem redirect_redeemed {tr₁ tr₂ : Trace} (h : ∀ entry ∈ tr₂, TokenCall entry.1) :
    Redirect.of (tr₁ ++ tr₂) = Redirect.of tr₁ := by
  rw [Redirect.of, List.foldl_append, foldl_unobserved Redirect.observe_tokenCall h]
  rfl

/-- Where no redemption has begun there is none to blame. -/
private theorem own_of_calls {p' : Process σ} {tr : Trace}
    (h : ∀ entry ∈ tr, entry.1 ≠ .httpClientNew .redeemAccessToken) (code : Bytes) (tr₁ tr₂ : Trace)
    (rc : Int) (q q' : Process OneDriveConnect) (htr : tr = tr₁ ++ tr₂)
    (hrun : Run (redeemAccessToken code q) tr₂ (rc, q')) : q'.hiveError = p'.hiveError := by
  obtain ⟨created, rest, rfl⟩ := redeem_head hrun
  refine absurd rfl (h ⟨.httpClientNew .redeemAccessToken, created⟩ ?_)
  rw [htr]
  exact List.mem_append_right _ List.mem_cons_self

private theorem keystoreCall_ne {e : Event} (h : KeystoreCall e) :
    e ≠ .httpClientNew .redeemAccessToken := by
  rintro rfl
  exact h

private theorem authorizeCall_ne {e : Event} (h : AuthorizeCall e) :
    e ≠ .httpClientNew .redeemAccessToken := by
  rintro rfl
  cases h

/-- Where the redirect server fails unnoticed, the error is the one from before the call. -/
private theorem unnoticed_kept {dataLocation : Bytes} {opts : OneDriveConnectOptions} {p p' : Process σ}
    {tr : Trace} (hrun : Run (onedriveClientConnect dataLocation opts p) tr (none, p'))
    (hunnoticed : (Redirect.of tr).Unnoticed) : p'.hiveError = p.hiveError := by
  cases failure_of_run hrun with
  | unprepared hprepare =>
      have hnone : Redirect.of (tr ++ []) = Redirect.of [] := redirect_prepared (prepare_calls hprepare)
      rw [List.append_nil] at hnone
      rw [hnone] at hunnoticed
      exact absurd hunnoticed (Redirect.not_reported rfl rfl).1
  | refused hprepare habsent hcode hneg hp' =>
      rw [redirect_prepared (prepare_calls hprepare)] at hunnoticed
      obtain ⟨hasking, -⟩ := asking_of_run hcode
      cases hasking with
      | error _ hnoticed => exact absurd hunnoticed hnoticed
      | unnoticed _ _ _ hkept =>
          rw [hp']
          exact hkept.trans ((reports_prepare dataLocation opts).passed hprepare).1
  | unredeemed hprepare hcode hredeem =>
      rw [redirect_prepared (prepare_calls hprepare), redirect_redeemed (redeem_calls hredeem)]
        at hunnoticed
      obtain ⟨hasking, -⟩ := asking_of_run hcode
      cases hasking with
      | code _ _ hnoticed => exact absurd hunnoticed hnoticed

theorem onedrive_explained_iff {dataLocation : Bytes} {opts : OneDriveConnectOptions} {p p' : Process σ}
    {tr : Trace} (hrun : Run (onedriveClientConnect dataLocation opts p) tr (none, p')) :
    Explained (onedriveClientConnect dataLocation opts) p p' tr
      ↔ ¬ (Redirect.of tr).Unnoticed ∧ ¬ (Redirect.of tr).Delivered := by
  constructor
  · intro h
    constructor
    · intro hunnoticed
      have hkept := unnoticed_kept (h.fresh (p'.hiveError + 1)) hunnoticed
      have herror : p'.hiveError = p'.hiveError + 1 := hkept
      omega
    · intro hdelivered
      cases failure_of_run hrun with
      | unprepared hprepare =>
          have hnone : Redirect.of (tr ++ []) = Redirect.of [] := redirect_prepared (prepare_calls hprepare)
          rw [List.append_nil] at hnone
          rw [hnone] at hdelivered
          exact (Redirect.not_reported rfl rfl).2 hdelivered
      | refused hprepare habsent hcode hneg hp' =>
          rw [redirect_prepared (prepare_calls hprepare)] at hdelivered
          obtain ⟨hasking, -⟩ := asking_of_run hcode
          cases hasking with
          | error _ _ hnot => exact hnot hdelivered
          | unnoticed _ _ hnot => exact hnot hdelivered
      | @unredeemed tr₁ tr₂ tr₃ _ _ code c d rc hprepare hcode hredeem =>
          -- from another error, the same redemption leaves that one
          have hother := (leavesError_redeemAccessToken code).run (b := p'.hiveError + 1) hredeem
          have herror : p'.hiveError + 1 = p'.hiveError :=
            h.own code (tr₁ ++ tr₂) tr₃ rc _ _ (List.append_assoc ..).symm hother
          omega
  · rintro ⟨hnoticed, hdelivered⟩
    cases failure_of_run hrun with
    | unprepared hprepare =>
        obtain ⟨hneg, hfresh⟩ := (reports_prepare dataLocation opts).failed hprepare
        refine ⟨hneg, fun e => ?_, own_of_calls fun entry he => keystoreCall_ne (prepare_calls hprepare entry he)⟩
        rw [onedriveClientConnect_eq]
        exact Proc.run_bind_iff.2 ⟨none, p', tr, [], (List.append_nil _).symm, hfresh e, .refl _⟩
    | @refused tr₁ tr₂ token q c hprepare habsent hcode hneg hp' =>
        have hprepared := prepare_calls hprepare
        rw [redirect_prepared hprepared] at hnoticed
        obtain ⟨hkept, hprepare'⟩ := (reports_prepare dataLocation opts).passed hprepare
        have hsame := unaware_getAuthorizeCode.same hcode fun e c' hcode' => by
          obtain ⟨hasking, -⟩ := asking_of_run hcode'
          cases hasking with
          | error _ _ _ hneg => exact hneg
          | unnoticed _ hunnoticed => exact absurd hunnoticed hnoticed
        subst hp'
        refine ⟨hneg, fun e => ?_, own_of_calls fun entry he => ?_⟩
        · have hrun' := run_of_refused (q := withError e q) (hprepare' e) habsent (hsame e) hneg
          exact hrun'
        · rcases List.mem_append.1 he with he | he
          · exact keystoreCall_ne (hprepared entry he)
          · exact authorizeCall_ne ((asking_of_run hcode).2 entry he)
    | unredeemed hprepare hcode hredeem =>
        rw [redirect_prepared (prepare_calls hprepare), redirect_redeemed (redeem_calls hredeem)]
          at hdelivered
        obtain ⟨hasking, -⟩ := asking_of_run hcode
        cases hasking with
        | code _ _ _ hyes => exact absurd hyes hdelivered

/-- An exit that sets no error leaves the one before the call. -/
private theorem not_explained {m : Hive σ (Option α)} {p p' : Process σ} {tr : Trace}
    (h : ∀ e, Run (m (withError e p)) tr (none, withError e p')) : ¬ Explained m p p' tr := by
  intro hexplained
  have hsame := (hexplained.fresh (p'.hiveError + 1)).unique (h (p'.hiveError + 1))
  have herror : p'.hiveError = p'.hiveError + 1 := congrArg (fun x => x.2.hiveError) hsame
  omega

/-- What `ipfs_client_connect` checks without setting an error. -/
structure NodesAccepted (inetPton : InetPton) (opts : IpfsConnectOptions) (tr : Trace) : Prop where
  ne_nil : opts.rpcNodes ≠ []
  checked : (opts.rpcNodes.mapM (Ipfs.checkNode inetPton)).isSome
  allocated : tr.head? = some ⟨.alloc Ipfs.sizeofConnect, true⟩

/-- The calls of a probe of the nodes. -/
def ProbeCall : Event → Prop
  | .alloc _ | .rand | .perform _ | .diverge | .undefined => True
  | .httpClientNew caller => caller = .testReachable
  | _ => False

private theorem guard_tryAddress {p : Process σ} {ip : Bytes} {port : Nat}
    {Q : Bool → Process σ → Unit → Prop} (h : ∀ reached p', Q reached p' ()) :
    Proc.wp (World.guard ProbeCall) (Ipfs.tryAddress ip port) Q p () := by
  simp only [Ipfs.tryAddress, Ipfs.testReachable, httpClientRequest, Proc.wp_ite, Proc.wp_bind,
    Proc.wp_pure, Proc.wp_guard_call]
  refine ⟨fun _ => h _ _, fun _ => ⟨fun _ => h _ _, fun _ => ⟨rfl, fun created => ?_⟩⟩⟩
  refine ⟨fun _ => h _ _, fun _ => ⟨trivial, fun reply => ⟨fun _ => h _ _, fun _ => ?_⟩⟩⟩
  exact ⟨fun _ => h _ _, fun _ => ⟨fun _ => h _ _, fun _ => h _ _⟩⟩

private theorem guard_scanNodes {p : Process σ} {nodes : List RpcNode} {base steps i : Nat} :
    Proc.wp (World.guard ProbeCall) (Ipfs.scanNodes nodes base steps i) (fun _ _ _ => True) p () := by
  induction steps generalizing i p with
  | zero =>
      rw [Ipfs.scanNodes, Proc.wp_bind, Proc.wp_guard_call]
      exact ⟨trivial, fun never => never.elim⟩
  | succ steps ih =>
      rw [Ipfs.scanNodes]
      rcases nodes[i]? with _ | node
      · exact (wp_undefinedBehaviour ..).2 trivial
      dsimp only
      rw [Proc.wp_bind]
      apply guard_tryAddress
      intro reached p₁
      rw [Proc.wp_ite, Proc.wp_pure, Proc.wp_bind]
      refine ⟨fun _ => trivial, fun _ => guard_tryAddress fun reached p₂ => ?_⟩
      simp only [Proc.wp_ite, Proc.wp_pure]
      exact ⟨fun _ => trivial, fun _ => ⟨fun _ => ih, fun _ => trivial⟩⟩

private theorem rpcNew_calls {nodes : List RpcNode} {p p' : Process σ} {tr : Trace}
    {o : Option IpfsConnect} (hrun : Run (Ipfs.rpcNew nodes p) tr (o, p')) :
    ∀ entry ∈ tr, ProbeCall entry.1 := by
  have hspec : Proc.wp (World.guard ProbeCall) (Ipfs.rpcNew nodes) (fun _ _ _ => True) p () := by
    rw [Ipfs.rpcNew, Proc.wp_bind, Proc.wp_guard_call]
    refine ⟨trivial, fun allocated => ?_⟩
    rw [Proc.wp_ite, Proc.wp_bind (Ipfs.selectBootstrap nodes), Ipfs.selectBootstrap,
      Proc.wp_bind (call Event.rand), Proc.wp_guard_call]
    refine ⟨fun _ => trivial, fun _ => ⟨trivial, fun n => ?_⟩⟩
    refine Proc.wp_mono (fun x p₁ _ _ => ?_) guard_scanNodes
    rw [Proc.wp_ite]
    exact ⟨fun _ => trivial, fun _ => trivial⟩
  exact Prog.guard_calls hspec hrun

private theorem probeCall_ne {e : Event} (h : ProbeCall e) :
    e ≠ .httpClientNew .redeemAccessToken := by
  rintro rfl
  cases h

private theorem ipfs_explained_iff {inetPton : InetPton} {opts : IpfsConnectOptions} {p p' : Process σ}
    {tr : Trace} (hrun : Run (ipfsClientConnect inetPton opts p) tr (none, p')) :
    Explained (ipfsClientConnect inetPton opts) p p' tr ↔ NodesAccepted inetPton opts tr := by
  by_cases hnil : opts.rpcNodes = []
  · have hconnect : (ipfsClientConnect inetPton opts : Hive σ (Option IpfsConnect)) = pure none := by
      rw [ipfsClientConnect, if_pos hnil]
    rw [hconnect] at hrun ⊢
    obtain ⟨rfl, hresult⟩ := run_ret_iff.1 hrun
    cases hresult
    exact iff_of_false (not_explained fun _ => .refl _) fun h => h.ne_nil hnil
  rcases hnodes : opts.rpcNodes.mapM (Ipfs.checkNode inetPton) with _ | nodes
  · have hconnect : (ipfsClientConnect inetPton opts : Hive σ (Option IpfsConnect)) = pure none := by
      rw [ipfsClientConnect, if_neg hnil, hnodes]
    rw [hconnect] at hrun ⊢
    obtain ⟨rfl, hresult⟩ := run_ret_iff.1 hrun
    cases hresult
    refine iff_of_false (not_explained fun _ => .refl _) fun h => ?_
    have hchecked := h.checked
    rw [hnodes] at hchecked
    cases hchecked
  have hconnect : (ipfsClientConnect inetPton opts : Hive σ (Option IpfsConnect)) = (do
      if !(← call (Event.alloc Ipfs.sizeofConnect)) then return none
      Ipfs.rpcNew nodes) := by
    rw [ipfsClientConnect, if_neg hnil, hnodes]
  rw [hconnect] at hrun ⊢
  obtain ⟨allocated, rest, rfl, hrest⟩ := run_ask_iff.1 hrun
  rcases allocated with _ | _
  · obtain ⟨rfl, hresult⟩ := run_ret_iff.1 hrest
    cases hresult
    refine iff_of_false (not_explained fun e => ?_) fun h => (by cases h.allocated)
    refine .ask _ _ _ ?_
    exact .refl _
  · have hrest' : Run (Ipfs.rpcNew nodes p) rest (none, p') := hrest
    obtain ⟨hneg, hfresh⟩ := (reports_rpcNew nodes).failed hrest'
    have hchecked : (opts.rpcNodes.mapM (Ipfs.checkNode inetPton)).isSome := by
      rw [hnodes]
      rfl
    refine iff_of_true ⟨hneg, fun e => ?_, own_of_calls fun entry he => ?_⟩ ⟨hnil, hchecked, rfl⟩
    · refine .ask _ _ _ ?_
      exact hfresh e
    · rcases List.mem_cons.1 he with rfl | he
      · exact nofun
      · exact probeCall_ne (rpcNew_calls hrest' entry he)

/-- What a null pointer depends on: with no backend it is always explained. -/
def Explains (inetPton : InetPton) (client : Option Bytes) (opts : Option HiveConnectOptions)
    (tr : Trace) : Prop :=
  match client, opts with
  | some _, some (.ipfs opts) => opts.backendType = .ipfs → NodesAccepted inetPton opts tr
  | some _, some (.oneDrive opts) => opts.backendType = .oneDrive →
      ¬ (Redirect.of tr).Unnoticed ∧ ¬ (Redirect.of tr).Delivered
  | _, _ => True

private theorem run_map_none_iff {m : Hive σ (Option α)} {f : α → β} {p p' : Process σ} {tr : Trace} :
    Run ((do return (← m).map f : Hive σ (Option β)) p) tr (none, p') ↔ Run (m p) tr (none, p') := by
  rw [Proc.run_bind_iff]
  constructor
  · rintro ⟨o, q, tr₁, tr₂, rfl, hm, hreturn⟩
    obtain ⟨rfl, hresult⟩ := run_ret_iff.1 hreturn
    rw [List.append_nil]
    rcases o with _ | a
    · cases hresult
      exact hm
    · cases hresult
  · intro h
    exact ⟨none, p', tr, [], (List.append_nil _).symm, h, .refl _⟩

private theorem explained_map_iff {m : Hive σ (Option α)} {f : α → β} {p p' : Process σ} {tr : Trace} :
    Explained (do return (← m).map f) p p' tr ↔ Explained m p p' tr := by
  constructor
  · intro h
    exact ⟨h.negative, fun e => run_map_none_iff.1 (h.fresh e), h.own⟩
  · intro h
    exact ⟨h.negative, fun e => run_map_none_iff.2 (h.fresh e), h.own⟩

theorem connect_explained_iff {inetPton : InetPton} {client : Option Bytes}
    {opts : Option HiveConnectOptions} {p p' : Process σ} {tr : Trace}
    (hrun : Run (hiveClientConnect inetPton client opts p) tr (none, p')) :
    Explained (hiveClientConnect inetPton client opts) p p' tr ↔ Explains inetPton client opts tr := by
  have herror : ∀ err : Int, err < 0 → Run ((do
      hiveSetError err
      return none : Hive σ (Option Connection)) p) tr (none, p') →
      Explained (do
        hiveSetError err
        return none : Hive σ (Option Connection)) p p' tr := by
    intro err hneg hrun
    obtain ⟨rfl, hresult⟩ := run_ret_iff.1 hrun
    cases hresult
    exact ⟨hneg, fun _ => .refl _, own_of_calls fun _ he => (nomatch he)⟩
  rcases client with _ | dataLocation
  · exact iff_of_true (herror invalidArgs (general_neg (by decide)) hrun) trivial
  rcases opts with _ | opts
  · exact iff_of_true (herror invalidArgs (general_neg (by decide)) hrun) trivial
  have hmismatch : ¬ Run ((undefinedBehaviour : Hive σ (Option Connection)) p) tr (none, p') := by
    intro hrun
    obtain ⟨never, -⟩ := run_ask_iff.1 hrun
    exact never.elim
  unfold hiveClientConnect at hrun ⊢
  rcases opts with opts | opts
  · cases hbackend : opts.backendType with
    | ipfs =>
        simp only [HiveConnectOptions.backendType, hbackend] at hrun ⊢
        rw [explained_map_iff, ipfs_explained_iff (run_map_none_iff.1 hrun)]
        exact ⟨fun h _ => h, fun h => h hbackend⟩
    | oneDrive =>
        simp only [HiveConnectOptions.backendType, hbackend] at hrun
        exact absurd hrun hmismatch
    | ownCloud =>
        simp only [HiveConnectOptions.backendType, hbackend] at hrun ⊢
        exact iff_of_true (herror notSupported (general_neg (by decide)) hrun) fun h => by
          rw [hbackend] at h
          cases h
    | butt =>
        simp only [HiveConnectOptions.backendType, hbackend] at hrun ⊢
        exact iff_of_true (herror notSupported (general_neg (by decide)) hrun) fun h => by
          rw [hbackend] at h
          cases h
  · cases hbackend : opts.backendType with
    | ipfs =>
        simp only [HiveConnectOptions.backendType, hbackend] at hrun
        exact absurd hrun hmismatch
    | oneDrive =>
        simp only [HiveConnectOptions.backendType, hbackend] at hrun ⊢
        rw [explained_map_iff, onedrive_explained_iff (run_map_none_iff.1 hrun)]
        exact ⟨fun h _ => h, fun h => h hbackend⟩
    | ownCloud =>
        simp only [HiveConnectOptions.backendType, hbackend] at hrun ⊢
        exact iff_of_true (herror notSupported (general_neg (by decide)) hrun) fun h => by
          rw [hbackend] at h
          cases h
    | butt =>
        simp only [HiveConnectOptions.backendType, hbackend] at hrun ⊢
        exact iff_of_true (herror notSupported (general_neg (by decide)) hrun) fun h => by
          rw [hbackend] at h
          cases h

/-! A redirect URL without a host, and options without a node. -/

/-- A login that ends at the redirect URL, in which there is no host. -/
def noHost : Trace :=
  [⟨.httpClientNew .getAuthorizeCode, true⟩, ⟨.curlUrlGet .url, Except.ok (bytes "https://login")⟩,
    ⟨.curlUrlGet .host, Except.error 14⟩]

set_option maxRecDepth 10000 in
private theorem prepare_noKeystore :
    Run (prepare (bytes "/data") demoOptions freshThread) noKeystore (some emptyToken, freshThread) := by
  iterate 5 refine .ask _ _ _ ?_
  exact .refl _

private theorem run_oneDrive {inetPton : InetPton} {dataLocation : Bytes} {opts : OneDriveConnectOptions} {p p' : Process σ}
    {tr : Trace} (hbackend : opts.backendType = .oneDrive) (h : Run (onedriveClientConnect dataLocation opts p) tr (none, p')) :
    Run (hiveClientConnect inetPton (some dataLocation) (some (.oneDrive opts)) p) tr (none, p') := by
  unfold hiveClientConnect
  simp only [HiveConnectOptions.backendType, hbackend]
  exact run_map_none_iff.2 h

theorem connect_explained_noHost : Explained
    (hiveClientConnect (fun _ _ => true) (some (bytes "/data")) (some (.oneDrive demoOptions))) freshThread
    (withError (cInt (hiveCurluError 14)) freshThread) (noKeystore ++ noHost) := by
  have hcode : Run (getAuthorizeCode ⟨0, 0, ⟨emptyToken, keystorePath (bytes "/data")⟩⟩) noHost
      (none, ⟨cInt (hiveCurluError 14), 0, ⟨emptyToken, keystorePath (bytes "/data")⟩⟩) := by
    iterate 3 refine .ask _ _ _ ?_
    exact .refl _
  have hneg : cInt (hiveCurluError 14) < 0 := cInt_hiveMkError_neg .curlu (show 14 < 2 ^ 24 by omega)
  have hlogin := run_of_refused prepare_noKeystore rfl hcode hneg
  have hrun : Run (hiveClientConnect (fun _ _ => true) (some (bytes "/data")) (some (.oneDrive demoOptions)) freshThread)
      (noKeystore ++ noHost) (none, withError (cInt (hiveCurluError 14)) freshThread) := run_oneDrive rfl hlogin
  have hnoticed : Explains (fun _ _ => true) (some (bytes "/data")) (some (.oneDrive demoOptions)) (noKeystore ++ noHost) :=
    fun _ => Redirect.not_reported rfl rfl
  exact (connect_explained_iff hrun).2 hnoticed

def noNodes : HiveConnectOptions := .ipfs ⟨.ipfs, []⟩

theorem connect_unexplained_noNodes :
    Run (hiveClientConnect (fun _ _ => true) (some (bytes "/data")) (some noNodes) freshThread) []
        (none, freshThread)
      ∧ ¬ Explained (hiveClientConnect (fun _ _ => true) (some (bytes "/data")) (some noNodes))
        freshThread freshThread [] :=
  ⟨.refl _, not_explained fun _ => .refl _⟩

end HiveSdk
