import HiveSdk.Interaction.Observe
import HiveSdk.Model.Connect

/-!
# The keystore file

The one file in which a connect keeps its tokens, on a machine that has memory and its directories in place. A writeback truncates the file and then writes to it, and either call may go wrong; whoever reads the file gets what is in it. How cJSON prints and parses is left open.
-/

namespace HiveSdk

open Interaction

/-- Where the keystore is, and how its contents are printed and parsed. -/
structure Keystore where
  path : Bytes
  print : Json → Bytes
  parse : Bytes → Option Json

/-- The file, and how much the writeback at hand has stored since it opened the file. -/
structure Saved where
  file : Option Bytes
  stored : Option Nat
  deriving DecidableEq, Repr

/-- A token with the strings and the time of a set. -/
structure OAuthToken.Holds (token : OAuthToken) (set : StoredTokens) : Prop where
  tokenType : token.tokenType = some set.tokenType
  accessToken : token.accessToken = some set.accessToken
  refreshToken : token.refreshToken = some set.refreshToken
  expiresAt : token.expiresAt.sec = set.expiresAt

namespace Keystore

variable (ks : Keystore)

def Step (s : Saved) : (e : Event) → e.Answer → Saved → Prop
  | .openFile path .wronlyTruncCreat, opened, t =>
      if path = ks.path ∧ opened = .ok () then t = ⟨some [], some 0⟩ else t = s
  | .write path data, written, t =>
      if path = ks.path then match written with
        | .ok n => n ≤ data.length ∧ t = ⟨some (s.file.getD [] ++ data.take n), some n⟩
        | .error _ => t = s
      else t = s
  | .access path, there, t => (path = ks.path → there = s.file.isSome) ∧ t = s
  | .stat path, info, t =>
      (if path = ks.path then ∀ content, s.file = some content → info = .ok ⟨false, content.length⟩
        else info = .ok ⟨true, 0⟩) ∧ t = s
  | .openFile path .rdonly, opened, t => (path = ks.path → s.file.isSome → opened = .ok ()) ∧ t = s
  | .read path count, data, t =>
      (path = ks.path → ∀ content, s.file = some content → data = .ok (content.take count)) ∧ t = s
  | .cjsonPrint json, text, t => text = some (ks.print json) ∧ t = s
  | .cjsonParse text, json, t => json = ks.parse text ∧ t = s
  | .alloc _, ok, t | .cjsonCreate, ok, t => ok = true ∧ t = s
  | _, _, t => t = s

def world : World Event Event.Answer Saved where
  pre _ _ := True
  step := ks.Step

variable {ks : Keystore} {σ : Type} {p : Process σ} {s : Saved}

/-- In this world `m` returns, and whenever it returns it gives a result as `Q` says. -/
structure Gives {α : Type} (ks : Keystore) (m : Hive σ α) (p : Process σ) (s : Saved) (Q : α → Prop) :
    Prop where
  returns : ∃ tr a p' t, Run (m p) tr (a, p') ∧ ks.world.Accepts s tr t
  result : ∀ tr a p' t, Run (m p) tr (a, p') → ks.world.Accepts s tr t → Q a

section
variable {α : Type} {m : Hive σ α} {P : α → Process σ → Saved → Prop} {Q : α → Prop}

theorem gives_of_wp (h : Proc.wp ks.world.responsive m P p s) (hQ : ∀ a p' t, P a p' t → Q a) :
    ks.Gives m p s Q where
  returns := by
    obtain ⟨tr, x, t, hrun, haccepts, -⟩ := Prog.exists_run_of_wp h
    exact ⟨tr, x.1, x.2, t, hrun, haccepts⟩
  result := by
    intro tr a p' t hrun haccepts
    have hresult := Prog.wp_run h hrun (World.accepts_responsive_iff.2 haccepts)
    exact hQ a p' t hresult

/-- What is given next to what is known. -/
theorem Gives.and_wp (h : ks.Gives m p s Q) (hwp : Proc.wp ks.world.responsive m P p s) :
    ∃ a p' t, Q a ∧ P a p' t := by
  obtain ⟨tr, x, t, hrun, haccepts, hP⟩ := Prog.exists_run_of_wp hwp
  exact ⟨x.1, x.2, t, h.result tr x.1 x.2 t hrun (haccepts), hP⟩

end

/-! ### Loading -/

theorem cString_of_zero {body rest : Bytes} (h : 0 ∉ body) : cString (body ++ 0 :: rest) = body := by
  have hkept : ∀ c ∈ body, (decide (c ≠ 0)) = true := by
    intro c hc
    exact decide_eq_true fun hzero => h (hzero ▸ hc)
  rw [cString, List.takeWhile_append_of_pos hkept]
  simp

/-- The file is too long for the buffer, or empty. -/
theorem wp_load_refused {content : Bytes} (hfile : s.file = some content)
    (hsize : content.length = 0 ∨ content.length > keystoreBufSize) :
    Proc.wp ks.world.responsive (loadKeystoreInJson ks.path) (fun json _ t => json = none ∧ t = s) p s := by
  have hstat : ∀ info t, ks.world.step s (.stat ks.path) info t
      ↔ info = Except.ok ⟨false, content.length⟩ ∧ t = s := by
    intro info t
    simp [world, Step, hfile]
  rw [loadKeystoreInJson, Proc.wp_bind, Proc.wp_responsive_call _ trivial hstat]
  dsimp only
  rw [if_pos hsize]
  exact ⟨rfl, rfl⟩

/-- The file fits the buffer, and a zero ends the text in it. -/
theorem wp_load {content body rest : Bytes} (hfile : s.file = some content)
    (hsize : ¬ (content.length = 0 ∨ content.length > keystoreBufSize)) (hbody : 0 ∉ body)
    (hbuf : content ++ List.replicate (keystoreBufSize - content.length) 0 = body ++ 0 :: rest) :
    Proc.wp ks.world.responsive (loadKeystoreInJson ks.path)
      (fun json _ t => json = ks.parse body ∧ t = s) p s := by
  have hstat : ∀ info t, ks.world.step s (.stat ks.path) info t
      ↔ info = Except.ok ⟨false, content.length⟩ ∧ t = s := by
    intro info t
    simp [world, Step, hfile]
  have hopen : ∀ opened t, ks.world.step s (.openFile ks.path .rdonly) opened t
      ↔ opened = Except.ok () ∧ t = s := by
    intro opened t
    simp [world, Step, hfile]
  have hread : ∀ data t, ks.world.step s (.read ks.path content.length) data t
      ↔ data = Except.ok content ∧ t = s := by
    intro data t
    simp [world, Step, hfile]
  have hparse : ∀ json t, ks.world.step s (.cjsonParse body) json t ↔ json = ks.parse body ∧ t = s :=
    fun _ _ => Iff.rfl
  have hzero : 0 ∈ content ++ List.replicate (keystoreBufSize - content.length) (0 : UInt8) := by
    rw [hbuf]
    simp
  rw [loadKeystoreInJson, Proc.wp_bind, Proc.wp_responsive_call _ trivial hstat]
  dsimp only
  rw [if_neg hsize, Proc.wp_bind, Proc.wp_responsive_call _ trivial hopen]
  dsimp only
  rw [Proc.wp_bind, Proc.wp_responsive_call _ trivial hread]
  dsimp only
  rw [if_neg (not_not.2 rfl), Proc.wp_bind, keystoreText, if_pos hzero, hbuf, cString_of_zero hbody,
    Proc.wp_pure, Proc.wp_bind, Proc.wp_responsive_call _ trivial hparse, Proc.wp_ite]
  exact ⟨fun _ => ⟨rfl, rfl⟩, fun _ => ⟨rfl, rfl⟩⟩

/-! ### Restoring -/

/-- The object that is written for a set of tokens. -/
def json (clientId : Bytes) (set : StoredTokens) : Json :=
  .object [(bytes "client_id", .string clientId), (bytes "token_type", .string set.tokenType),
    (bytes "access_token", .string set.accessToken), (bytes "refresh_token", .string set.refreshToken),
    (bytes "expires_at", .number (roundToDouble set.expiresAt))]

/-- The set as it comes back: the time has been a double. -/
def restored (set : StoredTokens) : StoredTokens :=
  { set with expiresAt := doubleToLong (roundToDouble set.expiresAt) }

theorem storedTokens_json (clientId : Bytes) (set : StoredTokens) :
    storedTokens (json clientId set) = some (restored set) := rfl

theorem step_alloc (n : Nat) (ok : Bool) (t : Saved) :
    ks.world.step s (.alloc n) ok t ↔ ok = true ∧ t = s := Iff.rfl

theorem wp_restoreAccessToken (set : StoredTokens) (token : OAuthToken) :
    Proc.wp ks.world.responsive (restoreAccessToken (some (json token.clientId set)) token)
      (fun result p' t => result.1 = 0 ∧ result.2.Holds (restored set) ∧ p' = p ∧ t = s) p s := by
  have hclient : ¬ ((json token.clientId set).getObjectItem (bytes "client_id")).bind Json.asString
      ≠ some token.clientId := fun hne => hne rfl
  rw [restoreAccessToken]
  dsimp only
  rw [if_neg hclient, storedTokens_json]
  dsimp only
  rw [Proc.wp_bind, Proc.wp_responsive_call true trivial (step_alloc _)]
  exact ⟨rfl, ⟨rfl, rfl, rfl, rfl⟩, rfl, rfl⟩

/-! ### Writing back -/

/-- The file while `text` is being written over `file`, wherever the writeback stops. -/
inductive Writing (file : Option Bytes) (text : Bytes) : Saved → Prop
  | untouched : Writing file text ⟨file, none⟩
  | cut (n : Nat) (hn : n ≤ text.length + 1) :
      Writing file text ⟨some ((text ++ [0]).take n), some n⟩

/-- The same world, in which each call is made while `text` is being written. -/
def during (ks : Keystore) (file : Option Bytes) (text : Bytes) : World Event Event.Answer Saved where
  pre s _ := Writing file text s
  step := ks.Step

theorem step_cjsonCreate (ok : Bool) (t : Saved) : ks.Step s .cjsonCreate ok t ↔ ok = true ∧ t = s := Iff.rfl

theorem step_cjsonPrint (value : Json) (text : Option Bytes) (t : Saved) :
    ks.Step s (.cjsonPrint value) text t ↔ text = some (ks.print value) ∧ t = s := Iff.rfl

theorem during_call {file : Option Bytes} {text : Bytes} {e : Event} {α : Type} {p : Process α} (r₀ : e.Answer)
    (hs : Writing file text s) (h : ∀ r t, ks.Step s e r t ↔ r = r₀ ∧ t = s)
    {Q : e.Answer → Process α → Saved → Prop} (hQ : Q r₀ p s) :
    Proc.wp (ks.during file text) (call e) Q p s := by
  rw [Proc.wp_call]
  refine ⟨hs, fun r t hstep => ?_⟩
  obtain ⟨rfl, rfl⟩ := (h r t).1 hstep
  exact hQ

private theorem during_addItem {file : Option Bytes} {text name : Bytes} {value : Json}
    {members : List (Bytes × Json)} {p : Process OneDriveConnect} (hs : Writing file text s)
    {Q : List (Bytes × Json) → Process OneDriveConnect → Saved → Prop}
    (h : Q (members ++ [(name, value)]) p s) :
    Proc.wp (ks.during file text) (addItem members name value) Q p s := by
  rw [addItem, Proc.wp_bind]
  apply during_call true hs step_cjsonCreate
  rw [if_pos rfl]
  exact h

private theorem during_oauthWriteback {file : Option Bytes} {value : Json} {p : Process OneDriveConnect}
    (hpath : p.conn.keystorePath = ks.path) :
    Proc.wp (ks.during file (ks.print value)) (oauthWriteback value)
      (fun _ _ => Writing file (ks.print value)) p ⟨file, none⟩ := by
  rw [oauthWriteback, Proc.wp_bind]
  apply during_call (some (ks.print value)) .untouched (step_cjsonPrint value)
  dsimp only
  rw [Proc.wp_ite, Proc.wp_pure, Proc.wp_bind, wp_getConn, hpath, Proc.wp_bind, Proc.wp_call]
  refine ⟨fun _ => .untouched, fun _ => ⟨.untouched, fun opened t hopened => ?_⟩⟩
  rcases opened with e | _
  · have hsame : t = ⟨file, none⟩ := by simpa [during, Step] using hopened
    rw [hsame]
    exact .untouched
  have hempty : t = ⟨some ((ks.print value ++ [0]).take 0), some 0⟩ := by
    simpa [during, Step] using hopened
  rw [hempty]
  dsimp only
  rw [Proc.wp_bind, Proc.wp_call]
  refine ⟨.cut 0 (Nat.zero_le _), fun written u hwritten => ?_⟩
  have hstep : ks.Step ⟨some [], some 0⟩ (.write ks.path (ks.print value ++ [0])) written u := hwritten
  have hcut : Writing file (ks.print value) u := by
    rcases written with e | n
    · have hsame : u = ⟨some [], some 0⟩ := by simpa [Step] using hstep
      rw [hsame]
      exact .cut 0 (Nat.zero_le _)
    · have hstored : n ≤ (ks.print value ++ [0]).length
          ∧ u = ⟨some ((ks.print value ++ [0]).take n), some n⟩ := by simpa [Step] using hstep
      rw [hstored.2]
      exact .cut n (by simpa using hstored.1)
  rcases written with e | n <;> simp only [Proc.wp_bind, Proc.wp_ite, Proc.wp_pure, wp_setErrno, Proc.wp_get]
  · exact ⟨fun _ => hcut, fun _ => hcut⟩
  · exact ⟨fun _ => hcut, fun _ => hcut⟩

/-- Wherever a writeback stops, the file is what it was, or the front of the new text. -/
theorem writing_of_steps {set : StoredTokens} {p : Process OneDriveConnect} {file : Option Bytes}
    {tr : Trace} {q : Prog Event Event.Answer (Unit × Process OneDriveConnect)} {x : Saved}
    (hpath : p.conn.keystorePath = ks.path) (hset : p.conn.token.Holds set)
    (hsteps : Steps (writebackTokens p) tr q) (haccepts : ks.world.Accepts ⟨file, none⟩ tr x) :
    Writing file (ks.print (json p.conn.token.clientId set)) x := by
  have hspec : Proc.wp (ks.during file (ks.print (json p.conn.token.clientId set))) writebackTokens
      (fun _ _ => Writing file (ks.print (json p.conn.token.clientId set))) p ⟨file, none⟩ := by
    rw [writebackTokens, Proc.wp_bind, wp_getToken, Proc.wp_bind]
    apply during_call true .untouched step_cjsonCreate
    rw [if_neg (by decide), Proc.wp_bind]
    apply during_addItem .untouched
    rw [hset.tokenType, hset.accessToken, hset.refreshToken, hset.expiresAt]
    simp only [Proc.wp_bind]
    apply during_addItem .untouched
    rw [Proc.wp_bind]
    apply during_addItem .untouched
    rw [Proc.wp_bind]
    apply during_addItem .untouched
    rw [Proc.wp_bind]
    apply during_addItem .untouched
    rw [Proc.wp_bind]
    exact Proc.wp_mono (fun _ _ _ h => h) (during_oauthWriteback hpath)
  have haccepts' : (ks.during file (ks.print (json p.conn.token.clientId set))).Accepts ⟨file, none⟩ tr x :=
    haccepts.mono fun _ _ _ _ hstep => hstep
  rcases q with ⟨_, p'⟩ | ⟨e, k⟩
  · have hdone := Prog.wp_run hspec hsteps haccepts'
    exact hdone
  · have hcalled := Prog.wp_steps hspec hsteps haccepts'
    exact hcalled

end Keystore

end HiveSdk
