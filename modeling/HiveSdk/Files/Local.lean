import HiveSdk.Drive.Requests
import HiveSdk.Errors.LookUps
import HiveSdk.Model.Api

/-!
# The local file system

Two functions move whole files between the local file system and the drive. What they need of the former is little: on the way up, that a file holds still while it is read; on the way down, the usual effect of creating and writing a file. Everything that goes on between a client and the drive leaves local files alone as long as the token is valid, since only a refresh writes the keystore.
-/

namespace HiveSdk

open Interaction OneDrive

/-- Local files by their paths. -/
abbrev LocalFiles := Bytes → Option Bytes

namespace LocalFiles

/-! ### Reading -/

/-- The answers about a file that holds still: it is opened only if it is there, its end is its length, and what is read of it is its front. -/
def Answers (files : LocalFiles) : (e : Event) → e.Answer → Prop
  | .openFile path .rdonly, opened => opened = .ok () → (files path).isSome
  | .lseekEnd path, size => ∀ content, files path = some content →
      size = (content.length : Int) ∧ content.length < 2 ^ 63
  | .read path count, data => ∀ content xs, files path = some content → data = .ok xs →
      xs <+: content ∧ xs.length ≤ count
  | _, _ => True

/-- The world in which local files hold still. -/
def still (files : LocalFiles) : World Event Event.Answer Unit where
  pre _ _ := True
  step _ e r _ := files.Answers e r

theorem still_accepts {files : LocalFiles} {tr : Trace}
    (h : ∀ entry ∈ tr, files.Answers entry.1 entry.2) : files.still.Accepts () tr () := by
  induction tr with
  | nil => exact .nil _
  | cons entry tr ih =>
      exact .cons (h entry List.mem_cons_self) (ih fun x hx => h x (List.mem_cons_of_mem entry hx))

/-- `readLocalFile` next to any other world: what it gives is the file. -/
theorem wp_readLocalFile {σ τ : Type} {W : World Event Event.Answer τ} {files : LocalFiles}
    {p : Process σ} {s : τ} {path : Bytes} {Q : Option Bytes → Process σ → τ × Unit → Prop}
    (hpre : ∀ e, Env.isLocal e → W.pre s e)
    (hstep : ∀ e r t, Env.isLocal e → W.step s e r t → t = s)
    (hfail : ∀ p' : Process σ, Q none p' (s, ()))
    (hok : ∀ data, files path = some data → Q (some data) p (s, ())) :
    Proc.wp (W.prod files.still) (readLocalFile path) Q p (s, ()) := by
  rw [readLocalFile, Proc.wp_bind, Proc.wp_call]
  refine ⟨⟨hpre _ rfl, trivial⟩, ?_⟩
  rintro opened ⟨t, _⟩ ⟨hquiet, hopened⟩
  obtain rfl := hstep _ _ t rfl hquiet
  rcases opened with e | u
  · exact hfail _
  obtain ⟨content, hcontent⟩ := Option.isSome_iff_exists.1 (hopened rfl)
  dsimp only
  rw [Proc.wp_bind, Proc.wp_call]
  refine ⟨⟨hpre _ rfl, trivial⟩, ?_⟩
  rintro size ⟨u, _⟩ ⟨hquiet, hsize⟩
  obtain rfl := hstep _ _ u rfl hquiet
  obtain ⟨rfl, hlong⟩ := hsize content hcontent
  have hself : cSize (content.length : Int) = content.length := cSize_eq_self (by omega)
  simp only [hself, Proc.wp_ite, Proc.wp_pure, Proc.wp_bind, wp_hiveSetError]
  refine ⟨fun _ => hfail _, fun _ => ?_⟩
  rw [Proc.wp_call]
  refine ⟨⟨hpre _ rfl, trivial⟩, ?_⟩
  rintro allocated ⟨v, _⟩ ⟨hquiet, -⟩
  obtain rfl := hstep _ _ v rfl hquiet
  rw [Proc.wp_ite]
  refine ⟨fun _ => hfail _, fun _ => ?_⟩
  rw [Proc.wp_bind, Proc.wp_call]
  refine ⟨⟨hpre _ rfl, trivial⟩, ?_⟩
  rintro data ⟨w, _⟩ ⟨hquiet, hdata⟩
  obtain rfl := hstep _ _ w rfl hquiet
  rcases data with e | data
  · exact hfail _
  dsimp only
  rw [Proc.wp_ite]
  refine ⟨fun _ => hfail _, fun hlength => ?_⟩
  obtain ⟨hfront, -⟩ := hdata content data hcontent rfl
  rw [hfront.eq_of_length (not_not.1 hlength)]
  exact hok content hcontent

/-! ### Writing -/

/-- What a call does to the local files when nothing goes wrong there. -/
def Step (files : LocalFiles) : (e : Event) → e.Answer → LocalFiles → Prop
  | .openFile path .wronlyCreatExcl, opened, files' =>
      (files path = none → opened = .ok () ∧ files' = Function.update files path (some []))
      ∧ (files path ≠ none → opened ≠ .ok () ∧ files' = files)
  | .openFile path .wronlyTruncCreat, opened, files' =>
      opened = .ok () ∧ files' = Function.update files path (some [])
  | .write path data, written, files' => written = .ok data.length
      ∧ files' = Function.update files path (some ((files path).getD [] ++ data))
  | .unlink path, _, files' => files' = Function.update files path none
  | _, _, files' => files' = files

/-- The world of local files, in which the clock goes as in `env`. -/
def world (env : Env) : World Event Event.Answer LocalFiles where
  pre _ _ := True
  step files e r files' := env.Replies e r ∧ files.Step e r files'

/-- The calls that leave local files alone. -/
def isElsewhere : Event → Bool
  | .openFile _ _ | .write _ _ | .unlink _ => false
  | _ => true

variable {env : Env} {files : LocalFiles}

theorem step_elsewhere {e : Event} {r : e.Answer} {files' : LocalFiles} (he : isElsewhere e) :
    (world env).step files e r files' ↔ env.Replies e r ∧ files' = files := by
  cases e <;> first | exact Iff.rfl | exact absurd he Bool.false_ne_true

theorem wp_call_elsewhere {σ : Type} {p : Process σ} {e : Event} (he : isElsewhere e)
    {Q : e.Answer → Process σ → LocalFiles → Prop} (h : ∀ r, env.Replies e r → Q r p files) :
    Proc.wp (world env) (call e) Q p files := by
  rw [Proc.wp_call]
  refine ⟨trivial, fun r files' hstep => ?_⟩
  obtain ⟨hr, rfl⟩ := (step_elsewhere he).1 hstep
  exact h r hr

section
variable {p : Process OneDriveConnect}

/-- What only asks leaves local files alone. -/
theorem wp_of_reads {α : Type} {m : Hive OneDriveConnect α}
    {Q : α → Process OneDriveConnect → LocalFiles → Prop}
    (hreads : Proc.wp (World.guard ReadCall) m (fun _ _ _ => True) p ())
    (h : ∀ a p', Q a p' files) : Proc.wp (world env) m Q p files := by
  have helsewhere : ∀ e, ReadCall e → isElsewhere e := by
    intro e he
    cases e <;> first | rfl | exact he.elim
  have hstep : ∀ files' e r t, files' = files → ReadCall e → (world env).step files' e r t →
      t = files := by
    rintro files' e r t rfl he hstep
    exact ((step_elsewhere (helsewhere e he)).1 hstep).2
  refine Proc.wp_frame hreads (fun _ _ _ _ => trivial) hstep rfl fun a p' files' _ hfiles => ?_
  rw [hfiles]
  exact h a p'

theorem wp_oauthTokenCheckExpire {Q : Int → Process OneDriveConnect → LocalFiles → Prop}
    (hvalid : env.Valid p.conn.token) (h : Q 0 p files) :
    Proc.wp (world env) oauthTokenCheckExpire Q p files := by
  simp only [oauthTokenCheckExpire, Proc.wp_bind, wp_getToken]
  apply wp_call_elsewhere rfl
  intro now hnow
  rw [hvalid now hnow]
  exact h

theorem wp_getFileLength {path : Bytes} {Q : Exit → Process OneDriveConnect → LocalFiles → Prop}
    (hvalid : env.Valid p.conn.token) (h : ∀ exit p', Q exit p' files) :
    Proc.wp (world env) (Item.getFileLength path) Q p files := by
  rw [Item.getFileLength, Proc.wp_bind]
  apply wp_oauthTokenCheckExpire hvalid
  rw [if_neg (by decide), Proc.wp_bind]
  apply wp_call_elsewhere rfl
  intro created _
  rw [Proc.wp_ite, Proc.wp_pure]
  refine ⟨fun _ => h _ p, fun _ => ?_⟩
  rw [Proc.wp_bind]
  apply wp_of_reads (Item.guard_getFileInfo fun _ _ => trivial)
  intro result p'
  rcases result with rc | info
  · exact h _ p'
  · exact h _ p'

theorem wp_getFileToBuffer {path block : Bytes} {buflen : Nat}
    {Q : Exit × Bytes → Process OneDriveConnect → LocalFiles → Prop}
    (hvalid : env.Valid p.conn.token) (h : ∀ result p', Q result p' files) :
    Proc.wp (world env) (Item.getFileToBuffer path block buflen) Q p files := by
  rw [Item.getFileToBuffer, Proc.wp_bind]
  apply wp_oauthTokenCheckExpire hvalid
  rw [if_neg (by decide), Proc.wp_bind]
  apply wp_call_elsewhere rfl
  intro created _
  rw [Proc.wp_ite, Proc.wp_pure]
  refine ⟨fun _ => h _ p, fun _ => ?_⟩
  rw [Proc.wp_bind]
  apply wp_of_reads (Item.guard_getFileInfo fun _ _ => trivial)
  intro result p'
  rcases result with rc | info
  · exact h _ p'
  simp only [Proc.wp_ite, Proc.wp_pure, Proc.wp_bind]
  refine ⟨fun _ => h _ p', fun _ => ⟨fun _ => h _ p', fun _ => ?_⟩⟩
  apply wp_of_reads (Item.guard_downloadFile fun _ _ => trivial)
  rintro ⟨rc, block'⟩ p''
  simp only [Proc.wp_ite, Proc.wp_pure]
  exact ⟨fun _ => h _ p'', fun _ => h _ p''⟩

end

end LocalFiles

end HiveSdk
