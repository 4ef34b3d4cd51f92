import HiveSdk.Drive.Store
import HiveSdk.Files.Local

/-!
# Files that go up and come down

What the file functions are for: a content for every name. The calls that return 0 keep the items of the drive in step with such a store, on either way of uploading; and on a day without incidents the three functions that read a file agree with it about the length, the bytes and the absence.
-/

namespace HiveSdk

open Interaction OneDrive Filling

variable {env : Env} {p : Process OneDriveConnect} {s : Served}

/-! ### The abstract store -/

abbrev FileStore := Bytes → Option Bytes

/-- The calls that change files. A source of no bytes may be a null pointer. -/
inductive FileOp
  | put (source : Option Bytes) (name : Bytes)
  | putFile (source name : Bytes)
  | delete (name : Bytes)
  deriving DecidableEq, Repr

namespace FileOp

def name : FileOp → Bytes
  | put _ name | putFile _ name | delete name => name

/-- The content of the name after the operation, given the local files. -/
def content (files : LocalFiles) : FileOp → Option Bytes
  | put source _ => some (source.getD [])
  | putFile source _ => files source
  | delete _ => none

def apply (files : LocalFiles) (st : FileStore) (op : FileOp) : FileStore :=
  Function.update st op.name (op.content files)

/-- The public function that carries the operation out. -/
def call : FileOp → Hive OneDriveConnect Int
  | put source name =>
      hivePutFileFromBuffer (some OneDrive.table) source (source.getD []).length (some name)
  | putFile source name => hivePutFile (some OneDrive.table) (some source) (some name)
  | delete name => hiveDeleteFile (some OneDrive.table) (some name)

/-- The calls one after another, with all their results. -/
def callAll : List FileOp → Hive OneDriveConnect (List Int)
  | [] => return []
  | op :: ops => do
      let rc ← op.call
      let rcs ← callAll ops
      return rc :: rcs

end FileOp

/-- A name whose item can be looked up. -/
structure Fits (name : Bytes) : Prop where
  ne_nil : name ≠ []
  url : (Url.item (filePath name) []).text.length < maxUrlLen

theorem filePath_injective : Function.Injective filePath := by
  intro name name' h
  exact List.append_cancel_left h

/-- In a URL buffer there is no room for a path that `snprintf` would cut. -/
theorem Fits.path {name : Bytes} (h : Fits name) : (filePath name).length < pathMax := by
  have hurl := h.url
  simp only [Url.text, List.length_append, maxUrlLen] at hurl
  rw [pathMax]
  omega

theorem Fits.nonEmpty {name : Bytes} (h : Fits name) : nonEmpty (some name) = some name := by
  simp [HiveSdk.nonEmpty, h.ne_nil]

/-- What the drive holds under the names of files. -/
def Drive.files (d : Drive) : FileStore := fun name => d.items (filePath name)

/-- The drive holds the files of the store. -/
def Holds (d : Drive) (st : FileStore) : Prop := ∀ name, Fits name → d.files name = st name

theorem Holds.update {d d' : Drive} {st : FileStore} {name : Bytes} {item : Option Bytes}
    (h : Holds d st) (hitems : d'.items = Function.update d.items (filePath name) item) :
    Holds d' (Function.update st name item) := by
  intro name' hname'
  rw [Drive.files, hitems]
  by_cases heq : name' = name
  · rw [heq, Function.update_self, Function.update_self]
  · rw [Function.update_of_ne fun hpath => heq (filePath_injective hpath), Function.update_of_ne heq]
    exact h name' hname'

/-! ### Every call keeps the drive and the store in step -/

/-- A call that returns 0 has done what it says, and the token is the same. -/
private def Done (p : Process OneDriveConnect) (st : FileStore) (rc : Int)
    (p' : Process OneDriveConnect) (t : Served) : Prop :=
  rc = 0 → p'.conn = p.conn ∧ Holds t.drive st

private theorem done_failed {st : FileStore} {p' : Process OneDriveConnect} {t : Served} :
    Done p st (-1) p' t := fun h => absurd h (by decide)

private theorem wp_hivePutFileFromBuffer (source : Option Bytes) {name : Bytes} {st : FileStore}
    (hincident : ¬ env.reliable) (hvalid : env.Valid p.conn.token) (hname : Fits name)
    (hst : Holds s.drive st) : Proc.wp env.world
      (hivePutFileFromBuffer (some OneDrive.table) source (source.getD []).length (some name))
      (Done p (Function.update st name (some (source.getD [])))) p s := by
  unfold hivePutFileFromBuffer
  rw [hname.nonEmpty]
  dsimp only
  rw [Proc.wp_ite]
  refine ⟨fun _ => done_failed, fun _ => ?_⟩
  apply wp_dispatch
  rw [List.take_length]
  have hpath : snprintf pathMax (filePath name) = filePath name := snprintf_eq_self hname.path
  show Proc.wp env.world
    (Item.putFileFromBuffer (source.getD []) (snprintf pathMax (filePath name))) _ p s
  rw [hpath]
  apply wp_putFileFromBuffer hincident
  · intro p' t xs hkept hstored
    rw [if_neg (by decide)]
    exact fun _ => ⟨hkept hvalid, hst.update hstored.items⟩
  · intro rc p' t hrc
    rw [if_pos hrc]
    exact done_failed

private theorem wp_hiveDeleteFile {name : Bytes} {st : FileStore} (hincident : ¬ env.reliable)
    (hvalid : env.Valid p.conn.token) (hname : Fits name) (hst : Holds s.drive st) :
    Proc.wp env.world (hiveDeleteFile (some OneDrive.table) (some name))
      (Done p (Function.update st name none)) p s := by
  unfold hiveDeleteFile
  rw [hname.nonEmpty]
  apply wp_dispatch
  have hpath := hname.path
  show Proc.wp env.world (OneDrive.deleteFile name) _ p s
  rw [OneDrive.deleteFile, if_neg (by omega)]
  apply wp_deleteFile hincident
  · intro rc p' t xs hkept hrc hremoved
    rcases hrc with rfl | ⟨rfl, -⟩
    · rw [if_neg (by decide)]
      exact fun _ => ⟨hkept hvalid, hst.update hremoved.items⟩
    · rw [if_pos (intError_hiveHttpStatusError _).neg]
      exact done_failed
  · intro p' t xs hexpired
    exact absurd hvalid hexpired
  · intro rc p' t hrc
    rw [if_pos hrc.neg]
    exact done_failed

theorem wp_fileOp {files : LocalFiles} {st : FileStore} (op : FileOp) (hincident : ¬ env.reliable)
    (hvalid : env.Valid p.conn.token) (hname : Fits op.name) (hst : Holds s.drive st) :
    Proc.wp (env.world.prod files.still) op.call
      (fun rc p' x => rc = 0 → p'.conn = p.conn ∧ Holds x.1.drive (op.apply files st)) p (s, ()) := by
  have hstill : ∀ {α : Type} {m : Hive OneDriveConnect α} {p' : Process OneDriveConnect},
      Proc.wp files.still m (fun _ _ _ => True) p' () :=
    Proc.wp_of_forall (fun _ _ => trivial) fun _ _ _ => trivial
  cases op with
  | put source name =>
      have hput := wp_hivePutFileFromBuffer source hincident hvalid hname hst
      exact Proc.wp_prod hput hstill fun rc p' t _ h _ => h
  | putFile source name =>
      have hname' : nonEmpty (some name) = some name := Fits.nonEmpty hname
      rw [FileOp.call]
      unfold hivePutFile
      rw [hname']
      by_cases hsource : source = []
      · subst hsource
        exact fun h : (-1 : Int) = 0 => absurd h (by decide)
      have hsource' : nonEmpty (some source) = some source := by simp [nonEmpty, hsource]
      rw [hsource']
      dsimp only
      rw [Proc.wp_bind]
      apply LocalFiles.wp_readLocalFile
      · rintro e he (rfl | rfl) <;> cases he
      · intro e r t he hstep
        exact ((Env.step_local he).1 hstep).2
      · exact fun p' (h : (-1 : Int) = 0) => absurd h (by decide)
      · intro data hdata
        have hput := wp_hivePutFileFromBuffer (some data) hincident hvalid hname hst
        refine Proc.wp_prod hput hstill fun rc p' t _ h _ hzero => ?_
        rw [FileOp.apply, FileOp.content, hdata]
        exact h hzero
  | delete name =>
      have hdelete := wp_hiveDeleteFile hincident hvalid hname hst
      exact Proc.wp_prod hdelete hstill fun rc p' t _ h _ => h

theorem wp_fileOps {files : LocalFiles} {st : FileStore} (ops : List FileOp)
    (hincident : ¬ env.reliable) (hvalid : env.Valid p.conn.token) (hst : Holds s.drive st)
    (hnames : ∀ op ∈ ops, Fits op.name) :
    Proc.wp (env.world.prod files.still) (FileOp.callAll ops) (fun rcs p' x =>
      (∀ rc ∈ rcs, rc = 0) →
        p'.conn = p.conn ∧ Holds x.1.drive (ops.foldl (FileOp.apply files) st)) p (s, ()) := by
  induction ops generalizing p s st with
  | nil => exact fun _ => ⟨rfl, hst⟩
  | cons op ops ih =>
      rw [FileOp.callAll]
      apply Proc.wp_bind_of (wp_fileOp op hincident hvalid (hnames op List.mem_cons_self) hst)
      rintro rc p₁ ⟨t₁, _⟩ hstep
      by_cases hrc : rc = 0
      · obtain ⟨hconn, hst₁⟩ := hstep hrc
        have hvalid₁ : env.Valid p₁.conn.token := hconn ▸ hvalid
        apply Proc.wp_bind_of (ih hvalid₁ hst₁ fun op' hop' => hnames op' (List.mem_cons_of_mem op hop'))
        intro rcs p' x hrest hzero
        obtain ⟨hconn', hst'⟩ := hrest fun rc' hrc' => hzero rc' (List.mem_cons_of_mem rc hrc')
        exact ⟨hconn'.trans hconn, hst'⟩
      · rw [Proc.wp_bind]
        have hpre : ∀ x e, (env.world.prod files.still).pre x e :=
          fun _ _ => ⟨fun _ => hincident, trivial⟩
        apply Proc.wp_of_forall hpre
        intro rcs p' x hzero
        exact absurd (hzero rc List.mem_cons_self) hrc

/-! ### Reading -/

private theorem le_cSsize {n buflen : Nat} (h : n ≤ buflen) (hbuflen : buflen < 2 ^ 64)
    (hpos : 0 < cSsize buflen) : (n : Int) ≤ cSsize buflen := by
  by_cases hsmall : buflen < 2 ^ 63
  · rw [cSsize_eq_self] <;> omega
  · have hneg : cSsize buflen < 0 := by
      rw [cSsize, Int.bmod_def]
      omega
    omega

private theorem wp_hiveGetFileLength {name : Bytes} {Q : Int → Process OneDriveConnect → Served → Prop}
    (hreliable : env.reliable) (hready : env.Ready p.conn.token) (hname : Fits name)
    (hfound : ∀ content (p' : Process OneDriveConnect) t, s.drive.files name = some content →
      content.length < 2 ^ 63 → env.Ready p'.conn.token → t.drive.items = s.drive.items →
      Q content.length p' t)
    (habsent : ∀ (p' : Process OneDriveConnect) t, s.drive.files name = none → Q (-1) p' t) :
    Proc.wp env.world (hiveGetFileLength (some OneDrive.table) (some name)) Q p s := by
  have hpath := hname.path
  unfold hiveGetFileLength
  rw [hname.nonEmpty]
  show Proc.wp env.world (dispatchLength (some (lengthOf (OneDrive.getFileLength name)))) Q p s
  rw [dispatchLength, lengthOf, OneDrive.getFileLength, if_neg (by omega)]
  simp only [Proc.wp_bind]
  apply wp_getFileLength (fun _ => hready) (fun _ => hname.url)
  · intro content p' t xs hitem _ hasked hready' hlarge
    rw [Proc.wp_pure, if_neg (by simp), Proc.wp_pure]
    exact hfound content p' t hitem hlarge (hready' hreliable) hasked.items
  · intro p' t xs hitem _ _ _
    rw [Proc.wp_pure, if_pos (intError_hiveHttpStatusError _).neg]
    exact habsent _ t hitem
  · intro p' t xs hexpired
    exact absurd hready.valid hexpired
  · intro rc p' t hincident
    exact absurd hreliable hincident
  · intro p' t hincident
    exact absurd hreliable hincident

private theorem wp_hiveGetFileToBuffer {name block : Bytes} {buflen : Nat}
    {Q : Int × Bytes → Process OneDriveConnect → Served → Prop}
    (hreliable : env.reliable) (hready : env.Ready p.conn.token) (hname : Fits name)
    (hpos : buflen ≠ 0) (hbuflen : buflen < 2 ^ 64) (hblock : buflen ≤ block.length)
    (hroom : ∀ content, s.drive.files name = some content → content.length ≤ buflen)
    (hfound : ∀ content (p' : Process OneDriveConnect) t, s.drive.files name = some content →
      Q (content.length, content ++ block.drop content.length) p' t)
    (habsent : ∀ block' (p' : Process OneDriveConnect) t, s.drive.files name = none →
      Q (-1, block') p' t) :
    Proc.wp env.world (hiveGetFileToBuffer (some OneDrive.table) (some name) (some block) buflen)
      Q p s := by
  have hpath := hname.path
  unfold hiveGetFileToBuffer
  rw [hname.nonEmpty]
  dsimp only
  rw [if_neg hpos]
  show Proc.wp env.world
    (dispatchBuffer (some (bufferOf (OneDrive.getFileToBuffer name block buflen))) block) Q p s
  rw [dispatchBuffer, bufferOf, OneDrive.getFileToBuffer, if_neg (by omega)]
  simp only [Proc.wp_bind]
  apply wp_getFileToBuffer (fun _ => hready) (fun _ => hname.url)
  · intro _ content hcontent
    have hle := hroom content hcontent
    exact ⟨by omega, le_cSsize hle hbuflen⟩
  · intro content p' t xs hitem _ _ _
    dsimp only
    rw [Proc.wp_pure]
    dsimp only
    rw [if_neg (by simp), Proc.wp_pure]
    exact hfound content p' t hitem
  · intro block' p' t _ hitem
    dsimp only
    rw [Proc.wp_pure]
    dsimp only
    rw [if_pos (intError_hiveHttpStatusError _).neg, Proc.wp_bind, failWith, Proc.wp_bind,
      wp_hiveSetError, Proc.wp_pure, Proc.wp_pure]
    exact habsent block' _ t hitem
  · intro rc block' p' t hincident
    exact absurd hreliable hincident
  · intro code block' p' t hincident
    exact (hincident hreliable).elim

section
variable {files : LocalFiles} {name : Bytes}

/-- The look-up makes no call that touches a local file. -/
private theorem kept_hiveGetFileLength (hvalid : env.Valid p.conn.token) (hname : Fits name) :
    Proc.wp (LocalFiles.world env) (hiveGetFileLength (some OneDrive.table) (some name))
      (fun _ _ files' => files' = files) p files := by
  have hpath := hname.path
  unfold hiveGetFileLength
  rw [hname.nonEmpty]
  show Proc.wp _ (dispatchLength (some (lengthOf (OneDrive.getFileLength name)))) _ p files
  rw [dispatchLength, lengthOf, OneDrive.getFileLength, if_neg (by omega)]
  simp only [Proc.wp_bind]
  apply LocalFiles.wp_getFileLength hvalid
  intro exit p'
  rw [Proc.wp_pure, Proc.wp_ite]
  exact ⟨fun _ => rfl, fun _ => rfl⟩

private theorem kept_hiveGetFileToBuffer {block : Bytes} {buflen : Nat} (hvalid : env.Valid p.conn.token)
    (hname : Fits name) (hpos : buflen ≠ 0) :
    Proc.wp (LocalFiles.world env)
      (hiveGetFileToBuffer (some OneDrive.table) (some name) (some block) buflen)
      (fun _ _ files' => files' = files) p files := by
  have hpath := hname.path
  unfold hiveGetFileToBuffer
  rw [hname.nonEmpty]
  dsimp only
  rw [if_neg hpos]
  show Proc.wp _
    (dispatchBuffer (some (bufferOf (OneDrive.getFileToBuffer name block buflen))) block) _ p files
  rw [dispatchBuffer, bufferOf, OneDrive.getFileToBuffer, if_neg (by omega)]
  simp only [Proc.wp_bind]
  apply LocalFiles.wp_getFileToBuffer hvalid
  rintro ⟨exit, block'⟩ p'
  rw [Proc.wp_pure, Proc.wp_ite]
  exact ⟨fun _ => rfl, fun _ => rfl⟩

/-- A local call, in both worlds. -/
private theorem wp_call_both {e : Event} (he : Env.isLocal e)
    {Q : e.Answer → Process OneDriveConnect → Served × LocalFiles → Prop}
    (h : ∀ r files', env.Replies e r → files.Step e r files' → Q r p (s, files')) :
    Proc.wp (env.world.prod (LocalFiles.world env)) (call e) Q p (s, files) := by
  rw [Proc.wp_call]
  constructor
  · refine ⟨?_, trivial⟩
    rintro (rfl | rfl) <;> cases he
  · rintro r ⟨t, files'⟩ ⟨hquiet, -, hstep⟩
    obtain ⟨hr, hsame⟩ := (Env.step_local he).1 hquiet
    rw [show t = s from hsame]
    exact h r files' hr hstep

/-- A file that comes down is created, and written once. -/
private theorem wp_hiveGetFile_found {dst content : Bytes} (hreliable : env.reliable)
    (hready : env.Ready p.conn.token) (hname : Fits name) (hdst : dst ≠ []) (hnew : files dst = none)
    (hitem : s.drive.files name = some content) :
    Proc.wp (env.world.prod (LocalFiles.world env))
      (hiveGetFile (some OneDrive.table) (some name) (some dst)) (fun n _ x =>
        n = content.length ∧ x.2 = Function.update files dst (some content)) p (s, files) := by
  have hdst' : nonEmpty (some dst) = some dst := by simp [nonEmpty, hdst]
  unfold hiveGetFile
  rw [hname.nonEmpty, hdst']
  dsimp only
  rw [Proc.wp_bind]
  have hlookUp := wp_hiveGetFileLength (s := s) (Q := fun n p' t => n = content.length
    ∧ content.length < 2 ^ 63 ∧ env.Ready p'.conn.token ∧ t.drive.items = s.drive.items)
    hreliable hready hname
    (fun content' p' t hitem' hlarge hready' hitems => by
      obtain rfl : content = content' := Option.some.inj (hitem.symm.trans hitem')
      exact ⟨rfl, hlarge, hready', hitems⟩)
    (fun p' t hnone => by
      rw [hitem] at hnone
      cases hnone)
  refine Proc.wp_prod hlookUp (kept_hiveGetFileLength hready.valid hname) ?_
  intro n p₁ t files₁ hlooked hkept
  obtain ⟨rfl, hlarge, hready₁, hitems⟩ := hlooked
  have hitem₁ : t.drive.files name = some content := by
    rw [Drive.files, hitems]
    exact hitem
  rw [hkept, if_neg (by omega), createAndFill, Proc.wp_bind]
  apply wp_call_both rfl
  intro opened files₂ _ hopen
  obtain ⟨rfl, rfl⟩ : opened = .ok () ∧ files₂ = Function.update files dst (some []) :=
    hopen.1 hnew
  dsimp only
  rw [Proc.wp_ite]
  constructor
  · intro hzero
    have hnil : content = [] := List.length_eq_zero_iff.1 (by omega)
    subst hnil
    exact ⟨rfl, rfl⟩
  intro hpos
  have hsize : cSize (content.length : Int) = content.length := cSize_eq_self (by omega)
  rw [hsize, Proc.wp_bind]
  apply wp_call_both rfl
  rintro allocated files₃ hallocated hsame
  obtain rfl : files₃ = Function.update files dst (some []) := hsame
  rw [hallocated hreliable, if_neg (by decide), Proc.wp_bind]
  have hread : Proc.wp env.world (hiveGetFileToBuffer (some OneDrive.table) (some name)
      (some (List.replicate content.length 0)) content.length)
      (fun result _ _ => result = ((content.length : Int), content)) p₁ t := by
    apply wp_hiveGetFileToBuffer hreliable hready₁ hname (by omega) (by omega)
    · rw [List.length_replicate]
    · intro content' hcontent'
      obtain rfl : content = content' := Option.some.inj (hitem₁.symm.trans hcontent')
      exact Nat.le_refl _
    · intro content' p' u hcontent'
      obtain rfl : content = content' := Option.some.inj (hitem₁.symm.trans hcontent')
      rw [List.drop_replicate, Nat.sub_self, List.replicate_zero, List.append_nil]
    · intro block' p' u hnone
      rw [hitem₁] at hnone
      cases hnone
  refine Proc.wp_prod hread (kept_hiveGetFileToBuffer hready₁.valid hname (by omega)) ?_
  intro result p₄ t₄ files₄ hresult hkept₄
  rw [hresult, hkept₄]
  dsimp only
  rw [if_neg (by omega), Proc.wp_bind, writeBuffer, if_neg (by omega), Int.toNat_natCast, List.take_length,
    Proc.wp_bind]
  apply wp_call_both rfl
  intro written files₅ _ hwrite
  obtain ⟨rfl, rfl⟩ : written = .ok content.length ∧ _ := hwrite
  dsimp only
  rw [Proc.wp_pure, if_neg (by simp), Proc.wp_pure]
  refine ⟨rfl, ?_⟩
  rw [Function.update_self, Function.update_idem]
  rfl

/-- No file is created for an item that is absent. -/
private theorem wp_hiveGetFile_absent {dst : Bytes} (hreliable : env.reliable)
    (hready : env.Ready p.conn.token) (hname : Fits name) (hdst : dst ≠ [])
    (hitem : s.drive.files name = none) :
    Proc.wp (env.world.prod (LocalFiles.world env))
      (hiveGetFile (some OneDrive.table) (some name) (some dst)) (fun n _ x =>
        n = -1 ∧ x.2 = files) p (s, files) := by
  have hdst' : nonEmpty (some dst) = some dst := by simp [nonEmpty, hdst]
  unfold hiveGetFile
  rw [hname.nonEmpty, hdst']
  dsimp only
  rw [Proc.wp_bind]
  have hlookUp := wp_hiveGetFileLength (s := s) (Q := fun n _ _ => n = -1) hreliable hready hname
    (fun content p' t hitem' _ _ _ => by
      rw [hitem] at hitem'
      cases hitem')
    (fun _ _ _ => rfl)
  refine Proc.wp_prod hlookUp (kept_hiveGetFileLength hready.valid hname) ?_
  intro n p₁ t files₁ hn hkept
  rw [hn, if_pos (by decide), Proc.wp_pure]
  exact ⟨rfl, hkept⟩

end

/-! ### What is read after a run -/

/-- On a day without incidents nothing undefined happens in `m`, and what it gives and leaves in the local files is as `Q` says, however the contents are cut into pieces. -/
structure Env.Yields {α : Type} (env : Env) (m : Prog Event Event.Answer α) (s : Served)
    (files : LocalFiles) (Q : α → LocalFiles → Prop) : Prop where
  defined : ∀ tr e k t files', Steps m tr (.ask e k) → env.dependable.world.Accepts s tr t →
    (LocalFiles.world env.dependable).Accepts files tr files' → e ≠ .undefined ∧ e ≠ .diverge
  result : ∀ tr a t files', Run m tr a → env.dependable.world.Accepts s tr t →
    (LocalFiles.world env.dependable).Accepts files tr files' → Q a files'

theorem Env.yields_of_wp {α : Type} {m : Hive OneDriveConnect α}
    {P : α → Process OneDriveConnect → Served × LocalFiles → Prop} {files : LocalFiles}
    {Q : α × Process OneDriveConnect → LocalFiles → Prop}
    (h : Proc.wp (env.dependable.world.prod (LocalFiles.world env.dependable)) m P p (s, files))
    (hP : ∀ a p' x, P a p' x → Q (a, p') x.2) : env.Yields (m p) s files Q where
  defined := by
    intro tr e k t files' hsteps haccepts hlocal
    have hpre := (Prog.wp_steps h hsteps (World.prod_accepts haccepts hlocal)).1
    exact ⟨fun heq => hpre (.inl heq) trivial, fun heq => hpre (.inr heq) trivial⟩
  result := by
    rintro tr ⟨a, p'⟩ t files' hrun haccepts hlocal
    have hprog : (m p).wp (env.dependable.world.prod (LocalFiles.world env.dependable))
      (fun x => P x.1 x.2) (s, files) := h
    have hresult := Prog.wp_run hprog hrun (World.prod_accepts haccepts hlocal)
    exact hP a p' (t, files') hresult

/-- A function that leaves the local files alone. -/
private theorem Env.yields_of_read {α : Type} {m : Hive OneDriveConnect α} {P : α → Prop}
    {files : LocalFiles} (h : Proc.wp env.dependable.world m (fun a _ _ => P a) p s)
    (hkept : Proc.wp (LocalFiles.world env.dependable) m (fun _ _ files' => files' = files) p files) :
    env.Yields (m p) s files fun x files' => P x.1 ∧ files' = files := by
  have hboth : Proc.wp (env.dependable.world.prod (LocalFiles.world env.dependable)) m
      (fun a _ x => P a ∧ x.2 = files) p (s, files) :=
    Proc.wp_prod h hkept fun _ _ _ _ ha hfiles => ⟨ha, hfiles⟩
  exact Env.yields_of_wp hboth fun _ _ _ h => h

/-- The three functions that read the file `name`. -/
structure ReadsAs (env : Env) (p : Process OneDriveConnect) (s : Served) (name content : Bytes) :
    Prop where
  length : ∀ files, env.Yields (hiveGetFileLength (some OneDrive.table) (some name) p) s files
    fun x files' => x.1 = content.length ∧ files' = files
  buffer : ∀ files block buflen, max 1 content.length ≤ buflen → buflen < 2 ^ 64 →
    buflen ≤ block.length →
    env.Yields (hiveGetFileToBuffer (some OneDrive.table) (some name) (some block) buflen p) s files
      fun x files' => x.1 = ((content.length : Int), filled block content) ∧ files' = files
  file : ∀ files dst, dst ≠ [] → files dst = none →
    env.Yields (hiveGetFile (some OneDrive.table) (some name) (some dst) p) s files
      fun x files' => x.1 = content.length ∧ files' = Function.update files dst (some content)

/-- The same functions on a name without a file. -/
structure ReadsAbsent (env : Env) (p : Process OneDriveConnect) (s : Served) (name : Bytes) :
    Prop where
  length : ∀ files, env.Yields (hiveGetFileLength (some OneDrive.table) (some name) p) s files
    fun x files' => x.1 = -1 ∧ files' = files
  buffer : ∀ files block buflen, 1 ≤ buflen → buflen < 2 ^ 64 → buflen ≤ block.length →
    env.Yields (hiveGetFileToBuffer (some OneDrive.table) (some name) (some block) buflen p) s files
      fun x files' => x.1.1 = -1 ∧ files' = files
  file : ∀ files dst, dst ≠ [] →
    env.Yields (hiveGetFile (some OneDrive.table) (some name) (some dst) p) s files
      fun x files' => x.1 = -1 ∧ files' = files

private theorem readsAs_of_item {name content : Bytes} (hready : env.Ready p.conn.token)
    (hname : Fits name) (hitem : s.drive.files name = some content) : ReadsAs env p s name content := by
  have hready' : env.dependable.Ready p.conn.token := ⟨hready.present, hready.valid⟩
  refine ⟨fun files => ?_, fun files block buflen hmax hbuflen hblock => ?_,
    fun files dst hdst hnew => ?_⟩
  · have hlength : Proc.wp env.dependable.world
        (hiveGetFileLength (some OneDrive.table) (some name)) (fun n _ _ => n = content.length) p s := by
      apply wp_hiveGetFileLength trivial hready' hname
      · intro content' p' t hitem' _ _ _
        rw [hitem] at hitem'
        rw [Option.some.inj hitem']
      · intro p' t hnone
        rw [hitem] at hnone
        cases hnone
    exact Env.yields_of_read hlength (kept_hiveGetFileLength hready'.valid hname)
  · have hbuffer : Proc.wp env.dependable.world
        (hiveGetFileToBuffer (some OneDrive.table) (some name) (some block) buflen)
        (fun result _ _ => result = ((content.length : Int), filled block content)) p s := by
      apply wp_hiveGetFileToBuffer trivial hready' hname (by omega) hbuflen hblock
      · intro content' hitem'
        rw [hitem] at hitem'
        rw [← Option.some.inj hitem']
        omega
      · intro content' p' t hitem'
        rw [hitem] at hitem'
        rw [Option.some.inj hitem']
        rfl
      · intro block' p' t hnone
        rw [hitem] at hnone
        cases hnone
    have hpos : buflen ≠ 0 := by omega
    exact Env.yields_of_read hbuffer (kept_hiveGetFileToBuffer hready'.valid hname hpos)
  · exact Env.yields_of_wp (wp_hiveGetFile_found trivial hready' hname hdst hnew hitem)
      fun _ _ _ h => h

private theorem readsAbsent_of_item {name : Bytes} (hready : env.Ready p.conn.token)
    (hname : Fits name) (hitem : s.drive.files name = none) : ReadsAbsent env p s name := by
  have hready' : env.dependable.Ready p.conn.token := ⟨hready.present, hready.valid⟩
  refine ⟨fun files => ?_, fun files block buflen hpos hbuflen hblock => ?_, fun files dst hdst => ?_⟩
  · have hlength : Proc.wp env.dependable.world
        (hiveGetFileLength (some OneDrive.table) (some name)) (fun n _ _ => n = -1) p s := by
      apply wp_hiveGetFileLength trivial hready' hname
      · intro content p' t hitem'
        rw [hitem] at hitem'
        cases hitem'
      · exact fun _ _ _ => rfl
    exact Env.yields_of_read hlength (kept_hiveGetFileLength hready'.valid hname)
  · have hbuffer : Proc.wp env.dependable.world
        (hiveGetFileToBuffer (some OneDrive.table) (some name) (some block) buflen)
        (fun result _ _ => result.1 = -1) p s := by
      apply wp_hiveGetFileToBuffer trivial hready' hname (by omega) hbuflen hblock
      · intro content hitem'
        rw [hitem] at hitem'
        cases hitem'
      · intro content p' t hitem'
        rw [hitem] at hitem'
        cases hitem'
      · exact fun _ _ _ _ => rfl
    have hpos' : buflen ≠ 0 := by omega
    exact Env.yields_of_read (P := fun result : Int × Bytes => result.1 = -1) hbuffer
      (kept_hiveGetFileToBuffer hready'.valid hname hpos')
  · exact Env.yields_of_wp (wp_hiveGetFile_absent trivial hready' hname hdst hitem) fun _ _ _ h => h

/-- After calls that have all returned 0, every name reads as the file of the store: its length, its bytes, and a local file made of exactly these; and a name that holds no file, or no longer, cannot be read in any of the three ways. -/
theorem file_round_trip (env : Env) (files : LocalFiles) (ops : List FileOp)
    {p p' : Process OneDriveConnect} {s t : Served} {tr : Trace} {rcs : List Int}
    (hready : env.Ready p.conn.token) (hnames : ∀ op ∈ ops, Fits op.name)
    (hrun : Run (FileOp.callAll ops p) tr (rcs, p')) (haccepts : env.adverse.world.Accepts s tr t)
    (hfiles : ∀ entry ∈ tr, files.Answers entry.1 entry.2) (hzero : ∀ rc ∈ rcs, rc = 0)
    {name : Bytes} (hname : Fits name) :
    (∀ content, ops.foldl (FileOp.apply files) s.drive.files name = some content →
      ReadsAs env p' t name content)
    ∧ (ops.foldl (FileOp.apply files) s.drive.files name = none → ReadsAbsent env p' t name) := by
  have hcalls : Proc.wp (env.adverse.world.prod files.still) (FileOp.callAll ops)
      (fun rcs p' x => (∀ rc ∈ rcs, rc = 0) →
        p'.conn = p.conn ∧ Holds x.1.drive (ops.foldl (FileOp.apply files) s.drive.files)) p (s, ()) :=
    wp_fileOps ops (fun h => h) hready.valid (fun _ _ => rfl) hnames
  have hboth := World.prod_accepts haccepts (LocalFiles.still_accepts hfiles)
  obtain ⟨hconn, hholds⟩ := Prog.wp_run hcalls hrun hboth hzero
  have hready' : env.Ready p'.conn.token := by
    rw [show p'.conn = p.conn from hconn]
    exact hready
  constructor
  · intro content hcontent
    exact readsAs_of_item hready' hname ((hholds name hname).trans hcontent)
  · intro hnone
    exact readsAbsent_of_item hready' hname ((hholds name hname).trans hnone)

/-! The local file `/tmp/a` goes up as `a` and comes down as `/tmp/b`. -/

def hello : Bytes := bytes "hello"
def upName : Bytes := bytes "a"
def upSource : Bytes := bytes "/tmp/a"
def downTarget : Bytes := bytes "/tmp/b"

def upFiles : LocalFiles := fun path => if path = upSource then some hello else none

def upRequest : Request where
  method := .put
  url := .item (filePath upName) (bytes ":/content")
  headers := [(authorization, bytes "A")]
  body := hello

def downInfo (query : Item.InfoQuery) : Request where
  method := .get
  url := .item (filePath upName) []
  query := [(bytes "select", query.text)]
  headers := [(authorization, bytes "A")]

def up : Trace :=
  [⟨.openFile upSource .rdonly, .ok ()⟩, ⟨.lseekEnd upSource, (5 : Int)⟩, ⟨.alloc 5, true⟩,
    ⟨.read upSource 5, .ok hello⟩, ⟨.gettimeofday, demoTime⟩, ⟨.httpClientNew .putFileFromBuffer, true⟩,
    ⟨.perform upRequest, demoReply 201 []⟩]

def down : Trace :=
  [⟨.gettimeofday, demoTime⟩, ⟨.httpClientNew .getFileLength, true⟩,
    ⟨.perform (downInfo .size), demoReply 200 sizeText⟩] ++ collecting sizeText sizeJson
    ++ [⟨.openFile downTarget .wronlyCreatExcl, .ok ()⟩, ⟨.alloc 5, true⟩, ⟨.gettimeofday, demoTime⟩,
      ⟨.httpClientNew .getFileToBuffer, true⟩,
      ⟨.perform (downInfo .sizeAndDownloadUrl), demoReply 200 infoText⟩] ++ receiving
    ++ [⟨.perform demoDownload, demoReply 200 hello⟩, ⟨.write downTarget hello, .ok 5⟩]

private theorem up_run : Run (FileOp.callAll [.putFile upSource upName] demoProcess) up ([0], demoProcess) := by
  iterate 7 refine .ask _ _ _ ?_
  exact .refl _

unseal growSize in
set_option maxRecDepth 10000 in
private theorem down_run :
    Run (hiveGetFile (some OneDrive.table) (some upName) (some downTarget) demoProcess) down
      (5, demoProcess) := by
  iterate 16 refine .ask _ _ _ ?_
  exact .refl _

private theorem up_answers : ∀ entry ∈ up, upFiles.Answers entry.1 entry.2 := by
  have hsource : upFiles upSource = some hello := if_pos rfl
  intro entry hentry
  simp only [up, List.mem_cons, List.not_mem_nil, or_false] at hentry
  rcases hentry with rfl | rfl | rfl | rfl | rfl | rfl | rfl
  · exact fun _ => by rw [hsource]; rfl
  · intro content hcontent
    rw [← Option.some.inj (hsource.symm.trans hcontent)]
    decide
  · trivial
  · intro content xs hcontent hread
    rw [← Option.some.inj (hsource.symm.trans hcontent), ← Except.ok.inj hread]
    decide
  · trivial
  · trivial
  · trivial

private theorem up_accepts : ∃ t, storeEnv.adverse.world.Accepts (demoServed none) up t
    ∧ t.drive.items (filePath upName) = some hello := by
  refine ⟨_, Env.accepts_local rfl trivial <| Env.accepts_local rfl trivial <|
    Env.accepts_local rfl nofun <| Env.accepts_local rfl trivial <| Env.accepts_local rfl rfl <|
    Env.accepts_local rfl nofun <| Env.accepts_perform rfl (fun h => h.put (by decide)) <| .nil _, ?_⟩
  exact Drive.put_items_self _ (filePath upName) hello

private theorem down_accepts {s : Served} (hitem : s.drive.items (filePath upName) = some hello) :
    ∃ t, storeEnv.dependable.world.Accepts s down t := by
  have hself : storeEnv.dependable.parse infoText = some infoJson := storeEnv_parse []
  have hsized : storeEnv.dependable.parse sizeText = some sizeJson := storeEnv_parse_size []
  have hsize : infoJson.sizeItem (bytes "size") = some (hello.length : Int) := by decide
  have hnames : Env.Names s.drive (filePath upName) (downInfo .sizeAndDownloadUrl) infoJson
      { s.drive with downloads :=
          Function.update s.drive.downloads (bytes "https://dl.example/k") (some (filePath upName)) } := rfl
  refine ⟨_, Env.accepts_local rfl rfl <| Env.accepts_local rfl (fun _ => rfl) <|
    Env.accepts_info rfl hitem sizeText_leavesRoom storeEnv_says_size hsized (by decide) (names_of_size rfl _ _) <|
    Env.accepts_local rfl trivial <| Env.accepts_local rfl (fun _ => rfl) <|
    Env.accepts_local rfl rfl <| Env.accepts_local rfl (fun _ => rfl) <|
    Env.accepts_info rfl hitem infoText_leavesRoom storeEnv_says hself hsize hnames <|
    Env.accepts_exchange ⟨rfl, fun _ => ⟨filePath upName, hello, ?_, hitem, by decide⟩⟩
      (fun hsmall => hsmall) (fun _ => ⟨by decide, nofun, nofun, fun _ _ _ _ _ _ => rfl⟩) <|
    Env.accepts_local rfl trivial <| .nil _⟩
  simp only [Env.after, Function.update_self]

private theorem down_local : ∃ files',
    (LocalFiles.world storeEnv.dependable).Accepts (fun _ => none) down files' := by
  have hself : some infoJson = storeEnv.dependable.parse infoText := (storeEnv_parse []).symm
  have hsized : some sizeJson = storeEnv.dependable.parse sizeText := (storeEnv_parse_size []).symm
  have hzero : ∀ block, storeEnv.dependable.Replies (.heapAfter block) [0] := Env.replies_zero _
  have helse : ∀ {files files' : LocalFiles} {e : Event} {r : e.Answer} {tr : Trace},
      LocalFiles.isElsewhere e → storeEnv.dependable.Replies e r →
      (LocalFiles.world storeEnv.dependable).Accepts files tr files' →
      (LocalFiles.world storeEnv.dependable).Accepts files (⟨e, r⟩ :: tr) files' :=
    fun he hr h => .cons ((LocalFiles.step_elsewhere he).2 ⟨hr, rfl⟩) h
  refine ⟨_, helse rfl rfl <| helse rfl (fun _ => rfl) <| helse rfl trivial <|
    helse rfl (fun _ => rfl) <| helse rfl (hzero _) <| helse rfl (.inl hsized) <|
    .cons ⟨trivial, fun _ => ⟨rfl, rfl⟩, fun h => absurd rfl h⟩ <| helse rfl (fun _ => rfl) <|
    helse rfl rfl <| helse rfl (fun _ => rfl) <| helse rfl trivial <| helse rfl (fun _ => rfl) <|
    helse rfl (hzero _) <| helse rfl (.inl hself) <| helse rfl trivial <|
    .cons ⟨trivial, rfl, rfl⟩ <| .nil _⟩

theorem file_round_trip_hello :
    ∃ t u files', storeEnv.adverse.world.Accepts (demoServed none) up t
      ∧ storeEnv.dependable.world.Accepts t down u
      ∧ (LocalFiles.world storeEnv.dependable).Accepts (fun _ => none) down files'
      ∧ files' downTarget = some hello := by
  obtain ⟨t, haccepts, hitem⟩ := up_accepts
  obtain ⟨u, hdown⟩ := down_accepts hitem
  obtain ⟨files', hlocal⟩ := down_local
  have hready : storeEnv.Ready demoProcess.conn.token := by
    refine ⟨rfl, fun now hnow => ?_⟩
    rw [show now = demoTime from hnow]
    decide
  have hname : Fits upName := ⟨by decide, by decide⟩
  have hnames : ∀ op ∈ [FileOp.putFile upSource upName], Fits op.name := by
    intro op hop
    rw [List.mem_singleton.1 hop]
    exact hname
  have hzero : ∀ rc ∈ [(0 : Int)], rc = 0 := fun rc hrc => List.mem_singleton.1 hrc
  have hstore : [FileOp.putFile upSource upName].foldl (FileOp.apply upFiles)
      (demoServed none).drive.files upName = some hello := by
    rw [List.foldl_cons, List.foldl_nil, FileOp.apply, FileOp.name, Function.update_self, FileOp.content,
      upFiles, if_pos rfl]
  have hreads := (file_round_trip storeEnv upFiles [.putFile upSource upName] hready hnames up_run
    haccepts up_answers hzero hname).1 hello hstore
  have hfile := (hreads.file (fun _ => none) downTarget (by decide) rfl).result down _ u files'
    down_run hdown hlocal
  refine ⟨t, u, files', haccepts, hdown, hlocal, ?_⟩
  rw [hfile.2]
  exact Function.update_self ..

end HiveSdk
