import HiveSdk.Downloads.Exact
import HiveSdk.Files.Disk
import HiveSdk.Files.RoundTrip
import HiveSdk.Nodes.Session

/-!
# What a download leaves on the disk

`hive_get_file` and `hive_ipfs_get_file` create the destination before they fetch the content, and leave by several exits afterwards. The account that is kept on the way says which places have been touched: the destination once it is created, and the keystores that a refresh has saved. Only a write that falls short is followed by a removal, which the second function makes at the destination and the first at a path of its own.
-/

namespace HiveSdk

open Interaction

/-! ### The account -/

section
variable {Loc : Type} [DecidableEq Loc] {fs : FileSystem Loc} {files : Loc → Option Bytes} {dst : Bytes}

/-- What has been touched so far, on a disk that began with `files`. -/
structure Accounted (fs : FileSystem Loc) (files : Loc → Option Bytes) (dst : Bytes) (short : Bool)
    (x : Disk Loc × LocalCalls) : Prop where
  touched : ∀ loc, loc ∈ x.1.touched ↔ x.2.created = true ∧ loc = fs.locate dst
    ∨ ∃ k ∈ x.2.saved, loc = fs.locate k
  kept : ∀ loc, loc ∉ x.1.touched → x.1.entries loc = files loc
  present : ∀ loc ∈ x.1.touched, (x.1.entries loc).isSome
  fresh : x.2.created = true → files (fs.locate dst) = none
  storing : x.2.storing = false
  short : x.2.short = short

omit [DecidableEq Loc] in
theorem Accounted.initial : Accounted fs files dst false (⟨files, []⟩, {}) where
  touched loc := by simp
  kept _ _ := rfl
  present loc hloc := by cases hloc
  fresh h := by cases h
  storing := rfl
  short := rfl

/-- A place that gets an entry. -/
private theorem Accounted.put {x : Disk Loc × LocalCalls} {short short' : Bool} {loc : Loc} {content : Bytes}
    {c : LocalCalls} (h : Accounted fs files dst short x)
    (htouched : ∀ l, l = loc ∨ (x.2.created = true ∧ l = fs.locate dst ∨ ∃ k ∈ x.2.saved, l = fs.locate k) ↔
      c.created = true ∧ l = fs.locate dst ∨ ∃ k ∈ c.saved, l = fs.locate k)
    (hfresh : c.created = true → files (fs.locate dst) = none) (hstoring : c.storing = false)
    (hshort : c.short = short') : Accounted fs files dst short' (x.1.put loc (some content), c) where
  touched l := by
    rw [← htouched, ← h.touched l]
    exact List.mem_cons
  kept l hl := by
    obtain ⟨hne, hl⟩ := not_or.1 fun hor => hl (List.mem_cons.2 hor)
    exact (Function.update_of_ne hne ..).trans (h.kept l hl)
  present l hl := by
    show (Function.update x.1.entries loc (some content) l).isSome
    by_cases hloc : l = loc
    · rw [hloc, Function.update_self]
      rfl
    · rw [Function.update_of_ne hloc]
      exact h.present l ((List.mem_cons.1 hl).resolve_left hloc)
  fresh := hfresh
  storing := hstoring
  short := hshort

/-! ### The backends -/

section
variable {p : Process OneDriveConnect} {x : Disk Loc × LocalCalls}

/-- A keystore that is saved is one more place. -/
private theorem watched_oauthWriteback {json : Json} {short : Bool}
    {Q : Int → Process OneDriveConnect → Disk Loc × LocalCalls → Prop}
    (hx : Accounted fs files dst short x)
    (h : ∀ rc p' y, Accounted fs files dst short y → y.2.created = x.2.created → Q rc p' y) :
    Proc.wp fs.watched (oauthWriteback json) Q p x := by
  rw [oauthWriteback, Proc.wp_bind]
  apply watched_call_elsewhere rfl
  intro text
  rcases text with _ | text
  · exact h _ p x hx rfl
  dsimp only
  rw [Proc.wp_ite, Proc.wp_pure, Proc.wp_bind, wp_getConn, Proc.wp_bind, Proc.wp_call]
  refine ⟨fun _ => h _ p x hx rfl, fun _ => ⟨⟨trivial, trivial⟩, fun opened y hopen => ?_⟩⟩
  obtain ⟨hdisk, hcalls⟩ := hopen
  rcases opened with e | _
  · have hsame : y = x := Prod.ext (hdisk.2 (by simp)) hcalls
    rw [hsame]
    exact h _ _ x hx rfl
  have hopened : y = (x.1.put (fs.locate p.conn.keystorePath) (some []),
      { x.2 with saved := p.conn.keystorePath :: x.2.saved, storing := true }) := Prod.ext (hdisk.1 rfl) hcalls
  rw [hopened]
  -- the keystore is accounted for as soon as the write, however it ends, is over
  have hsaved : Accounted fs files dst short (x.1.put (fs.locate p.conn.keystorePath) (some []),
      { x.2 with saved := p.conn.keystorePath :: x.2.saved, storing := false }) := by
    apply hx.put
    · intro l
      simp only [List.mem_cons, exists_eq_or_imp]
      tauto
    · exact hx.fresh
    · rfl
    · exact hx.short
  dsimp only
  rw [Proc.wp_bind, Proc.wp_call]
  refine ⟨⟨trivial, trivial⟩, fun written z hwrite => ?_⟩
  obtain ⟨hdisk, hcalls⟩ := hwrite
  rcases written with e | n
  · have hfailed : z = (x.1.put (fs.locate p.conn.keystorePath) (some []),
        { x.2 with saved := p.conn.keystorePath :: x.2.saved, storing := false }) :=
      Prod.ext (hdisk.2 e rfl) hcalls
    rw [hfailed]
    simp only [Proc.wp_bind, Proc.wp_ite, Proc.wp_pure, wp_setErrno, Proc.wp_get]
    exact ⟨fun _ => h _ _ _ hsaved rfl, fun _ => h _ _ _ hsaved rfl⟩
  · have hcalls' : z.2 = { x.2 with saved := p.conn.keystorePath :: x.2.saved, storing := false } := hcalls
    have hsaved' : Accounted fs files dst short z := by
      rw [show z = (z.1, z.2) from rfl, (hdisk.1 n rfl).2, hcalls']
      apply hsaved.put
      · intro l
        simp only [List.mem_cons, exists_eq_or_imp]
        tauto
      · exact hx.fresh
      · rfl
      · exact hx.short
    have hcreated : z.2.created = x.2.created := by rw [hcalls']
    simp only [Proc.wp_bind, Proc.wp_ite, Proc.wp_pure, Proc.wp_get]
    exact ⟨fun _ => h _ _ _ hsaved' hcreated, fun _ => h _ _ _ hsaved' hcreated⟩

private theorem watched_writebackTokens {short : Bool}
    {Q : Unit → Process OneDriveConnect → Disk Loc × LocalCalls → Prop}
    (hx : Accounted fs files dst short x)
    (h : ∀ p' y, Accounted fs files dst short y → y.2.created = x.2.created → Q () p' y) :
    Proc.wp fs.watched writebackTokens Q p x := by
  apply wp_writebackTokens_of
  · exact ⟨trivial, trivial⟩
  · exact fun _ _ hstep => watched_elsewhere rfl hstep
  · exact fun _ => ⟨trivial, trivial⟩
  · exact h p x hx rfl
  · intro members
    exact watched_oauthWriteback hx fun _ p' y => h p' y

private theorem watched_oauthTokenCheckExpire {short : Bool}
    {Q : Int → Process OneDriveConnect → Disk Loc × LocalCalls → Prop}
    (hx : Accounted fs files dst short x)
    (h : ∀ rc p' y, Accounted fs files dst short y → y.2.created = x.2.created → Q rc p' y) :
    Proc.wp fs.watched oauthTokenCheckExpire Q p x := by
  have hask : ∀ e, AskCall e → LocalFiles.isElsewhere e := by
    intro e he
    cases e <;> first | rfl | exact he.elim
  rw [oauthTokenCheckExpire, Proc.wp_bind, wp_getToken, Proc.wp_bind]
  apply watched_call_elsewhere rfl
  intro now
  rw [Proc.wp_ite, Proc.wp_pure, Proc.wp_bind, refreshAccessToken, Proc.wp_bind, wp_getToken, Proc.wp_bind]
  refine ⟨fun _ => h 0 p x hx rfl, fun _ => ?_⟩
  apply watched_of_guard (guard_requestToken_ask (.inl rfl)) hask
  intro rc p' _
  rw [Proc.wp_ite, Proc.wp_pure, Proc.wp_ite, Proc.wp_pure, Proc.wp_pure, Proc.wp_bind]
  refine ⟨fun _ => ⟨fun _ => h _ p' x hx rfl, fun _ => h _ p' x hx rfl⟩, fun _ => ?_⟩
  apply watched_writebackTokens hx
  intro p'' y hy hcreated
  rw [Proc.wp_pure, Proc.wp_ite]
  exact ⟨fun _ => h _ p'' y hy hcreated, fun _ => h _ p'' y hy hcreated⟩

private theorem readCall_elsewhere {e : Event} (he : ReadCall e) : LocalFiles.isElsewhere e := by
  cases e <;> first | rfl | exact he.elim

private theorem watched_getFileLength {filename : Bytes} {short : Bool}
    {Q : Exit → Process OneDriveConnect → Disk Loc × LocalCalls → Prop}
    (hx : Accounted fs files dst short x)
    (h : ∀ exit p' y, Accounted fs files dst short y → y.2.created = x.2.created → Q exit p' y) :
    Proc.wp fs.watched (OneDrive.getFileLength filename) Q p x := by
  rw [OneDrive.getFileLength, Proc.wp_ite, Proc.wp_pure, Item.getFileLength, Proc.wp_bind]
  refine ⟨fun _ => h _ p x hx rfl, fun _ => ?_⟩
  apply watched_oauthTokenCheckExpire hx
  intro rc p₁ y hy hcreated
  rw [Proc.wp_ite, Proc.wp_pure, Proc.wp_bind]
  refine ⟨fun _ => h _ p₁ y hy hcreated, fun _ => ?_⟩
  apply watched_call_elsewhere rfl
  intro made
  rw [Proc.wp_ite, Proc.wp_pure, Proc.wp_bind]
  refine ⟨fun _ => h _ p₁ y hy hcreated, fun _ => ?_⟩
  apply watched_of_guard (P := fun _ _ => True) (Item.guard_getFileInfo fun _ _ => trivial)
    (fun _ => readCall_elsewhere)
  intro result p₂ _
  rcases result with rc | info
  · exact h _ p₂ y hy hcreated
  · exact h _ p₂ y hy hcreated

private theorem watched_getFileToBuffer {filename block : Bytes} {buflen : Nat} {short : Bool}
    {Q : Exit × Bytes → Process OneDriveConnect → Disk Loc × LocalCalls → Prop}
    (hx : Accounted fs files dst short x)
    (h : ∀ result p' y, Accounted fs files dst short y → y.2.created = x.2.created → Q result p' y) :
    Proc.wp fs.watched (OneDrive.getFileToBuffer filename block buflen) Q p x := by
  rw [OneDrive.getFileToBuffer, Proc.wp_ite, Proc.wp_pure, Item.getFileToBuffer, Proc.wp_bind]
  refine ⟨fun _ => h _ p x hx rfl, fun _ => ?_⟩
  apply watched_oauthTokenCheckExpire hx
  intro rc p₁ y hy hcreated
  rw [Proc.wp_ite, Proc.wp_pure, Proc.wp_bind]
  refine ⟨fun _ => h _ p₁ y hy hcreated, fun _ => ?_⟩
  apply watched_call_elsewhere rfl
  intro made
  rw [Proc.wp_ite, Proc.wp_pure, Proc.wp_bind]
  refine ⟨fun _ => h _ p₁ y hy hcreated, fun _ => ?_⟩
  apply watched_of_guard (P := fun _ _ => True) (Item.guard_getFileInfo fun _ _ => trivial)
    (fun _ => readCall_elsewhere)
  intro result p₂ _
  rcases result with rc | info
  · exact h _ p₂ y hy hcreated
  simp only [Proc.wp_ite, Proc.wp_pure, Proc.wp_bind]
  refine ⟨fun _ => h _ p₂ y hy hcreated, fun _ => ⟨fun _ => h _ p₂ y hy hcreated, fun _ => ?_⟩⟩
  apply watched_of_guard (P := fun _ _ => True) (Item.guard_downloadFile fun _ _ => trivial)
    (fun _ => readCall_elsewhere)
  intro result p₃ _
  simp only [Proc.wp_ite, Proc.wp_pure]
  exact ⟨fun _ => h _ p₃ y hy hcreated, fun _ => h _ p₃ y hy hcreated⟩

end

/-! ### Creating and filling the destination -/

/-- How a download ends: with everything on the account, or with a write that fell short and whatever `unlink` has done to the entry at `doomed`. -/
inductive DownloadEnded (fs : FileSystem Loc) (files : Loc → Option Bytes) (dst doomed : Bytes) :
    Disk Loc × LocalCalls → Prop
  | accounted {x} (h : Accounted fs files dst false x) : DownloadEnded fs files dst doomed x
  | short {x} (h : Accounted fs files dst true x) (hcreated : x.2.created = true) :
      DownloadEnded fs files dst doomed (fs.unlinked x.1 doomed, x.2)

section
variable {σ : Type} {p : Process σ} {x : Disk Loc × LocalCalls} {doomed : Bytes}

private theorem watched_unlink {path : Bytes} {Q : Unit → Process σ → Disk Loc × LocalCalls → Prop}
    (h : ∀ p', Q () p' (fs.unlinked x.1 path, x.2)) : Proc.wp fs.watched (unlink path) Q p x := by
  rw [unlink, Proc.wp_bind, Proc.wp_call]
  refine ⟨⟨trivial, trivial⟩, fun r y hstep => ?_⟩
  have hy : y = (fs.unlinked x.1 path, x.2) := Prod.ext hstep.1 hstep.2
  rw [hy]
  rcases r with e | _
  · exact h _
  · exact h _

/-- `I` is what is known besides of the calls: in some backends, that there is no keystore. -/
private theorem watched_createAndFill {I : LocalCalls → Prop} {fsize : Int}
    {fetch : Nat → Hive σ (Int × Bytes)} {clear : Hive σ Unit}
    {Q : Int → Process σ → Disk Loc × LocalCalls → Prop}
    (hx : Accounted fs files dst false x) (hI : I x.2)
    (hcreate : ∀ c, I c → I { c with created := true })
    (hshort : ∀ c short, I c → I { c with short := short })
    (hfetch : ∀ size p x P, Accounted fs files dst false x → I x.2 →
      (∀ a p' y, Accounted fs files dst false y → I y.2 → y.2.created = x.2.created → P a p' y) →
      Proc.wp fs.watched (fetch size) P p x)
    (hclear : ∀ p x P, (∀ p', P () p' (fs.unlinked x.1 doomed, x.2)) → Proc.wp fs.watched clear P p x)
    (h : ∀ rc p' y, DownloadEnded fs files dst doomed y → I y.2 → Q rc p' y) :
    Proc.wp fs.watched (createAndFill dst fsize fetch clear) Q p x := by
  rw [createAndFill, Proc.wp_bind, Proc.wp_call]
  refine ⟨⟨trivial, trivial⟩, fun opened y hopen => ?_⟩
  obtain ⟨hdisk, hcalls⟩ := hopen
  rcases opened with e | _
  · have hsame : y = x := Prod.ext (hdisk.2 (by simp)) hcalls
    rw [hsame]
    exact h _ _ x (.accounted hx) hI
  obtain ⟨habsent, hput⟩ := hdisk.1 rfl
  have hcalls' : y.2 = { x.2 with created := true } := hcalls
  have hcreated : y.2.created = true := by rw [hcalls']
  have hIy : I y.2 := hcalls' ▸ hcreate _ hI
  -- nothing was there before, for a place on the account would have an entry
  have hfresh : files (fs.locate dst) = none := by
    rw [← hx.kept, habsent]
    intro hmem
    have hsome := hx.present _ hmem
    rw [habsent] at hsome
    cases hsome
  have hy : Accounted fs files dst false y := by
    rw [show y = (y.1, y.2) from rfl, hput, hcalls']
    apply hx.put
    · intro l
      tauto
    · exact fun _ => hfresh
    · exact hx.storing
    · exact hx.short
  dsimp only
  rw [Proc.wp_ite, Proc.wp_pure, Proc.wp_bind]
  refine ⟨fun _ => h _ p y (.accounted hy) hIy, fun _ => ?_⟩
  apply watched_call_elsewhere rfl
  intro allocated
  rw [Proc.wp_ite]
  refine ⟨fun _ => h _ _ y (.accounted hy) hIy, fun _ => ?_⟩
  rw [Proc.wp_bind]
  apply hfetch _ _ _ _ hy hIy
  intro result p₁ z hz hIz hzcreated
  rw [Proc.wp_ite, Proc.wp_pure, Proc.wp_bind, writeBuffer, Proc.wp_ite]
  refine ⟨fun _ => h _ p₁ z (.accounted hz) hIz, fun hnneg =>
    ⟨fun _ => ?_, fun hfits => ?_⟩⟩
  · rw [Proc.wp_bind]
    exact (wp_undefinedBehaviour ..).2 ⟨trivial, trivial⟩
  have hlength : ((result.2.take result.1.toNat).length : Int) = result.1 := by
    rw [List.length_take]
    omega
  have hcleared : ∀ p' w, Accounted fs files dst true w → I w.2 → w.2.created = true →
      Proc.wp fs.watched (do clear; return -1) Q p' w := by
    intro p' w hw hIw hwcreated
    rw [Proc.wp_bind]
    apply hclear
    intro p''
    exact h _ p'' _ (.short hw hwcreated) hIw
  rw [Proc.wp_bind, Proc.wp_call]
  refine ⟨⟨trivial, trivial⟩, fun written w hwrite => ?_⟩
  obtain ⟨hdisk, hcalls⟩ := hwrite
  have hobserved := hcalls.trans (LocalCalls.observe_write hz.storing written)
  rcases written with e | n
  · have hw : w = (z.1, { z.2 with short := true }) := Prod.ext (hdisk.2 e rfl) hobserved
    rw [hw]
    simp only [Proc.wp_bind, wp_setErrno, Proc.wp_pure]
    rw [if_pos (by omega)]
    refine hcleared _ _ ?_ (hshort _ _ hIz) (hzcreated.trans hcreated)
    exact ⟨hz.touched, hz.kept, hz.present, hz.fresh, hz.storing, rfl⟩
  obtain ⟨hle, hput⟩ := hdisk.1 n rfl
  have hobserved' : w.2 = { z.2 with short := decide (n ≠ (result.2.take result.1.toNat).length) } := hobserved
  have hw : Accounted fs files dst (decide (n ≠ (result.2.take result.1.toNat).length)) w := by
    rw [show w = (w.1, w.2) from rfl, hput, hobserved']
    apply hz.put
    · intro l
      show _ ↔ z.2.created = true ∧ l = fs.locate dst ∨ ∃ k ∈ z.2.saved, l = fs.locate k
      have hzcreated' := hzcreated.trans hcreated
      tauto
    · exact hz.fresh
    · exact hz.storing
    · rfl
  have hIw : I w.2 := hobserved' ▸ hshort _ _ hIz
  have hwcreated : w.2.created = true := by
    rw [hobserved']
    exact hzcreated.trans hcreated
  simp only [Proc.wp_pure]
  by_cases hfull : n = (result.2.take result.1.toNat).length
  · rw [if_neg (by omega), Proc.wp_pure]
    rw [decide_eq_false (not_not.2 hfull)] at hw
    exact h _ p₁ w (.accounted hw) hIw
  · rw [if_pos (by omega)]
    rw [decide_eq_true hfull] at hw
    exact hcleared p₁ w hw hIw hwcreated

end

/-! ### The two functions -/

theorem watched_hiveGetFile (filename : Option Bytes) (p : Process OneDriveConnect)
    {x : Disk Loc × LocalCalls} (hx : Accounted fs files dst false x) :
    Proc.wp fs.watched (hiveGetFile (some OneDrive.table) filename (some dst))
      (fun _ _ y => DownloadEnded fs files dst (filename.getD []) y) p x := by
  unfold hiveGetFile
  rcases hfilename : nonEmpty filename with _ | name
  · exact .accounted hx
  have hname : filename = some name := (Option.filter_eq_some_iff.1 hfilename).1
  rcases hdst : nonEmpty (some dst) with _ | dst'
  · exact .accounted hx
  obtain rfl : dst = dst' := Option.some.inj (Option.filter_eq_some_iff.1 hdst).1
  dsimp only
  rw [Proc.wp_bind, hname, Option.getD_some]
  unfold hiveGetFileLength
  rw [← hname, hfilename]
  dsimp only
  show Proc.wp _ (dispatchLength (some (lengthOf (OneDrive.getFileLength name)))) _ p x
  rw [dispatchLength, lengthOf, Proc.wp_bind, Proc.wp_bind]
  apply watched_getFileLength hx
  intro exit p₁ y hy _
  rw [Proc.wp_pure, Proc.wp_ite]
  refine ⟨fun _ => .accounted hy, fun hnneg => ?_⟩
  rw [Proc.wp_pure, if_neg hnneg]
  refine watched_createAndFill (I := fun _ => True) hy trivial (fun _ _ => trivial) (fun _ _ _ => trivial)
    ?_ ?_ fun _ _ _ hended _ => hended
  · intro size p₂ z P hz _ hP
    unfold hiveGetFileToBuffer
    rw [hfilename]
    dsimp only
    rw [Proc.wp_ite]
    refine ⟨fun _ => hP _ _ z hz trivial rfl, fun _ => ?_⟩
    show Proc.wp _ (dispatchBuffer (some (bufferOf (OneDrive.getFileToBuffer name _ size))) _) P p₂ z
    rw [dispatchBuffer, bufferOf, Proc.wp_bind, Proc.wp_bind]
    apply watched_getFileToBuffer hz
    intro result p₃ w hw hwcreated
    simp only [Proc.wp_pure, Proc.wp_ite, Proc.wp_bind, failWith, wp_hiveSetError]
    exact ⟨fun _ => hP _ _ w hw trivial hwcreated, fun _ => hP _ _ w hw trivial hwcreated⟩
  · intro p₂ z P hP
    rw [Proc.wp_bind]
    apply watched_unlink
    intro p₃
    exact hP _

/-- No operation on an IPFS node makes a call to a local file. -/
private theorem keeps_elsewhere :
    Ipfs.Keeps (World.guard fun e => LocalFiles.isElsewhere e) (fun _ _ => True) where
  free _ e he := by
    cases e <;> first | rfl | exact he.elim
  quiet _ _ _ _ _ _ := rfl
  search := by
    intro p s Q _ hok hfail
    have hprobes : ∀ nodes, Ipfs.Probes (World.guard fun e => LocalFiles.isElsewhere e) nodes () fun _ _ => () :=
      fun nodes => {
        free := fun e he => by cases e <;> first | rfl | exact he.elim
        quiet := fun _ _ _ _ _ => rfl
        request := fun _ _ _ _ => rfl
        answer := fun _ _ _ _ _ => (ite_self ()).symm }
    simp only [Ipfs.checkReachable, Proc.wp_bind, wp_getConn, Proc.wp_ite, Proc.wp_pure]
    refine ⟨fun hne => hok p s hne trivial, fun _ => ?_⟩
    apply (hprobes p.conn.rpcNodes).selectBootstrap
    · intro ip port hne _
      dsimp only
      rw [Proc.wp_bind, wp_setConn, Proc.wp_pure]
      exact hok _ _ hne trivial
    · exact hfail
  request _ _ _ _ := ⟨rfl, fun _ _ _ => rfl⟩
  lost _ _ _ := trivial

theorem watched_hiveIpfsGetFile (cid : Option Bytes) (p : Process IpfsConnect) {x : Disk Loc × LocalCalls}
    (hx : Accounted fs files dst false x) (hnone : x.2.saved = []) :
    Proc.wp fs.watched (hiveIpfsGetFile (some Ipfs.table) cid (some dst))
      (fun _ _ y => DownloadEnded fs files dst dst y ∧ y.2.saved = []) p x := by
  unfold hiveIpfsGetFile
  rcases hcid : nonEmpty cid with _ | id
  · exact ⟨.accounted hx, hnone⟩
  rcases hdst : nonEmpty (some dst) with _ | dst'
  · exact ⟨.accounted hx, hnone⟩
  obtain rfl : dst = dst' := Option.some.inj (Option.filter_eq_some_iff.1 hdst).1
  have hid : cid = some id := (Option.filter_eq_some_iff.1 hcid).1
  dsimp only
  rw [Proc.wp_bind]
  unfold hiveIpfsGetFileLength
  rw [← hid, hcid]
  dsimp only
  show Proc.wp _ (dispatchLength (some (lengthOf (Ipfs.getFileLength id)))) _ p x
  rw [dispatchLength, lengthOf, Proc.wp_bind, Proc.wp_bind]
  have hlength : Proc.wp (World.guard fun e => LocalFiles.isElsewhere e) (Ipfs.getFileLength id)
      (fun _ _ _ => True) p () := keeps_elsewhere.getFileLength trivial fun _ _ _ _ => trivial
  apply watched_of_guard hlength (fun _ he => he)
  intro exit p₁ _
  rw [Proc.wp_pure, Proc.wp_ite]
  refine ⟨fun _ => ⟨.accounted hx, hnone⟩, fun hnneg => ?_⟩
  rw [Proc.wp_pure, if_neg hnneg]
  refine watched_createAndFill (I := fun c => c.saved = []) hx hnone (fun _ hc => hc) (fun _ _ hc => hc)
    ?_ ?_ fun _ _ _ hended hc => ⟨hended, hc⟩
  · intro size p₂ z P hz hc hP
    have hbuffer : Proc.wp (World.guard fun e => LocalFiles.isElsewhere e)
        (Ipfs.getFileToBuffer id (List.replicate size 0) size) (fun _ _ _ => True) p₂ () :=
      keeps_elsewhere.getFileToBuffer trivial
    show Proc.wp _ (bufferOf (Ipfs.getFileToBuffer id (List.replicate size 0) size) >>= _) P p₂ z
    rw [Proc.wp_bind, bufferOf, Proc.wp_bind]
    apply watched_of_guard hbuffer (fun _ he => he)
    intro result p₃ _
    simp only [Proc.wp_pure, Proc.wp_ite, Proc.wp_bind, wp_hiveSetError]
    exact ⟨fun _ => hP _ _ z hz hc rfl, fun _ => hP _ _ z hz hc rfl⟩
  · intro p₂ z P hP
    simp only [Proc.wp_bind, Proc.wp_get, wp_hiveSetError]
    apply watched_unlink
    intro p₃
    exact hP _

/-! ### What is left -/

section
variable {doomed : Bytes} {short : Bool} {x y : Disk Loc × LocalCalls}

omit [DecidableEq Loc] in
private theorem Accounted.absent_iff (h : Accounted fs files dst short x)
    (hnone : files (fs.locate dst) = none) : x.1.entries (fs.locate dst) = none ↔
      x.2.created = false ∧ ∀ k ∈ x.2.saved, fs.locate k ≠ fs.locate dst := by
  constructor
  · intro habsent
    have hnot : ¬ fs.locate dst ∈ x.1.touched := by
      intro hmem
      have hsome := h.present _ hmem
      rw [habsent] at hsome
      cases hsome
    rw [h.touched] at hnot
    obtain ⟨hcreated, hsaved⟩ := not_or.1 hnot
    refine ⟨by simpa using hcreated, fun k hk heq => hsaved ⟨k, hk, heq.symm⟩⟩
  · intro ⟨hcreated, hsaved⟩
    rw [h.kept, hnone]
    rw [h.touched, hcreated]
    intro hmem
    rcases hmem with ⟨hfalse, -⟩ | ⟨k, hk, heq⟩
    · cases hfalse
    · exact hsaved k hk heq.symm

/-- At the destination there is nothing again if it was never created, and no keystore was saved there, or if the removal was aimed at it. -/
private theorem DownloadEnded.absent_iff (h : DownloadEnded fs files dst doomed y)
    (hnone : files (fs.locate dst) = none) : y.1.entries (fs.locate dst) = none ↔
      (y.2.created = false ∧ ∀ k ∈ y.2.saved, fs.locate k ≠ fs.locate dst)
      ∨ (y.2.short = true ∧ fs.locate doomed = fs.locate dst ∧ fs.removable (fs.locate dst) = true) := by
  cases h with
  | accounted h =>
      rw [h.absent_iff hnone, h.short]
      simp
  | @short x h hcreated =>
      have hthere : (x.1.entries (fs.locate dst)).isSome := h.present _ ((h.touched _).2 (.inl ⟨hcreated, rfl⟩))
      rw [hcreated, h.short]
      simp only [Bool.true_eq_false, false_and, false_or, true_and]
      rw [FileSystem.unlinked]
      by_cases haimed : fs.locate doomed = fs.locate dst
      · rw [haimed]
        by_cases hremovable : fs.removable (fs.locate dst) = true
        · rw [if_pos ⟨hthere, hremovable⟩, Disk.put]
          simp [hremovable]
        · rw [if_neg (fun hboth => hremovable hboth.2)]
          refine iff_of_false (fun habsent => ?_) fun hboth => hremovable hboth.2
          rw [habsent] at hthere
          cases hthere
      · refine iff_of_false (fun habsent => ?_) fun hboth => haimed hboth.1
        split at habsent
        · have hkept : x.1.entries (fs.locate dst) = none :=
            (Function.update_of_ne (Ne.symm haimed) ..).symm.trans habsent
          rw [hkept] at hthere
          cases hthere
        · rw [habsent] at hthere
          cases hthere

/-- The places touched are new entries at the destination. -/
def Confined (fs : FileSystem Loc) (files : Loc → Option Bytes) (dst : Bytes) (s : Disk Loc) : Prop :=
  ∀ loc ∈ s.touched, loc = fs.locate dst ∧ files loc = none

omit [DecidableEq Loc] in
private theorem Accounted.confined_iff (h : Accounted fs files dst short x) : Confined fs files dst x.1 ↔
    ∀ k ∈ x.2.saved, fs.locate k = fs.locate dst ∧ files (fs.locate dst) = none := by
  constructor
  · intro hconfined k hk
    obtain ⟨heq, hnone⟩ := hconfined (fs.locate k) ((h.touched _).2 (.inr ⟨k, hk, rfl⟩))
    exact ⟨heq, heq ▸ hnone⟩
  · intro hsaved loc hloc
    rcases (h.touched loc).1 hloc with ⟨hcreated, rfl⟩ | ⟨k, hk, rfl⟩
    · exact ⟨rfl, h.fresh hcreated⟩
    · obtain ⟨heq, hnone⟩ := hsaved k hk
      exact ⟨heq, heq ▸ hnone⟩

/-- Nothing else is touched if no keystore is saved elsewhere and the removal, if there is one, does not find another entry. -/
private theorem DownloadEnded.confined_iff (h : DownloadEnded fs files dst doomed y) :
    Confined fs files dst y.1 ↔ (∀ k ∈ y.2.saved, fs.locate k = fs.locate dst ∧ files (fs.locate dst) = none)
      ∧ ¬ (y.2.short = true ∧ fs.locate doomed ≠ fs.locate dst ∧ (files (fs.locate doomed)).isSome
        ∧ fs.removable (fs.locate doomed) = true) := by
  cases h with
  | accounted h =>
      rw [h.confined_iff, h.short]
      simp
  | @short x h hcreated =>
      rw [h.short, ← h.confined_iff]
      by_cases hremoved : (x.1.entries (fs.locate doomed)).isSome ∧ fs.removable (fs.locate doomed)
      · have hput : fs.unlinked x.1 doomed = x.1.put (fs.locate doomed) none := if_pos hremoved
        rw [hput]
        constructor
        · intro hconfined
          have hdoomed := hconfined _ List.mem_cons_self
          exact ⟨fun loc hloc => hconfined loc (List.mem_cons_of_mem _ hloc),
            fun hother => hother.2.1 hdoomed.1⟩
        · intro ⟨hconfined, hnot⟩ loc hloc
          rcases List.mem_cons.1 hloc with rfl | hloc
          · by_cases haimed : fs.locate doomed = fs.locate dst
            · rw [haimed]
              exact ⟨rfl, h.fresh hcreated⟩
            -- an entry elsewhere has been there all the time
            · have hkept := h.kept (fs.locate doomed) fun hmem => haimed (hconfined _ hmem).1
              exact absurd ⟨rfl, haimed, hkept ▸ hremoved.1, hremoved.2⟩ hnot
          · exact hconfined loc hloc
      · have hsame : fs.unlinked x.1 doomed = x.1 := if_neg hremoved
        rw [hsame]
        refine (and_iff_left_of_imp fun hconfined hother => ?_).symm
        obtain ⟨-, haimed, hthere, hremovable⟩ := hother
        have hkept := h.kept (fs.locate doomed) fun hmem => haimed (hconfined _ hmem).1
        exact hremoved ⟨hkept ▸ hthere, hremovable⟩

end

/-- Places that are not touched keep what they had. -/
theorem FileSystem.untouched {tr : Trace} {s t : Disk Loc} (h : fs.disk.Accepts s tr t) :
    ∀ loc, loc ∉ t.touched → t.entries loc = s.entries loc ∧ loc ∉ s.touched := by
  induction h with
  | nil s => exact fun loc hloc => ⟨rfl, hloc⟩
  | @cons s t u e r tr hstep hrest ih =>
      intro loc hloc
      obtain ⟨hentry, htouched⟩ := ih loc hloc
      have hput : ∀ {l entry}, t = s.put l entry → t.entries loc = s.entries loc ∧ loc ∉ s.touched := by
        intro l entry ht
        rw [ht] at htouched
        obtain ⟨hne, hloc⟩ := not_or.1 fun hor => htouched (List.mem_cons.2 hor)
        exact ⟨by rw [ht]; exact Function.update_of_ne hne .., hloc⟩
      have hsame : t = s → t.entries loc = s.entries loc ∧ loc ∉ s.touched := by
        intro ht
        rw [ht] at htouched
        exact ⟨by rw [ht], htouched⟩
      have hone : t.entries loc = s.entries loc ∧ loc ∉ s.touched := by
        cases e with
        | openFile path mode =>
            cases mode with
            | rdonly => exact hsame hstep
            | wronlyTruncCreat =>
                by_cases hok : r = .ok ()
                · exact hput (hstep.1 hok)
                · exact hsame (hstep.2 hok)
            | wronlyCreatExcl =>
                by_cases hok : r = .ok ()
                · exact hput (hstep.1 hok).2
                · exact hsame (hstep.2 hok)
        | write path data =>
            rcases r with err | n
            · exact hsame (hstep.2 err rfl)
            · exact hput (hstep.1 n rfl).2
        | unlink path =>
            have ht : t = fs.unlinked s path := hstep
            rw [FileSystem.unlinked] at ht
            split at ht
            · exact hput ht
            · exact hsame ht
        | _ => exact hsame hstep
      exact ⟨hentry.trans hone.1, hone.2⟩

end

/-! ### The two results -/

section
variable {Loc : Type} [DecidableEq Loc] {fs : FileSystem Loc} {files : Loc → Option Bytes} {s : Disk Loc}
  {dst : Bytes} {tr : Trace} {rc : Int}

private theorem ended_hiveGetFile {filename : Option Bytes} {p p' : Process OneDriveConnect}
    (hrun : Run (hiveGetFile (some OneDrive.table) filename (some dst) p) tr (rc, p'))
    (hdisk : fs.disk.Accepts ⟨files, []⟩ tr s) :
    DownloadEnded fs files dst (filename.getD []) (s, LocalCalls.of tr) := by
  have hstart : Accounted fs files dst false (⟨files, []⟩, {}) := .initial
  have hended := watched_hiveGetFile filename p hstart
  have hwatched := World.prod_accepts hdisk (World.observer_accepts LocalCalls.observe {} tr)
  have hresult := Prog.wp_run hended hrun hwatched
  exact hresult

private theorem ended_hiveIpfsGetFile {cid : Option Bytes} {p p' : Process IpfsConnect}
    (hrun : Run (hiveIpfsGetFile (some Ipfs.table) cid (some dst) p) tr (rc, p'))
    (hdisk : fs.disk.Accepts ⟨files, []⟩ tr s) :
    DownloadEnded fs files dst dst (s, LocalCalls.of tr) ∧ (LocalCalls.of tr).saved = [] := by
  have hstart : Accounted fs files dst false (⟨files, []⟩, {}) := .initial
  have hended := watched_hiveIpfsGetFile cid p hstart rfl
  have hwatched := World.prod_accepts hdisk (World.observer_accepts LocalCalls.observe {} tr)
  have hresult := Prog.wp_run hended hrun hwatched
  exact hresult

/-- When a download fails whose destination was free, the destination is free again exactly if it was not created (nor a keystore saved at the same place), or if the write fell short and the entry that is removed is the destination: for IPFS it is, for the other function only where the remote name designates it. -/
theorem failed_download_iff :
    (∀ {filename : Option Bytes} {p p' : Process OneDriveConnect},
      Run (hiveGetFile (some OneDrive.table) filename (some dst) p) tr (rc, p') →
      fs.disk.Accepts ⟨files, []⟩ tr s → rc = -1 → files (fs.locate dst) = none →
      (s.entries (fs.locate dst) = none ↔
        ((LocalCalls.of tr).created = false ∧ ∀ k ∈ (LocalCalls.of tr).saved, fs.locate k ≠ fs.locate dst)
        ∨ ((LocalCalls.of tr).short = true ∧ fs.locate (filename.getD []) = fs.locate dst
          ∧ fs.removable (fs.locate dst) = true)))
    ∧ (∀ {cid : Option Bytes} {p p' : Process IpfsConnect},
      Run (hiveIpfsGetFile (some Ipfs.table) cid (some dst) p) tr (rc, p') →
      fs.disk.Accepts ⟨files, []⟩ tr s → rc = -1 → files (fs.locate dst) = none →
      (s.entries (fs.locate dst) = none ↔ (LocalCalls.of tr).created = false
        ∨ ((LocalCalls.of tr).short = true ∧ fs.removable (fs.locate dst) = true))) := by
  constructor
  · intro filename p p' hrun hdisk _ hnone
    exact (ended_hiveGetFile hrun hdisk).absent_iff hnone
  · intro cid p p' hrun hdisk _ hnone
    obtain ⟨hended, hsaved⟩ := ended_hiveIpfsGetFile hrun hdisk
    rw [show s = (s, LocalCalls.of tr).1 from rfl, hended.absent_iff hnone]
    simp only [hsaved, List.not_mem_nil, false_implies, implies_true, and_true, true_and]

/-- A download touches nothing but a new destination exactly if no keystore is saved elsewhere and, after a write that fell short, there is nothing to be removed at a remote name that designates another place. For IPFS that is always so. -/
theorem download_confined_iff :
    (∀ {filename : Option Bytes} {p p' : Process OneDriveConnect},
      Run (hiveGetFile (some OneDrive.table) filename (some dst) p) tr (rc, p') →
      fs.disk.Accepts ⟨files, []⟩ tr s →
      (Confined fs files dst s ↔
        (∀ k ∈ (LocalCalls.of tr).saved, fs.locate k = fs.locate dst ∧ files (fs.locate dst) = none)
        ∧ ¬ ((LocalCalls.of tr).short = true ∧ fs.locate (filename.getD []) ≠ fs.locate dst
          ∧ (files (fs.locate (filename.getD []))).isSome
          ∧ fs.removable (fs.locate (filename.getD [])) = true)))
    ∧ (∀ {cid : Option Bytes} {p p' : Process IpfsConnect},
      Run (hiveIpfsGetFile (some Ipfs.table) cid (some dst) p) tr (rc, p') →
      fs.disk.Accepts ⟨files, []⟩ tr s → Confined fs files dst s) := by
  constructor
  · intro filename p p' hrun hdisk
    exact (ended_hiveGetFile hrun hdisk).confined_iff
  · intro cid p p' hrun hdisk
    obtain ⟨hended, hsaved⟩ := ended_hiveIpfsGetFile hrun hdisk
    refine hended.confined_iff.2 ⟨fun k hk => ?_, fun hother => hother.2.1 rfl⟩
    rw [show (s, LocalCalls.of tr).2.saved = [] from hsaved] at hk
    cases hk

end

/-! A disk that is full after three bytes, with a local file of the same name as the remote one. -/

def plainDisk : FileSystem Bytes := ⟨fun path => path, fun _ => true⟩

def namesake : Bytes → Option Bytes := fun path => if path = upName then some (bytes "mine") else none

def cutShort : Trace :=
  [⟨.gettimeofday, demoTime⟩, ⟨.httpClientNew .getFileLength, true⟩,
    ⟨.perform (downInfo .size), demoReply 200 infoText⟩] ++ receiving
    ++ [⟨.openFile downTarget .wronlyCreatExcl, .ok ()⟩, ⟨.alloc 5, true⟩, ⟨.gettimeofday, demoTime⟩,
      ⟨.httpClientNew .getFileToBuffer, true⟩,
      ⟨.perform (downInfo .sizeAndDownloadUrl), demoReply 200 infoText⟩] ++ receiving
    ++ [⟨.perform demoDownload, demoReply 200 hello⟩, ⟨.write downTarget hello, .ok 3⟩,
      ⟨.unlink upName, .ok ()⟩]

unseal growSize in
set_option maxRecDepth 10000 in
private theorem cutShort_run : ∃ p', Run (hiveGetFile (some OneDrive.table) (some upName) (some downTarget)
    demoProcess) cutShort (-1, p') := by
  apply Exists.intro
  iterate 17 refine .ask _ _ _ ?_
  exact .refl _

def emptied : Disk Bytes := (⟨namesake, []⟩ : Disk Bytes).put downTarget (some [])

def halfWritten : Disk Bytes := emptied.put downTarget (some (bytes "hel"))

private theorem emptied_write : plainDisk.Step emptied (.write downTarget hello) (.ok 3) halfWritten := by
  have hempty : emptied.entries downTarget = some [] := by
    simp only [emptied, Disk.put, Function.update_self]
  have hwritten : (emptied.entries downTarget).getD [] ++ hello.take 3 = bytes "hel" := by
    rw [hempty]
    decide
  refine ⟨fun n hn => ?_, nofun⟩
  obtain rfl : 3 = n := Except.ok.inj hn
  refine ⟨by decide, ?_⟩
  show halfWritten = emptied.put downTarget (some _)
  rw [show plainDisk.locate downTarget = downTarget from rfl, hwritten]
  rfl

private theorem cutShort_accepts :
    plainDisk.disk.Accepts ⟨namesake, []⟩ cutShort (halfWritten.put upName none) := by
  have hnamesake : (halfWritten.entries upName).isSome := by
    have hne : upName ≠ downTarget := by decide
    rw [halfWritten, emptied, Disk.put, Disk.put]
    simp [Function.update_of_ne hne, namesake]
  have hunlink : plainDisk.disk.step halfWritten (.unlink upName) (.ok ()) (halfWritten.put upName none) :=
    (if_pos ⟨hnamesake, rfl⟩).symm
  exact .cons rfl <| .cons rfl <| .cons rfl <| .cons rfl <| .cons rfl <| .cons rfl <|
    .cons (t := emptied) ⟨fun _ => ⟨rfl, rfl⟩, fun h => absurd rfl h⟩ <| .cons rfl <| .cons rfl <| .cons rfl <| .cons rfl <|
    .cons rfl <| .cons rfl <| .cons rfl <| .cons rfl <| .cons emptied_write <| .cons hunlink <| .nil _

private theorem cutShort_entries : (halfWritten.put upName none).entries downTarget = some (bytes "hel") := by
  have hne : downTarget ≠ upName := by decide
  rw [Disk.put]
  simp only [Function.update_of_ne hne, halfWritten, Disk.put, Function.update_self]

/-- A download from IPFS that is cut short in the same way. -/
def withdrawn : Trace :=
  fetching.take 5 ++ [⟨.openFile downTarget .wronlyCreatExcl, .ok ()⟩, ⟨.alloc 5, true⟩] ++ fetching
    ++ [⟨.write downTarget hello, .ok 3⟩, ⟨.unlink downTarget, .ok ()⟩]

unseal growSize in
private theorem withdrawn_run : ∃ p', Run (hiveIpfsGetFile (some Ipfs.table) (some demoFile) (some downTarget) demoNode)
    withdrawn (-1, p') := by
  apply Exists.intro
  iterate 16 refine .ask _ _ _ ?_
  exact .refl _

private theorem withdrawn_accepts :
    plainDisk.disk.Accepts ⟨namesake, []⟩ withdrawn (halfWritten.put downTarget none) := by
  have hthere : (halfWritten.entries downTarget).isSome := by
    simp [halfWritten, Disk.put]
  have hunlink : plainDisk.disk.step halfWritten (.unlink downTarget) (.ok ()) (halfWritten.put downTarget none) :=
    (if_pos ⟨hthere, rfl⟩).symm
  exact .cons rfl <| .cons rfl <| .cons rfl <| .cons rfl <| .cons rfl <|
    .cons (t := emptied) ⟨fun _ => ⟨rfl, rfl⟩, fun h => absurd rfl h⟩ <| .cons rfl <| .cons rfl <| .cons rfl <| .cons rfl <|
    .cons rfl <| .cons rfl <| .cons rfl <| .cons rfl <| .cons emptied_write <| .cons hunlink <| .nil _

theorem failed_download_runs :
    ((halfWritten.put upName none).entries (plainDisk.locate downTarget) = none ↔
      ((LocalCalls.of cutShort).created = false
        ∧ ∀ k ∈ (LocalCalls.of cutShort).saved, plainDisk.locate k ≠ plainDisk.locate downTarget)
      ∨ ((LocalCalls.of cutShort).short = true
        ∧ plainDisk.locate ((some upName).getD []) = plainDisk.locate downTarget
        ∧ plainDisk.removable (plainDisk.locate downTarget) = true))
    ∧ ((halfWritten.put downTarget none).entries (plainDisk.locate downTarget) = none ↔
      (LocalCalls.of withdrawn).created = false
      ∨ ((LocalCalls.of withdrawn).short = true ∧ plainDisk.removable (plainDisk.locate downTarget) = true)) := by
  obtain ⟨p', hcut⟩ := cutShort_run
  obtain ⟨p'', hwithdrawn⟩ := withdrawn_run
  exact ⟨failed_download_iff.1 hcut cutShort_accepts rfl rfl,
    failed_download_iff.2 hwithdrawn withdrawn_accepts rfl rfl⟩

/-- The destination was free, the call has failed, and three bytes of the file are there. -/
theorem failed_download_left : ∃ p', Run (hiveGetFile (some OneDrive.table) (some upName) (some downTarget)
      demoProcess) cutShort (-1, p')
    ∧ plainDisk.disk.Accepts ⟨namesake, []⟩ cutShort (halfWritten.put upName none)
    ∧ namesake downTarget = none ∧ (halfWritten.put upName none).entries downTarget = some (bytes "hel") := by
  obtain ⟨p', hrun⟩ := cutShort_run
  exact ⟨p', hrun, cutShort_accepts, rfl, cutShort_entries⟩

theorem download_confined_runs :
    (Confined plainDisk namesake downTarget (halfWritten.put upName none) ↔
      (∀ k ∈ (LocalCalls.of cutShort).saved, plainDisk.locate k = plainDisk.locate downTarget
        ∧ namesake (plainDisk.locate downTarget) = none)
      ∧ ¬ ((LocalCalls.of cutShort).short = true
        ∧ plainDisk.locate ((some upName).getD []) ≠ plainDisk.locate downTarget
        ∧ (namesake (plainDisk.locate ((some upName).getD []))).isSome
        ∧ plainDisk.removable (plainDisk.locate ((some upName).getD [])) = true))
    ∧ Confined plainDisk namesake downTarget (halfWritten.put downTarget none) := by
  obtain ⟨p', hcut⟩ := cutShort_run
  obtain ⟨p'', hwithdrawn⟩ := withdrawn_run
  exact ⟨download_confined_iff.1 hcut cutShort_accepts, download_confined_iff.2 hwithdrawn withdrawn_accepts⟩

/-- The file `a` of the working directory is removed, because the remote file is called `a` as well. -/
theorem namesake_removed : ∃ p', Run (hiveGetFile (some OneDrive.table) (some upName) (some downTarget)
      demoProcess) cutShort (-1, p')
    ∧ plainDisk.disk.Accepts ⟨namesake, []⟩ cutShort (halfWritten.put upName none)
    ∧ upName ≠ downTarget ∧ namesake upName = some (bytes "mine")
    ∧ (halfWritten.put upName none).entries upName = none := by
  obtain ⟨p', hrun⟩ := cutShort_run
  refine ⟨p', hrun, cutShort_accepts, by decide, rfl, ?_⟩
  simp only [Disk.put, Function.update_self]

end HiveSdk
