import HiveSdk.Drive.Keys
import HiveSdk.Errors.Silent

/-!
# What a public function leaves in `hive_error`

A public function either fails, and then returns -1 and has stored a code of its own in the thread's `hive_error`, or it succeeds and leaves `hive_error` alone. Two runs from different errors show it: where a code has been stored they end in the same state, and otherwise they carry their errors along. This holds for any arguments, null pointers included, and for any table whose functions do not touch `hive_error`; those of both backends do not.
-/

namespace HiveSdk

open Interaction

variable {σ α β : Type}

/-! ### Calls that settle the error -/

/-- The end of a call, from `p` and from the same state with the error `e`: a failure has stored its own error, and a success has left the error alone. -/
inductive Settled (bad : α → Int → Prop) (good : α → Prop) (e : Int) : α × Process σ → α × Process σ → Prop
  | failed {a : α} (p : Process σ) (h : bad a p.hiveError) : Settled bad good e (a, p) (a, p)
  | passed {a : α} (p : Process σ) (h : good a) : Settled bad good e (a, p) (a, withError e p)

/-- A call that stores an error exactly when it fails. -/
def Settles (bad : α → Int → Prop) (good : α → Prop) (m : Hive σ α) : Prop :=
  ∀ p e, Prog.Rel (Settled bad good e) (m p) (m (withError e p))

namespace Settles

variable {bad : α → Int → Prop} {good : α → Prop} {m m' : Hive σ α}

theorem pure {a : α} (h : good a) : Settles bad good (pure a : Hive σ α) := fun p _ => .ret (.passed p h)

theorem error {err : Int} {a : α} (h : bad a err) :
    Settles bad good (hiveSetError err >>= fun _ => Pure.pure a : Hive σ α) :=
  fun _ _ => .ret (.failed _ h)

/-- Once the error has been stored there is no difference left, whatever is done then. -/
theorem stored {err : Int} {a : α} {m : Hive σ β} (h : ∀ err, bad a err) :
    Settles bad good (hiveSetError err >>= fun _ => m >>= fun _ => Pure.pure a) := by
  intro p e
  show Prog.Rel _ ((m >>= fun _ => Pure.pure a) { p with hiveError := err }) ((m >>= fun _ => Pure.pure a) { p with hiveError := err })
  apply Prog.Rel.bind (Prog.Rel.refl (P := Eq) (fun _ => rfl) _)
  rintro x _ rfl
  exact .ret (.failed x.2 (h _))

theorem errno {f : Errno → Hive σ α} (hf : ∀ n, Settles bad good (f n)) :
    Settles bad good (get >>= fun p => f p.errno) := fun p e => hf p.errno p e

theorem after {m : Hive σ β} {f : β → Hive σ α} (h : LeavesError m) (hf : ∀ b, Settles bad good (f b)) :
    Settles bad good (m >>= f) := by
  intro p e
  apply Prog.Rel.bind (h p e)
  rintro x _ rfl
  exact hf x.1 x.2 e

theorem ite {c : Prop} [Decidable c] (h : c → Settles bad good m) (h' : ¬ c → Settles bad good m') :
    Settles bad good (if c then m else m') := by
  by_cases hc : c
  · rw [if_pos hc]
    exact h hc
  · rw [if_neg hc]
    exact h' hc

/-- A call after another one. A failure of the first is one of both. -/
theorem bind {bad' : β → Int → Prop} {good' : β → Prop} {m : Hive σ β} {f : β → Hive σ α} (h : Settles bad' good' m)
    (hbad : ∀ b err, bad' b err → ∃ a, f b = Pure.pure a ∧ bad a err) (hgood : ∀ b, good' b → Settles bad good (f b)) :
    Settles bad good (m >>= f) := by
  intro p e
  apply Prog.Rel.bind (h p e)
  rintro _ _ (⟨q, hb⟩ | ⟨q, hb⟩)
  · obtain ⟨a, hf, ha⟩ := hbad _ _ hb
    show Prog.Rel _ (f _ q) (f _ q)
    rw [hf]
    exact .ret (.failed q ha)
  · exact hgood _ hb q e

/-- The result is passed on in another form. -/
theorem map {bad' : β → Int → Prop} {good' : β → Prop} {m : Hive σ β} {f : β → α} (h : Settles bad' good' m)
    (hbad : ∀ b err, bad' b err → bad (f b) err) (hgood : ∀ b, good' b → good (f b)) :
    Settles bad good (m >>= fun b => Pure.pure (f b)) :=
  h.bind (fun b err hb => ⟨f b, rfl, hbad b err hb⟩) fun b hb => .pure (hgood b hb)

end Settles

/-! ### What the public functions share -/

/-- A failure. The code is negative, unless it has been cut from a size, which may be any. -/
def FailsAs (isSize : Bool) (rc err : Int) : Prop := rc = -1 ∧ (isSize = false → err < 0)

abbrev SettlesInt (isSize : Bool) (m : Hive σ Int) : Prop := Settles (FailsAs isSize) (0 ≤ ·) m

/-- A number, and what has been written. -/
abbrev SettlesPair (isSize : Bool) (m : Hive σ (Int × β)) : Prop :=
  Settles (fun x => FailsAs isSize x.1) (fun x => 0 ≤ x.1) m

private theorem cInt_generalError_neg {code : Nat} (h : code < 2 ^ 24) : cInt (hiveGeneralError code) < 0 :=
  cInt_hiveMkError_neg .general h

private theorem cInt_sysError_neg (e : Errno) : cInt (hiveSysError e) < 0 := cInt_hiveMkError_neg .sys (by omega)

section
variable {isSize : Bool} {block : Bytes}

theorem settles_failWith {err : Int} (h : err < 0) : SettlesInt isSize (failWith err : Hive σ Int) :=
  .error ⟨rfl, fun _ => h⟩

theorem settles_failWith_pair {err : Int} (h : err < 0) (b : β) :
    SettlesPair isSize (do return (← failWith err, b) : Hive σ (Int × β)) :=
  (settles_failWith h).map (fun _ _ hfails => hfails) fun _ hpos => hpos

theorem invalidArgs_neg : invalidArgs < 0 := cInt_generalError_neg (by decide)

theorem notSupported_neg : notSupported < 0 := cInt_generalError_neg (by decide)

theorem settles_dispatch {f : Option (Hive σ Int)} (h : ∀ m, f = some m → LeavesError m) :
    SettlesInt isSize (dispatch f) := by
  rcases f with _ | m
  · exact settles_failWith notSupported_neg
  · exact .after (h m rfl) fun rc => .ite (fun hneg => settles_failWith hneg) fun _ => .pure (le_refl 0)

theorem settles_dispatchLength {f : Option (Hive σ Int)} (h : ∀ m, f = some m → LeavesError m) :
    SettlesInt true (dispatchLength f) := by
  rcases f with _ | m
  · exact settles_failWith notSupported_neg
  · refine .after (h m rfl) fun rc => .ite (fun _ => .error ⟨rfl, fun hsize => ?_⟩) fun hpos => .pure (not_lt.1 hpos)
    cases hsize

theorem settles_dispatchBuffer {f : Option (Hive σ (Int × Bytes))} (h : ∀ m, f = some m → LeavesError m) :
    SettlesPair true (dispatchBuffer f block) := by
  have hfail : ∀ (err : Int) (block : Bytes), SettlesPair true (do return (← failWith err, block) : Hive σ (Int × Bytes)) :=
    fun err block => Settles.map (.error ⟨rfl, fun hsize => by cases hsize⟩ : SettlesInt true (failWith err))
      (fun _ _ hfails => hfails) fun _ hpos => hpos
  rcases f with _ | m
  · exact hfail _ _
  · exact .after (h m rfl) fun x => .ite (fun _ => hfail _ _) fun hpos => .pure (not_lt.1 hpos)

theorem settles_readLocalFile (path : Bytes) :
    Settles (fun data err => data = none ∧ err < 0) (· ≠ none) (readLocalFile path : Hive σ (Option Bytes)) := by
  have hnone : ∀ err, err < 0 → Settles (fun data err => data = none ∧ err < 0) (· ≠ none) (do
      hiveSetError err
      return none : Hive σ (Option Bytes)) := fun err hneg => .error ⟨rfl, hneg⟩
  refine .after (.call _) fun opened => ?_
  rcases opened with e | _
  · exact .after (leavesError_setErrno e) fun _ => hnone _ (cInt_sysError_neg e)
  refine .after (.call _) fun length => .ite (fun _ => hnone _ (cInt_generalError_neg (by decide))) fun _ => ?_
  refine .after (.call _) fun allocated => .ite (fun _ => hnone _ (cInt_generalError_neg (by decide))) fun _ => ?_
  refine .after (.call _) fun read => ?_
  rcases read with e | data
  · exact .after (leavesError_setErrno e) fun _ => hnone _ (cInt_sysError_neg e)
  · refine .ite (fun _ => ?_) fun _ => .pure (by simp)
    exact .errno (f := fun e => do
      hiveSetError (cInt (hiveSysError e))
      return none) fun e => hnone _ (cInt_sysError_neg e)

theorem leavesError_unlink (path : Bytes) : LeavesError (unlink path : Hive σ Unit) := by
  refine .bind (.call _) fun removed => ?_
  rcases removed with e | _
  · exact leavesError_setErrno e
  · exact .pure _

theorem leavesError_writeBuffer (dst block : Bytes) (fsize : Int) :
    LeavesError (writeBuffer dst block fsize : Hive σ Int) := by
  refine .ite (.bind leavesError_undefined fun _ => ?_) ?_
  -- the write comes after the check in both branches
  all_goals
    refine .bind (.call _) fun written => ?_
    rcases written with e | n
    · exact .bind (leavesError_setErrno e) fun _ => .pure _
    · exact .pure _

/-- The file is created once the length is known. -/
theorem settles_createAndFill {dst : Bytes} {fsize : Int} {fetch : Nat → Hive σ (Int × Bytes)} {clear : Hive σ Unit}
    (hfetch : ∀ size, Settles (fun x _ => x.1 < 0) (fun x => 0 ≤ x.1) (fetch size))
    (hclear : SettlesInt true (clear >>= fun _ => pure (-1))) :
    SettlesInt true (createAndFill dst fsize fetch clear) := by
  refine .after (.call _) fun opened => ?_
  rcases opened with e | _
  · exact .after (leavesError_setErrno e) fun _ => settles_failWith (cInt_sysError_neg e)
  refine .ite (fun _ => .pure (le_refl 0)) fun _ => .after (.call _) fun allocated => ?_
  refine .ite (fun _ => settles_failWith (cInt_generalError_neg (by decide))) fun _ => ?_
  refine (hfetch _).bind (fun x _ hneg => ⟨-1, if_pos hneg, rfl, fun hsize => by cases hsize⟩) fun x hpos => ?_
  refine .ite (fun hneg => absurd hpos (not_le.2 hneg)) fun _ => .after (leavesError_writeBuffer _ _ _) fun nwr => ?_
  exact .ite (fun _ => hclear) fun _ => .pure hpos

end

/-! ### Tables -/

/-- No function of the table touches `hive_error`. -/
structure HiveConnect.LeavesError (connect : HiveConnect σ) : Prop where
  putFileFromBuffer : ∀ f ∈ connect.putFileFromBuffer, ∀ content filename, HiveSdk.LeavesError (f content filename)
  getFileLength : ∀ f ∈ connect.getFileLength, ∀ filename, HiveSdk.LeavesError (f filename)
  getFileToBuffer : ∀ f ∈ connect.getFileToBuffer, ∀ filename block buflen, HiveSdk.LeavesError (f filename block buflen)
  listFiles : ∀ f ∈ connect.listFiles, ∀ pages, HiveSdk.LeavesError (f pages)
  deleteFile : ∀ f ∈ connect.deleteFile, ∀ filename, HiveSdk.LeavesError (f filename)
  ipfsPutFileFromBuffer : ∀ f ∈ connect.ipfsPutFileFromBuffer, ∀ content, HiveSdk.LeavesError (f content)
  ipfsGetFileLength : ∀ f ∈ connect.ipfsGetFileLength, ∀ cid, HiveSdk.LeavesError (f cid)
  ipfsGetFileToBuffer : ∀ f ∈ connect.ipfsGetFileToBuffer, ∀ cid block buflen, HiveSdk.LeavesError (f cid block buflen)
  putValue : ∀ f ∈ connect.putValue, ∀ key value, HiveSdk.LeavesError (f key value)
  setValue : ∀ f ∈ connect.setValue, ∀ key value, HiveSdk.LeavesError (f key value)
  getValues : ∀ f ∈ connect.getValues, ∀ key, HiveSdk.LeavesError (f key)
  deleteKey : ∀ f ∈ connect.deleteKey, ∀ key, HiveSdk.LeavesError (f key)
  expireToken : ∀ f ∈ connect.expireToken, HiveSdk.LeavesError f

/-- The tables that a client may get. -/
inductive IsBackend : (σ : Type) → HiveConnect σ → Prop
  | oneDrive : IsBackend OneDriveConnect OneDrive.table
  | ipfs : IsBackend IpfsConnect Ipfs.table

theorem IsBackend.leavesError {connect : HiveConnect σ} (h : IsBackend σ connect) : connect.LeavesError := by
  cases h with
  | oneDrive =>
      constructor <;> rintro f ⟨⟩
      · exact fun content filename => Item.leavesError_putFileFromBuffer _ _
      · exact fun filename => .bind (.ite (.pure _) (Item.leavesError_getFileLength _)) fun _ => .pure _
      · exact fun filename block buflen =>
          .bind (.ite (.pure _) (Item.leavesError_getFileToBuffer _ _ _)) fun _ => .pure _
      · exact OneDrive.leavesError_listFiles
      · exact fun filename => .ite (.pure _) (Item.leavesError_deleteFile _)
      · exact OneDrive.leavesError_putValue
      · exact OneDrive.leavesError_setValue
      · exact OneDrive.leavesError_getValues
      · exact OneDrive.leavesError_deleteKey
      · exact .bind leavesError_oauthTokenSetExpired fun _ => .pure _
  | ipfs =>
      constructor <;> rintro f ⟨⟩
      · exact Ipfs.leavesError_putFileFromBuffer
      · exact fun cid => .bind (Ipfs.leavesError_getFileLength _) fun _ => .pure _
      · exact fun cid block buflen => .bind (Ipfs.leavesError_getFileToBuffer _ _ _) fun _ => .pure _

/-! ### The public functions -/

section
variable {connect : Option (HiveConnect σ)} {isSize : Bool}

/-- The function is called with arguments that it accepts. -/
theorem leavesError_of_map {f : Option α} {g : α → Hive σ β} (h : ∀ x ∈ f, LeavesError (g x)) :
    ∀ m, f.map g = some m → LeavesError m := by
  intro m hm
  obtain ⟨x, hx, rfl⟩ := Option.map_eq_some_iff.1 hm
  exact h x hx

theorem settles_hivePutFileFromBuffer (hconnect : ∀ c ∈ connect, c.LeavesError) (source : Option Bytes) (length : Nat)
    (filename : Option Bytes) : SettlesInt isSize (hivePutFileFromBuffer connect source length filename) := by
  unfold hivePutFileFromBuffer
  rcases connect with _ | c
  · exact settles_failWith invalidArgs_neg
  rcases nonEmpty filename with _ | filename
  · exact settles_failWith invalidArgs_neg
  · exact .ite (fun _ => settles_failWith invalidArgs_neg) fun _ => settles_dispatch <|
      leavesError_of_map fun f hf => (hconnect c rfl).putFileFromBuffer f hf _ _

theorem settles_hiveGetFileLength (hconnect : ∀ c ∈ connect, c.LeavesError) (filename : Option Bytes) :
    SettlesInt true (hiveGetFileLength connect filename) := by
  unfold hiveGetFileLength
  rcases connect with _ | c
  · exact settles_failWith invalidArgs_neg
  rcases nonEmpty filename with _ | filename
  · exact settles_failWith invalidArgs_neg
  · exact settles_dispatchLength (leavesError_of_map fun f hf => (hconnect c rfl).getFileLength f hf _)

theorem settles_hiveGetFileToBuffer (hconnect : ∀ c ∈ connect, c.LeavesError) (filename dst : Option Bytes) (buflen : Nat) :
    SettlesPair true (hiveGetFileToBuffer connect filename dst buflen) := by
  unfold hiveGetFileToBuffer
  rcases connect with _ | c
  · exact settles_failWith_pair invalidArgs_neg _
  rcases nonEmpty filename with _ | filename
  · exact settles_failWith_pair invalidArgs_neg _
  rcases dst with _ | block
  · exact settles_failWith_pair invalidArgs_neg _
  · exact .ite (fun _ => settles_failWith_pair invalidArgs_neg _) fun _ => settles_dispatchBuffer <|
      leavesError_of_map fun f hf => (hconnect c rfl).getFileToBuffer f hf _ _ _

theorem settles_hiveDeleteFile (hconnect : ∀ c ∈ connect, c.LeavesError) (filename : Option Bytes) :
    SettlesInt isSize (hiveDeleteFile connect filename) := by
  unfold hiveDeleteFile
  rcases connect with _ | c
  · exact settles_failWith invalidArgs_neg
  rcases nonEmpty filename with _ | filename
  · exact settles_failWith invalidArgs_neg
  · exact settles_dispatch (leavesError_of_map fun f hf => (hconnect c rfl).deleteFile f hf _)

/-- The listing, which has not come to its end when there is no number. -/
theorem settles_hiveListFiles (hconnect : ∀ c ∈ connect, c.LeavesError) (callback : Bool) (pages : Nat) :
    Settles (fun rc err => ∃ n, rc = some n ∧ FailsAs isSize n err) (fun rc => ∀ n, rc = some n → 0 ≤ n)
      (hiveListFiles connect callback pages) := by
  have hfail : ∀ err, err < 0 → Settles (fun rc err => ∃ n, rc = some n ∧ FailsAs isSize n err)
      (fun rc => ∀ n, rc = some n → 0 ≤ n) (some <$> failWith err : Hive σ (Option Int)) := fun err hneg =>
    (settles_failWith hneg).map (fun n _ hfails => ⟨n, rfl, hfails⟩) fun n hpos m hm => Option.some.inj hm ▸ hpos
  unfold hiveListFiles
  rcases connect with _ | c
  · exact hfail _ invalidArgs_neg
  cases callback with
  | false => exact hfail _ invalidArgs_neg
  | true =>
      dsimp only
      rcases hlist : c.listFiles with _ | f
      · exact hfail _ notSupported_neg
      refine .after ((hconnect c rfl).listFiles f hlist pages) fun result => ?_
      rcases result with _ | rc
      · exact .pure (by simp)
      · exact .ite (fun hneg => hfail _ hneg) fun _ => .pure (by simp)

theorem settles_hivePutFile (hconnect : ∀ c ∈ connect, c.LeavesError) (source filename : Option Bytes) :
    SettlesInt isSize (hivePutFile connect source filename) := by
  unfold hivePutFile
  rcases connect with _ | c
  · exact settles_failWith invalidArgs_neg
  rcases nonEmpty source with _ | source
  · exact settles_failWith invalidArgs_neg
  rcases nonEmpty filename with _ | filename
  · exact settles_failWith invalidArgs_neg
  · refine (settles_readLocalFile source).bind ?_ fun data hdata => ?_
    · rintro data err ⟨rfl, hneg⟩
      exact ⟨-1, rfl, rfl, fun _ => hneg⟩
    · rcases data with _ | data
      · exact absurd rfl hdata
      · exact settles_hivePutFileFromBuffer hconnect _ _ _

theorem settles_hiveGetFile (hconnect : ∀ c ∈ connect, c.LeavesError) (filename dst : Option Bytes) :
    SettlesInt true (hiveGetFile connect filename dst) := by
  unfold hiveGetFile
  rcases connect with _ | c
  · exact settles_failWith invalidArgs_neg
  rcases nonEmpty filename with _ | filename
  · exact settles_failWith invalidArgs_neg
  rcases nonEmpty dst with _ | dst
  · exact settles_failWith invalidArgs_neg
  refine (settles_hiveGetFileLength hconnect _).bind ?_ fun fsize hpos => ?_
  · rintro fsize err ⟨rfl, hneg⟩
    exact ⟨-1, rfl, rfl, hneg⟩
  refine .ite (fun hneg => absurd hpos (not_le.2 hneg)) fun _ => settles_createAndFill (fun size => ?_) ?_
  · refine fun p e => (settles_hiveGetFileToBuffer hconnect _ _ _ p e).mono ?_
    rintro _ _ (⟨q, hfails⟩ | ⟨q, hpos⟩)
    · exact .failed q (by rw [hfails.1]; decide)
    · exact .passed q hpos
  · rw [bind_assoc]
    refine .after (leavesError_unlink _) fun _ => ?_
    exact .errno (f := fun e => do
      hiveSetError (cInt (hiveSysError e))
      return -1) fun e => .error ⟨rfl, fun _ => cInt_sysError_neg e⟩

/-! The same for IPFS. -/

theorem settles_hiveIpfsPutFileFromBuffer (hconnect : ∀ c ∈ connect, c.LeavesError) (source : Option Bytes) (length : Nat)
    (cid : Bool) : SettlesPair isSize (hiveIpfsPutFileFromBuffer connect source length cid) := by
  unfold hiveIpfsPutFileFromBuffer
  rcases connect with _ | c
  · exact settles_failWith_pair invalidArgs_neg _
  cases cid with
  | false => exact settles_failWith_pair invalidArgs_neg _
  | true =>
      refine .ite (fun _ => settles_failWith_pair invalidArgs_neg _) fun _ => ?_
      rcases hput : c.ipfsPutFileFromBuffer with _ | f
      · exact settles_failWith_pair notSupported_neg _
      refine .after ((hconnect c rfl).ipfsPutFileFromBuffer f hput _) fun x => ?_
      exact .ite (fun hneg => settles_failWith_pair hneg _) fun _ => .pure (le_refl 0)

theorem settles_hiveIpfsPutFile (hconnect : ∀ c ∈ connect, c.LeavesError) (source : Option Bytes) (cid : Bool) :
    SettlesPair isSize (hiveIpfsPutFile connect source cid) := by
  unfold hiveIpfsPutFile
  rcases connect with _ | c
  · exact settles_failWith_pair invalidArgs_neg _
  rcases nonEmpty source with _ | source
  · exact settles_failWith_pair invalidArgs_neg _
  cases cid with
  | false => exact settles_failWith_pair invalidArgs_neg _
  | true =>
      refine (settles_readLocalFile source).bind ?_ fun data hdata => ?_
      · rintro data err ⟨rfl, hneg⟩
        exact ⟨(-1, none), rfl, rfl, fun _ => hneg⟩
      · rcases data with _ | data
        · exact absurd rfl hdata
        · exact settles_hiveIpfsPutFileFromBuffer hconnect _ _ _

theorem settles_hiveIpfsGetFileLength (hconnect : ∀ c ∈ connect, c.LeavesError) (cid : Option Bytes) :
    SettlesInt true (hiveIpfsGetFileLength connect cid) := by
  unfold hiveIpfsGetFileLength
  rcases connect with _ | c
  · exact settles_failWith invalidArgs_neg
  rcases nonEmpty cid with _ | cid
  · exact settles_failWith invalidArgs_neg
  · exact settles_dispatchLength (leavesError_of_map fun f hf => (hconnect c rfl).ipfsGetFileLength f hf _)

theorem settles_hiveIpfsGetFileToBuffer (hconnect : ∀ c ∈ connect, c.LeavesError) (cid dst : Option Bytes) (buflen : Nat) :
    SettlesPair true (hiveIpfsGetFileToBuffer connect cid dst buflen) := by
  unfold hiveIpfsGetFileToBuffer
  rcases connect with _ | c
  · exact settles_failWith_pair invalidArgs_neg _
  rcases nonEmpty cid with _ | cid
  · exact settles_failWith_pair invalidArgs_neg _
  rcases dst with _ | block
  · exact settles_failWith_pair invalidArgs_neg _
  · exact .ite (fun _ => settles_failWith_pair invalidArgs_neg _) fun _ => settles_dispatchBuffer <|
      leavesError_of_map fun f hf => (hconnect c rfl).ipfsGetFileToBuffer f hf _ _ _

theorem settles_hiveIpfsGetFile (hconnect : ∀ c ∈ connect, c.LeavesError) (cid dst : Option Bytes) :
    SettlesInt true (hiveIpfsGetFile connect cid dst) := by
  unfold hiveIpfsGetFile
  rcases connect with _ | c
  · exact settles_failWith invalidArgs_neg
  rcases nonEmpty cid with _ | cid
  · exact settles_failWith invalidArgs_neg
  rcases nonEmpty dst with _ | dst
  · exact settles_failWith invalidArgs_neg
  refine (settles_hiveIpfsGetFileLength hconnect _).bind ?_ fun fsize hpos => ?_
  · rintro fsize err ⟨rfl, hneg⟩
    exact ⟨-1, rfl, rfl, hneg⟩
  refine .ite (fun hneg => absurd hpos (not_le.2 hneg)) fun _ => settles_createAndFill (fun size => ?_) ?_
  · rcases hget : c.ipfsGetFileToBuffer with _ | f
    · exact .after (.call _) fun never => by cases never
    refine .after ((hconnect c rfl).ipfsGetFileToBuffer f hget _ _ _) fun x => ?_
    exact .ite (fun hneg => .error hneg) fun hpos => .pure (not_lt.1 hpos)
  · have hunlink : ∀ e : Errno, SettlesInt true ((do
        hiveSetError (cInt (hiveSysError e))
        unlink dst : Hive σ Unit) >>= fun _ => pure (-1)) := by
      intro e
      rw [bind_assoc]
      exact .stored fun _ => ⟨rfl, fun hsize => by cases hsize⟩
    rw [bind_assoc]
    exact .errno (f := fun e => (do
      hiveSetError (cInt (hiveSysError e))
      unlink dst) >>= fun _ => pure (-1)) hunlink

end

/-! ### Keys -/

section
variable {connect : Option (HiveConnect σ)} {isSize : Bool}

theorem settles_hivePutValue (hconnect : ∀ c ∈ connect, c.LeavesError) (key value : Option Bytes) (length : Nat) :
    SettlesInt isSize (hivePutValue connect key value length) := by
  unfold hivePutValue
  rcases connect with _ | c
  · exact settles_failWith invalidArgs_neg
  rcases nonEmpty key with _ | key
  · exact settles_failWith invalidArgs_neg
  rcases checkedValue value length with _ | value
  · exact settles_failWith invalidArgs_neg
  · exact settles_dispatch (leavesError_of_map fun f hf => (hconnect c rfl).putValue f hf _ _)

theorem settles_hiveSetValue (hconnect : ∀ c ∈ connect, c.LeavesError) (key value : Option Bytes) (length : Nat) :
    SettlesInt isSize (hiveSetValue connect key value length) := by
  unfold hiveSetValue
  rcases connect with _ | c
  · exact settles_failWith invalidArgs_neg
  rcases nonEmpty key with _ | key
  · exact settles_failWith invalidArgs_neg
  rcases checkedValue value length with _ | value
  · exact settles_failWith invalidArgs_neg
  · exact settles_dispatch (leavesError_of_map fun f hf => (hconnect c rfl).setValue f hf _ _)

theorem settles_hiveGetValues (hconnect : ∀ c ∈ connect, c.LeavesError) (key : Option Bytes) (callback : Bool) :
    SettlesInt isSize (hiveGetValues connect key callback) := by
  unfold hiveGetValues
  rcases connect with _ | c
  · exact settles_failWith invalidArgs_neg
  rcases nonEmpty key with _ | key
  · exact settles_failWith invalidArgs_neg
  cases callback with
  | false => exact settles_failWith invalidArgs_neg
  | true => exact settles_dispatch (leavesError_of_map fun f hf => (hconnect c rfl).getValues f hf _)

theorem settles_hiveDeleteKey (hconnect : ∀ c ∈ connect, c.LeavesError) (key : Option Bytes) :
    SettlesInt isSize (hiveDeleteKey connect key) := by
  unfold hiveDeleteKey
  rcases connect with _ | c
  · exact settles_failWith invalidArgs_neg
  rcases nonEmpty key with _ | key
  · exact settles_failWith invalidArgs_neg
  · exact settles_dispatch (leavesError_of_map fun f hf => (hconnect c rfl).deleteKey f hf _)

theorem settles_hiveSetAccessTokenExpired (hconnect : ∀ c ∈ connect, c.LeavesError) :
    SettlesInt isSize (hiveSetAccessTokenExpired connect) := by
  unfold hiveSetAccessTokenExpired
  rcases connect with _ | c
  · exact settles_failWith invalidArgs_neg
  · exact .ite (fun _ => .pure (le_refl 0)) fun _ => settles_dispatch fun m hm => (hconnect c rfl).expireToken m hm

end

/-! ### All of them -/

/-- The functions of `hive_file.c` and `hive_key.c`, with any arguments. -/
inductive PublicCall
  | putFile (source filename : Option Bytes)
  | putFileFromBuffer (source : Option Bytes) (length : Nat) (filename : Option Bytes)
  | getFileLength (filename : Option Bytes)
  | getFileToBuffer (filename dst : Option Bytes) (buflen : Nat)
  | getFile (filename dst : Option Bytes)
  | deleteFile (filename : Option Bytes)
  | listFiles (callback : Bool) (pages : Nat)
  | ipfsPutFile (source : Option Bytes) (cid : Bool)
  | ipfsPutFileFromBuffer (source : Option Bytes) (length : Nat) (cid : Bool)
  | ipfsGetFileLength (cid : Option Bytes)
  | ipfsGetFileToBuffer (cid dst : Option Bytes) (buflen : Nat)
  | ipfsGetFile (cid dst : Option Bytes)
  | putValue (key value : Option Bytes) (length : Nat)
  | setValue (key value : Option Bytes) (length : Nat)
  | getValues (key : Option Bytes) (callback : Bool)
  | deleteKey (key : Option Bytes)
  | setAccessTokenExpired

namespace PublicCall

/-- The number that is returned. A listing that is still following links has none. -/
def run (connect : Option (HiveConnect σ)) : PublicCall → Hive σ (Option Int)
  | putFile source filename => do return some (← hivePutFile connect source filename)
  | putFileFromBuffer source length filename => do
      return some (← hivePutFileFromBuffer connect source length filename)
  | getFileLength filename => do return some (← hiveGetFileLength connect filename)
  | getFileToBuffer filename dst buflen => do
      let result ← hiveGetFileToBuffer connect filename dst buflen
      return some result.1
  | getFile filename dst => do return some (← hiveGetFile connect filename dst)
  | deleteFile filename => do return some (← hiveDeleteFile connect filename)
  | listFiles callback pages => hiveListFiles connect callback pages
  | ipfsPutFile source cid => do
      let result ← hiveIpfsPutFile connect source cid
      return some result.1
  | ipfsPutFileFromBuffer source length cid => do
      let result ← hiveIpfsPutFileFromBuffer connect source length cid
      return some result.1
  | ipfsGetFileLength cid => do return some (← hiveIpfsGetFileLength connect cid)
  | ipfsGetFileToBuffer cid dst buflen => do
      let result ← hiveIpfsGetFileToBuffer connect cid dst buflen
      return some result.1
  | ipfsGetFile cid dst => do return some (← hiveIpfsGetFile connect cid dst)
  | putValue key value length => do return some (← hivePutValue connect key value length)
  | setValue key value length => do return some (← hiveSetValue connect key value length)
  | getValues key callback => do return some (← hiveGetValues connect key callback)
  | deleteKey key => do return some (← hiveDeleteKey connect key)
  | setAccessTokenExpired => do return some (← hiveSetAccessTokenExpired connect)

/-- The functions that return a size. -/
def isSize : PublicCall → Bool
  | getFileLength _ | getFileToBuffer _ _ _ | getFile _ _ | ipfsGetFileLength _ | ipfsGetFileToBuffer _ _ _
  | ipfsGetFile _ _ => true
  | _ => false

theorem settles_run {connect : Option (HiveConnect σ)} (hconnect : ∀ c ∈ connect, c.LeavesError) (call : PublicCall) :
    Settles (fun rc err => ∃ n, rc = some n ∧ FailsAs call.isSize n err) (fun rc => ∀ n, rc = some n → 0 ≤ n)
      (call.run connect) := by
  have hint : ∀ {isSize : Bool} {m : Hive σ Int}, SettlesInt isSize m →
      Settles (fun rc err => ∃ n, rc = some n ∧ FailsAs isSize n err) (fun rc => ∀ n, rc = some n → 0 ≤ n)
        (do return some (← m)) := fun h =>
    h.map (fun n _ hfails => ⟨n, rfl, hfails⟩) fun n hpos m hm => Option.some.inj hm ▸ hpos
  have hpair : ∀ {isSize : Bool} {β : Type} {m : Hive σ (Int × β)}, SettlesPair isSize m →
      Settles (fun rc err => ∃ n, rc = some n ∧ FailsAs isSize n err) (fun rc => ∀ n, rc = some n → 0 ≤ n)
        (do
          let result ← m
          return some result.1) := fun h =>
    h.map (fun x _ hfails => ⟨x.1, rfl, hfails⟩) fun x hpos m hm => Option.some.inj hm ▸ hpos
  cases call with
  | putFile source filename => exact hint (settles_hivePutFile hconnect _ _)
  | putFileFromBuffer source length filename => exact hint (settles_hivePutFileFromBuffer hconnect _ _ _)
  | getFileLength filename => exact hint (settles_hiveGetFileLength hconnect _)
  | getFileToBuffer filename dst buflen => exact hpair (settles_hiveGetFileToBuffer hconnect _ _ _)
  | getFile filename dst => exact hint (settles_hiveGetFile hconnect _ _)
  | deleteFile filename => exact hint (settles_hiveDeleteFile hconnect _)
  | listFiles callback pages => exact settles_hiveListFiles hconnect _ _
  | ipfsPutFile source cid => exact hpair (settles_hiveIpfsPutFile hconnect _ _)
  | ipfsPutFileFromBuffer source length cid => exact hpair (settles_hiveIpfsPutFileFromBuffer hconnect _ _ _)
  | ipfsGetFileLength cid => exact hint (settles_hiveIpfsGetFileLength hconnect _)
  | ipfsGetFileToBuffer cid dst buflen => exact hpair (settles_hiveIpfsGetFileToBuffer hconnect _ _ _)
  | ipfsGetFile cid dst => exact hint (settles_hiveIpfsGetFile hconnect _ _)
  | putValue key value length => exact hint (settles_hivePutValue hconnect _ _ _)
  | setValue key value length => exact hint (settles_hiveSetValue hconnect _ _ _)
  | getValues key callback => exact hint (settles_hiveGetValues hconnect _ _)
  | deleteKey key => exact hint (settles_hiveDeleteKey hconnect _)
  | setAccessTokenExpired => exact hint (settles_hiveSetAccessTokenExpired hconnect)

end PublicCall

/-- Every public function on a connect of either backend, or on a null pointer, with any arguments and whatever happens: if it fails it returns -1 and has stored a code of its own, a negative one unless it is cut from a size, and otherwise it leaves the error alone; neither depends on what the error was before. -/
theorem failures_are_reported {connect : Option (HiveConnect σ)} (hbackend : ∀ c ∈ connect, IsBackend σ c)
    {call : PublicCall} {p p' : Process σ} {tr : Trace} {rc : Int} (hrun : Run (call.run connect p) tr (some rc, p')) :
    rc = -1 ∧ (call.isSize = false → p'.hiveError < 0)
        ∧ (∀ e, Run (call.run connect (withError e p)) tr (some rc, p'))
      ∨ 0 ≤ rc ∧ p'.hiveError = p.hiveError
        ∧ ∀ e, Run (call.run connect (withError e p)) tr (some rc, withError e p') := by
  have hsettles := call.settles_run fun c hc => (hbackend c hc).leavesError
  have hends : ∀ e, ∃ y, Run (call.run connect (withError e p)) tr y
      ∧ Settled (fun rc err => ∃ n, rc = some n ∧ FailsAs call.isSize n err) (fun rc => ∀ n, rc = some n → 0 ≤ n) e
        (some rc, p') y := fun e => (hsettles p e).run hrun
  obtain ⟨y, hrun', hy⟩ := hends p.hiveError
  rcases hy with ⟨_, n, hn, hminus, hneg⟩ | ⟨_, hpos⟩
  · obtain rfl : rc = n := Option.some.inj hn
    refine .inl ⟨hminus, hneg, fun e => ?_⟩
    obtain ⟨z, hrun'', hz⟩ := hends e
    rcases hz with ⟨_, -⟩ | ⟨_, hpos⟩
    · exact hrun''
    · have hrc := hpos rc rfl
      omega
  · have hrc := hpos rc rfl
    have hsame : Run (call.run connect p) tr (some rc, withError p.hiveError p') := hrun'
    refine .inr ⟨hrc, congrArg (fun x => x.2.hiveError) (hrun.unique hsame), fun e => ?_⟩
    obtain ⟨z, hrun'', hz⟩ := hends e
    rcases hz with ⟨_, n, hn, hminus, -⟩ | ⟨_, -⟩
    · obtain rfl : rc = n := Option.some.inj hn
      omega
    · exact hrun''

/-- A delete that gets no client. -/
theorem failures_are_reported_demo : cInt (hiveGeneralError HiveErr.outOfMemory) < 0
    ∧ ∀ e, Run ((PublicCall.deleteKey (some demoKey)).run (some OneDrive.table)
        (withError e demoProcess)) [⟨.gettimeofday, demoTime⟩, ⟨.httpClientNew .deleteFile, false⟩]
      (some (-1), withError (cInt (hiveGeneralError HiveErr.outOfMemory)) demoProcess) := by
  have hbackend : ∀ c ∈ some OneDrive.table, IsBackend OneDriveConnect c := by
    rintro c ⟨⟩
    exact .oneDrive
  have hrun : Run ((PublicCall.deleteKey (some demoKey)).run (some OneDrive.table) demoProcess)
      [⟨.gettimeofday, demoTime⟩, ⟨.httpClientNew .deleteFile, false⟩]
      (some (-1), withError (cInt (hiveGeneralError HiveErr.outOfMemory)) demoProcess) := by
    iterate 2 refine .ask _ _ _ ?_
    exact .refl _
  rcases failures_are_reported hbackend hrun with ⟨-, hneg, hsame⟩ | ⟨hpos, -⟩
  · exact ⟨hneg rfl, hsame⟩
  · omega

end HiveSdk
