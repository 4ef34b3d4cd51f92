import HiveSdk.Names.Items

/-!
# Operations on names

A public function that is given the name of a file or a key checks its arguments and makes a few calls of the item functions, on one path. What it does besides that is local, so a property of runs that local calls do not touch is a property of the item functions.
-/

namespace HiveSdk

open Interaction
open Proc (Within Preserves)

/-- A string that is accepted as a name. -/
structure Name where
  text : Bytes
  ne_nil : text ≠ []
  zero_notMem : 0 ∉ text

/-- The operations on a name, with the other arguments as the public functions accept them. -/
inductive Operation
  | putFileFromBuffer (content : Bytes) (hsize : content.length ≤ hiveMaxFileSize)
  | putFile (source : Name)
  | getFileLength
  | getFileToBuffer (block : Bytes) (buflen : Nat) (hbuflen : buflen ≠ 0)
  | getFile (dst : Name)
  | deleteFile
  | putValue (value : Bytes) (hvalue : value ≠ []) (hsize : value.length ≤ hiveMaxValueLen)
  | setValue (value : Bytes) (hvalue : value ≠ []) (hsize : value.length ≤ hiveMaxValueLen)
  | getValues
  | deleteKey

namespace Operation

/-- The call, and the number it returns. -/
def run (name : Name) : Operation → Hive OneDriveConnect Int
  | putFileFromBuffer content _ =>
      hivePutFileFromBuffer (some OneDrive.table) (some content) content.length (some name.text)
  | putFile source => hivePutFile (some OneDrive.table) (some source.text) (some name.text)
  | getFileLength => hiveGetFileLength (some OneDrive.table) (some name.text)
  | getFileToBuffer block buflen _ => do
      let (rc, _) ← hiveGetFileToBuffer (some OneDrive.table) (some name.text) (some block) buflen
      return rc
  | getFile dst => hiveGetFile (some OneDrive.table) (some name.text) (some dst.text)
  | deleteFile => hiveDeleteFile (some OneDrive.table) (some name.text)
  | putValue value _ _ => hivePutValue (some OneDrive.table) (some name.text) (some value) value.length
  | setValue value _ _ => hiveSetValue (some OneDrive.table) (some name.text) (some value) value.length
  | getValues => hiveGetValues (some OneDrive.table) (some name.text) true
  | deleteKey => hiveDeleteKey (some OneDrive.table) (some name.text)

/-- The folder of the name. -/
def dir : Operation → Bytes
  | putFileFromBuffer _ _ | putFile _ | getFileLength | getFileToBuffer _ _ _ | getFile _ | deleteFile =>
      filesDir
  | putValue _ _ _ | setValue _ _ _ | getValues | deleteKey => keysDir

/-- The path that the name is given in its folder. A key's path is cut where its buffer ends. -/
def path (op : Operation) (name : Name) : Bytes := snprintf pathMax (op.dir ++ bytes "/" ++ name.text)

/-- The functions that read or delete a file compare the path with the size of its buffer. -/
def checksPath : Operation → Bool
  | getFileLength | getFileToBuffer _ _ _ | getFile _ | deleteFile => true
  | _ => false

/-- The operation fails before it formats a URL. -/
def Refuses (op : Operation) (name : Name) : Prop :=
  op.checksPath ∧ (OneDrive.filePath name.text).length ≥ pathMax

/-- The calls that the operation may make. The content that `put_file` and `put_value` upload is not known before. -/
def Makes : Operation → ItemCall → Prop
  | putFileFromBuffer content _, .put content' => content' = content
  | putFile _, .put _ => True
  | getFileLength, .length => True
  | getFileToBuffer _ _ _, .get _ _ => True
  | getFile _, .length | getFile _, .get _ _ => True
  | deleteFile, .delete => True
  | putValue _ _ _, .length | putValue _ _ _, .get _ _ | putValue _ _ _, .put _ => True
  | setValue value _ _, .put content => content = OneDrive.htonl value.length ++ value
  | getValues, .length | getValues, .get _ _ => True
  | deleteKey, .delete => True
  | _, _ => False

end Operation

/-! ### What the public functions make of accepted arguments -/

namespace Operation

section
variable (name : Name)

private theorem nonEmpty_text : nonEmpty (some name.text) = some name.text := by
  rw [nonEmpty, Option.filter_some, if_pos (by simpa using name.ne_nil)]

private theorem checkedValue_of {value : Bytes} (hvalue : value ≠ [])
    (hsize : value.length ≤ hiveMaxValueLen) : checkedValue (some value) value.length = some value := by
  have haccepted : ¬ (value.length = 0 ∨ value.length > hiveMaxValueLen) := by
    have hpos := List.length_pos_iff.2 hvalue
    omega
  show (if value.length = 0 ∨ value.length > hiveMaxValueLen then none
    else some (value.take value.length)) = some value
  rw [if_neg haccepted, List.take_length]

theorem hivePutFileFromBuffer_eq {content : Bytes} (hsize : content.length ≤ hiveMaxFileSize) :
    hivePutFileFromBuffer (some OneDrive.table) (some content) content.length (some name.text)
      = dispatch (some (OneDrive.putFileFromBuffer content name.text)) := by
  have haccepted : ¬ ((some content).isNone ∧ content.length ≠ 0 ∨ content.length > hiveMaxFileSize) := by
    simpa using hsize
  unfold hivePutFileFromBuffer
  rw [nonEmpty_text]
  dsimp only
  rw [if_neg haccepted, Option.getD_some, List.take_length]
  rfl

theorem hivePutFileFromBuffer_large {content : Bytes} (hsize : hiveMaxFileSize < content.length) :
    hivePutFileFromBuffer (some OneDrive.table) (some content) content.length (some name.text)
      = failWith invalidArgs := by
  unfold hivePutFileFromBuffer
  rw [nonEmpty_text]
  dsimp only
  rw [if_pos (Or.inr hsize)]

theorem hiveGetFileLength_eq : hiveGetFileLength (some OneDrive.table) (some name.text)
    = dispatchLength (some (lengthOf (OneDrive.getFileLength name.text))) := by
  unfold hiveGetFileLength
  rw [nonEmpty_text]
  rfl

theorem hiveGetFileToBuffer_eq {block : Bytes} {buflen : Nat} (hbuflen : buflen ≠ 0) :
    hiveGetFileToBuffer (some OneDrive.table) (some name.text) (some block) buflen
      = dispatchBuffer (some (bufferOf (OneDrive.getFileToBuffer name.text block buflen))) block := by
  unfold hiveGetFileToBuffer
  rw [nonEmpty_text]
  dsimp only
  rw [if_neg hbuflen]
  rfl

theorem hiveGetFileToBuffer_zero {block : Bytes} :
    hiveGetFileToBuffer (some OneDrive.table) (some name.text) (some block) 0 = (do
      return (← failWith invalidArgs, block)) := by
  unfold hiveGetFileToBuffer
  rw [nonEmpty_text]
  rfl

theorem hiveDeleteFile_eq : hiveDeleteFile (some OneDrive.table) (some name.text)
    = dispatch (some (OneDrive.deleteFile name.text)) := by
  unfold hiveDeleteFile
  rw [nonEmpty_text]
  rfl

theorem hivePutValue_eq {value : Bytes} (hvalue : value ≠ [])
    (hsize : value.length ≤ hiveMaxValueLen) :
    hivePutValue (some OneDrive.table) (some name.text) (some value) value.length
      = dispatch (some (OneDrive.putValue name.text value)) := by
  unfold hivePutValue
  rw [nonEmpty_text, checkedValue_of hvalue hsize]
  rfl

theorem hiveSetValue_eq {value : Bytes} (hvalue : value ≠ [])
    (hsize : value.length ≤ hiveMaxValueLen) :
    hiveSetValue (some OneDrive.table) (some name.text) (some value) value.length
      = dispatch (some (OneDrive.setValue name.text value)) := by
  unfold hiveSetValue
  rw [nonEmpty_text, checkedValue_of hvalue hsize]
  rfl

theorem hiveGetValues_eq : hiveGetValues (some OneDrive.table) (some name.text) true
    = dispatch (some (OneDrive.getValues name.text)) := by
  unfold hiveGetValues
  rw [nonEmpty_text]
  rfl

theorem hiveDeleteKey_eq : hiveDeleteKey (some OneDrive.table) (some name.text)
    = dispatch (some (OneDrive.deleteKey name.text)) := by
  unfold hiveDeleteKey
  rw [nonEmpty_text]
  rfl

theorem hivePutFile_eq (source : Name) :
    hivePutFile (some OneDrive.table) (some source.text) (some name.text) = (do
      (← readLocalFile source.text).elim (pure (-1)) fun data =>
        hivePutFileFromBuffer (some OneDrive.table) (some data) data.length (some name.text)) := by
  unfold hivePutFile
  simp only [nonEmpty_text]
  apply bind_congr
  intro data
  rcases data with _ | data <;> rfl

theorem hiveGetFile_eq (dst : Name) :
    hiveGetFile (some OneDrive.table) (some name.text) (some dst.text) = (do
      let fsize ← hiveGetFileLength (some OneDrive.table) (some name.text)
      if fsize < 0 then return -1
      createAndFill dst.text fsize
        (fun size => hiveGetFileToBuffer (some OneDrive.table) (some name.text)
          (some (List.replicate size 0)) size)
        (do
          unlink name.text
          hiveSetError (cInt (hiveSysError (← get).errno)))) := by
  unfold hiveGetFile
  simp only [nonEmpty_text]

end

end Operation

/-! ### Invariants -/

/-- The calls that a public function makes itself: those on local files, buffers and callbacks. -/
def IsLocalCall : Event → Prop
  | .alloc _ | .openFile _ _ | .lseekEnd _ | .read _ _ | .write _ _ | .unlink _ | .valuesCallback _ _
  | .undefined => True
  | _ => False

theorem IsLocalCall.isAside {e : Event} (h : IsLocalCall e) : IsAside e := by
  cases e <;> first | exact trivial | exact h.elim

/-- An invariant of the connect that local calls leave alone. -/
structure AboutItems {σ τ : Type} (W : World Event Event.Answer τ) (I : Process σ → τ → Prop) : Prop where
  conn : ∀ p p' s, p'.conn = p.conn → I p s → I p' s
  call : ∀ e, IsLocalCall e → ∀ p s, I p s → W.pre s e ∧ ∀ r t, W.step s e r t → I p t

section
variable {σ τ α : Type} {W : World Event Event.Answer τ} {I : Process σ → τ → Prop}

theorem AboutItems.preserves_call (hI : AboutItems W I) {e : Event} (he : IsLocalCall e) :
    Preserves W I (Interaction.call e : Hive σ e.Answer) := .call (hI.call e he)

theorem AboutItems.preserves_setErrno (hI : AboutItems W I) {e : Errno} :
    Preserves W I (setErrno e : Hive σ Unit) := .modify fun p s h => hI.conn p _ s rfl h

theorem AboutItems.preserves_hiveSetError (hI : AboutItems W I) {err : Int} :
    Preserves W I (hiveSetError err : Hive σ Unit) := .modify fun p s h => hI.conn p _ s rfl h

theorem AboutItems.preserves_undefinedBehaviour (hI : AboutItems W I) :
    Preserves W I (undefinedBehaviour : Hive σ α) :=
  fun p s h => (wp_undefinedBehaviour W p s _).2 (hI.call .undefined trivial p s h).1

theorem AboutItems.preserves_failWith (hI : AboutItems W I) {err : Int} :
    Preserves W I (failWith err : Hive σ Int) :=
  hI.preserves_hiveSetError.bind fun _ => .pure _

theorem AboutItems.preserves_dispatch (hI : AboutItems W I) {f : Hive σ Int} (h : Preserves W I f) :
    Preserves W I (dispatch (some f)) :=
  h.bind fun _ => .ite (fun _ => hI.preserves_failWith) fun _ => .pure _

theorem AboutItems.preserves_dispatchLength (hI : AboutItems W I) {f : Hive σ Int}
    (h : Preserves W I f) : Preserves W I (dispatchLength (some f)) :=
  h.bind fun _ => .ite (fun _ => hI.preserves_failWith) fun _ => .pure _

theorem AboutItems.preserves_dispatchBuffer (hI : AboutItems W I) {f : Hive σ (Int × Bytes)}
    {block : Bytes} (h : Preserves W I f) : Preserves W I (dispatchBuffer (some f) block) :=
  h.bind fun _ => .ite (fun _ => hI.preserves_failWith.bind fun _ => .pure _) fun _ => .pure _

theorem AboutItems.preserves_readLocalFile (hI : AboutItems W I) {path : Bytes} :
    Preserves W I (readLocalFile path : Hive σ (Option Bytes)) := by
  have hnone : ∀ err, Preserves W I (hiveSetError err >>= fun _ => pure none : Hive σ (Option Bytes)) :=
    fun err => hI.preserves_hiveSetError.bind fun _ => .pure none
  refine .bind (hI.preserves_call trivial) fun opened => ?_
  rcases opened with e | _
  · exact hI.preserves_setErrno.bind fun _ => hnone _
  refine .bind (hI.preserves_call trivial) fun length => .ite (fun _ => hnone _) fun _ => ?_
  refine .bind (hI.preserves_call trivial) fun ok => .ite (fun _ => hnone _) fun _ => ?_
  refine .bind (hI.preserves_call trivial) fun read => ?_
  rcases read with e | data
  · exact hI.preserves_setErrno.bind fun _ => hnone _
  · exact .ite (fun _ => Preserves.get.bind fun _ => hnone _) fun _ => .pure _

theorem AboutItems.preserves_writeBuffer (hI : AboutItems W I) {dst block : Bytes} {fsize : Int} :
    Preserves W I (writeBuffer dst block fsize : Hive σ Int) := by
  refine .ite (fun _ => hI.preserves_undefinedBehaviour.bind fun _ => ?_) fun _ => ?_
  all_goals
    refine .bind (hI.preserves_call trivial) fun written => ?_
    rcases written with e | n
    · exact hI.preserves_setErrno.bind fun _ => .pure _
    · exact .pure _

theorem AboutItems.preserves_unlink (hI : AboutItems W I) {path : Bytes} :
    Preserves W I (unlink path : Hive σ Unit) := by
  refine .bind (hI.preserves_call trivial) fun removed => ?_
  rcases removed with e | _
  · exact hI.preserves_setErrno
  · exact .pure _

theorem AboutItems.preserves_createAndFill (hI : AboutItems W I) {dst : Bytes} {fsize : Int}
    {fetch : Nat → Hive σ (Int × Bytes)} {clear : Hive σ Unit} (hfetch : ∀ size, Preserves W I (fetch size))
    (hclear : Preserves W I clear) : Preserves W I (createAndFill dst fsize fetch clear) := by
  refine .bind (hI.preserves_call trivial) fun opened => ?_
  rcases opened with e | _
  · exact hI.preserves_setErrno.bind fun _ => hI.preserves_failWith
  refine .ite (fun _ => .pure _) fun _ => .bind (hI.preserves_call trivial) fun ok => ?_
  refine .ite (fun _ => hI.preserves_failWith) fun _ => (hfetch _).bind fun result => ?_
  refine .ite (fun _ => .pure _) fun _ => hI.preserves_writeBuffer.bind fun nwr => ?_
  exact .ite (fun _ => hclear.bind fun _ => .pure _) fun _ => .pure _

end

/-! The functions of the table, from the calls on their path. -/

namespace OneDrive

section
variable {τ : Type} {W : World Event Event.Answer τ} {I : Process OneDriveConnect → τ → Prop}
  {path value key rest : Bytes} {size dataLen : Int}

theorem preserves_appendValue (hI : AboutItems W I)
    (hget : ∀ block buflen, Preserves W I (Item.getFileToBuffer path block buflen))
    (hput : ∀ content, Preserves W I (Item.putFileFromBuffer content path)) :
    Preserves W I (appendValue path value size) := by
  refine .bind (hI.preserves_call trivial) fun ok => .ite (fun _ => .pure _) fun _ => ?_
  refine .ite (fun _ => (hget _ _).bind fun result => ?_) fun _ => hput _
  exact .ite (fun _ => .pure _) fun _ => .ite (fun _ => .pure _) fun _ => hput _

theorem preserves_walkValues (hI : AboutItems W I) : Preserves W I (walkValues key rest dataLen) := by
  fun_induction walkValues key rest dataLen with
  | case1 | case2 => exact .pure _
  | case3 | case5 => exact hI.preserves_undefinedBehaviour
  | case4 _ _ _ _ _ _ _ _ _ _ _ ih =>
      exact .bind (hI.preserves_call trivial) fun proceed => .ite (fun _ => .pure _) fun _ => ih

theorem preserves_readValues (hI : AboutItems W I)
    (hget : ∀ block buflen, Preserves W I (Item.getFileToBuffer (keyPath key) block buflen)) :
    Preserves W I (readValues key dataLen) := by
  refine .ite (fun _ => .pure _) fun _ => .ite (fun _ => .pure _) fun _ => ?_
  refine .bind (hI.preserves_call trivial) fun ok => .ite (fun _ => .pure _) fun _ => ?_
  refine (hget _ _).bind fun result => ?_
  exact .ite (fun _ => .pure _) fun _ => .ite (fun _ => .pure _) fun _ => preserves_walkValues hI

end

end OneDrive

namespace Operation

section
variable {τ : Type} {W : World Event Event.Answer τ} {I : Process OneDriveConnect → τ → Prop}
  {op : Operation} {name : Name}

/-- The functions that check the path. -/
private theorem preserves_checked (op : Operation) (hdir : op.dir = filesDir) {α : Type} {refused : α}
    {rest : Hive OneDriveConnect α}
    (h : ¬ op.Refuses name → op.path name = OneDrive.filePath name.text → Preserves W I rest) :
    Preserves W I (if (OneDrive.filePath name.text).length ≥ pathMax then pure refused else rest) := by
  refine .ite (fun _ => .pure refused) fun hshort => h (fun hrefuses => hshort hrefuses.2) ?_
  rw [path, hdir]
  exact snprintf_eq_self (not_le.1 hshort)

private theorem preserves_hivePutFileFromBuffer (hI : AboutItems W I) {content : Bytes}
    (h : Preserves W I (OneDrive.putFileFromBuffer content name.text)) :
    Preserves W I (hivePutFileFromBuffer (some OneDrive.table) (some content) content.length
      (some name.text)) := by
  by_cases hsize : content.length ≤ hiveMaxFileSize
  · rw [hivePutFileFromBuffer_eq name hsize]
    exact hI.preserves_dispatch h
  · rw [hivePutFileFromBuffer_large name (not_le.1 hsize)]
    exact hI.preserves_failWith

private theorem preserves_hiveGetFileLength (hI : AboutItems W I)
    (h : Preserves W I (OneDrive.getFileLength name.text)) :
    Preserves W I (hiveGetFileLength (some OneDrive.table) (some name.text)) := by
  rw [hiveGetFileLength_eq]
  exact hI.preserves_dispatchLength (h.bind fun _ => .pure _)

private theorem preserves_hiveGetFileToBuffer (hI : AboutItems W I) {block : Bytes} {buflen : Nat}
    (h : Preserves W I (OneDrive.getFileToBuffer name.text block buflen)) :
    Preserves W I (hiveGetFileToBuffer (some OneDrive.table) (some name.text) (some block) buflen) := by
  by_cases hbuflen : buflen = 0
  · rw [hbuflen, hiveGetFileToBuffer_zero]
    exact hI.preserves_failWith.bind fun _ => .pure _
  · rw [hiveGetFileToBuffer_eq name hbuflen]
    exact hI.preserves_dispatchBuffer (h.bind fun _ => .pure _)

/-- A public function preserves what each of its calls preserves; where it refuses the path it makes none. -/
theorem preserves_run (hI : AboutItems W I)
    (h : ¬ op.Refuses name → ∀ c, op.Makes c → c.Preserved W I (op.path name)) :
    Preserves W I (op.run name) := by
  have hunchecked : op.checksPath = false → ∀ c, op.Makes c → c.Preserved W I (op.path name) :=
    fun hchecks => h fun hrefuses => Bool.false_ne_true (hchecks.symm.trans hrefuses.1)
  cases op with
  | putFileFromBuffer content hsize =>
      exact preserves_hivePutFileFromBuffer hI (hunchecked rfl (.put content) rfl)
  | putFile source =>
      rw [run, hivePutFile_eq]
      refine hI.preserves_readLocalFile.bind fun data => ?_
      rcases data with _ | data
      · exact .pure _
      · exact preserves_hivePutFileFromBuffer hI (hunchecked rfl (.put data) trivial)
  | getFileLength =>
      refine preserves_hiveGetFileLength hI (preserves_checked .getFileLength rfl fun hkept hpath => ?_)
      exact hpath ▸ h hkept .length trivial
  | getFileToBuffer block buflen hbuflen =>
      have hget : Preserves W I (OneDrive.getFileToBuffer name.text block buflen) :=
        preserves_checked (.getFileToBuffer block buflen hbuflen) rfl fun hkept hpath =>
          hpath ▸ h hkept (.get block buflen) trivial
      exact (preserves_hiveGetFileToBuffer hI hget).bind fun _ => .pure _
  | getFile dst =>
      rw [run, hiveGetFile_eq]
      have hlength : Preserves W I (OneDrive.getFileLength name.text) :=
        preserves_checked (.getFile dst) rfl fun hkept hpath => hpath ▸ h hkept .length trivial
      have hget : ∀ block buflen, Preserves W I (OneDrive.getFileToBuffer name.text block buflen) :=
        fun block buflen => preserves_checked (.getFile dst) rfl fun hkept hpath =>
          hpath ▸ h hkept (.get block buflen) trivial
      refine (preserves_hiveGetFileLength hI hlength).bind fun fsize => ?_
      refine .ite (fun _ => .pure _) fun _ => hI.preserves_createAndFill ?_ ?_
      · exact fun size => preserves_hiveGetFileToBuffer hI (hget _ size)
      · exact hI.preserves_unlink.bind fun _ => Preserves.get.bind fun _ => hI.preserves_hiveSetError
  | deleteFile =>
      rw [run, hiveDeleteFile_eq]
      refine hI.preserves_dispatch (preserves_checked .deleteFile rfl fun hkept hpath => ?_)
      exact hpath ▸ h hkept .delete trivial
  | putValue value hvalue hsize =>
      rw [run, hivePutValue_eq name hvalue hsize]
      have hcall := hunchecked rfl
      have happend : ∀ size, Preserves W I (OneDrive.appendValue (OneDrive.keyPath name.text) value size) :=
        fun size => OneDrive.preserves_appendValue hI (fun block buflen => hcall (.get block buflen) trivial)
          fun content => hcall (.put content) trivial
      refine hI.preserves_dispatch (Preserves.bind (hcall .length trivial) fun exit => ?_)
      exact .ite (fun _ => happend 0) fun _ => .ite (fun _ => .pure _) fun _ => happend _
  | setValue value hvalue hsize =>
      rw [run, hiveSetValue_eq name hvalue hsize]
      refine hI.preserves_dispatch (.bind (hI.preserves_call trivial) fun _ => .ite (fun _ => .pure _) fun _ => ?_)
      exact hunchecked rfl (.put (OneDrive.htonl value.length ++ value)) rfl
  | getValues =>
      rw [run, hiveGetValues_eq]
      have hcall := hunchecked rfl
      have hread : ∀ size, Preserves W I (OneDrive.readValues name.text size) := fun size =>
        OneDrive.preserves_readValues hI fun block buflen => hcall (.get block buflen) trivial
      refine hI.preserves_dispatch (Preserves.bind (hcall .length trivial) fun exit => ?_)
      exact .ite (fun _ => hread _) fun _ => .ite (fun _ => .pure _) fun _ => hread _
  | deleteKey =>
      rw [run, hiveDeleteKey_eq]
      refine hI.preserves_dispatch (Preserves.bind (hunchecked rfl .delete trivial) fun rc => ?_)
      exact .ite (fun _ => .pure _) fun _ => .pure _

/-- A set of calls that contains what the URLs of the calls lead to is kept to. -/
theorem within_run {φ : Event → Prop} (hφ : Indifferent φ)
    (h : ¬ op.Refuses name → ∀ c, op.Makes c → ∀ url, c.Formats (op.path name) url → Reaches φ url) :
    Within φ (op.run name) := by
  have hguard : AboutItems (World.guard φ) (fun (_ : Process OneDriveConnect) _ => True) := by
    refine ⟨fun _ _ _ _ _ => trivial, fun e he p s _ => ?_⟩
    exact ⟨hφ e he.isAside, fun _ _ _ => trivial⟩
  apply Proc.within_iff_preserves.2
  exact preserves_run hguard fun hkept c hmakes =>
    ItemCall.preserved_of_reaches hφ (h hkept c hmakes)

end

end Operation

end HiveSdk
