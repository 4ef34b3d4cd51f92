import HiveSdk.Errors.Refresh

/-!
# Look-ups and downloads in any environment

To read an item the library looks at the token, asks for the item and fetches what it is referred to. Whatever the answers are, all of its own requests are of the kind that asks, so nothing it does can change an item.
-/

namespace HiveSdk

open Interaction

/-- The calls by which an item is read, when the token has been looked at. -/
def ReadCall : Event → Prop
  | .perform req => req.method = .get
  | .realloc _ | .heapAfter _ | .cjsonParse _ | .urlOverrun _ | .undefined => True
  | _ => False

/-- The calls of a whole look-up or download. -/
def LookUpCall (e : Event) : Prop :=
  TokenCall e ∨ ReadCall e ∨ e = .httpClientNew .getFileLength ∨ e = .httpClientNew .getFileToBuffer

namespace Item

variable {p : Process OneDriveConnect}

theorem guard_getFileInfo {path : Bytes} {query : InfoQuery}
    {Q : Except Int FileInfo → Process OneDriveConnect → Unit → Prop}
    (h : ∀ result p', Q result p' ()) :
    Proc.wp (World.guard ReadCall) (getFileInfo path query) Q p () := by
  simp only [getFileInfo, Proc.wp_bind, wp_formatUrl]
  refine ⟨fun _ => ⟨trivial, fun _ _ _ => trivial⟩, fun _ => ?_⟩
  apply wp_sendAuthorized_any
  · exact fun _ _ _ _ _ => trivial
  · exact fun _ _ _ _ _ => rfl
  · trivial
  · exact fun _ => rfl
  · intro headers reply t _ status response
    simp only [Proc.wp_ite, Proc.wp_pure, Proc.wp_bind]
    refine ⟨fun _ => h _ p, fun _ => ?_⟩
    apply wp_httpClientMoveResponseBody fun _ => trivial
    intro _
    dsimp only
    rw [Proc.wp_bind]
    apply wp_cjsonParse_any trivial (fun _ _ _ => rfl) trivial (fun _ => trivial) fun _ _ _ _ => rfl
    intro json
    rcases json with _ | json
    · exact h _ p
    dsimp only
    rcases query.read json with _ | info
    · exact h _ p
    · exact h _ p
  · intro headers reply t _ err p' _
    exact h _ p'

theorem guard_downloadFile {url block : Bytes}
    {Q : Int × Bytes → Process OneDriveConnect → Unit → Prop} (h : ∀ result p', Q result p' ()) :
    Proc.wp (World.guard ReadCall) (downloadFile url block) Q p () := by
  simp only [downloadFile, httpClientRequest, Proc.wp_bind, Proc.wp_guard_call]
  refine ⟨rfl, fun reply => ?_⟩
  rw [Proc.wp_pure]
  dsimp only
  rcases storeChunks block 0 reply.chunks with _ | block'
  · exact (wp_undefinedBehaviour ..).2 trivial
  simp only [Proc.wp_ite, Proc.wp_pure]
  exact ⟨fun _ => h _ p, fun _ => ⟨fun _ => h _ p, fun _ => ⟨fun _ => h _ p, fun _ => h _ p⟩⟩⟩

private theorem guard_checkExpire {Q : Int → Process OneDriveConnect → Unit → Prop}
    (h : ∀ rc p', Q rc p' ()) : Proc.wp (World.guard LookUpCall) oauthTokenCheckExpire Q p () :=
  Proc.wp_guard_mono (fun _ he => .inl he) guard_oauthTokenCheckExpire fun rc p' _ => h rc p'

theorem guard_getFileLength {path : Bytes} {Q : Exit → Process OneDriveConnect → Unit → Prop}
    (h : ∀ exit p', Q exit p' ()) :
    Proc.wp (World.guard LookUpCall) (getFileLength path) Q p () := by
  rw [getFileLength, Proc.wp_bind]
  apply guard_checkExpire
  intro rc p₁
  simp only [Proc.wp_ite, Proc.wp_pure, Proc.wp_bind, Proc.wp_guard_call]
  refine ⟨fun _ => h _ p₁, fun _ => ⟨.inr (.inr (.inl rfl)), fun created => ?_⟩⟩
  refine ⟨fun _ => h _ p₁, fun _ => ?_⟩
  have hinfo : Proc.wp (World.guard ReadCall) (getFileInfo path .size) (fun _ _ _ => True) p₁ () :=
    guard_getFileInfo fun _ _ => trivial
  refine Proc.wp_guard_mono (fun _ he => .inr (.inl he)) hinfo fun result p₂ _ => ?_
  rcases result with rc | info
  · exact h _ p₂
  · exact h _ p₂

theorem guard_getFileToBuffer {path block : Bytes} {buflen : Nat}
    {Q : Exit × Bytes → Process OneDriveConnect → Unit → Prop} (h : ∀ result p', Q result p' ()) :
    Proc.wp (World.guard LookUpCall) (getFileToBuffer path block buflen) Q p () := by
  rw [getFileToBuffer, Proc.wp_bind]
  apply guard_checkExpire
  intro rc p₁
  simp only [Proc.wp_ite, Proc.wp_pure, Proc.wp_bind, Proc.wp_guard_call]
  refine ⟨fun _ => h _ p₁, fun _ => ⟨.inr (.inr (.inr rfl)), fun created => ?_⟩⟩
  refine ⟨fun _ => h _ p₁, fun _ => ?_⟩
  have hinfo : Proc.wp (World.guard ReadCall) (getFileInfo path .sizeAndDownloadUrl)
      (fun _ _ _ => True) p₁ () := guard_getFileInfo fun _ _ => trivial
  refine Proc.wp_guard_mono (fun _ he => .inr (.inl he)) hinfo fun result p₂ _ => ?_
  rcases result with rc | info
  · exact h _ p₂
  simp only [Proc.wp_ite, Proc.wp_pure, Proc.wp_bind]
  refine ⟨fun _ => h _ p₂, fun _ => ⟨fun _ => h _ p₂, fun _ => ?_⟩⟩
  have hdownload : Proc.wp (World.guard ReadCall) (downloadFile info.downloadUrl block)
      (fun _ _ _ => True) p₂ () := guard_downloadFile fun _ _ => trivial
  refine Proc.wp_guard_mono (fun _ he => .inr (.inl he)) hdownload fun result p₃ _ => ?_
  simp only [Proc.wp_ite, Proc.wp_pure]
  exact ⟨fun _ => h _ p₃, fun _ => h _ p₃⟩

end Item

end HiveSdk
