import HiveSdk.Errors.Refresh
import HiveSdk.Keystore.World

/-!
# Reading a keystore back

The writer prints tokens of any length, and the reader has a buffer of 4096 bytes. In between, the time at which the token runs out is a double. These two are all that can come between a complete writeback and a new token of the same client.
-/

namespace HiveSdk

open Interaction

/-- What is known of cJSON for a value: the parser reads back what is printed, and what is printed is a C string. -/
structure Keystore.Inverts (ks : Keystore) (value : Json) : Prop where
  parse_print : ks.parse (ks.print value) = some value
  zero_notMem : 0 ∉ ks.print value

/-- Load the keystore, and let a token restore itself from it. -/
def reloadTokens {σ : Type} (path : Bytes) (token : OAuthToken) : Hive σ (Option (Int × OAuthToken)) := do
  let some json ← loadKeystoreInJson path | return none
  return some (← restoreAccessToken json token)

section
variable {σ : Type} {ks : Keystore} {set : StoredTokens} {token : OAuthToken} {q : Process σ} {x : Saved}

private theorem wp_reload_refused {content : Bytes} (hfile : x.file = some content)
    (hsize : content.length > keystoreBufSize) :
    Proc.wp ks.world.responsive (reloadTokens ks.path token) (fun result _ _ => result = none) q x := by
  rw [reloadTokens, Proc.wp_bind]
  refine Proc.wp_mono (fun json q' t h => ?_) (Keystore.wp_load_refused hfile (.inr hsize))
  rw [h.1]
  rfl

/-- A complete writeback leaves the text and its terminator. -/
theorem Keystore.Writing.file_of_complete {file : Option Bytes} {text : Bytes}
    (h : Keystore.Writing file text x) (hcomplete : x.stored = some (text.length + 1)) :
    x.file = some (text ++ [0]) := by
  cases h with
  | untouched => cases hcomplete
  | cut n hn =>
      obtain rfl : n = text.length + 1 := Option.some.inj hcomplete
      exact congrArg some (List.take_of_length_le List.length_append.le)

/-- The file of one text and its terminator. -/
theorem Keystore.wp_load_text {text : Bytes} (hfile : x.file = some (text ++ [0])) (hzero : 0 ∉ text)
    (hsize : text.length + 1 ≤ keystoreBufSize) :
    Proc.wp ks.world.responsive (loadKeystoreInJson ks.path)
      (fun json _ t => json = ks.parse text ∧ t = x) q x := by
  have hlength : (text ++ [(0 : UInt8)]).length = text.length + 1 := List.length_append
  apply Keystore.wp_load hfile _ hzero (List.append_assoc ..)
  rw [hlength]
  omega

private theorem wp_reload (hinverts : ks.Inverts (Keystore.json token.clientId set))
    (hfile : x.file = some (ks.print (Keystore.json token.clientId set) ++ [0]))
    (hsize : (ks.print (Keystore.json token.clientId set)).length + 1 ≤ keystoreBufSize) :
    Proc.wp ks.world.responsive (reloadTokens ks.path token)
      (fun result _ _ => ∃ token', result = some (0, token') ∧ token'.Holds (Keystore.restored set)) q x := by
  rw [reloadTokens, Proc.wp_bind]
  refine Proc.wp_mono (fun json q' t h => ?_) (Keystore.wp_load_text hfile hinverts.zero_notMem hsize)
  rw [h.1, hinverts.parse_print]
  dsimp only
  rw [Proc.wp_bind]
  refine Proc.wp_mono (fun result q'' u hrestored => ?_) (Keystore.wp_restoreAccessToken set token)
  obtain ⟨rc, token'⟩ := result
  obtain ⟨hrc, hholds, -⟩ := hrestored
  rw [Proc.wp_pure]
  exact ⟨token', by rw [← hrc], hholds⟩

end

/-- A set that is held after the round trip of its time is held exactly if the time survives. -/
theorem OAuthToken.Holds.restored_iff {token : OAuthToken} {set : StoredTokens}
    (h : token.Holds (Keystore.restored set)) :
    token.Holds set ↔ doubleToLong (roundToDouble set.expiresAt) = set.expiresAt := by
  constructor
  · intro hset
    exact h.expiresAt.symm.trans hset.expiresAt
  · intro htime
    exact ⟨h.tokenType, h.accessToken, h.refreshToken, h.expiresAt.trans htime⟩

/-- What a complete writeback has stored is loaded, and gives a new token of the same client the same strings and the same time, if and only if the printed object fits the buffer of the reader and the time is the value of a double. -/
theorem keystore_round_trip_iff {σ : Type} {ks : Keystore} {p p' : Process OneDriveConnect}
    {set : StoredTokens} {token : OAuthToken} {file : Option Bytes} {tr : Trace} {x : Saved}
    (hpath : p.conn.keystorePath = ks.path) (hset : p.conn.token.Holds set)
    (hclient : token.clientId = p.conn.token.clientId)
    (hinverts : ks.Inverts (Keystore.json p.conn.token.clientId set))
    (hrun : Run (writebackTokens p) tr ((), p')) (haccepts : ks.world.Accepts ⟨file, none⟩ tr x)
    (hcomplete : x.stored = some ((ks.print (Keystore.json p.conn.token.clientId set)).length + 1))
    (q : Process σ) :
    ks.Gives (reloadTokens ks.path token) q x
        (fun result => ∃ token', result = some (0, token') ∧ token'.Holds set)
      ↔ (ks.print (Keystore.json p.conn.token.clientId set)).length + 1 ≤ keystoreBufSize
        ∧ doubleToLong (roundToDouble set.expiresAt) = set.expiresAt := by
  have hwriting := Keystore.writing_of_steps hpath hset hrun haccepts
  rw [← hclient] at hwriting hinverts hcomplete ⊢
  have hfile := hwriting.file_of_complete hcomplete
  by_cases hsize : (ks.print (Keystore.json token.clientId set)).length + 1 ≤ keystoreBufSize
  · have hreload : Proc.wp ks.world.responsive (reloadTokens ks.path token) (fun result _ _ =>
        ∃ token', result = some (0, token') ∧ token'.Holds (Keystore.restored set)) q x :=
      wp_reload hinverts hfile hsize
    constructor
    · intro h
      obtain ⟨result, q', t, ⟨token', hresult, hholds⟩, ⟨token'', hresult', hrestored⟩⟩ := h.and_wp hreload
      have hsame : token' = token'' := by
        have hpair := Option.some.inj (hresult.symm.trans hresult')
        exact congrArg Prod.snd hpair
      exact ⟨hsize, hrestored.restored_iff.1 (hsame ▸ hholds)⟩
    · intro h
      refine Keystore.gives_of_wp hreload fun result q' t hresult => ?_
      obtain ⟨token', hresult, hrestored⟩ := hresult
      exact ⟨token', hresult, hrestored.restored_iff.2 h.2⟩
  · have hlong : (ks.print (Keystore.json token.clientId set) ++ [(0 : UInt8)]).length > keystoreBufSize := by
      rw [List.length_append]
      exact not_le.1 hsize
    refine iff_of_false (fun h => ?_) fun h => hsize h.1
    obtain ⟨result, q', t, ⟨token', hresult, -⟩, hnone⟩ := h.and_wp (wp_reload_refused hfile hlong)
    cases hresult.symm.trans hnone

/-! ### A writeback on which nothing goes wrong -/

namespace Keystore

/-- The answers when the disk takes everything. -/
def Flawless : (e : Event) → e.Answer → Prop
  | .openFile _ _, opened => opened = .ok ()
  | .write _ data, written => written = .ok data.length
  | _, _ => True

def flawless (ks : Keystore) : World Event Event.Answer Saved where
  pre _ _ := True
  step s e r t := ks.Step s e r t ∧ Flawless e r

section
variable {ks : Keystore} {s : Saved} {set : StoredTokens} {p : Process OneDriveConnect}

private theorem wp_cjsonCreate {Q : Bool → Process OneDriveConnect → Saved → Prop} :
    Proc.wp ks.flawless.responsive (call Event.cjsonCreate) Q p s ↔ Q true p s := by
  have hstep : ∀ r t, ks.flawless.step s .cjsonCreate r t ↔ r = true ∧ t = s :=
    fun _ _ => and_iff_left trivial
  rw [Proc.wp_responsive_call _ trivial hstep]

private theorem wp_cjsonPrint {value : Json} {Q : Option Bytes → Process OneDriveConnect → Saved → Prop} :
    Proc.wp ks.flawless.responsive (call (.cjsonPrint value)) Q p s ↔ Q (some (ks.print value)) p s := by
  have hstep : ∀ r t, ks.flawless.step s (.cjsonPrint value) r t ↔ r = some (ks.print value) ∧ t = s :=
    fun _ _ => and_iff_left trivial
  rw [Proc.wp_responsive_call _ trivial hstep]

private theorem wp_addItem {members : List (Bytes × Json)} {name : Bytes} {value : Json}
    {Q : List (Bytes × Json) → Process OneDriveConnect → Saved → Prop} :
    Proc.wp ks.flawless.responsive (addItem members name value) Q p s
      ↔ Q (members ++ [(name, value)]) p s := by
  rw [addItem, Proc.wp_bind, wp_cjsonCreate, if_pos rfl]
  exact Iff.rfl

/-- A writeback that is not interrupted stores the whole text and its terminator. -/
theorem wp_writebackTokens_flawless (hpath : p.conn.keystorePath = ks.path) (hset : p.conn.token.Holds set)
    (hprint : ks.print (json p.conn.token.clientId set) ≠ []) :
    Proc.wp ks.flawless.responsive writebackTokens (fun _ _ t =>
      t.stored = some ((ks.print (json p.conn.token.clientId set)).length + 1)) p s := by
  rw [writebackTokens, Proc.wp_bind, wp_getToken, Proc.wp_bind, wp_cjsonCreate, if_neg (by decide),
    Proc.wp_bind, wp_addItem, hset.tokenType, hset.accessToken, hset.refreshToken, hset.expiresAt]
  simp only [Proc.wp_bind, wp_addItem]
  generalize hvalue : Json.object _ = value
  obtain rfl : json p.conn.token.clientId set = value := hvalue
  rw [oauthWriteback, Proc.wp_bind, wp_cjsonPrint]
  dsimp only
  rw [if_neg hprint, Proc.wp_bind, wp_getConn, hpath, Proc.wp_bind, Proc.wp_call]
  have hopened : ks.flawless.step s (.openFile ks.path .wronlyTruncCreat) (Except.ok ())
      ⟨some [], some 0⟩ := ⟨by simp [Step], rfl⟩
  refine ⟨⟨trivial, _, _, hopened⟩, fun opened t hstep => ?_⟩
  obtain rfl : opened = Except.ok () := hstep.2
  obtain rfl : t = ⟨some [], some 0⟩ := by simpa [Step] using hstep.1
  dsimp only
  rw [Proc.wp_bind, Proc.wp_call]
  have hwritten : ks.flawless.step ⟨some [], some 0⟩
      (.write ks.path (ks.print (json p.conn.token.clientId set) ++ [0]))
      (Except.ok (ks.print (json p.conn.token.clientId set) ++ [0]).length)
      ⟨some ([] ++ (ks.print (json p.conn.token.clientId set) ++ [0]).take
          (ks.print (json p.conn.token.clientId set) ++ [0]).length),
        some (ks.print (json p.conn.token.clientId set) ++ [0]).length⟩ := ⟨by simp [Step], rfl⟩
  refine ⟨⟨trivial, _, _, hwritten⟩, fun written t hstep => ?_⟩
  obtain rfl : written = Except.ok _ := hstep.2
  have hstored : t.stored = some ((ks.print (json p.conn.token.clientId set)).length + 1) := by
    have hafter : t = ⟨some ((ks.print (json p.conn.token.clientId set) ++ [0]).take
          ((ks.print (json p.conn.token.clientId set)).length + 1)),
        some ((ks.print (json p.conn.token.clientId set)).length + 1)⟩ := by
      simpa [Step] using hstep.1
    rw [hafter]
  dsimp only
  rw [Proc.wp_bind, Proc.wp_pure, Proc.wp_ite]
  exact ⟨fun _ => hstored, fun _ => hstored⟩

theorem exists_writeback (hpath : p.conn.keystorePath = ks.path) (hset : p.conn.token.Holds set)
    (hprint : ks.print (json p.conn.token.clientId set) ≠ []) (file : Option Bytes) :
    ∃ tr p' x, Run (writebackTokens p) tr ((), p') ∧ ks.world.Accepts ⟨file, none⟩ tr x
      ∧ x.stored = some ((ks.print (json p.conn.token.clientId set)).length + 1) := by
  obtain ⟨tr, ⟨_, p'⟩, x, hrun, haccepts, hstored⟩ :=
    Prog.exists_run_of_wp (wp_writebackTokens_flawless hpath hset hprint)
  exact ⟨tr, p', x, hrun, haccepts.mono fun _ _ _ _ hstep => hstep.1, hstored⟩

end

end Keystore

/-! Two sets of one client, of which the second has an access token of 5000 bytes. -/

/-- A process with a set of tokens. -/
def holding (set : StoredTokens) : Process OneDriveConnect where
  hiveError := 0
  errno := 0
  conn.token := { demoToken with
    tokenType := some set.tokenType
    accessToken := some set.accessToken
    refreshToken := some set.refreshToken
    expiresAt := ⟨set.expiresAt, 0⟩ }
  conn.keystorePath := bytes "/data/.data/onedrive.json"

theorem holding_holds (set : StoredTokens) : (holding set).conn.token.Holds set := ⟨rfl, rfl, rfl, rfl⟩

/-- The token with which the next connect starts. -/
def nextToken : OAuthToken :=
  (oauthOptions ⟨bytes "client", bytes "http://localhost:12345", bytes "Files.ReadWrite.AppFolder"⟩ none).token

/-- A printer and a parser that know one object and its text. -/
def onlyKeystore (set : StoredTokens) (text : Bytes) : Keystore where
  path := bytes "/data/.data/onedrive.json"
  print := fun _ => text
  parse := fun t => if t = text then some (Keystore.json (bytes "client") set) else none

theorem onlyKeystore_inverts {set : StoredTokens} {text : Bytes} (h : 0 ∉ text) :
    (onlyKeystore set text).Inverts (Keystore.json (bytes "client") set) := ⟨if_pos rfl, h⟩

def shortSet : StoredTokens := ⟨bytes "Bearer", bytes "B", bytes "S", 3650⟩

theorem keystore_round_trip_short : ∃ tr p' x, Run (writebackTokens (holding shortSet)) tr ((), p')
    ∧ (onlyKeystore shortSet storedText).world.Accepts ⟨none, none⟩ tr x
    ∧ (onlyKeystore shortSet storedText).Gives
        (reloadTokens (bytes "/data/.data/onedrive.json") nextToken) demoProcess x
        (fun result => ∃ token', result = some (0, token') ∧ token'.Holds shortSet) := by
  have hprint : storedText ≠ [] := by decide
  have hzero : 0 ∉ storedText := by decide
  have hshort : storedText.length + 1 ≤ keystoreBufSize := by decide
  have htime : doubleToLong (roundToDouble 3650) = 3650 := by decide
  have hclient : nextToken.clientId = (holding shortSet).conn.token.clientId := rfl
  obtain ⟨tr, p', x, hrun, haccepts, hcomplete⟩ : ∃ tr p' x,
      Run (writebackTokens (holding shortSet)) tr ((), p')
        ∧ (onlyKeystore shortSet storedText).world.Accepts ⟨none, none⟩ tr x
        ∧ x.stored = some (storedText.length + 1) :=
    Keystore.exists_writeback rfl (holding_holds shortSet) hprint none
  exact ⟨tr, p', x, hrun, haccepts, (keystore_round_trip_iff rfl (holding_holds shortSet) hclient
    (onlyKeystore_inverts hzero) hrun haccepts hcomplete demoProcess).2 ⟨hshort, htime⟩⟩

def longSet : StoredTokens := ⟨bytes "Bearer", List.replicate 5000 97, bytes "S", 3650⟩

def longText : Bytes :=
  bytes "\x7b\"client_id\":\"client\",\"token_type\":\"Bearer\",\"access_token\":\"" ++
    List.replicate 5000 97 ++ bytes "\",\"refresh_token\":\"S\",\"expires_at\":3650\x7d"

/-- The keystore of a long token is written and cannot be loaded. -/
theorem long_token_unloadable : ∃ tr p' x, Run (writebackTokens (holding longSet)) tr ((), p')
    ∧ (onlyKeystore longSet longText).world.Accepts ⟨none, none⟩ tr x
    ∧ x.stored = some (longText.length + 1)
    ∧ ¬ (onlyKeystore longSet longText).Gives
        (reloadTokens (bytes "/data/.data/onedrive.json") nextToken) demoProcess x
        (fun result => ∃ token', result = some (0, token') ∧ token'.Holds longSet) := by
  have hlength : 5000 ≤ longText.length := by
    rw [longText, List.length_append, List.length_append, List.length_replicate]
    omega
  have hprint : longText ≠ [] := List.length_pos_iff.1 (by omega)
  obtain ⟨tr, p', x, hrun, haccepts, hcomplete⟩ : ∃ tr p' x,
      Run (writebackTokens (holding longSet)) tr ((), p')
        ∧ (onlyKeystore longSet longText).world.Accepts ⟨none, none⟩ tr x
        ∧ x.stored = some (longText.length + 1) :=
    Keystore.exists_writeback rfl (holding_holds longSet) hprint none
  refine ⟨tr, p', x, hrun, haccepts, hcomplete, fun h => ?_⟩
  have hwriting : Keystore.Writing none longText x :=
    Keystore.writing_of_steps rfl (holding_holds longSet) hrun haccepts
  have hfile := hwriting.file_of_complete hcomplete
  have hlong : (longText ++ [(0 : UInt8)]).length > keystoreBufSize := by
    rw [List.length_append, keystoreBufSize]
    omega
  obtain ⟨result, q', t, ⟨token', hresult, -⟩, hnone⟩ := h.and_wp (wp_reload_refused hfile hlong)
  cases hresult.symm.trans hnone

end HiveSdk
