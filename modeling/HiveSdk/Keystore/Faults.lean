import HiveSdk.Connect.Login
import HiveSdk.Keystore.RoundTrip

/-!
# Writebacks that stop

A writeback truncates the keystore before it writes, and nothing keeps what was there. So the writeback that counts for the next connect is the last one that could open the file: if it stored its text, its tokens are restored, and if it stopped before that, the connect fails.
-/

namespace HiveSdk

open Interaction

namespace Keystore

variable {ks : Keystore} {σ : Type} {p : Process σ} {s : Saved}

/-! ### The start of a connect -/

private theorem wp_mkdirInternal {path : Bytes} (hpath : path ≠ ks.path) :
    Proc.wp ks.world.responsive (mkdirInternal path) (fun rc p' t => rc = 0 ∧ p' = p ∧ t = s) p s := by
  have hstat : ∀ info t, ks.world.step s (.stat path) info t
      ↔ info = Except.ok ⟨true, 0⟩ ∧ t = s := by
    intro info t
    simp [world, Step, hpath]
  rw [mkdirInternal, Proc.wp_bind, Proc.wp_responsive_call _ trivial hstat]
  dsimp only
  rw [if_pos rfl]
  exact ⟨rfl, rfl, rfl⟩

/-- The directories on the way to a shorter path are there. -/
private theorem wp_mkdirsLoop {done rest : Bytes} {component : Bool}
    (hshort : done.length + rest.length < ks.path.length) :
    Proc.wp ks.world.responsive (mkdirsLoop done component rest)
      (fun rc p' t => rc = 0 ∧ p' = p ∧ t = s) p s := by
  induction rest generalizing done component with
  | nil => exact ⟨rfl, rfl, rfl⟩
  | cons c rest ih =>
      have hnext : (done ++ [c]).length + rest.length < ks.path.length := by
        rw [List.length_append, List.length_singleton]
        rw [List.length_cons] at hshort
        omega
      have hdone : done ≠ ks.path := by
        rintro rfl
        omega
      rw [mkdirsLoop]
      by_cases hslash : c = slash
      · rw [if_pos hslash]
        rcases component with _ | _
        · rw [if_neg Bool.false_ne_true]
          exact ih hnext
        · rw [if_pos rfl, Proc.wp_bind]
          refine Proc.wp_mono (fun rc p' t h => ?_) (wp_mkdirInternal hdone)
          obtain ⟨rfl, rfl, rfl⟩ := h
          rw [if_neg (not_not.2 rfl)]
          exact ih hnext
      · rw [if_neg hslash]
        exact ih hnext

private theorem wp_mkdirs {path : Bytes} (hshort : path.length < ks.path.length) :
    Proc.wp ks.world.responsive (mkdirs path) (fun rc p' t => rc = 0 ∧ p' = p ∧ t = s) p s := by
  have htake : (path.take (pathMax - 1)).length ≤ path.length := List.length_take_le' _ _
  rw [mkdirs, Proc.wp_bind]
  refine Proc.wp_mono (fun rc p' t h => ?_) (wp_mkdirsLoop (by simp; omega))
  obtain ⟨rfl, rfl, rfl⟩ := h
  rw [if_neg (not_not.2 rfl)]
  apply wp_mkdirInternal
  rintro rfl
  omega

theorem dirname_keystorePath (dataLocation : Bytes) :
    dirname (keystorePath dataLocation) = dataLocation ++ bytes "/.data" := by
  have hsplit : keystorePath dataLocation
      = (dataLocation ++ bytes "/.data") ++ slash :: bytes "onedrive.json" := by
    rw [keystorePath, List.append_assoc]
    rfl
  rw [hsplit]
  refine dirname_append (by decide) (by decide) ⟨dataLocation ++ bytes "/.dat", 97, ?_, by decide⟩
  rw [List.append_assoc]
  rfl

/-- What a connect makes of the keystore, which it finds: the tokens in it, or an error. -/
theorem wp_onedriveClientConnect {dataLocation : Bytes} {opts : OneDriveConnectOptions}
    {checked : CheckedOptions} {set : StoredTokens} {loaded : Option Json}
    (hpath : ks.path = keystorePath dataLocation) (hshort : ks.path.length < pathMax)
    (hopts : opts.check = some checked) (hfile : s.file.isSome)
    (hload : ∀ q : Process σ, Proc.wp ks.world.responsive (loadKeystoreInJson ks.path)
      (fun json _ t => json = loaded ∧ t = s) q s)
    (hloaded : loaded = none ∨ loaded = some (json checked.clientId set)) :
    Proc.wp ks.world.responsive (onedriveClientConnect dataLocation opts) (fun result _ _ =>
      match loaded with
      | none => result = none
      | some _ => ∃ connect, result = some connect ∧ connect.token.Holds (restored set)) p s := by
  have hdir : (dirname ks.path).length < ks.path.length := by
    rw [hpath, dirname_keystorePath, keystorePath, List.length_append, List.length_append]
    have hlong : (bytes "/.data").length < (bytes "/.data/onedrive.json").length := by decide
    omega
  have haccess : ∀ there t, ks.world.step s (.access ks.path) there t ↔ there = true ∧ t = s := by
    intro there t
    simp [world, Step, hfile]
  rw [onedriveClientConnect, hopts]
  dsimp only
  rw [← hpath, Proc.wp_bind, Proc.wp_responsive_call true trivial (step_alloc _), if_neg (by decide),
    if_neg (not_le.2 hshort), Proc.wp_bind]
  refine Proc.wp_mono (fun rc p₁ t h => ?_) (wp_mkdirs hdir)
  obtain ⟨rfl, rfl, rfl⟩ := h
  rw [Proc.wp_bind, Proc.wp_get, if_neg (fun h => absurd h.1 (lt_irrefl 0)), Proc.wp_bind, openKeystore,
    Proc.wp_bind, Proc.wp_responsive_call true trivial haccess, if_neg (by decide), Proc.wp_bind]
  refine Proc.wp_mono (fun json p₂ t h => ?_) (hload _)
  obtain ⟨rfl, rfl⟩ := h
  rcases hloaded with rfl | rfl
  · rfl
  dsimp only
  rw [Proc.wp_pure]
  dsimp only
  rw [Proc.wp_bind, oauthTokenNew, Proc.wp_bind, Proc.wp_responsive_call true trivial (step_alloc _),
    if_neg (by decide), Proc.wp_bind]
  have hrestore : Proc.wp ks.world.responsive
      (restoreAccessToken (some (json checked.clientId set)) (oauthOptions checked none).token)
      (fun result p' u => result.1 = 0 ∧ result.2.Holds (restored set) ∧ p' = p₂ ∧ u = t) p₂ t :=
    wp_restoreAccessToken set (oauthOptions checked none).token
  refine Proc.wp_mono (fun result p₃ u h => ?_) hrestore
  obtain ⟨rc, token⟩ := result
  obtain ⟨-, hholds, -, rfl⟩ := h
  have hauthorised : token.accessToken.isSome := by
    rw [hholds.accessToken]
    rfl
  dsimp only
  rw [Proc.wp_pure]
  dsimp only
  rw [Proc.wp_bind, wp_withConn, oauthTokenRequest, Proc.wp_bind, wp_getToken, if_pos hauthorised,
    Proc.wp_pure]
  dsimp only
  rw [if_neg (lt_irrefl 0)]
  exact ⟨_, rfl, hholds⟩

/-! ### Writebacks -/

/-- What is known of cJSON for an object: its text is a C string that is not empty, and the parser reads it back from the text and from no part of it. -/
structure Documented (ks : Keystore) (value : Json) : Prop where
  inverts : ks.Inverts value
  print_ne_nil : ks.print value ≠ []
  parse_front : ∀ n < (ks.print value).length, ks.parse ((ks.print value).take n) = none

/-- The file after writebacks for one client, each of which may have stopped anywhere, and the set of the last one that could open the file, with the number of bytes that it stored. -/
inductive Writebacks (ks : Keystore) (clientId : Bytes) : Option Bytes → Option (StoredTokens × Nat) → Prop
  | first : Writebacks ks clientId none none
  | next {file : Option Bytes} {last : Option (StoredTokens × Nat)} {p : Process OneDriveConnect}
      {set : StoredTokens} {tr : Trace} {q : Prog Event Event.Answer (Unit × Process OneDriveConnect)}
      {x : Saved} (hist : Writebacks ks clientId file last) (hpath : p.conn.keystorePath = ks.path)
      (hclient : p.conn.token.clientId = clientId) (hset : p.conn.token.Holds set)
      (hsize : (ks.print (json clientId set)).length + 1 ≤ keystoreBufSize)
      (hsteps : Steps (writebackTokens p) tr q) (haccepts : ks.world.Accepts ⟨file, none⟩ tr x) :
      Writebacks ks clientId x.file (x.stored.elim last fun n => some (set, n))

/-- How the file looks behind a last set. -/
structure LeftBy (ks : Keystore) (clientId : Bytes) (set : StoredTokens) (n : Nat) (file : Option Bytes) :
    Prop where
  size : (ks.print (json clientId set)).length + 1 ≤ keystoreBufSize
  file : file = some ((ks.print (json clientId set) ++ [0]).take n)

theorem Writebacks.left {clientId : Bytes} {file : Option Bytes} {last : Option (StoredTokens × Nat)}
    (h : ks.Writebacks clientId file last) :
    (last = none → file = none) ∧ ∀ set n, last = some (set, n) → ks.LeftBy clientId set n file := by
  induction h with
  | first => exact ⟨fun _ => rfl, fun _ _ h => (nomatch h)⟩
  | @next file last p set tr q x hist hpath hclient hset hsize hsteps haccepts ih =>
      have hwriting := writing_of_steps hpath hset hsteps haccepts
      rw [hclient] at hwriting
      cases hwriting with
      | untouched => exact ih
      | cut n hn =>
          refine ⟨fun h => (nomatch h), fun set' n' h => ?_⟩
          cases h
          exact ⟨hsize, rfl⟩

/-- The loader reads a text that is there as a whole, and nothing of a part of it. -/
theorem LeftBy.wp_load {clientId : Bytes} {set : StoredTokens} {n : Nat}
    (h : ks.LeftBy clientId set n s.file) (hknown : ks.Documented (json clientId set)) :
    Proc.wp ks.world.responsive (loadKeystoreInJson ks.path)
      (fun value _ t => value = (if (ks.print (json clientId set)).length ≤ n
        then some (json clientId set) else none) ∧ t = s) p s := by
  have hpos := List.length_pos_iff.2 hknown.print_ne_nil
  have hsize := h.size
  rcases Nat.eq_zero_or_pos n with rfl | hn
  · rw [if_neg (by omega)]
    exact wp_load_refused h.file (.inl rfl)
  have hparse : ks.parse ((ks.print (json clientId set)).take n)
      = if (ks.print (json clientId set)).length ≤ n then some (json clientId set) else none := by
    by_cases hwhole : (ks.print (json clientId set)).length ≤ n
    · rw [if_pos hwhole, List.take_of_length_le hwhole]
      exact hknown.inverts.parse_print
    · rw [if_neg hwhole]
      exact hknown.parse_front n (not_le.1 hwhole)
  have hzero : 0 ∉ (ks.print (json clientId set)).take n :=
    fun hmem => hknown.inverts.zero_notMem (List.mem_of_mem_take hmem)
  have hlength : ((ks.print (json clientId set) ++ [(0 : UInt8)]).take n).length
      = min n ((ks.print (json clientId set)).length + 1) := by
    rw [List.length_take, List.length_append, List.length_singleton]
  -- either the terminator has been stored, or the buffer has room for one
  have hbuf : ∃ rest, (ks.print (json clientId set) ++ [0]).take n ++ List.replicate
      (keystoreBufSize - ((ks.print (json clientId set) ++ [(0 : UInt8)]).take n).length) 0
        = (ks.print (json clientId set)).take n ++ 0 :: rest := by
    rw [hlength, List.take_append, List.append_assoc]
    by_cases hterminated : (ks.print (json clientId set)).length < n
    · have hstored : [(0 : UInt8)].take (n - (ks.print (json clientId set)).length) = [0] :=
        List.take_of_length_le (by rw [List.length_singleton]; omega)
      rw [hstored, List.singleton_append]
      exact ⟨_, rfl⟩
    · have hroom : keystoreBufSize - min n ((ks.print (json clientId set)).length + 1)
          = keystoreBufSize - n - 1 + 1 := by omega
      rw [Nat.sub_eq_zero_of_le (not_lt.1 hterminated), List.take_zero, List.nil_append, hroom,
        List.replicate_succ]
      exact ⟨_, rfl⟩
  obtain ⟨rest, hbuf⟩ := hbuf
  rw [← hparse]
  exact Keystore.wp_load h.file (by omega) hzero hbuf

end Keystore

/-- Whatever writebacks there have been, and wherever each of them stopped: the next connect restores the tokens of the last one that could open the keystore if that one stored its text, and fails if it did not. -/
theorem keystore_after_writebacks {σ : Type} {ks : Keystore} {dataLocation : Bytes}
    {opts : OneDriveConnectOptions} {checked : CheckedOptions} {file : Option Bytes}
    {last : Option (StoredTokens × Nat)}
    (hpath : ks.path = keystorePath dataLocation) (hshort : ks.path.length < pathMax)
    (hopts : opts.check = some checked) (hist : ks.Writebacks checked.clientId file last)
    (hknown : ∀ set n, last = some (set, n) → ks.Documented (Keystore.json checked.clientId set))
    (q : Process σ) :
    (last = none → file = none)
      ∧ ∀ set n, last = some (set, n) →
        ((ks.print (Keystore.json checked.clientId set)).length ≤ n →
          ks.Gives (onedriveClientConnect dataLocation opts) q ⟨file, none⟩ fun result =>
            ∃ connect, result = some connect ∧ connect.token.Holds (Keystore.restored set))
        ∧ (n < (ks.print (Keystore.json checked.clientId set)).length →
          ks.Gives (onedriveClientConnect dataLocation opts) q ⟨file, none⟩ fun result => result = none) := by
  obtain ⟨hnone, hleft⟩ := hist.left
  refine ⟨hnone, fun set n hlast => ?_⟩
  have hfile := hleft set n hlast
  have hthere : (⟨file, none⟩ : Saved).file.isSome := by
    rw [hfile.file]
    rfl
  have hload : ∀ q' : Process σ, Proc.wp ks.world.responsive (loadKeystoreInJson ks.path)
      (fun value _ t => value = (if (ks.print (Keystore.json checked.clientId set)).length ≤ n
        then some (Keystore.json checked.clientId set) else none) ∧ t = ⟨file, none⟩) q' ⟨file, none⟩ :=
    fun q' => hfile.wp_load (hknown set n hlast)
  constructor
  · intro hwhole
    rw [if_pos hwhole] at hload
    have hconnect := Keystore.wp_onedriveClientConnect (p := q) hpath hshort hopts hthere hload (.inr rfl)
    exact Keystore.gives_of_wp hconnect fun _ _ _ hresult => hresult
  · intro hcut
    rw [if_neg (not_le.2 hcut)] at hload
    have hloaded : (none : Option Json) = none
        ∨ (none : Option Json) = some (Keystore.json checked.clientId set) := .inl rfl
    have hconnect := Keystore.wp_onedriveClientConnect (p := q) hpath hshort hopts hthere hload hloaded
    exact Keystore.gives_of_wp hconnect fun _ _ _ hresult => hresult

/-! A first login, and a refresh after it during which the process dies. -/

theorem onlyKeystore_documented {set : StoredTokens} {text : Bytes} (hzero : 0 ∉ text) (hne : text ≠ []) :
    (onlyKeystore set text).Documented (Keystore.json (bytes "client") set) where
  inverts := onlyKeystore_inverts hzero
  print_ne_nil := hne
  parse_front := by
    intro n hn
    apply if_neg
    intro htake
    have hlength := congrArg List.length htake
    rw [List.length_take] at hlength
    have hshort : n < text.length := hn
    omega

def demoChecked : CheckedOptions :=
  ⟨bytes "client", bytes "http://localhost:12345", bytes "Files.ReadWrite.AppFolder"⟩

theorem keystore_after_login : ∃ file, (onlyKeystore shortSet storedText).Gives
    (onedriveClientConnect (bytes "/data") demoOptions) freshThread ⟨file, none⟩
    (fun result => ∃ connect, result = some connect ∧ connect.token.Holds (Keystore.restored shortSet)) := by
  have hprint : storedText ≠ [] := by decide
  have hzero : 0 ∉ storedText := by decide
  have hsize : storedText.length + 1 ≤ keystoreBufSize := by decide
  have hpath : (onlyKeystore shortSet storedText).path = keystorePath (bytes "/data") := by decide
  have hshort : (onlyKeystore shortSet storedText).path.length < pathMax := by decide
  have hopts : demoOptions.check = some demoChecked := by decide
  obtain ⟨tr, p', x, hrun, haccepts, hcomplete⟩ : ∃ tr p' x,
      Run (writebackTokens (holding shortSet)) tr ((), p')
        ∧ (onlyKeystore shortSet storedText).world.Accepts ⟨none, none⟩ tr x
        ∧ x.stored = some (storedText.length + 1) :=
    Keystore.exists_writeback rfl (holding_holds shortSet) hprint none
  have hist : (onlyKeystore shortSet storedText).Writebacks demoChecked.clientId x.file
      (some (shortSet, storedText.length + 1)) := by
    have hnext := Keystore.Writebacks.next .first rfl rfl (holding_holds shortSet) hsize hrun haccepts
    rw [hcomplete] at hnext
    exact hnext
  have hknown : ∀ set n, some (shortSet, storedText.length + 1) = some (set, n) →
      (onlyKeystore shortSet storedText).Documented (Keystore.json demoChecked.clientId set) := by
    intro set n h
    cases h
    exact onlyKeystore_documented hzero hprint
  exact ⟨x.file, ((keystore_after_writebacks hpath hshort hopts hist hknown freshThread).2 shortSet _ rfl).1
    (Nat.le_succ _)⟩

/-- The calls of a writeback up to the truncation of the file. -/
def truncation : Trace :=
  List.replicate 6 ⟨.cjsonCreate, true⟩ ++ [⟨.cjsonPrint storedJson, some storedText⟩,
    ⟨.openFile keystoreFile .wronlyTruncCreat, Except.ok ()⟩]

set_option maxRecDepth 10000 in
private theorem truncation_steps : ∃ k, Steps (writebackTokens (holding shortSet)) truncation
    (.ask (.write keystoreFile (storedText ++ [0])) k) := by
  apply Exists.intro
  iterate 8 refine .ask _ _ _ ?_
  exact .refl _

private theorem accepts_truncation (file : Option Bytes) :
    (onlyKeystore shortSet storedText).world.Accepts ⟨file, none⟩ truncation ⟨some [], some 0⟩ := by
  have hopened : (onlyKeystore shortSet storedText).world.step ⟨file, none⟩
      (.openFile keystoreFile .wronlyTruncCreat) (Except.ok ()) ⟨some [], some 0⟩ := by
    have hpath : keystoreFile = (onlyKeystore shortSet storedText).path := rfl
    simp [Keystore.world, Keystore.Step, hpath]
  iterate 6 refine .cons ⟨rfl, rfl⟩ ?_
  refine .cons ⟨rfl, rfl⟩ (.cons hopened (.nil _))

/-- The tokens of a complete login are gone when the process dies in the next writeback. -/
theorem keystore_emptied : ∃ tr p' x q y, Run (writebackTokens (holding shortSet)) tr ((), p')
    ∧ (onlyKeystore shortSet storedText).world.Accepts ⟨none, none⟩ tr x
    ∧ x.stored = some (storedText.length + 1)
    ∧ Steps (writebackTokens (holding shortSet)) truncation q
    ∧ (onlyKeystore shortSet storedText).world.Accepts ⟨x.file, none⟩ truncation y
    ∧ (onlyKeystore shortSet storedText).Gives (onedriveClientConnect (bytes "/data") demoOptions)
        freshThread ⟨y.file, none⟩ (fun result => result = none) := by
  have hprint : storedText ≠ [] := by decide
  have hpath : (onlyKeystore shortSet storedText).path = keystorePath (bytes "/data") := by decide
  have hshort : (onlyKeystore shortSet storedText).path.length < pathMax := by decide
  have hopts : demoOptions.check = some demoChecked := by decide
  obtain ⟨tr, p', x, hrun, haccepts, hcomplete⟩ : ∃ tr p' x,
      Run (writebackTokens (holding shortSet)) tr ((), p')
        ∧ (onlyKeystore shortSet storedText).world.Accepts ⟨none, none⟩ tr x
        ∧ x.stored = some (storedText.length + 1) :=
    Keystore.exists_writeback rfl (holding_holds shortSet) hprint none
  obtain ⟨k, hsteps⟩ := truncation_steps
  have hthere : (⟨some [], none⟩ : Saved).file.isSome := rfl
  have hload : ∀ q' : Process Unit,
      Proc.wp (onlyKeystore shortSet storedText).world.responsive
        (loadKeystoreInJson (onlyKeystore shortSet storedText).path)
        (fun value _ t => value = none ∧ t = ⟨some [], none⟩) q' ⟨some [], none⟩ :=
    fun q' => Keystore.wp_load_refused rfl (.inl rfl)
  have hloaded : (none : Option Json) = none
      ∨ (none : Option Json) = some (Keystore.json demoChecked.clientId shortSet) := .inl rfl
  have hconnect := Keystore.wp_onedriveClientConnect (p := freshThread) hpath hshort hopts hthere hload hloaded
  exact ⟨tr, p', x, _, _, hrun, haccepts, hcomplete, hsteps, accepts_truncation x.file,
    Keystore.gives_of_wp hconnect fun _ _ _ hresult => hresult⟩

end HiveSdk
