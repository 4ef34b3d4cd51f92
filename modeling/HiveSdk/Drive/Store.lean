import HiveSdk.Drive.Keys

/-!
# The key-value store

What the key functions are for: a list of values for every key, to which `put` appends, which `set` replaces and `delete` empties. A drive represents such a store when the item of every key is the records of its values. The calls that return 0 keep a drive and the store in step, whatever fails on the way, and on a day without incidents the values that are read are those of the store.
-/

namespace HiveSdk

open Interaction OneDrive Framing

variable {env : Env} {p : Process OneDriveConnect} {s : Served}

/-! ### The abstract store -/

abbrev ValueStore := Bytes → List Bytes

inductive KeyOp
  | put (key value : Bytes)
  | set (key value : Bytes)
  | delete (key : Bytes)
  deriving DecidableEq, Repr

namespace KeyOp

def key : KeyOp → Bytes
  | put key _ | set key _ | delete key => key

/-- The list of the key after the operation. -/
def values (st : ValueStore) : KeyOp → List Bytes
  | put key value => st key ++ [value]
  | set _ value => [value]
  | delete _ => []

def apply (st : ValueStore) (op : KeyOp) : ValueStore := Function.update st op.key (op.values st)

/-- The public function that carries the operation out. -/
def call : KeyOp → Hive OneDriveConnect Int
  | put key value => hivePutValue (some OneDrive.table) (some key) (some value) value.length
  | set key value => hiveSetValue (some OneDrive.table) (some key) (some value) value.length
  | delete key => hiveDeleteKey (some OneDrive.table) (some key)

/-- The calls one after another, with all their results. -/
def callAll : List KeyOp → Hive OneDriveConnect (List Int)
  | [] => return []
  | op :: ops => do
      let rc ← op.call
      let rcs ← callAll ops
      return rc :: rcs

end KeyOp

/-- Keys whose items are distinct and whose URLs fit the buffer. -/
structure KeySpace where
  keys : Set Bytes
  ne_nil : ∀ key ∈ keys, key ≠ []
  injective : Set.InjOn keyPath keys
  fits : ∀ key ∈ keys,
    (Url.item (keyPath key) (bytes ":/createUploadSession")).text.length < maxUrlLen

/-- The items of the keys are the records of the values. -/
structure Represents (space : KeySpace) (d : Drive) (st : ValueStore) : Prop where
  small : d.Small
  content : ∀ key ∈ space.keys, d.content (keyPath key) = encodeValues (st key)
  storable : ∀ key ∈ space.keys, ∀ v ∈ st key, Storable v

/-! ### Every call keeps the drive and the store in step -/

theorem storable_of_checkedValue {value v : Bytes}
    (h : checkedValue (some value) value.length = some v) : v = value ∧ Storable v := by
  have hv : v = value := by rw [← checkedValue_eq h, List.take_length]
  refine ⟨hv, ?_⟩
  subst hv
  simp only [checkedValue, Option.bind_eq_bind, Option.bind_some] at h
  split at h
  · cases h
  case isFalse hlength =>
    obtain ⟨hne, hle⟩ := not_or.1 hlength
    exact ⟨fun hnil => hne (by rw [hnil]; rfl), by omega⟩

/-- One item changes, and with it the list of its key. -/
theorem Represents.update {space : KeySpace} {d d' : Drive} {st : ValueStore} {key : Bytes}
    {item : Option Bytes} {values : List Bytes} (h : Represents space d st)
    (hkey : key ∈ space.keys) (hitems : d'.items = Function.update d.items (keyPath key) item)
    (hitem : item.getD [] = encodeValues values) (hvalues : ∀ v ∈ values, Storable v)
    (hsmall : d'.Small) : Represents space d' (Function.update st key values) where
  small := hsmall
  content key' hkey' := by
    rw [Drive.content, hitems]
    by_cases heq : key' = key
    · rw [heq, Function.update_self, Function.update_self, hitem]
    · have hpath : keyPath key' ≠ keyPath key := fun hpath => heq (space.injective hkey' hkey hpath)
      rw [Function.update_of_ne hpath, Function.update_of_ne heq]
      exact h.content key' hkey'
  storable key' hkey' := by
    by_cases heq : key' = key
    · rw [heq, Function.update_self]
      exact hvalues
    · rw [Function.update_of_ne heq]
      exact h.storable key' hkey'

theorem wp_call_step {space : KeySpace} {st : ValueStore} (op : KeyOp) (hincident : ¬ env.reliable)
    (hready : env.Ready p.conn.token) (hst : Represents space s.drive st)
    (hkey : op.key ∈ space.keys) :
    Proc.wp env.world op.call (fun rc p' t =>
      rc = 0 → p'.conn = p.conn ∧ Represents space t.drive (op.apply st)) p s := by
  cases op with
  | put key value =>
      apply wp_hivePutValue hincident hst.small
      · intro k v content p' t xs hk hv hkept hstored hcontent _
        obtain rfl : key = k := Option.some.inj hk
        obtain ⟨rfl, hstorable⟩ := storable_of_checkedValue hv
        refine ⟨hkept hready.valid, ?_⟩
        rcases hcontent with ⟨-, rfl⟩ | ⟨hexpired, -⟩
        · apply hst.update hkey hstored.items
          · rw [Option.getD_some, hst.content key hkey, KeyOp.values, encodeValues_append]
          · intro w hw
            rcases List.mem_append.1 hw with hw | hw
            · exact hst.storable key hkey w hw
            · rw [List.mem_singleton.1 hw]
              exact hstorable
          · exact hstored.small hst.small
        · exact absurd hready.valid hexpired
      · intro p' t h
        exact absurd h (by decide)
  | set key value =>
      apply wp_hiveSetValue hincident
      · intro k v p' t xs hk hv hkept hstored _
        obtain rfl : key = k := Option.some.inj hk
        obtain ⟨rfl, hstorable⟩ := storable_of_checkedValue hv
        refine ⟨hkept hready.valid, ?_⟩
        apply hst.update hkey hstored.items
        · rw [Option.getD_some, KeyOp.values, encodeValues_singleton]
        · intro w hw
          rw [List.mem_singleton.1 hw]
          exact hstorable
        · exact hstored.small hst.small
      · intro p' t h
        exact absurd h (by decide)
  | delete key =>
      apply wp_hiveDeleteKey hincident
      · intro k p' t xs hk hkept hremoved _
        obtain rfl : key = k := Option.some.inj hk
        refine ⟨hkept hready.valid, ?_⟩
        exact hst.update hkey hremoved.items rfl nofun (hremoved.small hst.small)
      · intro k p' t xs _ hexpired
        exact absurd hready.valid hexpired
      · intro p' t h
        exact absurd h (by decide)

theorem wp_callAll {space : KeySpace} {st : ValueStore} (ops : List KeyOp)
    (hincident : ¬ env.reliable) (hready : env.Ready p.conn.token)
    (hst : Represents space s.drive st) (hkeys : ∀ op ∈ ops, op.key ∈ space.keys) :
    Proc.wp env.world (KeyOp.callAll ops) (fun rcs p' t => (∀ rc ∈ rcs, rc = 0) →
      p'.conn = p.conn ∧ Represents space t.drive (ops.foldl KeyOp.apply st)) p s := by
  induction ops generalizing p s st with
  | nil => exact fun _ => ⟨rfl, hst⟩
  | cons op ops ih =>
      rw [KeyOp.callAll]
      apply Proc.wp_bind_of
        (wp_call_step op hincident hready hst (hkeys op List.mem_cons_self))
      intro rc p₁ t₁ hstep
      by_cases hrc : rc = 0
      · obtain ⟨hconn, hst₁⟩ := hstep hrc
        have hready₁ : env.Ready p₁.conn.token := hconn ▸ hready
        apply Proc.wp_bind_of
          (ih hready₁ hst₁ fun op' hop' => hkeys op' (List.mem_cons_of_mem op hop'))
        intro rcs p' t hrest hzero
        obtain ⟨hconn', hst'⟩ := hrest fun rc' hrc' => hzero rc' (List.mem_cons_of_mem rc hrc')
        exact ⟨hconn'.trans hconn, hst'⟩
      · rw [Proc.wp_bind]
        apply Proc.wp_of_forall fun _ _ _ => hincident
        intro rcs p' t hzero
        exact absurd (hzero rc List.mem_cons_self) hrc

/-! ### Reading the store back -/

theorem encodeValues_eq_nil {values : List Bytes} (hvalues : ∀ v ∈ values, Storable v)
    (h : encodeValues values = []) : values = [] := by
  by_contra hne
  have hlt := netLength.width_lt_length_join hne fun v hv => (hvalues v hv).1
  rw [show netLength.join values = [] from h] at hlt
  exact absurd hlt (Nat.not_lt_zero _)

theorem wp_getValues_delivers {key : Bytes} {values : List Bytes}
    {Q : Int → Process OneDriveConnect → Served → Prop} (hreliable : env.reliable)
    (hready : env.Ready p.conn.token) (hsmall : s.drive.Small)
    (hfits : (Url.item (keyPath key) []).text.length < maxUrlLen)
    (hcontent : s.drive.content (keyPath key) = encodeValues values)
    (hvalues : ∀ v ∈ values, Storable v)
    (hok : ∀ (p' : Process OneDriveConnect) t calls, t.callbacks = s.callbacks ++ calls →
      Delivers key values calls → Q 0 p' t) :
    Proc.wp env.world (getValues key) Q p s := by
  have hempty : ∀ {p' t}, t.callbacks = s.callbacks → encodeValues values = [] →
      Proc.wp env.world (readValues key 0) Q p' t := by
    intro p' t hcallbacks hnil
    rw [readValues, if_neg (by decide), if_pos rfl]
    apply hok p' t [] (by rw [hcallbacks, List.append_nil])
    rw [encodeValues_eq_nil hvalues hnil]
    rfl
  rw [getValues, Proc.wp_bind]
  apply wp_getFileLength (fun _ => hready) (fun _ => hfits)
  · intro content p₁ t xs hitem _ hasked hready₁ _
    have hencoded : content = encodeValues values := by
      rw [← hcontent, Drive.content_of_items hitem]
    have hlt := hsmall _ _ hitem
    dsimp only [Exit.value]
    rw [isNotFound_length hlt, if_neg Bool.false_ne_true, if_neg (by omega)]
    by_cases hnil : values = []
    · subst hnil
      rw [hencoded]
      exact hempty hasked.callbacks rfl
    have hwidth : kvEntrySize < content.length := by
      rw [hencoded]
      exact netLength.width_lt_length_join hnil fun v hv => (hvalues v hv).1
    have hsize : cSize (content.length : Int) = content.length := cSize_eq_self (by omega)
    have hsigned : cSsize (content.length : Int) = content.length :=
      cSsize_eq_self (by omega) (by omega)
    simp only [readValues, Proc.wp_ite, Proc.wp_pure, Proc.wp_bind]
    refine ⟨fun hshort => absurd hshort.2 (by omega), fun _ => ⟨fun hzero => absurd hzero (by omega),
      fun _ => ?_⟩⟩
    rw [wp_call_local rfl]
    intro allocated hallocated
    rw [hallocated hreliable, if_neg (by decide), Proc.wp_bind]
    have hitem' : t.drive.items (keyPath key) = some content := hasked.items ▸ hitem
    apply wp_getFileToBuffer hready₁ (fun _ => hfits)
    · intro _ content' hcontent
      obtain rfl : content = content' := Option.some.inj (hitem'.symm.trans hcontent)
      refine ⟨?_, fun _ => ?_⟩
      · rw [List.length_replicate, hsize]
      · rw [hsize, hsigned]
    · intro content' p₂ u ys hitem'' _ hquiet _
      obtain rfl : content = content' := Option.some.inj (hitem'.symm.trans hitem'')
      dsimp only [Exit.value]
      rw [if_neg (by omega), if_neg (by simp), hsize, List.drop_replicate, Nat.sub_self,
        List.replicate_zero, List.append_nil, hencoded]
      apply wp_walkValues_records hnil hvalues (hencoded ▸ hlt)
      intro calls hcalls
      exact hok p₂ _ calls (by rw [hquiet.callbacks, hasked.callbacks]) hcalls
    · intro _ _ _ _ habsent
      rw [hitem'] at habsent
      cases habsent
    · intro _ _ _ _ hincident
      exact (hincident hreliable).elim
    · intro _ _ _ _ hincident
      exact (hincident hreliable).elim
  · intro p₁ t xs hitem _ hasked _
    dsimp only [Exit.value]
    rw [cInt_cInt, if_pos isNotFound_hiveHttpStatusError]
    exact hempty hasked.callbacks (by rw [← hcontent, Drive.content_of_absent hitem])
  · exact fun _ _ _ hexpired => absurd hready.valid hexpired
  · intro _ _ _ hincident
    exact (hincident hreliable).elim
  · intro _ _ hincident
    exact (hincident hreliable).elim

/-! ### What a reader sees -/

/-- The values that the callback has been given. -/
def delivered (calls : List Callback) : List Bytes := calls.map fun c => c.2.1

theorem Delivers.spec {key : Bytes} {values : List Bytes} {calls : List Callback}
    (h : Delivers key values calls) :
    (∀ c ∈ calls, c.1 = key) ∧ delivered calls <+: values
      ∧ ((∀ c ∈ calls, c.2.2 = true) → delivered calls = values)
      ∧ ∀ i c, calls[i]? = some c → c.2.2 = false → calls.length = i + 1 := by
  induction values generalizing calls with
  | nil =>
      obtain rfl : calls = [] := h
      exact ⟨nofun, List.nil_prefix, fun _ => rfl, nofun⟩
  | cons v vs ih =>
      obtain ⟨proceed, rest, rfl, hrest⟩ := h
      cases proceed with
      | true =>
          obtain ⟨hkey, hprefix, hall, hstop⟩ := ih hrest
          refine ⟨?_, ?_, ?_, ?_⟩
          · intro c hc
            rcases List.mem_cons.1 hc with rfl | hc
            · rfl
            · exact hkey c hc
          · exact List.cons_prefix_cons.2 ⟨rfl, hprefix⟩
          · intro hc
            rw [delivered, List.map_cons, ← delivered,
              hall fun c hc' => hc c (List.mem_cons_of_mem _ hc')]
          · intro i c hi hc
            cases i with
            | zero =>
                obtain rfl := Option.some.inj hi
                cases hc
            | succ i => rw [List.length_cons, hstop i c hi hc]
      | false =>
          obtain rfl : rest = [] := hrest
          refine ⟨?_, ?_, ?_, ?_⟩
          · intro c hc
            rw [List.mem_singleton.1 hc]
          · exact List.cons_prefix_cons.2 ⟨rfl, List.nil_prefix⟩
          · intro hc
            cases hc _ List.mem_cons_self
          · intro i c hi _
            cases i with
            | zero => rfl
            | succ i => cases hi

/-- After calls that have all returned 0, whatever failed on the way, every key reads as the list of the store: the reader gets through without undefined behaviour, returns 0, and hands over the values in order until the callback says stop. -/
theorem store_refinement (env : Env) (space : KeySpace) (ops : List KeyOp) {st : ValueStore}
    {p p' : Process OneDriveConnect} {s t : Served} {tr : Trace} {rcs : List Int}
    (hready : env.Ready p.conn.token) (hst : Represents space s.drive st)
    (hkeys : ∀ op ∈ ops, op.key ∈ space.keys)
    (hrun : Run (KeyOp.callAll ops p) tr (rcs, p')) (haccepts : env.adverse.world.Accepts s tr t)
    (hzero : ∀ rc ∈ rcs, rc = 0) {key : Bytes} (hkey : key ∈ space.keys) :
    (∀ tr' e k u,
      Steps (hiveGetValues (some OneDrive.table) (some key) true p') tr' (.ask e k) →
      env.dependable.world.Accepts t tr' u → e ≠ .undefined ∧ e ≠ .diverge) ∧
    ∀ tr' rc p'' u,
      Run (hiveGetValues (some OneDrive.table) (some key) true p') tr' (rc, p'') →
      env.dependable.world.Accepts t tr' u →
      rc = 0 ∧ (∀ c ∈ callbacks tr', c.1 = key)
        ∧ delivered (callbacks tr') <+: ops.foldl KeyOp.apply st key
        ∧ ((∀ c ∈ callbacks tr', c.2.2 = true) →
          delivered (callbacks tr') = ops.foldl KeyOp.apply st key)
        ∧ ∀ i c, (callbacks tr')[i]? = some c → c.2.2 = false → (callbacks tr').length = i + 1 := by
  have hcalls : Proc.wp env.adverse.world (KeyOp.callAll ops) (fun rcs p' t =>
      (∀ rc ∈ rcs, rc = 0) →
        p'.conn = p.conn ∧ Represents space t.drive (ops.foldl KeyOp.apply st)) p s :=
    wp_callAll ops (fun h => h) ⟨hready.present, hready.valid⟩ hst hkeys
  obtain ⟨hconn, hst'⟩ := Prog.wp_run hcalls hrun haccepts hzero
  have hready' : env.dependable.Ready p'.conn.token := by
    rw [show p'.conn = p.conn from hconn]
    exact ⟨hready.present, hready.valid⟩
  have hfits : (Url.item (keyPath key) []).text.length < maxUrlLen := by
    have hlong := space.fits key hkey
    simp only [Url.text, List.length_append, List.length_nil] at hlong ⊢
    omega
  have hspec : Proc.wp env.dependable.world (hiveGetValues (some OneDrive.table) (some key) true)
      (fun rc _ u => rc = 0 ∧ ∃ calls, u.callbacks = t.callbacks ++ calls
        ∧ Delivers key (ops.foldl KeyOp.apply st key) calls) p' t := by
    have hnonEmpty : nonEmpty (some key) = some key := by simp [nonEmpty, space.ne_nil key hkey]
    unfold hiveGetValues
    rw [hnonEmpty]
    apply wp_dispatch
    apply wp_getValues_delivers trivial hready' hst'.small hfits (hst'.content key hkey)
      (hst'.storable key hkey)
    intro p'' u calls hcallbacks hdelivers
    rw [if_neg (by decide)]
    exact ⟨rfl, calls, hcallbacks, hdelivers⟩
  constructor
  · intro tr' e k u hsteps haccepts'
    have hpre := Prog.wp_steps hspec hsteps haccepts'
    exact ⟨fun h => hpre (.inl h) trivial, fun h => hpre (.inr h) trivial⟩
  · intro tr' rc p'' u hrun' haccepts'
    obtain ⟨hrc, calls, hcallbacks, hdelivers⟩ := Prog.wp_run hspec hrun' haccepts'
    obtain rfl : callbacks tr' = calls :=
      List.append_cancel_left ((Env.recorded haccepts').2.symm.trans hcallbacks)
    exact ⟨hrc, hdelivers.spec⟩

/-! One put on an absent key, and the read that follows. -/

/-- The answer of a drive that names no download URL when it is asked for the size alone. -/
def sizeText : Bytes := bytes "\x7b\"size\":5\x7d"

def sizeJson : Json := .object [(bytes "size", .number 5)]

def storeEnv : Env where
  parse text := if infoText.isPrefixOf text then some infoJson
    else if sizeText.isPrefixOf text then some sizeJson else none
  clock now := now = demoTime
  reliable := True

def demoSpace : KeySpace where
  keys := {demoKey}
  ne_nil key hkey := by
    rw [Set.mem_singleton_iff.1 hkey]
    decide
  injective := Set.injOn_singleton _ _
  fits key hkey := by
    rw [Set.mem_singleton_iff.1 hkey]
    decide

def demoInfoUrl : Request :=
  { demoInfo with query := [(bytes "select", bytes "size,@microsoft.graph.downloadUrl")] }

def demoDownload : Request where
  method := .get
  url := .download (bytes "https://dl.example/k")

def readBack : Trace :=
  [⟨.gettimeofday, demoTime⟩, ⟨.httpClientNew .getFileLength, true⟩,
    ⟨.perform demoInfo, demoReply 200 sizeText⟩] ++ collecting sizeText sizeJson
    ++ [⟨.alloc 5, true⟩, ⟨.gettimeofday, demoTime⟩, ⟨.httpClientNew .getFileToBuffer, true⟩,
      ⟨.perform demoInfoUrl, demoReply 200 infoText⟩] ++ receiving
    ++ [⟨.perform demoDownload, demoReply 200 (record [7])⟩, ⟨.valuesCallback demoKey [7], true⟩]

theorem walkValues_seven : Run (walkValues demoKey (record [7]) 5 demoProcess)
    [⟨.valuesCallback demoKey [7], true⟩] (0, demoProcess) := by
  have hlength : ntohl 0 0 0 1 = 1 := by decide
  have hrest : cSsize (5 - (kvEntrySize + (1 : Nat))) = 0 := by decide
  rw [show record [7] = [0, 0, 0, 1, 7] from rfl, walkValues]
  simp only [hlength, hrest]
  rw [if_neg (by decide), if_neg (by decide), if_neg (by decide)]
  exact .ask _ _ _ (.refl _)

unseal growSize in
set_option maxRecDepth 10000 in
theorem readBack_run :
    Run (hiveGetValues (some OneDrive.table) (some demoKey) true demoProcess) readBack
      (0, demoProcess) := by
  iterate 14 refine .ask _ _ _ ?_
  exact run_bind walkValues_seven (.refl _)

theorem Env.says_of_prefix {env : Env} {text : Bytes} {json : Json} (hne : text ≠ [])
    (hzero : 0 ∉ text) (hsize : text.length < 2 ^ 60)
    (hparse : ∀ rest, env.parse (text ++ rest) = some json) :
    env.Says (demoReply 200 text) json := by
  refine ⟨?_, ?_, fun rest => ?_⟩
  · rwa [demoReply_body]
  · rwa [demoReply_body]
  · rw [demoReply_body, cString_append hzero]
    exact hparse _

/-- What an answered look-up leaves: the drive with one more download URL. -/
def lookedUp (d : Drive) : Drive :=
  { d with downloads :=
      Function.update d.downloads (bytes "https://dl.example/k") (some (keyPath demoKey)) }

theorem lookedUp_downloads (d : Drive) :
    (lookedUp d).downloads (bytes "https://dl.example/k") = some (keyPath demoKey) := by
  simp only [lookedUp, Function.update_self]

/-- A look-up, from the request to the parser. -/
theorem Env.accepts_info {env : Env} {s t : Served} {d : Drive} {req : Request} {path text content : Bytes}
    {json : Json} {n : Nat} {rest : Trace} (haccess : req.access = .info path)
    (hitem : s.drive.items path = some content) (hroom : (demoReply 200 text).LeavesRoom)
    (hread : env.Says (demoReply 200 text) json) (hparse : env.parse text = some json)
    (hsize : json.sizeItem (bytes "size") = some (content.length : Int))
    (hnames : Env.Names s.drive path req json d)
    (h : env.world.Accepts (Env.after s req (demoReply 200 text) d) rest t) :
    env.world.Accepts s (⟨.perform req, demoReply 200 text⟩ :: ⟨.realloc n, true⟩
      :: ⟨.heapAfter (collected text), [0]⟩ :: ⟨.cjsonParse text, some json⟩ :: rest) t := by
  have hanswered : (demoReply 200 text).answered = some HttpStatus.ok := rfl
  apply Env.accepts_exchange (d := d)
  · rw [Env.Serves, haccess]
    exact ⟨fun h => absurd (hanswered.symm.trans h) (by decide),
      fun _ => ⟨content, json, hitem, hread, hsize, hnames⟩, fun h => absurd rfl h⟩
  · intro hsmall path content
    rw [hnames.items_eq]
    exact hsmall path content
  · intro _
    refine ⟨hread.body_size, fun path hpath => hroom, fun path hpath => .inl rfl,
      fun url path content hpath => ?_⟩
    rw [haccess] at hpath
    cases hpath
  · exact Env.accepts_local rfl (fun _ => rfl) <| Env.accepts_local rfl (Env.replies_zero env _) <|
      Env.accepts_local rfl (.inl hparse.symm) h

/-- A look-up of the key `k` that is answered with a download URL. -/
theorem Env.accepts_lookUp {env : Env} {s t : Served} {req : Request} {text content : Bytes}
    {json : Json} {n : Nat} {rest : Trace} (haccess : req.access = .info (keyPath demoKey))
    (hitem : s.drive.items (keyPath demoKey) = some content) (hroom : (demoReply 200 text).LeavesRoom)
    (hread : env.Says (demoReply 200 text) json) (hparse : env.parse text = some json)
    (hsize : json.sizeItem (bytes "size") = some (content.length : Int))
    (hurl : json.stringItem (bytes "@microsoft.graph.downloadUrl")
      = some (bytes "https://dl.example/k"))
    (h : env.world.Accepts (Env.after s req (demoReply 200 text) (lookedUp s.drive)) rest t) :
    env.world.Accepts s (⟨.perform req, demoReply 200 text⟩ :: ⟨.realloc n, true⟩
      :: ⟨.heapAfter (collected text), [0]⟩ :: ⟨.cjsonParse text, some json⟩ :: rest) t := by
  have hnames : Env.Names s.drive (keyPath demoKey) req json (lookedUp s.drive) := by
    rw [Env.Names, hurl]
    rfl
  exact Env.accepts_info haccess hitem hroom hread hparse hsize hnames h

theorem storeEnv_parse (rest : Bytes) :
    storeEnv.dependable.parse (infoText ++ rest) = some infoJson := by
  have hprefix : infoText.isPrefixOf (infoText ++ rest) = true :=
    List.isPrefixOf_iff_prefix.2 (List.prefix_append _ _)
  simp only [Env.dependable, storeEnv, hprefix, if_true]

theorem storeEnv_says : storeEnv.dependable.Says (demoReply 200 infoText) infoJson :=
  Env.says_of_prefix (by decide) (by decide) (by decide) storeEnv_parse

theorem storeEnv_parse_size (rest : Bytes) :
    storeEnv.dependable.parse (sizeText ++ rest) = some sizeJson := by
  have hprefix : sizeText.isPrefixOf (sizeText ++ rest) = true :=
    List.isPrefixOf_iff_prefix.2 (List.prefix_append _ _)
  have hother : infoText.isPrefixOf (sizeText ++ rest) = false := rfl
  simp only [Env.dependable, storeEnv, hother, hprefix, if_true, Bool.false_eq_true, if_false]

theorem storeEnv_says_size : storeEnv.dependable.Says (demoReply 200 sizeText) sizeJson :=
  Env.says_of_prefix (by decide) (by decide) (by decide) storeEnv_parse_size

theorem sizeText_leavesRoom : (demoReply 200 sizeText).LeavesRoom := demoReply_leavesRoom (by decide) (by decide)

theorem infoText_leavesRoom : (demoReply 200 infoText).LeavesRoom := demoReply_leavesRoom (by decide) (by decide)

/-- The answer to a request for the size may leave the download URL out. -/
theorem names_of_size {req : Request} (hquery : req.query = [(bytes "select", Item.InfoQuery.size.text)])
    (d : Drive) (path : Bytes) : Env.Names d path req sizeJson d := by
  have hnone : sizeJson.stringItem (bytes "@microsoft.graph.downloadUrl") = none := by decide
  rw [Env.Names, hnone]
  refine ⟨?_, rfl⟩
  rintro ⟨fields, hfields, hmem⟩
  rw [hquery] at hfields
  have hsize : fields = Item.InfoQuery.size.text := congrArg Prod.snd (List.mem_singleton.1 hfields)
  rw [hsize] at hmem
  exact absurd hmem (by decide)

private theorem accepts_readBack {s : Served}
    (hitem : s.drive.items (keyPath demoKey) = some (record [7])) :
    ∃ t, storeEnv.dependable.world.Accepts s readBack t := by
  have hread := storeEnv_says
  have hself : storeEnv.dependable.parse infoText = some infoJson := storeEnv_parse []
  have hsized : storeEnv.dependable.parse sizeText = some sizeJson := storeEnv_parse_size []
  have hsize : infoJson.sizeItem (bytes "size") = some ((record [7]).length : Int) := by decide
  have hurl : infoJson.stringItem (bytes "@microsoft.graph.downloadUrl")
      = some (bytes "https://dl.example/k") := by decide
  refine ⟨_, Env.accepts_local rfl rfl <| Env.accepts_local rfl (fun _ => rfl) <|
    Env.accepts_info rfl hitem sizeText_leavesRoom storeEnv_says_size hsized (by decide) (names_of_size rfl _ _) <|
    Env.accepts_local rfl (fun _ => rfl) <| Env.accepts_local rfl rfl <|
    Env.accepts_local rfl (fun _ => rfl) <|
    Env.accepts_lookUp rfl hitem infoText_leavesRoom hread hself hsize hurl <|
    Env.accepts_exchange ⟨rfl, fun _ => ⟨keyPath demoKey, record [7], ?_, hitem, by decide⟩⟩
      (fun hsmall => hsmall) (fun _ => ⟨by decide, nofun, nofun, fun _ _ _ _ _ _ => rfl⟩) <|
    .cons rfl <| .nil _⟩
  exact lookedUp_downloads _

theorem store_refinement_first :
    ∃ t u, storeEnv.adverse.world.Accepts (demoServed none) firstPut t
      ∧ storeEnv.dependable.world.Accepts t readBack u
      ∧ delivered (callbacks readBack) = [[7]] := by
  obtain ⟨t, haccepts, hitem⟩ := firstPut_accepts storeEnv rfl
  obtain ⟨u, hread⟩ := accepts_readBack hitem
  have hready : storeEnv.Ready demoProcess.conn.token := by
    refine ⟨rfl, fun now hnow => ?_⟩
    rw [show now = demoTime from hnow]
    decide
  have hst : Represents demoSpace (demoServed none).drive fun _ => [] := by
    refine ⟨demoServed_small nofun, fun key hkey => ?_, fun _ _ => nofun⟩
    rw [Set.mem_singleton_iff.1 hkey]
    rfl
  have hkeys : ∀ op ∈ [KeyOp.put demoKey [7]], op.key ∈ demoSpace.keys := by
    intro op hop
    rw [List.mem_singleton.1 hop]
    rfl
  have hrun : Run (KeyOp.callAll [.put demoKey [7]] demoProcess) firstPut ([0], demoProcess) := by
    iterate 7 refine .ask _ _ _ ?_
    exact .refl _
  have hzero : ∀ rc ∈ [(0 : Int)], rc = 0 := fun rc hrc => List.mem_singleton.1 hrc
  have hall := (store_refinement storeEnv demoSpace [.put demoKey [7]] hready hst hkeys hrun
    haccepts hzero rfl).2 readBack 0 demoProcess u readBack_run hread
  refine ⟨t, u, haccepts, hread, ?_⟩
  exact hall.2.2.2.1 (by decide)

end HiveSdk
