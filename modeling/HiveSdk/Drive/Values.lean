import HiveSdk.Drive.Store

/-!
# What the reader accepts

`get_values` walks over the stored bytes record by record and is strict about the end: a rest that could only hold a length is refused. It is not strict about the records themselves, and takes one that holds no byte, which neither `put_value` nor `set_value` writes. So it accepts exactly what the writers can produce on all bytes but those with such a record in the middle, and but for the one length that its caller takes for an error code.
-/

namespace HiveSdk

open Interaction OneDrive Framing

variable {env : Env} {p : Process OneDriveConnect} {s : Served}

/-- A rest that the walk goes on with is four bytes of a length and more. -/
private theorem frame_of_take {b₀ b₁ b₂ b₃ : UInt8} {body : Bytes}
    (h : ntohl b₀ b₁ b₂ b₃ ≤ body.length) : b₀ :: b₁ :: b₂ :: b₃ :: body
      = netLength.frame (body.take (ntohl b₀ b₁ b₂ b₃)) ++ body.drop (ntohl b₀ b₁ b₂ b₃) := by
  have hbytes : htonl (ntohl b₀ b₁ b₂ b₃) = [b₀, b₁, b₂, b₃] := by
    have h₀ := b₀.toNat_lt
    have h₁ := b₁.toNat_lt
    have h₂ := b₂.toNat_lt
    have h₃ := b₃.toNat_lt
    simp only [htonl, ntohl, List.cons.injEq, and_true]
    refine ⟨?_, ?_, ?_, ?_⟩ <;> apply UInt8.toNat_inj.1 <;> rw [UInt8.toNat_ofNat'] <;> omega
  rw [LengthCode.frame, List.length_take_of_le h, List.append_assoc, List.take_append_drop]
  show _ = htonl (ntohl b₀ b₁ b₂ b₃) ++ body
  rw [hbytes]
  rfl

private theorem decode_of_frame {b₀ b₁ b₂ b₃ : UInt8} {body v u : Bytes}
    (hv : v.length ≤ hiveMaxValueLen) (h : b₀ :: b₁ :: b₂ :: b₃ :: body = netLength.frame v ++ u) :
    ntohl b₀ b₁ b₂ b₃ = v.length ∧ body = v ++ u := by
  have hmax : hiveMaxValueLen ≤ netLength.bound := by decide
  have hdecode : netLength.decode ((netLength.frame v ++ u).take netLength.width) = v.length :=
    netLength.decode_take_frame (hv.trans hmax)
  have hdrop : (netLength.frame v ++ u).drop netLength.width = v ++ u := netLength.drop_width_frame
  rw [← h] at hdecode hdrop
  exact ⟨hdecode, hdrop⟩

/-! ### The walk over any bytes -/

theorem wp_walkValues_walk {key rest : Bytes} {Q : Int → Process OneDriveConnect → Served → Prop}
    (hlong : kvEntrySize < rest.length) (hlarge : rest.length < 2 ^ 63)
    (h : ∀ rc t calls, t.callbacks = s.callbacks ++ calls →
      ((∀ c ∈ calls, c.2.2 = true) → ∃ ok, netLength.Walk hiveMaxValueLen rest (delivered calls) ok
        ∧ rc = if ok then 0 else cInt (hiveGeneralError HiveErr.badPersistentData)) → Q rc p t) :
    Proc.wp env.world (walkValues key rest rest.length) Q p s := by
  induction hn : rest.length using Nat.strong_induction_on generalizing rest s with
  | _ n ih =>
      rw [← hn]
      match rest with
      | b₀ :: b₁ :: b₂ :: b₃ :: body =>
          have hfour : ntohl b₀ b₁ b₂ b₃ < 2 ^ 32 := by
            have h₀ := b₀.toNat_lt
            have h₁ := b₁.toNat_lt
            have h₂ := b₂.toNat_lt
            have h₃ := b₃.toNat_lt
            rw [ntohl]
            omega
          have hlength : (b₀ :: b₁ :: b₂ :: b₃ :: body).length = kvEntrySize + body.length := by
            simp only [List.length_cons, kvEntrySize]
            omega
          rw [hlength] at hlarge
          have hrest : cSsize (((b₀ :: b₁ :: b₂ :: b₃ :: body).length : Int)
              - (kvEntrySize + ntohl b₀ b₁ b₂ b₃)) = body.length - ntohl b₀ b₁ b₂ b₃ := by
            rw [hlength, cSsize_eq_self] <;> push_cast <;> omega
          generalize ((b₀ :: b₁ :: b₂ :: b₃ :: body).length : Int) = dataLen at hrest ⊢
          apply wp_walkValues_cons rfl hrest
          · intro hbad
            apply h _ s [] (List.append_nil _).symm
            intro _
            refine ⟨false, .bad _ fun v u hv hframe => ?_, rfl⟩
            obtain ⟨hvalLen, rfl⟩ := decode_of_frame hv hframe
            rw [RefusedRecord, hvalLen, List.length_append] at hbad
            have hwidth : netLength.width = kvEntrySize := rfl
            refine ⟨?_, by omega⟩
            rintro rfl
            rw [List.length_nil] at hbad
            omega
          · intro hgood hcut
            rw [RefusedRecord] at hgood
            omega
          · intro proceed t hgood ht
            rw [RefusedRecord] at hgood
            have hframe : b₀ :: b₁ :: b₂ :: b₃ :: body = _ := frame_of_take (by omega)
            generalize ntohl b₀ b₁ b₂ b₃ = valLen at hframe hgood ht ⊢
            have hvalue : (body.take valLen).length ≤ hiveMaxValueLen := by
              rw [List.length_take]
              omega
            have hbehind : (body.drop valLen).length = body.length - valLen := List.length_drop
            constructor
            · intro hstop
              apply h 0 t [_] (by rw [ht])
              intro hcalls
              have hproceed : proceed = true := hcalls _ List.mem_cons_self
              have hzero : (body.drop valLen).length = 0 := by
                rcases hstop with hzero | hfalse
                · omega
                · rw [hproceed] at hfalse
                  cases hfalse
              refine ⟨true, ?_, rfl⟩
              rw [hframe, List.length_eq_zero_iff.1 hzero, List.append_nil]
              exact .last _ hvalue
            · intro hmore _
              have hcast : ((body.length : Int) - valLen) = (body.drop valLen).length := by
                rw [hbehind]
                omega
              have hwidth : kvEntrySize < (body.drop valLen).length := by omega
              have hlt : (body.drop valLen).length < n := by
                rw [← hn, hlength, hbehind, kvEntrySize]
                omega
              rw [hcast]
              apply ih _ hlt hwidth (by omega) (fun rc u calls hcallbacks hwalk => ?_) rfl
              rw [ht, List.append_assoc] at hcallbacks
              apply h rc u _ hcallbacks
              intro hcalls
              obtain ⟨ok, hwalk, hrc⟩ := hwalk fun c hc => hcalls c (List.mem_cons_of_mem _ hc)
              refine ⟨ok, ?_, hrc⟩
              rw [hframe]
              exact .next _ hvalue hwidth hwalk
      | [] | [_] | [_, _] | [_, _, _] =>
          simp only [List.length_cons, List.length_nil, kvEntrySize] at hlong
          omega

/-! ### What the reader makes of the bytes -/

def badPersistentData : Int := cInt (hiveGeneralError HiveErr.badPersistentData)

/-- The results of a reader that is never told to stop: the code, and the values it hands over. -/
inductive Reads (content : Bytes) : Int → List Bytes → Prop
  | absent (h : isNotFound (cInt content.length)) : Reads content 0 []
  | short (h : ¬ isNotFound (cInt content.length)) (hshort : content.length ≤ kvEntrySize) :
      Reads content badPersistentData []
  | walk {values : List Bytes} {ok : Bool} (h : ¬ isNotFound (cInt content.length))
      (hlong : kvEntrySize < content.length)
      (hwalk : netLength.Walk hiveMaxValueLen content values ok) :
      Reads content (if ok then 0 else badPersistentData) values

/-- The reader takes what the writers write and nothing else, and what it hands over of other bytes are their first records. -/
def Accepts (content : Bytes) (rc : Int) (values : List Bytes) : Prop :=
  (rc = 0 ↔ netLength.WellFormed hiveMaxValueLen content) ∧
  (¬ netLength.WellFormed hiveMaxValueLen content →
    rc = badPersistentData ∧ netLength.Begins hiveMaxValueLen content values)

theorem Reads.accepts_iff {content : Bytes} {rc : Int} {values : List Bytes}
    (h : Reads content rc values) : Accepts content rc values
      ↔ ¬ netLength.Hollow hiveMaxValueLen content
        ∧ (isNotFound (cInt content.length) → netLength.WellFormed hiveMaxValueLen content) := by
  have hmax : hiveMaxValueLen ≤ netLength.bound := by decide
  have hbad : badPersistentData ≠ 0 := by decide
  have hwidth : netLength.width = kvEntrySize := rfl
  cases h with
  | absent hfound =>
      constructor
      · intro haccepts
        have hformed := haccepts.1.1 rfl
        exact ⟨fun hhollow => netLength.not_wellFormed_of_hollow hmax hhollow hformed, fun _ => hformed⟩
      · intro hcond
        have hformed := hcond.2 hfound
        exact ⟨iff_of_true rfl hformed, fun hnot => absurd hformed hnot⟩
  | short hfound hshort =>
      have hnot : ¬ netLength.WellFormed hiveMaxValueLen content := by
        rintro ⟨vs, hne, hvs, rfl⟩
        have hlt := netLength.width_lt_length_join hne fun v hv => (hvs v hv).1
        omega
      have hfull : ¬ netLength.Hollow hiveMaxValueLen content := by
        rintro ⟨vs, u, -, rfl, hu⟩
        simp only [List.length_append] at hshort
        omega
      constructor
      · exact fun _ => ⟨hfull, fun h => absurd h hfound⟩
      · intro _
        refine ⟨iff_of_false hbad hnot, fun _ => ⟨rfl, nofun, content, rfl⟩⟩
  | @walk _ ok hfound hlong hwalk =>
      have hcode : (if ok then 0 else badPersistentData) = 0 ↔ ok = true := by
        cases ok <;> simp [hbad]
      constructor
      · intro haccepts
        refine ⟨fun hhollow => ?_, fun h => absurd h hfound⟩
        have hnot := netLength.not_wellFormed_of_hollow hmax hhollow
        have hmem := hwalk.mem_nil_of_hollow netLength hmax hhollow
        exact ((haccepts.2 hnot).2.1 [] hmem).1 rfl
      · intro hcond
        obtain ⟨hok, hbegins⟩ := hwalk.of_not_hollow netLength hmax hlong hcond.1
        refine ⟨hcode.trans hok, fun hnot => ⟨?_, hbegins⟩⟩
        have hfalse : ok = false := by
          cases ok with
          | false => rfl
          | true => exact absurd (hok.1 rfl) hnot
        rw [hfalse]
        rfl

theorem wp_getValues_reads {key content : Bytes}
    {Q : Int → Process OneDriveConnect → Served → Prop} (hreliable : env.reliable)
    (hready : env.Ready p.conn.token) (hfits : (Url.item (keyPath key) []).text.length < maxUrlLen)
    (hitem : s.drive.items (keyPath key) = some content) (hne : content ≠ [])
    (h : ∀ rc (p' : Process OneDriveConnect) t calls, t.callbacks = s.callbacks ++ calls →
      ((∀ c ∈ calls, c.2.2 = true) → Reads content rc (delivered calls)) → Q rc p' t) :
    Proc.wp env.world (getValues key) Q p s := by
  rw [getValues, Proc.wp_bind]
  apply wp_getFileLength (fun _ => hready) (fun _ => hfits)
  · intro content' p₁ t xs hitem' _ hasked hready₁ hlarge
    obtain rfl : content = content' := Option.some.inj (hitem.symm.trans hitem')
    have hpos := List.length_pos_of_ne_nil hne
    dsimp only [Exit.value]
    rw [Proc.wp_ite]
    refine ⟨fun hfound => ?_, fun hfound => ?_⟩
    · rw [readValues, if_neg (by decide), if_pos rfl, Proc.wp_pure]
      apply h 0 p₁ t [] (by rw [hasked.callbacks, List.append_nil])
      intro _
      exact .absent hfound
    rw [if_neg (by omega)]
    have hsize : cSize (content.length : Int) = content.length := cSize_eq_self (by omega)
    have hsigned : cSsize (content.length : Int) = content.length :=
      cSsize_eq_self (by omega) (by omega)
    simp only [readValues, Proc.wp_ite, Proc.wp_pure, Proc.wp_bind]
    refine ⟨fun hshort => ?_, fun hlong => ⟨fun hzero => absurd hzero (by omega), fun _ => ?_⟩⟩
    · have hreads : Reads content badPersistentData [] := .short hfound (by omega)
      exact h _ p₁ t [] (by rw [hasked.callbacks, List.append_nil]) fun _ => hreads
    rw [wp_call_local rfl]
    intro allocated hallocated
    rw [hallocated hreliable, if_neg (by decide), Proc.wp_bind]
    have hitem₁ : t.drive.items (keyPath key) = some content := hasked.items ▸ hitem
    apply wp_getFileToBuffer hready₁ (fun _ => hfits)
    · intro _ content' hcontent
      obtain rfl : content = content' := Option.some.inj (hitem₁.symm.trans hcontent)
      refine ⟨?_, fun _ => ?_⟩
      · rw [List.length_replicate, hsize]
      · rw [hsize, hsigned]
    · intro content' p₂ u ys hitem₂ _ hquiet _
      obtain rfl : content = content' := Option.some.inj (hitem₁.symm.trans hitem₂)
      dsimp only [Exit.value]
      rw [if_neg (by omega), if_neg (by simp), hsize, List.drop_replicate, Nat.sub_self,
        List.replicate_zero, List.append_nil]
      have hwidth : kvEntrySize < content.length := by omega
      apply wp_walkValues_walk hwidth hlarge
      intro rc v calls hcallbacks hwalk
      apply h rc p₂ v calls (by rw [hcallbacks, hquiet.callbacks, hasked.callbacks])
      intro hcalls
      obtain ⟨ok, hwalked, rfl⟩ := hwalk hcalls
      exact .walk hfound hwidth hwalked
    · intro _ _ _ _ habsent
      rw [hitem₁] at habsent
      cases habsent
    · intro _ _ _ _ hincident
      exact (hincident hreliable).elim
    · intro _ _ _ _ hincident
      exact (hincident hreliable).elim
  · intro p₁ t xs habsent
    rw [hitem] at habsent
    cases habsent
  · exact fun _ _ _ hexpired => absurd hready.valid hexpired
  · intro _ _ _ hincident
    exact (hincident hreliable).elim
  · intro _ _ hincident
    exact (hincident hreliable).elim

/-- Over any bytes the reader gets through without undefined behaviour. It accepts exactly what the writers can produce, unless there is an empty record in front of another one, or the length of the bytes is congruent to the code for an absent item. -/
theorem reader_accepts_iff (env : Env) {p : Process OneDriveConnect} {s : Served}
    {key content : Bytes} (hready : env.Ready p.conn.token)
    (hfits : (Url.item (keyPath key) []).text.length < maxUrlLen)
    (hitem : s.drive.items (keyPath key) = some content) (hne : content ≠ []) :
    (∀ tr e k u, Steps (getValues key p) tr (.ask e k) → env.dependable.world.Accepts s tr u →
      e ≠ .undefined ∧ e ≠ .diverge) ∧
    ∀ tr rc p' t, Run (getValues key p) tr (rc, p') → env.dependable.world.Accepts s tr t →
      (∀ c ∈ callbacks tr, c.2.2 = true) →
      (Accepts content rc (delivered (callbacks tr))
        ↔ ¬ netLength.Hollow hiveMaxValueLen content
          ∧ (isNotFound (cInt content.length) → netLength.WellFormed hiveMaxValueLen content)) := by
  have hready' : env.dependable.Ready p.conn.token := ⟨hready.present, hready.valid⟩
  have hspec : Proc.wp env.dependable.world (getValues key) (fun rc _ t =>
      ∃ calls, t.callbacks = s.callbacks ++ calls
        ∧ ((∀ c ∈ calls, c.2.2 = true) → Reads content rc (delivered calls))) p s := by
    apply wp_getValues_reads trivial hready' hfits hitem hne
    intro rc p' t calls hcallbacks hreads
    exact ⟨calls, hcallbacks, hreads⟩
  constructor
  · intro tr e k u hsteps haccepts
    have hpre := Prog.wp_steps hspec hsteps haccepts
    exact ⟨fun h => hpre (.inl h) trivial, fun h => hpre (.inr h) trivial⟩
  · intro tr rc p' t hrun haccepts hcalls
    obtain ⟨calls, hcallbacks, hreads⟩ := Prog.wp_run hspec hrun haccepts
    obtain rfl : callbacks tr = calls :=
      List.append_cancel_left ((Env.recorded haccepts).2.symm.trans hcallbacks)
    exact (hreads hcalls).accepts_iff

/-! Nine bytes under the key `k`: one record of five bytes, or an empty record and one of one byte. -/

def nineText : Bytes :=
  bytes "\x7b\"size\":9,\"@microsoft.graph.downloadUrl\":\"https://dl.example/k\"\x7d"

def nineJson : Json := .object
  [(bytes "size", .number 9),
    (bytes "@microsoft.graph.downloadUrl", .string (bytes "https://dl.example/k"))]

def nineEnv : Env where
  parse text := if nineText.isPrefixOf text then some nineJson else none
  clock now := now = demoTime
  reliable := True

/-- A read of nine bytes, up to the first callback. -/
def readNine (content : Bytes) : Trace :=
  [⟨.gettimeofday, demoTime⟩, ⟨.httpClientNew .getFileLength, true⟩,
    ⟨.perform demoInfo, demoReply 200 nineText⟩] ++ collecting nineText nineJson
    ++ [⟨.alloc 9, true⟩, ⟨.gettimeofday, demoTime⟩, ⟨.httpClientNew .getFileToBuffer, true⟩,
      ⟨.perform demoInfoUrl, demoReply 200 nineText⟩] ++ collecting nineText nineJson
    ++ [⟨.perform demoDownload, demoReply 200 content⟩]

private theorem accepts_readNine {s : Served} {content : Bytes} (hlength : content.length = 9)
    (hitem : s.drive.items (keyPath demoKey) = some content) {calls : Trace}
    (hcalls : ∀ t, ∃ u, nineEnv.dependable.world.Accepts t calls u) :
    ∃ t, nineEnv.dependable.world.Accepts s (readNine content ++ calls) t := by
  have hparse : ∀ rest, nineEnv.dependable.parse (nineText ++ rest) = some nineJson := by
    intro rest
    have hprefix : nineText.isPrefixOf (nineText ++ rest) = true :=
      List.isPrefixOf_iff_prefix.2 (List.prefix_append _ _)
    simp only [Env.dependable, nineEnv, hprefix, if_true]
  have hread := Env.says_of_prefix (by decide) (by decide) (by decide) hparse
  have hself : nineEnv.dependable.parse nineText = some nineJson := hparse []
  have hsize : nineJson.sizeItem (bytes "size") = some (content.length : Int) := by
    rw [hlength]
    decide
  have hurl : nineJson.stringItem (bytes "@microsoft.graph.downloadUrl")
      = some (bytes "https://dl.example/k") := by decide
  have hbody : (demoReply 200 content).body = content := demoReply_body 200 content
  have hroom : (demoReply 200 nineText).LeavesRoom := demoReply_leavesRoom (by decide) (by decide)
  obtain ⟨t, ht⟩ := hcalls _
  refine ⟨t, Env.accepts_local rfl rfl <| Env.accepts_local rfl (fun _ => rfl) <|
    Env.accepts_lookUp rfl hitem hroom hread hself hsize hurl <|
    Env.accepts_local rfl (fun _ => rfl) <| Env.accepts_local rfl rfl <|
    Env.accepts_local rfl (fun _ => rfl) <|
    Env.accepts_lookUp rfl hitem hroom hread hself hsize hurl <|
    Env.accepts_exchange ⟨rfl, fun _ => ⟨keyPath demoKey, content, ?_, hitem, hbody⟩⟩
      (fun hsmall => hsmall) (fun _ => ⟨?_, ?_, ?_, fun _ _ _ _ _ _ => rfl⟩) ht⟩
  · exact lookedUp_downloads _
  · rw [hbody, hlength]
    decide
  · intro path hfetch
    cases hfetch
  · intro path hfetch
    cases hfetch

def fiveBytes : Bytes := record [1, 2, 3, 4, 5]

def emptyFirst : Bytes := record [] ++ record [7]

unseal growSize in
set_option maxRecDepth 10000 in
private theorem fiveBytes_run : Run (getValues demoKey demoProcess)
    (readNine fiveBytes ++ [⟨.valuesCallback demoKey [1, 2, 3, 4, 5], true⟩]) (0, demoProcess) := by
  have hwalk : Run (walkValues demoKey fiveBytes 9 demoProcess)
      [⟨.valuesCallback demoKey [1, 2, 3, 4, 5], true⟩] (0, demoProcess) := by
    have hlength : ntohl 0 0 0 5 = 5 := by decide
    have hrest : cSsize (9 - (kvEntrySize + (5 : Nat))) = 0 := by decide
    rw [show fiveBytes = [0, 0, 0, 5, 1, 2, 3, 4, 5] from rfl, walkValues]
    simp only [hlength, hrest]
    rw [if_neg (by decide), if_neg (by decide), if_neg (by decide)]
    exact .ask _ _ _ (.refl _)
  iterate 14 refine .ask _ _ _ ?_
  exact hwalk

unseal growSize in
set_option maxRecDepth 10000 in
private theorem emptyFirst_run : Run (getValues demoKey demoProcess)
    (readNine emptyFirst ++ [⟨.valuesCallback demoKey [], true⟩, ⟨.valuesCallback demoKey [7], true⟩])
    (0, demoProcess) := by
  have hwalk : Run (walkValues demoKey emptyFirst 9 demoProcess)
      [⟨.valuesCallback demoKey [], true⟩, ⟨.valuesCallback demoKey [7], true⟩]
      (0, demoProcess) := by
    have hlength : ntohl 0 0 0 0 = 0 := by decide
    have hrest : cSsize (9 - (kvEntrySize + (0 : Nat))) = 5 := by decide
    rw [show emptyFirst = 0 :: 0 :: 0 :: 0 :: record [7] from rfl, walkValues]
    simp only [hlength, hrest]
    rw [if_neg (by decide), if_neg (by decide), if_neg (by decide)]
    exact .ask _ _ _ walkValues_seven
  iterate 14 refine .ask _ _ _ ?_
  exact hwalk

private theorem demoProcess_ready (env : Env) (hclock : ∀ now, env.clock now → now = demoTime) :
    env.Ready demoProcess.conn.token := by
  refine ⟨rfl, fun now hnow => ?_⟩
  rw [hclock now hnow]
  decide

/-- A drive with one record of five bytes under the key. -/
theorem reader_accepts_record :
    ∃ t, nineEnv.dependable.world.Accepts (demoServed (some fiveBytes))
        (readNine fiveBytes ++ [⟨.valuesCallback demoKey [1, 2, 3, 4, 5], true⟩]) t
      ∧ Accepts fiveBytes 0 [[1, 2, 3, 4, 5]] := by
  have hitem : (demoServed (some fiveBytes)).drive.items (keyPath demoKey) = some fiveBytes := rfl
  have hcalls : ∀ t, ∃ u, nineEnv.dependable.world.Accepts t
      [⟨.valuesCallback demoKey [1, 2, 3, 4, 5], true⟩] u := fun t => ⟨_, .cons rfl (.nil _)⟩
  obtain ⟨t, haccepts⟩ := accepts_readNine rfl hitem hcalls
  have hready := demoProcess_ready nineEnv fun _ h => h
  have hformed : netLength.WellFormed hiveMaxValueLen fiveBytes := by
    refine ⟨[[1, 2, 3, 4, 5]], List.cons_ne_nil _ _, fun v hv => ?_, rfl⟩
    rw [List.mem_singleton.1 hv]
    exact ⟨List.cons_ne_nil _ _, by decide⟩
  have hmax : hiveMaxValueLen ≤ netLength.bound := by decide
  refine ⟨t, haccepts, ?_⟩
  apply ((reader_accepts_iff nineEnv hready (by decide) hitem (by decide)).2 _ 0 _ t fiveBytes_run
    haccepts (by decide)).2
  exact ⟨fun h => netLength.not_wellFormed_of_hollow hmax h hformed, fun _ => hformed⟩

/-- An empty record in front of another one is handed over, and the reader returns 0. -/
theorem reader_takes_empty_record :
    ∃ t, Run (getValues demoKey demoProcess) (readNine emptyFirst
          ++ [⟨.valuesCallback demoKey [], true⟩, ⟨.valuesCallback demoKey [7], true⟩])
        (0, demoProcess)
      ∧ nineEnv.dependable.world.Accepts (demoServed (some emptyFirst)) (readNine emptyFirst
          ++ [⟨.valuesCallback demoKey [], true⟩, ⟨.valuesCallback demoKey [7], true⟩]) t
      ∧ ¬ Accepts emptyFirst 0 [[], [7]] := by
  have hitem : (demoServed (some emptyFirst)).drive.items (keyPath demoKey) = some emptyFirst := rfl
  have hcalls : ∀ t, ∃ u, nineEnv.dependable.world.Accepts t
      [⟨.valuesCallback demoKey [], true⟩, ⟨.valuesCallback demoKey [7], true⟩] u :=
    fun t => ⟨_, .cons rfl (.cons rfl (.nil _))⟩
  obtain ⟨t, haccepts⟩ := accepts_readNine rfl hitem hcalls
  refine ⟨t, emptyFirst_run, haccepts, fun h => ?_⟩
  have hhollow : netLength.Hollow hiveMaxValueLen emptyFirst :=
    ⟨[], record [7], nofun, rfl, by decide⟩
  exact netLength.not_wellFormed_of_hollow (by decide) hhollow (h.1.1 rfl)

end HiveSdk
