import HiveSdk.Drive.Shared
import HiveSdk.Names.Operations

/-!
# Readers next to writers

`get_values` asks for the size of the item, asks again together with a download URL, and downloads; what it hands to its callback is put together from three answers. Next to writers that is safe only as long as no item changes between the first of them and the last. Then a reader that returns 0 has handed over the values that the key had at one moment, which lies between the calls of the writers in their order.
-/

namespace HiveSdk

open Interaction OneDrive
open Proc (Within)

/-! ### A reader changes nothing -/

theorem aboutItems_leavesDrive :
    AboutItems (World.guard LeavesDrive) (fun (_ : Process OneDriveConnect) _ => True) := by
  refine ⟨fun _ _ _ _ h => h, fun e he _ _ _ => ⟨?_, fun _ _ _ => trivial⟩⟩
  cases e <;> first | rfl | exact he.elim

theorem leavesDrive_getValues {key : Bytes} : Within LeavesDrive (getValues key) := by
  have hread : ∀ dataLen, Within LeavesDrive (readValues key dataLen) := fun dataLen =>
    Proc.within_iff_preserves.2 <| preserves_readValues aboutItems_leavesDrive fun block buflen =>
      (leavesDrive_getFileToBuffer _ block buflen).preserves
  refine .bind (leavesDrive_getFileLength _) fun exit => ?_
  exact .ite (fun _ => hread _) fun _ => .ite (fun _ => .pure _) fun _ => hread _

theorem leavesDrive_hiveGetValues {key : Bytes} :
    Within LeavesDrive (hiveGetValues (some OneDrive.table) (some key) true) := by
  unfold hiveGetValues
  rcases nonEmpty (some key) with _ | k
  · exact fun _ => trivial
  · exact .bind leavesDrive_getValues fun _ => .ite (fun _ => fun _ => trivial) fun _ => .pure _

/-! ### What a reader sees that returns 0 -/

/-- The world in which the client of the look-up is made. Without it the code of the failure, which is returned as a length, would be read as one. -/
def clientMade : World Event Event.Answer Unit where
  pre _ _ := True
  step _ e r _ := match e, r with
    | .httpClientNew .getFileLength, made => made = true
    | _, _ => True

theorem clientMade_accepts {tr : Trace} (h : ⟨.httpClientNew .getFileLength, false⟩ ∉ tr) :
    clientMade.Accepts () tr () := by
  induction tr with
  | nil => exact .nil _
  | cons entry tr ih =>
      rw [List.mem_cons, not_or] at h
      obtain ⟨e, r⟩ := entry
      refine .cons ?_ (ih h.2)
      cases e with
      | httpClientNew caller =>
          cases caller with
          | getFileLength =>
              cases r with
              | true => rfl
              | false => exact absurd rfl h.1
          | _ => trivial
      | _ => trivial

section
variable {env : Env} {p : Process OneDriveConnect} {s : Served} {key : Bytes}

/-- The size that the look-up gives is no error code. -/
theorem clientMade_getFileLength {path : Bytes} :
    Proc.wp clientMade (Item.getFileLength path) (fun exit _ _ => ∀ code, exit ≠ .code code) p () := by
  have hfree : ∀ (u : Unit) e, clientMade.pre u e := fun _ _ => trivial
  rw [Item.getFileLength, Proc.wp_bind]
  apply Proc.wp_of_forall hfree
  intro rc p₁ u
  rw [Proc.wp_ite, Proc.wp_pure, Proc.wp_bind, Proc.wp_call]
  refine ⟨fun _ code => by simp, fun _ => ⟨trivial, fun made u' hmade => ?_⟩⟩
  obtain rfl : made = true := hmade
  rw [if_neg (by decide), Proc.wp_bind]
  apply Proc.wp_of_forall hfree
  intro result p₂ u
  rcases result with rc | info
  · exact fun code => by simp
  · exact fun code => by simp

/-- A reader fails, or it has handed over the values, unless its first request was a refused refresh. -/
private def Sees (s : Served) (key : Bytes) (values : List Bytes) (rc : Int) (t : Served) : Prop :=
  rc < 0 ∨ rc = 0 ∧ ∀ exchanged, t.history = s.history ++ exchanged → ¬ Refused exchanged →
    ∃ calls, t.callbacks = s.callbacks ++ calls ∧ Delivers key values calls

/-- There is nothing to hand over. -/
private theorem sees_nothing {values : List Bytes} {t : Served} (hsame : t.callbacks = s.callbacks)
    (hvalues : ∀ v ∈ values, Storable v) (hnil : encodeValues values = []) : Sees s key values 0 t := by
  refine .inr ⟨rfl, fun exchanged _ _ => ⟨[], by rw [hsame, List.append_nil], ?_⟩⟩
  rw [encodeValues_eq_nil hvalues hnil]
  rfl

/-- From the size on. -/
private theorem wp_readValues_sees {content : Bytes} {values : List Bytes} {t : Served} (hincident : ¬ env.reliable)
    (hsame : t.callbacks = s.callbacks) (hitem : t.drive.items (keyPath key) = some content)
    (hlt : content.length < 2 ^ 31) (hencoded : content = encodeValues values) (hvalues : ∀ v ∈ values, Storable v) :
    Proc.wp env.world (readValues key content.length) (fun rc _ u => Sees s key values rc u) p t := by
  have hmemory : cInt (hiveGeneralError HiveErr.outOfMemory) < 0 := by decide
  have hbad : cInt (hiveGeneralError HiveErr.badPersistentData) < 0 := by decide
  have hchanged : cInt (hiveGeneralError HiveErr.invalidPersistenceFile) < 0 := by decide
  have hsize : cSize (content.length : Int) = content.length := cSize_eq_self (by omega)
  simp only [readValues, Proc.wp_ite, Proc.wp_pure, Proc.wp_bind]
  refine ⟨fun _ => (.inl hbad), fun _ => ⟨fun hzero => ?_, fun hsome => ?_⟩⟩
  · have hnil : encodeValues values = [] := by
      rw [← hencoded]
      exact List.length_eq_zero_iff.1 (by omega)
    exact sees_nothing hsame hvalues hnil
  rw [wp_call_local rfl]
  intro allocated _
  rw [Proc.wp_ite, Proc.wp_pure]
  refine ⟨fun _ => (.inl hmemory), fun _ => ?_⟩
  rw [Proc.wp_bind]
  apply wp_getFileToBuffer (fun hreliable => absurd hreliable hincident)
    (fun hreliable => absurd hreliable hincident) (fun hreliable => absurd hreliable hincident)
  · intro content' p₂ u xs hitem' _ hquiet _
    obtain rfl : content = content' := Option.some.inj (hitem.symm.trans hitem')
    have hne : values ≠ [] := by
      rintro rfl
      exact hsome (by rw [hencoded]; rfl)
    dsimp only [Exit.value]
    rw [if_neg (by omega), if_neg (by simp), hsize, List.drop_replicate, Nat.sub_self, List.replicate_zero,
      List.append_nil, hencoded]
    apply wp_walkValues_records hne hvalues (hencoded ▸ hlt)
    intro calls hcalls
    exact .inr ⟨rfl, fun exchanged _ _ => ⟨calls, by rw [hquiet.callbacks, hsame], hcalls⟩⟩
  · exact fun _ _ _ hreliable => absurd hreliable hincident
  · intro rc block' p' u _ hrc
    dsimp only [Exit.value]
    rw [if_pos hrc.neg, Proc.wp_pure, hrc.int]
    exact .inl hrc.neg
  · intro code block' p' u _ hcode _
    have hrc := cSsize_hiveMkError .general hcode
    have hlarge : (2 : Int) ^ 31 ≤ (Exit.code (hiveGeneralError code)).value := by
      rw [show (Exit.code (hiveGeneralError code)).value = cSsize (hiveMkError .general code) from rfl, hrc]
      omega
    dsimp only
    rw [if_neg (by omega), if_pos (by omega), Proc.wp_pure]
    exact .inl hchanged

theorem wp_getValues_sees {values : List Bytes} (hincident : ¬ env.reliable) (hsmall : s.drive.Small)
    (hcontent : s.drive.content (keyPath key) = encodeValues values) (hvalues : ∀ v ∈ values, Storable v) :
    Proc.wp (env.world.prod clientMade) (getValues key) (fun rc _ x => Sees s key values rc x.1) p (s, ()) := by
  have hfree : ∀ {α : Type} {m : Hive OneDriveConnect α} {p' : Process OneDriveConnect} {u : Unit},
      Proc.wp clientMade m (fun _ _ _ => True) p' u :=
    Proc.wp_of_forall (fun _ _ => trivial) fun _ _ _ => trivial
  have hempty : encodeValues values = [] → ∀ {p' : Process OneDriveConnect} {t : Served}, t.callbacks = s.callbacks →
      Proc.wp env.world (readValues key 0) (fun rc _ u => Sees s key values rc u) p' t := by
    intro hnil p' t hsame
    rw [readValues, if_neg (by decide), if_pos rfl, Proc.wp_pure]
    exact sees_nothing hsame hvalues hnil
  rw [getValues, Proc.wp_bind]
  have hlookUp : Proc.wp env.world (Item.getFileLength (keyPath key)) (fun exit p₁ t => (∀ code, exit ≠ .code code) →
      Proc.wp env.world (if isNotFound (cInt exit.value) then readValues key 0
        else if exit.value < 0 then return cInt exit.value else readValues key exit.value)
        (fun rc _ u => Sees s key values rc u) p₁ t) p s := by
    apply wp_getFileLength (fun hreliable => absurd hreliable hincident) (fun hreliable => absurd hreliable hincident)
    · intro content p₁ t xs hitem _ hasked _ _ _
      have hencoded : content = encodeValues values := by
        rw [← hcontent, Drive.content_of_items hitem]
      have hlt := hsmall _ _ hitem
      dsimp only [Exit.value]
      rw [isNotFound_length hlt, if_neg Bool.false_ne_true, if_neg (by omega)]
      exact wp_readValues_sees hincident hasked.callbacks (hasked.items ▸ hitem) hlt hencoded hvalues
    · intro p₁ t xs hitem _ hasked _ _
      dsimp only [Exit.value]
      rw [cInt_cInt, if_pos isNotFound_hiveHttpStatusError]
      exact hempty (by rw [← hcontent, Drive.content_of_absent hitem]) hasked.callbacks
    · intro p₁ t xs _ hquiet hrefused _
      dsimp only [Exit.value]
      rw [cInt_cInt, if_pos isNotFound_hiveHttpStatusError, readValues, if_neg (by decide), if_pos rfl, Proc.wp_pure]
      refine .inr ⟨rfl, fun exchanged hhistory hnot => ?_⟩
      obtain rfl : exchanged = xs := List.append_cancel_left (hhistory.symm.trans hquiet.history)
      exact absurd hrefused hnot
    · intro rc p' t _ hrc _
      dsimp only [Exit.value]
      rw [hrc.int, hrc.found, if_neg Bool.false_ne_true, if_pos hrc.neg, Proc.wp_pure]
      exact .inl hrc.neg
    · exact fun _ _ _ _ hcode => absurd rfl (hcode _)
  refine Proc.wp_prod hlookUp clientMade_getFileLength fun exit p₁ t u hnext hcode => ?_
  exact Proc.wp_prod (hnext hcode) hfree fun rc p₂ t' u' hsees _ => hsees

end

/-- A reader that returns 0 and does not begin with a refused refresh has handed over the values of the key. -/
theorem values_of_run {env : Env} {key : Bytes} {values : List Bytes} {p p' : Process OneDriveConnect} {s t : Served}
    {tr : Trace} (hkey : key ≠ []) (hsmall : s.drive.Small) (hcontent : s.drive.content (keyPath key) = encodeValues values)
    (hvalues : ∀ v ∈ values, Storable v) (hrun : Run (hiveGetValues (some OneDrive.table) (some key) true p) tr (0, p'))
    (haccepts : env.adverse.world.Accepts s tr t) (hmade : ⟨.httpClientNew .getFileLength, false⟩ ∉ tr)
    (hrefused : ¬ Refused (exchanges tr)) : Delivers key values (callbacks tr) := by
  have hnonEmpty : nonEmpty (some key) = some key := by simp [nonEmpty, hkey]
  have hspec : Proc.wp (env.adverse.world.prod clientMade) (hiveGetValues (some OneDrive.table) (some key) true)
      (fun rc _ x => Sees s key values rc x.1) p (s, ()) := by
    unfold hiveGetValues
    rw [hnonEmpty]
    apply wp_dispatch
    refine Proc.wp_mono (fun rc p' x hsees => ?_) (wp_getValues_sees (fun h => h) hsmall hcontent hvalues)
    rcases hsees with hneg | ⟨rfl, hsees⟩
    · rw [if_pos hneg]
      exact .inl (by decide)
    · rw [if_neg (by decide)]
      exact .inr ⟨rfl, hsees⟩
  have hresult := Prog.wp_run hspec hrun (World.prod_accepts haccepts (clientMade_accepts hmade))
  obtain ⟨hhistory, hcallbacks⟩ := Env.recorded haccepts
  rcases hresult with hneg | ⟨-, hsees⟩
  · exact absurd (show (0 : Int) < 0 from hneg) (by decide)
  obtain ⟨calls, hcalls, hdelivers⟩ := hsees _ hhistory hrefused
  rwa [List.append_cancel_left (hcallbacks.symm.trans hcalls)]

/-! ### Readers and writers together -/

/-- What a client does with a key. -/
inductive KeyAct where
  | change (op : KeyOp)
  | read (key : Bytes)

namespace KeyAct

def key : KeyAct → Bytes
  | change op => op.key
  | read key => key

def call : KeyAct → Hive OneDriveConnect Int
  | change op => op.call
  | read key => hiveGetValues (some OneDrive.table) (some key) true

/-- What it makes of the values. -/
def apply (st : ValueStore) : KeyAct → ValueStore
  | change op => op.apply st
  | read _ => st

/-- The operation of a writer. -/
def op : KeyAct → KeyOp
  | change op => op
  | read key => .delete key

/-- It looks at the item before it is done. -/
def Looks : KeyAct → Prop
  | change (.put _ _) | read _ => True
  | change _ => False

end KeyAct

section
variable {ι : Type} [DecidableEq ι] {env : Env} {i : ι} {key : Bytes} {p p' : Process OneDriveConnect}
  {tr : List (JointEntry ι Event Event.Answer)} {g g' : SharedDrive ι}

/-- A reader never changes an item. -/
theorem reads_only (hrun : Run ((KeyAct.read key).call p) (ofParty i tr) (0, p')) :
    ∀ entry ∈ ofParty i tr, isWrite entry.1 = false :=
  Prog.guard_calls (leavesDrive_hiveGetValues p) hrun

/-- A client that has read a key with a call that has come back with 0. -/
structure HasRead (tr : List (JointEntry ι Event Event.Answer)) (i : ι) (key : Bytes) : Prop where
  run : ∃ p p', Run ((KeyAct.read key).call p) (ofParty i tr) (0, p')
  accepted : ¬ Refused (exchanges (ofParty i tr))
  undisturbed : Undisturbed i tr
  made : ⟨.httpClientNew .getFileLength, false⟩ ∉ ofParty i tr

/-- Without a look at the item there is no telling what the values are. -/
theorem HasRead.exists_look (h : HasRead tr i key) (hkey : key ≠ []) (haccepts : (env.clients ι).Accepts g tr g') :
    ∃ start x between, tr = start ++ x :: between ∧ x.1.1 = i ∧ isLook x.1.2 = true
      ∧ ∀ entry ∈ ofParty i start, isLook entry.1 = false := by
  obtain ⟨p, p', hrun⟩ := h.run
  rcases first_look i tr with hblind | hlook
  · have hdelivers : ∀ values, (∀ v ∈ values, Storable v) → (encodeValues values).length < 2 ^ 31 →
        Delivers key values (callbacks (ofParty i tr)) := by
      intro values hvalues hlength
      have hstart : (Served.mk { g.view i with items := fun _ => some (encodeValues values) } [] []).drive
          = { g.view i with items := fun _ => some (encodeValues values) } := rfl
      obtain ⟨t, hacc, -⟩ :=
        accepts_before haccepts (fun entry hentry => ⟨reads_only hrun entry hentry, hblind entry hentry⟩) hstart
      refine values_of_run hkey ?_ rfl hvalues hrun hacc h.made h.accepted
      intro path content hcontent
      cases hcontent
      exact hlength
    have hnone := hdelivers [] (by simp) (by decide)
    have hone : Storable [7] := ⟨by simp, by decide⟩
    obtain ⟨proceed, rest, hcalls, -⟩ := hdelivers [[7]] (by simpa using hone) (by decide)
    rw [show callbacks (ofParty i tr) = [] from hnone] at hcalls
    cases hcalls
  · exact hlook

/-- Until after its last request a reader has the drive as it was before its first look. -/
theorem HasRead.values {start between : List (JointEntry ι Event Event.Answer)} {x : JointEntry ι Event Event.Answer}
    {values : List Bytes} {g₁ : SharedDrive ι} (h : HasRead (start ++ x :: between) i key) (hkey : key ≠ [])
    (hx : x.1.1 = i) (hlook : isLook x.1.2 = true) (hblind : ∀ entry ∈ ofParty i start, isLook entry.1 = false)
    (hstart : (env.clients ι).Accepts g start g₁) (hrest : (env.clients ι).Accepts g₁ (x :: between) g')
    (hsmall : g₁.Small) (hcontent : g₁.drive.content (keyPath key) = encodeValues values)
    (hvalues : ∀ v ∈ values, Storable v) : Delivers key values (callbacks (ofParty i (start ++ x :: between))) := by
  obtain ⟨p, p', hrun⟩ := h.run
  obtain ⟨during, later, hsplit, hothers, hlate⟩ := h.undisturbed.until_last hx hlook
  obtain ⟨g₂, hduring, hlater⟩ := World.accepts_append_iff.1 (hsplit ▸ hrest)
  have hplain : ∀ entry ∈ ofParty i start, isWrite entry.1 = false ∧ isLook entry.1 = false := by
    refine fun entry hentry => ⟨reads_only hrun entry ?_, hblind entry hentry⟩
    rw [ofParty_append]
    exact List.mem_append_left _ hentry
  obtain ⟨t, hacc, -⟩ := accepts_between hstart hduring hlater hplain (fun j e r hmem => hothers _ hmem) hlate
  rw [List.append_assoc, ← hsplit] at hacc
  have hsmall₁ : (Served.mk { g.view i with items := g₁.items } [] []).drive.Small := hsmall
  exact values_of_run hkey hsmall₁ hcontent hvalues hrun hacc h.made h.accepted

end

section
variable {ι : Type} {acts : ι → KeyAct}

/-- The changes that have been made are the operations of the writers. -/
theorem foldl_apply_writers {early : List (JointEntry ι Event Event.Answer)} (st : ValueStore)
    (hwriters : ∀ i ∈ early.filterMap writer, ∃ op, acts i = .change op) :
    ((early.filterMap writer).map acts).foldl KeyAct.apply st
      = ((early.filterMap writer).map fun i => (acts i).op).foldl KeyOp.apply st := by
  have hmap : (early.filterMap writer).map acts
      = ((early.filterMap writer).map fun i => (acts i).op).map KeyAct.change := by
    rw [List.map_map]
    apply List.map_congr_left
    intro i hi
    obtain ⟨op, hact⟩ := hwriters i hi
    rw [Function.comp_apply, hact]
    rfl
  rw [hmap, List.foldl_map]
  rfl

theorem op_key {i : ι} {op : KeyOp} (hact : acts i = .change op) : (acts i).op.key = (acts i).key := by
  rw [hact]
  rfl

end

/-- Calls of any number of clients that change keys or read them and have all come back with 0, in any interleaving of their requests. If no client changes an item between another one's first look and last request, then every reader has handed over the values that its key had when it looked first, as they are after the changes made by then, one after another. -/
theorem readers_see_states (env : Env) {ι : Type} [DecidableEq ι] {space : KeySpace} {st : ValueStore} {acts : ι → KeyAct}
    {connects : ι → Process OneDriveConnect} {g g' : SharedDrive ι} {tr : List (JointEntry ι Event Event.Answer)}
    (hsmall : g.Small) (hkeys : ∀ i, (acts i).key ∈ space.keys) (hst : Represents space g.drive st)
    (haccepts : (env.clients ι).Accepts g tr g')
    (hruns : ∀ i, ∃ p', Run ((acts i).call (connects i)) (ofParty i tr) (0, p'))
    (hrefused : ∀ i, ¬ Refused (exchanges (ofParty i tr)))
    (hundisturbed : ∀ i, (acts i).Looks → Undisturbed i tr)
    (hmade : ∀ i key, acts i = .read key → ⟨.httpClientNew .getFileLength, false⟩ ∉ ofParty i tr) :
    (tr.filterMap writer).Nodup ∧ (∀ i, i ∈ tr.filterMap writer ↔ ∃ op, acts i = .change op)
      ∧ Represents space g'.drive (((tr.filterMap writer).map acts).foldl KeyAct.apply st)
      ∧ ∀ i key, acts i = .read key → ∃ early look later, tr = early ++ look :: later
          ∧ look.1.1 = i ∧ isLook look.1.2 = true
          ∧ Delivers key (((early.filterMap writer).map acts).foldl KeyAct.apply st key) (callbacks (ofParty i tr)) := by
  have hchange : ∀ i op, acts i = .change op → Changed tr i op := by
    intro i op hact
    obtain ⟨p', hrun⟩ := hruns i
    rw [hact] at hrun
    refine ⟨⟨connects i, p', hrun⟩, hrefused i, fun key value hop => hundisturbed i ?_⟩
    rw [hact, hop]
    trivial
  have hread : ∀ i key, acts i = .read key → HasRead tr i key := by
    intro i key hact
    obtain ⟨p', hrun⟩ := hruns i
    rw [hact] at hrun
    refine ⟨⟨connects i, p', hrun⟩, hrefused i, hundisturbed i ?_, hmade i key hact⟩
    rw [hact]
    trivial
  have hwriters : ∀ early later, tr = early ++ later → ∀ i ∈ early.filterMap writer, ∃ op, acts i = .change op := by
    intro early later htr i hi
    obtain ⟨⟨⟨j, e⟩, r⟩, hmem, hx⟩ := List.mem_filterMap.1 hi
    obtain ⟨hwrite, rfl⟩ : isWrite e = true ∧ j = i := by
      simpa [writer] using hx
    have hown : ⟨(j, e), r⟩ ∈ tr := htr ▸ List.mem_append_left later hmem
    cases hact : acts j with
    | change op => exact ⟨op, rfl⟩
    | read key =>
        obtain ⟨p, p', hrun⟩ := (hread j key hact).run
        have honly := reads_only hrun ⟨e, r⟩ (mem_ofParty_iff.2 hown)
        rw [hwrite] at honly
        cases honly
  have hops : ∀ i ∈ tr.filterMap writer, Changed tr i (acts i).op := by
    intro i hi
    obtain ⟨op, hact⟩ := hwriters tr [] (List.append_nil tr).symm i hi
    rw [hact]
    exact hchange i op hact
  -- at any time the drive holds what the operations make of the store that have been served by then
  have hstates : ∀ early later g₁, tr = early ++ later → (env.clients ι).Accepts g early g₁ →
      (env.clients ι).Accepts g₁ later g' →
      Represents space g₁.drive (((early.filterMap writer).map acts).foldl KeyAct.apply st) := by
    intro early later g₁ htr hearly hlater
    rw [foldl_apply_writers st (hwriters early later htr)]
    obtain ⟨-, hstore⟩ := states_of_prefix hsmall hops htr hearly hlater
    refine hstore space st (fun i hi => ?_) hst
    obtain ⟨op, hact⟩ := hwriters early later htr i hi
    rw [op_key hact]
    exact hkeys i
  refine ⟨nodup_writers hops, fun i => ⟨hwriters tr [] (List.append_nil tr).symm i, ?_⟩,
    hstates tr [] g' (List.append_nil tr).symm haccepts (.nil g'), ?_⟩
  · rintro ⟨op, hact⟩
    have hchanged := hchange i op hact
    obtain ⟨p, p', hrun⟩ := hchanged.run
    obtain ⟨entry, hentry, hwrite⟩ := exists_write hsmall hrun hchanged.accepted hchanged.undisturbed haccepts
    rw [List.mem_filterMap]
    exact ⟨_, mem_ofParty_iff.1 hentry, by simp [writer, hwrite]⟩
  · intro i key hact
    have hkey : key ∈ space.keys := by
      have hown := hkeys i
      rwa [hact] at hown
    obtain ⟨start, x, between, htr, hx, hlook, hblind⟩ :=
      (hread i key hact).exists_look (space.ne_nil key hkey) haccepts
    obtain ⟨g₁, hstart, hrest⟩ := World.accepts_append_iff.1 (htr ▸ haccepts)
    have hstore := hstates start (x :: between) g₁ htr hstart hrest
    refine ⟨start, x, between, htr, hx, hlook, ?_⟩
    have hdelivers := HasRead.values (htr ▸ hread i key hact) (space.ne_nil key hkey) hx hlook hblind hstart hrest
      (accepts_small hstart hsmall) (hstore.content key hkey) (hstore.storable key hkey)
    rwa [← htr] at hdelivers

/-! ### A reader next to a put -/

/-- The other clients change no item after the first look of this one. -/
theorem undisturbed_of_append {ι : Type} {i : ι} {early late : List (JointEntry ι Event Event.Answer)}
    (hearly : ∀ x ∈ early, x.1.1 = i → isLook x.1.2 = false) (hlate : ∀ z ∈ late, z.1.1 ≠ i → isWrite z.1.2 = false) :
    Undisturbed i (early ++ late) := by
  intro before x between y later htr hx hlook _ _ z hz
  rw [List.append_assoc] at htr
  rcases List.append_eq_append_iff.1 htr with ⟨rest, hbefore, hsplit⟩ | ⟨rest, hearlier, hsplit⟩
  · apply hlate z
    rw [hsplit]
    exact List.mem_append_right _ (List.mem_cons_of_mem _ (List.mem_append_left _ hz))
  · rcases rest with _ | ⟨x', rest⟩
    · apply hlate z
      rw [← List.nil_append late, ← hsplit]
      exact List.mem_cons_of_mem _ (List.mem_append_left _ hz)
    · obtain ⟨rfl, -⟩ := List.cons_eq_cons.1 hsplit
      have hblind := hearly x (by rw [hearlier]; simp) hx
      rw [hlook] at hblind
      cases hblind

/-- One client looks at its clock, the other one puts a value, and the first one reads it. -/
def putThenRead : List (JointEntry Bool Event Event.Answer) :=
  asParty true (readBack.take 1) ++ asParty false firstPut ++ asParty true (readBack.drop 1)

def putAndRead (i : Bool) : KeyAct := if i then .read demoKey else .change (.put demoKey [7])

/-- The reader gets the value that has been put while it was looking at its clock. -/
theorem readers_see_states_demo : ∃ g', (storeEnv.clients Bool).Accepts (demoShared none) putThenRead g'
    ∧ ∃ early look later, putThenRead = early ++ look :: later ∧ look.1.1 = true ∧ isLook look.1.2 = true
      ∧ Delivers demoKey (((early.filterMap writer).map putAndRead).foldl KeyAct.apply (fun _ => []) demoKey)
        (callbacks (ofParty true putThenRead)) := by
  have hclock : storeEnv.adverse.world.Accepts ⟨(demoShared none).view true, [], []⟩ (readBack.take 1)
      ⟨(demoShared none).view true, [], []⟩ := Env.accepts_local rfl rfl <| .nil _
  obtain ⟨g₁, hacc₁, hview₁⟩ := accepts_alone storeEnv true rfl hclock
  obtain ⟨g₀, hlooks, hitems₀⟩ := firstPut_looks storeEnv (g := g₁) rfl false (congrFun (congrArg Drive.items hview₁) _)
  obtain ⟨g₂, hstores, hitems₂⟩ := firstPut_stores storeEnv rfl g₀ false
  have hput : (storeEnv.clients Bool).Accepts g₁ (asParty false firstPut) g₂ :=
    World.accepts_append_iff.2 ⟨g₀, hlooks, hstores⟩
  have hstored : (g₂.view true).items (keyPath demoKey) = some (record [7]) := by
    have hitem := congrFun hitems₂ (keyPath demoKey)
    rwa [Function.update_self] at hitem
  have hparse : ∀ rest, storeEnv.adverse.parse (infoText ++ rest) = some infoJson := storeEnv_parse
  have hread : storeEnv.adverse.Says (demoReply 200 infoText) infoJson :=
    Env.says_of_prefix (by decide) (by decide) (by decide) hparse
  have hself : storeEnv.adverse.parse infoText = some infoJson := storeEnv_parse []
  have hsized : storeEnv.adverse.parse sizeText = some sizeJson := storeEnv_parse_size []
  have hsays : storeEnv.adverse.Says (demoReply 200 sizeText) sizeJson :=
    Env.says_of_prefix (by decide) (by decide) (by decide) storeEnv_parse_size
  have hsize : infoJson.sizeItem (bytes "size") = some ((record [7]).length : Int) := by decide
  have hurl : infoJson.stringItem (bytes "@microsoft.graph.downloadUrl") = some (bytes "https://dl.example/k") := by decide
  obtain ⟨t₃, hback⟩ : ∃ t₃, storeEnv.adverse.world.Accepts ⟨g₂.view true, [], []⟩ (readBack.drop 1) t₃ := by
    refine ⟨_, Env.accepts_local rfl (fun h => h.elim) <|
      Env.accepts_info rfl hstored sizeText_leavesRoom hsays hsized (by decide) (names_of_size rfl _ _) <|
      Env.accepts_local rfl (fun h => h.elim) <| Env.accepts_local rfl rfl <|
      Env.accepts_local rfl (fun h => h.elim) <|
      Env.accepts_lookUp rfl hstored infoText_leavesRoom hread hself hsize hurl <|
      Env.accepts_perform ⟨rfl, fun _ => ⟨keyPath demoKey, record [7], ?_, hstored, by decide⟩⟩
        (fun hsmall => hsmall) <| .cons rfl <| .nil _⟩
    exact lookedUp_downloads _
  obtain ⟨g₃, hacc₃, -⟩ := accepts_alone storeEnv true rfl hback
  have haccepts : (storeEnv.clients Bool).Accepts (demoShared none) putThenRead g₃ :=
    World.accepts_append_iff.2 ⟨g₂, World.accepts_append_iff.2 ⟨g₁, hacc₁, hput⟩, hacc₃⟩
  have hfalse : ofParty false putThenRead = firstPut := by
    simp only [putThenRead, ofParty_append, ofParty_asParty_self, ofParty_asParty_of_ne (show true ≠ false by simp),
      List.nil_append, List.append_nil]
  have htrue : ofParty true putThenRead = readBack := by
    simp only [putThenRead, ofParty_append, ofParty_asParty_self, ofParty_asParty_of_ne (show false ≠ true by simp),
      List.append_nil, List.take_append_drop]
  have hruns : ∀ i, ∃ p', Run ((putAndRead i).call demoProcess) (ofParty i putThenRead) (0, p') := by
    intro i
    cases i with
    | false =>
        rw [hfalse]
        exact ⟨_, firstPut_run⟩
    | true =>
        rw [htrue]
        exact ⟨_, readBack_run⟩
  have hrefused : ∀ i, ¬ Refused (exchanges (ofParty i putThenRead)) := by
    intro i hrefused
    obtain ⟨x, hx, htoken, -⟩ := hrefused
    cases i with
    | false =>
        rw [hfalse] at hx
        cases hx
        cases htoken
    | true =>
        rw [htrue] at hx
        cases hx
        cases htoken
  have hundisturbed : ∀ i, (putAndRead i).Looks → Undisturbed i putThenRead := by
    intro i _
    cases i with
    | false =>
        apply undisturbed_of_last
        decide
    | true =>
        rw [putThenRead]
        apply undisturbed_of_append
        · decide
        · decide
  have hst : Represents demoSpace (demoShared none).drive fun _ => [] := by
    refine ⟨demoServed_small (by simp), fun key hkey => ?_, fun _ _ v hv => by cases hv⟩
    rw [Set.mem_singleton_iff.1 hkey]
    rfl
  have hkeys : ∀ i, (putAndRead i).key ∈ demoSpace.keys := by
    intro i
    cases i <;> rfl
  have hmade : ∀ i key, putAndRead i = .read key → ⟨.httpClientNew .getFileLength, false⟩ ∉ ofParty i putThenRead := by
    intro i key hact
    cases i with
    | false => cases hact
    | true =>
        rw [htrue]
        simp [readBack, receiving, collecting]
  have hsmall : (demoShared none).Small := fun path content hitem => by
    simp [demoShared, demoServed] at hitem
  obtain ⟨-, -, -, hreaders⟩ :=
    readers_see_states storeEnv hsmall hkeys hst haccepts hruns hrefused hundisturbed hmade
  exact ⟨g₃, haccepts, hreaders true demoKey rfl⟩

end HiveSdk
