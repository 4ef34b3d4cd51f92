import HiveSdk.Drive.Writers

/-!
# Writers that share a key

Any number of clients call the writing functions for the same key at the same time, and the drive serves their requests one by one in whatever order they come. The URLs that it hands out are used by the client that has been given them. Nothing keeps two clients apart, so of two values that are put at the same time one may be lost. But if no other client changes the key between the first look of a put and its last request, the outcome is that of the calls one after another, in the order of their changes.
-/

namespace HiveSdk

open Interaction OneDrive

/-! ### The drive and its clients -/

/-- The items of the drive, and the URLs that it has handed out to each client. -/
structure SharedDrive (ι : Type) where
  items : Bytes → Option Bytes
  uploads : ι → Bytes → Option Bytes
  downloads : ι → Bytes → Option Bytes

namespace SharedDrive

variable {ι : Type}

/-- The drive as one of the clients has it. -/
def view (g : SharedDrive ι) (i : ι) : Drive := ⟨g.items, g.uploads i, g.downloads i⟩

variable [DecidableEq ι]

/-- The drive after it has served one of the clients. -/
def serve (g : SharedDrive ι) (i : ι) (d : Drive) : SharedDrive ι :=
  ⟨d.items, Function.update g.uploads i d.uploads, Function.update g.downloads i d.downloads⟩

@[simp] theorem serve_items (g : SharedDrive ι) (i : ι) (d : Drive) : (g.serve i d).items = d.items := rfl

@[simp] theorem view_serve_self (g : SharedDrive ι) (i : ι) (d : Drive) : (g.serve i d).view i = d := by
  simp [serve, view]

end SharedDrive

namespace Env

/-- The world of one of the clients. The drive serves a request as it would serve it if there were no others. -/
def client (env : Env) {ι : Type} [DecidableEq ι] (i : ι) : World Event Event.Answer (SharedDrive ι) where
  pre _ _ := True
  step g e r g' := match e, r with
    | .perform req, reply => ∃ d, env.Serves (g.view i) req reply d ∧ ((g.view i).Small → d.Small)
        ∧ g' = g.serve i d
    | e, r => env.Replies e r ∧ g' = g

/-- All clients with their drive, which may refuse any request. -/
abbrev clients (env : Env) (ι : Type) [DecidableEq ι] :
    World (ι × Event) (fun x => x.2.Answer) (SharedDrive ι) := World.joint env.adverse.client

/-- A request that changes no item does the same to any other items, unless its answer depends on them. -/
theorem Serves.of_items {env : Env} {d d' : Drive} {req : Request} {reply : Reply} (h : env.Serves d req reply d')
    (hread : req.access.isRead = true) (hlook : req.access.isLook = false) (items : Bytes → Option Bytes) :
    env.Serves { d with items := items } req reply { d' with items := items } := by
  rw [Serves] at h ⊢
  rcases haccess : req.access with path | path | path | path | url | url | _ | _ <;>
    rw [haccess] at h hread hlook
  · cases hlook
  · cases hread
  · dsimp only at h ⊢
    by_cases hanswered : reply.answered = some HttpStatus.ok
    · rw [if_pos hanswered] at h ⊢
      obtain ⟨json, url, hsays, hurl, rfl⟩ := h
      exact ⟨json, url, hsays, hurl, rfl⟩
    · rw [if_neg hanswered] at h ⊢
      rw [h]
  · cases hread
  · cases hread
  · cases hlook
  · rw [show d' = d from h]
  · rw [show d' = d from h]

end Env

section
variable {ι : Type} [DecidableEq ι] {env : Env} {i j : ι} {e : Event} {r : e.Answer} {g g' : SharedDrive ι}
  {tr : List (JointEntry ι Event Event.Answer)} {t : Served}

/-! ### One step of a client -/

/-- No item of the shared drive has 2^31 bytes or more. -/
def SharedDrive.Small (g : SharedDrive ι) : Prop :=
  ∀ path content, g.items path = some content → content.length < 2 ^ 31

theorem client_small (h : (env.client i).step g e r g') (hsmall : g.Small) : g'.Small := by
  cases e with
  | perform req =>
      obtain ⟨d, -, hkept, rfl⟩ := h
      exact hkept hsmall
  | _ =>
      obtain ⟨-, rfl⟩ := h
      exact hsmall

theorem client_items (h : (env.client i).step g e r g') (he : isWrite e = false) : g'.items = g.items := by
  cases e with
  | perform req =>
      obtain ⟨d, hserves, -, rfl⟩ := h
      exact hserves.items_eq (by simpa [isWrite] using he)
  | _ =>
      obtain ⟨-, rfl⟩ := h
      rfl

/-- What a client is served leaves the URLs of the others alone. -/
theorem client_urls_of_ne (h : (env.client j).step g e r g') (hne : j ≠ i) :
    g'.uploads i = g.uploads i ∧ g'.downloads i = g.downloads i := by
  cases e with
  | perform req =>
      obtain ⟨d, -, -, rfl⟩ := h
      simp [SharedDrive.serve, hne.symm]
  | _ =>
      obtain ⟨-, rfl⟩ := h
      exact ⟨rfl, rfl⟩

/-- A step of a client on the drive as it is. -/
theorem client_step (h : (env.adverse.client i).step g e r g') (ht : t.drive = g.view i) :
    ∃ t', env.adverse.world.step t e r t' ∧ t'.drive = g'.view i := by
  cases e with
  | perform req =>
      obtain ⟨d, hserves, hsmall, rfl⟩ := h
      rw [← ht] at hserves hsmall
      have hexchange : env.adverse.Exchanges t req r (Env.after t req r d) := ⟨hserves, rfl, rfl, hsmall, False.elim⟩
      exact ⟨_, hexchange, (SharedDrive.view_serve_self g i d).symm⟩
  | valuesCallback key value =>
      obtain ⟨-, rfl⟩ := h
      exact ⟨_, rfl, ht⟩
  | undefined | diverge => exact r.elim
  | _ =>
      obtain ⟨hr, rfl⟩ := h
      exact ⟨t, ⟨hr, rfl⟩, ht⟩

/-- A step that neither changes an item nor depends on one, on a drive with other items. -/
theorem client_step_elsewhere (h : (env.adverse.client i).step g e r g') (hwrite : isWrite e = false)
    (hlook : isLook e = false) {items : Bytes → Option Bytes} (ht : t.drive = { g.view i with items := items }) :
    ∃ t', env.adverse.world.step t e r t' ∧ t'.drive = { g'.view i with items := items } := by
  cases e with
  | perform req =>
      obtain ⟨d, hserves, -, rfl⟩ := h
      have hother := hserves.of_items (by simpa [isWrite] using hwrite) hlook items
      rw [← ht] at hother
      have hsmall : t.drive.Small → (Drive.mk items d.uploads d.downloads).Small := by
        rw [ht]
        exact fun hsmall => hsmall
      have hexchange : env.adverse.Exchanges t req r (Env.after t req r ⟨items, d.uploads, d.downloads⟩) :=
        ⟨hother, rfl, rfl, hsmall, False.elim⟩
      exact ⟨_, hexchange, by rw [SharedDrive.view_serve_self]; rfl⟩
  | valuesCallback key value =>
      obtain ⟨-, rfl⟩ := h
      exact ⟨_, rfl, ht⟩
  | undefined | diverge => exact r.elim
  | _ =>
      obtain ⟨hr, rfl⟩ := h
      exact ⟨t, ⟨hr, rfl⟩, ht⟩

theorem world_step_of_not_request (h : (env.adverse.client i).step g e r g') (he : isRequest e = false) :
    ∃ t', env.adverse.world.step t e r t' ∧ t'.drive = t.drive := by
  cases e with
  | perform req => cases he
  | valuesCallback key value => exact ⟨_, rfl, rfl⟩
  | undefined | diverge => exact r.elim
  | _ =>
      obtain ⟨hr, rfl⟩ := h
      exact ⟨t, ⟨hr, rfl⟩, rfl⟩

/-! ### The part of one client in a run -/

/-- Before a client has looked at an item it may have been on a drive with any items. -/
theorem accepts_before (h : (env.clients ι).Accepts g tr g') {items : Bytes → Option Bytes}
    (hplain : ∀ entry ∈ ofParty i tr, isWrite entry.1 = false ∧ isLook entry.1 = false)
    (ht : t.drive = { g.view i with items := items }) :
    ∃ t', env.adverse.world.Accepts t (ofParty i tr) t' ∧ t'.drive = { g'.view i with items := items } := by
  refine World.joint_simulates (I := fun (t : Served) (g : SharedDrive ι) => t.drive = { g.view i with items := items }) h ht ?_ ?_
  · intro e r hmem t g g' ht hstep
    obtain ⟨hwrite, hlook⟩ := hplain _ (mem_ofParty_iff.2 hmem)
    exact client_step_elsewhere hstep hwrite hlook ht
  · intro j e r _ hne t g g' ht hstep
    obtain ⟨huploads, hdownloads⟩ := client_urls_of_ne hstep hne
    simp only [ht, SharedDrive.view, huploads, hdownloads]

/-- As long as the others do not change an item a client might as well be alone. -/
theorem accepts_during (h : (env.clients ι).Accepts g tr g')
    (hothers : ∀ j e r, ⟨(j, e), r⟩ ∈ tr → j ≠ i → isWrite e = false) (ht : t.drive = g.view i) :
    ∃ t', env.adverse.world.Accepts t (ofParty i tr) t' ∧ t'.drive = g'.view i := by
  refine World.joint_simulates (I := fun (t : Served) (g : SharedDrive ι) => t.drive = g.view i) h ht ?_ ?_
  · intro e r _ t g g' ht hstep
    exact client_step hstep ht
  · intro j e r hmem hne t g g' ht hstep
    obtain ⟨huploads, hdownloads⟩ := client_urls_of_ne hstep hne
    simp only [ht, SharedDrive.view, client_items hstep (hothers j e r hmem hne), huploads, hdownloads]

/-- After its last request a client is done with the drive. -/
theorem accepts_after (h : (env.clients ι).Accepts g tr g')
    (hlate : ∀ entry ∈ ofParty i tr, isRequest entry.1 = false) :
    ∃ t', env.adverse.world.Accepts t (ofParty i tr) t' ∧ t'.drive = t.drive := by
  refine World.joint_simulates (I := fun (u : Served) _ => u.drive = t.drive) h rfl ?_ ?_
  · intro e r hmem u g g' hu hstep
    obtain ⟨u', hstep', hsame⟩ := world_step_of_not_request hstep (hlate _ (mem_ofParty_iff.2 hmem))
    exact ⟨u', hstep', hsame.trans hu⟩
  · intro j e r _ _ u g g' hu _
    exact hu

theorem accepts_items (h : (env.clients ι).Accepts g tr g') (hquiet : ∀ x ∈ tr, isWrite x.1.2 = false) :
    g'.items = g.items := by
  refine h.keeps (I := fun u => u.items = g.items) rfl fun x r u v hmem hstep hu => ?_
  rw [client_items hstep (hquiet _ hmem), hu]

theorem accepts_small (h : (env.clients ι).Accepts g tr g') (hsmall : g.Small) : g'.Small :=
  h.keeps hsmall fun _ _ _ _ _ hstep hu => client_small hstep hu

/-- A client that has the drive to itself from before its first look until after its last request might as well be alone on a drive with the items of that time. -/
theorem accepts_between {before during later : List (JointEntry ι Event Event.Answer)} {g₁ g₂ : SharedDrive ι}
    (hbefore : (env.clients ι).Accepts g before g₁) (hduring : (env.clients ι).Accepts g₁ during g₂)
    (hlater : (env.clients ι).Accepts g₂ later g')
    (hplain : ∀ entry ∈ ofParty i before, isWrite entry.1 = false ∧ isLook entry.1 = false)
    (hothers : ∀ j e r, ⟨(j, e), r⟩ ∈ during → j ≠ i → isWrite e = false)
    (hlate : ∀ entry ∈ ofParty i later, isRequest entry.1 = false) :
    ∃ t, env.adverse.world.Accepts ⟨{ g.view i with items := g₁.items }, [], []⟩
        (ofParty i (before ++ during ++ later)) t ∧ t.drive.items = g₂.items := by
  have hstart : (Served.mk { g.view i with items := g₁.items } [] []).drive = { g.view i with items := g₁.items } := rfl
  obtain ⟨t₁, hacc₁, ht₁⟩ := accepts_before hbefore hplain hstart
  obtain ⟨t₂, hacc₂, ht₂⟩ := accepts_during hduring hothers ht₁
  obtain ⟨t₃, hacc₃, ht₃⟩ := accepts_after hlater hlate
  refine ⟨t₃, ?_, by rw [ht₃, ht₂]; rfl⟩
  rw [ofParty_append, ofParty_append]
  exact World.accepts_append_iff.2 ⟨t₂, World.accepts_append_iff.2 ⟨t₁, hacc₁, hacc₂⟩, hacc₃⟩

/-- Such a client does there what it is for. -/
theorem effect_between {op : KeyOp} {p p' : Process OneDriveConnect}
    {before during later : List (JointEntry ι Event Event.Answer)} {g₁ g₂ : SharedDrive ι} (hsmall : g.Small)
    (hrun : Run (op.call p) (ofParty i (before ++ during ++ later)) (0, p'))
    (hrefused : ¬ Refused (exchanges (ofParty i (before ++ during ++ later))))
    (hbefore : (env.clients ι).Accepts g before g₁) (hduring : (env.clients ι).Accepts g₁ during g₂)
    (hlater : (env.clients ι).Accepts g₂ later g')
    (hplain : ∀ entry ∈ ofParty i before, isWrite entry.1 = false ∧ isLook entry.1 = false)
    (hothers : ∀ j e r, ⟨(j, e), r⟩ ∈ during → j ≠ i → isWrite e = false)
    (hlate : ∀ entry ∈ ofParty i later, isRequest entry.1 = false) :
    g₂.items = op.onItems g₁.items ∧ op.Takes := by
  obtain ⟨t, hacc, ht⟩ := accepts_between hbefore hduring hlater hplain hothers hlate
  have hsmall₁ : (Served.mk { g.view i with items := g₁.items } [] []).drive.Small := accepts_small hbefore hsmall
  have hitems := items_of_run hsmall₁ hrun hacc hrefused
  rw [ht] at hitems
  exact hitems

/-! ### Where a client changes the item -/

/-- Between a look of the client and a later request of it no other client makes a request that may change an item. -/
def Undisturbed (i : ι) (tr : List (JointEntry ι Event Event.Answer)) : Prop :=
  ∀ before x between y later, tr = before ++ x :: between ++ y :: later →
    x.1.1 = i → isLook x.1.2 = true → y.1.1 = i → isRequest y.1.2 = true →
    ∀ z ∈ between, z.1.1 ≠ i → isWrite z.1.2 = false

private theorem exists_first {α : Type} {P : α → Bool} {l : List α} (h : ∃ x ∈ l, P x = true) :
    ∃ a x b, l = a ++ x :: b ∧ P x = true ∧ ∀ y ∈ a, P y = false := by
  obtain ⟨x, hfind⟩ := Option.isSome_iff_exists.1 (List.find?_isSome.2 h)
  obtain ⟨hx, a, b, hl, hfirst⟩ := List.find?_eq_some_iff_append.1 hfind
  exact ⟨a, x, b, hl, hx, fun y hy => by simpa using hfirst y hy⟩

private theorem exists_last {α : Type} {P : α → Bool} {l : List α} (h : ∃ x ∈ l, P x = true) :
    ∃ a x b, l = a ++ x :: b ∧ P x = true ∧ ∀ y ∈ b, P y = false := by
  obtain ⟨a, x, b, hl, hx, hfirst⟩ := exists_first (l := l.reverse) (by simpa using h)
  refine ⟨b.reverse, x, a.reverse, ?_, hx, fun y hy => hfirst y (List.mem_reverse.1 hy)⟩
  rw [← List.reverse_reverse l, hl]
  simp

/-- The part of a run from a look of an undisturbed client to its last request, and the rest of the run. -/
theorem Undisturbed.until_last {start between : List (JointEntry ι Event Event.Answer)} {x : JointEntry ι Event Event.Answer}
    (h : Undisturbed i (start ++ x :: between)) (hx : x.1.1 = i) (hlook : isLook x.1.2 = true) :
    ∃ during later, x :: between = during ++ later ∧ (∀ z ∈ during, z.1.1 ≠ i → isWrite z.1.2 = false)
      ∧ ∀ entry ∈ ofParty i later, isRequest entry.1 = false := by
  have hrequest : isRequest x.1.2 = true := isRequest_of_look hlook
  obtain ⟨during, y, later, hsplit, hy, hlate⟩ :=
    exists_last (P := fun z : JointEntry ι Event Event.Answer => decide (z.1.1 = i) && isRequest z.1.2)
      ⟨x, List.mem_cons_self, by simp [hx, hrequest]⟩
  simp only [Bool.and_eq_true, decide_eq_true_eq] at hy
  refine ⟨during ++ [y], later, by rw [hsplit]; simp, fun z hz hne => ?_, fun entry hentry => ?_⟩
  · rcases List.mem_append.1 hz with hmem | hmem
    · rcases during with _ | ⟨x', during⟩
      · cases hmem
      obtain ⟨rfl, rfl⟩ := List.cons_eq_cons.1 hsplit
      rcases List.mem_cons.1 hmem with rfl | hmem
      · exact absurd hx hne
      · exact h start x during y later (by simp) hx hlook hy.1 hy.2 z hmem hne
    · rw [List.mem_singleton.1 hmem] at hne
      exact absurd hy.1 hne
  · simpa using hlate _ (mem_ofParty_iff.1 hentry)

section
variable {op : KeyOp} {p p' : Process OneDriveConnect}

/-- Only a put looks at the item. -/
theorem exists_put {x : JointEntry ι Event Event.Answer} (hrun : Run (op.call p) (ofParty i tr) (0, p'))
    (hmem : x ∈ tr) (hx : x.1.1 = i) (hlook : isLook x.1.2 = true) : ∃ key value, op = .put key value := by
  obtain ⟨⟨j, e⟩, r⟩ := x
  obtain rfl : j = i := hx
  by_contra hnone
  have hblind := looks_at_nothing (fun key value heq => hnone ⟨key, value, heq⟩) hrun _ (mem_ofParty_iff.2 hmem)
  rw [hlook] at hblind
  cases hblind

/-- Before and after the request of a client that may change the item. -/
theorem writes_around {before later : List (JointEntry ι Event Event.Answer)}
    (hrun : Run (op.call p) (ofParty i (before ++ ⟨(i, e), r⟩ :: later)) (0, p')) (hrequest : isRequest e = true) :
    (∀ entry ∈ ofParty i before, isWrite entry.1 = false)
      ∧ (isWrite e = true → ∀ entry ∈ ofParty i later, isRequest entry.1 = false) := by
  have hlast := writes_last hrun
  rw [ofParty_append, ofParty_cons_self, List.pairwise_append, List.pairwise_cons] at hlast
  obtain ⟨-, ⟨hafter, -⟩, hacross⟩ := hlast
  refine ⟨fun entry hentry => ?_, fun hwrite entry hentry => hafter entry hentry hwrite⟩
  by_contra hwrite
  have hnone := hacross entry hentry _ List.mem_cons_self (by simpa using hwrite)
  rw [hrequest] at hnone
  cases hnone

/-- The first entry that belongs to a client and is a look, if there is one. -/
theorem first_look (i : ι) (before : List (JointEntry ι Event Event.Answer)) :
    (∀ entry ∈ ofParty i before, isLook entry.1 = false)
      ∨ ∃ start x between, before = start ++ x :: between ∧ x.1.1 = i ∧ isLook x.1.2 = true
          ∧ ∀ entry ∈ ofParty i start, isLook entry.1 = false := by
  by_cases hlook : ∃ x ∈ before, (decide (x.1.1 = i) && isLook x.1.2) = true
  · obtain ⟨start, x, between, hsplit, hx, hfirst⟩ := exists_first hlook
    simp only [Bool.and_eq_true, decide_eq_true_eq] at hx
    refine .inr ⟨start, x, between, hsplit, hx.1, hx.2, fun entry hentry => ?_⟩
    simpa using hfirst _ (mem_ofParty_iff.1 hentry)
  · refine .inl fun entry hentry => ?_
    by_contra hone
    exact hlook ⟨_, mem_ofParty_iff.1 hentry, by simpa using hone⟩

/-- The request by which a client changes the item makes of it what the call is for. -/
theorem effect_of_write {before later : List (JointEntry ι Event Event.Answer)} {g₁ g₂ : SharedDrive ι}
    (hwrite : isWrite e = true) (hsmall : g.Small)
    (hrun : Run (op.call p) (ofParty i (before ++ ⟨(i, e), r⟩ :: later)) (0, p'))
    (hrefused : ¬ Refused (exchanges (ofParty i (before ++ ⟨(i, e), r⟩ :: later))))
    (hput : ∀ key value, op = .put key value → Undisturbed i (before ++ ⟨(i, e), r⟩ :: later))
    (hbefore : (env.clients ι).Accepts g before g₁) (hstep : (env.adverse.client i).step g₁ e r g₂)
    (hlater : (env.clients ι).Accepts g₂ later g') :
    g₂.items = op.onItems g₁.items ∧ op.Takes := by
  obtain ⟨hearly, hlate⟩ := writes_around hrun (isRequest_of_write hwrite)
  have hone : (env.clients ι).Accepts g₁ [⟨(i, e), r⟩] g₂ := .cons hstep (.nil g₂)
  rcases first_look i before with hblind | ⟨start, x, between, rfl, hx, hlook, hblind⟩
  · have hsplit : before ++ ⟨(i, e), r⟩ :: later = before ++ [⟨(i, e), r⟩] ++ later := by simp
    rw [hsplit] at hrun hrefused
    apply effect_between hsmall hrun hrefused hbefore hone hlater
    · exact fun entry hentry => ⟨hearly entry hentry, hblind entry hentry⟩
    · intro j e' r' hmem hne
      cases List.mem_singleton.1 hmem
      exact absurd rfl hne
    · exact hlate hwrite
  · obtain ⟨key, value, hop⟩ := exists_put hrun (by simp) hx hlook
    have hothers : ∀ z ∈ x :: between, z.1.1 ≠ i → isWrite z.1.2 = false := by
      intro z hz hne
      rcases List.mem_cons.1 hz with rfl | hmem
      · exact absurd hx hne
      · exact hput key value hop start x between _ later rfl hx hlook rfl (isRequest_of_write hwrite) z hmem hne
    have hquiet : ∀ z ∈ x :: between, isWrite z.1.2 = false := by
      intro z hz
      by_cases hown : z.1.1 = i
      · obtain ⟨⟨j, e'⟩, r'⟩ := z
        obtain rfl : j = i := hown
        exact hearly ⟨e', r'⟩ (mem_ofParty_iff.2 (List.mem_append_right start hz))
      · exact hothers z hz hown
    obtain ⟨g₀, hstart, hbetween⟩ := World.accepts_append_iff.1 hbefore
    have hsplit : start ++ x :: between ++ ⟨(i, e), r⟩ :: later
        = start ++ (x :: between ++ [⟨(i, e), r⟩]) ++ later := by simp
    rw [hsplit] at hrun hrefused
    have heffect := effect_between hsmall hrun hrefused hstart
      (World.accepts_append_iff.2 ⟨g₁, hbetween, hone⟩) hlater ?_ ?_ (hlate hwrite)
    · rw [accepts_items hbetween hquiet]
      exact heffect
    · intro entry hentry
      refine ⟨hearly entry ?_, hblind entry hentry⟩
      rw [ofParty_append]
      exact List.mem_append_left _ hentry
    · intro j e' r' hmem hne
      rcases List.mem_append.1 hmem with hmem | hmem
      · exact hothers _ hmem hne
      · cases List.mem_singleton.1 hmem
        exact absurd rfl hne

theorem put_changes (item : Option Bytes) (key value : Bytes) : (KeyOp.put key value).replace item ≠ item := by
  intro hsame
  have hlength := congrArg (fun item : Option Bytes => (item.getD []).length) hsame
  simp [KeyOp.replace, record, htonl] at hlength

/-- A call that returns 0 has made a request that may change the item. -/
theorem exists_write (hsmall : g.Small) (hrun : Run (op.call p) (ofParty i tr) (0, p'))
    (hrefused : ¬ Refused (exchanges (ofParty i tr))) (hput : ∀ key value, op = .put key value → Undisturbed i tr)
    (haccepts : (env.clients ι).Accepts g tr g') : ∃ entry ∈ ofParty i tr, isWrite entry.1 = true := by
  by_contra hnone
  have hquiet : ∀ entry ∈ ofParty i tr, isWrite entry.1 = false := by
    intro entry hentry
    by_contra hwrite
    exact hnone ⟨entry, hentry, by simpa using hwrite⟩
  rcases first_look i tr with hblind | ⟨start, x, between, rfl, hx, hlook, hblind⟩
  · -- it would do the same where the item is not as the call leaves it
    have hother : ∃ item : Option Bytes, op.replace item ≠ item ∧ (∀ content, item = some content → content.length < 2 ^ 31) := by
      cases op with
      | put key value => exact ⟨none, put_changes none key value, by simp⟩
      | set key value => exact ⟨none, by simp [KeyOp.replace], by simp⟩
      | delete key => exact ⟨some [], by simp [KeyOp.replace], by simp⟩
    obtain ⟨item, hchanges, hlength⟩ := hother
    have hstart : (Served.mk { g.view i with items := fun _ => item } [] []).drive
        = { g.view i with items := fun _ => item } := rfl
    obtain ⟨t, hacc, ht⟩ := accepts_before haccepts (fun entry hentry => ⟨hquiet entry hentry, hblind entry hentry⟩) hstart
    have hsmall' : (Served.mk { g.view i with items := fun _ => item } [] []).drive.Small :=
      fun _ content hcontent => hlength content hcontent
    have hitems := (items_of_run hsmall' hrun hacc hrefused).1
    rw [ht] at hitems
    have hsame := congrFun hitems (keyPath op.key)
    rw [KeyOp.onItems, Function.update_self] at hsame
    exact hchanges hsame.symm
  · obtain ⟨key, value, rfl⟩ := exists_put hrun (by simp) hx hlook
    -- nobody changes the item up to the last request, and the client does not do it either
    obtain ⟨during, later, hsplit, hothers, hlate⟩ := (hput key value rfl).until_last hx hlook
    have htr : start ++ x :: between = start ++ during ++ later := by rw [hsplit, List.append_assoc]
    have hkept : ∀ z ∈ during, isWrite z.1.2 = false := by
      intro z hz
      by_cases hown : z.1.1 = i
      · obtain ⟨⟨j, e⟩, r⟩ := z
        obtain rfl : j = i := hown
        refine hquiet ⟨e, r⟩ (mem_ofParty_iff.2 ?_)
        rw [htr]
        exact List.mem_append_left _ (List.mem_append_right _ hz)
      · exact hothers z hz hown
    rw [htr] at haccepts hrun hrefused
    obtain ⟨g₂, hmost, hlater⟩ := World.accepts_append_iff.1 haccepts
    obtain ⟨g₁, hstart, hduring⟩ := World.accepts_append_iff.1 hmost
    have heffect := effect_between hsmall hrun hrefused hstart hduring hlater ?_ ?_ ?_
    · rw [accepts_items hduring hkept] at heffect
      have hsame := congrFun heffect.1 (keyPath key)
      rw [KeyOp.onItems, KeyOp.key, Function.update_self] at hsame
      exact put_changes _ key value hsame.symm
    · intro entry hentry
      refine ⟨hquiet entry ?_, hblind entry hentry⟩
      rw [ofParty_append]
      exact List.mem_append_left _ hentry
    · exact fun j e r hmem hne => hothers _ hmem hne
    · exact hlate

end

/-! ### All clients together -/

/-- The client whose request may change an item. -/
def writer (entry : JointEntry ι Event Event.Answer) : Option ι :=
  if isWrite entry.1.2 then some entry.1.1 else none

/-- The drive without the URLs that it has handed out. -/
def SharedDrive.drive (g : SharedDrive ι) : Drive := ⟨g.items, fun _ => none, fun _ => none⟩

theorem Represents.of_items {space : KeySpace} {d d' : Drive} {st : ValueStore} (h : Represents space d st)
    (hitems : d'.items = d.items) : Represents space d' st where
  small path content hitem := h.small path content (hitems ▸ hitem)
  content key hkey := by
    rw [Drive.content, hitems]
    exact h.content key hkey
  storable := h.storable

/-- One operation keeps a drive in step with the store, whoever carries it out. -/
theorem Represents.onItems {space : KeySpace} {d d' : Drive} {st : ValueStore} {op : KeyOp}
    (h : Represents space d st) (hkey : op.key ∈ space.keys) (hitems : d'.items = op.onItems d.items)
    (htakes : op.Takes) (hsmall : d'.Small) : Represents space d' (op.apply st) := by
  apply h.update hkey hitems ?_ ?_ hsmall
  · cases op with
    | put key value =>
        rw [KeyOp.replace, Option.getD_some, KeyOp.values, encodeValues_append]
        exact congrArg (· ++ record value) (h.content key hkey)
    | set key value => rw [KeyOp.replace, Option.getD_some, KeyOp.values, encodeValues_singleton]
    | delete key => rfl
  · cases op with
    | put key value =>
        intro v hv
        rcases List.mem_append.1 hv with hv | hv
        · exact h.storable key hkey v hv
        · rw [List.mem_singleton.1 hv]
          exact htakes
    | set key value =>
        intro v hv
        rw [List.mem_singleton.1 hv]
        exact htakes
    | delete key => exact fun v hv => by cases hv

end

section
variable {ι : Type} [DecidableEq ι] {env : Env} {ops : ι → KeyOp} {g g₁ g' : SharedDrive ι}
  {tr before later : List (JointEntry ι Event Event.Answer)}

/-- A client that has changed an item with a call that has come back with 0. -/
structure Changed (tr : List (JointEntry ι Event Event.Answer)) (i : ι) (op : KeyOp) : Prop where
  run : ∃ p p', Run (op.call p) (ofParty i tr) (0, p')
  accepted : ¬ Refused (exchanges (ofParty i tr))
  undisturbed : ∀ key value, op = .put key value → Undisturbed i tr

/-- A client changes an item once. -/
theorem nodup_writers (hchanged : ∀ i ∈ tr.filterMap writer, Changed tr i (ops i)) : (tr.filterMap writer).Nodup := by
  have hchanged' : ∀ x ∈ tr, ∀ i ∈ writer x, Changed tr i (ops i) :=
    fun x hx i hi => hchanged i (List.mem_filterMap.2 ⟨x, hx, hi⟩)
  rw [List.Nodup, List.pairwise_filterMap, List.pairwise_iff_forall_sublist]
  intro x y hpair i hx j hy heq
  subst heq
  obtain ⟨⟨k, e⟩, r⟩ := x
  obtain ⟨⟨k', e'⟩, r'⟩ := y
  have hmem : ⟨(k, e), r⟩ ∈ tr := hpair.subset List.mem_cons_self
  obtain ⟨p, p', hrun⟩ := (hchanged' _ hmem i hx).run
  obtain ⟨hwrite, rfl⟩ : isWrite e = true ∧ k = i := by
    simpa [writer] using hx
  obtain ⟨hwrite', rfl⟩ : isWrite e' = true ∧ k' = k := by
    simpa [writer] using hy
  have hown : [⟨e, r⟩, ⟨e', r'⟩].Sublist (ofParty k' tr) := by
    have hparts := ofParty_sublist k' hpair
    rwa [ofParty_cons_self, ofParty_cons_self] at hparts
  have hlast := List.pairwise_iff_forall_sublist.1 (writes_last hrun) hown hwrite
  rw [isRequest_of_write hwrite'] at hlast
  cases hlast

/-- What has become of the items at any time is what the operations make of them whose requests have been served, in their order; and so for the store. -/
theorem states_of_prefix (hsmall : g.Small) (hchanged : ∀ i ∈ tr.filterMap writer, Changed tr i (ops i))
    (htr : tr = before ++ later) (hbefore : (env.clients ι).Accepts g before g₁)
    (hlater : (env.clients ι).Accepts g₁ later g') :
    g₁.items = ((before.filterMap writer).map ops).foldl (fun items op => op.onItems items) g.items
    ∧ ∀ space st, (∀ i ∈ before.filterMap writer, (ops i).key ∈ space.keys) → Represents space g.drive st →
      Represents space g₁.drive (((before.filterMap writer).map ops).foldl KeyOp.apply st) := by
  have hquiet : ∀ entry : JointEntry ι Event Event.Answer, writer entry = none → isWrite entry.1.2 = false := by
    intro entry hentry
    by_contra hwrite
    simp [writer, hwrite] at hentry
  -- what the request of a client makes of the items
  have heffect : ∀ start (entry : JointEntry ι Event Event.Answer) rest i g₂ g₃,
      before = start ++ entry :: rest → writer entry = some i →
      (env.clients ι).Accepts g start g₂ → (env.clients ι).step g₂ entry.1 entry.2 g₃ →
      (env.clients ι).Accepts g₃ rest g₁ → g₃.items = (ops i).onItems g₂.items ∧ (ops i).Takes ∧ g₃.Small := by
    intro start entry rest i g₂ g₃ hsplit hentry hstart hstep hrest
    have hmem : i ∈ tr.filterMap writer := by
      rw [htr, hsplit]
      exact List.mem_filterMap.2 ⟨entry, by simp, hentry⟩
    obtain ⟨⟨p, p', hrun⟩, hrefused, hundisturbed⟩ := hchanged i hmem
    obtain ⟨⟨j, e⟩, r⟩ := entry
    obtain ⟨hwrite, rfl⟩ : isWrite e = true ∧ j = i := by
      simpa [writer] using hentry
    have hall : tr = start ++ ⟨(j, e), r⟩ :: (rest ++ later) := by
      rw [htr, hsplit]
      simp
    rw [hall] at hrun hrefused hundisturbed
    obtain ⟨hitems, htakes⟩ := effect_of_write hwrite hsmall hrun hrefused hundisturbed hstart hstep
      (World.accepts_append_iff.2 ⟨g₁, hrest, hlater⟩)
    exact ⟨hitems, htakes, client_small hstep (accepts_small hstart hsmall)⟩
  constructor
  · rw [List.foldl_map]
    refine hbefore.follows (I := fun g items => g.items = items) rfl ?_ ?_
    · intro entry hentry g g' items hstep hrel
      exact (client_items hstep (hquiet entry hentry)).trans hrel
    · intro start entry rest i g₂ g₃ items hsplit hentry hstart hstep hrest hrel
      rw [← hrel]
      exact (heffect start entry rest i g₂ g₃ hsplit hentry hstart hstep hrest).1
  · intro space st hkeys hst
    rw [List.foldl_map]
    refine hbefore.follows (I := fun g st => Represents space g.drive st) hst ?_ ?_
    · intro entry hentry g g' st hstep hrel
      exact hrel.of_items (client_items hstep (hquiet entry hentry))
    · intro start entry rest i g₂ g₃ st hsplit hentry hstart hstep hrest hrel
      obtain ⟨hitems, htakes, hsmall₃⟩ := heffect start entry rest i g₂ g₃ hsplit hentry hstart hstep hrest
      refine hrel.onItems (hkeys i ?_) hitems htakes hsmall₃
      rw [hsplit]
      exact List.mem_filterMap.2 ⟨entry, by simp, hentry⟩

end

/-- Calls of any number of clients that have all come back with 0, in any interleaving of their requests. If no other client changes an item between a put's first look and its last request, the items are those of the calls one after another. -/
theorem writers_serialise (env : Env) {ι : Type} [DecidableEq ι] {ops : ι → KeyOp}
    {connects : ι → Process OneDriveConnect} {g g' : SharedDrive ι} {tr : List (JointEntry ι Event Event.Answer)}
    (hsmall : g.Small) (haccepts : (env.clients ι).Accepts g tr g')
    (hruns : ∀ i, ∃ p', Run ((ops i).call (connects i)) (ofParty i tr) (0, p'))
    (hrefused : ∀ i, ¬ Refused (exchanges (ofParty i tr)))
    (hundisturbed : ∀ i key value, ops i = .put key value → Undisturbed i tr) :
    ∃ order : List ι, order.Nodup ∧ (∀ i, i ∈ order)
      ∧ g'.items = (order.map ops).foldl (fun items op => op.onItems items) g.items
      ∧ ∀ space st, (∀ i, (ops i).key ∈ space.keys) → Represents space g.drive st →
        Represents space g'.drive ((order.map ops).foldl KeyOp.apply st) := by
  have hchanged : ∀ i ∈ tr.filterMap writer, Changed tr i (ops i) :=
    fun i _ => ⟨⟨connects i, hruns i⟩, hrefused i, hundisturbed i⟩
  have hstates := states_of_prefix hsmall hchanged (List.append_nil tr).symm haccepts (.nil g')
  refine ⟨tr.filterMap writer, nodup_writers hchanged, fun i => ?_, hstates.1,
    fun space st hkeys hst => hstates.2 space st (fun i _ => hkeys i) hst⟩
  obtain ⟨p', hrun⟩ := hruns i
  obtain ⟨entry, hentry, hwrite⟩ := exists_write hsmall hrun (hrefused i) (hundisturbed i) haccepts
  rw [List.mem_filterMap]
  exact ⟨_, mem_ofParty_iff.1 hentry, by simp [writer, hwrite]⟩

/-! ### Two clients on one key -/

/-- Only the other client's last call may change an item. -/
theorem undisturbed_of_last {ι : Type} {i : ι} {tr : List (JointEntry ι Event Event.Answer)}
    (h : ∀ z ∈ tr.dropLast, z.1.1 ≠ i → isWrite z.1.2 = false) : Undisturbed i tr := by
  intro before x between y later htr _ _ _ _ z hz
  apply h z
  rw [htr, List.dropLast_append_of_ne_nil (List.cons_ne_nil y later)]
  exact List.mem_append_left _ (List.mem_append_right _ (List.mem_cons_of_mem _ hz))

/-- What the drive does for a client that it does for it alone. -/
theorem accepts_alone (env : Env) {ι : Type} [DecidableEq ι] (i : ι) {s t : Served} {tr : Trace}
    {g : SharedDrive ι} (hs : s.drive = g.view i) (h : env.adverse.world.Accepts s tr t) :
    ∃ g', (env.clients ι).Accepts g (asParty i tr) g' ∧ g'.view i = t.drive := by
  induction h generalizing g with
  | nil s => exact ⟨g, .nil g, hs.symm⟩
  | @cons s u t e r tr hstep hrest ih =>
      have hfirst : ∃ g₁, (env.adverse.client i).step g e r g₁ ∧ u.drive = g₁.view i := by
        cases e with
        | perform req =>
            have hexchange := Env.step_perform.1 hstep
            refine ⟨g.serve i u.drive, ⟨u.drive, ?_, ?_, rfl⟩, by simp⟩
            · rw [← hs]
              exact hexchange.serves
            · rw [← hs]
              exact hexchange.small
        | valuesCallback key value =>
            rw [Env.step_valuesCallback.1 hstep]
            exact ⟨g, ⟨trivial, rfl⟩, hs⟩
        | undefined | diverge => exact r.elim
        | _ =>
            obtain ⟨hr, rfl⟩ := (Env.step_local rfl).1 hstep
            exact ⟨g, ⟨hr, rfl⟩, hs⟩
      obtain ⟨g₁, hstep₁, hu⟩ := hfirst
      obtain ⟨g', hacc, hg'⟩ := ih hu
      exact ⟨g', .cons hstep₁ hacc, hg'⟩

/-- The drive on which the key `k` has these items, without a URL for anybody. -/
def demoShared (items : Option Bytes) : SharedDrive Bool := ⟨(demoServed items).drive.items, fun _ _ => none, fun _ _ => none⟩

/-- The look of a put that finds nothing. -/
theorem firstPut_looks (env : Env) {g : SharedDrive Bool} (hclock : env.clock demoTime) (i : Bool)
    (hitem : g.items (keyPath demoKey) = none) :
    ∃ g', (env.clients Bool).Accepts g (asParty i (firstPut.take 3)) g' ∧ g'.items = g.items := by
  have halone : env.adverse.world.Accepts ⟨g.view i, [], []⟩ (firstPut.take 3)
      (Env.after ⟨g.view i, [], []⟩ demoInfo (demoReply 404 []) (g.view i)) :=
    Env.accepts_local rfl hclock <| Env.accepts_local rfl (fun h => h.elim) <|
    Env.accepts_perform ⟨fun _ => hitem, fun h => absurd h (by decide), fun _ => rfl⟩ (fun h => h) <| .nil _
  obtain ⟨g', hacc, hview⟩ := accepts_alone env i rfl halone
  exact ⟨g', hacc, congrArg Drive.items hview⟩

/-- The upload of such a put, whatever has happened since. -/
theorem firstPut_stores (env : Env) (hclock : env.clock demoTime) (g : SharedDrive Bool) (i : Bool) :
    ∃ g', (env.clients Bool).Accepts g (asParty i (firstPut.drop 3)) g'
      ∧ g'.items = Function.update g.items (keyPath demoKey) (some (record [7])) := by
  have halone : env.adverse.world.Accepts ⟨g.view i, [], []⟩ (firstPut.drop 3)
      (Env.after ⟨g.view i, [], []⟩ (demoPut (bytes "A") (record [7])) (demoReply 201 [])
        ((g.view i).put (keyPath demoKey) (record [7]))) :=
    Env.accepts_local rfl (fun h => h.elim) <| Env.accepts_local rfl hclock <| Env.accepts_local rfl (fun h => h.elim) <|
    Env.accepts_perform rfl (fun h => h.put (by decide)) <| .nil _
  obtain ⟨g', hacc, hview⟩ := accepts_alone env i rfl halone
  exact ⟨g', hacc, congrArg Drive.items hview⟩

theorem firstDelete_run : Run ((KeyOp.delete demoKey).call demoProcess) firstDelete (0, demoProcess) := by
  iterate 3 refine .ask _ _ _ ?_
  exact .refl _

/-- One client looks at its clock, the other one puts a value, and the first one deletes the key. -/
def putThenDelete : List (JointEntry Bool Event Event.Answer) :=
  asParty true (firstDelete.take 1) ++ asParty false firstPut ++ asParty true (firstDelete.drop 1)

def putAndDelete (i : Bool) : KeyOp := if i then .delete demoKey else .put demoKey [7]

theorem writers_serialise_demo : ∃ g', (demoEnv.clients Bool).Accepts (demoShared none) putThenDelete g'
    ∧ ∃ order : List Bool, order.Nodup ∧ (∀ i, i ∈ order)
      ∧ g'.items = (order.map putAndDelete).foldl (fun items op => op.onItems items) (demoShared none).items := by
  have hclock : demoEnv.adverse.world.Accepts ⟨(demoShared none).view true, [], []⟩ (firstDelete.take 1)
      ⟨(demoShared none).view true, [], []⟩ := Env.accepts_local rfl rfl <| .nil _
  obtain ⟨g₁, hacc₁, hview₁⟩ := accepts_alone demoEnv true rfl hclock
  obtain ⟨g₂, hacc₂, hitems₂⟩ := firstPut_looks demoEnv (g := g₁) rfl false (congrFun (congrArg Drive.items hview₁) _)
  obtain ⟨g₃, hacc₃, -⟩ := firstPut_stores demoEnv rfl g₂ false
  have hdelete : demoEnv.adverse.world.Accepts ⟨g₃.view true, [], []⟩ (firstDelete.drop 1)
      (Env.after ⟨g₃.view true, [], []⟩ demoDelete (demoReply 204 []) ((g₃.view true).remove (keyPath demoKey))) :=
    Env.accepts_local rfl (fun h => h.elim) <|
    Env.accepts_perform ⟨fun h => absurd h (by decide), fun _ => rfl, .inr rfl⟩ (fun h => h.remove) <| .nil _
  obtain ⟨g₄, hacc₄, -⟩ := accepts_alone demoEnv true rfl hdelete
  have hput : (demoEnv.clients Bool).Accepts g₁ (asParty false firstPut) g₃ :=
    World.accepts_append_iff.2 ⟨g₂, hacc₂, hacc₃⟩
  have haccepts : (demoEnv.clients Bool).Accepts (demoShared none) putThenDelete g₄ :=
    World.accepts_append_iff.2 ⟨g₃, World.accepts_append_iff.2 ⟨g₁, hacc₁, hput⟩, hacc₄⟩
  have hfalse : ofParty false putThenDelete = firstPut := by
    simp only [putThenDelete, ofParty_append, ofParty_asParty_self, ofParty_asParty_of_ne (show true ≠ false by simp),
      List.nil_append, List.append_nil]
  have htrue : ofParty true putThenDelete = firstDelete := by
    simp only [putThenDelete, ofParty_append, ofParty_asParty_self, ofParty_asParty_of_ne (show false ≠ true by simp),
      List.append_nil, List.take_append_drop]
  have hruns : ∀ i, ∃ p', Run ((putAndDelete i).call demoProcess) (ofParty i putThenDelete) (0, p') := by
    intro i
    cases i with
    | false =>
        rw [hfalse]
        exact ⟨_, firstPut_run⟩
    | true =>
        rw [htrue]
        exact ⟨_, firstDelete_run⟩
  have hrefused : ∀ i, ¬ Refused (exchanges (ofParty i putThenDelete)) := by
    intro i hrefused
    obtain ⟨x, hx, htoken, -⟩ := hrefused
    cases i with
    | false =>
        rw [hfalse] at hx
        cases hx
        cases htoken
    | true =>
        rw [htrue] at hx
        cases hx
        cases htoken
  have hundisturbed : ∀ i key value, putAndDelete i = .put key value → Undisturbed i putThenDelete := by
    intro i key value hop
    cases i with
    | true => cases hop
    | false =>
        apply undisturbed_of_last
        decide
  have hsmall : (demoShared none).Small := fun path content hitem => by
    simp [demoShared, demoServed] at hitem
  obtain ⟨order, hnodup, hall, hitems, -⟩ :=
    writers_serialise demoEnv hsmall haccepts hruns hrefused hundisturbed
  exact ⟨g₄, haccepts, order, hnodup, hall, hitems⟩

/-- Two clients look at the key before either of them has stored its value. -/
def putsAtOnce : List (JointEntry Bool Event Event.Answer) :=
  asParty false (firstPut.take 3) ++ asParty true (firstPut.take 3)
    ++ (asParty false (firstPut.drop 3) ++ asParty true (firstPut.drop 3))

/-- Both puts return 0, and one of the values is lost. -/
theorem put_is_not_atomic : ∃ g', (demoEnv.clients Bool).Accepts (demoShared none) putsAtOnce g'
    ∧ (∀ i, Run ((KeyOp.put demoKey [7]).call demoProcess) (ofParty i putsAtOnce) (0, demoProcess))
    ∧ g'.items (keyPath demoKey) = some (record [7])
    ∧ ∀ order : List Bool, order.Nodup → (∀ i, i ∈ order) →
      g'.items ≠ (order.map fun _ => KeyOp.put demoKey [7]).foldl (fun items op => op.onItems items)
        (demoShared none).items := by
  obtain ⟨g₁, hacc₁, hitems₁⟩ := firstPut_looks demoEnv (g := demoShared none) rfl false rfl
  obtain ⟨g₂, hacc₂, -⟩ := firstPut_looks demoEnv rfl true (congrFun hitems₁ _)
  obtain ⟨g₃, hacc₃, -⟩ := firstPut_stores demoEnv rfl g₂ false
  obtain ⟨g₄, hacc₄, hitems₄⟩ := firstPut_stores demoEnv rfl g₃ true
  have hitem : g₄.items (keyPath demoKey) = some (record [7]) := by rw [hitems₄, Function.update_self]
  have hparts : ∀ i, ofParty i putsAtOnce = firstPut := by
    intro i
    cases i with
    | false =>
        simp only [putsAtOnce, ofParty_append, ofParty_asParty_self,
          ofParty_asParty_of_ne (show true ≠ false by simp), List.append_nil, List.take_append_drop]
    | true =>
        simp only [putsAtOnce, ofParty_append, ofParty_asParty_self,
          ofParty_asParty_of_ne (show false ≠ true by simp), List.nil_append, List.take_append_drop]
  refine ⟨g₄, World.accepts_append_iff.2 ⟨g₂, World.accepts_append_iff.2 ⟨g₁, hacc₁, hacc₂⟩,
    World.accepts_append_iff.2 ⟨g₃, hacc₃, hacc₄⟩⟩, fun i => ?_, hitem, fun order hnodup hall hsame => ?_⟩
  · rw [hparts i]
    exact firstPut_run
  · have htwo : order.length = 2 := by
      have hperm : order.Perm [false, true] := (List.perm_ext_iff_of_nodup hnodup (by decide)).2 fun i => by
        simp [hall i]
      exact hperm.length_eq
    obtain ⟨i, j, rfl⟩ := List.length_eq_two.1 htwo
    have hboth := congrFun hsame (keyPath demoKey)
    rw [hitem] at hboth
    simp [KeyOp.onItems, KeyOp.replace, KeyOp.key, record, htonl, demoShared, demoServed] at hboth

end HiveSdk
