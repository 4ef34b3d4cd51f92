import HiveSdk.Drive.Shared

/-!
# Calls that are cut off

A process may die at any point of a call, and a call may fail at any point, also after the drive has done what it was asked to. The store survives both: a call changes an item in one step, so whatever becomes of it, it has either done to the item what it is for or nothing at all. After any number of calls, each of them cut off or not, the drive holds the store that results from some of the operations in their order, and those that have come back with 0 are among them.
-/

namespace HiveSdk

open Interaction OneDrive

/-! ### The drive under calls that change nothing -/

section
variable {env : Env} {s t : Served} {tr : Trace} {e : Event} {r : e.Answer}

theorem drive_of_step (h : env.world.step s e r t) (he : isRequest e = false) : t.drive = s.drive := by
  cases e with
  | perform req => cases he
  | valuesCallback key value => rw [Env.step_valuesCallback.1 h]
  | undefined | diverge => exact r.elim
  | _ => rw [((Env.step_local rfl).1 h).2]

theorem small_of_step (h : env.world.step s e r t) (hsmall : s.drive.Small) : t.drive.Small := by
  cases e with
  | perform req => exact (Env.step_perform.1 h).small hsmall
  | _ =>
      rw [drive_of_step h rfl]
      exact hsmall

theorem items_of_step (h : env.world.step s e r t) (hread : isWrite e = false) : t.drive.items = s.drive.items := by
  cases e with
  | perform req => exact (Env.step_perform.1 h).serves.items_eq (by simpa [isWrite] using hread)
  | _ => rw [drive_of_step h rfl]

theorem items_of_reads (h : env.world.Accepts s tr t) (hreads : ∀ entry ∈ tr, isWrite entry.1 = false) :
    t.drive.items = s.drive.items := by
  refine h.keeps (I := fun u => u.drive.items = s.drive.items) rfl fun e r u v hmem hstep hu => ?_
  rw [items_of_step hstep (hreads _ hmem), hu]

end

/-! ### The change is one step -/

theorem answered_confirmation (method : HttpMethod) : (confirmation method).answered = some (confirmedStatus method) := rfl

/-- The three requests that may change an item. -/
theorem Request.changes {req : Request} (h : req.access.isRead = false) :
    req.method = .put ∧ ((∃ path, req.access = .content path) ∨ ∃ url, req.access = .upload url)
      ∨ req.method = .delete ∧ ∃ path, req.access = .remove path := by
  obtain ⟨method, url, query, headers, body, mime⟩ := req
  cases url with
  | item path suffix =>
      cases method <;> simp only [access] at h <;> split at h
      case put.isTrue hsuffix => exact .inl ⟨rfl, .inl ⟨path, if_pos hsuffix⟩⟩
      case delete.isTrue hsuffix => exact .inr ⟨rfl, path, if_pos hsuffix⟩
      all_goals cases h
  | upload url =>
      cases method with
      | put => exact .inl ⟨rfl, .inr ⟨url, rfl⟩⟩
      | _ => cases h
  | _ => cases method <;> cases h

/-- An upload that has happened may be confirmed. -/
theorem Env.Stores.confirmed {d d' : Drive} {path : Bytes} {req : Request} {reply : Reply} (hput : req.method = .put)
    (h : Env.Stores d path req reply d') : d' = d ∨ Env.Stores d path req (confirmation req.method) d' := by
  have hstored : (confirmation req.method).stored := .inr (by rw [answered_confirmation, hput]; rfl)
  rw [Env.Stores] at h
  rw [Env.Stores, if_pos hstored]
  split at h
  · exact .inr h
  · exact h

/-- A request that changes an item and is not confirmed might as well have been. -/
theorem Env.Serves.confirmed {env : Env} {d d' : Drive} {req : Request} {reply : Reply}
    (h : env.Serves d req reply d') (hwrite : isWrite (.perform req) = true) :
    d' = d ∨ env.Serves d req (confirmation req.method) d' := by
  have hchanges : req.access.isRead = false := by simpa [isWrite] using hwrite
  rw [Env.Serves] at h ⊢
  rcases Request.changes hchanges with ⟨hput, ⟨path, haccess⟩ | ⟨url, haccess⟩⟩ | ⟨hdelete, path, haccess⟩ <;>
    rw [haccess] at h ⊢
  · exact Env.Stores.confirmed hput h
  · dsimp only at h ⊢
    rcases hurl : d.uploads url with _ | path <;> rw [hurl] at h
    · exact .inl h
    · exact Env.Stores.confirmed hput h
  · obtain ⟨-, -, hkept | hremoved⟩ := h
    · exact .inl hkept
    · refine .inr ⟨fun hmissing => ?_, fun _ => hremoved, .inr hremoved⟩
      rw [answered_confirmation, hdelete] at hmissing
      cases hmissing

/-! ### A call that is cut off -/

section
variable {env : Env} {op : KeyOp} {p : Process OneDriveConnect} {s t : Served} {tr : Trace}

/-- What is left of a call when its change is confirmed. -/
theorem returns_of_confirmation {req : Request} {k : Reply → Prog Event Event.Answer (Int × Process OneDriveConnect)}
    (hsteps : Steps (op.call p) tr (.ask (.perform req) k)) (hwrite : isWrite (.perform req) = true) :
    ∃ p', k (confirmation req.method) = .ret (0, p') := by
  have hleft : (Prog.ask (.perform req) k).wp closing (fun x change => Confirms x.1 x.2 change)
      (tr.foldl Change.observe .pending) :=
    Prog.wp_after (closing_operation op) hsteps (World.monitor_accepts _ _ _ tr)
  obtain ⟨hallowed, hnext⟩ := hleft
  rcases hchange : tr.foldl Change.observe .pending with _ | _ | _ <;> rw [hchange] at hallowed hnext
  · have hrest := hnext (confirmation req.method) _ rfl
    rw [Change.observe_of_write hwrite, if_pos rfl] at hrest
    rcases hk : k (confirmation req.method) with ⟨rc, p'⟩ | ⟨e, k'⟩ <;> rw [hk] at hrest
    · exact ⟨p', by rw [show rc = 0 from hrest rfl]⟩
    · exact hrest.1.elim
  · cases hallowed
  · exact hallowed.elim

/-- Whether the first thing was a refused refresh does not depend on how the change is answered. -/
theorem refused_of_confirmed {before later : Trace} {req : Request} {reply reply' : Reply}
    (hwrite : isWrite (.perform req) = true) (h : Refused (exchanges (before ++ [⟨.perform req, reply'⟩]))) :
    Refused (exchanges (before ++ ⟨.perform req, reply⟩ :: later)) := by
  simp only [exchanges, List.filterMap_append] at h ⊢
  by_cases hfirst : exchanges before = []
  · obtain ⟨x, hx, htoken, -⟩ := h
    rw [exchanges] at hfirst
    rw [hfirst] at hx
    obtain rfl := Option.some.inj hx
    simp [isWrite, htoken, Access.isRead] at hwrite
  · rw [exchanges] at hfirst
    rw [refused_append hfirst] at h ⊢
    exact h

/-- Wherever a call is cut off, it has done to the item what it is for or nothing at all. -/
theorem items_of_steps {q : Prog Event Event.Answer (Int × Process OneDriveConnect)} (hsmall : s.drive.Small)
    (hsteps : Steps (op.call p) tr q) (haccepts : env.adverse.world.Accepts s tr t) (hrefused : ¬ Refused (exchanges tr)) :
    t.drive.items = s.drive.items ∨ t.drive.items = op.onItems s.drive.items ∧ op.Takes := by
  by_cases hwrites : ∃ entry ∈ tr, isWrite entry.1 = true
  · obtain ⟨⟨e, reply⟩, hmem, hwrite⟩ := hwrites
    obtain ⟨before, later, rfl⟩ := List.append_of_mem hmem
    obtain ⟨req, rfl⟩ : ∃ req, e = .perform req := by
      cases e with
      | perform req => exact ⟨req, rfl⟩
      | _ => cases hwrite
    -- nothing is changed before that request, and nothing is asked after it
    obtain ⟨-, hpairs, hacross⟩ := List.pairwise_append.1 (writes_last hsteps)
    have hearly : ∀ entry ∈ before, isWrite entry.1 = false := fun entry hentry => by
      by_contra hone
      cases hacross entry hentry _ List.mem_cons_self (by simpa using hone)
    have hlate : ∀ entry ∈ later, isWrite entry.1 = false := fun entry hentry => by
      have hnone := (List.pairwise_cons.1 hpairs).1 entry hentry hwrite
      by_contra hone
      rw [isRequest_of_write (by simpa using hone)] at hnone
      cases hnone
    obtain ⟨s₁, hbefore, hrest⟩ := World.accepts_append_iff.1 haccepts
    obtain ⟨s₂, hstep, hlater⟩ := World.accepts_cons_iff.1 hrest
    have hexchange := Env.step_perform.1 hstep
    rw [items_of_reads hlater hlate]
    rcases hexchange.serves.confirmed hwrite with hkept | hserves
    · exact .inl (by rw [hkept, items_of_reads hbefore hearly])
    -- had the request been confirmed the call would have returned 0
    obtain ⟨m, hstart, hnext⟩ := steps_append_iff.1 hsteps
    cases hnext with
    | ask _ k _ _ =>
        obtain ⟨p', hreturns⟩ := returns_of_confirmation hstart hwrite
        have hrun : Run (op.call p) (before ++ [⟨.perform req, confirmation req.method⟩]) (0, p') :=
          steps_append_iff.2 ⟨_, hstart, .ask _ k _ (hreturns ▸ .refl _)⟩
        have hconfirmed : env.adverse.world.Accepts s (before ++ [⟨.perform req, confirmation req.method⟩])
            (Env.after s₁ req (confirmation req.method) s₂.drive) :=
          World.accepts_append_iff.2 ⟨s₁, hbefore, Env.accepts_perform hserves hexchange.small (.nil _)⟩
        have hitems := items_of_run hsmall hrun hconfirmed fun hstill => hrefused (refused_of_confirmed hwrite hstill)
        exact .inr hitems
  · refine .inl (items_of_reads haccepts fun entry hentry => ?_)
    by_contra hwrite
    exact hwrites ⟨entry, hentry, by simpa using hwrite⟩

end

/-! ### Any number of calls -/

/-- A call that has been begun, and whether it has come back with 0. -/
structure Attempt where
  op : KeyOp
  done : Bool

/-- What is left of a call that has come back with 0. -/
def isDone : Prog Event Event.Answer (Int × Process OneDriveConnect) → Bool
  | .ret (rc, _) => decide (rc = 0)
  | .ask _ _ => false

/-- The calls of processes that come one after another. Each of them gets as far as it gets, with the drive as the one before has left it. -/
inductive Attempts (env : Env) : Served → List Attempt → Served → Prop
  | nil (s : Served) : Attempts env s [] s
  | cons {s t u : Served} {op : KeyOp} {p : Process OneDriveConnect} {tr : Trace}
      {q : Prog Event Event.Answer (Int × Process OneDriveConnect)} {attempts : List Attempt}
      (hsteps : Steps (op.call p) tr q) (haccepts : env.adverse.world.Accepts s tr t)
      (hrefused : ¬ Refused (exchanges tr)) (hrest : Attempts env t attempts u) :
      Attempts env s (⟨op, isDone q⟩ :: attempts) u

/-- The store survives any number of calls that fail or are cut off: the drive holds what some of the operations make of it in their order, and all that have come back with 0 are among them. -/
theorem values_survive_crashes (env : Env) {space : KeySpace} {attempts : List Attempt} {st : ValueStore} {s t : Served}
    (hst : Represents space s.drive st) (hkeys : ∀ attempt ∈ attempts, attempt.op.key ∈ space.keys)
    (h : Attempts env s attempts t) :
    ∃ happened : List Attempt, happened.Sublist attempts ∧ (attempts.filter Attempt.done).Sublist happened
      ∧ Represents space t.drive ((happened.map Attempt.op).foldl KeyOp.apply st) := by
  induction h generalizing st with
  | nil s => exact ⟨[], .slnil, .slnil, hst⟩
  | @cons s t u op p tr q attempts hsteps haccepts hrefused hrest ih =>
      have hkey : op.key ∈ space.keys := hkeys _ List.mem_cons_self
      have hlater : ∀ attempt ∈ attempts, attempt.op.key ∈ space.keys :=
        fun attempt hattempt => hkeys attempt (List.mem_cons_of_mem _ hattempt)
      have hsmall : t.drive.Small := haccepts.keeps hst.small fun _ _ _ _ _ hstep hu => small_of_step hstep hu
      have hhappened : t.drive.items = op.onItems s.drive.items ∧ op.Takes →
          Represents space t.drive (op.apply st) :=
        fun heffect => hst.onItems hkey heffect.1 heffect.2 hsmall
      by_cases hdone : isDone q = true
      · obtain ⟨p', rfl⟩ : ∃ p', q = .ret (0, p') := by
          rcases q with ⟨rc, p'⟩ | ⟨e, k⟩
          · exact ⟨p', by rw [show rc = 0 by simpa [isDone] using hdone]⟩
          · cases hdone
        obtain ⟨happened, hsome, hall, hrep⟩ :=
          ih (hhappened (items_of_run hst.small hsteps haccepts hrefused)) hlater
        refine ⟨⟨op, true⟩ :: happened, hsome.cons_cons _, ?_, hrep⟩
        exact hall.cons_cons _
      · rw [List.filter_cons_of_neg (by simpa using hdone)]
        rcases items_of_steps hst.small hsteps haccepts hrefused with hkept | heffect
        · obtain ⟨happened, hsome, hall, hrep⟩ := ih (hst.of_items hkept) hlater
          exact ⟨happened, hsome.cons _, hall, hrep⟩
        · obtain ⟨happened, hsome, hall, hrep⟩ := ih (hhappened heffect) hlater
          exact ⟨⟨op, isDone q⟩ :: happened, hsome.cons_cons _, hall.cons _, hrep⟩

/-- The value is stored, and the answer says that the token has expired. -/
def deniedPut : Trace :=
  firstPut.dropLast ++ [⟨.perform (demoPut (bytes "A") (record [7])), demoReply 401 []⟩]

/-- A put fails although the value has been stored, and the next process deletes the key. -/
def deniedThenDelete : List Attempt := [⟨.put demoKey [7], false⟩, ⟨.delete demoKey, true⟩]

theorem values_survive_crashes_demo : ∃ t, Attempts demoEnv (demoServed none) deniedThenDelete t
    ∧ ∃ happened : List Attempt, happened.Sublist deniedThenDelete ∧ [⟨.delete demoKey, true⟩].Sublist happened
      ∧ Represents demoSpace t.drive ((happened.map Attempt.op).foldl KeyOp.apply fun _ => []) := by
  have hfailed : Run ((KeyOp.put demoKey [7]).call demoProcess) deniedPut
      (-1, ⟨cInt (hiveGeneralError HiveErr.tryAgain), 0, expiredProcess.conn⟩) := by
    iterate 7 refine .ask _ _ _ ?_
    exact .refl _
  have hstored : ∃ t, demoEnv.adverse.world.Accepts (demoServed none) deniedPut t :=
    ⟨_, Env.accepts_local rfl rfl <| Env.accepts_local rfl (fun h => h.elim) <|
      Env.accepts_perform ⟨fun _ => rfl, fun h => absurd h (by decide), fun _ => rfl⟩ (fun h => h) <|
      Env.accepts_local rfl (fun h => h.elim) <| Env.accepts_local rfl rfl <|
      Env.accepts_local rfl (fun h => h.elim) <|
      Env.accepts_perform (.inr rfl) (fun h => h.put (by decide)) <| .nil _⟩
  obtain ⟨t₁, haccepts₁⟩ := hstored
  have hremoved : ∃ t, demoEnv.adverse.world.Accepts t₁ firstDelete t :=
    ⟨_, Env.accepts_local rfl rfl <| Env.accepts_local rfl (fun h => h.elim) <|
      Env.accepts_perform ⟨fun h => absurd h (by decide), fun _ => rfl, .inr rfl⟩ (fun h => h.remove) <| .nil _⟩
  obtain ⟨t₂, haccepts₂⟩ := hremoved
  have hrefused : ∀ tr ∈ [deniedPut, firstDelete], ¬ Refused (exchanges tr) := by
    intro tr htr hrefused
    obtain ⟨x, hx, htoken, -⟩ := hrefused
    rcases List.mem_pair.1 htr with rfl | rfl <;> cases hx <;> cases htoken
  have hattempts : Attempts demoEnv (demoServed none) deniedThenDelete t₂ :=
    .cons hfailed haccepts₁ (hrefused _ (by simp)) <|
      .cons firstDelete_run haccepts₂ (hrefused _ (by simp)) <| .nil t₂
  have hst : Represents demoSpace (demoServed none).drive fun _ => [] := by
    refine ⟨demoServed_small (fun _ h => by cases h), fun key hkey => ?_, fun _ _ _ h => by cases h⟩
    rw [Set.mem_singleton_iff.1 hkey]
    rfl
  have hkeys : ∀ attempt ∈ deniedThenDelete, attempt.op.key ∈ demoSpace.keys := by
    intro attempt hattempt
    rcases List.mem_pair.1 hattempt with rfl | rfl <;> exact Set.mem_singleton _
  obtain ⟨happened, hsome, hall, hrep⟩ := values_survive_crashes demoEnv hst hkeys hattempts
  exact ⟨t₂, hattempts, happened, hsome, hall, hrep⟩

end HiveSdk
