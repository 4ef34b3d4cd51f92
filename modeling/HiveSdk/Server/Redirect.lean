import HiveSdk.Interaction.Relate
import HiveSdk.Model.Redirect
import HiveSdk.Server.Browser
import HiveSdk.Server.Sessions

/-!
# The redirect

The server with the handler of the login, seen from the login and from the browser. For the login the rounds of the server are polls that bring events, as its model has it, and a request among these events is the request of a connection. The browser gets to see no more than a status line.
-/

namespace HiveSdk

open Interaction

/-- The events of a run of the server. -/
def eventsOf (tr : List (Entry Sb.Call Sb.Call.Answer)) : List SbEvent :=
  tr.filterMap fun entry => match entry.1 with
    | .handle _ notice => some notice.event
    | _ => none

section
variable {path : Bytes} {a a' : AuthRedirect} {p p' : Process OneDriveConnect} {login login' : Login}
  {tr seen : List (Entry Sb.Call Sb.Call.Answer)}

@[simp] theorem eventsOf_handle {sock : Sb.Socket} {notice : Sb.Notice} {reply : Sb.HandlerReply} :
    eventsOf (⟨.handle sock notice, reply⟩ :: tr) = notice.event :: eventsOf tr := rfl

theorem eventsOf_append (tr tr' : List (Entry Sb.Call Sb.Call.Answer)) :
    eventsOf (tr ++ tr') = eventsOf tr ++ eventsOf tr' := List.filterMap_append

theorem handleAuthRedirect_returns (path : Bytes) (a : AuthRedirect) (e : SbEvent) (p : Process OneDriveConnect) :
    ∃ login', handleAuthRedirect path a e p = .ret login' := by
  cases e with
  | connect => exact ⟨(a, p), rfl⟩
  | close => exact ⟨({ a with stop := true }, p), rfl⟩
  | request reqPath stream =>
      rw [handleAuthRedirect]
      split
      · exact ⟨_, rfl⟩
      · generalize Sb.getVar stream (bytes "code") a.code = found
        obtain ⟨code, result⟩ := found
        dsimp only
        split <;> exact ⟨_, rfl⟩

/-- The handler answers all notices, and only these. -/
theorem redirectHandler_handle (path : Bytes) (login : Login) (sock : Sb.Socket) (notice : Sb.Notice) : ∃ login',
    handleAuthRedirect path login.1 notice.event login.2 = .ret login'
    ∧ redirectHandler path (.handle sock notice) login
      = some (⟨redirectOutputs path login.1 notice.event, Sb.SB_RES_OK⟩, login') := by
  obtain ⟨login', hret⟩ := handleAuthRedirect_returns path login.1 notice.event login.2
  refine ⟨login', hret, ?_⟩
  rw [redirectHandler, hret]

/-- What the handler has done in a run is what it does with the events of the run. -/
theorem handleEvents_of_follows (h : Follows (redirectHandler path) login tr seen login') :
    handleEvents path login.1 (eventsOf tr) login.2 = .ret login' := by
  induction h with
  | nil login => rfl
  | @own e r login login' login'' tr seen hown _ ih =>
      cases e with
      | handle sock notice =>
          obtain ⟨next, hret, hanswer⟩ := redirectHandler_handle path login sock notice
          obtain ⟨rfl, rfl⟩ := Prod.mk.inj (Option.some.inj (hanswer.symm.trans hown))
          rw [eventsOf_handle, handleEvents]
          show Prog.bind (handleAuthRedirect path login.1 notice.event login.2) _ = _
          rw [hret]
          exact ih
      | _ => cases hown
  | @other e r login login' tr seen hother _ ih =>
      cases e with
      | handle sock notice =>
          obtain ⟨next, -, hanswer⟩ := redirectHandler_handle path login sock notice
          cases hanswer.symm.trans hother
      | _ => exact ih

/-- With these polls the wait of the login goes as the rounds of the server have gone, whatever comes later. -/
structure Polled (path : Bytes) (login : Login) (polls : List (List SbEvent)) (login' : Login) : Prop where
  waits : ∀ later, pollUntilStopped path login.1 (polls ++ later) login.2 = pollUntilStopped path login'.1 later login'.2

theorem Polled.cons {login'' : Login} {es : List SbEvent} {polls : List (List SbEvent)} (hwaits : login.1.stop = false)
    (hround : handleEvents path login.1 es login.2 = .ret login') (hrest : Polled path login' polls login'') :
    Polled path login (es :: polls) login'' := by
  refine ⟨fun later => ?_⟩
  rw [List.cons_append, pollUntilStopped, if_neg (by simp [hwaits])]
  show Prog.bind (handleEvents path login.1 es login.2) _ = _
  rw [hround]
  exact hrest.waits later

/-- The rounds of the loop are polls. -/
theorem polled_of_run {rounds : Nat} {srv srv' : Sb.Server}
    (hrun : Run (awaitRedirect path rounds login srv) seen (login', srv')) :
    ∃ polls tr, Run (Sb.pollRounds polls.length srv) tr ((), srv') ∧ Follows (redirectHandler path) login tr seen login'
      ∧ eventsOf tr = polls.flatten ∧ Polled path login polls login' := by
  induction rounds generalizing login srv seen with
  | zero =>
      obtain ⟨rfl, hresult⟩ := run_ret_iff.1 hrun
      obtain ⟨rfl, rfl⟩ := Prod.mk.inj hresult
      exact ⟨[], [], .refl _, .nil _, rfl, ⟨fun later => rfl⟩⟩
  | succ rounds ih =>
      rw [awaitRedirect] at hrun
      split at hrun
      · obtain ⟨rfl, hresult⟩ := run_ret_iff.1 hrun
        obtain ⟨rfl, rfl⟩ := Prod.mk.inj hresult
        exact ⟨[], [], .refl _, .nil _, rfl, ⟨fun later => rfl⟩⟩
      · rename_i hwaits
        rw [Bool.not_eq_true] at hwaits
        obtain ⟨⟨⟨err, srv₁⟩, login₁⟩, seen₁, seen₂, rfl, hround, hrest⟩ := (run_bind_iff _ _).1 hrun
        obtain ⟨tr₁, hround, hfollows⟩ := Prog.run_of_attach hround
        obtain ⟨polls, tr₂, hrounds, hfollows', hevents, hpolled⟩ := ih hrest
        refine ⟨eventsOf tr₁ :: polls, tr₁ ++ tr₂, ?_, hfollows.append hfollows', ?_,
          hpolled.cons hwaits (handleEvents_of_follows hfollows)⟩
        · rw [List.length_cons, Sb.pollRounds]
          exact Proc.run_bind_iff.2 ⟨err, srv₁, tr₁, tr₂, rfl, hround, hrounds⟩
        · rw [eventsOf_append, hevents, List.flatten_cons]

end

namespace Sb

/-! ### What becomes of all connections -/

section
variable {l : Socket} {n n' : Net} {tr : List (Entry Call Call.Answer)} {P : Peer → Prop}

theorem Net.Seen.put {sock : Socket} {p q : Peer} {short : Bool} (h : (n.put sock p short).Seen q) : q = p ∨ n.Seen q := by
  rcases h with hpast | ⟨sock', hpeer⟩
  · exact .inr (.inl hpast)
  · by_cases hsock : sock' = sock
    · subst hsock
      rw [put_self] at hpeer
      exact .inl (Option.some.inj hpeer).symm
    · rw [put_of_ne hsock] at hpeer
      exact .inr (.inr ⟨sock', hpeer⟩)

theorem Net.Seen.close {sock : Socket} {p q : Peer} (hp : n.peers sock = some p) (h : (n.close sock p).Seen q) : n.Seen q := by
  rcases h with hpast | ⟨sock', hpeer⟩
  · rcases List.mem_append.1 hpast with hpast | hlast
    · exact .inl hpast
    · exact List.mem_singleton.1 hlast ▸ .inr ⟨sock, hp⟩
  · by_cases hsock : sock' = sock
    · subst hsock
      have hnone : (n.close sock' p).peers sock' = none := Function.update_self ..
      cases hnone.symm.trans hpeer
    · rw [close_of_ne hsock] at hpeer
      exact .inr ⟨sock', hpeer⟩

/-- What a call does to the connection it is about. -/
inductive Changed : Entry Call Call.Answer → Peer → Peer → Prop
  | received (p : Peer) (sock : Socket) (input : List Bytes × RecvEnd) :
      Changed ⟨.recv sock, input⟩ p { p with received := p.received ++ input.1.flatten }
  | sent (p : Peer) (sock : Socket) (data : Bytes) (k : Nat) :
      Changed ⟨.send sock data, .sent k⟩ p { p with sent := p.sent ++ data.take k }
  | opened (p : Peer) (sock : Socket) (filename : Bytes) (file : Option Nat) :
      Changed ⟨.fopen sock filename, file⟩ p (p.opened [file])
  | read (p : Peer) (sock : Socket) (size : Nat) (data : Bytes) :
      Changed ⟨.fread sock size, data⟩ p { p with items := p.items ++ [.chunk (data.take size)] }
  | notified (p : Peer) (sock : Socket) (notice : Notice) (reply : HandlerReply) :
      Changed ⟨.handle sock notice, reply⟩ p (p.notified notice reply.outputs)

/-- A call is about no connection, or opens one, or changes one, or closes one. -/
theorem net_step_cases {e : Call} {r : e.Answer} (hstep : (net l).step n e r n') :
    (∀ p, n'.Seen p ↔ n.Seen p)
    ∨ (∃ sock, n.peers sock = none ∧ n' = n.put sock .new false)
    ∨ (∃ sock p q, n.peers sock = some p ∧ n' = n.put sock q false ∧ Changed ⟨e, r⟩ p q)
    ∨ ∃ sock p, n.peers sock = some p ∧ n' = n.close sock p := by
  have hsame : n' = n → ∀ p, n'.Seen p ↔ n.Seen p := by
    rintro rfl p
    exact Iff.rfl
  cases e with
  | recv sock =>
      obtain ⟨p, hp, hput⟩ := hstep
      exact .inr (.inr (.inl ⟨sock, p, _, hp, hput, .received p sock r⟩))
  | send sock data =>
      cases r with
      | sent k =>
          obtain ⟨p, hp, -, hput⟩ := hstep
          exact .inr (.inr (.inl ⟨sock, p, _, hp, hput, .sent p sock data k⟩))
      | _ => exact .inl (hsame hstep)
  | fopen sock filename =>
      obtain ⟨p, hp, hput⟩ := hstep
      exact .inr (.inr (.inl ⟨sock, p, _, hp, hput, .opened p sock filename r⟩))
  | fread sock size =>
      obtain ⟨p, hp, hput⟩ := hstep
      exact .inr (.inr (.inl ⟨sock, p, _, hp, hput, .read p sock size r⟩))
  | handle sock notice =>
      obtain ⟨p, hp, hput⟩ := hstep
      exact .inr (.inr (.inl ⟨sock, p, _, hp, hput, .notified p sock notice r⟩))
  | accept =>
      obtain ⟨-, hnone, hput⟩ := hstep
      exact .inr (.inl ⟨r, hnone, hput⟩)
  | close sock =>
      rw [net] at hstep
      dsimp only at hstep
      split at hstep
      · subst hstep
        exact .inl fun p => Iff.rfl
      · obtain ⟨p, hp, hclose⟩ := hstep
        exact .inr (.inr (.inr ⟨sock, p, hp, hclose⟩))
  | realloc size =>
      obtain rfl : n' = { n with starved := n.starved || !r } := hstep
      exact .inl fun p => Iff.rfl
  | select reading writing => exact .inl (hsame hstep.2.2)
  | _ => exact .inl (hsame hstep)

/-- What holds of a new connection and is kept by what happens to one, holds of all. -/
theorem seen_of_accepts (hacc : (net l).Accepts n tr n') (hnew : P .new)
    (hchanged : ∀ entry ∈ tr, ∀ p q, Changed entry p q → P p → P q) (h : ∀ p, n.Seen p → P p) :
    ∀ p, n'.Seen p → P p := by
  induction hacc with
  | nil n => exact h
  | @cons n n₁ n' e r tr hstep _ ih =>
      apply ih fun entry hmem => hchanged entry (List.mem_cons_of_mem _ hmem)
      intro p hseen
      rcases net_step_cases hstep with hsame | ⟨sock, -, rfl⟩ | ⟨sock, q, q', hq, rfl, hchange⟩ | ⟨sock, q, hq, rfl⟩
      · exact h p ((hsame p).1 hseen)
      · rcases hseen.put with rfl | hseen
        · exact hnew
        · exact h p hseen
      · rcases hseen.put with rfl | hseen
        · exact hchanged _ List.mem_cons_self q _ hchange (h q (.inr ⟨sock, hq⟩))
        · exact h p hseen
      · exact h p (hseen.close hq)

/-- The handler has been told of a request. -/
def Net.Told (n : Net) (notice : Notice) : Prop := ∃ p, n.Seen p ∧ notice ∈ p.requests

theorem Net.Told.put {notice : Notice} {sock : Socket} {q : Peer} {short : Bool} (h : n.Told notice)
    (hkept : ∀ p, n.peers sock = some p → p.requests ⊆ q.requests) : (n.put sock q short).Told notice := by
  obtain ⟨p, hpast | ⟨sock', hpeer⟩, hmem⟩ := h
  · exact ⟨p, .inl hpast, hmem⟩
  · by_cases hsock : sock' = sock
    · subst hsock
      exact ⟨q, .inr ⟨sock', put_self⟩, hkept p hpeer hmem⟩
    · exact ⟨p, .inr ⟨sock', (put_of_ne hsock).trans hpeer⟩, hmem⟩

theorem Net.Told.close {notice : Notice} {sock : Socket} {p : Peer} (h : n.Told notice) (hp : n.peers sock = some p) :
    (n.close sock p).Told notice := by
  obtain ⟨q, hpast | ⟨sock', hpeer⟩, hmem⟩ := h
  · exact ⟨q, .inl (List.mem_append_left _ hpast), hmem⟩
  · by_cases hsock : sock' = sock
    · subst hsock
      obtain rfl := Option.some.inj (hp.symm.trans hpeer)
      exact ⟨p, .inl (List.mem_append_right _ (List.mem_singleton_self p)), hmem⟩
    · exact ⟨q, .inr ⟨sock', (close_of_ne hsock).trans hpeer⟩, hmem⟩

/-- No request is forgotten. -/
theorem Changed.requests {entry : Entry Call Call.Answer} {p q : Peer} (h : Changed entry p q) : p.requests ⊆ q.requests := by
  cases h with
  | notified _ sock notice reply =>
      cases notice with
      | request method path stream => exact List.subset_append_left _ _
      | _ => exact List.Subset.refl _
  | _ => exact List.Subset.refl _

/-- What is new to a response when the handler has been told of something. -/
theorem mem_items_notified {p : Peer} {notice : Notice} {outputs : List Output} {item : Item}
    (h : item ∈ (p.notified notice outputs).items) :
    item ∈ p.items ∨ item = .request ∨ ∃ o ∈ outputs, item = .output o := by
  have houtput : item ∈ outputs.map .output → ∃ o ∈ outputs, item = .output o := by
    intro hmem
    obtain ⟨o, ho, rfl⟩ := List.mem_map.1 hmem
    exact ⟨o, ho, rfl⟩
  cases notice with
  | connect =>
      rcases List.mem_append.1 h with h | h
      · exact .inl h
      · exact .inr (.inr (houtput h))
  | request method path stream =>
      rcases List.mem_append.1 h with h | h
      · exact .inl h
      · rcases List.mem_cons.1 h with h | h
        · exact .inr (.inl h)
        · exact .inr (.inr (houtput h))
  | close => exact .inl h

/-- What the handler has been told in a run is known of a connection. -/
theorem told_of_accepts {method path : Bytes} {stream : SbStream} (hacc : (net l).Accepts n tr n')
    (h : n.Told (.request method path stream)
      ∨ ∃ sock reply, ⟨.handle sock (.request method path stream), reply⟩ ∈ tr) :
    n'.Told (.request method path stream) := by
  induction hacc with
  | nil n =>
      rcases h with h | ⟨sock, reply, hmem⟩
      · exact h
      · cases hmem
  | @cons n n₁ n' e r tr hstep _ ih =>
      have hkept : n.Told (.request method path stream) → n₁.Told (.request method path stream) := by
        intro htold
        rcases net_step_cases hstep with hsame | ⟨sock, hnone, rfl⟩ | ⟨sock, p, q, hp, rfl, hchange⟩ | ⟨sock, p, hp, rfl⟩
        · exact htold.imp fun p hp => ⟨(hsame p).2 hp.1, hp.2⟩
        · exact htold.put fun p hp => by cases hnone.symm.trans hp
        · exact htold.put fun p' hp' => Option.some.inj (hp.symm.trans hp') ▸ hchange.requests
        · exact htold.close hp
      apply ih
      rcases h with h | ⟨sock, reply, hmem⟩
      · exact .inl (hkept h)
      · rcases List.mem_cons.1 hmem with heq | hmem
        · cases heq
          obtain ⟨p, -, rfl⟩ := hstep
          exact .inl ⟨_, .inr ⟨sock, Net.put_self⟩, List.mem_append_right _ (List.mem_singleton_self _)⟩
        · exact .inr ⟨sock, reply, hmem⟩

end

end Sb

/-! ### What the login gets -/

section
variable {path : Bytes} {login login' : Login} {p : Process OneDriveConnect} {rounds : Nat} {srv srv' : Sb.Server}
  {n : Sb.Net} {tr seen : List (Entry Sb.Call Sb.Call.Answer)}

theorem handled_singleton (es : List SbEvent) : handled [es] = es := by
  rw [handled, handled, List.append_nil, ite_self]

theorem mem_of_supplier {es : List SbEvent} {stream : SbStream} (h : supplier path [es] = some stream) :
    .request path stream ∈ es := by
  rw [supplier, handled_singleton] at h
  obtain ⟨e, he, hon⟩ := List.mem_filterMap.1 (List.mem_of_getLast? h)
  cases e with
  | request reqPath stream' =>
      rw [streamOn] at hon
      split at hon
      · rename_i hpath
        obtain rfl := Option.some.inj hon
        exact hpath ▸ he
      · cases hon
  | _ => cases hon

theorem request_of_eventsOf {reqPath : Bytes} {stream : SbStream} (h : .request reqPath stream ∈ eventsOf tr) :
    ∃ sock method reply, ⟨.handle sock (.request method reqPath stream), reply⟩ ∈ tr := by
  obtain ⟨⟨e, r⟩, hmem, he⟩ := List.mem_filterMap.1 h
  cases e with
  | handle sock notice =>
      cases notice with
      | request method path' stream' =>
          cases Option.some.inj he
          exact ⟨sock, method, r, hmem⟩
      | _ => cases Option.some.inj he
  | _ => cases he

/-- A request among the events is the request of a connection. -/
theorem connection_of_event (hnew : srv.streams = []) (hrun : Run (Sb.pollRounds rounds srv) tr ((), srv'))
    (hacc : (Sb.net srv.sockfd).Accepts .init tr n) (hfed : n.starved = false) {reqPath : Bytes} {stream : SbStream}
    (h : .request reqPath stream ∈ eventsOf tr) :
    ∃ q, n.Seen q ∧ ∃ method, Sb.requestsIn q.received = [.request method reqPath stream] := by
  obtain ⟨sock, method, reply, hmem⟩ := request_of_eventsOf h
  obtain ⟨q, hseen, hrequest⟩ := Sb.told_of_accepts hacc (.inr ⟨sock, reply, hmem⟩)
  refine ⟨q, hseen, method, ?_⟩
  rw [((Sb.running_of_run hnew hrun hacc).read hfed hseen).1] at hrequest
  rw [Sb.requestsIn, Option.mem_toList] at hrequest
  rw [Sb.requestsIn, hrequest]
  rfl

/-- For the login the rounds of the server are polls: its wait goes the same way with the events that the handler has been handed in the rounds. What these events have for requests are the requests of connections. -/
theorem rounds_are_polls (hnew : srv.streams = []) (hrun : Run (awaitRedirect path rounds login srv) seen (login', srv')) :
    ∃ polls tr, Run (Sb.pollRounds polls.length srv) tr ((), srv') ∧ Follows (redirectHandler path) login tr seen login'
      ∧ eventsOf tr = polls.flatten
      ∧ (∀ later, pollUntilStopped path login.1 (polls ++ later) login.2 = pollUntilStopped path login'.1 later login'.2)
      ∧ ∀ n, (Sb.net srv.sockfd).Accepts .init tr n → n.starved = false →
        ∀ reqPath stream, .request reqPath stream ∈ polls.flatten →
          ∃ q, n.Seen q ∧ ∃ method, Sb.requestsIn q.received = [.request method reqPath stream] := by
  obtain ⟨polls, tr, hrounds, hfollows, hevents, hpolled⟩ := polled_of_run hrun
  refine ⟨polls, tr, hrounds, hfollows, hevents, hpolled.waits, fun n hacc hfed reqPath stream hmem => ?_⟩
  exact connection_of_event hnew hrounds hacc hfed (hevents ▸ hmem)

/-! The browser opens a connection and leaves. -/

def demoLogin : Login := (⟨false, List.replicate authorizeCodeSize 0⟩, demoProcess)

def demoLeaving : List (Entry Sb.Call Sb.Call.Answer) :=
  [⟨.select [3] [], ([3], [])⟩, ⟨.time, (0 : Int)⟩, ⟨.backlog, (1 : Nat)⟩, ⟨.accept, (5 : Nat)⟩, ⟨.malloc, true⟩,
    ⟨.select [3, 5] [], ([5], [])⟩, ⟨.time, (0 : Int)⟩, ⟨.recv 5, ([], Sb.RecvEnd.disconnected)⟩, ⟨.close 5, ()⟩]

theorem demoLeaving_polls : ∃ login' srv', Run (awaitRedirect (bytes "/") 3 demoLogin Sb.demoServer) demoLeaving (login', srv')
    ∧ login'.1.stop = true ∧ ∃ polls tr, eventsOf tr = polls.flatten
      ∧ ∀ later, pollUntilStopped (bytes "/") demoLogin.1 (polls ++ later) demoLogin.2
        = pollUntilStopped (bytes "/") login'.1 later login'.2 := by
  have hstopped : ((awaitRedirect (bytes "/") 3 demoLogin Sb.demoServer).replay demoLeaving).any
      (fun x => x.1.1.stop) = true := by decide +kernel
  obtain ⟨⟨login', srv'⟩, hreplay, hstop⟩ := (Option.any_eq_true _ _).1 hstopped
  have hrun := Prog.run_of_replay hreplay
  obtain ⟨polls, tr, -, -, hevents, hwaits, -⟩ := rounds_are_polls rfl hrun
  exact ⟨login', srv', hrun, hstop, polls, tr, hevents, hwaits⟩

theorem heard_of_follows (hlength : login.1.code.length = authorizeCodeSize)
    (h : Follows (redirectHandler path) login tr seen login') : Heard path login.1 login.2 (eventsOf tr) login'.1 login'.2 := by
  have hspec : Proc.wp (World.guard fun _ => False) (handleEvents path login.1 (eventsOf tr))
      (fun a p _ => Heard path login.1 login.2 (eventsOf tr) a p) login.2 () :=
    wp_handleEvents hlength fun _ _ hheard _ => hheard
  rw [Proc.wp, handleEvents_of_follows h] at hspec
  exact hspec

/-! A browser that follows the redirect. -/

def demoRequest : Sb.BrowserRequest where
  path := bytes "/"
  before := [bytes "state=1"]
  src := bytes "c"
  code := bytes "c"
  after := []
  lines := [bytes "Host: localhost"]
  stands := .literal (by decide) .nil
  pathLiteral := by decide +kernel
  pathFits := by decide
  beforeProper := by decide +kernel
  afterProper := by simp
  bodiless := by
    rw [Sb.Bodiless]
    decide +kernel

def demoFollowed : Sb.Notice := .request (bytes "GET") (bytes "/") ⟨demoRequest.text, 0⟩

def demoText : List Bytes := [demoRequest.text.take 9, demoRequest.text.drop 9]

def demoVisit : List (Entry Sb.Call Sb.Call.Answer) := Sb.visit demoText [1, 2, 4, 8, 16, 32, 64] demoFollowed Sb.demoAnswer

theorem demoVisit_run : ∃ srv', Run (Sb.pollRounds 2 Sb.demoServer) demoVisit ((), srv') := by
  have hsome : ((Sb.pollRounds 2 Sb.demoServer).replay demoVisit).isSome = true := by decide +kernel
  obtain ⟨⟨_, srv'⟩, hreplay⟩ := Option.isSome_iff_exists.1 hsome
  exact ⟨srv', Prog.run_of_replay hreplay⟩

theorem follows_growing {sizes : List Nat} {tr seen : List (Entry Sb.Call Sb.Call.Answer)} {login' : Login}
    (h : Follows (redirectHandler path) login tr seen login') :
    Follows (redirectHandler path) login (Sb.growing sizes ++ tr) (Sb.growing sizes ++ seen) login' := by
  induction sizes with
  | nil => exact h
  | cons size sizes ih => exact .other (e := .realloc size) true rfl ih

/-- The handler of the login gives the answers of the visit. -/
theorem demoVisit_follows : ∃ seen login', Follows (redirectHandler (bytes "/")) demoLogin demoVisit seen login' := by
  have hcode : (Sb.getVar ⟨demoRequest.text, 0⟩ (bytes "code") demoLogin.1.code).2 = .success :=
    codeOf_success_iff.2 ⟨bytes "c", Sb.codeValue_text demoRequest, by decide⟩
  obtain ⟨login', -, hanswer⟩ := redirectHandler_handle (bytes "/") demoLogin 5 demoFollowed
  have houtputs : redirectOutputs (bytes "/") demoLogin.1 demoFollowed.event = [.sendStatus 200 (bytes "OK")] :=
    if_pos ⟨rfl, hcode⟩
  rw [houtputs] at hanswer
  have hgrowing : Follows (redirectHandler (bytes "/")) login' (Sb.growing [1, 2, 4, 8, 16, 32] ++ [])
      (Sb.growing [1, 2, 4, 8, 16, 32] ++ []) login' := follows_growing (.nil login')
  rw [demoVisit, Sb.visit, Sb.arrival, List.append_assoc, List.append_assoc]
  exact ⟨_, login', .other _ rfl <| .other _ rfl <| .other _ rfl <| .other _ rfl <| .other _ rfl <| .own rfl <|
    .other _ rfl <| .other _ rfl <| .other _ rfl <| follows_growing <| .own hanswer hgrowing⟩

/-- What the handler has in its buffer is what the last request to the path has left there. -/
theorem code_of_follows
    (h : Follows (redirectHandler path) (⟨false, List.replicate authorizeCodeSize 0⟩, p) tr seen login') :
    cString login'.1.code = ((supplier path [eventsOf tr]).map fun stream => cString (codeOf stream).1).getD [] := by
  have hempty : cString (List.replicate authorizeCodeSize (0 : UInt8)) = [] := rfl
  rw [← handled_code, handled_singleton, ← hempty]
  exact (heard_of_follows List.length_replicate h).code

/-- A code is never made up: it is the value, cut to the size of the buffer, that the request of some connection has for it. -/
theorem code_is_from_a_connection (hnew : srv.streams = []) (hrun : Run (Sb.pollRounds rounds srv) tr ((), srv'))
    (hacc : (Sb.net srv.sockfd).Accepts .init tr n) (hfed : n.starved = false)
    (hfollows : Follows (redirectHandler path) (⟨false, List.replicate authorizeCodeSize 0⟩, p) tr seen login')
    (hcode : cString login'.1.code ≠ []) :
    ∃ q, n.Seen q ∧ ∃ method stream value, Sb.requestsIn q.received = [.request method path stream]
      ∧ codeValue stream = some value ∧ cString login'.1.code = cString (value.take (authorizeCodeSize - 1)) := by
  have hleft := code_of_follows hfollows
  rcases hsupplier : supplier path [eventsOf tr] with _ | stream
  · rw [hsupplier] at hleft
    exact absurd hleft hcode
  rw [hsupplier, Option.map_some, Option.getD_some] at hleft
  rcases hvalue : codeValue stream with _ | value
  · rw [codeOf_none hvalue, Sb.store, Sb.cString_terminated] at hleft
    exact absurd hleft hcode
  · obtain ⟨q, hseen, method, hrequest⟩ := connection_of_event hnew hrun hacc hfed (mem_of_supplier hsupplier)
    exact ⟨q, hseen, method, stream, value, hrequest, hvalue, hleft.trans (codeOf_string hvalue)⟩

theorem demoVisit_origin : ∃ q : Sb.Peer, ∃ method stream value, Sb.requestsIn q.received = [.request method (bytes "/") stream]
    ∧ codeValue stream = some value := by
  obtain ⟨srv', hrun⟩ := demoVisit_run
  obtain ⟨seen, login', hfollows⟩ := demoVisit_follows
  have hleft := code_of_follows hfollows
  have hsupplier : supplier (bytes "/") [eventsOf demoVisit] = some ⟨demoRequest.text, 0⟩ := by
    rw [supplier, handled_singleton]
    rfl
  rw [hsupplier, Option.map_some, Option.getD_some, codeOf_string (Sb.codeValue_text demoRequest)] at hleft
  have hcode : cString login'.1.code ≠ [] := by
    rw [hleft]
    decide
  obtain ⟨q, -, method, stream, value, hrequest, hvalue, -⟩ :=
    code_is_from_a_connection rfl hrun (Sb.visit_accepted ..) rfl hfollows hcode
  exact ⟨q, method, stream, value, hrequest, hvalue⟩

/-- The handler has been told of the requests of the connection. -/
def Handled (tr : List (Entry Sb.Call Sb.Call.Answer)) (q : Sb.Peer) : Prop :=
  ∀ notice ∈ q.requests, ∃ sock reply, ⟨.handle sock notice, reply⟩ ∈ tr

theorem handled_of_request (hacc : (Sb.net srv.sockfd).Accepts .init tr n) {q : Sb.Peer} (hseen : n.Seen q)
    {notice : Sb.Notice} (hmem : notice ∈ q.requests) : ∃ sock reply, ⟨.handle sock notice, reply⟩ ∈ tr := by
  have hall : ∀ q, n.Seen q → Handled tr q := by
    refine Sb.seen_of_accepts (P := Handled tr) hacc ?_ ?_ ?_
    · intro notice hnone
      cases hnone
    · intro entry hentry q q' hchange hq notice hnotice
      cases hchange with
      | notified _ sock told reply =>
          cases told with
          | request method path stream =>
              rcases List.mem_append.1 hnotice with hnotice | hnotice
              · exact hq notice hnotice
              · exact List.mem_singleton.1 hnotice ▸ ⟨sock, reply, hentry⟩
          | _ => exact hq notice hnotice
      | _ => exact hq notice hnotice
    · intro q hnone
      rcases hnone with hpast | ⟨sock, hpeer⟩
      · cases hpast
      · cases hpeer
  exact hall q hseen notice hmem

theorem eventsOf_of_handled {sock : Sb.Socket} {notice : Sb.Notice} {reply : Sb.HandlerReply}
    (h : ⟨.handle sock notice, reply⟩ ∈ tr) : notice.event ∈ eventsOf tr :=
  List.mem_filterMap.2 ⟨_, h, rfl⟩

/-- From the browser to the login: when a connection has brought the request for the redirect, in whatever pieces and among whatever others, the code that the browser was given is in the buffer, as long as no request to the path has another one. -/
theorem code_arrives (r : Sb.BrowserRequest) (hnew : srv.streams = []) (hrun : Run (Sb.pollRounds rounds srv) tr ((), srv'))
    (hacc : (Sb.net srv.sockfd).Accepts .init tr n) (hfed : n.starved = false)
    (hfollows : Follows (redirectHandler r.path) (⟨false, List.replicate authorizeCodeSize 0⟩, p) tr seen login')
    {q : Sb.Peer} (hseen : n.Seen q) {more : Bytes} (hreceived : q.received = r.text ++ more)
    (honly : ∀ q, n.Seen q → ∀ method stream, Sb.requestsIn q.received = [.request method r.path stream] →
      codeValue stream = some r.code)
    (hfits : r.code.length < authorizeCodeSize) (hzero : 0 ∉ r.code) : cString login'.1.code = r.code := by
  have hrequests := ((Sb.running_of_run hnew hrun hacc).read hfed hseen).1
  rw [hreceived, Sb.requestsIn_text] at hrequests
  obtain ⟨sock, reply, hhandled⟩ := handled_of_request hacc hseen (hrequests ▸ List.mem_singleton_self _)
  have hevent : SbEvent.request r.path ⟨r.text, 0⟩ ∈ eventsOf tr := eventsOf_of_handled hhandled
  have hmem : (⟨r.text, 0⟩ : SbStream) ∈ (eventsOf tr).filterMap (streamOn r.path) :=
    List.mem_filterMap.2 ⟨_, hevent, if_pos rfl⟩
  have hleft := code_of_follows hfollows
  rcases hsupplier : supplier r.path [eventsOf tr] with _ | stream
  · rw [supplier, handled_singleton, List.getLast?_eq_none_iff] at hsupplier
    rw [hsupplier] at hmem
    cases hmem
  · obtain ⟨q', hseen', method, hrequest⟩ := connection_of_event hnew hrun hacc hfed (mem_of_supplier hsupplier)
    have hvalue := honly q' hseen' method stream hrequest
    rw [hsupplier, Option.map_some, Option.getD_some, codeOf_string hvalue, List.take_of_length_le (by omega),
      Sb.cString_eq hzero] at hleft
    exact hleft

theorem demoVisit_code : ∃ login' : Login, cString login'.1.code = demoRequest.code := by
  obtain ⟨srv', hrun⟩ := demoVisit_run
  obtain ⟨seen, login', hfollows⟩ := demoVisit_follows
  have htext : demoText.flatten = demoRequest.text ++ [] := by decide
  refine ⟨login', code_arrives demoRequest rfl hrun (Sb.visit_accepted ..) rfl hfollows (.inr ⟨5, Sb.Net.put_self⟩) htext
    (fun q hseen method stream hrequest => ?_) (by decide) (by decide)⟩
  rw [Sb.eq_visitor hseen] at hrequest
  have honly : Sb.requestsIn demoText.flatten = [.request method demoRequest.path stream] := hrequest
  rw [htext, Sb.requestsIn_text] at honly
  cases honly
  exact Sb.codeValue_text demoRequest

/-! ### What the browser gets -/

/-- The handler writes nothing but a status line, and that only for a request to the path with a code that fits. -/
theorem outputs_of_follows (hlength : login.1.code.length = authorizeCodeSize)
    (h : Follows (redirectHandler path) login tr seen login') {sock : Sb.Socket} {notice : Sb.Notice}
    {reply : Sb.HandlerReply} (hmem : ⟨.handle sock notice, reply⟩ ∈ tr) :
    reply.outputs = [] ∨ reply.outputs = [.sendStatus 200 (bytes "OK")]
      ∧ ∃ method stream, notice = .request method path stream ∧ (codeOf stream).2 = .success := by
  obtain ⟨tr₁, seen₁, login₁, hfollows, hanswer⟩ := h.answer hmem
  obtain ⟨next, -, hreply⟩ := redirectHandler_handle path login₁ sock notice
  rw [← hanswer _ hreply]
  cases notice with
  | request method reqPath stream =>
      show redirectOutputs path login₁.1 (.request reqPath stream) = [] ∨ redirectOutputs path login₁.1 (.request reqPath stream) = _ ∧ _
      rw [redirectOutputs]
      split
      · rename_i hsuccess
        obtain ⟨rfl, hfound⟩ := hsuccess
        refine .inr ⟨rfl, method, stream, rfl, ?_⟩
        have hsize := (heard_of_follows hlength hfollows).length
        have hlike : login₁.1.code.length = (List.replicate authorizeCodeSize (0 : UInt8)).length := by
          rw [hsize, List.length_replicate]
        have hpositive : 0 < login₁.1.code.length := by
          rw [hsize]
          decide
        rw [codeOf, ← (Sb.getVar_spec stream (bytes "code") hpositive hlike).2.2]
        exact hfound
      · exact .inl rfl
  | _ => exact .inl rfl

/-- The connection has been written status lines at most, and only if its request has a code. -/
structure Brief (path : Bytes) (q : Sb.Peer) : Prop where
  items : ∀ item ∈ q.items, ∀ o, item = .output o → o = .sendStatus 200 (bytes "OK")
  reason : (∃ o, .output o ∈ q.items) → ∃ method stream, .request method path stream ∈ q.requests ∧ (codeOf stream).2 = .success

theorem Brief.changed (hlength : login.1.code.length = authorizeCodeSize)
    (h : Follows (redirectHandler path) login tr seen login') {entry : Entry Sb.Call Sb.Call.Answer} (hmem : entry ∈ tr)
    {q q' : Sb.Peer} (hchange : Sb.Changed entry q q') (hbrief : Brief path q) : Brief path q' := by
  have hrequests := hchange.requests
  cases hchange with
  | received => exact ⟨hbrief.items, hbrief.reason⟩
  | sent => exact ⟨hbrief.items, hbrief.reason⟩
  | opened => exact ⟨hbrief.items, hbrief.reason⟩
  | read =>
      constructor
      · intro item hitem
        rcases List.mem_append.1 hitem with hitem | hitem
        · exact hbrief.items item hitem
        · rw [List.mem_singleton.1 hitem]
          intro o ho
          cases ho
      · rintro ⟨o, ho⟩
        rcases List.mem_append.1 ho with ho | ho
        · exact hbrief.reason ⟨o, ho⟩
        · cases List.mem_singleton.1 ho
  | notified _ sock notice reply =>
      constructor
      · intro item hitem o ho
        rcases Sb.mem_items_notified hitem with hitem | heq | ⟨o', ho', heq⟩
        · exact hbrief.items item hitem o ho
        · cases heq.symm.trans ho
        · obtain rfl := Sb.Item.output.inj (heq.symm.trans ho)
          rcases outputs_of_follows hlength h hmem with hnone | ⟨hstatus, -⟩
          · rw [hnone] at ho'
            cases ho'
          · rw [hstatus] at ho'
            exact List.mem_singleton.1 ho'
      · rintro ⟨o, ho⟩
        rcases Sb.mem_items_notified ho with ho | heq | ⟨o', ho', -⟩
        · obtain ⟨method, stream, hrequest, hfound⟩ := hbrief.reason ⟨o, ho⟩
          exact ⟨method, stream, hrequests hrequest, hfound⟩
        · cases heq
        · rcases outputs_of_follows hlength h hmem with hnone | ⟨-, method, stream, rfl, hfound⟩
          · rw [hnone] at ho'
            cases ho'
          · exact ⟨method, stream, List.mem_append_right _ (List.mem_singleton_self _), hfound⟩

namespace Sb

/-- Without the end of the header there is only a status line, if there is anything. -/
theorem response_of_items {starved : Bool} {items : List Item} {files : List (Option Nat)} {state : State} {r : Response}
    (h : Composed starved items files state r)
    (hitems : ∀ item ∈ items, ∀ o, item = .output o → o = .sendStatus 200 (bytes "OK")) :
    r = .none ∨ r = .head 200 (bytes "OK") [] ∧ ∃ o, .output o ∈ items := by
  induction h with
  | nil => exact .inl rfl
  | request _ ih =>
      rcases ih fun item hmem => hitems item (List.mem_append_left _ hmem) with rfl | ⟨rfl, o, ho⟩
      · exact .inl rfl
      · exact .inr ⟨rfl, o, List.mem_append_left _ ho⟩
  | @output items files files' state state' r r' o hcomposed hdoes ih =>
      have hitem : (.output o : Item) ∈ items ++ [.output o] := List.mem_append_right _ (List.mem_singleton_self _)
      obtain rfl := hitems _ hitem o rfl
      have hafter : r' = r ∨ r' = r.withStatus 200 (bytes "OK") := by
        cases hdoes with
        | refused => exact .inl rfl
        | missing => exact .inl rfl
        | done => exact .inr rfl
        | @stuck _ size done rest _ hstages =>
            rcases done with _ | ⟨stage, done⟩
            · exact .inl rfl
            · obtain ⟨rfl, hnil⟩ := List.cons.inj hstages
              rw [(List.append_eq_nil_iff.1 hnil.symm).1]
              exact .inr rfl
      rcases ih fun item hmem => hitems item (List.mem_append_left _ hmem) with rfl | ⟨rfl, o, ho⟩
      · rcases hafter with rfl | rfl
        · exact .inl rfl
        · exact .inr ⟨rfl, _, hitem⟩
      · rcases hafter with rfl | rfl <;> exact .inr ⟨rfl, _, hitem⟩
  | chunk data _ ih =>
      rcases ih fun item hmem => hitems item (List.mem_append_left _ hmem) with rfl | ⟨rfl, o, ho⟩
      · exact .inl rfl
      · exact .inr ⟨rfl, o, List.mem_append_left _ ho⟩

end Sb

/-- No browser is ever sent a whole response: there is a status line, for a request that has a code, and the header that it begins does not end. -/
theorem header_never_ends (hnew : srv.streams = []) (hrun : Run (Sb.pollRounds rounds srv) tr ((), srv'))
    (hacc : (Sb.net srv.sockfd).Accepts .init tr n)
    (hfollows : Follows (redirectHandler path) (⟨false, List.replicate authorizeCodeSize 0⟩, p) tr seen login')
    {q : Sb.Peer} (hseen : n.Seen q) :
    q.sent <+: bytes "HTTP/1.1 200 OK\r\n"
      ∧ (q.sent ≠ [] → ∃ method stream, .request method path stream ∈ q.requests ∧ (codeOf stream).2 = .success) := by
  have hnone : Brief path .new := ⟨by simp [Sb.Peer.new], by simp [Sb.Peer.new]⟩
  have hbrief := Sb.seen_of_accepts hacc hnone
    (fun entry hmem _ _ hchange => Brief.changed List.length_replicate hfollows hmem hchange)
    (fun q hq => by
      rcases hq with hpast | ⟨sock, hpeer⟩
      · cases hpast
      · cases hpeer) q hseen
  obtain ⟨files, state, r, hcomposed, -, hsent⟩ := (Sb.running_of_run hnew hrun hacc).response hseen
  rcases Sb.response_of_items hcomposed hbrief.items with rfl | ⟨rfl, ho⟩
  · have hnothing : q.sent = [] := List.prefix_nil.1 hsent
    rw [hnothing]
    exact ⟨List.nil_prefix, fun hne => absurd rfl hne⟩
  · have htext : (Sb.Response.head 200 (bytes "OK") []).text = bytes "HTTP/1.1 200 OK\r\n" := by decide
    rw [htext] at hsent
    exact ⟨hsent, fun _ => hbrief.reason ho⟩

/-- The browser of the visit. -/
def demoBrowser : Sb.Peer := Sb.visitor demoText demoFollowed Sb.demoAnswer

theorem demoVisit_header : demoBrowser.greeted.sent <+: bytes "HTTP/1.1 200 OK\r\n"
    ∧ ∃ method stream, .request method (bytes "/") stream ∈ demoBrowser.requests ∧ (codeOf stream).2 = .success := by
  have hsome : ((Sb.pollRounds 3 Sb.demoServer).replay (demoVisit ++ Sb.sending)).isSome = true := by decide +kernel
  obtain ⟨⟨_, srv'⟩, hreplay⟩ := Option.isSome_iff_exists.1 hsome
  obtain ⟨seen, login', hfollows⟩ := demoVisit_follows
  have hsending : Follows (redirectHandler (bytes "/")) login' Sb.sending Sb.sending login' :=
    .other _ rfl <| .other _ rfl <| .other _ rfl <| .nil _
  have hvisit := Sb.visit_accepted demoText [1, 2, 4, 8, 16, 32, 64] demoFollowed Sb.demoAnswer
  have hacc := World.accepts_append_iff.2 ⟨_, hvisit, Sb.sending_accepted demoBrowser⟩
  have hheader := header_never_ends rfl (Prog.run_of_replay hreplay) hacc (hfollows.append hsending)
    (.inr ⟨5, Sb.Net.put_self⟩)
  exact ⟨hheader.1, hheader.2 (by decide)⟩

end

end HiveSdk
