import HiveSdk.Model.Connect

/-!
# A drive that does not lie

The drive as a map from item paths to bytes, with the upload and download URLs it has handed out. It may refuse any request with any status and any transport error, and a request that is not confirmed may have been carried out or not; but what it confirms has happened, an item it reports absent is absent, and the sizes and contents it sends are those of the item. The token endpoint may answer anything.
-/

namespace HiveSdk

open Interaction

structure Drive where
  items : Bytes → Option Bytes
  uploads : Bytes → Option Bytes
  downloads : Bytes → Option Bytes

/-- The content of an item, nothing for an absent one. -/
def Drive.content (d : Drive) (path : Bytes) : Bytes := (d.items path).getD []

/-- No item has 2^31 bytes or more. -/
def Drive.Small (d : Drive) : Prop :=
  ∀ path content, d.items path = some content → content.length < 2 ^ 31

def Drive.put (d : Drive) (path content : Bytes) : Drive :=
  { d with items := Function.update d.items path (some content) }

def Drive.remove (d : Drive) (path : Bytes) : Drive :=
  { d with items := Function.update d.items path none }

theorem Drive.put_items_self (d : Drive) (path content : Bytes) :
    (d.put path content).items path = some content := Function.update_self ..

theorem Drive.Small.put {d : Drive} {path content : Bytes} (h : d.Small)
    (hcontent : content.length < 2 ^ 31) : (d.put path content).Small := by
  intro path' content' hitem
  simp only [Drive.put] at hitem
  by_cases hpath : path' = path
  · rw [hpath, Function.update_self] at hitem
    rwa [← Option.some.inj hitem]
  · rw [Function.update_of_ne hpath] at hitem
    exact h path' content' hitem

theorem Drive.Small.remove {d : Drive} {path : Bytes} (h : d.Small) : (d.remove path).Small := by
  intro path' content hitem
  simp only [Drive.remove] at hitem
  by_cases hpath : path' = path
  · rw [hpath, Function.update_self] at hitem
    cases hitem
  · rw [Function.update_of_ne hpath] at hitem
    exact h path' content hitem

/-- What a request does to the drive, read off its method and URL. -/
inductive Access
  | info (path : Bytes)
  | content (path : Bytes)
  | session (path : Bytes)
  | remove (path : Bytes)
  | upload (url : Bytes)
  | fetch (url : Bytes)
  | token
  | other
  deriving DecidableEq, Repr

def Request.access (req : Request) : Access :=
  match req.method, req.url with
  | .get, .item path suffix => if suffix = [] then .info path else .other
  | .put, .item path suffix => if suffix = bytes ":/content" then .content path else .other
  | .post, .item path suffix =>
      if suffix = bytes ":/createUploadSession" then .session path else .other
  | .delete, .item path suffix => if suffix = bytes ":" then .remove path else .other
  | .put, .upload url => .upload url
  | .get, .download url => .fetch url
  | .post, .token _ => .token
  | _, _ => .other

/-- The request asks for a field of an item, in its list between commas. -/
def Request.Selects (req : Request) (field : Bytes) : Prop :=
  ∃ fields, (bytes "select", fields) ∈ req.query ∧ field ∈ fields.splitOn 44

theorem Request.method_of_token {req : Request} (h : req.access = .token) : req.method = .post := by
  rw [access] at h
  split at h
  case h_7 hmethod _ => exact hmethod
  all_goals first
    | cases h
    | (split at h <;> cases h)

/-- The status that the client gets to see. -/
def Reply.answered (reply : Reply) : Option StatusCode :=
  if reply.code = 0 ∧ reply.info = 0 then some reply.status else none

def Reply.body (reply : Reply) : Bytes := reply.chunks.flatten

/-- The buffer of the client holds the body of the reply. -/
structure ResponseBody.Holds (response : ResponseBody) (reply : Reply) : Prop where
  used : response.used = reply.body.length
  contents : response.contents = reply.body
  sz : response.sz = allocation reply.chunks

theorem ResponseBody.Holds.of_delivered {response : ResponseBody} {reply : Reply}
    (hused : response.used = ResponseBody.empty.used + reply.chunks.flatten.length)
    (hcontents : response.contents = ResponseBody.empty.contents ++ reply.chunks.flatten)
    (hafter : response = ResponseBody.empty.after reply.chunks) : response.Holds reply where
  used := hused.trans (Nat.zero_add _)
  contents := hcontents
  sz := congrArg ResponseBody.sz hafter

/-- An answer leaves a byte of the block over that it is collected in. -/
def Reply.LeavesRoom (reply : Reply) : Prop := reply.body.length < allocation reply.chunks

theorem ResponseBody.Holds.spare_ne_zero {response : ResponseBody} {reply : Reply}
    (h : response.Holds reply) (hroom : reply.LeavesRoom) : response.block.spare ≠ 0 := by
  rw [Reply.LeavesRoom, ← h.sz, ← h.used] at hroom
  exact Nat.sub_ne_zero_of_lt hroom

/-- A confirmed upload. -/
def Reply.stored (reply : Reply) : Prop :=
  reply.answered = some HttpStatus.ok ∨ reply.answered = some HttpStatus.created

instance (reply : Reply) : Decidable reply.stored := inferInstanceAs (Decidable (_ ∨ _))

/-- The rest of the environment: the JSON parser, the clock, and whether everything works that can be relied on in a day without incidents: there is memory, what is left over of a block is not without a zero, and the drive answers. -/
structure Env where
  parse : Bytes → Option Json
  clock : Timeval → Prop
  reliable : Prop

namespace Env

/-- The same parser and clock on a day on which anything may fail. -/
def adverse (env : Env) : Env := { env with reliable := False }

/-- The same parser and clock on a day without incidents. -/
def dependable (env : Env) : Env := { env with reliable := True }

/-- The body parses as `json`, whatever follows it in memory. -/
structure Says (env : Env) (reply : Reply) (json : Json) : Prop where
  body_ne_nil : reply.body ≠ []
  body_size : reply.body.length < 2 ^ 60
  parses : ∀ rest, env.parse (cString (reply.body ++ rest)) = some json

/-- An upload to `path`: it happens if it is confirmed, and otherwise it may have happened. -/
def Stores (d : Drive) (path : Bytes) (req : Request) (reply : Reply) (d' : Drive) : Prop :=
  if reply.stored then d' = d.put path req.body else d' = d ∨ d' = d.put path req.body

/-- What a look-up has left: a download URL, if the answer names one, which it does if the request asks for it. -/
def Names (d : Drive) (path : Bytes) (req : Request) (json : Json) (d' : Drive) : Prop :=
  match json.stringItem (bytes "@microsoft.graph.downloadUrl") with
  | some url => d' = { d with downloads := Function.update d.downloads url (some path) }
  | none => ¬ req.Selects (bytes "@microsoft.graph.downloadUrl") ∧ d' = d

/-- How the drive may serve a request. -/
def Serves (env : Env) (d : Drive) (req : Request) (reply : Reply) (d' : Drive) : Prop :=
  match req.access with
  | .info path =>
      (reply.answered = some HttpStatus.notFound → d.items path = none) ∧
      (reply.answered = some HttpStatus.ok → ∃ content json, d.items path = some content
        ∧ env.Says reply json ∧ json.sizeItem (bytes "size") = some (content.length : Int)
        ∧ Names d path req json d') ∧
      (reply.answered ≠ some HttpStatus.ok → d' = d)
  | .content path => Stores d path req reply d'
  | .session path =>
      if reply.answered = some HttpStatus.ok then ∃ json url, env.Says reply json
        ∧ json.stringItem (bytes "uploadUrl") = some url
        ∧ d' = { d with uploads := Function.update d.uploads url (some path) }
      else d' = d
  | .remove path =>
      (reply.answered = some HttpStatus.notFound → d.items path = none ∧ d' = d) ∧
      (reply.answered = some HttpStatus.noContent → d' = d.remove path) ∧
      (d' = d ∨ d' = d.remove path)
  | .upload url => match d.uploads url with
      | some path => Stores d path req reply d'
      | none => d' = d
  | .fetch url => d' = d ∧ (reply.answered = some HttpStatus.ok → ∃ path content,
      d.downloads url = some path ∧ d.items path = some content ∧ reply.body = content)
  | .token | .other => d' = d

/-- The answers to a look-up and to a download on such a day. -/
structure Good (d : Drive) (req : Request) (reply : Reply) : Prop where
  size : reply.body.length < 2 ^ 60
  room : ∀ path, req.access = .info path → reply.LeavesRoom
  info : ∀ path, req.access = .info path →
    reply.answered = some HttpStatus.ok ∨ reply.answered = some HttpStatus.notFound
  fetch : ∀ url path content, req.access = .fetch url → d.downloads url = some path →
    d.items path = some content → reply.answered = some HttpStatus.ok

end Env

/-! ### The world of one client -/

abbrev Exchange := Request × Reply

/-- A call of the values callback, with what it returned. -/
abbrev Callback := Bytes × Bytes × Bool

/-- The drive, and the exchanges and callbacks so far. -/
structure Served where
  drive : Drive
  history : List Exchange
  callbacks : List Callback

namespace Env

/-- The exchange of a request in this environment. -/
structure Exchanges (env : Env) (s : Served) (req : Request) (reply : Reply) (t : Served) : Prop where
  serves : env.Serves s.drive req reply t.drive
  history : t.history = s.history ++ [(req, reply)]
  callbacks : t.callbacks = s.callbacks
  small : s.drive.Small → t.drive.Small
  good : env.reliable → Good s.drive req reply

/-- The answers to the calls that are not requests. -/
def Replies (env : Env) : (e : Event) → e.Answer → Prop
  | .gettimeofday, now => env.clock now
  | .heapAfter block, rest => env.reliable → block.spare ≠ 0 → 0 ∈ rest.take block.spare
  | .cjsonParse text, json => json = env.parse text ∨ ¬ env.reliable ∧ json = none
  | .alloc _, ok | .realloc _, ok | .httpClientNew _, ok => env.reliable → ok = true
  | _, _ => True

/-- Only in a reliable environment is it the program that has to see to it that nothing undefined happens. -/
def world (env : Env) : World Event Event.Answer Served where
  pre _ e := e = .undefined ∨ e = .diverge → ¬ env.reliable
  step s e r t := match e, r with
    | .perform req, reply => env.Exchanges s req reply t
    | .valuesCallback key value, proceed =>
        t = { s with callbacks := s.callbacks ++ [(key, value, proceed)] }
    | e, r => env.Replies e r ∧ t = s

variable {env : Env} {s t : Served}

@[simp] theorem world_pre (e : Event) :
    env.world.pre s e ↔ (e = .undefined ∨ e = .diverge → ¬ env.reliable) := Iff.rfl

@[simp] theorem step_perform {req : Request} {reply : Reply} :
    env.world.step s (.perform req) reply t ↔ env.Exchanges s req reply t := Iff.rfl

@[simp] theorem step_valuesCallback {key value : Bytes} {proceed : Bool} :
    env.world.step s (.valuesCallback key value) proceed t
      ↔ t = { s with callbacks := s.callbacks ++ [(key, value, proceed)] } := Iff.rfl

/-- The calls that leave no mark in the world. -/
def isLocal : Event → Bool
  | .perform _ | .valuesCallback _ _ | .undefined | .diverge => false
  | _ => true

theorem step_local {e : Event} {r : e.Answer} (he : isLocal e) :
    env.world.step s e r t ↔ env.Replies e r ∧ t = s := by
  cases e <;> first | exact Iff.rfl | exact absurd he Bool.false_ne_true

/-- The world after an exchange that leaves the drive as `d`. -/
def after (s : Served) (req : Request) (reply : Reply) (d : Drive) : Served :=
  ⟨d, s.history ++ [(req, reply)], s.callbacks⟩

theorem accepts_exchange {req : Request} {reply : Reply} {d : Drive} {tr : Trace}
    (hserves : env.Serves s.drive req reply d) (hsmall : s.drive.Small → d.Small)
    (hgood : env.reliable → Good s.drive req reply)
    (h : env.world.Accepts (after s req reply d) tr t) :
    env.world.Accepts s (⟨.perform req, reply⟩ :: tr) t := by
  have hexchange : env.Exchanges s req reply (after s req reply d) :=
    ⟨hserves, rfl, rfl, hsmall, hgood⟩
  exact .cons hexchange h

theorem accepts_perform {req : Request} {reply : Reply} {d : Drive} {tr : Trace}
    (hserves : env.adverse.Serves s.drive req reply d) (hsmall : s.drive.Small → d.Small)
    (h : env.adverse.world.Accepts (after s req reply d) tr t) :
    env.adverse.world.Accepts s (⟨.perform req, reply⟩ :: tr) t :=
  accepts_exchange hserves hsmall False.elim h

theorem accepts_local {e : Event} {r : e.Answer} {tr : Trace} (he : isLocal e)
    (hr : env.Replies e r) (h : env.world.Accepts s tr t) :
    env.world.Accepts s (⟨e, r⟩ :: tr) t := .cons ((step_local he).2 ⟨hr, rfl⟩) h

end Env

/-! ### What a trace shows -/

def exchanges (tr : Trace) : List Exchange :=
  tr.filterMap fun entry => match entry with
    | ⟨.perform req, reply⟩ => some (req, reply)
    | _ => none

def callbacks (tr : Trace) : List Callback :=
  tr.filterMap fun entry => match entry with
    | ⟨.valuesCallback key value, proceed⟩ => some (key, value, proceed)
    | _ => none

/-- What the world has recorded is what the trace shows. -/
theorem Env.recorded {env : Env} {s t : Served} {tr : Trace} (h : env.world.Accepts s tr t) :
    t.history = s.history ++ exchanges tr ∧ t.callbacks = s.callbacks ++ callbacks tr := by
  induction h with
  | nil s => simp [exchanges, callbacks]
  | @cons s t u e r tr hstep hrest ih =>
      obtain ⟨hhistory, hcallbacks⟩ := ih
      cases e with
      | perform req =>
          rw [hhistory, hcallbacks, (Env.step_perform.1 hstep).history,
            (Env.step_perform.1 hstep).callbacks, List.append_assoc]
          exact ⟨rfl, rfl⟩
      | valuesCallback key value =>
          rw [hhistory, hcallbacks, Env.step_valuesCallback.1 hstep, List.append_assoc]
          exact ⟨rfl, rfl⟩
      | undefined | diverge => exact r.elim
      | _ =>
          rw [hhistory, hcallbacks, ((Env.step_local rfl).1 hstep).2]
          exact ⟨rfl, rfl⟩

/-! ### Stretches of exchanges -/

/-- The bodies of the uploads. -/
def puts (exchanged : List Exchange) : List Bytes :=
  (exchanged.filter fun x => x.1.method = .put).map fun x => x.1.body

@[simp] theorem puts_append (xs ys : List Exchange) : puts (xs ++ ys) = puts xs ++ puts ys := by
  simp [puts]

/-- The first thing that happens is that the token endpoint answers 404. -/
def Refused (exchanged : List Exchange) : Prop :=
  ∃ x, exchanged.head? = some x ∧ x.1.access = .token
    ∧ x.2.answered = some HttpStatus.notFound

theorem refused_append {xs : List Exchange} (hne : xs ≠ []) (ys : List Exchange) :
    Refused (xs ++ ys) ↔ Refused xs := by
  obtain ⟨x, rest, rfl⟩ := List.exists_cons_of_ne_nil hne
  rfl

/-- Exchanges without an upload or a deletion. -/
structure Quiet (s t : Served) (exchanged : List Exchange) : Prop where
  items : t.drive.items = s.drive.items
  small : s.drive.Small → t.drive.Small
  callbacks : t.callbacks = s.callbacks
  history : t.history = s.history ++ exchanged
  puts : puts exchanged = []

namespace Quiet

theorem refl (s : Served) : Quiet s s [] :=
  ⟨rfl, fun h => h, rfl, (List.append_nil _).symm, rfl⟩

theorem trans {s t u : Served} {xs ys : List Exchange} (h : Quiet s t xs) (h' : Quiet t u ys) :
    Quiet s u (xs ++ ys) where
  items := h'.items.trans h.items
  small := fun hsmall => h'.small (h.small hsmall)
  callbacks := h'.callbacks.trans h.callbacks
  history := by rw [h'.history, h.history, List.append_assoc]
  puts := by rw [puts_append, h.puts, h'.puts, List.append_nil]

end Quiet

namespace Access

def isRead : Access → Bool
  | .info _ | .session _ | .fetch _ | .token | .other => true
  | _ => false

end Access

theorem Env.Names.items_eq {d d' : Drive} {path : Bytes} {req : Request} {json : Json}
    (h : Names d path req json d') : d'.items = d.items := by
  rw [Names] at h
  split at h
  · rw [h]
  · rw [h.2]

theorem Env.Serves.items_eq {env : Env} {d d' : Drive} {req : Request} {reply : Reply}
    (h : env.Serves d req reply d') (hread : req.access.isRead) : d'.items = d.items := by
  rw [Env.Serves] at h
  rcases haccess : req.access with path | path | path | path | url | url | _ | _ <;>
    rw [haccess] at h hread
  · obtain ⟨-, hok, helse⟩ := h
    by_cases hanswered : reply.answered = some HttpStatus.ok
    · obtain ⟨content, json, -, -, -, hnames⟩ := hok hanswered
      exact hnames.items_eq
    · rw [helse hanswered]
  · cases hread
  · dsimp only at h
    split at h
    · obtain ⟨json, url, -, -, hdrive⟩ := h
      rw [hdrive]
    · rw [h]
  · cases hread
  · cases hread
  · rw [h.1]
  · exact congrArg Drive.items h
  · exact congrArg Drive.items h

theorem Env.Exchanges.quiet {env : Env} {s t : Served} {req : Request} {reply : Reply}
    (h : env.Exchanges s req reply t) (hread : req.access.isRead) (hput : req.method ≠ .put) :
    Quiet s t [(req, reply)] where
  items := h.serves.items_eq hread
  small := h.small
  callbacks := h.callbacks
  history := h.history
  puts := by simp [HiveSdk.puts, hput]

end HiveSdk
