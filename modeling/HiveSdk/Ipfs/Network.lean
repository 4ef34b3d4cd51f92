import Mathlib.Data.Part
import Mathlib.Order.Lattice
import HiveSdk.Downloads.Exact
import HiveSdk.Interaction.Growing
import HiveSdk.Nodes.Selection

/-!
# A network that keeps what it is given

The nodes of the IPFS network as one store of contents under identifiers. Nobody takes anything out of it, and an identifier is never given out for a second content; but other clients add to it all the time, so that it may have grown whenever a node answers. A node may refuse any request in any way, and what it sends may be cut short. What it confirms is true: an object is stored under the identifier it gives, has the size it says, and begins with what it sends.
-/

namespace HiveSdk

open Interaction Ipfs Filling

/-- The contents that identifiers have been given out for. -/
abbrev Blocks := Bytes → Part Bytes

/-- What a request wants of a node, read off the way it is put together. -/
inductive Want
  | store (content : Bytes)
  | size (cid : Bytes)
  | content (cid : Bytes)
  | other
  deriving DecidableEq, Repr

def Request.want (req : Request) : Want :=
  match req.method, req.url, req.mime, req.query with
  | .post, .node _ _ path, [(name, content)], [] =>
      if path = bytes "/api/v0/add" ∧ name = bytes "file" then .store content else .other
  | .post, .node _ _ path, [], [(name, cid)] =>
      if path = lsPath ∧ name = bytes "arg" then .size cid
      else if path = catPath ∧ name = bytes "arg" then .content cid
      else .other
  | _, _, _, _ => .other

namespace Env

/-- How a node may answer a request. -/
def Provides (env : Env) (b : Blocks) (req : Request) (reply : Reply) (b' : Blocks) : Prop :=
  match req.want with
  | .store content => b ≤ b' ∧ (reply.answered = some HttpStatus.ok → ∃ json cid, env.Says reply json
      ∧ json.stringItem (bytes "Hash") = some cid ∧ content ∈ b' cid)
  | .size cid => b ≤ b' ∧ (reply.answered = some HttpStatus.ok → ∃ json content, env.Says reply json
      ∧ lsSize json cid = some (content.length : Int) ∧ content ∈ b' cid)
  | .content cid => b ≤ b' ∧ (reply.answered = some HttpStatus.ok →
      ∃ content ∈ b' cid, reply.body <+: content)
  | .other => b' = b

/-- The answers about an object that the network has, on a day without incidents. -/
structure Whole (b : Blocks) (req : Request) (reply : Reply) : Prop where
  body_size : reply.body.length < 2 ^ 60
  size : ∀ cid content, req.want = .size cid → content ∈ b cid → reply.answered = some HttpStatus.ok
  room : ∀ cid, req.want = .size cid → reply.LeavesRoom
  content : ∀ cid content, req.want = .content cid → content ∈ b cid →
    reply.answered = some HttpStatus.ok ∧ reply.body = content

/-- The exchange of a request. No piece of a body is larger than what is received at once. -/
structure Fetches (env : Env) (b : Blocks) (req : Request) (reply : Reply) (b' : Blocks) : Prop where
  provides : env.Provides b req reply b'
  pieces : ∀ chunk ∈ reply.chunks, chunk.length < 2 ^ 32
  whole : env.reliable → Whole b req reply

/-- The network as the world of one client. -/
def network (env : Env) : World Event Event.Answer Blocks where
  pre _ e := e = .undefined ∨ e = .diverge → ¬ env.reliable
  step b e r b' := match e, r with
    | .perform req, reply => env.Fetches b req reply b'
    | e, r => env.Replies e r ∧ b' = b

variable {env : Env} {b b' : Blocks}

@[simp] theorem network_pre (e : Event) :
    env.network.pre b e ↔ (e = .undefined ∨ e = .diverge → ¬ env.reliable) := Iff.rfl

@[simp] theorem network_perform {req : Request} {reply : Reply} :
    env.network.step b (.perform req) reply b' ↔ env.Fetches b req reply b' := Iff.rfl

theorem network_local {e : Event} {r : e.Answer} (he : isLocal e) :
    env.network.step b e r b' ↔ env.Replies e r ∧ b' = b := by
  cases e <;> first | exact Iff.rfl | exact absurd he Bool.false_ne_true

theorem Provides.le {req : Request} {reply : Reply} (h : env.Provides b req reply b') : b ≤ b' := by
  rw [Provides] at h
  cases hwant : req.want <;> rw [hwant] at h
  case other => exact (show b' = b from h).ge
  all_goals exact h.1

theorem network_grows : env.network.Grows := by
  intro b e r b' hstep
  cases e with
  | perform req => exact (network_perform.1 hstep).provides.le
  | _ => exact hstep.2.ge

/-- What an identifier stands for does not change. -/
theorem mem_of_le {cid content : Bytes} (hle : b ≤ b') (h : content ∈ b cid) : content ∈ b' cid :=
  hle cid content h

end Env

/-! ### Calls and requests -/

section
variable {env : Env} {σ : Type} {p : Process σ} {b : Blocks}

namespace Ipfs

theorem wp_call_network {e : Event} (he : Env.isLocal e) {Q : e.Answer → Process σ → Blocks → Prop} :
    Proc.wp env.network (call e) Q p b ↔ ∀ r, env.Replies e r → Q r p b := by
  rw [Proc.wp_call]
  constructor
  · intro h r hr
    exact h.2 r b ((Env.network_local he).2 ⟨hr, rfl⟩)
  · intro h
    refine ⟨fun hne => ?_, fun r b' hstep => ?_⟩
    · rcases hne with rfl | rfl <;> cases he
    · obtain ⟨hr, rfl⟩ := (Env.network_local he).1 hstep
      exact h r hr

/-- What the client makes of a reply when it keeps the body. -/
structure Kept (env : Env) (reply : Reply) (rc : CurlCode) (response : ResponseBody) : Prop where
  code : rc = 0 → reply.code = 0
  holds : rc = 0 → reply.body.length < 2 ^ 60 → response.Holds reply
  failed : rc ≠ 0 → env.reliable → reply.body.length < 2 ^ 60 → reply.code ≠ 0

theorem wp_requestBody {req : Request} {Q : CurlCode × Reply × ResponseBody → Process σ → Blocks → Prop}
    (h : ∀ rc reply response b', env.Fetches b req reply b' → Kept env reply rc response →
      Q (rc, reply, response) p b') :
    Proc.wp env.network (httpClientRequestBody req) Q p b := by
  simp only [httpClientRequestBody, Proc.wp_bind, Proc.wp_call]
  refine ⟨by simp, fun reply b' hreply => ?_⟩
  have hwrite : CurlE.writeError ≠ 0 := by decide
  have hpre : ∀ n, env.network.pre b' (.realloc n) := fun n => by simp
  have hquiet : ∀ n ok u, env.network.step b' (.realloc n) ok u → u = b' := fun n ok u hstep =>
    ((Env.network_local rfl).1 hstep).2
  by_cases hsize : reply.body.length < 2 ^ 60
  · apply wp_deliver hpre (fun n u => hquiet n true u) ResponseBody.empty_wellSized
    · simpa [ResponseBody.empty, Reply.body] using hsize
    · intro response hused hcontents hafter
      exact h _ reply response b' hreply
        ⟨fun hrc => hrc, fun _ _ => .of_delivered hused hcontents hafter, fun hrc _ _ => hrc⟩
    · intro n u hfailed response
      obtain rfl := hquiet n false u hfailed
      have hincident : ¬ env.reliable := fun hreliable => by
        have hok := ((Env.network_local rfl).1 hfailed).1 hreliable
        cases hok
      exact h _ reply response _ hreply ⟨fun hrc => absurd hrc hwrite, fun hrc => absurd hrc hwrite,
        fun _ hreliable => absurd hreliable hincident⟩
  · apply wp_deliver_any (I := (· = b'))
    · rintro u n rfl
      exact hpre n
    · rintro u n ok v rfl hstep
      exact hquiet n ok v hstep
    · rfl
    rintro response taken u rfl
    refine h _ reply response _ hreply ⟨fun hrc => ?_, fun _ hsize' => absurd hsize' hsize,
      fun _ _ hsize' => absurd hsize' hsize⟩
    cases taken with
    | false => exact absurd hrc hwrite
    | true => exact hrc

theorem wp_parse {block : HeapBlock} {Q : Option Json → Process σ → Blocks → Prop}
    (hroom : env.reliable → block.spare ≠ 0)
    (h : ∀ rest json, json = env.parse (cString (block.contents ++ rest)) ∨ ¬ env.reliable ∧ json = none →
      Q json p b) :
    Proc.wp env.network (cjsonParse block) Q p b := by
  rw [cjsonParse, Proc.wp_bind, wp_call_network rfl]
  intro rest hrest
  rw [Proc.wp_ite, wp_call_network rfl, wp_undefinedBehaviour]
  refine ⟨fun _ json hjson => h rest json hjson, fun hopen _ hreliable => ?_⟩
  exact hopen (List.mem_append_right _ (hrest hreliable (hroom hreliable)))

/-- An answer that says something is read as what it says. -/
theorem wp_parse_says {reply : Reply} {response : ResponseBody} {json : Json}
    {Q : Option Json → Process σ → Blocks → Prop} (htold : env.Says reply json) (hholds : response.Holds reply)
    (hroom : env.reliable → reply.LeavesRoom) (hok : Q (some json) p b) (hfail : ¬ env.reliable → Q none p b) :
    Proc.wp env.network (cjsonParse response.block) Q p b := by
  apply wp_parse fun hreliable => hholds.spare_ne_zero (hroom hreliable)
  intro rest parsed hparsed
  rw [show response.block.contents = _ from hholds.contents] at hparsed
  rcases hparsed with rfl | ⟨hincident, rfl⟩
  · rw [htold.parses rest]
    exact hok
  · exact hfail hincident

end Ipfs

end

end HiveSdk
