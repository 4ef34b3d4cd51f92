import HiveSdk.Model.Env

/-!
# The HTTP client

The part of `http_client.c` that is not a thin layer over curl: the response body, which grows by doubling while its pieces are delivered, and is moved out of the client afterwards. The text handed to the JSON parser is whatever C string starts at the moved block, so it may go on past the body, and it has to end inside the block.
-/

namespace HiveSdk

open Interaction

variable {σ : Type}

/-- `http_response_body_t`. `data` is what has been written to the allocation of `sz` bytes. -/
structure ResponseBody where
  used : Nat
  sz : Nat
  data : Bytes
  deriving DecidableEq, Repr

namespace ResponseBody

def empty : ResponseBody := ⟨0, 0, []⟩

def contents (r : ResponseBody) : Bytes := r.data.take r.used

/-- The allocation, as it is given away. -/
def block (r : ResponseBody) : HeapBlock := ⟨r.contents, r.sz - r.used⟩

/-- `memcpy` of a piece behind the used bytes. -/
def append (r : ResponseBody) (chunk : Bytes) (sz : Nat) : ResponseBody where
  used := cSize (r.used + chunk.length)
  sz := sz
  data := r.data.take r.used ++ chunk ++ r.data.drop (r.used + chunk.length)

end ResponseBody

/-- The doubling loop, and the exact size it falls back to when doubling wraps around. -/
def growSize (target newSz lastTry : Nat) : Nat :=
  if lastTry < newSz ∧ newSz ≤ target then growSize target (cSize (2 * newSz)) newSz
  else if newSz ≤ lastTry then target
  else newSz
termination_by target + 1 - lastTry

def ResponseBody.newSize (r : ResponseBody) (length : Nat) : Nat :=
  growSize (cSize (r.sz + length)) (if r.sz = 0 then 512 else cSize (2 * r.sz)) r.sz

def httpResponseBodyWriteCallback (r : ResponseBody) (chunk : Bytes) :
    Hive σ (ResponseBody × Nat) := do
  let length := chunk.length
  if cSize (r.sz - r.used) < length then
    if cSize (r.sz + length) < r.sz then return ({ r with used := 0 }, 0)
    if ← call (Event.realloc (r.newSize length)) then
      return (r.append chunk (r.newSize length), length)
    return ({ r with used := 0 }, 0)
  return (r.append chunk r.sz, length)

/-- curl hands the pieces over one by one and gives up when a piece is not taken. -/
def deliver : ResponseBody → List Bytes → Hive σ (ResponseBody × Bool)
  | r, [] => return (r, true)
  | r, chunk :: chunks => do
      let (r, taken) ← httpResponseBodyWriteCallback r chunk
      if taken = chunk.length then deliver r chunks
      else return (r, false)

/-- `http_client_request` when the body is eaten. -/
def httpClientRequest (req : Request) : Hive σ (CurlCode × Reply) := do
  let reply ← call (Event.perform req)
  return (reply.code, reply)

/-- `http_client_request` after `http_client_enable_response_body`. -/
def httpClientRequestBody (req : Request) : Hive σ (CurlCode × Reply × ResponseBody) := do
  let reply ← call (Event.perform req)
  let (r, taken) ← deliver .empty reply.chunks
  return (if taken then reply.code else CurlE.writeError, reply, r)

/-- `http_client_move_response_body`; `len` says whether the caller passes an output pointer. -/
def httpClientMoveResponseBody (r : ResponseBody) (len : Bool) : Hive σ (Option HeapBlock) :=
  if r.used = 0 then
    -- the source stores the length before it looks at the pointer
    if len then return none else undefinedBehaviour
  else return some r.block

/-- What a move leaves in the client: nothing, once the block has been given away. -/
def leftByMove (r : ResponseBody) : ResponseBody := if r.used = 0 then r else .empty

/-- What `http_client_reset` does to the response body. The block is kept. -/
def httpClientReset (r : ResponseBody) : ResponseBody := { r with used := 0 }

/-- `cJSON_Parse` on a heap block, for whose end it looks with `strlen`. Where no byte of the block is zero, that reads past the allocation. -/
def cjsonParse (block : HeapBlock) : Hive σ (Option Json) := do
  let rest ← call (Event.heapAfter block)
  if 0 ∈ block.contents ++ rest.take block.spare then
    call (Event.cjsonParse (cString (block.contents ++ rest)))
  else undefinedBehaviour

/-! ### What the pieces make of the buffer -/

namespace ResponseBody

/-- The allocation after room has been made for a piece. -/
def roomFor (r : ResponseBody) (chunk : Bytes) : Nat :=
  if cSize (r.sz - r.used) < chunk.length then r.newSize chunk.length else r.sz

/-- The buffer that has taken the pieces. -/
def after (r : ResponseBody) : List Bytes → ResponseBody
  | [] => r
  | chunk :: chunks => after (r.append chunk (r.roomFor chunk)) chunks

end ResponseBody

/-- The size of the block that a body in these pieces is collected in. -/
def allocation (chunks : List Bytes) : Nat := (ResponseBody.empty.after chunks).sz

/-! ### Sizes -/

theorem growSize_le {target newSz lastTry : Nat} (h : newSz ≤ 2 * target + 512) :
    growSize target newSz lastTry ≤ 2 * target + 512 := by
  fun_induction growSize target newSz lastTry with
  | case1 newSz lastTry hstep ih =>
      apply ih
      have hwrap : cSize (2 * newSz) ≤ 2 * newSz := by
        unfold cSize
        omega
      omega
  | case2 newSz lastTry hstop hwrapped => omega
  | case3 newSz lastTry hstop hfits => exact h

theorem le_growSize (target newSz lastTry : Nat) : target ≤ growSize target newSz lastTry := by
  fun_induction growSize target newSz lastTry with
  | case1 newSz lastTry hstep ih => exact ih
  | case2 newSz lastTry hstop hwrapped => omega
  | case3 newSz lastTry hstop hfits => omega

namespace ResponseBody

/-- What the write callback keeps of a body of moderate size. -/
structure WellSized (r : ResponseBody) : Prop where
  used_le_sz : r.used ≤ r.sz
  sz_le : r.sz ≤ 4 * r.used + 512
  used_le_data : r.used ≤ r.data.length

theorem empty_wellSized : empty.WellSized := ⟨Nat.le_refl _, by simp [empty], by simp [empty]⟩

theorem append_contents {r : ResponseBody} {chunk : Bytes} {sz : Nat} (hdata : r.used ≤ r.data.length)
    (hfits : r.used + chunk.length < 2 ^ 64) :
    (r.append chunk sz).used = r.used + chunk.length
      ∧ (r.append chunk sz).contents = r.contents ++ chunk
      ∧ (r.append chunk sz).used ≤ (r.append chunk sz).data.length := by
  have hused : cSize (r.used + chunk.length) = r.used + chunk.length := by
    unfold cSize
    omega
  have htake : (r.data.take r.used).length = r.used := List.length_take_of_le hdata
  refine ⟨hused, ?_, ?_⟩
  · simp only [contents, append, hused]
    rw [List.take_append_of_le_length (by simp [htake])]
    exact List.take_of_length_le (by simp [htake])
  · simp only [append, hused, List.length_append, htake]
    omega

theorem newSize_bounds {r : ResponseBody} {length : Nat} (hr : r.WellSized)
    (hfits : r.used + length < 2 ^ 60) (hgrow : r.sz < r.used + length) :
    r.used + length ≤ r.newSize length ∧ r.newSize length ≤ 4 * (r.used + length) + 512 := by
  have hle := hr.used_le_sz
  have htarget : cSize (r.sz + length) = r.sz + length := by
    unfold cSize
    omega
  have hdouble : cSize (2 * r.sz) ≤ 2 * r.sz := by
    unfold cSize
    omega
  have hlow := le_growSize (r.sz + length) (if r.sz = 0 then 512 else cSize (2 * r.sz)) r.sz
  have hhigh : growSize (r.sz + length) (if r.sz = 0 then 512 else cSize (2 * r.sz)) r.sz
      ≤ 2 * (r.sz + length) + 512 := growSize_le (by split <;> omega)
  rw [newSize, htarget]
  omega

end ResponseBody

/-! ### Specifications -/

section
variable {τ : Type} {W : World Event Event.Answer τ} {p : Process σ} {s : τ}

theorem wp_writeCallback {r : ResponseBody} {chunk : Bytes}
    {Q : ResponseBody × Nat → Process σ → τ → Prop}
    (hpre : ∀ n, W.pre s (.realloc n)) (hquiet : ∀ n t, W.step s (.realloc n) true t → t = s)
    (hr : r.WellSized) (hfits : r.used + chunk.length < 2 ^ 60)
    (hok : ∀ r' : ResponseBody, r'.WellSized → r'.used = r.used + chunk.length →
      r'.contents = r.contents ++ chunk → r' = r.append chunk (r.roomFor chunk) → Q (r', chunk.length) p s)
    (hfail : ∀ n t, W.step s (.realloc n) false t → chunk ≠ [] → ∀ r', Q (r', 0) p t) :
    Proc.wp W (httpResponseBodyWriteCallback r chunk) Q p s := by
  have hle := hr.used_le_sz
  have hsz := hr.sz_le
  have hcounted : r.used + chunk.length < 2 ^ 64 := by omega
  have hroom : cSize (r.sz - r.used) = r.sz - r.used := by
    unfold cSize
    omega
  have hnowrap : cSize (r.sz + chunk.length) = r.sz + chunk.length := by
    unfold cSize
    omega
  rw [ResponseBody.roomFor, hroom] at hok
  simp only [httpResponseBodyWriteCallback, hroom, hnowrap, Proc.wp_ite, Proc.wp_pure,
    Proc.wp_bind, Proc.wp_call]
  refine ⟨fun hgrow => ⟨fun hwrap => by omega, fun _ => ⟨hpre _, fun ok t hstep => ?_⟩⟩,
    fun hroomy => ?_⟩
  · have hne : chunk ≠ [] := by
      rintro rfl
      simp at hgrow
    cases ok with
    | false => exact ⟨fun h => by simp at h, fun _ => hfail _ t hstep hne _⟩
    | true =>
        obtain rfl := hquiet _ _ hstep
        refine ⟨fun _ => ?_, fun h => absurd rfl h⟩
        obtain ⟨hlow, hhigh⟩ := ResponseBody.newSize_bounds hr hfits (by omega)
        obtain ⟨hused, hcontents, hdata⟩ := ResponseBody.append_contents hr.used_le_data hcounted
        exact hok _ ⟨hused ▸ hlow, hused ▸ hhigh, hdata⟩ hused hcontents (by rw [if_pos hgrow])
  · obtain ⟨hused, hcontents, hdata⟩ := ResponseBody.append_contents hr.used_le_data hcounted
    have hsz' : (r.append chunk r.sz).sz = r.sz := rfl
    exact hok _ ⟨by omega, by omega, hdata⟩ hused hcontents (by rw [if_neg hroomy])

/-- Unless an allocation fails, the buffer ends up with the pieces one after another. -/
theorem wp_deliver {chunks : List Bytes} {Q : ResponseBody × Bool → Process σ → τ → Prop}
    (hpre : ∀ n, W.pre s (.realloc n)) (hquiet : ∀ n t, W.step s (.realloc n) true t → t = s)
    {r : ResponseBody} (hr : r.WellSized) (hfits : r.used + chunks.flatten.length < 2 ^ 60)
    (hok : ∀ r' : ResponseBody, r'.used = r.used + chunks.flatten.length →
      r'.contents = r.contents ++ chunks.flatten → r' = r.after chunks → Q (r', true) p s)
    (hfail : ∀ n t, W.step s (.realloc n) false t → ∀ r', Q (r', false) p t) :
    Proc.wp W (deliver r chunks) Q p s := by
  induction chunks generalizing r with
  | nil => exact hok r (by simp) (by simp) rfl
  | cons chunk chunks ih =>
      rw [List.flatten_cons, List.length_append] at hfits
      rw [deliver, Proc.wp_bind]
      refine wp_writeCallback hpre hquiet hr (by omega) (fun r' hr' hused hcontents hafter => ?_)
        (fun n t hstep hne r' => ?_)
      · dsimp only
        rw [if_pos rfl]
        refine ih hr' (by omega) (fun r'' hused' hcontents' hafter' => hok r'' ?_ ?_ ?_)
        · rw [hused', hused, List.flatten_cons, List.length_append]
          omega
        · rw [hcontents', hcontents, List.flatten_cons, List.append_assoc]
        · rw [hafter', hafter, ResponseBody.after]
      · have hlength : ¬ 0 = chunk.length := by simpa [eq_comm] using hne
        dsimp only
        rw [if_neg hlength]
        exact hfail n t hstep r'

/-- Whatever happens, some buffer and some verdict come out. -/
theorem wp_deliver_any {chunks : List Bytes} {Q : ResponseBody × Bool → Process σ → τ → Prop}
    {I : τ → Prop} (hpre : ∀ t n, I t → W.pre t (.realloc n))
    (hstep : ∀ t n ok u, I t → W.step t (.realloc n) ok u → I u) (hs : I s)
    {r : ResponseBody} (h : ∀ r' ok t, I t → Q (r', ok) p t) :
    Proc.wp W (deliver r chunks) Q p s := by
  induction chunks generalizing r s with
  | nil => exact h r true s hs
  | cons chunk chunks ih =>
      have hnext : ∀ (c : Prop) (r' : ResponseBody) t, I t →
          (c → Proc.wp W (deliver r' chunks) Q p t) ∧ (¬c → Q (r', false) p t) :=
        fun _ r' t ht => ⟨fun _ => ih ht, fun _ => h r' false t ht⟩
      simp only [deliver, httpResponseBodyWriteCallback, Proc.wp_bind, Proc.wp_ite, Proc.wp_pure,
        Proc.wp_call]
      refine ⟨fun _ => ⟨fun _ => hnext _ _ s hs, fun _ => ⟨hpre s _ hs, fun ok t hreply => ?_⟩⟩,
        fun _ => hnext _ _ s hs⟩
      have ht := hstep s _ ok t hs hreply
      exact ⟨fun _ => hnext _ _ t ht, fun _ => hnext _ _ t ht⟩

/-- A request whose body is kept, in a world that does not care about allocations. -/
theorem wp_httpClientRequestBody_any {req : Request}
    {Q : CurlCode × Reply × ResponseBody → Process σ → τ → Prop}
    (hpre : ∀ reply t, W.step s (.perform req) reply t → ∀ n, W.pre t (.realloc n))
    (hquiet : ∀ t n ok u, W.step t (.realloc n) ok u → u = t)
    (hrequest : W.pre s (.perform req))
    (h : ∀ reply t, W.step s (.perform req) reply t → ∀ rc response, Q (rc, reply, response) p t) :
    Proc.wp W (httpClientRequestBody req) Q p s := by
  rw [httpClientRequestBody, Proc.wp_bind, Proc.wp_call]
  refine ⟨hrequest, fun reply t hreply => ?_⟩
  rw [Proc.wp_bind]
  apply wp_deliver_any (I := (· = t))
  · rintro u n rfl
    exact hpre reply u hreply n
  · rintro u n ok v rfl hstep
    exact hquiet u n ok v hstep
  · rfl
  rintro response taken u rfl
  exact h reply u hreply _ response

/-- An empty body is the one case in which `http_client_move_response_body` is undefined. -/
theorem wp_httpClientMoveResponseBody {response : ResponseBody}
    {Q : Option HeapBlock → Process σ → τ → Prop} (hundefined : response.used = 0 → W.pre s .undefined)
    (h : response.used ≠ 0 → Q (some response.block) p s) :
    Proc.wp W (httpClientMoveResponseBody response false) Q p s := by
  rw [httpClientMoveResponseBody]
  by_cases hused : response.used = 0
  · rw [if_pos hused]
    exact (wp_undefinedBehaviour ..).2 (hundefined hused)
  · rw [if_neg hused]
    exact h hused

/-- The parser, in a world that does not care about it. -/
theorem wp_cjsonParse_any {block : HeapBlock} {Q : Option Json → Process σ → τ → Prop}
    (hheap : W.pre s (.heapAfter block)) (hheap' : ∀ rest t, W.step s (.heapAfter block) rest t → t = s)
    (hundefined : W.pre s .undefined) (hparse : ∀ text, W.pre s (.cjsonParse text))
    (hparse' : ∀ text json t, W.step s (.cjsonParse text) json t → t = s) (h : ∀ json, Q json p s) :
    Proc.wp W (cjsonParse block) Q p s := by
  rw [cjsonParse, Proc.wp_bind, Proc.wp_call]
  refine ⟨hheap, fun rest t hstep => ?_⟩
  obtain rfl := hheap' rest t hstep
  rw [Proc.wp_ite, Proc.wp_call, wp_undefinedBehaviour]
  refine ⟨fun _ => ⟨hparse _, fun json u hstep => ?_⟩, fun _ => hundefined⟩
  obtain rfl := hparse' _ json u hstep
  exact h json

end

end HiveSdk
