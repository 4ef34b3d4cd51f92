import HiveSdk.Answers.Reading

/-!
# The text that is parsed

The parser reads a C string, and the client hands it the block that the body was collected in, without a terminator of its own. So where the text ends is up to what the block held before: the parser reads the body and no more only if a byte of the block is left over behind it, and that byte is zero.
-/

namespace HiveSdk

open Interaction

/-- The text is the body, and ends at a terminator inside the block. -/
structure Terminated (chunks : List Bytes) (behind text : Bytes) : Prop where
  exact : text = chunks.flatten
  inside : ((chunks.flatten ++ behind).take (allocation chunks))[chunks.flatten.length]? = some 0

private theorem inside_iff {chunks : List Bytes} {behind : Bytes} :
    ((chunks.flatten ++ behind).take (allocation chunks))[chunks.flatten.length]? = some 0
      ↔ chunks.flatten.length < allocation chunks ∧ behind.head? = some 0 := by
  rw [List.getElem?_take]
  split
  case isTrue hlt =>
      rw [List.getElem?_append_right (Nat.le_refl _), Nat.sub_self, List.head?_eq_getElem?]
      exact ⟨fun h => ⟨hlt, h⟩, fun h => h.2⟩
  case isFalse hge => exact ⟨fun h => (nomatch h), fun h => absurd h.1 hge⟩

/-- A body that fills its block has no terminator, whatever lies behind it. -/
theorem terminated_iff {chunks : List Bytes} {behind : Bytes} (hbody : 0 ∉ chunks.flatten) :
    Terminated chunks behind (cString (chunks.flatten ++ behind))
      ↔ chunks.flatten.length < allocation chunks ∧ behind.head? = some 0 := by
  constructor
  · exact fun h => inside_iff.1 h.inside
  · intro h
    obtain ⟨rest, rfl⟩ := List.head?_eq_some_iff.1 h.2
    refine ⟨?_, inside_iff.2 h⟩
    rw [cString_append hbody]
    exact List.append_nil _

/-- What a reader has parsed, read off its run. -/
theorem parsed_text {σ : Type} (reader : JsonReader σ) {p : Process σ} {tr : Trace} {text : Bytes}
    {k : Option Json → Prog Event Event.Answer (Unit × Process σ)}
    (hsteps : Steps (reader.call p) tr (.ask (.cjsonParse text) k)) (hcounted : ∀ entry ∈ tr, Counted entry) :
    ∃ answer behind, answerOf tr = some answer ∧ answer.behind = some behind
      ∧ text = cString (answer.reply.body ++ behind) := by
  have hwp : (reader.call p).wp reading (fun _ next => Sound next) none := reader.reading_call
  have haccepts : reading.Accepts none tr (answerOf tr) := reading_accepts hcounted none
  have hcall : MayCall (answerOf tr) (.cjsonParse text) := Prog.wp_steps hwp hsteps haccepts
  exact hcall.2

/-- Pieces without a byte need no block. -/
private theorem allocation_of_nil {chunks : List Bytes} (h : chunks.flatten = []) : allocation chunks = 0 := by
  have hsame : ∀ r : ResponseBody, (r.after chunks).sz = r.sz := by
    induction chunks with
    | nil => exact fun r => rfl
    | cons chunk chunks ih =>
        obtain ⟨rfl, hrest⟩ := List.append_eq_nil_iff.1 (List.flatten_cons ▸ h)
        intro r
        rw [ResponseBody.after, ih hrest]
        have hroomy : ¬ cSize (r.sz - r.used) < ([] : Bytes).length := Nat.not_lt_zero _
        show r.roomFor [] = r.sz
        rw [ResponseBody.roomFor, if_neg hroomy]
  exact hsame .empty

/-- A reader that has handed over a block and comes to no text has found no terminator in it. -/
theorem unparsed_text {σ : Type} (reader : JsonReader σ) {p : Process σ} {tr : Trace} {answer : Answer} {behind : Bytes}
    {k : Empty → Prog Event Event.Answer (Unit × Process σ)}
    (hsteps : Steps (reader.call p) tr (.ask .undefined k)) (hcounted : ∀ entry ∈ tr, Counted entry)
    (hanswer : answerOf tr = some answer) (hbehind : answer.behind = some behind) :
    ¬ (answer.reply.body.length < allocation answer.reply.chunks ∧ behind.head? = some 0) := by
  have hwp : (reader.call p).wp reading (fun _ next => Sound next) none := reader.reading_call
  have haccepts : reading.Accepts none tr (answerOf tr) := reading_accepts hcounted none
  have hcall : MayCall (answerOf tr) .undefined := Prog.wp_steps hwp hsteps haccepts
  intro ⟨hroom, hzero⟩
  rcases hcall answer hanswer with hempty | hendless
  · rw [allocation_of_nil hempty.empty] at hroom
    exact Nat.not_lt_zero _ hroom
  · obtain ⟨rest, hrest, hnot⟩ := hendless.endless
    obtain rfl : behind = rest := Option.some.inj (hbehind.symm.trans hrest)
    obtain ⟨tail, rfl⟩ := List.head?_eq_some_iff.1 hzero
    obtain ⟨n, hn⟩ := Nat.exists_eq_succ_of_ne_zero (Nat.sub_ne_zero_of_lt hroom)
    rw [hn] at hnot
    exact hnot (List.mem_append_right _ List.mem_cons_self)

/-- Two runs of readers that parse answers, and the runs that come to no text. -/
theorem parsed_text_iff {σ τ : Type} (reader : JsonReader σ) (reader' : JsonReader τ) {p : Process σ} {p' : Process τ}
    {tr tr' : Trace} {text text' : Bytes} {k : Option Json → Prog Event Event.Answer (Unit × Process σ)}
    {k' : Option Json → Prog Event Event.Answer (Unit × Process τ)}
    (hsteps : Steps (reader.call p) tr (.ask (.cjsonParse text) k))
    (hsteps' : Steps (reader'.call p') tr' (.ask (.cjsonParse text') k'))
    (hcounted : ∀ entry ∈ tr, Counted entry) (hcounted' : ∀ entry ∈ tr', Counted entry) :
    ∃ answer behind answer' behind', (answerOf tr = some answer ∧ answer.behind = some behind)
      ∧ (answerOf tr' = some answer' ∧ answer'.behind = some behind')
      ∧ (0 ∉ answer.reply.body → (Terminated answer.reply.chunks behind text
        ↔ answer.reply.body.length < allocation answer.reply.chunks ∧ behind.head? = some 0))
      ∧ (0 ∉ answer.reply.body → answer.reply.body = answer'.reply.body →
        (text = text' ↔ cString behind = cString behind'))
      ∧ ∀ (q : Process σ) (lost : Trace) (next : Empty → Prog Event Event.Answer (Unit × Process σ)) (read : Answer)
        (rest : Bytes), Steps (reader.call q) lost (.ask .undefined next) → (∀ entry ∈ lost, Counted entry) →
        answerOf lost = some read → read.behind = some rest →
        (∀ text, ¬ Terminated read.reply.chunks rest text)
          ∧ ¬ (read.reply.body.length < allocation read.reply.chunks ∧ rest.head? = some 0) := by
  obtain ⟨answer, behind, hanswer, hbehind, rfl⟩ := parsed_text reader hsteps hcounted
  obtain ⟨answer', behind', hanswer', hbehind', rfl⟩ := parsed_text reader' hsteps' hcounted'
  refine ⟨answer, behind, answer', behind', ⟨hanswer, hbehind⟩, ⟨hanswer', hbehind'⟩, terminated_iff, ?_, ?_⟩
  · intro hbody hsame
    rw [← hsame, cString_append hbody, cString_append hbody, List.append_cancel_left_eq]
  · intro q lost next read rest hlost hcounted hread hrest
    have hopen := unparsed_text reader hlost hcounted hread hrest
    refine ⟨fun text hterminated => hopen (inside_iff.1 hterminated.inside), hopen⟩

/-! ### A body with something behind it -/

/-- The node answers `{}`, and the block holds `behind` after it. -/
def lengthAnswer (behind : Bytes) : Trace :=
  [⟨.httpClientNew .ipfsGetFileLength, true⟩,
    ⟨.perform { method := .post, url := .node (bytes "10.0.0.1") 9095 lsPath, query := [(bytes "arg", bytes "Qm")] },
      ⟨[bytes "{}"], 0, 0, HttpStatus.ok⟩⟩,
    ⟨.realloc (ResponseBody.empty.newSize 2), true⟩, ⟨.heapAfter ⟨bytes "{}", 510⟩, behind⟩]

unseal growSize in
private theorem lengthAnswer_steps {behind : Bytes} (hbehind : behind = [0] ∨ behind = [65, 0]) :
    ∃ k, Steps (JsonReader.call (.ipfsLength (bytes "Qm")) idleNode)
      (lengthAnswer behind) (.ask (.cjsonParse (cString (bytes "{}" ++ behind))) k) := by
  rcases hbehind with rfl | rfl
  all_goals
    apply Exists.intro
    iterate 4 refine .ask _ _ _ ?_
    exact .refl _

private theorem lengthAnswer_counted (behind : Bytes) : ∀ entry ∈ lengthAnswer behind, Counted entry := by
  intro entry hentry
  simp only [lengthAnswer, List.mem_cons, List.not_mem_nil, or_false] at hentry
  rcases hentry with rfl | rfl | rfl | rfl
  · trivial
  · intro chunk hchunk
    rw [List.mem_singleton.1 hchunk]
    decide
  · trivial
  · trivial

/-- A block that is zero behind the body, and one that is not. -/
theorem parsed_text_iff_idle : ∃ answer behind answer' behind',
    (answerOf (lengthAnswer [0]) = some answer ∧ answer.behind = some behind)
      ∧ (answerOf (lengthAnswer [65, 0]) = some answer' ∧ answer'.behind = some behind')
      ∧ (0 ∉ answer.reply.body → (Terminated answer.reply.chunks behind (cString (bytes "{}" ++ [0]))
        ↔ answer.reply.body.length < allocation answer.reply.chunks ∧ behind.head? = some 0))
      ∧ (0 ∉ answer.reply.body → answer.reply.body = answer'.reply.body →
        (cString (bytes "{}" ++ [0]) = cString (bytes "{}" ++ [65, 0]) ↔ cString behind = cString behind')) := by
  obtain ⟨k, hsteps⟩ := lengthAnswer_steps (.inl rfl)
  obtain ⟨k', hsteps'⟩ := lengthAnswer_steps (.inr rfl)
  obtain ⟨answer, behind, answer', behind', hanswer, hanswer', hterminated, hsame, -⟩ :=
    parsed_text_iff _ _ hsteps hsteps' (lengthAnswer_counted _) (lengthAnswer_counted _)
  exact ⟨answer, behind, answer', behind', hanswer, hanswer', hterminated, hsame⟩

/-- So it is not true that the text always ends with the body. -/
theorem text_unterminated : ¬ ∀ {σ : Type} (reader : JsonReader σ) (p : Process σ) (tr : Trace) (text : Bytes)
    (k : Option Json → Prog Event Event.Answer (Unit × Process σ)) (answer : Answer) (behind : Bytes),
    Steps (reader.call p) tr (.ask (.cjsonParse text) k) → (∀ entry ∈ tr, Counted entry) →
    answerOf tr = some answer → answer.behind = some behind → 0 ∉ answer.reply.body →
    Terminated answer.reply.chunks behind text := by
  intro hall
  obtain ⟨k, hsteps⟩ := lengthAnswer_steps (.inr rfl)
  have hterminated := hall _ _ _ _ _ _ _ hsteps (lengthAnswer_counted _) rfl rfl (by decide)
  exact absurd hterminated.exact (by decide)

end HiveSdk
