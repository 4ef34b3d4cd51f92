import HiveSdk.Answers.Reading

/-!
# Answers that cannot be read

All readers have `http_client_move_response_body` hand them the body without asking for its length, and that is defined unless there is no body. Then they have the block parsed as a C string, and that is defined unless no byte of the block is zero. So a run is undefined while it reads an answer exactly when the answer is a success that brought no byte, or whose block has no zero in it; a body that fills its block exactly is enough for that.
-/

namespace HiveSdk

open Interaction

/-- A run that has come to undefined behaviour while it was reading an answer. -/
def CrashesOnAnswer {σ α : Type} (tr : Trace) (q : Prog Event Event.Answer (α × Process σ)) : Prop :=
  (∃ k, q = .ask .undefined k) ∧ (answerOf tr).isSome

/-- A reader is undefined on the successes without a body and on those whose block does not end the text, and on no other answers. -/
theorem crashes_iff_fatal {σ : Type} (reader : JsonReader σ) {p : Process σ} {tr : Trace}
    {q : Prog Event Event.Answer (Unit × Process σ)} (hsteps : Steps (reader.call p) tr q)
    (hcounted : ∀ entry ∈ tr, Counted entry) :
    CrashesOnAnswer tr q
      ↔ ∃ answer, answerOf tr = some answer ∧ (answer.Empty ∨ answer.Unterminated) := by
  have hwp : (reader.call p).wp reading (fun _ next => Sound next) none := reader.reading_call
  have haccepts : reading.Accepts none tr (answerOf tr) := reading_accepts hcounted none
  cases q with
  | ret x =>
      have hsound : Sound (answerOf tr) := Prog.wp_run hwp hsteps haccepts
      constructor
      · intro ⟨⟨k, hq⟩, _⟩
        cases hq
      · intro ⟨answer, hanswer, hfatal⟩
        exact absurd hfatal (hsound answer hanswer)
  | ask e k =>
      have hpre : MayCall (answerOf tr) e := Prog.wp_steps hwp hsteps haccepts
      constructor
      · intro ⟨⟨k', hq⟩, hsome⟩
        obtain ⟨answer, hanswer⟩ := Option.isSome_iff_exists.1 hsome
        cases hq
        exact ⟨answer, hanswer, hpre answer hanswer⟩
      · intro ⟨answer, hanswer, hfatal⟩
        obtain rfl : e = .undefined := by
          by_contra hother
          exact hpre.sound hother answer hanswer hfatal
        exact ⟨⟨k, rfl⟩, hanswer ▸ rfl⟩

/-- The node answers the request for a length with status 200 and nothing else. -/
def emptyLength : Trace :=
  [⟨.httpClientNew .ipfsGetFileLength, true⟩,
    ⟨.perform { method := .post, url := .node (bytes "10.0.0.1") 9095 lsPath, query := [(bytes "arg", bytes "Qm")] },
      ⟨[], 0, 0, HttpStatus.ok⟩⟩]

private theorem emptyLength_steps :
    ∃ k, Steps (JsonReader.call (.ipfsLength (bytes "Qm")) idleNode) emptyLength (.ask .undefined k) :=
  ⟨_, .ask _ _ _ (.ask _ _ _ (.refl _))⟩

private theorem emptyLength_counted : ∀ entry ∈ emptyLength, Counted entry := by
  intro entry hentry
  rcases List.mem_pair.1 hentry with rfl | rfl
  · trivial
  · exact nofun

/-- The node answers with two bytes and then with 510 spaces, which is all that the first block has room for. -/
def fullPieces : List Bytes := [bytes "\x7b\x7d", List.replicate 510 32]

def fullLength : Trace :=
  [⟨.httpClientNew .ipfsGetFileLength, true⟩,
    ⟨.perform { method := .post, url := .node (bytes "10.0.0.1") 9095 lsPath, query := [(bytes "arg", bytes "Qm")] },
      ⟨fullPieces, 0, 0, HttpStatus.ok⟩⟩,
    ⟨.realloc (ResponseBody.empty.newSize 2), true⟩, ⟨.heapAfter ⟨fullPieces.flatten, 0⟩, [0]⟩]

unseal growSize in
set_option maxRecDepth 10000 in
private theorem fullLength_steps :
    ∃ k, Steps (JsonReader.call (.ipfsLength (bytes "Qm")) idleNode) fullLength (.ask .undefined k) := by
  apply Exists.intro
  iterate 4 refine .ask _ _ _ ?_
  exact .refl _

private theorem fullLength_counted : ∀ entry ∈ fullLength, Counted entry := by
  intro entry hentry
  simp only [fullLength, List.mem_cons, List.not_mem_nil, or_false] at hentry
  rcases hentry with rfl | rfl | rfl | rfl
  · trivial
  · intro chunk hchunk
    rcases List.mem_pair.1 hchunk with rfl | rfl
    · decide
    · rw [List.length_replicate]
      decide
  · trivial
  · trivial

theorem crashes_on_lengths :
    (∃ q, Steps (JsonReader.call (.ipfsLength (bytes "Qm")) idleNode) emptyLength q
        ∧ CrashesOnAnswer emptyLength q
        ∧ ∃ answer, answerOf emptyLength = some answer ∧ (answer.Empty ∨ answer.Unterminated))
      ∧ ∃ q, Steps (JsonReader.call (.ipfsLength (bytes "Qm")) idleNode) fullLength q
        ∧ CrashesOnAnswer fullLength q
        ∧ ∃ answer, answerOf fullLength = some answer ∧ (answer.Empty ∨ answer.Unterminated) := by
  obtain ⟨k, hempty⟩ := emptyLength_steps
  obtain ⟨k', hfull⟩ := fullLength_steps
  have hcrash : CrashesOnAnswer emptyLength (.ask .undefined k) := ⟨⟨k, rfl⟩, rfl⟩
  have hcrash' : CrashesOnAnswer fullLength (.ask .undefined k') := ⟨⟨k', rfl⟩, rfl⟩
  exact ⟨⟨_, hempty, hcrash, (crashes_iff_fatal _ hempty emptyLength_counted).1 hcrash⟩,
    ⟨_, hfull, hcrash', (crashes_iff_fatal _ hfull fullLength_counted).1 hcrash'⟩⟩

/-- So it is not true that no answer makes a reader undefined. -/
theorem answers_crash : ¬ ∀ {σ : Type} (reader : JsonReader σ) (p : Process σ) (tr : Trace)
    (q : Prog Event Event.Answer (Unit × Process σ)), Steps (reader.call p) tr q →
    (∀ entry ∈ tr, Counted entry) → ¬ CrashesOnAnswer tr q := by
  intro hall
  obtain ⟨k, hsteps⟩ := emptyLength_steps
  exact hall _ _ _ _ hsteps emptyLength_counted ⟨⟨k, rfl⟩, rfl⟩

end HiveSdk
