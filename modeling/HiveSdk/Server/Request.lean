import HiveSdk.Model.Server
import Mathlib.Data.List.Find
import Mathlib.Data.List.Induction
import Mathlib.Data.List.TakeWhile

/-!
# What a text asks for

The server reads a request byte by byte, as the network delivers it. Here the whole of what has come in so far is looked at: how far the first request in it has got, and what it asks for. Once the request is complete, what comes behind it changes nothing.
-/

namespace HiveSdk

namespace Sb

def blankLine : Bytes := bytes "\r\n\r\n"

def contentLength : Bytes := bytes "Content-Length"

/-! ### The end of the header -/

/-- The length of the shortest beginning of the text that ends in a blank line. -/
def headerEnd (text : Bytes) : Option Nat :=
  (List.range (text.length + 1)).find? fun n => decide (blankLine <:+ text.take n)

section
variable {text : Bytes} {n : Nat}

theorem le_of_headerEnd (h : headerEnd text = some n) : n ≤ text.length := by
  have hmem := List.mem_of_find?_eq_some h
  rw [List.mem_range] at hmem
  omega

theorem headerEnd_snoc (text : Bytes) (c : UInt8) : headerEnd (text ++ [c])
    = (headerEnd text).or (if blankLine <:+ text ++ [c] then some (text.length + 1) else none) := by
  have hlength : (text ++ [c]).length + 1 = text.length + 1 + 1 := by simp
  have hbefore : (List.range (text.length + 1)).find? (fun n => decide (blankLine <:+ (text ++ [c]).take n))
      = headerEnd text := by
    apply List.find?_congr
    intro n hn
    rw [List.mem_range] at hn
    rw [List.take_append_of_le_length (by omega)]
  rw [headerEnd, hlength, List.range_succ, List.find?_append, hbefore]
  congr 1
  have htake : (text ++ [c]).take (text.length + 1) = text ++ [c] := List.take_of_length_le (by simp)
  rw [List.find?_singleton, htake]
  simp

theorem headerEnd_append (h : headerEnd text = some n) (more : Bytes) : headerEnd (text ++ more) = some n := by
  induction more using List.reverseRecOn with
  | nil => rwa [List.append_nil]
  | append_singleton more c ih => rw [← List.append_assoc, headerEnd_snoc, ih, Option.some_or]

end

/-! ### How far the request has got -/

/-- What is known of the first request of a text. -/
inductive Progress
  | header
  | body (dataIdx expected : Nat)
  | complete (dataIdx length : Nat)
  /-- The search for the length of the body does not come to an end. -/
  | hangs
  deriving DecidableEq, Repr

/-- The same when the header has `n` bytes. -/
def bodyProgress (n : Nat) (text : Bytes) : Progress :=
  match findHeaderValue contentLength (cString (text.take n)) with
  | .hangs => .hangs
  | .absent => .complete 0 n
  | .found value =>
      if text.length < n + strToUint value then .body n (n + strToUint value)
      else .complete n (n + strToUint value)

def progress (text : Bytes) : Progress :=
  match headerEnd text with
  | none => .header
  | some n => bodyProgress n text

section
variable {text : Bytes} {c : UInt8} {dataIdx expected length : Nat}

theorem headerEnd_of_header (h : progress text = .header) : headerEnd text = none := by
  rw [progress] at h
  rcases hend : headerEnd text with _ | n
  · rfl
  · rw [hend] at h
    dsimp only [bodyProgress] at h
    split at h
    · cases h
    · cases h
    · split at h <;> cases h

/-- What a text that ends with its header says about the body. -/
def headerProgress (text : Bytes) : Progress :=
  match findHeaderValue contentLength (cString text) with
  | .hangs => .hangs
  | .absent => .complete 0 text.length
  | .found value =>
      if strToUint value = 0 then .complete text.length text.length
      else .body text.length (text.length + strToUint value)

theorem bodyProgress_length (text : Bytes) : bodyProgress text.length text = headerProgress text := by
  rw [bodyProgress, headerProgress, List.take_length]
  rcases findHeaderValue contentLength (cString text) with value | _ | _
  · dsimp only
    by_cases hzero : strToUint value = 0
    · simp [hzero]
    · rw [if_pos (by omega), if_neg hzero]
  · rfl
  · rfl

theorem progress_snoc_of_header (h : progress text = .header) (c : UInt8) : progress (text ++ [c])
    = if blankLine <:+ text ++ [c] then headerProgress (text ++ [c]) else .header := by
  rw [progress, headerEnd_snoc, headerEnd_of_header h, Option.none_or]
  by_cases hblank : blankLine <:+ text ++ [c]
  · rw [if_pos hblank, if_pos hblank, ← bodyProgress_length, List.length_append]
    rfl
  · rw [if_neg hblank, if_neg hblank]

/-- What the header of a text says about the body, as far as it is known that there is a header. -/
theorem of_progress_body (h : progress text = .body dataIdx expected) : text.length < expected
    ∧ ∃ value, headerEnd text = some dataIdx
      ∧ findHeaderValue contentLength (cString (text.take dataIdx)) = .found value
      ∧ expected = dataIdx + strToUint value := by
  rw [progress] at h
  rcases hend : headerEnd text with _ | n
  · rw [hend] at h
    cases h
  · rw [hend] at h
    dsimp only [bodyProgress] at h
    split at h
    · cases h
    · cases h
    · rename_i value hvalue
      split at h
      · rename_i hshort
        obtain ⟨rfl, rfl⟩ := Progress.body.inj h
        exact ⟨hshort, value, rfl, hvalue, rfl⟩
      · cases h

theorem progress_snoc_of_body (h : progress text = .body dataIdx expected) (c : UInt8) : progress (text ++ [c])
    = if text.length + 1 < expected then .body dataIdx expected else .complete dataIdx expected := by
  obtain ⟨-, value, hend, hvalue, rfl⟩ := of_progress_body h
  have htake : (text ++ [c]).take dataIdx = text.take dataIdx :=
    List.take_append_of_le_length (le_of_headerEnd hend)
  rw [progress, headerEnd_append hend]
  dsimp only [bodyProgress]
  rw [htake, hvalue]
  simp

theorem le_of_progress_complete (h : progress text = .complete dataIdx length) : length ≤ text.length := by
  rw [progress] at h
  rcases hend : headerEnd text with _ | n
  · rw [hend] at h
    cases h
  · rw [hend] at h
    have hle := le_of_headerEnd hend
    dsimp only [bodyProgress] at h
    split at h
    · cases h
    · obtain ⟨-, rfl⟩ := Progress.complete.inj h
      exact hle
    · split at h
      · cases h
      · obtain ⟨-, rfl⟩ := Progress.complete.inj h
        omega

/-- Nothing that comes later matters to a request that is complete or cannot be read. -/
theorem progress_append (h : progress text = .hangs ∨ ∃ dataIdx length, progress text = .complete dataIdx length)
    (more : Bytes) : progress (text ++ more) = progress text := by
  rcases hend : headerEnd text with _ | n
  · rw [progress, hend] at h
    rcases h with h | ⟨_, _, h⟩ <;> cases h
  · have htake : (text ++ more).take n = text.take n := List.take_append_of_le_length (le_of_headerEnd hend)
    rw [progress, hend] at h
    rw [progress, headerEnd_append hend, progress, hend]
    dsimp only [bodyProgress] at h ⊢
    rw [htake]
    split
    · rfl
    · rfl
    · rename_i value hvalue
      rw [hvalue] at h
      dsimp only at h
      have hlong : ¬ text.length < n + strToUint value := by
        intro hshort
        rw [if_pos hshort] at h
        rcases h with h | ⟨_, _, h⟩ <;> cases h
      rw [if_neg hlong, if_neg (by rw [List.length_append]; omega)]

end

/-! ### The request -/

/-- The first request of a text, when it is complete. -/
def firstRequest (text : Bytes) : Option SbStream :=
  match progress text with
  | .complete dataIdx length => some ⟨text.take length, dataIdx⟩
  | _ => none

theorem firstRequest_append {text : Bytes} {stream : SbStream} (h : firstRequest text = some stream)
    (more : Bytes) : firstRequest (text ++ more) = some stream := by
  rw [firstRequest] at h
  rcases hprogress : progress text with _ | _ | ⟨dataIdx, length⟩ | _ <;> rw [hprogress] at h
  · cases h
  · cases h
  · rw [firstRequest, progress_append (.inr ⟨dataIdx, length, hprogress⟩), hprogress, ← h]
    dsimp only
    rw [List.take_append_of_le_length (le_of_progress_complete hprogress)]
  · cases h

/-- The notice for a request, when its first line can be read. -/
def readRequest (stream : SbStream) : Option Notice :=
  match scanRequestLine (cString stream.recvBuf) with
  | none => none
  | some line =>
      if (bytes "HTTP").isPrefixOf line.ver then
        some (.request line.method (cString (urlDecode (List.replicate pathSize 0) line.target).1) stream)
      else none

/-- The notices that a text leads to: there is at most one. -/
def requestsIn (text : Bytes) : List Notice := ((firstRequest text).bind readRequest).toList

theorem requestsIn_of_incomplete {text : Bytes} (h : firstRequest text = none) : requestsIn text = [] := by
  rw [requestsIn, h]
  rfl

theorem progress_nil : progress [] = .header := by decide

theorem requestsIn_nil : requestsIn [] = [] := by decide

/-! ### Lines -/

def crlf : Bytes := bytes "\r\n"

theorem isPrefixOf_crlf {c : UInt8} {rest : Bytes} : crlf.isPrefixOf (c :: rest) = (c == 13 && rest.head? == some 10) := by
  have hcrlf : crlf = [13, 10] := by decide
  rw [hcrlf, Bool.eq_iff_iff, List.isPrefixOf_iff_prefix]
  rcases rest with _ | ⟨d, rest⟩
  · exact iff_of_false (fun h => absurd h.length_le (by simp)) (by simp)
  · simp [List.cons_prefix_cons, @eq_comm _ (13 : UInt8), @eq_comm _ (10 : UInt8)]

theorem findHeaderLoop_nil (field : Bytes) (room : Nat) : findHeaderLoop field room [] = .absent := by
  cases room <;> simp [findHeaderLoop]

/-- With room for every byte there is as much room as is needed. -/
theorem findHeaderLoop_eq {field str : Bytes} {room room' : Nat} (h : str.length ≤ room) (h' : str.length ≤ room') :
    findHeaderLoop field room str = findHeaderLoop field room' str := by
  induction room generalizing str room' with
  | zero => rw [List.length_eq_zero_iff.1 (Nat.le_zero.1 h), findHeaderLoop_nil, findHeaderLoop_nil]
  | succ room ih =>
      rcases room' with _ | room'
      · rw [List.length_eq_zero_iff.1 (Nat.le_zero.1 h'), findHeaderLoop_nil, findHeaderLoop_nil]
      rw [findHeaderLoop, findHeaderLoop]
      split
      · rfl
      split
      · rfl
      split
      · rename_i hshort
        exact ih (by omega) (by omega)
      · rfl

theorem findHeaderValue_eq (field str : Bytes) : findHeaderValue field str =
    if str = [] ∨ crlf.isPrefixOf str then .absent
    else if isField field str then
      .found ((str.drop (field.length + 1)).dropWhile fun c => c = 32 ∨ c = 9)
    else if (nextLine str).length < str.length then findHeaderValue field (nextLine str)
    else .hangs := by
  rw [findHeaderValue, findHeaderLoop_eq le_rfl (Nat.le_succ str.length), findHeaderLoop]
  split
  · rename_i hend
    exact (if_pos hend).symm
  rename_i hend
  rw [if_neg (show ¬ (str = [] ∨ crlf.isPrefixOf str) from hend)]
  split
  · rfl
  split
  · rename_i hshort
    rw [findHeaderValue, findHeaderLoop_eq hshort.le le_rfl]
  · rfl

section
variable {field line rest str : Bytes}

/-- What follows the first carriage return of a text. -/
theorem dropWhile_line (h : 13 ∉ line) : (line ++ 13 :: rest).dropWhile (fun c : UInt8 => decide (c ≠ 13)) = 13 :: rest := by
  rw [List.dropWhile_append_of_pos]
  · rw [List.dropWhile_cons_of_neg (by simp)]
  · intro c hc
    simpa using fun heq : c = 13 => h (heq ▸ hc)

theorem nextLine_of_notMem (h : 13 ∉ line) : nextLine (line ++ 13 :: 10 :: rest) = rest := by
  dsimp only [nextLine]
  rw [dropWhile_line h, ← crlf, if_pos (by simp [isPrefixOf_crlf])]
  rfl

/-- Without a line feed behind it the carriage return is not skipped. -/
theorem nextLine_of_lone (h : 13 ∉ line) (hlone : rest.head? ≠ some 10) : nextLine (line ++ 13 :: rest) = 13 :: rest := by
  dsimp only [nextLine]
  rw [dropWhile_line h, ← crlf, if_neg (by simp [isPrefixOf_crlf, hlone])]

theorem tolower_eq_cr {c : UInt8} (h : tolower c = 13) : c = 13 := by
  rw [tolower] at h
  split at h
  · rename_i hupper
    have hbound : 13 < (c + 32).toNat := by
      have hlow := UInt8.le_iff_toNat_le.1 hupper.1
      have hhigh := UInt8.le_iff_toNat_le.1 hupper.2
      rw [UInt8.toNat_add]
      simp at hlow hhigh ⊢
      omega
    rw [h] at hbound
    exact absurd hbound (by decide)
  · exact h

/-- A field is found in its line only. -/
theorem isField_line (hfield : 13 ∉ field) : isField field (line ++ 13 :: rest) = isField field line := by
  have hlower : (13 : UInt8) ∉ field.map tolower := by
    intro hmem
    obtain ⟨c, hc, heq⟩ := List.mem_map.1 hmem
    exact hfield (tolower_eq_cr heq ▸ hc)
  have hcr : tolower 13 = 13 := by decide
  rw [isField, isField, decide_eq_decide, List.isPrefixOf_iff_prefix, List.isPrefixOf_iff_prefix, List.map_append,
    List.map_cons, hcr]
  by_cases hshort : field.length < line.length
  · rw [List.getElem?_append_left hshort]
    have hbegin : field.map tolower <+: line.map tolower ++ 13 :: rest.map tolower
        ↔ field.map tolower <+: line.map tolower := by
      constructor
      · intro h
        apply List.prefix_of_prefix_length_le h (List.prefix_append _ _)
        simp only [List.length_map]
        omega
      · exact fun h => h.trans (List.prefix_append _ _)
    rw [hbegin]
  · have hnone : (line)[field.length]? = none := List.getElem?_eq_none (by omega)
    have hnot : ¬ (field.map tolower <+: line.map tolower ++ 13 :: rest.map tolower
        ∧ (line ++ 13 :: rest)[field.length]? = some 58) := by
      rintro ⟨hbegin, hcolon⟩
      by_cases heq : field.length = line.length
      · rw [heq, List.getElem?_append_right le_rfl, Nat.sub_self] at hcolon
        simp at hcolon
      · have hat : (field.map tolower)[line.length]? = some 13 := by
          obtain ⟨after, hafter⟩ := hbegin
          have hlength : line.length < (field.map tolower).length := by
            rw [List.length_map]
            omega
          have hget := congrArg (fun text : Bytes => text[line.length]?) hafter
          rw [List.getElem?_append_left hlength, List.getElem?_append_right (by simp)] at hget
          simpa using hget
        exact hlower (List.mem_of_getElem? hat)
    rw [hnone]
    exact iff_of_false hnot fun h => by simp at h

theorem findHeaderValue_nil : findHeaderValue field [] = .absent := by
  rw [findHeaderValue_eq, if_pos (.inl rfl)]

/-- The search moves on from a line that has not got the field. -/
theorem findHeaderValue_line (hne : line ≠ []) (hline : 13 ∉ line) (hfield : 13 ∉ field) (hother : isField field line = false) :
    findHeaderValue field (line ++ 13 :: 10 :: rest) = findHeaderValue field rest := by
  have hend : ¬ (line ++ 13 :: 10 :: rest = [] ∨ crlf.isPrefixOf (line ++ 13 :: 10 :: rest)) := by
    rcases line with _ | ⟨c, line⟩
    · exact absurd rfl hne
    · have hc : c ≠ 13 := fun heq => hline (by simp [heq])
      simp [isPrefixOf_crlf, hc]
  have hshort : (nextLine (line ++ 13 :: 10 :: rest)).length < (line ++ 13 :: 10 :: rest).length := by
    rw [nextLine_of_notMem hline]
    simp only [List.length_append, List.length_cons]
    omega
  rw [findHeaderValue_eq, if_neg hend, if_neg (by rw [isField_line hfield, hother]; exact Bool.false_ne_true),
    if_pos hshort, nextLine_of_notMem hline]

/-- It does not move on from a carriage return without a line feed. -/
theorem findHeaderValue_lone (hline : 13 ∉ line) (hlone : rest.head? ≠ some 10) (hfield : 13 ∉ field)
    (hother : isField field line = false) : findHeaderValue field (line ++ 13 :: rest) = .hangs := by
  have hstays : ∀ (line : Bytes), 13 ∉ line → isField field line = false →
      findHeaderValue field (line ++ 13 :: rest)
        = if line = [] then .hangs else findHeaderValue field (13 :: rest) := by
    intro line hline hother
    have hend : ¬ (line ++ 13 :: rest = [] ∨ crlf.isPrefixOf (line ++ 13 :: rest)) := by
      rcases line with _ | ⟨c, line⟩
      · simp [isPrefixOf_crlf, hlone]
      · have hc : c ≠ 13 := fun heq => hline (by simp [heq])
        simp [isPrefixOf_crlf, hc]
    rw [findHeaderValue_eq, if_neg hend, if_neg (by rw [isField_line hfield, hother]; exact Bool.false_ne_true),
      nextLine_of_lone hline hlone]
    rcases line with _ | ⟨c, line⟩
    · simp
    · rw [if_pos (by simp only [List.length_append, List.length_cons]; omega), if_neg (by simp)]
  have hhere := hstays [] (by simp) (by simp [isField])
  rw [hstays line hline hother]
  split
  · rfl
  · exact hhere

/-! ### Lines without an end -/

def joinLines (lines : List Bytes) : Bytes := (lines.map (· ++ crlf)).flatten

/-- Before the field there is a line with a carriage return that no line feed follows. -/
def Stalls (field str : Bytes) : Prop := ∃ lines line rest, str = joinLines lines ++ (line ++ 13 :: rest)
  ∧ rest.head? ≠ some 10 ∧ (∀ l ∈ lines, l ≠ []) ∧ ∀ l ∈ line :: lines, 13 ∉ l ∧ isField field l = false

theorem joinLines_cons (lines : List Bytes) : joinLines (line :: lines) ++ str = line ++ 13 :: 10 :: (joinLines lines ++ str) := by
  have hcrlf : crlf = [13, 10] := by decide
  simp [joinLines, hcrlf]

/-- The search does not come to an end exactly when it comes to such a line. -/
theorem findHeaderValue_hangs_iff (hfield : 13 ∉ field) : findHeaderValue field str = .hangs ↔ Stalls field str := by
  constructor
  · intro hhangs
    induction hn : str.length using Nat.strong_induction_on generalizing str with
    | _ n ih =>
        subst hn
        rw [findHeaderValue_eq] at hhangs
        split at hhangs
        · cases hhangs
        rename_i hend
        split at hhangs
        · cases hhangs
        rename_i hother
        rw [Bool.not_eq_true] at hother
        have hsplit := List.takeWhile_append_dropWhile (p := fun c : UInt8 => decide (c ≠ 13)) (l := str)
        have hline : 13 ∉ str.takeWhile fun c : UInt8 => decide (c ≠ 13) := fun hmem => by
          simpa using List.mem_takeWhile_imp hmem
        generalize str.takeWhile (fun c : UInt8 => decide (c ≠ 13)) = line at hsplit hline
        rcases hrest : str.dropWhile (fun c : UInt8 => decide (c ≠ 13)) with _ | ⟨c, rest⟩
        · have hnext : nextLine str = [] := by
            dsimp only [nextLine]
            rw [hrest]
            rfl
          have hshort : ([] : Bytes).length < str.length := List.length_pos_iff.2 fun hnil => hend (.inl hnil)
          rw [hnext, findHeaderValue_nil, if_pos hshort] at hhangs
          cases hhangs
        · have hc : c = 13 := by
            have hhead := List.head?_dropWhile_not (fun c : UInt8 => decide (c ≠ 13)) str
            rw [hrest] at hhead
            simpa using hhead
          rw [hrest, hc] at hsplit
          subst hsplit
          rw [isField_line hfield] at hother
          by_cases hlone : rest.head? = some 10
          · obtain ⟨rest, rfl⟩ : ∃ rest', rest = 10 :: rest' := by
              rcases rest with _ | ⟨c, rest'⟩
              · cases hlone
              · obtain rfl := Option.some.inj hlone
                exact ⟨rest', rfl⟩
            have hne : line ≠ [] := by
              rintro rfl
              exact hend (.inr (by simp [isPrefixOf_crlf]))
            rw [nextLine_of_notMem hline] at hhangs
            have hshort : rest.length < (line ++ 13 :: 10 :: rest).length := by
              simp only [List.length_append, List.length_cons]
              omega
            rw [if_pos hshort] at hhangs
            obtain ⟨lines, last, rest', rfl, hlone', hlines, hall⟩ := ih _ hshort hhangs rfl
            refine ⟨line :: lines, last, rest', (joinLines_cons lines).symm, hlone', ?_, ?_⟩
            · simpa using ⟨hne, hlines⟩
            · simp only [List.forall_mem_cons] at hall ⊢
              exact ⟨hall.1, ⟨hline, hother⟩, hall.2⟩
          · exact ⟨[], line, rest, rfl, hlone, by simp, by simpa using ⟨hline, hother⟩⟩
  · rintro ⟨lines, line, rest, rfl, hlone, hlines, hall⟩
    simp only [List.forall_mem_cons] at hall
    obtain ⟨hlast, hall⟩ := hall
    induction lines with
    | nil => exact findHeaderValue_lone hlast.1 hlone hfield hlast.2
    | cons l lines ih =>
        rw [List.forall_mem_cons] at hlines hall
        rw [joinLines_cons, findHeaderValue_line hlines.1 hall.1.1 hfield hall.1.2]
        exact ih hlines.2 hall.2

end

/-- A text with a header that cannot be searched. -/
def Stalling (text : Bytes) : Prop := ∃ n, headerEnd text = some n ∧ Stalls contentLength (cString (text.take n))

theorem progress_hangs_iff {text : Bytes} : progress text = .hangs ↔ Stalling text := by
  have hfield : (13 : UInt8) ∉ contentLength := by decide
  rw [progress]
  rcases hend : headerEnd text with _ | n
  · constructor
    · exact fun h => by cases h
    · rintro ⟨n, hn, -⟩
      cases hend.symm.trans hn
  · dsimp only [bodyProgress]
    constructor
    · intro h
      refine ⟨n, hend, (findHeaderValue_hangs_iff hfield).1 ?_⟩
      split at h
      · assumption
      · cases h
      · split at h <;> cases h
    · rintro ⟨m, hm, hstalls⟩
      obtain rfl := Option.some.inj (hend.symm.trans hm)
      rw [(findHeaderValue_hangs_iff hfield).2 hstalls]

end Sb

end HiveSdk
