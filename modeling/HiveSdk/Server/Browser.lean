import HiveSdk.Connect.Code
import HiveSdk.Server.Request
import HiveSdk.Uri.Form

/-!
# The request of the browser

The request by which a browser follows the redirect, as a text, and what the server makes of it: its first line and its header, in which nothing announces a body, end at the blank line, and the value of the code is found in the query and decoded. So a code that is sent arrives, in whatever pieces.
-/

namespace HiveSdk

open Interaction

namespace Sb

/-! ### Values -/

theorem percentByte_eq {hi lo : UInt8} (hhi : Uri.isHexDigit hi) (hlo : Uri.isHexDigit lo) :
    percentByte hi lo = 16 * Uri.hexValue hi + Uri.hexValue lo := by
  have hdigit : ∀ c : UInt8, Uri.isHexDigit c → ∃ d : Fin 16, hexToInt c = (d.val : Int) ∧ Uri.hexValue c = UInt8.ofNat d :=
    Uri.forall_byte (by decide +kernel)
  have hbyte : ∀ d e : Fin 16, UInt8.ofNat (((d.val : Int) * 16 % 256).toNat ||| ((e.val : Int) % 256).toNat)
      = 16 * UInt8.ofNat d + UInt8.ofNat e := by decide +kernel
  obtain ⟨d, hd, hd'⟩ := hdigit hi hhi
  obtain ⟨e, he, he'⟩ := hdigit lo hlo
  rw [percentByte, hd, he, hd', he']
  exact hbyte d e

theorem endsVar_of_printable {c : UInt8} (h : 33 ≤ c ∧ c ≤ 126 ∧ c ∉ [Uri.ampersand, Uri.question, Uri.hash]) :
    endsVar c = false := by
  have hall : ∀ c : UInt8, 33 ≤ c ∧ c ≤ 126 ∧ c ∉ [Uri.ampersand, Uri.question, Uri.hash] → endsVar c = false :=
    Uri.forall_byte (by decide +kernel)
  exact hall c h

/-- A text that stands for a value is decoded to it, whatever follows the end of the variable. -/
theorem urlDecodeLoop_stands {src value rest : Bytes} (h : Uri.Stands src value) (hrest : ∀ c ∈ rest.head?, endsVar c)
    {room : Nat} (hroom : src.length < room) : urlDecodeLoop room (src ++ rest) = (value, true) := by
  induction h generalizing room with
  | nil =>
      obtain ⟨room, rfl⟩ := Nat.exists_eq_succ_of_ne_zero (Nat.ne_zero_of_lt hroom)
      rcases rest with _ | ⟨c, rest⟩
      · rfl
      · have hends := hrest c rfl
        rw [List.nil_append, urlDecodeLoop, if_pos hends]
        rintro hi lo rest' rfl -
        exact absurd hends (by decide)
  | @literal c src value hliteral _ ih =>
      obtain ⟨room, rfl⟩ := Nat.exists_eq_succ_of_ne_zero (Nat.ne_zero_of_lt hroom)
      have hends : endsVar c = false := endsVar_of_printable ((Uri.Stands.literal hliteral .nil).printable List.mem_cons_self)
      have hplain : c ≠ 37 ∧ c ≠ 43 := by
        have hall : ∀ c : UInt8, Uri.isLiteral c → c ≠ 37 ∧ c ≠ 43 := Uri.forall_byte (by decide +kernel)
        exact hall c hliteral
      rw [List.cons_append, urlDecodeLoop, ih (Nat.lt_of_succ_lt_succ hroom), hends, if_neg Bool.false_ne_true,
        if_neg hplain.2]
      exact fun _ _ _ hc _ => hplain.1 hc
  | @plus src value _ ih =>
      obtain ⟨room, rfl⟩ := Nat.exists_eq_succ_of_ne_zero (Nat.ne_zero_of_lt hroom)
      rw [List.cons_append, urlDecodeLoop, ih (Nat.lt_of_succ_lt_succ hroom), if_neg (by decide)]
      · rfl
      · exact fun _ _ _ hc _ => absurd hc (by decide)
  | @escape hi lo src value hhi hlo _ ih =>
      obtain ⟨room, rfl⟩ := Nat.exists_eq_succ_of_ne_zero (Nat.ne_zero_of_lt hroom)
      have hroom' : src.length < room := by
        simp only [List.length_cons] at hroom
        omega
      have hnonzero : ∀ c : UInt8, Uri.isHexDigit c → c ≠ 0 := Uri.forall_byte (by decide +kernel)
      rw [List.cons_append, List.cons_append, List.cons_append]
      show urlDecodeLoop (room + 1) (37 :: hi :: lo :: (src ++ rest)) = _
      rw [urlDecodeLoop, if_neg (by decide)]
      simp only [if_pos (show hi ≠ 0 ∧ lo ≠ 0 from ⟨hnonzero hi hhi, hnonzero lo hlo⟩)]
      rw [ih hroom', percentByte_eq hhi hlo]

theorem decoded_stands {src value rest : Bytes} (h : Uri.Stands src value) (hrest : ∀ c ∈ rest.head?, endsVar c) :
    decoded (src ++ rest) = value := by
  rw [decoded, urlDecodeLoop_stands h hrest]
  rw [List.length_append]
  omega

/-! ### Headers without a length -/

/-- The lines of a header that announces no body. -/
def Bodiless (lines : List Bytes) : Prop :=
  ∀ line ∈ lines, line ≠ [] ∧ 13 ∉ line ∧ 0 ∉ line ∧ isField contentLength line = false

/-- There is no blank line before the end. -/
theorem blankLine_last {lines : List Bytes} (hlines : ∀ line ∈ lines, line ≠ [] ∧ 13 ∉ line) {front rest : Bytes}
    (h : front ++ 13 :: 10 :: 13 :: 10 :: rest = joinLines lines ++ [13, 10]) : rest = [] := by
  induction lines generalizing front with
  | nil =>
      have hlength := congrArg List.length h
      simp only [joinLines, List.map_nil, List.flatten_nil, List.length_append, List.length_cons, List.length_nil] at hlength
      omega
  | cons line lines ih =>
      rw [List.forall_mem_cons] at hlines
      obtain ⟨⟨hne, hline⟩, hlines⟩ := hlines
      rw [joinLines_cons] at h
      rcases List.append_eq_append_iff.1 h with ⟨middle, hmiddle, hrest⟩ | ⟨middle, hmiddle, hrest⟩
      · -- the blank line would begin within the line
        rcases middle with _ | ⟨c, middle⟩
        · rcases lines with _ | ⟨next, lines⟩
          · simpa [joinLines] using hrest
          · rw [joinLines_cons] at hrest
            rw [List.forall_mem_cons] at hlines
            rcases next with _ | ⟨c, next⟩
            · exact absurd rfl hlines.1.1
            · simp only [List.nil_append, List.cons_append, List.cons.injEq] at hrest
              exact absurd (hrest.2.2.1 ▸ List.mem_cons_self) hlines.1.2
        · rw [List.cons_append, List.cons.injEq] at hrest
          exact absurd (hmiddle ▸ List.mem_append_right _ (hrest.1 ▸ List.mem_cons_self)) hline
      · rcases middle with _ | ⟨c, _ | ⟨d, middle⟩⟩
        · rcases lines with _ | ⟨next, lines⟩
          · simpa [joinLines] using hrest.symm
          · rw [joinLines_cons] at hrest
            rw [List.forall_mem_cons] at hlines
            rcases next with _ | ⟨c, next⟩
            · exact absurd rfl hlines.1.1
            · simp only [List.nil_append, List.cons_append, List.cons.injEq] at hrest
              exact absurd (hrest.2.2.1 ▸ List.mem_cons_self) hlines.1.2
        · simp at hrest
        · simp only [List.cons_append, List.cons.injEq] at hrest
          exact ih hlines hrest.2.2.symm

theorem crlf_suffix (line : Bytes) (lines : List Bytes) : crlf <:+ joinLines (line :: lines) := by
  induction lines generalizing line with
  | nil => exact ⟨line, by simp [joinLines]⟩
  | cons next lines ih =>
      have hrest : joinLines (next :: lines) <:+ joinLines (line :: next :: lines) := ⟨line ++ crlf, by simp [joinLines]⟩
      exact (ih next).trans hrest

theorem headerEnd_joinLines {line : Bytes} {lines : List Bytes} (hlines : ∀ l ∈ line :: lines, l ≠ [] ∧ 13 ∉ l) :
    headerEnd (joinLines (line :: lines) ++ crlf) = some (joinLines (line :: lines) ++ crlf).length := by
  have hcrlf : crlf = [13, 10] := by decide
  have hblank : blankLine = [13, 10, 13, 10] := by decide
  have hlast : blankLine <:+ joinLines (line :: lines) ++ crlf := by
    obtain ⟨front, hfront⟩ := crlf_suffix line lines
    refine ⟨front, ?_⟩
    rw [← hfront, hblank, hcrlf, List.append_assoc]
    rfl
  generalize htext : joinLines (line :: lines) ++ crlf = text at hlast
  have hearlier : ((List.range text.length).find? fun n => decide (blankLine <:+ text.take n)) = none := by
    rw [List.find?_eq_none]
    intro n hn hsuffix
    rw [List.mem_range] at hn
    obtain ⟨front, hfront⟩ := of_decide_eq_true hsuffix
    have hsplit : front ++ 13 :: 10 :: 13 :: 10 :: text.drop n = joinLines (line :: lines) ++ [13, 10] := by
      have hjoin := List.take_append_drop n text
      rw [← hfront, hblank, List.append_assoc] at hjoin
      rw [← hcrlf, htext]
      exact hjoin
    have hlong := List.drop_eq_nil_iff.1 (blankLine_last hlines hsplit)
    omega
  rw [headerEnd, List.range_succ, List.find?_append, hearlier, Option.none_or, List.find?_singleton, List.take_length,
    if_pos (decide_eq_true hlast)]

theorem findHeaderValue_absent {field : Bytes} {lines : List Bytes} (hfield : 13 ∉ field)
    (hlines : ∀ line ∈ lines, line ≠ [] ∧ 13 ∉ line ∧ isField field line = false) :
    findHeaderValue field (joinLines lines ++ crlf) = .absent := by
  have hcrlf : crlf = [13, 10] := by decide
  induction lines with
  | nil => rw [findHeaderValue_eq, if_pos (.inr (by decide))]
  | cons line lines ih =>
      rw [List.forall_mem_cons] at hlines
      obtain ⟨⟨hne, hline, hother⟩, hlines⟩ := hlines
      rw [joinLines_cons, findHeaderValue_line hne hline hfield hother]
      exact ih hlines

theorem cString_eq {text : Bytes} (h : 0 ∉ text) : cString text = text := by
  have happend := cString_append h []
  rw [List.append_nil] at happend
  exact happend.trans (List.append_nil text)

theorem zero_notMem_joinLines {lines : List Bytes} (h : ∀ line ∈ lines, 0 ∉ line) : 0 ∉ joinLines lines ++ crlf := by
  have hcrlf : crlf = [13, 10] := by decide
  simp only [joinLines, hcrlf, List.mem_append, List.mem_flatten, List.mem_map, not_or, not_exists, not_and]
  refine ⟨?_, by decide⟩
  rintro line ⟨l, hl, rfl⟩ hzero
  rcases List.mem_append.1 hzero with hzero | hzero
  · exact h l hl hzero
  · exact absurd hzero (by decide)

/-- Such a request is complete with its blank line, and its text ends there. -/
theorem firstRequest_joinLines {line : Bytes} {lines : List Bytes} (h : Bodiless (line :: lines)) (more : Bytes) :
    firstRequest (joinLines (line :: lines) ++ crlf ++ more) = some ⟨joinLines (line :: lines) ++ crlf, 0⟩ := by
  have hend := headerEnd_joinLines fun l hl => ⟨(h l hl).1, (h l hl).2.1⟩
  have hzero := zero_notMem_joinLines fun l hl => (h l hl).2.2.1
  have habsent : findHeaderValue contentLength (joinLines (line :: lines) ++ crlf) = .absent :=
    findHeaderValue_absent (by decide) fun l hl => ⟨(h l hl).1, (h l hl).2.1, (h l hl).2.2.2⟩
  generalize joinLines (line :: lines) ++ crlf = text at hend hzero habsent
  apply firstRequest_append
  have hprogress : progress text = .complete 0 text.length := by
    rw [progress, hend]
    dsimp only [bodyProgress]
    rw [List.take_length, cString_eq hzero, habsent]
  rw [firstRequest, hprogress]
  dsimp only
  rw [List.take_length]

/-! ### The request for the redirect -/

/-- The request with which a browser follows the redirect. -/
structure BrowserRequest where
  path : Bytes
  /-- The variables before the code. -/
  before : List Bytes
  /-- The code, as it is written in the query. -/
  src : Bytes
  code : Bytes
  /-- The variables behind the code. -/
  after : List Bytes
  lines : List Bytes
  stands : Uri.Stands src code
  pathLiteral : ∀ c ∈ path, Uri.isLiteral c
  pathFits : path.length < pathSize
  beforeProper : ∀ var ∈ before, (∀ c ∈ var, 33 ≤ c ∧ c ≤ 126 ∧ c ≠ 38) ∧ ¬ bytes "code=" <+: var
  afterProper : ∀ var ∈ after, ∀ c ∈ var, 33 ≤ c ∧ c ≤ 126
  bodiless : Bodiless lines

namespace BrowserRequest

variable (r : BrowserRequest)

/-- What follows the code in the query. -/
def rest : Bytes := (r.after.map fun var => 38 :: var).flatten

def query : Bytes := (r.before.map fun var => var ++ [38]).flatten ++ (bytes "code=" ++ (r.src ++ r.rest))

def requestLine : Bytes := bytes "GET " ++ (r.path ++ 63 :: (r.query ++ bytes " HTTP/1.1"))

def text : Bytes := joinLines (r.requestLine :: r.lines) ++ crlf

theorem tail_text : r.text = r.requestLine ++ 13 :: 10 :: (joinLines r.lines ++ crlf) := joinLines_cons _

theorem query_printable : ∀ c ∈ r.query, 33 ≤ c ∧ c ≤ 126 := by
  intro c hc
  simp only [query, rest, List.mem_append, List.mem_flatten, List.mem_map] at hc
  rcases hc with ⟨_, ⟨var, hvar, rfl⟩, hc⟩ | hc | hc | ⟨_, ⟨var, hvar, rfl⟩, hc⟩
  · rcases List.mem_append.1 hc with hc | hc
    · exact ⟨((r.beforeProper var hvar).1 c hc).1, ((r.beforeProper var hvar).1 c hc).2.1⟩
    · rw [List.mem_singleton.1 hc]
      decide
  · exact (show ∀ c ∈ bytes "code=", 33 ≤ c ∧ c ≤ 126 by decide +kernel) c hc
  · exact ⟨(r.stands.printable hc).1, (r.stands.printable hc).2.1⟩
  · rcases List.mem_cons.1 hc with rfl | hc
    · decide
    · exact r.afterProper var hvar c hc

/-- What the request asks for. -/
def target : Bytes := r.path ++ 63 :: r.query

theorem target_printable : ∀ c ∈ r.target, 33 ≤ c ∧ c ≤ 126 := by
  have hliteral : ∀ c : UInt8, Uri.isLiteral c → 33 ≤ c ∧ c ≤ 126 := Uri.forall_byte (by decide +kernel)
  intro c hc
  rcases List.mem_append.1 hc with hc | hc
  · exact hliteral c (r.pathLiteral c hc)
  · rcases List.mem_cons.1 hc with rfl | hc
    · decide
    · exact r.query_printable c hc

theorem requestLine_eq : r.requestLine = bytes "GET" ++ 32 :: (r.target ++ 32 :: bytes "HTTP/1.1") := by
  have hget : bytes "GET " = bytes "GET" ++ [32] := by decide
  have hversion : bytes " HTTP/1.1" = 32 :: bytes "HTTP/1.1" := by decide
  simp [requestLine, target, hget, hversion]

theorem bodiless_text : Bodiless (r.requestLine :: r.lines) := by
  have hbytes : ∀ c ∈ r.requestLine, c ≠ 13 ∧ c ≠ 0 := by
    have hget : ∀ c ∈ bytes "GET", c ≠ 13 ∧ c ≠ 0 := by decide +kernel
    have hversion : ∀ c ∈ bytes "HTTP/1.1", c ≠ 13 ∧ c ≠ 0 := by decide +kernel
    have hprintable : ∀ c : UInt8, 33 ≤ c ∧ c ≤ 126 → c ≠ 13 ∧ c ≠ 0 := Uri.forall_byte (by decide +kernel)
    intro c hc
    rw [requestLine_eq] at hc
    simp only [List.mem_append, List.mem_cons] at hc
    rcases hc with hc | rfl | hc | rfl | hc
    · exact hget c hc
    · decide
    · exact hprintable c (r.target_printable c hc)
    · decide
    · exact hversion c hc
  have hbegins : ∃ rest, r.requestLine = 71 :: rest := ⟨_, r.requestLine_eq⟩
  obtain ⟨rest, hrest⟩ := hbegins
  intro line hline
  rcases List.mem_cons.1 hline with rfl | hline
  · refine ⟨by simp [hrest], fun h => (hbytes 13 h).1 rfl, fun h => (hbytes 0 h).2 rfl, ?_⟩
    rw [hrest, isField, decide_eq_false_iff_not, List.isPrefixOf_iff_prefix]
    rintro ⟨hbegin, -⟩
    have hlower : contentLength.map tolower = 99 :: (contentLength.map tolower).tail := by decide
    rw [hlower, List.map_cons, List.cons_prefix_cons] at hbegin
    exact absurd hbegin.1 (by decide)
  · exact r.bodiless line hline

end BrowserRequest

/-! ### Words -/

theorem scanWord_word {word rest : Bytes} (hne : word ≠ []) (hword : ∀ c ∈ word, isSpace c = false) (hshort : word.length ≤ 15)
    (hrest : ∀ c ∈ rest.head?, isSpace c = true) : scanWord (word ++ rest) = some (word, rest) := by
  have hbody : (word ++ rest).dropWhile isSpace = word ++ rest := by
    rcases word with _ | ⟨c, word⟩
    · exact absurd rfl hne
    · exact List.dropWhile_cons_of_neg (by simp [hword c List.mem_cons_self])
  have htake : (word ++ rest).takeWhile (fun c => decide ¬ isSpace c = true) = word := by
    rw [List.takeWhile_append_of_pos fun c hc => by simp [hword c hc]]
    rcases rest with _ | ⟨c, rest⟩
    · simp
    · rw [List.takeWhile_cons_of_neg (by simp [hrest c rfl]), List.append_nil]
  dsimp only [scanWord]
  rw [hbody, htake, List.take_of_length_le hshort, if_neg hne, List.drop_left]

theorem scanWord_space (str : Bytes) : scanWord (32 :: str) = scanWord str := by
  have hspace : (32 :: str).dropWhile isSpace = str.dropWhile isSpace := List.dropWhile_cons_of_pos (by decide)
  rw [scanWord, scanWord, hspace]

theorem isSpace_of_printable {c : UInt8} (h : 33 ≤ c ∧ c ≤ 126) : isSpace c = false := by
  have hall : ∀ c : UInt8, 33 ≤ c ∧ c ≤ 126 → isSpace c = false := Uri.forall_byte (by decide +kernel)
  exact hall c h

theorem scanRequestLine_text (r : BrowserRequest) : scanRequestLine r.text
    = some ⟨bytes "GET", r.target ++ 32 :: (bytes "HTTP/1.1" ++ 13 :: 10 :: (joinLines r.lines ++ crlf)), bytes "HTTP/1.1"⟩ := by
  have hne : r.target ≠ [] := by simp [BrowserRequest.target]
  generalize htail : joinLines r.lines ++ crlf = tail
  have htext : r.text = bytes "GET" ++ 32 :: (r.target ++ 32 :: (bytes "HTTP/1.1" ++ 13 :: 10 :: tail)) := by
    rw [r.tail_text, r.requestLine_eq, htail]
    simp
  have hmethod : scanWord (bytes "GET" ++ 32 :: (r.target ++ 32 :: (bytes "HTTP/1.1" ++ 13 :: 10 :: tail)))
      = some (bytes "GET", 32 :: (r.target ++ 32 :: (bytes "HTTP/1.1" ++ 13 :: 10 :: tail))) :=
    scanWord_word (by decide) (by decide +kernel) (by decide) (by simp [isSpace])
  have hversion : scanWord (bytes "HTTP/1.1" ++ 13 :: 10 :: tail) = some (bytes "HTTP/1.1", 13 :: 10 :: tail) :=
    scanWord_word (by decide) (by decide +kernel) (by decide) (by simp [isSpace])
  have hspaceless : ∀ c ∈ r.target, isSpace c = false := fun c hc => isSpace_of_printable (r.target_printable c hc)
  generalize r.target = target at *
  have hbody : (32 :: (target ++ 32 :: (bytes "HTTP/1.1" ++ 13 :: 10 :: tail))).dropWhile isSpace
      = target ++ 32 :: (bytes "HTTP/1.1" ++ 13 :: 10 :: tail) := by
    rw [List.dropWhile_cons_of_pos (by decide)]
    rcases target with _ | ⟨c, target⟩
    · exact absurd rfl hne
    · exact List.dropWhile_cons_of_neg (by simp [hspaceless c List.mem_cons_self])
  have hskipped : (target ++ 32 :: (bytes "HTTP/1.1" ++ 13 :: 10 :: tail)).takeWhile (fun c => decide ¬ isSpace c = true)
      = target := by
    rw [List.takeWhile_append_of_pos fun c hc => by simp [hspaceless c hc], List.takeWhile_cons_of_neg (by decide),
      List.append_nil]
  rw [scanRequestLine, htext, hmethod]
  dsimp only [Option.bind_eq_bind, Option.bind_some]
  rw [hbody, hskipped, if_neg hne, List.drop_left, scanWord_space, hversion]
  rfl

/-! ### Finding the code -/

theorem findVarValue_found (name value : Bytes) : findVarValue (name ++ bytes "=" ++ value) name = some value := by
  have hbegin : (name ++ bytes "=").isPrefixOf (name ++ bytes "=" ++ value) = true :=
    List.isPrefixOf_iff_prefix.2 (List.prefix_append _ _)
  have hlength : (name ++ bytes "=").length = name.length + 1 := List.length_append
  rw [findVarValue, if_pos hbegin, ← hlength, List.drop_left]

/-- A variable with another name is passed over. -/
theorem findVarValue_other {name var rest : Bytes} (hname : 38 ∉ name) (hvar : ∀ c ∈ var, 33 ≤ c ∧ c ≤ 126 ∧ c ≠ 38)
    (hother : ¬ name ++ bytes "=" <+: var) : findVarValue (var ++ 38 :: rest) name = findVarValue rest name := by
  have hnot : ¬ (name ++ bytes "=").isPrefixOf (var ++ 38 :: rest) = true := by
    rw [List.isPrefixOf_iff_prefix]
    intro hbegin
    rcases List.prefix_or_prefix_of_prefix hbegin (List.prefix_append var (38 :: rest)) with h | ⟨middle, hmiddle⟩
    · exact hother h
    · rcases middle with _ | ⟨c, middle⟩
      · exact hother ⟨[], by rw [← hmiddle, List.append_nil, List.append_nil]⟩
      · rw [← hmiddle, List.prefix_append_right_inj, List.cons_prefix_cons] at hbegin
        have hmem : (38 : UInt8) ∈ name ++ bytes "=" := by
          rw [← hmiddle, hbegin.1]
          exact List.mem_append_right _ List.mem_cons_self
        rcases List.mem_append.1 hmem with h | h
        · exact hname h
        · exact absurd h (by decide)
  have hdrop : (var ++ 38 :: rest).dropWhile (fun c => decide ¬ (c ∈ ([0, 38, 32, 9, 13, 10] : Bytes))) = 38 :: rest := by
    have hplain : ∀ c : UInt8, 33 ≤ c ∧ c ≤ 126 ∧ c ≠ 38 → c ∉ ([0, 38, 32, 9, 13, 10] : Bytes) :=
      Uri.forall_byte (by decide +kernel)
    rw [List.dropWhile_append_of_pos fun c hc => decide_eq_true (hplain c (hvar c hc)),
      List.dropWhile_cons_of_neg (by decide)]
  rw [findVarValue, if_neg hnot]
  split
  · rename_i rest' hrest
    obtain ⟨-, rfl⟩ := List.cons.inj (hdrop.symm.trans hrest)
    rfl
  · rename_i hnone
    exact absurd hdrop (hnone rest)

theorem findVarValue_query (r : BrowserRequest) (behind : Bytes) :
    findVarValue (r.query ++ behind) (bytes "code") = some (r.src ++ r.rest ++ behind) := by
  have hbefore := r.beforeProper
  rw [BrowserRequest.query]
  generalize r.before = vars at hbefore
  induction vars with
  | nil =>
      have hcode : bytes "code=" = bytes "code" ++ bytes "=" := by decide
      have hfound := findVarValue_found (bytes "code") (r.src ++ r.rest ++ behind)
      simpa [hcode] using hfound
  | cons var vars ih =>
      rw [List.forall_mem_cons] at hbefore
      have hother : findVarValue (var ++ 38 :: ((vars.map fun var => var ++ [38]).flatten
          ++ (bytes "code=" ++ (r.src ++ r.rest)) ++ behind)) (bytes "code") = _ :=
        findVarValue_other (by decide) hbefore.1.1 hbefore.1.2
      rw [← ih hbefore.2, ← hother]
      simp

/-- A variable of the query string is found before anything is looked for in a body. -/
private theorem varOf_query {text name query value : Bytes} {idx : Nat} (hzero : 0 ∉ text)
    (hquery : text.dropWhile (fun c => decide (c ≠ 63 ∧ c ≠ 13)) = 63 :: query)
    (hvalue : findVarValue query name = some value) : varOf ⟨text, idx⟩ name = some value := by
  simp only [varOf, cString_eq hzero, hquery, hvalue]

/-- The value of the code in the request. -/
theorem codeValue_text (r : BrowserRequest) : codeValue ⟨r.text, 0⟩ = some r.code := by
  have hzero : 0 ∉ r.text := zero_notMem_joinLines fun l hl => (r.bodiless_text l hl).2.2.1
  have hbehind := findVarValue_query r (32 :: (bytes "HTTP/1.1" ++ 13 :: 10 :: (joinLines r.lines ++ crlf)))
  have hquery : r.text.dropWhile (fun c => decide (c ≠ 63 ∧ c ≠ 13))
      = 63 :: (r.query ++ 32 :: (bytes "HTTP/1.1" ++ 13 :: 10 :: (joinLines r.lines ++ crlf))) := by
    have htext : r.text = (bytes "GET" ++ 32 :: r.path)
        ++ 63 :: (r.query ++ 32 :: (bytes "HTTP/1.1" ++ 13 :: 10 :: (joinLines r.lines ++ crlf))) := by
      rw [r.tail_text, r.requestLine_eq, BrowserRequest.target]
      simp
    have hfront : ∀ c ∈ bytes "GET" ++ 32 :: r.path, c ≠ 63 ∧ c ≠ 13 := by
      have hget : ∀ c ∈ bytes "GET", c ≠ 63 ∧ c ≠ 13 := by decide +kernel
      have hliteral : ∀ c : UInt8, Uri.isLiteral c → c ≠ 63 ∧ c ≠ 13 := Uri.forall_byte (by decide +kernel)
      intro c hc
      simp only [List.mem_append, List.mem_cons] at hc
      rcases hc with hc | rfl | hc
      · exact hget c hc
      · decide
      · exact hliteral c (r.pathLiteral c hc)
    rw [htext, List.dropWhile_append_of_pos fun c hc => decide_eq_true (hfront c hc),
      List.dropWhile_cons_of_neg (by decide)]
  have hends : ∀ c ∈ (r.rest ++ 32 :: (bytes "HTTP/1.1" ++ 13 :: 10 :: (joinLines r.lines ++ crlf))).head?, endsVar c := by
    rcases hafter : r.after with _ | ⟨var, vars⟩
    · simp [BrowserRequest.rest, hafter, endsVar]
    · simp [BrowserRequest.rest, hafter, endsVar]
  have hdecoded := decoded_stands r.stands hends
  rw [codeValue, varOf_query hzero hquery hbehind, Option.map_some, List.append_assoc, hdecoded]

theorem readRequest_text (r : BrowserRequest) :
    readRequest ⟨r.text, 0⟩ = some (.request (bytes "GET") r.path ⟨r.text, 0⟩) := by
  have hzero : 0 ∉ r.text := zero_notMem_joinLines fun l hl => (r.bodiless_text l hl).2.2.1
  have hpath : ∀ rest, decoded (r.path ++ 63 :: rest) = r.path := by
    have hstands : Uri.Stands r.path r.path := by
      have hliteral := r.pathLiteral
      generalize r.path = path at hliteral
      induction path with
      | nil => exact .nil
      | cons c path ih =>
          rw [List.forall_mem_cons] at hliteral
          exact .literal hliteral.1 (ih hliteral.2)
    intro rest
    apply decoded_stands hstands
    simp [endsVar]
  have hshort : r.path.take (pathSize - 1) = r.path := by
    apply List.take_of_length_le
    have hfits := r.pathFits
    omega
  have hpathZero : 0 ∉ r.path := by
    intro h
    exact absurd (r.pathLiteral 0 h) (by decide)
  rw [readRequest]
  dsimp only
  rw [cString_eq hzero, scanRequestLine_text]
  dsimp only
  rw [if_pos (by decide), urlDecode, urlDecodeLoop_eq, List.length_replicate, BrowserRequest.target, List.append_assoc,
    List.cons_append, hpath]
  dsimp only
  rw [hshort, store, cString_terminated, cString_eq hpathZero]

/-- However much comes behind it, the request is read as it was meant. -/
theorem requestsIn_text (r : BrowserRequest) (more : Bytes) :
    requestsIn (r.text ++ more) = [.request (bytes "GET") r.path ⟨r.text, 0⟩] := by
  have hfirst : firstRequest (r.text ++ more) = some ⟨r.text, 0⟩ := firstRequest_joinLines r.bodiless_text more
  rw [requestsIn, hfirst, Option.bind_some, readRequest_text]
  rfl

end Sb

end HiveSdk
