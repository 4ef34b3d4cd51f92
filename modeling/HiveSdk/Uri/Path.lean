import HiveSdk.Uri.Authority
import Mathlib.Data.List.Infix

/-!
# The path of a URI

How RFC 3986 finds out what a path names: it ends at the first `?` or `#`, its dot segments are removed, and the percent escapes of the segments that are left are decoded. A path to which none of this happens is found again as it was written, so two of them never name the same.
-/

namespace Uri

def percent : UInt8 := 37
def dot : UInt8 := 46

def isHexDigit (c : UInt8) : Bool := (48 ≤ c ∧ c ≤ 57) ∨ (65 ≤ c ∧ c ≤ 70) ∨ (97 ≤ c ∧ c ≤ 102)

def hexValue (c : UInt8) : UInt8 := if c ≤ 57 then c - 48 else if c ≤ 70 then c - 55 else c - 87

/-- A percent sign with two hexadecimal digits stands for a byte, and any other one for itself. -/
def decode : Text → Text
  | [] => []
  | [a] => [a]
  | [a, b] => [a, b]
  | a :: b :: c :: rest =>
      if a = percent ∧ isHexDigit b ∧ isHexDigit c then (16 * hexValue b + hexValue c) :: decode rest
      else a :: decode (b :: c :: rest)

/-- The segments `.` and `..`. -/
def IsDots (s : Text) : Prop := s = [dot] ∨ s = [dot, dot]

instance (s : Text) : Decidable (IsDots s) := inferInstanceAs (Decidable (_ ∨ _))

def removeDot (out : List Text) (s : Text) : List Text :=
  if s = [dot] then out else if s = [dot, dot] then out.dropLast else out ++ [s]

/-- A dot segment at the end leaves an empty segment behind. -/
def removeDots (segments : List Text) : List Text :=
  let closed := if ∃ s ∈ segments.getLast?, IsDots s then segments ++ [[]] else segments
  closed.foldl removeDot []

/-- What stands behind the authority, as far as the query. -/
def pathText (uri : Text) : Option Text :=
  match uri.dropWhile (· ≠ colon) with
  | c₁ :: c₂ :: c₃ :: rest =>
      if c₁ = colon ∧ c₂ = slash ∧ c₃ = slash then
        some ((rest.dropWhile (¬ endsAuthority ·)).takeWhile fun c => c ≠ question ∧ c ≠ hash)
      else none
  | _ => none

/-- The segments of an absolute path. -/
def segments (path : Text) : List Text := (path.splitOn slash).tail

/-- What the path of a URI names. -/
def resolve (uri : Text) : Option (List Text) :=
  (pathText uri).map fun path => (removeDots (segments path)).map decode

example : removeDots [[97], [98], [99], [dot], [dot, dot], [dot, dot], [103]] = [[97], [103]] := by decide

/-! ### Texts that stand for themselves -/

/-- Somewhere in the text a percent sign has two hexadecimal digits behind it. -/
def Escaped (text : Text) : Prop :=
  ∃ b c, isHexDigit b ∧ isHexDigit c ∧ [percent, b, c] <:+: text

/-- The text is taken literally as a part of a path. -/
structure Plain (text : Text) : Prop where
  question_notMem : question ∉ text
  hash_notMem : hash ∉ text
  not_escaped : ¬ Escaped text
  not_dots : ∀ s ∈ text.splitOn slash, ¬ IsDots s

theorem Escaped.of_part {text text' : Text} (h : Escaped text) (hpart : text <:+: text') : Escaped text' := by
  obtain ⟨b, c, hb, hc, hmem⟩ := h
  exact ⟨b, c, hb, hc, hmem.trans hpart⟩

theorem not_escaped_of_notMem {text : Text} (h : percent ∉ text) : ¬ Escaped text := by
  rintro ⟨b, c, -, -, hpart⟩
  exact h (hpart.subset List.mem_cons_self)

theorem decode_of_not_escaped {text : Text} (h : ¬ Escaped text) : decode text = text := by
  fun_induction decode text with
  | case1 | case2 | case3 => rfl
  | case4 a b c rest hescape =>
      obtain ⟨rfl, hb, hc⟩ := hescape
      exact absurd ⟨b, c, hb, hc, [], rest, rfl⟩ h
  | case5 a b c rest hplain ih =>
      rw [ih fun hrest => h (hrest.of_part (List.suffix_cons a _).isInfix)]

/-- A byte that is no part of an escape keeps the texts on its two sides apart. -/
theorem escaped_append_cons_iff {text rest : Text} {d : UInt8} (hpercent : d ≠ percent)
    (hhex : isHexDigit d = false) : Escaped (text ++ d :: rest) ↔ Escaped text ∨ Escaped rest := by
  constructor
  · rintro ⟨b, c, hb, hc, hpart⟩
    have hbd : b ≠ d := by
      rintro rfl
      exact Bool.false_ne_true (hhex.symm.trans hb)
    have hcd : c ≠ d := by
      rintro rfl
      exact Bool.false_ne_true (hhex.symm.trans hc)
    induction text with
    | nil =>
        rcases List.infix_cons_iff.1 hpart with hprefix | hrest
        · exact absurd (List.cons_prefix_cons.1 hprefix).1.symm hpercent
        · exact .inr ⟨b, c, hb, hc, hrest⟩
    | cons x text ih =>
        rcases List.infix_cons_iff.1 hpart with hprefix | hrest
        · obtain ⟨hx, hdigits⟩ := List.cons_prefix_cons.1 hprefix
          rcases text with _ | ⟨y, _ | ⟨z, text⟩⟩
          · exact absurd (List.cons_prefix_cons.1 hdigits).1 hbd
          · obtain ⟨hy, hdigit⟩ := List.cons_prefix_cons.1 hdigits
            exact absurd (List.cons_prefix_cons.1 hdigit).1 hcd
          · obtain ⟨hy, hdigit⟩ := List.cons_prefix_cons.1 hdigits
            obtain ⟨hz, -⟩ := List.cons_prefix_cons.1 hdigit
            subst hx hy hz
            exact .inl ⟨b, c, hb, hc, [], text, rfl⟩
        · exact (ih hrest).imp_left fun h => h.of_part (List.suffix_cons x _).isInfix
  · intro h
    rcases h with h | h
    · exact h.of_part (List.prefix_append _ _).isInfix
    · exact h.of_part ((List.suffix_cons d rest).trans (List.suffix_append _ _)).isInfix

theorem foldl_removeDot {segments out : List Text} (h : ∀ s ∈ segments, ¬ IsDots s) :
    segments.foldl removeDot out = out ++ segments := by
  induction segments generalizing out with
  | nil => exact (List.append_nil out).symm
  | cons s segments ih =>
      have hs := h s List.mem_cons_self
      have hstep : removeDot out s = out ++ [s] := by
        rw [removeDot, if_neg fun hdot => hs (.inl hdot), if_neg fun hdots => hs (.inr hdots)]
      rw [List.foldl_cons, hstep, ih fun t ht => h t (List.mem_cons_of_mem s ht), List.append_assoc]
      rfl

theorem removeDots_of_plain {segments : List Text} (h : ∀ s ∈ segments, ¬ IsDots s) :
    removeDots segments = segments := by
  have hlast : ¬ ∃ s ∈ segments.getLast?, IsDots s := by
    rintro ⟨s, hs, hdots⟩
    exact h s (List.mem_of_getLast? hs) hdots
  rw [removeDots, if_neg hlast, foldl_removeDot h, List.nil_append]

theorem infix_intercalate {sep s : Text} {segments : List Text} (h : s ∈ segments) :
    s <:+: sep.intercalate segments := by
  induction segments with
  | nil => cases h
  | cons t segments ih =>
      by_cases hnil : segments = []
      · subst hnil
        rw [List.mem_singleton.1 h, List.intercalate_singleton]
      · rw [List.intercalate_cons_of_ne_nil hnil]
        rcases List.mem_cons.1 h with rfl | hmem
        · exact ((List.prefix_append s sep).trans (List.prefix_append _ _)).isInfix
        · exact (ih hmem).trans (List.suffix_append _ _).isInfix

theorem infix_of_mem_splitOn {text s : Text} (h : s ∈ text.splitOn slash) : s <:+: text := by
  have hpart := @infix_intercalate [slash] s _ h
  rwa [List.intercalate_splitOn] at hpart

/-- A byte at the end goes to the last segment. -/
theorem splitOn_concat {c : UInt8} (hc : c ≠ slash) (text : Text) :
    ∃ front last, text.splitOn slash = front ++ [last]
      ∧ (text ++ [c]).splitOn slash = front ++ [last ++ [c]] := by
  induction text with
  | nil =>
      refine ⟨[], [], rfl, ?_⟩
      exact List.splitOn_eq_singleton (by simpa using hc.symm)
  | cons x text ih =>
      obtain ⟨front, last, htext, hconcat⟩ := ih
      rw [List.cons_append, List.splitOn_cons_eq_if_modifyHead, List.splitOn_cons_eq_if_modifyHead,
        htext, hconcat]
      by_cases hx : x == slash
      · rw [if_pos hx, if_pos hx]
        exact ⟨[] :: front, last, rfl, rfl⟩
      · rw [if_neg hx, if_neg hx]
        cases front with
        | nil => exact ⟨[], x :: last, rfl, rfl⟩
        | cons s front => exact ⟨(x :: s) :: front, last, rfl, rfl⟩

/-- Two literal texts with a slash between them. -/
theorem plain_append_slash_iff {text rest : Text} :
    Plain (text ++ slash :: rest) ↔ Plain text ∧ Plain rest := by
  have hsegments : ∀ s, s ∈ (text ++ slash :: rest).splitOn slash
      ↔ s ∈ text.splitOn slash ∨ s ∈ rest.splitOn slash := by
    intro s
    rw [List.splitOn_append_cons_self, List.mem_append]
  have hescaped := @escaped_append_cons_iff text rest slash (by decide) (by decide)
  constructor
  · intro h
    have hquestion := h.question_notMem
    have hhash := h.hash_notMem
    simp only [List.mem_append, List.mem_cons, not_or] at hquestion hhash
    constructor
    · exact ⟨hquestion.1, hhash.1, fun he => h.not_escaped (hescaped.2 (.inl he)),
        fun s hs => h.not_dots s ((hsegments s).2 (.inl hs))⟩
    · exact ⟨hquestion.2.2, hhash.2.2, fun he => h.not_escaped (hescaped.2 (.inr he)),
        fun s hs => h.not_dots s ((hsegments s).2 (.inr hs))⟩
  · intro h
    obtain ⟨htext, hrest⟩ := h
    refine ⟨?_, ?_, fun he => ?_, fun s hs => ?_⟩
    · simpa [htext.question_notMem, hrest.question_notMem] using (by decide : question ≠ slash)
    · simpa [htext.hash_notMem, hrest.hash_notMem] using (by decide : hash ≠ slash)
    · exact (hescaped.1 he).elim htext.not_escaped hrest.not_escaped
    · exact ((hsegments s).1 hs).elim (htext.not_dots s) (hrest.not_dots s)

theorem Plain.concat_colon {text : Text} (h : Plain text) : Plain (text ++ [colon]) := by
  refine ⟨?_, ?_, fun he => ?_, fun s hs => ?_⟩
  · simpa [h.question_notMem] using (by decide : question ≠ colon)
  · simpa [h.hash_notMem] using (by decide : hash ≠ colon)
  · have hescaped := (escaped_append_cons_iff (by decide) (by decide)).1 he
    exact hescaped.elim h.not_escaped (not_escaped_of_notMem List.not_mem_nil)
  · obtain ⟨front, last, htext, hconcat⟩ := @splitOn_concat colon (by decide) text
    rw [hconcat, List.mem_append, List.mem_singleton] at hs
    rcases hs with hfront | rfl
    · exact h.not_dots s (by simp [htext, hfront])
    · intro hdots
      have hlast : (last ++ [colon]).getLast? = some colon := by simp
      rcases hdots with heq | heq <;> rw [heq] at hlast <;> exact absurd hlast (by decide)

/-! ### Paths that are found again -/

/-- The path of a URI that is written as it is meant. -/
theorem resolve_of_plain {scheme authority path : Text} (hscheme : colon ∉ scheme)
    (hauthority : ∀ c ∈ authority, endsAuthority c = false) (hpath : Plain path) :
    resolve (scheme ++ colon :: slash :: slash :: (authority ++ slash :: path))
      = some (path.splitOn slash) := by
  have hslash : endsAuthority slash = true := by decide
  have hdrop : (authority ++ slash :: path).dropWhile (¬ endsAuthority ·) = slash :: path := by
    rw [List.dropWhile_append_of_pos]
    · simp [hslash]
    · intro c hc
      simp [hauthority c hc]
  have hwhole : (slash :: path).takeWhile (fun c => c ≠ question ∧ c ≠ hash) = slash :: path := by
    apply List.takeWhile_eq_self_iff.2
    intro c hc
    have hne : c ≠ question ∧ c ≠ hash := by
      rcases List.mem_cons.1 hc with rfl | hmem
      · decide
      · exact ⟨fun heq => hpath.question_notMem (heq ▸ hmem), fun heq => hpath.hash_notMem (heq ▸ hmem)⟩
    simpa using hne
  have hsegments : segments (slash :: path) = path.splitOn slash := by
    rw [segments, List.splitOn_cons_eq_if_modifyHead, if_pos (by decide), List.tail_cons]
  have hdecode : (path.splitOn slash).map decode = path.splitOn slash := by
    have hliteral : ∀ s ∈ path.splitOn slash, decode s = id s := fun s hs =>
      decode_of_not_escaped fun he => hpath.not_escaped (he.of_part (infix_of_mem_splitOn hs))
    rw [List.map_congr_left hliteral, List.map_id]
  rw [resolve, pathText, (cut_at hscheme).2]
  dsimp only
  rw [if_pos ⟨rfl, rfl, rfl⟩, hdrop, hwhole, Option.map_some, hsegments,
    removeDots_of_plain hpath.not_dots, hdecode]

/-- What is written differently names something else. -/
theorem eq_of_splitOn_eq {text text' : Text} (h : text.splitOn slash = text'.splitOn slash) : text = text' := by
  have hjoined := congrArg (List.intercalate [slash]) h
  rwa [List.intercalate_splitOn, List.intercalate_splitOn] at hjoined

end Uri
