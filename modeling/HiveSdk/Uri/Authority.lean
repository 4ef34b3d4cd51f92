import Mathlib.Data.List.Basic
import Mathlib.Data.List.TakeWhile

/-!
# The authority of a URI

How RFC 3986 reads the part of a URI between `//` and the path: an optional user with an `@`, the host, and an optional port behind a colon. A host in square brackets is an address literal and may contain colons; any other host ends at its first colon.
-/

namespace Uri

abbrev Text := List UInt8

def colon : UInt8 := 58
def slash : UInt8 := 47
def question : UInt8 := 63
def hash : UInt8 := 35
def atSign : UInt8 := 64
def openBracket : UInt8 := 91
def closeBracket : UInt8 := 93

def isDigit (c : UInt8) : Bool := 48 ≤ c ∧ c ≤ 57

/-- The value of a sequence of decimal digits. -/
def number (digits : Text) : Nat := digits.foldl (fun n c => 10 * n + (c.toNat - 48)) 0

structure Authority where
  host : Text
  port : Option Nat
  deriving DecidableEq, Repr

/-- What follows the host: nothing, or a colon with digits, of which there may be none. -/
def parsePort : Text → Option (Option Nat)
  | [] => some none
  | c :: digits =>
      if c ≠ colon ∨ ¬ digits.all isDigit then none
      else if digits = [] then some none
      else some (some (number digits))

def parseHostPort (text : Text) : Option Authority :=
  if text.head? = some openBracket then
    let literal := text.tail.takeWhile (· ≠ closeBracket)
    match text.tail.dropWhile (· ≠ closeBracket) with
    | [] => none
    | _ :: rest => (parsePort rest).map (⟨literal, ·⟩)
  else (parsePort (text.dropWhile (· ≠ colon))).map (⟨text.takeWhile (· ≠ colon), ·⟩)

def dropUser (text : Text) : Text :=
  if atSign ∈ text then (text.dropWhile (· ≠ atSign)).tail else text

/-- The bytes that end an authority. -/
def endsAuthority (c : UInt8) : Bool := c = slash ∨ c = question ∨ c = hash

/-- What stands between the scheme with its `//` and the path. -/
def authorityText (uri : Text) : Option Text :=
  match uri.dropWhile (· ≠ colon) with
  | c₁ :: c₂ :: c₃ :: rest =>
      if c₁ = colon ∧ c₂ = slash ∧ c₃ = slash then some (rest.takeWhile (¬ endsAuthority ·)) else none
  | _ => none

def parseAuthority (uri : Text) : Option Authority :=
  (authorityText uri).bind fun text => parseHostPort (dropUser text)

/-! ### Reading back what has been written -/

theorem endsAuthority_of_isDigit {c : UInt8} (h : isDigit c) : endsAuthority c = false := by
  rw [endsAuthority, decide_eq_false_iff_not]
  intro hends
  rcases hends with rfl | rfl | rfl <;> exact absurd h (by decide)

/-- A text is cut at the first occurrence of a byte. -/
theorem cut_at {c : UInt8} {text rest : Text} (h : c ∉ text) :
    (text ++ c :: rest).takeWhile (· ≠ c) = text ∧ (text ++ c :: rest).dropWhile (· ≠ c) = c :: rest := by
  have hall : ∀ b ∈ text, (decide (b ≠ c)) = true := by
    intro b hb
    have hne : b ≠ c := fun heq => h (heq ▸ hb)
    simpa using hne
  constructor
  · rw [List.takeWhile_append_of_pos hall]
    simp
  · rw [List.dropWhile_append_of_pos hall]
    simp

theorem dropUser_of_notMem {text : Text} (h : atSign ∉ text) : dropUser text = text := if_neg h

theorem authorityText_of_parts {scheme authority path : Text} (hscheme : colon ∉ scheme)
    (hauthority : ∀ c ∈ authority, endsAuthority c = false) (hpath : path.head? = some slash) :
    authorityText (scheme ++ colon :: slash :: slash :: (authority ++ path)) = some authority := by
  obtain ⟨rest, rfl⟩ : ∃ rest, path = slash :: rest := by
    cases path with
    | nil => cases hpath
    | cons c rest => exact ⟨rest, by rw [Option.some.inj hpath]⟩
  have htake : (authority ++ slash :: rest).takeWhile (¬ endsAuthority ·) = authority := by
    rw [List.takeWhile_append_of_pos]
    · show authority ++ [] = authority
      exact List.append_nil authority
    · intro c hc
      simp [hauthority c hc]
  rw [authorityText, (cut_at hscheme).2]
  dsimp only
  rw [if_pos ⟨rfl, rfl, rfl⟩, htake]

/-- A host without a colon and a port are found again. -/
theorem parseHostPort_of_named {host digits : Text} (hhost : colon ∉ host)
    (hbracket : openBracket ∉ host) (hdigits : digits.all isDigit) (hne : digits ≠ []) :
    parseHostPort (host ++ colon :: digits) = some ⟨host, some (number digits)⟩ := by
  have hhead : ¬ (host ++ colon :: digits).head? = some openBracket := by
    cases host with
    | nil =>
        intro h
        cases h
    | cons c host =>
        intro h
        exact hbracket (Option.some.inj h ▸ List.mem_cons_self)
  have hport : parsePort (colon :: digits) = some (some (number digits)) := by
    rw [parsePort, if_neg (by simp [hdigits]), if_neg hne]
  obtain ⟨htake, hdrop⟩ := @cut_at colon host digits hhost
  rw [parseHostPort, if_neg hhead, hdrop, htake, hport]
  rfl

/-- Outside square brackets no host with a colon is ever read. -/
theorem colon_notMem_host {text : Text} {a : Authority} (hbracket : text.head? ≠ some openBracket)
    (h : parseHostPort text = some a) : colon ∉ a.host := by
  rw [parseHostPort, if_neg hbracket] at h
  obtain ⟨port, -, rfl⟩ := Option.map_eq_some_iff.1 h
  intro hmem
  have hne := List.mem_takeWhile_imp hmem
  simp at hne

end Uri
