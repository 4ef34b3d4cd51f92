import Mathlib.Data.Int.Lemmas
import Mathlib.Data.List.Basic
import Mathlib.Tactic.Ring

/-!
# C integers and C strings

Integers are unbounded here, and a conversion that the source makes to a fixed-width type is written out: `cInt` for `int`, `cSsize` for `ssize_t` and `long`, `cUInt` and `cSize` for the unsigned types. A C string is the list of its bytes without the terminator.
-/

namespace HiveSdk

/-- Conversion to a 32-bit `int`. -/
def cInt (x : Int) : Int := x.bmod (2 ^ 32)

/-- Conversion to a 64-bit `ssize_t` or `long`. -/
def cSsize (x : Int) : Int := x.bmod (2 ^ 64)

/-- Conversion to a 32-bit `unsigned int`. -/
def cUInt (x : Int) : Nat := (x % 2 ^ 32).toNat

/-- Conversion to a 64-bit `size_t`. -/
def cSize (x : Int) : Nat := (x % 2 ^ 64).toNat

theorem cInt_eq_self {x : Int} (hlow : -2 ^ 31 ≤ x) (hhigh : x < 2 ^ 31) : cInt x = x :=
  Int.bmod_eq_of_le (by omega) (by omega)

theorem cSsize_eq_self {x : Int} (hlow : -2 ^ 63 ≤ x) (hhigh : x < 2 ^ 63) : cSsize x = x :=
  Int.bmod_eq_of_le (by omega) (by omega)

theorem cInt_range (x : Int) : -2 ^ 31 ≤ cInt x ∧ cInt x < 2 ^ 31 := by
  have hlow : -((2 ^ 32 : Nat) : Int) / 2 ≤ cInt x := Int.le_bmod (by decide)
  have hhigh : cInt x < (((2 ^ 32 : Nat) : Int) + 1) / 2 := Int.bmod_lt (by decide)
  exact ⟨by simpa using hlow, by simpa using hhigh⟩

theorem cInt_cInt (x : Int) : cInt (cInt x) = cInt x := by
  have hrange := cInt_range x
  exact cInt_eq_self hrange.1 hrange.2

theorem cSize_eq_self {x : Nat} (hx : x < 2 ^ 64) : cSize x = x := by
  unfold cSize
  omega

/-- The double that a 64-bit integer is converted to: at most 53 significant bits are kept, and a tie goes to the even neighbour. -/
def roundToDouble (x : Int) : Int :=
  let size := x.natAbs.size
  if size ≤ 53 then x
  else
    let unit : Int := 2 ^ (size - 53)
    let low := x / unit
    let rest := x % unit
    if 2 * rest < unit then low * unit
    else if unit < 2 * rest then (low + 1) * unit
    else if low % 2 = 0 then low * unit
    else (low + 1) * unit

/-- `(ssize_t)d` for a double with integer part `x`. A value that does not fit gives the indefinite integer of the machine. -/
def doubleToLong (x : Int) : Int := if -2 ^ 63 ≤ x ∧ x < 2 ^ 63 then x else -2 ^ 63

theorem doubleToLong_lt (x : Int) : doubleToLong x < 2 ^ 63 := by
  unfold doubleToLong
  split <;> omega

/-! ### Strings -/

abbrev Bytes := List UInt8

/-- The bytes of an ASCII literal. -/
def bytes (s : String) : Bytes := s.toList.map fun c => UInt8.ofNat c.toNat

/-- The C string that starts at the first byte of `b`. -/
def cString (b : Bytes) : Bytes := b.takeWhile (· ≠ 0)

theorem cString_append {a : Bytes} (ha : 0 ∉ a) (b : Bytes) : cString (a ++ b) = a ++ cString b := by
  rw [cString, List.takeWhile_append_of_pos]
  · rfl
  · intro c hc
    have hne : c ≠ 0 := fun hzero => ha (hzero ▸ hc)
    simpa using hne

/-- What `snprintf` leaves in a buffer of `size` bytes, without the terminator. -/
def snprintf (size : Nat) (text : Bytes) : Bytes := text.take (size - 1)

theorem snprintf_eq_self {size : Nat} {text : Bytes} (h : text.length < size) :
    snprintf size text = text := List.take_of_length_le (by omega)

def tolower (c : UInt8) : UInt8 := if 65 ≤ c ∧ c ≤ 90 then c + 32 else c

/-- The bytes of a decimal number, as `%u` and `%zu` print it. -/
def decimal (n : Nat) : Bytes := (Nat.toDigits 10 n).map fun c => UInt8.ofNat c.toNat

/-- `isspace` in the C locale. -/
def isSpace (c : UInt8) : Bool := c = 32 ∨ 9 ≤ c ∧ c ≤ 13

def isDigit (c : UInt8) : Bool := 48 ≤ c ∧ c ≤ 57

/-- `strtol` to the base 10: the value, which is clipped to a `long`, and what follows the number. -/
def strtol (s : Bytes) : Int × Bytes :=
  let body := s.dropWhile isSpace
  let negative := body.head? = some 45
  let digits := if negative ∨ body.head? = some 43 then body.tail else body
  let number := digits.takeWhile isDigit
  let value : Nat := number.foldl (fun n c => 10 * n + (c.toNat - 48)) 0
  if number = [] then (0, s)
  else if negative then (max (-2 ^ 63) (-(value : Int)), digits.drop number.length)
  else (min (2 ^ 63 - 1) (value : Int), digits.drop number.length)

example : strtol (bytes " +9095/x") = (9095, bytes "/x") := by decide

def slash : UInt8 := 47

/-- POSIX `dirname`. -/
def dirname (path : Bytes) : Bytes :=
  let dropSlashes (p : Bytes) : Bytes := (p.reverse.dropWhile (· = slash)).reverse
  let trimmed := dropSlashes path
  if trimmed = [] then (if path = [] then bytes "." else [slash])
  else if slash ∉ trimmed then bytes "."
  else
    let dir := dropSlashes (trimmed.reverse.dropWhile (· ≠ slash)).reverse
    if dir = [] then [slash] else dir

/-- POSIX `basename`. -/
def basename (path : Bytes) : Bytes :=
  let trimmed := (path.reverse.dropWhile (· = slash)).reverse
  if trimmed = [] then (if path = [] then bytes "." else [slash])
  else (trimmed.reverse.takeWhile (· ≠ slash)).reverse

/-- The names on a path; neither a drive nor a file system takes notice of doubled slashes. -/
def segments (path : Bytes) : List Bytes := (path.splitOn slash).filter (· ≠ [])

theorem segments_append_slash (front rest : Bytes) :
    segments (front ++ slash :: rest) = segments front ++ segments rest := by
  rw [segments, List.splitOn_append_cons_self, List.filter_append]
  rfl

/-- The directory of a name in a directory. -/
theorem dirname_append {dir name : Bytes} (hname : slash ∉ name) (hne : name ≠ [])
    (hdir : ∃ front c, dir = front ++ [c] ∧ c ≠ slash) : dirname (dir ++ slash :: name) = dir := by
  have hkeep : ∀ {b : Bytes}, (∃ front c, b = front ++ [c] ∧ c ≠ slash) →
      (b.reverse.dropWhile (· = slash)).reverse = b := by
    rintro _ ⟨front, c, rfl, hc⟩
    rw [List.reverse_append, List.reverse_singleton, List.singleton_append,
      List.dropWhile_cons_of_neg (by simpa using hc), List.reverse_cons, List.reverse_reverse]
  have hlast : ∃ front c, dir ++ slash :: name = front ++ [c] ∧ c ≠ slash := by
    refine ⟨dir ++ slash :: name.dropLast, name.getLast hne, ?_, ?_⟩
    · rw [List.append_assoc, List.cons_append, List.dropLast_append_getLast]
    · intro h
      exact hname (h ▸ List.getLast_mem hne)
  have hcut : (dir ++ slash :: name).reverse.dropWhile (· ≠ slash) = slash :: dir.reverse := by
    rw [List.reverse_append, List.reverse_cons, List.append_assoc, List.singleton_append]
    rw [List.dropWhile_append_of_pos]
    · rw [List.dropWhile_cons_of_neg (by simp)]
    · intro c hc
      exact decide_eq_true fun h => hname (h ▸ List.mem_reverse.1 hc)
  have hdirNe : dir ≠ [] := by
    obtain ⟨front, c, rfl, -⟩ := hdir
    exact List.append_ne_nil_of_right_ne_nil _ (List.cons_ne_nil c [])
  simp only [dirname]
  rw [hkeep hlast, if_neg (by simp), if_neg (by simp), hcut, List.reverse_cons, List.reverse_reverse,
    List.reverse_append, List.reverse_singleton, List.singleton_append,
    List.dropWhile_cons_of_pos (by simp), hkeep hdir, if_neg hdirNe]

example : dirname (bytes "/KeyValues/a/b/") = bytes "/KeyValues/a" := by decide

example : basename (bytes "/KeyValues/a/b/") = bytes "b" := by decide

end HiveSdk
