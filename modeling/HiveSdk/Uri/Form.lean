import HiveSdk.Uri.Path

/-!
# Values in a query

How a value is written in a query: a byte stands for itself, or a percent sign and two hexadecimal digits stand for it, or a plus sign for a space. There may be many ways to write a value.
-/

namespace Uri

def ampersand : UInt8 := 38
def plus : UInt8 := 43
def space : UInt8 := 32

/-- The byte is printable and has no meaning of its own in a query. -/
def isLiteral (c : UInt8) : Bool := 33 ≤ c ∧ c ≤ 126 ∧ c ∉ [percent, ampersand, plus, question, hash]

/-- The text stands for the value. -/
inductive Stands : (text value : Text) → Prop
  | nil : Stands [] []
  | literal {c : UInt8} {text value : Text} (h : isLiteral c) (hrest : Stands text value) : Stands (c :: text) (c :: value)
  | plus {text value : Text} (hrest : Stands text value) : Stands (plus :: text) (space :: value)
  | escape {hi lo : UInt8} {text value : Text} (hhi : isHexDigit hi) (hlo : isHexDigit lo) (hrest : Stands text value) :
      Stands (percent :: hi :: lo :: text) ((16 * hexValue hi + hexValue lo) :: value)

theorem forall_byte {P : UInt8 → Prop} (h : ∀ i : Fin 256, P (UInt8.ofNat i)) (c : UInt8) : P c := by
  have hc := h ⟨c.toNat, c.toNat_lt⟩
  rwa [UInt8.ofNat_toNat] at hc

/-- The bytes of the text are printable, and none of them has a meaning in a query. -/
theorem Stands.printable {text value : Text} (h : Stands text value) {c : UInt8} (hc : c ∈ text) :
    33 ≤ c ∧ c ≤ 126 ∧ c ∉ [ampersand, question, hash] := by
  have hhex : ∀ c : UInt8, isHexDigit c → 33 ≤ c ∧ c ≤ 126 ∧ c ∉ [ampersand, question, hash] :=
    forall_byte (by decide +kernel)
  have hliteral : ∀ c : UInt8, isLiteral c → 33 ≤ c ∧ c ≤ 126 ∧ c ∉ [ampersand, question, hash] :=
    forall_byte (by decide +kernel)
  induction h with
  | nil => cases hc
  | literal hc' _ ih =>
      rcases List.mem_cons.1 hc with rfl | hc
      · exact hliteral _ hc'
      · exact ih hc
  | plus _ ih =>
      rcases List.mem_cons.1 hc with rfl | hc
      · decide
      · exact ih hc
  | escape hhi hlo _ ih =>
      simp only [List.mem_cons] at hc
      rcases hc with rfl | rfl | rfl | hc
      · decide
      · exact hhex _ hhi
      · exact hhex _ hlo
      · exact ih hc

end Uri
