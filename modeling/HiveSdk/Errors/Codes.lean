import HiveSdk.Model.OneDrive

/-!
# Error codes as results

What an `int` function of the library may return. One code is special: by the status 404 the key functions recognise an absent item, so it is worth knowing which functions cannot return it.
-/

namespace HiveSdk

open OneDrive

/-- A negative `int`. -/
structure IntError (rc : Int) : Prop where
  neg : rc < 0
  int : cInt rc = rc

theorem intError_hiveMkError (facility : Facility) {code : Nat} (hcode : code < 2 ^ 24) :
    IntError (cInt (hiveMkError facility code)) :=
  ⟨cInt_hiveMkError_neg facility hcode, cInt_cInt _⟩

/-- An error that the key functions pass on. -/
structure Fails (rc : Int) : Prop extends IntError rc where
  found : isNotFound rc = false

theorem cUInt_cInt {x : Nat} (hx : x < 2 ^ 32) : cUInt (cInt x) = x := by
  have hmod : cInt x % 2 ^ 32 = x % 2 ^ 32 := Int.bmod_emod
  rw [cUInt, hmod]
  omega

theorem isNotFound_hiveMkError (facility : Facility) {code : Nat} (hcode : code < 2 ^ 24) :
    isNotFound (cInt (hiveMkError facility code)) ↔ facility = .httpStatus ∧ code = 404 := by
  have hrange := facility.code_range
  have hlt : hiveMkError facility code < 2 ^ 32 := by
    rw [hiveMkError_eq facility hcode]
    omega
  have hstatus : hiveHttpStatusError HttpStatus.notFound = 2 ^ 31 + 7 * 2 ^ 24 + 404 := by decide
  rw [isNotFound, cUInt_cInt hlt, hstatus, decide_eq_true_iff, hiveMkError_eq facility hcode]
  constructor
  · intro h
    have hfacility : facility.code = 7 := by omega
    refine ⟨?_, by omega⟩
    cases facility <;> simp [Facility.code] at hfacility ⊢
  · intro h
    rw [h.1, h.2]
    rfl

theorem fails_hiveMkError {facility : Facility} {code : Nat} (hcode : code < 2 ^ 24)
    (hne : ¬ (facility = .httpStatus ∧ code = 404)) : Fails (cInt (hiveMkError facility code)) where
  toIntError := intError_hiveMkError facility hcode
  found := by
    rw [← Bool.not_eq_true, isNotFound_hiveMkError facility hcode]
    exact hne

theorem fails_hiveGeneralError {code : Nat} (hcode : code < 2 ^ 24) :
    Fails (cInt (hiveGeneralError code)) := fails_hiveMkError hcode (by simp)

theorem fails_hiveSysError (e : Errno) : Fails (cInt (hiveSysError e)) :=
  fails_hiveMkError (by omega) (by simp)

theorem fails_hiveCurlError (rc : CurlCode) : Fails (cInt (hiveCurlError rc)) :=
  fails_hiveMkError (by omega) (by simp)

theorem fails_hiveHttpStatusError {status : StatusCode} (hne : status ≠ HttpStatus.notFound) :
    Fails (cInt (hiveHttpStatusError status)) := by
  refine fails_hiveMkError (by omega) fun h => hne (Fin.ext ?_)
  exact h.2

theorem intError_hiveHttpStatusError (status : StatusCode) :
    IntError (cInt (hiveHttpStatusError status)) := intError_hiveMkError .httpStatus (by omega)

theorem isNotFound_hiveHttpStatusError :
    isNotFound (cInt (hiveHttpStatusError HttpStatus.notFound)) :=
  (isNotFound_hiveMkError .httpStatus (by decide)).2 ⟨rfl, rfl⟩

/-- An `int` says which facility failed, and how. -/
theorem cInt_hiveMkError_injective {facility facility' : Facility} {code code' : Nat}
    (hcode : code < 2 ^ 24) (hcode' : code' < 2 ^ 24)
    (h : cInt (hiveMkError facility code) = cInt (hiveMkError facility' code')) :
    facility = facility' ∧ code = code' := by
  rw [cInt_hiveMkError facility hcode, cInt_hiveMkError facility' hcode'] at h
  have hfacility : facility.code = facility'.code := by omega
  refine ⟨?_, by omega⟩
  cases facility <;> cases facility' <;> first | rfl | cases hfacility

/-! ### What the functions of type `int` return -/

def Returns (rc : Int) : Prop := rc = 0 ∨ IntError rc

theorem returns_curl (rc : CurlCode) : Returns (cInt (hiveCurlError rc)) :=
  .inr (intError_hiveMkError .curl (by omega))

theorem returns_httpStatus (status : StatusCode) : Returns (cInt (hiveHttpStatusError status)) :=
  .inr (intError_hiveHttpStatusError status)

theorem returns_general {code : Nat} (hcode : code < 2 ^ 24) :
    Returns (cInt (hiveGeneralError code)) := .inr (intError_hiveMkError .general hcode)

theorem Returns.of_neg {rc : Int} (h : Returns rc) (hneg : rc < 0) : IntError rc := by
  rcases h with rfl | h
  · cases hneg
  · exact h

end HiveSdk
