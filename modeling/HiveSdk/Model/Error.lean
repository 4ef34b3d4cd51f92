import HiveSdk.Model.CTypes

/-!
# Error codes

`HIVE_MK_ERROR` is an expression of an unsigned type: `0x80000000` does not fit an `int`. Its sign therefore depends on the type it is converted to, which is why the codes below are natural numbers and each function of the model converts them where its source does.
-/

namespace HiveSdk

/-- Facility codes. -/
inductive Facility
  | general | sys | reserved1 | reserved2 | curl | curlu | httpStatus
  deriving DecidableEq, Repr

def Facility.code : Facility → Nat
  | .general => 0x01
  | .sys => 0x02
  | .reserved1 => 0x03
  | .reserved2 => 0x04
  | .curl => 0x05
  | .curlu => 0x06
  | .httpStatus => 0x07

namespace HiveErr

def invalidArgs : Nat := 0x01
def outOfMemory : Nat := 0x02
def bufferTooSmall : Nat := 0x03
def badPersistentData : Nat := 0x04
def invalidPersistenceFile : Nat := 0x05
def invalidCredential : Nat := 0x06
def notReady : Nat := 0x07
def notExist : Nat := 0x08
def alreadyExist : Nat := 0x09
def invalidUserid : Nat := 0x0A
def wrongState : Nat := 0x0B
def busy : Nat := 0x0C
def languageBinding : Nat := 0x0D
def encrypt : Nat := 0x0E
def notImplemented : Nat := 0x0F
def notSupported : Nat := 0x10
def limitExceeded : Nat := 0x11
def encryptedPersistentData : Nat := 0x12
def badBootstrapHost : Nat := 0x13
def badBootstrapPort : Nat := 0x14
def badAddress : Nat := 0x15
def badJsonFormat : Nat := 0x16
def tryAgain : Nat := 0x17
def unknown : Nat := 0xFF

end HiveErr

/-- `HIVE_MK_ERROR`, before any conversion to a signed type. -/
def hiveMkError (facility : Facility) (code : Nat) : Nat :=
  0x80000000 ||| (facility.code <<< 24) |||
    (((code &&& 0x80000000) >>> 8) ||| (code &&& 0x7FFFFFFF))

def hiveGeneralError (code : Nat) : Nat := hiveMkError .general code
def hiveSysError (code : Nat) : Nat := hiveMkError .sys code
def hiveCurlError (code : Nat) : Nat := hiveMkError .curl code
def hiveCurluError (code : Nat) : Nat := hiveMkError .curlu code
def hiveHttpStatusError (code : Nat) : Nat := hiveMkError .httpStatus code

private theorem code_fold {code : Nat} (hcode : code < 2 ^ 24) :
    ((code &&& 0x80000000) >>> 8) ||| (code &&& 0x7FFFFFFF) = code := by
  have hhigh : code &&& 0x80000000 = 0 := by
    refine Nat.eq_of_testBit_eq fun i => ?_
    rw [Nat.testBit_and, show (0x80000000 : Nat) = 2 ^ 31 by norm_num, Nat.testBit_two_pow]
    by_cases hi : 31 = i
    · subst hi
      rw [Nat.testBit_lt_two_pow (hcode.trans (by decide))]
      simp
    · simp [hi]
  have hlow : code &&& 0x7FFFFFFF = code := by
    rw [show (0x7FFFFFFF : Nat) = 2 ^ 31 - 1 by norm_num, Nat.and_two_pow_sub_one_eq_mod]
    exact Nat.mod_eq_of_lt (by omega)
  rw [hhigh, hlow]
  simp

/-- For a code of 24 bits the three parts of the encoding do not overlap. -/
theorem hiveMkError_eq (facility : Facility) {code : Nat} (hcode : code < 2 ^ 24) :
    hiveMkError facility code = 2 ^ 31 + facility.code * 2 ^ 24 + code := by
  have hhead : 0x80000000 ||| facility.code <<< 24 = (128 + facility.code) <<< 24 := by
    cases facility <;> decide
  rw [hiveMkError, code_fold hcode, hhead, ← Nat.shiftLeft_add_eq_or_of_lt hcode,
    Nat.shiftLeft_eq]
  ring

theorem Facility.code_range (facility : Facility) : 1 ≤ facility.code ∧ facility.code ≤ 7 := by
  cases facility <;> decide

/-- Returned from an `int` function, an error code is negative. -/
theorem cInt_hiveMkError (facility : Facility) {code : Nat} (hcode : code < 2 ^ 24) :
    cInt (hiveMkError facility code) = facility.code * 2 ^ 24 + code - 2 ^ 31 := by
  have hrange := facility.code_range
  rw [hiveMkError_eq facility hcode, cInt]
  have hshift : ((2 ^ 31 + facility.code * 2 ^ 24 + code : Nat) : Int)
      = (facility.code * 2 ^ 24 + code - 2 ^ 31) + 2 ^ 32 := by
    push_cast
    ring
  rw [hshift, show ((2 : Int) ^ 32) = ((2 ^ 32 : Nat) : Int) by norm_num, Int.add_bmod_right]
  exact cInt_eq_self (by omega) (by omega)

theorem cInt_hiveMkError_neg (facility : Facility) {code : Nat} (hcode : code < 2 ^ 24) :
    cInt (hiveMkError facility code) < 0 := by
  have hrange := facility.code_range
  rw [cInt_hiveMkError facility hcode]
  omega

/-- Returned from an `ssize_t` function, the same code keeps its unsigned value. -/
theorem cSsize_hiveMkError (facility : Facility) {code : Nat} (hcode : code < 2 ^ 24) :
    cSsize (hiveMkError facility code) = 2 ^ 31 + facility.code * 2 ^ 24 + code := by
  have hrange := facility.code_range
  rw [hiveMkError_eq facility hcode, cSsize_eq_self (by omega) (by omega)]
  push_cast
  ring

/-- How a function of type `ssize_t` is left: with a length, with an error that has been in an `int`, or with an error code as the macro gives it. -/
inductive Exit
  | length (n : Int)
  | int (rc : Int)
  | code (err : Nat)
  deriving DecidableEq, Repr

/-- What the caller gets. -/
abbrev Exit.value : Exit → Int
  | length n => n
  | int rc => rc
  | code err => cSsize err

end HiveSdk
