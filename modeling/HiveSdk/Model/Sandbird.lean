import HiveSdk.Model.Env

/-!
# Reading a variable of a request

The part of the redirect server that reads a variable out of a request it has received. `dst` is a buffer of `dst.length` bytes, of which the functions overwrite a prefix.
-/

namespace HiveSdk

namespace Sb

/-- The results of the server's functions that matter here. -/
inductive Result
  | success | truncated | notFound
  deriving DecidableEq, Repr

private def isDigit (c : UInt8) : Bool := 48 ≤ c ∧ c ≤ 57

/-- `hex_to_int` does not check that it is given a digit. -/
def hexToInt (c : UInt8) : Int :=
  if isDigit c then c.toNat - 48 else (tolower c).toNat - 97 + 10

/-- The byte of a percent escape: the two digits are shifted and or-ed as `int`s and cut to a `char`. -/
def percentByte (hi lo : UInt8) : UInt8 :=
  UInt8.ofNat ((hexToInt hi * 16 % 256).toNat ||| (hexToInt lo % 256).toNat)

/-- A byte that ends a variable: one of `?& \t\r\n`, or the terminator. -/
def endsVar (c : UInt8) : Bool := c ∈ [0, 63, 38, 32, 9, 13, 10]

/-- The loop of `url_decode`: the decoded bytes, and whether there was room left. -/
def urlDecodeLoop : (room : Nat) → Bytes → Bytes × Bool
  | 0, _ => ([], false)
  | _ + 1, [] => ([], true)
  | room + 1, c :: rest =>
      if endsVar c then ([], true)
      else match c, rest with
        | 37, hi :: lo :: rest' =>
            if hi ≠ 0 ∧ lo ≠ 0 then
              let (out, ok) := urlDecodeLoop room rest'
              (percentByte hi lo :: out, ok)
            else
              let (out, ok) := urlDecodeLoop room rest
              (c :: out, ok)
        | _, _ =>
            let (out, ok) := urlDecodeLoop room rest
            ((if c = 43 then 32 else c) :: out, ok)

/-- The buffer after a string and its terminator have been stored at its start. -/
def store (dst text : Bytes) : Bytes := text ++ 0 :: dst.drop (text.length + 1)

/-- `url_decode` into a buffer. -/
def urlDecode (dst src : Bytes) : Bytes × Result :=
  let (out, ok) := urlDecodeLoop (dst.length - 1) src
  (store dst out, if ok then .success else .truncated)

/-- `find_var_value`: variables are separated by `&`. -/
def findVarValue (str name : Bytes) : Option Bytes :=
  if (name ++ bytes "=").isPrefixOf str then some (str.drop (name.length + 1))
  else match _h : str.dropWhile fun c => ¬ (c ∈ ([0, 38, 32, 9, 13, 10] : Bytes)) with
    | 38 :: rest => findVarValue rest name
    | _ => none
termination_by str.length
decreasing_by
  have hle := (List.dropWhile_sublist (l := str) fun c => ¬ (c ∈ ([0, 38, 32, 9, 13, 10] : Bytes))).length_le
  rw [_h] at hle
  simp at hle
  omega

/-- `sb_get_var`: the query string first, then the body. -/
def getVar (st : SbStream) (name dst : Bytes) : Bytes × Result :=
  let query := (cString st.recvBuf).dropWhile fun c => c ≠ 63 ∧ c ≠ 13
  let inQuery := match query with
    | 63 :: rest => findVarValue rest name
    | _ => none
  let value := match inQuery with
    | some v => some v
    | none => if st.dataIdx ≠ 0 then findVarValue (cString (st.recvBuf.drop st.dataIdx)) name else none
  match value with
  | none => (store dst [], .notFound)
  | some v => urlDecode dst v

end Sb

end HiveSdk
