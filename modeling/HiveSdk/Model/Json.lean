import HiveSdk.Model.CTypes

/-!
# cJSON documents

The parser and the printer are calls to the environment. What the source does itself is to look members up and to read the fields of a node, and that is here. A number node holds the integer part of its `valuedouble`: the source only ever converts that field to an integer.
-/

namespace HiveSdk

inductive Json
  | null
  | bool (b : Bool)
  | number (valuedouble : Int)
  | string (valuestring : Bytes)
  | array (items : List Json)
  | object (members : List (Bytes × Json))

namespace Json

def isObject : Json → Bool
  | object _ => true
  | _ => false

/-- The `valuestring` of a string node. -/
def asString : Json → Option Bytes
  | string s => some s
  | _ => none

/-- The `valuedouble` of a number node. -/
def asNumber : Json → Option Int
  | number v => some v
  | _ => none

/-- The items of an array node. -/
def asArray : Json → Option (List Json)
  | array items => some items
  | _ => none

/-- `cJSON_GetObjectItemCaseSensitive`: the first member of that name. -/
def getObjectItemCaseSensitive (json : Json) (name : Bytes) : Option Json :=
  match json with
  | object members => (members.find? fun m => m.1 = name).map Prod.snd
  | _ => none

/-- `cJSON_GetObjectItem`, which ignores the case of the name. -/
def getObjectItem (json : Json) (name : Bytes) : Option Json :=
  match json with
  | object members =>
      (members.find? fun m => m.1.map tolower = name.map tolower).map Prod.snd
  | _ => none

/-- A member of an object that is a string with at least one byte. -/
def stringItem (json : Json) (name : Bytes) : Option Bytes :=
  ((json.getObjectItemCaseSensitive name).bind asString).filter (· ≠ [])

/-- A member that is a number whose conversion to `ssize_t` or `long` is not negative. -/
def sizeItem (json : Json) (name : Bytes) : Option Int :=
  (((json.getObjectItemCaseSensitive name).bind asNumber).map doubleToLong).filter (0 ≤ ·)

theorem sizeItem_nonneg {json : Json} {name : Bytes} {n : Int} (h : json.sizeItem name = some n) :
    0 ≤ n ∧ n < 2 ^ 63 := by
  obtain ⟨hmap, hn⟩ := Option.filter_eq_some_iff.1 h
  obtain ⟨v, -, rfl⟩ := Option.map_eq_some_iff.1 hmap
  exact ⟨by simpa using hn, doubleToLong_lt v⟩

theorem stringItem_ne_nil {json : Json} {name s : Bytes} (h : json.stringItem name = some s) :
    s ≠ [] := by
  simpa using (Option.filter_eq_some_iff.1 h).2

end Json

end HiveSdk
