import HiveSdk.Model.Error

/-!
# Error texts

`hive_error.c` and `http_status.c`: the text of an error code is written to a buffer of the caller in two steps, the facility first and what it has to say about the code behind it. An area of memory knows which of its positions have been written, so that a write outside the buffer can be told.
-/

namespace HiveSdk

/-! ### Memory -/

/-- The bytes from a pointer on, and the positions that have been written. -/
structure Area where
  bytes : Nat → UInt8
  written : List Nat

namespace Area

/-- An area to which nothing has been written. -/
def untouched (bytes : Nat → UInt8) : Area := ⟨bytes, []⟩

def store (a : Area) (pos : Nat) (data : Bytes) : Area where
  bytes i := if pos ≤ i ∧ i < pos + data.length then data.getD (i - pos) 0 else a.bytes i
  written := List.range' pos data.length ++ a.written

def strcpy (a : Area) (pos : Nat) (text : Bytes) : Area := a.store pos (text ++ [0])

/-- The first `len` bytes. -/
def read (a : Area) (len : Nat) : Bytes := (List.range len).map a.bytes

end Area

/-! ### The facilities -/

/-- `strerror_func_t`: it is given a position and how many bytes there are from there, and returns a negative number on failure. -/
abbrev StrerrorFunc := (errcode pos len : Nat) → Area → Int × Area

structure ErrorDesc where
  errcode : Nat
  errdesc : Bytes
  deriving DecidableEq, Repr

/-- The text of a code in a table. -/
def tableError (codes : List ErrorDesc) : StrerrorFunc := fun errcode pos len a =>
  match codes.find? (·.errcode = errcode) with
  | none => (cInt (hiveGeneralError HiveErr.invalidArgs), a)
  | some desc =>
      if len ≤ desc.errdesc.length then (cInt (hiveGeneralError HiveErr.invalidArgs), a)
      else (0, a.strcpy pos desc.errdesc)

/-- The text that another function has for a code. -/
def textError (strerror : Nat → Option Bytes) : StrerrorFunc := fun errcode pos len a =>
  match strerror errcode with
  | none => (cInt (hiveGeneralError HiveErr.invalidArgs), a)
  | some errstr =>
      if errstr.length ≥ len then (cInt (hiveGeneralError HiveErr.bufferTooSmall), a)
      else (0, a.strcpy pos errstr)

def errorCodes : List ErrorDesc :=
  [⟨HiveErr.invalidArgs, bytes "Invalid argument(s)"⟩,
   ⟨HiveErr.outOfMemory, bytes "Out of memory"⟩,
   ⟨HiveErr.bufferTooSmall, bytes "Too small buffer size"⟩,
   ⟨HiveErr.badPersistentData, bytes "Bad persistent data"⟩,
   ⟨HiveErr.invalidPersistenceFile, bytes "Invalid persistent file"⟩,
   ⟨HiveErr.invalidCredential, bytes "Invalid credential"⟩,
   ⟨HiveErr.notReady, bytes "SDK not ready"⟩,
   ⟨HiveErr.notExist, bytes "Entity not exists"⟩,
   ⟨HiveErr.alreadyExist, bytes "Entity already exists"⟩,
   ⟨HiveErr.invalidUserid, bytes "Invalid user id"⟩,
   ⟨HiveErr.wrongState, bytes "Being in wrong state"⟩,
   ⟨HiveErr.busy, bytes "Instance is being busy"⟩,
   ⟨HiveErr.languageBinding, bytes "Language binding error"⟩,
   ⟨HiveErr.encrypt, bytes "Encrypt error"⟩,
   ⟨HiveErr.notImplemented, bytes "Not implemented yet"⟩,
   ⟨HiveErr.notSupported, bytes "Not supported"⟩,
   ⟨HiveErr.limitExceeded, bytes "Exceeding the limit"⟩,
   ⟨HiveErr.encryptedPersistentData, bytes "Load encrypted persistent data error"⟩,
   ⟨HiveErr.badBootstrapHost, bytes "Bad bootstrap host"⟩,
   ⟨HiveErr.badBootstrapPort, bytes "Bad bootstrap port"⟩,
   ⟨HiveErr.badAddress, bytes "Bad carrier node address"⟩,
   ⟨HiveErr.badJsonFormat, bytes "Bad json format"⟩,
   ⟨HiveErr.tryAgain, bytes "Try again the operation"⟩,
   ⟨HiveErr.unknown, bytes "Unknown error"⟩]

def generalError : StrerrorFunc := tableError errorCodes

/-- The codes of curl's URL parser. -/
def curluCodes : List ErrorDesc :=
  [⟨1, bytes "CURLU pointer argument passed as NULL."⟩,
   ⟨2, bytes "part argument passed as NULL."⟩,
   ⟨3, bytes "a malformed input passed."⟩,
   ⟨4, bytes "invalid port number"⟩,
   ⟨5, bytes "unsupported scheme"⟩,
   ⟨6, bytes "URL decode error"⟩,
   ⟨7, bytes "a memory function failed"⟩,
   ⟨8, bytes "credentials was passed when prohibited"⟩,
   ⟨9, bytes "an unknown part ID"⟩,
   ⟨10, bytes "no scheme part in the URL"⟩,
   ⟨11, bytes "no user part in the URL"⟩,
   ⟨12, bytes "no password part in the URL"⟩,
   ⟨13, bytes "no options part in the URL"⟩,
   ⟨14, bytes "no host part in the URL"⟩,
   ⟨15, bytes "no port part in the URL"⟩,
   ⟨16, bytes "no query part in the URL"⟩,
   ⟨17, bytes "no fragment part in the URL"⟩]

def curluStrerror (errcode : Nat) : Option Bytes :=
  (curluCodes.find? (·.errcode = errcode)).map (·.errdesc)

def curluError : StrerrorFunc := textError curluStrerror

def statusCodes : List ErrorDesc :=
  [⟨100, bytes "Continue"⟩, ⟨101, bytes "Switching Protocols"⟩, ⟨102, bytes "Processing"⟩,
   ⟨103, bytes "Early Hints"⟩, ⟨200, bytes "OK"⟩, ⟨201, bytes "Created"⟩, ⟨202, bytes "Accepted"⟩,
   ⟨203, bytes "Non-Authoritative Information"⟩, ⟨204, bytes "No Content"⟩,
   ⟨205, bytes "Reset Content"⟩, ⟨206, bytes "Partial Content"⟩, ⟨207, bytes "Multi-Status"⟩,
   ⟨208, bytes "Already Reported"⟩, ⟨226, bytes "IM Used"⟩, ⟨300, bytes "Multiple Choices"⟩,
   ⟨301, bytes "Moved Permanently"⟩, ⟨302, bytes "Found"⟩, ⟨303, bytes "See Other"⟩,
   ⟨304, bytes "Not Modified"⟩, ⟨305, bytes "Use Proxy"⟩, ⟨307, bytes "Temporary Redirect"⟩,
   ⟨308, bytes "Permanent Redirect"⟩, ⟨400, bytes "Bad Request"⟩, ⟨401, bytes "Unauthorized"⟩,
   ⟨402, bytes "Payment Required"⟩, ⟨403, bytes "Forbidden"⟩, ⟨404, bytes "Not Found"⟩,
   ⟨405, bytes "Method Not Allowed"⟩, ⟨406, bytes "Not Acceptable"⟩,
   ⟨407, bytes "Proxy Authentication Required"⟩, ⟨408, bytes "Request Timeout"⟩,
   ⟨409, bytes "Conflict"⟩, ⟨410, bytes "Gone"⟩, ⟨411, bytes "Length Required"⟩,
   ⟨412, bytes "Precondition Failed"⟩, ⟨413, bytes "Payload Too Large"⟩,
   ⟨414, bytes "URI Too Long"⟩, ⟨415, bytes "Unsupported Media Type"⟩,
   ⟨416, bytes "Range Not Satisfiable"⟩, ⟨417, bytes "Expectation Failed"⟩,
   ⟨418, bytes "I'm a teapot"⟩, ⟨422, bytes "Unprocessable Entity"⟩, ⟨423, bytes "Locked"⟩,
   ⟨424, bytes "Failed Dependency"⟩, ⟨426, bytes "Upgrade Required"⟩,
   ⟨428, bytes "Precondition Required"⟩, ⟨429, bytes "Too Many Requests"⟩,
   ⟨431, bytes "Request Header Fields Too Large"⟩, ⟨451, bytes "Unavailable For Legal Reasons"⟩,
   ⟨500, bytes "Internal Server Error"⟩, ⟨501, bytes "Not Implemented"⟩,
   ⟨502, bytes "Bad Gateway"⟩, ⟨503, bytes "Service Unavailable"⟩, ⟨504, bytes "Gateway Time-out"⟩,
   ⟨505, bytes "HTTP Version Not Supported"⟩, ⟨506, bytes "Variant Also Negotiates"⟩,
   ⟨507, bytes "Insufficient Storage"⟩, ⟨508, bytes "Loop Detected"⟩, ⟨510, bytes "Not Extended"⟩,
   ⟨511, bytes "Network Authentication Required"⟩]

def httpStatusError : StrerrorFunc := tableError statusCodes

/-- The functions of the C library and of curl: the result of `strerror_r` and what it puts at the start of a buffer of so many bytes, and the text of `curl_easy_strerror`. -/
structure SystemTexts where
  strerrorR : (errcode len : Nat) → Int × Bytes
  curlEasyStrerror : Nat → Option Bytes

variable (texts : SystemTexts)

def systemError : StrerrorFunc := fun errcode pos len a =>
  let (rc, data) := texts.strerrorR errcode len
  (if rc < 0 then cInt (hiveSysError HiveErr.invalidArgs) else 0, a.store pos data)

def curlError : StrerrorFunc := textError texts.curlEasyStrerror

structure FacilityDesc where
  desc : Bytes
  errstring : Option StrerrorFunc

def facilityCodes : List FacilityDesc :=
  [⟨bytes "[General] ", some generalError⟩,
   ⟨bytes "[System] ", some (systemError texts)⟩,
   ⟨bytes "Reserved facility", none⟩,
   ⟨bytes "Reserved facility", none⟩,
   ⟨bytes "[curl] ", some (curlError texts)⟩,
   ⟨bytes "[curlu] ", some curluError⟩,
   ⟨bytes "[httpstat] ", some httpStatusError⟩]

/-! ### Decoding -/

/-- The bits of the facility in an `int`. -/
def facilityBits (errnum : BitVec 32) : Nat := (errnum.sshiftRight 24 &&& 0x0F#32).toNat

def errcodeBits (errnum : BitVec 32) : Nat := (errnum &&& 0x00FFFFFF#32).toNat

/-- The facility whose error this is. -/
def facilityOf (errnum : BitVec 32) : Option FacilityDesc :=
  if errnum &&& 0x80000000#32 = 0#32 ∨ facilityBits errnum = 0 then none
  else (facilityCodes texts)[facilityBits errnum - 1]?

/-- `hive_get_strerror` for a buffer of `len` bytes: either the error that is set when it returns `NULL`, or nothing when it returns the buffer, and what has become of the memory. -/
def hiveGetStrerror (errnum : BitVec 32) (buf : Option Area) (len : Nat) :
    Except Int Unit × Option Area :=
  match buf, facilityOf texts errnum with
  | some a, some facility =>
      if len < facility.desc.length then (.error (cInt (hiveGeneralError HiveErr.bufferTooSmall)), some a)
      else
        let a := a.strcpy 0 facility.desc
        match facility.errstring with
        | none => (.ok (), some a)
        | some errstring =>
            let (rc, a) := errstring (errcodeBits errnum) facility.desc.length (len - facility.desc.length) a
            if rc < 0 then (.error rc, some a) else (.ok (), some a)
  | _, _ => (.error (cInt (hiveGeneralError HiveErr.invalidArgs)), buf)

end HiveSdk
