import HiveSdk.Connect.Login
import Mathlib.Data.List.TakeWhile

/-!
# The authorization code

What the redirect server hands over is whatever the last request to the right path has left in the one buffer there is, at the end of the first poll that brings a close of any connection. So a code survives exactly when it is in the buffer at that moment, and what is handed over is a whole code exactly when the value that was stored last fits the buffer and has no zero byte in it.
-/

namespace HiveSdk

open Interaction

namespace Sb

/-! ### Decoding with less room -/

/-- The value of a variable, undecoded, with all that follows it in the request. -/
def varOf (st : SbStream) (name : Bytes) : Option Bytes :=
  let query := (cString st.recvBuf).dropWhile fun c => c ≠ 63 ∧ c ≠ 13
  let inQuery := match query with
    | 63 :: rest => findVarValue rest name
    | _ => none
  match inQuery with
  | some v => some v
  | none => if st.dataIdx ≠ 0 then findVarValue (cString (st.recvBuf.drop st.dataIdx)) name else none

theorem getVar_eq (st : SbStream) (name dst : Bytes) : getVar st name dst =
    match varOf st name with
    | none => (store dst [], .notFound)
    | some v => urlDecode dst v := rfl

/-- The whole value: there is always room for as many bytes as are decoded. -/
def decoded (src : Bytes) : Bytes := (urlDecodeLoop (src.length + 1) src).1

/-- With less room there is a prefix of what there is with enough. -/
private theorem urlDecodeLoop_take {room enough : Nat} {src : Bytes} (henough : src.length < enough) :
    urlDecodeLoop room src = ((urlDecodeLoop enough src).1.take room,
      decide ((urlDecodeLoop enough src).1.length < room)) := by
  fun_induction urlDecodeLoop room src generalizing enough with
  | case1 src => simp
  | case2 room =>
      obtain ⟨enough, rfl⟩ := Nat.exists_eq_succ_of_ne_zero (Nat.ne_zero_of_lt henough)
      simp [urlDecodeLoop]
  | case3 room c rest hends =>
      obtain ⟨enough, rfl⟩ := Nat.exists_eq_succ_of_ne_zero (Nat.ne_zero_of_lt henough)
      simp [urlDecodeLoop, hends]
  | case4 room hi lo rest hdigits out ok hloop hends ih =>
      obtain ⟨enough, rfl⟩ := Nat.exists_eq_succ_of_ne_zero (Nat.ne_zero_of_lt henough)
      have hrest : rest.length < enough := by
        simp only [List.length_cons] at henough
        omega
      have hstep : urlDecodeLoop (enough + 1) (37 :: hi :: lo :: rest)
          = (percentByte hi lo :: (urlDecodeLoop enough rest).1, (urlDecodeLoop enough rest).2) := by
        rw [urlDecodeLoop, if_neg hends]
        simp only [if_pos hdigits]
      have hless := ih hrest
      rw [hloop] at hless
      obtain ⟨rfl, rfl⟩ := Prod.mk.inj hless
      rw [Nat.succ_eq_add_one, hstep]
      simp
  | case5 room hi lo rest hdigits out ok hends hloop ih =>
      obtain ⟨enough, rfl⟩ := Nat.exists_eq_succ_of_ne_zero (Nat.ne_zero_of_lt henough)
      have hrest : (hi :: lo :: rest).length < enough := by
        simp only [List.length_cons] at henough ⊢
        omega
      have hstep : urlDecodeLoop (enough + 1) (37 :: hi :: lo :: rest)
          = (37 :: (urlDecodeLoop enough (hi :: lo :: rest)).1, (urlDecodeLoop enough (hi :: lo :: rest)).2) := by
        rw [urlDecodeLoop, if_neg hends]
        simp only [if_neg hdigits]
      rw [ih hrest, Nat.succ_eq_add_one, hstep]
      simp
  | case6 room c rest hends out ok hloop hescape ih =>
      obtain ⟨enough, rfl⟩ := Nat.exists_eq_succ_of_ne_zero (Nat.ne_zero_of_lt henough)
      have hrest : rest.length < enough := by
        simp only [List.length_cons] at henough
        omega
      have hstep : urlDecodeLoop (enough + 1) (c :: rest)
          = ((if c = 43 then 32 else c) :: (urlDecodeLoop enough rest).1, (urlDecodeLoop enough rest).2) := by
        rw [urlDecodeLoop, if_neg hends]
        exact hescape
      rw [ih hrest, Nat.succ_eq_add_one, hstep]
      simp

/-- What is stored of a value, and whether that is all of it. -/
theorem urlDecodeLoop_eq (room : Nat) (src : Bytes) :
    urlDecodeLoop room src = ((decoded src).take room, decide ((decoded src).length < room)) :=
  urlDecodeLoop_take (Nat.lt_succ_self _)

end Sb

/-! ### What a request supplies -/

/-- The whole value of the variable `code` of a request. -/
def codeValue (stream : SbStream) : Option Bytes := (Sb.varOf stream (bytes "code")).map Sb.decoded

/-- The bytes of a code that fits the buffer with its terminator, and with the byte that the decoder keeps free. -/
def authorizeCodeMax : Nat := authorizeCodeSize - 2

section
variable {stream : SbStream} {value : Bytes}

private theorem codeOf_eq (hvalue : codeValue stream = some value) : codeOf stream
    = (Sb.store (List.replicate authorizeCodeSize 0) (value.take (authorizeCodeSize - 1)),
      if value.length < authorizeCodeSize - 1 then .success else .truncated) := by
  obtain ⟨v, hv, rfl⟩ := Option.map_eq_some_iff.1 hvalue
  rw [codeOf, Sb.getVar_eq, hv]
  simp only [Sb.urlDecode, Sb.urlDecodeLoop_eq, List.length_replicate, decide_eq_true_eq]

/-- The string that a value leaves in the buffer. -/
theorem codeOf_string (hvalue : codeValue stream = some value) :
    cString (codeOf stream).1 = cString (value.take (authorizeCodeSize - 1)) := by
  rw [codeOf_eq hvalue, Sb.store, Sb.cString_terminated]

/-- Without a value nothing is left. -/
theorem codeOf_none (hvalue : codeValue stream = none) : codeOf stream = (Sb.store (List.replicate authorizeCodeSize 0) [], .notFound) := by
  rw [codeOf, Sb.getVar_eq, Option.map_eq_none_iff.1 hvalue]

/-- The handler reports no error for a value that is at most 510 bytes long. -/
theorem codeOf_success_iff :
    (codeOf stream).2 = .success ↔ ∃ value, codeValue stream = some value ∧ value.length ≤ authorizeCodeMax := by
  rcases hvalue : codeValue stream with _ | value
  · rw [codeOf_none hvalue]
    constructor
    · exact fun h => nomatch h
    · exact fun ⟨value, h, _⟩ => nomatch h
  · rw [codeOf_eq hvalue]
    have hmax : value.length ≤ authorizeCodeMax ↔ value.length < authorizeCodeSize - 1 := by
      rw [authorizeCodeMax, authorizeCodeSize]
      omega
    dsimp only
    constructor
    · intro h
      refine ⟨value, rfl, hmax.2 ?_⟩
      by_contra hlong
      rw [if_neg hlong] at h
      cases h
    · intro ⟨value', hvalue', hshort⟩
      cases hvalue'
      exact if_pos (hmax.1 hshort)

end

/-- The request of an event, if it goes to the redirect path. -/
def streamOn (path : Bytes) : SbEvent → Option SbStream
  | .request reqPath stream => if reqPath = path then some stream else none
  | _ => none

/-- The request that has been handled last. -/
def supplier (path : Bytes) (polls : List (List SbEvent)) : Option SbStream :=
  ((handled polls).filterMap (streamOn path)).getLast?

/-- The buffer holds what the last request has left there. -/
private theorem foldl_codeAfter (path code : Bytes) (es : List SbEvent) : es.foldl (codeAfter path) code
    = ((es.filterMap (streamOn path)).getLast?.map fun stream => cString (codeOf stream).1).getD code := by
  induction es generalizing code with
  | nil => rfl
  | cons e es ih =>
      rw [List.foldl_cons, ih, List.filterMap_cons]
      rcases he : streamOn path e with _ | stream
      · have hkept : codeAfter path code e = code := by
          cases e with
          | request reqPath stream =>
              rw [streamOn] at he
              split at he
              case isTrue => cases he
              case isFalse hpath => exact if_neg hpath
          | _ => rfl
        rw [hkept]
      · have hstored : codeAfter path code e = cString (codeOf stream).1 := by
          cases e with
          | request reqPath stream' =>
              rw [streamOn] at he
              split at he
              case isTrue hpath =>
                  cases he
                  exact if_pos hpath
              case isFalse => cases he
          | _ => cases he
        rw [hstored, List.getLast?_cons]
        cases (es.filterMap (streamOn path)).getLast? <;> rfl

theorem handled_code (path : Bytes) (polls : List (List SbEvent)) : (handled polls).foldl (codeAfter path) []
    = ((supplier path polls).map fun stream => cString (codeOf stream).1).getD [] :=
  foldl_codeAfter path [] (handled polls)

/-! ### What is handed over -/

/-- The calls of `get_authorize_code` when nothing fails: the redirect path and the events are what the environment says. -/
def asked (url host port path : Bytes) (polls : List (List SbEvent)) : Trace :=
  [⟨.httpClientNew .getAuthorizeCode, true⟩, ⟨.curlUrlGet .url, .ok url⟩, ⟨.curlUrlGet .host, .ok host⟩,
    ⟨.curlUrlGet .port, .ok port⟩, ⟨.curlUrlGet .path, .ok path⟩, ⟨.sbNewServer host port, true⟩,
    ⟨.pthreadCreate, .ok ()⟩, ⟨.sbPollServer, polls⟩]

private theorem ret_of_wp {α : Type} {Q : α → Unit → Prop} {m : Prog Event Event.Answer α}
    (h : m.wp (World.guard fun _ => False) Q ()) : ∃ a, m = .ret a ∧ Q a () := by
  cases m with
  | ret a => exact ⟨a, rfl, h⟩
  | ask e k => exact h.1.elim

section
variable {p : Process OneDriveConnect} {url host port path code : Bytes} {polls : List (List SbEvent)}

/-- When some poll brings a close the wait ends, and a code that is there is handed over. -/
theorem run_getAuthorizeCode (hcloses : Closes polls) (hne : code ≠ [])
    (hcode : (handled polls).foldl (codeAfter path) [] = code) :
    ∃ p', Run (getAuthorizeCode p) (asked url host port path polls) (some code, p') := by
  have hloop : Proc.wp (World.guard fun _ => False)
      (pollUntilStopped path ⟨false, List.replicate authorizeCodeSize 0⟩ polls)
      (fun a _ _ => cString a.code = code) p () :=
    wp_pollUntilStopped (fun hopen => absurd hcloses hopen) List.length_replicate rfl
      fun _ _ _ hheard => hheard.code.trans hcode
  obtain ⟨⟨a, p'⟩, hret, hleft⟩ := ret_of_wp hloop
  refine ⟨p', ?_⟩
  iterate 8 refine .ask _ _ _ ?_
  show Run (Prog.bind (pollUntilStopped path ⟨false, List.replicate authorizeCodeSize 0⟩ polls p)
    fun x => .ret (if cString x.1.code = [] then none else some (cString x.1.code), x.2)) [] _
  rw [hret, ← hleft]
  have hsome : (if cString a.code = [] then none else some (cString a.code)) = some (cString a.code) :=
    if_neg (hleft ▸ hne)
  rw [← hsome]
  exact .refl _

/-- A code that is handed over is what the last request has left, and the wait has ended. -/
theorem leaves_of_run {tr : Trace} {p' : Process OneDriveConnect} (hrun : Run (getAuthorizeCode p) tr (some code, p')) :
    (Redirect.of tr).Leaves code ∧ code ≠ [] := by
  have hspec : Proc.wp (World.monitor (fun _ e => AuthorizeCall e) Redirect.observe) getAuthorizeCode
      (fun o _ r => ∀ code, o = some code → r.Leaves code ∧ code ≠ []) p {} := by
    apply authorizing_getAuthorizeCode
    · intro code p' r _ hdelivered hleaves code' hcode'
      cases hcode'
      refine ⟨hleaves, fun hnil => ?_⟩
      obtain ⟨path, polls, hpath, hpolls, hne⟩ := hdelivered
      obtain ⟨path', polls', hpath', hpolls', -, hcode⟩ := hleaves
      cases hpath.symm.trans hpath'
      cases hpolls.symm.trans hpolls'
      exact hne (hcode.trans hnil)
    · exact fun _ _ _ _ _ _ _ h => nomatch h
    · exact fun _ _ _ _ _ _ _ h => nomatch h
  exact Proc.monitored hspec hrun code rfl

/-- A code is returned exactly when some connection closes, and the last request to the path that is handled before the end of that poll leaves this code. That a request has carried it is not enough. -/
theorem code_returned_iff (p : Process OneDriveConnect) (url host port path code : Bytes) (polls : List (List SbEvent)) :
    (∃ p', Run (getAuthorizeCode p) (asked url host port path polls) (some code, p'))
      ↔ Closes polls ∧ code ≠ [] ∧ ∃ stream value, supplier path polls = some stream
        ∧ codeValue stream = some value ∧ cString (value.take (authorizeCodeSize - 1)) = code := by
  constructor
  · rintro ⟨p', hrun⟩
    obtain ⟨⟨path', polls', hpath, hpolls, hcloses, hleft⟩, hne⟩ := leaves_of_run hrun
    cases hpath
    cases hpolls
    refine ⟨hcloses, hne, ?_⟩
    rw [handled_code] at hleft
    rcases hsupplier : supplier path polls with _ | stream
    · rw [hsupplier] at hleft
      exact absurd hleft.symm hne
    rw [hsupplier] at hleft
    rcases hvalue : codeValue stream with _ | value
    · rw [Option.map_some, codeOf_none hvalue, Sb.store, Option.getD_some, Sb.cString_terminated] at hleft
      exact absurd hleft.symm hne
    · refine ⟨stream, value, rfl, hvalue, ?_⟩
      rw [← hleft]
      exact (codeOf_string hvalue).symm
  · rintro ⟨hcloses, hne, stream, value, hsupplier, hvalue, hleft⟩
    apply run_getAuthorizeCode hcloses hne
    rw [handled_code, hsupplier, Option.map_some, Option.getD_some, codeOf_string hvalue]
    exact hleft

/-- The code is the whole value of the request that supplies it, for which the handler reports no error. -/
structure Genuine (path : Bytes) (polls : List (List SbEvent)) (code : Bytes) : Prop where
  supplied : ∃ stream, supplier path polls = some stream ∧ codeValue stream = some code
    ∧ raises path (.request path stream) = false

/-- What is handed over is genuine exactly when the value that was stored last fits the buffer and has no zero byte in it. -/
theorem code_genuine_iff {tr : Trace} {p' : Process OneDriveConnect}
    (hrun : Run (getAuthorizeCode p) tr (some code, p')) :
    ∃ path polls, (Redirect.of tr).path = some path ∧ (Redirect.of tr).polls = some polls ∧
      (Genuine path polls code ↔ ∃ stream value, supplier path polls = some stream
        ∧ codeValue stream = some value ∧ value.length ≤ authorizeCodeMax ∧ 0 ∉ value) := by
  obtain ⟨⟨path, polls, hpath, hpolls, -, hleft⟩, hne⟩ := leaves_of_run hrun
  refine ⟨path, polls, hpath, hpolls, ?_⟩
  rw [handled_code] at hleft
  have hraises (stream : SbStream) : raises path (.request path stream) = false ↔ (codeOf stream).2 = .success := by
    simp [raises]
  constructor
  · rintro ⟨stream, hsupplier, hvalue, hsilent⟩
    refine ⟨stream, code, hsupplier, hvalue, ?_, ?_⟩
    · obtain ⟨value, hvalue', hshort⟩ := codeOf_success_iff.1 ((hraises stream).1 hsilent)
      cases hvalue.symm.trans hvalue'
      exact hshort
    · rw [hsupplier, Option.map_some, Option.getD_some] at hleft
      rw [← hleft]
      intro hzero
      simpa using List.mem_takeWhile_imp hzero
  · rintro ⟨stream, value, hsupplier, hvalue, hshort, hzero⟩
    have hwhole : value.take (authorizeCodeSize - 1) = value := by
      apply List.take_of_length_le
      rw [authorizeCodeMax, authorizeCodeSize] at hshort
      rw [authorizeCodeSize]
      omega
    have hstring : cString value = value := by
      have happend := cString_append hzero []
      rw [List.append_nil] at happend
      exact happend.trans (List.append_nil value)
    rw [hsupplier, Option.map_some, Option.getD_some, codeOf_string hvalue, hwhole, hstring] at hleft
    subst hleft
    exact ⟨stream, hsupplier, hvalue, (hraises stream).2 (codeOf_success_iff.2 ⟨value, hvalue, hshort⟩)⟩

end

/-! ### Requests with a code -/

private theorem findVarValue_first (name value : Bytes) :
    Sb.findVarValue (name ++ bytes "=" ++ value) name = some value := by
  have hprefix : (name ++ bytes "=").isPrefixOf (name ++ bytes "=" ++ value) = true :=
    List.isPrefixOf_iff_prefix.2 (List.prefix_append _ _)
  have hlength : (name ++ bytes "=").length = name.length + 1 := List.length_append
  rw [Sb.findVarValue, if_pos hprefix, ← hlength, List.drop_left]

/-- A request whose query starts with the code. -/
def queryStream (value : Bytes) : SbStream := ⟨bytes "?code=" ++ value, 0⟩

private theorem codeValue_queryStream {value : Bytes} (hvalue : 0 ∉ value) :
    codeValue (queryStream value) = some (Sb.decoded value) := by
  have hstring : cString (bytes "?code=" ++ value) = bytes "?code=" ++ value := by
    have hzero : 0 ∉ bytes "?code=" ++ value := by
      rw [List.mem_append]
      exact fun h => h.elim (by decide) hvalue
    have happend := cString_append hzero []
    rw [List.append_nil] at happend
    exact happend.trans (List.append_nil _)
  have hquery : (bytes "?code=" ++ value).dropWhile (fun c => c ≠ 63 ∧ c ≠ 13) = 63 :: (bytes "code" ++ bytes "=" ++ value) := rfl
  have hfind := findVarValue_first (bytes "code") value
  rw [codeValue, Sb.varOf, queryStream, hstring, hquery]
  show Option.map Sb.decoded (match Sb.findVarValue (bytes "code" ++ bytes "=" ++ value) (bytes "code") with
    | some v => some v
    | none => _) = _
  rw [hfind]
  rfl

/-- Bytes that stand for themselves. -/
private theorem urlDecodeLoop_plain {room : Nat} {src : Bytes} (hroom : src.length < room)
    (h : ∀ c ∈ src, Sb.endsVar c = false ∧ c ≠ 37 ∧ c ≠ 43) : Sb.urlDecodeLoop room src = (src, true) := by
  induction src generalizing room with
  | nil =>
      obtain ⟨room, rfl⟩ := Nat.exists_eq_succ_of_ne_zero (Nat.ne_zero_of_lt hroom)
      rfl
  | cons c src ih =>
      obtain ⟨room, rfl⟩ := Nat.exists_eq_succ_of_ne_zero (Nat.ne_zero_of_lt hroom)
      obtain ⟨hends, hpercent, hplus⟩ := h c List.mem_cons_self
      have hrest := ih (Nat.lt_of_succ_lt_succ hroom) fun c' hc' => h c' (List.mem_cons_of_mem c hc')
      rw [Sb.urlDecodeLoop, hrest, hends, if_neg Bool.false_ne_true, if_neg hplus]
      exact fun _ _ _ hc _ => hpercent hc

private theorem decoded_plain {src : Bytes} (h : ∀ c ∈ src, Sb.endsVar c = false ∧ c ≠ 37 ∧ c ≠ 43) :
    Sb.decoded src = src := by
  rw [Sb.decoded, urlDecodeLoop_plain (Nat.lt_succ_self _) h]

/-- A connection that the browser has opened in advance closes before the request with the code has come in. -/
def closesEarly : List (List SbEvent) :=
  [[.connect, .connect, .close], [.request (bytes "/cb") (queryStream (bytes "c")), .close]]

/-- So it is not true that a code is returned whatever else happens. -/
theorem code_lost : ¬ ∀ (p : Process OneDriveConnect) (url host port path code : Bytes) (polls : List (List SbEvent)),
    (∃ stream, .request path stream ∈ polls.flatten ∧ codeValue stream = some code ∧ code.length ≤ authorizeCodeMax) →
    ∃ p', Run (getAuthorizeCode p) (asked url host port path polls) (some code, p') := by
  intro hall
  have hvalue : codeValue (queryStream (bytes "c")) = some (bytes "c") := codeValue_queryStream (by decide)
  obtain ⟨p', hrun⟩ := hall demoProcess [] [] [] (bytes "/cb") (bytes "c") closesEarly
    ⟨queryStream (bytes "c"), by simp [closesEarly], hvalue, by decide⟩
  obtain ⟨⟨path, polls, hpath, hpolls, -, hleft⟩, hne⟩ := leaves_of_run hrun
  cases hpath
  cases hpolls
  exact hne hleft.symm

/-- A request with `value` for its code, on a connection that closes behind it. -/
def onePoll (value : Bytes) : List (List SbEvent) := [[.connect, .request (bytes "/cb") (queryStream value), .close]]

private theorem onePoll_run {value code : Bytes} (hvalue : 0 ∉ value)
    (hcode : cString ((Sb.decoded value).take (authorizeCodeSize - 1)) = code) (hne : code ≠ []) :
    ∃ p', Run (getAuthorizeCode demoProcess) (asked [] [] [] (bytes "/cb") (onePoll value)) (some code, p') := by
  apply run_getAuthorizeCode ⟨_, List.mem_cons_self, rfl⟩ hne
  rw [handled_code]
  show cString (codeOf (queryStream value)).1 = code
  rw [codeOf_string (codeValue_queryStream hvalue), hcode]

theorem code_genuine_short : ∃ p', Run (getAuthorizeCode demoProcess)
      (asked [] [] [] (bytes "/cb") (onePoll (bytes "c"))) (some (bytes "c"), p')
    ∧ ∃ path polls, (Redirect.of (asked [] [] [] (bytes "/cb") (onePoll (bytes "c")))).path = some path
      ∧ (Redirect.of (asked [] [] [] (bytes "/cb") (onePoll (bytes "c")))).polls = some polls
      ∧ (Genuine path polls (bytes "c") ↔ ∃ stream value, supplier path polls = some stream
        ∧ codeValue stream = some value ∧ value.length ≤ authorizeCodeMax ∧ 0 ∉ value) := by
  have hvalue : (0 : UInt8) ∉ bytes "c" := by decide
  have hcode : cString ((Sb.decoded (bytes "c")).take (authorizeCodeSize - 1)) = bytes "c" := by decide
  obtain ⟨p', hrun⟩ := onePoll_run hvalue hcode (by decide)
  exact ⟨p', hrun, code_genuine_iff hrun⟩

/-- A code of 600 bytes is handed over cut to 511, although the handler has reported an error. -/
theorem code_truncated : ∃ p' code, Run (getAuthorizeCode demoProcess)
      (asked [] [] [] (bytes "/cb") (onePoll (List.replicate 600 97))) (some code, p')
    ∧ ∀ stream, .request (bytes "/cb") stream ∈ (onePoll (List.replicate 600 97)).flatten →
      codeValue stream ≠ some code := by
  have hlong : 511 < 600 := by decide
  generalize 600 = n at hlong ⊢
  have hplain : ∀ c ∈ List.replicate n (97 : UInt8), c = 97 := fun c => List.eq_of_mem_replicate
  have hzero : (0 : UInt8) ∉ List.replicate n (97 : UInt8) := fun h => absurd (hplain 0 h) (by decide)
  have hdecoded : Sb.decoded (List.replicate n 97) = List.replicate n 97 := by
    apply decoded_plain
    intro c hc
    rw [hplain c hc]
    decide
  have hvalue := codeValue_queryStream hzero
  rw [hdecoded] at hvalue
  have hcut : cString ((Sb.decoded (List.replicate n 97)).take (authorizeCodeSize - 1))
      = (List.replicate n 97).take (authorizeCodeSize - 1) := by
    rw [hdecoded, cString, List.takeWhile_eq_self_iff]
    intro c hc
    rw [hplain c (List.mem_of_mem_take hc)]
    decide
  have hlength : ((List.replicate n (97 : UInt8)).take (authorizeCodeSize - 1)).length = 511 := by
    rw [List.length_take, List.length_replicate, authorizeCodeSize]
    omega
  obtain ⟨p', hrun⟩ := onePoll_run hzero hcut (List.ne_nil_of_length_pos (by omega))
  refine ⟨p', _, hrun, fun stream hstream hcode => ?_⟩
  have hstream' : stream = queryStream (List.replicate n 97) := by
    rcases List.mem_cons.1 hstream with h | h
    · cases h
    rcases List.mem_cons.1 h with h | h
    · cases h
      rfl
    · cases List.mem_singleton.1 h
  rw [hstream', hvalue] at hcode
  rw [← Option.some.inj hcode, List.length_replicate] at hlength
  omega

end HiveSdk
